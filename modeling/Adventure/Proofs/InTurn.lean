import Adventure.Proofs.Effects
import Adventure.Proofs.Faults
import Adventure.Proofs.Parsing
import Adventure.Proofs.Secrecy

/-!
# A list of phrases is carried out in turn

"take lamp and coin" does what "take lamp" and "take coin" do one after the other, and shows what
they show. This is so for three reasons, which `GoesThrough` puts together for the verbs that go
through their phrases:

* "and" cuts the list into just what is heard of each text on its own (`phrasesOf_listed`);
* in a room that exists a phrase is always done with, even one that finds nothing, and the player is
  in a room then, so the next one gets its turn;
* what has been shown before is only added to (`Appends`), so a phrase shows the same in the middle
  of a list as at the start of a line.

Results:

* `lists_are_carried_out_in_turn`: taking and dropping a list of things is taking and dropping each
  of them.
-/

namespace Adventure

/-! ## Adding to what has been shown -/

/-- The output after what has been shown earlier. -/
def Output.after (output earlier : Output) : Output :=
  ⟨earlier.blocks ++ output.blocks⟩

/-- The turn with what has been shown before it. -/
def Turn.after (turn : Turn) (earlier : Output) : Turn :=
  { turn with output := turn.output.after earlier }

/-- The outcome with what has been shown before it. -/
def Outcome.after (outcome : Outcome) (earlier : Output) : Outcome :=
  match outcome with
  | .done turn => .done (turn.after earlier)
  | .failed error turn => .failed error (turn.after earlier)

/-- The action only adds to what has been shown, and does not look at it. -/
def Appends (action : Turn → Outcome) : Prop :=
  ∀ turn earlier, action (turn.after earlier) = (action turn).after earlier

theorem Output.add_after (output earlier : Output) (kind : BlockKind) (text : String) :
    (output.after earlier).add kind text = (output.add kind text).after earlier := by
  unfold Output.add
  split
  · rfl
  · exact congrArg Output.mk (List.append_assoc ..)

theorem Turn.say_after (turn : Turn) (earlier : Output) (text : String) :
    (turn.after earlier).say text = (turn.say text).after earlier :=
  congrArg (Turn.mk turn.game) (Output.add_after turn.output earlier .text text)

theorem Turn.after_empty (turn : Turn) : Turn.after ⟨turn.game, Output.empty⟩ turn.output = turn :=
  congrArg (fun blocks => Turn.mk turn.game ⟨blocks⟩) (List.append_nil _)

theorem atPosition_after (items : Room → List Item) (index : Nat) (turn : Turn) (earlier : Output)
    {found there : Room → Item → Outcome}
    (h : ∀ room item, there room item = (found room item).after earlier) :
    atPosition items index (turn.after earlier) there =
      (atPosition items index turn found).after earlier := by
  have hgame : (turn.after earlier).game = turn.game := rfl
  unfold atPosition
  rw [hgame]
  cases turn.game.currentRoom with
  | error error => rfl
  | ok room =>
    dsimp only
    cases (items room)[index]? with
    | none => rfl
    | some item => exact h room item

theorem takeAt_appends (index : Nat) : Appends (takeAt index) := fun turn earlier =>
  atPosition_after Room.items index turn earlier fun _ _ =>
    congrArg (fun output => Outcome.done ⟨_, output⟩) (Output.add_after turn.output earlier _ _)

theorem dropAt_appends (index : Nat) : Appends (dropAt index) := fun turn earlier =>
  atPosition_after (fun _ => turn.game.player.inventory) index turn earlier fun _ _ =>
    congrArg (fun output => Outcome.done ⟨_, output⟩) (Output.add_after turn.output earlier _ _)

theorem takePhrase_appends (words : List String) : Appends (takePhrase words) := by
  intro turn earlier
  have hgame : (turn.after earlier).game = turn.game := rfl
  unfold takePhrase
  rw [hgame]
  cases turn.game.currentRoom with
  | error error => rfl
  | ok room =>
    dsimp only
    split
    · exact takeAt_appends _ turn earlier
    · exact congrArg Outcome.done (turn.say_after earlier _)

theorem dropPhrase_appends (words : List String) : Appends (dropPhrase words) := by
  intro turn earlier
  have hgame : (turn.after earlier).game = turn.game := rfl
  rw [dropPhrase_eq, dropPhrase_eq, hgame]
  split
  · exact dropAt_appends _ turn earlier
  · exact congrArg Outcome.done (turn.say_after earlier _)

/-! ## Verbs that go through their phrases -/

/-- In a room that exists, the verb does one thing for each phrase, unless there is none or all is
asked for; this is always done, leaves the player in a room, and adds to what has been shown. -/
structure GoesThrough (verb : String) (action : Action) (each : List String → Turn → Outcome) :
    Prop where
  isVerb : IsVerb verb action
  run_eq : ∀ (command : Command) (turn : Turn), turn.Placed → command.phrases ≠ [] →
    command.isAll = false → action.run command turn = forEach each command.phrases turn
  done : ∀ words turn, turn.Placed → ∃ mid, each words turn = .done mid ∧ mid.Placed
  appends : ∀ words, Appends (each words)

theorem goesThrough_take : GoesThrough "take" .take takePhrase where
  isVerb := isVerb_take
  run_eq := by
    rintro command turn ⟨room, hroom⟩ hphrases hall
    have hsome : command.phrases.isEmpty = false := List.isEmpty_eq_false_iff.mpr hphrases
    rw [Action.run, take, hroom, hsome, hall]
    rfl
  done := by
    intro words turn hturn
    obtain ⟨mid, hmid, hplaced, -⟩ := takePhrase_done words turn hturn
    exact ⟨mid, hmid, hplaced⟩
  appends := takePhrase_appends

theorem goesThrough_drop : GoesThrough "drop" .drop dropPhrase where
  isVerb := isVerb_drop
  run_eq := by
    intro command turn _ hphrases hall
    have hsome : command.phrases.isEmpty = false := List.isEmpty_eq_false_iff.mpr hphrases
    rw [Action.run, drop, hsome, hall]
    rfl
  done := by
    intro words turn hturn
    obtain ⟨mid, hmid, hplaced, -⟩ := dropPhrase_done words turn hturn
    exact ⟨mid, hmid, hplaced⟩
  appends := dropPhrase_appends

/-! ## Lists of texts -/

/-- The text stands for one thing: a word of it has a meaning, "and" is not among its words, and it
is not heard as "all". -/
structure NamesOne (text : String) : Prop where
  meant : ∃ token ∈ tokens text, isNoise token = false
  no_separator : listSeparator ∉ tokens text
  not_all : phraseWords text ≠ ["all"]

instance (text : String) : Decidable (NamesOne text) :=
  decidable_of_iff ((∃ token ∈ tokens text, isNoise token = false) ∧ listSeparator ∉ tokens text ∧
      phraseWords text ≠ ["all"])
    ⟨fun ⟨hmeant, hsep, hall⟩ => ⟨hmeant, hsep, hall⟩,
      fun ⟨hmeant, hsep, hall⟩ => ⟨hmeant, hsep, hall⟩⟩

theorem NamesOne.ne_nil {text : String} (h : NamesOne text) : phraseWords text ≠ [] :=
  stripNoise_ne_nil_iff.mpr h.meant

theorem tokens_and (a b : String) :
    tokens (a ++ " and " ++ b) = tokens a ++ listSeparator :: tokens b := by
  have hspaces : " and " = " " ++ "and" ++ " " := rfl
  have hlisted : a ++ " and " ++ b = a ++ " " ++ "and" ++ " " ++ b := by
    rw [hspaces]
    simp only [String.append_assoc]
  have hand : tokens "and" = [listSeparator] := by decide
  rw [hlisted, tokens_space, tokens_space, hand, List.append_assoc, List.singleton_append]

theorem tokens_listed (texts : List String) :
    tokens (" and ".intercalate texts) = [listSeparator].intercalate (texts.map tokens) := by
  induction texts with
  | nil => rfl
  | cons text texts ih =>
    cases texts with
    | nil => rw [String.intercalate_singleton, List.map_singleton, List.intercalate_singleton]
    | cons next texts =>
      simp only [List.map_cons] at ih ⊢
      rw [String.intercalate_cons_cons, tokens_and, ih, List.intercalate_cons_cons,
        List.append_assoc, List.singleton_append]

section

variable {texts : List String}

/-- **A list is cut into what is heard of each text.** -/
theorem phrasesOf_listed (h : ∀ text ∈ texts, NamesOne text) :
    Command.phrasesOf (tokens (" and ".intercalate texts)) = texts.map phraseWords := by
  rw [tokens_listed, phrasesOf_intercalate, List.map_map]
  · rfl
  · exact List.forall_mem_map.mpr fun text htext => (h text htext).no_separator
  · exact List.forall_mem_map.mpr fun text htext => (h text htext).ne_nil

/-- A list is heard as "all" only if its one text is. -/
theorem phraseWords_listed_ne_all (h : ∀ text ∈ texts, NamesOne text) :
    phraseWords (" and ".intercalate texts) ≠ ["all"] := by
  rw [phraseWords, ← flatten_phrasesOf, phrasesOf_listed h]
  intro hall
  have hsingle := eq_singleton_of_flatten
    (List.forall_mem_map.mpr fun text htext => (h text htext).ne_nil) hall
  obtain ⟨text, rfl, htext⟩ := List.map_eq_singleton_iff.mp hsingle
  exact (h text List.mem_cons_self).not_all htext

end

/-! ## One after the other -/

/-- What a line is done with is the reply to it. -/
theorem step_of_done {line : String} (hquit : isQuit line = false) {game : Game} {turn : Turn}
    (h : VerbTable.standard.attempt line ⟨game, Output.empty⟩ = .done turn) :
    game.step line = { game := turn.game, output := turn.output, quit := false } := by
  rw [Game.step, hquit, VerbTable.execute, h]
  rfl

namespace GoesThrough

variable {verb : String} {action : Action} {each : List String → Turn → Outcome} {turn : Turn}
  {texts : List String}

/-- A line with a list of texts goes through what is heard of them. -/
theorem attempt_listed (h : GoesThrough verb action each) (hturn : turn.Placed)
    (hnonempty : texts ≠ []) (hone : ∀ text ∈ texts, NamesOne text) :
    VerbTable.standard.attempt (verb ++ " " ++ " and ".intercalate texts) turn =
      forEach each (texts.map phraseWords) turn := by
  have hphrases := phrasesOf_listed hone
  rw [h.isVerb.attempt, hphrases, h.run_eq _ _ hturn]
  · rwa [Ne, List.map_eq_nil_iff]
  · exact beq_eq_false_iff_ne.mpr (phraseWords_listed_ne_all hone)

/-- What is done for one text is the reply to the line with this text alone. -/
theorem step_of_each (h : GoesThrough verb action each) {game : Game} {output : Output}
    (hgame : Turn.Placed ⟨game, output⟩) {text : String} (hone : NamesOne text) {mid : Turn}
    (hmid : each (phraseWords text) ⟨game, Output.empty⟩ = .done mid) :
    game.step (verb ++ " " ++ text) =
      { game := mid.game, output := mid.output, quit := false } := by
  refine step_of_done (h.isVerb.not_quit text) ?_
  have hsingle := @attempt_listed verb action each ⟨game, Output.empty⟩ [text] h hgame
    (List.cons_ne_nil _ _) (List.forall_mem_singleton.mpr hone)
  rw [String.intercalate_singleton] at hsingle
  rw [hsingle, List.map_singleton, forEach, hmid]
  rfl

/-- **Going through a list comes to the run of the single lines**, and adds their replies to what
has been shown. -/
theorem forEach_eq (h : GoesThrough verb action each) (hturn : turn.Placed)
    (hone : ∀ text ∈ texts, NamesOne text) :
    forEach each (texts.map phraseWords) turn = .done
      { game := turn.game.run (texts.map (verb ++ " " ++ ·))
        output := ⟨turn.output.blocks ++
          (turn.game.replies (texts.map (verb ++ " " ++ ·))).flatMap (·.1.blocks)⟩ } := by
  induction texts generalizing turn with
  | nil =>
    exact congrArg (fun blocks => Outcome.done ⟨turn.game, ⟨blocks⟩⟩) (List.append_nil _).symm
  | cons text texts ih =>
    obtain ⟨hfirst, hrest⟩ := List.forall_mem_cons.mp hone
    -- the phrase is done for as if nothing had been shown before
    obtain ⟨mid, hmid, hplaced⟩ := h.done (phraseWords text) ⟨turn.game, Output.empty⟩ hturn
    have hstep := h.step_of_each hturn hfirst hmid
    have heach : each (phraseWords text) turn = .done (mid.after turn.output) := by
      calc each (phraseWords text) turn
          = each (phraseWords text) (Turn.after ⟨turn.game, Output.empty⟩ turn.output) := by
            rw [Turn.after_empty]
        _ = (each (phraseWords text) ⟨turn.game, Output.empty⟩).after turn.output :=
            h.appends (phraseWords text) _ _
        _ = .done (mid.after turn.output) := by
            rw [hmid]
            rfl
    rw [List.map_cons, List.map_cons, forEach, heach, Outcome.andThen,
      @ih (mid.after turn.output) hplaced hrest, run_cons, Game.replies, hstep]
    simp only [Turn.after, Output.after, List.flatMap_cons, List.append_assoc]

end GoesThrough

/-- **Taking or dropping a list of things is taking or dropping each of them**, in the order of the
list: the game is the same in the end, and what is shown is what is shown for each. A text that
finds nothing, or more than one thing, is no exception, and the texts after it get their turn. -/
theorem lists_are_carried_out_in_turn {game : Game} {room : Room}
    (hroom : game.currentRoom = .ok room) {texts : List String} (hnonempty : texts ≠ [])
    (hone : ∀ text ∈ texts, NamesOne text) {verb : String} (hverb : verb ∈ ["take", "drop"]) :
    game.step (verb ++ " " ++ " and ".intercalate texts) =
      { game := game.run (texts.map (verb ++ " " ++ ·))
        output := ⟨(game.replies (texts.map (verb ++ " " ++ ·))).flatMap (·.1.blocks)⟩
        quit := false } := by
  have hthrough : ∃ action each, GoesThrough verb action each := by
    rcases List.mem_pair.mp hverb with rfl | rfl
    · exact ⟨_, _, goesThrough_take⟩
    · exact ⟨_, _, goesThrough_drop⟩
  obtain ⟨action, each, h⟩ := hthrough
  have hplaced : Turn.Placed ⟨game, Output.empty⟩ := ⟨room, hroom⟩
  exact step_of_done (h.isVerb.not_quit _)
    ((h.attempt_listed hplaced hnonempty hone).trans (h.forEach_eq hplaced hone))

/-- In the vault the lamp is taken between a gem that is not there and a coin that is not the only
one. -/
theorem lamp_taken_between_failures :
    (∃ room, vault.currentRoom = .ok room) ∧
    (∀ text ∈ ["gem", "the LAMP", "coin"], NamesOne text) ∧
    vault.step "take gem and the LAMP and coin" =
      { game := vault.run ["take gem", "take the LAMP", "take coin"]
        output :=
          ⟨(vault.replies ["take gem", "take the LAMP", "take coin"]).flatMap (·.1.blocks)⟩
        quit := false } ∧
    (vault.run ["take gem", "take the LAMP", "take coin"]).player.inventory.map (·.id) = ["l"] := by
  have hroom : vault.currentRoom = .ok ⟨"a", "", "",
      [Item.make "c" "coin" "", Item.make "l" "lamp" "", Item.make "d" "coin" ""]⟩ := rfl
  have hone : ∀ text ∈ ["gem", "the LAMP", "coin"], NamesOne text := by decide
  have hstep := @lists_are_carried_out_in_turn vault _ hroom ["gem", "the LAMP", "coin"]
    (List.cons_ne_nil _ _) hone "take" (by decide)
  have hline : "take" ++ " " ++ " and ".intercalate ["gem", "the LAMP", "coin"] =
      "take gem and the LAMP and coin" := by decide
  rw [hline] at hstep
  exact ⟨⟨_, hroom⟩, hone, hstep, by decide +kernel⟩

end Adventure
