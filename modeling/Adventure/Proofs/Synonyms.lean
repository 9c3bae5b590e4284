import Adventure.Proofs.Loading
import Adventure.Proofs.Phrases

/-!
# Words that mean the same

No action looks at the verb that led to it (`Action.run_verb`), so words with routes to the same
action and no arguments of their own are synonyms (`interchangeable_of_leadsTo`).

A shortcut puts its direction in front of the arguments and makes one phrase of them, whereas the
direction typed after "go" is one of the arguments from the beginning. "go" looks at the arguments
only (`go_eq_of_args_eq`), so both come to the same (`interchangeable_of_shortcut`).

"look" sees an object in any argument other than "at", "examine" in what is left when each "at" in
front of the arguments is passed over. There is something left exactly when there is such an
argument, so the two never differ (`look_eq_examine`).

Results:

* `synonyms_are_interchangeable`: the synonyms and shortcuts of the game, with any text after them.
-/

namespace Adventure

/-! ## What actions look at -/

/-- No action looks at the verb that led to it. -/
theorem Action.run_verb (action : Action) (command : Command) (verb : String) (turn : Turn) :
    action.run { command with verb := verb } turn = action.run command turn := by
  cases action <;> rfl

/-- Going depends on the arguments alone. -/
theorem go_eq_of_args_eq {command other : Command} (h : command.args = other.args) (turn : Turn) :
    go command turn = go other turn := by
  have hobject : command.object? = other.object? := by
    unfold Command.object?
    rw [h]
  unfold go
  rw [hobject]

/-- **Looking is examining**, with any arguments. -/
theorem look_eq_examine (command : Command) (turn : Turn) :
    look command turn = examine command turn := by
  unfold look
  by_cases h : command.args.any (· != "at") = true
  · rw [if_pos h]
  · have hwords : command.args.dropWhile (· == "at") = [] := by
      refine Text.dropWhile_eq_nil_iff.mpr fun word hword => ?_
      by_contra hne
      exact h (List.any_eq_true.mpr ⟨word, hword, by simpa using hne⟩)
    rw [if_neg h]
    unfold lookAround examine
    rw [hwords]
    rfl

/-! ## Interchangeable words -/

/-- With any text after them, and in any turn, the two beginnings of a line come to the same. -/
def VerbTable.Interchangeable (table : VerbTable) (a b : String) : Prop :=
  ∀ (rest : String) (turn : Turn),
    table.execute (a ++ " " ++ rest) turn = table.execute (b ++ " " ++ rest) turn

/-- The word is one token with a meaning, and its route puts these arguments in front of those typed
after it. -/
structure VerbTable.LeadsTo (table : VerbTable) (word : String) (action : Action)
    (implied : List String) : Prop where
  token : tokens word = [word]
  meant : isNoise word = false
  route : ∃ verb, table.get? word = some { verb := verb, action := action, implied := implied }

theorem Route.args_expand (route : Route) (command : Command) :
    (route.expand command).args = route.implied ++ command.args := by
  unfold expand
  by_cases h : route.implied.isEmpty = true
  · rw [if_pos h, List.isEmpty_iff.mp h, List.nil_append]
  · rw [if_neg h]
    rfl

section

variable {table : VerbTable} {word : String} {action : Action}

namespace VerbTable.LeadsTo

theorem attempt_eq {implied : List String} (h : table.LeadsTo word action implied) (rest : String)
    (turn : Turn) : ∃ verb, table.attempt (word ++ " " ++ rest) turn = action.run
      (Route.expand { verb := verb, action := action, implied := implied }
        { verb := word, args := phraseWords rest, phrases := Command.phrasesOf (tokens rest) })
      turn := by
  obtain ⟨verb, hroute⟩ := h.route
  refine ⟨verb, ?_⟩
  unfold VerbTable.attempt
  rw [parse_word h.token h.meant]
  exact @dispatch_of_route table ⟨word, _, _⟩ _ hroute turn

/-- A word without arguments of its own leads to the action with what is typed after it. -/
theorem attempt (h : table.LeadsTo word action []) (verb rest : String) (turn : Turn) :
    table.attempt (word ++ " " ++ rest) turn = action.run
      { verb := verb, args := phraseWords rest, phrases := Command.phrasesOf (tokens rest) }
      turn := by
  obtain ⟨standsFor, hattempt⟩ := h.attempt_eq rest turn
  rw [hattempt]
  exact action.run_verb ⟨verb, phraseWords rest, Command.phrasesOf (tokens rest)⟩ word turn

/-- A word that leads to "go" puts its own arguments in front of what is typed after it. -/
theorem attempt_go {implied : List String} (h : table.LeadsTo word .go implied) (rest : String)
    (turn : Turn) (command : Command) (hargs : command.args = implied ++ phraseWords rest) :
    table.attempt (word ++ " " ++ rest) turn = go command turn := by
  obtain ⟨verb, hattempt⟩ := h.attempt_eq rest turn
  rw [hattempt]
  refine go_eq_of_args_eq ?_ turn
  rw [Route.args_expand, hargs]

end VerbTable.LeadsTo

/-- **Words that lead to the same action are interchangeable**, if the routes add no arguments. -/
theorem interchangeable_of_leadsTo {other : String} {action' : Action}
    (h : table.LeadsTo word action []) (h' : table.LeadsTo other action' [])
    (hsame : ∀ command turn, action.run command turn = action'.run command turn) :
    table.Interchangeable word other := by
  intro rest turn
  unfold VerbTable.execute
  rw [h.attempt word, h'.attempt word, hsame]

/-- **A shortcut is interchangeable with "go" and its direction.** -/
theorem interchangeable_of_shortcut {verb direction : String}
    (h : table.LeadsTo word .go [direction]) (hgo : table.LeadsTo verb .go [])
    (htoken : tokens direction = [direction]) (hmeant : isNoise direction = false) :
    table.Interchangeable word (verb ++ " " ++ direction) := by
  intro rest turn
  have hline : verb ++ " " ++ direction ++ " " ++ rest =
      verb ++ " " ++ (direction ++ " " ++ rest) := by
    simp only [String.append_assoc]
  have hwords : phraseWords (direction ++ " " ++ rest) = [direction] ++ phraseWords rest := by
    unfold phraseWords
    rw [tokens_space, htoken, stripNoise_append, stripNoise_of_forall (by simpa using hmeant)]
  have hword := h.attempt_go rest turn
    ⟨verb, [direction] ++ phraseWords rest, Command.phrasesOf (tokens (direction ++ " " ++ rest))⟩
    rfl
  unfold VerbTable.execute
  rw [hline, hgo.attempt verb, hwords, hword, Action.run]

end

/-! ## The words of the game -/

/-- The words of the game are tokens with a meaning. -/
theorem leadsTo_of_standard {word verb : String} {action : Action} {implied : List String}
    (h : VerbTable.standard.get? word =
      some { verb := verb, action := action, implied := implied }) :
    VerbTable.standard.LeadsTo word action implied := by
  have hwords : ∀ e ∈ VerbTable.standard.entries, tokens e.1 = [e.1] ∧ isNoise e.1 = false := by
    decide +kernel
  have hword := hwords _ (Table.get?_eq_some_iff.mp h)
  exact ⟨hword.1, hword.2, verb, h⟩

/-- **The synonyms and shortcuts of the game are interchangeable** with the verbs that they stand
for, whatever is typed after them; and looking is examining. -/
theorem synonyms_are_interchangeable :
    (∀ word ∈ ["get", "pickup"], VerbTable.standard.Interchangeable word "take") ∧
    VerbTable.standard.Interchangeable "i" "inventory" ∧
    VerbTable.standard.Interchangeable "?" "help" ∧
    (∀ word ∈ ["x", "l", "look"], VerbTable.standard.Interchangeable word "examine") ∧
    (∀ shortcut ∈ [("north", "n"), ("south", "s"), ("east", "e"), ("west", "w")],
      VerbTable.standard.Interchangeable shortcut.1 ("go " ++ shortcut.1) ∧
      VerbTable.standard.Interchangeable shortcut.2 ("go " ++ shortcut.1)) ∧
    ∀ (command : Command) (turn : Turn), look command turn = examine command turn := by
  have htake : ∀ word ∈ ["take", "get", "pickup"],
      VerbTable.standard.get? word = some ⟨"take", .take, []⟩ := by decide
  have hinventory : ∀ word ∈ ["inventory", "i"],
      VerbTable.standard.get? word = some ⟨"inventory", .inventory, []⟩ := by decide
  have hhelp : ∀ word ∈ ["help", "?"],
      VerbTable.standard.get? word = some ⟨"help", .help, []⟩ := by decide
  have hexamine : ∀ word ∈ ["examine", "x"],
      VerbTable.standard.get? word = some ⟨"examine", .examine, []⟩ := by decide
  have hlook : ∀ word ∈ ["l", "look"],
      VerbTable.standard.get? word = some ⟨"look", .look, []⟩ := by decide
  have hgo : VerbTable.standard.get? "go" = some ⟨"go", .go, []⟩ := by decide
  have hshortcut : ∀ shortcut ∈ [("north", "n"), ("south", "s"), ("east", "e"), ("west", "w")],
      VerbTable.standard.get? shortcut.1 = some ⟨"go", .go, [shortcut.1]⟩ ∧
      VerbTable.standard.get? shortcut.2 = some ⟨"go", .go, [shortcut.1]⟩ := by decide
  refine ⟨fun word hword => ?_, ?_, ?_, fun word hword => ?_, fun shortcut hmem => ?_,
    look_eq_examine⟩
  · exact interchangeable_of_leadsTo
      (leadsTo_of_standard (htake word (List.mem_cons_of_mem _ hword)))
      (leadsTo_of_standard (htake "take" (by decide))) fun _ _ => rfl
  · exact interchangeable_of_leadsTo (leadsTo_of_standard (hinventory "i" (by decide)))
      (leadsTo_of_standard (hinventory "inventory" (by decide))) fun _ _ => rfl
  · exact interchangeable_of_leadsTo (leadsTo_of_standard (hhelp "?" (by decide)))
      (leadsTo_of_standard (hhelp "help" (by decide))) fun _ _ => rfl
  · have hexamines := leadsTo_of_standard (hexamine "examine" (by decide))
    rcases List.mem_cons.mp hword with rfl | hword
    · exact interchangeable_of_leadsTo (leadsTo_of_standard (hexamine "x" (by decide))) hexamines
        fun _ _ => rfl
    · have hlooks := leadsTo_of_standard (hlook word hword)
      exact interchangeable_of_leadsTo hlooks hexamines look_eq_examine
  · obtain ⟨hword, habbreviation⟩ := hshortcut shortcut hmem
    have hdirection := leadsTo_of_standard hword
    have hgoes := leadsTo_of_standard hgo
    have hline : "go " = "go" ++ " " := rfl
    rw [hline]
    exact ⟨interchangeable_of_shortcut hdirection hgoes hdirection.token hdirection.meant,
      interchangeable_of_shortcut (leadsTo_of_standard habbreviation) hgoes hdirection.token
        hdirection.meant⟩

/-- "pickup" may be said for "take", "l" for "examine" and "n" for "go north"; so in the cave, "n"
goes north with noise and all. -/
theorem cave_left_by_shortcut : ∃ world, World.load caveText = .ok world ∧
    VerbTable.standard.Interchangeable "pickup" "take" ∧
    VerbTable.standard.Interchangeable "l" "examine" ∧
    VerbTable.standard.execute ("n" ++ " " ++ "and THEN my") ⟨Game.start world, Output.empty⟩ =
      VerbTable.standard.execute ("go " ++ "north" ++ " " ++ "and THEN my")
        ⟨Game.start world, Output.empty⟩ := by
  obtain ⟨world, hload⟩ := exists_cave
  obtain ⟨htake, -, -, hexamine, hshortcut, -⟩ := synonyms_are_interchangeable
  exact ⟨world, hload, htake "pickup" (by decide), hexamine "l" (by decide),
    (hshortcut ("north", "n") (by decide)).2 "and THEN my" _⟩

end Adventure
