import Adventure.Proofs.Faults
import Adventure.Proofs.Locks
import Adventure.Proofs.Plan
import Adventure.Proofs.Shape
import Adventure.Proofs.Synonyms

/-!
# Every line is answered

Names, descriptions and the texts of unlocking rules may be blank, and blank texts are not shown.
What is never blank is the text of a rule that shows a message, as loading makes sure
(`worded_of_ofDraft`), and what the game says in its own words: each error has a message
(`CommandError.worded`), and each action that is done says something of its own or shows a room,
which ends with the exits.

So an action that is done ends with text or with exits, or it fails with something to report
(`Outcome.Answers`, `Action.run_answers`). The exception is a use that opens an item; it ends with
an event, which says what came out (`step_of_opensAt`).

Results:

* `answers_are_well_shaped`: the opening and every answer, in every game that can be got to.
-/

namespace Adventure

/-! ## Errors -/

/-- The player is told something about the error. -/
def CommandError.Worded (error : CommandError) : Prop :=
  Text.isBlankText error.message = false

instance (error : CommandError) : Decidable error.Worded :=
  inferInstanceAs (Decidable (Text.isBlankText error.message = false))

/-- The text that comes with an error and is all that is told about it. -/
def CommandError.given? : CommandError → Option String
  | .missingArgument question => some question
  | .usage text => some text
  | .refused reason => some reason
  | _ => none

/-- **Each error has something to say**, if the text that comes with it has. -/
theorem CommandError.worded {error : CommandError}
    (h : ∀ text, error.given? = some text → Text.isBlankText text = false) : error.Worded := by
  cases error with
  | emptyCommand => decide
  | unknownVerb verb => exact Text.not_blank_filled (by decide) _ _
  | missingArgument question => exact h question rfl
  | usage text => exact h text rfl
  | noExit => decide
  | noMatch phrase scope =>
    cases scope with
    | room => exact Text.not_blank_filled (by decide) _ _
    | inventory => exact Text.not_blank_filled (by decide) _ _
    | everywhere => exact Text.not_blank_filled (by decide) _ _
  | ambiguous names => exact Text.not_blank_filled (by decide) _ _
  | refused reason => exact h reason rfl
  | missingRoom room => exact Text.not_blank_filled (by decide) _ _
  | noItemAt index => exact Text.not_blank_filled (by decide) _ _

section Lookups

variable {error : CommandError} {game : Game}

theorem Resolution.worded_of_toExcept {resolution : Resolution} {phrase : String} {scope : Scope}
    (h : resolution.toExcept phrase scope = .error error) : error.Worded := by
  cases resolution with
  | found located => cases h
  | notFound =>
    obtain rfl := Except.error.inj h
    exact CommandError.worded nofun
  | ambiguous items =>
    obtain rfl := Except.error.inj h
    exact CommandError.worded nofun

theorem Game.worded_of_currentRoom (h : game.currentRoom = .error error) : error.Worded := by
  obtain ⟨-, rfl⟩ := Game.currentRoom_eq_error_iff.mp h
  exact CommandError.worded nofun

theorem worded_of_findUsing {command : Command} (h : findUsing command game = .error error) :
    error.Worded := by
  simp only [findUsing, bind_eq_error_iff] at h
  rcases h with h | ⟨pairing, -, h | ⟨room, -, h | ⟨item, -, h | ⟨target, -, h⟩⟩⟩⟩
  · obtain rfl := Pairing.eq_usage_of_ofWords h
    decide
  · exact Game.worded_of_currentRoom h
  · exact Resolution.worded_of_toExcept h
  · exact Resolution.worded_of_toExcept h
  · cases h

end Lookups

/-! ## Outcomes -/

namespace Outcome

/-- The action is done and has shown some text and nothing else, or it has shown text at most and
fails with an error to report. -/
def Speaks : Outcome → Prop
  | .done after => after.output.Spoken
  | .failed error after => after.output.Plain ∧ error.Worded

/-- The action is done and ends with text or with exits, or it has shown text at most and fails with
an error to report. -/
def Answers : Outcome → Prop
  | .done after => after.output.Uneventful
  | .failed error after => after.output.Plain ∧ error.Worded

theorem Speaks.answers {outcome : Outcome} (h : outcome.Speaks) : outcome.Answers := by
  cases outcome with
  | done after => exact Or.inl (Output.Spoken.closesWith h)
  | failed error after => exact h

theorem Speaks.andThen {outcome : Outcome} {next : Turn → Outcome} (h : outcome.Speaks)
    (hnext : ∀ turn, turn.output.Spoken → (next turn).Speaks) : (outcome.andThen next).Speaks := by
  cases outcome with
  | done after => exact hnext after h
  | failed error after => exact h

end Outcome

section Loops

/-- Where nothing but text has been shown, the action says something. -/
def Speaking (action : Turn → Outcome) : Prop :=
  ∀ turn, turn.output.Plain → (action turn).Speaks

variable {α : Type} {action : α → Turn → Outcome}

/-- What has been said once is still there after any number of rounds. -/
theorem forEach_speaks_of_spoken (h : ∀ a, Speaking (action a)) (l : List α) {turn : Turn}
    (hturn : turn.output.Spoken) : (forEach action l turn).Speaks := by
  induction l generalizing turn with
  | nil => exact hturn
  | cons a l ih => exact (h a turn hturn.plain).andThen fun mid hmid => ih hmid

/-- **A loop that has at least one round says something** when each round does. -/
theorem forEach_speaks (h : ∀ a, Speaking (action a)) {l : List α} (hl : l ≠ []) :
    Speaking (forEach action l) := by
  cases l with
  | nil => exact absurd rfl hl
  | cons a l =>
    intro turn hturn
    exact (h a turn hturn).andThen fun mid hmid => forEach_speaks_of_spoken h l hmid

end Loops

/-! ## Actions -/

section Actions

variable {turn : Turn}

theorem Turn.spoken_say (h : turn.output.Plain) {text : String}
    (htext : Text.isBlankText text = false) : (turn.say text).output.Spoken :=
  h.spoken_say htext

theorem atPosition_speaks (items : Room → List Item) (index : Nat) {found : Room → Item → Outcome}
    (h : turn.output.Plain) (hfound : ∀ room item, (found room item).Speaks) :
    (atPosition items index turn found).Speaks := by
  unfold atPosition
  cases hroom : turn.game.currentRoom with
  | error error => exact ⟨h, Game.worded_of_currentRoom hroom⟩
  | ok room =>
    dsimp only
    cases (items room)[index]? with
    | none => exact ⟨h, CommandError.worded nofun⟩
    | some item => exact hfound room item

theorem takeAt_speaks (index : Nat) : Speaking (takeAt index) := fun _ h =>
  atPosition_speaks Room.items index h fun _ _ =>
    h.spoken_say (Text.not_blank_filled (by decide) _ _)

theorem dropAt_speaks (index : Nat) : Speaking (dropAt index) := fun turn h =>
  atPosition_speaks (fun _ => turn.game.player.inventory) index h fun _ _ =>
    h.spoken_say (Text.not_blank_filled (by decide) _ _)

theorem takePhrase_speaks (words : List String) : Speaking (takePhrase words) := by
  intro turn h
  unfold takePhrase
  cases hroom : turn.game.currentRoom with
  | error error => exact ⟨h, Game.worded_of_currentRoom hroom⟩
  | ok room =>
    dsimp only
    split
    · exact takeAt_speaks _ turn h
    · rename_i error hfound
      exact Turn.spoken_say h (Resolution.worded_of_toExcept hfound)

theorem dropPhrase_speaks (words : List String) : Speaking (dropPhrase words) := by
  intro turn h
  unfold dropPhrase
  dsimp only
  split
  · exact dropAt_speaks _ turn h
  · rename_i error hfound
    exact Turn.spoken_say h (Resolution.worded_of_toExcept hfound)

/-- Doing something to each of a number of items says something, if there are any. -/
theorem repeatTimes_speaks {action : Turn → Outcome} (h : Speaking action) {items : List Item}
    (hitems : items.isEmpty ≠ true) : Speaking (repeatTimes action items.length) := by
  intro turn hturn
  rw [repeatTimes_eq_forEach]
  refine forEach_speaks (fun _ => h) (fun hnil => hitems ?_) turn hturn
  rw [List.replicate_eq_nil_iff, List.length_eq_zero_iff] at hnil
  exact List.isEmpty_iff.mpr hnil

theorem take_speaks (command : Command) : Speaking (take command) := by
  intro turn h
  unfold take
  cases hroom : turn.game.currentRoom with
  | error error => exact ⟨h, Game.worded_of_currentRoom hroom⟩
  | ok room =>
    dsimp only
    split
    · split
      · exact ⟨h, by decide⟩
      · exact takeAt_speaks 0 turn h
      · exact ⟨h, by decide⟩
    · rename_i hphrases
      split
      · split
        · exact ⟨h, by decide⟩
        · rename_i hitems
          exact repeatTimes_speaks (takeAt_speaks 0) hitems turn h
      · exact forEach_speaks takePhrase_speaks (mt List.isEmpty_iff.mpr hphrases) turn h

theorem drop_speaks (command : Command) : Speaking (drop command) := by
  intro turn h
  unfold drop
  split
  · exact ⟨h, by decide⟩
  · rename_i hphrases
    split
    · split
      · exact ⟨h, by decide⟩
      · rename_i hitems
        exact repeatTimes_speaks (dropAt_speaks 0) hitems turn h
    · exact forEach_speaks dropPhrase_speaks (mt List.isEmpty_iff.mpr hphrases) turn h

theorem inventory_speaks : Speaking inventory := by
  intro turn h
  unfold inventory
  split
  · exact Turn.spoken_say h (by decide)
  · exact Output.Spoken.sayAll (h.spoken_say (by decide)) _

theorem help_speaks : Speaking help := fun _ h =>
  Output.Spoken.sayAll (h.spoken_say (by decide)) _

theorem examine_answers (command : Command) (h : turn.output.Plain) :
    (examine command turn).Answers := by
  unfold examine
  cases hroom : turn.game.currentRoom with
  | error error => exact ⟨h, Game.worded_of_currentRoom hroom⟩
  | ok room =>
    dsimp only
    split
    · exact Or.inr (h.addRoom _ _)
    · split
      · rename_i error hfound
        exact ⟨h, Resolution.worded_of_toExcept hfound⟩
      · exact Or.inl (h.addItem _).closesWith

theorem go_answers (command : Command) (h : turn.output.Plain) : (go command turn).Answers := by
  unfold go
  cases command.object? with
  | none => exact ⟨h, by decide⟩
  | some direction =>
    dsimp only
    cases turn.game.world.exit? turn.game.player.room direction with
    | none => exact ⟨h, CommandError.worded nofun⟩
    | some target =>
      dsimp only
      cases turn.game.world.room? target with
      | none => exact ⟨h, CommandError.worded nofun⟩
      | some room => exact Or.inr ((h.say _).addRoom _ _)

end Actions

/-! ## Using -/

/-- Each rule that shows a message has something to show. -/
def World.Worded (world : World) : Prop :=
  ∀ rule ∈ world.useRules, ∀ text, rule.effect = .message text → Text.isBlankText text = false

theorem worded_of_toRule {entry : RuleEntry} {rule : UseRule} {text : String}
    (h : entry.toRule = .ok rule) (heffect : rule.effect = .message text) :
    Text.isBlankText text = false := by
  unfold RuleEntry.toRule at h
  dsimp only at h
  split at h
  · obtain rfl := Except.ok.inj h
    cases heffect
  · split at h
    · split at h
      · rename_i given hgiven
        obtain rfl := Except.ok.inj h
        obtain rfl := UseEffect.message.inj heffect
        simpa using (Option.filter_eq_some_iff.mp hgiven).2
      · cases h
    · cases h

/-- **Loading refuses messages without words.** -/
theorem worded_of_ofDraft {draft : Draft} {world : World} (h : World.ofDraft draft = .ok world) :
    world.Worded := by
  obtain ⟨map, declared, placement, rules, hloads, rfl⟩ := ofDraft_eq_ok_iff.mp h
  intro rule hrule message heffect
  obtain ⟨entry, -, hentry⟩ := exists_of_mem_mapM hloads.effects hrule
  exact worded_of_toRule hentry heffect

/-- A use that opens nothing is answered with text. -/
theorem useItem_speaks {command : Command} {turn : Turn} (hworded : turn.game.world.Worded)
    (hnot : ∀ pairing room key target rule,
      ¬ UseOpens command turn.game pairing room key target rule) (h : turn.output.Plain) :
    (useItem command turn).Speaks := by
  unfold useItem
  cases hfound : findUsing command turn.game with
  | error error => exact ⟨h, worded_of_findUsing hfound⟩
  | ok found =>
    dsimp only
    cases heffect : turn.game.world.effectOf? found.item.name found.target.name
        found.preposition with
    | none =>
      refine Turn.spoken_say h ?_
      repeat refine Text.not_blank_append ?_ _
      decide
    | some effect =>
      cases effect with
      | message text =>
        obtain ⟨rule, hrule, hshows⟩ := Option.map_eq_some_iff.mp heffect
        exact Turn.spoken_say h (hworded rule (List.mem_of_find?_eq_some hrule) text hshows)
      | unlock text =>
        obtain ⟨room, hroom, hitem⟩ := on_floor_of_findUsing hfound
        cases hlocked : found.target.locked with
        | true =>
          obtain ⟨pairing, room, key, target, rule, hopens⟩ :=
            exists_useOpens hfound heffect hlocked
          exact absurd hopens (hnot pairing room key target rule)
        | false =>
          -- the rule unlocks, but there is no lock
          simp only [unlockAt, hroom, hitem, hlocked]
          exact ⟨h, Text.not_blank_filled (by decide) _ _⟩

/-- **Every action answers**, unless it opens an item. -/
theorem Action.run_answers {action : Action} {command : Command} {turn : Turn}
    (hworded : turn.game.world.Worded) (hnot : action = .use → ∀ pairing room key target rule,
      ¬ UseOpens command turn.game pairing room key target rule) (h : turn.output.Plain) :
    (action.run command turn).Answers := by
  cases action with
  | go => exact go_answers command h
  | take => exact (take_speaks command turn h).answers
  | drop => exact (drop_speaks command turn h).answers
  | look =>
    rw [Action.run, look_eq_examine]
    exact examine_answers command h
  | examine => exact examine_answers command h
  | inventory => exact (inventory_speaks turn h).answers
  | use => exact (useItem_speaks hworded (hnot rfl) h).answers
  | help => exact (help_speaks turn h).answers

/-! ## Lines -/

theorem attempt_answers {game : Game} (hworded : game.world.Worded) {line : String}
    (hquit : isQuit line = false) (hnot : ¬ game.OpensAt line) :
    (VerbTable.standard.attempt line ⟨game, Output.empty⟩).Answers := by
  rcases attempt_cases VerbTable.standard line with ⟨error, hunread, hfails⟩ |
    ⟨command, route, hparse, hroute, hruns⟩
  · rw [hfails]
    refine ⟨Output.plain_empty, ?_⟩
    rcases hunread with rfl | ⟨verb, rfl⟩
    · exact CommandError.worded nofun
    · exact CommandError.worded nofun
  · rw [hruns]
    exact Action.run_answers hworded (fun huse pairing room key target rule hopens =>
      hnot (opensAt_of_route hquit hparse hroute huse hopens)) Output.plain_empty

/-- **A line is answered without an event**, unless it opens an item. -/
theorem step_uneventful {game : Game} (hworded : game.world.Worded) {line : String}
    (hnot : ¬ game.OpensAt line) : (game.step line).output.Uneventful := by
  unfold Game.step
  cases hquit : isQuit line with
  | true => exact Or.inl (Output.plain_empty.spoken_say (by decide)).closesWith
  | false =>
    have hanswers := attempt_answers hworded hquit hnot
    unfold VerbTable.execute
    cases hattempt : VerbTable.standard.attempt line ⟨game, Output.empty⟩ with
    | done after =>
      rw [hattempt] at hanswers
      exact hanswers
    | failed error after =>
      rw [hattempt] at hanswers
      exact Or.inl (Turn.spoken_say hanswers.1 hanswers.2).closesWith

theorem not_blank_spillMessage (container : Item) :
    Text.isBlankText (spillMessage container) = false := by
  unfold spillMessage
  split
  · exact Text.not_blank_filled (by decide) _ _
  · repeat refine Text.not_blank_append ?_ _
    decide

/-- **A line that opens an item ends with an event**, even if the text of the rule is blank. -/
theorem step_of_opensAt {game : Game} {line : String} (h : game.OpensAt line) :
    (game.step line).output.ClosesWith .event := by
  obtain ⟨command, pairing, room, key, target, rule, hopening⟩ := h
  obtain ⟨text, hunlocks⟩ := hopening.unlocks
  have hdone := useItem_eq_of_opens ⟨game, Output.empty⟩ hopening.toUseOpens hunlocks
  rw [← attempt_of_use hopening.parsed hopening.verb] at hdone
  unfold Game.step
  rw [hopening.not_quit]
  unfold VerbTable.execute
  rw [hdone]
  exact (Output.plain_empty.say _).leads.closesWith_add (not_blank_spillMessage _) .event

/-- **Every game opens without an event**, even where there is no room. -/
theorem opening_uneventful (game : Game) : game.opening.Uneventful := by
  unfold Game.opening
  dsimp only
  cases hroom : game.currentRoom with
  | ok room => exact Or.inr (((Output.plain_empty.say _).say _).addRoom game.world room)
  | error error =>
    exact Or.inl (((Output.plain_empty.say _).say _).spoken_say
      (Game.worded_of_currentRoom hroom)).closesWith

/-! ## Every run -/

/-- The answer to the line is well-shaped. There is an event in it exactly if the line opens an
item, which takes its lock off; it is the only one and comes last. -/
structure Game.AnswersWell (game : Game) (line : String) : Prop where
  shape : (game.step line).output.WellShaped
  /-- No lock comes off in any other way. -/
  unlocks_iff : game.OpensAt line ↔ ∃ id, game.Unlocks line id
  event_iff : (∃ block ∈ (game.step line).output.blocks, block.kind = .event) ↔ game.OpensAt line
  one_event : game.OpensAt line → (game.step line).output.count .event = 1
  event_last : (game.step line).output.OnlyLast .event

theorem answersWell {game : Game} (hworded : game.world.Worded)
    (hids : (game.allItems.map (·.id)).Nodup) (line : String) : game.AnswersWell line := by
  have hcloses : ∃ kind, (game.step line).output.ClosesWith kind ∧ kind ≠ .title ∧
      (kind = .event ↔ game.OpensAt line) := by
    by_cases hopens : game.OpensAt line
    · exact ⟨.event, step_of_opensAt hopens, by decide, iff_of_true rfl hopens⟩
    · obtain ⟨kind, hkind, htitle, hevent⟩ := (step_uneventful hworded hopens).exists_kind
      exact ⟨kind, hkind, htitle, iff_of_false hevent hopens⟩
  obtain ⟨kind, hkind, htitle, hevent⟩ := hcloses
  refine ⟨hkind.wellShaped htitle, opensAt_iff_unlocks hids, ?_, fun hopens => ?_, ?_⟩
  · exact (hkind.exists_kind_iff (by decide) (by decide)).trans hevent
  · rw [hkind.count_eq (by decide) (by decide), if_pos (hevent.mpr hopens)]
  · exact hkind.onlyLast (by decide) (by decide)

/-- **The opening and every answer are well-shaped**, for every draft that is accepted and all
lines. -/
theorem answers_are_well_shaped {draft : Draft} {world : World}
    (h : World.ofDraft draft = .ok world) (lines : List String) :
    ((Game.start world).run lines).opening.WellShaped ∧
    (∀ block ∈ ((Game.start world).run lines).opening.blocks, block.kind ≠ .event) ∧
    ∀ line, ((Game.start world).run lines).AnswersWell line := by
  have hloaded := worded_of_ofDraft h
  have hworded : ((Game.start world).run lines).world.Worded := by
    unfold World.Worded
    rw [(run_samePlan (Game.start world) lines).useRules]
    exact hloaded
  obtain ⟨kind, hkind, htitle, hevent⟩ :=
    (opening_uneventful ((Game.start world).run lines)).exists_kind
  refine ⟨hkind.wellShaped htitle, fun block hblock hsame => hevent ?_,
    answersWell hworded (nodup_ids_run h lines)⟩
  exact (hkind.exists_kind_iff (by decide) (by decide)).mp ⟨block, hblock, hsame⟩

/-- An attic without a name or a description, with a locked box that a pin opens, without a word. -/
def atticText : String :=
  r#"[world]
id = "house"
start_room = "attic"

[[room]]
id = "attic"

[[item]]
id = "box"
name = "box"
locked = true
start_location = "room:attic"

[[item]]
id = "pin"
name = "pin"
start_location = "inventory"

[[use_rule]]
item = "pin"
target = "box"
effect = "unlock"
text = " "
"#

set_option maxRecDepth 100000 in
/-- Before and after the box is opened with the pin, all that is said of answers holds in the attic;
and the line that opens it is answered with the event alone. -/
theorem attic_answers : ∃ world, World.load atticText = .ok world ∧
    (Game.start world).opening.WellShaped ∧ (Game.start world).AnswersWell "use pin on box" ∧
    ((Game.start world).step "use pin on box").output.blocks = [⟨.event, "The box is empty."⟩] ∧
    ((Game.start world).run ["use pin on box"]).AnswersWell "use pin on box" := by
  obtain ⟨draft, world, htext, hdraft, hblocks⟩ := exists_world_of_chars atticText
    (fun _ world => ((Game.start world).step "use pin on box").output.blocks =
      [⟨.event, "The box is empty."⟩])
    String.toList_ofList (by decide +kernel)
  obtain ⟨hopening, -, hanswers⟩ := answers_are_well_shaped hdraft []
  exact ⟨world, load_eq_ok_iff.mpr ⟨draft, htext, hdraft⟩, hopening, hanswers "use pin on box",
    hblocks, (answers_are_well_shaped hdraft ["use pin on box"]).2.2 "use pin on box"⟩

end Adventure
