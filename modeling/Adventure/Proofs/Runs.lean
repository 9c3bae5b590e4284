import Adventure.Proofs.Actions
import Adventure.Session
import Adventure.World.Problem

/-!
# What a line does to the game

A line moves what lies and is carried, or it opens one item: `step_cases`. Only a "use" can open
anything, and `Opening` says all there is to know about the line that does. A run is a list of
lines, so what every line keeps, a run keeps (`run_keeps`).
-/

namespace Adventure

/-! ## The verbs of the game -/

theorem use_of_standard {word : String} {route : Route}
    (h : VerbTable.standard.get? word = some route) (huse : route.action = .use) :
    word = "use" ∧ route.implied = [] := by
  have hall : ∀ e ∈ VerbTable.standard.entries,
      e.2.action = .use → e.1 = "use" ∧ e.2.implied = [] := by decide +kernel
  exact hall _ (Table.get?_eq_some_iff.mp h) huse

/-- A command that leads to a use is carried out as it stands. -/
theorem expand_of_use {command : Command} {route : Route}
    (h : VerbTable.standard.get? command.verb = some route) (huse : route.action = .use) :
    command.verb = "use" ∧ route.expand command = command := by
  obtain ⟨hverb, himplied⟩ := use_of_standard h huse
  refine ⟨hverb, ?_⟩
  unfold Route.expand
  rw [himplied]
  rfl

theorem moves_of_change {action : Action} (h : action ≠ .use) {g g' : Game}
    (hchange : action.change g g') : Moves g g' := by
  cases action with
  | go => exact Or.inl hchange
  | take => exact Or.inr (Or.inl hchange)
  | drop => exact Or.inr (Or.inr hchange)
  | use => exact absurd rfl h
  | look => exact hchange.elim
  | examine => exact hchange.elim
  | inventory => exact hchange.elim
  | help => exact hchange.elim

/-! ## One line -/

theorem execute_game (table : VerbTable) (line : String) (turn : Turn) :
    (table.execute line turn).game = (table.attempt line turn).turn.game := by
  unfold VerbTable.execute
  cases table.attempt line turn <;> rfl

/-- What becomes of a line does not depend on the game: it fails for want of a verb or a route, or
it leads to an action with a command. -/
theorem attempt_cases (table : VerbTable) (line : String) :
    (∃ error, (error = .emptyCommand ∨ ∃ verb, error = .unknownVerb verb) ∧
        ∀ turn, table.attempt line turn = .failed error turn) ∨
      ∃ command route, Command.parse line = .ok command ∧
        table.get? command.verb = some route ∧
        ∀ turn, table.attempt line turn = route.action.run (route.expand command) turn := by
  unfold VerbTable.attempt
  cases hparse : Command.parse line with
  | error error =>
    obtain ⟨-, rfl⟩ := Command.ofTokens_eq_error_iff.mp hparse
    exact Or.inl ⟨.emptyCommand, Or.inl rfl, fun turn => rfl⟩
  | ok command =>
    cases hroute : table.get? command.verb with
    | none =>
      exact Or.inl ⟨.unknownVerb command.verb, Or.inr ⟨command.verb, rfl⟩, fun turn =>
        dispatch_of_no_route hroute turn⟩
    | some route =>
      exact Or.inr ⟨command, route, rfl, hroute, fun turn => dispatch_of_route hroute turn⟩

theorem quit_step (game : Game) (line : String) : (game.step line).quit = isQuit line := by
  unfold Game.step
  cases isQuit line <;> rfl

/-- The game after a line that is not the last. -/
theorem step_game_of_not_quit {line : String} (h : isQuit line = false) (game : Game) :
    (game.step line).game = (VerbTable.standard.attempt line ⟨game, Output.empty⟩).turn.game := by
  rw [← execute_game, Game.step, h]
  rfl

/-- The line is a use command that opens an item, and this is the game it leaves. -/
structure Opening (game : Game) (line : String) (command : Command) (pairing : Pairing)
    (room : Room) (key target : Located) (rule : UseRule) : Prop
    extends UseOpens command game pairing room key target rule where
  not_quit : isQuit line = false
  parsed : Command.parse line = .ok command
  verb : command.verb = "use"
  after : (game.step line).game = game.afterOpening room target.index target.item

theorem Opening.opens {game : Game} {line : String} {command : Command} {pairing : Pairing}
    {room : Room} {key target : Located} {rule : UseRule}
    (h : Opening game line command pairing room key target rule) :
    Opens game (game.step line).game :=
  ⟨room, target.index, target.item, h.here, h.on_floor, h.locked, h.after⟩

/-- The verb "use" leads to using. -/
theorem attempt_of_use {line : String} {command : Command}
    (hparse : Command.parse line = .ok command) (hverb : command.verb = "use") (turn : Turn) :
    VerbTable.standard.attempt line turn = useItem command turn := by
  have hroute : VerbTable.standard.get? command.verb = some ⟨"use", .use, []⟩ := by
    rw [hverb]
    decide +kernel
  rw [VerbTable.attempt, hparse]
  exact dispatch_of_route hroute turn

/-- The line of a use that opens an item. -/
theorem opening_of_useOpens {game : Game} {line : String} {command : Command} {pairing : Pairing}
    {room : Room} {key target : Located} {rule : UseRule} (hquit : isQuit line = false)
    (hparse : Command.parse line = .ok command) (hverb : command.verb = "use")
    (h : UseOpens command game pairing room key target rule) :
    Opening game line command pairing room key target rule := by
  refine ⟨h, hquit, hparse, hverb, ?_⟩
  obtain ⟨output, houtput⟩ := useItem_of_opens ⟨game, Output.empty⟩ h
  rw [step_game_of_not_quit hquit, attempt_of_use hparse hverb, houtput]
  rfl

/-- The line is a use that opens an item. -/
def Game.OpensAt (game : Game) (line : String) : Prop :=
  ∃ command pairing room key target rule, Opening game line command pairing room key target rule

/-- The line opens an item when its action is a use that does. -/
theorem opensAt_of_route {game : Game} {line : String} {command : Command} {route : Route}
    {pairing : Pairing} {room : Room} {key target : Located} {rule : UseRule}
    (hquit : isQuit line = false) (hparse : Command.parse line = .ok command)
    (hroute : VerbTable.standard.get? command.verb = some route) (huse : route.action = .use)
    (h : UseOpens (route.expand command) game pairing room key target rule) :
    game.OpensAt line := by
  obtain ⟨hverb, hexpand⟩ := expand_of_use hroute huse
  rw [hexpand] at h
  exact ⟨command, pairing, room, key, target, rule, opening_of_useOpens hquit hparse hverb h⟩

/-- A command moves items and the player about, or it is a use that opens an item. -/
theorem dispatch_cases (command : Command) (turn : Turn) :
    Relation.ReflTransGen Moves turn.game
        (VerbTable.standard.dispatch command turn).turn.game ∨
      command.verb = "use" ∧ ∃ pairing room key target rule,
        UseOpens command turn.game pairing room key target rule ∧
        (VerbTable.standard.dispatch command turn).turn.game =
          turn.game.afterOpening room target.index target.item := by
  cases hroute : VerbTable.standard.get? command.verb with
  | none =>
    rw [dispatch_of_no_route hroute]
    exact Or.inl Relation.ReflTransGen.refl
  | some route =>
    rw [dispatch_of_route hroute]
    by_cases huse : route.action = .use
    · obtain ⟨hverb, hexpand⟩ := expand_of_use hroute huse
      rw [huse, hexpand, Action.run]
      rcases useItem_cases command turn with ⟨error, h⟩ | ⟨after, h, hsame⟩ |
        ⟨pairing, room, key, target, rule, after, hopens, h, hafter⟩
      · rw [h]
        exact Or.inl Relation.ReflTransGen.refl
      · rw [h, Outcome.turn, hsame]
        exact Or.inl Relation.ReflTransGen.refl
      · rw [h]
        exact Or.inr ⟨hverb, pairing, room, key, target, rule, hopens, hafter⟩
    · exact Or.inl (Relation.ReflTransGen.mono (fun _ _ => moves_of_change huse) _ _
        (route.action.run_changes (route.expand command) turn))

/-- **A line moves items and the player about, or it is a use that opens an item.** -/
theorem step_cases (game : Game) (line : String) :
    Relation.ReflTransGen Moves game (game.step line).game ∨
      ∃ command pairing room key target rule,
        Opening game line command pairing room key target rule := by
  cases hquit : isQuit line with
  | true =>
    rw [Game.step, if_pos hquit]
    exact Or.inl Relation.ReflTransGen.refl
  | false =>
    have hgame := step_game_of_not_quit hquit game
    unfold VerbTable.attempt at hgame
    cases hparse : Command.parse line with
    | error error =>
      rw [hparse] at hgame
      exact Or.inl (hgame ▸ Relation.ReflTransGen.refl)
    | ok command =>
      simp only [hparse] at hgame
      rcases dispatch_cases command ⟨game, Output.empty⟩ with hmoves |
        ⟨hverb, pairing, room, key, target, rule, hopens, hafter⟩
      · rw [← hgame] at hmoves
        exact Or.inl hmoves
      · exact Or.inr ⟨command, pairing, room, key, target, rule, hopens, hquit, hparse, hverb,
          hgame.trans hafter⟩

/-! ## Runs -/

theorem run_cons (game : Game) (line : String) (lines : List String) :
    game.run (line :: lines) = (game.step line).game.run lines := by
  rw [Game.run, Game.run, List.foldl_cons]

theorem run_append (game : Game) (l r : List String) :
    game.run (l ++ r) = (game.run l).run r := by
  rw [Game.run, Game.run, Game.run, List.foldl_append]

/-- **What every line keeps, a run keeps.** -/
theorem run_keeps {P : Game → Prop} (hstep : ∀ game line, P game → P (game.step line).game)
    {game : Game} (h : P game) (lines : List String) : P (game.run lines) := by
  induction lines generalizing game with
  | nil => exact h
  | cons line lines ih =>
    rw [run_cons]
    exact ih (hstep game line h)

/-- **What moving things about and opening keep, a line keeps.** -/
theorem step_keeps {P : Game → Prop} (hmoves : ∀ g g', Moves g g' → P g → P g')
    (hopens : ∀ g g', Opens g g' → P g → P g') {game : Game} (h : P game) (line : String) :
    P (game.step line).game := by
  rcases step_cases game line with hsteps | ⟨command, pairing, room, key, target, rule, hopening⟩
  · generalize (game.step line).game = after at hsteps
    induction hsteps with
    | refl => exact h
    | tail _ hmove ih => exact hmoves _ _ hmove ih
  · exact hopens _ _ hopening.opens h

/-- **A line keeps the label of every item.** -/
theorem step_perm_labels (game : Game) (line : String) :
    ((game.step line).game.allItems.map Item.label).Perm (game.allItems.map Item.label) :=
  step_keeps (P := fun g => (g.allItems.map Item.label).Perm (game.allItems.map Item.label))
    (fun _ _ hmove h => hmove.perm_labels.trans h) (fun _ _ hopens h => hopens.perm_labels.trans h)
    (List.Perm.refl _) line

theorem run_perm_labels (game : Game) (lines : List String) :
    ((game.run lines).allItems.map Item.label).Perm (game.allItems.map Item.label) :=
  run_keeps (P := fun g => (g.allItems.map Item.label).Perm (game.allItems.map Item.label))
    (fun g line h => (step_perm_labels g line).trans h) (List.Perm.refl _) lines

theorem allItems_start (world : World) : (Game.start world).allItems = world.allItems := rfl

end Adventure
