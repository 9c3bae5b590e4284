import Adventure.Play.Verbs
import Adventure.Proofs.Checks
import Adventure.Proofs.Holdings
import Adventure.Proofs.Resolving

/-!
# What the actions do

An action is all or nothing (`Outcome.Clean`): it is done, and has changed the game step by step in
its own way, or it fails and leaves the whole turn as it was. For `take` and `drop` this rests on
their loops never failing once the current room is known to exist: every position that a phrase is
resolved to is there, and the room is still there after each step (`forEach_done`,
`repeatTimes_done`).

The one exception is `drop` in a room that does not exist. The room is missed only when the first
phrase has found its item, and phrases before it that found none have been reported by then
(`forEach_dropPhrase_of_missing`).
-/

namespace Adventure

/-- The action is done and has changed the game by steps of this kind, or it fails and leaves the
turn as it was. -/
def Outcome.Clean (change : Game → Game → Prop) (turn : Turn) : Outcome → Prop
  | .done after => Relation.ReflTransGen change turn.game after.game
  | .failed _ after => after = turn

/-- The action is done, has changed the game by steps of this kind, and something holds. -/
def Outcome.DoneWith (change : Game → Game → Prop) (holds : Turn → Prop) (turn : Turn)
    (outcome : Outcome) : Prop :=
  ∃ after, outcome = .done after ∧ holds after ∧
    Relation.ReflTransGen change turn.game after.game

section Loops

variable {change : Game → Game → Prop}

theorem Outcome.DoneWith.clean {holds : Turn → Prop} {turn : Turn} {outcome : Outcome}
    (h : outcome.DoneWith change holds turn) : outcome.Clean change turn := by
  obtain ⟨after, rfl, -, hsteps⟩ := h
  exact hsteps

/-- **A loop over a list is done** when each round is and keeps what the next one needs. -/
theorem forEach_done {α : Type} {action : α → Turn → Outcome} {holds : Turn → Prop}
    (hstep : ∀ a turn, holds turn → (action a turn).DoneWith change holds turn) :
    ∀ (l : List α) (turn : Turn), holds turn →
      (forEach action l turn).DoneWith change holds turn
  | [], turn, hturn => ⟨turn, rfl, hturn, Relation.ReflTransGen.refl⟩
  | a :: l, turn, hturn => by
    obtain ⟨mid, hmid, hholds, hfirst⟩ := hstep a turn hturn
    obtain ⟨after, hafter, hlast, hrest⟩ := forEach_done hstep l mid hholds
    exact ⟨after, by rw [forEach, hmid, Outcome.andThen, hafter], hlast, hfirst.trans hrest⟩

/-- **A loop of so many rounds is done** when each round is and leaves enough for the others. -/
theorem repeatTimes_done {action : Turn → Outcome} {holds : Nat → Turn → Prop}
    (hstep : ∀ n turn, holds (n + 1) turn → (action turn).DoneWith change (holds n) turn) :
    ∀ (n : Nat) (turn : Turn), holds n turn →
      (repeatTimes action n turn).DoneWith change (holds 0) turn
  | 0, turn, hturn => ⟨turn, rfl, hturn, Relation.ReflTransGen.refl⟩
  | n + 1, turn, hturn => by
    obtain ⟨mid, hmid, hholds, hfirst⟩ := hstep n turn hturn
    obtain ⟨after, hafter, hlast, hrest⟩ := repeatTimes_done hstep n mid hholds
    exact ⟨after, by rw [repeatTimes, hmid, Outcome.andThen, hafter], hlast, hfirst.trans hrest⟩

end Loops

/-! ## Taking -/

/-- The player stands in a room. -/
def Turn.Placed (turn : Turn) : Prop := ∃ room, turn.game.currentRoom = .ok room

theorem takeAt_eq {turn : Turn} {room : Room} {index : Nat} {item : Item}
    (hroom : turn.game.currentRoom = .ok room) (hitem : room.items[index]? = some item) :
    takeAt index turn = .done
      { game := (turn.game.withFloor (room.items.eraseIdx index)).withInventory
          (turn.game.player.inventory ++ [item])
        output := turn.output.say s!"You take the {item.name}." } := by
  rw [takeAt, hroom]
  simp only [hitem]

/-- Taking an item leaves a room with one item less. -/
theorem takeAt_done {turn : Turn} {room : Room} {index : Nat} {item : Item}
    (hroom : turn.game.currentRoom = .ok room) (hitem : room.items[index]? = some item) :
    (takeAt index turn).DoneWith Takes (fun after => after.game.currentRoom =
      .ok { room with items := room.items.eraseIdx index }) turn :=
  ⟨_, takeAt_eq hroom hitem, Game.currentRoom_withFloor hroom _,
    Relation.ReflTransGen.single ⟨room, index, item, hroom, hitem, rfl⟩⟩

theorem takePhrase_done (words : List String) (turn : Turn) (hturn : turn.Placed) :
    (takePhrase words turn).DoneWith Takes Turn.Placed turn := by
  obtain ⟨room, hroom⟩ := hturn
  simp only [takePhrase, hroom]
  cases hfound : (resolveExact .room room.items (Text.joinWords words)).toExcept
      (Text.joinWords words) .room with
  | error error => exact ⟨_, rfl, ⟨room, hroom⟩, Relation.ReflTransGen.refl⟩
  | ok located =>
    have hlies := (resolveExact_eq_found_iff.mp (Resolution.toExcept_eq_ok_iff.mp hfound)).1.1
    obtain ⟨after, hafter, hplaced, hsteps⟩ := takeAt_done hroom (mem_locate_iff.mp hlies).2
    exact ⟨after, hafter, ⟨_, hplaced⟩, hsteps⟩

/-- The player stands in a room with at least so many items on the floor. -/
def Turn.FloorHas (n : Nat) (turn : Turn) : Prop :=
  ∃ room, turn.game.currentRoom = .ok room ∧ n ≤ room.items.length

theorem takeAt_zero_done (n : Nat) (turn : Turn) (hturn : turn.FloorHas (n + 1)) :
    (takeAt 0 turn).DoneWith Takes (Turn.FloorHas n) turn := by
  obtain ⟨room, hroom, hn⟩ := hturn
  have hpos : 0 < room.items.length := by omega
  obtain ⟨after, hafter, hplaced, hsteps⟩ := takeAt_done hroom (List.getElem?_eq_getElem hpos)
  refine ⟨after, hafter, ⟨_, hplaced, ?_⟩, hsteps⟩
  have hlength := List.length_eraseIdx_of_lt hpos
  simp only [hlength]
  omega

/-- **Taking moves items to the inventory one by one, or fails and changes nothing.** -/
theorem take_clean (command : Command) (turn : Turn) :
    (take command turn).Clean Takes turn := by
  unfold take
  cases hroom : turn.game.currentRoom with
  | error error => exact rfl
  | ok room =>
    dsimp only
    split
    · split
      · exact rfl
      · rename_i item hitems
        have hitem : room.items[0]? = some item := by
          rw [hitems]
          rfl
        exact (takeAt_done hroom hitem).clean
      · exact rfl
    · split
      · split
        · exact rfl
        · exact (repeatTimes_done takeAt_zero_done _ turn ⟨room, hroom, Nat.le_refl _⟩).clean
      · exact (forEach_done takePhrase_done command.phrases turn ⟨room, hroom⟩).clean

/-! ## Dropping -/

theorem dropAt_eq {turn : Turn} {room : Room} {index : Nat} {item : Item}
    (hroom : turn.game.currentRoom = .ok room)
    (hitem : turn.game.player.inventory[index]? = some item) :
    dropAt index turn = .done
      { game := (turn.game.withInventory (turn.game.player.inventory.eraseIdx index)).withFloor
          (room.items ++ [item])
        output := turn.output.say s!"You drop the {item.name}." } := by
  rw [dropAt, hroom]
  simp only [hitem]

/-- Dropping an item leaves the player in the room, with one item less. -/
theorem dropAt_done {turn : Turn} {room : Room} {index : Nat} {item : Item}
    (hroom : turn.game.currentRoom = .ok room)
    (hitem : turn.game.player.inventory[index]? = some item) :
    (dropAt index turn).DoneWith Drops (fun after => after.Placed ∧
      after.game.player.inventory = turn.game.player.inventory.eraseIdx index) turn :=
  ⟨_, dropAt_eq hroom hitem, ⟨⟨_, Game.currentRoom_withFloor hroom _⟩, rfl⟩,
    Relation.ReflTransGen.single ⟨room, index, item, hroom, hitem, rfl⟩⟩

/-- What a phrase comes to among the items carried. -/
def carriedBy (words : List String) (game : Game) : Except CommandError Located :=
  (resolveExact .inventory game.player.inventory (Text.joinWords words)).toExcept
    (Text.joinWords words) .inventory

theorem getElem?_of_carriedBy {words : List String} {game : Game} {located : Located}
    (h : carriedBy words game = .ok located) :
    game.player.inventory[located.index]? = some located.item :=
  (mem_locate_iff.mp (resolveExact_eq_found_iff.mp (Resolution.toExcept_eq_ok_iff.mp h)).1.1).2

theorem dropPhrase_eq (words : List String) (turn : Turn) :
    dropPhrase words turn = match carriedBy words turn.game with
      | .ok located => dropAt located.index turn
      | .error error => .done (turn.say error.message) := rfl

theorem dropPhrase_done (words : List String) (turn : Turn) (hturn : turn.Placed) :
    (dropPhrase words turn).DoneWith Drops Turn.Placed turn := by
  obtain ⟨room, hroom⟩ := hturn
  rw [dropPhrase_eq]
  cases hfound : carriedBy words turn.game with
  | error error => exact ⟨_, rfl, ⟨room, hroom⟩, Relation.ReflTransGen.refl⟩
  | ok located =>
    obtain ⟨after, hafter, ⟨hplaced, -⟩, hsteps⟩ :=
      dropAt_done hroom (getElem?_of_carriedBy hfound)
    exact ⟨after, hafter, hplaced, hsteps⟩

/-- The player stands in a room and carries at least so many items. -/
def Turn.Carries (n : Nat) (turn : Turn) : Prop :=
  turn.Placed ∧ n ≤ turn.game.player.inventory.length

theorem dropAt_zero_done (n : Nat) (turn : Turn) (hturn : turn.Carries (n + 1)) :
    (dropAt 0 turn).DoneWith Drops (Turn.Carries n) turn := by
  obtain ⟨⟨room, hroom⟩, hn⟩ := hturn
  have hpos : 0 < turn.game.player.inventory.length := by omega
  obtain ⟨after, hafter, ⟨hplaced, hinventory⟩, hsteps⟩ :=
    dropAt_done hroom (List.getElem?_eq_getElem hpos)
  refine ⟨after, hafter, ⟨hplaced, ?_⟩, hsteps⟩
  rw [hinventory, List.length_eraseIdx_of_lt hpos]
  omega

/-- **Dropping moves items to the floor one by one, or fails and changes nothing**, in a room that
exists. -/
theorem drop_clean (command : Command) {turn : Turn} (hturn : turn.Placed) :
    (drop command turn).Clean Drops turn := by
  unfold drop
  split
  · exact rfl
  · split
    · split
      · exact rfl
      · exact (repeatTimes_done dropAt_zero_done _ turn ⟨hturn, Nat.le_refl _⟩).clean
    · exact (forEach_done dropPhrase_done command.phrases turn hturn).clean

/-! ### Where there is no room -/

/-- The turn after these errors were reported. -/
def Turn.reporting (turn : Turn) (errors : List CommandError) : Turn :=
  { turn with output := turn.output.sayAll (errors.map (·.message)) }

/-- The phrases before the rest come to these errors and are reported, and that is all: without a
room, the first phrase of the rest fails when it finds its item. -/
structure DropsNothing (turn : Turn) (missing : CommandError) (phrases rest : List (List String))
    (errors : List CommandError) (outcome : Outcome) : Prop where
  reported : ∃ before, phrases = before ++ rest ∧
    List.Forall₂ (fun words error => carriedBy words turn.game = .error error) before errors
  ends : (rest = [] ∧ outcome = .done (turn.reporting errors)) ∨
    (∃ words later located, rest = words :: later ∧ carriedBy words turn.game = .ok located) ∧
      outcome = .failed missing (turn.reporting errors)

/-- **Without a room, dropping reports phrases up to the first that finds an item, and fails
there.** -/
theorem forEach_dropPhrase_of_missing {turn : Turn} {missing : CommandError}
    (hroom : turn.game.currentRoom = .error missing) (phrases : List (List String)) :
    ∃ rest errors, DropsNothing turn missing phrases rest errors
      (forEach dropPhrase phrases turn) := by
  induction phrases generalizing turn with
  | nil => exact ⟨[], [], ⟨[], rfl, .nil⟩, Or.inl ⟨rfl, rfl⟩⟩
  | cons words phrases ih =>
    rw [forEach, dropPhrase_eq]
    cases hfound : carriedBy words turn.game with
    | ok located =>
      simp only [dropAt, hroom, Outcome.andThen]
      exact ⟨words :: phrases, [], ⟨[], rfl, .nil⟩,
        Or.inr ⟨⟨words, phrases, located, rfl, hfound⟩, rfl⟩⟩
    | error found =>
      have hsaid : (turn.say found.message).game.currentRoom = .error missing := hroom
      obtain ⟨rest, errors, ⟨before, rfl, hall⟩, hends⟩ := ih hsaid
      exact ⟨rest, found :: errors, ⟨words :: before, rfl, .cons hfound hall⟩, hends⟩

/-! ## Using -/

theorem findUsing_eq_ok_iff {command : Command} {game : Game} {found : Using} :
    findUsing command game = .ok found ↔ ∃ pairing room key target,
      Pairing.ofWords command.args useUsage = .ok pairing ∧ game.currentRoom = .ok room ∧
      resolve room.items game.player.inventory .inventory pairing.itemPhrase = .found key ∧
      resolve room.items game.player.inventory .room pairing.targetPhrase = .found target ∧
      found = ⟨key.item, pairing.preposition, target.item, target.index⟩ := by
  simp only [findUsing, bind_eq_ok_iff, Resolution.toExcept_eq_ok_iff]
  constructor
  · rintro ⟨pairing, hpairing, room, hroom, key, hkey, target, htarget, h⟩
    exact ⟨pairing, room, key, target, hpairing, hroom, hkey, htarget, (Except.ok.inj h).symm⟩
  · rintro ⟨pairing, room, key, target, hpairing, hroom, hkey, htarget, rfl⟩
    exact ⟨pairing, hpairing, room, hroom, key, hkey, target, htarget, rfl⟩

/-- A use opens its target: each phrase finds the one item that fits it (`resolve_eq_found_iff`),
the first rule for the two unlocks, and the target is locked. -/
structure UseOpens (command : Command) (game : Game) (pairing : Pairing) (room : Room)
    (key target : Located) (rule : UseRule) : Prop where
  paired : Pairing.ofWords command.args useUsage = .ok pairing
  here : game.currentRoom = .ok room
  key_found :
    resolve room.items game.player.inventory .inventory pairing.itemPhrase = .found key
  target_found :
    resolve room.items game.player.inventory .room pairing.targetPhrase = .found target
  carried : game.player.inventory[key.index]? = some key.item
  on_floor : room.items[target.index]? = some target.item
  locked : target.item.locked = true
  first_rule : game.world.useRules.find?
    (·.applies key.item.name target.item.name pairing.preposition) = some rule
  unlocks : ∃ text, rule.effect = .unlock text

section Using

variable {command : Command} {game : Game} {found : Using}

/-- The target of a use lies on the floor. -/
theorem on_floor_of_findUsing (h : findUsing command game = .ok found) :
    ∃ room, game.currentRoom = .ok room ∧ room.items[found.index]? = some found.target := by
  obtain ⟨pairing, room, key, target, -, hroom, -, htarget, rfl⟩ := findUsing_eq_ok_iff.mp h
  exact ⟨room, hroom, on_floor_of_resolve htarget⟩

/-- A use opens its target when the first rule unlocks and the target is locked. -/
theorem exists_useOpens {text : Option String} (hfound : findUsing command game = .ok found)
    (heffect : game.world.effectOf? found.item.name found.target.name found.preposition =
      some (.unlock text)) (hlocked : found.target.locked = true) :
    ∃ pairing room key target rule, UseOpens command game pairing room key target rule := by
  obtain ⟨pairing, room, key, target, hpairing, hroom, hkey, htarget, rfl⟩ :=
    findUsing_eq_ok_iff.mp hfound
  obtain ⟨rule, hrule, hunlocks⟩ := Option.map_eq_some_iff.mp heffect
  exact ⟨pairing, room, key, target, rule, hpairing, hroom, hkey, htarget, carried_of_resolve hkey,
    on_floor_of_resolve htarget, hlocked, hrule, text, hunlocks⟩

end Using

/-- A use that opens its target says the text of the rule, or one about the key, and ends with what
came out. -/
theorem useItem_eq_of_opens {command : Command} (turn : Turn) {pairing : Pairing} {room : Room}
    {key target : Located} {rule : UseRule} {text : Option String}
    (h : UseOpens command turn.game pairing room key target rule)
    (hunlocks : rule.effect = .unlock text) :
    useItem command turn = .done
      { game := turn.game.afterOpening room target.index target.item
        output := (turn.output.say
          (text.getD s!"You unlock the {target.item.name} with the {key.item.name}.")).event
            (spillMessage target.item) } := by
  have hfound := findUsing_eq_ok_iff.mpr
    ⟨pairing, room, key, target, h.paired, h.here, h.key_found, h.target_found, rfl⟩
  have heffect : turn.game.world.effectOf? key.item.name target.item.name pairing.preposition =
      some (.unlock text) := by
    rw [World.effectOf?, h.first_rule, Option.map_some, hunlocks]
  unfold useItem
  simp only [hfound, heffect, unlockAt, h.here, h.on_floor, h.locked]
  rfl

theorem useItem_of_opens {command : Command} (turn : Turn) {pairing : Pairing} {room : Room}
    {key target : Located} {rule : UseRule}
    (h : UseOpens command turn.game pairing room key target rule) : ∃ output,
    useItem command turn =
      .done ⟨turn.game.afterOpening room target.index target.item, output⟩ := by
  obtain ⟨text, hunlocks⟩ := h.unlocks
  exact ⟨_, useItem_eq_of_opens turn h hunlocks⟩

/-- **Using an item opens its target, or changes nothing in the game.** -/
theorem useItem_cases (command : Command) (turn : Turn) :
    (∃ error, useItem command turn = .failed error turn) ∨
      (∃ after, useItem command turn = .done after ∧ after.game = turn.game) ∨
      ∃ pairing room key target rule after,
        UseOpens command turn.game pairing room key target rule ∧
        useItem command turn = .done after ∧
        after.game = turn.game.afterOpening room target.index target.item := by
  cases hfound : findUsing command turn.game with
  | error error =>
    rw [useItem, hfound]
    exact Or.inl ⟨error, rfl⟩
  | ok found =>
    cases heffect : turn.game.world.effectOf? found.item.name found.target.name
        found.preposition with
    | none =>
      simp only [useItem, hfound, heffect]
      exact Or.inr (Or.inl ⟨_, rfl, rfl⟩)
    | some effect =>
      cases effect with
      | message text =>
        simp only [useItem, hfound, heffect]
        exact Or.inr (Or.inl ⟨_, rfl, rfl⟩)
      | unlock text =>
        cases hlocked : found.target.locked with
        | false =>
          obtain ⟨room, hroom, hitem⟩ := on_floor_of_findUsing hfound
          simp only [useItem, hfound, heffect, unlockAt, hroom, hitem, hlocked]
          exact Or.inl ⟨_, rfl⟩
        | true =>
          obtain ⟨pairing, room, key, target, rule, hopens⟩ :=
            exists_useOpens hfound heffect hlocked
          obtain ⟨output, houtput⟩ := useItem_of_opens turn hopens
          exact Or.inr (Or.inr ⟨pairing, room, key, target, rule, _, hopens, houtput, rfl⟩)

theorem useItem_clean (command : Command) (turn : Turn) :
    (useItem command turn).Clean Opens turn := by
  rcases useItem_cases command turn with ⟨error, h⟩ | ⟨after, h, hgame⟩ |
    ⟨pairing, room, key, target, rule, after, huse, h, hgame⟩
  · rw [h]
    exact rfl
  · rw [h, Outcome.Clean, hgame]
  · rw [h]
    exact Relation.ReflTransGen.single
      ⟨room, target.index, target.item, huse.here, huse.on_floor, huse.locked, hgame⟩

/-! ## The other actions -/

/-- **Going takes the player to the room behind an exit, or fails.** -/
theorem go_clean (command : Command) (turn : Turn) : (go command turn).Clean Walks turn := by
  unfold go
  cases command.object? with
  | none => exact rfl
  | some direction =>
    dsimp only
    cases turn.game.world.exit? turn.game.player.room direction with
    | none => exact rfl
    | some target =>
      dsimp only
      cases hroom : turn.game.world.room? target with
      | none => exact rfl
      | some room => exact Relation.ReflTransGen.single ⟨target, room, hroom, rfl⟩

theorem lookAround_clean (change : Game → Game → Prop) (turn : Turn) :
    (lookAround turn).Clean change turn := by
  unfold lookAround
  split
  · exact rfl
  · exact Relation.ReflTransGen.refl

/-- Examining changes nothing in the game. -/
theorem examine_clean (change : Game → Game → Prop) (command : Command) (turn : Turn) :
    (examine command turn).Clean change turn := by
  unfold examine
  split
  · exact rfl
  · dsimp only
    split
    · exact Relation.ReflTransGen.refl
    · split
      · exact rfl
      · exact Relation.ReflTransGen.refl

/-- Looking changes nothing in the game. -/
theorem look_clean (change : Game → Game → Prop) (command : Command) (turn : Turn) :
    (look command turn).Clean change turn := by
  unfold look
  split
  · exact examine_clean change command turn
  · exact lookAround_clean change turn

theorem inventory_clean (change : Game → Game → Prop) (turn : Turn) :
    (inventory turn).Clean change turn := by
  unfold inventory
  split
  · exact Relation.ReflTransGen.refl
  · exact Relation.ReflTransGen.refl

/-! ## All actions -/

/-- What an action may do to the game. -/
def Action.change : Action → Game → Game → Prop
  | .go => Walks
  | .take => Takes
  | .drop => Drops
  | .use => Opens
  | _ => fun _ _ => False

/-- **Every action is done in its own way, or fails and leaves the turn as it was**, except for
dropping without a room. -/
theorem Action.run_clean (action : Action) (command : Command) (turn : Turn)
    (h : action = .drop → turn.Placed) :
    (action.run command turn).Clean action.change turn := by
  cases action with
  | go => exact go_clean command turn
  | take => exact take_clean command turn
  | drop => exact drop_clean command (h rfl)
  | look => exact look_clean _ command turn
  | examine => exact examine_clean _ command turn
  | inventory => exact inventory_clean _ turn
  | use => exact useItem_clean command turn
  | help => exact Relation.ReflTransGen.refl

/-- Dropping without a room fails at once, or reports phrases and drops nothing. -/
theorem drop_of_missing {turn : Turn} {missing : CommandError}
    (hroom : turn.game.currentRoom = .error missing) (command : Command) :
    (∃ error, drop command turn = .failed error turn) ∨
      ∃ rest errors, DropsNothing turn missing command.phrases rest errors (drop command turn) := by
  unfold drop
  split
  · exact Or.inl ⟨_, rfl⟩
  · split
    · cases hinventory : turn.game.player.inventory with
      | nil => exact Or.inl ⟨_, rfl⟩
      | cons item items =>
        refine Or.inl ⟨missing, ?_⟩
        rw [List.length_cons, repeatTimes, dropAt, hroom]
        rfl
    · exact Or.inr (forEach_dropPhrase_of_missing hroom command.phrases)

theorem drop_game_of_missing {turn : Turn} {missing : CommandError}
    (hroom : turn.game.currentRoom = .error missing) (command : Command) :
    (drop command turn).turn.game = turn.game := by
  rcases drop_of_missing hroom command with ⟨error, h⟩ | ⟨rest, errors, -, ⟨-, h⟩ | ⟨-, h⟩⟩ <;>
    rw [h] <;> rfl

/-- **An action changes the game in its own way only**, whether it is done or fails. -/
theorem Action.run_changes (action : Action) (command : Command) (turn : Turn) :
    Relation.ReflTransGen action.change turn.game (action.run command turn).turn.game := by
  have of_clean : ∀ {outcome : Outcome}, outcome.Clean action.change turn →
      Relation.ReflTransGen action.change turn.game outcome.turn.game := fun {outcome} h => by
    cases outcome with
    | done after => exact h
    | failed error after =>
      obtain rfl : after = turn := h
      exact Relation.ReflTransGen.refl
  cases hroom : turn.game.currentRoom with
  | ok room => exact of_clean (action.run_clean command turn fun _ => ⟨room, hroom⟩)
  | error missing =>
    by_cases hdrop : action = .drop
    · subst hdrop
      rw [Action.run, drop_game_of_missing hroom]
    · exact of_clean (action.run_clean command turn fun h => absurd h hdrop)

/-! ## From a word to its action -/

/-- The command that a route makes of one that led to it. -/
def Route.expand (route : Route) (command : Command) : Command :=
  if route.implied.isEmpty then command else command.withLeadingArgs route.verb route.implied

theorem dispatch_of_route {table : VerbTable} {command : Command} {route : Route}
    (h : table.get? command.verb = some route) (turn : Turn) :
    table.dispatch command turn = route.action.run (route.expand command) turn := by
  rw [VerbTable.dispatch, h, Route.expand]
  dsimp only
  split <;> rfl

theorem dispatch_of_no_route {table : VerbTable} {command : Command}
    (h : table.get? command.verb = none) (turn : Turn) :
    table.dispatch command turn = .failed (.unknownVerb command.verb) turn := by
  rw [VerbTable.dispatch, h]

end Adventure
