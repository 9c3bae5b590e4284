import Adventure.Proofs.Actions

/-!
# Rooms and positions that are not there

Most errors of a command are about what the player asks for. Two would be faults of the game: the
room in which the player stands, or behind an exit, is not part of the world, or a list of items
ends before the position of the item that is taken, dropped or opened (`CommandError.IsFault`).

Positions come from a phrase that has just been resolved in the same list, or they are the first of
a list that is not empty. So although items move while a command is carried out, each position is
there when its turn comes, and all that can be missing is a room (`Action.run_fault`).

Results:

* `positions_are_there`: no action asks for a position that is not there, in any game whatsoever.
-/

namespace Adventure

/-- A room or an item is not where the game looks it up. -/
def CommandError.IsFault : CommandError → Prop
  | .missingRoom _ => True
  | .noItemAt _ => True
  | _ => False

theorem Game.currentRoom_eq_error_iff {game : Game} {error : CommandError} :
    game.currentRoom = .error error ↔
      game.world.room? game.player.room = none ∧ error = .missingRoom game.player.room := by
  unfold Game.currentRoom
  cases game.world.room? game.player.room <;> simp [eq_comm]

theorem Outcome.DoneWith.error?_eq_none {change : Game → Game → Prop} {holds : Turn → Prop}
    {turn : Turn} {outcome : Outcome} (h : outcome.DoneWith change holds turn) :
    outcome.error? = none := by
  obtain ⟨after, rfl, -, -⟩ := h
  rfl

/-- An action that fails with another error has no fault. -/
theorem CommandError.IsFault.not_failed {error other : CommandError} {turn : Turn}
    (hfault : error.IsFault) (hother : ¬ other.IsFault) :
    (Outcome.failed other turn).error? ≠ some error := by
  intro h
  obtain rfl := Option.some.inj h
  exact hother hfault

/-! ## Positions -/

section Positions

variable {index : Nat} {turn : Turn}

/-- Goes on with the item at a position of a list, if there is a room. Taking, dropping and opening
by position have this form. -/
def atPosition (items : Room → List Item) (index : Nat) (turn : Turn)
    (found : Room → Item → Outcome) : Outcome :=
  match turn.game.currentRoom with
  | .error error => .failed error turn
  | .ok room =>
    match (items room)[index]? with
    | none => .failed (.noItemAt index) turn
    | some item => found room item

theorem atPosition_eq_noItemAt_iff (items : Room → List Item) {found : Room → Item → Outcome}
    (hfound : ∀ room item, (found room item).error? ≠ some (.noItemAt index)) :
    (atPosition items index turn found).error? = some (.noItemAt index) ↔
      ∃ room, turn.game.currentRoom = .ok room ∧ (items room).length ≤ index := by
  unfold atPosition
  cases hroom : turn.game.currentRoom with
  | error error =>
    obtain ⟨-, rfl⟩ := Game.currentRoom_eq_error_iff.mp hroom
    simp [Outcome.error?]
  | ok room =>
    simp only [Except.ok.injEq, exists_eq_left', ← List.getElem?_eq_none_iff]
    cases (items room)[index]? with
    | none => simp [Outcome.error?]
    | some item => simp [hfound room item]

/-- Taking asks for a position that is not there exactly when the floor ends before it. -/
theorem takeAt_eq_noItemAt_iff : (takeAt index turn).error? = some (.noItemAt index) ↔
    ∃ room, turn.game.currentRoom = .ok room ∧ room.items.length ≤ index :=
  atPosition_eq_noItemAt_iff Room.items fun _ _ => nofun

/-- Dropping does when the inventory ends before it. -/
theorem dropAt_eq_noItemAt_iff : (dropAt index turn).error? = some (.noItemAt index) ↔
    ∃ room, turn.game.currentRoom = .ok room ∧ turn.game.player.inventory.length ≤ index :=
  atPosition_eq_noItemAt_iff (fun _ => turn.game.player.inventory) fun _ _ => nofun

/-- Opening does when the floor ends before it. -/
theorem unlockAt_eq_noItemAt_iff {keyName : String} {text : Option String} :
    (unlockAt index keyName text turn).error? = some (.noItemAt index) ↔
      ∃ room, turn.game.currentRoom = .ok room ∧ room.items.length ≤ index :=
  atPosition_eq_noItemAt_iff Room.items fun _ container => by cases container.locked <;> nofun

end Positions

/-! ## Which actions have a fault -/

theorem Resolution.not_fault_of_toExcept {resolution : Resolution} {phrase : String} {scope : Scope}
    {error : CommandError} (h : resolution.toExcept phrase scope = .error error) :
    ¬ error.IsFault := by
  cases resolution with
  | found located => cases h
  | notFound =>
    obtain rfl := Except.error.inj h
    exact id
  | ambiguous items =>
    obtain rfl := Except.error.inj h
    exact id

theorem Pairing.eq_usage_of_ofWords {words : List String} {usage : String} {error : CommandError}
    (h : Pairing.ofWords words usage = .error error) : error = .usage usage := by
  unfold ofWords at h
  split at h
  · exact (Except.error.inj h).symm
  · split at h
    · exact (Except.error.inj h).symm
    · dsimp only at h
      split at h
      · exact (Except.error.inj h).symm
      · cases h

section

variable {command : Command} {turn : Turn} {error : CommandError}

theorem take_fault (h : (take command turn).error? = some error) (hfault : error.IsFault) :
    turn.game.currentRoom = .error error := by
  unfold take at h
  cases hroom : turn.game.currentRoom with
  | error missing =>
    rw [hroom] at h
    rw [Option.some.inj h]
  | ok room =>
    -- in a room, nothing is taken that is not there
    rw [hroom] at h
    dsimp only at h
    split at h
    · split at h
      · exact absurd h (hfault.not_failed id)
      · rename_i item hitems
        have hitem : room.items[0]? = some item := by
          rw [hitems]
          rfl
        rw [(takeAt_done hroom hitem).error?_eq_none] at h
        cases h
      · exact absurd h (hfault.not_failed id)
    · split at h
      · split at h
        · exact absurd h (hfault.not_failed id)
        · rw [(repeatTimes_done takeAt_zero_done _ turn
            ⟨room, hroom, Nat.le_refl _⟩).error?_eq_none] at h
          cases h
      · rw [(forEach_done takePhrase_done command.phrases turn ⟨room, hroom⟩).error?_eq_none] at h
        cases h

theorem drop_fault (h : (drop command turn).error? = some error) (hfault : error.IsFault) :
    turn.game.currentRoom = .error error := by
  unfold drop at h
  split at h
  · exact absurd h (hfault.not_failed id)
  · cases hroom : turn.game.currentRoom with
    | ok room =>
      split at h
      · split at h
        · exact absurd h (hfault.not_failed id)
        · rw [(repeatTimes_done dropAt_zero_done _ turn
            ⟨⟨room, hroom⟩, Nat.le_refl _⟩).error?_eq_none] at h
          cases h
      · rw [(forEach_done dropPhrase_done command.phrases turn ⟨room, hroom⟩).error?_eq_none] at h
        cases h
    | error missing =>
      split at h
      · cases hinventory : turn.game.player.inventory with
        | nil =>
          rw [hinventory] at h
          exact absurd h (hfault.not_failed id)
        | cons item items =>
          simp only [hinventory, List.isEmpty_cons, List.length_cons, repeatTimes, dropAt, hroom,
            Outcome.andThen] at h
          rw [Option.some.inj h]
      · obtain ⟨rest, errors, -, ⟨-, hends⟩ | ⟨-, hends⟩⟩ :=
          forEach_dropPhrase_of_missing hroom command.phrases
        · rw [hends] at h
          cases h
        · rw [hends] at h
          rw [Option.some.inj h]

theorem lookAround_fault (h : (lookAround turn).error? = some error) :
    turn.game.currentRoom = .error error := by
  unfold lookAround at h
  cases hroom : turn.game.currentRoom with
  | error missing =>
    rw [hroom] at h
    rw [Option.some.inj h]
  | ok room =>
    rw [hroom] at h
    cases h

theorem examine_fault (h : (examine command turn).error? = some error) (hfault : error.IsFault) :
    turn.game.currentRoom = .error error := by
  unfold examine at h
  cases hroom : turn.game.currentRoom with
  | error missing =>
    rw [hroom] at h
    rw [Option.some.inj h]
  | ok room =>
    rw [hroom] at h
    dsimp only at h
    split at h
    · cases h
    · split at h
      · rename_i unresolved hfound
        obtain rfl := Option.some.inj h
        exact absurd hfault (Resolution.not_fault_of_toExcept hfound)
      · cases h

theorem look_fault (h : (look command turn).error? = some error) (hfault : error.IsFault) :
    turn.game.currentRoom = .error error := by
  unfold look at h
  split at h
  · exact examine_fault h hfault
  · exact lookAround_fault h

theorem findUsing_fault {game : Game} (h : findUsing command game = .error error)
    (hfault : error.IsFault) : game.currentRoom = .error error := by
  simp only [findUsing, bind_eq_error_iff] at h
  rcases h with h | ⟨pairing, -, h | ⟨room, -, h | ⟨item, -, h | ⟨target, -, h⟩⟩⟩⟩
  · obtain rfl := Pairing.eq_usage_of_ofWords h
    exact hfault.elim
  · exact h
  · exact absurd hfault (Resolution.not_fault_of_toExcept h)
  · exact absurd hfault (Resolution.not_fault_of_toExcept h)
  · cases h

/-- An item that is there is opened without a fault. -/
theorem unlockAt_not_fault {room : Room} {index : Nat} {container : Item} {keyName : String}
    {text : Option String} (hroom : turn.game.currentRoom = .ok room)
    (hitem : room.items[index]? = some container)
    (h : (unlockAt index keyName text turn).error? = some error) : ¬ error.IsFault := by
  simp only [unlockAt, hroom, hitem] at h
  split at h
  · obtain rfl := Option.some.inj h
    exact id
  · cases h

theorem useItem_fault (h : (useItem command turn).error? = some error) (hfault : error.IsFault) :
    turn.game.currentRoom = .error error := by
  unfold useItem at h
  split at h
  · rename_i unfound hfound
    obtain rfl := Option.some.inj h
    exact findUsing_fault hfound hfault
  · rename_i found hfound
    obtain ⟨room, hroom, hitem⟩ := on_floor_of_findUsing hfound
    split at h
    · exact absurd hfault (unlockAt_not_fault hroom hitem h)
    · cases h
    · cases h

theorem go_fault (h : (go command turn).error? = some error) (hfault : error.IsFault) :
    ∃ direction target, command.object? = some direction ∧
      turn.game.world.exit? turn.game.player.room direction = some target ∧
      turn.game.world.room? target = none ∧ error = .missingRoom target := by
  unfold go at h
  cases hobject : command.object? with
  | none =>
    rw [hobject] at h
    exact absurd h (hfault.not_failed id)
  | some direction =>
    rw [hobject] at h
    dsimp only at h
    cases hexit : turn.game.world.exit? turn.game.player.room direction with
    | none =>
      rw [hexit] at h
      exact absurd h (hfault.not_failed id)
    | some target =>
      rw [hexit] at h
      dsimp only at h
      cases hroom : turn.game.world.room? target with
      | none =>
        rw [hroom] at h
        exact ⟨direction, target, rfl, hexit, hroom, (Option.some.inj h).symm⟩
      | some room =>
        rw [hroom] at h
        cases h

theorem inventory_error? (turn : Turn) : (inventory turn).error? = none := by
  unfold inventory
  split <;> rfl

/-- **The faults of an action are missing rooms**: the one in which the player stands, or one behind
an exit it goes through. -/
theorem Action.run_fault {action : Action} (h : (action.run command turn).error? = some error)
    (hfault : error.IsFault) :
    turn.game.currentRoom = .error error ∨
      action = .go ∧ ∃ direction target, command.object? = some direction ∧
        turn.game.world.exit? turn.game.player.room direction = some target ∧
        turn.game.world.room? target = none ∧ error = .missingRoom target := by
  cases action with
  | go => exact Or.inr ⟨rfl, go_fault h hfault⟩
  | take => exact Or.inl (take_fault h hfault)
  | drop => exact Or.inl (drop_fault h hfault)
  | look => exact Or.inl (look_fault h hfault)
  | examine => exact Or.inl (examine_fault h hfault)
  | inventory =>
    rw [run, inventory_error?] at h
    cases h
  | use => exact Or.inl (useItem_fault h hfault)
  | help => cases h

end

/-- **No action asks for a position that is not there**, in any game and with any command. Taking,
dropping and opening by position would fail with such an error exactly when the list ends before the
position. -/
theorem positions_are_there (turn : Turn) :
    (∀ index, (takeAt index turn).error? = some (.noItemAt index) ↔
      ∃ room, turn.game.currentRoom = .ok room ∧ room.items.length ≤ index) ∧
    (∀ index, (dropAt index turn).error? = some (.noItemAt index) ↔
      ∃ room, turn.game.currentRoom = .ok room ∧ turn.game.player.inventory.length ≤ index) ∧
    (∀ index keyName text, (unlockAt index keyName text turn).error? = some (.noItemAt index) ↔
      ∃ room, turn.game.currentRoom = .ok room ∧ room.items.length ≤ index) ∧
    ∀ (action : Action) (command : Command) (index : Nat),
      (action.run command turn).error? ≠ some (.noItemAt index) := by
  refine ⟨fun _ => takeAt_eq_noItemAt_iff, fun _ => dropAt_eq_noItemAt_iff,
    fun _ _ _ => unlockAt_eq_noItemAt_iff, fun action command index h => ?_⟩
  rcases Action.run_fault h trivial with hroom | ⟨-, direction, target, -, -, -, herror⟩
  · exact nomatch (Game.currentRoom_eq_error_iff.mp hroom).2
  · exact nomatch herror

end Adventure
