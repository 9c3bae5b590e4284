import Adventure.Proofs.Naming
import Adventure.Proofs.Walking

/-!
# Carrying everything about

A line that goes nowhere leaves the player in the same room and the floors of all others as they
are (`IsVerb.stays`). "take all" and "drop all" move a whole list, in its order, to the end of
the other (`step_take_all`, `step_drop_all`). So a player who walks from room to room and takes all
leaves empty floors behind, and in the end holds everything there is (`Game.held_eq`).
-/

namespace Adventure

namespace Game

variable {game : Game} {room : Room}

/-! ## Floors -/

/-- What lies in the room under this key. -/
def floor (game : Game) (key : String) : List Item :=
  (game.world.room? key).elim [] Room.items

theorem floor_of_currentRoom (h : game.currentRoom = .ok room) :
    game.floor game.player.room = room.items := by
  rw [floor, currentRoom_eq_ok_iff.mp h]
  rfl

theorem floor_withFloor (h : game.currentRoom = .ok room) (items : List Item) :
    (game.withFloor items).floor game.player.room = items :=
  floor_of_currentRoom (currentRoom_withFloor h items)

theorem floor_withFloor_of_ne {key : String} (h : key ≠ game.player.room) (items : List Item) :
    (game.withFloor items).floor key = game.floor key := by
  rw [floor, withFloor, World.room?_withFloor, if_neg h, floor]

/-- All that is held lies on the floors or is carried. -/
theorem held_eq (game : Game) :
    game.held = game.world.rooms.keys.flatMap game.floor ++ game.player.inventory := by
  have hfloors : ∀ e ∈ game.world.rooms.entries, e.2.items = game.floor e.1 := by
    intro e he
    rw [floor, World.room?, Table.get?_eq_some_iff.mpr he]
    rfl
  rw [held, Table.values, Table.keys, List.flatMap_map, List.flatMap_map,
    List.flatMap_congr hfloors]

end Game

/-! ## Staying -/

/-- The player is in the same room, and the other rooms are as they were. -/
structure Game.StaysIn (game after : Game) : Prop where
  room : after.player.room = game.player.room
  elsewhere : ∀ key, key ≠ game.player.room → after.floor key = game.floor key

theorem Game.StaysIn.refl (game : Game) : game.StaysIn game := ⟨rfl, fun _ _ => rfl⟩

theorem Game.StaysIn.trans {game mid after : Game} (h : game.StaysIn mid) (h' : mid.StaysIn after) :
    game.StaysIn after where
  room := h'.room.trans h.room
  elsewhere := fun key hkey =>
    (h'.elsewhere key (h.room ▸ hkey)).trans (h.elsewhere key hkey)

theorem staysIn_of_change {action : Action} (haction : action ≠ .go) {g g' : Game}
    (h : action.change g g') : g.StaysIn g' := by
  cases action with
  | go => exact absurd rfl haction
  | take =>
    obtain ⟨room, index, item, -, -, rfl⟩ := h
    exact ⟨rfl, fun key hkey => Game.floor_withFloor_of_ne hkey _⟩
  | drop =>
    obtain ⟨room, index, item, -, -, rfl⟩ := h
    exact ⟨rfl, fun key hkey => Game.floor_withFloor_of_ne hkey _⟩
  | use =>
    obtain ⟨room, index, container, -, -, -, rfl⟩ := h
    exact ⟨rfl, fun key hkey => Game.floor_withFloor_of_ne hkey _⟩
  | look => exact h.elim
  | examine => exact h.elim
  | inventory => exact h.elim
  | help => exact h.elim

/-- **What an action keeps, a line with its verb keeps.** -/
theorem IsVerb.keeps {verb : String} {action : Action} (h : IsVerb verb action) {P : Game → Prop}
    (hchange : ∀ g g', action.change g g' → P g → P g') {game : Game} (hgame : P game)
    (text : String) : P (game.step (verb ++ " " ++ text)).game := by
  have hsteps := action.run_changes
    { verb := verb, args := phraseWords text, phrases := Command.phrasesOf (tokens text) }
    ⟨game, Output.empty⟩
  rw [← h.step_game] at hsteps
  generalize (game.step (verb ++ " " ++ text)).game = after at hsteps
  induction hsteps with
  | refl => exact hgame
  | tail _ hlast ih => exact hchange _ _ hlast ih

/-- **A line that goes nowhere leaves the other rooms alone.** -/
theorem IsVerb.stays {verb : String} {action : Action} (h : IsVerb verb action)
    (haction : action ≠ .go) (game : Game) (text : String) :
    game.StaysIn (game.step (verb ++ " " ++ text)).game :=
  h.keeps (fun _ _ hchange hstays => hstays.trans (staysIn_of_change haction hchange))
    (Game.StaysIn.refl game) text

/-- Going in a direction that is spelled by its words follows the exit. -/
theorem step_go_of_spelled {direction : String} (hlower : Text.lower direction = direction)
    (hspelled : Spelled direction) (game : Game) :
    (game.step ("go " ++ direction)).game = game.follow direction := by
  obtain ⟨hnonempty, hheard⟩ := (spelled_iff hlower).mp hspelled
  have hwords : ¬ (phraseWords direction).isEmpty = true := by
    intro hempty
    rw [heard, List.isEmpty_iff.mp hempty] at hheard
    exact hnonempty hheard.symm
  rw [step_go_game, if_neg hwords, hheard]

/-! ## Everything at once -/

variable {game : Game} {room : Room}

theorem IsVerb.step_all {verb : String} {action : Action} (h : IsVerb verb action) (game : Game) :
    (game.step (verb ++ " " ++ "all")).game =
      (action.run ⟨verb, ["all"], [["all"]]⟩ ⟨game, Output.empty⟩).turn.game := by
  have hwords : phraseWords "all" = ["all"] := by decide
  have hphrases : Command.phrasesOf (tokens "all") = [["all"]] := by decide
  rw [h.step_game, hwords, hphrases]

/-- **"take all" takes the whole floor**, in its order. -/
theorem step_take_all (hroom : game.currentRoom = .ok room) :
    (game.step "take all").game =
      (game.withFloor []).withInventory (game.player.inventory ++ room.items) := by
  have hline : "take all" = "take" ++ " " ++ "all" := rfl
  have htaken := @game_run_asksForAll _ _ ⟨game, Output.empty⟩ (asksForAll "take") hroom .room
  rw [hline, isVerb_take.step_all]
  exact htaken

/-- **"drop all" drops all that is carried**, in its order. -/
theorem step_drop_all (hroom : game.currentRoom = .ok room) :
    (game.step "drop all").game =
      (game.withInventory []).withFloor (room.items ++ game.player.inventory) := by
  have hline : "drop all" = "drop" ++ " " ++ "all" := rfl
  have hdropped :=
    @game_run_asksForAll _ _ ⟨game, Output.empty⟩ (asksForAll "drop") hroom .inventory
  rw [hline, isVerb_drop.step_all]
  exact hdropped

/-- An alias that one item on the floor has, and no other, takes that item. -/
theorem step_take_only {text : String} (hroom : game.currentRoom = .ok room)
    (hspelled : Spelled (Text.lower text)) (hall : Text.lower text ≠ "all")
    (honly : room.items.countP (·.aliases.contains (Text.lower text)) = 1) :
    ∃ (index : Nat) (item : Item), room.items[index]? = some item ∧
      Text.lower text ∈ item.aliases ∧
      (game.step ("take " ++ text)).game =
        (game.withFloor (room.items.eraseIdx index)).withInventory
          (game.player.inventory ++ [item]) := by
  obtain ⟨index, item, hitem, halias, hunique⟩ := exists_only_of_countP honly
  have halias := List.contains_iff_mem.mp halias
  exact ⟨index, item, hitem, halias, step_take_game hroom hitem hspelled hall halias
    fun i other hother hmem => hunique i other hother (List.contains_iff_mem.mpr hmem)⟩

end Adventure
