import Adventure.Play.Turn
import Adventure.Play.Use
import Adventure.Proofs.Entries
import Adventure.Proofs.Forest
import Mathlib.Logic.Relation

/-!
# What lies and is carried in a game

`Game.held` lists the items on all floors and in the inventory, `Game.allItems` these with
everything inside them. Play changes a game in four ways: the player walks, takes an item, drops
one, or opens one (`Walks`, `Takes`, `Drops`, `Opens`).

* The first three move what is held and leave it as it is (`Moves.perm_held`).
* Opening takes the lock off one item on the floor and puts what was inside next to it
  (`perm_held_afterOpening`). Where one item alone is locked, it is that one (`Opens.perm_held`).

Either way the labels of all items stay the same, each as often as before (`Moves.perm_labels`,
`Opens.perm_labels`).
-/

namespace Adventure

open scoped List

namespace Game

/-- The items on all floors and in the inventory. -/
def held (game : Game) : List Item :=
  game.world.rooms.values.flatMap (·.items) ++ game.player.inventory

/-- The items on all floors and in the inventory, with everything inside them. -/
def allItems (game : Game) : List Item := Item.forest game.held

variable {game : Game} {room : Room}

theorem currentRoom_eq_ok_iff :
    game.currentRoom = .ok room ↔ game.world.room? game.player.room = some room := by
  unfold currentRoom
  cases game.world.room? game.player.room <;> simp

theorem currentRoom_withFloor (h : game.currentRoom = .ok room) (items : List Item) :
    (game.withFloor items).currentRoom = .ok { room with items := items } := by
  rw [currentRoom_eq_ok_iff] at h ⊢
  rw [withFloor, World.room?_withFloor, if_pos rfl, h, Option.map_some]

theorem withFloor_withFloor (game : Game) (items others : List Item) :
    (game.withFloor items).withFloor others = game.withFloor others := by
  rw [withFloor, withFloor, withFloor, World.withFloor, World.withFloor, Table.modify_modify]
  rfl

theorem withFloor_self (h : game.currentRoom = .ok room) : game.withFloor room.items = game := by
  have hsame : game.world.rooms.modify game.player.room ({ · with items := room.items }) =
      game.world.rooms := Table.modify_of_get? (currentRoom_eq_ok_iff.mp h) rfl
  rw [withFloor, World.withFloor, hsame]

theorem withInventory_nil (h : game.player.inventory = []) : game.withInventory [] = game := by
  rw [← h]
  rfl

/-- New lists on the current floor and in the inventory leave what lies elsewhere. -/
theorem exists_perm_held (h : game.currentRoom = .ok room) : ∃ elsewhere : List Item,
    game.held.Perm (elsewhere ++ (room.items ++ game.player.inventory)) ∧
      ∀ items carried, ((game.withFloor items).withInventory carried).held.Perm
        (elsewhere ++ (items ++ carried)) := by
  obtain ⟨l, r, hvalues, hmodify⟩ :=
    Table.exists_flatMap_values_modify Room.items (currentRoom_eq_ok_iff.mp h)
  have shuffle : ∀ items carried : List Item,
      (l ++ items ++ r ++ carried).Perm ((l ++ r) ++ (items ++ carried)) := by
    intro items carried
    rw [List.append_assoc, List.append_assoc, List.append_assoc]
    exact (List.perm_append_comm_assoc items r carried).append_left l
  refine ⟨l ++ r, ?_, fun items carried => ?_⟩
  · rw [held, hvalues]
    exact shuffle _ _
  · have hfloor : ((game.withFloor items).withInventory carried).held =
        l ++ items ++ r ++ carried := by
      rw [held, withInventory, withFloor, World.withFloor, hmodify]
    rw [hfloor]
    exact shuffle _ _

end Game

/-! ## Four ways to change a game -/

/-- The player goes to another room. -/
def Walks (g g' : Game) : Prop :=
  ∃ key room, g.world.room? key = some room ∧
    g' = { g with player := { g.player with room := key } }

/-- An item goes from the floor to the end of the inventory. -/
def Takes (g g' : Game) : Prop :=
  ∃ room index item, g.currentRoom = .ok room ∧ room.items[index]? = some item ∧
    g' = (g.withFloor (room.items.eraseIdx index)).withInventory (g.player.inventory ++ [item])

/-- An item goes from the inventory to the end of the floor. -/
def Drops (g g' : Game) : Prop :=
  ∃ room index item, g.currentRoom = .ok room ∧ g.player.inventory[index]? = some item ∧
    g' = (g.withInventory (g.player.inventory.eraseIdx index)).withFloor (room.items ++ [item])

/-- The game after an item on the floor was opened. -/
def Game.afterOpening (game : Game) (room : Room) (index : Nat) (container : Item) : Game :=
  game.withFloor (room.items.set index container.opened ++ container.contents)

/-- A locked item on the floor is opened. -/
def Opens (g g' : Game) : Prop :=
  ∃ room index container, g.currentRoom = .ok room ∧ room.items[index]? = some container ∧
    container.locked = true ∧ g' = g.afterOpening room index container

/-- The player walks, takes or drops. -/
def Moves (g g' : Game) : Prop := Walks g g' ∨ Takes g g' ∨ Drops g g'

/-! ## What becomes of the items -/

theorem perm_eraseIdx {items : List Item} {index : Nat} {item : Item}
    (h : items[index]? = some item) : items.Perm (item :: items.eraseIdx index) := by
  obtain ⟨hi, rfl⟩ := List.getElem?_eq_some_iff.mp h
  exact (List.getElem_cons_eraseIdx_perm hi).symm

/-- Setting one place of a list keeps the rest. -/
theorem exists_perm_set {items : List Item} {index : Nat} {item : Item}
    (h : items[index]? = some item) :
    ∃ rest, items.Perm (item :: rest) ∧ ∀ other, (items.set index other).Perm (other :: rest) := by
  obtain ⟨hi, rfl⟩ := List.getElem?_eq_some_iff.mp h
  refine ⟨items.eraseIdx index, perm_eraseIdx h, fun other => ?_⟩
  have hset : (items.set index other)[index]? = some other := by
    rw [List.getElem?_set_self hi]
  have herase : (items.set index other).eraseIdx index = items.eraseIdx index :=
    List.eraseIdx_set_eq
  exact herase ▸ perm_eraseIdx hset

theorem Takes.perm_held {g g' : Game} (h : Takes g g') : g'.held.Perm g.held := by
  obtain ⟨room, index, item, hroom, hitem, rfl⟩ := h
  obtain ⟨elsewhere, hold, hnew⟩ := Game.exists_perm_held hroom
  refine (hnew _ _).trans (List.Perm.trans (List.Perm.append_left _ ?_) hold.symm)
  calc room.items.eraseIdx index ++ (g.player.inventory ++ [item])
      = (room.items.eraseIdx index ++ g.player.inventory) ++ [item] := by simp
    _ ~ item :: (room.items.eraseIdx index ++ g.player.inventory) :=
      List.perm_append_singleton item _
    _ ~ room.items ++ g.player.inventory := (perm_eraseIdx hitem).symm.append_right _

theorem Drops.perm_held {g g' : Game} (h : Drops g g') : g'.held.Perm g.held := by
  obtain ⟨room, index, item, hroom, hitem, rfl⟩ := h
  obtain ⟨elsewhere, hold, hnew⟩ := Game.exists_perm_held hroom
  refine (hnew (room.items ++ [item]) (g.player.inventory.eraseIdx index)).trans
    (List.Perm.trans (List.Perm.append_left _ ?_) hold.symm)
  rw [List.append_assoc]
  exact (perm_eraseIdx hitem).symm.append_left _

/-- **Walking, taking and dropping keep what is held.** -/
theorem Moves.perm_held {g g' : Game} (h : Moves g g') : g'.held.Perm g.held := by
  rcases h with ⟨key, room, -, rfl⟩ | h | h
  · exact List.Perm.refl _
  · exact h.perm_held
  · exact h.perm_held

theorem mem_held_of_floor {game : Game} {room : Room} {item : Item}
    (hroom : game.currentRoom = .ok room) (hitem : item ∈ room.items) : item ∈ game.held := by
  have hmem := Table.get?_eq_some_iff.mp (Game.currentRoom_eq_ok_iff.mp hroom)
  exact List.mem_append_left _ (List.mem_flatMap.mpr
    ⟨room, List.mem_map_of_mem (f := Prod.snd) hmem, hitem⟩)

/-- **Opening changes one item on the floor and puts what was inside next to it.** -/
theorem perm_held_afterOpening {g : Game} {room : Room} {index : Nat} {container : Item}
    (hroom : g.currentRoom = .ok room) (hitem : room.items[index]? = some container) :
    ∃ rest, g.held.Perm (container :: rest) ∧
      (g.afterOpening room index container).held.Perm
        (container.opened :: (container.contents ++ rest)) := by
  obtain ⟨elsewhere, hold, hnew⟩ := Game.exists_perm_held hroom
  obtain ⟨others, hitems, hset⟩ := exists_perm_set hitem
  refine ⟨elsewhere ++ (others ++ g.player.inventory), hold.trans ?_, ?_⟩
  · calc elsewhere ++ (room.items ++ g.player.inventory)
        ~ elsewhere ++ ((container :: others) ++ g.player.inventory) :=
          (hitems.append_right _).append_left _
      _ ~ container :: (elsewhere ++ (others ++ g.player.inventory)) := List.perm_middle
  · refine (hnew _ g.player.inventory).trans ?_
    calc elsewhere ++ (room.items.set index container.opened ++ container.contents ++
            g.player.inventory)
        ~ elsewhere ++ (container.opened :: others ++ container.contents ++
            g.player.inventory) :=
          (((hset _).append_right _).append_right _).append_left _
      _ ~ container.opened :: (elsewhere ++ (others ++ container.contents ++
            g.player.inventory)) := by
          rw [List.cons_append, List.cons_append]
          exact List.perm_middle
      _ ~ container.opened :: (elsewhere ++ (container.contents ++ (others ++
            g.player.inventory))) := by
          rw [List.append_assoc]
          exact ((List.perm_append_comm_assoc _ _ _).append_left _).cons _
      _ ~ container.opened :: (container.contents ++ (elsewhere ++ (others ++
            g.player.inventory))) := (List.perm_append_comm_assoc _ _ _).cons _

/-- Where nothing is locked, nothing is opened. -/
theorem not_opens_of_unlocked {g g' : Game} (h : ∀ item ∈ g.held, item.locked = false) :
    ¬ Opens g g' := by
  rintro ⟨room, index, item, hroom, hitem, hlocked, -⟩
  have hheld := mem_held_of_floor hroom (List.mem_of_getElem? hitem)
  exact absurd ((h item hheld).symm.trans hlocked) Bool.false_ne_true

/-- **Where one item alone is locked, it is the one that is opened.** -/
theorem Opens.perm_held {g g' : Game} (h : Opens g g') {container : Item} {rest : List Item}
    (hheld : g.held.Perm (container :: rest)) (honly : ∀ item ∈ rest, item.locked = false) :
    g'.held.Perm (container.opened :: (container.contents ++ rest)) := by
  obtain ⟨room, index, item, hroom, hitem, hlocked, rfl⟩ := h
  obtain ⟨others, hold, hnew⟩ := perm_held_afterOpening hroom hitem
  have hboth := hold.symm.trans hheld
  obtain rfl : item = container := by
    rcases List.mem_cons.mp (hboth.mem_iff.mp List.mem_cons_self) with hsame | hrest
    · exact hsame
    · exact absurd ((honly item hrest).symm.trans hlocked) Bool.false_ne_true
  exact hnew.trans ((hboth.cons_inv.append_left _).cons _)

/-- All items after an opening are those before, but for the opened one. -/
theorem perm_allItems_afterOpening {g : Game} {room : Room} {index : Nat} {container : Item}
    (hroom : g.currentRoom = .ok room) (hitem : room.items[index]? = some container) :
    ∃ rest, g.allItems.Perm (container :: rest) ∧
      (g.afterOpening room index container).allItems.Perm (container.opened :: rest) := by
  obtain ⟨rest, hold, hnew⟩ := perm_held_afterOpening hroom hitem
  refine ⟨Item.forest container.contents ++ Item.forest rest, ?_, ?_⟩
  · have h := Item.perm_forest hold
    rw [Item.forest_cons, Item.tree_eq, List.cons_append] at h
    exact h
  · have h := Item.perm_forest hnew
    rw [Item.forest_cons, Item.tree_eq, List.cons_append, Item.forest_append] at h
    exact h

/-- **Every item keeps its id, name, description and aliases.** -/
theorem Moves.perm_labels {g g' : Game} (h : Moves g g') :
    (g'.allItems.map Item.label).Perm (g.allItems.map Item.label) :=
  (Item.perm_forest h.perm_held).map Item.label

theorem Opens.perm_labels {g g' : Game} (h : Opens g g') :
    (g'.allItems.map Item.label).Perm (g.allItems.map Item.label) := by
  obtain ⟨room, index, container, hroom, hitem, -, rfl⟩ := h
  obtain ⟨rest, hold, hnew⟩ := perm_allItems_afterOpening hroom hitem
  have hlabels : (container.opened :: rest).map Item.label = (container :: rest).map Item.label :=
    rfl
  exact (hnew.map Item.label).trans (hlabels ▸ (hold.map Item.label).symm)

end Adventure
