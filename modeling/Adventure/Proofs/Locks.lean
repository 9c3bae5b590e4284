import Adventure.Proofs.Conservation

/-!
# Containers open once, by their rule, and never close

What is inside what changes only when a line opens an item (`step_cases`), and then in one place
only: the opened item is unlocked and empty, what was in it lies next to it, and every other item is
as it was (`opensOnly_of_opening`). An unlocked item is not opened again, so it stays exactly as it
is (`unlocked_stays`): it is never locked, and what is in it stays in it. No lock comes off in any
other way (`opensAt_iff_unlocks`).

Results:

* `containers_open_once`: the above, for every draft that is accepted and all lines.
-/

namespace Adventure

/-! ## What is inside what -/

/-- The item of the second id directly holds the one of the first. -/
def Game.Inside (game : Game) (child parent : String) : Prop :=
  ∃ item ∈ game.allItems, item.id = parent ∧ ∃ inner ∈ item.contents, inner.id = child

/-- Every item is inside the same one as before, and has the same lock and the same contents. -/
structure Game.SameNesting (game after : Game) : Prop where
  parents : ∀ child parent, after.Inside child parent ↔ game.Inside child parent
  items : ∀ item ∈ game.allItems, ∀ later ∈ after.allItems, later.id = item.id →
    later.locked = item.locked ∧ later.contents = item.contents

/-- The container is unlocked and empty now, what was in it lies in the current room, and that is
all that is different. -/
structure Game.OpensOnly (game after : Game) (container : Item) : Prop where
  opened : container ∈ game.allItems ∧ container.opened ∈ after.allItems
  others : ∀ item ∈ game.allItems, item.id ≠ container.id → item ∈ after.allItems
  parents : ∀ child parent,
    after.Inside child parent ↔ game.Inside child parent ∧ parent ≠ container.id
  spilled : ∃ room, after.currentRoom = .ok room ∧ ∀ child ∈ container.contents, child ∈ room.items

theorem eq_of_nodup_ids {game : Game} (hids : (game.allItems.map (·.id)).Nodup) {a b : Item}
    (ha : a ∈ game.allItems) (hb : b ∈ game.allItems) (h : a.id = b.id) : a = b :=
  List.inj_on_of_nodup_map hids ha hb h

theorem moves_perm_allItems {g g' : Game} (h : Relation.ReflTransGen Moves g g') :
    g'.allItems.Perm g.allItems := by
  induction h with
  | refl => exact List.Perm.refl _
  | tail _ hmove ih => exact (Item.perm_forest hmove.perm_held).trans ih

/-- Moving things about leaves what is inside what. -/
theorem sameNesting_of_perm {game after : Game} (hids : (game.allItems.map (·.id)).Nodup)
    (hperm : after.allItems.Perm game.allItems) : game.SameNesting after where
  parents := fun child parent => by simp only [Game.Inside, hperm.mem_iff]
  items := by
    intro item hitem later hlater hid
    obtain rfl := eq_of_nodup_ids hids (hperm.mem_iff.mp hlater) hitem hid
    exact ⟨rfl, rfl⟩

section Opening

variable {game : Game} {line : String} {command : Command} {pairing : Pairing} {room : Room}
  {key target : Located} {rule : UseRule}

/-- Before and after a line that opens an item, the items but for that one. -/
theorem Opening.exists_rest (h : Opening game line command pairing room key target rule) :
    ∃ rest, game.allItems.Perm (target.item :: rest) ∧
      (game.step line).game.allItems.Perm (target.item.opened :: rest) := by
  rw [h.after]
  exact perm_allItems_afterOpening h.here h.on_floor

/-- **A line that opens an item does nothing else.** -/
theorem opensOnly_of_opening (hids : (game.allItems.map (·.id)).Nodup)
    (h : Opening game line command pairing room key target rule) :
    game.OpensOnly (game.step line).game target.item := by
  obtain ⟨rest, hold, hnew⟩ := h.exists_rest
  have hrest : ∀ item ∈ rest, item.id ≠ target.item.id := by
    intro item hitem hid
    have hnodup := (hold.map (·.id)).nodup_iff.mp hids
    exact (List.nodup_cons.mp hnodup).1 (List.mem_map.mpr ⟨item, hitem, hid⟩)
  refine ⟨⟨hold.mem_iff.mpr List.mem_cons_self, hnew.mem_iff.mpr List.mem_cons_self⟩,
    fun item hitem hne => ?_, fun child parent => ⟨?_, ?_⟩, ?_⟩
  · rcases List.mem_cons.mp (hold.mem_iff.mp hitem) with rfl | hitem
    · exact absurd rfl hne
    · exact hnew.mem_iff.mpr (List.mem_cons_of_mem _ hitem)
  · rintro ⟨item, hitem, rfl, inner, hinner, rfl⟩
    rcases List.mem_cons.mp (hnew.mem_iff.mp hitem) with rfl | hitem
    · exact absurd hinner List.not_mem_nil
    · exact ⟨⟨item, hold.mem_iff.mpr (List.mem_cons_of_mem _ hitem), rfl, inner, hinner, rfl⟩,
        hrest item hitem⟩
  · rintro ⟨⟨item, hitem, rfl, inner, hinner, rfl⟩, hne⟩
    rcases List.mem_cons.mp (hold.mem_iff.mp hitem) with rfl | hitem
    · exact absurd rfl hne
    · exact ⟨item, hnew.mem_iff.mpr (List.mem_cons_of_mem _ hitem), rfl, inner, hinner, rfl⟩
  · rw [h.after]
    exact ⟨_, Game.currentRoom_withFloor h.here _, fun child hchild =>
      List.mem_append_right _ hchild⟩

end Opening

/-! ## What stays -/

/-- **An unlocked item stays as it is.** -/
theorem unlocked_stays {game : Game} {item : Item} (hitem : item ∈ game.allItems)
    (hlocked : item.locked = false) (lines : List String) : item ∈ (game.run lines).allItems := by
  refine run_keeps (P := fun g => item ∈ g.allItems) (fun g line hg => ?_) hitem lines
  rcases step_cases g line with hmoves | ⟨command, pairing, room, key, target, rule, hopening⟩
  · exact (moves_perm_allItems hmoves).mem_iff.mpr hg
  · obtain ⟨rest, hold, hnew⟩ := hopening.exists_rest
    rcases List.mem_cons.mp (hold.mem_iff.mp hg) with rfl | hrest
    · exact absurd (hlocked.symm.trans hopening.locked) Bool.false_ne_true
    · exact hnew.mem_iff.mpr (List.mem_cons_of_mem _ hrest)

/-- The line takes the lock off the item of this id. -/
def Game.Unlocks (game : Game) (line id : String) : Prop :=
  ∃ item ∈ game.allItems, ∃ later ∈ (game.step line).game.allItems,
    item.id = id ∧ later.id = id ∧ item.locked = true ∧ later.locked = false

/-- An item whose lock has come off is not one of those that were there. -/
theorem exists_changed_of_unlocks {game : Game} (hids : (game.allItems.map (·.id)).Nodup)
    {line id : String} (h : game.Unlocks line id) : ∃ later ∈ (game.step line).game.allItems,
      later.id = id ∧ later.locked = false ∧ later ∉ game.allItems := by
  obtain ⟨item, hitem, later, hlater, rfl, hid, hlocked, hunlocked⟩ := h
  refine ⟨later, hlater, hid, hunlocked, fun hmem => ?_⟩
  obtain rfl := eq_of_nodup_ids hids hmem hitem hid
  exact absurd (hunlocked.symm.trans hlocked) Bool.false_ne_true

/-- An item is empty when its lock has come off. -/
theorem exists_empty_of_unlocks {game : Game} (hids : (game.allItems.map (·.id)).Nodup)
    {line id : String} (h : game.Unlocks line id) : ∃ later ∈ (game.step line).game.allItems,
      later.id = id ∧ later.locked = false ∧ later.contents = [] := by
  obtain ⟨later, hlater, hid, hunlocked, hchanged⟩ := exists_changed_of_unlocks hids h
  rcases step_cases game line with hmoves | ⟨command, pairing, room, key, target, rule, hopening⟩
  · exact absurd ((moves_perm_allItems hmoves).mem_iff.mp hlater) hchanged
  · obtain ⟨rest, hold, hnew⟩ := hopening.exists_rest
    rcases List.mem_cons.mp (hnew.mem_iff.mp hlater) with rfl | hrest
    · exact ⟨_, hlater, hid, rfl, rfl⟩
    · exact absurd (hold.mem_iff.mpr (List.mem_cons_of_mem _ hrest)) hchanged

/-- **A line opens an item when some lock comes off.** -/
theorem opensAt_iff_unlocks {game : Game} (hids : (game.allItems.map (·.id)).Nodup)
    {line : String} : game.OpensAt line ↔ ∃ id, game.Unlocks line id := by
  constructor
  · rintro ⟨command, pairing, room, key, target, rule, h⟩
    obtain ⟨rest, hold, hnew⟩ := h.exists_rest
    exact ⟨target.item.id, target.item, hold.mem_iff.mpr List.mem_cons_self, target.item.opened,
      hnew.mem_iff.mpr List.mem_cons_self, rfl, rfl, h.locked, rfl⟩
  · rintro ⟨id, h⟩
    obtain ⟨later, hlater, -, -, hchanged⟩ := exists_changed_of_unlocks hids h
    rcases step_cases game line with hmoves | hopens
    · exact absurd ((moves_perm_allItems hmoves).mem_iff.mp hlater) hchanged
    · exact hopens

/-! ## Every run -/

/-- The item stays for good: after any lines it is there as it is, and no other of its id. -/
def Game.Stays (game : Game) (item : Item) : Prop :=
  ∀ lines, item ∈ (game.run lines).allItems ∧
    ∀ later ∈ (game.run lines).allItems, later.id = item.id → later = item

/-- **Containers open once, by their rule, and never close**, from this game on. -/
structure Game.OpensOnce (game : Game) : Prop where
  /-- What is inside what changes only when a use opens a container, and nothing else changes. -/
  by_use : ∀ line, ¬ game.SameNesting (game.step line).game →
    ∃ command pairing room key target rule,
      Opening game line command pairing room key target rule ∧
      game.OpensOnly (game.step line).game target.item
  /-- What is unlocked stays so, and keeps what is in it. -/
  stays_open : ∀ item ∈ game.allItems, item.locked = false → game.Stays item
  /-- What a line unlocks is empty, and stays so. -/
  stays_empty : ∀ line id, game.Unlocks line id → ∃ item,
    item.id = id ∧ item.locked = false ∧ item.contents = [] ∧ (game.step line).game.Stays item
  /-- What a line unlocks is not unlocked again. -/
  once : ∀ line id, game.Unlocks line id → ∀ lines line',
    ¬ ((game.step line).game.run lines).Unlocks line' id

theorem stays_of_unlocked {game : Game} {item : Item}
    (hids : ∀ lines, ((game.run lines).allItems.map (·.id)).Nodup)
    (hitem : item ∈ game.allItems) (hlocked : item.locked = false) : game.Stays item := by
  intro lines
  have hstays := unlocked_stays hitem hlocked lines
  exact ⟨hstays, fun later hlater hid => eq_of_nodup_ids (hids lines) hlater hstays hid⟩

/-- No id coming twice is all it takes. -/
theorem opensOnce_of_nodup_ids {game : Game}
    (hids : ∀ lines, ((game.run lines).allItems.map (·.id)).Nodup) : game.OpensOnce := by
  have hempty : ∀ line id, game.Unlocks line id → ∃ item,
      item.id = id ∧ item.locked = false ∧ item.contents = [] ∧
        (game.step line).game.Stays item := by
    intro line id hunlocks
    obtain ⟨item, hitem, hid, hlocked, hcontents⟩ := exists_empty_of_unlocks (hids []) hunlocks
    exact ⟨item, hid, hlocked, hcontents,
      stays_of_unlocked (fun lines => run_cons game line lines ▸ hids (line :: lines)) hitem
        hlocked⟩
  refine ⟨fun line hchanged => ?_, fun item hitem hlocked => stays_of_unlocked hids hitem hlocked,
    hempty, fun line id hunlocks lines line' => ?_⟩
  · rcases step_cases game line with hmoves |
      ⟨command, pairing, room, key, target, rule, hopening⟩
    · exact absurd (sameNesting_of_perm (hids []) (moves_perm_allItems hmoves)) hchanged
    · exact ⟨command, pairing, room, key, target, rule, hopening,
        opensOnly_of_opening (hids []) hopening⟩
  · rintro ⟨locked, hmem, -, -, hlockedId, -, hlocked, -⟩
    obtain ⟨item, hid, hunlocked, -, hstays⟩ := hempty line id hunlocks
    obtain rfl := (hstays lines).2 locked hmem (hlockedId.trans hid.symm)
    exact absurd (hunlocked.symm.trans hlocked) Bool.false_ne_true

/-- **In every game that can be got to, containers open once, by their rule, and never close**, for
every draft that is accepted; one that was loaded unlocked stays as it was loaded. -/
theorem containers_open_once {draft : Draft} {world : World} (h : World.ofDraft draft = .ok world) :
    (∀ lines, ((Game.start world).run lines).OpensOnce) ∧
      ∀ loaded ∈ world.allItems, loaded.locked = false → (Game.start world).Stays loaded := by
  have hids := nodup_ids_run h
  refine ⟨fun lines => opensOnce_of_nodup_ids fun more => ?_, fun loaded hloaded hlocked => ?_⟩
  · exact run_append (Game.start world) lines more ▸ hids (lines ++ more)
  · exact stays_of_unlocked hids (allItems_start world ▸ hloaded) hlocked

/-- The player stands in the treasure room of the cave and has the rusty key. -/
def beforeChest (world : World) : Game :=
  (Game.start world).run ["north", "take rusty key", "north"]

set_option maxRecDepth 100000 in
/-- Before the chest of the cave this holds, and the key does open the chest. -/
theorem cave_opens_once : ∃ world, World.load caveText = .ok world ∧
    (beforeChest world).OpensOnce ∧
    (beforeChest world).Unlocks "use rusty key on chest" "chest" := by
  obtain ⟨draft, world, htext, hdraft, hopens⟩ := exists_world_of_chars caveText
    (fun _ world => ∃ item ∈ (beforeChest world).allItems,
      ∃ later ∈ ((beforeChest world).step "use rusty key on chest").game.allItems,
        item.id = "chest" ∧ later.id = "chest" ∧ item.locked = true ∧ later.locked = false)
    String.toList_ofList (by decide +kernel)
  exact ⟨world, load_eq_ok_iff.mpr ⟨draft, htext, hdraft⟩,
    (containers_open_once hdraft).1 ["north", "take rusty key", "north"], hopens⟩

end Adventure
