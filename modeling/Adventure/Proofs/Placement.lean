import Adventure.Proofs.Declared

/-!
# Putting assembled items in place

`place` assembles one declared item and puts it on a floor or into the inventory. Over a list of
declared items it puts the roots among them in place, one after another, each at the end of where
it belongs: `Placed` says what that does to the pool, the rooms and the inventory, and
`foldlM_place_placed` that it is what happens. When nothing is in the way, it does happen
(`foldlM_place_ok`).
-/

namespace Adventure

variable {children : String → List String}

/-! ## One item -/

/-- The placement after an item was put in a room. -/
def Placement.inRoom (placement : Placement) (key : String) (item : Item) (rest : Pool) :
    Placement :=
  { placement with
    pool := rest
    rooms := placement.rooms.modify key fun room => { room with items := room.items ++ [item] } }

/-- The placement after an item was put into the inventory. -/
def Placement.inInventory (placement : Placement) (item : Item) (rest : Pool) : Placement :=
  { placement with pool := rest, inventory := placement.inventory ++ [item] }

theorem place_room_eq_ok_iff {p p' : Placement} {d : Declared} {key : String}
    (hloc : d.location = .room key) :
    place children p d = .ok p' ↔ key ∈ p.rooms.keys ∧
      ∃ item rest, assemble children d.item.id p.pool = .ok (item, rest) ∧
        p' = p.inRoom key item rest := by
  simp only [place, hloc, bind_eq_ok_iff, require_eq_ok_iff, Table.contains_iff_mem_keys]
  constructor
  · rintro ⟨⟨item, rest⟩, hitem, -, hkey, h⟩
    exact ⟨hkey, item, rest, hitem, (Except.ok.inj h).symm⟩
  · rintro ⟨hkey, item, rest, hitem, rfl⟩
    exact ⟨⟨item, rest⟩, hitem, (), hkey, rfl⟩

theorem place_inventory_eq_ok_iff {p p' : Placement} {d : Declared}
    (hloc : d.location = .inventory) :
    place children p d = .ok p' ↔
      ∃ item rest, assemble children d.item.id p.pool = .ok (item, rest) ∧
        p' = p.inInventory item rest := by
  simp only [place, hloc, bind_eq_ok_iff]
  constructor
  · rintro ⟨⟨item, rest⟩, hitem, h⟩
    exact ⟨item, rest, hitem, (Except.ok.inj h).symm⟩
  · rintro ⟨item, rest, hitem, rfl⟩
    exact ⟨⟨item, rest⟩, hitem, rfl⟩

theorem place_item_eq_ok_iff {p p' : Placement} {d : Declared} {parent : String}
    (hloc : d.location = .item parent) : place children p d = .ok p' ↔ p' = p := by
  simp only [place, hloc, Except.ok.injEq, eq_comm]

/-! ## A list of items -/

/-- The items on all floors and in the inventory. -/
def Placement.held (p : Placement) : List Item :=
  p.rooms.values.flatMap (·.items) ++ p.inventory

/-- The items among these that were put in a location, in order. -/
def putIn (placed : List (StartLocation × Item)) (location : StartLocation) : List Item :=
  (placed.filter (·.1 == location)).map (·.2)

/-- The roots among the declared items were put in place, each where it belongs. -/
structure Placed (children : String → List String) (declared : List Declared)
    (placed : List (StartLocation × Item)) (p p' : Placement) : Prop where
  roots : placed.map (fun e => (e.1, e.2.id)) =
    (declared.filter (·.isRoot)).map fun d => (d.location, d.item.id)
  assembled : Assembled children p.pool (placed.map (·.2)) p'.pool
  floors : ∀ key, p'.rooms.get? key =
    (p.rooms.get? key).map fun room => { room with items := room.items ++ putIn placed (.room key) }
  inventory : p'.inventory = p.inventory ++ putIn placed .inventory
  /-- Nothing but the placed items is new. -/
  held : p'.held.Perm (placed.map (·.2) ++ p.held)
  declared_rooms : ∀ d ∈ declared, ∀ key, d.location = .room key → key ∈ p.rooms.keys

/-- Adding an item to one floor adds it to what is held. -/
theorem Placement.perm_held_inRoom {p : Placement} {key : String} (hkey : key ∈ p.rooms.keys)
    (item : Item) (rest : Pool) : (p.inRoom key item rest).held.Perm (item :: p.held) := by
  obtain ⟨room, hroom⟩ := Table.mem_keys_iff.mp hkey
  obtain ⟨l, r, hvalues, hmodify⟩ := Table.exists_flatMap_values_modify Room.items hroom
  have hnew : (p.inRoom key item rest).held =
      (l ++ room.items) ++ item :: (r ++ p.inventory) := by
    rw [held, inRoom, hmodify]
    simp
  have hold : p.held = (l ++ room.items) ++ (r ++ p.inventory) := by
    rw [held, hvalues]
    simp
  rw [hnew, hold]
  exact List.perm_middle

theorem Placement.perm_held_inInventory {p : Placement} (item : Item) (rest : Pool) :
    (p.inInventory item rest).held.Perm (item :: p.held) := by
  rw [held, inInventory, ← List.append_assoc]
  exact List.perm_append_singleton item _

namespace Placed

theorem nil (p : Placement) : Placed children [] [] p p where
  roots := rfl
  assembled := .nil p.pool
  floors := fun key => by cases p.rooms.get? key <;> simp [putIn]
  inventory := by simp [putIn]
  held := List.Perm.refl _
  declared_rooms := fun _ h => absurd h List.not_mem_nil

theorem append {l l' : List Declared} {placed placed' : List (StartLocation × Item)}
    {p mid p' : Placement} (h : Placed children l placed p mid)
    (h' : Placed children l' placed' mid p') :
    Placed children (l ++ l') (placed ++ placed') p p' where
  roots := by simp only [List.map_append, List.filter_append, h.roots, h'.roots]
  assembled := by
    rw [List.map_append]
    exact h.assembled.append h'.assembled
  floors := by
    intro key
    rw [h'.floors, h.floors, Option.map_map]
    simp [putIn, Function.comp_def]
  inventory := by simp [h'.inventory, h.inventory, putIn]
  held := by
    rw [List.map_append, List.append_assoc]
    refine (h'.held.trans (h.held.append_left _)).trans ?_
    exact List.perm_append_comm_assoc _ _ _
  declared_rooms := by
    intro d hd key hloc
    rcases List.mem_append.mp hd with hd | hd
    · exact h.declared_rooms d hd key hloc
    · have hkey := h'.declared_rooms d hd key hloc
      rw [Table.mem_keys_iff, h.floors] at hkey
      obtain ⟨room, hroom⟩ := hkey
      obtain ⟨old, hold, -⟩ := Option.map_eq_some_iff.mp hroom
      exact Table.mem_keys_iff.mpr ⟨old, hold⟩

end Placed

/-- **Putting one declared item in place**, if it is a root. -/
theorem place_placed {p p' : Placement} {d : Declared} (hfresh : Fresh p.pool)
    (h : place children p d = .ok p') : ∃ placed, Placed children [d] placed p p' := by
  cases hloc : d.location with
  | item parent =>
    obtain rfl := (place_item_eq_ok_iff hloc).mp h
    exact ⟨[], { Placed.nil p' with
      roots := by simp [Declared.isRoot, hloc]
      declared_rooms := by
        intro e he key hkey
        rw [List.mem_singleton.mp he, hloc] at hkey
        exact absurd hkey (by simp) }⟩
  | room key =>
    obtain ⟨hkey, item, rest, hitem, rfl⟩ := (place_room_eq_ok_iff hloc).mp h
    obtain ⟨hbuilt, hid⟩ := assembleWithin_assembled hfresh hitem
    refine ⟨[(.room key, item)], ?_, hbuilt, fun q => ?_, ?_, ?_, fun e he q hq => ?_⟩
    · simp [Declared.isRoot, hloc, hid]
    · rw [Placement.inRoom, Table.get?_modify]
      by_cases hq : q = key
      · simp [hq, putIn]
      · simp [hq, putIn, Ne.symm hq]
    · simp [Placement.inRoom, putIn]
    · exact Placement.perm_held_inRoom hkey item rest
    · rw [List.mem_singleton.mp he, hloc] at hq
      exact StartLocation.room.inj hq ▸ hkey
  | inventory =>
    obtain ⟨item, rest, hitem, rfl⟩ := (place_inventory_eq_ok_iff hloc).mp h
    obtain ⟨hbuilt, hid⟩ := assembleWithin_assembled hfresh hitem
    refine ⟨[(.inventory, item)], ?_, hbuilt, fun q => ?_, rfl, ?_, fun e he q hq => ?_⟩
    · simp [Declared.isRoot, hloc, hid]
    · simp [Placement.inInventory, putIn]
    · exact Placement.perm_held_inInventory item rest
    · rw [List.mem_singleton.mp he, hloc] at hq
      exact absurd hq (by simp)

/-- **Putting all declared items in place**, as far as they are roots. -/
theorem foldlM_place_placed {l : List Declared} {p p' : Placement} (hfresh : Fresh p.pool)
    (h : l.foldlM (place children) p = .ok p') : ∃ placed, Placed children l placed p p' := by
  induction l generalizing p with
  | nil =>
    obtain rfl := Except.ok.inj h
    exact ⟨[], .nil p⟩
  | cons d l ih =>
    obtain ⟨mid, hmid, h⟩ := foldlM_cons_eq_ok_iff.mp h
    obtain ⟨first, hfirst⟩ := place_placed hfresh hmid
    obtain ⟨others, hothers⟩ := ih (hfresh.of_sub hfirst.assembled.sub) h
    exact ⟨first ++ others, hfirst.append hothers⟩

/-! ## When it succeeds -/

theorem mem_keys_inRoom {p : Placement} {key q : String} {item : Item} {rest : Pool} :
    q ∈ (p.inRoom key item rest).rooms.keys ↔ q ∈ p.rooms.keys := by
  rw [Placement.inRoom, Table.keys_modify]

theorem rootIds_cons_of_root {d : Declared} (hroot : d.isRoot = true) (l : List Declared) :
    rootIds (d :: l) = d.item.id :: rootIds l := by
  rw [rootIds, List.filter_cons_of_pos hroot, List.map_cons, rootIds]

/-- **All roots are put in place** when they can be taken out of the pool, and then everything below
them is out of the pool; or one of them starts in a room that does not exist. -/
theorem foldlM_place_cases (hone : OneParent children) {l : List Declared} {p : Placement}
    (hready : Ready children p.pool (rootIds l)) :
    (∃ p', l.foldlM (place children) p = .ok p' ∧
      TakenOut children p.pool (rootIds l) p'.pool) ∨
    ∃ d ∈ l, ∃ key, d.location = .room key ∧ key ∉ p.rooms.keys ∧
      l.foldlM (place children) p = .error (.badLocation d.item.id s!"room:{key}") := by
  induction l generalizing p with
  | nil => exact Or.inl ⟨p, rfl, fun x => by simp [rootIds]⟩
  | cons d l ih =>
    -- once the first item is in place, or was passed over, the others decide
    have next : ∀ mid, place children p d = .ok mid →
        (∀ key, key ∈ mid.rooms.keys ↔ key ∈ p.rooms.keys) → Ready children mid.pool (rootIds l) →
        (∀ rest, TakenOut children mid.pool (rootIds l) rest →
          TakenOut children p.pool (rootIds (d :: l)) rest) →
        (∃ p', (d :: l).foldlM (place children) p = .ok p' ∧
          TakenOut children p.pool (rootIds (d :: l)) p'.pool) ∨
        ∃ e ∈ d :: l, ∃ key, e.location = .room key ∧ key ∉ p.rooms.keys ∧
          (d :: l).foldlM (place children) p =
            .error (.badLocation e.item.id s!"room:{key}") := by
      intro mid hmid hkeys hready hout
      rw [List.foldlM_cons, hmid]
      rcases ih hready with ⟨p', h, hall⟩ | ⟨e, he, key, hloc, hkey, h⟩
      · exact Or.inl ⟨p', h, hout _ hall⟩
      · exact Or.inr ⟨e, List.mem_cons_of_mem _ he, key, hloc, mt (hkeys key).mpr hkey, h⟩
    by_cases hroot : d.isRoot = true
    · rw [rootIds_cons_of_root hroot] at hready next
      obtain ⟨item, rest, hitem, hout⟩ := assemble_ok hone hready.head
      have hrest := hready.tail hone hout
      cases hloc : d.location with
      | item parent => exact absurd hloc (isRoot_iff.mp hroot parent)
      | room key =>
        by_cases hkey : key ∈ p.rooms.keys
        · rw [rootIds_cons_of_root hroot]
          exact next _ ((place_room_eq_ok_iff hloc).mpr ⟨hkey, item, rest, hitem, rfl⟩)
            (fun _ => mem_keys_inRoom) hrest fun _ => hout.cons
        · refine Or.inr ⟨d, List.mem_cons_self, key, hloc, hkey, ?_⟩
          have hfree : p.rooms.contains key = false := by
            rwa [← Bool.not_eq_true, Table.contains_iff_mem_keys]
          rw [List.foldlM_cons, place, hloc, hitem]
          simp [hfree, require, bind, Except.bind]
      | inventory =>
        rw [rootIds_cons_of_root hroot]
        exact next _ ((place_inventory_eq_ok_iff hloc).mpr ⟨item, rest, hitem, rfl⟩)
          (fun _ => Iff.rfl) hrest fun _ => hout.cons
    · have hids : rootIds (d :: l) = rootIds l := by
        rw [rootIds, List.filter_cons_of_neg hroot, rootIds]
      rw [hids] at hready next
      cases hloc : d.location with
      | item parent =>
        rw [hids]
        exact next p ((place_item_eq_ok_iff hloc).mpr rfl) (fun _ => Iff.rfl) hready fun _ => id
      | room key => exact absurd (isRoot_iff.mpr (by simp [hloc])) hroot
      | inventory => exact absurd (isRoot_iff.mpr (by simp [hloc])) hroot

/-- All of them are, when the rooms they start in exist. -/
theorem foldlM_place_ok (hone : OneParent children) {l : List Declared} {p : Placement}
    (hready : Ready children p.pool (rootIds l))
    (hrooms : ∀ d ∈ l, ∀ key, d.location = .room key → key ∈ p.rooms.keys) :
    ∃ p', l.foldlM (place children) p = .ok p' ∧
      TakenOut children p.pool (rootIds l) p'.pool := by
  rcases foldlM_place_cases hone hready with hplaced | ⟨d, hd, key, hloc, hkey, -⟩
  · exact hplaced
  · exact absurd (hrooms d hd key hloc) hkey

theorem checkEmpty_eq_ok_iff {pool : Pool} {u : Unit} :
    checkEmpty pool = .ok u ↔ pool.keys = [] := by
  unfold checkEmpty
  cases pool.keys <;> simp

theorem checkEmpty_eq_error_iff {pool : Pool} {id : String} :
    checkEmpty pool = .error (.containmentCycle id) ↔ ∃ rest, pool.keys = id :: rest := by
  unfold checkEmpty
  cases pool.keys <;> simp

end Adventure
