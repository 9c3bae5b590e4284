import Adventure.Proofs.Assembly
import Adventure.Proofs.WellFormed
import Mathlib.Data.Set.Finite.Basic

/-!
# The declared items of a draft

Declaring reads off each entry the item and the location (`Declares`), and refuses ids that come
twice (`declareItems_eq_ok_iff`). With distinct ids no item starts in two places
(`oneParent_childrenOf`), and the pool holds each item once (`perm_poolOf`).

Items that start in a room or in the inventory are roots. An item is below a root unless it is
stranded, which is to say that the way up from it leads to an item that is inside itself
(`below_root_iff_not_stranded`): else the way up meets no item twice, and there are finitely many.
-/

namespace Adventure

/-! ## Entry by entry -/

/-- The entry declares the item in its location. -/
def Declares (entry : ItemEntry) (declared : Declared) : Prop :=
  entry.StartsAt declared.location ∧ declared.item = entry.item

theorem declare_eq_ok_iff {entry : ItemEntry} {declared : Declared} :
    entry.declare = .ok declared ↔ Declares entry declared := by
  rw [Declares, ← startsAt_iff, ItemEntry.declare]
  obtain ⟨item, location⟩ := declared
  cases StartLocation.ofText? (Text.trim entry.startLocation) with
  | none => simp
  | some found =>
    simp only [Except.ok.injEq, Declared.mk.injEq, Option.some.injEq]
    exact ⟨fun h => ⟨h.2, h.1.symm⟩, fun h => ⟨h.2.symm, h.1⟩⟩

/-- Declaring succeeds when the ids differ from each other and from those seen, and every start
location can be read. -/
theorem declareItems_eq_ok_iff {entries : List ItemEntry} {seen : List String}
    {declared : List Declared} :
    declareItems seen entries = .ok declared ↔ (entries.map (·.id)).Nodup ∧
      (∀ entry ∈ entries, entry.id ∉ seen) ∧ List.Forall₂ Declares entries declared := by
  induction entries generalizing seen declared with
  | nil => simp [declareItems, eq_comm]
  | cons entry entries ih =>
    have step : declareItems seen (entry :: entries) = .ok declared ↔ entry.id ∉ seen ∧
        ∃ first others, Declares entry first ∧
          declareItems (entry.id :: seen) entries = .ok others ∧ declared = first :: others := by
      rw [declareItems, bind_eq_ok_iff]
      simp only [require_eq_ok_iff, bind_eq_ok_iff, declare_eq_ok_iff, Bool.not_eq_true',
        List.contains_eq_mem, decide_eq_false_iff_not]
      constructor
      · rintro ⟨-, hnew, first, hfirst, others, hothers, h⟩
        exact ⟨hnew, first, others, hfirst, hothers, (Except.ok.inj h).symm⟩
      · rintro ⟨hnew, first, others, hfirst, hothers, rfl⟩
        exact ⟨(), hnew, first, hfirst, others, hothers, rfl⟩
    rw [step]
    simp only [ih, List.map_cons, List.nodup_cons, List.mem_cons, forall_eq_or_imp, not_or,
      List.mem_map, not_exists, not_and]
    constructor
    · rintro ⟨hnew, first, others, hfirst, ⟨hnodup, hnews, hall⟩, rfl⟩
      exact ⟨⟨fun e he => (hnews e he).1, hnodup⟩, ⟨hnew, fun e he => (hnews e he).2⟩,
        .cons hfirst hall⟩
    · rintro ⟨⟨hne, hnodup⟩, ⟨hnew, hnews⟩, hall⟩
      cases hall with
      | cons hfirst hall =>
        exact ⟨hnew, _, _, hfirst, ⟨hnodup, fun e he => ⟨hne e he, hnews e he⟩, hall⟩, rfl⟩

/-! ## The list as a whole -/

section

variable {entries : List ItemEntry} {declared : List Declared}

theorem map_item_of_declares (h : List.Forall₂ Declares entries declared) :
    declared.map (·.item) = entries.map ItemEntry.item := by
  induction h with
  | nil => rfl
  | cons hfirst _ ih => rw [List.map_cons, List.map_cons, hfirst.2, ih]

theorem map_id_of_declares (h : List.Forall₂ Declares entries declared) :
    declared.map (·.item.id) = entries.map (·.id) := by
  have hmap := congrArg (List.map (·.id)) (map_item_of_declares h)
  rw [List.map_map, List.map_map] at hmap
  exact hmap

/-- What is declared in a location are the items of the entries that start there, in order. -/
theorem filter_location_of_declares (h : List.Forall₂ Declares entries declared)
    (location : StartLocation) :
    (declared.filter (·.location == location)).map (·.item) =
      (entries.filter fun entry => entry.StartsAt location).map ItemEntry.item := by
  induction h with
  | nil => rfl
  | @cons entry first _ _ hfirst _ ih =>
    have hiff : entry.StartsAt location ↔ first.location = location :=
      ⟨hfirst.1.unique, fun he => he ▸ hfirst.1⟩
    by_cases hloc : first.location = location
    · simp [hloc, hiff.mpr hloc, hfirst.2, ih]
    · simp [hloc, mt hiff.mp hloc, ih]

theorem exists_declared_of_mem (h : List.Forall₂ Declares entries declared) {entry : ItemEntry}
    (hmem : entry ∈ entries) : ∃ d ∈ declared, Declares entry d := by
  induction h with
  | nil => exact absurd hmem List.not_mem_nil
  | cons hfirst _ ih =>
    rcases List.mem_cons.mp hmem with rfl | hmem
    · exact ⟨_, List.mem_cons_self, hfirst⟩
    · obtain ⟨d, hd, hdecl⟩ := ih hmem
      exact ⟨d, List.mem_cons_of_mem _ hd, hdecl⟩

theorem exists_entry_of_mem (h : List.Forall₂ Declares entries declared) {d : Declared}
    (hmem : d ∈ declared) : ∃ entry ∈ entries, Declares entry d := by
  induction h with
  | nil => exact absurd hmem List.not_mem_nil
  | cons hfirst _ ih =>
    rcases List.mem_cons.mp hmem with rfl | hmem
    · exact ⟨_, List.mem_cons_self, hfirst⟩
    · obtain ⟨entry, he, hdecl⟩ := ih hmem
      exact ⟨entry, List.mem_cons_of_mem _ he, hdecl⟩

end

/-! ## Parents and children -/

variable {declared : List Declared}

theorem mem_childrenOf_iff {parent id : String} :
    id ∈ childrenOf declared parent ↔
      ∃ d ∈ declared, d.location = .item parent ∧ d.item.id = id := by
  simp [childrenOf, and_assoc]

/-- What items start inside of is declared. -/
def ParentsDeclared (declared : List Declared) : Prop :=
  ∀ d ∈ declared, ∀ parent, d.location = .item parent → ∃ p ∈ declared, p.item.id = parent

theorem checkParent_eq_ok_iff {d : Declared} {u : Unit} :
    checkParent declared d = .ok u ↔
      ∀ parent, d.location = .item parent → ∃ p ∈ declared, p.item.id = parent := by
  unfold checkParent
  cases d.location <;> simp [require_eq_ok_iff]

theorem checkParents_eq_ok_iff {u : Unit} :
    declared.forM (checkParent declared) = .ok u ↔ ParentsDeclared declared := by
  simp only [forM_eq_ok_iff, checkParent_eq_ok_iff, ParentsDeclared]

theorem eq_of_id_eq (hids : (declared.map (·.item.id)).Nodup) {a b : Declared}
    (ha : a ∈ declared) (hb : b ∈ declared) (h : a.item.id = b.item.id) : a = b :=
  List.inj_on_of_nodup_map hids ha hb h

/-- Distinct ids leave each item one place to start in. -/
theorem oneParent_childrenOf (hids : (declared.map (·.item.id)).Nodup) :
    OneParent (childrenOf declared) where
  unique := fun {p q id} hp hq => by
    obtain ⟨a, ha, hap, haid⟩ := mem_childrenOf_iff.mp hp
    obtain ⟨b, hb, hbq, hbid⟩ := mem_childrenOf_iff.mp hq
    obtain rfl := eq_of_id_eq hids ha hb (haid.trans hbid.symm)
    exact StartLocation.item.inj (hap.symm.trans hbq)
  nodup := fun p => hids.sublist (List.filter_sublist.map _)

/-- The item starts in a room or in the inventory. -/
def Declared.isRoot (d : Declared) : Bool :=
  match d.location with
  | .item _ => false
  | _ => true

/-- The ids of the items that start in a room or in the inventory, in order. -/
def rootIds (declared : List Declared) : List String :=
  (declared.filter (·.isRoot)).map (·.item.id)

theorem isRoot_iff {d : Declared} : d.isRoot = true ↔ ∀ parent, d.location ≠ .item parent := by
  unfold Declared.isRoot
  cases d.location <;> simp

theorem mem_rootIds_iff {id : String} :
    id ∈ rootIds declared ↔ ∃ d ∈ declared, d.isRoot = true ∧ d.item.id = id := by
  simp [rootIds, and_assoc]

/-- A root is inside nothing. -/
theorem notMem_childrenOf_of_root (hids : (declared.map (·.item.id)).Nodup) {id : String}
    (h : id ∈ rootIds declared) (parent : String) : id ∉ childrenOf declared parent := by
  intro hmem
  obtain ⟨r, hr, hroot, hrid⟩ := mem_rootIds_iff.mp h
  obtain ⟨d, hd, hloc, hdid⟩ := mem_childrenOf_iff.mp hmem
  obtain rfl := eq_of_id_eq hids hr hd (hrid.trans hdid.symm)
  exact isRoot_iff.mp hroot parent hloc

/-! ## The pool -/

theorem get?_foldl_insert {l : List Declared} {pool : Pool} {id : String} {item : Item}
    (h : (l.foldl (fun pool d => pool.insert d.item.id d.item) pool).get? id = some item) :
    pool.get? id = some item ∨ ∃ d ∈ l, d.item = item ∧ item.id = id := by
  induction l generalizing pool with
  | nil => exact Or.inl h
  | cons d l ih =>
    rcases ih h with h | ⟨e, he, hitem⟩
    · rw [Table.get?_insert] at h
      split at h
      · rename_i hid
        obtain rfl := Option.some.inj h
        exact Or.inr ⟨d, List.mem_cons_self, rfl, hid.symm⟩
      · exact Or.inl h
    · exact Or.inr ⟨e, List.mem_cons_of_mem _ he, hitem⟩

theorem perm_foldl_insert {l : List Declared} (pool : Pool)
    (hids : (l.map (·.item.id)).Nodup) (hnew : ∀ d ∈ l, d.item.id ∉ pool.keys) :
    (l.foldl (fun pool d => pool.insert d.item.id d.item) pool).values.Perm
      (l.map (·.item) ++ pool.values) := by
  induction l generalizing pool with
  | nil => exact List.Perm.refl _
  | cons d l ih =>
    obtain ⟨hd, hids⟩ := List.nodup_cons.mp hids
    have hfree := Table.get?_eq_none_iff.mpr (hnew d List.mem_cons_self)
    refine (ih _ hids fun e he hmem => ?_).trans ?_
    · rcases Table.mem_keys_insert.mp hmem with heq | hmem
      · exact hd (List.mem_map.mpr ⟨e, he, heq⟩)
      · exact hnew e (List.mem_cons_of_mem _ he) hmem
    · refine ((Table.perm_values_insert hfree).append_left _).trans ?_
      exact List.perm_middle

/-- The pool holds each declared item once. -/
theorem perm_poolOf (hids : (declared.map (·.item.id)).Nodup) :
    (poolOf declared).values.Perm (declared.map (·.item)) := by
  have h := perm_foldl_insert Table.empty hids fun _ _ hmem =>
    absurd hmem List.not_mem_nil
  exact h.trans (List.Perm.of_eq (List.append_nil _))

theorem fresh_poolOf {entries : List ItemEntry} (h : List.Forall₂ Declares entries declared) :
    Fresh (poolOf declared) :=
  fun id item hget => by
    rcases get?_foldl_insert hget with hnone | ⟨d, hd, rfl, hid⟩
    · exact absurd hnone (by simp)
    · obtain ⟨entry, -, -, hitem⟩ := exists_entry_of_mem h hd
      exact ⟨hid, hitem ▸ entry.contents_item⟩

theorem mem_keys_poolOf {id : String} :
    id ∈ (poolOf declared).keys ↔ ∃ d ∈ declared, d.item.id = id := by
  have general : ∀ (l : List Declared) (pool : Pool),
      id ∈ (l.foldl (fun pool d => pool.insert d.item.id d.item) pool).keys ↔
        (∃ d ∈ l, d.item.id = id) ∨ id ∈ pool.keys := by
    intro l
    induction l with
    | nil => simp
    | cons d l ih =>
      intro pool
      rw [List.foldl_cons, ih, Table.mem_keys_insert]
      simp only [List.mem_cons, exists_eq_or_imp, or_assoc, eq_comm (a := id)]
      exact or_left_comm
  rw [poolOf, general]
  simp [Table.empty, Table.keys]

/-- All roots can be taken out of the pool of all declared items. -/
theorem ready_roots (hids : (declared.map (·.item.id)).Nodup) :
    Ready (childrenOf declared) (poolOf declared) (rootIds declared) where
  closed := by
    intro p _ id hid
    obtain ⟨d, hd, -, heq⟩ := mem_childrenOf_iff.mp hid
    exact mem_keys_poolOf.mpr ⟨d, hd, heq⟩
  nodup := hids.sublist (List.filter_sublist.map _)
  mem := by
    intro id hid
    obtain ⟨d, hd, -, heq⟩ := mem_rootIds_iff.mp hid
    exact mem_keys_poolOf.mpr ⟨d, hd, heq⟩
  top := fun id hid p hp => absurd hp (notMem_childrenOf_of_root hids hid p)

/-! ## Cycles -/

/-- The first id starts directly inside the second. -/
def StartsIn (declared : List Declared) (child parent : String) : Prop :=
  child ∈ childrenOf declared parent

/-- Going up from the id, from each item to the one that it starts inside, comes to one that is
inside itself. -/
def Stranded (startsIn : String → String → Prop) (id : String) : Prop :=
  ∃ culprit, Relation.ReflTransGen startsIn id culprit ∧ Relation.TransGen startsIn culprit culprit

/-- What is below a root is inside itself nowhere. -/
theorem not_cyclic_of_below_root (hids : (declared.map (·.item.id)).Nodup) {root id : String}
    (hroot : root ∈ rootIds declared) (h : Below (childrenOf declared) root id) :
    ¬ Relation.TransGen (StartsIn declared) id id := by
  induction h with
  | refl =>
    intro hcycle
    obtain ⟨p, hp, -⟩ := Relation.TransGen.head'_iff.mp hcycle
    exact notMem_childrenOf_of_root hids hroot p hp
  | @tail mid child _ hchild ih =>
    -- a way up from `child` and back begins at its parent `mid`, so `mid` is on the cycle as well
    intro hcycle
    obtain ⟨p, hp, hback⟩ := Relation.TransGen.head'_iff.mp hcycle
    obtain rfl := (oneParent_childrenOf hids).unique hp hchild
    exact ih (Relation.TransGen.tail' hback hchild)

/-- What an item below a root starts inside of is below the root as well. -/
theorem below_of_startsIn (hids : (declared.map (·.item.id)).Nodup) {root child parent : String}
    (hroot : root ∈ rootIds declared) (h : Below (childrenOf declared) root child)
    (hin : StartsIn declared child parent) : Below (childrenOf declared) root parent := by
  rcases Relation.ReflTransGen.cases_tail h with rfl | ⟨mid, hmid, hchild⟩
  · exact absurd hin (notMem_childrenOf_of_root hids hroot parent)
  · exact (oneParent_childrenOf hids).unique hchild hin ▸ hmid

/-- The second item starts inside the first, directly or at any depth. -/
def Above (declared : List Declared) (outer inner : {d // d ∈ declared}) : Prop :=
  Relation.TransGen (StartsIn declared) inner.1.item.id outer.1.item.id

/-- Going up from item to item ends where no cycle is met, as there are finitely many and none is
met again. -/
theorem wellFounded_above (declared : List Declared) : WellFounded fun outer inner =>
    Above declared outer inner ∧ ¬ Stranded (StartsIn declared) inner.1.item.id := by
  have : Finite {d // d ∈ declared} := declared.finite_toSet
  have : IsTrans {d // d ∈ declared} fun outer inner =>
      Above declared outer inner ∧ ¬ Stranded (StartsIn declared) inner.1.item.id :=
    ⟨fun _ _ _ hab hbc => ⟨hbc.1.trans hab.1, hbc.2⟩⟩
  have : Std.Irrefl fun outer inner : {d // d ∈ declared} =>
      Above declared outer inner ∧ ¬ Stranded (StartsIn declared) inner.1.item.id :=
    ⟨fun _ hself => hself.2 ⟨_, Relation.ReflTransGen.refl, hself.1⟩⟩
  exact Finite.wellFounded_of_trans_of_irrefl _

theorem below_root_of_not_stranded (hparents : ParentsDeclared declared) (d : {d // d ∈ declared})
    (h : ¬ Stranded (StartsIn declared) d.1.item.id) :
    ∃ root ∈ rootIds declared, Below (childrenOf declared) root d.1.item.id := by
  induction d using (wellFounded_above declared).induction with
  | _ d ih =>
    obtain ⟨d, hd⟩ := d
    by_cases hroot : d.isRoot = true
    · exact ⟨d.item.id, mem_rootIds_iff.mpr ⟨d, hd, hroot, rfl⟩, Relation.ReflTransGen.refl⟩
    · obtain ⟨parent, hloc⟩ := not_forall_not.mp (mt isRoot_iff.mpr hroot)
      obtain ⟨p, hp, rfl⟩ := hparents d hd parent hloc
      have hchild : StartsIn declared d.item.id p.item.id :=
        mem_childrenOf_iff.mpr ⟨d, hd, hloc, rfl⟩
      have hparent : ¬ Stranded (StartsIn declared) p.item.id :=
        fun ⟨culprit, hup, hcycle⟩ => h ⟨culprit, hup.head hchild, hcycle⟩
      obtain ⟨root, hmem, hbelow⟩ := ih ⟨p, hp⟩ ⟨Relation.TransGen.single hchild, h⟩ hparent
      exact ⟨root, hmem, hbelow.tail hchild⟩

/-- **An item is below a root exactly when it is not stranded**, provided that what items start
inside of is declared. -/
theorem below_root_iff_not_stranded (hids : (declared.map (·.item.id)).Nodup)
    (hparents : ParentsDeclared declared) {d : Declared} (hd : d ∈ declared) :
    (∃ root ∈ rootIds declared, Below (childrenOf declared) root d.item.id) ↔
      ¬ Stranded (StartsIn declared) d.item.id := by
  constructor
  · rintro ⟨root, hroot, hbelow⟩ ⟨culprit, hup, hcycle⟩
    refine not_cyclic_of_below_root hids hroot ?_ hcycle
    clear hcycle
    induction hup with
    | refl => exact hbelow
    | tail _ hparent ih => exact below_of_startsIn hids hroot ih hparent
  · exact below_root_of_not_stranded hparents ⟨d, hd⟩

/-- Nothing is stranded exactly when nothing is inside itself. -/
theorem forall_not_stranded_iff {startsIn : String → String → Prop} :
    (∀ id, ¬ Stranded startsIn id) ↔ ∀ id, ¬ Relation.TransGen startsIn id id :=
  ⟨fun h id hcycle => h id ⟨id, Relation.ReflTransGen.refl, hcycle⟩,
    fun h _ ⟨culprit, _, hcycle⟩ => h culprit hcycle⟩

/-- What is stranded is declared. -/
theorem exists_declared_of_stranded {id : String} (h : Stranded (StartsIn declared) id) :
    ∃ d ∈ declared, d.item.id = id := by
  have hstarts : ∃ parent, StartsIn declared id parent := by
    obtain ⟨culprit, hup, hcycle⟩ := h
    rcases Relation.ReflTransGen.cases_head hup with rfl | ⟨parent, hparent, -⟩
    · obtain ⟨parent, hparent, -⟩ := Relation.TransGen.head'_iff.mp hcycle
      exact ⟨parent, hparent⟩
    · exact ⟨parent, hparent⟩
  obtain ⟨parent, hparent⟩ := hstarts
  obtain ⟨d, hd, -, hid⟩ := mem_childrenOf_iff.mp hparent
  exact ⟨d, hd, hid⟩

end Adventure
