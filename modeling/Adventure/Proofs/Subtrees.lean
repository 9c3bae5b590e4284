import Adventure.Proofs.Loading

/-!
# Every call takes out one tree

Loading calls `assemble` for each root, and `assemble` calls itself for what starts inside an item
(`assemble_eq`). By then other trees are gone from the pool: those of the roots before, and those of
what starts before it inside the same item. None of them has anything of the tree that is next, as
an item starts in one place only. So each call finds its id in the pool (`Called.ready`) and takes
out what is below it (`takesTree_of_ready`), and nothing else is ever taken out.

Results:

* `assembly_is_exact`: what each call does that is made in loading, and what is left in the pool
  when all roots are in place.
-/

namespace Adventure

variable {children : String → List String}

/-! ## The tree of a call -/

/-- **The call takes the tree below the id out of the pool.** -/
structure TakesTree (children : String → List String) (pool : Pool) (id : String) (item : Item)
    (rest : Pool) : Prop where
  found : id ∈ pool.keys
  root : item.id = id
  /-- The nodes are what is below the id. -/
  mem_iff : ∀ x, x ∈ item.tree.map (·.id) ↔ Below children id x
  once : (item.tree.map (·.id)).Nodup
  in_order : ∀ node ∈ item.tree, node.contents.map (·.id) = children node.id
  /-- Each node is an item of the pool with its contents. -/
  kept : ∀ node ∈ item.tree, pool.get? node.id = some node.bare
  /-- The other items are left. -/
  left_iff : ∀ x other, rest.get? x = some other ↔
    pool.get? x = some other ∧ ¬ Below children id x

/-- The rest of the pool is what is not below the ids. -/
theorem TakenOut.get?_iff {pool rest : Pool} {ids : List String}
    (hout : TakenOut children pool ids rest)
    (hsub : ∀ id item, rest.get? id = some item → pool.get? id = some item) {x : String}
    {item : Item} : rest.get? x = some item ↔
      pool.get? x = some item ∧ ¬ ∃ id ∈ ids, Below children id x := by
  constructor
  · intro hget
    exact ⟨hsub x item hget, ((hout x).mp (Table.mem_keys_iff.mpr ⟨item, hget⟩)).2⟩
  · rintro ⟨hget, hnot⟩
    obtain ⟨left, hleft⟩ := Table.mem_keys_iff.mp
      ((hout x).mpr ⟨Table.mem_keys_iff.mpr ⟨item, hget⟩, hnot⟩)
    rw [hleft, ← hget, hsub x left hleft]

theorem Fresh.map_id_values {pool : Pool} (hfresh : Fresh pool) :
    pool.values.map (·.id) = pool.keys := by
  rw [Table.values, Table.keys, List.map_map]
  refine List.map_congr_left fun entry hentry => ?_
  exact (hfresh entry.1 entry.2 (Table.get?_eq_some_iff.mpr hentry)).1

theorem Fresh.get?_of_mem_values {pool : Pool} (hfresh : Fresh pool) {item : Item}
    (h : item ∈ pool.values) : pool.get? item.id = some item := by
  obtain ⟨⟨key, value⟩, hentry, rfl⟩ := List.mem_map.mp h
  have hget := Table.get?_eq_some_iff.mpr hentry
  exact (hfresh key value hget).1 ▸ hget

/-- **A call on a ready id takes out its tree.** -/
theorem takesTree_of_ready (hone : OneParent children) {id : String} {pool : Pool}
    (hfresh : Fresh pool) (hready : Ready children pool [id]) : ∃ item rest,
      assemble children id pool = .ok (item, rest) ∧ TakesTree children pool id item rest := by
  obtain ⟨item, rest, htake, hout⟩ := assemble_ok hone hready
  obtain ⟨hbuilt, hroot⟩ := assembleWithin_assembled hfresh htake
  have htree : Item.forest [item] = item.tree := by
    rw [Item.forest_cons, Item.forest_nil, List.append_nil]
  have hleft : ∀ x other, rest.get? x = some other ↔
      pool.get? x = some other ∧ ¬ Below children id x := fun x other =>
    (hout.get?_iff hbuilt.sub).trans (by simp)
  -- the ids of the tree and the keys that are left are together the keys of the pool
  have hkeys : (item.tree.map (·.id) ++ rest.keys).Perm pool.keys := by
    have hids := hbuilt.perm.map (·.id)
    rwa [List.map_append, List.map_map, htree, hfresh.map_id_values,
      (hfresh.of_sub hbuilt.sub).map_id_values] at hids
  obtain ⟨honce, -, hapart⟩ := List.nodup_append'.mp (hkeys.nodup_iff.mpr pool.nodup_keys)
  refine ⟨item, rest, htake,
    { found := hready.mem id List.mem_cons_self
      root := hroot
      mem_iff := fun x => ⟨fun hx => ?_, fun hbelow => ?_⟩
      once := honce
      in_order := fun node hnode => hbuilt.shape node (htree ▸ hnode)
      kept := fun node hnode => hfresh.get?_of_mem_values (hbuilt.perm.mem_iff.mp
        (List.mem_append_left _ (htree ▸ List.mem_map_of_mem hnode)))
      left_iff := hleft }⟩
  · by_contra hnot
    obtain ⟨other, hget⟩ := Table.mem_keys_iff.mp (hkeys.mem_iff.mp (List.mem_append_left _ hx))
    exact hapart hx (Table.mem_keys_iff.mpr ⟨other, (hleft x other).mpr ⟨hget, hnot⟩⟩)
  · have hpool := hready.mem_of_below List.mem_cons_self hbelow
    refine (List.mem_append.mp (hkeys.mem_iff.mpr hpool)).resolve_right fun hrest => ?_
    obtain ⟨other, hget⟩ := Table.mem_keys_iff.mp hrest
    exact ((hleft x other).mp hget).2 hbelow

/-! ## The calls that are made -/

/-- Assembling the item calls itself for the child with this pool: what starts before the child
inside the item was taken out of the pool, and the item before that. -/
def Calls (children : String → List String) (id : String) (pool : Pool) (child : String)
    (mid : Pool) : Prop :=
  id ∈ pool.keys ∧ ∃ front back items, children id = front ++ child :: back ∧
    takeEach (assemble children) front (pool.erase id) = .ok (items, mid)

/-- In loading, a call is made for the id with this pool. -/
inductive Called (map : RoomMap) (declared : List Declared) : String → Pool → Prop
  /-- A root is assembled when what is declared before it was put in place. -/
  | root {front back : List Declared} {d : Declared} {placement : Placement}
      (hcut : declared = front ++ d :: back) (hroot : d.isRoot = true)
      (hplaced : front.foldlM (place (childrenOf declared)) (.start map declared) = .ok placement) :
      Called map declared d.item.id placement.pool
  /-- What starts inside an item is assembled in the call for that item. -/
  | inside {id child : String} {pool mid : Pool} (hcalled : Called map declared id pool)
      (hcalls : Calls (childrenOf declared) id pool child mid) : Called map declared child mid

/-- **The pool shrinks from call to call**, so that the calls come to an end. -/
theorem Calls.size_lt {id child : String} {pool mid : Pool} (h : Calls children id pool child mid) :
    mid.size < pool.size := by
  obtain ⟨hid, front, back, items, -, htaken⟩ := h
  have herase := Table.size_erase hid
  have hle := takeEach_size_le (fun h => assembleWithin_size_le h) htaken
  omega

/-- What a ready call calls is ready. -/
theorem Calls.ready {id child : String} {pool mid : Pool} (h : Calls children id pool child mid)
    (hone : OneParent children) (hfresh : Fresh pool) (hready : Ready children pool [id]) :
    Ready children mid [child] ∧ Fresh mid := by
  obtain ⟨-, front, back, items, hcut, htaken⟩ := h
  have hinside := hready.inside hone
  rw [hcut] at hinside
  obtain ⟨others, rest, hothers, hout⟩ := takeEach_ok hone (fun _ hready => assemble_ok hone hready)
    (Nat.le_refl _) (hinside.sublist (List.sublist_append_left front (child :: back)))
  obtain ⟨rfl, rfl⟩ := Prod.mk.inj (Except.ok.inj (hothers.symm.trans htaken))
  obtain ⟨hbuilt, -⟩ :=
    takeEach_assembled (fun hf he => assembleWithin_assembled hf he) (fresh_erase hfresh id) htaken
  exact ⟨(hinside.of_append hone hout).head, (fresh_erase hfresh id).of_sub hbuilt.sub⟩

theorem rootIds_append (l r : List Declared) : rootIds (l ++ r) = rootIds l ++ rootIds r := by
  rw [rootIds, List.filter_append, List.map_append, rootIds, rootIds]

section

variable {draft : Draft} {map : RoomMap} {declared : List Declared}

/-- **Every call finds its id in the pool, with all that is below it.** -/
theorem Called.ready {id : String} {pool : Pool} (h : Called map declared id pool)
    (hids : (declared.map (·.item.id)).Nodup) (hfresh : Fresh (poolOf declared)) :
    Ready (childrenOf declared) pool [id] ∧ Fresh pool := by
  have hone := oneParent_childrenOf hids
  induction h with
  | inside hcalled hcalls ih => exact hcalls.ready hone ih.2 ih.1
  | @root front back d placement hcut hroot hplaced =>
    have hroots := ready_roots hids
    have hsplit : rootIds declared = rootIds front ++ d.item.id :: rootIds back := by
      rw [← rootIds_cons_of_root hroot, ← rootIds_append, ← hcut]
    rw [hsplit] at hroots
    obtain ⟨placed, hplacedAll⟩ := foldlM_place_placed (p := .start map declared) hfresh hplaced
    have hcases := foldlM_place_cases (p := .start map declared) hone
      (hroots.sublist (List.sublist_append_left _ _))
    rcases hcases with ⟨other, hother, hout⟩ | ⟨e, -, key, -, -, hfailed⟩
    · obtain rfl := Except.ok.inj (hother.symm.trans hplaced)
      exact ⟨(hroots.of_append hone hout).head, hfresh.of_sub hplacedAll.assembled.sub⟩
    · exact nomatch hplaced.symm.trans hfailed

end

/-! ## What is left at the end -/

/-- Going up from the item, from each to the one that it starts inside, comes to one that starts in
the location. -/
def Draft.LeadsTo (draft : Draft) (id : String) (location : StartLocation) : Prop :=
  ∃ entry ∈ draft.items, Relation.ReflTransGen draft.StartsInside id entry.id ∧
    entry.StartsAt location

/-- The item is in no room and not in the inventory, at whatever depth. -/
def Draft.Nowhere (draft : Draft) (id : String) : Prop :=
  ¬ draft.LeadsTo id .inventory ∧ ∀ key, ¬ draft.LeadsTo id (.room key)

section

variable {draft : Draft} {declared : List Declared}

theorem below_iff_reflTransGen (h : List.Forall₂ Declares draft.items declared) {root id : String} :
    Below (childrenOf declared) root id ↔ Relation.ReflTransGen draft.StartsInside id root := by
  have hsame : draft.StartsInside = StartsIn declared := by
    funext child parent
    exact propext (startsInside_iff h)
  rw [hsame]
  exact Relation.reflTransGen_swap

theorem exists_root_of_leadsTo (h : List.Forall₂ Declares draft.items declared) {id : String}
    {location : StartLocation} (hloc : ∀ parent, location ≠ .item parent)
    (hleads : draft.LeadsTo id location) :
    ∃ root ∈ rootIds declared, Below (childrenOf declared) root id := by
  obtain ⟨entry, hentry, hup, hstarts⟩ := hleads
  obtain ⟨d, hd, hdloc, hitem⟩ := exists_declared_of_mem h hentry
  obtain rfl := hdloc.unique hstarts
  have hid : d.item.id = entry.id := congrArg Item.id hitem
  exact ⟨entry.id, mem_rootIds_iff.mpr ⟨d, hd, isRoot_iff.mpr hloc, hid⟩,
    (below_iff_reflTransGen h).mpr hup⟩

/-- An item is nowhere exactly when it is below no root. -/
theorem nowhere_iff (h : List.Forall₂ Declares draft.items declared) {id : String} :
    draft.Nowhere id ↔ ¬ ∃ root ∈ rootIds declared, Below (childrenOf declared) root id := by
  constructor
  · rintro ⟨hcarried, hrooms⟩ ⟨root, hroot, hbelow⟩
    obtain ⟨d, hd, hisRoot, rfl⟩ := mem_rootIds_iff.mp hroot
    obtain ⟨entry, hentry, hstarts, hitem⟩ := exists_entry_of_mem h hd
    have hup : Relation.ReflTransGen draft.StartsInside id entry.id := by
      rw [hitem] at hbelow
      exact (below_iff_reflTransGen h).mp hbelow
    cases hloc : d.location with
    | item parent => exact isRoot_iff.mp hisRoot parent hloc
    | room key => exact hrooms key ⟨entry, hentry, hup, hloc ▸ hstarts⟩
    | inventory => exact hcarried ⟨entry, hentry, hup, hloc ▸ hstarts⟩
  · intro hnot
    exact ⟨fun hcarried => hnot (exists_root_of_leadsTo h (by simp) hcarried),
      fun key hroom => hnot (exists_root_of_leadsTo h (by simp) hroom)⟩

/-- A declared item stands in the pool under its id. -/
theorem get?_poolOf_iff (h : List.Forall₂ Declares draft.items declared)
    (hids : (declared.map (·.item.id)).Nodup) {id : String} {item : Item} :
    (poolOf declared).get? id = some item ↔
      ∃ entry ∈ draft.items, entry.id = id ∧ entry.item = item := by
  have hfresh := fresh_poolOf h
  have hmem : item ∈ (poolOf declared).values ↔ ∃ entry ∈ draft.items, entry.item = item := by
    rw [(perm_poolOf hids).mem_iff, map_item_of_declares h, List.mem_map]
  constructor
  · intro hget
    obtain ⟨entry, hentry, hitem⟩ := hmem.mp
      (List.mem_map.mpr ⟨(id, item), Table.get?_eq_some_iff.mp hget, rfl⟩)
    exact ⟨entry, hentry, (congrArg Item.id hitem).trans (hfresh id item hget).1, hitem⟩
  · rintro ⟨entry, hentry, rfl, rfl⟩
    exact hfresh.get?_of_mem_values (hmem.mpr ⟨entry, hentry, rfl⟩)

end

/-- **`assemble` is exact on the pool.** Each call that is made in loading finds its item, and takes
it out with all that is below it. When all roots are in place, the items that are nowhere are left.
Only a room that does not exist keeps a root from its place. -/
theorem assembly_is_exact {draft : Draft} {declared : List Declared}
    (h : declareItems [] draft.items = .ok declared) (map : RoomMap) :
    (∀ {id : String} {pool : Pool}, Called map declared id pool → ∃ item rest,
      assemble (childrenOf declared) id pool = .ok (item, rest) ∧
        TakesTree (childrenOf declared) pool id item rest) ∧
    (∀ {id child : String} {pool mid : Pool}, Calls (childrenOf declared) id pool child mid →
      mid.size < pool.size) ∧
    ((∃ placement,
      declared.foldlM (place (childrenOf declared)) (.start map declared) = .ok placement ∧
        ∀ id item, placement.pool.get? id = some item ↔
          ∃ entry ∈ draft.items, entry.id = id ∧ entry.item = item ∧ draft.Nowhere id) ∨
    ∃ d ∈ declared, ∃ key, d.location = .room key ∧ key ∉ map.rooms.keys ∧
      declared.foldlM (place (childrenOf declared)) (.start map declared) =
        .error (.badLocation d.item.id s!"room:{key}")) := by
  obtain ⟨hdistinct, -, hdecl⟩ := declareItems_eq_ok_iff.mp h
  have hids : (declared.map (·.item.id)).Nodup := map_id_of_declares hdecl ▸ hdistinct
  have hone := oneParent_childrenOf hids
  have hfresh := fresh_poolOf hdecl
  refine ⟨fun hcalled => ?_, fun hcalls => hcalls.size_lt, ?_⟩
  · obtain ⟨hready, hpool⟩ := hcalled.ready hids hfresh
    exact takesTree_of_ready hone hpool hready
  · rcases foldlM_place_cases (p := .start map declared) hone (ready_roots hids) with
      ⟨placement, hplaced, hout⟩ | hbad
    · refine Or.inl ⟨placement, hplaced, fun id item => ?_⟩
      obtain ⟨placed, hall⟩ := foldlM_place_placed (p := .start map declared) hfresh hplaced
      have hleft : placement.pool.get? id = some item ↔
          (poolOf declared).get? id = some item ∧ draft.Nowhere id := by
        rw [nowhere_iff hdecl]
        exact hout.get?_iff hall.assembled.sub
      rw [hleft, get?_poolOf_iff hdecl hids]
      simp only [← and_assoc, exists_and_right]
    · exact Or.inr hbad

/-- A purse that is carried, with a coin and a ring, and a knot and a rope that are in each
other. -/
def tangleDraft : Draft where
  id := "tangle"
  name := ""
  startRoom := "attic"
  desc := ""
  rooms := []
  items :=
    [⟨"purse", "purse", "inventory", "", [], false⟩, ⟨"coin", "coin", "item:purse", "", [], false⟩,
      ⟨"knot", "knot", "item:rope", "", [], false⟩, ⟨"rope", "rope", "item:knot", "", [], false⟩,
      ⟨"ring", "ring", "item:purse", "", [], false⟩]
  rules := []

/-- The items of the tangle, each where it starts. -/
def tangled : List Declared :=
  tangleDraft.items.zipWith (fun entry location => ⟨entry.item, location⟩)
    [.inventory, .item "purse", .item "rope", .item "knot", .item "purse"]

/-- The purse is taken out of the tangle with what is inside. The knot is left, and the ring is
not. -/
theorem purse_out_of_tangle : declareItems [] tangleDraft.items = .ok tangled ∧
    (∃ item rest, assemble (childrenOf tangled) "purse" (poolOf tangled) = .ok (item, rest) ∧
      TakesTree (childrenOf tangled) (poolOf tangled) "purse" item rest) ∧
    tangleDraft.Nowhere "knot" ∧ ¬ tangleDraft.Nowhere "ring" := by
  have hdeclared : declareItems [] tangleDraft.items = .ok tangled := rfl
  have hcalled : Called .empty tangled "purse" (poolOf tangled) :=
    .root (d := ⟨_, .inventory⟩) (show tangled = [] ++ _ :: _ from rfl) rfl rfl
  have hkeys : (tangled.foldlM (place (childrenOf tangled)) (.start .empty tangled)).toOption.map
      (·.pool.keys) = some ["knot", "rope"] := rfl
  obtain ⟨htakes, -, ⟨placement, hplaced, hleft⟩ | ⟨d, -, key, -, -, hfailed⟩⟩ :=
    assembly_is_exact hdeclared .empty
  · rw [hplaced] at hkeys
    have hkeys : placement.pool.keys = ["knot", "rope"] := Option.some.inj hkeys
    have hknot : "knot" ∈ placement.pool.keys := by
      rw [hkeys]
      decide
    obtain ⟨item, hknot⟩ := Table.mem_keys_iff.mp hknot
    obtain ⟨-, -, -, -, hnowhere⟩ := (hleft "knot" item).mp hknot
    refine ⟨hdeclared, htakes hcalled, hnowhere, fun hring => ?_⟩
    have hentry : ⟨"ring", "ring", "item:purse", "", [], false⟩ ∈ tangleDraft.items := by decide
    have hmem : "ring" ∈ placement.pool.keys :=
      Table.mem_keys_iff.mpr ⟨_, (hleft "ring" _).mpr ⟨_, hentry, rfl, rfl, hring⟩⟩
    rw [hkeys] at hmem
    exact absurd hmem (by decide)
  · rw [hfailed] at hkeys
    exact nomatch hkeys

end Adventure
