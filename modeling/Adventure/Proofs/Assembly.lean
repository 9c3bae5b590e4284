import Adventure.Proofs.Checks
import Adventure.Proofs.Entries
import Adventure.Proofs.Forest
import Adventure.World.Load
import Mathlib.Data.List.Nodup
import Mathlib.Logic.Relation

/-!
# Assembling takes exactly what belongs together

`assemble` takes an item out of the pool with all that starts inside it. Three questions about it
are answered apart.

* What does it build when it succeeds? `Assembled`: the items built and what is left of the pool are
  the pool again, with nothing lost or doubled, and each item holds its children in order
  (`assembleWithin_assembled`).
* When does it succeed? `Ready`: the pool holds with each id the ids of its children, and the id to
  take starts inside nothing that is still in the pool. Then the call succeeds and takes out the ids
  `Below` it, no more and no fewer (`assembleWithin_ok`). That no item starts in two places is all
  it takes; whether the other items hang on a cycle plays no part.
* Is it the recursion it stands for? The depth to which a call may go is never what ends it, as
  every step down leaves the pool smaller (`assemble_eq`).
-/

namespace Adventure

theorem require_eq_ok_iff {condition : Bool} {error : WorldError} {u : Unit} :
    require condition error = .ok u ↔ condition = true := by
  cases condition <;> simp [require]

variable {children : String → List String}

/-! ## What is built -/

/-- The items of the pool stand under their ids and hold nothing yet. -/
def Fresh (pool : Pool) : Prop :=
  ∀ id item, pool.get? id = some item → item.id = id ∧ item.contents = []

/-- The items were built out of the pool, and this is the rest of it. -/
structure Assembled (children : String → List String) (pool : Pool) (items : List Item)
    (rest : Pool) : Prop where
  sub : ∀ id item, rest.get? id = some item → pool.get? id = some item
  perm : ((Item.forest items).map Item.bare ++ rest.values).Perm pool.values
  shape : ∀ node ∈ Item.forest items, node.contents.map (·.id) = children node.id

theorem Fresh.of_sub {pool rest : Pool} (hfresh : Fresh pool)
    (hsub : ∀ id item, rest.get? id = some item → pool.get? id = some item) : Fresh rest :=
  fun id item h => hfresh id item (hsub id item h)

theorem fresh_erase {pool : Pool} (hfresh : Fresh pool) (id : String) : Fresh (pool.erase id) := by
  refine hfresh.of_sub fun q item h => ?_
  rw [Table.get?_erase] at h
  split at h
  · exact absurd h (by simp)
  · exact h

theorem bare_eq_self {item : Item} (h : item.contents = []) : item.bare = item := by
  obtain ⟨id, name, desc, aliases, locked, contents⟩ := item
  subst h
  rfl

namespace Assembled

theorem nil (pool : Pool) : Assembled children pool [] pool where
  sub := fun _ _ h => h
  perm := List.Perm.refl _
  shape := fun _ h => absurd h List.not_mem_nil

theorem append {pool mid rest : Pool} {xs ys : List Item} (hx : Assembled children pool xs mid)
    (hy : Assembled children mid ys rest) : Assembled children pool (xs ++ ys) rest where
  sub := fun id item h => hx.sub id item (hy.sub id item h)
  perm := by
    rw [Item.forest_append, List.map_append, List.append_assoc]
    exact (hy.perm.append_left _).trans hx.perm
  shape := by
    intro node hnode
    rw [Item.forest_append] at hnode
    rcases List.mem_append.mp hnode with h | h
    · exact hx.shape node h
    · exact hy.shape node h

/-- An item of the pool with its children, built out of what is left without it. -/
theorem node {pool rest : Pool} {id : String} {item : Item} {contents : List Item}
    (hfresh : Fresh pool) (hget : pool.get? id = some item)
    (hcontents : Assembled children (pool.erase id) contents rest)
    (hids : contents.map (·.id) = children id) :
    Assembled children pool [item.withContents contents] rest := by
  obtain ⟨hid, hempty⟩ := hfresh id item hget
  have hin : (item.withContents contents).contents = contents := by
    rw [Item.withContents, hempty, List.nil_append]
  have hforest : Item.forest [item.withContents contents] =
      item.withContents contents :: Item.forest contents := by
    rw [Item.forest_cons, Item.tree_eq, hin, Item.forest_nil, List.append_nil]
  refine ⟨fun q other h => ?_, ?_, fun node hnode => ?_⟩
  · have h' := hcontents.sub q other h
    rw [Table.get?_erase] at h'
    split at h'
    · exact absurd h' (by simp)
    · exact h'
  · rw [hforest, List.map_cons, Item.bare_withContents, bare_eq_self hempty, List.cons_append]
    exact (hcontents.perm.cons item).trans (Table.perm_values_erase hget).symm
  · rw [hforest] at hnode
    rcases List.mem_cons.mp hnode with rfl | hnode
    · rw [hin, hids]
      exact congrArg children hid.symm
    · exact hcontents.shape node hnode

end Assembled

theorem takeEach_assembled {takeOne : String → Pool → Except WorldError (Item × Pool)}
    (hone : ∀ {id pool item rest}, Fresh pool → takeOne id pool = .ok (item, rest) →
      Assembled children pool [item] rest ∧ item.id = id) :
    ∀ {ids : List String} {pool : Pool} {items : List Item} {rest : Pool}, Fresh pool →
      takeEach takeOne ids pool = .ok (items, rest) →
        Assembled children pool items rest ∧ items.map (·.id) = ids
  | [], pool, items, rest, _, h => by
    cases h
    exact ⟨.nil pool, rfl⟩
  | id :: ids, pool, items, rest, hfresh, h => by
    obtain ⟨⟨item, mid⟩, hitem, h⟩ := bind_eq_ok_iff.mp h
    obtain ⟨⟨others, last⟩, hothers, h⟩ := bind_eq_ok_iff.mp h
    cases h
    obtain ⟨hbuilt, hid⟩ := hone hfresh hitem
    obtain ⟨hrest, hids⟩ := takeEach_assembled hone (hfresh.of_sub hbuilt.sub) hothers
    exact ⟨hbuilt.append hrest, by rw [List.map_cons, hid, hids]⟩

/-- **What a successful call builds**, at any depth. -/
theorem assembleWithin_assembled : ∀ {depth : Nat} {id : String} {pool : Pool} {item : Item}
    {rest : Pool}, Fresh pool → assembleWithin children depth id pool = .ok (item, rest) →
      Assembled children pool [item] rest ∧ item.id = id
  | 0, _, _, _, _, _, h => absurd h (by simp [assembleWithin])
  | depth + 1, id, pool, item, rest, hfresh, h => by
    unfold assembleWithin at h
    cases hget : pool.get? id with
    | none =>
      rw [hget] at h
      exact absurd h (by simp)
    | some base =>
      rw [hget] at h
      obtain ⟨⟨contents, last⟩, hcontents, h⟩ := bind_eq_ok_iff.mp h
      cases h
      obtain ⟨hbuilt, hids⟩ :=
        takeEach_assembled (fun hf he => assembleWithin_assembled hf he) (fresh_erase hfresh id)
          hcontents
      exact ⟨hbuilt.node hfresh hget hids, (hfresh id base hget).1⟩

/-! ## When it succeeds -/

/-- The second id is the first one or starts inside it, at any depth. -/
def Below (children : String → List String) : String → String → Prop :=
  Relation.ReflTransGen fun parent child => child ∈ children parent

/-- No id starts in two places, nor twice in one. -/
structure OneParent (children : String → List String) : Prop where
  unique : ∀ {p q id}, id ∈ children p → id ∈ children q → p = q
  nodup : ∀ p, (children p).Nodup

/-- The ids can be taken out of the pool one after another. -/
structure Ready (children : String → List String) (pool : Pool) (ids : List String) : Prop where
  /-- With an item the pool holds those that start inside it. -/
  closed : ∀ p ∈ pool.keys, ∀ id ∈ children p, id ∈ pool.keys
  nodup : ids.Nodup
  mem : ∀ id ∈ ids, id ∈ pool.keys
  /-- What the ids start inside of is out of the pool already. -/
  top : ∀ id ∈ ids, ∀ p, id ∈ children p → p ∉ pool.keys

/-- The rest is the pool without what is below the ids. -/
def TakenOut (children : String → List String) (pool : Pool) (ids : List String)
    (rest : Pool) : Prop :=
  ∀ x, x ∈ rest.keys ↔ x ∈ pool.keys ∧ ¬ ∃ id ∈ ids, Below children id x

theorem below_iff {id x : String} :
    Below children id x ↔ x = id ∨ ∃ c ∈ children id, Below children c x := by
  rw [Below, Relation.ReflTransGen.cases_head_iff]
  exact or_congr eq_comm Iff.rfl

namespace Ready

variable {pool rest : Pool} {id : String} {ids : List String}

theorem sublist {sub : List String} (h : Ready children pool ids) (hsub : sub.Sublist ids) :
    Ready children pool sub where
  closed := h.closed
  nodup := h.nodup.sublist hsub
  mem := fun x hx => h.mem x (hsub.subset hx)
  top := fun x hx => h.top x (hsub.subset hx)

theorem head (h : Ready children pool (id :: ids)) : Ready children pool [id] :=
  h.sublist (List.singleton_sublist.mpr List.mem_cons_self)

/-- What is below an id of the pool is in the pool. -/
theorem mem_of_below (h : Ready children pool ids) (hid : id ∈ ids) {x : String}
    (hx : Below children id x) : x ∈ pool.keys := by
  induction hx with
  | refl => exact h.mem id hid
  | tail _ hc ih => exact h.closed _ ih _ hc

/-- Taking the first ids out leaves the others ready. -/
theorem of_append (hone : OneParent children) {others : List String}
    (h : Ready children pool (ids ++ others)) (hout : TakenOut children pool ids rest) :
    Ready children rest others := by
  refine ⟨fun p hp x hx => ?_, h.nodup.sublist (List.sublist_append_right _ _), fun x hx => ?_,
    fun x hx p hxp hp => ?_⟩
  · obtain ⟨hp, hpb⟩ := (hout p).mp hp
    refine (hout x).mpr ⟨h.closed p hp x hx, fun ⟨id, hid, hb⟩ => ?_⟩
    -- whatever leads from `id` to `x` passes through `p`, the only parent of `x`
    rcases Relation.ReflTransGen.cases_tail hb with rfl | ⟨q, hq, hxq⟩
    · exact h.top x (List.mem_append_left _ hid) p hx hp
    · exact hpb ⟨id, hid, hone.unique hxq hx ▸ hq⟩
  · have hmem : x ∈ ids ++ others := List.mem_append_right _ hx
    refine (hout x).mpr ⟨h.mem x hmem, fun ⟨id, hid, hb⟩ => ?_⟩
    rcases Relation.ReflTransGen.cases_tail hb with rfl | ⟨q, hq, hxq⟩
    · exact (List.nodup_append'.mp h.nodup).2.2 hid hx
    · exact h.top x hmem q hxq (h.mem_of_below (List.mem_append_left _ hid) hq)
  · exact h.top x (List.mem_append_right _ hx) p hxp ((hout p).mp hp).1

theorem tail (hone : OneParent children) (h : Ready children pool (id :: ids))
    (hout : TakenOut children pool [id] rest) : Ready children rest ids :=
  of_append hone (show Ready children pool ([id] ++ ids) from h) hout

/-- Once an id is out of the pool, those that start inside it are ready. -/
theorem inside (hone : OneParent children) (h : Ready children pool [id]) :
    Ready children (pool.erase id) (children id) := by
  have hid : id ∈ pool.keys := h.mem id List.mem_cons_self
  have hne : ∀ {p x}, p ∈ pool.keys → x ∈ children p → x ≠ id := fun hp hx he =>
    h.top id List.mem_cons_self _ (he ▸ hx) hp
  refine ⟨fun p hp x hx => ?_, hone.nodup id, fun x hx => ?_, fun x hx p hxp hp => ?_⟩
  · have hp := (Table.mem_keys_erase.mp hp).1
    exact Table.mem_keys_erase.mpr ⟨h.closed p hp x hx, hne hp hx⟩
  · exact Table.mem_keys_erase.mpr ⟨h.closed id hid x hx, hne hid hx⟩
  · exact (Table.mem_keys_erase.mp hp).2 (hone.unique hxp hx)

end Ready

theorem TakenOut.size_le {pool rest : Pool} {ids : List String}
    (h : TakenOut children pool ids rest) : rest.size ≤ pool.size :=
  Table.size_le_of_keys_subset fun x hx => ((h x).mp hx).1

theorem TakenOut.cons {pool mid rest : Pool} {id : String} {ids : List String}
    (h : TakenOut children pool [id] mid) (hs : TakenOut children mid ids rest) :
    TakenOut children pool (id :: ids) rest := by
  intro x
  rw [hs x, h x]
  simp [and_assoc]

theorem takeEach_ok (hone : OneParent children)
    {takeOne : String → Pool → Except WorldError (Item × Pool)} {depth : Nat}
    (htake : ∀ {id pool}, pool.size ≤ depth → Ready children pool [id] →
      ∃ item rest, takeOne id pool = .ok (item, rest) ∧ TakenOut children pool [id] rest) :
    ∀ {ids : List String} {pool : Pool}, pool.size ≤ depth → Ready children pool ids →
      ∃ items rest, takeEach takeOne ids pool = .ok (items, rest) ∧
        TakenOut children pool ids rest
  | [], pool, _, _ => ⟨[], pool, rfl, fun x => by simp⟩
  | id :: ids, pool, hsize, hready => by
    obtain ⟨item, mid, hitem, hmid⟩ := htake hsize hready.head
    obtain ⟨items, rest, hitems, hrest⟩ :=
      takeEach_ok hone htake (Nat.le_trans hmid.size_le hsize) (hready.tail hone hmid)
    exact ⟨item :: items, rest, by simp [takeEach, hitem, hitems, bind, Except.bind, pure,
      Except.pure], hmid.cons hrest⟩

/-- **A call on a ready id succeeds and takes out what is below it**, if the depth reaches as far
as the pool is large. -/
theorem assembleWithin_ok (hone : OneParent children) :
    ∀ {depth : Nat} {id : String} {pool : Pool}, pool.size ≤ depth → Ready children pool [id] →
      ∃ item rest, assembleWithin children depth id pool = .ok (item, rest) ∧
        TakenOut children pool [id] rest
  | 0, id, pool, hsize, hready => by
    have hpos := Table.size_erase (hready.mem id List.mem_cons_self)
    omega
  | depth + 1, id, pool, hsize, hready => by
    have hid : id ∈ pool.keys := hready.mem id List.mem_cons_self
    have hsmall : (pool.erase id).size ≤ depth := by
      have := Table.size_erase hid
      omega
    obtain ⟨base, hbase⟩ := Table.mem_keys_iff.mp hid
    obtain ⟨contents, rest, hcontents, hout⟩ :=
      takeEach_ok hone (fun hs hr => assembleWithin_ok hone hs hr) hsmall (hready.inside hone)
    refine ⟨base.withContents contents, rest, ?_, fun x => ?_⟩
    · simp [assembleWithin, hbase, hcontents, bind, Except.bind, pure, Except.pure]
    · rw [hout x, Table.mem_keys_erase]
      simp only [List.mem_singleton, exists_eq_left, @below_iff children id, not_or, and_assoc]

theorem assemble_ok (hone : OneParent children) {id : String} {pool : Pool}
    (hready : Ready children pool [id]) :
    ∃ item rest, assemble children id pool = .ok (item, rest) ∧
      TakenOut children pool [id] rest :=
  assembleWithin_ok hone (Nat.le_refl _) hready

/-! ## The depth plays no part -/

section

variable {f g : String → Pool → Except WorldError (Item × Pool)}

theorem takeEach_size_le
    (hone : ∀ {id pool item rest}, f id pool = .ok (item, rest) → rest.size ≤ pool.size) :
    ∀ {ids : List String} {pool : Pool} {items : List Item} {rest : Pool},
      takeEach f ids pool = .ok (items, rest) → rest.size ≤ pool.size
  | [], _, _, _, h => by
    cases h
    exact Nat.le_refl _
  | id :: ids, pool, items, rest, h => by
    obtain ⟨⟨item, mid⟩, hitem, h⟩ := bind_eq_ok_iff.mp h
    obtain ⟨⟨others, last⟩, hothers, h⟩ := bind_eq_ok_iff.mp h
    cases h
    exact Nat.le_trans (takeEach_size_le hone hothers) (hone hitem)

theorem takeEach_congr {bound : Nat}
    (hsame : ∀ {id pool}, pool.size ≤ bound → f id pool = g id pool)
    (hsize : ∀ {id pool item rest}, g id pool = .ok (item, rest) → rest.size ≤ pool.size) :
    ∀ {ids : List String} {pool : Pool}, pool.size ≤ bound →
      takeEach f ids pool = takeEach g ids pool
  | [], _, _ => rfl
  | id :: ids, pool, hbound => by
    rw [takeEach, takeEach, hsame hbound]
    cases hone : g id pool with
    | error error => rfl
    | ok taken =>
      have hrest : taken.2.size ≤ bound := Nat.le_trans (hsize hone) hbound
      simp only [bind, Except.bind, takeEach_congr hsame hsize hrest]

end

theorem assembleWithin_size_le : ∀ {depth : Nat} {id : String} {pool : Pool} {item : Item}
    {rest : Pool}, assembleWithin children depth id pool = .ok (item, rest) → rest.size ≤ pool.size
  | 0, _, _, _, _, h => nomatch h
  | depth + 1, id, pool, item, rest, h => by
    unfold assembleWithin at h
    cases hget : pool.get? id with
    | none =>
      rw [hget] at h
      exact nomatch h
    | some base =>
      rw [hget] at h
      obtain ⟨⟨contents, last⟩, hcontents, h⟩ := bind_eq_ok_iff.mp h
      cases h
      exact Nat.le_trans (takeEach_size_le (fun h => assembleWithin_size_le h) hcontents)
        (pool.size_erase_le id)

/-- Depths that reach as far as the pool is large give the same. -/
theorem assembleWithin_eq_of_le : ∀ {depth depth' : Nat} {id : String} {pool : Pool},
    pool.size ≤ depth → pool.size ≤ depth' →
      assembleWithin children depth id pool = assembleWithin children depth' id pool
  | 0, 0, _, _, _, _ => rfl
  | 0, depth' + 1, id, pool, h, _ => by
    rw [assembleWithin, assembleWithin, Table.get?_of_size_eq_zero (Nat.le_zero.mp h)]
  | depth + 1, 0, id, pool, _, h => by
    rw [assembleWithin, assembleWithin, Table.get?_of_size_eq_zero (Nat.le_zero.mp h)]
  | depth + 1, depth' + 1, id, pool, h, h' => by
    rw [assembleWithin, assembleWithin]
    cases hget : pool.get? id with
    | none => rfl
    | some item =>
      have herase := Table.size_erase (Table.mem_keys_iff.mpr ⟨item, hget⟩)
      have hsame : takeEach (assembleWithin children depth) (children id) (pool.erase id) =
          takeEach (assembleWithin children depth') (children id) (pool.erase id) :=
        takeEach_congr
          (fun hsize => assembleWithin_eq_of_le (by omega) (by omega))
          (fun h => assembleWithin_size_le h) (Nat.le_refl _)
      simp only [hsame]

/-- **Assembling calls itself on what starts inside the item**, one after another, with a pool that
no longer has the item. -/
theorem assemble_eq (children : String → List String) (id : String) (pool : Pool) :
    assemble children id pool =
      match pool.get? id with
      | none => .error (.containmentCycle id)
      | some item => do
        let (contents, rest) ← takeEach (assemble children) (children id) (pool.erase id)
        return (item.withContents contents, rest) := by
  have hdeeper : assemble children id pool = assembleWithin children (pool.size + 1) id pool :=
    assembleWithin_eq_of_le (Nat.le_refl _) (Nat.le_succ _)
  have hsame : takeEach (assembleWithin children pool.size) (children id) (pool.erase id) =
      takeEach (assemble children) (children id) (pool.erase id) :=
    takeEach_congr (fun hsize => assembleWithin_eq_of_le hsize (Nat.le_refl _))
      (fun h => assembleWithin_size_le h) (pool.size_erase_le id)
  rw [hdeeper, ← hsame]
  rfl

end Adventure
