import Adventure.Play.Resolve
import Mathlib.Data.List.Nodup
import Mathlib.Data.List.Perm.Basic

/-!
# What it takes for a phrase to find an item

The candidates in a scope are the items of its holders, each with its place in the list of its
holder (`mem_candidates_iff`). Both ways of resolving a phrase filter them and find one when exactly
one is left (`ofHits_eq_found_iff`). So an item that is found lies where `Located` says it does,
fits the phrase, and is the only one in its scope that fits (`resolve_eq_found_iff`).
-/

namespace Adventure

/-! ## Scopes -/

/-- The items of a holder. -/
def Holder.items (floor inventory : List Item) : Holder → List Item
  | .room => floor
  | .inventory => inventory

/-- The holders in a scope, in the order in which they are searched. -/
def Scope.holders : Scope → List Holder
  | .room => [.room]
  | .inventory => [.inventory]
  | .everywhere => [.room, .inventory]

theorem holders_scope (holder : Holder) : holder.scope.holders = [holder] := by
  cases holder <;> rfl

variable {floor inventory items : List Item} {holder : Holder} {scope : Scope} {phrase : String}
  {l : Located}

theorem mem_locate_iff : l ∈ locate holder items ↔
    l.holder = holder ∧ items[l.index]? = some l.item := by
  rw [locate, List.mem_mapIdx]
  obtain ⟨h, i, item⟩ := l
  constructor
  · rintro ⟨j, hj, heq⟩
    cases heq
    exact ⟨rfl, List.getElem?_eq_getElem hj⟩
  · rintro ⟨rfl, hitem⟩
    obtain ⟨hi, hitem⟩ := List.getElem?_eq_some_iff.mp hitem
    exact ⟨i, hi, congrArg (Located.mk h i) hitem⟩

/-- No place is listed twice. -/
theorem nodup_locate (holder : Holder) (items : List Item) : (locate holder items).Nodup := by
  rw [locate, List.nodup_iff_pairwise_ne, List.pairwise_iff_getElem]
  intro i j hi hj hij heq
  rw [List.getElem_mapIdx, List.getElem_mapIdx] at heq
  exact absurd (congrArg Located.index heq) (Nat.ne_of_lt hij)

theorem filter_includes_locate (scope : Scope) (holder : Holder) (items : List Item) :
    (locate holder items).filter (scope.includes ·.holder) =
      if scope.includes holder then locate holder items else [] := by
  have hholder : ∀ l ∈ locate holder items, l.holder = holder := by
    intro l hl
    exact (mem_locate_iff.mp hl).1
  by_cases h : scope.includes holder = true
  · rw [if_pos h, List.filter_eq_self]
    intro l hl
    rw [hholder l hl, h]
  · rw [if_neg h, List.filter_eq_nil_iff]
    intro l hl
    rwa [hholder l hl]

theorem candidates_eq (floor inventory : List Item) (scope : Scope) :
    candidates floor inventory scope =
      scope.holders.flatMap fun holder => locate holder (holder.items floor inventory) := by
  rw [candidates, List.filter_append, filter_includes_locate, filter_includes_locate]
  cases scope <;> simp [Scope.includes, Holder.scope, Scope.holders, Holder.items]

theorem mem_candidates_iff : l ∈ candidates floor inventory scope ↔
    l.holder ∈ scope.holders ∧ (l.holder.items floor inventory)[l.index]? = some l.item := by
  simp only [candidates_eq, List.mem_flatMap, mem_locate_iff]
  constructor
  · rintro ⟨holder, hscope, rfl, hitem⟩
    exact ⟨hscope, hitem⟩
  · rintro ⟨hscope, hitem⟩
    exact ⟨l.holder, hscope, rfl, hitem⟩

theorem nodup_candidates (floor inventory : List Item) (scope : Scope) :
    (candidates floor inventory scope).Nodup := by
  refine List.Nodup.filter _ (List.nodup_append.mpr ⟨nodup_locate _ _, nodup_locate _ _, ?_⟩)
  rintro a ha b hb rfl
  exact absurd ((mem_locate_iff.mp ha).1.symm.trans (mem_locate_iff.mp hb).1) (by decide)

/-- In the scope of one holder the candidates are the items in its list. -/
theorem mem_candidates_scope_iff (holder : Holder) : l ∈ candidates floor inventory holder.scope ↔
    l.holder = holder ∧ (holder.items floor inventory)[l.index]? = some l.item := by
  rw [mem_candidates_iff, holders_scope, List.mem_singleton]
  exact and_congr_right fun h => by rw [h]

theorem mem_candidates_room_iff :
    l ∈ candidates floor inventory .room ↔ l.holder = .room ∧ floor[l.index]? = some l.item :=
  mem_candidates_scope_iff .room

theorem mem_candidates_inventory_iff : l ∈ candidates floor inventory .inventory ↔
    l.holder = .inventory ∧ inventory[l.index]? = some l.item :=
  mem_candidates_scope_iff .inventory

/-! ## Hits -/

namespace Resolution

theorem ofHits_eq_found_iff {hits : List Located} : ofHits hits = .found l ↔ hits = [l] := by
  match hits with
  | [] => simp [ofHits]
  | [hit] => simp [ofHits]
  | _ :: _ :: _ => simp [ofHits]

theorem toExcept_eq_ok_iff {resolution : Resolution} :
    resolution.toExcept phrase scope = .ok l ↔ resolution = .found l := by
  cases resolution <;> simp [toExcept]

end Resolution

/-- A list without duplicates has one element left under a filter when one alone passes it. -/
theorem filter_eq_singleton_iff {α : Type} {p : α → Bool} {l : List α} (hl : l.Nodup) {a : α} :
    l.filter p = [a] ↔ (a ∈ l ∧ p a = true) ∧ ∀ b ∈ l, p b = true → b = a := by
  have hmem : ∀ b, b ∈ l.filter p ↔ b ∈ l ∧ p b = true := fun b => List.mem_filter
  constructor
  · intro h
    simp only [h, List.mem_singleton] at hmem
    exact ⟨(hmem a).mp rfl, fun b hb hp => (hmem b).mpr ⟨hb, hp⟩⟩
  · rintro ⟨ha, hall⟩
    refine List.perm_singleton.mp ((List.perm_ext_iff_of_nodup (hl.filter _)
      (List.nodup_singleton a)).mpr fun b => ?_)
    rw [hmem, List.mem_singleton]
    exact ⟨fun h => hall b h.1 h.2, fun h => h ▸ ha⟩

/-- When one element of a list passes a test, it passes at one position only. -/
theorem exists_only_of_countP {α : Type} {p : α → Bool} {l : List α} (h : l.countP p = 1) :
    ∃ (index : Nat) (a : α), l[index]? = some a ∧ p a = true ∧
      ∀ (i : Nat) (b : α), l[i]? = some b → p b = true → i = index := by
  induction l with
  | nil => exact nomatch h
  | cons a l ih =>
    cases hp : p a with
    | true =>
      rw [List.countP_cons_of_pos hp, Nat.add_eq_right] at h
      refine ⟨0, a, rfl, hp, fun i b hb hpb => ?_⟩
      cases i with
      | zero => rfl
      | succ i => exact absurd hpb (List.countP_eq_zero.mp h b (List.mem_of_getElem? hb))
    | false =>
      rw [List.countP_cons_of_neg (by rw [hp]; exact Bool.false_ne_true)] at h
      obtain ⟨index, found, hfound, hpf, honly⟩ := ih h
      refine ⟨index + 1, found, hfound, hpf, fun i b hb hpb => ?_⟩
      cases i with
      | zero =>
        obtain rfl := Option.some.inj hb
        exact absurd (hp.symm.trans hpb) Bool.false_ne_true
      | succ i => rw [honly i b hb hpb]

/-- **A phrase finds the only item in the scope that fits it.** -/
theorem resolve_eq_found_iff :
    resolve floor inventory scope phrase = .found l ↔
      (l ∈ candidates floor inventory scope ∧ l.item.matchesWords (phraseWords phrase) = true) ∧
        ∀ other ∈ candidates floor inventory scope,
          other.item.matchesWords (phraseWords phrase) = true → other = l := by
  rw [resolve, Resolution.ofHits_eq_found_iff]
  exact filter_eq_singleton_iff (nodup_candidates floor inventory scope)

/-- A phrase that one item alone of a holder fits finds it, in the scope of the holder. -/
theorem resolve_of_only {index : Nat} {item : Item}
    (hscope : ∀ l, l ∈ candidates floor inventory scope ↔
      l.holder = holder ∧ items[l.index]? = some l.item)
    (hitem : items[index]? = some item) (hfits : item.matchesWords (phraseWords phrase) = true)
    (honly : ∀ i other, items[i]? = some other →
      other.matchesWords (phraseWords phrase) = true → i = index) :
    resolve floor inventory scope phrase = .found ⟨holder, index, item⟩ := by
  refine resolve_eq_found_iff.mpr ⟨⟨(hscope _).mpr ⟨rfl, hitem⟩, hfits⟩, ?_⟩
  rintro ⟨other_holder, i, other⟩ hlies hother
  obtain ⟨rfl, hat⟩ := (hscope _).mp hlies
  obtain rfl := honly i other hat hother
  obtain rfl := Option.some.inj (hat.symm.trans hitem)
  rfl

/-- The only item carried is found by every phrase that fits it. -/
theorem resolve_carried_alone {item : Item}
    (hfits : item.matchesWords (phraseWords phrase) = true) :
    resolve floor [item] .inventory phrase = .found ⟨.inventory, 0, item⟩ := by
  refine resolve_of_only (fun l => mem_candidates_inventory_iff) rfl hfits
    fun i other hother _ => ?_
  cases i with
  | zero => rfl
  | succ i => exact nomatch hother

theorem carried_of_resolve (h : resolve floor inventory .inventory phrase = .found l) :
    inventory[l.index]? = some l.item :=
  (mem_candidates_inventory_iff.mp (resolve_eq_found_iff.mp h).1.1).2

theorem on_floor_of_resolve (h : resolve floor inventory .room phrase = .found l) :
    floor[l.index]? = some l.item :=
  (mem_candidates_room_iff.mp (resolve_eq_found_iff.mp h).1.1).2

/-- A phrase finds, in the exact way, the only item in the list that has it as an alias. -/
theorem resolveExact_eq_found_iff :
    resolveExact holder items phrase = .found l ↔
      (l ∈ locate holder items ∧ l.item.matchesAlias (phraseWords phrase) = true) ∧
        ∀ other ∈ locate holder items,
          other.item.matchesAlias (phraseWords phrase) = true → other = l := by
  have hfound : resolveExact holder items phrase = .found l ↔ Resolution.ofHits
      ((locate holder items).filter (·.item.matchesAlias (phraseWords phrase))) = .found l := by
    simp only [resolveExact]
    split
    · rename_i hnone
      rw [hnone]
      split <;> simp
    · exact Iff.rfl
  rw [hfound, Resolution.ofHits_eq_found_iff]
  exact filter_eq_singleton_iff (nodup_locate holder items)

end Adventure
