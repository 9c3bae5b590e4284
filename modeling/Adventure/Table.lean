/-!
# Tables sorted by key

A table holds at most one value per key. Its entries stand in strictly ascending order of their
keys, so two tables are equal exactly when every key has the same value in both (`Table.ext_get?`),
and listing the keys lists them sorted.

Each operation is pinned by what `get?` says afterwards: `get?_empty`, `get?_insert`, `get?_erase`,
`get?_modify`.
-/

namespace Adventure

/-- Values by key, in ascending order of the keys. -/
structure Table (κ α : Type) [Ord κ] where
  entries : List (κ × α)
  sorted : entries.Pairwise fun a b => compare a.1 b.1 = .lt

namespace Table

variable {κ α β : Type} [Ord κ]

/-! ## Sorted lists of entries -/

section Sorted

/-- The value of a key in a sorted list. -/
def lookup (k : κ) : List (κ × α) → Option α
  | [] => none
  | (k', v) :: rest =>
    match compare k k' with
    | .lt => none
    | .eq => some v
    | .gt => lookup k rest

/-- Writes the value of a key into a sorted list. -/
def write (k : κ) (v : α) : List (κ × α) → List (κ × α)
  | [] => [(k, v)]
  | (k', v') :: rest =>
    match compare k k' with
    | .lt => (k, v) :: (k', v') :: rest
    | .eq => (k, v) :: rest
    | .gt => (k', v') :: write k v rest

/-- Removes a key from a sorted list. -/
def remove (k : κ) : List (κ × α) → List (κ × α)
  | [] => []
  | (k', v') :: rest =>
    match compare k k' with
    | .lt => (k', v') :: rest
    | .eq => rest
    | .gt => (k', v') :: remove k rest

theorem mem_write {k : κ} {v : α} {l : List (κ × α)} {e : κ × α} (h : e ∈ write k v l) :
    e = (k, v) ∨ e ∈ l := by
  induction l with
  | nil => exact Or.inl (List.mem_singleton.mp h)
  | cons e' rest ih =>
    unfold write at h
    split at h
    · exact List.mem_cons.mp h
    · rcases List.mem_cons.mp h with h | h
      · exact Or.inl h
      · exact Or.inr (List.mem_cons_of_mem _ h)
    · rcases List.mem_cons.mp h with h | h
      · exact Or.inr (h ▸ List.mem_cons_self)
      · exact (ih h).imp_right (List.mem_cons_of_mem _)

theorem remove_sublist (k : κ) (l : List (κ × α)) : (remove k l).Sublist l := by
  induction l with
  | nil => exact List.Sublist.refl _
  | cons e rest ih =>
    unfold remove
    split
    · exact List.Sublist.refl _
    · exact List.sublist_cons_self _ _
    · exact ih.cons_cons _

theorem sorted_remove (k : κ) {l : List (κ × α)}
    (h : l.Pairwise fun a b => compare a.1 b.1 = .lt) :
    (remove k l).Pairwise fun a b => compare a.1 b.1 = .lt :=
  h.sublist (remove_sublist k l)

theorem lookup_eq_none_of_lt {k : κ} {l : List (κ × α)} (h : ∀ e ∈ l, compare k e.1 = .lt) :
    lookup k l = none := by
  cases l with
  | nil => rfl
  | cons e rest => simp [lookup, h e List.mem_cons_self]

theorem sorted_map {l : List (κ × α)} (f : κ × α → κ × β) (hf : ∀ e, (f e).1 = e.1)
    (h : l.Pairwise fun a b => compare a.1 b.1 = .lt) :
    (l.map f).Pairwise fun a b => compare a.1 b.1 = .lt := by
  rw [List.pairwise_map]
  simpa only [hf] using h

variable [Std.TransOrd κ] [Std.LawfulEqOrd κ]

theorem sorted_write (k : κ) (v : α) {l : List (κ × α)}
    (h : l.Pairwise fun a b => compare a.1 b.1 = .lt) :
    (write k v l).Pairwise fun a b => compare a.1 b.1 = .lt := by
  induction l with
  | nil => simp [write]
  | cons e rest ih =>
    obtain ⟨hlt, hrest⟩ := List.pairwise_cons.mp h
    unfold write
    split
    · rename_i hk
      refine List.pairwise_cons.mpr ⟨fun e' he' => ?_, h⟩
      rcases List.mem_cons.mp he' with rfl | he'
      · exact hk
      · exact Std.TransCmp.lt_trans hk (hlt e' he')
    · rename_i hk
      have hk := Std.LawfulEqCmp.eq_of_compare hk
      subst hk
      exact List.pairwise_cons.mpr ⟨hlt, hrest⟩
    · rename_i hk
      refine List.pairwise_cons.mpr ⟨fun e' he' => ?_, ih hrest⟩
      rcases mem_write he' with rfl | he'
      · exact Std.OrientedCmp.lt_of_gt hk
      · exact hlt e' he'

theorem lookup_write [DecidableEq κ] (k : κ) (v : α) (l : List (κ × α)) (q : κ) :
    lookup q (write k v l) = if q = k then some v else lookup q l := by
  induction l with
  | nil =>
    simp only [write, lookup]
    by_cases h : q = k
    · subst h
      simp [Std.ReflCmp.compare_self]
    · have : compare q k ≠ .eq := fun he => h (Std.LawfulEqCmp.eq_of_compare he)
      cases hc : compare q k <;> simp_all
  | cons e rest ih =>
    obtain ⟨k', v'⟩ := e
    by_cases h : q = k
    · subst h
      unfold write
      split <;> simp_all [lookup, Std.ReflCmp.compare_self]
    · have hne : compare q k ≠ .eq := fun he => h (Std.LawfulEqCmp.eq_of_compare he)
      simp only [if_neg h] at ih ⊢
      unfold write
      split
      · rename_i hk
        simp only [lookup]
        cases hq : compare q k with
        | lt => simp [Std.TransCmp.lt_trans hq hk]
        | eq => exact absurd hq hne
        | gt => rfl
      · rename_i hk
        have hk := Std.LawfulEqCmp.eq_of_compare hk
        subst hk
        simp only [lookup]
        cases hq : compare q k <;> simp_all
      · simp only [lookup, ih]

theorem lookup_remove [DecidableEq κ] {k : κ} {l : List (κ × α)}
    (h : l.Pairwise fun a b => compare a.1 b.1 = .lt) (q : κ) :
    lookup q (remove k l) = if q = k then none else lookup q l := by
  induction l with
  | nil => simp [remove, lookup]
  | cons e rest ih =>
    obtain ⟨k', v'⟩ := e
    obtain ⟨hlt, hrest⟩ := List.pairwise_cons.mp h
    unfold remove
    split
    · rename_i hk
      by_cases hq : q = k
      · subst hq
        simp [lookup, hk]
      · simp [hq]
    · rename_i hk
      have hk := Std.LawfulEqCmp.eq_of_compare hk
      subst hk
      by_cases hq : q = k
      · subst hq
        simpa using lookup_eq_none_of_lt hlt
      · simp only [if_neg hq, lookup]
        cases hc : compare q k with
        | lt => exact lookup_eq_none_of_lt fun e he => Std.TransCmp.lt_trans hc (hlt e he)
        | eq => exact absurd (Std.LawfulEqCmp.eq_of_compare hc) hq
        | gt => rfl
    · rename_i hk
      simp only [lookup, ih hrest]
      by_cases hq : q = k
      · subst hq
        simp [hk]
      · simp [hq]

theorem lookup_eq_some_iff {l : List (κ × α)}
    (h : l.Pairwise fun a b => compare a.1 b.1 = .lt) {k : κ} {v : α} :
    lookup k l = some v ↔ (k, v) ∈ l := by
  induction l with
  | nil => simp [lookup]
  | cons e rest ih =>
    obtain ⟨k', v'⟩ := e
    obtain ⟨hlt, hrest⟩ := List.pairwise_cons.mp h
    simp only [lookup, List.mem_cons, Prod.mk.injEq]
    cases hc : compare k k' with
    | lt =>
      have hne : k ≠ k' := fun he => by simp [he, Std.ReflCmp.compare_self] at hc
      have hnot : (k, v) ∉ rest := fun hm => by
        have := Std.TransCmp.lt_trans hc (hlt _ hm)
        simp [Std.ReflCmp.compare_self] at this
      simp [hne, hnot]
    | eq =>
      have hk := Std.LawfulEqCmp.eq_of_compare hc
      subst hk
      have hnot : (k, v) ∉ rest := fun hm => by
        have := hlt _ hm
        simp [Std.ReflCmp.compare_self] at this
      simp [hnot, eq_comm]
    | gt =>
      have hne : k ≠ k' := fun he => by simp [he, Std.ReflCmp.compare_self] at hc
      simp [hne, ih hrest]

theorem eq_of_lookup_eq {l r : List (κ × α)}
    (hl : l.Pairwise fun a b => compare a.1 b.1 = .lt)
    (hr : r.Pairwise fun a b => compare a.1 b.1 = .lt)
    (h : ∀ k, lookup k l = lookup k r) : l = r := by
  have hmem : ∀ e, e ∈ l ↔ e ∈ r := fun e => by
    rw [← lookup_eq_some_iff hl, ← lookup_eq_some_iff hr, h]
  induction l generalizing r with
  | nil =>
    cases r with
    | nil => rfl
    | cons e r => exact absurd ((hmem e).mpr List.mem_cons_self) List.not_mem_nil
  | cons a l ih =>
    cases r with
    | nil => exact absurd ((hmem a).mp List.mem_cons_self) List.not_mem_nil
    | cons b r =>
      obtain ⟨hal, hl'⟩ := List.pairwise_cons.mp hl
      obtain ⟨hbr, hr'⟩ := List.pairwise_cons.mp hr
      have irrefl : ∀ e : κ × α, compare e.1 e.1 ≠ .lt := fun e => by
        simp [Std.ReflCmp.compare_self]
      have hab : a = b := by
        rcases List.mem_cons.mp ((hmem a).mp List.mem_cons_self) with h1 | h1
        · exact h1
        · rcases List.mem_cons.mp ((hmem b).mpr List.mem_cons_self) with h2 | h2
          · exact h2.symm
          · exact absurd (Std.TransCmp.lt_trans (hbr a h1) (hal b h2)) (irrefl b)
      subst hab
      have hmem' : ∀ e, e ∈ l ↔ e ∈ r := fun e => by
        have := hmem e
        simp only [List.mem_cons] at this
        constructor
        · intro he
          rcases this.mp (Or.inr he) with rfl | h
          · exact absurd (hal _ he) (irrefl _)
          · exact h
        · intro he
          rcases this.mpr (Or.inr he) with rfl | h
          · exact absurd (hbr _ he) (irrefl _)
          · exact h
      have hlook : ∀ k, lookup k l = lookup k r := fun k => by
        cases hk : lookup k l with
        | none =>
          cases hk' : lookup k r with
          | none => rfl
          | some v =>
            have := (lookup_eq_some_iff hl').mpr ((hmem' _).mpr ((lookup_eq_some_iff hr').mp hk'))
            simp [hk] at this
        | some v =>
          exact ((lookup_eq_some_iff hr').mpr ((hmem' _).mp ((lookup_eq_some_iff hl').mp hk))).symm
      rw [ih hl' hr' hlook hmem']

end Sorted

/-! ## Operations -/

/-- The table without entries. -/
def empty : Table κ α := ⟨[], List.Pairwise.nil⟩

/-- The value of a key. -/
def get? (t : Table κ α) (k : κ) : Option α := lookup k t.entries

/-- The key has a value. -/
def contains (t : Table κ α) (k : κ) : Bool := (t.get? k).isSome

/-- The number of keys. -/
def size (t : Table κ α) : Nat := t.entries.length

/-- The keys, ascending. -/
def keys (t : Table κ α) : List κ := t.entries.map Prod.fst

/-- The values, in the order of their keys. -/
def values (t : Table κ α) : List α := t.entries.map Prod.snd

/-- Sets the value of a key, replacing an earlier one. -/
def insert [Std.TransOrd κ] [Std.LawfulEqOrd κ] (t : Table κ α) (k : κ) (v : α) : Table κ α :=
  ⟨write k v t.entries, sorted_write k v t.sorted⟩

/-- Removes a key. -/
def erase (t : Table κ α) (k : κ) : Table κ α :=
  ⟨remove k t.entries, sorted_remove k t.sorted⟩

/-- Changes the value of a key, if it has one. -/
def modify (t : Table κ α) (k : κ) (f : α → α) : Table κ α :=
  ⟨t.entries.map fun e => if compare k e.1 = .eq then (e.1, f e.2) else e,
    sorted_map _ (fun e => by split <;> rfl) t.sorted⟩

/-- The entries from the first key that is not below `low`, as long as their keys belong. -/
def scan (t : Table κ α) (low : κ) (belongs : κ → Bool) : List (κ × α) :=
  (t.entries.dropWhile fun e => compare e.1 low = .lt).takeWhile fun e => belongs e.1

/-! ## Reading after a change -/

@[simp] theorem get?_empty (k : κ) : (empty : Table κ α).get? k = none := rfl

@[simp] theorem keys_modify (t : Table κ α) (k : κ) (f : α → α) : (t.modify k f).keys = t.keys := by
  simp only [keys, modify, List.map_map]
  refine List.map_congr_left fun e _ => ?_
  simp only [Function.comp]
  split <;> rfl

variable [Std.LawfulEqOrd κ]

theorem get?_modify [DecidableEq κ] (t : Table κ α) (k : κ) (f : α → α) (q : κ) :
    (t.modify k f).get? q = if q = k then (t.get? k).map f else t.get? q := by
  have key : ∀ l : List (κ × α),
      lookup q (l.map fun e => if compare k e.1 = .eq then (e.1, f e.2) else e) =
        if q = k then (lookup k l).map f else lookup q l := by
    intro l
    induction l with
    | nil => simp [lookup]
    | cons e rest ih =>
      obtain ⟨k', v'⟩ := e
      by_cases hk : compare k k' = .eq
      · have hkk := Std.LawfulEqCmp.eq_of_compare hk
        subst hkk
        simp only [List.map_cons, if_pos hk, lookup]
        by_cases hq : q = k
        · subst hq
          simp [Std.ReflCmp.compare_self]
        · have hne : compare q k ≠ .eq := fun he => hq (Std.LawfulEqCmp.eq_of_compare he)
          cases hc : compare q k <;> simp_all
      · simp only [List.map_cons, if_neg hk, lookup]
        by_cases hq : q = k
        · subst hq
          cases hc : compare q k' <;> simp_all
        · cases hc : compare q k' <;> simp_all
  exact key t.entries

variable [Std.TransOrd κ]

theorem get?_insert [DecidableEq κ] (t : Table κ α) (k : κ) (v : α) (q : κ) :
    (t.insert k v).get? q = if q = k then some v else t.get? q :=
  lookup_write k v t.entries q

theorem get?_erase [DecidableEq κ] (t : Table κ α) (k q : κ) :
    (t.erase k).get? q = if q = k then none else t.get? q :=
  lookup_remove t.sorted q

theorem get?_eq_some_iff {t : Table κ α} {k : κ} {v : α} :
    t.get? k = some v ↔ (k, v) ∈ t.entries :=
  lookup_eq_some_iff t.sorted

theorem mem_keys_iff {t : Table κ α} {k : κ} : k ∈ t.keys ↔ ∃ v, t.get? k = some v := by
  simp [keys, get?_eq_some_iff]

/-- **Tables are equal when every key has the same value in both.** -/
theorem ext_get? {s t : Table κ α} (h : ∀ k, s.get? k = t.get? k) : s = t := by
  obtain ⟨l, hl⟩ := s
  obtain ⟨r, hr⟩ := t
  have : l = r := eq_of_lookup_eq hl hr h
  subst this
  rfl

/-- Changing a value twice is changing it once. -/
theorem modify_modify [DecidableEq κ] (t : Table κ α) (k : κ) (f g : α → α) :
    (t.modify k f).modify k g = t.modify k (g ∘ f) := by
  refine ext_get? fun q => ?_
  rw [get?_modify, get?_modify, get?_modify, get?_modify, if_pos rfl, Option.map_map]
  split <;> rfl

theorem modify_of_get? [DecidableEq κ] {t : Table κ α} {k : κ} {f : α → α} {v : α}
    (h : t.get? k = some v) (hf : f v = v) : t.modify k f = t := by
  refine ext_get? fun q => ?_
  rw [get?_modify, h, Option.map_some, hf, ← h]
  split
  · rename_i hq
    rw [hq]
  · rfl

end Table

end Adventure
