import Adventure.Table
import Mathlib.Data.List.Perm.Subperm

/-!
# The entries of a table under a change

`Adventure.Table` says what `get?` gives after a change. Here is what becomes of the listed values:
a change to one key touches one place of the list (`exists_values_modify`), and writing a new key
or erasing one adds or removes one value (`perm_values_insert`, `perm_values_erase`). Counting what
lies in all rooms of a world rests on these.

A scan reads off a group of entries in one go, if the keys of the group stand together and the scan
starts at the least of them (`scan_eq_filter`).
-/

namespace Adventure.Table

variable {κ α : Type} [Ord κ]

/-! ## On sorted lists -/

theorem perm_cons_remove [Std.LawfulEqOrd κ] {k : κ} {v : α} :
    ∀ {l : List (κ × α)}, lookup k l = some v → l.Perm ((k, v) :: remove k l)
  | [], h => absurd h (by simp [lookup])
  | (k', v') :: rest, h => by
    unfold lookup at h
    unfold remove
    cases hk : compare k k' with
    | lt =>
      rw [hk] at h
      exact absurd h (by simp)
    | eq =>
      rw [hk] at h
      obtain rfl := Option.some.inj h
      obtain rfl := Std.LawfulEqCmp.eq_of_compare hk
      exact List.Perm.refl _
    | gt =>
      rw [hk] at h
      exact ((perm_cons_remove h).cons _).trans (List.Perm.swap _ _ _)

theorem perm_write {k : κ} {v : α} :
    ∀ {l : List (κ × α)}, lookup k l = none → (write k v l).Perm ((k, v) :: l)
  | [], _ => List.Perm.refl _
  | (k', v') :: rest, h => by
    unfold lookup at h
    unfold write
    cases hk : compare k k' with
    | lt => exact List.Perm.refl _
    | eq =>
      rw [hk] at h
      exact absurd h (by simp)
    | gt =>
      rw [hk] at h
      exact ((perm_write h).cons _).trans (List.Perm.swap _ _ _)

/-! ## The same change to all values -/

/-- The table with a function applied to every value. -/
def map {β : Type} (t : Table κ α) (f : α → β) : Table κ β :=
  ⟨t.entries.map fun e => (e.1, f e.2), sorted_map _ (fun _ => rfl) t.sorted⟩

theorem get?_map {β : Type} (t : Table κ α) (f : α → β) (k : κ) :
    (t.map f).get? k = (t.get? k).map f := by
  have key : ∀ l : List (κ × α), lookup k (l.map fun e => (e.1, f e.2)) = (lookup k l).map f := by
    intro l
    induction l with
    | nil => rfl
    | cons e rest ih =>
      rw [List.map_cons, lookup, lookup]
      cases compare k e.1 with
      | lt => rfl
      | eq => rfl
      | gt => exact ih
  exact key t.entries

theorem map_modify {β : Type} {f : α → β} {g : α → α} {g' : β → β} (t : Table κ α) (k : κ)
    (h : ∀ v, f (g v) = g' (f v)) : (t.modify k g).map f = (t.map f).modify k g' := by
  have hentries : (t.entries.map fun e => if compare k e.1 = .eq then (e.1, g e.2) else e).map
      (fun e => (e.1, f e.2)) = (t.entries.map fun e => (e.1, f e.2)).map
        fun e => if compare k e.1 = .eq then (e.1, g' e.2) else e := by
    rw [List.map_map, List.map_map]
    refine List.map_congr_left fun e _ => ?_
    simp only [Function.comp]
    split <;> simp [h]
  simp only [map, modify, hentries]

@[simp] theorem keys_map {β : Type} (t : Table κ α) (f : α → β) : (t.map f).keys = t.keys := by
  rw [keys, map, List.map_map, keys]
  rfl

/-! ## Values -/

variable {t : Table κ α} {k : κ} {v : α}

theorem perm_values_erase [Std.LawfulEqOrd κ] (h : t.get? k = some v) :
    t.values.Perm (v :: (t.erase k).values) :=
  (perm_cons_remove h).map Prod.snd

theorem perm_values_insert [Std.TransOrd κ] [Std.LawfulEqOrd κ] (h : t.get? k = none) :
    (t.insert k v).values.Perm (v :: t.values) :=
  (perm_write h).map Prod.snd

/-! ## Scanning -/

section Scanning

variable {β : Type} {p : β → Bool} {l : List β}

/-- Where all that passes a test comes first, nothing passes it if the first does not. -/
theorem forall_of_head {a : β} (h : (a :: l).Pairwise fun a b => p b = true → p a = true)
    (ha : p a = false) : ∀ b ∈ a :: l, p b = false := by
  refine List.forall_mem_cons.mpr ⟨ha, fun b hb => ?_⟩
  rw [Bool.eq_false_iff]
  intro hpb
  exact absurd (ha.symm.trans (List.rel_of_pairwise_cons h hb hpb)) Bool.false_ne_true

/-- There, reading on as long as the test is passed is sifting. -/
theorem takeWhile_eq_filter (h : l.Pairwise fun a b => p b = true → p a = true) :
    l.takeWhile p = l.filter p := by
  induction l with
  | nil => rfl
  | cons a l ih =>
    cases ha : p a with
    | true => rw [List.takeWhile_cons_of_pos ha, List.filter_cons_of_pos ha, ih h.of_cons]
    | false =>
      have hnone := forall_of_head h ha
      rw [List.takeWhile_cons_of_neg (by simp [ha]),
        List.filter_eq_nil_iff.mpr fun b hb => by simp [hnone b hb]]

/-- There, passing over what comes first is sifting as well. -/
theorem dropWhile_eq_filter (h : l.Pairwise fun a b => p b = true → p a = true) :
    l.dropWhile p = l.filter (!p ·) := by
  induction l with
  | nil => rfl
  | cons a l ih =>
    cases ha : p a with
    | true =>
      rw [List.dropWhile_cons_of_pos ha, List.filter_cons_of_neg (by simp [ha]), ih h.of_cons]
    | false =>
      have hnone := forall_of_head h ha
      rw [List.dropWhile_cons_of_neg (by simp [ha]),
        List.filter_eq_self.mpr fun b hb => by simp [hnone b hb]]

/-- **A scan reads off the entries whose keys belong**, if these stand together and none is below
the key to start from. -/
theorem scan_eq_filter [Std.TransOrd κ] {low : κ} {belongs : κ → Bool}
    (hlow : ∀ k, belongs k = true → compare k low ≠ .lt)
    (htogether : ∀ a b, compare a low ≠ .lt → compare a b = .lt → belongs b = true →
      belongs a = true) :
    t.scan low belongs = t.entries.filter fun e => belongs e.1 := by
  have hbelow : t.entries.Pairwise fun a b =>
      decide (compare b.1 low = .lt) = true → decide (compare a.1 low = .lt) = true := by
    refine t.sorted.imp fun hab hb => ?_
    exact decide_eq_true (Std.TransCmp.lt_trans hab (of_decide_eq_true hb))
  unfold scan
  rw [dropWhile_eq_filter hbelow, takeWhile_eq_filter, List.filter_filter]
  · refine List.filter_congr fun e _ => ?_
    cases hbelongs : belongs e.1 with
    | false => rfl
    | true => simp [hlow e.1 hbelongs]
  · -- past the start, what belongs comes before what does not
    refine (t.sorted.filter _).imp_of_mem fun {a b} ha _ hab hb => ?_
    have hstart : compare a.1 low ≠ .lt := by simpa using (List.mem_filter.mp ha).2
    exact htogether a.1 b.1 hstart hab hb

end Scanning

/-! ## Keys -/

theorem contains_iff_mem_keys [Std.TransOrd κ] [Std.LawfulEqOrd κ] :
    t.contains k = true ↔ k ∈ t.keys := by
  rw [mem_keys_iff, contains, Option.isSome_iff_exists]

theorem nodup_keys [Std.LawfulEqOrd κ] (t : Table κ α) : t.keys.Nodup := by
  unfold keys
  rw [List.Nodup, List.pairwise_map]
  refine t.sorted.imp fun {a b} hlt heq => ?_
  rw [heq] at hlt
  exact absurd (Std.ReflCmp.compare_self.symm.trans hlt) (by decide)

/-- The keys are listed from the least on. -/
theorem le_of_keys {table : Table String α} {key other : String} {rest : List String}
    (h : table.keys = key :: rest) (hother : other ∈ table.keys) : key ≤ other := by
  have hsorted : table.keys.Pairwise fun a b => compare a b = .lt :=
    List.pairwise_map.mpr table.sorted
  rw [h] at hsorted hother
  rcases List.mem_cons.mp hother with rfl | hrest
  · exact String.le_refl _
  · have hlt : key < other := compareOfLessAndEq_eq_lt.mp (List.rel_of_pairwise_cons hsorted hrest)
    exact Std.le_of_lt hlt

/-- A table with fewer keys is no larger. -/
theorem size_le_of_keys_subset [Std.LawfulEqOrd κ] {s : Table κ α} (h : s.keys ⊆ t.keys) :
    s.size ≤ t.size := by
  have hle := (s.nodup_keys.subperm h).length_le
  rw [keys, keys, List.length_map, List.length_map] at hle
  exact hle

theorem size_erase_le (t : Table κ α) (k : κ) : (t.erase k).size ≤ t.size :=
  (remove_sublist k t.entries).length_le

variable [Std.TransOrd κ] [Std.LawfulEqOrd κ]

theorem get?_eq_none_iff : t.get? k = none ↔ k ∉ t.keys := by
  rw [mem_keys_iff]
  cases t.get? k <;> simp

theorem mem_keys_insert [DecidableEq κ] {q : κ} :
    q ∈ (t.insert k v).keys ↔ q = k ∨ q ∈ t.keys := by
  rw [mem_keys_iff, mem_keys_iff]
  simp only [get?_insert]
  by_cases hq : q = k <;> simp [hq]

theorem mem_keys_erase [DecidableEq κ] {q : κ} :
    q ∈ (t.erase k).keys ↔ q ∈ t.keys ∧ q ≠ k := by
  rw [mem_keys_iff, mem_keys_iff]
  simp only [get?_erase]
  by_cases hq : q = k <;> simp [hq]

/-- Erasing a key that is there makes the table one smaller. -/
theorem size_erase (h : k ∈ t.keys) : (t.erase k).size + 1 = t.size := by
  obtain ⟨v, hv⟩ := mem_keys_iff.mp h
  have hperm := perm_cons_remove (l := t.entries) hv
  rw [size, size, hperm.length_eq, List.length_cons]
  rfl

theorem get?_of_size_eq_zero (h : t.size = 0) (k : κ) : t.get? k = none := by
  rw [get?_eq_none_iff, keys, List.length_eq_zero_iff.mp h]
  exact List.not_mem_nil

/-! ## A change to one key -/

/-- **A change to one key touches one place of the values.** -/
theorem exists_values_modify (h : t.get? k = some v) :
    ∃ l r, t.values = l ++ v :: r ∧ ∀ f, (t.modify k f).values = l ++ f v :: r := by
  obtain ⟨l, r, hsplit⟩ := List.append_of_mem (get?_eq_some_iff.mp h)
  have hsorted := t.sorted
  rw [hsplit] at hsorted
  obtain ⟨-, hright, hcross⟩ := List.pairwise_append.mp hsorted
  have hl : ∀ e ∈ l, ¬ compare k e.1 = .eq := by
    intro e he heq
    have hlt := hcross e he (k, v) List.mem_cons_self
    obtain rfl := Std.LawfulEqCmp.eq_of_compare heq
    exact absurd (Std.ReflCmp.compare_self.symm.trans hlt) (by decide)
  have hr : ∀ e ∈ r, ¬ compare k e.1 = .eq := by
    intro e he heq
    have hlt := (List.pairwise_cons.mp hright).1 e he
    exact absurd (heq.symm.trans hlt) (by decide)
  refine ⟨l.map Prod.snd, r.map Prod.snd, by rw [values, hsplit]; simp, fun f => ?_⟩
  have keep : ∀ {m : List (κ × α)}, (∀ e ∈ m, ¬ compare k e.1 = .eq) →
      m.map (fun e => if compare k e.1 = .eq then (e.1, f e.2) else e) = m := fun hm =>
    (List.map_congr_left fun e he => if_neg (hm e he)).trans (List.map_id _)
  simp only [values, modify, hsplit, List.map_append, List.map_cons, keep hl, keep hr,
    Std.ReflCmp.compare_self, if_true]

/-- A change to one key touches one stretch of what the values list. -/
theorem exists_flatMap_values_modify {β : Type} (g : α → List β) (h : t.get? k = some v) :
    ∃ l r, t.values.flatMap g = l ++ g v ++ r ∧
      ∀ f, (t.modify k f).values.flatMap g = l ++ g (f v) ++ r := by
  obtain ⟨l, r, hvalues, hmodify⟩ := exists_values_modify h
  refine ⟨l.flatMap g, r.flatMap g, ?_, fun f => ?_⟩
  · rw [hvalues, List.flatMap_append, List.flatMap_cons, List.append_assoc]
  · rw [hmodify, List.flatMap_append, List.flatMap_cons, List.append_assoc]

end Adventure.Table
