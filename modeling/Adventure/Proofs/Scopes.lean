import Adventure.Proofs.Resolving

/-!
# What a phrase comes to in its scope

A scope is searched holder by holder, the floor before the inventory (`Scope.holders`). What decides
is the list of the items in it that the phrase fits, in this order (`Scope.fitting`): with one item
the phrase finds it, with none it finds nothing, and with more it is ambiguous and the items are
listed by name, those of one name in the order in which they lie (`resolve_eq_found_iff_fitting` and
the two after it). The place that comes with an item found is one in a holder of the scope, counted
in the holder's own list.

Results:

* `sortedByName_iff`: sorting by name, and keeping the order within a name, leaves one list only.
* `phrases_keep_to_their_scope`: what a phrase comes to in each scope, and in both holders at once.
-/

namespace Adventure

/-! ## What fits -/

/-- Some word of the phrase has a meaning, and each that has occurs in an alias of the item. -/
def Item.Fits (phrase : String) (item : Item) : Prop :=
  phraseWords phrase ≠ [] ∧
    ∀ word ∈ phraseWords phrase, ∃ known ∈ item.aliases, word.toList <:+: known.toList

theorem Item.matchesWords_iff {phrase : String} {item : Item} :
    item.matchesWords (phraseWords phrase) = true ↔ item.Fits phrase := by
  simp [matchesWords, Fits, Text.occursIn_iff]

instance (phrase : String) : DecidablePred (Item.Fits phrase) := fun _ =>
  decidable_of_iff _ Item.matchesWords_iff

/-- The items in the scope that the phrase fits, in the order in which they are searched. -/
def Scope.fitting (floor inventory : List Item) (phrase : String) (scope : Scope) : List Item :=
  (scope.holders.flatMap (Holder.items floor inventory)).filter fun item => item.Fits phrase

variable {floor inventory items : List Item} {holder : Holder} {scope : Scope} {phrase : String}
  {l : Located}

theorem map_item_locate (holder : Holder) (items : List Item) :
    (locate holder items).map (·.item) = items := by
  apply List.ext_getElem?
  intro i
  simp [locate, Option.map_map, Function.comp_def]

/-! ## Hits -/

/-- The candidates that the phrase fits. -/
def hits (floor inventory : List Item) (scope : Scope) (phrase : String) : List Located :=
  (candidates floor inventory scope).filter (·.item.matchesWords (phraseWords phrase))

theorem mem_hits_iff : l ∈ hits floor inventory scope phrase ↔
    (l.holder ∈ scope.holders ∧ (l.holder.items floor inventory)[l.index]? = some l.item) ∧
      l.item.Fits phrase := by
  rw [hits, List.mem_filter, mem_candidates_iff, Item.matchesWords_iff]

/-- **The hits are the items that the phrase fits**, in the same order. -/
theorem map_item_hits (floor inventory : List Item) (scope : Scope) (phrase : String) :
    (hits floor inventory scope phrase).map (·.item) = scope.fitting floor inventory phrase := by
  have hfits : (fun item : Item => decide (item.Fits phrase)) =
      fun item => item.matchesWords (phraseWords phrase) := by
    funext item
    rw [Bool.eq_iff_iff, decide_eq_true_iff, Item.matchesWords_iff]
  have hitems : (candidates floor inventory scope).map (·.item) =
      scope.holders.flatMap (Holder.items floor inventory) := by
    rw [candidates_eq, List.map_flatMap]
    simp only [map_item_locate]
  rw [Scope.fitting, hfits, ← hitems, List.filter_map]
  rfl

theorem hits_everywhere (floor inventory : List Item) (phrase : String) :
    hits floor inventory .everywhere phrase =
      hits floor inventory .room phrase ++ hits floor inventory .inventory phrase := by
  simp only [hits, candidates_eq, Scope.holders, List.flatMap_cons, List.flatMap_nil,
    List.append_nil, List.filter_append]

/-! ## Sorting by name -/

/-- The items in the order of their names, those of one name in the order of the list. -/
structure SortedByName (items sorted : List Item) : Prop where
  perm : sorted.Perm items
  ordered : sorted.Pairwise fun a b => a.name ≤ b.name
  stable : ∀ name, sorted.filter (·.name == name) = items.filter (·.name == name)

theorem sortedByName_sortByName (items : List Item) :
    SortedByName items (Resolution.sortByName items) := by
  have htrans : ∀ a b c : Item, decide (a.name ≤ b.name) = true → decide (b.name ≤ c.name) = true →
      decide (a.name ≤ c.name) = true := by
    intro a b c hab hbc
    simp only [decide_eq_true_eq] at *
    exact String.le_trans hab hbc
  have htotal : ∀ a b : Item, (decide (a.name ≤ b.name) || decide (b.name ≤ a.name)) = true := by
    intro a b
    simpa using String.le_total a.name b.name
  have hperm := List.mergeSort_perm items fun a b => decide (a.name ≤ b.name)
  refine ⟨hperm, ?_, fun name => ?_⟩
  · refine (List.pairwise_mergeSort htrans htotal items).imp ?_
    intro a b hab
    exact of_decide_eq_true hab
  · -- the items of one name are in order as they stand, so sorting keeps them as a sublist
    have hsame : (items.filter (·.name == name)).Pairwise
        fun a b => decide (a.name ≤ b.name) = true := by
      refine List.pairwise_of_forall_mem_list ?_
      intro a ha b hb
      have hname : a.name = b.name := by
        rw [eq_of_beq (List.mem_filter.mp ha).2, eq_of_beq (List.mem_filter.mp hb).2]
      simp [hname]
    have hsub := (List.sublist_mergeSort htrans htotal hsame List.filter_sublist).filter
      (·.name == name)
    rw [List.filter_filter] at hsub
    simp only [Bool.and_self] at hsub
    exact (hsub.eq_of_length (hperm.filter _).length_eq.symm).symm

/-- In two lists in order of their names that agree on each name, the first items are of one name.
-/
theorem name_le_of_stable {a b : Item} {sorted other : List Item}
    (hordered : (a :: sorted).Pairwise fun a b => a.name ≤ b.name)
    (hstable : ∀ name,
      (a :: sorted).filter (·.name == name) = (b :: other).filter (·.name == name)) :
    a.name ≤ b.name := by
  have hmem : b ∈ (a :: sorted).filter (·.name == b.name) := by
    rw [hstable]
    exact List.mem_filter.mpr ⟨List.mem_cons_self, beq_self_eq_true _⟩
  rcases List.mem_cons.mp (List.mem_filter.mp hmem).1 with rfl | hb
  · exact String.le_refl _
  · exact List.rel_of_pairwise_cons hordered hb

/-- **Lists in order of their names that agree on each name are the same.** -/
theorem eq_of_sorted_of_stable {sorted other : List Item}
    (hsorted : sorted.Pairwise fun a b => a.name ≤ b.name)
    (hother : other.Pairwise fun a b => a.name ≤ b.name)
    (hstable : ∀ name, sorted.filter (·.name == name) = other.filter (·.name == name)) :
    sorted = other := by
  induction sorted generalizing other with
  | nil =>
    cases other with
    | nil => rfl
    | cons b other =>
      have hb := hstable b.name
      simp at hb
  | cons a sorted ih =>
    cases other with
    | nil =>
      have ha := hstable a.name
      simp at ha
    | cons b other =>
      have hname : a.name = b.name := String.le_antisymm (name_le_of_stable hsorted hstable)
        (name_le_of_stable hother fun name => (hstable name).symm)
      obtain rfl : a = b := by
        have ha := hstable a.name
        rw [List.filter_cons_of_pos (by simp), List.filter_cons_of_pos (by simp [hname])] at ha
        exact (List.cons.inj ha).1
      refine congrArg (a :: ·) (ih hsorted.of_cons hother.of_cons fun name => ?_)
      have hrest := hstable name
      rw [List.filter_cons, List.filter_cons] at hrest
      split at hrest
      · exact (List.cons.inj hrest).2
      · exact hrest

/-- **Sorting by name has one result**, the one that resolving a phrase lists. -/
theorem sortedByName_iff {items sorted : List Item} :
    SortedByName items sorted ↔ sorted = Resolution.sortByName items := by
  have hsort := sortedByName_sortByName items
  constructor
  · intro h
    exact eq_of_sorted_of_stable h.ordered hsort.ordered fun name =>
      (h.stable name).trans (hsort.stable name).symm
  · rintro rfl
    exact hsort

/-! ## What a phrase comes to -/

namespace Resolution

theorem ofHits_eq_notFound_iff {hits : List Located} : ofHits hits = .notFound ↔ hits = [] := by
  match hits with
  | [] => simp [ofHits]
  | [hit] => simp [ofHits]
  | _ :: _ :: _ => simp [ofHits]

theorem ofHits_eq_ambiguous_iff {hits : List Located} {listed : List Item} :
    ofHits hits = .ambiguous listed ↔
      2 ≤ hits.length ∧ listed = sortByName (hits.map (·.item)) := by
  match hits with
  | [] => simp [ofHits]
  | [hit] => simp [ofHits]
  | _ :: _ :: _ => simp [ofHits, eq_comm]

end Resolution

theorem resolve_eq_ofHits (floor inventory : List Item) (scope : Scope) (phrase : String) :
    resolve floor inventory scope phrase = .ofHits (hits floor inventory scope phrase) := rfl

theorem length_hits (floor inventory : List Item) (scope : Scope) (phrase : String) :
    (hits floor inventory scope phrase).length = (scope.fitting floor inventory phrase).length := by
  rw [← map_item_hits, List.length_map]

/-- **A phrase that fits one item finds it**, at its place in the list of its holder. -/
theorem resolve_eq_found_iff_fitting : resolve floor inventory scope phrase = .found l ↔
    ∃ item, scope.fitting floor inventory phrase = [item] ∧ l.holder ∈ scope.holders ∧
      (l.holder.items floor inventory)[l.index]? = some item ∧ l.item = item := by
  rw [resolve_eq_ofHits, Resolution.ofHits_eq_found_iff]
  constructor
  · intro h
    have hl : l ∈ hits floor inventory scope phrase := by simp [h]
    obtain ⟨⟨hscope, hitem⟩, -⟩ := mem_hits_iff.mp hl
    refine ⟨l.item, ?_, hscope, hitem, rfl⟩
    rw [← map_item_hits, h, List.map_singleton]
  · rintro ⟨item, hfitting, hscope, hitem, rfl⟩
    have hfits : l.item.Fits phrase := by
      have hmem : l.item ∈ scope.fitting floor inventory phrase := by simp [hfitting]
      simpa using (List.mem_filter.mp hmem).2
    have hlength : (hits floor inventory scope phrase).length = 1 := by
      rw [length_hits, hfitting, List.length_singleton]
    obtain ⟨other, hother⟩ := List.length_eq_one_iff.mp hlength
    have hmem := mem_hits_iff.mpr ⟨⟨hscope, hitem⟩, hfits⟩
    rw [hother, List.mem_singleton] at hmem
    rw [hother, hmem]

theorem exists_resolve_eq_found_iff : (∃ l, resolve floor inventory scope phrase = .found l) ↔
    (scope.fitting floor inventory phrase).length = 1 := by
  simp only [resolve_eq_ofHits, Resolution.ofHits_eq_found_iff, ← length_hits,
    List.length_eq_one_iff]

/-- **A phrase that fits nothing finds nothing.** -/
theorem resolve_eq_notFound_iff : resolve floor inventory scope phrase = .notFound ↔
    scope.fitting floor inventory phrase = [] := by
  rw [resolve_eq_ofHits, Resolution.ofHits_eq_notFound_iff, ← map_item_hits, List.map_eq_nil_iff]

/-- **A phrase that fits several items is ambiguous**, and they are listed by name. -/
theorem resolve_eq_ambiguous_iff {listed : List Item} :
    resolve floor inventory scope phrase = .ambiguous listed ↔
      2 ≤ (scope.fitting floor inventory phrase).length ∧
        SortedByName (scope.fitting floor inventory phrase) listed := by
  rw [resolve_eq_ofHits, Resolution.ofHits_eq_ambiguous_iff, length_hits, map_item_hits,
    sortedByName_iff]

/-- In both holders a phrase finds what it finds in one of them, if it finds nothing in the other.
-/
theorem resolve_everywhere_eq_found_iff :
    resolve floor inventory .everywhere phrase = .found l ↔
      (resolve floor inventory .room phrase = .found l ∧
        resolve floor inventory .inventory phrase = .notFound) ∨
      (resolve floor inventory .room phrase = .notFound ∧
        resolve floor inventory .inventory phrase = .found l) := by
  simp only [resolve_eq_ofHits, Resolution.ofHits_eq_found_iff, Resolution.ofHits_eq_notFound_iff,
    hits_everywhere, List.append_eq_singleton_iff]
  exact or_comm

/-- **A phrase never picks one of several items, and never leaves its scope**: it finds the only
item in the scope that it fits, at its place, and else says that there is none or lists all of them
by name. In both holders at once it finds an item exactly when it does in one of them and there is
none in the other. -/
theorem phrases_keep_to_their_scope (floor inventory : List Item) (phrase : String) :
    (∀ scope : Scope,
      (∀ l, resolve floor inventory scope phrase = .found l ↔
        ∃ item, scope.fitting floor inventory phrase = [item] ∧ l.holder ∈ scope.holders ∧
          (l.holder.items floor inventory)[l.index]? = some item ∧ l.item = item) ∧
      ((∃ l, resolve floor inventory scope phrase = .found l) ↔
        (scope.fitting floor inventory phrase).length = 1) ∧
      (resolve floor inventory scope phrase = .notFound ↔
        scope.fitting floor inventory phrase = []) ∧
      ∀ listed, resolve floor inventory scope phrase = .ambiguous listed ↔
        2 ≤ (scope.fitting floor inventory phrase).length ∧
          SortedByName (scope.fitting floor inventory phrase) listed) ∧
    ∀ l, resolve floor inventory .everywhere phrase = .found l ↔
      (resolve floor inventory .room phrase = .found l ∧
        resolve floor inventory .inventory phrase = .notFound) ∨
      (resolve floor inventory .room phrase = .notFound ∧
        resolve floor inventory .inventory phrase = .found l) := by
  refine ⟨fun scope => ⟨?_, ?_, ?_, ?_⟩, ?_⟩
  · intro l
    exact resolve_eq_found_iff_fitting
  · exact exists_resolve_eq_found_iff
  · exact resolve_eq_notFound_iff
  · intro listed
    exact resolve_eq_ambiguous_iff
  · intro l
    exact resolve_everywhere_eq_found_iff

end Adventure
