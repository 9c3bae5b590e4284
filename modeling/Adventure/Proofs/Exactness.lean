import Adventure.Proofs.Phrases
import Adventure.Proofs.Scopes

/-!
# Resolving a phrase as a whole, and word by word

An item that has the whole phrase as an alias also has each word of it in some alias, since a word
is part of what is joined from it (`Item.Fits.of_alias`). So in one list the hits of the exact way
are a sublist of those of the other way (`exactHits_sublist`), and as the exact way falls back on
the other one, but only to tell "ambiguous" from "not found", it never says more than the other and
never gives up where the other sees a choice.

Results:

* `resolveExact_eq_notFound_iff`, `resolveExact_eq_ambiguous_iff`: what the exact way comes to, by
  its hits and those of the other way.
* `exact_refines_words`: how the two ways agree on a list.
-/

namespace Adventure

/-! ## Words and the phrase they make up -/

theorem Text.infix_joinWords {word : String} {words : List String} (h : word ∈ words) :
    word.toList <:+: (Text.joinWords words).toList := by
  unfold Text.joinWords
  induction words with
  | nil => exact absurd h List.not_mem_nil
  | cons first words ih =>
    cases words with
    | nil =>
      obtain rfl := List.mem_singleton.mp h
      simp
    | cons next words =>
      rw [String.intercalate_cons_cons, Text.toList_space]
      rcases List.mem_cons.mp h with rfl | h
      · exact (List.prefix_append _ _).isInfix
      · exact (ih h).trans ((List.suffix_cons _ _).trans (List.suffix_append _ _)).isInfix

/-- **An item that is matched as a whole is matched word by word.** -/
theorem Item.Fits.of_alias {item : Item} {phrase : String}
    (h : item.matchesAlias (phraseWords phrase) = true) : item.Fits phrase := by
  obtain ⟨hnonempty, halias⟩ := matchesAlias_iff.mp h
  refine ⟨?_, fun word hword => ⟨heard phrase, halias, Text.infix_joinWords hword⟩⟩
  intro hnil
  rw [heard, hnil] at hnonempty
  exact hnonempty rfl

/-! ## Hits in one list -/

section

variable {floor inventory items : List Item} {holder : Holder} {phrase : String}

/-- The items of a list that have the whole phrase as an alias, with their places. -/
def exactHits (holder : Holder) (items : List Item) (phrase : String) : List Located :=
  (locate holder items).filter (·.item.matchesAlias (phraseWords phrase))

/-- The items of a list whose aliases hold each word of the phrase, with their places. -/
def wordHits (holder : Holder) (items : List Item) (phrase : String) : List Located :=
  (locate holder items).filter (·.item.matchesWords (phraseWords phrase))

theorem exactHits_sublist (holder : Holder) (items : List Item) (phrase : String) :
    (exactHits holder items phrase).Sublist (wordHits holder items phrase) := by
  refine List.monotone_filter_right _ ?_
  intro l hl
  exact Item.matchesWords_iff.mpr (Item.Fits.of_alias hl)

/-- In the scope of one holder the hits are those in its list. -/
theorem hits_scope (floor inventory : List Item) (holder : Holder) (phrase : String) :
    hits floor inventory holder.scope phrase =
      wordHits holder (holder.items floor inventory) phrase := by
  rw [hits, candidates_eq, holders_scope, List.flatMap_singleton, wordHits]

theorem exactHits_eq_nil_of_no_alias (h : ∀ item ∈ items, heard phrase ∉ item.aliases) :
    exactHits holder items phrase = [] := by
  refine List.filter_eq_nil_iff.mpr ?_
  intro l hl hmatches
  have hitem := List.mem_of_getElem? (mem_locate_iff.mp hl).2
  exact h l.item hitem (matchesAlias_iff.mp hmatches).2

theorem exactHits_eq_nil_iff (hheard : heard phrase ≠ "") (holder : Holder) :
    exactHits holder items phrase = [] ↔ ∀ item ∈ items, heard phrase ∉ item.aliases := by
  refine ⟨fun hnil item hitem halias => ?_, exactHits_eq_nil_of_no_alias⟩
  obtain ⟨index, hindex⟩ := List.mem_iff_getElem?.mp hitem
  exact List.filter_eq_nil_iff.mp hnil ⟨holder, index, item⟩ (mem_locate_iff.mpr ⟨rfl, hindex⟩)
    (matchesAlias_iff.mpr ⟨hheard, halias⟩)

/-- The exact way, by the hits of both. -/
theorem resolveExact_eq_ofHits (holder : Holder) (items : List Item) (phrase : String) :
    resolveExact holder items phrase =
      match Resolution.ofHits (exactHits holder items phrase) with
      | .notFound =>
        match Resolution.ofHits (wordHits holder items phrase) with
        | .ambiguous items => .ambiguous items
        | _ => .notFound
      | resolution => resolution := rfl

/-- The exact way gives up when it has no hit and the other way has one at most. -/
theorem resolveExact_eq_notFound_iff : resolveExact holder items phrase = .notFound ↔
    exactHits holder items phrase = [] ∧ (wordHits holder items phrase).length ≤ 1 := by
  rw [resolveExact_eq_ofHits]
  match exactHits holder items phrase with
  | [] =>
    match wordHits holder items phrase with
    | [] => simp [Resolution.ofHits]
    | [hit] => simp [Resolution.ofHits]
    | _ :: _ :: _ => simp [Resolution.ofHits]
  | [hit] => simp [Resolution.ofHits]
  | _ :: _ :: _ => simp [Resolution.ofHits]

theorem resolveExact_eq_found_iff_hits {l : Located} :
    resolveExact holder items phrase = .found l ↔ exactHits holder items phrase = [l] := by
  rw [resolveExact_eq_found_iff, exactHits, filter_eq_singleton_iff (nodup_locate holder items)]

/-- The exact way is ambiguous when it has several hits, or has none and the other way has several.
-/
theorem resolveExact_eq_ambiguous_iff {listed : List Item} :
    resolveExact holder items phrase = .ambiguous listed ↔
      (2 ≤ (exactHits holder items phrase).length ∧
        listed = Resolution.sortByName ((exactHits holder items phrase).map (·.item))) ∨
      (exactHits holder items phrase = [] ∧ 2 ≤ (wordHits holder items phrase).length ∧
        listed = Resolution.sortByName ((wordHits holder items phrase).map (·.item))) := by
  rw [resolveExact_eq_ofHits]
  match exactHits holder items phrase with
  | [] =>
    match wordHits holder items phrase with
    | [] => simp [Resolution.ofHits]
    | [hit] => simp [Resolution.ofHits]
    | _ :: _ :: _ => simp [Resolution.ofHits, eq_comm]
  | [hit] => simp [Resolution.ofHits]
  | _ :: _ :: _ => simp [Resolution.ofHits, eq_comm]

end

/-! ## The two ways side by side -/

/-- A hit is found, or it is one of those to choose from. -/
theorem Resolution.ofHits_of_mem {hits : List Located} {l : Located} (h : l ∈ hits) :
    ofHits hits = .found l ∨ ∃ listed, ofHits hits = .ambiguous listed ∧ l.item ∈ listed := by
  by_cases hlength : 2 ≤ hits.length
  · refine Or.inr ⟨_, ofHits_eq_ambiguous_iff.mpr ⟨hlength, rfl⟩, ?_⟩
    exact (sortedByName_sortByName _).perm.mem_iff.mpr (List.mem_map_of_mem h)
  · have hpos := List.length_pos_of_mem h
    obtain ⟨other, rfl⟩ := List.length_eq_one_iff.mp (show hits.length = 1 by omega)
    obtain rfl := List.mem_singleton.mp h
    exact Or.inl rfl

/-- What is found as a whole is the only item with what is heard of the phrase as an alias. -/
theorem only_of_resolveExact {holder : Holder} {items : List Item} {phrase : String} {l : Located}
    (h : resolveExact holder items phrase = .found l) :
    items[l.index]? = some l.item ∧ heard phrase ∈ l.item.aliases ∧
      ∀ i other, items[i]? = some other → heard phrase ∈ other.aliases → i = l.index := by
  obtain ⟨⟨hlies, hmatches⟩, honly⟩ := resolveExact_eq_found_iff.mp h
  obtain ⟨hnonempty, halias⟩ := matchesAlias_iff.mp hmatches
  refine ⟨(mem_locate_iff.mp hlies).2, halias, ?_⟩
  intro i other hother hsame
  have hplace := honly ⟨holder, i, other⟩ (mem_locate_iff.mpr ⟨rfl, hother⟩)
    (matchesAlias_iff.mpr ⟨hnonempty, hsame⟩)
  exact congrArg Located.index hplace

/-- The only item with what is heard of a phrase as an alias is found as a whole. -/
theorem resolveExact_of_alias (holder : Holder) {items : List Item} {phrase : String} {index : Nat}
    {item : Item} (hitem : items[index]? = some item) (hnonempty : heard phrase ≠ "")
    (halias : heard phrase ∈ item.aliases)
    (hunique : ∀ i other, items[i]? = some other → heard phrase ∈ other.aliases → i = index) :
    resolveExact holder items phrase = .found ⟨holder, index, item⟩ := by
  rw [resolveExact_eq_found_iff]
  refine ⟨⟨mem_locate_iff.mpr ⟨rfl, hitem⟩, matchesAlias_iff.mpr ⟨hnonempty, halias⟩⟩, ?_⟩
  rintro ⟨there, i, other⟩ hlies hmatches
  obtain ⟨rfl, hother⟩ := mem_locate_iff.mp hlies
  obtain rfl := hunique i other hother (matchesAlias_iff.mp hmatches).2
  obtain rfl := Option.some.inj (hother.symm.trans hitem)
  rfl

/-- How what a phrase comes to as a whole stands to what it comes to word by word, among the same
items. -/
structure Resolution.Refines (items : List Item) (phrase : String) (exact words : Resolution) :
    Prop where
  /-- An item found as a whole is the only one with what is heard of the phrase as an alias. -/
  only : ∀ l, exact = .found l → items[l.index]? = some l.item ∧ heard phrase ∈ l.item.aliases ∧
    ∀ i other, items[i]? = some other → heard phrase ∈ other.aliases → i = l.index
  /-- Word by word it is found as well, or is one of those to choose from. -/
  among : ∀ l, exact = .found l →
    words = .found l ∨ ∃ listed, words = .ambiguous listed ∧ l.item ∈ listed
  /-- Where there is nothing word by word, there is nothing as a whole. -/
  none : words = .notFound → exact = .notFound
  /-- What is found word by word is found as a whole, or nothing is. -/
  same : ∀ l, words = .found l → exact = .found l ∨ exact = .notFound
  /-- Where there is a choice word by word, the phrase comes to something as a whole. -/
  choice : ∀ listed, words = .ambiguous listed → exact ≠ .notFound
  /-- A choice as a whole is part of the choice word by word. -/
  fewer : ∀ listed chosen, words = .ambiguous listed → exact = .ambiguous chosen → chosen ⊆ listed
  /-- It is the same choice where nothing is matched as a whole. -/
  equal : ∀ listed chosen, words = .ambiguous listed → exact = .ambiguous chosen →
    (∀ item ∈ items, heard phrase ∉ item.aliases) → chosen = listed

/-- **Resolving a phrase as a whole refines resolving it word by word**, in the list of one holder.
-/
theorem exact_refines_words (floor inventory : List Item) (holder : Holder) (phrase : String) :
    Resolution.Refines (holder.items floor inventory) phrase
      (resolveExact holder (holder.items floor inventory) phrase)
      (resolve floor inventory holder.scope phrase) := by
  have hsub := exactHits_sublist holder (holder.items floor inventory) phrase
  have hwords : resolve floor inventory holder.scope phrase =
      .ofHits (wordHits holder (holder.items floor inventory) phrase) := by
    rw [resolve_eq_ofHits, hits_scope]
  rw [hwords]
  generalize hitems : holder.items floor inventory = items at *
  refine ⟨fun l hl => only_of_resolveExact hl, ?_, ?_, ?_, ?_, ?_, ?_⟩
  · intro l hl
    apply Resolution.ofHits_of_mem
    apply hsub.subset
    simp [resolveExact_eq_found_iff_hits.mp hl]
  · intro hnone
    have hnil := Resolution.ofHits_eq_notFound_iff.mp hnone
    rw [hnil] at hsub
    exact resolveExact_eq_notFound_iff.mpr ⟨List.sublist_nil.mp hsub, by simp [hnil]⟩
  · intro l hl
    have hone := Resolution.ofHits_eq_found_iff.mp hl
    rw [hone] at hsub
    rcases List.sublist_singleton.mp hsub with hnil | hsame
    · exact Or.inr (resolveExact_eq_notFound_iff.mpr ⟨hnil, by simp [hone]⟩)
    · exact Or.inl (resolveExact_eq_found_iff_hits.mpr hsame)
  · intro listed hlisted hnone
    have hmany := (Resolution.ofHits_eq_ambiguous_iff.mp hlisted).1
    have hfew := (resolveExact_eq_notFound_iff.mp hnone).2
    omega
  · intro listed chosen hlisted hchosen item hitem
    obtain ⟨-, rfl⟩ := Resolution.ofHits_eq_ambiguous_iff.mp hlisted
    rcases resolveExact_eq_ambiguous_iff.mp hchosen with ⟨-, rfl⟩ | ⟨-, -, rfl⟩
    · have hmem := (sortedByName_sortByName _).perm.mem_iff.mp hitem
      exact (sortedByName_sortByName _).perm.mem_iff.mpr ((hsub.map _).subset hmem)
    · exact hitem
  · intro listed chosen hlisted hchosen hno
    obtain ⟨-, rfl⟩ := Resolution.ofHits_eq_ambiguous_iff.mp hlisted
    rcases resolveExact_eq_ambiguous_iff.mp hchosen with ⟨hmany, -⟩ | ⟨-, -, rfl⟩
    · rw [exactHits_eq_nil_of_no_alias hno] at hmany
      simp at hmany
    · rfl

end Adventure
