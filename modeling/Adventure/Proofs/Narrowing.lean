import Adventure.Proofs.Phrases
import Adventure.Proofs.Scopes

/-!
# More words, fewer items

Word by word, all that counts of a phrase is which words with a meaning it has: phrases with the
same words fit the same items, and come to the same in every scope (`SameWords.resolve_eq`). Phrases
have the same words exactly when one is the other said differently, in other letters, spacing or
order, with repetitions or with noise (`rephrased_iff_sameWords`).

A phrase with further words fits some of the items that it fitted without them. The hits of the
longer phrase are those of the shorter one under a filter (`hits_of_subset`), and listing by name
goes along with filtering (`sortByName_filter`), so what there is to choose from only gets less. A
phrase without any word with a meaning is the exception: it fits nothing, and longer ones may fit.

Results:

* `more_words_narrow`: phrases with the same words, and phrases with some of the words.
-/

namespace Adventure

/-! ## Phrases with the same words -/

/-- The two phrases have the same words with a meaning, in any order and any number. -/
def SameWords (p q : String) : Prop :=
  ∀ word, word ∈ phraseWords p ↔ word ∈ phraseWords q

instance (p q : String) : Decidable (SameWords p q) :=
  decidable_of_iff (phraseWords p ⊆ phraseWords q ∧ phraseWords q ⊆ phraseWords p)
    ⟨fun h _ => ⟨fun hword => h.1 hword, fun hword => h.2 hword⟩,
      fun h => ⟨fun _ hword => (h _).mp hword, fun _ hword => (h _).mpr hword⟩⟩

/-- The two phrases are one said in different ways: in other letters or spacing, with the parts in
another order or repeated, or with words without a meaning. -/
inductive Rephrased : String → String → Prop
  | lettering {p q : String} (h : Text.lower p = Text.lower q) : Rephrased p q
  | spacing {p q : String} (h : Text.splitWords p = Text.splitWords q) : Rephrased p q
  | order (p q : String) : Rephrased (p ++ " " ++ q) (q ++ " " ++ p)
  | repetition (p : String) : Rephrased (p ++ " " ++ p) p
  | noise {p : String} (h : ∀ word ∈ tokens p, isNoise word = true) (q : String) :
      Rephrased (p ++ " " ++ q) q
  | part {p q : String} (h : Rephrased p q) (rest : String) :
      Rephrased (p ++ " " ++ rest) (q ++ " " ++ rest)
  | symm {p q : String} (h : Rephrased p q) : Rephrased q p
  | trans {p q r : String} (h : Rephrased p q) (h' : Rephrased q r) : Rephrased p r

theorem Rephrased.sameWords {p q : String} (h : Rephrased p q) : SameWords p q := by
  induction h with
  | @lettering p q h =>
    intro word
    rw [phraseWords, phraseWords, ← tokens_lower p, h, tokens_lower]
  | spacing h =>
    intro word
    rw [phraseWords, phraseWords, tokens, tokens, h]
  | order p q =>
    intro word
    rw [phraseWords_space, phraseWords_space, List.mem_append, List.mem_append]
    exact or_comm
  | repetition p =>
    intro word
    rw [phraseWords_space, List.mem_append]
    exact or_self_iff
  | @noise p h q =>
    intro word
    have hnone : phraseWords p = [] := stripNoise_eq_nil_iff.mpr h
    rw [phraseWords_space, hnone, List.nil_append]
  | part h rest ih =>
    intro word
    rw [phraseWords_space, phraseWords_space, List.mem_append, List.mem_append, ih word]
  | symm h ih => exact fun word => (ih word).symm
  | trans h h' ih ih' => exact fun word => (ih word).trans (ih' word)

/-! ### Saying a phrase in another way -/

section

variable {p q : String} {word : String} {words more : List String}

theorem Rephrased.refl (p : String) : Rephrased p p := .spacing rfl

theorem Rephrased.after (h : Rephrased p q) (rest : String) :
    Rephrased (rest ++ " " ++ p) (rest ++ " " ++ q) :=
  .trans (.order rest p) (.trans (.part h rest) (.order q rest))

theorem rephrased_assoc (a b c : String) :
    Rephrased (a ++ " " ++ (b ++ " " ++ c)) (a ++ " " ++ b ++ " " ++ c) := by
  apply Rephrased.spacing
  simp only [Text.splitWords_space, List.append_assoc]

/-- The first word may be put in front of the others with a space. -/
theorem rephrased_joinWords_cons (word : String) (words : List String) :
    Rephrased (Text.joinWords (word :: words)) (word ++ " " ++ Text.joinWords words) := by
  unfold Text.joinWords
  cases words with
  | nil =>
    apply Rephrased.spacing
    rw [String.intercalate_singleton, Text.splitWords_space]
    exact (List.append_nil _).symm
  | cons next words =>
    rw [String.intercalate_cons_cons]
    exact .refl _

/-- A word may be said once more in front. -/
theorem rephrased_of_mem (h : word ∈ words) :
    Rephrased (word ++ " " ++ Text.joinWords words) (Text.joinWords words) := by
  induction words with
  | nil => exact absurd h List.not_mem_nil
  | cons first words ih =>
    have hcons := rephrased_joinWords_cons first words
    refine .trans (.after hcons word) (.trans (rephrased_assoc _ _ _) (.trans ?_ hcons.symm))
    rcases List.mem_cons.mp h with rfl | h
    · exact .part (.repetition word) _
    · -- past the first word, to where it is one of the others
      refine .trans (.part (.order word first) _) (.trans (rephrased_assoc _ _ _).symm ?_)
      exact .after (ih h) first

/-- Any of the words may be said once more in front. -/
theorem rephrased_of_subset (h : more ⊆ words) :
    Rephrased (Text.joinWords more ++ " " ++ Text.joinWords words) (Text.joinWords words) := by
  induction more with
  | nil => exact .noise (fun word hword => absurd hword List.not_mem_nil) _
  | cons first more ih =>
    obtain ⟨hfirst, hmore⟩ := List.cons_subset.mp h
    refine .trans (.part (rephrased_joinWords_cons first more) _) ?_
    refine .trans (rephrased_assoc _ _ _).symm ?_
    exact .trans (.after (ih hmore) first) (rephrased_of_mem hfirst)

/-- Lists of the same words may be said for each other. -/
theorem rephrased_of_mem_iff (h : ∀ word, word ∈ words ↔ word ∈ more) :
    Rephrased (Text.joinWords words) (Text.joinWords more) :=
  .trans (rephrased_of_subset fun word hword => (h word).mpr hword).symm
    (.trans (.order _ _) (rephrased_of_subset fun word hword => (h word).mp hword))

theorem rephrased_stripNoise (htoken : ∀ word ∈ words, tokens word = [word]) :
    Rephrased (Text.joinWords words) (Text.joinWords (stripNoise words)) := by
  induction words with
  | nil => exact .refl _
  | cons first words ih =>
    obtain ⟨hfirst, hwords⟩ := List.forall_mem_cons.mp htoken
    refine .trans (rephrased_joinWords_cons first words) ?_
    rw [stripNoise, List.filter_cons]
    cases hnoise : isNoise first with
    | true =>
      have hall : ∀ word ∈ tokens first, isNoise word = true := by
        rw [hfirst]
        exact List.forall_mem_singleton.mpr hnoise
      exact .trans (.noise hall _) (ih hwords)
    | false => exact .trans (.after (ih hwords) first) (rephrased_joinWords_cons _ _).symm

/-- **What is heard of a phrase is the phrase said in another way.** -/
theorem rephrased_heard (p : String) : Rephrased p (heard p) := by
  have hwords : Text.splitWords (Text.lower p) = Text.splitWords (Text.joinWords (tokens p)) := by
    rw [← tokens_eq]
    refine (cut_joinWords rfl Text.splitWords_space fun word hword => ?_).symm
    rw [tokens_eq] at hword
    exact Text.splitWords_of_mem hword
  refine .trans (.lettering (Text.lower_lower p).symm) (.trans (.spacing hwords) ?_)
  exact rephrased_stripNoise fun word hword => tokens_of_mem hword

/-- **Phrases have the same words when one is the other said in a different way.** -/
theorem rephrased_iff_sameWords : Rephrased p q ↔ SameWords p q := by
  constructor
  · exact Rephrased.sameWords
  · intro h
    exact .trans (rephrased_heard p) (.trans (rephrased_of_mem_iff h) (rephrased_heard q).symm)

end

/-! ## What they fit -/

section

variable {p q : String} {item : Item}

/-- An item that a phrase fits is one that any of its words fit, if there are some. -/
theorem Item.Fits.of_subset (h : item.Fits q) (hnonempty : phraseWords p ≠ [])
    (hsub : phraseWords p ⊆ phraseWords q) : item.Fits p :=
  ⟨hnonempty, fun word hword => h.2 word (hsub hword)⟩

theorem SameWords.fits_iff (h : SameWords p q) : item.Fits p ↔ item.Fits q := by
  have hnil : phraseWords p = [] ↔ phraseWords q = [] := by
    simp only [List.eq_nil_iff_forall_not_mem, h _]
  constructor
  · intro hfits
    exact hfits.of_subset (mt hnil.mpr hfits.1) fun word hword => (h word).mpr hword
  · intro hfits
    exact hfits.of_subset (mt hnil.mp hfits.1) fun word hword => (h word).mp hword

variable {floor inventory : List Item} {scope : Scope}

/-- **Phrases with the same words come to the same.** -/
theorem SameWords.resolve_eq (h : SameWords p q) (floor inventory : List Item) (scope : Scope) :
    resolve floor inventory scope p = resolve floor inventory scope q := by
  have hmatches : ∀ item : Item,
      item.matchesWords (phraseWords p) = item.matchesWords (phraseWords q) := by
    intro item
    rw [Bool.eq_iff_iff, Item.matchesWords_iff, Item.matchesWords_iff, h.fits_iff]
  simp only [resolve, hmatches]

/-- **The hits of a phrase with further words are some of those without them.** -/
theorem hits_of_subset (hnonempty : phraseWords p ≠ []) (hsub : phraseWords p ⊆ phraseWords q) :
    hits floor inventory scope q =
      (hits floor inventory scope p).filter (·.item.matchesWords (phraseWords q)) := by
  rw [hits, hits, List.filter_filter]
  refine List.filter_congr fun l _ => ?_
  rw [Bool.eq_iff_iff, Bool.and_eq_true, Item.matchesWords_iff, Item.matchesWords_iff]
  exact (and_iff_left_of_imp fun hfits => hfits.of_subset hnonempty hsub).symm

end

/-! ## A narrower choice -/

namespace Resolution

/-- Listing by name goes along with leaving items out. -/
theorem sortByName_filter (keep : Item → Bool) (items : List Item) :
    sortByName (items.filter keep) = (sortByName items).filter keep := by
  obtain ⟨hperm, hordered, hstable⟩ := sortedByName_sortByName items
  refine (sortedByName_iff.mp ⟨hperm.filter keep, hordered.filter keep, fun name => ?_⟩).symm
  rw [List.filter_comm, hstable, List.filter_comm]

/-- How what a phrase comes to stands to what it comes to with fewer words. -/
structure Narrows (before after : Resolution) : Prop where
  none : before = .notFound → after = .notFound
  /-- The only item there was is still found, or nothing is. -/
  same : ∀ l, before = .found l → after = .found l ∨ after = .notFound
  /-- Of several items there are none left, one, or some, which are listed in the same order. -/
  fewer : ∀ listed, before = .ambiguous listed → after = .notFound ∨
    (∃ l, after = .found l ∧ l.item ∈ listed) ∨
    ∃ left, after = .ambiguous left ∧ left.Sublist listed

/-- **Leaving out hits narrows what they come to.** -/
theorem narrows_filter (hits : List Located) (keep : Item → Bool) :
    Narrows (ofHits hits) (ofHits (hits.filter (keep ·.item))) := by
  refine ⟨?_, ?_, ?_⟩
  · intro hnone
    rw [ofHits_eq_notFound_iff.mp hnone]
    rfl
  · intro l hl
    rw [ofHits_eq_found_iff.mp hl, List.filter_singleton]
    cases keep l.item with
    | true => exact Or.inl rfl
    | false => exact Or.inr rfl
  · intro listed hlisted
    obtain ⟨-, rfl⟩ := ofHits_eq_ambiguous_iff.mp hlisted
    have hitems : (hits.filter (keep ·.item)).map (·.item) = (hits.map (·.item)).filter keep :=
      List.filter_map.symm
    cases hleft : hits.filter (keep ·.item) with
    | nil => exact Or.inl rfl
    | cons first rest =>
      cases rest with
      | nil =>
        have hfirst : first ∈ hits := List.mem_of_mem_filter (hleft ▸ List.mem_singleton_self first)
        refine Or.inr (Or.inl ⟨first, rfl, ?_⟩)
        exact (sortedByName_sortByName _).perm.mem_iff.mpr (List.mem_map_of_mem hfirst)
      | cons second rest =>
        refine Or.inr (Or.inr ⟨_, rfl, ?_⟩)
        rw [← hleft, hitems, sortByName_filter]
        exact List.filter_sublist

end Resolution

/-- **Word by word, a phrase counts as the set of its words, and the more of them there are, the
fewer items it fits.** Phrases with the same words, which are those that are said in different ways,
come to the same. What a phrase comes to, if it has any words, is only narrowed by further ones:
nothing stays nothing, an item found is found or is not, and of several items there are left none,
one, or part of the same list. -/
theorem more_words_narrow (floor inventory : List Item) (scope : Scope) (p q : String) :
    (Rephrased p q ↔ SameWords p q) ∧
    (SameWords p q → resolve floor inventory scope p = resolve floor inventory scope q) ∧
    (phraseWords p ≠ [] → phraseWords p ⊆ phraseWords q →
      (resolve floor inventory scope p).Narrows (resolve floor inventory scope q)) := by
  refine ⟨rephrased_iff_sameWords, ?_, ?_⟩
  · intro h
    exact h.resolve_eq floor inventory scope
  · intro hnonempty hsub
    rw [resolve_eq_ofHits, resolve_eq_ofHits, hits_of_subset hnonempty hsub]
    exact Resolution.narrows_filter _ fun item => item.matchesWords (phraseWords q)

/-- Two keys. -/
def twoKeys : List Item :=
  [(Item.make "r" "rusty key" "").withAliases ["key", "iron key"],
    (Item.make "g" "golden key" "").withAliases ["key", "gold key"]]

/-- With both on the floor "key" is ambiguous, and with "gold" it finds one of the two; so it does
in any other order, and in capitals. -/
theorem twoKeys_told_apart : ∃ listed l,
    resolve twoKeys [] .everywhere "key" = .ambiguous listed ∧
    phraseWords "key" ≠ [] ∧ phraseWords "key" ⊆ phraseWords "gold key" ∧
    resolve twoKeys [] .everywhere "gold key" = .found l ∧ l.item ∈ listed ∧
    SameWords "gold key" "my KEY and\tGOLD gold" ∧
    resolve twoKeys [] .everywhere "my KEY and\tGOLD gold" = .found l := by
  have hfitting : (Scope.everywhere.fitting twoKeys [] "key").length = 2 ∧
      (Scope.everywhere.fitting twoKeys [] "gold key").length = 1 := by decide
  have hkey :=
    resolve_eq_ambiguous_iff.mpr ⟨Nat.le_of_eq hfitting.1.symm, sortedByName_sortByName _⟩
  obtain ⟨l, hgold⟩ := exists_resolve_eq_found_iff.mpr hfitting.2
  have hwords : phraseWords "key" ≠ [] ∧ phraseWords "key" ⊆ phraseWords "gold key" := by decide
  have hsame : SameWords "gold key" "my KEY and\tGOLD gold" := by decide
  have hnarrows :=
    (more_words_narrow twoKeys [] .everywhere "key" "gold key").2.2 hwords.1 hwords.2
  have hresolve :=
    (more_words_narrow twoKeys [] .everywhere "gold key" "my KEY and\tGOLD gold").2.1 hsame
  refine ⟨_, l, hkey, hwords.1, hwords.2, hgold, ?_, hsame, hresolve ▸ hgold⟩
  rcases hnarrows.fewer _ hkey with hnone | ⟨found, hfound, hlisted⟩ | ⟨left, hleft, -⟩
  · cases hgold.symm.trans hnone
  · obtain rfl := Resolution.found.inj (hgold.symm.trans hfound)
    exact hlisted
  · cases hgold.symm.trans hleft

end Adventure
