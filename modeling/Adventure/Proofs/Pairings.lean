import Adventure.Proofs.Faults
import Adventure.Proofs.Parsing
import Mathlib.Data.List.TakeWhile

/-!
# Words that are read as a pairing

Three things keep words from being read as an item, a preposition and a target: that there are fewer
than three, that none is a preposition, and that nothing with a meaning stands on one side of the
first one. The third is all there is to it (`Pairing.ofWords_eq_ok_iff`): where two words with a
meaning have a preposition between them, there are three.

Noise makes no difference, since no preposition is noise. So the pairing is as well read off the
words that have a meaning, which are the item, the preposition and the target in this order
(`Pairing.parts_iff_splits`).

Results:

* `Pairing.ofWords_eq_ok_iff`: the words that are read as a pairing are those with a meaning on both
  sides of their first preposition.
* `pairs_at_first_preposition`: which words are read as a pairing, as which one, and that noise
  among them makes no difference.
-/

namespace Adventure

/-! ## Parting words -/

/-- The words are those of the item, a preposition, which is their first one, and those of the
target; on both sides some word has a meaning. -/
def Pairing.Parts (pairing : Pairing) (words : List String) : Prop :=
  ∃ before after, words = before ++ pairing.preposition :: after ∧
    isPreposition pairing.preposition = true ∧ (∀ word ∈ before, isPreposition word = false) ∧
    pairing.item = stripNoise before ∧ pairing.target = stripNoise after ∧
    pairing.item ≠ [] ∧ pairing.target ≠ []

theorem ne_nil_of_stripNoise {words : List String} (h : stripNoise words ≠ []) : words ≠ [] := by
  rintro rfl
  exact h rfl

/-- **Words are read as a pairing when they part into one.** There are three at least, then. -/
theorem Pairing.ofWords_eq_ok_iff {words : List String} {usage : String} {pairing : Pairing} :
    ofWords words usage = .ok pairing ↔ pairing.Parts words := by
  constructor
  · intro h
    unfold ofWords at h
    split at h
    · cases h
    · split at h
      · cases h
      · rename_i preposition after hafter
        dsimp only at h
        split at h
        · cases h
        · rename_i hempty
          obtain rfl := Except.ok.inj h
          simp only [Bool.or_eq_true, List.isEmpty_iff, not_or] at hempty
          have hpreposition : isPreposition preposition = true := by
            have hhead := List.head?_dropWhile_not (!isPreposition ·) words
            rw [hafter] at hhead
            simpa using hhead
          refine ⟨words.takeWhile (!isPreposition ·), after, ?_, hpreposition, ?_, rfl, rfl, hempty⟩
          · rw [← hafter, List.takeWhile_append_dropWhile]
          · intro word hword
            simpa using List.mem_takeWhile_imp hword
  · rintro ⟨before, after, rfl, hpreposition, hbefore, hitem, htarget, hitemWords, htargetWords⟩
    have hnot : ∀ word ∈ before, (!isPreposition word) = true := by
      intro word hword
      rw [hbefore word hword]
      rfl
    have hlength : ¬ (before ++ pairing.preposition :: after).length < 3 := by
      have hleft := List.length_pos_of_ne_nil (ne_nil_of_stripNoise (hitem ▸ hitemWords))
      have hright := List.length_pos_of_ne_nil (ne_nil_of_stripNoise (htarget ▸ htargetWords))
      simp only [List.length_append, List.length_cons]
      omega
    have hdrop : (before ++ pairing.preposition :: after).dropWhile (!isPreposition ·) =
        pairing.preposition :: after := by
      rw [List.dropWhile_append_of_pos hnot]
      simp [hpreposition]
    have htake :
        (before ++ pairing.preposition :: after).takeWhile (!isPreposition ·) = before := by
      rw [List.takeWhile_append_of_pos hnot]
      simp [hpreposition]
    unfold ofWords
    rw [if_neg hlength, hdrop, htake]
    simp [← hitem, ← htarget, hitemWords, htargetWords]

theorem Pairing.ofWords_eq_error_iff {words : List String} {usage : String} {error : CommandError} :
    ofWords words usage = .error error ↔
      (∀ pairing : Pairing, ¬ pairing.Parts words) ∧ error = .usage usage := by
  constructor
  · intro h
    refine ⟨?_, eq_usage_of_ofWords h⟩
    intro pairing hparts
    rw [ofWords_eq_ok_iff.mpr hparts] at h
    cases h
  · rintro ⟨hnone, rfl⟩
    cases h : ofWords words usage with
    | ok pairing => exact absurd (ofWords_eq_ok_iff.mp h) (hnone pairing)
    | error error => rw [eq_usage_of_ofWords h]

/-! ## Words with a meaning on both sides -/

/-- There is a preposition among the words, and the first one has a word with a meaning before it
and one behind it. -/
def Pairable (words : List String) : Prop :=
  ∃ before preposition after, words = before ++ preposition :: after ∧
    isPreposition preposition = true ∧ (∀ word ∈ before, isPreposition word = false) ∧
    (∃ word ∈ before, isNoise word = false) ∧ ∃ word ∈ after, isNoise word = false

theorem exists_parts_iff {words : List String} :
    (∃ pairing : Pairing, pairing.Parts words) ↔ Pairable words := by
  constructor
  · rintro ⟨pairing, before, after, hwords, hpreposition, hbefore, hitem, htarget, hleft, hright⟩
    rw [hitem] at hleft
    rw [htarget] at hright
    exact ⟨before, pairing.preposition, after, hwords, hpreposition, hbefore,
      stripNoise_ne_nil_iff.mp hleft, stripNoise_ne_nil_iff.mp hright⟩
  · rintro ⟨before, preposition, after, hwords, hpreposition, hbefore, hleft, hright⟩
    exact ⟨⟨stripNoise before, preposition, stripNoise after⟩, before, after, hwords, hpreposition,
      hbefore, rfl, rfl, stripNoise_ne_nil_iff.mpr hleft, stripNoise_ne_nil_iff.mpr hright⟩

/-! ## Noise among the words -/

/-- The words are the item, the preposition and the target once their noise is left out; the
preposition is the first one among them, and neither side is empty. -/
structure Pairing.Splits (pairing : Pairing) (words : List String) : Prop where
  split : pairing.item ++ [pairing.preposition] ++ pairing.target = stripNoise words
  preposition : isPreposition pairing.preposition = true
  first : ∀ word ∈ pairing.item, isPreposition word = false
  meant : ∀ word ∈ pairing.item ++ pairing.target, isNoise word = false
  item : pairing.item ≠ []
  target : pairing.target ≠ []

theorem isPreposition_of_isNoise {word : String} (h : isNoise word = true) :
    isPreposition word = false := by
  cases hpreposition : isPreposition word with
  | false => rfl
  | true => exact absurd (h.symm.trans (isNoise_of_isPreposition hpreposition)) (by simp)

theorem Pairing.Parts.splits {pairing : Pairing} {words : List String} (h : pairing.Parts words) :
    pairing.Splits words := by
  obtain ⟨before, after, rfl, hpreposition, hbefore, hitem, htarget, hleft, hright⟩ := h
  have hkept := stripNoise_cons (isNoise_of_isPreposition hpreposition) after
  refine ⟨?_, hpreposition, ?_, ?_, hleft, hright⟩
  · rw [stripNoise_append, hkept, ← hitem, ← htarget, List.append_assoc, List.singleton_append]
  · intro word hword
    rw [hitem] at hword
    exact hbefore word (mem_stripNoise_iff.mp hword).1
  · rw [hitem, htarget, ← stripNoise_append]
    exact fun word hword => (mem_stripNoise_iff.mp hword).2

/-- What is in front of the preposition is the item and noise, which is no preposition either. -/
theorem Pairing.Splits.parts {pairing : Pairing} {words : List String} (h : pairing.Splits words) :
    pairing.Parts words := by
  have hsplit := h.split
  rw [List.append_assoc, List.singleton_append, eq_comm, stripNoise, List.filter_eq_append_iff]
    at hsplit
  obtain ⟨left, rest, rfl, hitem, hrest⟩ := hsplit
  obtain ⟨noise, after, rfl, hnoise, -, htarget⟩ := List.filter_eq_cons_iff.mp hrest
  have hnone : stripNoise noise = [] := List.filter_eq_nil_iff.mpr hnoise
  refine ⟨left ++ noise, after, ?_, h.preposition, ?_, ?_, htarget.symm, h.item, h.target⟩
  · rw [List.append_assoc]
  · intro word hword
    cases hmeant : isNoise word with
    | true => exact isPreposition_of_isNoise hmeant
    | false =>
      rcases List.mem_append.mp hword with hword | hword
      · exact h.first word (hitem ▸ mem_stripNoise_iff.mpr ⟨hword, hmeant⟩)
      · exact absurd (by rw [hmeant]; rfl) (hnoise word hword)
  · rw [stripNoise_append, hnone, List.append_nil]
    exact hitem.symm

/-- **A pairing is read off the words that have a meaning.** -/
theorem Pairing.parts_iff_splits {pairing : Pairing} {words : List String} :
    pairing.Parts words ↔ pairing.Splits words :=
  ⟨Parts.splits, Splits.parts⟩

theorem Pairing.parts_stripNoise_iff {pairing : Pairing} {words : List String} :
    pairing.Parts (stripNoise words) ↔ pairing.Parts words := by
  have hsplits : pairing.Splits (stripNoise words) ↔ pairing.Splits words :=
    ⟨fun h => ⟨h.split.trans (stripNoise_stripNoise words), h.2, h.3, h.4, h.5, h.6⟩,
      fun h => ⟨h.split.trans (stripNoise_stripNoise words).symm, h.2, h.3, h.4, h.5, h.6⟩⟩
  exact parts_iff_splits.trans (hsplits.trans parts_iff_splits.symm)

theorem Pairing.ofWords_stripNoise (words : List String) (usage : String) :
    ofWords (stripNoise words) usage = ofWords words usage := by
  cases h : ofWords words usage with
  | ok pairing =>
    exact ofWords_eq_ok_iff.mpr (parts_stripNoise_iff.mpr (ofWords_eq_ok_iff.mp h))
  | error error =>
    obtain ⟨hnone, rfl⟩ := ofWords_eq_error_iff.mp h
    exact ofWords_eq_error_iff.mpr
      ⟨fun pairing hparts => hnone pairing (parts_stripNoise_iff.mp hparts), rfl⟩

/-- **Words are parted at their first preposition**, and with or without noise alike. They are read
as a pairing exactly when it has words with a meaning on both sides; the words are too short only if
it has not. And the pairing that is read is the one that the words come to when noise is left
out. -/
theorem pairs_at_first_preposition (words : List String) (usage : String) :
    Pairing.ofWords (stripNoise words) usage = Pairing.ofWords words usage ∧
    ((∃ pairing, Pairing.ofWords words usage = .ok pairing) ↔ Pairable words) ∧
    (∀ error, Pairing.ofWords words usage = .error error ↔
      ¬ Pairable words ∧ error = .usage usage) ∧
    ∀ pairing, Pairing.ofWords words usage = .ok pairing ↔ pairing.Splits words := by
  refine ⟨Pairing.ofWords_stripNoise words usage, ?_, fun error => ?_, fun pairing =>
    Pairing.ofWords_eq_ok_iff.trans Pairing.parts_iff_splits⟩
  · rw [← exists_parts_iff]
    exact exists_congr fun pairing => Pairing.ofWords_eq_ok_iff
  · rw [Pairing.ofWords_eq_error_iff, ← exists_parts_iff, not_exists]

example : Pairing.ofWords ["my", "key", "with", "the", "lid", "on", "chest"] "Use what on what?" =
    .ok ⟨["key"], "with", ["lid", "on", "chest"]⟩ := by decide

/-! ## Hearing the two sides -/

theorem Pairing.Parts.item_subset {pairing : Pairing} {words : List String}
    (h : pairing.Parts words) : pairing.item ⊆ words := by
  obtain ⟨before, after, rfl, -, -, hitem, -, -, -⟩ := h
  rw [hitem]
  exact fun word hword => List.mem_append_left _ (mem_stripNoise_iff.mp hword).1

theorem Pairing.Parts.target_subset {pairing : Pairing} {words : List String}
    (h : pairing.Parts words) : pairing.target ⊆ words := by
  obtain ⟨before, after, rfl, -, -, -, htarget, -, -⟩ := h
  rw [htarget]
  exact fun word hword =>
    List.mem_append_right _ (List.mem_cons_of_mem _ (mem_stripNoise_iff.mp hword).1)

/-- In a command that can be typed, the phrases of a pairing are heard as the words they are made
of. -/
theorem Pairing.Parts.phraseWords_eq {pairing : Pairing} {command : Command}
    (h : pairing.Parts command.args) (htypable : command.Typable) :
    phraseWords pairing.itemPhrase = pairing.item ∧
      phraseWords pairing.targetPhrase = pairing.target :=
  ⟨htypable.phraseWords_eq h.item_subset, htypable.phraseWords_eq h.target_subset⟩

end Adventure
