import Adventure.Proofs.Casing
import Adventure.Text.Compare
import Mathlib.Tactic.ByContra

/-!
# Lower case and ASCII case

Texts are compared in two ways: by their lower case, and up to the case of the letters A to Z.

* Texts that are equal in the second way are equal in the first (`lower_eq_of_equalsUpToAsciiCase`).
  A letter from A to Z counts as cased, and has the same lower case, in either case, so it makes no
  difference to lower such letters beforehand (`lower_asciiLower`).
* The converse fails for capitals beyond Z. It holds of texts without any (`FoldsAsAscii`), and
  wherever the lower case is a word in ASCII without a "k" (`lower_eq_iff_asciiLower_eq`): no other
  character but the Kelvin sign becomes an ASCII letter on its own.
-/

namespace Adventure.Text

/-- The text with the letters A to Z in lower case. -/
def asciiLower (text : String) : String :=
  String.ofList (text.toList.map Char.toLower)

theorem equalsUpToAsciiCase_iff_asciiLower {a b : String} :
    equalsUpToAsciiCase a b = true ↔ asciiLower a = asciiLower b := by
  rw [equalsUpToAsciiCase_iff, asciiLower, asciiLower, String.ofList_inj]

/-! ## Lowering A to Z beforehand -/

theorem toLower_of_not_ascii {c : Char} (h : ¬ c.toNat < 128) : c.toLower = c := by
  refine dif_neg ?_
  rintro ⟨-, hle⟩
  exact h (Nat.lt_of_le_of_lt hle (by decide))

/-- What does not tell the cases of ASCII characters apart does not tell those of any apart. -/
theorem apply_toLower {α : Type} {f : Char → α}
    (h : ∀ code < 128, f (Char.ofNat code).toLower = f (Char.ofNat code)) (c : Char) :
    f c.toLower = f c := by
  by_cases hascii : c.toNat < 128
  · have hcode := h c.toNat hascii
    rwa [Char.ofNat_toNat] at hcode
  · rw [toLower_of_not_ascii hascii]

theorem lowerChar_toLower (c : Char) : lowerChar c.toLower = lowerChar c :=
  apply_toLower (by decide +kernel) c

theorem isCased_toLower (c : Char) : isCased c.toLower = isCased c :=
  apply_toLower (by decide +kernel) c

theorem isCaseIgnorable_toLower (c : Char) : isCaseIgnorable c.toLower = isCaseIgnorable c :=
  apply_toLower (by decide +kernel) c

theorem toLower_eq_sigma_iff (c : Char) : c.toLower = 'Σ' ↔ c = 'Σ' := by
  have hsame := apply_toLower (f := fun c => c == 'Σ') (by decide +kernel) c
  rw [← beq_iff_eq, hsame, beq_iff_eq]

theorem reachesCased_map_toLower (cs : List Char) :
    reachesCased (cs.map Char.toLower) = reachesCased cs := by
  have hdrop : (cs.map Char.toLower).dropWhile isCaseIgnorable =
      (cs.dropWhile isCaseIgnorable).map Char.toLower := by
    rw [List.dropWhile_map]
    exact congrArg _ (congrArg (List.dropWhile · cs) (funext isCaseIgnorable_toLower))
  unfold reachesCased
  rw [hdrop]
  cases cs.dropWhile isCaseIgnorable with
  | nil => rfl
  | cons c _ => exact isCased_toLower c

theorem lowerFrom_map_toLower (before cs : List Char) :
    lowerFrom (before.map Char.toLower) (cs.map Char.toLower) = lowerFrom before cs := by
  induction cs generalizing before with
  | nil => rfl
  | cons c cs ih =>
    have hrest := ih (c :: before)
    rw [List.map_cons] at hrest
    rw [List.map_cons, lowerFrom, lowerFrom, lowerSigma, lowerSigma, reachesCased_map_toLower,
      reachesCased_map_toLower, lowerChar_toLower, hrest]
    simp only [toLower_eq_sigma_iff]

/-- Lowering the letters A to Z beforehand makes no difference. -/
theorem lower_asciiLower (text : String) : lower (asciiLower text) = lower text := by
  rw [lower, asciiLower, String.toList_ofList, lower]
  exact congrArg String.ofList (lowerFrom_map_toLower [] text.toList)

/-- **Texts that are equal up to ASCII case have the same lower case.** -/
theorem lower_eq_of_equalsUpToAsciiCase {a b : String} (h : equalsUpToAsciiCase a b = true) :
    lower a = lower b := by
  rw [← lower_asciiLower a, equalsUpToAsciiCase_iff_asciiLower.mp h, lower_asciiLower]

/-! ## Where the converse holds -/

/-- Lower-casing the text changes no letters but A to Z. -/
def FoldsAsAscii (text : String) : Prop := lower text = asciiLower text

instance (text : String) : Decidable (FoldsAsAscii text) :=
  inferInstanceAs (Decidable (lower text = asciiLower text))

/-- Among texts without capitals beyond Z the two comparisons are one. -/
theorem FoldsAsAscii.equalsUpToAsciiCase_iff {a b : String} (ha : FoldsAsAscii a)
    (hb : FoldsAsAscii b) : equalsUpToAsciiCase a b = true ↔ lower a = lower b := by
  rw [equalsUpToAsciiCase_iff_asciiLower, ha, hb]

/-- An ASCII character other than "k". -/
def IsPlain (c : Char) : Prop := c.toNat < 128 ∧ c ≠ 'k'

instance (c : Char) : Decidable (IsPlain c) := inferInstanceAs (Decidable (c.toNat < 128 ∧ c ≠ 'k'))

/-- Only an ASCII character has plain characters alone for its lower case. -/
theorem ascii_of_plain_lowerChar {c : Char} (h : ∀ d ∈ lowerChar c, IsPlain d) : c.toNat < 128 := by
  by_contra hascii
  by_cases hdotted : c = 'İ'
  · subst hdotted
    have hdot : Char.ofNat 0x307 ∈ lowerChar 'İ' := by decide +kernel
    exact absurd (h _ hdot).1 (by decide)
  · cases hfind : lowerRuns.find? (fun run => run.covers c.toNat) with
    | none =>
      rw [lowerChar_of_no_run hascii hdotted hfind] at h
      exact hascii (h c List.mem_cons_self).1
    | some run =>
      have hrun := List.mem_of_find?_eq_some hfind
      have hcovers : run.covers c.toNat = true :=
        List.find?_some (p := fun run : LowerRun => run.covers c.toNat) hfind
      have hcode := LowerRun.mem_targets hcovers
      have hbounds := bounds_of_mem_targets hcode
      rw [lowerChar_of_run hascii hdotted hfind] at h
      obtain ⟨hplain, hk⟩ := h _ List.mem_cons_self
      rw [toNat_target hrun hcode] at hplain
      rcases (lands_of_mem_lowerRuns run hrun).ascii with hbeyond | ⟨hlow, htop⟩
      · omega
      · have hcode : run.target + (c.toNat - run.first) = 0x6B := by omega
        rw [hcode] at hk
        exact hk rfl

theorem map_toLower_of_plain_lowerFrom {before cs : List Char}
    (h : ∀ d ∈ lowerFrom before cs, IsPlain d) : lowerFrom before cs = cs.map Char.toLower := by
  induction cs generalizing before with
  | nil => rfl
  | cons c cs ih =>
    by_cases hc : c = 'Σ'
    · -- neither of the two sigmas is plain
      rw [lowerFrom, if_pos hc] at h
      have hsigma := h _ List.mem_cons_self
      unfold lowerSigma at hsigma
      split at hsigma
      · exact absurd hsigma (by decide)
      · exact absurd hsigma (by decide)
    · rw [lowerFrom_cons_of_ne hc] at h ⊢
      have hascii : c.toNat < 128 :=
        ascii_of_plain_lowerChar fun d hd => h d (List.mem_append_left _ hd)
      rw [ih fun d hd => h d (List.mem_append_right _ hd), lowerChar, if_pos hascii]
      rfl

/-- **A word in plain characters is the lower case of its ASCII spellings only.** -/
theorem lower_eq_iff_asciiLower_eq {text word : String} (hplain : ∀ c ∈ word.toList, IsPlain c)
    (hlower : lower word = word) : lower text = word ↔ asciiLower text = word := by
  constructor
  · rintro rfl
    rw [lower, String.toList_ofList] at hplain
    exact congrArg String.ofList (map_toLower_of_plain_lowerFrom hplain).symm
  · rintro rfl
    rw [← lower_asciiLower, hlower]

end Adventure.Text
