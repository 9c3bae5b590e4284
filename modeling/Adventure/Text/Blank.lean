import Adventure.Text.Runs

/-!
# Blanks, words and trimming

Blank characters are those with the Unicode property White_Space. Words are the runs between
blanks; trimming drops the blanks at both ends of a text.

Main statements: a text is blank exactly when trimming leaves nothing of it (`trim_eq_empty_iff`). A
text that is not blank does not become so by trimming it or by adding to it (`not_blank_trim`,
`not_blank_append`).
-/

namespace Adventure.Text

/-- A character with the Unicode property White_Space. -/
def isBlank (c : Char) : Bool :=
  ('\t' ≤ c && c ≤ '\r') || c == ' ' || c == '\u0085' || c == '\u00A0' || c == '\u1680' ||
    ('\u2000' ≤ c && c ≤ '\u200A') || c == '\u2028' || c == '\u2029' || c == '\u202F' ||
    c == '\u205F' || c == '\u3000'

/-- The words of a text: its maximal stretches without blanks. -/
def splitWords (text : String) : List String :=
  (runs isBlank text.toList).map String.ofList

/-- The characters without the blanks at both ends. -/
def trimChars (cs : List Char) : List Char :=
  ((cs.dropWhile isBlank).reverse.dropWhile isBlank).reverse

/-- The text without the blanks at both ends. -/
def trim (text : String) : String :=
  String.ofList (trimChars text.toList)

/-- The text holds nothing but blanks, if anything. -/
def isBlankText (text : String) : Bool :=
  text.toList.all isBlank

/-- The words with one space between neighbours. -/
def joinWords (words : List String) : String :=
  " ".intercalate words

/-! ## Laws -/

theorem dropWhile_eq_nil_iff {α : Type} {p : α → Bool} {l : List α} :
    l.dropWhile p = [] ↔ ∀ a ∈ l, p a = true := by
  induction l with
  | nil => simp
  | cons a l ih => cases h : p a <;> simp [h, ih]

/-- Trimming leaves nothing of a text exactly when it is all blanks. -/
theorem trimChars_eq_nil_iff {cs : List Char} :
    trimChars cs = [] ↔ ∀ c ∈ cs, isBlank c = true := by
  unfold trimChars
  rw [List.reverse_eq_nil_iff, dropWhile_eq_nil_iff]
  simp only [List.mem_reverse]
  refine ⟨fun h c hc => ?_, fun h c hc => h c ((List.dropWhile_sublist _).subset hc)⟩
  cases hd : cs.dropWhile isBlank with
  | nil => exact dropWhile_eq_nil_iff.mp hd c hc
  | cons d r =>
    have hb : isBlank d = true := h d (hd ▸ List.mem_cons_self)
    have hne : cs.dropWhile isBlank ≠ [] := by simp [hd]
    have := List.head_dropWhile_not isBlank hne
    simp [hd, hb] at this

theorem trim_eq_empty_iff {text : String} : trim text = "" ↔ isBlankText text = true := by
  unfold trim isBlankText
  rw [List.all_eq_true, ← trimChars_eq_nil_iff]
  constructor
  · intro h
    have := congrArg String.toList h
    simpa using this
  · intro h
    rw [h]

theorem mem_dropWhile_of_not {α : Type} {p : α → Bool} {l : List α} {a : α} (ha : a ∈ l)
    (hp : p a = false) : a ∈ l.dropWhile p := by
  induction l with
  | nil => exact ha
  | cons b l ih =>
    cases hb : p b with
    | false => rwa [List.dropWhile_cons_of_neg (by simp [hb])]
    | true =>
      rw [List.dropWhile_cons_of_pos hb]
      rcases List.mem_cons.mp ha with rfl | ha
      · exact absurd (hp.symm.trans hb) Bool.false_ne_true
      · exact ih ha

theorem isBlankText_eq_false_iff {text : String} :
    isBlankText text = false ↔ ∃ c ∈ text.toList, isBlank c = false := by
  simp [isBlankText]

/-- Trimming leaves all characters that are not blank. -/
theorem not_blank_trim {text : String} (h : isBlankText text = false) :
    isBlankText (trim text) = false := by
  rw [isBlankText_eq_false_iff] at h ⊢
  obtain ⟨c, hc, hblank⟩ := h
  have hleft := List.mem_reverse.mpr (mem_dropWhile_of_not hc hblank)
  have hboth := List.mem_reverse.mpr (mem_dropWhile_of_not hleft hblank)
  refine ⟨c, ?_, hblank⟩
  rw [trim, String.toList_ofList]
  exact hboth

/-- A text with something in front that is not blank is not blank either. -/
theorem not_blank_append {text : String} (h : isBlankText text = false) (rest : String) :
    isBlankText (text ++ rest) = false := by
  rw [isBlankText_eq_false_iff] at h ⊢
  obtain ⟨c, hc, hblank⟩ := h
  rw [String.toList_append]
  exact ⟨c, List.mem_append_left _ hc, hblank⟩

/-- Nor is a text into which something is filled, if it starts with more than blanks. -/
theorem not_blank_filled {text : String} (h : isBlankText text = false) (filling rest : String) :
    isBlankText (text ++ filling ++ rest) = false :=
  not_blank_append (not_blank_append h filling) rest

end Adventure.Text
