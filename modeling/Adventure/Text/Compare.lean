/-!
# Comparing texts

Two comparisons that names and phrases are held against each other with: equality up to the case
of the letters A to Z, and occurrence of one text inside another.

Main statement: `occursIn` decides the infix relation on characters (`occursIn_iff`).
-/

namespace Adventure.Text

/-- Equal up to the case of the letters A to Z. -/
def equalsUpToAsciiCase (a b : String) : Bool :=
  a.toList.map Char.toLower == b.toList.map Char.toLower

/-- The first list is a contiguous part of the second. -/
def isPartOf {α : Type} [BEq α] (part : List α) : List α → Bool
  | [] => part.isEmpty
  | a :: l => part.isPrefixOf (a :: l) || isPartOf part l

/-- The first text stands somewhere in the second. -/
def occursIn (part text : String) : Bool :=
  isPartOf part.toList text.toList

/-! ## Laws -/

theorem equalsUpToAsciiCase_iff {a b : String} :
    equalsUpToAsciiCase a b = true ↔ a.toList.map Char.toLower = b.toList.map Char.toLower := by
  simp [equalsUpToAsciiCase]

theorem isPartOf_iff {α : Type} [BEq α] [LawfulBEq α] {part l : List α} :
    isPartOf part l = true ↔ part <:+: l := by
  induction l with
  | nil => simp [isPartOf]
  | cons a l ih =>
    rw [isPartOf, Bool.or_eq_true, ih, List.isPrefixOf_iff_prefix, List.infix_cons_iff]

/-- Occurring means being an infix of the characters. -/
theorem occursIn_iff {part text : String} :
    occursIn part text = true ↔ part.toList <:+: text.toList :=
  isPartOf_iff

end Adventure.Text
