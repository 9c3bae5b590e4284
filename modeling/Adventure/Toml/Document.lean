import Adventure.Toml.Statement

/-!
# Documents

The statements of a text fall into sections: the entries before the first header, and each header
with the entries after it. A section is built as a table of its own and put in its place, so a
document is the fold of its sections (`parseChars?`).

Model of `toml::from_str`, as far as it does not depend on the records that are to be filled.
-/

namespace Adventure.Toml

/-- A header, or none for the start of the document, and the entries after it. -/
structure Section where
  /-- The header opens a new element of an array of tables. -/
  isElement : Bool
  path : List String
  pairs : List (List String × Value)
deriving Repr, BEq

/-- The entries before the first header, and the sections. -/
def sectionsOf : List Statement → List (List String × Value) × List Section
  | [] => ([], [])
  | statement :: rest =>
    match statement, sectionsOf rest with
    | .entry path value, (pairs, sections) => ((path, value) :: pairs, sections)
    | .table path, (pairs, sections) => ([], ⟨false, path, pairs⟩ :: sections)
    | .element path, (pairs, sections) => ([], ⟨true, path, pairs⟩ :: sections)

/-- The value at the end of a section's path once the section is in place. A table that was only
implied so far keeps its entries; any other table stands as it is and cannot be opened again. -/
def Section.build (part : Section) (old : Option Value) : Option Value :=
  if part.isElement then
    match old with
    | none => (defineAll [] part.pairs).map fun entries => .tables [entries]
    | some (.tables elements) =>
      (defineAll [] part.pairs).map fun entries => .tables (elements ++ [entries])
    | _ => none
  else
    match old with
    | none => (defineAll [] part.pairs).map (.table .header)
    | some (.table .implied entries) => (defineAll entries part.pairs).map (.table .header)
    | _ => none

/-- The table that the characters of a text describe. -/
def parseChars? (cs : List Char) : Option Entries := do
  let (pairs, sections) := sectionsOf (← readStatements cs)
  sections.foldlM (fun entries part => changeAt part.build part.path entries)
    (← defineAll [] pairs)

/-- The table that a text describes. -/
def parse? (text : String) : Option Entries :=
  parseChars? text.toList

end Adventure.Toml
