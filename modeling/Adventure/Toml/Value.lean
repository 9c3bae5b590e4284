/-!
# Values of a TOML document

A document is a table: a list of keys with values, in the order in which they were first written. A
table remembers how it came to be, since that decides whether later lines may add to it.

Numbers that are no integers and moments in time are told apart but not evaluated. A text may have
the form of a number and yet stand for none; that is no fault of the document as long as nobody asks
for its value (`Value.isReadable`).

The values that `toml::from_str` builds.
-/

namespace Adventure.Toml

/-- How a table came to be. -/
inductive Origin
  /-- By a header of its own. -/
  | header
  /-- On the way to a table with a header. -/
  | implied
  /-- By a dotted key. -/
  | dotted
  /-- Written in braces. -/
  | inline
deriving Repr, DecidableEq

/-- A value of a document. -/
inductive Value
  | string (text : String)
  | integer (value : Int)
  | float
  /-- A text in the form of a number that stands for none: it is out of range, has no digits, or
  holds characters that are no digits of its base. -/
  | noNumber
  | boolean (value : Bool)
  | moment
  | array (values : List Value)
  /-- An array of tables, each begun by a header of its own. -/
  | tables (elements : List (List (String × Value)))
  | table (origin : Origin) (entries : List (String × Value))
deriving Repr, BEq

/-! ## Values that can be read throughout -/

mutual
/-- Every number in the value stands for one. -/
def Value.isReadable : Value → Bool
  | .noNumber => false
  | .array values => areReadable values
  | .tables elements => areReadableTables elements
  | .table _ entries => areReadableEntries entries
  | _ => true

/-- Every number in the values stands for one. -/
def areReadable : List Value → Bool
  | [] => true
  | value :: values => value.isReadable && areReadable values

/-- Every number in the tables stands for one. -/
def areReadableTables : List (List (String × Value)) → Bool
  | [] => true
  | entries :: elements => areReadableEntries entries && areReadableTables elements

/-- Every number in the values of the entries stands for one. -/
def areReadableEntries : List (String × Value) → Bool
  | [] => true
  | (_, value) :: entries => value.isReadable && areReadableEntries entries
end

end Adventure.Toml
