import Adventure.Toml.Entries
import Adventure.Toml.Moment
import Adventure.Toml.Number

/-!
# Statements

A document is a sequence of statements, one to a line: the header of a table, the header of an
element of an array of tables, or a key with its value. `readStatements` reads them; what they build
is in `Adventure.Toml.Document`.

The part of `toml::from_str` that reads lines.
-/

namespace Adventure.Toml

/-- One line of a document. -/
inductive Statement
  /-- Opens the table at a path. -/
  | table (path : List String)
  /-- Opens a new element of the array of tables at a path. -/
  | element (path : List String)
  /-- Gives the value at a path within the open table. -/
  | entry (path : List String) (value : Value)
deriving Repr, BEq

/-- How deep values may be nested, and how many keys a path may have. -/
def maxDepth : Nat := 80

/-! ## Keys -/

/-- A character of a key without quotes. -/
def isBareKeyChar (c : Char) : Bool :=
  c.isAlphanum || c == '_' || c == '-'

/-- Reads a key. -/
def key : Reader String := do
  match ← Reader.peek? with
  | some '"' => quotedLine
  | some '\'' => quotedLine
  | _ =>
    let cs ← Reader.takeWhile isBareKeyChar
    guard !cs.isEmpty
    return String.ofList cs

/-- Reads keys with dots between them, at most a given number, and the spaces around each. -/
def dottedKey : Nat → Reader (List String)
  | 0 => failure
  | n + 1 => do
    Reader.spaces
    let first ← key
    Reader.spaces
    if ← Reader.accept '.' then return first :: (← dottedKey n) else return [first]

/-- Reads a path of keys. -/
def path : Reader (List String) :=
  dottedKey maxDepth

/-! ## Values -/

/-- A character of a value without quotes: all but those that have a meaning between values. -/
def isAtomChar (c : Char) : Bool :=
  !(isSpace c || c == '\n' || c == '\r' || c == '#' || c == '=' || c == ',' ||
    c == '[' || c == ']' || c == '\x7b' || c == '\x7d')

/-- The text goes on with a word of a value without quotes. -/
def startsWord (cs : List Char) : Bool :=
  cs.head?.any fun c => isAtomChar c && c != '"' && c != '\'' && c != '.'

/-- The value that an unquoted text writes. -/
def atom? (cs : List Char) : Option Value :=
  if cs == ['t', 'r', 'u', 'e'] then some (.boolean true)
  else if cs == ['f', 'a', 'l', 's', 'e'] then some (.boolean false)
  else if isMoment cs then some .moment
  else number? cs

/-- The unquoted text in front, and what follows it. Words with spaces between them are one text, as
in a date with its time. -/
def splitAtom : List Char → List Char × List Char
  | [] => ([], [])
  | c :: cs =>
    if isAtomChar c || (isSpace c && startsWord (cs.dropWhile isSpace)) then
      match splitAtom cs with
      | (text, rest) => (c :: text, rest)
    else ([], c :: cs)

/-- Reads an unquoted text. -/
def atomText : Reader (List Char) :=
  fun cs => some (splitAtom cs)

/-- Reads a value that holds no others. -/
def scalar : Reader Value := do
  match ← Reader.peek? with
  | some '"' => return .string (← quoted)
  | some '\'' => return .string (← quoted)
  | _ =>
    let some value := atom? (← atomText) | failure
    return value

/-- Reads at most a given number of parts up to a closing character, with commas between them. A
comma may follow the last one. -/
def parts {α : Type} (part : Reader α) (close : Char) : Nat → Reader (List α)
  | 0 => failure
  | n + 1 => do
    Reader.gap
    if ← Reader.accept close then return []
    let first ← part
    Reader.gap
    if ← Reader.accept ',' then return first :: (← parts part close n)
    Reader.expect close
    return [first]

/-- Reads a path and the value that it is given, passing over what may stand on either side of the
equals sign. -/
def assignment (pass : Reader Unit) (value : Reader Value) : Reader (List String × Value) := do
  let keys ← path
  pass
  Reader.expect '='
  pass
  return (keys, ← value)

/-- Reads a value with others nested in it to a given depth. Lines may end between the parts of an
array or an inline table, but not within a path of keys. -/
def value : Nat → Reader Value
  | 0 => scalar
  | depth + 1 => do
    if ← Reader.accept '[' then
      return .array (← parts (value depth) ']' ((← get).length + 1))
    if ← Reader.accept '\x7b' then
      let pairs ← parts (assignment Reader.gap (value depth)) '\x7d' ((← get).length + 1)
      let some entries := defineAll [] pairs | failure
      return .table .inline entries
    scalar

/-! ## Lines -/

/-- Reads a statement. -/
def statement : Reader Statement := do
  if ← Reader.accept '[' then
    if ← Reader.accept '[' then
      let keys ← path
      Reader.expect ']'
      Reader.expect ']'
      return .element keys
    let keys ← path
    Reader.expect ']'
    return .table keys
  let (keys, value) ← assignment Reader.spaces (value maxDepth)
  return .entry keys value

/-- Reads at most a given number of statements up to the end of the text. -/
def statements : Nat → Reader (List Statement)
  | 0 => failure
  | n + 1 => do
    Reader.gap
    if (← Reader.peek?).isNone then return []
    let first ← statement
    Reader.lineEnd
    return first :: (← statements n)

/-- The statements of a text, which may begin with a byte order mark. -/
def readStatements (cs : List Char) : Option (List Statement) :=
  let cs := match cs with
    | '\uFEFF' :: cs => cs
    | cs => cs
  (statements (cs.length + 1) cs).map (·.1)

end Adventure.Toml
