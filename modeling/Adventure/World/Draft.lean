import Adventure.Toml.Document

/-!
# Drafts of worlds

A draft is what an author writes down: the rooms, items and rules of a world as the entries of a
document, with nothing checked but their types. `Draft.ofText?` reads one.

A record is a table with its fields by name or an array with them in order. Fields that are not
known are ignored, but they are read: a number among them that stands for none is a fault. What
comes after the last field of a record in an array is not read at all.

Model of `WorldFile` and the records that it is made of, as `toml::from_str` fills them.
-/

namespace Adventure

/-- An exit as written (`ExitConfig`). -/
structure ExitEntry where
  direction : String
  target : String
deriving Repr, DecidableEq

/-- A room as written (`RoomConfig`). -/
structure RoomEntry where
  id : String
  name : String
  desc : String
  exits : List ExitEntry
deriving Repr, DecidableEq

/-- An item as written (`ItemConfig`). -/
structure ItemEntry where
  id : String
  name : String
  startLocation : String
  desc : String
  aliases : List String
  locked : Bool
deriving Repr, DecidableEq

/-- A rule as written (`UseRuleConfig`). -/
structure RuleEntry where
  item : String
  target : String
  prepositions : List String
  effect : String
  text : Option String
deriving Repr, DecidableEq

/-- A world as written (`WorldFile`). -/
structure Draft where
  id : String
  name : String
  startRoom : String
  desc : String
  rooms : List RoomEntry
  items : List ItemEntry
  rules : List RuleEntry
deriving Repr, DecidableEq

/-! ## Fields of records -/

namespace Toml.Entries

/-- The entries, as long as the values of all keys but these can be read. -/
def withFields? (names : List String) (entries : Entries) : Option Entries :=
  if entries.all fun e => names.contains e.1 || e.2.isReadable then some entries else none

/-- The decoded value of a field that must be there. -/
def required {α : Type} (entries : Entries) (name : String) (decode : Value → Option α) :
    Option α := do
  decode (← entries.get? name)

/-- The decoded value of a field, or a default where it is missing. -/
def optional {α : Type} (entries : Entries) (name : String) (default : α)
    (decode : Value → Option α) : Option α :=
  match entries.get? name with
  | none => some default
  | some value => decode value

end Toml.Entries

namespace Toml.Value

/-- The text of a string. -/
def string? : Value → Option String
  | .string text => some text
  | _ => none

/-- The value of a boolean. -/
def boolean? : Value → Option Bool
  | .boolean value => some value
  | _ => none

/-- The elements of an array of either kind. -/
def list? : Value → Option (List Value)
  | .array values => some values
  | .tables elements => some (elements.map (.table .header))
  | _ => none

/-- The elements of an array, each decoded. -/
def listOf? {α : Type} (decode : Value → Option α) (value : Value) : Option (List α) := do
  (← value.list?).mapM decode

/-- The fields of a record with these field names. -/
def fields? (names : List String) : Value → Option Entries
  | .table _ entries => Entries.withFields? names entries
  | value => (value.list?).map names.zip

end Toml.Value

/-! ## Reading a draft -/

open Toml (Value Entries)

/-- The exit that a value describes. -/
def ExitEntry.ofValue? (value : Value) : Option ExitEntry := do
  let fields ← value.fields? ["direction", "target"]
  return {
    direction := ← fields.required "direction" Value.string?
    target := ← fields.required "target" Value.string? }

/-- The room that a value describes. -/
def RoomEntry.ofValue? (value : Value) : Option RoomEntry := do
  let fields ← value.fields? ["id", "name", "desc", "exit"]
  return {
    id := ← fields.required "id" Value.string?
    name := ← fields.optional "name" "" Value.string?
    desc := ← fields.optional "desc" "" Value.string?
    exits := ← fields.optional "exit" [] (Value.listOf? ExitEntry.ofValue?) }

/-- The item that a value describes. -/
def ItemEntry.ofValue? (value : Value) : Option ItemEntry := do
  let fields ← value.fields? ["id", "name", "start_location", "desc", "aliases", "locked"]
  return {
    id := ← fields.required "id" Value.string?
    name := ← fields.required "name" Value.string?
    startLocation := ← fields.required "start_location" Value.string?
    desc := ← fields.optional "desc" "" Value.string?
    aliases := ← fields.optional "aliases" [] (Value.listOf? Value.string?)
    locked := ← fields.optional "locked" false Value.boolean? }

/-- The rule that a value describes. -/
def RuleEntry.ofValue? (value : Value) : Option RuleEntry := do
  let fields ← value.fields? ["item", "target", "prepositions", "effect", "text"]
  return {
    item := ← fields.required "item" Value.string?
    target := ← fields.required "target" Value.string?
    prepositions := ← fields.optional "prepositions" [] (Value.listOf? Value.string?)
    effect := ← fields.required "effect" Value.string?
    text := ← fields.optional "text" none (·.string?.map some) }

namespace Draft

/-- The draft that the entries of a document describe. -/
def ofEntries? (document : Entries) : Option Draft := do
  let entries ← document.withFields? ["world", "room", "item", "use_rule"]
  let header ← entries.required "world" (Value.fields? ["id", "name", "start_room", "desc"])
  return {
    id := ← header.required "id" Value.string?
    name := ← header.optional "name" "" Value.string?
    startRoom := ← header.required "start_room" Value.string?
    desc := ← header.optional "desc" "" Value.string?
    rooms := ← entries.optional "room" [] (Value.listOf? RoomEntry.ofValue?)
    items := ← entries.optional "item" [] (Value.listOf? ItemEntry.ofValue?)
    rules := ← entries.optional "use_rule" [] (Value.listOf? RuleEntry.ofValue?) }

/-- The draft that a text describes. -/
def ofText? (text : String) : Option Draft := do
  ofEntries? (← Toml.parse? text)

end Draft

end Adventure
