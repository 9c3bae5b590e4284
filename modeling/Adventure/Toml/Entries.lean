import Adventure.Toml.Value

/-!
# The entries of a table

Looking up a key, setting it, and the two ways in which lines of a document reach into tables: by a
dotted key, which opens tables as it goes (`define`), and by a header (`changeAt`).

The part of `toml::from_str` that puts values in place.
-/

namespace Adventure.Toml

/-- Keys and values in the order of their first mention. -/
abbrev Entries := List (String × Value)

/-- The value of a key. -/
def Entries.get? : Entries → String → Option Value
  | [], _ => none
  | (k, v) :: rest, q => if k = q then some v else get? rest q

/-- Sets the value of a key, in place if it is there. -/
def Entries.set : Entries → String → Value → Entries
  | [], k, v => [(k, v)]
  | (k', v') :: rest, k, v => if k' = k then (k, v) :: rest else (k', v') :: set rest k v

/-! ## Dotted keys -/

/-- Sets the value at a path of keys. Tables on the way that do not exist are made; one that exists
may be entered if it was made this way or implied, and may be added to only if it was made this
way. `isOpen` says whether this table itself may be added to. -/
def define (isOpen : Bool) : List String → Value → Entries → Option Entries
  | [], _, _ => none
  | [key], value, entries =>
    if isOpen && (entries.get? key).isNone then some (entries.set key value) else none
  | key :: path, value, entries =>
    match entries.get? key with
    | none =>
      (define true path value []).map fun inner => entries.set key (.table .dotted inner)
    | some (.table .dotted inner) =>
      (define true path value inner).map fun inner => entries.set key (.table .dotted inner)
    | some (.table .implied inner) =>
      (define false path value inner).map fun inner => entries.set key (.table .implied inner)
    | some (.tables elements) =>
      match elements.getLast? with
      | some inner =>
        (define false path value inner).map fun inner =>
          entries.set key (.tables (elements.dropLast ++ [inner]))
      | none => none
    | _ => none

/-- The table that a list of paths with values spells. -/
def defineAll (entries : Entries) (pairs : List (List String × Value)) : Option Entries :=
  pairs.foldlM (fun entries pair => define true pair.1 pair.2 entries) entries

/-! ## Headers -/

/-- Changes the value at the end of a path of keys. Tables on the way that do not exist are made;
the way leads through the last element of an array of tables, and not into inline tables. -/
def changeAt (change : Option Value → Option Value) : List String → Entries → Option Entries
  | [], _ => none
  | [key], entries => (change (entries.get? key)).map (entries.set key)
  | key :: path, entries =>
    match entries.get? key with
    | none => (changeAt change path []).map fun inner => entries.set key (.table .implied inner)
    | some (.table .inline _) => none
    | some (.table origin inner) =>
      (changeAt change path inner).map fun inner => entries.set key (.table origin inner)
    | some (.tables elements) =>
      match elements.getLast? with
      | some inner =>
        (changeAt change path inner).map fun inner =>
          entries.set key (.tables (elements.dropLast ++ [inner]))
      | none => none
    | _ => none

end Adventure.Toml
