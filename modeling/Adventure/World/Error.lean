/-!
# Why a world does not load

The faults that keep a text from becoming a world. Faults that a game can be played with are
problems instead (`Adventure.World.Problem`).

Model of `WorldError`.
-/

namespace Adventure

/-- A fault that keeps a world from loading. -/
inductive WorldError
  /-- There is no such file, or its bytes are no text. -/
  | unreadable
  /-- The text is no document, or a field is missing or of the wrong type. -/
  | malformed
  /-- A field that must name something is blank. -/
  | empty (field : String)
  | duplicateRoom (id : String)
  | duplicateItem (id : String)
  | duplicateExit (room direction : String)
  /-- The start location has no known form, or names a room that does not exist. -/
  | badLocation (item location : String)
  /-- The item starts inside one that does not exist. -/
  | missingParent (item parent : String)
  /-- The item is out of reach of all rooms and the inventory. -/
  | containmentCycle (item : String)
  | unknownEffect (item target effect : String)
  /-- The rule is to show a message and has none. -/
  | missingText (item target : String)
deriving Repr, DecidableEq

/-- What is reported about a fault. -/
def WorldError.message : WorldError → String
  | .unreadable => "failed to read world file"
  | .malformed => "failed to parse world file"
  | .empty field => s!"{field} may not be empty"
  | .duplicateRoom id => s!"duplicate room id: {id}"
  | .duplicateItem id => s!"duplicate item id: {id}"
  | .duplicateExit room direction => s!"room '{room}' has more than one exit '{direction}'"
  | .badLocation item location => s!"item '{item}' has an invalid start_location '{location}'"
  | .missingParent item parent => s!"item '{item}' starts inside missing item '{parent}'"
  | .containmentCycle item => s!"item '{item}' is (transitively) contained in itself"
  | .unknownEffect item target effect =>
    s!"use_rule for '{item}' on '{target}' has unknown effect '{effect}'"
  | .missingText item target =>
    s!"use_rule for '{item}' on '{target}' is a message with no text"

end Adventure
