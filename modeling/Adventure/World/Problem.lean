import Adventure.World.Basic

/-!
# Problems of a world

Inconsistencies that do not keep a world from loading: a game can be played with them, and the exit
or rule concerned merely fails when used.

Model of `validate_world`.
-/

namespace Adventure

/-- The place of a name in a rule. -/
inductive RuleRole
  | item
  | target
deriving Repr, DecidableEq

/-- The word for a place in a rule. -/
def RuleRole.word : RuleRole → String
  | .item => "item"
  | .target => "target"

/-- Something in a world that does not fit together (`ValidationError`). -/
inductive Problem
  | noRooms
  | missingStartRoom (room : String)
  /-- The exit leads to a room that does not exist. -/
  | danglingExit (room direction target : String)
  /-- The rule speaks of an item that does not exist. -/
  | unknownName (role : RuleRole) (name : String)
deriving Repr, DecidableEq

/-- What is reported about a problem. -/
def Problem.message : Problem → String
  | .noRooms => "world has no rooms"
  | .missingStartRoom room => s!"start_room '{room}' not found among rooms"
  | .danglingExit room direction target =>
    s!"room '{room}' exit '{direction}' targets missing room '{target}'"
  | .unknownName role name => s!"use_rule {role.word} '{name}' does not name any item"

namespace World

/-- The items on all floors and in the starting inventory, with everything inside them. -/
def allItems (world : World) : List Item :=
  Item.forest (world.rooms.values.flatMap (·.items) ++ world.startingInventory)

/-- Some item has this name, up to case (`collect_names`). -/
def hasItemNamed (world : World) (name : String) : Bool :=
  world.allItems.any fun item => Text.lower item.name == Text.lower name

/-- The problems with the rooms in which play begins. -/
def startProblems (world : World) : List Problem :=
  (if world.rooms.entries.isEmpty then [.noRooms] else []) ++
    (if world.rooms.contains world.startRoom then [] else [.missingStartRoom world.startRoom])

/-- The exits that lead nowhere. -/
def exitProblems (world : World) : List Problem :=
  (world.exits.entries.filter fun exit => !world.rooms.contains exit.2).map fun exit =>
    .danglingExit exit.1.room exit.1.direction exit.2

/-- The names in a rule that no item has. -/
def ruleProblems (world : World) (rule : UseRule) : List Problem :=
  (if world.hasItemNamed rule.item then [] else [.unknownName .item rule.item]) ++
    (if world.hasItemNamed rule.target then [] else [.unknownName .target rule.target])

/-- All problems of a world (`validate_world`). -/
def problems (world : World) : List Problem :=
  world.startProblems ++ world.exitProblems ++ world.useRules.flatMap world.ruleProblems

end World

end Adventure
