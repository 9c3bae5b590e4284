/-!
# Why a command fails

The causes for which a command is not carried out, and what the player is told about each.

Model of `CommandError`.
-/

namespace Adventure

/-- Where items are looked for: on the floor, among what the player carries, or in both. -/
inductive Scope
  | room
  | inventory
  | everywhere
deriving Repr, DecidableEq

/-- The cause for which a command is not carried out. -/
inductive CommandError
  /-- The line holds no verb. -/
  | emptyCommand
  /-- No route leads from this word. -/
  | unknownVerb (verb : String)
  /-- The verb needs an object; the text asks for it. -/
  | missingArgument (question : String)
  /-- The objects do not have the form that the text explains. -/
  | usage (text : String)
  /-- No exit leads that way. -/
  | noExit
  /-- Nothing in the scope answers to the phrase. -/
  | noMatch (phrase : String) (scope : Scope)
  /-- Several items answer to the phrase. -/
  | ambiguous (names : List String)
  /-- The command makes no sense now, for the reason given. -/
  | refused (reason : String)
  /-- The room is not part of the world. -/
  | missingRoom (room : String)
  /-- The list of items ends before this position. -/
  | noItemAt (index : Nat)
deriving Repr, DecidableEq

/-- What the player is told when a phrase fits nothing in the scope (`no_match`). -/
def Scope.noMatchMessage (phrase : String) : Scope → String
  | .inventory => s!"You don't have the {phrase}."
  | .room => s!"There is no {phrase} here."
  | .everywhere => s!"There is no {phrase} here or in your inventory."

/-- What the player is told about a failed command. -/
def CommandError.message : CommandError → String
  | .emptyCommand => "Please enter a command."
  | .unknownVerb verb => s!"I don't know how to {verb}."
  | .missingArgument question => question
  | .usage text => text
  | .noExit => "You can't go that way!"
  | .noMatch phrase scope => scope.noMatchMessage phrase
  | .ambiguous names => "Which do you mean, the " ++ " or the ".intercalate names ++ "?"
  | .refused reason => reason
  | .missingRoom room => s!"Error: destination room '{room}' not found in map data."
  | .noItemAt index => s!"There is nothing at position {index}."

end Adventure
