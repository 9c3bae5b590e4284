import Adventure.Play.Carry
import Adventure.Play.Examine
import Adventure.Play.Help
import Adventure.Play.Move
import Adventure.Play.Use

/-!
# Verbs

A verb table leads from the first word of a command to one of the eight actions. Several words may
lead to one action, and a word may stand for a verb with its first arguments, as "n" does for "go
north". Registering a word again replaces where it led.

`execute` parses a line and carries it out; an error becomes a line of output.

Model of `Dispatcher`, with its `register`, `register_shortcut`, `dispatch` and `execute`.
-/

namespace Adventure

/-- What a command can do. -/
inductive Action
  | go
  | take
  | drop
  | look
  | examine
  | inventory
  | use
  | help
deriving Repr, DecidableEq

/-- Carries out an action. -/
def Action.run : Action → Command → Turn → Outcome
  | .go => Adventure.go
  | .take => Adventure.take
  | .drop => Adventure.drop
  | .look => Adventure.look
  | .examine => Adventure.examine
  | .inventory => fun _ => Adventure.inventory
  | .use => Adventure.useItem
  | .help => fun _ => Adventure.help

/-- Where a word leads. -/
structure Route where
  /-- The verb that the word stands for. -/
  verb : String
  action : Action
  /-- The arguments that the word itself stands for. -/
  implied : List String
deriving Repr, DecidableEq

/-- The routes by word (`Dispatcher`). -/
abbrev VerbTable := Table String Route

namespace VerbTable

/-- Sets the route of several words. -/
def insertAll (table : VerbTable) (words : List String) (route : Route) : VerbTable :=
  words.foldl (fun table word => table.insert word route) table

/-- Registers a verb and its aliases. -/
def register (table : VerbTable) (verb : String) (aliases : List String) (action : Action) :
    VerbTable :=
  table.insertAll (verb :: aliases) { verb := verb, action := action, implied := [] }

/-- Registers words that stand for a verb with its first arguments (`register_shortcut`). -/
def registerShortcut (table : VerbTable) (words : List String) (verb : String)
    (implied : List String) (action : Action) : VerbTable :=
  table.insertAll words { verb := verb, action := action, implied := implied }

/-- The verbs of the game (`Dispatcher::new`). -/
def standard : VerbTable :=
  let verbs : VerbTable := Table.empty
  let verbs := verbs.register "go" [] .go
  let verbs := verbs.register "take" ["get", "pickup"] .take
  let verbs := verbs.register "drop" [] .drop
  let verbs := verbs.register "look" ["l"] .look
  let verbs := verbs.register "examine" ["x"] .examine
  let verbs := verbs.register "inventory" ["i"] .inventory
  let verbs := verbs.register "use" [] .use
  let verbs := verbs.register "help" ["?"] .help
  let verbs := verbs.registerShortcut ["north", "n"] "go" ["north"] .go
  let verbs := verbs.registerShortcut ["south", "s"] "go" ["south"] .go
  let verbs := verbs.registerShortcut ["east", "e"] "go" ["east"] .go
  verbs.registerShortcut ["west", "w"] "go" ["west"] .go

/-- Carries out a command along the route of its verb. -/
def dispatch (table : VerbTable) (command : Command) (turn : Turn) : Outcome :=
  match table.get? command.verb with
  | none => .failed (.unknownVerb command.verb) turn
  | some route =>
    if route.implied.isEmpty then route.action.run command turn
    else route.action.run (command.withLeadingArgs route.verb route.implied) turn

/-- Parses a line and carries it out. -/
def attempt (table : VerbTable) (line : String) (turn : Turn) : Outcome :=
  match Command.parse line with
  | .error error => .failed error turn
  | .ok command => table.dispatch command turn

/-- Parses a line, carries it out, and says what went wrong if anything did. -/
def execute (table : VerbTable) (line : String) (turn : Turn) : Turn :=
  match table.attempt line turn with
  | .done turn => turn
  | .failed error turn => turn.say error.message

end VerbTable

end Adventure
