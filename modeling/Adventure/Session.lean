import Adventure.Play.Verbs

/-!
# Sessions

A session is a game in play with the standard verbs. It opens with a welcome and the first room, and
answers the player line by line; "quit" or "exit" alone on a line ends it.

Model of `Session`, with `is_quit`.
-/

namespace Adventure

/-- The line asks to end the session (`is_quit`). -/
def isQuit (line : String) : Bool :=
  Text.equalsUpToAsciiCase (Text.trim line) "quit" ||
    Text.equalsUpToAsciiCase (Text.trim line) "exit"

/-- The player at the start of a world, carrying what the world has set aside for that
(`Session::new`). -/
def Game.start (world : World) : Game where
  world := { world with startingInventory := [] }
  player := { room := world.startRoom, inventory := world.startingInventory }

/-- What is shown before the first line (`initialize`). -/
def Game.opening (game : Game) : Output :=
  let name := Text.trim game.world.name
  let welcome := Output.empty.say (if name.isEmpty then "Welcome!" else s!"Welcome to {name}!")
  let described := welcome.say (Text.trim game.world.desc)
  match game.currentRoom with
  | .ok room => described.addRoom game.world room
  | .error error => described.say error.message

/-- The answer to a line. -/
structure Reply where
  game : Game
  output : Output
  quit : Bool

/-- Answers a line (`Session::step`). -/
def Game.step (game : Game) (line : String) : Reply :=
  if isQuit line then { game := game, output := Output.empty.say "Goodbye!", quit := true }
  else
    let turn := VerbTable.standard.execute line { game := game, output := Output.empty }
    { game := turn.game, output := turn.output, quit := false }

/-- The game after a number of lines. -/
def Game.run (game : Game) (lines : List String) : Game :=
  lines.foldl (fun game line => (game.step line).game) game

end Adventure
