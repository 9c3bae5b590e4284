import Adventure.Play.View

/-!
# Going from room to room

`go` follows the exit in the direction that the arguments spell. The room behind the exit is looked
up before the player moves, so a dangling exit leaves the player where they are.

Model of `handle_go`.
-/

namespace Adventure

/-- Follows an exit and shows the room behind it (`handle_go`). -/
def go (command : Command) (turn : Turn) : Outcome :=
  match command.object? with
  | none => .failed (.missingArgument "Go where? (north, south, etc.)") turn
  | some direction =>
    match turn.game.world.exit? turn.game.player.room direction with
    | none => .failed .noExit turn
    | some target =>
      match turn.game.world.room? target with
      | none => .failed (.missingRoom target) turn
      | some room =>
        .done
          { game := { turn.game with player := { turn.game.player with room := target } }
            output := (turn.output.say s!"You go {direction}.").addRoom turn.game.world room }

end Adventure
