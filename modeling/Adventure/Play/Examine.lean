import Adventure.Play.Resolve
import Adventure.Play.View

/-!
# Looking at rooms and items

Both `look` and `examine` show the current room when nothing is named, and else the item, on the
floor or carried, that the arguments fit. The word "at" in front of the arguments is passed over.

Model of `handle_examine` and `handle_look`.
-/

namespace Adventure

/-- Shows the current room. -/
def lookAround (turn : Turn) : Outcome :=
  match turn.game.currentRoom with
  | .error error => .failed error turn
  | .ok room => .done { turn with output := turn.output.addRoom turn.game.world room }

/-- Shows the item that the arguments fit; without any, the room (`handle_examine`). -/
def examine (command : Command) (turn : Turn) : Outcome :=
  match turn.game.currentRoom with
  | .error error => .failed error turn
  | .ok room =>
    let words := command.args.dropWhile (· == "at")
    if words.isEmpty then
      .done { turn with output := turn.output.addRoom turn.game.world room }
    else
      let phrase := Text.joinWords words
      let resolution := resolve room.items turn.game.player.inventory .everywhere phrase
      match resolution.toExcept phrase .everywhere with
      | .error error => .failed error turn
      | .ok located => .done { turn with output := turn.output.addItem located.item }

/-- Shows the room, or examines what the arguments name (`handle_look`). -/
def look (command : Command) (turn : Turn) : Outcome :=
  if command.args.any (· != "at") then examine command turn else lookAround turn

end Adventure
