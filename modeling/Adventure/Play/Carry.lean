import Adventure.Play.Resolve
import Adventure.Play.Turn

/-!
# Taking and dropping

`take` moves items from the floor of the current room to the inventory, `drop` the other way. Each
item goes from its position in one list to the end of the other (`takeAt`, `dropAt`). Both accept
several phrases, one item each, and "all"; a phrase that fits no item, or several, is reported and
the next one is tried.

Model of `handle_inventory`, `handle_take` and `handle_drop`, with `take_at` and `drop_at`.
-/

namespace Adventure

/-- Lists what the player carries (`handle_inventory`). -/
def inventory (turn : Turn) : Outcome :=
  match turn.game.player.inventory with
  | [] => .done (turn.say "You are carrying nothing.")
  | items =>
    .done { turn with
      output := (turn.output.say "You are carrying:").sayAll
        (items.map fun item => s!"  {item.name}") }

/-- Moves the item at a position of the floor to the inventory (`take_at`). -/
def takeAt (index : Nat) (turn : Turn) : Outcome :=
  match turn.game.currentRoom with
  | .error error => .failed error turn
  | .ok room =>
    match room.items[index]? with
    | none => .failed (.noItemAt index) turn
    | some item =>
      .done
        { game := (turn.game.withFloor (room.items.eraseIdx index)).withInventory
            (turn.game.player.inventory ++ [item])
          output := turn.output.say s!"You take the {item.name}." }

/-- Moves the item at a position of the inventory to the floor (`drop_at`). The room is looked up
first, so nothing gets lost where there is none. -/
def dropAt (index : Nat) (turn : Turn) : Outcome :=
  match turn.game.currentRoom with
  | .error error => .failed error turn
  | .ok room =>
    match turn.game.player.inventory[index]? with
    | none => .failed (.noItemAt index) turn
    | some item =>
      .done
        { game := (turn.game.withInventory (turn.game.player.inventory.eraseIdx index)).withFloor
            (room.items ++ [item])
          output := turn.output.say s!"You drop the {item.name}." }

/-- Takes the item on the floor that a phrase names, or says why there is none. -/
def takePhrase (words : List String) (turn : Turn) : Outcome :=
  match turn.game.currentRoom with
  | .error error => .failed error turn
  | .ok room =>
    let phrase := Text.joinWords words
    match (resolveExact .room room.items phrase).toExcept phrase .room with
    | .ok located => takeAt located.index turn
    | .error error => .done (turn.say error.message)

/-- Drops the item in the inventory that a phrase names, or says why there is none. -/
def dropPhrase (words : List String) (turn : Turn) : Outcome :=
  let phrase := Text.joinWords words
  match (resolveExact .inventory turn.game.player.inventory phrase).toExcept phrase .inventory with
  | .ok located => dropAt located.index turn
  | .error error => .done (turn.say error.message)

/-- Takes what the command names; with nothing named, the only item there is (`handle_take`). -/
def take (command : Command) (turn : Turn) : Outcome :=
  match turn.game.currentRoom with
  | .error error => .failed error turn
  | .ok room =>
    if command.phrases.isEmpty then
      match room.items with
      | [] => .failed (.refused "There is nothing here to take.") turn
      | [_] => takeAt 0 turn
      | _ => .failed (.missingArgument "Take what?") turn
    else if command.isAll then
      if room.items.isEmpty then .failed (.refused "There is nothing here to take.") turn
      else repeatTimes (takeAt 0) room.items.length turn
    else forEach takePhrase command.phrases turn

/-- Drops what the command names (`handle_drop`). -/
def drop (command : Command) (turn : Turn) : Outcome :=
  if command.phrases.isEmpty then .failed (.missingArgument "Drop what?") turn
  else if command.isAll then
    if turn.game.player.inventory.isEmpty then
      .failed (.refused "You aren't carrying anything.") turn
    else repeatTimes (dropAt 0) turn.game.player.inventory.length turn
  else forEach dropPhrase command.phrases turn

end Adventure
