import Adventure.Command.Pairing
import Adventure.Play.Resolve
import Adventure.Play.Turn

/-!
# Using one item on another

"use key on chest" looks for the item in the inventory and for the target on the floor; the first
rule of the world that applies to their names says what happens. Unlocking a target clears its lock
and moves everything directly inside it to the end of the floor.

Model of `handle_use` and `unlock`.
-/

namespace Adventure

/-- Explains the form of "use" (`USE_USAGE`). -/
def useUsage : String := "Use what on what? Try 'use [item] on [object]'."

/-- What a use comes to: the item carried, the target on the floor with its position, and the
preposition between them. -/
structure Using where
  item : Item
  preposition : String
  target : Item
  index : Nat
deriving Repr, BEq

/-- Finds the two items that "use" is about. -/
def findUsing (command : Command) (game : Game) : Except CommandError Using := do
  let pairing ← Pairing.ofWords command.args useUsage
  let room ← game.currentRoom
  let item ← (resolve room.items game.player.inventory .inventory pairing.itemPhrase).toExcept
    pairing.itemPhrase .inventory
  let target ← (resolve room.items game.player.inventory .room pairing.targetPhrase).toExcept
    pairing.targetPhrase .room
  return { item := item.item, preposition := pairing.preposition, target := target.item,
           index := target.index }

/-- The item without its lock and without contents. -/
def Item.opened (item : Item) : Item :=
  { item with locked := false, contents := [] }

/-- What is said to have come out of an opened item. -/
def spillMessage (container : Item) : String :=
  if container.contents.isEmpty then s!"The {container.name} is empty."
  else
    s!"Inside the {container.name} you find: " ++ nameList container.contents "nothing" ++
      ". It falls out onto the floor."

/-- Unlocks the item at a position of the floor and spills what is inside (`unlock`). -/
def unlockAt (index : Nat) (keyName : String) (text : Option String) (turn : Turn) : Outcome :=
  match turn.game.currentRoom with
  | .error error => .failed error turn
  | .ok room =>
    match room.items[index]? with
    | none => .failed (.noItemAt index) turn
    | some container =>
      if !container.locked then
        .failed (.refused s!"The {container.name} is already unlocked.") turn
      else
        .done
          { game := turn.game.withFloor
              (room.items.set index container.opened ++ container.contents)
            output := (turn.output.say
              (text.getD s!"You unlock the {container.name} with the {keyName}.")).event
                (spillMessage container) }

/-- Uses the item that the command names on its target (`handle_use`). -/
def useItem (command : Command) (turn : Turn) : Outcome :=
  match findUsing command turn.game with
  | .error error => .failed error turn
  | .ok it =>
    match turn.game.world.effectOf? it.item.name it.target.name it.preposition with
    | some (.unlock text) => unlockAt it.index it.item.name text turn
    | some (.message text) => .done (turn.say text)
    | none =>
      .done (turn.say
        s!"You use the {it.item.name} {it.preposition} the {it.target.name}. It doesn't work.")

end Adventure
