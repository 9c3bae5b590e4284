import Adventure.Play.Turn

/-!
# How rooms and items look

`Output.addRoom` shows a room: its name, description, the items on its floor and its exits.
`Output.addItem` shows an item from close up, with its contents unless it is locked.

Model of `render_room`, and of how `handle_examine` shows an item.
-/

namespace Adventure

/-- The line that lists the ways out of a room. -/
def exitsLine (directions : List String) : String :=
  if directions.isEmpty then "Exits: none" else "Exits: " ++ ", ".intercalate directions

namespace Output

/-- Shows a room (`render_room`). -/
def addRoom (output : Output) (world : World) (room : Room) : Output :=
  (((output.title room.name).say (Text.trim room.desc)).say
    ("Items in the room: " ++ nameList room.items "none")).setExits
      (exitsLine (world.exitsFrom room.id))

/-- Shows an item from close up (`handle_examine`). -/
def addItem (output : Output) (item : Item) : Output :=
  let described :=
    if Text.isBlankText item.desc then output.say s!"You see nothing special about the {item.name}."
    else output.say (Text.trim item.desc)
  if item.locked then described.say s!"The {item.name} is locked."
  else if item.isContainer then
    described.say (s!"The {item.name} contains: " ++ nameList item.contents "nothing")
  else described

end Output

end Adventure
