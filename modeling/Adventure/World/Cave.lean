import Adventure.World.Load

/-!
# The cave

The world that the game comes with: a cave with a locked chest, and a key to open it.
-/

namespace Adventure

/-- The cave as its author wrote it down, comments and all (`DEFAULT_WORLD`). -/
def caveText : String :=
  r#"[world]
id = "cave"
name = "the Adventure Game"
start_room = "outside"

##############
### ROOMS ###
##############

[[room]]
id = "outside"
name = "Outside the Cave"
desc = "You are standing outside a dark cave entrance."

  [[room.exit]]
  direction = "north"
  target = "cave_entrance"

[[room]]
id = "cave_entrance"
name = "Cave Entrance"
desc = "You are in a dimly lit entrance hall. The air is cold."

  [[room.exit]]
  direction = "south"
  target = "outside"

  [[room.exit]]
  direction = "north"
  target = "treasure_room"

[[room]]
id = "treasure_room"
name = "Treasure Room"
desc = "You have found the legendary treasure room! It's full of gold."

  [[room.exit]]
  direction = "south"
  target = "cave_entrance"

##############
### ITEMS ###
##############

[[item]]
id = "rusty_key"
name = "rusty key"
desc = "A small, rusty iron key."
aliases = ["key", "iron key", "small key", "rusty"]
start_location = "room:cave_entrance"

[[item]]
id = "sword"
name = "sword"
desc = "A sharp, silver sword."
aliases = ["silver sword", "sharp sword"]
start_location = "room:treasure_room"

[[item]]
id = "chest"
name = "chest"
desc = "A heavy iron chest."
aliases = ["iron chest", "heavy chest"]
locked = true
start_location = "room:treasure_room"

[[item]]
id = "golden_key"
name = "golden key"
desc = "A large, shiny golden key."
aliases = ["key", "gold key", "shiny key", "golden"]
start_location = "room:treasure_room"

[[item]]
id = "shield"
name = "shield"
desc = "A sturdy, silver shield."
aliases = ["silver shield", "sturdy shield"]
start_location = "room:treasure_room"

[[item]]
id = "lantern"
name = "lantern"
desc = "A dusty, old lantern."
aliases = ["dusty lantern"]
start_location = "item:chest"

##################
### USE RULES ###
##################

[[use_rule]]
item = "rusty key"
target = "chest"
effect = "unlock"
text = "You unlock the chest with the rusty key. The lid creaks open."

[[use_rule]]
item = "rusty key"
target = "sword"
prepositions = ["on"]
effect = "message"
text = "You use the key on the sword. Nothing happens."
"#

/-- The cave as a world. -/
def cave : Except WorldError World :=
  World.load caveText

end Adventure
