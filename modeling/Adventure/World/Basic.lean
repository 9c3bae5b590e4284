import Adventure.Table
import Adventure.World.Item
import Adventure.World.Rule

/-!
# Worlds

A world is a table of rooms, a table of exits keyed by room and direction, and the rules for using
items. Exits are ordered by room first, so those of one room are neighbours and `World.exitsFrom`
reads them off in one scan.

Model of `World`, `Room` and `ExitKey`.
-/

namespace Adventure

/-- A place with items on its floor. -/
structure Room where
  id : String
  name : String
  desc : String
  items : List Item
deriving Repr, BEq

/-- The near side of an exit. -/
structure ExitKey where
  room : String
  direction : String
deriving Repr, DecidableEq

/-- By room, and by direction within a room. -/
instance : Ord ExitKey :=
  ⟨compareLex (compareOn ExitKey.room) (compareOn ExitKey.direction)⟩

instance : Std.TransOrd ExitKey :=
  inferInstanceAs (Std.TransCmp (compareLex (compareOn ExitKey.room) (compareOn ExitKey.direction)))

instance : Std.LawfulEqOrd ExitKey where
  eq_of_compare {a b} h := by
    obtain ⟨h1, h2⟩ := Ordering.then_eq_eq.mp h
    cases a
    cases b
    exact congr (congrArg ExitKey.mk (Std.LawfulEqCmp.eq_of_compare h1))
      (Std.LawfulEqCmp.eq_of_compare h2)

/-- All there is besides the player. -/
structure World where
  id : String
  name : String
  desc : String
  /-- The key of the room in which play begins. -/
  startRoom : String
  rooms : Table String Room
  /-- Where each exit leads, as a key of the rooms. -/
  exits : Table ExitKey String
  useRules : List UseRule
  /-- What the player carries when play begins. -/
  startingInventory : List Item

namespace World

/-- The room under this key (`World::room`). -/
def room? (world : World) (key : String) : Option Room :=
  world.rooms.get? key

/-- Where the exit in this direction leads (`World::exit`). -/
def exit? (world : World) (room direction : String) : Option String :=
  world.exits.get? ⟨room, direction⟩

/-- The directions that lead out of a room, ascending (`exits_from`). -/
def exitsFrom (world : World) (room : String) : List String :=
  (world.exits.scan ⟨room, ""⟩ fun key => key.room == room).map (·.1.direction)

/-- The first room, by key, with the item of this id on its floor (`room_holding`). -/
def roomHolding? (world : World) (itemId : String) : Option Room :=
  world.rooms.values.find? fun room => room.items.any (·.id == itemId)

/-- What the first rule says that applies to the names and the preposition. -/
def effectOf? (world : World) (item target preposition : String) : Option UseEffect :=
  (world.useRules.find? (·.applies item target preposition)).map (·.effect)

/-- The world with other items on the floor of one room (`World::room_mut`). -/
def withFloor (world : World) (key : String) (items : List Item) : World :=
  { world with rooms := world.rooms.modify key ({ · with items := items }) }

/-! ## Laws -/

theorem room?_withFloor (world : World) (key : String) (items : List Item) (q : String) :
    (world.withFloor key items).room? q =
      if q = key then (world.room? key).map ({ · with items := items }) else world.room? q :=
  world.rooms.get?_modify key _ q

end World

end Adventure
