import Adventure.World.Basic
import Adventure.World.Draft
import Adventure.World.Error

/-!
# From a draft to a world

Loading checks a draft and builds the world it describes. Rooms come first, with their exits in one
table. Items are declared one by one, each with its start location; those that start in a room or in
the inventory are roots, and `assemble` takes each root out of the pool of declared items and puts
inside it, at every depth, the items that start there. What is left in the pool afterwards can be
reached from no root, so it hangs on a cycle. Rules come last.

The first fault in this order is the one reported.

Model of `load_world_from_str`, with `parse_location` and `assemble`.
-/

namespace Adventure

/-- Fails with the error unless the condition holds. -/
def require (condition : Bool) (error : WorldError) : Except WorldError Unit :=
  if condition then .ok () else .error error

/-! ## Rooms and exits -/

/-- The rooms and exits of a world. -/
structure RoomMap where
  rooms : Table String Room
  exits : Table ExitKey String

namespace RoomMap

/-- No rooms and no exits. -/
def empty : RoomMap := ⟨Table.empty, Table.empty⟩

/-- The form in which directions are kept. -/
def normalDirection (direction : String) : String :=
  Text.lower (Text.trim direction)

/-- Adds an exit of a room, unless there is one in that direction. -/
def addExit (room : String) (map : RoomMap) (entry : ExitEntry) : Except WorldError RoomMap := do
  let key : ExitKey := ⟨room, normalDirection entry.direction⟩
  require (!map.exits.contains key) (.duplicateExit room key.direction)
  return { map with exits := map.exits.insert key entry.target }

/-- Adds a room with its exits, unless there is one of that id. A room without a name is called by
its id. -/
def addRoom (map : RoomMap) (entry : RoomEntry) : Except WorldError RoomMap := do
  require (!map.rooms.contains entry.id) (.duplicateRoom entry.id)
  let map ← entry.exits.foldlM (addExit entry.id) map
  let name := if Text.isBlankText entry.name then entry.id else entry.name
  let room : Room := { id := entry.id, name := name, desc := entry.desc, items := [] }
  return { map with rooms := map.rooms.insert entry.id room }

end RoomMap

/-! ## Items and where they start -/

/-- Where an item starts. -/
inductive StartLocation
  | room (id : String)
  | inventory
  | item (id : String)
deriving Repr, DecidableEq

/-- Reads a start location (`parse_location`): "inventory", or "room:" or "item:" with an id. -/
def StartLocation.ofText? (text : String) : Option StartLocation :=
  if Text.equalsUpToAsciiCase text "inventory" then some .inventory
  else
    let kind := Text.trim (String.ofList (text.toList.takeWhile (· != ':')))
    match text.toList.dropWhile (· != ':') with
    | [] => none
    | _ :: cs =>
      let id := Text.trim (String.ofList cs)
      if id.isEmpty then none
      else if kind == "room" then some (.room id)
      else if kind == "item" then some (.item id)
      else none

/-- An item that starts somewhere, with nothing inside yet. -/
structure Declared where
  item : Item
  location : StartLocation
deriving Repr, BEq

/-- The item that an entry declares. -/
def ItemEntry.declare (entry : ItemEntry) : Except WorldError Declared :=
  match StartLocation.ofText? (Text.trim entry.startLocation) with
  | none => .error (.badLocation entry.id (Text.trim entry.startLocation))
  | some location => .ok {
      item := ((Item.make entry.id entry.name entry.desc).withAliases entry.aliases).withLock
        entry.locked
      location := location }

/-- The declared items, whose ids must differ from each other and from those already seen. -/
def declareItems (seen : List String) : List ItemEntry → Except WorldError (List Declared)
  | [] => .ok []
  | entry :: rest => do
    require (!seen.contains entry.id) (.duplicateItem entry.id)
    let declared ← entry.declare
    let others ← declareItems (entry.id :: seen) rest
    return declared :: others

/-- Fails if the item starts inside one that is not declared. -/
def checkParent (declared : List Declared) (child : Declared) : Except WorldError Unit :=
  match child.location with
  | .item parent =>
    require (declared.any (·.item.id == parent)) (.missingParent child.item.id parent)
  | _ => .ok ()

/-- The ids of the items that start directly inside the one of this id, in order. -/
def childrenOf (declared : List Declared) (id : String) : List String :=
  (declared.filter (·.location == .item id)).map (·.item.id)

/-! ## Assembling what belongs together -/

/-- Items by id that are not yet in place. -/
abbrev Pool := Table String Item

/-- The pool of all declared items. -/
def poolOf (declared : List Declared) : Pool :=
  declared.foldl (fun pool child => pool.insert child.item.id child.item) Table.empty

/-- Takes items out of the pool one after another. -/
def takeEach (takeOne : String → Pool → Except WorldError (Item × Pool)) :
    List String → Pool → Except WorldError (List Item × Pool)
  | [], pool => .ok ([], pool)
  | id :: ids, pool => do
    let (item, pool) ← takeOne id pool
    let (items, pool) ← takeEach takeOne ids pool
    return (item :: items, pool)

/-- Takes an item out of the pool with all that starts inside it, to a given depth. -/
def assembleWithin (children : String → List String) :
    Nat → String → Pool → Except WorldError (Item × Pool)
  | 0, id, _ => .error (.containmentCycle id)
  | depth + 1, id, pool =>
    match pool.get? id with
    | none => .error (.containmentCycle id)
    | some item => do
      let (contents, pool) ←
        takeEach (assembleWithin children depth) (children id) (pool.erase id)
      return (item.withContents contents, pool)

/-- Takes an item out of the pool with all that starts inside it. Each step down takes an item out,
so the size of the pool bounds the depth. -/
def assemble (children : String → List String) (id : String) (pool : Pool) :
    Except WorldError (Item × Pool) :=
  assembleWithin children pool.size id pool

/-- What has been put in place so far. -/
structure Placement where
  pool : Pool
  rooms : Table String Room
  inventory : List Item

/-- Assembles an item that starts in a room or in the inventory and puts it there. -/
def place (children : String → List String) (placement : Placement) (declared : Declared) :
    Except WorldError Placement :=
  match declared.location with
  | .item _ => .ok placement
  | .room key => do
    let (item, pool) ← assemble children declared.item.id placement.pool
    require (placement.rooms.contains key) (.badLocation declared.item.id s!"room:{key}")
    return { placement with
      pool := pool
      rooms := placement.rooms.modify key fun room => { room with items := room.items ++ [item] } }
  | .inventory => do
    let (item, pool) ← assemble children declared.item.id placement.pool
    return { placement with pool := pool, inventory := placement.inventory ++ [item] }

/-- Fails if an item is left that was never put in place; the first by id is named. -/
def checkEmpty (pool : Pool) : Except WorldError Unit :=
  match pool.keys with
  | [] => .ok ()
  | id :: _ => .error (.containmentCycle id)

/-! ## Rules -/

/-- The rule that an entry describes. -/
def RuleEntry.toRule (entry : RuleEntry) : Except WorldError UseRule := do
  let effectName := Text.lower (Text.trim entry.effect)
  let effect ←
    if effectName == "unlock" then pure (.unlock entry.text)
    else if effectName == "message" then
      match entry.text.filter (!Text.isBlankText ·) with
      | some text => pure (.message text)
      | none => throw (.missingText entry.item entry.target)
    else throw (.unknownEffect entry.item entry.target entry.effect)
  return {
    item := entry.item
    target := entry.target
    prepositions := entry.prepositions.map fun p => Text.lower (Text.trim p)
    effect := effect }

/-! ## Worlds -/

namespace World

/-- The world that a draft describes: what `load_world_from_str` does once the text is read. -/
def ofDraft (draft : Draft) : Except WorldError World := do
  require (!Text.isBlankText draft.id) (.empty "world.id")
  require (!Text.isBlankText draft.startRoom) (.empty "world.start_room")
  let map ← draft.rooms.foldlM RoomMap.addRoom RoomMap.empty
  let declared ← declareItems [] draft.items
  declared.forM (checkParent declared)
  let placement ← declared.foldlM (place (childrenOf declared))
    { pool := poolOf declared, rooms := map.rooms, inventory := [] }
  checkEmpty placement.pool
  let rules ← draft.rules.mapM RuleEntry.toRule
  return {
    id := draft.id
    name := draft.name
    desc := draft.desc
    startRoom := draft.startRoom
    rooms := placement.rooms
    exits := map.exits
    useRules := rules
    startingInventory := placement.inventory }

/-- The world that a text describes (`load_world_from_str`). -/
def load (text : String) : Except WorldError World :=
  match Draft.ofText? text with
  | none => .error .malformed
  | some draft => ofDraft draft

/-- The world that the bytes of a file describe (`load_world_from_file`). -/
def loadBytes (bytes : ByteArray) : Except WorldError World :=
  match String.fromUTF8? bytes with
  | none => .error .unreadable
  | some text => load text

end World

end Adventure
