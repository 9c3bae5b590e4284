import Adventure.Text.Blank
import Adventure.Text.Lower

/-!
# Items

An item has an id, a name and a description, the lower-cased phrases it answers to, a lock, and the
items inside it. `Item.make` starts an item with its lower-cased name as first alias;
`Item.withAliases` adds more, trimmed and lower-cased, leaving out blank ones and those already
there.

`Item.tree` and `Item.forest` list items with everything inside them, at any depth.

Model of `Item`, with its `with_aliases`, `locked`, `containing`, `is_container` and `holds`, and of
`name_list`.
-/

namespace Adventure

/-- Something that lies in a room, is carried, or sits inside another item. -/
structure Item where
  id : String
  name : String
  desc : String
  aliases : List String
  locked : Bool
  contents : List Item
deriving Repr, BEq, Inhabited

namespace Item

/-- An unlocked item with nothing inside that answers to its name (`Item::new`). -/
def make (id name desc : String) : Item where
  id := id
  name := name
  desc := desc
  aliases := [Text.lower name]
  locked := false
  contents := []

/-- The form in which aliases are kept. -/
def normalAlias (given : String) : String :=
  Text.lower (Text.trim given)

/-- Adds an alias in normal form at the end, unless it is blank or already there. -/
def addAlias (aliases : List String) (given : String) : List String :=
  if (normalAlias given).isEmpty || aliases.contains (normalAlias given) then aliases
  else aliases ++ [normalAlias given]

/-- The item with further aliases (`with_aliases`). -/
def withAliases (item : Item) (aliases : List String) : Item :=
  { item with aliases := aliases.foldl addAlias item.aliases }

/-- The item with its lock set (`locked`). -/
def withLock (item : Item) (locked : Bool) : Item :=
  { item with locked := locked }

/-- The item with further contents, after those it has (`containing`). -/
def withContents (item : Item) (contents : List Item) : Item :=
  { item with contents := item.contents ++ contents }

/-- The item can hold others (`is_container`): it is locked, or something is inside. -/
def isContainer (item : Item) : Bool :=
  item.locked || !item.contents.isEmpty

mutual

/-- The item and everything inside it at any depth, each item before its contents. -/
def tree : Item → List Item
  | ⟨id, name, desc, aliases, locked, contents⟩ =>
    ⟨id, name, desc, aliases, locked, contents⟩ :: forest contents

/-- The items and everything inside them at any depth. -/
def forest : List Item → List Item
  | [] => []
  | item :: rest => item.tree ++ forest rest

end

/-- An item with this id sits somewhere inside. -/
def holds (item : Item) (id : String) : Bool :=
  (forest item.contents).any (·.id == id)

/-! ## Laws -/

theorem tree_eq (item : Item) : item.tree = item :: forest item.contents := by
  cases item
  rfl

@[simp] theorem forest_nil : forest [] = [] := rfl

@[simp] theorem forest_cons (item : Item) (rest : List Item) :
    forest (item :: rest) = item.tree ++ forest rest := rfl

theorem forest_append (l r : List Item) : forest (l ++ r) = forest l ++ forest r := by
  induction l with
  | nil => rfl
  | cons item l ih => simp [ih]

/-- Adding aliases in two rounds is adding them in one. -/
theorem withAliases_append (item : Item) (l r : List String) :
    (item.withAliases l).withAliases r = item.withAliases (l ++ r) := by
  simp [withAliases, List.foldl_append]

end Item

/-- The names of the items with commas between them, or the given word when there are none
(`name_list`). -/
def nameList (items : List Item) (none : String) : String :=
  if items.isEmpty then none else ", ".intercalate (items.map (·.name))

end Adventure
