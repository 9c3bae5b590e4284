import Adventure.Command.Error
import Adventure.Command.Word
import Adventure.Text.Compare
import Adventure.World.Item

/-!
# Which item does a phrase mean?

A phrase is matched against the aliases of the items in a scope, in one of two ways. `resolve` takes
an item when each word of the phrase occurs in some alias. `resolveExact` takes it when the whole
phrase is an alias, and falls back on the first way only to tell "ambiguous" from "not found".

A lone hit is found, and several hits are ambiguous and listed by name.

Model of `resolve` and `resolve_exact`, with `matches_words`, `matches_alias` and `collect`.
-/

namespace Adventure

/-- Where an item lies. -/
inductive Holder
  | room
  | inventory
deriving Repr, DecidableEq

/-- The scope that takes in just this holder. -/
def Holder.scope : Holder → Scope
  | .room => .room
  | .inventory => .inventory

/-- The scope takes in the holder. -/
def Scope.includes (scope : Scope) (holder : Holder) : Bool :=
  scope == .everywhere || scope == holder.scope

/-- An item and its position in the list of its holder. -/
structure Located where
  holder : Holder
  index : Nat
  item : Item
deriving Repr, BEq

/-- What a phrase turns out to mean. -/
inductive Resolution
  | found (located : Located)
  | notFound
  | ambiguous (items : List Item)
deriving Repr, BEq

/-- The words of a phrase without noise (`phrase_words`). -/
def phraseWords (phrase : String) : List String :=
  stripNoise (tokens phrase)

/-- There are words, and each occurs in some alias of the item (`matches_words`). -/
def Item.matchesWords (words : List String) (item : Item) : Bool :=
  !words.isEmpty && words.all fun word => item.aliases.any (Text.occursIn word)

/-- The words joined by spaces are an alias of the item (`matches_alias`). -/
def Item.matchesAlias (words : List String) (item : Item) : Bool :=
  !(Text.joinWords words).isEmpty && item.aliases.contains (Text.joinWords words)

/-- The items of a holder with their positions (`located`). -/
def locate (holder : Holder) (items : List Item) : List Located :=
  items.mapIdx fun index item => ⟨holder, index, item⟩

namespace Resolution

/-- Items by name, those of one name in the order given. -/
def sortByName (items : List Item) : List Item :=
  items.mergeSort fun a b => decide (a.name ≤ b.name)

/-- What a phrase means when these are the items it fits (`collect`). -/
def ofHits : List Located → Resolution
  | [] => .notFound
  | [hit] => .found hit
  | hits => .ambiguous (sortByName (hits.map (·.item)))

/-- The item found, or the reason why there is none (`into_result`). -/
def toExcept (phrase : String) (scope : Scope) : Resolution → Except CommandError Located
  | .found located => .ok located
  | .notFound => .error (.noMatch phrase scope)
  | .ambiguous items => .error (.ambiguous (items.map (·.name)))

end Resolution

/-- The items within a scope: those on the floor, then those carried. -/
def candidates (floor inventory : List Item) (scope : Scope) : List Located :=
  (locate .room floor ++ locate .inventory inventory).filter (scope.includes ·.holder)

/-- The item in the scope whose aliases hold every word of the phrase. -/
def resolve (floor inventory : List Item) (scope : Scope) (phrase : String) : Resolution :=
  .ofHits ((candidates floor inventory scope).filter (·.item.matchesWords (phraseWords phrase)))

/-- The item in one list that has the whole phrase as an alias (`resolve_exact`). -/
def resolveExact (holder : Holder) (items : List Item) (phrase : String) : Resolution :=
  let hits (fits : Item → Bool) := Resolution.ofHits ((locate holder items).filter (fits ·.item))
  match hits (·.matchesAlias (phraseWords phrase)) with
  | .notFound =>
    match hits (·.matchesWords (phraseWords phrase)) with
    | .ambiguous items => .ambiguous items
    | _ => .notFound
  | resolution => resolution

end Adventure
