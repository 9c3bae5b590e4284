import Adventure.Command.Basic

/-!
# Two objects and a preposition

"use key on chest" names an item and a target, parted by the first preposition.

Model of `ObjectPhrases` and `split_at_preposition`.
-/

namespace Adventure

/-- The item and the target of a command, and the preposition between them (`ObjectPhrases`). -/
structure Pairing where
  item : List String
  preposition : String
  target : List String
deriving Repr, DecidableEq

namespace Pairing

/-- The words for the item as one text (`item_phrase`). -/
def itemPhrase (pairing : Pairing) : String :=
  Text.joinWords pairing.item

/-- The words for the target as one text (`target_phrase`). -/
def targetPhrase (pairing : Pairing) : String :=
  Text.joinWords pairing.target

/-- Parts words at their first preposition (`split_at_preposition`). Both sides need a word that is
no noise; otherwise the words do not have the form that `usage` explains. -/
def ofWords (words : List String) (usage : String) : Except CommandError Pairing :=
  if words.length < 3 then .error (.usage usage)
  else match words.dropWhile (!isPreposition ·) with
    | [] => .error (.usage usage)
    | preposition :: after =>
      let item := stripNoise (words.takeWhile (!isPreposition ·))
      let target := stripNoise after
      if item.isEmpty || target.isEmpty then .error (.usage usage)
      else .ok { item := item, preposition := preposition, target := target }

end Pairing

end Adventure
