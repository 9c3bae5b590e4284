import Adventure.Text.Compare

/-!
# Rules for using one item on another

A rule names an item, a target and the prepositions it is meant for, and says what happens: the
target is unlocked, or a message is shown.

Model of `UseRule` and `UseEffect`.
-/

namespace Adventure

/-- What using an item on a target does. -/
inductive UseEffect
  /-- Unlocks the target and spills what is inside, announced by the text if there is one. -/
  | unlock (text : Option String)
  /-- Shows a text and changes nothing. -/
  | message (text : String)
deriving Repr, DecidableEq

/-- One row of the table that "use" looks up. Names mean names of items, not their aliases. -/
structure UseRule where
  item : String
  target : String
  /-- Without any, every preposition will do. -/
  prepositions : List String
  effect : UseEffect
deriving Repr, DecidableEq

/-- The rule is meant for these names and this preposition, all up to ASCII case
(`UseRule::applies`). -/
def UseRule.applies (rule : UseRule) (item target preposition : String) : Bool :=
  Text.equalsUpToAsciiCase rule.item item && Text.equalsUpToAsciiCase rule.target target &&
    (rule.prepositions.isEmpty ||
      rule.prepositions.any (Text.equalsUpToAsciiCase · preposition))

end Adventure
