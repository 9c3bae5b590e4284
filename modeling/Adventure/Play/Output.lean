import Adventure.Text.Blank
import Adventure.Text.Compare

/-!
# Output

What a command shows is a list of blocks, each a text of some kind. Blank texts never become a
block, and there is at most one line of exits: a later one replaces it and stands last.

Model of `Output` and `OutputBlock`.
-/

namespace Adventure

/-- What a block is for. -/
inductive BlockKind
  /-- The heading of a room. -/
  | title
  | text
  /-- Something that happened because of the command. -/
  | event
  /-- The line of exits. -/
  | exits
deriving Repr, DecidableEq

/-- One piece of what is shown (`OutputBlock`). -/
structure Block where
  kind : BlockKind
  text : String
deriving Repr, DecidableEq

/-- What has been shown, in order. -/
structure Output where
  blocks : List Block
deriving Repr, DecidableEq

namespace Output

/-- Nothing shown. -/
def empty : Output := ⟨[]⟩

/-- Adds a block, unless its text is blank (`push`). -/
def add (kind : BlockKind) (text : String) (output : Output) : Output :=
  if Text.isBlankText text then output else ⟨output.blocks ++ [⟨kind, text⟩]⟩

/-- Adds a heading. -/
def title (output : Output) (text : String) : Output := output.add .title text

/-- Adds a line of text. -/
def say (output : Output) (text : String) : Output := output.add .text text

/-- Adds an event. -/
def event (output : Output) (text : String) : Output := output.add .event text

/-- Puts a line of exits last in place of any earlier one, unless its text is blank
(`set_exits`). -/
def setExits (output : Output) (text : String) : Output :=
  if Text.isBlankText text then output
  else ⟨output.blocks.filter (·.kind != .exits) ++ [⟨.exits, text⟩]⟩

/-- Says several lines in order. -/
def sayAll (output : Output) (lines : List String) : Output :=
  lines.foldl say output

/-- The texts of the blocks. -/
def lines (output : Output) : List String :=
  output.blocks.map (·.text)

/-- Some block holds this text. -/
def contains (output : Output) (part : String) : Bool :=
  output.blocks.any fun block => Text.occursIn part block.text

/-! ## Laws -/

theorem add_of_blank {text : String} (h : Text.isBlankText text = true) (kind : BlockKind)
    (output : Output) : output.add kind text = output := by
  rw [add, if_pos h]

theorem blocks_add_of_not_blank {text : String} (h : Text.isBlankText text = false)
    (kind : BlockKind) (output : Output) :
    (output.add kind text).blocks = output.blocks ++ [⟨kind, text⟩] := by
  rw [add, h]
  rfl

end Output

end Adventure
