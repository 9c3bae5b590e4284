import Adventure.Session
import Adventure.World.Cave
import Adventure.World.Problem

/-!
# The game on a console

What is printed for a given input. Each block of output is a line; a heading has an empty line
before it, and so has the first event if anything was printed before. The conversation is a prompt
and a reply for each line of input, up to a line that quits, the end of the input, or a line that is
no text.

Model of `flush_output` and of the loop in `main`.
-/

namespace Adventure

namespace Console

/-! ## Printing output -/

/-- The printed form of blocks (`flush_output`). `printed` says that something stands above them,
`events` that there has been an event. -/
def printBlocks (printed events : Bool) : List Block → String
  | [] => ""
  | block :: rest =>
    match block.kind with
    | .title => "\n" ++ block.text ++ "\n" ++ printBlocks true events rest
    | .event =>
      (if printed && !events then "\n" else "") ++ block.text ++ "\n" ++ printBlocks true true rest
    | _ => block.text ++ "\n" ++ printBlocks true events rest

/-- The printed form of what a command shows. -/
def print (output : Output) : String :=
  printBlocks false false output.blocks

/-- Asks for a line. -/
def prompt : String := "\n> "

/-- Ends a conversation whose input has ended. -/
def farewell : String := "\nGoodbye!\n"

/-- What is printed before the first prompt. -/
def greeting (game : Game) : String :=
  print game.opening ++ "\nType 'help' for a list of commands, 'quit' to exit.\n"

/-! ## Conversations -/

/-- What has been printed, and the exit code. -/
structure Transcript where
  stdout : String
  exitCode : Nat
deriving Repr, DecidableEq

/-- The transcript with something printed before it. -/
def Transcript.after (transcript : Transcript) (text : String) : Transcript :=
  { transcript with stdout := text ++ transcript.stdout }

/-- What comes of reading a line. -/
inductive Reading
  | line (text : String)
  /-- What was read is no text. -/
  | garbled
  /-- There is nothing left to read. -/
  | ended

/-- A line that may be no text. -/
def Reading.ofText? : Option String → Reading
  | some text => .line text
  | none => .garbled

/-- What the bytes of a line come to, with those of its end. There are none once the input has
ended. -/
def Reading.ofBytes (bytes : ByteArray) : Reading :=
  if bytes.isEmpty then .ended else .ofText? (String.fromUTF8? bytes)

/-- What is printed in answer to a line, with the exit code if the conversation ends there, and
the game with which it goes on if it does not. -/
structure Exchange where
  printed : Transcript
  next : Option Game

/-- Answers what was read. Every conversation, on a list of lines or on the streams of the program,
is made of these. -/
def exchange (game : Game) : Reading → Exchange
  | .ended => ⟨⟨farewell, 0⟩, none⟩
  | .garbled => ⟨⟨"", 1⟩, none⟩
  | .line text =>
    let reply := game.step text
    ⟨⟨print reply.output, 0⟩, if reply.quit then none else some reply.game⟩

/-- The conversation over lines of input, where `none` is a line that is no text. -/
def converse (game : Game) : List (Option String) → Transcript
  | [] => (exchange game .ended).printed.after prompt
  | line :: rest =>
    let said := exchange game (.ofText? line)
    match said.next with
    | none => said.printed.after prompt
    | some next => (converse next rest).after (prompt ++ said.printed.stdout)

/-- Plays a world from its greeting on. -/
def play (world : World) (lines : List (Option String)) : Transcript :=
  (converse (Game.start world) lines).after (greeting (Game.start world))

/-- Plays a world if it loads. -/
def run (loaded : Except WorldError World) (lines : List (Option String)) : Transcript :=
  match loaded with
  | .error _ => ⟨"", 1⟩
  | .ok world => play world lines

/-- What is logged about a world before it is played. -/
def warnings (loaded : Except WorldError World) : List String :=
  match loaded with
  | .error _ => []
  | .ok world => world.problems.map (·.message)

/-! ## Lines of input -/

/-- The pieces of a list that end with the element given; the last one may lack it. -/
def piecesEndingWith {α : Type} [BEq α] (last : α) : List α → List (List α)
  | [] => []
  | a :: l =>
    if a == last then [a] :: piecesEndingWith last l
    else match piecesEndingWith last l with
      | [] => [[a]]
      | piece :: rest => (a :: piece) :: rest

/-- The lines of a text. -/
def textLines (text : String) : List (Option String) :=
  (piecesEndingWith '\n' text.toList).map fun cs => some (String.ofList cs)

/-- The lines of an input of bytes, each decoded on its own. -/
def byteLines (bytes : ByteArray) : List (Option String) :=
  (piecesEndingWith 10 bytes.toList).map fun line => String.fromUTF8? ⟨line.toArray⟩

end Console

end Adventure
