import Adventure.Console

/-!
# The program

Plays the world in the file named by the first argument, or the cave, on the standard streams.
-/

namespace Adventure

/-- The world to play. -/
def chooseWorld (args : List String) : IO (Except WorldError World) :=
  match args with
  | [] => return cave
  | path :: _ =>
    try
      return World.loadBytes (← IO.FS.readBinFile path)
    catch _ =>
      return .error .unreadable

/-- Prints a text at once. -/
def put (text : String) : IO Unit := do
  let stdout ← IO.getStdout
  stdout.putStr text
  stdout.flush

/-- The bytes read so far and those up to the end of the line or of the input. -/
partial def readLineBytes (stdin : IO.FS.Stream) (line : ByteArray) : IO ByteArray := do
  let byte ← stdin.read 1
  let line := line ++ byte
  if byte.isEmpty || byte[0]? == some 10 then return line else readLineBytes stdin line

/-- Has the conversation that `Console.converse` has on a list of lines, with each line read when it
is asked for. -/
partial def answerLines (game : Game) : IO UInt32 := do
  put Console.prompt
  let line ← readLineBytes (← IO.getStdin) .empty
  let said := Console.exchange game (.ofBytes line)
  put said.printed.stdout
  match said.next with
  | none => return said.printed.exitCode.toUInt32
  | some next => answerLines next

end Adventure

open Adventure in
/-- Plays a world. -/
def main (args : List String) : IO UInt32 := do
  match ← chooseWorld args with
  | .error error =>
    IO.eprintln s!"The world does not load: {error.message}"
    return 1
  | .ok world =>
    for problem in Console.warnings (.ok world) do
      IO.eprintln s!"world problem: {problem}"
    put (Console.greeting (Game.start world))
    answerLines (Game.start world)
