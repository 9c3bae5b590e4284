import Adventure.Play.Turn

/-!
# Help

The verbs and what they are for, in the order in which "help" lists them.

Model of `handle_help`.
-/

namespace Adventure

/-- Each verb with its explanation (`HELP_TABLE`). -/
def helpTable : List (String × String) :=
  [("go", "Move in a direction (e.g., 'go north', 'n')"),
   ("take", "Pick up an item (e.g., 'take key', 'get all')"),
   ("drop", "Put down an item from inventory"),
   ("examine", "Look closely at something (e.g., 'examine chest', 'x key')"),
   ("look", "Look around the room"),
   ("inventory", "Check your inventory (or 'i')"),
   ("use", "Combine items (e.g., 'use key on chest')"),
   ("help", "Display this help message (or '?')"),
   ("quit", "Exit the game (or 'exit')")]

/-- One line of help, the verb padded to ten characters. -/
def helpLine (entry : String × String) : String :=
  "  " ++ entry.1 ++ String.ofList (List.replicate (10 - entry.1.length) ' ') ++ " " ++ entry.2

/-- Shows the verbs (`handle_help`). -/
def help (turn : Turn) : Outcome :=
  .done { turn with
    output := (turn.output.say "Available commands:").sayAll (helpTable.map helpLine) }

end Adventure
