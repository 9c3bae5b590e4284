import Adventure.Command.Basic
import Adventure.Play.Output
import Adventure.World.Basic

/-!
# Turns

A turn is the game together with what the current command has shown so far. An action takes a turn
to an outcome: the turn it ends in, and the error if the command is not carried out. A failed action
has a turn too, so that what it leaves behind can be spoken of.

`Outcome.andThen` goes on only after success, and `forEach` does so along a list. `repeatTimes` goes
on for a number of rounds, which is as good as a list of that length (`repeatTimes_eq_forEach`).

Model of `Player` and `current_room`, and of what the handlers of commands are given and give back.
-/

namespace Adventure

/-- Where the player stands and what the player carries. -/
structure Player where
  /-- A key of the rooms. -/
  room : String
  inventory : List Item
deriving Repr, BEq

/-- The state of play. -/
structure Game where
  world : World
  player : Player

namespace Game

/-- The room in which the player stands (`current_room`). -/
def currentRoom (game : Game) : Except CommandError Room :=
  match game.world.room? game.player.room with
  | some room => .ok room
  | none => .error (.missingRoom game.player.room)

/-- The game with other items on the floor of the current room (`current_room_mut`). -/
def withFloor (game : Game) (items : List Item) : Game :=
  { game with world := game.world.withFloor game.player.room items }

/-- The game with other items carried. -/
def withInventory (game : Game) (items : List Item) : Game :=
  { game with player := { game.player with inventory := items } }

end Game

/-- The game, and what the command has shown so far. -/
structure Turn where
  game : Game
  output : Output

/-- The turn with one more line of text. -/
def Turn.say (turn : Turn) (text : String) : Turn :=
  { turn with output := turn.output.say text }

/-- How an action ends. -/
inductive Outcome
  | done (turn : Turn)
  | failed (error : CommandError) (turn : Turn)

namespace Outcome

/-- The turn in which the action ends. -/
def turn : Outcome → Turn
  | .done turn => turn
  | .failed _ turn => turn

/-- The error of a failed action. -/
def error? : Outcome → Option CommandError
  | .done _ => none
  | .failed error _ => some error

/-- Goes on with another action after success. -/
def andThen (outcome : Outcome) (next : Turn → Outcome) : Outcome :=
  match outcome with
  | .done turn => next turn
  | .failed error turn => .failed error turn

end Outcome

/-- Carries out an action for each element in turn, up to the first failure. -/
def forEach {α : Type} (action : α → Turn → Outcome) : List α → Turn → Outcome
  | [], turn => .done turn
  | a :: rest, turn => (action a turn).andThen (forEach action rest)

/-- Carries out an action a number of times, up to the first failure. -/
def repeatTimes (action : Turn → Outcome) : Nat → Turn → Outcome
  | 0, turn => .done turn
  | n + 1, turn => (action turn).andThen (repeatTimes action n)

/-! ## Laws -/

theorem forEach_singleton {α : Type} (action : α → Turn → Outcome) (a : α) (turn : Turn) :
    forEach action [a] turn = action a turn := by
  rw [forEach]
  cases action a turn <;> rfl

/-- A number of rounds is a loop over a list of that length. -/
theorem repeatTimes_eq_forEach (action : Turn → Outcome) (n : Nat) (turn : Turn) :
    repeatTimes action n turn = forEach (fun _ => action) (List.replicate n ()) turn := by
  induction n generalizing turn with
  | zero => rfl
  | succ n ih =>
    rw [repeatTimes, List.replicate_succ, forEach]
    congr 1
    exact funext ih

end Adventure
