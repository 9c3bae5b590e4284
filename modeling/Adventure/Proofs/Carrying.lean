import Adventure.Proofs.Exactness
import Adventure.Proofs.InTurn

/-!
# Carrying from one holder to the other

Taking carries items from the floor to the inventory, dropping from the inventory to the floor. But
for the direction both are the same, so what is said here of carrying things away from a holder goes
for both. An item goes from its place to the end of the other list, and a line says so
(`carryAt_arranged`); a phrase does this with the item that it finds (`carryPhrase_of_found`).

The game is written as one arranged anew (`Game.arranged`): all that changes is what lies with the
two holders, and what was arranged before does not matter (`Game.arranged_arranged`).

Asking for everything is a loop that looks anew before each round whether there is still something
(`LoopEnds`). It ends, in one way only, with everything at the other holder (`loopEnds_carryAt`), as
do so many rounds counted beforehand (`repeatTimes_carryAt`).

Results:

* `everything_is_carried_over`: what asking for everything comes to, there, and back.
-/

namespace Adventure

/-! ## Two directions -/

namespace Holder

/-- The holder to which items are carried from this one. -/
def other : Holder → Holder
  | .room => .inventory
  | .inventory => .room

/-- The verb for carrying things away from a holder. -/
def verb : Holder → String
  | .room => "take"
  | .inventory => "drop"

/-- The action of this verb. -/
def action : Holder → Action
  | .room => .take
  | .inventory => .drop

/-- Carries the item at a position to the other holder. -/
def carryAt : Holder → Nat → Turn → Outcome
  | .room => takeAt
  | .inventory => dropAt

/-- Carries the item that a phrase names to the other holder. -/
def carryPhrase : Holder → List String → Turn → Outcome
  | .room => takePhrase
  | .inventory => dropPhrase

/-- What is said of an item that is carried away. -/
def carriedLine : Holder → Item → String
  | .room, item => s!"You take the {item.name}."
  | .inventory, item => s!"You drop the {item.name}."

/-- What is answered where there is nothing to carry away. -/
def refusal : Holder → String
  | .room => "There is nothing here to take."
  | .inventory => "You aren't carrying anything."

/-- The items that are left at a holder. -/
def left : Holder → Game → Except CommandError (List Item)
  | .room, game => game.currentRoom.map Room.items
  | .inventory, game => .ok game.player.inventory

theorem goesThrough : ∀ holder : Holder, GoesThrough holder.verb holder.action holder.carryPhrase
  | .room => goesThrough_take
  | .inventory => goesThrough_drop

end Holder

/-- The output with a line for each item that was carried away. -/
def Output.telling (output : Output) (holder : Holder) (items : List Item) : Output :=
  ⟨output.blocks ++ items.map fun item => ⟨.text, holder.carriedLine item⟩⟩

theorem Output.telling_nil (output : Output) (holder : Holder) :
    output.telling holder [] = output :=
  congrArg Output.mk (List.append_nil _)

theorem Output.telling_cons (output : Output) (holder : Holder) (item : Item) (items : List Item) :
    (output.telling holder [item]).telling holder items = output.telling holder (item :: items) :=
  congrArg Output.mk (List.append_assoc ..)

theorem Output.say_carriedLine (output : Output) (holder : Holder) (item : Item) :
    output.say (holder.carriedLine item) = output.telling holder [item] := by
  have hblank : Text.isBlankText (holder.carriedLine item) = false := by
    cases holder <;> exact Text.not_blank_filled (by decide) _ _
  exact congrArg Output.mk (blocks_add_of_not_blank hblank .text output)

/-! ## Arranging things anew -/

/-- The game with these items at a holder and the others at the other one. -/
def Game.arranged (game : Game) (holder : Holder) (items others : List Item) : Game :=
  match holder with
  | .room => (game.withFloor items).withInventory others
  | .inventory => (game.withInventory items).withFloor others

section

variable {game : Game} {room : Room} {holder : Holder} {items others : List Item} {output : Output}

/-- Either holder may be named first. -/
theorem Game.arranged_other (game : Game) (holder : Holder) (items others : List Item) :
    game.arranged holder.other others items = game.arranged holder items others := by
  cases holder <;> rfl

theorem Game.arranged_arranged (game : Game) (holder : Holder)
    (items others items' others' : List Item) :
    (game.arranged holder items others).arranged holder items' others' =
      game.arranged holder items' others' := by
  cases holder with
  | room =>
    have hfloor := congrArg (Game.withInventory · others') (game.withFloor_withFloor items items')
    exact hfloor
  | inventory =>
    have hfloor := (game.withInventory items').withFloor_withFloor others others'
    exact hfloor

/-- A game is arranged as it is. -/
theorem Game.arranged_self (h : game.currentRoom = .ok room) (holder : Holder) :
    game.arranged holder (holder.items room.items game.player.inventory)
      (holder.other.items room.items game.player.inventory) = game := by
  cases holder <;> exact Game.withFloor_self h

theorem left_arranged (h : game.currentRoom = .ok room) (items others : List Item) :
    holder.left (game.arranged holder items others) = .ok items := by
  cases holder with
  | room =>
    have hroom :
        (game.arranged .room items others).currentRoom = .ok { room with items := items } :=
      Game.currentRoom_withFloor h items
    rw [Holder.left, hroom]
    rfl
  | inventory => rfl

/-! ## One item -/

/-- **Carrying away the item at a position** puts it at the end of the other list. -/
theorem carryAt_arranged (h : game.currentRoom = .ok room) {index : Nat} {item : Item}
    (hitem : items[index]? = some item) :
    holder.carryAt index ⟨game.arranged holder items others, output⟩ = .done
      ⟨game.arranged holder (items.eraseIdx index) (others ++ [item]),
        output.telling holder [item]⟩ := by
  rw [← Output.say_carriedLine, ← game.arranged_arranged holder items others (items.eraseIdx index)]
  cases holder with
  | room =>
    have htake := @takeAt_eq ⟨game.arranged .room items others, output⟩ _ _ _
      (Game.currentRoom_withFloor h items) hitem
    exact htake
  | inventory =>
    have hdrop := @dropAt_eq ⟨game.arranged .inventory items others, output⟩ _ _ _
      (Game.currentRoom_withFloor h others) hitem
    exact hdrop

/-- A phrase carries away the item that it finds as a whole, or it is said why there is none. -/
theorem carryPhrase_eq (h : game.currentRoom = .ok room) (words : List String) :
    holder.carryPhrase words ⟨game.arranged holder items others, output⟩ =
      match (resolveExact holder items (Text.joinWords words)).toExcept (Text.joinWords words)
        holder.scope with
      | .ok l => holder.carryAt l.index ⟨game.arranged holder items others, output⟩
      | .error error =>
        .done (Turn.say ⟨game.arranged holder items others, output⟩ error.message) := by
  cases holder with
  | room =>
    have hroom :
        (game.arranged .room items others).currentRoom = .ok { room with items := items } :=
      Game.currentRoom_withFloor h items
    rw [Holder.carryPhrase, takePhrase, hroom]
    rfl
  | inventory => rfl

/-- **The item that a phrase finds is carried.** -/
theorem carryPhrase_of_found (h : game.currentRoom = .ok room) {words : List String} {l : Located}
    (hfound : resolveExact holder items (Text.joinWords words) = .found l) (others : List Item)
    (output : Output) :
    holder.carryPhrase words ⟨game.arranged holder items others, output⟩ = .done
      ⟨game.arranged holder (items.eraseIdx l.index) (others ++ [l.item]),
        output.telling holder [l.item]⟩ := by
  obtain ⟨hitem, -, -⟩ := only_of_resolveExact hfound
  rw [carryPhrase_eq h, Resolution.toExcept_eq_ok_iff.mpr hfound]
  exact carryAt_arranged h hitem

/-- A phrase that finds nothing is answered, and nothing is carried. -/
theorem carryPhrase_of_not_found (h : game.currentRoom = .ok room) {words : List String}
    (hnone : ∀ l, resolveExact holder items (Text.joinWords words) ≠ .found l) (others : List Item)
    (output : Output) : ∃ shown,
      holder.carryPhrase words ⟨game.arranged holder items others, output⟩ =
        .done ⟨game.arranged holder items others, shown⟩ := by
  rw [carryPhrase_eq h]
  cases hresolved : (resolveExact holder items (Text.joinWords words)).toExcept
      (Text.joinWords words) holder.scope with
  | ok l => exact absurd (Resolution.toExcept_eq_ok_iff.mp hresolved) (hnone l)
  | error error => exact ⟨_, rfl⟩

end

/-! ## One thing -/

/-- The command asks for what these words name, and not for everything. -/
structure Command.AsksFor (command : Command) (words : List String) : Prop where
  one : command.phrases = [words]
  not_all : command.isAll = false

/-- A command that asks for one thing carries out one phrase. -/
theorem run_asksFor {command : Command} {words : List String} (hasks : command.AsksFor words)
    {turn : Turn} (hturn : turn.Placed) (holder : Holder) :
    holder.action.run command turn = holder.carryPhrase words turn := by
  have htyped : command.phrases ≠ [] := by
    rw [hasks.one]
    exact List.cons_ne_nil _ _
  rw [holder.goesThrough.run_eq command turn hturn htyped hasks.not_all, hasks.one,
    forEach_singleton]

/-! ## The loop -/

/-- A loop that goes on as long as a list, looked up anew before each round, holds something. It
ends where the list is empty or cannot be looked up, or with a round that fails. -/
inductive LoopEnds (left : Game → Except CommandError (List Item)) (round : Turn → Outcome) :
    Turn → Outcome → Prop
  | empty {turn : Turn} (hleft : left turn.game = .ok []) : LoopEnds left round turn (.done turn)
  | lost {turn : Turn} {error : CommandError} (hleft : left turn.game = .error error) :
      LoopEnds left round turn (.failed error turn)
  | failed {turn after : Turn} {error : CommandError} {item : Item} {items : List Item}
      (hleft : left turn.game = .ok (item :: items)) (hround : round turn = .failed error after) :
      LoopEnds left round turn (.failed error after)
  | next {turn mid : Turn} {outcome : Outcome} {item : Item} {items : List Item}
      (hleft : left turn.game = .ok (item :: items)) (hround : round turn = .done mid)
      (hrest : LoopEnds left round mid outcome) : LoopEnds left round turn outcome

/-- A loop ends in one way at most. -/
theorem LoopEnds.unique {left : Game → Except CommandError (List Item)} {round : Turn → Outcome}
    {turn : Turn} {a b : Outcome} (ha : LoopEnds left round turn a)
    (hb : LoopEnds left round turn b) : a = b := by
  induction ha with
  | empty hleft => cases hb <;> simp_all
  | lost hleft => cases hb <;> simp_all
  | failed hleft hround => cases hb <;> simp_all
  | next hleft hround _ ih =>
    cases hb with
    | empty hleft' => simp_all
    | lost hleft' => simp_all
    | failed hleft' hround' => simp_all
    | next hleft' hround' hrest =>
      obtain rfl := Outcome.done.inj (hround.symm.trans hround')
      exact ih hrest

section

variable {game : Game} {room : Room}

/-- **Carrying away the first item as long as there is one** ends with all of them carried over, in
their order. -/
theorem loopEnds_carryAt (holder : Holder) (h : game.currentRoom = .ok room)
    (items others : List Item) (output : Output) :
    LoopEnds holder.left (holder.carryAt 0) ⟨game.arranged holder items others, output⟩ (.done
      ⟨game.arranged holder [] (others ++ items), output.telling holder items⟩) := by
  induction items generalizing others output with
  | nil =>
    rw [List.append_nil, Output.telling_nil]
    exact .empty (left_arranged h [] others)
  | cons item items ih =>
    refine .next (left_arranged h (item :: items) others)
      (carryAt_arranged h (List.getElem?_cons_zero ..)) ?_
    rw [List.eraseIdx_cons_zero, List.append_cons others item items,
      ← output.telling_cons holder item items]
    exact ih (others ++ [item]) (output.telling holder [item])

/-- The same rounds, counted beforehand. -/
theorem repeatTimes_carryAt (holder : Holder) (h : game.currentRoom = .ok room)
    (items others : List Item) (output : Output) :
    repeatTimes (holder.carryAt 0) items.length ⟨game.arranged holder items others, output⟩ = .done
      ⟨game.arranged holder [] (others ++ items), output.telling holder items⟩ := by
  induction items generalizing others output with
  | nil =>
    rw [List.append_nil, Output.telling_nil]
    rfl
  | cons item items ih =>
    rw [List.length_cons, repeatTimes, carryAt_arranged h (List.getElem?_cons_zero ..),
      List.eraseIdx_cons_zero, Outcome.andThen, ih, ← List.append_cons, Output.telling_cons]

/-! ## Everything there is -/

/-- The command asks for everything: "all" is its only argument, and it was typed. -/
structure Command.AsksForAll (command : Command) : Prop where
  all : command.isAll = true
  typed : command.phrases ≠ []

theorem asksForAll (verb : String) : Command.AsksForAll ⟨verb, ["all"], [["all"]]⟩ where
  all := beq_self_eq_true _
  typed := List.cons_ne_nil _ _

variable {command : Command} {turn : Turn}

/-- Asking for everything is refused where there is nothing, and else carries away the first item so
many times. -/
theorem run_asksForAll (holder : Holder) (hall : command.AsksForAll)
    (h : turn.game.currentRoom = .ok room) :
    holder.action.run command turn =
      if (holder.items room.items turn.game.player.inventory).isEmpty then
        .failed (.refused holder.refusal) turn
      else repeatTimes (holder.carryAt 0)
        (holder.items room.items turn.game.player.inventory).length turn := by
  have htyped : command.phrases.isEmpty = false := List.isEmpty_eq_false_iff.mpr hall.typed
  cases holder with
  | room =>
    rw [Holder.action, Action.run, take, h, htyped, hall.all]
    rfl
  | inventory =>
    rw [Holder.action, Action.run, drop, htyped, hall.all]
    rfl

theorem run_asksForAll_of_nil (holder : Holder) (hall : command.AsksForAll)
    (h : turn.game.currentRoom = .ok room)
    (hnone : holder.items room.items turn.game.player.inventory = []) :
    holder.action.run command turn = .failed (.refused holder.refusal) turn := by
  rw [run_asksForAll holder hall h, hnone]
  rfl

/-- **Asking for everything where there is something** carries it over in its order, as does the
loop that looks anew before each round. -/
theorem run_asksForAll_of_ne_nil (holder : Holder) (hall : command.AsksForAll)
    (h : turn.game.currentRoom = .ok room)
    (hsome : holder.items room.items turn.game.player.inventory ≠ []) :
    holder.action.run command turn = .done
      { game := turn.game.arranged holder [] (holder.other.items room.items
          turn.game.player.inventory ++ holder.items room.items turn.game.player.inventory)
        output := turn.output.telling holder
          (holder.items room.items turn.game.player.inventory) } ∧
    ∀ outcome, LoopEnds holder.left (holder.carryAt 0) turn outcome ↔
      outcome = holder.action.run command turn := by
  obtain ⟨game, output⟩ := turn
  have hcounted := repeatTimes_carryAt holder h
    (holder.items room.items game.player.inventory)
    (holder.other.items room.items game.player.inventory) output
  have hloop := loopEnds_carryAt holder h
    (holder.items room.items game.player.inventory)
    (holder.other.items room.items game.player.inventory) output
  rw [game.arranged_self h holder] at hcounted hloop
  have hrun : holder.action.run command ⟨game, output⟩ = repeatTimes (holder.carryAt 0)
      (holder.items room.items game.player.inventory).length ⟨game, output⟩ := by
    rw [run_asksForAll holder hall h, List.isEmpty_eq_false_iff.mpr hsome]
    rfl
  rw [hrun, hcounted]
  exact ⟨rfl, fun outcome => ⟨fun hends => hends.unique hloop, fun hends => hends ▸ hloop⟩⟩

/-- Whether there is something or not, nothing is left at the holder, and the other one has it
all. -/
theorem game_run_asksForAll (hall : command.AsksForAll) (h : turn.game.currentRoom = .ok room)
    (holder : Holder) :
    (holder.action.run command turn).turn.game =
      turn.game.arranged holder [] (holder.other.items room.items turn.game.player.inventory ++
        holder.items room.items turn.game.player.inventory) := by
  by_cases hnone : holder.items room.items turn.game.player.inventory = []
  · have hself := turn.game.arranged_self h holder
    rw [hnone] at hself
    rw [run_asksForAll_of_nil holder hall h hnone, hnone, List.append_nil, hself]
    rfl
  · rw [(run_asksForAll_of_ne_nil holder hall h hnone).1]
    rfl

/-- Taking everything and dropping everything leaves what was carried in front of what lay there. -/
theorem game_take_drop_all {taking dropping : Command} (htaking : taking.AsksForAll)
    (hdropping : dropping.AsksForAll) (h : turn.game.currentRoom = .ok room) (output : Output) :
    (drop dropping ⟨(take taking turn).turn.game, output⟩).turn.game =
      (turn.game.withFloor (turn.game.player.inventory ++ room.items)).withInventory [] := by
  have htaken : (take taking turn).turn.game =
      turn.game.arranged .inventory (turn.game.player.inventory ++ room.items) [] :=
    (game_run_asksForAll htaking h .room).trans (Game.arranged_other _ .inventory _ _)
  have hdropped := @game_run_asksForAll _ dropping
    ⟨turn.game.arranged .inventory (turn.game.player.inventory ++ room.items) [], output⟩
    hdropping (Game.currentRoom_withFloor h []) .inventory
  calc (drop dropping ⟨(take taking turn).turn.game, output⟩).turn.game
      = (turn.game.arranged .inventory (turn.game.player.inventory ++ room.items) []).arranged
          .inventory [] (turn.game.player.inventory ++ room.items) := by
        rw [htaken]
        exact hdropped
    _ = turn.game.arranged .inventory [] (turn.game.player.inventory ++ room.items) :=
        Game.arranged_arranged ..

end

/-- **Everything is carried over in its order, and that comes to an end.** Where there is something,
taking or dropping all is what the loop ends with that looks anew before each round, and one line is
said for each item; where there is nothing it is refused and nothing is changed. Taking all and then
dropping all leaves what was carried in front of what lay there, so nothing is changed for a player
who carried nothing. -/
theorem everything_is_carried_over {turn : Turn} {room : Room}
    (hroom : turn.game.currentRoom = .ok room) {taking dropping : Command}
    (htaking : taking.AsksForAll) (hdropping : dropping.AsksForAll) :
    (room.items ≠ [] →
      take taking turn = .done
        { game := (turn.game.withFloor []).withInventory (turn.game.player.inventory ++ room.items)
          output := ⟨turn.output.blocks ++
            room.items.map fun item => ⟨.text, s!"You take the {item.name}."⟩⟩ } ∧
      ∀ outcome, LoopEnds (fun game => game.currentRoom.map Room.items) (takeAt 0) turn outcome ↔
        outcome = take taking turn) ∧
    (turn.game.player.inventory ≠ [] →
      drop dropping turn = .done
        { game := (turn.game.withInventory []).withFloor (room.items ++ turn.game.player.inventory)
          output := ⟨turn.output.blocks ++
            turn.game.player.inventory.map fun item => ⟨.text, s!"You drop the {item.name}."⟩⟩ } ∧
      ∀ outcome, LoopEnds (fun game => .ok game.player.inventory) (dropAt 0) turn outcome ↔
        outcome = drop dropping turn) ∧
    (room.items = [] →
      take taking turn = .failed (.refused "There is nothing here to take.") turn) ∧
    (turn.game.player.inventory = [] →
      drop dropping turn = .failed (.refused "You aren't carrying anything.") turn) ∧
    ∀ output, (drop dropping ⟨(take taking turn).turn.game, output⟩).turn.game =
        (turn.game.withFloor (turn.game.player.inventory ++ room.items)).withInventory [] ∧
      (turn.game.player.inventory = [] →
        (drop dropping ⟨(take taking turn).turn.game, output⟩).turn.game = turn.game) := by
  refine ⟨fun hsome => ?_, fun hsome => ?_, fun hnone => ?_, fun hnone => ?_,
    fun output => ⟨?_, ?_⟩⟩
  · exact run_asksForAll_of_ne_nil .room htaking hroom hsome
  · exact run_asksForAll_of_ne_nil .inventory hdropping hroom hsome
  · exact run_asksForAll_of_nil .room htaking hroom hnone
  · exact run_asksForAll_of_nil .inventory hdropping hroom hnone
  · exact game_take_drop_all htaking hdropping hroom output
  · intro hnone
    rw [game_take_drop_all htaking hdropping hroom output, hnone, List.nil_append,
      Game.withFloor_self hroom, Game.withInventory_nil hnone]

/-- The vault, entered with a key. -/
def vaultWithKey : Game := vault.withInventory [Item.make "k" "key" ""]

/-- There "take the ALL" picks up the coins and the lamp in their order, and "drop all" then puts
down the key in front of them. -/
theorem vault_turned_over : ∃ (taking dropping : Command) (room : Room),
    Command.parse "take the ALL" = .ok taking ∧ Command.parse "drop all" = .ok dropping ∧
    taking.AsksForAll ∧ dropping.AsksForAll ∧ vaultWithKey.currentRoom = .ok room ∧
    room.items.map (·.name) = ["coin", "lamp", "coin"] ∧
    take taking ⟨vaultWithKey, Output.empty⟩ = .done
      { game := (vaultWithKey.withFloor []).withInventory (Item.make "k" "key" "" :: room.items)
        output := ⟨[⟨.text, "You take the coin."⟩, ⟨.text, "You take the lamp."⟩,
          ⟨.text, "You take the coin."⟩]⟩ } ∧
    (drop dropping ⟨(take taking ⟨vaultWithKey, Output.empty⟩).turn.game, Output.empty⟩).turn.game =
      (vaultWithKey.withFloor (Item.make "k" "key" "" :: room.items)).withInventory [] := by
  obtain ⟨htaken, -, -, -, hback⟩ := @everything_is_carried_over ⟨vaultWithKey, Output.empty⟩ _ rfl
    _ _ (asksForAll "take") (asksForAll "drop")
  exact ⟨_, _, _, by decide, by decide, asksForAll "take", asksForAll "drop", rfl, rfl,
    (htaken (List.cons_ne_nil _ _)).1, (hback Output.empty).1⟩

end Adventure
