import Adventure.Proofs.Plan

/-!
# What one command may change

A command as a whole does one thing, and that in the room where the player is: the player walks,
picks up some of the floor, puts down some of the inventory, or opens one item on the floor
(`Action.run_effect`). Items that are moved, one by one, come to the end of the other list, and
those that are left keep their order (`picksUp_of_takes`, `putsDown_of_drops`).

This goes for every verb table, since a command does what the action at the end of its route does
(`dispatch_effect`).

Results:

* `commands_touch_little`: what no command changes, what is changed together, and the verbs that
  change nothing.
-/

namespace Adventure

open scoped List

/-! ## Parting a list -/

/-- The items that are left, in their order, and those that are gone. -/
structure PartsInto (items left gone : List Item) : Prop where
  in_order : left.Sublist items
  perm : items.Perm (left ++ gone)

theorem PartsInto.refl (items : List Item) : PartsInto items items [] where
  in_order := List.Sublist.refl items
  perm := by rw [List.append_nil]

/-- One more item is gone. -/
theorem PartsInto.eraseIdx {items left gone : List Item} (h : PartsInto items left gone)
    {index : Nat} {item : Item} (hitem : left[index]? = some item) :
    PartsInto items (left.eraseIdx index) (gone ++ [item]) where
  in_order := (List.eraseIdx_sublist left index).trans h.in_order
  perm := by
    calc items
        ~ left ++ gone := h.perm
      _ ~ (item :: left.eraseIdx index) ++ gone := (perm_eraseIdx hitem).append_right gone
      _ ~ left.eraseIdx index ++ (item :: gone) := List.perm_middle.symm
      _ ~ left.eraseIdx index ++ (gone ++ [item]) :=
        (List.perm_append_singleton item gone).symm.append_left _

/-! ## What a command does as a whole -/

/-- Some of the floor goes to the end of the inventory. -/
def PicksUp (g g' : Game) : Prop :=
  ∃ room left taken, g.currentRoom = .ok room ∧ PartsInto room.items left taken ∧
    g' = (g.withFloor left).withInventory (g.player.inventory ++ taken)

/-- Some of the inventory goes to the end of the floor. -/
def PutsDown (g g' : Game) : Prop :=
  ∃ room left dropped, g.currentRoom = .ok room ∧ PartsInto g.player.inventory left dropped ∧
    g' = (g.withInventory left).withFloor (room.items ++ dropped)

section

variable {g mid g' : Game} {room : Room}

theorem PicksUp.refl (hroom : g.currentRoom = .ok room) : PicksUp g g := by
  refine ⟨room, room.items, [], hroom, PartsInto.refl _, ?_⟩
  rw [Game.withFloor_self hroom, List.append_nil]
  rfl

theorem PicksUp.takes (h : PicksUp g mid) (htakes : Takes mid g') : PicksUp g g' := by
  obtain ⟨room, left, taken, hroom, hparts, rfl⟩ := h
  obtain ⟨here, index, item, hhere, hitem, rfl⟩ := htakes
  have hleft : here = { room with items := left } :=
    Except.ok.inj (hhere.symm.trans (Game.currentRoom_withFloor hroom left))
  subst hleft
  refine ⟨room, left.eraseIdx index, taken ++ [item], hroom, hparts.eraseIdx hitem, ?_⟩
  have hfloor := g.withFloor_withFloor left (left.eraseIdx index)
  rw [← hfloor, ← List.append_assoc]
  rfl

theorem PutsDown.refl (hroom : g.currentRoom = .ok room) : PutsDown g g := by
  refine ⟨room, g.player.inventory, [], hroom, PartsInto.refl _, ?_⟩
  rw [List.append_nil]
  exact (Game.withFloor_self hroom).symm

theorem PutsDown.drops (h : PutsDown g mid) (hdrops : Drops mid g') : PutsDown g g' := by
  obtain ⟨room, left, dropped, hroom, hparts, rfl⟩ := h
  obtain ⟨here, index, item, hhere, hitem, rfl⟩ := hdrops
  have hfloor : here = { room with items := room.items ++ dropped } :=
    Except.ok.inj (hhere.symm.trans
      (@Game.currentRoom_withFloor (g.withInventory left) room hroom (room.items ++ dropped)))
  subst hfloor
  refine ⟨room, left.eraseIdx index, dropped ++ [item], hroom, hparts.eraseIdx hitem, ?_⟩
  have hfloor := (g.withInventory (left.eraseIdx index)).withFloor_withFloor (room.items ++ dropped)
    (room.items ++ (dropped ++ [item]))
  rw [← hfloor, ← List.append_assoc]
  rfl

/-- Walking twice is walking to the second room. -/
theorem Walks.trans (h : Walks g mid) (h' : Walks mid g') : Walks g g' := by
  obtain ⟨key, room, hroom, rfl⟩ := h
  obtain ⟨key', room', hroom', rfl⟩ := h'
  exact ⟨key', room', hroom', rfl⟩

/-- **What is taken item by item is picked up at once.** -/
theorem picksUp_of_takes (h : Relation.ReflTransGen Takes g g') : g' = g ∨ PicksUp g g' := by
  induction h with
  | refl => exact Or.inl rfl
  | tail _ htakes ih =>
    rcases ih with rfl | hpicks
    · obtain ⟨room, index, item, hroom, hrest⟩ := htakes
      exact Or.inr ((PicksUp.refl hroom).takes ⟨room, index, item, hroom, hrest⟩)
    · exact Or.inr (hpicks.takes htakes)

/-- **What is dropped item by item is put down at once.** -/
theorem putsDown_of_drops (h : Relation.ReflTransGen Drops g g') : g' = g ∨ PutsDown g g' := by
  induction h with
  | refl => exact Or.inl rfl
  | tail _ hdrops ih =>
    rcases ih with rfl | hputs
    · obtain ⟨room, index, item, hroom, hrest⟩ := hdrops
      exact Or.inr ((PutsDown.refl hroom).drops ⟨room, index, item, hroom, hrest⟩)
    · exact Or.inr (hputs.drops hdrops)

theorem walks_of_walks (h : Relation.ReflTransGen Walks g g') : g' = g ∨ Walks g g' := by
  induction h with
  | refl => exact Or.inl rfl
  | tail _ hwalks ih =>
    rcases ih with rfl | hbefore
    · exact Or.inr hwalks
    · exact Or.inr (hbefore.trans hwalks)

end

/-- What an action may do to the game as a whole. -/
def Action.effect : Action → Game → Game → Prop
  | .go => Walks
  | .take => PicksUp
  | .drop => PutsDown
  | .use => Opens
  | _ => fun _ _ => False

/-- **An action has its effect once, or none.** -/
theorem Action.run_effect (action : Action) (command : Command) (turn : Turn) :
    (action.run command turn).turn.game = turn.game ∨
      action.effect turn.game (action.run command turn).turn.game := by
  have hsteps := action.run_changes command turn
  have of_none : Relation.ReflTransGen (fun _ _ => False) turn.game
      (action.run command turn).turn.game → (action.run command turn).turn.game = turn.game :=
    (Relation.reflTransGen_iff_eq fun _ => id).mp
  cases action with
  | go => exact walks_of_walks hsteps
  | take => exact picksUp_of_takes hsteps
  | drop => exact putsDown_of_drops hsteps
  | use =>
    rcases useItem_cases command turn with ⟨error, h⟩ | ⟨after, h, hsame⟩ |
      ⟨pairing, room, key, target, rule, after, huse, h, hafter⟩
    · exact Or.inl (by rw [Action.run, h]; rfl)
    · exact Or.inl (by rw [Action.run, h]; exact hsame)
    · refine Or.inr ⟨room, target.index, target.item, huse.here, huse.on_floor, huse.locked, ?_⟩
      rw [Action.run, h]
      exact hafter
  | look => exact Or.inl (of_none hsteps)
  | examine => exact Or.inl (of_none hsteps)
  | inventory => exact Or.inl (of_none hsteps)
  | help => exact Or.inl (of_none hsteps)

/-- **A command has the effect of the action that its verb leads to, or none.** -/
theorem dispatch_effect (table : VerbTable) (command : Command) (turn : Turn) :
    (table.dispatch command turn).turn.game = turn.game ∨
      ∃ route, table.get? command.verb = some route ∧
        route.action.effect turn.game (table.dispatch command turn).turn.game := by
  cases hroute : table.get? command.verb with
  | none =>
    rw [dispatch_of_no_route hroute]
    exact Or.inl rfl
  | some route =>
    rw [dispatch_of_route hroute]
    exact (route.action.run_effect (route.expand command) turn).imp_right fun h => ⟨route, rfl, h⟩

/-! ## What stays as it is -/

/-- What a command may change: the player walks, and nothing else is changed; or the player stays,
and items are picked up, or put down, or one is opened where they lie. -/
structure Game.Touched (game after : Game) : Prop where
  /-- The texts, the exits, the rules, and the rooms but for their floors. -/
  plan : game.world.SamePlan after.world
  keys : after.world.rooms.keys = game.world.rooms.keys
  /-- The other rooms, floors and all. -/
  elsewhere : ∀ key, key ≠ game.player.room → after.world.room? key = game.world.room? key
  walked : after.player.room ≠ game.player.room →
    after.world = game.world ∧ after.player.inventory = game.player.inventory
  carried : after.world ≠ game.world ∨ after.player.inventory ≠ game.player.inventory →
    after.player.room = game.player.room ∧
      (PicksUp game after ∨ PutsDown game after ∨ Opens game after)

namespace Game.Touched

theorem refl (game : Game) : game.Touched game where
  plan := World.SamePlan.refl _
  keys := rfl
  elsewhere := fun _ _ => rfl
  walked := fun h => absurd rfl h
  carried := fun h => h.elim (absurd rfl) (absurd rfl)

theorem of_walks {game after : Game} (h : Walks game after) : game.Touched after := by
  obtain ⟨key, room, hroom, rfl⟩ := h
  exact {
    plan := World.SamePlan.refl _
    keys := rfl
    elsewhere := fun _ _ => rfl
    walked := fun _ => ⟨rfl, rfl⟩
    carried := fun h => h.elim (absurd rfl) (absurd rfl) }

/-- Another floor where the player is, and another inventory, touch nothing else. -/
theorem of_here {game after : Game} (items carried : List Item)
    (hafter : after = (game.withFloor items).withInventory carried)
    (h : PicksUp game after ∨ PutsDown game after ∨ Opens game after) : game.Touched after := by
  have hplan : game.world.SamePlan after.world := by
    rw [hafter]
    exact samePlan_withFloor _ _ _
  refine ⟨hplan, hplan.keys, fun key hkey => ?_, fun hroom => ?_, fun _ => ⟨?_, h⟩⟩
  · rw [hafter, Game.withInventory, Game.withFloor, World.room?_withFloor, if_neg hkey]
  · rw [hafter] at hroom
    exact absurd rfl hroom
  · rw [hafter]
    rfl

end Game.Touched

theorem touched_of_effect {action : Action} {game after : Game} (h : action.effect game after) :
    game.Touched after := by
  cases action with
  | go => exact Game.Touched.of_walks h
  | take =>
    obtain ⟨room, left, taken, -, -, hafter⟩ := id h
    exact Game.Touched.of_here left (game.player.inventory ++ taken) hafter (Or.inl h)
  | drop =>
    obtain ⟨room, left, dropped, -, -, hafter⟩ := id h
    exact Game.Touched.of_here (room.items ++ dropped) left hafter (Or.inr (Or.inl h))
  | use =>
    obtain ⟨room, index, container, -, -, -, hafter⟩ := id h
    exact Game.Touched.of_here (room.items.set index container.opened ++ container.contents)
      game.player.inventory hafter (Or.inr (Or.inr h))
  | look => exact h.elim
  | examine => exact h.elim
  | inventory => exact h.elim
  | help => exact h.elim

/-- The words that only show something. -/
def showingWords : List String := ["look", "l", "examine", "x", "inventory", "i", "help", "?"]

/-- The actions that only show something have no effect. -/
theorem Action.not_effect {action : Action} (h : action ∈ [look, examine, inventory, help])
    (g g' : Game) : ¬ action.effect g g' := by
  simp only [List.mem_cons, List.not_mem_nil, or_false] at h
  rcases h with rfl | rfl | rfl | rfl
  all_goals exact id

theorem action_of_showingWords {word : String} (hword : word ∈ showingWords) {route : Route}
    (hroute : VerbTable.standard.get? word = some route) :
    route.action ∈ [Action.look, .examine, .inventory, .help] := by
  have hactions : ∀ word ∈ showingWords, ∀ route ∈ VerbTable.standard.get? word,
      route.action ∈ [Action.look, .examine, .inventory, .help] := by decide
  exact hactions word hword route hroute

/-- **A command touches the current floor, the inventory or the place of the player**, never one of
the first two together with the last, and nothing else. The words that only show something change
nothing, and show the same when they are said again. -/
theorem commands_touch_little (command : Command) (turn : Turn) :
    turn.game.Touched (VerbTable.standard.dispatch command turn).turn.game ∧
    (command.verb ∈ showingWords →
      (VerbTable.standard.dispatch command turn).turn.game = turn.game ∧
      ∀ output, VerbTable.standard.dispatch command
          ⟨(VerbTable.standard.dispatch command turn).turn.game, output⟩ =
        VerbTable.standard.dispatch command ⟨turn.game, output⟩) := by
  have heffect := dispatch_effect VerbTable.standard command turn
  constructor
  · rcases heffect with hsame | ⟨route, -, heffect⟩
    · rw [hsame]
      exact Game.Touched.refl _
    · exact touched_of_effect heffect
  · intro hword
    have hsame : (VerbTable.standard.dispatch command turn).turn.game = turn.game := by
      rcases heffect with hsame | ⟨route, hroute, heffect⟩
      · exact hsame
      · exact absurd heffect (Action.not_effect (action_of_showingWords hword hroute) _ _)
    exact ⟨hsame, fun output => by rw [hsame]⟩

/-- A player in a vault with a coin, a lamp and another coin on the floor. -/
def vault : Game where
  world :=
    { id := "w", name := "", desc := "", startRoom := "a"
      rooms := Table.empty.insert "a" ⟨"a", "", "",
        [Item.make "c" "coin" "", Item.make "l" "lamp" "", Item.make "d" "coin" ""]⟩
      exits := Table.empty, useRules := [], startingInventory := [] }
  player := { room := "a", inventory := [] }

/-- Getting the lamp there moves it from between the coins to the inventory, so the room is the same
and all that has happened is one of the three; asking for help is answered the same ever after. -/
theorem vault_left_with_lamp : ∃ after,
    (VerbTable.standard.dispatch ⟨"get", ["lamp"], [["lamp"]]⟩
      ⟨vault, Output.empty⟩).turn.game = after ∧
    after.player.inventory.map (·.id) = ["l"] ∧ after.player.room = "a" ∧
    (PicksUp vault after ∨ PutsDown vault after ∨ Opens vault after) ∧
    (VerbTable.standard.dispatch ⟨"?", ["lamp"], []⟩ ⟨after, Output.empty⟩).turn.game = after := by
  have hinventory : (VerbTable.standard.dispatch ⟨"get", ["lamp"], [["lamp"]]⟩
      ⟨vault, Output.empty⟩).turn.game.player.inventory.map (·.id) = ["l"] := by decide +kernel
  have htouched := (commands_touch_little ⟨"get", ["lamp"], [["lamp"]]⟩ ⟨vault, Output.empty⟩).1
  generalize (VerbTable.standard.dispatch ⟨"get", ["lamp"], [["lamp"]]⟩
    ⟨vault, Output.empty⟩).turn.game = after at hinventory htouched
  have hcarried : after.player.inventory ≠ vault.player.inventory := by
    intro hsame
    rw [hsame] at hinventory
    exact absurd hinventory (by decide)
  obtain ⟨hroom, heffect⟩ := htouched.carried (Or.inr hcarried)
  exact ⟨after, rfl, hinventory, hroom, heffect,
    ((commands_touch_little ⟨"?", ["lamp"], []⟩ ⟨after, Output.empty⟩).2 (by decide)).1⟩

end Adventure
