import Adventure.Proofs.Runs

/-!
# What is seen of a game

A locked item hides what is inside it. `Item.seen` is the item without anything hidden, at whatever
depth, and `Game.seen` the game with such items only. Every action sees no more than that: on what
is seen of a turn it does what is seen of what it does on the turn (`Action.run_seen`), with the
same errors and the same output, unless it opens an item. So a line is answered from what is seen
(`step_seen`).
-/

namespace Adventure

/-! ## Items -/

namespace Item

mutual

/-- The item without what locked items hide. -/
def seen : Item → Item
  | ⟨id, name, desc, aliases, locked, contents⟩ =>
    ⟨id, name, desc, aliases, locked, if locked then [] else seenAll contents⟩

/-- The items without what locked items hide. -/
def seenAll : List Item → List Item
  | [] => []
  | item :: rest => item.seen :: seenAll rest

end

theorem seenAll_eq_map (items : List Item) : seenAll items = items.map seen := by
  induction items with
  | nil => rfl
  | cons item items ih => rw [seenAll, ih, List.map_cons]

theorem seen_eq (item : Item) : item.seen =
    { item with contents := if item.locked then [] else item.contents.map seen } := by
  cases item
  rw [seen, seenAll_eq_map]

@[simp] theorem name_seen (item : Item) : item.seen.name = item.name := by rw [seen_eq]

@[simp] theorem desc_seen (item : Item) : item.seen.desc = item.desc := by rw [seen_eq]

@[simp] theorem aliases_seen (item : Item) : item.seen.aliases = item.aliases := by rw [seen_eq]

@[simp] theorem locked_seen (item : Item) : item.seen.locked = item.locked := by rw [seen_eq]

theorem contents_seen (item : Item) (h : item.locked = false) :
    item.seen.contents = item.contents.map seen := by
  rw [seen_eq, h]
  rfl

@[simp] theorem isContainer_seen (item : Item) : item.seen.isContainer = item.isContainer := by
  unfold isContainer
  cases h : item.locked with
  | true => rw [locked_seen, h, Bool.true_or, Bool.true_or]
  | false => rw [locked_seen, h, contents_seen item h, List.isEmpty_map]

end Item

@[simp] theorem nameList_seen (items : List Item) (none : String) :
    nameList (items.map Item.seen) none = nameList items none := by
  unfold nameList
  rw [List.isEmpty_map, List.map_map]
  simp only [Function.comp_def, Item.name_seen]

/-! ## Phrases -/

@[simp] theorem matchesWords_seen (words : List String) (item : Item) :
    item.seen.matchesWords words = item.matchesWords words := by
  rw [Item.matchesWords, Item.matchesWords, Item.aliases_seen]

@[simp] theorem matchesAlias_seen (words : List String) (item : Item) :
    item.seen.matchesAlias words = item.matchesAlias words := by
  rw [Item.matchesAlias, Item.matchesAlias, Item.aliases_seen]

/-- The place with what is seen of the item there. -/
def Located.seen (located : Located) : Located := { located with item := located.item.seen }

/-- What a phrase means, as far as it is seen. -/
def Resolution.seen : Resolution → Resolution
  | .found located => .found located.seen
  | .notFound => .notFound
  | .ambiguous items => .ambiguous (items.map Item.seen)

theorem locate_seen (holder : Holder) (items : List Item) :
    locate holder (items.map Item.seen) = (locate holder items).map Located.seen := by
  refine List.ext_getElem? fun index => ?_
  rw [locate, locate, List.getElem?_mapIdx, List.getElem?_map, List.getElem?_map,
    List.getElem?_mapIdx]
  cases items[index]? <;> rfl

theorem candidates_seen (floor inventory : List Item) (scope : Scope) :
    candidates (floor.map Item.seen) (inventory.map Item.seen) scope =
      (candidates floor inventory scope).map Located.seen := by
  rw [candidates, candidates, locate_seen, locate_seen, ← List.map_append, List.filter_map]
  rfl

theorem sortByName_seen (items : List Item) :
    Resolution.sortByName (items.map Item.seen) = (Resolution.sortByName items).map Item.seen := by
  unfold Resolution.sortByName
  refine (List.map_mergeSort fun a _ b _ => ?_).symm
  rw [Item.name_seen, Item.name_seen]

theorem ofHits_seen (hits : List Located) :
    Resolution.ofHits (hits.map Located.seen) = (Resolution.ofHits hits).seen := by
  match hits with
  | [] => rfl
  | [hit] => rfl
  | a :: b :: rest =>
    have hitems : ((a :: b :: rest).map Located.seen).map (·.item) =
        ((a :: b :: rest).map (·.item)).map Item.seen := by
      rw [List.map_map, List.map_map]
      rfl
    have hseen : (Resolution.ofHits (a :: b :: rest)).seen =
        .ambiguous ((Resolution.sortByName ((a :: b :: rest).map (·.item))).map Item.seen) := rfl
    rw [hseen, ← sortByName_seen, ← hitems]
    rfl

theorem resolve_seen (floor inventory : List Item) (scope : Scope) (phrase : String) :
    resolve (floor.map Item.seen) (inventory.map Item.seen) scope phrase =
      (resolve floor inventory scope phrase).seen := by
  rw [resolve, resolve, candidates_seen, List.filter_map, ofHits_seen]
  simp only [Function.comp_def, Located.seen, matchesWords_seen]

theorem resolveExact_seen (holder : Holder) (items : List Item) (phrase : String) :
    resolveExact holder (items.map Item.seen) phrase = (resolveExact holder items phrase).seen := by
  have hhits : ∀ fits : Item → Bool, (∀ item, fits item.seen = fits item) →
      Resolution.ofHits ((locate holder (items.map Item.seen)).filter (fits ·.item)) =
        (Resolution.ofHits ((locate holder items).filter (fits ·.item))).seen := by
    intro fits hfits
    rw [locate_seen, List.filter_map, ofHits_seen]
    simp only [Function.comp_def, Located.seen, hfits]
  unfold resolveExact
  dsimp only
  rw [hhits _ (matchesAlias_seen _), hhits _ (matchesWords_seen _)]
  cases Resolution.ofHits ((locate holder items).filter
      (·.item.matchesAlias (phraseWords phrase))) with
  | found located => rfl
  | ambiguous items => rfl
  | notFound =>
    cases Resolution.ofHits ((locate holder items).filter
      (·.item.matchesWords (phraseWords phrase))) <;> rfl

theorem toExcept_seen (resolution : Resolution) (phrase : String) (scope : Scope) :
    resolution.seen.toExcept phrase scope =
      (resolution.toExcept phrase scope).map Located.seen := by
  cases resolution with
  | found located => rfl
  | notFound => rfl
  | ambiguous items =>
    simp only [Resolution.seen, Resolution.toExcept, Except.map, List.map_map,
      Function.comp_def, Item.name_seen]

/-! ## Games -/

/-- The room with what is seen of the items there. -/
def Room.seen (room : Room) : Room := { room with items := room.items.map Item.seen }

theorem Room.items_seen (room : Room) : room.seen.items = room.items.map Item.seen := rfl

/-- The world with what is seen of the items on the floors. -/
def World.seen (world : World) : World := { world with rooms := world.rooms.map Room.seen }

namespace Game

/-- What is seen of a game. -/
def seen (game : Game) : Game where
  world := game.world.seen
  player := { game.player with inventory := game.player.inventory.map Item.seen }

theorem currentRoom_seen (game : Game) :
    game.seen.currentRoom = game.currentRoom.map Room.seen := by
  have hroom : game.seen.world.room? game.seen.player.room =
      (game.world.room? game.player.room).map Room.seen := Table.get?_map _ _ _
  unfold currentRoom
  rw [hroom]
  cases game.world.room? game.player.room <;> rfl

theorem inventory_seen (game : Game) :
    game.seen.player.inventory = game.player.inventory.map Item.seen := rfl

theorem seen_withFloor (game : Game) (items : List Item) :
    (game.withFloor items).seen = game.seen.withFloor (items.map Item.seen) := by
  have hrooms : (game.withFloor items).world.rooms.map Room.seen =
      (game.world.rooms.map Room.seen).modify game.player.room
        ({ · with items := items.map Item.seen }) := Table.map_modify _ _ fun _ => rfl
  rw [seen, World.seen, hrooms]
  rfl

theorem seen_withInventory (game : Game) (items : List Item) :
    (game.withInventory items).seen = game.seen.withInventory (items.map Item.seen) := rfl

end Game

@[simp] theorem addRoom_seen (output : Output) (world : World) (room : Room) :
    output.addRoom world.seen room.seen = output.addRoom world room := by
  unfold Output.addRoom
  rw [Room.seen, nameList_seen]
  rfl

@[simp] theorem addItem_seen (output : Output) (item : Item) :
    output.addItem item.seen = output.addItem item := by
  unfold Output.addItem
  rw [Item.name_seen, Item.desc_seen, Item.locked_seen, Item.isContainer_seen]
  cases h : item.locked with
  | true => rfl
  | false => rw [Item.contents_seen item h, nameList_seen]

@[simp] theorem opening_seen (game : Game) : game.seen.opening = game.opening := by
  unfold Game.opening
  rw [Game.currentRoom_seen]
  cases game.currentRoom with
  | error error => rfl
  | ok room => exact addRoom_seen _ _ _

/-! ## Actions -/

/-- What is seen of a turn. -/
def Turn.seen (turn : Turn) : Turn := { turn with game := turn.game.seen }

theorem Turn.currentRoom_seen (turn : Turn) :
    turn.seen.game.currentRoom = turn.game.currentRoom.map Room.seen :=
  turn.game.currentRoom_seen

theorem Turn.inventory_seen (turn : Turn) :
    turn.seen.game.player.inventory = turn.game.player.inventory.map Item.seen := rfl

/-- What is seen of how an action ends. -/
def Outcome.seen : Outcome → Outcome
  | .done turn => .done turn.seen
  | .failed error turn => .failed error turn.seen

/-- The action works on what is seen of a turn. -/
def BySight (action : Turn → Outcome) : Prop :=
  ∀ turn, action turn.seen = (action turn).seen

theorem forEach_bySight {α : Type} {action : α → Turn → Outcome} (h : ∀ a, BySight (action a))
    (l : List α) : BySight (forEach action l) := by
  induction l with
  | nil => exact fun turn => rfl
  | cons a l ih =>
    intro turn
    rw [forEach, forEach, h a turn]
    cases action a turn with
    | done after => exact ih after
    | failed error after => rfl

theorem repeatTimes_bySight {action : Turn → Outcome} (h : BySight action) (n : Nat) :
    BySight (repeatTimes action n) := by
  intro turn
  rw [repeatTimes_eq_forEach, repeatTimes_eq_forEach]
  exact forEach_bySight (fun _ => h) _ turn

/-! ### Taking -/

theorem takeAt_bySight (index : Nat) : BySight (takeAt index) := by
  intro turn
  unfold takeAt
  rw [Turn.currentRoom_seen]
  cases turn.game.currentRoom with
  | error error => rfl
  | ok room =>
    simp only [Except.map, Room.items_seen, List.getElem?_map]
    cases room.items[index]? with
    | none => rfl
    | some item =>
      have hgame : ((turn.game.withFloor (room.items.eraseIdx index)).withInventory
          (turn.game.player.inventory ++ [item])).seen =
          (turn.game.seen.withFloor ((room.items.map Item.seen).eraseIdx index)).withInventory
            (turn.game.seen.player.inventory ++ [item.seen]) := by
        rw [Game.seen_withInventory, Game.seen_withFloor, List.map_append, List.eraseIdx_map]
        rfl
      simp only [Option.map_some, Item.name_seen, Outcome.seen, Turn.seen, hgame]

theorem takePhrase_bySight (words : List String) : BySight (takePhrase words) := by
  intro turn
  unfold takePhrase
  rw [Turn.currentRoom_seen]
  cases turn.game.currentRoom with
  | error error => rfl
  | ok room =>
    simp only [Except.map, Room.items_seen, resolveExact_seen, toExcept_seen]
    cases (resolveExact .room room.items (Text.joinWords words)).toExcept
        (Text.joinWords words) .room with
    | error error => rfl
    | ok located => exact takeAt_bySight located.index turn

theorem take_bySight (command : Command) : BySight (take command) := by
  intro turn
  unfold take
  rw [Turn.currentRoom_seen]
  cases turn.game.currentRoom with
  | error error => rfl
  | ok room =>
    simp only [Except.map, Room.items_seen, List.isEmpty_map, List.length_map]
    split
    · match room.items with
      | [] => rfl
      | [_] => exact takeAt_bySight 0 turn
      | _ :: _ :: _ => rfl
    · split
      · split
        · rfl
        · exact repeatTimes_bySight (takeAt_bySight 0) room.items.length turn
      · exact forEach_bySight takePhrase_bySight command.phrases turn

/-! ### Dropping -/

theorem dropAt_bySight (index : Nat) : BySight (dropAt index) := by
  intro turn
  unfold dropAt
  rw [Turn.currentRoom_seen]
  cases turn.game.currentRoom with
  | error error => rfl
  | ok room =>
    simp only [Except.map, Room.items_seen, Turn.inventory_seen, List.getElem?_map]
    cases turn.game.player.inventory[index]? with
    | none => rfl
    | some item =>
      have hgame : ((turn.game.withInventory (turn.game.player.inventory.eraseIdx index)).withFloor
          (room.items ++ [item])).seen =
          (turn.game.seen.withInventory
            ((turn.game.player.inventory.map Item.seen).eraseIdx index)).withFloor
              (room.items.map Item.seen ++ [item.seen]) := by
        rw [Game.seen_withFloor, Game.seen_withInventory, List.map_append, List.eraseIdx_map]
        rfl
      simp only [Option.map_some, Item.name_seen, Outcome.seen, Turn.seen, hgame]

theorem dropPhrase_bySight (words : List String) : BySight (dropPhrase words) := by
  intro turn
  simp only [dropPhrase, Turn.inventory_seen, resolveExact_seen, toExcept_seen]
  cases (resolveExact .inventory turn.game.player.inventory (Text.joinWords words)).toExcept
      (Text.joinWords words) .inventory with
  | error error => rfl
  | ok located => exact dropAt_bySight located.index turn

theorem drop_bySight (command : Command) : BySight (drop command) := by
  intro turn
  unfold drop
  simp only [Turn.inventory_seen, List.isEmpty_map, List.length_map]
  split
  · rfl
  · split
    · split
      · rfl
      · exact repeatTimes_bySight (dropAt_bySight 0) turn.game.player.inventory.length turn
    · exact forEach_bySight dropPhrase_bySight command.phrases turn

/-! ### Looking and going -/

theorem showRoom_seen (turn : Turn) (room : Room) :
    { turn.seen with output := turn.seen.output.addRoom turn.seen.game.world room.seen } =
      Turn.seen { turn with output := turn.output.addRoom turn.game.world room } :=
  congrArg (Turn.mk turn.game.seen) (addRoom_seen turn.output turn.game.world room)

theorem lookAround_bySight : BySight lookAround := by
  intro turn
  unfold lookAround
  rw [Turn.currentRoom_seen]
  cases turn.game.currentRoom with
  | error error => rfl
  | ok room => exact congrArg Outcome.done (showRoom_seen turn room)

theorem examine_bySight (command : Command) : BySight (examine command) := by
  intro turn
  unfold examine
  rw [Turn.currentRoom_seen]
  cases turn.game.currentRoom with
  | error error => rfl
  | ok room =>
    simp only [Except.map, Turn.inventory_seen, resolve_seen, toExcept_seen, Room.items_seen]
    split
    · exact congrArg Outcome.done (showRoom_seen turn room)
    · cases (resolve room.items turn.game.player.inventory .everywhere
          (Text.joinWords (command.args.dropWhile (· == "at")))).toExcept
            (Text.joinWords (command.args.dropWhile (· == "at"))) .everywhere with
      | error error => rfl
      | ok located =>
        exact congrArg (fun output => Outcome.done ⟨turn.game.seen, output⟩)
          (addItem_seen turn.output located.item)

theorem look_bySight (command : Command) : BySight (look command) := by
  intro turn
  unfold look
  split
  · exact examine_bySight command turn
  · exact lookAround_bySight turn

theorem inventory_bySight : BySight inventory := by
  intro turn
  unfold inventory
  rw [Turn.inventory_seen]
  cases turn.game.player.inventory with
  | nil => rfl
  | cons item items =>
    simp only [List.map_cons, List.map_map, Function.comp_def, Item.name_seen]
    rfl

theorem help_bySight : BySight help := fun _ => rfl

theorem go_bySight (command : Command) : BySight (go command) := by
  intro turn
  unfold go
  cases command.object? with
  | none => rfl
  | some direction =>
    have hexit : turn.seen.game.world.exit? turn.seen.game.player.room direction =
        turn.game.world.exit? turn.game.player.room direction := rfl
    simp only [hexit]
    cases turn.game.world.exit? turn.game.player.room direction with
    | none => rfl
    | some target =>
      have hroom : turn.seen.game.world.room? target =
          (turn.game.world.room? target).map Room.seen := Table.get?_map _ _ _
      simp only [hroom]
      cases turn.game.world.room? target with
      | none => rfl
      | some room =>
        let there : Game := { turn.game with player := { turn.game.player with room := target } }
        exact congrArg (fun output => Outcome.done ⟨there.seen, output⟩)
          (addRoom_seen (turn.output.say s!"You go {direction}.") turn.game.world room)

/-! ### Using -/

/-- What is seen of what a use comes to. -/
def Using.seen (found : Using) : Using :=
  { found with item := found.item.seen, target := found.target.seen }

theorem findUsing_seen (command : Command) (game : Game) :
    findUsing command game.seen = (findUsing command game).map Using.seen := by
  unfold findUsing
  rw [Game.currentRoom_seen]
  cases Pairing.ofWords command.args useUsage with
  | error error => rfl
  | ok pairing =>
    cases game.currentRoom with
    | error error => rfl
    | ok room =>
      simp only [bind, Except.bind, Except.map, Room.items_seen, Game.inventory_seen,
        resolve_seen, toExcept_seen]
      cases (resolve room.items game.player.inventory .inventory pairing.itemPhrase).toExcept
          pairing.itemPhrase .inventory with
      | error error => rfl
      | ok key =>
        simp only
        cases (resolve room.items game.player.inventory .room pairing.targetPhrase).toExcept
            pairing.targetPhrase .room <;> rfl

/-- Unlocking sees no more than what is seen when the item is not locked. -/
theorem unlockAt_seen {index : Nat} {turn : Turn} (keyName : String) (text : Option String)
    (h : ∀ room container, turn.game.currentRoom = .ok room → room.items[index]? = some container →
      container.locked = false) :
    unlockAt index keyName text turn.seen = (unlockAt index keyName text turn).seen := by
  unfold unlockAt
  rw [Turn.currentRoom_seen]
  cases hroom : turn.game.currentRoom with
  | error error => rfl
  | ok room =>
    simp only [Except.map, Room.items_seen, List.getElem?_map]
    cases hitem : room.items[index]? with
    | none => rfl
    | some container =>
      simp only [Option.map_some, Item.locked_seen, Item.name_seen, h room container hroom hitem]
      rfl

/-- Using sees no more than what is seen, unless it opens an item. -/
theorem useItem_seen {command : Command} {turn : Turn} (h : ∀ pairing room key target rule,
    ¬ UseOpens command turn.game pairing room key target rule) :
    useItem command turn.seen = (useItem command turn).seen := by
  unfold useItem
  rw [Turn.seen, findUsing_seen]
  cases hfound : findUsing command turn.game with
  | error error => rfl
  | ok found =>
    have hrules : turn.game.seen.world.effectOf? = turn.game.world.effectOf? := rfl
    simp only [Except.map, Using.seen, Item.name_seen, hrules]
    cases heffect : turn.game.world.effectOf? found.item.name found.target.name
        found.preposition with
    | none => rfl
    | some effect =>
      cases effect with
      | message text => rfl
      | unlock text =>
        refine unlockAt_seen _ _ fun room container hroom hitem => ?_
        obtain ⟨here, hhere, htarget⟩ := on_floor_of_findUsing hfound
        obtain rfl := Except.ok.inj (hroom.symm.trans hhere)
        obtain rfl := Option.some.inj (hitem.symm.trans htarget)
        rw [Bool.eq_false_iff]
        intro hlocked
        obtain ⟨pairing, room, key, target, rule, hopens⟩ := exists_useOpens hfound heffect hlocked
        exact h pairing room key target rule hopens

/-- **Every action works on what is seen of the turn**, unless it opens an item. -/
theorem Action.run_seen {action : Action} {command : Command} {turn : Turn}
    (h : action = .use → ∀ pairing room key target rule,
      ¬ UseOpens command turn.game pairing room key target rule) :
    action.run command turn.seen = (action.run command turn).seen := by
  cases action with
  | go => exact go_bySight command turn
  | take => exact take_bySight command turn
  | drop => exact drop_bySight command turn
  | look => exact look_bySight command turn
  | examine => exact examine_bySight command turn
  | inventory => exact inventory_bySight turn
  | use => exact useItem_seen (h rfl)
  | help => exact help_bySight turn

/-! ### When a use opens an item -/

theorem Resolution.seen_eq_found_iff {resolution : Resolution} {located : Located} :
    resolution.seen = .found located ↔ ∃ l, resolution = .found l ∧ l.seen = located := by
  cases resolution with
  | found l => simp [Resolution.seen]
  | notFound => simp [Resolution.seen]
  | ambiguous items => simp [Resolution.seen]

/-- **Whether a use opens an item is seen.** -/
theorem useOpens_seen_iff {command : Command} {game : Game} {pairing : Pairing} {room : Room}
    {key target : Located} {rule : UseRule} :
    UseOpens command game.seen pairing room key target rule ↔ ∃ here k t,
      UseOpens command game pairing here k t rule ∧
        here.seen = room ∧ k.seen = key ∧ t.seen = target := by
  constructor
  · intro h
    obtain ⟨hpaired, hroom, hkey, htarget, -, -, hlocked, hrule, hunlocks⟩ := h
    rw [Game.currentRoom_seen] at hroom
    cases hhere : game.currentRoom with
    | error error =>
      rw [hhere] at hroom
      exact nomatch hroom
    | ok here =>
      rw [hhere] at hroom
      obtain rfl := Except.ok.inj hroom
      rw [Room.items_seen, Game.inventory_seen, resolve_seen, Resolution.seen_eq_found_iff]
        at hkey htarget
      obtain ⟨k, hk, rfl⟩ := hkey
      obtain ⟨t, ht, rfl⟩ := htarget
      simp only [Located.seen, Item.name_seen, Item.locked_seen] at hlocked hrule
      exact ⟨here, k, t, ⟨hpaired, hhere, hk, ht, carried_of_resolve hk, on_floor_of_resolve ht,
        hlocked, hrule, hunlocks⟩, rfl, rfl, rfl⟩
  · rintro ⟨here, k, t, h, rfl, rfl, rfl⟩
    refine ⟨h.paired, ?_, ?_, ?_, ?_, ?_, ?_, ?_, h.unlocks⟩
    · rw [Game.currentRoom_seen, h.here]
      rfl
    · rw [Room.items_seen, Game.inventory_seen, resolve_seen, h.key_found]
      rfl
    · rw [Room.items_seen, Game.inventory_seen, resolve_seen, h.target_found]
      rfl
    · rw [Game.inventory_seen, List.getElem?_map]
      exact congrArg (Option.map Item.seen) h.carried
    · rw [Room.items_seen, List.getElem?_map]
      exact congrArg (Option.map Item.seen) h.on_floor
    · exact (Item.locked_seen _).trans h.locked
    · simp only [Located.seen, Item.name_seen]
      exact h.first_rule

/-! ## Lines -/

/-- What is seen of an answer. -/
def Reply.seen (reply : Reply) : Reply := { reply with game := reply.game.seen }

theorem Reply.game_seen (reply : Reply) : reply.seen.game = reply.game.seen := rfl

theorem Reply.output_seen (reply : Reply) : reply.seen.output = reply.output := rfl

theorem attempt_seen {game : Game} {line : String} (hquit : isQuit line = false)
    (h : ¬ game.OpensAt line) (output : Output) :
    VerbTable.standard.attempt line (Turn.seen ⟨game, output⟩) =
      (VerbTable.standard.attempt line ⟨game, output⟩).seen := by
  rcases attempt_cases VerbTable.standard line with ⟨error, -, hfails⟩ |
    ⟨command, route, hparse, hroute, hruns⟩
  · rw [hfails, hfails]
    rfl
  · rw [hruns, hruns]
    exact Action.run_seen fun huse pairing room key target rule hopens =>
      h (opensAt_of_route hquit hparse hroute huse hopens)

/-- **A line is answered from what is seen**, unless it opens an item. -/
theorem step_seen {game : Game} {line : String} (h : ¬ game.OpensAt line) :
    game.seen.step line = (game.step line).seen := by
  unfold Game.step
  cases hquit : isQuit line with
  | true => rfl
  | false =>
    have hattempt := attempt_seen hquit h Output.empty
    unfold VerbTable.execute
    rw [show (⟨game.seen, Output.empty⟩ : Turn) = Turn.seen ⟨game, Output.empty⟩ from rfl, hattempt]
    cases VerbTable.standard.attempt line ⟨game, Output.empty⟩ <;> rfl

end Adventure
