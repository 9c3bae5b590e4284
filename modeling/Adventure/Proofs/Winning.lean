import Adventure.Proofs.Dangling
import Adventure.Proofs.Gathering
import Adventure.World.Cave

/-!
# The cave can always be won

Whoever plays in the cave can still get the lantern, whatever they have done: the same ten lines
lead there from every game that can be got to (`winningLines`).

* The exits, the rooms and the rule for the chest never change, the player is always in one of the
  rooms, and the items are the six of the cave, with the chest as it was or opened (`Game.InCave`).
  Every line keeps this (`Game.InCave.step`).
* Walking twice south leads to the first room from everywhere. From there the player picks up what
  lies in each room and carries it to the last, so in the end everything lies there
  (`gathered_of_inCave`).
* On that floor one item alone answers to "rusty key", one to "chest" and, once the chest is open,
  one to "lantern".

Results:

* `cave_stays_winnable`: the above, after all lines.
-/

namespace Adventure

/-! ## The cave -/

namespace Cave

/-- Where the exits lead. -/
def exits : List (ExitKey × String) :=
  [(⟨"cave_entrance", "north"⟩, "treasure_room"), (⟨"cave_entrance", "south"⟩, "outside"),
    (⟨"outside", "north"⟩, "cave_entrance"), (⟨"treasure_room", "south"⟩, "cave_entrance")]

/-- The keys of the rooms. -/
def rooms : List String := ["cave_entrance", "outside", "treasure_room"]

/-- The room to which a direction leads, or the room itself when there is no such exit. -/
def target (room direction : String) : String :=
  (Table.lookup ⟨room, direction⟩ exits).getD room

/-- An unlocked item with nothing inside that answers to these aliases. -/
def plain (id name desc : String) (aliases : List String) : Item where
  id := id
  name := name
  desc := desc
  aliases := aliases
  locked := false
  contents := []

def rustyKey : Item :=
  plain "rusty_key" "rusty key" "A small, rusty iron key."
    ["rusty key", "key", "iron key", "small key", "rusty"]

def sword : Item :=
  plain "sword" "sword" "A sharp, silver sword." ["sword", "silver sword", "sharp sword"]

def goldenKey : Item :=
  plain "golden_key" "golden key" "A large, shiny golden key."
    ["golden key", "key", "gold key", "shiny key", "golden"]

def shield : Item :=
  plain "shield" "shield" "A sturdy, silver shield." ["shield", "silver shield", "sturdy shield"]

def lantern : Item :=
  plain "lantern" "lantern" "A dusty, old lantern." ["lantern", "dusty lantern"]

def chest : Item :=
  { plain "chest" "chest" "A heavy iron chest." ["chest", "iron chest", "heavy chest"] with
    locked := true
    contents := [lantern] }

/-- The items that are not in the chest, without it. -/
def others : List Item := [rustyKey, sword, goldenKey, shield]

/-- What is held as long as the chest is locked. -/
def itemsLocked : List Item := chest :: others

/-- What is held once the chest is open. -/
def itemsOpened : List Item := chest.opened :: (chest.contents ++ others)

/-- What using the rusty key on the chest does. -/
def unlocking : UseEffect :=
  .unlock (some "You unlock the chest with the rusty key. The lid creaks open.")

end Cave

open Cave

/-- The game is played in the cave. -/
structure Game.InCave (game : Game) : Prop where
  exits : game.world.exits.entries = Cave.exits
  rooms : game.world.rooms.keys = Cave.rooms
  rule : game.world.effectOf? rustyKey.name chest.name "on" = some unlocking
  placed : game.Placed
  items : game.held.Perm itemsLocked ∨ game.held.Perm itemsOpened

theorem unlocked_of_mem_others : ∀ item ∈ others, item.locked = false := by decide

theorem unlocked_of_mem_itemsOpened : ∀ item ∈ itemsOpened, item.locked = false := by decide

namespace Game.InCave

variable {g g' : Game}

theorem of_samePlan (h : g.InCave) (hplan : g.world.SamePlan g'.world) (hplaced : g'.Placed)
    (hitems : g'.held.Perm itemsLocked ∨ g'.held.Perm itemsOpened) : g'.InCave where
  exits := hplan.exits ▸ h.exits
  rooms := hplan.keys.trans h.rooms
  rule := by
    rw [World.effectOf?, hplan.useRules]
    exact h.rule
  placed := hplaced
  items := hitems

theorem moves (h : g.InCave) (hmoves : Moves g g') : g'.InCave :=
  h.of_samePlan hmoves.samePlan (hmoves.placed h.placed)
    (h.items.imp hmoves.perm_held.trans hmoves.perm_held.trans)

/-- What is opened is the chest. -/
theorem opens (h : g.InCave) (hopens : Opens g g') : g'.InCave ∧ g'.held.Perm itemsOpened := by
  have hopened : g'.held.Perm itemsOpened := by
    rcases h.items with hlocked | hopened
    · exact hopens.perm_held hlocked unlocked_of_mem_others
    · exact absurd hopens (not_opens_of_unlocked fun item hitem =>
        unlocked_of_mem_itemsOpened item (hopened.mem_iff.mp hitem))
  exact ⟨h.of_samePlan hopens.samePlan hopens.placed (Or.inr hopened), hopened⟩

/-- **Every line keeps the game in the cave.** -/
theorem step (h : g.InCave) (line : String) : (g.step line).game.InCave :=
  step_keeps (P := Game.InCave) (fun _ _ hmoves h => h.moves hmoves)
    (fun _ _ hopens h => (h.opens hopens).1) h line

theorem run (h : g.InCave) (lines : List String) : (g.run lines).InCave :=
  run_keeps (P := Game.InCave) (fun _ line h => h.step line) h lines

/-- **The chest stays open.** -/
theorem step_opened (h : g.InCave) (hopened : g.held.Perm itemsOpened) (line : String) :
    (g.step line).game.held.Perm itemsOpened := by
  refine (step_keeps (P := fun g => g.InCave ∧ g.held.Perm itemsOpened) ?_ ?_ ⟨h, hopened⟩ line).2
  · exact fun _ _ hmoves h => ⟨h.1.moves hmoves, hmoves.perm_held.trans h.2⟩
  · exact fun _ _ hopens h => h.1.opens hopens

/-! ## Walking -/

/-- Going in the cave leads where the exits say. -/
theorem follow (h : g.InCave) (direction : String) : g.follow direction =
    { g with player := { g.player with room := target g.player.room direction } } := by
  have hexit : g.world.exit? g.player.room direction =
      Table.lookup ⟨g.player.room, direction⟩ Cave.exits := by
    rw [← h.exits]
    rfl
  cases hlookup : Table.lookup ⟨g.player.room, direction⟩ Cave.exits with
  | none =>
    rw [hlookup] at hexit
    rw [Game.follow_of_no_exit hexit, target, hlookup]
    rfl
  | some there =>
    rw [hlookup] at hexit
    have hall : ∀ e ∈ g.world.exits.entries, e.2 ∈ Cave.rooms := by
      rw [h.exits]
      decide
    have hthere : g.world.rooms.contains there = true :=
      Table.contains_iff_mem_keys.mpr (h.rooms ▸ hall _ (Table.get?_eq_some_iff.mp hexit))
    rw [Game.follow_of_exit hexit hthere, target, hlookup]
    rfl

theorem step_go (h : g.InCave) {direction : String} (hlower : Text.lower direction = direction)
    (hspelled : Spelled direction) : (g.step ("go " ++ direction)).game =
      { g with player := { g.player with room := target g.player.room direction } } := by
  rw [step_go_of_spelled hlower hspelled, h.follow]

/-! ## Items -/

theorem countP_held (h : g.InCave) {p : Item → Bool} (hlocked : itemsLocked.countP p = 1)
    (hopened : itemsOpened.countP p = 1) : g.held.countP p = 1 := by
  rcases h.items with hitems | hitems
  · rw [hitems.countP_eq, hlocked]
  · rw [hitems.countP_eq, hopened]

theorem mem_of_mem_held (h : g.InCave) {item : Item} (hitem : item ∈ g.held) :
    item ∈ itemsLocked ++ itemsOpened := by
  rcases h.items with hitems | hitems
  · exact List.mem_append_left _ (hitems.mem_iff.mp hitem)
  · exact List.mem_append_right _ (hitems.mem_iff.mp hitem)

end Game.InCave

/-! ## Bringing everything to one room -/

/-- The player of a game in the cave is here, and has emptied the floors of these rooms. -/
structure Game.Sweeping (game : Game) (here : String) (swept : List String) : Prop where
  cave : game.InCave
  here : game.player.room = here
  empty : ∀ key ∈ swept, game.floor key = []

namespace Game.Sweeping

variable {g : Game} {here : String} {swept : List String}

theorem go (h : g.Sweeping here swept) {direction : String}
    (hlower : Text.lower direction = direction) (hspelled : Spelled direction) :
    (g.step ("go " ++ direction)).game.Sweeping (target here direction) swept := by
  have hgame := h.cave.step_go hlower hspelled
  rw [h.here] at hgame
  exact ⟨h.cave.step _, by rw [hgame], fun key hkey => by rw [hgame]; exact h.empty key hkey⟩

theorem go_north (h : g.Sweeping here swept) :
    (g.step "go north").game.Sweeping (target here "north") swept := by
  have hline : "go north" = "go " ++ "north" := rfl
  rw [hline]
  exact h.go (by decide) (by decide)

theorem go_south (h : g.Sweeping here swept) :
    (g.step "go south").game.Sweeping (target here "south") swept := by
  have hline : "go south" = "go " ++ "south" := rfl
  rw [hline]
  exact h.go (by decide) (by decide)

theorem stay (h : g.Sweeping here swept) {verb : String} {action : Action}
    (hverb : IsVerb verb action) (haction : action ≠ .go) (hswept : here ∉ swept) (text : String) :
    (g.step (verb ++ " " ++ text)).game.Sweeping here swept := by
  have hstays := hverb.stays haction g text
  refine ⟨h.cave.step _, hstays.room.trans h.here, fun key hkey => ?_⟩
  rw [hstays.elsewhere key fun hsame => hswept (h.here ▸ hsame ▸ hkey)]
  exact h.empty key hkey

theorem take_all (h : g.Sweeping here swept) :
    (g.step "take all").game.Sweeping here (here :: swept) := by
  obtain ⟨room, hroom⟩ := h.cave.placed
  have hstays := isVerb_take.stays (by decide) g "all"
  refine ⟨h.cave.step _, hstays.room.trans h.here, fun key hkey => ?_⟩
  by_cases hhere : key = here
  · rw [step_take_all hroom, hhere, ← h.here]
    exact Game.floor_withFloor hroom []
  · rcases List.mem_cons.mp hkey with hsame | hkey
    · exact absurd hsame hhere
    · exact (hstays.elsewhere key (h.here ▸ hhere)).trans (h.empty key hkey)

theorem drop_all (h : g.Sweeping here swept) (hswept : here ∉ swept) :
    (g.step "drop all").game.Sweeping here swept ∧
      (g.step "drop all").game.player.inventory = [] := by
  obtain ⟨room, hroom⟩ := h.cave.placed
  refine ⟨h.stay isVerb_drop (by decide) hswept "all", ?_⟩
  rw [step_drop_all hroom]
  rfl

end Game.Sweeping

/-- The player stands in the treasure room, and the floors of the other rooms are empty. -/
def Game.Gathered (game : Game) : Prop :=
  game.Sweeping "treasure_room" ["cave_entrance", "outside"]

/-- From every room to the first one, and from there to the last, with all that lies on the way. -/
def gatheringLines : List String :=
  ["go south", "go south", "take all", "go north", "take all", "go north", "drop all"]

/-- **Everything in the cave can be brought to the floor of the treasure room**, from wherever it
is. -/
theorem gathered_of_inCave {g : Game} (h : g.InCave) :
    (g.run gatheringLines).Gathered ∧ (g.run gatheringLines).player.inventory = [] := by
  -- two steps south of every room is the first one
  have hfirst : ∀ key ∈ Cave.rooms, target (target key "south") "south" = "outside" := by decide
  have hkey : g.player.room ∈ Cave.rooms :=
    h.rooms ▸ Table.contains_iff_mem_keys.mp (placed_iff.mp h.placed)
  have hstart : g.Sweeping g.player.room [] :=
    ⟨h, rfl, fun _ hnone => absurd hnone List.not_mem_nil⟩
  have houtside := hstart.go_south.go_south
  rw [hfirst _ hkey] at houtside
  have hentrance := houtside.take_all.go_north
  rw [show target "outside" "north" = "cave_entrance" by decide] at hentrance
  have htreasure := hentrance.take_all.go_north
  rw [show target "cave_entrance" "north" = "treasure_room" by decide] at htreasure
  rw [gatheringLines, run_cons, run_cons, run_cons, run_cons, run_cons, run_cons, run_cons,
    Game.run, List.foldl_nil]
  exact htreasure.drop_all (by decide)

namespace Game.Gathered

variable {g : Game} {room : Room}

theorem stay (h : g.Gathered) {verb : String} {action : Action} (hverb : IsVerb verb action)
    (haction : action ≠ .go) (text : String) : (g.step (verb ++ " " ++ text)).game.Gathered :=
  Sweeping.stay h hverb haction (by decide) text

/-- All that is not carried lies here. -/
theorem held_eq (h : g.Gathered) (hroom : g.currentRoom = .ok room) :
    g.held = room.items ++ g.player.inventory := by
  have hfloor := Game.floor_of_currentRoom hroom
  rw [h.here] at hfloor
  rw [Game.held_eq, h.cave.rooms, Cave.rooms, List.flatMap_cons, List.flatMap_cons,
    List.flatMap_singleton, hfloor, h.empty _ List.mem_cons_self,
    h.empty _ (List.mem_cons_of_mem _ List.mem_cons_self)]
  rfl

/-- The one item of its kind is here when it is not carried. -/
theorem countP_floor (h : g.Gathered) (hroom : g.currentRoom = .ok room) {p : Item → Bool}
    (hone : g.held.countP p = 1) (hhands : g.player.inventory.countP p = 0) :
    room.items.countP p = 1 := by
  rw [h.held_eq hroom, List.countP_append, hhands] at hone
  exact hone

theorem mem_held (h : g.Gathered) (hroom : g.currentRoom = .ok room) {index : Nat} {item : Item}
    (hitem : room.items[index]? = some item) : item ∈ g.held := by
  rw [h.held_eq hroom]
  exact List.mem_append_left _ (List.mem_of_getElem? hitem)

/-- A name that one item has, and none that is carried, takes the item. -/
theorem take (h : g.Gathered) {text : String} (hspelled : Spelled (Text.lower text))
    (hall : Text.lower text ≠ "all")
    (hone : g.held.countP (·.aliases.contains (Text.lower text)) = 1)
    (hhands : g.player.inventory.countP (·.aliases.contains (Text.lower text)) = 0) :
    ∃ item ∈ g.held, Text.lower text ∈ item.aliases ∧
      (g.step ("take " ++ text)).game.player.inventory = g.player.inventory ++ [item] := by
  obtain ⟨room, hroom⟩ := h.cave.placed
  obtain ⟨index, item, hitem, halias, hgame⟩ :=
    step_take_only hroom hspelled hall (h.countP_floor hroom hone hhands)
  refine ⟨item, h.mem_held hroom hitem, halias, ?_⟩
  rw [hgame]
  rfl

/-! ## Getting at the lantern -/

/-- Empty hands can take the rusty key. -/
theorem take_key (h : g.Gathered) (hempty : g.player.inventory = []) :
    (g.step "take rusty key").game.Gathered ∧
      (g.step "take rusty key").game.player.inventory = [rustyKey] := by
  have hline : "take rusty key" = "take " ++ "rusty key" := rfl
  have hkey : ∀ item ∈ itemsLocked ++ itemsOpened,
      Text.lower "rusty key" ∈ item.aliases → item = rustyKey := by decide
  have hone : g.held.countP (·.aliases.contains (Text.lower "rusty key")) = 1 :=
    h.cave.countP_held (by decide) (by decide)
  obtain ⟨item, hitem, halias, hinventory⟩ :=
    h.take (by decide) (by decide) hone (by rw [hempty]; rfl)
  refine ⟨h.stay isVerb_take (by decide) "rusty key", ?_⟩
  rw [hline, hinventory, hempty, hkey item (h.cave.mem_of_mem_held hitem) halias]
  rfl

/-- What "rusty key on chest" is parted into. -/
def keyOnChest : Pairing where
  item := ["rusty", "key"]
  preposition := "on"
  target := ["chest"]

/-- With the rusty key alone in hand, "use" is about the key and the chest. -/
theorem exists_findUsing (h : g.Gathered) (hkey : g.player.inventory = [rustyKey])
    (hlocked : g.held.Perm itemsLocked) (phrases : List (List String)) : ∃ index,
    findUsing ⟨"use", phraseWords "rusty key on chest", phrases⟩ g =
      .ok ⟨rustyKey, "on", chest, index⟩ := by
  obtain ⟨room, hroom⟩ := h.cave.placed
  -- one item on the floor answers to "chest", and it is the chest
  have hone : g.held.countP (·.matchesWords (phraseWords "chest")) = 1 :=
    h.cave.countP_held (by decide) (by decide)
  obtain ⟨index, item, hitem, hfits, hunique⟩ := exists_only_of_countP
    (h.countP_floor hroom hone (by rw [hkey]; decide))
  have hchest : ∀ item ∈ itemsLocked,
      item.matchesWords (phraseWords "chest") = true → item = chest := by decide
  obtain rfl := hchest item (hlocked.mem_iff.mp (h.mem_held hroom hitem)) hfits
  have hpairing : Pairing.ofWords (phraseWords "rusty key on chest") useUsage = .ok keyOnChest := by
    decide
  have hitemPhrase : keyOnChest.itemPhrase = "rusty key" := by decide
  have htargetPhrase : keyOnChest.targetPhrase = "chest" := by decide
  have hkeyFound : resolve room.items g.player.inventory .inventory keyOnChest.itemPhrase =
      .found ⟨.inventory, 0, rustyKey⟩ := by
    rw [hitemPhrase, hkey]
    exact resolve_carried_alone (by decide)
  have htargetFound : resolve room.items g.player.inventory .room keyOnChest.targetPhrase =
      .found ⟨.room, index, chest⟩ := by
    rw [htargetPhrase]
    exact resolve_of_only (fun l => mem_candidates_room_iff) hitem hfits hunique
  exact ⟨index, findUsing_eq_ok_iff.mpr
    ⟨keyOnChest, room, _, _, hpairing, hroom, hkeyFound, htargetFound, rfl⟩⟩

/-- The rusty key in hand opens the chest, if it is locked. -/
theorem opens_chest (h : g.Gathered) (hkey : g.player.inventory = [rustyKey])
    (hlocked : g.held.Perm itemsLocked) : Opens g (g.step "use rusty key on chest").game := by
  have hparse := isVerb_use.parse "rusty key on chest"
  obtain ⟨index, hfound⟩ := h.exists_findUsing hkey hlocked
    (Command.phrasesOf (tokens "rusty key on chest"))
  obtain ⟨_, _, _, _, _, hopens⟩ := exists_useOpens hfound h.cave.rule rfl
  exact (opening_of_useOpens (isVerb_use.not_quit _) hparse rfl hopens).opens

/-- After the rusty key was used on it, the chest is open. -/
theorem use_key (h : g.Gathered) (hkey : g.player.inventory = [rustyKey]) :
    (g.step "use rusty key on chest").game.Gathered ∧
      (g.step "use rusty key on chest").game.player.inventory = [rustyKey] ∧
      (g.step "use rusty key on chest").game.held.Perm itemsOpened := by
  have hline : "use rusty key on chest" = "use" ++ " " ++ "rusty key on chest" := rfl
  refine ⟨?_, ?_, ?_⟩
  · rw [hline]
    exact h.stay isVerb_use (by decide) _
  · rw [hline]
    refine isVerb_use.keeps (P := fun g => g.player.inventory = [rustyKey]) ?_ hkey _
    rintro g g' ⟨room, index, container, -, -, -, rfl⟩ hg
    exact hg
  · rcases h.cave.items with hlocked | hopened
    · exact (h.cave.opens (h.opens_chest hkey hlocked)).2
    · exact h.cave.step_opened hopened _

/-- Once the chest is open, the lantern can be taken. -/
theorem take_lantern (h : g.Gathered) (hkey : g.player.inventory = [rustyKey])
    (hopened : g.held.Perm itemsOpened) :
    ∃ item ∈ (g.step "take lantern").game.player.inventory, item.id = "lantern" := by
  have hline : "take lantern" = "take " ++ "lantern" := rfl
  have hlantern : ∀ item ∈ itemsOpened, Text.lower "lantern" ∈ item.aliases →
      item.id = "lantern" := by decide
  have hone : g.held.countP (·.aliases.contains (Text.lower "lantern")) = 1 := by
    rw [hopened.countP_eq]
    decide
  obtain ⟨item, hitem, halias, hinventory⟩ :=
    h.take (by decide) (by decide) hone (by rw [hkey]; decide)
  refine ⟨item, ?_, hlantern item (hopened.mem_iff.mp hitem) halias⟩
  rw [hline, hinventory]
  exact List.mem_append_right _ List.mem_cons_self

end Game.Gathered

/-! ## Winning -/

set_option maxRecDepth 100000 in
theorem exists_cave_inCave : ∃ world, World.load caveText = .ok world ∧
    (Game.start world).InCave := by
  obtain ⟨draft, world, htext, hdraft, hexits, hrooms, hrule, hplaced, hheld⟩ :=
    exists_world_of_chars caveText
      (fun _ world => world.exits.entries = Cave.exits ∧ world.rooms.keys = Cave.rooms ∧
        world.effectOf? rustyKey.name chest.name "on" = some unlocking ∧
        (world.room? world.startRoom).isSome = true ∧
        (Game.start world).held = [rustyKey, sword, chest, goldenKey, shield])
      String.toList_ofList (by decide +kernel)
  refine ⟨world, load_eq_ok_iff.mpr ⟨draft, htext, hdraft⟩, hexits, hrooms, hrule,
    placed_iff.mpr hplaced, Or.inl ?_⟩
  have hmiddle : [rustyKey, sword, chest, goldenKey, shield] =
      [rustyKey, sword] ++ chest :: [goldenKey, shield] := rfl
  rw [hheld, hmiddle]
  exact List.perm_middle

/-- Lines after which the player has the lantern, whatever has been done before. -/
def winningLines : List String :=
  gatheringLines ++ ["take rusty key", "use rusty key on chest", "take lantern"]

/-- **The cave can be won from every game that can be got to**, and always by the same lines. -/
theorem cave_stays_winnable : ∃ world, World.load caveText = .ok world ∧ ∀ lines,
    ∃ item ∈ (((Game.start world).run lines).run winningLines).player.inventory,
      item.id = "lantern" := by
  obtain ⟨world, hload, hstart⟩ := exists_cave_inCave
  refine ⟨world, hload, fun lines => ?_⟩
  obtain ⟨hgathered, hempty⟩ := gathered_of_inCave (hstart.run lines)
  obtain ⟨htaken, hkey⟩ := hgathered.take_key hempty
  obtain ⟨hused, hkey, hopened⟩ := htaken.use_key hkey
  rw [winningLines, run_append, run_cons, run_cons, run_cons, Game.run, List.foldl_nil]
  exact hused.take_lantern hkey hopened

end Adventure
