import Adventure.Proofs.Plan
import Adventure.Proofs.Seen
import Mathlib.Data.List.Forall2

/-!
# Locked items keep what is in them secret

Two items are alike when they differ only inside locked items, and two games when corresponding
items are. What is seen of a game says the same: alike games are those of which the same is seen
(`Game.alike_iff_seen_eq`), and a line is answered from what is seen (`step_seen`). So a line does
the same to alike games, and leaves them alike, unless it opens an item in both (`step_alike`).

Results:

* `locked_contents_stay_secret`: alike games cannot be told apart, by any lines that open nothing.
-/

namespace Adventure

/-! ## Alike but for what is locked -/

/-- But for their contents the items are the same, and unless they are locked, their contents are
alike, item by item. -/
inductive Item.Alike : Item → Item → Prop
  | mk {a b : Item} (same : a.bare = b.bare)
      (inside : a.locked = false → List.Forall₂ Item.Alike a.contents b.contents) : Item.Alike a b

/-- The worlds are the same but for the floors, and what lies there is alike, item by item. -/
structure World.Alike (world other : World) : Prop where
  plan : world.SamePlan other
  floors : ∀ key room room', world.room? key = some room → other.room? key = some room' →
    List.Forall₂ Item.Alike room.items room'.items

/-- The player stands in the same room and carries alike items, in alike worlds. -/
structure Game.Alike (game other : Game) : Prop where
  world : game.world.Alike other.world
  room : game.player.room = other.player.room
  inventory : List.Forall₂ Item.Alike game.player.inventory other.player.inventory

/-! ### Alike is seen the same -/

namespace Item

theorem seen_eq_iff {a b : Item} : a.seen = b.seen ↔
    a.bare = b.bare ∧ (a.locked = false → a.contents.map seen = b.contents.map seen) := by
  rw [seen_eq, seen_eq]
  obtain ⟨id, name, desc, aliases, locked, contents⟩ := a
  obtain ⟨id', name', desc', aliases', locked', contents'⟩ := b
  simp only [bare, Item.mk.injEq, and_true, and_assoc, and_congr_right_iff]
  rintro - - - - rfl
  cases locked <;> simp

theorem alike_iff {a b : Item} : a.Alike b ↔
    a.bare = b.bare ∧ (a.locked = false → List.Forall₂ Alike a.contents b.contents) :=
  ⟨fun ⟨same, inside⟩ => ⟨same, inside⟩, fun ⟨same, inside⟩ => ⟨same, inside⟩⟩

mutual

theorem alike_iff_seen_eq : ∀ a b : Item, a.Alike b ↔ a.seen = b.seen
  | ⟨id, name, desc, aliases, locked, contents⟩, b => by
    rw [alike_iff, seen_eq_iff, forall₂_alike_iff contents b.contents]

theorem forall₂_alike_iff : ∀ l r : List Item,
    List.Forall₂ Alike l r ↔ l.map seen = r.map seen
  | [], r => by cases r <;> simp
  | a :: l, [] => by simp
  | a :: l, b :: r => by
    rw [List.forall₂_cons, List.map_cons, List.map_cons, List.cons.injEq, alike_iff_seen_eq a b,
      forall₂_alike_iff l r]

end

end Item

theorem Room.seen_eq_iff {a b : Room} :
    a.seen = b.seen ↔ a.bare = b.bare ∧ a.items.map Item.seen = b.items.map Item.seen := by
  obtain ⟨id, name, desc, items⟩ := a
  obtain ⟨id', name', desc', items'⟩ := b
  simp only [seen, bare, Room.mk.injEq, and_true, and_assoc]

/-- The same is seen of two worlds that differ in their rooms only, when it is in each room. -/
theorem World.seen_eq_iff {world other : World} : world.seen = other.seen ↔
    other = { world with rooms := other.rooms } ∧
      ∀ key, (world.room? key).map Room.seen = (other.room? key).map Room.seen := by
  have hrooms : world.rooms.map Room.seen = other.rooms.map Room.seen ↔
      ∀ key, (world.room? key).map Room.seen = (other.room? key).map Room.seen := by
    unfold World.room?
    simp only [← Table.get?_map]
    exact ⟨fun h key => by rw [h], Table.ext_get?⟩
  rw [← hrooms]
  constructor
  · intro h
    obtain ⟨id, name, desc, start, rooms, exits, rules, starting⟩ := world
    obtain ⟨id', name', desc', start', rooms', exits', rules', starting'⟩ := other
    simp only [World.seen, World.mk.injEq] at h ⊢
    obtain ⟨rfl, rfl, rfl, rfl, hsame, rfl, rfl, rfl⟩ := h
    exact ⟨by simp, hsame⟩
  · rintro ⟨hheader, hsame⟩
    rw [World.seen, World.seen, hsame, hheader]

theorem World.alike_iff_seen_eq {world other : World} :
    world.Alike other ↔ world.seen = other.seen := by
  rw [World.seen_eq_iff]
  constructor
  · rintro ⟨⟨hheader, hbare⟩, hfloors⟩
    refine ⟨hheader, fun key => ?_⟩
    have hkey := hbare key
    cases hroom : world.room? key with
    | none =>
      rw [hroom, Option.map_none, Option.map_eq_none_iff] at hkey
      rw [hkey]
    | some room =>
      rw [hroom, Option.map_some, Option.map_eq_some_iff] at hkey
      obtain ⟨room', hroom', hsame⟩ := hkey
      have hitems := (Item.forall₂_alike_iff _ _).mp (hfloors key room room' hroom hroom')
      rw [hroom', Option.map_some, Option.map_some, Room.seen_eq_iff.mpr ⟨hsame.symm, hitems⟩]
  · rintro ⟨hheader, hrooms⟩
    refine ⟨⟨hheader, fun key => ?_⟩, fun key room room' hroom hroom' => ?_⟩
    · have hkey := congrArg (Option.map Room.bare) (hrooms key)
      rw [Option.map_map, Option.map_map] at hkey
      exact hkey.symm
    · have hkey := hrooms key
      rw [hroom, hroom', Option.map_some, Option.map_some, Option.some_inj, Room.seen_eq_iff]
        at hkey
      exact (Item.forall₂_alike_iff _ _).mpr hkey.2

/-- **Games are alike when the same is seen of them.** -/
theorem Game.alike_iff_seen_eq {game other : Game} :
    game.Alike other ↔ game.seen = other.seen := by
  obtain ⟨world, room, inventory⟩ := game
  obtain ⟨world', room', inventory'⟩ := other
  simp only [seen, Game.mk.injEq, Player.mk.injEq, ← World.alike_iff_seen_eq,
    ← Item.forall₂_alike_iff]
  constructor
  · rintro ⟨hworld, hroom, hinventory⟩
    exact ⟨hworld, hroom, hinventory⟩
  · rintro ⟨hworld, hroom, hinventory⟩
    exact ⟨hworld, hroom, hinventory⟩

/-! ## One line -/

/-- The line opens the same item in both games: it lies in the same place of the floor, and the two
are alike. -/
def Game.BothOpen (game other : Game) (line : String) : Prop :=
  ∃ command pairing room room' key key' target target' rule,
    Opening game line command pairing room key target rule ∧
    Opening other line command pairing room' key' target' rule ∧
    target.index = target'.index ∧ target.item.Alike target'.item

/-- The line opens nothing in either game, shows the same and leaves the games alike. -/
structure Game.AnswersAlike (game other : Game) (line : String) : Prop where
  unopened : ¬ game.OpensAt line ∧ ¬ other.OpensAt line
  output : (game.step line).output = (other.step line).output
  after : (game.step line).game.Alike (other.step line).game

section Step

variable {game other : Game} {line : String}

theorem Game.Alike.symm (h : game.Alike other) : other.Alike game :=
  alike_iff_seen_eq.mpr (alike_iff_seen_eq.mp h).symm

theorem Game.Alike.opening_eq (h : game.Alike other) : game.opening = other.opening := by
  rw [← opening_seen, ← opening_seen other, alike_iff_seen_eq.mp h]

theorem Game.Alike.bothOpen (h : game.Alike other) (hopens : game.OpensAt line) :
    game.BothOpen other line := by
  obtain ⟨command, pairing, room, key, target, rule, hopening⟩ := hopens
  have hseen := useOpens_seen_iff.mpr
    ⟨room, key, target, hopening.toUseOpens, rfl, rfl, rfl⟩
  rw [alike_iff_seen_eq.mp h] at hseen
  obtain ⟨room', key', target', huse, -, -, htarget⟩ := useOpens_seen_iff.mp hseen
  exact ⟨command, pairing, room, room', key, key', target, target', rule, hopening,
    opening_of_useOpens hopening.not_quit hopening.parsed hopening.verb huse,
    (congrArg Located.index htarget).symm,
    (Item.alike_iff_seen_eq _ _).mpr (congrArg Located.item htarget).symm⟩

theorem Game.BothOpen.opensAt (h : game.BothOpen other line) : other.OpensAt line := by
  obtain ⟨command, pairing, -, room', -, key', -, target', rule, -, hopening, -⟩ := h
  exact ⟨command, pairing, room', key', target', rule, hopening⟩

/-- **A line opens the same item in alike games, or nothing in either, and then it does the
same.** -/
theorem step_alike (h : game.Alike other) (line : String) :
    (game.step line).quit = (other.step line).quit ∧
      (game.BothOpen other line ∨ game.AnswersAlike other line) := by
  refine ⟨by rw [quit_step, quit_step], ?_⟩
  by_cases hopens : game.OpensAt line
  · exact Or.inl (h.bothOpen hopens)
  · have hother : ¬ other.OpensAt line := fun hopens' => hopens (h.symm.bothOpen hopens').opensAt
    have hreply : (game.step line).seen = (other.step line).seen := by
      rw [← step_seen hopens, ← step_seen hother, Game.alike_iff_seen_eq.mp h]
    refine Or.inr ⟨⟨hopens, hother⟩, ?_, Game.alike_iff_seen_eq.mpr ?_⟩
    · rw [← Reply.output_seen, hreply, Reply.output_seen]
    · rw [← Reply.game_seen, hreply, Reply.game_seen]

end Step

/-! ## Every run -/

/-- What the player gets to see line by line, and whether the session ends with it. -/
def Game.replies (game : Game) : List String → List (Output × Bool)
  | [] => []
  | line :: lines =>
    ((game.step line).output, (game.step line).quit) :: (game.step line).game.replies lines

/-- None of the lines opens anything when it comes. -/
def Game.NeverOpens (game : Game) (lines : List String) : Prop :=
  ∀ before line after, lines = before ++ line :: after → ¬ (game.run before).OpensAt line

theorem neverOpens_cons_iff {game : Game} {line : String} {lines : List String} :
    game.NeverOpens (line :: lines) ↔
      ¬ game.OpensAt line ∧ (game.step line).game.NeverOpens lines := by
  constructor
  · intro h
    refine ⟨h [] line lines rfl, fun before next after hlines => ?_⟩
    rw [← run_cons]
    exact h (line :: before) next after (by rw [hlines, List.cons_append])
  · rintro ⟨hfirst, hrest⟩ before next after hlines
    cases before with
    | nil =>
      obtain ⟨rfl, -⟩ := List.cons.inj hlines
      exact hfirst
    | cons a before =>
      obtain ⟨rfl, htail⟩ := List.cons.inj hlines
      rw [run_cons]
      exact hrest before next after htail

/-- Lines that open nothing get the same replies in alike games. -/
theorem replies_alike {game other : Game} (h : game.Alike other) {lines : List String}
    (hnever : game.NeverOpens lines) : game.replies lines = other.replies lines := by
  induction lines generalizing game other with
  | nil => rfl
  | cons line lines ih =>
    obtain ⟨hfirst, hrest⟩ := neverOpens_cons_iff.mp hnever
    obtain ⟨hquit, hboth | hsame⟩ := step_alike h line
    · obtain ⟨command, pairing, room, -, key, -, target, -, rule, hopening, -⟩ := hboth
      exact absurd ⟨command, pairing, room, key, target, rule, hopening⟩ hfirst
    · rw [Game.replies, Game.replies, hsame.output, hquit, ih hsame.after hrest]

/-- Where no rule unlocks, nothing is ever opened. -/
theorem neverOpens_of_no_unlock {game : Game}
    (h : ∀ rule ∈ game.world.useRules, ∀ text, rule.effect ≠ .unlock text) (lines : List String) :
    game.NeverOpens lines := by
  rintro before line - - ⟨command, pairing, room, key, target, rule, hopening⟩
  obtain ⟨text, hunlocks⟩ := hopening.unlocks
  have hrule := List.mem_of_find?_eq_some hopening.first_rule
  rw [(run_samePlan game before).useRules] at hrule
  exact h rule hrule text hunlocks

/-- The worlds differ only inside locked items, on the floors and in what the player starts with. -/
structure World.DiffersInLocked (world other : World) : Prop where
  floors : World.Alike { world with startingInventory := other.startingInventory } other
  inventory : List.Forall₂ Item.Alike world.startingInventory other.startingInventory

theorem World.DiffersInLocked.alike_start {world other : World} (h : world.DiffersInLocked other) :
    (Game.start world).Alike (Game.start other) := by
  obtain ⟨⟨⟨hheader, hrooms⟩, hfloors⟩, hinventory⟩ := h
  refine ⟨⟨⟨?_, hrooms⟩, hfloors⟩, ?_, hinventory⟩
  · exact congrArg (fun w : World => { w with startingInventory := [] }) hheader
  · exact (congrArg World.startRoom hheader).symm

/-- **What is in locked items stays secret.** Alike games open alike and answer every line alike, or
open the same item at it; so by lines that open nothing, worlds that differ only inside locked items
cannot be told apart. -/
theorem locked_contents_stay_secret :
    (∀ game other : Game, game.Alike other → game.opening = other.opening ∧ ∀ line,
      (game.step line).quit = (other.step line).quit ∧
        (game.BothOpen other line ∨ game.AnswersAlike other line)) ∧
    ∀ world other : World, world.DiffersInLocked other → ∀ lines,
      (Game.start world).NeverOpens lines →
        (Game.start world).opening = (Game.start other).opening ∧
          (Game.start world).replies lines = (Game.start other).replies lines :=
  ⟨fun _ _ h => ⟨h.opening_eq, step_alike h⟩, fun _ _ h _ hnever =>
    ⟨h.alike_start.opening_eq, replies_alike h.alike_start hnever⟩⟩

/-- A cellar with a locked chest. -/
def cellar (hidden : List Item) : World where
  id := "cellar"
  name := "The Cellar"
  desc := ""
  startRoom := "cellar"
  rooms := Table.empty.insert "cellar"
    { id := "cellar", name := "Cellar", desc := "",
      items := [((Item.make "chest" "Chest" "").withLock true).withContents hidden] }
  exits := Table.empty
  useRules := []
  startingInventory := []

theorem differsInLocked_cellar (hidden hidden' : List Item) :
    (cellar hidden).DiffersInLocked (cellar hidden') :=
  ⟨World.alike_iff_seen_eq.mpr rfl, .nil⟩

/-- Looking at the chest and taking it does not tell what is in it. -/
theorem cellar_keeps_secret :
    (Game.start (cellar [Item.make "coin" "Coin" ""])).opening = (Game.start (cellar [])).opening ∧
    (Game.start (cellar [Item.make "coin" "Coin" ""])).replies ["examine chest", "take chest"] =
      (Game.start (cellar [])).replies ["examine chest", "take chest"] :=
  ⟨(locked_contents_stay_secret.1 _ _ (differsInLocked_cellar _ _).alike_start).1,
    (locked_contents_stay_secret.2 _ _ (differsInLocked_cellar _ _) _
      (neverOpens_of_no_unlock (fun _ h => absurd h List.not_mem_nil) _)).2⟩

end Adventure
