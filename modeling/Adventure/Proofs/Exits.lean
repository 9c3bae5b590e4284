import Adventure.Proofs.Plan
import Adventure.Proofs.Quitting
import Adventure.Proofs.Shape
import Adventure.Proofs.Synonyms

/-!
# The line of exits

The exits of a room are read off the exit table in one scan, which starts at the least key that the
room could have and stops at the first key of another room. That misses nothing, whatever the rooms
are called: keys are ordered by room first, so those of one room are neighbours
(`exitsFrom_eq_filter`). It also yields the directions in order, so that they need not be sorted to
be shown (`sort_exitsFrom`).

What is shown of a room asks for the exits under the id of the room, and who goes anywhere, under
the key of the room in the table. Loading makes them the same (`id_of_room?`), and play keeps both.

Results:

* `exits_line_tells_the_truth`: what is listed, in every exit table, and what a look around ends
  with, in every game that can be got to.
-/

namespace Adventure

/-! ## Reading the exit table -/

theorem compare_eq_lt_iff {a b : String} : compare a b = .lt ↔ a < b :=
  compareOfLessAndEq_eq_lt

/-- Keys are ordered by room, and by direction within a room. -/
theorem compare_exitKey_eq_lt_iff {a b : ExitKey} : compare a b = .lt ↔
    a.room < b.room ∨ a.room = b.room ∧ a.direction < b.direction := by
  have hroom : compare a.room b.room = .eq ↔ a.room = b.room := Std.LawfulEqCmp.compare_eq_iff_eq
  rw [← compare_eq_lt_iff, ← compare_eq_lt_iff, ← hroom]
  exact Ordering.then_eq_lt

/-- **The exits of a room are the entries with its name**, wherever the scan may stop. -/
theorem exitsFrom_eq_filter (world : World) (room : String) : world.exitsFrom room =
    (world.exits.entries.filter fun exit => exit.1.room == room).map (·.1.direction) := by
  unfold World.exitsFrom
  rw [Table.scan_eq_filter]
  · intro key hkey hlt
    rcases compare_exitKey_eq_lt_iff.mp hlt with hroom | ⟨-, hdirection⟩
    · exact Std.lt_irrefl (eq_of_beq hkey ▸ hroom)
    · exact List.not_lt_nil _ hdirection
  · intro key next hstart hlt hnext
    obtain rfl := eq_of_beq hnext
    rcases compare_exitKey_eq_lt_iff.mp hlt with hroom | ⟨hroom, -⟩
    · -- a key of an earlier room is below all that the room could have
      have hbefore : compare key ⟨next.room, ""⟩ = .lt :=
        compare_exitKey_eq_lt_iff.mpr (Or.inl hroom)
      exact absurd hbefore hstart
    · exact beq_iff_eq.mpr hroom

/-- The directions are listed in ascending order, each once. -/
theorem sorted_exitsFrom (world : World) (room : String) :
    (world.exitsFrom room).Pairwise (· < ·) := by
  rw [exitsFrom_eq_filter, List.pairwise_map]
  refine (world.exits.sorted.filter _).imp_of_mem fun {a b} ha hb hlt => ?_
  rcases compare_exitKey_eq_lt_iff.mp hlt with hroom | ⟨-, hdirection⟩
  · rw [eq_of_beq (List.mem_filter.mp ha).2, eq_of_beq (List.mem_filter.mp hb).2] at hroom
    exact absurd hroom Std.lt_irrefl
  · exact hdirection

/-- **The directions listed are those in which there is an exit.** -/
theorem mem_exitsFrom_iff {world : World} {room direction : String} :
    direction ∈ world.exitsFrom room ↔ ∃ target, world.exit? room direction = some target := by
  simp only [exitsFrom_eq_filter, List.mem_map, List.mem_filter, beq_iff_eq, World.exit?,
    Table.get?_eq_some_iff]
  constructor
  · rintro ⟨⟨key, target⟩, ⟨hentry, rfl⟩, rfl⟩
    exact ⟨target, hentry⟩
  · rintro ⟨target, hentry⟩
    exact ⟨_, ⟨hentry, rfl⟩, rfl⟩

/-- Sorting the directions changes nothing. -/
theorem sort_exitsFrom (world : World) (room : String) :
    (world.exitsFrom room).mergeSort (fun a b => decide (a ≤ b)) = world.exitsFrom room := by
  refine List.mergeSort_of_pairwise ((sorted_exitsFrom world room).imp fun hlt => ?_)
  exact decide_eq_true (Std.le_of_lt hlt)

/-! ## Rooms and their keys -/

/-- **Each room of a loaded world stands under its own id.** -/
theorem id_of_room? {draft : Draft} {world : World} (h : World.ofDraft draft = .ok world)
    {key : String} {room : Room} (hroom : world.room? key = some room) : room.id = key := by
  obtain ⟨map, declared, placement, rules, hloads, rfl⟩ := ofDraft_eq_ok_iff.mp h
  obtain ⟨placed, hplaced⟩ := hloads.placed
  simp only [World.room?, Draft.worldOf, hplaced.floors, Placement.start] at hroom
  obtain ⟨empty, hempty, rfl⟩ := Option.map_eq_some_iff.mp hroom
  rcases (RoomMap.get?_of_foldlM_addRoom hloads.rooms key empty).mp hempty with hold |
    ⟨entry, -, rfl, rfl⟩
  · exact absurd hold (by simp [RoomMap.empty])
  · rfl

/-- A room keeps its id as long as the plan is kept. -/
theorem World.SamePlan.id_of_room? {world after : World} (h : world.SamePlan after)
    (hids : ∀ key room, world.room? key = some room → room.id = key) {key : String} {room : Room}
    (hroom : after.room? key = some room) : room.id = key := by
  have hbare := h.rooms key
  rw [hroom, Option.map_some, eq_comm, Option.map_eq_some_iff] at hbare
  obtain ⟨before, hbefore, hsame⟩ := hbare
  have hid : before.bare.id = room.bare.id := congrArg Room.id hsame
  exact hid ▸ hids key before hbefore

/-- In every game that can be got to, the player's room is the one under its id. -/
theorem id_of_currentRoom {draft : Draft} {world : World} (h : World.ofDraft draft = .ok world)
    (lines : List String) {room : Room}
    (hroom : ((Game.start world).run lines).currentRoom = .ok room) :
    room.id = ((Game.start world).run lines).player.room :=
  (run_samePlan (Game.start world) lines).id_of_room? (fun _ _ => Adventure.id_of_room? h)
    (Game.currentRoom_eq_ok_iff.mp hroom)

/-! ## Looking around -/

/-- The line shows the room: it looks, at nothing in particular. -/
def LooksAround (line : String) : Prop :=
  ∃ command, Command.parse line = .ok command ∧ command.verb ∈ ["look", "l", "examine", "x"] ∧
    ∀ word ∈ command.args, word = "at"

theorem look_around {command : Command} (hargs : ∀ word ∈ command.args, word = "at") {turn : Turn}
    {room : Room} (hroom : turn.game.currentRoom = .ok room) :
    look command turn = .done { turn with output := turn.output.addRoom turn.game.world room } := by
  have hnothing : command.args.any (· != "at") = false := by
    rw [List.any_eq_false]
    intro word hword
    simp [hargs word hword]
  rw [look, hnothing, lookAround, hroom]
  rfl

/-- The words for looking lead to looking or to examining, which is the same. -/
theorem dispatch_of_looks {command : Command}
    (hverb : command.verb ∈ ["look", "l", "examine", "x"]) (turn : Turn) :
    VerbTable.standard.dispatch command turn = look command turn := by
  have hlook : ∀ verb ∈ ["look", "l"],
      VerbTable.standard.get? verb = some ⟨"look", .look, []⟩ := by decide
  have hexamine : ∀ verb ∈ ["examine", "x"],
      VerbTable.standard.get? verb = some ⟨"examine", .examine, []⟩ := by decide
  have hsplit : ["look", "l", "examine", "x"] = ["look", "l"] ++ ["examine", "x"] := rfl
  rw [hsplit, List.mem_append] at hverb
  rcases hverb with hverb | hverb
  · exact dispatch_of_route (hlook command.verb hverb) turn
  · rw [look_eq_examine]
    exact dispatch_of_route (hexamine command.verb hverb) turn

/-- **Looking around shows the room** and changes nothing. -/
theorem step_of_looksAround {game : Game} {line : String} (h : LooksAround line) {room : Room}
    (hroom : game.currentRoom = .ok room) : game.step line =
      { game := game, output := Output.empty.addRoom game.world room, quit := false } := by
  obtain ⟨command, hparse, hverb, hargs⟩ := h
  have hquit : isQuit line = false := by
    rw [Bool.eq_false_iff]
    intro hquits
    rcases verb_of_isQuit hquits hparse with hword | hword
    · exact absurd (hword ▸ hverb) (by decide)
    · exact absurd (hword ▸ hverb) (by decide)
  have hattempt : VerbTable.standard.attempt line ⟨game, Output.empty⟩ =
      .done ⟨game, Output.empty.addRoom game.world room⟩ := by
    rw [VerbTable.attempt, hparse]
    exact (dispatch_of_looks hverb _).trans (look_around hargs hroom)
  rw [Game.step, hquit, VerbTable.execute, hattempt]
  rfl

theorem getLast?_addRoom (world : World) (room : Room) :
    (Output.empty.addRoom world room).blocks.getLast? =
      some ⟨.exits, exitsLine (world.exitsFrom room.id)⟩ := by
  rw [Output.addRoom, Output.setExits, Output.not_blank_exitsLine]
  exact List.getLast?_concat ..

/-! ## What is listed -/

/-- The directions are those in which an exit leaves the room, in ascending order and each once. -/
structure World.ListsExits (world : World) (room : String) (directions : List String) : Prop where
  ascending : directions.Pairwise (· < ·)
  mem_iff : ∀ direction, direction ∈ directions ↔ ∃ target, world.exit? room direction = some target

/-- There is one such list. -/
theorem World.ListsExits.unique {world : World} {room : String} {l r : List String}
    (hl : world.ListsExits room l) (hr : world.ListsExits room r) : l = r := by
  refine List.Perm.eq_of_pairwise
    (fun a b _ _ hab hba => absurd (Std.lt_trans hab hba) Std.lt_irrefl) hl.ascending hr.ascending
    ?_
  refine (List.perm_ext_iff_of_nodup (hl.ascending.imp Std.ne_of_lt)
    (hr.ascending.imp Std.ne_of_lt)).mpr fun direction => ?_
  rw [hl.mem_iff, hr.mem_iff]

theorem listsExits_exitsFrom (world : World) (room : String) :
    world.ListsExits room (world.exitsFrom room) where
  ascending := sorted_exitsFrom world room
  mem_iff := fun _ => mem_exitsFrom_iff

/-- **The exits listed are those there are**, in every exit table and for every name of a room. So
in every game that can be got to, looking around ends with a line of the directions in which there
is an exit from where the player is. -/
theorem exits_line_tells_the_truth :
    (∀ (world : World) (room : String), world.ListsExits room (world.exitsFrom room)) ∧
    ∀ {draft : Draft} {world : World}, World.ofDraft draft = .ok world → ∀ (lines : List String),
      ∀ {room : Room}, ((Game.start world).run lines).currentRoom = .ok room →
      ∀ {line : String}, LooksAround line → ∃ directions,
        ((Game.start world).run lines).world.ListsExits
          ((Game.start world).run lines).player.room directions ∧
        (((Game.start world).run lines).step line).output.blocks.getLast? =
          some ⟨.exits, if directions = [] then "Exits: none"
            else "Exits: " ++ ", ".intercalate directions⟩ := by
  refine ⟨listsExits_exitsFrom, fun hdraft lines room hroom line hlooks => ?_⟩
  refine ⟨_, listsExits_exitsFrom _ _, ?_⟩
  rw [step_of_looksAround hlooks hroom, getLast?_addRoom, id_of_currentRoom hdraft lines hroom,
    exitsLine]
  simp only [List.isEmpty_iff]

/-- A well with a yard around it and a house above. The name of the house begins like that of the
well, and the yard has no name. -/
def farmText : String :=
  r#"[world]
id = "farm"
start_room = "well"

[[room]]
id = "wellhouse"

  [[room.exit]]
  direction = "down"
  target = "well"

[[room]]
id = ""

  [[room.exit]]
  direction = "west"
  target = "well"

[[room]]
id = "well"

  [[room.exit]]
  direction = "Up"
  target = "wellhouse"

  [[room.exit]]
  direction = "east"
  target = ""
"#

set_option maxRecDepth 100000 in
theorem exists_farm : ∃ (world : World) (room : Room), World.load farmText = .ok world ∧
    (Game.start world).currentRoom = .ok room ∧ world.startRoom = "well" ∧
    world.exitsFrom "well" = ["east", "up"] := by
  obtain ⟨draft, world, htext, hdraft, hroom, hstart, hexits⟩ := exists_world_of_chars farmText
    (fun _ world => (world.room? world.startRoom).isSome = true ∧ world.startRoom = "well" ∧
      world.exitsFrom "well" = ["east", "up"])
    String.toList_ofList (by decide +kernel)
  obtain ⟨room, hroom⟩ := Option.isSome_iff_exists.mp hroom
  exact ⟨world, room, load_eq_ok_iff.mpr ⟨draft, htext, hdraft⟩,
    Game.currentRoom_eq_ok_iff.mpr hroom, hstart, hexits⟩

/-- In the well, the ways to the yard and up are shown, and not those that lead here. -/
theorem well_shows_its_exits : ∃ world, World.load farmText = .ok world ∧
    LooksAround "look at the" ∧
    ((Game.start world).step "look at the").output.blocks.getLast? =
      some ⟨.exits, "Exits: east, up"⟩ := by
  obtain ⟨world, room, hload, hroom, hstart, hexits⟩ := exists_farm
  obtain ⟨draft, -, hdraft⟩ := load_eq_ok_iff.mp hload
  have hlooks : LooksAround "look at the" := ⟨⟨"look", ["at"], [["at"]]⟩, by decide⟩
  obtain ⟨directions, hlists, hlast⟩ := exits_line_tells_the_truth.2 hdraft [] hroom hlooks
  rw [← hstart] at hexits
  obtain rfl : directions = ["east", "up"] :=
    (hlists.unique (listsExits_exitsFrom _ _)).trans hexits
  exact ⟨world, hload, hlooks, hlast⟩

end Adventure
