import Adventure.Proofs.Conservation
import Adventure.Proofs.Faults
import Adventure.Proofs.Plan

/-!
# Missing rooms are foreseen

A command misses a room in two ways only: the player stands in none, or goes through an exit that
leads to none (`Action.run_missingRoom`). Both can be told from the plan of the world, which play
leaves as it is.

* A player who starts in a room is always in one, so only an exit can lead to a missing room, and
  `World.problems` lists that exit.
* A player who does not can do nothing, since the exits of a loaded world leave its rooms
  (`exists_room_of_exit`): the game stays as it is, and each missing room is the one to start in.

Results:

* `problems_foresee_missing_rooms`: the above, for every draft that is accepted and all lines.
-/

namespace Adventure

/-! ## Lines that miss a room -/

/-- **An action misses a room** where the player stands in none, or behind an exit it goes
through. -/
theorem Action.run_missingRoom {action : Action} {command : Command} {turn : Turn} {key : String}
    (h : (action.run command turn).error? = some (.missingRoom key)) :
    turn.game.currentRoom = .error (.missingRoom key) ∨
      action = .go ∧ ∃ direction, command.object? = some direction ∧
        turn.game.world.exit? turn.game.player.room direction = some key ∧
        turn.game.world.room? key = none := by
  refine (Action.run_fault h trivial).imp_right ?_
  rintro ⟨haction, direction, target, hobject, hexit, hroom, herror⟩
  obtain rfl := CommandError.missingRoom.inj herror
  exact ⟨haction, direction, hobject, hexit, hroom⟩

/-- The line is answered with this error. -/
def Game.Raises (game : Game) (line : String) (error : CommandError) : Prop :=
  isQuit line = false ∧
    (VerbTable.standard.attempt line ⟨game, Output.empty⟩).error? = some error

/-- The line goes through the exit in this direction, which leads to the target. -/
def Game.GoesThrough (game : Game) (line direction target : String) : Prop :=
  ∃ command route, Command.parse line = .ok command ∧
    VerbTable.standard.get? command.verb = some route ∧ route.action = .go ∧
    (route.expand command).object? = some direction ∧
    game.world.exit? game.player.room direction = some target

theorem Game.GoesThrough.exit?_eq {game : Game} {line direction target : String}
    (h : game.GoesThrough line direction target) :
    game.world.exit? game.player.room direction = some target := by
  obtain ⟨-, -, -, -, -, -, hexit⟩ := h
  exact hexit

/-- **A line misses a room** where the player stands in none, or behind an exit it goes through. -/
theorem raises_missingRoom {game : Game} {line key : String}
    (h : game.Raises line (.missingRoom key)) :
    game.currentRoom = .error (.missingRoom key) ∨
      ∃ direction, game.GoesThrough line direction key ∧ game.world.room? key = none := by
  obtain ⟨-, herror⟩ := h
  rcases attempt_cases VerbTable.standard line with ⟨error, hunread, hfails⟩ |
    ⟨command, route, hparse, hroute, hruns⟩
  · rw [hfails] at herror
    obtain rfl := Option.some.inj herror
    rcases hunread with h | ⟨verb, h⟩
    · cases h
    · cases h
  · rw [hruns] at herror
    refine (Action.run_missingRoom herror).imp_right ?_
    rintro ⟨haction, direction, hobject, hexit, hroom⟩
    exact ⟨direction, ⟨command, route, hparse, hroute, haction, hobject, hexit⟩, hroom⟩

/-! ## A player in a room -/

/-- The player stands in a room. -/
def Game.Placed (game : Game) : Prop := ∃ room, game.currentRoom = .ok room

theorem placed_iff {game : Game} :
    game.Placed ↔ (game.world.room? game.player.room).isSome = true := by
  unfold Game.Placed
  rw [Option.isSome_iff_exists]
  simp only [Game.currentRoom_eq_ok_iff]

theorem Moves.placed {g g' : Game} (h : Moves g g') (hplaced : g.Placed) : g'.Placed := by
  have hplan := h.samePlan
  rcases h with ⟨key, room, hroom, rfl⟩ | ⟨room, index, item, -, -, rfl⟩ |
    ⟨room, index, item, -, -, rfl⟩
  · exact ⟨room, Game.currentRoom_eq_ok_iff.mpr hroom⟩
  · exact placed_iff.mpr ((hplan.isSome_room? _).trans (placed_iff.mp hplaced))
  · exact placed_iff.mpr ((hplan.isSome_room? _).trans (placed_iff.mp hplaced))

theorem Opens.placed {g g' : Game} (h : Opens g g') : g'.Placed := by
  obtain ⟨room, index, container, hroom, -, -, rfl⟩ := h
  exact ⟨_, Game.currentRoom_withFloor hroom _⟩

theorem step_placed {game : Game} (line : String) (h : game.Placed) :
    (game.step line).game.Placed :=
  step_keeps (P := Game.Placed) (fun _ _ hmove => hmove.placed) (fun _ _ hopens _ => hopens.placed)
    h line

/-- **Who is in a room stays in one.** -/
theorem run_placed {game : Game} (h : game.Placed) (lines : List String) :
    (game.run lines).Placed :=
  run_keeps (P := Game.Placed) (fun _ line hg => step_placed line hg) h lines

/-! ## A player in no room -/

/-- Without a room, nothing but going anywhere could change the game. -/
theorem not_change_of_missing {g g' : Game} {missing : CommandError} {action : Action}
    (hroom : g.currentRoom = .error missing) (haction : action ≠ .go) : ¬ action.change g g' := by
  have hnone : ∀ room, g.currentRoom ≠ .ok room := fun room h => nomatch hroom.symm.trans h
  intro h
  cases action with
  | go => exact haction rfl
  | take =>
    obtain ⟨room, -, -, hok, -⟩ := h
    exact hnone room hok
  | drop =>
    obtain ⟨room, -, -, hok, -⟩ := h
    exact hnone room hok
  | use =>
    obtain ⟨room, -, -, hok, -⟩ := h
    exact hnone room hok
  | look => exact h
  | examine => exact h
  | inventory => exact h
  | help => exact h

theorem go_game_of_no_exit (command : Command) (turn : Turn)
    (h : ∀ direction, turn.game.world.exit? turn.game.player.room direction = none) :
    (go command turn).turn.game = turn.game := by
  unfold go
  cases command.object? with
  | none => rfl
  | some direction =>
    dsimp only
    rw [h direction]
    rfl

/-- **Who is in no room and has no way out of it is stuck.** -/
theorem step_game_of_missing {game : Game} {missing : CommandError}
    (hroom : game.currentRoom = .error missing)
    (hexits : ∀ direction, game.world.exit? game.player.room direction = none) (line : String) :
    (game.step line).game = game := by
  cases hquit : isQuit line with
  | true => rw [Game.step, if_pos hquit]
  | false =>
    rw [step_game_of_not_quit hquit]
    rcases attempt_cases VerbTable.standard line with ⟨error, -, hfails⟩ |
      ⟨command, route, -, -, hruns⟩
    · rw [hfails]
      rfl
    · rw [hruns]
      by_cases hgo : route.action = .go
      · rw [hgo]
        exact go_game_of_no_exit _ ⟨game, Output.empty⟩ hexits
      · rcases Relation.ReflTransGen.cases_head (route.action.run_changes (route.expand command)
          ⟨game, Output.empty⟩) with hsame | ⟨mid, hfirst, -⟩
        · exact hsame.symm
        · exact absurd hfirst (not_change_of_missing hroom hgo)

/-! ## Every run -/

/-- What is shown before the first line ends with the room of the player. -/
def Game.OpensInRoom (game : Game) : Prop :=
  ∃ welcome room, game.currentRoom = .ok room ∧
    game.opening = Output.addRoom welcome game.world room

theorem opensInRoom_of_placed {game : Game} (h : game.Placed) : game.OpensInRoom := by
  obtain ⟨room, hroom⟩ := h
  unfold Game.OpensInRoom Game.opening
  rw [hroom]
  exact ⟨_, room, rfl, rfl⟩

theorem mem_problems_of_dangling {world : World} {room direction target : String}
    (hexit : world.exit? room direction = some target) (htarget : world.room? target = none) :
    Problem.danglingExit room direction target ∈ world.problems := by
  have hmissing : world.rooms.contains target = false := by
    unfold Table.contains
    rw [show world.rooms.get? target = none from htarget]
    rfl
  refine List.mem_append_left _ (List.mem_append_right _ (List.mem_map.mpr
    ⟨(⟨room, direction⟩, target), List.mem_filter.mpr ⟨Table.get?_eq_some_iff.mp hexit, ?_⟩, rfl⟩))
  rw [hmissing]
  rfl

theorem placed_start_iff (world : World) :
    (Game.start world).Placed ↔ world.rooms.contains world.startRoom = true :=
  placed_iff

/-- From a room, only an exit that is reported can lead to a missing one. -/
theorem raises_foreseen {world : World} {lines : List String} {line target : String}
    (hplaced : ((Game.start world).run lines).Placed)
    (h : ((Game.start world).run lines).Raises line (.missingRoom target)) :
    ∃ direction, ((Game.start world).run lines).GoesThrough line direction target ∧
      Problem.danglingExit ((Game.start world).run lines).player.room direction target ∈
        world.problems := by
  obtain ⟨room, hroom⟩ := hplaced
  rcases raises_missingRoom h with hmissing | ⟨direction, hgoes, htarget⟩
  · exact nomatch hroom.symm.trans hmissing
  · have hplan := run_samePlan (Game.start world) lines
    have hexit := hgoes.exit?_eq
    rw [hplan.exit?] at hexit
    have hsome := hplan.isSome_room? target
    rw [htarget, eq_comm, Option.isSome_none, Option.isSome_eq_false_iff,
      Option.isNone_iff_eq_none] at hsome
    exact ⟨direction, hgoes, mem_problems_of_dangling hexit hsome⟩

/-- Who starts in no room of a loaded world stays there. -/
theorem run_of_missing {draft : Draft} {world : World} (h : World.ofDraft draft = .ok world)
    (hstart : world.room? world.startRoom = none) (lines : List String) :
    (Game.start world).run lines = Game.start world := by
  have hexits : ∀ direction, world.exit? world.startRoom direction = none := by
    intro direction
    cases hexit : world.exit? world.startRoom direction with
    | none => rfl
    | some target =>
      obtain ⟨room, hroom⟩ := exists_room_of_exit h hexit
      exact nomatch hstart.symm.trans hroom
  have hroom : (Game.start world).currentRoom = .error (.missingRoom world.startRoom) :=
    Game.currentRoom_eq_error_iff.mpr ⟨hstart, rfl⟩
  refine run_keeps (P := fun g => g = Game.start world) (fun g line hg => ?_) rfl lines
  rw [hg]
  exact step_game_of_missing hroom hexits line

theorem mem_problems_of_no_start {world : World}
    (h : world.rooms.contains world.startRoom = false) :
    Problem.missingStartRoom world.startRoom ∈ world.problems := by
  refine List.mem_append_left _ (List.mem_append_left _ (List.mem_append_right _ ?_))
  rw [h]
  exact List.mem_singleton.mpr rfl

/-- **The problems of a world foresee every missing room**, for every draft that is accepted. -/
theorem problems_foresee_missing_rooms {draft : Draft} {world : World}
    (h : World.ofDraft draft = .ok world) :
    (world.rooms.contains world.startRoom = true → ∀ lines,
      ((Game.start world).run lines).Placed ∧
      ∀ line target, ((Game.start world).run lines).Raises line (.missingRoom target) →
        ∃ direction, ((Game.start world).run lines).GoesThrough line direction target ∧
          Problem.danglingExit ((Game.start world).run lines).player.room direction target ∈
            world.problems) ∧
    (world.rooms.contains world.startRoom = false →
      Problem.missingStartRoom world.startRoom ∈ world.problems ∧ ∀ lines,
        ((Game.start world).run lines).player.room = world.startRoom ∧
        ∀ line target, ((Game.start world).run lines).Raises line (.missingRoom target) →
          target = world.startRoom) ∧
    (world.problems = [] → ∀ lines, ((Game.start world).run lines).OpensInRoom ∧
      ∀ line target, ¬ ((Game.start world).run lines).Raises line (.missingRoom target)) := by
  have hin : world.rooms.contains world.startRoom = true → ∀ lines,
      ((Game.start world).run lines).Placed := fun hstart lines =>
    run_placed ((placed_start_iff world).mpr hstart) lines
  refine ⟨fun hstart lines => ⟨hin hstart lines, fun line target hraises =>
      raises_foreseen (hin hstart lines) hraises⟩,
    fun hstart => ⟨mem_problems_of_no_start hstart, fun lines => ?_⟩,
    fun hproblems lines => ?_⟩
  · have hnone : world.room? world.startRoom = none := by
      rw [← Option.isNone_iff_eq_none, ← Option.isSome_eq_false_iff]
      exact hstart
    rw [run_of_missing h hnone lines]
    refine ⟨rfl, fun line target hraises => ?_⟩
    rcases raises_missingRoom hraises with hmissing | ⟨direction, hgoes, -⟩
    · unfold Game.currentRoom at hmissing
      rw [show (Game.start world).world.room? (Game.start world).player.room = none from hnone]
        at hmissing
      exact (CommandError.missingRoom.inj (Except.error.inj hmissing)).symm
    · obtain ⟨room, hroom⟩ := exists_room_of_exit h hgoes.exit?_eq
      exact nomatch hnone.symm.trans hroom
  · have hstart : world.rooms.contains world.startRoom = true := by
      by_contra hnot
      have hreported := mem_problems_of_no_start (Bool.eq_false_iff.mpr hnot)
      rw [hproblems] at hreported
      exact absurd hreported List.not_mem_nil
    refine ⟨opensInRoom_of_placed (hin hstart lines), fun line target hraises => ?_⟩
    obtain ⟨direction, -, hreported⟩ := raises_foreseen (hin hstart lines) hraises
    rw [hproblems] at hreported
    exact absurd hreported List.not_mem_nil

/-- A ledge with a way north into an abyss that is no room. -/
def ledgeText : String :=
  r#"[world]
id = "heights"
start_room = "ledge"

[[room]]
id = "ledge"

  [[room.exit]]
  direction = "north"
  target = "abyss"
"#

set_option maxRecDepth 100000 in
/-- Going north from the ledge misses the abyss, and the exit is among the problems. -/
theorem ledge_foreseen : ∃ world, World.load ledgeText = .ok world ∧
    (Game.start world).Raises "go north" (.missingRoom "abyss") ∧
    ∃ direction, (Game.start world).GoesThrough "go north" direction "abyss" ∧
      Problem.danglingExit world.startRoom direction "abyss" ∈ world.problems := by
  obtain ⟨draft, world, htext, hdraft, hstart, hraises⟩ := exists_world_of_chars ledgeText
    (fun _ world => world.rooms.contains world.startRoom = true ∧
      isQuit "go north" = false ∧
        (VerbTable.standard.attempt "go north" ⟨Game.start world, Output.empty⟩).error? =
          some (.missingRoom "abyss"))
    String.toList_ofList (by decide +kernel)
  exact ⟨world, load_eq_ok_iff.mpr ⟨draft, htext, hdraft⟩, hraises,
    ((problems_foresee_missing_rooms hdraft).1 hstart []).2 "go north" "abyss" hraises⟩

end Adventure
