import Adventure.Proofs.Loading
import Adventure.Proofs.Phrases
import Adventure.Proofs.Plan

/-!
# Walking by typing a direction

Directions are kept trimmed and in lower case, but with all that stands between their words. What
"go" makes of a direction is what is heard of it, so an exit is followed when its direction is
spelled by its words, and missed otherwise: a direction with noise in it, with more than a space
between words, or without any word, is shown to the player but cannot be typed.

Results:

* `spelled_exits_are_walked`: exactly that, for every draft that is accepted and after all lines.
-/

namespace Adventure

/-- The game after following the exit in a direction, if there is one and it leads to a room. -/
def Game.follow (game : Game) (direction : String) : Game :=
  match game.world.exit? game.player.room direction with
  | none => game
  | some target =>
    if game.world.rooms.contains target then
      { game with player := { game.player with room := target } }
    else game

theorem Game.follow_of_exit {game : Game} {direction target : String}
    (hexit : game.world.exit? game.player.room direction = some target)
    (htarget : game.world.rooms.contains target = true) :
    game.follow direction = { game with player := { game.player with room := target } } := by
  rw [follow, hexit]
  simp only [htarget, if_true]

theorem Game.follow_of_no_exit {game : Game} {direction : String}
    (hexit : game.world.exit? game.player.room direction = none) :
    game.follow direction = game := by
  rw [follow, hexit]

theorem go_game (command : Command) (turn : Turn) :
    (go command turn).turn.game =
      if command.args.isEmpty then turn.game
      else turn.game.follow (Text.joinWords command.args) := by
  unfold go Command.object? Game.follow
  cases command.args.isEmpty with
  | true => rfl
  | false =>
    simp only [Bool.false_eq_true, if_false]
    cases turn.game.world.exit? turn.game.player.room (Text.joinWords command.args) with
    | none => rfl
    | some target =>
      cases hroom : turn.game.world.room? target with
      | none =>
        have hmissing : turn.game.world.rooms.contains target = false :=
          congrArg Option.isSome hroom
        simp only [hroom, hmissing]
        rfl
      | some room =>
        have hthere : turn.game.world.rooms.contains target = true :=
          congrArg Option.isSome hroom
        simp only [hroom, hthere, if_true]
        rfl

/-- **Typing a direction after "go" follows the exit in the direction that is heard.** -/
theorem step_go_game (game : Game) (text : String) : (game.step ("go " ++ text)).game =
    if (phraseWords text).isEmpty then game else game.follow (heard text) := by
  have hline : "go " ++ text = "go" ++ " " ++ text := rfl
  rw [hline, isVerb_go.step_game, Action.run, go_game]
  rfl

/-- A direction of a loaded world is in lower case. -/
theorem lower_direction {draft : Draft} {world : World} (h : World.ofDraft draft = .ok world)
    {room direction target : String} (hexit : world.exit? room direction = some target) :
    Text.lower direction = direction := by
  obtain ⟨-, -, -, exit, -, rfl, -⟩ := (exit?_eq_some_iff h).mp hexit
  exact Text.lower_lower _

/-- **An exit is walked by typing its direction when its words spell it**, and not otherwise, unless
what is heard instead is the direction of an exit too. -/
theorem spelled_exits_are_walked {draft : Draft} {world : World}
    (h : World.ofDraft draft = .ok world) (lines : List String) {direction target : String}
    (hexit : ((Game.start world).run lines).world.exit? ((Game.start world).run lines).player.room
      direction = some target)
    (htarget : ((Game.start world).run lines).world.rooms.contains target = true) :
    (Spelled direction →
      (((Game.start world).run lines).step ("go " ++ direction)).game.player.room = target) ∧
    (¬ Spelled direction →
      (phraseWords direction ≠ [] → ((Game.start world).run lines).world.exit?
        ((Game.start world).run lines).player.room (heard direction) = none) →
      (((Game.start world).run lines).step ("go " ++ direction)).game =
        (Game.start world).run lines) := by
  have hloaded := hexit
  rw [(run_samePlan (Game.start world) lines).exit?] at hloaded
  rw [spelled_iff (lower_direction h hloaded), step_go_game]
  generalize (Game.start world).run lines = game at hexit htarget ⊢
  refine ⟨fun ⟨hnonempty, hheard⟩ => ?_, fun hnot hother => ?_⟩
  · have hwords : ¬ (phraseWords direction).isEmpty = true := by
      intro hempty
      rw [heard, List.isEmpty_iff.mp hempty] at hheard
      exact hnonempty hheard.symm
    rw [if_neg hwords, hheard, Game.follow_of_exit hexit htarget]
  · split
    · rfl
    · rename_i hwords
      exact Game.follow_of_no_exit (hother (mt List.isEmpty_iff.mpr hwords))

/-- A hall with a cellar below and an attic up the stairs. -/
def hallText : String :=
  r#"[world]
id = "house"
start_room = "hall"

[[room]]
id = "hall"

  [[room.exit]]
  direction = "Down"
  target = "cellar"

  [[room.exit]]
  direction = "Up the stairs"
  target = "attic"

[[room]]
id = "cellar"

[[room]]
id = "attic"
"#

set_option maxRecDepth 100000 in
theorem exists_hall : ∃ world, World.load hallText = .ok world ∧ world.startRoom = "hall" ∧
    (world.exit? "hall" "down" = some "cellar" ∧ world.rooms.contains "cellar" = true) ∧
    (world.exit? "hall" "up the stairs" = some "attic" ∧ world.rooms.contains "attic" = true) ∧
    world.exit? "hall" (heard "up the stairs") = none := by
  obtain ⟨draft, world, htext, hdraft, hholds⟩ := exists_world_of_chars hallText
    (fun _ world => world.startRoom = "hall" ∧
      (world.exit? "hall" "down" = some "cellar" ∧ world.rooms.contains "cellar" = true) ∧
      (world.exit? "hall" "up the stairs" = some "attic" ∧ world.rooms.contains "attic" = true) ∧
      world.exit? "hall" (heard "up the stairs") = none)
    String.toList_ofList (by decide +kernel)
  exact ⟨world, load_eq_ok_iff.mpr ⟨draft, htext, hdraft⟩, hholds⟩

/-- From the hall, "go down" leads to the cellar, and "go up the stairs" nowhere. -/
theorem hall_left_by_cellar : ∃ world, World.load hallText = .ok world ∧
    ((Game.start world).step ("go " ++ "down")).game.player.room = "cellar" ∧
    ((Game.start world).step ("go " ++ "up the stairs")).game = Game.start world := by
  obtain ⟨world, hload, hstart, ⟨hdown, hcellar⟩, ⟨hup, hattic⟩, hheard⟩ := exists_hall
  obtain ⟨draft, -, hdraft⟩ := load_eq_ok_iff.mp hload
  rw [← hstart] at hdown hup hheard
  exact ⟨world, hload,
    (spelled_exits_are_walked hdraft [] hdown hcellar).1 (by decide),
    (spelled_exits_are_walked hdraft [] hup hattic).2 (by decide) fun _ => hheard⟩

/-- The way up the stairs is there and leads to the attic, but who types it stays in the hall. -/
theorem stairs_not_climbed : ∃ world, World.load hallText = .ok world ∧
    world.exit? (Game.start world).player.room "up the stairs" = some "attic" ∧
    world.rooms.contains "attic" = true ∧
    ((Game.start world).step ("go " ++ "up the stairs")).game.player.room ≠ "attic" := by
  obtain ⟨world, hload, hstart, -, ⟨hup, hattic⟩, hheard⟩ := exists_hall
  rw [← hstart] at hup hheard
  refine ⟨world, hload, hup, hattic, ?_⟩
  have hstays : ((Game.start world).step ("go " ++ "up the stairs")).game = Game.start world := by
    rw [step_go_game, if_neg (by decide)]
    exact Game.follow_of_no_exit hheard
  rw [hstays]
  exact fun h => absurd (hstart.symm.trans h) (by decide)

end Adventure
