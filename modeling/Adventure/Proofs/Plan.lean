import Adventure.Proofs.Runs

/-!
# The plan of a world

Play moves items and the player about, and opens items. All else about a world is its plan: names,
exits, rules, and the rooms but for what lies in them. A line leaves the plan as it is
(`step_samePlan`), and so does a run (`run_samePlan`).
-/

namespace Adventure

/-- The room with nothing on its floor. -/
def Room.bare (room : Room) : Room := { room with items := [] }

/-- The worlds are the same but for what lies on the floors. -/
structure World.SamePlan (world after : World) : Prop where
  header : after = { world with rooms := after.rooms }
  rooms : ∀ key, (after.room? key).map Room.bare = (world.room? key).map Room.bare

namespace World.SamePlan

variable {world mid after : World}

theorem refl (world : World) : world.SamePlan world := ⟨rfl, fun _ => rfl⟩

theorem trans (h : world.SamePlan mid) (h' : mid.SamePlan after) : world.SamePlan after where
  header := by
    rw [h'.header, h.header]
  rooms := fun key => (h'.rooms key).trans (h.rooms key)

theorem exits (h : world.SamePlan after) : after.exits = world.exits := by
  rw [h.header]

theorem useRules (h : world.SamePlan after) : after.useRules = world.useRules := by
  rw [h.header]

theorem exit? (h : world.SamePlan after) (room direction : String) :
    after.exit? room direction = world.exit? room direction := by
  rw [World.exit?, World.exit?, h.exits]

/-- The rooms have the same keys. -/
theorem keys (h : world.SamePlan after) : after.rooms.keys = world.rooms.keys := by
  have hbare : after.rooms.map Room.bare = world.rooms.map Room.bare := by
    refine Table.ext_get? fun key => ?_
    rw [Table.get?_map, Table.get?_map]
    exact h.rooms key
  rw [← Table.keys_map after.rooms Room.bare, hbare, Table.keys_map]

theorem isSome_room? (h : world.SamePlan after) (key : String) :
    (after.room? key).isSome = (world.room? key).isSome := by
  have hkey := congrArg Option.isSome (h.rooms key)
  rw [Option.isSome_map, Option.isSome_map] at hkey
  exact hkey

end World.SamePlan

/-- New items on a floor leave the plan as it is. -/
theorem samePlan_withFloor (world : World) (key : String) (items : List Item) :
    world.SamePlan (world.withFloor key items) where
  header := rfl
  rooms := fun q => by
    rw [World.room?_withFloor]
    split
    · rename_i hq
      subst hq
      rw [Option.map_map]
      rfl
    · rfl

/-! ## What play leaves as it is -/

theorem Moves.samePlan {g g' : Game} (h : Moves g g') : g.world.SamePlan g'.world := by
  rcases h with ⟨key, room, -, rfl⟩ | ⟨room, index, item, -, -, rfl⟩ |
    ⟨room, index, item, -, -, rfl⟩
  · exact World.SamePlan.refl _
  · exact samePlan_withFloor _ _ _
  · exact samePlan_withFloor _ _ _

theorem Opens.samePlan {g g' : Game} (h : Opens g g') : g.world.SamePlan g'.world := by
  obtain ⟨room, index, container, -, -, -, rfl⟩ := h
  exact samePlan_withFloor _ _ _

/-- **A line leaves the plan as it is.** -/
theorem step_samePlan (game : Game) (line : String) :
    game.world.SamePlan (game.step line).game.world :=
  step_keeps (P := fun g => game.world.SamePlan g.world)
    (fun _ _ hmove h => h.trans hmove.samePlan) (fun _ _ hopens h => h.trans hopens.samePlan)
    (World.SamePlan.refl _) line

/-- **A run leaves the plan as it is.** -/
theorem run_samePlan (game : Game) (lines : List String) :
    game.world.SamePlan (game.run lines).world :=
  run_keeps (P := fun g => game.world.SamePlan g.world)
    (fun g line h => h.trans (step_samePlan g line)) (World.SamePlan.refl _) lines

end Adventure
