import Adventure.Proofs.Actions

/-!
# A failed command changes nothing

Whatever words a verb table knows, whatever the world and the player are like, and whatever the
command holds: if carrying it out fails, the game is the one from before. What has been shown is the
same too, unless the command drops items where there is no room; then the phrases before the one
that failed may have been reported.

Results:

* `dispatch_failed_unchanged`: the above.
-/

namespace Adventure

/-- **A failed command leaves the game as it was**, and the output too but for phrases reported by a
drop without a room. -/
theorem dispatch_failed_unchanged {table : VerbTable} {command : Command} {turn after : Turn}
    {error : CommandError} (h : table.dispatch command turn = .failed error after) :
    after.game = turn.game ∧ (after.output = turn.output ∨
      ∃ route reported words rest errors, table.get? command.verb = some route ∧
        route.action = .drop ∧ turn.game.currentRoom = .error error ∧
        (route.expand command).phrases = reported ++ words :: rest ∧
        List.Forall₂ (fun words error => carriedBy words turn.game = .error error)
          reported errors ∧
        (∃ located, carriedBy words turn.game = .ok located) ∧
        after.output = turn.output.sayAll (errors.map (·.message))) := by
  cases hroute : table.get? command.verb with
  | none =>
    rw [dispatch_of_no_route hroute] at h
    cases h
    exact ⟨rfl, Or.inl rfl⟩
  | some route =>
    rw [dispatch_of_route hroute] at h
    have of_placed : (route.action = .drop → turn.Placed) → after = turn := by
      intro hplaced
      have hclean := route.action.run_clean (route.expand command) turn hplaced
      rw [h] at hclean
      exact hclean
    cases hroom : turn.game.currentRoom with
    | ok room =>
      obtain rfl := of_placed fun _ => ⟨room, hroom⟩
      exact ⟨rfl, Or.inl rfl⟩
    | error missing =>
      by_cases hdrop : route.action = .drop
      · rw [hdrop, Action.run] at h
        rcases drop_of_missing hroom (route.expand command) with
          ⟨other, hfailed⟩ | ⟨rest, errors, ⟨reported, hphrases, hall⟩, hends⟩
        · obtain ⟨-, rfl⟩ := Outcome.failed.inj (h.symm.trans hfailed)
          exact ⟨rfl, Or.inl rfl⟩
        · rcases hends with ⟨-, hdone⟩ | ⟨⟨words, later, located, rfl, hfound⟩, hfailed⟩
          · exact absurd (h.symm.trans hdone) (by simp)
          · obtain ⟨rfl, rfl⟩ := Outcome.failed.inj (h.symm.trans hfailed)
            exact ⟨rfl, Or.inr ⟨route, reported, words, later, errors, rfl, hdrop, rfl, hphrases,
              hall, ⟨located, hfound⟩, rfl⟩⟩
      · obtain rfl := of_placed fun hd => absurd hd hdrop
        exact ⟨rfl, Or.inl rfl⟩

/-- A player with a key in a room that is not part of the world. -/
def lostGame : Game where
  world := ⟨"w", "", "", "a", Table.empty, Table.empty, [], []⟩
  player := { room := "nowhere", inventory := [Item.make "k" "key" ""] }

/-- Dropping a gem and the key there reports the gem, fails, and leaves the key where it is. -/
theorem lostGame_drop_unchanged : ∃ after,
    VerbTable.standard.dispatch ⟨"drop", ["gem", "key"], [["gem"], ["key"]]⟩
      ⟨lostGame, Output.empty⟩ = .failed (.missingRoom "nowhere") after ∧
    after.output.lines = ["You don't have the gem."] ∧ after.game = lostGame := by
  have herror : (VerbTable.standard.dispatch ⟨"drop", ["gem", "key"], [["gem"], ["key"]]⟩
      ⟨lostGame, Output.empty⟩).error? = some (.missingRoom "nowhere") := by decide +kernel
  have hlines : (VerbTable.standard.dispatch ⟨"drop", ["gem", "key"], [["gem"], ["key"]]⟩
      ⟨lostGame, Output.empty⟩).turn.output.lines = ["You don't have the gem."] := by
    decide +kernel
  cases h : VerbTable.standard.dispatch ⟨"drop", ["gem", "key"], [["gem"], ["key"]]⟩
      ⟨lostGame, Output.empty⟩ with
  | done after =>
    rw [h] at herror
    exact absurd herror (by simp [Outcome.error?])
  | failed error after =>
    rw [h] at herror hlines
    obtain rfl := Option.some.inj herror
    exact ⟨after, rfl, hlines, (dispatch_failed_unchanged h).1⟩

end Adventure
