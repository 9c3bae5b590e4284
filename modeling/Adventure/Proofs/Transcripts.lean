import Adventure.Proofs.Lines

/-!
# A conversation line by line

The lines of input are answered one by one (`exchange`), up to the first that quits. While none
does, a conversation is an exchange for each line and then the conversation of the game reached
(`converse_append`), and behind one that does nothing is read (`converse_append_of_quits`). A line
counts for its tokens only (`converse_map`). The lines are those of the text on the input
(`byteLines_toUTF8`).

Results:

* `transcripts_compose`: what is printed on a text put behind whole lines is what is printed on the
  lines and then what the game they lead to has printed on the text, up to the first line that
  quits; the exit code is 0, and carriage returns make no difference.
-/

namespace Adventure

namespace Console

/-! ## Transcripts -/

theorem Transcript.after_empty (transcript : Transcript) : transcript.after "" = transcript := by
  rw [after, String.empty_append]

theorem Transcript.after_after (transcript : Transcript) (before text : String) :
    (transcript.after text).after before = transcript.after (before ++ text) := by
  rw [after, after, after, String.append_assoc]

/-! ## Conversations -/

/-- What is printed for lines none of which quits: a prompt and a reply for each. -/
def exchanges (game : Game) : List String → String
  | [] => ""
  | line :: lines =>
    prompt ++ print (game.step line).output ++ exchanges (game.step line).game lines

section Converse

variable {line : String} {lines : List String}

theorem exchange_of_not_quit (h : isQuit line = false) (game : Game) :
    exchange game (.line line) =
      ⟨⟨print (game.step line).output, 0⟩, some (game.step line).game⟩ := by
  rw [exchange, quit_step, h, if_neg Bool.false_ne_true]

theorem exchange_of_quit (h : isQuit line = true) (game : Game) :
    exchange game (.line line) = ⟨⟨print (game.step line).output, 0⟩, none⟩ := by
  rw [exchange, quit_step, h, if_pos rfl]

theorem converse_cons_of_not_quit (h : isQuit line = false) (game : Game)
    (rest : List (Option String)) : converse game (some line :: rest) =
      (converse (game.step line).game rest).after (prompt ++ print (game.step line).output) := by
  rw [converse, Reading.ofText?, exchange_of_not_quit h]

theorem converse_cons_of_quit (h : isQuit line = true) (game : Game)
    (rest : List (Option String)) :
    converse game (some line :: rest) = ⟨prompt ++ print (game.step line).output, 0⟩ := by
  rw [converse, Reading.ofText?, exchange_of_quit h, Transcript.after]

/-- **After lines none of which quits, the conversation is that of the game they lead to.** -/
theorem converse_append (h : ∀ line ∈ lines, isQuit line = false) (game : Game)
    (rest : List (Option String)) : converse game (lines.map some ++ rest) =
      (converse (game.run lines) rest).after (exchanges game lines) := by
  induction lines generalizing game with
  | nil => exact (Transcript.after_empty _).symm
  | cons line lines ih =>
    obtain ⟨hline, hlines⟩ := List.forall_mem_cons.mp h
    rw [List.map_cons, List.cons_append, converse_cons_of_not_quit hline, ih hlines,
      Transcript.after_after, run_cons, exchanges]

/-- **Behind a line that quits nothing is read.** -/
theorem converse_append_of_quits (h : ∃ line ∈ lines, isQuit line = true) (game : Game)
    (rest : List (Option String)) :
    converse game (lines.map some ++ rest) = converse game (lines.map some) := by
  induction lines generalizing game with
  | nil => simp at h
  | cons line lines ih =>
    rw [List.map_cons, List.cons_append]
    cases hline : isQuit line with
    | true => rw [converse_cons_of_quit hline, converse_cons_of_quit hline]
    | false =>
      have hlines : ∃ line ∈ lines, isQuit line = true := by simpa [hline] using h
      rw [converse_cons_of_not_quit hline, converse_cons_of_not_quit hline, ih hlines]

/-- A conversation fails over nothing but a line that is no text. -/
theorem exitCode_converse (game : Game) (lines : List String) :
    (converse game (lines.map some)).exitCode = 0 := by
  induction lines generalizing game with
  | nil => rfl
  | cons line lines ih =>
    rw [List.map_cons]
    cases hline : isQuit line with
    | true => rw [converse_cons_of_quit hline]
    | false =>
      rw [converse_cons_of_not_quit hline]
      exact ih (game.step line).game

/-- A line counts for its tokens only. -/
theorem exchange_eq_of_tokens_eq {line other : String} (h : tokens line = tokens other)
    (game : Game) : exchange game (.line line) = exchange game (.line other) := by
  rw [exchange, exchange, step_eq_of_tokens_eq h]

/-- **Rewriting lines without changing their tokens leaves the conversation as it is.** -/
theorem converse_map {rewrite : String → String}
    (h : ∀ line, tokens (rewrite line) = tokens line) (game : Game) (lines : List String) :
    converse game ((lines.map rewrite).map some) = converse game (lines.map some) := by
  induction lines generalizing game with
  | nil => rfl
  | cons line lines ih =>
    rw [List.map_cons, List.map_cons, List.map_cons, converse, converse, Reading.ofText?,
      Reading.ofText?, exchange_eq_of_tokens_eq (h line) game]
    simp only [ih]

end Converse

/-! ## Texts on the input -/

/-- What comes of a text on the input. -/
def runOn (loaded : Except WorldError World) (input : String) : Transcript :=
  run loaded (byteLines input.toUTF8)

/-- What is printed of a world before the prompt that stands behind whole lines, none of which
quits. -/
def printedFor (world : World) (input : String) : String :=
  greeting (Game.start world) ++ exchanges (Game.start world) (linesOf input)

section RunOn

variable {loaded : Except WorldError World} {world : World} {input : String}

theorem byteLines_append (h : EndsLine input) (rest : String) :
    byteLines (input ++ rest).toUTF8 = (linesOf input).map some ++ byteLines rest.toUTF8 := by
  rw [byteLines_toUTF8, byteLines_toUTF8, textLines_eq, textLines_eq, linesOf_append h,
    List.map_append]

theorem runOn_eq (hloaded : loaded = .ok world) (input : String) : runOn loaded input =
    (converse (Game.start world) ((linesOf input).map some)).after
      (greeting (Game.start world)) := by
  rw [runOn, byteLines_toUTF8, textLines_eq, hloaded]
  rfl

theorem runOn_append (hloaded : loaded = .ok world) (h : EndsLine input) (rest : String) :
    runOn loaded (input ++ rest) =
      (converse (Game.start world) ((linesOf input).map some ++ byteLines rest.toUTF8)).after
        (greeting (Game.start world)) := by
  rw [runOn, byteLines_append h, hloaded]
  rfl

/-- **Behind whole lines none of which quits, the game they lead to goes on.** -/
theorem runOn_append_of_none_quits (hloaded : loaded = .ok world) (h : EndsLine input)
    (hquit : ∀ line ∈ linesOf input, isQuit line = false) (rest : String) :
    runOn loaded (input ++ rest) =
      (converse ((Game.start world).run (linesOf input)) (byteLines rest.toUTF8)).after
        (printedFor world input) := by
  rw [runOn_append hloaded h, converse_append hquit, Transcript.after_after, printedFor]

theorem runOn_append_of_quits (hloaded : loaded = .ok world) (h : EndsLine input)
    (hquit : ∃ line ∈ linesOf input, isQuit line = true) (rest : String) :
    runOn loaded (input ++ rest) = runOn loaded input := by
  rw [runOn_append hloaded h, converse_append_of_quits hquit, ← runOn_eq hloaded]

theorem runOn_withReturns (hloaded : loaded = .ok world) (input : String) :
    runOn loaded (withReturns input) = runOn loaded input := by
  rw [runOn_eq hloaded, runOn_eq hloaded, linesOf_withReturns, converse_map tokens_withReturns]

/-- **What is printed is put together line by line, up to the first line that quits.** Whole lines
none of which quits have their own part of it, whatever follows: the end of the input or a text,
answered from the game they lead to. When one of them quits, what follows makes no difference. The
exit code is 0, and lines may end in a carriage return and a newline. -/
theorem transcripts_compose (hloaded : loaded = .ok world) :
    (∀ input, EndsLine input → (∀ line ∈ linesOf input, isQuit line = false) →
      (runOn loaded input).stdout = printedFor world input ++ "\n> \nGoodbye!\n" ∧
      ∀ rest, (runOn loaded (input ++ rest)).stdout = printedFor world input ++
        (converse ((Game.start world).run (linesOf input)) (byteLines rest.toUTF8)).stdout) ∧
    (∀ input, EndsLine input → (∃ line ∈ linesOf input, isQuit line = true) →
      ∀ rest, (runOn loaded (input ++ rest)).stdout = (runOn loaded input).stdout) ∧
    (∀ input, (runOn loaded input).exitCode = 0) ∧
    ∀ input, (runOn loaded (withReturns input)).stdout = (runOn loaded input).stdout := by
  refine ⟨fun input h hquit => ⟨?_, fun rest => ?_⟩, fun input h hquit rest => ?_, fun input => ?_,
    fun input => ?_⟩
  · -- the end of the input is an empty text behind the lines
    have hend := runOn_append_of_none_quits hloaded h hquit ""
    rw [String.append_empty, byteLines_toUTF8] at hend
    rw [hend]
    rfl
  · rw [runOn_append_of_none_quits hloaded h hquit rest]
    rfl
  · rw [runOn_append_of_quits hloaded h hquit rest]
  · rw [runOn_eq hloaded]
    exact exitCode_converse (Game.start world) (linesOf input)
  · rw [runOn_withReturns hloaded input]

/-- In the cave, looking around does not end the conversation, and quitting does. -/
theorem cave_converses : ∃ world, cave = .ok world ∧
    (EndsLine "look\n" ∧ (∀ line ∈ linesOf "look\n", isQuit line = false) ∧
      (runOn cave "look\n").stdout = printedFor world "look\n" ++ "\n> \nGoodbye!\n") ∧
    (EndsLine "quit\n" ∧ (∃ line ∈ linesOf "quit\n", isQuit line = true) ∧
      (runOn cave "quit\nlook\n").stdout = (runOn cave "quit\n").stdout) := by
  obtain ⟨world, hload⟩ := exists_cave
  have hlook : EndsLine "look\n" ∧ ∀ line ∈ linesOf "look\n", isQuit line = false := by decide
  have hquit : EndsLine "quit\n" ∧ ∃ line ∈ linesOf "quit\n", isQuit line = true := by decide
  have hcave : cave = .ok world := hload
  have hplays := transcripts_compose hcave
  exact ⟨world, hcave, ⟨hlook.1, hlook.2, (hplays.1 _ hlook.1 hlook.2).1⟩,
    hquit.1, hquit.2, hplays.2.1 _ hquit.1 hquit.2 "look\n"⟩

end RunOn

end Console

end Adventure
