import Adventure.Proofs.AsciiCase
import Adventure.Proofs.Loading
import Adventure.Proofs.Phrases
import Mathlib.Data.List.TakeWhile

/-!
# A line is understood through its tokens

A line is parsed from its tokens, and nothing else of it is looked at, except to see whether it asks
to quit. That is asked of the line itself, trimmed and up to ASCII case, but comes to the same: a
text of one word is what trimming leaves of it (`splitWords_eq_singleton_iff`), and a word has
"quit" or "exit" for its lower case only as one of their ASCII spellings
(`lower_eq_iff_asciiLower_eq`).

Results:

* `line_understood_by_tokens`: lines with the same tokens get the same reply, and those that quit
  have "quit" or "exit" for their only token.
-/

namespace Adventure

namespace Text

/-! ## Runs between separators -/

section

variable {α : Type} {sep : α → Bool}

theorem runs_of_forall {l : List α} (h : ∀ a ∈ l, sep a = true) : runs sep l = [] := by
  induction l with
  | nil => rfl
  | cons a l ih =>
    rw [runs_cons_of_sep (h a List.mem_cons_self), ih fun b hb => h b (List.mem_cons_of_mem _ hb)]

theorem runs_append_right {r : List α} (h : ∀ a ∈ r, sep a = true) (l : List α) :
    runs sep (l ++ r) = runs sep l := by
  cases r with
  | nil => rw [List.append_nil]
  | cons a r =>
    rw [runs_append_cons (h a List.mem_cons_self),
      runs_of_forall fun b hb => h b (List.mem_cons_of_mem _ hb), List.append_nil]

theorem runs_append_left {l : List α} (h : ∀ a ∈ l, sep a = true) (r : List α) :
    runs sep (l ++ r) = runs sep r := by
  induction l with
  | nil => rfl
  | cons a l ih =>
    rw [List.cons_append, runs_cons_of_sep (h a List.mem_cons_self),
      ih fun b hb => h b (List.mem_cons_of_mem _ hb)]

/-- What comes after the leading run is all separators when there are no other runs. -/
theorem exists_leadRun_append {l : List α} (h : (leadRun sep l).2 = []) :
    ∃ after, (∀ a ∈ after, sep a = true) ∧ l = (leadRun sep l).1 ++ after := by
  induction l with
  | nil => exact ⟨[], by simp, rfl⟩
  | cons b l ih =>
    cases hb : sep b with
    | false =>
      simp only [leadRun, hb, Bool.false_eq_true, if_false] at h ⊢
      obtain ⟨after, hafter, heq⟩ := ih h
      exact ⟨after, hafter, congrArg (b :: ·) heq⟩
    | true =>
      simp only [leadRun, hb, if_true] at h ⊢
      cases hrun : (leadRun sep l).1 with
      | nil =>
        rw [hrun, consRun_nil] at h
        obtain ⟨after, hafter, heq⟩ := ih h
        rw [hrun, List.nil_append] at heq
        exact ⟨b :: l, List.forall_mem_cons.mpr ⟨hb, heq ▸ hafter⟩, rfl⟩
      | cons a run =>
        rw [hrun, consRun_cons] at h
        exact absurd h (List.cons_ne_nil _ _)

/-- A list with one run has nothing but separators around it. -/
theorem exists_around_of_runs {l run : List α} (h : runs sep l = [run]) : ∃ before after,
    (∀ a ∈ before, sep a = true) ∧ (∀ a ∈ after, sep a = true) ∧ l = before ++ run ++ after := by
  induction l with
  | nil => exact absurd h (by simp)
  | cons b l ih =>
    cases hb : sep b with
    | false =>
      rw [runs_cons_of_not_sep hb] at h
      obtain ⟨rfl, hrest⟩ := List.cons.inj h
      obtain ⟨after, hafter, heq⟩ := exists_leadRun_append hrest
      exact ⟨[], after, by simp, hafter, congrArg (b :: ·) heq⟩
    | true =>
      rw [runs_cons_of_sep hb] at h
      obtain ⟨before, after, hbefore, hafter, rfl⟩ := ih h
      exact ⟨b :: before, after, List.forall_mem_cons.mpr ⟨hb, hbefore⟩, hafter, rfl⟩

theorem dropWhile_append_cons {p : α → Bool} {l : List α} (h : ∀ a ∈ l, p a = true) {a : α}
    (ha : p a = false) (r : List α) : (l ++ a :: r).dropWhile p = a :: r := by
  rw [List.dropWhile_append_of_pos h,
    List.dropWhile_cons_of_neg (by rw [ha]; exact Bool.false_ne_true)]

end

/-! ## Trimming -/

/-- Trimming takes blanks away, and nothing else. -/
theorem exists_around_trimChars (cs : List Char) : ∃ before after,
    (∀ c ∈ before, isBlank c = true) ∧ (∀ c ∈ after, isBlank c = true) ∧
      cs = before ++ trimChars cs ++ after := by
  refine ⟨cs.takeWhile isBlank, ((cs.dropWhile isBlank).reverse.takeWhile isBlank).reverse,
    fun c hc => List.mem_takeWhile_imp hc, fun c hc => ?_, ?_⟩
  · exact List.mem_takeWhile_imp (List.mem_reverse.mp hc)
  · rw [trimChars, List.append_assoc, ← List.reverse_append, List.takeWhile_append_dropWhile,
      List.reverse_reverse, List.takeWhile_append_dropWhile]

/-- A stretch without blanks is what trimming leaves when there are only blanks around it. -/
theorem trimChars_around {before run after : List Char} (hbefore : ∀ c ∈ before, isBlank c = true)
    (hafter : ∀ c ∈ after, isBlank c = true) (hnonempty : run ≠ [])
    (hrun : ∀ c ∈ run, isBlank c = false) : trimChars (before ++ run ++ after) = run := by
  have hdrop : ∀ {blanks stretch : List Char} (rest : List Char), (∀ c ∈ blanks, isBlank c = true) →
      stretch ≠ [] → (∀ c ∈ stretch, isBlank c = false) →
      (blanks ++ (stretch ++ rest)).dropWhile isBlank = stretch ++ rest := by
    intro blanks stretch rest hblanks hne hstretch
    cases stretch with
    | nil => exact absurd rfl hne
    | cons c cs => exact dropWhile_append_cons hblanks (hstretch c List.mem_cons_self) _
  have hback := hdrop [] (fun c hc => hafter c (List.mem_reverse.mp hc))
    (mt List.reverse_eq_nil_iff.mp hnonempty) (fun c hc => hrun c (List.mem_reverse.mp hc))
  rw [List.append_nil] at hback
  rw [trimChars, List.append_assoc, hdrop after hbefore hnonempty hrun, List.reverse_append, hback,
    List.reverse_reverse]

/-- Trimming keeps the words of a text. -/
theorem splitWords_trim (text : String) : splitWords (trim text) = splitWords text := by
  obtain ⟨before, after, hbefore, hafter, heq⟩ := exists_around_trimChars text.toList
  have hruns : runs isBlank (trimChars text.toList) = runs isBlank text.toList := by
    conv_rhs => rw [heq, runs_append_right hafter, runs_append_left hbefore]
  rw [splitWords, trim, String.toList_ofList, hruns, splitWords]

/-- **A text has one word when trimming leaves that word of it.** -/
theorem splitWords_eq_singleton_iff {text word : String} : splitWords text = [word] ↔
    trim text = word ∧ word ≠ "" ∧ ∀ c ∈ word.toList, isBlank c = false := by
  constructor
  · intro h
    obtain ⟨run, hrun, rfl⟩ := List.map_eq_singleton_iff.mp h
    have hmem : run ∈ runs isBlank text.toList := hrun ▸ List.mem_singleton_self run
    obtain ⟨before, after, hbefore, hafter, heq⟩ := exists_around_of_runs hrun
    have hnonempty := ne_nil_of_mem_runs hmem
    have hblank := sep_of_mem_runs hmem
    refine ⟨?_, by simpa using hnonempty, by simpa using hblank⟩
    rw [trim, heq, trimChars_around hbefore hafter hnonempty hblank]
  · rintro ⟨rfl, hnonempty, hblank⟩
    have hchars : (trim text).toList ≠ [] := by simpa using hnonempty
    rw [← splitWords_trim, splitWords, runs_eq_singleton hchars hblank, List.map_singleton,
      String.ofList_toList]

end Text

/-! ## Asking to quit -/

/-- A text has a word in plain characters for its only token when that is what trimming leaves of
it, up to ASCII case. -/
theorem tokens_eq_singleton_iff {text token : String} (hnonempty : token ≠ "")
    (hchars : token.toList.all (fun c => decide (Text.IsPlain c) && !Text.isBlank c) = true)
    (hlower : Text.asciiLower token = token ∧ Text.lower token = token) :
    tokens text = [token] ↔ Text.equalsUpToAsciiCase (Text.trim text) token = true := by
  simp only [List.all_eq_true, Bool.and_eq_true, decide_eq_true_eq, Bool.not_eq_true'] at hchars
  have hplain : ∀ c ∈ token.toList, Text.IsPlain c := fun c hc => (hchars c hc).1
  have hblank : ∀ c ∈ token.toList, Text.isBlank c = false := fun c hc => (hchars c hc).2
  rw [Text.equalsUpToAsciiCase_iff_asciiLower, hlower.1,
    ← Text.lower_eq_iff_asciiLower_eq hplain hlower.2]
  constructor
  · intro h
    obtain ⟨word, hword, hsame⟩ := List.map_eq_singleton_iff.mp h
    rw [(Text.splitWords_eq_singleton_iff.mp hword).1, hsame]
  · intro h
    have hwords : Text.splitWords (Text.lower (Text.trim text)) = [token] := by
      rw [h, Text.splitWords, Text.runs_eq_singleton (by simpa using hnonempty) hblank,
        List.map_singleton, String.ofList_toList]
    rw [Text.splitWords_lower, Text.splitWords_trim] at hwords
    exact hwords

/-- **A line asks to quit when its only token is "quit" or "exit".** -/
theorem isQuit_iff {line : String} :
    isQuit line = true ↔ tokens line = ["quit"] ∨ tokens line = ["exit"] := by
  rw [isQuit, Bool.or_eq_true,
    tokens_eq_singleton_iff (by decide) (by decide) (by decide),
    tokens_eq_singleton_iff (by decide) (by decide) (by decide)]

/-- A line that asks to quit is parsed into the word for it. -/
theorem verb_of_isQuit {line : String} (hquit : isQuit line = true) {command : Command}
    (hparse : Command.parse line = .ok command) :
    command.verb = "quit" ∨ command.verb = "exit" := by
  rcases isQuit_iff.mp hquit with htokens | htokens
  · rw [Command.parse, htokens] at hparse
    obtain rfl := Except.ok.inj hparse
    exact Or.inl rfl
  · rw [Command.parse, htokens] at hparse
    obtain rfl := Except.ok.inj hparse
    exact Or.inr rfl

/-! ## Lines with the same tokens -/

theorem isQuit_eq_of_tokens_eq {line other : String} (h : tokens line = tokens other) :
    isQuit line = isQuit other := by
  rw [Bool.eq_iff_iff, isQuit_iff, isQuit_iff, h]

/-- Lines that are parsed alike get the same reply, unless only one of them asks to quit. -/
theorem step_eq_of_parse_eq {line other : String} (hquit : isQuit line = isQuit other)
    (hparse : Command.parse line = Command.parse other) (game : Game) :
    game.step line = game.step other := by
  rw [Game.step, Game.step, hquit, VerbTable.execute, VerbTable.execute, VerbTable.attempt,
    VerbTable.attempt, hparse]

theorem step_eq_of_tokens_eq {line other : String} (h : tokens line = tokens other) (game : Game) :
    game.step line = game.step other :=
  step_eq_of_parse_eq (isQuit_eq_of_tokens_eq h) (congrArg Command.ofTokens h) game

/-- **Lines are understood through their tokens**: those that have the same get the same reply, and
a line asks to quit when its only token is "quit" or "exit". -/
theorem line_understood_by_tokens :
    (∀ line, isQuit line = true ↔ tokens line = ["quit"] ∨ tokens line = ["exit"]) ∧
      ∀ (game : Game) (line other : String), tokens line = tokens other →
        game.step line = game.step other := by
  refine ⟨fun line => isQuit_iff, fun game line other h => ?_⟩
  have hparse : Command.parse line = Command.parse other := congrArg Command.ofTokens h
  rw [Game.step, Game.step, isQuit_eq_of_tokens_eq h, VerbTable.execute, VerbTable.execute,
    VerbTable.attempt, VerbTable.attempt, hparse]

/-- In the cave, "look" may be typed in capitals, the last one a Kelvin sign, and with blanks around
it; and a line may quit in capitals after a wide space. -/
theorem cave_understands_capitals : ∃ world, World.load caveText = .ok world ∧
    tokens " LOO\u212A\t" = tokens "look" ∧
    (Game.start world).step " LOO\u212A\t" = (Game.start world).step "look" ∧
    isQuit "\u3000QUIT" = true := by
  obtain ⟨world, hload⟩ := exists_cave
  have hsame : tokens " LOO\u212A\t" = tokens "look" := by decide
  exact ⟨world, hload, hsame, line_understood_by_tokens.2 (Game.start world) _ _ hsame,
    (line_understood_by_tokens.1 "\u3000QUIT").mpr (Or.inl (by decide))⟩

end Adventure
