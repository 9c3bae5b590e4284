import Adventure.Proofs.Phrases

/-!
# Lines and the commands they are parsed into

A line is parsed by leaving out noise: what is left of its tokens is the verb and the arguments
(`parse_eq_ok`). The phrases are read off the same tokens on their own, cut at "and", which is
noise; yet put together they are the arguments, since the cuts lose nothing else
(`flatten_phrasesOf`).

So a command can be written as a line again, its verb followed by its phrases with "and" between
them (`Command.toLine`). That line is parsed into the command whenever its words are tokens with a
meaning and its phrases are nonempty and make up the arguments (`parse_toLine`), and the commands
that lines are parsed into are of this kind (`typable_of_parse`).

Results:

* `typable_iff`: the commands that can be typed are exactly those.
* `parsed_commands_read_back`: what parsing makes of a line, and that it is parsed the same when
  written as a line.
-/

namespace Adventure

/-! ## Phrases -/

/-- "and" parts a list of words into two, each with phrases of its own. -/
theorem phrasesOf_append_separator (l r : List String) :
    Command.phrasesOf (l ++ listSeparator :: r) = Command.phrasesOf l ++ Command.phrasesOf r := by
  have hruns : Text.runs (· == listSeparator) (l ++ listSeparator :: r) =
      Text.runs (· == listSeparator) l ++ Text.runs (· == listSeparator) r :=
    @Text.runs_append_cons _ (· == listSeparator) listSeparator (beq_self_eq_true _) l r
  unfold Command.phrasesOf
  rw [hruns, List.map_append, List.filter_append]

/-- **The phrases together are the words without noise.** -/
theorem flatten_phrasesOf (words : List String) :
    (Command.phrasesOf words).flatten = stripNoise words := by
  -- the separators that the cut takes away are noise
  have hsep : ∀ word ∈ words, (!isNoise word && !(word == listSeparator)) = !isNoise word := by
    intro word _
    by_cases h : word = listSeparator
    · rw [h, isNoise_listSeparator]
      rfl
    · simp [h]
  unfold Command.phrasesOf
  rw [List.flatten_filter_not_isEmpty]
  calc ((Text.runs (· == listSeparator) words).map stripNoise).flatten
      = stripNoise (Text.runs (· == listSeparator) words).flatten := List.filter_flatten.symm
    _ = stripNoise (words.filter fun word => !(word == listSeparator)) := by
      rw [Text.flatten_runs]
    _ = stripNoise words := by
      unfold stripNoise
      rw [List.filter_filter, List.filter_congr hsep]

theorem ne_nil_of_mem_phrasesOf {words phrase : List String}
    (h : phrase ∈ Command.phrasesOf words) : phrase ≠ [] := by
  unfold Command.phrasesOf at h
  have hnonempty := (List.mem_filter.mp h).2
  rintro rfl
  exact absurd hnonempty (by simp)

/-- Phrases that come to one word are one phrase. -/
theorem eq_singleton_of_flatten {phrases : List (List String)} {word : String}
    (hnonempty : ∀ phrase ∈ phrases, phrase ≠ []) (h : phrases.flatten = [word]) :
    phrases = [[word]] := by
  obtain ⟨front, rest, rfl, hfront, hrest⟩ := List.flatten_eq_singleton_iff.mp h
  rw [List.forall_mem_append, List.forall_mem_cons] at hnonempty
  have hnil : ∀ l : List (List String), (∀ phrase ∈ l, phrase = []) → (∀ phrase ∈ l, phrase ≠ []) →
      l = [] := by
    intro l hall hnone
    exact List.eq_nil_iff_forall_not_mem.mpr fun phrase hphrase =>
      hnone phrase hphrase (hall phrase hphrase)
  rw [hnil front hfront hnonempty.1, hnil rest hrest hnonempty.2.2, List.nil_append]

/-- Lists of words with "and" between them, but not in them, are read off again without their
noise. -/
theorem phrasesOf_intercalate {groups : List (List String)}
    (hsep : ∀ group ∈ groups, listSeparator ∉ group)
    (hmeant : ∀ group ∈ groups, stripNoise group ≠ []) :
    Command.phrasesOf ([listSeparator].intercalate groups) = groups.map stripNoise := by
  induction groups with
  | nil => rfl
  | cons group groups ih =>
    rw [List.forall_mem_cons] at hsep hmeant
    have hgroup := phrasesOf_of_notMem hsep.1 hmeant.1
    have hgroups := ih hsep.2 hmeant.2
    cases groups with
    | nil => rw [List.intercalate_singleton, hgroup, List.map_singleton]
    | cons next groups =>
      rw [List.intercalate_cons_cons, List.append_assoc, List.singleton_append,
        phrasesOf_append_separator, hgroup, hgroups, List.singleton_append]
      rfl

/-- Phrases with "and" between them are read off again. -/
theorem phrasesOf_intercalate_of_forall {phrases : List (List String)}
    (hnonempty : ∀ phrase ∈ phrases, phrase ≠ [])
    (hnoise : ∀ word ∈ phrases.flatten, isNoise word = false) :
    Command.phrasesOf ([listSeparator].intercalate phrases) = phrases := by
  have hword : ∀ phrase ∈ phrases, ∀ word ∈ phrase, isNoise word = false :=
    fun phrase hphrase word hword => hnoise word (List.mem_flatten_of_mem hphrase hword)
  have hkept : ∀ phrase ∈ phrases, stripNoise phrase = phrase := fun phrase hphrase =>
    stripNoise_of_forall (hword phrase hphrase)
  rw [phrasesOf_intercalate, List.map_congr_left hkept, List.map_id']
  · exact fun phrase hphrase hmem =>
      absurd (isNoise_listSeparator.symm.trans (hword phrase hphrase _ hmem)) (by decide)
  · intro phrase hphrase
    rw [hkept phrase hphrase]
    exact hnonempty phrase hphrase

/-- What stands in lists with an element between them is that element or from a list. -/
theorem mem_intercalate {α : Type} {a b : α} {lists : List (List α)}
    (h : b ∈ [a].intercalate lists) : b = a ∨ b ∈ lists.flatten := by
  induction lists with
  | nil => exact absurd h List.not_mem_nil
  | cons l lists ih =>
    cases lists with
    | nil =>
      rw [List.intercalate_singleton] at h
      exact Or.inr (List.mem_append_left _ h)
    | cons next lists =>
      rw [List.intercalate_cons_cons, List.mem_append, List.mem_append, List.mem_singleton] at h
      rcases h with (h | h) | h
      · exact Or.inr (List.mem_append_left _ h)
      · exact Or.inl h
      · exact (ih h).imp_right (List.mem_append_right _)

/-! ## Writing a command as a line -/

/-- The command as a line: its verb, and its phrases with "and" between them. -/
def Command.toLine (command : Command) : String :=
  Text.joinWords (command.verb :: [listSeparator].intercalate command.phrases)

/-- The words of the command are tokens with a meaning, and its phrases part its arguments. -/
structure Command.Typable (command : Command) : Prop where
  token : ∀ word ∈ command.verb :: command.args, tokens word = [word]
  meant : ∀ word ∈ command.verb :: command.args, isNoise word = false
  nonempty : ∀ phrase ∈ command.phrases, phrase ≠ []
  flatten : command.phrases.flatten = command.args

/-- Arguments of a command are heard as they are when they are joined. -/
theorem Command.Typable.phraseWords_eq {command : Command} (h : command.Typable)
    {words : List String} (hwords : words ⊆ command.args) :
    phraseWords (Text.joinWords words) = words :=
  phraseWords_joinWords (fun word hword => h.token word (List.mem_cons_of_mem _ (hwords hword)))
    fun word hword => h.meant word (List.mem_cons_of_mem _ (hwords hword))

theorem tokens_toLine {command : Command} (h : command.Typable) :
    tokens command.toLine = command.verb :: [listSeparator].intercalate command.phrases := by
  refine tokens_joinWords fun word hword => ?_
  rcases List.mem_cons.mp hword with rfl | hword
  · exact h.token _ List.mem_cons_self
  · rcases mem_intercalate hword with rfl | hword
    · decide
    · exact h.token word (List.mem_cons_of_mem _ (h.flatten ▸ hword))

/-- **A command that can be typed is read back from its line.** -/
theorem parse_toLine {command : Command} (h : command.Typable) :
    Command.parse command.toLine = .ok command := by
  have hverb : isNoise command.verb = false := h.meant _ List.mem_cons_self
  have hnoise : ∀ word ∈ command.phrases.flatten, isNoise word = false := fun word hword =>
    h.meant word (List.mem_cons_of_mem _ (h.flatten ▸ hword))
  have hphrases := phrasesOf_intercalate_of_forall h.nonempty hnoise
  have hargs : stripNoise ([listSeparator].intercalate command.phrases) = command.args := by
    rw [← flatten_phrasesOf, hphrases, h.flatten]
  rw [Command.parse, tokens_toLine h, Command.ofTokens_verb_cons hverb, hargs, hphrases]

/-! ## What lines are parsed into -/

/-- The tokens that mean something are the verb and the arguments, and the phrases are read off the
tokens after the verb. -/
theorem parse_eq_ok {line : String} {command : Command} (h : Command.parse line = .ok command) :
    stripNoise (tokens line) = command.verb :: command.args ∧
      ∃ rest, command.args = stripNoise rest ∧ command.phrases = Command.phrasesOf rest := by
  obtain ⟨front, rest, hline, hfront, hverb, hargs, hphrases⟩ := Command.ofTokens_eq_ok h
  refine ⟨?_, rest, hargs, hphrases⟩
  rw [hline, stripNoise_append, stripNoise_eq_nil_iff.mpr hfront, stripNoise_cons hverb, hargs,
    List.nil_append]

/-- **What a line is parsed into can be typed.** -/
theorem typable_of_parse {line : String} {command : Command}
    (h : Command.parse line = .ok command) : command.Typable := by
  obtain ⟨hwords, rest, hargs, hphrases⟩ := parse_eq_ok h
  have hmem : ∀ word ∈ command.verb :: command.args, word ∈ tokens line ∧ isNoise word = false := by
    rw [← hwords]
    exact fun word hword => mem_stripNoise_iff.mp hword
  refine ⟨fun word hword => tokens_of_mem (hmem word hword).1,
    fun word hword => (hmem word hword).2, fun phrase hphrase => ?_, ?_⟩
  · rw [hphrases] at hphrase
    exact ne_nil_of_mem_phrasesOf hphrase
  · rw [hphrases, flatten_phrasesOf, hargs]

/-- **The commands that lines are parsed into** are those whose words are tokens with a meaning, and
whose phrases part their arguments. -/
theorem typable_iff {command : Command} :
    command.Typable ↔ ∃ line, Command.parse line = .ok command :=
  ⟨fun h => ⟨command.toLine, parse_toLine h⟩, fun ⟨_, h⟩ => typable_of_parse h⟩

/-- A line with a token that means something is parsed. -/
theorem exists_parse_of_token {line : String} (h : ∃ word ∈ tokens line, isNoise word = false) :
    ∃ command, Command.parse line = .ok command := by
  cases hparse : Command.parse line with
  | ok command => exact ⟨command, rfl⟩
  | error error =>
    obtain ⟨word, hword, hmeant⟩ := h
    have hnoise := (Command.ofTokens_eq_error_iff.mp hparse).1 word hword
    exact absurd (hnoise.symm.trans hmeant) (by simp)

/-- **Parsing fails on noise alone, and else gives a command that is read back from its own line.**
The tokens that mean something are its verb and its arguments, and its phrases, none of them empty,
are the arguments in groups. -/
theorem parsed_commands_read_back (line : String) :
    (Command.parse line = .error .emptyCommand ↔ ∀ word ∈ tokens line, isNoise word = true) ∧
    ((∃ word ∈ tokens line, isNoise word = false) → ∃ command,
      Command.parse line = .ok command ∧
      (tokens line).find? (!isNoise ·) = some command.verb ∧
      stripNoise (tokens line) = command.verb :: command.args ∧
      (∀ word ∈ command.verb :: (command.args ++ command.phrases.flatten), isNoise word = false) ∧
      (∀ phrase ∈ command.phrases, phrase ≠ []) ∧
      command.phrases.flatten = command.args ∧ (command.phrases = [] ↔ command.args = []) ∧
      Command.parse command.toLine = .ok command) := by
  refine ⟨⟨fun h => (Command.ofTokens_eq_error_iff.mp h).1,
    fun h => Command.ofTokens_eq_error_iff.mpr ⟨h, rfl⟩⟩, fun h => ?_⟩
  obtain ⟨command, hparse⟩ := exists_parse_of_token h
  have htypable := typable_of_parse hparse
  have hwords := (parse_eq_ok hparse).1
  have hverb : (tokens line).find? (!isNoise ·) = some command.verb := by
    rw [← List.head?_filter]
    exact congrArg List.head? hwords
  refine ⟨command, hparse, hverb, hwords, ?_, htypable.nonempty, htypable.flatten, ?_,
    parse_toLine htypable⟩
  · rw [htypable.flatten]
    intro word hword
    refine htypable.meant word ?_
    simpa using hword
  · rw [← htypable.flatten, List.flatten_eq_nil_iff]
    refine ⟨fun hnil => by simp [hnil], fun hall => ?_⟩
    exact List.eq_nil_iff_forall_not_mem.mpr fun phrase hphrase =>
      htypable.nonempty phrase hphrase (hall phrase hphrase)

set_option maxRecDepth 10000 in
/-- A line with noise all over, with "and" in odd places and a word that ends with a sigma, is
parsed and written as a line without the noise. -/
theorem cluttered_line_reads_back : ∃ command,
    Command.parse "then TAKE and the Rusty\tKey and AND my ΧΑΡΤΗΣ and" = .ok command ∧
    command.toLine = "take rusty key and χαρτης" ∧
    Command.parse command.toLine = .ok command := by
  obtain ⟨command, hparse, -, -, -, -, -, -, hback⟩ :=
    (parsed_commands_read_back "then TAKE and the Rusty\tKey and AND my ΧΑΡΤΗΣ and").2
      ⟨"take", by decide, by decide⟩
  have hcommand : Command.parse "then TAKE and the Rusty\tKey and AND my ΧΑΡΤΗΣ and" =
      .ok ⟨"take", ["rusty", "key", "χαρτης"], [["rusty", "key"], ["χαρτης"]]⟩ := by decide
  obtain rfl := Except.ok.inj (hcommand.symm.trans hparse)
  exact ⟨_, hparse, by decide, hback⟩

end Adventure
