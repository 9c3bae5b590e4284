import Adventure.Proofs.Casing
import Adventure.Proofs.Runs

/-!
# What a line makes of a text

A text typed after a verb is cut into words, lower-cased, rid of noise, and joined by single spaces
again: that is what is heard of it (`heard`). A text in lower case is heard as it stands exactly
when its words spell it (`Spelled`, `spelled_iff`), and what was heard is heard the same once more
(`phraseWords_heard`). A line that is a verb and a text leads to the action of the verb with what is
heard (`IsVerb.attempt`); "go", "take", "drop" and "use" are such verbs.
-/

namespace Adventure

/-! ## Words -/

/-- Joined words are cut into the same words, however a text is cut at its spaces. -/
theorem cut_joinWords {cut : String → List String} (hempty : cut "" = [])
    (hspace : ∀ a b, cut (a ++ " " ++ b) = cut a ++ cut b) {words : List String}
    (h : ∀ word ∈ words, cut word = [word]) : cut (Text.joinWords words) = words := by
  unfold Text.joinWords
  induction words with
  | nil => exact hempty
  | cons word words ih =>
    have hword := h word List.mem_cons_self
    have hwords := ih fun other hother => h other (List.mem_cons_of_mem _ hother)
    cases words with
    | nil => rw [String.intercalate_singleton, hword]
    | cons next words =>
      rw [String.intercalate_cons_cons, hspace, hword, hwords, List.singleton_append]

namespace Text

theorem toList_space (a b : String) : (a ++ " " ++ b).toList = a.toList ++ ' ' :: b.toList := by
  rw [String.toList_append, String.toList_append, List.append_assoc]
  rfl

theorem splitWords_space (a b : String) :
    splitWords (a ++ " " ++ b) = splitWords a ++ splitWords b := by
  rw [splitWords, toList_space, runs_append_cons (by decide), List.map_append]
  rfl

/-- A word of a text is its own only word. -/
theorem splitWords_of_mem {text word : String} (h : word ∈ splitWords text) :
    splitWords word = [word] := by
  obtain ⟨run, hrun, rfl⟩ := List.mem_map.mp h
  rw [splitWords, String.toList_ofList,
    runs_eq_singleton (ne_nil_of_mem_runs hrun) (sep_of_mem_runs hrun), List.map_singleton]

/-- Trimming keeps a first character that is no blank. -/
theorem exists_trimChars_cons {c : Char} (hc : isBlank c = false) (cs : List Char) :
    ∃ rest, trimChars (c :: cs) = c :: rest := by
  have hkeep : ∀ l : List Char, (c :: l).dropWhile isBlank = c :: l := fun l =>
    List.dropWhile_cons_of_neg (by rw [hc]; exact Bool.false_ne_true)
  rw [trimChars, hkeep, List.reverse_cons, List.dropWhile_append]
  split
  · exact ⟨[], by rw [hkeep]; rfl⟩
  · exact ⟨_, List.reverse_append⟩

end Text

theorem tokens_eq (text : String) : tokens text = Text.splitWords (Text.lower text) :=
  (Text.splitWords_lower text).symm

theorem tokens_lower (text : String) : tokens (Text.lower text) = tokens text := by
  rw [tokens_eq, tokens_eq, Text.lower_lower]

theorem tokens_space (a b : String) : tokens (a ++ " " ++ b) = tokens a ++ tokens b := by
  rw [tokens, Text.splitWords_space, List.map_append]
  rfl

/-- A token of a text is its own only token. -/
theorem tokens_of_mem {text token : String} (h : token ∈ tokens text) : tokens token = [token] := by
  obtain ⟨word, hword, rfl⟩ := List.mem_map.mp h
  rw [tokens_lower, tokens, Text.splitWords_of_mem hword, List.map_singleton]

/-- Joined tokens are the tokens of what they make. -/
theorem tokens_joinWords {words : List String} (h : ∀ word ∈ words, tokens word = [word]) :
    tokens (Text.joinWords words) = words :=
  cut_joinWords rfl tokens_space h

/-! ## Phrases -/

theorem stripNoise_of_forall {words : List String} (h : ∀ word ∈ words, isNoise word = false) :
    stripNoise words = words :=
  List.filter_eq_self.mpr fun word hword => by rw [h word hword]; rfl

theorem stripNoise_ne_nil_iff {words : List String} :
    stripNoise words ≠ [] ↔ ∃ word ∈ words, isNoise word = false := by
  rw [Ne, stripNoise_eq_nil_iff]
  simp

/-- Words without "and" among them are one phrase, if any of them has a meaning. -/
theorem phrasesOf_of_notMem {words : List String} (hsep : listSeparator ∉ words)
    (hmeant : stripNoise words ≠ []) : Command.phrasesOf words = [stripNoise words] := by
  have hnonempty : words ≠ [] := by
    rintro rfl
    exact hmeant rfl
  have hrun : ∀ word ∈ words, (word == listSeparator) = false := by
    intro word hword
    rw [beq_eq_false_iff_ne]
    exact ne_of_mem_of_not_mem hword hsep
  rw [Command.phrasesOf, Text.runs_eq_singleton hnonempty hrun, List.map_singleton]
  exact List.filter_cons_of_pos (by simpa using hmeant)

/-- Words without noise are one phrase. -/
theorem phrasesOf_of_forall {words : List String} (hnonempty : words ≠ [])
    (h : ∀ word ∈ words, isNoise word = false) : Command.phrasesOf words = [words] := by
  have hkept := stripNoise_of_forall h
  have hsep : listSeparator ∉ words := fun hword =>
    absurd (isNoise_listSeparator.symm.trans (h _ hword)) (by decide)
  rw [phrasesOf_of_notMem hsep (by rwa [hkept]), hkept]

/-- What is heard of a text that is typed after a verb: its words in lower case, without noise, and
with one space between neighbours. -/
def heard (text : String) : String :=
  Text.joinWords (phraseWords text)

theorem tokens_heard (text : String) : tokens (heard text) = phraseWords text :=
  tokens_joinWords fun _ hword => tokens_of_mem (mem_stripNoise_iff.mp hword).1

/-- Words that are tokens with a meaning are heard as they are when they are joined. -/
theorem phraseWords_joinWords {words : List String} (htoken : ∀ word ∈ words, tokens word = [word])
    (hmeant : ∀ word ∈ words, isNoise word = false) :
    phraseWords (Text.joinWords words) = words := by
  rw [phraseWords, tokens_joinWords htoken, stripNoise_of_forall hmeant]

theorem phraseWords_space (a b : String) :
    phraseWords (a ++ " " ++ b) = phraseWords a ++ phraseWords b := by
  rw [phraseWords, tokens_space, stripNoise_append]
  rfl

/-- **What was heard of a text is heard the same once more.** -/
theorem phraseWords_heard (text : String) : phraseWords (heard text) = phraseWords text := by
  rw [phraseWords, tokens_heard, phraseWords, stripNoise_stripNoise]

theorem heard_lower (text : String) : heard (Text.lower text) = heard text := by
  rw [heard, heard, phraseWords, phraseWords, tokens_lower]

/-- An item is matched as a whole by what is heard of a phrase. -/
theorem matchesAlias_iff {item : Item} {phrase : String} :
    item.matchesAlias (phraseWords phrase) = true ↔
      heard phrase ≠ "" ∧ heard phrase ∈ item.aliases := by
  simp [Item.matchesAlias, heard]

/-- The words of the text spell it: there are some, one space stands between neighbours, and none of
them is noise. -/
structure Spelled (text : String) : Prop where
  nonempty : text ≠ ""
  joined : Text.joinWords (Text.splitWords text) = text
  no_noise : ∀ word ∈ Text.splitWords text, isNoise word = false

instance (text : String) : Decidable (Spelled text) :=
  decidable_of_iff (text ≠ "" ∧ Text.joinWords (Text.splitWords text) = text ∧
      ∀ word ∈ Text.splitWords text, isNoise word = false)
    ⟨fun ⟨hnonempty, hjoined, hnoise⟩ => ⟨hnonempty, hjoined, hnoise⟩,
      fun ⟨hnonempty, hjoined, hnoise⟩ => ⟨hnonempty, hjoined, hnoise⟩⟩

/-- **A text in lower case is heard as it stands exactly when its words spell it.** -/
theorem spelled_iff {text : String} (hlower : Text.lower text = text) :
    Spelled text ↔ text ≠ "" ∧ heard text = text := by
  have htokens : tokens text = Text.splitWords text := by
    rw [tokens_eq, hlower]
  constructor
  · rintro ⟨hnonempty, hjoined, hnoise⟩
    refine ⟨hnonempty, ?_⟩
    rw [heard, phraseWords, htokens, stripNoise_of_forall hnoise, hjoined]
  · rintro ⟨hnonempty, hheard⟩
    have hwords : Text.splitWords text = phraseWords text := by
      rw [← htokens, ← tokens_heard, hheard]
    refine ⟨hnonempty, ?_, ?_⟩
    · rw [hwords]
      exact hheard
    · rw [hwords]
      exact fun word hword => (mem_stripNoise_iff.mp hword).2

/-! ## Lines -/

/-- A verb and a text after it do not ask to quit when the verb begins with neither of the letters
that "quit" and "exit" begin with. -/
theorem isQuit_verb {verb : String} {c : Char} {cs : List Char} (hverb : verb.toList = c :: cs)
    (hblank : Text.isBlank c = false) (hquit : c.toLower ≠ 'q') (hexit : c.toLower ≠ 'e')
    (text : String) : isQuit (verb ++ " " ++ text) = false := by
  obtain ⟨rest, hrest⟩ := Text.exists_trimChars_cons hblank (cs ++ ' ' :: text.toList)
  have htrim : (Text.trim (verb ++ " " ++ text)).toList = c :: rest := by
    rw [Text.trim, String.toList_ofList, ← hrest, Text.toList_space, hverb, List.cons_append]
  rw [Bool.eq_false_iff]
  intro h
  rw [isQuit, Bool.or_eq_true, Text.equalsUpToAsciiCase_iff, Text.equalsUpToAsciiCase_iff, htrim,
    List.map_cons] at h
  rcases h with h | h
  · exact hquit (List.cons.inj h).1
  · exact hexit (List.cons.inj h).1

/-- A token with a meaning and a text after it are parsed into the token as the verb and what is
heard of the text. -/
theorem parse_word {word : String} (htoken : tokens word = [word]) (hmeant : isNoise word = false)
    (text : String) : Command.parse (word ++ " " ++ text) = .ok
      { verb := word, args := phraseWords text, phrases := Command.phrasesOf (tokens text) } := by
  rw [Command.parse, tokens_space, htoken, List.singleton_append, Command.ofTokens_verb_cons hmeant]
  rfl

/-- The word is a verb of the game that leads to the action, with any text after it. -/
structure IsVerb (verb : String) (action : Action) : Prop where
  token : tokens verb = [verb]
  meant : isNoise verb = false
  route : VerbTable.standard.get? verb = some { verb := verb, action := action, implied := [] }
  not_quit : ∀ text, isQuit (verb ++ " " ++ text) = false

namespace IsVerb

variable {verb : String} {action : Action}

/-- A verb and a text after it are parsed into the verb and what is heard of the text. -/
theorem parse (h : IsVerb verb action) (text : String) :
    Command.parse (verb ++ " " ++ text) = .ok
      { verb := verb, args := phraseWords text, phrases := Command.phrasesOf (tokens text) } :=
  parse_word h.token h.meant text

/-- **A verb and a text after it lead to the action with what is heard of the text.** -/
theorem attempt (h : IsVerb verb action) (text : String) (turn : Turn) :
    VerbTable.standard.attempt (verb ++ " " ++ text) turn = action.run
      { verb := verb, args := phraseWords text, phrases := Command.phrasesOf (tokens text) }
      turn := by
  have hdispatch : ∀ command : Command, command.verb = verb →
      VerbTable.standard.dispatch command turn = action.run command turn := by
    rintro command rfl
    exact dispatch_of_route h.route turn
  rw [VerbTable.attempt, h.parse]
  exact hdispatch _ rfl

theorem step_game (h : IsVerb verb action) (game : Game) (text : String) :
    (game.step (verb ++ " " ++ text)).game = (action.run
      { verb := verb, args := phraseWords text, phrases := Command.phrasesOf (tokens text) }
      ⟨game, Output.empty⟩).turn.game := by
  rw [step_game_of_not_quit (h.not_quit text), h.attempt]

end IsVerb

theorem isVerb_go : IsVerb "go" .go where
  token := by decide
  meant := by decide
  route := by decide
  not_quit := isQuit_verb (c := 'g') rfl (by decide) (by decide) (by decide)

theorem isVerb_take : IsVerb "take" .take where
  token := by decide
  meant := by decide
  route := by decide
  not_quit := isQuit_verb (c := 't') rfl (by decide) (by decide) (by decide)

theorem isVerb_drop : IsVerb "drop" .drop where
  token := by decide
  meant := by decide
  route := by decide
  not_quit := isQuit_verb (c := 'd') rfl (by decide) (by decide) (by decide)

theorem isVerb_use : IsVerb "use" .use where
  token := by decide
  meant := by decide
  route := by decide
  not_quit := isQuit_verb (c := 'u') rfl (by decide) (by decide) (by decide)

end Adventure
