import Adventure.Command.Error
import Adventure.Command.Word

/-!
# Commands

A command is a verb with its arguments. The arguments are the words after the verb without noise;
the phrases are the same words in groups, cut wherever the player wrote "and".

`Command.parse` reads a command off a line; it fails only on lines without a verb
(`ofTokens_eq_error_iff`), and else passes over the noise in front of it (`ofTokens_eq_ok`).

Model of `Command` and `parse`.
-/

namespace Adventure

/-- A verb and its arguments, both as one list and as phrases. -/
structure Command where
  verb : String
  args : List String
  phrases : List (List String)
deriving Repr, DecidableEq

namespace Command

/-- The groups of words between the separators of a list, without noise and never empty. -/
def phrasesOf (words : List String) : List (List String) :=
  ((Text.runs (· == listSeparator) words).map stripNoise).filter (!·.isEmpty)

/-- The command that tokens spell: the first one that is no noise is the verb. -/
def ofTokens (tokens : List String) : Except CommandError Command :=
  match tokens.dropWhile isNoise with
  | [] => .error .emptyCommand
  | verb :: rest => .ok { verb := verb, args := stripNoise rest, phrases := phrasesOf rest }

/-- The command that a line spells. -/
def parse (line : String) : Except CommandError Command :=
  ofTokens (tokens line)

/-- The arguments as one text, if there are any (`object`). -/
def object? (command : Command) : Option String :=
  if command.args.isEmpty then none else some (Text.joinWords command.args)

/-- The command with another verb and more arguments in front, all of them one phrase
(`with_leading_args`). -/
def withLeadingArgs (command : Command) (verb : String) (words : List String) : Command where
  verb := verb
  args := words ++ command.args
  phrases := [words ++ command.args]

/-- The only argument is "all" (`is_all`). -/
def isAll (command : Command) : Bool :=
  command.args == ["all"]

/-! ## Laws -/

/-- A line fails to parse exactly when all its tokens are noise, and then for want of a verb. -/
theorem ofTokens_eq_error_iff {tokens : List String} {e : CommandError} :
    ofTokens tokens = .error e ↔ (∀ word ∈ tokens, isNoise word = true) ∧ e = .emptyCommand := by
  unfold ofTokens
  rw [← Text.dropWhile_eq_nil_iff]
  cases tokens.dropWhile isNoise <;> simp [eq_comm]

/-- Noise in front of the verb is passed over. -/
theorem ofTokens_noise_append {front : List String} (h : ∀ word ∈ front, isNoise word = true)
    (words : List String) : ofTokens (front ++ words) = ofTokens words := by
  unfold ofTokens
  rw [List.dropWhile_append_of_pos h]

theorem ofTokens_verb_cons {verb : String} (h : isNoise verb = false) (words : List String) :
    ofTokens (verb :: words) =
      .ok { verb := verb, args := stripNoise words, phrases := phrasesOf words } := by
  unfold ofTokens
  rw [List.dropWhile_cons_of_neg (by rw [h]; exact Bool.false_ne_true)]

/-- The tokens are all noise, or there is a verb behind those that are. -/
theorem exists_verb (words : List String) : (∀ word ∈ words, isNoise word = true) ∨
    ∃ front verb rest, words = front ++ verb :: rest ∧ (∀ word ∈ front, isNoise word = true) ∧
      isNoise verb = false := by
  induction words with
  | nil => exact Or.inl fun word hword => absurd hword List.not_mem_nil
  | cons first words ih =>
    cases hfirst : isNoise first with
    | false =>
      exact Or.inr ⟨[], first, words, rfl, fun word hword => absurd hword List.not_mem_nil, hfirst⟩
    | true =>
      rcases ih with hall | ⟨front, verb, rest, rfl, hfront, hverb⟩
      · exact Or.inl (List.forall_mem_cons.mpr ⟨hfirst, hall⟩)
      · exact Or.inr ⟨first :: front, verb, rest, rfl, List.forall_mem_cons.mpr ⟨hfirst, hfront⟩,
          hverb⟩

/-- A command is read off tokens that are noise, its verb, and the words that its arguments and
phrases come from. -/
theorem ofTokens_eq_ok {words : List String} {command : Command}
    (h : ofTokens words = .ok command) :
    ∃ front rest, words = front ++ command.verb :: rest ∧ (∀ word ∈ front, isNoise word = true) ∧
      isNoise command.verb = false ∧ command.args = stripNoise rest ∧
      command.phrases = phrasesOf rest := by
  rcases exists_verb words with hall | ⟨front, verb, rest, rfl, hfront, hverb⟩
  · rw [ofTokens_eq_error_iff.mpr ⟨hall, rfl⟩] at h
    cases h
  · rw [ofTokens_noise_append hfront, ofTokens_verb_cons hverb] at h
    obtain rfl := Except.ok.inj h
    exact ⟨front, rest, rfl, hfront, hverb, rfl, rfl⟩

end Command

end Adventure
