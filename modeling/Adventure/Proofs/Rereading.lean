import Adventure.Proofs.Actions
import Adventure.Proofs.Pairings

/-!
# Words are read again as they were

What a phrase names is looked for by its text: the words that parsing kept are joined, and the text
is cut, lower-cased and rid of noise once more. That changes nothing. Each word is a token, so it
has no blanks and is in lower case; and it is not noise, or it would not have been kept. So it is
the words themselves that are matched.

This holds of all words from the arguments of a command, in whatever selection
(`Command.Typable.phraseWords_eq`): its phrases, what is left when "at" is passed over, and the two
sides of a pairing.

Results:

* `parsed_words_are_kept`: the words that are matched in taking, dropping, examining and using, for
  every line that is parsed.
-/

namespace Adventure

/-! ## Resolving by words -/

/-- What words come to within a scope, word by word. -/
def resolveWords (floor inventory : List Item) (scope : Scope) (words : List String) : Resolution :=
  .ofHits ((candidates floor inventory scope).filter (·.item.matchesWords words))

/-- What words come to in one list, as a whole. -/
def resolveExactWords (holder : Holder) (items : List Item) (words : List String) : Resolution :=
  match Resolution.ofHits ((locate holder items).filter (·.item.matchesAlias words)) with
  | .notFound =>
    match Resolution.ofHits ((locate holder items).filter (·.item.matchesWords words)) with
    | .ambiguous items => .ambiguous items
    | _ => .notFound
  | resolution => resolution

theorem resolve_eq_resolveWords (floor inventory : List Item) (scope : Scope) (phrase : String) :
    resolve floor inventory scope phrase =
      resolveWords floor inventory scope (phraseWords phrase) := rfl

theorem resolveExact_eq_resolveExactWords (holder : Holder) (items : List Item) (phrase : String) :
    resolveExact holder items phrase = resolveExactWords holder items (phraseWords phrase) := rfl

/-- **The text of the words is read as these words**, and what it comes to is what they come to. -/
structure ReadAgain (words : List String) : Prop where
  same : phraseWords (Text.joinWords words) = words
  by_words : ∀ floor inventory scope, resolve floor inventory scope (Text.joinWords words) =
    resolveWords floor inventory scope words
  as_whole : ∀ holder items, resolveExact holder items (Text.joinWords words) =
    resolveExactWords holder items words

theorem readAgain_of_same {words : List String} (h : phraseWords (Text.joinWords words) = words) :
    ReadAgain words where
  same := h
  by_words := by
    intro floor inventory scope
    rw [resolve_eq_resolveWords, h]
  as_whole := by
    intro holder items
    rw [resolveExact_eq_resolveExactWords, h]

/-! ## The words of a command -/

/-- **The words of the command are read again as they are**, wherever they are read again. -/
structure Command.ReadsAgain (command : Command) : Prop where
  phrases : ∀ phrase ∈ command.phrases, ReadAgain phrase
  args : ReadAgain command.args
  examined : ReadAgain (command.args.dropWhile (· == "at"))
  used : ∀ pairing usage, Pairing.ofWords command.args usage = .ok pairing →
    ReadAgain pairing.item ∧ ReadAgain pairing.target

theorem Command.Typable.readsAgain {command : Command} (h : command.Typable) :
    command.ReadsAgain := by
  have hall : ∀ words : List String, words ⊆ command.args → ReadAgain words := fun words hwords =>
    readAgain_of_same (h.phraseWords_eq hwords)
  refine ⟨fun phrase hphrase => hall phrase fun word hword => ?_, hall _ (List.Subset.refl _),
    hall _ (List.dropWhile_sublist _).subset, fun pairing usage hpairing => ?_⟩
  · exact h.flatten ▸ List.mem_flatten_of_mem hphrase hword
  · have hparts := Pairing.ofWords_eq_ok_iff.mp hpairing
    exact ⟨hall _ hparts.item_subset, hall _ hparts.target_subset⟩

/-! ## What is matched -/

/-- **What the command is about is found by its words.** -/
structure Command.FindsByWords (command : Command) : Prop where
  taken : ∀ phrase ∈ command.phrases, ∀ turn room, turn.game.currentRoom = .ok room →
    takePhrase phrase turn =
      match (resolveExactWords .room room.items phrase).toExcept (Text.joinWords phrase) .room with
      | .ok located => takeAt located.index turn
      | .error error => .done (turn.say error.message)
  dropped : ∀ phrase ∈ command.phrases, ∀ turn,
    dropPhrase phrase turn =
      match (resolveExactWords .inventory turn.game.player.inventory phrase).toExcept
        (Text.joinWords phrase) .inventory with
      | .ok located => dropAt located.index turn
      | .error error => .done (turn.say error.message)
  examined : ∀ turn room words, turn.game.currentRoom = .ok room →
    words = command.args.dropWhile (· == "at") → words ≠ [] →
    examine command turn =
      match (resolveWords room.items turn.game.player.inventory .everywhere words).toExcept
        (Text.joinWords words) .everywhere with
      | .error error => .failed error turn
      | .ok located => .done { turn with output := turn.output.addItem located.item }
  used : ∀ game found, findUsing command game = .ok found ↔ ∃ pairing room key target,
    Pairing.ofWords command.args useUsage = .ok pairing ∧ game.currentRoom = .ok room ∧
    resolveWords room.items game.player.inventory .inventory pairing.item = .found key ∧
    resolveWords room.items game.player.inventory .room pairing.target = .found target ∧
    found = ⟨key.item, pairing.preposition, target.item, target.index⟩

theorem Command.ReadsAgain.findsByWords {command : Command} (h : command.ReadsAgain) :
    command.FindsByWords where
  taken := by
    intro phrase hphrase turn room hroom
    have hwhole := (h.phrases phrase hphrase).as_whole .room room.items
    cases hfound : (resolveExactWords .room room.items phrase).toExcept
        (Text.joinWords phrase) .room with
    | ok located => simp only [takePhrase, hroom, hwhole, hfound]
    | error error => simp only [takePhrase, hroom, hwhole, hfound]
  dropped := by
    intro phrase hphrase turn
    have hwhole := (h.phrases phrase hphrase).as_whole .inventory turn.game.player.inventory
    cases hfound : (resolveExactWords .inventory turn.game.player.inventory phrase).toExcept
        (Text.joinWords phrase) .inventory with
    | ok located => simp only [dropPhrase, hwhole, hfound]
    | error error => simp only [dropPhrase, hwhole, hfound]
  examined := by
    intro turn room words hroom hargs hwords
    have hread : ReadAgain words := hargs ▸ h.examined
    have hsome := List.isEmpty_eq_false_iff.mpr hwords
    cases hfound : (resolveWords room.items turn.game.player.inventory .everywhere words).toExcept
        (Text.joinWords words) .everywhere with
    | ok located =>
      simp only [examine, hroom, ← hargs, hsome, hread.by_words, hfound, Bool.false_eq_true,
        if_false]
    | error error =>
      simp only [examine, hroom, ← hargs, hsome, hread.by_words, hfound, Bool.false_eq_true,
        if_false]
  used := by
    intro game found
    rw [findUsing_eq_ok_iff]
    refine exists_congr fun pairing => exists_congr fun room => exists_congr fun key =>
      exists_congr fun target => and_congr_right fun hpairing => ?_
    obtain ⟨hitem, htarget⟩ := h.used pairing useUsage hpairing
    rw [Pairing.itemPhrase, Pairing.targetPhrase, hitem.by_words, htarget.by_words]

/-- **What parsing kept is what is matched.** For every line that is parsed, the phrases, the
arguments, what is left of them when "at" is passed over, and the two sides of a pairing are read
again as they were. So it is by these words that taking, dropping, examining and using find what
they are about. -/
theorem parsed_words_are_kept {line : String} {command : Command}
    (h : Command.parse line = .ok command) : command.ReadsAgain ∧ command.FindsByWords := by
  have hreads := (typable_of_parse h).readsAgain
  exact ⟨hreads, hreads.findsByWords⟩

/-- Capitals that are lower-cased to more than one character, or by what is around them, are heard
once and for all. -/
theorem odos_read_again : Command.parse "use At the ΟΔΟΣ on my İ and Σ" =
      .ok ⟨"use", ["at", "οδος", "on", "i̇", "σ"], [["at", "οδος", "on", "i̇"], ["σ"]]⟩ ∧
    ReadAgain ["at", "οδος", "on", "i̇"] ∧ ReadAgain ["οδος", "on", "i̇", "σ"] ∧
    ReadAgain ["at", "οδος"] ∧ ReadAgain ["i̇", "σ"] := by
  have hparse : Command.parse "use At the ΟΔΟΣ on my İ and Σ" =
      .ok ⟨"use", ["at", "οδος", "on", "i̇", "σ"], [["at", "οδος", "on", "i̇"], ["σ"]]⟩ := by
    decide +kernel
  have hreads := (parsed_words_are_kept hparse).1
  obtain ⟨hitem, htarget⟩ :=
    hreads.used ⟨["at", "οδος"], "on", ["i̇", "σ"]⟩ useUsage (by decide +kernel)
  exact ⟨hparse, hreads.phrases _ List.mem_cons_self, hreads.examined, hitem, htarget⟩

end Adventure
