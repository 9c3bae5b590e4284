import Adventure.Proofs.Parsing
import Adventure.Proofs.Quitting

/-!
# Words that may be put into a line

A noise word is passed over in three places: in front of the verb, among the arguments, and in each
phrase. So it may be put anywhere into a line; but "and", which parts phrases as well, only where it
parts nothing from anything: in front of the verb or right behind it, beside another "and", and at
the end. `Padded` lists these places.

Behind the verb the phrases are what counts, and they are cut at "and" from what is left when all
other noise is taken out (`phrasesOf_eq_runs`). That is why a noise word leaves them as they are
wherever it stands, and "and" does where one more cut makes no phrase.

Results:

* `parse_eq_ok_iff_padded`: these are all the places; lines that are parsed alike are one line with
  such words put in.
* `padding_changes_nothing`: lines that differ by such words are parsed alike, and get the same
  reply.
-/

namespace Adventure

/-- One more noise word: any of them but "and" at any place, and "and" where it parts nothing. -/
inductive Padded : List String → List String → Prop
  | noise {word : String} (h : isNoise word = true) (hword : word ≠ listSeparator)
      (before after : List String) : Padded (before ++ after) (before ++ word :: after)
  | before_verb {front : List String} (h : ∀ word ∈ front, isNoise word = true)
      (after : List String) : Padded (front ++ after) (front ++ listSeparator :: after)
  | after_verb {front : List String} (h : ∀ word ∈ front, isNoise word = true) {verb : String}
      (hverb : isNoise verb = false) (after : List String) :
      Padded (front ++ verb :: after) (front ++ verb :: listSeparator :: after)
  | beside (before after : List String) :
      Padded (before ++ listSeparator :: after) (before ++ listSeparator :: listSeparator :: after)
  | at_end (before : List String) : Padded before (before ++ [listSeparator])

/-! ## Phrases -/

/-- **The phrases are cut at "and" from the words without any other noise.** -/
theorem phrasesOf_eq_runs (words : List String) :
    Command.phrasesOf words = Text.runs (· == listSeparator)
      (words.filter fun word => word == listSeparator || !isNoise word) :=
  Text.runs_filter words |>.symm

/-- A noise word leaves the phrases as they are, unless it is "and". -/
theorem phrasesOf_noise {word : String} (h : isNoise word = true) (hword : word ≠ listSeparator)
    (before after : List String) :
    Command.phrasesOf (before ++ word :: after) = Command.phrasesOf (before ++ after) := by
  have hsifted :
      (before ++ word :: after).filter (fun word => word == listSeparator || !isNoise word) =
        (before ++ after).filter fun word => word == listSeparator || !isNoise word := by
    simp [h, hword]
  rw [phrasesOf_eq_runs, phrasesOf_eq_runs, hsifted]

theorem phrasesOf_nil : Command.phrasesOf [] = [] := rfl

theorem phrasesOf_separator_cons (words : List String) :
    Command.phrasesOf (listSeparator :: words) = Command.phrasesOf words := by
  rw [← List.nil_append (listSeparator :: words), phrasesOf_append_separator, phrasesOf_nil,
    List.nil_append]

/-! ## Commands -/

namespace Command

/-- A noise word that leaves the phrases as they are, wherever the verb is, leaves the command as it
is. -/
theorem ofTokens_insert {word : String} (hnoise : isNoise word = true) {before after : List String}
    (hphrases : ∀ words, phrasesOf (words ++ word :: after) = phrasesOf (words ++ after)) :
    ofTokens (before ++ word :: after) = ofTokens (before ++ after) := by
  rcases exists_verb before with hall | ⟨front, verb, rest, rfl, hfront, hverb⟩
  · have hword : ∀ other ∈ before ++ [word], isNoise other = true :=
      List.forall_mem_append.mpr ⟨hall, List.forall_mem_singleton.mpr hnoise⟩
    rw [List.append_cons, ofTokens_noise_append hword, ofTokens_noise_append hall]
  · have hargs : stripNoise (rest ++ word :: after) = stripNoise (rest ++ after) := by
      simp [stripNoise, hnoise]
    rw [List.append_assoc, List.append_assoc, ofTokens_noise_append hfront,
      ofTokens_noise_append hfront, List.cons_append, List.cons_append, ofTokens_verb_cons hverb,
      ofTokens_verb_cons hverb, hargs, hphrases]

end Command

/-- **One more noise word leaves the command as it is**, where it may stand. -/
theorem Padded.ofTokens_eq {words padded : List String} (h : Padded words padded) :
    Command.ofTokens padded = Command.ofTokens words := by
  cases h with
  | noise h hword before after =>
    exact Command.ofTokens_insert h fun words => phrasesOf_noise h hword words after
  | @before_verb front h after =>
    have hfront : ∀ word ∈ front ++ [listSeparator], isNoise word = true :=
      List.forall_mem_append.mpr ⟨h, List.forall_mem_singleton.mpr isNoise_listSeparator⟩
    rw [List.append_cons, Command.ofTokens_noise_append hfront, Command.ofTokens_noise_append h]
  | @after_verb front h verb hverb after =>
    have hargs : stripNoise (listSeparator :: after) = stripNoise after := by
      simp [stripNoise, isNoise_listSeparator]
    rw [Command.ofTokens_noise_append h, Command.ofTokens_noise_append h,
      Command.ofTokens_verb_cons hverb, Command.ofTokens_verb_cons hverb, hargs,
      phrasesOf_separator_cons]
  | beside before after =>
    refine Command.ofTokens_insert isNoise_listSeparator fun words => ?_
    rw [phrasesOf_append_separator, phrasesOf_separator_cons, phrasesOf_append_separator]
  | at_end =>
    have hend :=
      @Command.ofTokens_insert listSeparator isNoise_listSeparator words [] fun words => by
        rw [phrasesOf_append_separator, phrasesOf_nil, List.append_nil, List.append_nil]
    rw [hend, List.append_nil]

/-- Any number of them do. -/
theorem ofTokens_eq_of_padded {words padded : List String}
    (h : Relation.ReflTransGen Padded words padded) :
    Command.ofTokens padded = Command.ofTokens words := by
  induction h with
  | refl => rfl
  | tail _ hlast ih => exact hlast.ofTokens_eq.trans ih

/-! ## All lines that are parsed alike -/

section

variable {words front : List String}

theorem reaches_of_noise (h : ∀ word ∈ front, isNoise word = true) (words : List String) :
    Relation.ReflTransGen Padded words (front ++ words) := by
  induction front with
  | nil => exact .refl
  | cons first front ih =>
    obtain ⟨hfirst, hfront⟩ := List.forall_mem_cons.mp h
    refine .tail (ih hfront) ?_
    by_cases hword : first = listSeparator
    · subst hword
      exact .before_verb (fun word hword => absurd hword List.not_mem_nil) (front ++ words)
    · exact .noise hfirst hword [] (front ++ words)

/-- Noise other than "and" may be put back where it was. -/
theorem reaches_of_sifted (before words : List String) : Relation.ReflTransGen Padded
    (before ++ words.filter fun word => word == listSeparator || !isNoise word)
    (before ++ words) := by
  induction words generalizing before with
  | nil => exact .refl
  | cons first words ih =>
    by_cases hkept : (first == listSeparator || !isNoise first) = true
    · have hsifted : (first :: words).filter (fun word => word == listSeparator || !isNoise word) =
          first :: words.filter fun word => word == listSeparator || !isNoise word :=
        List.filter_cons_of_pos hkept
      rw [hsifted, List.append_cons, List.append_cons before first words]
      exact ih (before ++ [first])
    · have hsifted : (first :: words).filter (fun word => word == listSeparator || !isNoise word) =
          words.filter fun word => word == listSeparator || !isNoise word :=
        List.filter_cons_of_neg hkept
      rw [hsifted]
      simp only [Bool.or_eq_true, beq_iff_eq, Bool.not_eq_true', not_or, Bool.not_eq_false] at hkept
      exact .tail (ih before) (.noise hkept.2 hkept.1 before words)

/-- "and" may be put back beside another one, and at the end. -/
theorem reaches_of_leadRun (before words : List String) : Relation.ReflTransGen Padded
    (before ++ ((Text.leadRun (· == listSeparator) words).1 ++
      (Text.leadRun (· == listSeparator) words).2.flatMap (listSeparator :: ·)))
    (before ++ words) := by
  induction words generalizing before with
  | nil => exact .refl
  | cons first words ih =>
    by_cases hfirst : first = listSeparator
    · subst hfirst
      have hrest := ih (before ++ [listSeparator])
      rw [List.append_cons before listSeparator words]
      cases hrun : (Text.leadRun (· == listSeparator) words).1 with
      | cons word run => simpa [Text.leadRun, hrun] using hrest
      | nil =>
        -- one more "and" in front of the next one, if there is any
        refine .head ?_ hrest
        cases hruns : (Text.leadRun (· == listSeparator) words).2 with
        | nil => simpa [Text.leadRun, hrun, hruns] using Padded.at_end before
        | cons run runs =>
          simpa [Text.leadRun, hrun, hruns] using
            Padded.beside before (run ++ runs.flatMap (listSeparator :: ·))
    · have hrest := ih (before ++ [first])
      simpa [Text.leadRun, hfirst] using hrest

theorem intercalate_separator_cons (run : List String) (runs : List (List String)) :
    [listSeparator].intercalate (run :: runs) = run ++ runs.flatMap (listSeparator :: ·) := by
  induction runs generalizing run with
  | nil => simp
  | cons next runs ih => rw [List.intercalate_cons_cons, ih, List.flatMap_cons]; simp

/-- Behind the verb, "and" may be put back in front of the first phrase. -/
theorem reaches_of_consRun {verb : String} (hverb : isNoise verb = false) (run : List String)
    (runs : List (List String)) : Relation.ReflTransGen Padded
      (verb :: [listSeparator].intercalate (Text.consRun run runs))
      (verb :: (run ++ runs.flatMap (listSeparator :: ·))) := by
  cases run with
  | cons word run =>
    rw [Text.consRun_cons, intercalate_separator_cons]
  | nil =>
    cases runs with
    | nil => exact .refl
    | cons run runs =>
      rw [Text.consRun_nil, intercalate_separator_cons]
      exact .single (.after_verb (fun word hword => absurd hword List.not_mem_nil) hverb _)

/-- Behind the verb, "and" may be put back everywhere that it parts nothing. -/
theorem reaches_of_runs {verb : String} (hverb : isNoise verb = false) (words : List String) :
    Relation.ReflTransGen Padded
      (verb :: [listSeparator].intercalate (Text.runs (· == listSeparator) words))
      (verb :: words) :=
  (reaches_of_consRun hverb _ _).trans (reaches_of_leadRun [verb] words)

end

/-- **The lines that are parsed into a command** are the line that the command is written as, and
what comes of it when words without a meaning are put in. -/
theorem parse_eq_ok_iff_padded {line : String} {command : Command} :
    Command.parse line = .ok command ↔ command.Typable ∧
      Relation.ReflTransGen Padded (tokens command.toLine) (tokens line) := by
  constructor
  · intro h
    refine ⟨typable_of_parse h, ?_⟩
    rw [tokens_toLine (typable_of_parse h)]
    obtain ⟨front, rest, hline, hfront, hverb, -, hphrases⟩ := Command.ofTokens_eq_ok h
    rw [hline, hphrases, phrasesOf_eq_runs]
    refine .trans (reaches_of_runs hverb _) (.trans ?_ (reaches_of_noise hfront _))
    exact reaches_of_sifted [command.verb] rest
  · rintro ⟨htypable, h⟩
    exact (ofTokens_eq_of_padded h).trans (parse_toLine htypable)

/-! ## Replies -/

/-- **Words without a meaning change nothing.** A line into which they are put, in whatever letters
and however many, is parsed like the line without them; and it gets the same reply, if neither of
the two is one that quits. -/
theorem padding_changes_nothing {line padded : String}
    (h : Relation.ReflTransGen Padded (tokens line) (tokens padded)) :
    Command.parse padded = Command.parse line ∧
      (isQuit line = false → isQuit padded = false →
        ∀ game : Game, game.step padded = game.step line) := by
  have hparse : Command.parse padded = Command.parse line := ofTokens_eq_of_padded h
  exact ⟨hparse, fun hline hpadded => step_eq_of_parse_eq (hpadded.trans hline.symm) hparse⟩

/-- In the cave, a line with "and" behind the verb, twice in a row and at the end, and with other
noise, gets the reply of the line without them. -/
theorem cave_hears_through_noise : ∃ world, World.load caveText = .ok world ∧
    Relation.ReflTransGen Padded (tokens "take lamp and coin")
      (tokens "THEN take and The lamp And and coin AND") ∧
    Command.parse "THEN take and The lamp And and coin AND" = Command.parse "take lamp and coin" ∧
    (isQuit "take lamp and coin" = false ∧
      isQuit "THEN take and The lamp And and coin AND" = false ∧
      (Game.start world).step "THEN take and The lamp And and coin AND" =
        (Game.start world).step "take lamp and coin") := by
  obtain ⟨world, hload⟩ := exists_cave
  have hline : tokens "take lamp and coin" = ["take", "lamp", "and", "coin"] := by decide
  have hpadded : tokens "THEN take and The lamp And and coin AND" =
      ["then", "take", "and", "the", "lamp", "and", "and", "coin", "and"] := by decide
  have hend : Padded ["take", "lamp", "and", "coin"] ["take", "lamp", "and", "coin", "and"] :=
    .at_end _
  have hbeside : Padded ["take", "lamp", "and", "coin", "and"]
      ["take", "lamp", "and", "and", "coin", "and"] := .beside ["take", "lamp"] _
  have hthe : Padded ["take", "lamp", "and", "and", "coin", "and"]
      ["take", "the", "lamp", "and", "and", "coin", "and"] :=
    .noise (by decide) (by decide) ["take"] _
  have hverb : Padded ["take", "the", "lamp", "and", "and", "coin", "and"]
      ["take", "and", "the", "lamp", "and", "and", "coin", "and"] :=
    .after_verb (fun word hword => absurd hword List.not_mem_nil) (by decide) _
  have hthen : Padded ["take", "and", "the", "lamp", "and", "and", "coin", "and"]
      ["then", "take", "and", "the", "lamp", "and", "and", "coin", "and"] :=
    .noise (by decide) (by decide) [] _
  have hchain : Relation.ReflTransGen Padded (tokens "take lamp and coin")
      (tokens "THEN take and The lamp And and coin AND") := by
    rw [hline, hpadded]
    exact ((((Relation.ReflTransGen.single hend).tail hbeside).tail hthe).tail hverb).tail hthen
  obtain ⟨hparse, hstep⟩ := padding_changes_nothing hchain
  have hquit : isQuit "take lamp and coin" = false ∧
      isQuit "THEN take and The lamp And and coin AND" = false := by decide
  exact ⟨world, hload, hchain, hparse, hquit.1, hquit.2, hstep hquit.1 hquit.2 _⟩

end Adventure
