import Adventure.Proofs.Aliases
import Adventure.Proofs.Phrases
import Adventure.Proofs.Plan

/-!
# Lower case, as a whole and word by word

What an author writes down, be it a name, an alias or a direction, is lower-cased as a whole. What a
player types is cut into words first, and each word is lower-cased on its own. A capital sigma looks
at its neighbours, so that the two could differ: but it never looks past a blank, and no blank comes
or goes in lower-casing. So lower-casing changes places with cutting a text into words (`tokens_eq`)
and with joining words (`Text.lower_joinWords`).

What is heard of a text is therefore the lower case of a text as well, of the words typed that have
a meaning (`heard_eq_lower_meant`). A direction is looked up, and an item is matched as a whole, by
comparing this text with those written down, in the lower case of both.

Results:

* `lowered_whole_or_by_words`: that lower-casing and words change places, for all texts, and what
  this says of exits and items, for every draft that is accepted and after all lines.
-/

namespace Adventure

/-! ## Lower case of joined words -/

namespace Text

/-- The texts before and after a space are lower-cased independently. -/
theorem lower_space (a b : String) : lower (a ++ " " ++ b) = lower a ++ " " ++ lower b := by
  rw [← String.toList_inj, toList_space, lower, lower, lower, String.toList_ofList,
    String.toList_ofList, String.toList_ofList, toList_space]
  exact lowerChars_append_blank (by decide) a.toList b.toList

/-- **Lower-casing joined words is joining the words in lower case.** -/
theorem lower_joinWords (words : List String) :
    lower (joinWords words) = joinWords (words.map lower) := by
  unfold joinWords
  induction words with
  | nil => rfl
  | cons word words ih =>
    cases words with
    | nil => rw [List.map_singleton, String.intercalate_singleton, String.intercalate_singleton]
    | cons next words =>
      rw [String.intercalate_cons_cons, lower_space, ih]
      exact (String.intercalate_cons_cons ..).symm

end Text

/-! ## What is meant by a text -/

/-- The words of the text that have a meaning, as they were typed, with one space between
neighbours. -/
def meant (text : String) : String :=
  Text.joinWords ((Text.splitWords text).filter fun word => !isNoise (Text.lower word))

/-- **What is heard is what is meant, in lower case as a whole.** -/
theorem heard_eq_lower_meant (text : String) : heard text = Text.lower (meant text) := by
  rw [heard, phraseWords, stripNoise, tokens, List.filter_map, meant, Text.lower_joinWords]
  rfl

theorem heard_eq_empty_iff {text : String} : heard text = "" ↔ meant text = "" := by
  rw [heard_eq_lower_meant, Text.lower_eq_empty_iff]

/-! ## Comparing with what was written down -/

/-- An item matches as a whole what is, in lower case, its name or one of the aliases written for
it. -/
theorem ItemEntry.matchesAlias_iff (entry : ItemEntry) {text : String} :
    entry.item.matchesAlias (phraseWords text) = true ↔ meant text ≠ "" ∧
      (Text.lower entry.name = Text.lower (meant text) ∨
        ∃ given ∈ entry.aliases, Text.lower (Text.trim given) = Text.lower (meant text)) := by
  have hnormal := Item.normalAliases_withAliases entry.id entry.name entry.desc entry.aliases
  refine Adventure.matchesAlias_iff.trans ?_
  rw [Ne, heard_eq_empty_iff, heard_eq_lower_meant]
  refine and_congr_right fun hmeant => (hnormal.mem_iff _).trans (or_congr eq_comm ?_)
  refine exists_congr fun given => and_congr_right fun _ => and_iff_right_of_imp fun hsame => ?_
  -- a blank alias comes to nothing, and something is meant
  rw [Bool.eq_false_iff]
  intro hblank
  rw [Text.trim_eq_empty_iff.mpr hblank] at hsame
  exact hmeant (Text.lower_eq_empty_iff.mp hsame.symm)

/-- **What is typed is compared with what the draft says in lower case**, and as a whole: when an
exit is looked for in the direction typed, and when an item is asked for. -/
structure Game.ComparesInLowerCase (game : Game) (draft : Draft) (typed : String) : Prop where
  exits : ∀ room target, game.world.exit? room (heard typed) = some target ↔
    ∃ entry ∈ draft.rooms, entry.id = room ∧ ∃ exit ∈ entry.exits,
      Text.lower (Text.trim exit.direction) = Text.lower (meant typed) ∧ exit.target = target
  items : ∀ item ∈ game.allItems, ∃ entry ∈ draft.items, entry.id = item.id ∧
    (item.matchesAlias (phraseWords typed) = true ↔ meant typed ≠ "" ∧
      (Text.lower entry.name = Text.lower (meant typed) ∨
        ∃ given ∈ entry.aliases, Text.lower (Text.trim given) = Text.lower (meant typed)))

/-- **Whether a text is lower-cased as a whole or word by word, it comes to the same words**, and
these are cut and lower-cased again as they are. So it is by their lower case as a whole that what
is typed and what was written down are compared, in every game that can be got to. -/
theorem lowered_whole_or_by_words :
    (∀ text : String, tokens text = Text.splitWords (Text.lower text) ∧
      tokens (Text.joinWords (tokens text)) = tokens text) ∧
    (∀ words : List String,
      Text.lower (Text.joinWords words) = Text.joinWords (words.map Text.lower)) ∧
    ∀ {draft : Draft} {world : World}, World.ofDraft draft = .ok world →
      ∀ (lines : List String) (typed : String),
        ((Game.start world).run lines).ComparesInLowerCase draft typed := by
  refine ⟨fun text => ⟨tokens_eq text, ?_⟩, Text.lower_joinWords, fun hdraft lines typed => ?_⟩
  · exact tokens_joinWords fun _ hword => tokens_of_mem hword
  · refine ⟨fun room target => ?_, fun item hitem => ?_⟩
    · rw [(run_samePlan (Game.start _) lines).exit?, heard_eq_lower_meant]
      exact exit?_eq_some_iff hdraft
    · obtain ⟨entry, hentry, hlabel⟩ := (realizes_of_ofDraft hdraft).entry_of_run lines hitem
      refine ⟨entry, hentry, (Item.id_eq_of_label_eq hlabel).symm, ?_⟩
      rw [Item.matchesAlias, Item.aliases_eq_of_label_eq hlabel]
      exact entry.matchesAlias_iff

/-- A final sigma, one that stands alone behind a blank which is no space, and a capital that
becomes two characters. -/
example : tokens "My ΟΔΟΣ\u3000Σ İ" = ["my", "οδος", "σ", "i̇"] ∧
    meant "My ΟΔΟΣ\u3000Σ İ" = "ΟΔΟΣ Σ İ" ∧ heard "My ΟΔΟΣ\u3000Σ İ" = "οδος σ i̇" := by
  decide +kernel

/-- A square from which a street leads, and a sign that goes by the name of the street. -/
def squareText : String :=
  r#"[world]
id = "town"
start_room = "square"

[[room]]
id = "square"

  [[room.exit]]
  direction = " ΟΔΟΣ ΑΘΗΝΑΣ "
  target = "street"

[[room]]
id = "street"

[[item]]
id = "sign"
name = "Sign"
start_location = "room:square"
aliases = ["Οδος ΑΘΗΝΑΣ"]
"#

set_option maxRecDepth 100000 in
theorem exists_square : ∃ draft world, Draft.ofText? squareText = some draft ∧
    World.ofDraft draft = .ok world ∧ (Game.start world).allItems.map (·.id) = ["sign"] ∧
    (∃ entry ∈ draft.rooms, entry.id = "square" ∧ ∃ exit ∈ entry.exits,
      Text.lower (Text.trim exit.direction) = "οδος αθηνας" ∧ exit.target = "street") ∧
    ∀ entry ∈ draft.items, ∃ given ∈ entry.aliases,
      Text.lower (Text.trim given) = "οδος αθηνας" := by
  exact exists_world_of_chars squareText
    (fun draft world => (Game.start world).allItems.map (·.id) = ["sign"] ∧
      (∃ entry ∈ draft.rooms, entry.id = "square" ∧ ∃ exit ∈ entry.exits,
        Text.lower (Text.trim exit.direction) = "οδος αθηνας" ∧ exit.target = "street") ∧
      ∀ entry ∈ draft.items, ∃ given ∈ entry.aliases,
        Text.lower (Text.trim given) = "οδος αθηνας")
    String.toList_ofList (by decide +kernel)

/-- The street is found by its name, with other capitals and spaces than in the text, and so is the
sign. -/
theorem street_and_sign_found : ∃ world, World.load squareText = .ok world ∧
    world.exit? "square" (heard "the ΟΔΟΣ  Αθηνας") = some "street" ∧
    (Game.start world).allItems.map (·.id) = ["sign"] ∧
    ∀ item ∈ (Game.start world).allItems,
      item.matchesAlias (phraseWords "the ΟΔΟΣ  Αθηνας") = true := by
  obtain ⟨draft, world, htext, hdraft, hsign, hstreet, haliases⟩ := exists_square
  obtain ⟨hexits, hitems⟩ := lowered_whole_or_by_words.2.2 hdraft [] "the ΟΔΟΣ  Αθηνας"
  have hmeant : Text.lower (meant "the ΟΔΟΣ  Αθηνας") = "οδος αθηνας" := by decide +kernel
  rw [hmeant] at hexits hitems
  refine ⟨world, load_eq_ok_iff.mpr ⟨draft, htext, hdraft⟩, (hexits "square" "street").mpr hstreet,
    hsign, fun item hitem => ?_⟩
  obtain ⟨entry, hentry, -, hmatches⟩ := hitems item hitem
  exact hmatches.mpr ⟨by decide +kernel, Or.inr (haliases entry hentry)⟩

end Adventure
