import Adventure.Text.Blank
import Adventure.Text.Lower

/-!
# Words of the command language

A line is understood through its tokens, the lower-cased words. Noise words carry no meaning and are
left out; "and", a noise word itself, also parts the phrases of a list; a preposition parts the two
objects of "use".

Model of `tokenize` and `strip_noise`.
-/

namespace Adventure

/-- The lower-cased words of a line (`tokenize`). -/
def tokens (line : String) : List String :=
  (Text.splitWords line).map Text.lower

/-- The words that carry no meaning of their own (`NOISE_WORDS`). -/
def noiseWords : List String := ["a", "an", "the", "and", "then", "my"]

/-- The words that part the two objects of a command (`PREPOSITIONS`). -/
def prepositions : List String := ["on", "with", "in", "to"]

/-- The word that parts the phrases of a list (`LIST_SEPARATOR`). -/
def listSeparator : String := "and"

/-- A word without meaning (`is_noise`). -/
def isNoise (word : String) : Bool :=
  noiseWords.contains word

/-- A word that parts two objects (`is_preposition`). -/
def isPreposition (word : String) : Bool :=
  prepositions.contains word

/-- The words without noise (`strip_noise`). -/
def stripNoise (words : List String) : List String :=
  words.filter fun word => !isNoise word

/-! ## Laws -/

theorem isNoise_listSeparator : isNoise listSeparator = true := by decide +kernel

/-- No word is noise and a preposition at once. -/
theorem isNoise_of_isPreposition {word : String} (h : isPreposition word = true) :
    isNoise word = false := by
  simp only [isPreposition, prepositions, List.contains_iff_mem, List.mem_cons,
    List.not_mem_nil, or_false] at h
  rcases h with rfl | rfl | rfl | rfl <;> decide +kernel

theorem mem_stripNoise_iff {word : String} {words : List String} :
    word ∈ stripNoise words ↔ word ∈ words ∧ isNoise word = false := by
  simp [stripNoise]

theorem stripNoise_cons {word : String} (h : isNoise word = false) (words : List String) :
    stripNoise (word :: words) = word :: stripNoise words :=
  List.filter_cons_of_pos (by rw [h]; rfl)

theorem stripNoise_eq_nil_iff {words : List String} :
    stripNoise words = [] ↔ ∀ word ∈ words, isNoise word = true := by
  rw [stripNoise, List.filter_eq_nil_iff]
  simp

@[simp] theorem stripNoise_append (l r : List String) :
    stripNoise (l ++ r) = stripNoise l ++ stripNoise r :=
  List.filter_append ..

@[simp] theorem stripNoise_stripNoise (words : List String) :
    stripNoise (stripNoise words) = stripNoise words := by
  simp [stripNoise]

end Adventure
