import Adventure.Proofs.Casing
import Adventure.Proofs.Conservation

/-!
# Aliases in normal form

An item answers to its name in lower case, and to what else it was given, trimmed and in lower case.
What is blank is left out, and so is what is there already. Adding aliases one by one thus comes to
listing them all and leaving out what was listed before (`foldl_addAlias`).

Lower-casing keeps blanks and what is not blank, and leaves alone what is in lower case. So an alias
in normal form is as it should be: it has no blanks at its ends and is its own lower case
(`trim_normalAlias`, `lower_normalAlias`), and it is empty only if nothing but blanks was given.

Results:

* `aliases_are_normal`: the aliases of every item that is made, and of all items in every game that
  can be got to.
-/

namespace Adventure

/-! ## Texts without blanks at their ends -/

namespace Text

/-- Neither end is a blank. -/
structure TightChars (cs : List Char) : Prop where
  first : ∀ c rest, cs = c :: rest → isBlank c = false
  last : ∀ front c, cs = front ++ [c] → isBlank c = false

/-- There is nothing to trim where neither end is a blank. -/
theorem TightChars.trimChars_eq {cs : List Char} (h : TightChars cs) : trimChars cs = cs := by
  have hkeep : ∀ {c : Char} (l : List Char), isBlank c = false →
      (c :: l).dropWhile isBlank = c :: l := fun l hc =>
    List.dropWhile_cons_of_neg (by rw [hc]; exact Bool.false_ne_true)
  cases cs with
  | nil => rfl
  | cons c rest =>
    obtain ⟨front, d, hends⟩ :=
      (List.eq_nil_or_concat (c :: rest)).resolve_left (List.cons_ne_nil c rest)
    rw [List.concat_eq_append] at hends
    rw [trimChars, hkeep rest (h.first c rest rfl), hends, List.reverse_append,
      List.reverse_singleton, List.singleton_append, hkeep front.reverse (h.last front d hends),
      List.reverse_cons, List.reverse_reverse]

theorem isBlank_of_dropWhile_eq_cons {cs rest : List Char} {c : Char}
    (h : cs.dropWhile isBlank = c :: rest) : isBlank c = false := by
  have hhead := List.head?_dropWhile_not isBlank cs
  rw [h] at hhead
  exact hhead

/-- Trimming leaves no blank at either end. -/
theorem tightChars_trimChars (cs : List Char) : TightChars (trimChars cs) where
  first := by
    intro c rest h
    obtain ⟨tail, htail⟩ : trimChars cs <+: cs.dropWhile isBlank := by
      rw [trimChars, ← List.reverse_suffix, List.reverse_reverse]
      exact List.dropWhile_suffix isBlank
    rw [h, List.cons_append] at htail
    exact isBlank_of_dropWhile_eq_cons htail.symm
  last := by
    intro front c h
    rw [trimChars, List.reverse_eq_iff, List.reverse_append, List.reverse_singleton,
      List.singleton_append] at h
    exact isBlank_of_dropWhile_eq_cons h

/-- The last character is lower-cased to something as well. -/
theorem exists_lowerFrom_concat (before cs : List Char) (c : Char) : ∃ front lowered,
    Lowers c lowered ∧ lowerFrom before (cs ++ [c]) = front ++ lowered := by
  induction cs generalizing before with
  | nil =>
    obtain ⟨lowered, hlowers, heq⟩ := exists_lowerFrom_cons before c []
    exact ⟨[], lowered, hlowers, by rw [List.nil_append, heq, lowerFrom, List.append_nil]; rfl⟩
  | cons d cs ih =>
    obtain ⟨first, -, hfirst⟩ := exists_lowerFrom_cons before d (cs ++ [c])
    obtain ⟨front, lowered, hlowers, heq⟩ := ih (d :: before)
    exact ⟨first ++ front, lowered, hlowers, by
      rw [List.cons_append, hfirst, heq, List.append_assoc]⟩

/-- **Lower-casing puts no blank at either end.** -/
theorem TightChars.lowerChars {cs : List Char} (h : TightChars cs) :
    TightChars (lowerChars cs) where
  first := by
    intro d rest heq
    cases cs with
    | nil => exact absurd heq (by simp [Text.lowerChars, lowerFrom])
    | cons c cs =>
      obtain ⟨lowered, hlowers, hcons⟩ := exists_lowerFrom_cons [] c cs
      obtain ⟨e, others, rfl⟩ := List.exists_cons_of_ne_nil hlowers.nonempty
      rw [Text.lowerChars, hcons, List.cons_append] at heq
      obtain rfl := (List.cons.inj heq).1
      exact (hlowers.blank e List.mem_cons_self).trans (h.first c cs rfl)
  last := by
    intro front d heq
    rcases List.eq_nil_or_concat cs with rfl | ⟨body, c, rfl⟩
    · exact absurd heq (by simp [Text.lowerChars, lowerFrom])
    · rw [List.concat_eq_append] at h heq
      obtain ⟨others, lowered, hlowers, hconcat⟩ := exists_lowerFrom_concat [] body c
      obtain ⟨l, e, rfl⟩ := (List.eq_nil_or_concat lowered).resolve_left hlowers.nonempty
      rw [List.concat_eq_append] at hlowers hconcat
      rw [Text.lowerChars, hconcat, ← List.append_assoc] at heq
      obtain rfl := List.singleton_inj.mp (List.append_inj_right' heq rfl)
      exact (hlowers.blank e List.mem_concat_self).trans (h.last body c rfl)

end Text

/-! ## The normal form -/

namespace Item

theorem trim_normalAlias (given : String) : Text.trim (normalAlias given) = normalAlias given := by
  have htight := (Text.tightChars_trimChars given.toList).lowerChars
  rw [normalAlias, Text.trim, Text.lower, Text.trim, String.toList_ofList, String.toList_ofList,
    htight.trimChars_eq]

theorem lower_normalAlias (given : String) : Text.lower (normalAlias given) = normalAlias given :=
  Text.lower_lower _

theorem normalAlias_eq_empty_iff {given : String} :
    normalAlias given = "" ↔ Text.isBlankText given = true :=
  Text.lower_eq_empty_iff.trans Text.trim_eq_empty_iff

/-- The aliases given that are not blank, in normal form. -/
def normalAliases (given : List String) : List String :=
  (given.filter (!Text.isBlankText ·)).map normalAlias

theorem mem_normalAliases {given : List String} {kept : String} : kept ∈ normalAliases given ↔
    ∃ text ∈ given, Text.isBlankText text = false ∧ Text.lower (Text.trim text) = kept := by
  simp only [normalAliases, List.mem_map, List.mem_filter, Bool.not_eq_true', and_assoc]
  rfl

/-! ## Adding aliases -/

theorem addAlias_of_blank {given : String} (h : Text.isBlankText given = true)
    (known : List String) : addAlias known given = known := by
  rw [addAlias, normalAlias_eq_empty_iff.mpr h]
  rfl

theorem addAlias_of_not_blank {given : String} (h : Text.isBlankText given = false)
    (known : List String) : addAlias known given =
      if normalAlias given ∈ known then known else known ++ [normalAlias given] := by
  have hne : normalAlias given ≠ "" := fun hempty =>
    Bool.false_ne_true (h.symm.trans (normalAlias_eq_empty_iff.mp hempty))
  simp only [addAlias, String.isEmpty_iff, hne, Bool.or_eq_true, List.contains_iff_mem, false_or]

/-- **Adding aliases one by one** adds what is new among them, each once and in their order. -/
theorem foldl_addAlias (known given : List String) : given.foldl addAlias known =
    known ++ ((normalAliases given).removeAll known).eraseDups := by
  induction given generalizing known with
  | nil => exact (List.append_nil known).symm
  | cons first given ih =>
    rw [List.foldl_cons, ih]
    cases hblank : Text.isBlankText first with
    | true =>
      have hleft : normalAliases (first :: given) = normalAliases given := by
        simp only [normalAliases, List.filter_cons, hblank, Bool.not_true, Bool.false_eq_true,
          if_false]
      rw [addAlias_of_blank hblank, hleft]
    | false =>
      have hadded : normalAliases (first :: given) = normalAlias first :: normalAliases given := by
        simp only [normalAliases, List.filter_cons, hblank, Bool.not_false, if_true, List.map_cons]
      rw [addAlias_of_not_blank hblank, hadded, List.cons_removeAll]
      by_cases hknown : normalAlias first ∈ known
      · rw [if_pos hknown, if_neg (by simpa using hknown)]
      · -- what is added now is left out of the rest
        have hrest : (normalAliases given).removeAll (known ++ [normalAlias first]) =
            ((normalAliases given).removeAll known).filter (!· == normalAlias first) := by
          simp only [List.removeAll, List.filter_filter, List.elem_eq_contains,
            List.contains_append, List.contains_cons, List.contains_nil, Bool.or_false, Bool.not_or,
            Bool.and_comm]
        rw [if_neg hknown, if_pos (by simpa using hknown), hrest, List.eraseDups_cons,
          List.append_assoc]
        rfl

theorem mem_foldl_addAlias {known given : List String} {kept : String} :
    kept ∈ given.foldl addAlias known ↔ kept ∈ known ∨ kept ∈ normalAliases given := by
  by_cases hknown : kept ∈ known <;>
    simp [foldl_addAlias, List.mem_eraseDups, List.removeAll, hknown]

theorem nodup_addAlias {known : List String} (h : known.Nodup) (given : String) :
    (addAlias known given).Nodup := by
  unfold addAlias
  split
  · exact h
  · rename_i hnew
    rw [Bool.or_eq_true, not_or, List.contains_iff_mem] at hnew
    rw [← List.concat_eq_append]
    exact h.concat hnew.2

theorem nodup_foldl_addAlias {known : List String} (h : known.Nodup) (given : List String) :
    (given.foldl addAlias known).Nodup := by
  induction given generalizing known with
  | nil => exact h
  | cons first given ih =>
    rw [List.foldl_cons]
    exact ih (nodup_addAlias h first)

theorem withAliases_nil (item : Item) : item.withAliases [] = item := by
  cases item
  rfl

/-- Rounds of aliases come to one. -/
theorem foldl_withAliases (item : Item) (rounds : List (List String)) :
    rounds.foldl withAliases item = item.withAliases rounds.flatten := by
  induction rounds generalizing item with
  | nil => rw [List.foldl_nil, List.flatten_nil, withAliases_nil]
  | cons given rounds ih => rw [List.foldl_cons, ih, withAliases_append, List.flatten_cons]

/-- **Giving the same aliases again adds none.** -/
theorem withAliases_again (item : Item) (given : List String) :
    (item.withAliases given).withAliases given = item.withAliases given := by
  have hnone : (normalAliases given).removeAll (given.foldl addAlias item.aliases) = [] := by
    simp only [List.removeAll, List.filter_eq_nil_iff, List.elem_eq_contains, Bool.not_eq_true',
      Bool.not_eq_false, List.contains_iff_mem]
    exact fun kept hkept => mem_foldl_addAlias.mpr (Or.inr hkept)
  have hkeeps : given.foldl addAlias (given.foldl addAlias item.aliases) =
      given.foldl addAlias item.aliases := by
    rw [foldl_addAlias (given.foldl addAlias item.aliases), hnone, List.eraseDups_nil,
      List.append_nil]
  rw [withAliases, withAliases, hkeeps]

/-! ## The aliases of an item -/

/-- **The aliases are in normal form**: they are those of an item of the name that was given the
texts. -/
structure NormalAliases (name : String) (given aliases : List String) : Prop where
  /-- The first is the name. -/
  first : aliases.head? = some (Text.lower name)
  distinct : aliases.Nodup
  lowered : ∀ kept ∈ aliases, Text.lower kept = kept
  /-- Those after the name have characters, and no blanks at their ends. -/
  trimmed : ∀ kept ∈ aliases.tail, kept ≠ "" ∧ Text.trim kept = kept
  /-- They are the name and what was given, blank texts apart. -/
  mem_iff : ∀ kept, kept ∈ aliases ↔ kept = Text.lower name ∨
    ∃ text ∈ given, Text.isBlankText text = false ∧ Text.lower (Text.trim text) = kept
  /-- They come in the order in which each was first given. -/
  in_order : aliases = (Text.lower name :: normalAliases given).eraseDups

theorem aliases_make (id name desc : String) (given : List String) :
    ((make id name desc).withAliases given).aliases =
      Text.lower name :: ((normalAliases given).removeAll [Text.lower name]).eraseDups :=
  foldl_addAlias [Text.lower name] given

theorem normalAliases_withAliases (id name desc : String) (given : List String) :
    NormalAliases name given ((make id name desc).withAliases given).aliases where
  first := by rw [aliases_make, List.head?_cons]
  distinct := nodup_foldl_addAlias (List.nodup_singleton _) given
  lowered := by
    intro kept hkept
    rcases mem_foldl_addAlias.mp hkept with hname | hgiven
    · rw [List.mem_singleton.mp hname, Text.lower_lower]
    · obtain ⟨text, -, rfl⟩ := List.mem_map.mp hgiven
      exact lower_normalAlias text
  trimmed := by
    intro kept hkept
    rw [aliases_make, List.tail_cons] at hkept
    have hgiven : kept ∈ normalAliases given :=
      (List.mem_filter.mp (List.mem_eraseDups.mp hkept)).1
    obtain ⟨text, htext, rfl⟩ := List.mem_map.mp hgiven
    refine ⟨fun hempty => ?_, trim_normalAlias text⟩
    have hblank := normalAlias_eq_empty_iff.mp hempty
    rw [List.mem_filter, hblank] at htext
    exact Bool.false_ne_true htext.2
  mem_iff := by
    intro kept
    rw [withAliases, mem_foldl_addAlias, make, List.mem_singleton, mem_normalAliases]
  in_order := by
    have hcut : ([Text.lower name] ++ normalAliases given).eraseDups =
        [Text.lower name].eraseDups ++
          ((normalAliases given).removeAll [Text.lower name]).eraseDups :=
      List.eraseDups_append
    exact (aliases_make id name desc given).trans hcut.symm

end Item

/-- **Aliases are in normal form**, in whatever rounds they are given. It does not matter how the
rounds are cut, and to give a round again changes nothing. In every game that can be got to, all
items answer to their names and to the aliases that were written for them. -/
theorem aliases_are_normal :
    (∀ (id name desc : String) (rounds : List (List String)), Item.NormalAliases name rounds.flatten
      (rounds.foldl Item.withAliases (Item.make id name desc)).aliases) ∧
    (∀ (item : Item) (l r : List String),
      (item.withAliases l).withAliases r = item.withAliases (l ++ r) ∧
      (item.withAliases l).withAliases l = item.withAliases l) ∧
    ∀ {draft : Draft} {world : World}, World.ofDraft draft = .ok world → ∀ (lines : List String),
      ∀ item ∈ ((Game.start world).run lines).allItems, ∃ entry ∈ draft.items,
        entry.id = item.id ∧ entry.name = item.name ∧
          Item.NormalAliases item.name entry.aliases item.aliases := by
  refine ⟨fun id name desc rounds => ?_, fun item l r => ?_, fun hdraft lines item hitem => ?_⟩
  · rw [Item.foldl_withAliases]
    exact Item.normalAliases_withAliases id name desc rounds.flatten
  · exact ⟨item.withAliases_append l r, item.withAliases_again l⟩
  · obtain ⟨entry, hentry, hlabel⟩ := (realizes_of_ofDraft hdraft).entry_of_run lines hitem
    have hname : item.name = entry.name := Item.name_eq_of_label_eq hlabel
    refine ⟨entry, hentry, (Item.id_eq_of_label_eq hlabel).symm, hname.symm, ?_⟩
    rw [hname, Item.aliases_eq_of_label_eq hlabel]
    exact Item.normalAliases_withAliases entry.id entry.name entry.desc entry.aliases

/-- A key by its aliases: those given are trimmed and in lower case, the blank one is left out, and
so is what comes to the same. -/
example :
    ((Item.make "key" "Rusty Key" "").withAliases [" KEY\t", " ", "ΟΔΟΣ", "key", "οδος"]).aliases =
      ["rusty key", "key", "οδος"] := by
  decide +kernel

/-- All items of the cave have their aliases in normal form when the chest is open, the lantern that
was inside as well. -/
theorem cave_aliases_normal : ∃ world draft, World.load caveText = .ok world ∧
    Draft.ofText? caveText = some draft ∧ ∀ item ∈ ((Game.start world).run
      ["north", "take rusty key", "north", "use rusty key on chest", "take all"]).allItems,
      ∃ entry ∈ draft.items, entry.id = item.id ∧ entry.name = item.name ∧
        Item.NormalAliases item.name entry.aliases item.aliases := by
  obtain ⟨world, hload⟩ := exists_cave
  obtain ⟨draft, htext, hdraft⟩ := load_eq_ok_iff.mp hload
  exact ⟨world, draft, hload, htext, aliases_are_normal.2.2 hdraft
    ["north", "take rusty key", "north", "use rusty key on chest", "take all"]⟩

end Adventure
