import Adventure.Play.View

/-!
# The shape of what is shown

The last block of an answer says what kind of answer it is: a line of text, the line of exits, or an
event. Before it stand lines of text and at most one heading, and no block is blank
(`Output.ClosesWith`). All that is asked of the shape of an answer follows from this alone
(`Output.ClosesWith.wellShaped`, `Output.ClosesWith.exists_kind_iff`).

Blank texts are left out, so an answer is silent when all of its texts are. `Output.Spoken` says
that something was shown, and only text; one text that is not blank is enough
(`Output.Plain.spoken_say`).
-/

namespace Adventure

namespace Output

/-- How many blocks of a kind there are. -/
def count (kind : BlockKind) (output : Output) : Nat :=
  output.blocks.countP (·.kind == kind)

/-- No block of this kind has another one after it. -/
def OnlyLast (kind : BlockKind) (output : Output) : Prop :=
  ∀ block ∈ output.blocks.dropLast, block.kind ≠ kind

/-- Something is shown, nothing blank, with at most one heading, and at most one line of exits,
which comes last. -/
structure WellShaped (output : Output) : Prop where
  not_silent : output.blocks ≠ []
  not_blank : ∀ block ∈ output.blocks, Text.isBlankText block.text = false
  one_title : output.count .title ≤ 1
  one_exits : output.count .exits ≤ 1
  exits_last : output.OnlyLast .exits

/-- There are only lines of text, none of them blank. -/
def Plain (output : Output) : Prop :=
  ∀ block ∈ output.blocks, block.kind = .text ∧ Text.isBlankText block.text = false

/-- There is some text, and nothing else. -/
structure Spoken (output : Output) : Prop where
  plain : output.Plain
  not_silent : output.blocks ≠ []

/-- What may stand before the last block: lines of text and at most one heading, none of them
blank. -/
structure Leads (output : Output) : Prop where
  not_blank : ∀ block ∈ output.blocks, Text.isBlankText block.text = false
  kinds : ∀ block ∈ output.blocks, block.kind = .text ∨ block.kind = .title
  one_title : output.count .title ≤ 1

/-- The last block is of this kind and not blank, and what stands before it may do so. -/
def ClosesWith (kind : BlockKind) (output : Output) : Prop :=
  ∃ (before : Output) (text : String), before.Leads ∧ Text.isBlankText text = false ∧
    output.blocks = before.blocks ++ [⟨kind, text⟩]

/-- The output ends with text or with exits. -/
def Uneventful (output : Output) : Prop := output.ClosesWith .text ∨ output.ClosesWith .exits

variable {output : Output} {kind other : BlockKind} {text : String}

/-! ## Adding blocks -/

/-- What is there, and what is added unless it is blank, is all there is then. -/
theorem forall_mem_add {P : Block → Prop} (h : ∀ block ∈ output.blocks, P block)
    (hadded : Text.isBlankText text = false → P ⟨kind, text⟩) :
    ∀ block ∈ (output.add kind text).blocks, P block := by
  cases hblank : Text.isBlankText text with
  | true =>
    rw [add_of_blank hblank]
    exact h
  | false =>
    rw [blocks_add_of_not_blank hblank]
    intro block hblock
    rcases List.mem_append.mp hblock with hold | hnew
    · exact h block hold
    · obtain rfl := List.mem_singleton.mp hnew
      exact hadded hblank

theorem count_add_le (kind other : BlockKind) (text : String) (output : Output) :
    (output.add other text).count kind ≤ output.count kind + if other = kind then 1 else 0 := by
  cases hblank : Text.isBlankText text with
  | true =>
    rw [add_of_blank hblank]
    omega
  | false =>
    unfold count
    rw [blocks_add_of_not_blank hblank, List.countP_append, List.countP_singleton]
    by_cases h : other = kind <;> simp [h]

/-! ## Text -/

theorem plain_empty : empty.Plain := fun _ hblock => absurd hblock List.not_mem_nil

theorem Plain.say (h : output.Plain) (text : String) : (output.say text).Plain :=
  forall_mem_add h fun hblank => ⟨rfl, hblank⟩

/-- **One text that is not blank is enough.** -/
theorem Plain.spoken_say (h : output.Plain) (htext : Text.isBlankText text = false) :
    (output.say text).Spoken := by
  refine ⟨h.say text, ?_⟩
  rw [Output.say, blocks_add_of_not_blank htext]
  exact List.append_ne_nil_of_right_ne_nil _ (List.cons_ne_nil _ _)

theorem Spoken.say (h : output.Spoken) (text : String) : (output.say text).Spoken := by
  cases hblank : Text.isBlankText text with
  | true =>
    rw [Output.say, add_of_blank hblank]
    exact h
  | false => exact h.plain.spoken_say hblank

theorem Spoken.sayAll (h : output.Spoken) (lines : List String) : (output.sayAll lines).Spoken := by
  induction lines generalizing output with
  | nil => exact h
  | cons line lines ih => exact ih (h.say line)

/-! ## Before the last block -/

theorem Plain.count_title (h : output.Plain) : output.count .title = 0 := by
  refine List.countP_eq_zero.mpr fun block hblock => ?_
  rw [(h block hblock).1]
  decide

theorem Plain.leads (h : output.Plain) : output.Leads where
  not_blank := fun block hblock => (h block hblock).2
  kinds := fun block hblock => Or.inl (h block hblock).1
  one_title := by
    rw [h.count_title]
    exact Nat.zero_le 1

/-- Text may be followed by a heading. -/
theorem Plain.title (h : output.Plain) (text : String) : (output.title text).Leads where
  not_blank := forall_mem_add h.leads.not_blank fun hblank => hblank
  kinds := forall_mem_add h.leads.kinds fun _ => Or.inr rfl
  one_title := by
    have hcount := count_add_le .title .title text output
    rw [h.count_title] at hcount
    exact hcount

theorem Leads.say (h : output.Leads) (text : String) : (output.say text).Leads where
  not_blank := forall_mem_add h.not_blank fun hblank => hblank
  kinds := forall_mem_add h.kinds fun _ => Or.inl rfl
  one_title := Nat.le_trans (count_add_le .title .text text output) h.one_title

/-! ## The last block -/

theorem Leads.closesWith_add (h : output.Leads) (htext : Text.isBlankText text = false)
    (kind : BlockKind) : (output.add kind text).ClosesWith kind :=
  ⟨output, text, h, htext, blocks_add_of_not_blank htext kind output⟩

/-- No exits are there yet that would be replaced. -/
theorem Leads.closesWith_setExits (h : output.Leads) (htext : Text.isBlankText text = false) :
    (output.setExits text).ClosesWith .exits := by
  refine ⟨output, text, h, htext, ?_⟩
  have hkept : output.blocks.filter (·.kind != .exits) = output.blocks := by
    refine List.filter_eq_self.mpr fun block hblock => ?_
    rcases h.kinds block hblock with hkind | hkind <;> rw [hkind] <;> rfl
  rw [setExits, htext, hkept]
  rfl

theorem Spoken.closesWith (h : output.Spoken) : output.ClosesWith .text := by
  obtain ⟨before, ⟨kind, text⟩, hblocks⟩ :=
    (List.eq_nil_or_concat output.blocks).resolve_left h.not_silent
  rw [List.concat_eq_append] at hblocks
  have hplain := h.plain
  unfold Plain at hplain
  rw [hblocks] at hplain
  obtain ⟨rfl, htext⟩ := hplain ⟨kind, text⟩ (List.mem_append_right _ (List.mem_singleton_self _))
  have hbefore : (Output.mk before).Plain := fun block hblock =>
    hplain block (List.mem_append_left _ hblock)
  exact ⟨⟨before⟩, text, hbefore.leads, htext, hblocks⟩

namespace ClosesWith

/-- Only the last block can be more than text or a heading. -/
theorem onlyLast (h : output.ClosesWith kind) (htext : other ≠ .text) (htitle : other ≠ .title) :
    output.OnlyLast other := by
  obtain ⟨before, text, hbefore, -, hblocks⟩ := h
  unfold OnlyLast
  rw [hblocks, List.dropLast_concat]
  intro block hblock hother
  rcases hbefore.kinds block hblock with hkind | hkind
  · exact htext (hother.symm.trans hkind)
  · exact htitle (hother.symm.trans hkind)

/-- What comes last only, comes once at most: exactly if it is what comes last. -/
theorem count_eq (h : output.ClosesWith kind) (htext : other ≠ .text) (htitle : other ≠ .title) :
    output.count other = if kind = other then 1 else 0 := by
  have hlast := h.onlyLast htext htitle
  obtain ⟨before, text, -, -, hblocks⟩ := h
  unfold OnlyLast at hlast
  rw [hblocks, List.dropLast_concat] at hlast
  have hbefore : before.blocks.countP (·.kind == other) = 0 :=
    List.countP_eq_zero.mpr fun block hblock => by simpa using hlast block hblock
  unfold count
  rw [hblocks, List.countP_append, hbefore, List.countP_singleton, Nat.zero_add]
  simp only [beq_iff_eq]

/-- Some block is of a kind other than text and headings exactly if the last one is. -/
theorem exists_kind_iff (h : output.ClosesWith kind) (htext : other ≠ .text)
    (htitle : other ≠ .title) : (∃ block ∈ output.blocks, block.kind = other) ↔ kind = other := by
  have hcount := h.count_eq htext htitle
  have hsome : (∃ block ∈ output.blocks, block.kind = other) ↔ 0 < output.count other := by
    unfold count
    rw [List.countP_pos_iff]
    simp only [beq_iff_eq]
  rw [hsome, hcount]
  by_cases hkind : kind = other <;> simp [hkind]

/-- **An answer that ends with anything but a heading is well-shaped.** -/
theorem wellShaped (h : output.ClosesWith kind) (hkind : kind ≠ .title) : output.WellShaped := by
  have hexits : output.count .exits = if kind = .exits then 1 else 0 :=
    h.count_eq (by decide) (by decide)
  have hlast : output.OnlyLast .exits := h.onlyLast (by decide) (by decide)
  obtain ⟨before, text, hbefore, htext, hblocks⟩ := h
  refine ⟨?_, ?_, ?_, ?_, hlast⟩
  · rw [hblocks]
    exact List.append_ne_nil_of_right_ne_nil _ (List.cons_ne_nil _ _)
  · rw [hblocks]
    intro block hblock
    rcases List.mem_append.mp hblock with hold | hnew
    · exact hbefore.not_blank block hold
    · obtain rfl := List.mem_singleton.mp hnew
      exact htext
  · have hone := hbefore.one_title
    unfold count at hone ⊢
    rw [hblocks, List.countP_append, List.countP_singleton]
    simpa [hkind] using hone
  · rw [hexits]
    split <;> omega

end ClosesWith

theorem Uneventful.exists_kind (h : output.Uneventful) :
    ∃ kind, output.ClosesWith kind ∧ kind ≠ .title ∧ kind ≠ .event := by
  rcases h with htext | hexits
  · exact ⟨.text, htext, by decide, by decide⟩
  · exact ⟨.exits, hexits, by decide, by decide⟩

/-! ## Rooms and items -/

theorem not_blank_exitsLine (directions : List String) :
    Text.isBlankText (exitsLine directions) = false := by
  unfold exitsLine
  split
  · decide
  · exact Text.not_blank_append (by decide) _

/-- **Showing a room after some text ends with its exits**, even if its name and description are
blank. -/
theorem Plain.addRoom (h : output.Plain) (world : World) (room : Room) :
    (output.addRoom world room).ClosesWith .exits :=
  (((h.title room.name).say _).say _).closesWith_setExits (not_blank_exitsLine _)

/-- **Showing an item says something**, even if its name and description are blank. -/
theorem Plain.addItem (h : output.Plain) (item : Item) : (output.addItem item).Spoken := by
  unfold Output.addItem
  have hdescribed : (if Text.isBlankText item.desc then
      output.say s!"You see nothing special about the {item.name}."
      else output.say (Text.trim item.desc)).Spoken := by
    split
    · exact h.spoken_say (Text.not_blank_filled (by decide) _ _)
    · rename_i hdesc
      exact h.spoken_say (Text.not_blank_trim (Bool.eq_false_iff.mpr hdesc))
  dsimp only
  split
  · exact hdescribed.say _
  · split
    · exact hdescribed.say _
    · exact hdescribed

end Output

end Adventure
