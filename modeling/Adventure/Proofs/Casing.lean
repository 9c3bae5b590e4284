import Adventure.Text.Blank
import Adventure.Text.Lower

/-!
# Lower case is final, and keeps blanks

What lower-casing gives, it leaves alone when applied again (`lower_lower`). A blank stays what it
is, no other character becomes one, and what stands before a blank has no part in how the
characters after it are lower-cased (`lowerChars_append_blank`): the final sigma looks for cased
characters, and a blank ends that search. So lower-casing a text word by word is lower-casing it as
a whole (`splitWords_lower`).
-/

namespace Adventure.Text

/-! ## Blank characters -/

/-- The blank code points. -/
def blankCodes : List Nat :=
  [0x9, 0xA, 0xB, 0xC, 0xD, 0x20, 0x85, 0xA0, 0x1680, 0x2000, 0x2001, 0x2002, 0x2003, 0x2004,
   0x2005, 0x2006, 0x2007, 0x2008, 0x2009, 0x200A, 0x2028, 0x2029, 0x202F, 0x205F, 0x3000]

theorem le_iff_toNat_le {a b : Char} : a ≤ b ↔ a.toNat ≤ b.toNat := Iff.rfl

theorem isBlank_iff {c : Char} : isBlank c = true ↔ c.toNat ∈ blankCodes := by
  simp only [isBlank, blankCodes, Bool.or_eq_true, Bool.and_eq_true, decide_eq_true_eq, beq_iff_eq,
    le_iff_toNat_le, ← Char.toNat_inj, List.mem_cons, List.not_mem_nil, or_false,
    Char.reduceToNat]
  omega

/-- What holds of every blank code point holds of every blank. -/
theorem of_isBlank {P : Char → Prop} (h : ∀ code ∈ blankCodes, P (Char.ofNat code)) {b : Char}
    (hb : isBlank b = true) : P b := by
  have hcode := h b.toNat (isBlank_iff.mp hb)
  rwa [Char.ofNat_toNat] at hcode

theorem lowerChar_of_isBlank {b : Char} (h : isBlank b = true) : lowerChar b = [b] :=
  of_isBlank (P := fun b => lowerChar b = [b]) (by decide +kernel) h

theorem ne_sigma_of_isBlank {b : Char} (h : isBlank b = true) : b ≠ 'Σ' :=
  of_isBlank (P := fun b => b ≠ 'Σ') (by decide +kernel) h

theorem isCased_of_isBlank {b : Char} (h : isBlank b = true) : isCased b = false :=
  of_isBlank (P := fun b => isCased b = false) (by decide +kernel) h

theorem isCaseIgnorable_of_isBlank {b : Char} (h : isBlank b = true) :
    isCaseIgnorable b = false :=
  of_isBlank (P := fun b => isCaseIgnorable b = false) (by decide +kernel) h

/-! ## Settled characters -/

/-- Lower-casing leaves the character as it is. -/
def Settled (c : Char) : Prop := c ≠ 'Σ' ∧ lowerChar c = [c]

instance (c : Char) : Decidable (Settled c) :=
  inferInstanceAs (Decidable (c ≠ 'Σ' ∧ lowerChar c = [c]))

/-- The code points to which a run sends others. -/
def LowerRun.targets (run : LowerRun) : List Nat :=
  (List.range ((run.last - run.first) / run.step + 1)).map fun i => run.target + run.step * i

theorem LowerRun.bounds_of_covers {run : LowerRun} {code : Nat} (h : run.covers code = true) :
    run.first ≤ code ∧ code ≤ run.last := by
  simp only [covers, Bool.and_eq_true, decide_eq_true_eq] at h
  exact h.1

theorem LowerRun.mem_targets {run : LowerRun} {code : Nat} (h : run.covers code = true) :
    run.target + (code - run.first) ∈ run.targets := by
  simp only [covers, Bool.and_eq_true, decide_eq_true_eq, beq_iff_eq] at h
  obtain ⟨⟨hfirst, hlast⟩, hstep⟩ := h
  refine List.mem_map.mpr ⟨(code - run.first) / run.step, List.mem_range.mpr ?_, ?_⟩
  · exact Nat.lt_succ_of_le (Nat.div_le_div_right (by omega))
  · rw [Nat.mul_div_cancel' (Nat.dvd_of_mod_eq_zero hstep)]

/-- The greatest code point to which a run sends others. -/
def LowerRun.top (run : LowerRun) : Nat := run.target + (run.last - run.first)

theorem bounds_of_mem_targets {run : LowerRun} {code : Nat} (h : code ∈ run.targets) :
    run.target ≤ code ∧ code ≤ run.top := by
  obtain ⟨i, hi, rfl⟩ := List.mem_map.mp h
  have hle := Nat.mul_le_mul_left run.step (Nat.le_of_lt_succ (List.mem_range.mp hi))
  have hmul := Nat.mul_div_le (run.last - run.first) run.step
  unfold LowerRun.top
  omega

/-- No code point to which the one run sends others is sent on by the other. Most pairs of runs are
apart from each other, so that only the ends have to be compared. -/
def LowerRun.avoids (run other : LowerRun) : Bool :=
  Nat.blt run.top other.first || Nat.blt other.last run.target ||
    run.targets.all fun code => !other.covers code

theorem LowerRun.covers_of_avoids {run other : LowerRun} (h : run.avoids other = true) {code : Nat}
    (hcode : code ∈ run.targets) : other.covers code = false := by
  have hbounds := bounds_of_mem_targets hcode
  simp only [avoids, Bool.or_eq_true, Nat.blt_eq, List.all_eq_true, Bool.not_eq_true'] at h
  rw [Bool.eq_false_iff]
  intro hcovers
  obtain ⟨hfirst, hlast⟩ := LowerRun.bounds_of_covers hcovers
  rcases h with (h | h) | h
  · omega
  · omega
  · exact absurd ((h code hcode).symm.trans hcovers) Bool.false_ne_true

set_option maxRecDepth 100000 in
theorem avoids_of_mem_lowerRuns : ∀ run ∈ lowerRuns, ∀ other ∈ lowerRuns,
    run.avoids other = true := by
  have hall : (lowerRuns.all fun run => lowerRuns.all run.avoids) = true := by decide +kernel
  simpa only [List.all_eq_true] using hall

/-- Where a run sends others: to letters beyond ASCII or to "k", and neither to a blank, nor to one
of the two characters that have a lower case of their own. -/
structure LowerRun.Lands (run : LowerRun) : Prop where
  ascii : 128 ≤ run.target ∨ run.target = 0x6B ∧ run.top = 0x6B
  valid : run.top < 0xD800 ∨ 0xDFFF < run.target ∧ run.top < 0x110000
  misses : ∀ code ∈ 0x130 :: 0x3A3 :: blankCodes, run.top < code ∨ code < run.target

theorem lands_of_mem_lowerRuns : ∀ run ∈ lowerRuns, run.Lands := by
  have hall : ∀ run ∈ lowerRuns, (128 ≤ run.target ∨ run.target = 0x6B ∧ run.top = 0x6B) ∧
      (run.top < 0xD800 ∨ 0xDFFF < run.target ∧ run.top < 0x110000) ∧
        ∀ code ∈ 0x130 :: 0x3A3 :: blankCodes, run.top < code ∨ code < run.target := by
    decide +kernel
  intro run hrun
  obtain ⟨hascii, hvalid, hmisses⟩ := hall run hrun
  exact ⟨hascii, hvalid, hmisses⟩

theorem toNat_ofNat {code : Nat} (h : code.isValidChar) : (Char.ofNat code).toNat = code := by
  rw [Char.ofNat, dif_pos h]
  rfl

section Beyond

variable {c : Char} {run : LowerRun}

theorem lowerChar_of_run (hascii : ¬ c.toNat < 128) (hdotted : c ≠ 'İ')
    (hrun : lowerRuns.find? (fun run => run.covers c.toNat) = some run) :
    lowerChar c = [Char.ofNat (run.target + (c.toNat - run.first))] := by
  rw [lowerChar, if_neg hascii, if_neg (by simpa using hdotted), hrun]

theorem lowerChar_of_no_run (hascii : ¬ c.toNat < 128) (hdotted : c ≠ 'İ')
    (hnone : lowerRuns.find? (fun run => run.covers c.toNat) = none) : lowerChar c = [c] := by
  rw [lowerChar, if_neg hascii, if_neg (by simpa using hdotted), hnone]

end Beyond

section Targets

variable {run : LowerRun} {code : Nat}

theorem toNat_target (hrun : run ∈ lowerRuns) (hcode : code ∈ run.targets) :
    (Char.ofNat code).toNat = code := by
  have hbounds := bounds_of_mem_targets hcode
  refine toNat_ofNat ?_
  rcases (lands_of_mem_lowerRuns run hrun).valid with h | ⟨hlow, htop⟩
  · exact Or.inl (by omega)
  · exact Or.inr ⟨by omega, by omega⟩

theorem ne_of_misses (hrun : run ∈ lowerRuns) (hcode : code ∈ run.targets) {other : Nat}
    (h : other ∈ 0x130 :: 0x3A3 :: blankCodes) : (Char.ofNat code).toNat ≠ other := by
  have hbounds := bounds_of_mem_targets hcode
  rw [toNat_target hrun hcode]
  rcases (lands_of_mem_lowerRuns run hrun).misses other h with h | h
  · omega
  · omega

theorem isBlank_target (hrun : run ∈ lowerRuns) (hcode : code ∈ run.targets) :
    isBlank (Char.ofNat code) = false := by
  rw [Bool.eq_false_iff]
  intro h
  exact ne_of_misses hrun hcode
    (List.mem_cons_of_mem _ (List.mem_cons_of_mem _ (isBlank_iff.mp h))) rfl

theorem settled_target (hrun : run ∈ lowerRuns) (hcode : code ∈ run.targets) :
    Settled (Char.ofNat code) := by
  have hbounds := bounds_of_mem_targets hcode
  rcases (lands_of_mem_lowerRuns run hrun).ascii with hbeyond | ⟨hlow, htop⟩
  · have hsigma : Char.ofNat code ≠ 'Σ' := fun h =>
      ne_of_misses hrun hcode (List.mem_cons_of_mem _ List.mem_cons_self) (congrArg Char.toNat h)
    have hdotted : Char.ofNat code ≠ 'İ' := fun h =>
      ne_of_misses hrun hcode List.mem_cons_self (congrArg Char.toNat h)
    have hnone : lowerRuns.find? (fun run => run.covers (Char.ofNat code).toNat) = none := by
      rw [List.find?_eq_none, toNat_target hrun hcode]
      intro other hother
      rw [LowerRun.covers_of_avoids (avoids_of_mem_lowerRuns run hrun other hother) hcode]
      exact Bool.false_ne_true
    have hascii : ¬ (Char.ofNat code).toNat < 128 := by
      rw [toNat_target hrun hcode]
      omega
    exact ⟨hsigma, lowerChar_of_no_run hascii hdotted hnone⟩
  · obtain rfl : code = 0x6B := by omega
    decide +kernel

end Targets

/-! ## What lower-casing gives -/

/-- The lower case of a character is settled, and there is some; it is blank only if the character
is. -/
structure Lowers (c : Char) (lowered : List Char) : Prop where
  nonempty : lowered ≠ []
  settled : ∀ d ∈ lowered, Settled d
  blank : ∀ d ∈ lowered, isBlank d = isBlank c

theorem lowers_singleton {c d : Char} (hd : Settled d) (hblank : isBlank d = isBlank c) :
    Lowers c [d] := by
  refine ⟨List.cons_ne_nil _ _, fun e he => ?_, fun e he => ?_⟩
  · exact List.mem_singleton.mp he ▸ hd
  · exact List.mem_singleton.mp he ▸ hblank

theorem lowers_dotted : Lowers 'İ' ['i', '\u0307'] := by
  have hi : Settled 'i' ∧ isBlank 'i' = isBlank 'İ' := by decide +kernel
  have hdot : Settled '\u0307' ∧ isBlank '\u0307' = isBlank 'İ' := by decide +kernel
  refine ⟨List.cons_ne_nil _ _, ?_, ?_⟩
  · exact List.forall_mem_cons.mpr ⟨hi.1, List.forall_mem_singleton.mpr hdot.1⟩
  · exact List.forall_mem_cons.mpr ⟨hi.2, List.forall_mem_singleton.mpr hdot.2⟩

theorem lowers_lowerChar {c : Char} (hc : c ≠ 'Σ') : Lowers c (lowerChar c) := by
  by_cases hascii : c.toNat < 128
  · have hall : ∀ code < 128, Settled (Char.ofNat code).toLower ∧
        isBlank (Char.ofNat code).toLower = isBlank (Char.ofNat code) := by decide +kernel
    obtain ⟨hsettled, hblank⟩ := hall c.toNat hascii
    rw [Char.ofNat_toNat] at hsettled hblank
    rw [lowerChar, if_pos hascii]
    exact lowers_singleton hsettled hblank
  · by_cases hdotted : c = 'İ'
    · subst hdotted
      exact lowers_dotted
    · cases hfind : lowerRuns.find? (fun run => run.covers c.toNat) with
      | none =>
        have hlower := lowerChar_of_no_run hascii hdotted hfind
        rw [hlower]
        exact lowers_singleton ⟨hc, hlower⟩ rfl
      | some run =>
        have hlower := lowerChar_of_run hascii hdotted hfind
        have hrun := List.mem_of_find?_eq_some hfind
        have hcovers : run.covers c.toNat = true :=
          List.find?_some (p := fun run : LowerRun => run.covers c.toNat) hfind
        have htarget := isBlank_target hrun (LowerRun.mem_targets hcovers)
        -- a blank is its own lower case, and no target of a run
        have hblank : isBlank c = false := by
          rw [Bool.eq_false_iff]
          intro hblank
          rw [lowerChar_of_isBlank hblank, List.cons.injEq] at hlower
          rw [← hlower.1, hblank] at htarget
          exact Bool.noConfusion htarget
        rw [hlower]
        exact lowers_singleton (settled_target hrun (LowerRun.mem_targets hcovers))
          (htarget.trans hblank.symm)

theorem lowers_lowerSigma (before after : List Char) :
    Lowers 'Σ' [lowerSigma before after] := by
  unfold lowerSigma
  split
  · exact lowers_singleton (by decide +kernel) (by decide +kernel)
  · exact lowers_singleton (by decide +kernel) (by decide +kernel)

/-- The first character is lower-cased on its own, given what stands around it. -/
theorem exists_lowerFrom_cons (before : List Char) (c : Char) (cs : List Char) : ∃ lowered,
    Lowers c lowered ∧ lowerFrom before (c :: cs) = lowered ++ lowerFrom (c :: before) cs := by
  rw [lowerFrom]
  by_cases hc : c = 'Σ'
  · subst hc
    exact ⟨_, lowers_lowerSigma before cs, if_pos rfl⟩
  · exact ⟨_, lowers_lowerChar hc, if_neg hc⟩

theorem settled_of_mem_lowerFrom {before cs : List Char} {d : Char} (h : d ∈ lowerFrom before cs) :
    Settled d := by
  induction cs generalizing before with
  | nil => exact absurd h List.not_mem_nil
  | cons c cs ih =>
    obtain ⟨lowered, hlowers, heq⟩ := exists_lowerFrom_cons before c cs
    rw [heq, List.mem_append] at h
    rcases h with h | h
    · exact hlowers.settled d h
    · exact ih h

theorem lowerFrom_cons_of_ne {c : Char} (hc : c ≠ 'Σ') (before cs : List Char) :
    lowerFrom before (c :: cs) = lowerChar c ++ lowerFrom (c :: before) cs := by
  rw [lowerFrom, if_neg hc]

theorem lowerFrom_of_settled {before cs : List Char} (h : ∀ c ∈ cs, Settled c) :
    lowerFrom before cs = cs := by
  induction cs generalizing before with
  | nil => rfl
  | cons c cs ih =>
    obtain ⟨hc, hlower⟩ := h c List.mem_cons_self
    rw [lowerFrom_cons_of_ne hc, hlower, ih fun d hd => h d (List.mem_cons_of_mem _ hd)]
    rfl

/-- **Lower-casing again changes nothing.** -/
theorem lower_lower (text : String) : lower (lower text) = lower text := by
  have hsettled : lowerChars (lowerChars text.toList) = lowerChars text.toList :=
    lowerFrom_of_settled fun _ hd => settled_of_mem_lowerFrom hd
  rw [lower, lower, String.toList_ofList, hsettled]

/-! ## Lower case at blanks -/

/-- A search for a cased character ends at a blank. -/
theorem reachesCased_append_blank {b : Char} (hb : isBlank b = true) (l r : List Char) :
    reachesCased (l ++ b :: r) = reachesCased l := by
  unfold reachesCased
  induction l with
  | nil =>
    rw [List.nil_append, List.dropWhile_cons_of_neg (by rw [isCaseIgnorable_of_isBlank hb]; simp)]
    exact isCased_of_isBlank hb
  | cons c l ih =>
    cases hc : isCaseIgnorable c with
    | true => simpa only [List.cons_append, List.dropWhile_cons, hc, if_true] using ih
    | false => simp only [List.cons_append, List.dropWhile_cons, hc, Bool.false_eq_true, if_false]

/-- What stands before a blank has no part in lower-casing what comes after it. -/
theorem lowerFrom_append_blank {b : Char} (hb : isBlank b = true) (before far cs : List Char) :
    lowerFrom (before ++ b :: far) cs = lowerFrom before cs := by
  induction cs generalizing before with
  | nil => rfl
  | cons c cs ih =>
    have hrest := ih (c :: before)
    rw [List.cons_append] at hrest
    rw [lowerFrom, lowerFrom, lowerSigma, lowerSigma, reachesCased_append_blank hb, hrest]

theorem lowerFrom_blank {b : Char} (hb : isBlank b = true) (before l r : List Char) :
    lowerFrom before (l ++ b :: r) = lowerFrom before l ++ b :: lowerChars r := by
  induction l generalizing before with
  | nil =>
    rw [List.nil_append, lowerFrom_cons_of_ne (ne_sigma_of_isBlank hb), lowerChar_of_isBlank hb]
    exact congrArg (b :: ·) (lowerFrom_append_blank hb [] before r)
  | cons c l ih =>
    rw [List.cons_append, lowerFrom, lowerFrom, ih, lowerSigma, lowerSigma,
      reachesCased_append_blank hb]
    split <;> simp

/-- **The parts before and after a blank are lower-cased independently.** -/
theorem lowerChars_append_blank {b : Char} (hb : isBlank b = true) (l r : List Char) :
    lowerChars (l ++ b :: r) = lowerChars l ++ b :: lowerChars r :=
  lowerFrom_blank hb [] l r

theorem isBlank_lowerFrom {before cs : List Char} (h : ∀ c ∈ cs, isBlank c = false) :
    ∀ d ∈ lowerFrom before cs, isBlank d = false := by
  induction cs generalizing before with
  | nil => exact fun d hd => absurd hd List.not_mem_nil
  | cons c cs ih =>
    intro d hd
    obtain ⟨lowered, hlowers, heq⟩ := exists_lowerFrom_cons before c cs
    rw [heq, List.mem_append] at hd
    rcases hd with hd | hd
    · exact (hlowers.blank d hd).trans (h c List.mem_cons_self)
    · exact ih (fun e he => h e (List.mem_cons_of_mem _ he)) d hd

theorem lowerChars_eq_nil_iff {cs : List Char} : lowerChars cs = [] ↔ cs = [] := by
  cases cs with
  | nil => simp [lowerChars, lowerFrom]
  | cons c cs =>
    obtain ⟨lowered, hlowers, heq⟩ := exists_lowerFrom_cons [] c cs
    rw [lowerChars, heq]
    simp [hlowers.nonempty]

theorem lower_eq_empty_iff {text : String} : lower text = "" ↔ text = "" := by
  rw [← String.toList_eq_nil_iff, ← String.toList_eq_nil_iff, lower, String.toList_ofList,
    lowerChars_eq_nil_iff]

/-! ## Words -/

theorem runs_lowerChars (cs : List Char) :
    runs isBlank (lowerChars cs) = (runs isBlank cs).map lowerChars := by
  -- cut at any blank: both parts are shorter, and lower-cased on their own
  by_cases hblank : ∃ b ∈ cs, isBlank b = true
  · obtain ⟨b, hmem, hb⟩ := hblank
    obtain ⟨l, r, hsplit⟩ := List.append_of_mem hmem
    rw [hsplit, lowerChars_append_blank hb, runs_append_cons hb, runs_append_cons hb,
      List.map_append, runs_lowerChars l, runs_lowerChars r]
  · have hnone : ∀ c ∈ cs, isBlank c = false := fun c hc =>
      Bool.eq_false_iff.mpr fun hb => hblank ⟨c, hc, hb⟩
    by_cases hnil : cs = []
    · rw [hnil]
      rfl
    · rw [runs_eq_singleton hnil hnone,
        runs_eq_singleton (mt lowerChars_eq_nil_iff.mp hnil) (isBlank_lowerFrom hnone)]
      rfl
termination_by cs.length
decreasing_by
  · rw [hsplit, List.length_append, List.length_cons]
    omega
  · rw [hsplit, List.length_append, List.length_cons]
    omega

/-- **Lower-casing a text is lower-casing its words.** -/
theorem splitWords_lower (text : String) :
    splitWords (lower text) = (splitWords text).map lower := by
  unfold splitWords lower
  rw [String.toList_ofList, runs_lowerChars, List.map_map, List.map_map]
  refine List.map_congr_left fun run _ => ?_
  simp only [Function.comp, String.toList_ofList]

/-- Each of the two words ends with a final sigma. -/
example : lower "ΟΔΟΣ ΣΑΣ" = "οδος σας" := by decide +kernel

end Adventure.Text
