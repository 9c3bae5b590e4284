/-!
# Runs: a list cut at its separators

`runs sep l` is the list of the maximal nonempty stretches of `l` without a separator. A text cut
at its blanks gives its words (`Adventure.Text.Blank`), a list of words cut at "and" gives its
phrases (`Adventure.Command.Basic`).

Main statements: cutting distributes over a separator (`runs_append_cons`), a nonempty list
without separators is its own only run (`runs_eq_singleton`), runs are nonempty and free of
separators (`ne_nil_of_mem_runs`, `sep_of_mem_runs`), nothing but the separators is lost
(`flatten_runs`), and cutting a list commutes with leaving out other elements of it (`runs_filter`).
-/

namespace Adventure.Text

variable {α : Type} {sep : α → Bool}

/-- Puts a run in front of the others, unless it is empty. -/
def consRun (run : List α) (rest : List (List α)) : List (List α) :=
  if run.isEmpty then rest else run :: rest

/-- The run that starts at the first element, empty if that is a separator, and the runs after
it. -/
def leadRun (sep : α → Bool) : List α → List α × List (List α)
  | [] => ([], [])
  | a :: l =>
    match leadRun sep l with
    | (run, rest) => if sep a then ([], consRun run rest) else (a :: run, rest)

/-- The maximal nonempty stretches of the list that hold no separator, in order. -/
def runs (sep : α → Bool) (l : List α) : List (List α) :=
  match leadRun sep l with
  | (run, rest) => consRun run rest

/-! ## Laws -/

@[simp] theorem consRun_nil (rest : List (List α)) : consRun [] rest = rest := rfl

@[simp] theorem consRun_cons (a : α) (run : List α) (rest : List (List α)) :
    consRun (a :: run) rest = (a :: run) :: rest := rfl

@[simp] theorem runs_nil : runs sep ([] : List α) = [] := rfl

theorem runs_cons_of_sep {a : α} (h : sep a = true) (l : List α) :
    runs sep (a :: l) = runs sep l := by
  simp [runs, leadRun, h]

theorem runs_cons_of_not_sep {a : α} (h : sep a = false) (l : List α) :
    runs sep (a :: l) = (a :: (leadRun sep l).1) :: (leadRun sep l).2 := by
  simp [runs, leadRun, h]

/-- The part before a separator and the part after it are cut independently. -/
theorem runs_append_cons {a : α} (h : sep a = true) (l r : List α) :
    runs sep (l ++ a :: r) = runs sep l ++ runs sep r := by
  have key : ∀ l : List α, leadRun sep (l ++ a :: r) =
      ((leadRun sep l).1, (leadRun sep l).2 ++ runs sep r) := by
    intro l
    induction l with
    | nil => simp [leadRun, h, runs]
    | cons b l ih =>
      cases hb : sep b
      · simp [leadRun, hb, ih]
      · cases hl : (leadRun sep l).1 <;> simp [leadRun, hb, ih, hl]
  cases hl : (leadRun sep l).1 <;> simp [runs, key, hl]

theorem leadRun_of_forall {l : List α} (h : ∀ a ∈ l, sep a = false) : leadRun sep l = (l, []) := by
  induction l with
  | nil => rfl
  | cons a l ih =>
    simp [leadRun, h a List.mem_cons_self, ih fun b hb => h b (List.mem_cons_of_mem _ hb)]

/-- A nonempty list without separators is its own only run. -/
theorem runs_eq_singleton {l : List α} (hne : l ≠ []) (h : ∀ a ∈ l, sep a = false) :
    runs sep l = [l] := by
  cases l with
  | nil => exact absurd rfl hne
  | cons a l => simp [runs, leadRun_of_forall h]

theorem sep_of_mem_leadRun (l : List α) :
    (∀ a ∈ (leadRun sep l).1, sep a = false) ∧
      ∀ run ∈ (leadRun sep l).2, run ≠ [] ∧ ∀ a ∈ run, sep a = false := by
  induction l with
  | nil => simp [leadRun]
  | cons b l ih =>
    cases hb : sep b
    · simpa [leadRun, hb] using ih
    · cases hl : (leadRun sep l).1 with
      | nil => simpa [leadRun, hb, hl] using ih.2
      | cons c run =>
        simp only [leadRun, hb, hl, if_true, consRun_cons]
        refine ⟨by simp, ?_⟩
        rintro run' hrun'
        rcases List.mem_cons.mp hrun' with rfl | hmem
        · exact ⟨by simp, fun a ha => ih.1 a (hl ▸ ha)⟩
        · exact ih.2 run' hmem

theorem ne_nil_of_mem_runs {l run : List α} (h : run ∈ runs sep l) : run ≠ [] := by
  unfold runs at h
  cases hl : (leadRun sep l).1 with
  | nil => exact ((sep_of_mem_leadRun l).2 run (by simpa [hl] using h)).1
  | cons a r =>
    rcases List.mem_cons.mp (by simpa [hl] using h : run ∈ (a :: r) :: (leadRun sep l).2) with
      rfl | hmem
    · simp
    · exact ((sep_of_mem_leadRun l).2 run hmem).1

theorem sep_of_mem_runs {l run : List α} (h : run ∈ runs sep l) : ∀ a ∈ run, sep a = false := by
  unfold runs at h
  cases hl : (leadRun sep l).1 with
  | nil => exact ((sep_of_mem_leadRun l).2 run (by simpa [hl] using h)).2
  | cons a r =>
    rcases List.mem_cons.mp (by simpa [hl] using h : run ∈ (a :: r) :: (leadRun sep l).2) with
      rfl | hmem
    · exact hl ▸ (sep_of_mem_leadRun l).1
    · exact ((sep_of_mem_leadRun l).2 run hmem).2

theorem flatten_consRun (run : List α) (rest : List (List α)) :
    (consRun run rest).flatten = run ++ rest.flatten := by
  cases run <;> rfl

theorem flatten_leadRun (l : List α) :
    (leadRun sep l).1 ++ (leadRun sep l).2.flatten = l.filter (!sep ·) := by
  induction l with
  | nil => rfl
  | cons a l ih =>
    unfold leadRun
    cases h : sep a
    · simp [h, ← ih]
    · simp [h, ← ih, flatten_consRun]

/-- The runs together are the list without its separators. -/
theorem flatten_runs (l : List α) : (runs sep l).flatten = l.filter (!sep ·) := by
  unfold runs
  rw [flatten_consRun, flatten_leadRun]

theorem consRun_filter {keep : α → Bool} (run : List α) (rest : List (List α)) :
    ((consRun run rest).map (List.filter keep)).filter (!·.isEmpty) =
      consRun (run.filter keep) ((rest.map (List.filter keep)).filter (!·.isEmpty)) := by
  cases run with
  | nil => rfl
  | cons a run =>
    rw [consRun_cons, List.map_cons, consRun]
    cases hrun : ((a :: run).filter keep).isEmpty <;> simp [hrun]

theorem leadRun_filter {keep : α → Bool} (l : List α) :
    leadRun sep (l.filter fun a => sep a || keep a) =
      ((leadRun sep l).1.filter keep,
        ((leadRun sep l).2.map (List.filter keep)).filter (!·.isEmpty)) := by
  induction l with
  | nil => rfl
  | cons a l ih =>
    cases hsep : sep a with
    | true => simp [leadRun, hsep, ih, consRun_filter]
    | false => cases hkeep : keep a <;> simp [leadRun, hsep, hkeep, ih]

/-- Sifting the runs of a list is cutting the sifted list, if the separators are kept. -/
theorem runs_filter {keep : α → Bool} (l : List α) :
    runs sep (l.filter fun a => sep a || keep a) =
      ((runs sep l).map (List.filter keep)).filter (!·.isEmpty) := by
  rw [runs, runs, leadRun_filter, consRun_filter]

end Adventure.Text
