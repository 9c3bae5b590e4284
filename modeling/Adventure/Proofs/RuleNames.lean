import Adventure.Proofs.AsciiCase
import Adventure.Proofs.Loading

/-!
# Rules that never apply

The problems of a world list the names in its rules that no item has, comparing lower cases. Play
compares the names up to ASCII case.

* A rule that some items and preposition make apply has no name listed, and every rule without
  capitals beyond Z, in a world without any, is the other way round as well (`names_foresee_rules`).
* With such capitals a rule can be dead without a word about it: it names its item as "CLÉ", and the
  item is a "clé" (`office_rule_is_dead`).
-/

namespace Adventure

/-- The name that a rule has in a place. -/
def UseRule.nameOf (rule : UseRule) : RuleRole → String
  | .item => rule.item
  | .target => rule.target

namespace World

/-- Some items and a preposition make the rule apply. -/
def CanApply (world : World) (rule : UseRule) : Prop :=
  ∃ item ∈ world.allItems, ∃ target ∈ world.allItems, ∃ preposition,
    rule.applies item.name target.name preposition = true

/-- Neither name of the rule is among the problems. -/
def KnowsNames (world : World) (rule : UseRule) : Prop :=
  ∀ role, Problem.unknownName role (rule.nameOf role) ∉ world.problems

variable {world : World} {rule : UseRule}

/-! ## What applies -/

/-- No rule is kept from applying by its prepositions alone. -/
theorem exists_preposition (rule : UseRule) : ∃ preposition, (rule.prepositions.isEmpty ||
    rule.prepositions.any (Text.equalsUpToAsciiCase · preposition)) = true := by
  cases hprepositions : rule.prepositions with
  | nil => exact ⟨"", rfl⟩
  | cons preposition rest =>
    have hsame : Text.equalsUpToAsciiCase preposition preposition = true :=
      Text.equalsUpToAsciiCase_iff.mpr rfl
    exact ⟨preposition, by rw [List.any_cons, hsame]; rfl⟩

/-- **A rule can apply when each of its names is some item's**, up to ASCII case. -/
theorem canApply_iff : world.CanApply rule ↔ ∀ role, ∃ item ∈ world.allItems,
    Text.equalsUpToAsciiCase (rule.nameOf role) item.name = true := by
  constructor
  · rintro ⟨item, hitem, target, htarget, preposition, happlies⟩ role
    rw [UseRule.applies, Bool.and_eq_true, Bool.and_eq_true] at happlies
    cases role with
    | item => exact ⟨item, hitem, happlies.1.1⟩
    | target => exact ⟨target, htarget, happlies.1.2⟩
  · intro h
    obtain ⟨item, hitem, hitemName⟩ := h .item
    obtain ⟨target, htarget, htargetName⟩ := h .target
    obtain ⟨preposition, hpreposition⟩ := exists_preposition rule
    refine ⟨item, hitem, target, htarget, preposition, ?_⟩
    rw [UseRule.applies, Bool.and_eq_true, Bool.and_eq_true]
    exact ⟨⟨hitemName, htargetName⟩, hpreposition⟩

/-! ## What is reported -/

theorem unknownName_mem_ruleProblems_iff {role : RuleRole} {name : String} :
    Problem.unknownName role name ∈ world.ruleProblems rule ↔
      rule.nameOf role = name ∧ world.hasItemNamed name = false := by
  have hlisted : Problem.unknownName role name ∈ world.ruleProblems rule ↔
      world.hasItemNamed (rule.nameOf role) = false ∧ name = rule.nameOf role := by
    cases role <;> simp [ruleProblems, UseRule.nameOf]
  rw [hlisted]
  constructor
  · rintro ⟨hnone, rfl⟩
    exact ⟨rfl, hnone⟩
  · rintro ⟨rfl, hnone⟩
    exact ⟨hnone, rfl⟩

theorem unknownName_mem_problems_iff {role : RuleRole} {name : String} :
    Problem.unknownName role name ∈ world.problems ↔
      (∃ rule ∈ world.useRules, rule.nameOf role = name) ∧ world.hasItemNamed name = false := by
  have hstart : Problem.unknownName role name ∉ world.startProblems := by
    unfold startProblems
    split <;> split <;> simp
  have hexits : Problem.unknownName role name ∉ world.exitProblems := by
    simp [exitProblems]
  rw [problems, List.mem_append, List.mem_append, List.mem_flatMap]
  simp only [hstart, hexits, false_or, unknownName_mem_ruleProblems_iff, ← and_assoc]
  exact exists_and_right

/-- **The names of a rule are not reported when each is some item's**, up to case. -/
theorem knowsNames_iff (hrule : rule ∈ world.useRules) : world.KnowsNames rule ↔
    ∀ role, ∃ item ∈ world.allItems, Text.lower (rule.nameOf role) = Text.lower item.name := by
  refine forall_congr' fun role => ?_
  have hsome : ∃ other ∈ world.useRules, other.nameOf role = rule.nameOf role := ⟨rule, hrule, rfl⟩
  rw [unknownName_mem_problems_iff, and_iff_right hsome, Bool.not_eq_false, hasItemNamed,
    List.any_eq_true]
  refine exists_congr fun item => and_congr_right fun _ => ?_
  rw [beq_iff_eq, eq_comm]

end World

/-! ## Both -/

/-- **The names of a rule that can apply are not reported**; and where no name has capitals beyond
Z, a rule whose names are not reported can apply. -/
theorem names_foresee_rules {world : World} {rule : UseRule} (hrule : rule ∈ world.useRules) :
    (world.CanApply rule → world.KnowsNames rule) ∧
    ((∀ role, Text.FoldsAsAscii (rule.nameOf role)) →
      (∀ item ∈ world.allItems, Text.FoldsAsAscii item.name) →
        (world.KnowsNames rule ↔ world.CanApply rule)) := by
  rw [World.canApply_iff, World.knowsNames_iff hrule]
  refine ⟨fun happlies role => ?_, fun hrule hitems => forall_congr' fun role => ?_⟩
  · obtain ⟨item, hitem, hname⟩ := happlies role
    exact ⟨item, hitem, Text.lower_eq_of_equalsUpToAsciiCase hname⟩
  · refine exists_congr fun item => and_congr_right fun hitem => ?_
    exact ((hrule role).equalsUpToAsciiCase_iff (hitems item hitem)).symm

/-- An office with a key for a drawer and a door. -/
def officeText : String :=
  r#"[world]
id = "office"
start_room = "study"

[[room]]
id = "study"

[[item]]
id = "key"
name = "clé"
start_location = "room:study"

[[item]]
id = "drawer"
name = "tiroir"
start_location = "room:study"

[[item]]
id = "door"
name = "porte"
start_location = "room:study"

[[use_rule]]
item = "CLÉ"
target = "Tiroir"
effect = "message"
text = "Clic."

[[use_rule]]
item = "Clé"
target = "Porte"
effect = "message"
text = "Clac."
"#

/-- The rule for the drawer. -/
def drawerRule : UseRule where
  item := "CLÉ"
  target := "Tiroir"
  prepositions := []
  effect := .message "Clic."

/-- The rule for the door. -/
def doorRule : UseRule where
  item := "Clé"
  target := "Porte"
  prepositions := []
  effect := .message "Clac."

set_option maxRecDepth 100000 in
theorem exists_office : ∃ world, World.load officeText = .ok world ∧
    world.useRules = [drawerRule, doorRule] ∧ world.problems = [] ∧
    world.allItems.map (·.name) = ["clé", "tiroir", "porte"] := by
  obtain ⟨draft, world, htext, hdraft, hholds⟩ := exists_world_of_chars officeText
    (fun _ world => world.useRules = [drawerRule, doorRule] ∧ world.problems = [] ∧
      world.allItems.map (·.name) = ["clé", "tiroir", "porte"])
    String.toList_ofList (by decide +kernel)
  exact ⟨world, load_eq_ok_iff.mpr ⟨draft, htext, hdraft⟩, hholds⟩

/-- The rule for the door can apply. -/
theorem office_door_can_apply : ∃ world, World.load officeText = .ok world ∧
    doorRule ∈ world.useRules ∧ world.KnowsNames doorRule ∧ world.CanApply doorRule := by
  obtain ⟨world, hload, hrules, hproblems, hnames⟩ := exists_office
  have hrule : doorRule ∈ world.useRules := by
    rw [hrules]
    exact List.mem_cons_of_mem _ List.mem_cons_self
  have hknows : world.KnowsNames doorRule := fun role => by
    rw [hproblems]
    exact List.not_mem_nil
  have hfolds : ∀ name ∈ ["clé", "tiroir", "porte"], Text.FoldsAsAscii name := by decide
  refine ⟨world, hload, hrule, hknows, ((names_foresee_rules hrule).2 (fun role => ?_)
    (fun item hitem => hfolds _ (hnames ▸ List.mem_map_of_mem hitem))).mp hknows⟩
  cases role <;> decide

/-- The rule for the drawer cannot, and nothing is reported about it. -/
theorem office_rule_is_dead : ∃ world, World.load officeText = .ok world ∧
    world.problems = [] ∧
    ∃ rule ∈ world.useRules, world.KnowsNames rule ∧ ¬ world.CanApply rule := by
  obtain ⟨world, hload, hrules, hproblems, hnames⟩ := exists_office
  refine ⟨world, hload, hproblems, drawerRule, hrules ▸ List.mem_cons_self, fun role => ?_,
    fun happlies => ?_⟩
  · rw [hproblems]
    exact List.not_mem_nil
  · obtain ⟨item, hitem, hname⟩ := World.canApply_iff.mp happlies .item
    have hnone : ∀ name ∈ ["clé", "tiroir", "porte"],
        Text.equalsUpToAsciiCase (drawerRule.nameOf .item) name = false := by decide
    rw [hnone _ (hnames ▸ List.mem_map_of_mem hitem)] at hname
    exact absurd hname Bool.false_ne_true

end Adventure
