import Adventure.World.Item
import Mathlib.Data.List.Perm.Basic

/-!
# Items within items

`Item.forest` lists items with everything inside them. What lies directly inside a listed item is
listed too (`mem_forest_of_mem_contents`), and the list depends on the order of the items only up
to order (`perm_forest`).

Two things are left of an item when its contents are put aside: `Item.bare` keeps the lock,
`Item.label` does not. The first is what assembling leaves alone, the second what play does.

Whether two items are equal can be decided, by a recursion over both with everything inside them.
-/

namespace Adventure.Item

/-- The item without what is inside it. -/
def bare (item : Item) : Item := { item with contents := [] }

/-- What an item is known by: its id, name, description and aliases. -/
def label (item : Item) : String × String × String × List String :=
  (item.id, item.name, item.desc, item.aliases)

@[simp] theorem bare_withContents (item : Item) (contents : List Item) :
    (item.withContents contents).bare = item.bare := rfl

theorem id_eq_of_label_eq {a b : Item} (h : a.label = b.label) : a.id = b.id :=
  congrArg Prod.fst h

theorem name_eq_of_label_eq {a b : Item} (h : a.label = b.label) : a.name = b.name :=
  congrArg (·.2.1) h

theorem aliases_eq_of_label_eq {a b : Item} (h : a.label = b.label) : a.aliases = b.aliases :=
  congrArg (·.2.2.2) h

/-! ## Membership -/

theorem mem_tree_iff {node item : Item} :
    node ∈ item.tree ↔ node = item ∨ node ∈ forest item.contents := by
  rw [tree_eq, List.mem_cons]

theorem forest_eq_flatMap (items : List Item) : forest items = items.flatMap tree := by
  induction items with
  | nil => rfl
  | cons item items ih => rw [forest_cons, ih, List.flatMap_cons]

theorem mem_forest_iff {node : Item} {items : List Item} :
    node ∈ forest items ↔ ∃ item ∈ items, node ∈ item.tree := by
  rw [forest_eq_flatMap, List.mem_flatMap]

theorem mem_forest_of_mem {item : Item} {items : List Item} (h : item ∈ items) :
    item ∈ forest items :=
  mem_forest_iff.mpr ⟨item, h, mem_tree_iff.mpr (Or.inl rfl)⟩

mutual

theorem mem_tree_of_mem_contents {node child : Item} :
    ∀ {item : Item}, node ∈ item.tree → child ∈ node.contents → child ∈ item.tree
  | ⟨_, _, _, _, _, contents⟩, hnode, hchild => by
    rw [tree] at hnode ⊢
    rcases List.mem_cons.mp hnode with rfl | hnode
    · exact List.mem_cons_of_mem _ (mem_forest_of_mem hchild)
    · exact List.mem_cons_of_mem _ (mem_forest_of_mem_contents hnode hchild)

/-- What lies directly inside a listed item is listed. -/
theorem mem_forest_of_mem_contents {node child : Item} :
    ∀ {items : List Item}, node ∈ forest items → child ∈ node.contents → child ∈ forest items
  | [], hnode, _ => absurd hnode List.not_mem_nil
  | item :: items, hnode, hchild => by
    rw [forest_cons] at hnode ⊢
    rcases List.mem_append.mp hnode with hnode | hnode
    · exact List.mem_append_left _ (mem_tree_of_mem_contents hnode hchild)
    · exact List.mem_append_right _ (mem_forest_of_mem_contents hnode hchild)

end

/-! ## Order -/

theorem perm_forest {l r : List Item} (h : l.Perm r) : (forest l).Perm (forest r) := by
  rw [forest_eq_flatMap, forest_eq_flatMap]
  exact h.flatMap_right tree

/-! ## Equality -/

mutual

/-- Items are compared field by field, and what is inside them item by item. -/
def decEq : (a b : Item) → Decidable (a = b)
  | ⟨id, name, desc, aliases, locked, contents⟩,
    ⟨id', name', desc', aliases', locked', contents'⟩ =>
    match decEqList contents contents' with
    | .isTrue hcontents =>
      decidable_of_iff
        (id = id' ∧ name = name' ∧ desc = desc' ∧ aliases = aliases' ∧ locked = locked')
        (by simp [hcontents])
    | .isFalse hcontents => .isFalse fun h => hcontents (congrArg Item.contents h)

/-- Lists of items are compared item by item. -/
def decEqList : (l r : List Item) → Decidable (l = r)
  | [], [] => .isTrue rfl
  | [], _ :: _ => .isFalse nofun
  | _ :: _, [] => .isFalse nofun
  | a :: l, b :: r =>
    match decEq a b, decEqList l r with
    | .isTrue ha, .isTrue hl => .isTrue (by rw [ha, hl])
    | .isFalse ha, _ => .isFalse fun h => ha (List.cons.inj h).1
    | _, .isFalse hl => .isFalse fun h => hl (List.cons.inj h).2

end

instance : DecidableEq Item := decEq

end Adventure.Item
