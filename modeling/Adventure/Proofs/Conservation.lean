import Adventure.Proofs.Loading
import Adventure.Proofs.Runs
import Mathlib.Data.List.Pairwise

/-!
# Items are neither lost nor doubled

Loading puts each declared item into the world once, and every line keeps the labels of all items
(`step_perm_labels`). So in every game that a player can get to each declared item is there once,
at whatever depth, and answers to what it always has.

With ids unique, at most one room has an item on its floor, and looking for that room gives the same
answer in whatever order the rooms come (`find?_eq_of_perm`).

Results:

* `run_conserves`: the above, for every draft that is accepted and all lines.
-/

namespace Adventure

/-! ## Ids -/

theorem map_id_of_perm_labels {l r : List Item} (h : (l.map Item.label).Perm (r.map Item.label)) :
    (l.map (·.id)).Perm (r.map (·.id)) := by
  have hids := h.map Prod.fst
  rw [List.map_map, List.map_map] at hids
  exact hids

namespace World.Realizes

variable {world : World} {draft : Draft}

theorem declared (h : world.Realizes draft) {item : Item} (hitem : item ∈ world.allItems) :
    ∃ entry ∈ draft.items, entry.id = item.id := by
  obtain ⟨entry, hentry, hbare, -⟩ := h.items item hitem
  exact ⟨entry, hentry, (congrArg Item.id hbare).symm⟩

/-- No id comes twice in a world that a draft describes. -/
theorem nodup_ids (h : world.Realizes draft) : (world.allItems.map (·.id)).Nodup := by
  rw [List.nodup_iff_count_eq_one]
  intro id hid
  obtain ⟨item, hitem, rfl⟩ := List.mem_map.mp hid
  obtain ⟨entry, hentry, hsame⟩ := h.declared hitem
  exact hsame ▸ h.once entry hentry

end World.Realizes

/-- In every game that can be got to, no id comes twice. -/
theorem nodup_ids_run {draft : Draft} {world : World} (h : World.ofDraft draft = .ok world)
    (lines : List String) : (((Game.start world).run lines).allItems.map (·.id)).Nodup :=
  (map_id_of_perm_labels (run_perm_labels _ lines)).nodup_iff.mpr (realizes_of_ofDraft h).nodup_ids

/-- In every game that can be got to, each item is called and answers as it was declared. -/
theorem World.Realizes.entry_of_run {world : World} {draft : Draft} (h : world.Realizes draft)
    (lines : List String) {item : Item} (hitem : item ∈ ((Game.start world).run lines).allItems) :
    ∃ entry ∈ draft.items, item.label = entry.item.label := by
  have hlabel := (run_perm_labels (Game.start world) lines).mem_iff.mp
    (List.mem_map_of_mem (f := Item.label) hitem)
  obtain ⟨loaded, hloaded, hsame⟩ := List.mem_map.mp hlabel
  obtain ⟨entry, hentry, hbare, -⟩ := h.items loaded hloaded
  have hdeclared : loaded.bare.label = entry.item.label := congrArg Item.label hbare
  exact ⟨entry, hentry, hsame.symm.trans hdeclared⟩

/-! ## Floors -/

theorem Item.sublist_forest (items : List Item) : items.Sublist (forest items) := by
  induction items with
  | nil => exact List.Sublist.refl _
  | cons item items ih =>
    rw [forest_cons, tree_eq, List.cons_append]
    exact (ih.trans (List.sublist_append_right _ _)).cons_cons _

/-- With unique ids, at most one room has an item of an id on its floor. -/
theorem key_eq_of_nodup {game : Game} (hids : (game.allItems.map (·.id)).Nodup) {id p q : String}
    {r s : Room} (hp : game.world.room? p = some r) (hq : game.world.room? q = some s)
    (hr : ∃ item ∈ r.items, item.id = id) (hs : ∃ item ∈ s.items, item.id = id) : p = q := by
  have hfloors : (game.world.rooms.entries.flatMap fun e => e.2.items.map (·.id)).Nodup := by
    have hsub : (game.world.rooms.values.flatMap (·.items)).Sublist game.allItems :=
      (List.sublist_append_left _ _).trans (Item.sublist_forest game.held)
    have hnodup := hids.sublist (hsub.map (·.id))
    rw [List.map_flatMap, Table.values, List.flatMap_map] at hnodup
    exact hnodup
  by_contra hne
  obtain ⟨x, hx, rfl⟩ := hr
  obtain ⟨y, hy, hxy⟩ := hs
  have : Std.Symm (Function.onFun List.Disjoint fun e : String × Room => e.2.items.map (·.id)) :=
    ⟨fun _ _ h => h.symm⟩
  have hdisjoint := (List.nodup_flatMap.mp hfloors).2.forall (Table.get?_eq_some_iff.mp hp)
    (Table.get?_eq_some_iff.mp hq) fun he => hne (congrArg Prod.fst he)
  exact hdisjoint (List.mem_map_of_mem (f := (·.id)) hx)
    (hxy ▸ List.mem_map_of_mem (f := (·.id)) hy)

/-- What only one element satisfies is found alike in every order. -/
theorem find?_eq_of_perm {α : Type} {p : α → Bool} {l r : List α} (hperm : l.Perm r)
    (hone : ∀ a ∈ r, ∀ b ∈ r, p a = true → p b = true → a = b) : l.find? p = r.find? p := by
  cases hl : l.find? p with
  | none =>
    have hnone := List.find?_eq_none.mp hl
    exact (List.find?_eq_none.mpr fun a ha => hnone a (hperm.mem_iff.mpr ha)).symm
  | some a =>
    have ha := hperm.mem_iff.mp (List.mem_of_find?_eq_some hl)
    cases hr : r.find? p with
    | none => exact absurd (List.find?_some hl) (List.find?_eq_none.mp hr a ha)
    | some b =>
      rw [hone a ha b (List.mem_of_find?_eq_some hr) (List.find?_some hl) (List.find?_some hr)]

/-! ## Every run -/

/-- **The game holds what the world was loaded with**, each item once. -/
structure Game.Conserves (game : Game) (world : World) (draft : Draft) : Prop where
  /-- Each declared item is there once, on a floor, carried, or inside another item. -/
  once : ∀ entry ∈ draft.items, (game.allItems.map (·.id)).count entry.id = 1
  /-- No other item is there. -/
  only : ∀ item ∈ game.allItems, ∃ entry ∈ draft.items, entry.id = item.id
  /-- Each item has the name, description and aliases it was loaded with. -/
  kept : ∀ item ∈ game.allItems, ∀ loaded ∈ world.allItems, loaded.id = item.id →
    item.name = loaded.name ∧ item.desc = loaded.desc ∧ item.aliases = loaded.aliases
  /-- At most one room has an item of an id on its floor. -/
  one_room : ∀ id p q r s, game.world.room? p = some r → game.world.room? q = some s →
    (∃ item ∈ r.items, item.id = id) → (∃ item ∈ s.items, item.id = id) → p = q
  /-- Which room that is does not depend on the order in which the rooms are searched. -/
  any_order : ∀ id, ∀ rooms : List Room, rooms.Perm game.world.rooms.values →
    rooms.find? (fun room => room.items.any (·.id == id)) = game.world.roomHolding? id

/-- **Items are conserved over whole runs**, for every draft that is accepted. -/
theorem run_conserves {draft : Draft} {world : World} (h : World.ofDraft draft = .ok world)
    (lines : List String) : ((Game.start world).run lines).Conserves world draft := by
  have hrealizes := realizes_of_ofDraft h
  have hlabels := run_perm_labels (Game.start world) lines
  have hids := map_id_of_perm_labels hlabels
  have hnodup := nodup_ids_run h lines
  have hloaded : ∀ item ∈ ((Game.start world).run lines).allItems,
      ∃ loaded ∈ world.allItems, loaded.label = item.label := fun item hitem =>
    List.mem_map.mp (hlabels.mem_iff.mp (List.mem_map_of_mem (f := Item.label) hitem))
  have hroom : ∀ id p q r s, ((Game.start world).run lines).world.room? p = some r →
      ((Game.start world).run lines).world.room? q = some s →
      (∃ item ∈ r.items, item.id = id) → (∃ item ∈ s.items, item.id = id) → p = q :=
    fun id p q r s hp hq hr hs => key_eq_of_nodup hnodup hp hq hr hs
  refine ⟨fun entry hentry => ?_, fun item hitem => ?_, fun item hitem loaded hl hid => ?_, hroom,
    fun id rooms hperm => find?_eq_of_perm hperm fun r hr s hs hrid hsid => ?_⟩
  · rw [hids.count_eq, allItems_start]
    exact hrealizes.once entry hentry
  · obtain ⟨loaded, hl, hlabel⟩ := hloaded item hitem
    obtain ⟨entry, hentry, hid⟩ := hrealizes.declared hl
    exact ⟨entry, hentry, hid.trans (Item.id_eq_of_label_eq hlabel)⟩
  · obtain ⟨other, hother, hlabel⟩ := hloaded item hitem
    have hsame : other = loaded := List.inj_on_of_nodup_map hrealizes.nodup_ids hother hl
      ((Item.id_eq_of_label_eq hlabel).trans hid.symm)
    simp only [Item.label, Prod.mk.injEq, hsame] at hlabel
    exact ⟨hlabel.2.1.symm, hlabel.2.2.1.symm, hlabel.2.2.2.symm⟩
  · obtain ⟨⟨p, r⟩, hp, rfl⟩ := List.mem_map.mp hr
    obtain ⟨⟨q, s⟩, hq, rfl⟩ := List.mem_map.mp hs
    have hp := Table.get?_eq_some_iff.mpr hp
    have hq := Table.get?_eq_some_iff.mpr hq
    simp only [List.any_eq_true, beq_iff_eq] at hrid hsid
    obtain rfl := hroom id p q r s hp hq hrid hsid
    exact Option.some.inj (hp.symm.trans hq)

/-- The items of the cave are conserved by a player who gets the chest open. -/
theorem cave_conserved : ∃ world draft, World.load caveText = .ok world ∧
    Draft.ofText? caveText = some draft ∧ ((Game.start world).run
      ["north", "take rusty key", "north", "use rusty key on chest", "take all"]).Conserves
        world draft := by
  obtain ⟨world, hload⟩ := exists_cave
  obtain ⟨draft, htext, hdraft⟩ := load_eq_ok_iff.mp hload
  exact ⟨world, draft, hload, htext, run_conserves hdraft
    ["north", "take rusty key", "north", "use rusty key on chest", "take all"]⟩

end Adventure
