import Adventure.Proofs.Placement
import Adventure.Proofs.RoomMap
import Adventure.World.Cave

/-!
# Loading accepts the well-formed drafts and builds what they declare

The steps of loading are taken apart in `Loads`, and `ofDraft_eq_ok_iff` puts them together again.
Each step answers to one or two rules of `Draft.WellFormed`. What is left in the pool at the end are
the items from which the way up leads to one that is inside itself (`mem_left_iff`), so the rule
against cycles answers to the pool being empty (`pool_empty_iff`).

Results:

* `ofDraft_accepts_wellFormed`: a draft loads exactly when it is well-formed, and its world then
  holds what it declares, where it declares it.
-/

namespace Adventure

/-! ## Rules -/

theorem exists_toRule_iff {entry : RuleEntry} :
    (∃ rule, entry.toRule = .ok rule) ↔ Text.lower (Text.trim entry.effect) = "unlock" ∨
      (Text.lower (Text.trim entry.effect) = "message" ∧
        ∃ text, entry.text = some text ∧ ∃ c ∈ text.toList, Text.isBlank c = false) := by
  simp only [RuleEntry.toRule, ← Text.isBlankText_eq_false_iff]
  by_cases hunlock : Text.lower (Text.trim entry.effect) = "unlock"
  · simp [hunlock, bind, Except.bind, pure, Except.pure]
  · by_cases hmessage : Text.lower (Text.trim entry.effect) = "message"
    · cases htext : entry.text with
      | none => simp [hmessage, bind, Except.bind, throw, throwThe, MonadExceptOf.throw]
      | some text =>
        cases hblank : Text.isBlankText text <;>
          simp [hmessage, hblank, Option.filter, bind, Except.bind, pure, Except.pure, throw,
            throwThe, MonadExceptOf.throw]
    · simp [hunlock, hmessage, bind, Except.bind, throw, throwThe, MonadExceptOf.throw]

/-! ## The steps of loading -/

/-- The placement in which loading starts to put items in place. -/
def Placement.start (map : RoomMap) (declared : List Declared) : Placement where
  pool := poolOf declared
  rooms := map.rooms
  inventory := []

/-- The world that the parts make up. -/
def Draft.worldOf (draft : Draft) (map : RoomMap) (placement : Placement) (rules : List UseRule) :
    World where
  id := draft.id
  name := draft.name
  desc := draft.desc
  startRoom := draft.startRoom
  rooms := placement.rooms
  exits := map.exits
  useRules := rules
  startingInventory := placement.inventory

/-- Every step of loading the draft succeeds, with these results. -/
structure Loads (draft : Draft) (map : RoomMap) (declared : List Declared)
    (placement : Placement) (rules : List UseRule) : Prop where
  id_not_blank : Text.isBlankText draft.id = false
  start_not_blank : Text.isBlankText draft.startRoom = false
  rooms : draft.rooms.foldlM RoomMap.addRoom RoomMap.empty = .ok map
  items : declareItems [] draft.items = .ok declared
  parents : declared.forM (checkParent declared) = .ok ()
  places : declared.foldlM (place (childrenOf declared)) (.start map declared) = .ok placement
  nothing_left : checkEmpty placement.pool = .ok ()
  effects : draft.rules.mapM RuleEntry.toRule = .ok rules

theorem ofDraft_eq_ok_iff {draft : Draft} {world : World} :
    World.ofDraft draft = .ok world ↔ ∃ map declared placement rules,
      Loads draft map declared placement rules ∧ world = draft.worldOf map placement rules := by
  simp only [World.ofDraft, bind_eq_ok_iff, require_eq_ok_iff, Bool.not_eq_true']
  constructor
  · rintro ⟨-, hid, -, hstart, map, hmap, declared, hdeclared, ⟨⟩, hparents, placement, hplaces, ⟨⟩,
      hleft, rules, hrules, h⟩
    exact ⟨map, declared, placement, rules, ⟨hid, hstart, hmap, hdeclared, hparents, hplaces, hleft,
      hrules⟩, (Except.ok.inj h).symm⟩
  · rintro ⟨map, declared, placement, rules, h, rfl⟩
    exact ⟨(), h.id_not_blank, (), h.start_not_blank, map, h.rooms, declared, h.items, (),
      h.parents, placement, h.places, (), h.nothing_left, rules, h.effects, rfl⟩

/-! ## Cycles -/

section

variable {draft : Draft} {declared : List Declared}

theorem startsInside_iff (h : List.Forall₂ Declares draft.items declared) {child parent : String} :
    draft.StartsInside child parent ↔ StartsIn declared child parent := by
  rw [StartsIn, mem_childrenOf_iff]
  constructor
  · rintro ⟨entry, hentry, rfl, hstarts⟩
    obtain ⟨d, hd, hloc, hitem⟩ := exists_declared_of_mem h hentry
    exact ⟨d, hd, hloc.unique hstarts, congrArg Item.id hitem⟩
  · rintro ⟨d, hd, hloc, rfl⟩
    obtain ⟨entry, hentry, hstarts, hitem⟩ := exists_entry_of_mem h hd
    exact ⟨entry, hentry, (congrArg Item.id hitem).symm, hloc ▸ hstarts⟩

/-- **What is left in the pool at the end is what is stranded.** -/
theorem mem_left_iff (hdecl : List.Forall₂ Declares draft.items declared)
    (hids : (declared.map (·.item.id)).Nodup) (hparents : ParentsDeclared declared) {rest : Pool}
    (hout : TakenOut (childrenOf declared) (poolOf declared) (rootIds declared) rest)
    {id : String} : id ∈ rest.keys ↔ Stranded draft.StartsInside id := by
  have hsame : draft.StartsInside = StartsIn declared := by
    funext child parent
    exact propext (startsInside_iff hdecl)
  rw [hsame, hout id, mem_keys_poolOf]
  constructor
  · rintro ⟨⟨d, hd, rfl⟩, hnot⟩
    exact not_not.mp (mt (below_root_iff_not_stranded hids hparents hd).mpr hnot)
  · intro h
    obtain ⟨d, hd, rfl⟩ := exists_declared_of_stranded h
    exact ⟨⟨d, hd, rfl⟩, fun hbelow => (below_root_iff_not_stranded hids hparents hd).mp hbelow h⟩

/-- The pool is empty at the end exactly when there are no cycles. -/
theorem pool_empty_iff (hdecl : List.Forall₂ Declares draft.items declared)
    (hids : (declared.map (·.item.id)).Nodup) (hparents : ParentsDeclared declared) {rest : Pool}
    (hout : TakenOut (childrenOf declared) (poolOf declared) (rootIds declared) rest) :
    rest.keys = [] ↔ ∀ id, ¬ Relation.TransGen draft.StartsInside id id := by
  rw [List.eq_nil_iff_forall_not_mem, ← forall_not_stranded_iff]
  exact forall_congr' fun id => not_congr (mem_left_iff hdecl hids hparents hout)

end

/-! ## What loads is well-formed -/

namespace Loads

variable {draft : Draft} {map : RoomMap} {declared : List Declared} {placement : Placement}
  {rules : List UseRule}

theorem declares (h : Loads draft map declared placement rules) :
    List.Forall₂ Declares draft.items declared :=
  (declareItems_eq_ok_iff.mp h.items).2.2

theorem items_distinct (h : Loads draft map declared placement rules) :
    (draft.items.map (·.id)).Nodup :=
  (declareItems_eq_ok_iff.mp h.items).1

theorem ids (h : Loads draft map declared placement rules) : (declared.map (·.item.id)).Nodup :=
  map_id_of_declares h.declares ▸ h.items_distinct

theorem placed (h : Loads draft map declared placement rules) :
    ∃ placed, Placed (childrenOf declared) declared placed (.start map declared) placement :=
  foldlM_place_placed (fresh_poolOf h.declares) h.places

theorem keys_rooms (h : Loads draft map declared placement rules) {key : String} :
    key ∈ map.rooms.keys ↔ ∃ entry ∈ draft.rooms, entry.id = key := by
  rw [Table.mem_keys_iff]
  simp only [RoomMap.get?_of_foldlM_addRoom h.rooms, RoomMap.empty, Table.get?_empty]
  constructor
  · rintro ⟨room, h | ⟨entry, hentry, hid, -⟩⟩
    · exact absurd h (by simp)
    · exact ⟨entry, hentry, hid⟩
  · rintro ⟨entry, hentry, hid⟩
    exact ⟨entry.room, Or.inr ⟨entry, hentry, hid, rfl⟩⟩

theorem wellFormed (h : Loads draft map declared placement rules) : draft.WellFormed := by
  obtain ⟨placed, hplaced⟩ := h.placed
  have hrooms := (RoomMap.exists_foldlM_addRoom_iff RoomMap.linked_empty).mp ⟨map, h.rooms⟩
  have hparents := checkParents_eq_ok_iff.mp h.parents
  refine ⟨Text.isBlankText_eq_false_iff.mp h.id_not_blank,
    Text.isBlankText_eq_false_iff.mp h.start_not_blank, hrooms.1, hrooms.2.2, h.items_distinct,
    fun entry hentry => ?_, fun entry hentry key hkey => ?_, fun entry hentry parent hparent => ?_,
    ?_, fun rule hrule => ?_⟩
  · obtain ⟨d, -, hd⟩ := exists_declared_of_mem h.declares hentry
    exact ⟨d.location, hd.1⟩
  · obtain ⟨d, hd, hdecl⟩ := exists_declared_of_mem h.declares hentry
    exact h.keys_rooms.mp (hplaced.declared_rooms d hd key (hdecl.1.unique hkey))
  · obtain ⟨d, hd, hdecl⟩ := exists_declared_of_mem h.declares hentry
    obtain ⟨p, hp, rfl⟩ := hparents d hd parent (hdecl.1.unique hparent)
    obtain ⟨other, hother, -, hitem⟩ := exists_entry_of_mem h.declares hp
    exact ⟨other, hother, (congrArg Item.id hitem).symm⟩
  · obtain ⟨p', hp', hout⟩ := foldlM_place_ok (p := .start map declared)
      (oneParent_childrenOf h.ids) (ready_roots h.ids) hplaced.declared_rooms
    obtain rfl := Except.ok.inj (h.places.symm.trans hp')
    exact (pool_empty_iff h.declares h.ids hparents hout).mp
      (checkEmpty_eq_ok_iff.mp h.nothing_left)
  · exact exists_toRule_iff.mp (exists_mapM_eq_ok_iff.mp ⟨rules, h.effects⟩ rule hrule)

end Loads

/-! ## What is well-formed loads -/

theorem exists_forall₂_declares {entries : List ItemEntry}
    (h : ∀ entry ∈ entries, ∃ location, entry.StartsAt location) :
    ∃ declared, List.Forall₂ Declares entries declared := by
  induction entries with
  | nil => exact ⟨[], .nil⟩
  | cons entry entries ih =>
    obtain ⟨location, hstarts⟩ := h entry List.mem_cons_self
    obtain ⟨declared, hall⟩ := ih fun e he => h e (List.mem_cons_of_mem _ he)
    exact ⟨⟨entry.item, location⟩ :: declared, .cons ⟨hstarts, rfl⟩ hall⟩

theorem Draft.WellFormed.loads {draft : Draft} (h : draft.WellFormed) :
    ∃ map declared placement rules, Loads draft map declared placement rules := by
  obtain ⟨map, hmap⟩ := (RoomMap.exists_foldlM_addRoom_iff RoomMap.linked_empty).mpr
    ⟨h.rooms_distinct, fun _ _ => List.not_mem_nil, h.directions_distinct⟩
  obtain ⟨declared, hdecl⟩ := exists_forall₂_declares h.located
  obtain ⟨rules, hrules⟩ := exists_mapM_eq_ok_iff.mpr fun rule hrule =>
    exists_toRule_iff.mpr (h.effects_known rule hrule)
  have hids : (declared.map (·.item.id)).Nodup := map_id_of_declares hdecl ▸ h.items_distinct
  have hparents : ParentsDeclared declared := by
    intro d hd parent hloc
    obtain ⟨entry, hentry, hstarts, -⟩ := exists_entry_of_mem hdecl hd
    obtain ⟨other, hother, rfl⟩ := h.parents_declared entry hentry parent (hloc ▸ hstarts)
    obtain ⟨p, hp, -, hitem⟩ := exists_declared_of_mem hdecl hother
    exact ⟨p, hp, congrArg Item.id hitem⟩
  have hrooms : ∀ d ∈ declared, ∀ key, d.location = .room key → key ∈ map.rooms.keys :=
    fun d hd key hloc => by
      obtain ⟨entry, hentry, hstarts, -⟩ := exists_entry_of_mem hdecl hd
      obtain ⟨room, hroom, hid⟩ := h.rooms_declared entry hentry key (hloc ▸ hstarts)
      exact Table.mem_keys_iff.mpr ⟨room.room,
        (RoomMap.get?_of_foldlM_addRoom hmap key room.room).mpr (Or.inr ⟨room, hroom, hid, rfl⟩)⟩
  obtain ⟨placement, hplaces, hout⟩ := foldlM_place_ok (p := .start map declared)
    (oneParent_childrenOf hids) (ready_roots hids) hrooms
  exact ⟨map, declared, placement, rules,
    { id_not_blank := Text.isBlankText_eq_false_iff.mpr h.id_not_blank
      start_not_blank := Text.isBlankText_eq_false_iff.mpr h.start_not_blank
      rooms := hmap
      items := declareItems_eq_ok_iff.mpr ⟨h.items_distinct, fun _ _ => List.not_mem_nil, hdecl⟩
      parents := checkParents_eq_ok_iff.mpr hparents
      places := hplaces
      nothing_left := checkEmpty_eq_ok_iff.mpr
        ((pool_empty_iff hdecl hids hparents hout).mpr h.acyclic)
      effects := hrules }⟩

/-! ## What the world holds -/

/-- Items with the ids of declared ones are those, if all of them are declared. -/
theorem map_bare_eq_of_ids {draft : Draft} (hids : (draft.items.map (·.id)).Nodup)
    {items : List Item} {entries : List ItemEntry}
    (hitems : ∀ item ∈ items, ∃ entry ∈ draft.items, item.bare = entry.item)
    (hentries : ∀ entry ∈ entries, entry ∈ draft.items)
    (h : items.map (·.id) = entries.map (·.id)) :
    items.map Item.bare = entries.map ItemEntry.item := by
  induction items generalizing entries with
  | nil => rw [List.map_eq_nil_iff.mp h.symm, List.map_nil, List.map_nil]
  | cons item items ih =>
    cases entries with
    | nil => exact absurd h (by simp)
    | cons entry entries =>
      obtain ⟨hhead, htail⟩ := List.cons.inj h
      obtain ⟨found, hfound, hbare⟩ := hitems item List.mem_cons_self
      have hid : found.id = entry.id := (congrArg Item.id hbare).symm.trans hhead
      obtain rfl := List.inj_on_of_nodup_map hids hfound (hentries entry List.mem_cons_self) hid
      rw [List.map_cons, List.map_cons, hbare,
        ih (fun x hx => hitems x (List.mem_cons_of_mem _ hx))
          (fun e he => hentries e (List.mem_cons_of_mem _ he)) htail]

/-- What was put on a floor or into the inventory has the ids declared there, in order. -/
theorem Placed.ids_putIn {children : String → List String} {declared : List Declared}
    {placed : List (StartLocation × Item)} {p p' : Placement}
    (h : Placed children declared placed p p') {location : StartLocation}
    (hroot : ∀ parent, location ≠ .item parent) :
    (putIn placed location).map (·.id) =
      (declared.filter (·.location == location)).map (·.item.id) := by
  have hfilter := congrArg (List.filter (·.1 == location)) h.roots
  rw [List.filter_map, List.filter_map, List.filter_filter] at hfilter
  have hsame : ∀ d : Declared, (((·.1 == location) ∘ fun d : Declared =>
      (d.location, d.item.id)) d && d.isRoot) = (d.location == location) := by
    intro d
    by_cases hloc : d.location = location
    · simp [hloc, isRoot_iff.mpr (hloc ▸ hroot)]
    · simp [hloc]
  rw [funext hsame] at hfilter
  have hids := congrArg (List.map Prod.snd) hfilter
  rw [List.map_map, List.map_map] at hids
  rw [putIn, List.map_map]
  exact hids

namespace Loads

variable {draft : Draft} {map : RoomMap} {declared : List Declared} {placement : Placement}
  {rules : List UseRule}

theorem floor_empty (h : Loads draft map declared placement rules) {key : String} {room : Room}
    (hroom : map.rooms.get? key = some room) : room.items = [] := by
  rcases (RoomMap.get?_of_foldlM_addRoom h.rooms key room).mp hroom with hold | ⟨_, -, -, rfl⟩
  · exact absurd hold (by simp [RoomMap.empty])
  · rfl

/-- At the end the floors and the inventory hold what was put there. -/
theorem perm_held (h : Loads draft map declared placement rules)
    {placed : List (StartLocation × Item)}
    (hplaced : Placed (childrenOf declared) declared placed (.start map declared) placement) :
    placement.held.Perm (placed.map (·.2)) := by
  have hstart : (Placement.start map declared).held = [] := by
    rw [Placement.held, Placement.start, List.append_nil, List.flatMap_eq_nil_iff]
    intro room hroom
    obtain ⟨⟨key, room⟩, he, rfl⟩ := List.mem_map.mp hroom
    exact h.floor_empty (Table.get?_eq_some_iff.mpr he)
  have hheld := hplaced.held
  rw [hstart, List.append_nil] at hheld
  exact hheld

/-- The world holds the declared items, each once, whatever is inside them. -/
theorem perm_allItems (h : Loads draft map declared placement rules) :
    ((draft.worldOf map placement rules).allItems.map Item.bare).Perm
      (draft.items.map ItemEntry.item) := by
  obtain ⟨placed, hplaced⟩ := h.placed
  have hleft : placement.pool.values = [] := by
    have hkeys := checkEmpty_eq_ok_iff.mp h.nothing_left
    rw [Table.keys, List.map_eq_nil_iff] at hkeys
    rw [Table.values, hkeys, List.map_nil]
  have hbuilt := hplaced.assembled.perm
  rw [hleft, List.append_nil] at hbuilt
  rw [← map_item_of_declares h.declares]
  exact ((Item.perm_forest (h.perm_held hplaced)).map Item.bare).trans
    (hbuilt.trans (perm_poolOf h.ids))

/-- What is inside an item, on a floor or carried at the start has the ids declared there. -/
theorem ids_startingAt (h : Loads draft map declared placement rules) (location : StartLocation) :
    (declared.filter (·.location == location)).map (·.item.id) =
      (draft.startingAt location).map (·.id) := by
  have hmap := congrArg (List.map (·.id)) (filter_location_of_declares h.declares location)
  rw [List.map_map, List.map_map] at hmap
  exact hmap

/-- Each item of the world is a declared one, whatever is inside it. -/
theorem exists_entry (h : Loads draft map declared placement rules) {item : Item}
    (hitem : item ∈ (draft.worldOf map placement rules).allItems) :
    ∃ entry ∈ draft.items, item.bare = entry.item := by
  have hbare := h.perm_allItems.mem_iff.mp (List.mem_map_of_mem (f := Item.bare) hitem)
  obtain ⟨entry, hentry, hsame⟩ := List.mem_map.mp hbare
  exact ⟨entry, hentry, hsame.symm⟩

theorem count_id (h : Loads draft map declared placement rules) {entry : ItemEntry}
    (hentry : entry ∈ draft.items) :
    ((draft.worldOf map placement rules).allItems.map (·.id)).count entry.id = 1 := by
  have hids := h.perm_allItems.map (·.id)
  rw [List.map_map, List.map_map] at hids
  exact (hids.count_eq entry.id).trans
    (List.count_eq_one_of_mem h.items_distinct (List.mem_map_of_mem (f := (·.id)) hentry))

section

variable {placed : List (StartLocation × Item)}

theorem mem_allItems_iff (h : Loads draft map declared placement rules)
    (hplaced : Placed (childrenOf declared) declared placed (.start map declared) placement)
    {item : Item} : item ∈ (draft.worldOf map placement rules).allItems ↔
      item ∈ Item.forest (placed.map (·.2)) :=
  (Item.perm_forest (h.perm_held hplaced)).mem_iff

/-- An item holds the items declared to start inside it. -/
theorem map_bare_contents (h : Loads draft map declared placement rules)
    (hplaced : Placed (childrenOf declared) declared placed (.start map declared) placement)
    {item : Item} (hitem : item ∈ (draft.worldOf map placement rules).allItems) :
    item.contents.map Item.bare = (draft.startingAt (.item item.id)).map ItemEntry.item := by
  refine map_bare_eq_of_ids h.items_distinct (fun child hchild =>
    h.exists_entry (Item.mem_forest_of_mem_contents hitem hchild))
    (fun entry hentry => (List.mem_filter.mp hentry).1) ?_
  rw [hplaced.assembled.shape item ((h.mem_allItems_iff hplaced).mp hitem), ← h.ids_startingAt]
  rfl

/-- A floor or the inventory holds the items declared to start there. -/
theorem map_bare_putIn (h : Loads draft map declared placement rules)
    (hplaced : Placed (childrenOf declared) declared placed (.start map declared) placement)
    {location : StartLocation} (hroot : ∀ parent, location ≠ .item parent) :
    (putIn placed location).map Item.bare = (draft.startingAt location).map ItemEntry.item := by
  refine map_bare_eq_of_ids h.items_distinct (fun item hitem => h.exists_entry ?_)
    (fun entry hentry => (List.mem_filter.mp hentry).1)
    ((hplaced.ids_putIn hroot).trans (h.ids_startingAt location))
  obtain ⟨e, he, rfl⟩ := List.mem_map.mp hitem
  have hmem := List.mem_map_of_mem (f := Prod.snd) (List.mem_filter.mp he).1
  exact (h.mem_allItems_iff hplaced).mpr (Item.mem_forest_of_mem hmem)

end

theorem realizes (h : Loads draft map declared placement rules) :
    (draft.worldOf map placement rules).Realizes draft := by
  obtain ⟨placed, hplaced⟩ := h.placed
  refine ⟨fun item hitem => ?_, fun entry hentry => h.count_id hentry, fun key => ?_,
    fun key room hroom => ?_, ?_⟩
  · obtain ⟨entry, hentry, hbare⟩ := h.exists_entry hitem
    have hid : item.id = entry.id := congrArg Item.id hbare
    exact ⟨entry, hentry, hbare, hid ▸ h.map_bare_contents hplaced hitem⟩
  · rw [← h.keys_rooms, Table.mem_keys_iff]
    simp only [World.room?, Draft.worldOf, hplaced.floors, Placement.start]
    cases map.rooms.get? key <;> simp
  · simp only [World.room?, Draft.worldOf, hplaced.floors, Placement.start] at hroom
    obtain ⟨old, hold, rfl⟩ := Option.map_eq_some_iff.mp hroom
    rw [h.floor_empty hold, List.nil_append]
    exact h.map_bare_putIn hplaced (by simp)
  · rw [Draft.worldOf, hplaced.inventory]
    exact h.map_bare_putIn hplaced (by simp)

end Loads

theorem realizes_of_ofDraft {draft : Draft} {world : World} (h : World.ofDraft draft = .ok world) :
    world.Realizes draft := by
  obtain ⟨map, declared, placement, rules, hloads, rfl⟩ := ofDraft_eq_ok_iff.mp h
  exact hloads.realizes

/-! ## Texts -/

theorem load_eq_ok_iff {text : String} {world : World} :
    World.load text = .ok world ↔
      ∃ draft, Draft.ofText? text = some draft ∧ World.ofDraft draft = .ok world := by
  unfold World.load
  cases Draft.ofText? text <;> simp

/-- A given text loads, and this holds of its draft and world, when reading its characters says so.
The characters of a literal come for nothing, by `String.toList_ofList`, while a computation on the
text itself would have to decode them from its bytes. -/
theorem exists_world_of_chars (text : String) (P : Draft → World → Prop)
    [∀ draft world, Decidable (P draft world)] {cs : List Char} (hchars : text.toList = cs)
    (h : ((Toml.parseChars? cs).bind Draft.ofEntries?).any (fun draft =>
      (World.ofDraft draft).toOption.any fun world => decide (P draft world)) = true) :
    ∃ draft world, Draft.ofText? text = some draft ∧ World.ofDraft draft = .ok world ∧
      P draft world := by
  subst hchars
  obtain ⟨draft, htext, hchecks⟩ := (Option.any_eq_true ..).mp h
  obtain ⟨world, hdraft, hholds⟩ := exists_ok_of_any hchecks
  exact ⟨draft, world, htext, hdraft, of_decide_eq_true hholds⟩

set_option maxRecDepth 100000 in
/-- The cave loads. -/
theorem exists_cave : ∃ world, World.load caveText = .ok world := by
  obtain ⟨draft, world, htext, hdraft, -⟩ := exists_world_of_chars caveText (fun _ _ => True)
    String.toList_ofList (by decide +kernel)
  exact ⟨world, load_eq_ok_iff.mpr ⟨draft, htext, hdraft⟩⟩

/-! ## Exits -/

/-- **The exits of a world are those of its draft**: each leaves the room it is written for, under
its direction in normal form, and leads where it says. -/
theorem exit?_eq_some_iff {draft : Draft} {world : World} (h : World.ofDraft draft = .ok world)
    {room direction target : String} : world.exit? room direction = some target ↔
      ∃ entry ∈ draft.rooms, entry.id = room ∧ ∃ exit ∈ entry.exits,
        RoomMap.normalDirection exit.direction = direction ∧ exit.target = target := by
  obtain ⟨map, declared, placement, rules, hloads, rfl⟩ := ofDraft_eq_ok_iff.mp h
  refine (RoomMap.exit_of_foldlM_addRoom hloads.rooms ⟨room, direction⟩ target).trans ?_
  simp only [RoomMap.empty, Table.get?_empty, reduceCtorEq, false_or, RoomMap.exitKey,
    ExitKey.mk.injEq]
  constructor
  · rintro ⟨entry, hentry, exit, hexit, ⟨hroom, hdirection⟩, htarget⟩
    exact ⟨entry, hentry, hroom, exit, hexit, hdirection, htarget⟩
  · rintro ⟨entry, hentry, hroom, exit, hexit, hdirection, htarget⟩
    exact ⟨entry, hentry, exit, hexit, ⟨hroom, hdirection⟩, htarget⟩

/-- The exits of a world leave its rooms. -/
theorem exists_room_of_exit {draft : Draft} {world : World} (h : World.ofDraft draft = .ok world)
    {room direction target : String} (hexit : world.exit? room direction = some target) :
    ∃ found, world.room? room = some found := by
  obtain ⟨entry, hentry, hid, -⟩ := (exit?_eq_some_iff h).mp hexit
  exact ((realizes_of_ofDraft h).rooms room).mpr ⟨entry, hentry, hid⟩

/-! ## Acceptance -/

/-- **A draft loads exactly when it is well-formed, and its world is the one it describes.** -/
theorem ofDraft_accepts_wellFormed (draft : Draft) :
    ((∃ world, World.ofDraft draft = .ok world) ↔ draft.WellFormed) ∧
      ∀ world, World.ofDraft draft = .ok world → world.Realizes draft := by
  refine ⟨⟨fun ⟨world, h⟩ => ?_, fun h => ?_⟩, fun world h => realizes_of_ofDraft h⟩
  · obtain ⟨map, declared, placement, rules, hloads, -⟩ := ofDraft_eq_ok_iff.mp h
    exact hloads.wellFormed
  · obtain ⟨map, declared, placement, rules, hloads⟩ := h.loads
    exact ⟨_, ofDraft_eq_ok_iff.mpr ⟨map, declared, placement, rules, hloads, rfl⟩⟩

/-- The cave is one of the drafts that load. -/
theorem cave_accepted : ∃ draft world, Draft.ofText? caveText = some draft ∧
    World.ofDraft draft = .ok world ∧ draft.WellFormed ∧ world.Realizes draft := by
  obtain ⟨world, hload⟩ := exists_cave
  obtain ⟨draft, htext, hdraft⟩ := load_eq_ok_iff.mp hload
  obtain ⟨haccepts, hrealizes⟩ := ofDraft_accepts_wellFormed draft
  exact ⟨draft, world, htext, hdraft, haccepts.mp ⟨world, hdraft⟩, hrealizes world hdraft⟩

end Adventure
