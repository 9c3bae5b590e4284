import Adventure.Proofs.Forest
import Adventure.World.Load
import Adventure.World.Problem
import Mathlib.Logic.Relation

/-!
# Well-formed drafts and the worlds they describe

What an author has to observe, said without the loader: `Draft.WellFormed` lists the rules, and
`World.Realizes` says what a world must be like to be the one a draft describes. Each item is the
one declared (`ItemEntry.item`) apart from what is inside it, and what is inside it, lies on a
floor or is carried at the start are exactly the items declared there, in the order of the draft.

Where an item starts is a relation, `ItemEntry.StartsAt`; `startsAt_iff` says that the reader of
start locations decides it.
-/

namespace Adventure

/-! ## Where an item starts -/

/-- The text is a word, a colon and an id that is not blank, with blanks around any of them. -/
def SpellsPlace (word text id : String) : Prop :=
  ∃ kind rest : List Char, (Text.trim text).toList = kind ++ ':' :: rest ∧ ':' ∉ kind ∧
    Text.trim (String.ofList kind) = word ∧ (∃ c ∈ rest, Text.isBlank c = false) ∧
    id = Text.trim (String.ofList rest)

/-- The item starts in this location. -/
def ItemEntry.StartsAt (entry : ItemEntry) : StartLocation → Prop
  | .inventory => Text.equalsUpToAsciiCase (Text.trim entry.startLocation) "inventory" = true
  | .room id => SpellsPlace "room" entry.startLocation id
  | .item id => SpellsPlace "item" entry.startLocation id

/-- The item that an entry declares, with nothing inside. -/
def ItemEntry.item (entry : ItemEntry) : Item :=
  ((Item.make entry.id entry.name entry.desc).withAliases entry.aliases).withLock entry.locked

@[simp] theorem ItemEntry.contents_item (entry : ItemEntry) : entry.item.contents = [] := rfl

/-- A list is cut at its first colon in one way only. -/
theorem span_colon {kind : List Char} (h : ':' ∉ kind) (rest : List Char) :
    (kind ++ ':' :: rest).takeWhile (· != ':') = kind ∧
      (kind ++ ':' :: rest).dropWhile (· != ':') = ':' :: rest := by
  induction kind with
  | nil => simp
  | cons c kind ih =>
    obtain ⟨hc, hkind⟩ := not_or.mp (mt List.mem_cons.mpr h)
    have hne : (c != ':') = true := bne_iff_ne.mpr (Ne.symm hc)
    simp only [List.cons_append, List.takeWhile_cons, List.dropWhile_cons, hne, if_true]
    exact ⟨by rw [(ih hkind).1], (ih hkind).2⟩

/-- Up to its first colon a list has none. -/
theorem cut_at_colon {cs rest : List Char} {c : Char} (h : cs.dropWhile (· != ':') = c :: rest) :
    cs = cs.takeWhile (· != ':') ++ ':' :: rest ∧ ':' ∉ cs.takeWhile (· != ':') := by
  constructor
  · have hc := List.head?_dropWhile_not (· != ':') cs
    rw [h] at hc
    have hc : c = ':' := by simpa using hc
    have hsplit := List.takeWhile_append_dropWhile (p := (· != ':')) (l := cs)
    rw [h, hc] at hsplit
    exact hsplit.symm
  · intro hmem
    have hnot := List.all_eq_true.mp List.all_takeWhile _ hmem
    exact absurd hnot (by simp)

theorem colon_notMem_of_inventory {text : String}
    (h : Text.equalsUpToAsciiCase text "inventory" = true) : ':' ∉ text.toList := by
  intro hmem
  have hmap := Text.equalsUpToAsciiCase_iff.mp h
  have hcolon : ':' ∈ text.toList.map Char.toLower := List.mem_map.mpr ⟨':', hmem, by decide⟩
  rw [hmap] at hcolon
  exact absurd hcolon (by decide)

theorem isEmpty_trim_iff {cs : List Char} :
    (Text.trim (String.ofList cs)).isEmpty = true ↔ ¬ ∃ c ∈ cs, Text.isBlank c = false := by
  rw [String.isEmpty_iff, Text.trim_eq_empty_iff, Text.isBlankText, String.toList_ofList,
    List.all_eq_true]
  simp

theorem not_inventory_of_spellsPlace {word text id : String} (h : SpellsPlace word text id) :
    Text.equalsUpToAsciiCase (Text.trim text) "inventory" = false := by
  obtain ⟨kind, rest, htext, -⟩ := h
  have hcolon : ':' ∈ (Text.trim text).toList := by
    rw [htext]
    simp
  cases hinv : Text.equalsUpToAsciiCase (Text.trim text) "inventory" with
  | false => rfl
  | true => exact absurd hcolon (colon_notMem_of_inventory hinv)

/-- A text spells one place at most. -/
theorem ofText?_of_spellsPlace {word text id : String} (h : SpellsPlace word text id) :
    StartLocation.ofText? (Text.trim text) =
      if word == "room" then some (.room id) else if word == "item" then some (.item id)
      else none := by
  have hinv := not_inventory_of_spellsPlace h
  obtain ⟨kind, rest, htext, hkind, hword, hid, rfl⟩ := h
  obtain ⟨htake, hdrop⟩ := span_colon hkind rest
  have hsome : (Text.trim (String.ofList rest)).isEmpty = false :=
    Bool.eq_false_iff.mpr fun he => isEmpty_trim_iff.mp he hid
  simp only [StartLocation.ofText?, hinv, htext, htake, hdrop, hword, hsome]
  rfl

/-- A location that can be read is spelled out by the text. -/
theorem startsAt_of_ofText? {entry : ItemEntry} {location : StartLocation}
    (h : StartLocation.ofText? (Text.trim entry.startLocation) = some location) :
    entry.StartsAt location := by
  unfold StartLocation.ofText? at h
  cases hinv : Text.equalsUpToAsciiCase (Text.trim entry.startLocation) "inventory" with
  | true =>
    rw [hinv, if_pos rfl] at h
    obtain rfl := Option.some.inj h
    exact hinv
  | false =>
    cases hdrop : (Text.trim entry.startLocation).toList.dropWhile (· != ':') with
    | nil =>
      simp only [hinv, hdrop] at h
      exact absurd h (by simp)
    | cons c rest =>
      obtain ⟨htext, hcolon⟩ := cut_at_colon hdrop
      simp only [hinv, hdrop] at h
      by_cases hid : (Text.trim (String.ofList rest)).isEmpty = true
      · simp only [hid] at h
        exact absurd h (by simp)
      · have hsome := not_not.mp (mt isEmpty_trim_iff.mpr hid)
        by_cases hroom : Text.trim (String.ofList ((Text.trim entry.startLocation).toList.takeWhile
            (· != ':'))) = "room"
        · simp only [hid, hroom] at h
          obtain rfl : StartLocation.room _ = location := Option.some.inj h
          exact ⟨_, rest, htext, hcolon, hroom, hsome, rfl⟩
        · by_cases hitem : Text.trim (String.ofList
              ((Text.trim entry.startLocation).toList.takeWhile (· != ':'))) = "item"
          · simp only [hid, hitem] at h
            obtain rfl : StartLocation.item _ = location := Option.some.inj h
            exact ⟨_, rest, htext, hcolon, hitem, hsome, rfl⟩
          · simp only [hid, beq_eq_false_iff_ne.mpr hroom, beq_eq_false_iff_ne.mpr hitem] at h
            exact absurd h (by simp)

/-- **The reader of start locations decides where an item starts.** -/
theorem startsAt_iff {entry : ItemEntry} {location : StartLocation} :
    StartLocation.ofText? (Text.trim entry.startLocation) = some location ↔
      entry.StartsAt location := by
  refine ⟨startsAt_of_ofText?, fun h => ?_⟩
  cases location with
  | inventory =>
    unfold ItemEntry.StartsAt at h
    rw [StartLocation.ofText?, if_pos h]
  | room id => exact ofText?_of_spellsPlace h
  | item id => exact ofText?_of_spellsPlace h

instance (entry : ItemEntry) (location : StartLocation) : Decidable (entry.StartsAt location) :=
  decidable_of_iff _ startsAt_iff

/-- An item starts in one location at most. -/
theorem ItemEntry.StartsAt.unique {entry : ItemEntry} {a b : StartLocation}
    (ha : entry.StartsAt a) (hb : entry.StartsAt b) : a = b :=
  Option.some.inj ((startsAt_iff.mpr ha).symm.trans (startsAt_iff.mpr hb))

/-! ## Well-formed drafts -/

namespace Draft

/-- The items that start in a location, in the order of the draft. -/
def startingAt (draft : Draft) (location : StartLocation) : List ItemEntry :=
  draft.items.filter fun entry => entry.StartsAt location

/-- The item with the first id starts directly inside the one with the second. -/
def StartsInside (draft : Draft) (child parent : String) : Prop :=
  ∃ entry ∈ draft.items, entry.id = child ∧ entry.StartsAt (.item parent)

/-- **What a draft has to observe to become a world.** -/
structure WellFormed (draft : Draft) : Prop where
  id_not_blank : ∃ c ∈ draft.id.toList, Text.isBlank c = false
  start_not_blank : ∃ c ∈ draft.startRoom.toList, Text.isBlank c = false
  rooms_distinct : (draft.rooms.map (·.id)).Nodup
  directions_distinct : ∀ room ∈ draft.rooms,
    (room.exits.map fun exit => Text.lower (Text.trim exit.direction)).Nodup
  items_distinct : (draft.items.map (·.id)).Nodup
  /-- Each start location has one of the known forms. -/
  located : ∀ entry ∈ draft.items, ∃ location, entry.StartsAt location
  rooms_declared : ∀ entry ∈ draft.items, ∀ id, entry.StartsAt (.room id) →
    ∃ room ∈ draft.rooms, room.id = id
  parents_declared : ∀ entry ∈ draft.items, ∀ id, entry.StartsAt (.item id) →
    ∃ parent ∈ draft.items, parent.id = id
  /-- Going from an item to the one it starts inside, again and again, leads back to none. -/
  acyclic : ∀ id, ¬ Relation.TransGen draft.StartsInside id id
  /-- Each rule unlocks, or shows a message that is not blank. -/
  effects_known : ∀ rule ∈ draft.rules, Text.lower (Text.trim rule.effect) = "unlock" ∨
    (Text.lower (Text.trim rule.effect) = "message" ∧
      ∃ text, rule.text = some text ∧ ∃ c ∈ text.toList, Text.isBlank c = false)

end Draft

/-! ## The world of a draft -/

/-- **The world holds what the draft declares, where it declares it.** -/
structure World.Realizes (world : World) (draft : Draft) : Prop where
  /-- Each item of the world is declared, and holds the items declared to start inside it. -/
  items : ∀ item ∈ world.allItems, ∃ entry ∈ draft.items, item.bare = entry.item ∧
    item.contents.map Item.bare = (draft.startingAt (.item entry.id)).map ItemEntry.item
  /-- Each declared item is in the world once. -/
  once : ∀ entry ∈ draft.items, (world.allItems.map (·.id)).count entry.id = 1
  /-- The rooms are those declared. -/
  rooms : ∀ key, (∃ room, world.room? key = some room) ↔ ∃ entry ∈ draft.rooms, entry.id = key
  floors : ∀ key room, world.room? key = some room →
    room.items.map Item.bare = (draft.startingAt (.room key)).map ItemEntry.item
  inventory : world.startingInventory.map Item.bare =
    (draft.startingAt .inventory).map ItemEntry.item

end Adventure
