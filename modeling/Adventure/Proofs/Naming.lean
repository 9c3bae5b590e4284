import Adventure.Proofs.Aliases
import Adventure.Proofs.Carrying

/-!
# Taking an item by its name

In every game that can be got to, an item answers to its name in lower case, taken as a whole
(`name_mem_aliases`). What the player types is matched as it is heard, so the name finds the item
when its words spell it, in lower case. A name with noise in it, or with more than a space between
words, is never heard as it stands, and the item has to be asked for by another alias.

Results:

* `spelled_names_are_taken`: exactly that, for every draft that is accepted and after all lines.
-/

namespace Adventure

/-! ## Names among the aliases -/

theorem ItemEntry.name_mem_aliases (entry : ItemEntry) :
    Text.lower entry.item.name ∈ entry.item.aliases :=
  Item.mem_foldl_addAlias.mpr (Or.inl (List.mem_singleton.mpr rfl))

/-- **In every game that can be got to, an item answers to its name in lower case.** -/
theorem name_mem_aliases {draft : Draft} {world : World} (h : World.ofDraft draft = .ok world)
    (lines : List String) {item : Item} (hitem : item ∈ ((Game.start world).run lines).allItems) :
    Text.lower item.name ∈ item.aliases := by
  obtain ⟨entry, -, hlabel⟩ := (realizes_of_ofDraft h).entry_of_run lines hitem
  rw [Item.name_eq_of_label_eq hlabel, Item.aliases_eq_of_label_eq hlabel]
  exact entry.name_mem_aliases

theorem mem_allItems_of_floor {game : Game} {room : Room} (hroom : game.currentRoom = .ok room)
    {item : Item} (hitem : item ∈ room.items) : item ∈ game.allItems :=
  Item.mem_forest_of_mem (mem_held_of_floor hroom hitem)

/-! ## What a phrase matches -/

/-- A text whose lower case is spelled by its words is heard as that, and is one phrase. -/
theorem heard_of_spelled {text : String} (h : Spelled (Text.lower text)) :
    heard text = Text.lower text ∧ Command.phrasesOf (tokens text) = [phraseWords text] := by
  have hheard := ((spelled_iff (Text.lower_lower text)).mp h).2
  have hnoise : ∀ word ∈ tokens text, isNoise word = false := by
    rw [tokens_eq]
    exact h.no_noise
  have hnonempty : tokens text ≠ [] := by
    rw [tokens_eq]
    intro hnil
    have hjoined := h.joined
    rw [hnil] at hjoined
    exact h.nonempty hjoined.symm
  refine ⟨(heard_lower text).symm.trans hheard, ?_⟩
  rw [phrasesOf_of_forall hnonempty hnoise, phraseWords, stripNoise_of_forall hnoise]

/-! ## Taking -/

/-- An item is taken by a text that is heard as one of its aliases, and no other's on the floor. -/
theorem step_take_game {game : Game} {room : Room} {index : Nat} {item : Item} {text : String}
    (hroom : game.currentRoom = .ok room) (hitem : room.items[index]? = some item)
    (hspelled : Spelled (Text.lower text)) (hall : Text.lower text ≠ "all")
    (halias : Text.lower text ∈ item.aliases)
    (hunique : ∀ i other, room.items[i]? = some other → Text.lower text ∈ other.aliases →
      i = index) :
    (game.step ("take " ++ text)).game = (game.withFloor (room.items.eraseIdx index)).withInventory
      (game.player.inventory ++ [item]) := by
  obtain ⟨hheard, hphrases⟩ := heard_of_spelled hspelled
  have hline : "take " ++ text = "take" ++ " " ++ text := rfl
  have hasks :
      Command.AsksFor ⟨"take", phraseWords text, [phraseWords text]⟩ (phraseWords text) := by
    refine ⟨rfl, beq_eq_false_iff_ne.mpr fun hwords : phraseWords text = ["all"] => ?_⟩
    rw [heard, hwords] at hheard
    exact hall hheard.symm
  have hfound : resolveExact .room room.items (heard text) = .found ⟨.room, index, item⟩ := by
    have hagain : heard (heard text) = Text.lower text := by
      rw [heard, phraseWords_heard, ← heard.eq_1, hheard]
    rw [← hagain] at halias hunique
    exact resolveExact_of_alias .room hitem (hagain ▸ hspelled.nonempty) halias hunique
  have hcarried := carryPhrase_of_found hroom hfound game.player.inventory Output.empty
  have hturn : game.arranged .room room.items game.player.inventory = game :=
    game.arranged_self hroom .room
  rw [hturn, ← run_asksFor hasks ⟨room, hroom⟩] at hcarried
  rw [hline, isVerb_take.step_game, hphrases]
  exact congrArg (fun outcome : Outcome => outcome.turn.game) hcarried

/-- What is heard is never a name in lower case that its words do not spell. -/
theorem heard_ne_of_not_spelled {name : String} (h : ¬ Spelled (Text.lower name)) {phrase : String}
    (hnonempty : heard phrase ≠ "") : heard phrase ≠ Text.lower name := by
  intro hheard
  refine h ((spelled_iff (Text.lower_lower name)).mpr ⟨hheard ▸ hnonempty, ?_⟩)
  rw [← hheard, heard, phraseWords_heard, ← heard.eq_1]

/-- **An item is taken by its name when the words of the name spell it**, in lower case, and nothing
else on the floor answers to it. An item that goes by no other alias than a name that is not spelled
so is found by no phrase. -/
theorem spelled_names_are_taken {draft : Draft} {world : World}
    (h : World.ofDraft draft = .ok world) (lines : List String) {room : Room} {index : Nat}
    {item : Item} (hroom : ((Game.start world).run lines).currentRoom = .ok room)
    (hitem : room.items[index]? = some item) :
    (Spelled (Text.lower item.name) → Text.lower item.name ≠ "all" →
      (∀ i other, room.items[i]? = some other → Text.lower item.name ∈ other.aliases → i = index) →
      (((Game.start world).run lines).step ("take " ++ item.name)).game =
        (((Game.start world).run lines).withFloor (room.items.eraseIdx index)).withInventory
          (((Game.start world).run lines).player.inventory ++ [item])) ∧
    (¬ Spelled (Text.lower item.name) → item.aliases = [Text.lower item.name] →
      ∀ phrase, resolveExact .room room.items phrase ≠ .found ⟨.room, index, item⟩) := by
  refine ⟨fun hspelled hall hunique => ?_, fun hnot haliases phrase hfound => ?_⟩
  · exact step_take_game hroom hitem hspelled hall (name_mem_aliases h lines
      (mem_allItems_of_floor hroom (List.mem_of_getElem? hitem))) hunique
  · obtain ⟨hnonempty, hmem⟩ := matchesAlias_iff.mp (resolveExact_eq_found_iff.mp hfound).1.2
    rw [haliases, List.mem_singleton] at hmem
    exact heard_ne_of_not_spelled hnot hnonempty hmem

/-- A library with a lamp and a map. -/
def libraryText : String :=
  r#"[world]
id = "school"
start_room = "library"

[[room]]
id = "library"

[[item]]
id = "lamp"
name = "Brass Lamp"
start_location = "room:library"

[[item]]
id = "map"
name = "Map of the Cave"
start_location = "room:library"
"#

set_option maxRecDepth 100000 in
theorem exists_library : ∃ (world : World) (room : Room) (lamp map : Item),
    World.load libraryText = .ok world ∧
    (Game.start world).currentRoom = .ok room ∧ room.items = [lamp, map] ∧
    (lamp.name = "Brass Lamp" ∧ lamp.aliases = ["brass lamp"]) ∧
    (map.name = "Map of the Cave" ∧ map.aliases = ["map of the cave"]) ∧
    ((Game.start world).step ("take " ++ "Map of the Cave")).game.player.inventory = [] := by
  obtain ⟨draft, world, htext, hdraft, hroom, hnothing⟩ := exists_world_of_chars libraryText
    (fun _ world => (world.room? world.startRoom).map (·.items.map fun item =>
        (item.name, item.aliases)) =
          some [("Brass Lamp", ["brass lamp"]), ("Map of the Cave", ["map of the cave"])] ∧
      ((Game.start world).step ("take " ++ "Map of the Cave")).game.player.inventory = [])
    String.toList_ofList (by decide +kernel)
  obtain ⟨room, hroom, hitems⟩ := Option.map_eq_some_iff.mp hroom
  obtain ⟨lamp, rest, hrest, hlamp, hmap⟩ := List.map_eq_cons_iff.mp hitems
  obtain ⟨map, hlast, hmap⟩ := List.map_eq_singleton_iff.mp hmap
  exact ⟨world, room, lamp, map, load_eq_ok_iff.mpr ⟨draft, htext, hdraft⟩,
    Game.currentRoom_eq_ok_iff.mpr hroom, by rw [hrest, hlast], Prod.mk.inj hlamp, Prod.mk.inj hmap,
    hnothing⟩

/-- The lamp is taken by its name, and no phrase finds the map. -/
theorem library_left_with_lamp : ∃ (world : World) (room : Room) (lamp map : Item),
    World.load libraryText = .ok world ∧
    room.items = [lamp, map] ∧
    ((Game.start world).step ("take " ++ lamp.name)).game =
      ((Game.start world).withFloor [map]).withInventory
        ((Game.start world).player.inventory ++ [lamp]) ∧
    ∀ phrase, resolveExact .room room.items phrase ≠ .found ⟨.room, 1, map⟩ := by
  obtain ⟨world, room, lamp, map, hload, hroom, hitems, ⟨hlampName, -⟩, ⟨hmapName, hmapAliases⟩,
    -⟩ := exists_library
  obtain ⟨draft, -, hdraft⟩ := load_eq_ok_iff.mp hload
  refine ⟨world, room, lamp, map, hload, hitems, ?_, ?_⟩
  · have hlamp : room.items[0]? = some lamp := by rw [hitems]; rfl
    have htaken := (spelled_names_are_taken hdraft [] hroom hlamp).1
    rw [hlampName] at htaken ⊢
    have hrest : room.items.eraseIdx 0 = [map] := by rw [hitems]; rfl
    rw [hrest] at htaken
    refine htaken (by decide) (by decide) fun i other hother halias => ?_
    rw [hitems] at hother
    match i with
    | 0 => rfl
    | 1 =>
      obtain rfl := Option.some.inj hother
      rw [hmapAliases] at halias
      exact absurd halias (by decide)
    | _ + 2 => exact nomatch hother
  · have hmap : room.items[1]? = some map := by rw [hitems]; rfl
    refine (spelled_names_are_taken hdraft [] hroom hmap).2 ?_ ?_
    · rw [hmapName]
      decide
    · rw [hmapName, hmapAliases]
      decide

/-- The map lies in the library under its name, which no other item has for an alias, but who types
the name does not get it. -/
theorem map_not_taken : ∃ (world : World) (room : Room) (lamp map : Item),
    World.load libraryText = .ok world ∧
    (Game.start world).currentRoom = .ok room ∧ room.items = [lamp, map] ∧
    map.name = "Map of the Cave" ∧ Text.lower map.name ∉ lamp.aliases ∧
    ((Game.start world).step ("take " ++ map.name)).game.player.inventory = [] := by
  obtain ⟨world, room, lamp, map, hload, hroom, hitems, ⟨-, hlampAliases⟩, ⟨hmapName, -⟩,
    hnothing⟩ := exists_library
  refine ⟨world, room, lamp, map, hload, hroom, hitems, hmapName, ?_, ?_⟩
  · rw [hlampAliases, hmapName]
    decide
  · rw [hmapName]
    exact hnothing

end Adventure
