import Adventure.Proofs.Pairings
import Adventure.Proofs.Scopes

/-!
# All that a use can come to

A use goes through a fixed order of questions: do the arguments pair an item with a target, which
item carried is meant, which item on the floor, what does the first rule for the two say, and is the
target locked? The first one that is answered with no decides how the use ends (`UseEnds`); only
where all are answered with yes does anything change, and then it is the floor of the room alone
(`Game.FloorBecomes`).

Each question is put here without the function that answers it: the pairing of words in terms of a
first preposition (`Pairing.Parts`), the items in terms of the only one that the phrase fits
(`OnlyFit`), the rule as the first in the table (`World.FirstRule`).

Results:

* `use_ends_by_first_failure`: what every use comes to, in a room that exists.
-/

namespace Adventure

/-! ## Finding the item and the target -/

/-- The item lies at this position of the list, and no other position has one that the phrase fits.
-/
structure OnlyFit (items : List Item) (phrase : String) (index : Nat) (item : Item) : Prop where
  lies : items[index]? = some item
  fits : item.Fits phrase
  only : ∀ i other, items[i]? = some other → other.Fits phrase → i = index

/-- Why a phrase finds no item in the list: it fits none, or several, which are listed by name. -/
inductive Unfound (items : List Item) (phrase : String) (scope : Scope) : CommandError → Prop
  | none (h : ∀ item ∈ items, ¬ item.Fits phrase) :
      Unfound items phrase scope (.noMatch phrase scope)
  | several {listed : List Item} (h : 2 ≤ (items.filter fun item => item.Fits phrase).length)
      (hlisted : SortedByName (items.filter fun item => item.Fits phrase) listed) :
      Unfound items phrase scope (.ambiguous (listed.map (·.name)))

section

variable {floor inventory : List Item} {holder : Holder} {phrase : String}

theorem fitting_scope (floor inventory : List Item) (holder : Holder) (phrase : String) :
    holder.scope.fitting floor inventory phrase =
      (holder.items floor inventory).filter fun item => item.Fits phrase := by
  rw [Scope.fitting, holders_scope, List.flatMap_singleton]

theorem resolve_scope_eq_found_iff (holder : Holder) {l : Located} :
    resolve floor inventory holder.scope phrase = .found l ↔
      l.holder = holder ∧ OnlyFit (holder.items floor inventory) phrase l.index l.item := by
  constructor
  · intro h
    obtain ⟨⟨hmem, hfits⟩, honly⟩ := resolve_eq_found_iff.mp h
    obtain ⟨hholder, hitem⟩ := (mem_candidates_scope_iff _).mp hmem
    refine ⟨hholder, hitem, Item.matchesWords_iff.mp hfits, ?_⟩
    intro i other hother hsame
    have hplace := honly ⟨holder, i, other⟩ ((mem_candidates_scope_iff _).mpr ⟨rfl, hother⟩)
      (Item.matchesWords_iff.mpr hsame)
    exact congrArg Located.index hplace
  · rintro ⟨rfl, hfit⟩
    refine resolve_of_only (fun _ => mem_candidates_scope_iff _) hfit.lies
      (Item.matchesWords_iff.mpr hfit.fits) ?_
    intro i other hother hsame
    exact hfit.only i other hother (Item.matchesWords_iff.mp hsame)

theorem toExcept_resolve_eq_error_iff (holder : Holder) {error : CommandError} :
    (resolve floor inventory holder.scope phrase).toExcept phrase holder.scope = .error error ↔
      Unfound (holder.items floor inventory) phrase holder.scope error := by
  constructor
  · intro h
    cases hresolve : resolve floor inventory holder.scope phrase with
    | found l =>
      rw [hresolve] at h
      cases h
    | notFound =>
      rw [hresolve] at h
      obtain rfl := Except.error.inj h
      rw [resolve_eq_notFound_iff, fitting_scope, List.filter_eq_nil_iff] at hresolve
      exact .none fun item hitem => by simpa using hresolve item hitem
    | ambiguous listed =>
      rw [hresolve] at h
      obtain rfl := Except.error.inj h
      rw [resolve_eq_ambiguous_iff, fitting_scope] at hresolve
      exact .several hresolve.1 hresolve.2
  · intro h
    cases h with
    | none h =>
      have hresolve : resolve floor inventory holder.scope phrase = .notFound := by
        rw [resolve_eq_notFound_iff, fitting_scope, List.filter_eq_nil_iff]
        simpa using h
      rw [hresolve]
      rfl
    | several h hlisted =>
      have hresolve := resolve_eq_ambiguous_iff.mpr
        ⟨fitting_scope floor inventory holder phrase ▸ h,
          fitting_scope floor inventory holder phrase ▸ hlisted⟩
      rw [hresolve]
      rfl

end

/-- The arguments pair an item with a target; the one is meant for an item carried, and the other
for the item at a position of the floor. -/
structure UsesOn (command : Command) (game : Game) (room : Room) (pairing : Pairing) (key : Item)
    (index : Nat) (target : Item) : Prop where
  parts : pairing.Parts command.args
  carried : ∃ place, OnlyFit game.player.inventory pairing.itemPhrase place key
  on_floor : OnlyFit room.items pairing.targetPhrase index target

section

variable {command : Command} {game : Game} {room : Room}

theorem findUsing_eq_ok_iff_usesOn (hroom : game.currentRoom = .ok room) {found : Using} :
    findUsing command game = .ok found ↔ ∃ pairing,
      UsesOn command game room pairing found.item found.index found.target ∧
        found.preposition = pairing.preposition := by
  rw [findUsing_eq_ok_iff]
  constructor
  · rintro ⟨pairing, here, key, target, hpairing, hhere, hkey, htarget, rfl⟩
    obtain rfl : room = here := Except.ok.inj (hroom.symm.trans hhere)
    exact ⟨pairing, ⟨Pairing.ofWords_eq_ok_iff.mp hpairing,
      ⟨key.index, ((resolve_scope_eq_found_iff .inventory).mp hkey).2⟩,
      ((resolve_scope_eq_found_iff .room).mp htarget).2⟩, rfl⟩
  · rintro ⟨pairing, ⟨hparts, ⟨place, hkey⟩, htarget⟩, hpreposition⟩
    refine ⟨pairing, room, ⟨.inventory, place, found.item⟩, ⟨.room, found.index, found.target⟩,
      Pairing.ofWords_eq_ok_iff.mpr hparts, hroom,
      (resolve_scope_eq_found_iff .inventory).mpr ⟨rfl, hkey⟩,
      (resolve_scope_eq_found_iff .room).mpr ⟨rfl, htarget⟩, ?_⟩
    rw [← hpreposition]

theorem findUsing_eq_error_iff (hroom : game.currentRoom = .ok room) {error : CommandError} :
    findUsing command game = .error error ↔
      ((∀ pairing : Pairing, ¬ pairing.Parts command.args) ∧ error = .usage useUsage) ∨
      ∃ pairing : Pairing, pairing.Parts command.args ∧
        (Unfound game.player.inventory pairing.itemPhrase .inventory error ∨
          (∃ place key, OnlyFit game.player.inventory pairing.itemPhrase place key) ∧
            Unfound room.items pairing.targetPhrase .room error) := by
  have hkeys : ∀ phrase, (resolve room.items game.player.inventory .inventory phrase).toExcept
      phrase .inventory = .error error ↔ Unfound game.player.inventory phrase .inventory error :=
    fun _ => toExcept_resolve_eq_error_iff .inventory
  have htargets : ∀ phrase, (resolve room.items game.player.inventory .room phrase).toExcept
      phrase .room = .error error ↔ Unfound room.items phrase .room error :=
    fun _ => toExcept_resolve_eq_error_iff .room
  have hkey : ∀ phrase,
      (∃ key, (resolve room.items game.player.inventory .inventory phrase).toExcept
        phrase .inventory = .ok key) ↔
      ∃ place key, OnlyFit game.player.inventory phrase place key := by
    intro phrase
    simp only [Resolution.toExcept_eq_ok_iff]
    constructor
    · rintro ⟨key, hkey⟩
      exact ⟨key.index, key.item, ((resolve_scope_eq_found_iff .inventory).mp hkey).2⟩
    · rintro ⟨place, key, hkey⟩
      exact ⟨⟨.inventory, place, key⟩,
        (resolve_scope_eq_found_iff .inventory).mpr ⟨rfl, hkey⟩⟩
  have hpure : ∀ found : Using, (pure found : Except CommandError Using) ≠ .error error := nofun
  simp only [findUsing, bind_eq_error_iff, Pairing.ofWords_eq_error_iff, Pairing.ofWords_eq_ok_iff,
    hroom, reduceCtorEq, false_or, Except.ok.injEq, exists_eq_left', hkeys, htargets, hpure,
    and_false, exists_false, or_false, ← hkey, exists_and_right]

end

/-! ## The first rule -/

/-- The rule is the first of the world that is meant for these names and this preposition. -/
def World.FirstRule (world : World) (key target preposition : String) (rule : UseRule) : Prop :=
  ∃ before after, world.useRules = before ++ rule :: after ∧
    rule.applies key target preposition = true ∧
    ∀ earlier ∈ before, earlier.applies key target preposition = false

section

variable {world : World} {key target preposition : String}

theorem effectOf?_eq_some_iff {effect : UseEffect} :
    world.effectOf? key target preposition = some effect ↔
      ∃ rule, world.FirstRule key target preposition rule ∧ rule.effect = effect := by
  unfold World.effectOf?
  rw [Option.map_eq_some_iff]
  refine exists_congr fun rule => and_congr ?_ Iff.rfl
  rw [List.find?_eq_some_iff_append]
  constructor
  · rintro ⟨happlies, before, after, hrules, hbefore⟩
    exact ⟨before, after, hrules, happlies, fun earlier h => by simpa using hbefore earlier h⟩
  · rintro ⟨before, after, hrules, happlies, hbefore⟩
    exact ⟨happlies, before, after, hrules, fun earlier h => by simp [hbefore earlier h]⟩

theorem effectOf?_eq_none_iff : world.effectOf? key target preposition = none ↔
    ∀ rule ∈ world.useRules, rule.applies key target preposition = false := by
  simp [World.effectOf?]

end

/-! ## What may change -/

/-- The game after is the same but for the floor of the current room. -/
structure Game.FloorBecomes (game after : Game) (items : List Item) : Prop where
  player : after.player = game.player
  world : after.world = { game.world with rooms := after.world.rooms }
  here : after.world.room? game.player.room =
    (game.world.room? game.player.room).map fun room => { room with items := items }
  elsewhere : ∀ key, key ≠ game.player.room → after.world.room? key = game.world.room? key

theorem Game.floorBecomes_iff {game after : Game} {items : List Item} :
    game.FloorBecomes after items ↔ after = game.withFloor items := by
  constructor
  · intro h
    have hrooms : after.world.rooms = (game.withFloor items).world.rooms := by
      refine Table.ext_get? fun key => ?_
      have hkey := game.world.room?_withFloor game.player.room items key
      by_cases hcurrent : key = game.player.room
      · subst hcurrent
        rw [if_pos rfl] at hkey
        exact h.here.trans hkey.symm
      · rw [if_neg hcurrent] at hkey
        exact (h.elsewhere key hcurrent).trans hkey.symm
    obtain ⟨world, player⟩ := after
    obtain rfl : player = game.player := h.player
    have hworld : world = { game.world with rooms := world.rooms } := h.world
    rw [hworld, hrooms]
    rfl
  · rintro rfl
    refine ⟨rfl, rfl, ?_, ?_⟩
    · exact (game.world.room?_withFloor game.player.room items _).trans (if_pos rfl)
    · intro key hkey
      exact (game.world.room?_withFloor game.player.room items key).trans (if_neg hkey)

/-! ## What a use comes to -/

/-- What a use comes to in a room, by the first question that is answered with no. -/
inductive UseEnds (command : Command) (turn : Turn) (room : Room) : Outcome → Prop
  /-- The arguments do not pair an item with a target. -/
  | unpaired (h : ∀ pairing : Pairing, ¬ pairing.Parts command.args) :
      UseEnds command turn room (.failed (.usage useUsage) turn)
  /-- The item is not found in the inventory. -/
  | noKey {pairing : Pairing} {error : CommandError} (parts : pairing.Parts command.args)
      (h : Unfound turn.game.player.inventory pairing.itemPhrase .inventory error) :
      UseEnds command turn room (.failed error turn)
  /-- The target is not found on the floor. -/
  | noTarget {pairing : Pairing} {place : Nat} {key : Item} {error : CommandError}
      (parts : pairing.Parts command.args)
      (carried : OnlyFit turn.game.player.inventory pairing.itemPhrase place key)
      (h : Unfound room.items pairing.targetPhrase .room error) :
      UseEnds command turn room (.failed error turn)
  /-- No rule is meant for the two. -/
  | noRule {pairing : Pairing} {key target : Item} {index : Nat}
      (found : UsesOn command turn.game room pairing key index target)
      (h : ∀ rule ∈ turn.game.world.useRules,
        rule.applies key.name target.name pairing.preposition = false) :
      UseEnds command turn room (.done (turn.say
        s!"You use the {key.name} {pairing.preposition} the {target.name}. It doesn't work."))
  /-- The first rule shows a message. -/
  | message {pairing : Pairing} {key target : Item} {index : Nat} {rule : UseRule} {text : String}
      (found : UsesOn command turn.game room pairing key index target)
      (first : turn.game.world.FirstRule key.name target.name pairing.preposition rule)
      (h : rule.effect = .message text) : UseEnds command turn room (.done (turn.say text))
  /-- The first rule unlocks, but the target is not locked. -/
  | unlocked {pairing : Pairing} {key target : Item} {index : Nat} {rule : UseRule}
      {text : Option String} (found : UsesOn command turn.game room pairing key index target)
      (first : turn.game.world.FirstRule key.name target.name pairing.preposition rule)
      (unlocks : rule.effect = .unlock text) (h : target.locked = false) :
      UseEnds command turn room
        (.failed (.refused s!"The {target.name} is already unlocked.") turn)
  /-- The target loses its lock, and what was inside comes to the end of the floor. -/
  | opens {pairing : Pairing} {key target : Item} {index : Nat} {rule : UseRule}
      {text : Option String} {after : Game}
      (found : UsesOn command turn.game room pairing key index target)
      (first : turn.game.world.FirstRule key.name target.name pairing.preposition rule)
      (unlocks : rule.effect = .unlock text) (locked : target.locked = true)
      (h : turn.game.FloorBecomes after
        (room.items.set index { target with locked := false, contents := [] } ++ target.contents)) :
      UseEnds command turn room (.done
        { game := after
          output := (turn.output.say
            (text.getD s!"You unlock the {target.name} with the {key.name}.")).event
              (spillMessage target) })

section

variable {command : Command} {turn : Turn} {room : Room}

theorem unlockAt_of_unlocked (hroom : turn.game.currentRoom = .ok room) {index : Nat}
    {target : Item} (hitem : room.items[index]? = some target) (hlocked : target.locked = false)
    (keyName : String) (text : Option String) : unlockAt index keyName text turn =
      .failed (.refused s!"The {target.name} is already unlocked.") turn := by
  simp [unlockAt, hroom, hitem, hlocked]

theorem unlockAt_of_locked (hroom : turn.game.currentRoom = .ok room) {index : Nat} {target : Item}
    (hitem : room.items[index]? = some target) (hlocked : target.locked = true) (keyName : String)
    (text : Option String) : unlockAt index keyName text turn = .done
      { game := turn.game.withFloor (room.items.set index target.opened ++ target.contents)
        output := (turn.output.say
          (text.getD s!"You unlock the {target.name} with the {keyName}.")).event
            (spillMessage target) } := by
  simp [unlockAt, hroom, hitem, hlocked]

/-- **Each use ends in one of these ways.** -/
theorem useItem_ends (hroom : turn.game.currentRoom = .ok room) (command : Command) :
    UseEnds command turn room (useItem command turn) := by
  unfold useItem
  cases hfound : findUsing command turn.game with
  | error error =>
    rcases (findUsing_eq_error_iff hroom).mp hfound with ⟨hnone, rfl⟩ |
      ⟨pairing, hparts, hkey | ⟨⟨place, key, hkey⟩, htarget⟩⟩
    · exact .unpaired hnone
    · exact .noKey hparts hkey
    · exact .noTarget hparts hkey htarget
  | ok found =>
    obtain ⟨pairing, huses, hpreposition⟩ := (findUsing_eq_ok_iff_usesOn hroom).mp hfound
    dsimp only
    rw [hpreposition]
    cases heffect : turn.game.world.effectOf? found.item.name found.target.name
        pairing.preposition with
    | none => exact .noRule huses (effectOf?_eq_none_iff.mp heffect)
    | some effect =>
      obtain ⟨rule, hfirst, rfl⟩ := effectOf?_eq_some_iff.mp heffect
      cases hrule : rule.effect with
      | message text => exact .message huses hfirst hrule
      | unlock text =>
        cases hlocked : found.target.locked with
        | false =>
          dsimp only
          rw [unlockAt_of_unlocked hroom huses.on_floor.lies hlocked]
          exact .unlocked huses hfirst hrule hlocked
        | true =>
          dsimp only
          rw [unlockAt_of_locked hroom huses.on_floor.lies hlocked]
          exact .opens huses hfirst hrule hlocked (Game.floorBecomes_iff.mpr rfl)

/-- A use of one item on another is decided by the first rule. -/
theorem useItem_of_usesOn (hroom : turn.game.currentRoom = .ok room) {pairing : Pairing}
    {key target : Item} {index : Nat}
    (huses : UsesOn command turn.game room pairing key index target) :
    useItem command turn =
      match turn.game.world.effectOf? key.name target.name pairing.preposition with
      | some (.unlock text) => unlockAt index key.name text turn
      | some (.message text) => .done (turn.say text)
      | none => .done (turn.say
        s!"You use the {key.name} {pairing.preposition} the {target.name}. It doesn't work.") := by
  have hfound : findUsing command turn.game = .ok ⟨key, pairing.preposition, target, index⟩ :=
    (findUsing_eq_ok_iff_usesOn hroom).mpr ⟨pairing, huses, rfl⟩
  cases heffect : turn.game.world.effectOf? key.name target.name pairing.preposition with
  | none => simp only [useItem, hfound, heffect]
  | some effect => cases effect <;> simp only [useItem, hfound, heffect]

/-- **No use ends in two of these ways.** -/
theorem UseEnds.useItem_eq (hroom : turn.game.currentRoom = .ok room) {outcome : Outcome}
    (h : UseEnds command turn room outcome) : useItem command turn = outcome := by
  have of_error : ∀ error, findUsing command turn.game = .error error →
      useItem command turn = .failed error turn := by
    intro error herror
    rw [useItem, herror]
  cases h with
  | unpaired h => exact of_error _ ((findUsing_eq_error_iff hroom).mpr (Or.inl ⟨h, rfl⟩))
  | @noKey pairing error parts h =>
    exact of_error _ ((findUsing_eq_error_iff hroom).mpr (Or.inr ⟨pairing, parts, Or.inl h⟩))
  | @noTarget pairing place key error parts carried h =>
    exact of_error _ ((findUsing_eq_error_iff hroom).mpr
      (Or.inr ⟨pairing, parts, Or.inr ⟨⟨place, key, carried⟩, h⟩⟩))
  | noRule found h => rw [useItem_of_usesOn hroom found, effectOf?_eq_none_iff.mpr h]
  | @message pairing key target index rule text found first h =>
    rw [useItem_of_usesOn hroom found, effectOf?_eq_some_iff.mpr ⟨rule, first, h⟩]
  | @unlocked pairing key target index rule text found first unlocks h =>
    rw [useItem_of_usesOn hroom found, effectOf?_eq_some_iff.mpr ⟨rule, first, unlocks⟩]
    exact unlockAt_of_unlocked hroom found.on_floor.lies h _ _
  | @opens pairing key target index rule text after found first unlocks locked h =>
    rw [useItem_of_usesOn hroom found, effectOf?_eq_some_iff.mpr ⟨rule, first, unlocks⟩]
    obtain rfl := Game.floorBecomes_iff.mp h
    exact unlockAt_of_locked hroom found.on_floor.lies locked _ _

/-- A use changes nothing in the game unless it gets to the lock. -/
theorem UseEnds.game_eq {outcome : Outcome} (h : UseEnds command turn room outcome)
    (hnot : ∀ pairing key index target rule text,
      UsesOn command turn.game room pairing key index target →
      turn.game.world.FirstRule key.name target.name pairing.preposition rule →
      rule.effect = .unlock text → target.locked = false) : outcome.turn.game = turn.game := by
  cases h with
  | opens found first unlocks locked h =>
    have hunlocked := hnot _ _ _ _ _ _ found first unlocks
    rw [locked] at hunlocked
    cases hunlocked
  | _ => rfl

end

/-- **What a use comes to** in a room that exists is decided by the first question that is answered
with no, and by all that are answered with yes if none is. Unless the first rule for the two items
unlocks, and the target is locked, nothing in the game changes. The phrases of a command that was
typed are heard as the words on both sides of its preposition. -/
theorem use_ends_by_first_failure {turn : Turn} {room : Room}
    (hroom : turn.game.currentRoom = .ok room) (command : Command) :
    (∀ outcome, useItem command turn = outcome ↔ UseEnds command turn room outcome) ∧
    ((∀ pairing key index target rule text,
        UsesOn command turn.game room pairing key index target →
        turn.game.world.FirstRule key.name target.name pairing.preposition rule →
        rule.effect = .unlock text → target.locked = false) →
      (useItem command turn).turn.game = turn.game) ∧
    ∀ line, Command.parse line = .ok command → ∀ pairing : Pairing, pairing.Parts command.args →
      phraseWords pairing.itemPhrase = pairing.item ∧
        phraseWords pairing.targetPhrase = pairing.target := by
  refine ⟨?_, ?_, ?_⟩
  · intro outcome
    constructor
    · rintro rfl
      exact useItem_ends hroom command
    · exact UseEnds.useItem_eq hroom
  · exact (useItem_ends hroom command).game_eq
  · intro line hparse pairing hparts
    exact hparts.phraseWords_eq (typable_of_parse hparse)

/-- A room with a lamp and a locked box that holds a coin and a gem. -/
def workshopRoom : Room :=
  ⟨"a", "", "", [{ Item.make "b" "box" "" with
      locked := true, contents := [Item.make "c" "coin" "", Item.make "g" "gem" ""] },
    Item.make "l" "lamp" ""]⟩

/-- A player with a key in that room. The first rule for the key and the box is only for "to", and
the last one comes after one that unlocks. -/
def workshop : Game where
  world :=
    { id := "w", name := "", desc := "", startRoom := "a"
      rooms := Table.empty.insert "a" workshopRoom, exits := Table.empty
      useRules := [⟨"key", "box", ["to"], .message "They do not match."⟩,
        ⟨"KEY", "Box", [], .unlock none⟩, ⟨"key", "box", [], .message "It is stuck."⟩]
      startingInventory := [] }
  player := { room := "a", inventory := [Item.make "k" "key" ""] }

/-- There, a line that uses the key with the box comes to what is said of uses: the words are heard
as they are, the box is open where it was, and the coin and the gem lie behind the lamp. A use of
the box alone changes nothing. -/
theorem workshop_box_opens : ∃ command,
    Command.parse "Use the KEY with my box" = .ok command ∧
    workshop.currentRoom = .ok workshopRoom ∧
    UseEnds command ⟨workshop, Output.empty⟩ workshopRoom
      (useItem command ⟨workshop, Output.empty⟩) ∧
    ((useItem command ⟨workshop, Output.empty⟩).turn.game.currentRoom.toOption.map fun room =>
      room.items.map fun item => (item.id, item.locked, item.contents.length)) =
      some [("b", false, 0), ("l", false, 0), ("c", false, 0), ("g", false, 0)] ∧
    (∃ pairing : Pairing, pairing.Parts command.args ∧
      phraseWords pairing.targetPhrase = pairing.target) ∧
    (useItem ⟨"use", ["box"], []⟩ ⟨workshop, Output.empty⟩).turn.game = workshop := by
  have hroom : workshop.currentRoom = .ok workshopRoom := by rfl
  have hparse : Command.parse "Use the KEY with my box" =
      .ok ⟨"use", ["key", "with", "box"], [["key", "with", "box"]]⟩ := by decide
  have hread : Pairing.ofWords ["key", "with", "box"] useUsage =
      .ok ⟨["key"], "with", ["box"]⟩ := by decide
  have hparts := Pairing.ofWords_eq_ok_iff.mp hread
  have hends := @use_ends_by_first_failure ⟨workshop, Output.empty⟩ workshopRoom hroom
  refine ⟨_, hparse, hroom, ((hends _).1 _).mp rfl, by decide +kernel,
    ⟨_, hparts, ((hends _).2.2 _ hparse _ hparts).2⟩, (hends _).2.1 ?_⟩
  intro pairing key index target rule text huses
  have hwords : Pairing.ofWords ["box"] useUsage = .ok pairing :=
    Pairing.ofWords_eq_ok_iff.mpr huses.parts
  exact nomatch hwords

end Adventure
