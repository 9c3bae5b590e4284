import Adventure.Proofs.Carrying

/-!
# Carried there and back

An item that is carried to the other holder lies last there. The same phrase then finds it once
more, unless something in front of it goes by the phrase as well
(`resolveExact_concat_eq_found_iff`). So an item that is taken and dropped by one phrase comes to
the end of the floor, and nothing else is changed, exactly when nothing that was carried before goes
by the phrase.

What the phrase fits word by word does not matter, neither there nor back: that is asked for only
where nothing goes by the whole phrase.

Results:

* `carried_there_and_back`: taking and then dropping, and dropping and then taking.
-/

namespace Adventure

section

variable {game : Game} {room : Room} {holder : Holder} {items others : List Item} {item : Item}
  {phrase : String} {words : List String} {l : Located}

/-! ## Found again -/

theorem exactHits_concat (h : item.matchesAlias (phraseWords phrase) = true) (holder : Holder)
    (others : List Item) : exactHits holder (others ++ [item]) phrase =
      exactHits holder others phrase ++ [⟨holder, others.length, item⟩] := by
  simp [exactHits, locate, List.mapIdx_append, h]

/-- **An item that lies last is found by a phrase that it goes by** when nothing in front of it goes
by the phrase, and else nothing is found. -/
theorem resolveExact_concat_eq_found_iff (holder : Holder)
    (h : item.matchesAlias (phraseWords phrase) = true) :
    resolveExact holder (others ++ [item]) phrase = .found l ↔
      (∀ other ∈ others, heard phrase ∉ other.aliases) ∧ l = ⟨holder, others.length, item⟩ := by
  rw [resolveExact_eq_found_iff_hits, exactHits_concat h,
    ← exactHits_eq_nil_iff (matchesAlias_iff.mp h).1 holder, List.append_eq_singleton_iff]
  simp [eq_comm]

/-- So it is carried back, or stays. -/
theorem carryPhrase_concat (holder : Holder) (h : game.currentRoom = .ok room)
    (hitem : item.matchesAlias (phraseWords (Text.joinWords words)) = true)
    (others items : List Item) (output : Output) :
    ∃ shown, holder.carryPhrase words ⟨game.arranged holder (others ++ [item]) items, output⟩ =
      .done
        { game := if ∀ other ∈ others, heard (Text.joinWords words) ∉ other.aliases then
              game.arranged holder others (items ++ [item])
            else game.arranged holder (others ++ [item]) items
          output := shown } := by
  split
  next hno =>
    have hcarried := carryPhrase_of_found h
      ((resolveExact_concat_eq_found_iff holder hitem).mpr ⟨hno, rfl⟩) items output
    rw [List.eraseIdx_append_of_length_le (Nat.le_refl _), Nat.sub_self, List.eraseIdx_cons_zero,
      List.append_nil] at hcarried
    exact ⟨_, hcarried⟩
  next hsome =>
    refine carryPhrase_of_not_found h (fun l hfound => hsome ?_) items output
    exact ((resolveExact_concat_eq_found_iff holder hitem).mp hfound).1

/-! ## Both ways -/

/-- An item is with one holder only. -/
theorem Game.arranged_ne (game : Game) (holder : Holder) (items others : List Item) (item : Item) :
    game.arranged holder items (others ++ [item]) ≠
      game.arranged holder (items ++ [item]) others := by
  intro hsame
  cases holder with
  | room =>
    have hinventory : others ++ [item] = others := congrArg (·.player.inventory) hsame
    simp at hinventory
  | inventory =>
    have hinventory : items = items ++ [item] := congrArg (·.player.inventory) hsame
    simp at hinventory

/-- **An item that is carried there and back by one phrase** is moved to the end of where it lay
when nothing that was at the other holder goes by the phrase, and only then. -/
theorem there_and_back (h : game.currentRoom = .ok room) {there back : Command}
    (hthere : there.AsksFor words) (hback : back.AsksFor words)
    (hfound : resolveExact holder items (Text.joinWords words) = .found l) (others : List Item)
    (output shown : Output) :
    ∃ mid after, holder.action.run there ⟨game.arranged holder items others, output⟩ = .done mid ∧
      holder.other.action.run back ⟨mid.game, shown⟩ = .done after ∧
      (after.game = game.arranged holder (items.eraseIdx l.index ++ [l.item]) others ↔
        ∀ other ∈ others, heard (Text.joinWords words) ∉ other.aliases) := by
  have hplaced :
      ∀ items others output, Turn.Placed ⟨game.arranged holder items others, output⟩ := by
    intro items others output
    cases holder <;> exact ⟨_, Game.currentRoom_withFloor h _⟩
  obtain ⟨-, hfits⟩ := (resolveExact_eq_found_iff.mp hfound).1
  obtain ⟨after, hafter⟩ := carryPhrase_concat holder.other h hfits others
    (items.eraseIdx l.index) shown
  simp only [Game.arranged_other] at hafter
  have hcarried := carryPhrase_of_found h hfound others output
  rw [← run_asksFor hthere (hplaced items others output) holder] at hcarried
  rw [← run_asksFor hback (hplaced _ _ shown) holder.other] at hafter
  refine ⟨_, _, hcarried, hafter, ?_, fun hno => if_pos hno⟩
  intro hsame other hother halias
  rw [if_neg fun hno => hno other hother halias] at hsame
  exact game.arranged_ne holder _ _ _ hsame

end

/-- **Taking a thing and dropping it by the same phrase moves it to the end of the floor** and
changes nothing else, and dropping it and taking it moves it to the end of what is carried. That is
so when nothing that lay at the other holder goes by the phrase, and only then. -/
theorem carried_there_and_back {turn : Turn} {room : Room}
    (hroom : turn.game.currentRoom = .ok room) {words : List String} {taking dropping : Command}
    (htaking : taking.AsksFor words) (hdropping : dropping.AsksFor words) (output : Output) :
    (∀ l, resolveExact .room room.items (Text.joinWords words) = .found l →
      ∃ mid after, take taking turn = .done mid ∧ drop dropping ⟨mid.game, output⟩ = .done after ∧
        (after.game = turn.game.withFloor (room.items.eraseIdx l.index ++ [l.item]) ↔
          ∀ item ∈ turn.game.player.inventory, heard (Text.joinWords words) ∉ item.aliases)) ∧
    ∀ l, resolveExact .inventory turn.game.player.inventory (Text.joinWords words) = .found l →
      ∃ mid after, drop dropping turn = .done mid ∧ take taking ⟨mid.game, output⟩ = .done after ∧
        (after.game = turn.game.withInventory
            (turn.game.player.inventory.eraseIdx l.index ++ [l.item]) ↔
          ∀ item ∈ room.items, heard (Text.joinWords words) ∉ item.aliases) := by
  obtain ⟨game, before⟩ := turn
  have hself := game.arranged_self hroom
  constructor
  · intro l hfound
    have hboth := there_and_back hroom htaking hdropping hfound game.player.inventory before output
    have hturn : game.arranged .room room.items game.player.inventory = game := hself .room
    rw [hturn] at hboth
    exact hboth
  · intro l hfound
    have hboth := there_and_back hroom hdropping htaking hfound room.items before output
    have hturn : game.arranged .inventory game.player.inventory room.items = game :=
      hself .inventory
    rw [hturn] at hboth
    have hfloor :
        game.arranged .inventory (game.player.inventory.eraseIdx l.index ++ [l.item]) room.items =
          game.withInventory (game.player.inventory.eraseIdx l.index ++ [l.item]) :=
      Game.withFloor_self hroom
    rw [hfloor] at hboth
    exact hboth

/-- In the vault the lamp that is taken and dropped comes to lie behind the coins, and the key that
is dropped and taken is in the player's hands again. -/
theorem vault_lamp_there_and_back :
    (∃ mid after, take ⟨"take", ["lamp"], [["lamp"]]⟩ ⟨vaultWithKey, Output.empty⟩ = .done mid ∧
      drop ⟨"drop", ["lamp"], [["lamp"]]⟩ ⟨mid.game, Output.empty⟩ = .done after ∧
      after.game = vaultWithKey.withFloor
        [Item.make "c" "coin" "", Item.make "d" "coin" "", Item.make "l" "lamp" ""]) ∧
    ∃ mid after, drop ⟨"drop", ["key"], [["key"]]⟩ ⟨vaultWithKey, Output.empty⟩ = .done mid ∧
      take ⟨"take", ["key"], [["key"]]⟩ ⟨mid.game, Output.empty⟩ = .done after ∧
      after.game = vaultWithKey := by
  have asksFor : ∀ verb word, word ≠ "all" → Command.AsksFor ⟨verb, [word], [[word]]⟩ [word] :=
    fun verb word hall =>
      ⟨rfl, beq_eq_false_iff_ne.mpr fun hwords => hall (List.singleton_inj.mp hwords)⟩
  have hlamp : resolveExact .room
      [Item.make "c" "coin" "", Item.make "l" "lamp" "", Item.make "d" "coin" ""] "lamp" =
      .found ⟨.room, 1, Item.make "l" "lamp" ""⟩ := by
    rfl
  have hkey : resolveExact .inventory [Item.make "k" "key" ""] "key" =
      .found ⟨.inventory, 0, Item.make "k" "key" ""⟩ := by
    rfl
  have hroom : vaultWithKey.currentRoom = .ok ⟨"a", "", "",
      [Item.make "c" "coin" "", Item.make "l" "lamp" "", Item.make "d" "coin" ""]⟩ := rfl
  obtain ⟨mid, after, htaken, hdropped, hgame⟩ := (@carried_there_and_back
    ⟨vaultWithKey, Output.empty⟩ _ hroom ["lamp"] _ _ (asksFor "take" "lamp" (by decide))
    (asksFor "drop" "lamp" (by decide)) Output.empty).1 _ hlamp
  obtain ⟨mid', after', hdropped', htaken', hgame'⟩ := (@carried_there_and_back
    ⟨vaultWithKey, Output.empty⟩ _ hroom ["key"] _ _ (asksFor "take" "key" (by decide))
    (asksFor "drop" "key" (by decide)) Output.empty).2 _ hkey
  exact ⟨⟨mid, after, htaken, hdropped, hgame.mpr (by decide)⟩,
    mid', after', hdropped', htaken', hgame'.mpr (by decide)⟩

end Adventure
