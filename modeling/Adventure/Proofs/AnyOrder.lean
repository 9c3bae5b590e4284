import Adventure.Proofs.Carrying

/-!
# Things are carried in any order

Phrases that name one thing each, and no two the same, are carried out to the same end in any order.
Carrying one thing away shifts the places of the others and leaves fewer to choose from, but what is
left still has the same things that the other phrases name (`NamesApart.tail`). So the phrases can
be gone through one by one (`forEach_carryPhrase`), and where the things lay is then what none of
the phrases names, in the order in which it lay.

What is asked of the words of a phrase goes for all that is typed (`Command.Typable.asHeard`).

Results:

* `carried_in_any_order`: taking and dropping such a list of things in every order.
-/

namespace Adventure

open scoped List

/-! ## What a phrase names -/

/-- The words of a phrase, joined, are an alias of the item. -/
def Item.AnswersTo (phrase : List String) (item : Item) : Prop :=
  Text.joinWords phrase ∈ item.aliases

instance (phrase : List String) : DecidablePred (Item.AnswersTo phrase) := fun item =>
  inferInstanceAs (Decidable (Text.joinWords phrase ∈ item.aliases))

/-- The item answers to none of the phrases. -/
def Item.Unnamed (phrases : List (List String)) (item : Item) : Prop :=
  ∀ phrase ∈ phrases, ¬ item.AnswersTo phrase

instance (phrases : List (List String)) : DecidablePred (Item.Unnamed phrases) := fun item =>
  inferInstanceAs (Decidable (∀ phrase ∈ phrases, ¬ item.AnswersTo phrase))

theorem Item.unnamed_cons_iff {phrase : List String} {phrases : List (List String)} {item : Item} :
    item.Unnamed (phrase :: phrases) ↔ ¬ item.AnswersTo phrase ∧ item.Unnamed phrases :=
  List.forall_mem_cons

/-- There are words, and joined they are heard as they are, as is so for all that is left of what
was typed. -/
structure AsHeard (phrase : List String) : Prop where
  nonempty : phrase ≠ []
  heard_same : phraseWords (Text.joinWords phrase) = phrase

instance (phrase : List String) : Decidable (AsHeard phrase) :=
  decidable_of_iff (phrase ≠ [] ∧ phraseWords (Text.joinWords phrase) = phrase)
    ⟨fun ⟨hnonempty, hsame⟩ => ⟨hnonempty, hsame⟩, fun ⟨hnonempty, hsame⟩ => ⟨hnonempty, hsame⟩⟩

/-- The phrases of a command that can be typed are heard as they are. -/
theorem Command.Typable.asHeard {command : Command} (h : command.Typable) :
    ∀ phrase ∈ command.phrases, AsHeard phrase := by
  intro phrase hphrase
  refine ⟨h.nonempty phrase hphrase, h.phraseWords_eq fun word hword => ?_⟩
  exact h.flatten ▸ List.mem_flatten_of_mem hphrase hword

theorem AsHeard.heard_eq {phrase : List String} (h : AsHeard phrase) :
    heard (Text.joinWords phrase) = Text.joinWords phrase := by
  rw [heard, h.heard_same]

theorem AsHeard.matchesAlias_iff {phrase : List String} (h : AsHeard phrase) {item : Item} :
    item.matchesAlias (phraseWords (Text.joinWords phrase)) = true ↔ item.AnswersTo phrase := by
  have hnonempty : Text.joinWords phrase ≠ "" := by
    intro hempty
    have hsame := h.heard_same
    rw [hempty] at hsame
    exact h.nonempty hsame.symm
  rw [Adventure.matchesAlias_iff, h.heard_eq]
  exact and_iff_right hnonempty

/-- Each of the phrases names one of the items, and no two the same. -/
structure NamesApart (items : List Item) (phrases : List (List String))
    (named : List String → Item) : Prop where
  as_heard : ∀ phrase ∈ phrases, AsHeard phrase
  only : ∀ phrase ∈ phrases, items.filter (·.AnswersTo phrase) = [named phrase]
  distinct : (phrases.map named).Nodup

section

variable {items : List Item} {phrase : List String} {phrases given : List (List String)}
  {named : List String → Item}

theorem NamesApart.perm (h : NamesApart items phrases named) (hgiven : given ~ phrases) :
    NamesApart items given named where
  as_heard := fun phrase hphrase => h.as_heard phrase (hgiven.mem_iff.mp hphrase)
  only := fun phrase hphrase => h.only phrase (hgiven.mem_iff.mp hphrase)
  distinct := (hgiven.map named).nodup_iff.mpr h.distinct

/-- **What is left without the first thing still has those that the other phrases name.** -/
theorem NamesApart.tail (h : NamesApart items (phrase :: phrases) named) :
    NamesApart (items.filter fun item => ¬ item.AnswersTo phrase) phrases named where
  as_heard := fun other hother => h.as_heard other (List.mem_cons_of_mem _ hother)
  only := by
    intro other hother
    have honly := h.only other (List.mem_cons_of_mem _ hother)
    -- an item that answers to both phrases would be what each of them names
    have hnot : ¬ (named other).AnswersTo phrase := by
      intro hanswers
      have hmem : named other ∈ items.filter (·.AnswersTo other) := by simp [honly]
      have hboth : named other ∈ items.filter (·.AnswersTo phrase) :=
        List.mem_filter.mpr ⟨(List.mem_filter.mp hmem).1, decide_eq_true hanswers⟩
      rw [h.only phrase List.mem_cons_self, List.mem_singleton] at hboth
      exact (List.nodup_cons.mp h.distinct).1 (hboth ▸ List.mem_map_of_mem hother)
    rw [List.filter_comm, honly]
    exact List.filter_cons_of_pos (decide_eq_true hnot)
  distinct := (List.nodup_cons.mp h.distinct).2

theorem filter_unnamed_cons (items : List Item) (phrase : List String)
    (phrases : List (List String)) :
    (items.filter fun item => ¬ item.AnswersTo phrase).filter (·.Unnamed phrases) =
      items.filter (·.Unnamed (phrase :: phrases)) := by
  rw [List.filter_filter]
  refine List.filter_congr fun item _ => ?_
  rw [Bool.eq_iff_iff, Bool.and_eq_true, decide_eq_true_iff, decide_eq_true_iff,
    decide_eq_true_iff, Item.unnamed_cons_iff]
  exact and_comm

/-! ## Finding it -/

/-- Where one element of a list passes a test, taking it out leaves those that do not. -/
theorem eraseIdx_eq_filter {α : Type} {p : α → Prop} [DecidablePred p] {l : List α} {index : Nat}
    {a : α} (ha : l[index]? = some a) (hp : p a)
    (honly : ∀ (i : Nat) (b : α), l[i]? = some b → p b → i = index) :
    l.eraseIdx index = l.filter fun b => ¬ p b := by
  induction l generalizing index with
  | nil => rfl
  | cons b l ih =>
    cases index with
    | zero =>
      obtain rfl := Option.some.inj ha
      have hrest : ∀ c ∈ l, ¬ p c := by
        intro c hc hpc
        obtain ⟨i, hi⟩ := List.mem_iff_getElem?.mp hc
        exact nomatch honly (i + 1) c hi hpc
      rw [List.eraseIdx_cons_zero, List.filter_cons_of_neg (by simpa using hp),
        List.filter_eq_self.mpr fun c hc => decide_eq_true (hrest c hc)]
    | succ index =>
      have hb : ¬ p b := fun hpb => nomatch honly 0 b rfl hpb
      have hrest := ih ha fun i c hc hpc => Nat.succ.inj (honly (i + 1) c hc hpc)
      rw [List.eraseIdx_cons_succ, hrest]
      exact (List.filter_cons_of_pos (by simpa using hb)).symm

/-- A phrase that one item answers to finds it, and the others are left. -/
theorem exists_resolveExact_of_only (hheard : AsHeard phrase) {item : Item} (holder : Holder)
    (honly : items.filter (·.AnswersTo phrase) = [item]) :
    ∃ l, resolveExact holder items (Text.joinWords phrase) = .found l ∧ l.item = item ∧
      items.eraseIdx l.index = items.filter fun item => ¬ item.AnswersTo phrase := by
  have hcount : items.countP (·.AnswersTo phrase) = 1 := by
    rw [List.countP_eq_length_filter, honly, List.length_singleton]
  obtain ⟨index, found, hfound, hanswers, hunique⟩ := exists_only_of_countP hcount
  simp only [decide_eq_true_iff] at hanswers hunique
  have hmem : found ∈ items.filter (·.AnswersTo phrase) :=
    List.mem_filter.mpr ⟨List.mem_of_getElem? hfound, decide_eq_true hanswers⟩
  rw [honly, List.mem_singleton] at hmem
  refine ⟨⟨holder, index, found⟩, ?_, hmem, eraseIdx_eq_filter hfound hanswers hunique⟩
  obtain ⟨hnonempty, halias⟩ := matchesAlias_iff.mp (hheard.matchesAlias_iff.mpr hanswers)
  refine resolveExact_of_alias holder hfound hnonempty halias fun i other hother hsame => ?_
  exact hunique i other hother
      (hheard.matchesAlias_iff.mp (matchesAlias_iff.mpr ⟨hnonempty, hsame⟩))

/-! ## One phrase after the other -/

/-- **What is left and what is gone** make up the items. -/
theorem NamesApart.partsInto (h : NamesApart items phrases named) :
    PartsInto items (items.filter (·.Unnamed phrases)) (phrases.map named) where
  in_order := List.filter_sublist
  perm := by
    induction phrases generalizing items with
    | nil => simp [Item.Unnamed]
    | cons phrase phrases ih =>
      have honly := h.only phrase List.mem_cons_self
      have hparts := List.filter_append_perm (fun item : Item => item.AnswersTo phrase) items
      simp only [← decide_not] at hparts
      calc items
          ~ items.filter (·.AnswersTo phrase) ++ items.filter fun item => ¬ item.AnswersTo phrase :=
            hparts.symm
        _ = named phrase :: items.filter fun item => ¬ item.AnswersTo phrase := by
            rw [honly, List.singleton_append]
        _ ~ named phrase ::
              (items.filter (·.Unnamed (phrase :: phrases)) ++ phrases.map named) := by
            rw [← filter_unnamed_cons]
            exact (ih h.tail).cons _
        _ ~ items.filter (·.Unnamed (phrase :: phrases)) ++ (phrase :: phrases).map named :=
            List.perm_middle.symm

/-- **Going through such phrases carries all that they name**, in the order of the phrases. -/
theorem forEach_carryPhrase (holder : Holder) {game : Game} {room : Room}
    (hroom : game.currentRoom = .ok room) (h : NamesApart items phrases named) (others : List Item)
    (output : Output) :
    forEach holder.carryPhrase phrases ⟨game.arranged holder items others, output⟩ = .done
      ⟨game.arranged holder (items.filter (·.Unnamed phrases)) (others ++ phrases.map named),
        output.telling holder (phrases.map named)⟩ := by
  induction phrases generalizing items others output with
  | nil =>
    have hall : items.filter (·.Unnamed []) = items :=
      List.filter_eq_self.mpr (by simp [Item.Unnamed])
    rw [List.map_nil, List.append_nil, Output.telling_nil, hall]
    rfl
  | cons phrase phrases ih =>
    -- where the thing lay does not matter, only that without it the other phrases name the same
    obtain ⟨l, hfound, hitem, hleft⟩ := exists_resolveExact_of_only
      (h.as_heard phrase List.mem_cons_self) holder (h.only phrase List.mem_cons_self)
    rw [forEach, carryPhrase_of_found hroom hfound, Outcome.andThen, hleft, hitem, ih h.tail,
      filter_unnamed_cons, Output.telling_cons, ← List.append_cons, List.map_cons]

/-- **Carrying such a list of things away** comes to the same in every order, but for the order in
which they lie at the other holder and in which it is told. -/
theorem run_in_any_order (holder : Holder) {turn : Turn} {room : Room}
    (hroom : turn.game.currentRoom = .ok room)
    (h : NamesApart (holder.items room.items turn.game.player.inventory) phrases named)
    (hsome : phrases ≠ []) (hall : phrases ≠ [["all"]]) {command : Command}
    (hargs : command.args = command.phrases.flatten) (hgiven : command.phrases ~ phrases) :
    holder.action.run command turn = .done
      { game := turn.game.arranged holder
          ((holder.items room.items turn.game.player.inventory).filter (·.Unnamed phrases))
          (holder.other.items room.items turn.game.player.inventory ++ command.phrases.map named)
        output := turn.output.telling holder (command.phrases.map named) } := by
  obtain ⟨game, output⟩ := turn
  have hnamed := h.perm hgiven
  have htyped : command.phrases ≠ [] := by
    intro hnil
    rw [hnil] at hgiven
    exact hsome hgiven.nil_eq.symm
  have hnotAll : command.isAll = false := by
    refine beq_eq_false_iff_ne.mpr fun hwords => hall ?_
    rw [hargs] at hwords
    have hsingle := eq_singleton_of_flatten
      (fun phrase hphrase => (hnamed.as_heard phrase hphrase).nonempty) hwords
    rw [hsingle] at hgiven
    exact (List.singleton_perm.mp hgiven).symm
  have hunnamed : Item.Unnamed command.phrases = Item.Unnamed phrases :=
    funext fun item => propext (forall_congr' fun phrase => imp_congr_left hgiven.mem_iff)
  have hcarried := forEach_carryPhrase holder hroom hnamed
    (holder.other.items room.items game.player.inventory) output
  rw [game.arranged_self hroom holder] at hcarried
  rw [holder.goesThrough.run_eq command _ ⟨room, hroom⟩ htyped hnotAll, hcarried]
  simp only [hunnamed]

end

/-- **Phrases that name one thing each, and no two the same, take and drop these things in any
order.** The things are those that the phrases name, one line is said for each, and what is left is
what the phrases do not name, in its order. The order of the phrases is only the order in which the
things are carried over and told of. -/
theorem carried_in_any_order {turn : Turn} {room : Room} (hroom : turn.game.currentRoom = .ok room)
    {phrases : List (List String)} (hsome : phrases ≠ []) (hall : phrases ≠ [["all"]])
    (named : List String → Item) :
    (NamesApart room.items phrases named →
      PartsInto room.items (room.items.filter (·.Unnamed phrases)) (phrases.map named) ∧
      ∀ command : Command, command.phrases ~ phrases → command.args = command.phrases.flatten →
        take command turn = .done
          { game := (turn.game.withFloor (room.items.filter (·.Unnamed phrases))).withInventory
              (turn.game.player.inventory ++ command.phrases.map named)
            output := ⟨turn.output.blocks ++ (command.phrases.map named).map fun item =>
              ⟨.text, s!"You take the {item.name}."⟩⟩ }) ∧
    (NamesApart turn.game.player.inventory phrases named →
      PartsInto turn.game.player.inventory
        (turn.game.player.inventory.filter (·.Unnamed phrases)) (phrases.map named) ∧
      ∀ command : Command, command.phrases ~ phrases → command.args = command.phrases.flatten →
        drop command turn = .done
          { game := (turn.game.withInventory
                (turn.game.player.inventory.filter (·.Unnamed phrases))).withFloor
              (room.items ++ command.phrases.map named)
            output := ⟨turn.output.blocks ++ (command.phrases.map named).map fun item =>
              ⟨.text, s!"You drop the {item.name}."⟩⟩ }) := by
  refine ⟨fun hnamed => ⟨hnamed.partsInto, fun command hgiven hargs => ?_⟩,
    fun hnamed => ⟨hnamed.partsInto, fun command hgiven hargs => ?_⟩⟩
  · exact run_in_any_order .room hroom hnamed hsome hall hargs hgiven
  · exact run_in_any_order .inventory hroom hnamed hsome hall hargs hgiven

/-- A player who carries a rope and a sword, in a vault with a coin, a lamp and an iron key. -/
def vaultWithRope : Game :=
  (vault.withFloor
    [Item.make "c" "coin" "", Item.make "l" "lamp" "", Item.make "k" "iron key" ""]).withInventory
    [Item.make "r" "rope" "", Item.make "s" "sword" ""]

/-- There "take" with the key in front of the coin leaves the lamp, as with the coin in front of the
key, and the sword and the rope are dropped in the order in which they are asked for. -/
theorem vault_emptied_backwards : ∃ taking dropping : Command,
    Command.parse "take the Iron Key and coin" = .ok taking ∧
    Command.parse "drop sword and rope" = .ok dropping ∧
    take taking ⟨vaultWithRope, Output.empty⟩ = .done
      { game := (vaultWithRope.withFloor [Item.make "l" "lamp" ""]).withInventory
          [Item.make "r" "rope" "", Item.make "s" "sword" "",
            Item.make "k" "iron key" "", Item.make "c" "coin" ""]
        output := ⟨[⟨.text, "You take the iron key."⟩, ⟨.text, "You take the coin."⟩]⟩ } ∧
    drop dropping ⟨vaultWithRope, Output.empty⟩ = .done
      { game := (vaultWithRope.withInventory []).withFloor
          [Item.make "c" "coin" "", Item.make "l" "lamp" "", Item.make "k" "iron key" "",
            Item.make "s" "sword" "", Item.make "r" "rope" ""]
        output := ⟨[⟨.text, "You drop the sword."⟩, ⟨.text, "You drop the rope."⟩]⟩ } := by
  have hroom : vaultWithRope.currentRoom = .ok ⟨"a", "", "",
      [Item.make "c" "coin" "", Item.make "l" "lamp" "", Item.make "k" "iron key" ""]⟩ := rfl
  have htaking : Command.parse "take the Iron Key and coin" =
      .ok ⟨"take", ["iron", "key", "coin"], [["iron", "key"], ["coin"]]⟩ := by decide
  have hdropping : Command.parse "drop sword and rope" =
      .ok ⟨"drop", ["sword", "rope"], [["sword"], ["rope"]]⟩ := by decide
  have hfloor : NamesApart
      [Item.make "c" "coin" "", Item.make "l" "lamp" "", Item.make "k" "iron key" ""]
      [["coin"], ["iron", "key"]]
      fun phrase =>
        if phrase = ["coin"] then Item.make "c" "coin" "" else Item.make "k" "iron key" "" :=
    { as_heard := by decide
      only := List.forall_mem_cons.mpr ⟨rfl, List.forall_mem_singleton.mpr rfl⟩
      distinct := List.nodup_cons.mpr ⟨fun hsame =>
        absurd (congrArg Item.id (List.mem_singleton.mp hsame)) (by decide),
        List.nodup_singleton _⟩ }
  have hinventory : NamesApart [Item.make "r" "rope" "", Item.make "s" "sword" ""]
      [["rope"], ["sword"]]
      fun phrase =>
        if phrase = ["rope"] then Item.make "r" "rope" "" else Item.make "s" "sword" "" :=
    { as_heard := by decide
      only := List.forall_mem_cons.mpr ⟨rfl, List.forall_mem_singleton.mpr rfl⟩
      distinct := List.nodup_cons.mpr ⟨fun hsame =>
        absurd (congrArg Item.id (List.mem_singleton.mp hsame)) (by decide),
        List.nodup_singleton _⟩ }
  obtain ⟨-, htake⟩ := (@carried_in_any_order ⟨vaultWithRope, Output.empty⟩ _ hroom
    [["coin"], ["iron", "key"]] (by decide) (by decide) _).1 hfloor
  obtain ⟨-, hdrop⟩ := (@carried_in_any_order ⟨vaultWithRope, Output.empty⟩ _ hroom
    [["rope"], ["sword"]] (by decide) (by decide) _).2 hinventory
  exact ⟨_, _, htaking, hdropping, htake _ (List.Perm.swap ..) rfl, hdrop _ (List.Perm.swap ..) rfl⟩

end Adventure
