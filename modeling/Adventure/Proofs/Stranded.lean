import Adventure.Proofs.Loading

/-!
# What is named when items go in circles

The items that are left when all roots are in place are those from which the way up leads to an item
that is inside itself (`mem_left_iff`). They are not all inside themselves: some hang on a cycle
from outside. Loading names the first by id of all that are left, so it may name one of these.

Only this check fails with such an error. The checks before it have errors of their own
(`containmentCycle_left`), and taking roots out of the pool never meets an item twice.

Results:

* `least_stranded_is_named`: which item is named, and when it is one that is inside itself.
-/

namespace Adventure

/-- The error is not about an item that was left. -/
def WorldError.Other (error : WorldError) : Prop :=
  ∀ id, error ≠ .containmentCycle id

/-! ## The checks before the last one -/

theorem require_failsOnly {condition : Bool} {error : WorldError} (h : error.Other) :
    FailsOnly WorldError.Other (require condition error) := by
  cases condition with
  | true => exact FailsOnly.ok ()
  | false => exact FailsOnly.error h

theorem addRoom_failsOnly (map : RoomMap) (entry : RoomEntry) :
    FailsOnly WorldError.Other (map.addRoom entry) := by
  refine (require_failsOnly fun id => by simp).bind fun _ =>
    FailsOnly.bind ?_ fun _ => FailsOnly.ok _
  refine FailsOnly.foldlM (fun map exit => ?_) _ _
  exact (require_failsOnly fun id => by simp).bind fun _ => FailsOnly.ok _

theorem declare_failsOnly (entry : ItemEntry) : FailsOnly WorldError.Other entry.declare := by
  rw [ItemEntry.declare]
  split
  · exact FailsOnly.error fun id => by simp
  · exact FailsOnly.ok _

theorem declareItems_failsOnly (entries : List ItemEntry) (seen : List String) :
    FailsOnly WorldError.Other (declareItems seen entries) := by
  induction entries generalizing seen with
  | nil => exact FailsOnly.ok []
  | cons entry entries ih =>
    exact (require_failsOnly fun id => by simp).bind fun _ =>
      (declare_failsOnly entry).bind fun d =>
        (ih (entry.id :: seen)).bind fun others => FailsOnly.ok (d :: others)

theorem checkParent_failsOnly (declared : List Declared) (d : Declared) :
    FailsOnly WorldError.Other (checkParent declared d) := by
  rw [checkParent]
  split
  · exact require_failsOnly fun id => by simp
  · exact FailsOnly.ok ()

theorem toRule_failsOnly (entry : RuleEntry) : FailsOnly WorldError.Other entry.toRule := by
  unfold RuleEntry.toRule
  dsimp only
  split
  · exact FailsOnly.ok _
  · split
    · split
      · exact FailsOnly.ok _
      · exact FailsOnly.error fun id => by simp
    · exact FailsOnly.error fun id => by simp

/-! ## The last check -/

section

variable {draft : Draft} {id : String}

/-- **Loading fails with such an error in its last check only**, when all roots are in place. -/
theorem containmentCycle_left (h : World.ofDraft draft = .error (.containmentCycle id)) :
    ∃ declared rest, List.Forall₂ Declares draft.items declared ∧
      (declared.map (·.item.id)).Nodup ∧ ParentsDeclared declared ∧
      TakenOut (childrenOf declared) (poolOf declared) (rootIds declared) rest ∧
      checkEmpty rest = .error (.containmentCycle id) := by
  have hnot : ¬ (WorldError.containmentCycle id).Other := fun hother => hother id rfl
  unfold World.ofDraft at h
  obtain ⟨-, -, h⟩ := (require_failsOnly fun id => by simp).of_bind hnot h
  obtain ⟨-, -, h⟩ := (require_failsOnly fun id => by simp).of_bind hnot h
  obtain ⟨map, -, h⟩ := (FailsOnly.foldlM addRoom_failsOnly _ _).of_bind hnot h
  obtain ⟨declared, hitems, h⟩ := (declareItems_failsOnly _ _).of_bind hnot h
  obtain ⟨⟨⟩, hparents, h⟩ := (FailsOnly.forM (checkParent_failsOnly declared) _).of_bind hnot h
  obtain ⟨hdistinct, -, hdecl⟩ := declareItems_eq_ok_iff.mp hitems
  have hids : (declared.map (·.item.id)).Nodup := map_id_of_declares hdecl ▸ hdistinct
  -- the roots can be taken out of the pool, so at worst one of them starts in no room
  have hroots := foldlM_place_cases (p := .start map declared) (oneParent_childrenOf hids)
    (ready_roots hids)
  have hplaces : FailsOnly WorldError.Other
      (declared.foldlM (place (childrenOf declared)) (.start map declared)) := by
    rcases hroots with ⟨placement, hplaced, -⟩ | ⟨d, -, key, -, -, hfailed⟩
    · exact hplaced ▸ FailsOnly.ok placement
    · exact hfailed ▸ FailsOnly.error fun id => by simp
  obtain ⟨placement, hplaced, h⟩ := hplaces.of_bind hnot h
  rcases hroots with ⟨other, hother, hout⟩ | ⟨d, -, key, -, -, hfailed⟩
  · obtain rfl := Except.ok.inj (hplaced.symm.trans hother)
    refine ⟨declared, placement.pool, hdecl, hids, checkParents_eq_ok_iff.mp hparents, hout, ?_⟩
    rcases bind_eq_error_iff.mp h with hleft | ⟨-, -, h⟩
    · exact hleft
    · obtain ⟨rules, -, h⟩ := (FailsOnly.mapM toRule_failsOnly _).of_bind hnot h
      exact nomatch h
  · exact nomatch hplaced.symm.trans hfailed

/-! ## Who is named -/

/-- The item is contained in itself: going up from it leads back to it. -/
def Draft.InItself (draft : Draft) (id : String) : Prop :=
  Relation.TransGen draft.StartsInside id id

theorem Draft.InItself.stranded (h : draft.InItself id) : Stranded draft.StartsInside id :=
  ⟨id, Relation.ReflTransGen.refl, h⟩

/-- Where nothing but what is in itself starts inside what is in itself, all that is stranded is. -/
theorem inItself_of_stranded
    (hpure : ∀ child parent, draft.StartsInside child parent → draft.InItself parent →
      draft.InItself child)
    (h : Stranded draft.StartsInside id) : draft.InItself id := by
  obtain ⟨culprit, hup, hcycle⟩ := h
  induction hup using Relation.ReflTransGen.head_induction_on with
  | refl => exact hcycle
  | head hparent _ ih => exact hpure _ _ hparent ih

end

/-- **The item that is named when items go in circles is the least from which the way up comes to
one that is contained in itself.** It is one of these exactly when one of them comes before all that
only hang on them, and so whenever nothing hangs on them. -/
theorem least_stranded_is_named {draft : Draft} {id : String}
    (h : World.ofDraft draft = .error (.containmentCycle id)) :
    Stranded draft.StartsInside id ∧
    (∀ other, Stranded draft.StartsInside other → id ≤ other) ∧
    (draft.InItself id ↔
      ∃ culprit, draft.InItself culprit ∧
        ∀ other, Stranded draft.StartsInside other → ¬ draft.InItself other → culprit < other) ∧
    ((∀ child parent, draft.StartsInside child parent → draft.InItself parent →
      draft.InItself child) → draft.InItself id) := by
  obtain ⟨declared, rest, hdecl, hids, hparents, hout, hleft⟩ := containmentCycle_left h
  obtain ⟨others, hkeys⟩ := checkEmpty_eq_error_iff.mp hleft
  have hmem : ∀ other, other ∈ rest.keys ↔ Stranded draft.StartsInside other := fun other =>
    mem_left_iff hdecl hids hparents hout
  have hstranded : Stranded draft.StartsInside id := by
    rw [← hmem, hkeys]
    exact List.mem_cons_self
  have hleast : ∀ other, Stranded draft.StartsInside other → id ≤ other := fun other hother =>
    Table.le_of_keys hkeys ((hmem other).mpr hother)
  refine ⟨hstranded, hleast, ⟨fun hself => ⟨id, hself, fun other hother hnot => ?_⟩, ?_⟩,
    fun hpure => inItself_of_stranded hpure hstranded⟩
  · exact Std.lt_of_le_of_ne (hleast other hother) fun hsame => hnot (hsame ▸ hself)
  · rintro ⟨culprit, hculprit, hbefore⟩
    by_contra hnot
    exact Std.not_le_of_gt (hbefore id hstranded hnot) (hleast culprit hculprit.stranded)

/-- A room, and a coin in a purse that is in itself. -/
def purseDraft : Draft where
  id := "shop"
  name := ""
  startRoom := "till"
  desc := ""
  rooms := [⟨"till", "", "", []⟩]
  items :=
    [⟨"coin", "coin", "item:purse", "", [], false⟩, ⟨"purse", "purse", "item:purse", "", [], false⟩]
  rules := []

/-- There the coin is named, from which the way up comes to the purse and does not leave it. -/
theorem coin_stranded_by_purse :
    World.ofDraft purseDraft = .error (.containmentCycle "coin") ∧
    Stranded purseDraft.StartsInside "coin" ∧
    ∀ other, Stranded purseDraft.StartsInside other → "coin" ≤ other := by
  have hfails : World.ofDraft purseDraft = .error (.containmentCycle "coin") := rfl
  obtain ⟨hstranded, hleast, -, -⟩ := least_stranded_is_named hfails
  exact ⟨hfails, hstranded, hleast⟩

/-- The report says that the coin is contained in itself, and it is not. -/
theorem coin_not_in_itself :
    World.ofDraft purseDraft = .error (.containmentCycle "coin") ∧
    (WorldError.containmentCycle "coin").message =
      "item 'coin' is (transitively) contained in itself" ∧
    ¬ purseDraft.InItself "coin" := by
  refine ⟨rfl, by decide, fun hself => ?_⟩
  obtain ⟨child, -, entry, hentry, -, hstarts⟩ := Relation.TransGen.tail'_iff.mp hself
  have hpurse : ∀ item ∈ purseDraft.items, item.StartsAt (.item "purse") := by decide
  exact absurd (hstarts.unique (hpurse entry hentry)) (by decide)

end Adventure
