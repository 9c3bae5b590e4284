import Adventure.Proofs.Assembly

/-!
# The rooms and exits of a draft

Rooms are added one by one, each with its exits. The exits of a room are added before the room is,
so as long as every exit leaves a room of the map (`Linked`), those of a new room can only be in
the way of each other. All rooms can be added exactly when their ids differ and so do the
directions within each (`exists_foldlM_addRoom_iff`), and the map then has each of them with an
empty floor (`get?_of_foldlM_addRoom`), and their exits lead where they were written to lead
(`exit_of_foldlM_addRoom`).
-/

namespace Adventure

/-- The room that an entry declares, with nothing on its floor. -/
def RoomEntry.room (entry : RoomEntry) : Room where
  id := entry.id
  name := if Text.isBlankText entry.name then entry.id else entry.name
  desc := entry.desc
  items := []

namespace RoomMap

/-! ## The exits of one room -/

/-- The key of an exit as it is written down for a room. -/
def exitKey (room : String) (entry : ExitEntry) : ExitKey :=
  ⟨room, normalDirection entry.direction⟩

/-- The map with one more exit. -/
def withExit (map : RoomMap) (room : String) (entry : ExitEntry) : RoomMap :=
  { map with exits := map.exits.insert (exitKey room entry) entry.target }

theorem mem_exits_withExit {map : RoomMap} {room : String} {entry : ExitEntry} {key : ExitKey} :
    key ∈ (map.withExit room entry).exits.keys ↔
      key = exitKey room entry ∨ key ∈ map.exits.keys :=
  Table.mem_keys_insert

theorem addExit_eq_ok_iff {room : String} {map map' : RoomMap} {entry : ExitEntry} :
    addExit room map entry = .ok map' ↔
      exitKey room entry ∉ map.exits.keys ∧ map' = map.withExit room entry := by
  rw [addExit, bind_eq_ok_iff]
  simp only [require_eq_ok_iff, Bool.not_eq_true', ← Bool.not_eq_true,
    Table.contains_iff_mem_keys]
  constructor
  · rintro ⟨-, hnew, h⟩
    cases h
    exact ⟨hnew, rfl⟩
  · rintro ⟨hnew, rfl⟩
    exact ⟨(), hnew, rfl⟩

/-- Adding exits keeps the rooms, and adds each exit under its key. -/
theorem exits_of_foldlM_addExit {room : String} {exits : List ExitEntry} {map map' : RoomMap}
    (h : exits.foldlM (addExit room) map = .ok map') :
    map'.rooms = map.rooms ∧
      ∀ key target, map'.exits.get? key = some target ↔ map.exits.get? key = some target ∨
        ∃ entry ∈ exits, exitKey room entry = key ∧ entry.target = target := by
  induction exits generalizing map with
  | nil =>
    obtain rfl := Except.ok.inj h
    exact ⟨rfl, fun key target => by simp⟩
  | cons entry exits ih =>
    obtain ⟨mid, hmid, h⟩ := foldlM_cons_eq_ok_iff.mp h
    obtain ⟨hnew, rfl⟩ := addExit_eq_ok_iff.mp hmid
    obtain ⟨hrooms, hexits⟩ := ih h
    refine ⟨hrooms, fun key target => ?_⟩
    rw [hexits, withExit, Table.get?_insert]
    simp only [List.mem_cons, exists_eq_or_imp]
    by_cases hkey : key = exitKey room entry
    · subst hkey
      simp [Table.get?_eq_none_iff.mpr hnew]
    · simp [hkey, Ne.symm hkey]

/-- All exits of a room can be added when their directions differ from each other and are new. -/
theorem exists_foldlM_addExit_iff {room : String} {exits : List ExitEntry} {map : RoomMap} :
    (∃ map', exits.foldlM (addExit room) map = .ok map') ↔
      (exits.map fun entry => normalDirection entry.direction).Nodup ∧
        ∀ entry ∈ exits, exitKey room entry ∉ map.exits.keys := by
  induction exits generalizing map with
  | nil => simp [pure, Except.pure]
  | cons entry exits ih =>
    have step : (∃ map', (entry :: exits).foldlM (addExit room) map = .ok map') ↔
        exitKey room entry ∉ map.exits.keys ∧
          ∃ map', exits.foldlM (addExit room) (map.withExit room entry) = .ok map' := by
      constructor
      · rintro ⟨map', h⟩
        obtain ⟨mid, hmid, h⟩ := foldlM_cons_eq_ok_iff.mp h
        obtain ⟨hnew, rfl⟩ := addExit_eq_ok_iff.mp hmid
        exact ⟨hnew, map', h⟩
      · rintro ⟨hnew, map', h⟩
        exact ⟨map', foldlM_cons_eq_ok_iff.mpr ⟨_, addExit_eq_ok_iff.mpr ⟨hnew, rfl⟩, h⟩⟩
    have hne : ∀ other : ExitEntry, exitKey room other ≠ exitKey room entry ↔
        normalDirection other.direction ≠ normalDirection entry.direction := by
      intro other
      simp [exitKey]
    rw [step, ih, List.map_cons, List.nodup_cons]
    simp only [mem_exits_withExit, List.mem_cons, forall_eq_or_imp, not_or, List.mem_map,
      not_exists, not_and]
    constructor
    · rintro ⟨hnew, hnodup, hall⟩
      exact ⟨⟨fun e he => (hne e).mp (hall e he).1, hnodup⟩, hnew, fun e he => (hall e he).2⟩
    · rintro ⟨⟨hdiff, hnodup⟩, hnew, hall⟩
      exact ⟨hnew, hnodup, fun e he => ⟨(hne e).mpr (hdiff e he), hall e he⟩⟩

/-! ## Rooms -/

/-- Every exit leaves a room of the map. -/
def Linked (map : RoomMap) : Prop := ∀ key ∈ map.exits.keys, key.room ∈ map.rooms.keys

theorem linked_empty : Linked empty := fun _ h => absurd h List.not_mem_nil

theorem addRoom_eq_ok_iff {map map' : RoomMap} {entry : RoomEntry} :
    addRoom map entry = .ok map' ↔ entry.id ∉ map.rooms.keys ∧
      ∃ mid, entry.exits.foldlM (addExit entry.id) map = .ok mid ∧
        map' = { mid with rooms := mid.rooms.insert entry.id entry.room } := by
  rw [addRoom, bind_eq_ok_iff]
  simp only [require_eq_ok_iff, Bool.not_eq_true', ← Bool.not_eq_true,
    Table.contains_iff_mem_keys, bind_eq_ok_iff]
  constructor
  · rintro ⟨-, hnew, mid, hmid, h⟩
    cases h
    exact ⟨hnew, mid, hmid, rfl⟩
  · rintro ⟨hnew, mid, hmid, rfl⟩
    exact ⟨(), hnew, mid, hmid, rfl⟩

theorem linked_addRoom {map map' : RoomMap} {entry : RoomEntry} (hlinked : Linked map)
    (h : addRoom map entry = .ok map') : Linked map' := by
  obtain ⟨-, mid, hmid, rfl⟩ := addRoom_eq_ok_iff.mp h
  obtain ⟨hrooms, hexits⟩ := exits_of_foldlM_addExit hmid
  intro key hkey
  obtain ⟨target, htarget⟩ := Table.mem_keys_iff.mp hkey
  rw [Table.mem_keys_insert, hrooms]
  rcases (hexits key target).mp htarget with hold | ⟨exit, -, rfl, -⟩
  · exact Or.inr (hlinked key (Table.mem_keys_iff.mpr ⟨target, hold⟩))
  · exact Or.inl rfl

/-- A room can be added to a linked map when it is new and its directions differ. -/
theorem exists_addRoom_iff {map : RoomMap} {entry : RoomEntry} (hlinked : Linked map) :
    (∃ map', addRoom map entry = .ok map') ↔ entry.id ∉ map.rooms.keys ∧
      (entry.exits.map fun exit => normalDirection exit.direction).Nodup := by
  constructor
  · rintro ⟨map', h⟩
    obtain ⟨hnew, mid, hmid, -⟩ := addRoom_eq_ok_iff.mp h
    exact ⟨hnew, (exists_foldlM_addExit_iff.mp ⟨mid, hmid⟩).1⟩
  · rintro ⟨hnew, hnodup⟩
    obtain ⟨mid, hmid⟩ := exists_foldlM_addExit_iff.mpr
      ⟨hnodup, fun exit _ hmem => hnew (hlinked _ hmem)⟩
    exact ⟨_, addRoom_eq_ok_iff.mpr ⟨hnew, mid, hmid, rfl⟩⟩

theorem rooms_addRoom {map map' : RoomMap} {entry : RoomEntry}
    (h : addRoom map entry = .ok map') :
    map'.rooms = map.rooms.insert entry.id entry.room := by
  obtain ⟨-, mid, hmid, rfl⟩ := addRoom_eq_ok_iff.mp h
  rw [(exits_of_foldlM_addExit hmid).1]

/-- **All rooms can be added** when their ids are new and differ from each other, and so do the
directions within each. -/
theorem exists_foldlM_addRoom_iff {entries : List RoomEntry} {map : RoomMap}
    (hlinked : Linked map) :
    (∃ map', entries.foldlM addRoom map = .ok map') ↔
      (entries.map (·.id)).Nodup ∧ (∀ entry ∈ entries, entry.id ∉ map.rooms.keys) ∧
        ∀ entry ∈ entries, (entry.exits.map fun exit => normalDirection exit.direction).Nodup := by
  induction entries generalizing map with
  | nil => simp [pure, Except.pure]
  | cons entry entries ih =>
    simp only [List.map_cons, List.nodup_cons, List.mem_cons, forall_eq_or_imp, List.mem_map,
      not_exists, not_and]
    constructor
    · rintro ⟨map', h⟩
      obtain ⟨mid, hmid, h⟩ := foldlM_cons_eq_ok_iff.mp h
      obtain ⟨hnew, hdirs⟩ := (exists_addRoom_iff hlinked).mp ⟨mid, hmid⟩
      obtain ⟨hnodup, hnews, hall⟩ :=
        (ih (linked_addRoom hlinked hmid)).mp ⟨map', h⟩
      simp only [rooms_addRoom hmid, Table.mem_keys_insert, not_or] at hnews
      exact ⟨⟨fun e he => (hnews e he).1, hnodup⟩, ⟨hnew, fun e he => (hnews e he).2⟩, hdirs, hall⟩
    · rintro ⟨⟨hne, hnodup⟩, ⟨hnew, hnews⟩, hdirs, hall⟩
      obtain ⟨mid, hmid⟩ := (exists_addRoom_iff hlinked).mpr ⟨hnew, hdirs⟩
      obtain ⟨map', h⟩ := (ih (linked_addRoom hlinked hmid)).mpr
        ⟨hnodup, fun e he => by
          rw [rooms_addRoom hmid, Table.mem_keys_insert, not_or]
          exact ⟨hne e he, hnews e he⟩, hall⟩
      exact ⟨map', foldlM_cons_eq_ok_iff.mpr ⟨mid, hmid, h⟩⟩

/-- **The exits of the map** are those of the rooms added, under their normal directions. -/
theorem exit_of_foldlM_addRoom {entries : List RoomEntry} {map map' : RoomMap}
    (h : entries.foldlM addRoom map = .ok map') (key : ExitKey) (target : String) :
    map'.exits.get? key = some target ↔ map.exits.get? key = some target ∨
      ∃ entry ∈ entries, ∃ exit ∈ entry.exits, exitKey entry.id exit = key ∧
        exit.target = target := by
  induction entries generalizing map with
  | nil =>
    obtain rfl := Except.ok.inj h
    simp
  | cons entry entries ih =>
    obtain ⟨first, hfirst, h⟩ := foldlM_cons_eq_ok_iff.mp h
    obtain ⟨-, mid, hmid, rfl⟩ := addRoom_eq_ok_iff.mp hfirst
    rw [ih h, (exits_of_foldlM_addExit hmid).2 key target]
    simp only [List.mem_cons, exists_eq_or_imp]
    exact or_assoc

/-- **The rooms of the map** are those added, under their ids. -/
theorem get?_of_foldlM_addRoom {entries : List RoomEntry} {map map' : RoomMap}
    (h : entries.foldlM addRoom map = .ok map') (key : String) (room : Room) :
    map'.rooms.get? key = some room ↔
      map.rooms.get? key = some room ∨ ∃ entry ∈ entries, entry.id = key ∧ room = entry.room := by
  induction entries generalizing map with
  | nil =>
    obtain rfl := Except.ok.inj h
    simp
  | cons entry entries ih =>
    obtain ⟨mid, hmid, h⟩ := foldlM_cons_eq_ok_iff.mp h
    have hnew : map.rooms.get? entry.id = none :=
      Table.get?_eq_none_iff.mpr (addRoom_eq_ok_iff.mp hmid).1
    rw [ih h, rooms_addRoom hmid, Table.get?_insert]
    simp only [List.mem_cons, exists_eq_or_imp]
    by_cases hkey : key = entry.id
    · subst hkey
      simp [hnew, eq_comm]
    · simp [hkey, Ne.symm hkey]

end RoomMap

end Adventure
