import Notebortt.BoardState.CompleteBoard

/-! # The rows that the dirty sets do not account for

    While nothing else writes, the two id sets of a board name every element that
    its row may not hold: the rows of all other ids are up to date, and a flush
    brings the rest up to date. What it means for a row to be up to date is a
    parameter, and so is the set of ids that are followed. -/

namespace Notebortt

/-! ### Up to date -/

/-- A notion of a row that is up to date with an element. -/
structure UpToDate (R : Option ElementRow → Option BoardElement → Prop) : Prop where
  absent : R none none
  holds : ∀ {row : ElementRow} {e : BoardElement}, RowHolds row e → R (some row) (some e)

theorem upToDate_rowMatches : UpToDate RowMatches where
  absent := trivial
  holds := fun h => h

/-- The row loads as the element. -/
def LoadsAs : Option ElementRow → Option BoardElement → Prop
  | some row, some e =>
    ∀ key, (row.data ∪ AList.singleton "kind" (.str row.type)).lookup key = e.fields.lookup key
  | none, none => True
  | _, _ => False

theorem LoadsAs.exists_row {row? : Option ElementRow} {e : BoardElement}
    (h : LoadsAs row? (some e)) : ∃ row, row? = some row ∧ LoadsAs (some row) (some e) := by
  cases row? with
  | none => cases h
  | some row => exact ⟨row, rfl, h⟩

theorem LoadsAs.exists_element {row : ElementRow} {e? : Option BoardElement}
    (h : LoadsAs (some row) e?) : ∃ e, e? = some e ∧ LoadsAs (some row) (some e) := by
  cases e? with
  | none => cases h
  | some e => exact ⟨e, rfl, h⟩

theorem upToDate_loadsAs : UpToDate LoadsAs where
  absent := trivial
  holds := by
    intro row e hholds key
    have hkind : (AList.singleton "kind" (.str row.type) : Fields).lookup key =
        if key = "kind" then some (.str row.type) else none :=
      Dict.lookup_insert_ite ∅ "kind" key _
    rw [Dict.lookup_union, hholds.data, Dict.lookup_erase_ite, hkind]
    by_cases hkey : key = "kind"
    · rw [if_pos hkey, if_pos hkey, Option.none_or, hkey, hholds.type]
    · rw [if_neg hkey, if_neg hkey, Option.or_none]

/-! ### The invariant -/

section tracked
variable {P : String → Prop} {R : Option ElementRow → Option BoardElement → Prop}
  {boardId : String} {k k' : BoardKeys} {db db' : Postgres}

/-- Of the ids followed, the ones in neither set have a row that is up to date. -/
structure Tracked (P : String → Prop) (R : Option ElementRow → Option BoardElement → Prop)
    (boardId : String) (k : BoardKeys) (db : Postgres) : Prop where
  ownIds : OwnIds k.elements.lookup
  dirty : ∀ id ∈ k.dirtyElementIds, (k.elements.lookup id).isSome
  deleted : ∀ id ∈ k.deletedElementIds, k.elements.lookup id = none
  rows : ∀ id, P id → id ∉ k.dirtyElementIds → id ∉ k.deletedElementIds →
    R (db.ownRow boardId id) (k.elements.lookup id)

/-- A change adds what it touches to the sets. -/
theorem Tracked.written (h : Tracked P R boardId k db) {change : PersistedElementChange}
    (hwritten : Written change k k') : Tracked P R boardId k' db where
  ownIds := hwritten.ownIds h.ownIds
  dirty := by
    intro id hdirty
    obtain ⟨hkept, hid⟩ := (hwritten.dirty id).mp hdirty
    rw [hwritten.elements]
    by_cases hupsert : id ∈ change.upserts.map (·.id)
    · obtain ⟨e, -, -, hlookup⟩ := lookup_applyTo_of_upsert hupsert hkept k.elements
      rw [hlookup]
      rfl
    · have hnot : id ∉ change.ids := by simp [PersistedElementChange.ids, hkept, hupsert]
      rw [lookup_applyTo_of_not_mem hnot]
      exact h.dirty id (hid.resolve_left hupsert)
  deleted := by
    intro id hdeleted
    rw [hwritten.elements]
    by_cases hdelete : id ∈ change.deletes
    · exact lookup_applyTo_of_delete hdelete _
    · obtain ⟨hupsert, hbefore⟩ := ((hwritten.deleted id).mp hdeleted).resolve_left hdelete
      have hnot : id ∉ change.ids := by simp [PersistedElementChange.ids, hdelete, hupsert]
      rw [lookup_applyTo_of_not_mem hnot]
      exact h.deleted id hbefore
  rows := by
    intro id hP hdirty hdeleted
    rw [hwritten.dirty] at hdirty
    rw [hwritten.deleted] at hdeleted
    -- an id in neither set afterwards was in neither before, and is not touched
    have hnot : id ∉ change.ids := by
      simp only [PersistedElementChange.ids, List.mem_append]
      tauto
    rw [hwritten.elements, lookup_applyTo_of_not_mem hnot]
    have hbefore : id ∉ change.upserts.map (·.id) := fun hmem => hnot (List.mem_append_left _ hmem)
    exact h.rows id hP (fun hid => hdirty ⟨fun hdelete => hdeleted (.inl hdelete), .inr hid⟩)
      fun hid => hdeleted (.inr ⟨hbefore, hid⟩)

/-- Nothing is stored, and nothing is in the sets. -/
structure Emptied (k : BoardKeys) : Prop where
  seq : k.seq = none
  elements : k.elements = ∅
  dirty : k.dirtyElementIds = ∅
  deleted : k.deletedElementIds = ∅

/-! ### Flushing -/

/-- The row of an id that is followed after an incremental flush: dirty ids other than the empty one
    have their element, deleted ids none, and the others what was there. -/
theorem Tracked.incremental (hR : UpToDate R) (h : Tracked P R boardId k db)
    (hP : ∀ id ∈ k.dirtyElementIds, P id → id ≠ "")
    (hcommit : persistBoardIncremental boardId (dirtySnapshot k) db = .ok db') {id : String}
    (hid : P id) : R (db'.ownRow boardId id) (k.elements.lookup id) := by
  rcases ownRow_of_commit hcommit h.ownIds id with ⟨e, row, ⟨-, -, he⟩, hrow, hholds⟩ |
    ⟨-, hdelete, hrow⟩ | ⟨hnot, hkept, hrow⟩
  · have he : k.elements.lookup id = some e := he
    rw [hrow, he]
    exact hR.holds hholds
  · have hgone : k.elements.lookup id = none := by
      rcases List.mem_append.mp (mem_toSet.mp hdelete) with hmem | hmem
      · exact h.deleted id (AList.mem_keys.mpr hmem)
      · have hnone := (List.mem_filter.mp hmem).2
        simp only [decide_eq_true_eq, Option.isNone_iff_eq_none] at hnone
        exact hnone.2
    rw [hrow, hgone]
    exact hR.absent
  · rw [hrow]
    refine h.rows id hid (fun hdirty => ?_) fun hdeleted =>
      hkept (mem_toSet.mpr (List.mem_append_left _ ?_))
    · obtain ⟨e, he⟩ := Option.isSome_iff_exists.mp (h.dirty id hdirty)
      exact hnot e ⟨AList.mem_keys.mp hdirty, hP id hdirty hid, he⟩
    · exact AList.mem_keys.mp hdeleted

/-- What the flush of this mode does not write is not followed: the dirty empty id, which the
    incremental one skips, and an element under `__proto__`, which the snapshot drops. -/
def WritesFollowed (P : String → Prop) (cfg : Config) (k : BoardKeys) : Prop :=
  (cfg.enableIncrementalPersistence = true → ∀ id ∈ k.dirtyElementIds, P id → id ≠ "") ∧
  (cfg.enableIncrementalPersistence = false → P "__proto__" →
    k.elements.lookup "__proto__" = none)

/-- The rows that are followed are up to date once a transaction has committed. -/
theorem Tracked.committed (hR : UpToDate R) (h : Tracked P R boardId k db) {cfg : Config}
    (hP : WritesFollowed P cfg k)
    (hcommit : flushTransaction cfg boardId k db = .ok db') {id : String} (hid : P id) :
    R (db'.ownRow boardId id) (k.elements.lookup id) := by
  unfold flushTransaction at hcommit
  split at hcommit
  · next hincremental => exact h.incremental hR (hP.1 hincremental) hcommit hid
  · next hfull =>
    have hmatches := ownRow_of_fullSnapshot h.ownIds hcommit id
    have hread : (parsedObject k.elements).lookup id = k.elements.lookup id := by
      rw [lookup_parsedObject]
      split
      · next hproto =>
        subst hproto
        exact (hP.2 (by simpa using hfull) hid).symm
      · rfl
    rw [hread] at hmatches
    cases hlookup : k.elements.lookup id with
    | some e =>
      rw [hlookup] at hmatches
      obtain ⟨row, hrow, hholds⟩ := hmatches.exists_row
      rw [hrow]
      exact hR.holds hholds
    | none =>
      cases hrow : db'.ownRow boardId id with
      | some row =>
        rw [hrow, hlookup] at hmatches
        cases hmatches
      | none => exact hR.absent

theorem Tracked.clearMarkers (h : Tracked P R boardId k db) {incremental : Bool}
    (hrows : ∀ id, P id → R (db'.ownRow boardId id) (k.elements.lookup id))
    (sequence now duration : Nat) :
    Tracked P R boardId (k.clearMarkers incremental sequence now duration) db' where
  ownIds := h.ownIds
  dirty := by
    intro id hid
    cases incremental with
    | true => cases hid
    | false => exact h.dirty id hid
  deleted := by
    intro id hid
    cases incremental with
    | true => cases hid
    | false => exact h.deleted id hid
  rows := fun id hid _ _ => hrows id hid

end tracked

/-! ### Eviction and loading -/

section loading
variable {boardId : String}

/-- Evicting a literal id empties the board. -/
theorem emptied_flushBoard (hlit : IsLiteralId boardId) (redis : Redis) :
    Emptied (flushBoard boardId redis boardId) := by
  have hfound : ∀ name : KeyName, scanFinds boardId (name.key boardId) = true := scanFinds_own hlit
  constructor <;> simp [flushBoard, BoardKeys.unindex, BoardKeys.del, hfound]

/-- What a load of an emptied board stores under an id: the element of its row. -/
theorem lookup_loadedElements (db : Postgres) (id : String) :
    (Dict.insertAll ∅ (loadedElements boardId db)).lookup id =
      (db.ownRow boardId id).map (dbRowToBoardElement id) := by
  have hlist : loadedElements boardId db = ((db.rowsOf boardId).map (·.1)).filterMap fun key =>
      ((db.ownRow boardId key).map (dbRowToBoardElement key)).map (key, ·) := by
    unfold loadedElements
    rw [List.filterMap_map]
    have hrow : ∀ row ∈ db.rowsOf boardId, ((fun key => ((db.ownRow boardId key).map
        (dbRowToBoardElement key)).map (key, ·)) ∘ (·.1)) row =
          some (row.1, dbRowToBoardElement row.1 row.2) := by
      intro row hrow
      have hown : db.ownRow boardId row.1 = some row.2 := Postgres.ownRow_eq_some.mpr hrow
      simp [hown]
    rw [List.filterMap_congr hrow, ← List.filterMap_eq_map]
    rfl
  rw [hlist, Dict.lookup_insertAll_filterMap]
  split
  · rw [AList.lookup_empty, Option.or_none]
  · next hnot =>
    cases hrow : db.ownRow boardId id with
    | none => rfl
    | some row =>
      exact absurd (List.mem_map.mpr ⟨(id, row), Postgres.ownRow_eq_some.mp hrow, rfl⟩) hnot

/-- A load of an emptied board. -/
theorem loadBoard_of_emptied {s : Server} (h : Emptied (s.redis boardId)) (id : String) :
    ((loadBoard boardId s).redis boardId).elements.lookup id =
      (s.db.ownRow boardId id).map (dbRowToBoardElement id) := by
  simp only [loadBoard, h.seq, Option.isSome_none, Bool.false_eq_true, if_false,
    Server.setKeys_redis_self, h.elements]
  exact lookup_loadedElements s.db id

theorem tracked_loadBoard {P : String → Prop} {R : Option ElementRow → Option BoardElement → Prop}
    {s : Server} (h : Emptied (s.redis boardId))
    (hR : ∀ id, P id → R (s.db.ownRow boardId id)
      ((s.db.ownRow boardId id).map (dbRowToBoardElement id))) :
    Tracked P R boardId ((loadBoard boardId s).redis boardId) (loadBoard boardId s).db := by
  have hkeys : (loadBoard boardId s).redis boardId =
      { s.redis boardId with
        elements := Dict.insertAll ∅ (loadedElements boardId s.db), seq := some 0 } := by
    simp [loadBoard, h.seq, h.elements]
  rw [loadBoard_db, hkeys]
  constructor
  · intro id e he
    simp only [lookup_loadedElements] at he
    obtain ⟨row, -, rfl⟩ := Option.map_eq_some_iff.mp he
    rfl
  · intro id hid
    simp only [h.dirty] at hid
    cases hid
  · intro id hid
    simp only [h.deleted] at hid
    cases hid
  · intro id hid _ _
    simp only [lookup_loadedElements]
    exact hR id hid

end loading

end Notebortt
