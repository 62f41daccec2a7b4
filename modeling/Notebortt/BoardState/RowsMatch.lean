import Notebortt.BoardState.Persistence

/-! # The rows of a board against its elements hash

    What it means that Postgres holds what Redis holds, id by id, and what one
    committed flush does to the row of an id. -/

namespace Notebortt

/-! ### Rows and elements -/

/-- The row of the board under an id. -/
def Postgres.ownRow (db : Postgres) (boardId id : String) : Option ElementRow :=
  (db.elements.lookup id).filter fun row => row.boardId == pgUuid boardId

/-- The row holds the element: its kind as the type, its other fields as the data. -/
structure RowHolds (row : ElementRow) (e : BoardElement) : Prop where
  type : e.fields.lookup "kind" = some (.str row.type)
  data : ∀ key, row.data.lookup key = (e.fields.erase "kind").lookup key

/-- A row and a hash entry of one id are the same, or are both absent. -/
def RowMatches : Option ElementRow → Option BoardElement → Prop
  | some row, some e => RowHolds row e
  | none, none => True
  | _, _ => False

theorem RowMatches.exists_row {row? : Option ElementRow} {e : BoardElement}
    (h : RowMatches row? (some e)) : ∃ row, row? = some row ∧ RowHolds row e := by
  cases row? with
  | none => cases h
  | some row => exact ⟨row, rfl, h⟩

theorem RowMatches.exists_element {row : ElementRow} {e? : Option BoardElement}
    (h : RowMatches (some row) e?) : ∃ e, e? = some e ∧ RowHolds row e := by
  cases e? with
  | none => cases h
  | some e => exact ⟨e, rfl, h⟩

/-- The rows of the board equal the elements hash. -/
def RowsMatch (boardId : String) (db : Postgres) (elements : Dict BoardElement) : Prop :=
  ∀ id, RowMatches (db.ownRow boardId id) (elements.lookup id)

/-- Every element is stored under its own id. -/
def OwnIds (elements : String → Option BoardElement) : Prop :=
  ∀ id e, elements id = some e → e.id = id

theorem ownIds_of_entries {d : Dict BoardElement}
    (h : ∀ entry ∈ d.entries, entry.2.id = entry.1) : OwnIds d.lookup :=
  fun id e he => h ⟨id, e⟩ (AList.mem_lookup_iff.mp he)

theorem OwnIds.insert {d : Dict BoardElement} (h : OwnIds d.lookup) {id : String} {e : BoardElement}
    (he : e.id = id) : OwnIds (AList.insert id e d).lookup := by
  intro id' e' hlookup
  simp only [Dict.lookup_insert_ite] at hlookup
  split at hlookup
  · next hid =>
    rw [← Option.some.inj hlookup, hid]
    exact he
  · exact h id' e' hlookup

theorem Written.ownIds {change : PersistedElementChange} {k k' : BoardKeys}
    (h : Written change k k') (hown : OwnIds k.elements.lookup) : OwnIds k'.elements.lookup := by
  intro id e he
  simp only [h.elements] at he
  by_cases hdelete : id ∈ change.deletes
  · rw [lookup_applyTo_of_delete hdelete] at he
    cases he
  · by_cases hupsert : id ∈ change.upserts.map (·.id)
    · obtain ⟨e', _, hid, hlookup⟩ := lookup_applyTo_of_upsert hupsert hdelete k.elements
      rw [hlookup] at he
      rw [← Option.some.inj he]
      exact hid
    · have hnot : id ∉ change.ids := by simp [PersistedElementChange.ids, hdelete, hupsert]
      rw [lookup_applyTo_of_not_mem hnot] at he
      exact hown id e he

theorem rowHolds_accept {boardId : String} {e : BoardElement} {a : String × ElementRow}
    (h : (toElementRow boardId e).accept = some a) : RowHolds a.2 e := by
  obtain ⟨_, _, hdata, htype⟩ := NewElementRow.accept_eq_some h
  constructor
  · exact htype
  · intro key
    rw [hdata]
    rfl

theorem Postgres.ownRow_deleteIds (db : Postgres) (boardId : String) (ids : List String)
    (id : String) :
    (db.deleteIds boardId ids).ownRow boardId id =
      if id ∈ ids then none else db.ownRow boardId id := by
  unfold ownRow
  rw [Postgres.lookup_deleteIds]
  by_cases hid : id ∈ ids
  · cases hrow : db.elements.lookup id with
    | none => simp
    | some row =>
      by_cases hboard : row.boardId = pgUuid boardId <;> simp [hid, hboard]
  · simp [hid]

/-! ### One committed flush, id by id -/

/-- The id is upserted by the flush, with this element. -/
def DirtySnapshot.Upserts (snap : DirtySnapshot) (id : String) (e : BoardElement) : Prop :=
  id ∈ snap.dirtyIds ∧ id ≠ "" ∧ snap.rawDirtyElements id = some e

theorem DirtySnapshot.find?_upserts {snap : DirtySnapshot} {boardId id : String}
    (hown : OwnIds snap.rawDirtyElements) {r : NewElementRow}
    (h : (snap.upserts boardId).find? (·.id == id) = some r) :
    ∃ e, snap.Upserts id e ∧ r = toElementRow boardId e := by
  have hr := List.mem_of_find?_eq_some h
  have hid : r.id = id := by simpa using List.find?_some h
  obtain ⟨x, hx, hrow⟩ := List.mem_filterMap.mp hr
  split at hrow
  · cases hrow
  · next hne =>
    obtain ⟨e, he, rfl⟩ := Option.map_eq_some_iff.mp hrow
    have hxe : x = id := (hown x e he).symm.trans hid
    subst hxe
    exact ⟨e, ⟨hx, hne, he⟩, rfl⟩

theorem DirtySnapshot.find?_upserts_none {snap : DirtySnapshot} {boardId id : String}
    (hown : OwnIds snap.rawDirtyElements)
    (h : (snap.upserts boardId).find? (·.id == id) = none) : ∀ e, ¬ snap.Upserts id e := by
  rintro e ⟨hx, hne, he⟩
  have hmem : toElementRow boardId e ∈ snap.upserts boardId :=
    List.mem_filterMap.mpr ⟨id, hx, by simp [hne, he]⟩
  have hid : (toElementRow boardId e).id = id := hown id e he
  exact absurd (List.find?_eq_none.mp h _ hmem) (by simp [hid])

/-- The row of an id after a committed flush: the upserted element, nothing for a
    deleted id, and what was there for any other id. -/
theorem ownRow_of_commit {boardId : String} {snap : DirtySnapshot} {db db' : Postgres}
    (h : persistBoardIncremental boardId snap db = .ok db') (hown : OwnIds snap.rawDirtyElements)
    (id : String) :
    (∃ e row, snap.Upserts id e ∧ db'.ownRow boardId id = some row ∧ RowHolds row e) ∨
    ((∀ e, ¬ snap.Upserts id e) ∧ id ∈ snap.deletes ∧ db'.ownRow boardId id = none) ∨
    ((∀ e, ¬ snap.Upserts id e) ∧ id ∉ snap.deletes ∧
      db'.ownRow boardId id = db.ownRow boardId id) := by
  have hlookup := persistBoardIncremental_lookup h id
  cases hfind : (snap.upserts boardId).find? (·.id == id) with
  | some r =>
    rw [hfind] at hlookup
    obtain ⟨e, hupserts, rfl⟩ := DirtySnapshot.find?_upserts hown hfind
    -- the transaction would have failed on a row Postgres does not take
    have hwritable : (toElementRow boardId e).accept.isSome := by
      have hmem := List.mem_of_find?_eq_some hfind
      exact (persistBoardIncremental_writable h).rows _ hmem
    obtain ⟨a, ha⟩ := Option.isSome_iff_exists.mp hwritable
    refine .inl ⟨e, a.2, hupserts, ?_, rowHolds_accept ha⟩
    have hboard : a.2.boardId = pgUuid boardId := (NewElementRow.accept_eq_some ha).2.1
    simp only [Postgres.ownRow, hlookup, ha, Option.map_some]
    simp [hboard]
  | none =>
    rw [hfind] at hlookup
    have hnone := DirtySnapshot.find?_upserts_none hown hfind
    have hrow : db'.ownRow boardId id = (db.deleteIds boardId snap.deletes).ownRow boardId id := by
      simp only [Postgres.ownRow, hlookup]
    rw [hrow, Postgres.ownRow_deleteIds]
    by_cases hid : id ∈ snap.deletes
    · exact .inr (.inl ⟨hnone, hid, by rw [if_pos hid]⟩)
    · exact .inr (.inr ⟨hnone, hid, by rw [if_neg hid]⟩)

/-! ### One committed snapshot -/

theorem Postgres.ownRow_deleteBoardRows (db : Postgres) (boardId id : String) :
    (db.deleteBoardRows boardId).ownRow boardId id = none := by
  rw [Postgres.ownRow, Postgres.lookup_deleteBoardRows]
  split
  · rfl
  · next hother =>
    cases hlookup : db.elements.lookup id with
    | none => rfl
    | some row => simpa [hlookup, Option.filter] using hother

/-- The row of an id after a full snapshot: that of the element read for it. -/
theorem ownRow_of_fullSnapshot {boardId : String} {k : BoardKeys} {db db' : Postgres}
    (hown : OwnIds k.elements.lookup)
    (hcommit : persistBoardFullSnapshot boardId k.elementList db = .ok db') (id : String) :
    RowMatches (db'.ownRow boardId id) ((parsedObject k.elements).lookup id) := by
  have hread : ∀ id e, (parsedObject k.elements).lookup id = some e → e.id = id := by
    intro id e he
    rw [lookup_parsedObject] at he
    split at he
    · cases he
    · exact hown id e he
  have hstored : ∀ e ∈ k.elementList, (parsedObject k.elements).lookup e.id = some e := by
    intro e he
    obtain ⟨entry, hentry, rfl⟩ := List.mem_map.mp he
    have hlookup := AList.mem_lookup_iff.mpr hentry
    rw [hread entry.1 entry.2 hlookup]
    exact hlookup
  have hlisted : ∀ e, (parsedObject k.elements).lookup id = some e → e ∈ k.elementList :=
    fun e he => List.mem_map.mpr ⟨⟨id, e⟩, AList.mem_lookup_iff.mp he, rfl⟩
  simp only [persistBoardFullSnapshot] at hcommit
  split at hcommit
  · next hempty =>
    -- no element, and no row
    obtain rfl := Except.ok.inj hcommit
    rw [Postgres.ownRow_deleteBoardRows]
    have hnone : (parsedObject k.elements).lookup id = none := by
      cases hlookup : (parsedObject k.elements).lookup id with
      | none => rfl
      | some e =>
        have hmem := hlisted e hlookup
        rw [List.isEmpty_iff, List.map_eq_nil_iff] at hempty
        rw [hempty] at hmem
        cases hmem
    rw [hnone]
    trivial
  · obtain ⟨-, hacc, hnd, -, rfl⟩ := Postgres.insertNew_ok hcommit
    simp only [Postgres.ownRow, lookup_insertAll_accept _ _ hacc hnd]
    cases hlookup : (parsedObject k.elements).lookup id with
    | some e =>
      have hmem := List.mem_map_of_mem (f := toElementRow boardId) (hlisted e hlookup)
      have hid : (toElementRow boardId e).id = id := hread id e hlookup
      cases hfind : (k.elementList.map (toElementRow boardId)).find? (·.id == id) with
      | none => exact absurd (List.find?_eq_none.mp hfind _ hmem) (by simp [hid])
      | some r =>
        obtain ⟨e', he', rfl⟩ := List.mem_map.mp (List.mem_of_find?_eq_some hfind)
        have hid' : e'.id = id := by simpa [toElementRow] using List.find?_some hfind
        have hsame := hstored e' he'
        rw [hid', hlookup] at hsame
        obtain rfl := Option.some.inj hsame
        obtain ⟨a, ha⟩ := Option.isSome_iff_exists.mp (hacc _ hmem)
        have hboard : a.2.boardId = pgUuid boardId := (NewElementRow.accept_eq_some ha).2.1
        simp only [ha, Option.map_some, Option.filter, hboard, beq_self_eq_true, if_true]
        exact rowHolds_accept ha
    | none =>
      cases hfind : (k.elementList.map (toElementRow boardId)).find? (·.id == id) with
      | none =>
        rw [← Postgres.ownRow, Postgres.ownRow_deleteBoardRows]
        trivial
      | some r =>
        obtain ⟨e', he', rfl⟩ := List.mem_map.mp (List.mem_of_find?_eq_some hfind)
        have hid' : e'.id = id := by simpa [toElementRow] using List.find?_some hfind
        have hsame := hstored e' he'
        rw [hid', hlookup] at hsame
        cases hsame

/-! ### What a flush would write -/

theorem nodup_upserts {boardId : String} {k : BoardKeys} (hown : OwnIds k.elements.lookup) :
    (((dirtySnapshot k).upserts boardId).map (·.id)).Nodup := by
  unfold DirtySnapshot.upserts
  rw [List.map_filterMap]
  refine List.Nodup.filterMap ?_ (AList.keys_nodup k.dirtyElementIds)
  intro id id' rowId hid hid'
  -- a row carries the id it was read under
  have hrow : ∀ id, rowId ∈ Option.map (·.id) (if id = "" then none
      else ((dirtySnapshot k).rawDirtyElements id).map (toElementRow boardId)) → rowId = id := by
    intro id hmem
    split at hmem
    · cases hmem
    · simp only [Option.map_map, Option.mem_def, Option.map_eq_some_iff] at hmem
      obtain ⟨e, he, rfl⟩ := hmem
      exact hown id e he
  rw [← hrow id hid, ← hrow id' hid']

/-- The ids marked are few enough for the two statements of a flush. -/
def FewMarked (k : BoardKeys) : Prop :=
  1 + k.deletedElementIds.keys.length < MAX_PARAMETERS ∧
    5 * k.dirtyElementIds.keys.length + 2 < MAX_PARAMETERS

instance (k : BoardKeys) : Decidable (FewMarked k) := by unfold FewMarked; infer_instance

/-- Postgres takes what a flush would write when it takes every dirty element and can compare with
    every deleted id. -/
theorem writable_dirtySnapshot {boardId : String} {k : BoardKeys} (hown : OwnIds k.elements.lookup)
    (hpresent : ∀ id ∈ k.dirtyElementIds, k.elements.lookup id ≠ none)
    (hdeleted : ∀ id ∈ k.deletedElementIds, storableText id)
    (hdirty : ∀ id ∈ k.dirtyElementIds, ∀ e, k.elements.lookup id = some e →
      (toElementRow boardId e).accept.isSome)
    (hfew : FewMarked k) : (dirtySnapshot k).Writable boardId := by
  -- every dirty element is there
  have hnone : (dirtySnapshot k).dirtyIds.filter (fun id =>
      id ≠ "" ∧ ((dirtySnapshot k).rawDirtyElements id).isNone) = [] := by
    rw [List.filter_eq_nil_iff]
    intro id hid hgone
    simp only [decide_eq_true_eq, Option.isNone_iff_eq_none] at hgone
    exact hpresent id (AList.mem_keys.mpr hid) hgone.2
  have hdeletes : (dirtySnapshot k).deletes = toSet k.deletedElementIds.keys := by
    rw [DirtySnapshot.deletes, hnone, List.append_nil]
    rfl
  refine ⟨?_, ?_, nodup_upserts hown, ?_, ?_⟩
  · intro id hid
    rw [hdeletes, mem_toSet] at hid
    exact hdeleted id (AList.mem_keys.mpr hid)
  · intro row hrow
    obtain ⟨id, hid, hrow⟩ := List.mem_filterMap.mp hrow
    split at hrow
    · cases hrow
    · obtain ⟨e, he, rfl⟩ := Option.map_eq_some_iff.mp hrow
      exact hdirty id (AList.mem_keys.mpr hid) e he
  · have hle := length_toSet_le k.deletedElementIds.keys
    rw [hdeletes]
    exact Nat.lt_of_le_of_lt (by omega) hfew.1
  · have hle : ((dirtySnapshot k).upserts boardId).length ≤ k.dirtyElementIds.keys.length :=
      List.length_filterMap_le _ _
    exact Nat.lt_of_le_of_lt (by omega) hfew.2

end Notebortt
