import Notebortt.BoardState.ChangeSets
import Notebortt.BoardState.TrackedRows
import Notebortt.Lib.Transition

/-! # The two modes of a flush

    One existing board that is loaded, changed, flushed and evicted, one
    operation at a time and in any order. The incremental flush writes what the
    two id sets name, the full one all there is. -/

open Transition

namespace Notebortt.PersistModes

/-! ### What the modes leave -/

/-- The rows of the board are the same: type and data under every id. -/
def SameRow : Option ElementRow → Option ElementRow → Prop
  | some row, some row' => row.type = row'.type ∧ ∀ key, row.data.lookup key = row'.data.lookup key
  | none, none => True
  | _, _ => False

/-- A transaction that fails leaves the tables as they were. -/
def left (db : Postgres) : Except QueryError Postgres → Postgres
  | .ok db' => db'
  | .error _ => db

/-- `persistBoardIncremental` and `persistBoardFullSnapshot` leave the same rows of the board. -/
structure ModesAgree (boardId : String) (s : Server) : Prop where
  rows : ∀ id,
    SameRow
      ((left s.db (persistBoardIncremental boardId (dirtySnapshot (s.redis boardId)) s.db)).ownRow
        boardId id)
      ((left s.db (persistBoardFullSnapshot boardId (s.redis boardId).elementList s.db)).ownRow
        boardId id)

/-! ### The system -/

/-- What `toElementRow` leaves in a row: a checked type, and data without the other columns. -/
structure AsWritten (id : String) (row : ElementRow) : Prop where
  type : row.type ∈ VALID_ELEMENT_TYPES
  id : storableText id = true
  data : Fields.storable row.data = true
  kind : row.data.lookup "kind" = none

/-- No id in the hash is the key of a row of another board. -/
def uniqueIds (boardId : String) (s : Server) : Bool :=
  (s.redis boardId).elements.keys.all fun id =>
    (s.db.elements.lookup id).all (·.boardId == pgUuid boardId)

/-- An existing board that is not loaded, whatever its rows. -/
structure Init (boardId : String) (s : Server) : Prop where
  board : IsExistingBoard s.db boardId
  emptied : Emptied (s.redis boardId)
  rows : ∀ id row, s.db.ownRow boardId id = some row → AsWritten id row

inductive Label where
  | load
  | apply (trackChangeLog : Bool) (now : Nat) (changeSet : ElementChangeSet)
  | persist (cfg : Config) (now : Nat)
  /-- `flushBoard`, whether or not what it evicts has been flushed. -/
  | flush

/-- The server after a change set. -/
def applied (boardId : String) (trackChangeLog : Bool) (now : Nat) (changeSet : ElementChangeSet)
    (s : Server) : Server :=
  s.setKeys boardId (applyChangeSet trackChangeLog now changeSet (s.redis boardId)).2

/-- The step function. A change that would store the id of another board's row is not taken: element
    ids are unique. -/
def step (boardId : String) (s : Server) : Label → Option Server
  | .load => some (loadBoard boardId s)
  | .apply trackChangeLog now changeSet =>
    let s' := applied boardId trackChangeLog now changeSet s
    if uniqueIds boardId s' then some s' else none
  | .persist cfg now => some (persistBoard cfg now boardId s).2
  | .flush => some { s with redis := flushBoard boardId s.redis }

def system (boardId : String) : System Server Label where
  init := Init boardId
  step := step boardId

/-- The elements are few enough for the INSERT of a flush, and the ids marked as deleted for its
    DELETE. -/
def FewStored (k : BoardKeys) : Prop :=
  5 * k.elements.keys.length + 2 < MAX_PARAMETERS ∧
    1 + k.deletedElementIds.keys.length < MAX_PARAMETERS

instance (k : BoardKeys) : Decidable (FewStored k) := by unfold FewStored; infer_instance

/-- What a step needs for the two sets to account for it. A change comes to a loaded board, or to
    one without rows; it stores no element under the empty id or under `__proto__`, and deletes only
    ids that Postgres can compare with. A load finds no row under `__proto__`. Neither leaves more
    on the board than one query can name. -/
def TracksIds (boardId : String) (s : Server) : Label → Prop
  | .apply trackChangeLog now changeSet =>
    let resolved := resolveChangeSet (s.redis boardId).elementList changeSet
    (resolved.upserts.isEmpty ∧ resolved.deletes.isEmpty) ∨
      ((s.redis boardId).seq.isSome ∨ (s.db.rowsOf boardId).isEmpty) ∧
        (∀ e ∈ resolved.upserts, e.id ≠ "" ∧ e.id ≠ "__proto__") ∧
        (∀ id ∈ resolved.deletes, storableText id = true) ∧
        FewStored ((applied boardId trackChangeLog now changeSet s).redis boardId)
  | .load =>
    (s.redis boardId).seq.isSome ∨
      "__proto__" ∉ (s.db.rowsOf boardId).map (·.1) ∧
        FewStored ((loadBoard boardId s).redis boardId)
  | _ => True

instance (boardId : String) (s : Server) (l : Label) : Decidable (TracksIds boardId s l) := by
  unfold TracksIds
  split <;> infer_instance

section proofs
variable {boardId : String} {s s' : Server} {l : Label} {k : BoardKeys} {db db' : Postgres}

/-! ### Rows as written -/

theorem storable_congr {data data' : Fields} (hsame : ∀ key, data.lookup key = data'.lookup key)
    (h : Fields.storable data = true) : Fields.storable data' = true := by
  rw [Fields.storable_iff] at h ⊢
  intro key value hlookup
  exact h key value ((hsame key).trans hlookup)

/-- A row whose data has no kind holds the element it loads as. -/
theorem rowHolds_dbRow {id : String} {row : ElementRow} (hkind : row.data.lookup "kind" = none) :
    RowHolds row (dbRowToBoardElement id row) := by
  have hsingle : ∀ key, (AList.singleton "kind" (.str row.type) : Fields).lookup key =
      if key = "kind" then some (.str row.type) else none := fun key =>
    Dict.lookup_insert_ite ∅ "kind" key _
  constructor
  · show (row.data ∪ AList.singleton "kind" (.str row.type)).lookup "kind" = _
    rw [Dict.lookup_union, hkind, hsingle]
    rfl
  · intro key
    show row.data.lookup key =
      ((row.data ∪ AList.singleton "kind" (.str row.type)).erase "kind").lookup key
    rw [Dict.lookup_erase_ite, Dict.lookup_union, hsingle]
    by_cases hkey : key = "kind"
    · rw [if_pos hkey, hkey, hkind]
    · rw [if_neg hkey, if_neg hkey, Option.or_none]

/-- Postgres takes an element whose row it already has. -/
theorem accept_of_rowHolds {id : String} {row : ElementRow} {e : BoardElement}
    (hwritten : AsWritten id row) (hid : e.id = id) (hholds : RowHolds row e) :
    (toElementRow boardId e).accept.isSome := by
  have hdata : Fields.storable (e.fields.erase "kind") = true :=
    storable_congr hholds.data hwritten.data
  have hidText : storableText e.id = true := hid ▸ hwritten.id
  simp [toElementRow, NewElementRow.accept, hholds.type, hwritten.type, hidText, hdata]

/-- The row of an element that Postgres takes is as the writer leaves it. -/
theorem asWritten_of_accept {id : String} {row : ElementRow} {e : BoardElement}
    (hacc : (toElementRow boardId e).accept.isSome) (hid : e.id = id) (hholds : RowHolds row e) :
    AsWritten id row := by
  simp only [toElementRow, NewElementRow.accept, hholds.type] at hacc
  split at hacc
  · next hchecks =>
    exact {
      type := hchecks.1
      id := hid ▸ hchecks.2.1
      data := storable_congr (fun key => (hholds.data key).symm) hchecks.2.2
      kind := by rw [hholds.data, Dict.lookup_erase_ite, if_pos rfl] }
  · cases hacc

/-! ### Unique ids -/

theorem uniqueIds_iff :
    uniqueIds boardId s = true ↔
      ∀ id e, (s.redis boardId).elements.lookup id = some e →
        ∀ row, s.db.elements.lookup id = some row → row.boardId = pgUuid boardId := by
  have hkey : ∀ id, id ∈ (s.redis boardId).elements.keys ↔
      ∃ e, (s.redis boardId).elements.lookup id = some e := fun id => by
    rw [← AList.mem_keys, ← AList.lookup_isSome, Option.isSome_iff_exists]
  simp only [uniqueIds, List.all_eq_true, Option.all_eq_true, beq_iff_eq, hkey]
  exact ⟨fun h id e he => h id ⟨e, he⟩, fun h id ⟨e, he⟩ => h id e he⟩

/-- An id with a row of the board is no other board's. -/
theorem own_of_ownRow {id : String} {row stored : ElementRow}
    (hrow : db.ownRow boardId id = some row) (hstored : db.elements.lookup id = some stored) :
    stored.boardId = pgUuid boardId := by
  rw [Postgres.ownRow, hstored, Option.filter_eq_some_iff] at hrow
  obtain ⟨hsame, hown⟩ := hrow
  simpa [← Option.some.inj hsame] using hown

/-! ### Success in both modes -/

/-- A snapshot of accepted elements whose ids no other board has commits. -/
theorem fullSnapshot_isOk (hboard : pgUuid boardId ∈ db.boards) (hown : OwnIds k.elements.lookup)
    (hfew : 5 * k.elements.keys.length < MAX_PARAMETERS)
    (hunique : ∀ id e, k.elements.lookup id = some e →
      ∀ row, db.elements.lookup id = some row → row.boardId = pgUuid boardId)
    (hacc : ∀ id e, k.elements.lookup id = some e → (toElementRow boardId e).accept.isSome) :
    ∃ db', persistBoardFullSnapshot boardId k.elementList db = .ok db' := by
  have hlookup : ∀ e ∈ k.elementList, k.elements.lookup e.id = some e := by
    intro e he
    obtain ⟨id, _, hstored⟩ := BoardKeys.mem_elementList.mp he
    rw [hown id e hstored]
    exact hstored
  have hids : (k.elementList.map (toElementRow boardId)).map (·.id) =
      (parsedObject k.elements).keys := by
    simp only [BoardKeys.elementList, AList.keys, List.keys, List.map_map]
    refine List.map_congr_left fun entry hentry => ?_
    have hread := AList.mem_lookup_iff.mpr hentry
    rw [lookup_parsedObject] at hread
    split at hread
    · cases hread
    · exact hown entry.1 entry.2 hread
  have hcount : (k.elementList.map (toElementRow boardId)).length ≤ k.elements.keys.length := by
    rw [← List.length_map (f := (·.id)), hids]
    exact Dict.length_keys_erase_le _ _
  simp only [persistBoardFullSnapshot]
  split
  · exact ⟨_, rfl⟩
  · refine ⟨_, Postgres.insertNew_of_accepted (by omega) ?_ ?_ ?_ ?_⟩
    · intro r hr
      obtain ⟨e, he, rfl⟩ := List.mem_map.mp hr
      exact hacc e.id e (hlookup e he)
    · rw [hids]
      exact (parsedObject k.elements).keys_nodup
    · -- the rows of the board are gone, and no other board has the id
      intro r hr hmem
      obtain ⟨e, he, rfl⟩ := List.mem_map.mp hr
      obtain ⟨row, hrow⟩ := Option.isSome_iff_exists.mp (AList.lookup_isSome.mpr hmem)
      rw [Postgres.lookup_deleteBoardRows] at hrow
      split at hrow
      · cases hrow
      · next hother =>
        have hboardId := hunique e.id e (hlookup e he) row hrow
        exact hother (by rw [hrow]; simpa using hboardId)
    · intro r hr
      obtain ⟨e, he, rfl⟩ := List.mem_map.mp hr
      exact hboard

/-- A committed flush has taken every element, when Postgres takes those that are not dirty. -/
theorem accept_of_commit {cfg : Config} (hempty : ∀ id ∈ k.dirtyElementIds, id ≠ "")
    (hproto : k.elements.lookup "__proto__" = none)
    (hclean : ∀ id e, k.elements.lookup id = some e → id ∉ k.dirtyElementIds →
      (toElementRow boardId e).accept.isSome)
    (hcommit : flushTransaction cfg boardId k db = .ok db') {id : String} {e : BoardElement}
    (he : k.elements.lookup id = some e) : (toElementRow boardId e).accept.isSome := by
  unfold flushTransaction at hcommit
  split at hcommit
  · by_cases hdirty : id ∈ k.dirtyElementIds
    · have hacc := (persistBoardIncremental_writable hcommit).rows
      have hraw : (dirtySnapshot k).rawDirtyElements id = some e := he
      exact hacc _ (List.mem_filterMap.mpr ⟨id, AList.mem_keys.mp hdirty, by
        rw [if_neg (hempty id hdirty), hraw, Option.map_some]⟩)
    · exact hclean id e he hdirty
  · have hid : id ≠ "__proto__" := by
      rintro rfl
      rw [hproto] at he
      cases he
    have hmem : toElementRow boardId e ∈ k.elementList.map (toElementRow boardId) :=
      List.mem_map_of_mem (BoardKeys.mem_elementList.mpr ⟨id, hid, he⟩)
    simp only [persistBoardFullSnapshot] at hcommit
    split at hcommit
    · next hnone =>
      rw [List.isEmpty_iff] at hnone
      rw [hnone] at hmem
      cases hmem
    · exact (Postgres.insertNew_ok hcommit).2.1 _ hmem

/-! ### The invariant -/

structure Inv (boardId : String) (s : Server) : Prop where
  board : IsExistingBoard s.db boardId
  rows : ∀ id row, s.db.ownRow boardId id = some row → AsWritten id row
  unique : uniqueIds boardId s = true
  /-- What is not loaded is empty. -/
  unloaded : (s.redis boardId).seq = none → Emptied (s.redis boardId)
  /-- Of a loaded board, the rows outside the two sets match. -/
  tracked : (s.redis boardId).seq.isSome →
    Tracked (fun _ => True) RowMatches boardId (s.redis boardId) s.db
  accepted : ∀ id e, (s.redis boardId).elements.lookup id = some e →
    id ∉ (s.redis boardId).dirtyElementIds → (toElementRow boardId e).accept.isSome
  dirty : ∀ id ∈ (s.redis boardId).dirtyElementIds, id ≠ ""
  deleted : ∀ id ∈ (s.redis boardId).deletedElementIds, storableText id = true
  proto : (s.redis boardId).elements.lookup "__proto__" = none
  few : FewStored (s.redis boardId)

theorem inv_init (h : Init boardId s) : Inv boardId s where
  board := h.board
  rows := h.rows
  unique := by simp [uniqueIds, h.emptied.elements]
  unloaded := fun _ => h.emptied
  tracked := by
    intro hloaded
    simp [h.emptied.seq] at hloaded
  accepted := by simp [h.emptied.elements]
  dirty := by simp [h.emptied.dirty]
  deleted := by simp [h.emptied.deleted]
  proto := by simp [h.emptied.elements]
  few := by simp [FewStored, h.emptied.elements, h.emptied.deleted]

/-- An empty board without rows is tracked as it is. -/
theorem Inv.unloaded_tracked (h : Inv boardId s) (hseq : (s.redis boardId).seq = none)
    (hnone : (s.db.rowsOf boardId).isEmpty) :
    Tracked (fun _ => True) RowMatches boardId (s.redis boardId) s.db := by
  have hempty := h.unloaded hseq
  constructor
  · simp [hempty.elements, OwnIds]
  · simp [hempty.dirty]
  · simp [hempty.deleted]
  · intro id _ _ _
    have hrow : s.db.ownRow boardId id = none := by
      cases hrow : s.db.ownRow boardId id with
      | none => rfl
      | some row =>
        rw [Postgres.ownRow_eq_some, List.isEmpty_iff.mp hnone] at hrow
        cases hrow
    rw [hrow, hempty.elements]
    trivial

/-- The dirty ids are ids of elements, and so as few. -/
theorem FewStored.fewMarked {P : String → Prop} {R : Option ElementRow → Option BoardElement → Prop}
    (hfew : FewStored k) (h : Tracked P R boardId k db) : FewMarked k := by
  have hsub : k.dirtyElementIds.keys ⊆ k.elements.keys := fun id hid =>
    AList.mem_keys.mp (AList.lookup_isSome.mp (h.dirty id (AList.mem_keys.mpr hid)))
  have hle := (List.subperm_of_subset k.dirtyElementIds.keys_nodup hsub).length_le
  have hfew₁ := hfew.1
  exact ⟨hfew.2, by omega⟩

/-! ### What each operation keeps -/

theorem Inv.loadBoard (h : Inv boardId s) (htracks : TracksIds boardId s .load) :
    Inv boardId (loadBoard boardId s) := by
  cases hseq : (s.redis boardId).seq with
  | some sequence =>
    have hsame : Notebortt.loadBoard boardId s = s := by simp [Notebortt.loadBoard, hseq]
    rw [hsame]
    exact h
  | none =>
    have hempty := h.unloaded hseq
    obtain ⟨hproto, hfew⟩ := htracks.resolve_left (by simp [hseq])
    have hlookup := loadBoard_of_emptied hempty
    have hdb : (Notebortt.loadBoard boardId s).db = s.db := loadBoard_db boardId s
    have hkeys : (Notebortt.loadBoard boardId s).redis boardId =
        { s.redis boardId with
          elements := Dict.insertAll (s.redis boardId).elements (loadedElements boardId s.db)
          seq := some 0 } := by
      simp [Notebortt.loadBoard, hseq]
    constructor
    · rw [hdb]
      exact h.board
    · rw [hdb]
      exact h.rows
    · rw [uniqueIds_iff, hdb]
      intro id e he stored hstored
      rw [hlookup] at he
      obtain ⟨row, hrow, -⟩ := Option.map_eq_some_iff.mp he
      exact own_of_ownRow hrow hstored
    · intro hnone
      rw [hkeys] at hnone
      cases hnone
    · intro _
      refine tracked_loadBoard hempty fun id _ => ?_
      cases hrow : s.db.ownRow boardId id with
      | none => trivial
      | some row => exact rowHolds_dbRow (h.rows id row hrow).kind
    · intro id e he _
      rw [hlookup] at he
      obtain ⟨row, hrow, rfl⟩ := Option.map_eq_some_iff.mp he
      have hwritten := h.rows id row hrow
      exact accept_of_rowHolds hwritten rfl (rowHolds_dbRow hwritten.kind)
    · rw [hkeys]
      exact h.dirty
    · rw [hkeys]
      exact h.deleted
    · rw [hlookup, Option.map_eq_none_iff]
      cases hrow : s.db.ownRow boardId "__proto__" with
      | none => rfl
      | some row =>
        exact absurd (List.mem_map.mpr ⟨_, Postgres.ownRow_eq_some.mp hrow, rfl⟩) hproto
    · exact hfew

theorem Inv.applied (h : Inv boardId s) {trackChangeLog : Bool} {now : Nat}
    {changeSet : ElementChangeSet}
    (htracks : TracksIds boardId s (.apply trackChangeLog now changeSet))
    (hunique : uniqueIds boardId (applied boardId trackChangeLog now changeSet s) = true) :
    Inv boardId (applied boardId trackChangeLog now changeSet s) := by
  cases hresult : (applyChangeSet trackChangeLog now changeSet (s.redis boardId)).1 with
  | none =>
    -- nothing to write
    have hsame : PersistModes.applied boardId trackChangeLog now changeSet s = s := by
      rw [PersistModes.applied, applyChangeSet_of_none _ _ _ hresult]
      simp [Server.setKeys]
    rw [hsame]
    exact h
  | some change =>
    obtain ⟨hupserts, hdeletes, -, hwritten⟩ := applyChangeSet_of_change _ _ _ hresult
    obtain ⟨hloaded, hids, hstorable, hfew⟩ := htracks.resolve_left fun hnone => by
      rw [List.isEmpty_iff, List.isEmpty_iff] at hnone
      rw [(applyChangeSet_eq_none_iff _ _ _).mpr hnone] at hresult
      cases hresult
    have htracked : Tracked (fun _ => True) RowMatches boardId (s.redis boardId) s.db := by
      cases hseq : (s.redis boardId).seq with
      | some sequence => exact h.tracked (by rw [hseq]; rfl)
      | none => exact h.unloaded_tracked hseq (hloaded.resolve_left (by simp [hseq]))
    have hkeys : (PersistModes.applied boardId trackChangeLog now changeSet s).redis boardId =
        (applyChangeSet trackChangeLog now changeSet (s.redis boardId)).2 :=
      Server.setKeys_redis_self _ _ _
    have hnumbered : Tracked (fun _ => True) RowMatches boardId
        { s.redis boardId with seq := some (peekSequence (s.redis boardId) + 1) } s.db :=
      ⟨htracked.ownIds, htracked.dirty, htracked.deleted, htracked.rows⟩
    constructor
    · exact h.board
    · exact h.rows
    · exact hunique
    · intro hnone
      rw [hkeys, hwritten.seq] at hnone
      cases hnone
    · intro _
      rw [hkeys]
      exact hnumbered.written hwritten
    · rw [hkeys]
      intro id e he hdirty
      simp only [hwritten.dirty, not_and, not_or] at hdirty
      have hkept : id ∉ change.deletes := by
        intro hdelete
        rw [hwritten.elements, lookup_applyTo_of_delete hdelete] at he
        cases he
      obtain ⟨hupsert, hclean⟩ := hdirty hkept
      have hnot : id ∉ change.ids := by simp [PersistedElementChange.ids, hkept, hupsert]
      rw [hwritten.elements, lookup_applyTo_of_not_mem hnot] at he
      exact h.accepted id e he hclean
    · rw [hkeys]
      intro id hdirty
      rcases ((hwritten.dirty id).mp hdirty).2 with hupsert | hbefore
      · obtain ⟨e, he, rfl⟩ := List.mem_map.mp hupsert
        exact (hids e (hupserts ▸ he)).1
      · exact h.dirty id hbefore
    · rw [hkeys]
      intro id hdeleted
      rcases (hwritten.deleted id).mp hdeleted with hdelete | ⟨-, hbefore⟩
      · exact hstorable id (hdeletes ▸ hdelete)
      · exact h.deleted id hbefore
    · rw [hkeys, hwritten.elements]
      by_cases hdelete : "__proto__" ∈ change.deletes
      · exact lookup_applyTo_of_delete hdelete _
      · have hnot : "__proto__" ∉ change.ids := by
          simp only [PersistedElementChange.ids, List.mem_append, not_or, List.mem_map]
          refine ⟨?_, hdelete⟩
          rintro ⟨e, he, hid⟩
          exact (hids e (hupserts ▸ he)).2 hid
        rw [lookup_applyTo_of_not_mem hnot]
        exact h.proto
    · exact hfew

/-- A board that is not loaded only leaves the indexes. -/
theorem Inv.unindexed (h : Inv boardId s) :
    Inv boardId (s.setKeys boardId (s.redis boardId).unindex) := by
  constructor
  · exact h.board
  · exact h.rows
  · simpa [uniqueIds, BoardKeys.unindex] using h.unique
  · intro hnone
    rw [Server.setKeys_redis_self] at hnone ⊢
    have hempty := h.unloaded hnone
    exact ⟨hempty.seq, hempty.elements, hempty.dirty, hempty.deleted⟩
  · intro hsome
    rw [Server.setKeys_redis_self] at hsome ⊢
    have htracked := h.tracked hsome
    exact ⟨htracked.ownIds, htracked.dirty, htracked.deleted, htracked.rows⟩
  · rw [Server.setKeys_redis_self]
    exact h.accepted
  · rw [Server.setKeys_redis_self]
    exact h.dirty
  · rw [Server.setKeys_redis_self]
    exact h.deleted
  · rw [Server.setKeys_redis_self]
    exact h.proto
  · rw [Server.setKeys_redis_self]
    exact h.few

/-- A transaction that commits makes every row match its element, and every element an accepted one;
    the clear takes ids out of the two sets only. -/
theorem Inv.committed (h : Inv boardId s) (hloaded : (s.redis boardId).seq.isSome) {cfg : Config}
    {db' : Postgres} (hcommit : flushTransaction cfg boardId (s.redis boardId) s.db = .ok db')
    (now : Nat) :
    Inv boardId ({ s with db := db' }.setKeys boardId
      ((s.redis boardId).clearMarkers cfg.enableIncrementalPersistence
        (peekSequence (s.redis boardId)) now 0)) := by
  have htracked := h.tracked hloaded
  have hrows : ∀ id, RowMatches (db'.ownRow boardId id) ((s.redis boardId).elements.lookup id) :=
    fun id =>
      htracked.committed upToDate_rowMatches
        ⟨fun _ id hid _ => h.dirty id hid, fun _ _ => h.proto⟩ hcommit trivial
  have hacc : ∀ id e, (s.redis boardId).elements.lookup id = some e →
      (toElementRow boardId e).accept.isSome := fun id e he =>
    accept_of_commit h.dirty h.proto h.accepted hcommit he
  constructor
  · -- a flush writes no boards
    have hexists : pgUuid boardId ∈ db'.boards := by
      rw [flushTransaction_boards hcommit]
      exact h.board.2
    exact ⟨h.board.1, hexists⟩
  · intro id row hrow
    rw [Server.setKeys_db] at hrow
    have hmatches := hrows id
    rw [hrow] at hmatches
    obtain ⟨e, hlookup, hholds⟩ := hmatches.exists_element
    exact asWritten_of_accept (hacc id e hlookup) (htracked.ownIds id e hlookup) hholds
  · -- every element has its row in this board, and so in no other
    rw [uniqueIds_iff, Server.setKeys_redis_self, Server.setKeys_db]
    intro id e he stored hstored
    have hmatches := hrows id
    rw [show (s.redis boardId).elements.lookup id = some e from he] at hmatches
    obtain ⟨row, hrow, -⟩ := hmatches.exists_row
    exact own_of_ownRow hrow hstored
  · intro hnone
    rw [Server.setKeys_redis_self] at hnone
    have hnone : (s.redis boardId).seq = none := hnone
    simp [hnone] at hloaded
  · intro _
    rw [Server.setKeys_redis_self, Server.setKeys_db]
    exact htracked.clearMarkers (fun id _ => hrows id) _ _ _
  · rw [Server.setKeys_redis_self]
    exact fun id e he _ => hacc id e he
  · rw [Server.setKeys_redis_self]
    exact fun id hid => h.dirty id (BoardKeys.mem_dirty_clearMarkers.mp hid).2
  · rw [Server.setKeys_redis_self]
    exact fun id hid => h.deleted id (BoardKeys.mem_deleted_clearMarkers.mp hid).2
  · rw [Server.setKeys_redis_self]
    exact h.proto
  · rw [Server.setKeys_redis_self]
    refine ⟨h.few.1, ?_⟩
    cases hmode : cfg.enableIncrementalPersistence with
    | true => simp [BoardKeys.clearMarkers]
    | false => simpa [BoardKeys.clearMarkers] using h.few.2

theorem Inv.flushBoard (h : Inv boardId s) :
    Inv boardId { s with redis := flushBoard boardId s.redis } := by
  have hempty := emptied_flushBoard (isLiteralId_of_isUuidLike h.board.1) s.redis
  exact inv_init ⟨h.board, hempty, h.rows⟩

theorem Inv.persistBoard (h : Inv boardId s) (cfg : Config) (now : Nat) :
    Inv boardId (persistBoard cfg now boardId s).2 := by
  rcases persistBoard_cases cfg now boardId s with ⟨_, hrun⟩ | ⟨_, _, hrun⟩ |
    ⟨_, _, e, _, _, hrun⟩ | ⟨_, hloaded, db', hcommit, hrun⟩ <;> rw [hrun]
  · exact h.flushBoard
  · exact h.unindexed
  · exact h
  · exact h.committed hloaded hcommit now

theorem inv_step (h : Inv boardId s) (htracks : TracksIds boardId s l)
    (hstep : step boardId s l = some s') : Inv boardId s' := by
  cases l with
  | load =>
    obtain rfl := Option.some.inj hstep
    exact h.loadBoard htracks
  | apply trackChangeLog now changeSet =>
    simp only [step] at hstep
    split at hstep
    · next hunique =>
      obtain rfl := Option.some.inj hstep
      exact h.applied htracks hunique
    · cases hstep
  | persist cfg now =>
    obtain rfl := Option.some.inj hstep
    exact h.persistBoard cfg now
  | flush =>
    obtain rfl := Option.some.inj hstep
    exact h.flushBoard

/-! ### Agreement -/

theorem sameRow_of_matches {row row' : Option ElementRow} {e : Option BoardElement}
    (h : RowMatches row e) (h' : RowMatches row' e) : SameRow row row' := by
  cases row with
  | none =>
    cases row' with
    | none => trivial
    | some r' =>
      cases e with
      | none => cases h'
      | some e => cases h
  | some r =>
    cases e with
    | none => cases h
    | some e =>
      cases row' with
      | none => cases h'
      | some r' =>
        constructor
        · have htype := h.type.symm.trans h'.type
          simpa using htype
        · intro key
          exact (h.data key).trans (h'.data key).symm

theorem sameRow_refl (row : Option ElementRow) : SameRow row row := by
  cases row with
  | none => trivial
  | some r => exact ⟨rfl, fun _ => rfl⟩

/-- In a loaded state both modes commit or both fail, and what they commit are the elements. -/
theorem Inv.modesAgree (h : Inv boardId s) (hloaded : (s.redis boardId).seq.isSome) :
    ModesAgree boardId s := by
  have htracked := h.tracked hloaded
  constructor
  intro id
  cases hincremental : persistBoardIncremental boardId (dirtySnapshot (s.redis boardId)) s.db with
  | ok db₁ =>
    have hacc : ∀ id e, (s.redis boardId).elements.lookup id = some e →
        (toElementRow boardId e).accept.isSome := by
      have hcommit : flushTransaction {} boardId (s.redis boardId) s.db = .ok db₁ := hincremental
      exact fun id e he => accept_of_commit h.dirty h.proto h.accepted hcommit he
    have hunique := uniqueIds_iff.mp h.unique
    have hfew := h.few.1
    obtain ⟨db₂, hfull⟩ :=
      fullSnapshot_isOk h.board.2 htracked.ownIds (by omega) hunique hacc
    have hcommit : flushTransaction { enableIncrementalPersistence := false } boardId
        (s.redis boardId) s.db = .ok db₂ := hfull
    rw [hfull]
    exact sameRow_of_matches
      (htracked.incremental upToDate_rowMatches (fun id hid _ => h.dirty id hid) hincremental
        trivial)
      (htracked.committed upToDate_rowMatches ⟨fun _ id hid _ => h.dirty id hid, fun _ _ => h.proto⟩
        hcommit trivial)
  | error e =>
    -- what the incremental mode is refused, the full one is refused too
    cases hfull : persistBoardFullSnapshot boardId (s.redis boardId).elementList s.db with
    | error e' => exact sameRow_refl _
    | ok db₂ =>
      have hcommit : flushTransaction { enableIncrementalPersistence := false } boardId
          (s.redis boardId) s.db = .ok db₂ := hfull
      have hwritable : (dirtySnapshot (s.redis boardId)).Writable boardId :=
        writable_dirtySnapshot htracked.ownIds
        (fun id hid => Option.isSome_iff_ne_none.mp (htracked.dirty id hid)) h.deleted
        (fun id _ e he => accept_of_commit h.dirty h.proto h.accepted hcommit he)
        (h.few.fewMarked htracked)
      obtain ⟨db₁, hok⟩ := (persistBoardIncremental_isOk h.board.2).mpr hwritable
      rw [hok] at hincremental
      cases hincremental

/-- In every run whose changes all keep the two sets true, the two modes of a flush leave the same
    rows of a loaded board. (`persistBoard` runs neither on a board that is not loaded.) -/
theorem modesAgree_of_tracksIds
    (hreach : (system boardId).ReachableUnder (TracksIds boardId) s)
    (hloaded : (s.redis boardId).seq.isSome) : ModesAgree boardId s := by
  have hinv : Inv boardId s :=
    hreach.invariant (fun _ h => inv_init h) fun _ _ _ h htracks hstep => inv_step h htracks hstep
  exact hinv.modesAgree hloaded

end proofs

/-! ### Runs -/

def boardId : String := "3f2504e0-4f89-41d3-9a0c-0305e82c3301"

/-- A new board: a row in `boards`, and nothing else. -/
def newBoard : Server where
  redis := fun _ => {}
  db := { boards := AList.singleton boardId (), elements := ∅ }

def storeNote (id : String) : ElementChangeSet where
  upserts := [⟨id, AList.singleton "kind" (.str "NOTE")⟩]
  deletes := []

/-- The board with one stored note. -/
def withNote (id : String) : Server :=
  applied boardId true 1 (storeNote id) (loadBoard boardId newBoard)

theorem init_newBoard : Init boardId newBoard where
  board := by decide
  emptied := ⟨rfl, rfl, rfl, rfl⟩
  rows := by
    intro id row hrow
    cases hrow

/-- The note flushed. -/
def flushed : Server := (persistBoard {} 2 boardId (withNote "n1")).2

def deleteNote : ElementChangeSet where
  upserts := []
  deletes := ["n1"]

/-- A note that is stored, flushed and deleted. -/
theorem modesAgree_of_deletedNote :
    ModesAgree boardId (applied boardId true 3 deleteNote flushed) := by
  have hloaded : (system boardId).ReachableUnder (TracksIds boardId) (loadBoard boardId newBoard) :=
    .step .load (.init init_newBoard) (by decide) rfl
  have hstored : (system boardId).ReachableUnder (TracksIds boardId) (withNote "n1") :=
    .step (.apply true 1 (storeNote "n1")) hloaded (by decide) rfl
  have hflushed : (system boardId).ReachableUnder (TracksIds boardId) flushed :=
    .step (.persist {} 2) hstored trivial rfl
  have htracks : TracksIds boardId flushed (.apply true 3 deleteNote) := by decide
  have hunique : uniqueIds boardId (applied boardId true 3 deleteNote flushed) = true := by decide
  have hstep : (system boardId).step flushed (.apply true 3 deleteNote) =
      some (applied boardId true 3 deleteNote flushed) := if_pos (e := none) hunique
  have hreach : (system boardId).ReachableUnder (TracksIds boardId)
      (applied boardId true 3 deleteNote flushed) :=
    .step (.apply true 3 deleteNote) hflushed htracks hstep
  have hseq : ((applied boardId true 3 deleteNote flushed).redis boardId).seq.isSome = true := by
    decide
  exact modesAgree_of_tracksIds hreach hseq

/-- A note under the empty id: the full mode writes it, the incremental one skips it. -/
theorem empty_id_in_one_mode :
    ¬ ∀ (boardId : String) (s : Server), (system boardId).Reachable s →
      (s.redis boardId).seq.isSome → ModesAgree boardId s := by
  intro h
  have hreach : (system boardId).Reachable (withNote "") :=
    .step (.apply true 1 (storeNote "")) (.step .load (.init init_newBoard) rfl) rfl
  have hsame := (h boardId (withNote "") hreach rfl).rows ""
  exact hsame

end Notebortt.PersistModes
