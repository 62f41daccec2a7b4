import Notebortt.BoardState.Postgres

/-! # Flushing, evicting and loading a board

    `board-state/persistence-domain.ts` and the loader of `load-domain.ts`. The
    parts of a flush are functions of their own (what it read, what it commits,
    the compare-and-clear), shared by the runs below, in which nothing else
    happens meanwhile, and by the interleaved systems. -/

namespace Notebortt

/-- The two switches of `shared/config.ts` that the board state reads. -/
structure Config where
  enableIncrementalPersistence : Bool := true
  enableTargetedMutationReads : Bool := true

/-- The two stores. -/
structure Server where
  redis : Redis
  db : Postgres

/-- The server with the keys of one board replaced. -/
def Server.setKeys (s : Server) (boardId : String) (keys : BoardKeys) : Server :=
  { s with redis := Function.update s.redis boardId keys }

@[simp] theorem Server.setKeys_redis_self (s : Server) (boardId : String) (keys : BoardKeys) :
    (s.setKeys boardId keys).redis boardId = keys := by
  simp [setKeys]

@[simp] theorem Server.setKeys_redis_ne (s : Server) {boardId other : String} (keys : BoardKeys)
    (h : other ≠ boardId) : (s.setKeys boardId keys).redis other = s.redis other := by
  simp [setKeys, h]

@[simp] theorem Server.setKeys_db (s : Server) (boardId : String) (keys : BoardKeys) :
    (s.setKeys boardId keys).db = s.db := rfl

/-! ### Board ids -/

def isHexByte (c : UInt8) : Bool :=
  (48 ≤ c && c ≤ 57) || (97 ≤ c && c ≤ 102) || (65 ≤ c && c ≤ 70)

/-- `UUID_V4_LIKE`, which accepts ASCII only and so can be read on the bytes. -/
def isUuidLike (value : String) : Bool :=
  (keyBytes value).length == 36 &&
    (keyBytes value).zipIdx.all fun (c, i) =>
      if i = 8 ∨ i = 13 ∨ i = 18 ∨ i = 23 then c == 45
      else if i = 14 then 49 ≤ c && c ≤ 53
      else if i = 19 then c == 56 || c == 57 || c == 97 || c == 98 || c == 65 || c == 66
      else isHexByte c

/-- The board has a row, which a flush needs. -/
def IsExistingBoard (db : Postgres) (boardId : String) : Prop :=
  isUuidLike boardId = true ∧ pgUuid boardId ∈ db.boards

instance (db : Postgres) (boardId : String) : Decidable (IsExistingBoard db boardId) := by
  unfold IsExistingBoard; infer_instance

/-! ### What a flush reads and commits -/

/-- The two SMEMBERS of `persistBoardIncremental`, and its HMGET read by id. -/
structure DirtySnapshot where
  dirtyIds : List String
  deletedIds : List String
  rawDirtyElements : String → Option BoardElement

/-- The snapshot of keys that nobody writes meanwhile. -/
def dirtySnapshot (k : BoardKeys) : DirtySnapshot where
  dirtyIds := k.dirtyElementIds.keys
  deletedIds := k.deletedElementIds.keys
  rawDirtyElements := k.elements.lookup

namespace DirtySnapshot

/-- `deletes`: the set of the deleted ids and of the dirty ids whose element is gone. -/
def deletes (snap : DirtySnapshot) : List String :=
  toSet (snap.deletedIds ++
    snap.dirtyIds.filter fun id => id ≠ "" ∧ (snap.rawDirtyElements id).isNone)

/-- `upserts`: one row for each dirty id whose element is there. An empty id is skipped. -/
def upserts (snap : DirtySnapshot) (boardId : String) : List NewElementRow :=
  snap.dirtyIds.filterMap fun id =>
    if id = "" then none else (snap.rawDirtyElements id).map (toElementRow boardId)

end DirtySnapshot

/-- The transaction of `persistBoardIncremental`. -/
def persistBoardIncremental (boardId : String) (snap : DirtySnapshot) (db : Postgres) :
    Except QueryError Postgres :=
  if snap.dirtyIds.isEmpty && snap.deletedIds.isEmpty then .ok db
  else
    match if snap.deletes.isEmpty then .ok db else db.runDeleteIds boardId snap.deletes with
    | .error e => .error e
    | .ok remaining =>
      if (snap.upserts boardId).isEmpty then .ok remaining
      else remaining.insertOrUpdate (snap.upserts boardId)

/-- Postgres takes what the snapshot would write. -/
structure DirtySnapshot.Writable (snap : DirtySnapshot) (boardId : String) : Prop where
  deletes : ∀ id ∈ snap.deletes, storableText id
  rows : ∀ r ∈ snap.upserts boardId, r.accept.isSome
  nodup : ((snap.upserts boardId).map (·.id)).Nodup
  /-- Both statements stay below the driver's limit. -/
  few : 1 + snap.deletes.length < MAX_PARAMETERS ∧
    5 * (snap.upserts boardId).length + 2 < MAX_PARAMETERS

theorem DirtySnapshot.upserts_boardId {snap : DirtySnapshot} {boardId : String}
    {r : NewElementRow} (h : r ∈ snap.upserts boardId) : r.boardId = pgUuid boardId := by
  simp only [upserts, List.mem_filterMap] at h
  obtain ⟨id, _, hr⟩ := h
  split at hr
  · cases hr
  · obtain ⟨e, _, rfl⟩ := Option.map_eq_some_iff.mp hr
    rfl

/-- When the DELETE of a flush goes through, and what it leaves. -/
theorem Postgres.runDeleteIds_ok {db db' : Postgres} {boardId : String} {ids : List String} :
    (if ids.isEmpty then .ok db else db.runDeleteIds boardId ids) = .ok db' ↔
      1 + ids.length < MAX_PARAMETERS ∧ (∀ id ∈ ids, storableText id) ∧
        db' = db.deleteIds boardId ids := by
  unfold Postgres.runDeleteIds
  by_cases hempty : ids = []
  · subst hempty
    have hsame : db.deleteIds boardId [] = db := rfl
    rw [hsame]
    simp only [List.isEmpty_nil, if_true, Except.ok.injEq, List.length_nil, Nat.add_zero,
      one_lt_maxParameters, List.not_mem_nil, false_implies, implies_true, true_and]
    exact eq_comm
  · rw [if_neg (by simpa using hempty)]
    by_cases hcount : MAX_PARAMETERS ≤ 1 + ids.length
    · rw [if_pos hcount]
      exact ⟨fun h => (by cases h), fun h => absurd hcount (Nat.not_le.mpr h.1)⟩
    · rw [if_neg hcount]
      simp only [Nat.not_le.mp hcount, true_and]
      by_cases hall : ∀ id ∈ ids, storableText id
      · rw [if_neg (by simpa using hall)]
        rw [Except.ok.injEq]
        exact ⟨fun h => ⟨hall, h.symm⟩, fun h => h.2.symm⟩
      · rw [if_pos (by simpa using hall)]
        exact ⟨fun h => (by cases h), fun h => absurd h.1 hall⟩

/-- When the transaction of a flush commits, and what it leaves. -/
theorem persistBoardIncremental_ok {boardId : String} {snap : DirtySnapshot} {db db' : Postgres} :
    persistBoardIncremental boardId snap db = .ok db' ↔
      snap.Writable boardId ∧ (snap.upserts boardId = [] ∨ pgUuid boardId ∈ db.boards) ∧
        db' = { db.deleteIds boardId snap.deletes with
          elements := Dict.insertAll (db.deleteIds boardId snap.deletes).elements
            ((snap.upserts boardId).filterMap NewElementRow.accept) } := by
  unfold persistBoardIncremental
  split
  · -- nothing is dirty: no transaction at all
    next hempty =>
    simp only [Bool.and_eq_true, List.isEmpty_iff] at hempty
    have hdeletes : snap.deletes = [] := by simp [DirtySnapshot.deletes, hempty, toSet]
    have hupserts : snap.upserts boardId = [] := by simp [DirtySnapshot.upserts, hempty]
    have hwritable : snap.Writable boardId := by
      constructor <;> simp [hdeletes, hupserts]
    have hsame : db.deleteIds boardId [] = db := rfl
    rw [Except.ok.injEq, hupserts, hdeletes, hsame]
    exact ⟨fun h => ⟨hwritable, .inl rfl, h.symm⟩, fun h => h.2.2.symm⟩
  · constructor
    · intro h
      cases hdelete : (if snap.deletes.isEmpty then Except.ok db
          else db.runDeleteIds boardId snap.deletes) with
      | error e =>
        rw [hdelete] at h
        cases h
      | ok remaining =>
        rw [hdelete] at h
        obtain ⟨hcount, hall, rfl⟩ := Postgres.runDeleteIds_ok.mp hdelete
        simp only at h
        split at h
        · next hnone =>
          rw [List.isEmpty_iff] at hnone
          rw [← Except.ok.inj h]
          refine ⟨⟨hall, ?_, ?_, hcount, ?_⟩, .inl hnone, ?_⟩ <;> simp [hnone]
        · next hsome =>
          obtain ⟨hfew, hacc, hnd, hboards, rfl⟩ := Postgres.insertOrUpdate_ok.mp h
          refine ⟨⟨hall, hacc, hnd, hcount, hfew⟩, .inr ?_, rfl⟩
          obtain ⟨r, hr⟩ := List.exists_mem_of_ne_nil _ (by simpa using hsome)
          have hboard := hboards r hr
          rw [DirtySnapshot.upserts_boardId hr] at hboard
          exact hboard
    · rintro ⟨hw, hboard, rfl⟩
      rw [Postgres.runDeleteIds_ok.mpr ⟨hw.few.1, hw.deletes, rfl⟩]
      simp only
      split
      · next hnone =>
        rw [List.isEmpty_iff] at hnone
        simp [hnone]
      · next hsome =>
        refine Postgres.insertOrUpdate_ok.mpr ⟨hw.few.2, hw.rows, hw.nodup, ?_, rfl⟩
        intro r hr
        rw [DirtySnapshot.upserts_boardId hr]
        exact hboard.resolve_left (by simpa using hsome)

/-- A flush of an existing board commits exactly when its snapshot is writable. -/
theorem persistBoardIncremental_isOk {boardId : String} {snap : DirtySnapshot} {db : Postgres}
    (hboard : pgUuid boardId ∈ db.boards) :
    (∃ db', persistBoardIncremental boardId snap db = .ok db') ↔ snap.Writable boardId := by
  constructor
  · rintro ⟨db', h⟩
    exact (persistBoardIncremental_ok.mp h).1
  · intro hw
    exact ⟨_, persistBoardIncremental_ok.mpr ⟨hw, .inr hboard, rfl⟩⟩

/-- A flush commits only what Postgres takes. -/
theorem persistBoardIncremental_writable {boardId : String} {snap : DirtySnapshot}
    {db db' : Postgres} (h : persistBoardIncremental boardId snap db = .ok db') :
    snap.Writable boardId :=
  (persistBoardIncremental_ok.mp h).1

/-- The table after a committed flush, row by row. -/
theorem persistBoardIncremental_lookup {boardId : String} {snap : DirtySnapshot} {db db' : Postgres}
    (h : persistBoardIncremental boardId snap db = .ok db') (id : String) :
    db'.elements.lookup id =
      match (snap.upserts boardId).find? (·.id == id) with
      | some r => r.accept.map (·.2)
      | none => (db.deleteIds boardId snap.deletes).elements.lookup id := by
  obtain ⟨hw, _, rfl⟩ := persistBoardIncremental_ok.mp h
  exact lookup_insertAll_accept _ id hw.rows hw.nodup

/-- A committed flush leaves the table of boards as it was. -/
theorem persistBoardIncremental_boards {boardId : String} {snap : DirtySnapshot} {db db' : Postgres}
    (h : persistBoardIncremental boardId snap db = .ok db') : db'.boards = db.boards := by
  obtain ⟨_, _, rfl⟩ := persistBoardIncremental_ok.mp h
  rfl

/-- The transaction of `persistBoardFullSnapshot`. -/
def persistBoardFullSnapshot (boardId : String) (elements : List BoardElement) (db : Postgres) :
    Except QueryError Postgres :=
  let nextRows := elements.map (toElementRow boardId)
  let remaining := db.deleteBoardRows boardId
  if nextRows.isEmpty then .ok remaining else remaining.insertNew nextRows

/-- The commands of the compare-and-clear script when it is not rejected. -/
def BoardKeys.clearMarkers (k : BoardKeys) (incremental : Bool)
    (snapshotSequence flushCompletedAt duration : Nat) : BoardKeys :=
  { k with
    inDirtyBoards := false
    dirtyByAge := none
    dirtySince := none
    lastFlushedSeq := some snapshotSequence
    lastFlushedAt := some flushCompletedAt
    lastFlushDuration := some duration
    dirtyElementIds := if incremental then ∅ else k.dirtyElementIds
    deletedElementIds := if incremental then ∅ else k.deletedElementIds }

theorem BoardKeys.mem_dirty_clearMarkers {k : BoardKeys} {incremental : Bool}
    {snapshotSequence flushCompletedAt duration : Nat} {id : String} :
    id ∈ (k.clearMarkers incremental snapshotSequence flushCompletedAt duration).dirtyElementIds ↔
      incremental = false ∧ id ∈ k.dirtyElementIds := by
  cases incremental with
  | true => simp [BoardKeys.clearMarkers]
  | false => simp [BoardKeys.clearMarkers]

theorem BoardKeys.mem_deleted_clearMarkers {k : BoardKeys} {incremental : Bool}
    {snapshotSequence flushCompletedAt duration : Nat} {id : String} :
    id ∈ (k.clearMarkers incremental snapshotSequence flushCompletedAt duration).deletedElementIds ↔
      incremental = false ∧ id ∈ k.deletedElementIds := by
  cases incremental with
  | true => simp [BoardKeys.clearMarkers]
  | false => simp [BoardKeys.clearMarkers]

/-- The Lua compare-and-clear; `false` when the epoch has moved. -/
def compareAndClear (incremental : Bool) (expectedEpoch snapshotSequence flushCompletedAt
    duration : Nat) (k : BoardKeys) : Bool × BoardKeys :=
  if k.dirtyEpoch.getD 0 ≠ expectedEpoch then (false, k)
  else (true, k.clearMarkers incremental snapshotSequence flushCompletedAt duration)

/-! ### Eviction -/

/-- DEL of the keys that were found. -/
def BoardKeys.del (k : BoardKeys) (found : KeyName → Bool) : BoardKeys :=
  { k with
    seq := if found .seq then none else k.seq
    elements := if found .elements then ∅ else k.elements
    seen := k.seen.remove (k.seen.keys.filter fun id => found (.seen id))
    changes := if found .changes then [] else k.changes
    lastActive := if found .lastActive then none else k.lastActive
    dirtyElementIds := if found .dirtyElementIds then ∅ else k.dirtyElementIds
    deletedElementIds := if found .deletedElementIds then ∅ else k.deletedElementIds
    dirtySince := if found .dirtySince then none else k.dirtySince
    dirtyEpoch := if found .dirtyEpoch then none else k.dirtyEpoch
    lastFlushedSeq := if found .lastFlushedSeq then none else k.lastFlushedSeq
    lastFlushedAt := if found .lastFlushedAt then none else k.lastFlushedAt
    lastFlushDuration := if found .lastFlushDuration then none else k.lastFlushDuration }

/-- `SREM boards:dirty`, `ZREM boards:dirty_by_age`, `SREM boards:active`. -/
def BoardKeys.unindex (k : BoardKeys) : BoardKeys :=
  { k with inDirtyBoards := false, dirtyByAge := none, inActiveBoards := false }

/-- `flushBoard` with no other client on the store: every key its SCAN finds,
    of whichever board, is deleted, and the board leaves the indexes. -/
def flushBoard (boardId : String) (redis : Redis) : Redis := fun b =>
  let kept := (redis b).del fun name => scanFinds boardId (name.key b)
  if b = boardId then kept.unindex else kept

/-! ### `persistBoard` -/

/-- `isMissingBoardForeignKeyViolation`. -/
def isMissingBoardForeignKeyViolation (e : QueryError) : Bool := e.error == .missingBoard

/-- `text.toLowerCase().includes('invalid input syntax for type uuid')`. -/
def spellsInvalidUuid (text : String) : Bool :=
  decide ("invalid input syntax for type uuid".toList <:+: text.toList.map Char.toLower)

/-- `isInvalidUuidError`: the code, and the text in every message of the chain, the
    one that spells the parameters included. The text has no character that JSON
    escapes and none that separates two parameters, so it is read in one string. -/
def isInvalidUuidError (e : QueryError) : Bool :=
  e.error == .invalidText || e.params.any spellsInvalidUuid

/-- The `catch` of `persistBoard` flushes the board from Redis and resolves. -/
def flushesBoard (e : QueryError) : Bool :=
  isMissingBoardForeignKeyViolation e || isInvalidUuidError e

/-- The transaction of a flush, in the mode configured. -/
def flushTransaction (cfg : Config) (boardId : String) (k : BoardKeys) (db : Postgres) :
    Except QueryError Postgres :=
  if cfg.enableIncrementalPersistence then persistBoardIncremental boardId (dirtySnapshot k) db
  else persistBoardFullSnapshot boardId k.elementList db

/-- The transaction of an existing board meets no missing board. -/
theorem persistBoardIncremental_ne_missingBoard {boardId : String} {snap : DirtySnapshot}
    {db : Postgres} (hboard : pgUuid boardId ∈ db.boards) {e : QueryError}
    (h : persistBoardIncremental boardId snap db = .error e) : e.error ≠ .missingBoard := by
  unfold persistBoardIncremental at h
  split at h
  · cases h
  · cases hdelete : (if snap.deletes.isEmpty then Except.ok db
        else db.runDeleteIds boardId snap.deletes) with
    | error e' =>
      rw [hdelete] at h
      obtain rfl := Except.error.inj h
      unfold Postgres.runDeleteIds at hdelete
      split at hdelete
      · cases hdelete
      · split at hdelete
        · rw [← Except.error.inj hdelete]
          simp
        · split at hdelete
          · rw [← Except.error.inj hdelete]
            simp
          · cases hdelete
    | ok remaining =>
      rw [hdelete] at h
      obtain ⟨_, _, rfl⟩ := Postgres.runDeleteIds_ok.mp hdelete
      simp only at h
      split at h
      · cases h
      · refine Postgres.insertOrUpdate_ne_missingBoard (fun r hr => ?_) h
        rw [DirtySnapshot.upserts_boardId hr]
        exact hboard

theorem flushTransaction_ne_missingBoard {cfg : Config} {boardId : String} {k : BoardKeys}
    {db : Postgres} (hboard : pgUuid boardId ∈ db.boards) {e : QueryError}
    (h : flushTransaction cfg boardId k db = .error e) : e.error ≠ .missingBoard := by
  unfold flushTransaction at h
  split at h
  · exact persistBoardIncremental_ne_missingBoard hboard h
  · simp only [persistBoardFullSnapshot] at h
    split at h
    · cases h
    · refine Postgres.insertNew_ne_missingBoard (fun r hr => ?_) h
      obtain ⟨e, _, rfl⟩ := List.mem_map.mp hr
      exact hboard

/-- For an existing board it is the error taken for an invalid id that flushes it. -/
theorem flushesBoard_of_existing {cfg : Config} {boardId : String} {k : BoardKeys}
    {db : Postgres} (hboard : pgUuid boardId ∈ db.boards) {e : QueryError}
    (h : flushTransaction cfg boardId k db = .error e) : flushesBoard e = isInvalidUuidError e := by
  have hne : (e.error == DbError.missingBoard) = false := by
    simpa using flushTransaction_ne_missingBoard hboard h
  simp [flushesBoard, isMissingBoardForeignKeyViolation, hne]

theorem flushTransaction_boards {cfg : Config} {boardId : String} {k : BoardKeys}
    {db db' : Postgres} (h : flushTransaction cfg boardId k db = .ok db') :
    db'.boards = db.boards := by
  unfold flushTransaction at h
  split at h
  · exact persistBoardIncremental_boards h
  · simp only [persistBoardFullSnapshot] at h
    split at h
    · obtain rfl := Except.ok.inj h
      rfl
    · have hboards : db'.boards = (db.deleteBoardRows boardId).boards := Postgres.insertNew_boards h
      exact hboards

/-- `persistBoard` with nothing else going on: the error it throws, if any, and
    the server it leaves. `now` is the reading of the clock. -/
def persistBoard (cfg : Config) (now : Nat) (boardId : String) (s : Server) :
    Option QueryError × Server :=
  if !isUuidLike boardId then (none, { s with redis := flushBoard boardId s.redis })
  else if pgUuid boardId ∉ s.db.boards then (none, { s with redis := flushBoard boardId s.redis })
  else
    let k := s.redis boardId
    if k.seq.isNone then (none, s.setKeys boardId k.unindex)
    else
      match flushTransaction cfg boardId k s.db with
      | .error e =>
        if flushesBoard e then (none, { s with redis := flushBoard boardId s.redis })
        else (some e, s)
      | .ok db =>
        let cleared := compareAndClear cfg.enableIncrementalPersistence (k.dirtyEpoch.getD 0)
          (peekSequence k) now 0 k
        (none, { s with db := db }.setKeys boardId cleared.2)

/-- What a `persistBoard` that flushes the board has met: no such board, or an error that is
    taken for an invalid id. -/
def Flushes (cfg : Config) (boardId : String) (s : Server) : Prop :=
  IsExistingBoard s.db boardId → (s.redis boardId).seq.isSome ∧
    ∃ e, flushTransaction cfg boardId (s.redis boardId) s.db = .error e ∧
      isInvalidUuidError e = true

instance (cfg : Config) (boardId : String) (s : Server) : Decidable (Flushes cfg boardId s) :=
  decidable_of_iff (IsExistingBoard s.db boardId → (s.redis boardId).seq.isSome = true ∧
    (match flushTransaction cfg boardId (s.redis boardId) s.db with
      | .error e => isInvalidUuidError e
      | .ok _ => false) = true) <| by
  unfold Flushes
  split <;> next h => simp [h]

/-- A transaction that commits flushes nothing. -/
theorem not_flushes_of_isOk {cfg : Config} {boardId : String} {s : Server}
    (hexists : IsExistingBoard s.db boardId)
    (hok : (flushTransaction cfg boardId (s.redis boardId) s.db).isOk = true) :
    ¬ Flushes cfg boardId s := by
  intro hflushes
  obtain ⟨_, e, herror, _⟩ := hflushes hexists
  rw [herror] at hok
  cases hok

/-- What `persistBoard` does: it flushes the board, takes a board that is not loaded out of the
    indexes, throws with nothing changed, or commits and clears the markers. -/
theorem persistBoard_cases (cfg : Config) (now : Nat) (boardId : String) (s : Server) :
    (Flushes cfg boardId s ∧
      persistBoard cfg now boardId s = (none, { s with redis := flushBoard boardId s.redis })) ∨
    (IsExistingBoard s.db boardId ∧ (s.redis boardId).seq = none ∧
      persistBoard cfg now boardId s = (none, s.setKeys boardId (s.redis boardId).unindex)) ∨
    (IsExistingBoard s.db boardId ∧ (s.redis boardId).seq.isSome ∧
      ∃ e, flushTransaction cfg boardId (s.redis boardId) s.db = .error e ∧
        isInvalidUuidError e = false ∧ persistBoard cfg now boardId s = (some e, s)) ∨
    (IsExistingBoard s.db boardId ∧ (s.redis boardId).seq.isSome ∧
      ∃ db, flushTransaction cfg boardId (s.redis boardId) s.db = .ok db ∧
        persistBoard cfg now boardId s = (none, { s with db := db }.setKeys boardId
          ((s.redis boardId).clearMarkers cfg.enableIncrementalPersistence
            (peekSequence (s.redis boardId)) now 0))) := by
  unfold persistBoard
  by_cases huuid : isUuidLike boardId = true
  · rw [if_neg (by simp [huuid])]
    by_cases hboard : pgUuid boardId ∈ s.db.boards
    · have hexists : IsExistingBoard s.db boardId := ⟨huuid, hboard⟩
      rw [if_neg (not_not.mpr hboard)]
      simp only
      cases hseq : (s.redis boardId).seq with
      | none => exact .inr (.inl ⟨hexists, rfl, by simp⟩)
      | some seq =>
        cases htransaction : flushTransaction cfg boardId (s.redis boardId) s.db with
        | error e =>
          simp only [Option.isNone_some, Bool.false_eq_true, if_false,
            flushesBoard_of_existing hboard htransaction]
          cases hflush : isInvalidUuidError e with
          | true => exact .inl ⟨fun _ => ⟨by simp [hseq], e, htransaction, hflush⟩, rfl⟩
          | false => exact .inr (.inr (.inl ⟨hexists, rfl, e, rfl, hflush, rfl⟩))
        | ok db =>
          refine .inr (.inr (.inr ⟨hexists, rfl, db, rfl, ?_⟩))
          simp [compareAndClear]
    · rw [if_pos hboard]
      exact .inl ⟨fun h => absurd h.2 hboard, rfl⟩
  · rw [if_pos (by simpa using huuid)]
    exact .inl ⟨fun h => absurd h.1 huuid, rfl⟩

theorem persistBoard_of_flushes {cfg : Config} (now : Nat) {boardId : String} {s : Server}
    (h : Flushes cfg boardId s) :
    persistBoard cfg now boardId s = (none, { s with redis := flushBoard boardId s.redis }) := by
  rcases persistBoard_cases cfg now boardId s with
    ⟨_, hflushed⟩ | ⟨hexists, hunloaded, _⟩ | ⟨hexists, _, e, hfails, hother, _⟩ |
      ⟨hexists, _, db, hcommits, _⟩
  · exact hflushed
  · have hloaded := (h hexists).1
    rw [hunloaded] at hloaded
    cases hloaded
  · obtain ⟨_, e', hinvalid, htaken⟩ := h hexists
    rw [hfails] at hinvalid
    rw [Except.error.inj hinvalid, htaken] at hother
    cases hother
  · obtain ⟨_, e', hinvalid, _⟩ := h hexists
    rw [hcommits] at hinvalid
    cases hinvalid

theorem persistBoard_boards (cfg : Config) (now : Nat) (boardId : String) (s : Server) :
    (persistBoard cfg now boardId s).2.db.boards = s.db.boards := by
  rcases persistBoard_cases cfg now boardId s with
    ⟨_, h⟩ | ⟨_, _, h⟩ | ⟨_, _, _, _, _, h⟩ | ⟨_, _, db, hcommits, h⟩
  · rw [h]
  · rw [h, Server.setKeys_db]
  · rw [h]
  · rw [h, Server.setKeys_db]
    exact flushTransaction_boards hcommits

/-! ### `loadBoard` -/

/-- The elements a load writes. -/
def loadedElements (boardId : String) (db : Postgres) : List (String × BoardElement) :=
  (db.rowsOf boardId).map fun row => (row.1, dbRowToBoardElement row.1 row.2)

/-- `loadBoard` with no lock held by anyone else. The id is one Postgres can
    read as a uuid: every caller has validated it. -/
def loadBoard (boardId : String) (s : Server) : Server :=
  let k := s.redis boardId
  if k.seq.isSome then s
  else
    s.setKeys boardId { k with
      elements := Dict.insertAll k.elements (loadedElements boardId s.db)
      seq := some 0 }

@[simp] theorem loadBoard_db (boardId : String) (s : Server) : (loadBoard boardId s).db = s.db := by
  simp only [loadBoard]
  split <;> rfl

/-- A load touches the keys of its board only. -/
theorem loadBoard_other {boardId b : String} (s : Server) (h : b ≠ boardId) :
    (loadBoard boardId s).redis b = s.redis b := by
  simp only [loadBoard]
  split
  · rfl
  · exact Server.setKeys_redis_ne _ _ h

end Notebortt
