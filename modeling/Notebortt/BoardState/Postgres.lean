import Notebortt.BoardState.State

/-! # The elements table

    The part of the Postgres schema that `board-state` reads and writes
    (`platform/db/schema/boards.ts`): the ids in `boards`, and the table
    `elements`, whose primary key is the element id alone. A statement that
    breaks a constraint fails, and with it its transaction; what it throws
    spells the parameters it was sent with. -/

namespace Notebortt

/-! ### Schema -/

/-- The `valid_element_type` check. -/
def VALID_ELEMENT_TYPES : List String :=
  ["NOTE", "TEXT", "ARROW", "DRAWING", "SHAPE", "COLUMN", "TABLE", "IMAGE", "LINK_PREVIEW",
   "META_COLUMN", "RANGE"]

/-- The text of a `uuid` value: Postgres reads the hex digits in either case. -/
def pgUuid (id : String) : String := String.ofList (id.toList.map Char.toLower)

/-- A row of `elements`, under its primary key. -/
structure ElementRow where
  boardId : String
  type : String
  data : Fields

structure Postgres where
  boards : IdSet
  elements : Dict ElementRow

/-- Why a statement failed. -/
inductive DbError where
  /-- The driver turns the query away: it has too many parameters. -/
  | tooManyParameters
  /-- Code 22P02: a `jsonb` value with a lone surrogate. -/
  | invalidText
  /-- Another value no column takes: a type outside the check, or `\u0000`. -/
  | refusedValue
  /-- Two rows with one primary key. -/
  | duplicateKey
  /-- `elements_board_id_boards_id_fk`. -/
  | missingBoard
  deriving DecidableEq

/-- What a failed statement throws: the driver's error, wrapped in one whose
    message spells the parameters (`Failed query: ... params: ...`). -/
structure QueryError where
  error : DbError
  params : List String
  deriving DecidableEq

/-- The driver takes fewer parameters than these with one query. -/
def MAX_PARAMETERS : Nat := 65534

@[simp] theorem one_lt_maxParameters : 1 < MAX_PARAMETERS := by decide

@[simp] theorem two_lt_maxParameters : 2 < MAX_PARAMETERS := by decide

/-! ### Rows -/

/-- The values of an INSERT, before the constraints are checked. -/
structure NewElementRow where
  id : String
  boardId : String
  type : Option Json
  data : Fields

def toElementRow (boardId : String) (element : BoardElement) : NewElementRow where
  id := element.id
  boardId := pgUuid boardId
  type := element.fields.lookup "kind"
  data := element.fields.erase "kind"

def dbRowToBoardElement (id : String) (row : ElementRow) : BoardElement where
  id := id
  fields := row.data ∪ AList.singleton "kind" (.str row.type)

/-- Everything the JSON text of the fields spells. -/
def Fields.texts (data : Fields) : List String :=
  data.entries.flatMap fun entry => entry.1 :: entry.2.texts

def Fields.storable (data : Fields) : Bool := data.texts.all storableJsonText

theorem Fields.mem_texts {data : Fields} {s : String} :
    s ∈ data.texts ↔ ∃ key value, data.lookup key = some value ∧ (s = key ∨ s ∈ value.texts) := by
  simp only [texts, List.mem_flatMap, List.mem_cons]
  constructor
  · rintro ⟨entry, hentry, hs⟩
    exact ⟨entry.1, entry.2, AList.mem_lookup_iff.mpr hentry, hs⟩
  · rintro ⟨key, value, hlookup, hs⟩
    exact ⟨⟨key, value⟩, AList.mem_lookup_iff.mp hlookup, hs⟩

/-- Fields are storable when every name and every value is. -/
theorem Fields.storable_iff {data : Fields} :
    data.storable = true ↔
      ∀ key value, data.lookup key = some value → storableJsonText key = true ∧
        value.storable = true := by
  simp only [storable, Json.storable, List.all_eq_true, mem_texts]
  constructor
  · intro h key value hlookup
    exact ⟨h key ⟨key, value, hlookup, .inl rfl⟩,
      fun s hs => h s ⟨key, value, hlookup, .inr hs⟩⟩
  · rintro h s ⟨key, value, hlookup, rfl | hs⟩
    · exact (h _ value hlookup).1
    · exact (h key value hlookup).2 s hs

/-- The column checks on one row. -/
def NewElementRow.accept (row : NewElementRow) : Option (String × ElementRow) :=
  match row.type with
  | some (.str type) =>
    if type ∈ VALID_ELEMENT_TYPES ∧ storableText row.id ∧ Fields.storable row.data then
      some (row.id, { boardId := row.boardId, type := type, data := row.data })
    else none
  | _ => none

/-- `String(v)` of a parameter that is no string, as far as it spells text of its own. -/
def Json.spelled : Json → List String
  | .str s => [s]
  | .arr items => spelledItems items
  | _ => []
where
  spelledItems : List Json → List String
    | [] => []
    | v :: vs => v.spelled ++ spelledItems vs

/-- The parameters of a row, as far as they spell text: its board and its time
    stamp do not. -/
def NewElementRow.params (row : NewElementRow) : List String :=
  row.id :: (row.type.toList.flatMap Json.spelled ++ row.data.texts)

/-- What Postgres says to a string of a `jsonb` value, at the first character it refuses. -/
def jsonRefusal (s : String) : Option DbError :=
  s.toList.findSome? fun c =>
    if c = '\x00' then some .refusedValue
    else if isLoneSurrogate c then some .invalidText
    else none

/-- The first parameter of the row that cannot be read, before any constraint is checked. -/
def NewElementRow.refusal (row : NewElementRow) : Option DbError :=
  if (row.id :: row.type.toList.flatMap Json.spelled).any (!storableText ·) then some .refusedValue
  else row.data.texts.findSome? jsonRefusal

/-- What an INSERT throws that no constraint but those on the values has refused. -/
def refusedRows (rows : List NewElementRow) : QueryError where
  error := (rows.findSome? NewElementRow.refusal).getD .refusedValue
  params := rows.flatMap NewElementRow.params

/-! ### Statements -/

/-- `SELECT ... WHERE board_id = boardId`. -/
def Postgres.rowsOf (db : Postgres) (boardId : String) : List (String × ElementRow) :=
  (db.elements.entries.filter fun row => row.2.boardId = pgUuid boardId).map fun row =>
  (row.1, row.2)

/-- `DELETE ... WHERE board_id = boardId AND id IN ids`. -/
def Postgres.deleteIds (db : Postgres) (boardId : String) (ids : List String) : Postgres :=
  { db with
    elements := Dict.eraseAll db.elements (ids.filter fun id =>
      (db.elements.lookup id).any (·.boardId == pgUuid boardId)) }

/-- The statement as it is sent: its parameters are the board and the ids. -/
def Postgres.runDeleteIds (db : Postgres) (boardId : String) (ids : List String) :
    Except QueryError Postgres :=
  if MAX_PARAMETERS ≤ 1 + ids.length then .error ⟨.tooManyParameters, ids⟩
  else if ids.any (!storableText ·) then .error ⟨.refusedValue, ids⟩
  else .ok (db.deleteIds boardId ids)

/-- `DELETE ... WHERE board_id = boardId`. -/
def Postgres.deleteBoardRows (db : Postgres) (boardId : String) : Postgres :=
  { db with elements := Dict.eraseAll db.elements ((db.rowsOf boardId).map (·.1)) }

/-- `INSERT ... ON CONFLICT (id) DO UPDATE SET board_id, type, data, updated_at`: a
    row with the same id is overwritten whatever its board. A row has five
    parameters, the conflict clause two. -/
def Postgres.insertOrUpdate (db : Postgres) (rows : List NewElementRow) :
    Except QueryError Postgres :=
  if MAX_PARAMETERS ≤ 5 * rows.length + 2 then
    .error ⟨.tooManyParameters, rows.flatMap NewElementRow.params⟩
  else
    match rows.mapM NewElementRow.accept with
    | none => .error (refusedRows rows)
    | some accepted =>
      if ¬ (accepted.map (·.1)).Nodup then
        .error ⟨.duplicateKey, rows.flatMap NewElementRow.params⟩
      else if rows.any fun row => row.boardId ∉ db.boards then
        .error ⟨.missingBoard, rows.flatMap NewElementRow.params⟩
      else .ok { db with elements := Dict.insertAll db.elements accepted }

/-- `INSERT ...` with no conflict clause. -/
def Postgres.insertNew (db : Postgres) (rows : List NewElementRow) : Except QueryError Postgres :=
  if MAX_PARAMETERS ≤ 5 * rows.length then
    .error ⟨.tooManyParameters, rows.flatMap NewElementRow.params⟩
  else
    match rows.mapM NewElementRow.accept with
    | none => .error (refusedRows rows)
    | some accepted =>
      if ¬ (accepted.map (·.1)).Nodup ∨ accepted.any (fun row => row.1 ∈ db.elements) then
        .error ⟨.duplicateKey, rows.flatMap NewElementRow.params⟩
      else if rows.any fun row => row.boardId ∉ db.boards then
        .error ⟨.missingBoard, rows.flatMap NewElementRow.params⟩
      else .ok { db with elements := Dict.insertAll db.elements accepted }

/-! ### Lookups through the statements -/

theorem NewElementRow.accept_eq_some {row : NewElementRow} {a : String × ElementRow}
    (h : row.accept = some a) : a.1 = row.id ∧ a.2.boardId = row.boardId ∧ a.2.data = row.data ∧
      row.type = some (.str a.2.type) := by
  unfold accept at h
  split at h
  · next type htype =>
    split at h
    · obtain rfl := Option.some.inj h
      exact ⟨rfl, rfl, rfl, htype⟩
    · cases h
  · cases h

/-- A list of rows passes the column checks when every row does. -/
theorem mapM_accept (rows : List NewElementRow) :
    rows.mapM NewElementRow.accept =
      if ∀ r ∈ rows, r.accept.isSome then some (rows.filterMap NewElementRow.accept) else none := by
  induction rows with
  | nil => simp
  | cons r rs ih =>
    rw [List.mapM_cons, ih]
    cases hr : r.accept with
    | none => simp [hr]
    | some a =>
      by_cases hrs : ∀ r ∈ rs, r.accept.isSome
      · have hall : ∀ r' ∈ r :: rs, r'.accept.isSome := by
          simpa [hr] using hrs
        rw [if_pos hrs, if_pos hall, List.filterMap_cons, hr]
        rfl
      · have hnot : ¬ ∀ r' ∈ r :: rs, r'.accept.isSome := by
          simpa [hr] using hrs
        rw [if_neg hrs, if_neg hnot]
        rfl

theorem map_fst_filterMap_accept {rows : List NewElementRow} (h : ∀ r ∈ rows, r.accept.isSome) :
    (rows.filterMap NewElementRow.accept).map (·.1) = rows.map (·.id) := by
  induction rows with
  | nil => rfl
  | cons r rs ih =>
    obtain ⟨a, ha⟩ := Option.isSome_iff_exists.mp (h r (by simp))
    rw [List.filterMap_cons, ha, List.map_cons, List.map_cons,
      (NewElementRow.accept_eq_some ha).1, ih fun r' hr' => h r' (by simp [hr'])]

/-- When the conflict-resolving INSERT succeeds, and what it leaves. -/
theorem Postgres.insertOrUpdate_ok {db db' : Postgres} {rows : List NewElementRow} :
    db.insertOrUpdate rows = .ok db' ↔
      5 * rows.length + 2 < MAX_PARAMETERS ∧
      (∀ r ∈ rows, r.accept.isSome) ∧ (rows.map (·.id)).Nodup ∧
      (∀ r ∈ rows, r.boardId ∈ db.boards) ∧
      db' = { db with
        elements := Dict.insertAll db.elements (rows.filterMap NewElementRow.accept) } := by
  unfold insertOrUpdate
  by_cases hcount : MAX_PARAMETERS ≤ 5 * rows.length + 2
  · rw [if_pos hcount]
    exact ⟨fun h => (by cases h), fun h => absurd hcount (Nat.not_le.mpr h.1)⟩
  rw [if_neg hcount, mapM_accept]
  simp only [Nat.not_le.mp hcount, true_and]
  by_cases hacc : ∀ r ∈ rows, r.accept.isSome
  · rw [if_pos hacc]
    simp only [map_fst_filterMap_accept hacc]
    by_cases hnd : (rows.map (·.id)).Nodup
    · by_cases hboards : ∀ r ∈ rows, r.boardId ∈ db.boards
      · have hany : (rows.any fun row => row.boardId ∉ db.boards) = false := by
          simpa using hboards
        simp only [hnd, not_true, if_false, hany, Bool.false_eq_true, Except.ok.injEq]
        constructor
        · rintro rfl
          exact ⟨hacc, trivial, hboards, rfl⟩
        · rintro ⟨_, _, _, rfl⟩
          rfl
      · have hany : (rows.any fun row => row.boardId ∉ db.boards) = true := by
          simpa using hboards
        simp only [hnd, not_true, if_false, hany, if_true, hboards, false_and, and_false]
        exact ⟨fun h => by simp at h, False.elim⟩
    · simp only [hnd, not_false_iff, if_true, false_and, and_false]
      exact ⟨fun h => by simp at h, False.elim⟩
  · rw [if_neg hacc]
    exact ⟨fun h => by simp at h, fun h => absurd h.1 hacc⟩

/-- No value is refused for its board. -/
theorem refusedRows_ne_missingBoard (rows : List NewElementRow) :
    (refusedRows rows).error ≠ .missingBoard := by
  have hjson : ∀ s e, jsonRefusal s = some e → e ≠ .missingBoard := by
    intro s e h
    obtain ⟨c, _, hc⟩ := List.exists_of_findSome?_eq_some h
    split at hc
    · rw [← Option.some.inj hc]
      simp
    · split at hc
      · rw [← Option.some.inj hc]
        simp
      · cases hc
  have hrow : ∀ (r : NewElementRow) e, r.refusal = some e → e ≠ .missingBoard := by
    intro r e h
    unfold NewElementRow.refusal at h
    split at h
    · rw [← Option.some.inj h]
      simp
    · obtain ⟨s, _, hs⟩ := List.exists_of_findSome?_eq_some h
      exact hjson s e hs
  unfold refusedRows
  cases h : rows.findSome? NewElementRow.refusal with
  | none => simp
  | some e =>
    obtain ⟨r, _, hr⟩ := List.exists_of_findSome?_eq_some h
    simpa using hrow r e hr

/-- The foreign key fails only for a row whose board is missing. -/
theorem Postgres.insertOrUpdate_ne_missingBoard {db : Postgres} {rows : List NewElementRow}
    (h : ∀ r ∈ rows, r.boardId ∈ db.boards) {e : QueryError}
    (he : db.insertOrUpdate rows = .error e) :
    e.error ≠ .missingBoard := by
  unfold insertOrUpdate at he
  split at he
  · rw [← Except.error.inj he]
    simp
  · split at he
    · rw [← Except.error.inj he]
      exact refusedRows_ne_missingBoard rows
    · split at he
      · rw [← Except.error.inj he]
        simp
      · rw [if_neg (by simpa using h)] at he
        cases he

theorem Postgres.insertNew_ne_missingBoard {db : Postgres} {rows : List NewElementRow}
    (h : ∀ r ∈ rows, r.boardId ∈ db.boards) {e : QueryError} (he : db.insertNew rows = .error e) :
    e.error ≠ .missingBoard := by
  unfold insertNew at he
  split at he
  · rw [← Except.error.inj he]
    simp
  · split at he
    · rw [← Except.error.inj he]
      exact refusedRows_ne_missingBoard rows
    · split at he
      · rw [← Except.error.inj he]
        simp
      · rw [if_neg (by simpa using h)] at he
        cases he

/-- What a plain INSERT that succeeds has checked, and what it leaves. -/
theorem Postgres.insertNew_ok {db db' : Postgres} {rows : List NewElementRow}
    (h : db.insertNew rows = .ok db') :
    5 * rows.length < MAX_PARAMETERS ∧
      (∀ r ∈ rows, r.accept.isSome) ∧ (rows.map (·.id)).Nodup ∧ (∀ r ∈ rows, r.id ∉ db.elements) ∧
      db' = { db with
        elements := Dict.insertAll db.elements (rows.filterMap NewElementRow.accept) } := by
  unfold insertNew at h
  split at h
  · cases h
  next hcount =>
  refine ⟨Nat.not_le.mp hcount, ?_⟩
  rw [mapM_accept] at h
  by_cases hacc : ∀ r ∈ rows, r.accept.isSome
  · rw [if_pos hacc] at h
    simp only at h
    split at h
    · cases h
    · next hkeys =>
      rw [not_or, not_not, map_fst_filterMap_accept hacc] at hkeys
      split at h
      · cases h
      · refine ⟨hacc, hkeys.1, ?_, (Except.ok.inj h).symm⟩
        intro r hr hmem
        obtain ⟨a, ha⟩ := Option.isSome_iff_exists.mp (hacc r hr)
        apply hkeys.2
        rw [List.any_eq_true]
        refine ⟨a, List.mem_filterMap.mpr ⟨r, hr, ha⟩, ?_⟩
        rw [(NewElementRow.accept_eq_some ha).1]
        simpa using hmem
  · rw [if_neg hacc] at h
    cases h

/-- A plain INSERT of accepted rows under new ids commits. -/
theorem Postgres.insertNew_of_accepted {db : Postgres} {rows : List NewElementRow}
    (hcount : 5 * rows.length < MAX_PARAMETERS)
    (hacc : ∀ r ∈ rows, r.accept.isSome) (hnodup : (rows.map (·.id)).Nodup)
    (hfree : ∀ r ∈ rows, r.id ∉ db.elements) (hboards : ∀ r ∈ rows, r.boardId ∈ db.boards) :
    db.insertNew rows =
      .ok { db with
        elements := Dict.insertAll db.elements (rows.filterMap NewElementRow.accept) } := by
  have hkeys := map_fst_filterMap_accept hacc
  have hnew : ((rows.filterMap NewElementRow.accept).any fun row => row.1 ∈ db.elements) =
      false := by
    rw [List.any_eq_false]
    intro a ha
    obtain ⟨r, hr, hra⟩ := List.mem_filterMap.mp ha
    rw [(NewElementRow.accept_eq_some hra).1]
    simpa using hfree r hr
  have hfk : ¬ (rows.any fun row => row.boardId ∉ db.boards) = true := by simpa using hboards
  unfold insertNew
  rw [if_neg (Nat.not_le.mpr hcount), mapM_accept, if_pos hacc]
  simp only [hkeys, hnodup, hnew, not_true, Bool.false_eq_true, or_self, if_false, if_neg hfk]

/-- An INSERT leaves the table of boards as it was. -/
theorem Postgres.insertNew_boards {db db' : Postgres} {rows : List NewElementRow}
    (h : db.insertNew rows = .ok db') : db'.boards = db.boards := by
  obtain ⟨_, _, _, _, rfl⟩ := Postgres.insertNew_ok h
  rfl

/-- A lookup through the accepted rows: the row of that id, or what was there. -/
theorem lookup_insertAll_accept {rows : List NewElementRow} (d : Dict ElementRow) (id : String)
    (hacc : ∀ r ∈ rows, r.accept.isSome) (hnd : (rows.map (·.id)).Nodup) :
    (Dict.insertAll d (rows.filterMap NewElementRow.accept)).lookup id =
      match rows.find? (·.id == id) with
      | some r => r.accept.map (·.2)
      | none => d.lookup id := by
  induction rows generalizing d with
  | nil => rfl
  | cons r rs ih =>
    obtain ⟨a, ha⟩ := Option.isSome_iff_exists.mp (hacc r (by simp))
    have haid := (NewElementRow.accept_eq_some ha).1
    simp only [List.map_cons, List.nodup_cons] at hnd
    have hstep : Dict.insertAll d ((r :: rs).filterMap NewElementRow.accept) =
        Dict.insertAll (d.insert a.1 a.2) (rs.filterMap NewElementRow.accept) := by
      rw [List.filterMap_cons, ha]
      rfl
    rw [hstep, ih _ (fun r' hr' => hacc r' (by simp [hr'])) hnd.2, List.find?_cons]
    by_cases hid : r.id = id
    · subst hid
      -- the ids are distinct, so no later row overwrites it
      have hnone : rs.find? (·.id == r.id) = none := by
        rw [List.find?_eq_none]
        intro r' hr' heq
        exact hnd.1 (List.mem_map.mpr ⟨r', hr', by simpa using heq⟩)
      simp [hnone, haid, ha]
    · have hne : (r.id == id) = false := by simpa using hid
      have hne' : id ≠ a.1 := by rw [haid]; exact fun h => hid h.symm
      rw [hne]
      cases hfind : rs.find? (·.id == id) with
      | none => simp [hne']
      | some r' => rfl

theorem Postgres.lookup_deleteIds (db : Postgres) (boardId : String) (ids : List String)
    (id : String) :
    (db.deleteIds boardId ids).elements.lookup id =
      if id ∈ ids ∧ (db.elements.lookup id).any (·.boardId == pgUuid boardId) then none
      else db.elements.lookup id := by
  simp only [deleteIds, Dict.lookup_eraseAll, List.mem_filter]

theorem Postgres.mem_rowsOf {db : Postgres} {boardId id : String} {row : ElementRow} :
    (id, row) ∈ db.rowsOf boardId ↔
      db.elements.lookup id = some row ∧ row.boardId = pgUuid boardId := by
  simp only [rowsOf, List.mem_map, List.mem_filter, decide_eq_true_eq, Prod.mk.injEq]
  constructor
  · rintro ⟨⟨i, r⟩, ⟨hmem, hboard⟩, rfl, rfl⟩
    exact ⟨AList.mem_lookup_iff.mpr hmem, hboard⟩
  · rintro ⟨hlookup, hboard⟩
    exact ⟨⟨id, row⟩, ⟨AList.mem_lookup_iff.mp hlookup, hboard⟩, rfl, rfl⟩

theorem Postgres.lookup_deleteBoardRows (db : Postgres) (boardId id : String) :
    (db.deleteBoardRows boardId).elements.lookup id =
      if (db.elements.lookup id).any (·.boardId == pgUuid boardId) then none
      else db.elements.lookup id := by
  have hmem : id ∈ (db.rowsOf boardId).map (·.1) ↔
      (db.elements.lookup id).any (·.boardId == pgUuid boardId) = true := by
    simp only [List.mem_map, Prod.exists, exists_and_right, exists_eq_right, mem_rowsOf,
      Option.any_eq_true, beq_iff_eq]
  simp only [deleteBoardRows, Dict.lookup_eraseAll, hmem]

end Notebortt
