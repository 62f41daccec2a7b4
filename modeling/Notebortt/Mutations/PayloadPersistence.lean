import Notebortt.BoardState.Persistence
import Notebortt.Mutations.PayloadProcessor

/-! # Persisting payload values

    `persistBoard` over elements as they were accepted. A row of `elements` has
    an id and a type from a list. Both come from the element itself, `id` and
    `kind`, and a value that is no string is sent as the driver turns it into
    text. -/

namespace Notebortt.Payloads

/-! ### Rows -/

/-- The values `toElementRow` gives the columns. -/
structure RowValues where
  id : Value
  boardId : String
  type : Value
  data : Fields

def toElementRow (boardId : String) (element : Fields) : RowValues where
  id := element.lookup "id"
  boardId := boardId
  type := element.lookup "kind"
  data := ((element.erase "id").erase "kind").erase "updatedAt"

/-- The Postgres driver, as it sends the value of a text column; `none`: NULL. -/
structure Driver where
  text : Json → Option String
  text_str : ∀ s, text (.str s) = some s
  text_null : text .null = none

section rows
variable (driver : Driver)

/-- The text the id is sent as; `none`: NULL. -/
def RowValues.idText (row : RowValues) : Option String := row.id.bind driver.text

/-- The row as it is sent. A NULL spells nothing. -/
def RowValues.sent (row : RowValues) : NewElementRow where
  id := (row.idText driver).getD ""
  boardId := pgUuid row.boardId
  type := row.type
  data := row.data

/-- An INSERT of rows. A NULL id breaks the constraint of the column, unless the driver turns the
    query away or a value cannot be read. -/
def insertRows (overwrites : Bool) (rows : List RowValues) (db : Postgres) :
    Except QueryError Postgres :=
  let sent := rows.map (·.sent driver)
  if rows.all fun row => (row.idText driver).isSome then
    if overwrites then db.insertOrUpdate sent else db.insertNew sent
  else if MAX_PARAMETERS ≤ 5 * sent.length + (if overwrites then 2 else 0) then
    .error ⟨.tooManyParameters, sent.flatMap NewElementRow.params⟩
  else .error (refusedRows sent)

/-! ### The transaction of a flush -/

/-- `deletes`: the deleted ids, and the dirty ids whose element is gone. -/
def BoardStore.flushedDeletes (board : BoardStore) : List String :=
  toSet (board.deletedElementIds.keys ++
    board.dirtyElementIds.keys.filter fun id => id ≠ "" ∧ (board.elements.lookup id).isNone)

/-- `upserts`: one row for each dirty id whose element is there. An empty id is skipped. -/
def BoardStore.flushedRows (board : BoardStore) (boardId : String) : List RowValues :=
  board.dirtyElementIds.keys.filterMap fun id =>
    if id = "" then none else (board.elements.lookup id).map (toElementRow boardId)

def persistBoardIncremental (boardId : String) (board : BoardStore) (db : Postgres) :
    Except QueryError Postgres :=
  if board.dirtyElementIds.keys.isEmpty && board.deletedElementIds.keys.isEmpty then .ok db
  else
    match if board.flushedDeletes.isEmpty then .ok db
      else db.runDeleteIds boardId board.flushedDeletes with
    | .error e => .error e
    | .ok remaining =>
      if (board.flushedRows boardId).isEmpty then .ok remaining
      else insertRows driver true (board.flushedRows boardId) remaining

def persistBoardFullSnapshot (boardId : String) (board : BoardStore) (db : Postgres) :
    Except QueryError Postgres :=
  let nextRows := (elementList board.elements).map (toElementRow boardId)
  let remaining := db.deleteBoardRows boardId
  if nextRows.isEmpty then .ok remaining else insertRows driver false nextRows remaining

/-- The transaction of a flush, in the mode configured. -/
def flushTransaction (cfg : Config) (boardId : String) (board : BoardStore) (db : Postgres) :
    Except QueryError Postgres :=
  if cfg.enableIncrementalPersistence then persistBoardIncremental driver boardId board db
  else persistBoardFullSnapshot driver boardId board db

/-! ### `persistBoard` -/

/-- `flushBoard`, as far as it reaches the keys of a `BoardStore`. -/
def evict (boardId : String) (board : BoardStore) : BoardStore where
  elements := if scanFinds boardId (boardElementsKey boardId) then ∅ else board.elements
  seen := board.seen.filter fun mutationId => !scanFinds boardId (boardSeenKey boardId mutationId)
  dirtyElementIds :=
    if scanFinds boardId (boardDirtyElementIdsKey boardId) then ∅ else board.dirtyElementIds
  deletedElementIds :=
    if scanFinds boardId (boardDeletedElementIdsKey boardId) then ∅ else board.deletedElementIds

/-- The compare-and-clear of a flush that nobody comes between. -/
def BoardStore.clearMarkers (board : BoardStore) (incremental : Bool) : BoardStore :=
  if incremental then { board with dirtyElementIds := ∅, deletedElementIds := ∅ } else board

/-- `persistBoard` of a loaded board: the error it throws, if any, and what it leaves of the keys
    and of the tables. -/
def persistBoard (cfg : Config) (boardId : String) (board : BoardStore) (db : Postgres) :
    Option QueryError × BoardStore × Postgres :=
  if ¬ IsExistingBoard db boardId then (none, evict boardId board, db)
  else
    match flushTransaction driver cfg boardId board db with
    | .ok db => (none, board.clearMarkers cfg.enableIncrementalPersistence, db)
    | .error e => if flushesBoard e then (none, evict boardId board, db) else (some e, board, db)

/-- It flushes the board: there is no row of it, or the transaction fails with an error that is
    taken for a missing board or an invalid id. -/
def Flushes (cfg : Config) (boardId : String) (board : BoardStore) (db : Postgres) : Prop :=
  IsExistingBoard db boardId →
    ∃ e, flushTransaction driver cfg boardId board db = .error e ∧ flushesBoard e = true

instance (cfg : Config) (boardId : String) (board : BoardStore) (db : Postgres) :
    Decidable (Flushes driver cfg boardId board db) :=
  decidable_of_iff (IsExistingBoard db boardId →
    (match flushTransaction driver cfg boardId board db with
      | .error e => flushesBoard e
      | .ok _ => false) = true) <| by
  unfold Flushes
  split <;> next h => simp [h]

theorem persistBoard_of_flushes {cfg : Config} {boardId : String} {board : BoardStore}
    {db : Postgres} (h : Flushes driver cfg boardId board db) :
    persistBoard driver cfg boardId board db = (none, evict boardId board, db) := by
  unfold persistBoard
  split
  · rfl
  · next hexists =>
    obtain ⟨e, herror, hflushes⟩ := h (not_not.mp hexists)
    rw [herror]
    simp [hflushes]

/-- Otherwise the elements stay. -/
theorem elements_persistBoard {cfg : Config} {boardId : String} {board : BoardStore}
    {db : Postgres} (h : ¬ Flushes driver cfg boardId board db) :
    (persistBoard driver cfg boardId board db).2.1.elements = board.elements := by
  unfold persistBoard
  split
  · next hmissing => exact absurd (fun hexists => absurd hexists hmissing) h
  · split
    · simp only [BoardStore.clearMarkers]
      split <;> rfl
    · next e herror =>
      split
      · next hflushes => exact absurd (fun _ => ⟨e, herror, hflushes⟩) h
      · rfl

end rows

end Notebortt.Payloads
