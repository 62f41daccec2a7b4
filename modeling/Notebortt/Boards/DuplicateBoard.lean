import Notebortt.Boards.DuplicatedElements
import Notebortt.Mutations.ReloadedBoards

/-! # Duplicating a board

    `duplicateBoard` of `boards/domain/lifecycle.ts` copies the rows of Postgres.
    GET of the elements loads the board and answers with the hash of Redis. The
    board under both is loaded, edited, flushed and evicted in any order. -/

open Transition

namespace Notebortt.Boards

/-! ### POST /boards/:id/duplicate -/

/-- An object, as the value it is. -/
def fieldsJson (fields : Fields) : Json := .obj (fields.entries.map fun entry => (entry.1, entry.2))

/-- The members of a value that is an object. -/
def jsonFields : Json → Fields
  | .obj members => Dict.insertAll ∅ members
  | _ => ∅

/-- `SELECT id, type, data FROM elements WHERE board_id = boardId`. -/
def sourceElements (boardId : String) (db : Postgres) : List SourceElementRow :=
  (db.rowsOf boardId).map fun row => ⟨row.1, row.2.type, fieldsJson row.2.data⟩

def DuplicatedElement.toNewRow (element : DuplicatedElement) : NewElementRow where
  id := element.id
  boardId := pgUuid element.boardId
  type := some (.str element.type)
  data := jsonFields element.data

/-- The transaction: `none` when there is no board to copy. `copyId` is the default that Postgres
    gives the new row of `boards`. -/
def duplicateBoard (randomUUID : Nat → String) (copyId boardId : String) (db : Postgres) :
    Except QueryError (Option Postgres) :=
  if pgUuid boardId ∉ db.boards then .ok none
  else
    let created := { db with boards := db.boards.add [copyId] }
    let duplicatedElements :=
      buildDuplicatedElements randomUUID (sourceElements boardId db) copyId
    if duplicatedElements.isEmpty then .ok (some created)
    else
      match created.insertNew (duplicatedElements.map (·.toNewRow)) with
      | .ok db' => .ok (some db')
      | .error e => .error e

/-- GET /boards/:id/elements: the board is loaded, and the hash is read into an object. -/
def getElements (boardId : String) (s : Server) : Dict BoardElement :=
  parsedObject ((loadBoard boardId s).redis boardId).elements

/-! ### The same elements, renamed -/

/-- What an element shows at a path. -/
def shownAt (path : List Step) (e : BoardElement) : Option Json :=
  valueAt path (fieldsJson e.fields)

/-- A string of the source as the copy shows it. -/
def renamedBy (rename : String → Option String) (keyHint value : String) : String :=
  if isRemappable keyHint then (rename value).getD value else value

/-- The elements of the copy are those of the source under their new ids, and nothing else: equal at
    every path, but for the ids under remappable keys. -/
structure ShowsCopy (rename : String → Option String) (source copy : Dict BoardElement) : Prop where
  copied : ∀ id e, source.lookup id = some e → ∃ id' e', rename id = some id' ∧
    copy.lookup id' = some e' ∧ e'.id = id' ∧ ∀ path,
      SameBut (renamedBy rename (keyAbove "" path)) (shownAt path e) (shownAt path e')
  only : ∀ id' e', copy.lookup id' = some e' →
    ∃ id e, rename id = some id' ∧ source.lookup id = some e
  injective : ∀ id₁ id₂ id', rename id₁ = some id' → rename id₂ = some id' → id₁ = id₂

/-- What `node:crypto` and Postgres promise of new ids: they are nowhere in the stores. -/
structure NewIds (randomUUID : Nat → String) (copyId boardId : String) (s : Server) : Prop where
  elements : FreshIds randomUUID (sourceElements boardId s.db)
  storable : ∀ i, storableJsonText (randomUUID i) = true
  notProto : ∀ i, randomUUID i ≠ "__proto__"
  rows : ∀ i, randomUUID i ∉ s.db.elements
  board : copyId ∉ s.db.boards
  lowerCase : pgUuid copyId = copyId
  noRows : s.db.rowsOf copyId = []
  noKeys : Emptied (s.redis copyId)

/-- POST creates a board with the elements that GET returns of the source. -/
structure DuplicateIsCurrent (randomUUID : Nat → String) (copyId boardId : String) (s : Server) :
    Prop where
  created : ∃ db', duplicateBoard randomUUID copyId boardId s.db = .ok (some db') ∧
    ShowsCopy
      (newId (sourceElements boardId s.db)
        (buildDuplicatedElements randomUUID (sourceElements boardId s.db) copyId))
      (getElements boardId s) (getElements copyId { s with db := db' })

/-! ### The system -/

/-- What every row of the table meets. -/
def Checked (db : Postgres) : Prop :=
  ∀ id row, db.elements.lookup id = some row →
    row.type ∈ VALID_ELEMENT_TYPES ∧ Fields.storable row.data = true

/-- An existing board that is not loaded, whatever its rows. -/
structure Init (boardId : String) (s : Server) : Prop where
  board : IsExistingBoard s.db boardId
  emptied : Emptied (s.redis boardId)
  checked : Checked s.db

inductive Label where
  | load
  | edit (edit : ReloadedBoards.Label)
  | flush

def step (cfg : Config) (boardId : String) (s : Server) : Label → Option Server
  | .load => some (loadBoard boardId s)
  | .edit edit => ReloadedBoards.step cfg boardId s edit
  | .flush => some { s with redis := flushBoard boardId s.redis }

def system (cfg : Config) (boardId : String) : System Server Label where
  init := Init boardId
  step := step cfg boardId

/-- Mutations come to a loaded board, and leave nothing for an incremental flush to skip. -/
def TracksEdits (cfg : Config) (boardId : String) (s : Server) : Label → Prop
  | .edit (.persist _) => True
  | .edit edit =>
    (s.redis boardId).seq.isSome ∧ ReloadedBoards.SkipsNothing cfg boardId s edit
  | _ => True

instance (cfg : Config) (boardId : String) (s : Server) (l : Label) :
    Decidable (TracksEdits cfg boardId s l) := by
  unfold TracksEdits
  split <;> infer_instance

/-- Nothing waits for a flush: the board is not loaded, or not in `boards:dirty`. -/
def NothingPending (boardId : String) (s : Server) : Prop :=
  (s.redis boardId).seq = none ∨ (s.redis boardId).inDirtyBoards = false

instance (boardId : String) (s : Server) : Decidable (NothingPending boardId s) := by
  unfold NothingPending; infer_instance

/-- One INSERT can copy the rows. -/
def FewRows (boardId : String) (db : Postgres) : Prop :=
  5 * (sourceElements boardId db).length < MAX_PARAMETERS

instance (boardId : String) (db : Postgres) : Decidable (FewRows boardId db) := by
  unfold FewRows; infer_instance

/-! ### Checked rows -/

section checked
variable {db db' : Postgres} {boardId : String}

theorem checked_accept {r : NewElementRow} {a : String × ElementRow} (h : r.accept = some a) :
    a.2.type ∈ VALID_ELEMENT_TYPES ∧ Fields.storable a.2.data = true := by
  unfold NewElementRow.accept at h
  split at h
  · split at h
    · next hchecks =>
      obtain rfl := Option.some.inj h
      exact ⟨hchecks.1, hchecks.2.2⟩
    · cases h
  · cases h

theorem Checked.deleteBoardRows (h : Checked db) : Checked (db.deleteBoardRows boardId) := by
  intro id row hrow
  rw [Postgres.lookup_deleteBoardRows] at hrow
  split at hrow
  · cases hrow
  · exact h id row hrow

theorem Checked.insertAll_accept (h : Checked db) {rows : List NewElementRow}
    (hacc : ∀ r ∈ rows, r.accept.isSome) (hnd : (rows.map (·.id)).Nodup) :
    Checked { db with
      elements := Dict.insertAll db.elements (rows.filterMap NewElementRow.accept) } := by
  intro id row hrow
  rw [lookup_insertAll_accept db.elements id hacc hnd] at hrow
  split at hrow
  · obtain ⟨a, ha, rfl⟩ := Option.map_eq_some_iff.mp hrow
    exact checked_accept ha
  · exact h id row hrow

theorem Checked.flushTransaction {cfg : Config} {k : BoardKeys} (h : Checked db)
    (hcommit : flushTransaction cfg boardId k db = .ok db') : Checked db' := by
  unfold Notebortt.flushTransaction at hcommit
  split at hcommit
  · intro id row hrow
    rw [persistBoardIncremental_lookup hcommit id] at hrow
    split at hrow
    · obtain ⟨a, ha, rfl⟩ := Option.map_eq_some_iff.mp hrow
      exact checked_accept ha
    · rw [Postgres.lookup_deleteIds] at hrow
      split at hrow
      · cases hrow
      · exact h id row hrow
  · simp only [persistBoardFullSnapshot] at hcommit
    split at hcommit
    · obtain rfl := Except.ok.inj hcommit
      exact h.deleteBoardRows
    · obtain ⟨-, hacc, hnd, -, rfl⟩ := Postgres.insertNew_ok hcommit
      exact h.deleteBoardRows.insertAll_accept hacc hnd

end checked

/-! ### What is current -/

section current
variable {cfg : Config} {boardId : String} {s s' : Server} {l : Label} {k : BoardKeys}
  {db : Postgres}

/-- A loaded board: what waits is accounted for, and when nothing waits the rows that are followed
    load as the hash. -/
structure Current (cfg : Config) (boardId : String) (k : BoardKeys) (db : Postgres) : Prop where
  loaded : k.seq.isSome
  accounted : ReloadedBoards.Accounted cfg boardId k db
  settled : k.inDirtyBoards = false → ∀ id, ReloadedBoards.Followed cfg id →
    LoadsAs (db.ownRow boardId id) (k.elements.lookup id)

theorem current_loadBoard (hempty : Emptied (s.redis boardId)) :
    Current cfg boardId ((loadBoard boardId s).redis boardId) (loadBoard boardId s).db where
  loaded := by simp [loadBoard, hempty.seq]
  accounted := ReloadedBoards.accounted_init hempty
  settled := by
    intro _ id _
    rw [loadBoard_of_emptied hempty, loadBoard_db]
    exact ReloadedBoards.loadsAs_dbRow id _

/-- A change marks the board; a mutation that changes nothing leaves what was there. -/
theorem Current.turn (h : Current cfg boardId k db) {now : Nat} {m : Mutation}
    {mode : BoardSyncWriteMode} {p : Processed} (hturn : Turn now m mode k p)
    (hstores : cfg.enableIncrementalPersistence = true →
      ReloadedBoards.storesNoEmptyId [p.result] = true) : Current cfg boardId p.keys db := by
  have haccounted := h.accounted.turn hturn hstores
  cases hturn with
  | away _ _ _ keys =>
    rw [keys] at haccounted ⊢
    exact h
  | unchanged _ _ _ keys =>
    rw [keys] at haccounted ⊢
    exact ⟨h.loaded, haccounted, h.settled⟩
  | changed _ change _ _ _ keys =>
    rw [keys] at haccounted ⊢
    refine ⟨?_, haccounted, ?_⟩
    · simp [runPipeline_writePipeline, getSequence]
    · intro hclean
      simp [runPipeline_writePipeline] at hclean

theorem Current.entries {now : Nat} {mode : BoardSyncWriteMode} {entries : List (Nat × Mutation)}
    {context : Dict BoardElement} (h : Current cfg boardId k db)
    (hstores : cfg.enableIncrementalPersistence = true → ReloadedBoards.storesNoEmptyId
      ((processEntries now mode entries context k).1.map (·.2)) = true) :
    Current cfg boardId (processEntries now mode entries context k).2.2 db := by
  induction entries generalizing context k with
  | nil => exact h
  | cons entry rest ih =>
    obtain ⟨index, m⟩ := entry
    have hcons := fun hincremental =>
      ReloadedBoards.storesNoEmptyId_cons.mp (hstores hincremental)
    have hfirst := h.turn (processMutationWithContext_turn now m context mode k)
      fun hincremental => (hcons hincremental).1
    exact ih hfirst fun hincremental => (hcons hincremental).2

/-- The invariant of a run. -/
structure Inv (cfg : Config) (boardId : String) (s : Server) : Prop where
  board : IsExistingBoard s.db boardId
  checked : Checked s.db
  keys : Emptied (s.redis boardId) ∨ Current cfg boardId (s.redis boardId) s.db

theorem Inv.current (h : Inv cfg boardId s) (hloaded : (s.redis boardId).seq.isSome) :
    Current cfg boardId (s.redis boardId) s.db := by
  rcases h.keys with hempty | hcurrent
  · simp [hempty.seq] at hloaded
  · exact hcurrent

theorem Inv.flushBoard (h : Inv cfg boardId s) :
    Inv cfg boardId { s with redis := flushBoard boardId s.redis } :=
  ⟨h.board, h.checked, .inl (emptied_flushBoard (isLiteralId_of_isUuidLike h.board.1) s.redis)⟩

theorem Inv.persistBoard (h : Inv cfg boardId s) (now : Nat) :
    Inv cfg boardId (persistBoard cfg now boardId s).2 := by
  rcases persistBoard_cases cfg now boardId s with
    ⟨_, hleft⟩ | ⟨_, hnone, hleft⟩ | ⟨_, _, _, _, _, hleft⟩ | ⟨_, hloaded, db', hcommit, hleft⟩ <;>
    rw [hleft]
  · exact h.flushBoard
  · -- the board is not loaded, and stays empty
    refine ⟨h.board, h.checked, .inl ?_⟩
    rw [Server.setKeys_redis_self]
    rcases h.keys with hempty | hcurrent
    · exact ⟨hempty.seq, hempty.elements, hempty.dirty, hempty.deleted⟩
    · have hsome := hcurrent.loaded
      simp [hnone] at hsome
  · exact h
  · have haccounted := (h.current hloaded).accounted
    have hboards := flushTransaction_boards hcommit
    -- the clear leaves nothing pending, and every row loads as its element
    refine ⟨⟨h.board.1, ?_⟩, h.checked.flushTransaction hcommit, .inr ?_⟩
    · rw [Server.setKeys_db, hboards]
      exact h.board.2
    · rw [Server.setKeys_redis_self, Server.setKeys_db]
      exact ⟨hloaded, haccounted.clearMarkers hcommit _ _ _,
        fun _ id hid => haccounted.committed hcommit hid⟩

theorem Inv.persistIfSolo (h : Inv cfg boardId s) (mode : BoardSyncWriteMode) (now : Nat)
    (changed : Bool) : Inv cfg boardId (persistIfSolo cfg mode now boardId changed s).2 :=
  persistIfSolo_keeps changed h fun _ => h.persistBoard now

theorem Inv.setKeys (h : Inv cfg boardId s) (hkeys : Current cfg boardId k s.db) :
    Inv cfg boardId (s.setKeys boardId k) := by
  refine ⟨h.board, h.checked, .inr ?_⟩
  rw [Server.setKeys_redis_self, Server.setKeys_db]
  exact hkeys

theorem inv_step (h : Inv cfg boardId s) (htracks : TracksEdits cfg boardId s l)
    (hstep : step cfg boardId s l = some s') : Inv cfg boardId s' := by
  cases l with
  | load =>
    obtain rfl := Option.some.inj hstep
    rcases h.keys with hempty | hcurrent
    · exact ⟨by rw [loadBoard_db]; exact h.board, by rw [loadBoard_db]; exact h.checked,
        .inr (current_loadBoard hempty)⟩
    · -- a loaded board is not loaded again
      have hsame : loadBoard boardId s = s := by simp [loadBoard, hcurrent.loaded]
      rw [hsame]
      exact h
  | flush =>
    obtain rfl := Option.some.inj hstep
    exact h.flushBoard
  | edit edit =>
    cases edit with
    | mutation mode now m =>
      simp only [step, ReloadedBoards.step] at hstep
      split at hstep
      · next hboard =>
        subst hboard
        obtain rfl := Option.some.inj hstep
        rw [processMutation_server]
        have hturned := (h.current htracks.1).turn (processMutationWithContext_turn now m _ mode _)
          htracks.2
        exact (h.setKeys hturned).persistIfSolo mode now _
      · cases hstep
    | batch mode now entries =>
      obtain rfl := Option.some.inj hstep
      rw [processBoardBatch_server]
      have hlooped : Current cfg boardId (boardLoop cfg now mode boardId entries s).2.2 s.db :=
        (h.current htracks.1).entries htracks.2
      exact (h.setKeys hlooped).persistIfSolo mode now _
    | persist now =>
      obtain rfl := Option.some.inj hstep
      exact h.persistBoard now

/-- When nothing is pending, the rows load as what GET returns, unless one of them has an id that
    GET drops. -/
theorem Inv.loadsAs (h : Inv cfg boardId s) (hclean : NothingPending boardId s)
    (hrow : s.db.ownRow boardId "__proto__" = none) (id : String) :
    LoadsAs (s.db.ownRow boardId id) ((getElements boardId s).lookup id) := by
  rw [getElements, lookup_parsedObject]
  by_cases hid : id = "__proto__"
  · rw [if_pos hid, hid, hrow]
    trivial
  rw [if_neg hid]
  rcases h.keys with hempty | hcurrent
  · rw [loadBoard_of_emptied hempty]
    exact ReloadedBoards.loadsAs_dbRow id _
  · have hsame : loadBoard boardId s = s := by simp [loadBoard, hcurrent.loaded]
    have hflag : (s.redis boardId).inDirtyBoards = false :=
      hclean.resolve_left (by have := hcurrent.loaded; intro hnone; simp [hnone] at this)
    rw [hsame]
    exact hcurrent.settled hflag id fun _ => hid

end current

/-! ### Objects and their members -/

section members
variable {idMap : Dict String} {fields : Fields}

theorem lookup_insertAll_members (members : List (String × Json)) (d : Fields) (key : String) :
    (Dict.insertAll d members).lookup key = (lastMember key members).or (d.lookup key) := by
  induction members generalizing d with
  | nil => rfl
  | cons head members ih =>
    obtain ⟨k, v⟩ := head
    have hstep : Dict.insertAll d ((k, v) :: members) = Dict.insertAll (d.insert k v) members := rfl
    rw [hstep, ih, Dict.lookup_insert_ite]
    simp only [lastMember]
    -- of two members of one key the later one wins, in the list as in the fields
    by_cases hkey : k = key
    · rw [if_pos hkey.symm, if_pos hkey, Option.or_assoc]
      rfl
    · rw [if_neg (Ne.symm hkey), if_neg hkey, Option.or_none]

theorem lookup_jsonFields (members : List (String × Json)) (key : String) :
    (jsonFields (.obj members)).lookup key = lastMember key members := by
  rw [jsonFields, lookup_insertAll_members, AList.lookup_empty, Option.or_none]

theorem lastMember_entries (fields : Fields) (key : String) :
    lastMember key (fields.entries.map fun entry => (entry.1, entry.2)) = fields.lookup key := by
  obtain ⟨entries, hnodup⟩ := fields
  show lastMember key (entries.map fun entry => (entry.1, entry.2)) = List.dlookup key entries
  induction entries with
  | nil => rfl
  | cons head entries ih =>
    obtain ⟨k, v⟩ := head
    obtain ⟨hfirst, hrest⟩ := List.nodupKeys_cons.mp hnodup
    simp only [List.map_cons, lastMember, ih hrest]
    by_cases hkey : k = key
    · subst hkey
      have hnone : List.dlookup k entries = none := List.dlookup_eq_none.mpr hfirst
      rw [hnone, List.dlookup_cons_eq]
      simp
    · rw [if_neg hkey, Option.or_none, List.dlookup_cons_ne _ _ (Ne.symm hkey)]

theorem valueAt_fieldsJson (fields : Fields) (key : String) (path : List Step) :
    valueAt (.key key :: path) (fieldsJson fields) = (fields.lookup key).bind (valueAt path) := by
  rw [fieldsJson, valueAt, lastMember_entries]

/-- The members of a remapped object. -/
theorem lookup_remapped (key : String) :
    (jsonFields (remapElementData idMap "" (fieldsJson fields))).lookup key =
      if key = "__proto__" then none else (fields.lookup key).map (remapElementData idMap key) := by
  rw [fieldsJson, remapElementData, lookup_jsonFields, lastMember_remapMembers, lastMember_entries]

theorem valueAt_remapped (key : String) (path : List Step) :
    valueAt (.key key :: path) (remapElementData idMap "" (fieldsJson fields)) =
      ((jsonFields (remapElementData idMap "" (fieldsJson fields))).lookup key).bind
        (valueAt path) := by
  rw [fieldsJson, remapElementData, lookup_jsonFields]
  rfl

/-! ### Storable values -/

mutual

/-- The remapped value spells what the value spelled, and new ids. -/
theorem texts_remapElementData (keyHint : String) : ∀ (value : Json) (t : String),
    t ∈ (remapElementData idMap keyHint value).texts →
      t ∈ value.texts ∨ ∃ id, idMap.lookup id = some t
  | .null, _, h => .inl h
  | .bool _, _, h => .inl h
  | .num _, _, h => .inl h
  | .str text, t, h => by
    have ht : t = remapString idMap keyHint text := List.mem_singleton.mp h
    rw [ht]
    unfold remapString
    split
    · next remapped hlookup =>
      split
      · exact .inr ⟨text, hlookup⟩
      · exact .inl (List.mem_singleton.mpr rfl)
    · exact .inl (List.mem_singleton.mpr rfl)
  | .arr items, t, h => texts_remapItems keyHint items t h
  | .obj members, t, h => texts_remapMembers members t h

theorem texts_remapItems (keyHint : String) : ∀ (items : List Json) (t : String),
    t ∈ textsOfItems (remapItems idMap keyHint items) →
      t ∈ textsOfItems items ∨ ∃ id, idMap.lookup id = some t
  | [], _, h => .inl h
  | item :: items, t, h => by
    simp only [remapItems, textsOfItems, List.mem_append] at h ⊢
    rcases h with h | h
    · exact (texts_remapElementData keyHint item t h).imp_left .inl
    · exact (texts_remapItems keyHint items t h).imp_left .inr

theorem texts_remapMembers : ∀ (members : List (String × Json)) (t : String),
    t ∈ textsOfMembers (remapMembers idMap members) →
      t ∈ textsOfMembers members ∨ ∃ id, idMap.lookup id = some t
  | [], _, h => .inl h
  | (key, value) :: members, t, h => by
    simp only [remapMembers] at h
    simp only [textsOfMembers, List.mem_append, List.mem_cons]
    split at h
    · exact (texts_remapMembers members t h).imp_left .inr
    · simp only [textsOfMembers, List.mem_append, List.mem_cons] at h
      rcases h with (rfl | h) | h
      · exact .inl (.inl (.inl rfl))
      · exact (texts_remapElementData key value t h).imp_left fun ht => .inl (.inr ht)
      · exact (texts_remapMembers members t h).imp_left .inr

end

theorem storable_remapped (hmap : ∀ id u, idMap.lookup id = some u → storableJsonText u = true)
    (h : Fields.storable fields = true) :
    Fields.storable (jsonFields (remapElementData idMap "" (fieldsJson fields))) = true := by
  rw [Fields.storable_iff] at h ⊢
  intro key value hlookup
  rw [lookup_remapped] at hlookup
  split at hlookup
  · cases hlookup
  · obtain ⟨before, hbefore, rfl⟩ := Option.map_eq_some_iff.mp hlookup
    obtain ⟨hkey, hvalue⟩ := h key before hbefore
    refine ⟨hkey, List.all_eq_true.mpr fun t ht => ?_⟩
    rcases texts_remapElementData key before t ht with hkept | ⟨id, hid⟩
    · exact List.all_eq_true.mp hvalue t hkept
    · exact hmap id t hid

end members

/-! ### The rows of the copy -/

section copy
variable {randomUUID : Nat → String} {copyId boardId : String} {db : Postgres}

theorem mem_sourceElements {source : SourceElementRow} :
    source ∈ sourceElements boardId db ↔
      ∃ row, db.ownRow boardId source.id = some row ∧
        source = ⟨source.id, row.type, fieldsJson row.data⟩ := by
  simp only [sourceElements, List.mem_map]
  constructor
  · rintro ⟨⟨id, row⟩, hrow, rfl⟩
    exact ⟨row, Postgres.ownRow_eq_some.mpr hrow, rfl⟩
  · rintro ⟨row, hrow, hsource⟩
    exact ⟨(source.id, row), Postgres.ownRow_eq_some.mp hrow, hsource.symm⟩

theorem nodup_sourceElements : ((sourceElements boardId db).map (·.id)).Nodup := by
  have hids : (sourceElements boardId db).map (·.id) =
      (db.elements.entries.filter fun row => row.2.boardId = pgUuid boardId).map (·.1) := by
    simp [sourceElements, Postgres.rowsOf, Function.comp_def]
  rw [hids]
  exact db.elements.keys_nodup.sublist (List.filter_sublist.map _)

/-- The row that one source element is copied to. -/
def copiedRow (randomUUID : Nat → String) (copyId boardId : String) (db : Postgres)
    (source : SourceElementRow) : ElementRow where
  boardId := pgUuid copyId
  type := source.type
  data := jsonFields (copyOf randomUUID (sourceElements boardId db) copyId source).data

/-- Postgres takes the copy of a row it has. -/
theorem accept_copyOf (hchecked : Checked db)
    (hstorable : ∀ i, storableJsonText (randomUUID i) = true) {source : SourceElementRow}
    (hsource : source ∈ sourceElements boardId db) :
    (copyOf randomUUID (sourceElements boardId db) copyId source).toNewRow.accept =
      some ((copyOf randomUUID (sourceElements boardId db) copyId source).id,
        copiedRow randomUUID copyId boardId db source) := by
  obtain ⟨i, -, hid⟩ := exists_id_copyOf randomUUID copyId nodup_sourceElements hsource
  obtain ⟨row, hrow, hdata⟩ := mem_sourceElements.mp hsource
  have hstored : db.elements.lookup source.id = some row := by
    rw [Postgres.ownRow, Option.filter_eq_some_iff] at hrow
    exact hrow.1
  obtain ⟨htype, hfields⟩ := hchecked source.id row hstored
  have hsourceType : source.type ∈ VALID_ELEMENT_TYPES := by
    rw [hdata]
    exact htype
  have hmap : ∀ id u,
      (createElementIdMap randomUUID (sourceElements boardId db)).lookup id = some u →
        storableJsonText u = true := by
    intro id u hlookup
    obtain ⟨j, -, -, -, rfl⟩ :=
      (lookup_createElementIdMap_eq_some nodup_sourceElements).mp hlookup
    exact hstorable j
  have hcopied : Fields.storable
      (jsonFields (copyOf randomUUID (sourceElements boardId db) copyId source).data) = true := by
    rw [copyOf, show source.data = fieldsJson row.data by rw [hdata]]
    exact storable_remapped hmap hfields
  have hnewId :
      storableText (copyOf randomUUID (sourceElements boardId db) copyId source).id = true := by
    rw [hid]
    exact (Bool.and_eq_true_iff.mp (hstorable i)).1
  exact if_pos ⟨hsourceType, hnewId, hcopied⟩

/-! ### The rows that `duplicateBoard` inserts -/

variable (randomUUID copyId) in
theorem newRows_eq (rows : List SourceElementRow) :
    (buildDuplicatedElements randomUUID rows copyId).map (·.toNewRow) =
      rows.map fun source => (copyOf randomUUID rows copyId source).toNewRow := by
  rw [show buildDuplicatedElements randomUUID rows copyId =
    rows.map (copyOf randomUUID rows copyId) from rfl, List.map_map]
  rfl

theorem accept_newRows (hchecked : Checked db)
    (hstorable : ∀ i, storableJsonText (randomUUID i) = true) :
    ∀ r ∈ (buildDuplicatedElements randomUUID (sourceElements boardId db) copyId).map (·.toNewRow),
      r.accept.isSome := by
  intro r hr
  rw [newRows_eq] at hr
  obtain ⟨source, hsource, rfl⟩ := List.mem_map.mp hr
  rw [accept_copyOf hchecked hstorable hsource]
  rfl

theorem nodup_newRows {s : Server} (hnew : NewIds randomUUID copyId boardId s) :
    (((buildDuplicatedElements randomUUID (sourceElements boardId s.db) copyId).map
      (·.toNewRow)).map (·.id)).Nodup := by
  have hids : ((buildDuplicatedElements randomUUID (sourceElements boardId s.db) copyId).map
      (·.toNewRow)).map (·.id) =
      (buildDuplicatedElements randomUUID (sourceElements boardId s.db) copyId).map (·.id) :=
    List.map_map
  rw [hids]
  exact nodup_ids_copies hnew.elements nodup_sourceElements

theorem newRows_free {s : Server} (hnew : NewIds randomUUID copyId boardId s) :
    ∀ r ∈ (buildDuplicatedElements randomUUID (sourceElements boardId s.db) copyId).map
      (·.toNewRow),
      r.id ∉ s.db.elements := by
  intro r hr
  rw [newRows_eq] at hr
  obtain ⟨source, hsource, rfl⟩ := List.mem_map.mp hr
  obtain ⟨i, -, hid⟩ := exists_id_copyOf randomUUID copyId nodup_sourceElements hsource
  show (copyOf randomUUID (sourceElements boardId s.db) copyId source).id ∉ s.db.elements
  rw [hid]
  exact hnew.rows i

theorem newRows_boardId {s : Server} (hnew : NewIds randomUUID copyId boardId s) :
    ∀ r ∈ (buildDuplicatedElements randomUUID (sourceElements boardId s.db) copyId).map
      (·.toNewRow),
      r.boardId ∈ s.db.boards.add [copyId] := by
  intro r hr
  rw [newRows_eq] at hr
  obtain ⟨source, -, rfl⟩ := List.mem_map.mp hr
  show pgUuid copyId ∈ s.db.boards.add [copyId]
  rw [hnew.lowerCase, IdSet.mem_add]
  exact .inl (by simp)

/-- The copy has no rows before, under any id. -/
theorem ownRow_copyId {s : Server} (hnew : NewIds randomUUID copyId boardId s) (id : String) :
    s.db.ownRow copyId id = none := by
  cases hrow : s.db.ownRow copyId id with
  | none => rfl
  | some row =>
    rw [Postgres.ownRow_eq_some, hnew.noRows] at hrow
    cases hrow

theorem lookup_newRows {s : Server} (hchecked : Checked s.db)
    (hnew : NewIds randomUUID copyId boardId s) (id : String) :
    Option.filter (fun row => row.boardId == pgUuid copyId)
      ((Dict.insertAll s.db.elements (((buildDuplicatedElements randomUUID
        (sourceElements boardId s.db) copyId).map (·.toNewRow)).filterMap
          NewElementRow.accept)).lookup id) =
      ((sourceElements boardId s.db).find? fun source =>
        (copyOf randomUUID (sourceElements boardId s.db) copyId source).id == id).map
          (copiedRow randomUUID copyId boardId s.db) := by
  rw [lookup_insertAll_accept _ _ (accept_newRows hchecked hnew.storable) (nodup_newRows hnew),
    newRows_eq, List.find?_map]
  have hcomp : (sourceElements boardId s.db).find? ((fun r : NewElementRow => r.id == id) ∘
      fun source => (copyOf randomUUID (sourceElements boardId s.db) copyId source).toNewRow) =
      (sourceElements boardId s.db).find? fun source =>
        (copyOf randomUUID (sourceElements boardId s.db) copyId source).id == id := rfl
  rw [hcomp]
  cases hfind : (sourceElements boardId s.db).find? fun source =>
      (copyOf randomUUID (sourceElements boardId s.db) copyId source).id == id with
  | none => exact ownRow_copyId hnew id
  | some source =>
    simp only [Option.map_some]
    rw [accept_copyOf hchecked hnew.storable (List.mem_of_find?_eq_some hfind)]
    simp [copiedRow]

/-- What the transaction leaves: the rows of the copy beside those that were there. -/
theorem duplicateBoard_created {s : Server} (hboard : pgUuid boardId ∈ s.db.boards)
    (hchecked : Checked s.db) (hfew : FewRows boardId s.db)
    (hnew : NewIds randomUUID copyId boardId s) :
    ∃ db', duplicateBoard randomUUID copyId boardId s.db = .ok (some db') ∧
      ∀ id, db'.ownRow copyId id =
        ((sourceElements boardId s.db).find? fun source =>
          (copyOf randomUUID (sourceElements boardId s.db) copyId source).id == id).map
            (copiedRow randomUUID copyId boardId s.db) := by
  unfold duplicateBoard
  rw [if_neg (not_not.mpr hboard)]
  simp only
  split
  · next hempty =>
    -- nothing is inserted
    rw [List.isEmpty_iff] at hempty
    refine ⟨_, rfl, fun id => ?_⟩
    have hid := lookup_newRows hchecked hnew id
    rw [hempty] at hid
    exact hid
  · have hcommit : Postgres.insertNew { s.db with boards := s.db.boards.add [copyId] }
        ((buildDuplicatedElements randomUUID (sourceElements boardId s.db) copyId).map
          (·.toNewRow)) = .ok _ :=
      Postgres.insertNew_of_accepted (by simpa [newRows_eq, FewRows] using hfew)
        (accept_newRows hchecked hnew.storable) (nodup_newRows hnew) (newRows_free hnew)
        (newRows_boardId hnew)
    rw [hcommit]
    exact ⟨_, rfl, lookup_newRows hchecked hnew⟩

end copy

/-! ### The copy against the view -/

section view
variable {randomUUID : Nat → String} {copyId boardId : String} {cfg : Config} {s : Server}

theorem lookup_dbRowToBoardElement (id : String) (row : ElementRow) (key : String) :
    (dbRowToBoardElement id row).fields.lookup key =
      (row.data.lookup key).or (if key = "kind" then some (.str row.type) else none) := by
  show (row.data ∪ AList.singleton "kind" (.str row.type)).lookup key = _
  rw [Dict.lookup_union]
  congr 1
  exact Dict.lookup_insert_ite ∅ "kind" key _

theorem lookup_of_loadsAs {row : ElementRow} {e : BoardElement}
    (hloads : LoadsAs (some row) (some e)) (key : String) :
    e.fields.lookup key =
      (row.data.lookup key).or (if key = "kind" then some (.str row.type) else none) :=
  (hloads key).symm.trans (lookup_dbRowToBoardElement "" row key)

/-- The element of a row shows the data of the row. -/
theorem shownAt_of_row {row : ElementRow} {e : BoardElement} (hloads : LoadsAs (some row) (some e))
    {key : String} {path : List Step} {value : Json}
    (h : valueAt (.key key :: path) (fieldsJson row.data) = some value) :
    shownAt (.key key :: path) e = some value := by
  rw [valueAt_fieldsJson] at h
  obtain ⟨member, hmember, hvalue⟩ := Option.bind_eq_some_iff.mp h
  rw [shownAt, valueAt_fieldsJson, lookup_of_loadsAs hloads, hmember]
  exact hvalue

/-- Without a member `__proto__` in the element there is none in its row. -/
theorem noProtoMember_of_element {row : ElementRow} {e : BoardElement}
    (hloads : LoadsAs (some row) (some e)) (hproto : NoProtoMember (fieldsJson e.fields)) :
    NoProtoMember (fieldsJson row.data) := by
  intro path
  cases hvalue : valueAt (path ++ [.key "__proto__"]) (fieldsJson row.data) with
  | none => rfl
  | some value =>
    have hshown : shownAt (path ++ [.key "__proto__"]) e = some value := by
      cases path with
      | nil => exact shownAt_of_row hloads hvalue
      | cons step path =>
        cases step with
        | index i => cases hvalue
        | key key => exact shownAt_of_row hloads hvalue
    have hnone : shownAt (path ++ [.key "__proto__"]) e = none := hproto path
    rw [hshown] at hnone
    cases hnone

/-- The element of a copied row shows that of its source, with the ids renamed. -/
theorem sameBut_copied {rows : List SourceElementRow} (hfresh : FreshIds randomUUID rows)
    (hdistinct : (rows.map (·.id)).Nodup) {row : ElementRow} {e : BoardElement} (id id' : String)
    (hloads : LoadsAs (some row) (some e)) (hproto : NoProtoMember (fieldsJson row.data))
    (path : List Step) :
    SameBut (renamedBy (newId rows (buildDuplicatedElements randomUUID rows copyId))
        (keyAbove "" path)) (shownAt path e)
      (shownAt path (dbRowToBoardElement id'
        { boardId := pgUuid copyId, type := row.type
          data := jsonFields
            (copyOf randomUUID rows copyId ⟨id, row.type, fieldsJson row.data⟩).data })) := by
  cases path with
  | nil => exact ⟨_, rfl⟩
  | cons step path =>
    cases step with
    | index i => rfl
    | key key =>
      rw [shownAt, shownAt, valueAt_fieldsJson, valueAt_fieldsJson, lookup_of_loadsAs hloads,
        lookup_dbRowToBoardElement]
      simp only [copyOf, lookup_remapped]
      cases hmember : row.data.lookup key with
      | none =>
        -- the column `type`, which no renaming touches, or nothing
        simp only [Option.map_none, ite_self, Option.none_or]
        by_cases hkind : key = "kind"
        · subst hkind
          cases path with
          | nil =>
            have hkept : isRemappable "kind" = false := by decide
            simp [SameBut, valueAt, renamedBy, keyAbove, hkept]
          | cons step path => cases step <;> rfl
        · simp only [if_neg hkind]
          rfl
      | some member =>
        -- a member of the data, below which the copy is the renamed source
        have hkey : key ≠ "__proto__" := by
          rintro rfl
          have hnone := hproto []
          rw [List.nil_append, valueAt_fieldsJson, hmember] at hnone
          cases hnone
        let source : SourceElementRow := ⟨id, row.type, fieldsJson row.data⟩
        have hcopied : SameBut
            (renamedBy (newId rows (buildDuplicatedElements randomUUID rows copyId))
              (keyAbove "" (.key key :: path)))
            (valueAt (.key key :: path) source.data)
            (valueAt (.key key :: path) (copyOf randomUUID rows copyId source).data) :=
          sameBut_copyOf copyId hfresh hdistinct hproto (.key key :: path)
        rw [copyOf, valueAt_fieldsJson, hmember, valueAt_remapped, lookup_remapped, if_neg hkey,
          hmember] at hcopied
        rw [if_neg hkey]
        exact hcopied

/-- The new id of a source element is the id of its copy. -/
theorem newId_source {source : SourceElementRow} (hsource : source ∈ sourceElements boardId s.db)
    (id' : String) :
    newId (sourceElements boardId s.db)
        (buildDuplicatedElements randomUUID (sourceElements boardId s.db) copyId) source.id =
          some id' ↔
      (copyOf randomUUID (sourceElements boardId s.db) copyId source).id = id' := by
  obtain ⟨i, hi, hid⟩ := exists_id_copyOf randomUUID copyId nodup_sourceElements hsource
  rw [newId_buildDuplicatedElements nodup_sourceElements,
    lookup_createElementIdMap nodup_sourceElements hi, hid, Option.some.injEq]

/-- The first copy with the id of a copy is that copy. -/
theorem find?_copyOf (hfresh : FreshIds randomUUID (sourceElements boardId s.db))
    {source : SourceElementRow} (hsource : source ∈ sourceElements boardId s.db) :
    ((sourceElements boardId s.db).find? fun other =>
      (copyOf randomUUID (sourceElements boardId s.db) copyId other).id ==
        (copyOf randomUUID (sourceElements boardId s.db) copyId source).id) = some source := by
  cases hfind : (sourceElements boardId s.db).find? fun other =>
      (copyOf randomUUID (sourceElements boardId s.db) copyId other).id ==
        (copyOf randomUUID (sourceElements boardId s.db) copyId source).id with
  | none => exact absurd (List.find?_eq_none.mp hfind source hsource) (by simp)
  | some other =>
    have hsame := List.find?_some hfind
    rw [beq_iff_eq] at hsame
    rw [id_copyOf_injective hfresh nodup_sourceElements (List.mem_of_find?_eq_some hfind) hsource
      hsame]

/-- A copy of rows that load as the view shows the view. -/
theorem duplicateIsCurrent_of_loadsAs (hboard : pgUuid boardId ∈ s.db.boards)
    (hchecked : Checked s.db) (hfew : FewRows boardId s.db)
    (hnew : NewIds randomUUID copyId boardId s)
    (hrows : ∀ id, LoadsAs (s.db.ownRow boardId id) ((getElements boardId s).lookup id))
    (hproto : ∀ id e, (getElements boardId s).lookup id = some e →
      NoProtoMember (fieldsJson e.fields)) :
    DuplicateIsCurrent randomUUID copyId boardId s := by
  obtain ⟨db', hcreated, hafter⟩ := duplicateBoard_created hboard hchecked hfew hnew
  -- no copy has an id that GET drops
  have hcopy : ∀ id', (getElements copyId { s with db := db' }).lookup id' =
      (db'.ownRow copyId id').map (dbRowToBoardElement id') := by
    intro id'
    rw [getElements, lookup_parsedObject,
      loadBoard_of_emptied (s := { s with db := db' }) hnew.noKeys]
    split
    · next hproto =>
      subst hproto
      cases hfind : (sourceElements boardId s.db).find? fun source =>
          (copyOf randomUUID (sourceElements boardId s.db) copyId source).id == "__proto__" with
      | none => rw [hafter, hfind]; rfl
      | some source =>
        obtain ⟨i, -, hid⟩ := exists_id_copyOf randomUUID copyId nodup_sourceElements
          (List.mem_of_find?_eq_some hfind)
        have hproto := List.find?_some hfind
        rw [beq_iff_eq, hid] at hproto
        exact absurd hproto (hnew.notProto i)
    · rfl
  refine ⟨db', hcreated, ?_⟩
  constructor
  · intro id e he
    have hloads := hrows id
    rw [he] at hloads
    obtain ⟨row, hrow, hloads⟩ := hloads.exists_row
    have hsource : ⟨id, row.type, fieldsJson row.data⟩ ∈ sourceElements boardId s.db :=
      mem_sourceElements.mpr ⟨row, hrow, rfl⟩
    let source : SourceElementRow := ⟨id, row.type, fieldsJson row.data⟩
    let newId := (copyOf randomUUID (sourceElements boardId s.db) copyId source).id
    have hlookup : (getElements copyId { s with db := db' }).lookup newId =
        some (dbRowToBoardElement newId (copiedRow randomUUID copyId boardId s.db source)) := by
      rw [hcopy, hafter, find?_copyOf hnew.elements hsource]
      rfl
    exact ⟨newId, _, (newId_source hsource newId).mpr rfl, hlookup, rfl,
      sameBut_copied hnew.elements nodup_sourceElements id newId hloads
        (noProtoMember_of_element hloads (hproto id e he))⟩
  · intro id' e' he'
    rw [hcopy, hafter] at he'
    obtain ⟨row, hrow, -⟩ := Option.map_eq_some_iff.mp he'
    obtain ⟨source, hfind, -⟩ := Option.map_eq_some_iff.mp hrow
    have hsource := List.mem_of_find?_eq_some hfind
    have hid := List.find?_some hfind
    rw [beq_iff_eq] at hid
    obtain ⟨stored, hstored, -⟩ := mem_sourceElements.mp hsource
    have hloads := hrows source.id
    rw [hstored] at hloads
    obtain ⟨e, hview, -⟩ := hloads.exists_element
    exact ⟨source.id, e, (newId_source hsource id').mpr hid, hview⟩
  · intro id₁ id₂ id' h₁ h₂
    rw [newId_buildDuplicatedElements nodup_sourceElements,
      lookup_createElementIdMap_eq_some nodup_sourceElements] at h₁ h₂
    obtain ⟨i, row, hi, rfl, hid⟩ := h₁
    obtain ⟨j, row', hj, rfl, hid'⟩ := h₂
    obtain rfl := hnew.elements.distinct i j (hid.trans hid'.symm)
    rw [Option.some.inj (hi.symm.trans hj)]

/-- In every run whose mutations come to a loaded board and leave nothing for a flush to skip, a
    duplicate made while nothing is pending has the elements that GET returns, when GET drops none
    of the rows and one INSERT can copy them. -/
theorem duplicateIsCurrent_of_nothingPending
    (hreach : (system cfg boardId).ReachableUnder (TracksEdits cfg boardId) s)
    (hclean : NothingPending boardId s) (hrow : s.db.ownRow boardId "__proto__" = none)
    (hfew : FewRows boardId s.db)
    (hproto : ∀ id e, (getElements boardId s).lookup id = some e →
      NoProtoMember (fieldsJson e.fields))
    (hnew : NewIds randomUUID copyId boardId s) :
    DuplicateIsCurrent randomUUID copyId boardId s := by
  have hinv : Inv cfg boardId s :=
    hreach.invariant (fun _ h => ⟨h.board, h.checked, .inl h.emptied⟩)
      fun _ _ _ h htracks hstep => inv_step h htracks hstep
  exact duplicateIsCurrent_of_loadsAs hinv.board.2 hinv.checked hfew hnew
    (hinv.loadsAs hclean hrow) hproto

end view

/-! ### Runs -/

def boardId : String := "3f2504e0-4f89-41d3-9a0c-0305e82c3301"

def copyId : String := "9b2f7c54-5a0e-4d3b-8c11-6f1f0a7e2d10"

/-- A new board: a row in `boards`, and nothing else. -/
def newBoard : Server where
  redis := fun _ => {}
  db := { boards := AList.singleton boardId (), elements := ∅ }

def createNote : Mutation where
  mutationId := "create"
  boardId := boardId
  operation := .createElement "note"
    ⟨"note", (AList.singleton "kind" (.str "NOTE") : Fields).insert "text" (.str "hello")⟩

/-- The board with a note, written in the mode. -/
def withNote (mode : BoardSyncWriteMode) : Server :=
  (processMutation {} mode 1 createNote (loadBoard boardId newBoard)).2

theorem init_newBoard : Init boardId newBoard where
  board := by decide
  emptied := ⟨rfl, rfl, rfl, rfl⟩
  checked := by
    intro id row hrow
    cases hrow

theorem reachable_withNote (mode : BoardSyncWriteMode) :
    (system {} boardId).ReachableUnder (TracksEdits {} boardId) (withNote mode) :=
  .step (.edit (.mutation mode 1 createNote)) (.step .load (.init init_newBoard) trivial rfl)
    (by cases mode <;> decide) rfl

theorem storableJsonText_freshId (i : Nat) : storableJsonText (freshId i) = true := by
  simp [storableJsonText, storableText, wellFormedText, isLoneSurrogate, freshId]

theorem freshId_ne_proto (i : Nat) : freshId i ≠ "__proto__" := by
  intro h
  have hlength := length_freshId i
  have hshort : "__proto__".length = 9 := by decide
  rw [h] at hlength
  omega

/-- A board whose note was written through. -/
theorem duplicateIsCurrent_writtenThrough :
    DuplicateIsCurrent freshId copyId boardId (withNote .solo) := by
  have hsource : sourceElements boardId (withNote .solo).db =
      [⟨"note", "NOTE", .obj [("text", .str "hello")]⟩] := rfl
  have hview : ∀ id, (getElements boardId (withNote .solo)).lookup id = if id = "note" then some
      ⟨"note", (AList.singleton "kind" (.str "NOTE") : Fields).insert "text" (.str "hello")⟩
      else none := fun id => Dict.lookup_insert_ite ∅ "note" id _
  refine duplicateIsCurrent_of_nothingPending (reachable_withNote .solo) (by decide) (by decide)
    (by decide) ?_ ?_
  · intro id e he
    rw [hview] at he
    split at he
    · obtain rfl := Option.some.inj he
      show NoProtoMember (.obj [("text", .str "hello"), ("kind", .str "NOTE")])
      exact noProtoMember_texts (by simp)
    · cases he
  · constructor
    · rw [hsource]
      refine freshIds_of_short fun row hrow => ?_
      obtain rfl := List.mem_singleton.mp hrow
      exact ⟨by decide, _, _, rfl, by decide⟩
    · exact storableJsonText_freshId
    · exact freshId_ne_proto
    · intro i hmem
      have hkeys : (withNote .solo).db.elements.keys = ["note"] := rfl
      rw [AList.mem_keys, hkeys, List.mem_singleton] at hmem
      have hlength := length_freshId i
      have hshort : "note".length = 4 := by decide
      rw [hmem] at hlength
      omega
    · decide
    · decide
    · rfl
    · exact ⟨rfl, rfl, rfl, rfl⟩

/-- A note that waits for its flush: GET returns it, and the duplicate lacks it. -/
theorem pending_note_not_copied :
    ¬ ∀ (randomUUID : Nat → String) (copyId boardId : String) (cfg : Config) (s : Server),
      (system cfg boardId).Reachable s → NewIds randomUUID copyId boardId s →
        DuplicateIsCurrent randomUUID copyId boardId s := by
  intro h
  have hreach : (system {} boardId).Reachable (withNote .collab) :=
    .step (.edit (.mutation .collab 1 createNote)) (.step .load (.init init_newBoard) rfl) rfl
  have hnew : NewIds freshId copyId boardId (withNote .collab) := by
    constructor
    · exact freshIds_of_short fun row hrow => nomatch hrow
    · exact storableJsonText_freshId
    · exact freshId_ne_proto
    · intro i hmem
      cases hmem
    · decide
    · decide
    · rfl
    · exact ⟨rfl, rfl, rfl, rfl⟩
  obtain ⟨db', -, hshows⟩ := (h freshId copyId boardId {} (withNote .collab) hreach hnew).created
  obtain ⟨id', -, hid, -⟩ := hshows.copied "note" _ rfl
  cases hid

end Notebortt.Boards
