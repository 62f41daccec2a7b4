import Notebortt.BoardState.Keys
import Notebortt.BoardState.StateUtils

/-! # The Redis state of a board and `applyChangeSet`

    The hot state of `board-state/state-domain.ts`: the keys of one board as a
    record (`BoardKeys`), the commands of the write pipeline as data
    (`WriteCommand`), and the pipeline of `applyChangeSet` as the list of its
    commands, so that it can be run as a whole or one command at a time.

    A Redis hash, and a Redis set of ids, is a `Dict`: an empty one is an
    absent key. The stored JSON text of an element is the element. -/

namespace Notebortt

/-- A Redis set of strings. -/
abbrev IdSet := Dict Unit

namespace IdSet

/-- SADD. -/
def add (s : IdSet) (ids : List String) : IdSet := Dict.insertAll s (ids.map fun id => (id, ()))

/-- SREM. -/
def remove (s : IdSet) (ids : List String) : IdSet := Dict.eraseAll s ids

@[simp] theorem add_nil (s : IdSet) : s.add [] = s := rfl

@[simp] theorem remove_nil (s : IdSet) : s.remove [] = s := rfl

theorem mem_add {s : IdSet} {ids : List String} {id : String} :
    id ∈ s.add ids ↔ id ∈ ids ∨ id ∈ s := by
  unfold add Dict.insertAll
  induction ids generalizing s with
  | nil => simp
  | cons a as ih =>
    simp only [List.map_cons, List.foldl_cons, List.mem_cons]
    rw [ih, AList.mem_insert]
    tauto

theorem mem_remove {s : IdSet} {ids : List String} {id : String} :
    id ∈ s.remove ids ↔ id ∉ ids ∧ id ∈ s := by
  rw [← AList.lookup_isSome, ← AList.lookup_isSome]
  unfold remove
  rw [Dict.lookup_eraseAll]
  split
  · next h => simp [h]
  · next h => simp [h]

end IdSet

/-! ### State -/

/-- The keys of one board, and its membership of the three global indexes. -/
structure BoardKeys where
  seq : Option Nat := none
  elements : Dict BoardElement := ∅
  seen : IdSet := ∅
  changes : List PersistedElementChange := []
  lastActive : Option Nat := none
  dirtyElementIds : IdSet := ∅
  deletedElementIds : IdSet := ∅
  dirtySince : Option Nat := none
  dirtyEpoch : Option Nat := none
  lastFlushedSeq : Option Nat := none
  lastFlushedAt : Option Nat := none
  lastFlushDuration : Option Nat := none
  /-- `SISMEMBER boards:dirty`. -/
  inDirtyBoards : Bool := false
  /-- `ZSCORE boards:dirty_by_age`. -/
  dirtyByAge : Option Nat := none
  /-- `SISMEMBER boards:active`. -/
  inActiveBoards : Bool := false

/-- The Redis state: the keys of every board id ever used. -/
abbrev Redis := String → BoardKeys

/-- `result[id] = JSON.parse(json)` over the entries of a hash: at this key of an
    object the assignment sets the prototype and no property. -/
def parsedObject {α : Type} (elements : Dict α) : Dict α := elements.erase "__proto__"

theorem lookup_parsedObject {α : Type} (elements : Dict α) (id : String) :
    (parsedObject elements).lookup id = if id = "__proto__" then none else elements.lookup id :=
  Dict.lookup_erase_ite _ _ _

/-- HGETALL, as the values of the parsed object (`getElements`). -/
def BoardKeys.elementList (k : BoardKeys) : List BoardElement :=
  (parsedObject k.elements).entries.map (·.2)

theorem BoardKeys.mem_elementList {k : BoardKeys} {e : BoardElement} :
    e ∈ k.elementList ↔ ∃ id, id ≠ "__proto__" ∧ k.elements.lookup id = some e := by
  simp only [elementList, List.mem_map]
  constructor
  · rintro ⟨entry, hentry, rfl⟩
    have hlookup := AList.mem_lookup_iff.mpr hentry
    rw [lookup_parsedObject] at hlookup
    split at hlookup
    · cases hlookup
    · next hid => exact ⟨entry.1, hid, hlookup⟩
  · rintro ⟨id, hid, hlookup⟩
    have hkept : e ∈ (parsedObject k.elements).lookup id := by
      rw [lookup_parsedObject, if_neg hid]
      exact hlookup
    exact ⟨⟨id, e⟩, AList.mem_lookup_iff.mp hkept, rfl⟩

/-! ### Single-key reads and writes -/

/-- `raw ? parseInt(raw, 10) : 0`. -/
def peekSequence (k : BoardKeys) : Nat := k.seq.getD 0

def getDirtyEpoch (k : BoardKeys) : Nat := k.dirtyEpoch.getD 0

/-- INCR, and the number it returns. -/
def getSequence (k : BoardKeys) : Nat × BoardKeys :=
  (peekSequence k + 1, { k with seq := some (peekSequence k + 1) })

/-- SET NX: whether the marker was claimed by this call. -/
def tryMarkSeen (mutationId : String) (k : BoardKeys) : Bool × BoardKeys :=
  if mutationId ∈ k.seen then (false, k) else (true, { k with seen := k.seen.add [mutationId] })

/-- HMGET for the listed ids. An empty id is skipped. -/
def getElementsByIds (k : BoardKeys) (elementIds : List String) : Dict BoardElement :=
  Dict.insertAll ∅ (elementIds.filterMap fun elementId =>
    if elementId = "" then none else (k.elements.lookup elementId).map (elementId, ·))

/-- One HGET for each listed id. -/
def getElementEach (k : BoardKeys) (elementIds : List String) : Dict BoardElement :=
  Dict.insertAll ∅ (elementIds.filterMap fun elementId =>
    (k.elements.lookup elementId).map (elementId, ·))

/-! ### The write pipeline -/

/-- One command of the pipeline of `applyChangeSet`. -/
inductive WriteCommand where
  | hset (elementId : String) (element : BoardElement)
  | hdel (elementIds : List String)
  | rpushChange (change : PersistedElementChange)
  | ltrimChanges
  | saddDirtyBoards
  | zaddDirtyBoardsByAge (serverTimestamp : Nat)
  | saddActiveBoards
  | setnxDirtySince (serverTimestamp : Nat)
  | incrDirtyEpoch
  | setLastActive (serverTimestamp : Nat)
  | saddDirtyElementIds (ids : List String)
  | sremDeletedElementIds (ids : List String)
  | saddDeletedElementIds (ids : List String)
  | sremDirtyElementIds (ids : List String)

def WriteCommand.exec (k : BoardKeys) : WriteCommand → BoardKeys
  | .hset elementId element => { k with elements := k.elements.insert elementId element }
  | .hdel elementIds => { k with elements := Dict.eraseAll k.elements elementIds }
  | .rpushChange change => { k with changes := k.changes ++ [change] }
  | .ltrimChanges =>
    { k with changes := k.changes.drop (k.changes.length - CHANGE_LOG_MAX_LENGTH) }
  | .saddDirtyBoards => { k with inDirtyBoards := true }
  | .zaddDirtyBoardsByAge serverTimestamp =>
    { k with dirtyByAge := k.dirtyByAge.or (some serverTimestamp) }
  | .saddActiveBoards => { k with inActiveBoards := true }
  | .setnxDirtySince serverTimestamp =>
    { k with dirtySince := k.dirtySince.or (some serverTimestamp) }
  | .incrDirtyEpoch => { k with dirtyEpoch := some (k.dirtyEpoch.getD 0 + 1) }
  | .setLastActive serverTimestamp => { k with lastActive := some serverTimestamp }
  | .saddDirtyElementIds ids => { k with dirtyElementIds := k.dirtyElementIds.add ids }
  | .sremDeletedElementIds ids => { k with deletedElementIds := k.deletedElementIds.remove ids }
  | .saddDeletedElementIds ids => { k with deletedElementIds := k.deletedElementIds.add ids }
  | .sremDirtyElementIds ids => { k with dirtyElementIds := k.dirtyElementIds.remove ids }

theorem WriteCommand.seq_exec (c : WriteCommand) (k : BoardKeys) : (c.exec k).seq = k.seq := by
  cases c <;> simp only [WriteCommand.exec]

/-- The pipeline of `applyChangeSet`, in the order the commands are queued. -/
def writePipeline (trackChangeLog : Bool) (serverTimestamp : Nat)
    (change : PersistedElementChange) : List WriteCommand :=
  let upsertIds := change.upserts.map (·.id)
  change.upserts.map (fun element => .hset element.id element)
    ++ (if change.deletes.isEmpty then [] else [.hdel change.deletes])
    ++ (if trackChangeLog then [.rpushChange change, .ltrimChanges] else [])
    ++ [.saddDirtyBoards, .zaddDirtyBoardsByAge serverTimestamp, .saddActiveBoards,
        .setnxDirtySince serverTimestamp, .incrDirtyEpoch, .setLastActive serverTimestamp]
    ++ (if change.upserts.isEmpty then []
        else [.saddDirtyElementIds upsertIds, .sremDeletedElementIds upsertIds])
    ++ (if change.deletes.isEmpty then []
        else [.saddDeletedElementIds change.deletes, .sremDirtyElementIds change.deletes])

def runPipeline (commands : List WriteCommand) (k : BoardKeys) : BoardKeys :=
  commands.foldl WriteCommand.exec k

/-- The elements hash after a change: the upserts in order, then the deletes. -/
def PersistedElementChange.applyTo (change : PersistedElementChange)
    (elements : Dict BoardElement) : Dict BoardElement :=
  Dict.eraseAll (Dict.insertAll elements (change.upserts.map fun e => (e.id, e))) change.deletes

/-- The ids a change writes or deletes. -/
def PersistedElementChange.ids (change : PersistedElementChange) : List String :=
  change.upserts.map (·.id) ++ change.deletes

theorem lookup_applyTo_of_mem {change : PersistedElementChange} {id : String}
    (h : id ∈ change.ids) (d d' : Dict BoardElement) :
    (change.applyTo d).lookup id = (change.applyTo d').lookup id := by
  simp only [PersistedElementChange.applyTo, Dict.lookup_eraseAll]
  split
  · rfl
  · next hkept =>
    apply Dict.lookup_insertAll_of_mem
    rcases List.mem_append.mp h with hupsert | hdelete
    · simpa using hupsert
    · exact absurd hdelete hkept

theorem lookup_applyTo_of_not_mem {change : PersistedElementChange} {id : String}
    (h : id ∉ change.ids) (d : Dict BoardElement) :
    (change.applyTo d).lookup id = d.lookup id := by
  simp only [PersistedElementChange.ids, List.mem_append, not_or] at h
  simp only [PersistedElementChange.applyTo, Dict.lookup_eraseAll, if_neg h.2]
  apply Dict.lookup_insertAll_of_not_mem
  simpa using h.1

theorem lookup_applyTo_of_delete {change : PersistedElementChange} {id : String}
    (h : id ∈ change.deletes) (d : Dict BoardElement) : (change.applyTo d).lookup id = none := by
  simp only [PersistedElementChange.applyTo, Dict.lookup_eraseAll, if_pos h]

/-- An upserted id that is not deleted shows one of the upserted elements. -/
theorem lookup_applyTo_of_upsert {change : PersistedElementChange} {id : String}
    (h : id ∈ change.upserts.map (·.id)) (hkept : id ∉ change.deletes) (d : Dict BoardElement) :
    ∃ e ∈ change.upserts, e.id = id ∧ (change.applyTo d).lookup id = some e := by
  simp only [PersistedElementChange.applyTo, Dict.lookup_eraseAll, if_neg hkept]
  generalize change.upserts = upserts at h
  induction upserts generalizing d with
  | nil => cases h
  | cons e es ih =>
    have hstep : Dict.insertAll d ((e :: es).map fun e => (e.id, e)) =
        Dict.insertAll (d.insert e.id e) (es.map fun e => (e.id, e)) := rfl
    rw [hstep]
    -- a later upsert of the same id wins
    by_cases hrest : id ∈ es.map (·.id)
    · obtain ⟨e', he', hid, hlookup⟩ := ih (d.insert e.id e) hrest
      exact ⟨e', by simp [he'], hid, hlookup⟩
    · have hid : e.id = id := by
        rcases List.mem_cons.mp h with hhead | htail
        · exact hhead.symm
        · exact absurd htail hrest
      refine ⟨e, by simp, hid, ?_⟩
      rw [Dict.lookup_insertAll_of_not_mem _ _ (by simpa using hrest), hid]
      simp

theorem lookup_insertAll_upserts {upserts : List BoardElement} (h : (upserts.map (·.id)).Nodup)
    (d : Dict BoardElement) (id : String) :
    (Dict.insertAll d (upserts.map fun e => (e.id, e))).lookup id =
      (upserts.find? (·.id = id)).or (d.lookup id) := by
  have hkeys : (upserts.map fun e => (e.id, e)).map Prod.fst = upserts.map (·.id) := by simp
  rw [Dict.lookup_insertAll _ _ _ (by rw [hkeys]; exact h)]
  congr 1
  clear h hkeys
  induction upserts with
  | nil => rfl
  | cons e es ih =>
    by_cases he : e.id = id
    · simp [he]
    · have hne : (id == e.id) = false := by simpa using Ne.symm he
      simp [List.lookup_cons, hne, he, ih]

theorem runPipeline_append (front back : List WriteCommand) (k : BoardKeys) :
    runPipeline (front ++ back) k = runPipeline back (runPipeline front k) :=
  List.foldl_append

theorem runPipeline_hset (upserts : List BoardElement) (k : BoardKeys) :
    runPipeline (upserts.map fun element => .hset element.id element) k =
      { k with elements := Dict.insertAll k.elements (upserts.map fun e => (e.id, e)) } := by
  induction upserts generalizing k with
  | nil => rfl
  | cons e es ih =>
    have hstep := ih (WriteCommand.exec k (.hset e.id e))
    simpa [runPipeline, WriteCommand.exec, Dict.insertAll] using hstep

/-- A pipeline sets no marker of a mutation. -/
theorem seen_runPipeline (commands : List WriteCommand) (k : BoardKeys) :
    (runPipeline commands k).seen = k.seen := by
  induction commands generalizing k with
  | nil => rfl
  | cons c commands ih =>
    have hstep : runPipeline (c :: commands) k = runPipeline commands (c.exec k) := rfl
    rw [hstep, ih]
    cases c <;> simp only [WriteCommand.exec]

/-- What the whole pipeline leaves. -/
theorem runPipeline_writePipeline (trackChangeLog : Bool) (now : Nat)
    (change : PersistedElementChange) (k : BoardKeys) :
    runPipeline (writePipeline trackChangeLog now change) k =
      { k with
        elements := change.applyTo k.elements
        changes :=
          if trackChangeLog then
            (k.changes ++ [change]).drop ((k.changes ++ [change]).length - CHANGE_LOG_MAX_LENGTH)
          else k.changes
        lastActive := some now
        dirtyElementIds :=
          (k.dirtyElementIds.add (change.upserts.map (·.id))).remove change.deletes
        deletedElementIds :=
          (k.deletedElementIds.remove (change.upserts.map (·.id))).add change.deletes
        dirtySince := k.dirtySince.or (some now)
        dirtyEpoch := some (k.dirtyEpoch.getD 0 + 1)
        inDirtyBoards := true
        dirtyByAge := k.dirtyByAge.or (some now)
        inActiveBoards := true } := by
  obtain ⟨sequence, upserts, deletes⟩ := change
  simp only [writePipeline, runPipeline_append, runPipeline_hset, PersistedElementChange.applyTo]
  cases upserts <;> cases deletes <;> cases trackChangeLog <;>
    simp [runPipeline, WriteCommand.exec]

/-- What the pipeline of a change does to the markers, the epoch and the hash. -/
structure Written (change : PersistedElementChange) (k k' : BoardKeys) : Prop where
  seq : k'.seq = k.seq
  elements : k'.elements = change.applyTo k.elements
  dirty : ∀ id, id ∈ k'.dirtyElementIds ↔
    id ∉ change.deletes ∧ (id ∈ change.upserts.map (·.id) ∨ id ∈ k.dirtyElementIds)
  deleted : ∀ id, id ∈ k'.deletedElementIds ↔
    id ∈ change.deletes ∨ (id ∉ change.upserts.map (·.id) ∧ id ∈ k.deletedElementIds)
  epoch : getDirtyEpoch k' = getDirtyEpoch k + 1
  marked : k'.dirtyByAge ≠ none

theorem written_runPipeline (trackChangeLog : Bool) (now : Nat) (change : PersistedElementChange)
    (k : BoardKeys) :
    Written change k (runPipeline (writePipeline trackChangeLog now change) k) := by
  rw [runPipeline_writePipeline]
  constructor
  · rfl
  · rfl
  · intro id
    simp only [IdSet.mem_remove, IdSet.mem_add]
  · intro id
    simp only [IdSet.mem_remove, IdSet.mem_add]
  · rfl
  · cases k.dirtyByAge <;> simp

/-! ### `applyChangeSet` -/

/-- The upserts and deletes to write: deletes cascade over the elements read,
    and an upsert of a deleted id is dropped. -/
def resolveChangeSet (cascadeSource : List BoardElement) (changeSet : ElementChangeSet) :
    ElementChangeSet :=
  let deleteIds :=
    if changeSet.deletes.isEmpty then []
    else collectCascadeDeleteIds cascadeSource changeSet.deletes
  { upserts := (normalizeUpserts changeSet.upserts).filter (·.id ∉ deleteIds)
    deletes := deleteIds }

/-- `applyChangeSet` with no other writer: the change it returns and the keys
    it leaves. `now` is the reading of the clock. -/
def applyChangeSet (trackChangeLog : Bool) (now : Nat) (changeSet : ElementChangeSet)
    (k : BoardKeys) : Option PersistedElementChange × BoardKeys :=
  let resolved := resolveChangeSet k.elementList changeSet
  if resolved.upserts.isEmpty && resolved.deletes.isEmpty then (none, k)
  else
    let numbered := getSequence k
    let change : PersistedElementChange :=
      { sequence := numbered.1, upserts := resolved.upserts, deletes := resolved.deletes }
    (some change, runPipeline (writePipeline trackChangeLog now change) numbered.2)

end Notebortt
