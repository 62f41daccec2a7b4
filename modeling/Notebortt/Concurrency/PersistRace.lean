import Notebortt.BoardState.RowsMatch
import Notebortt.Lib.Transition

/-! # Mutations against flushes of one loaded board

    Any number of `applyChangeSet` calls, each write pipeline one step, and any
    number of `persistBoard` runs in processes of their own, each made of its
    separate reads, its transaction and its compare-and-clear, or of the
    `flushBoard` that follows a transaction whose error is taken for an invalid
    id. -/

open Transition

namespace Notebortt.PersistRace

/-! ### State -/

/-- Where an `applyChangeSet` call is. -/
inductive WriteRun where
  | idle
  /-- The change is resolved against the elements read. -/
  | resolved (trackChangeLog : Bool) (changes : ElementChangeSet)
  /-- INCR has numbered it. -/
  | numbered (trackChangeLog : Bool) (change : PersistedElementChange)

/-- Where a `persistBoard` run is, with what it has read. -/
inductive FlushRun where
  | idle
  | epochRead (sequence epoch : Nat)
  | dirtyRead (sequence epoch : Nat) (dirtyIds : List String)
  | deletedRead (sequence epoch : Nat) (dirtyIds deletedIds : List String)
  | elementsRead (sequence epoch : Nat) (snap : DirtySnapshot)
  | committed (sequence epoch : Nat)
  /-- The transaction failed on what looks like an invalid id: `flushBoard` is next. -/
  | evicting
  /-- The keys are deleted, the indexes not yet. -/
  | evicted

structure State (Writer Flusher : Type) where
  keys : BoardKeys
  db : Postgres
  write : Writer → WriteRun
  flush : Flusher → FlushRun
  /-- Ghost: the highest dirty epoch of a snapshot that was committed. -/
  committedEpoch : Nat

/-! ### Steps -/

inductive Label (Writer Flusher : Type) where
  /-- HGETALL for the cascade, and the resolution of the change set. -/
  | resolve (w : Writer) (trackChangeLog : Bool) (changeSet : ElementChangeSet)
  /-- INCR of the sequence. -/
  | number (w : Writer)
  /-- The write pipeline, at a reading of the clock. -/
  | write (w : Writer) (serverTimestamp : Nat)
  /-- EXISTS and GET of the sequence, GET of the dirty epoch. -/
  | readEpoch (f : Flusher)
  /-- SMEMBERS of the dirty ids. -/
  | readDirty (f : Flusher)
  /-- SMEMBERS of the deleted ids. -/
  | readDeleted (f : Flusher)
  /-- HMGET of the dirty elements. -/
  | readElements (f : Flusher)
  /-- The transaction; with a fault it fails for a reason outside the tables (the connection,
      a time-out). -/
  | commit (f : Flusher) (fault : Option QueryError)
  /-- SCAN and DEL of `flushBoard`, by the keys found; none when the eviction lock is held. -/
  | evict (f : Flusher) (found : Option (KeyName → Bool))
  /-- SREM and ZREM of `flushBoard`. -/
  | unindex (f : Flusher)
  /-- The compare-and-clear. -/
  | clear (f : Flusher) (flushCompletedAt duration : Nat)
  /-- The run ends early: its process or a connection fails. -/
  | abort (f : Flusher)

section system
variable {Writer Flusher : Type} [DecidableEq Writer] [DecidableEq Flusher]

def State.setWrite (s : State Writer Flusher) (w : Writer) (r : WriteRun) : State Writer Flusher :=
  { s with write := Function.update s.write w r }

def State.setFlush (s : State Writer Flusher) (f : Flusher) (r : FlushRun) : State Writer Flusher :=
  { s with flush := Function.update s.flush f r }

/-- What the transaction of a snapshot comes to. -/
def transaction (boardId : String) (fault : Option QueryError) (snap : DirtySnapshot)
    (db : Postgres) : Except QueryError Postgres :=
  match fault with
  | some e => .error e
  | none => persistBoardIncremental boardId snap db

def step (boardId : String) (s : State Writer Flusher) :
    Label Writer Flusher → Option (State Writer Flusher)
  | .resolve w trackChangeLog changeSet =>
    match s.write w with
    | .idle =>
      let resolved := resolveChangeSet s.keys.elementList changeSet
      if resolved.upserts.isEmpty && resolved.deletes.isEmpty then some s
      else some (s.setWrite w (.resolved trackChangeLog resolved))
    | _ => none
  | .number w =>
    match s.write w with
    | .resolved trackChangeLog changes =>
      let numbered := getSequence s.keys
      some ({ s with keys := numbered.2 }.setWrite w (.numbered trackChangeLog
        { sequence := numbered.1, upserts := changes.upserts, deletes := changes.deletes }))
    | _ => none
  | .write w serverTimestamp =>
    match s.write w with
    | .numbered trackChangeLog change =>
      some ({ s with
        keys := runPipeline (writePipeline trackChangeLog serverTimestamp change) s.keys
        }.setWrite w .idle)
    | _ => none
  | .readEpoch f =>
    match s.flush f with
    | .idle =>
      -- a board that is not loaded only leaves the indexes
      if s.keys.seq.isNone then some { s with keys := s.keys.unindex }
      else some (s.setFlush f (.epochRead (peekSequence s.keys) (getDirtyEpoch s.keys)))
    | _ => none
  | .readDirty f =>
    match s.flush f with
    | .epochRead sequence epoch =>
      some (s.setFlush f (.dirtyRead sequence epoch s.keys.dirtyElementIds.keys))
    | _ => none
  | .readDeleted f =>
    match s.flush f with
    | .dirtyRead sequence epoch dirtyIds =>
      some (s.setFlush f (.deletedRead sequence epoch dirtyIds s.keys.deletedElementIds.keys))
    | _ => none
  | .readElements f =>
    match s.flush f with
    | .deletedRead sequence epoch dirtyIds deletedIds =>
      some (s.setFlush f (.elementsRead sequence epoch
        { dirtyIds := dirtyIds, deletedIds := deletedIds
          rawDirtyElements := s.keys.elements.lookup }))
    | _ => none
  | .commit f fault =>
    match s.flush f with
    | .elementsRead sequence epoch snap =>
      match transaction boardId fault snap s.db with
      | .ok db =>
        some ({ s with db := db, committedEpoch := max s.committedEpoch epoch }.setFlush f
          (.committed sequence epoch))
      -- a transaction that fails is rolled back; the catch throws on, or evicts the board
      | .error e => some (s.setFlush f (if flushesBoard e then .evicting else .idle))
    | _ => none
  | .evict f found =>
    match s.flush f with
    | .evicting =>
      match found with
      | none => some (s.setFlush f .idle)
      | some found => some ({ s with keys := s.keys.del found }.setFlush f .evicted)
    | _ => none
  | .unindex f =>
    match s.flush f with
    | .evicted => some ({ s with keys := s.keys.unindex }.setFlush f .idle)
    | _ => none
  | .clear f flushCompletedAt duration =>
    match s.flush f with
    | .committed sequence epoch =>
      some ({ s with
        keys := (compareAndClear true epoch sequence flushCompletedAt duration s.keys).2
        }.setFlush f .idle)
    | _ => none
  | .abort f => some (s.setFlush f .idle)

/-- The board is loaded and clean, and nobody is at work. -/
structure Init (boardId : String) (s : State Writer Flusher) : Prop where
  loaded : s.keys.seq.isSome
  dirty : s.keys.dirtyElementIds = ∅
  deleted : s.keys.deletedElementIds = ∅
  unmarked : s.keys.dirtyByAge = none
  board : pgUuid boardId ∈ s.db.boards
  ownIds : OwnIds s.keys.elements.lookup
  rows : RowsMatch boardId s.db s.keys.elements
  write : ∀ w, s.write w = .idle
  flush : ∀ f, s.flush f = .idle
  committedEpoch : s.committedEpoch = getDirtyEpoch s.keys

def system (Writer Flusher : Type) [DecidableEq Writer] [DecidableEq Flusher] (boardId : String) :
    System (State Writer Flusher) (Label Writer Flusher) where
  init := Init boardId
  step := step boardId

/-- With nobody at work and the board out of `boards:dirty_by_age`, its rows are
    its elements hash. -/
def FlushedWhenClean (boardId : String) (s : State Writer Flusher) : Prop :=
  (∀ w, s.write w = .idle) → (∀ f, s.flush f = .idle) → s.keys.dirtyByAge = none →
    RowsMatch boardId s.db s.keys.elements

/-- The step condition: a transaction commits no snapshot older than one already
    committed, none fails with an error that is taken for an invalid id, and no
    element is stored under the empty id, which a flush skips and then clears. -/
def CommitsInOrder (boardId : String) (s : State Writer Flusher) : Label Writer Flusher → Prop
  | .commit f fault =>
    match s.flush f with
    | .elementsRead _ epoch snap =>
      match transaction boardId fault snap s.db with
      | .ok _ => s.committedEpoch ≤ epoch
      | .error e => flushesBoard e = false
    | _ => True
  | .write w _ =>
    match s.write w with
    | .numbered _ change => ∀ e ∈ change.upserts, e.id ≠ ""
    | _ => True
  | _ => True

instance (boardId : String) (s : State Writer Flusher) (l : Label Writer Flusher) :
    Decidable (CommitsInOrder boardId s l) := by
  unfold CommitsInOrder
  split
  · split
    · split <;> infer_instance
    · infer_instance
  · split <;> infer_instance
  · infer_instance

end system

/-! ### What a flush run has read -/

namespace FlushRun

def epoch? : FlushRun → Option Nat
  | .idle => none
  | .epochRead _ epoch => some epoch
  | .dirtyRead _ epoch _ => some epoch
  | .deletedRead _ epoch _ _ => some epoch
  | .elementsRead _ epoch _ => some epoch
  | .committed _ epoch => some epoch
  | .evicting => none
  | .evicted => none

def dirtyIds? : FlushRun → Option (List String)
  | .dirtyRead _ _ dirtyIds => some dirtyIds
  | .deletedRead _ _ dirtyIds _ => some dirtyIds
  | .elementsRead _ _ snap => some snap.dirtyIds
  | _ => none

def deletedIds? : FlushRun → Option (List String)
  | .deletedRead _ _ _ deletedIds => some deletedIds
  | .elementsRead _ _ snap => some snap.deletedIds
  | _ => none

def snapshot? : FlushRun → Option DirtySnapshot
  | .elementsRead _ _ snap => some snap
  | _ => none

/-- The run is in its `flushBoard`. -/
def evicts : FlushRun → Bool
  | .evicting => true
  | .evicted => true
  | _ => false

end FlushRun

/-- A flush whose transactions only fail with other errors is never in its `flushBoard`. -/
theorem stays_step {Writer Flusher : Type} [DecidableEq Writer] [DecidableEq Flusher]
    {boardId : String} {s s' : State Writer Flusher} {l : Label Writer Flusher}
    (h : ∀ f, (s.flush f).evicts = false) (horder : CommitsInOrder boardId s l)
    (hstep : step boardId s l = some s') : ∀ f, (s'.flush f).evicts = false := by
  have hset : ∀ (f : Flusher) (r : FlushRun), r.evicts = false →
      ∀ g, (Function.update s.flush f r g).evicts = false := by
    intro f r hr g
    by_cases hg : g = f
    · rw [hg, Function.update_self]
      exact hr
    · rw [Function.update_of_ne hg]
      exact h g
  cases l with
  | commit f fault =>
    simp only [step] at hstep
    split at hstep
    · next sequence epoch snap hflush =>
      simp only [CommitsInOrder, hflush] at horder
      split at hstep
      · obtain rfl := Option.some.inj hstep
        exact hset f _ rfl
      · next e hfailed =>
        obtain rfl := Option.some.inj hstep
        simp only [hfailed] at horder
        rw [horder]
        exact hset f _ rfl
    · cases hstep
  | evict f found =>
    simp only [step] at hstep
    split at hstep
    · next hflush => simpa [hflush, FlushRun.evicts] using h f
    · cases hstep
  | unindex f =>
    simp only [step] at hstep
    split at hstep
    · next hflush => simpa [hflush, FlushRun.evicts] using h f
    · cases hstep
  | abort f =>
    obtain rfl := Option.some.inj hstep
    exact hset f _ rfl
  | resolve | number | write =>
    simp only [step] at hstep
    have hflush : s'.flush = s.flush := by grind [State.setWrite]
    rw [hflush]
    exact h
  | _ =>
    simp only [step] at hstep
    split at hstep
    · first
      | obtain rfl := Option.some.inj hstep
        exact hset _ _ rfl
      | split at hstep
        · obtain rfl := Option.some.inj hstep
          exact h
        · obtain rfl := Option.some.inj hstep
          exact hset _ _ rfl
    · cases hstep

/-- No marker of the id is set. -/
def Clean (k : BoardKeys) (id : String) : Prop :=
  id ∉ k.dirtyElementIds ∧ id ∉ k.deletedElementIds

instance (k : BoardKeys) (id : String) : Decidable (Clean k id) := by
  unfold Clean; infer_instance

/-- What a run of this epoch knows about the id is still true: no pipeline ran
    since it read the epoch, or no newer snapshot was committed and the id is
    clean. -/
def Fresh (k : BoardKeys) (committedEpoch epoch : Nat) (id : String) : Prop :=
  epoch = getDirtyEpoch k ∨ committedEpoch ≤ epoch ∧ Clean k id

/-- What holds of a flush run while others write and flush. -/
structure RunOk (k : BoardKeys) (committedEpoch : Nat) (r : FlushRun) : Prop where
  epoch_le : ∀ epoch ∈ r.epoch?, epoch ≤ getDirtyEpoch k
  committed_le : ∀ sequence epoch, r = .committed sequence epoch → epoch ≤ committedEpoch
  noEmpty : ∀ ids ∈ r.dirtyIds?, "" ∉ ids
  coversDirty : getDirtyEpoch k ∈ r.epoch? → ∀ ids ∈ r.dirtyIds?, ∀ id ∈ k.dirtyElementIds, id ∈ ids
  coversDeleted : getDirtyEpoch k ∈ r.epoch? → ∀ ids ∈ r.deletedIds?, ∀ id ∈ k.deletedElementIds,
    id ∈ ids
  deleted : ∀ epoch ∈ r.epoch?, ∀ ids ∈ r.deletedIds?, ∀ id ∈ ids, Fresh k committedEpoch epoch id →
    k.elements.lookup id = none
  raw : ∀ epoch ∈ r.epoch?, ∀ snap ∈ r.snapshot?, OwnIds snap.rawDirtyElements ∧
    ∀ id, Fresh k committedEpoch epoch id → snap.rawDirtyElements id = k.elements.lookup id
  stays : r.evicts = false

theorem RunOk.idle (k : BoardKeys) (committedEpoch : Nat) : RunOk k committedEpoch .idle := by
  constructor <;> simp [FlushRun.epoch?, FlushRun.dirtyIds?, FlushRun.evicts]

/-- The two stores of a loaded board, while pipelines and flushes come and go. -/
structure Synced (boardId : String) (k : BoardKeys) (db : Postgres) (committedEpoch : Nat) :
    Prop where
  loaded : k.seq.isSome
  ownIds : OwnIds k.elements.lookup
  noEmpty : "" ∉ k.dirtyElementIds
  marked : k.dirtyByAge = none → ∀ id, Clean k id
  dirtyPresent : ∀ id ∈ k.dirtyElementIds, k.elements.lookup id ≠ none
  deletedAbsent : ∀ id ∈ k.deletedElementIds, k.elements.lookup id = none
  committed_le : committedEpoch ≤ getDirtyEpoch k
  /-- A flush of the current epoch has brought every row up to date. -/
  current : committedEpoch = getDirtyEpoch k → RowsMatch boardId db k.elements
  clean : ∀ id, Clean k id → RowMatches (db.ownRow boardId id) (k.elements.lookup id)

structure Inv {Writer Flusher : Type} (boardId : String) (s : State Writer Flusher) : Prop where
  synced : Synced boardId s.keys s.db s.committedEpoch
  runs : ∀ f, RunOk s.keys s.committedEpoch (s.flush f)

/-! ### The write pipeline -/

section written
variable {change : PersistedElementChange} {k k' : BoardKeys}

/-- An id that is clean afterwards was clean before, and was not touched. -/
theorem Clean.before {id : String} (hclean : Clean k' id) (h : Written change k k') :
    Clean k id ∧ id ∉ change.ids := by
  obtain ⟨hdirty, hdeleted⟩ := hclean
  rw [h.dirty] at hdirty
  rw [h.deleted] at hdeleted
  simp only [PersistedElementChange.ids, List.mem_append]
  unfold Clean
  tauto

theorem Clean.lookup {id : String} (hclean : Clean k' id) (h : Written change k k') :
    k'.elements.lookup id = k.elements.lookup id := by
  rw [h.elements]
  exact lookup_applyTo_of_not_mem (hclean.before h).2 _

/-- A pipeline ages what every run in flight has read. -/
theorem RunOk.written {committedEpoch : Nat} {r : FlushRun} (hr : RunOk k committedEpoch r)
    (h : Written change k k') : RunOk k' committedEpoch r := by
  -- the pipeline raises the dirty epoch above every epoch read before
  have hold : ∀ epoch ∈ r.epoch?, epoch < getDirtyEpoch k' := by
    intro epoch hepoch
    have hle := hr.epoch_le epoch hepoch
    rw [h.epoch]
    omega
  -- so only clean ids can still be fresh, and those it did not touch
  have hfresh : ∀ epoch ∈ r.epoch?, ∀ id, Fresh k' committedEpoch epoch id →
      Fresh k committedEpoch epoch id ∧ k'.elements.lookup id = k.elements.lookup id := by
    intro epoch hepoch id hid
    rcases hid with heq | ⟨hle, hclean⟩
    · exact absurd heq (Nat.ne_of_lt (hold epoch hepoch))
    · exact ⟨.inr ⟨hle, (hclean.before h).1⟩, hclean.lookup h⟩
  constructor
  · intro epoch hepoch
    exact Nat.le_of_lt (hold epoch hepoch)
  · exact hr.committed_le
  · exact hr.noEmpty
  · intro hepoch
    exact absurd rfl (Nat.ne_of_lt (hold _ hepoch))
  · intro hepoch
    exact absurd rfl (Nat.ne_of_lt (hold _ hepoch))
  · intro epoch hepoch ids hids id hid hf
    obtain ⟨hbefore, hsame⟩ := hfresh epoch hepoch id hf
    rw [hsame]
    exact hr.deleted epoch hepoch ids hids id hid hbefore
  · intro epoch hepoch snap hsnap
    obtain ⟨hown, hraw⟩ := hr.raw epoch hepoch snap hsnap
    refine ⟨hown, ?_⟩
    intro id hf
    obtain ⟨hbefore, hsame⟩ := hfresh epoch hepoch id hf
    rw [hsame]
    exact hraw id hbefore
  · exact hr.stays

theorem Synced.written {boardId : String} {db : Postgres} {committedEpoch : Nat}
    (hs : Synced boardId k db committedEpoch) (h : Written change k k')
    (hnonempty : ∀ e ∈ change.upserts, e.id ≠ "") : Synced boardId k' db committedEpoch := by
  constructor
  · rw [h.seq]
    exact hs.loaded
  · exact h.ownIds hs.ownIds
  · rw [h.dirty]
    rintro ⟨_, hupsert | hdirty⟩
    · obtain ⟨e, he, hid⟩ := List.mem_map.mp hupsert
      exact hnonempty e he hid
    · exact hs.noEmpty hdirty
  · intro hunmarked
    exact absurd hunmarked h.marked
  · intro id hdirty
    rw [h.dirty] at hdirty
    obtain ⟨hkept, hid⟩ := hdirty
    rw [h.elements]
    by_cases hupsert : id ∈ change.upserts.map (·.id)
    · obtain ⟨e, _, _, hlookup⟩ := lookup_applyTo_of_upsert hupsert hkept k.elements
      rw [hlookup]
      simp
    · have hnot : id ∉ change.ids := by simp [PersistedElementChange.ids, hkept, hupsert]
      rw [lookup_applyTo_of_not_mem hnot]
      exact hs.dirtyPresent id (hid.resolve_left hupsert)
  · intro id hdeleted
    rw [h.deleted] at hdeleted
    rw [h.elements]
    by_cases hdelete : id ∈ change.deletes
    · exact lookup_applyTo_of_delete hdelete _
    · obtain ⟨hupsert, hbefore⟩ := hdeleted.resolve_left hdelete
      have hnot : id ∉ change.ids := by simp [PersistedElementChange.ids, hdelete, hupsert]
      rw [lookup_applyTo_of_not_mem hnot]
      exact hs.deletedAbsent id hbefore
  · have hle := hs.committed_le
    rw [h.epoch]
    omega
  · intro hcurrent
    have hle := hs.committed_le
    rw [h.epoch] at hcurrent
    omega
  · intro id hclean
    rw [hclean.lookup h]
    exact hs.clean id (hclean.before h).1

end written

/-! ### The reads of a flush -/

section reads
variable {boardId : String} {k : BoardKeys} {db : Postgres} {committedEpoch epoch sequence : Nat}
  {dirtyIds deletedIds : List String}

theorem RunOk.readEpoch (k : BoardKeys) (committedEpoch sequence : Nat) :
    RunOk k committedEpoch (.epochRead sequence (getDirtyEpoch k)) := by
  constructor <;> simp [FlushRun.epoch?, FlushRun.dirtyIds?, FlushRun.deletedIds?,
    FlushRun.snapshot?, FlushRun.evicts]

theorem RunOk.readDirty (hr : RunOk k committedEpoch (.epochRead sequence epoch))
    (hs : Synced boardId k db committedEpoch) :
    RunOk k committedEpoch (.dirtyRead sequence epoch k.dirtyElementIds.keys) where
  epoch_le := hr.epoch_le
  committed_le := by simp
  noEmpty := by
    intro ids hids
    cases hids
    rw [← AList.mem_keys]
    exact hs.noEmpty
  coversDirty := by
    intro _ ids hids id hid
    cases hids
    exact AList.mem_keys.mp hid
  coversDeleted := by simp [FlushRun.deletedIds?]
  deleted := by simp [FlushRun.deletedIds?]
  raw := by simp [FlushRun.snapshot?]
  stays := rfl

theorem RunOk.readDeleted (hr : RunOk k committedEpoch (.dirtyRead sequence epoch dirtyIds))
    (hs : Synced boardId k db committedEpoch) :
    RunOk k committedEpoch (.deletedRead sequence epoch dirtyIds k.deletedElementIds.keys) where
  epoch_le := hr.epoch_le
  committed_le := by simp
  noEmpty := hr.noEmpty
  coversDirty := hr.coversDirty
  coversDeleted := by
    intro _ ids hids id hid
    cases hids
    exact AList.mem_keys.mp hid
  deleted := by
    intro _ _ ids hids id hid _
    cases hids
    exact hs.deletedAbsent id (AList.mem_keys.mpr hid)
  raw := by simp [FlushRun.snapshot?]
  stays := rfl

theorem RunOk.readElements
    (hr : RunOk k committedEpoch (.deletedRead sequence epoch dirtyIds deletedIds))
    (hs : Synced boardId k db committedEpoch) :
    RunOk k committedEpoch (.elementsRead sequence epoch
      { dirtyIds := dirtyIds, deletedIds := deletedIds
        rawDirtyElements := k.elements.lookup }) where
  epoch_le := hr.epoch_le
  committed_le := by simp
  noEmpty := hr.noEmpty
  coversDirty := hr.coversDirty
  coversDeleted := hr.coversDeleted
  deleted := hr.deleted
  raw := by
    intro _ _ snap hsnap
    cases hsnap
    exact ⟨hs.ownIds, fun _ _ => rfl⟩
  stays := rfl

end reads

/-! ### The transaction -/

theorem transaction_ok {boardId : String} {fault : Option QueryError} {snap : DirtySnapshot}
    {db db' : Postgres} :
    transaction boardId fault snap db = .ok db' ↔
      fault = none ∧ persistBoardIncremental boardId snap db = .ok db' := by
  cases fault <;> simp [transaction]

section commit
variable {boardId : String} {k : BoardKeys} {db db' : Postgres}
  {committedEpoch epoch sequence : Nat} {snap : DirtySnapshot}

/-- Committing a snapshot of a run that knows the truth about an id brings the
    row of the id up to date, or leaves it. -/
theorem rowMatches_commit (hr : RunOk k committedEpoch (.elementsRead sequence epoch snap))
    (hcommit : persistBoardIncremental boardId snap db = .ok db') {id : String}
    (hfresh : Fresh k committedEpoch epoch id)
    (hbefore : id ∉ snap.dirtyIds → id ∉ snap.deletedIds →
      RowMatches (db.ownRow boardId id) (k.elements.lookup id)) :
    RowMatches (db'.ownRow boardId id) (k.elements.lookup id) := by
  obtain ⟨hown, hraw⟩ := hr.raw epoch rfl snap rfl
  have hvalue := hraw id hfresh
  have hdeleted : id ∈ snap.deletedIds → k.elements.lookup id = none :=
    fun hid => hr.deleted epoch rfl _ rfl id hid hfresh
  rcases ownRow_of_commit hcommit hown id with ⟨e, row, ⟨_, _, he⟩, hrow, hholds⟩ |
    ⟨_, hdelete, hrow⟩ | ⟨hnot, hkept, hrow⟩
  · rw [hrow, ← hvalue, he]
    exact hholds
  · have hgone : k.elements.lookup id = none := by
      rcases List.mem_append.mp (mem_toSet.mp hdelete) with hid | hid
      · exact hdeleted hid
      · have hgone := (List.mem_filter.mp hid).2
        simp only [decide_eq_true_eq, Option.isNone_iff_eq_none] at hgone
        rw [← hvalue]
        exact hgone.2
    rw [hrow, hgone]
    trivial
  · rw [hrow]
    have hdirty : id ∉ snap.dirtyIds := by
      intro hid
      have hnonempty : id ≠ "" := by
        rintro rfl
        exact hr.noEmpty _ rfl hid
      cases hval : snap.rawDirtyElements id with
      | some e => exact hnot e ⟨hid, hnonempty, hval⟩
      | none =>
        apply hkept
        exact mem_toSet.mpr
          (List.mem_append_right _ (List.mem_filter.mpr ⟨hid, by simp [hnonempty, hval]⟩))
    exact hbefore hdirty fun hid => hkept (mem_toSet.mpr (List.mem_append_left _ hid))

/-- A commit in order keeps the stores in step. -/
theorem Synced.commit (hs : Synced boardId k db committedEpoch)
    (hr : RunOk k committedEpoch (.elementsRead sequence epoch snap))
    (hcommit : persistBoardIncremental boardId snap db = .ok db')
    (horder : committedEpoch ≤ epoch) :
    Synced boardId k db' (max committedEpoch epoch) := by
  have hle := hr.epoch_le epoch rfl
  have hcommitted := hs.committed_le
  refine { hs with committed_le := by omega, current := ?_, clean := ?_ }
  · intro hcurrent id
    have hepoch : epoch = getDirtyEpoch k := by omega
    refine rowMatches_commit hr hcommit (.inl hepoch) ?_
    -- an id the snapshot passes over carries no marker now
    intro hdirty hdeleted
    apply hs.clean
    have hknown : getDirtyEpoch k ∈ FlushRun.epoch? (.elementsRead sequence epoch snap) := by
      rw [← hepoch]
      rfl
    exact ⟨fun hid => hdirty (hr.coversDirty hknown _ rfl id hid),
      fun hid => hdeleted (hr.coversDeleted hknown _ rfl id hid)⟩
  · intro id hclean
    exact rowMatches_commit hr hcommit (.inr ⟨horder, hclean⟩) fun _ _ => hs.clean id hclean

/-- A newer committed epoch takes nothing away from a run. -/
theorem RunOk.commit {r : FlushRun} (hr : RunOk k committedEpoch r) (epoch : Nat) :
    RunOk k (max committedEpoch epoch) r := by
  have hfresh : ∀ e id, Fresh k (max committedEpoch epoch) e id → Fresh k committedEpoch e id := by
    intro e id h
    rcases h with heq | ⟨hle, hclean⟩
    · exact .inl heq
    · exact .inr ⟨by omega, hclean⟩
  refine { hr with committed_le := ?_, deleted := ?_, raw := ?_ }
  · intro sequence e he
    have hle := hr.committed_le sequence e he
    omega
  · intro e he ids hids id hid hf
    exact hr.deleted e he ids hids id hid (hfresh e id hf)
  · intro e he snap hsnap
    obtain ⟨hown, hraw⟩ := hr.raw e he snap hsnap
    exact ⟨hown, fun id hf => hraw id (hfresh e id hf)⟩

theorem RunOk.committed (hr : RunOk k committedEpoch (.elementsRead sequence epoch snap)) :
    RunOk k (max committedEpoch epoch) (.committed sequence epoch) := by
  constructor
  · intro e he
    exact hr.epoch_le e he
  · intro _ e he
    cases he
    omega
  · intro ids hids
    cases hids
  · intro _ ids hids
    cases hids
  · intro _ ids hids
    cases hids
  · intro _ _ ids hids
    cases hids
  · intro _ _ snap hsnap
    cases hsnap
  · rfl

end commit

/-! ### The compare-and-clear -/

section clear
variable {boardId : String} {k : BoardKeys} {db : Postgres} {committedEpoch epoch sequence : Nat}

/-- The clear is rejected, or it clears every marker. -/
theorem compareAndClear_cases (epoch sequence now duration : Nat) (k : BoardKeys) :
    (getDirtyEpoch k ≠ epoch ∧ (compareAndClear true epoch sequence now duration k).2 = k) ∨
    (getDirtyEpoch k = epoch ∧ (compareAndClear true epoch sequence now duration k).2 =
      k.clearMarkers true sequence now duration) := by
  unfold compareAndClear getDirtyEpoch
  split
  · next h => exact .inl ⟨h, rfl⟩
  · next h => exact .inr ⟨not_not.mp h, rfl⟩

/-- A clear that is not rejected finds every row up to date. -/
theorem Synced.clear (hs : Synced boardId k db committedEpoch)
    (hr : RunOk k committedEpoch (.committed sequence epoch)) (now duration : Nat) :
    Synced boardId (compareAndClear true epoch sequence now duration k).2 db committedEpoch := by
  rcases compareAndClear_cases epoch sequence now duration k with ⟨_, hkeys⟩ | ⟨heq, hkeys⟩
  · rw [hkeys]
    exact hs
  · rw [hkeys]
    have hle := hr.committed_le sequence epoch rfl
    have hcommitted := hs.committed_le
    have hrows := hs.current (by omega)
    exact
      { loaded := hs.loaded
        ownIds := hs.ownIds
        noEmpty := by simp [BoardKeys.clearMarkers]
        marked := fun _ id => by simp [Clean, BoardKeys.clearMarkers]
        dirtyPresent := by simp [BoardKeys.clearMarkers]
        deletedAbsent := by simp [BoardKeys.clearMarkers]
        committed_le := hs.committed_le
        current := fun _ => hrows
        clean := fun id _ => hrows id }

/-- The clear leaves every run in flight right: those of an older epoch are
    stale already, and those of the current epoch know the truth. -/
theorem RunOk.clear {r : FlushRun} (hr : RunOk k committedEpoch r)
    (hf : RunOk k committedEpoch (.committed sequence epoch)) (now duration : Nat) :
    RunOk (compareAndClear true epoch sequence now duration k).2 committedEpoch r := by
  rcases compareAndClear_cases epoch sequence now duration k with ⟨_, hkeys⟩ | ⟨heq, hkeys⟩
  · rw [hkeys]
    exact hr
  · rw [hkeys]
    have hle := hf.committed_le sequence epoch rfl
    have hfresh : ∀ e ∈ r.epoch?, ∀ id,
        Fresh (k.clearMarkers true sequence now duration) committedEpoch e id →
          Fresh k committedEpoch e id := by
      intro e he id h
      rcases h with h | ⟨h, _⟩
      · exact .inl h
      · have hepoch := hr.epoch_le e he
        exact .inl (by omega)
    refine
      { epoch_le := hr.epoch_le
        committed_le := hr.committed_le
        noEmpty := hr.noEmpty
        coversDirty := by simp [BoardKeys.clearMarkers]
        coversDeleted := by simp [BoardKeys.clearMarkers]
        deleted := ?_
        raw := ?_
        stays := hr.stays }
    · intro e he ids hids id hid h
      exact hr.deleted e he ids hids id hid (hfresh e he id h)
    · intro e he snap hsnap
      obtain ⟨hown, hraw⟩ := hr.raw e he snap hsnap
      exact ⟨hown, fun id h => hraw id (hfresh e he id h)⟩

end clear

/-! ### The run -/

section run
variable {Writer Flusher : Type} [DecidableEq Writer] [DecidableEq Flusher] {boardId : String}

omit [DecidableEq Writer] in
/-- A step of one flush that leaves the stores. -/
theorem Inv.setFlush {s s' : State Writer Flusher} {f : Flusher} {r : FlushRun} (h : Inv boardId s)
    (hkeys : s'.keys = s.keys) (hdb : s'.db = s.db)
    (hcommitted : s'.committedEpoch = s.committedEpoch)
    (hflush : s'.flush = Function.update s.flush f r) (hr : RunOk s.keys s.committedEpoch r) :
    Inv boardId s' := by
  constructor
  · rw [hkeys, hdb, hcommitted]
    exact h.synced
  · intro g
    rw [hkeys, hcommitted, hflush]
    by_cases hg : g = f
    · rw [hg, Function.update_self]
      exact hr
    · rw [Function.update_of_ne hg]
      exact h.runs g

omit [DecidableEq Flusher] in
theorem Inv.setWrite {s : State Writer Flusher} (h : Inv boardId s) (w : Writer) (r : WriteRun) :
    Inv boardId (s.setWrite w r) :=
  ⟨h.synced, h.runs⟩

omit [DecidableEq Writer] [DecidableEq Flusher] in
/-- INCR of the sequence is no mutation of the elements. -/
theorem Inv.number {s : State Writer Flusher} (h : Inv boardId s) :
    Inv boardId { s with keys := (getSequence s.keys).2 } := by
  have hs := h.synced
  constructor
  · exact { hs with loaded := rfl }
  · intro f
    have hr := h.runs f
    exact ⟨hr.epoch_le, hr.committed_le, hr.noEmpty, hr.coversDirty, hr.coversDeleted, hr.deleted,
      hr.raw, hr.stays⟩

omit [DecidableEq Writer] in
theorem Inv.commit {s : State Writer Flusher} {f : Flusher} {sequence epoch : Nat}
    {snap : DirtySnapshot} {db : Postgres} (h : Inv boardId s)
    (hr : RunOk s.keys s.committedEpoch (.elementsRead sequence epoch snap))
    (hcommit : persistBoardIncremental boardId snap s.db = .ok db)
    (hle : s.committedEpoch ≤ epoch) :
    Inv boardId ({ s with db := db, committedEpoch := max s.committedEpoch epoch }.setFlush f
      (.committed sequence epoch)) := by
  constructor
  · exact h.synced.commit hr hcommit hle
  · intro g
    by_cases hg : g = f
    · subst hg
      simp only [State.setFlush, Function.update_self]
      exact hr.committed
    · simp only [State.setFlush, Function.update_of_ne hg]
      exact (h.runs g).commit epoch

omit [DecidableEq Writer] in
theorem Inv.clear {s : State Writer Flusher} {f : Flusher} {sequence epoch : Nat}
    (h : Inv boardId s) (hr : RunOk s.keys s.committedEpoch (.committed sequence epoch))
    (now duration : Nat) :
    Inv boardId ({ s with
      keys := (compareAndClear true epoch sequence now duration s.keys).2 }.setFlush f .idle) := by
  constructor
  · exact h.synced.clear hr now duration
  · intro g
    by_cases hg : g = f
    · subst hg
      simp only [State.setFlush, Function.update_self]
      exact RunOk.idle _ _
    · simp only [State.setFlush, Function.update_of_ne hg]
      exact (h.runs g).clear hr now duration

omit [DecidableEq Writer] [DecidableEq Flusher] in
theorem inv_init {s : State Writer Flusher} (h : Init boardId s) : Inv boardId s := by
  constructor
  · exact
      { loaded := h.loaded
        ownIds := h.ownIds
        noEmpty := by simp [h.dirty]
        marked := fun _ id => by simp [Clean, h.dirty, h.deleted]
        dirtyPresent := by simp [h.dirty]
        deletedAbsent := by simp [h.deleted]
        committed_le := Nat.le_of_eq h.committedEpoch
        current := fun _ => h.rows
        clean := fun id _ => h.rows id }
  · intro f
    rw [h.flush f]
    exact RunOk.idle _ _

theorem inv_step {s s' : State Writer Flusher} {l : Label Writer Flusher} (h : Inv boardId s)
    (horder : CommitsInOrder boardId s l) (hstep : step boardId s l = some s') :
    Inv boardId s' := by
  cases l with
  | resolve w trackChangeLog changeSet =>
    simp only [step] at hstep
    split at hstep
    · split at hstep
      · obtain rfl := Option.some.inj hstep
        exact h
      · obtain rfl := Option.some.inj hstep
        exact h.setWrite _ _
    · cases hstep
  | number w =>
    simp only [step] at hstep
    split at hstep
    · obtain rfl := Option.some.inj hstep
      exact h.number.setWrite _ _
    · cases hstep
  | write w serverTimestamp =>
    simp only [step] at hstep
    split at hstep
    · next trackChangeLog change hwrite =>
      obtain rfl := Option.some.inj hstep
      have hwritten := written_runPipeline trackChangeLog serverTimestamp change s.keys
      have hnonempty : ∀ e ∈ change.upserts, e.id ≠ "" := by
        simpa [CommitsInOrder, hwrite] using horder
      exact ⟨h.synced.written hwritten hnonempty, fun f => (h.runs f).written hwritten⟩
    · cases hstep
  | readEpoch f =>
    simp only [step] at hstep
    split at hstep
    · split at hstep
      · next hunloaded =>
        -- no step of this system unloads the board
        have hloaded := h.synced.loaded
        rw [Option.isNone_iff_eq_none.mp hunloaded] at hloaded
        cases hloaded
      · obtain rfl := Option.some.inj hstep
        exact h.setFlush rfl rfl rfl rfl (RunOk.readEpoch _ _ _)
    · cases hstep
  | readDirty f =>
    simp only [step] at hstep
    split at hstep
    · next sequence epoch hflush =>
      obtain rfl := Option.some.inj hstep
      have hr := h.runs f
      rw [hflush] at hr
      exact h.setFlush rfl rfl rfl rfl (hr.readDirty h.synced)
    · cases hstep
  | readDeleted f =>
    simp only [step] at hstep
    split at hstep
    · next sequence epoch dirtyIds hflush =>
      obtain rfl := Option.some.inj hstep
      have hr := h.runs f
      rw [hflush] at hr
      exact h.setFlush rfl rfl rfl rfl (hr.readDeleted h.synced)
    · cases hstep
  | readElements f =>
    simp only [step] at hstep
    split at hstep
    · next sequence epoch dirtyIds deletedIds hflush =>
      obtain rfl := Option.some.inj hstep
      have hr := h.runs f
      rw [hflush] at hr
      exact h.setFlush rfl rfl rfl rfl (hr.readElements h.synced)
    · cases hstep
  | commit f fault =>
    simp only [step] at hstep
    split at hstep
    · next sequence epoch snap hflush =>
      have hr := h.runs f
      rw [hflush] at hr
      simp only [CommitsInOrder, hflush] at horder
      split at hstep
      · next db' hcommit =>
        obtain rfl := Option.some.inj hstep
        rw [hcommit] at horder
        exact h.commit hr (transaction_ok.mp hcommit).2 horder
      · next e herror =>
        rw [herror] at horder
        rw [if_neg (by simp [horder])] at hstep
        obtain rfl := Option.some.inj hstep
        exact h.setFlush rfl rfl rfl rfl (RunOk.idle _ _)
    · cases hstep
  | evict f found =>
    simp only [step] at hstep
    split at hstep
    · next hflush =>
      have hstays := (h.runs f).stays
      rw [hflush] at hstays
      cases hstays
    · cases hstep
  | unindex f =>
    simp only [step] at hstep
    split at hstep
    · next hflush =>
      have hstays := (h.runs f).stays
      rw [hflush] at hstays
      cases hstays
    · cases hstep
  | clear f flushCompletedAt duration =>
    simp only [step] at hstep
    split at hstep
    · next sequence epoch hflush =>
      obtain rfl := Option.some.inj hstep
      have hr := h.runs f
      rw [hflush] at hr
      exact h.clear hr _ _
    · cases hstep
  | abort f =>
    obtain rfl := Option.some.inj hstep
    exact h.setFlush rfl rfl rfl rfl (RunOk.idle _ _)

/-- In every run that commits in order and evicts nothing, a board with nobody at
    work and no dirty mark has its elements in its rows. -/
theorem flushedWhenClean_of_commitsInOrder {s : State Writer Flusher}
    (hs : (system Writer Flusher boardId).ReachableUnder (CommitsInOrder boardId) s) :
    FlushedWhenClean boardId s := by
  have hinv : Inv boardId s := by
    refine hs.invariant ?_ ?_
    · intro s h
      exact inv_init h
    · intro s l s' h horder hstep
      exact inv_step h horder hstep
  intro _ _ hunmarked id
  exact hinv.synced.clean id (hinv.synced.marked hunmarked id)

end run

/-! ### Two runs -/

/-- A database with one board, which is empty. -/
def startDb : Postgres where
  boards := AList.singleton "aaaaaaaa-aaaa-4aaa-8aaa-aaaaaaaaaaaa" ()
  elements := ∅

/-- The empty board, loaded. -/
def start {Writer Flusher : Type} : State Writer Flusher where
  keys := { seq := some 0 }
  db := startDb
  write := fun _ => .idle
  flush := fun _ => .idle
  committedEpoch := 0

theorem start_init {Writer Flusher : Type} :
    Init "aaaaaaaa-aaaa-4aaa-8aaa-aaaaaaaaaaaa" (start : State Writer Flusher) where
  loaded := rfl
  dirty := rfl
  deleted := rfl
  unmarked := rfl
  board := by
    change pgUuid "aaaaaaaa-aaaa-4aaa-8aaa-aaaaaaaaaaaa" ∈ startDb.boards
    decide
  ownIds := by
    intro id e he
    cases he
  rows := fun _ => trivial
  write := fun _ => rfl
  flush := fun _ => rfl
  committedEpoch := rfl

/-- With one writer: a call of `applyChangeSet` that stores the element `x` with a kind. -/
def applyX (kind : String) : List (Label Unit Bool) :=
  [.resolve () false ⟨[⟨"x", AList.singleton "kind" (.str kind)⟩], []⟩, .number (), .write () 0]

/-- The reads of a flush. -/
def snapshotBy (f : Bool) : List (Label Unit Bool) :=
  [.readEpoch f, .readDirty f, .readDeleted f, .readElements f]

/-- A note is stored and flushed. -/
theorem flushedWhenClean_of_commitsInOrder_run :
    ∃ s : State Unit Bool, s.keys.dirtyByAge = none ∧ (s.keys.elements.lookup "x").isSome ∧
      FlushedWhenClean "aaaaaaaa-aaaa-4aaa-8aaa-aaaaaaaaaaaa" s := by
  obtain ⟨s, hs⟩ : ∃ s, (system Unit Bool "aaaaaaaa-aaaa-4aaa-8aaa-aaaaaaaaaaaa").execUnder
      (CommitsInOrder "aaaaaaaa-aaaa-4aaa-8aaa-aaaaaaaaaaaa") start
      (applyX "NOTE" ++ snapshotBy true ++ [.commit true none, .clear true 0 0]) =
        some s := ⟨_, rfl⟩
  refine ⟨s, ?_, ?_, flushedWhenClean_of_commitsInOrder (.execUnder (.init start_init) hs)⟩
  · cases hs
    rfl
  · cases hs
    rfl

/-- Two flushes overlap: the first reads the note, the note becomes a text, the
    second flushes the text and clears the markers, and the first commits the
    note over it; its clear is rejected, but no marker is left. -/
theorem stale_commit_survives :
    ∃ s : State Unit Bool,
      (system Unit Bool "aaaaaaaa-aaaa-4aaa-8aaa-aaaaaaaaaaaa").Reachable s ∧
        ¬ FlushedWhenClean "aaaaaaaa-aaaa-4aaa-8aaa-aaaaaaaaaaaa" s := by
  obtain ⟨s, hs⟩ : ∃ s, (system Unit Bool "aaaaaaaa-aaaa-4aaa-8aaa-aaaaaaaaaaaa").exec start
      (applyX "NOTE" ++ snapshotBy true ++ applyX "TEXT" ++ snapshotBy false ++
        [.commit false none, .clear false 0 0, .commit true none, .clear true 0 0]) = some s :=
    ⟨_, rfl⟩
  refine ⟨s, .exec (.init start_init) hs, ?_⟩
  cases hs
  intro hflushed
  have hx := hflushed (fun _ => rfl) (fun f => by cases f <;> rfl) rfl "x"
  have htype : some (Json.str "TEXT") = some (Json.str "NOTE") := hx.type
  have hkind : "TEXT" = "NOTE" := Json.str.inj (Option.some.inj htype)
  exact absurd hkind (by decide)

end Notebortt.PersistRace
