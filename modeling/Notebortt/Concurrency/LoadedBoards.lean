import Mathlib.Data.Fintype.Basic
import Notebortt.Concurrency.BoardCommands
import Notebortt.Concurrency.PipelineOrder

/-! # Loaded boards

    `loadBoard` against every other operation: a board whose sequence exists is
    complete once it is quiet, as long as the operations keep out of each
    other's way. -/

open Transition

namespace Notebortt.BoardCommands

/-! ### Loaded boards -/

/-- No lock is held, and no operation is in flight. -/
structure Quiet {P : Type} (s : State P) : Prop where
  loadLock : s.loadLock = none
  evictionLock : s.evictionLock = none
  run : ∀ p, s.run p = .idle

/-- The hash holds what the last upsert of the id wrote. -/
def State.Fresh {P : Type} (s : State P) (id : String) : Prop :=
  ∃ e, s.lastUpsert id = some e ∧ s.keys.elements.lookup id = some e

/-- A loaded board that is quiet is complete, and holds the last upsert of every
    dirty element. -/
def LoadedIsComplete {P : Type} (boardId : String) (s : State P) : Prop :=
  Quiet s → s.keys.seq.isSome →
    HoldsRows boardId s.keys s.db ∧ ∀ id ∈ s.keys.dirtyElementIds, s.Fresh id

/-! ### Where a run stands -/

/-- The snapshot has nothing to commit. -/
def Snapshot.isEmpty : Snapshot → Bool
  | .incremental snap => snap.dirtyIds.isEmpty && snap.deletedIds.isEmpty
  | .full _ => false

/-- The elements whose rows the snapshot may write. -/
def Snapshot.elements : Snapshot → String → Option BoardElement
  | .incremental snap => snap.rawDirtyElements
  | .full elements => elements.lookup

/-- The rows that the snapshot drops, unless it writes them. -/
def Snapshot.Drops : Snapshot → String → Prop
  | .incremental snap, id => id ∈ snap.deletedIds
  | .full _, _ => True

namespace Run

/-- The run is in its pipeline: it has sent a command of the one kind, and has
    still to send one of the other. -/
def midway (sentOne leftOne : WriteCommand → Bool) : Run → Bool
  | .apply _ (.writing _ sent rest) => sent.any sentOne && rest.any leftOne
  | _ => false

/-- The run has set the element, and has still to mark it. -/
def unmarked (id : String) : Run → Bool :=
  midway (·.sets id) fun c => c.marksDirty id || c.clearsDeleted id

/-- The run has removed the element, and has still to mark it as deleted. -/
def unlisted (id : String) : Run → Bool := midway (·.removes id) (·.marksDeleted id)

/-- The run has removed the element, and has still to take its dirty mark. -/
def uncleared (id : String) : Run → Bool := midway (·.removes id) (·.clearsDirty id)

/-- The run has raised the epoch, and has still to mark its deletions. -/
def lateDelete : Run → Bool := midway (·.isIncrDirtyEpoch) (·.isSaddDeleted)

/-- The run is a load that needs the load lock. -/
def loading : Run → Bool
  | .load .recheck | .load .select | .load (.checkAgain _) | .load (.writing _) => true
  | _ => false

/-- The run takes the board for loaded. -/
def relies : Run → Bool
  | .apply _ (.writing _ _ _) => true
  | .persist (.waiting _) | .persist .checkBoard | .persist .checkLoaded
  | .persist (.unindexing _) => false
  | .persist _ => true
  | _ => false

/-- The next command numbers a change. -/
def numbersNext : Run → Bool
  | .apply _ (.incr _) => true
  | _ => false

/-- The ids whose elements the next command removes. -/
def removesNext : Run → List String
  | .apply _ (.writing _ _ (.hdel elementIds :: _)) => elementIds
  | _ => []

/-- The next command of a flush reads the dirty epoch. -/
def readsEpochNext : Run → Bool
  | .persist (.readEpoch _) => true
  | _ => false

/-- The epoch of the snapshot that is committed next, unless it is empty. -/
def commitsNext : Run → Option Nat
  | .persist (.commit _ epoch snap) => if snap.isEmpty then none else some epoch
  | _ => none

/-- The keys that the SCAN of an eviction has found. -/
def found : Run → KeyName → Bool
  | .flush (.scanning found) => found
  | _ => fun _ => false

end Run

/-! ### The step condition -/

section condition
variable {P : Type}

/-- A change is numbered only on a loaded board, or on one without rows; an HDEL
    takes no element that another change has set and not marked yet; a flush that
    will clear the markers reads the epoch while no change is between its epoch
    and its deletions, and commits no snapshot older than one committed. -/
structure OrderlyCommand (cfg : Config) (boardId : String) (s : State P) (p : P) : Prop where
  numbers : (s.run p).numbersNext = true → s.keys.seq.isSome ∨ s.db.rowsOf boardId = []
  removes : ∀ id ∈ (s.run p).removesNext, ∀ q, q ≠ p → (s.run q).unmarked id = false
  readsEpoch : cfg.enableIncrementalPersistence = true → (s.run p).readsEpochNext = true →
    ∀ q, (s.run q).lateDelete = false
  commits : cfg.enableIncrementalPersistence = true →
    ∀ epoch ∈ (s.run p).commitsNext, s.committedEpoch ≤ epoch

/-- A DEL that unloads the board: the sequence and the dirty ids go. -/
structure Evicts (found : KeyName → Bool) (s : State P) : Prop where
  seq : found .seq = true ∨ s.keys.seq = none
  dirty : found .dirtyElementIds = true ∨ s.keys.dirtyElementIds.entries = []
  loading : ∀ q, (s.run q).loading = false
  relies : ∀ q, (s.run q).relies = false

/-- A DEL that leaves the board as it is. -/
structure Spares (found : KeyName → Bool) (s : State P) : Prop where
  seq : found .seq = false ∨ s.keys.seq = none
  elements : found .elements = false ∨ s.keys.elements.entries = []
  dirty : found .dirtyElementIds = false ∨ s.keys.dirtyElementIds.entries = []
  deleted : found .deletedElementIds = false ∨ s.keys.deletedElementIds.entries = []
  epoch : found .dirtyEpoch = false ∨ s.keys.dirtyEpoch = none
  loadLock : found .loadLock = false ∨ ∀ q, (s.run q).loading = false

/-- The step condition: the commands are in order, an eviction takes a board that
    nobody is at work on or nothing of it, and a load lock lasts as long as its
    load. -/
def Orderly (cfg : Config) (boardId : String) (s : State P) : Label P → Prop
  | .command p _ => OrderlyCommand cfg boardId s p
  | .del p => Evicts (s.run p).found s ∨ Spares (s.run p).found s
  | .loadLockExpires => ∀ q, (s.run q).loading = false
  | _ => True

instance [DecidableEq P] [Fintype P] (cfg : Config) (boardId : String) (s : State P) (p : P) :
    Decidable (OrderlyCommand cfg boardId s p) :=
  decidable_of_iff
    (((s.run p).numbersNext = true → s.keys.seq.isSome ∨ s.db.rowsOf boardId = []) ∧
      (∀ id ∈ (s.run p).removesNext, ∀ q, q ≠ p → (s.run q).unmarked id = false) ∧
      (cfg.enableIncrementalPersistence = true → (s.run p).readsEpochNext = true →
        ∀ q, (s.run q).lateDelete = false) ∧
      (cfg.enableIncrementalPersistence = true →
        ∀ epoch ∈ (s.run p).commitsNext, s.committedEpoch ≤ epoch))
    ⟨fun h => ⟨h.1, h.2.1, h.2.2.1, h.2.2.2⟩,
      fun h => ⟨h.numbers, h.removes, h.readsEpoch, h.commits⟩⟩

instance [Fintype P] (found : KeyName → Bool) (s : State P) : Decidable (Evicts found s) :=
  decidable_of_iff
    ((found .seq = true ∨ s.keys.seq = none) ∧
      (found .dirtyElementIds = true ∨ s.keys.dirtyElementIds.entries = []) ∧
      (∀ q, (s.run q).loading = false) ∧ ∀ q, (s.run q).relies = false)
    ⟨fun h => ⟨h.1, h.2.1, h.2.2.1, h.2.2.2⟩, fun h => ⟨h.seq, h.dirty, h.loading, h.relies⟩⟩

instance [Fintype P] (found : KeyName → Bool) (s : State P) : Decidable (Spares found s) :=
  decidable_of_iff
    ((found .seq = false ∨ s.keys.seq = none) ∧
      (found .elements = false ∨ s.keys.elements.entries = []) ∧
      (found .dirtyElementIds = false ∨ s.keys.dirtyElementIds.entries = []) ∧
      (found .deletedElementIds = false ∨ s.keys.deletedElementIds.entries = []) ∧
      (found .dirtyEpoch = false ∨ s.keys.dirtyEpoch = none) ∧
      (found .loadLock = false ∨ ∀ q, (s.run q).loading = false))
    ⟨fun h => ⟨h.1, h.2.1, h.2.2.1, h.2.2.2.1, h.2.2.2.2.1, h.2.2.2.2.2⟩,
      fun h => ⟨h.seq, h.elements, h.dirty, h.deleted, h.epoch, h.loadLock⟩⟩

instance [DecidableEq P] [Fintype P] (cfg : Config) (boardId : String) (s : State P) :
    (l : Label P) → Decidable (Orderly cfg boardId s l)
  | .command p _ => inferInstanceAs (Decidable (OrderlyCommand cfg boardId s p))
  | .del p => inferInstanceAs (Decidable (Evicts (s.run p).found s ∨ Spares (s.run p).found s))
  | .loadLockExpires => inferInstanceAs (Decidable (∀ q, (s.run q).loading = false))
  | .loadBoard _ | .applyChangeSet _ _ | .persistBoard _ | .flushBoard _ _ | .idleCheck _ _
  | .scanPage _ _ | .evictionLockExpires => .isTrue trivial

end condition

/-! ### The invariant -/

section invariant
variable {P : Type}

/-- The hash has the element, or a change in flight has removed it and has still
    to mark it as deleted. -/
def State.Held (s : State P) (id : String) : Prop :=
  (s.keys.elements.lookup id).isSome ∨ ∃ q, (s.run q).unlisted id = true

/-- What a row needs on a loaded board. -/
def State.Kept (s : State P) (id : String) : Prop := s.Held id ∨ id ∈ s.keys.deletedElementIds

/-- The rows that a load has still to write. -/
structure LoadsRest (boardId : String) (s : State P) (rest : List (String × BoardElement)) :
    Prop where
  rows : s.keys.seq = none → ∀ row ∈ rest, row ∈ loadedElements boardId s.db
  loaded : s.keys.seq = none → ∀ id, (s.db.ownRow boardId id).isSome →
    (s.keys.elements.lookup id).isSome ∨ id ∈ rest.map (·.1)
  done : s.keys.seq.isSome → rest = []

/-- The epoch that a flush has read: as long as it stays, no change is between
    its epoch and its deletions. -/
structure EpochRead (cfg : Config) (s : State P) (epoch : Nat) : Prop where
  le : epoch ≤ getDirtyEpoch s.keys
  settled : cfg.enableIncrementalPersistence = true → epoch = getDirtyEpoch s.keys →
    ∀ q, (s.run q).lateDelete = false

/-- A flush that drops the rows of the deleted ids: as long as the epoch stays, no
    other id joins them. -/
structure DeletedRead (cfg : Config) (s : State P) (epoch : Nat) (drops : String → Prop) :
    Prop extends EpochRead cfg s epoch where
  deleted : cfg.enableIncrementalPersistence = true → epoch = getDirtyEpoch s.keys →
    ∀ id ∈ s.keys.deletedElementIds, drops id

/-- The elements that a flush has read: the rows it writes have what they need, as
    long as no later snapshot is committed. -/
structure ElementsRead (cfg : Config) (s : State P) (epoch : Nat)
    (elements : String → Option BoardElement) : Prop where
  ownIds : OwnIds elements
  kept : (cfg.enableIncrementalPersistence = true → s.committedEpoch ≤ epoch) →
    ∀ id, (elements id).isSome → s.Kept id
  held : cfg.enableIncrementalPersistence = true → epoch = getDirtyEpoch s.keys →
    ∀ id, (elements id).isSome → s.Held id

/-- A committed flush: as long as the epoch stays, no row needs its deletion mark. -/
structure Committed (cfg : Config) (boardId : String) (s : State P) (epoch : Nat) : Prop
    extends EpochRead cfg s epoch where
  committed : epoch ≤ s.committedEpoch
  held : cfg.enableIncrementalPersistence = true → epoch = getDirtyEpoch s.keys →
    ∀ id, (s.db.ownRow boardId id).isSome → s.Held id

/-- A pipeline in flight: what it has set and not marked is still in the hash. -/
structure Writes (s : State P) (sent rest : List WriteCommand) : Prop where
  inOrder : InOrder sent rest
  fresh : ∀ id, sent.any (·.sets id) = true →
    rest.any (fun c => c.marksDirty id || c.clearsDeleted id) = true → s.Fresh id

def PersistOk (cfg : Config) (boardId : String) (s : State P) : PersistRun → Prop
  | .readDirty _ epoch | .readDeleted _ epoch _ | .waitingElements _ _ epoch
  | .readAll _ epoch => EpochRead cfg s epoch
  | .readElements _ epoch _ deletedIds => DeletedRead cfg s epoch (· ∈ deletedIds)
  | .commit _ epoch snap =>
    DeletedRead cfg s epoch snap.Drops ∧ ElementsRead cfg s epoch snap.elements
  | .clear _ epoch => Committed cfg boardId s epoch
  | _ => True

/-- What a run knows of the board. -/
def RunOk (cfg : Config) (boardId : String) (s : State P) : Run → Prop
  | .load (.checkAgain rows) => s.keys.seq = none → rows = loadedElements boardId s.db
  | .load (.writing rest) => LoadsRest boardId s rest
  | .apply _ (.waitingSequence _ changes) | .apply _ (.incr changes) =>
    ∀ e ∈ changes.upserts, e.id ∉ changes.deletes
  | .apply _ (.writing _ sent rest) => Writes s sent rest
  | .persist r => PersistOk cfg boardId s r
  | _ => True

structure Consistent (cfg : Config) (boardId : String) (s : State P) : Prop where
  ownIds : OwnIds s.keys.elements.lookup
  committed_le : s.committedEpoch ≤ getDirtyEpoch s.keys
  clean : s.keys.seq = none → ∀ id, id ∉ s.keys.dirtyElementIds
  rows : s.keys.seq.isSome → ∀ id, (s.db.ownRow boardId id).isSome → s.Kept id
  dirty : ∀ id ∈ s.keys.dirtyElementIds, s.Fresh id ∨ ∃ q, (s.run q).uncleared id = true
  lock : ∀ q, (s.run q).loading = true → s.loadLock = some q
  loaded : ∀ q, (s.run q).relies = true → s.keys.seq.isSome
  runs : ∀ q, RunOk cfg boardId s (s.run q)

/-! ### What a step does to the other runs -/

/-- A flush that has read the current epoch may still trust what it read. -/
structure Settled (cfg : Config) (s s' : State P) : Prop where
  incremental : cfg.enableIncrementalPersistence = true
  epoch : getDirtyEpoch s'.keys = getDirtyEpoch s.keys
  late : ∀ q, (s.run q).lateDelete = false

/-- How the board may change under the runs other than that of `p`. -/
structure Evolves (cfg : Config) (boardId : String) (p : P) (s s' : State P) : Prop where
  runs : ∀ q, q ≠ p → s'.run q = s.run q
  loaded : s.keys.seq.isSome → s'.keys.seq.isSome
  unloaded : s'.keys.seq = none → s'.db = s.db ∧
    ∀ id, (s.keys.elements.lookup id).isSome → (s'.keys.elements.lookup id).isSome
  done : s.keys.seq = none → s'.keys.seq.isSome →
    s.db.rowsOf boardId = [] ∨ ∀ q, q ≠ p → (s.run q).loading = false
  fresh : ∀ q, q ≠ p → ∀ id, (s.run q).unmarked id = true → s.Fresh id → s'.Fresh id
  epoch_le : getDirtyEpoch s.keys ≤ getDirtyEpoch s'.keys
  committed_le : s.committedEpoch ≤ s'.committedEpoch
  late : Settled cfg s s' → ∀ q, (s'.run q).lateDelete = false
  deleted : Settled cfg s s' → ∀ id ∈ s'.keys.deletedElementIds, id ∈ s.keys.deletedElementIds
  held : Settled cfg s s' → ∀ id, s.Held id → s'.Held id
  /-- Deletion marks are cleared only after the commit of the current epoch. -/
  kept : ∀ id, s.Kept id → s'.Kept id ∨ (cfg.enableIncrementalPersistence = true ∧
    getDirtyEpoch s'.keys = getDirtyEpoch s.keys ∧ getDirtyEpoch s.keys ≤ s.committedEpoch)
  rows : Settled cfg s s' → getDirtyEpoch s.keys ≤ s.committedEpoch →
    (∀ id, (s.db.ownRow boardId id).isSome → s.Held id) →
      ∀ id, (s'.db.ownRow boardId id).isSome → s'.Held id

section evolves
variable {cfg : Config} {boardId : String} {p : P} {s s' : State P} {epoch : Nat}

theorem Evolves.unloaded_before (h : Evolves cfg boardId p s s') (hnone : s'.keys.seq = none) :
    s.keys.seq = none := by
  by_contra hsome
  have hloaded := h.loaded (Option.isSome_iff_ne_none.mpr hsome)
  rw [hnone] at hloaded
  cases hloaded

theorem LoadsRest.evolves {rest : List (String × BoardElement)} (h : LoadsRest boardId s rest)
    (hevolves : Evolves cfg boardId p s s')
    (hothers : s.keys.seq = none → s'.keys.seq.isSome → s.db.rowsOf boardId = []) :
    LoadsRest boardId s' rest := by
  constructor
  · intro hnone row hrow
    rw [(hevolves.unloaded hnone).1]
    exact h.rows (hevolves.unloaded_before hnone) row hrow
  · intro hnone id hrow
    obtain ⟨hdb, hhash⟩ := hevolves.unloaded hnone
    rw [hdb] at hrow
    exact (h.loaded (hevolves.unloaded_before hnone) id hrow).imp_left (hhash id)
  · intro hsome
    cases hseq : s.keys.seq with
    | some n => exact h.done (by simp [hseq])
    | none =>
      -- no row is left to write when the sequence appears
      have hrows := hothers hseq hsome
      rw [List.eq_nil_iff_forall_not_mem]
      intro row hrow
      have hmem := h.rows hseq row hrow
      rw [loadedElements, hrows] at hmem
      cases hmem

theorem EpochRead.settled_evolves (h : EpochRead cfg s epoch)
    (hevolves : Evolves cfg boardId p s s') (hincremental : cfg.enableIncrementalPersistence = true)
    (hepoch : epoch = getDirtyEpoch s'.keys) :
    Settled cfg s s' ∧ epoch = getDirtyEpoch s.keys := by
  have hle := h.le
  have hmono := hevolves.epoch_le
  have hsame : epoch = getDirtyEpoch s.keys := by omega
  exact ⟨⟨hincremental, by omega, h.settled hincremental hsame⟩, hsame⟩

theorem EpochRead.evolves (h : EpochRead cfg s epoch) (hevolves : Evolves cfg boardId p s s') :
    EpochRead cfg s' epoch where
  le := h.le.trans hevolves.epoch_le
  settled hincremental hepoch := hevolves.late (h.settled_evolves hevolves hincremental hepoch).1

theorem DeletedRead.evolves {drops : String → Prop} (h : DeletedRead cfg s epoch drops)
    (hevolves : Evolves cfg boardId p s s') : DeletedRead cfg s' epoch drops where
  toEpochRead := h.toEpochRead.evolves hevolves
  deleted hincremental hepoch id hid := by
    obtain ⟨hsettled, hsame⟩ := h.settled_evolves hevolves hincremental hepoch
    exact h.deleted hincremental hsame id (hevolves.deleted hsettled id hid)

theorem ElementsRead.evolves {elements : String → Option BoardElement}
    (h : ElementsRead cfg s epoch elements) (hread : EpochRead cfg s epoch)
    (hevolves : Evolves cfg boardId p s s') : ElementsRead cfg s' epoch elements where
  ownIds := h.ownIds
  kept hlatest id hid := by
    have hcommitted := hevolves.committed_le
    have hkept : s.Kept id := by
      refine h.kept (fun hincremental => ?_) id hid
      have hle := hlatest hincremental
      omega
    rcases hevolves.kept id hkept with hkept' | ⟨hincremental, hepoch, hle⟩
    · exact hkept'
    · -- the marks are cleared: no later epoch is committed, so the snapshot is current
      have hlast := hlatest hincremental
      have hread_le := hread.le
      have hsame : epoch = getDirtyEpoch s'.keys := by omega
      obtain ⟨hsettled, hsame⟩ := hread.settled_evolves hevolves hincremental hsame
      exact .inl (hevolves.held hsettled id (h.held hincremental hsame id hid))
  held hincremental hepoch id hid := by
    obtain ⟨hsettled, hsame⟩ := hread.settled_evolves hevolves hincremental hepoch
    exact hevolves.held hsettled id (h.held hincremental hsame id hid)

theorem Committed.evolves (h : Committed cfg boardId s epoch)
    (hevolves : Evolves cfg boardId p s s') : Committed cfg boardId s' epoch where
  toEpochRead := h.toEpochRead.evolves hevolves
  committed := h.committed.trans hevolves.committed_le
  held hincremental hepoch := by
    obtain ⟨hsettled, hsame⟩ := h.settled_evolves hevolves hincremental hepoch
    exact hevolves.rows hsettled (hsame ▸ h.committed) (h.held hincremental hsame)

theorem PersistOk.evolves {r : PersistRun} (h : PersistOk cfg boardId s r)
    (hevolves : Evolves cfg boardId p s s') : PersistOk cfg boardId s' r := by
  cases r with
  | readDirty sequence epoch => exact EpochRead.evolves h hevolves
  | readDeleted sequence epoch dirtyIds => exact EpochRead.evolves h hevolves
  | waitingElements w sequence epoch => exact EpochRead.evolves h hevolves
  | readAll sequence epoch => exact EpochRead.evolves h hevolves
  | readElements sequence epoch dirtyIds deletedIds => exact DeletedRead.evolves h hevolves
  | commit sequence epoch snap =>
    exact ⟨h.1.evolves hevolves, h.2.evolves h.1.toEpochRead hevolves⟩
  | clear sequence epoch => exact Committed.evolves h hevolves
  | _ => trivial

theorem RunOk.evolves {r : Run} (h : RunOk cfg boardId s r) (hevolves : Evolves cfg boardId p s s')
    (hfresh : ∀ id, r.unmarked id = true → s.Fresh id → s'.Fresh id)
    (hdone : r.loading = true → s.keys.seq = none → s'.keys.seq.isSome →
      s.db.rowsOf boardId = []) : RunOk cfg boardId s' r := by
  cases r with
  | idle => trivial
  | load r =>
    cases r with
    | checkAgain rows =>
      intro hnone
      rw [(hevolves.unloaded hnone).1]
      exact h (hevolves.unloaded_before hnone)
    | writing rest => exact LoadsRest.evolves h hevolves (hdone rfl)
    | _ => trivial
  | apply call r =>
    cases r with
    | waitingSequence w changes => exact h
    | incr changes => exact h
    | writing change sent rest =>
      have hwrites : Writes s sent rest := h
      refine ⟨hwrites.inOrder, fun id hset hrest => ?_⟩
      exact hfresh id (by simp only [Run.unmarked, Run.midway, hset, hrest, Bool.and_self])
        (hwrites.fresh id hset hrest)
    | _ => trivial
  | persist r => exact PersistOk.evolves h hevolves
  | flush r => trivial

/-- The invariant after a step of `p`, from what the step does to the others. -/
theorem Consistent.evolves [DecidableEq P] (h : Consistent cfg boardId s)
    (hevolves : Evolves cfg boardId p s s') (hownIds : OwnIds s'.keys.elements.lookup)
    (hcommitted : s'.committedEpoch ≤ getDirtyEpoch s'.keys)
    (hclean : s'.keys.seq = none → ∀ id, id ∉ s'.keys.dirtyElementIds)
    (hrows : s'.keys.seq.isSome → ∀ id, (s'.db.ownRow boardId id).isSome → s'.Kept id)
    (hdirty : ∀ id ∈ s'.keys.dirtyElementIds, s'.Fresh id ∨ ∃ q, (s'.run q).uncleared id = true)
    (hlock : ∀ q, (s'.run q).loading = true → s'.loadLock = some q)
    (hloaded : (s'.run p).relies = true → s'.keys.seq.isSome)
    (hok : RunOk cfg boardId s' (s'.run p)) : Consistent cfg boardId s' where
  ownIds := hownIds
  committed_le := hcommitted
  clean := hclean
  rows := hrows
  dirty := hdirty
  lock := hlock
  loaded q hrelies := by
    by_cases hq : q = p
    · subst hq
      exact hloaded hrelies
    · rw [hevolves.runs q hq] at hrelies
      exact hevolves.loaded (h.loaded q hrelies)
  runs q := by
    by_cases hq : q = p
    · subst hq
      exact hok
    · rw [hevolves.runs q hq]
      refine (h.runs q).evolves hevolves (hevolves.fresh q hq) fun hloading hnone hsome => ?_
      rcases hevolves.done hnone hsome with hrows | hothers
      · exact hrows
      · rw [hothers q hq] at hloading
        cases hloading

end evolves

/-! ### Steps that leave the board -/

/-- What the invariant reads of the stores is the same, but for the sequence, and
    every pipeline is where it was. -/
structure SameBoard (s s' : State P) : Prop where
  midway : ∀ q sentOne leftOne, (s'.run q).midway sentOne leftOne = (s.run q).midway sentOne leftOne
  elements : s'.keys.elements = s.keys.elements
  dirty : s'.keys.dirtyElementIds = s.keys.dirtyElementIds
  deleted : s'.keys.deletedElementIds = s.keys.deletedElementIds
  dirtyEpoch : s'.keys.dirtyEpoch = s.keys.dirtyEpoch
  db : s'.db = s.db
  committedEpoch : s'.committedEpoch = s.committedEpoch
  lastUpsert : s'.lastUpsert = s.lastUpsert

theorem Run.midway_of_pipeline {r : Run} (h : r.pipeline = [])
    (sentOne leftOne : WriteCommand → Bool) :
    r.midway sentOne leftOne = false := by
  cases r with
  | apply call r =>
    cases r with
    | writing change sent rest => simp_all [pipeline, midway]
    | _ => rfl
  | _ => rfl

theorem Run.relies_of_midway {r : Run} {sentOne leftOne : WriteCommand → Bool}
    (h : r.midway sentOne leftOne = true) : r.relies = true := by
  cases r with
  | apply call r =>
    cases r with
    | writing change sent rest => rfl
    | _ => cases h
  | _ => cases h

section same
variable [DecidableEq P] {cfg : Config} {boardId : String} {p : P} {s s' : State P}

theorem midway_of_runs (hruns : ∀ q, q ≠ p → s'.run q = s.run q) (hold : (s.run p).pipeline = [])
    (hnew : ∀ sentOne leftOne, (s'.run p).midway sentOne leftOne = false) (q : P)
    (sentOne leftOne : WriteCommand → Bool) :
    (s'.run q).midway sentOne leftOne = (s.run q).midway sentOne leftOne := by
  by_cases hq : q = p
  · rw [hq, hnew, Run.midway_of_pipeline hold]
  · rw [hruns q hq]

omit [DecidableEq P] in
theorem exists_midway {sentOne leftOne : WriteCommand → Bool}
    (hmidway : ∀ q sentOne leftOne,
      (s'.run q).midway sentOne leftOne = (s.run q).midway sentOne leftOne)
    (h : ∃ q, (s.run q).midway sentOne leftOne = true) :
    ∃ q, (s'.run q).midway sentOne leftOne = true := by
  obtain ⟨q, hq⟩ := h
  exact ⟨q, (hmidway q _ _).trans hq⟩

namespace SameBoard

omit [DecidableEq P] in
theorem fresh (h : SameBoard s s') {id : String} (hfresh : s.Fresh id) : s'.Fresh id := by
  unfold State.Fresh
  rw [h.elements, h.lastUpsert]
  exact hfresh

omit [DecidableEq P] in
theorem held (h : SameBoard s s') {id : String} (hheld : s.Held id) : s'.Held id := by
  unfold State.Held
  rw [h.elements]
  exact hheld.imp_right (exists_midway h.midway)

omit [DecidableEq P] in
theorem kept (h : SameBoard s s') {id : String} (hkept : s.Kept id) : s'.Kept id := by
  unfold State.Kept
  rw [h.deleted]
  exact hkept.imp_left h.held

omit [DecidableEq P] in
theorem getDirtyEpoch_eq (h : SameBoard s s') : getDirtyEpoch s'.keys = getDirtyEpoch s.keys := by
  rw [getDirtyEpoch, getDirtyEpoch, h.dirtyEpoch]

omit [DecidableEq P] in
theorem evolves (h : SameBoard s s') (hruns : ∀ q, q ≠ p → s'.run q = s.run q)
    (hloaded : s.keys.seq.isSome → s'.keys.seq.isSome)
    (hdone : s.keys.seq = none → s'.keys.seq.isSome →
      s.db.rowsOf boardId = [] ∨ ∀ q, q ≠ p → (s.run q).loading = false) :
    Evolves cfg boardId p s s' where
  runs := hruns
  loaded := hloaded
  unloaded _ := by
    rw [h.db, h.elements]
    exact ⟨rfl, fun _ => id⟩
  done := hdone
  fresh _ _ _ _ := h.fresh
  epoch_le := by rw [h.getDirtyEpoch_eq]
  committed_le := by rw [h.committedEpoch]
  late hsettled q := (h.midway q _ _).trans (hsettled.late q)
  deleted _ id hid := by rwa [h.deleted] at hid
  held _ _ := h.held
  kept _ hkept := .inl (h.kept hkept)
  rows _ _ hrows id hrow := by
    rw [h.db] at hrow
    exact h.held (hrows id hrow)

end SameBoard

theorem Consistent.lock_of_runs (h : Consistent cfg boardId s)
    (hruns : ∀ q, q ≠ p → s'.run q = s.run q) (hlock : s'.loadLock = s.loadLock)
    (hp : (s'.run p).loading = false) : ∀ q, (s'.run q).loading = true → s'.loadLock = some q := by
  intro q hloading
  by_cases hq : q = p
  · rw [hq, hp] at hloading
    cases hloading
  · rw [hruns q hq] at hloading
    rw [hlock]
    exact h.lock q hloading

/-- A step that leaves the board, but may load it. -/
theorem Consistent.same (h : Consistent cfg boardId s) (hsame : SameBoard s s')
    (hevolves : Evolves cfg boardId p s s')
    (hrows : s.keys.seq = none → s'.keys.seq.isSome →
      ∀ id, (s.db.ownRow boardId id).isSome → s.Kept id)
    (hlock : ∀ q, (s'.run q).loading = true → s'.loadLock = some q)
    (hrelies : (s'.run p).relies = true → s'.keys.seq.isSome)
    (hok : RunOk cfg boardId s' (s'.run p)) : Consistent cfg boardId s' := by
  refine h.evolves hevolves ?_ ?_ ?_ ?_ ?_ hlock hrelies hok
  · rw [hsame.elements]
    exact h.ownIds
  · rw [hsame.committedEpoch, hsame.getDirtyEpoch_eq]
    exact h.committed_le
  · intro hnone
    rw [hsame.dirty]
    exact h.clean (hevolves.unloaded_before hnone)
  · intro hsome id hrow
    rw [hsame.db] at hrow
    apply hsame.kept
    cases hseq : s.keys.seq with
    | none => exact hrows hseq hsome id hrow
    | some n => exact h.rows (by simp [hseq]) id hrow
  · rw [hsame.dirty]
    intro id hid
    exact (h.dirty id hid).imp hsame.fresh (exists_midway hsame.midway)

/-- A step that leaves the board: a read, a lock, an index. -/
theorem Consistent.move (h : Consistent cfg boardId s) (hsame : SameBoard s s')
    (hseq : s'.keys.seq = s.keys.seq) (hruns : ∀ q, q ≠ p → s'.run q = s.run q)
    (hlock : ∀ q, (s'.run q).loading = true → s'.loadLock = some q)
    (hrelies : (s'.run p).relies = true → s.keys.seq.isSome)
    (hok : RunOk cfg boardId s (s'.run p)) : Consistent cfg boardId s' := by
  have hnone : s.keys.seq = none → ¬ s'.keys.seq.isSome := by
    intro hnone
    rw [hseq, hnone]
    simp
  have hevolves : Evolves cfg boardId p s s' := by
    refine hsame.evolves hruns ?_ ?_
    · rw [hseq]
      exact id
    · exact fun h h' => absurd h' (hnone h)
  refine h.same hsame hevolves ?_ hlock ?_ ?_
  · exact fun h h' => absurd h' (hnone h)
  · rwa [hseq]
  · exact hok.evolves hevolves (fun _ _ => hsame.fresh) fun _ h h' => absurd h' (hnone h)

/-- The stores change where the invariant does not look, and no run moves. -/
theorem Consistent.stores (h : Consistent cfg boardId s) (p : P) (hsame : SameBoard s s')
    (hseq : s'.keys.seq = s.keys.seq) (hrun : s'.run = s.run)
    (hlock : ∀ q, (s.run q).loading = true → s'.loadLock = some q) : Consistent cfg boardId s' := by
  have hruns : ∀ q, q ≠ p → s'.run q = s.run q := fun q _ => by rw [hrun]
  refine h.move hsame hseq hruns ?_ ?_ ?_
  · rwa [hrun]
  · rw [hrun]
    exact h.loaded p
  · rw [hrun]
    exact h.runs p

/-- The next state of a run, while the stores stay. -/
theorem Consistent.setRun (h : Consistent cfg boardId s) {r : Run} (hold : (s.run p).pipeline = [])
    (hnew : r.pipeline = []) (hlock : r.loading = true → s.loadLock = some p)
    (hrelies : r.relies = true → s.keys.seq.isSome) (hok : RunOk cfg boardId s r) :
    Consistent cfg boardId (s.setRun p r) := by
  have hruns : ∀ q, q ≠ p → (s.setRun p r).run q = s.run q := fun q hq => s.setRun_ne r hq
  have hmidway := midway_of_runs hruns hold
    (by rw [State.setRun_self]; exact Run.midway_of_pipeline hnew)
  refine h.move ⟨hmidway, rfl, rfl, rfl, rfl, rfl, rfl, rfl⟩ rfl hruns ?_ ?_ ?_
  · intro q hloading
    by_cases hq : q = p
    · subst hq
      rw [State.setRun_self] at hloading
      exact hlock hloading
    · rw [hruns q hq] at hloading
      exact h.lock q hloading
  · rwa [State.setRun_self]
  · rwa [State.setRun_self]

/-- The run is not at work on the board. -/
theorem Consistent.setAside (h : Consistent cfg boardId s) {r : Run}
    (hold : (s.run p).pipeline = []) (hnew : r.pipeline = []) (hloading : r.loading = false)
    (hrelies : r.relies = false) (hok : RunOk cfg boardId s r) :
    Consistent cfg boardId (s.setRun p r) := by
  refine h.setRun hold hnew ?_ ?_ hok
  · simp [hloading]
  · simp [hrelies]

theorem Consistent.setLoading (h : Consistent cfg boardId s) {r : Run}
    (hold : (s.run p).pipeline = []) (hnew : r.pipeline = []) (hlock : s.loadLock = some p)
    (hrelies : r.relies = false) (hok : RunOk cfg boardId s r) :
    Consistent cfg boardId (s.setRun p r) := by
  refine h.setRun hold hnew (fun _ => hlock) ?_ hok
  simp [hrelies]

theorem Consistent.setRelying (h : Consistent cfg boardId s) {r : Run}
    (hold : (s.run p).pipeline = []) (hnew : r.pipeline = []) (hloading : r.loading = false)
    (hloaded : s.keys.seq.isSome) (hok : RunOk cfg boardId s r) :
    Consistent cfg boardId (s.setRun p r) := by
  refine h.setRun hold hnew ?_ (fun _ => hloaded) hok
  simp [hloading]

end same

end invariant

end Notebortt.BoardCommands
