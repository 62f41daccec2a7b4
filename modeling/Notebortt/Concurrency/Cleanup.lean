import Notebortt.BoardState.ChangeLog
import Notebortt.Concurrency.PersistRace

/-! # Cleaning up an idle board against batches

    One run of `cleanupInactiveBoards` on a loaded board (the inactivity probe,
    the presence probe, `persistBoard`, and `flushBoard` with `requireIdle`),
    among any number of `processBatch` calls, of participants who come and go,
    and of flushes by the worker. The stores, the pipelines and the flushes are
    those of `PersistRace`; the batches are its writers. -/

open Transition

namespace Notebortt.Cleanup

/-- `DEFAULT_IDLE_TTL_MS`: three minutes. -/
def DEFAULT_IDLE_TTL_MS : Nat := 180000

/-! ### State -/

/-- Who runs a `persistBoard`. -/
inductive Source (Batch Worker : Type) where
  | cleanup
  | batch (b : Batch)
  | worker (w : Worker)
  deriving DecidableEq

/-- Where a `processBatch` call is, with the log positions of the changes it has
    written. -/
inductive BatchRun where
  | idle
  | running (mode : BoardSyncWriteMode) (written : List Nat)
  /-- In the write-through of a solo batch. -/
  | persisting (written : List Nat)
  | persisted (written : List Nat)

/-- Where the cleanup run is. -/
inductive CleanupRun where
  | idle
  /-- The board was inactive. -/
  | candidate
  /-- Nobody was present. -/
  | probed
  | persisting
  | persisted
  /-- It holds the eviction lock. -/
  | locked
  | scanning (found : KeyName → Bool)
  | deleted
  | done

/-- Ghost: what there was when the keys were last deleted. -/
structure Evicted where
  db : Postgres
  loaded : Dict BoardElement
  log : List PersistedElementChange
  acked : List Nat

structure State (Batch Worker : Type) where
  race : PersistRace.State Batch (Source Batch Worker)
  batch : Batch → BatchRun
  cleanup : CleanupRun
  /-- `waitForBoardLoad` has returned. -/
  waited : Source Batch Worker → Bool
  evictionLock : Bool
  clients : Nat
  viewers : Nat
  /-- `collab_mode_until` lies ahead. -/
  collabMode : Bool
  /-- Ghost: the elements at the start, the changes written since, and the
      positions of the acknowledged ones. -/
  loaded : Dict BoardElement
  log : List PersistedElementChange
  acked : List Nat
  evicted : Option Evicted

/-! ### Steps -/

inductive Label (Batch Worker : Type) where
  /-- The three EXISTS of `waitForBoardLoad`, when they let the caller go on. -/
  | waitForBoardLoad (source : Source Batch Worker)
  /-- A command of a batch's `applyChangeSet`, or of a flush. -/
  | race (l : PersistRace.Label Batch (Source Batch Worker))
  /-- `loadBoard`, as REST callers do first. -/
  | load
  /-- A batch starts: it asks for the write mode. -/
  | startBatch (b : Batch)
  /-- A batch returns its results. -/
  | ack (b : Batch)
  /-- A participant joins, or shows a sign of life. -/
  | arrive (now : Nat)
  /-- A participant leaves, or its lease and session expire. -/
  | depart
  | collabModeEnds
  /-- GET of `last_active`, or without one OBJECT IDLETIME of `seq`. -/
  | probeInactive (now : Nat) (seqIdle : Bool)
  | probePresence
  | lockEviction
  | checkIdle
  | scanPage (page : KeyName → Bool)
  | del
  /-- The index removals, and the release of the eviction lock. -/
  | finish
  | evictionLockExpires

section system
variable {Batch Worker : Type} [DecidableEq Batch] [DecidableEq Worker]

/-- `getSyncWriteMode`. -/
def getSyncWriteMode (s : State Batch Worker) : BoardSyncWriteMode :=
  if s.collabMode || 2 ≤ s.clients || 2 ≤ s.viewers then .collab else .solo

/-- The test of `findInactiveBoardCandidates`. -/
def isInactive (k : BoardKeys) (now : Nat) (seqIdle : Bool) : Bool :=
  match k.lastActive with
  | some lastActive => DEFAULT_IDLE_TTL_MS ≤ now - lastActive
  | none => k.seq.isSome && seqIdle

def State.setBatch (s : State Batch Worker) (b : Batch) (r : BatchRun) : State Batch Worker :=
  { s with batch := Function.update s.batch b r }

/-- The `persistBoard` of the source returns. -/
def State.persisted (s : State Batch Worker) : Source Batch Worker → Option (State Batch Worker)
  | .cleanup =>
    match s.cleanup with
    | .persisting => some { s with cleanup := .persisted }
    | _ => none
  | .batch b =>
    match s.batch b with
    | .persisting written => some (s.setBatch b (.persisted written))
    | _ => none
  | .worker _ => some s

/-- DEL of the keys that a SCAN found, the presence keys among them. -/
def State.delete (s : State Batch Worker) (found : KeyName → Bool) : State Batch Worker :=
  { s with
    evictionLock := s.evictionLock && !found .evictionLock
    clients := if found .clients then 0 else s.clients
    viewers := if found .viewerSessions then 0 else s.viewers
    collabMode := s.collabMode && !found .collabModeUntil
    evicted := some ⟨s.race.db, s.loaded, s.log, s.acked⟩ }

/-- The `persistBoard` of the source throws: its caller rejects. -/
def State.fail (s : State Batch Worker) : Source Batch Worker → State Batch Worker
  | .cleanup => { s with cleanup := .done }
  | .batch b => s.setBatch b .idle
  | .worker _ => s

/-- What a command means for the caller that sends it: whether it is the
    caller's turn, and where the caller is afterwards. -/
def control (boardId : String) (s : State Batch Worker) :
    PersistRace.Label Batch (Source Batch Worker) → Option (State Batch Worker)
  | .resolve b _ _ | .number b =>
    match s.batch b with
    | .running _ _ =>
      if s.waited (.batch b) then
        some { s with waited := Function.update s.waited (.batch b) false }
      else none
    | _ => none
  | .write b _ =>
    match s.batch b, s.race.write b with
    | .running mode written, .numbered _ change =>
      some { s.setBatch b (.running mode (written ++ [s.log.length])) with
        log := s.log ++ [change] }
    | _, _ => none
  | .readEpoch source =>
    if s.waited source then
      let s := { s with waited := Function.update s.waited source false }
      -- an unloaded board is not flushed: `persistBoard` returns
      let flushes := s.race.keys.seq.isSome
      match source with
      | .cleanup =>
        match s.cleanup with
        | .probed => some { s with cleanup := if flushes then .persisting else .persisted }
        | _ => none
      | .batch b =>
        match s.batch b, s.race.write b with
        | .running .solo (i :: written), .idle =>
          some <| s.setBatch b <|
            if flushes then .persisting (i :: written) else .persisted (i :: written)
        | _, _ => none
      | .worker _ => some s
    else none
  | .commit source fault =>
    match s.race.flush source with
    | .elementsRead _ _ snap =>
      match PersistRace.transaction boardId fault snap s.race.db with
      | .ok _ => some s
      -- the catch throws on, or evicts the board and returns
      | .error e => some (if flushesBoard e then s else s.fail source)
    | _ => none
  | .clear source _ _ => s.persisted source
  | .evict source found =>
    match found with
    | none => if s.evictionLock then s.persisted source else none
    | some found =>
      if s.evictionLock then none else some ({ s with evictionLock := true }.delete found)
  | .unindex source => { s with evictionLock := false }.persisted source
  | .abort source => some (s.fail source)
  | _ => some s

/-- A batch that returns acknowledges what it has written. A board in collab mode
    stays in it a while longer. -/
def State.acknowledge (s : State Batch Worker) (b : Batch) (mode : BoardSyncWriteMode)
    (written : List Nat) : State Batch Worker :=
  { s.setBatch b .idle with
    acked := s.acked ++ written
    collabMode := mode = .collab || getSyncWriteMode s = .collab }

def step (boardId : String) (s : State Batch Worker) :
    Label Batch Worker → Option (State Batch Worker)
  | .waitForBoardLoad source =>
    if s.evictionLock then none
    else some { s with waited := Function.update s.waited source true }
  | .race l =>
    match control boardId s l, PersistRace.step boardId s.race l with
    | some s', some race => some { s' with race := race }
    | _, _ => none
  | .load =>
    some { s with race := { s.race with
      keys := (loadBoard boardId ⟨fun _ => s.race.keys, s.race.db⟩).redis boardId } }
  | .startBatch b =>
    match s.batch b with
    | .idle =>
      some { s.setBatch b (.running (getSyncWriteMode s) []) with
        collabMode := s.collabMode || getSyncWriteMode s = .collab }
    | _ => none
  -- in solo mode a batch that wrote is acknowledged after its write-through only
  | .ack b =>
    match s.batch b, s.race.write b with
    | .running .collab written, .idle => some (s.acknowledge b .collab written)
    | .running .solo [], .idle => some (s.acknowledge b .solo [])
    | .persisted written, _ => some (s.acknowledge b .solo written)
    | _, _ => none
  | .arrive now =>
    some { s with
      race := { s.race with
        keys := { s.race.keys with lastActive := some now, inActiveBoards := true } }
      clients := s.clients + 1
      viewers := s.viewers + 1
      collabMode := s.collabMode || 2 ≤ s.clients + 1 || 2 ≤ s.viewers + 1 }
  | .depart => some { s with clients := s.clients - 1, viewers := s.viewers - 1 }
  | .collabModeEnds => some { s with collabMode := false }
  | .probeInactive now seqIdle =>
    match s.cleanup with
    | .idle =>
      if isInactive s.race.keys now seqIdle then some { s with cleanup := .candidate } else none
    | _ => none
  | .probePresence =>
    match s.cleanup with
    | .candidate =>
      -- somebody came back since the board was found inactive
      if 0 < s.clients || 0 < s.viewers then some { s with cleanup := .done }
      else some { s with cleanup := .probed }
    | _ => none
  | .lockEviction =>
    match s.cleanup with
    | .persisted =>
      if s.evictionLock then some { s with cleanup := .done }
      else some { s with cleanup := .locked, evictionLock := true }
    | _ => none
  | .checkIdle =>
    match s.cleanup with
    | .locked =>
      -- asked once more, now under the eviction lock
      if s.clients = 0 ∧ s.viewers = 0 then some { s with cleanup := .scanning fun _ => false }
      else some { s with cleanup := .done, evictionLock := false }
    | _ => none
  | .scanPage page =>
    match s.cleanup with
    | .scanning found => some { s with cleanup := .scanning fun name => found name || page name }
    | _ => none
  | .del =>
    match s.cleanup with
    | .scanning found =>
      some { s.delete found with
        race := { s.race with keys := s.race.keys.del found }
        cleanup := .deleted }
    | _ => none
  | .finish =>
    match s.cleanup with
    | .deleted =>
      some { s with
        race := { s.race with keys := s.race.keys.unindex }
        cleanup := .done
        evictionLock := false }
    | _ => none
  | .evictionLockExpires => some { s with evictionLock := false }

/-- The board is loaded and clean, and nothing has begun. -/
structure Init (boardId : String) (s : State Batch Worker) : Prop where
  race : PersistRace.Init boardId s.race
  batch : ∀ b, s.batch b = .idle
  cleanup : s.cleanup = .idle
  loaded : s.loaded = s.race.keys.elements
  log : s.log = []
  acked : s.acked = []
  evicted : s.evicted = none

def system (Batch Worker : Type) [DecidableEq Batch] [DecidableEq Worker] (boardId : String) :
    System (State Batch Worker) (Label Batch Worker) where
  init := Init boardId
  step := step boardId

end system

/-! ### What must not be lost -/

/-- Every acknowledged change is in the rows: the row of an id it touched shows
    the board after that change, or after a later one. -/
def Evicted.Contained (boardId : String) (e : Evicted) : Prop :=
  ∀ i ∈ e.acked, ∀ change ∈ e.log[i]?, ∀ id ∈ change.ids,
    ∃ n, i < n ∧ RowMatches (e.db.ownRow boardId id) ((replay e.loaded (e.log.take n)).lookup id)

/-- When an eviction deleted the keys, no acknowledged change was lost. -/
def NothingDiscarded {Batch Worker : Type} (boardId : String) (s : State Batch Worker) : Prop :=
  ∀ e, s.evicted = some e → e.Contained boardId

/-- The step condition: the keys are deleted only while no id of an acknowledged
    change carries a marker, the flushes commit in order, and none of them fails
    with an error that is taken for an invalid id. -/
def EvictsClean {Batch Worker : Type} (boardId : String) (s : State Batch Worker) :
    Label Batch Worker → Prop
  | .race l => PersistRace.CommitsInOrder boardId s.race l
  | .del => ∀ i ∈ s.acked, ∀ change ∈ s.log[i]?, ∀ id ∈ change.ids, PersistRace.Clean s.race.keys id
  | _ => True

instance {Batch Worker : Type} (boardId : String) (s : State Batch Worker)
    (l : Label Batch Worker) : Decidable (EvictsClean boardId s l) := by
  unfold EvictsClean
  split <;> infer_instance

/-! ### What a step keeps -/

/-- The change a step writes into the hash. -/
def logged {Writer Flusher : Type} (r : PersistRace.State Writer Flusher) :
    PersistRace.Label Writer Flusher → List PersistedElementChange
  | .write w _ =>
    match r.write w with
    | .numbered _ change => [change]
    | _ => []
  | _ => []

/-- While no flush evicts the board, the hash changes by what is logged, and by nothing else. -/
theorem elements_step {Writer Flusher : Type} [DecidableEq Writer] [DecidableEq Flusher]
    {boardId : String} {r r' : PersistRace.State Writer Flusher}
    {l : PersistRace.Label Writer Flusher} (hstays : ∀ f, (r.flush f).evicts = false)
    (h : PersistRace.step boardId r l = some r') :
    r'.keys.elements = replay r.keys.elements (logged r l) := by
  cases l with
  | evict f found =>
    simp only [PersistRace.step] at h
    split at h
    · next hflush => simpa [hflush, PersistRace.FlushRun.evicts] using hstays f
    · cases h
  | write w serverTimestamp =>
    simp only [PersistRace.step] at h
    split at h
    · next trackChangeLog change hwrite =>
      obtain rfl := Option.some.inj h
      have hwritten := written_runPipeline trackChangeLog serverTimestamp change r.keys
      simpa [logged, hwrite, replay, PersistRace.State.setWrite] using hwritten.elements
    · cases h
  | clear f flushCompletedAt duration =>
    simp only [PersistRace.step] at h
    split at h
    · next sequence epoch hflush =>
      obtain rfl := Option.some.inj h
      rcases PersistRace.compareAndClear_cases epoch sequence flushCompletedAt duration r.keys with
        ⟨_, hkeys⟩ | ⟨_, hkeys⟩
      · simp [PersistRace.State.setFlush, hkeys, logged, replay]
      · simp [PersistRace.State.setFlush, hkeys, logged, replay, BoardKeys.clearMarkers]
    · cases h
  | _ =>
    simp only [PersistRace.step] at h
    grind [PersistRace.State.setFlush, PersistRace.State.setWrite, logged, replay, getSequence,
      BoardKeys.unindex]

/-- The keys are gone. -/
def CleanupRun.Gone (r : CleanupRun) : Prop := r = .deleted ∨ r = .done

section frame
variable {Batch Worker : Type} [DecidableEq Batch] [DecidableEq Worker] {boardId : String}

/-- What the callers of the stores leave alone. -/
structure Framed (more : List PersistedElementChange) (s s' : State Batch Worker) : Prop where
  loaded : s'.loaded = s.loaded
  log : s'.log = s.log ++ more
  evicted : s'.evicted = s.evicted
  deleted : s'.cleanup = .deleted → s.cleanup = .deleted
  gone : s.cleanup.Gone → s'.cleanup.Gone

omit [DecidableEq Worker] in
theorem State.fail_framed (s : State Batch Worker) (source : Source Batch Worker) :
    Framed [] s (s.fail source) := by
  cases source <;> constructor <;> simp [State.fail, State.setBatch, CleanupRun.Gone]

omit [DecidableEq Worker] in
theorem State.persisted_framed {s s' : State Batch Worker} {source : Source Batch Worker}
    (h : s.persisted source = some s') : Framed [] s s' := by
  simp only [State.persisted] at h
  constructor <;> grind [State.setBatch, CleanupRun.Gone]

theorem control_framed {s s' : State Batch Worker}
    {race : PersistRace.State Batch (Source Batch Worker)}
    {l : PersistRace.Label Batch (Source Batch Worker)}
    (hstays : ∀ source, (s.race.flush source).evicts = false) (h : control boardId s l = some s')
    (hrace : PersistRace.step boardId s.race l = some race) : Framed (logged s.race l) s s' := by
  cases l with
  | write b serverTimestamp =>
    simp only [control] at h
    split at h
    · next mode written _ change hbatch hwrite =>
      obtain rfl := Option.some.inj h
      constructor <;> simp [State.setBatch, logged, hwrite]
    · cases h
  | commit source fault =>
    simp only [control] at h
    split at h
    · split at h
      · obtain rfl := Option.some.inj h
        constructor <;> simp [logged]
      · obtain rfl := Option.some.inj h
        split
        · constructor <;> simp [logged]
        · exact s.fail_framed source
    · cases h
  | clear source flushCompletedAt duration => exact State.persisted_framed h
  | evict source found =>
    simp only [PersistRace.step] at hrace
    split at hrace
    · next hflush => simpa [hflush, PersistRace.FlushRun.evicts] using hstays source
    · cases hrace
  | unindex source =>
    simp only [PersistRace.step] at hrace
    split at hrace
    · next hflush => simpa [hflush, PersistRace.FlushRun.evicts] using hstays source
    · cases hrace
  | abort source =>
    obtain rfl := Option.some.inj h
    exact s.fail_framed source
  | _ =>
    simp only [control] at h
    constructor <;> grind [State.setBatch, logged, CleanupRun.Gone]

end frame

/-! ### The invariant -/

section run
variable {Batch Worker : Type} [DecidableEq Batch] [DecidableEq Worker] {boardId : String}

/-- As long as the keys are there, the flushes keep them in step with the rows,
    and the hash is what the log says. -/
structure Inv (boardId : String) (s : State Batch Worker) : Prop where
  live : s.evicted = none →
    PersistRace.Inv boardId s.race ∧ s.race.keys.elements = replay s.loaded s.log
  stays : ∀ source, (s.race.flush source).evicts = false
  kept : NothingDiscarded boardId s
  deleted : s.cleanup = .deleted → s.evicted ≠ none
  gone : s.evicted ≠ none → s.cleanup.Gone

omit [DecidableEq Batch] [DecidableEq Worker] in
/-- A step that does not delete the keys. -/
theorem Inv.framed {s s' : State Batch Worker} {more : List PersistedElementChange}
    (h : Inv boardId s) (hframe : Framed more s s')
    (hstays : ∀ source, (s'.race.flush source).evicts = false)
    (hlive : s.evicted = none → PersistRace.Inv boardId s'.race ∧
      s'.race.keys.elements = replay s.race.keys.elements more) : Inv boardId s' := by
  constructor
  · intro hnone
    rw [hframe.evicted] at hnone
    obtain ⟨hinv, helements⟩ := hlive hnone
    refine ⟨hinv, ?_⟩
    rw [helements, (h.live hnone).2, hframe.loaded, hframe.log, replay_append]
  · exact hstays
  · intro e he
    rw [hframe.evicted] at he
    exact h.kept e he
  · intro hdeleted
    rw [hframe.evicted]
    exact h.deleted (hframe.deleted hdeleted)
  · intro hevicted
    rw [hframe.evicted] at hevicted
    exact hframe.gone (h.gone hevicted)

omit [DecidableEq Batch] [DecidableEq Worker] in
/-- A step of the control flow alone. -/
theorem Inv.moved {s s' : State Batch Worker} (h : Inv boardId s) (hframe : Framed [] s s')
    (hrace : s'.race = s.race) : Inv boardId s' := by
  refine h.framed hframe ?_ ?_
  · rw [hrace]
    exact h.stays
  · intro hnone
    rw [hrace]
    exact ⟨(h.live hnone).1, rfl⟩

theorem loadBoard_loaded {k : BoardKeys} (h : k.seq.isSome) (db : Postgres) :
    (loadBoard boardId ⟨fun _ => k, db⟩).redis boardId = k := by
  simp [loadBoard, h]

/-- Presence is no part of what the flushes rely on. -/
theorem inv_touch {Writer Flusher : Type} {r : PersistRace.State Writer Flusher}
    (h : PersistRace.Inv boardId r) (now : Nat) :
    PersistRace.Inv boardId
      { r with keys := { r.keys with lastActive := some now, inActiveBoards := true } } := by
  have hs := h.synced
  constructor
  · exact ⟨hs.loaded, hs.ownIds, hs.noEmpty, hs.marked, hs.dirtyPresent, hs.deletedAbsent,
      hs.committed_le, hs.current, hs.clean⟩
  · intro f
    have hr := h.runs f
    exact ⟨hr.epoch_le, hr.committed_le, hr.noEmpty, hr.coversDirty, hr.coversDeleted, hr.deleted,
      hr.raw, hr.stays⟩

omit [DecidableEq Batch] [DecidableEq Worker] in
theorem inv_init {s : State Batch Worker} (h : Init boardId s) : Inv boardId s := by
  constructor
  · intro _
    refine ⟨PersistRace.inv_init h.race, ?_⟩
    rw [h.log, h.loaded]
    rfl
  · intro source
    rw [h.race.flush source]
    rfl
  · intro e he
    rw [h.evicted] at he
    cases he
  · intro hdeleted
    rw [h.cleanup] at hdeleted
    cases hdeleted
  · intro hevicted
    exact absurd h.evicted hevicted

omit [DecidableEq Batch] [DecidableEq Worker] in
/-- Deleted while the acknowledged changes are clean, the keys leave their
    elements in the rows. -/
theorem contained_of_clean {s : State Batch Worker} (hinv : PersistRace.Inv boardId s.race)
    (helements : s.race.keys.elements = replay s.loaded s.log)
    (hclean : EvictsClean boardId s .del) :
    Evicted.Contained boardId ⟨s.race.db, s.loaded, s.log, s.acked⟩ := by
  intro i hi change hchange id hid
  have hlt : i < s.log.length := (List.getElem?_eq_some_iff.mp hchange).1
  refine ⟨s.log.length, hlt, ?_⟩
  rw [List.take_length, ← helements]
  exact hinv.synced.clean id (hclean i hi change hchange id hid)

theorem inv_step {s s' : State Batch Worker} {l : Label Batch Worker} (h : Inv boardId s)
    (hcond : EvictsClean boardId s l) (hstep : step boardId s l = some s') : Inv boardId s' := by
  cases l with
  | race l =>
    simp only [step] at hstep
    split at hstep
    · next t race hcontrol hrace =>
      obtain rfl := Option.some.inj hstep
      -- the control flow first, then the stores
      have hcontrolled := control_framed h.stays hcontrol hrace
      have hframe : Framed (logged s.race l) s { t with race := race } :=
        ⟨hcontrolled.loaded, hcontrolled.log, hcontrolled.evicted, hcontrolled.deleted,
          hcontrolled.gone⟩
      refine h.framed hframe (PersistRace.stays_step h.stays hcond hrace) ?_
      intro hnone
      exact ⟨PersistRace.inv_step (h.live hnone).1 hcond hrace, elements_step h.stays hrace⟩
    · cases hstep
  | load =>
    obtain rfl := Option.some.inj hstep
    refine h.framed ⟨rfl, (List.append_nil _).symm, rfl, id, id⟩ h.stays ?_
    intro hnone
    obtain ⟨hinv, _⟩ := h.live hnone
    simp only [loadBoard_loaded hinv.synced.loaded]
    exact ⟨hinv, rfl⟩
  | arrive now =>
    obtain rfl := Option.some.inj hstep
    refine h.framed ⟨rfl, (List.append_nil _).symm, rfl, id, id⟩ h.stays ?_
    intro hnone
    exact ⟨inv_touch (h.live hnone).1 now, rfl⟩
  | del =>
    simp only [step] at hstep
    split at hstep
    · next found hscanning =>
      obtain rfl := Option.some.inj hstep
      -- a cleanup that is still scanning has deleted nothing
      have hnone : s.evicted = none := by
        by_contra hevicted
        rcases h.gone hevicted with hdeleted | hdone
        · rw [hscanning] at hdeleted
          cases hdeleted
        · rw [hscanning] at hdone
          cases hdone
      obtain ⟨hinv, helements⟩ := h.live hnone
      constructor
      · intro hcontra
        cases hcontra
      · exact h.stays
      · intro e he
        rw [← Option.some.inj he]
        exact contained_of_clean hinv helements hcond
      · intro _
        simp [State.delete]
      · intro _
        exact .inl rfl
    · cases hstep
  | finish =>
    simp only [step] at hstep
    split at hstep
    · next hdeleted =>
      obtain rfl := Option.some.inj hstep
      refine h.framed ⟨rfl, (List.append_nil _).symm, rfl, by simp, ?_⟩ h.stays ?_
      · intro _
        exact .inr rfl
      · intro hnone
        exact absurd hnone (h.deleted hdeleted)
    · cases hstep
  | _ =>
    simp only [step] at hstep
    refine h.moved ?_ ?_
    · constructor <;> grind [State.setBatch, State.acknowledge, CleanupRun.Gone]
    · grind [State.setBatch, State.acknowledge]

/-- In every run that evicts only what is clean, an eviction finds every
    acknowledged change in the rows. -/
theorem nothingDiscarded_of_evictsClean {s : State Batch Worker}
    (hs : (system Batch Worker boardId).ReachableUnder (EvictsClean boardId) s) :
    NothingDiscarded boardId s := by
  have hinv : Inv boardId s := by
    refine hs.invariant ?_ ?_
    · intro s h
      exact inv_init h
    · intro s l s' h hcond hstep
      exact inv_step h hcond hstep
  exact hinv.kept

end run

/-! ### Two runs -/

/-- An empty board, with one batch at a time. -/
def start : State Unit Unit where
  race := PersistRace.start
  batch := fun _ => .idle
  cleanup := .idle
  waited := fun _ => false
  evictionLock := false
  clients := 0
  viewers := 0
  collabMode := false
  loaded := ∅
  log := []
  acked := []
  evicted := none

theorem start_init : Init "aaaaaaaa-aaaa-4aaa-8aaa-aaaaaaaaaaaa" start where
  race := PersistRace.start_init
  batch := fun _ => rfl
  cleanup := rfl
  loaded := rfl
  log := rfl
  acked := rfl
  evicted := rfl

/-- A batch that creates the note `x`, up to its write-through or its return. -/
def createX : List (Label Unit Unit) :=
  [.startBatch (), .waitForBoardLoad (.batch ()),
    .race (.resolve () false ⟨[⟨"x", AList.singleton "kind" (.str "NOTE")⟩], []⟩),
    .waitForBoardLoad (.batch ()), .race (.number ()), .race (.write () 0)]

/-- A `persistBoard` that nothing comes between. -/
def flushBy (source : Source Unit Unit) : List (Label Unit Unit) :=
  [.waitForBoardLoad source, .race (.readEpoch source), .race (.readDirty source),
    .race (.readDeleted source), .race (.readElements source), .race (.commit source none),
    .race (.clear source 0 0)]

/-- `flushBoard` with `requireIdle`, up to the DEL. -/
def evict : List (Label Unit Unit) := [.lockEviction, .checkIdle, .scanPage fun _ => true, .del]

/-- A note is created by a lone caller, who is told so, and the board is cleaned
    up when it has been idle. -/
theorem nothingDiscarded_of_evictsClean_run :
    ∃ s : State Unit Unit, (∃ e, s.evicted = some e ∧ e.acked = [0]) ∧
      NothingDiscarded "aaaaaaaa-aaaa-4aaa-8aaa-aaaaaaaaaaaa" s := by
  obtain ⟨s, hs⟩ : ∃ s, (system Unit Unit "aaaaaaaa-aaaa-4aaa-8aaa-aaaaaaaaaaaa").execUnder
      (EvictsClean "aaaaaaaa-aaaa-4aaa-8aaa-aaaaaaaaaaaa") start (createX ++ flushBy (.batch ()) ++
        [.ack (), .probeInactive DEFAULT_IDLE_TTL_MS false, .probePresence] ++
        flushBy .cleanup ++ evict) = some s := ⟨_, rfl⟩
  refine ⟨s, ?_, nothingDiscarded_of_evictsClean (.execUnder (.init start_init) hs)⟩
  cases hs
  exact ⟨_, rfl, rfl⟩

/-- The change `createX` writes. -/
def xCreated : PersistedElementChange :=
  { sequence := 1, upserts := [⟨"x", AList.singleton "kind" (.str "NOTE")⟩], deletes := [] }

/-- The board has been probed inactive when two participants come and go; they
    leave it in collab mode. After the flush of the cleanup a caller without a
    session creates a note, which is acknowledged unflushed; the idle check sees
    nobody, and the keys go. -/
theorem cleanup_discards_acknowledged :
    ∃ s : State Unit Unit,
      (system Unit Unit "aaaaaaaa-aaaa-4aaa-8aaa-aaaaaaaaaaaa").Reachable s ∧
        ¬ NothingDiscarded "aaaaaaaa-aaaa-4aaa-8aaa-aaaaaaaaaaaa" s := by
  obtain ⟨s, e, hs, he, rfl⟩ : ∃ s e, (system Unit Unit "aaaaaaaa-aaaa-4aaa-8aaa-aaaaaaaaaaaa").exec
      start ([.probeInactive 0 true, .arrive 0, .arrive 0, .depart, .depart, .probePresence] ++
        flushBy .cleanup ++ createX ++ [.ack ()] ++ evict) = some s ∧ s.evicted = some e ∧
      e = ⟨PersistRace.startDb, ∅, [xCreated], [0]⟩ := ⟨_, _, rfl, rfl, rfl⟩
  refine ⟨s, .exec (.init start_init) hs, ?_⟩
  intro hkept
  obtain ⟨n, hn, hrow⟩ := hkept _ he 0 (by simp) xCreated rfl "x" (by decide)
  -- the log is one change long, so every later board is the one with the note
  have hlog : [xCreated].take n = [xCreated] := List.take_of_length_le hn
  simp only [hlog] at hrow
  exact hrow

end Notebortt.Cleanup
