import Notebortt.BoardState.ChangeLog
import Notebortt.BoardState.CompleteBoard
import Notebortt.Lib.Transition

/-! # The operations of a board, command by command

    Any number of processes run `loadBoard`, `applyChangeSet`, `persistBoard` and
    `flushBoard` on one board. A step is one Redis command or one Postgres
    transaction; between two of them anybody else may go on. A process is in
    one operation at a time, and the state of its run says which command it
    sends next. -/

open Transition

namespace Notebortt.BoardCommands

/-! ### Runs -/

/-- A `waitForBoardLoad`, by the EXISTS it sends next. -/
inductive WaitRun where
  | loadLock
  | seq (loadLockExists : Bool)
  | evictionLock (loadLockExists seqExists : Bool)

inductive LoadRun where
  | checkEviction
  | checkLoaded
  | acquire
  /-- Somebody else holds the lock. -/
  | waiting (w : WaitRun)
  | recheck
  | select
  | checkAgain (rows : List (String × BoardElement))
  /-- The pipeline: an HSET for each row left, then the SET of the sequence. -/
  | writing (rest : List (String × BoardElement))
  | release

inductive ApplyRun where
  | waiting (w : WaitRun)
  | waitingElements (w : WaitRun)
  | readElements
  | waitingSequence (w : WaitRun) (changes : ElementChangeSet)
  | incr (changes : ElementChangeSet)
  /-- The pipeline, split at the next command. -/
  | writing (change : PersistedElementChange) (sent rest : List WriteCommand)

inductive UnindexCommand where
  | sremDirtyBoards
  | zremDirtyBoardsByAge
  | sremActiveBoards

def unindexPipeline : List UnindexCommand :=
  [.sremDirtyBoards, .zremDirtyBoardsByAge, .sremActiveBoards]

def UnindexCommand.exec (k : BoardKeys) : UnindexCommand → BoardKeys
  | .sremDirtyBoards => { k with inDirtyBoards := false }
  | .zremDirtyBoardsByAge => { k with dirtyByAge := none }
  | .sremActiveBoards => { k with inActiveBoards := false }

/-- What a flush has read, in either mode. -/
inductive Snapshot where
  | incremental (snap : DirtySnapshot)
  | full (elements : Dict BoardElement)

inductive PersistRun where
  | waiting (w : WaitRun)
  | checkBoard
  | checkLoaded
  /-- The board is not loaded: it leaves the indexes. -/
  | unindexing (rest : List UnindexCommand)
  | readSince
  | waitingSequence (w : WaitRun)
  | readSequence
  | readEpoch (sequence : Nat)
  | readDirty (sequence epoch : Nat)
  | readDeleted (sequence epoch : Nat) (dirtyIds : List String)
  | readElements (sequence epoch : Nat) (dirtyIds deletedIds : List String)
  | waitingElements (w : WaitRun) (sequence epoch : Nat)
  | readAll (sequence epoch : Nat)
  | commit (sequence epoch : Nat) (snap : Snapshot)
  | clear (sequence epoch : Nat)

inductive FlushRun where
  | acquire (requireIdle : Bool)
  | checkIdle
  | scanning (found : KeyName → Bool)
  | unindexing (rest : List UnindexCommand)
  | release

inductive Run where
  | idle
  | load (r : LoadRun)
  | apply (call : ApplyCall) (r : ApplyRun)
  | persist (r : PersistRun)
  | flush (r : FlushRun)

/-! ### State -/

structure State (P : Type) where
  keys : BoardKeys
  db : Postgres
  loadLock : Option P
  evictionLock : Option P
  run : P → Run
  /-- Ghost: the highest dirty epoch of a snapshot committed since the keys were
      last deleted. -/
  committedEpoch : Nat
  /-- Ghost: the value of the last HSET of an `applyChangeSet`, by id. -/
  lastUpsert : String → Option BoardElement
  /-- Ghost: the sequence numbers given out, in order. -/
  numbers : List Nat

inductive Label (P : Type) where
  | loadBoard (p : P)
  | applyChangeSet (p : P) (call : ApplyCall)
  | persistBoard (p : P)
  | flushBoard (p : P) (requireIdle : Bool)
  /-- The next command of a process, at a reading of the clock. -/
  | command (p : P) (now : Nat)
  /-- What the presence keys tell `isBoardIdleForFlush`. -/
  | idleCheck (p : P) (idle : Bool)
  | scanPage (p : P) (page : KeyName → Bool)
  | del (p : P)
  | loadLockExpires
  | evictionLockExpires

section system
variable {P : Type} [DecidableEq P]

def State.setRun (s : State P) (p : P) (r : Run) : State P :=
  { s with run := Function.update s.run p r }

@[simp] theorem State.setRun_self (s : State P) (p : P) (r : Run) : (s.setRun p r).run p = r := by
  simp [setRun]

theorem State.setRun_ne (s : State P) {p q : P} (r : Run) (h : q ≠ p) :
    (s.setRun p r).run q = s.run q := by
  simp [setRun, h]

/-! ### Commands -/

/-- The next EXISTS of a wait; `none` when the wait is over. -/
def waitCommand (s : State P) : WaitRun → Option WaitRun
  | .loadLock => some (.seq s.loadLock.isSome)
  | .seq loadLockExists => some (.evictionLock loadLockExists s.keys.seq.isSome)
  | .evictionLock loadLockExists seqExists =>
    if s.evictionLock.isNone && (seqExists || !loadLockExists) then none else some .loadLock

def loadCommand (boardId : String) (s : State P) (p : P) : LoadRun → State P
  | .checkEviction =>
    s.setRun p (.load (if s.evictionLock.isSome then .checkEviction else .checkLoaded))
  | .checkLoaded => s.setRun p (if s.keys.seq.isSome then .idle else .load .acquire)
  | .acquire =>
    if s.loadLock.isSome then s.setRun p (.load (.waiting .loadLock))
    else { s with loadLock := some p }.setRun p (.load .recheck)
  | .waiting w =>
    match waitCommand s w with
    | some w => s.setRun p (.load (.waiting w))
    | none => s.setRun p (.load .checkEviction)
  | .recheck => s.setRun p (.load (if s.keys.seq.isSome then .release else .select))
  | .select => s.setRun p (.load (.checkAgain (loadedElements boardId s.db)))
  -- loaded while the rows were read
  | .checkAgain rows => s.setRun p (.load (if s.keys.seq.isSome then .release else .writing rows))
  | .writing (row :: rest) =>
    { s with keys := { s.keys with elements := s.keys.elements.insert row.1 row.2 } }.setRun p
      (.load (.writing rest))
  | .writing [] => { s with keys := { s.keys with seq := some 0 } }.setRun p (.load .release)
  | .release =>
    { s with loadLock := if s.loadLock = some p then none else s.loadLock }.setRun p .idle

/-- The change set is resolved; an empty one ends the call. -/
def resolved (s : State P) (p : P) (call : ApplyCall) (cascadeSource : List BoardElement) :
    State P :=
  let changes := resolveChangeSet cascadeSource call.changeSet
  if changes.upserts.isEmpty && changes.deletes.isEmpty then s.setRun p .idle
  else s.setRun p (.apply call (.waitingSequence .loadLock changes))

/-- The ghost follows the HSETs. -/
def noteUpsert (lastUpsert : String → Option BoardElement) :
    WriteCommand → String → Option BoardElement
  | .hset elementId element => Function.update lastUpsert elementId (some element)
  | _ => lastUpsert

def applyCommand (s : State P) (p : P) (call : ApplyCall) (now : Nat) : ApplyRun → State P
  | .waiting w =>
    match waitCommand s w with
    | some w => s.setRun p (.apply call (.waiting w))
    | none =>
      -- only a deletion reads the elements, for its cascade
      if call.changeSet.deletes.isEmpty then resolved s p call []
      else
        match call.baseElementsForCascadeDelete with
        | some base => resolved s p call base
        | none => s.setRun p (.apply call (.waitingElements .loadLock))
  | .waitingElements w =>
    match waitCommand s w with
    | some w => s.setRun p (.apply call (.waitingElements w))
    | none => s.setRun p (.apply call .readElements)
  | .readElements => resolved s p call s.keys.elementList
  | .waitingSequence w changes =>
    match waitCommand s w with
    | some w => s.setRun p (.apply call (.waitingSequence w changes))
    | none => s.setRun p (.apply call (.incr changes))
  | .incr changes =>
    let numbered := getSequence s.keys
    let change : PersistedElementChange :=
      { sequence := numbered.1, upserts := changes.upserts, deletes := changes.deletes }
    { s with keys := numbered.2, numbers := s.numbers ++ [numbered.1] }.setRun p
      (.apply call (.writing change [] (writePipeline call.trackChangeLog now change)))
  -- a pipeline is no transaction: others run between its commands
  | .writing change sent (c :: rest) =>
    { s with
      keys := c.exec s.keys
      lastUpsert := noteUpsert s.lastUpsert c }.setRun p
        (if rest.isEmpty then .idle else .apply call (.writing change (sent ++ [c]) rest))
  | .writing _ _ [] => s.setRun p .idle

def Snapshot.transaction (boardId : String) (db : Postgres) : Snapshot → Except QueryError Postgres
  | .incremental snap => persistBoardIncremental boardId snap db
  | .full elements =>
    persistBoardFullSnapshot boardId ((parsedObject elements).entries.map (·.2)) db

def persistCommand (cfg : Config) (boardId : String) (s : State P) (p : P) (now : Nat) :
    PersistRun → State P
  | .waiting w =>
    match waitCommand s w with
    | some w => s.setRun p (.persist (.waiting w))
    | none => s.setRun p (.persist .checkBoard)
  | .checkBoard =>
    s.setRun p
      (if IsExistingBoard s.db boardId then .persist .checkLoaded else .flush (.acquire false))
  -- a board that is not loaded only leaves the indexes
  | .checkLoaded =>
    s.setRun p (.persist (if s.keys.seq.isSome then .readSince else .unindexing unindexPipeline))
  | .unindexing (c :: rest) =>
    { s with keys := c.exec s.keys }.setRun p (.persist (.unindexing rest))
  | .unindexing [] => s.setRun p .idle
  -- `dirty_since` goes into the log line only
  | .readSince => s.setRun p (.persist (.waitingSequence .loadLock))
  | .waitingSequence w =>
    match waitCommand s w with
    | some w => s.setRun p (.persist (.waitingSequence w))
    | none => s.setRun p (.persist .readSequence)
  | .readSequence => s.setRun p (.persist (.readEpoch (peekSequence s.keys)))
  | .readEpoch sequence =>
    s.setRun p (.persist (
      if cfg.enableIncrementalPersistence then .readDirty sequence (getDirtyEpoch s.keys)
      else .waitingElements .loadLock sequence (getDirtyEpoch s.keys)))
  | .readDirty sequence epoch =>
    s.setRun p (.persist (.readDeleted sequence epoch s.keys.dirtyElementIds.keys))
  | .readDeleted sequence epoch dirtyIds =>
    s.setRun p (.persist (.readElements sequence epoch dirtyIds s.keys.deletedElementIds.keys))
  | .readElements sequence epoch dirtyIds deletedIds =>
    s.setRun p (.persist (.commit sequence epoch (.incremental
      { dirtyIds := dirtyIds, deletedIds := deletedIds
        rawDirtyElements := s.keys.elements.lookup })))
  | .waitingElements w sequence epoch =>
    match waitCommand s w with
    | some w => s.setRun p (.persist (.waitingElements w sequence epoch))
    | none => s.setRun p (.persist (.readAll sequence epoch))
  | .readAll sequence epoch =>
    s.setRun p (.persist (.commit sequence epoch (.full s.keys.elements)))
  | .commit sequence epoch snap =>
    match snap.transaction boardId s.db with
    | .ok db =>
      { s with db := db, committedEpoch := max s.committedEpoch epoch }.setRun p
        (.persist (.clear sequence epoch))
    -- the board was deleted since the check, or the error is taken for an invalid id
    | .error e => s.setRun p (if flushesBoard e then .flush (.acquire false) else .idle)
  | .clear sequence epoch =>
    { s with
      keys := (compareAndClear cfg.enableIncrementalPersistence epoch sequence now 0 s.keys).2
      }.setRun p .idle

/-- The commands of `flushBoard` whose outcome the board's own keys decide. -/
def flushCommand (s : State P) (p : P) : FlushRun → Option (State P)
  | .acquire requireIdle =>
    -- somebody else evicts the board
    if s.evictionLock.isSome then some (s.setRun p .idle)
    else
      some ({ s with evictionLock := some p }.setRun p
        (.flush (if requireIdle then .checkIdle else .scanning fun _ => false)))
  | .unindexing (c :: rest) =>
    some ({ s with keys := c.exec s.keys }.setRun p (.flush (.unindexing rest)))
  | .unindexing [] => some (s.setRun p (.flush .release))
  | .release =>
    -- released by its own token only
    some ({ s with evictionLock := if s.evictionLock = some p then none else s.evictionLock }.setRun
      p .idle)
  | .checkIdle | .scanning _ => none

/-! ### Steps -/

def State.start (s : State P) (p : P) (r : Run) : Option (State P) :=
  match s.run p with
  | .idle => some (s.setRun p r)
  | _ => none

def step (cfg : Config) (boardId : String) (s : State P) : Label P → Option (State P)
  | .loadBoard p => s.start p (.load .checkEviction)
  | .applyChangeSet p call => s.start p (.apply call (.waiting .loadLock))
  | .persistBoard p => s.start p (.persist (.waiting .loadLock))
  | .flushBoard p requireIdle => s.start p (.flush (.acquire requireIdle))
  | .command p now =>
    match s.run p with
    | .idle => none
    | .load r => some (loadCommand boardId s p r)
    | .apply call r => some (applyCommand s p call now r)
    | .persist r => some (persistCommand cfg boardId s p now r)
    | .flush r => flushCommand s p r
  | .idleCheck p idle =>
    match s.run p with
    | .flush .checkIdle =>
      some (s.setRun p (.flush (if idle then .scanning fun _ => false else .release)))
    | _ => none
  | .scanPage p page =>
    match s.run p with
    | .flush (.scanning found) =>
      some (s.setRun p (.flush (.scanning fun name => found name || page name)))
    | _ => none
  | .del p =>
    match s.run p with
    | .flush (.scanning found) =>
      -- the two locks are keys of the board like the others
      let keys := s.keys.del found
      some ({ s with
        keys := keys
        loadLock := if found .loadLock then none else s.loadLock
        evictionLock := if found .evictionLock then none else s.evictionLock
        committedEpoch := min s.committedEpoch (getDirtyEpoch keys) }.setRun p
          (.flush (.unindexing unindexPipeline)))
    | _ => none
  | .loadLockExpires => some { s with loadLock := none }
  | .evictionLockExpires => some { s with evictionLock := none }

/-- The board has no key, and nobody is at work on it. -/
structure Init (s : State P) : Prop where
  keys : s.keys = {}
  loadLock : s.loadLock = none
  run : ∀ p, s.run p = .idle
  committedEpoch : s.committedEpoch = 0
  numbers : s.numbers = []

def system (P : Type) [DecidableEq P] (cfg : Config) (boardId : String) :
    System (State P) (Label P) where
  init := Init
  step := step cfg boardId

/-- The board without a key, over a database. -/
def start (db : Postgres) : State P where
  keys := {}
  db := db
  loadLock := none
  evictionLock := none
  run := fun _ => .idle
  committedEpoch := 0
  lastUpsert := fun _ => none
  numbers := []

omit [DecidableEq P] in
theorem start_init (db : Postgres) : Init (start db : State P) where
  keys := rfl
  loadLock := rfl
  run := fun _ => rfl
  committedEpoch := rfl
  numbers := rfl

/-- The labels of a load of a board without rows. -/
def loadEmpty (p : P) : List (Label P) := .loadBoard p :: List.replicate 8 (.command p 0)

/-- The labels of a call that stores a note and logs it, up to the end of its pipeline. -/
def applyNote (p : P) (id : String) : List (Label P) :=
  .applyChangeSet p (storeNote id true) :: List.replicate 18 (.command p 0)

/-- The labels of an eviction that finds every key. -/
def evict (p : P) : List (Label P) :=
  [.flushBoard p false, .command p 0, .scanPage p fun _ => true, .del p]
    ++ List.replicate 5 (.command p 0)

/-- The labels of a flush. -/
def persist (p : P) : List (Label P) := .persistBoard p :: List.replicate 16 (.command p 0)

/-! ### What a step does to the keys -/

/-- The commands that a run's pipeline has left. -/
def Run.pipeline : Run → List WriteCommand
  | .apply _ (.writing _ _ rest) => rest
  | _ => []

/-- The effect of a step on the keys, the numbers and the pipelines in flight. -/
inductive Effect (cfg : Config) (s s' : State P) : Label P → Prop where
  /-- Reads, locks and transactions: no run has a pipeline it did not have. -/
  | move {l : Label P} (keys : s'.keys = s.keys) (numbers : s'.numbers = s.numbers)
      (runs : ∀ q, s'.run q = s.run q ∨ (s'.run q).pipeline = []) : Effect cfg s s' l
  | loadRow {p : P} {now : Nat} {row : String × BoardElement} {rest : List (String × BoardElement)}
      (run : s.run p = .load (.writing (row :: rest)))
      (keys : s'.keys = { s.keys with elements := s.keys.elements.insert row.1 row.2 })
      (numbers : s'.numbers = s.numbers)
      (runs : ∀ q, s'.run q = s.run q ∨ (s'.run q).pipeline = []) : Effect cfg s s' (.command p now)
  | loadSeq {p : P} {now : Nat} (run : s.run p = .load (.writing []))
      (keys : s'.keys = { s.keys with seq := some 0 }) (numbers : s'.numbers = s.numbers)
      (runs : ∀ q, s'.run q = s.run q ∨ (s'.run q).pipeline = []) : Effect cfg s s' (.command p now)
  | number {p : P} {now : Nat} {call : ApplyCall} {changes : ElementChangeSet}
      (run : s.run p = .apply call (.incr changes)) (keys : s'.keys = (getSequence s.keys).2)
      (numbers : s'.numbers = s.numbers ++ [(getSequence s.keys).1])
      (pipeline : (s'.run p).pipeline = writePipeline call.trackChangeLog now
        { sequence := (getSequence s.keys).1, upserts := changes.upserts,
          deletes := changes.deletes })
      (runs : ∀ q, q ≠ p → s'.run q = s.run q) : Effect cfg s s' (.command p now)
  | write {p : P} {now : Nat} {c : WriteCommand} {rest : List WriteCommand}
      (run : (s.run p).pipeline = c :: rest) (keys : s'.keys = c.exec s.keys)
      (numbers : s'.numbers = s.numbers) (pipeline : (s'.run p).pipeline = rest)
      (runs : ∀ q, q ≠ p → s'.run q = s.run q) : Effect cfg s s' (.command p now)
  | unindex {p : P} {now : Nat} {c : UnindexCommand} {rest : List UnindexCommand}
      (run : s.run p = .persist (.unindexing (c :: rest)) ∨
        s.run p = .flush (.unindexing (c :: rest)))
      (keys : s'.keys = c.exec s.keys) (numbers : s'.numbers = s.numbers)
      (runs : ∀ q, s'.run q = s.run q ∨ (s'.run q).pipeline = []) : Effect cfg s s' (.command p now)
  | clear {p : P} {now sequence epoch : Nat} (run : s.run p = .persist (.clear sequence epoch))
      (keys : s'.keys =
        (compareAndClear cfg.enableIncrementalPersistence epoch sequence now 0 s.keys).2)
      (numbers : s'.numbers = s.numbers)
      (runs : ∀ q, s'.run q = s.run q ∨ (s'.run q).pipeline = []) : Effect cfg s s' (.command p now)
  | del {p : P} {found : KeyName → Bool} (run : s.run p = .flush (.scanning found))
      (keys : s'.keys = s.keys.del found) (numbers : s'.numbers = s.numbers)
      (runs : ∀ q, s'.run q = s.run q ∨ (s'.run q).pipeline = []) : Effect cfg s s' (.del p)

theorem runs_setRun (s : State P) (p : P) {r : Run} (h : r.pipeline = []) (q : P) :
    (s.setRun p r).run q = s.run q ∨ ((s.setRun p r).run q).pipeline = [] := by
  by_cases hq : q = p
  · right
    rw [hq, State.setRun_self, h]
  · exact .inl (s.setRun_ne r hq)

/-- A run that leaves the keys, and sends no pipeline next. -/
theorem Effect.setRun {cfg : Config} (s : State P) (p : P) {r : Run} (h : r.pipeline = [])
    (l : Label P) : Effect cfg s (s.setRun p r) l :=
  .move rfl rfl (runs_setRun s p h)

theorem effect_loadCommand {cfg : Config} {boardId : String} {s : State P} {p : P} {r : LoadRun}
    (hrun : s.run p = .load r) (now : Nat) :
    Effect cfg s (loadCommand boardId s p r) (.command p now) := by
  cases r with
  | checkEviction => exact .setRun s p rfl _
  | checkLoaded =>
    simp only [loadCommand]
    split <;> exact .setRun s p rfl _
  | acquire =>
    simp only [loadCommand]
    split
    · exact .setRun s p rfl _
    · exact .move rfl rfl (runs_setRun _ p rfl)
  | waiting w =>
    simp only [loadCommand]
    split <;> exact .setRun s p rfl _
  | recheck =>
    simp only [loadCommand]
    split <;> exact .setRun s p rfl _
  | select => exact .setRun s p rfl _
  | checkAgain rows =>
    simp only [loadCommand]
    split <;> exact .setRun s p rfl _
  | writing rest =>
    cases rest with
    | nil => exact .loadSeq hrun rfl rfl (runs_setRun _ p rfl)
    | cons row rest => exact .loadRow hrun rfl rfl (runs_setRun _ p rfl)
  | release => exact .move rfl rfl (runs_setRun _ p rfl)

theorem effect_resolved {cfg : Config} (s : State P) (p : P) (call : ApplyCall)
    (cascadeSource : List BoardElement) (l : Label P) :
    Effect cfg s (resolved s p call cascadeSource) l := by
  simp only [resolved]
  split <;> exact .setRun s p rfl _

theorem effect_applyCommand {cfg : Config} {s : State P} {p : P} {call : ApplyCall} {r : ApplyRun}
    (hrun : s.run p = .apply call r) (now : Nat) :
    Effect cfg s (applyCommand s p call now r) (.command p now) := by
  cases r with
  | waiting w =>
    simp only [applyCommand]
    split
    · exact .setRun s p rfl _
    · split
      · exact effect_resolved s p call _ _
      · split
        · exact effect_resolved s p call _ _
        · exact .setRun s p rfl _
  | waitingElements w =>
    simp only [applyCommand]
    split <;> exact .setRun s p rfl _
  | readElements => exact effect_resolved s p call _ _
  | waitingSequence w changes =>
    simp only [applyCommand]
    split <;> exact .setRun s p rfl _
  | incr changes =>
    refine .number hrun rfl rfl ?_ ?_
    · simp [applyCommand, State.setRun, Run.pipeline]
    · intro q hq
      simp [applyCommand, State.setRun, hq]
  -- the first command of the rest is sent
  | writing change sent rest =>
    cases rest with
    | nil => exact .setRun s p rfl _
    | cons c rest =>
      have hpipeline : (s.run p).pipeline = c :: rest := by
        rw [hrun]
        rfl
      refine .write hpipeline rfl rfl ?_ ?_
      · cases rest <;> simp [applyCommand, State.setRun, Run.pipeline]
      · intro q hq
        simp [applyCommand, State.setRun, hq]

theorem effect_persistCommand {cfg : Config} {boardId : String} {s : State P} {p : P}
    {r : PersistRun} (hrun : s.run p = .persist r) (now : Nat) :
    Effect cfg s (persistCommand cfg boardId s p now r) (.command p now) := by
  cases r with
  | waiting w =>
    simp only [persistCommand]
    split <;> exact .setRun s p rfl _
  | checkBoard =>
    simp only [persistCommand]
    split <;> exact .setRun s p rfl _
  | checkLoaded =>
    simp only [persistCommand]
    split <;> exact .setRun s p rfl _
  | unindexing rest =>
    cases rest with
    | nil => exact .setRun s p rfl _
    | cons c rest => exact .unindex (.inl hrun) rfl rfl (runs_setRun _ p rfl)
  | readSince => exact .setRun s p rfl _
  | waitingSequence w =>
    simp only [persistCommand]
    split <;> exact .setRun s p rfl _
  | readSequence => exact .setRun s p rfl _
  | readEpoch sequence =>
    simp only [persistCommand]
    split <;> exact .setRun s p rfl _
  | readDirty sequence epoch => exact .setRun s p rfl _
  | readDeleted sequence epoch dirtyIds => exact .setRun s p rfl _
  | readElements sequence epoch dirtyIds deletedIds => exact .setRun s p rfl _
  | waitingElements w sequence epoch =>
    simp only [persistCommand]
    split <;> exact .setRun s p rfl _
  | readAll sequence epoch => exact .setRun s p rfl _
  | commit sequence epoch snap =>
    simp only [persistCommand]
    split
    · exact .move rfl rfl (runs_setRun _ p rfl)
    · exact .setRun s p (by split <;> rfl) _
  | clear sequence epoch => exact .clear hrun rfl rfl (runs_setRun _ p rfl)

theorem effect_flushCommand {cfg : Config} {s s' : State P} {p : P} {r : FlushRun}
    (hrun : s.run p = .flush r) (now : Nat) (h : flushCommand s p r = some s') :
    Effect cfg s s' (.command p now) := by
  cases r with
  | acquire requireIdle =>
    simp only [flushCommand] at h
    split at h
    · obtain rfl := Option.some.inj h
      exact .setRun s p rfl _
    · obtain rfl := Option.some.inj h
      refine .move rfl rfl (runs_setRun _ p ?_)
      split <;> rfl
  | checkIdle => cases h
  | scanning found => cases h
  | unindexing rest =>
    cases rest with
    | nil =>
      obtain rfl := Option.some.inj h
      exact .setRun s p rfl _
    | cons c rest =>
      obtain rfl := Option.some.inj h
      exact .unindex (.inr hrun) rfl rfl (runs_setRun _ p rfl)
  | release =>
    obtain rfl := Option.some.inj h
    exact .move rfl rfl (runs_setRun _ p rfl)

theorem effect_start {cfg : Config} {s s' : State P} {p : P} {r : Run} (hr : r.pipeline = [])
    (h : s.start p r = some s') (l : Label P) : Effect cfg s s' l := by
  simp only [State.start] at h
  split at h
  · obtain rfl := Option.some.inj h
    exact .setRun s p hr _
  · cases h

theorem step_effect {cfg : Config} {boardId : String} {s s' : State P} {l : Label P}
    (h : step cfg boardId s l = some s') : Effect cfg s s' l := by
  cases l with
  | loadBoard p => exact effect_start rfl h _
  | applyChangeSet p call => exact effect_start rfl h _
  | persistBoard p => exact effect_start rfl h _
  | flushBoard p requireIdle => exact effect_start rfl h _
  | command p now =>
    simp only [step] at h
    split at h
    · cases h
    · next r hrun =>
      obtain rfl := Option.some.inj h
      exact effect_loadCommand hrun now
    · next call r hrun =>
      obtain rfl := Option.some.inj h
      exact effect_applyCommand hrun now
    · next r hrun =>
      obtain rfl := Option.some.inj h
      exact effect_persistCommand hrun now
    · next r hrun => exact effect_flushCommand hrun now h
  | idleCheck p idle =>
    simp only [step] at h
    split at h
    · obtain rfl := Option.some.inj h
      refine .setRun s p ?_ _
      split <;> rfl
    · cases h
  | scanPage p page =>
    simp only [step] at h
    split at h
    · obtain rfl := Option.some.inj h
      exact .setRun s p rfl _
    · cases h
  | del p =>
    simp only [step] at h
    split at h
    · next found hrun =>
      obtain rfl := Option.some.inj h
      exact .del hrun rfl rfl (runs_setRun _ p rfl)
    · cases h
  | loadLockExpires =>
    obtain rfl := Option.some.inj h
    exact .move rfl rfl fun _ => .inl rfl
  | evictionLockExpires =>
    obtain rfl := Option.some.inj h
    exact .move rfl rfl fun _ => .inl rfl

end system

end Notebortt.BoardCommands
