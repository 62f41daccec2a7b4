import Notebortt.Concurrency.SequenceNumbers
import Notebortt.Realtime.SocketBatches

/-! # Mutation-batch handlers side by side

    Every MUTATION_BATCH of a socket starts a handler of its own. It refreshes the
    activity of the socket when the throttle lets it, queues for the lock of its
    process, processes the batch, waits until BOARD_MUTATED is enqueued, and
    broadcasts. The batch runs by single commands, on top of the operations of
    `BoardCommands`, and between two of them anybody else loads, changes, flushes
    or evicts the board.

    The mutation lock is left out: batches of two processes may be on their way at
    once, as when the lock is lost. What a refresh writes is read by none of this. -/

open Transition
open Notebortt.SocketBatches (Batch BatchRun Question)

namespace Notebortt.BatchHandlers

variable (Handler Socket Process Other : Type)

/-! ### State -/

/-- Which socket a handler serves, which process a socket is connected to, and the
    window of its throttle, with its jitter. -/
structure Layout where
  socket : Handler → Socket
  process : Socket → Process
  effectiveWindow : Socket → Nat

/-- A MUTATION_BROADCAST, with the number of the change it carries. -/
structure Message where
  sender : Socket
  mutation : Mutation
  sequence : Option Nat

inductive Phase where
  | idle
  /-- In the Redis calls of `refreshSocketActivity`. -/
  | refreshing
  /-- Waiting for the lock. -/
  | queued
  /-- In `processBatch`, past the lock. -/
  | processing (b : Batch Socket)
  /-- `processBatch` has returned. -/
  | processed (messages : List (Message Socket))
  /-- In the enqueue of BOARD_MUTATED. -/
  | enqueueing (messages : List (Message Socket))
  | done

structure State where
  /-- The keys and rows of the board, and the operations that run on it. -/
  board : BoardCommands.State (Handler ⊕ Other)
  now : Nat
  lastActivityWriteAt : Socket → Nat
  batch : Handler → List Mutation
  phase : Handler → Phase Socket
  /-- `localLocks`: the handlers of a process, the one at the head past the local lock. -/
  queue : Process → List Handler
  /-- All that was broadcast, in order. -/
  messages : List (Message Socket)
  /-- Ghost: the handlers as their batches arrived. -/
  arrived : List Handler
  /-- Ghost: the sequence numbers given to the mutations of a batch. -/
  numbers : Handler → List Nat

inductive Label where
  | advance (ms : Nat)
  /-- Another event of the socket asks the throttle. -/
  | activity (x : Socket)
  | arrive (h : Handler) (mutations : List Mutation)
  /-- The refresh returns, and the socket is still on the board or not. -/
  | refreshed (h : Handler) (active : Bool)
  /-- The mutation lock is not acquired in time. -/
  | timeout (h : Handler)
  | process (h : Handler)
  /-- The batch sends its next command. -/
  | ask (h : Handler)
  /-- The presence keys tell the batch its mode. -/
  | mode (h : Handler) (mode : BoardSyncWriteMode)
  /-- The batch goes on without a command. -/
  | go (h : Handler)
  /-- A command of the batch fails, or its write-through. -/
  | fail (h : Handler)
  /-- A batch of a route, of a tick or of a CRDT room claims a mutation. -/
  | claim (mutationId : String)
  /-- A command of an operation, or anybody else starts one. -/
  | board (l : BoardCommands.Label (Handler ⊕ Other))
  /-- The socket is still on the board or not, and the enqueue starts. -/
  | enqueue (h : Handler) (active : Bool)
  /-- The enqueue returns, or is given up. -/
  | broadcast (h : Handler)

variable {Handler Socket Process Other}

/-- The handler is in the queue of its process. -/
def Phase.inQueue : Phase Socket → Bool
  | .queued => true
  | .processing _ => true
  | _ => false

/-! ### Steps -/

/-- The broadcasts of a batch that was processed. -/
def broadcastsOf (sender : Socket) (mutations : List Mutation) (results : List MutationResult) :
    List (Message Socket) :=
  (mutations.zip results).filterMap fun entry =>
    if entry.2.status = .alreadyApplied then none
    else some ⟨sender, entry.1, entry.2.change.map (·.sequence)⟩

def acceptsBatch (boardId : String) (mutations : List Mutation) : Bool :=
  !mutations.isEmpty && mutations.length ≤ SocketBatches.MAX_MUTATION_BATCH
    && hasConsistentBatchBoardId boardId mutations

/-- Whether an event refreshes the activity of its socket. -/
def shouldWriteActivity (net : Layout Handler Socket Process)
    (s : State Handler Socket Process Other) (x : Socket) : Bool :=
  net.effectiveWindow x ≤ s.now - s.lastActivityWriteAt x

section step
variable [DecidableEq Handler] [DecidableEq Process]

def State.setPhase (s : State Handler Socket Process Other) (h : Handler) (phase : Phase Socket) :
    State Handler Socket Process Other :=
  { s with phase := Function.update s.phase h phase }

/-- The handler queues for the lock of its process. -/
def State.enter (net : Layout Handler Socket Process) (s : State Handler Socket Process Other)
    (h : Handler) : State Handler Socket Process Other :=
  let p := net.process (net.socket h)
  { s.setPhase h .queued with queue := Function.update s.queue p (s.queue p ++ [h]) }

/-- The handler at the head leaves the queue of its process. -/
def State.leave (net : Layout Handler Socket Process) (s : State Handler Socket Process Other)
    (h : Handler) (phase : Phase Socket) : State Handler Socket Process Other :=
  let p := net.process (net.socket h)
  { s.setPhase h phase with queue := Function.update s.queue p (s.queue p).tail }

variable [DecidableEq Other]

/-- The batch of the handler starts an operation of the board, and is then at `b`. -/
def State.start (cfg : Config) (boardId : String) (s : State Handler Socket Process Other)
    (h : Handler) (b : Batch Socket) (l : BoardCommands.Label (Handler ⊕ Other)) :
    Option (State Handler Socket Process Other) :=
  (BoardCommands.step cfg boardId s.board l).map fun board =>
    { s.setPhase h (.processing b) with board := board }

/-- The batch runs no operation. -/
def State.free (s : State Handler Socket Process Other) (h : Handler) : Bool :=
  match s.board.run (.inl h) with
  | .idle => true
  | _ => false

def ask (cfg : Config) (s : State Handler Socket Process Other) (h : Handler) (b : Batch Socket) :
    Option (State Handler Socket Process Other) :=
  (b.question cfg).map fun q =>
    { s.setPhase h (.processing (b.hear cfg (SocketBatches.answer cfg s.board.keys q))) with
      board := { s.board with keys := q.exec s.board.keys } }

def go (cfg : Config) (boardId : String) (net : Layout Handler Socket Process)
    (s : State Handler Socket Process Other) (h : Handler) (b : Batch Socket) :
    Option (State Handler Socket Process Other) :=
  -- the lock is released once `processBatch` returns
  let returned := s.leave net h (.processed (broadcastsOf (net.socket h) b.mutations b.results))
  match b.run with
  | .mutating (m :: rest) =>
    if m.isTransient then
      some (s.setPhase h (.processing
        (b.addResult { mutationId := m.mutationId, status := .broadcastOnly } rest)))
    else none
  | .mutating [] =>
    if b.mode = .solo && b.changed then
      s.start cfg boardId h { b with run := .persisting } (.persistBoard (.inl h))
    else some returned
  | .changing m rest =>
    s.start cfg boardId h { b with run := .applying m none rest }
      (.applyChangeSet (.inl h) (b.call m))
  | .applying m change rest =>
    if s.free h then some (s.setPhase h (.processing (b.applied m change rest))) else none
  | .persisting => if s.free h then some returned else none
  | _ => none

/-- The numbers that a command has given out. -/
def numbersFrom {P : Type} (b b' : BoardCommands.State P) : List Nat :=
  b'.numbers.drop b.numbers.length

def boardStep (cfg : Config) (boardId : String) (s : State Handler Socket Process Other)
    (l : BoardCommands.Label (Handler ⊕ Other)) : Option (State Handler Socket Process Other) :=
  let stepped := BoardCommands.step cfg boardId s.board l
  match l with
  | .command (.inl h) _ =>
    match s.phase h with
    | .processing b =>
      stepped.map fun board =>
        { s.setPhase h (.processing (b.note (board.run (.inl h)))) with
          board := board
          numbers := Function.update s.numbers h (s.numbers h ++ numbersFrom s.board board) }
    | _ => none
  -- a handler's operations are started by its batch
  | .loadBoard (.inl _) | .applyChangeSet (.inl _) _ | .persistBoard (.inl _)
  | .flushBoard (.inl _) _ => none
  | _ => stepped.map fun board => { s with board := board }

variable [DecidableEq Socket]

def step (cfg : Config) (boardId : String) (net : Layout Handler Socket Process)
    (s : State Handler Socket Process Other) :
    Label Handler Socket Other → Option (State Handler Socket Process Other)
  | .advance ms => some { s with now := s.now + ms }
  | .activity x =>
    if shouldWriteActivity net s x then
      some { s with lastActivityWriteAt := Function.update s.lastActivityWriteAt x s.now }
    else some s
  | .arrive h mutations =>
    match s.phase h with
    | .idle =>
      if acceptsBatch boardId mutations then
        -- the throttle is written before the refresh is awaited
        let arrived : State Handler Socket Process Other :=
          { s with batch := Function.update s.batch h mutations, arrived := s.arrived ++ [h] }
        if shouldWriteActivity net s (net.socket h) then
          some { arrived.setPhase h .refreshing with
            lastActivityWriteAt := Function.update s.lastActivityWriteAt (net.socket h) s.now }
        else some (arrived.enter net h)
      else none
    | _ => none
  | .refreshed h active =>
    match s.phase h with
    | .refreshing => some (if active then s.enter net h else s.setPhase h .done)
    | _ => none
  | .timeout h =>
    match s.phase h with
    | .queued =>
      if (s.queue (net.process (net.socket h))).head? = some h then some (s.leave net h .done)
      else none
    | _ => none
  | .process h =>
    match s.phase h with
    | .queued =>
      if (s.queue (net.process (net.socket h))).head? = some h then
        some (s.setPhase h (.processing (.begin (some (net.socket h)) (s.batch h))))
      else none
    | _ => none
  | .ask h =>
    match s.phase h with
    | .processing b => ask cfg s h b
    | _ => none
  | .mode h mode =>
    match s.phase h with
    | .processing b =>
      match b.run with
      | .asksMode =>
        some (s.setPhase h (.processing { b with mode := mode, run := .mutating b.mutations }))
      | _ => none
    | _ => none
  | .go h =>
    match s.phase h with
    | .processing b => go cfg boardId net s h b
    | _ => none
  -- the socket gets a SYNC_ERROR, the room nothing
  | .fail h =>
    match s.phase h with
    | .processing _ => some (s.leave net h .done)
    | _ => none
  | .claim mutationId =>
    some { s with board := { s.board with keys := (tryMarkSeen mutationId s.board.keys).2 } }
  | .board l => boardStep cfg boardId s l
  | .enqueue h active =>
    match s.phase h with
    | .processed messages => some (s.setPhase h (if active then .enqueueing messages else .done))
    | _ => none
  | .broadcast h =>
    match s.phase h with
    | .enqueueing messages => some { s.setPhase h .done with messages := s.messages ++ messages }
    | _ => none

/-- No batch has arrived. -/
structure Init (s : State Handler Socket Process Other) : Prop where
  phase : ∀ h, s.phase h = .idle
  queue : ∀ p, s.queue p = []
  messages : s.messages = []
  arrived : s.arrived = []
  numbers : ∀ h, s.numbers h = []

def system (cfg : Config) (boardId : String) (net : Layout Handler Socket Process) :
    System (State Handler Socket Process Other) (Label Handler Socket Other) where
  init := Init
  step := step cfg boardId net

end step

/-! ### The numbers of a batch -/

section batch

/-- The sequence numbers that results carry. -/
def numbersOf (results : List MutationResult) : List Nat :=
  results.filterMap fun r => r.change.map (·.sequence)

/-- The change of the mutation whose `applyChangeSet` runs, once it is numbered. -/
def pendingOf : BatchRun → Option PersistedElementChange
  | .applying _ change _ => change
  | _ => none

/-- The batch waits for `applyChangeSet`. -/
def isApplying : BatchRun → Bool
  | .applying _ _ _ => true
  | _ => false

theorem pendingOf_of_not_applying {r : BatchRun} (h : isApplying r = false) :
    pendingOf r = none := by
  cases r with
  | applying m change rest => cases h
  | _ => rfl

/-- The numbers of all the changes that a batch has made. -/
def batchNumbers (b : Batch Socket) : List Nat :=
  numbersOf b.results ++ ((pendingOf b.run).map (·.sequence)).toList

theorem batchNumbers_begin (sender : Option Socket) (mutations : List Mutation) :
    batchNumbers (.begin sender mutations) = [] := by
  have hpending : pendingOf (Batch.begin sender mutations).run = none := by
    simp only [Batch.begin]
    split <;> rfl
  rw [batchNumbers, hpending]
  rfl

theorem batchNumbers_of_pending {b b' : Batch Socket}
    (hresults : numbersOf b'.results = numbersOf b.results)
    (hpending : pendingOf b.run = none) (hpending' : pendingOf b'.run = none) :
    batchNumbers b' = batchNumbers b := by
  rw [batchNumbers, batchNumbers, hresults, hpending, hpending']

/-- A result without a change. -/
theorem batchNumbers_addResult {b : Batch Socket} {result : MutationResult}
    (hpending : pendingOf b.run = none) (hchange : result.change = none) (rest : List Mutation) :
    batchNumbers (b.addResult result rest) = batchNumbers b := by
  refine batchNumbers_of_pending ?_ hpending rfl
  simp [Batch.addResult, numbersOf, List.filterMap_append, hchange]

/-- An answer numbers nothing, and starts no `applyChangeSet`. -/
theorem hear_numbers (cfg : Config) {b : Batch Socket} (a : SocketBatches.Answer)
    (hrun : isApplying b.run = false) :
    batchNumbers (b.hear cfg a) = batchNumbers b ∧ isApplying (b.hear cfg a).run = false := by
  have hpending : pendingOf b.run = none := pendingOf_of_not_applying hrun
  have hsame : ∀ {b' : Batch Socket}, b'.results = b.results → isApplying b'.run = false →
      batchNumbers b' = batchNumbers b ∧ isApplying b'.run = false := by
    intro b' hresults hrun'
    exact ⟨batchNumbers_of_pending (by rw [hresults]) hpending (pendingOf_of_not_applying hrun'),
      hrun'⟩
  unfold Batch.hear
  split
  · refine hsame rfl ?_
    dsimp only
    split
    · rfl
    · split <;> rfl
  · refine hsame rfl ?_
    dsimp only
    split <;> rfl
  · split
    · exact ⟨batchNumbers_addResult hpending rfl _, rfl⟩
    · split
      · exact hsame rfl rfl
      · split
        · exact hsame rfl rfl
        · exact hsame rfl rfl
  · exact ⟨batchNumbers_addResult hpending rfl _, rfl⟩
  · exact ⟨rfl, hrun⟩

theorem batchNumbers_applied {b : Batch Socket} {m : Mutation} {rest : List Mutation}
    {change : Option PersistedElementChange} (hrun : b.run = .applying m change rest) :
    batchNumbers (b.applied m change rest) = batchNumbers b := by
  cases change with
  | none => simp [Batch.applied, batchNumbers, pendingOf, hrun]
  | some change =>
    simp [Batch.applied, Batch.addResult, batchNumbers, numbersOf, List.filterMap_append, pendingOf,
      hrun]

/-- What is broadcast carries numbers of the results, in their order. -/
theorem broadcastsOf_sublist (x : Socket) (ms : List Mutation) (results : List MutationResult) :
    ((broadcastsOf x ms results).filterMap (·.sequence)).Sublist (numbersOf results) := by
  induction results generalizing ms with
  | nil => simp [broadcastsOf]
  | cons r results ih =>
    cases ms with
    | nil => simp [broadcastsOf]
    | cons m ms =>
      have hrest := ih ms
      simp only [broadcastsOf, numbersOf, List.zip_cons_cons, List.filterMap_cons] at hrest ⊢
      cases hchange : r.change with
      | none =>
        by_cases hstatus : r.status = .alreadyApplied <;> simpa [hstatus] using hrest
      | some change =>
        by_cases hstatus : r.status = .alreadyApplied
        · simpa [hstatus] using hrest.cons change.sequence
        · simpa [hstatus] using hrest.cons_cons change.sequence

end batch

/-! ### The changes that runs write -/

section runs
variable {P : Type} [DecidableEq P] {cfg : Config} {boardId : String}
  {b b' : BoardCommands.State P} {p q : P}

/-- The numbered change whose pipeline a run is sending. -/
def changeOf : BoardCommands.Run → Option PersistedElementChange
  | .apply _ (.writing change _ _) => some change
  | _ => none

/-- The run of one process moves on, with no pipeline of a change, and nothing is numbered. -/
structure Moves (b b' : BoardCommands.State P) (p : P) : Prop where
  run : ∃ r, b'.run = Function.update b.run p r ∧ changeOf r = none
  numbers : b'.numbers = b.numbers

theorem moves_setRun {r : BoardCommands.Run} (hruns : b'.run = b.run)
    (hnumbers : b'.numbers = b.numbers) (hr : changeOf r = none) : Moves b (b'.setRun p r) p :=
  ⟨⟨r, by rw [BoardCommands.State.setRun, hruns], hr⟩, hnumbers⟩

theorem moves_loadCommand (r : BoardCommands.LoadRun) :
    Moves b (BoardCommands.loadCommand boardId b p r) p := by
  cases r with
  | checkEviction => exact moves_setRun rfl rfl rfl
  | checkLoaded =>
    simp only [BoardCommands.loadCommand]
    split <;> exact moves_setRun rfl rfl rfl
  | acquire =>
    simp only [BoardCommands.loadCommand]
    split <;> exact moves_setRun rfl rfl rfl
  | waiting w =>
    simp only [BoardCommands.loadCommand]
    split <;> exact moves_setRun rfl rfl rfl
  | recheck => exact moves_setRun rfl rfl rfl
  | select => exact moves_setRun rfl rfl rfl
  | checkAgain rows => exact moves_setRun rfl rfl rfl
  | writing rest => cases rest <;> exact moves_setRun rfl rfl rfl
  | release => exact moves_setRun rfl rfl rfl

theorem moves_resolved (call : ApplyCall) (cascadeSource : List BoardElement) :
    Moves b (BoardCommands.resolved b p call cascadeSource) p := by
  simp only [BoardCommands.resolved]
  split <;> exact moves_setRun rfl rfl rfl

theorem moves_persistCommand {now : Nat} (r : BoardCommands.PersistRun) :
    Moves b (BoardCommands.persistCommand cfg boardId b p now r) p := by
  cases r with
  | waiting w =>
    simp only [BoardCommands.persistCommand]
    split <;> exact moves_setRun rfl rfl rfl
  | checkBoard =>
    simp only [BoardCommands.persistCommand]
    split <;> exact moves_setRun rfl rfl rfl
  | checkLoaded => exact moves_setRun rfl rfl rfl
  | unindexing rest => cases rest <;> exact moves_setRun rfl rfl rfl
  | readSince => exact moves_setRun rfl rfl rfl
  | waitingSequence w =>
    simp only [BoardCommands.persistCommand]
    split <;> exact moves_setRun rfl rfl rfl
  | readSequence => exact moves_setRun rfl rfl rfl
  | readEpoch sequence => exact moves_setRun rfl rfl rfl
  | readDirty sequence epoch => exact moves_setRun rfl rfl rfl
  | readDeleted sequence epoch dirtyIds => exact moves_setRun rfl rfl rfl
  | readElements sequence epoch dirtyIds deletedIds => exact moves_setRun rfl rfl rfl
  | waitingElements w sequence epoch =>
    simp only [BoardCommands.persistCommand]
    split <;> exact moves_setRun rfl rfl rfl
  | readAll sequence epoch => exact moves_setRun rfl rfl rfl
  | commit sequence epoch snap =>
    simp only [BoardCommands.persistCommand]
    split
    · exact moves_setRun rfl rfl rfl
    · exact moves_setRun rfl rfl (by split <;> rfl)
  | clear sequence epoch => exact moves_setRun rfl rfl rfl

theorem moves_flushCommand {r : BoardCommands.FlushRun}
    (h : BoardCommands.flushCommand b p r = some b') : Moves b b' p := by
  cases r with
  | acquire requireIdle =>
    simp only [BoardCommands.flushCommand] at h
    split at h
    · obtain rfl := Option.some.inj h
      exact moves_setRun rfl rfl rfl
    · obtain rfl := Option.some.inj h
      exact moves_setRun rfl rfl (by split <;> rfl)
  | checkIdle => cases h
  | scanning found => cases h
  | unindexing rest =>
    cases rest with
    | nil =>
      obtain rfl := Option.some.inj h
      exact moves_setRun rfl rfl rfl
    | cons c rest =>
      obtain rfl := Option.some.inj h
      exact moves_setRun rfl rfl rfl
  | release =>
    obtain rfl := Option.some.inj h
    exact moves_setRun rfl rfl rfl

/-- What a step makes of the change that the run of a process writes. -/
inductive Turn (b b' : BoardCommands.State P) (p : P) : Prop where
  | moves (h : Moves b b' p)
  | writes (others : ∀ q, q ≠ p → b'.run q = b.run q) (numbers : b'.numbers = b.numbers)
      (change : changeOf (b'.run p) = none ∨ changeOf (b'.run p) = changeOf (b.run p))
  | number {change : PersistedElementChange} (others : ∀ q, q ≠ p → b'.run q = b.run q)
      (numbers : b'.numbers = b.numbers ++ [peekSequence b.keys + 1])
      (writes : changeOf (b'.run p) = some change)
      (sequence : change.sequence = peekSequence b.keys + 1)

theorem turn_applyCommand {call : ApplyCall} {now : Nat} {r : BoardCommands.ApplyRun}
    (hrun : b.run p = .apply call r) : Turn b (BoardCommands.applyCommand b p call now r) p := by
  cases r with
  | waiting w =>
    refine .moves ?_
    simp only [BoardCommands.applyCommand]
    split
    · exact moves_setRun rfl rfl rfl
    · split
      · exact moves_resolved call _
      · split
        · exact moves_resolved call _
        · exact moves_setRun rfl rfl rfl
  | waitingElements w =>
    refine .moves ?_
    simp only [BoardCommands.applyCommand]
    split <;> exact moves_setRun rfl rfl rfl
  | readElements => exact .moves (moves_resolved call _)
  | waitingSequence w changes =>
    refine .moves ?_
    simp only [BoardCommands.applyCommand]
    split <;> exact moves_setRun rfl rfl rfl
  | incr changes =>
    have hwrites : changeOf ((BoardCommands.applyCommand b p call now (.incr changes)).run p) =
        some ⟨(getSequence b.keys).1, changes.upserts, changes.deletes⟩ := by
      simp only [BoardCommands.applyCommand, BoardCommands.State.setRun_self]
      rfl
    exact .number (fun q hq => BoardCommands.State.setRun_ne _ _ hq) rfl hwrites rfl
  | writing change sent rest =>
    cases rest with
    | nil => exact .moves (moves_setRun rfl rfl rfl)
    | cons c rest =>
      refine .writes (fun q hq => BoardCommands.State.setRun_ne _ _ hq) rfl ?_
      simp only [BoardCommands.applyCommand, BoardCommands.State.setRun_self, hrun]
      split
      · exact .inl rfl
      · exact .inr rfl

theorem moves_start {r : BoardCommands.Run} (hr : changeOf r = none) (h : b.start p r = some b') :
    Moves b b' p := by
  simp only [BoardCommands.State.start] at h
  split at h
  · obtain rfl := Option.some.inj h
    exact moves_setRun rfl rfl hr
  · cases h

theorem turn_command {now : Nat}
    (hstep : BoardCommands.step cfg boardId b (.command p now) = some b') : Turn b b' p := by
  simp only [BoardCommands.step] at hstep
  split at hstep
  · cases hstep
  · obtain rfl := Option.some.inj hstep
    exact .moves (moves_loadCommand _)
  · next hrun =>
    obtain rfl := Option.some.inj hstep
    exact turn_applyCommand hrun
  · obtain rfl := Option.some.inj hstep
    exact .moves (moves_persistCommand _)
  · exact .moves (moves_flushCommand hstep)

/-- The process whose run a label moves. -/
def runner : BoardCommands.Label P → Option P
  | .loadBoard p | .applyChangeSet p _ | .persistBoard p | .flushBoard p _ | .command p _
  | .idleCheck p _ | .scanPage p _ | .del p => some p
  | .loadLockExpires | .evictionLockExpires => none

/-- A step that is no command of its process only moves its run. -/
theorem moves_step {l : BoardCommands.Label P}
    (hstep : BoardCommands.step cfg boardId b l = some b') (hrunner : runner l = some p)
    (hcommand : ∀ now, l ≠ .command p now) : Moves b b' p := by
  cases l with
  | loadBoard q =>
    obtain rfl := Option.some.inj hrunner
    exact moves_start rfl hstep
  | applyChangeSet q call =>
    obtain rfl := Option.some.inj hrunner
    exact moves_start rfl hstep
  | persistBoard q =>
    obtain rfl := Option.some.inj hrunner
    exact moves_start rfl hstep
  | flushBoard q requireIdle =>
    obtain rfl := Option.some.inj hrunner
    exact moves_start rfl hstep
  | command q now =>
    obtain rfl := Option.some.inj hrunner
    exact absurd rfl (hcommand now)
  | idleCheck q idle =>
    obtain rfl := Option.some.inj hrunner
    simp only [BoardCommands.step] at hstep
    split at hstep
    · obtain rfl := Option.some.inj hstep
      exact moves_setRun rfl rfl (by split <;> rfl)
    · cases hstep
  | scanPage q page =>
    obtain rfl := Option.some.inj hrunner
    simp only [BoardCommands.step] at hstep
    split at hstep
    · obtain rfl := Option.some.inj hstep
      exact moves_setRun rfl rfl rfl
    · cases hstep
  | del q =>
    obtain rfl := Option.some.inj hrunner
    simp only [BoardCommands.step] at hstep
    split at hstep
    · obtain rfl := Option.some.inj hstep
      exact moves_setRun rfl rfl rfl
    · cases hstep
  | loadLockExpires => cases hrunner
  | evictionLockExpires => cases hrunner

theorem Moves.changeOf_eq (h : Moves b b' p) : changeOf (b'.run p) = none := by
  obtain ⟨r, hrun, hr⟩ := h.run
  rw [hrun, Function.update_self, hr]

theorem Turn.others (h : Turn b b' p) (hne : q ≠ p) : b'.run q = b.run q := by
  cases h with
  | moves h =>
    obtain ⟨r, hrun, _⟩ := h.run
    rw [hrun, Function.update_of_ne hne]
  | writes others numbers change => exact others q hne
  | number others numbers writes sequence => exact others q hne

/-- A step leaves the runs of the other processes. -/
theorem run_of_ne {l : BoardCommands.Label P}
    (hstep : BoardCommands.step cfg boardId b l = some b') (hne : runner l ≠ some q) :
    b'.run q = b.run q := by
  cases hrunner : runner l with
  | none =>
    cases l with
    | loadLockExpires =>
      obtain rfl := Option.some.inj hstep
      rfl
    | evictionLockExpires =>
      obtain rfl := Option.some.inj hstep
      rfl
    | _ => cases hrunner
  | some p =>
    have hqp : q ≠ p := by
      rintro rfl
      exact hne hrunner
    by_cases hcommand : ∃ now, l = .command p now
    · obtain ⟨now, rfl⟩ := hcommand
      exact (turn_command hstep).others hqp
    · exact (Turn.moves (moves_step hstep hrunner fun now hl => hcommand ⟨now, hl⟩)).others hqp

/-- Only its own commands take a process to the pipeline of a change. -/
theorem changeOf_step {l : BoardCommands.Label P}
    (hstep : BoardCommands.step cfg boardId b l = some b') (hcommand : ∀ now, l ≠ .command p now) :
    changeOf (b'.run p) = changeOf (b.run p) ∨ changeOf (b'.run p) = none := by
  by_cases hrunner : runner l = some p
  · exact .inr (moves_step hstep hrunner hcommand).changeOf_eq
  · exact .inl (by rw [run_of_ne hstep hrunner])

end runs

/-! ### What a step does -/

section effect
variable {cfg : Config} {boardId : String} {net : Layout Handler Socket Process}
  {s s' : State Handler Socket Process Other}

/-- The state once a batch has arrived. -/
def State.receive [DecidableEq Handler] (s : State Handler Socket Process Other) (h : Handler)
    (mutations : List Mutation) : State Handler Socket Process Other :=
  { s with batch := Function.update s.batch h mutations, arrived := s.arrived ++ [h] }

/-- The batch of a handler goes on from `b` to `b'` without numbering anything. -/
structure Advances (s : State Handler Socket Process Other)
    (board : BoardCommands.State (Handler ⊕ Other)) (h : Handler) (b b' : Batch Socket) : Prop where
  numbers : batchNumbers b' = batchNumbers b
  counter : peekSequence board.keys = peekSequence s.board.keys
  others : ∀ q, q ≠ .inl h → board.run q = s.board.run q
  applying : isApplying b'.run = true → changeOf (board.run (.inl h)) = none

/-- The batch only goes on by itself. -/
theorem advances_self {h : Handler} {b b' : Batch Socket}
    (hnumbers : batchNumbers b' = batchNumbers b) (hrun : isApplying b'.run = false) :
    Advances s s.board h b b' := by
  refine ⟨hnumbers, rfl, fun _ _ => rfl, fun happlying => ?_⟩
  rw [hrun] at happlying
  cases happlying

theorem peekSequence_tryMarkSeen (mutationId : String) (k : BoardKeys) :
    peekSequence (tryMarkSeen mutationId k).2 = peekSequence k := by
  unfold tryMarkSeen
  split <;> rfl

theorem advances_ask {h : Handler} {b : Batch Socket} {q : Question}
    (hq : b.question cfg = some q) :
    Advances s { s.board with keys := q.exec s.board.keys } h b
      (b.hear cfg (SocketBatches.answer cfg s.board.keys q)) := by
  have hrun : isApplying b.run = false := by
    unfold Batch.question at hq
    split at hq
    all_goals first | (cases hq; done) | (rename_i hrun; rw [hrun]; rfl)
  obtain ⟨hnumbers, hheard⟩ := hear_numbers cfg (SocketBatches.answer cfg s.board.keys q) hrun
  refine ⟨hnumbers, ?_, fun _ _ => rfl, fun happlying => ?_⟩
  · cases q with
    | claim mutationId => exact peekSequence_tryMarkSeen mutationId s.board.keys
    | _ => rfl
  · rw [hheard] at happlying
    cases happlying

variable [DecidableEq Handler] [DecidableEq Other]

/-- The batch starts an operation. -/
theorem advances_start {h : Handler} {b b' : Batch Socket} {r : BoardCommands.Run}
    {board : BoardCommands.State (Handler ⊕ Other)} (hstep : s.board.start (.inl h) r = some board)
    (hr : changeOf r = none) (hnumbers : batchNumbers b' = batchNumbers b) :
    Advances s board h b b' := by
  have hkeys : board.keys = s.board.keys := by
    simp only [BoardCommands.State.start] at hstep
    split at hstep
    · obtain rfl := Option.some.inj hstep
      rfl
    · cases hstep
  have hmoves := moves_start hr hstep
  exact ⟨hnumbers, by rw [hkeys], fun q hq => (Turn.moves hmoves).others hq,
    fun _ => hmoves.changeOf_eq⟩

variable [DecidableEq Process]

inductive Effect (cfg : Config) (boardId : String) (net : Layout Handler Socket Process)
    (s : State Handler Socket Process Other) :
    Label Handler Socket Other → State Handler Socket Process Other → Prop where
  | tick {l : Label Handler Socket Other} (now : Nat) (lastActivityWriteAt : Socket → Nat) :
    Effect cfg boardId net s l { s with now := now, lastActivityWriteAt := lastActivityWriteAt }
  | arriveRefreshing {h : Handler} {mutations : List Mutation} (idle : s.phase h = .idle)
    (lastActivityWriteAt : Socket → Nat) :
    Effect cfg boardId net s (.arrive h mutations)
      { (s.receive h mutations).setPhase h .refreshing with
        lastActivityWriteAt := lastActivityWriteAt }
  | arriveQueued {h : Handler} {mutations : List Mutation} (idle : s.phase h = .idle)
    (throttled : shouldWriteActivity net s (net.socket h) = false) :
    Effect cfg boardId net s (.arrive h mutations) ((s.receive h mutations).enter net h)
  | enter {h : Handler} (refreshing : s.phase h = .refreshing) :
    Effect cfg boardId net s (.refreshed h true) (s.enter net h)
  | drop {h : Handler} {l : Label Handler Socket Other} (idle : s.phase h ≠ .idle)
    (waits : (s.phase h).inQueue = false) : Effect cfg boardId net s l (s.setPhase h .done)
  | timeout {h : Handler} (head : (s.queue (net.process (net.socket h))).head? = some h) :
    Effect cfg boardId net s (.timeout h) (s.leave net h .done)
  | process {h : Handler} (queued : s.phase h = .queued)
    (head : (s.queue (net.process (net.socket h))).head? = some h) :
    Effect cfg boardId net s (.process h)
      (s.setPhase h (.processing (.begin (some (net.socket h)) (s.batch h))))
  | advance {l : Label Handler Socket Other} {h : Handler} {b b' : Batch Socket}
    {board : BoardCommands.State (Handler ⊕ Other)} (processing : s.phase h = .processing b)
    (advances : Advances s board h b b') :
    Effect cfg boardId net s l { s.setPhase h (.processing b') with board := board }
  | returns {h : Handler} {b : Batch Socket} (processing : s.phase h = .processing b)
    (applying : isApplying b.run = false) :
    Effect cfg boardId net s (.go h)
      (s.leave net h (.processed (broadcastsOf (net.socket h) b.mutations b.results)))
  | fails {h : Handler} {b : Batch Socket} (processing : s.phase h = .processing b) :
    Effect cfg boardId net s (.fail h) (s.leave net h .done)
  | command {h : Handler} {b : Batch Socket} {now : Nat}
    {board : BoardCommands.State (Handler ⊕ Other)} (processing : s.phase h = .processing b)
    (step : BoardCommands.step cfg boardId s.board (.command (.inl h) now) = some board) :
    Effect cfg boardId net s (.board (.command (.inl h) now))
      { s.setPhase h (.processing (b.note (board.run (.inl h)))) with
        board := board
        numbers := Function.update s.numbers h (s.numbers h ++ numbersFrom s.board board) }
  | claim {mutationId : String} :
    Effect cfg boardId net s (.claim mutationId)
      { s with board := { s.board with keys := (tryMarkSeen mutationId s.board.keys).2 } }
  | others {l : BoardCommands.Label (Handler ⊕ Other)}
    {board : BoardCommands.State (Handler ⊕ Other)}
    (step : BoardCommands.step cfg boardId s.board l = some board)
    (other : ∀ h now, l ≠ .command (.inl h) now) :
    Effect cfg boardId net s (.board l) { s with board := board }
  | enqueue {h : Handler} {messages : List (Message Socket)}
    (processed : s.phase h = .processed messages) :
    Effect cfg boardId net s (.enqueue h true) (s.setPhase h (.enqueueing messages))
  | broadcast {h : Handler} {messages : List (Message Socket)}
    (enqueueing : s.phase h = .enqueueing messages) :
    Effect cfg boardId net s (.broadcast h)
      { s.setPhase h .done with messages := s.messages ++ messages }

theorem effect_go {h : Handler} {b : Batch Socket} (hprocessing : s.phase h = .processing b)
    (hstep : go cfg boardId net s h b = some s') : Effect cfg boardId net s (.go h) s' := by
  unfold go at hstep
  split at hstep
  · next hrun =>
    have hpending : pendingOf b.run = none := by rw [hrun]; rfl
    split at hstep
    · obtain rfl := Option.some.inj hstep
      exact .advance hprocessing (advances_self (batchNumbers_addResult hpending rfl _) rfl)
    · cases hstep
  · next hrun =>
    have hpending : pendingOf b.run = none := by rw [hrun]; rfl
    split at hstep
    · unfold State.start at hstep
      obtain ⟨board, hboard, rfl⟩ := Option.map_eq_some_iff.mp hstep
      exact .advance hprocessing
        (advances_start hboard rfl (batchNumbers_of_pending rfl hpending rfl))
    · obtain rfl := Option.some.inj hstep
      exact .returns hprocessing (by rw [hrun]; rfl)
  · next hrun =>
    have hpending : pendingOf b.run = none := by rw [hrun]; rfl
    unfold State.start at hstep
    obtain ⟨board, hboard, rfl⟩ := Option.map_eq_some_iff.mp hstep
    exact .advance hprocessing
      (advances_start hboard rfl (batchNumbers_of_pending rfl hpending rfl))
  · next m change rest hrun =>
    split at hstep
    · obtain rfl := Option.some.inj hstep
      refine .advance hprocessing (advances_self (batchNumbers_applied hrun) ?_)
      cases change <;> rfl
    · cases hstep
  · next hrun =>
    split at hstep
    · obtain rfl := Option.some.inj hstep
      exact .returns hprocessing (by rw [hrun]; rfl)
    · cases hstep
  · cases hstep

theorem effect_board {l : BoardCommands.Label (Handler ⊕ Other)}
    (hstep : boardStep cfg boardId s l = some s') : Effect cfg boardId net s (.board l) s' := by
  unfold boardStep at hstep
  split at hstep
  · split at hstep
    · next hprocessing =>
      obtain ⟨board, hboard, rfl⟩ := Option.map_eq_some_iff.mp hstep
      exact .command hprocessing hboard
    · cases hstep
  · cases hstep
  · cases hstep
  · cases hstep
  · cases hstep
  · next hcommand _ _ _ _ =>
    obtain ⟨board, hboard, rfl⟩ := Option.map_eq_some_iff.mp hstep
    exact .others hboard hcommand

theorem step_effect [DecidableEq Socket] {l : Label Handler Socket Other}
    (hstep : step cfg boardId net s l = some s') :
    Effect cfg boardId net s l s' := by
  cases l with
  | advance ms =>
    obtain rfl := Option.some.inj hstep
    exact .tick _ _
  | activity x =>
    simp only [step] at hstep
    split at hstep
    · obtain rfl := Option.some.inj hstep
      exact .tick _ _
    · obtain rfl := Option.some.inj hstep
      exact .tick _ _
  | arrive h mutations =>
    simp only [step] at hstep
    split at hstep
    · next hidle =>
      split at hstep
      · split at hstep
        · obtain rfl := Option.some.inj hstep
          exact .arriveRefreshing hidle _
        · next hthrottled =>
          obtain rfl := Option.some.inj hstep
          exact .arriveQueued hidle (Bool.eq_false_iff.mpr hthrottled)
      · cases hstep
    · cases hstep
  | refreshed h active =>
    simp only [step] at hstep
    split at hstep
    · next hrefreshing =>
      cases active with
      | true =>
        obtain rfl := Option.some.inj hstep
        exact .enter hrefreshing
      | false =>
        obtain rfl := Option.some.inj hstep
        exact .drop (by simp [hrefreshing]) (by simp [hrefreshing, Phase.inQueue])
    · cases hstep
  | timeout h =>
    simp only [step] at hstep
    split at hstep
    · split at hstep
      · next hhead =>
        obtain rfl := Option.some.inj hstep
        exact .timeout hhead
      · cases hstep
    · cases hstep
  | process h =>
    simp only [step] at hstep
    split at hstep
    · next hqueued =>
      split at hstep
      · next hhead =>
        obtain rfl := Option.some.inj hstep
        exact .process hqueued hhead
      · cases hstep
    · cases hstep
  | ask h =>
    simp only [step] at hstep
    split at hstep
    · next hprocessing =>
      unfold ask at hstep
      obtain ⟨q, hq, rfl⟩ := Option.map_eq_some_iff.mp hstep
      exact .advance hprocessing (advances_ask hq)
    · cases hstep
  | mode h mode =>
    simp only [step] at hstep
    split at hstep
    · next hprocessing =>
      split at hstep
      · next hrun =>
        obtain rfl := Option.some.inj hstep
        exact .advance hprocessing
          (advances_self (batchNumbers_of_pending rfl (by rw [hrun]; rfl) rfl) rfl)
      · cases hstep
    · cases hstep
  | go h =>
    simp only [step] at hstep
    split at hstep
    · next hprocessing => exact effect_go hprocessing hstep
    · cases hstep
  | fail h =>
    simp only [step] at hstep
    split at hstep
    · next hprocessing =>
      obtain rfl := Option.some.inj hstep
      exact .fails hprocessing
    · cases hstep
  | claim mutationId =>
    obtain rfl := Option.some.inj hstep
    exact .claim
  | board bl => exact effect_board hstep
  | enqueue h active =>
    simp only [step] at hstep
    split at hstep
    · next messages hprocessed =>
      obtain rfl := Option.some.inj hstep
      cases active with
      | true => exact .enqueue hprocessed
      | false => exact .drop (by simp [hprocessed]) (by simp [hprocessed, Phase.inQueue])
    · cases hstep
  | broadcast h =>
    simp only [step] at hstep
    split at hstep
    · next messages henqueueing =>
      obtain rfl := Option.some.inj hstep
      exact .broadcast henqueueing
    · cases hstep

end effect

/-! ### Queues and batches -/

section base
variable {cfg : Config} {boardId : String} {net : Layout Handler Socket Process}
  {s s' : State Handler Socket Process Other}

/-- The queues hold the handlers waiting for their lock or past it, each in its process;
    who processes a batch is at the head. -/
structure Queues (net : Layout Handler Socket Process) (s : State Handler Socket Process Other) :
    Prop where
  queued : ∀ p h, h ∈ s.queue p → (s.phase h).inQueue = true ∧ net.process (net.socket h) = p
  nodup : ∀ p, (s.queue p).Nodup
  head : ∀ h b, s.phase h = .processing b → (s.queue (net.process (net.socket h))).head? = some h

/-- What holds of every handler in any run. -/
structure Base (net : Layout Handler Socket Process) (s : State Handler Socket Process Other) :
    Prop where
  queues : Queues net s
  arrived : ∀ h ∈ s.arrived, s.phase h ≠ .idle
  arrivedNodup : s.arrived.Nodup
  fresh : ∀ h, s.phase h = .idle → s.numbers h = []

theorem Queues.not_mem (hq : Queues net s) {h : Handler} (hwaits : (s.phase h).inQueue = false)
    (p : Process) : h ∉ s.queue p := by
  intro hmem
  have hin := (hq.queued p h hmem).1
  rw [hwaits] at hin
  cases hin

/-- The head of a queue, and the rest. -/
theorem queue_eq_cons {p : Process} {h : Handler} (hhead : (s.queue p).head? = some h) :
    s.queue p = h :: (s.queue p).tail := by
  cases hqueue : s.queue p with
  | nil =>
    rw [hqueue] at hhead
    cases hhead
  | cons x rest =>
    rw [hqueue] at hhead
    rw [Option.some.inj hhead]
    rfl

section steps
variable [DecidableEq Handler]

theorem Queues.setPhase (hq : Queues net s) (h : Handler) (phase : Phase Socket)
    (hin : phase.inQueue = (s.phase h).inQueue)
    (hhead : ∀ b, phase = .processing b → (s.queue (net.process (net.socket h))).head? = some h) :
    Queues net (s.setPhase h phase) := by
  refine ⟨fun p x hx => ?_, hq.nodup, fun x b hx => ?_⟩
  · obtain ⟨hwaits, hprocess⟩ := hq.queued p x hx
    refine ⟨?_, hprocess⟩
    by_cases hxh : x = h
    · subst hxh
      simpa [State.setPhase, hin] using hwaits
    · simpa [State.setPhase, hxh] using hwaits
  · by_cases hxh : x = h
    · subst hxh
      exact hhead b (by simpa [State.setPhase] using hx)
    · exact hq.head x b (by simpa [State.setPhase, hxh] using hx)

theorem Queues.processing (hq : Queues net s) {h : Handler} {b : Batch Socket}
    (hprocessing : s.phase h = .processing b) (b' : Batch Socket) :
    Queues net (s.setPhase h (.processing b')) := by
  refine hq.setPhase h _ ?_ fun _ _ => hq.head h b hprocessing
  rw [hprocessing]
  rfl

theorem Queues.receive (hq : Queues net s) (h : Handler) (mutations : List Mutation) :
    Queues net (s.receive h mutations) := ⟨hq.queued, hq.nodup, hq.head⟩

/-- A handler goes on to another phase. -/
theorem Base.of_phase (hb : Base net s) {h : Handler} {phase : Phase Socket}
    (hgoes : phase ≠ .idle) (hphase : s'.phase = Function.update s.phase h phase)
    (hqueues : Queues net s') (harrived : s'.arrived = s.arrived)
    (hnumbers : ∀ x, x ≠ h → s'.numbers x = s.numbers x) : Base net s' := by
  refine ⟨hqueues, fun x hx => ?_, ?_, fun x hx => ?_⟩
  · rw [harrived] at hx
    by_cases hxh : x = h
    · simpa [hphase, hxh] using hgoes
    · simpa [hphase, hxh] using hb.arrived x hx
  · rw [harrived]
    exact hb.arrivedNodup
  · by_cases hxh : x = h
    · exact absurd hx (by simpa [hphase, hxh] using hgoes)
    · rw [hnumbers x hxh]
      exact hb.fresh x (by simpa [hphase, hxh] using hx)

/-- A handler starts. -/
theorem Base.of_arrival (hb : Base net s) {h : Handler} {phase : Phase Socket}
    (hidle : s.phase h = .idle) (hgoes : phase ≠ .idle)
    (hphase : s'.phase = Function.update s.phase h phase) (hqueues : Queues net s')
    (harrived : s'.arrived = s.arrived ++ [h]) (hnumbers : s'.numbers = s.numbers) :
    Base net s' := by
  have hnew : h ∉ s.arrived := fun hmem => hb.arrived h hmem hidle
  refine ⟨hqueues, fun x hx => ?_, ?_, fun x hx => ?_⟩
  · by_cases hxh : x = h
    · simpa [hphase, hxh] using hgoes
    · have hold : x ∈ s.arrived := by simpa [harrived, hxh] using hx
      simpa [hphase, hxh] using hb.arrived x hold
  · rw [harrived]
    refine List.nodup_append.mpr ⟨hb.arrivedNodup, List.nodup_singleton h, ?_⟩
    intro x hx y hy heq
    rw [heq, List.mem_singleton.mp hy] at hx
    exact hnew hx
  · by_cases hxh : x = h
    · exact absurd hx (by simpa [hphase, hxh] using hgoes)
    · have hold : s.phase x = .idle := by simpa [hphase, hxh] using hx
      rw [hnumbers]
      exact hb.fresh x hold

variable [DecidableEq Process]

theorem Queues.enter (hq : Queues net s) {h : Handler} (hwaits : (s.phase h).inQueue = false) :
    Queues net (s.enter net h) := by
  have hnew := hq.not_mem hwaits
  constructor
  · intro p x hx
    by_cases hxh : x = h
    · subst hxh
      refine ⟨by simp [State.enter, State.setPhase, Phase.inQueue], ?_⟩
      by_contra hp
      simp only [State.enter, Function.update_of_ne (Ne.symm hp)] at hx
      exact hnew p hx
    · -- anybody else was in the queue before
      have hold : x ∈ s.queue p := by
        by_cases hp : p = net.process (net.socket h)
        · subst hp
          simpa [State.enter, hxh] using hx
        · simpa [State.enter, hp] using hx
      obtain ⟨hphase, hprocess⟩ := hq.queued p x hold
      simp [State.enter, State.setPhase, hxh, hphase, hprocess]
  · intro p
    by_cases hp : p = net.process (net.socket h)
    · subst hp
      simp only [State.enter, Function.update_self]
      refine List.nodup_append.mpr ⟨hq.nodup _, List.nodup_singleton h, ?_⟩
      intro x hx y hy heq
      rw [heq, List.mem_singleton.mp hy] at hx
      exact hnew _ hx
    · simp only [State.enter, Function.update_of_ne hp]
      exact hq.nodup p
  · intro x b hx
    have hxh : x ≠ h := by
      rintro rfl
      simp [State.enter, State.setPhase] at hx
    have hhead := hq.head x b (by simpa [State.enter, State.setPhase, hxh] using hx)
    by_cases hp : net.process (net.socket x) = net.process (net.socket h)
    · rw [hp] at hhead ⊢
      simp only [State.enter, Function.update_self]
      rw [queue_eq_cons hhead]
      rfl
    · simpa [State.enter, hp] using hhead

theorem Queues.leave (hq : Queues net s) {h : Handler} {phase : Phase Socket}
    (hhead : (s.queue (net.process (net.socket h))).head? = some h)
    (hout : phase.inQueue = false) : Queues net (s.leave net h phase) := by
  have hqueue := queue_eq_cons hhead
  have hnodup := hq.nodup (net.process (net.socket h))
  rw [hqueue, List.nodup_cons] at hnodup
  constructor
  · intro p x hx
    by_cases hp : p = net.process (net.socket h)
    · subst hp
      simp only [State.leave, Function.update_self] at hx
      have hne : x ≠ h := by
        rintro rfl
        exact hnodup.1 hx
      obtain ⟨hphase, hprocess⟩ := hq.queued _ x (List.mem_of_mem_tail hx)
      simp [State.leave, State.setPhase, hne, hphase, hprocess]
    · simp only [State.leave, Function.update_of_ne hp] at hx
      obtain ⟨hphase, hprocess⟩ := hq.queued p x hx
      have hne : x ≠ h := by
        rintro rfl
        exact hp hprocess.symm
      simp [State.leave, State.setPhase, hne, hphase, hprocess]
  · intro p
    by_cases hp : p = net.process (net.socket h)
    · subst hp
      simp only [State.leave, Function.update_self]
      exact hnodup.2
    · simp only [State.leave, Function.update_of_ne hp]
      exact hq.nodup p
  · intro x b hx
    have hxh : x ≠ h := by
      rintro rfl
      have hphase : phase = .processing b := by simpa [State.leave, State.setPhase] using hx
      rw [hphase] at hout
      cases hout
    have hold := hq.head x b (by simpa [State.leave, State.setPhase, hxh] using hx)
    by_cases hp : net.process (net.socket x) = net.process (net.socket h)
    · -- nobody else was at the head
      rw [hp, hhead] at hold
      exact absurd (Option.some.inj hold).symm hxh
    · simpa [State.leave, hp] using hold

variable [DecidableEq Socket] [DecidableEq Other]

theorem base_step {l : Label Handler Socket Other} (hb : Base net s)
    (hstep : step cfg boardId net s l = some s') : Base net s' := by
  cases step_effect hstep with
  | tick now lastActivityWriteAt =>
    exact ⟨⟨hb.queues.queued, hb.queues.nodup, hb.queues.head⟩, hb.arrived, hb.arrivedNodup,
      hb.fresh⟩
  | arriveRefreshing idle lastActivityWriteAt =>
    rename_i h mutations
    have hqueues : Queues net ((s.receive h mutations).setPhase h .refreshing) := by
      refine (hb.queues.receive h mutations).setPhase h _ ?_ fun _ hb => by cases hb
      simp [State.receive, idle, Phase.inQueue]
    exact hb.of_arrival idle (by simp) rfl ⟨hqueues.queued, hqueues.nodup, hqueues.head⟩ rfl rfl
  | arriveQueued idle throttled =>
    rename_i h mutations
    have hout : ((s.receive h mutations).phase h).inQueue = false := by
      simp [State.receive, idle, Phase.inQueue]
    exact hb.of_arrival idle (by simp) rfl ((hb.queues.receive h mutations).enter hout) rfl rfl
  | enter refreshing =>
    rename_i h
    exact hb.of_phase (by simp) rfl (hb.queues.enter (by simp [refreshing, Phase.inQueue])) rfl
      fun _ _ => rfl
  | drop idle waits =>
    rename_i h
    exact hb.of_phase (by simp) rfl
      (hb.queues.setPhase h .done waits.symm fun _ hb => by cases hb) rfl
      fun _ _ => rfl
  | timeout head => exact hb.of_phase (by simp) rfl (hb.queues.leave head rfl) rfl fun _ _ => rfl
  | process queued head =>
    rename_i h
    exact hb.of_phase (by simp) rfl
      (hb.queues.setPhase h _ (by rw [queued]; rfl) fun _ _ => head) rfl
      fun _ _ => rfl
  | advance processing advances =>
    rename_i h b b' board
    have hqueues := hb.queues.processing processing b'
    exact hb.of_phase (by simp) rfl ⟨hqueues.queued, hqueues.nodup, hqueues.head⟩ rfl fun _ _ => rfl
  | returns processing applying =>
    exact hb.of_phase (by simp) rfl (hb.queues.leave (hb.queues.head _ _ processing) rfl) rfl
      fun _ _ => rfl
  | fails processing =>
    exact hb.of_phase (by simp) rfl (hb.queues.leave (hb.queues.head _ _ processing) rfl) rfl
      fun _ _ => rfl
  | command processing step =>
    rename_i h b now board
    have hqueues := hb.queues.processing processing (b.note (board.run (.inl h)))
    exact hb.of_phase (by simp) rfl ⟨hqueues.queued, hqueues.nodup, hqueues.head⟩ rfl
      fun x hx => by simp [hx]
  | claim =>
    exact ⟨⟨hb.queues.queued, hb.queues.nodup, hb.queues.head⟩, hb.arrived, hb.arrivedNodup,
      hb.fresh⟩
  | others step other =>
    exact ⟨⟨hb.queues.queued, hb.queues.nodup, hb.queues.head⟩, hb.arrived, hb.arrivedNodup,
      hb.fresh⟩
  | enqueue processed =>
    rename_i h messages
    have hqueues := hb.queues.setPhase h (.enqueueing messages) (by rw [processed]; rfl)
      fun _ hb => by cases hb
    exact hb.of_phase (by simp) rfl hqueues rfl fun _ _ => rfl
  | broadcast enqueueing =>
    rename_i h messages
    have hqueues := hb.queues.setPhase h .done (by rw [enqueueing]; rfl) fun _ hb => by cases hb
    exact hb.of_phase (by simp) rfl ⟨hqueues.queued, hqueues.nodup, hqueues.head⟩ rfl fun _ _ => rfl

end steps

theorem base_init (h : Init s) : Base net s := by
  refine ⟨⟨fun p x hx => ?_, fun p => ?_, fun x b hx => ?_⟩, fun x hx => ?_, ?_,
    fun x _ => h.numbers x⟩
  · rw [h.queue p] at hx
    cases hx
  · rw [h.queue p]
    exact List.nodup_nil
  · rw [h.phase x] at hx
    cases hx
  · rw [h.arrived] at hx
    cases hx
  · rw [h.arrived]
    exact List.nodup_nil

end base

/-! ### Two sockets and a third -/

/-- Two handlers, each of a socket of its own, in one process. -/
def twoSockets : Layout Bool (Option Bool) Unit where
  socket := some
  process := fun _ => ()
  effectiveWindow := fun _ => 3000

/-- A board that is loaded and empty. -/
def start : State Handler Socket Process Other where
  board :=
    { BoardCommands.start { boards := AList.singleton "aaaaaaaa-aaaa-4aaa-8aaa-aaaaaaaaaaaa" ()
                            elements := ∅ } with
      keys := { seq := some 0 } }
  now := 0
  lastActivityWriteAt := fun _ => 0
  batch := fun _ => []
  phase := fun _ => .idle
  queue := fun _ => []
  messages := []
  arrived := []
  numbers := fun _ => []

theorem start_init : Init (start : State Handler Socket Process Other) where
  phase := fun _ => rfl
  queue := fun _ => rfl
  messages := rfl
  arrived := rfl
  numbers := fun _ => rfl

/-- A batch that creates one note. -/
def noteBatch (mutationId : String) : List Mutation :=
  [{ mutationId := mutationId, boardId := "aaaaaaaa-aaaa-4aaa-8aaa-aaaaaaaaaaaa"
     operation := .createElement mutationId ⟨mutationId, ∅⟩ }]

/-- A handler processes the batch of one note, in collab mode. -/
def processNote (h : Handler) : List (Label Handler Socket Other) :=
  [.process h, .mode h .collab, .ask h, .go h]
    ++ List.replicate 18 (.board (.command (.inl h) 0)) ++ [.go h, .go h]

end Notebortt.BatchHandlers
