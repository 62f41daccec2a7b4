import Notebortt.BoardState.PresenceDomain
import Notebortt.Concurrency.Cleanup
import Notebortt.Concurrency.LoadedBoardSteps
import Notebortt.Routes.MutationRoutes

/-! # Mutation batches of connected sockets

    The MUTATION_BATCH handler hands its batch to `processBatch` without loading
    the board: the join loaded it. Here joins, batches of sockets and of other
    callers, flushes and cleanups run on one board by single commands, on top of
    the operations of `BoardCommands`. A batch asks the stores one question
    after the other, and goes on by the answers.

    The mutation lock is left out, so any number of batches may be on their way
    at once, and so are the waits before a batch's own reads, which only delay.
    Presence is written and read in one step. -/

open Transition

namespace Notebortt.SocketBatches

def MAX_MUTATION_BATCH : Nat := 100

/-! ### Presence -/

/-- The presence keys, with a client and a viewer session for each socket. -/
abbrev Presence (Socket : Type) := PresenceDomain.State Socket Socket Empty

namespace Presence

section
variable {Socket : Type} [DecidableEq Socket] (p : Presence Socket)

def track (x : Socket) : Presence Socket :=
  PresenceDomain.trackClient (PresenceDomain.touchViewerSession p x) x

def remove (x : Socket) : Presence Socket :=
  PresenceDomain.removeViewerSession (PresenceDomain.removeClient p x) x

/-- What a DEL leaves of the presence keys. -/
def delete (found : KeyName → Bool) : Presence Socket :=
  { p with keys :=
    { p.keys with
      clients := if found .clients then ∅ else p.keys.clients
      viewerSessions := if found .viewerSessions then ∅ else p.keys.viewerSessions
      collabModeUntil := if found .collabModeUntil then none else p.keys.collabModeUntil } }

/-- `isBoardIdleForFlush`: the sessions that have run out go, the clients are counted as they
    stand. -/
def isBoardIdleForFlush : Bool × Presence Socket :=
  let (viewerCount, p) := PresenceDomain.getActiveViewerCount p
  (p.keys.clients.card == 0 && viewerCount == 0, p)

end

end Presence

/-! ### Questions -/

/-- What a batch asks the stores. -/
inductive Question where
  /-- HMGET of all the ids, or HGET of one. -/
  | elements (ids : List String)
  /-- HGETALL, for the cascade of a deletion. -/
  | allElements
  /-- SET NX of the seen marker. -/
  | claim (mutationId : String)
  /-- GET of the sequence. -/
  | sequence
  /-- INCR of the sequence. -/
  | number

inductive Answer where
  | elements (found : Dict BoardElement)
  | allElements (found : List BoardElement)
  | claimed (first : Bool)
  | sequence (n : Nat)

def answer (cfg : Config) (k : BoardKeys) : Question → Answer
  | .elements ids => .elements (fetchByIds cfg k ids)
  | .allElements => .allElements k.elementList
  | .claim mutationId => .claimed (tryMarkSeen mutationId k).1
  | .sequence => .sequence (peekSequence k)
  | .number => .sequence (getSequence k).1

/-- What a question leaves of the keys. The INCR is a command of `applyChangeSet`. -/
def Question.exec (k : BoardKeys) : Question → BoardKeys
  | .claim mutationId => (tryMarkSeen mutationId k).2
  | _ => k

def Question.readsElements : Question → Bool
  | .elements _ => true
  | .allElements => true
  | _ => false

/-! ### Batches -/

/-- How far a `processBatch` is. -/
inductive BatchRun where
  /-- It reads the touched elements; these ids are left. -/
  | fetching (ids : List String)
  /-- The same for the parents that are missing. -/
  | fetchingParents (ids : List String)
  | asksMode
  | mutating (rest : List Mutation)
  /-- The mutation changes nothing, and reads the sequence for its result. -/
  | peeking (mutation : Mutation) (rest : List Mutation)
  /-- Next comes `applyChangeSet`. -/
  | changing (mutation : Mutation) (rest : List Mutation)
  /-- `applyChangeSet` runs; the change once it is numbered. -/
  | applying (mutation : Mutation) (change : Option PersistedElementChange) (rest : List Mutation)
  /-- The write-through runs. -/
  | persisting

structure Batch (Socket : Type) where
  /-- `none` for a batch of a route, of a tick or of a CRDT room. -/
  sender : Option Socket
  mutations : List Mutation
  context : Dict BoardElement
  mode : BoardSyncWriteMode
  results : List MutationResult
  run : BatchRun

namespace Batch

section
variable {Socket : Type} (cfg : Config) (b : Batch Socket)

def begin (sender : Option Socket) (mutations : List Mutation) : Batch Socket where
  sender := sender
  mutations := mutations
  context := ∅
  mode := .solo
  results := []
  run :=
    let touchedElementIds := collectTouchedElementIds mutations
    if touchedElementIds.isEmpty then .asksMode else .fetching touchedElementIds

/-- The ids of the next command: one HMGET takes them all, a HGET one. -/
def nextIds (ids : List String) : List String :=
  if cfg.enableTargetedMutationReads then ids else ids.take 1

def missingParents (context : Dict BoardElement) : List String :=
  (toSet (context.entries.flatMap (fun entry => parentIds entry.2)
    ++ collectReferencedMetaIds b.mutations)).filter (· ∉ context)

/-- The command that the batch sends next; `none` when it runs an operation, or sends none. -/
def question : Option Question :=
  match b.run with
  | .fetching ids => some (.elements (nextIds cfg ids))
  | .fetchingParents ids => some (.elements (nextIds cfg ids))
  | .mutating (m :: _) => if m.isTransient then none else some (.claim m.mutationId)
  | .peeking _ _ => some .sequence
  | _ => none

def addResult (result : MutationResult) (rest : List Mutation) : Batch Socket :=
  { b with results := b.results ++ [result], run := .mutating rest }

/-- How the batch goes on by an answer. -/
def hear (answer : Answer) : Batch Socket :=
  match b.run, answer with
  | .fetching ids, .elements found =>
    let context := found ∪ b.context
    let left := ids.drop (nextIds cfg ids).length
    let parents := b.missingParents context
    { b with
      context := context
      run := if !left.isEmpty then .fetching left
        else if parents.isEmpty then .asksMode else .fetchingParents parents }
  | .fetchingParents ids, .elements found =>
    let left := ids.drop (nextIds cfg ids).length
    { b with
      context := found ∪ b.context
      run := if left.isEmpty then .asksMode else .fetchingParents left }
  | .mutating (m :: rest), .claimed first =>
    if !first then
      b.addResult { mutationId := m.mutationId, status := .alreadyApplied } rest
    else if isMutationBlockedByLock m.operation b.context.lookup then
      { b with run := .peeking m rest }
    else if (validateReconcileMonthRange m.operation b.context.lookup).isSome then
      { b with run := .peeking m rest }
    else { b with run := .changing m rest }
  | .peeking m rest, .sequence n =>
    b.addResult { mutationId := m.mutationId, status := .applied, sequence := some n } rest
  | _, _ => b

/-- The call of `applyChangeSet` for a mutation. -/
def call (m : Mutation) : ApplyCall where
  changeSet := toChangeSet b.context.lookup m.operation
  trackChangeLog := b.mode = .collab
  baseElementsForCascadeDelete := none

/-- `applyChangeSet` has returned. -/
def applied (m : Mutation) (change : Option PersistedElementChange) (rest : List Mutation) :
    Batch Socket :=
  match change with
  | some change =>
    let result : MutationResult :=
      { mutationId := m.mutationId, status := .applied
        sequence := some change.sequence, change := some change }
    { b.addResult result rest with context := applyPersistedChangeToContext b.context result }
  | none => { b with run := .peeking m rest }

def changed : Bool := b.results.any (·.change.isSome)

/-- The number that `applyChangeSet` has got for the mutation it runs for. -/
def note (r : BoardCommands.Run) : Batch Socket :=
  match b.run, r with
  | .applying m _ rest, .apply _ (.writing change _ _) =>
    { b with run := .applying m (some change) rest }
  | _, _ => b

end

end Batch

/-! ### State -/

/-- How far the cleanup is with the board. -/
inductive CleanupRun where
  /-- The board was inactive. -/
  | candidate
  | persisting
  | evicting

/-- What one of the flows does, over the operation of the board it runs. -/
inductive Flow (Socket : Type) where
  | idle
  /-- A join, which loads the board first. -/
  | joining (x : Socket) (permission : BoardPermission)
  /-- Any other caller of `processBatch` loads the board first, too. -/
  | loading (mutations : List Mutation)
  | batch (b : Batch Socket)
  | cleanup (r : CleanupRun)

/-- Ghost: a question of a socket's batch, and the stores that answered it. -/
structure Asked where
  question : Question
  keys : BoardKeys
  db : Postgres

structure State (Socket P : Type) where
  board : BoardCommands.State P
  presence : Presence Socket
  /-- The permission of a socket that has joined. -/
  joined : Socket → Option BoardPermission
  flow : P → Flow Socket
  asked : List Asked

inductive Label (Socket P : Type) where
  | advance (ms : Nat)
  /-- BOARD_JOIN, with the access found. -/
  | join (x : Socket) (p : P) (permission : BoardPermission)
  | leave (x : Socket)
  /-- An event refreshes the activity of its socket. -/
  | activity (x : Socket)
  /-- MUTATION_BATCH, past the refresh of the activity. -/
  | send (x : Socket) (p : P) (mutations : List Mutation)
  /-- A batch of a route, of a tick or of a CRDT room. -/
  | post (p : P) (mutations : List Mutation)
  /-- The batch of the flow sends its next command. -/
  | ask (p : P)
  /-- The flow goes on without a command. -/
  | go (p : P)
  | persistBoard (p : P)
  | probeInactive (p : P) (seqIdle : Bool)
  /-- The flow ends with an exception, of a command or of the operation it has run. -/
  | fails (p : P)
  /-- The next command of the operation a flow runs, or a lock that expires. -/
  | board (l : BoardCommands.Label P)

section system
variable {Socket P : Type} [DecidableEq Socket] [DecidableEq P]

def State.setFlow (s : State Socket P) (p : P) (f : Flow Socket) : State Socket P :=
  { s with flow := Function.update s.flow p f }

/-- The flow runs no operation. -/
def State.free (s : State Socket P) (p : P) : Bool :=
  match s.board.run p with
  | .idle => true
  | _ => false

/-- The flow has nothing to do. -/
def State.ready (s : State Socket P) (p : P) : Bool :=
  match s.flow p with
  | .idle => s.free p
  | _ => false

/-- The flow starts an operation of the board, and is then at `f`. -/
def State.start (cfg : Config) (boardId : String) (s : State Socket P) (p : P) (f : Flow Socket)
    (l : BoardCommands.Label P) : Option (State Socket P) :=
  (BoardCommands.step cfg boardId s.board l).map fun board => { s.setFlow p f with board := board }

/-- The question an operation asks next. -/
def questionOf : BoardCommands.Run → Option Question
  | .apply _ .readElements => some .allElements
  | .apply _ (.incr _) => some .number
  | _ => none

/-- The question that the next command of a flow asks for the batch of a socket. -/
def State.question (cfg : Config) (s : State Socket P) (p : P) : Option Question :=
  match s.flow p with
  | .batch b =>
    if b.sender.isNone then none else (b.question cfg).or (questionOf (s.board.run p))
  | _ => none

/-- The ghost notes the question. -/
def State.noteAsked (cfg : Config) (s : State Socket P) (p : P) : List Asked :=
  s.asked ++ (s.question cfg p).toList.map fun q => ⟨q, s.board.keys, s.board.db⟩

/-! ### Steps -/

def touchKeys (now : Nat) (k : BoardKeys) : BoardKeys :=
  { k with lastActive := some now, inActiveBoards := true }

/-- The client and its session are tracked. -/
def refreshSocketActivity (s : State Socket P) (x : Socket) : State Socket P :=
  { s with
    presence := s.presence.track x
    board := { s.board with keys := touchKeys s.presence.now s.board.keys } }

/-- A batch ends: the collab mode is extended, or armed again. -/
def endBatch (s : State Socket P) (p : P) (mode : BoardSyncWriteMode) : State Socket P :=
  { s.setFlow p .idle with presence := PresenceDomain.rearm s.presence mode }

def goBatch (cfg : Config) (boardId : String) (s : State Socket P) (p : P) (b : Batch Socket) :
    Option (State Socket P) :=
  match b.run with
  | .asksMode =>
    let (mode, presence) := PresenceDomain.getSyncWriteMode s.presence
    some { s.setFlow p (.batch { b with mode := mode, run := .mutating b.mutations }) with
      presence := presence }
  | .mutating (m :: rest) =>
    if m.isTransient then
      some (s.setFlow p
        (.batch (b.addResult { mutationId := m.mutationId, status := .broadcastOnly } rest)))
    else none
  | .mutating [] =>
    if b.mode = .solo && b.changed then
      s.start cfg boardId p (.batch { b with run := .persisting }) (.persistBoard p)
    else some (endBatch s p b.mode)
  | .changing m rest =>
    s.start cfg boardId p (.batch { b with run := .applying m none rest })
      (.applyChangeSet p (b.call m))
  | .applying m change rest =>
    if s.free p then some (s.setFlow p (.batch (b.applied m change rest))) else none
  | .persisting => if s.free p then some (endBatch s p b.mode) else none
  | _ => none

def goCleanup (cfg : Config) (boardId : String) (s : State Socket P) (p : P) :
    CleanupRun → Option (State Socket P)
  | .candidate =>
    let (clientCount, presence) := PresenceDomain.getClientCount s.presence
    let (viewerCount, presence) := PresenceDomain.getActiveViewerCount presence
    let s := { s with presence := presence }
    if 0 < clientCount ∨ 0 < viewerCount then some (s.setFlow p .idle)
    else s.start cfg boardId p (.cleanup .persisting) (.persistBoard p)
  | .persisting =>
    if s.free p then s.start cfg boardId p (.cleanup .evicting) (.flushBoard p true) else none
  | .evicting => if s.free p then some (s.setFlow p .idle) else none

def go (cfg : Config) (boardId : String) (s : State Socket P) (p : P) : Option (State Socket P) :=
  match s.flow p with
  | .idle => none
  | .joining x permission =>
    if s.free p then
      some { (refreshSocketActivity s x).setFlow p .idle with
        joined := Function.update s.joined x (some permission) }
    else none
  | .loading mutations =>
    if s.free p then some (s.setFlow p (.batch (.begin none mutations))) else none
  | .batch b => goBatch cfg boardId s p b
  | .cleanup r => goCleanup cfg boardId s p r

/-- The batch of the flow asks, hears the answer, and keeps the marker it has claimed. -/
def ask (cfg : Config) (s : State Socket P) (p : P) : Option (State Socket P) :=
  match s.flow p with
  | .batch b =>
    match b.question cfg with
    | some q =>
      some { s.setFlow p (.batch (b.hear cfg (answer cfg s.board.keys q))) with
        board := { s.board with keys := q.exec s.board.keys }
        asked := s.noteAsked cfg p }
    | none => none
  | _ => none

/-- The flow as the operation it runs goes on. -/
def Flow.note (f : Flow Socket) (r : BoardCommands.Run) : Flow Socket :=
  match f with
  | .batch b => .batch (b.note r)
  | _ => f

/-- A command of an operation. The idle check of an eviction reads the presence keys, and its DEL
    takes them too. -/
def boardStep (cfg : Config) (boardId : String) (s : State Socket P) (l : BoardCommands.Label P) :
    Option (State Socket P) :=
  let stepped := BoardCommands.step cfg boardId s.board l
  match l with
  | .command p _ =>
    stepped.map fun board =>
      { s.setFlow p ((s.flow p).note (board.run p)) with
        board := board
        asked := s.noteAsked cfg p }
  | .idleCheck _ idle =>
    let (isIdle, presence) := s.presence.isBoardIdleForFlush
    if idle = isIdle then
      stepped.map fun board => { s with board := board, presence := presence }
    else none
  | .scanPage _ _ => stepped.map fun board => { s with board := board }
  | .del p =>
    stepped.map fun board =>
      { s with board := board, presence := s.presence.delete (s.board.run p).found }
  | .loadLockExpires => stepped.map fun board => { s with board := board }
  | .evictionLockExpires => stepped.map fun board => { s with board := board }
  -- operations are started by the flows
  | .loadBoard _ | .applyChangeSet _ _ | .persistBoard _ | .flushBoard _ _ => none

def step (cfg : Config) (boardId : String) (s : State Socket P) :
    Label Socket P → Option (State Socket P)
  | .advance ms => some { s with presence := { s.presence with now := s.presence.now + ms } }
  | .join x p permission =>
    if s.ready p then s.start cfg boardId p (.joining x permission) (.loadBoard p) else none
  | .leave x =>
    some { s with joined := Function.update s.joined x none, presence := s.presence.remove x }
  | .activity x => if (s.joined x).isSome then some (refreshSocketActivity s x) else none
  | .send x p mutations =>
    if mutations.isEmpty || MAX_MUTATION_BATCH < mutations.length
        || !hasConsistentBatchBoardId boardId mutations || s.joined x ≠ some .edit
        || !s.ready p then
      none
    -- no load: the batch works on whatever keys are there
    else some (s.setFlow p (.batch (.begin (some x) mutations)))
  | .post p mutations =>
    if mutations.isEmpty || !hasConsistentBatchBoardId boardId mutations || !s.ready p then none
    else s.start cfg boardId p (.loading mutations) (.loadBoard p)
  | .ask p => ask cfg s p
  | .go p => go cfg boardId s p
  | .persistBoard p => if s.ready p then s.start cfg boardId p .idle (.persistBoard p) else none
  | .probeInactive p seqIdle =>
    if s.ready p && Cleanup.isInactive s.board.keys s.presence.now seqIdle then
      some (s.setFlow p (.cleanup .candidate))
    else none
  | .fails p => if s.free p then some (s.setFlow p .idle) else none
  | .board l => boardStep cfg boardId s l

/-- The board has no key, nobody has joined, and nobody is at work. -/
structure Init (s : State Socket P) : Prop where
  board : BoardCommands.Init s.board
  joined : ∀ x, s.joined x = none
  flow : ∀ p, s.flow p = .idle
  asked : s.asked = []

def system (Socket P : Type) [DecidableEq Socket] [DecidableEq P] (cfg : Config)
    (boardId : String) : System (State Socket P) (Label Socket P) where
  init := Init
  step := step cfg boardId

end system

/-! ### Complete batches -/

/-- The keys that a load would leave. -/
def loadedKeys (boardId : String) (db : Postgres) (k : BoardKeys) : BoardKeys :=
  (loadBoard boardId ⟨fun _ => k, db⟩).redis boardId

/-- The question was answered as if the board had been loaded, and elements were read from the
    complete board. -/
structure Asked.AsLoaded (cfg : Config) (boardId : String) (a : Asked) : Prop where
  complete : a.question.readsElements = true → HoldsRows boardId a.keys a.db
  answer : answer cfg a.keys a.question = answer cfg (loadedKeys boardId a.db a.keys) a.question

/-- Every question of a socket's batch was. -/
def BatchesComplete {Socket P : Type} (cfg : Config) (boardId : String) (s : State Socket P) :
    Prop :=
  ∀ a ∈ s.asked, a.AsLoaded cfg boardId

/-- A question finds the board loaded, or without rows; and no change is in its pipeline when it
    reads elements. -/
structure Finds {P : Type} (boardId : String) (s : BoardCommands.State P) (q : Question) :
    Prop where
  loaded : s.keys.seq.isSome ∨ s.db.rowsOf boardId = []
  settled : q.readsElements = true → ∀ r, (s.run r).pipeline = []

/-- The step condition: the commands of the operations are in order, and the questions of a socket's
    batch find the board. -/
def FindsBoard {Socket P : Type} (cfg : Config) (boardId : String) (s : State Socket P) :
    Label Socket P → Prop
  | .ask p => ∀ q ∈ s.question cfg p, Finds boardId s.board q
  | .board (.command p now) => BoardCommands.Orderly cfg boardId s.board (.command p now) ∧
      ∀ q ∈ s.question cfg p, Finds boardId s.board q
  | .board l => BoardCommands.Orderly cfg boardId s.board l
  | _ => True

section decidable
variable {Socket P : Type} [DecidableEq P] [Fintype P]

instance (boardId : String) (s : BoardCommands.State P) (q : Question) :
    Decidable (Finds boardId s q) :=
  decidable_of_iff
    ((s.keys.seq.isSome ∨ (s.db.rowsOf boardId).isEmpty) ∧
      (q.readsElements = true → ∀ r, (s.run r).pipeline.isEmpty))
    ⟨fun h => ⟨h.1.imp id List.isEmpty_iff.mp, fun hq r => List.isEmpty_iff.mp (h.2 hq r)⟩,
      fun h => ⟨h.loaded.imp id List.isEmpty_iff.mpr,
        fun hq r => List.isEmpty_iff.mpr (h.settled hq r)⟩⟩

instance (cfg : Config) (boardId : String) (s : State Socket P) (l : Label Socket P) :
    Decidable (FindsBoard cfg boardId s l) := by
  unfold FindsBoard
  split <;> infer_instance

end decidable

section complete
variable {P : Type} {cfg : Config} {boardId : String} {s : BoardCommands.State P} {q : Question}

theorem loadedKeys_of_loaded {db : Postgres} {k : BoardKeys} (h : k.seq.isSome) :
    loadedKeys boardId db k = k := by
  simp [loadedKeys, loadBoard, h]

/-- Without rows a load sets the sequence, and no answer tells. -/
theorem answer_loadedKeys_of_no_rows {db : Postgres} (h : db.rowsOf boardId = []) (k : BoardKeys) :
    answer cfg k q = answer cfg (loadedKeys boardId db k) q := by
  cases hseq : k.seq with
  | some n => rw [loadedKeys_of_loaded (by rw [hseq]; rfl)]
  | none =>
    have hkeys : loadedKeys boardId db k = { k with seq := some 0 } := by
      simp [loadedKeys, loadBoard, hseq, loadedElements, h]
    rw [hkeys]
    cases q with
    | elements ids => rfl
    | allElements => rfl
    | claim mutationId => rw [answer, answer, tryMarkSeen, tryMarkSeen]; split <;> rfl
    | sequence => rw [answer, answer, peekSequence, peekSequence, hseq]; rfl
    | number => rw [answer, answer, getSequence, getSequence, peekSequence, peekSequence, hseq]; rfl

/-- While no change is in its pipeline, a consistent board that is loaded holds its rows. -/
theorem holdsRows_of_settled (h : BoardCommands.Consistent cfg boardId s)
    (hloaded : s.keys.seq.isSome) (hsettled : ∀ r, (s.run r).pipeline = []) :
    HoldsRows boardId s.keys s.db := by
  intro id hrow hdeleted
  rcases (h.rows hloaded id hrow).resolve_right hdeleted with hheld | ⟨r, hunlisted⟩
  · exact hheld
  · have hnone : (s.run r).unlisted id = false :=
      BoardCommands.Run.midway_of_pipeline (hsettled r) _ _
    rw [hnone] at hunlisted
    cases hunlisted

theorem Finds.asLoaded (hfinds : Finds boardId s q) (h : BoardCommands.Consistent cfg boardId s) :
    (⟨q, s.keys, s.db⟩ : Asked).AsLoaded cfg boardId := by
  rcases hfinds.loaded with hloaded | hnone
  · refine ⟨fun hq => holdsRows_of_settled h hloaded (hfinds.settled hq), ?_⟩
    rw [loadedKeys_of_loaded hloaded]
  · exact ⟨fun _ => holdsRows_of_no_rows hnone s.keys, answer_loadedKeys_of_no_rows hnone s.keys⟩

end complete

/-! ### What a step does -/

section effect
variable {Socket P : Type} {cfg : Config} {boardId : String} {s s' : State Socket P}

/-- A step of a batch or of its presence leaves what the invariant of the board looks at. -/
structure Aside (b b' : BoardCommands.State P) : Prop where
  same : BoardCommands.SameBoard b b'
  seq : b'.keys.seq = b.keys.seq
  run : b'.run = b.run
  loadLock : b'.loadLock = b.loadLock

theorem aside_keys {b : BoardCommands.State P} {keys : BoardKeys}
    (helements : keys.elements = b.keys.elements)
    (hdirty : keys.dirtyElementIds = b.keys.dirtyElementIds)
    (hdeleted : keys.deletedElementIds = b.keys.deletedElementIds)
    (hepoch : keys.dirtyEpoch = b.keys.dirtyEpoch) (hseq : keys.seq = b.keys.seq) :
    Aside b { b with keys := keys } :=
  ⟨⟨fun _ _ _ => rfl, helements, hdirty, hdeleted, hepoch, rfl, rfl, rfl⟩, hseq, rfl, rfl⟩

theorem aside_refl (b : BoardCommands.State P) : Aside b b := aside_keys rfl rfl rfl rfl rfl

theorem aside_refreshSocketActivity [DecidableEq Socket] (s : State Socket P) (x : Socket) :
    Aside s.board (refreshSocketActivity s x).board :=
  aside_keys rfl rfl rfl rfl rfl

section steps
variable [DecidableEq P]

/-- What a step does to the board, and to the questions that were asked. -/
inductive Effect (cfg : Config) (boardId : String) (s s' : State Socket P) :
    Label Socket P → Prop where
  | aside {l : Label Socket P} (board : Aside s.board s'.board) (asked : s'.asked = s.asked) :
      Effect cfg boardId s s' l
  | start {l : Label Socket P} {bl : BoardCommands.Label P}
      (step : BoardCommands.step cfg boardId s.board bl = some s'.board)
      (orderly : BoardCommands.Orderly cfg boardId s.board bl) (asked : s'.asked = s.asked) :
      Effect cfg boardId s s' l
  | ask {p : P} (board : Aside s.board s'.board) (asked : s'.asked = s.noteAsked cfg p) :
      Effect cfg boardId s s' (.ask p)
  | command {p : P} {now : Nat}
      (step : BoardCommands.step cfg boardId s.board (.command p now) = some s'.board)
      (asked : s'.asked = s.noteAsked cfg p) : Effect cfg boardId s s' (.board (.command p now))
  | board {bl : BoardCommands.Label P}
      (step : BoardCommands.step cfg boardId s.board bl = some s'.board)
      (cond : FindsBoard cfg boardId s (.board bl) →
        BoardCommands.Orderly cfg boardId s.board bl)
      (asked : s'.asked = s.asked) : Effect cfg boardId s s' (.board bl)

theorem effect_start {l : Label Socket P} {p : P} {f : Flow Socket} {bl : BoardCommands.Label P}
    (hstep : s.start cfg boardId p f bl = some s')
    (horderly : BoardCommands.Orderly cfg boardId s.board bl) : Effect cfg boardId s s' l := by
  unfold State.start at hstep
  obtain ⟨board, hboard, rfl⟩ := Option.map_eq_some_iff.mp hstep
  exact .start hboard horderly rfl

theorem effect_ask {p : P} (hstep : ask cfg s p = some s') :
    Effect cfg boardId s s' (.ask p) := by
  unfold ask at hstep
  split at hstep
  · split at hstep
    · next q _ =>
      obtain rfl := Option.some.inj hstep
      refine .ask ?_ rfl
      cases q with
      | claim mutationId =>
        -- the SET NX sets a marker of its own
        simp only [Question.exec, tryMarkSeen]
        split <;> exact aside_keys rfl rfl rfl rfl rfl
      | _ => exact aside_refl _
    · cases hstep
  · cases hstep

theorem effect_board {bl : BoardCommands.Label P} (hstep : boardStep cfg boardId s bl = some s') :
    Effect cfg boardId s s' (.board bl) := by
  cases bl with
  | command p now =>
    simp only [boardStep] at hstep
    obtain ⟨board, hboard, rfl⟩ := Option.map_eq_some_iff.mp hstep
    exact .command hboard rfl
  | idleCheck p idle =>
    simp only [boardStep] at hstep
    split at hstep
    · obtain ⟨board, hboard, rfl⟩ := Option.map_eq_some_iff.mp hstep
      exact .board hboard (fun h => h) rfl
    · cases hstep
  | scanPage p page =>
    simp only [boardStep] at hstep
    obtain ⟨board, hboard, rfl⟩ := Option.map_eq_some_iff.mp hstep
    exact .board hboard (fun h => h) rfl
  | del p =>
    simp only [boardStep] at hstep
    obtain ⟨board, hboard, rfl⟩ := Option.map_eq_some_iff.mp hstep
    exact .board hboard (fun h => h) rfl
  | loadLockExpires =>
    simp only [boardStep] at hstep
    obtain ⟨board, hboard, rfl⟩ := Option.map_eq_some_iff.mp hstep
    exact .board hboard (fun h => h) rfl
  | evictionLockExpires =>
    simp only [boardStep] at hstep
    obtain ⟨board, hboard, rfl⟩ := Option.map_eq_some_iff.mp hstep
    exact .board hboard (fun h => h) rfl
  | loadBoard p => cases hstep
  | applyChangeSet p call => cases hstep
  | persistBoard p => cases hstep
  | flushBoard p requireIdle => cases hstep

theorem effect_goBatch {p : P} {b : Batch Socket} (hstep : goBatch cfg boardId s p b = some s') :
    Effect cfg boardId s s' (.go p) := by
  unfold goBatch at hstep
  split at hstep
  · obtain rfl := Option.some.inj hstep
    exact .aside (aside_refl _) rfl
  · split at hstep
    · obtain rfl := Option.some.inj hstep
      exact .aside (aside_refl _) rfl
    · cases hstep
  · split at hstep
    · exact effect_start hstep trivial
    · obtain rfl := Option.some.inj hstep
      exact .aside (aside_refl _) rfl
  · exact effect_start hstep trivial
  · split at hstep
    · obtain rfl := Option.some.inj hstep
      exact .aside (aside_refl _) rfl
    · cases hstep
  · split at hstep
    · obtain rfl := Option.some.inj hstep
      exact .aside (aside_refl _) rfl
    · cases hstep
  · cases hstep

theorem effect_goCleanup {p : P} {r : CleanupRun} (hstep : goCleanup cfg boardId s p r = some s') :
    Effect cfg boardId s s' (.go p) := by
  cases r with
  | candidate =>
    simp only [goCleanup] at hstep
    split at hstep
    · obtain rfl := Option.some.inj hstep
      exact .aside (aside_refl _) rfl
    · unfold State.start at hstep
      obtain ⟨board, hboard, rfl⟩ := Option.map_eq_some_iff.mp hstep
      exact .start hboard trivial rfl
  | persisting =>
    simp only [goCleanup] at hstep
    split at hstep
    · exact effect_start hstep trivial
    · cases hstep
  | evicting =>
    simp only [goCleanup] at hstep
    split at hstep
    · obtain rfl := Option.some.inj hstep
      exact .aside (aside_refl _) rfl
    · cases hstep

variable [DecidableEq Socket]

theorem effect_go {p : P} (hstep : go cfg boardId s p = some s') :
    Effect cfg boardId s s' (.go p) := by
  unfold go at hstep
  split at hstep
  · cases hstep
  · next x _ _ =>
    split at hstep
    · obtain rfl := Option.some.inj hstep
      exact .aside (aside_refreshSocketActivity s x) rfl
    · cases hstep
  · split at hstep
    · obtain rfl := Option.some.inj hstep
      exact .aside (aside_refl _) rfl
    · cases hstep
  · exact effect_goBatch hstep
  · exact effect_goCleanup hstep

theorem step_effect {l : Label Socket P} (hstep : step cfg boardId s l = some s') :
    Effect cfg boardId s s' l := by
  cases l with
  | advance ms =>
    obtain rfl := Option.some.inj hstep
    exact .aside (aside_refl _) rfl
  | join x p permission =>
    simp only [step] at hstep
    split at hstep
    · exact effect_start hstep trivial
    · cases hstep
  | leave x =>
    obtain rfl := Option.some.inj hstep
    exact .aside (aside_refl _) rfl
  | activity x =>
    simp only [step] at hstep
    split at hstep
    · obtain rfl := Option.some.inj hstep
      exact .aside (aside_refreshSocketActivity s x) rfl
    · cases hstep
  | send x p mutations =>
    simp only [step] at hstep
    split at hstep
    · cases hstep
    · obtain rfl := Option.some.inj hstep
      exact .aside (aside_refl _) rfl
  | post p mutations =>
    simp only [step] at hstep
    split at hstep
    · cases hstep
    · exact effect_start hstep trivial
  | ask p => exact effect_ask hstep
  | go p => exact effect_go hstep
  | persistBoard p =>
    simp only [step] at hstep
    split at hstep
    · exact effect_start hstep trivial
    · cases hstep
  | probeInactive p seqIdle =>
    simp only [step] at hstep
    split at hstep
    · obtain rfl := Option.some.inj hstep
      exact .aside (aside_refl _) rfl
    · cases hstep
  | fails p =>
    simp only [step] at hstep
    split at hstep
    · obtain rfl := Option.some.inj hstep
      exact .aside (aside_refl _) rfl
    · cases hstep
  | board bl => exact effect_board hstep

end steps

end effect

/-! ### The runs -/

section run
variable {Socket P : Type} {cfg : Config} {boardId : String} {s s' : State Socket P}

/-- The invariant: the board is consistent, and every question found it complete. -/
structure Inv (cfg : Config) (boardId : String) (s : State Socket P) : Prop where
  board : BoardCommands.Consistent cfg boardId s.board
  asked : BatchesComplete cfg boardId s

theorem consistent_aside [DecidableEq P] {b b' : BoardCommands.State P} (p : P)
    (h : BoardCommands.Consistent cfg boardId b) (haside : Aside b b') :
    BoardCommands.Consistent cfg boardId b' := by
  refine h.stores p haside.same haside.seq haside.run fun q hloading => ?_
  rw [haside.loadLock]
  exact h.lock q hloading

theorem batchesComplete_noteAsked {p : P} (h : Inv cfg boardId s)
    (hfinds : ∀ q ∈ s.question cfg p, Finds boardId s.board q)
    (hasked : s'.asked = s.noteAsked cfg p) : BatchesComplete cfg boardId s' := by
  intro a ha
  rw [hasked, State.noteAsked, List.mem_append] at ha
  rcases ha with ha | ha
  · exact h.asked a ha
  · obtain ⟨q, hq, rfl⟩ := List.mem_map.mp ha
    exact (hfinds q (Option.mem_toList.mp hq)).asLoaded h.board

theorem Inv.of_asked (h : Inv cfg boardId s)
    (hboard : BoardCommands.Consistent cfg boardId s'.board) (hasked : s'.asked = s.asked) :
    Inv cfg boardId s' := by
  refine ⟨hboard, ?_⟩
  intro a ha
  rw [hasked] at ha
  exact h.asked a ha

theorem inv_init (h : Init s) : Inv cfg boardId s := by
  refine ⟨h.board.consistent, ?_⟩
  intro a ha
  rw [h.asked] at ha
  cases ha

section steps
variable [DecidableEq Socket] [DecidableEq P] [Nonempty P]

theorem inv_step {l : Label Socket P} (h : Inv cfg boardId s)
    (hcond : FindsBoard cfg boardId s l) (hstep : step cfg boardId s l = some s') :
    Inv cfg boardId s' := by
  have haside : Aside s.board s'.board → BoardCommands.Consistent cfg boardId s'.board :=
    consistent_aside (Classical.arbitrary P) h.board
  cases step_effect hstep with
  | aside board asked => exact h.of_asked (haside board) asked
  | start board orderly asked =>
    exact h.of_asked (BoardCommands.consistent_step h.board orderly board) asked
  | ask board asked => exact ⟨haside board, batchesComplete_noteAsked h hcond asked⟩
  | command board asked =>
    exact ⟨BoardCommands.consistent_step h.board hcond.1 board,
      batchesComplete_noteAsked h hcond.2 asked⟩
  | board board cond asked =>
    exact h.of_asked (BoardCommands.consistent_step h.board (cond hcond) board) asked

/-- In every run whose operations are in order and in which a socket's batch always finds the board
    loaded, or without rows, every such batch reads the complete board, and is answered as if the
    board had just been loaded. -/
theorem batchesComplete_of_findsBoard
    (hs : (system Socket P cfg boardId).ReachableUnder (FindsBoard cfg boardId) s) :
    BatchesComplete cfg boardId s := by
  have hinv : Inv cfg boardId s := by
    refine hs.invariant ?_ ?_
    · intro s h
      exact inv_init h
    · intro s l s' h hcond hstep
      exact inv_step h hcond hstep
  exact hinv.asked

end steps

end run

/-! ### Two runs -/

/-- A board with one note, and nobody on it. -/
def start : State Unit Unit where
  board := BoardCommands.start
    { boards := AList.singleton "aaaaaaaa-aaaa-4aaa-8aaa-aaaaaaaaaaaa" ()
      elements := AList.singleton "x" ⟨"aaaaaaaa-aaaa-4aaa-8aaa-aaaaaaaaaaaa", "NOTE", ∅⟩ }
  presence := ⟨0, ⟨∅, fun _ => 0, ∅, fun _ => 0, none⟩, fun _ => none, []⟩
  joined := fun _ => none
  flow := fun _ => .idle
  asked := []

theorem start_init : Init start where
  board := BoardCommands.start_init _
  joined := fun _ => rfl
  flow := fun _ => rfl
  asked := rfl

def commands (n : Nat) : List (Label Unit Unit) := List.replicate n (.board (.command () 0))

/-- The socket joins, and its join loads the board. -/
def join : List (Label Unit Unit) := [.join () () .edit] ++ commands 9 ++ [.go ()]

/-- Three minutes of silence, and the cleanup. -/
def silence : List (Label Unit Unit) :=
  [.advance 180000, .probeInactive () false, .go ()] ++ commands 16 ++ [.go ()] ++ commands 1
    ++ [.board (.idleCheck () true), .board (.scanPage () fun _ => true), .board (.del ())]
    ++ commands 5 ++ [.go ()]

/-- The socket brings the note to the front. Its batch reads the note, asks for the mode, claims the
    mutation, and starts to change the note by so many commands. -/
def reorder (n : Nat) : List (Label Unit Unit) :=
  [.send () () [⟨"m", "aaaaaaaa-aaaa-4aaa-8aaa-aaaaaaaaaaaa", .reorderElement "x" 1⟩], .ask (),
    .go (), .ask (), .go ()] ++ commands n ++ [.go ()]

/-- Which of the batch's mutations changed something. -/
def State.changes (s : State Unit Unit) : List Bool :=
  match s.flow () with
  | .batch b => b.results.map (·.change.isSome)
  | _ => []

/-- A socket that loaded the board when it joined. -/
theorem batchesComplete_of_findsBoard_run :
    ∃ s : State Unit Unit, s.asked.length = 3 ∧ s.changes = [true] ∧
      BatchesComplete {} "aaaaaaaa-aaaa-4aaa-8aaa-aaaaaaaaaaaa" s := by
  obtain ⟨s, hs, hasked, hchanges⟩ : ∃ s,
      (system Unit Unit {} "aaaaaaaa-aaaa-4aaa-8aaa-aaaaaaaaaaaa").execUnder
        (FindsBoard {} "aaaaaaaa-aaaa-4aaa-8aaa-aaaaaaaaaaaa") start (join ++ reorder 16) =
          some s ∧
        s.asked.length = 3 ∧ s.changes = [true] :=
    ⟨_, rfl, rfl, rfl⟩
  exact ⟨s, hasked, hchanges, batchesComplete_of_findsBoard (.execUnder (.init start_init) hs)⟩

/-- A socket joins and falls silent for three minutes; the board is evicted. Its next batch reads an
    empty hash and changes nothing; the loaded board would have shown it the note. -/
theorem silent_socket_finds_nothing :
    ∃ s : State Unit Unit,
      (system Unit Unit {} "aaaaaaaa-aaaa-4aaa-8aaa-aaaaaaaaaaaa").Reachable s ∧
      s.joined () = some .edit ∧ s.question {} () = some .sequence ∧ s.changes = [] ∧
      ¬ BatchesComplete {} "aaaaaaaa-aaaa-4aaa-8aaa-aaaaaaaaaaaa" s := by
  obtain ⟨s, a, hs, hjoined, hquestion, hchanges, hasked, hreads, hrow, hdeleted, hmissing⟩ : ∃ s a,
      (system Unit Unit {} "aaaaaaaa-aaaa-4aaa-8aaa-aaaaaaaaaaaa").exec start
        (join ++ silence ++ reorder 3) = some s ∧
      s.joined () = some .edit ∧ s.question {} () = some .sequence ∧ s.changes = [] ∧
      s.asked.head? = some a ∧ a.question.readsElements = true ∧
      (a.db.ownRow "aaaaaaaa-aaaa-4aaa-8aaa-aaaaaaaaaaaa" "x").isSome ∧
      a.keys.deletedElementIds = ∅ ∧ a.keys.elements.lookup "x" = none :=
    ⟨_, _, rfl, rfl, rfl, rfl, rfl, rfl, rfl, rfl, rfl⟩
  refine ⟨s, .exec (.init start_init) hs, hjoined, hquestion, hchanges, ?_⟩
  intro hcomplete
  have hpresent := (hcomplete a (List.mem_of_head? hasked)).complete hreads "x" hrow
    (by rw [hdeleted]; simp)
  rw [hmissing] at hpresent
  cases hpresent

end Notebortt.SocketBatches
