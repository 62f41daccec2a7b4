import Notebortt.Realtime.QueuedMoves

/-! # When the pending moves are flushed

    The tick persistence manager and the CRDT rooms of one process, with the
    times at which their timers are due. Two timers flush a board's moves: one
    starts anew with every call that queues, the other one does not, and bounds
    the wait. The room of the CRDT is filled by the observer of its document,
    which `Y.applyUpdate` calls, and scheduled after it.

    What a flush does after its first await writes no pending map and no timer;
    a step here is the part before it. -/

open Transition
open Notebortt.QueuedMoves (PendingMove Position Source Timer KeyChange observedMoves)

namespace Notebortt.FlushTimers

/-! ### Delays -/

/-- The longest delay of `setTimeout`. -/
def TIMEOUT_MAX : Nat := 2147483647

/-- The delays of a manager, in the range that `setTimeout` takes as it is. -/
structure Waits where
  debounceMs : Nat
  maxWaitMs : Nat
  debounceMs_range : 1 ≤ debounceMs ∧ debounceMs ≤ TIMEOUT_MAX
  maxWaitMs_range : 1 ≤ maxWaitMs ∧ maxWaitMs ≤ TIMEOUT_MAX

def TICK_PERSIST_DEBOUNCE_MS : Nat := 400

def TICK_PERSIST_MAX_WAIT_MS : Nat := 1500

def DEFAULT_CRDT_DEBOUNCE_MS : Nat := 400

def DEFAULT_CRDT_MAX_WAIT_MS : Nat := 1600

def tickWaits : Waits := ⟨TICK_PERSIST_DEBOUNCE_MS, TICK_PERSIST_MAX_WAIT_MS, by decide, by decide⟩

/-- Without options. -/
def defaultCrdtWaits : Waits :=
  ⟨DEFAULT_CRDT_DEBOUNCE_MS, DEFAULT_CRDT_MAX_WAIT_MS, by decide, by decide⟩

/-! ### Buffers -/

structure Queued where
  position : PendingMove
  /-- Ghost: when a move of the element came into the pending map. -/
  queuedAt : Nat

/-- What a manager holds for a board, a timer as the time it is due. A board that is in none of its
    maps has the empty buffer. -/
structure Buffer where
  pending : InsertionMap String Queued
  debounceTimer : Option Nat
  maxWaitTimer : Option Nat

def Buffer.empty : Buffer := ⟨.empty, none, none⟩

namespace Buffer

variable (w : Waits) (now : Nat) (b : Buffer)

def timer : Timer → Option Nat
  | .debounce => b.debounceTimer
  | .maxWait => b.maxWaitTimer

/-- The callback of a timer first takes the timer out. -/
def fired : Timer → Buffer
  | .debounce => { b with debounceTimer := none }
  | .maxWait => { b with maxWaitTimer := none }

def clearTimers : Buffer := { b with debounceTimer := none, maxWaitTimer := none }

/-- A flush up to its first await. One of an empty buffer returns at once, and keeps the timers. -/
def flush : Buffer :=
  if b.pending.isEmpty then b else { b.clearTimers with pending := .empty }

/-- The debounce timer starts anew; the other one starts when it is not running. -/
def schedule : Buffer :=
  { b with
    debounceTimer := some (now + w.debounceMs)
    maxWaitTimer := b.maxWaitTimer.or (some (now + w.maxWaitMs)) }

/-- A position enters the pending map. -/
def put (m : String × PendingMove) : Buffer :=
  { b with
    pending := b.pending.set m.1 ⟨m.2, (b.pending.get? m.1).elim now Queued.queuedAt⟩ }

def queue (moves : List (String × PendingMove)) : Buffer := moves.foldl (fun b m => b.put now m) b

end Buffer

/-! ### The managers -/

structure State where
  now : Nat
  buffers : Source → String → Buffer

section managers
variable (crdt : Waits)

def waits : Source → Waits
  | .tick => tickWaits
  | .crdt => crdt

namespace State

variable (s : State)

def setBuffer (source : Source) (boardId : String) (b : Buffer) : State :=
  { s with
    buffers := Function.update s.buffers source (Function.update (s.buffers source) boardId b) }

def queue (source : Source) (boardId : String) (moves : List (String × PendingMove)) : State :=
  s.setBuffer source boardId ((s.buffers source boardId).queue s.now moves)

def schedule (source : Source) (boardId : String) : State :=
  s.setBuffer source boardId ((s.buffers source boardId).schedule (waits crdt source) s.now)

def flush (source : Source) (boardId : String) : State :=
  s.setBuffer source boardId (s.buffers source boardId).flush

end State

def scheduleTickPersist (s : State) (boardId : String) : State := s.schedule crdt .tick boardId

def queueMoves (s : State) (boardId : String) (moves : List (String × Position)) : State :=
  if moves.isEmpty then s
  else
    scheduleTickPersist crdt
      (s.queue .tick boardId (moves.map fun m => (m.1, m.2.pending))) boardId

def flushTickMoves (s : State) (boardId : String) : State := s.flush .tick boardId

def clearBoard (s : State) (boardId : String) : State := s.setBuffer .tick boardId .empty

/-- How `Y.applyUpdate` ends. It calls the observer in either case. -/
inductive Outcome where
  | returns
  | throws
deriving DecidableEq

def scheduleFlush (s : State) (boardId : String) : State := s.schedule crdt .crdt boardId

def applyRemoteUpdate (s : State) (boardId : String) (changes : List KeyChange) :
    Outcome → State
  | .returns => scheduleFlush crdt (s.queue .crdt boardId (observedMoves changes)) boardId
  | .throws => s.queue .crdt boardId (observedMoves changes)

def flushNow (s : State) (boardId : String) : State := s.flush .crdt boardId

def clearRoom (s : State) (boardId : String) : State := s.setBuffer .crdt boardId .empty

/-! ### Steps -/

inductive Label where
  | wait (ms : Nat)
  | queueMoves (boardId : String) (moves : List (String × Position))
  | applyRemoteUpdate (boardId : String) (changes : List KeyChange) (outcome : Outcome)
  | timerFires (source : Source) (boardId : String) (timer : Timer)
  | flush (source : Source) (boardId : String)
  | clear (source : Source) (boardId : String)

def flushOf : Source → State → String → State
  | .tick => flushTickMoves
  | .crdt => flushNow

def clearOf : Source → State → String → State
  | .tick => clearBoard
  | .crdt => clearRoom

/-- The callback of a timer. -/
def onTimer (s : State) (source : Source) (boardId : String) (timer : Timer) : State :=
  flushOf source (s.setBuffer source boardId ((s.buffers source boardId).fired timer)) boardId

/-- A timer fires when it is due, or later. -/
def step (s : State) : Label → Option State
  | .wait ms => some { s with now := s.now + ms }
  | .queueMoves boardId moves => some (queueMoves crdt s boardId moves)
  | .applyRemoteUpdate boardId changes outcome =>
    some (applyRemoteUpdate crdt s boardId changes outcome)
  | .timerFires source boardId timer =>
    if ((s.buffers source boardId).timer timer).any (· ≤ s.now) then
      some (onTimer s source boardId timer)
    else none
  | .flush source boardId => some (flushOf source s boardId)
  | .clear source boardId => some (clearOf source s boardId)

/-- The process has started. -/
def Init (s : State) : Prop := ∀ source boardId, s.buffers source boardId = .empty

def system : System State Label where
  init := Init
  step := step crdt

end managers

/-! ### Timers of what is pending -/

/-- Both timers are armed, and the one that bounds the wait is due in time for every move. -/
structure Buffer.Armed (w : Waits) (b : Buffer) : Prop where
  debounce : b.debounceTimer.isSome = true
  maxWait : ∃ due, b.maxWaitTimer = some due ∧
    ∀ elementId q, b.pending.get? elementId = some q → due ≤ q.queuedAt + w.maxWaitMs

/-- If anything is pending, the timers are armed for it. -/
def Buffer.Scheduled (w : Waits) (b : Buffer) : Prop := b.pending.isEmpty = false → b.Armed w

def AllScheduled (crdt : Waits) (s : State) : Prop :=
  ∀ source boardId, (s.buffers source boardId).Scheduled (waits crdt source)

/-- An update that throws has reported no position, or finds both timers armed. -/
def ThrowsScheduled (s : State) : Label → Prop
  | .applyRemoteUpdate boardId changes .throws =>
    (observedMoves changes).isEmpty = true ∨
      ((s.buffers .crdt boardId).debounceTimer.isSome = true ∧
        (s.buffers .crdt boardId).maxWaitTimer.isSome = true)
  | _ => True

instance (s : State) (l : Label) : Decidable (ThrowsScheduled s l) := by
  unfold ThrowsScheduled
  split <;> infer_instance

/-! ### What the operations leave pending -/

namespace Buffer

variable {w : Waits} {now : Nat} {b : Buffer}

theorem Scheduled.armed (h : b.Scheduled w) {elementId : String} {q : Queued}
    (hget : b.pending.get? elementId = some q) : b.Armed w :=
  h (b.pending.isEmpty_eq_false_iff.mpr ⟨elementId, q, hget⟩)

theorem scheduled_of_empty (h : b.pending.isEmpty = true) : b.Scheduled w := by
  intro hpending
  rw [h] at hpending
  cases hpending

/-- After its own part a flush has left nothing pending. -/
theorem isEmpty_flush : b.flush.pending.isEmpty = true := by
  unfold flush
  split
  · next h => exact h
  · rfl

variable (now b) in
theorem queue_timers (moves : List (String × PendingMove)) :
    (b.queue now moves).debounceTimer = b.debounceTimer ∧
      (b.queue now moves).maxWaitTimer = b.maxWaitTimer := by
  induction moves generalizing b with
  | nil => exact ⟨rfl, rfl⟩
  | cons m moves ih => exact ih (b.put now m)

/-- What is pending after a put came in now, or was pending as long before. -/
theorem get?_put {m : String × PendingMove} {elementId : String} {q : Queued}
    (h : (b.put now m).pending.get? elementId = some q) :
    q.queuedAt = now ∨ ∃ q', b.pending.get? elementId = some q' ∧ q'.queuedAt = q.queuedAt := by
  unfold put at h
  dsimp only at h
  rw [InsertionMap.get?_set] at h
  split at h
  · next heq =>
    subst heq
    obtain rfl := Option.some.inj h
    cases hget : b.pending.get? m.1 with
    | none => exact .inl rfl
    | some q' => exact .inr ⟨q', rfl, rfl⟩
  · exact .inr ⟨q, h, rfl⟩

theorem get?_queue {moves : List (String × PendingMove)} {elementId : String} {q : Queued}
    (h : (b.queue now moves).pending.get? elementId = some q) :
    q.queuedAt = now ∨ ∃ q', b.pending.get? elementId = some q' ∧ q'.queuedAt = q.queuedAt := by
  induction moves generalizing b with
  | nil => exact .inr ⟨q, h, rfl⟩
  | cons m moves ih =>
    rcases ih (b := b.put now m) h with hnow | ⟨q', hget, hsame⟩
    · exact .inl hnow
    · rcases get?_put hget with hnow | ⟨q'', hget', hsame'⟩
      · exact .inl (hsame.symm.trans hnow)
      · exact .inr ⟨q'', hget', hsame'.trans hsame⟩

theorem isEmpty_put (m : String × PendingMove) : (b.put now m).pending.isEmpty = false := by
  have hget : (b.put now m).pending.get? m.1 =
      some ⟨m.2, (b.pending.get? m.1).elim now Queued.queuedAt⟩ := by
    unfold put
    dsimp only
    rw [InsertionMap.get?_set, if_pos rfl]
  exact (b.put now m).pending.isEmpty_eq_false_iff.mpr ⟨m.1, _, hget⟩

theorem isEmpty_queue_of_pending {moves : List (String × PendingMove)}
    (h : b.pending.isEmpty = false) : (b.queue now moves).pending.isEmpty = false := by
  induction moves generalizing b with
  | nil => exact h
  | cons m moves ih => exact ih (b := b.put now m) (isEmpty_put m)

theorem isEmpty_queue {moves : List (String × PendingMove)} (h : moves.isEmpty = false) :
    (b.queue now moves).pending.isEmpty = false := by
  cases moves with
  | nil => cases h
  | cons m moves => exact isEmpty_queue_of_pending (b := b.put now m) (isEmpty_put m)

/-! ### The timers -/

/-- The time of the running timer, or of one that starts now, is soon enough for the moves that come
    in now and for those that were pending. -/
theorem due_le_queue {moves : List (String × PendingMove)} {due : Nat} (h : b.Scheduled w)
    (hmaxWait : ∀ due' ∈ b.maxWaitTimer, due = due') (hdue : due ≤ now + w.maxWaitMs)
    {elementId : String} {q : Queued}
    (hget : (b.queue now moves).pending.get? elementId = some q) :
    due ≤ q.queuedAt + w.maxWaitMs := by
  rcases get?_queue hget with hnow | ⟨q', hget', hsame⟩
  · omega
  · -- Pending before, so the timer was running, and in time for it.
    obtain ⟨due', hdue', hbound⟩ := (h.armed hget').maxWait
    have hle := hbound elementId q' hget'
    have heq := hmaxWait due' hdue'
    omega

/-- Moves that come in before their flush is scheduled. -/
theorem scheduled_queue_iff {moves : List (String × PendingMove)} (h : b.Scheduled w)
    (hbound : ∀ due ∈ b.maxWaitTimer, due ≤ now + w.maxWaitMs) :
    (b.queue now moves).Scheduled w ↔
      moves.isEmpty = true ∨
        (b.debounceTimer.isSome = true ∧ b.maxWaitTimer.isSome = true) := by
  cases hmoves : moves.isEmpty with
  | true =>
    obtain rfl := List.isEmpty_iff.mp hmoves
    exact iff_of_true h (.inl rfl)
  | false =>
    obtain ⟨hdebounceTimer, hmaxWaitTimer⟩ := queue_timers now b moves
    simp only [Bool.false_eq_true, false_or]
    -- Something is pending now, and the timers are those from before.
    constructor
    · intro hqueue
      obtain ⟨hdebounce, due, hmaxWait, -⟩ := hqueue (isEmpty_queue hmoves)
      rw [hdebounceTimer] at hdebounce
      rw [hmaxWaitTimer] at hmaxWait
      exact ⟨hdebounce, Option.isSome_of_eq_some hmaxWait⟩
    · rintro ⟨hdebounce, hmaxWait⟩ -
      obtain ⟨due, hdue⟩ := Option.isSome_iff_exists.mp hmaxWait
      refine ⟨hdebounceTimer ▸ hdebounce, due, hmaxWaitTimer.trans hdue, ?_⟩
      have honly : ∀ due' ∈ b.maxWaitTimer, due = due' :=
        fun due' hdue' => Option.some.inj (hdue.symm.trans hdue')
      exact fun elementId q => due_le_queue h honly (hbound due hdue)

/-- Moves that come in and are scheduled. -/
theorem scheduled_schedule {moves : List (String × PendingMove)} (h : b.Scheduled w)
    (hbound : ∀ due ∈ b.maxWaitTimer, due ≤ now + w.maxWaitMs) :
    ((b.queue now moves).schedule w now).Scheduled w := by
  obtain ⟨-, hmaxWaitTimer⟩ := queue_timers now b moves
  intro _
  refine ⟨rfl, b.maxWaitTimer.getD (now + w.maxWaitMs), ?_, ?_⟩
  · show (b.queue now moves).maxWaitTimer.or _ = _
    rw [hmaxWaitTimer, Option.or_some]
  · have honly : ∀ due' ∈ b.maxWaitTimer, b.maxWaitTimer.getD (now + w.maxWaitMs) = due' := by
      intro due' hdue'
      rw [hdue', Option.getD_some]
    have hdue : b.maxWaitTimer.getD (now + w.maxWaitMs) ≤ now + w.maxWaitMs := by
      cases hmaxWait : b.maxWaitTimer with
      | none => exact Nat.le_refl _
      | some due => exact hbound due hmaxWait
    exact fun elementId q => due_le_queue h honly hdue

/-! ### Without the times -/

/-- The same buffer in the model that leaves the times out. -/
structure Untimed (b : Buffer) (b' : QueuedMoves.Buffer) : Prop where
  pending : ∀ elementId, (b'.pending.get? elementId).map QueuedMoves.Queued.position =
    (b.pending.get? elementId).map Queued.position
  debounceTimer : b'.debounceTimer = b.debounceTimer.isSome
  maxWaitTimer : b'.maxWaitTimer = b.maxWaitTimer.isSome

section untimed
variable {b' : QueuedMoves.Buffer}

theorem Untimed.isEmpty (h : Untimed b b') : b'.pending.isEmpty = b.pending.isEmpty := by
  have hiff : b'.pending.isEmpty = false ↔ b.pending.isEmpty = false := by
    rw [InsertionMap.isEmpty_eq_false_iff, InsertionMap.isEmpty_eq_false_iff]
    refine exists_congr fun elementId => ?_
    rw [← Option.isSome_iff_exists, ← Option.isSome_iff_exists,
      ← Option.isSome_map (f := QueuedMoves.Queued.position), h.pending, Option.isSome_map]
  cases hempty : b.pending.isEmpty with
  | true => exact Bool.eq_true_of_not_eq_false fun hne => by simp [hiff.mp hne] at hempty
  | false => exact hiff.mpr hempty

theorem Untimed.queue (h : Untimed b b') (stamp : Nat) (moves : List (String × PendingMove)) :
    Untimed (b.queue now moves) (b'.queue (moves.map fun m => (m.1, ⟨m.2, stamp⟩))) := by
  induction moves generalizing b b' with
  | nil => exact h
  | cons m moves ih =>
    have hput : Untimed (b.put now m) { b' with pending := b'.pending.set m.1 ⟨m.2, stamp⟩ } := by
      refine ⟨fun elementId => ?_, h.debounceTimer, h.maxWaitTimer⟩
      unfold put
      dsimp only
      rw [InsertionMap.get?_set, InsertionMap.get?_set]
      split
      · rfl
      · exact h.pending elementId
    exact ih hput

theorem Untimed.schedule (h : Untimed b b') : Untimed (b.schedule w now) b'.schedule := by
  refine ⟨h.pending, rfl, ?_⟩
  show true = (b.maxWaitTimer.or _).isSome
  cases b.maxWaitTimer <;> rfl

theorem Untimed.fired (h : Untimed b b') (timer : Timer) :
    Untimed (b.fired timer) (b'.fired timer) := by
  cases timer with
  | debounce => exact ⟨h.pending, rfl, h.maxWaitTimer⟩
  | maxWait => exact ⟨h.pending, h.debounceTimer, rfl⟩

theorem Untimed.flush (h : Untimed b b') : Untimed b.flush b'.flush.2 := by
  unfold Buffer.flush QueuedMoves.Buffer.flush
  rw [h.isEmpty]
  split
  · exact h
  · exact ⟨fun _ => rfl, rfl, rfl⟩

end untimed

end Buffer

/-! ### What one step does -/

section steps
variable {crdt : Waits} {s s' : State} {source : Source} {boardId : String} {b : Buffer}

/-- What holds of every board's buffers still does, when it holds of the one that is set. -/
theorem forall_setBuffer_iff {P : Source → Buffer → Prop}
    (h : ∀ source boardId, P source (s.buffers source boardId)) :
    (∀ source' boardId', P source' ((s.setBuffer source boardId b).buffers source' boardId')) ↔
      P source b := by
  unfold State.setBuffer
  dsimp only
  constructor
  · intro hall
    have hset := hall source boardId
    rwa [Function.update_self, Function.update_self] at hset
  · intro hset source' boardId'
    by_cases hsource : source' = source
    · subst hsource
      rw [Function.update_self]
      by_cases hboard : boardId' = boardId
      · rwa [hboard, Function.update_self]
      · rw [Function.update_of_ne hboard]
        exact h source' boardId'
    · rw [Function.update_of_ne hsource]
      exact h source' boardId'

theorem setBuffer_self : (s.setBuffer source boardId b).buffers source boardId = b := by
  unfold State.setBuffer
  dsimp only
  rw [Function.update_self, Function.update_self]

theorem setBuffer_setBuffer (b' : Buffer) :
    (s.setBuffer source boardId b').setBuffer source boardId b = s.setBuffer source boardId b := by
  unfold State.setBuffer
  dsimp only
  rw [Function.update_self, Function.update_idem, Function.update_idem]

/-- The tables of the two managers that a step leaves. -/
inductive Effect (crdt : Waits) (s : State) (l : Label) (s' : State) : Prop where
  | waits (ms : Nat) : ThrowsScheduled s l → s' = { s with now := s.now + ms } →
      Effect crdt s l s'
  | unchanged : ThrowsScheduled s l → s' = s → Effect crdt s l s'
  | queues (source : Source) (boardId : String) (moves : List (String × PendingMove)) :
      ThrowsScheduled s l →
      s' = s.setBuffer source boardId
        (((s.buffers source boardId).queue s.now moves).schedule (waits crdt source) s.now) →
      Effect crdt s l s'
  /-- `Y.applyUpdate` throws, and nothing is scheduled. -/
  | throws (boardId : String) (changes : List KeyChange) :
      l = .applyRemoteUpdate boardId changes .throws →
      s' = s.setBuffer .crdt boardId
        ((s.buffers .crdt boardId).queue s.now (observedMoves changes)) →
      Effect crdt s l s'
  | empties (source : Source) (boardId : String) (b : Buffer) : ThrowsScheduled s l →
      b.pending.isEmpty = true →
      (∀ due ∈ b.maxWaitTimer, due ∈ (s.buffers source boardId).maxWaitTimer) →
      s' = s.setBuffer source boardId b → Effect crdt s l s'

theorem schedule_queue (moves : List (String × PendingMove)) :
    (s.queue source boardId moves).schedule crdt source boardId =
      s.setBuffer source boardId
        (((s.buffers source boardId).queue s.now moves).schedule (waits crdt source) s.now) := by
  unfold State.schedule State.queue
  rw [setBuffer_self, setBuffer_setBuffer]
  rfl

theorem flushOf_eq : flushOf source s boardId = s.flush source boardId := by
  cases source <;> rfl

theorem clearOf_eq : clearOf source s boardId = s.setBuffer source boardId .empty := by
  cases source <;> rfl

theorem onTimer_eq (timer : Timer) :
    onTimer s source boardId timer =
      s.setBuffer source boardId ((s.buffers source boardId).fired timer).flush := by
  unfold onTimer
  rw [flushOf_eq, State.flush, setBuffer_self, setBuffer_setBuffer]

theorem maxWaitTimer_flush {due : Nat} (h : due ∈ b.flush.maxWaitTimer) :
    due ∈ b.maxWaitTimer := by
  unfold Buffer.flush at h
  split at h
  · exact h
  · cases h

theorem maxWaitTimer_fired {due : Nat} {timer : Timer} (h : due ∈ (b.fired timer).maxWaitTimer) :
    due ∈ b.maxWaitTimer := by
  cases timer with
  | debounce => exact h
  | maxWait => cases h

theorem step_effect {l : Label} (hstep : step crdt s l = some s') : Effect crdt s l s' := by
  cases l with
  | wait ms =>
    obtain rfl := Option.some.inj hstep
    exact .waits ms trivial rfl
  | queueMoves boardId moves =>
    obtain rfl := Option.some.inj hstep
    unfold queueMoves
    split
    · exact .unchanged trivial rfl
    · exact .queues .tick boardId _ trivial (schedule_queue _)
  | applyRemoteUpdate boardId changes outcome =>
    obtain rfl := Option.some.inj hstep
    cases outcome with
    | returns => exact .queues .crdt boardId (observedMoves changes) trivial (schedule_queue _)
    | throws => exact .throws boardId changes rfl rfl
  | timerFires source boardId timer =>
    simp only [step] at hstep
    split at hstep
    · obtain rfl := Option.some.inj hstep
      rw [onTimer_eq]
      exact .empties source boardId _ trivial Buffer.isEmpty_flush
        (fun due hdue => maxWaitTimer_fired (maxWaitTimer_flush hdue)) rfl
    · cases hstep
  | flush source boardId =>
    obtain rfl := Option.some.inj hstep
    rw [flushOf_eq]
    exact .empties source boardId _ trivial Buffer.isEmpty_flush
      (fun due hdue => maxWaitTimer_flush hdue) rfl
  | clear source boardId =>
    obtain rfl := Option.some.inj hstep
    rw [clearOf_eq]
    exact .empties source boardId _ trivial rfl (fun due hdue => by cases hdue) rfl

/-- No timer that bounds the wait is due later than the wait from now. -/
def AllBounded (crdt : Waits) (s : State) : Prop :=
  ∀ source boardId, ∀ due ∈ (s.buffers source boardId).maxWaitTimer,
    due ≤ s.now + (waits crdt source).maxWaitMs

theorem allBounded_step {l : Label} (h : AllBounded crdt s) (hstep : step crdt s l = some s') :
    AllBounded crdt s' := by
  have hset : ∀ {source boardId b},
      (∀ due ∈ b.maxWaitTimer, due ≤ s.now + (waits crdt source).maxWaitMs) →
        AllBounded crdt (s.setBuffer source boardId b) :=
    fun hb => (forall_setBuffer_iff (P := fun source b =>
      ∀ due ∈ b.maxWaitTimer, due ≤ s.now + (waits crdt source).maxWaitMs) h).mpr hb
  cases step_effect hstep with
  | waits ms _ heq =>
    subst heq
    intro source boardId due hdue
    have := h source boardId due hdue
    show due ≤ s.now + ms + _
    omega
  | unchanged _ heq => exact heq ▸ h
  | queues source boardId moves _ heq =>
    -- The timer that was running, or one that starts now.
    subst heq
    refine hset fun due hdue => ?_
    have hmaxWaitTimer := (Buffer.queue_timers s.now (s.buffers source boardId) moves).2
    have hor : due ∈ ((s.buffers source boardId).queue s.now moves).maxWaitTimer.or
        (some (s.now + (waits crdt source).maxWaitMs)) := hdue
    rw [hmaxWaitTimer] at hor
    rcases Option.or_eq_some_iff.mp hor with hdue | ⟨-, hdue⟩
    · exact h source boardId due hdue
    · exact Nat.le_of_eq (Option.some.inj hdue).symm
  | throws boardId changes _ heq =>
    subst heq
    refine hset fun due hdue => ?_
    rw [(Buffer.queue_timers s.now _ _).2] at hdue
    exact h .crdt boardId due hdue
  | empties source boardId b _ _ hdue heq =>
    subst heq
    exact hset fun due hmem => h source boardId due (hdue due hmem)

/-- A step keeps the timers of what is pending exactly when it meets the condition. -/
theorem allScheduled_step_iff {l : Label} (hbounded : AllBounded crdt s)
    (h : AllScheduled crdt s) (hstep : step crdt s l = some s') :
    AllScheduled crdt s' ↔ ThrowsScheduled s l := by
  have hset : ∀ {source boardId b}, AllScheduled crdt (s.setBuffer source boardId b) ↔
      b.Scheduled (waits crdt source) :=
    forall_setBuffer_iff (P := fun source b => b.Scheduled (waits crdt source)) h
  cases step_effect hstep with
  | waits ms hcondition heq =>
    subst heq
    exact iff_of_true h hcondition
  | unchanged hcondition heq => exact iff_of_true (heq ▸ h) hcondition
  | queues source boardId moves hcondition heq =>
    subst heq
    refine iff_of_true (hset.mpr ?_) hcondition
    exact Buffer.scheduled_schedule (h source boardId) (hbounded source boardId)
  | throws boardId changes hl heq =>
    -- The one step that may leave moves without a timer.
    subst hl heq
    exact hset.trans (Buffer.scheduled_queue_iff (h .crdt boardId) (hbounded .crdt boardId))
  | empties source boardId b hcondition hempty _ heq =>
    subst heq
    exact iff_of_true (hset.mpr (Buffer.scheduled_of_empty hempty)) hcondition

/-- Throughout a run the moves pending have both timers armed, with a bounded wait, exactly when
    every update of the run that throws has reported no position or finds both timers armed. -/
theorem throughout_allScheduled_iff {ls : List Label} (hinit : Init s)
    (hrun : (system crdt).exec s ls = some s') :
    (system crdt).Throughout (AllScheduled crdt) s ls ↔
      (system crdt).execUnder ThrowsScheduled s ls = some s' := by
  have hbounded : AllBounded crdt s := by
    intro source boardId due hdue
    rw [hinit source boardId] at hdue
    cases hdue
  have hscheduled : AllScheduled crdt s := by
    intro source boardId hpending
    rw [hinit source boardId] at hpending
    cases hpending
  refine System.throughout_iff_execUnder (M := system crdt) (J := AllBounded crdt) ?_ ?_
    hbounded hscheduled hrun
  · exact fun _ _ _ h hstep => allBounded_step h hstep
  · exact fun _ _ _ hbounded h hstep => allScheduled_step_iff hbounded h hstep

end steps

/-! ### Runs -/

/-- Nothing has been queued. -/
def started : State := ⟨0, fun _ _ => .empty⟩

/-- Two users move, an update throws while the timers of its room are armed, and the tick's debounce
    timer fires. -/
def movesAndUpdates : List Label :=
  [.queueMoves "board" [("a", ⟨1, 2⟩)], .wait 300, .queueMoves "board" [("b", ⟨3, 4⟩)],
    .applyRemoteUpdate "board" [⟨"a", .update, some ⟨.number 5, .number 6⟩⟩] .returns, .wait 100,
    .applyRemoteUpdate "board" [⟨"b", .add, some ⟨.number 7, .number 8⟩⟩] .throws, .wait 300,
    .timerFires .tick "board" .debounce]

theorem throughout_allScheduled_iff_movesAndUpdates :
    (system defaultCrdtWaits).Throughout (AllScheduled defaultCrdtWaits) started
      movesAndUpdates := by
  obtain ⟨s, hs, hunder⟩ : ∃ s,
      (system defaultCrdtWaits).exec started movesAndUpdates = some s ∧
      (system defaultCrdtWaits).execUnder ThrowsScheduled started movesAndUpdates = some s :=
    ⟨_, rfl, rfl⟩
  exact (throughout_allScheduled_iff (fun _ _ => rfl) hs).mpr hunder

/-- The first update of a room reports a position and throws: the position is pending, and no timer
    is armed. -/
theorem throwing_update_unscheduled :
    ∃ s, (system defaultCrdtWaits).exec started
        [.applyRemoteUpdate "board" [⟨"a", .add, some ⟨.number 1, .number 2⟩⟩] .throws] = some s ∧
      (s.buffers .crdt "board").pending.isEmpty = false ∧
      (s.buffers .crdt "board").debounceTimer = none ∧
      (s.buffers .crdt "board").maxWaitTimer = none ∧ ¬ AllScheduled defaultCrdtWaits s := by
  refine ⟨_, rfl, rfl, rfl, rfl, fun h => ?_⟩
  have hdebounce := (h .crdt "board" rfl).debounce
  cases hdebounce

end Notebortt.FlushTimers
