import Mathlib.Data.Fintype.Basic
import Mathlib.Logic.Function.Basic
import Notebortt.Lib.InsertionMap
import Notebortt.Lib.Transition
import Notebortt.Mutations.Types

/-! # The moves that wait to be written

    The two buffers of one board in one process: the tick persistence manager
    and the CRDT room. Both collect positions by element and flush them when a
    timer fires or when a cleanup finds the room empty. A flush empties its
    buffer and then waits, first for `loadBoard` and then for `processBatch`.

    What runs between two awaits is one step. An armed timer may fire at any
    time. The user a flush writes under and the events behind it are left out:
    no step reads them. -/

open Transition

namespace Notebortt.QueuedMoves

/-! ### Buffers -/

structure Position where
  x : Rat
  y : Rat
deriving DecidableEq

/-- A coordinate in a pending map, by what `JSON.stringify` does with it. The shared map of a room
    holds what a client has written there, unchecked. -/
inductive Coordinate where
  | number (value : Rat)
  | undefined
  /-- Any other value with a JSON form, which is `null` for `NaN`. -/
  | other (form : Json)
  /-- A `BigInt`, or a value with one inside: `JSON.stringify` throws. -/
  | unwritable
deriving DecidableEq

/-- The value of an element in a pending map. -/
structure PendingMove where
  x : Coordinate
  y : Coordinate
deriving DecidableEq

def Position.pending (p : Position) : PendingMove := ⟨.number p.x, .number p.y⟩

/-- A move in a pending map. Its stamp is ghost: it tells apart the calls that queue. -/
structure Queued where
  position : PendingMove
  stamp : Nat
deriving DecidableEq

inductive Source where
  | tick
  | crdt
deriving DecidableEq

inductive Timer where
  | debounce
  | maxWait
deriving DecidableEq

/-- What a manager holds for the board. A board that is in none of its maps has the empty buffer. -/
structure Buffer where
  pending : InsertionMap String Queued
  debounceTimer : Bool
  maxWaitTimer : Bool

def Buffer.empty : Buffer := ⟨.empty, false, false⟩

namespace Buffer

variable (b : Buffer)

def armed : Timer → Bool
  | .debounce => b.debounceTimer
  | .maxWait => b.maxWaitTimer

/-- The callback of a timer first takes the timer out. -/
def fired : Timer → Buffer
  | .debounce => { b with debounceTimer := false }
  | .maxWait => { b with maxWaitTimer := false }

def clearTimers : Buffer := { b with debounceTimer := false, maxWaitTimer := false }

/-- The debounce timer starts anew; the other one starts when it is not running. -/
def schedule : Buffer := { b with debounceTimer := true, maxWaitTimer := true }

/-- The positions enter the pending map one after another. -/
def queue (moves : List (String × Queued)) : Buffer := { b with pending := b.pending.setAll moves }

end Buffer

/-! ### Flushes -/

/-- The await a flush is at. -/
inductive FlushPoint where
  | loading
  | processing
  /-- `processBatch` has completed; the events and broadcasts follow. -/
  | processed
deriving DecidableEq

/-- A flush and the moves of its mutation. -/
structure Flush where
  moves : List (String × Queued)
  point : FlushPoint
deriving DecidableEq

/-- A flush up to its first await. A flush of an empty buffer returns at once, and keeps the
    timers. -/
def Buffer.flush (b : Buffer) : Option Flush × Buffer :=
  if b.pending.isEmpty then (none, b)
  else (some ⟨b.pending.entries, .loading⟩, { b.clearTimers with pending := .empty })

/-- A call that waits. -/
inductive Call where
  /-- A flush that a timer has started. -/
  | timerFlush (flush : Flush)
  /-- `cleanupBoardRealtimeStateIfEmpty` before `getRoomSize` answers. -/
  | roomSize
  /-- The same call in its flush of one buffer; `none` when the buffer was empty. -/
  | cleanup (source : Source) (flush : Option Flush)
deriving DecidableEq

namespace Call

def flush : Call → Option Flush
  | .timerFlush f => some f
  | .roomSize => none
  | .cleanup _ f => f

/-- The same call with its flush at another await. -/
def moveTo (point : FlushPoint) : Call → Call
  | .timerFlush f => .timerFlush { f with point := point }
  | .roomSize => .roomSize
  | .cleanup source f => .cleanup source (f.map fun f => { f with point := point })

/-- The call waits at this await of its flush. -/
def waitsAt (call : Call) (point : FlushPoint) : Bool := call.flush.any fun f => f.point = point

/-- The moves that a failure of the call would drop. -/
def unprocessed (call : Call) : List (String × Queued) :=
  match call.flush with
  | some f => if f.point = .processed then [] else f.moves
  | none => []

end Call

/-! ### State -/

structure State (ρ : Type) where
  buffers : Source → Buffer
  calls : ρ → Option Call
  /-- Ghost: how many calls have queued positions. -/
  count : Nat
  /-- Ghost: the last position queued for each element. -/
  last : InsertionMap String Queued
  /-- Ghost: the moves of the `processBatch` calls that completed. -/
  handed : List (String × Queued)

section system
variable {ρ : Type} [DecidableEq ρ]

namespace State

variable (s : State ρ)

def setCall (r : ρ) (call : Option Call) : State ρ :=
  { s with calls := Function.update s.calls r call }

def setBuffer (source : Source) (b : Buffer) : State ρ :=
  { s with buffers := Function.update s.buffers source b }

/-- Queue the positions in one of the buffers, and schedule its flush. -/
def queue (source : Source) (moves : List (String × PendingMove)) : State ρ :=
  let moves := moves.map fun m => (m.1, ⟨m.2, s.count⟩)
  { s.setBuffer source ((s.buffers source).queue moves).schedule with
    count := s.count + 1
    last := s.last.setAll moves }

/-- Start a flush of one of the buffers in the call `r`. -/
def startFlush (source : Source) (r : ρ) (call : Option Flush → Option Call) : State ρ :=
  let (flush, b) := (s.buffers source).flush
  (s.setBuffer source b).setCall r (call flush)

end State

/-! ### The tick persistence manager -/

def queueMoves (s : State ρ) (moves : List (String × Position)) : State ρ :=
  if moves.isEmpty then s else s.queue .tick (moves.map fun m => (m.1, m.2.pending))

def flushTickMoves (s : State ρ) (r : ρ) (call : Option Flush → Option Call) : State ρ :=
  s.startFlush .tick r call

def clearBoard (s : State ρ) : State ρ := s.setBuffer .tick .empty

/-! ### The CRDT room -/

inductive ChangeAction where
  | add
  | update
  | delete
deriving DecidableEq

/-- A changed key of the shared map, as its observer sees it, with the coordinates of the value that
    the map now holds; `none` when it holds no value or a falsy one. -/
structure KeyChange where
  elementId : String
  action : ChangeAction
  value : Option PendingMove

/-- The positions that the observer of the shared map queues. -/
def observedMoves (changes : List KeyChange) : List (String × PendingMove) :=
  changes.filterMap fun change =>
    if change.action = .delete then none else change.value.map fun p => (change.elementId, p)

def applyRemoteUpdate (s : State ρ) (changes : List KeyChange) : State ρ :=
  s.queue .crdt (observedMoves changes)

def flushNow (s : State ρ) (r : ρ) (call : Option Flush → Option Call) : State ρ :=
  s.startFlush .crdt r call

def clearRoom (s : State ρ) : State ρ := s.setBuffer .crdt .empty

/-! ### Steps -/

inductive Label (ρ : Type) where
  | queueMoves (moves : List (String × Position))
  | applyRemoteUpdate (changes : List KeyChange)
  | timerFires (source : Source) (timer : Timer) (r : ρ)
  /-- A socket leaves, and its cleanup starts. -/
  | disconnect (r : ρ)
  | roomSize (r : ρ) (size : Nat)
  | boardLoaded (r : ρ)
  | batchProcessed (r : ρ)
  /-- The flush that the call waits for returns. -/
  | flushReturns (r : ρ)
  /-- What the call waits for throws: a timer logs it, a cleanup passes it on. -/
  | fails (r : ρ)

/-- The flush that a timer starts; one that has nothing to do is over at once. -/
def onTimer (s : State ρ) (r : ρ) : Source → State ρ
  | .tick => flushTickMoves s r fun flush => flush.map .timerFlush
  | .crdt => flushNow s r fun flush => flush.map .timerFlush

def step (s : State ρ) : Label ρ → Option (State ρ)
  | .queueMoves moves => some (queueMoves s moves)
  | .applyRemoteUpdate changes => some (applyRemoteUpdate s changes)
  | .timerFires source timer r =>
    if (s.buffers source).armed timer ∧ s.calls r = none then
      some (onTimer (s.setBuffer source ((s.buffers source).fired timer)) r source)
    else none
  | .disconnect r => if s.calls r = none then some (s.setCall r (some .roomSize)) else none
  | .roomSize r size =>
    if s.calls r = some .roomSize then
      if size > 0 then some (s.setCall r none)
      else some (flushTickMoves s r fun flush => some (.cleanup .tick flush))
    else none
  | .boardLoaded r =>
    match s.calls r with
    | some call =>
      if call.waitsAt .loading then some (s.setCall r (some (call.moveTo .processing))) else none
    | none => none
  | .batchProcessed r =>
    match s.calls r with
    | some call =>
      if call.waitsAt .processing then
        some { s.setCall r (some (call.moveTo .processed)) with
          handed := s.handed ++ call.unprocessed }
      else none
    | none => none
  | .flushReturns r =>
    match s.calls r with
    | some call =>
      if call.waitsAt .loading ∨ call.waitsAt .processing then none
      else
        match call with
        | .timerFlush _ => some (s.setCall r none)
        | .roomSize => none
        | .cleanup .tick _ => some (flushNow s r fun flush => some (.cleanup .crdt flush))
        | .cleanup .crdt _ => some (clearRoom (clearBoard (s.setCall r none)))
    | none => none
  | .fails r =>
    match s.calls r with
    -- the flush of an empty buffer cannot fail
    | some (.cleanup _ none) => none
    | some _ => some (s.setCall r none)
    | none => none

/-- Nothing has been queued yet. -/
structure Init (s : State ρ) : Prop where
  buffers : ∀ source, s.buffers source = .empty
  calls : ∀ r, s.calls r = none
  last : s.last = .empty

def system (ρ : Type) [DecidableEq ρ] : System (State ρ) (Label ρ) where
  init := Init
  step := step

/-! ### No move is lost -/

/-- Where a queued position still is. -/
inductive Kept (s : State ρ) (elementId : String) (q : Queued) : Prop where
  | pending (source : Source) : (s.buffers source).pending.get? elementId = some q →
      Kept s elementId q
  | inFlight (r : ρ) (call : Call) :
      s.calls r = some call → (elementId, q) ∈ call.unprocessed → Kept s elementId q
  | handed : (elementId, q) ∈ s.handed → Kept s elementId q

/-- The last position queued for an element is kept. -/
def NoneLost (s : State ρ) : Prop :=
  ∀ elementId q, s.last.get? elementId = some q → Kept s elementId q

/-- None of the moves is the last one of its element. -/
def Superseded (s : State ρ) (moves : List (String × Queued)) : Prop :=
  ∀ m ∈ moves, s.last.get? m.1 ≠ some m.2

/-- A flush that fails before `processBatch` completes, and a cleanup that clears the buffers, drop
    no move that is the last one of its element. -/
def DropsSuperseded (s : State ρ) : Label ρ → Prop
  | .fails r => ∀ call ∈ s.calls r, Superseded s call.unprocessed
  | .flushReturns r =>
    match s.calls r with
    | some (.cleanup .crdt _) =>
      Superseded s (s.buffers .tick).pending.entries ∧
        Superseded s (s.buffers .crdt).pending.entries
    | _ => True
  | _ => True

instance [Fintype ρ] (s : State ρ) (l : Label ρ) : Decidable (DropsSuperseded s l) := by
  unfold DropsSuperseded Superseded
  split
  · infer_instance
  · split <;> infer_instance
  · infer_instance

end system

/-! ### Steps keep what is queued -/

namespace Call

theorem flush_moveTo (call : Call) (point : FlushPoint) :
    (call.moveTo point).flush = call.flush.map fun f => { f with point := point } := by
  cases call with
  | timerFlush f => rfl
  | roomSize => rfl
  | cleanup source f => rfl

theorem waitsAt_iff {call : Call} {point : FlushPoint} :
    call.waitsAt point = true ↔ ∃ moves, call.flush = some ⟨moves, point⟩ := by
  cases hflush : call.flush with
  | none => simp [waitsAt, hflush]
  | some f =>
    obtain ⟨moves, point'⟩ := f
    simp [waitsAt, hflush]

/-- Once the board is loaded, the call still waits with the same moves. -/
theorem unprocessed_loaded {call : Call} (h : call.waitsAt .loading = true) :
    (call.moveTo .processing).unprocessed = call.unprocessed := by
  obtain ⟨moves, hflush⟩ := waitsAt_iff.mp h
  simp [unprocessed, flush_moveTo, hflush]

/-- A call whose flush is over, or has found nothing, has nothing to lose. -/
theorem unprocessed_returned {call : Call}
    (h : ¬(call.waitsAt .loading = true ∨ call.waitsAt .processing = true)) :
    call.unprocessed = [] := by
  cases hflush : call.flush with
  | none => simp [unprocessed, hflush]
  | some f =>
    obtain ⟨moves, point⟩ := f
    cases point with
    | loading => exact absurd (.inl (waitsAt_iff.mpr ⟨moves, hflush⟩)) h
    | processing => exact absurd (.inr (waitsAt_iff.mpr ⟨moves, hflush⟩)) h
    | processed => simp [unprocessed, hflush]

end Call

section invariant
variable {ρ : Type} {s s' : State ρ} {r : ρ} {call : Call}

/-- The call `r`, if there is one, has nothing to lose. -/
def Idle (s : State ρ) (r : ρ) : Prop := ∀ call, s.calls r = some call → call.unprocessed = []

theorem idle_of_free (h : s.calls r = none) : Idle s r := by
  intro call hcall
  rw [h] at hcall
  cases hcall

theorem idle_of_call (h : s.calls r = some call) (hcall : call.unprocessed = []) : Idle s r := by
  intro call' hcall'
  rw [h] at hcall'
  obtain rfl := Option.some.inj hcall'
  exact hcall

theorem Superseded.not_mem {moves : List (String × Queued)} {elementId : String} {q : Queued}
    (h : Superseded s moves) (hlast : s.last.get? elementId = some q) :
    (elementId, q) ∉ moves := by
  intro hmem
  exact h (elementId, q) hmem hlast

theorem noneLost_setBuffer {source : Source} {b : Buffer} (h : NoneLost s)
    (hpending : b.pending = (s.buffers source).pending) : NoneLost (s.setBuffer source b) := by
  intro elementId q hlast
  cases h elementId q hlast with
  | pending source' hget =>
    apply Kept.pending source'
    by_cases hsource : source' = source
    · subst hsource
      simpa [State.setBuffer, hpending] using hget
    · simpa [State.setBuffer, hsource] using hget
  | inFlight r' call hcall hmem => exact .inFlight r' call hcall hmem
  | handed hmem => exact .handed hmem

/-- The last position after a call that queues is a new one, or the last one from before. -/
theorem noneLost_queue {source : Source} {moves : List (String × PendingMove)} (h : NoneLost s) :
    NoneLost (s.queue source moves) := by
  intro elementId q hlast
  simp only [State.queue, InsertionMap.get?_setAll] at hlast
  cases hfind : InsertionMap.find? (moves.map fun m => (m.1, (⟨m.2, s.count⟩ : Queued))).reverse
      elementId with
  | some q' =>
    -- queued by this call
    rw [hfind] at hlast
    apply Kept.pending source
    simpa [State.queue, State.setBuffer, Buffer.queue, Buffer.schedule, InsertionMap.get?_setAll,
      hfind] using hlast
  | none =>
    -- last before this call, which leaves it where it was
    rw [hfind, Option.none_or] at hlast
    cases h elementId q hlast with
    | pending source' hget =>
      apply Kept.pending source'
      by_cases hsource : source' = source
      · subst hsource
        simpa [State.queue, State.setBuffer, Buffer.queue, Buffer.schedule,
          InsertionMap.get?_setAll, hfind] using hget
      · simpa [State.queue, State.setBuffer, hsource] using hget
    | inFlight r' call hcall hmem => exact .inFlight r' call hcall hmem
    | handed hmem => exact .handed hmem

section calls
variable [DecidableEq ρ]

/-- A call ends, or goes on. What it drops is superseded, or is kept elsewhere. -/
theorem noneLost_setCall {call' : Option Call} (h : NoneLost s)
    (hdrop : ∀ call, s.calls r = some call → ∀ elementId q, s.last.get? elementId = some q →
      (elementId, q) ∈ call.unprocessed → Kept (s.setCall r call') elementId q) :
    NoneLost (s.setCall r call') := by
  intro elementId q hlast
  cases h elementId q hlast with
  | pending source' hget => exact .pending source' hget
  | inFlight r' call hcall hmem =>
    by_cases hr : r' = r
    · subst hr
      exact hdrop call hcall elementId q hlast hmem
    · exact .inFlight r' call (by simpa [State.setCall, hr] using hcall) hmem
  | handed hmem => exact .handed hmem

theorem noneLost_setCall_idle {call' : Option Call} (h : NoneLost s) (hidle : Idle s r) :
    NoneLost (s.setCall r call') := by
  apply noneLost_setCall h
  intro call hcall elementId q _ hmem
  rw [hidle call hcall] at hmem
  cases hmem

/-- A flush takes over what its buffer holds. -/
theorem noneLost_startFlush {source : Source} {call : Option Flush → Option Call} (h : NoneLost s)
    (hidle : Idle s r) (hcall : ∀ f, ∃ c, call (some f) = some c ∧ c.flush = some f) :
    NoneLost (s.startFlush source r call) := by
  unfold State.startFlush Buffer.flush
  cases hempty : (s.buffers source).pending.isEmpty with
  | true => exact noneLost_setCall_idle (noneLost_setBuffer h rfl) hidle
  | false =>
    intro elementId q hlast
    cases h elementId q hlast with
    | pending source' hget =>
      by_cases hsource : source' = source
      · -- the buffer is emptied into the flush
        subst hsource
        obtain ⟨c, hc, hflush⟩ := hcall ⟨(s.buffers source').pending.entries, .loading⟩
        refine .inFlight r c (by simp [State.setCall, hc]) ?_
        simpa [Call.unprocessed, hflush] using (InsertionMap.mem_entries _).mpr hget
      · exact .pending source' (by simpa [State.setCall, State.setBuffer, hsource] using hget)
    | inFlight r' c hc hmem =>
      by_cases hr : r' = r
      · subst hr
        rw [hidle c hc] at hmem
        cases hmem
      · exact .inFlight r' c (by simpa [State.setCall, State.setBuffer, hr] using hc) hmem
    | handed hmem => exact .handed hmem

theorem noneLost_onTimer {source : Source} (h : NoneLost s) (hidle : Idle s r) :
    NoneLost (onTimer s r source) := by
  cases source with
  | tick => exact noneLost_startFlush h hidle fun f => ⟨_, rfl, rfl⟩
  | crdt => exact noneLost_startFlush h hidle fun f => ⟨_, rfl, rfl⟩

theorem noneLost_boardLoaded (h : NoneLost s) (hcall : s.calls r = some call)
    (hwaits : call.waitsAt .loading = true) :
    NoneLost (s.setCall r (some (call.moveTo .processing))) := by
  apply noneLost_setCall h
  intro call' hcall' elementId q _ hmem
  rw [hcall] at hcall'
  obtain rfl := Option.some.inj hcall'
  refine .inFlight r (call.moveTo .processing) (by simp [State.setCall]) ?_
  rwa [Call.unprocessed_loaded hwaits]

theorem noneLost_batchProcessed {call' : Option Call} (h : NoneLost s)
    (hcall : s.calls r = some call) :
    NoneLost { s.setCall r call' with handed := s.handed ++ call.unprocessed } := by
  intro elementId q hlast
  cases h elementId q hlast with
  | pending source hget => exact .pending source hget
  | inFlight r' c hc hmem =>
    by_cases hr : r' = r
    · -- in flight no more, but handed over
      subst hr
      rw [hcall] at hc
      obtain rfl := Option.some.inj hc
      exact .handed (List.mem_append_right _ hmem)
    · exact .inFlight r' c (by simpa [State.setCall, hr] using hc) hmem
  | handed hmem => exact .handed (List.mem_append_left _ hmem)

/-- A cleanup that clears the buffers when nothing in them is the last position of its element. -/
theorem noneLost_clear (h : NoneLost s) (hidle : Idle s r)
    (htick : Superseded s (s.buffers .tick).pending.entries)
    (hcrdt : Superseded s (s.buffers .crdt).pending.entries) :
    NoneLost (clearRoom (clearBoard (s.setCall r none))) := by
  intro elementId q hlast
  cases h elementId q hlast with
  | pending source hget =>
    have hmem := (InsertionMap.mem_entries _).mpr hget
    cases source with
    | tick => exact absurd hmem (htick.not_mem hlast)
    | crdt => exact absurd hmem (hcrdt.not_mem hlast)
  | inFlight r' c hc hmem =>
    by_cases hr : r' = r
    · subst hr
      rw [hidle c hc] at hmem
      cases hmem
    · refine .inFlight r' c ?_ hmem
      simpa [clearRoom, clearBoard, State.setCall, State.setBuffer, hr] using hc
  | handed hmem => exact .handed hmem

theorem noneLost_fails (h : NoneLost s)
    (hdrops : ∀ call ∈ s.calls r, Superseded s call.unprocessed) :
    NoneLost (s.setCall r none) := by
  apply noneLost_setCall h
  intro call hcall elementId q hlast hmem
  exact absurd hmem ((hdrops call hcall).not_mem hlast)

theorem noneLost_step {l : Label ρ} (h : NoneLost s) (hdrops : DropsSuperseded s l)
    (hstep : step s l = some s') : NoneLost s' := by
  cases l with
  | queueMoves moves =>
    obtain rfl := Option.some.inj hstep
    unfold queueMoves
    split
    · exact h
    · exact noneLost_queue h
  | applyRemoteUpdate changes =>
    obtain rfl := Option.some.inj hstep
    exact noneLost_queue h
  | timerFires source timer r =>
    simp only [step] at hstep
    split at hstep
    · next henabled =>
      obtain rfl := Option.some.inj hstep
      have hfired : NoneLost (s.setBuffer source ((s.buffers source).fired timer)) := by
        apply noneLost_setBuffer h
        cases timer with
        | debounce => rfl
        | maxWait => rfl
      exact noneLost_onTimer hfired (idle_of_free henabled.2)
    · cases hstep
  | disconnect r =>
    simp only [step] at hstep
    split at hstep
    · next hfree =>
      obtain rfl := Option.some.inj hstep
      exact noneLost_setCall_idle h (idle_of_free hfree)
    · cases hstep
  | roomSize r size =>
    simp only [step] at hstep
    split at hstep
    · next hcall =>
      have hidle : Idle s r := idle_of_call hcall rfl
      split at hstep
      · obtain rfl := Option.some.inj hstep
        exact noneLost_setCall_idle h hidle
      · obtain rfl := Option.some.inj hstep
        exact noneLost_startFlush h hidle fun f => ⟨_, rfl, rfl⟩
    · cases hstep
  | boardLoaded r =>
    simp only [step] at hstep
    split at hstep
    · next call hcall =>
      split at hstep
      · next hwaits =>
        obtain rfl := Option.some.inj hstep
        exact noneLost_boardLoaded h hcall hwaits
      · cases hstep
    · cases hstep
  | batchProcessed r =>
    simp only [step] at hstep
    split at hstep
    · next call hcall =>
      split at hstep
      · obtain rfl := Option.some.inj hstep
        exact noneLost_batchProcessed h hcall
      · cases hstep
    · cases hstep
  | flushReturns r =>
    simp only [step] at hstep
    split at hstep
    · next call hcall =>
      split at hstep
      · cases hstep
      · next hover =>
        have hidle : Idle s r := idle_of_call hcall (Call.unprocessed_returned hover)
        split at hstep
        · obtain rfl := Option.some.inj hstep
          exact noneLost_setCall_idle h hidle
        · cases hstep
        · obtain rfl := Option.some.inj hstep
          exact noneLost_startFlush h hidle fun f => ⟨_, rfl, rfl⟩
        · obtain rfl := Option.some.inj hstep
          simp only [DropsSuperseded, hcall] at hdrops
          exact noneLost_clear h hidle hdrops.1 hdrops.2
    · cases hstep
  | fails r =>
    simp only [step] at hstep
    split at hstep
    · cases hstep
    · obtain rfl := Option.some.inj hstep
      exact noneLost_fails h hdrops
    · cases hstep

end calls

theorem noneLost_init (h : Init s) : NoneLost s := by
  intro elementId q hlast
  rw [h.last] at hlast
  cases hlast

/-- The last position queued for an element is never lost, in every run whose failing flushes and
    cleanups drop superseded moves only. -/
theorem none_lost_of_drops_superseded [DecidableEq ρ]
    (h : (system ρ).ReachableUnder DropsSuperseded s) :
    ∀ elementId q, s.last.get? elementId = some q → Kept s elementId q :=
  h.invariant (I := NoneLost) (fun _ => noneLost_init) (fun _ _ _ => noneLost_step)

end invariant

/-! ### A flush that fails -/

/-- Nothing has been queued. -/
def empty : State Unit where
  buffers := fun _ => .empty
  calls := fun _ => none
  count := 0
  last := .empty
  handed := []

theorem empty_init : Init empty := ⟨fun _ => rfl, fun _ => rfl, rfl⟩

/-- A move of `a` is queued, and its debounce timer fires. -/
def queueAndFlush : List (Label Unit) :=
  [.queueMoves [("a", ⟨1, 2⟩)], .timerFires .tick .debounce (), .boardLoaded ()]

/-- The flush of the first move fails after a second move of `a` was queued. -/
theorem superseded_move_dropped :
    ∃ s : State Unit, s.last.get? "a" = some ⟨⟨.number 3, .number 4⟩, 1⟩ ∧
      Kept s "a" ⟨⟨.number 3, .number 4⟩, 1⟩ := by
  obtain ⟨s, hs⟩ : ∃ s, (system Unit).execUnder DropsSuperseded empty
      (queueAndFlush ++
        [.applyRemoteUpdate [⟨"a", .update, some ⟨.number 3, .number 4⟩⟩], .fails ()]) = some s :=
    ⟨_, rfl⟩
  have hlast : s.last.get? "a" = some ⟨⟨.number 3, .number 4⟩, 1⟩ := by
    cases hs
    rfl
  exact ⟨s, hlast, none_lost_of_drops_superseded (.execUnder (.init empty_init) hs) "a" _ hlast⟩

/-- `processBatch` throws, as it does when the lock of the board stays busy. -/
theorem failed_flush_loses_move :
    ∃ s : State Unit, (system Unit).Reachable s ∧
      ¬ ∀ elementId q, s.last.get? elementId = some q → Kept s elementId q := by
  obtain ⟨s, hs⟩ : ∃ s, (system Unit).exec empty (queueAndFlush ++ [.fails ()]) = some s :=
    ⟨_, rfl⟩
  refine ⟨s, .exec (.init empty_init) hs, fun hkept => ?_⟩
  cases hs
  cases hkept "a" ⟨Position.pending ⟨1, 2⟩, 0⟩ rfl with
  | pending source hget =>
    cases source with
    | tick => cases hget
    | crdt => cases hget
  | inFlight r call hcall hmem => cases hcall
  | handed hmem => cases hmem

end Notebortt.QueuedMoves
