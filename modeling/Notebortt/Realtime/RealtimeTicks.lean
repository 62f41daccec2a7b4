import Mathlib.Algebra.Order.Ring.Unbundled.Rat
import Mathlib.Logic.Function.Basic
import Notebortt.Realtime.QueuedMoves
import Notebortt.Realtime.SocketPresence

/-! # The realtime ticks of one socket

    Every REALTIME_TICK of a socket starts a handler of its own. It passes the
    guard on its `tickId`, waits for `refreshSocketActivity`, and then queues its
    moves and relays the tick to the room. The first tick after a pause writes the
    activity and waits for three requests; the throttled ones after it wait for
    nothing that takes time. No buffer is flushed here, and no other socket queues.

    What runs between two awaits is one step, and a handler may wait as long as it
    likes: every placement of the suspensions is a run. -/

open Transition

namespace Notebortt.RealtimeTicks

open QueuedMoves (Position)
open SocketPresence (ActivityPoint BoardPermission)

/-! ### Payloads and messages -/

structure SocketBoardContext extends SocketPresence.SocketBoardContext where
  userName : String
  avatarUrl : Option String
  color : String
deriving DecidableEq

inductive TypingField where
  | title
  | body
deriving DecidableEq

inductive PresenceState where
  | active
  | away
  | interacting
deriving DecidableEq

/-- What `parseRealtimeTickPayload` makes of a tick. Its `tickId` is any finite number. -/
structure RealtimeTickPayload where
  boardId : String
  tickId : Rat
  cursor : Option Position
  selectedIds : List String
  draggedIds : List String
  focusedElementId : Option String
  typingField : Option TypingField
  presenceState : PresenceState
  presenceMessage : Option String
  moves : List (String × Position)
deriving DecidableEq

/-- Where a tick moves an element to: of several moves of it, the last one. -/
def RealtimeTickPayload.positionOf (payload : RealtimeTickPayload) (elementId : String) :
    Option Position :=
  InsertionMap.find? payload.moves.reverse elementId

/-- The REALTIME_TICK that the room gets. -/
structure RealtimeTickMessage extends RealtimeTickPayload where
  sessionId : String
  userId : String
  userName : String
  avatarUrl : Option String
  color : String
deriving DecidableEq

/-! ### State -/

structure ContextSnapshot where
  context : SocketBoardContext
  version : Nat
deriving DecidableEq

inductive Phase where
  /-- In `refreshSocketActivity`; `none` when it was throttled and returned at once. -/
  | refreshing (point : Option ActivityPoint)
  /-- The moves are queued, and the tick is relayed. -/
  | relayed
  /-- The snapshot was no longer active, or the refresh has failed. -/
  | turnedAway
deriving DecidableEq

/-- A handler past the guard and the check of the permission. -/
structure TickHandler where
  payload : RealtimeTickPayload
  snapshot : ContextSnapshot
  phase : Phase
deriving DecidableEq

namespace TickHandler

variable (h : TickHandler)

def isRefreshing : Bool :=
  match h.phase with
  | .refreshing _ => true
  | _ => false

/-- The tick is let through: its handler waits, or has come to its end. -/
def accepted : Bool := h.phase != .turnedAway

/-- What the handler waits for next; `none` once `refreshSocketActivity` returns. -/
def next? : Option ActivityPoint :=
  match h.phase with
  | .refreshing (some point) => (point.advance h.snapshot.context.toSocketBoardContext).2
  | _ => none

def message : RealtimeTickMessage :=
  { h.payload with
    sessionId := h.snapshot.context.sessionId
    userId := h.snapshot.context.userId
    userName := h.snapshot.context.userName
    avatarUrl := h.snapshot.context.avatarUrl
    color := h.snapshot.context.color }

end TickHandler

structure State where
  connected : Bool
  boardContext : Option SocketBoardContext
  boardContextVersion : Nat
  lastTickId : Rat
  lastActivityWriteAt : Int
  activityJitterMs : Option Int
  /-- The handlers, in the order in which their ticks passed the guard. -/
  handlers : List TickHandler
  pendingTickMovesByBoard : String → InsertionMap String Position
  /-- The REALTIME_TICK messages to the rooms, in order. -/
  relayed : List RealtimeTickMessage
  /-- The messages of the SYNC_ERRORs that the socket got. -/
  syncErrors : List String

namespace State

variable (s : State)

/-- The context a tick takes; an empty `expectedBoardId` is not compared. -/
def takeContextSnapshot (expectedBoardId : String) : Option ContextSnapshot :=
  (s.boardContext.filter fun context =>
    expectedBoardId == "" || context.boardId == expectedBoardId).map (⟨·, s.boardContextVersion⟩)

def isSnapshotActive (snapshot : ContextSnapshot) : Bool :=
  match s.boardContext with
  | none => false
  | some context =>
    s.connected && snapshot.version == s.boardContextVersion &&
      snapshot.context.boardId == context.boardId &&
      snapshot.context.sessionId == context.sessionId

/-- Every join, leave and detach ends up here: the guard starts anew. -/
def setBoardContext (next : Option SocketBoardContext) : State :=
  { s with
    boardContext := next
    boardContextVersion := s.boardContextVersion + 1
    lastTickId := -1 }

/-- The throttle at the time `now`. The jitter is drawn once. -/
def shouldWriteActivity (activityWriteThrottleMs now drawn : Int) : Bool × State :=
  let jitter := s.activityJitterMs.getD drawn
  let effectiveWindow := max 0 (activityWriteThrottleMs + jitter)
  if effectiveWindow ≤ now - s.lastActivityWriteAt then
    (true, { s with activityJitterMs := some jitter, lastActivityWriteAt := now })
  else (false, { s with activityJitterMs := some jitter })

def safeEmitToSelf (message : String) : State :=
  { s with syncErrors := s.syncErrors ++ [message] }

def safeEmitToBoard (message : RealtimeTickMessage) : State :=
  { s with relayed := s.relayed ++ [message] }

/-- `pendingMoves.set`, move by move. The timers and the user of the buffer are left out. -/
def queueMoves (boardId : String) (moves : List (String × Position)) : State :=
  if moves.isEmpty then s
  else
    { s with
      pendingTickMovesByBoard := Function.update s.pendingTickMovesByBoard boardId
        ((s.pendingTickMovesByBoard boardId).setAll moves) }

def setPhase (i : Nat) (h : TickHandler) (phase : Phase) : State :=
  { s with handlers := s.handlers.set i { h with phase := phase } }

/-! ### Steps -/

/-- A tick up to its first await. -/
def onRealtimeTick (activityWriteThrottleMs now drawn : Int)
    (payload : Option RealtimeTickPayload) : State :=
  match payload with
  | none => s.safeEmitToSelf "Invalid realtime tick payload"
  | some payload =>
    match s.takeContextSnapshot payload.boardId with
    | none => s.safeEmitToSelf "Invalid realtime tick payload"
    | some snapshot =>
      if payload.tickId ≤ s.lastTickId then s
      else
        -- the guard moves on here, before the await: nothing compares the numbers after it
        let s := { s with lastTickId := payload.tickId }
        if payload.moves ≠ [] ∧ snapshot.context.permission ≠ .edit then
          s.safeEmitToSelf "No edit access to this board"
        else
          let (writes, s) := s.shouldWriteActivity activityWriteThrottleMs now drawn
          -- the first of three requests, or an await of nothing
          let point := if writes then some .touchingViewerSession else none
          { s with handlers := s.handlers ++ [⟨payload, snapshot, .refreshing point⟩] }

/-- The handler once `refreshSocketActivity` has returned. -/
def onRefreshed (i : Nat) (h : TickHandler) : State :=
  if s.isSnapshotActive h.snapshot then
    let s := s.setPhase i h .relayed
    let s := if h.payload.moves ≠ [] then s.queueMoves h.payload.boardId h.payload.moves else s
    s.safeEmitToBoard h.message
  else s.setPhase i h .turnedAway

end State

inductive Label where
  | realtimeTick (payload : Option RealtimeTickPayload) (now drawn : Int)
  /-- What the handler waits for is there, and the handler goes on. -/
  | advance (i : Nat)
  /-- What the handler waits for fails, and the handler with it. -/
  | reject (i : Nat)
  /-- Another event of the socket asks the throttle. -/
  | activity (now drawn : Int)
  | setBoardContext (next : Option SocketBoardContext)
  | disconnect

def step (activityWriteThrottleMs : Int) (s : State) : Label → Option State
  | .realtimeTick payload now drawn =>
    some (s.onRealtimeTick activityWriteThrottleMs now drawn payload)
  | .advance i =>
    match s.handlers[i]? with
    | none => none
    | some h =>
      if h.isRefreshing then
        match h.next? with
        | some point => some (s.setPhase i h (.refreshing (some point)))
        | none => some (s.onRefreshed i h)
      else none
  | .reject i =>
    match s.handlers[i]? with
    | none => none
    | some h => if h.isRefreshing then some (s.setPhase i h .turnedAway) else none
  | .activity now drawn => some (s.shouldWriteActivity activityWriteThrottleMs now drawn).2
  | .setBoardContext next => some (s.setBoardContext next)
  | .disconnect =>
    -- `cleanupConnectionState` forgets the throttle
    some { s with connected := false, lastActivityWriteAt := 0, activityJitterMs := none }

/-- No tick has come yet. Whatever else has been queued may be pending. -/
structure Init (s : State) : Prop where
  handlers : s.handlers = []
  relayed : s.relayed = []

def system (activityWriteThrottleMs : Int) : System State Label where
  init := Init
  step := step activityWriteThrottleMs

/-! ### The last tick wins -/

section property
variable (s : State) (boardId : String)

/-- The handlers of the accepted ticks of a board. -/
def acceptedOn : List TickHandler :=
  s.handlers.filter fun h => h.accepted && h.payload.boardId == boardId

def relayedTo : List RealtimeTickMessage := s.relayed.filter fun m => m.boardId == boardId

/-- All handlers have finished. -/
def Quiet : Prop := ∀ h ∈ s.handlers, h.isRefreshing = false

/-- Among the accepted ticks of the board that move the element, this one has the greatest
    `tickId`. -/
def LastToMove (elementId : String) (h : TickHandler) : Prop :=
  ∀ other ∈ acceptedOn s boardId, (other.payload.positionOf elementId).isSome →
    other.payload.tickId ≤ h.payload.tickId

/-- Once all handlers have finished, an element is pending where the last accepted tick that moved
    it has put it; and the room gets the ticks in the order of their `tickId`. -/
structure LastTickWins : Prop where
  pending : Quiet s → ∀ h ∈ acceptedOn s boardId, ∀ elementId position,
    h.payload.positionOf elementId = some position → LastToMove s boardId elementId h →
      (s.pendingTickMovesByBoard boardId).get? elementId = some position
  relayed : (relayedTo s boardId).Pairwise fun a b => a.tickId < b.tickId

end property

/-- A handler comes to its end only when none before it still waits with its snapshot active; and a
    tick that passes the guard is numbered above the ticks of earlier contexts of its board. -/
def InTurn (s : State) : Label → Prop
  | .realtimeTick (some payload) _ _ =>
    s.lastTickId < payload.tickId → ∀ h ∈ acceptedOn s payload.boardId,
      h.snapshot.version ≠ s.boardContextVersion → h.payload.tickId < payload.tickId
  | .advance i =>
    ∀ h ∈ s.handlers[i]?, h.next? = none → s.isSnapshotActive h.snapshot = true →
      ∀ earlier ∈ s.handlers.take i, earlier.isRefreshing = true →
        s.isSnapshotActive earlier.snapshot = false
  | _ => True

instance (s : State) (l : Label) : Decidable (InTurn s l) := by
  unfold InTurn
  split <;> infer_instance

/-! ### What a step does to the handlers -/

section handlers
variable {s s' : State} {i : Nat} {h : TickHandler}

/-- A handler in the list, between those before and those after it. -/
structure At (s : State) (i : Nat) (h : TickHandler) (before after : List TickHandler) : Prop where
  handlers : s.handlers = before ++ h :: after
  take : s.handlers.take i = before
  set : ∀ h', s.handlers.set i h' = before ++ h' :: after

/-- A relation between earlier and later elements, after one element has changed. -/
theorem pairwise_replace {α : Type} {R : α → α → Prop} {before after : List α} {x y : α}
    (h : (before ++ x :: after).Pairwise R) (hbefore : ∀ a ∈ before, R a x → R a y)
    (hafter : ∀ b ∈ after, R x b → R y b) : (before ++ y :: after).Pairwise R := by
  obtain ⟨hleft, hright, hacross⟩ := List.pairwise_append.mp h
  obtain ⟨hx, hrest⟩ := List.pairwise_cons.mp hright
  refine List.pairwise_append.mpr ⟨hleft, List.pairwise_cons.mpr ⟨fun b hb => ?_, hrest⟩, ?_⟩
  · exact hafter b hb (hx b hb)
  · intro a ha b hb
    rcases List.mem_cons.mp hb with rfl | hb
    · exact hbefore a ha (hacross a ha x List.mem_cons_self)
    · exact hacross a ha b (List.mem_cons_of_mem _ hb)

theorem exists_at (hi : s.handlers[i]? = some h) : ∃ before after, At s i h before after := by
  obtain ⟨hlt, hget⟩ := List.getElem?_eq_some_iff.mp hi
  refine ⟨s.handlers.take i, s.handlers.drop (i + 1), ?_, rfl, ?_⟩
  · rw [← hget, List.cons_getElem_drop_succ, List.take_append_drop]
  · intro h'
    exact List.set_eq_take_append_cons_drop.trans (if_pos hlt)

end handlers

/-! ### The invariant -/

/-- Of two accepted ticks of a board, the one that passed the guard first has the smaller number. -/
def Numbered (a b : TickHandler) : Prop :=
  a.accepted = true → b.accepted = true → a.payload.boardId = b.payload.boardId →
    a.payload.tickId < b.payload.tickId

/-- A handler that still waits behind a relayed one will be turned away. -/
def Overtaken (s : State) (a b : TickHandler) : Prop :=
  a.isRefreshing = true → b.phase = .relayed → s.isSnapshotActive a.snapshot = false

/-- The moves relayed to the board, one after another. -/
def movesRelayedTo (s : State) (boardId : String) : List (String × Position) :=
  (relayedTo s boardId).flatMap (·.moves)

/-- What the guard has seen to. -/
structure Guarded (s : State) : Prop where
  version_le : ∀ h ∈ s.handlers, h.snapshot.version ≤ s.boardContextVersion
  tickId_le : ∀ h ∈ s.handlers, h.snapshot.version = s.boardContextVersion →
    h.payload.tickId ≤ s.lastTickId
  numbered : s.handlers.Pairwise Numbered

structure Inv (s : State) : Prop extends Guarded s where
  overtaken : s.handlers.Pairwise (Overtaken s)
  relayed : s.relayed = (s.handlers.filter (·.phase == .relayed)).map TickHandler.message
  pending : ∀ boardId elementId position,
    InsertionMap.find? (movesRelayedTo s boardId).reverse elementId = some position →
      (s.pendingTickMovesByBoard boardId).get? elementId = some position

section invariant
variable {s s' : State} {i : Nat} {h : TickHandler}

theorem inv_init (hs : Init s) : Inv s where
  version_le h hmem := by
    rw [hs.handlers] at hmem
    cases hmem
  tickId_le h hmem := by
    rw [hs.handlers] at hmem
    cases hmem
  numbered := by
    rw [hs.handlers]
    exact .nil
  overtaken := by
    rw [hs.handlers]
    exact .nil
  relayed := by rw [hs.handlers, hs.relayed]; rfl
  pending boardId elementId position hfind := by
    rw [movesRelayedTo, relayedTo, hs.relayed] at hfind
    cases hfind

/-- A step that lets the handlers and the buffers be, and makes no snapshot active again. -/
theorem Inv.of_frame (hinv : Inv s) (hhandlers : s'.handlers = s.handlers)
    (hversion : s.boardContextVersion ≤ s'.boardContextVersion)
    (hlast : s'.boardContextVersion = s.boardContextVersion → s.lastTickId ≤ s'.lastTickId)
    (hactive : ∀ h ∈ s.handlers, s.isSnapshotActive h.snapshot = false →
      s'.isSnapshotActive h.snapshot = false)
    (hrelayed : s'.relayed = s.relayed)
    (hpending : s'.pendingTickMovesByBoard = s.pendingTickMovesByBoard) : Inv s' where
  version_le h hmem := by
    rw [hhandlers] at hmem
    exact (hinv.version_le h hmem).trans hversion
  tickId_le h hmem hcurrent := by
    rw [hhandlers] at hmem
    -- a version that is current after the step was so before it
    have hle := hinv.version_le h hmem
    have hsame : s'.boardContextVersion = s.boardContextVersion := by omega
    exact (hinv.tickId_le h hmem (by omega)).trans (hlast hsame)
  numbered := by
    rw [hhandlers]
    exact hinv.numbered
  overtaken := by
    rw [hhandlers]
    refine hinv.overtaken.imp_of_mem fun ha _ hab hrefreshing hphase => ?_
    exact hactive _ ha (hab hrefreshing hphase)
  relayed := by rw [hrelayed, hhandlers, hinv.relayed]
  pending boardId elementId position hfind := by
    rw [movesRelayedTo, relayedTo, hrelayed] at hfind
    rw [hpending]
    exact hinv.pending boardId elementId position hfind

/-- A snapshot is active in the context it was taken from only. -/
theorem version_of_active {snapshot : ContextSnapshot}
    (hactive : s.isSnapshotActive snapshot = true) :
    snapshot.version = s.boardContextVersion := by
  unfold State.isSnapshotActive at hactive
  split at hactive
  · cases hactive
  · simp only [Bool.and_eq_true, beq_iff_eq] at hactive
    exact hactive.1.1.2

theorem Inv.setBoardContext (hinv : Inv s) (next : Option SocketBoardContext) :
    Inv (s.setBoardContext next) := by
  refine hinv.of_frame rfl (Nat.le_succ _) (fun hsame => ?_) (fun h hmem _ => ?_) rfl rfl
  · exact absurd hsame (Nat.succ_ne_self _)
  · -- its version is at most the one before
    rw [Bool.eq_false_iff]
    intro hactive
    have hcurrent := version_of_active hactive
    have hle := hinv.version_le h hmem
    simp only [State.setBoardContext] at hcurrent
    omega

theorem Inv.disconnect (hinv : Inv s) :
    Inv { s with connected := false, lastActivityWriteAt := 0, activityJitterMs := none } := by
  refine hinv.of_frame rfl le_rfl (fun _ => le_rfl) (fun h _ _ => ?_) rfl rfl
  unfold State.isSnapshotActive
  split
  · rfl
  · simp

/-! ### A tick arrives -/

theorem shouldWriteActivity_eq (s : State) (activityWriteThrottleMs now drawn : Int) :
    ∃ writtenAt jitter, (s.shouldWriteActivity activityWriteThrottleMs now drawn).2 =
      { s with activityJitterMs := jitter, lastActivityWriteAt := writtenAt } := by
  simp only [State.shouldWriteActivity]
  split
  · exact ⟨now, _, rfl⟩
  · exact ⟨s.lastActivityWriteAt, _, rfl⟩

/-- Steps that change the throttle, the guard and the errors at most. -/
theorem Inv.of_guard (hinv : Inv s) {lastTickId : Rat} (hlast : s.lastTickId ≤ lastTickId)
    (writtenAt : Int) (jitter : Option Int) (syncErrors : List String) :
    Inv { s with
      lastTickId := lastTickId
      lastActivityWriteAt := writtenAt
      activityJitterMs := jitter
      syncErrors := syncErrors } :=
  hinv.of_frame rfl le_rfl (fun _ => hlast) (fun _ _ hactive => hactive) rfl rfl

/-- A tick that passes the guard is numbered above all the accepted ones: above those of its context
    by the guard, above the earlier ones by the condition. -/
theorem Inv.accept (hinv : Inv s) {payload : RealtimeTickPayload} {snapshot : ContextSnapshot}
    (point : Option ActivityPoint) (hcurrent : snapshot.version = s.boardContextVersion)
    (hguard : s.lastTickId < payload.tickId)
    (hearlier : ∀ h ∈ acceptedOn s payload.boardId, h.snapshot.version ≠ s.boardContextVersion →
      h.payload.tickId < payload.tickId)
    (writtenAt : Int) (jitter : Option Int) :
    Inv { s with
      lastTickId := payload.tickId
      lastActivityWriteAt := writtenAt
      activityJitterMs := jitter
      handlers := s.handlers ++ [⟨payload, snapshot, .refreshing point⟩] } where
  version_le h hmem := by
    rcases List.mem_append.mp hmem with hmem | hmem
    · exact hinv.version_le h hmem
    · rw [List.mem_singleton.mp hmem]
      exact hcurrent.le
  tickId_le h hmem hversion := by
    rcases List.mem_append.mp hmem with hmem | hmem
    · exact (hinv.tickId_le h hmem hversion).trans hguard.le
    · rw [List.mem_singleton.mp hmem]
  numbered := by
    refine List.pairwise_append.mpr ⟨hinv.numbered, List.pairwise_singleton _ _, ?_⟩
    intro a ha b hb haccepted _ hboard
    rw [List.mem_singleton.mp hb] at hboard ⊢
    by_cases hversion : a.snapshot.version = s.boardContextVersion
    · exact (hinv.tickId_le a ha hversion).trans_lt hguard
    · -- the guard knows nothing of the ticks of an earlier context
      refine hearlier a (List.mem_filter.mpr ⟨ha, ?_⟩) hversion
      simp [haccepted, hboard]
  overtaken := by
    refine List.pairwise_append.mpr ⟨hinv.overtaken, List.pairwise_singleton _ _, ?_⟩
    -- the new handler is not relayed yet
    intro a _ b hb _ hphase
    rw [List.mem_singleton.mp hb] at hphase
    cases hphase
  relayed := by
    rw [List.filter_append, List.map_append, ← hinv.relayed]
    exact (List.append_nil _).symm
  pending := hinv.pending

theorem version_takeContextSnapshot {boardId : String} {snapshot : ContextSnapshot}
    (h : s.takeContextSnapshot boardId = some snapshot) :
    snapshot.version = s.boardContextVersion := by
  obtain ⟨context, _, rfl⟩ := Option.map_eq_some_iff.mp h
  rfl

theorem Inv.onRealtimeTick (hinv : Inv s) (activityWriteThrottleMs now drawn : Int)
    (payload : Option RealtimeTickPayload) (hturn : InTurn s (.realtimeTick payload now drawn)) :
    Inv (s.onRealtimeTick activityWriteThrottleMs now drawn payload) := by
  unfold State.onRealtimeTick
  cases payload with
  | none => exact hinv.of_guard le_rfl _ _ _
  | some payload =>
    simp only
    cases hsnapshot : s.takeContextSnapshot payload.boardId with
    | none => exact hinv.of_guard le_rfl _ _ _
    | some snapshot =>
      simp only
      split
      · exact hinv
      · next hguard =>
        rw [not_le] at hguard
        split
        · exact hinv.of_guard hguard.le _ _ _
        · obtain ⟨writtenAt, jitter, hthrottle⟩ := shouldWriteActivity_eq
            { s with lastTickId := payload.tickId } activityWriteThrottleMs now drawn
          rw [hthrottle]
          exact hinv.accept _ (version_takeContextSnapshot hsnapshot) hguard (hturn hguard) _ _

/-! ### A handler goes on -/

theorem accepted_of_refreshing (hrefreshing : h.isRefreshing = true) : h.accepted = true := by
  cases hphase : h.phase with
  | refreshing point => simp [TickHandler.accepted, hphase]
  | relayed => simp [TickHandler.accepted, hphase]
  | turnedAway => simp [TickHandler.isRefreshing, hphase] at hrefreshing

theorem not_relayed_of_refreshing (hrefreshing : h.isRefreshing = true) : h.phase ≠ .relayed := by
  intro hphase
  simp [TickHandler.isRefreshing, hphase] at hrefreshing

theorem Guarded.setPhase (hg : Guarded s) (hi : s.handlers[i]? = some h)
    (haccepted : h.accepted = true) (phase : Phase) : Guarded (s.setPhase i h phase) := by
  obtain ⟨before, after, hat⟩ := exists_at hi
  have hhandlers : (s.setPhase i h phase).handlers = before ++ { h with phase := phase } :: after :=
    hat.set _
  -- the payloads and the snapshots are those from before
  have hkept : ∀ h' ∈ (s.setPhase i h phase).handlers, ∃ h₀ ∈ s.handlers,
      h'.snapshot = h₀.snapshot ∧ h'.payload = h₀.payload := by
    intro h' hmem
    rw [hhandlers] at hmem
    rw [hat.handlers]
    rcases List.mem_append.mp hmem with hmem | hmem
    · exact ⟨h', List.mem_append_left _ hmem, rfl, rfl⟩
    · rcases List.mem_cons.mp hmem with rfl | hmem
      · exact ⟨h, by simp, rfl, rfl⟩
      · exact ⟨h', by simp [hmem], rfl, rfl⟩
  refine ⟨fun h' hmem => ?_, fun h' hmem hcurrent => ?_, ?_⟩
  · obtain ⟨h₀, hmem₀, hsnapshot, _⟩ := hkept h' hmem
    rw [hsnapshot]
    exact hg.version_le h₀ hmem₀
  · obtain ⟨h₀, hmem₀, hsnapshot, hpayload⟩ := hkept h' hmem
    rw [hsnapshot] at hcurrent
    rw [hpayload]
    exact hg.tickId_le h₀ hmem₀ hcurrent
  · -- the order is that of the guard, whatever the phases
    have hnumbered := hg.numbered
    rw [hat.handlers] at hnumbered
    rw [hhandlers]
    refine pairwise_replace hnumbered (fun a _ hah ha _ => hah ha haccepted) ?_
    exact fun b _ hhb _ hb => hhb haccepted hb

/-- A handler waits for the next request, or is turned away. -/
theorem Inv.setPhase (hinv : Inv s) (hi : s.handlers[i]? = some h)
    (hrefreshing : h.isRefreshing = true)
    {phase : Phase} (hphase : phase ≠ .relayed) : Inv (s.setPhase i h phase) := by
  obtain ⟨before, after, hat⟩ := exists_at hi
  have hhandlers : (s.setPhase i h phase).handlers = before ++ { h with phase := phase } :: after :=
    hat.set _
  have hguarded := hinv.toGuarded.setPhase hi (accepted_of_refreshing hrefreshing) phase
  refine ⟨hguarded, ?_, ?_, hinv.pending⟩
  · have hovertaken := hinv.overtaken
    rw [hat.handlers] at hovertaken
    rw [hhandlers]
    refine pairwise_replace hovertaken (fun a _ _ _ hp => absurd hp hphase) ?_
    exact fun b _ hhb _ hb => hhb hrefreshing hb
  · have hnot := not_relayed_of_refreshing hrefreshing
    have hrelayed := hinv.relayed
    rw [hat.handlers] at hrelayed
    rw [hhandlers]
    show s.relayed = _
    simpa [List.filter_append, hnot, hphase] using hrelayed

theorem queueMoves_eq (s : State) (boardId : String) (moves : List (String × Position)) :
    s.queueMoves boardId moves =
      { s with
        pendingTickMovesByBoard := Function.update s.pendingTickMovesByBoard boardId
          ((s.pendingTickMovesByBoard boardId).setAll moves) } := by
  cases moves with
  | nil =>
    show s = { s with
      pendingTickMovesByBoard := Function.update s.pendingTickMovesByBoard boardId
        (s.pendingTickMovesByBoard boardId) }
    rw [Function.update_eq_self]
  | cons move moves => rfl

/-- A handler that comes to its end sets its moves and emits its message, in one step. -/
theorem onRefreshed_of_active (hactive : s.isSnapshotActive h.snapshot = true) (i : Nat) :
    s.onRefreshed i h =
      { s.setPhase i h .relayed with
        pendingTickMovesByBoard := Function.update s.pendingTickMovesByBoard h.payload.boardId
          ((s.pendingTickMovesByBoard h.payload.boardId).setAll h.payload.moves)
        relayed := s.relayed ++ [h.message] } := by
  have hqueue : (if h.payload.moves ≠ [] then
      (s.setPhase i h .relayed).queueMoves h.payload.boardId h.payload.moves
      else s.setPhase i h .relayed) =
        (s.setPhase i h .relayed).queueMoves h.payload.boardId h.payload.moves := by
    split
    · rfl
    · next hmoves => rw [State.queueMoves, if_pos (by simpa using hmoves)]
  simp only [State.onRefreshed, if_pos hactive]
  rw [hqueue, queueMoves_eq]
  rfl

/-- What a handler queues at its end lies over what was pending. -/
theorem pending_relay (hpending : ∀ boardId elementId position,
      InsertionMap.find? (movesRelayedTo s boardId).reverse elementId = some position →
        (s.pendingTickMovesByBoard boardId).get? elementId = some position)
    {s' : State} (hrelayed : s'.relayed = s.relayed ++ [h.message])
    (hmoves : s'.pendingTickMovesByBoard =
      Function.update s.pendingTickMovesByBoard h.payload.boardId
        ((s.pendingTickMovesByBoard h.payload.boardId).setAll h.payload.moves))
    (boardId elementId : String) (position : Position)
    (hfind : InsertionMap.find? (movesRelayedTo s' boardId).reverse elementId = some position) :
    (s'.pendingTickMovesByBoard boardId).get? elementId = some position := by
  by_cases hboard : boardId = h.payload.boardId
  · subst hboard
    have hlist : movesRelayedTo s' h.payload.boardId =
        movesRelayedTo s h.payload.boardId ++ h.payload.moves := by
      simp [movesRelayedTo, relayedTo, hrelayed, List.filter_append, TickHandler.message]
    rw [hlist, List.reverse_append, InsertionMap.find?_append] at hfind
    rw [hmoves, Function.update_self, InsertionMap.get?_setAll]
    -- an element that this tick moves is pending where it puts it; the others stay
    cases hlast : InsertionMap.find? h.payload.moves.reverse elementId with
    | some q =>
      rw [hlast] at hfind
      exact hfind
    | none =>
      rw [hlast] at hfind
      exact hpending _ _ _ hfind
  · have hlist : movesRelayedTo s' boardId = movesRelayedTo s boardId := by
      have hne : ¬ h.message.boardId = boardId := fun heq => hboard heq.symm
      simp [movesRelayedTo, relayedTo, hrelayed, List.filter_append, hne]
    rw [hlist] at hfind
    rw [hmoves, Function.update_of_ne hboard]
    exact hpending boardId elementId position hfind

/-- None behind the handler has been relayed, and so its message is the last in the list's order
    too. -/
theorem Inv.relay (hinv : Inv s) (hi : s.handlers[i]? = some h)
    (hrefreshing : h.isRefreshing = true) (hactive : s.isSnapshotActive h.snapshot = true)
    (hturn : ∀ earlier ∈ s.handlers.take i, earlier.isRefreshing = true →
      s.isSnapshotActive earlier.snapshot = false) :
    Inv (s.onRefreshed i h) := by
  obtain ⟨before, after, hat⟩ := exists_at hi
  have hhandlers : (s.setPhase i h .relayed).handlers =
      before ++ { h with phase := .relayed } :: after :=
    hat.set _
  have hguarded := hinv.toGuarded.setPhase hi (accepted_of_refreshing hrefreshing) .relayed
  have hovertaken := hinv.overtaken
  rw [hat.handlers] at hovertaken
  -- a relayed handler behind this one would have its snapshot inactive
  have hbehind : ∀ b ∈ after, b.phase ≠ .relayed := by
    intro b hb hphase
    have hright := (List.pairwise_append.mp hovertaken).2.1
    have hstale := (List.pairwise_cons.mp hright).1 b hb hrefreshing hphase
    rw [hactive] at hstale
    cases hstale
  rw [onRefreshed_of_active hactive]
  refine ⟨⟨hguarded.version_le, hguarded.tickId_le, hguarded.numbered⟩, ?_, ?_, ?_⟩
  · show (s.setPhase i h .relayed).handlers.Pairwise _
    rw [hhandlers]
    -- those before it that still wait are the ones the condition is about
    refine pairwise_replace hovertaken (fun a ha _ hrefresh _ => ?_) ?_
    · exact hturn a (by rwa [hat.take]) hrefresh
    · intro b _ _ hdone
      cases hdone
  · show s.relayed ++ [h.message] = ((s.setPhase i h .relayed).handlers.filter _).map _
    have hnone : after.filter (·.phase == .relayed) = [] := by
      rw [List.filter_eq_nil_iff]
      intro b hb
      simpa using hbehind b hb
    have hnot := not_relayed_of_refreshing hrefreshing
    have hrelayed := hinv.relayed
    rw [hat.handlers] at hrelayed
    rw [hhandlers, hrelayed]
    simp [List.filter_append, hnone, hnot, TickHandler.message]
  · exact pending_relay hinv.pending rfl rfl

/-! ### The run -/

theorem inv_step {activityWriteThrottleMs : Int} {l : Label} (hinv : Inv s) (hturn : InTurn s l)
    (hstep : step activityWriteThrottleMs s l = some s') : Inv s' := by
  cases l with
  | realtimeTick payload now drawn =>
    cases hstep
    exact hinv.onRealtimeTick activityWriteThrottleMs now drawn payload hturn
  | advance i =>
    cases hi : s.handlers[i]? with
    | none => simp [step, hi] at hstep
    | some h =>
      simp only [step, hi] at hstep
      split at hstep
      · next hrefreshing =>
        cases hnext : h.next? with
        | some point =>
          rw [hnext] at hstep
          cases hstep
          exact hinv.setPhase hi hrefreshing (by simp)
        | none =>
          rw [hnext] at hstep
          cases hstep
          cases hactive : s.isSnapshotActive h.snapshot with
          | true => exact hinv.relay hi hrefreshing hactive (hturn h hi hnext hactive)
          | false =>
            simp only [State.onRefreshed, hactive]
            exact hinv.setPhase hi hrefreshing (by simp)
      · cases hstep
  | reject i =>
    cases hi : s.handlers[i]? with
    | none => simp [step, hi] at hstep
    | some h =>
      simp only [step, hi] at hstep
      split at hstep
      · next hrefreshing =>
        cases hstep
        exact hinv.setPhase hi hrefreshing (by simp)
      · cases hstep
  | activity now drawn =>
    cases hstep
    obtain ⟨writtenAt, jitter, hthrottle⟩ :=
        shouldWriteActivity_eq s activityWriteThrottleMs now drawn
    rw [hthrottle]
    exact hinv.of_guard le_rfl _ _ _
  | setBoardContext next =>
    cases hstep
    exact hinv.setBoardContext next
  | disconnect =>
    cases hstep
    exact hinv.disconnect

theorem relayedTo_eq (hinv : Inv s) (boardId : String) :
    relayedTo s boardId =
      (s.handlers.filter fun h => h.payload.boardId == boardId && h.phase == .relayed).map
        TickHandler.message := by
  rw [relayedTo, hinv.relayed, List.filter_map, List.filter_filter]
  rfl

/-- Once no handler waits, the accepted ticks are the relayed ones. -/
theorem movesRelayedTo_quiet (hinv : Inv s) (hquiet : Quiet s) (boardId : String) :
    movesRelayedTo s boardId = (acceptedOn s boardId).flatMap (·.payload.moves) := by
  have hsame : acceptedOn s boardId =
      s.handlers.filter fun h => h.payload.boardId == boardId && h.phase == .relayed := by
    refine List.filter_congr fun h hmem => ?_
    have hdone := hquiet h hmem
    cases hphase : h.phase with
    | refreshing point => simp [TickHandler.isRefreshing, hphase] at hdone
    | relayed => simp [TickHandler.accepted, hphase]
    | turnedAway => simp [TickHandler.accepted, hphase]
  rw [movesRelayedTo, relayedTo_eq hinv, hsame, List.flatMap_map]
  rfl

theorem Inv.relayed_increasing (hinv : Inv s) (boardId : String) :
    (relayedTo s boardId).Pairwise fun a b => a.tickId < b.tickId := by
  rw [relayedTo_eq hinv, List.pairwise_map]
  refine (hinv.numbered.filter _).imp_of_mem fun ha hb hab => ?_
  simp only [List.mem_filter, Bool.and_eq_true, beq_iff_eq] at ha hb
  exact hab (by simp [TickHandler.accepted, ha.2.2]) (by simp [TickHandler.accepted, hb.2.2])
    (ha.2.1.trans hb.2.1.symm)

/-- The accepted ticks behind the last one to move an element do not move it. -/
theorem Inv.pending_lastToMove (hinv : Inv s) (hquiet : Quiet s) {boardId : String}
    (hmem : h ∈ acceptedOn s boardId) {elementId : String} {position : Position}
    (hmoved : h.payload.positionOf elementId = some position)
    (hlast : LastToMove s boardId elementId h) :
    (s.pendingTickMovesByBoard boardId).get? elementId = some position := by
  obtain ⟨before, after, hsplit⟩ := List.append_of_mem hmem
  have hnumbered : (acceptedOn s boardId).Pairwise Numbered := hinv.numbered.filter _
  rw [hsplit] at hnumbered
  have hbehind := (List.pairwise_cons.mp (List.pairwise_append.mp hnumbered).2.1).1
  have hproperties : ∀ other ∈ acceptedOn s boardId,
      other.accepted = true ∧ other.payload.boardId = boardId := by
    intro other hother
    simpa using (List.mem_filter.mp hother).2
  -- they are numbered above it, and so, if one moved the element, it would not be the last
  have hnot : ∀ other ∈ after, other.payload.positionOf elementId = none := by
    intro other hafter
    have hother : other ∈ acceptedOn s boardId := by
      rw [hsplit]
      exact List.mem_append_right _ (List.mem_cons_of_mem _ hafter)
    have hlt : h.payload.tickId < other.payload.tickId :=
      hbehind other hafter (hproperties h hmem).1 (hproperties other hother).1
        ((hproperties h hmem).2.trans (hproperties other hother).2.symm)
    by_contra hmoves
    have hle := hlast other hother (Option.isSome_iff_ne_none.mpr hmoves)
    exact absurd hlt hle.not_gt
  apply hinv.pending
  rw [movesRelayedTo_quiet hinv hquiet, hsplit]
  exact InsertionMap.find?_reverse_flatMap hmoved hnot

/-- As long as no handler overtakes another one, the last tick wins, in every run. -/
theorem lastTickWins_of_inTurn {activityWriteThrottleMs : Int}
    (hs : (system activityWriteThrottleMs).ReachableUnder InTurn s) (boardId : String) :
    LastTickWins s boardId := by
  have hinv : Inv s := hs.invariant (fun _ => inv_init) fun _ _ _ => inv_step
  exact ⟨fun hquiet h hmem _ _ hmoved hlast => hinv.pending_lastToMove hquiet hmem hmoved hlast,
    hinv.relayed_increasing boardId⟩

end invariant

/-! ### Two ticks of one drag -/

def editor : SocketBoardContext where
  boardId := "b"
  sessionId := "session"
  userId := "u"
  permission := .edit
  userName := "user"
  avatarUrl := none
  color := "red"

/-- A tick that drags the note `a`. -/
def drag (tickId : Rat) (position : Position) : RealtimeTickPayload where
  boardId := "b"
  tickId := tickId
  cursor := some position
  selectedIds := ["a"]
  draggedIds := ["a"]
  focusedElementId := none
  typingField := none
  presenceState := .interacting
  presenceMessage := none
  moves := [("a", position)]

/-- The socket has joined, and has not written its activity yet. -/
def joined : State where
  connected := true
  boardContext := some editor
  boardContextVersion := 1
  lastTickId := -1
  lastActivityWriteAt := 0
  activityJitterMs := none
  handlers := []
  pendingTickMovesByBoard := fun _ => .empty
  relayed := []
  syncErrors := []

theorem joined_init : Init joined := ⟨rfl, rfl⟩

/-- The second tick comes when the first one has been relayed. -/
theorem lastTickWins_of_inTurn_drag :
    ∃ s : State, s.relayed.map (·.tickId) = [1, 2] ∧ LastTickWins s "b" := by
  obtain ⟨s, hs, hrelayed⟩ : ∃ s, (system 3000).execUnder InTurn joined
      [.realtimeTick (some (drag 1 ⟨1, 1⟩)) 10000 0, .advance 0, .advance 0, .advance 0,
        .realtimeTick (some (drag 2 ⟨2, 2⟩)) 10100 0, .advance 1] = some s ∧
        s.relayed.map (·.tickId) = [1, 2] := ⟨_, rfl, rfl⟩
  exact ⟨s, hrelayed, lastTickWins_of_inTurn (.execUnder (.init joined_init) hs) "b"⟩

/-- The first tick writes the activity; the second finds the throttle closed and overtakes it. -/
theorem throttled_tick_overtakes :
    ∃ s : State, (system 3000).Reachable s ∧ Quiet s ∧
      (s.pendingTickMovesByBoard "b").get? "a" = some ⟨1, 1⟩ ∧ ¬ LastTickWins s "b" := by
  obtain ⟨s, hs, hquiet, hpending, hrelayed⟩ : ∃ s, (system 3000).exec joined
      [.realtimeTick (some (drag 1 ⟨1, 1⟩)) 10000 0, .realtimeTick (some (drag 2 ⟨2, 2⟩)) 10100 0,
        .advance 1, .advance 0, .advance 0, .advance 0] = some s ∧
        (∀ h ∈ s.handlers, h.isRefreshing = false) ∧
        (s.pendingTickMovesByBoard "b").get? "a" = some ⟨1, 1⟩ ∧
        relayedTo s "b" = [⟨drag 2 ⟨2, 2⟩, "session", "u", "user", none, "red"⟩,
          ⟨drag 1 ⟨1, 1⟩, "session", "u", "user", none, "red"⟩] :=
    ⟨_, rfl, by decide, rfl, rfl⟩
  refine ⟨s, .exec (.init joined_init) hs, hquiet, hpending, ?_⟩
  intro hwins
  have hsorted := hwins.relayed
  rw [hrelayed] at hsorted
  have hlt := (List.pairwise_cons.mp hsorted).1 _ List.mem_cons_self
  exact absurd hlt (by decide)

end Notebortt.RealtimeTicks
