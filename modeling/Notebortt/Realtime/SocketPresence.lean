import Mathlib.Data.Fintype.Basic
import Mathlib.Logic.Function.Basic
import Notebortt.Lib.Transition

/-! # Presence of one socket

    The `BOARD_JOIN`, activity and `DISCONNECT` handlers of one socket, over its
    entries in the boards' client sets and participants hashes. Between two
    awaits a handler runs in one step, every request it awaits is carried out in
    one step, and any number of handlers are under way. -/

open Transition

namespace Notebortt.SocketPresence

/-! ### Handlers -/

inductive BoardPermission where
  | view
  | edit
deriving DecidableEq, Repr

structure SocketBoardContext where
  boardId : String
  sessionId : String
  userId : String
  permission : BoardPermission
deriving DecidableEq, Repr

structure BoardJoinPayload where
  boardId : String
  sessionId : String
deriving DecidableEq, Repr

/-- What `detachFromBoard` awaits. -/
inductive DetachPoint where
  | removingClient
  | removingViewerSession
  | removingParticipant
  /-- `cleanupBoardRealtimeStateIfEmpty`, then `persistBoardOnGlobalDrain`. -/
  | leaving
deriving DecidableEq

/-- A `detachFromBoard` under way. -/
structure Detach where
  context : SocketBoardContext
  point : DetachPoint
deriving DecidableEq

/-- What a `BOARD_JOIN` handler awaits. -/
inductive JoinPoint where
  | resolvingIdentity
  | checkingAccess (userId : String)
  | gettingAdmissionState (userId : String) (permission : BoardPermission)
  /-- The admission state is read, and its answer on the way. -/
  | admissionStateRead (userId : String) (permission : BoardPermission) (isMember full : Bool)
  | detachingPrevious (userId : String) (permission : BoardPermission) (detach : Detach)
  | loadingBoard (userId : String) (permission : BoardPermission)
  | trackingClient (userId : String) (permission : BoardPermission)
  /-- The client is in the set, and `trackClient` has not returned. -/
  | clientTracked (userId : String) (permission : BoardPermission)
  | touchingViewerSession (userId : String) (permission : BoardPermission)
  | gettingRoomParticipants
  | admittingParticipant
  /-- The admission is decided, and its answer on the way. -/
  | admissionDecided (admitted : Bool)
  | detachingRejected (detach : Detach)
  | gettingSnapshot
deriving DecidableEq

/-- What `refreshSocketActivity` awaits. -/
inductive ActivityPoint where
  | touchingViewerSession
  | trackingClient
  | touchingParticipant
deriving DecidableEq

inductive Handler where
  | boardJoin (joinAttempt : Nat) (payload : BoardJoinPayload) (point : JoinPoint)
  /-- An event that refreshes the activity of the context it took. -/
  | activity (context : SocketBoardContext) (point : ActivityPoint)
  | disconnect (detach : Detach)
deriving DecidableEq

/-- The events whose handlers call `refreshSocketActivity`. -/
inductive ActivityEvent where
  | mutationBatch
  | crdtUpdate
  | presenceUpdate
  | realtimeTick (moves : Bool)
deriving DecidableEq

/-- A handler that turns away a context without edit permission. -/
def ActivityEvent.needsEdit : ActivityEvent → Bool
  | .mutationBatch => true
  | .crdtUpdate => true
  | .presenceUpdate => false
  | .realtimeTick moves => moves

/-! ### State -/

structure State (ρ : Type) where
  connected : Bool
  latestJoinAttempt : Nat
  /-- The `runtimeUserId` of the identity, once it is resolved. -/
  identity : Option String
  boardContext : Option SocketBoardContext
  /-- The boards and users with `clientMember(userId, socket.id)` in the client set. -/
  clients : List (String × String)
  /-- The boards with a field of the socket in the participants hash. -/
  participants : List String
  /-- The handlers under way. -/
  handlers : ρ → Option Handler

/-- What one step of a handler does to the socket's variables and entries. -/
inductive Effect where
  | skip
  | setIdentity (userId : String)
  | setBoardContext (next : Option SocketBoardContext)
  | trackClient (client : String × String)
  | removeClient (client : String × String)
  | admitParticipant (boardId : String)
  | removeParticipant (boardId : String)
deriving DecidableEq

/-- The entry `trackClient` makes for a context. -/
def SocketBoardContext.client (context : SocketBoardContext) : String × String :=
  (context.boardId, context.userId)

section system
variable {ρ : Type} [DecidableEq ρ]

def State.setHandler (s : State ρ) (h : ρ) (handler : Option Handler) : State ρ :=
  { s with handlers := Function.update s.handlers h handler }

def State.apply (s : State ρ) : Effect → State ρ
  | .skip => s
  | .setIdentity userId => { s with identity := some userId }
  | .setBoardContext next => { s with boardContext := next }
  | .trackClient client => { s with clients := s.clients.insert client }
  | .removeClient client => { s with clients := s.clients.filter (· ≠ client) }
  | .admitParticipant boardId => { s with participants := s.participants.insert boardId }
  | .removeParticipant boardId => { s with participants := s.participants.filter (· ≠ boardId) }

def State.isJoinActive (s : State ρ) (joinAttempt : Nat) : Bool :=
  s.connected && joinAttempt == s.latestJoinAttempt

/-- The context an activity event takes; an empty `expectedBoardId` is not compared. -/
def State.takeContextSnapshot (s : State ρ) (expectedBoardId : String) :
    Option SocketBoardContext :=
  s.boardContext.filter fun context =>
    expectedBoardId == "" || context.boardId == expectedBoardId

/-- The context of another board or session, which a join detaches. -/
def State.previousContext (s : State ρ) (payload : BoardJoinPayload) :
    Option SocketBoardContext :=
  s.boardContext.filter fun previous =>
    previous.boardId != payload.boardId || previous.sessionId != payload.sessionId

/-! ### Steps -/

/-- What the awaited request may answer, as far as a handler looks at it. -/
structure Answer where
  /-- `runtimeUserId` of the resolved identity. -/
  identity : Option String
  /-- The permission, when there is access. -/
  access : Option BoardPermission
  /-- The room holds `SOCKET_ROOM_CONNECTION_CAP` participants. -/
  full : Bool

def Detach.advance (detach : Detach) : Effect × Option Detach :=
  match detach.point with
  | .removingClient =>
    (.removeClient detach.context.client, some ⟨detach.context, .removingViewerSession⟩)
  | .removingViewerSession => (.skip, some ⟨detach.context, .removingParticipant⟩)
  | .removingParticipant =>
    (.removeParticipant detach.context.boardId, some ⟨detach.context, .leaving⟩)
  | .leaving => (.skip, none)

/-- One step of a `BOARD_JOIN` handler: what it does, and what it awaits next. -/
def JoinPoint.advance (s : State ρ) (joinAttempt : Nat) (payload : BoardJoinPayload)
    (answer : Answer) : JoinPoint → Effect × Option JoinPoint
  | .resolvingIdentity =>
    match answer.identity with
    | none => (.skip, none)
    | some userId =>
      if s.isJoinActive joinAttempt then (.setIdentity userId, some (.checkingAccess userId))
      else (.skip, none)
  | .checkingAccess userId =>
    if s.isJoinActive joinAttempt then
      match answer.access with
      -- 'No access to board'
      | none => (.skip, none)
      | some permission => (.skip, some (.gettingAdmissionState userId permission))
    else (.skip, none)
  | .gettingAdmissionState userId permission =>
    let isMember := s.participants.contains payload.boardId
    (.skip, some (.admissionStateRead userId permission isMember answer.full))
  | .admissionStateRead userId permission isMember full =>
    if s.isJoinActive joinAttempt then
      -- 'Board room is full'
      if !isMember && full then (.skip, none)
      else
        match s.previousContext payload with
        | none => (.skip, some (.loadingBoard userId permission))
        | some previous =>
          (.setBoardContext none,
            some (.detachingPrevious userId permission ⟨previous, .removingClient⟩))
    else (.skip, none)
  | .detachingPrevious userId permission detach =>
    match detach.advance with
    | (effect, some detach) => (effect, some (.detachingPrevious userId permission detach))
    | (effect, none) => (effect, some (.loadingBoard userId permission))
  | .loadingBoard userId permission =>
    if s.isJoinActive joinAttempt then (.skip, some (.trackingClient userId permission))
    else (.skip, none)
  | .trackingClient userId permission =>
    (.trackClient (payload.boardId, userId), some (.clientTracked userId permission))
  | .clientTracked userId permission =>
    if s.isJoinActive joinAttempt then (.skip, some (.touchingViewerSession userId permission))
    else (.skip, none)
  | .touchingViewerSession userId permission =>
    if s.isJoinActive joinAttempt then
      (.setBoardContext (some ⟨payload.boardId, payload.sessionId, userId, permission⟩),
        some .gettingRoomParticipants)
    else (.skip, none)
  | .gettingRoomParticipants => (.skip, some .admittingParticipant)
  | .admittingParticipant =>
    if s.participants.contains payload.boardId || !answer.full then
      (.admitParticipant payload.boardId, some (.admissionDecided true))
    else (.skip, some (.admissionDecided false))
  | .admissionDecided true =>
    if s.isJoinActive joinAttempt then (.skip, some .gettingSnapshot) else (.skip, none)
  | .admissionDecided false =>
    -- 'Board room is full'
    match s.boardContext.filter fun context => context.boardId == payload.boardId with
    | none => (.skip, none)
    | some context => (.setBoardContext none, some (.detachingRejected ⟨context, .removingClient⟩))
  | .detachingRejected detach =>
    match detach.advance with
    | (effect, detach) => (effect, detach.map .detachingRejected)
  | .gettingSnapshot => (.skip, none)

def ActivityPoint.advance (context : SocketBoardContext) :
    ActivityPoint → Effect × Option ActivityPoint
  | .touchingViewerSession => (.skip, some .trackingClient)
  | .trackingClient => (.trackClient context.client, some .touchingParticipant)
  | .touchingParticipant => (.skip, none)

def Handler.advance (s : State ρ) (answer : Answer) : Handler → Effect × Option Handler
  | .boardJoin joinAttempt payload point =>
    match point.advance s joinAttempt payload answer with
    | (effect, point) => (effect, point.map (.boardJoin joinAttempt payload))
  | .activity context point =>
    match point.advance context with
    | (effect, point) => (effect, point.map (.activity context))
  | .disconnect detach =>
    match detach.advance with
    | (effect, detach) => (effect, detach.map .disconnect)

inductive Label (ρ : Type) where
  | boardJoin (h : ρ) (payload : BoardJoinPayload)
  /-- `writes`: the activity was not written within the throttle window. -/
  | activity (h : ρ) (event : ActivityEvent) (boardId : String) (writes : Bool)
  | disconnect (h : ρ)
  /-- The request the handler awaits is carried out, or has answered, and the handler goes on. -/
  | advance (h : ρ) (answer : Answer)
  /-- The request the handler awaits fails, and the handler with it. -/
  | reject (h : ρ)
  /-- A client whose lease is over is pruned. -/
  | pruneClient (client : String × String)
  | pruneParticipant (boardId : String)

/-- A `BOARD_JOIN` handler at its first await. -/
def State.startJoin (s : State ρ) (h : ρ) (payload : BoardJoinPayload) : State ρ :=
  let joinAttempt := s.latestJoinAttempt + 1
  let point := match s.identity with
    | some userId => .checkingAccess userId
    | none => .resolvingIdentity
  { s with latestJoinAttempt := joinAttempt }.setHandler h
    (some (.boardJoin joinAttempt payload point))

/-- The socket is closed and its `DISCONNECT` handler at its first await. -/
def State.startDisconnect (s : State ρ) (h : ρ) : State ρ :=
  match s.boardContext with
  | none => { s with connected := false }
  | some context =>
    { s with connected := false, boardContext := none }.setHandler h
      (some (.disconnect ⟨context, .removingClient⟩))

def step (s : State ρ) : Label ρ → Option (State ρ)
  | .boardJoin h payload =>
    if s.connected && (s.handlers h).isNone then some (s.startJoin h payload) else none
  | .activity h event boardId writes =>
    if s.connected && (s.handlers h).isNone then
      match s.takeContextSnapshot boardId with
      | none => some s
      | some context =>
        if (event.needsEdit && context.permission != .edit) || !writes then some s
        else some (s.setHandler h (some (.activity context .touchingViewerSession)))
    else none
  | .disconnect h =>
    if s.connected && (s.handlers h).isNone then some (s.startDisconnect h) else none
  | .advance h answer =>
    match s.handlers h with
    | none => none
    | some handler =>
      match handler.advance s answer with
      | (effect, next) => some ((s.apply effect).setHandler h next)
  | .reject h =>
    match s.handlers h with
    | none => none
    | some _ => some (s.setHandler h none)
  | .pruneClient client => some (s.apply (.removeClient client))
  | .pruneParticipant boardId => some (s.apply (.removeParticipant boardId))

/-- A socket that has just connected. -/
def connectedSocket : State ρ where
  connected := true
  latestJoinAttempt := 0
  identity := none
  boardContext := none
  clients := []
  participants := []
  handlers := fun _ => none

variable (ρ) in
def system : System (State ρ) (Label ρ) where
  init s := s = connectedSocket
  step := step

/-- Once the socket is disconnected and its handlers have finished, no board has an entry of it. -/
def NothingLeft (s : State ρ) : Prop :=
  s.connected = false → (∀ h, s.handlers h = none) → s.clients = [] ∧ s.participants = []

/-! ### Who answers for an entry -/

/-- The client `detachFromBoard` has still to remove. -/
def Detach.client? (detach : Detach) : Option (String × String) :=
  match detach.point with
  | .removingClient => some detach.context.client
  | _ => none

/-- The board whose participant `detachFromBoard` has still to remove. -/
def Detach.participant? (detach : Detach) : Option String :=
  match detach.point with
  | .leaving => none
  | _ => some detach.context.boardId

def JoinPoint.detach? : JoinPoint → Option Detach
  | .detachingPrevious _ _ detach => some detach
  | .detachingRejected detach => some detach
  | _ => none

/-- The user a join has tracked on its board and has not yet made a context of. -/
def JoinPoint.tracked? : JoinPoint → Option String
  | .clientTracked userId _ => some userId
  | .touchingViewerSession userId _ => some userId
  | _ => none

def Handler.detach? : Handler → Option Detach
  | .boardJoin _ _ point => point.detach?
  | .activity .. => none
  | .disconnect detach => some detach

/-- The client a handler answers for: it removes it, or is to make it the context's. -/
def Handler.client? : Handler → Option (String × String)
  | .boardJoin _ payload point =>
    match point.tracked? with
    | some userId => some (payload.boardId, userId)
    | none => point.detach?.bind Detach.client?
  | .activity .. => none
  | .disconnect detach => detach.client?

/-- The board whose participant a handler removes. -/
def Handler.participant? (handler : Handler) : Option String :=
  handler.detach?.bind Detach.participant?

/-- Somebody answers for an entry: the context, or a handler other than `except`. -/
def Covered {α : Type} (ofContext : SocketBoardContext → α) (ofHandler : Handler → Option α)
    (s : State ρ) (except : Option ρ) (entry : α) : Prop :=
  s.boardContext.map ofContext = some entry ∨
    ∃ h, some h ≠ except ∧ (s.handlers h).bind ofHandler = some entry

def ClientCovered (s : State ρ) (except : Option ρ) (client : String × String) : Prop :=
  Covered SocketBoardContext.client Handler.client? s except client

def ParticipantCovered (s : State ρ) (except : Option ρ) (boardId : String) : Prop :=
  Covered SocketBoardContext.boardId Handler.participant? s except boardId

/-- The entries the handler answers for are gone, or somebody else answers for them too. -/
def MayEnd (s : State ρ) (h : ρ) (handler : Handler) : Prop :=
  (∀ client ∈ s.clients, handler.client? = some client → ClientCovered s (some h) client) ∧
    ∀ boardId ∈ s.participants, handler.participant? = some boardId →
      ParticipantCovered s (some h) boardId

/-- One of the two checks of a join between `trackClient` and `setBoardContext` is next, and
    fails. -/
def Handler.givesUp (s : State ρ) : Handler → Bool
  | .boardJoin joinAttempt _ point => point.tracked?.isSome && !s.isJoinActive joinAttempt
  | _ => false

/-- The board a join asks next to be admitted to. -/
def Handler.admits? : Handler → Option String
  | .boardJoin _ payload .admittingParticipant => some payload.boardId
  | _ => none

/-- The client `refreshSocketActivity` tracks next. -/
def Handler.refreshes? : Handler → Option (String × String)
  | .activity context .trackingClient => some context.client
  | _ => none

/-- The next step of the handler makes no entry nobody answers for, and leaves none behind. -/
structure MayAdvance (s : State ρ) (h : ρ) (answer : Answer) (handler : Handler) : Prop where
  givesUp : handler.givesUp s = true → MayEnd s h handler
  admits : answer.full = true ∨ ∀ boardId ∈ handler.admits?, ParticipantCovered s none boardId
  refreshes : ∀ client ∈ handler.refreshes?, ClientCovered s none client

/-- Every entry made is answered for when it is made, and no handler ends that alone answers for
    one. -/
def EntriesStayCovered (s : State ρ) : Label ρ → Prop
  | .advance h answer => ∀ handler ∈ s.handlers h, MayAdvance s h answer handler
  | .reject h => ∀ handler ∈ s.handlers h, MayEnd s h handler
  | _ => True

section decidable
variable [Fintype ρ]

instance {α : Type} [DecidableEq α] (ofContext : SocketBoardContext → α)
    (ofHandler : Handler → Option α) (s : State ρ) (except : Option ρ) (entry : α) :
    Decidable (Covered ofContext ofHandler s except entry) :=
  inferInstanceAs (Decidable (_ ∨ _))

instance (s : State ρ) (except : Option ρ) (client : String × String) :
    Decidable (ClientCovered s except client) :=
  inferInstanceAs (Decidable (Covered ..))

instance (s : State ρ) (except : Option ρ) (boardId : String) :
    Decidable (ParticipantCovered s except boardId) :=
  inferInstanceAs (Decidable (Covered ..))

instance (s : State ρ) (h : ρ) (handler : Handler) : Decidable (MayEnd s h handler) :=
  inferInstanceAs (Decidable (_ ∧ _))

instance (s : State ρ) (h : ρ) (answer : Answer) (handler : Handler) :
    Decidable (MayAdvance s h answer handler) :=
  decidable_of_iff
    ((handler.givesUp s = true → MayEnd s h handler) ∧
      (answer.full = true ∨ ∀ boardId ∈ handler.admits?, ParticipantCovered s none boardId) ∧
        ∀ client ∈ handler.refreshes?, ClientCovered s none client)
    ⟨fun ⟨hends, hadmits, hrefreshes⟩ => ⟨hends, hadmits, hrefreshes⟩,
      fun h => ⟨h.givesUp, h.admits, h.refreshes⟩⟩

instance (s : State ρ) : (l : Label ρ) → Decidable (EntriesStayCovered s l)
  | .advance h answer =>
    inferInstanceAs (Decidable (∀ handler ∈ s.handlers h, MayAdvance s h answer handler))
  | .reject h => inferInstanceAs (Decidable (∀ handler ∈ s.handlers h, MayEnd s h handler))
  | .boardJoin .. => .isTrue trivial
  | .activity .. => .isTrue trivial
  | .disconnect _ => .isTrue trivial
  | .pruneClient _ => .isTrue trivial
  | .pruneParticipant _ => .isTrue trivial

end decidable

end system

end Notebortt.SocketPresence
