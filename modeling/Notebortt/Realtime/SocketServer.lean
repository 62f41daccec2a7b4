import Notebortt.Auth.SocketIdentity
import Notebortt.Realtime.WirePayloads
import Notebortt.Requests.Handlers

/-! # The sockets beside the HTTP requests

    The handlers of all sockets over the variables each socket keeps, at the
    same time as the HTTP requests over the tables that the joins read. What a
    handler does between two awaits is one section. Redis and the board state
    are not modelled here: what an awaited call answers, and whether it fails,
    comes with the event. A message to a room is delivered at any later time, and
    to the sockets that are in the room by then.

    Display names, pictures and colors are left out. -/

open Interleaving (Program)

namespace Notebortt.SocketServer

open Invitations (BoardPermission)
open Access (BoardAccess)
open QueuedMoves (Position)
open RealtimeTicks (RealtimeTickPayload)
open Requests (Runtime Tables)
open SocketAuth (Handshake JsValue)
open SocketPresence (ActivityPoint DetachPoint)
open WirePayloads

/-! ### The variables of a socket -/

structure SocketIdentity where
  authUserId : Option String
  runtimeUserId : String
deriving DecidableEq

structure SocketBoardContext where
  boardId : String
  sessionId : String
  permission : BoardPermission
  userId : String
deriving DecidableEq

structure ContextSnapshot where
  context : SocketBoardContext
  version : Nat
deriving DecidableEq

structure SocketState where
  connected : Bool
  boardContext : Option SocketBoardContext
  boardContextVersion : Nat
  identity : Option SocketIdentity
  lastTickId : Rat
  latestJoinAttempt : Nat
  /-- `socket.rooms`. -/
  rooms : List String
deriving DecidableEq

namespace SocketState

def setBoardContext (s : SocketState) (next : Option SocketBoardContext) : SocketState :=
  { s with
    boardContext := next
    boardContextVersion := s.boardContextVersion + 1
    lastTickId := -1 }

/-- An empty `expectedBoardId` is not compared. -/
def takeContextSnapshot (s : SocketState) (expectedBoardId : String) : Option ContextSnapshot :=
  (s.boardContext.filter fun context =>
    expectedBoardId == "" || context.boardId == expectedBoardId).map (⟨·, s.boardContextVersion⟩)

def isSnapshotActive (s : SocketState) (snapshot : ContextSnapshot) : Bool :=
  match s.boardContext with
  | none => false
  | some context =>
    s.connected && snapshot.version == s.boardContextVersion &&
      snapshot.context.boardId == context.boardId &&
      snapshot.context.sessionId == context.sessionId

def isJoinActive (s : SocketState) (joinAttempt : Nat) : Bool :=
  s.connected && joinAttempt == s.latestJoinAttempt

end SocketState

/-! ### What is sent -/

structure RoomParticipant where
  sessionId : String
  userId : String
deriving DecidableEq

inductive RoomEvent where
  | userJoined (participant : RoomParticipant)
  | userLeft (participant : RoomParticipant)
  | mutation (mutation : WireValue)
  | crdtUpdate (update : List UInt8)
  | presence (participant : RoomParticipant) (payload : PresenceUpdatePayload)
  | realtimeTick (participant : RoomParticipant) (payload : RealtimeTickPayload)

structure Message (Socket : Type) where
  /-- The socket left out; `io.to` leaves out none. -/
  sender : Option Socket
  boardId : String
  event : RoomEvent

/-- What a socket gets. The board is ghost where the event does not name it. -/
inductive Received where
  | syncError (message : String)
  | userJoined (boardId : String) (participant : RoomParticipant)
  | mutationAck (boardId : String) (mutationIds : List String) (sequence : Option Nat)
  | boardSnapshot (boardId : String)
  | room (boardId : String) (event : RoomEvent)

/-- The board it is about. -/
def Received.boardId? : Received → Option String
  | .syncError _ => none
  | .userJoined boardId _ | .mutationAck boardId _ _ | .boardSnapshot boardId
  | .room boardId _ => some boardId

inductive EditKind where
  /-- `mutationProcessor.processBatch`. -/
  | batch (mutations : List WireValue)
  /-- `crdtStore.applyRemoteUpdate`. -/
  | crdtUpdate (update : List UInt8)
  /-- `tickPersistence.queueMoves`. -/
  | moves (moves : List (String × Position))

/-- A change of a board handed on, with the user it is handed on for. -/
structure Edit (Socket : Type) where
  socket : Socket
  boardId : String
  userId : String
  kind : EditKind
  /-- Ghost: the variables of the socket then. -/
  found : SocketState

/-! ### State -/

structure World (Socket : Type) where
  tables : Tables
  /-- Ghost: the tables as they have been. -/
  past : List Tables
  /-- Ghost: the share tokens that joins have come with. -/
  presented : List (Socket × String)
  sockets : Socket → SocketState
  /-- The messages to the rooms, in order. -/
  emitted : List (Message Socket)
  received : Socket → List Received
  edits : List (Edit Socket)

def freshSocket : SocketState where
  connected := true
  boardContext := none
  boardContextVersion := 0
  identity := none
  lastTickId := -1
  latestJoinAttempt := 0
  rooms := []

/-- No socket has sent anything yet. -/
def World.starting (Socket : Type) (db : Tables) : World Socket where
  tables := db
  past := []
  presented := []
  sockets := fun _ => freshSocket
  emitted := []
  received := fun _ => []
  edits := []

section world
variable {Socket : Type} [DecidableEq Socket]

namespace World

def setSocket (w : World Socket) (x : Socket) (s : SocketState) : World Socket :=
  { w with sockets := Function.update w.sockets x s }

def safeEmitToSelf (w : World Socket) (x : Socket) (r : Received) : World Socket :=
  { w with received := Function.update w.received x (w.received x ++ [r]) }

omit [DecidableEq Socket] in
/-- `socket.to(boardId).emit`, or `io.to(boardId).emit` without a sender. -/
def emitToBoard (w : World Socket) (sender : Option Socket) (boardId : String)
    (event : RoomEvent) : World Socket :=
  { w with emitted := w.emitted ++ [⟨sender, boardId, event⟩] }

omit [DecidableEq Socket] in
def handOn (w : World Socket) (x : Socket) (boardId userId : String) (kind : EditKind) :
    World Socket :=
  { w with edits := w.edits ++ [⟨x, boardId, userId, kind, w.sockets x⟩] }

omit [DecidableEq Socket] in
/-- A statement of the tables. -/
def write (rt : Runtime) (write : Requests.Write) (w : World Socket) : World Socket :=
  { w with tables := write.apply rt w.tables, past := w.tables :: w.past }

end World

/-! ### What comes from outside -/

/-- What stays the same: the runtime, who connected with what, and the conversions. -/
structure Config (Socket : Type) where
  runtime : Runtime
  socketId : Socket → String
  handshake : Socket → Handshake
  /-- The subject of a token that verifies at a time. -/
  verifyAccessToken : Nat → String → Option String
  parseInt : WireValue → Except ConversionError (Option Rat)

inductive JoinAwait where
  | checkBoardAccess
  | getAdmissionState
  | loadBoard
  | trackClient
  | touchViewerSession
  | getRoomParticipants
  | admitParticipant
  | getSnapshot
deriving DecidableEq

/-- How the calls of one `detachFromBoard` end. -/
structure DetachAnswers where
  rejects : DetachPoint → Bool
  /-- The participant removed. -/
  participant : Option RoomParticipant

/-- How the calls of one BOARD_JOIN end. -/
structure JoinAnswers where
  now : Nat
  lookupFails : String → Bool
  rejects : JoinAwait → Bool
  isMember : Bool
  /-- The room holds `SOCKET_ROOM_CONNECTION_CAP` participants. -/
  full : Bool
  previous : DetachAnswers
  participants : List RoomParticipant
  admitted : Bool
  rejected : DetachAnswers

/-- How one `refreshSocketActivity` goes. -/
structure ActivityAnswers where
  /-- `shouldWriteActivity`. -/
  writes : Bool
  rejects : ActivityPoint → Bool

structure BatchResult where
  mutationId : String
  /-- The status is not `already_applied`. -/
  broadcasts : Bool
  sequence : Option Nat

structure BatchAnswers extends ActivityAnswers where
  /-- What `processBatch` returns; `none` when it throws. -/
  results : Option (List BatchResult)

/-! ### Sections and calls -/

abbrev Handler (Socket α : Type) :=
  Program (World Socket) (World Socket → World Socket) Unit α

/-- A call that is awaited: it returns, or it throws and the handler with it. -/
def awaiting (rejected : Bool) : Handler Socket Unit :=
  .statement none fun _ => if rejected then .fail () else .done ()

variable (cfg : Config Socket) (x : Socket)

/-- A section that does nothing but check. -/
def isJoinActive (joinAttempt : Nat) : Handler Socket Bool :=
  .read fun w => (w.sockets x).isJoinActive joinAttempt

def isSnapshotActive (snapshot : ContextSnapshot) : Handler Socket Bool :=
  .read fun w => (w.sockets x).isSnapshotActive snapshot

def emitError (message : String) : Handler Socket Unit :=
  .atomically fun w => (w.safeEmitToSelf x (.syncError message), ())

def refreshSocketActivity (answers : ActivityAnswers) : Handler Socket Unit := do
  if answers.writes then
    awaiting (answers.rejects .touchingViewerSession)
    awaiting (answers.rejects .trackingClient)
    awaiting (answers.rejects .touchingParticipant)
  else awaiting false

/-- `detachFromBoard` after `setBoardContext(null)`. -/
def detachFromBoard (context : SocketBoardContext) (broadcastLeave : Bool)
    (answers : DetachAnswers) : Handler Socket Unit := do
  awaiting (answers.rejects .removingClient)
  awaiting (answers.rejects .removingViewerSession)
  awaiting (answers.rejects .removingParticipant)
  .atomically fun w =>
    let w := match answers.participant with
      | some participant =>
        if broadcastLeave then w.emitToBoard none context.boardId (.userLeft participant) else w
      | none => w
    let s := w.sockets x
    (w.setSocket x { s with rooms := s.rooms.filter (· ≠ context.boardId) }, ())
  awaiting (answers.rejects .leaving)

/-! ### BOARD_JOIN -/

/-- The first token whose subject has a row. -/
def firstUser (answers : JoinAnswers) : List JsValue → Handler Socket (Option String)
  | [] => return none
  | token :: rest =>
    match token.string?.bind (cfg.verifyAccessToken answers.now) with
    | none => firstUser answers rest
    | some sub => do
      match ← (.read fun w => w.tables.users.find? (·.id == sub)) with
      | none => firstUser answers rest
      | some user => if answers.lookupFails sub then firstUser answers rest else return some user.id

def identityOf : Option String → SocketIdentity
  | some userId => { authUserId := some userId, runtimeUserId := userId }
  | none => { authUserId := none, runtimeUserId := "anonymous:" ++ cfg.socketId x }

def resolveIdentity (joinAttempt : Nat) (answers : JoinAnswers) :
    Handler Socket (Option SocketIdentity) := do
  let userId ← firstUser cfg answers (SocketAuth.tokenSources (cfg.handshake x))
  let identity := identityOf cfg x userId
  .atomically fun w =>
    let s := w.sockets x
    if s.isJoinActive joinAttempt then
      (w.setSocket x { s with identity := some identity }, some identity)
    else (w, none)

/-- The token of the payload, or without one that of the handshake. -/
def joinToken (payload : BoardJoinPayload) : Option String :=
  payload.shareToken.or (cfg.handshake x).queryShareToken.string?

def startJoinAttempt (shareToken : Option String) : Handler Socket (Nat × Option SocketIdentity) :=
  .atomically fun w =>
    let s := w.sockets x
    let joinAttempt := s.latestJoinAttempt + 1
    let w := { w with presented := w.presented ++ shareToken.toList.map (x, ·) }
    (w.setSocket x { s with latestJoinAttempt := joinAttempt }, (joinAttempt, s.identity))

/-- The queries of the HTTP requests. -/
def checkBoardAccess (boardId : String) (userId shareToken : Option String) :
    Handler Socket BoardAccess :=
  ((Requests.requireBoardAccess boardId userId shareToken).on World.tables
    (World.write cfg.runtime)).orElse fun _ => .fail ()

/-- Goes on when the join is active and there is access. -/
def acceptAccess (joinAttempt : Nat) (access : BoardAccess) : Handler Socket Bool :=
  .atomically fun w =>
    if (w.sockets x).isJoinActive joinAttempt then
      if access.hasAccess then (w, true)
      else (w.safeEmitToSelf x (.syncError "No access to board"), false)
    else (w, false)

/-- Goes on unless the room is full; the context of another board or session is dropped. -/
def leavePrevious (joinAttempt : Nat) (payload : BoardJoinPayload) (answers : JoinAnswers) :
    Handler Socket (Option (Option SocketBoardContext)) :=
  .atomically fun w =>
    let s := w.sockets x
    if s.isJoinActive joinAttempt then
      if !answers.isMember && answers.full then
        (w.safeEmitToSelf x (.syncError "Board room is full"), none)
      else
        match s.boardContext.filter fun previous =>
          previous.boardId != payload.boardId || previous.sessionId != payload.sessionId with
        | none => (w, some none)
        | some previous => (w.setSocket x (s.setBoardContext none), some (some previous))
    else (w, none)

/-- `socket.join` and `setBoardContext`. -/
def enterRoom (joinAttempt : Nat) (payload : BoardJoinPayload) (permission : BoardPermission)
    (userId : String) : Handler Socket Bool :=
  .atomically fun w =>
    let s := w.sockets x
    if s.isJoinActive joinAttempt then
      let joined := { s with rooms := s.rooms.insert payload.boardId }
      (w.setSocket x (joined.setBoardContext
        (some ⟨payload.boardId, payload.sessionId, permission, userId⟩)), true)
    else (w, false)

def emitRoster (payload : BoardJoinPayload) (participants : List RoomParticipant) :
    Handler Socket Unit :=
  .atomically fun w =>
    ((participants.filter fun p => p.sessionId ≠ payload.sessionId).foldl
      (fun w p => w.safeEmitToSelf x (.userJoined payload.boardId p)) w, ())

/-- The context to detach, when it is of this board. -/
def rejectAdmission (payload : BoardJoinPayload) : Handler Socket (Option SocketBoardContext) :=
  .atomically fun w =>
    let w := w.safeEmitToSelf x (.syncError "Board room is full")
    let s := w.sockets x
    match s.boardContext.filter fun context => context.boardId == payload.boardId with
    | none => (w, none)
    | some context => (w.setSocket x (s.setBoardContext none), some context)

def announce (joinAttempt : Nat) (payload : BoardJoinPayload) (userId : String) :
    Handler Socket Bool :=
  .atomically fun w =>
    if (w.sockets x).isJoinActive joinAttempt then
      (w.emitToBoard (some x) payload.boardId (.userJoined ⟨payload.sessionId, userId⟩), true)
    else (w, false)

def emitSnapshot (joinAttempt : Nat) (payload : BoardJoinPayload) : Handler Socket Unit :=
  .atomically fun w =>
    let s := w.sockets x
    let current := s.boardContext.any fun context => context.sessionId == payload.sessionId
    if s.isJoinActive joinAttempt && current then
      (w.safeEmitToSelf x (.boardSnapshot payload.boardId), ())
    else (w, ())

/-- From `socket.join` on. -/
def joinRoom (joinAttempt : Nat) (payload : BoardJoinPayload) (permission : BoardPermission)
    (userId : String) (answers : JoinAnswers) : Handler Socket Unit := do
  if ← enterRoom x joinAttempt payload permission userId then
    awaiting (answers.rejects .getRoomParticipants)
    emitRoster x payload answers.participants
    awaiting (answers.rejects .admitParticipant)
    if answers.admitted then
      if ← announce x joinAttempt payload userId then
        awaiting (answers.rejects .getSnapshot)
        emitSnapshot x joinAttempt payload
      else return ()
    else
      match ← rejectAdmission x payload with
      | some context => detachFromBoard x context false answers.rejected
      | none => return ()
  else return ()

/-- From the load of the board on. -/
def prepareBoard (joinAttempt : Nat) (payload : BoardJoinPayload) (permission : BoardPermission)
    (userId : String) (answers : JoinAnswers) : Handler Socket Unit := do
  awaiting (answers.rejects .loadBoard)
  if ← isJoinActive x joinAttempt then
    awaiting (answers.rejects .trackClient)
    if ← isJoinActive x joinAttempt then
      awaiting (answers.rejects .touchViewerSession)
      joinRoom x joinAttempt payload permission userId answers
    else return ()
  else return ()

/-- `permission === 'edit' ? 'edit' : 'view'`. -/
def contextPermission (access : BoardAccess) : BoardPermission := Requests.orView access.permission

/-- From the identity on. -/
def joinAs (joinAttempt : Nat) (payload : BoardJoinPayload) (identity : SocketIdentity)
    (answers : JoinAnswers) : Handler Socket Unit := do
  if ← isJoinActive x joinAttempt then
    awaiting (answers.rejects .checkBoardAccess)
    let access ←
      checkBoardAccess cfg payload.boardId identity.authUserId (joinToken cfg x payload)
    if ← acceptAccess x joinAttempt access then
      awaiting (answers.rejects .getAdmissionState)
      match ← leavePrevious x joinAttempt payload answers with
      | none => return ()
      | some none =>
        prepareBoard x joinAttempt payload (contextPermission access) identity.runtimeUserId answers
      | some (some previous) =>
        detachFromBoard x previous true answers.previous
        prepareBoard x joinAttempt payload (contextPermission access) identity.runtimeUserId answers
    else return ()
  else return ()

def onBoardJoin (raw : WireValue) (answers : JoinAnswers) : Handler Socket Unit :=
  match parseBoardJoinPayload cfg.parseInt raw with
  | .error _ => .fail ()
  | .ok none => emitError x "Invalid board join payload"
  | .ok (some payload) => do
    let (joinAttempt, known) ← startJoinAttempt x (joinToken cfg x payload)
    match known with
    | some identity => joinAs cfg x joinAttempt payload identity answers
    | none =>
      match ← resolveIdentity cfg x joinAttempt answers with
      | none => return ()
      | some identity => joinAs cfg x joinAttempt payload identity answers

/-! ### The other events -/

def isString (v : WireValue) (s : String) : Bool :=
  match v with
  | .string t => t == s
  | _ => false

def hasConsistentBatchBoardId (boardId : String) (mutations : List WireValue) : Bool :=
  mutations.all fun mutation => mutation.isRecord && isString (mutation.member "boardId") boardId

/-- The snapshot of an event that is let through. -/
def acceptEvent (boardId invalid : String) (refusal : ContextSnapshot → Option String) :
    Handler Socket (Option ContextSnapshot) :=
  .atomically fun w =>
    match (w.sockets x).takeContextSnapshot boardId with
    | none => (w.safeEmitToSelf x (.syncError invalid), none)
    | some snapshot =>
      match refusal snapshot with
      | some message => (w.safeEmitToSelf x (.syncError message), none)
      | none => (w, some snapshot)

/-- The refusal of a context without edit permission. -/
def needsEdit (snapshot : ContextSnapshot) : Option String :=
  if snapshot.context.permission ≠ .edit then some "No edit access to this board" else none

/-- The section after the refresh: it runs while the snapshot is active. -/
def whileActive (snapshot : ContextSnapshot) (run : World Socket → World Socket) :
    Handler Socket Bool :=
  .atomically fun w =>
    if (w.sockets x).isSnapshotActive snapshot then (run w, true) else (w, false)

def ContextSnapshot.participant (snapshot : ContextSnapshot) : RoomParticipant :=
  ⟨snapshot.context.sessionId, snapshot.context.userId⟩

/-- The broadcasts of the results, and the acknowledgement. -/
def emitResults (payload : MutationBatchPayload) (snapshot : ContextSnapshot)
    (results : List BatchResult) : Handler Socket Unit :=
  .atomically fun w =>
    let processed := payload.mutations.zip results
    let w := (processed.filter fun entry => entry.2.broadcasts).foldl
      (fun w entry => w.emitToBoard (some x) payload.boardId (.mutation entry.1)) w
    if (w.sockets x).isSnapshotActive snapshot then
      (w.safeEmitToSelf x (.mutationAck snapshot.context.boardId
        (processed.map (·.2.mutationId)) (processed.filterMap (·.2.sequence)).getLast?), ())
    else (w, ())

def onMutationBatch (raw : WireValue) (answers : BatchAnswers) : Handler Socket Unit :=
  match parseMutationBatchPayload raw with
  | none => emitError x "Invalid mutation batch payload"
  | some payload => do
    let refusal (snapshot : ContextSnapshot) : Option String :=
      if !hasConsistentBatchBoardId payload.boardId payload.mutations then
        some "Mutation board mismatch"
      else needsEdit snapshot
    match ← acceptEvent x payload.boardId "Invalid mutation batch payload" refusal with
    | none => return ()
    | some snapshot =>
      refreshSocketActivity answers.toActivityAnswers
      if ← whileActive x snapshot fun w =>
          w.handOn x payload.boardId snapshot.context.userId (.batch payload.mutations) then
        awaiting answers.results.isNone
        if ← isSnapshotActive x snapshot then
          -- `events.emit` never rejects, and nothing is checked after it
          awaiting false
          emitResults x payload snapshot (answers.results.getD [])
        else return ()
      else return ()

def onCrdtUpdate (raw : WireValue) (answers : ActivityAnswers) : Handler Socket Unit :=
  match parseCrdtUpdatePayload raw with
  | none => emitError x "Invalid CRDT update payload"
  | some payload => do
    match ← acceptEvent x payload.boardId "Invalid CRDT update payload" needsEdit with
    | none => return ()
    | some snapshot =>
      refreshSocketActivity answers
      let _ ← whileActive x snapshot fun w =>
        let w := w.handOn x payload.boardId snapshot.context.userId (.crdtUpdate payload.update)
        w.emitToBoard (some x) payload.boardId (.crdtUpdate payload.update)
      return ()

def onPresenceUpdate (raw : WireValue) (answers : ActivityAnswers) : Handler Socket Unit :=
  match parsePresenceUpdatePayload raw with
  | none => emitError x "Invalid presence payload"
  | some payload => do
    match ← acceptEvent x payload.boardId "Invalid presence payload" fun _ => none with
    | none => return ()
    | some snapshot =>
      refreshSocketActivity answers
      let _ ← whileActive x snapshot fun w =>
        w.emitToBoard (some x) payload.boardId (.presence snapshot.participant payload)
      return ()

/-- A tick up to its first await: the guard on its number moves on before the check of the
    permission. -/
def acceptTick (payload : RealtimeTickPayload) : Handler Socket (Option ContextSnapshot) :=
  .atomically fun w =>
    let s := w.sockets x
    match s.takeContextSnapshot payload.boardId with
    | none => (w.safeEmitToSelf x (.syncError "Invalid realtime tick payload"), none)
    | some snapshot =>
      if payload.tickId ≤ s.lastTickId then (w, none)
      else
        let w := w.setSocket x { s with lastTickId := payload.tickId }
        if !payload.moves.isEmpty && snapshot.context.permission != .edit then
          (w.safeEmitToSelf x (.syncError "No edit access to this board"), none)
        else (w, some snapshot)

def onRealtimeTick (raw : WireValue) (answers : ActivityAnswers) : Handler Socket Unit :=
  match parseRealtimeTickPayload cfg.parseInt raw with
  | .error _ => .fail ()
  | .ok none => emitError x "Invalid realtime tick payload"
  | .ok (some payload) => do
    match ← acceptTick x payload with
    | none => return ()
    | some snapshot =>
      refreshSocketActivity answers
      let _ ← whileActive x snapshot fun w =>
        let w := if payload.moves.isEmpty then w
          else w.handOn x payload.boardId snapshot.context.userId (.moves payload.moves)
        w.emitToBoard (some x) payload.boardId (.realtimeTick snapshot.participant payload)
      return ()

/-- The socket is closed, and has left its rooms before its DISCONNECT handler runs. -/
def closeSocket : Handler Socket (Option SocketBoardContext) :=
  .atomically fun w =>
    let s := { w.sockets x with connected := false, rooms := [] }
    match s.boardContext with
    | none => (w.setSocket x s, none)
    -- once by the handler, and once by `detachFromBoard`
    | some context =>
      (w.setSocket x ((s.setBoardContext none).setBoardContext none), some context)

def onDisconnect (answers : DetachAnswers) : Handler Socket Unit := do
  match ← closeSocket x with
  | none => return ()
  | some context =>
    detachFromBoard x context true answers
    -- an editor's BOARD_EDITORS_LEFT
    awaiting false

/-! ### The server -/

/-- The adapter brings a message to one more socket, if it is in the room. -/
def deliver (i : Nat) : Handler Socket Unit :=
  .atomically fun w =>
    match w.emitted[i]? with
    | none => (w, ())
    | some m =>
      if (w.sockets x).rooms.contains m.boardId && m.sender != some x then
        (w.safeEmitToSelf x (.room m.boardId m.event), ())
      else (w, ())

inductive ServerEvent (Socket : Type) where
  | http (request : Requests.Request)
  | boardJoin (x : Socket) (raw : WireValue) (answers : JoinAnswers)
  | mutationBatch (x : Socket) (raw : WireValue) (answers : BatchAnswers)
  | crdtUpdate (x : Socket) (raw : WireValue) (answers : ActivityAnswers)
  | presenceUpdate (x : Socket) (raw : WireValue) (answers : ActivityAnswers)
  | realtimeTick (x : Socket) (raw : WireValue) (answers : ActivityAnswers)
  | disconnect (x : Socket) (answers : DetachAnswers)
  | deliver (x : Socket) (i : Nat)

def handle : ServerEvent Socket → Handler Socket Unit
  | .http request => do
    let _ ← (((Requests.handle cfg.runtime request).on World.tables
      (World.write cfg.runtime)).orElse fun _ => .fail () : Handler Socket Requests.Response)
    return ()
  | .boardJoin x raw answers => onBoardJoin cfg x raw answers
  | .mutationBatch x raw answers => onMutationBatch x raw answers
  | .crdtUpdate x raw answers => onCrdtUpdate x raw answers
  | .presenceUpdate x raw answers => onPresenceUpdate x raw answers
  | .realtimeTick x raw answers => onRealtimeTick cfg x raw answers
  | .disconnect x answers => onDisconnect x answers
  | .deliver x i => deliver x i

omit [DecidableEq Socket] in
/-- A socket that is closed sends no events. -/
def admits (w : World Socket) : ServerEvent Socket → Bool
  | .http request => Requests.admits w.tables request
  | .boardJoin x _ _ | .mutationBatch x _ _ | .crdtUpdate x _ _ | .presenceUpdate x _ _
  | .realtimeTick x _ _ | .disconnect x _ => (w.sockets x).connected
  | .deliver _ _ => true

end world

end Notebortt.SocketServer
