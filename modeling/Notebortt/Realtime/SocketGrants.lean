import Notebortt.Realtime.SocketServer
import Notebortt.Requests.LinkTokens

/-! # What the sockets may do, and why

    Whatever a socket changes, gets and says of a board, the tables have let it
    in at some time: its join has found a link open to the token it came with, a
    membership or a role. A change is handed on only while the socket is
    connected and its context is one of that board with the permission to edit,
    whatever joins, leaves and disconnects run beside the handler. -/

open Interleaving (Discipline Program)

namespace Notebortt.SocketServer

open Invitations (BoardPermission)
open Access (BoardAccess getBoard getBoardMemberPermission getWorkspaceBoardMembershipPermission)
open Requests (Opens Runtime Stored Tables)
open RealtimeTicks (RealtimeTickPayload)
open WirePayloads

/-! ### Who is let in -/

/-- What has been: the tables, and the share tokens the sockets have presented. -/
structure Past (Socket : Type) where
  tables : Tables → Prop
  presented : Socket → String → Prop

structure Past.Le {Socket : Type} (history history' : Past Socket) : Prop where
  tables : ∀ db, history.tables db → history'.tables db
  presented : ∀ x token, history.presented x token → history'.presented x token

/-- The tables as they are, or as they have been. -/
def World.History {Socket : Type} (w : World Socket) : Past Socket where
  tables := fun db => db = w.tables ∨ db ∈ w.past
  presented := fun x token => (x, token) ∈ w.presented

/-- Tables of the history have let the socket into the board with a permission. The role may have
    been read in later tables than the board. -/
inductive LetIn {Socket : Type} (history : Past Socket) (x : Socket) (boardId : String)
    (userId : Option String) (permission : BoardPermission) : Prop where
  | link {db : Tables} {token : String} (hdb : history.tables db)
      (hpresented : history.presented x token) (hopens : Opens db token boardId permission)
  | member {db : Tables} {u : String} (hdb : history.tables db) (huser : userId = some u)
      (hmember : getBoardMemberPermission db.access boardId u = some permission)
  | role {db₀ db : Tables} {board : Access.Board} {u : String} (hdb₀ : history.tables db₀)
      (hdb : history.tables db) (huser : userId = some u)
      (hboard : getBoard db₀.access boardId = some board)
      (hrole : getWorkspaceBoardMembershipPermission db.access board.workspaceId u =
        some permission)

/-- Whom an event of a room speaks for. -/
def RoomEvent.speaker? : RoomEvent → Option RoomParticipant
  | .userJoined participant | .presence participant _ | .realtimeTick participant _ =>
    some participant
  | .userLeft _ | .mutation _ | .crdtUpdate _ => none

/-- The event carries a change of the board. -/
def RoomEvent.changes : RoomEvent → Bool
  | .mutation _ | .crdtUpdate _ => true
  | .realtimeTick _ payload => !payload.moves.isEmpty
  | .userJoined _ | .userLeft _ | .presence _ _ => false

section grants
variable {Socket : Type} (cfg : Config Socket) (history : Past Socket) (x : Socket)

/-- A token the socket connected with is the user's, who had a row. -/
def Names (userId : String) : Prop :=
  ∃ token ∈ SocketAuth.tokenSources (cfg.handshake x), ∃ now,
    token.string?.bind (cfg.verifyAccessToken now) = some userId ∧
      ∃ db, history.tables db ∧ ∃ u ∈ db.users, u.id = userId

structure IsIdentity (i : SocketIdentity) : Prop where
  eq : i = identityOf cfg x i.authUserId
  named : ∀ userId, i.authUserId = some userId → Names cfg history x userId

/-- The socket, under this user id, has been let into the board with the permission. -/
def Granted (boardId userId : String) (permission : BoardPermission) : Prop :=
  ∃ i, IsIdentity cfg history x i ∧ i.runtimeUserId = userId ∧
    LetIn history x boardId i.authUserId permission

/-- The socket has been let into the board. -/
def Sees (boardId : String) : Prop :=
  ∃ userId permission, Granted cfg history x boardId userId permission

/-- The event speaks for the user under whom the socket has been let into the board, and far enough
    for what it carries. -/
def MaySay (boardId : String) (event : RoomEvent) : Prop :=
  ∃ userId permission, Granted cfg history x boardId userId permission ∧
    (event.changes = true → permission = .edit) ∧
    ∀ p, event.speaker? = some p → p.userId = userId

/-- What a change found when it was handed on. -/
structure Justified (e : Edit Socket) : Prop where
  connected : e.found.connected = true
  context : ∃ sessionId, e.found.boardContext = some ⟨e.boardId, sessionId, .edit, e.userId⟩
  granted : Granted cfg history e.socket e.boardId e.userId .edit

structure SocketOk (s : SocketState) : Prop where
  identity : ∀ i, s.identity = some i → IsIdentity cfg history x i
  context : ∀ c, s.boardContext = some c → Granted cfg history x c.boardId c.userId c.permission
  rooms : ∀ boardId ∈ s.rooms, Sees cfg history x boardId

end grants

section monotone
variable {Socket : Type} {cfg : Config Socket} {history history' history'' : Past Socket}
  {x : Socket}

theorem Past.Le.refl (history : Past Socket) : history.Le history :=
  ⟨fun _ h => h, fun _ _ h => h⟩

theorem Past.Le.trans (h : history.Le history') (h' : history'.Le history'') :
    history.Le history'' :=
  ⟨fun db hdb => h'.tables db (h.tables db hdb),
    fun x token hpresented => h'.presented x token (h.presented x token hpresented)⟩

theorem LetIn.mono {boardId : String} {userId : Option String} {permission : BoardPermission}
    (hle : history.Le history') (h : LetIn history x boardId userId permission) :
    LetIn history' x boardId userId permission := by
  cases h with
  | link hdb hpresented hopens =>
    exact .link (hle.tables _ hdb) (hle.presented _ _ hpresented) hopens
  | member hdb huser hmember => exact .member (hle.tables _ hdb) huser hmember
  | role hdb₀ hdb huser hboard hrole =>
    exact .role (hle.tables _ hdb₀) (hle.tables _ hdb) huser hboard hrole

theorem IsIdentity.mono {i : SocketIdentity} (hle : history.Le history')
    (h : IsIdentity cfg history x i) : IsIdentity cfg history' x i := by
  refine ⟨h.eq, ?_⟩
  intro userId hi
  obtain ⟨token, htoken, now, hverifies, db, hdb, hrow⟩ := h.named userId hi
  exact ⟨token, htoken, now, hverifies, db, hle.tables db hdb, hrow⟩

theorem Granted.mono {boardId userId : String} {permission : BoardPermission}
    (hle : history.Le history') (h : Granted cfg history x boardId userId permission) :
    Granted cfg history' x boardId userId permission := by
  obtain ⟨i, hi, huser, hlet⟩ := h
  exact ⟨i, hi.mono hle, huser, hlet.mono hle⟩

theorem Granted.sees {boardId userId : String} {permission : BoardPermission}
    (h : Granted cfg history x boardId userId permission) : Sees cfg history x boardId :=
  ⟨userId, permission, h⟩

theorem Sees.mono {boardId : String} (hle : history.Le history')
    (h : Sees cfg history x boardId) : Sees cfg history' x boardId := by
  obtain ⟨userId, permission, hgranted⟩ := h
  exact (hgranted.mono hle).sees

theorem MaySay.mono {boardId : String} {event : RoomEvent}
    (hle : history.Le history') (h : MaySay cfg history x boardId event) :
    MaySay cfg history' x boardId event := by
  obtain ⟨userId, permission, hgranted, hchanges, hspeaker⟩ := h
  exact ⟨userId, permission, hgranted.mono hle, hchanges, hspeaker⟩

theorem Justified.mono {e : Edit Socket} (hle : history.Le history')
    (h : Justified cfg history e) : Justified cfg history' e :=
  ⟨h.connected, h.context, h.granted.mono hle⟩

theorem SocketOk.mono {s : SocketState} (hle : history.Le history')
    (h : SocketOk cfg history x s) : SocketOk cfg history' x s where
  identity := fun i hi => (h.identity i hi).mono hle
  context := fun c hc => (h.context c hc).mono hle
  rooms := fun boardId hroom => (h.rooms boardId hroom).mono hle

/-- Dropping the context, or a room, leaves a socket as good as it was. -/
theorem SocketOk.setBoardContext {s : SocketState} {next : Option SocketBoardContext}
    (h : SocketOk cfg history x s)
    (hnext : ∀ c, next = some c → Granted cfg history x c.boardId c.userId c.permission) :
    SocketOk cfg history x (s.setBoardContext next) where
  identity := h.identity
  context := hnext
  rooms := h.rooms

theorem SocketOk.dropBoardContext {s : SocketState} (h : SocketOk cfg history x s) :
    SocketOk cfg history x (s.setBoardContext none) := h.setBoardContext nofun

end monotone

/-! ### The invariant -/

section invariant
variable {Socket : Type} (cfg : Config Socket) (I : Tables → Prop)

structure Inv (w : World Socket) : Prop where
  history : ∀ db, w.History.tables db → Stored cfg.runtime db ∧ I db
  earlier : ∀ db, w.History.tables db → Requests.Later cfg.runtime db w.tables
  sockets : ∀ x, SocketOk cfg w.History x (w.sockets x)
  edits : ∀ e ∈ w.edits, Justified cfg w.History e
  emitted : ∀ m ∈ w.emitted, ∀ x, m.sender = some x → MaySay cfg w.History x m.boardId m.event
  received : ∀ x, ∀ r ∈ w.received x, ∀ boardId, r.boardId? = some boardId →
    Sees cfg w.History x boardId

/-- What a handler may rely on: nothing is forgotten, and a context is never changed without a new
    version. -/
structure WorldLater (w w' : World Socket) : Prop where
  tables : Requests.Later cfg.runtime w.tables w'.tables
  history : w.History.Le w'.History
  version : ∀ x, (w.sockets x).boardContextVersion ≤ (w'.sockets x).boardContextVersion
  context : ∀ x, (w.sockets x).boardContextVersion = (w'.sockets x).boardContextVersion →
    (w'.sockets x).boardContext = (w.sockets x).boardContext

/-- What a section may come to. -/
structure Moved (w w' : World Socket) : Prop where
  inv : Inv cfg I w'
  later : WorldLater cfg w w'

end invariant

section sections
variable {Socket : Type} {cfg : Config Socket} {I : Tables → Prop} {w w' w'' : World Socket}
  {x : Socket}

theorem WorldLater.refl (w : World Socket) : WorldLater cfg w w where
  tables := .refl _
  history := .refl _
  version := fun _ => Nat.le_refl _
  context := fun _ _ => rfl

theorem WorldLater.trans (h : WorldLater cfg w w') (h' : WorldLater cfg w' w'') :
    WorldLater cfg w w'' where
  tables := h.tables.trans h'.tables
  history := h.history.trans h'.history
  version := fun x => Nat.le_trans (h.version x) (h'.version x)
  context := fun x heq => by
    have hle := h.version x
    have hle' := h'.version x
    have heq₁ : (w.sockets x).boardContextVersion = (w'.sockets x).boardContextVersion := by omega
    rw [h'.context x (heq₁.symm.trans heq), h.context x heq₁]

/-- What is sent and what is handed on is nothing to rely on. -/
theorem WorldLater.of_eq (htables : w'.tables = w.tables) (hpast : w'.past = w.past)
    (hpresented : w'.presented = w.presented) (hsockets : w'.sockets = w.sockets) :
    WorldLater cfg w w' where
  tables := htables ▸ .refl _
  history := by
    rw [World.History, World.History, htables, hpast, hpresented]
    exact .refl _
  version := fun x => by rw [hsockets]
  context := fun x _ => by rw [hsockets]

theorem Moved.refl (h : Inv cfg I w) : Moved cfg I w w := ⟨h, .refl w⟩

theorem Moved.trans (h : Moved cfg I w w') (h' : Moved cfg I w' w'') : Moved cfg I w w'' :=
  ⟨h'.inv, h.later.trans h'.later⟩

/-! ### What the operations come to -/

theorem Inv.handOn {boardId userId : String} {kind : EditKind} (h : Inv cfg I w)
    (hconnected : (w.sockets x).connected = true)
    (hcontext : ∃ sessionId,
      (w.sockets x).boardContext = some ⟨boardId, sessionId, .edit, userId⟩) :
    Moved cfg I w (w.handOn x boardId userId kind) where
  inv := {
    history := h.history
    earlier := h.earlier
    sockets := h.sockets
    edits := fun e he => by
      rcases List.mem_append.mp he with hold | hnew
      · exact h.edits e hold
      · obtain rfl := List.mem_singleton.mp hnew
        obtain ⟨sessionId, hctx⟩ := hcontext
        exact ⟨hconnected, ⟨sessionId, hctx⟩, (h.sockets x).context _ hctx⟩
    emitted := h.emitted
    received := h.received }
  later := .of_eq rfl rfl rfl rfl

theorem Inv.emitToBoard {sender : Option Socket} {boardId : String} {event : RoomEvent}
    (h : Inv cfg I w) (hsay : ∀ x, sender = some x → MaySay cfg w.History x boardId event) :
    Moved cfg I w (w.emitToBoard sender boardId event) where
  inv := {
    history := h.history
    earlier := h.earlier
    sockets := h.sockets
    edits := h.edits
    emitted := fun m hm => by
      rcases List.mem_append.mp hm with hold | hnew
      · exact h.emitted m hold
      · obtain rfl := List.mem_singleton.mp hnew
        exact hsay
    received := h.received }
  later := .of_eq rfl rfl rfl rfl

/-- `socket.to`: what the socket itself may say. -/
theorem Inv.say {boardId : String} {event : RoomEvent} (h : Inv cfg I w)
    (hsay : MaySay cfg w.History x boardId event) :
    Moved cfg I w (w.emitToBoard (some x) boardId event) :=
  h.emitToBoard <| by
    rintro _ ⟨rfl⟩
    exact hsay

theorem Moved.say {boardId : String} {event : RoomEvent} (h : Moved cfg I w w')
    (hsay : MaySay cfg w.History x boardId event) :
    Moved cfg I w (w'.emitToBoard (some x) boardId event) :=
  h.trans (h.inv.say (hsay.mono h.later.history))

variable [DecidableEq Socket]

theorem Inv.safeEmitToSelf {r : Received} (h : Inv cfg I w)
    (hr : ∀ boardId, r.boardId? = some boardId → Sees cfg w.History x boardId) :
    Moved cfg I w (w.safeEmitToSelf x r) where
  inv := {
    history := h.history
    earlier := h.earlier
    sockets := h.sockets
    edits := h.edits
    emitted := h.emitted
    received := fun y r' hr' => by
      change r' ∈ Function.update w.received x (w.received x ++ [r]) y at hr'
      by_cases hy : y = x
      · subst hy
        rw [Function.update_self] at hr'
        rcases List.mem_append.mp hr' with hold | hnew
        · exact h.received y r' hold
        · rwa [List.mem_singleton.mp hnew]
      · rw [Function.update_of_ne hy] at hr'
        exact h.received y r' hr' }
  later := .of_eq rfl rfl rfl rfl

theorem Inv.emitError {message : String} (h : Inv cfg I w) :
    Moved cfg I w (w.safeEmitToSelf x (.syncError message)) :=
  h.safeEmitToSelf nofun

/-- A socket may be set to what is as good, and with a new version where the context changes. -/
theorem Inv.setSocket {s : SocketState} (h : Inv cfg I w) (hok : SocketOk cfg w.History x s)
    (hversion : (w.sockets x).boardContextVersion ≤ s.boardContextVersion)
    (hcontext : (w.sockets x).boardContextVersion = s.boardContextVersion →
      s.boardContext = (w.sockets x).boardContext) :
    Moved cfg I w (w.setSocket x s) where
  inv := {
    history := h.history
    earlier := h.earlier
    sockets := fun y => by
      change SocketOk cfg w.History y (Function.update w.sockets x s y)
      by_cases hy : y = x
      · subst hy
        rwa [Function.update_self]
      · rw [Function.update_of_ne hy]
        exact h.sockets y
    edits := h.edits
    emitted := h.emitted
    received := h.received }
  later := {
    tables := .refl _
    history := .refl _
    version := fun y => by
      change _ ≤ (Function.update w.sockets x s y).boardContextVersion
      by_cases hy : y = x
      · subst hy
        rwa [Function.update_self]
      · rw [Function.update_of_ne hy]
    context := fun y heq => by
      change _ = (Function.update w.sockets x s y).boardContextVersion at heq
      change (Function.update w.sockets x s y).boardContext = _
      by_cases hy : y = x
      · subst hy
        rw [Function.update_self] at heq ⊢
        exact hcontext heq
      · rw [Function.update_of_ne hy] }

/-- A change of the variables beside the context. -/
theorem Inv.setVariables {s : SocketState} (h : Inv cfg I w)
    (hok : SocketOk cfg w.History x s)
    (hversion : s.boardContextVersion = (w.sockets x).boardContextVersion)
    (hcontext : s.boardContext = (w.sockets x).boardContext) :
    Moved cfg I w (w.setSocket x s) :=
  h.setSocket hok (Nat.le_of_eq hversion.symm) fun _ => hcontext

/-- A new context, with its version. -/
theorem Inv.setContext {s : SocketState} {next : Option SocketBoardContext} (h : Inv cfg I w)
    (hok : SocketOk cfg w.History x (s.setBoardContext next))
    (hversion : (w.sockets x).boardContextVersion ≤ s.boardContextVersion) :
    Moved cfg I w (w.setSocket x (s.setBoardContext next)) := by
  have hnew : (w.sockets x).boardContextVersion < (s.setBoardContext next).boardContextVersion :=
    Nat.lt_succ_of_le hversion
  exact h.setSocket hok (Nat.le_of_lt hnew) fun heq => absurd heq (Nat.ne_of_lt hnew)

omit [DecidableEq Socket] in
/-- A join comes with a token. -/
theorem Inv.present {tokens : List (Socket × String)} (h : Inv cfg I w) :
    Moved cfg I w { w with presented := w.presented ++ tokens } := by
  have hle : w.History.Le ({ w with presented := w.presented ++ tokens } : World Socket).History :=
    ⟨fun _ hdb => hdb, fun _ _ hpresented => List.mem_append_left _ hpresented⟩
  constructor
  · exact {
      history := h.history
      earlier := h.earlier
      sockets := fun y => (h.sockets y).mono hle
      edits := fun e he => (h.edits e he).mono hle
      emitted := fun m hm x hx => (h.emitted m hm x hx).mono hle
      received := fun y r hr boardId hb => (h.received y r hr boardId hb).mono hle }
  · exact {
      tables := .refl _
      history := hle
      version := fun _ => Nat.le_refl _
      context := fun _ _ => rfl }

omit [DecidableEq Socket] in
/-- A statement of the tables that keeps the invariant of theirs. -/
theorem Inv.write {write : Requests.Write} (h : Inv cfg I w)
    (hI : I (write.apply cfg.runtime w.tables)) :
    Moved cfg I w (w.write cfg.runtime write) := by
  have hstored : Stored cfg.runtime w.tables := (h.history _ (.inl rfl)).1
  have hle : w.History.Le (w.write cfg.runtime write).History := by
    refine ⟨?_, fun _ _ h => h⟩
    rintro db (rfl | hdb)
    · exact .inr List.mem_cons_self
    · exact .inr (List.mem_cons_of_mem _ hdb)
  constructor
  · constructor
    case history =>
      rintro db (rfl | hdb)
      · exact ⟨hstored.apply write, hI⟩
      · rcases List.mem_cons.mp hdb with rfl | hdb
        · exact h.history _ (.inl rfl)
        · exact h.history db (.inr hdb)
    case earlier =>
      have happly : Requests.Later cfg.runtime w.tables (write.apply cfg.runtime w.tables) :=
        .apply cfg.runtime w.tables write
      rintro db (rfl | hdb)
      · exact .refl _
      · rcases List.mem_cons.mp hdb with rfl | hdb
        · exact happly
        · exact (h.earlier db (.inr hdb)).trans happly
    case sockets => exact fun y => (h.sockets y).mono hle
    case edits => exact fun e he => (h.edits e he).mono hle
    case emitted => exact fun m hm x hx => (h.emitted m hm x hx).mono hle
    case received => exact fun y r hr boardId hb => (h.received y r hr boardId hb).mono hle
  · exact {
      tables := .apply cfg.runtime w.tables write
      history := hle
      version := fun _ => Nat.le_refl _
      context := fun _ _ => rfl }

end sections

/-! ### Rules for handlers -/

section rules
variable {Socket : Type} (cfg : Config Socket) (I : Tables → Prop)

/-- Whatever runs beside it, the program keeps the invariant, and returns only what `Q` says. -/
def Goes {ε α : Type} (p : Program (World Socket) (World Socket → World Socket) ε α)
    (Q : α → World Socket → Prop) (w : World Socket) : Prop :=
  p.Follows (· ·) (.keeping (Inv cfg I) (WorldLater cfg)) (fun r w' => ∀ a, r = .ok a → Q a w') w

variable {cfg I} {ε α β : Type} {Q : β → World Socket → Prop} {w : World Socket}
  {p : Program (World Socket) (World Socket → World Socket) ε β}

theorem keeping_sound : (Discipline.keeping (Inv cfg I) (WorldLater cfg)).Sound (· ·) :=
  Discipline.keeping_sound WorldLater.refl fun _ _ _ => WorldLater.trans

theorem Goes.done {b : β} (h : Q b w) : Goes (ε := ε) cfg I (.done b) Q w := by
  rintro a ⟨rfl⟩
  exact h

theorem Goes.fail {e : ε} : Goes cfg I (.fail e) Q w := nofun

theorem Goes.mono {Q' : β → World Socket → Prop} (h : Goes cfg I p Q w)
    (hQ : ∀ b w', Q b w' → Q' b w') : Goes cfg I p Q' w :=
  Program.Follows.mono h fun _ w' hr b hb => hQ b w' (hr b hb)

theorem Goes.atomically {f : World Socket → World Socket × β}
    (h : ∀ w', Inv cfg I w' → WorldLater cfg w w' →
      Moved cfg I w' (f w').1 ∧ Q (f w').2 (f w').1) :
    Goes (ε := ε) cfg I (.atomically f) Q w := by
  refine Program.Follows.atomically fun w' hinv hlater => ?_
  obtain ⟨hmoved, hQ⟩ := h w' hinv hlater
  refine ⟨⟨hmoved.inv, hmoved.later⟩, ?_⟩
  rintro b ⟨rfl⟩
  exact hQ

theorem Goes.read {f : World Socket → β}
    (h : ∀ w', Inv cfg I w' → WorldLater cfg w w' → Q (f w') w') :
    Goes (ε := ε) cfg I (.read f) Q w := by
  refine Program.Follows.read fun w' hinv hlater => ?_
  rintro b ⟨rfl⟩
  exact h w' hinv hlater

/-- One after the other: what the first returns is returned in a later world. -/
theorem Goes.bind {p : Program (World Socket) (World Socket → World Socket) ε α}
    {f : α → Program (World Socket) (World Socket → World Socket) ε β}
    {P : α → World Socket → Prop} (h : Goes cfg I p P w)
    (hf : ∀ a w', WorldLater cfg w w' → P a w' → Goes cfg I (f a) Q w') :
    Goes cfg I (p >>= f) Q w := by
  refine Program.Follows.bind <| (Program.Follows.ends_later keeping_sound h).mono ?_
  rintro r w' ⟨hr, hlater⟩
  cases r with
  | ok a => exact hf a w' hlater (hr a rfl)
  | error e => exact nofun

/-- An error of any kind ends the handler. -/
theorem Goes.orFail {ε' : Type} {e' : ε'} (h : Goes cfg I p Q w) :
    Goes cfg I (p.orElse fun _ => .fail e') Q w := by
  refine Program.Follows.orElse (Program.Follows.mono h ?_)
  rintro (e | b) w' hr
  · exact nofun
  · rintro _ ⟨rfl⟩
    exact hr b rfl

theorem Goes.awaiting {rejected : Bool} {Q : Unit → World Socket → Prop}
    (h : ∀ w', WorldLater cfg w w' → Q () w') :
    Goes cfg I (awaiting rejected) Q w := by
  intro w' _ hlater
  refine ⟨nofun, ?_⟩
  split
  · exact nofun
  · exact fun _ _ => h w' hlater

/-- A call that is awaited, and then the rest. -/
theorem Goes.await {rejected : Bool} {f : Unit → Handler Socket β}
    (h : ∀ w', WorldLater cfg w w' → Goes cfg I (f ()) Q w') :
    Goes cfg I (SocketServer.awaiting rejected >>= f) Q w :=
  Goes.bind (P := fun _ _ => True) (Goes.awaiting fun _ _ => trivial)
    fun _ w' hlater _ => h w' hlater

end rules

end Notebortt.SocketServer
