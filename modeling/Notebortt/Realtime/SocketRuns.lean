import Notebortt.Realtime.SocketGrants

/-! # Runs of the sockets beside the requests

    One lemma a section, and from these each handler: a join makes a context
    only of what its access check has answered, and the other events act only
    while the context they began under is still the one of the socket. -/

open Interleaving (Discipline Program)

namespace Notebortt.SocketServer

open Invitations (BoardPermission)
open Access (BoardAccess getBoard getBoardMemberPermission getWorkspaceBoardMembershipPermission)
open Requests (Obeys Opens Stored Tables)
open RealtimeTicks (RealtimeTickPayload)
open SocketAuth (JsValue)
open WirePayloads

section handlers
variable {Socket : Type} [DecidableEq Socket] {cfg : Config Socket} {I : Tables → Prop}
  {w : World Socket} {x : Socket}

/-! ### The access check -/

omit [DecidableEq Socket] in
theorem World.history_self (w : World Socket) : w.History.tables w.tables := .inl rfl

omit [DecidableEq Socket] in
/-- A query of the tables, and the rest. -/
theorem Goes.query {α β : Type} {f : Tables → α} {k : α → Requests.Service β}
    {Q : β → World Socket → Prop}
    (h : ∀ db w', WorldLater cfg w w' → w'.History.tables db → Stored cfg.runtime db →
      Goes cfg I ((k (f db)).on World.tables (World.write cfg.runtime)) Q w') :
    Goes cfg I ((Program.read f >>= k).on World.tables (World.write cfg.runtime)) Q w := by
  rw [Program.on_bind, Program.on_read]
  refine Goes.bind
    (P := fun a w' => ∃ db, w'.History.tables db ∧ Stored cfg.runtime db ∧ a = f db) ?_ ?_
  · exact Goes.read fun w' hinv _ =>
      ⟨_, w'.history_self, (hinv.history _ w'.history_self).1, rfl⟩
  · rintro _ w' hlater ⟨db, hdb, hstored, rfl⟩
    exact h db w' hlater hdb hstored

theorem contextPermission_granted (permission : BoardPermission) :
    contextPermission (Access.granted permission) = permission := by
  cases permission <;> rfl

theorem opens_of_viewMatch {db : Tables} {board : Access.Board} {shareToken : Option String}
    (hboard : board ∈ db.boards) (h : (Access.given shareToken && board.linkShareViewEnabled &&
      board.linkShareViewToken == shareToken) = true) :
    ∃ token, shareToken = some token ∧ Opens db token board.id .view := by
  cases shareToken with
  | none => cases h
  | some token =>
    simp only [Bool.and_eq_true] at h
    exact ⟨token, rfl, board, hboard, rfl, by simp [Requests.linkGrants, Requests.viewGrants, h]⟩

theorem opens_of_editMatch {db : Tables} {board : Access.Board} {shareToken : Option String}
    (hboard : board ∈ db.boards) (h : (Access.given shareToken && board.linkShareEditEnabled &&
      board.linkShareEditToken == shareToken) = true) :
    ∃ token, shareToken = some token ∧ Opens db token board.id .edit := by
  cases shareToken with
  | none => cases h
  | some token =>
    simp only [Bool.and_eq_true] at h
    exact ⟨token, rfl, board, hboard, rfl, by simp [Requests.linkGrants, Requests.editGrants, h]⟩

omit [DecidableEq Socket] in
/-- The permission that is answered is one that the tables have given. -/
theorem goes_checkBoardAccess {boardId : String} {userId shareToken : Option String}
    (hpresented : ∀ token, shareToken = some token → w.History.presented x token) :
    Goes cfg I (checkBoardAccess cfg boardId userId shareToken)
      (fun access w' => access.hasAccess = true →
        LetIn w'.History x boardId userId (contextPermission access)) w := by
  refine Goes.orFail (Goes.query fun db₀ w₀ hlater₀ hdb₀ hstored => ?_)
  cases hboard : getBoard db₀.access boardId with
  | none => exact Goes.done nofun
  | some board =>
    obtain ⟨hmem, rfl⟩ := hstored.valid.access.getBoard_iff.mp hboard
    dsimp only
    split
    · next hview =>
      obtain ⟨token, htoken, hopens⟩ := opens_of_viewMatch hmem hview
      have hhad := hlater₀.history.presented x token (hpresented token htoken)
      exact Goes.done fun _ => .link hdb₀ hhad hopens
    · split
      · next hedit =>
        obtain ⟨token, htoken, hopens⟩ := opens_of_editMatch hmem hedit
        have hhad := hlater₀.history.presented x token (hpresented token htoken)
        exact Goes.done fun _ => .link hdb₀ hhad hopens
      · cases userId with
        | none => exact Goes.done nofun
        | some u =>
          dsimp only
          split
          · exact Goes.done nofun
          · refine Goes.query fun db w₁ hlater hdb _ => ?_
            cases hdirect : getBoardMemberPermission db.access board.id u with
            | some permission =>
              refine Goes.done fun _ => ?_
              rw [contextPermission_granted]
              exact .member hdb rfl hdirect
            | none =>
              refine Goes.query fun db' w₂ hlater' hdb' _ => ?_
              cases hrow : getWorkspaceBoardMembershipPermission db'.access board.workspaceId u with
              | none => exact Goes.done nofun
              | some permission =>
                refine Goes.done fun _ => ?_
                rw [contextPermission_granted]
                exact .role ((hlater.trans hlater').history.tables _ hdb₀) hdb' rfl hboard hrow

/-! ### The identity -/

omit [DecidableEq Socket] in
theorem goes_firstUser {answers : JoinAnswers} {tokens : List JsValue}
    (htokens : ∀ token ∈ tokens, token ∈ SocketAuth.tokenSources (cfg.handshake x)) :
    Goes cfg I (firstUser cfg answers tokens)
      (fun found w' => ∀ userId, found = some userId → Names cfg w'.History x userId) w := by
  induction tokens generalizing w with
  | nil => exact Goes.done nofun
  | cons token rest ih =>
    have hrest : ∀ w', Goes cfg I (firstUser cfg answers rest)
        (fun found w' => ∀ userId, found = some userId → Names cfg w'.History x userId) w' :=
      fun w' => ih fun token' htoken' => htokens token' (List.mem_cons_of_mem _ htoken')
    rw [firstUser]
    split
    · exact hrest w
    · next sub hverifies =>
      refine Goes.bind (P := fun found w' => ∀ user, found = some user →
        Names cfg w'.History x user.id) ?_ ?_
      · refine Goes.read fun w' _ _ user hfound => ?_
        have hmem := List.mem_of_find?_eq_some hfound
        have hid : user.id = sub := by simpa using List.find?_some hfound
        exact ⟨token, htokens token List.mem_cons_self, answers.now, hid ▸ hverifies, w'.tables,
          w'.history_self, user, hmem, rfl⟩
      · rintro found w' - hnames
        cases found with
        | none => exact hrest w'
        | some user =>
          dsimp only
          split
          · exact hrest w'
          · refine Goes.done ?_
            rintro _ ⟨rfl⟩
            exact hnames user rfl

omit [DecidableEq Socket] in
theorem isIdentity_identityOf {history : Past Socket} {found : Option String}
    (hnames : ∀ userId, found = some userId → Names cfg history x userId) :
    IsIdentity cfg history x (identityOf cfg x found) := by
  cases found with
  | none => exact ⟨rfl, nofun⟩
  | some userId =>
    refine ⟨rfl, ?_⟩
    rintro _ ⟨rfl⟩
    exact hnames userId rfl

theorem goes_resolveIdentity {joinAttempt : Nat} {answers : JoinAnswers} :
    Goes cfg I (resolveIdentity cfg x joinAttempt answers)
      (fun found w' => ∀ i, found = some i → IsIdentity cfg w'.History x i) w := by
  refine Goes.bind (goes_firstUser fun _ h => h) ?_
  intro found w₁ _ hnames
  refine Goes.atomically fun w' hinv hlater => ?_
  have hidentity : IsIdentity cfg w'.History x (identityOf cfg x found) :=
    (isIdentity_identityOf hnames).mono hlater.history
  dsimp only
  split
  · refine ⟨hinv.setVariables ?_ rfl rfl, ?_⟩
    · refine { hinv.sockets x with identity := ?_ }
      rintro i ⟨rfl⟩
      exact hidentity
    · rintro i ⟨rfl⟩
      exact hidentity
  · exact ⟨.refl hinv, nofun⟩

theorem goes_startJoinAttempt {shareToken : Option String} :
    Goes cfg I (startJoinAttempt x shareToken)
      (fun started w' => (∀ i, started.2 = some i → IsIdentity cfg w'.History x i) ∧
        ∀ token, shareToken = some token → w'.History.presented x token) w := by
  refine Goes.atomically fun w' hinv _ => ?_
  have hpresented :
      Moved cfg I w' { w' with presented := w'.presented ++ shareToken.toList.map (x, ·) } :=
    hinv.present
  have hok := hpresented.inv.sockets x
  refine ⟨hpresented.trans (hpresented.inv.setVariables
    ⟨hok.identity, hok.context, hok.rooms⟩ rfl rfl), hok.identity, ?_⟩
  rintro token rfl
  exact List.mem_append_right _ (List.mem_singleton.mpr rfl)

/-! ### The sections of a join -/

theorem goes_acceptAccess {joinAttempt : Nat} {access : BoardAccess} :
    Goes cfg I (acceptAccess x joinAttempt access)
      (fun goesOn _ => goesOn = true → access.hasAccess = true) w := by
  refine Goes.atomically fun w' hinv _ => ?_
  split
  · split
    · next haccess => exact ⟨.refl hinv, fun _ => haccess⟩
    · exact ⟨hinv.emitError, nofun⟩
  · exact ⟨.refl hinv, nofun⟩

theorem goes_leavePrevious {joinAttempt : Nat} {payload : BoardJoinPayload}
    {answers : JoinAnswers} :
    Goes cfg I (leavePrevious x joinAttempt payload answers) (fun _ _ => True) w := by
  refine Goes.atomically fun w' hinv _ => ⟨?_, trivial⟩
  dsimp only
  split
  · split
    · exact hinv.emitError
    · split
      · exact .refl hinv
      · exact hinv.setContext (hinv.sockets x).dropBoardContext (Nat.le_refl _)
  · exact .refl hinv

theorem goes_enterRoom {joinAttempt : Nat} {payload : BoardJoinPayload}
    {permission : BoardPermission} {userId : String}
    (hgranted : Granted cfg w.History x payload.boardId userId permission) :
    Goes cfg I (enterRoom x joinAttempt payload permission userId) (fun _ _ => True) w := by
  refine Goes.atomically fun w' hinv hlater => ⟨?_, trivial⟩
  have hgranted := hgranted.mono hlater.history
  dsimp only
  split
  · refine hinv.setContext ?_ (Nat.le_refl _)
    have hok := hinv.sockets x
    refine SocketOk.setBoardContext ⟨hok.identity, hok.context, ?_⟩ ?_
    · intro boardId hroom
      rcases List.mem_insert_iff.mp hroom with rfl | hroom
      · exact hgranted.sees
      · exact hok.rooms boardId hroom
    · rintro c ⟨rfl⟩
      exact hgranted
  · exact .refl hinv

/-- Several messages to one socket, all of a board it sees. -/
theorem moved_foldl_emit {α : Type} {as : List α} {f : α → Received} (hinv : Inv cfg I w)
    (hsees : ∀ a ∈ as, ∀ boardId, (f a).boardId? = some boardId →
      Sees cfg w.History x boardId) :
    Moved cfg I w (as.foldl (fun w a => w.safeEmitToSelf x (f a)) w) := by
  induction as generalizing w with
  | nil => exact .refl hinv
  | cons a as ih =>
    have hmoved : Moved cfg I w (w.safeEmitToSelf x (f a)) :=
      hinv.safeEmitToSelf (hsees a List.mem_cons_self)
    refine hmoved.trans (ih hmoved.inv ?_)
    intro a' ha' boardId hb
    exact (hsees a' (List.mem_cons_of_mem _ ha') boardId hb).mono hmoved.later.history

theorem goes_emitRoster {payload : BoardJoinPayload} {participants : List RoomParticipant}
    (hsees : Sees cfg w.History x payload.boardId) :
    Goes cfg I (emitRoster x payload participants) (fun _ _ => True) w := by
  refine Goes.atomically fun w' hinv hlater => ⟨moved_foldl_emit hinv ?_, trivial⟩
  rintro p - boardId ⟨rfl⟩
  exact hsees.mono hlater.history

theorem goes_rejectAdmission {payload : BoardJoinPayload} :
    Goes cfg I (rejectAdmission x payload) (fun _ _ => True) w := by
  refine Goes.atomically fun w' hinv _ => ⟨?_, trivial⟩
  have hmoved : Moved cfg I w' (w'.safeEmitToSelf x (.syncError "Board room is full")) :=
    hinv.emitError
  dsimp only
  split
  · exact hmoved
  · exact hmoved.trans
      (hmoved.inv.setContext (hmoved.inv.sockets x).dropBoardContext (Nat.le_refl _))

omit [DecidableEq Socket] in
theorem goes_announce {joinAttempt : Nat} {payload : BoardJoinPayload}
    {permission : BoardPermission} {userId : String}
    (hgranted : Granted cfg w.History x payload.boardId userId permission) :
    Goes cfg I (announce x joinAttempt payload userId) (fun _ _ => True) w := by
  refine Goes.atomically fun w' hinv hlater => ⟨?_, trivial⟩
  split
  · refine hinv.say ⟨userId, permission, hgranted.mono hlater.history, nofun, ?_⟩
    rintro _ ⟨rfl⟩
    rfl
  · exact .refl hinv

theorem goes_emitSnapshot {joinAttempt : Nat} {payload : BoardJoinPayload}
    (hsees : Sees cfg w.History x payload.boardId) :
    Goes cfg I (emitSnapshot x joinAttempt payload) (fun _ _ => True) w := by
  refine Goes.atomically fun w' hinv hlater => ⟨?_, trivial⟩
  dsimp only
  split
  · refine hinv.safeEmitToSelf ?_
    rintro boardId ⟨rfl⟩
    exact hsees.mono hlater.history
  · exact .refl hinv

theorem goes_detachFromBoard {context : SocketBoardContext} {broadcastLeave : Bool}
    {answers : DetachAnswers} :
    Goes cfg I (detachFromBoard x context broadcastLeave answers) (fun _ _ => True) w := by
  refine Goes.await fun _ _ => Goes.await fun _ _ => Goes.await fun w₁ _ => ?_
  refine Goes.bind (P := fun _ _ => True) (Goes.atomically fun w' hinv _ => ⟨?_, trivial⟩)
    fun _ _ _ _ => Goes.awaiting fun _ _ => trivial
  -- the message changes no socket, and one room fewer is as good
  have hleave (w₂ : World Socket) (hmoved : Moved cfg I w' w₂) :
      Moved cfg I w' (w₂.setSocket x { w₂.sockets x with
        rooms := (w₂.sockets x).rooms.filter (· ≠ context.boardId) }) := by
    have hok := hmoved.inv.sockets x
    refine hmoved.trans (hmoved.inv.setVariables ⟨hok.identity, hok.context, ?_⟩ rfl rfl)
    exact fun boardId hroom => hok.rooms boardId (List.mem_filter.mp hroom).1
  dsimp only
  refine hleave _ ?_
  split
  · split
    · exact hinv.emitToBoard (by rintro _ ⟨⟩)
    · exact .refl hinv
  · exact .refl hinv

/-! ### Joins -/

theorem goes_joinRoom {joinAttempt : Nat} {payload : BoardJoinPayload}
    {permission : BoardPermission} {userId : String} {answers : JoinAnswers}
    (hgranted : Granted cfg w.History x payload.boardId userId permission) :
    Goes cfg I (joinRoom x joinAttempt payload permission userId answers) (fun _ _ => True) w := by
  refine Goes.bind (goes_enterRoom hgranted) fun entered w₁ h₁ _ => ?_
  split
  · refine Goes.await fun w₂ h₂ => ?_
    have hsees : Sees cfg w₂.History x payload.boardId :=
      hgranted.sees.mono (h₁.trans h₂).history
    refine Goes.bind (goes_emitRoster hsees) fun _ w₃ h₃ _ => Goes.await fun w₄ h₄ => ?_
    split
    · have hgranted₄ := hgranted.mono (((h₁.trans h₂).trans h₃).trans h₄).history
      refine Goes.bind (goes_announce hgranted₄) fun announced w₅ h₅ _ => ?_
      split
      · refine Goes.await fun w₆ h₆ => goes_emitSnapshot ?_
        exact hsees.mono (((h₃.trans h₄).trans h₅).trans h₆).history
      · exact Goes.done trivial
    · refine Goes.bind goes_rejectAdmission fun rejected _ _ _ => ?_
      cases rejected with
      | none => exact Goes.done trivial
      | some context => exact goes_detachFromBoard
  · exact Goes.done trivial

theorem goes_prepareBoard {joinAttempt : Nat} {payload : BoardJoinPayload}
    {permission : BoardPermission} {userId : String} {answers : JoinAnswers}
    (hgranted : Granted cfg w.History x payload.boardId userId permission) :
    Goes cfg I (prepareBoard x joinAttempt payload permission userId answers)
      (fun _ _ => True) w := by
  have hactive (w' : World Socket) :
      Goes cfg I (isJoinActive x joinAttempt) (fun _ _ => True) w' :=
    Goes.read fun _ _ _ => trivial
  refine Goes.await fun w₁ h₁ => Goes.bind (hactive w₁) fun active w₂ h₂ _ => ?_
  split
  · refine Goes.await fun w₃ h₃ => Goes.bind (hactive w₃) fun active' w₄ h₄ _ => ?_
    split
    · refine Goes.await fun w₅ h₅ => goes_joinRoom ?_
      exact hgranted.mono ((((h₁.trans h₂).trans h₃).trans h₄).trans h₅).history
    · exact Goes.done trivial
  · exact Goes.done trivial

theorem goes_joinAs {joinAttempt : Nat} {payload : BoardJoinPayload}
    {identity : SocketIdentity} {answers : JoinAnswers}
    (hidentity : IsIdentity cfg w.History x identity)
    (hpresented : ∀ token, joinToken cfg x payload = some token →
      w.History.presented x token) :
    Goes cfg I (joinAs cfg x joinAttempt payload identity answers) (fun _ _ => True) w := by
  refine Goes.bind (P := fun _ _ => True) (Goes.read fun _ _ _ => trivial)
    fun active w₁ h₁ _ => ?_
  split
  · refine Goes.await fun w₂ h₂ => Goes.bind (goes_checkBoardAccess fun token htoken =>
      (h₁.trans h₂).history.presented x token (hpresented token htoken)) fun access w₃ h₃ hlet => ?_
    refine Goes.bind goes_acceptAccess fun accepted w₄ h₄ haccess => ?_
    split
    · next haccepted =>
      have hgranted : Granted cfg w₄.History x payload.boardId identity.runtimeUserId
          (contextPermission access) :=
        ⟨identity, hidentity.mono (((h₁.trans h₂).trans h₃).trans h₄).history, rfl,
          (hlet (haccess haccepted)).mono h₄.history⟩
      refine Goes.await fun w₅ h₅ => Goes.bind goes_leavePrevious fun left w₆ h₆ _ => ?_
      have hgranted := hgranted.mono (h₅.trans h₆).history
      split
      · exact Goes.done trivial
      · exact goes_prepareBoard hgranted
      · refine Goes.bind goes_detachFromBoard fun _ w₇ h₇ _ => goes_prepareBoard ?_
        exact hgranted.mono h₇.history
    · exact Goes.done trivial
  · exact Goes.done trivial

theorem goes_emitError {message : String} :
    Goes cfg I (emitError x message) (fun _ _ => True) w :=
  Goes.atomically fun _ hinv _ => ⟨hinv.emitError, trivial⟩

theorem goes_onBoardJoin {raw : WireValue} {answers : JoinAnswers} :
    Goes cfg I (onBoardJoin cfg x raw answers) (fun _ _ => True) w := by
  unfold onBoardJoin
  split
  · exact Goes.fail
  · exact goes_emitError
  · refine Goes.bind goes_startJoinAttempt fun started w₁ _ ⟨hknown, hpresented⟩ => ?_
    dsimp only
    split
    · next identity hidentity => exact goes_joinAs (hknown identity hidentity) hpresented
    · refine Goes.bind goes_resolveIdentity fun resolved w₂ h₂ hresolved => ?_
      split
      · exact Goes.done trivial
      · exact goes_joinAs (hresolved _ rfl) fun token htoken =>
          h₂.history.presented x token (hpresented token htoken)

/-! ### Snapshots -/

/-- The snapshot was taken of this board's context, and is still the context while its version is
    the version of the socket. -/
structure SnapshotOk (cfg : Config Socket) (w : World Socket) (x : Socket) (boardId : String)
    (snapshot : ContextSnapshot) : Prop where
  board : snapshot.context.boardId = boardId
  version : snapshot.version ≤ (w.sockets x).boardContextVersion
  context : snapshot.version = (w.sockets x).boardContextVersion →
    (w.sockets x).boardContext = some snapshot.context
  granted : Granted cfg w.History x boardId snapshot.context.userId snapshot.context.permission

omit [DecidableEq Socket] in
theorem SnapshotOk.later {w' : World Socket} {boardId : String} {snapshot : ContextSnapshot}
    (h : SnapshotOk cfg w x boardId snapshot) (hlater : WorldLater cfg w w') :
    SnapshotOk cfg w' x boardId snapshot where
  board := h.board
  version := Nat.le_trans h.version (hlater.version x)
  context := fun heq => by
    -- between equal versions nothing was set
    have hle := h.version
    have hle' := hlater.version x
    have hold : snapshot.version = (w.sockets x).boardContextVersion := by omega
    rw [hlater.context x (hold.symm.trans heq), h.context hold]
  granted := h.granted.mono hlater.history

omit [DecidableEq Socket] in
theorem snapshotOk_of_take {boardId : String} {snapshot : ContextSnapshot} (hinv : Inv cfg I w)
    (hne : boardId ≠ "") (h : (w.sockets x).takeContextSnapshot boardId = some snapshot) :
    SnapshotOk cfg w x boardId snapshot := by
  obtain ⟨c, hc, rfl⟩ := Option.map_eq_some_iff.mp h
  obtain ⟨hcontext, hboard⟩ := Option.filter_eq_some_iff.mp hc
  have hid : c.boardId = boardId := by simpa [hne] using hboard
  exact {
    board := hid
    version := Nat.le_refl _
    context := fun _ => hcontext
    granted := hid ▸ (hinv.sockets x).context c hcontext }

omit [DecidableEq Socket] in
/-- While the snapshot is active, the socket is connected and its context is the one taken. -/
theorem SnapshotOk.active {boardId : String} {snapshot : ContextSnapshot}
    (h : SnapshotOk cfg w x boardId snapshot)
    (hactive : (w.sockets x).isSnapshotActive snapshot = true) :
    (w.sockets x).connected = true ∧ (w.sockets x).boardContext = some snapshot.context := by
  unfold SocketState.isSnapshotActive at hactive
  split at hactive
  · cases hactive
  · simp only [Bool.and_eq_true, beq_iff_eq] at hactive
    exact ⟨hactive.1.1.1, h.context hactive.1.1.2⟩

theorem goes_acceptEvent {boardId invalid : String} {refusal : ContextSnapshot → Option String}
    (hne : boardId ≠ "") :
    Goes cfg I (acceptEvent x boardId invalid refusal)
      (fun taken w' => ∀ snapshot, taken = some snapshot →
        SnapshotOk cfg w' x boardId snapshot ∧ refusal snapshot = none) w := by
  refine Goes.atomically fun w' hinv _ => ?_
  split
  · exact ⟨hinv.emitError, by rintro _ ⟨⟩⟩
  · next snapshot htaken =>
    split
    · exact ⟨hinv.emitError, by rintro _ ⟨⟩⟩
    · next hrefusal =>
      refine ⟨.refl hinv, ?_⟩
      rintro _ ⟨rfl⟩
      exact ⟨snapshotOk_of_take hinv hne htaken, hrefusal⟩

theorem goes_acceptTick {payload : RealtimeTickPayload} (hne : payload.boardId ≠ "") :
    Goes cfg I (acceptTick x payload)
      (fun taken w' => ∀ snapshot, taken = some snapshot →
        SnapshotOk cfg w' x payload.boardId snapshot ∧
          (payload.moves.isEmpty = false → snapshot.context.permission = .edit)) w := by
  refine Goes.atomically fun w' hinv _ => ?_
  dsimp only
  split
  · exact ⟨hinv.emitError, nofun⟩
  · next snapshot htaken =>
    split
    · exact ⟨.refl hinv, nofun⟩
    · have hok := hinv.sockets x
      have hmoved : Moved cfg I w'
          (w'.setSocket x { w'.sockets x with lastTickId := payload.tickId }) :=
        hinv.setVariables ⟨hok.identity, hok.context, hok.rooms⟩ rfl rfl
      split
      · exact ⟨hmoved.trans hmoved.inv.emitError, nofun⟩
      · next hpermission =>
        refine ⟨hmoved, ?_⟩
        rintro _ ⟨rfl⟩
        refine ⟨(snapshotOk_of_take hinv hne htaken).later hmoved.later, ?_⟩
        intro hmoves
        simpa [hmoves] using hpermission

omit [DecidableEq Socket] in
theorem permission_of_needsEdit {snapshot : ContextSnapshot} (h : needsEdit snapshot = none) :
    snapshot.context.permission = .edit := by
  by_contra hne
  rw [needsEdit, if_pos hne] at h
  cases h

omit [DecidableEq Socket] in
/-- What runs while the snapshot is active finds its context. -/
theorem goes_whileActive {boardId : String} {snapshot : ContextSnapshot}
    {run : World Socket → World Socket} (hok : SnapshotOk cfg w x boardId snapshot)
    (hrun : ∀ w', Inv cfg I w' → SnapshotOk cfg w' x boardId snapshot →
      (w'.sockets x).connected = true → (w'.sockets x).boardContext = some snapshot.context →
      Moved cfg I w' (run w')) :
    Goes cfg I (whileActive x snapshot run) (fun _ _ => True) w := by
  refine Goes.atomically fun w' hinv hlater => ⟨?_, trivial⟩
  split
  · next hactive =>
    have hok' := hok.later hlater
    obtain ⟨hconnected, hcontext⟩ := hok'.active hactive
    exact hrun w' hinv hok' hconnected hcontext
  · exact .refl hinv

omit [DecidableEq Socket] in
/-- What speaks for the user of the context may be said. -/
theorem SnapshotOk.maySay {boardId : String} {snapshot : ContextSnapshot} {event : RoomEvent}
    (h : SnapshotOk cfg w x boardId snapshot)
    (hchanges : event.changes = true → snapshot.context.permission = .edit)
    (hspeaker : ∀ p, event.speaker? = some p → p = snapshot.participant) :
    MaySay cfg w.History x boardId event :=
  ⟨snapshot.context.userId, snapshot.context.permission, h.granted, hchanges,
    fun p hp => by rw [hspeaker p hp]; rfl⟩

omit [DecidableEq Socket] in
/-- An edit is handed on for the context found. -/
theorem Inv.handOnFor {boardId : String} {snapshot : ContextSnapshot} {kind : EditKind}
    (hinv : Inv cfg I w) (hboard : snapshot.context.boardId = boardId)
    (hedit : snapshot.context.permission = .edit) (hconnected : (w.sockets x).connected = true)
    (hcontext : (w.sockets x).boardContext = some snapshot.context) :
    Moved cfg I w (w.handOn x boardId snapshot.context.userId kind) := by
  refine hinv.handOn hconnected ⟨snapshot.context.sessionId, ?_⟩
  rw [hcontext, ← hboard, ← hedit]

/-! ### The other events -/

omit [DecidableEq Socket] in
theorem goes_refreshSocketActivity {answers : ActivityAnswers} :
    Goes cfg I (refreshSocketActivity answers : Handler Socket Unit) (fun _ _ => True) w := by
  unfold refreshSocketActivity
  split
  · exact Goes.await fun _ _ => Goes.await fun _ _ => Goes.awaiting fun _ _ => trivial
  · exact Goes.awaiting fun _ _ => trivial

omit [DecidableEq Socket] in
theorem moved_foldl_say {α : Type} {as : List α} {boardId : String} {f : α → RoomEvent}
    (hinv : Inv cfg I w) (hsay : ∀ a ∈ as, MaySay cfg w.History x boardId (f a)) :
    Moved cfg I w (as.foldl (fun w a => w.emitToBoard (some x) boardId (f a)) w) := by
  induction as generalizing w with
  | nil => exact .refl hinv
  | cons a as ih =>
    have hmoved : Moved cfg I w (w.emitToBoard (some x) boardId (f a)) :=
      hinv.say (hsay a List.mem_cons_self)
    refine hmoved.trans (ih hmoved.inv ?_)
    exact fun a' ha' => (hsay a' (List.mem_cons_of_mem _ ha')).mono hmoved.later.history

theorem goes_emitResults {payload : MutationBatchPayload} {snapshot : ContextSnapshot}
    {results : List BatchResult} (hok : SnapshotOk cfg w x payload.boardId snapshot)
    (hedit : snapshot.context.permission = .edit) :
    Goes cfg I (emitResults x payload snapshot results) (fun _ _ => True) w := by
  refine Goes.atomically fun w' hinv hlater => ⟨?_, trivial⟩
  dsimp only
  have hmoved : Moved cfg I w' (((payload.mutations.zip results).filter fun entry =>
      entry.2.broadcasts).foldl
        (fun w entry => w.emitToBoard (some x) payload.boardId (.mutation entry.1)) w') :=
    moved_foldl_say hinv fun _ _ =>
      (hok.later hlater).maySay (fun _ => hedit) (by rintro _ ⟨⟩)
  split
  · refine hmoved.trans (hmoved.inv.safeEmitToSelf ?_)
    rintro boardId ⟨rfl⟩
    rw [hok.board]
    exact hok.granted.sees.mono (hlater.trans hmoved.later).history
  · exact hmoved

theorem goes_onMutationBatch {raw : WireValue} {answers : BatchAnswers} :
    Goes cfg I (onMutationBatch x raw answers) (fun _ _ => True) w := by
  unfold onMutationBatch
  split
  · exact goes_emitError
  · next payload hparsed =>
    have hne : payload.boardId ≠ "" := (parseMutationBatchPayload_iff.mp hparsed).2.boardId.1
    refine Goes.bind (goes_acceptEvent hne) fun taken w₁ h₁ htaken => ?_
    cases taken with
    | none => exact Goes.done trivial
    | some snapshot =>
      obtain ⟨hok, hrefusal⟩ := htaken snapshot rfl
      have hedit : snapshot.context.permission = .edit := by
        split at hrefusal
        · cases hrefusal
        · exact permission_of_needsEdit hrefusal
      refine Goes.bind goes_refreshSocketActivity fun _ w₂ h₂ _ => ?_
      have hok₂ := hok.later h₂
      refine Goes.bind (goes_whileActive hok₂ fun w' hinv _ hconnected hcontext =>
        hinv.handOnFor hok.board hedit hconnected hcontext) fun active w₃ h₃ _ => ?_
      split
      · refine Goes.await fun w₄ h₄ => Goes.bind (P := fun _ _ => True)
          (Goes.read fun _ _ _ => trivial) fun still w₅ h₅ _ => ?_
        split
        · refine Goes.await fun w₆ h₆ => goes_emitResults ?_ hedit
          exact hok₂.later (((h₃.trans h₄).trans h₅).trans h₆)
        · exact Goes.done trivial
      · exact Goes.done trivial

omit [DecidableEq Socket] in
/-- The last section of the events that end with it. -/
theorem goes_whileActive_last {boardId : String} {snapshot : ContextSnapshot}
    {run : World Socket → World Socket} (hok : SnapshotOk cfg w x boardId snapshot)
    (hrun : ∀ w', Inv cfg I w' → SnapshotOk cfg w' x boardId snapshot →
      (w'.sockets x).connected = true → (w'.sockets x).boardContext = some snapshot.context →
      Moved cfg I w' (run w')) :
    Goes cfg I (whileActive x snapshot run >>= fun _ => .done ()) (fun _ _ => True) w :=
  Goes.bind (goes_whileActive hok hrun) fun _ _ _ _ => Goes.done trivial

theorem goes_onCrdtUpdate {raw : WireValue} {answers : ActivityAnswers} :
    Goes cfg I (onCrdtUpdate x raw answers) (fun _ _ => True) w := by
  unfold onCrdtUpdate
  split
  · exact goes_emitError
  · next payload hparsed =>
    have hne : payload.boardId ≠ "" := (parseCrdtUpdatePayload_iff.mp hparsed).2.boardId.1
    refine Goes.bind (goes_acceptEvent hne) fun taken w₁ h₁ htaken => ?_
    cases taken with
    | none => exact Goes.done trivial
    | some snapshot =>
      obtain ⟨hok, hrefusal⟩ := htaken snapshot rfl
      have hedit : snapshot.context.permission = .edit := permission_of_needsEdit hrefusal
      refine Goes.bind goes_refreshSocketActivity fun _ w₂ h₂ _ => ?_
      refine goes_whileActive_last (hok.later h₂) fun w' hinv hok' hconnected hcontext => ?_
      exact (hinv.handOnFor hok.board hedit hconnected hcontext).say
        (hok'.maySay (fun _ => hedit) (by rintro _ ⟨⟩))

theorem goes_onPresenceUpdate {raw : WireValue} {answers : ActivityAnswers} :
    Goes cfg I (onPresenceUpdate x raw answers) (fun _ _ => True) w := by
  unfold onPresenceUpdate
  split
  · exact goes_emitError
  · next payload hparsed =>
    have hne : payload.boardId ≠ "" :=
      (parsePresenceUpdatePayload_iff.mp hparsed).2.boardId.1
    refine Goes.bind (goes_acceptEvent hne) fun taken w₁ h₁ htaken => ?_
    cases taken with
    | none => exact Goes.done trivial
    | some snapshot =>
      refine Goes.bind goes_refreshSocketActivity fun _ w₂ h₂ _ => ?_
      refine goes_whileActive_last ((htaken snapshot rfl).1.later h₂) fun w' hinv hok' _ _ => ?_
      refine hinv.say (hok'.maySay nofun ?_)
      rintro _ ⟨rfl⟩
      rfl

theorem goes_onRealtimeTick {raw : WireValue} {answers : ActivityAnswers} :
    Goes cfg I (onRealtimeTick cfg x raw answers) (fun _ _ => True) w := by
  unfold onRealtimeTick
  split
  · exact Goes.fail
  · exact goes_emitError
  · next payload hparsed =>
    have hne : payload.boardId ≠ "" := (parseRealtimeTickPayload_iff.mp hparsed).2.boardId.1
    refine Goes.bind (goes_acceptTick hne) fun taken w₁ h₁ htaken => ?_
    cases taken with
    | none => exact Goes.done trivial
    | some snapshot =>
      obtain ⟨hok, hedit⟩ := htaken snapshot rfl
      refine Goes.bind goes_refreshSocketActivity fun _ w₂ h₂ _ => ?_
      refine goes_whileActive_last (hok.later h₂) fun w' hinv hok' hconnected hcontext => ?_
      have hsay : MaySay cfg w'.History x payload.boardId
          (.realtimeTick snapshot.participant payload) := by
        refine hok'.maySay (fun hchanges => hedit (by simpa [RoomEvent.changes] using hchanges)) ?_
        rintro _ ⟨rfl⟩
        rfl
      dsimp only
      split
      · exact hinv.say hsay
      · next hmoves =>
        exact (hinv.handOnFor hok.board (hedit (by simpa using hmoves)) hconnected hcontext).say
          hsay

theorem goes_closeSocket : Goes cfg I (closeSocket x) (fun _ _ => True) w := by
  refine Goes.atomically fun w' hinv _ => ⟨?_, trivial⟩
  have hok := hinv.sockets x
  dsimp only
  split
  · exact hinv.setVariables ⟨hok.identity, hok.context, nofun⟩ rfl rfl
  · have hclosed : SocketOk cfg w'.History x
        ({ w'.sockets x with connected := false, rooms := [] } : SocketState) :=
      ⟨hok.identity, hok.context, nofun⟩
    exact hinv.setContext hclosed.dropBoardContext.dropBoardContext (Nat.le_succ _)

theorem goes_onDisconnect {answers : DetachAnswers} :
    Goes cfg I (onDisconnect x answers) (fun _ _ => True) w := by
  refine Goes.bind goes_closeSocket fun closed _ _ _ => ?_
  cases closed with
  | none => exact Goes.done trivial
  | some context =>
    exact Goes.bind goes_detachFromBoard fun _ _ _ _ => Goes.awaiting fun _ _ => trivial

theorem goes_deliver {i : Nat} : Goes cfg I (deliver x i) (fun _ _ => True) w := by
  refine Goes.atomically fun w' hinv _ => ⟨?_, trivial⟩
  split
  · exact .refl hinv
  · next m _ =>
    split
    · next hroom =>
      simp only [Bool.and_eq_true, List.contains_iff_mem] at hroom
      refine hinv.safeEmitToSelf ?_
      rintro boardId ⟨rfl⟩
      exact (hinv.sockets x).rooms _ hroom.1
    · exact .refl hinv

end handlers

/-! ### The requests -/

section requests
variable {Socket : Type} {cfg : Config Socket} {I : Tables → Prop} {w : World Socket}

/-- What keeps the worlds keeps their tables, and an allowed statement of the tables keeps the
    world. -/
theorem keeping_restricts {may : Tables → Requests.Write → Prop}
    (hkeeps : ∀ db write db', Stored cfg.runtime db → I db → may db write →
      Requests.Ran cfg.runtime db write db' → I db') :
    (Discipline.keeping (Inv cfg I) (WorldLater cfg)).Restricts World.tables
      (World.write cfg.runtime) (Requests.Write.apply cfg.runtime) (· ·)
      (Requests.storedWith cfg.runtime I may) where
  inv := fun w hinv => hinv.history _ w.history_self
  later := fun _ _ hlater => hlater.tables
  may := fun w write hinv hmay => by
    have hinv' := hinv.history _ w.history_self
    have hmoved : Moved cfg I w (w.write cfg.runtime write) :=
      hinv.write ((Requests.storedWith_sound hkeeps).keeps w.tables write hinv' hmay).2
    exact ⟨hmoved.inv, hmoved.later⟩
  write := fun _ _ => rfl

variable [DecidableEq Socket]

theorem goes_http (may : Tables → Requests.Write → Prop) {request : Requests.Request}
    (hkeeps : ∀ db write db', Stored cfg.runtime db → I db → may db write →
      Requests.Ran cfg.runtime db write db' → I db')
    (hobeys : Obeys cfg.runtime I may (Requests.handle cfg.runtime request) w.tables) :
    Goes cfg I (handle cfg (.http request)) (fun _ _ => True) w := by
  refine Goes.bind (P := fun _ _ => True) (Goes.orFail ?_) fun _ _ _ _ => Goes.done trivial
  exact Program.Follows.mono (Program.Follows.on (keeping_restricts hkeeps) hobeys)
    fun _ _ _ _ _ => trivial

/-- Every handler keeps the invariant, with one of the tables that the requests keep. -/
theorem goes_handle (may : Tables → Requests.Write → Prop) {event : ServerEvent Socket}
    (hkeeps : ∀ db write db', Stored cfg.runtime db → I db → may db write →
      Requests.Ran cfg.runtime db write db' → I db')
    (hobeys : ∀ request, event = .http request →
      Obeys cfg.runtime I may (Requests.handle cfg.runtime request) w.tables) :
    Goes cfg I (handle cfg event) (fun _ _ => True) w := by
  cases event with
  | http request => exact goes_http may hkeeps (hobeys request rfl)
  | boardJoin x raw answers => exact goes_onBoardJoin
  | mutationBatch x raw answers => exact goes_onMutationBatch
  | crdtUpdate x raw answers => exact goes_onCrdtUpdate
  | presenceUpdate x raw answers => exact goes_onPresenceUpdate
  | realtimeTick x raw answers => exact goes_onRealtimeTick
  | disconnect x answers => exact goes_onDisconnect
  | deliver x i => exact goes_deliver

end requests

/-! ### The system -/

section system
variable (Thread : Type) [DecidableEq Thread] {Socket : Type} [DecidableEq Socket]
  (cfg : Config Socket)

abbrev State (Thread Socket : Type) :=
  Interleaving.Running Thread (World Socket) (ServerEvent Socket)
    (World Socket → World Socket) Unit Unit

/-- Any number of requests and events at the same time, from any stored tables with the property
    and sockets that have sent nothing. -/
def system (start : Tables → Prop) :
    Transition.System (State Thread Socket) (Interleaving.Label Thread (ServerEvent Socket)) :=
  Interleaving.system Thread (· ·) admits (handle cfg) fun w =>
    ∃ db, Stored cfg.runtime db ∧ start db ∧ w = .starting Socket db

variable {Thread cfg}

/-- The server before any request and event. -/
def idle (Socket : Type) (db : Tables) : State Thread Socket :=
  { store := .starting Socket db, running := fun _ => none }

variable {s : State Thread Socket}

omit [DecidableEq Socket] in
theorem inv_starting {I : Tables → Prop} {db : Tables} (hs : Stored cfg.runtime db) (hI : I db) :
    Inv cfg I (.starting Socket db) := by
  constructor
  case history =>
    rintro db' (rfl | hpast)
    · exact ⟨hs, hI⟩
    · cases hpast
  case earlier =>
    rintro db' (rfl | hpast)
    · exact .refl _
    · cases hpast
  case sockets => exact fun x => ⟨nofun, nofun, nofun⟩
  case edits => exact fun e he => absurd he List.not_mem_nil
  case emitted => exact fun m hm => absurd hm List.not_mem_nil
  case received => exact fun x r hr => absurd hr List.not_mem_nil

/-- The invariant of all worlds, with one of the tables that the requests started under a condition
    keep. -/
theorem inv_of_reachableUnder {start I : Tables → Prop} (may : Tables → Requests.Write → Prop)
    {C : State Thread Socket → Interleaving.Label Thread (ServerEvent Socket) → Prop}
    (hkeeps : ∀ db write db', Stored cfg.runtime db → I db → may db write →
      Requests.Ran cfg.runtime db write db' → I db')
    (hstart : ∀ s t request, C s (.start t (.http request)) → Stored cfg.runtime s.store.tables →
      I s.store.tables →
      Obeys cfg.runtime I may (Requests.handle cfg.runtime request) s.store.tables)
    (hinit : ∀ db, Stored cfg.runtime db → start db → I db)
    (h : (system Thread cfg start).ReachableUnder C s) : Inv cfg I s.store := by
  refine (Interleaving.disciplined_of_reachableUnder
    (Q := fun _ r w' => ∀ a, r = .ok a → True) keeping_sound ?_ (fun _ _ _ _ _ _ h => h) ?_ h).inv
  · rintro _ ⟨db, hs, hstarting, rfl⟩
    exact inv_starting hs (hinit db hs hstarting)
  · intro s t event hC hinv _
    refine goes_handle may hkeeps ?_
    rintro request rfl
    obtain ⟨hs, hI⟩ := hinv.history _ s.store.history_self
    exact hstart s t request hC hs hI

theorem inv_of_reachable {start : Tables → Prop} (h : (system Thread cfg start).Reachable s) :
    Inv cfg (fun _ => True) s.store := by
  refine (Interleaving.disciplined_of_reachable
    (Q := fun _ r w' => ∀ a, r = .ok a → True) keeping_sound ?_ (fun _ _ _ _ _ _ h => h) ?_ h).inv
  · rintro _ ⟨db, hs, -, rfl⟩
    exact inv_starting hs trivial
  · intro w event _ _
    refine goes_handle (fun _ _ => True) (fun _ _ _ _ _ _ _ => trivial) ?_
    rintro request -
    exact Requests.Obeys.handle (fun _ _ _ _ _ _ _ _ _ _ => trivial) fun _ _ _ _ _ => trivial

/-! ### An owner at work -/

/-- The owner's socket: it shows one token, and nothing fails. -/
def ownerConfig : Config Unit where
  runtime := .counting
  socketId := fun _ => "s"
  handshake := fun _ =>
    { authToken := .str "token", authShareToken := .other false, queryShareToken := .other false
      authorization := none, cookie := none }
  verifyAccessToken := fun _ token =>
    if token = "token" then some (Requests.Runtime.counting.random 0) else none
  parseInt := fun _ => .ok none

def quietDetach : DetachAnswers := ⟨fun _ => false, none⟩

def quietJoin : JoinAnswers where
  now := 0
  lookupFails := fun _ => false
  rejects := fun _ => false
  isMember := false
  full := false
  previous := quietDetach
  participants := []
  admitted := true
  rejected := quietDetach

def quietActivity : ActivityAnswers := ⟨false, fun _ => false⟩

def joinsBoard : ServerEvent Unit :=
  .boardJoin ()
    (ClientPayload.boardJoin ⟨Requests.Runtime.counting.random 4, 0, "tab", none⟩).toWire quietJoin

def updatesBoard : ServerEvent Unit :=
  .crdtUpdate () (ClientPayload.crdtUpdate ⟨Requests.Runtime.counting.random 4, [1]⟩).toWire
    quietActivity

/-- The owner's join, from its start to its end. -/
def ownerJoining : List (Interleaving.Label Bool (ServerEvent Unit)) :=
  .start true joinsBoard :: List.replicate 23 (.resume true)

theorem reachable_guestTables : (system Bool ownerConfig fun _ => True).Reachable
    (idle Unit Requests.guestTables) :=
  .init ⟨⟨_, Requests.stored_guestTables, trivial, rfl⟩, fun _ => rfl⟩

/-! ### What is handed on, and what is got -/

/-- Whatever requests, joins, leaves and other events run beside each other: a change is handed on
    only for a socket that is connected, in whose context it then finds that board, that user and
    the permission to edit, and which the tables have let in to edit. -/
theorem edit_justified {start : Tables → Prop} (h : (system Thread cfg start).Reachable s)
    {e : Edit Socket} (he : e ∈ s.store.edits) : Justified cfg s.store.History e :=
  (inv_of_reachable h).edits e he

/-- The owner joins the board, and sends an update of it. -/
theorem edit_justified_owner :
    ∃ s : State Bool Unit,
      (system Bool ownerConfig fun _ => True).exec (idle Unit Requests.guestTables)
        (ownerJoining ++ .start false updatesBoard :: List.replicate 3 (.resume false)) = some s ∧
      ∃ e ∈ s.store.edits, Justified ownerConfig s.store.History e := by
  have hone : ((system Bool ownerConfig fun _ => True).exec (idle Unit Requests.guestTables)
      (ownerJoining ++ .start false updatesBoard :: List.replicate 3 (.resume false))).map
        (·.store.edits.length) = some 1 := by decide
  obtain ⟨s, hrun, hlength⟩ := Option.map_eq_some_iff.mp hone
  obtain ⟨e, he⟩ := List.length_eq_one_iff.mp hlength
  have hmem : e ∈ s.store.edits := he ▸ List.mem_singleton_self e
  exact ⟨s, hrun, e, hmem, edit_justified (reachable_guestTables.exec hrun) hmem⟩

/-- A socket gets nothing of a board that the tables have not let it into. -/
theorem received_seen {start : Tables → Prop} (h : (system Thread cfg start).Reachable s)
    {x : Socket} {r : Received} (hr : r ∈ s.store.received x) {boardId : String}
    (hboard : r.boardId? = some boardId) : Sees cfg s.store.History x boardId :=
  (inv_of_reachable h).received x r hr boardId hboard

theorem received_seen_owner :
    ∃ s : State Bool Unit,
      (system Bool ownerConfig fun _ => True).exec (idle Unit Requests.guestTables)
        ownerJoining = some s ∧
      ∃ r ∈ s.store.received (), r.boardId? = some (Requests.Runtime.counting.random 4) ∧
        Sees ownerConfig s.store.History () (Requests.Runtime.counting.random 4) := by
  have hone : ((system Bool ownerConfig fun _ => True).exec (idle Unit Requests.guestTables)
      ownerJoining).map (fun s => (s.store.received ()).map Received.boardId?) =
        some [some (Requests.Runtime.counting.random 4)] := by decide
  obtain ⟨s, hrun, hreceived⟩ := Option.map_eq_some_iff.mp hone
  obtain ⟨r, hr, hboard⟩ := List.map_eq_singleton_iff.mp hreceived
  have hmem : r ∈ s.store.received () := hr ▸ List.mem_singleton_self r
  exact ⟨s, hrun, r, hmem, hboard, received_seen (reachable_guestTables.exec hrun) hmem hboard⟩

/-- What is said in the room of a board, is said by a socket that the tables have let in, in the
    name of the user under whom they have, and a change only by one let in to edit. -/
theorem emitted_maySay {start : Tables → Prop} (h : (system Thread cfg start).Reachable s)
    {m : Message Socket} (hm : m ∈ s.store.emitted) {x : Socket} (hx : m.sender = some x) :
    MaySay cfg s.store.History x m.boardId m.event :=
  (inv_of_reachable h).emitted m hm x hx

theorem emitted_maySay_owner :
    ∃ s : State Bool Unit,
      (system Bool ownerConfig fun _ => True).exec (idle Unit Requests.guestTables)
        (ownerJoining ++ .start false updatesBoard :: List.replicate 3 (.resume false)) = some s ∧
      ∃ m ∈ s.store.emitted, m.event.changes = true ∧
        MaySay ownerConfig s.store.History () m.boardId m.event := by
  have htwo : ((system Bool ownerConfig fun _ => True).exec (idle Unit Requests.guestTables)
      (ownerJoining ++ .start false updatesBoard :: List.replicate 3 (.resume false))).map
        (fun s => s.store.emitted.map fun m => (m.sender, m.event.changes)) =
          some [(some (), false), (some (), true)] := by decide
  obtain ⟨s, hrun, hemitted⟩ := Option.map_eq_some_iff.mp htwo
  have hlast : (some (), true) ∈ s.store.emitted.map fun m => (m.sender, m.event.changes) := by
    rw [hemitted]
    exact List.mem_cons_of_mem _ List.mem_cons_self
  obtain ⟨m, hm, hshape⟩ := List.mem_map.mp hlast
  obtain ⟨hsender, hchanges⟩ := Prod.mk.inj hshape
  exact ⟨s, hrun, m, hm, hchanges, emitted_maySay (reachable_guestTables.exec hrun) hm hsender⟩

end system

end Notebortt.SocketServer
