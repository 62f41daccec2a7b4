import Notebortt.Requests.Guards

/-! # Link tokens

    A token is on one link of one board. What it opens only shrinks: a link
    that is switched off or rotated away never opens again, and
    `GET /shared/:token` and the access check read the same links. -/

open Interleaving (Program Label)

namespace Notebortt.Requests

open Invitations Access

/-! ### The two links of a board -/

def linkToken (permission : BoardPermission) (board : Board) : Option String :=
  match permission with
  | .view => board.linkShareViewToken
  | .edit => board.linkShareEditToken

def linkGrants (permission : BoardPermission) (board : Board) (token : String) : Bool :=
  match permission with
  | .view => viewGrants board token
  | .edit => editGrants board token

/-- No token is on links with both permissions. -/
def OneLink (db : Tables) : Prop :=
  ∀ b ∈ db.boards, ∀ b' ∈ db.boards, ∀ permission permission' token,
    linkToken permission b = some token → linkToken permission' b' = some token →
    permission = permission'

/-- The board has a link with this permission that the token opens. -/
def Opens (db : Tables) (token boardId : String) (permission : BoardPermission) : Prop :=
  ∃ b ∈ db.boards, b.id = boardId ∧ linkGrants permission b token = true

theorem linkToken_of_grants {permission : BoardPermission} {board : Board} {token : String}
    (h : linkGrants permission board token = true) : linkToken permission board = some token := by
  cases permission <;> simp_all [linkGrants, linkToken, viewGrants, editGrants]

theorem hasToken_iff {board : Board} {token : String} :
    HasToken board token ↔ ∃ permission, linkToken permission board = some token := by
  constructor
  · rintro (h | h)
    · exact ⟨.view, h⟩
    · exact ⟨.edit, h⟩
  · rintro ⟨_ | _, h⟩
    · exact .inl h
    · exact .inr h

section writes
variable {rt : Runtime} {db db' : Tables}

/-- The tokens after a write: one link may have taken the new one. -/
def LinksFrom (rt : Runtime) (db db' : Tables) : Prop :=
  ∃ permission, ∀ b' ∈ db'.boards, ∀ p token, linkToken p b' = some token →
    (∃ b ∈ db.boards, linkToken p b = some token) ∨ (p = permission ∧ token = db.next rt)

theorem LinksFrom.of_subset (h : ∀ b ∈ db'.boards, b ∈ db.boards) : LinksFrom rt db db' :=
  ⟨.view, fun b hb _ _ htoken => .inl ⟨b, h b hb, htoken⟩⟩

theorem LinksFrom.insertBoard {workspaceId name : String} {boards : List Board} {drawn : Nat}
    (hinsert : Table.insert (boardConstraints (db.env rt)) (newBoard rt workspaceId name db)
      db.boards = .ok boards) : LinksFrom rt db (db.withBoards boards drawn) := by
  refine ⟨.view, ?_⟩
  intro b' hb' p token htoken
  rcases mem_insert hinsert hb' with hb | rfl
  · exact .inl ⟨b', hb, htoken⟩
  · cases p <;> cases htoken

theorem LinksFrom.updateBoard {boardId : String} {set : Board → Board} {boards : List Board}
    {drawn : Nat} (permission : BoardPermission)
    (hset : ∀ b p token, linkToken p (set b) = some token →
      linkToken p b = some token ∨ (p = permission ∧ token = db.next rt))
    (hupdated : BoardUpdated rt db boardId set boards) :
    LinksFrom rt db (db.withBoards boards drawn) := by
  refine ⟨permission, ?_⟩
  intro b' hb' p token htoken
  replace hb' : b' ∈ boards := hb'
  rw [hupdated.rows] at hb'
  obtain ⟨b, hb, ⟨-, rfl⟩ | ⟨-, rfl⟩⟩ := Table.mem_updateRows.mp hb'
  · exact (hset b p token htoken).imp_left fun hold => ⟨b, hb, hold⟩
  · exact .inl ⟨b', hb, htoken⟩

theorem linkToken_linkSharePatch {permission p : BoardPermission} {enabled : Bool}
    {fresh token : String} {b : Board}
    (h : linkToken p (linkSharePatch permission enabled fresh b) = some token) :
    linkToken p b = some token ∨ (p = permission ∧ token = fresh) := by
  cases permission <;> cases p <;> cases enabled <;> simp_all [linkSharePatch, linkToken]

theorem linkToken_rotatePatch {permission p : BoardPermission} {fresh token : String} {b : Board}
    (h : linkToken p (rotatePatch permission fresh b) = some token) :
    linkToken p b = some token ∨ (p = permission ∧ token = fresh) := by
  cases permission <;> cases p <;> simp_all [rotatePatch, linkToken]

/-- What each write does to the tokens. -/
theorem linksFrom_of_ran {write : Write} (hran : Ran rt db write db') : LinksFrom rt db db' := by
  cases hran with
  | createBoard hinsert => exact .insertBoard hinsert
  | duplicateBoard hsource hinsert => exact .insertBoard hinsert
  | renameBoard hupdated =>
    refine .updateBoard .view ?_ hupdated
    exact fun _ p _ h => .inl (by cases p <;> exact h)
  | setBoardLinkShare hupdated =>
    exact .updateBoard _ (fun _ _ _ => linkToken_linkSharePatch) hupdated
  | rotateBoardLinkShareToken hupdated =>
    exact .updateBoard _ (fun _ _ _ => linkToken_rotatePatch) hupdated
  | deleteBoard => exact .of_subset fun b hb => (Table.mem_delete.mp hb).1
  | createGoogleUser | insertRefreshToken | createWorkspace | renameWorkspace
  | deleteWorkspaceMember | insertInvitation | acceptInvitation | declineInvitation
  | duplicateNothing
  | addBoardFavorite | removeBoardFavorite | upsertBoardMember | updateBoardMemberPermission
  | deleteBoardMember | leaveBoard | insertBoardInvitation | acceptBoardInvitation
  | declineBoardInvitation | revokeBoardInvitation => exact .of_subset fun b hb => hb

/-- The new token is on no link yet. -/
theorem OneLink.ran {write : Write} (hs : Stored rt db) (h : OneLink db)
    (hran : Ran rt db write db') : OneLink db' := by
  obtain ⟨permission, hlinks⟩ := linksFrom_of_ran hran
  have hnew {p : BoardPermission} {b : Board} (hb : b ∈ db.boards) :
      linkToken p b ≠ some (db.next rt) := fun htoken =>
    Runtime.not_drawn (Nat.le_refl _)
      (hs.drawn.tokens b hb _ (hasToken_iff.mpr ⟨p, htoken⟩))
  intro b hb b' hb' p p' token htoken htoken'
  rcases hlinks b hb p token htoken with ⟨b₀, hb₀, hold⟩ | ⟨rfl, rfl⟩
  · rcases hlinks b' hb' p' token htoken' with ⟨b₀', hb₀', hold'⟩ | ⟨rfl, rfl⟩
    · exact h b₀ hb₀ b₀' hb₀' p p' token hold hold'
    · exact absurd hold (hnew hb₀)
  · rcases hlinks b' hb' p' _ htoken' with ⟨b₀', hb₀', hold'⟩ | ⟨rfl, -⟩
    · exact absurd hold' (hnew hb₀')
    · rfl

/-! ### What a token opens -/

variable {token boardId boardId' : String} {permission permission' : BoardPermission}

/-- One board with one permission. -/
theorem Opens.unique (hs : Stored rt db) (hone : OneLink db) (h : Opens db token boardId permission)
    (h' : Opens db token boardId' permission') : boardId' = boardId ∧ permission' = permission := by
  obtain ⟨b, hb, rfl, hgrants⟩ := h
  obtain ⟨b', hb', rfl, hgrants'⟩ := h'
  have htoken := linkToken_of_grants hgrants
  have htoken' := linkToken_of_grants hgrants'
  obtain rfl := hone b hb b' hb' _ _ token htoken htoken'
  -- the columns of the tokens are unique
  have hrow : b' = b := hs.valid.boards.eq_of_clash hb' hb <| by
    cases permission <;> simp_all [boardConstraints, linkToken, sameToken]
  exact ⟨by rw [hrow], rfl⟩

/-- A token drawn before opens later only what it has opened. -/
theorem Opens.of_later (hs : Stored rt db) (hlater : Later rt db db')
    (hdrawn : rt.Drawn db.drawn token) (h : Opens db' token boardId permission) :
    Opens db token boardId permission := by
  obtain ⟨b', hb', rfl, hgrants⟩ := h
  have htoken := linkToken_of_grants hgrants
  obtain ⟨b₀, hb₀, hid, -⟩ := hlater.tokens b' hb' token hdrawn (hasToken_iff.mpr ⟨_, htoken⟩)
  obtain ⟨b, hb, hsame⟩ := hlater.boards b' hb' (hid ▸ hs.drawn.boards b₀ hb₀)
  refine ⟨b, hb, hsame.id.symm, ?_⟩
  cases permission with
  | view => exact hsame.view token hdrawn hgrants
  | edit => exact hsame.edit token hdrawn hgrants

theorem Opens.drawn (hs : Stored rt db) (h : Opens db token boardId permission) :
    rt.Drawn db.drawn token := by
  obtain ⟨b, hb, -, hgrants⟩ := h
  exact hs.drawn.tokens b hb token (hasToken_iff.mpr ⟨_, linkToken_of_grants hgrants⟩)

theorem Opens.ne_empty (hs : Stored rt db) (h : Opens db token boardId permission) :
    token ≠ "" := by
  obtain ⟨k, -, rfl⟩ := h.drawn hs
  exact rt.random_ne_empty k

/-- The access check for nobody but the bearer of the token. -/
theorem checkBoardAccess_token_iff (hs : Stored rt db) (hone : OneLink db) :
    checkBoardAccess db.access boardId none (some token) = granted permission ↔
      Opens db token boardId permission := by
  have hgetBoard {board : Board} : Access.getBoard db.access boardId = some board ↔
      board ∈ db.boards ∧ board.id = boardId := hs.valid.access.getBoard_iff
  constructor
  · intro hcheck
    rw [checkBoardAccess] at hcheck
    split at hcheck
    · cases hcheck
    · next board hboard =>
      obtain ⟨hmem, hid⟩ := hgetBoard.mp hboard
      refine ⟨board, hmem, hid, ?_⟩
      split at hcheck
      · next hview =>
        cases hcheck
        simp_all [linkGrants, viewGrants]
      · split at hcheck
        · next hedit =>
          cases hcheck
          simp_all [linkGrants, editGrants]
        · cases hcheck
  · intro hopens
    have hgiven : given (some token) = true := by simp [given, hopens.ne_empty hs]
    obtain ⟨board, hmem, hid, hgrants⟩ := hopens
    rw [checkBoardAccess, hgetBoard.mpr ⟨hmem, hid⟩, hgiven]
    cases permission with
    | view =>
      have hview : board.linkShareViewEnabled = true ∧ board.linkShareViewToken = some token := by
        simpa [linkGrants, viewGrants] using hgrants
      simp [hview]
    | edit =>
      have hedit : board.linkShareEditEnabled = true ∧ board.linkShareEditToken = some token := by
        simpa [linkGrants, editGrants] using hgrants
      have hnot : board.linkShareViewToken ≠ some token := fun hview =>
        absurd (hone board hmem board hmem .view .edit token hview hedit.2) (by decide)
      simp [hedit, hnot]

theorem opens_of_viewShared {b : Board} (h : viewShared db token = some b) :
    Opens db token b.id .view := by
  refine ⟨b, List.mem_of_find?_eq_some h, rfl, ?_⟩
  have hmatch := List.find?_some h
  rwa [linkGrants, viewGrants, Bool.and_comm]

theorem opens_of_editShared {b : Board} (h : editShared db token = some b) :
    Opens db token b.id .edit := by
  refine ⟨b, List.mem_of_find?_eq_some h, rfl, ?_⟩
  have hmatch := List.find?_some h
  rwa [linkGrants, editGrants, Bool.and_comm]

/-- The two queries of `GET /shared/:token`, on the same tables. -/
theorem shareOf_iff (hs : Stored rt db) (hone : OneLink db) :
    shareOf (viewShared db token) (editShared db token) = some (boardId, permission) ↔
      Opens db token boardId permission := by
  constructor
  · intro h
    cases hv : viewShared db token with
    | some b =>
      rw [hv] at h
      cases h
      exact opens_of_viewShared hv
    | none =>
      cases he : editShared db token with
      | some b =>
        rw [hv, he] at h
        cases h
        exact opens_of_editShared he
      | none =>
        rw [hv, he] at h
        cases h
  · intro hopens
    cases hv : viewShared db token with
    | some b =>
      obtain ⟨rfl, rfl⟩ := (opens_of_viewShared hv).unique hs hone hopens
      rfl
    | none =>
      cases he : editShared db token with
      | some b =>
        obtain ⟨rfl, rfl⟩ := (opens_of_editShared he).unique hs hone hopens
        rfl
      | none =>
        -- the row that opens is one that a query would have found
        obtain ⟨b, hb, -, hgrants⟩ := hopens
        cases permission with
        | view =>
          refine absurd ?_ (List.find?_eq_none.mp hv b hb)
          rwa [Bool.and_comm]
        | edit =>
          refine absurd ?_ (List.find?_eq_none.mp he b hb)
          rwa [Bool.and_comm]

/-! ### What `GET /shared/:token` has answered -/

/-- The token opens this board with this permission, or nothing any more. -/
structure Settled (rt : Runtime) (token boardId : String) (permission : BoardPermission)
    (db : Tables) : Prop where
  drawn : rt.Drawn db.drawn token
  only : ∀ boardId' permission', Opens db token boardId' permission' →
    boardId' = boardId ∧ permission' = permission

theorem Opens.settled (hs : Stored rt db) (hone : OneLink db)
    (h : Opens db token boardId permission) : Settled rt token boardId permission db :=
  ⟨h.drawn hs, fun _ _ h' => h.unique hs hone h'⟩

theorem Settled.later (hs : Stored rt db) (hlater : Later rt db db')
    (h : Settled rt token boardId permission db) : Settled rt token boardId permission db' :=
  ⟨h.drawn.mono hlater.drawn, fun b p hopens => h.only b p (hopens.of_later hs hlater h.drawn)⟩

/-- What the two queries have read, in tables of different times. -/
theorem settled_of_shareOf {db₁ db₂ : Tables} (hs₁ : Stored rt db₁) (hone₁ : OneLink db₁)
    (hs₂ : Stored rt db₂) (hone₂ : OneLink db₂) (hlater₁ : Later rt db₁ db)
    (hlater₂ : Later rt db₂ db)
    (h : shareOf (viewShared db₁ token) (editShared db₂ token) = some (boardId, permission)) :
    Settled rt token boardId permission db := by
  cases hv : viewShared db₁ token with
  | some b =>
    rw [hv] at h
    cases h
    exact ((opens_of_viewShared hv).settled hs₁ hone₁).later hs₁ hlater₁
  | none =>
    cases he : editShared db₂ token with
    | some b =>
      rw [hv, he] at h
      cases h
      exact ((opens_of_editShared he).settled hs₂ hone₂).later hs₂ hlater₂
    | none =>
      rw [hv, he] at h
      cases h

theorem follows_getShareByToken {editFirst : Bool} :
    (getShareByToken token editFirst).Follows (Write.apply rt)
      (storedWith rt OneLink fun _ _ => True)
      (fun r db => ∀ boardId permission, r = .ok (some (boardId, permission)) →
        Settled rt token boardId permission db) db := by
  rw [getShareByToken]
  split
  · refine Program.Follows.bind (Program.Follows.read fun db₁ hinv₁ _ => ?_)
    refine Program.Follows.bind (Program.Follows.read fun db₂ hinv₂ hlater => ?_)
    intro boardId permission hshare
    exact settled_of_shareOf hinv₂.1 hinv₂.2 hinv₁.1 hinv₁.2 (Later.refl _) hlater
      (Except.ok.inj hshare)
  · refine Program.Follows.bind (Program.Follows.read fun db₁ hinv₁ _ => ?_)
    refine Program.Follows.bind (Program.Follows.read fun db₂ hinv₂ hlater => ?_)
    intro boardId permission hshare
    exact settled_of_shareOf hinv₁.1 hinv₁.2 hinv₂.1 hinv₂.2 hlater (Later.refl _)
      (Except.ok.inj hshare)

/-- A request for a shared board that has answered one has settled what its token opens. -/
def SharedAnswer (rt : Runtime) :
    Request → Except RequestError Response → Tables → Prop
  | .getShared token _, r, db => ∀ boardId permission,
    r = .ok ⟨200, .share boardId permission⟩ → Settled rt token boardId permission db
  | _, _, _ => True

theorem follows_handle_getShared {editFirst : Bool} :
    (handle rt (.getShared token editFirst)).Follows (Write.apply rt)
      (storedWith rt OneLink fun _ _ => True) (SharedAnswer rt (.getShared token editFirst))
      db := by
  refine Program.Follows.bind (follows_getShareByToken.mono ?_)
  rintro (e | share) db' hsettled
  · exact nofun
  · match share with
    | none => exact nofun
    | some (boardId, permission) =>
      rintro _ _ ⟨rfl⟩
      exact hsettled boardId permission rfl

end writes

/-- The board of the guest tables, shared to be viewed. -/
def sharedTables : Tables :=
  (Write.setBoardLinkShare (Runtime.counting.random 4) .view true).apply .counting guestTables

theorem stored_sharedTables : Stored .counting sharedTables := stored_guestTables.apply _

theorem oneLink_sharedTables : OneLink sharedTables := by
  have hguest : OneLink guestTables := by
    intro b hb _ _ permission _ _ htoken _
    obtain rfl := List.mem_singleton.mp hb
    cases permission <;> cases htoken
  exact apply_induction hguest fun _ hran => hguest.ran stored_guestTables hran

section system
variable {Thread : Type} [DecidableEq Thread] {rt : Runtime} {s s' : State Thread}

theorem oneLink_of_reachable (h : (system Thread rt OneLink).Reachable s) :
    Stored rt s.store ∧ OneLink s.store :=
  invariant_of_reachable (fun _ _ => True) (fun _ _ _ hs hone _ hran => hone.ran hs hran)
    (fun _ _ _ _ _ _ _ _ _ _ => trivial) (fun _ _ _ _ _ => trivial) h

/-- `GET /shared/:token` names a board exactly when the access check grants its bearer that
    permission on it, in whatever state the requests have left the tables. -/
theorem share_iff_checkBoardAccess (h : (system Thread rt OneLink).Reachable s)
    (token boardId : String) (permission : BoardPermission) :
    shareOf (viewShared s.store token) (editShared s.store token) = some (boardId, permission) ↔
      checkBoardAccess s.store.access boardId none (some token) = granted permission := by
  obtain ⟨hs, hone⟩ := oneLink_of_reachable h
  rw [shareOf_iff hs hone, checkBoardAccess_token_iff hs hone]

/-- The owner of a board shares it. -/
theorem share_iff_checkBoardAccess_shared :
    let r := Runtime.counting.random
    shareOf (viewShared sharedTables (r 6)) (editShared sharedTables (r 6)) =
      some (r 4, .view) := by
  intro r
  have hstart : (system Bool .counting OneLink).Reachable (idle sharedTables) :=
    .init ⟨⟨stored_sharedTables, oneLink_sharedTables⟩, fun _ => rfl⟩
  exact (share_iff_checkBoardAccess hstart (r 6) (r 4) .view).mpr (by decide)

/-- Once a token that has been drawn does not open a board, no request and no order of statements
    makes it open the board again. -/
theorem link_never_reopens (h : (system Thread rt OneLink).Reachable s)
    {ls : List (Label Thread Request)} (hrun : (system Thread rt OneLink).exec s ls = some s')
    {token : String} (hdrawn : rt.Drawn s.store.drawn token) (boardId : String)
    (permission : BoardPermission)
    (hgranted : checkBoardAccess s'.store.access boardId none (some token) = granted permission) :
    checkBoardAccess s.store.access boardId none (some token) = granted permission := by
  obtain ⟨hs, hone⟩ := oneLink_of_reachable h
  obtain ⟨hs', hone'⟩ := oneLink_of_reachable (h.exec hrun)
  rw [checkBoardAccess_token_iff hs' hone'] at hgranted
  rw [checkBoardAccess_token_iff hs hone]
  exact hgranted.of_later hs (later_of_exec h hrun) hdrawn

/-- A shared board is renamed. -/
theorem link_never_reopens_renamed :
    let r := Runtime.counting.random
    ∃ s : State Bool, (system Bool .counting OneLink).exec (idle sharedTables)
      [.start true (.action (r 0) (.patchBoard (r 4) "Map")), .resume true, .resume true,
        .resume true] = some s ∧
      checkBoardAccess s.store.access (r 4) none (some (r 6)) = granted .view ∧
      checkBoardAccess sharedTables.access (r 4) none (some (r 6)) = granted .view := by
  intro r
  have hstart : (system Bool .counting OneLink).Reachable (idle sharedTables) :=
    .init ⟨⟨stored_sharedTables, oneLink_sharedTables⟩, fun _ => rfl⟩
  have hlater : checkBoardAccess
      (Write.apply .counting (.renameBoard (r 4) "Map") sharedTables).access (r 4) none
      (some (r 6)) = granted .view := by decide
  exact ⟨_, rfl, hlater, @link_never_reopens Bool _ .counting _ _ hstart
    [.start true (.action (r 0) (.patchBoard (r 4) "Map")), .resume true, .resume true,
        .resume true] rfl (r 6) (Runtime.drawn_random (by decide)) (r 4) .view hlater⟩

/-- What `GET /shared/:token` has answered, with its two queries in either order and anything
    between them: from then on the token opens nothing else. -/
theorem link_of_answer (h : (system Thread rt OneLink).Reachable s) {t : Thread}
    {token boardId : String} {permission : BoardPermission} {editFirst : Bool}
    (hdone : s.running t =
      some (.getShared token editFirst, .done ⟨200, .share boardId permission⟩)) :
    ∀ boardId' permission',
      checkBoardAccess s.store.access boardId' none (some token) = granted permission' →
      boardId' = boardId ∧ permission' = permission := by
  obtain ⟨hs, hone⟩ := oneLink_of_reachable h
  have hanswer : SharedAnswer rt (.getShared token editFirst)
      (.ok ⟨200, .share boardId permission⟩) s.store := by
    refine answered_of_reachable (fun _ _ _ hs hone hran => hone.ran hs hran) ?_ ?_ h hdone
    · intro request r db db' hs _ hlater hanswer
      cases request with
      | getShared token' _ =>
        exact fun boardId permission hr => (hanswer boardId permission hr).later hs hlater
      | action | login | getBoard => trivial
    · intro db request _ _ _
      cases request with
      | getShared token' _ => exact follows_handle_getShared
      | action | login | getBoard =>
        refine (Obeys.handle ?_ ?_).mono fun _ _ _ => trivial
        · exact fun _ _ _ _ _ _ _ _ _ _ => trivial
        · exact fun _ _ _ _ _ => trivial
  intro boardId' permission' hgranted
  exact (hanswer boardId permission rfl).only boardId' permission'
    ((checkBoardAccess_token_iff hs hone).mp hgranted)

/-- A shared board is asked for by its token. -/
theorem link_of_answer_shared :
    let r := Runtime.counting.random
    ∃ s : State Bool, (system Bool .counting OneLink).exec (idle sharedTables)
      [.start true (.getShared (r 6) false), .resume true, .resume true] = some s ∧
      checkBoardAccess s.store.access (r 4) none (some (r 6)) = granted .view ∧
      ∀ boardId permission,
        checkBoardAccess s.store.access boardId none (some (r 6)) = granted permission →
        boardId = r 4 ∧ permission = .view := by
  intro r
  have hstart : (system Bool .counting OneLink).Reachable (idle sharedTables) :=
    .init ⟨⟨stored_sharedTables, oneLink_sharedTables⟩, fun _ => rfl⟩
  have hasked := hstart.step (.start true (.getShared (r 6) false)) rfl
  have hview := hasked.step (.resume true) rfl
  have hedit := hview.step (.resume true) rfl
  exact ⟨_, rfl, by decide, link_of_answer (t := true) hedit rfl⟩

end system

end Notebortt.Requests
