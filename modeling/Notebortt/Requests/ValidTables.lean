import Notebortt.Requests.Writes

/-! # The tables keep their constraints

    Foreign keys reach from one table into another, so a write of one table has
    to be looked at from all the tables that refer to it: what is inserted is
    referred to by nobody, and a board goes together with all its rows. -/

open Table (Constraints)

namespace Notebortt.Requests

open Invitations Access

/-! ### Constraints under a growing environment -/

/-- Whatever may be referred to before may be referred to after. -/
structure EnvLe (env env' : Env) : Prop where
  users : ∀ userId, env.hasUser userId = true → env'.hasUser userId = true
  boards : ∀ boardId, env.boards.contains boardId = true → env'.boards.contains boardId = true
  workspaces : ∀ workspaceId, env.workspaces.contains workspaceId = true →
    env'.workspaces.contains workspaceId = true

/-- The constraints of every table, for the rows other tables refer to. -/
structure Tables.Holds (env : Env) (db : Tables) : Prop where
  users : userConstraints.Holds db.users
  userIds : ∀ u ∈ db.users, u.id ≠ ""
  oauthAccounts : (oauthAccountConstraints env).Holds db.oauthAccounts
  refreshTokens : (refreshTokenConstraints env).Holds db.refreshTokens
  workspaces : (workspaceConstraints env).Holds db.workspaces
  workspaceMembers :
    (memberRowConstraints (workspaceMemberConstraints env)).Holds db.workspaceMembers
  workspaceInvitations : (workspaceInvitationConstraints env).Holds db.workspaceInvitations
  boards : (boardConstraints env).Holds db.boards
  boardMembers : (memberRowConstraints (boardMemberConstraints env)).Holds db.boardMembers
  boardInvitations : (boardInvitationConstraints env).Holds db.boardInvitations
  boardFavorites : ∀ rows, db.boardFavorites = some rows →
    (boardFavoriteConstraints env).Holds rows

def Tables.Valid (rt : Runtime) (db : Tables) : Prop := db.Holds (db.env rt)

section grow
variable {env env' : Env} (hle : EnvLe env env')

include hle

/-- The user who added a member is there, if the column is not null. -/
theorem EnvLe.addedBy {addedBy : Option String} (h : addedBy.all env.hasUser = true) :
    addedBy.all env'.hasUser = true := by
  cases addedBy with
  | none => rfl
  | some userId => exact hle.users userId h

/-- The rows referred to are still there. -/
theorem Tables.Holds.grow {db : Tables} (h : db.Holds env) : db.Holds env' where
  users := h.users
  userIds := h.userIds
  oauthAccounts := h.oauthAccounts.of_references rfl rfl fun a _ => hle.users a.userId
  refreshTokens := h.refreshTokens.of_references rfl rfl fun r _ => hle.users r.userId
  workspaces := h.workspaces.of_references rfl rfl fun w _ => hle.users w.ownerId
  workspaceMembers := h.workspaceMembers.of_references rfl rfl fun m _ hm => by
    simp only [memberRowConstraints, workspaceMemberConstraints, Bool.and_eq_true] at hm ⊢
    exact ⟨⟨hle.workspaces _ hm.1.1, hle.users _ hm.1.2⟩, hle.addedBy hm.2⟩
  workspaceInvitations := h.workspaceInvitations.of_references rfl rfl fun i _ hi => by
    simp only [workspaceInvitationConstraints, invitationConstraints, Bool.and_eq_true] at hi ⊢
    exact ⟨hle.workspaces _ hi.1, hle.users _ hi.2⟩
  boards := h.boards.of_references rfl rfl fun b _ => hle.workspaces b.workspaceId
  boardMembers := h.boardMembers.of_references rfl rfl fun m _ hm => by
    simp only [memberRowConstraints, boardMemberConstraints, Bool.and_eq_true] at hm ⊢
    exact ⟨⟨hle.boards _ hm.1.1, hle.users _ hm.1.2⟩, hle.addedBy hm.2⟩
  boardInvitations := h.boardInvitations.of_references rfl rfl fun i _ hi => by
    simp only [boardInvitationConstraints, invitationConstraints, Bool.and_eq_true] at hi ⊢
    exact ⟨hle.boards _ hi.1, hle.users _ hi.2⟩
  boardFavorites := fun rows hrows =>
    (h.boardFavorites rows hrows).of_references rfl rfl fun f _ hf => by
      simp only [boardFavoriteConstraints, Bool.and_eq_true] at hf ⊢
      exact ⟨hle.boards _ hf.1, hle.users _ hf.2⟩

end grow

section writes
variable {rt : Runtime} {db : Tables}

theorem contains_of_subset {xs ys : List String} (h : ∀ x ∈ xs, x ∈ ys) (v : String)
    (hv : xs.contains v = true) : ys.contains v = true := by
  rw [List.contains_iff_mem] at hv ⊢
  exact h v hv

theorem envLe_withUser {users : List User} (h : ∀ u ∈ db.users, u ∈ users) :
    EnvLe (db.env rt) ((db.withUser users).env rt) where
  users := fun userId huser => by
    obtain ⟨u, hu, hid⟩ := List.any_eq_true.mp huser
    exact List.any_eq_true.mpr ⟨u, h u hu, hid⟩
  boards := fun _ h => h
  workspaces := fun _ h => h

theorem envLe_withWorkspace {workspaces : List Workspace}
    (h : ∀ w ∈ db.workspaces, w ∈ workspaces) :
    EnvLe (db.env rt) ((db.withWorkspace workspaces).env rt) where
  users := fun _ h => h
  boards := fun _ h => h
  workspaces := contains_of_subset fun _ hx => by
    obtain ⟨w, hw, rfl⟩ := List.mem_map.mp hx
    exact List.mem_map_of_mem (h w hw)

theorem envLe_withBoards {boards : List Board} {drawn : Nat}
    (h : ∀ b ∈ db.boards, b.id ∈ boards.map (·.id)) :
    EnvLe (db.env rt) ((db.withBoards boards drawn).env rt) where
  users := fun _ h => h
  boards := contains_of_subset fun _ hx => by
    obtain ⟨b, hb, rfl⟩ := List.mem_map.mp hx
    exact h b hb
  workspaces := fun _ h => h

/-! ### Inserted rows -/

theorem insert_subset {ρ : Type} {c : Constraints ρ} {row : ρ} {rows rows' : List ρ}
    (h : Table.insert c row rows = .ok rows') : ∀ r ∈ rows, r ∈ rows' := by
  obtain ⟨-, -, -, rfl⟩ := Table.insert_eq_ok_iff.mp h
  exact fun r hr => List.mem_append_left _ hr

theorem mem_of_insert {ρ : Type} {c : Constraints ρ} {row : ρ} {rows rows' : List ρ}
    (h : Table.insert c row rows = .ok rows') : row ∈ rows' := by
  obtain ⟨-, -, -, rfl⟩ := Table.insert_eq_ok_iff.mp h
  exact List.mem_append_right _ (List.mem_singleton.mpr rfl)

theorem mem_insert {ρ : Type} {c : Constraints ρ} {row r : ρ} {rows rows' : List ρ}
    (h : Table.insert c row rows = .ok rows') (hr : r ∈ rows') : r ∈ rows ∨ r = row := by
  obtain ⟨-, -, -, rfl⟩ := Table.insert_eq_ok_iff.mp h
  exact (List.mem_append.mp hr).imp_right List.mem_singleton.mp

theorem Tables.Valid.withUser {email : String} {users : List User} (h : db.Valid rt)
    (huser : Table.insert userConstraints (insertedUser rt db email) db.users = .ok users) :
    (db.withUser users).Valid rt :=
  { h.grow (envLe_withUser (insert_subset huser)) with
    users := h.users.insert huser
    userIds := fun u hu => by
      rcases mem_insert huser hu with hu | rfl
      · exact h.userIds u hu
      · exact rt.random_ne_empty db.drawn }

theorem Tables.Valid.workspaceInserted {name ownerId : String} {workspaces : List Workspace}
    {members : List (MemberRow String)} (h : db.Valid rt)
    (hinserted : WorkspaceInserted rt db name ownerId workspaces members) :
    ((db.withWorkspace workspaces).withWorkspaceMember members).Valid rt := by
  have hgrown := h.grow (envLe_withWorkspace (insert_subset hinserted.workspace))
  exact { hgrown with
    workspaces := (hgrown.workspaces.insert hinserted.workspace :)
    workspaceMembers := hgrown.workspaceMembers.insert hinserted.owner }

theorem Tables.Valid.withBoards {boards : List Board} {drawn : Nat} (h : db.Valid rt)
    (hids : ∀ b ∈ db.boards, b.id ∈ boards.map (·.id))
    (hboards : (boardConstraints (db.env rt)).Holds boards) :
    (db.withBoards boards drawn).Valid rt :=
  { h.grow (envLe_withBoards hids) with
    boards := hboards }

theorem Tables.Valid.insertBoard {workspaceId name : String} {boards : List Board}
    (h : db.Valid rt)
    (hinsert : Table.insert (boardConstraints (db.env rt)) (newBoard rt workspaceId name db)
      db.boards = .ok boards) :
    (db.withBoards boards (db.drawn + 1)).Valid rt :=
  h.withBoards (fun _ hb => List.mem_map_of_mem (insert_subset hinsert _ hb))
    (h.boards.insert hinsert)

theorem Tables.Valid.updateBoard {boardId : String} {set : Board → Board} {boards : List Board}
    {drawn : Nat} (h : db.Valid rt) (hid : ∀ b, (set b).id = b.id)
    (hupdated : BoardUpdated rt db boardId set boards) :
    (db.withBoards boards drawn).Valid rt := by
  refine h.withBoards ?_ hupdated.holds
  intro b hb
  rw [hupdated.rows, Table.map_updateRows (fun b : Board => b.id) hid]
  exact List.mem_map_of_mem hb

/-! ### A deleted board -/

/-- What is left refers to the boards that are left. -/
theorem contains_eraseBoard {boardId scopeId : String} (hne : (scopeId == boardId) = false)
    (h : ((db.env rt).boards).contains scopeId = true) :
    ((eraseBoard boardId db).env rt).boards.contains scopeId = true := by
  rw [List.contains_iff_mem] at h ⊢
  obtain ⟨b, hb, rfl⟩ := List.mem_map.mp h
  exact List.mem_map_of_mem (Table.mem_delete.mpr ⟨hb, hne⟩)

theorem Tables.Valid.eraseBoard {boardId : String} (h : db.Valid rt) :
    (eraseBoard boardId db).Valid rt where
  users := h.users
  userIds := h.userIds
  oauthAccounts := h.oauthAccounts
  refreshTokens := h.refreshTokens
  workspaces := h.workspaces
  workspaceMembers := h.workspaceMembers
  workspaceInvitations := h.workspaceInvitations
  boards := h.boards.delete
  boardMembers := h.boardMembers.delete.of_references rfl rfl fun m hm href => by
    simp only [memberRowConstraints, boardMemberConstraints, Bool.and_eq_true] at href ⊢
    exact ⟨⟨contains_eraseBoard (Table.mem_delete.mp hm).2 href.1.1, href.1.2⟩, href.2⟩
  boardInvitations := h.boardInvitations.delete.of_references rfl rfl fun i hi href => by
    simp only [boardInvitationConstraints, invitationConstraints, Bool.and_eq_true] at href ⊢
    exact ⟨contains_eraseBoard (Table.mem_delete.mp hi).2 href.1, href.2⟩
  boardFavorites := fun rows hrows => by
    obtain ⟨rows₀, hrows₀, rfl⟩ := Option.map_eq_some_iff.mp hrows
    refine (h.boardFavorites rows₀ hrows₀).delete.of_references rfl rfl fun f hf href => ?_
    simp only [boardFavoriteConstraints, Bool.and_eq_true] at href ⊢
    exact ⟨contains_eraseBoard (Table.mem_delete.mp hf).2 href.1, href.2⟩

/-! ### All writes -/

@[simp] theorem linkSharePatch_id (permission : BoardPermission) (enabled : Bool) (token : String)
    (board : Board) : (linkSharePatch permission enabled token board).id = board.id := by
  cases permission <;> rfl

@[simp] theorem rotatePatch_id (permission : BoardPermission) (token : String) (board : Board) :
    (rotatePatch permission token board).id = board.id := by
  cases permission <;> rfl

theorem Tables.Valid.ran {write : Write} {db' : Tables} (h : db.Valid rt)
    (hran : Ran rt db write db') : db'.Valid rt := by
  cases hran with
  | @createGoogleUser email googleId users accounts workspaces members huser haccount hworkspace =>
    have hwithUser := h.withUser huser
    have hwithAccount : ((db.withUser users).withAccount accounts).Valid rt :=
      { hwithUser with oauthAccounts := hwithUser.oauthAccounts.insert haccount }
    exact hwithAccount.workspaceInserted hworkspace
  | insertRefreshToken hinsert =>
    exact { h with refreshTokens := h.refreshTokens.insert hinsert }
  | createWorkspace hinserted => exact h.workspaceInserted hinserted
  | @renameWorkspace workspaceId name hholds =>
    -- the ids referred to are the same
    have hids : (Table.updateRows (·.id == workspaceId) (fun w => { w with name := name })
        db.workspaces).map (·.id) = db.workspaces.map (·.id) :=
      Table.map_updateRows (fun w : Workspace => w.id) fun _ => rfl
    have hle : EnvLe (db.env rt)
        (({ db with
          workspaces := Table.updateRows (·.id == workspaceId) (fun w => { w with name := name })
            db.workspaces } : Tables).env rt) := by
      refine ⟨fun _ h => h, fun _ h => h, fun v hv => ?_⟩
      show (List.map _ _).contains v = true
      rw [hids]
      exact hv
    exact { h.grow hle with workspaces := hholds }
  | deleteWorkspaceMember => exact { h with workspaceMembers := h.workspaceMembers.delete }
  | insertInvitation hinsert =>
    exact { h with workspaceInvitations := h.workspaceInvitations.insert hinsert }
  | acceptInvitation hpending hrows hmembers =>
    exact { h with
      workspaceInvitations := hrows.holds
      workspaceMembers := h.workspaceMembers.insertOrIgnore hmembers }
  | declineInvitation hrows => exact { h with workspaceInvitations := hrows.holds }
  | createBoard hinsert => exact h.insertBoard hinsert
  | renameBoard hupdated =>
    refine h.updateBoard ?_ hupdated
    exact fun _ => rfl
  | duplicateNothing hnone => exact h
  | duplicateBoard hsource hinsert => exact h.insertBoard hinsert
  | deleteBoard => exact h.eraseBoard
  | setBoardLinkShare hupdated => exact h.updateBoard (linkSharePatch_id _ _ _) hupdated
  | rotateBoardLinkShareToken hupdated => exact h.updateBoard (rotatePatch_id _ _) hupdated
  | addBoardFavorite hrows hupsert =>
    exact { h with
      boardFavorites := fun rows hrows' =>
        Option.some.inj hrows' ▸ (h.boardFavorites _ hrows).upsert hupsert }
  | removeBoardFavorite hrows =>
    exact { h with
      boardFavorites := fun rows hrows' =>
        Option.some.inj hrows' ▸ (h.boardFavorites _ hrows).delete }
  | upsertBoardMember hupsert => exact { h with boardMembers := h.boardMembers.upsert hupsert }
  | updateBoardMemberPermission hholds => exact { h with boardMembers := hholds }
  | deleteBoardMember => exact { h with boardMembers := h.boardMembers.delete }
  | leaveBoard => exact { h with boardMembers := h.boardMembers.delete }
  | insertBoardInvitation hinsert =>
    exact { h with boardInvitations := h.boardInvitations.insert hinsert }
  | acceptBoardInvitation hpending hrows hmembers =>
    exact { h with
      boardInvitations := hrows.holds
      boardMembers := h.boardMembers.upsert hmembers }
  | declineBoardInvitation hrows => exact { h with boardInvitations := hrows.holds }
  | revokeBoardInvitation hrows => exact { h with boardInvitations := hrows.holds }

/-! ### What the readers of the memberships rely on -/

theorem holds_toMember {Grant : Type} {c : Constraints (Member Grant)}
    {rows : List (MemberRow Grant)} (h : (memberRowConstraints c).Holds rows) :
    c.Holds (rows.map (·.toMember)) where
  check := fun m hm => by
    obtain ⟨r, hr, rfl⟩ := List.mem_map.mp hm
    exact h.check r hr
  unique := List.pairwise_map.mpr <| h.unique.imp fun {r r'} hclash => by
    simp only [memberRowConstraints, Bool.or_eq_false_iff] at hclash
    exact hclash.2
  references := fun m hm => by
    obtain ⟨r, hr, rfl⟩ := List.mem_map.mp hm
    exact h.references r hr

theorem Tables.Valid.access (h : db.Valid rt) : db.access.Valid (db.env rt) where
  boards := h.boards
  boardIds := rfl
  boardMembers := holds_toMember h.boardMembers
  workspaceMembers := holds_toMember h.workspaceMembers
  boardInvitations := h.boardInvitations
  workspaceInvitations := h.workspaceInvitations
  userIds := h.userIds

end writes

end Notebortt.Requests
