import Notebortt.Requests.Tables

/-! # What the writes of the requests do

    `Ran` gives for each write that is not refused the tables after it, with
    what the constraints have let through; all that follows about the writes is
    read off it. -/

open Table (Constraints)

namespace Notebortt.Requests

open Invitations Access

/-! ### Results of statements -/

section results
variable {α β : Type}

theorem ofDb_eq_ok_iff {x : Except Table.DbError α} {a : α} : ofDb x = .ok a ↔ x = .ok a := by
  cases x <;> simp [ofDb]

theorem ofCall_eq_ok_iff {x : Except InvitationError α} {a : α} :
    ofCall x = .ok a ↔ x = .ok a := by
  cases x <;> simp [ofCall]

theorem map_eq_ok_iff {x : Except RequestError α} {f : α → β} {b : β} :
    x.map f = .ok b ↔ ∃ a, x = .ok a ∧ f a = b := by
  cases x <;> simp [Except.map]

theorem bind_eq_ok_iff {x : Except RequestError α} {f : α → Except RequestError β} {b : β} :
    (x >>= f) = .ok b ↔ ∃ a, x = .ok a ∧ f a = .ok b := by
  cases x <;> simp [bind, Except.bind]

end results

/-! ### The tables after a write -/

section ran
variable (rt : Runtime) (db : Tables)

/-- The tables with a new user. -/
def Tables.withUser (users : List User) : Tables :=
  { db with users := users, drawn := db.drawn + 1 }

def Tables.withAccount (accounts : List OauthAccount) : Tables :=
  { db with oauthAccounts := accounts }

def Tables.withRefreshToken (refreshTokens : List RefreshToken) : Tables :=
  { db with refreshTokens := refreshTokens, drawn := db.drawn + 1 }

def Tables.withWorkspace (workspaces : List Workspace) : Tables :=
  { db with workspaces := workspaces, drawn := db.drawn + 1 }

def Tables.withWorkspaceMember (members : List (MemberRow String)) : Tables :=
  { db with workspaceMembers := members, drawn := db.drawn + 1 }

def Tables.withBoards (boards : List Board) (drawn : Nat) : Tables :=
  { db with boards := boards, drawn := drawn }

def Tables.withBoardMember (members : List (MemberRow BoardPermission)) : Tables :=
  { db with boardMembers := members, drawn := db.drawn + 1 }

def insertedUser (email : String) : User := { id := db.next rt, email := email }

def insertedWorkspace (name ownerId : String) : Workspace :=
  { id := db.next rt, name := name, ownerId := ownerId }

def googleAccount (userId email googleId : String) : OauthAccount :=
  { userId := userId, provider := "google", providerId := googleId, email := email }

/-- A workspace and the membership of its owner are inserted. -/
structure WorkspaceInserted (name ownerId : String) (workspaces : List Workspace)
    (members : List (MemberRow String)) : Prop where
  workspace : Table.insert (workspaceConstraints (db.env rt)) (insertedWorkspace rt db name ownerId)
    db.workspaces = .ok workspaces
  owner : Table.insert
    (memberRowConstraints (workspaceMemberConstraints ((db.withWorkspace workspaces).env rt)))
    (newWorkspaceMember rt (db.next rt) ownerId "owner" none (db.withWorkspace workspaces))
    db.workspaceMembers = .ok members

/-- A board row is replaced. -/
structure BoardUpdated (boardId : String) (set : Board → Board) (boards : List Board) : Prop where
  holds : (boardConstraints (db.env rt)).Holds boards
  rows : boards = Table.updateRows (·.id == boardId) set db.boards

/-- Some invitations take another status. -/
structure StatusSet {Grant : Type} (c : Constraints (Invitation Grant))
    (cond : Invitation Grant → Bool) (status : InvitationStatus)
    (before after : List (Invitation Grant)) : Prop where
  holds : c.Holds after
  rows : after = Table.updateRows cond (fun i => { i with status := status }) before

def memberKey (boardId userId : String) (m : MemberRow BoardPermission) : Bool :=
  m.scopeId == boardId && m.userId == userId

def favoriteKey (boardId userId : String) (f : BoardFavorite) : Bool :=
  f.boardId == boardId && f.userId == userId

inductive Ran : Write → Tables → Prop where
  | createGoogleUser {email googleId : String} {users accounts workspaces members}
      (huser : Table.insert userConstraints (insertedUser rt db email) db.users = .ok users)
      (haccount : Table.insert (oauthAccountConstraints ((db.withUser users).env rt))
        (googleAccount (db.next rt) email googleId) db.oauthAccounts = .ok accounts)
      (hworkspace : WorkspaceInserted rt ((db.withUser users).withAccount accounts)
        "Personal Workspace" (db.next rt) workspaces members) :
      Ran (.createGoogleUser email googleId)
        ((((db.withUser users).withAccount accounts).withWorkspace workspaces).withWorkspaceMember
          members)
  | insertRefreshToken {userId : String} {refreshTokens}
      (h : Table.insert (refreshTokenConstraints (db.env rt)) (newRefreshToken rt userId db)
        db.refreshTokens = .ok refreshTokens) :
      Ran (.insertRefreshToken userId) (db.withRefreshToken refreshTokens)
  | createWorkspace {name ownerId : String} {workspaces members}
      (h : WorkspaceInserted rt db name ownerId workspaces members) :
      Ran (.createWorkspace name ownerId)
        ((db.withWorkspace workspaces).withWorkspaceMember members)
  | renameWorkspace {workspaceId name : String}
      (h : (workspaceConstraints (db.env rt)).Holds
        (Table.updateRows (·.id == workspaceId) (fun w => { w with name := name })
          db.workspaces)) :
      Ran (.renameWorkspace workspaceId name)
        { db with
          workspaces := Table.updateRows (·.id == workspaceId) (fun w => { w with name := name })
            db.workspaces }
  | deleteWorkspaceMember {memberId : String} :
      Ran (.deleteWorkspaceMember memberId)
        { db with workspaceMembers := Table.delete (·.id == memberId) db.workspaceMembers }
  | insertInvitation {workspaceId email role invitedBy : String} {now : Nat} {rows}
      (h : Table.insert (workspaceInvitationConstraints (db.env rt))
        (newInvitation (db.env rt) workspaceId email role invitedBy (db.freshInvitation rt now))
        db.workspaceInvitations = .ok rows) :
      Ran (.insertInvitation workspaceId email role invitedBy now)
        { db with workspaceInvitations := rows, drawn := db.drawn + 2 }
  | acceptInvitation {invitation : WorkspaceInvitation} {userId : String} {now : Nat} {rows members}
      (hpending : db.workspaceInvitations.any (acceptable invitation.id now) = true)
      (hrows : StatusSet (workspaceInvitationConstraints (db.env rt))
        (acceptable invitation.id now) .accepted db.workspaceInvitations rows)
      (hmembers : Table.insertOrIgnore
        (memberRowConstraints (workspaceMemberConstraints (db.env rt)))
        (newWorkspaceMember rt invitation.scopeId userId invitation.grant.role
          (some invitation.invitedBy) db) db.workspaceMembers = .ok members) :
      Ran (.acceptInvitation invitation userId now)
        (({ db with workspaceInvitations := rows } : Tables).withWorkspaceMember members)
  | declineInvitation {inviteId : String} {rows}
      (h : StatusSet (workspaceInvitationConstraints (db.env rt)) (stillPending inviteId) .declined
        db.workspaceInvitations rows) :
      Ran (.declineInvitation inviteId) { db with workspaceInvitations := rows }
  | createBoard {workspaceId name : String} {boards}
      (h : Table.insert (boardConstraints (db.env rt)) (newBoard rt workspaceId name db) db.boards =
        .ok boards) :
      Ran (.createBoard workspaceId name) (db.withBoards boards (db.drawn + 1))
  | renameBoard {boardId name : String} {boards}
      (h : BoardUpdated rt db boardId (fun board => { board with name := name }) boards) :
      Ran (.renameBoard boardId name) (db.withBoards boards db.drawn)
  | duplicateNothing {boardId : String} (h : db.boards.find? (·.id == boardId) = none) :
      Ran (.duplicateBoard boardId) db
  | duplicateBoard {boardId : String} {source : Board} {boards}
      (hsource : db.boards.find? (·.id == boardId) = some source)
      (h : Table.insert (boardConstraints (db.env rt))
        (newBoard rt source.workspaceId (source.name ++ " (Copy)") db) db.boards = .ok boards) :
      Ran (.duplicateBoard boardId) (db.withBoards boards (db.drawn + 1))
  | deleteBoard {boardId : String} : Ran (.deleteBoard boardId) (eraseBoard boardId db)
  | setBoardLinkShare {boardId : String} {permission : BoardPermission} {enabled : Bool} {boards}
      (h : BoardUpdated rt db boardId (linkSharePatch permission enabled (db.next rt)) boards) :
      Ran (.setBoardLinkShare boardId permission enabled)
        (db.withBoards boards (if enabled then db.drawn + 1 else db.drawn))
  | rotateBoardLinkShareToken {boardId : String} {permission : BoardPermission} {boards}
      (h : BoardUpdated rt db boardId (rotatePatch permission (db.next rt)) boards) :
      Ran (.rotateBoardLinkShareToken boardId permission) (db.withBoards boards (db.drawn + 1))
  | addBoardFavorite {boardId userId : String} {now : Nat} {rows rows'}
      (hrows : db.boardFavorites = some rows)
      (h : Table.upsert (boardFavoriteConstraints (db.env rt)) (favoriteKey boardId userId)
        (fun f => { f with createdAt := some now })
        { boardId := boardId, userId := userId, createdAt := some now } rows = .ok rows') :
      Ran (.addBoardFavorite boardId userId now) { db with boardFavorites := some rows' }
  | removeBoardFavorite {boardId userId : String} {rows}
      (hrows : db.boardFavorites = some rows) :
      Ran (.removeBoardFavorite boardId userId)
        { db with boardFavorites := some (Table.delete (favoriteKey boardId userId) rows) }
  | upsertBoardMember {boardId userId : String} {permission : BoardPermission} {addedBy : String}
      {members}
      (h : Table.upsert (memberRowConstraints (boardMemberConstraints (db.env rt)))
        (memberKey boardId userId)
        (fun m => { m with grant := permission, addedBy := some addedBy })
        (newBoardMember rt boardId userId permission (some addedBy) db) db.boardMembers =
          .ok members) :
      Ran (.upsertBoardMember boardId userId permission addedBy) (db.withBoardMember members)
  | updateBoardMemberPermission {boardId memberId : String} {permission : BoardPermission}
      (h : (memberRowConstraints (boardMemberConstraints (db.env rt))).Holds
        (Table.updateRows (fun m => m.id == memberId && m.scopeId == boardId)
          (fun m => { m with grant := permission }) db.boardMembers)) :
      Ran (.updateBoardMemberPermission boardId memberId permission)
        { db with
          boardMembers := Table.updateRows (fun m => m.id == memberId && m.scopeId == boardId)
            (fun m => { m with grant := permission }) db.boardMembers }
  | deleteBoardMember {boardId memberId : String} :
      Ran (.deleteBoardMember boardId memberId)
        { db with
          boardMembers :=
            Table.delete (fun m => m.id == memberId && m.scopeId == boardId) db.boardMembers }
  | leaveBoard {boardId userId : String} :
      Ran (.leaveBoard boardId userId)
        { db with boardMembers := Table.delete (memberKey boardId userId) db.boardMembers }
  | insertBoardInvitation {boardId invitedBy email : String} {permission : BoardPermission}
      {now : Nat} {rows}
      (h : Table.insert (boardInvitationConstraints (db.env rt))
        (newBoardInvitation (db.env rt) boardId invitedBy email permission
          (db.freshInvitation rt now)) db.boardInvitations = .ok rows) :
      Ran (.insertBoardInvitation boardId invitedBy email permission now)
        { db with boardInvitations := rows, drawn := db.drawn + 2 }
  | acceptBoardInvitation {invitation : BoardInvitation} {userId : String} {now : Nat}
      {rows members}
      (hpending : db.boardInvitations.any (acceptable invitation.id now) = true)
      (hrows : StatusSet (boardInvitationConstraints (db.env rt)) (acceptable invitation.id now)
        .accepted db.boardInvitations rows)
      (hmembers : Table.upsert (memberRowConstraints (boardMemberConstraints (db.env rt)))
        (memberKey invitation.scopeId userId)
        (fun m => { m with grant := invitation.grant })
        (newBoardMember rt invitation.scopeId userId invitation.grant
          (some invitation.invitedBy) db) db.boardMembers = .ok members) :
      Ran (.acceptBoardInvitation invitation userId now)
        (({ db with boardInvitations := rows } : Tables).withBoardMember members)
  | declineBoardInvitation {inviteId : String} {rows}
      (h : StatusSet (boardInvitationConstraints (db.env rt)) (stillPending inviteId) .revoked
        db.boardInvitations rows) :
      Ran (.declineBoardInvitation inviteId) { db with boardInvitations := rows }
  | revokeBoardInvitation {boardId inviteId : String} {rows}
      (h : StatusSet (boardInvitationConstraints (db.env rt)) (revocable boardId inviteId) .revoked
        db.boardInvitations rows) :
      Ran (.revokeBoardInvitation boardId inviteId) { db with boardInvitations := rows }

end ran

section inversion
variable {rt : Runtime} {db db' : Tables}

theorem insertWorkspace_eq_ok {name ownerId : String}
    (h : insertWorkspace rt name ownerId db = .ok db') :
    ∃ workspaces, Table.insert (workspaceConstraints (db.env rt))
      (insertedWorkspace rt db name ownerId) db.workspaces = .ok workspaces ∧
        db' = db.withWorkspace workspaces := by
  obtain ⟨workspaces, hrows, rfl⟩ := map_eq_ok_iff.mp h
  exact ⟨workspaces, ofDb_eq_ok_iff.mp hrows, rfl⟩

theorem insertOwner_eq_ok {workspaceId userId : String}
    (h : insertOwner rt workspaceId userId db = .ok db') :
    ∃ members, Table.insert (memberRowConstraints (workspaceMemberConstraints (db.env rt)))
      (newWorkspaceMember rt workspaceId userId "owner" none db) db.workspaceMembers =
        .ok members ∧ db' = db.withWorkspaceMember members := by
  obtain ⟨members, hrows, rfl⟩ := map_eq_ok_iff.mp h
  exact ⟨members, ofDb_eq_ok_iff.mp hrows, rfl⟩

theorem insertBoard_eq_ok {workspaceId name : String}
    (h : insertBoard rt workspaceId name db = .ok db') :
    ∃ boards, Table.insert (boardConstraints (db.env rt)) (newBoard rt workspaceId name db)
      db.boards = .ok boards ∧ db' = db.withBoards boards (db.drawn + 1) := by
  obtain ⟨boards, hrows, rfl⟩ := map_eq_ok_iff.mp h
  exact ⟨boards, ofDb_eq_ok_iff.mp hrows, rfl⟩

theorem updateBoard_eq_ok {boardId : String} {set : Board → Board}
    (h : updateBoard rt boardId set db = .ok db') :
    ∃ boards, BoardUpdated rt db boardId set boards ∧ db' = db.withBoards boards db.drawn := by
  obtain ⟨boards, hrows, rfl⟩ := map_eq_ok_iff.mp h
  obtain ⟨hholds, rfl⟩ := Table.update_eq_ok_iff.mp (ofDb_eq_ok_iff.mp hrows)
  exact ⟨_, ⟨hholds, rfl⟩, rfl⟩

theorem statusSet_of_setStatus {Grant : Type} {c : Constraints (Invitation Grant)}
    {cond : Invitation Grant → Bool} {status : InvitationStatus}
    {before after : List (Invitation Grant)}
    (h : ofCall (setStatus c cond status before) = .ok after) :
    StatusSet c cond status before after := by
  have hset := ofCall_eq_ok_iff.mp h
  rw [setStatus] at hset
  cases hupdate : Table.update c cond (fun i => { i with status := status }) before with
  | error e =>
    rw [hupdate] at hset
    cases hset
  | ok rows =>
    rw [hupdate] at hset
    obtain rfl := Except.ok.inj hset
    obtain ⟨hholds, hrows⟩ := Table.update_eq_ok_iff.mp hupdate
    exact ⟨hrows ▸ hholds, hrows⟩

theorem putBoardMember_eq_ok {row : MemberRow BoardPermission}
    {set : MemberRow BoardPermission → MemberRow BoardPermission}
    (h : putBoardMember rt row set db = .ok db') :
    ∃ members, Table.upsert (memberRowConstraints (boardMemberConstraints (db.env rt)))
      (memberKey row.scopeId row.userId) set row db.boardMembers = .ok members ∧
        db' = db.withBoardMember members := by
  obtain ⟨members, hrows, rfl⟩ := map_eq_ok_iff.mp h
  exact ⟨members, ofDb_eq_ok_iff.mp hrows, rfl⟩

theorem withFavorites_eq_ok {f : List BoardFavorite → Except RequestError (List BoardFavorite)}
    (h : withFavorites f db = .ok db') :
    ∃ rows rows', db.boardFavorites = some rows ∧ f rows = .ok rows' ∧
      db' = { db with boardFavorites := some rows' } := by
  rw [withFavorites] at h
  cases hrows : db.boardFavorites with
  | none =>
    rw [hrows] at h
    cases h
  | some rows =>
    rw [hrows] at h
    obtain ⟨rows', hf, rfl⟩ := map_eq_ok_iff.mp h
    exact ⟨rows, rows', rfl, hf, rfl⟩

/-- A write that is not refused does what `Ran` says. -/
theorem ran_of_run {write : Write} (h : write.run rt db = .ok db') : Ran rt db write db' := by
  cases write with
  | createGoogleUser email googleId =>
    simp only [Write.run, bind_eq_ok_iff] at h
    obtain ⟨_, huser, _, haccount, _, hworkspace, howner⟩ := h
    obtain ⟨users, husers, rfl⟩ := map_eq_ok_iff.mp huser
    obtain ⟨accounts, haccounts, rfl⟩ := map_eq_ok_iff.mp haccount
    obtain ⟨workspaces, hworkspaces, rfl⟩ := insertWorkspace_eq_ok hworkspace
    obtain ⟨members, hmembers, rfl⟩ := insertOwner_eq_ok howner
    exact .createGoogleUser (ofDb_eq_ok_iff.mp husers) (ofDb_eq_ok_iff.mp haccounts)
      ⟨hworkspaces, hmembers⟩
  | insertRefreshToken userId =>
    obtain ⟨_, hrows, rfl⟩ := map_eq_ok_iff.mp h
    exact .insertRefreshToken (ofDb_eq_ok_iff.mp hrows)
  | createWorkspace name ownerId =>
    simp only [Write.run, bind_eq_ok_iff] at h
    obtain ⟨_, hworkspace, howner⟩ := h
    obtain ⟨workspaces, hworkspaces, rfl⟩ := insertWorkspace_eq_ok hworkspace
    obtain ⟨members, hmembers, rfl⟩ := insertOwner_eq_ok howner
    exact .createWorkspace ⟨hworkspaces, hmembers⟩
  | renameWorkspace workspaceId name =>
    obtain ⟨_, hrows, rfl⟩ := map_eq_ok_iff.mp h
    obtain ⟨hholds, rfl⟩ := Table.update_eq_ok_iff.mp (ofDb_eq_ok_iff.mp hrows)
    exact .renameWorkspace hholds
  | deleteWorkspaceMember memberId =>
    obtain rfl := Except.ok.inj h
    exact .deleteWorkspaceMember
  | insertInvitation workspaceId email role invitedBy now =>
    obtain ⟨_, hrows, rfl⟩ := map_eq_ok_iff.mp h
    exact .insertInvitation (ofDb_eq_ok_iff.mp hrows)
  | acceptInvitation invitation userId now =>
    rw [Write.run] at h
    split at h
    · next hpending =>
      obtain ⟨_, hset, hjoin⟩ := bind_eq_ok_iff.mp h
      obtain ⟨rows, hrows, rfl⟩ := map_eq_ok_iff.mp hset
      obtain ⟨members, hmembers, rfl⟩ := map_eq_ok_iff.mp hjoin
      exact .acceptInvitation hpending (statusSet_of_setStatus hrows) (ofDb_eq_ok_iff.mp hmembers)
    · cases h
  | declineInvitation inviteId =>
    obtain ⟨rows, hrows, rfl⟩ := map_eq_ok_iff.mp h
    exact .declineInvitation (statusSet_of_setStatus hrows)
  | createBoard workspaceId name =>
    obtain ⟨boards, hboards, rfl⟩ := insertBoard_eq_ok h
    exact .createBoard hboards
  | renameBoard boardId name =>
    obtain ⟨boards, hboards, rfl⟩ := updateBoard_eq_ok h
    exact .renameBoard hboards
  | duplicateBoard boardId =>
    rw [Write.run] at h
    split at h
    · next hnone =>
      obtain rfl := Except.ok.inj h
      exact .duplicateNothing hnone
    · next source hsource =>
      obtain ⟨boards, hboards, rfl⟩ := insertBoard_eq_ok h
      exact .duplicateBoard hsource hboards
  | deleteBoard boardId =>
    obtain rfl := Except.ok.inj h
    exact .deleteBoard
  | setBoardLinkShare boardId permission enabled =>
    obtain ⟨_, hupdate, rfl⟩ := map_eq_ok_iff.mp h
    obtain ⟨boards, hboards, rfl⟩ := updateBoard_eq_ok hupdate
    exact .setBoardLinkShare hboards
  | rotateBoardLinkShareToken boardId permission =>
    obtain ⟨_, hupdate, rfl⟩ := map_eq_ok_iff.mp h
    obtain ⟨boards, hboards, rfl⟩ := updateBoard_eq_ok hupdate
    exact .rotateBoardLinkShareToken hboards
  | addBoardFavorite boardId userId now =>
    obtain ⟨rows, rows', hrows, hupsert, rfl⟩ := withFavorites_eq_ok h
    exact .addBoardFavorite hrows (ofDb_eq_ok_iff.mp hupsert)
  | removeBoardFavorite boardId userId =>
    obtain ⟨rows, rows', hrows, hdelete, rfl⟩ := withFavorites_eq_ok h
    obtain rfl := Except.ok.inj hdelete
    exact .removeBoardFavorite hrows
  | upsertBoardMember boardId userId permission addedBy =>
    obtain ⟨members, hmembers, rfl⟩ := putBoardMember_eq_ok h
    exact .upsertBoardMember hmembers
  | updateBoardMemberPermission boardId memberId permission =>
    obtain ⟨_, hrows, rfl⟩ := map_eq_ok_iff.mp h
    obtain ⟨hholds, rfl⟩ := Table.update_eq_ok_iff.mp (ofDb_eq_ok_iff.mp hrows)
    exact .updateBoardMemberPermission hholds
  | deleteBoardMember boardId memberId =>
    obtain rfl := Except.ok.inj h
    exact .deleteBoardMember
  | leaveBoard boardId userId =>
    obtain rfl := Except.ok.inj h
    exact .leaveBoard
  | insertBoardInvitation boardId invitedBy email permission now =>
    obtain ⟨_, hrows, rfl⟩ := map_eq_ok_iff.mp h
    exact .insertBoardInvitation (ofDb_eq_ok_iff.mp hrows)
  | acceptBoardInvitation invitation userId now =>
    rw [Write.run] at h
    split at h
    · next hpending =>
      obtain ⟨_, hset, hjoin⟩ := bind_eq_ok_iff.mp h
      obtain ⟨rows, hrows, rfl⟩ := map_eq_ok_iff.mp hset
      obtain ⟨members, hmembers, rfl⟩ := putBoardMember_eq_ok hjoin
      exact .acceptBoardInvitation hpending (statusSet_of_setStatus hrows) hmembers
    · cases h
  | declineBoardInvitation inviteId =>
    obtain ⟨rows, hrows, rfl⟩ := map_eq_ok_iff.mp h
    exact .declineBoardInvitation (statusSet_of_setStatus hrows)
  | revokeBoardInvitation boardId inviteId =>
    obtain ⟨rows, hrows, rfl⟩ := map_eq_ok_iff.mp h
    exact .revokeBoardInvitation (statusSet_of_setStatus hrows)

/-- What holds of the tables, and after each write that is not refused, holds after the write. -/
theorem apply_induction {P : Tables → Prop} {write : Write} (h : P db)
    (hran : ∀ db', Ran rt db write db' → P db') : P (write.apply rt db) := by
  rw [Write.apply]
  split
  · next db' hrun => exact hran db' (ran_of_run hrun)
  · exact h

end inversion

end Notebortt.Requests
