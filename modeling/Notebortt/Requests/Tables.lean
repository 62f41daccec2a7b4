import Notebortt.Access.BoardAccess
import Notebortt.Lib.RandomSource

/-! # The tables behind the HTTP requests

    Users with their accounts and refresh tokens, workspaces and boards with
    their members and invitations, and the favourites; and the statements and
    transactions that write them, as the services of users, workspaces and
    boards issue them. -/

open Table (Constraints)

namespace Notebortt.Requests

open Invitations Access

/-! ### Rows -/

structure OauthAccount where
  userId : String
  provider : String
  providerId : String
  email : String
deriving DecidableEq, Repr

/-- A row of `refresh_tokens`, without the hash, the family and the dates, which only the session
    routes read. -/
structure RefreshToken where
  id : String
  userId : String
deriving DecidableEq, Repr

structure Workspace where
  id : String
  name : String
  ownerId : String
deriving DecidableEq, Repr

/-- A row of `board_members` or of `workspace_members` with its primary key. -/
structure MemberRow (Grant : Type) extends Member Grant where
  id : String
deriving DecidableEq, Repr

/-- The string functions of the runtime, and the random row ids and tokens. -/
structure Runtime extends RandomSource where
  trim : String → String
  toLowerCase : String → String

/-- Addresses as they are, and the random values counted. -/
def Runtime.counting : Runtime := { RandomSource.counting with trim := id, toLowerCase := id }

/-- The rows of users and boards without the columns that are only handed on: names, pictures,
    previews and timestamps. -/
structure Tables where
  users : List User
  oauthAccounts : List OauthAccount
  refreshTokens : List RefreshToken
  workspaces : List Workspace
  workspaceMembers : List (MemberRow String)
  workspaceInvitations : List WorkspaceInvitation
  boards : List Board
  boardMembers : List (MemberRow BoardPermission)
  boardInvitations : List BoardInvitation
  /-- `none` while that relation is missing. -/
  boardFavorites : Option (List BoardFavorite)
  /-- How many random values are drawn. -/
  drawn : Nat

section views
variable (rt : Runtime) (db : Tables)

/-- What the invitations refer to. -/
def Tables.env : Env :=
  { users := db.users, boards := db.boards.map (·.id), workspaces := db.workspaces.map (·.id)
    trim := rt.trim, toLowerCase := rt.toLowerCase }

/-- What the readers of the memberships see. -/
def Tables.access : AccessDb :=
  { boardInvitations := db.boardInvitations, workspaceInvitations := db.workspaceInvitations
    boardMembers := db.boardMembers.map (·.toMember)
    workspaceMembers := db.workspaceMembers.map (·.toMember)
    boards := db.boards, boardFavorites := db.boardFavorites.getD [] }

/-- The next random value. -/
def Tables.next : String := rt.random db.drawn

end views

/-! ### Constraints -/

def userConstraints : Constraints User where
  check := fun _ => true
  clash := fun u u' => u.id == u'.id || u.email == u'.email
  references := fun _ => true
  clash_self := fun u => by simp
  clash_comm := fun u u' => by simp only [BEq.comm]

/-- `oauth_provider_id_idx` and the foreign key. -/
def oauthAccountConstraints (env : Env) : Constraints OauthAccount where
  check := fun _ => true
  clash := fun a a' => a.provider == a'.provider && a.providerId == a'.providerId
  references := fun a => env.hasUser a.userId
  clash_self := fun a => by simp
  clash_comm := fun a a' => by simp only [BEq.comm]

def refreshTokenConstraints (env : Env) : Constraints RefreshToken where
  check := fun _ => true
  clash := fun r r' => r.id == r'.id
  references := fun r => env.hasUser r.userId
  clash_self := fun r => by simp
  clash_comm := fun r r' => BEq.comm

def workspaceConstraints (env : Env) : Constraints Workspace where
  check := fun _ => true
  clash := fun w w' => w.id == w'.id
  references := fun w => env.hasUser w.ownerId
  clash_self := fun w => by simp
  clash_comm := fun w w' => BEq.comm

/-- The constraints of a member table, and its primary key. -/
def memberRowConstraints {Grant : Type} (c : Constraints (Member Grant)) :
    Constraints (MemberRow Grant) where
  check := fun r => c.check r.toMember
  clash := fun r r' => r.id == r'.id || c.clash r.toMember r'.toMember
  references := fun r => c.references r.toMember
  clash_self := fun r => by simp
  clash_comm := fun r r' => by rw [BEq.comm, c.clash_comm]

def boardFavoriteConstraints (env : Env) : Constraints BoardFavorite where
  check := fun _ => true
  clash := fun f f' => f.boardId == f'.boardId && f.userId == f'.userId
  references := fun f => env.boards.contains f.boardId && env.hasUser f.userId
  clash_self := fun f => by simp
  clash_comm := fun f f' => by simp only [BEq.comm]

/-! ### Errors -/

/-- What a service throws. -/
inductive RequestError where
  | thrown (e : InvitationError)
  /-- A query of a missing relation: its `cause` has the code `42P01`. -/
  | undefinedTable
deriving DecidableEq, Repr

def RequestError.code : RequestError → Option String
  | .thrown e => e.code
  | .undefinedTable => none

def RequestError.isUniqueViolation (e : RequestError) : Bool :=
  e.code == some POSTGRES_UNIQUE_VIOLATION

def POSTGRES_UNDEFINED_TABLE : String := "42P01"

def RequestError.isMissingRelationError (e : RequestError) : Bool :=
  e.code == some POSTGRES_UNDEFINED_TABLE

def ofDb {α : Type} : Except Table.DbError α → Except RequestError α
  | .ok a => .ok a
  | .error e => .error (.thrown (.db e))

def ofCall {α : Type} : Except InvitationError α → Except RequestError α
  | .ok a => .ok a
  | .error e => .error (.thrown e)

/-! ### Statements on one table -/

section statements
variable (rt : Runtime)

def insertUser (email : String) (db : Tables) : Except RequestError Tables :=
  (ofDb (Table.insert userConstraints { id := db.next rt, email := email } db.users)).map
    fun rows => { db with users := rows, drawn := db.drawn + 1 }

def insertOauthAccount (account : OauthAccount) (db : Tables) : Except RequestError Tables :=
  (ofDb (Table.insert (oauthAccountConstraints (db.env rt)) account db.oauthAccounts)).map
    fun rows => { db with oauthAccounts := rows }

def newRefreshToken (userId : String) (db : Tables) : RefreshToken :=
  { id := db.next rt, userId := userId }

def storeRefreshToken (userId : String) (db : Tables) : Except RequestError Tables :=
  (ofDb (Table.insert (refreshTokenConstraints (db.env rt)) (newRefreshToken rt userId db)
    db.refreshTokens)).map
    fun rows => { db with refreshTokens := rows, drawn := db.drawn + 1 }

def insertWorkspace (name ownerId : String) (db : Tables) : Except RequestError Tables :=
  (ofDb (Table.insert (workspaceConstraints (db.env rt))
    { id := db.next rt, name := name, ownerId := ownerId } db.workspaces)).map
    fun rows => { db with workspaces := rows, drawn := db.drawn + 1 }

def newWorkspaceMember (workspaceId userId role : String) (addedBy : Option String)
    (db : Tables) : MemberRow String :=
  { id := db.next rt, scopeId := workspaceId, userId := userId, grant := role
    addedBy := addedBy }

def insertOwner (workspaceId userId : String) (db : Tables) : Except RequestError Tables :=
  (ofDb (Table.insert (memberRowConstraints (workspaceMemberConstraints (db.env rt)))
    (newWorkspaceMember rt workspaceId userId "owner" none db) db.workspaceMembers)).map
    fun rows => { db with workspaceMembers := rows, drawn := db.drawn + 1 }

/-- `ON CONFLICT DO NOTHING`. -/
def joinWorkspace (invitation : WorkspaceInvitation) (userId : String) (db : Tables) :
    Except RequestError Tables :=
  (ofDb (Table.insertOrIgnore (memberRowConstraints (workspaceMemberConstraints (db.env rt)))
    (newWorkspaceMember rt invitation.scopeId userId invitation.grant.role
      (some invitation.invitedBy) db) db.workspaceMembers)).map
    fun rows => { db with workspaceMembers := rows, drawn := db.drawn + 1 }

def setWorkspaceInvitationStatus (cond : WorkspaceInvitation → Bool) (status : InvitationStatus)
    (db : Tables) : Except RequestError Tables :=
  (ofCall (setStatus (workspaceInvitationConstraints (db.env rt)) cond status
    db.workspaceInvitations)).map
    fun rows => { db with workspaceInvitations := rows }

def setBoardInvitationStatus (cond : BoardInvitation → Bool) (status : InvitationStatus)
    (db : Tables) : Except RequestError Tables :=
  (ofCall (setStatus (boardInvitationConstraints (db.env rt)) cond status
    db.boardInvitations)).map
    fun rows => { db with boardInvitations := rows }

/-- A new row of `boards`: no link is shared. -/
def newBoard (workspaceId name : String) (db : Tables) : Board :=
  { id := db.next rt, workspaceId := workspaceId, name := name
    linkShareViewEnabled := false, linkShareViewToken := none
    linkShareEditEnabled := false, linkShareEditToken := none }

def insertBoard (workspaceId name : String) (db : Tables) : Except RequestError Tables :=
  (ofDb (Table.insert (boardConstraints (db.env rt)) (newBoard rt workspaceId name db)
    db.boards)).map
    fun rows => { db with boards := rows, drawn := db.drawn + 1 }

def updateBoard (boardId : String) (set : Board → Board) (db : Tables) :
    Except RequestError Tables :=
  (ofDb (Table.update (boardConstraints (db.env rt)) (·.id == boardId) set db.boards)).map
    fun rows => { db with boards := rows }

/-- The row, and by `ON DELETE CASCADE` all that refers to it. -/
def eraseBoard (boardId : String) (db : Tables) : Tables :=
  { db with
    boards := Table.delete (·.id == boardId) db.boards
    boardMembers := Table.delete (·.scopeId == boardId) db.boardMembers
    boardInvitations := Table.delete (·.scopeId == boardId) db.boardInvitations
    boardFavorites := db.boardFavorites.map (Table.delete (·.boardId == boardId)) }

def newBoardMember (boardId userId : String) (permission : BoardPermission)
    (addedBy : Option String) (db : Tables) : MemberRow BoardPermission :=
  { id := db.next rt, scopeId := boardId, userId := userId, grant := permission
    addedBy := addedBy }

/-- `ON CONFLICT (board_id, user_id) DO UPDATE`. -/
def putBoardMember (row : MemberRow BoardPermission)
    (set : MemberRow BoardPermission → MemberRow BoardPermission) (db : Tables) :
    Except RequestError Tables :=
  (ofDb (Table.upsert (memberRowConstraints (boardMemberConstraints (db.env rt)))
    (fun m => m.scopeId == row.scopeId && m.userId == row.userId) set row db.boardMembers)).map
    fun rows => { db with boardMembers := rows, drawn := db.drawn + 1 }

def setBoardMemberPermission (boardId memberId : String) (permission : BoardPermission)
    (db : Tables) : Except RequestError Tables :=
  (ofDb (Table.update (memberRowConstraints (boardMemberConstraints (db.env rt)))
    (fun m => m.id == memberId && m.scopeId == boardId) (fun m => { m with grant := permission })
    db.boardMembers)).map
    fun rows => { db with boardMembers := rows }

/-- A missing relation refuses the statement. -/
def withFavorites (f : List BoardFavorite → Except RequestError (List BoardFavorite))
    (db : Tables) : Except RequestError Tables :=
  match db.boardFavorites with
  | none => .error .undefinedTable
  | some rows => (f rows).map fun rows => { db with boardFavorites := some rows }

def putFavorite (boardId userId : String) (now : Nat) (db : Tables) : Except RequestError Tables :=
  withFavorites
    (fun rows => ofDb (Table.upsert (boardFavoriteConstraints (db.env rt))
      (fun f => f.boardId == boardId && f.userId == userId)
      (fun f => { f with createdAt := some now })
      { boardId := boardId, userId := userId, createdAt := some now } rows)) db

def removeFavorite (boardId userId : String) (db : Tables) : Except RequestError Tables :=
  withFavorites
    (fun rows => .ok (Table.delete (fun f => f.boardId == boardId && f.userId == userId) rows)) db

end statements

/-! ### Writes -/

/-- The statements and the transactions that write. A transaction commits all of its statements or
    none, and nobody sees it in between. -/
inductive Write where
  /-- The transaction of `upsertGoogleUser`. -/
  | createGoogleUser (email googleId : String)
  | insertRefreshToken (userId : String)
  | createWorkspace (name ownerId : String)
  | renameWorkspace (workspaceId name : String)
  | deleteWorkspaceMember (memberId : String)
  | insertInvitation (workspaceId email role invitedBy : String) (now : Nat)
  /-- What the transaction of `acceptInvitation` writes for the row it has found. -/
  | acceptInvitation (invitation : WorkspaceInvitation) (userId : String) (now : Nat)
  | declineInvitation (inviteId : String)
  | createBoard (workspaceId name : String)
  | renameBoard (boardId name : String)
  | duplicateBoard (boardId : String)
  | deleteBoard (boardId : String)
  | setBoardLinkShare (boardId : String) (permission : BoardPermission) (enabled : Bool)
  | rotateBoardLinkShareToken (boardId : String) (permission : BoardPermission)
  | addBoardFavorite (boardId userId : String) (now : Nat)
  | removeBoardFavorite (boardId userId : String)
  | upsertBoardMember (boardId userId : String) (permission : BoardPermission) (addedBy : String)
  | updateBoardMemberPermission (boardId memberId : String) (permission : BoardPermission)
  | deleteBoardMember (boardId memberId : String)
  | leaveBoard (boardId userId : String)
  | insertBoardInvitation (boardId invitedBy email : String) (permission : BoardPermission)
      (now : Nat)
  /-- What the transaction of `acceptBoardInvitationByToken` writes for the row it has found. -/
  | acceptBoardInvitation (invitation : BoardInvitation) (userId : String) (now : Nat)
  | declineBoardInvitation (inviteId : String)
  | revokeBoardInvitation (boardId inviteId : String)
deriving DecidableEq

section writes
variable (rt : Runtime)

/-- The `patch` of `setBoardLinkShare`. -/
def linkSharePatch (permission : BoardPermission) (enabled : Bool) (token : String)
    (board : Board) : Board :=
  match permission with
  | .view =>
    { board with
      linkShareViewEnabled := enabled, linkShareViewToken := if enabled then some token else none }
  | .edit =>
    { board with
      linkShareEditEnabled := enabled, linkShareEditToken := if enabled then some token else none }

/-- The `patch` of `rotateBoardLinkShareToken`. -/
def rotatePatch (permission : BoardPermission) (token : String) (board : Board) : Board :=
  match permission with
  | .view => { board with linkShareViewToken := some token }
  | .edit => { board with linkShareEditToken := some token }

/-- A fresh pending invitation: a row id and a token are drawn for it. -/
def Tables.freshInvitation (db : Tables) (now : Nat) : Fresh :=
  { id := rt.random db.drawn, token := rt.random (db.drawn + 1), now := now }

def Write.run : Write → Tables → Except RequestError Tables
  | .createGoogleUser email googleId, db => do
    let withUser ← insertUser rt email db
    let withAccount ← insertOauthAccount rt
      { userId := db.next rt, provider := "google", providerId := googleId, email := email }
      withUser
    let withWorkspace ← insertWorkspace rt "Personal Workspace" (db.next rt) withAccount
    insertOwner rt (withAccount.next rt) (db.next rt) withWorkspace
  | .insertRefreshToken userId, db => storeRefreshToken rt userId db
  | .createWorkspace name ownerId, db => do
    let withWorkspace ← insertWorkspace rt name ownerId db
    insertOwner rt (db.next rt) ownerId withWorkspace
  | .renameWorkspace workspaceId name, db =>
    (ofDb (Table.update (workspaceConstraints (db.env rt)) (·.id == workspaceId)
      (fun w => { w with name := name }) db.workspaces)).map
      fun rows => { db with workspaces := rows }
  | .deleteWorkspaceMember memberId, db =>
    .ok { db with workspaceMembers := Table.delete (·.id == memberId) db.workspaceMembers }
  | .insertInvitation workspaceId email role invitedBy now, db =>
    (ofDb (Table.insert (workspaceInvitationConstraints (db.env rt))
      (newInvitation (db.env rt) workspaceId email role invitedBy (db.freshInvitation rt now))
      db.workspaceInvitations)).map
      fun rows => { db with workspaceInvitations := rows, drawn := db.drawn + 2 }
  | .acceptInvitation invitation userId now, db =>
    if db.workspaceInvitations.any (acceptable invitation.id now) then do
      let accepted ← setWorkspaceInvitationStatus rt (acceptable invitation.id now) .accepted db
      joinWorkspace rt invitation userId accepted
    else
      .error (.thrown (.workspaceInvitationError .expiredOrUsed
        "Invitation is expired or already used"))
  | .declineInvitation inviteId, db =>
    setWorkspaceInvitationStatus rt (stillPending inviteId) .declined db
  | .createBoard workspaceId name, db => insertBoard rt workspaceId name db
  | .renameBoard boardId name, db =>
    updateBoard rt boardId (fun board => { board with name := name }) db
  | .duplicateBoard boardId, db =>
    match db.boards.find? (·.id == boardId) with
    | none => .ok db
    | some source => insertBoard rt source.workspaceId (source.name ++ " (Copy)") db
  | .deleteBoard boardId, db => .ok (eraseBoard boardId db)
  | .setBoardLinkShare boardId permission enabled, db =>
    (updateBoard rt boardId (linkSharePatch permission enabled (db.next rt)) db).map
      fun db => { db with drawn := if enabled then db.drawn + 1 else db.drawn }
  | .rotateBoardLinkShareToken boardId permission, db =>
    (updateBoard rt boardId (rotatePatch permission (db.next rt)) db).map
      fun db => { db with drawn := db.drawn + 1 }
  | .addBoardFavorite boardId userId now, db => putFavorite rt boardId userId now db
  | .removeBoardFavorite boardId userId, db => removeFavorite boardId userId db
  | .upsertBoardMember boardId userId permission addedBy, db =>
    putBoardMember rt (newBoardMember rt boardId userId permission (some addedBy) db)
      (fun m => { m with grant := permission, addedBy := some addedBy }) db
  | .updateBoardMemberPermission boardId memberId permission, db =>
    setBoardMemberPermission rt boardId memberId permission db
  | .deleteBoardMember boardId memberId, db =>
    .ok { db with
      boardMembers :=
        Table.delete (fun m => m.id == memberId && m.scopeId == boardId) db.boardMembers }
  | .leaveBoard boardId userId, db =>
    .ok { db with
      boardMembers :=
        Table.delete (fun m => m.scopeId == boardId && m.userId == userId) db.boardMembers }
  | .insertBoardInvitation boardId invitedBy email permission now, db =>
    (ofDb (Table.insert (boardInvitationConstraints (db.env rt))
      (newBoardInvitation (db.env rt) boardId invitedBy email permission
        (db.freshInvitation rt now)) db.boardInvitations)).map
      fun rows => { db with boardInvitations := rows, drawn := db.drawn + 2 }
  | .acceptBoardInvitation invitation userId now, db =>
    if db.boardInvitations.any (acceptable invitation.id now) then do
      let accepted ← setBoardInvitationStatus rt (acceptable invitation.id now) .accepted db
      putBoardMember rt
        (newBoardMember rt invitation.scopeId userId invitation.grant
          (some invitation.invitedBy) accepted)
        (fun m => { m with grant := invitation.grant }) accepted
    else .error (.thrown (.error "Invitation expired or already used"))
  | .declineBoardInvitation inviteId, db =>
    setBoardInvitationStatus rt (stillPending inviteId) .revoked db
  | .revokeBoardInvitation boardId inviteId, db =>
    setBoardInvitationStatus rt (revocable boardId inviteId) .revoked db

/-- A refused write leaves everything as it is. -/
def Write.apply (write : Write) (db : Tables) : Tables :=
  match write.run rt db with
  | .ok db' => db'
  | .error _ => db

end writes

end Notebortt.Requests
