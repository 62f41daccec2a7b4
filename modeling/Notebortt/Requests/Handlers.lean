import Notebortt.Lib.Interleaving
import Notebortt.Requests.Tables

/-! # The HTTP requests

    The services of users, workspaces and boards and the handlers of their
    routes as programs: each query, each statement and each transaction is one
    statement of the program, between two of which the other requests go on.
    A request carries its path parameters and its body as the schemas give
    them. -/

open Transition
open Interleaving (Program)

namespace Notebortt.Requests

open Invitations Access

abbrev Service (α : Type) := Program Tables Write RequestError α

/-! ### Responses -/

inductive Body where
  | empty
  | error (message : String)
  | workspace (workspace : Workspace)
  | workspaceInvitation (invitation : WorkspaceInvitation)
  | board (board : Board)
  | boardWithFavorite (board : Board) (favoriteCreatedAt : Option Nat)
      (permission : Option BoardPermission)
  | linkShare (enabled : Bool) (permission : BoardPermission) (token : Option String)
  | share (boardId : String) (permission : BoardPermission)
  | boardMember (member : MemberRow BoardPermission)
  | boardInvitation (inviteId token : String)
  /-- The user whose session begins. -/
  | session (user : User)
deriving DecidableEq

structure Response where
  status : Nat
  body : Body
deriving DecidableEq

def sendForbidden : Response := ⟨403, .error "Forbidden"⟩

def sendNotFound (error : String) : Response := ⟨404, .error error⟩

def sendStatus (status : Nat) : Response := ⟨status, .empty⟩

/-- `errorHandler`: none of the errors thrown carries a status. -/
def internalError : Response := ⟨500, .error "Internal server error"⟩

/-- The answer of the callback route to any error. -/
def authenticationFailed : Response := ⟨500, .error "Authentication failed"⟩

/-- `error.message`: the texts of the database driver are left out. -/
def RequestError.message : RequestError → String
  | .thrown (.error message) => message
  | .thrown (.workspaceInvitationError _ message) => message
  | .thrown (.db _) => "database error"
  | .undefinedTable => "database error"

/-! ### Services -/

section services
variable (rt : Runtime)

/-- A write, with what it answers from the tables before and after it. -/
def execute {α : Type} (write : Write) (answer : Tables → Tables → α) : Service α :=
  .perform write fun db => (write.run rt db).map (answer db)

def getBoard (boardId : String) : Service (Option Board) :=
  .read fun db => Access.getBoard db.access boardId

def getWorkspaceMemberRole (workspaceId userId : String) : Service (Option String) :=
  .read fun db => (memberOf db.access.workspaceMembers workspaceId userId).map (·.grant)

def getWorkspaceRoleForBoard (boardId userId : String) : Service (Option String) := do
  match ← getBoard boardId with
  | none => return none
  | some board => getWorkspaceMemberRole board.workspaceId userId

/-- The queries of `checkBoardAccess`: the board, the direct permission, and without it the role in
    the workspace. -/
def requireBoardAccess (boardId : String) (userId shareToken : Option String) :
    Service BoardAccess := do
  match ← getBoard boardId with
  | none => return noAccess
  | some board =>
    if given shareToken && board.linkShareViewEnabled && board.linkShareViewToken == shareToken then
      return granted .view
    else if given shareToken && board.linkShareEditEnabled
        && board.linkShareEditToken == shareToken then
      return granted .edit
    else
      match userId with
      | none => return noAccess
      | some userId =>
        if userId = "" then return noAccess
        else
          match ← (.read fun db => getBoardMemberPermission db.access boardId userId) with
          | some directPermission => return granted directPermission
          | none =>
            match ← (.read fun db =>
                getWorkspaceBoardMembershipPermission db.access board.workspaceId userId) with
            | some workspacePermission => return granted workspacePermission
            | none => return noAccess

def favoriteCreatedAt (db : Tables) (boardId userId : String) : Except RequestError (Option Nat) :=
  match db.boardFavorites with
  | none => .error .undefinedTable
  | some rows =>
    .ok ((rows.find? fun f => f.boardId == boardId && f.userId == userId).bind (·.createdAt))

def getBoardFavoriteCreatedAt (boardId userId : String) : Service (Option Nat) :=
  .statement none fun db => .ofExcept (favoriteCreatedAt db boardId userId)

/-- `getBoard` for a user: `isFavorite` says that the date is not null. -/
def getBoardWithFavorite (boardId : String) (userId : Option String) :
    Service (Option (Board × Option Nat)) := do
  match ← getBoard boardId with
  | none => return none
  | some board =>
    match userId with
    | none => return some (board, none)
    | some userId =>
      if userId = "" then return some (board, none)
      else return some (board, ← getBoardFavoriteCreatedAt boardId userId)

def viewShared (db : Tables) (token : String) : Option Board :=
  db.boards.find? fun b => b.linkShareViewToken == some token && b.linkShareViewEnabled

def editShared (db : Tables) (token : String) : Option Board :=
  db.boards.find? fun b => b.linkShareEditToken == some token && b.linkShareEditEnabled

def shareOf : Option Board → Option Board → Option (String × BoardPermission)
  | some board, _ => some (board.id, .view)
  | none, some board => some (board.id, .edit)
  | none, none => none

/-- The two queries are in flight at once: either may run first. -/
def getShareByToken (token : String) (editFirst : Bool) :
    Service (Option (String × BoardPermission)) :=
  if editFirst then do
    let editMatch ← .read fun db => editShared db token
    let viewMatch ← .read fun db => viewShared db token
    return shareOf viewMatch editMatch
  else do
    let viewMatch ← .read fun db => viewShared db token
    let editMatch ← .read fun db => editShared db token
    return shareOf viewMatch editMatch

def createBoardInvitation (boardId invitedBy email : String) (permission : BoardPermission)
    (now : Nat) : Service (String × String) := do
  let pending : Service (Option BoardInvitation) :=
    .read fun db => getPending db.boardInvitations boardId ((db.env rt).normalizeEmail email)
  match ← pending with
  | some existingPending => return (existingPending.id, existingPending.token)
  | none =>
    (execute rt (.insertBoardInvitation boardId invitedBy email permission now) fun db _ =>
      ((db.freshInvitation rt now).id, (db.freshInvitation rt now).token)).orElse fun error =>
        if error.isUniqueViolation then do
          match ← pending with
          | some pendingInvitation => return (pendingInvitation.id, pendingInvitation.token)
          | none => .fail error
        else .fail error

def getUserEmail (userId : String) : Service String :=
  .statement none fun db => .ofExcept (ofCall (Invitations.getUserEmail (db.env rt) userId))

def acceptBoardInvitationByToken (token userId : String) (now : Nat) : Service Unit := do
  let email ← getUserEmail rt userId
  match ← (.read fun db =>
      findByToken db.boardInvitations token ((db.env rt).normalizeEmail email)) with
  | none => .fail (.thrown (.error "Invitation not found"))
  | some invitation => execute rt (.acceptBoardInvitation invitation userId now) fun _ _ => ()

def declinePendingInvitationByToken (token userId : String) : Service Unit := do
  let email ← getUserEmail rt userId
  match ← (.read fun db =>
      findPendingByToken db.boardInvitations token ((db.env rt).normalizeEmail email)) with
  | some boardInvitation =>
    execute rt (.declineBoardInvitation boardInvitation.id) fun _ _ => ()
  | none =>
    match ← (.read fun db =>
        findPendingByToken db.workspaceInvitations token ((db.env rt).normalizeEmail email)) with
    | none => .fail (.thrown (.error "Invitation not found"))
    | some workspaceInvitation =>
      execute rt (.declineInvitation workspaceInvitation.id) fun _ _ => ()

def createInvitation (workspaceId email role invitedBy : String) (now : Nat) :
    Service WorkspaceInvitation := do
  let pending : Service (Option WorkspaceInvitation) :=
    .read fun db =>
      getPending db.workspaceInvitations workspaceId ((db.env rt).normalizeEmail email)
  match ← pending with
  | some existingPending => return existingPending
  | none =>
    (execute rt (.insertInvitation workspaceId email role invitedBy now) fun db _ =>
      newInvitation (db.env rt) workspaceId email role invitedBy
        (db.freshInvitation rt now)).orElse fun error =>
        if error.isUniqueViolation then do
          match ← pending with
          | some pendingInvitation => return pendingInvitation
          | none => .fail error
        else .fail error

def acceptInvitation (token userId : String) (now : Nat) : Service (Option Workspace) := do
  let email ← (getUserEmail rt userId).orElse fun _ =>
    .fail (.thrown (.workspaceInvitationError .userNotFound "User not found"))
  match ← (.read fun db => db.workspaceInvitations.find? fun i => i.token == token) with
  | none => .fail (.thrown (.workspaceInvitationError .notFound "Invitation not found"))
  | some invitation =>
    if invitation.emailLower ≠ rt.toLowerCase (rt.trim email) then
      .fail (.thrown (.workspaceInvitationError .wrongUser
        "Invitation email does not match current user"))
    else
      execute rt (.acceptInvitation invitation userId now) fun _ db =>
        db.workspaces.find? (·.id == invitation.scopeId)

/-- Whether the member was removed. -/
def deleteWorkspaceMember (workspaceId memberId : String) : Service Bool := do
  match ← (.read fun db =>
      db.workspaceMembers.find? fun m => m.scopeId == workspaceId && m.id == memberId) with
  | none => return false
  | some member =>
    if member.grant = "owner" then return false
    else execute rt (.deleteWorkspaceMember memberId) fun _ _ => true

/-- The user logged in. -/
def upsertGoogleUser (email googleId : String) : Service (Option User) := do
  match ← (.read fun db => db.oauthAccounts.find? fun a =>
      a.provider == "google" && a.providerId == googleId) with
  | some account => .read fun db => db.users.find? (·.id == account.userId)
  | none =>
    execute rt (.createGoogleUser email googleId) fun db _ =>
      some { id := db.next rt, email := email }

/-- `setBoardFavorite`, which answers the board. -/
def setBoardFavorite (boardId userId : String) (isFavorite : Bool) (now : Nat) :
    Service (Option (Board × Option Nat)) := do
  let access ← requireBoardAccess boardId (some userId) none
  if !access.hasAccess then return none
  else
    let written ← ((if isFavorite then
        execute rt (.addBoardFavorite boardId userId now) fun _ _ => true
      else execute rt (.removeBoardFavorite boardId userId) fun _ _ => true).orElse fun error =>
        if error.isMissingRelationError then .done false else .fail error)
    if written then getBoardWithFavorite boardId (some userId) else return none

end services

/-! ### Requests -/

def canCreateBoards (role : Option String) : Bool :=
  role == some "owner" || role == some "admin" || role == some "editor"

def canManageBoardAccess (role : Option String) : Bool :=
  role == some "owner" || role == some "admin"

def canDeleteBoards (role : Option String) : Bool :=
  role == some "owner" || role == some "admin"

/-- `isOwnerOrAdmin` of the workspace routes. -/
def isOwnerOrAdmin (role : Option String) : Bool :=
  role == some "owner" || role == some "admin"

/-- The roles of `createWorkspaceInvitationBodySchema`. -/
inductive InvitedRole where
  | admin
  | editor
  | viewer
deriving DecidableEq, Repr

def InvitedRole.text : InvitedRole → String
  | .admin => "admin"
  | .editor => "editor"
  | .viewer => "viewer"

/-- What a user who is logged in requests. -/
inductive Action where
  | postWorkspace (name : String)
  | patchWorkspace (wid name : String)
  | deleteWorkspaceMember (wid memberId : String)
  | postWorkspaceInvitation (wid email : String) (role : Option InvitedRole) (now : Nat)
  | acceptWorkspaceInvitation (token : String) (now : Nat)
  | postBoard (wid name : String)
  | patchBoard (boardId name : String)
  | duplicateBoard (boardId : String)
  | deleteBoard (boardId : String)
  | putFavorite (boardId : String) (now : Nat)
  | deleteFavorite (boardId : String) (now : Nat)
  | leaveBoard (boardId : String)
  | postBoardMember (boardId memberUserId : String) (permission : Option BoardPermission)
  | patchBoardMember (boardId memberId : String) (permission : BoardPermission)
  | deleteBoardMember (boardId memberId : String)
  | postBoardInvite (boardId email : String) (permission : Option BoardPermission) (now : Nat)
  | acceptBoardInvite (token : String) (now : Nat)
  | declinePendingInvite (token : String)
  | deleteBoardInvite (boardId inviteId : String)
  | patchLinkSharing (boardId : String) (permission : Option BoardPermission) (enabled : Bool)
  | rotateLinkSharing (boardId : String) (permission : BoardPermission)
deriving DecidableEq

inductive Request where
  | action (userId : String) (action : Action)
  /-- The callback of a login with a verified profile; `redirects` when `new URL` takes the origin
      to go to. -/
  | login (email googleId : String) (redirects : Bool)
  | getBoard (boardId : String) (userId shareToken : Option String)
  | getShared (token : String) (editFirst : Bool)
deriving DecidableEq

/-- `permission === 'edit' ? 'edit' : 'view'`. -/
def orView (permission : Option BoardPermission) : BoardPermission :=
  if permission = some .edit then .edit else .view

section handlers
variable (rt : Runtime)

/-- The course most handlers share: the role is read and looked at, then the service is called. -/
def guarded (role : Service (Option String)) (allowed : Option String → Bool)
    (service : Service Response) : Service Response := do
  if allowed (← role) then service else return sendForbidden

def orNotFound {α : Type} (error : String) (send : α → Response) : Option α → Response
  | some a => send a
  | none => sendNotFound error

def linkShareOf (permission : BoardPermission) (board : Board) : Response :=
  match permission with
  | .view => ⟨200, .linkShare board.linkShareViewEnabled permission board.linkShareViewToken⟩
  | .edit => ⟨200, .linkShare board.linkShareEditEnabled permission board.linkShareEditToken⟩

/-- The row an UPDATE of one board returns. -/
def returned (boardId : String) (_before after : Tables) : Option Board :=
  after.boards.find? (·.id == boardId)

def favoriteResponse : Option (Board × Option Nat) → Response
  | some (board, createdAt) => ⟨200, .boardWithFavorite board createdAt none⟩
  | none => sendForbidden

/-- The errors of `POST /invitations/:token/accept`. -/
def acceptErrorResponse : RequestError → Response
  | .thrown (.workspaceInvitationError .wrongUser _) =>
    ⟨403, .error "Invitation is for a different email address"⟩
  | .thrown (.workspaceInvitationError .notFound _) => sendNotFound "Invitation not found"
  | .thrown (.workspaceInvitationError .expiredOrUsed _) =>
    ⟨410, .error "Invitation expired or already used"⟩
  | _ => sendNotFound "Invitation not found or already used"

def handleAction (userId : String) : Action → Service Response
  | .postWorkspace name =>
    execute rt (.createWorkspace name userId) fun db _ =>
      ⟨201, .workspace { id := db.next rt, name := name, ownerId := userId }⟩
  | .patchWorkspace wid name =>
    guarded (getWorkspaceMemberRole wid userId) isOwnerOrAdmin <|
      execute rt (.renameWorkspace wid name) fun _ db =>
        orNotFound "Workspace not found" (⟨200, .workspace ·⟩) (db.workspaces.find? (·.id == wid))
  | .deleteWorkspaceMember wid memberId =>
    guarded (getWorkspaceMemberRole wid userId) isOwnerOrAdmin do
      if ← deleteWorkspaceMember rt wid memberId then return sendStatus 204
      else return sendNotFound "Member not found"
  | .postWorkspaceInvitation wid email role now =>
    guarded (getWorkspaceMemberRole wid userId) isOwnerOrAdmin do
      let invitation ← createInvitation rt wid email (role.getD .viewer).text userId now
      return ⟨201, .workspaceInvitation invitation⟩
  | .acceptWorkspaceInvitation token now =>
    ((do
      match ← acceptInvitation rt token userId now with
      | some workspace => return ⟨200, .workspace workspace⟩
      | none => return ⟨200, .empty⟩) : Service Response).orElse fun error =>
        .done (acceptErrorResponse error)
  | .postBoard wid name =>
    guarded (getWorkspaceMemberRole wid userId) canCreateBoards <|
      execute rt (.createBoard wid name) fun db _ => ⟨201, .board (newBoard rt wid name db)⟩
  | .patchBoard boardId name =>
    guarded (getWorkspaceRoleForBoard boardId userId) canCreateBoards <|
      execute rt (.renameBoard boardId name) fun db db' =>
        orNotFound "Board not found" (⟨200, .board ·⟩) (returned boardId db db')
  | .duplicateBoard boardId =>
    guarded (getWorkspaceRoleForBoard boardId userId) canCreateBoards <|
      execute rt (.duplicateBoard boardId) fun db _ =>
        orNotFound "Board not found"
          (fun source =>
            ⟨201, .board (newBoard rt source.workspaceId (source.name ++ " (Copy)") db)⟩)
          (db.boards.find? (·.id == boardId))
  | .deleteBoard boardId =>
    guarded (getWorkspaceRoleForBoard boardId userId) canDeleteBoards <|
      execute rt (.deleteBoard boardId) fun _ _ => sendStatus 204
  | .putFavorite boardId now => do
    let access ← requireBoardAccess boardId (some userId) none
    if !access.hasAccess then return sendForbidden
    else return favoriteResponse (← setBoardFavorite rt boardId userId true now)
  | .deleteFavorite boardId now => do
    let access ← requireBoardAccess boardId (some userId) none
    if !access.hasAccess then return sendForbidden
    else return favoriteResponse (← setBoardFavorite rt boardId userId false now)
  | .leaveBoard boardId => do
    -- the empty role is falsy
    if given (← getWorkspaceRoleForBoard boardId userId) then
      return ⟨400, .error "Workspace members cannot leave board access via this endpoint"⟩
    else execute rt (.leaveBoard boardId userId) fun _ _ => sendStatus 204
  | .postBoardMember boardId memberUserId permission =>
    guarded (getWorkspaceRoleForBoard boardId userId) canManageBoardAccess <|
      execute rt (.upsertBoardMember boardId memberUserId (orView permission) userId) fun _ db =>
        match db.boardMembers.find? (fun m => m.scopeId == boardId && m.userId == memberUserId) with
        | some member => ⟨201, .boardMember member⟩
        | none => ⟨201, .empty⟩
  | .patchBoardMember boardId memberId permission =>
    guarded (getWorkspaceRoleForBoard boardId userId) canManageBoardAccess <|
      execute rt (.updateBoardMemberPermission boardId memberId permission) fun _ _ =>
        sendStatus 204
  | .deleteBoardMember boardId memberId =>
    guarded (getWorkspaceRoleForBoard boardId userId) canManageBoardAccess <|
      execute rt (.deleteBoardMember boardId memberId) fun _ _ => sendStatus 204
  | .postBoardInvite boardId email permission now =>
    guarded (getWorkspaceRoleForBoard boardId userId) canManageBoardAccess do
      let (inviteId, token) ←
        createBoardInvitation rt boardId userId email (orView permission) now
      return ⟨201, .boardInvitation inviteId token⟩
  | .acceptBoardInvite token now =>
    ((do
      acceptBoardInvitationByToken rt token userId now
      return sendStatus 204) : Service Response).orElse fun error =>
        .done (sendNotFound error.message)
  | .declinePendingInvite token =>
    ((do
      declinePendingInvitationByToken rt token userId
      return sendStatus 204) : Service Response).orElse fun error =>
        .done (sendNotFound error.message)
  | .deleteBoardInvite boardId inviteId =>
    guarded (getWorkspaceRoleForBoard boardId userId) canManageBoardAccess <|
      execute rt (.revokeBoardInvitation boardId inviteId) fun _ _ => sendStatus 204
  | .patchLinkSharing boardId permission enabled =>
    guarded (getWorkspaceRoleForBoard boardId userId) canManageBoardAccess <|
      execute rt (.setBoardLinkShare boardId (orView permission) enabled) fun db db' =>
        orNotFound "Board not found" (linkShareOf (orView permission)) (returned boardId db db')
  | .rotateLinkSharing boardId permission =>
    guarded (getWorkspaceRoleForBoard boardId userId) canManageBoardAccess <|
      execute rt (.rotateBoardLinkShareToken boardId permission) fun db db' =>
        orNotFound "Board not found" (linkShareOf permission) (returned boardId db db')

def handle : Request → Service Response
  | .action userId action =>
    (handleAction rt userId action).orElse fun _ => .done internalError
  | .login email googleId redirects =>
    ((do
      match ← upsertGoogleUser rt email googleId with
      | some user =>
        -- the cookies are set before the address is built, and go out with the error as well
        execute rt (.insertRefreshToken user.id) fun _ _ =>
          ⟨if redirects then 302 else 500, .session user⟩
      -- a missing user has no id, which throws in the handler
      | none => return authenticationFailed) : Service Response).orElse fun _ =>
        .done authenticationFailed
  | .getBoard boardId userId shareToken =>
    ((do
      let access ← requireBoardAccess boardId userId shareToken
      if !access.hasAccess then return sendForbidden
      else
        match ← getBoardWithFavorite boardId userId with
        | none => return sendNotFound "Board not found"
        | some (board, createdAt) =>
          return ⟨200, .boardWithFavorite board createdAt access.permission⟩) :
      Service Response).orElse fun _ => .done internalError
  | .getShared token editFirst => do
    match ← getShareByToken token editFirst with
    | none => return sendNotFound "Share link not found or expired"
    | some (boardId, permission) => return ⟨200, .share boardId permission⟩

end handlers

/-- `authMiddleware` lets a request through with an access token only, and these name users who
    have logged in. -/
def admits (db : Tables) : Request → Bool
  | .action userId _ => db.users.any (·.id == userId)
  | _ => true

end Notebortt.Requests
