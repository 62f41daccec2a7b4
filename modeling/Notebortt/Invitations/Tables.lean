import Notebortt.Lib.Table

/-! # Invitations

    `board_invitations` and `workspace_invitations` with their unique indexes,
    and the functions of `invitation-transitions.ts` and
    `workspace/invitations.ts` that read and write them. -/

open Table (DbError Constraints)

namespace Notebortt.Invitations

/-! ### Rows -/

inductive InvitationStatus where
  | pending
  | accepted
  | revoked
  | declined
  | expired
deriving DecidableEq, Repr

inductive BoardPermission where
  | view
  | edit
deriving DecidableEq, Repr

/-- A row of `board_invitations` or of `workspace_invitations`: `scopeId` is the `board_id` or the
    `workspace_id`, `grant` the permission or the role. -/
structure Invitation (Grant : Type) where
  id : String
  scopeId : String
  invitedBy : String
  emailLower : String
  grant : Grant
  status : InvitationStatus
  token : String
  expiresAt : Nat
deriving DecidableEq, Repr

/-- A row of `board_members` or of `workspace_members`. -/
structure Member (Grant : Type) where
  scopeId : String
  userId : String
  grant : Grant
  addedBy : Option String
deriving DecidableEq, Repr

/-- The columns only a workspace invitation has: the role, and the address as it was typed. -/
structure WorkspaceGrant where
  role : String
  email : String
deriving DecidableEq, Repr

abbrev BoardInvitation := Invitation BoardPermission
abbrev WorkspaceInvitation := Invitation WorkspaceGrant
abbrev BoardMember := Member BoardPermission
abbrev WorkspaceMember := Member String

structure User where
  id : String
  email : String
deriving DecidableEq, Repr

/-- What the invitation functions use and never write: the rows other tables refer to, and the
    runtime's string functions. -/
structure Env where
  users : List User
  boards : List String
  workspaces : List String
  trim : String → String
  toLowerCase : String → String

structure Db where
  boardInvitations : List BoardInvitation
  workspaceInvitations : List WorkspaceInvitation
  boardMembers : List BoardMember
  workspaceMembers : List WorkspaceMember

/-! ### Constraints -/

section constraints
variable (env : Env)

def Env.hasUser (userId : String) : Bool := env.users.any fun u => u.id == userId

/-- Two invitations that a primary key, `token` or the index over scope, address and status does
    not take together. -/
def Invitation.clash {Grant : Type} (i j : Invitation Grant) : Bool :=
  i.id == j.id || i.token == j.token ||
    (i.scopeId == j.scopeId && i.emailLower == j.emailLower && i.status == j.status)

def invitationConstraints {Grant : Type} (scopes : List String) (check : Invitation Grant → Bool) :
    Constraints (Invitation Grant) where
  check := check
  clash := Invitation.clash
  references := fun i => scopes.contains i.scopeId && env.hasUser i.invitedBy
  clash_self := fun i => by simp [Invitation.clash]
  clash_comm := fun i j => by simp only [Invitation.clash, BEq.comm]

def boardInvitationConstraints : Constraints BoardInvitation :=
  invitationConstraints env env.boards fun i => i.status != .declined

def workspaceInvitationConstraints : Constraints WorkspaceInvitation :=
  invitationConstraints env env.workspaces fun i =>
    ["admin", "editor", "viewer"].contains i.grant.role

/-- `board_member_user_idx` and the foreign keys. -/
def boardMemberConstraints : Constraints BoardMember where
  check := fun _ => true
  clash := fun m m' => m.scopeId == m'.scopeId && m.userId == m'.userId
  references := fun m =>
    env.boards.contains m.scopeId && env.hasUser m.userId && m.addedBy.all env.hasUser
  clash_self := fun m => by simp
  clash_comm := fun m m' => by simp only [BEq.comm]

/-- `workspace_member_idx`, `workspace_single_owner_idx` and the foreign keys. -/
def workspaceMemberConstraints : Constraints WorkspaceMember where
  check := fun m => ["owner", "admin", "editor", "viewer"].contains m.grant
  clash := fun m m' =>
    m.scopeId == m'.scopeId &&
      (m.userId == m'.userId || (m.grant == "owner" && m'.grant == "owner"))
  references := fun m =>
    env.workspaces.contains m.scopeId && env.hasUser m.userId && m.addedBy.all env.hasUser
  clash_self := fun m => by simp
  clash_comm := fun m m' => by
    rw [BEq.comm, @BEq.comm _ _ _ m.userId, Bool.and_comm (m.grant == "owner")]

end constraints

/-! ### Errors -/

/-- The codes of a `WorkspaceInvitationError`. -/
inductive WorkspaceErrorCode where
  | notFound
  | wrongUser
  | expiredOrUsed
  | userNotFound
deriving DecidableEq, Repr

def WorkspaceErrorCode.text : WorkspaceErrorCode → String
  | .notFound => "not_found"
  | .wrongUser => "wrong_user"
  | .expiredOrUsed => "expired_or_used"
  | .userNotFound => "user_not_found"

inductive InvitationError where
  | error (message : String)
  | workspaceInvitationError (code : WorkspaceErrorCode) (message : String)
  /-- A failed query: the ORM throws an error of its own, with the driver's as its `cause`. -/
  | db (cause : DbError)
deriving DecidableEq, Repr

/-- The property `code` of the error itself. The code of a failed query is that of its `cause`. -/
def InvitationError.code : InvitationError → Option String
  | .error _ => none
  | .workspaceInvitationError code _ => some code.text
  | .db _ => none

def POSTGRES_UNIQUE_VIOLATION : String := "23505"

def isUniqueViolation (e : InvitationError) : Bool := e.code == some POSTGRES_UNIQUE_VIOLATION

/-- No error that is thrown here is taken for a unique violation. -/
@[simp] theorem isUniqueViolation_eq_false (e : InvitationError) : isUniqueViolation e = false := by
  cases e with
  | workspaceInvitationError code message =>
    cases code <;>
      simp [isUniqueViolation, InvitationError.code, WorkspaceErrorCode.text,
        POSTGRES_UNIQUE_VIOLATION]
  | _ => rfl

def liftDb {α : Type} : Except DbError α → Except InvitationError α
  | .ok a => .ok a
  | .error e => .error (.db e)

/-! ### Reading and writing one table -/

section statements
variable {Grant : Type}

/-- The lookup of a pending invitation of an address. -/
def getPending (rows : List (Invitation Grant)) (scopeId emailLower : String) :
    Option (Invitation Grant) :=
  rows.find? fun i => i.scopeId == scopeId && i.emailLower == emailLower && i.status == .pending

/-- The WHERE of an accept: the row found, still pending, and not expired. -/
def acceptable (inviteId : String) (now : Nat) (i : Invitation Grant) : Bool :=
  i.id == inviteId && i.status == .pending && decide (now < i.expiresAt)

/-- `UPDATE .. SET status .. WHERE cond`. -/
def setStatus (c : Constraints (Invitation Grant)) (cond : Invitation Grant → Bool)
    (status : InvitationStatus) (rows : List (Invitation Grant)) :
    Except InvitationError (List (Invitation Grant)) :=
  liftDb (Table.update c cond (fun i => { i with status := status }) rows)

/-- The course `createBoardInvitation` and `createInvitation` share. Other requests may write the
    table between its statements: `atLookup`, `atInsert` and `atReload` are its rows when the
    lookup, the INSERT and the lookup after a unique violation run, if there is one. -/
def createIn (c : Constraints (Invitation Grant)) (new : Invitation Grant)
    (atLookup atInsert atReload : List (Invitation Grant)) :
    Except InvitationError (List (Invitation Grant) × Invitation Grant) :=
  match getPending atLookup new.scopeId new.emailLower with
  | some existingPending => .ok (atLookup, existingPending)
  | none =>
    match Table.insert c new atInsert with
    | .ok rows => .ok (rows, new)
    | .error e =>
      if isUniqueViolation (.db e) then
        match getPending atReload new.scopeId new.emailLower with
        | some pendingInvitation => .ok (atReload, pendingInvitation)
        | none => .error (.db e)
      else .error (.db e)

end statements

def invitationExpiresDays : Nat := 7

/-- Milliseconds; `setDate` counts days of the server's clock, here UTC. -/
def buildInvitationExpiry (now : Nat) : Nat := now + invitationExpiresDays * 24 * 60 * 60 * 1000

theorem lt_buildInvitationExpiry (now : Nat) : now < buildInvitationExpiry now := by
  have hpos : 0 < invitationExpiresDays * 24 * 60 * 60 * 1000 := by decide
  exact Nat.lt_add_of_pos_right hpos

/-! ### The functions -/

section functions
variable (env : Env)

def Env.normalizeEmail (email : String) : String := env.toLowerCase (env.trim email)

def Env.trimEmail (email : String) : String := env.trim email

def getUserEmail (userId : String) : Except InvitationError String :=
  match env.users.find? fun u => u.id == userId with
  | some user => if user.email.isEmpty then .error (.error "User not found") else .ok user.email
  | none => .error (.error "User not found")

/-- What a new row is given: a generated id and token, and the clock. -/
structure Fresh where
  id : String
  token : String
  now : Nat

def newBoardInvitation (boardId invitedBy email : String) (permission : BoardPermission)
    (fresh : Fresh) : BoardInvitation :=
  { id := fresh.id, scopeId := boardId, invitedBy := invitedBy
    emailLower := env.normalizeEmail email, grant := permission, status := .pending
    token := fresh.token, expiresAt := buildInvitationExpiry fresh.now }

/-- The answer `{ inviteId, token }` stands for the row it names. -/
def createBoardInvitation (boardId invitedBy email : String) (permission : BoardPermission)
    (fresh : Fresh) (atLookup atInsert atReload : List BoardInvitation) :
    Except InvitationError (List BoardInvitation × BoardInvitation) :=
  createIn (boardInvitationConstraints env)
    (newBoardInvitation env boardId invitedBy email permission fresh) atLookup atInsert atReload

def newInvitation (workspaceId email role invitedBy : String) (fresh : Fresh) :
    WorkspaceInvitation :=
  { id := fresh.id, scopeId := workspaceId, invitedBy := invitedBy
    emailLower := env.normalizeEmail email, grant := { role := role, email := env.trimEmail email }
    status := .pending, token := fresh.token, expiresAt := buildInvitationExpiry fresh.now }

def createInvitation (workspaceId email role invitedBy : String) (fresh : Fresh)
    (atLookup atInsert atReload : List WorkspaceInvitation) :
    Except InvitationError (List WorkspaceInvitation × WorkspaceInvitation) :=
  createIn (workspaceInvitationConstraints env)
    (newInvitation env workspaceId email role invitedBy fresh) atLookup atInsert atReload

/-- The SELECT of an accept: the addressee's invitation of this token, in any status. -/
def findByToken (rows : List BoardInvitation) (token emailLower : String) :
    Option BoardInvitation :=
  rows.find? fun i => i.token == token && i.emailLower == emailLower

/-- The membership an accept writes; an existing one gets the permission. -/
def upsertBoardMember (invitation : BoardInvitation) (userId : String) (rows : List BoardMember) :
    Except InvitationError (List BoardMember) :=
  liftDb (Table.upsert (boardMemberConstraints env)
    (fun m => m.scopeId == invitation.scopeId && m.userId == userId)
    (fun m => { m with grant := invitation.grant })
    { scopeId := invitation.scopeId, userId := userId, grant := invitation.grant
      addedBy := some invitation.invitedBy } rows)

def acceptBoardInvitationByToken (token userId : String) (now : Nat) (db : Db) :
    Except InvitationError Db :=
  match getUserEmail env userId with
  | .error e => .error e
  | .ok email =>
    match findByToken db.boardInvitations token (env.normalizeEmail email) with
    | none => .error (.error "Invitation not found")
    | some invitation =>
      match setStatus (boardInvitationConstraints env) (acceptable invitation.id now) .accepted
          db.boardInvitations with
      | .error e => .error e
      | .ok rows =>
        if db.boardInvitations.any (acceptable invitation.id now) then
          match upsertBoardMember env invitation userId db.boardMembers with
          | .error e => .error e
          | .ok members => .ok { db with boardInvitations := rows, boardMembers := members }
        else .error (.error "Invitation expired or already used")

/-- The SELECT of a decline: the addressee's pending invitation of this token. -/
def findPendingByToken {Grant : Type} (rows : List (Invitation Grant)) (token emailLower : String) :
    Option (Invitation Grant) :=
  rows.find? fun i => i.token == token && i.emailLower == emailLower && i.status == .pending

/-- The WHERE of a decline. -/
def stillPending {Grant : Type} (inviteId : String) (i : Invitation Grant) : Bool :=
  i.id == inviteId && i.status == .pending

def declinePendingInvitationByToken (token userId : String) (db : Db) : Except InvitationError Db :=
  match getUserEmail env userId with
  | .error e => .error e
  | .ok email =>
    match findPendingByToken db.boardInvitations token (env.normalizeEmail email) with
    | some boardInvitation =>
      match setStatus (boardInvitationConstraints env) (stillPending boardInvitation.id) .revoked
          db.boardInvitations with
      | .error e => .error e
      | .ok rows => .ok { db with boardInvitations := rows }
    | none =>
      match findPendingByToken db.workspaceInvitations token (env.normalizeEmail email) with
      | none => .error (.error "Invitation not found")
      | some workspaceInvitation =>
        match setStatus (workspaceInvitationConstraints env) (stillPending workspaceInvitation.id)
            .declined db.workspaceInvitations with
        | .error e => .error e
        | .ok rows => .ok { db with workspaceInvitations := rows }

/-- The WHERE of a revocation. -/
def revocable (boardId inviteId : String) (i : BoardInvitation) : Bool :=
  i.id == inviteId && i.scopeId == boardId && i.status == .pending

def revokeBoardInvitation (boardId inviteId : String) (db : Db) : Except InvitationError Db :=
  match setStatus (boardInvitationConstraints env) (revocable boardId inviteId) .revoked
      db.boardInvitations with
  | .error e => .error e
  | .ok rows => .ok { db with boardInvitations := rows }

/-- The WHERE of an expiry. -/
def expirable (inviteIds : List String) (i : BoardInvitation) : Bool :=
  inviteIds.contains i.id && i.status != .accepted

def expireInvitations (inviteIds : List String) (db : Db) : Except InvitationError Db :=
  if inviteIds.isEmpty then .ok db
  else
    match setStatus (boardInvitationConstraints env) (expirable inviteIds) .expired
        db.boardInvitations with
    | .error e => .error e
    | .ok rows => .ok { db with boardInvitations := rows }

/-- The membership a workspace accept writes; an existing one stays as it is. -/
def insertWorkspaceMember (invitation : WorkspaceInvitation) (userId : String)
    (rows : List WorkspaceMember) : Except InvitationError (List WorkspaceMember) :=
  liftDb (Table.insertOrIgnore (workspaceMemberConstraints env)
    { scopeId := invitation.scopeId, userId := userId, grant := invitation.grant.role
      addedBy := some invitation.invitedBy } rows)

def acceptInvitation (token userId : String) (now : Nat) (db : Db) : Except InvitationError Db :=
  match getUserEmail env userId with
  | .error _ => .error (.workspaceInvitationError .userNotFound "User not found")
  | .ok email =>
    match db.workspaceInvitations.find? fun i => i.token == token with
    | none => .error (.workspaceInvitationError .notFound "Invitation not found")
    | some invitation =>
      if invitation.emailLower ≠ env.normalizeEmail email then
        .error (.workspaceInvitationError .wrongUser "Invitation email does not match current user")
      else
        match setStatus (workspaceInvitationConstraints env)
            (acceptable invitation.id now) .accepted
            db.workspaceInvitations with
        | .error e => .error e
        | .ok rows =>
          if db.workspaceInvitations.any (acceptable invitation.id now) then
            match insertWorkspaceMember env invitation userId db.workspaceMembers with
            | .error e => .error e
            | .ok members =>
              .ok { db with workspaceInvitations := rows, workspaceMembers := members }
          else
            .error (.workspaceInvitationError .expiredOrUsed
              "Invitation is expired or already used")

end functions

end Notebortt.Invitations
