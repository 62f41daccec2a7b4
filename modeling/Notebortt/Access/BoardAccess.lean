import Notebortt.Invitations.Tables
import Notebortt.Lib.InsertionMap

/-! # Access to a board

    `checkBoardAccess` of `boards/domain/access.ts` and `listAccessibleBoards`
    of `boards/domain/catalog.ts`: the two readers of the membership tables. -/

open Table (Constraints)

namespace Notebortt.Access

open Invitations

/-! ### Rows -/

/-- A row of `boards`. Both readers only hand on the columns left out here: the current commit and
    branch, the preview and the timestamps. -/
structure Board where
  id : String
  workspaceId : String
  name : String
  linkShareViewEnabled : Bool
  linkShareViewToken : Option String
  linkShareEditEnabled : Bool
  linkShareEditToken : Option String
deriving DecidableEq, Repr

structure BoardFavorite where
  boardId : String
  userId : String
  createdAt : Option Nat
deriving DecidableEq, Repr

/-- The tables of the invitations, the boards, and the favourites. -/
structure AccessDb extends Db where
  boards : List Board
  boardFavorites : List BoardFavorite

/-- Two values a unique column does not take together: equal, and not null. -/
def sameToken (t t' : Option String) : Bool := t.isSome && t == t'

theorem sameToken_comm (t t' : Option String) : sameToken t t' = sameToken t' t := by
  cases t with
  | none => cases t' <;> rfl
  | some a =>
    cases t' with
    | none => rfl
    | some b => exact BEq.comm

/-- The primary key, the two unique token columns, the two checks and the foreign key. -/
def boardConstraints (env : Env) : Constraints Board where
  check := fun b =>
    (!b.linkShareViewEnabled || b.linkShareViewToken.isSome) &&
      (!b.linkShareEditEnabled || b.linkShareEditToken.isSome)
  clash := fun b b' =>
    b.id == b'.id || sameToken b.linkShareViewToken b'.linkShareViewToken ||
      sameToken b.linkShareEditToken b'.linkShareEditToken
  references := fun b => env.workspaces.contains b.workspaceId
  clash_self := fun b => by simp
  clash_comm := fun b b' => by
    rw [BEq.comm, sameToken_comm, sameToken_comm b.linkShareEditToken]

/-- Every table keeps its constraints, and the id of a user, a uuid, is not empty. -/
structure AccessDb.Valid (env : Env) (db : AccessDb) : Prop where
  boards : (boardConstraints env).Holds db.boards
  boardIds : env.boards = db.boards.map (·.id)
  boardMembers : (boardMemberConstraints env).Holds db.boardMembers
  workspaceMembers : (workspaceMemberConstraints env).Holds db.workspaceMembers
  boardInvitations : (boardInvitationConstraints env).Holds db.boardInvitations
  workspaceInvitations : (workspaceInvitationConstraints env).Holds db.workspaceInvitations
  userIds : ∀ u ∈ env.users, u.id ≠ ""

theorem AccessDb.valid_iff {env : Env} {db : AccessDb} :
    db.Valid env ↔
      (boardConstraints env).Holds db.boards ∧ env.boards = db.boards.map (·.id) ∧
        (boardMemberConstraints env).Holds db.boardMembers ∧
        (workspaceMemberConstraints env).Holds db.workspaceMembers ∧
        (boardInvitationConstraints env).Holds db.boardInvitations ∧
        (workspaceInvitationConstraints env).Holds db.workspaceInvitations ∧
        ∀ u ∈ env.users, u.id ≠ "" :=
  ⟨fun ⟨h₁, h₂, h₃, h₄, h₅, h₆, h₇⟩ => ⟨h₁, h₂, h₃, h₄, h₅, h₆, h₇⟩,
    fun ⟨h₁, h₂, h₃, h₄, h₅, h₆, h₇⟩ => ⟨h₁, h₂, h₃, h₄, h₅, h₆, h₇⟩⟩

instance (env : Env) (db : AccessDb) : Decidable (db.Valid env) :=
  decidable_of_iff _ AccessDb.valid_iff.symm

/-! ### `checkBoardAccess` -/

section readers
variable (db : AccessDb)

/-- `getBoard` for no user: the favourite is not read. -/
def getBoard (boardId : String) : Option Board := db.boards.find? (·.id == boardId)

/-- The member row of a user in one board or workspace. -/
def memberOf {Grant : Type} (rows : List (Member Grant)) (scopeId userId : String) :
    Option (Member Grant) :=
  rows.find? fun m => m.scopeId == scopeId && m.userId == userId

def getBoardMemberPermission (boardId userId : String) : Option BoardPermission :=
  (memberOf db.boardMembers boardId userId).map (·.grant)

def workspaceRoleToBoardPermission (role : String) : BoardPermission :=
  if role = "viewer" then .view else .edit

def getWorkspaceBoardMembershipPermission (workspaceId userId : String) : Option BoardPermission :=
  (memberOf db.workspaceMembers workspaceId userId).map fun m =>
    workspaceRoleToBoardPermission m.grant

/-- The answer `{ hasAccess, permission }`. -/
structure BoardAccess where
  hasAccess : Bool
  permission : Option BoardPermission
deriving DecidableEq, Repr

def noAccess : BoardAccess := { hasAccess := false, permission := none }

def granted (permission : BoardPermission) : BoardAccess :=
  { hasAccess := true, permission := some permission }

/-- An optional string in a condition: `undefined` and the empty string are falsy. -/
def given (s : Option String) : Bool := s.any (· != "")

def checkBoardAccess (boardId : String) (userId shareToken : Option String) : BoardAccess :=
  match getBoard db boardId with
  | none => noAccess
  | some board =>
    if given shareToken && board.linkShareViewEnabled && board.linkShareViewToken == shareToken then
      granted .view
    else if given shareToken && board.linkShareEditEnabled
        && board.linkShareEditToken == shareToken then
      granted .edit
    else
      match userId with
      | none => noAccess
      | some userId =>
        if userId = "" then noAccess
        else
          match getBoardMemberPermission db boardId userId with
          | some directPermission => granted directPermission
          | none =>
            match getWorkspaceBoardMembershipPermission db board.workspaceId userId with
            | some workspacePermission => granted workspacePermission
            | none => noAccess

/-! ### `listAccessibleBoards` -/

inductive AccessSource where
  | workspace
  | boardMember
deriving DecidableEq, Repr

structure AccessibleBoard extends Board where
  permission : BoardPermission
  accessSource : AccessSource
  isFavorite : Bool
  favoriteCreatedAt : Option Nat
deriving DecidableEq, Repr

def getFavoriteBoardMap (userId : String) : InsertionMap String (Option Nat) :=
  InsertionMap.empty.setAll <| db.boardFavorites.filterMap fun row =>
    if row.userId = userId then some (row.boardId, row.createdAt) else none

/-- `boards` joined with the member rows of a user in the scope of each board. -/
def innerJoin {Grant : Type} (rows : List (Member Grant)) (scopeOf : Board → String)
    (userId : String) : List (Board × Member Grant) :=
  db.boards.flatMap fun board =>
    (rows.filter fun m => m.scopeId == scopeOf board && m.userId == userId).map (board, ·)

def workspaceBoards (userId : String) : List (Board × WorkspaceMember) :=
  innerJoin db db.workspaceMembers (·.workspaceId) userId

def directBoardMembers (userId : String) : List (Board × BoardMember) :=
  innerJoin db db.boardMembers (·.id) userId

/-- The value the map `deduped` takes for a board. -/
def accessible (userId : String) (board : Board) (permission : BoardPermission)
    (source : AccessSource) : AccessibleBoard :=
  { board with
    permission := permission
    accessSource := source
    isFavorite := (getFavoriteBoardMap db userId).has board.id
    favoriteCreatedAt := ((getFavoriteBoardMap db userId).get? board.id).join }

/-- What one of the two loops sets in the map. -/
def entriesOf {Grant : Type} (userId : String) (permissionOf : Grant → BoardPermission)
    (source : AccessSource) (joined : List (Board × Member Grant)) :
    List (String × AccessibleBoard) :=
  joined.map fun row =>
    (row.1.id, accessible db userId row.1 (permissionOf row.2.grant) source)

def workspaceEntries (userId : String) : List (String × AccessibleBoard) :=
  entriesOf db userId workspaceRoleToBoardPermission .workspace (workspaceBoards db userId)

/-- `permission === 'edit' ? 'edit' : 'view'`. -/
def directEntries (userId : String) : List (String × AccessibleBoard) :=
  entriesOf db userId (fun permission => if permission = .edit then .edit else .view) .boardMember
    (directBoardMembers db userId)

def dedupedBoards (userId : String) : InsertionMap String AccessibleBoard :=
  (InsertionMap.empty.setAll (workspaceEntries db userId)).setAllNew (directEntries db userId)

def listAccessibleBoards (userId : String) : List AccessibleBoard :=
  (dedupedBoards db userId).values

end readers

/-! ### Member rows -/

section members
variable {Grant : Type} {rows : List (Member Grant)} {scopeId userId : String} {m : Member Grant}

theorem memberOf_some (h : memberOf rows scopeId userId = some m) :
    m ∈ rows ∧ m.scopeId = scopeId ∧ m.userId = userId := by
  refine ⟨List.mem_of_find?_eq_some h, ?_⟩
  simpa using List.find?_some h

/-- With one row for each scope and user the lookup finds it. -/
theorem memberOf_eq_some_iff {c : Constraints (Member Grant)} (hholds : c.Holds rows)
    (hclash : ∀ m m' : Member Grant, m.scopeId = m'.scopeId → m.userId = m'.userId →
      c.clash m m' = true) :
    memberOf rows scopeId userId = some m ↔
      m ∈ rows ∧ m.scopeId = scopeId ∧ m.userId = userId := by
  constructor
  · exact memberOf_some
  · rintro ⟨hmem, hscope, huser⟩
    cases hfind : memberOf rows scopeId userId with
    | none =>
      have hnone := List.find?_eq_none.mp hfind m hmem
      simp [hscope, huser] at hnone
    | some m' =>
      obtain ⟨hmem', hscope', huser'⟩ := memberOf_some hfind
      have hsame := hclash m' m (hscope'.trans hscope.symm) (huser'.trans huser.symm)
      rw [hholds.eq_of_clash hmem' hmem hsame]

end members

section valid
variable {env : Env} {db : AccessDb} (h : db.Valid env) {boardId userId : String}

include h

theorem AccessDb.Valid.getBoard_iff {board : Board} :
    getBoard db boardId = some board ↔ board ∈ db.boards ∧ board.id = boardId := by
  constructor
  · intro hget
    exact ⟨List.mem_of_find?_eq_some hget, by simpa using List.find?_some hget⟩
  · rintro ⟨hmem, hid⟩
    cases hfind : getBoard db boardId with
    | none =>
      have hnone := List.find?_eq_none.mp hfind board hmem
      simp [hid] at hnone
    | some board' =>
      have hid' : board'.id = boardId := by simpa using List.find?_some hfind
      have hclash : (boardConstraints env).clash board' board = true := by
        simp [boardConstraints, hid', hid]
      rw [h.boards.eq_of_clash (List.mem_of_find?_eq_some hfind) hmem hclash]

theorem AccessDb.Valid.boardMember_iff {m : BoardMember} :
    memberOf db.boardMembers boardId userId = some m ↔
      m ∈ db.boardMembers ∧ m.scopeId = boardId ∧ m.userId = userId := by
  refine memberOf_eq_some_iff h.boardMembers ?_
  intro m m' hscope huser
  simp [boardMemberConstraints, hscope, huser]

theorem AccessDb.Valid.workspaceMember_iff {workspaceId : String} {m : WorkspaceMember} :
    memberOf db.workspaceMembers workspaceId userId = some m ↔
      m ∈ db.workspaceMembers ∧ m.scopeId = workspaceId ∧ m.userId = userId := by
  refine memberOf_eq_some_iff h.workspaceMembers ?_
  intro m m' hscope huser
  simp [workspaceMemberConstraints, hscope, huser]

/-- A user of the table has an id. -/
theorem AccessDb.Valid.ne_empty_of_hasUser (huser : env.hasUser userId = true) : userId ≠ "" := by
  obtain ⟨u, hmem, hid⟩ := List.any_eq_true.mp huser
  rw [← beq_iff_eq.mp hid]
  exact h.userIds u hmem

theorem AccessDb.Valid.userId_of_boardMember {m : BoardMember} (hm : m ∈ db.boardMembers) :
    m.userId ≠ "" := by
  have href := h.boardMembers.references m hm
  simp only [boardMemberConstraints, Bool.and_eq_true] at href
  exact h.ne_empty_of_hasUser href.1.2

theorem AccessDb.Valid.userId_of_workspaceMember {m : WorkspaceMember}
    (hm : m ∈ db.workspaceMembers) : m.userId ≠ "" := by
  have href := h.workspaceMembers.references m hm
  simp only [workspaceMemberConstraints, Bool.and_eq_true] at href
  exact h.ne_empty_of_hasUser href.1.2

end valid

end Notebortt.Access
