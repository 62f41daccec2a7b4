import Notebortt.Requests.Guards
import Notebortt.Access.AccessMonotone

/-! # Who can raise whose access to a board

    Any group of people, told by their addresses, with whatever accounts they
    register: nothing they request lets one of them into a board further than
    the group is let in already, as long as none of them manages it. Only the
    owner and the administrators of its workspace let others in. -/

open Table (Constraints)
open Interleaving (Label)

namespace Notebortt.Requests

open Invitations Access

/-! ### How far somebody is let in -/

/-- What a role in the workspace of a board comes to: `view`, `edit`, or to manage the access. -/
def roleLevel (role : String) : Nat :=
  if role = "viewer" then 1 else if role = "owner" ∨ role = "admin" then 3 else 2

theorem level_workspaceRole_le (role : String) :
    permissionLevel (some (workspaceRoleToBoardPermission role)) ≤ roleLevel role := by
  by_cases hviewer : role = "viewer"
  · simp [workspaceRoleToBoardPermission, roleLevel, permissionLevel, hviewer]
  · by_cases hmanager : role = "owner" ∨ role = "admin"
    · simp [workspaceRoleToBoardPermission, roleLevel, permissionLevel, hviewer, hmanager]
    · simp [workspaceRoleToBoardPermission, roleLevel, permissionLevel, hviewer, hmanager]

/-- Whose checks for managing pass, manages. -/
theorem roleLevel_of_manages {role : Option String} (h : canManageBoardAccess role = true) :
    ∃ r, role = some r ∧ roleLevel r = 3 := by
  simp only [canManageBoardAccess, Bool.or_eq_true, beq_iff_eq] at h
  rcases h with rfl | rfl
  · exact ⟨_, rfl, by decide⟩
  · exact ⟨_, rfl, by decide⟩

section bounded
variable (rt : Runtime) (people : String → Prop) (boardId workspaceId : String) (limit : Nat)

def workspaceLevel (grant : WorkspaceGrant) : Nat := roleLevel grant.role

def boardLevel (permission : BoardPermission) : Nat := permissionLevel (some permission)

/-- The user has an address of these people. -/
def IsOneOf (db : Tables) (userId : String) : Prop :=
  ∃ u ∈ db.users, u.id = userId ∧ people ((db.env rt).normalizeEmail u.email)

/-- Neither memberships nor pending invitations let one of these people further into the board than
    `limit`. -/
structure Bounded (db : Tables) : Prop where
  boardMembers : ∀ m ∈ db.boardMembers, m.scopeId = boardId → IsOneOf rt people db m.userId →
    permissionLevel (some m.grant) ≤ limit
  workspaceMembers : ∀ m ∈ db.workspaceMembers, m.scopeId = workspaceId →
    IsOneOf rt people db m.userId → roleLevel m.grant ≤ limit
  boardInvitations : ∀ i ∈ db.boardInvitations, i.scopeId = boardId → i.status = .pending →
    people i.emailLower → permissionLevel (some i.grant) ≤ limit
  workspaceInvitations : ∀ i ∈ db.workspaceInvitations, i.scopeId = workspaceId →
    i.status = .pending → people i.emailLower → roleLevel i.grant.role ≤ limit

/-- The user is let into the board no further than `limit`: neither by the access check, nor by the
    role that the routes ask for before they let somebody manage it. -/
structure HeldWithin (db : Tables) (userId : String) : Prop where
  access : (checkBoardAccess db.access boardId (some userId) none).level ≤ limit
  role : ∀ board role, Access.getBoard db.access boardId = some board →
    roleOf db board.workspaceId userId = some role → roleLevel role ≤ limit

/-- The board, while it exists, is in the workspace. -/
structure Placed (db : Tables) : Prop where
  board : ∀ b ∈ db.boards, b.id = boardId → b.workspaceId = workspaceId
  boardDrawn : rt.Drawn db.drawn boardId
  workspaceDrawn : rt.Drawn db.drawn workspaceId

/-- A write that does not let these people further in. -/
def lets (db : Tables) : Write → Prop
  | .upsertBoardMember b userId permission _ =>
    b = boardId → IsOneOf rt people db userId → permissionLevel (some permission) ≤ limit
  | .updateBoardMemberPermission b memberId permission =>
    b = boardId → ∀ m ∈ db.boardMembers, m.id = memberId → IsOneOf rt people db m.userId →
      permissionLevel (some permission) ≤ limit
  | .insertBoardInvitation b _ email permission _ =>
    b = boardId → people ((db.env rt).normalizeEmail email) →
      permissionLevel (some permission) ≤ limit
  | .insertInvitation wid email role _ _ =>
    wid = workspaceId → people ((db.env rt).normalizeEmail email) → roleLevel role ≤ limit
  | .acceptBoardInvitation invitation userId _ =>
    Found rt db db.boardInvitations invitation userId
  | .acceptInvitation invitation userId _ =>
    Found rt db db.workspaceInvitations invitation userId
  | _ => True

/-- A request of somebody else that lets none of these people further into the board than
    `limit`. -/
def Action.lets (db : Tables) : Action → Prop
  | .postBoardMember b memberUserId permission =>
    b = boardId → permissionLevel (some (orView permission)) ≤ limit ∨
      ∃ u ∈ db.users, u.id = memberUserId ∧ ¬ people ((db.env rt).normalizeEmail u.email)
  | .patchBoardMember b memberId permission =>
    b = boardId → permissionLevel (some permission) ≤ limit ∨
      ∃ m ∈ db.boardMembers, m.id = memberId ∧ ¬ IsOneOf rt people db m.userId
  | .postBoardInvite b email permission _ =>
    b = boardId → permissionLevel (some (orView permission)) ≤ limit ∨
      ¬ people ((db.env rt).normalizeEmail email)
  | .postWorkspaceInvitation wid email role _ =>
    wid = workspaceId → roleLevel (role.getD .viewer).text ≤ limit ∨
      ¬ people ((db.env rt).normalizeEmail email)
  | _ => True

/-- The condition on the requests: what the people themselves request is theirs to choose. -/
def OthersKeepOut {Thread : Type} (s : State Thread) : Label Thread Request → Prop
  | .start _ (.action userId action) =>
    IsOneOf rt people s.store userId ∨ action.lets rt people boardId workspaceId limit s.store
  | _ => True

end bounded

/-! ### The writes -/

section writes
variable {rt : Runtime} {people : String → Prop} {boardId workspaceId : String} {limit : Nat}
  {db db' : Tables}

theorem isOneOf_later (hlater : Later rt db db') {userId : String}
    (h : IsOneOf rt people db userId) : IsOneOf rt people db' userId := by
  obtain ⟨u, hu, hid, hpeople⟩ := h
  exact ⟨u, hlater.users u hu, hid, hpeople⟩

/-- One user has an id, so a user who is there is one of the people now or never. -/
theorem isOneOf_of_later (hs' : Stored rt db') (hlater : Later rt db db') {userId : String}
    (huser : (db.env rt).hasUser userId = true) (h : IsOneOf rt people db' userId) :
    IsOneOf rt people db userId := by
  obtain ⟨u, hu, hid⟩ := List.any_eq_true.mp huser
  obtain ⟨u', hu', hid', hpeople⟩ := h
  have hid := beq_iff_eq.mp hid
  have hone : u' = u := hs'.valid.users.eq_of_clash hu' (hlater.users u hu) <| by
    simp [userConstraints, hid, hid']
  exact ⟨u, hu, hid, hone ▸ hpeople⟩

theorem hasUser_of_boardMember (hs : Stored rt db) {m : MemberRow BoardPermission}
    (hm : m ∈ db.boardMembers) : (db.env rt).hasUser m.userId = true := by
  have href := hs.valid.boardMembers.references m hm
  simp only [memberRowConstraints, boardMemberConstraints, Bool.and_eq_true] at href
  exact href.1.2

theorem hasUser_of_workspaceMember (hs : Stored rt db) {m : MemberRow String}
    (hm : m ∈ db.workspaceMembers) : (db.env rt).hasUser m.userId = true := by
  have href := hs.valid.workspaceMembers.references m hm
  simp only [memberRowConstraints, workspaceMemberConstraints, Bool.and_eq_true] at href
  exact href.1.2

/-- A new user is no member of anything yet. -/
theorem Bounded.withUser {email : String} {users : List User} {accounts : List OauthAccount}
    (hs : Stored rt db) (h : Bounded rt people boardId workspaceId limit db)
    (huser : Table.insert userConstraints (insertedUser rt db email) db.users = .ok users) :
    Bounded rt people boardId workspaceId limit ((db.withUser users).withAccount accounts) := by
  have hold : ∀ userId, (db.env rt).hasUser userId = true →
      IsOneOf rt people ((db.withUser users).withAccount accounts) userId →
      IsOneOf rt people db userId := by
    rintro userId hhas ⟨u', hu', hid', hpeople⟩
    rcases mem_insert huser hu' with hu' | rfl
    · exact ⟨u', hu', hid', hpeople⟩
    · obtain ⟨u, hu, hid⟩ := List.any_eq_true.mp hhas
      have hnew : db.next rt = u.id := hid'.trans (beq_iff_eq.mp hid).symm
      exact absurd (hnew ▸ hs.drawn.users u hu) (Runtime.not_drawn (Nat.le_refl _))
  refine { h with boardMembers := ?_, workspaceMembers := ?_ }
  · intro m hm hscope hone
    exact h.boardMembers m hm hscope (hold _ (hasUser_of_boardMember hs hm) hone)
  · intro m hm hscope hone
    exact h.workspaceMembers m hm hscope (hold _ (hasUser_of_workspaceMember hs hm) hone)

/-- A new workspace is not the one of the board. -/
theorem Bounded.workspaceInserted {name ownerId : String} {workspaces : List Workspace}
    {members : List (MemberRow String)} (h : Bounded rt people boardId workspaceId limit db)
    (hworkspace : rt.Drawn db.drawn workspaceId)
    (hinserted : WorkspaceInserted rt db name ownerId workspaces members) :
    Bounded rt people boardId workspaceId limit
      ((db.withWorkspace workspaces).withWorkspaceMember members) := by
  refine { h with workspaceMembers := ?_ }
  intro m hm hscope hone
  rcases mem_insert hinserted.owner hm with hm | rfl
  · exact h.workspaceMembers m hm hscope hone
  · have hnew : db.next rt = workspaceId := hscope
    exact absurd (hnew ▸ hworkspace) (Runtime.not_drawn (Nat.le_refl _))

/-- Invitations that take another status are as far-reaching as before. -/
theorem StatusSet.bounded {Grant : Type} {c : Constraints (Invitation Grant)}
    {cond : Invitation Grant → Bool} {status : InvitationStatus}
    {before after : List (Invitation Grant)} {scopeId : String} (level : Grant → Nat)
    (hset : StatusSet c cond status before after) (hstatus : status ≠ .pending)
    (h : ∀ i ∈ before, i.scopeId = scopeId → i.status = .pending → people i.emailLower →
      level i.grant ≤ limit) :
    ∀ i ∈ after, i.scopeId = scopeId → i.status = .pending → people i.emailLower →
      level i.grant ≤ limit := by
  intro i' hi' hscope hpending hpeople
  obtain ⟨i, hi, hsame⟩ := hset.sameInvitation hstatus hi'
  rw [hsame.grant]
  exact h i hi (hsame.scopeId ▸ hscope) (hsame.pending hpending) (hsame.emailLower ▸ hpeople)

/-- The invitation that is accepted is pending, and to the people if the user is one of them. -/
theorem Found.exists_pending {Grant : Type} {rows : List (Invitation Grant)}
    {invitation : Invitation Grant} {userId : String} {now : Nat} (hs : Stored rt db)
    (hfound : Found rt db rows invitation userId)
    (hpending : rows.any (acceptable invitation.id now) = true)
    (hone : IsOneOf rt people db userId) :
    ∃ i ∈ rows, SameInvitation invitation i ∧ i.status = .pending ∧ people i.emailLower := by
  obtain ⟨i, hi, hacceptable⟩ := List.any_eq_true.mp hpending
  simp only [acceptable, Bool.and_eq_true, beq_iff_eq] at hacceptable
  have hsame := hfound.same i hi hacceptable.1.1
  obtain ⟨u, hu, hid, hemail⟩ := hfound.addressee
  obtain ⟨u', hu', hid', hpeople⟩ := hone
  have hone : u' = u := hs.valid.users.eq_of_clash hu' hu <| by
    simp [userConstraints, hid, hid']
  refine ⟨i, hi, hsame, hacceptable.1.2, ?_⟩
  rw [hsame.emailLower, ← hemail, ← hone]
  exact hpeople

/-- The row an upsert writes for the key is bounded when its permission is. -/
theorem Bounded.upsertMember {b userId : String} {permission : BoardPermission}
    {set : MemberRow BoardPermission → MemberRow BoardPermission}
    {row : MemberRow BoardPermission} {members : List (MemberRow BoardPermission)}
    (h : Bounded rt people boardId workspaceId limit db)
    (hupsert : Table.upsert (memberRowConstraints (boardMemberConstraints (db.env rt)))
      (memberKey b userId) set row db.boardMembers = .ok members)
    (hrow : row.scopeId = b ∧ row.userId = userId ∧ row.grant = permission)
    (hset : ∀ m, (set m).scopeId = m.scopeId ∧ (set m).userId = m.userId ∧
      (set m).grant = permission)
    (hgrant : b = boardId → IsOneOf rt people db userId →
      permissionLevel (some permission) ≤ limit) :
    Bounded rt people boardId workspaceId limit (db.withBoardMember members) := by
  refine { h with boardMembers := ?_ }
  intro m hm hscope hone
  rcases Table.mem_upsert hupsert hm with ⟨hm, -⟩ | rfl | ⟨m₀, -, hkey, rfl⟩
  · exact h.boardMembers m hm hscope hone
  · obtain ⟨hb, huser, hpermission⟩ := hrow
    rw [hpermission]
    exact hgrant (hb.symm.trans hscope) (huser ▸ hone)
  · obtain ⟨hb, huser, hpermission⟩ := hset m₀
    simp only [memberKey, Bool.and_eq_true, beq_iff_eq] at hkey
    rw [hpermission]
    refine hgrant (hkey.1.symm.trans (hb.symm.trans hscope)) ?_
    rw [← hkey.2, ← huser]
    exact hone

theorem Bounded.ran {write : Write} (hs : Stored rt db)
    (hplaced : Placed rt boardId workspaceId db)
    (h : Bounded rt people boardId workspaceId limit db)
    (hlets : lets rt people boardId workspaceId limit db write) (hran : Ran rt db write db') :
    Bounded rt people boardId workspaceId limit db' := by
  cases hran with
  | createGoogleUser huser haccount hworkspace =>
    exact (h.withUser hs huser).workspaceInserted (hplaced.workspaceDrawn.mono (Nat.le_succ _))
      hworkspace
  | createWorkspace hinserted => exact h.workspaceInserted hplaced.workspaceDrawn hinserted
  | deleteWorkspaceMember =>
    exact { h with
      workspaceMembers := fun m hm => h.workspaceMembers m (Table.mem_delete.mp hm).1 }
  | insertInvitation hinsert =>
    refine { h with workspaceInvitations := ?_ }
    intro i hi hscope hpending hpeople
    rcases mem_insert hinsert hi with hi | rfl
    · exact h.workspaceInvitations i hi hscope hpending hpeople
    · exact hlets hscope hpeople
  | acceptInvitation hpending hrows hmembers =>
    refine { h with
      workspaceInvitations := hrows.bounded workspaceLevel (by decide) h.workspaceInvitations
      workspaceMembers := ?_ }
    intro m hm hscope hone
    rcases Table.mem_insertOrIgnore hmembers hm with hm | rfl
    · exact h.workspaceMembers m hm hscope hone
    · obtain ⟨i, hi, hsame, hstatus, hpeople⟩ := hlets.exists_pending hs hpending hone
      have hlevel := h.workspaceInvitations i hi (hsame.scopeId.trans hscope) hstatus hpeople
      rw [hsame.grant] at hlevel
      exact hlevel
  | declineInvitation hrows =>
    exact { h with
      workspaceInvitations := hrows.bounded workspaceLevel (by decide) h.workspaceInvitations }
  | deleteBoard =>
    exact { h with
      boardMembers := fun m hm => h.boardMembers m (Table.mem_delete.mp hm).1
      boardInvitations := fun i hi => h.boardInvitations i (Table.mem_delete.mp hi).1 }
  | upsertBoardMember hupsert =>
    exact h.upsertMember hupsert ⟨rfl, rfl, rfl⟩ (fun _ => ⟨rfl, rfl, rfl⟩) hlets
  | updateBoardMemberPermission hholds =>
    refine { h with boardMembers := ?_ }
    intro m' hm' hscope hone
    obtain ⟨m, hm, ⟨hselected, rfl⟩ | ⟨-, rfl⟩⟩ := Table.mem_updateRows.mp hm'
    · simp only [Bool.and_eq_true, beq_iff_eq] at hselected
      exact hlets (hselected.2.symm.trans hscope) m hm hselected.1 hone
    · exact h.boardMembers m' hm hscope hone
  | deleteBoardMember =>
    exact { h with boardMembers := fun m hm => h.boardMembers m (Table.mem_delete.mp hm).1 }
  | leaveBoard =>
    exact { h with boardMembers := fun m hm => h.boardMembers m (Table.mem_delete.mp hm).1 }
  | insertBoardInvitation hinsert =>
    refine { h with boardInvitations := ?_ }
    intro i hi hscope hpending hpeople
    rcases mem_insert hinsert hi with hi | rfl
    · exact h.boardInvitations i hi hscope hpending hpeople
    · exact hlets hscope hpeople
  | acceptBoardInvitation hpending hrows hmembers =>
    have hmember : Bounded rt people boardId workspaceId limit (db.withBoardMember _) :=
      h.upsertMember hmembers ⟨rfl, rfl, rfl⟩ (fun _ => ⟨rfl, rfl, rfl⟩) fun hscope hone => by
        obtain ⟨i, hi, hsame, hstatus, hpeople⟩ := hlets.exists_pending hs hpending hone
        have hlevel := h.boardInvitations i hi (hsame.scopeId.trans hscope) hstatus hpeople
        rw [hsame.grant] at hlevel
        exact hlevel
    exact { hmember with
      boardInvitations := hrows.bounded boardLevel (by decide) h.boardInvitations }
  | declineBoardInvitation hrows =>
    exact { h with boardInvitations := hrows.bounded boardLevel (by decide) h.boardInvitations }
  | revokeBoardInvitation hrows =>
    exact { h with boardInvitations := hrows.bounded boardLevel (by decide) h.boardInvitations }
  | insertRefreshToken | renameWorkspace | createBoard | renameBoard | duplicateNothing
  | duplicateBoard | setBoardLinkShare | rotateBoardLinkShareToken | addBoardFavorite
  | removeBoardFavorite =>
    exact { h with }

/-- A board that is not new stays in its workspace. -/
theorem Placed.later (h : Placed rt boardId workspaceId db) (hlater : Later rt db db') :
    Placed rt boardId workspaceId db' where
  board := by
    intro b' hb' hid
    obtain ⟨b, hb, hsame⟩ := hlater.boards b' hb' (hid ▸ h.boardDrawn)
    rw [hsame.workspaceId]
    exact h.board b hb (hsame.id ▸ hid)
  boardDrawn := h.boardDrawn.mono hlater.drawn
  workspaceDrawn := h.workspaceDrawn.mono hlater.drawn

end writes

/-! ### The requests -/

section requests
variable {rt : Runtime} {people : String → Prop} {boardId workspaceId : String} {limit : Nat}
  {db db₀ db₁ db' : Tables}

theorem permissionLevel_le_two (permission : BoardPermission) :
    permissionLevel (some permission) ≤ 2 := permissionLevel_le _

theorem roleLevel_le (role : String) : roleLevel role ≤ 3 := by
  unfold roleLevel
  split
  · omega
  · split <;> omega

/-- One of the people who manages the workspace is let in that far. -/
theorem Bounded.three_le {userId : String} {role : Option String} (hs : Stored rt db)
    (h : Bounded rt people boardId workspaceId limit db) (hone : IsOneOf rt people db userId)
    (hrole : roleOf db workspaceId userId = role) (hmanages : canManageBoardAccess role = true) :
    3 ≤ limit := by
  obtain ⟨r, rfl, hlevel⟩ := roleLevel_of_manages hmanages
  obtain ⟨m, hm, hgrant⟩ := Option.map_eq_some_iff.mp hrole
  obtain ⟨hmem, hscope, huser⟩ := hs.valid.access.workspaceMember_iff.mp hm
  obtain ⟨row, hrow, rfl⟩ := List.mem_map.mp hmem
  have hbound := h.workspaceMembers row hrow hscope (huser ▸ hone)
  rw [hgrant, hlevel] at hbound
  exact hbound

/-- What somebody else requests under the condition lets nobody of the people further in, also
    where it writes later than it was begun. -/
theorem lets_of_action_lets {userId : String} {action : Action} {write : Write}
    (hs : Stored rt db) (hs' : Stored rt db') (hlater : Later rt db db')
    (hlets : action.lets rt people boardId workspaceId limit db)
    (hwrites : action.Writes rt userId db' write) :
    lets rt people boardId workspaceId limit db' write := by
  cases action with
  | acceptWorkspaceInvitation | acceptBoardInvite =>
    obtain ⟨invitation, rfl, hfound⟩ := hwrites
    exact hfound
  | deleteWorkspaceMember =>
    obtain ⟨rfl, -⟩ := hwrites
    trivial
  | declinePendingInvite =>
    obtain ⟨inviteId, rfl | rfl⟩ := hwrites
    · trivial
    · trivial
  | postWorkspaceInvitation =>
    obtain rfl := hwrites
    exact fun hscope hpeople => (hlets hscope).resolve_right fun hnot => hnot hpeople
  | postBoardMember b memberUserId permission =>
    obtain rfl := hwrites
    intro hb hone
    refine (hlets hb).resolve_right ?_
    rintro ⟨u, hu, hid, hnot⟩
    obtain ⟨u', hu', hid', hpeople⟩ := hone
    have hone : u' = u := hs'.valid.users.eq_of_clash hu' (hlater.users u hu) <| by
      simp [userConstraints, hid, hid']
    exact hnot (hone ▸ hpeople)
  | patchBoardMember b memberId permission =>
    obtain rfl := hwrites
    intro hb m' hm' hid' hone
    refine (hlets hb).resolve_right ?_
    rintro ⟨m, hm, hid, hnot⟩
    -- the row with this id is still the same user's
    obtain ⟨m₀, hm₀, hsame⟩ := hlater.boardMembers m' hm'
      (by rw [hid', ← hid]; exact hs.drawn.boardMembers m hm)
    have hrow : m₀ = m := hs.valid.boardMembers.eq_of_clash hm₀ hm <| by
      simp [memberRowConstraints, ← hsame.id, hid', hid]
    rw [hsame.userId, hrow] at hone
    exact hnot (isOneOf_of_later hs' hlater (hasUser_of_boardMember hs hm) hone)
  | postBoardInvite =>
    obtain rfl := hwrites
    exact fun hscope hpeople => (hlets hscope).resolve_right fun hnot => hnot hpeople
  | _ =>
    obtain rfl := hwrites
    trivial

/-- Whose managing check has passed for the board or the workspace is let in that far; the other
    requests of the people let nobody in. -/
theorem lets_of_isOneOf {userId : String} {action : Action} {write : Write}
    (hc : Checked rt (fun db => Placed rt boardId workspaceId db ∧
      Bounded rt people boardId workspaceId limit db) db db₀ db₁ db')
    (hone : IsOneOf rt people db userId) (hpassed : action.Passed userId db₀ db₁)
    (hwrites : action.Writes rt userId db' write) :
    lets rt people boardId workspaceId limit db' write := by
  have hone₁ := isOneOf_later hc.checked (isOneOf_later hc.began hone)
  have hboard {b : String} (hb : b = boardId)
      (hpassed : BoardRole canManageBoardAccess b userId db₀ db₁) : 3 ≤ limit := by
    obtain ⟨board, hboard, hrole⟩ := hpassed
    obtain ⟨hmem, hid⟩ := hc.stored₀.valid.access.getBoard_iff.mp hboard
    have hplace := hc.inv₀.1.board board hmem (hid.trans hb)
    exact hc.inv₁.2.three_le hc.stored₁ hone₁ rfl (hplace ▸ hrole)
  cases action with
  | postWorkspaceInvitation wid email role now =>
    obtain rfl := hwrites
    intro hwid hpeople
    have hlimit := hc.inv₁.2.three_le hc.stored₁ hone₁ rfl (hwid ▸ hpassed)
    exact Nat.le_trans (roleLevel_le _) hlimit
  | postBoardMember b memberUserId permission =>
    obtain rfl := hwrites
    intro hb _
    exact Nat.le_trans (permissionLevel_le_two _) (Nat.le_of_succ_le (hboard hb hpassed))
  | patchBoardMember b memberId permission =>
    obtain rfl := hwrites
    intro hb m _ _ _
    exact Nat.le_trans (permissionLevel_le_two _) (Nat.le_of_succ_le (hboard hb hpassed))
  | postBoardInvite b email permission now =>
    obtain rfl := hwrites
    intro hb _
    exact Nat.le_trans (permissionLevel_le_two _) (Nat.le_of_succ_le (hboard hb hpassed))
  | acceptWorkspaceInvitation | acceptBoardInvite =>
    obtain ⟨invitation, rfl, hfound⟩ := hwrites
    exact hfound
  | deleteWorkspaceMember =>
    obtain ⟨rfl, -⟩ := hwrites
    trivial
  | declinePendingInvite =>
    obtain ⟨inviteId, rfl | rfl⟩ := hwrites
    · trivial
    · trivial
  | _ =>
    obtain rfl := hwrites
    trivial

/-- What is asked for keeps these people out, by whoever asks. -/
theorem obeys_of_keepOut {request : Request} (hs : Stored rt db)
    (hC : ∀ userId action, request = .action userId action →
      IsOneOf rt people db userId ∨ action.lets rt people boardId workspaceId limit db) :
    Obeys rt (fun db => Placed rt boardId workspaceId db ∧
        Bounded rt people boardId workspaceId limit db)
      (lets rt people boardId workspaceId limit) (handle rt request) db := by
  refine Obeys.handle ?_ ?_
  · rintro userId action hrequest db₀ db₁ db' write hc hpassed hwrites
    rcases hC userId action hrequest with hone | hlets
    · exact lets_of_isOneOf hc hone hpassed hwrites
    · exact lets_of_action_lets hs hc.stored ((hc.began.trans hc.checked).trans hc.later) hlets
        hwrites
  · intro db' write _ _ hlogin
    cases hlogin <;> trivial

theorem boardMember_row {userId : String} {permission : BoardPermission} (hs : Stored rt db)
    (h : getBoardMemberPermission db.access boardId userId = some permission) :
    ∃ m ∈ db.boardMembers, m.scopeId = boardId ∧ m.userId = userId ∧ m.grant = permission := by
  obtain ⟨m, hm, rfl⟩ := Option.map_eq_some_iff.mp h
  obtain ⟨hmem, hscope, huser⟩ := hs.valid.access.boardMember_iff.mp hm
  obtain ⟨row, hrow, rfl⟩ := List.mem_map.mp hmem
  exact ⟨row, hrow, hscope, huser, rfl⟩

theorem workspaceMember_row {userId : String} {permission : BoardPermission} (hs : Stored rt db)
    (h : getWorkspaceBoardMembershipPermission db.access workspaceId userId = some permission) :
    ∃ m ∈ db.workspaceMembers, m.scopeId = workspaceId ∧ m.userId = userId ∧
      workspaceRoleToBoardPermission m.grant = permission := by
  obtain ⟨m, hm, rfl⟩ := Option.map_eq_some_iff.mp h
  obtain ⟨hmem, hscope, huser⟩ := hs.valid.access.workspaceMember_iff.mp hm
  obtain ⟨row, hrow, rfl⟩ := List.mem_map.mp hmem
  exact ⟨row, hrow, hscope, huser, rfl⟩

/-- The role of one of these people comes to no more than the limit. -/
theorem Bounded.role_le (h : Bounded rt people boardId workspaceId limit db)
    {m : MemberRow String} (hm : m ∈ db.workspaceMembers) (hscope : m.scopeId = workspaceId)
    (hone : IsOneOf rt people db m.userId) :
    permissionLevel (some (workspaceRoleToBoardPermission m.grant)) ≤ limit :=
  Nat.le_trans (level_workspaceRole_le _) (h.workspaceMembers m hm hscope hone)

/-- The bound is a bound on what the access check answers. -/
theorem Bounded.checkBoardAccess_le {u : User} (hs : Stored rt db)
    (hplaced : Placed rt boardId workspaceId db)
    (h : Bounded rt people boardId workspaceId limit db) (hu : u ∈ db.users)
    (hpeople : people ((db.env rt).normalizeEmail u.email)) :
    (checkBoardAccess db.access boardId (some u.id) none).level ≤ limit := by
  have haccess := hs.valid.access
  have hone : IsOneOf rt people db u.id := ⟨u, hu, rfl, hpeople⟩
  rw [haccess.checkBoardAccess_held, BoardAccess.level, BoardAccess.permission_ofPermission]
  cases hheld : heldPermission db.access boardId u.id with
  | none => exact Nat.zero_le _
  | some permission =>
    obtain ⟨board, hboard, hor⟩ := Option.bind_eq_some_iff.mp hheld
    obtain ⟨hmem, hid⟩ := haccess.getBoard_iff.mp hboard
    rcases Option.or_eq_some_iff.mp hor with hdirect | ⟨-, hworkspace⟩
    · obtain ⟨m, hm, hscope, huser, rfl⟩ := boardMember_row hs hdirect
      exact h.boardMembers m hm hscope (huser ▸ hone)
    · obtain ⟨m, hm, hscope, huser, rfl⟩ := workspaceMember_row hs hworkspace
      exact h.role_le hm (hscope.trans (hplaced.board board hmem hid)) (huser ▸ hone)

theorem Bounded.heldWithin {u : User} (hs : Stored rt db)
    (hplaced : Placed rt boardId workspaceId db)
    (h : Bounded rt people boardId workspaceId limit db) (hu : u ∈ db.users)
    (hpeople : people ((db.env rt).normalizeEmail u.email)) :
    HeldWithin boardId limit db u.id where
  access := h.checkBoardAccess_le hs hplaced hu hpeople
  role := by
    intro board role hboard hrole
    obtain ⟨hmem, hid⟩ := hs.valid.access.getBoard_iff.mp hboard
    obtain ⟨m, hm, rfl⟩ := Option.map_eq_some_iff.mp hrole
    obtain ⟨hmember, hscope, huser⟩ := hs.valid.access.workspaceMember_iff.mp hm
    obtain ⟨row, hrow, rfl⟩ := List.mem_map.mp hmember
    exact h.workspaceMembers row hrow (hscope.trans (hplaced.board board hmem hid))
      (huser ▸ ⟨u, hu, rfl, hpeople⟩)

end requests

section system
variable {Thread : Type} [DecidableEq Thread] {rt : Runtime} {people : String → Prop}
  {boardId workspaceId : String} {limit : Nat} {s : State Thread}

/-- The board exists, and its tables let none of the people further in than `limit`. -/
structure KeptOut (rt : Runtime) (people : String → Prop) (boardId workspaceId : String)
    (limit : Nat) (db : Tables) : Prop where
  board : ∃ b ∈ db.boards, b.id = boardId ∧ b.workspaceId = workspaceId
  bounded : Bounded rt people boardId workspaceId limit db

theorem Placed.of_stored (hs : Stored rt db)
    (h : ∃ b ∈ db.boards, b.id = boardId ∧ b.workspaceId = workspaceId) :
    Placed rt boardId workspaceId db := by
  obtain ⟨b, hb, rfl, rfl⟩ := h
  refine ⟨?_, hs.drawn.boards b hb, ?_⟩
  · intro b' hb' hid
    have hone : b' = b := hs.valid.boards.eq_of_clash hb' hb <| by simp [boardConstraints, hid]
    rw [hone]
  · have href : (db.env rt).workspaces.contains b.workspaceId = true :=
      hs.valid.boards.references b hb
    obtain ⟨w, hw, hid⟩ := List.mem_map.mp (List.contains_iff_mem.mp href)
    exact hid ▸ hs.drawn.workspaces w hw

/-- Whatever these people request, in whatever order the statements of all requests run: as long
    as nobody else lets one of them further in, none of them gets further into the board. -/
theorem access_confined
    (h : (system Thread rt (KeptOut rt people boardId workspaceId limit)).ReachableUnder
      (OthersKeepOut rt people boardId workspaceId limit) s) :
    ∀ u ∈ s.store.users, people ((s.store.env rt).normalizeEmail u.email) →
      HeldWithin boardId limit s.store u.id := by
  have hinv : Stored rt s.store ∧ Placed rt boardId workspaceId s.store ∧
      Bounded rt people boardId workspaceId limit s.store := by
    refine invariant_of_reachableUnder
      (I := fun db => Placed rt boardId workspaceId db ∧
        Bounded rt people boardId workspaceId limit db)
      (lets rt people boardId workspaceId limit) ?_ ?_ ?_ h
    · rintro db write db' hs ⟨hplaced, hbounded⟩ hlets hran
      exact ⟨hplaced.later (Later.ran hran), hbounded.ran hs hplaced hlets hran⟩
    · intro s t request hC hs _ _
      refine obeys_of_keepOut hs ?_
      rintro userId action rfl
      exact hC
    · intro db hs hstart
      exact ⟨.of_stored hs hstart.board, hstart.bounded⟩
  exact fun u hu hpeople => hinv.2.2.heldWithin hinv.1 hinv.2.1 hu hpeople

end system

theorem keptOut_guestTables :
    KeptOut .counting (· = "guest") (Runtime.counting.random 4) (Runtime.counting.random 2) 1
      guestTables := by
  refine ⟨by decide, ?_⟩
  constructor
  · intro m hm _ _
    obtain rfl := List.mem_singleton.mp hm
    decide
  · -- the only member of the workspace is its owner
    intro m hm _ hone
    obtain rfl := List.mem_singleton.mp hm
    obtain ⟨u, hu, hid, hguest⟩ := hone
    revert u
    decide
  · nofun
  · nofun

/-- A guest who may view a board asks to be one of its editors. -/
theorem access_confined_guest :
    let r := Runtime.counting.random
    ∃ s : State Unit, (system Unit .counting fun _ => True).exec (idle guestTables)
      [.start () (.action (r 1) (.postBoardMember (r 4) (r 1) (some .edit))), .resume (),
        .resume ()] = some s ∧
      ∀ u ∈ s.store.users, u.email = "guest" → HeldWithin (r 4) 1 s.store u.id := by
  intro r
  let C : State Unit → Label Unit Request → Prop :=
    OthersKeepOut .counting (· = "guest") (r 4) (r 2) 1
  have hasked : C (idle guestTables)
      (.start () (.action (r 1) (.postBoardMember (r 4) (r 1) (some .edit)))) :=
    .inl ⟨{ id := r 1, email := "guest" }, by decide, rfl, rfl⟩
  have hresumed (s : State Unit) : C s (.resume ()) := trivial
  have hstart : (system Unit .counting
      (KeptOut .counting (· = "guest") (r 4) (r 2) 1)).ReachableUnder C (idle guestTables) :=
    .init ⟨⟨stored_guestTables, keptOut_guestTables⟩, fun _ => rfl⟩
  have hbegun := hstart.step _ hasked rfl
  have hboard := hbegun.step _ (hresumed _) rfl
  have hrole := hboard.step _ (hresumed _) rfl
  exact ⟨_, rfl, fun u hu hguest => access_confined hrole u hu hguest⟩

end Notebortt.Requests
