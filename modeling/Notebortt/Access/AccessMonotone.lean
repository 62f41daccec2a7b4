import Notebortt.Access.ReadPaths
import Notebortt.Invitations.PendingInvitations

/-! # What a token and an accepted invitation do to the access of a user

    A link token is looked at before the memberships, and an accepted board
    invitation overwrites the row of the member. -/

open Table (Constraints)

namespace Notebortt.Access

open Invitations

/-! ### The order of permissions -/

/-- None, `view`, `edit`. -/
def permissionLevel : Option BoardPermission → Nat
  | none => 0
  | some .view => 1
  | some .edit => 2

def BoardAccess.level (access : BoardAccess) : Nat := permissionLevel access.permission

theorem permissionLevel_le (p : Option BoardPermission) : permissionLevel p ≤ 2 := by
  unfold permissionLevel
  split <;> omega

/-- Only who holds `edit` loses by being granted something. -/
theorem permissionLevel_le_iff (p : Option BoardPermission) (q : BoardPermission) :
    permissionLevel p ≤ permissionLevel (some q) ↔ ¬ (q = .view ∧ p = some .edit) := by
  cases q with
  | edit => exact iff_of_true (permissionLevel_le p) fun h => by cases h.1
  | view =>
    cases p with
    | none => exact iff_of_true (Nat.zero_le _) fun h => by cases h.2
    | some p => cases p <;> decide

/-- The rows of a user from which `edit` follows: the direct one, or without it the one in the
    workspace. -/
def HoldsEdit (db : AccessDb) (userId boardId : String) : Prop :=
  (∃ m ∈ db.boardMembers, m.scopeId = boardId ∧ m.userId = userId ∧ m.grant = .edit) ∨
    (∀ m ∈ db.boardMembers, m.scopeId = boardId → m.userId ≠ userId) ∧
      ∃ board ∈ db.boards, board.id = boardId ∧ ∃ w ∈ db.workspaceMembers,
        w.scopeId = board.workspaceId ∧ w.userId = userId ∧ w.grant ≠ "viewer"

/-- The view link of the board, enabled, with this token. -/
def IsViewLink (db : AccessDb) (boardId token : String) : Prop :=
  ∃ board ∈ db.boards, board.id = boardId ∧ board.linkShareViewEnabled = true ∧
    board.linkShareViewToken = some token ∧ token ≠ ""

/-- The invitation with this token is a view invitation. -/
def IsViewInvitation (db : AccessDb) (boardId token : String) : Prop :=
  ∃ i ∈ db.boardInvitations, i.token = token ∧ i.scopeId = boardId ∧ i.grant = .view

section
variable {env : Env} {db : AccessDb} (h : db.Valid env) (userId boardId : String)

include h

/-- A member row is of a board there is. -/
theorem AccessDb.Valid.exists_getBoard (hboard : env.boards.contains boardId = true) :
    ∃ board, getBoard db boardId = some board := by
  rw [h.boardIds, List.contains_iff_mem] at hboard
  obtain ⟨board, hmem, hid⟩ := List.mem_map.mp hboard
  exact ⟨board, h.getBoard_iff.mpr ⟨hmem, hid⟩⟩

theorem AccessDb.Valid.getBoard_of_boardMember {m : BoardMember} (hm : m ∈ db.boardMembers) :
    ∃ board, getBoard db m.scopeId = some board := by
  have href := h.boardMembers.references m hm
  simp only [boardMemberConstraints, Bool.and_eq_true] at href
  exact h.exists_getBoard _ href.1.1

omit h in
theorem memberOf_boardMembers_eq_none_iff :
    memberOf db.boardMembers boardId userId = none ↔
      ∀ m ∈ db.boardMembers, m.scopeId = boardId → m.userId ≠ userId := by
  simp [memberOf]

theorem AccessDb.Valid.holdsEdit_iff :
    HoldsEdit db userId boardId ↔ heldPermission db boardId userId = some .edit := by
  constructor
  · rintro (⟨m, hm, rfl, huser, hgrant⟩ | ⟨hnone, board, hboard, hid, w, hw, hscope, huser, hrole⟩)
    · obtain ⟨board, hboard⟩ := h.getBoard_of_boardMember hm
      rw [heldPermission, hboard, Option.bind_some, getBoardMemberPermission,
        h.boardMember_iff.mpr ⟨hm, rfl, huser⟩, Option.map_some, hgrant]
      rfl
    · rw [heldPermission, h.getBoard_iff.mpr ⟨hboard, hid⟩, Option.bind_some,
        getBoardMemberPermission, (memberOf_boardMembers_eq_none_iff userId boardId).mpr hnone,
          Option.map_none, Option.none_or, getWorkspaceBoardMembershipPermission,
        h.workspaceMember_iff.mpr ⟨hw, hscope, huser⟩, Option.map_some,
        workspaceRoleToBoardPermission, if_neg hrole]
  · intro hheld
    obtain ⟨board, hboard, hor⟩ := Option.bind_eq_some_iff.mp hheld
    obtain ⟨hmem, hid⟩ := h.getBoard_iff.mp hboard
    rcases Option.or_eq_some_iff.mp hor with hdirect | ⟨hnone, hworkspace⟩
    · obtain ⟨m, hm, hgrant⟩ := Option.map_eq_some_iff.mp hdirect
      obtain ⟨hm, hscope, huser⟩ := h.boardMember_iff.mp hm
      exact .inl ⟨m, hm, hscope, huser, hgrant⟩
    · obtain ⟨w, hw, hgrant⟩ := Option.map_eq_some_iff.mp hworkspace
      obtain ⟨hw, hscope, huser⟩ := h.workspaceMember_iff.mp hw
      refine .inr ⟨(memberOf_boardMembers_eq_none_iff userId boardId).mp
        (Option.map_eq_none_iff.mp hnone), board, hmem, hid, w, hw, hscope, huser, ?_⟩
      intro hviewer
      rw [hviewer] at hgrant
      cases hgrant

/-! ### Link tokens -/

omit h in
/-- A token that is no link of the board changes nothing. -/
theorem checkBoardAccess_token {board : Board} (hboard : getBoard db boardId = some board)
    (token : String) :
    checkBoardAccess db boardId (some userId) (some token) =
      if given (some token) && board.linkShareViewEnabled &&
          board.linkShareViewToken == some token then granted .view
      else if given (some token) && board.linkShareEditEnabled &&
          board.linkShareEditToken == some token then granted .edit
      else checkBoardAccess db boardId (some userId) none := by
  simp only [checkBoardAccess, hboard]
  rfl

/-- A token lowers the access exactly when it is the view link's and the user holds `edit`. -/
theorem AccessDb.Valid.token_monotone_iff (token : String) :
    (checkBoardAccess db boardId (some userId) none).level ≤
        (checkBoardAccess db boardId (some userId) (some token)).level ↔
      ¬ (IsViewLink db boardId token ∧ HoldsEdit db userId boardId) := by
  cases hboard : getBoard db boardId with
  | none =>
    refine iff_of_true ?_ ?_
    · simp [checkBoardAccess, hboard]
    · rintro ⟨⟨board, hmem, hid, -⟩, -⟩
      rw [h.getBoard_iff.mpr ⟨hmem, hid⟩] at hboard
      cases hboard
  | some board =>
    obtain ⟨hmem, hid⟩ := h.getBoard_iff.mp hboard
    have hlink : IsViewLink db boardId token ↔
        (given (some token) && board.linkShareViewEnabled &&
          board.linkShareViewToken == some token) = true := by
      simp only [Bool.and_eq_true, given, Option.any_some, bne_iff_ne, beq_iff_eq]
      constructor
      · rintro ⟨board', hmem', hid', henabled, htoken, hne⟩
        obtain rfl := Option.some.inj (hboard.symm.trans (h.getBoard_iff.mpr ⟨hmem', hid'⟩))
        exact ⟨⟨hne, henabled⟩, htoken⟩
      · rintro ⟨⟨hne, henabled⟩, htoken⟩
        exact ⟨board, hmem, hid, henabled, htoken, hne⟩
    rw [h.holdsEdit_iff, hlink, checkBoardAccess_token userId boardId hboard,
      h.checkBoardAccess_held]
    split
    · next hview =>
      -- the view link is looked at first
      show permissionLevel (BoardAccess.permission _) ≤ permissionLevel (some .view) ↔ _
      rw [BoardAccess.permission_ofPermission, permissionLevel_le_iff]
      simp [hview]
    · next hview =>
      refine iff_of_true ?_ fun hboth => hview hboth.1
      split
      · exact permissionLevel_le _
      · exact Nat.le_refl _

/-! ### Accepted board invitations -/

/-- The member rows of one user in the other boards stay. -/
theorem memberOf_upsert_ne {members : List BoardMember} {i : BoardInvitation}
    (hupsert : upsertBoardMember env i userId db.boardMembers = .ok members)
    (hne : boardId ≠ i.scopeId) :
    memberOf members boardId userId = memberOf db.boardMembers boardId userId := by
  have hok := liftDb_eq_ok_iff.mp hupsert
  have hholds : (boardMemberConstraints env).Holds members := h.boardMembers.upsert hok
  have hclash : ∀ m m' : BoardMember, m.scopeId = m'.scopeId → m.userId = m'.userId →
      (boardMemberConstraints env).clash m m' = true := by
    intro m m' hscope huser
    simp [boardMemberConstraints, hscope, huser]
  apply Option.ext
  intro m
  rw [memberOf_eq_some_iff hholds hclash, h.boardMember_iff]
  constructor
  · rintro ⟨hm, hscope, huser⟩
    rcases Table.mem_upsert hok hm with ⟨hm, -⟩ | rfl | ⟨m₀, -, htarget, rfl⟩
    · exact ⟨hm, hscope, huser⟩
    · exact absurd hscope.symm hne
    · simp only [Bool.and_eq_true, beq_iff_eq] at htarget
      exact absurd (hscope.symm.trans htarget.1) hne
  · rintro ⟨hm, hscope, huser⟩
    have hm' := Table.mem_of_upsert hok hm
    have htarget : ¬ (m.scopeId == i.scopeId && m.userId == userId) = true := by
      simp [hscope, hne]
    rw [if_neg htarget] at hm'
    exact ⟨hm', hscope, huser⟩

omit h in
/-- The member row of the user in the board of the invitation carries its permission. -/
theorem getBoardMemberPermission_upsert {members : List BoardMember} {i : BoardInvitation}
    (hupsert : upsertBoardMember env i userId db.boardMembers = .ok members) :
    (memberOf members i.scopeId userId).map (·.grant) = some i.grant := by
  refine Table.map_find?_upsert (fun m : BoardMember => m.grant) ?_ ?_ (liftDb_eq_ok_iff.mp hupsert)
  · intro m htarget
    exact ⟨htarget, rfl⟩
  · exact ⟨by simp, rfl⟩

theorem AccessDb.Valid.accept {db' : Db} {token : String} {now : Nat}
    (haccept : acceptBoardInvitationByToken env token userId now db.toDb = .ok db') :
    AccessDb.Valid env { db with toDb := db' } := by
  obtain ⟨email, i, rows, members, -, -, hset, hmembers, rfl⟩ := accept_eq_ok haccept
  obtain ⟨hrows, hrows'⟩ := setStatus_eq_ok_iff.mp hset
  exact { h with
    boardMembers := h.boardMembers.upsert (liftDb_eq_ok_iff.mp hmembers)
    boardInvitations := by
      show (boardInvitationConstraints env).Holds rows
      rw [hrows']
      exact hrows }

/-- An accepted board invitation lowers the access to some board exactly when it is a view
    invitation to a board in which the user holds `edit`. -/
theorem AccessDb.Valid.accept_monotone_iff {db' : Db} {token : String} {now : Nat}
    (haccept : acceptBoardInvitationByToken env token userId now db.toDb = .ok db') :
    (∀ boardId, (checkBoardAccess db boardId (some userId) none).level ≤
        (checkBoardAccess { db with toDb := db' } boardId (some userId) none).level) ↔
      ∀ boardId, ¬ (IsViewInvitation db boardId token ∧ HoldsEdit db userId boardId) := by
  have hvalid' := h.accept userId haccept
  obtain ⟨email, i, rows, members, -, hfound, -, hmembers, rfl⟩ := accept_eq_ok haccept
  obtain ⟨hi, rfl, -⟩ := findByToken_eq_some hfound
  refine forall_congr' fun boardId => ?_
  rw [h.checkBoardAccess_held, hvalid'.checkBoardAccess_held, h.holdsEdit_iff]
  simp only [BoardAccess.level, BoardAccess.permission_ofPermission]
  have hview : IsViewInvitation db boardId i.token ↔ i.scopeId = boardId ∧ i.grant = .view := by
    constructor
    · rintro ⟨j, hj, htoken, hscope, hgrant⟩
      obtain rfl := eq_of_token h.boardInvitations hi hj htoken
      exact ⟨hscope, hgrant⟩
    · rintro ⟨hscope, hgrant⟩
      exact ⟨i, hi, rfl, hscope, hgrant⟩
  rw [hview]
  by_cases hboard : i.scopeId = boardId
  · subst hboard
    have hreferences := h.boardInvitations.references i hi
    simp only [boardInvitationConstraints, invitationConstraints, Bool.and_eq_true] at hreferences
    obtain ⟨board, hboard⟩ := h.exists_getBoard _ hreferences.1
    -- the row of the invitation is now the direct row, and goes first
    have hafter : heldPermission
        { db with boardInvitations := rows, boardMembers := members } i.scopeId userId =
          some i.grant := by
      show (getBoard db i.scopeId).bind _ = some i.grant
      rw [hboard, Option.bind_some]
      show ((memberOf members i.scopeId userId).map (·.grant)).or _ = some i.grant
      rw [getBoardMemberPermission_upsert userId hmembers]
      rfl
    rw [hafter, permissionLevel_le_iff]
    simp
  · have hsame : heldPermission
        { db with boardInvitations := rows, boardMembers := members } boardId userId =
          heldPermission db boardId userId := by
      simp only [heldPermission, getBoard, getBoardMemberPermission,
        getWorkspaceBoardMembershipPermission,
        memberOf_upsert_ne h userId boardId hmembers (fun heq => hboard heq.symm)]
    rw [hsame]
    exact iff_of_true (Nat.le_refl _) fun hboth => hboard hboth.1.1

/-! ### Accepted workspace invitations -/

omit h in
/-- A member row there is stays. -/
theorem memberOf_insertWorkspaceMember {members : List WorkspaceMember} {i : WorkspaceInvitation}
    (hinsert : insertWorkspaceMember env i userId db.workspaceMembers = .ok members)
    {workspaceId : String} {w : WorkspaceMember}
    (hw : memberOf db.workspaceMembers workspaceId userId = some w) :
    memberOf members workspaceId userId = some w := by
  have hok := liftDb_eq_ok_iff.mp hinsert
  rw [Table.insertOrIgnore] at hok
  split at hok
  · rw [← Except.ok.inj hok]
    exact hw
  · obtain ⟨-, -, -, rfl⟩ := Table.insert_eq_ok_iff.mp hok
    rw [memberOf] at hw ⊢
    rw [List.find?_append, hw]
    rfl

theorem AccessDb.Valid.acceptWorkspace {db' : Db} {token : String} {now : Nat}
    (haccept : acceptInvitation env token userId now db.toDb = .ok db') :
    AccessDb.Valid env { db with toDb := db' } := by
  obtain ⟨email, i, rows, members, -, -, -, hset, hmembers, rfl⟩ := acceptWorkspace_eq_ok haccept
  obtain ⟨hrows, hrows'⟩ := setStatus_eq_ok_iff.mp hset
  exact { h with
    workspaceMembers := h.workspaceMembers.insertOrIgnore (liftDb_eq_ok_iff.mp hmembers)
    workspaceInvitations := by
      show (workspaceInvitationConstraints env).Holds rows
      rw [hrows']
      exact hrows }

theorem AccessDb.Valid.acceptWorkspace_monotone {db' : Db} {token : String} {now : Nat}
    (haccept : acceptInvitation env token userId now db.toDb = .ok db') :
    (checkBoardAccess db boardId (some userId) none).level ≤
      (checkBoardAccess { db with toDb := db' } boardId (some userId) none).level := by
  have hvalid' := h.acceptWorkspace userId haccept
  obtain ⟨email, i, rows, members, -, -, -, -, hmembers, rfl⟩ := acceptWorkspace_eq_ok haccept
  rw [h.checkBoardAccess_held, hvalid'.checkBoardAccess_held]
  simp only [BoardAccess.level, BoardAccess.permission_ofPermission]
  cases hheld : heldPermission db boardId userId with
  | none => exact Nat.zero_le _
  | some p =>
    -- what was held before is held by the same row
    obtain ⟨board, hboard, hor⟩ := Option.bind_eq_some_iff.mp hheld
    have hafter : heldPermission
        { db with workspaceInvitations := rows, workspaceMembers := members } boardId userId =
          some p := by
      show (getBoard db boardId).bind _ = some p
      rw [hboard, Option.bind_some]
      rcases Option.or_eq_some_iff.mp hor with hdirect | ⟨hnone, hworkspace⟩
      · exact Option.or_eq_some_iff.mpr (.inl hdirect)
      · obtain ⟨w, hw, hgrant⟩ := Option.map_eq_some_iff.mp hworkspace
        refine Option.or_eq_some_iff.mpr (.inr ⟨hnone, ?_⟩)
        show (memberOf members board.workspaceId userId).map _ = some p
        rw [memberOf_insertWorkspaceMember userId hmembers hw]
        exact congrArg some hgrant
    exact Nat.le_of_eq (by rw [hafter])

/-- Access is monotone in what a user is given, except for the user who holds `edit` in a board: by
    its view link, and by accepting a view invitation to it. -/
theorem AccessDb.Valid.access_monotone_iff :
    (∀ boardId token,
      (checkBoardAccess db boardId (some userId) none).level ≤
          (checkBoardAccess db boardId (some userId) (some token)).level ↔
        ¬ (IsViewLink db boardId token ∧ HoldsEdit db userId boardId)) ∧
    (∀ token now db', acceptBoardInvitationByToken env token userId now db.toDb = .ok db' →
      ((∀ boardId, (checkBoardAccess db boardId (some userId) none).level ≤
          (checkBoardAccess { db with toDb := db' } boardId (some userId) none).level) ↔
        ∀ boardId, ¬ (IsViewInvitation db boardId token ∧ HoldsEdit db userId boardId))) ∧
    ∀ token now db', acceptInvitation env token userId now db.toDb = .ok db' →
      ∀ boardId, (checkBoardAccess db boardId (some userId) none).level ≤
        (checkBoardAccess { db with toDb := db' } boardId (some userId) none).level := by
  refine ⟨?_, ?_, ?_⟩
  · intro boardId token
    exact h.token_monotone_iff userId boardId token
  · intro token now db' haccept
    exact h.accept_monotone_iff userId haccept
  · intro token now db' haccept boardId
    exact h.acceptWorkspace_monotone userId boardId haccept

end

/-! ### A link and an invitation -/

/-- The example board with an invitation of its member. -/
def invitedDb (role : String) (held invited : BoardPermission) : AccessDb :=
  { exampleDb role held with
    boardInvitations :=
      [{ id := "i", scopeId := "plan", invitedBy := "ada", emailLower := "ada@example.org"
         grant := invited, status := .pending, token := "letter", expiresAt := 9 }] }

/-- An editor is left with `view` by the view link, and by accepting a view invitation. -/
theorem editor_loses_by_view_grants :
    (invitedDb "editor" .edit .view).Valid exampleEnv ∧
      checkBoardAccess (invitedDb "editor" .edit .view) "plan" (some "ada") none = granted .edit ∧
      checkBoardAccess (invitedDb "editor" .edit .view) "plan" (some "ada") (some "link") =
        granted .view ∧
      ∃ db', acceptBoardInvitationByToken exampleEnv "letter" "ada" 0
          (invitedDb "editor" .edit .view).toDb = .ok db' ∧
        checkBoardAccess { invitedDb "editor" .edit .view with toDb := db' } "plan"
          (some "ada") none =
          granted .view :=
  ⟨by decide, by decide, by decide, _, rfl, by decide⟩

/-- A viewer loses nothing by the view link or by an edit invitation. -/
theorem viewer_keeps_access :
    (checkBoardAccess (invitedDb "viewer" .view .edit) "plan" (some "ada") none).level ≤
        (checkBoardAccess (invitedDb "viewer" .view .edit) "plan" (some "ada")
          (some "link")).level ∧
      ∃ db', acceptBoardInvitationByToken exampleEnv "letter" "ada" 0
          (invitedDb "viewer" .view .edit).toDb = .ok db' ∧
        ∀ boardId,
          (checkBoardAccess (invitedDb "viewer" .view .edit) boardId (some "ada") none).level ≤
          (checkBoardAccess { invitedDb "viewer" .view .edit with toDb := db' } boardId (some "ada")
            none).level := by
  have hvalid : (invitedDb "viewer" .view .edit).Valid exampleEnv := by decide
  have hmonotone := hvalid.access_monotone_iff "ada"
  refine ⟨(hmonotone.1 "plan" "link").mpr ?_, _, rfl, (hmonotone.2.1 "letter" 0 _ rfl).mpr ?_⟩
  · unfold IsViewLink HoldsEdit
    decide
  · rintro boardId ⟨⟨i, hi, -, -, hgrant⟩, -⟩
    rw [List.mem_singleton.mp hi] at hgrant
    cases hgrant

end Notebortt.Access
