import Notebortt.Access.BoardAccess

/-! # The two readers of the membership tables

    `checkBoardAccess` asks for the direct membership first, and
    `listAccessibleBoards` for the workspace's. -/

namespace Notebortt.Access

open Invitations

/-! ### What a user holds -/

/-- The permission a user holds in a board without a token: of the direct row, else of the role in
    the workspace. -/
def heldPermission (db : AccessDb) (boardId userId : String) : Option BoardPermission :=
  (getBoard db boardId).bind fun board =>
    (getBoardMemberPermission db boardId userId).or
      (getWorkspaceBoardMembershipPermission db board.workspaceId userId)

def BoardAccess.ofPermission : Option BoardPermission → BoardAccess
  | none => noAccess
  | some permission => granted permission

@[simp] theorem BoardAccess.permission_ofPermission (p : Option BoardPermission) :
    (BoardAccess.ofPermission p).permission = p := by
  cases p <;> rfl

@[simp] theorem BoardAccess.hasAccess_ofPermission (p : Option BoardPermission) :
    (BoardAccess.ofPermission p).hasAccess = p.isSome := by
  cases p <;> rfl

section
variable {env : Env} {db : AccessDb} (h : db.Valid env) (boardId userId : String)

include h

theorem AccessDb.Valid.heldPermission_empty : heldPermission db boardId "" = none := by
  have hdirect : getBoardMemberPermission db boardId "" = none := by
    rw [getBoardMemberPermission, Option.map_eq_none_iff]
    by_contra hsome
    obtain ⟨m, hm⟩ := Option.ne_none_iff_exists'.mp hsome
    obtain ⟨hmem, -, huser⟩ := memberOf_some hm
    exact h.userId_of_boardMember hmem huser
  have hworkspace : ∀ workspaceId, getWorkspaceBoardMembershipPermission db workspaceId "" =
      none := by
    intro workspaceId
    rw [getWorkspaceBoardMembershipPermission, Option.map_eq_none_iff]
    by_contra hsome
    obtain ⟨m, hm⟩ := Option.ne_none_iff_exists'.mp hsome
    obtain ⟨hmem, -, huser⟩ := memberOf_some hm
    exact h.userId_of_workspaceMember hmem huser
  rw [heldPermission, hdirect]
  simp [hworkspace]

/-- Without a token the answer is what the user holds. -/
theorem AccessDb.Valid.checkBoardAccess_held :
    checkBoardAccess db boardId (some userId) none =
      .ofPermission (heldPermission db boardId userId) := by
  by_cases hempty : userId = ""
  · rw [hempty, h.heldPermission_empty boardId, checkBoardAccess]
    cases getBoard db boardId with
    | none => rfl
    | some board => simp [given, BoardAccess.ofPermission]
  · rw [checkBoardAccess, heldPermission]
    cases getBoard db boardId with
    | none => rfl
    | some board =>
      simp only [given, Option.any_none, Bool.false_and, Bool.false_eq_true, if_false, hempty,
        Option.bind_some]
      cases getBoardMemberPermission db boardId userId with
      | some directPermission => rfl
      | none => cases getWorkspaceBoardMembershipPermission db board.workspaceId userId <;> rfl

end

/-! ### What is listed -/

section
variable {env : Env} {db : AccessDb} {userId : String}

theorem mem_innerJoin {Grant : Type} {rows : List (Member Grant)} {scopeOf : Board → String}
    {row : Board × Member Grant} :
    row ∈ innerJoin db rows scopeOf userId ↔
      row.1 ∈ db.boards ∧ row.2 ∈ rows ∧ row.2.scopeId = scopeOf row.1 ∧ row.2.userId = userId := by
  obtain ⟨board, m⟩ := row
  simp [innerJoin]

/-- The entry of one board in the entries of a loop, whatever their order. -/
theorem AccessDb.Valid.find?_entries (h : db.Valid env) {Grant : Type} {rows : List (Member Grant)}
    {scopeOf : Board → String} {permissionOf : Grant → BoardPermission} {source : AccessSource}
    (hmember : ∀ {scopeId : String} {m : Member Grant}, memberOf rows scopeId userId = some m ↔
      m ∈ rows ∧ m.scopeId = scopeId ∧ m.userId = userId)
    {entries : List (String × AccessibleBoard)}
    (hentries : ∀ e, e ∈ entries ↔
      e ∈ entriesOf db userId permissionOf source (innerJoin db rows scopeOf userId))
    (boardId : String) :
    InsertionMap.find? entries boardId =
      (getBoard db boardId).bind fun board => (memberOf rows (scopeOf board) userId).map fun m =>
        accessible db userId board (permissionOf m.grant) source := by
  have hmem : ∀ x, (boardId, x) ∈ entries ↔ ∃ board, getBoard db boardId = some board ∧
      ∃ m, memberOf rows (scopeOf board) userId = some m ∧
        x = accessible db userId board (permissionOf m.grant) source := by
    intro x
    rw [hentries, entriesOf, List.mem_map]
    constructor
    · rintro ⟨⟨board, m⟩, hrow, heq⟩
      obtain ⟨hboard, hm, hscope, huser⟩ := mem_innerJoin.mp hrow
      obtain ⟨hid, hx⟩ := Prod.mk.inj heq
      exact ⟨board, h.getBoard_iff.mpr ⟨hboard, hid⟩, m, hmember.mpr ⟨hm, hscope, huser⟩, hx.symm⟩
    · rintro ⟨board, hboard, m, hm, rfl⟩
      obtain ⟨hboard, hid⟩ := h.getBoard_iff.mp hboard
      refine ⟨(board, m), mem_innerJoin.mpr ⟨hboard, hmember.mp hm⟩, ?_⟩
      rw [hid]
  -- the user has one row in a scope, so all entries of the board are one
  cases hfind : InsertionMap.find? entries boardId with
  | some x =>
    obtain ⟨board, hboard, m, hm, rfl⟩ := (hmem x).mp (InsertionMap.mem_of_find? hfind)
    rw [hboard, Option.bind_some, hm, Option.map_some]
  | none =>
    have hnone : boardId ∉ entries.map Prod.fst := InsertionMap.find?_eq_none.mp hfind
    cases hboard : getBoard db boardId with
    | none => rfl
    | some board =>
      cases hm : memberOf rows (scopeOf board) userId with
      | none => simp [hm]
      | some m =>
        exact absurd (List.mem_map_of_mem ((hmem _).mpr ⟨board, hboard, m, hm, rfl⟩)) hnone

/-- The map keeps every board under its own id. -/
theorem id_of_dedupedBoards {boardId : String} {x : AccessibleBoard}
    (hget : (dedupedBoards db userId).get? boardId = some x) : x.id = boardId := by
  have hentries : ∀ {Grant : Type} {permissionOf : Grant → BoardPermission} {source : AccessSource}
      {joined : List (Board × Member Grant)},
      (boardId, x) ∈ entriesOf db userId permissionOf source joined → x.id = boardId := by
    intro _ _ _ _ hmem
    obtain ⟨row, -, heq⟩ := List.mem_map.mp hmem
    obtain ⟨hid, rfl⟩ := Prod.mk.inj heq
    exact hid
  rw [dedupedBoards, InsertionMap.get?_setAllNew, InsertionMap.get?_setAll,
    InsertionMap.get?_empty, Option.or_none] at hget
  rcases Option.or_eq_some_iff.mp hget with hworkspace | ⟨-, hdirect⟩
  · exact hentries (List.mem_reverse.mp (InsertionMap.mem_of_find? hworkspace))
  · exact hentries (InsertionMap.mem_of_find? hdirect)

theorem mem_listAccessibleBoards {boardId : String} {x : AccessibleBoard} :
    x ∈ listAccessibleBoards db userId ∧ x.id = boardId ↔
      (dedupedBoards db userId).get? boardId = some x := by
  rw [listAccessibleBoards, InsertionMap.values, List.mem_map]
  constructor
  · rintro ⟨⟨⟨k, y⟩, hmem, rfl⟩, hid⟩
    have hget := (dedupedBoards db userId).mem_entries.mp hmem
    rw [← hid, id_of_dedupedBoards hget]
    exact hget
  · intro hget
    exact ⟨⟨(boardId, x), (dedupedBoards db userId).mem_entries.mpr hget, rfl⟩,
      id_of_dedupedBoards hget⟩

variable (h : db.Valid env) (boardId : String)

include h

/-- The permission listed for a board: of the role in the workspace, else of the direct row. -/
theorem AccessDb.Valid.get?_dedupedBoards :
    ((dedupedBoards db userId).get? boardId).map (·.permission) =
      (getBoard db boardId).bind fun board =>
        (getWorkspaceBoardMembershipPermission db board.workspaceId userId).or
          (getBoardMemberPermission db boardId userId) := by
  have hworkspace : InsertionMap.find? (workspaceEntries db userId).reverse boardId =
      (getBoard db boardId).bind fun board =>
        (memberOf db.workspaceMembers board.workspaceId userId).map fun m =>
          accessible db userId board (workspaceRoleToBoardPermission m.grant) .workspace :=
    h.find?_entries h.workspaceMember_iff (fun _ => List.mem_reverse) boardId
  -- a direct entry comes in only where the workspace has left none
  have hdirect : InsertionMap.find? (directEntries db userId) boardId =
      (getBoard db boardId).bind fun board =>
        (memberOf db.boardMembers board.id userId).map fun m =>
          accessible db userId board (if m.grant = .edit then .edit else .view) .boardMember :=
    h.find?_entries h.boardMember_iff (fun _ => Iff.rfl) boardId
  rw [dedupedBoards, InsertionMap.get?_setAllNew, InsertionMap.get?_setAll, hworkspace, hdirect,
    InsertionMap.get?_empty, Option.or_none]
  cases hboard : getBoard db boardId with
  | none => rfl
  | some board =>
    have hid : board.id = boardId := (h.getBoard_iff.mp hboard).2
    simp only [Option.bind_some, getWorkspaceBoardMembershipPermission, getBoardMemberPermission,
      hid]
    cases memberOf db.workspaceMembers board.workspaceId userId with
    | some m => rfl
    | none =>
      cases memberOf db.boardMembers boardId userId with
      | none => rfl
      | some m =>
        show some (if m.grant = .edit then BoardPermission.edit else .view) = some m.grant
        cases m.grant <;> rfl

end

/-! ### Agreement -/

/-- One board is listed exactly when the check grants access, and with the permission granted. -/
structure ReadPathsAgree (db : AccessDb) (userId boardId : String) : Prop where
  listed_iff : (∃ x ∈ listAccessibleBoards db userId, x.id = boardId) ↔
    (checkBoardAccess db boardId (some userId) none).hasAccess = true
  permission : ∀ x ∈ listAccessibleBoards db userId, x.id = boardId →
    (checkBoardAccess db boardId (some userId) none).permission = some x.permission

/-- A user with a direct row in the board and a row in its workspace holds one permission by
    both. -/
def RowsAgree (db : AccessDb) (userId boardId : String) : Prop :=
  ∀ board ∈ db.boards, board.id = boardId →
    ∀ m ∈ db.boardMembers, m.scopeId = boardId → m.userId = userId →
      ∀ w ∈ db.workspaceMembers, w.scopeId = board.workspaceId → w.userId = userId →
        workspaceRoleToBoardPermission w.grant = m.grant

/-- Which of two options goes first matters only where both are there and differ. -/
theorem or_comm_iff {α : Type} (a b : Option α) :
    a.or b = b.or a ↔ ∀ x y, a = some x → b = some y → x = y := by
  cases a with
  | none => simp
  | some x =>
    cases b with
    | none => simp
    | some y => simp

section
variable {env : Env} {db : AccessDb} (h : db.Valid env) (userId boardId : String)

include h

theorem AccessDb.Valid.rowsAgree_iff :
    RowsAgree db userId boardId ↔
      heldPermission db boardId userId =
        ((dedupedBoards db userId).get? boardId).map (·.permission) := by
  rw [h.get?_dedupedBoards boardId, heldPermission]
  cases hboard : getBoard db boardId with
  | none =>
    refine iff_of_true ?_ rfl
    intro board hmem hid
    rw [h.getBoard_iff.mpr ⟨hmem, hid⟩] at hboard
    cases hboard
  | some board =>
    obtain ⟨hmem, hid⟩ := h.getBoard_iff.mp hboard
    rw [Option.bind_some, Option.bind_some, or_comm_iff]
    constructor
    · intro hagree x y hx hy
      obtain ⟨m, hm, rfl⟩ := Option.map_eq_some_iff.mp hx
      obtain ⟨w, hw, rfl⟩ := Option.map_eq_some_iff.mp hy
      obtain ⟨hm, hscope, huser⟩ := h.boardMember_iff.mp hm
      obtain ⟨hw, hwscope, hwuser⟩ := h.workspaceMember_iff.mp hw
      exact (hagree board hmem hid m hm hscope huser w hw hwscope hwuser).symm
    · intro hsame board' hmem' hid' m hm hscope huser w hw hwscope hwuser
      have hboard' : getBoard db boardId = some board' := h.getBoard_iff.mpr ⟨hmem', hid'⟩
      obtain rfl := Option.some.inj (hboard.symm.trans hboard')
      have hm' : getBoardMemberPermission db boardId userId = some m.grant := by
        rw [getBoardMemberPermission, h.boardMember_iff.mpr ⟨hm, hscope, huser⟩, Option.map_some]
      have hw' : getWorkspaceBoardMembershipPermission db board.workspaceId userId =
          some (workspaceRoleToBoardPermission w.grant) := by
        rw [getWorkspaceBoardMembershipPermission, h.workspaceMember_iff.mpr ⟨hw, hwscope, hwuser⟩,
          Option.map_some]
      exact (hsame _ _ hm' hw').symm

/-- Both readers find the same rows, so they grant access to the same boards. -/
theorem AccessDb.Valid.isSome_heldPermission :
    (heldPermission db boardId userId).isSome =
      ((dedupedBoards db userId).get? boardId).isSome := by
  rw [← Option.isSome_map (f := fun x : AccessibleBoard => x.permission),
    h.get?_dedupedBoards boardId, heldPermission]
  cases getBoard db boardId with
  | none => rfl
  | some board =>
    rw [Option.bind_some, Option.bind_some, Option.isSome_or, Option.isSome_or, Bool.or_comm]

/-- The two readers agree on a board exactly when the two rows of the user do. -/
theorem AccessDb.Valid.readPathsAgree_iff :
    ReadPathsAgree db userId boardId ↔ RowsAgree db userId boardId := by
  have hcheck := h.checkBoardAccess_held boardId userId
  rw [h.rowsAgree_iff]
  constructor
  · intro hagree
    cases hget : (dedupedBoards db userId).get? boardId with
    | none =>
      have hsome := h.isSome_heldPermission userId boardId
      rw [hget] at hsome
      exact Option.isSome_eq_false_iff.mp hsome |> Option.isNone_iff_eq_none.mp
    | some x =>
      obtain ⟨hx, hid⟩ := mem_listAccessibleBoards.mpr hget
      have hpermission := hagree.permission x hx hid
      rw [hcheck, BoardAccess.permission_ofPermission] at hpermission
      exact hpermission
  · intro hsame
    refine ⟨?_, ?_⟩
    · rw [hcheck, BoardAccess.hasAccess_ofPermission, h.isSome_heldPermission,
        Option.isSome_iff_exists]
      exact exists_congr fun x => mem_listAccessibleBoards
    · intro x hx hid
      rw [hcheck, BoardAccess.permission_ofPermission, hsame, mem_listAccessibleBoards.mp ⟨hx, hid⟩,
        Option.map_some]

end

/-! ### A board and its two readers -/

/-- One user with a row in the board and a row in its workspace. -/
def exampleEnv : Env where
  users := [{ id := "ada", email := "ada@example.org" }]
  boards := ["plan"]
  workspaces := ["lab"]
  trim := id
  toLowerCase := id

def exampleBoard : Board where
  id := "plan"
  workspaceId := "lab"
  name := "Plan"
  linkShareViewEnabled := true
  linkShareViewToken := some "link"
  linkShareEditEnabled := false
  linkShareEditToken := none

def exampleDb (role : String) (permission : BoardPermission) : AccessDb where
  boards := [exampleBoard]
  boardFavorites := []
  boardInvitations := []
  workspaceInvitations := []
  boardMembers := [{ scopeId := "plan", userId := "ada", grant := permission, addedBy := none }]
  workspaceMembers := [{ scopeId := "lab", userId := "ada", grant := role, addedBy := none }]

/-- An editor of the workspace with a view row in the board is listed with `edit` and checked
    with `view`. -/
theorem editor_with_view_row_disagrees :
    (exampleDb "editor" .view).Valid exampleEnv ∧
      (listAccessibleBoards (exampleDb "editor" .view) "ada").map (fun x => (x.id, x.permission)) =
        [("plan", .edit)] ∧
      checkBoardAccess (exampleDb "editor" .view) "plan" (some "ada") none = granted .view ∧
      ¬ ReadPathsAgree (exampleDb "editor" .view) "ada" "plan" := by
  refine ⟨by decide, by decide, by decide, ?_⟩
  intro hagree
  obtain ⟨x, hx, hpermission⟩ : ∃ x ∈ listAccessibleBoards (exampleDb "editor" .view) "ada",
      x.id = "plan" ∧ x.permission = .edit := by decide
  have hsome := hagree.permission x hx hpermission.1
  rw [hpermission.2] at hsome
  revert hsome
  decide

/-- A viewer of the workspace with a view row in the board. -/
theorem viewer_with_view_row_agrees : ReadPathsAgree (exampleDb "viewer" .view) "ada" "plan" := by
  have hvalid : (exampleDb "viewer" .view).Valid exampleEnv := by decide
  refine (hvalid.readPathsAgree_iff "ada" "plan").mpr ?_
  unfold RowsAgree
  decide

end Notebortt.Access
