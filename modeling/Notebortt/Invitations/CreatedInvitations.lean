import Notebortt.Invitations.PendingInvitations

/-! # Created invitations

    What `createBoardInvitation` and `createInvitation` return, and whether its
    addressee can accept it. Both give back a pending row of the address when
    they find one, whatever it grants and whenever it expires. They mean to look
    again after a unique violation, but do not see it in the error. -/

open Table (DbError Constraints)
open Transition

namespace Notebortt.Invitations

/-! ### The condition -/

section condition
variable {Grant : Type} (new : Invitation Grant) (atLookup atInsert : List (Invitation Grant))

/-- The table as the statement that gives the answer finds it. -/
def tableRead : List (Invitation Grant) :=
  match getPending atLookup new.scopeId new.emailLower with
  | some _ => atLookup
  | none => atInsert

/-- The condition: the pending row found, if any, is unexpired and grants what is requested, and no
    earlier invitation of the address was accepted. -/
structure GivesAcceptable {Asked : Type} (asked : Grant → Asked) (now : Nat) : Prop where
  fits : ∀ i ∈ getPending atLookup new.scopeId new.emailLower,
    now < i.expiresAt ∧ asked i.grant = asked new.grant
  unaccepted : ∀ j ∈ tableRead new atLookup atInsert,
    j.scopeId = new.scopeId → j.emailLower = new.emailLower → j.status ≠ .accepted

end condition

/-! ### The property -/

section property
variable (env : Env)

/-- The invitation answered is pending, unexpired and of the permission requested, and its
    addressees' accepts end with the membership. -/
structure BoardAcceptable (db : Db) (i : BoardInvitation) (permission : BoardPermission)
    (now : Nat) : Prop where
  stored : i ∈ db.boardInvitations
  pending : i.status = .pending
  future : now < i.expiresAt
  permission : i.grant = permission
  accept : ∀ userId, Addressee env userId i.emailLower →
    ∃ db', acceptBoardInvitationByToken env i.token userId now db = .ok db' ∧
      ∃ m ∈ db'.boardMembers, m.scopeId = i.scopeId ∧ m.userId = userId ∧ m.grant = i.grant

structure WorkspaceAcceptable (db : Db) (i : WorkspaceInvitation) (role : String)
    (now : Nat) : Prop where
  stored : i ∈ db.workspaceInvitations
  pending : i.status = .pending
  future : now < i.expiresAt
  role : i.grant.role = role
  accept : ∀ userId, Addressee env userId i.emailLower →
    ∃ db', acceptInvitation env i.token userId now db = .ok db' ∧
      ∃ m ∈ db'.workspaceMembers, m.scopeId = i.scopeId ∧ m.userId = userId

end property

/-! ### What a creation returns -/

section created
variable {Grant : Type} {c : Constraints (Invitation Grant)} {new i : Invitation Grant}
  {atLookup atInsert atReload rows : List (Invitation Grant)}

/-- The row returned is stored, pending and of the address asked for. -/
theorem createIn_row (hnew : new.status = .pending)
    (h : createIn c new atLookup atInsert atReload = .ok (rows, i)) :
    i ∈ rows ∧ i.scopeId = new.scopeId ∧ i.emailLower = new.emailLower ∧ i.status = .pending := by
  rcases createIn_eq_ok h with ⟨rfl, hlookup⟩ | ⟨-, hinsert, rfl⟩
  · exact getPending_eq_some hlookup
  · obtain ⟨-, -, -, rfl⟩ := Table.insert_eq_ok_iff.mp hinsert
    exact ⟨List.mem_append_right _ (List.mem_singleton.mpr rfl), rfl, rfl, hnew⟩

/-- The row returned fits the request exactly when the pending row found does. -/
theorem createIn_fits_iff {Asked : Type} (asked : Grant → Asked) {now : Nat}
    (hfuture : now < new.expiresAt)
    (h : createIn c new atLookup atInsert atReload = .ok (rows, i)) :
    (now < i.expiresAt ∧ asked i.grant = asked new.grant) ↔
      ∀ e ∈ getPending atLookup new.scopeId new.emailLower,
        now < e.expiresAt ∧ asked e.grant = asked new.grant := by
  rcases createIn_eq_ok h with ⟨-, hlookup⟩ | ⟨hlookup, -, rfl⟩
  · rw [hlookup]
    simp
  · rw [hlookup]
    simp [hfuture]

/-- The accepted rows of the final table are those of the table read. -/
theorem createIn_unaccepted_iff (hnew : new.status = .pending)
    (h : createIn c new atLookup atInsert atReload = .ok (rows, i)) :
    (∀ j ∈ rows, j.scopeId = new.scopeId → j.emailLower = new.emailLower → j.status ≠ .accepted) ↔
      ∀ j ∈ tableRead new atLookup atInsert,
        j.scopeId = new.scopeId → j.emailLower = new.emailLower → j.status ≠ .accepted := by
  simp only [tableRead]
  rcases createIn_eq_ok h with ⟨rfl, hlookup⟩ | ⟨hlookup, hinsert, rfl⟩
  · rw [hlookup]
  · rw [hlookup]
    obtain ⟨-, -, -, rfl⟩ := Table.insert_eq_ok_iff.mp hinsert
    simp only [List.mem_append, List.mem_singleton]
    constructor
    · intro hrows j hj
      exact hrows j (.inl hj)
    · rintro hread j (hj | rfl)
      · exact hread j hj
      · intro _ _ haccepted
        rw [hnew] at haccepted
        cases haccepted

/-- The row returned is unexpired, grants what is asked and can be accepted exactly under the
    condition, where an accept needs that no earlier invitation of the address was accepted. -/
theorem createIn_givesAcceptable_iff {Asked : Type} (asked : Grant → Asked) {now : Nat}
    {accept : Prop} (hnew : new.status = .pending) (hfuture : now < new.expiresAt)
    (h : createIn c new atLookup atInsert atReload = .ok (rows, i))
    (haccept : now < i.expiresAt → (accept ↔ ∀ j ∈ rows, j.scopeId = i.scopeId →
      j.emailLower = i.emailLower → j.status ≠ .accepted)) :
    (now < i.expiresAt ∧ asked i.grant = asked new.grant ∧ accept) ↔
      GivesAcceptable new atLookup atInsert asked now := by
  obtain ⟨-, hscope, hemail, -⟩ := createIn_row hnew h
  have hfits := createIn_fits_iff asked hfuture h
  have hunaccepted := createIn_unaccepted_iff hnew h
  rw [hscope, hemail] at haccept
  constructor
  · rintro ⟨hunexpired, hgrant, haccepts⟩
    exact ⟨hfits.mp ⟨hunexpired, hgrant⟩, hunaccepted.mp ((haccept hunexpired).mp haccepts)⟩
  · rintro ⟨hfit, hread⟩
    obtain ⟨hunexpired, hgrant⟩ := hfits.mpr hfit
    exact ⟨hunexpired, hgrant, (haccept hunexpired).mpr (hunaccepted.mpr hread)⟩

end created

/-! ### Accepting it -/

section accept
variable {env : Env} {db : Db}

/-- The addressees' accepts go through exactly when no invitation of the board to the address was
    accepted. -/
theorem board_accept_iff {i : BoardInvitation} {now : Nat} (h : Inv env db)
    (hi : i ∈ db.boardInvitations) (hpending : i.status = .pending) (hnow : now < i.expiresAt) :
    (∀ userId, Addressee env userId i.emailLower →
      ∃ db', acceptBoardInvitationByToken env i.token userId now db = .ok db' ∧
        ∃ m ∈ db'.boardMembers, m.scopeId = i.scopeId ∧ m.userId = userId ∧ m.grant = i.grant) ↔
    ∀ j ∈ db.boardInvitations, j.scopeId = i.scopeId → j.emailLower = i.emailLower →
      j.status ≠ .accepted := by
  constructor
  · intro haccept j hj hscope hemail haccepted
    obtain ⟨userId, haddressee⟩ := h.board.addressed j hj haccepted
    rw [hemail] at haddressee
    exact (accept_isOk_iff h hi hpending haddressee hnow).mp (haccept userId haddressee)
      j hj hscope hemail haccepted
  · intro hfree userId haddressee
    exact (accept_isOk_iff h hi hpending haddressee hnow).mpr hfree

/-- The membership of a workspace invitation whose workspace and inviter exist is written, or is
    there already. -/
theorem insertWorkspaceMember_isOk {i : WorkspaceInvitation} {userId : String}
    (members : List WorkspaceMember) (hi : (workspaceInvitationConstraints env).check i = true)
    (href : (workspaceInvitationConstraints env).references i = true)
    (huser : env.hasUser userId = true) :
    ∃ members', insertWorkspaceMember env i userId members = .ok members' ∧
      ∃ m ∈ members', m.scopeId = i.scopeId ∧ m.userId = userId := by
  have hrole : i.grant.role = "admin" ∨ i.grant.role = "editor" ∨ i.grant.role = "viewer" := by
    simpa [workspaceInvitationConstraints, invitationConstraints] using hi
  have hreferences : (env.workspaces.contains i.scopeId && env.hasUser i.invitedBy) = true := href
  rw [Bool.and_eq_true] at hreferences
  have howner : (i.grant.role == "owner") = false := by
    rcases hrole with hrole | hrole | hrole <;> rw [hrole] <;> decide
  simp only [insertWorkspaceMember, liftDb_eq_ok_iff, Table.insertOrIgnore]
  split
  · next hany =>
    obtain ⟨m, hm, hclash⟩ := List.any_eq_true.mp hany
    refine ⟨members, rfl, m, hm, ?_⟩
    -- the role is not owner's: what is in the way is a membership of the same user
    simp only [workspaceMemberConstraints, howner, Bool.false_and, Bool.or_false, Bool.and_eq_true,
      beq_iff_eq] at hclash
    exact ⟨hclash.1.symm, hclash.2.symm⟩
  · next hnone =>
    refine ⟨_, Table.insert_eq_ok_iff.mpr ⟨?_, ?_, ?_, rfl⟩, _, List.mem_append_right _
      (List.mem_singleton.mpr rfl), rfl, rfl⟩
    · show ["owner", "admin", "editor", "viewer"].contains i.grant.role = true
      rcases hrole with hrole | hrole | hrole <;> rw [hrole] <;> decide
    · intro m hm
      by_contra hclash
      exact hnone (List.any_eq_true.mpr ⟨m, hm, eq_true_of_ne_false hclash⟩)
    · simp only [workspaceMemberConstraints, Option.all_some, Bool.and_eq_true]
      exact ⟨⟨hreferences.1, huser⟩, hreferences.2⟩

theorem findWorkspaceToken_eq (h : Inv env db) {i : WorkspaceInvitation}
    (hi : i ∈ db.workspaceInvitations) :
    db.workspaceInvitations.find? (fun j => j.token == i.token) = some i := by
  cases hfound : db.workspaceInvitations.find? (fun j => j.token == i.token) with
  | none =>
    have hnone := List.find?_eq_none.mp hfound i hi
    simp at hnone
  | some j =>
    have htoken := List.find?_some hfound
    rw [eq_of_token h.workspace.holds hi (List.mem_of_find?_eq_some hfound)
      (by simpa using htoken)]

theorem acceptWorkspace_isOk_iff {i : WorkspaceInvitation} {userId : String} {now : Nat}
    (h : Inv env db) (hi : i ∈ db.workspaceInvitations) (hpending : i.status = .pending)
    (hnow : now < i.expiresAt) (haddressee : Addressee env userId i.emailLower) :
    (∃ db', acceptInvitation env i.token userId now db = .ok db' ∧
      ∃ m ∈ db'.workspaceMembers, m.scopeId = i.scopeId ∧ m.userId = userId) ↔
    ∀ j ∈ db.workspaceInvitations, j.scopeId = i.scopeId → j.emailLower = i.emailLower →
      j.status ≠ .accepted := by
  have hselects := selects_acceptable h.workspace.holds hi hpending hnow
  have hcheck := h.workspace.holds.check i hi
  -- the check of the table is about the role only
  have hsettable : (workspaceInvitationConstraints env).check
      { i with status := InvitationStatus.accepted } = true := hcheck
  rw [← setStatus_isOk_iff h.workspace.holds hi hselects hsettable (by rw [hpending]; decide)]
  have huser := hasUser_of_addressee haddressee
  obtain ⟨email, hemail, haddress⟩ := haddressee
  simp only [acceptInvitation, hemail, findWorkspaceToken_eq h hi, haddress, ne_eq,
    not_true_eq_false, if_false]
  constructor
  · rintro ⟨db', hcall, -⟩
    split at hcall
    · cases hcall
    · next rows hset => exact ⟨rows, hset⟩
  · rintro ⟨rows, hset⟩
    obtain ⟨members, hmembers, hmember⟩ := insertWorkspaceMember_isOk db.workspaceMembers
      hcheck (h.workspace.holds.references i hi) huser
    have hany : db.workspaceInvitations.any (acceptable i.id now) = true :=
      List.any_eq_true.mpr ⟨i, hi, (hselects i hi).mpr rfl⟩
    rw [workspaceInvitationConstraints, hset]
    simp only [hany, hmembers, if_true]
    exact ⟨_, rfl, hmember⟩

theorem workspace_accept_iff {i : WorkspaceInvitation} {now : Nat} (h : Inv env db)
    (hi : i ∈ db.workspaceInvitations) (hpending : i.status = .pending) (hnow : now < i.expiresAt) :
    (∀ userId, Addressee env userId i.emailLower →
      ∃ db', acceptInvitation env i.token userId now db = .ok db' ∧
        ∃ m ∈ db'.workspaceMembers, m.scopeId = i.scopeId ∧ m.userId = userId) ↔
    ∀ j ∈ db.workspaceInvitations, j.scopeId = i.scopeId → j.emailLower = i.emailLower →
      j.status ≠ .accepted := by
  constructor
  · intro haccept j hj hscope hemail haccepted
    obtain ⟨userId, haddressee⟩ := h.workspace.addressed j hj haccepted
    rw [hemail] at haddressee
    exact (acceptWorkspace_isOk_iff h hi hpending hnow haddressee).mp (haccept userId haddressee)
      j hj hscope hemail haccepted
  · intro hfree userId haddressee
    exact (acceptWorkspace_isOk_iff h hi hpending hnow haddressee).mpr hfree

end accept

/-- What a creation returns, whatever other requests write between its statements, can be accepted
    exactly when the condition holds; for boards, and for workspaces. -/
theorem created_invitation_acceptable_iff (env : Env) :
    (∀ atLookup atInsert atReload db boardId invitedBy email permission fresh i,
      (system env).Reachable db →
      createBoardInvitation env boardId invitedBy email permission fresh atLookup atInsert
        atReload =
        .ok (db.boardInvitations, i) →
      (BoardAcceptable env db i permission fresh.now ↔
        GivesAcceptable (newBoardInvitation env boardId invitedBy email permission fresh)
          atLookup atInsert id fresh.now)) ∧
    (∀ atLookup atInsert atReload db workspaceId email role invitedBy fresh i,
      (system env).Reachable db →
      createInvitation env workspaceId email role invitedBy fresh atLookup atInsert atReload =
        .ok (db.workspaceInvitations, i) →
      (WorkspaceAcceptable env db i role fresh.now ↔
        GivesAcceptable (newInvitation env workspaceId email role invitedBy fresh)
          atLookup atInsert WorkspaceGrant.role fresh.now)) := by
  refine ⟨?_, ?_⟩
  · intro atLookup atInsert atReload db boardId invitedBy email permission fresh i hdb hcreate
    obtain ⟨hi, -, -, hpending⟩ := createIn_row rfl hcreate
    have hgives := createIn_givesAcceptable_iff id rfl (lt_buildInvitationExpiry fresh.now) hcreate
      (board_accept_iff (Reachable.inv hdb) hi hpending)
    constructor
    · intro hacceptable
      exact hgives.mp ⟨hacceptable.future, hacceptable.permission, hacceptable.accept⟩
    · intro hcondition
      obtain ⟨hfuture, hpermission, haccept⟩ := hgives.mpr hcondition
      exact ⟨hi, hpending, hfuture, hpermission, haccept⟩
  · intro atLookup atInsert atReload db workspaceId email role invitedBy fresh i hdb hcreate
    obtain ⟨hi, -, -, hpending⟩ := createIn_row rfl hcreate
    have hgives := createIn_givesAcceptable_iff WorkspaceGrant.role rfl
      (lt_buildInvitationExpiry fresh.now) hcreate
      (workspace_accept_iff (Reachable.inv hdb) hi hpending)
    constructor
    · intro hacceptable
      exact hgives.mp ⟨hacceptable.future, hacceptable.role, hacceptable.accept⟩
    · intro hcondition
      obtain ⟨hfuture, hrole, haccept⟩ := hgives.mpr hcondition
      exact ⟨hi, hpending, hfuture, hrole, haccept⟩

/-- The teammate's first invitation. -/
theorem created_invitation_acceptable_iff_run :
    ∃ db i, db.boardInvitations = [i] ∧ BoardAcceptable team db i .view 0 := by
  obtain ⟨db, hdb, i, hcreate, hrows⟩ : ∃ db, (system team).exec nobodyInvited [inviteMate "1" 0] =
      some db ∧
        ∃ i, createBoardInvitation team "board" "owner" "mate@example.com" .view ⟨"1", "1", 0⟩
        [] [] [] = .ok (db.boardInvitations, i) ∧ db.boardInvitations = [i] :=
    ⟨_, rfl, _, rfl, rfl⟩
  refine ⟨db, i, hrows, ((created_invitation_acceptable_iff team).1 _ _ _ db _ _ _ _ _ i
    (.exec (.init nobodyInvited_init) hdb) hcreate).mpr ⟨?_, ?_⟩⟩
  · intro e he
    cases he
  · intro j hj
    cases hj

/-- The teammate was invited to view; when the invitation has expired the owner invites to edit, and
    gets the expired invitation to view. -/
theorem expired_invitation_returned :
    ∃ db i, (system team).exec nobodyInvited [inviteMate "1" 0] = some db ∧
      createBoardInvitation team "board" "owner" "mate@example.com" .edit
        ⟨"2", "2", buildInvitationExpiry 0⟩ db.boardInvitations db.boardInvitations
        db.boardInvitations = .ok (db.boardInvitations, i) ∧
      ¬ BoardAcceptable team db i .edit (buildInvitationExpiry 0) := by
  refine ⟨_, _, rfl, rfl, ?_⟩
  intro h
  cases h.permission

end Notebortt.Invitations
