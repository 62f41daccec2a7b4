import Notebortt.Requests.Guards

/-! # The owner of a workspace

    A workspace is created together with the membership of its owner, and no
    request removes, gives away or doubles it. -/

open Table (Constraints)

namespace Notebortt.Requests

open Invitations Access

/-- Each workspace has the membership of its owner, and each user a workspace. -/
structure Owned (db : Tables) : Prop where
  owner : ∀ w ∈ db.workspaces, ∃ m ∈ db.workspaceMembers,
    m.scopeId = w.id ∧ m.userId = w.ownerId ∧ m.grant = "owner"
  personal : ∀ u ∈ db.users, ∃ w ∈ db.workspaces, w.ownerId = u.id

/-- A member row that is deleted is not the owner's. -/
def keepsOwners (db : Tables) : Write → Prop
  | .deleteWorkspaceMember memberId =>
    ∀ m ∈ db.workspaceMembers, m.id = memberId → m.grant ≠ "owner"
  | _ => True

section writes
variable {rt : Runtime} {db db' : Tables}

/-- The rows of the owners and the workspaces are still there. -/
theorem Owned.mono (h : Owned db) (hworkspaces : db'.workspaces = db.workspaces)
    (husers : db'.users = db.users)
    (hmembers : ∀ m ∈ db.workspaceMembers, m.grant = "owner" → m ∈ db'.workspaceMembers) :
    Owned db' where
  owner := by
    intro w hw
    obtain ⟨m, hm, hscope, huser, hgrant⟩ := h.owner w (hworkspaces ▸ hw)
    exact ⟨m, hmembers m hm hgrant, hscope, huser, hgrant⟩
  personal := by
    rw [hworkspaces, husers]
    exact h.personal

/-- A workspace is inserted with its owner; the user may be new. -/
theorem Owned.workspaceInserted {name ownerId : String} {workspaces : List Workspace}
    {members : List (MemberRow String)}
    (howner : ∀ w ∈ db.workspaces, ∃ m ∈ db.workspaceMembers,
      m.scopeId = w.id ∧ m.userId = w.ownerId ∧ m.grant = "owner")
    (hpersonal : ∀ u ∈ db.users, u.id = ownerId ∨ ∃ w ∈ db.workspaces, w.ownerId = u.id)
    (hinserted : WorkspaceInserted rt db name ownerId workspaces members) :
    Owned ((db.withWorkspace workspaces).withWorkspaceMember members) where
  owner := by
    intro w hw
    rcases mem_insert hinserted.workspace hw with hw | rfl
    · obtain ⟨m, hm, hmatch⟩ := howner w hw
      exact ⟨m, insert_subset hinserted.owner m hm, hmatch⟩
    · exact ⟨_, mem_of_insert hinserted.owner, rfl, rfl, rfl⟩
  personal := by
    intro u hu
    rcases hpersonal u hu with hid | ⟨w, hw, hid⟩
    · exact ⟨_, mem_of_insert hinserted.workspace, hid.symm⟩
    · exact ⟨w, insert_subset hinserted.workspace w hw, hid⟩

theorem insertOrIgnore_subset {ρ : Type} {c : Constraints ρ} {row : ρ} {rows rows' : List ρ}
    (h : Table.insertOrIgnore c row rows = .ok rows') : ∀ r ∈ rows, r ∈ rows' := by
  rw [Table.insertOrIgnore] at h
  split at h
  · exact Except.ok.inj h ▸ fun _ hr => hr
  · exact insert_subset h

theorem Owned.ran {write : Write} (h : Owned db) (hmay : keepsOwners db write)
    (hran : Ran rt db write db') : Owned db' := by
  cases hran with
  | @createGoogleUser email googleId users accounts workspaces members huser haccount hworkspace =>
    refine Owned.workspaceInserted (fun w hw => h.owner w hw) ?_ hworkspace
    intro u hu
    rcases mem_insert huser hu with hu | rfl
    · exact .inr (h.personal u hu)
    · exact .inl rfl
  | createWorkspace hinserted =>
    exact .workspaceInserted h.owner (fun u hu => .inr (h.personal u hu)) hinserted
  | @renameWorkspace workspaceId name hholds =>
    have hcolumns : ∀ w ∈ db.workspaces, ∃ w' ∈ Table.updateRows (·.id == workspaceId)
        (fun w => { w with name := name }) db.workspaces, w'.ownerId = w.ownerId :=
      fun w hw => by
        obtain ⟨w', hw', -, howner⟩ := (Later.ran (.renameWorkspace hholds)).workspaces w hw
        exact ⟨w', hw', howner⟩
    refine ⟨?_, ?_⟩
    · intro w' hw'
      obtain ⟨w, hw, ⟨-, rfl⟩ | ⟨-, rfl⟩⟩ := Table.mem_updateRows.mp hw'
      · exact h.owner w hw
      · exact h.owner w' hw
    · intro u hu
      obtain ⟨w, hw, hid⟩ := h.personal u hu
      obtain ⟨w', hw', howner⟩ := hcolumns w hw
      exact ⟨w', hw', howner.trans hid⟩
  | deleteWorkspaceMember =>
    refine h.mono rfl rfl ?_
    intro m hm hgrant
    refine Table.mem_delete.mpr ⟨hm, ?_⟩
    rw [beq_eq_false_iff_ne]
    exact fun hid => hmay m hm hid hgrant
  | acceptInvitation hpending hrows hmembers =>
    exact h.mono rfl rfl fun m hm _ => insertOrIgnore_subset hmembers m hm
  | duplicateNothing => exact h
  | insertRefreshToken
  | insertInvitation | declineInvitation | createBoard | renameBoard | duplicateBoard | deleteBoard
  | setBoardLinkShare | rotateBoardLinkShareToken | addBoardFavorite | removeBoardFavorite
  | upsertBoardMember | updateBoardMemberPermission | deleteBoardMember | leaveBoard
  | insertBoardInvitation | acceptBoardInvitation | declineBoardInvitation
  | revokeBoardInvitation => exact h.mono rfl rfl fun m hm _ => hm

end writes

section system
variable {Thread : Type} [DecidableEq Thread] {rt : Runtime} {s : State Thread}

theorem owned_of_reachable (h : (system Thread rt Owned).Reachable s) :
    Stored rt s.store ∧ Owned s.store := by
  refine invariant_of_reachable keepsOwners
    (fun db write db' _ howned hmay hran => howned.ran hmay hran) ?_ ?_ h
  · intro userId action db db₀ db₁ db' write _ _ hwrites
    cases action with
    | deleteWorkspaceMember wid memberId =>
      obtain ⟨rfl, hmember⟩ := hwrites
      exact fun m hm hid => (hmember m hm hid).2
    | acceptWorkspaceInvitation | acceptBoardInvite =>
      obtain ⟨invitation, rfl, -⟩ := hwrites
      trivial
    | declinePendingInvite =>
      obtain ⟨inviteId, rfl | rfl⟩ := hwrites
      · trivial
      · trivial
    | _ =>
      obtain rfl := hwrites
      trivial
  · intro db' write _ _ hlogin
    cases hlogin <;> trivial

/-- Whatever requests have been served, in whatever order their statements have run: the role of
    a user in a workspace is the owner's exactly when the workspace is the user's own, and every
    user has one. -/
theorem owner_of_workspace (h : (system Thread rt Owned).Reachable s) :
    (∀ w ∈ s.store.workspaces, ∀ userId,
      roleOf s.store w.id userId = some "owner" ↔ userId = w.ownerId) ∧
    ∀ u ∈ s.store.users, ∃ w ∈ s.store.workspaces, w.ownerId = u.id := by
  obtain ⟨hstored, howned⟩ := owned_of_reachable h
  refine ⟨?_, howned.personal⟩
  intro w hw userId
  obtain ⟨m, hm, hscope, huser, hgrant⟩ := howned.owner w hw
  have haccess := hstored.valid.access
  constructor
  · intro hrole
    obtain ⟨m', hm', hgrant'⟩ := Option.map_eq_some_iff.mp hrole
    obtain ⟨hmem', hscope', huser'⟩ := haccess.workspaceMember_iff.mp hm'
    -- the index over the owners takes one row for a workspace
    have hone : m.toMember = m' := haccess.workspaceMembers.eq_of_clash
      (List.mem_map_of_mem hm) hmem' <| by
        simp [workspaceMemberConstraints, hscope, hscope', hgrant, hgrant']
    rw [← huser', ← hone, huser]
  · rintro rfl
    have hfound := haccess.workspaceMember_iff.mpr
      ⟨List.mem_map_of_mem hm, hscope, huser⟩
    rw [roleOf, hfound, Option.map_some, hgrant]

end system

/-- The first user logs in. -/
theorem owner_of_workspace_login :
    ∃ s : State Unit, (system Unit .counting Owned).exec (idle noTables)
      [.start () (.login "ada" "g" true), .resume (), .resume (), .resume ()] = some s ∧
      s.store.workspaces.length = 1 ∧
      ∀ w ∈ s.store.workspaces, ∀ userId,
        roleOf s.store w.id userId = some "owner" ↔ userId = w.ownerId := by
  have hstart : (system Unit .counting Owned).Reachable (idle noTables) :=
    .init ⟨⟨stored_noTables _, ⟨nofun, nofun⟩⟩, fun _ => rfl⟩
  have hcalled := hstart.step (.start () (.login "ada" "g" true)) rfl
  have hread := hcalled.step (.resume ()) rfl
  have hcreated := hread.step (.resume ()) rfl
  have hanswered := hcreated.step (.resume ()) rfl
  exact ⟨_, rfl, rfl, (owner_of_workspace hanswered).1⟩

end Notebortt.Requests
