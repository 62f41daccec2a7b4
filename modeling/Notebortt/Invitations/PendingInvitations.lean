import Notebortt.Invitations.Tables
import Notebortt.Lib.Transition

/-! # Ways out of a pending invitation

    Runs of the invitation functions, one call after the other, and what such a
    run leaves in the tables. The index `board_invitation_pending_idx` covers
    every status, so whether a pending invitation can be revoked, declined or
    accepted depends on the earlier invitations of its address. -/

open Table (DbError Constraints)
open Transition

namespace Notebortt.Invitations

/-! ### Runs -/

inductive Label where
  | createBoardInvitation (boardId invitedBy email : String) (permission : BoardPermission)
      (fresh : Fresh)
  | acceptBoardInvitationByToken (token userId : String) (now : Nat)
  | declinePendingInvitationByToken (token userId : String)
  | revokeBoardInvitation (boardId inviteId : String)
  | expireInvitations (inviteIds : List String)
  | createInvitation (workspaceId email role invitedBy : String) (fresh : Fresh)
  | acceptInvitation (token userId : String) (now : Nat)

section system
variable (env : Env)

def call (db : Db) : Label → Except InvitationError Db
  | .createBoardInvitation boardId invitedBy email permission fresh =>
    (createBoardInvitation env boardId invitedBy email permission fresh db.boardInvitations
      db.boardInvitations db.boardInvitations).map fun created =>
        { db with boardInvitations := created.1 }
  | .acceptBoardInvitationByToken token userId now =>
    acceptBoardInvitationByToken env token userId now db
  | .declinePendingInvitationByToken token userId =>
    declinePendingInvitationByToken env token userId db
  | .revokeBoardInvitation boardId inviteId => revokeBoardInvitation env boardId inviteId db
  | .expireInvitations inviteIds => expireInvitations env inviteIds db
  | .createInvitation workspaceId email role invitedBy fresh =>
    (createInvitation env workspaceId email role invitedBy fresh db.workspaceInvitations
      db.workspaceInvitations db.workspaceInvitations).map fun created =>
        { db with workspaceInvitations := created.1 }
  | .acceptInvitation token userId now => acceptInvitation env token userId now db

/-- A call that throws changes nothing. -/
def step (db : Db) (l : Label) : Option Db :=
  match call env db l with
  | .ok db' => some db'
  | .error _ => some db

/-- Nobody is invited yet. -/
structure Init (db : Db) : Prop where
  boardInvitations : db.boardInvitations = []
  workspaceInvitations : db.workspaceInvitations = []
  boardMembers : (boardMemberConstraints env).Holds db.boardMembers
  workspaceMembers : (workspaceMemberConstraints env).Holds db.workspaceMembers

def system : System Db Label where
  init := Init env
  step := step env

/-- A user whose address an invitation is for. -/
def Addressee (userId emailLower : String) : Prop :=
  ∃ email, getUserEmail env userId = .ok email ∧ env.normalizeEmail email = emailLower

/-- The ways out of a pending invitation: revocation and decline end with it not pending, an accept
    in time with the membership. -/
structure CanLeave (db : Db) (i : BoardInvitation) : Prop where
  revoke : ∃ db', revokeBoardInvitation env i.scopeId i.id db = .ok db' ∧
    ∀ j ∈ db'.boardInvitations, j.id = i.id → j.status ≠ .pending
  decline : ∀ userId, Addressee env userId i.emailLower →
    ∃ db', declinePendingInvitationByToken env i.token userId db = .ok db' ∧
      ∀ j ∈ db'.boardInvitations, j.id = i.id → j.status ≠ .pending
  accept : ∀ userId now, Addressee env userId i.emailLower → now < i.expiresAt →
    ∃ db', acceptBoardInvitationByToken env i.token userId now db = .ok db' ∧
      ∃ m ∈ db'.boardMembers, m.scopeId = i.scopeId ∧ m.userId = userId ∧ m.grant = i.grant

def EveryPendingCanLeave (db : Db) : Prop :=
  ∀ i ∈ db.boardInvitations, i.status = .pending → CanLeave env db i

/-- No invitation of the board to the address was accepted, declined or revoked. -/
def Unsettled (rows : List BoardInvitation) (boardId emailLower : String) : Prop :=
  ∀ j ∈ rows, j.scopeId = boardId → j.emailLower = emailLower →
    j.status ≠ .accepted ∧ j.status ≠ .revoked

/-- The condition on a state: the pending invitations are of unsettled addresses. -/
def PendingUnsettled (db : Db) : Prop :=
  ∀ i ∈ db.boardInvitations, i.status = .pending →
    Unsettled db.boardInvitations i.scopeId i.emailLower

/-- The step condition: nobody is invited again after an earlier invitation was settled. -/
def InvitesUnsettled (db : Db) : Label → Prop
  | .createBoardInvitation boardId _ email _ _ =>
    Unsettled db.boardInvitations boardId (env.normalizeEmail email)
  | _ => True

instance (rows : List BoardInvitation) (boardId emailLower : String) :
    Decidable (Unsettled rows boardId emailLower) :=
  inferInstanceAs (Decidable (∀ j ∈ rows, j.scopeId = boardId → j.emailLower = emailLower →
    j.status ≠ .accepted ∧ j.status ≠ .revoked))

instance (db : Db) : (l : Label) → Decidable (InvitesUnsettled env db l)
  | .createBoardInvitation boardId _ email _ _ =>
    inferInstanceAs (Decidable (Unsettled db.boardInvitations boardId (env.normalizeEmail email)))
  | .acceptBoardInvitationByToken .. | .declinePendingInvitationByToken ..
  | .revokeBoardInvitation .. | .expireInvitations _ | .createInvitation ..
  | .acceptInvitation .. =>
    inferInstanceAs (Decidable True)

end system

/-! ### One statement -/

section statements
variable {Grant : Type} {c : Constraints (Invitation Grant)} {rows rows' : List (Invitation Grant)}
  {cond : Invitation Grant → Bool} {status : InvitationStatus}

theorem liftDb_eq_ok_iff {α : Type} {x : Except DbError α} {a : α} :
    liftDb x = .ok a ↔ x = .ok a := by
  cases x <;> simp [liftDb]

theorem setStatus_eq_ok_iff :
    setStatus c cond status rows = .ok rows' ↔
      c.Holds (Table.updateRows cond (fun i => { i with status := status }) rows) ∧
        rows' = Table.updateRows cond (fun i => { i with status := status }) rows := by
  rw [setStatus, liftDb_eq_ok_iff, Table.update_eq_ok_iff]

/-- A row after a change of status: an unselected one, or a selected one with the new status. -/
theorem mem_of_setStatus (h : setStatus c cond status rows = .ok rows') {j : Invitation Grant}
    (hj : j ∈ rows') :
    ∃ i ∈ rows, j.scopeId = i.scopeId ∧ j.emailLower = i.emailLower ∧ j.id = i.id ∧
      j.expiresAt = i.expiresAt ∧
      ((cond i = true ∧ j.status = status) ∨ (cond i = false ∧ j = i)) := by
  obtain ⟨-, rfl⟩ := setStatus_eq_ok_iff.mp h
  obtain ⟨i, hi, ⟨hcond, rfl⟩ | ⟨hcond, rfl⟩⟩ := Table.mem_updateRows.mp hj
  · exact ⟨i, hi, rfl, rfl, rfl, rfl, .inl ⟨hcond, rfl⟩⟩
  · exact ⟨j, hi, rfl, rfl, rfl, rfl, .inr ⟨hcond, rfl⟩⟩

theorem getPending_eq_some {scopeId emailLower : String} {i : Invitation Grant}
    (h : getPending rows scopeId emailLower = some i) :
    i ∈ rows ∧ i.scopeId = scopeId ∧ i.emailLower = emailLower ∧ i.status = .pending := by
  have hi := List.find?_some h
  simp only [Bool.and_eq_true, beq_iff_eq] at hi
  exact ⟨List.mem_of_find?_eq_some h, hi.1.1, hi.1.2, hi.2⟩

/-- What a creation returns: a pending row of the lookup, or the new row. -/
theorem createIn_eq_ok {new i : Invitation Grant}
    {atLookup atInsert atReload : List (Invitation Grant)}
    (h : createIn c new atLookup atInsert atReload = .ok (rows', i)) :
    (rows' = atLookup ∧ getPending atLookup new.scopeId new.emailLower = some i) ∨
    (getPending atLookup new.scopeId new.emailLower = none ∧
      Table.insert c new atInsert = .ok rows' ∧ i = new) := by
  simp only [createIn, isUniqueViolation_eq_false, Bool.false_eq_true, if_false] at h
  split at h
  · next existingPending hlookup =>
    obtain ⟨rfl, rfl⟩ := Prod.mk.inj (Except.ok.inj h)
    exact .inl ⟨rfl, hlookup⟩
  · next hlookup =>
    split at h
    · next rows hinsert =>
      obtain ⟨rfl, rfl⟩ := Prod.mk.inj (Except.ok.inj h)
      exact .inr ⟨hlookup, hinsert, rfl⟩
    · cases h

end statements

/-! ### What every run keeps -/

/-- Of one invitations table: its constraints hold, no row was created expired, and whoever accepted
    is a user. -/
structure TableInv {Grant : Type} (env : Env) (c : Constraints (Invitation Grant))
    (rows : List (Invitation Grant)) : Prop where
  holds : c.Holds rows
  future : ∀ i ∈ rows, 0 < i.expiresAt
  addressed : ∀ i ∈ rows, i.status = .accepted → ∃ userId, Addressee env userId i.emailLower

structure Inv (env : Env) (db : Db) : Prop where
  board : TableInv env (boardInvitationConstraints env) db.boardInvitations
  workspace : TableInv env (workspaceInvitationConstraints env) db.workspaceInvitations
  boardMembers : (boardMemberConstraints env).Holds db.boardMembers

section invariant
variable {env : Env}

theorem TableInv.nil {Grant : Type} (c : Constraints (Invitation Grant)) : TableInv env c [] :=
  ⟨⟨by simp, .nil, by simp⟩, by simp, by simp⟩

theorem TableInv.createIn {Grant : Type} {c : Constraints (Invitation Grant)}
    {rows rows' : List (Invitation Grant)} {new i : Invitation Grant} (h : TableInv env c rows)
    (hpending : new.status = .pending) (hfuture : 0 < new.expiresAt)
    (hcreate : createIn c new rows rows rows = .ok (rows', i)) : TableInv env c rows' := by
  rcases createIn_eq_ok hcreate with ⟨rfl, -⟩ | ⟨-, hinsert, -⟩
  · exact h
  · have hholds := h.holds.insert hinsert
    obtain ⟨-, -, -, rfl⟩ := Table.insert_eq_ok_iff.mp hinsert
    refine ⟨hholds, ?_, ?_⟩
    · intro j hj
      rcases List.mem_append.mp hj with hj | hj
      · exact h.future j hj
      · rwa [List.mem_singleton.mp hj]
    · intro j hj hstatus
      rcases List.mem_append.mp hj with hj | hj
      · exact h.addressed j hj hstatus
      · rw [List.mem_singleton.mp hj, hpending] at hstatus
        cases hstatus

theorem TableInv.setStatus {Grant : Type} {c : Constraints (Invitation Grant)}
    {rows rows' : List (Invitation Grant)} {cond : Invitation Grant → Bool}
    {status : InvitationStatus} (h : TableInv env c rows)
    (haddressed : status = .accepted → ∀ i ∈ rows, cond i = true →
      ∃ userId, Addressee env userId i.emailLower)
    (hset : setStatus c cond status rows = .ok rows') : TableInv env c rows' where
  holds := by
    obtain ⟨hholds, rfl⟩ := setStatus_eq_ok_iff.mp hset
    exact hholds
  future := by
    intro j hj
    obtain ⟨i, hi, -, -, -, hexpires, -⟩ := mem_of_setStatus hset hj
    rw [hexpires]
    exact h.future i hi
  addressed := by
    intro j hj hstatus
    obtain ⟨i, hi, -, hemail, -, -, ⟨hcond, hnew⟩ | ⟨-, rfl⟩⟩ := mem_of_setStatus hset hj
    · rw [hemail]
      exact haddressed (hnew.symm.trans hstatus) i hi hcond
    · exact h.addressed j hi hstatus

/-- A selected row has the id the update names. -/
theorem eq_of_id {Grant : Type} {scopes : List String} {check : Invitation Grant → Bool}
    {rows : List (Invitation Grant)} (h : (invitationConstraints env scopes check).Holds rows)
    {i j : Invitation Grant} (hi : i ∈ rows) (hj : j ∈ rows) (hid : j.id = i.id) : j = i :=
  h.eq_of_clash hj hi (by simp [invitationConstraints, Invitation.clash, hid])

theorem eq_of_token {Grant : Type} {scopes : List String} {check : Invitation Grant → Bool}
    {rows : List (Invitation Grant)} (h : (invitationConstraints env scopes check).Holds rows)
    {i j : Invitation Grant} (hi : i ∈ rows) (hj : j ∈ rows) (htoken : j.token = i.token) : j = i :=
  h.eq_of_clash hj hi (by simp [invitationConstraints, Invitation.clash, htoken])

/-- The status of one invitation can be set unless another one of its address has it. -/
theorem setStatus_isOk_iff {Grant : Type} {scopes : List String} {check : Invitation Grant → Bool}
    {rows : List (Invitation Grant)} {cond : Invitation Grant → Bool} {status : InvitationStatus}
    (h : (invitationConstraints env scopes check).Holds rows) {i : Invitation Grant} (hi : i ∈ rows)
    (hcond : ∀ j ∈ rows, cond j = true ↔ j = i) (hcheck : check { i with status := status } = true)
    (hstatus : i.status ≠ status) :
    (∃ rows', setStatus (invitationConstraints env scopes check) cond status rows = .ok rows') ↔
      ∀ j ∈ rows, j.scopeId = i.scopeId → j.emailLower = i.emailLower → j.status ≠ status := by
  have hreferences : (invitationConstraints env scopes check).references
      { i with status := status } =
      true := h.references i hi
  simp only [setStatus_eq_ok_iff, exists_and_left, exists_eq, and_true,
    h.updateRows_iff hi hcond]
  constructor
  · rintro ⟨-, -, hclash⟩ j hj hscope hemail heq
    by_cases hne : j = i
    · exact hstatus (hne ▸ heq)
    · have hclash := hclash j hj hne
      simp [invitationConstraints, Invitation.clash, hscope, hemail, heq] at hclash
  · intro hother
    refine ⟨hcheck, hreferences, ?_⟩
    intro j hj hne
    -- another row has another id and another token
    have hid : i.id ≠ j.id := fun heq => hne (eq_of_id h hi hj heq.symm)
    have htoken : i.token ≠ j.token := fun heq => hne (eq_of_token h hi hj heq.symm)
    have hkey : ¬ (i.scopeId = j.scopeId ∧ i.emailLower = j.emailLower ∧ status = j.status) := by
      rintro ⟨hscope, hemail, hset⟩
      exact hother j hj hscope.symm hemail.symm hset.symm
    simp only [invitationConstraints, Invitation.clash, Bool.or_eq_false_iff, beq_eq_false_iff_ne,
      Bool.and_eq_false_iff]
    refine ⟨⟨hid, htoken⟩, ?_⟩
    by_contra hcontra
    simp only [not_or, not_not] at hcontra
    exact hkey ⟨hcontra.1.1, hcontra.1.2, hcontra.2⟩

/-! ### What a call does -/

variable (env) in
/-- A change of status in `board_invitations` made by one of its four writers: who is selected, and
    what the status becomes. -/
inductive StatusChange (db : Db) : (BoardInvitation → Bool) → InvitationStatus → Prop where
  | accept {i : BoardInvitation} {now : Nat} {userId : String} (hi : i ∈ db.boardInvitations)
      (haddressee : Addressee env userId i.emailLower) :
      StatusChange db (acceptable i.id now) .accepted
  | settle {cond : BoardInvitation → Bool}
      (hpending : ∀ i, cond i = true → i.status = .pending) : StatusChange db cond .revoked
  | expire {inviteIds : List String} : StatusChange db (expirable inviteIds) .expired

variable (env) in
/-- What a call that does not throw leaves of `board_invitations` and its members. -/
inductive Effect (db : Db) : Label → Db → Prop where
  | created (boardId invitedBy email : String) (permission : BoardPermission) (fresh : Fresh)
      {rows : List BoardInvitation} {i : BoardInvitation}
      (hcreate : createBoardInvitation env boardId invitedBy email permission fresh
        db.boardInvitations db.boardInvitations db.boardInvitations = .ok (rows, i)) :
      Effect db (.createBoardInvitation boardId invitedBy email permission fresh)
        { db with boardInvitations := rows }
  | changed (l : Label) {cond : BoardInvitation → Bool} {status : InvitationStatus}
      {rows : List BoardInvitation} {members : List BoardMember}
      (hchange : StatusChange env db cond status)
      (hset : setStatus (boardInvitationConstraints env) cond status db.boardInvitations = .ok rows)
      (hmembers : (boardMemberConstraints env).Holds db.boardMembers →
        (boardMemberConstraints env).Holds members) :
      Effect db l { db with boardInvitations := rows, boardMembers := members }
  | elsewhere (l : Label) {db' : Db} (hboard : db'.boardInvitations = db.boardInvitations)
      (hmembers : db'.boardMembers = db.boardMembers)
      (hworkspace : TableInv env (workspaceInvitationConstraints env) db.workspaceInvitations →
        TableInv env (workspaceInvitationConstraints env) db'.workspaceInvitations) :
    Effect db l db'

theorem findByToken_eq_some {rows : List BoardInvitation} {token emailLower : String}
    {i : BoardInvitation} (h : findByToken rows token emailLower = some i) :
    i ∈ rows ∧ i.token = token ∧ i.emailLower = emailLower := by
  have hi := List.find?_some h
  simp only [Bool.and_eq_true, beq_iff_eq] at hi
  exact ⟨List.mem_of_find?_eq_some h, hi⟩

theorem acceptable_iff {Grant : Type} {inviteId : String} {now : Nat} {i : Invitation Grant} :
    acceptable inviteId now i = true ↔ i.id = inviteId ∧ i.status = .pending ∧
      now < i.expiresAt := by
  simp [acceptable, and_assoc]

/-- An accept that does not throw: the invitation found, its new status, and the member row. -/
theorem accept_eq_ok {db db' : Db} {token userId : String} {now : Nat}
    (h : acceptBoardInvitationByToken env token userId now db = .ok db') :
    ∃ email i rows members, getUserEmail env userId = .ok email ∧
      findByToken db.boardInvitations token (env.normalizeEmail email) = some i ∧
      setStatus (boardInvitationConstraints env) (acceptable i.id now) .accepted
        db.boardInvitations = .ok rows ∧
      upsertBoardMember env i userId db.boardMembers = .ok members ∧
      db' = { db with boardInvitations := rows, boardMembers := members } := by
  simp only [acceptBoardInvitationByToken] at h
  split at h
  · cases h
  next email hemail =>
  split at h
  · cases h
  next i hfound =>
  split at h
  · cases h
  next rows hset =>
  split at h
  case isFalse => cases h
  split at h
  · cases h
  next members hmembers =>
  exact ⟨email, i, rows, members, hemail, hfound, hset, hmembers, (Except.ok.inj h).symm⟩

theorem accept_effect {db db' : Db} {token userId : String} {now : Nat} (l : Label)
    (h : acceptBoardInvitationByToken env token userId now db = .ok db') : Effect env db l db' := by
  obtain ⟨email, i, rows, members, hemail, hfound, hset, hmembers, rfl⟩ := accept_eq_ok h
  obtain ⟨hi, -, haddress⟩ := findByToken_eq_some hfound
  refine .changed l (.accept hi ⟨email, hemail, haddress.symm⟩) hset ?_
  intro hholds
  exact hholds.upsert (liftDb_eq_ok_iff.mp hmembers)

theorem decline_effect {db db' : Db} {token userId : String} (l : Label)
    (h : declinePendingInvitationByToken env token userId db = .ok db') : Effect env db l db' := by
  simp only [declinePendingInvitationByToken] at h
  split at h
  · cases h
  split at h
  · next i _ =>
    split at h
    · cases h
    · next rows hset =>
      refine Except.ok.inj h ▸ .changed l (.settle ?_) hset id
      intro j hj
      simp only [stillPending, Bool.and_eq_true, beq_iff_eq] at hj
      exact hj.2
  · split at h
    · cases h
    · split at h
      · cases h
      · next rows hset =>
        refine Except.ok.inj h ▸ .elsewhere l rfl rfl fun hworkspace => ?_
        exact hworkspace.setStatus (fun hstatus => by cases hstatus) hset

theorem acceptWorkspace_eq_ok {db db' : Db} {token userId : String} {now : Nat}
    (h : acceptInvitation env token userId now db = .ok db') :
    ∃ email i rows members, getUserEmail env userId = .ok email ∧ i ∈ db.workspaceInvitations ∧
      i.emailLower = env.normalizeEmail email ∧
      setStatus (workspaceInvitationConstraints env) (acceptable i.id now) .accepted
        db.workspaceInvitations = .ok rows ∧
      insertWorkspaceMember env i userId db.workspaceMembers = .ok members ∧
      db' = { db with workspaceInvitations := rows, workspaceMembers := members } := by
  simp only [acceptInvitation] at h
  split at h
  · cases h
  next email hemail =>
  split at h
  · cases h
  next i hfound =>
  split at h
  · cases h
  next haddress =>
  split at h
  · cases h
  next rows hset =>
  split at h
  case isFalse => cases h
  split at h
  · cases h
  next members hmembers =>
  exact ⟨email, i, rows, members, hemail, List.mem_of_find?_eq_some hfound,
    not_not.mp haddress, hset,
    hmembers, (Except.ok.inj h).symm⟩

theorem acceptWorkspace_effect {db db' : Db} {token userId : String} {now : Nat} (l : Label)
    (h : acceptInvitation env token userId now db = .ok db') : Effect env db l db' := by
  obtain ⟨email, i, rows, members, hemail, hi, haddress, hset, -, rfl⟩ := acceptWorkspace_eq_ok h
  refine .elsewhere l rfl rfl fun hworkspace => ?_
  refine hworkspace.setStatus (fun _ j hj hcond => ?_) hset
  -- the rows selected have the id of the one found
  have hji : j = i := eq_of_id hworkspace.holds hi hj (acceptable_iff.mp hcond).1
  exact ⟨userId, email, hemail, hji ▸ haddress.symm⟩

/-- Every call that does not throw has one of these effects. -/
theorem call_effect {db db' : Db} {l : Label} (h : call env db l = .ok db') :
    Effect env db l db' := by
  cases l with
  | createBoardInvitation boardId invitedBy email permission fresh =>
    simp only [call] at h
    cases hcreate : createBoardInvitation env boardId invitedBy email permission fresh
        db.boardInvitations db.boardInvitations db.boardInvitations with
    | error e => rw [hcreate] at h; cases h
    | ok created =>
      rw [hcreate] at h
      exact Except.ok.inj h ▸ .created boardId invitedBy email permission fresh hcreate
  | acceptBoardInvitationByToken token userId now => exact accept_effect _ h
  | declinePendingInvitationByToken token userId => exact decline_effect _ h
  | revokeBoardInvitation boardId inviteId =>
    simp only [call, revokeBoardInvitation] at h
    split at h
    · cases h
    · next rows hset =>
      refine Except.ok.inj h ▸ .changed _ (.settle ?_) hset id
      intro j hj
      simp only [revocable, Bool.and_eq_true, beq_iff_eq] at hj
      exact hj.2
  | expireInvitations inviteIds =>
    simp only [call, expireInvitations] at h
    split at h
    · exact Except.ok.inj h ▸ .elsewhere _ rfl rfl id
    · split at h
      · cases h
      · next rows hset => exact Except.ok.inj h ▸ .changed _ .expire hset id
  | createInvitation workspaceId email role invitedBy fresh =>
    simp only [call] at h
    cases hcreate : createInvitation env workspaceId email role invitedBy fresh
        db.workspaceInvitations db.workspaceInvitations db.workspaceInvitations with
    | error e => rw [hcreate] at h; cases h
    | ok created =>
      rw [hcreate] at h
      refine Except.ok.inj h ▸ .elsewhere _ rfl rfl fun hworkspace => ?_
      have hfuture : 0 < (newInvitation env workspaceId email role invitedBy fresh).expiresAt :=
        Nat.zero_lt_of_lt (lt_buildInvitationExpiry fresh.now)
      exact hworkspace.createIn rfl hfuture hcreate
  | acceptInvitation token userId now => exact acceptWorkspace_effect _ h

theorem Inv.effect {db db' : Db} {l : Label} (h : Inv env db) (heffect : Effect env db l db') :
    Inv env db' := by
  cases heffect with
  | created boardId invitedBy email permission fresh hcreate =>
    have hfuture :
        0 < (newBoardInvitation env boardId invitedBy email permission fresh).expiresAt :=
      Nat.zero_lt_of_lt (lt_buildInvitationExpiry fresh.now)
    exact ⟨h.board.createIn rfl hfuture hcreate, h.workspace, h.boardMembers⟩
  | changed _ hchange hset hmembers =>
    refine ⟨h.board.setStatus ?_ hset, h.workspace, hmembers h.boardMembers⟩
    intro hstatus i hi hcond
    cases hchange with
    | @accept j now userId hj haddressee =>
      have hij : i = j := eq_of_id h.board.holds hj hi (acceptable_iff.mp hcond).1
      exact ⟨userId, hij ▸ haddressee⟩
    | settle _ => cases hstatus
    | expire => cases hstatus
  | elsewhere _ hboard hmembers hworkspace =>
    exact ⟨hboard ▸ h.board, hworkspace h.workspace, hmembers ▸ h.boardMembers⟩

theorem Init.inv {db : Db} (h : Init env db) : Inv env db :=
  ⟨h.boardInvitations ▸ .nil _, h.workspaceInvitations ▸ .nil _, h.boardMembers⟩

theorem step_inv {db db' : Db} {l : Label} (h : Inv env db) (hstep : step env db l = some db') :
    Inv env db' := by
  simp only [step] at hstep
  split at hstep
  · next hcall => exact Option.some.inj hstep ▸ h.effect (call_effect hcall)
  · exact Option.some.inj hstep ▸ h

theorem Reachable.inv {db : Db} (h : (system env).Reachable db) : Inv env db :=
  h.invariant (fun _ => Init.inv) (fun _ _ _ => step_inv)

/-! ### The ways out of one pending invitation -/

/-- An UPDATE that selects the pending invitation `i` alone gives it a status other than pending. -/
theorem not_pending_of_setStatus {rows rows' : List BoardInvitation}
    {cond : BoardInvitation → Bool} {status : InvitationStatus} (hstatus : status ≠ .pending)
    {i : BoardInvitation} (hcond : ∀ j ∈ rows, cond j = true ↔ j = i)
    (h : (boardInvitationConstraints env).Holds rows) (hi : i ∈ rows)
    (hset : setStatus (boardInvitationConstraints env) cond status rows = .ok rows') :
    ∀ j ∈ rows', j.id = i.id → j.status ≠ .pending := by
  intro j hj hid
  obtain ⟨j₀, hj₀, -, -, hid₀, -, ⟨-, hnew⟩ | ⟨hnot, rfl⟩⟩ := mem_of_setStatus hset hj
  · rwa [hnew]
  · have hji : j = i := eq_of_id h hi hj₀ hid
    rw [(hcond j hj₀).mpr hji] at hnot
    cases hnot

/-- The WHERE of an accept in time selects the pending invitation alone. -/
theorem selects_acceptable {Grant : Type} {scopes : List String} {check : Invitation Grant → Bool}
    {rows : List (Invitation Grant)} (h : (invitationConstraints env scopes check).Holds rows)
    {i : Invitation Grant} (hi : i ∈ rows) (hpending : i.status = .pending) {now : Nat}
    (hnow : now < i.expiresAt) : ∀ j ∈ rows, acceptable i.id now j = true ↔ j = i := by
  intro j hj
  rw [acceptable_iff]
  constructor
  · rintro ⟨hid, -, -⟩
    exact eq_of_id h hi hj hid
  · rintro rfl
    exact ⟨rfl, hpending, hnow⟩

section pending
variable {db : Db} {i : BoardInvitation} (h : Inv env db) (hi : i ∈ db.boardInvitations)
  (hpending : i.status = .pending)
include h hi hpending

theorem selects_stillPending : ∀ j ∈ db.boardInvitations, stillPending i.id j = true ↔ j = i := by
  intro j hj
  simp only [stillPending, Bool.and_eq_true, beq_iff_eq]
  constructor
  · rintro ⟨hid, -⟩
    exact eq_of_id h.board.holds hi hj hid
  · rintro rfl
    exact ⟨rfl, hpending⟩

theorem selects_revocable :
    ∀ j ∈ db.boardInvitations, revocable i.scopeId i.id j = true ↔ j = i := by
  intro j hj
  simp only [revocable, Bool.and_eq_true, beq_iff_eq]
  constructor
  · rintro ⟨⟨hid, -⟩, -⟩
    exact eq_of_id h.board.holds hi hj hid
  · rintro rfl
    exact ⟨⟨rfl, rfl⟩, hpending⟩

theorem findPendingByToken_eq :
    findPendingByToken db.boardInvitations i.token i.emailLower = some i := by
  cases hfound : findPendingByToken db.boardInvitations i.token i.emailLower with
  | none =>
    have hnone := List.find?_eq_none.mp hfound i hi
    simp [hpending] at hnone
  | some j =>
    have hj := List.find?_some hfound
    simp only [Bool.and_eq_true, beq_iff_eq] at hj
    rw [eq_of_token h.board.holds hi (List.mem_of_find?_eq_some hfound) hj.1.1]

omit hpending in
theorem findByToken_eq : findByToken db.boardInvitations i.token i.emailLower = some i := by
  cases hfound : findByToken db.boardInvitations i.token i.emailLower with
  | none =>
    have hnone := List.find?_eq_none.mp hfound i hi
    simp at hnone
  | some j =>
    obtain ⟨hj, htoken, -⟩ := findByToken_eq_some hfound
    rw [eq_of_token h.board.holds hi hj htoken]

/-- Setting the status of the pending invitation is refused exactly when another invitation of the
    board to the address has it. -/
theorem settable_iff {cond : BoardInvitation → Bool} {status : InvitationStatus}
    (hcond : ∀ j ∈ db.boardInvitations, cond j = true ↔ j = i) (hstatus : status ≠ .pending)
    (hcheck : status ≠ .declined) :
    (∃ rows,
        setStatus (boardInvitationConstraints env) cond status db.boardInvitations = .ok rows) ↔
      ∀ j ∈ db.boardInvitations, j.scopeId = i.scopeId → j.emailLower = i.emailLower →
        j.status ≠ status :=
  setStatus_isOk_iff h.board.holds hi hcond (by simpa using hcheck) (hpending ▸ hstatus.symm)

end pending

/-! ### The membership -/

theorem hasUser_of_addressee {userId emailLower : String} (h : Addressee env userId emailLower) :
    env.hasUser userId = true := by
  obtain ⟨email, hemail, -⟩ := h
  simp only [getUserEmail] at hemail
  split at hemail
  · next user hfound =>
    have hid := List.find?_some hfound
    exact List.any_eq_true.mpr ⟨user, List.mem_of_find?_eq_some hfound, hid⟩
  · cases hemail

/-- The membership of an invitation whose board and inviter exist is always written. -/
theorem upsertBoardMember_isOk {i : BoardInvitation} {userId : String} {members : List BoardMember}
    (hmembers : (boardMemberConstraints env).Holds members)
    (hi : (boardInvitationConstraints env).references i = true)
    (huser : env.hasUser userId = true) :
    ∃ members', upsertBoardMember env i userId members = .ok members' ∧
      ∃ m ∈ members', m.scopeId = i.scopeId ∧ m.userId = userId ∧ m.grant = i.grant := by
  simp only [upsertBoardMember, liftDb_eq_ok_iff, Table.upsert]
  have hreferences : (env.boards.contains i.scopeId && env.hasUser i.invitedBy) = true := hi
  rw [Bool.and_eq_true] at hreferences
  split
  · next hany =>
    obtain ⟨m, hm, hkey⟩ := List.any_eq_true.mp hany
    simp only [Bool.and_eq_true, beq_iff_eq] at hkey
    have hone : ∀ m' ∈ members, (m'.scopeId == i.scopeId && m'.userId == userId) = true ↔
        m' = m := by
      intro m' hm'
      simp only [Bool.and_eq_true, beq_iff_eq]
      constructor
      · rintro ⟨hscope, huser'⟩
        exact hmembers.eq_of_clash hm' hm
          (by simp [boardMemberConstraints, hscope, huser', hkey.1, hkey.2])
      · rintro rfl
        exact hkey
    refine ⟨_, Table.update_eq_ok_iff.mpr
      ⟨(hmembers.updateRows_iff hm hone).mpr ⟨rfl, ?_, ?_⟩, rfl⟩,
      { m with grant := i.grant }, Table.set_mem_updateRows hm ((hone m hm).mpr rfl), hkey.1,
        hkey.2,
      rfl⟩
    · exact hmembers.references m hm
    · intro m' hm' hne
      by_contra hclash
      exact hne (hmembers.eq_of_clash hm' hm
        ((Constraints.clash_comm _ _ _).trans (eq_true_of_ne_false hclash)))
  · next hnone =>
    refine ⟨_, Table.insert_eq_ok_iff.mpr ⟨rfl, ?_, ?_, rfl⟩, _, List.mem_append_right _
      (List.mem_singleton.mpr rfl), rfl, rfl, rfl⟩
    · intro m hm
      by_contra hclash
      rw [Constraints.clash_comm] at hclash
      exact hnone (List.any_eq_true.mpr ⟨m, hm, eq_true_of_ne_false hclash⟩)
    · simp only [boardMemberConstraints, Option.all_some, Bool.and_eq_true]
      exact ⟨⟨hreferences.1, huser⟩, hreferences.2⟩

/-! ### Ways out and earlier invitations -/

section pending
variable {db : Db} {i : BoardInvitation} (h : Inv env db) (hi : i ∈ db.boardInvitations)
  (hpending : i.status = .pending)
include h hi hpending

theorem revoke_isOk_iff :
    (∃ db', revokeBoardInvitation env i.scopeId i.id db = .ok db' ∧
      ∀ j ∈ db'.boardInvitations, j.id = i.id → j.status ≠ .pending) ↔
    ∀ j ∈ db.boardInvitations, j.scopeId = i.scopeId → j.emailLower = i.emailLower →
      j.status ≠ .revoked := by
  have hselects := selects_revocable h hi hpending
  rw [← settable_iff h hi hpending hselects (by decide) (by decide)]
  simp only [revokeBoardInvitation]
  constructor
  · rintro ⟨db', hcall, -⟩
    split at hcall
    · cases hcall
    · next rows hset => exact ⟨rows, hset⟩
  · rintro ⟨rows, hset⟩
    rw [hset]
    exact ⟨_, rfl, not_pending_of_setStatus (by decide) hselects h.board.holds hi hset⟩

theorem decline_isOk {userId : String} (haddressee : Addressee env userId i.emailLower)
    (hfree : ∀ j ∈ db.boardInvitations, j.scopeId = i.scopeId → j.emailLower = i.emailLower →
      j.status ≠ .revoked) :
    ∃ db', declinePendingInvitationByToken env i.token userId db = .ok db' ∧
      ∀ j ∈ db'.boardInvitations, j.id = i.id → j.status ≠ .pending := by
  have hselects := selects_stillPending h hi hpending
  obtain ⟨rows, hset⟩ := (settable_iff h hi hpending hselects (by decide) (by decide)).mpr hfree
  obtain ⟨email, hemail, haddress⟩ := haddressee
  simp only [declinePendingInvitationByToken, hemail, haddress, findPendingByToken_eq h hi hpending,
    hset]
  exact ⟨_, rfl, not_pending_of_setStatus (by decide) hselects h.board.holds hi hset⟩

/-- An accept in time, by its addressee, is refused exactly when an earlier invitation of the board
    to the address was accepted. -/
theorem accept_isOk_iff {userId : String} {now : Nat}
    (haddressee : Addressee env userId i.emailLower) (hnow : now < i.expiresAt) :
    (∃ db', acceptBoardInvitationByToken env i.token userId now db = .ok db' ∧
      ∃ m ∈ db'.boardMembers, m.scopeId = i.scopeId ∧ m.userId = userId ∧ m.grant = i.grant) ↔
    ∀ j ∈ db.boardInvitations, j.scopeId = i.scopeId → j.emailLower = i.emailLower →
      j.status ≠ .accepted := by
  have hselects := selects_acceptable h.board.holds hi hpending hnow
  rw [← settable_iff h hi hpending hselects (by decide) (by decide)]
  have huser := hasUser_of_addressee haddressee
  obtain ⟨email, hemail, haddress⟩ := haddressee
  simp only [acceptBoardInvitationByToken, hemail, haddress, findByToken_eq h hi]
  constructor
  · rintro ⟨db', hcall, -⟩
    split at hcall
    · cases hcall
    · next rows hset => exact ⟨rows, hset⟩
  · rintro ⟨rows, hset⟩
    obtain ⟨members, hmembers, hmember⟩ :=
      upsertBoardMember_isOk h.boardMembers (h.board.holds.references i hi) huser
    have hany : db.boardInvitations.any (acceptable i.id now) = true :=
      List.any_eq_true.mpr ⟨i, hi, (hselects i hi).mpr rfl⟩
    rw [hset]
    simp only [hany, hmembers, if_true]
    exact ⟨_, rfl, hmember⟩

/-- A pending invitation can leave exactly when its address is unsettled. -/
theorem canLeave_iff :
    CanLeave env db i ↔ Unsettled db.boardInvitations i.scopeId i.emailLower := by
  constructor
  · rintro ⟨hrevoke, -, haccept⟩ j hj hscope hemail
    refine ⟨?_, (revoke_isOk_iff h hi hpending).mp hrevoke j hj hscope hemail⟩
    intro haccepted
    -- whoever accepted is an addressee of this invitation too
    obtain ⟨userId, haddressee⟩ := h.board.addressed j hj haccepted
    rw [hemail] at haddressee
    have hnow := h.board.future i hi
    exact (accept_isOk_iff h hi hpending haddressee hnow).mp (haccept userId 0 haddressee hnow)
      j hj hscope hemail haccepted
  · intro hunsettled
    have hrevoked : ∀ j ∈ db.boardInvitations, j.scopeId = i.scopeId → j.emailLower = i.emailLower →
        j.status ≠ .revoked := fun j hj hscope hemail => (hunsettled j hj hscope hemail).2
    have haccepted : ∀ j ∈ db.boardInvitations, j.scopeId = i.scopeId →
        j.emailLower = i.emailLower →
        j.status ≠ .accepted := fun j hj hscope hemail => (hunsettled j hj hscope hemail).1
    exact {
      revoke := (revoke_isOk_iff h hi hpending).mpr hrevoked
      decline := fun _ haddressee => decline_isOk h hi hpending haddressee hrevoked
      accept := fun _ _ haddressee hnow =>
        (accept_isOk_iff h hi hpending haddressee hnow).mpr haccepted }

end pending

/-! ### Runs that invite unsettled addresses -/

/-- A call that meets the condition keeps the pending invitations on unsettled addresses. -/
theorem effect_pendingUnsettled {db db' : Db} {l : Label} (h : Inv env db)
    (hdb : PendingUnsettled db) (hC : InvitesUnsettled env db l) (heffect : Effect env db l db') :
    PendingUnsettled db' := by
  cases heffect with
  | created boardId invitedBy email permission fresh hcreate =>
    rcases createIn_eq_ok hcreate with ⟨rfl, -⟩ | ⟨-, hinsert, -⟩
    · exact hdb
    · obtain ⟨-, -, -, rfl⟩ := Table.insert_eq_ok_iff.mp hinsert
      intro i hi hpending j hj hscope hemail
      rcases List.mem_append.mp hj with hj | hj
      · rcases List.mem_append.mp hi with hi | hi
        · exact hdb i hi hpending j hj hscope hemail
        · rw [List.mem_singleton.mp hi] at hscope hemail
          exact hC j hj hscope hemail
      · rw [List.mem_singleton.mp hj]
        exact ⟨InvitationStatus.noConfusion, InvitationStatus.noConfusion⟩
  | @changed _ cond status rows members hchange hset _ =>
    intro i' hi' hpending j' hj' hscope hemail
    obtain ⟨i, hi, -, -, -, -, hicases⟩ := mem_of_setStatus hset hi'
    obtain ⟨j, hj, hjscope, hjemail, -, -, hjcases⟩ := mem_of_setStatus hset hj'
    have hnot : status ≠ .pending := by
      rintro rfl
      cases hchange
    -- a pending row was not selected: the others of its address are as before, or set now
    obtain ⟨hcond, rfl⟩ : cond i = false ∧ i' = i := by
      rcases hicases with ⟨-, hnew⟩ | hold
      · exact absurd (hnew.symm.trans hpending) hnot
      · exact hold
    rcases hjcases with ⟨hjcond, hjnew⟩ | ⟨-, rfl⟩
    · rw [hjnew]
      have hne : j.status ≠ .pending ∨ j = i' := by
        by_cases hjpending : j.status = .pending
        · refine .inr (h.board.holds.eq_of_clash hj hi ?_)
          simp [boardInvitationConstraints, invitationConstraints, Invitation.clash, hjpending,
            hpending, hjscope.symm.trans hscope, hjemail.symm.trans hemail]
        · exact .inl hjpending
      cases hchange with
      | accept _ _ =>
        rcases hne with hjpending | rfl
        · exact absurd (acceptable_iff.mp hjcond).2.1 hjpending
        · rw [hjcond] at hcond
          cases hcond
      | settle hselected =>
        rcases hne with hjpending | rfl
        · exact absurd (hselected j hjcond) hjpending
        · rw [hjcond] at hcond
          cases hcond
      | expire => exact ⟨by decide, by decide⟩
    · exact hdb i' hi hpending j' hj hscope hemail
  | elsewhere _ hboard _ _ =>
    intro i hi hpending j hj
    rw [hboard] at hi hj
    exact hdb i hi hpending j hj

theorem ReachableUnder.inv_pendingUnsettled {db : Db}
    (h : (system env).ReachableUnder (InvitesUnsettled env) db) : Inv env db ∧
      PendingUnsettled db := by
  refine h.invariant (I := fun db => Inv env db ∧ PendingUnsettled db) (fun db hinit => ?_)
    (fun db l db' hdb hC hstep => ?_)
  · refine ⟨Init.inv hinit, fun i hi => ?_⟩
    rw [hinit.boardInvitations] at hi
    cases hi
  · refine ⟨step_inv hdb.1 hstep, ?_⟩
    change step env db l = some db' at hstep
    simp only [step] at hstep
    split at hstep
    · next hcall =>
      exact Option.some.inj hstep ▸ effect_pendingUnsettled hdb.1 hdb.2 hC (call_effect hcall)
    · exact Option.some.inj hstep ▸ hdb.2

/-- In every run that invites unsettled addresses only, every pending invitation can leave; and in
    any run, in a state exactly when its pending invitations are of unsettled addresses. -/
theorem every_pending_invitation_can_leave (env : Env) :
    (∀ db, (system env).ReachableUnder (InvitesUnsettled env) db → EveryPendingCanLeave env db) ∧
      ∀ db, (system env).Reachable db → (EveryPendingCanLeave env db ↔ PendingUnsettled db) := by
  refine ⟨?_, ?_⟩
  · intro db h i hi hpending
    have hinv := ReachableUnder.inv_pendingUnsettled h
    exact (canLeave_iff hinv.1 hi hpending).mpr (hinv.2 i hi hpending)
  · intro db h
    exact forall₃_congr fun i hi hpending => canLeave_iff (Reachable.inv h) hi hpending

end invariant

/-- A board with its owner and a teammate, whose address is lower case already. -/
def team : Env where
  users := [⟨"owner", "owner@example.com"⟩, ⟨"mate", "mate@example.com"⟩]
  boards := ["board"]
  workspaces := ["space"]
  trim := id
  toLowerCase := id

def nobodyInvited : Db := ⟨[], [], [], []⟩

theorem nobodyInvited_init : Init team nobodyInvited :=
  ⟨rfl, rfl, ⟨by simp [nobodyInvited], .nil, by simp [nobodyInvited]⟩,
    ⟨by simp [nobodyInvited], .nil, by simp [nobodyInvited]⟩⟩

/-- The teammate is invited; the id of the row is its token too. -/
def inviteMate (id : String) (now : Nat) : Label :=
  .createBoardInvitation "board" "owner" "mate@example.com" .view ⟨id, id, now⟩

/-- The teammate is invited, for the first time. -/
theorem every_pending_invitation_can_leave_run :
    ∃ db : Db, db.boardInvitations.map Invitation.status = [.pending] ∧
      EveryPendingCanLeave team db := by
  obtain ⟨db, hdb, hstatus⟩ : ∃ db, (system team).execUnder (InvitesUnsettled team) nobodyInvited
      [inviteMate "1" 0] = some db ∧ db.boardInvitations.map Invitation.status = [.pending] :=
    ⟨_, rfl, rfl⟩
  exact ⟨db, hstatus, (every_pending_invitation_can_leave team).1 db
    (.execUnder (.init nobodyInvited_init) hdb)⟩

/-- After a revocation the teammate is invited again: the second invitation cannot be revoked. -/
theorem second_revocation_refused :
    ∃ db, (system team).exec nobodyInvited
        [inviteMate "1" 0, .revokeBoardInvitation "board" "1", inviteMate "2" 1] = some db ∧
      ¬ EveryPendingCanLeave team db := by
  refine ⟨_, rfl, ?_⟩
  intro h
  obtain ⟨⟨db', hrevoke, -⟩, -, -⟩ := h
    ⟨"2", "board", "owner", "mate@example.com", .view, .pending, "2", buildInvitationExpiry 1⟩
    (by decide) rfl
  cases hrevoke

end Notebortt.Invitations
