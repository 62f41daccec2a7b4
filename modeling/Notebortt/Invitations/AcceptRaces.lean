import Mathlib.Data.List.Nodup
import Mathlib.Logic.Function.Basic
import Notebortt.Invitations.PendingInvitations

/-! # Accepts, declines, revocations and expiries of board invitations

    Any number of calls at the granularity of their statements. An accept and a
    decline run in a transaction: its UPDATE holds the row until the commit, and
    what it wrote is seen by nobody before. Revocations and expiries are single
    statements. An UPDATE that would change a row held by another transaction
    waits, and reads the row again when it goes on. -/

open Table (DbError Constraints)
open Transition

namespace Notebortt.Invitations.AcceptRaces

/-! ### State -/

/-- Where an accept or a decline is. -/
inductive Run where
  | idle
  | acceptFound (userId : String) (invitation : BoardInvitation)
  /-- The UPDATE, whose clock reading was `now`, has set the row, which is held. -/
  | acceptUpdated (userId : String) (invitation : BoardInvitation) (now : Nat)
  /-- The membership is written too. -/
  | acceptInserted (userId : String) (invitation : BoardInvitation) (now : Nat)
  | declineFound (inviteId : String)
  /-- The UPDATE has set the row, which is held, or has found it not pending any more. -/
  | declineUpdated (inviteId : String) (updated : Bool)
  | done
  | failed
deriving DecidableEq

/-- The membership INSERT of a transaction, with the clock reading its UPDATE compared `expiresAt`
    with. -/
structure MemberWrite where
  member : BoardMember
  now : Nat
deriving DecidableEq

/-- Ghost: a commit, of a transaction or of a single statement. -/
structure Commit where
  before : List BoardInvitation
  after : List BoardInvitation
  membersBefore : List BoardMember
  membersAfter : List BoardMember
  inserted : Option MemberWrite
deriving DecidableEq

structure State (Tx : Type) where
  /-- What is committed. -/
  rows : List BoardInvitation
  members : List BoardMember
  run : Tx → Run
  /-- The transaction that holds a row. -/
  lock : String → Option Tx
  /-- Ghost: the commits, the latest first. -/
  log : List Commit

/-! ### Steps -/

inductive Label (Tx : Type) where
  /-- The reads of an accept: the user's address and the invitation. -/
  | acceptSelect (t : Tx) (token userId : String)
  | acceptUpdate (t : Tx) (now : Nat)
  | acceptInsert (t : Tx)
  | acceptCommit (t : Tx)
  | declineSelect (t : Tx) (token userId : String)
  | declineUpdate (t : Tx)
  | declineCommit (t : Tx)
  /-- The transaction is rolled back, or its process ends. -/
  | rollback (t : Tx)
  | revoke (boardId inviteId : String)
  | expire (inviteIds : List String)

section system
variable {Tx : Type} [DecidableEq Tx] (env : Env)

def State.setRun (s : State Tx) (t : Tx) (r : Run) : State Tx :=
  { s with run := Function.update s.run t r }

/-- The row a transaction holds. -/
def Run.holds? : Run → Option String
  | .acceptUpdated _ invitation _ => some invitation.id
  | .acceptInserted _ invitation _ => some invitation.id
  | .declineUpdated inviteId true => some inviteId
  | _ => none

/-- The locks of a transaction are released. -/
def State.unlock (s : State Tx) (t : Tx) : State Tx :=
  { s with lock := fun inviteId => if s.lock inviteId = some t then none else s.lock inviteId }

/-- An UPDATE waits while a row it would change is held. -/
def State.blocked (s : State Tx) (cond : BoardInvitation → Bool) : Bool :=
  s.rows.any fun i => cond i && (s.lock i.id).isSome

/-- The tables after a commit. -/
def State.commit (s : State Tx) (rows : List BoardInvitation) (members : List BoardMember)
    (inserted : Option MemberWrite) : State Tx :=
  { s with
    rows := rows, members := members
    log := ⟨s.rows, rows, s.members, members, inserted⟩ :: s.log }

/-- The committed row with this id gets the status its transaction gave it. -/
def setStatusById (inviteId : String) (status : InvitationStatus) (rows : List BoardInvitation) :
    List BoardInvitation :=
  Table.updateRows (fun i => i.id == inviteId) (fun i => { i with status := status }) rows

/-- The row an accept writes. -/
def memberOf (invitation : BoardInvitation) (userId : String) : BoardMember :=
  { scopeId := invitation.scopeId, userId := userId, grant := invitation.grant
    addedBy := some invitation.invitedBy }

def step (s : State Tx) : Label Tx → Option (State Tx)
  | .acceptSelect t token userId =>
    match s.run t with
    | .idle =>
      match getUserEmail env userId with
      | .error _ => some (s.setRun t .failed)
      | .ok email =>
        match findByToken s.rows token (env.normalizeEmail email) with
        | none => some (s.setRun t .failed)
        | some invitation => some (s.setRun t (.acceptFound userId invitation))
    | _ => none
  | .acceptUpdate t now =>
    match s.run t with
    | .acceptFound userId invitation =>
      if s.blocked (acceptable invitation.id now) then none
      else
        match setStatus (boardInvitationConstraints env) (acceptable invitation.id now) .accepted
            s.rows with
        | .error _ => some (s.setRun t .failed)
        | .ok _ =>
          if s.rows.any (acceptable invitation.id now) then
            some ({ s with lock := Function.update s.lock invitation.id (some t) }.setRun t
              (.acceptUpdated userId invitation now))
          -- 'Invitation expired or already used'
          else some (s.setRun t .failed)
    | _ => none
  | .acceptInsert t =>
    match s.run t with
    | .acceptUpdated userId invitation now =>
      match upsertBoardMember env invitation userId s.members with
      | .ok _ => some (s.setRun t (.acceptInserted userId invitation now))
      | .error _ => some ((s.unlock t).setRun t .failed)
    | _ => none
  | .acceptCommit t =>
    match s.run t with
    | .acceptInserted userId invitation now =>
      match upsertBoardMember env invitation userId s.members with
      | .ok members =>
        some (((s.commit (setStatusById invitation.id .accepted s.rows) members
          (some ⟨memberOf invitation userId, now⟩)).unlock t).setRun t .done)
      | .error _ => some ((s.unlock t).setRun t .failed)
    | _ => none
  | .declineSelect t token userId =>
    match s.run t with
    | .idle =>
      match getUserEmail env userId with
      | .error _ => some (s.setRun t .failed)
      | .ok email =>
        match findPendingByToken s.rows token (env.normalizeEmail email) with
        -- the call goes on with the workspace invitations
        | none => some (s.setRun t .done)
        | some invitation => some (s.setRun t (.declineFound invitation.id))
    | _ => none
  | .declineUpdate t =>
    match s.run t with
    | .declineFound inviteId =>
      if s.blocked (stillPending inviteId) then none
      else
        match setStatus (boardInvitationConstraints env)
          (stillPending inviteId) .revoked s.rows with
        | .error _ => some (s.setRun t .failed)
        | .ok _ =>
          if s.rows.any (stillPending inviteId) then
            some ({ s with lock := Function.update s.lock inviteId (some t) }.setRun t
              (.declineUpdated inviteId true))
          else some (s.setRun t (.declineUpdated inviteId false))
    | _ => none
  | .declineCommit t =>
    match s.run t with
    | .declineUpdated inviteId updated =>
      let rows := if updated then setStatusById inviteId .revoked s.rows else s.rows
      some (((s.commit rows s.members none).unlock t).setRun t .done)
    | _ => none
  | .rollback t =>
    match s.run t with
    | .done | .failed => none
    | _ => some ((s.unlock t).setRun t .failed)
  | .revoke boardId inviteId =>
    if s.blocked (revocable boardId inviteId) then none
    else
      match setStatus (boardInvitationConstraints env)
        (revocable boardId inviteId) .revoked s.rows with
      | .error _ => some s
      | .ok rows => some (s.commit rows s.members none)
  | .expire inviteIds =>
    if inviteIds.isEmpty then some s
    else if s.blocked (expirable inviteIds) then none
    else
      match setStatus (boardInvitationConstraints env) (expirable inviteIds) .expired s.rows with
      | .error _ => some s
      | .ok rows => some (s.commit rows s.members none)

/-- Any invitations, and nobody at work. -/
structure Init (s : State Tx) : Prop where
  rows : (boardInvitationConstraints env).Holds s.rows
  run : ∀ t, s.run t = .idle
  lock : ∀ inviteId, s.lock inviteId = none
  log : s.log = []

variable (Tx) in
def system : System (State Tx) (Label Tx) where
  init := Init env
  step := step env

end system

/-! ### The property -/

/-- The commit changes this invitation from pending to accepted. -/
def Commit.accepts (c : Commit) (inviteId : String) : Bool :=
  c.before.any (fun i => i.id == inviteId && i.status == .pending) &&
    c.after.any (fun i => i.id == inviteId && i.status == .accepted)

/-- A commit accepts an invitation exactly when it inserts its membership, in time; and it leaves
    what was accepted as it is. -/
structure Commit.Sound (c : Commit) : Prop where
  inserts : ∀ inviteId, c.accepts inviteId = true → ∃ w, c.inserted = some w ∧
    ∃ i ∈ c.before, i.id = inviteId ∧ w.now < i.expiresAt ∧
      w.member.scopeId = i.scopeId ∧ w.member.grant = i.grant
  accepts : ∀ w, c.inserted = some w → ∃ inviteId, ∀ j, c.accepts j = true ↔ j = inviteId
  joined : ∀ w, c.inserted = some w → ∃ m ∈ c.membersAfter, m.scopeId = w.member.scopeId ∧
    m.userId = w.member.userId ∧ m.grant = w.member.grant
  others : c.inserted = none → c.membersAfter = c.membersBefore
  final : ∀ i ∈ c.before, i.status = .accepted → i ∈ c.after

/-- The log, the latest commit first, ends with the tables as they are. -/
def Linked (rows : List BoardInvitation) : List Commit → Prop
  | [] => True
  | c :: log => c.after = rows ∧ Linked c.before log

/-! ### What a transaction has read and holds -/

/-- The same invitation, whatever its status. -/
structure SameRow (i j : BoardInvitation) : Prop where
  id : i.id = j.id
  scopeId : i.scopeId = j.scopeId
  grant : i.grant = j.grant
  expiresAt : i.expiresAt = j.expiresAt

/-- The invitation an accept has found. -/
def Run.invitation? : Run → Option BoardInvitation
  | .acceptFound _ invitation => some invitation
  | .acceptUpdated _ invitation _ => some invitation
  | .acceptInserted _ invitation _ => some invitation
  | _ => none

/-- The invitation an UPDATE has accepted, and its clock reading. -/
def Run.accepting? : Run → Option (BoardInvitation × Nat)
  | .acceptUpdated _ invitation now => some (invitation, now)
  | .acceptInserted _ invitation now => some (invitation, now)
  | _ => none

/-- The row a transaction holds is pending in the committed table. -/
structure RunOk (rows : List BoardInvitation) (r : Run) : Prop where
  found : ∀ invitation, r.invitation? = some invitation → ∃ i ∈ rows, SameRow i invitation
  pending : ∀ inviteId, r.holds? = some inviteId →
    ∃ i ∈ rows, i.id = inviteId ∧ i.status = .pending
  inTime : ∀ invitation now, r.accepting? = some (invitation, now) → now < invitation.expiresAt

structure Inv {Tx : Type} (s : State Tx) : Prop where
  ids : (s.rows.map Invitation.id).Nodup
  run : ∀ t, RunOk s.rows (s.run t)
  locked : ∀ t inviteId, (s.run t).holds? = some inviteId ↔ s.lock inviteId = some t
  accepted : ∀ c ∈ s.log, ∀ inviteId, c.accepts inviteId = true →
    ∃ i ∈ s.rows, i.id = inviteId ∧ i.status = .accepted
  once : ∀ inviteId, (s.log.filter fun c => c.accepts inviteId).length ≤ 1
  sound : ∀ c ∈ s.log, c.Sound
  linked : Linked s.rows s.log

section rows
variable {rows : List BoardInvitation} {cond : BoardInvitation → Bool} {status : InvitationStatus}

/-- A status update that selects no row the run holds. -/
theorem RunOk.update {r : Run} (h : RunOk rows r)
    (hcond : ∀ i ∈ rows, cond i = true → r.holds? ≠ some i.id) :
    RunOk (Table.updateRows cond (fun i => { i with status := status }) rows) r where
  found := by
    intro invitation hfound
    obtain ⟨i, hi, hsame⟩ := h.found invitation hfound
    cases hsel : cond i with
    | true =>
      exact ⟨_, Table.set_mem_updateRows hi hsel,
        ⟨hsame.id, hsame.scopeId, hsame.grant, hsame.expiresAt⟩⟩
    | false => exact ⟨i, Table.mem_updateRows_of_not hi hsel, hsame⟩
  pending := by
    intro inviteId hholds
    obtain ⟨i, hi, hid, hpending⟩ := h.pending inviteId hholds
    cases hsel : cond i with
    | true => exact absurd (hid ▸ hholds) (hcond i hi hsel)
    | false => exact ⟨i, Table.mem_updateRows_of_not hi hsel, hid, hpending⟩
  inTime := h.inTime

theorem ids_updateRows :
    (Table.updateRows cond (fun i : BoardInvitation => { i with status := status }) rows).map
      Invitation.id = rows.map Invitation.id :=
  Table.map_updateRows Invitation.id fun _ => rfl

/-- A status update that selects no accepted row keeps the accepted rows. -/
theorem accepted_mem_updateRows (hcond : ∀ i ∈ rows, cond i = true → i.status ≠ .accepted)
    {i : BoardInvitation} (hi : i ∈ rows) (haccepted : i.status = .accepted) :
    i ∈ Table.updateRows cond (fun i => { i with status := status }) rows := by
  refine Table.mem_updateRows_of_not hi ?_
  cases hsel : cond i with
  | true => exact absurd haccepted (hcond i hi hsel)
  | false => rfl

theorem Commit.accepts_iff {c : Commit} {inviteId : String} :
    c.accepts inviteId = true ↔
      (∃ i ∈ c.before, i.id = inviteId ∧ i.status = .pending) ∧
        ∃ i ∈ c.after, i.id = inviteId ∧ i.status = .accepted := by
  simp [Commit.accepts]

/-- A commit that accepts an invitation by an update selects its row and sets it accepted. -/
theorem selected_of_accepts (hids : (rows.map Invitation.id).Nodup)
    {members members' : List BoardMember} {inserted : Option MemberWrite} {inviteId : String}
    (h : Commit.accepts ⟨rows, Table.updateRows cond (fun i => { i with status := status }) rows,
      members, members', inserted⟩ inviteId = true) :
    status = .accepted ∧ ∃ i ∈ rows, i.id = inviteId ∧ cond i = true := by
  obtain ⟨⟨i, hi, hid, hpending⟩, j, hj, hjd, haccepted⟩ := Commit.accepts_iff.mp h
  obtain ⟨j₀, hj₀, ⟨hsel, rfl⟩ | ⟨-, rfl⟩⟩ := Table.mem_updateRows.mp hj
  · exact ⟨haccepted, j₀, hj₀, hjd, hsel⟩
  · -- the unchanged row would be pending and accepted at once
    obtain rfl : i = j := List.inj_on_of_nodup_map hids hi hj₀ (hid.trans hjd.symm)
    rw [hpending] at haccepted
    cases haccepted

end rows

/-! ### Moves and commits -/

section system
variable {Tx : Type} [DecidableEq Tx] {env : Env} {s : State Tx}

/-- One transaction moves, and the locks with it; the tables stay. -/
theorem Inv.move (h : Inv s) {t : Tx} {r : Run} {lock : String → Option Tx}
    (hr : RunOk s.rows r)
    (hself : ∀ inviteId, r.holds? = some inviteId ↔ lock inviteId = some t)
    (hothers : ∀ t' inviteId, t' ≠ t → (lock inviteId = some t' ↔ s.lock inviteId = some t')) :
    Inv ({ s with lock := lock }.setRun t r) where
  ids := h.ids
  run := by
    intro t'
    by_cases ht : t' = t
    · rw [ht]
      show RunOk s.rows (Function.update s.run t r t)
      rw [Function.update_self]
      exact hr
    · show RunOk s.rows (Function.update s.run t r t')
      rw [Function.update_of_ne ht]
      exact h.run t'
  locked := by
    intro t' inviteId
    show (Function.update s.run t r t').holds? = some inviteId ↔ lock inviteId = some t'
    by_cases ht : t' = t
    · rw [ht, Function.update_self]
      exact hself inviteId
    · rw [Function.update_of_ne ht, h.locked, hothers t' inviteId ht]
  accepted := h.accepted
  once := h.once
  sound := h.sound
  linked := h.linked

/-- A transaction that holds nothing, before and after. -/
theorem Inv.moveFree (h : Inv s) {t : Tx} {r : Run} (hr : RunOk s.rows r)
    (hfree : (s.run t).holds? = none) (hnew : r.holds? = none) : Inv (s.setRun t r) := by
  show Inv ({ s with lock := s.lock }.setRun t r)
  refine h.move hr ?_ fun _ _ _ => Iff.rfl
  intro inviteId
  rw [hnew, ← h.locked, hfree]

/-- A transaction that ends. -/
theorem Inv.release (h : Inv s) (t : Tx) {r : Run} (hr : RunOk s.rows r) (hnew : r.holds? = none) :
    Inv ((s.unlock t).setRun t r) := by
  refine h.move hr ?_ ?_
  · intro inviteId
    rw [hnew]
    by_cases hlock : s.lock inviteId = some t <;> simp [hlock]
  · intro t' inviteId ht
    by_cases hlock : s.lock inviteId = some t
    · simp [hlock, ht.symm]
    · simp [hlock]

omit [DecidableEq Tx] in
/-- A status update is committed. It selects no row that is held, and no accepted one. -/
theorem Inv.commit (h : Inv s) {cond : BoardInvitation → Bool} {status : InvitationStatus}
    {members : List BoardMember} {inserted : Option MemberWrite}
    (hheld : ∀ i ∈ s.rows, cond i = true → s.lock i.id = none)
    (hcond : ∀ i ∈ s.rows, cond i = true → i.status ≠ .accepted)
    (hsound : Commit.Sound
      ⟨s.rows, Table.updateRows cond (fun i => { i with status := status }) s.rows,
      s.members, members, inserted⟩) :
    Inv (s.commit (Table.updateRows cond (fun i => { i with status := status }) s.rows) members
      inserted) where
  ids := by
    show ((Table.updateRows _ _ s.rows).map Invitation.id).Nodup
    rw [ids_updateRows]
    exact h.ids
  run := by
    intro t
    refine (h.run t).update ?_
    intro i hi hsel hholds
    rw [h.locked, hheld i hi hsel] at hholds
    cases hholds
  locked := h.locked
  accepted := by
    intro c hc inviteId haccepts
    rcases List.mem_cons.mp hc with rfl | hc
    · exact (Commit.accepts_iff.mp haccepts).2
    · obtain ⟨i, hi, hid, haccepted⟩ := h.accepted c hc inviteId haccepts
      exact ⟨i, accepted_mem_updateRows hcond hi haccepted, hid, haccepted⟩
  once := by
    intro inviteId
    show (List.filter _ (_ :: s.log)).length ≤ 1
    rw [List.filter_cons]
    split
    · next haccepts =>
      -- the row was pending, so no earlier commit had accepted it
      obtain ⟨⟨i, hi, hid, hpending⟩, -⟩ := Commit.accepts_iff.mp haccepts
      have hnone : s.log.filter (fun c => c.accepts inviteId) = [] := by
        refine List.filter_eq_nil_iff.mpr fun c hc hold => ?_
        obtain ⟨j, hj, hjd, haccepted⟩ := h.accepted c hc inviteId hold
        obtain rfl : i = j := List.inj_on_of_nodup_map h.ids hi hj (hid.trans hjd.symm)
        rw [hpending] at haccepted
        cases haccepted
      rw [hnone]
      exact Nat.le_refl 1
    · exact h.once inviteId
  sound := by
    intro c hc
    rcases List.mem_cons.mp hc with rfl | hc
    · exact hsound
    · exact h.sound c hc
  linked := ⟨rfl, h.linked⟩

/-- A commit that accepts nothing. -/
theorem sound_of_not_accepted {rows : List BoardInvitation} {members : List BoardMember}
    {cond : BoardInvitation → Bool} {status : InvitationStatus}
    (hids : (rows.map Invitation.id).Nodup) (hstatus : status ≠ .accepted)
    (hcond : ∀ i ∈ rows, cond i = true → i.status ≠ .accepted) :
    Commit.Sound ⟨rows, Table.updateRows cond (fun i => { i with status := status }) rows, members,
      members, none⟩ where
  inserts := fun _ haccepts => absurd (selected_of_accepts hids haccepts).1 hstatus
  accepts := fun _ hinserted => by cases hinserted
  joined := fun _ hinserted => by cases hinserted
  others := fun _ => rfl
  final := fun _ hi haccepted => accepted_mem_updateRows hcond hi haccepted

/-- The membership is there after its upsert. -/
theorem exists_member_of_upsert {invitation : BoardInvitation} {userId : String}
    {members members' : List BoardMember}
    (h : upsertBoardMember env invitation userId members = .ok members') :
    ∃ m ∈ members', m.scopeId = invitation.scopeId ∧ m.userId = userId ∧
      m.grant = invitation.grant := by
  simp only [upsertBoardMember, liftDb_eq_ok_iff, Table.upsert] at h
  split at h
  · next hany =>
    obtain ⟨-, rfl⟩ := Table.update_eq_ok_iff.mp h
    obtain ⟨m, hm, hkey⟩ := List.any_eq_true.mp hany
    refine ⟨_, Table.set_mem_updateRows hm hkey, ?_⟩
    simp only [Bool.and_eq_true, beq_iff_eq] at hkey
    exact ⟨hkey.1, hkey.2, rfl⟩
  · obtain ⟨-, -, -, rfl⟩ := Table.insert_eq_ok_iff.mp h
    exact ⟨_, List.mem_append_right _ (List.mem_singleton.mpr rfl), rfl, rfl, rfl⟩

/-! ### What a step does -/

variable (env) in
/-- A step moves one transaction, commits one, or runs a single statement. -/
inductive Effect (s : State Tx) : State Tx → Prop where
  | stays : Effect s s
  /-- A transaction that holds nothing goes on. -/
  | moves (t : Tx) (r : Run) (hr : RunOk s.rows r) (hfree : (s.run t).holds? = none)
      (hnew : r.holds? = none) : Effect s (s.setRun t r)
  /-- An UPDATE takes the row of a pending invitation, which nobody holds. -/
  | locks (t : Tx) (r : Run) (inviteId : String) (hr : RunOk s.rows r)
      (hfree : (s.run t).holds? = none) (hnew : r.holds? = some inviteId)
      (hunlocked : s.lock inviteId = none) :
      Effect s ({ s with lock := Function.update s.lock inviteId (some t) }.setRun t r)
  /-- The membership is written. -/
  | inserts (t : Tx) (userId : String) (invitation : BoardInvitation) (now : Nat)
      (hrun : s.run t = .acceptUpdated userId invitation now) :
      Effect s (s.setRun t (.acceptInserted userId invitation now))
  | fails (t : Tx) : Effect s ((s.unlock t).setRun t .failed)
  | acceptCommits (t : Tx) (userId : String) (invitation : BoardInvitation) (now : Nat)
      (members : List BoardMember) (hrun : s.run t = .acceptInserted userId invitation now)
      (hmembers : upsertBoardMember env invitation userId s.members = .ok members) :
      Effect s (((s.commit (setStatusById invitation.id .accepted s.rows) members
        (some ⟨memberOf invitation userId, now⟩)).unlock t).setRun t .done)
  | declineCommits (t : Tx) (inviteId : String) (updated : Bool)
      (hrun : s.run t = .declineUpdated inviteId updated) :
      Effect s (((s.commit (if updated then setStatusById inviteId .revoked s.rows else s.rows)
        s.members none).unlock t).setRun t .done)
  | changes (cond : BoardInvitation → Bool) (status : InvitationStatus)
      (hstatus : status ≠ .accepted) (hcond : ∀ i, cond i = true → i.status ≠ .accepted)
      (hheld : ∀ i ∈ s.rows, cond i = true → s.lock i.id = none) :
      Effect s (s.commit (Table.updateRows cond (fun i => { i with status := status }) s.rows)
        s.members none)

omit [DecidableEq Tx] in
theorem unlocked_of_not_blocked {cond : BoardInvitation → Bool} (h : s.blocked cond = false) :
    ∀ i ∈ s.rows, cond i = true → s.lock i.id = none := by
  intro i hi hcond
  have hi' := List.any_eq_false.mp h i hi
  simpa [hcond] using hi'

theorem RunOk.of_quiet {rows : List BoardInvitation} {r : Run} (hinvitation : r.invitation? = none)
    (hholds : r.holds? = none) (haccepting : r.accepting? = none) : RunOk rows r :=
  ⟨by simp [hinvitation], by simp [hholds], by simp [haccepting]⟩

theorem acceptSelect_effect {s' : State Tx} {t : Tx} {token userId : String}
    (h : step env s (.acceptSelect t token userId) = some s') : Effect env s s' := by
  simp only [step] at h
  split at h
  case h_2 => cases h
  next hidle =>
  have hfree : (s.run t).holds? = none := by rw [hidle]; rfl
  split at h
  · exact Option.some.inj h ▸ .moves t .failed (.of_quiet rfl rfl rfl) hfree rfl
  split at h
  · exact Option.some.inj h ▸ .moves t .failed (.of_quiet rfl rfl rfl) hfree rfl
  next invitation hfound =>
  refine Option.some.inj h ▸ .moves t _
    ⟨?_, by simp [Run.holds?], by simp [Run.accepting?]⟩ hfree rfl
  intro invitation' hinvitation
  obtain rfl : invitation = invitation' := Option.some.inj hinvitation
  exact ⟨invitation, (findByToken_eq_some hfound).1, rfl, rfl, rfl, rfl⟩

theorem acceptUpdate_effect {s' : State Tx} (hs : Inv s) {t : Tx} {now : Nat}
    (h : step env s (.acceptUpdate t now) = some s') : Effect env s s' := by
  simp only [step] at h
  split at h
  case h_2 => cases h
  next userId invitation hrun =>
  have hfree : (s.run t).holds? = none := by rw [hrun]; rfl
  split at h
  · cases h
  next hblocked =>
  split at h
  · exact Option.some.inj h ▸ .moves t .failed (.of_quiet rfl rfl rfl) hfree rfl
  split at h
  · next hany =>
    obtain ⟨i, hi, hacceptable⟩ := List.any_eq_true.mp hany
    obtain ⟨hid, hpending, hnow⟩ := acceptable_iff.mp hacceptable
    have hunlocked := unlocked_of_not_blocked (by simpa using hblocked) i hi hacceptable
    -- the row updated is the one the accept has found
    obtain ⟨j, hj, hsame⟩ := (hs.run t).found invitation (by rw [hrun]; rfl)
    obtain rfl : i = j := List.inj_on_of_nodup_map hs.ids hi hj (hid.trans hsame.id.symm)
    refine Option.some.inj h ▸ .locks t _ invitation.id ⟨?_, ?_, ?_⟩ hfree rfl (hid ▸ hunlocked)
    · intro invitation' hinvitation
      obtain rfl : invitation = invitation' := Option.some.inj hinvitation
      exact ⟨i, hi, hsame⟩
    · intro inviteId hholds
      obtain rfl : invitation.id = inviteId := Option.some.inj hholds
      exact ⟨i, hi, hid, hpending⟩
    · intro invitation' now' haccepting
      obtain ⟨rfl, rfl⟩ := Prod.mk.inj (Option.some.inj haccepting)
      exact hsame.expiresAt ▸ hnow
  · exact Option.some.inj h ▸ .moves t .failed (.of_quiet rfl rfl rfl) hfree rfl

theorem declineSelect_effect {s' : State Tx} {t : Tx} {token userId : String}
    (h : step env s (.declineSelect t token userId) = some s') : Effect env s s' := by
  simp only [step] at h
  split at h
  case h_2 => cases h
  next hidle =>
  have hfree : (s.run t).holds? = none := by rw [hidle]; rfl
  split at h
  · exact Option.some.inj h ▸ .moves t .failed (.of_quiet rfl rfl rfl) hfree rfl
  split at h
  · exact Option.some.inj h ▸ .moves t .done (.of_quiet rfl rfl rfl) hfree rfl
  · exact Option.some.inj h ▸ .moves t (.declineFound _) (.of_quiet rfl rfl rfl) hfree rfl

theorem declineUpdate_effect {s' : State Tx} {t : Tx}
    (h : step env s (.declineUpdate t) = some s') : Effect env s s' := by
  simp only [step] at h
  split at h
  case h_2 => cases h
  next inviteId hrun =>
  have hfree : (s.run t).holds? = none := by rw [hrun]; rfl
  split at h
  · cases h
  next hblocked =>
  split at h
  · exact Option.some.inj h ▸ .moves t .failed (.of_quiet rfl rfl rfl) hfree rfl
  split at h
  · next hany =>
    obtain ⟨i, hi, hsel⟩ := List.any_eq_true.mp hany
    have hunlocked := unlocked_of_not_blocked (by simpa using hblocked) i hi hsel
    simp only [stillPending, Bool.and_eq_true, beq_iff_eq] at hsel
    refine Option.some.inj h ▸ .locks t _ inviteId
      ⟨by simp [Run.invitation?], ?_, by simp [Run.accepting?]⟩ hfree rfl (hsel.1 ▸ hunlocked)
    intro inviteId' hholds
    obtain rfl : inviteId = inviteId' := Option.some.inj hholds
    exact ⟨i, hi, hsel⟩
  · exact Option.some.inj h ▸
      .moves t (.declineUpdated inviteId false) (.of_quiet rfl rfl rfl) hfree
      rfl

/-- Every step has one of these effects. -/
theorem step_effect {s' : State Tx} (hs : Inv s) {l : Label Tx} (h : step env s l = some s') :
    Effect env s s' := by
  cases l with
  | acceptSelect t token userId => exact acceptSelect_effect h
  | acceptUpdate t now => exact acceptUpdate_effect hs h
  | acceptInsert t =>
    simp only [step] at h
    split at h
    case h_2 => cases h
    next userId invitation now hrun =>
    split at h
    · exact Option.some.inj h ▸ .inserts t userId invitation now hrun
    · exact Option.some.inj h ▸ .fails t
  | acceptCommit t =>
    simp only [step] at h
    split at h
    case h_2 => cases h
    next userId invitation now hrun =>
    split at h
    · next members hmembers =>
      exact Option.some.inj h ▸ .acceptCommits t userId invitation now members hrun hmembers
    · exact Option.some.inj h ▸ .fails t
  | declineSelect t token userId => exact declineSelect_effect h
  | declineUpdate t => exact declineUpdate_effect h
  | declineCommit t =>
    simp only [step] at h
    split at h
    case h_2 => cases h
    next inviteId updated hrun =>
    exact Option.some.inj h ▸ .declineCommits t inviteId updated hrun
  | rollback t =>
    simp only [step] at h
    split at h
    · cases h
    · cases h
    · exact Option.some.inj h ▸ .fails t
  | revoke boardId inviteId =>
    simp only [step] at h
    split at h
    · cases h
    next hblocked =>
    split at h
    · exact Option.some.inj h ▸ .stays
    next rows hset =>
    obtain ⟨-, rfl⟩ := setStatus_eq_ok_iff.mp hset
    refine Option.some.inj h ▸ .changes _ _ (by decide) ?_
      (unlocked_of_not_blocked (by simpa using hblocked))
    intro i hsel
    simp only [revocable, Bool.and_eq_true, beq_iff_eq] at hsel
    rw [hsel.2]
    decide
  | expire inviteIds =>
    simp only [step] at h
    split at h
    · exact Option.some.inj h ▸ .stays
    split at h
    · cases h
    next hblocked =>
    split at h
    · exact Option.some.inj h ▸ .stays
    next rows hset =>
    obtain ⟨-, rfl⟩ := setStatus_eq_ok_iff.mp hset
    refine Option.some.inj h ▸ .changes _ _ (by decide) ?_
      (unlocked_of_not_blocked (by simpa using hblocked))
    intro i hsel
    simp only [expirable, Bool.and_eq_true, bne_iff_ne] at hsel
    exact hsel.2

/-! ### The invariant -/

theorem Inv.lock (h : Inv s) {t : Tx} {r : Run} {inviteId : String} (hr : RunOk s.rows r)
    (hfree : (s.run t).holds? = none) (hnew : r.holds? = some inviteId)
    (hunlocked : s.lock inviteId = none) :
    Inv ({ s with lock := Function.update s.lock inviteId (some t) }.setRun t r) := by
  refine h.move hr ?_ ?_
  · intro inviteId'
    rw [hnew, Function.update_apply]
    split
    · next heq => simp [heq]
    · next hne =>
      rw [← h.locked, hfree]
      simp [Ne.symm hne]
  · intro t' inviteId' ht
    rw [Function.update_apply]
    split
    · next heq => simp [heq, hunlocked, ht.symm]
    · rfl

/-- The commit of an accept. -/
theorem Inv.acceptCommit (h : Inv s) {t : Tx} {userId : String} {invitation : BoardInvitation}
    {now : Nat} {members : List BoardMember}
    (hrun : s.run t = .acceptInserted userId invitation now)
    (hmembers : upsertBoardMember env invitation userId s.members = .ok members) :
    Inv (((s.commit (setStatusById invitation.id .accepted s.rows) members
      (some ⟨memberOf invitation userId, now⟩)).unlock t).setRun t .done) := by
  have hok := h.run t
  rw [hrun] at hok
  obtain ⟨i, hi, hid, hpending⟩ := hok.pending invitation.id rfl
  obtain ⟨j, hj, hsame⟩ := hok.found invitation rfl
  obtain rfl : i = j := List.inj_on_of_nodup_map h.ids hi hj (hid.trans hsame.id.symm)
  have hnow : now < i.expiresAt := hsame.expiresAt ▸ hok.inTime invitation now rfl
  have hselected : ∀ k ∈ s.rows, (k.id == invitation.id) = true → k = i := by
    intro k hk hsel
    exact List.inj_on_of_nodup_map h.ids hk hi ((beq_iff_eq.mp hsel).trans hid.symm)
  have hcond : ∀ k ∈ s.rows, (k.id == invitation.id) = true → k.status ≠ .accepted := by
    intro k hk hsel
    rw [hselected k hk hsel, hpending]
    decide
  have hreleased : Inv ((s.unlock t).setRun t .done) := h.release t (.of_quiet rfl rfl rfl) rfl
  refine hreleased.commit ?_ hcond ?_
  · intro k hk hsel
    have hlock : s.lock invitation.id = some t := (h.locked t invitation.id).mp (by rw [hrun]; rfl)
    show (if s.lock k.id = some t then none else s.lock k.id) = none
    rw [beq_iff_eq.mp hsel, if_pos hlock]
  · -- the commit accepts this invitation and no other
    have hone : ∀ inviteId, Commit.accepts ⟨s.rows, setStatusById invitation.id .accepted s.rows,
        s.members, members, some ⟨memberOf invitation userId, now⟩⟩ inviteId = true ↔
        inviteId = invitation.id := by
      intro inviteId
      constructor
      · intro haccepts
        obtain ⟨-, k, -, hkd, hsel⟩ := selected_of_accepts h.ids haccepts
        exact hkd.symm.trans (beq_iff_eq.mp hsel)
      · rintro rfl
        exact Commit.accepts_iff.mpr ⟨⟨i, hi, hid, hpending⟩, _,
          Table.set_mem_updateRows hi (beq_iff_eq.mpr hid), hid, rfl⟩
    exact {
      inserts := by
        intro inviteId haccepts
        obtain rfl := (hone inviteId).mp haccepts
        exact ⟨_, rfl, i, hi, hid, hnow, hsame.scopeId.symm, hsame.grant.symm⟩
      accepts := fun _ _ => ⟨invitation.id, hone⟩
      joined := by
        intro w hw
        obtain rfl := Option.some.inj hw
        exact exists_member_of_upsert hmembers
      others := fun hnone => by cases hnone
      final := fun k hk haccepted => accepted_mem_updateRows hcond hk haccepted }

/-- The commit of a decline. -/
theorem Inv.declineCommit (h : Inv s) {t : Tx} {inviteId : String} {updated : Bool}
    (hrun : s.run t = .declineUpdated inviteId updated) :
    Inv (((s.commit (if updated then setStatusById inviteId .revoked s.rows else s.rows)
      s.members none).unlock t).setRun t .done) := by
  have hreleased : Inv ((s.unlock t).setRun t .done) := h.release t (.of_quiet rfl rfl rfl) rfl
  have hok := h.run t
  rw [hrun] at hok
  cases updated with
  | false =>
    -- nothing is selected
    have hnone : ∀ k ∈ s.rows, (fun _ : BoardInvitation => false) k = true →
        k.status ≠ .accepted := fun _ _ hsel => by cases hsel
    have hsound : Commit.Sound ⟨s.rows, Table.updateRows (fun _ => false)
        (fun i => { i with status := .revoked }) s.rows, s.members, s.members, none⟩ :=
      sound_of_not_accepted h.ids (by decide) hnone
    have hrows : Table.updateRows (fun _ : BoardInvitation => false)
        (fun i => { i with status := .revoked }) s.rows = s.rows :=
      Table.updateRows_eq_self fun _ _ => rfl
    exact hrows ▸ hreleased.commit (fun _ _ hsel => by cases hsel) hnone hsound
  | true =>
    obtain ⟨i, hi, hid, hpending⟩ := hok.pending inviteId rfl
    have hcond : ∀ k ∈ s.rows, (k.id == inviteId) = true → k.status ≠ .accepted := by
      intro k hk hsel
      obtain rfl : k = i :=
        List.inj_on_of_nodup_map h.ids hk hi ((beq_iff_eq.mp hsel).trans hid.symm)
      rw [hpending]
      decide
    refine hreleased.commit ?_ hcond (sound_of_not_accepted h.ids (by decide) hcond)
    intro k hk hsel
    have hlock : s.lock inviteId = some t := (h.locked t inviteId).mp (by rw [hrun]; rfl)
    show (if s.lock k.id = some t then none else s.lock k.id) = none
    rw [beq_iff_eq.mp hsel, if_pos hlock]

theorem step_inv {s' : State Tx} {l : Label Tx} (h : Inv s) (hstep : step env s l = some s') :
    Inv s' := by
  cases step_effect h hstep with
  | stays => exact h
  | moves t r hr hfree hnew => exact h.moveFree hr hfree hnew
  | locks t r inviteId hr hfree hnew hunlocked => exact h.lock hr hfree hnew hunlocked
  | inserts t userId invitation now hrun =>
    have hok := h.run t
    rw [hrun] at hok
    show Inv ({ s with lock := s.lock }.setRun t _)
    refine h.move ⟨hok.found, hok.pending, hok.inTime⟩ ?_ fun _ _ _ => Iff.rfl
    intro inviteId
    rw [← h.locked, hrun]
    rfl
  | fails t => exact h.release t (.of_quiet rfl rfl rfl) rfl
  | acceptCommits t userId invitation now members hrun hmembers =>
    exact h.acceptCommit hrun hmembers
  | declineCommits t inviteId updated hrun => exact h.declineCommit hrun
  | changes cond status hstatus hcond hheld =>
    exact h.commit hheld (fun i _ => hcond i)
      (sound_of_not_accepted h.ids hstatus fun i _ => hcond i)

omit [DecidableEq Tx] in
theorem Init.inv (h : Init env s) : Inv s where
  ids := by
    refine List.pairwise_map.mpr (h.rows.unique.imp fun {i j} hclash => ?_)
    simp only [boardInvitationConstraints, invitationConstraints, Invitation.clash,
      Bool.or_eq_false_iff, beq_eq_false_iff_ne] at hclash
    exact hclash.1.1
  run := fun t => by rw [h.run t]; exact .of_quiet rfl rfl rfl
  locked := fun t inviteId => by simp [h.run t, h.lock inviteId, Run.holds?]
  accepted := by simp [h.log]
  once := by simp [h.log]
  sound := by simp [h.log]
  linked := by rw [h.log]; trivial

/-- Over every run: the commits lead to the tables as they are, no invitation goes from pending to
    accepted twice, a membership is inserted exactly with such a change and in time, and what was
    accepted stays. -/
theorem invitation_accepted_once (h : (system Tx env).Reachable s) :
    Linked s.rows s.log ∧ (∀ inviteId, (s.log.filter fun c => c.accepts inviteId).length ≤ 1) ∧
      ∀ c ∈ s.log, c.Sound := by
  have hs : Inv s := h.invariant (fun _ => Init.inv) (fun _ _ _ => step_inv)
  exact ⟨hs.linked, hs.once, hs.sound⟩

end system

/-- The teammate is invited. -/
def oneInvited : State Bool where
  rows := [⟨"1", "board", "owner", "mate@example.com", .view, .pending, "token", 10⟩]
  members := []
  run := fun _ => .idle
  lock := fun _ => none
  log := []

theorem oneInvited_init : Init team oneInvited :=
  ⟨⟨by decide, .cons (by simp) .nil, by decide⟩, fun _ => rfl, fun _ => rfl, rfl⟩

/-- An accept and a decline have both found the invitation; the decline is late. -/
theorem invitation_accepted_once_run :
    ∃ s : State Bool, s.members = [⟨"board", "mate", .view, some "owner"⟩] ∧
      Linked s.rows s.log ∧ (∀ inviteId, (s.log.filter fun c => c.accepts inviteId).length ≤ 1) ∧
        ∀ c ∈ s.log, c.Sound := by
  obtain ⟨s, hs, hmembers⟩ : ∃ s, (system Bool team).exec oneInvited
      [.acceptSelect false "token" "mate", .declineSelect true "token" "mate",
        .acceptUpdate false 3,
        .acceptInsert false, .acceptCommit false, .declineUpdate true, .declineCommit true,
        .revoke "board" "1", .expire ["1"]] = some s ∧
      s.members = [⟨"board", "mate", .view, some "owner"⟩] := ⟨_, rfl, rfl⟩
  exact ⟨s, hmembers, invitation_accepted_once (.exec (.init oneInvited_init) hs)⟩

end Notebortt.Invitations.AcceptRaces
