import Notebortt.Requests.Handlers
import Notebortt.Requests.Stability

/-! # What the handlers write, and after which check

    One lemma for all handlers: a handler writes what its request asks for, in
    tables that are later than the ones its check has passed in. Everything
    that any schedule of the requests keeps is proved from it. -/

open Table (Constraints)
open Interleaving (Program)

namespace Notebortt.Requests

open Invitations Access

/-! ### The checks -/

def roleOf (db : Tables) (workspaceId userId : String) : Option String :=
  (memberOf db.access.workspaceMembers workspaceId userId).map (·.grant)

/-- The board was read in the first tables, the role in its workspace in the second ones. -/
def BoardRole (allowed : Option String → Bool) (boardId userId : String) (db₀ db₁ : Tables) :
    Prop :=
  ∃ board, Access.getBoard db₀.access boardId = some board ∧
    allowed (roleOf db₁ board.workspaceId userId) = true

/-- The check of the handler has passed. -/
def Action.Passed (userId : String) (db₀ db₁ : Tables) : Action → Prop
  | .patchWorkspace wid _ | .deleteWorkspaceMember wid _ | .postWorkspaceInvitation wid _ _ _ =>
    isOwnerOrAdmin (roleOf db₁ wid userId) = true
  | .postBoard wid _ => canCreateBoards (roleOf db₁ wid userId) = true
  | .patchBoard boardId _ | .duplicateBoard boardId =>
    BoardRole canCreateBoards boardId userId db₀ db₁
  | .deleteBoard boardId => BoardRole canDeleteBoards boardId userId db₀ db₁
  | .postBoardMember boardId _ _ | .patchBoardMember boardId _ _ | .deleteBoardMember boardId _
  | .postBoardInvite boardId _ _ _ | .deleteBoardInvite boardId _ | .patchLinkSharing boardId _ _
  | .rotateLinkSharing boardId _ => BoardRole canManageBoardAccess boardId userId db₀ db₁
  | .postWorkspace _ | .acceptWorkspaceInvitation _ _ | .putFavorite _ _ | .deleteFavorite _ _
  | .leaveBoard _ | .acceptBoardInvite _ _ | .declinePendingInvite _ => True

/-- The invitation found is still the one with its id, and is to an address of the user. -/
structure Found {Grant : Type} (rt : Runtime) (db : Tables) (rows : List (Invitation Grant))
    (invitation : Invitation Grant) (userId : String) : Prop where
  same : ∀ i ∈ rows, i.id = invitation.id → SameInvitation invitation i
  addressee : ∃ u ∈ db.users, u.id = userId ∧
    (db.env rt).normalizeEmail u.email = invitation.emailLower

/-- What the request of this user writes in the tables. -/
def Action.Writes (rt : Runtime) (userId : String) (db : Tables) : Action → Write → Prop
  | .postWorkspace name, write => write = .createWorkspace name userId
  | .patchWorkspace wid name, write => write = .renameWorkspace wid name
  | .deleteWorkspaceMember wid memberId, write =>
    write = .deleteWorkspaceMember memberId ∧
      ∀ m ∈ db.workspaceMembers, m.id = memberId → m.scopeId = wid ∧ m.grant ≠ "owner"
  | .postWorkspaceInvitation wid email role now, write =>
    write = .insertInvitation wid email (role.getD .viewer).text userId now
  | .acceptWorkspaceInvitation _ now, write =>
    ∃ invitation, write = .acceptInvitation invitation userId now ∧
      Found rt db db.workspaceInvitations invitation userId
  | .postBoard wid name, write => write = .createBoard wid name
  | .patchBoard boardId name, write => write = .renameBoard boardId name
  | .duplicateBoard boardId, write => write = .duplicateBoard boardId
  | .deleteBoard boardId, write => write = .deleteBoard boardId
  | .putFavorite boardId now, write => write = .addBoardFavorite boardId userId now
  | .deleteFavorite boardId _, write => write = .removeBoardFavorite boardId userId
  | .leaveBoard boardId, write => write = .leaveBoard boardId userId
  | .postBoardMember boardId memberUserId permission, write =>
    write = .upsertBoardMember boardId memberUserId (orView permission) userId
  | .patchBoardMember boardId memberId permission, write =>
    write = .updateBoardMemberPermission boardId memberId permission
  | .deleteBoardMember boardId memberId, write => write = .deleteBoardMember boardId memberId
  | .postBoardInvite boardId email permission now, write =>
    write = .insertBoardInvitation boardId userId email (orView permission) now
  | .acceptBoardInvite _ now, write =>
    ∃ invitation, write = .acceptBoardInvitation invitation userId now ∧
      Found rt db db.boardInvitations invitation userId
  | .declinePendingInvite _, write =>
    ∃ inviteId, write = .declineBoardInvitation inviteId ∨ write = .declineInvitation inviteId
  | .deleteBoardInvite boardId inviteId, write => write = .revokeBoardInvitation boardId inviteId
  | .patchLinkSharing boardId permission enabled, write =>
    write = .setBoardLinkShare boardId (orView permission) enabled
  | .rotateLinkSharing boardId permission, write =>
    write = .rotateBoardLinkShareToken boardId permission

/-! ### Parts of the handlers -/

section parts
variable {rt : Runtime} {I : Tables → Prop} {may : Tables → Write → Prop} {db : Tables}

/-- Whatever the others write, the program writes only what it may. -/
def Obeys (rt : Runtime) (I : Tables → Prop) (may : Tables → Write → Prop) {α : Type}
    (p : Service α) (db : Tables) : Prop :=
  p.Follows (Write.apply rt) (storedWith rt I may) (fun _ _ => True) db

theorem Obeys.done {α : Type} {a : α} : Obeys rt I may (.done a) db := trivial

theorem Obeys.fail {α : Type} {e : RequestError} : Obeys rt I may (.fail e : Service α) db :=
  trivial

/-- A query is read in later tables, and the program goes on in these. -/
theorem Obeys.read {α β : Type} {f : Tables → α} {g : α → Service β}
    (h : ∀ db', Stored rt db' → I db' → Later rt db db' → Obeys rt I may (g (f db')) db') :
    Obeys rt I may (Program.read f >>= g) db := by
  rintro db' ⟨hstored, hI⟩ hlater
  exact ⟨nofun, h db' hstored hI hlater⟩

theorem Obeys.execute {α : Type} {write : Write} {answer : Tables → Tables → α}
    (h : ∀ db', Stored rt db' → I db' → Later rt db db' → may db' write) :
    Obeys rt I may (execute rt write answer) db :=
  Program.Follows.perform fun db' hinv hlater => ⟨h db' hinv.1 hinv.2 hlater, trivial⟩

theorem Obeys.bind {α β : Type} {p : Service α} {f : α → Service β} (h : Obeys rt I may p db)
    (hf : ∀ a db', Obeys rt I may (f a) db') : Obeys rt I may (p >>= f) db :=
  Program.Follows.bind <| h.mono fun r s _ => by
    cases r with
    | ok a => exact hf a s
    | error e => trivial

theorem Obeys.orElse {α : Type} {p : Service α} {f : RequestError → Service α}
    (h : Obeys rt I may p db) (hf : ∀ e db', Obeys rt I may (f e) db') :
    Obeys rt I may (p.orElse f) db :=
  Program.Follows.orElse <| h.mono fun r s _ => by
    cases r with
    | ok a => trivial
    | error e => exact hf e s

/-- The role in a workspace is read, and the service is called when it is allowed. -/
theorem Obeys.guardedWorkspace {wid userId : String} {allowed : Option String → Bool}
    {service : Service Response}
    (h : ∀ db₁, Stored rt db₁ → I db₁ → Later rt db db₁ →
      allowed (roleOf db₁ wid userId) = true → Obeys rt I may service db₁) :
    Obeys rt I may (guarded (getWorkspaceMemberRole wid userId) allowed service) db := by
  refine Obeys.read fun db₁ hstored hI hlater => ?_
  split
  · next hallowed => exact h db₁ hstored hI hlater hallowed
  · exact Obeys.done

/-- The board is read, then the role in its workspace, and the program goes on with it. -/
theorem Obeys.getWorkspaceRoleForBoard {α : Type} {boardId userId : String}
    {f : Option String → Service α}
    (hnone : ∀ db₀, Later rt db db₀ → Obeys rt I may (f none) db₀)
    (h : ∀ db₀ db₁ board, Stored rt db₀ → I db₀ → Stored rt db₁ → I db₁ → Later rt db db₀ →
      Later rt db₀ db₁ → Access.getBoard db₀.access boardId = some board →
      Obeys rt I may (f (roleOf db₁ board.workspaceId userId)) db₁) :
    Obeys rt I may (getWorkspaceRoleForBoard boardId userId >>= f) db := by
  rw [Requests.getWorkspaceRoleForBoard, Program.bind_assoc]
  refine Obeys.read fun db₀ hstored₀ hI₀ hlater₀ => ?_
  split
  · exact hnone db₀ hlater₀
  · next board hboard =>
    exact Obeys.read fun db₁ hstored₁ hI₁ hlater =>
      h db₀ db₁ board hstored₀ hI₀ hstored₁ hI₁ hlater₀ hlater hboard

theorem Obeys.guardedBoard {boardId userId : String} {allowed : Option String → Bool}
    {service : Service Response} (hnone : allowed none = false)
    (h : ∀ db₀ db₁, Stored rt db₀ → I db₀ → Stored rt db₁ → I db₁ → Later rt db db₀ →
      Later rt db₀ db₁ → BoardRole allowed boardId userId db₀ db₁ →
      Obeys rt I may service db₁) :
    Obeys rt I may (guarded (Requests.getWorkspaceRoleForBoard boardId userId) allowed service)
      db := by
  refine Obeys.getWorkspaceRoleForBoard ?_ ?_
  · intro db₀ _
    rw [hnone]
    exact Obeys.done
  · intro db₀ db₁ board hstored₀ hI₀ hstored₁ hI₁ hlater₀ hlater hboard
    split
    · next hallowed =>
      exact h db₀ db₁ hstored₀ hI₀ hstored₁ hI₁ hlater₀ hlater ⟨board, hboard, hallowed⟩
    · exact Obeys.done

theorem Obeys.createBoardInvitation {boardId invitedBy email : String}
    {permission : BoardPermission} {now : Nat}
    (h : ∀ db', Stored rt db' → I db' → Later rt db db' →
      may db' (.insertBoardInvitation boardId invitedBy email permission now)) :
    Obeys rt I may (createBoardInvitation rt boardId invitedBy email permission now) db := by
  refine Obeys.read fun db₁ _ _ hlater₁ => ?_
  split
  · exact Obeys.done
  · refine Obeys.orElse (Obeys.execute fun db' hstored hI hlater =>
      h db' hstored hI (hlater₁.trans hlater)) ?_
    intro e db₂
    split
    · refine Obeys.read fun db₃ _ _ _ => ?_
      split
      · exact Obeys.done
      · exact Obeys.fail
    · exact Obeys.fail

theorem Obeys.createInvitation {workspaceId email role invitedBy : String} {now : Nat}
    (h : ∀ db', Stored rt db' → I db' → Later rt db db' →
      may db' (.insertInvitation workspaceId email role invitedBy now)) :
    Obeys rt I may (createInvitation rt workspaceId email role invitedBy now) db := by
  refine Obeys.read fun db₁ _ _ hlater₁ => ?_
  split
  · exact Obeys.done
  · refine Obeys.orElse (Obeys.execute fun db' hstored hI hlater =>
      h db' hstored hI (hlater₁.trans hlater)) ?_
    intro e db₂
    split
    · refine Obeys.read fun db₃ _ _ _ => ?_
      split
      · exact Obeys.done
      · exact Obeys.fail
    · exact Obeys.fail

/-- The address of the user is read, and the program goes on with it. -/
theorem Obeys.getUserEmail {α : Type} {userId : String} {f : String → Service α}
    (h : ∀ u db', Stored rt db' → I db' → Later rt db db' → u ∈ db'.users → u.id = userId →
      Obeys rt I may (f u.email) db') :
    Obeys rt I may (getUserEmail rt userId >>= f) db := by
  rintro db' ⟨hstored, hI⟩ hlater
  refine ⟨nofun, ?_⟩
  show Obeys rt I may (Program.ofExcept (ofCall (Invitations.getUserEmail (db'.env rt) userId))
    >>= f) db'
  rw [Invitations.getUserEmail]
  split
  · next u hu =>
    split
    · exact Obeys.fail
    · refine h u db' hstored hI hlater (List.mem_of_find?_eq_some hu) ?_
      simpa using List.find?_some hu
  · exact Obeys.fail

/-- What was found under its token is later still the invitation with its id. -/
theorem found_of_later {Grant : Type} {rows rows' : List (Invitation Grant)}
    {c : Constraints (Invitation Grant)} {invitation : Invitation Grant} {userId : String}
    {u : User} {db' : Tables} (hclash : c.clash = Invitation.clash) (hholds : c.Holds rows)
    (hmem : invitation ∈ rows) (hdrawn : rt.Drawn db.drawn invitation.id)
    (hlater : ∀ i' ∈ rows', rt.Drawn db.drawn i'.id → ∃ i ∈ rows, SameInvitation i i')
    (hu : u ∈ db'.users) (hid : u.id = userId)
    (hemail : (db'.env rt).normalizeEmail u.email = invitation.emailLower) :
    Found rt db' rows' invitation userId where
  same := by
    intro i' hi' hsame
    obtain ⟨i, hi, hii'⟩ := hlater i' hi' (hsame ▸ hdrawn)
    have hone : i = invitation := hholds.eq_of_clash hi hmem <| by
      rw [hclash]
      simp [Invitation.clash, ← hii'.id, hsame]
    exact hone ▸ hii'
  addressee := ⟨u, hu, hid, hemail⟩

theorem Obeys.acceptBoardInvitationByToken {token userId : String} {now : Nat}
    (h : ∀ db' invitation, Stored rt db' → I db' → Later rt db db' →
      Found rt db' db'.boardInvitations invitation userId →
      may db' (.acceptBoardInvitation invitation userId now)) :
    Obeys rt I may (acceptBoardInvitationByToken rt token userId now) db := by
  refine Obeys.getUserEmail fun u db₀ _ _ hlater₀ hu hid => ?_
  refine Obeys.read fun db₁ hstored₁ _ hlater₁ => ?_
  split
  · exact Obeys.fail
  · next invitation hfound =>
    refine Obeys.execute fun db' hstored hI hlater => ?_
    refine h db' invitation hstored hI ((hlater₀.trans hlater₁).trans hlater) ?_
    have hmatch := List.find?_some hfound
    simp only [Bool.and_eq_true, beq_iff_eq] at hmatch
    have hmem := List.mem_of_find?_eq_some hfound
    exact found_of_later rfl hstored₁.valid.boardInvitations hmem
      (hstored₁.drawn.boardInvitations _ hmem) hlater.boardInvitations
      (hlater.users u (hlater₁.users u hu)) hid hmatch.2.symm

theorem Obeys.acceptInvitation {token userId : String} {now : Nat}
    (h : ∀ db' invitation, Stored rt db' → I db' → Later rt db db' →
      Found rt db' db'.workspaceInvitations invitation userId →
      may db' (.acceptInvitation invitation userId now)) :
    Obeys rt I may (acceptInvitation rt token userId now) db := by
  rintro db₀ ⟨hstored₀, hI₀⟩ hlater₀
  refine ⟨nofun, ?_⟩
  show Obeys rt I may ((Program.ofExcept (ofCall
    (Invitations.getUserEmail (db₀.env rt) userId))).orElse _ >>= _) db₀
  rw [Invitations.getUserEmail]
  split
  · next u hu =>
    split
    · exact Obeys.fail
    · refine Obeys.read fun db₁ hstored₁ _ hlater₁ => ?_
      split
      · exact Obeys.fail
      · next invitation hfound =>
        split
        · exact Obeys.fail
        · next hemail =>
          refine Obeys.execute fun db' hstored hI hlater => ?_
          refine h db' invitation hstored hI ((hlater₀.trans hlater₁).trans hlater) ?_
          have hmem := List.mem_of_find?_eq_some hfound
          exact found_of_later rfl hstored₁.valid.workspaceInvitations hmem
            (hstored₁.drawn.workspaceInvitations _ hmem) hlater.workspaceInvitations
            (hlater.users u (hlater₁.users u (List.mem_of_find?_eq_some hu)))
            (by simpa using List.find?_some hu) (not_not.mp hemail).symm
  · exact Obeys.fail

theorem Obeys.declinePendingInvitationByToken {token userId : String}
    (h : ∀ db' inviteId, Stored rt db' → I db' → Later rt db db' →
      may db' (.declineBoardInvitation inviteId) ∧ may db' (.declineInvitation inviteId)) :
    Obeys rt I may (declinePendingInvitationByToken rt token userId) db := by
  refine Obeys.getUserEmail fun u db₀ _ _ hlater₀ _ _ => ?_
  refine Obeys.read fun db₁ _ _ hlater₁ => ?_
  split
  · exact Obeys.execute fun db' hstored hI hlater =>
      (h db' _ hstored hI ((hlater₀.trans hlater₁).trans hlater)).1
  · refine Obeys.read fun db₂ _ _ hlater₂ => ?_
    split
    · exact Obeys.fail
    · exact Obeys.execute fun db' hstored hI hlater =>
        (h db' _ hstored hI (((hlater₀.trans hlater₁).trans hlater₂).trans hlater)).2

/-- The member found is not the owner, and its row is never written. -/
theorem Obeys.deleteWorkspaceMember {wid memberId : String}
    (h : ∀ db', Stored rt db' → I db' → Later rt db db' →
      (∀ m ∈ db'.workspaceMembers, m.id = memberId → m.scopeId = wid ∧ m.grant ≠ "owner") →
      may db' (.deleteWorkspaceMember memberId)) :
    Obeys rt I may (deleteWorkspaceMember rt wid memberId) db := by
  refine Obeys.read fun db₁ hstored₁ _ hlater₁ => ?_
  split
  · exact Obeys.done
  · next member hfound =>
    split
    · exact Obeys.done
    · next howner =>
      refine Obeys.execute fun db' hstored hI hlater => ?_
      refine h db' hstored hI (hlater₁.trans hlater) ?_
      intro m hm hid
      have hmem := List.mem_of_find?_eq_some hfound
      have hmatch := List.find?_some hfound
      simp only [Bool.and_eq_true, beq_iff_eq] at hmatch
      have hdrawn := hstored₁.drawn.workspaceMembers member hmem
      have hm₁ := hlater.workspaceMembers m hm (by rw [hid, ← hmatch.2]; exact hdrawn)
      -- one row has this id
      have hone : m = member := hstored₁.valid.workspaceMembers.eq_of_clash hm₁ hmem <| by
        simp [memberRowConstraints, hid, hmatch.2]
      exact hone ▸ ⟨hmatch.1, howner⟩

/-- The queries of `checkBoardAccess` write nothing. -/
theorem Obeys.requireBoardAccess {α : Type} {boardId : String} {userId shareToken : Option String}
    {f : BoardAccess → Service α}
    (h : ∀ access db', Later rt db db' → Obeys rt I may (f access) db') :
    Obeys rt I may (requireBoardAccess boardId userId shareToken >>= f) db := by
  suffices hqueries : (Requests.requireBoardAccess boardId userId shareToken).Follows
      (Write.apply rt) (storedWith rt I may) (fun _ db' => Later rt db db') db from
    Program.Follows.bind <| hqueries.mono fun r db' hlater => by
      cases r with
      | ok access => exact h access db' hlater
      | error e => trivial
  refine Program.Follows.bind <| Program.Follows.read fun db₁ _ h₁ => ?_
  dsimp only
  split
  · exact h₁
  · split
    · exact h₁
    · split
      · exact h₁
      · split
        · exact h₁
        · split
          · exact h₁
          · refine Program.Follows.bind <| Program.Follows.read fun db₂ _ h₂ => ?_
            dsimp only
            split
            · exact h₁.trans h₂
            · refine Program.Follows.bind <| Program.Follows.read fun db₃ _ h₃ => ?_
              dsimp only
              split
              · exact (h₁.trans h₂).trans h₃
              · exact (h₁.trans h₂).trans h₃

theorem Obeys.getBoardWithFavorite {boardId : String} {userId : Option String} :
    Obeys rt I may (getBoardWithFavorite boardId userId) db := by
  refine Obeys.read fun db₁ _ _ _ => ?_
  split
  · exact Obeys.done
  · split
    · exact Obeys.done
    · split
      · exact Obeys.done
      · refine Obeys.bind ?_ fun _ _ => Obeys.done
        rintro db₂ - -
        exact ⟨nofun, Program.follows_ofExcept.mpr trivial⟩

theorem Obeys.setBoardFavorite {boardId userId : String} {isFavorite : Bool} {now : Nat}
    (h : ∀ db', Stored rt db' → I db' → Later rt db db' →
      may db' (if isFavorite then .addBoardFavorite boardId userId now
        else .removeBoardFavorite boardId userId)) :
    Obeys rt I may (setBoardFavorite rt boardId userId isFavorite now) db := by
  refine Obeys.requireBoardAccess fun access db₁ h₁ => ?_
  split
  · exact Obeys.done
  · refine Obeys.bind (Obeys.orElse ?_ ?_) ?_
    · cases isFavorite with
      | true => exact Obeys.execute fun db' hstored hI h₂ => h db' hstored hI (h₁.trans h₂)
      | false => exact Obeys.execute fun db' hstored hI h₂ => h db' hstored hI (h₁.trans h₂)
    · intro e db₂
      split
      · exact Obeys.done
      · exact Obeys.fail
    · intro written db₂
      split
      · exact Obeys.getBoardWithFavorite
      · exact Obeys.done

end parts

/-! ### The handlers -/

section handlers
variable {rt : Runtime} {I : Tables → Prop} {may : Tables → Write → Prop} {db : Tables}

/-- The tables when the request began, when its check was made, and when it writes. -/
structure Checked (rt : Runtime) (I : Tables → Prop) (db db₀ db₁ db' : Tables) : Prop where
  stored₀ : Stored rt db₀
  inv₀ : I db₀
  stored₁ : Stored rt db₁
  inv₁ : I db₁
  stored : Stored rt db'
  inv : I db'
  began : Later rt db db₀
  checked : Later rt db₀ db₁
  later : Later rt db₁ db'

theorem Obeys.handleAction {userId : String} {action : Action}
    (h : ∀ db₀ db₁ db' write, Checked rt I db db₀ db₁ db' → action.Passed userId db₀ db₁ →
      action.Writes rt userId db' write → may db' write) :
    Obeys rt I may (handleAction rt userId action) db := by
  -- a request without a check reads its tables only where it writes
  have hunchecked (db' : Tables) (write : Write) (hs : Stored rt db') (hI : I db')
      (hlater : Later rt db db') (hpassed : ∀ db₀ db₁, action.Passed userId db₀ db₁) :
      action.Writes rt userId db' write → may db' write :=
    h db' db' db' write ⟨hs, hI, hs, hI, hs, hI, hlater, .refl _, .refl _⟩ (hpassed db' db')
  have hworkspace {db₁ db' : Tables} {write : Write} (hs₁ : Stored rt db₁) (hI₁ : I db₁)
      (h₁ : Later rt db db₁) (hs : Stored rt db') (hI : I db') (h' : Later rt db₁ db') :
      action.Passed userId db₁ db₁ → action.Writes rt userId db' write → may db' write :=
    h db₁ db₁ db' write ⟨hs₁, hI₁, hs₁, hI₁, hs, hI, h₁, .refl _, h'⟩
  cases action with
  | postWorkspace name =>
    exact Obeys.execute fun db' hs hI hl => hunchecked db' _ hs hI hl (fun _ _ => trivial) rfl
  | patchWorkspace wid name =>
    refine Obeys.guardedWorkspace fun db₁ hs₁ hI₁ h₁ hrole => Obeys.execute fun db' hs hI h' => ?_
    exact hworkspace hs₁ hI₁ h₁ hs hI h' hrole rfl
  | deleteWorkspaceMember wid memberId =>
    refine Obeys.guardedWorkspace fun db₁ hs₁ hI₁ h₁ hrole => Obeys.bind ?_ ?_
    · refine Obeys.deleteWorkspaceMember fun db' hs hI h' hmember => ?_
      exact hworkspace hs₁ hI₁ h₁ hs hI h' hrole ⟨rfl, hmember⟩
    · intro removed db'
      split <;> exact Obeys.done
  | postWorkspaceInvitation wid email role now =>
    refine Obeys.guardedWorkspace fun db₁ hs₁ hI₁ h₁ hrole =>
      Obeys.bind ?_ fun _ _ => Obeys.done
    refine Obeys.createInvitation fun db' hs hI h' => ?_
    exact hworkspace hs₁ hI₁ h₁ hs hI h' hrole rfl
  | acceptWorkspaceInvitation token now =>
    refine Obeys.orElse (Obeys.bind ?_ ?_) fun _ _ => Obeys.done
    · refine Obeys.acceptInvitation fun db' invitation hs hI hl hfound => ?_
      exact hunchecked db' _ hs hI hl (fun _ _ => trivial) ⟨invitation, rfl, hfound⟩
    · intro workspace db'
      split <;> exact Obeys.done
  | postBoard wid name =>
    refine Obeys.guardedWorkspace fun db₁ hs₁ hI₁ h₁ hrole => Obeys.execute fun db' hs hI h' => ?_
    exact hworkspace hs₁ hI₁ h₁ hs hI h' hrole rfl
  | patchBoard boardId name =>
    refine Obeys.guardedBoard rfl fun db₀ db₁ hs₀ hI₀ hs₁ hI₁ h₀ h₁ hrole =>
      Obeys.execute fun db' hs hI h' => ?_
    exact h db₀ db₁ db' _ ⟨hs₀, hI₀, hs₁, hI₁, hs, hI, h₀, h₁, h'⟩ hrole rfl
  | duplicateBoard boardId =>
    refine Obeys.guardedBoard rfl fun db₀ db₁ hs₀ hI₀ hs₁ hI₁ h₀ h₁ hrole =>
      Obeys.execute fun db' hs hI h' => ?_
    exact h db₀ db₁ db' _ ⟨hs₀, hI₀, hs₁, hI₁, hs, hI, h₀, h₁, h'⟩ hrole rfl
  | deleteBoard boardId =>
    refine Obeys.guardedBoard rfl fun db₀ db₁ hs₀ hI₀ hs₁ hI₁ h₀ h₁ hrole =>
      Obeys.execute fun db' hs hI h' => ?_
    exact h db₀ db₁ db' _ ⟨hs₀, hI₀, hs₁, hI₁, hs, hI, h₀, h₁, h'⟩ hrole rfl
  | putFavorite boardId now =>
    refine Obeys.requireBoardAccess fun access db₁ h₁ => ?_
    split
    · exact Obeys.done
    · refine Obeys.bind (Obeys.setBoardFavorite fun db' hs hI h' => ?_) fun _ _ => Obeys.done
      exact hunchecked db' _ hs hI (h₁.trans h') (fun _ _ => trivial) rfl
  | deleteFavorite boardId now =>
    refine Obeys.requireBoardAccess fun access db₁ h₁ => ?_
    split
    · exact Obeys.done
    · refine Obeys.bind (Obeys.setBoardFavorite fun db' hs hI h' => ?_) fun _ _ => Obeys.done
      exact hunchecked db' _ hs hI (h₁.trans h') (fun _ _ => trivial) rfl
  | leaveBoard boardId =>
    have hleave (db₁ : Tables) (h₁ : Later rt db db₁) : Obeys rt I may
        (Requests.execute rt (.leaveBoard boardId userId) fun _ _ => sendStatus 204) db₁ :=
      Obeys.execute fun db' hs hI h' =>
        hunchecked db' _ hs hI (h₁.trans h') (fun _ _ => trivial) rfl
    refine Obeys.getWorkspaceRoleForBoard ?_ ?_
    · exact hleave
    · intro db₀ db₁ board _ _ _ _ h₀ h₁ _
      split
      · exact Obeys.done
      · exact hleave db₁ (h₀.trans h₁)
  | postBoardMember boardId memberUserId permission =>
    refine Obeys.guardedBoard rfl fun db₀ db₁ hs₀ hI₀ hs₁ hI₁ h₀ h₁ hrole =>
      Obeys.execute fun db' hs hI h' => ?_
    exact h db₀ db₁ db' _ ⟨hs₀, hI₀, hs₁, hI₁, hs, hI, h₀, h₁, h'⟩ hrole rfl
  | patchBoardMember boardId memberId permission =>
    refine Obeys.guardedBoard rfl fun db₀ db₁ hs₀ hI₀ hs₁ hI₁ h₀ h₁ hrole =>
      Obeys.execute fun db' hs hI h' => ?_
    exact h db₀ db₁ db' _ ⟨hs₀, hI₀, hs₁, hI₁, hs, hI, h₀, h₁, h'⟩ hrole rfl
  | deleteBoardMember boardId memberId =>
    refine Obeys.guardedBoard rfl fun db₀ db₁ hs₀ hI₀ hs₁ hI₁ h₀ h₁ hrole =>
      Obeys.execute fun db' hs hI h' => ?_
    exact h db₀ db₁ db' _ ⟨hs₀, hI₀, hs₁, hI₁, hs, hI, h₀, h₁, h'⟩ hrole rfl
  | postBoardInvite boardId email permission now =>
    refine Obeys.guardedBoard rfl fun db₀ db₁ hs₀ hI₀ hs₁ hI₁ h₀ h₁ hrole =>
      Obeys.bind ?_ fun _ _ => Obeys.done
    refine Obeys.createBoardInvitation fun db' hs hI h' => ?_
    exact h db₀ db₁ db' _ ⟨hs₀, hI₀, hs₁, hI₁, hs, hI, h₀, h₁, h'⟩ hrole rfl
  | acceptBoardInvite token now =>
    refine Obeys.orElse (Obeys.bind ?_ fun _ _ => Obeys.done) fun _ _ => Obeys.done
    refine Obeys.acceptBoardInvitationByToken fun db' invitation hs hI hl hfound => ?_
    exact hunchecked db' _ hs hI hl (fun _ _ => trivial) ⟨invitation, rfl, hfound⟩
  | declinePendingInvite token =>
    refine Obeys.orElse (Obeys.bind ?_ fun _ _ => Obeys.done) fun _ _ => Obeys.done
    refine Obeys.declinePendingInvitationByToken fun db' inviteId hs hI hl => ?_
    exact ⟨hunchecked db' _ hs hI hl (fun _ _ => trivial) ⟨inviteId, .inl rfl⟩,
      hunchecked db' _ hs hI hl (fun _ _ => trivial) ⟨inviteId, .inr rfl⟩⟩
  | deleteBoardInvite boardId inviteId =>
    refine Obeys.guardedBoard rfl fun db₀ db₁ hs₀ hI₀ hs₁ hI₁ h₀ h₁ hrole =>
      Obeys.execute fun db' hs hI h' => ?_
    exact h db₀ db₁ db' _ ⟨hs₀, hI₀, hs₁, hI₁, hs, hI, h₀, h₁, h'⟩ hrole rfl
  | patchLinkSharing boardId permission enabled =>
    refine Obeys.guardedBoard rfl fun db₀ db₁ hs₀ hI₀ hs₁ hI₁ h₀ h₁ hrole =>
      Obeys.execute fun db' hs hI h' => ?_
    exact h db₀ db₁ db' _ ⟨hs₀, hI₀, hs₁, hI₁, hs, hI, h₀, h₁, h'⟩ hrole rfl
  | rotateLinkSharing boardId permission =>
    refine Obeys.guardedBoard rfl fun db₀ db₁ hs₀ hI₀ hs₁ hI₁ h₀ h₁ hrole =>
      Obeys.execute fun db' hs hI h' => ?_
    exact h db₀ db₁ db' _ ⟨hs₀, hI₀, hs₁, hI₁, hs, hI, h₀, h₁, h'⟩ hrole rfl

/-- What a login writes. -/
inductive LoginWrites : Write → Prop where
  | createGoogleUser {email googleId : String} : LoginWrites (.createGoogleUser email googleId)
  | insertRefreshToken {userId : String} : LoginWrites (.insertRefreshToken userId)

theorem Obeys.login {email googleId : String} {redirects : Bool}
    (h : ∀ db' write, Stored rt db' → I db' → LoginWrites write → may db' write) :
    Obeys rt I may (handle rt (.login email googleId redirects)) db := by
  refine Obeys.orElse (Obeys.bind ?_ ?_) fun _ _ => Obeys.done
  · refine Obeys.read fun db₁ _ _ _ => ?_
    split
    · rintro db₂ - -
      exact ⟨nofun, trivial⟩
    · exact Obeys.execute fun db' hs hI _ => h db' _ hs hI .createGoogleUser
  · intro user db'
    split
    · exact Obeys.execute fun db' hs hI _ => h db' _ hs hI .insertRefreshToken
    · exact Obeys.done

theorem Obeys.getBoard {boardId : String} {userId shareToken : Option String} :
    Obeys rt I may (handle rt (.getBoard boardId userId shareToken)) db := by
  refine Obeys.orElse (Obeys.requireBoardAccess fun access db₁ _ => ?_) fun _ _ => Obeys.done
  split
  · exact Obeys.done
  · refine Obeys.bind Obeys.getBoardWithFavorite fun board db₂ => ?_
    split <;> exact Obeys.done

theorem Obeys.getShared {token : String} {editFirst : Bool} :
    Obeys rt I may (handle rt (.getShared token editFirst)) db := by
  refine Obeys.bind ?_ ?_
  · rw [getShareByToken]
    split
    · exact Obeys.read fun _ _ _ _ => Obeys.read fun _ _ _ _ => Obeys.done
    · exact Obeys.read fun _ _ _ _ => Obeys.read fun _ _ _ _ => Obeys.done
  · intro share db'
    split <;> exact Obeys.done

/-- What any request writes. -/
theorem Obeys.handle {request : Request}
    (haction : ∀ userId action, request = .action userId action →
      ∀ db₀ db₁ db' write, Checked rt I db db₀ db₁ db' → action.Passed userId db₀ db₁ →
      action.Writes rt userId db' write → may db' write)
    (hlogin : ∀ db' write, Stored rt db' → I db' → LoginWrites write → may db' write) :
    Obeys rt I may (Requests.handle rt request) db := by
  cases request with
  | action userId action =>
    exact Obeys.orElse (Obeys.handleAction (haction userId action rfl)) fun _ _ => Obeys.done
  | login email googleId redirects => exact Obeys.login hlogin
  | getBoard boardId userId shareToken => exact Obeys.getBoard
  | getShared token editFirst => exact Obeys.getShared

end handlers

/-! ### The system of requests -/

section system
variable (Thread : Type) [DecidableEq Thread] (rt : Runtime)

abbrev State (Thread : Type) :=
  Interleaving.Running Thread Tables Request Write RequestError Response

/-- Any number of requests at the same time, from any stored tables with the property. -/
def system (start : Tables → Prop) :
    Transition.System (State Thread) (Interleaving.Label Thread Request) :=
  Interleaving.system Thread (Write.apply rt) admits (handle rt)
    fun db => Stored rt db ∧ start db

variable {Thread rt} {s s' : State Thread}

/-- The invariant rule for the requests: what the writes keep that may be made by the requests
    started under a condition, holds in every state these requests reach. -/
theorem invariant_of_reachableUnder {start I : Tables → Prop} (may : Tables → Write → Prop)
    {C : State Thread → Interleaving.Label Thread Request → Prop}
    (hkeeps : ∀ db write db', Stored rt db → I db → may db write → Ran rt db write db' → I db')
    (hstart : ∀ s t request, C s (.start t request) → Stored rt s.store → I s.store →
      admits s.store request = true → Obeys rt I may (handle rt request) s.store)
    (hinit : ∀ db, Stored rt db → start db → I db)
    (h : (system Thread rt start).ReachableUnder C s) : Stored rt s.store ∧ I s.store := by
  have hsound : (storedWith rt I may).Sound (Write.apply rt) := storedWith_sound hkeeps
  exact (Interleaving.disciplined_of_reachableUnder (Q := fun _ _ _ => True) hsound
    (fun db h => ⟨h.1, hinit db h.1 h.2⟩)
    (fun _ _ _ _ _ _ h => h)
    (fun s t request hC hinv => hstart s t request hC hinv.1 hinv.2) h).inv

/-- The rule for all requests. -/
theorem invariant_of_reachable {I : Tables → Prop} (may : Tables → Write → Prop)
    (hkeeps : ∀ db write db', Stored rt db → I db → may db write → Ran rt db write db' → I db')
    (haction : ∀ userId (action : Action) db db₀ db₁ db' write, Checked rt I db db₀ db₁ db' →
      action.Passed userId db₀ db₁ → action.Writes rt userId db' write → may db' write)
    (hlogin : ∀ db' write, Stored rt db' → I db' → LoginWrites write → may db' write)
    (h : (system Thread rt I).Reachable s) : Stored rt s.store ∧ I s.store := by
  have hsound : (storedWith rt I may).Sound (Write.apply rt) := storedWith_sound hkeeps
  refine (Interleaving.disciplined_of_reachable (Q := fun _ _ _ => True) hsound (fun _ h => h)
    (fun _ _ _ _ _ _ h => h) (fun db request _ _ => ?_) h).inv
  exact Obeys.handle (fun userId action _ => haction userId action db) hlogin

/-- The rule for what the requests have answered: it holds when they answer, and it stays. -/
theorem answered_of_reachable {I : Tables → Prop}
    {Q : Request → Except RequestError Response → Tables → Prop}
    (hkeeps : ∀ db write db', Stored rt db → I db → Ran rt db write db' → I db')
    (hQ : ∀ request r db db', Stored rt db → I db → Later rt db db' → Q request r db →
      Q request r db')
    (hstart : ∀ db request, Stored rt db → I db → admits db request = true →
      (handle rt request).Follows (Write.apply rt) (storedWith rt I fun _ _ => True) (Q request) db)
    (h : (system Thread rt I).Reachable s) {t : Thread} {request : Request} {response : Response}
    (hdone : s.running t = some (request, .done response)) : Q request (.ok response) s.store := by
  have hsound : (storedWith rt I fun _ _ => True).Sound (Write.apply rt) :=
    storedWith_sound fun db write db' hs hI _ => hkeeps db write db' hs hI
  exact (Interleaving.disciplined_of_reachable hsound (fun _ h => h)
    (fun request r db db' hinv => hQ request r db db' hinv.1 hinv.2)
    (fun db request hinv => hstart db request hinv.1 hinv.2) h).follows t request _ hdone

/-- The tables keep their constraints, whatever the requests and their order. -/
theorem disciplined_of_reachable {start : Tables → Prop}
    (h : (system Thread rt start).Reachable s) :
    Interleaving.Disciplined (Write.apply rt) (storedWith rt (fun _ => True) fun _ _ => True)
      (fun _ _ _ => True) s := by
  have hsound : (storedWith rt (fun _ => True) fun _ _ => True).Sound (Write.apply rt) :=
    storedWith_sound fun _ _ _ _ _ _ _ => trivial
  refine Interleaving.disciplined_of_reachable (Q := fun _ _ _ => True) hsound
    (fun db hinit => ⟨hinit.1, trivial⟩) (fun _ _ _ _ _ _ h => h) (fun db request _ _ => ?_) h
  exact Obeys.handle (fun _ _ _ _ _ _ _ _ _ _ => trivial) fun _ _ _ _ _ => trivial

/-- What a run leaves of the rows it began with. -/
theorem later_of_exec {start : Tables → Prop} {ls : List (Interleaving.Label Thread Request)}
    (h : (system Thread rt start).Reachable s)
    (hrun : (system Thread rt start).exec s ls = some s') : Later rt s.store s'.store := by
  have hsound : (storedWith rt (fun _ => True) fun _ _ => True).Sound (Write.apply rt) :=
    storedWith_sound fun _ _ _ _ _ _ _ => trivial
  refine Interleaving.later_of_exec (Q := fun _ _ _ => True) hsound (fun _ _ _ _ _ _ h => h) ?_
    (disciplined_of_reachable h) hrun
  intro db request _ _
  exact Obeys.handle (fun _ _ _ _ _ _ _ _ _ _ => trivial) fun _ _ _ _ _ => trivial

/-- The tables before any request. -/
def idle (db : Tables) : State Thread := { store := db, running := fun _ => none }

end system

/-! ### Tables to begin with -/

def noTables : Tables where
  users := []
  oauthAccounts := []
  refreshTokens := []
  workspaces := []
  workspaceMembers := []
  workspaceInvitations := []
  boards := []
  boardMembers := []
  boardInvitations := []
  boardFavorites := some []
  drawn := 0

theorem stored_noTables (rt : Runtime) : Stored rt noTables := by
  refine ⟨?_, ?_⟩
  · constructor
    case boardFavorites =>
      intro rows hrows
      obtain rfl := Option.some.inj hrows
      exact ⟨nofun, .nil, nofun⟩
    all_goals first | exact ⟨nofun, .nil, nofun⟩ | exact nofun
  · constructor <;> nofun

/-- A board in the workspace of its owner, and a guest who may view it. -/
def guestTables : Tables :=
  let r := Runtime.counting.random
  { users := [{ id := r 0, email := "owner" }, { id := r 1, email := "guest" }]
    oauthAccounts := []
    refreshTokens := []
    workspaces := [{ id := r 2, name := "Work", ownerId := r 0 }]
    workspaceMembers :=
      [{ id := r 3, scopeId := r 2, userId := r 0, grant := "owner", addedBy := none }]
    workspaceInvitations := []
    boards :=
      [{ id := r 4, workspaceId := r 2, name := "Plan"
         linkShareViewEnabled := false, linkShareViewToken := none
         linkShareEditEnabled := false, linkShareEditToken := none }]
    boardMembers :=
      [{ id := r 5, scopeId := r 4, userId := r 1, grant := .view, addedBy := some (r 0) }]
    boardInvitations := []
    boardFavorites := some []
    drawn := 6 }

theorem stored_guestTables : Stored .counting guestTables := by
  refine ⟨?_, ?_⟩
  · constructor <;> decide
  · exact {
      users := by decide
      workspaces := by decide
      workspaceMembers := by decide
      workspaceInvitations := by decide
      boards := by decide
      tokens := by simp [guestTables, HasToken]
      boardMembers := by decide
      boardInvitations := by decide }

end Notebortt.Requests
