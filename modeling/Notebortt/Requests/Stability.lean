import Notebortt.Requests.ValidTables
import Notebortt.Lib.Interleaving

/-! # What a request may rely on between its statements

    Ids are never given twice and most columns are never written again: a row
    that a request has read is later the same, or gone. -/

open Table (Constraints)
open Interleaving (Discipline)

namespace Notebortt.Requests

open Invitations Access

/-! ### Drawn values -/

section drawn
variable (rt : Runtime)

/-- One of the first `n` random values. -/
def Runtime.Drawn (n : Nat) (value : String) : Prop := ∃ k < n, rt.random k = value

variable {rt}

instance (n : Nat) (value : String) : Decidable (rt.Drawn n value) :=
  inferInstanceAs (Decidable (∃ k < n, rt.random k = value))

theorem Runtime.Drawn.mono {n n' : Nat} {value : String} (h : rt.Drawn n value) (hle : n ≤ n') :
    rt.Drawn n' value := by
  obtain ⟨k, hk, hvalue⟩ := h
  exact ⟨k, Nat.lt_of_lt_of_le hk hle, hvalue⟩

theorem Runtime.drawn_random {n k : Nat} (h : k < n) : rt.Drawn n (rt.random k) := ⟨k, h, rfl⟩

/-- A random value is new. -/
theorem Runtime.not_drawn {n k : Nat} (h : n ≤ k) : ¬ rt.Drawn n (rt.random k) := by
  rintro ⟨j, hj, hvalue⟩
  have := rt.random_injective hvalue
  omega

end drawn

/-- A token of the board, enabled or not. -/
def HasToken (board : Board) (token : String) : Prop :=
  board.linkShareViewToken = some token ∨ board.linkShareEditToken = some token

/-- The ids and the link tokens are among the first `n` random values. -/
structure AllDrawn (rt : Runtime) (n : Nat) (db : Tables) : Prop where
  users : ∀ u ∈ db.users, rt.Drawn n u.id
  workspaces : ∀ w ∈ db.workspaces, rt.Drawn n w.id
  workspaceMembers : ∀ m ∈ db.workspaceMembers, rt.Drawn n m.id
  workspaceInvitations : ∀ i ∈ db.workspaceInvitations, rt.Drawn n i.id
  boards : ∀ b ∈ db.boards, rt.Drawn n b.id
  tokens : ∀ b ∈ db.boards, ∀ token, HasToken b token → rt.Drawn n token
  boardMembers : ∀ m ∈ db.boardMembers, rt.Drawn n m.id
  boardInvitations : ∀ i ∈ db.boardInvitations, rt.Drawn n i.id

/-- What holds of the tables between any two statements. -/
structure Stored (rt : Runtime) (db : Tables) : Prop where
  valid : db.Valid rt
  drawn : AllDrawn rt db.drawn db

/-! ### Later tables -/

/-- An invitation later: only the status is written, and never back to pending. -/
structure SameInvitation {Grant : Type} (i i' : Invitation Grant) : Prop where
  id : i'.id = i.id
  scopeId : i'.scopeId = i.scopeId
  emailLower : i'.emailLower = i.emailLower
  grant : i'.grant = i.grant
  pending : i'.status = .pending → i.status = .pending

def viewGrants (board : Board) (token : String) : Bool :=
  board.linkShareViewEnabled && board.linkShareViewToken == some token

def editGrants (board : Board) (token : String) : Bool :=
  board.linkShareEditEnabled && board.linkShareEditToken == some token

/-- A board later: a token among the first `n` random values grants no more than it did. -/
structure SameBoard (rt : Runtime) (n : Nat) (b b' : Board) : Prop where
  id : b'.id = b.id
  workspaceId : b'.workspaceId = b.workspaceId
  view : ∀ token, rt.Drawn n token → viewGrants b' token = true → viewGrants b token = true
  edit : ∀ token, rt.Drawn n token → editGrants b' token = true → editGrants b token = true

/-- A board member later: only the permission and who gave it are written. -/
structure SameMember (m m' : MemberRow BoardPermission) : Prop where
  id : m'.id = m.id
  scopeId : m'.scopeId = m.scopeId
  userId : m'.userId = m.userId

/-- Users, accounts and workspaces stay; a row whose id was drawn before was there before. -/
structure Later (rt : Runtime) (db db' : Tables) : Prop where
  drawn : db.drawn ≤ db'.drawn
  users : ∀ u ∈ db.users, u ∈ db'.users
  oauthAccounts : ∀ a ∈ db.oauthAccounts, a ∈ db'.oauthAccounts
  workspaces : ∀ w ∈ db.workspaces, ∃ w' ∈ db'.workspaces, w'.id = w.id ∧ w'.ownerId = w.ownerId
  workspaceMembers : ∀ m ∈ db'.workspaceMembers, rt.Drawn db.drawn m.id → m ∈ db.workspaceMembers
  workspaceInvitations : ∀ i' ∈ db'.workspaceInvitations, rt.Drawn db.drawn i'.id →
    ∃ i ∈ db.workspaceInvitations, SameInvitation i i'
  boards : ∀ b' ∈ db'.boards, rt.Drawn db.drawn b'.id →
    ∃ b ∈ db.boards, SameBoard rt db.drawn b b'
  tokens : ∀ b' ∈ db'.boards, ∀ token, rt.Drawn db.drawn token → HasToken b' token →
    ∃ b ∈ db.boards, b.id = b'.id ∧ HasToken b token
  boardMembers : ∀ m' ∈ db'.boardMembers, rt.Drawn db.drawn m'.id →
    ∃ m ∈ db.boardMembers, SameMember m m'
  boardInvitations : ∀ i' ∈ db'.boardInvitations, rt.Drawn db.drawn i'.id →
    ∃ i ∈ db.boardInvitations, SameInvitation i i'

section relation
variable {rt : Runtime} {db db' db'' : Tables}

theorem SameInvitation.refl {Grant : Type} (i : Invitation Grant) : SameInvitation i i :=
  ⟨rfl, rfl, rfl, rfl, fun h => h⟩

theorem SameInvitation.trans {Grant : Type} {i j k : Invitation Grant} (h : SameInvitation i j)
    (h' : SameInvitation j k) : SameInvitation i k :=
  ⟨h'.id.trans h.id, h'.scopeId.trans h.scopeId, h'.emailLower.trans h.emailLower,
    h'.grant.trans h.grant, fun hk => h.pending (h'.pending hk)⟩

theorem SameBoard.refl (n : Nat) (b : Board) : SameBoard rt n b b :=
  ⟨rfl, rfl, fun _ _ h => h, fun _ _ h => h⟩

theorem SameBoard.trans {n n' : Nat} {a b c : Board} (hle : n ≤ n') (h : SameBoard rt n a b)
    (h' : SameBoard rt n' b c) : SameBoard rt n a c :=
  ⟨h'.id.trans h.id, h'.workspaceId.trans h.workspaceId,
    fun token ht hc => h.view token ht (h'.view token (ht.mono hle) hc),
    fun token ht hc => h.edit token ht (h'.edit token (ht.mono hle) hc)⟩

theorem SameMember.refl (m : MemberRow BoardPermission) : SameMember m m := ⟨rfl, rfl, rfl⟩

theorem SameMember.trans {m m' m'' : MemberRow BoardPermission} (h : SameMember m m')
    (h' : SameMember m' m'') : SameMember m m'' :=
  ⟨h'.id.trans h.id, h'.scopeId.trans h.scopeId, h'.userId.trans h.userId⟩

theorem Later.refl (db : Tables) : Later rt db db where
  drawn := Nat.le_refl _
  users := fun _ hu => hu
  oauthAccounts := fun _ ha => ha
  workspaces := fun w hw => ⟨w, hw, rfl, rfl⟩
  workspaceMembers := fun _ hm _ => hm
  workspaceInvitations := fun i hi _ => ⟨i, hi, .refl i⟩
  boards := fun b hb _ => ⟨b, hb, .refl _ b⟩
  tokens := fun b hb _ _ htoken => ⟨b, hb, rfl, htoken⟩
  boardMembers := fun m hm _ => ⟨m, hm, .refl m⟩
  boardInvitations := fun i hi _ => ⟨i, hi, .refl i⟩

theorem Later.trans (h : Later rt db db') (h' : Later rt db' db'') : Later rt db db'' where
  drawn := Nat.le_trans h.drawn h'.drawn
  users := fun u hu => h'.users u (h.users u hu)
  oauthAccounts := fun a ha => h'.oauthAccounts a (h.oauthAccounts a ha)
  workspaces := by
    intro w hw
    obtain ⟨w', hw', hid, howner⟩ := h.workspaces w hw
    obtain ⟨w'', hw'', hid', howner'⟩ := h'.workspaces w' hw'
    exact ⟨w'', hw'', hid'.trans hid, howner'.trans howner⟩
  workspaceMembers := fun m hm hdrawn =>
    h.workspaceMembers m (h'.workspaceMembers m hm (hdrawn.mono h.drawn)) hdrawn
  workspaceInvitations := by
    intro i'' hi'' hdrawn
    obtain ⟨i', hi', hsame'⟩ := h'.workspaceInvitations i'' hi'' (hdrawn.mono h.drawn)
    obtain ⟨i, hi, hsame⟩ := h.workspaceInvitations i' hi' (hsame'.id ▸ hdrawn)
    exact ⟨i, hi, hsame.trans hsame'⟩
  boards := by
    intro b'' hb'' hdrawn
    obtain ⟨b', hb', hsame'⟩ := h'.boards b'' hb'' (hdrawn.mono h.drawn)
    obtain ⟨b, hb, hsame⟩ := h.boards b' hb' (hsame'.id ▸ hdrawn)
    exact ⟨b, hb, hsame.trans h.drawn hsame'⟩
  tokens := by
    intro b'' hb'' token hdrawn htoken
    obtain ⟨b', hb', hid', htoken'⟩ := h'.tokens b'' hb'' token (hdrawn.mono h.drawn) htoken
    obtain ⟨b, hb, hid, htoken⟩ := h.tokens b' hb' token hdrawn htoken'
    exact ⟨b, hb, hid.trans hid', htoken⟩
  boardMembers := by
    intro m'' hm'' hdrawn
    obtain ⟨m', hm', hsame'⟩ := h'.boardMembers m'' hm'' (hdrawn.mono h.drawn)
    obtain ⟨m, hm, hsame⟩ := h.boardMembers m' hm' (hsame'.id ▸ hdrawn)
    exact ⟨m, hm, hsame.trans hsame'⟩
  boardInvitations := by
    intro i'' hi'' hdrawn
    obtain ⟨i', hi', hsame'⟩ := h'.boardInvitations i'' hi'' (hdrawn.mono h.drawn)
    obtain ⟨i, hi, hsame⟩ := h.boardInvitations i' hi' (hsame'.id ▸ hdrawn)
    exact ⟨i, hi, hsame.trans hsame'⟩

end relation

/-! ### The rows after a write -/

section rows
variable {rt : Runtime} {db db' : Tables}

/-- A status that is set is never `pending`. -/
theorem StatusSet.sameInvitation {Grant : Type} {c : Constraints (Invitation Grant)}
    {cond : Invitation Grant → Bool} {status : InvitationStatus}
    {before after : List (Invitation Grant)} (h : StatusSet c cond status before after)
    (hstatus : status ≠ .pending) {i' : Invitation Grant} (hi' : i' ∈ after) :
    ∃ i ∈ before, SameInvitation i i' := by
  rw [h.rows] at hi'
  obtain ⟨i, hi, ⟨-, rfl⟩ | ⟨-, rfl⟩⟩ := Table.mem_updateRows.mp hi'
  · exact ⟨i, hi, rfl, rfl, rfl, rfl, fun hpending => absurd hpending hstatus⟩
  · exact ⟨i', hi, .refl i'⟩

/-- A patch of the links of a board: a token it grants that the board did not is the new one. -/
structure PatchesLinks (token : String) (set : Board → Board) : Prop where
  id : ∀ b, (set b).id = b.id
  workspaceId : ∀ b, (set b).workspaceId = b.workspaceId
  hasToken : ∀ b t, HasToken (set b) t → HasToken b t ∨ t = token
  view : ∀ b t, viewGrants (set b) t = true → viewGrants b t = true ∨ t = token
  edit : ∀ b t, editGrants (set b) t = true → editGrants b t = true ∨ t = token

theorem patchesLinks_rename (token name : String) :
    PatchesLinks token fun b => { b with name := name } :=
  ⟨fun _ => rfl, fun _ => rfl, fun _ _ => .inl, fun _ _ => .inl, fun _ _ => .inl⟩

theorem patchesLinks_linkSharePatch (permission : BoardPermission) (enabled : Bool)
    (token : String) : PatchesLinks token (linkSharePatch permission enabled token) where
  id := by cases permission <;> exact fun _ => rfl
  workspaceId := by cases permission <;> exact fun _ => rfl
  hasToken := by cases permission <;> cases enabled <;> grind [linkSharePatch, HasToken]
  view := by cases permission <;> cases enabled <;> grind [linkSharePatch, viewGrants]
  edit := by cases permission <;> cases enabled <;> grind [linkSharePatch, editGrants]

theorem patchesLinks_rotatePatch (permission : BoardPermission) (token : String) :
    PatchesLinks token (rotatePatch permission token) where
  id := by cases permission <;> exact fun _ => rfl
  workspaceId := by cases permission <;> exact fun _ => rfl
  hasToken := by cases permission <;> grind [rotatePatch, HasToken]
  view := by cases permission <;> grind [rotatePatch, viewGrants]
  edit := by cases permission <;> grind [rotatePatch, editGrants]

theorem BoardUpdated.sameBoard {boardId : String} {set : Board → Board} {boards : List Board}
    (h : BoardUpdated rt db boardId set boards) (hset : PatchesLinks (db.next rt) set) {b' : Board}
    (hb' : b' ∈ boards) : ∃ b ∈ db.boards, SameBoard rt db.drawn b b' := by
  rw [h.rows] at hb'
  obtain ⟨b, hb, ⟨-, rfl⟩ | ⟨-, rfl⟩⟩ := Table.mem_updateRows.mp hb'
  · refine ⟨b, hb, hset.id b, hset.workspaceId b, ?_, ?_⟩
    · intro token hdrawn hgrants
      refine (hset.view b token hgrants).resolve_right ?_
      rintro rfl
      exact Runtime.not_drawn (Nat.le_refl _) hdrawn
    · intro token hdrawn hgrants
      refine (hset.edit b token hgrants).resolve_right ?_
      rintro rfl
      exact Runtime.not_drawn (Nat.le_refl _) hdrawn
  · exact ⟨b', hb, .refl _ b'⟩

/-- A row inserted has a new id, so a row with a drawn id was there. -/
theorem mem_insert_of_drawn {ρ : Type} {c : Constraints ρ} {row r : ρ} {rows rows' : List ρ}
    {n : Nat} (key : ρ → String) (h : Table.insert c row rows = .ok rows') (hr : r ∈ rows')
    (hkey : ∃ k, n ≤ k ∧ key row = rt.random k) (hdrawn : rt.Drawn n (key r)) : r ∈ rows := by
  rcases mem_insert h hr with hr | rfl
  · exact hr
  · obtain ⟨k, hk, hkey⟩ := hkey
    exact absurd (hkey ▸ hdrawn) (Runtime.not_drawn hk)

/-! ### Values drawn -/

theorem AllDrawn.mono {n n' : Nat} (h : AllDrawn rt n db) (hle : n ≤ n') : AllDrawn rt n' db where
  users := fun u hu => (h.users u hu).mono hle
  workspaces := fun w hw => (h.workspaces w hw).mono hle
  workspaceMembers := fun m hm => (h.workspaceMembers m hm).mono hle
  workspaceInvitations := fun i hi => (h.workspaceInvitations i hi).mono hle
  boards := fun b hb => (h.boards b hb).mono hle
  tokens := fun b hb token htoken => (h.tokens b hb token htoken).mono hle
  boardMembers := fun m hm => (h.boardMembers m hm).mono hle
  boardInvitations := fun i hi => (h.boardInvitations i hi).mono hle

/-- What is inserted has a drawn id. -/
theorem drawn_of_mem_insert {ρ : Type} {c : Constraints ρ} {row : ρ} {rows rows' : List ρ}
    {n : Nat} {key : ρ → String} (h : Table.insert c row rows = .ok rows')
    (hrows : ∀ r ∈ rows, rt.Drawn n (key r)) (hrow : rt.Drawn n (key row)) :
    ∀ r ∈ rows', rt.Drawn n (key r) := by
  intro r hr
  rcases mem_insert h hr with hr | rfl
  · exact hrows r hr
  · exact hrow

theorem AllDrawn.workspaceInserted {name ownerId : String} {workspaces : List Workspace}
    {members : List (MemberRow String)} (h : AllDrawn rt db.drawn db)
    (hinserted : WorkspaceInserted rt db name ownerId workspaces members) :
    AllDrawn rt (db.drawn + 2) ((db.withWorkspace workspaces).withWorkspaceMember members) := by
  have hmono := h.mono (Nat.le_add_right db.drawn 2)
  exact { hmono with
    workspaces := drawn_of_mem_insert hinserted.workspace hmono.workspaces
      (Runtime.drawn_random (by omega))
    workspaceMembers := drawn_of_mem_insert hinserted.owner hmono.workspaceMembers
      (Runtime.drawn_random (Nat.lt_succ_self _)) }

theorem AllDrawn.insertBoard {workspaceId name : String} {boards : List Board}
    (h : AllDrawn rt db.drawn db)
    (hinsert : Table.insert (boardConstraints (db.env rt)) (newBoard rt workspaceId name db)
      db.boards = .ok boards) :
    AllDrawn rt (db.drawn + 1) (db.withBoards boards (db.drawn + 1)) := by
  have hmono := h.mono (Nat.le_add_right db.drawn 1)
  refine { hmono with
    boards := drawn_of_mem_insert hinsert hmono.boards (Runtime.drawn_random (by omega))
    tokens := ?_ }
  intro b hb token htoken
  rcases mem_insert hinsert hb with hb | rfl
  · exact hmono.tokens b hb token htoken
  · -- a new board has no token
    rcases htoken with htoken | htoken <;> cases htoken

theorem AllDrawn.updateBoard {boardId : String} {set : Board → Board} {boards : List Board}
    {n : Nat} (h : AllDrawn rt db.drawn db) (hupdated : BoardUpdated rt db boardId set boards)
    (hle : db.drawn ≤ n) (hset : PatchesLinks (db.next rt) set)
    (htoken : db.drawn < n ∨ ∀ b token, HasToken (set b) token → HasToken b token) :
    AllDrawn rt n (db.withBoards boards n) := by
  have hmono := h.mono hle
  refine { hmono with boards := ?_, tokens := ?_ }
  · intro b' hb'
    obtain ⟨b, hb, hsame⟩ := hupdated.sameBoard hset hb'
    exact hsame.id ▸ hmono.boards b hb
  · intro b' hb' token hhas
    replace hb' : b' ∈ boards := hb'
    rw [hupdated.rows] at hb'
    obtain ⟨b, hb, ⟨-, rfl⟩ | ⟨-, rfl⟩⟩ := Table.mem_updateRows.mp hb'
    · rcases htoken with hlt | hkeep
      · rcases hset.hasToken b token hhas with hhas | rfl
        · exact hmono.tokens b hb token hhas
        · exact Runtime.drawn_random hlt
      · exact hmono.tokens b hb token (hkeep b token hhas)
    · exact hmono.tokens b' hb token hhas

theorem StatusSet.drawn {Grant : Type} {c : Constraints (Invitation Grant)}
    {cond : Invitation Grant → Bool} {status : InvitationStatus}
    {before after : List (Invitation Grant)} {n : Nat} (h : StatusSet c cond status before after)
    (hbefore : ∀ i ∈ before, rt.Drawn n i.id) : ∀ i ∈ after, rt.Drawn n i.id := by
  intro i' hi'
  rw [h.rows] at hi'
  obtain ⟨i, hi, ⟨-, rfl⟩ | ⟨-, rfl⟩⟩ := Table.mem_updateRows.mp hi'
  · exact hbefore i hi
  · exact hbefore i' hi

theorem AllDrawn.upsertMember {key : MemberRow BoardPermission → Bool}
    {set : MemberRow BoardPermission → MemberRow BoardPermission}
    {row : MemberRow BoardPermission} {members : List (MemberRow BoardPermission)}
    (h : AllDrawn rt db.drawn db)
    (hupsert : Table.upsert (memberRowConstraints (boardMemberConstraints (db.env rt))) key set row
      db.boardMembers = .ok members)
    (hset : ∀ m, (set m).id = m.id) (hrow : row.id = db.next rt) :
    AllDrawn rt (db.drawn + 1) (db.withBoardMember members) := by
  have hmono := h.mono (Nat.le_add_right db.drawn 1)
  refine { hmono with boardMembers := ?_ }
  intro m hm
  rcases Table.mem_upsert hupsert hm with ⟨hm, -⟩ | rfl | ⟨m₀, hm₀, -, rfl⟩
  · exact hmono.boardMembers m hm
  · exact hrow ▸ Runtime.drawn_random (Nat.lt_succ_self _)
  · exact hset m₀ ▸ hmono.boardMembers m₀ hm₀

theorem AllDrawn.ran {write : Write} (h : AllDrawn rt db.drawn db)
    (hran : Ran rt db write db') : AllDrawn rt db'.drawn db' := by
  cases hran with
  | @createGoogleUser email googleId users accounts workspaces members huser haccount hworkspace =>
    have hmono := h.mono (Nat.le_add_right db.drawn 1)
    have hwithUser : AllDrawn rt (db.drawn + 1) ((db.withUser users).withAccount accounts) :=
      { hmono with
        users := drawn_of_mem_insert huser hmono.users (Runtime.drawn_random (by omega)) }
    exact hwithUser.workspaceInserted hworkspace
  | insertRefreshToken hinsert => exact { h.mono (Nat.le_add_right db.drawn 1) with }
  | createWorkspace hinserted => exact h.workspaceInserted hinserted
  | renameWorkspace hholds =>
    refine { h with workspaces := ?_ }
    intro w' hw'
    obtain ⟨w, hw, ⟨-, rfl⟩ | ⟨-, rfl⟩⟩ := Table.mem_updateRows.mp hw'
    · exact h.workspaces w hw
    · exact h.workspaces w' hw
  | deleteWorkspaceMember =>
    exact { h with
      workspaceMembers := fun m hm => h.workspaceMembers m (Table.mem_delete.mp hm).1 }
  | insertInvitation hinsert =>
    have hmono := h.mono (Nat.le_add_right db.drawn 2)
    exact { hmono with
      workspaceInvitations := drawn_of_mem_insert hinsert hmono.workspaceInvitations
        (Runtime.drawn_random (Nat.lt_add_of_pos_right Nat.two_pos)) }
  | acceptInvitation hpending hrows hmembers =>
    have hmono := h.mono (Nat.le_add_right db.drawn 1)
    refine { hmono with
      workspaceInvitations := hrows.drawn hmono.workspaceInvitations
      workspaceMembers := ?_ }
    intro m hm
    rcases Table.mem_insertOrIgnore hmembers hm with hm | rfl
    · exact hmono.workspaceMembers m hm
    · exact Runtime.drawn_random (Nat.lt_succ_self _)
  | declineInvitation hrows =>
    exact { h with workspaceInvitations := hrows.drawn h.workspaceInvitations }
  | createBoard hinsert => exact h.insertBoard hinsert
  | renameBoard hupdated =>
    exact h.updateBoard hupdated (Nat.le_refl _) (patchesLinks_rename _ _) (.inr fun _ _ h => h)
  | duplicateNothing hnone => exact h
  | duplicateBoard hsource hinsert => exact h.insertBoard hinsert
  | deleteBoard =>
    exact { h with
      boards := fun b hb => h.boards b (Table.mem_delete.mp hb).1
      tokens := fun b hb => h.tokens b (Table.mem_delete.mp hb).1
      boardMembers := fun m hm => h.boardMembers m (Table.mem_delete.mp hm).1
      boardInvitations := fun i hi => h.boardInvitations i (Table.mem_delete.mp hi).1 }
  | @setBoardLinkShare boardId permission enabled boards hupdated =>
    have hpatch := patchesLinks_linkSharePatch permission enabled (db.next rt)
    cases enabled with
    | true => exact h.updateBoard hupdated (Nat.le_succ _) hpatch (.inl (Nat.lt_succ_self _))
    | false =>
      refine h.updateBoard hupdated (Nat.le_refl _) hpatch (.inr ?_)
      intro b token
      cases permission <;> simp +contextual [linkSharePatch, HasToken]
  | rotateBoardLinkShareToken hupdated =>
    exact h.updateBoard hupdated (Nat.le_succ _) (patchesLinks_rotatePatch _ _)
      (.inl (Nat.lt_succ_self _))
  | addBoardFavorite hrows hupsert => exact { h with }
  | removeBoardFavorite hrows => exact { h with }
  | upsertBoardMember hupsert => exact h.upsertMember hupsert (fun _ => rfl) rfl
  | updateBoardMemberPermission hholds =>
    refine { h with boardMembers := ?_ }
    intro m' hm'
    obtain ⟨m, hm, ⟨-, rfl⟩ | ⟨-, rfl⟩⟩ := Table.mem_updateRows.mp hm'
    · exact h.boardMembers m hm
    · exact h.boardMembers m' hm
  | deleteBoardMember =>
    exact { h with boardMembers := fun m hm => h.boardMembers m (Table.mem_delete.mp hm).1 }
  | leaveBoard =>
    exact { h with boardMembers := fun m hm => h.boardMembers m (Table.mem_delete.mp hm).1 }
  | insertBoardInvitation hinsert =>
    have hmono := h.mono (Nat.le_add_right db.drawn 2)
    exact { hmono with
      boardInvitations := drawn_of_mem_insert hinsert hmono.boardInvitations
        (Runtime.drawn_random (Nat.lt_add_of_pos_right Nat.two_pos)) }
  | acceptBoardInvitation hpending hrows hmembers =>
    exact { h.upsertMember hmembers (fun _ => rfl) rfl with
      boardInvitations := hrows.drawn (h.mono (Nat.le_add_right db.drawn 1)).boardInvitations }
  | declineBoardInvitation hrows =>
    exact { h with boardInvitations := hrows.drawn h.boardInvitations }
  | revokeBoardInvitation hrows =>
    exact { h with boardInvitations := hrows.drawn h.boardInvitations }

/-! ### Later tables -/

/-- More values may be drawn than are used. -/
theorem Later.drawMore (rt : Runtime) (db : Tables) (n : Nat) (hle : db.drawn ≤ n) :
    Later rt db { db with drawn := n } :=
  { Later.refl db with drawn := hle }

theorem Later.workspaceInserted {name ownerId : String} {workspaces : List Workspace}
    {members : List (MemberRow String)}
    (hinserted : WorkspaceInserted rt db name ownerId workspaces members) :
    Later rt db ((db.withWorkspace workspaces).withWorkspaceMember members) :=
  { Later.drawMore rt db (db.drawn + 2) (by omega) with
    workspaces := fun w hw => ⟨w, insert_subset hinserted.workspace w hw, rfl, rfl⟩
    workspaceMembers := fun m hm hdrawn =>
      mem_insert_of_drawn (·.id) hinserted.owner hm ⟨db.drawn + 1, by omega, rfl⟩
        hdrawn }

theorem Later.insertBoard {workspaceId name : String} {boards : List Board}
    (hinsert : Table.insert (boardConstraints (db.env rt)) (newBoard rt workspaceId name db)
      db.boards = .ok boards) :
    Later rt db (db.withBoards boards (db.drawn + 1)) :=
  { Later.drawMore rt db (db.drawn + 1) (by omega) with
    boards := fun b hb hdrawn =>
      ⟨b, mem_insert_of_drawn (·.id) hinsert hb ⟨db.drawn, by omega, rfl⟩ hdrawn,
        .refl _ b⟩
    tokens := fun b hb token _ htoken => by
      rcases mem_insert hinsert hb with hb | rfl
      · exact ⟨b, hb, rfl, htoken⟩
      · rcases htoken with htoken | htoken <;> cases htoken }

theorem Later.updateBoard {boardId : String} {set : Board → Board} {boards : List Board} {n : Nat}
    (hupdated : BoardUpdated rt db boardId set boards) (hle : db.drawn ≤ n)
    (hset : PatchesLinks (db.next rt) set) : Later rt db (db.withBoards boards n) :=
  { Later.drawMore rt db n hle with
    boards := fun _ hb' _ => hupdated.sameBoard hset hb'
    tokens := fun b' hb' token hdrawn htoken => by
      replace hb' : b' ∈ boards := hb'
      rw [hupdated.rows] at hb'
      obtain ⟨b, hb, ⟨-, rfl⟩ | ⟨-, rfl⟩⟩ := Table.mem_updateRows.mp hb'
      · refine ⟨b, hb, (hset.id b).symm, (hset.hasToken b token htoken).resolve_right ?_⟩
        rintro rfl
        exact Runtime.not_drawn (Nat.le_refl _) hdrawn
      · exact ⟨b', hb, rfl, htoken⟩ }

theorem Later.upsertMember {key : MemberRow BoardPermission → Bool}
    {set : MemberRow BoardPermission → MemberRow BoardPermission}
    {row : MemberRow BoardPermission} {members : List (MemberRow BoardPermission)}
    (hupsert : Table.upsert (memberRowConstraints (boardMemberConstraints (db.env rt))) key set row
      db.boardMembers = .ok members)
    (hset : ∀ m, SameMember m (set m)) (hrow : row.id = db.next rt) :
    Later rt db (db.withBoardMember members) := by
  refine { Later.drawMore rt db _ (Nat.le_succ _) with boardMembers := ?_ }
  intro m hm hdrawn
  rcases Table.mem_upsert hupsert hm with ⟨hm, -⟩ | rfl | ⟨m₀, hm₀, -, rfl⟩
  · exact ⟨m, hm, .refl m⟩
  · exact absurd (hrow ▸ hdrawn) (Runtime.not_drawn (Nat.le_refl _))
  · exact ⟨m₀, hm₀, hset m₀⟩

theorem Later.ran {write : Write} (hran : Ran rt db write db') : Later rt db db' := by
  cases hran with
  | @createGoogleUser email googleId users accounts workspaces members huser haccount hworkspace =>
    have hwithUser : Later rt db ((db.withUser users).withAccount accounts) :=
      { Later.drawMore rt db (db.drawn + 1) (by omega) with
        users := insert_subset huser
        oauthAccounts := insert_subset haccount }
    exact hwithUser.trans (Later.workspaceInserted hworkspace)
  | insertRefreshToken hinsert =>
    exact { Later.drawMore rt db (db.drawn + 1) (by omega) with }
  | createWorkspace hinserted => exact Later.workspaceInserted hinserted
  | @renameWorkspace workspaceId name hholds =>
    refine { Later.refl db with workspaces := ?_ }
    intro w hw
    cases hid : w.id == workspaceId with
    | true => exact ⟨{ w with name := name }, Table.set_mem_updateRows hw hid, rfl, rfl⟩
    | false => exact ⟨w, Table.mem_updateRows_of_not hw hid, rfl, rfl⟩
  | deleteWorkspaceMember =>
    exact { Later.refl db with workspaceMembers := fun m hm _ => (Table.mem_delete.mp hm).1 }
  | insertInvitation hinsert =>
    exact { Later.drawMore rt db (db.drawn + 2) (by omega) with
      workspaceInvitations := fun i hi hdrawn =>
        ⟨i, mem_insert_of_drawn (·.id) hinsert hi ⟨db.drawn, Nat.le_refl _, rfl⟩ hdrawn,
          .refl i⟩ }
  | @acceptInvitation invitation userId now rows members hpending hrows hmembers =>
    refine { Later.drawMore rt db (db.drawn + 1) (by omega) with
      workspaceInvitations := fun _ hi _ => hrows.sameInvitation (by decide) hi
      workspaceMembers := ?_ }
    intro m hm hdrawn
    rcases Table.mem_insertOrIgnore hmembers hm with hm | rfl
    · exact hm
    · exact absurd hdrawn (Runtime.not_drawn (Nat.le_refl _))
  | declineInvitation hrows =>
    exact { Later.refl db with
      workspaceInvitations := fun _ hi _ => hrows.sameInvitation (by decide) hi }
  | createBoard hinsert => exact Later.insertBoard hinsert
  | renameBoard hupdated =>
    exact Later.updateBoard hupdated (Nat.le_refl _) (patchesLinks_rename _ _)
  | duplicateNothing hnone => exact Later.refl db
  | duplicateBoard hsource hinsert => exact Later.insertBoard hinsert
  | deleteBoard =>
    exact { Later.refl db with
      boards := fun b hb _ => ⟨b, (Table.mem_delete.mp hb).1, .refl _ b⟩
      tokens := fun b hb _ _ htoken => ⟨b, (Table.mem_delete.mp hb).1, rfl, htoken⟩
      boardMembers := fun m hm _ => ⟨m, (Table.mem_delete.mp hm).1, .refl m⟩
      boardInvitations := fun i hi _ => ⟨i, (Table.mem_delete.mp hi).1, .refl i⟩ }
  | @setBoardLinkShare boardId permission enabled boards hupdated =>
    have hpatch := patchesLinks_linkSharePatch permission enabled (db.next rt)
    cases enabled with
    | true => exact Later.updateBoard hupdated (Nat.le_succ _) hpatch
    | false => exact Later.updateBoard hupdated (Nat.le_refl _) hpatch
  | rotateBoardLinkShareToken hupdated =>
    exact Later.updateBoard hupdated (Nat.le_succ _) (patchesLinks_rotatePatch _ _)
  | addBoardFavorite hrows hupsert => exact { Later.refl db with }
  | removeBoardFavorite hrows => exact { Later.refl db with }
  | upsertBoardMember hupsert =>
    exact Later.upsertMember hupsert (fun _ => ⟨rfl, rfl, rfl⟩) rfl
  | updateBoardMemberPermission hholds =>
    refine { Later.refl db with boardMembers := ?_ }
    intro m' hm' _
    obtain ⟨m, hm, ⟨-, rfl⟩ | ⟨-, rfl⟩⟩ := Table.mem_updateRows.mp hm'
    · exact ⟨m, hm, rfl, rfl, rfl⟩
    · exact ⟨m', hm, .refl m'⟩
  | deleteBoardMember =>
    exact { Later.refl db with
      boardMembers := fun m hm _ => ⟨m, (Table.mem_delete.mp hm).1, .refl m⟩ }
  | leaveBoard =>
    exact { Later.refl db with
      boardMembers := fun m hm _ => ⟨m, (Table.mem_delete.mp hm).1, .refl m⟩ }
  | insertBoardInvitation hinsert =>
    exact { Later.drawMore rt db (db.drawn + 2) (by omega) with
      boardInvitations := fun i hi hdrawn =>
        ⟨i, mem_insert_of_drawn (·.id) hinsert hi ⟨db.drawn, Nat.le_refl _, rfl⟩ hdrawn,
          .refl i⟩ }
  | acceptBoardInvitation hpending hrows hmembers =>
    exact { Later.upsertMember hmembers (fun _ => ⟨rfl, rfl, rfl⟩) rfl with
      boardInvitations := fun _ hi _ => hrows.sameInvitation (by decide) hi }
  | declineBoardInvitation hrows =>
    exact { Later.refl db with
      boardInvitations := fun _ hi _ => hrows.sameInvitation (by decide) hi }
  | revokeBoardInvitation hrows =>
    exact { Later.refl db with
      boardInvitations := fun _ hi _ => hrows.sameInvitation (by decide) hi }

end rows

/-! ### Disciplines over the tables -/

section disciplines
variable {rt : Runtime} {db : Tables}

theorem Stored.apply (h : Stored rt db) (write : Write) : Stored rt (write.apply rt db) := by
  refine apply_induction (P := Stored rt) h ?_
  intro db' hran
  exact ⟨h.valid.ran hran, h.drawn.ran hran⟩

theorem Later.apply (rt : Runtime) (db : Tables) (write : Write) :
    Later rt db (write.apply rt db) :=
  apply_induction (P := Later rt db) (Later.refl db) fun _ => Later.ran

/-- The stored tables with one more invariant, under writes that `may` allows. -/
def storedWith (rt : Runtime) (I : Tables → Prop) (may : Tables → Write → Prop) :
    Discipline Tables Write where
  inv := fun db => Stored rt db ∧ I db
  later := Later rt
  may := may

/-- An invariant is kept when the writes that are not refused keep it. -/
theorem storedWith_sound {I : Tables → Prop} {may : Tables → Write → Prop}
    (h : ∀ db write db', Stored rt db → I db → may db write → Ran rt db write db' → I db') :
    (storedWith rt I may).Sound (Write.apply rt) where
  keeps := by
    rintro db write ⟨hstored, hI⟩ hmay
    refine ⟨hstored.apply write, ?_⟩
    exact apply_induction hI fun db' hran => h db write db' hstored hI hmay hran
  moves := fun db write _ _ => Later.apply rt db write
  refl := Later.refl
  trans := fun _ _ _ => Later.trans

end disciplines

end Notebortt.Requests
