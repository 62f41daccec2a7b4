import Notebortt.Requests.Guards

/-! # Error answers

    A handler writes once and at its end, so a request that is answered with an
    error has written nothing. The handlers left out here go on after their
    write: those of the favourites read the board again, `DELETE /boards/:id`
    flushes it, and a login inserts the refresh token after the user and has yet
    to build the address of the redirect. -/

open Interleaving (Program Label)

namespace Notebortt.Requests

open Invitations Access

/-- The same rows in every table. -/
def SameRows (db db' : Tables) : Prop := { db' with drawn := db.drawn } = db

def Succeeds (r : Except RequestError Response) : Prop :=
  ∃ response, r = .ok response ∧ response.status < 400

/-- Nothing comes after the write of the request. -/
def Request.WritesLast : Request → Prop
  | .action _ (.putFavorite _ _) | .action _ (.deleteFavorite _ _) | .action _ (.deleteBoard _)
  | .login _ _ _ => False
  | _ => True

/-- No statement of the program changes a row, unless the program then ends as `good` says. -/
def Careful (rt : Runtime) {α : Type} (good : Except RequestError α → Prop) (p : Service α) :
    Prop :=
  p.AllOrNothing (Write.apply rt) SameRows good

section parts
variable {rt : Runtime} {α β : Type}

theorem SameRows.refl (db : Tables) : SameRows db db := rfl

theorem Careful.done {a : α} {good : Except RequestError α → Prop} :
    Careful rt good (.done a) := trivial

theorem Careful.fail {e : RequestError} {good : Except RequestError α → Prop} :
    Careful rt good (.fail e) := trivial

theorem Careful.bind {p : Service α} {f : α → Service β} {good : Except RequestError β → Prop}
    (h : Careful rt (Program.goesOn f good) p)
    (hf : ∀ a, Careful rt good (f a)) : Careful rt good (p >>= f) :=
  Program.AllOrNothing.bind h hf

theorem Careful.orElse {p : Service α} {f : RequestError → Service α}
    {good : Except RequestError α → Prop}
    (h : Careful rt (Program.recovers f good) p)
    (hf : ∀ e, Careful rt good (f e)) : Careful rt good (p.orElse f) :=
  Program.AllOrNothing.orElse h hf

theorem Careful.query {f : Tables → α} {good : Except RequestError α → Prop} :
    Careful rt good (.read f) := .read SameRows.refl

/-- A query first. -/
theorem Careful.read {f : Tables → α} {g : α → Service β} {good : Except RequestError β → Prop}
    (h : ∀ a, Careful rt good (g a)) : Careful rt good (Program.read f >>= g) :=
  .bind .query h

theorem Careful.execute {write : Write} {answer : Tables → Tables → α}
    {good : Except RequestError α → Prop}
    (h : ∀ db db', write.run rt db = .ok db' → SameRows db db' ∨ good (.ok (answer db db'))) :
    Careful rt good (execute rt write answer) := by
  refine Program.AllOrNothing.perform fun db => ?_
  cases hrun : write.run rt db with
  | error e =>
    refine .inl ?_
    rw [Write.apply, hrun]
    exact .refl db
  | ok db' =>
    rw [Write.apply, hrun]
    exact h db db' hrun

/-- A write that is answered as a success. -/
theorem Careful.succeed {write : Write} {answer : Tables → Tables → Response}
    (h : ∀ db db', (answer db db').status < 400) :
    Careful rt Succeeds (Requests.execute rt write answer) :=
  .execute fun db db' _ => .inr ⟨_, rfl, h db db'⟩

theorem Careful.getUserEmail {userId : String} {good : Except RequestError String → Prop} :
    Careful rt good (getUserEmail rt userId) := fun db =>
  ⟨.inl (.refl db), Program.allOrNothing_ofExcept⟩

theorem Careful.getWorkspaceRoleForBoard {boardId userId : String}
    {good : Except RequestError (Option String) → Prop} :
    Careful rt good (getWorkspaceRoleForBoard boardId userId) := by
  refine .read fun board => ?_
  cases board with
  | none => exact .done
  | some board => exact .query

theorem Careful.guarded {role : Service (Option String)} {allowed : Option String → Bool}
    {service : Service Response} (hrole : ∀ good, Careful rt good role)
    (h : Careful rt Succeeds service) : Careful rt Succeeds (guarded role allowed service) := by
  refine .bind (hrole _) fun role => ?_
  split
  · exact h
  · exact .done

theorem Careful.guardedWorkspace {wid userId : String} {allowed : Option String → Bool}
    {service : Service Response} (h : Careful rt Succeeds service) :
    Careful rt Succeeds (Requests.guarded (getWorkspaceMemberRole wid userId) allowed service) :=
  .guarded (fun _ => .query) h

theorem Careful.guardedBoard {boardId userId : String} {allowed : Option String → Bool}
    {service : Service Response} (h : Careful rt Succeeds service) :
    Careful rt Succeeds
      (Requests.guarded (Requests.getWorkspaceRoleForBoard boardId userId) allowed service) :=
  .guarded (fun _ => .getWorkspaceRoleForBoard) h

/-- An update that is answered from the row it returns: without one it has selected none. -/
theorem Careful.updateBoard {write : Write} {boardId : String} {send : Board → Response}
    (set : Tables → Board → Board) (hset : ∀ db b, (set db b).id = b.id)
    (hrun : ∀ db db', write.run rt db = .ok db' → ∃ boards drawn,
      BoardUpdated rt db boardId (set db) boards ∧ db' = db.withBoards boards drawn)
    (hsend : ∀ board, (send board).status < 400) :
    Careful rt Succeeds (Requests.execute rt write fun db db' =>
      orNotFound "Board not found" send (returned boardId db db')) := by
  refine .execute fun db db' hok => ?_
  obtain ⟨boards, drawn, hupdated, rfl⟩ := hrun db db' hok
  cases hreturned : returned boardId db (db.withBoards boards drawn) with
  | some board => exact .inr ⟨_, rfl, hsend board⟩
  | none =>
    refine .inl ?_
    have hrows : boards = db.boards := by
      rw [returned, Tables.withBoards, hupdated.rows] at hreturned
      rw [hupdated.rows]
      exact Table.updateRows_eq_self_of_find? (fun b => by rw [hset]) hreturned
    rw [SameRows, hrows]
    rfl

/-! ### Services -/

theorem Careful.requireBoardAccess {boardId : String} {userId shareToken : Option String}
    {good : Except RequestError BoardAccess → Prop} :
    Careful rt good (requireBoardAccess boardId userId shareToken) := by
  refine .read fun found => ?_
  cases found with
  | none => exact .done
  | some board =>
    dsimp only
    split
    · exact .done
    split
    · exact .done
    cases userId with
    | none => exact .done
    | some userId =>
      dsimp only
      split
      · exact .done
      refine .read fun directPermission => ?_
      cases directPermission with
      | some permission => exact .done
      | none =>
        refine .read fun workspacePermission => ?_
        cases workspacePermission <;> exact .done

theorem Careful.getBoardWithFavorite {boardId : String} {userId : Option String}
    {good : Except RequestError (Option (Board × Option Nat)) → Prop} :
    Careful rt good (getBoardWithFavorite boardId userId) := by
  refine .read fun found => ?_
  cases found with
  | none => exact .done
  | some board =>
    cases userId with
    | none => exact .done
    | some userId =>
      dsimp only
      split
      · exact .done
      · exact .bind (fun db => ⟨.inl (.refl db), Program.allOrNothing_ofExcept⟩) fun _ => .done

theorem Careful.createBoardInvitation {boardId invitedBy email : String}
    {permission : BoardPermission} {now : Nat} {good : Except RequestError (String × String) → Prop}
    (h : ∀ a, good (.ok a)) :
    Careful rt good (createBoardInvitation rt boardId invitedBy email permission now) := by
  refine .read fun existing => ?_
  cases existing with
  | some invitation => exact .done
  | none =>
    refine .orElse (.execute fun db db' _ => .inr (h _)) fun error => ?_
    split
    · refine .read fun found => ?_
      cases found <;> trivial
    · exact .fail

theorem Careful.createInvitation {workspaceId email role invitedBy : String} {now : Nat}
    {good : Except RequestError WorkspaceInvitation → Prop} (h : ∀ a, good (.ok a)) :
    Careful rt good (createInvitation rt workspaceId email role invitedBy now) := by
  refine .read fun existing => ?_
  cases existing with
  | some invitation => exact .done
  | none =>
    refine .orElse (.execute fun db db' _ => .inr (h _)) fun error => ?_
    split
    · refine .read fun found => ?_
      cases found <;> trivial
    · exact .fail

theorem Careful.acceptBoardInvitationByToken {token userId : String} {now : Nat}
    {good : Except RequestError Unit → Prop} (h : good (.ok ())) :
    Careful rt good (acceptBoardInvitationByToken rt token userId now) := by
  refine .bind .getUserEmail fun email => .read fun found => ?_
  cases found with
  | none => exact .fail
  | some invitation => exact .execute fun db db' _ => .inr h

theorem Careful.declinePendingInvitationByToken {token userId : String}
    {good : Except RequestError Unit → Prop} (h : good (.ok ())) :
    Careful rt good (declinePendingInvitationByToken rt token userId) := by
  refine .bind .getUserEmail fun email => .read fun found => ?_
  cases found with
  | some boardInvitation => exact .execute fun db db' _ => .inr h
  | none =>
    refine .read fun found => ?_
    cases found with
    | none => exact .fail
    | some workspaceInvitation => exact .execute fun db db' _ => .inr h

theorem Careful.acceptInvitation {token userId : String} {now : Nat}
    {good : Except RequestError (Option Workspace) → Prop} (h : ∀ workspace, good (.ok workspace)) :
    Careful rt good (acceptInvitation rt token userId now) := by
  refine .bind (.orElse .getUserEmail fun _ => .fail) fun email => .read fun found => ?_
  cases found with
  | none => exact .fail
  | some invitation =>
    dsimp only
    split
    · exact .fail
    · exact .execute fun db db' _ => .inr (h _)

theorem Careful.deleteWorkspaceMember {wid memberId : String}
    {good : Except RequestError Bool → Prop} (h : good (.ok true)) :
    Careful rt good (deleteWorkspaceMember rt wid memberId) := by
  refine .read fun found => ?_
  cases found with
  | none => exact .done
  | some member =>
    dsimp only
    split
    · exact .done
    · exact .execute fun db db' _ => .inr h

/-! ### Handlers -/

/-- A success is what is sent on after the service. -/
theorem Careful.caught {p : Service Response} {f : RequestError → Response}
    (h : Careful rt Succeeds p) : Careful rt Succeeds (p.orElse fun error => .done (f error)) := by
  refine .orElse (h.mono ?_) fun _ => .done
  rintro _ ⟨response, rfl, hstatus⟩
  exact ⟨response, rfl, hstatus⟩

theorem Careful.handleAction {userId : String} {action : Action}
    (hlast : (Request.action userId action).WritesLast) :
    Careful rt Succeeds (handleAction rt userId action) := by
  cases action with
  | postWorkspace name => exact .succeed fun _ _ => (by decide : 201 < 400)
  | patchWorkspace wid name =>
    refine .guardedWorkspace (.execute fun db db' hok => ?_)
    cases ran_of_run hok with
    | renameWorkspace hholds =>
      dsimp only
      cases hfind : (Table.updateRows (·.id == wid) (fun w => { w with name := name })
        db.workspaces).find? (·.id == wid) with
      | some workspace => exact .inr ⟨_, rfl, (by decide : 200 < 400)⟩
      | none =>
        have hrows : Table.updateRows (·.id == wid) (fun w => { w with name := name })
            db.workspaces = db.workspaces := by
          refine Table.updateRows_eq_self_of_find? ?_ hfind
          exact fun _ => rfl
        refine .inl ?_
        rw [SameRows, hrows]
  | deleteWorkspaceMember wid memberId =>
    refine .guardedWorkspace (.bind (.deleteWorkspaceMember ⟨_, rfl, by decide⟩) fun removed => ?_)
    cases removed <;> exact .done
  | postWorkspaceInvitation wid email role now =>
    exact .guardedWorkspace
      (.bind (.createInvitation fun _ => ⟨_, rfl, (by decide : 201 < 400)⟩) fun _ => .done)
  | acceptWorkspaceInvitation token now =>
    refine .caught (.bind (.acceptInvitation fun workspace => ?_) fun workspace => ?_)
    · cases workspace <;> exact ⟨_, rfl, (by decide : 200 < 400)⟩
    · cases workspace <;> exact .done
  | postBoard wid name => exact .guardedWorkspace (.succeed fun _ _ => (by decide : 201 < 400))
  | patchBoard boardId name =>
    refine .guardedBoard (.updateBoard (fun _ board => { board with name := name })
      (fun _ _ => rfl) (fun db db' hok => ?_) fun _ => (by decide : 200 < 400))
    cases ran_of_run hok with
    | renameBoard hupdated => exact ⟨_, _, hupdated, rfl⟩
  | duplicateBoard boardId =>
    refine .guardedBoard (.execute fun db db' hok => ?_)
    cases ran_of_run hok with
    | duplicateNothing => exact .inl (.refl db)
    | duplicateBoard hsource =>
      rw [hsource]
      exact .inr ⟨_, rfl, (by decide : 201 < 400)⟩
  | deleteBoard | putFavorite | deleteFavorite => exact hlast.elim
  | leaveBoard boardId =>
    refine .bind .getWorkspaceRoleForBoard fun role => ?_
    split
    · exact .done
    · exact .succeed fun _ _ => (by decide : 204 < 400)
  | postBoardMember boardId memberUserId permission =>
    refine .guardedBoard (.succeed fun db db' => ?_)
    split <;> exact (by decide : 201 < 400)
  | patchBoardMember boardId memberId permission =>
    exact .guardedBoard (.succeed fun _ _ => (by decide : 204 < 400))
  | deleteBoardMember boardId memberId =>
    exact .guardedBoard (.succeed fun _ _ => (by decide : 204 < 400))
  | postBoardInvite boardId email permission now =>
    exact .guardedBoard
      (.bind (.createBoardInvitation fun _ => ⟨_, rfl, (by decide : 201 < 400)⟩) fun _ => .done)
  | acceptBoardInvite token now =>
    exact .caught (.bind (.acceptBoardInvitationByToken ⟨_, rfl, (by decide : 204 < 400)⟩)
      fun _ => .done)
  | declinePendingInvite token =>
    exact .caught (.bind (.declinePendingInvitationByToken ⟨_, rfl, (by decide : 204 < 400)⟩)
      fun _ => .done)
  | deleteBoardInvite boardId inviteId =>
    exact .guardedBoard (.succeed fun _ _ => (by decide : 204 < 400))
  | patchLinkSharing boardId permission enabled =>
    refine .guardedBoard (.updateBoard
      (fun db => linkSharePatch (orView permission) enabled (db.next rt))
      (fun _ _ => linkSharePatch_id _ _ _ _) (fun db db' hok => ?_) fun board => ?_)
    · cases ran_of_run hok with
      | setBoardLinkShare hupdated => exact ⟨_, _, hupdated, rfl⟩
    · cases orView permission <;> exact (by decide : 200 < 400)
  | rotateLinkSharing boardId permission =>
    refine .guardedBoard (.updateBoard (fun db => rotatePatch permission (db.next rt))
      (fun _ _ => rotatePatch_id _ _ _) (fun db db' hok => ?_) fun board => ?_)
    · cases ran_of_run hok with
      | rotateBoardLinkShareToken hupdated => exact ⟨_, _, hupdated, rfl⟩
    · cases permission <;> exact (by decide : 200 < 400)

theorem Careful.handle {request : Request} (hlast : request.WritesLast) :
    Careful rt Succeeds (handle rt request) := by
  cases request with
  | action userId action => exact .caught (.handleAction hlast)
  | login email googleId redirects => exact hlast.elim
  | getBoard boardId userId shareToken =>
    refine .caught (.bind .requireBoardAccess fun access => ?_)
    split
    · exact .done
    · refine .bind .getBoardWithFavorite fun board => ?_
      cases board <;> exact .done
  | getShared token editFirst =>
    refine .bind ?_ fun share => ?_
    · rw [getShareByToken]
      split
      · exact .read fun _ => .read fun _ => .done
      · exact .read fun _ => .read fun _ => .done
    · cases share <;> exact .done

end parts

section system
variable {Thread : Type} [DecidableEq Thread] {rt : Runtime} {s s₁ s₂ : State Thread}

/-- A request that ends with an error answer, whatever the others do in the meantime, has not
    changed a row with any of its statements. -/
theorem error_wrote_nothing {start : Tables → Prop} (h : (system Thread rt start).Reachable s)
    {t : Thread} {request : Request} {p : Service Response} (hlast : request.WritesLast)
    (hp : s.running t = some (request, p))
    (hstep : (system Thread rt start).step s (.resume t) = some s₁)
    {ls : List (Label Thread Request)} (hrun : (system Thread rt start).exec s₁ ls = some s₂)
    {response : Response} (hdone : s₂.running t = some (request, .done response))
    (herror : 400 ≤ response.status) : SameRows s.store s₁.store := by
  refine Interleaving.same_of_bad_end (Careful.handle hlast) h hp hstep hrun hdone ?_
  rintro ⟨_, ⟨rfl⟩, hstatus⟩
  omega

/-- A guest asks to rename the board. -/
theorem error_wrote_nothing_guest :
    let r := Runtime.counting.random
    ∃ s s₁ s₂ : State Unit, (system Unit .counting fun _ => True).exec (idle guestTables)
        [.start () (.action (r 1) (.patchBoard (r 4) "Map")), .resume ()] = some s ∧
      (system Unit .counting fun _ => True).exec s [.resume ()] = some s₁ ∧
      (system Unit .counting fun _ => True).exec s₁ [] = some s₂ ∧
      s₂.running () = some (.action (r 1) (.patchBoard (r 4) "Map"), .done sendForbidden) ∧
      SameRows s.store s₁.store := by
  intro r
  have hstart : (system Unit .counting fun _ => True).Reachable (idle guestTables) :=
    .init ⟨⟨stored_guestTables, trivial⟩, fun _ => rfl⟩
  have hasked := hstart.step (.start () (.action (r 1) (.patchBoard (r 4) "Map"))) rfl
  have hboard := hasked.step (.resume ()) rfl
  have hlast : (Request.action (r 1) (.patchBoard (r 4) "Map")).WritesLast := trivial
  refine ⟨_, _, _, rfl, rfl, rfl, rfl, ?_⟩
  exact @error_wrote_nothing Unit _ .counting _ _ _ _ hboard () _ _ hlast rfl rfl [] rfl
    sendForbidden rfl (by decide)

end system

end Notebortt.Requests
