import Notebortt.Realtime.SocketRuns
import Notebortt.Requests.Confinement

/-! # What a socket can come to

    The sockets rest on the tables, so a bound that the requests keep on the
    access of some people is one on what their sockets get and change, however
    many sockets they open and whatever is sent on them. Only a link of the
    board whose token they have may let them further. -/

open Interleaving (Label)

namespace Notebortt.SocketServer

open Invitations (BoardPermission)
open Access (permissionLevel)
open Requests (Action Bounded IsOneOf KeptOut Opens Placed Stored Tables)

/-- A link of the board was open to a token that the socket has presented. -/
def LinkOpened {Socket : Type} (history : Past Socket) (x : Socket) (boardId : String)
    (permission : BoardPermission) : Prop :=
  ∃ db token, history.tables db ∧ history.presented x token ∧ Opens db token boardId permission

section confined
variable {Socket : Type} {cfg : Config Socket} {people : String → Prop}
  {boardId workspaceId : String} {limit : Nat} {w : World Socket} {x : Socket}

/-- The invariant with the bound in all tables of the history. -/
abbrev BoundedInv (cfg : Config Socket) (people : String → Prop) (boardId workspaceId : String)
    (limit : Nat) (w : World Socket) : Prop :=
  Inv cfg (fun db => Placed cfg.runtime boardId workspaceId db ∧
    Bounded cfg.runtime people boardId workspaceId limit db) w

/-- The people's socket: whoever its tokens name is one of them. -/
def IsTheirs (cfg : Config Socket) (people : String → Prop) (w : World Socket) (x : Socket) :
    Prop :=
  ∀ userId, Names cfg w.History x userId → IsOneOf cfg.runtime people w.tables userId

/-- Who is let in by the tables of these people is so within the limit. -/
theorem LetIn.le {userId : Option String} {permission : BoardPermission}
    (hinv : BoundedInv cfg people boardId workspaceId limit w)
    (hone : ∀ u, userId = some u → IsOneOf cfg.runtime people w.tables u)
    (h : LetIn w.History x boardId userId permission) :
    LinkOpened w.History x boardId permission ∨ permissionLevel (some permission) ≤ limit := by
  have hstored : Stored cfg.runtime w.tables := (hinv.history _ w.history_self).1
  cases h with
  | link hdb hpresented hopens => exact .inl ⟨_, _, hdb, hpresented, hopens⟩
  | @member db u hdb huser hmember =>
    obtain ⟨hs, -, hbounded⟩ := hinv.history db hdb
    obtain ⟨m, hm, hscope, rfl, rfl⟩ := Requests.boardMember_row hs hmember
    have honeThen : IsOneOf cfg.runtime people db m.userId :=
      Requests.isOneOf_of_later hstored (hinv.earlier db hdb)
        (Requests.hasUser_of_boardMember hs hm) (hone _ huser)
    exact .inr (hbounded.boardMembers m hm hscope honeThen)
  | @role db₀ db board u hdb₀ hdb huser hboard hrole =>
    obtain ⟨hs₀, hplaced, -⟩ := hinv.history db₀ hdb₀
    obtain ⟨hs, -, hbounded⟩ := hinv.history db hdb
    obtain ⟨hmem, hid⟩ := hs₀.valid.access.getBoard_iff.mp hboard
    obtain ⟨m, hm, hscope, rfl, rfl⟩ := Requests.workspaceMember_row hs hrole
    have honeThen : IsOneOf cfg.runtime people db m.userId :=
      Requests.isOneOf_of_later hstored (hinv.earlier db hdb)
        (Requests.hasUser_of_workspaceMember hs hm) (hone _ huser)
    exact .inr (hbounded.role_le hm (hscope.trans (hplaced.board board hmem hid)) honeThen)

theorem Granted.le {userId : String} {permission : BoardPermission}
    (hinv : BoundedInv cfg people boardId workspaceId limit w) (hx : IsTheirs cfg people w x)
    (h : Granted cfg w.History x boardId userId permission) :
    LinkOpened w.History x boardId permission ∨ permissionLevel (some permission) ≤ limit := by
  obtain ⟨i, hidentity, -, hlet⟩ := h
  exact hlet.le hinv fun u hu => hx u (hidentity.named u hu)

end confined

section system
variable {Thread : Type} [DecidableEq Thread] {Socket : Type} [DecidableEq Socket]
  {cfg : Config Socket} {people : String → Prop} {boardId workspaceId : String} {limit : Nat}
  {s : State Thread Socket}

/-- The condition on the requests; the events of the sockets are free. -/
def OthersKeepOut (cfg : Config Socket) (people : String → Prop) (boardId workspaceId : String)
    (limit : Nat) (s : State Thread Socket) : Label Thread (ServerEvent Socket) → Prop
  | .start _ (.http (.action userId action)) =>
    IsOneOf cfg.runtime people s.store.tables userId ∨
      action.lets cfg.runtime people boardId workspaceId limit s.store.tables
  | _ => True

theorem boundedInv_of_reachableUnder
    (h : (system Thread cfg (KeptOut cfg.runtime people boardId workspaceId limit)).ReachableUnder
      (OthersKeepOut cfg people boardId workspaceId limit) s) :
    BoundedInv cfg people boardId workspaceId limit s.store := by
  refine inv_of_reachableUnder (Requests.lets cfg.runtime people boardId workspaceId limit)
    ?_ ?_ ?_ h
  · rintro db write db' hs ⟨hplaced, hbounded⟩ hlets hran
    exact ⟨hplaced.later (.ran hran), hbounded.ran hs hplaced hlets hran⟩
  · intro s t request hC hs _
    refine Requests.obeys_of_keepOut hs ?_
    rintro userId action rfl
    exact hC
  · intro db hs hstart
    exact ⟨.of_stored hs hstart.board, hstart.bounded⟩

/-- As long as nobody else lets one of these people further in, no socket of theirs gets anything
    of the board, or changes it, beyond the limit, unless by a link that was open to a token it has
    presented. -/
theorem sockets_confined
    (h : (system Thread cfg (KeptOut cfg.runtime people boardId workspaceId limit)).ReachableUnder
      (OthersKeepOut cfg people boardId workspaceId limit) s)
    {x : Socket} (hx : IsTheirs cfg people s.store x) :
    (∀ r ∈ s.store.received x, r.boardId? = some boardId →
      (∃ permission, LinkOpened s.store.History x boardId permission) ∨ 1 ≤ limit) ∧
    (∀ e ∈ s.store.edits, e.socket = x → e.boardId = boardId →
      LinkOpened s.store.History x boardId .edit ∨ 2 ≤ limit) := by
  have hinv := boundedInv_of_reachableUnder h
  constructor
  · intro r hr hboard
    obtain ⟨userId, permission, hgranted⟩ := hinv.received x r hr boardId hboard
    rcases hgranted.le hinv hx with hlink | hle
    · exact .inl ⟨permission, hlink⟩
    · have hpos : 1 ≤ permissionLevel (some permission) := by cases permission <;> decide
      exact .inr (Nat.le_trans hpos hle)
  · rintro e he rfl rfl
    exact (hinv.edits e he).granted.le hinv hx

/-- The guest's socket. -/
def guestConfig : Config Unit :=
  { ownerConfig with
    verifyAccessToken := fun _ token =>
      if token = "token" then some (Requests.Runtime.counting.random 1) else none }

theorem isTheirs_guest {w : World Unit} (husers : w.tables.users = Requests.guestTables.users) :
    IsTheirs guestConfig (· = "guest") w () := by
  rintro userId ⟨token, -, now, hverifies, -⟩
  obtain ⟨t, -, hsubject⟩ := Option.bind_eq_some_iff.mp hverifies
  have hguest : userId = Requests.Runtime.counting.random 1 := by
    change (if t = "token" then some _ else none) = some userId at hsubject
    split at hsubject
    · exact (Option.some.inj hsubject).symm
    · cases hsubject
  refine ⟨{ id := userId, email := "guest" }, ?_, rfl, rfl⟩
  rw [husers, hguest]
  decide

/-- The guest asks to be one of the editors. -/
def guestAsks : Label Nat (ServerEvent Unit) :=
  .start 0 (.http (.action (Requests.Runtime.counting.random 1)
    (.postBoardMember (Requests.Runtime.counting.random 4) (Requests.Runtime.counting.random 1)
      (some .edit))))

/-- The guest is refused, joins the board, and sends an update. -/
def guestGoesOn : List (Label Nat (ServerEvent Unit)) :=
  List.replicate 2 (.resume 0) ++ .start 1 joinsBoard :: List.replicate 22 (.resume 1) ++
    [.start 2 updatesBoard, .resume 2]

abbrev guestSystem : Transition.System (State Nat Unit) (Label Nat (ServerEvent Unit)) :=
  system Nat guestConfig (KeptOut .counting (· = "guest") (Requests.Runtime.counting.random 4)
    (Requests.Runtime.counting.random 2) 1)

abbrev GuestKeptOut : State Nat Unit → Label Nat (ServerEvent Unit) → Prop :=
  OthersKeepOut guestConfig (· = "guest") (Requests.Runtime.counting.random 4)
    (Requests.Runtime.counting.random 2) 1

theorem guestKeptOut_asks : GuestKeptOut (idle Unit Requests.guestTables) guestAsks :=
  .inl ⟨{ id := Requests.Runtime.counting.random 1, email := "guest" }, by decide, rfl, rfl⟩

theorem guestKeptOut_goesOn (s : State Nat Unit) : ∀ l ∈ guestGoesOn, GuestKeptOut s l := by
  intro l hl
  simp only [guestGoesOn, List.mem_append, List.mem_cons, List.mem_replicate,
    List.not_mem_nil] at hl
  obtain (⟨-, rfl⟩ | rfl | ⟨-, rfl⟩) | rfl | rfl | hl := hl
  · trivial
  · trivial
  · trivial
  · trivial
  · trivial
  · cases hl

theorem reachable_guest :
    guestSystem.ReachableUnder GuestKeptOut (idle Unit Requests.guestTables) :=
  .init ⟨⟨_, Requests.stored_guestTables, Requests.keptOut_guestTables, rfl⟩, fun _ => rfl⟩

theorem guestRun :
    (guestSystem.exec (idle Unit Requests.guestTables) (guestAsks :: guestGoesOn)).map (fun s =>
      (s.store.tables.users, (s.store.received ()).map Received.boardId?)) =
        some (Requests.guestTables.users, [some (Requests.Runtime.counting.random 4), none]) := by
  decide

/-- A guest who may view the board asks to be one of its editors, joins it, and sends an update. -/
theorem sockets_confined_guest :
    ∃ s : State Nat Unit,
      guestSystem.exec (idle Unit Requests.guestTables) (guestAsks :: guestGoesOn) = some s ∧
      (s.store.received ()).map Received.boardId? =
        [some (Requests.Runtime.counting.random 4), none] ∧
      ∀ e ∈ s.store.edits, e.boardId = Requests.Runtime.counting.random 4 →
        LinkOpened s.store.History () e.boardId .edit ∨ 2 ≤ 1 := by
  obtain ⟨s, hexec, hs⟩ := Option.map_eq_some_iff.mp guestRun
  obtain ⟨husers, hreceived⟩ := Prod.mk.inj hs
  obtain ⟨s₁, hasked, hrest⟩ := Transition.System.exec_cons_eq_some.mp hexec
  have hs : guestSystem.ReachableUnder GuestKeptOut s :=
    (reachable_guest.step _ guestKeptOut_asks hasked).exec guestKeptOut_goesOn hrest
  refine ⟨s, hexec, hreceived, fun e he hboard => ?_⟩
  rw [hboard]
  exact (sockets_confined hs (isTheirs_guest husers)).2 e he rfl hboard

end system

end Notebortt.SocketServer
