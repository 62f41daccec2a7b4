import Mathlib.Data.Finset.Card
import Mathlib.Logic.Function.Basic
import Notebortt.Lib.Transition
import Notebortt.Mutations.Types

/-! # The collab-mode marker of a board

    The presence of one board in Redis: its client set with a lease for each
    member, its viewer sessions by the time they were last touched, and the
    marker that defers persistence. Leases and sessions run out by themselves,
    so a connection that dies leaves its member in the set. Operations follow
    one another, and any time passes between two of them. -/

open Transition

namespace Notebortt.PresenceDomain

def CLIENT_LEASE_TTL_MS : Nat := 90 * 1000
def VIEWER_SESSION_TTL_MS : Nat := 90 * 1000
def COLLAB_MODE_COOLDOWN_MS : Nat := 90 * 1000

/-! ### State -/

/-- The keys of the board. -/
structure Keys (Client Session : Type) where
  clients : Finset Client
  /-- When the lease of a client runs out. -/
  leaseUntil : Client → Nat
  viewerSessions : Finset Session
  touchedAt : Session → Nat
  collabModeUntil : Option Nat

structure State (Client Session Call : Type) where
  now : Nat
  keys : Keys Client Session
  /-- What `getSyncWriteMode` returned to a mutation that is under way. -/
  writeMode : Call → Option BoardSyncWriteMode
  /-- Ghost: the time of each write of the marker, and the keys it was made over. -/
  written : List (Nat × Keys Client Session)

inductive Label (Client Session Call : Type) where
  | advance (ms : Nat)
  | trackClient (x : Client)
  | removeClient (x : Client)
  | touchViewerSession (v : Session)
  | removeViewerSession (v : Session)
  /-- The probe of a mutation or a batch. -/
  | getSyncWriteMode (c : Call)
  /-- What the mutation or batch does about the marker once it is applied. -/
  | rearm (c : Call)

namespace Keys

variable {Client Session : Type} (k : Keys Client Session) (now : Nat)

def MarkerUnexpired : Prop := ∃ collabUntil ∈ k.collabModeUntil, now < collabUntil

/-- The members whose lease has not run out. -/
def liveClients : Finset Client := k.clients.filter fun x => now < k.leaseUntil x

/-- ZREMRANGEBYSCORE leaves these. -/
def liveViewers : Finset Session :=
  k.viewerSessions.filter fun v => now < k.touchedAt v + VIEWER_SESSION_TTL_MS

/-- The board is in collab mode, or two are present. -/
def InCollab : Prop :=
  k.MarkerUnexpired now ∨ 2 ≤ (k.liveClients now).card ∨ 2 ≤ (k.liveViewers now).card

@[simp] theorem mem_liveClients {x : Client} :
    x ∈ k.liveClients now ↔ x ∈ k.clients ∧ now < k.leaseUntil x :=
  Finset.mem_filter

@[simp] theorem mem_liveViewers {v : Session} :
    v ∈ k.liveViewers now ↔
      v ∈ k.viewerSessions ∧ now < k.touchedAt v + VIEWER_SESSION_TTL_MS :=
  Finset.mem_filter

instance : Decidable (k.MarkerUnexpired now) := by unfold MarkerUnexpired; infer_instance

instance : Decidable (k.InCollab now) := by unfold InCollab; infer_instance

end Keys

section operations
variable {Client Session Call : Type} [DecidableEq Client] [DecidableEq Session]
  [DecidableEq Call]

/-! ### Operations -/

def extendCollabMode (s : State Client Session Call) : State Client Session Call :=
  { s with keys := { s.keys with collabModeUntil := some (s.now + COLLAB_MODE_COOLDOWN_MS) }
           written := s.written ++ [(s.now, s.keys)] }

def extendCollabModeIfNeeded (s : State Client Session Call) (participantCount : Nat) :
    State Client Session Call :=
  if 2 ≤ participantCount then extendCollabMode s else s

/-- SADD of the member and SET of its lease. -/
def addClient (k : Keys Client Session) (now : Nat) (x : Client) : Keys Client Session :=
  { k with clients := insert x k.clients
           leaseUntil := Function.update k.leaseUntil x (now + CLIENT_LEASE_TTL_MS) }

/-- The count is SCARD of the set as it stands. -/
def trackClient (s : State Client Session Call) (x : Client) : State Client Session Call :=
  let s := { s with keys := addClient s.keys s.now x }
  extendCollabModeIfNeeded s s.keys.clients.card

def removeClient (s : State Client Session Call) (x : Client) : State Client Session Call :=
  { s with keys := { s.keys with clients := s.keys.clients.erase x
                                 leaseUntil := Function.update s.keys.leaseUntil x 0 } }

def pruneStaleClients (s : State Client Session Call) : State Client Session Call :=
  { s with keys := { s.keys with clients := s.keys.liveClients s.now } }

def getClientCount (s : State Client Session Call) : Nat × State Client Session Call :=
  let s := pruneStaleClients s
  (s.keys.clients.card, s)

/-- ZREMRANGEBYSCORE of the sessions that have run out. -/
def pruneViewerSessions (s : State Client Session Call) : State Client Session Call :=
  { s with keys := { s.keys with viewerSessions := s.keys.liveViewers s.now } }

def getActiveViewerCount (s : State Client Session Call) : Nat × State Client Session Call :=
  let s := pruneViewerSessions s
  (s.keys.viewerSessions.card, s)

/-- ZADD of the session. -/
def addViewerSession (k : Keys Client Session) (now : Nat) (v : Session) : Keys Client Session :=
  { k with viewerSessions := insert v k.viewerSessions
           touchedAt := Function.update k.touchedAt v now }

def touchViewerSession (s : State Client Session Call) (v : Session) :
    State Client Session Call :=
  let s := pruneViewerSessions { s with keys := addViewerSession s.keys s.now v }
  extendCollabModeIfNeeded s s.keys.viewerSessions.card

def removeViewerSession (s : State Client Session Call) (v : Session) :
    State Client Session Call :=
  { s with keys := { s.keys with viewerSessions := s.keys.viewerSessions.erase v } }

def getSyncWriteMode (s : State Client Session Call) :
    BoardSyncWriteMode × State Client Session Call :=
  if s.keys.MarkerUnexpired s.now then (.collab, s)
  else
    let (clientCount, s) := getClientCount s
    let (viewerCount, s) := getActiveViewerCount s
    if 2 ≤ clientCount ∨ 2 ≤ viewerCount then (.collab, extendCollabMode s) else (.solo, s)

def rearmCollabModeIfActive (s : State Client Session Call) : State Client Session Call :=
  if s.keys.MarkerUnexpired s.now then extendCollabMode s
  else
    let (clientCount, s) := getClientCount s
    let (viewerCount, s) := getActiveViewerCount s
    if 2 ≤ clientCount ∨ 2 ≤ viewerCount then extendCollabMode s else s

/-- The end of `processMutation`, and of a board's part of `processBatch`. -/
def rearm (s : State Client Session Call) : BoardSyncWriteMode → State Client Session Call
  | .collab => extendCollabMode s
  | .solo => rearmCollabModeIfActive s

def step (s : State Client Session Call) :
    Label Client Session Call → Option (State Client Session Call)
  | .advance ms => some { s with now := s.now + ms }
  | .trackClient x => some (trackClient s x)
  | .removeClient x => some (removeClient s x)
  | .touchViewerSession v => some (touchViewerSession s v)
  | .removeViewerSession v => some (removeViewerSession s v)
  | .getSyncWriteMode c =>
    let (mode, s) := getSyncWriteMode s
    some { s with writeMode := Function.update s.writeMode c (some mode) }
  | .rearm c =>
    (s.writeMode c).map fun mode =>
      rearm { s with writeMode := Function.update s.writeMode c none } mode

variable (Client Session Call) in
/-- Any presence to start from, and no mutation under way. -/
def system : System (State Client Session Call) (Label Client Session Call) where
  init s := s.written = [] ∧ ∀ c, s.writeMode c = none
  step := step

end operations

section writes
variable {Client Session Call : Type}

/-! ### Writes of the marker -/

/-- Every write of the marker found the board in collab mode, or two present. -/
def Sound (s : State Client Session Call) : Prop := ∀ w ∈ s.written, w.2.InCollab w.1

/-- The condition on a step. A client that joins is not counted together with members whose leases
    have run out while every other member's has, unless the board is in collab mode for another
    reason; and a mutation whose probe returned `collab` re-arms the marker while the board still
    is. -/
def Counted (s : State Client Session Call) : Label Client Session Call → Prop
  | .trackClient x =>
    (∃ y ∈ s.keys.clients, y ≠ x) →
      (∃ y ∈ s.keys.liveClients s.now, y ≠ x) ∨ s.keys.MarkerUnexpired s.now ∨
        2 ≤ (s.keys.liveViewers s.now).card
  | .rearm c => s.writeMode c = some .collab → s.keys.InCollab s.now
  | _ => True

theorem extendCollabMode_sound {s : State Client Session Call} :
    Sound (extendCollabMode s) ↔ Sound s ∧ s.keys.InCollab s.now := by
  simp [Sound, extendCollabMode, or_imp, forall_and]

theorem extendCollabModeIfNeeded_sound {s : State Client Session Call} {n : Nat} :
    Sound (extendCollabModeIfNeeded s n) ↔ Sound s ∧ (2 ≤ n → s.keys.InCollab s.now) := by
  unfold extendCollabModeIfNeeded
  split
  · next h => simp [extendCollabMode_sound, h]
  · next h => simp [h]

/-- A prune removes nobody who is live. -/
theorem pruneStaleClients_inCollab (s : State Client Session Call) :
    (pruneStaleClients s).keys.InCollab s.now ↔ s.keys.InCollab s.now := by
  have hlive : (pruneStaleClients s).keys.liveClients s.now = s.keys.liveClients s.now := by
    ext x
    simp [pruneStaleClients]
  unfold Keys.InCollab
  rw [hlive]
  exact Iff.rfl

theorem pruneViewerSessions_inCollab (s : State Client Session Call) :
    (pruneViewerSessions s).keys.InCollab s.now ↔ s.keys.InCollab s.now := by
  have hlive : (pruneViewerSessions s).keys.liveViewers s.now = s.keys.liveViewers s.now := by
    ext v
    simp [pruneViewerSessions]
  unfold Keys.InCollab
  rw [hlive]
  exact Iff.rfl

/-- Two counted after both prunes are two who are present. -/
theorem inCollab_of_counts (s : State Client Session Call)
    (hcount : 2 ≤ (getClientCount s).1 ∨
      2 ≤ (getActiveViewerCount (getClientCount s).2).1) :
    (getActiveViewerCount (getClientCount s).2).2.keys.InCollab s.now := by
  show (pruneViewerSessions (pruneStaleClients s)).keys.InCollab (pruneStaleClients s).now
  rw [pruneViewerSessions_inCollab]
  show (pruneStaleClients s).keys.InCollab s.now
  rw [pruneStaleClients_inCollab]
  exact .inr hcount

theorem getSyncWriteMode_sound (s : State Client Session Call) :
    Sound (getSyncWriteMode s).2 ↔ Sound s := by
  unfold getSyncWriteMode
  split
  · exact Iff.rfl
  · dsimp only
    split
    · next hcount =>
      rw [extendCollabMode_sound]
      exact and_iff_left (inCollab_of_counts s hcount)
    · exact Iff.rfl

theorem rearmCollabModeIfActive_sound (s : State Client Session Call) :
    Sound (rearmCollabModeIfActive s) ↔ Sound s := by
  unfold rearmCollabModeIfActive
  split
  · next hmarker =>
    rw [extendCollabMode_sound]
    exact and_iff_left (.inl hmarker)
  · dsimp only
    split
    · next hcount =>
      rw [extendCollabMode_sound]
      exact and_iff_left (inCollab_of_counts s hcount)
    · exact Iff.rfl

/-- With the mode `collab` the marker is written unseen. -/
theorem rearm_sound (s : State Client Session Call) (mode : BoardSyncWriteMode) :
    Sound (rearm s mode) ↔ Sound s ∧ (mode = .collab → s.keys.InCollab s.now) := by
  cases mode with
  | collab => simp [rearm, extendCollabMode_sound]
  | solo => simp [rearm, rearmCollabModeIfActive_sound]

section members
variable [DecidableEq Client]

theorem two_le_card_insert_iff {x : Client} {clients : Finset Client} :
    2 ≤ (insert x clients).card ↔ ∃ y ∈ clients, y ≠ x := by
  show 1 < (insert x clients).card ↔ _
  rw [Finset.one_lt_card_iff]
  constructor
  · rintro ⟨a, b, ha, hb, hab⟩
    rw [Finset.mem_insert] at ha hb
    -- One of the two is not the client that joins.
    by_cases hax : a = x
    · have hbx : b ≠ x := fun hbx => hab (hax.trans hbx.symm)
      exact ⟨b, hb.resolve_left hbx, hbx⟩
    · exact ⟨a, ha.resolve_left hax, hax⟩
  · intro ⟨y, hy, hyx⟩
    exact ⟨y, x, Finset.mem_insert_of_mem hy, Finset.mem_insert_self x clients, hyx⟩

/-- The client that joins is live, and the others are as they were. -/
theorem addClient_liveClients (k : Keys Client Session) (now : Nat) (x : Client) :
    (addClient k now x).liveClients now = insert x (k.liveClients now) := by
  ext y
  by_cases hy : y = x
  · subst hy
    simp [addClient, CLIENT_LEASE_TTL_MS]
  · simp [addClient, hy]

/-- `trackClient` writes over a sound count exactly under its condition. -/
theorem addClient_inCollab_iff (s : State Client Session Call) (x : Client) :
    (2 ≤ (addClient s.keys s.now x).clients.card → (addClient s.keys s.now x).InCollab s.now) ↔
      Counted s (.trackClient x) := by
  have hcount : 2 ≤ (addClient s.keys s.now x).clients.card ↔ ∃ y ∈ s.keys.clients, y ≠ x :=
    two_le_card_insert_iff
  have hlive : 2 ≤ ((addClient s.keys s.now x).liveClients s.now).card ↔
      ∃ y ∈ s.keys.liveClients s.now, y ≠ x := by
    rw [addClient_liveClients]
    exact two_le_card_insert_iff
  have hcollab : (addClient s.keys s.now x).InCollab s.now ↔
      s.keys.MarkerUnexpired s.now ∨ (∃ y ∈ s.keys.liveClients s.now, y ≠ x) ∨
        2 ≤ (s.keys.liveViewers s.now).card := by
    unfold Keys.InCollab
    rw [hlive]
    exact Iff.rfl
  rw [hcount, hcollab]
  show _ ↔ (_ → _ ∨ _ ∨ _)
  exact forall_congr' fun _ => or_left_comm

theorem trackClient_sound (s : State Client Session Call) (x : Client) :
    Sound (trackClient s x) ↔ Sound s ∧ Counted s (.trackClient x) := by
  show Sound (extendCollabModeIfNeeded { s with keys := addClient s.keys s.now x } _) ↔ _
  rw [extendCollabModeIfNeeded_sound]
  exact and_congr Iff.rfl (addClient_inCollab_iff s x)

end members

/-- The sessions counted are those that the ZREMRANGEBYSCORE leaves. -/
theorem touchViewerSession_sound [DecidableEq Session] (s : State Client Session Call)
    (v : Session) :
    Sound (touchViewerSession s v) ↔ Sound s := by
  show Sound (extendCollabModeIfNeeded
    (pruneViewerSessions { s with keys := addViewerSession s.keys s.now v }) _) ↔ _
  rw [extendCollabModeIfNeeded_sound]
  -- Unlike the clients, the sessions are pruned before they are counted.
  refine and_iff_left fun hcount => ?_
  show Keys.InCollab _ ({ s with keys := addViewerSession s.keys s.now v } : State ..).now
  rw [pruneViewerSessions_inCollab]
  exact .inr (.inr hcount)

variable [DecidableEq Client] [DecidableEq Session] [DecidableEq Call]

instance (s : State Client Session Call) (l : Label Client Session Call) :
    Decidable (Counted s l) := by
  cases l <;> unfold Counted <;> infer_instance

/-- A step makes sound writes only, exactly under its condition. -/
theorem step_sound {s s' : State Client Session Call} {l : Label Client Session Call}
    (hstep : step s l = some s') : Sound s' ↔ Sound s ∧ Counted s l := by
  cases l with
  | trackClient x =>
    cases hstep
    exact trackClient_sound s x
  | touchViewerSession v =>
    cases hstep
    exact (touchViewerSession_sound s v).trans (and_iff_left trivial).symm
  | getSyncWriteMode c =>
    cases hstep
    exact (getSyncWriteMode_sound s).trans (and_iff_left trivial).symm
  | rearm c =>
    -- The mode is the one that the probe has returned.
    obtain ⟨mode, hmode, rfl⟩ := Option.map_eq_some_iff.mp hstep
    rw [rearm_sound]
    show _ ∧ _ ↔ _ ∧ (s.writeMode c = some .collab → _)
    rw [hmode, Option.some.injEq]
    exact Iff.rfl
  | advance | removeClient | removeViewerSession =>
    cases hstep
    exact (and_iff_left trivial).symm

/-- In every run the marker is written only while the board is in collab mode or two are present,
    exactly if every step of the run meets its condition. -/
theorem exec_sound_iff {s s' : State Client Session Call} {ls : List (Label Client Session Call)}
    (hinit : (system Client Session Call).init s)
    (hrun : (system Client Session Call).exec s ls = some s') :
    (∀ w ∈ s'.written, w.2.InCollab w.1) ↔
      (system Client Session Call).execUnder Counted s ls = some s' := by
  have hsound : Sound s := by
    intro w hw
    rw [hinit.1] at hw
    cases hw
  have hiff := System.exec_iff_execUnder
    (M := system Client Session Call) (fun _ _ _ hstep => step_sound hstep) hrun
  exact hiff.trans (and_iff_right hsound)

end writes

/-! ### Runs -/

/-- A board without presence. -/
def quietBoard : State String String Nat where
  now := 0
  keys :=
    { clients := ∅, leaseUntil := fun _ => 0, viewerSessions := ∅, touchedAt := fun _ => 0
      collabModeUntil := none }
  writeMode := fun _ => none
  written := []

/-- Two clients join, and a mutation re-arms the marker. -/
theorem exec_sound_two :
    ∃ s, (system String String Nat).exec quietBoard
        [.trackClient "ada:1", .advance 60000, .trackClient "bob:1", .getSyncWriteMode 0,
          .advance 1000, .rearm 0] = some s ∧
      s.written.length = 2 ∧ ∀ w ∈ s.written, w.2.InCollab w.1 := by
  obtain ⟨s, hs, hlen, hunder⟩ : ∃ s, (system String String Nat).exec quietBoard
        [.trackClient "ada:1", .advance 60000, .trackClient "bob:1", .getSyncWriteMode 0,
          .advance 1000, .rearm 0] = some s ∧
      s.written.length = 2 ∧ (system String String Nat).execUnder Counted quietBoard
        [.trackClient "ada:1", .advance 60000, .trackClient "bob:1", .getSyncWriteMode 0,
          .advance 1000, .rearm 0] = some s := ⟨_, rfl, rfl, rfl⟩
  exact ⟨s, hs, hlen, (exec_sound_iff ⟨rfl, fun _ => rfl⟩ hs).mpr hunder⟩

/-- A client reconnects after its first connection died: the member left behind is counted, and
    the marker is written for a board with one live client, whose mutations are then deferred. -/
theorem reconnect_flips_board :
    ∃ s, (system String String Nat).exec quietBoard
        [.trackClient "ada:1", .advance 100000, .trackClient "ada:2"] = some s ∧
      (∃ w ∈ s.written, ¬ w.2.InCollab w.1) ∧ s.keys.liveClients s.now = {"ada:2"} ∧
        s.keys.viewerSessions = ∅ ∧ (getSyncWriteMode s).1 = .collab :=
  ⟨_, rfl, by decide +kernel⟩

/-- A mutation whose probe came before the marker ran out writes it for the client that is left. -/
example :
    ∃ s, (system String String Nat).exec quietBoard
        [.trackClient "ada:1", .trackClient "bob:1", .removeClient "bob:1", .advance 89999,
          .getSyncWriteMode 0, .advance 1, .rearm 0] = some s ∧
      ∃ w ∈ s.written, ¬ w.2.InCollab w.1 :=
  ⟨_, rfl, by decide +kernel⟩

end Notebortt.PresenceDomain
