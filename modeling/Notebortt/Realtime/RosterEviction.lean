import Mathlib.Data.Fintype.Basic
import Mathlib.Logic.Function.Basic
import Notebortt.Lib.Transition
import Notebortt.Realtime.ParticipantsStore

/-! # The roster of a board against the eviction of idle boards

    The participants store, the client leases and viewer sessions, and the runs
    of `cleanupInactiveBoards`, on one board and against one clock. A caller
    reads the clock before its command runs, so a command carries its reading.
    Sockets come and go, touch their entries and prune expired ones at any time. -/

open Transition

namespace Notebortt.RosterEviction

def VIEWER_SESSION_TTL_MS : Nat := 90000

def CLIENT_LEASE_TTL_MS : Nat := 90000

/-- The options of the store and of the cleanup. -/
structure Options where
  ttlMs : Nat := DEFAULT_PARTICIPANT_TTL_MS
  roomCap : Nat := 50
  idleTtlMs : Nat := 180000

/-! ### State -/

/-- Where a `pruneExpired` call is. -/
inductive Pruning where
  | idle
  /-- The expired entries are read. -/
  | read (expired : List String)
  /-- They are out of the hash, and not yet out of the sorted set. -/
  | deleted (expired : List String)

/-- The entries a pruning is about to delete. -/
def Pruning.expired : Pruning → List String
  | .idle => []
  | .read expired => expired
  | .deleted expired => expired

/-- Who calls `flushBoard`: `persistBoard` for a board without a row, and the cleanup, which
    requires the board to be idle. -/
inductive FlushCaller where
  | persistBoard
  | cleanup

inductive FlushPoint where
  | locking
  /-- `isBoardIdleForFlush`: before its ZREMRANGEBYSCORE, and after it. -/
  | trimming
  | counting
  | scanning (found : KeyName → Bool)
  | deleted

/-- Where the run of `cleanupInactiveBoards` is. -/
inductive CleanupRun where
  | idle
  /-- The board was inactive. -/
  | candidate
  /-- `pruneStaleClients` has read the members without a lease. -/
  | leasesRead (stale : List String)
  | leasesPruned
  /-- Nobody was present. -/
  | probed
  | flushing (caller : FlushCaller) (point : FlushPoint)

structure State (Participant ρ : Type) where
  now : Nat
  store : ParticipantsStore Participant
  /-- The client set, and until when each lease lasts. -/
  clients : List String
  leases : Dict Nat
  viewerSessions : Dict Nat
  lastActive : Option Nat
  evictionLock : Bool
  /-- The `pruneExpired` calls under way. -/
  pruning : ρ → Pruning
  cleanup : CleanupRun
  /-- Ghost: when the entry of a socket was last touched, as long as the socket was admitted, has
      not been removed, and has never gone without a touch for the TTL. -/
  touched : String → Option Nat

/-! ### Steps -/

inductive Label (Participant ρ : Type) where
  | advance (now : Nat)
  | admitParticipant (socketId : String) (participant : Participant) (readAt : Nat)
  | touchParticipant (socketId : String) (readAt : Nat)
  | removeParticipant (socketId : String)
  /-- A read of the roster prunes it first. -/
  | pruneRead (r : ρ) (readAt : Nat)
  | pruneHdel (r : ρ)
  | pruneZrem (r : ρ)
  | trackClient (member : String)
  | removeClient (member : String)
  | touchViewerSession (sessionId : String) (readAt : Nat)
  | removeViewerSession (sessionId : String)
  /-- GET of `last_active`, or without one OBJECT IDLETIME of `seq`. -/
  | probeInactive (readAt : Nat) (seqIdle : Bool)
  | readLeases
  | pruneLeases
  | probePresence (readAt : Nat)
  | persistBoard (missingBoard : Bool)
  | persistBoardFails
  | lockEviction
  | trimViewerSessions (readAt : Nat)
  | checkIdle
  | scanPage (page : KeyName → Bool)
  | del
  /-- The index removals, and the release of the eviction lock. -/
  | finish
  | evictionLockExpires

section system
variable {Participant ρ : Type} [DecidableEq ρ]

/-- A socket that goes without a touch for the TTL is not kept any longer. -/
def lapse (o : Options) (now : Nat) (touched : String → Option Nat) : String → Option Nat :=
  fun socketId => (touched socketId).filter fun t => now < t + o.ttlMs

/-- ZREMRANGEBYSCORE from 0 to the TTL before `readAt`. -/
def trimViewers (readAt : Nat) (viewerSessions : Dict Nat) : Dict Nat :=
  Dict.eraseAll viewerSessions
    ((viewerSessions.entries.filter fun e => e.2 + VIEWER_SESSION_TTL_MS ≤ readAt).map (·.1))

/-- The members of the client set whose lease has expired. -/
def State.staleClients (s : State Participant ρ) : List String :=
  s.clients.filter fun member => (s.leases.lookup member).all fun expiresAt => expiresAt ≤ s.now

def State.setPruning (s : State Participant ρ) (r : ρ) (p : Pruning) : State Participant ρ :=
  { s with pruning := Function.update s.pruning r p }

/-- What follows a `flushBoard`. -/
def FlushCaller.next : FlushCaller → CleanupRun
  | .persistBoard => .flushing .cleanup .locking
  | .cleanup => .idle

/-- DEL of the keys found. -/
def State.del (s : State Participant ρ) (found : KeyName → Bool) : State Participant ρ :=
  { s with
    store :=
      { participants := if found .participants then ∅ else s.store.participants
        expiry := if found .participantsExpiry then ∅ else s.store.expiry }
    clients := if found .clients then [] else s.clients
    leases :=
      Dict.eraseAll s.leases (s.leases.keys.filter fun member => found (.clientLease member))
    viewerSessions := if found .viewerSessions then ∅ else s.viewerSessions
    lastActive := if found .lastActive then none else s.lastActive
    evictionLock := s.evictionLock && !found .evictionLock }

def step (o : Options) (s : State Participant ρ) :
    Label Participant ρ → Option (State Participant ρ)
  | .advance now =>
    if s.now ≤ now then some { s with now := now, touched := lapse o now s.touched } else none
  | .admitParticipant socketId participant readAt =>
    if readAt ≤ s.now then
      match s.store.admitParticipant socketId participant (readAt + o.ttlMs) o.roomCap with
      | (true, store) =>
        some { s with
          store := store
          touched := lapse o s.now (Function.update s.touched socketId (some readAt)) }
      | (false, store) => some { s with store := store }
    else none
  | .touchParticipant socketId readAt =>
    if readAt ≤ s.now then
      some { s with
        store := s.store.touchParticipant socketId (readAt + o.ttlMs)
        touched := Function.update s.touched socketId ((s.touched socketId).map (max readAt)) }
    else none
  | .removeParticipant socketId =>
    some { s with
      store := (s.store.removeParticipant socketId).2
      touched := Function.update s.touched socketId none }
  | .pruneRead r readAt =>
    match s.pruning r with
    | .idle =>
      if readAt ≤ s.now then
        let expired := s.store.expired readAt
        some (if expired.isEmpty then s else s.setPruning r (.read expired))
      else none
    | _ => none
  | .pruneHdel r =>
    match s.pruning r with
    | .read expired =>
      some ({ s with store := s.store.hdel expired }.setPruning r (.deleted expired))
    | _ => none
  | .pruneZrem r =>
    match s.pruning r with
    | .deleted expired => some ({ s with store := s.store.zrem expired }.setPruning r .idle)
    | _ => none
  | .trackClient member =>
    some { s with
      clients := s.clients.insert member
      leases := s.leases.insert member (s.now + CLIENT_LEASE_TTL_MS) }
  | .removeClient member =>
    some { s with clients := s.clients.filter (· ≠ member), leases := s.leases.erase member }
  | .touchViewerSession sessionId readAt =>
    if readAt ≤ s.now then
      some { s with
        viewerSessions := trimViewers readAt (s.viewerSessions.insert sessionId readAt)
        lastActive := some readAt }
    else none
  | .removeViewerSession sessionId =>
    some { s with viewerSessions := s.viewerSessions.erase sessionId }
  | .probeInactive readAt seqIdle =>
    match s.cleanup with
    | .idle =>
      let inactive := match s.lastActive with
        | some lastActive => decide (o.idleTtlMs ≤ readAt - lastActive)
        | none => seqIdle
      if readAt ≤ s.now && inactive then some { s with cleanup := .candidate } else none
    | _ => none
  | .readLeases =>
    match s.cleanup with
    | .candidate => some { s with cleanup := .leasesRead s.staleClients }
    | _ => none
  | .pruneLeases =>
    match s.cleanup with
    | .leasesRead stale =>
      some { s with clients := s.clients.filter (· ∉ stale), cleanup := .leasesPruned }
    | _ => none
  | .probePresence readAt =>
    match s.cleanup with
    | .leasesPruned =>
      if readAt ≤ s.now then
        let viewerSessions := trimViewers readAt s.viewerSessions
        let absent := s.clients.isEmpty && viewerSessions.keys.isEmpty
        some { s with viewerSessions := viewerSessions,
                      cleanup := if absent then .probed else .idle }
      else none
    | _ => none
  | .persistBoard missingBoard =>
    match s.cleanup with
    | .probed =>
      some { s with
        cleanup := .flushing (if missingBoard then .persistBoard else .cleanup) .locking }
    | _ => none
  | .persistBoardFails =>
    match s.cleanup with
    | .probed => some { s with cleanup := .idle }
    | _ => none
  | .lockEviction =>
    match s.cleanup with
    | .flushing caller .locking =>
      if s.evictionLock then some { s with cleanup := caller.next }
      else
        let point := match caller with
          | .cleanup => .trimming
          | .persistBoard => .scanning fun _ => false
        some { s with cleanup := .flushing caller point, evictionLock := true }
    | _ => none
  | .trimViewerSessions readAt =>
    match s.cleanup with
    | .flushing caller .trimming =>
      if readAt ≤ s.now then
        some { s with
          viewerSessions := trimViewers readAt s.viewerSessions
          cleanup := .flushing caller .counting }
      else none
    | _ => none
  | .checkIdle =>
    match s.cleanup with
    | .flushing caller .counting =>
      if s.clients.isEmpty && s.viewerSessions.keys.isEmpty then
        some { s with cleanup := .flushing caller (.scanning fun _ => false) }
      else some { s with cleanup := caller.next, evictionLock := false }
    | _ => none
  | .scanPage page =>
    match s.cleanup with
    | .flushing caller (.scanning found) =>
      some { s with cleanup := .flushing caller (.scanning fun name => found name || page name) }
    | _ => none
  | .del =>
    match s.cleanup with
    | .flushing caller (.scanning found) =>
      some { s.del found with cleanup := .flushing caller .deleted }
    | _ => none
  | .finish =>
    match s.cleanup with
    | .flushing caller .deleted => some { s with cleanup := caller.next, evictionLock := false }
    | _ => none
  | .evictionLockExpires => some { s with evictionLock := false }

/-- Nobody has joined the board yet. -/
structure Init (s : State Participant ρ) : Prop where
  pruning : ∀ r, s.pruning r = .idle
  touched : ∀ socketId, s.touched socketId = none

def system (Participant ρ : Type) [DecidableEq ρ] (o : Options) :
    System (State Participant ρ) (Label Participant ρ) where
  init := Init
  step := step o

/-! ### The condition -/

/-- The eviction deletes the keys of the roster only when it has no socket that is kept alive, and
    no socket is admitted under an id that a pruning has read as expired. -/
def RosterSpared (s : State Participant ρ) : Label Participant ρ → Prop
  | .admitParticipant socketId _ _ => ∀ r, socketId ∉ (s.pruning r).expired
  | .del =>
    match s.cleanup with
    | .flushing _ (.scanning found) =>
      found .participants = true ∨ found .participantsExpiry = true →
        ∀ socketId ∈ s.store.participants.keys, s.touched socketId = none
    | _ => True
  | _ => True

instance [Fintype ρ] (s : State Participant ρ) (l : Label Participant ρ) :
    Decidable (RosterSpared s l) := by
  unfold RosterSpared
  split
  · infer_instance
  · split <;> infer_instance
  · infer_instance

end system

/-! ### The invariant -/

section invariant
variable {Participant ρ : Type}

/-- Every socket that is kept alive has its entry, good for the TTL from its last touch, and no
    pruning is about to delete it. -/
structure Inv (o : Options) (s : State Participant ρ) : Prop where
  alive : ∀ socketId t, s.touched socketId = some t → s.now < t + o.ttlMs
  held : ∀ socketId t, s.touched socketId = some t → s.store.Holds socketId (t + o.ttlMs)
  unpruned : ∀ r, ∀ socketId ∈ (s.pruning r).expired, s.touched socketId = none

variable {o : Options} {s s' : State Participant ρ}

theorem lapse_eq_some {now t : Nat} {touched : String → Option Nat} {socketId : String} :
    lapse o now touched socketId = some t ↔
      touched socketId = some t ∧ now < t + o.ttlMs := by
  simp [lapse, Option.filter_eq_some_iff]

theorem lapse_eq_none {now : Nat} {touched : String → Option Nat} {socketId : String}
    (h : touched socketId = none) : lapse o now touched socketId = none := by
  simp [lapse, h]

/-- A step that leaves the clock, the store, the prunings and the touches. -/
theorem Inv.frame (h : Inv o s) (hnow : s'.now = s.now) (hstore : s'.store = s.store)
    (hpruning : s'.pruning = s.pruning) (htouched : s'.touched = s.touched) : Inv o s' := by
  constructor
  · rw [hnow, htouched]
    exact h.alive
  · rw [hstore, htouched]
    exact h.held
  · rw [hpruning, htouched]
    exact h.unpruned

theorem inv_init (h : Init s) : Inv o s where
  alive socketId t ht := by rw [h.touched] at ht; cases ht
  held socketId t ht := by rw [h.touched] at ht; cases ht
  unpruned r socketId hmem := by rw [h.pruning r] at hmem; cases hmem

theorem inv_advance {now : Nat} (h : Inv o s) :
    Inv o { s with now := now, touched := lapse o now s.touched } where
  alive _ _ ht := (lapse_eq_some.mp ht).2
  held socketId t ht := h.held socketId t (lapse_eq_some.mp ht).1
  unpruned r socketId hmem := lapse_eq_none (h.unpruned r socketId hmem)

/-- An admission makes the entry of its socket good from the clock reading on. -/
theorem inv_admit {socketId : String} {readAt : Nat} (h : Inv o s) (participant : Participant)
    (hspared : ∀ r, socketId ∉ (s.pruning r).expired) :
    Inv o { s with
      store := s.store.put socketId participant (readAt + o.ttlMs)
      touched := lapse o s.now (Function.update s.touched socketId (some readAt)) } where
  alive _ _ ht := (lapse_eq_some.mp ht).2
  held other t ht := by
    obtain ⟨htouched, -⟩ := lapse_eq_some.mp ht
    by_cases hid : other = socketId
    · subst hid
      rw [Function.update_self] at htouched
      obtain rfl := Option.some.inj htouched
      exact ParticipantsStore.holds_put_self _ _ _
    · rw [Function.update_of_ne hid] at htouched
      exact (h.held other t htouched).put_ne hid _ _
  unpruned r other hmem := by
    have hid : other ≠ socketId := fun heq => hspared r (heq ▸ hmem)
    apply lapse_eq_none
    rw [Function.update_of_ne hid]
    exact h.unpruned r other hmem

theorem inv_touch {socketId : String} {readAt : Nat} (h : Inv o s) :
    Inv o { s with
      store := s.store.touchParticipant socketId (readAt + o.ttlMs)
      touched := Function.update s.touched socketId ((s.touched socketId).map (max readAt)) } := by
  have htouched : ∀ other t,
      Function.update s.touched socketId ((s.touched socketId).map (max readAt)) other = some t →
      ∃ t₀, s.touched other = some t₀ ∧ t = if other = socketId then max readAt t₀ else t₀ := by
    intro other t ht
    by_cases hid : other = socketId
    · subst hid
      rw [Function.update_self, Option.map_eq_some_iff] at ht
      obtain ⟨t₀, ht₀, rfl⟩ := ht
      exact ⟨t₀, ht₀, by rw [if_pos rfl]⟩
    · rw [Function.update_of_ne hid] at ht
      exact ⟨t, ht, by rw [if_neg hid]⟩
  constructor
  · intro other t ht
    obtain ⟨t₀, ht₀, rfl⟩ := htouched other t ht
    have halive := h.alive other t₀ ht₀
    show s.now < _
    split <;> omega
  · intro other t ht
    obtain ⟨t₀, ht₀, rfl⟩ := htouched other t ht
    have hheld := (h.held other t₀ ht₀).touch socketId (readAt + o.ttlMs)
    by_cases hid : other = socketId
    · rw [if_pos hid] at hheld ⊢
      rwa [← Nat.add_max_add_right]
    · rwa [if_neg hid] at hheld ⊢
  · intro r other hmem
    have hnone := h.unpruned r other hmem
    show Function.update s.touched socketId _ other = none
    by_cases hid : other = socketId
    · subst hid
      rw [Function.update_self, hnone]
      rfl
    · rw [Function.update_of_ne hid, hnone]

theorem inv_remove {socketId : String} (h : Inv o s) :
    Inv o { s with
      store := (s.store.removeParticipant socketId).2
      touched := Function.update s.touched socketId none } := by
  have htouched : ∀ other t, Function.update s.touched socketId none other = some t →
      other ≠ socketId ∧ s.touched other = some t := by
    intro other t ht
    by_cases hid : other = socketId
    · subst hid
      rw [Function.update_self] at ht
      cases ht
    · rw [Function.update_of_ne hid] at ht
      exact ⟨hid, ht⟩
  constructor
  · intro other t ht
    exact h.alive other t (htouched other t ht).2
  · intro other t ht
    obtain ⟨hid, hold⟩ := htouched other t ht
    exact (h.held other t hold).remove hid
  · intro r other hmem
    show Function.update s.touched socketId none other = none
    by_cases hid : other = socketId
    · subst hid
      exact Function.update_self _ _ _
    · rw [Function.update_of_ne hid]
      exact h.unpruned r other hmem

/-- The DEL of an eviction that spares the roster. -/
theorem inv_del {found : KeyName → Bool} {run : CleanupRun} (h : Inv o s)
    (hspared : found .participants = true ∨ found .participantsExpiry = true →
      ∀ socketId ∈ s.store.participants.keys, s.touched socketId = none) :
    Inv o { s.del found with cleanup := run } where
  alive := h.alive
  unpruned := h.unpruned
  held socketId t ht := by
    have hheld := h.held socketId t ht
    by_cases hfound : found .participants = true ∨ found .participantsExpiry = true
    · have hnone := hspared hfound socketId (AList.mem_keys.mp hheld.participants)
      rw [show s.touched socketId = some t from ht] at hnone
      cases hnone
    · simp only [not_or, Bool.not_eq_true] at hfound
      constructor
      · simpa [State.del, hfound.1] using hheld.participants
      · simpa [State.del, hfound.2] using hheld.expiry

section pruning
variable [DecidableEq ρ]

/-- No entry that is kept alive is read as expired. -/
theorem inv_pruneRead {r : ρ} {readAt : Nat} (h : Inv o s) (hread : readAt ≤ s.now) :
    Inv o (s.setPruning r (.read (s.store.expired readAt))) where
  alive := h.alive
  held := h.held
  unpruned r' socketId hmem := by
    show s.touched socketId = none
    by_cases hr : r' = r
    · subst hr
      simp only [State.setPruning, Function.update_self, Pruning.expired] at hmem
      cases htouched : s.touched socketId with
      | none => rfl
      | some t =>
        -- the clock reading is no later than now, when the entry is still good
        have hnow := h.alive socketId t htouched
        exact absurd hmem ((h.held socketId t htouched).not_mem_expired (by omega))
    · simp only [State.setPruning, Function.update_of_ne hr] at hmem
      exact h.unpruned r' socketId hmem

/-- What a pruning does after its read misses the entries that are kept alive. -/
theorem inv_prune {r : ρ} {p : Pruning} {store : ParticipantsStore Participant} (h : Inv o s)
    (hexpired : p.expired ⊆ (s.pruning r).expired)
    (hstore : ∀ socketId goodUntil, socketId ∉ (s.pruning r).expired →
      s.store.Holds socketId goodUntil → store.Holds socketId goodUntil) :
    Inv o ({ s with store := store }.setPruning r p) where
  alive := h.alive
  held socketId t ht := by
    refine hstore socketId _ (fun hmem => ?_) (h.held socketId t ht)
    have hnone := h.unpruned r socketId hmem
    rw [show s.touched socketId = some t from ht] at hnone
    cases hnone
  unpruned r' socketId hmem := by
    show s.touched socketId = none
    by_cases hr : r' = r
    · subst hr
      simp only [State.setPruning, Function.update_self] at hmem
      exact h.unpruned r' socketId (hexpired hmem)
    · simp only [State.setPruning, Function.update_of_ne hr] at hmem
      exact h.unpruned r' socketId hmem

end pruning

theorem inv_step [DecidableEq ρ] {l : Label Participant ρ} (h : Inv o s)
    (hspared : RosterSpared s l) (hstep : step o s l = some s') : Inv o s' := by
  cases l with
  | advance now =>
    simp only [step] at hstep
    split at hstep
    · obtain rfl := Option.some.inj hstep
      exact inv_advance h
    · cases hstep
  | admitParticipant socketId participant readAt =>
    simp only [step] at hstep
    split at hstep
    · rcases s.store.admitParticipant_cases socketId participant (readAt + o.ttlMs) o.roomCap with
        hcond | hcond
      · rw [hcond] at hstep
        obtain rfl := Option.some.inj hstep
        exact inv_admit h participant hspared
      · rw [hcond] at hstep
        obtain rfl := Option.some.inj hstep
        exact h
    · cases hstep
  | touchParticipant socketId readAt =>
    simp only [step] at hstep
    split at hstep
    · obtain rfl := Option.some.inj hstep
      exact inv_touch h
    · cases hstep
  | removeParticipant socketId =>
    obtain rfl := Option.some.inj hstep
    exact inv_remove h
  | pruneRead r readAt =>
    simp only [step] at hstep
    split at hstep
    · split at hstep
      · next hread =>
        obtain rfl := Option.some.inj hstep
        split
        · exact h
        · exact inv_pruneRead h hread
      · cases hstep
    · cases hstep
  | pruneHdel r =>
    simp only [step] at hstep
    split at hstep
    · next expired hpruning =>
      obtain rfl := Option.some.inj hstep
      refine inv_prune h (by rw [hpruning]; exact fun _ hmem => hmem) ?_
      intro socketId goodUntil hnot hheld
      rw [hpruning] at hnot
      exact hheld.hdel hnot
    · cases hstep
  | pruneZrem r =>
    simp only [step] at hstep
    split at hstep
    · next expired hpruning =>
      obtain rfl := Option.some.inj hstep
      refine inv_prune h (List.nil_subset _) ?_
      intro socketId goodUntil hnot hheld
      rw [hpruning] at hnot
      exact hheld.zrem hnot
    · cases hstep
  | del =>
    simp only [step] at hstep
    split at hstep
    · next caller found hcleanup =>
      obtain rfl := Option.some.inj hstep
      simp only [RosterSpared, hcleanup] at hspared
      exact inv_del h hspared
    · cases hstep
  | _ =>
    -- the other commands leave the roster alone
    simp only [step] at hstep
    exact h.frame (by grind) (by grind) (by grind) (by grind)

/-- A socket that was admitted, has not been removed and is touched in time is in the hash, in every
    run whose evictions and admissions spare the roster. -/
theorem roster_kept_of_spared [DecidableEq ρ]
    (h : (system Participant ρ o).ReachableUnder RosterSpared s) :
    ∀ socketId, (s.touched socketId).isSome → socketId ∈ s.store.participants := by
  have hinv : Inv o s := h.invariant (fun _ => inv_init) (fun _ _ _ => inv_step)
  intro socketId htouched
  obtain ⟨t, ht⟩ := Option.isSome_iff_exists.mp htouched
  exact (hinv.held socketId t ht).participants

end invariant

/-! ### A socket that stays silent -/

/-- A board that nobody has joined. -/
def empty : State Unit Unit where
  now := 0
  store := ⟨∅, ∅⟩
  clients := []
  leases := ∅
  viewerSessions := ∅
  lastActive := none
  evictionLock := false
  pruning := fun _ => .idle
  cleanup := .idle
  touched := fun _ => none

theorem empty_init : Init empty := ⟨fun _ => rfl, fun _ => rfl⟩

/-- The socket joins, and its heartbeat touches its entry every 30 seconds for three minutes. -/
def joinAndBeat : List (Label Unit Unit) :=
  [.trackClient "u:s", .touchViewerSession "tab" 0, .admitParticipant "s" () 0] ++
    [30000, 60000, 90000, 120000, 150000, 180000].flatMap fun t =>
      [.advance t, .touchParticipant "s" t]

/-- A cleanup that finds the board inactive and nobody present. -/
def cleanup : List (Label Unit Unit) :=
  [.probeInactive 180000 false, .readLeases, .pruneLeases, .probePresence 180000,
    .persistBoard false, .lockEviction, .trimViewerSessions 180000, .checkIdle,
    .scanPage fun _ => true, .del, .finish]

/-- After three minutes of silence, and a read of the roster, the socket is in the hash. -/
theorem silent_socket_kept :
    ∃ s : State Unit Unit, s.touched "s" = some 180000 ∧ "s" ∈ s.store.participants := by
  obtain ⟨s, hs⟩ : ∃ s, (system Unit Unit {}).execUnder RosterSpared empty
      (joinAndBeat ++ [.pruneRead () 180000]) = some s := ⟨_, rfl⟩
  have htouched : s.touched "s" = some 180000 := by
    cases hs
    rfl
  refine ⟨s, htouched, roster_kept_of_spared (.execUnder (.init empty_init) hs) "s" ?_⟩
  rw [htouched]
  rfl

/-- The cleanup then takes it out of the hash, and the next heartbeat does not bring it back. -/
theorem cleanup_drops_silent_socket :
    ∃ s : State Unit Unit, (system Unit Unit {}).Reachable s ∧
      ¬ ∀ socketId, (s.touched socketId).isSome → socketId ∈ s.store.participants := by
  obtain ⟨s, hs⟩ : ∃ s, (system Unit Unit {}).exec empty
      (joinAndBeat ++ cleanup ++ [.advance 210000, .touchParticipant "s" 210000]) = some s :=
    ⟨_, rfl⟩
  refine ⟨s, .exec (.init empty_init) hs, fun hkept => ?_⟩
  have hmem : "s" ∈ s.store.participants := by
    apply hkept
    cases hs
    rfl
  have hnot : "s" ∉ s.store.participants := by
    cases hs
    decide
  exact hnot hmem

end Notebortt.RosterEviction
