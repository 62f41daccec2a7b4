import Mathlib.Logic.Function.Basic
import Notebortt.Lib.Transition
import Notebortt.Realtime.ParticipantsStore

/-! # Admissions to a board's room

    The two keys of one board under the commands of any number of replicas.
    `admitParticipant` and `removeParticipant` are scripts and `touchParticipant`
    a single command, so each is one step. A read prunes first: it gets the
    expired sockets in one step, deletes them in a pipeline of its own, whatever
    happened meanwhile, and then reads the hash. -/

open Transition

namespace Notebortt.Admissions

/-! ### State -/

/-- What `admitParticipant` stores; the number is ghost, and counts the admissions. -/
structure Admission (Participant : Type) where
  number : Nat
  participant : Participant

/-- Where a read of the roster is. -/
inductive RosterRead where
  | idle
  /-- The pipeline that deletes these is on its way. -/
  | pruning (expired : List String)
  | pruned

/-- What `getAdmissionState` returns. -/
structure AdmissionState where
  isMember : Bool
  size : Nat
deriving DecidableEq

structure State (Participant ρ : Type) where
  store : ParticipantsStore (Admission Participant)
  reads : ρ → RosterRead
  /-- Ghost: every admission in order, with its socket. -/
  admissions : List (String × Participant)
  /-- Ghost: what the calls of `removeParticipant` returned, a `null` left out. -/
  returned : List (Admission Participant)
  /-- Ghost: what the calls of `getAdmissionState` returned. -/
  answered : List AdmissionState

inductive Label (Participant ρ : Type) where
  | admitParticipant (socketId : String) (participant : Participant) (expiresAt : Nat)
  | touchParticipant (socketId : String) (expiresAt : Nat)
  | removeParticipant (socketId : String)
  /-- ZRANGEBYSCORE of `pruneExpired`, with its reading of the clock. -/
  | readExpired (r : ρ) (now : Nat)
  /-- The HDEL and ZREM of `pruneExpired`. -/
  | prune (r : ρ)
  /-- The HEXISTS and HLEN of `getAdmissionState`. -/
  | readHash (r : ρ) (socketId : String)

section system
variable {Participant ρ : Type} [DecidableEq ρ]

/-! ### Steps -/

/-- Nothing to prune sends no pipeline. -/
def RosterRead.afterExpired (expired : List String) : RosterRead :=
  if expired.isEmpty then .pruned else .pruning expired

def admissionState (store : ParticipantsStore (Admission Participant)) (socketId : String) :
    AdmissionState where
  isMember := decide (socketId ∈ store.participants)
  size := store.participants.keys.length

def step (roomCap : Nat) (s : State Participant ρ) :
    Label Participant ρ → Option (State Participant ρ)
  | .admitParticipant socketId participant expiresAt =>
    let admission : Admission Participant := ⟨s.admissions.length, participant⟩
    match s.store.admitParticipant socketId admission expiresAt roomCap with
    | (true, store) =>
      some { s with store := store, admissions := s.admissions ++ [(socketId, participant)] }
    | (false, store) => some { s with store := store }
  | .touchParticipant socketId expiresAt =>
    some { s with store := s.store.touchParticipant socketId expiresAt }
  | .removeParticipant socketId =>
    let (removed, store) := s.store.removeParticipant socketId
    some { s with store := store, returned := s.returned ++ removed.toList }
  | .readExpired r now =>
    match s.reads r with
    | .idle =>
      some { s with reads := Function.update s.reads r (.afterExpired (s.store.expired now)) }
    | _ => none
  | .prune r =>
    match s.reads r with
    | .pruning expired =>
      some { s with
        store := (s.store.hdel expired).zrem expired
        reads := Function.update s.reads r .pruned }
    | _ => none
  | .readHash r socketId =>
    match s.reads r with
    | .pruned =>
      some { s with
        reads := Function.update s.reads r .idle
        answered := s.answered ++ [admissionState s.store socketId] }
    | _ => none

/-- Nobody has been admitted yet. -/
structure Init (s : State Participant ρ) : Prop where
  participants : s.store.participants = ∅
  reads : ∀ r, s.reads r = .idle
  admissions : s.admissions = []
  returned : s.returned = []
  answered : s.answered = []

variable (Participant ρ) in
def system (roomCap : Nat) : System (State Participant ρ) (Label Participant ρ) where
  init := Init
  step := step roomCap

end system

/-! ### The two keys -/

/-- The hash is not over the cap, and its entries have an expiry. -/
structure StoreInv {Stored : Type} (roomCap : Nat) (store : ParticipantsStore Stored) : Prop where
  size : store.participants.keys.length ≤ roomCap
  expiry : ∀ socketId ∈ store.participants, socketId ∈ store.expiry

section store
variable {Stored : Type} {roomCap : Nat} {store : ParticipantsStore Stored}

/-- An admission takes a free slot, or the one its socket has. -/
theorem StoreInv.admission (h : StoreInv roomCap store) (socketId : String) (stored : Stored)
    (expiresAt : Nat) :
    StoreInv roomCap (store.admitParticipant socketId stored expiresAt roomCap).2 := by
  have hput : (store.put socketId stored expiresAt).participants.keys.length ≤ roomCap →
      StoreInv roomCap (store.put socketId stored expiresAt) := fun hsize =>
    { size := hsize
      expiry := by
        intro other hother
        rcases AList.mem_insert _ |>.mp hother with rfl | hother
        · exact (AList.mem_insert _).mpr (.inl rfl)
        · exact (AList.mem_insert _).mpr (.inr (h.expiry other hother)) }
  -- A socket that is in the hash already takes no further slot.
  have hlength := Dict.length_keys_insert store.participants socketId stored
  unfold ParticipantsStore.admitParticipant
  split
  · next hmem =>
    rw [if_pos hmem] at hlength
    exact hput (hlength.trans_le h.size)
  · next hmem =>
    rw [if_neg hmem] at hlength
    split
    · exact h
    · next hfree =>
      exact hput (hlength.trans_le (by omega))

theorem StoreInv.touch (h : StoreInv roomCap store) (socketId : String) (expiresAt : Nat) :
    StoreInv roomCap (store.touchParticipant socketId expiresAt) := by
  have hadd : StoreInv roomCap
      { store with expiry := store.expiry.insert socketId expiresAt } :=
    { size := h.size
      expiry := fun other hother => (AList.mem_insert _).mpr (.inr (h.expiry other hother)) }
  unfold ParticipantsStore.touchParticipant
  split
  · split
    · exact hadd
    · exact h
  · exact hadd

theorem StoreInv.remove (h : StoreInv roomCap store) (socketId : String) :
    StoreInv roomCap (store.removeParticipant socketId).2 := by
  unfold ParticipantsStore.removeParticipant
  split
  · exact h
  · exact
      { size := (Dict.length_keys_erase_le _ _).trans h.size
        expiry := by
          intro other hother
          obtain ⟨hne, hother⟩ := AList.mem_erase.mp hother
          exact AList.mem_erase.mpr ⟨hne, h.expiry other hother⟩ }

/-- However old the list is, the pipeline takes both entries of a socket. -/
theorem StoreInv.prune (h : StoreInv roomCap store) (expired : List String) :
    StoreInv roomCap ((store.hdel expired).zrem expired) where
  size := (Dict.length_keys_eraseAll_le _ _).trans h.size
  expiry := by
    intro other hother
    obtain ⟨hother, hnot⟩ := (Dict.mem_eraseAll _ _ _).mp hother
    exact (Dict.mem_eraseAll _ _ _).mpr ⟨h.expiry other hother, hnot⟩

end store

/-! ### Who is returned -/

section invariant
variable {Participant ρ : Type} {roomCap : Nat} {s s' : State Participant ρ}

/-- The entry of a socket is an admission of that socket, which no removal has returned. -/
structure Inv (roomCap : Nat) (s : State Participant ρ) : Prop where
  store : StoreInv roomCap s.store
  recorded : ∀ socketId admission, s.store.participants.lookup socketId = some admission →
    s.admissions[admission.number]? = some (socketId, admission.participant)
  unreturned : ∀ socketId admission, s.store.participants.lookup socketId = some admission →
    admission.number ∉ s.returned.map (·.number)
  returned : ∀ admission ∈ s.returned, admission.number < s.admissions.length
  once : (s.returned.map (·.number)).Nodup
  answered : ∀ answer ∈ s.answered, answer.size ≤ roomCap

/-- A step that adds no entry, and leaves what was admitted and returned. -/
theorem Inv.shrink (h : Inv roomCap s) (hstore : StoreInv roomCap s'.store)
    (hsub : ∀ socketId admission, s'.store.participants.lookup socketId = some admission →
      s.store.participants.lookup socketId = some admission)
    (hadmissions : s'.admissions = s.admissions) (hreturned : s'.returned = s.returned)
    (hanswered : ∀ answer ∈ s'.answered, answer.size ≤ roomCap) : Inv roomCap s' where
  store := hstore
  recorded socketId admission hlookup := by
    rw [hadmissions]
    exact h.recorded _ _ (hsub _ _ hlookup)
  unreturned socketId admission hlookup := by
    rw [hreturned]
    exact h.unreturned _ _ (hsub _ _ hlookup)
  returned := by
    rw [hadmissions, hreturned]
    exact h.returned
  once := by
    rw [hreturned]
    exact h.once
  answered := hanswered

/-- The number of an admission is new, so nothing has returned it. -/
theorem Inv.put (h : Inv roomCap s) {socketId : String} {participant : Participant}
    {expiresAt : Nat}
    (hstore : StoreInv roomCap
      (s.store.put socketId ⟨s.admissions.length, participant⟩ expiresAt)) :
    Inv roomCap { s with
      store := s.store.put socketId ⟨s.admissions.length, participant⟩ expiresAt
      admissions := s.admissions ++ [(socketId, participant)] } where
  store := hstore
  recorded other admission hlookup := by
    have hlookup := (s.store.lookup_put socketId other _ expiresAt).symm.trans hlookup
    split at hlookup
    · next hid =>
      obtain rfl := Option.some.inj hlookup
      simp [hid]
    · have hold := h.recorded other admission hlookup
      rw [List.getElem?_append_left (List.getElem?_eq_some_iff.mp hold).1]
      exact hold
  unreturned other admission hlookup := by
    have hlookup := (s.store.lookup_put socketId other _ expiresAt).symm.trans hlookup
    split at hlookup
    · obtain rfl := Option.some.inj hlookup
      -- What has been returned was admitted before.
      intro hmem
      obtain ⟨old, hold, hnumber⟩ := List.mem_map.mp hmem
      have hlt := h.returned old hold
      have heq : old.number = s.admissions.length := hnumber
      omega
    · exact h.unreturned other admission hlookup
  returned admission hmem := by
    have hlt := h.returned admission hmem
    simp only [List.length_append, List.length_singleton]
    omega
  once := h.once
  answered := h.answered

/-- What is returned leaves the hash, and no other entry is the same admission. -/
theorem Inv.remove (h : Inv roomCap s) (socketId : String) :
    Inv roomCap { s with
      store := (s.store.removeParticipant socketId).2
      returned := s.returned ++ (s.store.removeParticipant socketId).1.toList } := by
  have hstore := h.store.remove socketId
  unfold ParticipantsStore.removeParticipant at hstore ⊢
  split
  · next hnone =>
    rw [hnone] at hstore
    exact h.shrink hstore (fun _ _ hlookup => hlookup) rfl (List.append_nil _) h.answered
  · next removed hremoved =>
    rw [hremoved] at hstore
    have hrecorded := h.recorded socketId removed hremoved
    have hkept : ∀ other admission,
        (s.store.participants.erase socketId).lookup other = some admission →
          other ≠ socketId ∧ s.store.participants.lookup other = some admission := by
      intro other admission hlookup
      rw [Dict.lookup_erase_ite] at hlookup
      split at hlookup
      · cases hlookup
      · next hne => exact ⟨hne, hlookup⟩
    constructor
    · exact hstore
    · intro other admission hlookup
      exact h.recorded other admission (hkept other admission hlookup).2
    · intro other admission hlookup hmem
      obtain ⟨hne, hold⟩ := hkept other admission hlookup
      rw [Option.toList_some, List.map_append, List.mem_append] at hmem
      rcases hmem with hmem | hmem
      · exact h.unreturned other admission hold hmem
      · -- One admission is the entry of one socket.
        have hnumber : admission.number = removed.number := List.mem_singleton.mp hmem
        have hother := h.recorded other admission hold
        rw [hnumber, hrecorded] at hother
        exact hne (congrArg Prod.fst (Option.some.inj hother)).symm
    · intro admission hmem
      rcases List.mem_append.mp hmem with hmem | hmem
      · exact h.returned admission hmem
      · obtain rfl := List.mem_singleton.mp hmem
        exact (List.getElem?_eq_some_iff.mp hrecorded).1
    · -- It was in the hash, so nothing had returned it.
      show (List.map _ (s.returned ++ [removed])).Nodup
      rw [List.map_append, List.nodup_append]
      refine ⟨h.once, List.nodup_singleton _, ?_⟩
      intro number hmem number' hmem' heq
      obtain rfl := List.mem_singleton.mp hmem'
      have heq : number = removed.number := heq
      rw [heq] at hmem
      exact h.unreturned socketId removed hremoved hmem
    · exact h.answered

variable [DecidableEq ρ]

theorem step_inv {l : Label Participant ρ} (h : Inv roomCap s)
    (hstep : step roomCap s l = some s') : Inv roomCap s' := by
  cases l with
  | admitParticipant socketId participant expiresAt =>
    have hstore := h.store.admission socketId ⟨s.admissions.length, participant⟩ expiresAt
    rcases s.store.admitParticipant_cases socketId ⟨s.admissions.length, participant⟩ expiresAt
      roomCap with hcase | hcase
    · rw [hcase] at hstore
      simp only [step, hcase, Option.some.injEq] at hstep
      subst hstep
      exact h.put hstore
    · simp only [step, hcase, Option.some.injEq] at hstep
      subst hstep
      exact h.shrink h.store (fun _ _ hlookup => hlookup) rfl rfl h.answered
  | touchParticipant socketId expiresAt =>
    cases hstep
    refine h.shrink (h.store.touch socketId expiresAt) ?_ rfl rfl h.answered
    intro other admission hlookup
    have hparticipants := s.store.touchParticipant_participants socketId expiresAt
    rwa [← hparticipants]
  | removeParticipant socketId =>
    cases hstep
    exact h.remove socketId
  | readExpired r now =>
    simp only [step] at hstep
    split at hstep
    · cases hstep
      exact h.shrink h.store (fun _ _ hlookup => hlookup) rfl rfl h.answered
    · cases hstep
  | prune r =>
    simp only [step] at hstep
    split at hstep
    · next expired _ =>
      cases hstep
      refine h.shrink (h.store.prune expired) ?_ rfl rfl h.answered
      intro other admission hlookup
      have hlookup := (Dict.lookup_eraseAll expired s.store.participants other).symm.trans hlookup
      split at hlookup
      · cases hlookup
      · exact hlookup
    · cases hstep
  | readHash r socketId =>
    simp only [step] at hstep
    split at hstep
    · cases hstep
      refine h.shrink h.store (fun _ _ hlookup => hlookup) rfl rfl ?_
      intro answer hmem
      rcases List.mem_append.mp hmem with hmem | hmem
      · exact h.answered answer hmem
      · obtain rfl := List.mem_singleton.mp hmem
        exact h.store.size
    · cases hstep

omit [DecidableEq ρ] in
theorem init_inv (h : Init s) : Inv roomCap s := by
  obtain ⟨hparticipants, -, -, hreturned, hanswered⟩ := h
  constructor
  · constructor
    · rw [hparticipants]
      exact Nat.zero_le _
    · intro socketId hmem
      rw [hparticipants] at hmem
      exact absurd hmem (AList.notMem_empty _)
  · intro socketId admission hlookup
    rw [hparticipants] at hlookup
    cases hlookup
  · intro socketId admission hlookup
    rw [hparticipants] at hlookup
    cases hlookup
  · intro admission hmem
    rw [hreturned] at hmem
    cases hmem
  · rw [hreturned]
    exact List.nodup_nil
  · intro answer hmem
    rw [hanswered] at hmem
    cases hmem

theorem reachable_inv (h : (system Participant ρ roomCap).Reachable s) : Inv roomCap s :=
  h.invariant (fun _ => init_inv) fun _ _ _ => step_inv

/-- A read reports no more sockets than the cap. -/
theorem answered_size_le (h : (system Participant ρ roomCap).Reachable s) :
    ∀ answer ∈ s.answered, answer.size ≤ roomCap :=
  (reachable_inv h).answered

/-- Whatever the replicas interleave, the room is not over its cap, every entry of the hash has an
    expiry, and no two removals return one admission. -/
theorem reachable_roster (h : (system Participant ρ roomCap).Reachable s) :
    s.store.participants.keys.length ≤ roomCap ∧
      (∀ socketId ∈ s.store.participants, socketId ∈ s.store.expiry) ∧
      (s.returned.map (·.number)).Nodup := by
  have hinv := reachable_inv h
  exact ⟨hinv.store.size, hinv.store.expiry, hinv.once⟩

end invariant

/-! ### Runs -/

def emptyRoom : State String Nat where
  store := ⟨∅, ∅⟩
  reads := fun _ => .idle
  admissions := []
  returned := []
  answered := []

/-- In a room of one, a socket is admitted again between the two halves of a pruning and loses its
    slot to the next socket, which is removed twice. -/
theorem reachable_roster_readmitted :
    ∃ s, (system String Nat 1).Reachable s ∧ s.admissions.length = 3 ∧
      s.returned.length = 1 ∧ (s.store.participants.keys.length ≤ 1 ∧
        (∀ socketId ∈ s.store.participants, socketId ∈ s.store.expiry) ∧
        (s.returned.map (·.number)).Nodup) := by
  obtain ⟨s, hs, hadmissions, hreturned⟩ :
      ∃ s, (system String Nat 1).exec emptyRoom
        [.admitParticipant "a" "Ada" 90, .readExpired 0 100, .admitParticipant "b" "Bob" 190,
          .admitParticipant "a" "Ada" 190, .prune 0, .removeParticipant "a",
          .admitParticipant "b" "Bob" 200, .readHash 0 "b", .removeParticipant "b",
          .removeParticipant "b"] = some s ∧
      s.admissions.length = 3 ∧ s.returned.length = 1 := ⟨_, rfl, rfl, rfl⟩
  have hinit : (system String Nat 1).init emptyRoom := ⟨rfl, fun _ => rfl, rfl, rfl, rfl⟩
  have hreach := (System.Reachable.init hinit).exec hs
  exact ⟨s, hreach, hadmissions, hreturned, reachable_roster hreach⟩

end Notebortt.Admissions
