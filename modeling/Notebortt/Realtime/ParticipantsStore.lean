import Mathlib.Data.List.Sort
import Notebortt.BoardState.Keys
import Notebortt.Lib.Dict

/-! # The participants of a board

    `socketio/participants.ts`: a hash from sockets to participants, and a sorted
    set with the time until which the entry of a socket is good. Expired entries
    are pruned before every read, by a ZRANGEBYSCORE and a pipeline after it. -/

namespace Notebortt

def DEFAULT_PARTICIPANT_TTL_MS : Nat := 90000

def PRUNE_BATCH : Nat := 200

/-- The keys `board:<id>:participants` and `board:<id>:participants_expiry`. -/
structure ParticipantsStore (Participant : Type) where
  participants : Dict Participant
  expiry : Dict Nat

namespace ParticipantsStore
variable {Participant : Type} (store : ParticipantsStore Participant)

/-- HSET and ZADD. -/
def put (socketId : String) (participant : Participant) (expiresAt : Nat) :
    ParticipantsStore Participant where
  participants := store.participants.insert socketId participant
  expiry := store.expiry.insert socketId expiresAt

/-- The script of `admitParticipant`. -/
def admitParticipant (socketId : String) (participant : Participant) (expiresAt roomCap : Nat) :
    Bool × ParticipantsStore Participant :=
  if socketId ∈ store.participants then (true, store.put socketId participant expiresAt)
  else if roomCap ≤ store.participants.keys.length then (false, store)
  else (true, store.put socketId participant expiresAt)

/-- `touchParticipant`: ZADD GT raises the score, or adds the member. -/
def touchParticipant (socketId : String) (expiresAt : Nat) : ParticipantsStore Participant :=
  match store.expiry.lookup socketId with
  | some old =>
    if old < expiresAt then { store with expiry := store.expiry.insert socketId expiresAt }
    else store
  | none => { store with expiry := store.expiry.insert socketId expiresAt }

/-- The script of `removeParticipant`. -/
def removeParticipant (socketId : String) : Option Participant × ParticipantsStore Participant :=
  match store.participants.lookup socketId with
  | none => (none, store)
  | some participant =>
    (some participant, ⟨store.participants.erase socketId, store.expiry.erase socketId⟩)

/-- The members of a sorted set: by score, and by their bytes where the scores are equal. -/
def inScoreOrder (a b : (_ : String) × Nat) : Bool :=
  if a.2 = b.2 then notAfter ((keyBytes a.1).map (·.toNat)) ((keyBytes b.1).map (·.toNat))
  else a.2 < b.2

/-- ZRANGEBYSCORE from `-inf` to `now` with LIMIT 0 PRUNE_BATCH. -/
def expired (now : Nat) : List String :=
  (((store.expiry.entries.filter (·.2 ≤ now)).insertionSort fun a b => inScoreOrder a b).map
    (·.1)).take PRUNE_BATCH

/-- The HDEL of a pruning. -/
def hdel (socketIds : List String) : ParticipantsStore Participant :=
  { store with participants := Dict.eraseAll store.participants socketIds }

/-- The ZREM of a pruning. -/
def zrem (socketIds : List String) : ParticipantsStore Participant :=
  { store with expiry := Dict.eraseAll store.expiry socketIds }

/-! ### What each command does -/

variable {store}

theorem lookup_expiry_of_mem_expired {now : Nat} {socketId : String}
    (h : socketId ∈ store.expired now) : ∃ score ≤ now,
      store.expiry.lookup socketId = some score := by
  obtain ⟨⟨id, score⟩, hmem, rfl⟩ := List.mem_map.mp (List.mem_of_mem_take h)
  rw [List.mem_insertionSort, List.mem_filter] at hmem
  exact ⟨score, by simpa using hmem.2, AList.mem_lookup_iff.mpr hmem.1⟩

/-- An admission writes the entry, or leaves the store. -/
theorem admitParticipant_cases (store : ParticipantsStore Participant) (socketId : String)
    (participant : Participant) (expiresAt roomCap : Nat) :
    store.admitParticipant socketId participant expiresAt roomCap =
        (true, store.put socketId participant expiresAt) ∨
      store.admitParticipant socketId participant expiresAt roomCap = (false, store) := by
  unfold admitParticipant
  split
  · exact .inl rfl
  · split
    · exact .inr rfl
    · exact .inl rfl

theorem lookup_put (store : ParticipantsStore Participant) (socketId other : String)
    (participant : Participant) (expiresAt : Nat) :
    (store.put socketId participant expiresAt).participants.lookup other =
      if other = socketId then some participant else store.participants.lookup other :=
  Dict.lookup_insert_ite store.participants socketId other participant

/-- A touch is a command on the sorted set. -/
theorem touchParticipant_participants (store : ParticipantsStore Participant) (socketId : String)
    (expiresAt : Nat) :
    (store.touchParticipant socketId expiresAt).participants = store.participants := by
  unfold touchParticipant
  split
  · split <;> rfl
  · rfl

/-- The entry of the socket is in the hash, and good until `goodUntil` at least. -/
structure Holds (store : ParticipantsStore Participant) (socketId : String) (goodUntil : Nat) :
    Prop where
  participants : socketId ∈ store.participants
  expiry : ∃ score, store.expiry.lookup socketId = some score ∧ goodUntil ≤ score

theorem Holds.not_mem_expired {socketId : String} {goodUntil now : Nat}
    (h : store.Holds socketId goodUntil) (hnow : now < goodUntil) :
    socketId ∉ store.expired now := by
  intro hmem
  obtain ⟨score, hscore, hlookup⟩ := lookup_expiry_of_mem_expired hmem
  obtain ⟨score', hlookup', hgood⟩ := h.expiry
  obtain rfl := Option.some.inj (hlookup.symm.trans hlookup')
  omega

theorem holds_put_self (socketId : String) (participant : Participant) (expiresAt : Nat) :
    (store.put socketId participant expiresAt).Holds socketId expiresAt where
  participants := by simp [put, AList.mem_insert]
  expiry := ⟨expiresAt, AList.lookup_insert _, Nat.le_refl _⟩

theorem Holds.put_ne {socketId other : String} {goodUntil : Nat} (h : store.Holds other goodUntil)
    (hne : other ≠ socketId) (participant : Participant) (expiresAt : Nat) :
    (store.put socketId participant expiresAt).Holds other goodUntil where
  participants := by simp [put, AList.mem_insert, h.participants]
  expiry := by
    obtain ⟨score, hlookup, hgood⟩ := h.expiry
    exact ⟨score, (AList.lookup_insert_ne hne).trans hlookup, hgood⟩

/-- A touch is no harm to an entry, and makes that of its socket good for longer. -/
theorem Holds.touch {other : String} {goodUntil : Nat} (h : store.Holds other goodUntil)
    (socketId : String) (expiresAt : Nat) :
    (store.touchParticipant socketId expiresAt).Holds other
      (if other = socketId then max expiresAt goodUntil else goodUntil) := by
  obtain ⟨score, hlookup, hgood⟩ := h.expiry
  by_cases hid : other = socketId
  · subst hid
    rw [if_pos rfl]
    simp only [touchParticipant, hlookup]
    split
    · next hlt => exact ⟨h.participants, expiresAt, AList.lookup_insert _, by omega⟩
    · next hge => exact ⟨h.participants, score, hlookup, by omega⟩
  · rw [if_neg hid]
    have hkept : (AList.insert socketId expiresAt store.expiry).lookup other = some score :=
      (AList.lookup_insert_ne hid).trans hlookup
    unfold touchParticipant
    split
    · split
      · exact ⟨h.participants, score, hkept, hgood⟩
      · exact h
    · exact ⟨h.participants, score, hkept, hgood⟩

theorem Holds.remove {socketId other : String} {goodUntil : Nat} (h : store.Holds other goodUntil)
    (hne : other ≠ socketId) : (store.removeParticipant socketId).2.Holds other goodUntil := by
  unfold removeParticipant
  split
  · exact h
  · obtain ⟨score, hlookup, hgood⟩ := h.expiry
    exact ⟨AList.mem_erase.mpr ⟨hne, h.participants⟩, score,
      (AList.lookup_erase_ne hne).trans hlookup, hgood⟩

theorem Holds.hdel {other : String} {goodUntil : Nat} (h : store.Holds other goodUntil)
    {socketIds : List String} (hnot : other ∉ socketIds) :
    (store.hdel socketIds).Holds other goodUntil where
  participants := by
    have hmem := AList.lookup_isSome.mpr h.participants
    rw [← AList.lookup_isSome]
    simp only [ParticipantsStore.hdel, Dict.lookup_eraseAll, if_neg hnot]
    exact hmem
  expiry := h.expiry

theorem Holds.zrem {other : String} {goodUntil : Nat} (h : store.Holds other goodUntil)
    {socketIds : List String} (hnot : other ∉ socketIds) :
    (store.zrem socketIds).Holds other goodUntil where
  participants := h.participants
  expiry := by
    obtain ⟨score, hlookup, hgood⟩ := h.expiry
    refine ⟨score, ?_, hgood⟩
    simp only [ParticipantsStore.zrem, Dict.lookup_eraseAll, if_neg hnot, hlookup]

end ParticipantsStore

end Notebortt
