import Notebortt.BoardState.ChangeLog
import Notebortt.Concurrency.Cleanup
import Notebortt.Mutations.Processor

/-! # Seen markers

    Calls of `processMutation` on one board by any number of processes, which
    need not be serialised, among evictions and loads of the board. A marker is
    claimed with SET NX EX; it goes when its time is over, or with the other keys
    of the board when an eviction finds it. The write-through of a solo board is
    left out, as it touches a marker only through an eviction. -/

open Transition

namespace Notebortt.SeenMarkers

/-- Five minutes. -/
def SEEN_TTL_SECONDS : Nat := 300

/-! ### State -/

/-- A mutation handed to `processMutation`, and when. -/
structure Submission where
  mutation : Mutation
  submittedAt : Nat

/-- Where a `processMutation` call is. -/
inductive Call where
  | idle
  | submitted (sub : Submission)
  | contextRead (sub : Submission) (context : Dict BoardElement) (writeMode : BoardSyncWriteMode)
  | claimed (sub : Submission) (context : Dict BoardElement) (writeMode : BoardSyncWriteMode)
  | resolved (sub : Submission) (writeMode : BoardSyncWriteMode) (changes : ElementChangeSet)
  | numbered (sub : Submission) (writeMode : BoardSyncWriteMode) (change : PersistedElementChange)

structure State (P : Type) where
  keys : BoardKeys
  db : Postgres
  /-- The clock of the store, in milliseconds. -/
  now : Nat
  /-- When the marker of a mutation id expires. -/
  expiresAt : String → Nat
  call : P → Call
  /-- The keys an eviction has found. -/
  eviction : Option (KeyName → Bool)
  /-- Ghost: when a mutation id was first claimed. -/
  firstClaim : String → Option Nat
  /-- Ghost: the submissions whose change set was written. -/
  applied : List Submission

/-! ### Steps -/

inductive Label (P : Type) where
  | submit (p : P) (mutation : Mutation)
  /-- The cached context, and the write mode. -/
  | readContext (p : P) (writeMode : BoardSyncWriteMode)
  /-- `tryMarkSeen`. -/
  | claim (p : P)
  /-- The lock rules, and the resolution of the change set. -/
  | resolve (p : P)
  /-- INCR of the sequence. -/
  | number (p : P)
  /-- The write pipeline. -/
  | write (p : P)
  | tick (elapsed : Nat)
  /-- `cleanupInactiveBoards` begins to evict the board. -/
  | cleanup (seqIdle : Bool)
  /-- Another caller begins to evict the board. -/
  | flushBoard
  | scanPage (page : KeyName → Bool)
  | del
  | loadBoard

section system
variable {P : Type} [DecidableEq P]

def State.setCall (s : State P) (p : P) (c : Call) : State P :=
  { s with call := Function.update s.call p c }

/-- Time passes, and the markers whose time is over are gone. -/
def State.tick (s : State P) (elapsed : Nat) : State P :=
  { s with
    now := s.now + elapsed
    keys := { s.keys with
      seen := s.keys.seen.remove (s.keys.seen.keys.filter (s.expiresAt · ≤ s.now + elapsed)) } }

/-- The claim succeeded. -/
def State.claimed (s : State P) (mutationId : String) (keys : BoardKeys) : State P :=
  { s with
    keys := keys
    expiresAt := Function.update s.expiresAt mutationId (s.now + SEEN_TTL_SECONDS * 1000)
    firstClaim :=
      Function.update s.firstClaim mutationId ((s.firstClaim mutationId).or (some s.now)) }

def step (cfg : Config) (boardId : String) (s : State P) : Label P → Option (State P)
  | .submit p mutation =>
    match s.call p with
    | .idle => some (s.setCall p (.submitted ⟨mutation, s.now⟩))
    | _ => none
  | .readContext p writeMode =>
    match s.call p with
    | .submitted sub =>
      some <| s.setCall p
        (.contextRead sub (createCachedBoardContext cfg s.keys [sub.mutation]) writeMode)
    | _ => none
  | .claim p =>
    match s.call p with
    | .contextRead sub context writeMode =>
      if sub.mutation.isTransient then some (s.setCall p .idle)
      else
        -- SET NX with the TTL: what is there already answers `already_applied`
        match tryMarkSeen sub.mutation.mutationId s.keys with
        | (false, _) => some (s.setCall p .idle)
        | (true, keys) =>
          some ((s.claimed sub.mutation.mutationId keys).setCall p (.claimed sub context writeMode))
    | _ => none
  | .resolve p =>
    match s.call p with
    | .claimed sub context writeMode =>
      -- turned away after the claim: the marker stays
      if isMutationBlockedByLock sub.mutation.operation context.lookup then some (s.setCall p .idle)
      else if (validateReconcileMonthRange sub.mutation.operation context.lookup).isSome then
        some (s.setCall p .idle)
      else
        let changes := resolveChangeSet s.keys.elementList
          (toChangeSet context.lookup sub.mutation.operation)
        if changes.upserts.isEmpty && changes.deletes.isEmpty then some (s.setCall p .idle)
        else some (s.setCall p (.resolved sub writeMode changes))
    | _ => none
  | .number p =>
    match s.call p with
    | .resolved sub writeMode changes =>
      let numbered := getSequence s.keys
      some ({ s with keys := numbered.2 }.setCall p (.numbered sub writeMode
        { sequence := numbered.1, upserts := changes.upserts, deletes := changes.deletes }))
    | _ => none
  | .write p =>
    match s.call p with
    | .numbered sub writeMode change =>
      some ({ s with
        keys :=
          runPipeline (writePipeline (writeMode = BoardSyncWriteMode.collab) s.now change) s.keys
        applied := s.applied ++ [sub] }.setCall p .idle)
    | _ => none
  | .tick elapsed => some (s.tick elapsed)
  | .cleanup seqIdle =>
    match s.eviction with
    | none =>
      if Cleanup.isInactive s.keys s.now seqIdle then
        some { s with eviction := some fun _ => false }
      else none
    | some _ => none
  | .flushBoard =>
    match s.eviction with
    | none => some { s with eviction := some fun _ => false }
    | some _ => none
  | .scanPage page =>
    match s.eviction with
    | some found => some { s with eviction := some fun name => found name || page name }
    | none => none
  | .del =>
    match s.eviction with
    | some found => some { s with keys := (s.keys.del found).unindex, eviction := none }
    | none => none
  | .loadBoard =>
    some { s with
      keys := (Notebortt.loadBoard boardId ⟨fun _ => s.keys, s.db⟩).redis boardId }

/-- A board of which no mutation was seen. -/
structure Init (s : State P) : Prop where
  call : ∀ p, s.call p = .idle
  firstClaim : ∀ id, s.firstClaim id = none
  applied : s.applied = []

def system (P : Type) [DecidableEq P] (cfg : Config) (boardId : String) :
    System (State P) (Label P) where
  init := Init
  step := step cfg boardId

end system

/-! ### At most once -/

/-- The submission is of the mutation id, and was made before the time to live of
    a first claim is over. -/
def Submission.Within (id : String) (firstClaim : Nat) (sub : Submission) : Prop :=
  sub.mutation.mutationId = id ∧ sub.submittedAt < firstClaim + SEEN_TTL_SECONDS * 1000

instance (id : String) (firstClaim : Nat) (sub : Submission) :
    Decidable (sub.Within id firstClaim) := by
  unfold Submission.Within; infer_instance

section proofs
variable {P : Type}

/-- How many submissions within the time to live were applied. -/
def State.applications (s : State P) (id : String) (firstClaim : Nat) : Nat :=
  s.applied.countP fun sub => sub.Within id firstClaim

def AppliedOnce (s : State P) : Prop :=
  ∀ id firstClaim, s.firstClaim id = some firstClaim → s.applications id firstClaim ≤ 1

/-- The time to live of the first claim of the id is over. -/
def State.over (s : State P) (id : String) : Bool :=
  match s.firstClaim id with
  | some firstClaim => firstClaim + SEEN_TTL_SECONDS * 1000 ≤ s.now
  | none => true

/-- The step condition: an eviction deletes a marker only when the time to live of
    the first claim is over, and then no call submitted before claims any more. -/
def MarkersLast (s : State P) : Label P → Prop
  | .del =>
    match s.eviction with
    | some found => ∀ id ∈ s.keys.seen.keys, found (.seen id) = true → s.over id = true
    | none => True
  | .claim p =>
    match s.call p with
    | .contextRead sub _ _ =>
      match s.firstClaim sub.mutation.mutationId with
      | some firstClaim =>
        sub.Within sub.mutation.mutationId firstClaim → s.over sub.mutation.mutationId = false
      | none => True
    | _ => True
  | _ => True

instance (s : State P) (l : Label P) : Decidable (MarkersLast s l) := by
  unfold MarkersLast
  split
  · split <;> infer_instance
  · split
    · split <;> infer_instance
    · infer_instance
  · infer_instance

/-! ### The invariant -/

/-- The submission of a call that is past its claim. -/
def Call.past : Call → Option Submission
  | .idle | .submitted _ | .contextRead _ _ _ => none
  | .claimed sub _ _ => some sub
  | .resolved sub _ _ => some sub
  | .numbered sub _ _ => some sub

structure Inv (s : State P) : Prop where
  /-- Until the time to live is over the marker is there. -/
  marked : ∀ id firstClaim, s.firstClaim id = some firstClaim →
    s.now < firstClaim + SEEN_TTL_SECONDS * 1000 → id ∈ s.keys.seen
  expires : ∀ id firstClaim, s.firstClaim id = some firstClaim → id ∈ s.keys.seen →
    firstClaim + SEEN_TTL_SECONDS * 1000 ≤ s.expiresAt id
  /-- Without a first claim, nobody is past one. -/
  unclaimed : ∀ id, s.firstClaim id = none →
    (∀ p sub, (s.call p).past = some sub → sub.mutation.mutationId ≠ id) ∧
      ∀ sub ∈ s.applied, sub.mutation.mutationId ≠ id
  once : ∀ id firstClaim, s.firstClaim id = some firstClaim → s.applications id firstClaim ≤ 1
  /-- A call within the time to live that is past its claim is the only one, and
      nothing was applied yet. -/
  alone : ∀ id firstClaim, s.firstClaim id = some firstClaim →
    ∀ p sub, (s.call p).past = some sub → sub.Within id firstClaim →
      s.applications id firstClaim = 0 ∧
        ∀ q sub', (s.call q).past = some sub' → sub'.Within id firstClaim → q = p

/-- A step that leaves the markers and the ghosts, and takes no call past its claim. -/
theorem Inv.of_frame {s s' : State P} (h : Inv s) (hseen : s'.keys.seen = s.keys.seen)
    (hnow : s'.now = s.now) (hexpires : s'.expiresAt = s.expiresAt)
    (hfirst : s'.firstClaim = s.firstClaim) (happlied : s'.applied = s.applied)
    (hcalls : ∀ q sub, (s'.call q).past = some sub → (s.call q).past = some sub) : Inv s' := by
  have happlications : ∀ id firstClaim, s'.applications id firstClaim =
      s.applications id firstClaim := by
    intro id firstClaim
    unfold State.applications
    rw [happlied]
  constructor
  · rw [hseen, hnow, hfirst]
    exact h.marked
  · rw [hseen, hexpires, hfirst]
    exact h.expires
  · intro id hnone
    rw [hfirst] at hnone
    obtain ⟨hpast, hold⟩ := h.unclaimed id hnone
    rw [happlied]
    exact ⟨fun q sub hq => hpast q sub (hcalls q sub hq), hold⟩
  · intro id firstClaim hclaim
    rw [hfirst] at hclaim
    rw [happlications]
    exact h.once id firstClaim hclaim
  · intro id firstClaim hclaim q sub hq hwithin
    rw [hfirst] at hclaim
    obtain ⟨hzero, halone⟩ := h.alone id firstClaim hclaim q sub (hcalls q sub hq) hwithin
    rw [happlications]
    exact ⟨hzero, fun q' sub' hq' hwithin' => halone q' sub' (hcalls q' sub' hq') hwithin'⟩

theorem inv_init {s : State P} (h : Init s) : Inv s := by
  have hnone : ∀ id firstClaim, s.firstClaim id ≠ some firstClaim := by
    intro id firstClaim
    rw [h.firstClaim id]
    simp
  constructor
  · exact fun id firstClaim hclaim => absurd hclaim (hnone id firstClaim)
  · exact fun id firstClaim hclaim => absurd hclaim (hnone id firstClaim)
  · intro id _
    constructor
    · intro p sub hp
      rw [h.call p] at hp
      cases hp
    · intro sub hsub
      rw [h.applied] at hsub
      cases hsub
  · exact fun id firstClaim hclaim => absurd hclaim (hnone id firstClaim)
  · exact fun id firstClaim hclaim => absurd hclaim (hnone id firstClaim)

variable [DecidableEq P]

theorem past_update {f : P → Call} {p : P} {c : Call} {r : Option Submission} (hc : c.past = r)
    (q : P) : (Function.update f p c q).past = if q = p then r else (f q).past := by
  by_cases hq : q = p
  · rw [hq, Function.update_self, if_pos rfl, hc]
  · rw [Function.update_of_ne hq, if_neg hq]

/-- A call that goes on without a claim, or stops. -/
theorem Inv.setCall {s : State P} (h : Inv s) (p : P) {c : Call}
    (hc : ∀ sub, c.past = some sub → (s.call p).past = some sub) : Inv (s.setCall p c) := by
  refine h.of_frame rfl rfl rfl rfl rfl ?_
  intro q sub hq
  simp only [State.setCall, past_update rfl] at hq
  split at hq
  · next heq =>
    rw [heq]
    exact hc sub hq
  · exact hq

omit [DecidableEq P] in
/-- The markers that are left when time passes are those whose time is not over. -/
theorem Inv.tick {s : State P} (h : Inv s) (elapsed : Nat) : Inv (s.tick elapsed) := by
  refine ⟨?_, ?_, h.unclaimed, h.once, h.alone⟩
  · intro id firstClaim hclaim hwithin
    simp only [State.tick] at hwithin
    have hmem : id ∈ s.keys.seen := h.marked id firstClaim hclaim (by omega)
    have hexpires := h.expires id firstClaim hclaim hmem
    simp only [State.tick, IdSet.mem_remove, List.mem_filter, decide_eq_true_eq, not_and]
    exact ⟨fun _ => by omega, hmem⟩
  · intro id firstClaim hclaim hmem
    simp only [State.tick, IdSet.mem_remove] at hmem
    exact h.expires id firstClaim hclaim hmem.2

/-- Who is past the claim after one more. -/
theorem past_of_claim {f : P → Call} {p q : P} {sub sub' : Submission} {c : Call}
    (hc : c.past = some sub) (hq : (Function.update f p c q).past = some sub') :
    (q = p ∧ sub' = sub) ∨ (q ≠ p ∧ (f q).past = some sub') := by
  rw [past_update hc] at hq
  split at hq
  · next heq => exact .inl ⟨heq, (Option.some.inj hq).symm⟩
  · next hne => exact .inr ⟨hne, hq⟩

/-- The first claim of the id. -/
theorem Inv.claimedFirst {s : State P} (h : Inv s) {p : P} {sub : Submission} {c : Call}
    (hc : c.past = some sub) (hfirst : s.firstClaim sub.mutation.mutationId = none) :
    Inv ((s.claimed sub.mutation.mutationId
      { s.keys with seen := s.keys.seen.add [sub.mutation.mutationId] }).setCall p c) := by
  obtain ⟨hnobody, hnothing⟩ := h.unclaimed _ hfirst
  -- the claim opens the window of this id, and of no other
  have hlookup : ∀ id, (Function.update s.firstClaim sub.mutation.mutationId (some s.now)) id =
      if id = sub.mutation.mutationId then some s.now else s.firstClaim id := by
    intro id
    by_cases hid : id = sub.mutation.mutationId
    · rw [hid, Function.update_self, if_pos rfl]
    · rw [Function.update_of_ne hid, if_neg hid]
  -- nothing was applied under an id that nobody had claimed
  have hzero : s.applications sub.mutation.mutationId s.now = 0 := by
    unfold State.applications
    rw [List.countP_eq_zero]
    intro sub' hsub' hwithin
    exact hnothing sub' hsub' (of_decide_eq_true hwithin).1
  constructor
  · intro id firstClaim hclaim hwithin
    simp only [State.setCall, State.claimed, hfirst, Option.none_or, hlookup] at hclaim hwithin ⊢
    rw [IdSet.mem_add]
    split at hclaim
    · next hid => exact .inl (by simp [hid])
    · exact .inr (h.marked id firstClaim hclaim hwithin)
  · intro id firstClaim hclaim hmem
    simp only [State.setCall, State.claimed, hfirst, Option.none_or, hlookup] at hclaim hmem ⊢
    split at hclaim
    · next hid =>
      rw [hid, Function.update_self, Option.some.inj hclaim]
    · next hid =>
      rw [Function.update_of_ne hid]
      rw [IdSet.mem_add, List.mem_singleton] at hmem
      exact h.expires id firstClaim hclaim (hmem.resolve_left hid)
  · intro id hnone
    simp only [State.setCall, State.claimed, hfirst, Option.none_or, hlookup] at hnone ⊢
    split at hnone
    · cases hnone
    · next hid =>
      obtain ⟨hcalls, happlied⟩ := h.unclaimed id hnone
      refine ⟨?_, happlied⟩
      intro q sub' hq
      rcases past_of_claim hc hq with ⟨_, rfl⟩ | ⟨_, hold⟩
      · exact fun heq => hid heq.symm
      · exact hcalls q sub' hold
  · intro id firstClaim hclaim
    simp only [State.setCall, State.claimed, hfirst, Option.none_or, hlookup] at hclaim
    split at hclaim
    · next hid =>
      rw [hid, ← Option.some.inj hclaim]
      exact Nat.le_trans (Nat.le_of_eq hzero) (Nat.zero_le 1)
    · exact h.once id firstClaim hclaim
  · intro id firstClaim hclaim q sub' hq hwithin
    simp only [State.setCall, State.claimed, hfirst, Option.none_or, hlookup] at hclaim hq ⊢
    split at hclaim
    · next hid =>
      -- nobody else was past a claim of this id
      have honly : ∀ q' sub'', ((Function.update s.call p c) q').past = some sub'' →
          sub''.Within id firstClaim → q' = p := by
        intro q' sub'' hq' hwithin'
        rcases past_of_claim hc hq' with ⟨heq, _⟩ | ⟨_, hold⟩
        · exact heq
        · exact absurd (hwithin'.1.trans hid) (hnobody q' sub'' hold)
      refine ⟨?_, ?_⟩
      · rw [hid, ← Option.some.inj hclaim]
        exact hzero
      · intro q' sub'' hq' hwithin'
        rw [honly q' sub'' hq' hwithin', honly q sub' hq hwithin]
    · next hid =>
      rcases past_of_claim hc hq with ⟨_, rfl⟩ | ⟨hne, hold⟩
      · exact absurd hwithin.1.symm hid
      · obtain ⟨hzero', halone⟩ := h.alone id firstClaim hclaim q sub' hold hwithin
        refine ⟨hzero', ?_⟩
        intro q' sub'' hq' hwithin'
        rcases past_of_claim hc hq' with ⟨_, rfl⟩ | ⟨_, hold'⟩
        · exact absurd hwithin'.1.symm hid
        · exact halone q' sub'' hold' hwithin'

/-- A claim after the time to live of the first one, by a call that was submitted
    after it, too. -/
theorem Inv.claimedAgain {s : State P} (h : Inv s) {p : P} {sub : Submission} {c : Call}
    {first : Nat} (hc : c.past = some sub)
    (hfirst : s.firstClaim sub.mutation.mutationId = some first)
    (hover : ¬ s.now < first + SEEN_TTL_SECONDS * 1000)
    (hlate : ¬ sub.Within sub.mutation.mutationId first) :
    Inv ((s.claimed sub.mutation.mutationId
      { s.keys with seen := s.keys.seen.add [sub.mutation.mutationId] }).setCall p c) := by
  -- the window stays that of the first claim
  have hsame : Function.update s.firstClaim sub.mutation.mutationId (some first) =
      s.firstClaim := by
    rw [← hfirst, Function.update_eq_self]
  constructor
  · intro id firstClaim hclaim hwithin
    simp only [State.setCall, State.claimed, hfirst, Option.some_or, hsame] at hclaim hwithin ⊢
    rw [IdSet.mem_add]
    exact .inr (h.marked id firstClaim hclaim hwithin)
  · intro id firstClaim hclaim hmem
    simp only [State.setCall, State.claimed, hfirst, Option.some_or, hsame] at hclaim hmem ⊢
    by_cases hid : id = sub.mutation.mutationId
    · rw [hid, Function.update_self]
      rw [hid, hfirst] at hclaim
      obtain rfl := Option.some.inj hclaim
      omega
    · rw [Function.update_of_ne hid]
      rw [IdSet.mem_add, List.mem_singleton] at hmem
      exact h.expires id firstClaim hclaim (hmem.resolve_left hid)
  · intro id hnone
    simp only [State.setCall, State.claimed, hfirst, Option.some_or, hsame] at hnone ⊢
    obtain ⟨hcalls, happlied⟩ := h.unclaimed id hnone
    refine ⟨?_, happlied⟩
    intro q sub' hq
    rcases past_of_claim hc hq with ⟨_, rfl⟩ | ⟨_, hold⟩
    · intro heq
      rw [heq, hnone] at hfirst
      cases hfirst
    · exact hcalls q sub' hold
  · intro id firstClaim hclaim
    simp only [State.setCall, State.claimed, hfirst, Option.some_or, hsame] at hclaim
    exact h.once id firstClaim hclaim
  · intro id firstClaim hclaim q sub' hq hwithin
    simp only [State.setCall, State.claimed, hfirst, Option.some_or, hsame] at hclaim hq ⊢
    -- this call is none of those that were submitted within the window
    have hold : ∀ q' sub'', ((Function.update s.call p c) q').past = some sub'' →
        sub''.Within id firstClaim → (s.call q').past = some sub'' := by
      intro q' sub'' hq' hwithin'
      rcases past_of_claim hc hq' with ⟨_, rfl⟩ | ⟨_, hold⟩
      · rw [← hwithin'.1, hfirst] at hclaim
        obtain rfl := Option.some.inj hclaim
        exact absurd ⟨rfl, hwithin'.2⟩ hlate
      · exact hold
    obtain ⟨hzero, halone⟩ := h.alone id firstClaim hclaim q sub' (hold q sub' hq hwithin) hwithin
    exact ⟨hzero, fun q' sub'' hq' hwithin' =>
      halone q' sub'' (hold q' sub'' hq' hwithin') hwithin'⟩

/-- What the claim did not find was either never claimed, or is over. -/
theorem Inv.claimed {s : State P} (h : Inv s) {p : P} {sub : Submission} {c : Call}
    (hc : c.past = some sub) (hnew : sub.mutation.mutationId ∉ s.keys.seen)
    (hwaits : ∀ firstClaim ∈ s.firstClaim sub.mutation.mutationId,
      sub.Within sub.mutation.mutationId firstClaim → s.over sub.mutation.mutationId = false) :
    Inv ((s.claimed sub.mutation.mutationId
      { s.keys with seen := s.keys.seen.add [sub.mutation.mutationId] }).setCall p c) := by
  cases hfirst : s.firstClaim sub.mutation.mutationId with
  | none => exact h.claimedFirst hc hfirst
  | some first =>
    -- the marker is gone, so the time to live is over, and this call came after it
    have hover : ¬ s.now < first + SEEN_TTL_SECONDS * 1000 :=
      fun hlt => hnew (h.marked _ first hfirst hlt)
    refine h.claimedAgain hc hfirst hover ?_
    intro hwithin
    have hopen := hwaits first hfirst hwithin
    simp only [State.over, hfirst, decide_eq_false_iff_not] at hopen
    omega

/-- The pipeline of the one call that was past its claim. -/
theorem Inv.write {s : State P} (h : Inv s) {p : P} {sub : Submission} {keys : BoardKeys}
    (hpast : (s.call p).past = some sub) (hseen : keys.seen = s.keys.seen) :
    Inv ({ s with keys := keys, applied := s.applied ++ [sub] }.setCall p .idle) := by
  -- the call is over: the others stand where they stood
  have hpastOf : ∀ q sub', ((Function.update s.call p .idle) q).past = some sub' →
      q ≠ p ∧ (s.call q).past = some sub' := by
    intro q sub' hq
    rw [past_update rfl] at hq
    split at hq
    · cases hq
    · next hne => exact ⟨hne, hq⟩
  have hcount : ∀ id firstClaim,
      ({ s with keys := keys, applied := s.applied ++ [sub] }.setCall p .idle).applications
        id firstClaim =
          s.applications id firstClaim + if sub.Within id firstClaim then 1 else 0 := by
    intro id firstClaim
    simp only [State.applications, State.setCall, List.countP_append, List.countP_singleton,
      decide_eq_true_eq]
  constructor
  · intro id firstClaim hclaim hwithin
    have hmem := h.marked id firstClaim hclaim hwithin
    rw [← hseen] at hmem
    exact hmem
  · intro id firstClaim hclaim hmem
    have hold : id ∈ s.keys.seen := by
      rw [← hseen]
      exact hmem
    exact h.expires id firstClaim hclaim hold
  · intro id hnone
    obtain ⟨hcalls, happlied⟩ := h.unclaimed id hnone
    refine ⟨fun q sub' hq => hcalls q sub' (hpastOf q sub' hq).2, ?_⟩
    intro sub' hsub'
    rcases List.mem_append.mp hsub' with hold | hnew
    · exact happlied sub' hold
    · rw [List.mem_singleton.mp hnew]
      exact hcalls p sub hpast
  · intro id firstClaim hclaim
    have honce := h.once id firstClaim hclaim
    rw [hcount]
    split
    · next hwithin =>
      -- a call past its claim is the only one, and nothing is applied yet
      have hzero := (h.alone id firstClaim hclaim p sub hpast hwithin).1
      omega
    · omega
  · intro id firstClaim hclaim q sub' hq hwithin
    obtain ⟨hne, hold⟩ := hpastOf q sub' hq
    obtain ⟨hzero, halone⟩ := h.alone id firstClaim hclaim q sub' hold hwithin
    rw [hcount]
    constructor
    · split
      · next hmine => exact absurd (halone p sub hpast hmine).symm hne
      · omega
    · intro q' sub'' hq' hwithin'
      exact halone q' sub'' (hpastOf q' sub'' hq').2 hwithin'

omit [DecidableEq P] in
/-- The DEL takes the markers whose time to live is over. -/
theorem Inv.del {s : State P} (h : Inv s) {found : KeyName → Bool}
    (hlast : ∀ id ∈ s.keys.seen.keys, found (.seen id) = true → s.over id = true) :
    Inv { s with keys := (s.keys.del found).unindex, eviction := none } := by
  have hmem : ∀ id, id ∈ ((s.keys.del found).unindex).seen → id ∈ s.keys.seen := by
    intro id hid
    simp only [BoardKeys.unindex, BoardKeys.del, IdSet.mem_remove] at hid
    exact hid.2
  refine ⟨?_, ?_, h.unclaimed, h.once, h.alone⟩
  · intro id firstClaim hclaim hwithin
    have hthere := h.marked id firstClaim hclaim hwithin
    simp only [BoardKeys.unindex, BoardKeys.del, IdSet.mem_remove, List.mem_filter, not_and]
    refine ⟨?_, hthere⟩
    intro hkey hdeleted
    -- a marker within its time to live is not over
    have hover := hlast id hkey hdeleted
    have hfirst : s.firstClaim id = some firstClaim := hclaim
    have hopen : s.now < firstClaim + SEEN_TTL_SECONDS * 1000 := hwithin
    simp only [State.over, hfirst, decide_eq_true_eq] at hover
    omega
  · exact fun id firstClaim hclaim hid => h.expires id firstClaim hclaim (hmem id hid)

theorem seen_loadBoard (boardId : String) (s : Server) :
    ((loadBoard boardId s).redis boardId).seen = (s.redis boardId).seen := by
  simp only [loadBoard]
  split
  · rfl
  · rw [Server.setKeys_redis_self]

theorem inv_step {cfg : Config} {boardId : String} {s s' : State P} {l : Label P} (h : Inv s)
    (hlast : MarkersLast s l) (hstep : step cfg boardId s l = some s') : Inv s' := by
  cases l with
  | submit p mutation | readContext p writeMode =>
    simp only [step] at hstep
    split at hstep
    · obtain rfl := Option.some.inj hstep
      exact h.setCall p (by simp [Call.past])
    · cases hstep
  | claim p =>
    simp only [step] at hstep
    split at hstep
    · next sub context writeMode hcall =>
      split at hstep
      · obtain rfl := Option.some.inj hstep
        exact h.setCall p (by simp [Call.past])
      · unfold tryMarkSeen at hstep
        split at hstep
        · obtain rfl := Option.some.inj hstep
          exact h.setCall p (by simp [Call.past])
        · next heq =>
          split at heq
          · cases heq
          · -- the one way on: the marker was not there
            next hnew =>
            obtain rfl := Option.some.inj hstep
            obtain ⟨_, rfl⟩ := Prod.mk.inj heq
            refine h.claimed rfl hnew ?_
            intro firstClaim hfirst hwithin
            simp only [MarkersLast, hcall, Option.mem_def.mp hfirst] at hlast
            exact hlast hwithin
    · cases hstep
  | resolve p =>
    simp only [step] at hstep
    split at hstep
    · next sub context writeMode hcall =>
      split at hstep
      · obtain rfl := Option.some.inj hstep
        exact h.setCall p (by simp [Call.past])
      · split at hstep
        · obtain rfl := Option.some.inj hstep
          exact h.setCall p (by simp [Call.past])
        · split at hstep
          · obtain rfl := Option.some.inj hstep
            exact h.setCall p (by simp [Call.past])
          · obtain rfl := Option.some.inj hstep
            exact h.setCall p (by simp [Call.past, hcall])
    · cases hstep
  | number p =>
    simp only [step] at hstep
    split at hstep
    · next sub writeMode changes hcall =>
      obtain rfl := Option.some.inj hstep
      have hnumbered : Inv (s.setCall p (.resolved sub writeMode changes)) :=
        h.setCall p (by simp [Call.past, hcall])
      refine hnumbered.of_frame rfl rfl rfl rfl rfl ?_
      intro q sub' hq
      simp only [State.setCall, past_update rfl] at hq ⊢
      exact hq
    · cases hstep
  | write p =>
    simp only [step] at hstep
    split at hstep
    · next sub writeMode change hcall =>
      obtain rfl := Option.some.inj hstep
      refine h.write ?_ (seen_runPipeline _ _)
      rw [hcall]
      rfl
    · cases hstep
  | tick elapsed =>
    obtain rfl := Option.some.inj hstep
    exact h.tick elapsed
  | cleanup seqIdle =>
    simp only [step] at hstep
    split at hstep
    · split at hstep
      · obtain rfl := Option.some.inj hstep
        exact h.of_frame rfl rfl rfl rfl rfl fun _ _ hq => hq
      · cases hstep
    · cases hstep
  | flushBoard | scanPage page =>
    simp only [step] at hstep
    split at hstep
    · obtain rfl := Option.some.inj hstep
      exact h.of_frame rfl rfl rfl rfl rfl fun _ _ hq => hq
    · cases hstep
  | del =>
    simp only [step] at hstep
    split at hstep
    · next found hfound =>
      obtain rfl := Option.some.inj hstep
      simp only [MarkersLast, hfound] at hlast
      exact h.del hlast
    · cases hstep
  | loadBoard =>
    obtain rfl := Option.some.inj hstep
    exact h.of_frame (seen_loadBoard boardId ⟨fun _ => s.keys, s.db⟩) rfl rfl rfl rfl
      fun _ _ hq => hq

/-- In every run whose markers last, a mutation submitted again within the time to
    live of its first claim is applied once at most. -/
theorem appliedOnce_of_markersLast {cfg : Config} {boardId : String} {s : State P}
    (hs : (system P cfg boardId).ReachableUnder MarkersLast s) : AppliedOnce s := by
  have hinv : Inv s := by
    refine hs.invariant ?_ ?_
    · intro s h
      exact inv_init h
    · intro s l s' h hlast hstep
      exact inv_step h hlast hstep
  exact hinv.once

end proofs

/-! ### Two runs -/

/-- A loaded empty board. -/
def start : State Unit where
  keys := { seq := some 0 }
  db := ⟨∅, ∅⟩
  now := 0
  expiresAt := fun _ => 0
  call := fun _ => .idle
  eviction := none
  firstClaim := fun _ => none
  applied := []

theorem start_init : Init start where
  call := fun _ => rfl
  firstClaim := fun _ => rfl
  applied := rfl

/-- The mutation that creates the note `x`. -/
def createX : Mutation where
  mutationId := "m"
  boardId := "b"
  operation := .createElement "x" ⟨"x", ∅⟩

/-- The labels of a call, up to its claim and after it. -/
def toClaim : List (Label Unit) := [.submit () createX, .readContext () .collab, .claim ()]

def afterClaim : List (Label Unit) := [.resolve (), .number (), .write ()]

/-- The same mutation is submitted twice, four minutes apart. -/
theorem appliedOnce_of_markersLast_run :
    ∃ s : State Unit, s.applications "m" 0 = 1 ∧ s.firstClaim "m" = some 0 ∧ AppliedOnce s := by
  obtain ⟨s, hs, happlied, hfirst⟩ : ∃ s, (system Unit {} "b").execUnder MarkersLast start
      (toClaim ++ afterClaim ++ [.tick 240000] ++ toClaim) = some s ∧
        s.applications "m" 0 = 1 ∧ s.firstClaim "m" = some 0 := ⟨_, rfl, rfl, rfl⟩
  exact ⟨s, happlied, hfirst, appliedOnce_of_markersLast (.execUnder (.init start_init) hs)⟩

/-- In between, the cleanup evicts the idle board: the mutation is applied again. -/
theorem evicted_marker_applies_twice :
    ∃ s : State Unit, (system Unit {} "b").Reachable s ∧ ¬ AppliedOnce s := by
  obtain ⟨s, hs, happlied, hfirst⟩ : ∃ s, (system Unit {} "b").exec start
      (toClaim ++ afterClaim ++
        [.tick 240000, .cleanup false, .scanPage fun _ => true, .del, .loadBoard] ++
        toClaim ++ afterClaim) = some s ∧
        s.applications "m" 0 = 2 ∧ s.firstClaim "m" = some 0 := ⟨_, rfl, rfl, rfl⟩
  refine ⟨s, .exec (.init start_init) hs, ?_⟩
  intro honce
  have htwo := honce "m" 0 hfirst
  omega

end Notebortt.SeenMarkers
