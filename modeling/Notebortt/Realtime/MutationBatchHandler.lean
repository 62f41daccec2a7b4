import Notebortt.Mutations.Retry
import Notebortt.Routes.MutationRoutes

/-! # The broadcasts of the MUTATION_BATCH handler

    The handler checks its batch, processes it, and passes the mutations on to
    the other sockets of the board. It stops early when its socket has gone or
    has joined again, and when `processBatch` throws. The write-through of a solo
    batch is one of the steps that may throw, and reaches the broadcasts in no
    other way. -/

namespace Notebortt.MutationBatchHandler

/-! ### Processing with failures -/

/-- Where `processBatch` throws. -/
inductive BatchFailure where
  /-- The mutation lock, the cached context or the write mode. -/
  | before
  /-- A step of the entry at this index, if the entry comes to it. -/
  | entry (index : Nat) (point : FailurePoint)
  /-- The write-through, the collab marker or the release of the lock. -/
  | after
  deriving DecidableEq

/-- How the entry at the index fails. -/
def failureAt (fail : Option BatchFailure) (index : Nat) : Option FailurePoint :=
  match fail with
  | some (.entry failing point) => if failing = index then some point else none
  | _ => none

/-- A mutation of the batch, what the loop recorded for it, and the change the
    store has begun to write. -/
structure Outcome where
  mutation : Mutation
  result : Option MutationResult := none
  change : Option PersistedElementChange := none

def attemptEntry (fail : Option BatchFailure) (now : Nat) (writeMode : BoardSyncWriteMode)
    (entry : Nat × Mutation) (context : Dict BoardElement) (k : BoardKeys) : Attempt :=
  attemptWithContext (failureAt fail entry.1) now entry.2 context writeMode k

/-- `processEntries`, failing: the entry that throws ends the loop. -/
def attemptEntries (fail : Option BatchFailure) (now : Nat) (writeMode : BoardSyncWriteMode) :
    List (Nat × Mutation) → Dict BoardElement → BoardKeys → List Outcome × BoardKeys
  | [], _, k => ([], k)
  | entry :: rest, context, k =>
    let a := attemptEntry fail now writeMode entry context k
    let outcome : Outcome := { mutation := entry.2, result := a.result, change := a.change }
    match a.result with
    | none => (outcome :: rest.map fun later => { mutation := later.2 }, a.keys)
    | some result =>
      let tail := attemptEntries fail now writeMode rest
        (applyPersistedChangeToContext context result) a.keys
      (outcome :: tail.1, tail.2)

/-- Without a failure the loop is the one of the processor. -/
theorem attemptEntries_none (now : Nat) (writeMode : BoardSyncWriteMode)
    (entries : List (Nat × Mutation)) (context : Dict BoardElement) (k : BoardKeys) :
    (attemptEntries none now writeMode entries context k).1.map (·.result) =
        (processEntries now writeMode entries context k).1.map (fun r => some r.2) ∧
      (attemptEntries none now writeMode entries context k).2 =
        (processEntries now writeMode entries context k).2.2 := by
  induction entries generalizing context k with
  | nil => exact ⟨rfl, rfl⟩
  | cons entry rest ih =>
    obtain ⟨hresult, hkeys⟩ := attempt_none now entry.2 context writeMode k
    have hentry : attemptEntry none now writeMode entry context k =
        attempt none now entry.2 context writeMode k := rfl
    obtain ⟨hresults, hleft⟩ := ih (applyPersistedChangeToContext context
      (processMutationWithContext now entry.2 context writeMode k).result)
      (processMutationWithContext now entry.2 context writeMode k).keys
    simp only [attemptEntries, processEntries, hentry, hresult, hkeys, List.map_cons, hresults,
      hleft, and_self]

/-! ### The handler -/

/-- What happens while a batch is handled. -/
structure Handling where
  /-- `isSnapshotActive` once the activity is refreshed. -/
  activeBefore : Bool
  fail : Option BatchFailure
  /-- `isSnapshotActive` once the batch is processed. -/
  activeAfter : Bool

structure Handled where
  outcomes : List Outcome
  /-- The handler comes to the loop over the results. -/
  announces : Bool
  keys : BoardKeys

inductive Response where
  | syncError (message : String)
  | accepted (handled : Handled)

def processAccepted (cfg : Config) (writeMode : BoardSyncWriteMode) (now : Nat) (h : Handling)
    (mutations : List Mutation) (k : BoardKeys) : Handled :=
  if h.activeBefore = false ∨ h.fail = some .before then
    { outcomes := mutations.map fun mutation => { mutation := mutation }
      announces := false
      keys := k }
  else
    let context := createCachedBoardContext cfg k mutations
    let processed := attemptEntries h.fail now writeMode (entriesOf mutations) context k
    { outcomes := processed.1
      announces := processed.1.all (·.result.isSome) && h.fail ≠ some .after && h.activeAfter
      keys := processed.2 }

/-- The handler, on the keys of the board; `joined` is the board and the permission
    of the socket's context. The shape of the payload is not checked again. -/
def createMutationBatchHandler (cfg : Config) (joined : Option (String × BoardPermission))
    (writeMode : BoardSyncWriteMode) (now : Nat) (h : Handling) (boardId : String)
    (mutations : List Mutation) (k : BoardKeys) : Response :=
  match joined.filter (·.1 == boardId) with
  | none => .syncError "Invalid mutation batch payload"
  | some (_, permission) =>
    if !hasConsistentBatchBoardId boardId mutations then .syncError "Mutation board mismatch"
    else if permission ≠ .edit then .syncError "No edit access to this board"
    else .accepted (processAccepted cfg writeMode now h mutations k)

/-- MUTATION_BROADCAST: every recorded result but `already_applied`. -/
def Handled.isBroadcast (handled : Handled) (o : Outcome) : Bool :=
  handled.announces && o.result.any (·.status ≠ .alreadyApplied)

/-- A mutation is broadcast exactly when it is a transient move or has changed the
    board. -/
def Handled.Announced (handled : Handled) : Prop :=
  ∀ o ∈ handled.outcomes,
    handled.isBroadcast o = true ↔ o.mutation.isTransient = true ∨ o.change.isSome = true

/-! ### One entry -/

/-- The claimed mutation asks for a change. -/
def asksForChange (mutation : Mutation) (context : Dict BoardElement) (k : BoardKeys) : Bool :=
  let requested := requestedChange k context.lookup mutation.operation
  !(requested.upserts.isEmpty && requested.deletes.isEmpty)

/-- The entry comes to the step at which it fails. -/
def Throws (fail : Option FailurePoint) (mutation : Mutation) (context : Dict BoardElement)
    (k : BoardKeys) : Prop :=
  mutation.isTransient = false ∧
    match fail with
    | some (.claim _) => True
    | some .resolve => mutation.mutationId ∉ k.seen ∧ isTurnedAway mutation context = false
    | some .peek => mutation.mutationId ∉ k.seen ∧ asksForChange mutation context k = false
    | some (.sequence _) => mutation.mutationId ∉ k.seen ∧ asksForChange mutation context k = true
    | some (.pipeline _) => mutation.mutationId ∉ k.seen ∧ asksForChange mutation context k = true
    | _ => False

/-- The store begins to write the change of the entry. -/
def Writes (fail : Option FailurePoint) (mutation : Mutation) (context : Dict BoardElement)
    (k : BoardKeys) : Prop :=
  mutation.isTransient = false ∧ mutation.mutationId ∉ k.seen ∧
    asksForChange mutation context k = true ∧
      match fail with
      | some (.claim _) => False
      | some .resolve => False
      | some (.sequence _) => False
      | some (.pipeline executed) => 0 < executed
      | _ => True

section entry
variable {fail : Option FailurePoint} {mutation : Mutation} {context : Dict BoardElement}
  {k : BoardKeys}

/-- What an entry returns and writes. -/
structure EntryOutcome (fail : Option FailurePoint) (mutation : Mutation)
    (context : Dict BoardElement) (k : BoardKeys) (a : Attempt) : Prop where
  throws : a.result = none ↔ Throws fail mutation context k
  writes : a.change.isSome = true ↔ Writes fail mutation context k
  status : ∀ result, a.result = some result →
    (result.status = .alreadyApplied ↔ mutation.isTransient = false ∧ mutation.mutationId ∈ k.seen)
  change : ∀ result, a.result = some result → a.change = result.change

theorem asksForChange_turnedAway (h : isTurnedAway mutation context = true) :
    asksForChange mutation context k = false := by
  unfold isTurnedAway at h
  simp [asksForChange, requestedChange, h]

theorem asksForChange_resolved (h : isTurnedAway mutation context = false) :
    asksForChange mutation context k =
      !((resolvedChanges mutation context k).upserts.isEmpty &&
        (resolvedChanges mutation context k).deletes.isEmpty) := by
  unfold isTurnedAway at h
  simp [asksForChange, requestedChange, resolvedChanges, h]

theorem attemptUnchanged_outcome (hclaim : ∀ marked, fail ≠ some (.claim marked))
    (hresolve : fail = some .resolve → isTurnedAway mutation context = true)
    (htransient : mutation.isTransient = false) (hseen : mutation.mutationId ∉ k.seen)
    (hasks : asksForChange mutation context k = false) (k' : BoardKeys) :
    EntryOutcome fail mutation context k (attemptUnchanged fail mutation k') := by
  constructor
  · unfold attemptUnchanged Throws
    cases fail with
    | none => simp
    | some point => cases point <;> simp_all
  · simp [attemptUnchanged, Writes, hasks]
  · intro result hresult
    simp only [attemptUnchanged] at hresult
    split at hresult
    · cases hresult
    · obtain rfl := Option.some.inj hresult
      simp [unchangedResult, hseen]
  · intro result hresult
    simp only [attemptUnchanged] at hresult
    split at hresult
    · cases hresult
    · obtain rfl := Option.some.inj hresult
      rfl

/-- A claimed mutation; `k` are the keys before the claim. -/
theorem attemptClaimed_outcome (now : Nat) (writeMode : BoardSyncWriteMode) {k' : BoardKeys}
    (helements : k'.elements = k.elements) (hclaim : ∀ marked, fail ≠ some (.claim marked))
    (htransient : mutation.isTransient = false) (hseen : mutation.mutationId ∉ k.seen) :
    EntryOutcome fail mutation context k
      (attemptClaimed fail now mutation context writeMode k') := by
  have hresolved : resolvedChanges mutation context k' = resolvedChanges mutation context k := by
    simp only [resolvedChanges, BoardKeys.elementList, helements]
  unfold attemptClaimed
  rw [hresolved]
  cases haway : isTurnedAway mutation context with
  | true =>
    exact attemptUnchanged_outcome hclaim (fun _ => haway) htransient hseen
      (asksForChange_turnedAway haway) k'
  | false =>
    have hasks := asksForChange_resolved (k := k) haway
    simp only [Bool.false_eq_true, if_false]
    by_cases hresolve : fail = some .resolve
    · rw [if_pos hresolve]
      constructor <;> simp [Throws, Writes, hresolve, htransient, hseen, haway]
    · rw [if_neg hresolve]
      cases hempty : ((resolvedChanges mutation context k).upserts.isEmpty &&
          (resolvedChanges mutation context k).deletes.isEmpty) with
      | true =>
        rw [hempty] at hasks
        exact attemptUnchanged_outcome hclaim (fun h => absurd h hresolve) htransient hseen hasks k'
      | false =>
        rw [hempty] at hasks
        simp only [Bool.false_eq_true, if_false]
        cases fail with
        | none => constructor <;> simp [Throws, Writes, htransient, hseen, hasks]
        | some point =>
          cases point with
          | claim marked => exact absurd rfl (hclaim marked)
          | resolve => exact absurd rfl hresolve
          | pipeline executed =>
            constructor <;> simp [Throws, Writes, htransient, hseen, hasks]
          | _ => constructor <;> simp [Throws, Writes, htransient, hseen, hasks]

theorem attemptWithContext_outcome (fail : Option FailurePoint) (now : Nat) (mutation : Mutation)
    (context : Dict BoardElement) (writeMode : BoardSyncWriteMode) (k : BoardKeys) :
    EntryOutcome fail mutation context k
      (attemptWithContext fail now mutation context writeMode k) := by
  cases htransient : mutation.isTransient with
  | true => constructor <;> simp [attemptWithContext, Throws, Writes, htransient]
  | false =>
    by_cases hclaim : ∃ marked, fail = some (.claim marked)
    · obtain ⟨marked, rfl⟩ := hclaim
      constructor <;> simp [attemptWithContext, Throws, Writes, htransient]
    · have hclaim : ∀ marked, fail ≠ some (.claim marked) := fun marked h => hclaim ⟨marked, h⟩
      rw [attemptWithContext_eq now context writeMode k hclaim htransient]
      by_cases hseen : mutation.mutationId ∈ k.seen
      · rw [if_pos hseen]
        constructor
        · cases fail with
          | none => simp [Throws]
          | some point => cases point <;> simp_all [Throws]
        · simp [Writes, hseen]
        · simp [htransient, hseen]
        · simp
      · rw [if_neg hseen]
        exact attemptClaimed_outcome now writeMode rfl hclaim htransient hseen

end entry

/-! ### The loop over the entries -/

/-- Every entry the loop comes to meets `P` at its turn, on the context and the
    keys it finds. -/
def AtTurns (P : Option FailurePoint → Mutation → Dict BoardElement → BoardKeys → Prop)
    (fail : Option BatchFailure) (now : Nat) (writeMode : BoardSyncWriteMode) :
    List (Nat × Mutation) → Dict BoardElement → BoardKeys → Prop
  | [], _, _ => True
  | entry :: rest, context, k =>
    P (failureAt fail entry.1) entry.2 context k ∧
      ∀ result, (attemptEntry fail now writeMode entry context k).result = some result →
        AtTurns P fail now writeMode rest (applyPersistedChangeToContext context result)
          (attemptEntry fail now writeMode entry context k).keys

section loop
variable {P P' P'' : Option FailurePoint → Mutation → Dict BoardElement → BoardKeys → Prop}
  {fail : Option BatchFailure} {now : Nat} {writeMode : BoardSyncWriteMode}

theorem AtTurns.imp {entries : List (Nat × Mutation)} {context : Dict BoardElement} {k : BoardKeys}
    (h : AtTurns P fail now writeMode entries context k)
    (h' : AtTurns P' fail now writeMode entries context k)
    (himp : ∀ point m context k,
      P point m context k → P' point m context k → P'' point m context k) :
    AtTurns P'' fail now writeMode entries context k := by
  induction entries generalizing context k with
  | nil => trivial
  | cons entry rest ih =>
    exact ⟨himp _ _ _ _ h.1 h'.1,
      fun result hresult => ih (h.2 result hresult) (h'.2 result hresult)⟩

theorem mutation_attemptEntries (fail : Option BatchFailure) (now : Nat)
    (writeMode : BoardSyncWriteMode) (entries : List (Nat × Mutation))
    (context : Dict BoardElement) (k : BoardKeys) :
    (attemptEntries fail now writeMode entries context k).1.map (·.mutation) =
      entries.map (·.2) := by
  induction entries generalizing context k with
  | nil => rfl
  | cons entry rest ih =>
    simp only [attemptEntries]
    split
    · simp
    · simp [ih]

/-- The loop comes to its end when no entry throws. -/
theorem attemptEntries_completes (entries : List (Nat × Mutation)) (context : Dict BoardElement)
    (k : BoardKeys) :
    (∀ o ∈ (attemptEntries fail now writeMode entries context k).1, o.result.isSome = true) ↔
      AtTurns (fun point m context k => ¬ Throws point m context k) fail now writeMode entries
        context k := by
  induction entries generalizing context k with
  | nil => simp [attemptEntries, AtTurns]
  | cons entry rest ih =>
    have hthrows := (attemptWithContext_outcome (failureAt fail entry.1) now entry.2 context
      writeMode k).throws
    simp only [attemptEntries, AtTurns, attemptEntry]
    cases hresult : (attemptWithContext (failureAt fail entry.1) now entry.2 context writeMode
        k).result with
    | none => simp [hthrows.mp hresult]
    | some result =>
      have hgoes : ¬ Throws (failureAt fail entry.1) entry.2 context k := by
        rw [← hthrows, hresult]
        simp
      simp [hgoes, ih]

/-- What each entry comes to at its turn, the outcomes have, as long as it is true
    of an entry the loop does not come to. -/
theorem forall_attemptEntries {Q : Outcome → Prop}
    (huntouched : ∀ m, Q { mutation := m })
    (hentry : ∀ point m context k, Q
        { mutation := m
          result := (attemptWithContext point now m context writeMode k).result
          change := (attemptWithContext point now m context writeMode k).change } ↔
      P point m context k)
    (entries : List (Nat × Mutation)) (context : Dict BoardElement) (k : BoardKeys) :
    (∀ o ∈ (attemptEntries fail now writeMode entries context k).1, Q o) ↔
      AtTurns P fail now writeMode entries context k := by
  induction entries generalizing context k with
  | nil => simp [attemptEntries, AtTurns]
  | cons entry rest ih =>
    have hhead := hentry (failureAt fail entry.1) entry.2 context k
    simp only [attemptEntries, AtTurns, attemptEntry]
    cases hresult : (attemptWithContext (failureAt fail entry.1) now entry.2 context writeMode
        k).result with
    | none =>
      rw [hresult] at hhead
      simp only [List.forall_mem_cons, hhead, List.forall_mem_map, reduceCtorEq, false_implies,
        implies_true, and_true]
      exact and_iff_left fun later _ => huntouched later.2
    | some result =>
      rw [hresult] at hhead
      simp [hhead, ih]

end loop

/-! ### Announcing -/

/-- The entry is passed on, was seen before, or asks for a change. -/
def Effective (mutation : Mutation) (context : Dict BoardElement) (k : BoardKeys) : Prop :=
  mutation.isTransient = true ∨ mutation.mutationId ∈ k.seen ∨
    asksForChange mutation context k = true

/-- The handler comes to its loop: the socket stays, and nothing throws. -/
def Finishes (cfg : Config) (writeMode : BoardSyncWriteMode) (now : Nat) (h : Handling)
    (mutations : List Mutation) (k : BoardKeys) : Prop :=
  (h.activeBefore = true ∧ h.fail ≠ some .before) ∧
    AtTurns (fun point m context k => ¬ Throws point m context k) h.fail now writeMode
      (entriesOf mutations) (createCachedBoardContext cfg k mutations) k ∧
    h.fail ≠ some .after ∧ h.activeAfter = true

/-- A handler that comes to its loop has effective mutations only; one that stops
    early has no transient move, and has begun to write no change. -/
def MayAnnounce (cfg : Config) (writeMode : BoardSyncWriteMode) (now : Nat) (h : Handling)
    (mutations : List Mutation) (k : BoardKeys) : Prop :=
  (Finishes cfg writeMode now h mutations k ∧
      AtTurns (fun _ => Effective) h.fail now writeMode (entriesOf mutations)
        (createCachedBoardContext cfg k mutations) k) ∨
    (¬ Finishes cfg writeMode now h mutations k ∧
      (∀ m ∈ mutations, m.isTransient = false) ∧
      (h.activeBefore = true ∧ h.fail ≠ some .before →
        AtTurns (fun point m context k => ¬ Writes point m context k) h.fail now writeMode
          (entriesOf mutations) (createCachedBoardContext cfg k mutations) k))

/-- A recorded entry is announced rightly exactly when it is effective. -/
theorem status_iff_effective {point : Option FailurePoint} {m : Mutation}
    {context : Dict BoardElement} {k : BoardKeys} {a : Attempt} {result : MutationResult}
    (h : EntryOutcome point m context k a) (hresult : a.result = some result) :
    (result.status ≠ .alreadyApplied ↔ m.isTransient = true ∨ a.change.isSome = true) ↔
      Effective m context k := by
  have hpassed : ¬ Throws point m context k := by
    rw [← h.throws, hresult]
    simp
  rw [Ne, h.status result hresult, h.writes]
  unfold Effective Writes
  cases htransient : m.isTransient with
  | true => simp
  | false =>
    by_cases hseen : m.mutationId ∈ k.seen
    · simp [hseen]
    · cases hasks : asksForChange m context k with
      | false => simp [hseen]
      | true =>
        have haway : isTurnedAway m context = false := by
          rw [← Bool.not_eq_true]
          intro haway
          rw [asksForChange_turnedAway haway] at hasks
          cases hasks
        -- an entry that asks for a change and has not thrown has written it
        cases point with
        | none => simp [hseen]
        | some point => cases point <;> simp_all [Throws]

section announce
variable {fail : Option BatchFailure} {now : Nat} {writeMode : BoardSyncWriteMode}
  {mutations : List Mutation} {context : Dict BoardElement} {k : BoardKeys}

/-- The loop over the results announces rightly exactly the effective entries. -/
theorem announced_of_finishes
    (hfinishes : AtTurns (fun point m context k => ¬ Throws point m context k) fail now writeMode
      (entriesOf mutations) context k) :
    (∀ o ∈ (attemptEntries fail now writeMode (entriesOf mutations) context k).1,
        o.result.any (·.status ≠ .alreadyApplied) = true ↔
          o.mutation.isTransient = true ∨ o.change.isSome = true) ↔
      AtTurns (fun _ => Effective) fail now writeMode (entriesOf mutations) context k := by
  -- no entry throws, so every outcome has a result
  have hrecorded := (attemptEntries_completes _ _ _).mpr hfinishes
  have hwalk : (∀ o ∈ (attemptEntries fail now writeMode (entriesOf mutations) context k).1,
      ∀ result, o.result = some result → (result.status ≠ .alreadyApplied ↔
        o.mutation.isTransient = true ∨ o.change.isSome = true)) ↔
      AtTurns (fun point m context k => ¬ Throws point m context k → Effective m context k) fail now
        writeMode (entriesOf mutations) context k := by
    refine forall_attemptEntries (by simp) (fun point m context k => ?_) _ _ _
    have hentry := attemptWithContext_outcome point now m context writeMode k
    cases hresult : (attemptWithContext point now m context writeMode k).result with
    | none => simp [hentry.throws.mp hresult]
    | some result =>
      have hpassed : ¬ Throws point m context k := by
        rw [← hentry.throws, hresult]
        simp
      have hstatus := status_iff_effective hentry hresult
      simpa [hpassed] using hstatus
  have hresults : (∀ o ∈ (attemptEntries fail now writeMode (entriesOf mutations) context k).1,
        o.result.any (·.status ≠ .alreadyApplied) = true ↔
          o.mutation.isTransient = true ∨ o.change.isSome = true) ↔
      ∀ o ∈ (attemptEntries fail now writeMode (entriesOf mutations) context k).1,
        ∀ result, o.result = some result → (result.status ≠ .alreadyApplied ↔
          o.mutation.isTransient = true ∨ o.change.isSome = true) := by
    refine forall₂_congr fun o ho => ?_
    obtain ⟨result, hresult⟩ := Option.isSome_iff_exists.mp (hrecorded o ho)
    simp [hresult]
  rw [hresults, hwalk]
  constructor
  · intro h
    exact hfinishes.imp h fun _ _ _ _ hpassed heffective => heffective hpassed
  · intro h
    exact h.imp h fun _ _ _ _ heffective _ _ => heffective

/-- Without the loop over the results nothing may need it. -/
theorem announced_of_stops (fail : Option BatchFailure) (now : Nat) (writeMode : BoardSyncWriteMode)
    (mutations : List Mutation) (context : Dict BoardElement) (k : BoardKeys) :
    (∀ o ∈ (attemptEntries fail now writeMode (entriesOf mutations) context k).1,
        ¬ (o.mutation.isTransient = true ∨ o.change.isSome = true)) ↔
      (∀ m ∈ mutations, m.isTransient = false) ∧
        AtTurns (fun point m context k => ¬ Writes point m context k) fail now writeMode
          (entriesOf mutations) context k := by
  have hwrites : (∀ o ∈ (attemptEntries fail now writeMode (entriesOf mutations) context k).1,
      ¬ o.change.isSome = true) ↔
      AtTurns (fun point m context k => ¬ Writes point m context k) fail now writeMode
        (entriesOf mutations) context k := by
    refine forall_attemptEntries (by simp) (fun point m context k => ?_) _ _ _
    exact not_congr (attemptWithContext_outcome point now m context writeMode k).writes
  have htransient : (∀ o ∈ (attemptEntries fail now writeMode (entriesOf mutations) context k).1,
      ¬ o.mutation.isTransient = true) ↔ ∀ m ∈ mutations, m.isTransient = false := by
    have hbatch :=
      (mutation_attemptEntries fail now writeMode (entriesOf mutations) context k).trans
        (map_entriesOf mutations)
    conv_rhs => rw [← hbatch]
    simp
  rw [← hwrites, ← htransient, ← forall₂_and]
  simp only [not_or]

end announce

/-- The handler comes to its loop exactly when it finishes. -/
theorem announces_iff (cfg : Config) (writeMode : BoardSyncWriteMode) (now : Nat) (h : Handling)
    (mutations : List Mutation) (k : BoardKeys) :
    (processAccepted cfg writeMode now h mutations k).announces = true ↔
      Finishes cfg writeMode now h mutations k := by
  unfold processAccepted Finishes
  by_cases hbefore : h.activeBefore = false ∨ h.fail = some .before
  · rw [if_pos hbefore]
    rcases hbefore with hinactive | hfails
    · simp [hinactive]
    · simp [hfails]
  · have hgoes : h.activeBefore = true ∧ h.fail ≠ some .before := by
      simpa using hbefore
    rw [if_neg hbefore]
    simp only [Bool.and_eq_true, decide_eq_true_eq, List.all_eq_true, attemptEntries_completes]
    tauto

/-- Every mutation of an accepted batch is announced rightly exactly when the handler
    finishes with effective mutations only, or stops before it has anything to
    announce. -/
theorem announced_iff {cfg : Config} {joined : Option (String × BoardPermission)}
    {writeMode : BoardSyncWriteMode} {now : Nat} {h : Handling} {boardId : String}
    {mutations : List Mutation} {k : BoardKeys} {handled : Handled}
    (haccepted : createMutationBatchHandler cfg joined writeMode now h boardId mutations k =
      .accepted handled) :
    handled.Announced ↔ MayAnnounce cfg writeMode now h mutations k := by
  have hhandled : handled = processAccepted cfg writeMode now h mutations k := by
    unfold createMutationBatchHandler at haccepted
    split at haccepted
    · cases haccepted
    · split at haccepted
      · cases haccepted
      · split at haccepted
        · cases haccepted
        · exact (Response.accepted.inj haccepted).symm
  rw [hhandled]
  unfold processAccepted
  by_cases hbefore : h.activeBefore = false ∨ h.fail = some .before
  · -- nothing is processed, and nothing broadcast
    have hstops : ¬ (h.activeBefore = true ∧ h.fail ≠ some .before) := by
      rintro ⟨hactive, hfail⟩
      rcases hbefore with hinactive | hfails
      · rw [hactive] at hinactive
        cases hinactive
      · exact hfail hfails
    rw [if_pos hbefore]
    simp [Handled.Announced, Handled.isBroadcast, MayAnnounce, Finishes, hstops]
  · have hgoes : h.activeBefore = true ∧ h.fail ≠ some .before := by
      simpa using hbefore
    have hannounces := announces_iff cfg writeMode now h mutations k
    simp only [processAccepted, if_neg hbefore] at hannounces
    rw [if_neg hbefore]
    by_cases hfinishes : Finishes cfg writeMode now h mutations k
    · have hloop := announced_of_finishes hfinishes.2.1
      simp only [Handled.Announced, Handled.isBroadcast, hannounces.mpr hfinishes, Bool.true_and]
      rw [hloop]
      simp [MayAnnounce, hfinishes]
    · have hloop := announced_of_stops h.fail now writeMode mutations
        (createCachedBoardContext cfg k mutations) k
      have hquiet := Bool.eq_false_iff.mpr (mt hannounces.mp hfinishes)
      simp only [Handled.Announced, Handled.isBroadcast, hquiet, Bool.false_and, Bool.false_eq_true,
        false_iff]
      rw [hloop]
      simp [MayAnnounce, hfinishes, hgoes]

/-- A socket that stays creates a note. -/
theorem announced_iff_created :
    ∃ handled, createMutationBatchHandler {} (some ("b", .edit)) .collab 0 ⟨true, none, true⟩ "b"
        [createNote] { seq := some 0 } = .accepted handled ∧
      (handled.Announced ↔
        MayAnnounce {} .collab 0 ⟨true, none, true⟩ [createNote] { seq := some 0 }) := by
  obtain ⟨handled, haccepted⟩ : ∃ handled,
      createMutationBatchHandler {} (some ("b", .edit)) .collab 0
      ⟨true, none, true⟩ "b" [createNote] { seq := some 0 } = .accepted handled := ⟨_, rfl⟩
  exact ⟨handled, haccepted, announced_iff haccepted⟩

/-- The mutation that patches a note the board does not have. -/
def patchMissing : Mutation where
  mutationId := "m"
  boardId := "b"
  operation := .updateElement "x" {}

/-- A socket disconnects while its note is created: the change stays unannounced.
    A patch that finds no note is broadcast. -/
theorem lost_socket_stays_silent :
    (∃ handled, createMutationBatchHandler {} (some ("b", .edit)) .collab 0 ⟨true, none, false⟩ "b"
        [createNote] { seq := some 0 } = .accepted handled ∧ ¬ handled.Announced) ∧
      ∃ handled, createMutationBatchHandler {} (some ("b", .edit)) .collab 0 ⟨true, none, true⟩ "b"
        [patchMissing] { seq := some 0 } = .accepted handled ∧ ¬ handled.Announced := by
  constructor
  · obtain ⟨handled, o, hhandled, ho, hquiet, hchanged⟩ : ∃ handled o,
        createMutationBatchHandler {} (some ("b", .edit)) .collab 0 ⟨true, none, false⟩ "b"
          [createNote] { seq := some 0 } = .accepted handled ∧ handled.outcomes = [o] ∧
        handled.isBroadcast o = false ∧ o.change.isSome = true := ⟨_, _, rfl, rfl, rfl, rfl⟩
    refine ⟨handled, hhandled, fun hannounced => ?_⟩
    have hbroadcast := (hannounced o (by simp [ho])).mpr (.inr hchanged)
    rw [hquiet] at hbroadcast
    cases hbroadcast
  · obtain ⟨handled, o, hhandled, ho, hbroadcast, htransient, hunchanged⟩ : ∃ handled o,
        createMutationBatchHandler {} (some ("b", .edit)) .collab 0 ⟨true, none, true⟩ "b"
          [patchMissing] { seq := some 0 } = .accepted handled ∧ handled.outcomes = [o] ∧
        handled.isBroadcast o = true ∧ o.mutation.isTransient = false ∧ o.change.isSome = false :=
      ⟨_, _, rfl, rfl, rfl, rfl, rfl⟩
    refine ⟨handled, hhandled, fun hannounced => ?_⟩
    rcases (hannounced o (by simp [ho])).mp hbroadcast with htransient' | hchanged
    · rw [htransient] at htransient'
      cases htransient'
    · rw [hunchanged] at hchanged
      cases hchanged

end Notebortt.MutationBatchHandler
