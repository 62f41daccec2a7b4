import Notebortt.Mutations.Processor

/-! # Failures while a mutation is processed

    A call of `processMutation` that throws at one of its awaited steps, and what
    a later submission of the same mutation is told. A command whose reply is lost
    may or may not have reached the store. -/

namespace Notebortt

/-! ### Failing calls -/

/-- The awaited step at which a call throws. -/
inductive FailurePoint where
  /-- The mutation lock, the cached context or the write mode. -/
  | beforeClaim
  /-- `tryMarkSeen`; the store has, or has not, set the marker. -/
  | claim (marked : Bool)
  /-- The GET of the sequence for a mutation that changes nothing. -/
  | peek
  /-- The wait, or the read for the cascade, at the head of `applyChangeSet`. -/
  | resolve
  /-- `getSequence`; the store has, or has not, done the INCR. -/
  | sequence (counted : Bool)
  /-- The pipeline; the store has run its first commands. -/
  | pipeline (executed : Nat)
  /-- The collab marker, the write-through or the release of the lock. -/
  | afterwards
  deriving DecidableEq

structure Attempt where
  /-- What the call returns; `none` when it throws. -/
  result : Option MutationResult
  /-- The mutation was carried to its end: its change was applied, or it was found
      blocked, rejected or empty. -/
  ended : Bool
  /-- The change the store has begun to write. -/
  change : Option PersistedElementChange := none
  keys : BoardKeys

def attemptUnchanged (fail : Option FailurePoint) (mutation : Mutation) (k : BoardKeys) :
    Attempt where
  result := if fail = some .peek then none else some (unchangedResult mutation k).result
  ended := true
  keys := k

/-- The change set that a mutation comes down to. -/
def resolvedChanges (mutation : Mutation) (context : Dict BoardElement) (k : BoardKeys) :
    ElementChangeSet :=
  resolveChangeSet k.elementList (toChangeSet context.lookup mutation.operation)

/-- The lock rules, or the validation, turn the mutation away. -/
def isTurnedAway (mutation : Mutation) (context : Dict BoardElement) : Bool :=
  isMutationBlockedByLock mutation.operation context.lookup
    || (validateReconcileMonthRange mutation.operation context.lookup).isSome

/-- `processClaimed`, failing. -/
def attemptClaimed (fail : Option FailurePoint) (now : Nat) (mutation : Mutation)
    (context : Dict BoardElement) (writeMode : BoardSyncWriteMode) (k : BoardKeys) : Attempt :=
  if isTurnedAway mutation context then attemptUnchanged fail mutation k
  else if fail = some .resolve then { result := none, ended := false, keys := k }
  else
    let changes := resolvedChanges mutation context k
    if changes.upserts.isEmpty && changes.deletes.isEmpty then attemptUnchanged fail mutation k
    else
      let numbered := getSequence k
      let change : PersistedElementChange :=
        { sequence := numbered.1, upserts := changes.upserts, deletes := changes.deletes }
      let commands := writePipeline (writeMode = .collab) now change
      match fail with
      | some (.sequence counted) =>
        { result := none, ended := false, keys := if counted then numbered.2 else k }
      -- the store has run the commands up to the failure
      | some (.pipeline executed) =>
        { result := none
          ended := commands.length ≤ executed
          change := if 0 < executed then some change else none
          keys := runPipeline (commands.take executed) numbered.2 }
      | _ =>
        { result := some
            { mutationId := mutation.mutationId, status := .applied
              sequence := some change.sequence, change := some change }
          ended := true
          change := some change
          keys := runPipeline commands numbered.2 }

/-- `processMutationWithContext`, failing. -/
def attemptWithContext (fail : Option FailurePoint) (now : Nat) (mutation : Mutation)
    (context : Dict BoardElement) (writeMode : BoardSyncWriteMode) (k : BoardKeys) : Attempt :=
  if mutation.isTransient then
    { result := some { mutationId := mutation.mutationId, status := .broadcastOnly }
      ended := false, keys := k }
  else
    match fail with
    | some (.claim marked) =>
      { result := none, ended := false
        keys := if marked then (tryMarkSeen mutation.mutationId k).2 else k }
    | _ =>
      match tryMarkSeen mutation.mutationId k with
      | (false, k) =>
        { result := some { mutationId := mutation.mutationId, status := .alreadyApplied }
          ended := false, keys := k }
      | (true, k) => attemptClaimed fail now mutation context writeMode k

/-- A call of `processMutation`, up to what follows the processing. -/
def attempt (fail : Option FailurePoint) (now : Nat) (mutation : Mutation)
    (context : Dict BoardElement) (writeMode : BoardSyncWriteMode) (k : BoardKeys) : Attempt :=
  match fail with
  | some .beforeClaim => { result := none, ended := false, keys := k }
  | some .afterwards =>
    { attemptWithContext none now mutation context writeMode k with result := none }
  | _ => attemptWithContext fail now mutation context writeMode k

theorem attemptClaimed_none (now : Nat) (mutation : Mutation) (context : Dict BoardElement)
    (writeMode : BoardSyncWriteMode) (k : BoardKeys) :
    (attemptClaimed none now mutation context writeMode k).result =
        some (processClaimed now mutation context writeMode k).result ∧
      (attemptClaimed none now mutation context writeMode k).keys =
        (processClaimed now mutation context writeMode k).keys := by
  unfold attemptClaimed processClaimed isTurnedAway applyChangeSet resolvedChanges
  cases isMutationBlockedByLock mutation.operation context.lookup with
  | true => exact ⟨rfl, rfl⟩
  | false =>
    cases (validateReconcileMonthRange mutation.operation context.lookup).isSome with
    | true => exact ⟨rfl, rfl⟩
    | false =>
      simp only [Bool.or_false, Bool.false_eq_true, if_false, reduceCtorEq]
      split
      · exact ⟨rfl, rfl⟩
      · exact ⟨rfl, rfl⟩

/-- Without a failure the call is the one of the processor. -/
theorem attempt_none (now : Nat) (mutation : Mutation) (context : Dict BoardElement)
    (writeMode : BoardSyncWriteMode) (k : BoardKeys) :
    (attempt none now mutation context writeMode k).result =
        some (processMutationWithContext now mutation context writeMode k).result ∧
      (attempt none now mutation context writeMode k).keys =
        (processMutationWithContext now mutation context writeMode k).keys := by
  simp only [attempt, attemptWithContext, processMutationWithContext]
  split
  · exact ⟨rfl, rfl⟩
  · cases tryMarkSeen mutation.mutationId k with
    | mk claimed k =>
      cases claimed with
      | false => exact ⟨rfl, rfl⟩
      | true => exact attemptClaimed_none now mutation context writeMode k

/-! ### Retrying -/

/-- A later submission is told `already_applied` only when this attempt, or an
    earlier one, carried the mutation to its end. Whatever happened in between, it
    has not marked the mutation. -/
def Attempt.Retryable (a : Attempt) (mutation : Mutation) (endedBefore : Bool) : Prop :=
  ∀ now context writeMode k, (mutation.mutationId ∈ k.seen → mutation.mutationId ∈ a.keys.seen) →
    (processMutationWithContext now mutation context writeMode k).result.status = .alreadyApplied →
      endedBefore = true ∨ a.ended = true

/-- The failure falls after the store has set the marker, and before the end of the
    mutation. -/
def Strands (fail : Option FailurePoint) (now : Nat) (mutation : Mutation)
    (context : Dict BoardElement) (writeMode : BoardSyncWriteMode) (k : BoardKeys) : Prop :=
  let changes := resolvedChanges mutation context k
  let isEmpty := changes.upserts.isEmpty && changes.deletes.isEmpty
  mutation.isTransient = false ∧
    match fail with
    | some (.claim marked) => marked = true
    | some .resolve => isTurnedAway mutation context = false
    | some (.sequence _) => isTurnedAway mutation context = false ∧ isEmpty = false
    | some (.pipeline executed) =>
      isTurnedAway mutation context = false ∧ isEmpty = false ∧
        executed < (writePipeline (writeMode = .collab) now
          ⟨(getSequence k).1, changes.upserts, changes.deletes⟩).length
    | _ => False

theorem tryMarkSeen_of_not_mem {mutationId : String} {k : BoardKeys} (h : mutationId ∉ k.seen) :
    tryMarkSeen mutationId k = (true, { k with seen := k.seen.add [mutationId] }) := by
  rw [tryMarkSeen, if_neg h]

/-- A call that does not fail at the claim finds the marker, or goes on with it set. -/
theorem attemptWithContext_eq {fail : Option FailurePoint} {mutation : Mutation} (now : Nat)
    (context : Dict BoardElement) (writeMode : BoardSyncWriteMode) (k : BoardKeys)
    (hclaim : ∀ marked, fail ≠ some (.claim marked)) (htransient : mutation.isTransient = false) :
    attemptWithContext fail now mutation context writeMode k =
      if mutation.mutationId ∈ k.seen then
        { result := some { mutationId := mutation.mutationId, status := .alreadyApplied }
          ended := false, keys := k }
      else attemptClaimed fail now mutation context writeMode
        { k with seen := k.seen.add [mutation.mutationId] } := by
  -- a failure at another point does not reach the claim
  have hgoes : attemptWithContext fail now mutation context writeMode k =
      match tryMarkSeen mutation.mutationId k with
      | (false, k) =>
        { result := some { mutationId := mutation.mutationId, status := .alreadyApplied }
          ended := false, keys := k }
      | (true, k) => attemptClaimed fail now mutation context writeMode k := by
    unfold attemptWithContext
    rw [htransient]
    cases fail with
    | none => rfl
    | some point =>
      cases point with
      | claim marked => exact absurd rfl (hclaim marked)
      | _ => rfl
  rw [hgoes]
  by_cases hseen : mutation.mutationId ∈ k.seen
  · rw [tryMarkSeen, if_pos hseen, if_pos hseen]
  · rw [tryMarkSeen_of_not_mem hseen, if_neg hseen]

/-- A later submission is told `already_applied` exactly when it finds the marker. -/
theorem status_eq_alreadyApplied {now : Nat} {mutation : Mutation} {context : Dict BoardElement}
    {writeMode : BoardSyncWriteMode} {k : BoardKeys} :
    (processMutationWithContext now mutation context writeMode k).result.status = .alreadyApplied ↔
      mutation.isTransient = false ∧ mutation.mutationId ∈ k.seen := by
  unfold processMutationWithContext
  split
  · next htransient => simp [htransient]
  · next htransient =>
    by_cases hseen : mutation.mutationId ∈ k.seen
    · simp [tryMarkSeen, hseen, htransient]
    · rw [tryMarkSeen_of_not_mem hseen]
      simp only [hseen, and_false, iff_false]
      unfold processClaimed
      split
      · simp [unchangedResult]
      · split
        · simp [unchangedResult]
        · split <;> simp [unchangedResult]

/-- A failure strands nothing where the mutation is turned away, or comes to no change. -/
theorem not_strands_of_unchanged {fail : Option FailurePoint} {mutation : Mutation}
    {context : Dict BoardElement} (now : Nat) (writeMode : BoardSyncWriteMode) (k : BoardKeys)
    (hclaim : ∀ marked, fail ≠ some (.claim marked))
    (h : isTurnedAway mutation context = true ∨ fail ≠ some .resolve ∧
      ((resolvedChanges mutation context k).upserts.isEmpty &&
        (resolvedChanges mutation context k).deletes.isEmpty) = true) :
    ¬ Strands fail now mutation context writeMode k := by
  unfold Strands
  rintro ⟨-, hstrands⟩
  cases fail with
  | none => exact hstrands
  | some point =>
    cases point with
    | claim marked => exact hclaim marked rfl
    | resolve => simp_all
    | sequence counted => simp_all
    | pipeline executed => simp_all
    | _ => exact hstrands

/-- Past its claim a call keeps the marker, and is carried to its end unless it
    fails in between. -/
theorem attemptClaimed_spec {fail : Option FailurePoint} {mutation : Mutation} (now : Nat)
    (context : Dict BoardElement) (writeMode : BoardSyncWriteMode) (k : BoardKeys)
    (hclaim : ∀ marked, fail ≠ some (.claim marked)) (htransient : mutation.isTransient = false) :
    (attemptClaimed fail now mutation context writeMode k).keys.seen = k.seen ∧
      ((attemptClaimed fail now mutation context writeMode k).ended = false ↔
        Strands fail now mutation context writeMode k) := by
  unfold attemptClaimed
  cases haway : isTurnedAway mutation context with
  | true =>
    have hnot := not_strands_of_unchanged now writeMode k hclaim
      (.inl haway)
    simp [attemptUnchanged, hnot]
  | false =>
    rw [if_neg Bool.false_ne_true]
    by_cases hresolve : fail = some .resolve
    · simp [hresolve, Strands, htransient, haway]
    · rw [if_neg hresolve]
      cases hempty : ((resolvedChanges mutation context k).upserts.isEmpty &&
          (resolvedChanges mutation context k).deletes.isEmpty) with
      | true =>
        have hnot := not_strands_of_unchanged now writeMode k hclaim
          (.inr ⟨hresolve, hempty⟩)
        simp [attemptUnchanged, hempty, hnot]
      | false =>
        simp only [Strands, htransient, haway, hempty, Bool.false_eq_true, if_false, true_and]
        -- numbered: only the INCR and the pipeline are left to fail
        cases fail with
        | none => simp [seen_runPipeline, getSequence]
        | some point =>
          cases point with
          | claim marked => exact absurd rfl (hclaim marked)
          | resolve => exact absurd rfl hresolve
          | sequence counted => cases counted <;> simp [getSequence]
          | pipeline executed =>
            refine ⟨seen_runPipeline _ _, ?_⟩
            simp only [decide_eq_false_iff_not, Nat.not_le]
          | _ => simp [seen_runPipeline, getSequence]

/-- An attempt on a mutation not seen before leaves the marker behind without an
    end exactly when its failure strands it. -/
theorem attempt_strands {fail : Option FailurePoint} {now : Nat} {mutation : Mutation}
    {context : Dict BoardElement} {writeMode : BoardSyncWriteMode} {k : BoardKeys}
    (hnew : mutation.mutationId ∉ k.seen) (htransient : mutation.isTransient = false) :
    mutation.mutationId ∈ (attempt fail now mutation context writeMode k).keys.seen ∧
        (attempt fail now mutation context writeMode k).ended = false ↔
      Strands fail now mutation context writeMode k := by
  have hadded : mutation.mutationId ∈ k.seen.add [mutation.mutationId] := by
    rw [IdSet.mem_add]
    exact .inl (List.mem_singleton_self _)
  -- a call whose claim succeeds goes on with the marker set
  have hclaimed : ∀ point, point ≠ some .beforeClaim → point ≠ some .afterwards →
      (∀ marked, point ≠ some (.claim marked)) →
      (mutation.mutationId ∈ (attemptWithContext point now mutation context writeMode k).keys.seen ∧
        (attemptWithContext point now mutation context writeMode k).ended = false ↔
          Strands point now mutation context writeMode k) := by
    intro point _ _ hnotClaim
    have hgoes := attemptWithContext_eq now context writeMode k hnotClaim htransient
    rw [if_neg hnew] at hgoes
    obtain ⟨hseen, hended⟩ := attemptClaimed_spec now context writeMode
      { k with seen := k.seen.add [mutation.mutationId] } hnotClaim htransient
    rw [hgoes, hseen, hended]
    exact and_iff_right hadded
  cases fail with
  | none => exact hclaimed none (by simp) (by simp) (by simp)
  | some point =>
    cases point with
    | beforeClaim => simp [attempt, hnew, Strands]
    | afterwards =>
      have hends := hclaimed none (by simp) (by simp) (by simp)
      simpa [attempt, Strands] using hends
    | claim marked =>
      cases marked <;>
        simp [attempt, attemptWithContext, htransient, tryMarkSeen_of_not_mem hnew, hnew, hadded,
          Strands]
    | _ => exact hclaimed _ (by simp) (by simp) (by simp)

/-- A failed attempt leaves the mutation retryable exactly when it does not strand
    the marker; `endedBefore` tells whether an earlier call carried the mutation to
    its end. -/
theorem retryable_iff {endedBefore : Bool} {fail : Option FailurePoint} {now : Nat}
    {mutation : Mutation} {context : Dict BoardElement} {writeMode : BoardSyncWriteMode}
    {k : BoardKeys} (hbefore : mutation.mutationId ∈ k.seen → endedBefore = true) :
    (attempt fail now mutation context writeMode k).Retryable mutation endedBefore ↔
      endedBefore = true ∨ ¬ Strands fail now mutation context writeMode k := by
  constructor
  · intro hretry
    by_cases hended : endedBefore = true
    · exact .inl hended
    · refine .inr fun hstrands => ?_
      have hnew : mutation.mutationId ∉ k.seen := fun hseen => hended (hbefore hseen)
      have htransient : mutation.isTransient = false := hstrands.1
      obtain ⟨hmarked, hnot⟩ := (attempt_strands hnew htransient).mpr hstrands
      -- the next submission finds the marker
      rcases hretry now context writeMode _ id
          (status_eq_alreadyApplied.mpr ⟨htransient, hmarked⟩) with hearlier | hthis
      · exact hended hearlier
      · rw [hnot] at hthis
        cases hthis
  · intro hwhen now' context' writeMode' k' hmarkers hstatus
    obtain ⟨htransient, hseen⟩ := status_eq_alreadyApplied.mp hstatus
    by_cases hended : endedBefore = true
    · exact .inl hended
    · have hnew : mutation.mutationId ∉ k.seen := fun hseen => hended (hbefore hseen)
      have hstrands := hwhen.resolve_left hended
      rw [← attempt_strands hnew htransient] at hstrands
      right
      by_contra hnot
      exact hstrands ⟨hmarkers hseen, Bool.eq_false_iff.mpr hnot⟩

/-- The mutation that creates the note `x`. -/
def createNote : Mutation where
  mutationId := "m"
  boardId := "b"
  operation := .createElement "x" ⟨"x", ∅⟩

/-- A first call whose claim is lost on the way to the store. -/
theorem retryable_iff_lostClaim :
    ("m" ∈ ({ seq := some 0 } : BoardKeys).seen → false = true) ∧
      ((attempt (some (.claim false)) 0 createNote ∅ .collab { seq := some 0 }).Retryable createNote
        false ↔ false = true ∨
          ¬ Strands (some (.claim false)) 0 createNote ∅ .collab { seq := some 0 }) :=
  ⟨fun hseen => absurd hseen (AList.notMem_empty "m"),
    retryable_iff fun hseen => absurd hseen (AList.notMem_empty "m")⟩

/-- The connection fails at the INCR: nothing is written, and the retry is told that
    the mutation is applied. -/
theorem failed_sequence_strands :
    ¬ (attempt (some (.sequence false)) 0 createNote ∅ .collab { seq := some 0 }).Retryable
      createNote
      false := by
  intro hretry
  rcases hretry 0 ∅ .collab
      (attempt (some (.sequence false)) 0 createNote ∅ .collab { seq := some 0 }).keys id rfl with
    hbefore | hended
  · cases hbefore
  · have hnot : (attempt (some (.sequence false)) 0 createNote ∅ .collab { seq := some 0 }).ended =
        false := rfl
    rw [hnot] at hended
    cases hended

end Notebortt
