import Notebortt.Mutations.TargetedContext

/-! # A batch against its mutations one after the other

    `processBatch` reads its context once and patches it after each mutation;
    `processMutation` reads one of its own every time. The lock rules look at
    the elements an operation repositions and at their containers. The batch
    holds the elements themselves, but not a container that an element has come
    by since the batch began, so the comparison is made step by step, on the
    state before the step. -/

namespace Notebortt

/-! ### The change a mutation asks for -/

/-- What a claimed mutation is about to write; nothing when the rules turn it away. -/
def requestedChange (k : BoardKeys) (context : LockContext) (operation : Operation) :
    ElementChangeSet :=
  if isMutationBlockedByLock operation context
      || (validateReconcileMonthRange operation context).isSome then
    { upserts := [], deletes := [] }
  else resolveChangeSet k.elementList (toChangeSet context operation)

/-- The answer to a claimed mutation, from the change it asks for. -/
def writeRequested (now : Nat) (mutation : Mutation) (writeMode : BoardSyncWriteMode)
    (requested : ElementChangeSet) (k : BoardKeys) : Processed :=
  if requested.upserts.isEmpty && requested.deletes.isEmpty then unchangedResult mutation k
  else
    let numbered := getSequence k
    let change : PersistedElementChange :=
      { sequence := numbered.1, upserts := requested.upserts, deletes := requested.deletes }
    { result :=
        { mutationId := mutation.mutationId, status := .applied
          sequence := some change.sequence, change := some change }
      appliedCanonicalChange := true
      keys := runPipeline (writePipeline (writeMode = .collab) now change) numbered.2 }

/-- The context enters the processing of a claimed mutation only by the change
    it makes the mutation ask for. -/
theorem processClaimed_eq (now : Nat) (mutation : Mutation) (context : Dict BoardElement)
    (writeMode : BoardSyncWriteMode) (k : BoardKeys) :
    processClaimed now mutation context writeMode k =
      writeRequested now mutation writeMode
        (requestedChange k context.lookup mutation.operation) k := by
  unfold processClaimed requestedChange
  cases hlock : isMutationBlockedByLock mutation.operation context.lookup with
  | true => rfl
  | false =>
    cases hvalidate : (validateReconcileMonthRange mutation.operation context.lookup).isSome with
    | true => rfl
    | false =>
      simp only [Bool.false_eq_true, if_false, Bool.or_self, applyChangeSet, writeRequested]
      cases hempty : (resolveChangeSet k.elementList
          (toChangeSet context.lookup mutation.operation)).upserts.isEmpty &&
        (resolveChangeSet k.elementList
          (toChangeSet context.lookup mutation.operation)).deletes.isEmpty with
      | true => rfl
      | false => rfl

theorem subset_visitChildren {children deletes pending : List String} :
    deletes ⊆ (visitChildren children deletes pending).1 := by
  unfold visitChildren
  induction children generalizing deletes pending with
  | nil => exact List.Subset.refl _
  | cons c cs ih =>
    rw [List.foldl_cons]
    split
    · exact ih
    · intro id hid
      exact ih (List.mem_append_left _ hid)

theorem subset_cascadeLoop {allElements : List BoardElement} {n : Nat}
    {pending deletes : List String} : deletes ⊆ cascadeLoop allElements n pending deletes := by
  induction n generalizing pending deletes with
  | zero => exact List.Subset.refl _
  | succ n ih =>
    cases pending with
    | nil => exact List.Subset.refl _
    | cons currentId pending => exact List.Subset.trans subset_visitChildren ih

/-- The requested ids are among the ids a deletion takes out. -/
theorem subset_collectCascadeDeleteIds {allElements : List BoardElement} {requested : List String} :
    requested ⊆ collectCascadeDeleteIds allElements requested := by
  intro id hid
  exact subset_cascadeLoop (mem_toSet.mpr hid)

/-- The change set of an operation depends on the elements it touches. -/
theorem toChangeSet_congr {operation : Operation} {c c' : LockContext}
    (h : ∀ id ∈ touchedIds operation, c id = c' id) :
    toChangeSet c operation = toChangeSet c' operation := by
  have hupsert : ∀ id transform, c id = c' id →
      toUpsertFromCache c id transform = toUpsertFromCache c' id transform := by
    intro id transform hid
    simp [toUpsertFromCache, hid]
  cases operation with
  | createElement elementId data => rfl
  | deleteElements elementIds => rfl
  | reconcileMonthRange metaId upserts deletes => rfl
  | updateElement elementId fields =>
    simp only [toChangeSet, hupsert elementId _ (h _ (by simp [touchedIds]))]
  | reorderElement elementId zIndex =>
    simp only [toChangeSet, hupsert elementId _ (h _ (by simp [touchedIds]))]
  | moveElements moves transient =>
    simp only [toChangeSet]
    congr 1
    refine List.flatMap_congr fun move hmove => hupsert _ _ (h _ ?_)
    exact List.mem_map.mpr ⟨move, hmove, rfl⟩
  | updateElements updates =>
    simp only [toChangeSet]
    congr 1
    refine List.flatMap_congr fun u hu => hupsert _ _ (h _ ?_)
    exact List.mem_map.mpr ⟨u, hu, rfl⟩

/-! ### What the batch holds -/

/-- The board restricted to the ids the batch has read or written so far. -/
def shown (held : List String) (elementsById : LockContext) : LockContext := fun id =>
  if id ∈ held then elementsById id else none

/-- What an operation repositions: the ids, with the fields of the patch if there is one. -/
def repositions : Operation → List (String × Option ElementFields)
  | .moveElements moves _ => moves.map fun move => (move.elementId, none)
  | .updateElement elementId fields =>
    if isPositionPatch fields then [(elementId, some fields)] else []
  | .updateElements updates =>
    (updates.filter (isPositionPatch ·.fields)).map fun u => (u.elementId, some u.fields)
  | _ => []

/-- The container keeps the element where it is: it is locked, or it is the managed meta that the
    element is in. -/
def keepsPlace (containerId : String) (container element : BoardElement) : Bool :=
  isElementLocked container ||
    (element.str? "metaContainerId" == some containerId &&
      (container.fields.lookup "monthRange").isSome)

/-- Every container that keeps an element the operation repositions is held, or what is held blocks
    the operation anyway. -/
def SeesContainers (cfg : Config) (held : List String) (elementsById : LockContext)
    (operation : Operation) : Prop :=
  isMutationBlockedByLock operation (shown held elementsById) = true ∨
    ∀ r ∈ repositions operation, ∀ e, readable cfg elementsById r.1 = some e →
      ∀ p ∈ parentIds e, ∀ container, readable cfg elementsById p = some container →
        keepsPlace p container e = true → p ∈ held

/-- The operation has nothing to do with an element that the batch holds under the empty id, which
    targeted reads drop. -/
def LeavesEmptyId (cfg : Config) (held : List String) (elementsById : LockContext)
    (operation : Operation) : Prop :=
  cfg.enableTargetedMutationReads = true → "" ∈ held → elementsById "" ≠ none →
    "" ∉ touchedIds operation ∧ "" ∉ referencedMetaIds operation ∧
      ∀ id ∈ touchedIds operation, ∀ e, elementsById id = some e → "" ∉ parentIds e

/-- The elements held suffice for an operation: a creation does not go into a managed meta that is
    held, a deletion takes no held element out of a held managed meta, and for the other operations
    the containers that count are held. -/
def HeldSuffices (cfg : Config) (held : List String) (elementsById : LockContext)
    (operation : Operation) : Prop :=
  match operation with
  | .createElement _ data => createsIntoManagedMeta (shown held elementsById) data = false
  | .deleteElements elementIds =>
    elementIds.any (isDeleteBlocked (shown held elementsById) elementIds) = false
  | operation =>
    SeesContainers cfg held elementsById operation ∧ LeavesEmptyId cfg held elementsById operation

/-- The ids an operation reads ahead, and the metas its payload names. -/
def ownReads (operation : Operation) : List String :=
  touchedIds operation ++ referencedMetaIds operation

/-- Of these ids the board has none that is not held. -/
def Covers (cfg : Config) (held : List String) (elementsById : LockContext) (ids : List String) :
    Prop :=
  ∀ id ∈ ids, id ∈ held ∨ readable cfg elementsById id = none

/-! ### What blocks an operation -/

section blocks
variable {c c' : LockContext} {operation : Operation}

theorem isHeld_iff {e : BoardElement} :
    isHeld c e = true ↔ isElementLocked e = true ∨
      ∃ p ∈ parentIds e, ∃ container, c p = some container ∧ keepsPlace p container e = true := by
  have hinside : isInsideLockedContainer c e = true ↔
      ∃ p ∈ parentIds e, ∃ container, c p = some container ∧ isElementLocked container = true := by
    unfold isInsideLockedContainer
    rw [List.any_eq_true]
    refine exists_congr fun p => and_congr_right fun _ => ?_
    cases c p <;> simp
  have hmanaged : isInsideManagedMeta c e = true ↔
      ∃ p ∈ parentIds e, ∃ container, c p = some container ∧
        (e.str? "metaContainerId" = some p ∧
          (container.fields.lookup "monthRange").isSome = true) := by
    unfold isInsideManagedMeta
    cases hmeta : e.str? "metaContainerId" with
    | none => simp
    | some metaId =>
      simp only [isManaged, Option.some.injEq]
      constructor
      · intro h
        cases hc : c metaId with
        | none => rw [hc] at h; cases h
        | some container =>
          rw [hc] at h
          exact ⟨metaId, mem_parentIds_of_meta hmeta, container, hc, rfl, h⟩
      · rintro ⟨p, _, container, hc, rfl, h⟩
        rw [hc]
        exact h
  simp only [isHeld, Bool.or_eq_true, hinside, hmanaged, keepsPlace, Bool.and_eq_true, beq_iff_eq]
  constructor
  · rintro ((h | ⟨p, hp, container, hc, h⟩) | ⟨p, hp, container, hc, h⟩)
    · exact .inl h
    · exact .inr ⟨p, hp, container, hc, .inl h⟩
    · exact .inr ⟨p, hp, container, hc, .inr h⟩
  · rintro (h | ⟨p, hp, container, hc, h | h⟩)
    · exact .inl (.inl h)
    · exact .inl (.inr ⟨p, hp, container, hc, h⟩)
    · exact .inr ⟨p, hp, container, hc, h⟩

/-- The element with its patch is turned away. -/
def Blocks (c : LockContext) (r : String × Option ElementFields) : Prop :=
  ∃ e, c r.1 = some e ∧
    (isHeld c e = true ∨ ∃ fields ∈ r.2, patchesIntoManagedMeta c e fields = true)

theorem isPatchBlocked_iff {elementId : String} {fields : ElementFields} :
    isPatchBlocked c elementId fields = true ↔
      isPositionPatch fields = true ∧ Blocks c (elementId, some fields) := by
  unfold isPatchBlocked Blocks
  cases isPositionPatch fields <;> cases c elementId <;> simp

/-- An operation that reads ahead is blocked at one of the elements it repositions. -/
theorem isMutationBlockedByLock_iff (hop : operation.readsAhead = true) :
    isMutationBlockedByLock operation c = true ↔ ∃ r ∈ repositions operation, Blocks c r := by
  cases operation with
  | createElement elementId data => cases hop
  | deleteElements elementIds => cases hop
  | reorderElement elementId zIndex => simp [isMutationBlockedByLock, repositions]
  | reconcileMonthRange metaId upserts deletes => simp [isMutationBlockedByLock, repositions]
  | updateElement elementId fields =>
    simp only [isMutationBlockedByLock, isPatchBlocked_iff, repositions]
    cases isPositionPatch fields <;> simp
  | moveElements moves transient =>
    simp only [isMutationBlockedByLock, repositions, List.any_eq_true, List.mem_map,
      exists_exists_and_eq_and]
    refine exists_congr fun move => and_congr_right fun _ => ?_
    unfold isMoveBlocked Blocks
    cases c move.elementId <;> simp
  | updateElements updates =>
    simp only [isMutationBlockedByLock, repositions, List.any_eq_true, isPatchBlocked_iff,
      List.mem_map, exists_exists_and_eq_and, List.mem_filter]
    exact exists_congr fun u => and_assoc.symm

theorem fst_mem_touchedIds {r : String × Option ElementFields} (h : r ∈ repositions operation) :
    r.1 ∈ touchedIds operation := by
  cases operation with
  | moveElements moves transient =>
    obtain ⟨move, hmove, rfl⟩ := List.mem_map.mp h
    exact List.mem_map.mpr ⟨move, hmove, rfl⟩
  | updateElement elementId fields =>
    simp only [repositions] at h
    split at h
    · rw [List.mem_singleton.mp h]
      simp [touchedIds]
    · cases h
  | updateElements updates =>
    obtain ⟨u, hu, rfl⟩ := List.mem_map.mp h
    exact List.mem_map.mpr ⟨u, (List.mem_filter.mp hu).1, rfl⟩
  | _ => cases h

theorem target_mem_referencedMetaIds {r : String × Option ElementFields} {fields : ElementFields}
    {target : String} (h : r ∈ repositions operation) (hfields : fields ∈ r.2)
    (htarget : fields.str? "metaContainerId" = some target) :
    target ∈ referencedMetaIds operation := by
  cases operation with
  | moveElements moves transient =>
    obtain ⟨move, _, rfl⟩ := List.mem_map.mp h
    cases hfields
  | updateElement elementId fields' =>
    simp only [repositions] at h
    split at h
    · obtain rfl := List.mem_singleton.mp h
      obtain rfl := Option.some.inj hfields
      simp [referencedMetaIds, htarget]
    · cases h
  | updateElements updates =>
    obtain ⟨u, hu, rfl⟩ := List.mem_map.mp h
    obtain rfl := Option.some.inj hfields
    exact List.mem_flatMap.mpr ⟨u, (List.mem_filter.mp hu).1, by simp [htarget]⟩
  | _ => cases h

/-- What blocks an operation on one context blocks it on another that agrees on the ids read ahead
    and has the containers that count. -/
theorem Blocks.transfer {r : String × Option ElementFields} (hr : r ∈ repositions operation)
    (hreads : ∀ id ∈ ownReads operation, c id = c' id)
    (hcontainers : ∀ e, c r.1 = some e → ∀ p ∈ parentIds e, ∀ container, c p = some container →
      keepsPlace p container e = true → c' p = some container)
    (h : Blocks c r) : Blocks c' r := by
  obtain ⟨e, he, hblocks⟩ := h
  have htouched := hreads r.1 (List.mem_append_left _ (fst_mem_touchedIds hr))
  refine ⟨e, htouched ▸ he, ?_⟩
  rcases hblocks with hheld | ⟨fields, hfields, hinto⟩
  · left
    rw [isHeld_iff] at hheld ⊢
    rcases hheld with hlocked | ⟨p, hp, container, hc, hkeeps⟩
    · exact .inl hlocked
    · exact .inr ⟨p, hp, container, hcontainers e he p hp container hc hkeeps, hkeeps⟩
  · refine .inr ⟨fields, hfields, ?_⟩
    unfold patchesIntoManagedMeta at hinto ⊢
    cases htarget : fields.str? "metaContainerId" with
    | none => rw [htarget] at hinto; cases hinto
    | some target =>
      have hmeta := isManaged_congr (hreads target
        (List.mem_append_right _ (target_mem_referencedMetaIds hr hfields htarget)))
      simpa [htarget, hmeta] using hinto

end blocks

/-! ### When the elements held suffice -/

/-- On its own context an operation has the change set that it has on the readable board. -/
theorem toChangeSet_own (cfg : Config) (k : BoardKeys) (m : Mutation) :
    toChangeSet (createCachedBoardContext cfg k [m]).lookup m.operation =
      toChangeSet (readable cfg k.elements.lookup) m.operation := by
  apply toChangeSet_congr
  intro id hid
  exact (lookup_createCachedBoardContext cfg k [m] id).1
    ⟨⟨m, by simp, List.ne_nil_of_mem hid⟩, .inl ⟨m, by simp, hid⟩⟩

/-- On its own context an operation asks for what it asks for on the readable
    board, when it reads ahead at all. -/
theorem requestedChange_own (cfg : Config) (k : BoardKeys) (m : Mutation)
    (hop : m.operation.readsAhead = true) :
    requestedChange k (createCachedBoardContext cfg k [m]).lookup m.operation =
      requestedChange k (readable cfg k.elements.lookup) m.operation := by
  obtain ⟨hlock, hvalidate⟩ := context_verdicts cfg k m hop
  simp only [requestedChange, hlock, hvalidate, toChangeSet_own cfg k m]

/-- A patch of an element that is found is a change. -/
theorem upserts_ne_nil {k : BoardKeys} {c : LockContext} {operation : Operation}
    {r : String × Option ElementFields} (hr : r ∈ repositions operation) {e : BoardElement}
    (he : c r.1 = some e) :
    (resolveChangeSet k.elementList (toChangeSet c operation)).upserts ≠ [] := by
  have hne : ∀ upserts : List BoardElement, upserts ≠ [] →
      (resolveChangeSet k.elementList { upserts := upserts, deletes := [] }).upserts ≠ [] := by
    intro upserts hupserts
    obtain ⟨first, hfirst⟩ := List.exists_mem_of_ne_nil upserts hupserts
    have hfound := find?_normalizeUpserts upserts first.id
    cases hlast : upserts.reverse.find? (·.id = first.id) with
    | none =>
      have := List.find?_eq_none.mp hlast first (List.mem_reverse.mpr hfirst)
      simp at this
    | some last =>
      rw [hlast] at hfound
      have hmem := List.mem_of_find?_eq_some hfound
      simpa [resolveChangeSet] using List.ne_nil_of_mem hmem
  have hpatched : ∀ transform, transform e ∈ toUpsertFromCache c r.1 transform := by
    intro transform
    simp [toUpsertFromCache, he]
  cases operation with
  | moveElements moves transient =>
    obtain ⟨move, hmove, rfl⟩ := List.mem_map.mp hr
    exact hne _ (List.ne_nil_of_mem (List.mem_flatMap.mpr ⟨move, hmove, hpatched _⟩))
  | updateElement elementId fields =>
    have hid : r.1 = elementId := by simpa [touchedIds] using fst_mem_touchedIds hr
    rw [hid] at hpatched
    exact hne _ (List.ne_nil_of_mem (hpatched _))
  | updateElements updates =>
    obtain ⟨u, hu, rfl⟩ := List.mem_map.mp hr
    exact hne _ (List.ne_nil_of_mem
      (List.mem_flatMap.mpr ⟨u, (List.mem_filter.mp hu).1, hpatched _⟩))
  | _ => cases hr

section alike
variable {cfg : Config} {held : List String} {k : BoardKeys} {operation : Operation}

theorem readable_eq_some {elementsById : LockContext} {id : String} {e : BoardElement}
    (h : readable cfg elementsById id = some e) : elementsById id = some e := by
  unfold readable at h
  split at h
  · cases h
  · exact h

/-- What is held and apart from the empty id shows what is read. -/
theorem shown_eq_readable {elementsById : LockContext} {id : String}
    (hempty : cfg.enableTargetedMutationReads = true → "" ∈ held → elementsById "" ≠ none → id ≠ "")
    (hcovers : id ∈ held ∨ readable cfg elementsById id = none) :
    shown held elementsById id = readable cfg elementsById id := by
  unfold shown
  split
  · next hheld =>
    unfold readable
    split
    · next hdropped =>
      obtain ⟨htargeted, rfl⟩ := hdropped
      by_contra hne
      exact hempty htargeted hheld hne rfl
    · rfl
  · next hheld => exact (hcovers.resolve_left hheld).symm

/-- On what it reads ahead an operation finds the elements held as it finds the board. -/
theorem shown_ownReads (hleaves : LeavesEmptyId cfg held k.elements.lookup operation)
    (hcovers : Covers cfg held k.elements.lookup (ownReads operation)) :
    ∀ id ∈ ownReads operation,
      shown held k.elements.lookup id = readable cfg k.elements.lookup id := by
  intro id hid
  refine shown_eq_readable ?_ (hcovers id hid)
  rintro htargeted hheld hboard rfl
  obtain ⟨htouched, hreferenced, _⟩ := hleaves htargeted hheld hboard
  rcases List.mem_append.mp hid with h | h
  · exact htouched h
  · exact hreferenced h

/-- The elements held block what the board blocks when they show the containers that count. -/
theorem blocked_shown_iff (hop : operation.readsAhead = true)
    (hsees : SeesContainers cfg held k.elements.lookup operation)
    (hleaves : LeavesEmptyId cfg held k.elements.lookup operation)
    (hcovers : Covers cfg held k.elements.lookup (ownReads operation)) :
    isMutationBlockedByLock operation (shown held k.elements.lookup) = true ↔
      isMutationBlockedByLock operation (readable cfg k.elements.lookup) = true := by
  have hreads := shown_ownReads hleaves hcovers
  -- a container of a touched element is not the one under the empty id
  have hparent : ∀ r ∈ repositions operation, ∀ e, readable cfg k.elements.lookup r.1 = some e →
      ∀ p ∈ parentIds e, p ∈ held →
        shown held k.elements.lookup p = readable cfg k.elements.lookup p := by
    intro r hr e he p hp hheld
    refine shown_eq_readable ?_ (.inl hheld)
    rintro htargeted hempty hboard rfl
    exact (hleaves htargeted hempty hboard).2.2 r.1 (fst_mem_touchedIds hr) e
      (readable_eq_some he) hp
  have hforth : isMutationBlockedByLock operation (shown held k.elements.lookup) = true →
      isMutationBlockedByLock operation (readable cfg k.elements.lookup) = true := by
    rw [isMutationBlockedByLock_iff hop, isMutationBlockedByLock_iff hop]
    rintro ⟨r, hr, hblocks⟩
    refine ⟨r, hr, hblocks.transfer hr hreads ?_⟩
    intro e he p hp container hc _
    have hheld : p ∈ held := by
      by_contra hnot
      simp [shown, hnot] at hc
    rw [hreads r.1 (List.mem_append_left _ (fst_mem_touchedIds hr))] at he
    rw [← hparent r hr e he p hp hheld]
    exact hc
  refine ⟨hforth, fun hblocked => ?_⟩
  rcases hsees with hshown | hcontainers
  · exact hshown
  · rw [isMutationBlockedByLock_iff hop] at hblocked ⊢
    obtain ⟨r, hr, hblocks⟩ := hblocked
    refine ⟨r, hr, hblocks.transfer hr (fun id hid => (hreads id hid).symm) ?_⟩
    intro e he p hp container hc hkeeps
    rw [hparent r hr e he p hp (hcontainers r hr e he p hp container hc hkeeps)]
    exact hc

/-- What an operation that reads ahead asks for on the elements held is what it asks for on the
    readable board. -/
theorem requestedChange_shown (hop : operation.readsAhead = true)
    (hsees : SeesContainers cfg held k.elements.lookup operation)
    (hleaves : LeavesEmptyId cfg held k.elements.lookup operation)
    (hcovers : Covers cfg held k.elements.lookup (ownReads operation)) :
    requestedChange k (shown held k.elements.lookup) operation =
      requestedChange k (readable cfg k.elements.lookup) operation := by
  have hreads := shown_ownReads hleaves hcovers
  have htouched : ∀ id ∈ touchedIds operation,
      shown held k.elements.lookup id = readable cfg k.elements.lookup id :=
    fun id hid => hreads id (List.mem_append_left _ hid)
  have hlock := Bool.eq_iff_iff.mpr (blocked_shown_iff hop hsees hleaves hcovers)
  have hvalidate : validateReconcileMonthRange operation (shown held k.elements.lookup) =
      validateReconcileMonthRange operation (readable cfg k.elements.lookup) := by
    apply validateReconcileMonthRange_congr
    rintro metaId upserts deletes rfl
    exact ⟨htouched metaId (by simp [touchedIds]),
      fun id hid => htouched id (by simp [touchedIds, hid])⟩
  simp only [requestedChange, hlock, hvalidate, toChangeSet_congr htouched]

/-- An operation that asks for the same change on the elements held as on the readable board sees
    the containers that count. -/
theorem seesContainers_of_alike (hop : operation.readsAhead = true)
    (hleaves : LeavesEmptyId cfg held k.elements.lookup operation)
    (hcovers : Covers cfg held k.elements.lookup (ownReads operation))
    (halike : requestedChange k (shown held k.elements.lookup) operation =
      requestedChange k (readable cfg k.elements.lookup) operation) :
    SeesContainers cfg held k.elements.lookup operation := by
  by_contra hnot
  simp only [SeesContainers, not_or, not_forall, Bool.not_eq_true] at hnot
  obtain ⟨hshown, r, hr, e, he, p, hp, container, hc, hkeeps, _⟩ := hnot
  -- the board blocks the operation
  have hblocked : isMutationBlockedByLock operation (readable cfg k.elements.lookup) = true := by
    rw [isMutationBlockedByLock_iff hop]
    exact ⟨r, hr, e, he, .inl (isHeld_iff.mpr (.inr ⟨p, hp, container, hc, hkeeps⟩))⟩
  have hnothing : (requestedChange k (readable cfg k.elements.lookup) operation).upserts = [] := by
    simp [requestedChange, hblocked]
  -- what is held does not, and the element is found there
  have hvalid : validateReconcileMonthRange operation (shown held k.elements.lookup) = none := by
    cases operation with
    | reconcileMonthRange metaId upserts deletes => cases hr
    | _ => rfl
  have hfound : shown held k.elements.lookup r.1 = some e := by
    rw [shown_ownReads hleaves hcovers r.1 (List.mem_append_left _ (fst_mem_touchedIds hr))]
    exact he
  rw [← halike] at hnothing
  simp only [requestedChange, hshown, hvalid, Option.isSome_none, Bool.or_self, Bool.false_eq_true,
    if_false] at hnothing
  exact upserts_ne_nil hr hfound hnothing

end alike

/-- A creation or a deletion, which reads nothing ahead on its own, asks for the same change on the
    elements held exactly when they block nothing. -/
theorem heldSuffices_iff_of_readsNothing (cfg : Config) (held : List String) (k : BoardKeys)
    (m : Mutation) (hop : m.operation.readsAhead = false) :
    HeldSuffices cfg held k.elements.lookup m.operation ↔
      requestedChange k (shown held k.elements.lookup) m.operation =
        requestedChange k (createCachedBoardContext cfg k [m]).lookup m.operation := by
  rw [context_eq_empty cfg k m hop]
  cases hoperation : m.operation with
  | createElement elementId data =>
    simp only [HeldSuffices, requestedChange, isMutationBlockedByLock,
      validateReconcileMonthRange, toChangeSet, Option.isSome_none, Bool.or_false,
      createsIntoManagedMeta_empty]
    cases createsIntoManagedMeta (shown held k.elements.lookup) data with
    | false => simp
    | true => simp [resolveChangeSet, normalizeUpserts, setUpsert]
  | deleteElements elementIds =>
    simp only [HeldSuffices, requestedChange, isMutationBlockedByLock,
      validateReconcileMonthRange, toChangeSet, Option.isSome_none, Bool.or_false,
      any_isDeleteBlocked_empty]
    cases hblocked : elementIds.any
        (isDeleteBlocked (shown held k.elements.lookup) elementIds) with
    | false => simp
    | true =>
      -- a blocked deletion asks for nothing, and this one does ask
      obtain ⟨id, hid, _⟩ := List.any_eq_true.mp hblocked
      have hne : elementIds ≠ [] := List.ne_nil_of_mem hid
      have hdeletes := List.ne_nil_of_mem (@subset_collectCascadeDeleteIds k.elementList _ _ hid)
      simp [resolveChangeSet, hne, hdeletes.symm]
  | _ => rw [hoperation] at hop; cases hop

/-- When the elements held suffice, a mutation asks for the same change on them as on its own
    context. -/
theorem requestedChange_of_suffices {cfg : Config} {held : List String} {k : BoardKeys}
    {m : Mutation}
    (hcovers : m.operation.readsAhead = true →
      Covers cfg held k.elements.lookup (ownReads m.operation))
    (h : HeldSuffices cfg held k.elements.lookup m.operation) :
    requestedChange k (shown held k.elements.lookup) m.operation =
      requestedChange k (createCachedBoardContext cfg k [m]).lookup m.operation := by
  cases hop : m.operation.readsAhead with
  | true =>
    rw [requestedChange_own cfg k m hop]
    have hboth : SeesContainers cfg held k.elements.lookup m.operation ∧
        LeavesEmptyId cfg held k.elements.lookup m.operation := by
      cases hoperation : m.operation <;> rw [hoperation] at h hop <;>
        first | exact h | cases hop
    exact requestedChange_shown hop hboth.1 hboth.2 (hcovers hop)
  | false => exact (heldSuffices_iff_of_readsNothing cfg held k m hop).mp h

/-- And only then, on a board with no element under the empty id. -/
theorem suffices_of_requestedChange {cfg : Config} {held : List String} {k : BoardKeys}
    {m : Mutation} (hempty : cfg.enableTargetedMutationReads = true → k.elements.lookup "" = none)
    (hcovers : m.operation.readsAhead = true →
      Covers cfg held k.elements.lookup (ownReads m.operation))
    (halike : requestedChange k (shown held k.elements.lookup) m.operation =
      requestedChange k (createCachedBoardContext cfg k [m]).lookup m.operation) :
    HeldSuffices cfg held k.elements.lookup m.operation := by
  cases hop : m.operation.readsAhead with
  | true =>
    rw [requestedChange_own cfg k m hop] at halike
    have hleaves : LeavesEmptyId cfg held k.elements.lookup m.operation :=
      fun htargeted _ hboard => absurd (hempty htargeted) hboard
    have hboth := And.intro (seesContainers_of_alike hop hleaves (hcovers hop) halike) hleaves
    cases hoperation : m.operation <;> rw [hoperation] at hboth hop <;>
      first | exact hboth | cases hop
  | false => exact (heldSuffices_iff_of_readsNothing cfg held k m hop).mpr halike

/-! ### The runs -/

/-- The keys that results and elements depend on. -/
structure SameHot (k k' : BoardKeys) : Prop where
  seq : k.seq = k'.seq
  elements : k.elements = k'.elements
  seen : k.seen = k'.seen

namespace SameHot

theorem refl (k : BoardKeys) : SameHot k k := ⟨rfl, rfl, rfl⟩

theorem symm {k k' : BoardKeys} (h : SameHot k k') : SameHot k' k :=
  ⟨h.seq.symm, h.elements.symm, h.seen.symm⟩

theorem trans {k k' k'' : BoardKeys} (h : SameHot k k') (h' : SameHot k' k'') : SameHot k k'' :=
  ⟨h.seq.trans h'.seq, h.elements.trans h'.elements, h.seen.trans h'.seen⟩

end SameHot

theorem createCachedBoardContext_congr (cfg : Config) {k k' : BoardKeys} (ms : List Mutation)
    (h : k.elements = k'.elements) :
    createCachedBoardContext cfg k ms = createCachedBoardContext cfg k' ms := by
  have hfetch : ∀ ids, fetchByIds cfg k ids = fetchByIds cfg k' ids := by
    intro ids
    simp [fetchByIds, getElementsByIds, getElementEach, h]
  simp only [createCachedBoardContext, hfetch]

theorem requestedChange_congr {k k' : BoardKeys} (context : LockContext) (operation : Operation)
    (h : k.elements = k'.elements) :
    requestedChange k context operation = requestedChange k' context operation := by
  simp only [requestedChange, BoardKeys.elementList, h]

/-- Writing one change on two boards that agree gives one answer. -/
theorem writeRequested_congr (now : Nat) (m : Mutation) (mode : BoardSyncWriteMode)
    (requested : ElementChangeSet) {k k' : BoardKeys} (h : SameHot k k') :
    (writeRequested now m mode requested k).result =
      (writeRequested now m mode requested k').result ∧
    (writeRequested now m mode requested k).appliedCanonicalChange =
      (writeRequested now m mode requested k').appliedCanonicalChange ∧
    SameHot (writeRequested now m mode requested k).keys
      (writeRequested now m mode requested k').keys := by
  have hpeek : peekSequence k = peekSequence k' := by rw [peekSequence, peekSequence, h.seq]
  unfold writeRequested
  split
  · refine ⟨?_, rfl, h⟩
    simp only [unchangedResult, hpeek]
  · refine ⟨?_, rfl, ?_⟩
    · simp only [getSequence, hpeek]
    · simp only [runPipeline_writePipeline, getSequence, hpeek]
      exact ⟨rfl, by simp only [PersistedElementChange.applyTo, h.elements], h.seen⟩

/-- The answer shows the change that was asked for. -/
theorem writeRequested_result_inj (now : Nat) (m : Mutation) (mode : BoardSyncWriteMode)
    {requested requested' : ElementChangeSet} {k : BoardKeys}
    (h : (writeRequested now m mode requested k).result =
      (writeRequested now m mode requested' k).result) : requested = requested' := by
  obtain ⟨upserts, deletes⟩ := requested
  obtain ⟨upserts', deletes'⟩ := requested'
  unfold writeRequested unchangedResult at h
  split at h
  · next hempty =>
    split at h
    · next hempty' =>
      simp only [Bool.and_eq_true, List.isEmpty_iff] at hempty hempty'
      rw [hempty.1, hempty.2, hempty'.1, hempty'.2]
    · simp at h
  · split at h
    · simp at h
    · simpa using h

/-- Claiming the seen marker, on two boards that agree. -/
theorem tryMarkSeen_congr (mutationId : String) {k k' : BoardKeys} (h : SameHot k k') :
    (tryMarkSeen mutationId k).1 = (tryMarkSeen mutationId k').1 ∧
      SameHot (tryMarkSeen mutationId k).2 (tryMarkSeen mutationId k').2 := by
  unfold tryMarkSeen
  rw [h.seen]
  split
  · exact ⟨rfl, h⟩
  · exact ⟨rfl, h.seq, h.elements, rfl⟩

/-- One mutation on two boards that agree. -/
theorem processMutationWithContext_congr (now : Nat) (m : Mutation) (context : Dict BoardElement)
    (mode : BoardSyncWriteMode) {k k' : BoardKeys} (h : SameHot k k') :
    (processMutationWithContext now m context mode k).result =
        (processMutationWithContext now m context mode k').result ∧
      (processMutationWithContext now m context mode k).appliedCanonicalChange =
        (processMutationWithContext now m context mode k').appliedCanonicalChange ∧
      SameHot (processMutationWithContext now m context mode k).keys
        (processMutationWithContext now m context mode k').keys := by
  obtain ⟨hclaimed, hkeys⟩ := tryMarkSeen_congr m.mutationId h
  unfold processMutationWithContext
  cases m.isTransient with
  | true => exact ⟨rfl, rfl, h⟩
  | false =>
    cases hseen : tryMarkSeen m.mutationId k with
    | mk claimed marked =>
      cases hseen' : tryMarkSeen m.mutationId k' with
      | mk claimed' marked' =>
        rw [hseen, hseen'] at hclaimed hkeys
        simp only at hclaimed hkeys
        subst hclaimed
        cases claimed with
        | false => exact ⟨rfl, rfl, hkeys⟩
        | true =>
          simp only [Bool.false_eq_true, if_false, processClaimed_eq]
          rw [requestedChange_congr _ _ hkeys.elements]
          exact writeRequested_congr now m mode _ hkeys

/-- A mutation that is neither passed on nor seen writes the change it asks for. -/
theorem processMutationWithContext_unseen (now : Nat) (m : Mutation) (c : Dict BoardElement)
    (mode : BoardSyncWriteMode) (k : BoardKeys) (htransient : m.isTransient = false)
    (hseen : m.mutationId ∉ k.seen) :
    processMutationWithContext now m c mode k =
      writeRequested now m mode (requestedChange k c.lookup m.operation)
        (tryMarkSeen m.mutationId k).2 := by
  have hmarked : tryMarkSeen m.mutationId k =
      (true, { k with seen := k.seen.add [m.mutationId] }) := by
    simp [tryMarkSeen, hseen]
  simp only [processMutationWithContext, htransient, hmarked, processClaimed_eq,
    Bool.false_eq_true, if_false]
  rfl

/-- The keys once the seen marker is set. -/
def BoardKeys.claim (k : BoardKeys) (mutationId : String) : BoardKeys :=
  { k with seen := k.seen.add [mutationId] }

/-- A mutation that is neither passed on nor seen, and that no rule turns away, is its change set
    applied. -/
theorem processMutationWithContext_unblocked (now : Nat) {m : Mutation} {c : Dict BoardElement}
    (mode : BoardSyncWriteMode) {k : BoardKeys} (htransient : m.isTransient = false)
    (hseen : m.mutationId ∉ k.seen) (hlock : isMutationBlockedByLock m.operation c.lookup = false)
    (hvalid : validateReconcileMonthRange m.operation c.lookup = none) :
    let processed := processMutationWithContext now m c mode k
    let applied := applyChangeSet (mode = .collab) now (toChangeSet c.lookup m.operation)
      (k.claim m.mutationId)
    processed.result.change = applied.1 ∧ processed.keys = applied.2 := by
  intro processed applied
  have hclaimed : processed = processClaimed now m c mode (k.claim m.mutationId) := by
    simp only [processed, processMutationWithContext, htransient, tryMarkSeen, hseen,
      Bool.false_eq_true, if_false]
    rfl
  rw [hclaimed]
  simp only [processClaimed, hlock, hvalid, Option.isSome_none, Bool.false_eq_true, if_false]
  cases happlied : applyChangeSet (mode = .collab) now (toChangeSet c.lookup m.operation)
      (k.claim m.mutationId) with
  | mk change keys =>
    simp only [applied, happlied]
    cases change <;> exact ⟨rfl, rfl⟩

/-- What a mutation does at its turn: it is passed on or was seen; or it is claimed
    and changes nothing; or it is claimed, numbered and written. -/
inductive Turn (now : Nat) (m : Mutation) (mode : BoardSyncWriteMode) (k : BoardKeys)
    (p : Processed) :
    Prop where
  | away (h : m.isTransient = true ∨ m.mutationId ∈ k.seen) (unchanged : p.result.change = none)
    (flag : p.appliedCanonicalChange = false) (keys : p.keys = k)
  | unchanged (canonical : m.isTransient = false) (unchanged : p.result.change = none)
    (flag : p.appliedCanonicalChange = false) (keys : p.keys = k.claim m.mutationId)
  | changed (canonical : m.isTransient = false) (change : PersistedElementChange)
    (result : p.result.change = some change) (number : change.sequence = peekSequence k + 1)
    (flag : p.appliedCanonicalChange = true)
    (keys : p.keys = runPipeline (writePipeline (mode = .collab) now change)
      (getSequence (k.claim m.mutationId)).2)

theorem processMutationWithContext_turn (now : Nat) (m : Mutation) (c : Dict BoardElement)
    (mode : BoardSyncWriteMode) (k : BoardKeys) :
    Turn now m mode k (processMutationWithContext now m c mode k) := by
  cases htransient : m.isTransient with
  | true => apply Turn.away (.inl htransient) <;> simp [processMutationWithContext, htransient]
  | false =>
    by_cases hseen : m.mutationId ∈ k.seen
    · apply Turn.away (.inr hseen) <;>
        simp [processMutationWithContext, htransient, tryMarkSeen, hseen]
    · rw [processMutationWithContext_unseen now m c mode k htransient hseen]
      have hclaim : (tryMarkSeen m.mutationId k).2 = k.claim m.mutationId := by
        simp [tryMarkSeen, hseen, BoardKeys.claim]
      rw [hclaim]
      unfold writeRequested
      split
      · exact .unchanged htransient rfl rfl rfl
      · exact .changed htransient _ rfl rfl rfl rfl

/-- The flag of the write-through says that the result carries a change. -/
theorem processEntries_changed (now : Nat) (mode : BoardSyncWriteMode)
    (entries : List (Nat × Mutation)) (context : Dict BoardElement) (k : BoardKeys) :
    (processEntries now mode entries context k).2.1 =
      (processEntries now mode entries context k).1.any fun r => r.2.change.isSome := by
  induction entries generalizing context k with
  | nil => rfl
  | cons entry rest ih =>
    obtain ⟨index, m⟩ := entry
    simp only [processEntries, List.any_cons, ih]
    congr 1
    cases processMutationWithContext_turn now m context mode k with
    | away _ unchanged flag _ => rw [flag, unchanged]; rfl
    | unchanged _ unchanged flag _ => rw [flag, unchanged]; rfl
    | changed _ change result _ flag _ => rw [flag, result]; rfl

/-- Of its context the loop reads what it shows. -/
theorem processEntries_context_congr (now : Nat) (mode : BoardSyncWriteMode)
    (entries : List (Nat × Mutation)) {context context' : Dict BoardElement}
    (h : ∀ id, context.lookup id = context'.lookup id) (k : BoardKeys) :
    processEntries now mode entries context k = processEntries now mode entries context' k := by
  induction entries generalizing context context' k with
  | nil => rfl
  | cons entry rest ih =>
    obtain ⟨index, m⟩ := entry
    have hshown : (AList.lookup · context) = (AList.lookup · context') := funext h
    have hprocessed : processMutationWithContext now m context mode k =
        processMutationWithContext now m context' mode k := by
      simp only [processMutationWithContext, processClaimed, hshown]
    have happlied : ∀ result id, (applyPersistedChangeToContext context result).lookup id =
        (applyPersistedChangeToContext context' result).lookup id := by
      intro result id
      unfold applyPersistedChangeToContext
      split
      · next change _ =>
        by_cases hid : id ∈ change.ids
        · exact lookup_applyTo_of_mem hid _ _
        · rw [lookup_applyTo_of_not_mem hid, lookup_applyTo_of_not_mem hid, h]
      · exact h id
    simp only [processEntries, hprocessed, ih (happlied _)]

/-- The seen markers after one mutation. -/
theorem processMutationWithContext_seen (now : Nat) (m : Mutation) (context : Dict BoardElement)
    (mode : BoardSyncWriteMode) (k : BoardKeys) (id : String) :
    id ∈ (processMutationWithContext now m context mode k).keys.seen ↔
      id ∈ k.seen ∨ (m.isTransient = false ∧ id = m.mutationId) := by
  have hclaim : id ∈ (k.claim m.mutationId).seen ↔ id ∈ k.seen ∨ id = m.mutationId := by
    simp [BoardKeys.claim, IdSet.mem_add, or_comm]
  cases processMutationWithContext_turn now m context mode k with
  | away h _ _ keys =>
    rw [keys]
    constructor
    · exact .inl
    · rintro (hid | ⟨htransient, rfl⟩)
      · exact hid
      · exact h.resolve_left (by simp [htransient])
  | unchanged canonical _ _ keys =>
    rw [keys, hclaim]
    simp [canonical]
  | changed canonical change _ _ _ keys =>
    rw [keys]
    simp only [runPipeline_writePipeline, getSequence, hclaim]
    simp [canonical]

/-- On two contexts of one board a mutation is answered alike exactly when it is
    passed on, was seen, or asks both for the same change. -/
theorem processMutationWithContext_result_iff (now : Nat) (m : Mutation)
    (c c' : Dict BoardElement) (mode : BoardSyncWriteMode) (k : BoardKeys) :
    (processMutationWithContext now m c mode k).result =
        (processMutationWithContext now m c' mode k).result ↔
      m.isTransient = true ∨ m.mutationId ∈ k.seen ∨
        requestedChange k c.lookup m.operation = requestedChange k c'.lookup m.operation := by
  cases htransient : m.isTransient with
  | true => simp [processMutationWithContext, htransient]
  | false =>
    by_cases hseen : m.mutationId ∈ k.seen
    · simp [processMutationWithContext, htransient, tryMarkSeen, hseen]
    · simp only [processMutationWithContext_unseen now m _ mode k htransient hseen, hseen,
        Bool.false_eq_true, false_or]
      constructor
      · exact writeRequested_result_inj now m mode
      · intro h
        rw [h]

/-- Answered alike, it leaves the same keys. -/
theorem processMutationWithContext_eq (now : Nat) (m : Mutation) (c c' : Dict BoardElement)
    (mode : BoardSyncWriteMode) (k : BoardKeys)
    (h : (processMutationWithContext now m c mode k).result =
      (processMutationWithContext now m c' mode k).result) :
    processMutationWithContext now m c mode k = processMutationWithContext now m c' mode k := by
  rw [processMutationWithContext_result_iff] at h
  cases htransient : m.isTransient with
  | true => simp [processMutationWithContext, htransient]
  | false =>
    by_cases hseen : m.mutationId ∈ k.seen
    · simp [processMutationWithContext, htransient, tryMarkSeen, hseen]
    · rcases h with h | h | h
      · rw [htransient] at h
        cases h
      · exact absurd h hseen
      · rw [processMutationWithContext_unseen now m _ mode k htransient hseen,
          processMutationWithContext_unseen now m _ mode k htransient hseen, h]

/-! ### The context of the batch follows the board -/

/-- The ids a result has written or deleted. -/
def changedIds (result : MutationResult) : List String :=
  match result.change with
  | some change => change.ids
  | none => []

/-- The elements after a mutation: the change it reports, applied. -/
theorem processMutationWithContext_elements (now : Nat) (m : Mutation) (c : Dict BoardElement)
    (mode : BoardSyncWriteMode) (k : BoardKeys) :
    (processMutationWithContext now m c mode k).keys.elements =
      applyPersistedChangeToContext k.elements
        (processMutationWithContext now m c mode k).result := by
  unfold applyPersistedChangeToContext
  cases processMutationWithContext_turn now m c mode k with
  | away _ unchanged _ keys => rw [keys, unchanged]
  | unchanged _ unchanged _ keys =>
    rw [keys, unchanged]
    rfl
  | changed _ change result _ _ keys =>
    rw [keys, result, (written_runPipeline _ now change _).elements]
    rfl

/-- When the context shows the held part of the board, it still does after one
    more mutation, with the ids it changed held too. -/
theorem shown_applyPersistedChange {context : Dict BoardElement} {held : List String}
    {elements : Dict BoardElement} (h : ∀ id, context.lookup id = shown held elements.lookup id)
    (result : MutationResult) (id : String) :
    (applyPersistedChangeToContext context result).lookup id =
      shown (held ++ changedIds result)
        (applyPersistedChangeToContext elements result).lookup id := by
  have hid := h id
  unfold applyPersistedChangeToContext changedIds
  cases result.change with
  | none =>
    simpa [shown] using hid
  | some change =>
    by_cases hchanged : id ∈ change.ids
    · have hheld : id ∈ held ++ change.ids :=
        List.mem_append_right _ hchanged
      simp only [shown, hheld, if_true]
      exact lookup_applyTo_of_mem hchanged context elements
    · have hheld : id ∈ held ++ change.ids ↔ id ∈ held := by
        rw [List.mem_append, or_iff_left hchanged]
      simp only [shown, hheld, lookup_applyTo_of_not_mem hchanged]
      exact hid

/-- A context shows the elements under its own keys. -/
theorem lookup_context_shown (cfg : Config) (k : BoardKeys) (ms : List Mutation) (id : String) :
    (createCachedBoardContext cfg k ms).lookup id =
      shown (createCachedBoardContext cfg k ms).keys k.elements.lookup id := by
  unfold shown
  simp only [← AList.mem_keys, ← AList.lookup_isSome]
  obtain ⟨hread, hmissing⟩ := lookup_createCachedBoardContext cfg k ms id
  by_cases hprefetched : Prefetched cfg k ms id
  · rw [hread hprefetched]
    unfold readable
    split
    · rfl
    · split
      · rfl
      · next hnone => simpa using hnone
  · rw [hmissing hprefetched]
    rfl

/-! ### Both runs, on the keys of the board -/

/-- The mutations one after the other, each on its own context. -/
def eachKeys (cfg : Config) (now : Nat) (mode : BoardSyncWriteMode) :
    List Mutation → BoardKeys → List MutationResult × BoardKeys
  | [], k => ([], k)
  | m :: rest, k =>
    let processed := processMutationWithContext now m (createCachedBoardContext cfg k [m]) mode k
    let tail := eachKeys cfg now mode rest processed.keys
    (processed.result :: tail.1, tail.2)

/-- At every step of the one-by-one run, with the state before the step: the
    mutation is passed on, was seen, or the elements the batch holds suffice. -/
def BatchSees (cfg : Config) (now : Nat) (mode : BoardSyncWriteMode) :
    List String → List Mutation → BoardKeys → Prop
  | _, [], _ => True
  | held, m :: rest, k =>
    (m.isTransient = true ∨ m.mutationId ∈ k.seen ∨
      HeldSuffices cfg held k.elements.lookup m.operation) ∧
      let processed := processMutationWithContext now m (createCachedBoardContext cfg k [m]) mode k
      BatchSees cfg now mode (held ++ changedIds processed.result) rest processed.keys

/-- Where targeted reads are on, no step of the one-by-one run finds an element under the empty
    id. -/
def NeverEmptyId (cfg : Config) (now : Nat) (mode : BoardSyncWriteMode) :
    List Mutation → BoardKeys → Prop
  | [], _ => True
  | m :: rest, k =>
    (cfg.enableTargetedMutationReads = true → k.elements.lookup "" = none) ∧
      NeverEmptyId cfg now mode rest
        (processMutationWithContext now m (createCachedBoardContext cfg k [m]) mode k).keys

/-- At every step the mutation is passed on, was seen, or asks for the same change in both runs. -/
def AskAlike (cfg : Config) (now : Nat) (mode : BoardSyncWriteMode) :
    List String → List Mutation → BoardKeys → Prop
  | _, [], _ => True
  | held, m :: rest, k =>
    (m.isTransient = true ∨ m.mutationId ∈ k.seen ∨
      requestedChange k (shown held k.elements.lookup) m.operation =
        requestedChange k (createCachedBoardContext cfg k [m]).lookup m.operation) ∧
      let processed := processMutationWithContext now m (createCachedBoardContext cfg k [m]) mode k
      AskAlike cfg now mode (held ++ changedIds processed.result) rest processed.keys

/-- The batch holds what the mutations read ahead, for all that they read ahead. -/
def CoversAll (cfg : Config) (held : List String) (elementsById : LockContext)
    (ms : List Mutation) : Prop :=
  ∀ m ∈ ms, m.operation.readsAhead = true →
    Covers cfg held elementsById (ownReads m.operation)

theorem coversAll_context (cfg : Config) (k : BoardKeys) (ms : List Mutation) :
    CoversAll cfg (createCachedBoardContext cfg k ms).keys k.elements.lookup ms := by
  intro m hm hop id hid
  have hprefetched : Prefetched cfg k ms id := by
    rcases List.mem_append.mp hid with h | h
    · exact ⟨⟨m, hm, List.ne_nil_of_mem h⟩, .inl ⟨m, hm, h⟩⟩
    · exact ⟨⟨m, hm, touchedIds_ne_nil hop h⟩, .inr (.inr ⟨m, hm, h⟩)⟩
  have hread := (lookup_createCachedBoardContext cfg k ms id).1 hprefetched
  cases hlookup : readable cfg k.elements.lookup id with
  | none => exact .inr rfl
  | some e =>
    rw [hlookup] at hread
    exact .inl (AList.mem_keys.mp (AList.lookup_isSome.mp (by rw [hread]; rfl)))

/-- What a mutation changes is held from then on. -/
theorem CoversAll.step {cfg : Config} {held : List String} {elements : Dict BoardElement}
    {m : Mutation} {rest : List Mutation} (h : CoversAll cfg held elements.lookup (m :: rest))
    (result : MutationResult) :
    CoversAll cfg (held ++ changedIds result)
      (applyPersistedChangeToContext elements result).lookup rest := by
  intro m' hm' hop id hid
  rcases h m' (List.mem_cons_of_mem _ hm') hop id hid with hheld | hnone
  · exact .inl (List.mem_append_left _ hheld)
  · by_cases hchanged : id ∈ changedIds result
    · exact .inl (List.mem_append_right _ hchanged)
    · right
      have hsame : (applyPersistedChangeToContext elements result).lookup id =
          elements.lookup id := by
        unfold applyPersistedChangeToContext
        unfold changedIds at hchanged
        cases hchange : result.change with
        | none => rfl
        | some change =>
          rw [hchange] at hchanged
          exact lookup_applyTo_of_not_mem hchanged elements
      simp only [readable] at hnone ⊢
      rw [hsame]
      exact hnone

theorem askAlike_of_sees {cfg : Config} {now : Nat} {mode : BoardSyncWriteMode}
    {ms : List Mutation} {held : List String} {k : BoardKeys}
    (hcovers : CoversAll cfg held k.elements.lookup ms) (h : BatchSees cfg now mode held ms k) :
    AskAlike cfg now mode held ms k := by
  induction ms generalizing held k with
  | nil => trivial
  | cons m rest ih =>
    obtain ⟨hfirst, hrest⟩ := h
    refine ⟨?_, ih ?_ hrest⟩
    · exact hfirst.imp_right fun h =>
        h.imp_right (requestedChange_of_suffices (hcovers m (by simp)))
    · rw [processMutationWithContext_elements]
      exact hcovers.step _

theorem sees_of_askAlike {cfg : Config} {now : Nat} {mode : BoardSyncWriteMode}
    {ms : List Mutation} {held : List String} {k : BoardKeys}
    (hcovers : CoversAll cfg held k.elements.lookup ms) (hempty : NeverEmptyId cfg now mode ms k)
    (h : AskAlike cfg now mode held ms k) : BatchSees cfg now mode held ms k := by
  induction ms generalizing held k with
  | nil => trivial
  | cons m rest ih =>
    obtain ⟨hfirst, hrest⟩ := h
    refine ⟨?_, ih ?_ hempty.2 hrest⟩
    · exact hfirst.imp_right fun h =>
        h.imp_right (suffices_of_requestedChange hempty.1 (hcovers m (by simp)))
    · rw [processMutationWithContext_elements]
      exact hcovers.step _

/-- The first mutation is answered alike in both runs exactly when it is passed
    on, was seen, or asks for the same change in both. -/
theorem first_result_iff (cfg : Config) (now : Nat) (mode : BoardSyncWriteMode) (m : Mutation)
    {context : Dict BoardElement} {held : List String} {k : BoardKeys}
    (h : ∀ id, context.lookup id = shown held k.elements.lookup id) :
    (processMutationWithContext now m context mode k).result =
        (processMutationWithContext now m (createCachedBoardContext cfg k [m]) mode k).result ↔
      m.isTransient = true ∨ m.mutationId ∈ k.seen ∨
        requestedChange k (shown held k.elements.lookup) m.operation =
          requestedChange k (createCachedBoardContext cfg k [m]).lookup m.operation := by
  have hshown : (AList.lookup · context) = shown held k.elements.lookup := funext h
  rw [processMutationWithContext_result_iff, hshown]

/-- The loop of the batch gives the results of the one-by-one run exactly when
    the mutations ask alike at every step. -/
theorem processEntries_results_iff (cfg : Config) (now : Nat) (mode : BoardSyncWriteMode)
    (entries : List (Nat × Mutation)) {context : Dict BoardElement} {held : List String}
    {k : BoardKeys} (h : ∀ id, context.lookup id = shown held k.elements.lookup id) :
    (processEntries now mode entries context k).1.map (·.2) =
        (eachKeys cfg now mode (entries.map (·.2)) k).1 ↔
      AskAlike cfg now mode held (entries.map (·.2)) k := by
  induction entries generalizing context held k with
  | nil => simp [processEntries, eachKeys, AskAlike]
  | cons entry rest ih =>
    obtain ⟨index, m⟩ := entry
    simp only [processEntries, eachKeys, AskAlike, List.map_cons, List.cons.injEq,
      ← first_result_iff cfg now mode m h]
    refine and_congr_right fun hresult => ?_
    -- answered alike, the first mutation leaves both runs on the same keys
    rw [processMutationWithContext_eq now m _ _ mode k hresult]
    apply ih
    intro id
    rw [processMutationWithContext_elements]
    exact shown_applyPersistedChange h _ id

/-- And then both runs leave the same keys. -/
theorem processEntries_keys (cfg : Config) (now : Nat) (mode : BoardSyncWriteMode)
    (entries : List (Nat × Mutation)) {context : Dict BoardElement} {held : List String}
    {k : BoardKeys} (h : ∀ id, context.lookup id = shown held k.elements.lookup id)
    (halike : AskAlike cfg now mode held (entries.map (·.2)) k) :
    (processEntries now mode entries context k).2.2 =
      (eachKeys cfg now mode (entries.map (·.2)) k).2 := by
  induction entries generalizing context held k with
  | nil => rfl
  | cons entry rest ih =>
    obtain ⟨index, m⟩ := entry
    simp only [List.map_cons, AskAlike] at halike
    have hresult := (first_result_iff cfg now mode m h).mpr halike.1
    simp only [processEntries, eachKeys, List.map_cons]
    rw [processMutationWithContext_eq now m _ _ mode k hresult]
    refine ih (fun id => ?_) halike.2
    rw [processMutationWithContext_elements]
    exact shown_applyPersistedChange h _ id

/-! ### The write-through -/

/-- A flush that does not evict the board leaves the part of its keys that
    results and elements depend on. -/
theorem persistBoard_sameHot (cfg : Config) (now : Nat) {boardId : String} {s : Server}
    (hkept : ¬ Flushes cfg boardId s) :
    SameHot ((persistBoard cfg now boardId s).2.redis boardId) (s.redis boardId) := by
  rcases persistBoard_cases cfg now boardId s with
    ⟨hflushes, _⟩ | ⟨_, _, h⟩ | ⟨_, _, e, _, _, h⟩ | ⟨_, _, db, hcommitted, h⟩
  · exact absurd hflushes hkept
  · rw [h, Server.setKeys_redis_self]
    exact ⟨rfl, rfl, rfl⟩
  · rw [h]
    exact SameHot.refl _
  · rw [h, Server.setKeys_redis_self]
    exact ⟨rfl, rfl, rfl⟩

/-- The write-through does not evict the board: there is none, or the board is an existing one
    and no error of the transaction is taken for an invalid id. -/
def WriteThroughKeeps (cfg : Config) (mode : BoardSyncWriteMode) (boardId : String)
    (changed : Bool) (s : Server) : Prop :=
  mode = .solo → changed = true → ¬ Flushes cfg boardId s

instance (cfg : Config) (mode : BoardSyncWriteMode) (boardId : String) (changed : Bool)
    (s : Server) : Decidable (WriteThroughKeeps cfg mode boardId changed s) := by
  unfold WriteThroughKeeps; infer_instance

/-- Such a write-through of a solo board leaves it too; a board in collab mode has none. -/
theorem persistIfSolo_sameHot (cfg : Config) (mode : BoardSyncWriteMode) (now : Nat)
    {boardId : String} (changed : Bool) (s : Server)
    (hkept : WriteThroughKeeps cfg mode boardId changed s) :
    SameHot ((persistIfSolo cfg mode now boardId changed s).2.redis boardId)
      (s.redis boardId) := by
  unfold persistIfSolo
  split
  · next hwrites =>
    simp only [Bool.and_eq_true, decide_eq_true_eq] at hwrites
    exact persistBoard_sameHot cfg now (hkept hwrites.1 hwrites.2)
  · exact SameHot.refl _

/-- A solo flush evicts the elements: it finds no row of the board, or meets an error that is taken
    for an invalid id. -/
def EvictsElements (cfg : Config) (writeMode : BoardSyncWriteMode) (boardId : String) (s : Server) :
    Prop :=
  writeMode = .solo ∧ Flushes cfg boardId s ∧ scanFinds boardId (boardElementsKey boardId) = true

/-- A write-through keeps the elements, unless it evicts them. -/
theorem elements_persistIfSolo (cfg : Config) (writeMode : BoardSyncWriteMode) (now : Nat)
    (changed : Bool) (boardId : String) (s : Server) :
    ((persistIfSolo cfg writeMode now boardId changed s).2.redis boardId).elements =
        (s.redis boardId).elements ∧ ¬ (EvictsElements cfg writeMode boardId s ∧ changed = true) ∨
      EvictsElements cfg writeMode boardId s ∧
        ((persistIfSolo cfg writeMode now boardId changed s).2.redis boardId).elements = ∅ := by
  by_cases hkept : WriteThroughKeeps cfg writeMode boardId changed s
  · exact .inl ⟨(persistIfSolo_sameHot cfg writeMode now changed s hkept).elements,
      fun h => hkept h.1.1 h.2 h.1.2.1⟩
  · simp only [WriteThroughKeeps, Classical.not_imp, not_not] at hkept
    obtain ⟨hsolo, rfl, hflushes⟩ := hkept
    have hflush : (persistIfSolo cfg writeMode now boardId true s).2 =
        { s with redis := flushBoard boardId s.redis } := by
      simp only [persistIfSolo, hsolo, decide_true, Bool.and_self, if_true,
        persistBoard_of_flushes now hflushes]
    rw [hflush]
    by_cases hfound : scanFinds boardId (boardElementsKey boardId) = true
    · exact .inr ⟨⟨hsolo, hflushes, hfound⟩, by
        simp [flushBoard, BoardKeys.del, BoardKeys.unindex, KeyName.key, hfound]⟩
    · refine .inl ⟨?_, fun h => hfound h.1.2.2⟩
      simp [flushBoard, BoardKeys.del, BoardKeys.unindex, KeyName.key, hfound]

/-! ### The one-by-one run -/

/-- `processMutation` on one mutation after the other; an error ends the run. -/
def processOneByOne (cfg : Config) (mode : BoardSyncWriteMode) (now : Nat) :
    List Mutation → Server → Except QueryError (List MutationResult) × Server
  | [], s => (.ok [], s)
  | m :: rest, s =>
    match processMutation cfg mode now m s with
    | (.error e, s) => (.error e, s)
    | (.ok result, s) =>
      match processOneByOne cfg mode now rest s with
      | (.error e, s) => (.error e, s)
      | (.ok results, s) => (.ok (result :: results), s)

/-- No write-through of the one-by-one run evicts the board. -/
def OneByOneKeeps (cfg : Config) (mode : BoardSyncWriteMode) (now : Nat) :
    List Mutation → Server → Prop
  | [], _ => True
  | m :: rest, s =>
    let processed := processMutationWithContext now m
      (createCachedBoardContext cfg (s.redis m.boardId) [m]) mode (s.redis m.boardId)
    WriteThroughKeeps cfg mode m.boardId processed.appliedCanonicalChange
        (s.setKeys m.boardId processed.keys) ∧
      OneByOneKeeps cfg mode now rest (processMutation cfg mode now m s).2

/-- One mutation that returns gives the answer, and leaves the elements, of the
    run on the keys. -/
theorem processMutation_keys (cfg : Config) (mode : BoardSyncWriteMode) (now : Nat) {m : Mutation}
    {rest : List Mutation} {s : Server} {k : BoardKeys} {result : MutationResult}
    (hkept : OneByOneKeeps cfg mode now (m :: rest) s)
    (hsame : SameHot (s.redis m.boardId) k)
    (hok : (processMutation cfg mode now m s).1 = .ok result) :
    let processed := processMutationWithContext now m (createCachedBoardContext cfg k [m]) mode k
    result = processed.result ∧
      SameHot ((processMutation cfg mode now m s).2.redis m.boardId) processed.keys := by
  intro processed
  have hcontext := createCachedBoardContext_congr cfg [m] hsame.elements
  obtain ⟨hresult, hflag, hkeys⟩ := processMutationWithContext_congr now m
    (createCachedBoardContext cfg k [m]) mode hsame
  have hthrough := hkept.1
  simp only [processMutation, hcontext] at hok hthrough ⊢
  set written := s.setKeys m.boardId (processMutationWithContext now m
    (createCachedBoardContext cfg k [m]) mode (s.redis m.boardId)).keys
  set flag := (processMutationWithContext now m (createCachedBoardContext cfg k [m]) mode
    (s.redis m.boardId)).appliedCanonicalChange
  -- the write-through leaves what results and elements depend on
  have hflushed := persistIfSolo_sameHot cfg mode now flag written hthrough
  have hself : written.redis m.boardId = (processMutationWithContext now m
      (createCachedBoardContext cfg k [m]) mode (s.redis m.boardId)).keys :=
    Server.setKeys_redis_self _ _ _
  rw [hself] at hflushed
  split at hok
  · cases hok
  · next hpersist =>
    rw [hpersist] at hflushed
    refine ⟨?_, hflushed.trans hkeys⟩
    rw [← Except.ok.inj hok]
    exact hresult

/-- The one-by-one run on the server is the run on the keys, when it returns. -/
theorem processOneByOne_keys (cfg : Config) (mode : BoardSyncWriteMode) (now : Nat)
    {boardId : String} {ms : List Mutation} (hboard : ∀ m ∈ ms, m.boardId = boardId) {s : Server}
    {k : BoardKeys} {results : List MutationResult}
    (hkept : OneByOneKeeps cfg mode now ms s) (hsame : SameHot (s.redis boardId) k)
    (hok : (processOneByOne cfg mode now ms s).1 = .ok results) :
    results = (eachKeys cfg now mode ms k).1 ∧
      SameHot ((processOneByOne cfg mode now ms s).2.redis boardId)
        (eachKeys cfg now mode ms k).2 := by
  induction ms generalizing s k results with
  | nil => exact ⟨(Except.ok.inj hok).symm, hsame⟩
  | cons m rest ih =>
    have hm : m.boardId = boardId := hboard m (by simp)
    subst hm
    simp only [processOneByOne] at hok ⊢
    cases hfirst : processMutation cfg mode now m s with
    | mk outcome s' =>
      rw [hfirst] at hok
      cases outcome with
      | error e => cases hok
      | ok result =>
        obtain ⟨hresult, hkeys⟩ := processMutation_keys cfg mode now hkept hsame
          (by rw [hfirst] : (processMutation cfg mode now m s).1 = .ok result)
        have hkept' := hkept.2
        rw [hfirst] at hkeys hkept'
        simp only at hok hkeys hkept'
        cases hrest : processOneByOne cfg mode now rest s' with
        | mk outcome s'' =>
          rw [hrest] at hok
          cases outcome with
          | error e => cases hok
          | ok more =>
            -- the induction goes over the mutations left, on both boards at once
            obtain ⟨hmore, hlast⟩ := ih (fun m' hm' => hboard m' (by simp [hm']))
              hkept' hkeys (by rw [hrest] : (processOneByOne cfg mode now rest s').1 = .ok more)
            rw [hrest] at hlast
            simp only at hok ⊢
            rw [← Except.ok.inj hok, hresult, hmore, hrest]
            exact ⟨rfl, hlast⟩

/-! ### The batch of one board -/

/-- The entries of a batch on one board: its mutations with their positions. -/
def entriesOf (ms : List Mutation) : List (Nat × Mutation) := ms.zipIdx.map fun p => (p.2, p.1)

theorem map_entriesOf (ms : List Mutation) : (entriesOf ms).map (·.2) = ms := by
  simp [entriesOf, Function.comp_def]

theorem groupByBoard_single {boardId : String} {ms : List Mutation}
    (hboard : ∀ m ∈ ms, m.boardId = boardId) (hne : ms ≠ []) :
    groupByBoard ms = [(boardId, entriesOf ms)] := by
  have hall : ∀ p ∈ ms.zipIdx, p.1.boardId = boardId := by
    intro p hp
    exact hboard p.1 (List.fst_mem_of_mem_zipIdx hp)
  unfold groupByBoard entriesOf
  cases hzip : ms.zipIdx with
  | nil =>
    rw [List.zipIdx_eq_nil_iff] at hzip
    exact absurd hzip hne
  | cons first rest =>
    rw [hzip] at hall
    obtain ⟨m, i⟩ := first
    have hm : m.boardId = boardId := hall (m, i) (by simp)
    subst hm
    rw [List.foldl_cons]
    -- the group exists from the first mutation on, and every other joins it
    suffices h : ∀ (l : List (Mutation × Nat)) (acc : List (Nat × Mutation)),
        (∀ p ∈ l, p.1.boardId = m.boardId) →
        l.foldl addEntry [(m.boardId, acc)] = [(m.boardId, acc ++ l.map fun p => (p.2, p.1))] by
      simpa [addEntry] using h rest [(i, m)] fun p hp => hall p (by simp [hp])
    intro l
    induction l with
    | nil => simp
    | cons p l ih =>
      intro acc hl
      have hp : p.1.boardId = m.boardId := hl p (by simp)
      have hstep : addEntry [(m.boardId, acc)] p = [(m.boardId, acc ++ [(p.2, p.1)])] := by
        simp [addEntry, hp]
      rw [List.foldl_cons, hstep, ih _ fun q hq => hl q (by simp [hq])]
      simp

theorem processEntries_indices (now : Nat) (mode : BoardSyncWriteMode)
    (entries : List (Nat × Mutation)) (context : Dict BoardElement) (k : BoardKeys) :
    (processEntries now mode entries context k).1.map (·.1) = entries.map (·.1) := by
  induction entries generalizing context k with
  | nil => rfl
  | cons entry rest ih =>
    obtain ⟨index, m⟩ := entry
    simp only [processEntries, List.map_cons, ih]

theorem processEntries_length (now : Nat) (mode : BoardSyncWriteMode) (ms : List Mutation)
    (context : Dict BoardElement) (k : BoardKeys) :
    (processEntries now mode (entriesOf ms) context k).1.length = ms.length := by
  have h := congrArg List.length (processEntries_indices now mode (entriesOf ms) context k)
  simpa only [entriesOf, List.length_map, List.length_zipIdx] using h

/-- Results under the positions `0, 1, ...` fill the slots in order. -/
theorem fillResults_eq {results : List (Nat × MutationResult)}
    (h : results.map (·.1) = List.range results.length) :
    fillResults results.length results = results.map fun r => some r.2 := by
  suffices hfill : ∀ (rest : List (Nat × MutationResult)) (filled : List (Option MutationResult)),
      rest.map (·.1) = List.range' filled.length rest.length →
      rest.foldl (fun slots r => slots.set r.1 (some r.2))
        (filled ++ List.replicate rest.length none) =
        filled ++ rest.map fun r => some r.2 by
    have hzero := hfill results [] (by rw [h, List.range_eq_range']; rfl)
    simpa [fillResults] using hzero
  intro rest
  induction rest with
  | nil => simp
  | cons r rest ih =>
    intro filled hindices
    simp only [List.map_cons, List.length_cons, List.range'_succ, List.cons.injEq] at hindices
    obtain ⟨hr, hrest⟩ := hindices
    have hset : (filled ++ List.replicate (rest.length + 1) none).set r.1 (some r.2) =
        (filled ++ [some r.2]) ++ List.replicate rest.length none := by
      rw [hr, List.replicate_succ]
      simp
    rw [List.foldl_cons, List.length_cons, hset, ih]
    · simp
    · simpa using hrest

/-- The write-through of the batch does not evict the board. -/
def BatchKeeps (cfg : Config) (mode : BoardSyncWriteMode) (now : Nat) (boardId : String)
    (ms : List Mutation) (s : Server) : Prop :=
  let loop := processEntries now mode (entriesOf ms)
    (createCachedBoardContext cfg (s.redis boardId) ms) (s.redis boardId)
  WriteThroughKeeps cfg mode boardId loop.2.1 (s.setKeys boardId loop.2.2)

/-- A batch on one board: its loop over the keys, and the write-through. -/
theorem processBatch_single (cfg : Config) (mode : BoardSyncWriteMode) (now : Nat)
    {boardId : String} {ms : List Mutation} (hboard : ∀ m ∈ ms, m.boardId = boardId)
    (hne : ms ≠ []) (s : Server) :
    let loop := processEntries now mode (entriesOf ms)
      (createCachedBoardContext cfg (s.redis boardId) ms) (s.redis boardId)
    let written := persistIfSolo cfg mode now boardId loop.2.1 (s.setKeys boardId loop.2.2)
    processBatch cfg (fun _ => mode) now ms s =
      match written.1 with
      | some e => (.error e, written.2)
      | none => (.ok (loop.1.map fun r => some r.2), written.2) := by
  intro loop written
  have hlength : loop.1.length = ms.length := processEntries_length _ _ _ _ _
  have hindices : loop.1.map (·.1) = List.range loop.1.length := by
    rw [processEntries_indices, hlength]
    simp [entriesOf, Function.comp_def, List.range_eq_range']
  simp only [processBatch, groupByBoard_single hboard hne, processBoards, processBoardBatch,
    map_entriesOf]
  cases hpersist : persistIfSolo cfg mode now boardId loop.2.1 (s.setKeys boardId loop.2.2) with
  | mk failure s' =>
    have hwritten : written = (failure, s') := hpersist
    rw [hwritten]
    cases failure with
    | some e => rfl
    | none =>
      simp only [List.append_nil]
      rw [← hlength, fillResults_eq hindices]

/-- A batch on one board that returns gives the results, and leaves the elements,
    of its loop over the keys. -/
theorem processBatch_keys (cfg : Config) (mode : BoardSyncWriteMode) (now : Nat)
    {boardId : String} {ms : List Mutation} (hboard : ∀ m ∈ ms, m.boardId = boardId)
    (hne : ms ≠ []) {s : Server} {results : List (Option MutationResult)}
    (hkept : BatchKeeps cfg mode now boardId ms s)
    (hok : (processBatch cfg (fun _ => mode) now ms s).1 = .ok results) :
    let loop := processEntries now mode (entriesOf ms)
      (createCachedBoardContext cfg (s.redis boardId) ms) (s.redis boardId)
    results = loop.1.map (fun r => some r.2) ∧
      SameHot ((processBatch cfg (fun _ => mode) now ms s).2.redis boardId) loop.2.2 := by
  intro loop
  have hflushed := persistIfSolo_sameHot cfg mode now loop.2.1
    (s.setKeys boardId loop.2.2) hkept
  rw [Server.setKeys_redis_self] at hflushed
  rw [processBatch_single cfg mode now hboard hne s] at hok ⊢
  cases hpersist : persistIfSolo cfg mode now boardId loop.2.1 (s.setKeys boardId loop.2.2) with
  | mk failure s' =>
    rw [hpersist] at hok hflushed
    cases failure with
    | some e => cases hok
    | none => exact ⟨(Except.ok.inj hok).symm, hflushed⟩

/-! ### The batch against the one-by-one run -/

/-- Both runs return. -/
def BothReturn (cfg : Config) (mode : BoardSyncWriteMode) (now : Nat) (ms : List Mutation)
    (s : Server) : Prop :=
  (∃ results, (processBatch cfg (fun _ => mode) now ms s).1 = .ok results) ∧
    ∃ results, (processOneByOne cfg mode now ms s).1 = .ok results

theorem processBoards_collab (cfg : Config) (now : Nat)
    (groups : List (String × List (Nat × Mutation))) (s : Server) :
    ∃ results, (processBoards cfg (fun _ => .collab) now groups s).1 = .ok results := by
  induction groups generalizing s with
  | nil => exact ⟨[], rfl⟩
  | cons group rest ih =>
    obtain ⟨boardId, entries⟩ := group
    simp only [processBoards, processBoardBatch, persistIfSolo, reduceCtorEq, decide_false,
      Bool.false_and, Bool.false_eq_true, if_false]
    set s' := s.setKeys boardId (processEntries now .collab entries
      (createCachedBoardContext cfg (s.redis boardId) (entries.map (·.2))) (s.redis boardId)).2.2
    obtain ⟨more, hmore⟩ := ih s'
    split
    · next herror =>
      rw [herror] at hmore
      cases hmore
    · exact ⟨_, rfl⟩

theorem processOneByOne_collab (cfg : Config) (now : Nat) (ms : List Mutation) (s : Server) :
    ∃ results, (processOneByOne cfg .collab now ms s).1 = .ok results := by
  induction ms generalizing s with
  | nil => exact ⟨[], rfl⟩
  | cons m rest ih =>
    simp only [processOneByOne, processMutation, persistIfSolo, reduceCtorEq, decide_false,
      Bool.false_and, Bool.false_eq_true, if_false]
    obtain ⟨more, hmore⟩ := ih (s.setKeys m.boardId (processMutationWithContext now m
      (createCachedBoardContext cfg (s.redis m.boardId) [m]) .collab (s.redis m.boardId)).keys)
    split
    · next herror =>
      rw [herror] at hmore
      cases hmore
    · exact ⟨_, rfl⟩

/-- In collab mode nothing is written through, and both runs return. -/
theorem bothReturn_collab (cfg : Config) (now : Nat) (ms : List Mutation) (s : Server) :
    BothReturn cfg .collab now ms s := by
  constructor
  · obtain ⟨results, hresults⟩ := processBoards_collab cfg now (groupByBoard ms) s
    unfold processBatch
    split
    · next herror =>
      rw [herror] at hresults
      cases hresults
    · exact ⟨_, rfl⟩
  · exact processOneByOne_collab cfg now ms s

/-- When both return, the batch gives position by position the results of the
    one-by-one run, and leaves the same elements and the same sequence number. -/
def BatchIsSequential (cfg : Config) (mode : BoardSyncWriteMode) (now : Nat) (boardId : String)
    (ms : List Mutation) (s : Server) : Prop :=
  ∀ results oneByOne, (processBatch cfg (fun _ => mode) now ms s).1 = .ok results →
    (processOneByOne cfg mode now ms s).1 = .ok oneByOne →
      results = oneByOne.map some ∧
      ((processBatch cfg (fun _ => mode) now ms s).2.redis boardId).elements =
        ((processOneByOne cfg mode now ms s).2.redis boardId).elements ∧
      ((processBatch cfg (fun _ => mode) now ms s).2.redis boardId).seq =
        ((processOneByOne cfg mode now ms s).2.redis boardId).seq

/-- When no write-through evicts the board, a batch is its mutations one after the
    other exactly when they ask alike at every step. -/
theorem isSequential_iff_askAlike (cfg : Config) (mode : BoardSyncWriteMode) (now : Nat)
    {boardId : String} {ms : List Mutation} {s : Server}
    (hboard : ∀ m ∈ ms, m.boardId = boardId) (hone : OneByOneKeeps cfg mode now ms s)
    (hbatch : BatchKeeps cfg mode now boardId ms s) :
    BatchIsSequential cfg mode now boardId ms s ↔
      (BothReturn cfg mode now ms s →
        AskAlike cfg now mode (createCachedBoardContext cfg (s.redis boardId) ms).keys ms
          (s.redis boardId)) := by
  by_cases hne : ms = []
  · subst hne
    constructor
    · intro _ _
      trivial
    · intro _ results oneByOne hbatch hone
      cases hbatch
      cases hone
      exact ⟨rfl, rfl, rfl⟩
  -- the context of the batch shows the ids it prefetched
  have hshown : ∀ id, (createCachedBoardContext cfg (s.redis boardId) ms).lookup id =
      shown (createCachedBoardContext cfg (s.redis boardId) ms).keys
        (s.redis boardId).elements.lookup id :=
    lookup_context_shown cfg (s.redis boardId) ms
  have hsteps := processEntries_results_iff cfg now mode (entriesOf ms) hshown
  have hkeys := processEntries_keys cfg now mode (entriesOf ms) hshown
  rw [map_entriesOf] at hsteps hkeys
  constructor
  · rintro hsame ⟨⟨results, hresult⟩, ⟨oneByOne, hreturn⟩⟩
    obtain ⟨hresults, _⟩ := processBatch_keys cfg mode now hboard hne hbatch hresult
    obtain ⟨heach, _⟩ := processOneByOne_keys cfg mode now hboard hone (SameHot.refl _) hreturn
    have hequal := (hsame results oneByOne hresult hreturn).1
    rw [hresults, heach] at hequal
    rw [← hsteps]
    -- the slots of the answer are all filled
    apply List.map_injective_iff.mpr (fun _ _ h => Option.some.inj h : Function.Injective some)
    rw [List.map_map]
    exact hequal
  · intro hsees results oneByOne hresult hreturn
    obtain ⟨hresults, hbatchHot⟩ := processBatch_keys cfg mode now hboard hne hbatch hresult
    obtain ⟨heach, honeHot⟩ :=
      processOneByOne_keys cfg mode now hboard hone (SameHot.refl _) hreturn
    have halike := hsees ⟨⟨results, hresult⟩, ⟨oneByOne, hreturn⟩⟩
    have hloop := hkeys halike
    rw [hloop] at hbatchHot
    have hsame := hbatchHot.trans honeHot.symm
    refine ⟨?_, hsame.elements, hsame.seq⟩
    rw [hresults, heach, ← hsteps.mpr halike, List.map_map]
    rfl

/-- Where no write-through evicts the board, a batch is its mutations one after the
    other when, both returning, it sees enough of the board at every step; and
    only then, on a board without an element under the empty id. -/
theorem processBatch_isSequential (cfg : Config) (mode : BoardSyncWriteMode) (now : Nat)
    (boardId : String) (ms : List Mutation) (s : Server)
    (hboard : ∀ m ∈ ms, m.boardId = boardId) (hone : OneByOneKeeps cfg mode now ms s)
    (hbatch : BatchKeeps cfg mode now boardId ms s) :
    let sees := BothReturn cfg mode now ms s →
      BatchSees cfg now mode (createCachedBoardContext cfg (s.redis boardId) ms).keys ms
        (s.redis boardId)
    (sees → BatchIsSequential cfg mode now boardId ms s) ∧
      (NeverEmptyId cfg now mode ms (s.redis boardId) →
        BatchIsSequential cfg mode now boardId ms s → sees) := by
  have hcovers := coversAll_context cfg (s.redis boardId) ms
  rw [isSequential_iff_askAlike cfg mode now hboard hone hbatch]
  constructor
  · intro hsees hreturn
    exact askAlike_of_sees hcovers (hsees hreturn)
  · intro hempty halike hreturn
    exact sees_of_askAlike hcovers hempty (halike hreturn)

/-- Two notes created on an existing board in solo mode, in one batch or one by one. -/
theorem processBatch_isSequential_creates :
    let boardId := "aaaaaaaa-aaaa-4aaa-8aaa-aaaaaaaaaaaa"
    let s : Server := ⟨fun _ => { seq := some 0 }, ⟨AList.singleton boardId (), ∅⟩⟩
    let note : String → BoardElement := fun id => ⟨id, AList.singleton "kind" (.str "NOTE")⟩
    BatchIsSequential {} .solo 0 boardId
      [⟨"m1", boardId, .createElement "a" (note "a")⟩,
       ⟨"m2", boardId, .createElement "b" (note "b")⟩] s := by
  intro boardId s note
  let ms : List Mutation := [⟨"m1", boardId, .createElement "a" (note "a")⟩,
    ⟨"m2", boardId, .createElement "b" (note "b")⟩]
  -- every write-through commits
  have hone : OneByOneKeeps {} .solo 0 ms s :=
    ⟨fun _ _ => not_flushes_of_isOk (by decide) (by decide),
      fun _ _ => not_flushes_of_isOk (by decide) (by decide), trivial⟩
  have hbatch : BatchKeeps {} .solo 0 boardId ms s :=
    fun _ _ => not_flushes_of_isOk (by decide) (by decide)
  refine (processBatch_isSequential {} .solo 0 boardId ms s (by simp [ms]) hone hbatch).1 ?_
  intro _
  exact ⟨.inr (.inr rfl), .inr (.inr rfl), trivial⟩

/-- A note is created into a locked column and then moved. One by one, the move
    reads the note's column and is blocked; in a batch the column was not read,
    for the note did not exist yet, and the move goes through. -/
theorem processBatch_moves_locked :
    let column : BoardElement := ⟨"column", AList.singleton "locked" (.bool true)⟩
    let note : BoardElement := ⟨"note", AList.singleton "containerId" (.str "column")⟩
    let s : Server :=
      ⟨fun _ => { seq := some 0, elements := AList.singleton "column" column }, ⟨∅, ∅⟩⟩
    ¬ BatchIsSequential {} .collab 0 "board"
      [⟨"m1", "board", .createElement "note" note⟩,
       ⟨"m2", "board", .moveElements [⟨"note", some (.num 5), some (.num 5)⟩] false⟩] s := by
  intro column note s h
  have hresults := (h _ _ rfl rfl).1
  have hchanged := congrArg (List.map (Option.map fun r => r.change.isSome)) hresults
  revert hchanged
  decide

end Notebortt
