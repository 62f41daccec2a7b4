import Notebortt.Mutations.BatchEquivalence

/-! # The positions of locked elements

    The lock rules look at the ids an operation names; the writes go to the ids
    inside the payloads. A created element, or a patch that carries an `id`, lands
    on an element that no rule has looked at. -/

namespace Notebortt

/-! ### Locked elements -/

/-- The element is locked, or directly inside a locked container or meta. -/
def isPositionLocked (context : LockContext) (element : BoardElement) : Bool :=
  isElementLocked element || isInsideLockedContainer context element

/-- Every position and containment field is the same. -/
def SamePositions (e e' : BoardElement) : Prop :=
  ∀ key ∈ POSITION_FIELDS, e'.fields.lookup key = e.fields.lookup key

/-- Every locked element that is there after the mutation has the position it had. -/
def KeepsLockedPositions (cfg : Config) (writeMode : BoardSyncWriteMode) (now : Nat)
    (mutation : Mutation) (s : Server) : Prop :=
  ∀ id e, (s.redis mutation.boardId).elements.lookup id = some e →
    isPositionLocked (s.redis mutation.boardId).elements.lookup e = true →
      ∀ e',
        ((processMutation cfg writeMode now mutation s).2.redis mutation.boardId).elements.lookup
          id = some e' → SamePositions e e'

theorem SamePositions.refl (e : BoardElement) : SamePositions e e := fun _ _ => rfl

/-- What is looked up where nothing has changed, or nothing is left. -/
theorem SamePositions.of_kept_or_gone {before after : Dict BoardElement} {id : String}
    {e e' : BoardElement} (h : after.lookup id = before.lookup id ∨ after.lookup id = none)
    (he : before.lookup id = some e) (he' : after.lookup id = some e') : SamePositions e e' := by
  rw [he'] at h
  rcases h with hsame | hgone
  · obtain rfl := Option.some.inj (hsame.trans he)
    exact .refl e'
  · cases hgone

/-! ### Writes -/

/-- A payload, and the element it was made from. -/
structure Write where
  origin : Option String
  payload : BoardElement

/-- What an operation writes, in order. -/
def writes (context : LockContext) : Operation → List Write
  | .createElement _ data => [⟨none, data⟩]
  | .updateElement elementId fields =>
    (toUpsertFromCache context elementId (·.patch fields)).map (⟨some elementId, ·⟩)
  | .moveElements moves _ => moves.flatMap fun move =>
    (toUpsertFromCache context move.elementId fun existing =>
      { existing with
        fields := setMember (setMember existing.fields "x" move.x) "y" move.y }).map
      (⟨some move.elementId, ·⟩)
  | .updateElements updates => updates.flatMap fun u =>
    (toUpsertFromCache context u.elementId (·.patch u.fields)).map (⟨some u.elementId, ·⟩)
  | .reorderElement elementId zIndex =>
    (toUpsertFromCache context elementId fun existing =>
      { existing with fields := existing.fields.insert "zIndex" (.num zIndex) }).map
      (⟨some elementId, ·⟩)
  | .deleteElements _ => []
  | .reconcileMonthRange _ upserts _ => upserts.map (⟨none, ·⟩)

/-- The write that stays under the id. -/
def lastWrite (context : LockContext) (operation : Operation) (id : String) : Option Write :=
  (writes context operation).reverse.find? (·.payload.id = id)

theorem payload_writes (context : LockContext) (operation : Operation) :
    (writes context operation).map (·.payload) = (toChangeSet context operation).upserts := by
  cases operation <;> simp [writes, toChangeSet, List.map_flatMap, Function.comp_def]

/-- The write that lands on the element is one the lock rules have let pass for the
    element itself, or leaves its position. -/
def LandsSafely (cfg : Config) (elementsById : LockContext) (operation : Operation) (id : String)
    (e : BoardElement) : Prop :=
  ∀ w, lastWrite (readable cfg elementsById) operation id = some w →
    w.origin = some id ∧ isPositionLocked (readable cfg elementsById) e = true ∨
      SamePositions e w.payload

/-- Every locked element is one that the writes land on safely, if at all. -/
def WritesLandSafely (cfg : Config) (k : BoardKeys) (operation : Operation) : Prop :=
  ∀ id e, k.elements.lookup id = some e → isPositionLocked k.elements.lookup e = true →
    LandsSafely cfg k.elements.lookup operation id e

/-! ### A write addressed to the element -/

section own
variable {context : LockContext} {operation : Operation} {id : String} {e : BoardElement}

theorem mem_toUpsertFromCache {elementId : String} {transform : BoardElement → BoardElement}
    {payload : BoardElement} :
    payload ∈ toUpsertFromCache context elementId transform ↔
      ∃ existing, context elementId = some existing ∧ payload = transform existing := by
  unfold toUpsertFromCache
  cases context elementId <;> simp

theorem samePositions_patch {fields : ElementFields} (h : isPositionPatch fields = false) :
    SamePositions e (e.patch fields) := by
  intro key hkey
  have hnone : fields.fields.lookup key = none := by
    have hall := List.any_eq_false.mp h key hkey
    simpa using hall
  rw [BoardElement.patch_lookup, hnone, Option.none_or]

theorem samePositions_reorder (zIndex : Rat) :
    SamePositions e { e with fields := e.fields.insert "zIndex" (.num zIndex) } := by
  intro key hkey
  have hne : key ≠ "zIndex" := by
    rintro rfl
    revert hkey
    decide
  exact AList.lookup_insert_ne hne

theorem isHeld_of_isPositionLocked (h : isPositionLocked context e = true) :
    isHeld context e = true := by
  unfold isPositionLocked at h
  simp [isHeld, h]

theorem samePositions_of_not_isPatchBlocked (hcontext : context id = some e)
    (hlocked : isPositionLocked context e = true) {fields : ElementFields}
    (h : isPatchBlocked context id fields = false) : SamePositions e (e.patch fields) := by
  apply samePositions_patch
  by_contra hpatch
  rw [Bool.not_eq_false] at hpatch
  simp [isPatchBlocked, hpatch, hcontext, isHeld_of_isPositionLocked hlocked] at h

/-- A write the rules let pass for a locked element itself leaves its position. -/
theorem samePositions_of_own (hcontext : context id = some e)
    (hlocked : isPositionLocked context e = true)
    (hblocked : isMutationBlockedByLock operation context = false) {w : Write}
    (hw : w ∈ writes context operation) (horigin : w.origin = some id) :
      SamePositions e w.payload := by
  cases operation with
  | createElement elementId data =>
    simp only [writes, List.mem_singleton] at hw
    rw [hw] at horigin
    cases horigin
  | updateElement elementId fields =>
    simp only [writes, List.mem_map, mem_toUpsertFromCache] at hw
    obtain ⟨payload, ⟨existing, hexisting, rfl⟩, rfl⟩ := hw
    obtain rfl := Option.some.inj horigin
    obtain rfl := Option.some.inj (hcontext.symm.trans hexisting)
    exact samePositions_of_not_isPatchBlocked hcontext hlocked hblocked
  | moveElements moves transient =>
    simp only [writes, List.mem_flatMap, List.mem_map, mem_toUpsertFromCache] at hw
    obtain ⟨move, hmove, payload, ⟨existing, hexisting, rfl⟩, rfl⟩ := hw
    obtain rfl := Option.some.inj horigin
    have hpassed := List.any_eq_false.mp hblocked move hmove
    simp [isMoveBlocked, hcontext, isHeld_of_isPositionLocked hlocked] at hpassed
  | updateElements updates =>
    simp only [writes, List.mem_flatMap, List.mem_map, mem_toUpsertFromCache] at hw
    obtain ⟨u, hu, payload, ⟨existing, hexisting, rfl⟩, rfl⟩ := hw
    obtain rfl := Option.some.inj horigin
    obtain rfl := Option.some.inj (hcontext.symm.trans hexisting)
    have hpassed := List.any_eq_false.mp hblocked u hu
    exact samePositions_of_not_isPatchBlocked hcontext hlocked (Bool.eq_false_iff.mpr hpassed)
  | reorderElement elementId zIndex =>
    simp only [writes, List.mem_map, mem_toUpsertFromCache] at hw
    obtain ⟨payload, ⟨existing, hexisting, rfl⟩, rfl⟩ := hw
    obtain rfl := Option.some.inj horigin
    obtain rfl := Option.some.inj (hcontext.symm.trans hexisting)
    exact samePositions_reorder zIndex
  | deleteElements elementIds => cases hw
  | reconcileMonthRange metaId upserts deletes =>
    simp only [writes, List.mem_map] at hw
    obtain ⟨payload, _, rfl⟩ := hw
    cases horigin

/-- A write is addressed to an element of the context. -/
theorem context_of_origin {w : Write} (hw : w ∈ writes context operation)
    (horigin : w.origin = some id) :
    ∃ existing, context id = some existing := by
  cases operation with
  | createElement elementId data =>
    simp only [writes, List.mem_singleton] at hw
    rw [hw] at horigin
    cases horigin
  | updateElement elementId fields =>
    simp only [writes, List.mem_map, mem_toUpsertFromCache] at hw
    obtain ⟨payload, ⟨existing, hexisting, _⟩, rfl⟩ := hw
    exact ⟨existing, Option.some.inj horigin ▸ hexisting⟩
  | moveElements moves transient =>
    simp only [writes, List.mem_flatMap, List.mem_map, mem_toUpsertFromCache] at hw
    obtain ⟨move, _, payload, ⟨existing, hexisting, _⟩, rfl⟩ := hw
    exact ⟨existing, Option.some.inj horigin ▸ hexisting⟩
  | updateElements updates =>
    simp only [writes, List.mem_flatMap, List.mem_map, mem_toUpsertFromCache] at hw
    obtain ⟨u, _, payload, ⟨existing, hexisting, _⟩, rfl⟩ := hw
    exact ⟨existing, Option.some.inj horigin ▸ hexisting⟩
  | reorderElement elementId zIndex =>
    simp only [writes, List.mem_map, mem_toUpsertFromCache] at hw
    obtain ⟨payload, ⟨existing, hexisting, _⟩, rfl⟩ := hw
    exact ⟨existing, Option.some.inj horigin ▸ hexisting⟩
  | deleteElements elementIds => cases hw
  | reconcileMonthRange metaId upserts deletes =>
    simp only [writes, List.mem_map] at hw
    obtain ⟨payload, _, rfl⟩ := hw
    cases horigin

end own

/-! ### What the mutation leaves -/

section after
variable {cfg : Config} {writeMode : BoardSyncWriteMode} {now : Nat} {mutation : Mutation}
  {s : Server}

theorem writes_congr {operation : Operation} {c c' : LockContext}
    (h : ∀ id ∈ touchedIds operation, c id = c' id) :
    writes c operation = writes c' operation := by
  have hcache : ∀ t ∈ touchedIds operation, ∀ transform,
      toUpsertFromCache c t transform = toUpsertFromCache c' t transform := by
    intro t ht transform
    simp only [toUpsertFromCache, h t ht]
  cases operation with
  | createElement elementId data => rfl
  | updateElement elementId fields => simp only [writes, hcache elementId (by simp [touchedIds])]
  | moveElements moves transient =>
    apply List.flatMap_congr
    intro move hmove
    rw [hcache move.elementId (List.mem_map.mpr ⟨move, hmove, rfl⟩)]
  | updateElements updates =>
    apply List.flatMap_congr
    intro u hu
    rw [hcache u.elementId (List.mem_map.mpr ⟨u, hu, rfl⟩)]
  | reorderElement elementId zIndex => simp only [writes, hcache elementId (by simp [touchedIds])]
  | deleteElements elementIds => rfl
  | reconcileMonthRange metaId upserts deletes => rfl

/-- Without deletes, the id shows the last write to it. -/
theorem lookup_applyTo_writes (context : LockContext) (operation : Operation) (sequence : Nat)
    (d : Dict BoardElement) (id : String) :
    (PersistedElementChange.applyTo
        ⟨sequence, normalizeUpserts (toChangeSet context operation).upserts, []⟩ d).lookup id =
      ((lastWrite context operation id).map (·.payload)).or (d.lookup id) := by
  simp only [PersistedElementChange.applyTo, Dict.eraseAll_nil]
  rw [lookup_insertAll_upserts (nodup_normalizeUpserts _), find?_normalizeUpserts, ← payload_writes,
    ← List.map_reverse, List.find?_map]
  rfl

theorem lookup_applyTo_deletes (sequence : Nat) (deletes : List String) (d : Dict BoardElement)
    (id : String) :
    (PersistedElementChange.applyTo ⟨sequence, [], deletes⟩ d).lookup id = d.lookup id ∨
      (PersistedElementChange.applyTo ⟨sequence, [], deletes⟩ d).lookup id = none := by
  simp only [PersistedElementChange.applyTo, List.map_nil, Dict.insertAll_nil, Dict.lookup_eraseAll]
  by_cases hmem : id ∈ deletes <;> simp [hmem]

/-- The server with the change set of a mutation merged into the board. -/
def Server.merge (cfg : Config) (writeMode : BoardSyncWriteMode) (now : Nat)
    (mutation : Mutation) (s : Server) : Server :=
  let k := s.redis mutation.boardId
  let context := createCachedBoardContext cfg k [mutation]
  s.setKeys mutation.boardId (applyChangeSet (writeMode = .collab) now
    (toChangeSet context.lookup mutation.operation) (k.claim mutation.mutationId)).2

/-- Only a reconcile can be invalid. -/
theorem validateReconcileMonthRange_of_other {operation : Operation} {context : LockContext}
    (hoperation : ∀ metaId upserts deletes,
      operation ≠ .reconcileMonthRange metaId upserts deletes) :
    validateReconcileMonthRange operation context = none := by
  cases operation with
  | reconcileMonthRange metaId upserts deletes =>
    exact absurd rfl (hoperation metaId upserts deletes)
  | _ => rfl

/-- Passed on, seen before or blocked, a mutation leaves the elements. -/
theorem elements_of_turnedAway {context : Dict BoardElement} {k : BoardKeys}
    (h : mutation.isTransient = true ∨ mutation.mutationId ∈ k.seen ∨
      isMutationBlockedByLock mutation.operation context.lookup = true) :
    (processMutationWithContext now mutation context writeMode k).keys.elements = k.elements := by
  cases htransient : mutation.isTransient with
  | true => simp [processMutationWithContext, htransient]
  | false =>
    by_cases hseen : mutation.mutationId ∈ k.seen
    · simp [processMutationWithContext, htransient, tryMarkSeen, hseen]
    · have hblocked : isMutationBlockedByLock mutation.operation context.lookup = true := by
        simpa [htransient, hseen] using h
      simp [processMutationWithContext, htransient, tryMarkSeen, hseen, processClaimed, hblocked,
        unchangedResult]

/-- So does a mutation that reports no change. -/
theorem elements_of_unchanged {context : Dict BoardElement} {k : BoardKeys}
    (h : (processMutationWithContext now mutation context
      writeMode k).appliedCanonicalChange = false) :
    (processMutationWithContext now mutation context writeMode k).keys.elements = k.elements := by
  cases processMutationWithContext_turn now mutation context writeMode k with
  | away _ _ _ keys => rw [keys]
  | unchanged _ _ _ keys =>
    rw [keys]
    rfl
  | changed _ _ _ _ flag _ =>
    rw [flag] at h
    cases h

/-- Otherwise it applies its change set. -/
theorem elements_of_applied {context : Dict BoardElement} {k : BoardKeys}
    (hoperation : ∀ metaId upserts deletes,
      mutation.operation ≠ .reconcileMonthRange metaId upserts deletes)
    (htransient : mutation.isTransient = false) (hseen : mutation.mutationId ∉ k.seen)
    (hblocked : isMutationBlockedByLock mutation.operation context.lookup = false) :
    let resolved := resolveChangeSet k.elementList (toChangeSet context.lookup mutation.operation)
    (processMutationWithContext now mutation context writeMode k).keys.elements =
      PersistedElementChange.applyTo ⟨peekSequence k + 1, resolved.upserts, resolved.deletes⟩
        k.elements := by
  intro resolved
  have hvalid : validateReconcileMonthRange mutation.operation context.lookup = none :=
    validateReconcileMonthRange_of_other hoperation
  have hrequested : requestedChange k context.lookup mutation.operation = resolved := by
    simp [requestedChange, hblocked, hvalid, resolved]
  have hmarked : tryMarkSeen mutation.mutationId k =
      (true, { k with seen := k.seen.add [mutation.mutationId] }) := by
    simp [tryMarkSeen, hseen]
  rw [processMutationWithContext_unseen now mutation context writeMode k htransient hseen,
    hrequested, hmarked]
  unfold writeRequested
  split
  · next hempty =>
    simp only [Bool.and_eq_true, List.isEmpty_iff] at hempty
    simp [hempty, PersistedElementChange.applyTo, unchangedResult]
  · simp only [runPipeline_writePipeline, getSequence]
    rfl

/-- What an applied mutation shows under an id: the last write to it, or, after a
    deletion, at most what was there. -/
theorem lookup_of_applied {context : Dict BoardElement} {k : BoardKeys}
    (hoperation : ∀ metaId upserts deletes,
      mutation.operation ≠ .reconcileMonthRange metaId upserts deletes)
    (htransient : mutation.isTransient = false) (hseen : mutation.mutationId ∉ k.seen)
    (hblocked : isMutationBlockedByLock mutation.operation context.lookup = false) (id : String) :
    let after := (processMutationWithContext now mutation context writeMode k).keys.elements
    match lastWrite context.lookup mutation.operation id with
    | some w => after.lookup id = some w.payload
    | none => after.lookup id = k.elements.lookup id ∨ after.lookup id = none := by
  intro after
  have hafter : after = _ := elements_of_applied hoperation htransient hseen hblocked
  by_cases hdeletes : (toChangeSet context.lookup mutation.operation).deletes = []
  · have hlookup : after.lookup id =
        ((lastWrite context.lookup mutation.operation id).map (·.payload)).or
          (k.elements.lookup id) := by
      rw [hafter]
      simp only [resolveChangeSet, hdeletes, List.isEmpty_nil, if_true, List.not_mem_nil,
        not_false_eq_true, decide_true, List.filter_true]
      exact lookup_applyTo_writes context.lookup mutation.operation
        (peekSequence k + 1) k.elements id
    rw [hlookup]
    cases lastWrite context.lookup mutation.operation id with
    | some w => rfl
    | none => exact .inl rfl
  · -- only a deletion deletes, and it writes nothing
    cases hop : mutation.operation with
    | deleteElements elementIds =>
      have hlast : lastWrite context.lookup (.deleteElements elementIds) id = none := rfl
      rw [hlast, hafter, hop]
      exact lookup_applyTo_deletes _ _ _ id
    | reconcileMonthRange metaId upserts deletes =>
      exact absurd hop (hoperation metaId upserts deletes)
    | _ => simp [hop, toChangeSet] at hdeletes

/-- A write that lands safely on a locked element leaves its position. -/
theorem samePositions_of_landsSafely {k : BoardKeys} {id : String} {e : BoardElement}
    (he : k.elements.lookup id = some e)
    (hblocked : isMutationBlockedByLock mutation.operation
      (createCachedBoardContext cfg k [mutation]).lookup = false)
    (hsafe : LandsSafely cfg k.elements.lookup mutation.operation id e) {w : Write}
    (hw : lastWrite (readable cfg k.elements.lookup) mutation.operation id = some w) :
    SamePositions e w.payload := by
  rcases hsafe w hw with ⟨horigin, hlocked⟩ | hsame
  · have hmem : w ∈ writes (readable cfg k.elements.lookup) mutation.operation :=
      List.mem_reverse.mp (List.mem_of_find?_eq_some hw)
    have hcontext : readable cfg k.elements.lookup id = some e := by
      obtain ⟨existing, hexisting⟩ := context_of_origin hmem horigin
      unfold readable at hexisting ⊢
      split at hexisting
      · cases hexisting
      · next hread =>
        rw [if_neg hread]
        exact he
    cases hreads : mutation.operation.readsAhead with
    | true =>
      rw [(context_verdicts cfg k mutation hreads).1] at hblocked
      exact samePositions_of_own hcontext hlocked hblocked hmem horigin
    | false =>
      -- a creation or a deletion is addressed to no element
      cases hop : mutation.operation with
      | createElement elementId data =>
        rw [hop] at hmem
        rw [List.mem_singleton.mp hmem] at horigin
        cases horigin
      | deleteElements elementIds =>
        rw [hop] at hmem
        cases hmem
      | _ => rw [hop] at hreads; cases hreads
  · exact hsame

theorem lastWrite_context (cfg : Config) (k : BoardKeys) (mutation : Mutation) (id : String) :
    lastWrite (createCachedBoardContext cfg k [mutation]).lookup mutation.operation id =
      lastWrite (readable cfg k.elements.lookup) mutation.operation id := by
  have hwrites : writes (createCachedBoardContext cfg k [mutation]).lookup mutation.operation =
      writes (readable cfg k.elements.lookup) mutation.operation := by
    refine writes_congr fun t ht => ?_
    exact (lookup_createCachedBoardContext cfg k [mutation] t).1
      ⟨⟨mutation, by simp, List.ne_nil_of_mem ht⟩, .inl ⟨mutation, by simp, ht⟩⟩
  simp only [lastWrite, hwrites]

/-- A mutation that is no reconcile keeps the positions of the locked elements exactly
    when it is passed on, was seen or is blocked, when the flush after it evicts the
    elements, or when its writes land safely. -/
theorem keepsLockedPositions_iff
    (hoperation : ∀ metaId upserts deletes,
      mutation.operation ≠ .reconcileMonthRange metaId upserts deletes) :
    KeepsLockedPositions cfg writeMode now mutation s ↔
      mutation.isTransient = true ∨ mutation.mutationId ∈ (s.redis mutation.boardId).seen ∨
        isMutationBlockedByLock mutation.operation
          (createCachedBoardContext cfg (s.redis mutation.boardId) [mutation]).lookup = true ∨
        EvictsElements cfg writeMode mutation.boardId (s.merge cfg writeMode now mutation) ∨
        WritesLandSafely cfg (s.redis mutation.boardId) mutation.operation := by
  unfold KeepsLockedPositions WritesLandSafely Server.merge
  rw [processMutation_server]
  generalize hkeys : s.redis mutation.boardId = k
  generalize hprocessed : processMutationWithContext now mutation
    (createCachedBoardContext cfg k [mutation]) writeMode k = processed
  have hflush := elements_persistIfSolo cfg writeMode now processed.appliedCanonicalChange
    mutation.boardId (s.setKeys mutation.boardId processed.keys)
  rw [Server.setKeys_redis_self] at hflush
  generalize hevict : EvictsElements cfg writeMode mutation.boardId
    (s.setKeys mutation.boardId processed.keys) = evicts at hflush
  generalize ((persistIfSolo cfg writeMode now mutation.boardId processed.appliedCanonicalChange
    (s.setKeys mutation.boardId processed.keys)).2.redis mutation.boardId).elements = after
      at hflush
  by_cases haway : mutation.isTransient = true ∨ mutation.mutationId ∈ k.seen ∨
      isMutationBlockedByLock mutation.operation
        (createCachedBoardContext cfg k [mutation]).lookup = true
  · -- the elements stay, or are evicted
    have hkept : processed.keys.elements = k.elements := by
      rw [← hprocessed]
      exact elements_of_turnedAway haway
    refine iff_of_true (fun id e he _ e' he' => .of_kept_or_gone ?_ he he') (by tauto)
    rcases hflush with ⟨hsame, _⟩ | ⟨_, hgone⟩
    · exact .inl (by rw [hsame, hkept])
    · exact .inr (by rw [hgone]; rfl)
  · obtain ⟨htransient, hseen, hblocked⟩ : mutation.isTransient = false ∧
        mutation.mutationId ∉ k.seen ∧
        isMutationBlockedByLock mutation.operation
          (createCachedBoardContext cfg k [mutation]).lookup = false := by
      simpa only [not_or, Bool.not_eq_true] using haway
    have hlookup : ∀ id, match lastWrite (readable cfg k.elements.lookup) mutation.operation id with
        | some w => processed.keys.elements.lookup id = some w.payload
        | none => processed.keys.elements.lookup id = k.elements.lookup id ∨
            processed.keys.elements.lookup id = none := by
      intro id
      rw [← lastWrite_context, ← hprocessed]
      exact lookup_of_applied hoperation htransient hseen hblocked id
    have hmerged : processed.keys = (applyChangeSet (writeMode = .collab) now
        (toChangeSet (createCachedBoardContext cfg k [mutation]).lookup mutation.operation)
        (k.claim mutation.mutationId)).2 := by
      rw [← hprocessed]
      exact (processMutationWithContext_unblocked now writeMode htransient hseen hblocked
        (validateReconcileMonthRange_of_other hoperation)).2
    dsimp only
    rw [← hmerged, hevict]
    simp only [htransient, hseen, hblocked, Bool.false_eq_true, false_or]
    by_cases hevicts : evicts
    · -- nothing is left, or nothing was changed
      refine iff_of_true (fun id e he _ e' he' => .of_kept_or_gone ?_ he he') (.inl hevicts)
      rcases hflush with ⟨hsame, hnot⟩ | ⟨_, hgone⟩
      · have hunchanged : processed.appliedCanonicalChange = false := by
          rw [← Bool.not_eq_true]
          exact fun hchanged => hnot ⟨hevicts, hchanged⟩
        have hkept : processed.keys.elements = k.elements := by
          rw [← hprocessed] at hunchanged ⊢
          exact elements_of_unchanged hunchanged
        exact .inl (by rw [hsame, hkept])
      · exact .inr (by rw [hgone]; rfl)
    · have hafter : after = processed.keys.elements := by
        rcases hflush with ⟨hsame, _⟩ | ⟨hgone, _⟩
        · exact hsame
        · exact absurd hgone hevicts
      rw [hafter]
      simp only [hevicts, false_or]
      constructor
      · intro hkeeps id e he hlocked w hw
        have hwritten := hlookup id
        rw [hw] at hwritten
        exact .inr (hkeeps id e he hlocked w.payload hwritten)
      · intro hsafe id e he hlocked e' he'
        have hwritten := hlookup id
        cases hw : lastWrite (readable cfg k.elements.lookup) mutation.operation id with
        | some w =>
          rw [hw] at hwritten
          obtain rfl := Option.some.inj (hwritten.symm.trans he')
          exact samePositions_of_landsSafely he hblocked (hsafe id e he hlocked) hw
        | none =>
          rw [hw] at hwritten
          exact .of_kept_or_gone hwritten he he'

end after

/-! ### A locked note -/

/-- A board with a locked note `x` that has a position, and a plain note `y`. -/
def lockedNote : Server where
  redis := fun _ =>
    { seq := some 0
      elements := Dict.insertAll ∅
        [("x", ⟨"x", Dict.insertAll ∅ [("locked", .bool true), ("x", .num 0)]⟩), ("y", ⟨"y", ∅⟩)] }
  db := ⟨∅, ∅⟩

/-- A move of the note is blocked. -/
theorem keepsLockedPositions_move :
    KeepsLockedPositions {} .collab 0
      ⟨"m", "b", .moveElements [⟨"x", some (.num 1), some (.num 1)⟩] false⟩ lockedNote :=
  (keepsLockedPositions_iff (fun _ _ _ h => Operation.noConfusion h)).mpr (.inr (.inr (.inl rfl)))

/-- A creation over the note, and a patch of the other note that carries its id,
    take its position away. -/
theorem create_moves_lockedNote :
    ¬ KeepsLockedPositions {} .collab 0 ⟨"m", "b", .createElement "x" ⟨"x", ∅⟩⟩ lockedNote ∧
      ¬ KeepsLockedPositions {} .collab 0
        ⟨"m", "b", .updateElement "y" ⟨some "x", ∅⟩⟩ lockedNote := by
  constructor
  · intro h
    obtain ⟨e', hlookup, hnone⟩ : ∃ e', ((processMutation {} .collab 0
        ⟨"m", "b", .createElement "x" ⟨"x", ∅⟩⟩ lockedNote).2.redis "b").elements.lookup "x" =
          some e' ∧
          e'.fields.lookup "x" = none := ⟨_, rfl, rfl⟩
    have hsame := h "x" _ rfl rfl e' hlookup "x" (by decide)
    rw [hnone] at hsame
    cases hsame
  · intro h
    obtain ⟨e', hlookup, hnone⟩ : ∃ e', ((processMutation {} .collab 0
        ⟨"m", "b", .updateElement "y" ⟨some "x", ∅⟩⟩ lockedNote).2.redis "b").elements.lookup "x" =
          some e' ∧ e'.fields.lookup "x" = none := ⟨_, rfl, rfl⟩
    have hsame := h "x" _ rfl rfl e' hlookup "x" (by decide)
    rw [hnone] at hsame
    cases hsame

end Notebortt
