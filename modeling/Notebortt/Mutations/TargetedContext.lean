import Notebortt.Mutations.Processor

/-! # The targeted context against the whole board

    `createCachedBoardContext` reads a few elements ahead, and the lock rules
    are evaluated on those alone. This module says which ids the context of a
    list of mutations holds, and when the verdicts on the context of one
    mutation are the verdicts on the whole board. -/

namespace Notebortt

/-! ### What a read returns -/

/-- The board as targeted reads see it: HMGET results under the empty id are
    dropped. -/
def readable (cfg : Config) (elementsById : LockContext) : LockContext := fun id =>
  if cfg.enableTargetedMutationReads ∧ id = "" then none else elementsById id

theorem lookup_fetchByIds (cfg : Config) (k : BoardKeys) (ids : List String) (id : String) :
    (fetchByIds cfg k ids).lookup id =
      if id ∈ ids then readable cfg k.elements.lookup id else none := by
  unfold fetchByIds
  split
  · next htargeted =>
    -- HMGET over all ids, the empty one dropped
    have hread : getElementsByIds k ids = Dict.insertAll ∅ (ids.filterMap fun key =>
        (readable cfg k.elements.lookup key).map (key, ·)) := by
      unfold getElementsByIds
      congr 1
      apply List.filterMap_congr
      intro key _
      by_cases hkey : key = "" <;> simp [readable, htargeted, hkey]
    rw [hread, Dict.lookup_insertAll_filterMap]
    simp
  · next huntargeted =>
    have hread : readable cfg k.elements.lookup = k.elements.lookup := by
      funext key
      simp [readable, huntargeted]
    rw [hread]
    unfold getElementEach
    rw [Dict.lookup_insertAll_filterMap]
    simp

/-! ### What a context holds -/

/-- The ids read ahead for a list of mutations: the touched ones, the parents of
    the touched elements, and the metas named in payloads; none of them when no
    id is touched. -/
def Prefetched (cfg : Config) (k : BoardKeys) (mutations : List Mutation) (id : String) : Prop :=
  (∃ m ∈ mutations, touchedIds m.operation ≠ []) ∧
  ((∃ m ∈ mutations, id ∈ touchedIds m.operation) ∨
   (∃ m ∈ mutations, ∃ t ∈ touchedIds m.operation, ∃ e,
      readable cfg k.elements.lookup t = some e ∧ id ∈ parentIds e) ∨
   (∃ m ∈ mutations, id ∈ referencedMetaIds m.operation))

theorem mem_collectTouchedElementIds {mutations : List Mutation} {id : String} :
    id ∈ collectTouchedElementIds mutations ↔ ∃ m ∈ mutations, id ∈ touchedIds m.operation := by
  simp [collectTouchedElementIds, mem_toSet]

theorem mem_collectReferencedMetaIds {mutations : List Mutation} {id : String} :
    id ∈ collectReferencedMetaIds mutations ↔
      ∃ m ∈ mutations, id ∈ referencedMetaIds m.operation := by
  simp [collectReferencedMetaIds, mem_toSet]

theorem collectTouchedElementIds_eq_nil {mutations : List Mutation} :
    collectTouchedElementIds mutations = [] ↔ ∀ m ∈ mutations, touchedIds m.operation = [] := by
  rw [List.eq_nil_iff_forall_not_mem]
  simp only [mem_collectTouchedElementIds, not_exists, not_and]
  constructor
  · intro h m hm
    rw [List.eq_nil_iff_forall_not_mem]
    exact fun id hid => h id m hm hid
  · intro h id m hm hid
    rw [h m hm] at hid
    cases hid

/-- The parents an element read ahead contributes. -/
theorem mem_flatMap_parentIds {d : Dict BoardElement} {id : String} :
    id ∈ d.entries.flatMap (fun entry => parentIds entry.2) ↔
      ∃ t e, d.lookup t = some e ∧ id ∈ parentIds e := by
  simp only [List.mem_flatMap, Sigma.exists]
  constructor
  · rintro ⟨t, e, hmem, hid⟩
    exact ⟨t, e, AList.mem_lookup_iff.mpr hmem, hid⟩
  · rintro ⟨t, e, hlookup, hid⟩
    exact ⟨t, e, AList.mem_lookup_iff.mp hlookup, hid⟩

/-- Reading the missing ids on top of a first read is one read of both. -/
theorem lookup_fetch_missing (cfg : Config) (k : BoardKeys) (ids more : List String) (id : String) :
    (fetchByIds cfg k (more.filter (· ∉ fetchByIds cfg k ids)) ∪ fetchByIds cfg k ids).lookup id =
      if id ∈ ids ∨ id ∈ more then readable cfg k.elements.lookup id else none := by
  rw [Dict.lookup_union, lookup_fetchByIds, lookup_fetchByIds]
  simp only [List.mem_filter, decide_eq_true_eq, ← AList.lookup_eq_none, lookup_fetchByIds]
  by_cases hid : id ∈ ids <;> by_cases hmore : id ∈ more <;>
    cases hread : readable cfg k.elements.lookup id <;> simp [hid, hmore]

/-- What the two reads of a context show, when some id is touched. -/
theorem lookup_context_of_touched (cfg : Config) (k : BoardKeys) {mutations : List Mutation}
    (hne : collectTouchedElementIds mutations ≠ []) (id : String) :
    (createCachedBoardContext cfg k mutations).lookup id =
      let elementsById := fetchByIds cfg k (collectTouchedElementIds mutations)
      if id ∈ collectTouchedElementIds mutations ∨
          id ∈ elementsById.entries.flatMap (fun entry => parentIds entry.2)
            ++ collectReferencedMetaIds mutations then
        readable cfg k.elements.lookup id
      else none := by
  have hempty : (collectTouchedElementIds mutations).isEmpty = false := by
    simpa [List.isEmpty_iff] using hne
  unfold createCachedBoardContext
  simp only [hempty, Bool.false_eq_true, if_false]
  set ids := collectTouchedElementIds mutations
  set more := toSet ((fetchByIds cfg k ids).entries.flatMap (fun entry => parentIds entry.2)
    ++ collectReferencedMetaIds mutations) with hmore
  -- the second read adds the parents and the metas named
  have hlookup : (if (more.filter (· ∉ fetchByIds cfg k ids)).isEmpty then fetchByIds cfg k ids
      else fetchByIds cfg k (more.filter (· ∉ fetchByIds cfg k ids)) ∪
        fetchByIds cfg k ids).lookup id
        = if id ∈ ids ∨ id ∈ more then readable cfg k.elements.lookup id else none := by
    rw [← lookup_fetch_missing]
    split
    · next hnone =>
      rw [List.isEmpty_iff] at hnone
      rw [hnone, Dict.lookup_union, lookup_fetchByIds cfg k []]
      simp
    · rfl
  rw [hlookup]
  simp only [hmore, mem_toSet]

/-- The lookups of a context: the prefetched ids as read, and nothing else. -/
theorem lookup_createCachedBoardContext (cfg : Config) (k : BoardKeys) (mutations : List Mutation)
    (id : String) :
    (Prefetched cfg k mutations id →
      (createCachedBoardContext cfg k mutations).lookup id = readable cfg k.elements.lookup id) ∧
    (¬ Prefetched cfg k mutations id →
      (createCachedBoardContext cfg k mutations).lookup id = none) := by
  by_cases hnil : collectTouchedElementIds mutations = []
  · have htouch := collectTouchedElementIds_eq_nil.mp hnil
    constructor
    · rintro ⟨⟨m, hm, hne⟩, _⟩
      exact absurd (htouch m hm) hne
    · intro _
      simp [createCachedBoardContext, hnil]
  · have htouch : ∃ m ∈ mutations, touchedIds m.operation ≠ [] := by
      by_contra h
      push Not at h
      exact hnil (collectTouchedElementIds_eq_nil.mpr h)
    rw [lookup_context_of_touched cfg k hnil]
    -- the two reads together are the ids prefetched
    have hprefetched : (id ∈ collectTouchedElementIds mutations ∨
        id ∈ (fetchByIds cfg k (collectTouchedElementIds mutations)).entries.flatMap
            (fun entry => parentIds entry.2)
          ++ collectReferencedMetaIds mutations) ↔ Prefetched cfg k mutations id := by
      simp only [List.mem_append, mem_flatMap_parentIds, mem_collectTouchedElementIds,
        mem_collectReferencedMetaIds, lookup_fetchByIds]
      unfold Prefetched
      constructor
      · rintro (h | ⟨t, e, hread, hid⟩ | h)
        · exact ⟨htouch, .inl h⟩
        · split at hread
          · next ht =>
            obtain ⟨m, hm, htm⟩ := ht
            exact ⟨htouch, .inr (.inl ⟨m, hm, t, htm, e, hread, hid⟩)⟩
          · cases hread
        · exact ⟨htouch, .inr (.inr h)⟩
      · rintro ⟨_, h | ⟨m, hm, t, htm, e, hread, hid⟩ | h⟩
        · exact .inl h
        · exact .inr (.inl ⟨t, e, by rw [if_pos ⟨m, hm, htm⟩]; exact hread, hid⟩)
        · exact .inr (.inr h)
    constructor
    · intro h
      rw [if_pos (hprefetched.mpr h)]
    · intro h
      rw [if_neg (fun hor => h (hprefetched.mp hor))]

/-! ### Verdicts on the context of one mutation -/

/-- The operations whose verdicts the touched elements decide. -/
def Operation.readsAhead : Operation → Bool
  | .createElement _ _ => false
  | .deleteElements _ => false
  | _ => true

/-- Two contexts that agree on the ids an operation reads ahead give one lock
    verdict. -/
theorem isMutationBlockedByLock_congr {operation : Operation} {c c' : LockContext}
    (hop : operation.readsAhead = true) (ht : ∀ id ∈ touchedIds operation, c id = c' id)
    (hp : ∀ t ∈ touchedIds operation, ∀ e, c' t = some e → ∀ p ∈ parentIds e, c p = c' p)
    (hr : ∀ id ∈ referencedMetaIds operation, c id = c' id) :
    isMutationBlockedByLock operation c = isMutationBlockedByLock operation c' := by
  cases operation with
  | createElement elementId data => cases hop
  | deleteElements elementIds => cases hop
  | reorderElement elementId zIndex => rfl
  | reconcileMonthRange metaId upserts deletes => rfl
  | updateElement elementId fields =>
    exact isPatchBlocked_congr (ht _ (by simp [touchedIds])) (hp _ (by simp [touchedIds]))
      fun target htarget => hr target (by simpa [referencedMetaIds] using htarget)
  | moveElements moves transient =>
    simp only [isMutationBlockedByLock]
    rw [Bool.eq_iff_iff, List.any_eq_true, List.any_eq_true]
    refine exists_congr fun move => and_congr_right fun hmove => ?_
    have hmem : move.elementId ∈ touchedIds (.moveElements moves transient) :=
      List.mem_map.mpr ⟨move, hmove, rfl⟩
    rw [isMoveBlocked_congr (ht _ hmem) (hp _ hmem)]
  | updateElements updates =>
    simp only [isMutationBlockedByLock]
    rw [Bool.eq_iff_iff, List.any_eq_true, List.any_eq_true]
    refine exists_congr fun u => and_congr_right fun hu => ?_
    have hmem : u.elementId ∈ touchedIds (.updateElements updates) :=
      List.mem_map.mpr ⟨u, hu, rfl⟩
    rw [isPatchBlocked_congr (ht _ hmem) (hp _ hmem) fun target htarget =>
      hr target (List.mem_flatMap.mpr ⟨u, hu, by simpa using htarget⟩)]

/-- A payload that names a meta belongs to an operation that touches ids. -/
theorem touchedIds_ne_nil {operation : Operation} (hop : operation.readsAhead = true) {id : String}
    (hid : id ∈ referencedMetaIds operation) : touchedIds operation ≠ [] := by
  intro hnil
  cases operation with
  | updateElements updates =>
    have hupdates : updates = [] := by simpa [touchedIds] using hnil
    simp [referencedMetaIds, hupdates] at hid
  | _ => simp_all [touchedIds, referencedMetaIds, Operation.readsAhead]

/-- On the context of one mutation the verdicts are those on the readable board,
    for every operation but a creation and a deletion. -/
theorem context_verdicts (cfg : Config) (k : BoardKeys) (m : Mutation)
    (hop : m.operation.readsAhead = true) :
    isMutationBlockedByLock m.operation (createCachedBoardContext cfg k [m]).lookup =
        isMutationBlockedByLock m.operation (readable cfg k.elements.lookup) ∧
      validateReconcileMonthRange m.operation (createCachedBoardContext cfg k [m]).lookup =
        validateReconcileMonthRange m.operation (readable cfg k.elements.lookup) := by
  have hread : ∀ id, Prefetched cfg k [m] id →
      (createCachedBoardContext cfg k [m]).lookup id = readable cfg k.elements.lookup id :=
    fun id h => (lookup_createCachedBoardContext cfg k [m] id).1 h
  have htouched : ∀ id ∈ touchedIds m.operation,
      (createCachedBoardContext cfg k [m]).lookup id = readable cfg k.elements.lookup id :=
    fun id hid => hread id ⟨⟨m, by simp, List.ne_nil_of_mem hid⟩, .inl ⟨m, by simp, hid⟩⟩
  constructor
  · refine isMutationBlockedByLock_congr hop htouched ?_ ?_
    · intro t ht e he p hp
      exact hread p ⟨⟨m, by simp, List.ne_nil_of_mem ht⟩,
        .inr (.inl ⟨m, by simp, t, ht, e, he, hp⟩)⟩
    · intro id hid
      exact hread id ⟨⟨m, by simp, touchedIds_ne_nil hop hid⟩, .inr (.inr ⟨m, by simp, hid⟩)⟩
  · apply validateReconcileMonthRange_congr
    intro metaId upserts deletes hoperation
    rw [hoperation] at htouched
    exact ⟨htouched metaId (by simp [touchedIds]),
      fun id hid => htouched id (by simp [touchedIds, hid])⟩

/-- A mutation that touches no id gets an empty context. -/
theorem context_eq_empty (cfg : Config) (k : BoardKeys) (m : Mutation)
    (hop : m.operation.readsAhead = false) : createCachedBoardContext cfg k [m] = ∅ := by
  have hnil : collectTouchedElementIds [m] = [] := by
    rw [collectTouchedElementIds_eq_nil]
    intro m' hm'
    rw [List.mem_singleton.mp hm']
    cases hoperation : m.operation <;> rw [hoperation] at hop <;>
      simp_all [touchedIds, Operation.readsAhead]
  simp [createCachedBoardContext, hnil]

/-- On an empty context no creation is blocked. -/
theorem createsIntoManagedMeta_empty (data : BoardElement) :
    createsIntoManagedMeta (AList.lookup · (∅ : Dict BoardElement)) data = false := by
  unfold createsIntoManagedMeta
  split <;> rfl

/-- On an empty context no deletion is blocked. -/
theorem any_isDeleteBlocked_empty (elementIds : List String) :
    elementIds.any (isDeleteBlocked (AList.lookup · (∅ : Dict BoardElement)) elementIds) =
      false := by
  rw [List.any_eq_false]
  intro id _
  simp [isDeleteBlocked]

/-- When the targeted context is as good as the whole board: a creation does not
    go into a managed meta, a deletion takes no month out of one, and for the
    other operations the element under the empty id, which targeted reads drop,
    plays no part in the verdicts. -/
def ContextSuffices (cfg : Config) (operation : Operation) (elementsById : LockContext) : Prop :=
  match operation with
  | .createElement _ data => createsIntoManagedMeta elementsById data = false
  | .deleteElements elementIds => elementIds.any (isDeleteBlocked elementsById elementIds) = false
  | operation =>
    isMutationBlockedByLock operation (readable cfg elementsById) =
        isMutationBlockedByLock operation elementsById ∧
      validateReconcileMonthRange operation (readable cfg elementsById) =
        validateReconcileMonthRange operation elementsById

/-- The verdicts on the targeted context of a mutation are those on the whole
    board exactly when the context suffices. -/
theorem targetedContext_verdicts_iff (cfg : Config) (k : BoardKeys) (m : Mutation) :
    (isMutationBlockedByLock m.operation (createCachedBoardContext cfg k [m]).lookup =
        isMutationBlockedByLock m.operation k.elements.lookup ∧
      validateReconcileMonthRange m.operation (createCachedBoardContext cfg k [m]).lookup =
        validateReconcileMonthRange m.operation k.elements.lookup) ↔
      ContextSuffices cfg m.operation k.elements.lookup := by
  cases hop : m.operation.readsAhead with
  | true =>
    obtain ⟨hlock, hvalidate⟩ := context_verdicts cfg k m hop
    rw [hlock, hvalidate]
    cases hoperation : m.operation with
    | createElement elementId data => rw [hoperation] at hop; cases hop
    | deleteElements elementIds => rw [hoperation] at hop; cases hop
    | _ => exact Iff.rfl
  | false =>
    rw [context_eq_empty cfg k m hop]
    cases hoperation : m.operation with
    | createElement elementId data =>
      simp only [isMutationBlockedByLock, validateReconcileMonthRange, ContextSuffices, and_true]
      rw [createsIntoManagedMeta_empty]
      exact eq_comm
    | deleteElements elementIds =>
      simp only [isMutationBlockedByLock, validateReconcileMonthRange, ContextSuffices, and_true]
      rw [any_isDeleteBlocked_empty]
      exact eq_comm
    | _ => rw [hoperation] at hop; cases hop

/-- A board with a managed meta `meta` and its month `jan`: a note created into
    the meta, and the deletion of `jan`, are blocked on the whole board and pass
    on the targeted context. -/
theorem targetedContext_misses_meta :
    let managed : BoardElement := ⟨"meta", AList.singleton "monthRange" (.obj [])⟩
    let jan : BoardElement := ⟨"jan", AList.singleton "metaContainerId" (.str "meta")⟩
    let k : BoardKeys :=
      { elements := Dict.insertAll ∅ [("meta", managed), ("jan", jan)], seq := some 0 }
    let create : Mutation :=
      ⟨"m1", "board", .createElement "note"
        ⟨"note", AList.singleton "metaContainerId" (.str "meta")⟩⟩
    let delete : Mutation := ⟨"m2", "board", .deleteElements ["jan"]⟩
    (isMutationBlockedByLock create.operation (createCachedBoardContext {} k [create]).lookup ≠
        isMutationBlockedByLock create.operation k.elements.lookup) ∧
      (isMutationBlockedByLock delete.operation (createCachedBoardContext {} k [delete]).lookup ≠
        isMutationBlockedByLock delete.operation k.elements.lookup) := by
  decide

end Notebortt
