import Mathlib.Data.List.Sort
import Mathlib.Order.Bounds.Basic
import Notebortt.BoardState.ChangeSets
import Notebortt.Lib.KeyedEdits
import Notebortt.Routes.MutationRoutes

/-! # `PATCH /boards/:id/elements`

    The route turns one change set into a batch: one deletion of the cascade,
    computed on the elements it has read, and one creation for each upsert that
    is left. `applyChangeSet` would compute the same cascade itself and write
    all at once. -/

namespace Notebortt

/-! ### The batch of a change set -/

/-- The UTF-16 code units of a string, by which `Array.prototype.sort` compares. -/
def codeUnits (s : String) : List Nat :=
  s.toList.flatMap fun c =>
    if c.toNat < 0x10000 then [c.toNat]
    else [0xD800 + (c.toNat - 0x10000) / 0x400, 0xDC00 + (c.toNat - 0x10000) % 0x400]

/-- The copy of `collectCascadeDeleteIds` in `boards/utils.ts`: the ids sorted. -/
def collectCascadeDeleteIdsSorted (allElements : List BoardElement)
    (requestedDeletes : List String) : List String :=
  let pending := toSet requestedDeletes
  (cascadeLoop allElements (pending.length + allElements.length) pending pending).insertionSort
    fun a b => notAfter (codeUnits a) (codeUnits b)

/-- The operations of the batch. -/
def elementOperations (deleteIds : List String) (upserts : List BoardElement) : List Operation :=
  (if deleteIds.isEmpty then [] else [.deleteElements deleteIds])
    ++ (upserts.filter (·.id ∉ deleteIds)).map fun element => .createElement element.id element

/-- `buildElementMutationBatch`; `randomUUID i` is the `i`th id drawn. -/
def buildElementMutationBatch (randomUUID : Nat → String) (boardId : String)
    (currentElements upserts : List BoardElement) (deletes : List String) : List Mutation :=
  let deleteIds := collectCascadeDeleteIdsSorted currentElements deletes
  (elementOperations deleteIds upserts).mapIdx fun i operation => ⟨randomUUID i, boardId, operation⟩

/-! ### The route -/

inductive PatchResponse where
  | badRequest
  | forbidden
  | ok (sequence : Nat)

/-- The last result that was applied, or else the last one. -/
def latestResult (results : List (Option MutationResult)) : Option MutationResult :=
  let given := results.filterMap id
  (given.reverse.find? (·.status = .applied)).or given.getLast?

/-- `PATCH /boards/:id/elements`. -/
def patchElements (cfg : Config) (mode : String → BoardSyncWriteMode) (now : Nat)
    (access : BoardAccess) (randomUUID : Nat → String) (id : String) (upserts : List BoardElement)
    (deletes : List String) (s : Server) : Except QueryError PatchResponse × Server :=
  if upserts.isEmpty && deletes.isEmpty then (.ok .badRequest, s)
  else if !access.hasAccess || access.permission ≠ .edit then (.ok .forbidden, s)
  else
    let s := loadBoard id s
    let mutations :=
      buildElementMutationBatch randomUUID id (s.redis id).elementList upserts deletes
    match processBatch cfg mode now mutations s with
    | (.error e, s) => (.error e, s)
    | (.ok results, s) =>
      (.ok (.ok (((latestResult results).bind (·.sequence)).getD (peekSequence (s.redis id)))), s)

/-! ### The cascade, twice -/

theorem mem_collectCascadeDeleteIdsSorted {allElements : List BoardElement}
    {requestedDeletes : List String} {id : String} :
    id ∈ collectCascadeDeleteIdsSorted allElements requestedDeletes ↔
      id ∈ collectCascadeDeleteIds allElements requestedDeletes := by
  simp only [collectCascadeDeleteIdsSorted, List.mem_insertionSort]
  rfl

/-- The cascade of what a cascade has collected is that. -/
theorem mem_cascade_twice (k : BoardKeys) (deletes : List String) (id : String) :
    id ∈ collectCascadeDeleteIds k.elementList
        (collectCascadeDeleteIdsSorted k.elementList deletes) ↔
      id ∈ collectCascadeDeleteIdsSorted k.elementList deletes := by
  have hclosed := (isLeast_collectCascadeDeleteIds k deletes).1.2
  have htwice := isLeast_collectCascadeDeleteIds k
    (collectCascadeDeleteIdsSorted k.elementList deletes)
  constructor
  · intro hid
    refine mem_collectCascadeDeleteIdsSorted.mpr (htwice.2 ⟨?_, hclosed⟩ hid)
    exact fun id hid => mem_collectCascadeDeleteIdsSorted.mp hid
  · intro hid
    exact htwice.1.1 id hid

/-! ### The creations -/

/-- A creation puts the element under its id, whatever was there. -/
def putUpsert (element : BoardElement) : Option BoardElement → Option BoardElement :=
  fun _ => some element

/-- The creations of a batch that no lock rule turns away: the context of the batch holds what it
    has created so far, and nothing else. -/
def landedCreations (context : LockContext) (upserts : List BoardElement) : List BoardElement :=
  KeyedEdits.landed (·.id) putUpsert createsIntoManagedMeta context upserts

theorem applyChangeSet_create (trackChangeLog : Bool) (now : Nat) (e : BoardElement)
    (k : BoardKeys) :
    (applyChangeSet trackChangeLog now ⟨[e], []⟩ k).1 = some ⟨peekSequence k + 1, [e], []⟩ := by
  simp [applyChangeSet, resolveChangeSet, normalizeUpserts, setUpsert, getSequence]

theorem lookup_applyTo_create (sequence : Nat) (e : BoardElement) (d : Dict BoardElement)
    (id : String) :
    ((⟨sequence, [e], []⟩ : PersistedElementChange).applyTo d).lookup id =
      KeyedEdits.edit (·.id) putUpsert d.lookup e id := by
  have hinsert : (⟨sequence, [e], []⟩ : PersistedElementChange).applyTo d = d.insert e.id e := rfl
  rw [hinsert, Dict.lookup_insert_ite]
  by_cases hid : e.id = id
  · subst hid
    rw [if_pos rfl, KeyedEdits.edit_self (α := BoardElement) (·.id) putUpsert d.lookup e]
    rfl
  · rw [if_neg (Ne.symm hid), KeyedEdits.edit_ne (·.id) putUpsert d.lookup hid]

theorem isTransient_of_creation {m : Mutation} {e : BoardElement}
    (h : m.operation = .createElement e.id e) : m.isTransient = false := by
  simp [Mutation.isTransient, h]

/-- One creation: the lock rule turns it away, or context and hash take the element. -/
theorem process_creation (now : Nat) (mode : BoardSyncWriteMode) {m : Mutation} {e : BoardElement}
    (context : Dict BoardElement) {k : BoardKeys} (hoperation : m.operation = .createElement e.id e)
    (hseen : m.mutationId ∉ k.seen) :
    let processed := processMutationWithContext now m context mode k
    let context' := applyPersistedChangeToContext context processed.result
    if createsIntoManagedMeta context.lookup e then
      context' = context ∧ processed.keys.elements = k.elements
    else
      context'.lookup = KeyedEdits.edit (·.id) putUpsert context.lookup e ∧
        processed.keys.elements.lookup = KeyedEdits.edit (·.id) putUpsert k.elements.lookup e := by
  intro processed context'
  have htransient := isTransient_of_creation hoperation
  have hlock : isMutationBlockedByLock m.operation context.lookup =
      createsIntoManagedMeta context.lookup e := by
    rw [hoperation]
    rfl
  have hresult := processMutationWithContext_elements now m context mode k
  split
  · next hblocked =>
    rw [hblocked] at hlock
    have hrequested : requestedChange k context.lookup m.operation = ⟨[], []⟩ := by
      simp [requestedChange, hlock]
    have hprocessed := processMutationWithContext_unseen now m context mode k htransient hseen
    rw [hrequested] at hprocessed
    -- turned away, it reports no change, so neither context nor hash moves
    have hnone : processed.result.change = none := by
      simp [processed, hprocessed, writeRequested, unchangedResult]
    exact ⟨by simp [context', applyPersistedChangeToContext, hnone],
      hresult.trans (by simp [applyPersistedChangeToContext, hnone, processed])⟩
  · next hblocked =>
    rw [Bool.not_eq_true] at hblocked
    have hvalid : validateReconcileMonthRange m.operation context.lookup = none := by
      rw [hoperation]
      rfl
    have hchange : toChangeSet context.lookup m.operation = ⟨[e], []⟩ := by
      rw [hoperation]
      rfl
    obtain ⟨happlied, -⟩ := processMutationWithContext_unblocked now mode htransient hseen
      (hlock.trans hblocked) hvalid
    rw [hchange, applyChangeSet_create] at happlied
    have happly : ∀ d : Dict BoardElement,
        (applyPersistedChangeToContext d processed.result).lookup =
          KeyedEdits.edit (·.id) putUpsert d.lookup e := by
      intro d
      funext id
      rw [applyPersistedChangeToContext, happlied]
      exact lookup_applyTo_create _ e d id
    refine ⟨happly context, ?_⟩
    rw [← happly k.elements, ← hresult]

/-- The creations of a batch: the last of an id that lands is what the hash holds under it. -/
theorem lookup_processEntries_creations (now : Nat) (mode : BoardSyncWriteMode)
    {upserts : List BoardElement} {entries : List (Nat × Mutation)} (context : Dict BoardElement)
    {k : BoardKeys}
    (hoperations : entries.map (·.2.operation) = upserts.map fun e => .createElement e.id e)
    (hunseen : ∀ entry ∈ entries, entry.2.mutationId ∉ k.seen)
    (hdistinct : (entries.map (·.2.mutationId)).Nodup) (id : String) :
    (processEntries now mode entries context k).2.2.elements.lookup id =
      (KeyedEdits.last? (·.id) (landedCreations context.lookup upserts) id).or
        (k.elements.lookup id) := by
  induction upserts generalizing entries context k with
  | nil =>
    rw [List.map_nil, List.map_eq_nil_iff] at hoperations
    subst hoperations
    rfl
  | cons e es ih =>
    obtain ⟨⟨index, m⟩, rest, rfl, hm, hrest⟩ := List.map_eq_cons_iff.mp hoperations
    -- the first creation marks its own id only
    have hnew : ∀ entry ∈ rest, entry.2.mutationId ∉
        (processMutationWithContext now m context mode k).keys.seen := by
      intro entry hentry hmem
      rw [List.map_cons, List.nodup_cons] at hdistinct
      rcases (processMutationWithContext_seen now m context mode k _).mp hmem with hold | ⟨-, heq⟩
      · exact hunseen entry (by simp [hentry]) hold
      · exact hdistinct.1 (heq ▸ List.mem_map_of_mem hentry)
    have htail := ih (applyPersistedChangeToContext context
      (processMutationWithContext now m context mode k).result) hrest hnew
      (List.Nodup.of_cons hdistinct)
    have hstep := process_creation now mode context hm (hunseen (index, m) (by simp))
    show (processEntries now mode rest _ _).2.2.elements.lookup id = _
    rw [htail]
    split at hstep
    · next hblocked =>
      obtain ⟨hcontext, helements⟩ := hstep
      rw [hcontext, helements]
      simp only [landedCreations, KeyedEdits.landed, hblocked, if_true]
    · next hblocked =>
      obtain ⟨hcontext, helements⟩ := hstep
      rw [hcontext, show (processMutationWithContext now m context mode k).keys.elements.lookup id =
        KeyedEdits.edit (·.id) putUpsert k.elements.lookup e id from congrFun helements id]
      rw [Bool.not_eq_true] at hblocked
      simp only [landedCreations, KeyedEdits.landed, hblocked, Bool.false_eq_true, if_false,
        KeyedEdits.last?_cons]
      by_cases hid : e.id = id
      · subst hid
        rw [KeyedEdits.edit_self (α := BoardElement) (·.id) putUpsert]
        simp [putUpsert]
      · rw [KeyedEdits.edit_ne (·.id) putUpsert _ hid]
        simp [hid]

/-! ### The deletion -/

/-- The deletion that opens a batch takes out the cascade, and leaves the context empty. -/
theorem process_deletion (now : Nat) (mode : BoardSyncWriteMode) {m : Mutation} {k : BoardKeys}
    {deletes : List String}
    (hoperation : m.operation =
      .deleteElements (collectCascadeDeleteIdsSorted k.elementList deletes))
    (hseen : m.mutationId ∉ k.seen) :
    let processed := processMutationWithContext now m ∅ mode k
    (applyPersistedChangeToContext ∅ processed.result).lookup = (fun _ => none) ∧
      ∀ id, processed.keys.elements.lookup id =
        if id ∈ collectCascadeDeleteIdsSorted k.elementList deletes then none
        else k.elements.lookup id := by
  intro processed
  have htransient : m.isTransient = false := by simp [Mutation.isTransient, hoperation]
  have hlock : isMutationBlockedByLock m.operation (AList.lookup · (∅ : Dict BoardElement)) =
      false := by
    rw [hoperation]
    exact any_isDeleteBlocked_empty _
  have hvalid : validateReconcileMonthRange m.operation
      (AList.lookup · (∅ : Dict BoardElement)) = none := by
    rw [hoperation]
    rfl
  have hchange : toChangeSet (AList.lookup · (∅ : Dict BoardElement)) m.operation =
      ⟨[], collectCascadeDeleteIdsSorted k.elementList deletes⟩ := by
    rw [hoperation]
    rfl
  obtain ⟨hresult, hkeys⟩ := processMutationWithContext_unblocked now mode htransient hseen hlock
    hvalid
  rw [hchange] at hresult hkeys
  constructor
  · funext id
    unfold applyPersistedChangeToContext
    rw [show processed.result.change = _ from hresult]
    cases happlied : (applyChangeSet (mode = .collab) now
        ⟨[], collectCascadeDeleteIdsSorted k.elementList deletes⟩ (k.claim m.mutationId)).1 with
    | none => rfl
    | some change =>
      obtain ⟨hupserts, -, -, -⟩ := applyChangeSet_of_change _ _ _ happlied
      have hempty : change.upserts = [] := hupserts
      show (change.applyTo ∅).lookup id = none
      rw [PersistedElementChange.applyTo, hempty, Dict.lookup_eraseAll]
      split <;> rfl
  · intro id
    have happlied := appliedAtOnce_deletedIds (mode = .collab) now
      ⟨[], collectCascadeDeleteIdsSorted k.elementList deletes⟩ (k.claim m.mutationId)
    have hC : id ∈ deletedIds ⟨[], collectCascadeDeleteIdsSorted k.elementList deletes⟩
        (k.claim m.mutationId) ↔ id ∈ collectCascadeDeleteIdsSorted k.elementList deletes := by
      rw [deletedIds, resolveChangeSet_deletes]
      exact mem_cascade_twice k deletes id
    rw [show processed.keys = _ from hkeys]
    split
    · next hid => exact happlied.deleted id (hC.mpr hid)
    · next hid => exact happlied.kept id (mt hC.mp hid)

/-! ### The batch against the change set -/

/-- The upserts that the batch of a change set writes: of an id outside the cascade, and not into a
    managed meta that the batch itself has created before. -/
def landedUpserts (deleteIds : List String) (upserts : List BoardElement) : List BoardElement :=
  landedCreations (fun _ => none) (upserts.filter (·.id ∉ deleteIds))

section
variable {randomUUID : Nat → String} {k : BoardKeys} {upserts : List BoardElement}
  {deletes : List String}

variable (randomUUID k upserts deletes) in
theorem operations_buildElementMutationBatch (boardId : String) :
    (buildElementMutationBatch randomUUID boardId k.elementList upserts deletes).map (·.operation) =
      elementOperations (collectCascadeDeleteIdsSorted k.elementList deletes) upserts := by
  apply List.ext_getElem <;> simp [buildElementMutationBatch]

variable (randomUUID k upserts deletes) in
theorem mutationIds_buildElementMutationBatch (boardId : String) :
    (buildElementMutationBatch randomUUID boardId k.elementList upserts deletes).map
    (·.mutationId) =
      (List.range (elementOperations (collectCascadeDeleteIdsSorted k.elementList deletes)
        upserts).length).map randomUUID := by
  apply List.ext_getElem <;> simp [buildElementMutationBatch]

theorem boardId_buildElementMutationBatch {boardId : String} {m : Mutation}
    (h : m ∈ buildElementMutationBatch randomUUID boardId k.elementList upserts deletes) :
    m.boardId = boardId := by
  simp only [buildElementMutationBatch, List.mem_mapIdx] at h
  obtain ⟨i, hi, rfl⟩ := h
  rfl

/-- No operation of the batch reads ahead. -/
theorem context_buildElementMutationBatch (cfg : Config) (boardId : String) :
    createCachedBoardContext cfg k
      (buildElementMutationBatch randomUUID boardId k.elementList upserts deletes) = ∅ := by
  have hnil : collectTouchedElementIds
      (buildElementMutationBatch randomUUID boardId k.elementList upserts deletes) = [] := by
    rw [collectTouchedElementIds_eq_nil]
    intro m hm
    have hoperation : m.operation ∈
        elementOperations (collectCascadeDeleteIdsSorted k.elementList deletes) upserts := by
      rw [← operations_buildElementMutationBatch randomUUID k upserts deletes boardId]
      exact List.mem_map_of_mem hm
    rcases List.mem_append.mp hoperation with hdelete | hcreate
    · split at hdelete
      · cases hdelete
      · rw [List.mem_singleton.mp hdelete]
        rfl
    · obtain ⟨e, -, he⟩ := List.mem_map.mp hcreate
      rw [← he]
      rfl
  simp [createCachedBoardContext, hnil]

/-- The hash after the loop over the batch. -/
theorem lookup_processEntries_patch (now : Nat) (mode : BoardSyncWriteMode)
    {entries : List (Nat × Mutation)}
    (hoperations : entries.map (·.2.operation) =
      elementOperations (collectCascadeDeleteIdsSorted k.elementList deletes) upserts)
    (hunseen : ∀ entry ∈ entries, entry.2.mutationId ∉ k.seen)
    (hdistinct : (entries.map (·.2.mutationId)).Nodup) (id : String) :
    (processEntries now mode entries ∅ k).2.2.elements.lookup id =
      (KeyedEdits.last? (·.id)
        (landedUpserts (collectCascadeDeleteIdsSorted k.elementList deletes) upserts) id).or
      (if id ∈ collectCascadeDeleteIdsSorted k.elementList deletes then none
        else k.elements.lookup id) := by
  have hempty : (AList.lookup · (∅ : Dict BoardElement)) = fun _ => none := rfl
  unfold elementOperations at hoperations
  split at hoperations
  · next hnone =>
    rw [List.isEmpty_iff] at hnone
    rw [lookup_processEntries_creations now mode ∅ hoperations hunseen hdistinct, hempty, hnone]
    rfl
  · obtain ⟨⟨index, m⟩, rest, rfl, hm, hrest⟩ := List.map_eq_cons_iff.mp hoperations
    obtain ⟨hcontext, helements⟩ := process_deletion now mode hm (hunseen (index, m) (by simp))
    have hnew : ∀ entry ∈ rest, entry.2.mutationId ∉
        (processMutationWithContext now m ∅ mode k).keys.seen := by
      intro entry hentry hmem
      rw [List.map_cons, List.nodup_cons] at hdistinct
      rcases (processMutationWithContext_seen now m ∅ mode k _).mp hmem with hold | ⟨-, heq⟩
      · exact hunseen entry (by simp [hentry]) hold
      · exact hdistinct.1 (heq ▸ List.mem_map_of_mem hentry)
    show (processEntries now mode rest _ _).2.2.elements.lookup id = _
    rw [lookup_processEntries_creations now mode _ hrest hnew (List.Nodup.of_cons hdistinct)]
    rw [show (AList.lookup · (applyPersistedChangeToContext ∅ _)) = _ from hcontext]
    rw [show (processMutationWithContext now m ∅ mode k).keys.elements.lookup id = _
      from helements id]
    rfl

theorem id_of_mem_landedUpserts {deleteIds : List String} {e : BoardElement}
    (h : e ∈ landedUpserts deleteIds upserts) : e.id ∉ deleteIds := by
  have hmem := (KeyedEdits.landed_sublist _ _ _ _ _).mem h
  simpa using (List.mem_filter.mp hmem).2

/-- The ids a change set deletes are those of the cascade, whatever its upserts. -/
theorem mem_deletedIds_iff (k : BoardKeys) (upserts : List BoardElement) (deletes : List String)
    (id : String) :
    id ∈ deletedIds ⟨upserts, deletes⟩ k ↔
      id ∈ collectCascadeDeleteIdsSorted k.elementList deletes := by
  rw [deletedIds, resolveChangeSet_deletes, mem_collectCascadeDeleteIdsSorted]
  rfl

/-- The same hash, from one change set with the upserts that land. -/
theorem lookup_applyChangeSet_landed (trackChangeLog : Bool) (now : Nat) (id : String) :
    (applyChangeSet trackChangeLog now
      ⟨landedUpserts (collectCascadeDeleteIdsSorted k.elementList deletes) upserts, deletes⟩
      k).2.elements.lookup id =
      (KeyedEdits.last? (·.id)
        (landedUpserts (collectCascadeDeleteIdsSorted k.elementList deletes) upserts) id).or
      (if id ∈ collectCascadeDeleteIdsSorted k.elementList deletes then none
        else k.elements.lookup id) := by
  have happlied := appliedAtOnce_deletedIds trackChangeLog now
    ⟨landedUpserts (collectCascadeDeleteIdsSorted k.elementList deletes) upserts, deletes⟩ k
  have hC := mem_deletedIds_iff k
    (landedUpserts (collectCascadeDeleteIdsSorted k.elementList deletes) upserts) deletes id
  split
  · next hid =>
    have hnone : KeyedEdits.last? (·.id)
        (landedUpserts (collectCascadeDeleteIdsSorted k.elementList deletes) upserts) id =
          none := by
      rw [KeyedEdits.last?, List.find?_eq_none]
      intro e he heq
      have heq : e.id = id := by simpa using heq
      exact id_of_mem_landedUpserts (List.mem_reverse.mp he) (heq ▸ hid)
    rw [happlied.deleted id (hC.mpr hid), hnone]
    rfl
  · next hid => exact happlied.kept id (mt hC.mp hid)

/-- No upsert is contained in one that carries a month range. -/
def NoneIntoMonthRange (upserts : List BoardElement) : Prop :=
  ∀ e ∈ upserts, ∀ m ∈ upserts, e.str? "metaContainerId" = some m.id →
    m.fields.lookup "monthRange" = none

theorem createsIntoManagedMeta_edit {c : LockContext} {e m : BoardElement}
    (hm : e.str? "metaContainerId" = some m.id → m.fields.lookup "monthRange" = none)
    (h : createsIntoManagedMeta c e = false) :
    createsIntoManagedMeta (KeyedEdits.edit (·.id) putUpsert c m) e = false := by
  unfold createsIntoManagedMeta at h ⊢
  cases htarget : e.str? "metaContainerId" with
  | none => rfl
  | some target =>
    rw [htarget] at h hm
    by_cases hid : m.id = target
    · subst hid
      simp only [isManaged]
      rw [KeyedEdits.edit_self (α := BoardElement) (·.id) putUpsert]
      simp [putUpsert, hm rfl]
    · simp only [isManaged]
      rw [KeyedEdits.edit_ne (·.id) putUpsert c hid]
      exact h

/-- Then all of them land that are outside the cascade. -/
theorem landedUpserts_of_none (h : NoneIntoMonthRange upserts) (deleteIds : List String) :
    landedUpserts deleteIds upserts = upserts.filter (·.id ∉ deleteIds) := by
  apply KeyedEdits.landed_eq_self
  · intro e _
    unfold createsIntoManagedMeta
    split <;> rfl
  · intro c m hm e he hc
    exact createsIntoManagedMeta_edit
      (h e (List.mem_of_mem_filter he) m (List.mem_of_mem_filter hm))
      hc

/-- The upserts inside the cascade make no difference to a change set. -/
theorem lookup_applyChangeSet_filter (trackChangeLog : Bool) (now : Nat) (id : String) :
    (applyChangeSet trackChangeLog now
      ⟨upserts.filter (·.id ∉ collectCascadeDeleteIdsSorted k.elementList deletes), deletes⟩
      k).2.elements.lookup id =
    (applyChangeSet trackChangeLog now ⟨upserts, deletes⟩ k).2.elements.lookup id := by
  have happlied := appliedAtOnce_deletedIds trackChangeLog now
    ⟨upserts.filter (·.id ∉ collectCascadeDeleteIdsSorted k.elementList deletes), deletes⟩ k
  have happlied' := appliedAtOnce_deletedIds trackChangeLog now ⟨upserts, deletes⟩ k
  have hC := mem_deletedIds_iff k
    (upserts.filter (·.id ∉ collectCascadeDeleteIdsSorted k.elementList deletes)) deletes id
  have hC' := mem_deletedIds_iff k upserts deletes id
  by_cases hid : id ∈ collectCascadeDeleteIdsSorted k.elementList deletes
  · rw [happlied.deleted id (hC.mpr hid), happlied'.deleted id (hC'.mpr hid)]
  · rw [happlied.kept id (mt hC.mp hid), happlied'.kept id (mt hC'.mp hid)]
    congr 1
    simp only [ElementChangeSet.lastUpsert, ← List.filter_reverse, List.find?_filter]
    congr 1
    funext e
    by_cases he : e.id = id
    · subst he
      simp [hid]
    · simp [he]

end

/-! ### The hash after the route -/

/-- The write-through of the batch evicts the elements. -/
def BatchEvicts (cfg : Config) (mode : BoardSyncWriteMode) (now : Nat) (boardId : String)
    (ms : List Mutation) (s : Server) : Prop :=
  let loop := processEntries now mode (entriesOf ms)
    (createCachedBoardContext cfg (s.redis boardId) ms) (s.redis boardId)
  EvictsElements cfg mode boardId (s.setKeys boardId loop.2.2) ∧ loop.2.1 = true

/-- What a batch on one board leaves of its hash is what its loop leaves, or nothing. -/
theorem processBatch_elements (cfg : Config) (mode : BoardSyncWriteMode) (now : Nat)
    {boardId : String} {ms : List Mutation} (hboard : ∀ m ∈ ms, m.boardId = boardId) (s : Server) :
    let elements := ((processBatch cfg (fun _ => mode) now ms s).2.redis boardId).elements
    (BatchEvicts cfg mode now boardId ms s → elements = ∅) ∧
      (¬ BatchEvicts cfg mode now boardId ms s → elements = (processEntries now mode (entriesOf ms)
        (createCachedBoardContext cfg (s.redis boardId) ms) (s.redis boardId)).2.2.elements) := by
  intro elements
  by_cases hne : ms = []
  · subst hne
    refine ⟨fun hevicts => ?_, fun _ => rfl⟩
    cases hevicts.2
  · have hloop : processEntries now mode (entriesOf ms)
        (createCachedBoardContext cfg (s.redis boardId) ms) (s.redis boardId) =
        boardLoop cfg now mode boardId (entriesOf ms) s := by
      rw [boardLoop, map_entriesOf]
    have hbatch : (processBatch cfg (fun _ => mode) now ms s).2 =
        (processBoardBatch cfg mode now boardId (entriesOf ms) s).2 := by
      cases hfirst : processBoardBatch cfg mode now boardId (entriesOf ms) s with
      | mk outcome s' =>
        cases outcome <;>
          simp only [processBatch, groupByBoard_single hboard hne, processBoards, hfirst]
    have hflushed := elements_persistIfSolo cfg mode now
      (boardLoop cfg now mode boardId (entriesOf ms) s).2.1 boardId
      (s.setKeys boardId (boardLoop cfg now mode boardId (entriesOf ms) s).2.2)
    rw [Server.setKeys_redis_self] at hflushed
    simp only [elements, BatchEvicts]
    rw [hbatch, hloop, processBoardBatch_server]
    rcases hflushed with ⟨hkept, hnever⟩ | ⟨hevicts, hgone⟩
    · exact ⟨fun h => absurd h hnever, fun _ => hkept⟩
    · refine ⟨fun _ => hgone, fun hnever => ?_⟩
      -- without a change nothing is written through
      cases hchanged : (boardLoop cfg now mode boardId (entriesOf ms) s).2.1 with
      | true => exact absurd ⟨hevicts, hchanged⟩ hnever
      | false => simp [persistIfSolo]

/-- The ids that `randomUUID` draws: all different, and none seen on the board. -/
structure FreshIds (randomUUID : Nat → String) (k : BoardKeys) : Prop where
  distinct : Function.Injective randomUUID
  unseen : ∀ i, randomUUID i ∉ k.seen

section
variable (cfg : Config) (mode : BoardSyncWriteMode) (now : Nat) {randomUUID : Nat → String}
  {boardId : String} (upserts : List BoardElement) (deletes : List String) {s : Server}

theorem processBatch_patch_landed (hfresh : FreshIds randomUUID (s.redis boardId))
    (hkept : ¬ BatchEvicts cfg mode now boardId (buildElementMutationBatch randomUUID boardId
      (s.redis boardId).elementList upserts deletes) s) (trackChangeLog : Bool) (id : String) :
    ((processBatch cfg (fun _ => mode) now (buildElementMutationBatch randomUUID boardId
        (s.redis boardId).elementList upserts deletes) s).2.redis boardId).elements.lookup id =
      (applyChangeSet trackChangeLog now
        ⟨landedUpserts
          (collectCascadeDeleteIdsSorted (s.redis boardId).elementList deletes) upserts,
          deletes⟩ (s.redis boardId)).2.elements.lookup id := by
  have hboard : ∀ m ∈ buildElementMutationBatch randomUUID boardId (s.redis boardId).elementList
      upserts deletes, m.boardId = boardId := fun m hm => boardId_buildElementMutationBatch hm
  rw [(processBatch_elements cfg mode now hboard s).2 hkept, context_buildElementMutationBatch,
    lookup_applyChangeSet_landed]
  -- the loop sees operations and ids of the batch
  have hids := mutationIds_buildElementMutationBatch randomUUID (s.redis boardId) upserts deletes
    boardId
  rw [← map_entriesOf (buildElementMutationBatch _ _ _ _ _), List.map_map] at hids
  have hoperations := operations_buildElementMutationBatch randomUUID (s.redis boardId) upserts
    deletes boardId
  rw [← map_entriesOf (buildElementMutationBatch _ _ _ _ _), List.map_map] at hoperations
  apply lookup_processEntries_patch now mode hoperations
  · intro entry hentry
    have hmem : entry.2.mutationId ∈ (entriesOf (buildElementMutationBatch randomUUID boardId
        (s.redis boardId).elementList upserts deletes)).map fun e => e.2.mutationId :=
      List.mem_map_of_mem hentry
    rw [show (fun e : Nat × Mutation => e.2.mutationId) =
      (fun m : Mutation => m.mutationId) ∘ (fun e : Nat × Mutation => e.2) from rfl, hids] at hmem
    obtain ⟨i, -, hi⟩ := List.mem_map.mp hmem
    rw [← hi]
    exact hfresh.unseen i
  · show (List.map ((fun m : Mutation => m.mutationId) ∘ (fun e : Nat × Mutation => e.2)) _).Nodup
    rw [hids]
    exact List.nodup_range.map hfresh.distinct

/-- The batch of a change set leaves the hash that `applyChangeSet` leaves with the upserts that
    land; they are all of those outside the cascade, unless one goes into a meta that another makes.
    Only a write-through that evicts the board leaves nothing. -/
theorem patch_as_change_set (hfresh : FreshIds randomUUID (s.redis boardId))
    (trackChangeLog : Bool) :
    let batch := buildElementMutationBatch randomUUID boardId (s.redis boardId).elementList upserts
      deletes
    let elements := ((processBatch cfg (fun _ => mode) now batch s).2.redis boardId).elements
    let landed := landedUpserts
      (collectCascadeDeleteIdsSorted (s.redis boardId).elementList deletes) upserts
    let evicts := BatchEvicts cfg mode now boardId batch s
    (evicts → elements = ∅) ∧
    (¬ evicts → ∀ id, elements.lookup id =
      (applyChangeSet trackChangeLog now ⟨landed, deletes⟩
        (s.redis boardId)).2.elements.lookup id) ∧
    (¬ evicts → NoneIntoMonthRange upserts → ∀ id, elements.lookup id =
      (applyChangeSet trackChangeLog now ⟨upserts, deletes⟩
        (s.redis boardId)).2.elements.lookup id) := by
  intro batch elements landed evicts
  have hboard : ∀ m ∈ batch, m.boardId = boardId := fun m hm => boardId_buildElementMutationBatch hm
  have hlanded := fun hkept =>
    processBatch_patch_landed cfg mode now upserts deletes hfresh hkept trackChangeLog
  refine ⟨(processBatch_elements cfg mode now hboard s).1, hlanded, fun hkept hnone id => ?_⟩
  refine (hlanded hkept id).trans ?_
  rw [landedUpserts_of_none hnone]
  exact lookup_applyChangeSet_filter trackChangeLog now id

/-- So does a request that may edit the board. -/
theorem patchElements_elements {access : BoardAccess} (hedit : access.permission = .edit)
    (haccess : access.hasAccess = true) (hchange : (upserts.isEmpty && deletes.isEmpty) = false)
    (hfresh : FreshIds randomUUID ((loadBoard boardId s).redis boardId))
    (hkept : ¬ BatchEvicts cfg mode now boardId (buildElementMutationBatch randomUUID boardId
      ((loadBoard boardId s).redis boardId).elementList upserts deletes) (loadBoard boardId s))
    (hnone : NoneIntoMonthRange upserts) (trackChangeLog : Bool) (id : String) :
    ((patchElements cfg (fun _ => mode) now access randomUUID boardId upserts deletes s).2.redis
        boardId).elements.lookup id =
      (applyChangeSet trackChangeLog now ⟨upserts, deletes⟩
        ((loadBoard boardId s).redis boardId)).2.elements.lookup id := by
  have hlanded := processBatch_patch_landed cfg mode now upserts deletes hfresh hkept
    trackChangeLog id
  rw [landedUpserts_of_none hnone, lookup_applyChangeSet_filter] at hlanded
  rw [← hlanded]
  simp only [patchElements, hchange, haccess, hedit, Bool.not_true, Bool.false_or, ne_eq,
    not_true_eq_false, decide_false, Bool.false_eq_true, if_false]
  split <;> next hbatch => rw [hbatch]

end

/-! ### A month range in the change set -/

/-- Ids that differ in their lengths. -/
def lengthIds (i : Nat) : String := String.ofList (List.replicate i 'a')

theorem freshIds_lengthIds {k : BoardKeys} (h : k.seen = ∅) : FreshIds lengthIds k where
  distinct i j hij := by simpa [lengthIds] using congrArg String.length hij
  unseen i hi := by
    rw [h] at hi
    cases hi

def emptyServer : Server := ⟨fun _ => { seq := some 0 }, ⟨∅, ∅⟩⟩

/-- Two columns, one of them deleted by the same change set: the other is there in both. -/
theorem patch_as_change_set_columns :
    ((processBatch {} (fun _ => .collab) 0 (buildElementMutationBatch lengthIds "board"
        (emptyServer.redis "board").elementList [⟨"a", ∅⟩, ⟨"b", ∅⟩] ["a"]) emptyServer).2.redis
          "board").elements.lookup "b" =
      (applyChangeSet true 0 ⟨[⟨"a", ∅⟩, ⟨"b", ∅⟩], ["a"]⟩
        (emptyServer.redis "board")).2.elements.lookup "b" := by
  refine (patch_as_change_set {} .collab 0 [⟨"a", ∅⟩, ⟨"b", ∅⟩] ["a"] (freshIds_lengthIds rfl)
    true).2.2 (fun h => by cases h.1.1) ?_ "b"
  intro e he m _ hmeta
  have hfields : e.fields = ∅ := by
    simp only [List.mem_cons, List.not_mem_nil, or_false] at he
    rcases he with rfl | rfl <;> rfl
  rw [BoardElement.str?, hfields] at hmeta
  cases hmeta

/-- A board without elements, and a change set with a month range and a month of it: the batch turns
    the month away. -/
theorem patch_turns_month_away :
    let upserts : List BoardElement :=
      [⟨"meta", AList.singleton "monthRange" (.obj [])⟩,
        ⟨"jan", AList.singleton "metaContainerId" (.str "meta")⟩]
    (∀ e ∈ (emptyServer.redis "board").elementList, e.fields.lookup "monthRange" = none) ∧
      FreshIds lengthIds (emptyServer.redis "board") ∧
      ¬ ∀ id, ((processBatch {} (fun _ => .collab) 0 (buildElementMutationBatch lengthIds "board"
          (emptyServer.redis "board").elementList upserts []) emptyServer).2.redis
            "board").elements.lookup id =
        (applyChangeSet true 0 ⟨upserts, []⟩ (emptyServer.redis "board")).2.elements.lookup id := by
  intro upserts
  refine ⟨fun e he => (List.not_mem_nil he).elim, freshIds_lengthIds rfl, fun h => ?_⟩
  have hjan := congrArg Option.isSome (h "jan")
  revert hjan
  decide

end Notebortt
