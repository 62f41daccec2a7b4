import Notebortt.Mutations.Types

/-! # Lock enforcement

    The rules of `mutations/lock-enforcement.ts`: which mutations a locked
    element, a locked container or a managed month-range meta turns away, and
    when a `RECONCILE_MONTH_RANGE` is self-consistent.

    A rule reads the board through a `LockContext` only by `elementsById.get`,
    so a context is a lookup function. -/

namespace Notebortt

def POSITION_FIELDS : List String :=
  ["x", "y", "containerId", "containerColumnId", "containerOrder", "metaContainerId",
   "metaContainerOrder", "metaGridCol", "metaGridRow", "metaGridColSpan", "metaGridRowSpan"]

/-- `LockContext`, read through `elementsById.get`. -/
abbrev LockContext := String → Option BoardElement

/-! ### Rules about one element -/

/-- `record.locked === true`. -/
def isElementLocked (element : BoardElement) : Bool :=
  match element.fields.lookup "locked" with
  | some (.bool b) => b
  | _ => false

/-- `[containerId, metaContainerId]`, the strings among them. -/
def parentIds (element : BoardElement) : List String :=
  (element.str? "containerId").toList ++ (element.str? "metaContainerId").toList

def isInsideLockedContainer (context : LockContext) (element : BoardElement) : Bool :=
  (parentIds element).any fun parentId =>
    match context parentId with
    | some parent => isElementLocked parent
    | none => false

def isPositionPatch (fields : ElementFields) : Bool :=
  POSITION_FIELDS.any fun key => (fields.fields.lookup key).isSome

/-- `meta !== undefined && meta.monthRange !== undefined`. -/
def isManaged (context : LockContext) (metaId : String) : Bool :=
  match context metaId with
  | some m => (m.fields.lookup "monthRange").isSome
  | none => false

/-- The element is contained in a managed month-range meta column. -/
def isInsideManagedMeta (context : LockContext) (element : BoardElement) : Bool :=
  match element.str? "metaContainerId" with
  | some metaId => isManaged context metaId
  | none => false

/-- The fields would newly contain the element into a managed meta. -/
def patchesIntoManagedMeta (context : LockContext) (element : BoardElement)
    (fields : ElementFields) : Bool :=
  match fields.str? "metaContainerId" with
  | some target => isManaged context target && element.str? "metaContainerId" != some target
  | none => false

/-- The created element would be placed inside a managed meta. -/
def createsIntoManagedMeta (context : LockContext) (data : BoardElement) : Bool :=
  match data.str? "metaContainerId" with
  | some target => isManaged context target
  | none => false

/-- `typeof value === 'object' && value !== null`. -/
def isManagedMetaRecord : Option Json → Bool
  | some (.arr _) => true
  | some (.obj _) => true
  | _ => false

/-! ### `validateReconcileMonthRange` -/

/-- The upsert loop: the ids seen and the metas counted so far. -/
def validateUpserts (metaId : String) : List BoardElement → List String → Nat →
    Except String (List String × Nat)
  | [], upsertIds, metaUpsertCount => .ok (upsertIds, metaUpsertCount)
  | element :: rest, upsertIds, metaUpsertCount =>
    if element.id ∈ upsertIds then .error "reconcile upserts contain duplicate ids"
    else if element.id = metaId then
      if isManagedMetaRecord (element.fields.lookup "monthRange") then
        validateUpserts metaId rest (element.id :: upsertIds) (metaUpsertCount + 1)
      else .error "reconcile meta upsert is not a managed month-range"
    else if element.str? "metaContainerId" = some metaId then
      validateUpserts metaId rest (element.id :: upsertIds) metaUpsertCount
    else .error "reconcile upsert not contained in meta"

/-- The delete loop: the ids seen so far. -/
def validateDeletes (context : LockContext) (metaId : String) (upsertIds : List String) :
    List String → List String → Option String
  | [], _ => none
  | elementId :: rest, deleteIds =>
    if elementId = metaId then some "reconcile may not delete its meta"
    else if elementId ∈ deleteIds then some "reconcile deletes contain duplicate ids"
    else if elementId ∈ upsertIds then some "reconcile upserts and deletes overlap"
    else
      match context elementId with
      | some element =>
        if element.str? "metaContainerId" = some metaId then
          validateDeletes context metaId upsertIds rest (elementId :: deleteIds)
        else some "reconcile delete not contained in meta"
      | none => validateDeletes context metaId upsertIds rest (elementId :: deleteIds)

/-- The message of the first check that fails, or `none` for an operation that
    is self-consistent. `BoardElement.id` is a string by its type, which the
    source checks first for every upsert (`reconcile upsert missing id`). -/
def validateReconcileMonthRange (operation : Operation) (context : LockContext) : Option String :=
  match operation with
  | .reconcileMonthRange metaId upserts deletes =>
    let hijacked := match context metaId with
      | some m => !isManagedMetaRecord (m.fields.lookup "monthRange")
      | none => false
    if hijacked then some "reconcile meta is not a managed month-range"
    else if upserts.isEmpty then some "reconcile upserts must not be empty"
    else
      match validateUpserts metaId upserts [] 0 with
      | .error message => some message
      | .ok (upsertIds, metaUpsertCount) =>
        if metaUpsertCount ≠ 1 then some "reconcile upserts must include exactly one managed meta"
        else validateDeletes context metaId upsertIds deletes []
  | _ => none

/-! ### `isMutationBlockedByLock` -/

/-- The three rules a touched element is held to, moved or patched. -/
def isHeld (context : LockContext) (element : BoardElement) : Bool :=
  isElementLocked element || isInsideLockedContainer context element
    || isInsideManagedMeta context element

/-- One position patch of `UPDATE_ELEMENT` and `UPDATE_ELEMENTS`. -/
def isPatchBlocked (context : LockContext) (elementId : String) (fields : ElementFields) : Bool :=
  if !isPositionPatch fields then false
  else
    match context elementId with
    | some element => isHeld context element || patchesIntoManagedMeta context element fields
    | none => false

def isMoveBlocked (context : LockContext) (move : Move) : Bool :=
  match context move.elementId with
  | some element => isHeld context element
  | none => false

/-- One id of `DELETE_ELEMENTS`: inside a managed meta that is not deleted too. -/
def isDeleteBlocked (context : LockContext) (deletedIds : List String) (elementId : String) :
    Bool :=
  match context elementId with
  | some element =>
    match element.str? "metaContainerId" with
    | some metaId => if metaId ∈ deletedIds then false else isManaged context metaId
    | none => false
  | none => false

def isMutationBlockedByLock (operation : Operation) (context : LockContext) : Bool :=
  match operation with
  | .moveElements moves _ => moves.any (isMoveBlocked context)
  | .updateElement elementId fields => isPatchBlocked context elementId fields
  | .updateElements updates => updates.any fun u => isPatchBlocked context u.elementId u.fields
  | .createElement _ data => createsIntoManagedMeta context data
  | .deleteElements elementIds => elementIds.any (isDeleteBlocked context elementIds)
  | .reorderElement _ _ => false
  | .reconcileMonthRange _ _ _ => false

/-! ### What the rules read

    A verdict depends on the context only at the ids the rule looks up. -/

section congruence
variable {c c' : LockContext}

theorem isManaged_congr {metaId : String} (h : c metaId = c' metaId) :
    isManaged c metaId = isManaged c' metaId := by
  simp [isManaged, h]

theorem mem_parentIds_of_meta {e : BoardElement} {metaId : String}
    (h : e.str? "metaContainerId" = some metaId) : metaId ∈ parentIds e := by
  simp [parentIds, h]

/-- The rules about one element read its parents. -/
theorem isHeld_congr {e : BoardElement} (h : ∀ p ∈ parentIds e, c p = c' p) :
    isHeld c e = isHeld c' e := by
  have hlocked : isInsideLockedContainer c e = isInsideLockedContainer c' e := by
    unfold isInsideLockedContainer
    rw [Bool.eq_iff_iff, List.any_eq_true, List.any_eq_true]
    exact exists_congr fun p => and_congr_right fun hp => by rw [h p hp]
  have hmanaged : isInsideManagedMeta c e = isInsideManagedMeta c' e := by
    unfold isInsideManagedMeta
    cases hmeta : e.str? "metaContainerId" with
    | none => rfl
    | some metaId => exact isManaged_congr (h metaId (mem_parentIds_of_meta hmeta))
  simp [isHeld, hlocked, hmanaged]

theorem isMoveBlocked_congr {move : Move} (ht : c move.elementId = c' move.elementId)
    (hp : ∀ e, c' move.elementId = some e → ∀ p ∈ parentIds e, c p = c' p) :
    isMoveBlocked c move = isMoveBlocked c' move := by
  unfold isMoveBlocked
  rw [ht]
  cases he : c' move.elementId with
  | none => rfl
  | some e => exact isHeld_congr (hp e he)

theorem isPatchBlocked_congr {elementId : String} {fields : ElementFields}
    (ht : c elementId = c' elementId)
    (hp : ∀ e, c' elementId = some e → ∀ p ∈ parentIds e, c p = c' p)
    (hr : ∀ target ∈ fields.str? "metaContainerId", c target = c' target) :
    isPatchBlocked c elementId fields = isPatchBlocked c' elementId fields := by
  unfold isPatchBlocked
  rw [ht]
  cases he : c' elementId with
  | none => rfl
  | some e =>
    have hinto : patchesIntoManagedMeta c e fields = patchesIntoManagedMeta c' e fields := by
      unfold patchesIntoManagedMeta
      cases htarget : fields.str? "metaContainerId" with
      | none => rfl
      | some target =>
        have hmeta := isManaged_congr (hr target htarget)
        simp [hmeta]
    simp only [isHeld_congr (hp e he), hinto]

theorem validateDeletes_congr {metaId : String} {upsertIds : List String} :
    ∀ {deletes deleteIds : List String}, (∀ id ∈ deletes, c id = c' id) →
      validateDeletes c metaId upsertIds deletes deleteIds =
        validateDeletes c' metaId upsertIds deletes deleteIds := by
  intro deletes
  induction deletes with
  | nil => intros; rfl
  | cons d ds ih =>
    intro deleteIds h
    have hd := h d (by simp)
    have hds : ∀ id ∈ ds, c id = c' id := fun id hid => h id (by simp [hid])
    simp only [validateDeletes, hd, ih hds]

/-- `validateReconcileMonthRange` reads the meta and the planned deletes. -/
theorem validateReconcileMonthRange_congr {operation : Operation}
    (h : ∀ metaId upserts deletes, operation = .reconcileMonthRange metaId upserts deletes →
      c metaId = c' metaId ∧ ∀ id ∈ deletes, c id = c' id) :
    validateReconcileMonthRange operation c = validateReconcileMonthRange operation c' := by
  cases operation with
  | reconcileMonthRange metaId upserts deletes =>
    obtain ⟨hmeta, hdeletes⟩ := h metaId upserts deletes rfl
    simp only [validateReconcileMonthRange, hmeta, validateDeletes_congr hdeletes]
  | _ => rfl

end congruence

end Notebortt
