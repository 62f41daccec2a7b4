import Mathlib.Logic.Function.Basic
import Notebortt.BoardState.Postgres
import Notebortt.Mutations.AcceptedPayloads
import Notebortt.Mutations.LockEnforcement

/-! # Processing mutations as they are

    `processBatch` with what it calls, over payload values: nothing between the
    entry points and the store checks a mutation again, so the steps below take
    whatever was accepted and stop only at a `TypeError`. -/

namespace Notebortt.Payloads

/-! ### The store -/

/-- What the Redis client makes of values that are given to it as ids: ids that are not strings are
    turned into arguments by the client. -/
structure Client where
  /-- `${v}` in a key. -/
  text : Value → String
  hget : Dict Fields → Value → Option Fields
  /-- One reply for each argument. -/
  hmget : Dict Fields → List Value → List (Option Fields)
  hset : Dict Fields → Value → Fields → Dict Fields
  hdel : Dict Fields → List Value → Dict Fields
  sadd : IdSet → List Value → IdSet
  srem : IdSet → List Value → IdSet
  text_str : ∀ s, text (some (.str s)) = s
  hget_str : ∀ elements id, hget elements (some (.str id)) = elements.lookup id
  hmget_str : ∀ elements (ids : List String),
    hmget elements (ids.map fun id => some (.str id)) = ids.map fun id => elements.lookup id
  hset_str : ∀ elements id element,
    hset elements (some (.str id)) element = elements.insert id element
  hdel_str : ∀ elements (ids : List String),
    hdel elements (ids.map fun id => some (.str id)) = Dict.eraseAll elements ids
  sadd_str : ∀ set (ids : List String), sadd set (ids.map fun id => some (.str id)) = set.add ids
  srem_str : ∀ set (ids : List String), srem set (ids.map fun id => some (.str id)) = set.remove ids
  /-- A reply is an element of the hash. -/
  hget_mem : ∀ {elements id element}, hget elements id = some element →
    ∃ field, elements.lookup field = some element
  hmget_mem : ∀ {elements ids element}, some element ∈ hmget elements ids →
    ∃ field, elements.lookup field = some element
  /-- HDEL only removes. -/
  hdel_lookup : ∀ {elements ids field element}, (hdel elements ids).lookup field = some element →
    elements.lookup field = some element

/-- The keys of a board that are read here: the elements hash, the mutations seen, and the ids
    marked for the next flush. -/
structure BoardStore where
  elements : Dict Fields
  seen : List String
  dirtyElementIds : IdSet := ∅
  deletedElementIds : IdSet := ∅

/-! ### The context -/

def type? (operation : Value) : Except TypeError (Option MutationType) := do
  let type ← prop operation "type"
  return mutationType? type

def elementIds (values : List Value) : Except TypeError (List Value) :=
  values.mapM fun value => prop value "elementId"

/-- `collectTouchedElementIds` for one operation. -/
def touchedIds (operation : Value) : Except TypeError (List Value) := do
  match ← type? operation with
  | some .updateElement => return [← prop operation "elementId"]
  | some .reorderElement => return [← prop operation "elementId"]
  | some .moveElements => elementIds (← iterate (← prop operation "moves"))
  | some .updateElements => elementIds (← iterate (← prop operation "updates"))
  | some .reconcileMonthRange =>
    return (← prop operation "metaId") :: (← iterate (← prop operation "deletes"))
  | _ => return []

def collectTouchedElementIds (mutations : List Value) : Except TypeError (List Value) := do
  let ids ← mutations.mapM fun mutation => do touchedIds (← prop mutation "operation")
  return toValueSet ids.flatten

/-- `fields?.metaContainerId`, when it is a string. -/
def consider (fields : Value) : Option String := asString (member fields "metaContainerId")

/-- `collectReferencedMetaIds` for one operation. -/
def referencedMetaIds (operation : Value) : Except TypeError (List String) := do
  match ← type? operation with
  | some .createElement => return (consider (← prop operation "data")).toList
  | some .updateElement => return (consider (← prop operation "fields")).toList
  | some .updateElements =>
    let updates ← iterate (← prop operation "updates")
    let ids ← updates.mapM fun update => do return (consider (← prop update "fields")).toList
    return ids.flatten
  | _ => return []

def collectReferencedMetaIds (mutations : List Value) : Except TypeError (List String) := do
  let ids ← mutations.mapM fun mutation => do referencedMetaIds (← prop mutation "operation")
  return ids.flatten

section processing
variable (client : Client) (enableTargetedReads : Bool)

/-- `getElementsByIds`: a falsy id and an empty reply are skipped. -/
def getElementsByIds (elements : Dict Fields) (ids : List Value) : ElementMap :=
  (ids.zip (client.hmget elements ids)).foldl (fun map reply =>
    match reply.2 with
    | some element => if truthy reply.1 then mapSet map reply.1 element else map
    | none => map) []

/-- One `getElement` for each id. -/
def getElementEach (elements : Dict Fields) (ids : List Value) : ElementMap :=
  ids.foldl (fun map id =>
    match client.hget elements id with
    | some element => mapSet map id element
    | none => map) []

def fetchByIds (elements : Dict Fields) (ids : List Value) : ElementMap :=
  if enableTargetedReads then getElementsByIds client elements ids
  else getElementEach client elements ids

/-- The containers an element names. -/
def parentIds (element : Fields) : List String :=
  (asString (element.lookup "containerId")).toList ++
    (asString (element.lookup "metaContainerId")).toList

def createCachedBoardContext (elements : Dict Fields) (mutations : List Value) :
    Except TypeError ElementMap := do
  let touchedElementIds ← collectTouchedElementIds mutations
  if touchedElementIds.isEmpty then return []
  let elementsById := fetchByIds client enableTargetedReads elements touchedElementIds
  let metaIds ← collectReferencedMetaIds mutations
  let parents := toValueSet <|
    (elementsById.flatMap (fun entry => parentIds entry.2) ++ metaIds).map
    fun id => some (.str id)
  let missingParents := parents.filter fun id => (mapGet elementsById id).isNone
  if missingParents.isEmpty then return elementsById
  return (fetchByIds client enableTargetedReads elements missingParents).foldl
    (fun map entry => mapSet map entry.1 entry.2) elementsById

/-! ### Locks -/

def isElementLocked (element : Fields) : Bool :=
  sameValue (element.lookup "locked") (some (.bool true))

def isInsideLockedContainer (context : ElementMap) (element : Fields) : Bool :=
  (parentIds element).any fun parentId =>
    (mapGet context (some (.str parentId))).any isElementLocked

def isPositionPatch (fields : Value) : Except TypeError Bool :=
  match fields with
  | none => .error .noProperties
  | some .null => .error .noProperties
  | fields => .ok ((spread fields).keys.any fun key => POSITION_FIELDS.contains key)

/-- The string names a managed meta of the context. -/
def isManaged (context : ElementMap) (metaId : Value) : Bool :=
  match asString metaId with
  | some id => (mapGet context (some (.str id))).any fun m => (m.lookup "monthRange").isSome
  | none => false

def isInsideManagedMeta (context : ElementMap) (element : Fields) : Bool :=
  isManaged context (element.lookup "metaContainerId")

def patchesIntoManagedMeta (context : ElementMap) (element : Fields) (fields : Value) : Bool :=
  isManaged context (member fields "metaContainerId") &&
    !sameValue (element.lookup "metaContainerId") (member fields "metaContainerId")

def isHeld (context : ElementMap) (element : Fields) : Bool :=
  isElementLocked element || isInsideLockedContainer context element
    || isInsideManagedMeta context element

/-- One position patch. -/
def isPatchBlocked (context : ElementMap) (elementId fields : Value) : Except TypeError Bool := do
  if !(← isPositionPatch fields) then return false
  match mapGet context elementId with
  | none => return false
  | some element => return isHeld context element || patchesIntoManagedMeta context element fields

/-- One id of `DELETE_ELEMENTS`. -/
def isDeleteBlocked (context : ElementMap) (deletedIds : List Value) (elementId : Value) : Bool :=
  match mapGet context elementId with
  | none => false
  | some element =>
    !hasValue deletedIds (element.lookup "metaContainerId") && isInsideManagedMeta context element

def isMutationBlockedByLock (operation : Value) (context : ElementMap) : Except TypeError Bool := do
  match ← type? operation with
  | some .moveElements =>
    (← arrayItems (← prop operation "moves")).anyM fun move => do
      return (mapGet context (← prop move "elementId")).any (isHeld context)
  | some .updateElement =>
    isPatchBlocked context (← prop operation "elementId") (← prop operation "fields")
  | some .updateElements =>
    (← arrayItems (← prop operation "updates")).anyM fun update => do
      isPatchBlocked context (← prop update "elementId") (← prop update "fields")
  | some .createElement =>
    return isManaged context (← prop (← prop operation "data") "metaContainerId")
  | some .deleteElements =>
    let elementIds ← arrayItems (← prop operation "elementIds")
    return elementIds.any (isDeleteBlocked context elementIds)
  | _ => return false

/-! ### `validateReconcileMonthRange` -/

/-- The upsert loop: the ids seen and the metas counted so far. -/
def validateUpserts (metaId : Value) : List Value → List Value → Nat →
    Except TypeError (Except String (List Value × Nat))
  | [], upsertIds, metaUpsertCount => .ok (.ok (upsertIds, metaUpsertCount))
  | element :: rest, upsertIds, metaUpsertCount => do
    let id ← prop element "id"
    if (asString id).isNone then return .error "reconcile upsert missing id"
    else if hasValue upsertIds id then return .error "reconcile upserts contain duplicate ids"
    else if sameValue id metaId then
      if !isRecord (member element "monthRange") then
        return .error "reconcile meta upsert is not a managed month-range"
      else validateUpserts metaId rest (id :: upsertIds) (metaUpsertCount + 1)
    else if !sameValue (member element "metaContainerId") metaId then
      return .error "reconcile upsert not contained in meta"
    else validateUpserts metaId rest (id :: upsertIds) metaUpsertCount

/-- The delete loop: the ids seen so far. -/
def validateDeletes (context : ElementMap) (metaId : Value) (upsertIds : List Value) :
    List Value → List Value → Option String
  | [], _ => none
  | elementId :: rest, deleteIds =>
    if sameValue elementId metaId then some "reconcile may not delete its meta"
    else if hasValue deleteIds elementId then some "reconcile deletes contain duplicate ids"
    else if hasValue upsertIds elementId then some "reconcile upserts and deletes overlap"
    else if (mapGet context elementId).any fun element =>
        !sameValue (element.lookup "metaContainerId") metaId then
      some "reconcile delete not contained in meta"
    else validateDeletes context metaId upsertIds rest (elementId :: deleteIds)

/-- The message of the first check that fails. -/
def validateReconcileMonthRange (operation : Value) (context : ElementMap) :
    Except TypeError (Option String) := do
  let metaId ← prop operation "metaId"
  if (mapGet context metaId).any fun m => !isRecord (m.lookup "monthRange") then
    return some "reconcile meta is not a managed month-range"
  let upserts ← prop operation "upserts"
  if sameValue (← prop upserts "length") (some (.num 0)) then
    return some "reconcile upserts must not be empty"
  match ← validateUpserts metaId (← iterate upserts) [] 0 with
  | .error message => return some message
  | .ok (upsertIds, metaUpsertCount) =>
    if metaUpsertCount ≠ 1 then
      return some "reconcile upserts must include exactly one managed meta"
    return validateDeletes context metaId upsertIds (← iterate (← prop operation "deletes")) []

/-! ### Change sets -/

/-- What an upsert is once it is spread; its `id` is read first. -/
def toElement (value : Value) : Except TypeError Fields := do
  let _ ← prop value "id"
  return spread value

/-- `ElementChangeSet`. -/
structure ChangeSet where
  upserts : List Fields
  deletes : List Value

def toUpsertFromCache (context : ElementMap) (elementId : Value) (transform : Fields → Fields) :
    List Fields :=
  ((mapGet context elementId).map transform).toList

/-- `{ ...existing, ...fields }`. -/
def patchElement (fields : Value) (existing : Fields) : Fields := spread fields ∪ existing

def moveUpserts (context : ElementMap) : List Value → Except TypeError (List Fields)
  | [] => return []
  | move :: moves => do
    let elementId ← prop move "elementId"
    let x ← prop move "x"
    let y ← prop move "y"
    return toUpsertFromCache context elementId (fun existing =>
      setMember (setMember existing "x" x) "y" y) ++ (← moveUpserts context moves)

def updateUpserts (context : ElementMap) : List Value → Except TypeError (List Fields)
  | [] => return []
  | update :: updates => do
    let elementId ← prop update "elementId"
    let fields ← prop update "fields"
    return toUpsertFromCache context elementId (patchElement fields) ++
      (← updateUpserts context updates)

/-- `toChangeSet`, with its lists as `applyChangeSet` reads them. An operation of another type is
    returned as it is, and taken for a change set. -/
def toChangeSet (context : ElementMap) (operation : Value) : Except TypeError ChangeSet := do
  match ← type? operation with
  | some .createElement => return ⟨[← toElement (← prop operation "data")], []⟩
  | some .updateElement =>
    return ⟨toUpsertFromCache context (← prop operation "elementId")
      (patchElement (← prop operation "fields")), []⟩
  | some .deleteElements => return ⟨[], ← iterate (← prop operation "elementIds")⟩
  | some .moveElements =>
    return ⟨← moveUpserts context (← arrayItems (← prop operation "moves")), []⟩
  | some .updateElements =>
    return ⟨← updateUpserts context (← arrayItems (← prop operation "updates")), []⟩
  | some .reorderElement =>
    let zIndex ← prop operation "zIndex"
    return ⟨toUpsertFromCache context (← prop operation "elementId")
      (fun existing => setMember existing "zIndex" zIndex), []⟩
  | some .reconcileMonthRange =>
    let deletes ← iterate (← prop operation "deletes")
    return ⟨← (← iterate (← prop operation "upserts")).mapM toElement, deletes⟩
  | none =>
    let deletes ← iterate (← prop operation "deletes")
    return ⟨← (← iterate (← prop operation "upserts")).mapM toElement, deletes⟩

/-! ### `applyChangeSet` -/

/-- The last of the upserts of one id, where the first one stood. -/
def normalizeUpserts (upserts : List Fields) : List Fields :=
  (upserts.foldl (fun deduped element => mapSet deduped (element.lookup "id") element) []).map (·.2)

/-- The ids of the elements whose field `key` is this id, unless it is empty. -/
def childrenBy (key : String) (allElements : List Fields) (parentId : Value) : List Value :=
  (allElements.filter fun element =>
    match (asString (element.lookup key)).filter (· ≠ "") with
    | some id => sameValue (some (.str id)) parentId
    | none => false).map (·.lookup "id")

def visitChildren (children deletes pending : List Value) : List Value × List Value :=
  children.foldl (fun acc childId =>
    if hasValue acc.1 childId then acc else (acc.1 ++ [childId], acc.2 ++ [childId]))
    (deletes, pending)

/-- The worklist loop: an id enters `pending` once, so the ids requested and the elements bound the
    rounds. -/
def cascadeLoop (allElements : List Fields) : Nat → List Value → List Value → List Value
  | 0, _, deletes => deletes
  | _ + 1, [], deletes => deletes
  | n + 1, currentId :: pending, deletes =>
    let next := visitChildren (childrenBy "containerId" allElements currentId ++
      childrenBy "metaContainerId" allElements currentId) deletes pending
    cascadeLoop allElements n next.2 next.1

def collectCascadeDeleteIds (allElements : List Fields) (requestedDeletes : List Value) :
    List Value :=
  let pending := toValueSet requestedDeletes
  cascadeLoop allElements (pending.length + allElements.length) pending pending

/-- `Object.values` of `getElements`. -/
def elementList (elements : Dict Fields) : List Fields := (parsedObject elements).entries.map (·.2)

/-- The requested deletes, with what they cascade to. -/
def deleteIdsOf (elements : Dict Fields) (deletes : List Value) : List Value :=
  if deletes.isEmpty then [] else collectCascadeDeleteIds (elementList elements) deletes

/-- The change `applyChangeSet` writes, if any. -/
def persistedChange (now : Nat) (elements : Dict Fields) (changeSet : ChangeSet) :
    Option ChangeSet :=
  let deleteIds := deleteIdsOf elements changeSet.deletes
  let upserts := ((normalizeUpserts changeSet.upserts).filter fun element =>
    !hasValue deleteIds (element.lookup "id")).map fun element =>
      element.insert "updatedAt" (.num now)
  if upserts.isEmpty && deleteIds.isEmpty then none else some ⟨upserts, deleteIds⟩

def writeChange (elements : Dict Fields) (change : ChangeSet) : Dict Fields :=
  let written := change.upserts.foldl (fun elements element =>
    client.hset elements (element.lookup "id") element) elements
  if change.deletes.isEmpty then written else client.hdel written change.deletes

/-- What the pipeline of a change leaves: the hash, and the ids marked dirty and deleted. -/
def applyChange (board : BoardStore) (change : ChangeSet) : BoardStore :=
  let upsertIds := change.upserts.map (·.lookup "id")
  let marked : BoardStore :=
    if upsertIds.isEmpty then board
    else
      { board with
        dirtyElementIds := client.sadd board.dirtyElementIds upsertIds
        deletedElementIds := client.srem board.deletedElementIds upsertIds }
  let marked : BoardStore :=
    if change.deletes.isEmpty then marked
    else
      { marked with
        deletedElementIds := client.sadd marked.deletedElementIds change.deletes
        dirtyElementIds := client.srem marked.dirtyElementIds change.deletes }
  { marked with elements := writeChange client board.elements change }

/-! ### One mutation -/

/-- What follows once the seen marker is claimed: the change to write. -/
def claimedChange (now : Nat) (operation : Value) (context : ElementMap) (elements : Dict Fields) :
    Except TypeError (Option ChangeSet) := do
  if ← isMutationBlockedByLock operation context then return none
  if (← type? operation) = some .reconcileMonthRange then
    if (← validateReconcileMonthRange operation context).isSome then return none
  return persistedChange now elements (← toChangeSet context operation)

/-- Whether the mutation is a transient move, which is broadcast only. -/
def isTransient (operation : Value) : Except TypeError Bool := do
  return (← type? operation) = some .moveElements && truthy (← prop operation "transient")

/-- The change of a mutation, or what it throws, and the board it leaves. -/
def processMutationWithContext (now : Nat) (mutation : Value) (context : ElementMap)
    (board : BoardStore) : Except TypeError (Option ChangeSet) × BoardStore :=
  let operation := member mutation "operation"
  match isTransient operation with
  | .error e => (.error e, board)
  | .ok true => (.ok none, board)
  | .ok false =>
    let key := client.text (member mutation "mutationId")
    if key ∈ board.seen then (.ok none, board)
    else
      let claimed := { board with seen := key :: board.seen }
      match claimedChange now operation context board.elements with
      | .error e => (.error e, claimed)
      | .ok none => (.ok none, claimed)
      | .ok (some change) =>
        (.ok (some change), applyChange client claimed change)

/-! ### A batch -/

def applyPersistedChangeToContext (context : ElementMap) (change : ChangeSet) : ElementMap :=
  change.deletes.foldl mapDelete
    (change.upserts.foldl (fun map element => mapSet map (element.lookup "id") element) context)

/-- The loop over one board's mutations; a mutation that throws ends it. -/
def processEntries (now : Nat) : List Value → ElementMap → BoardStore →
    Except TypeError Unit × BoardStore
  | [], _, board => (.ok (), board)
  | mutation :: rest, context, board =>
    match processMutationWithContext client now mutation context board with
    | (.error e, board) => (.error e, board)
    | (.ok none, board) => processEntries now rest context board
    | (.ok (some change), board) =>
      processEntries now rest (applyPersistedChangeToContext context change) board

def processBoardBatch (now : Nat) (mutations : List Value) (board : BoardStore) :
    Except TypeError Unit × BoardStore :=
  match createCachedBoardContext client enableTargetedReads board.elements mutations with
  | .error e => (.error e, board)
  | .ok context => processEntries client now mutations context board

/-- The board a mutation names. -/
def boardIdOf (mutation : Value) : String := client.text (member mutation "boardId")

/-- `byBoard`: the mutations by board, boards and mutations in arrival order. -/
def groupByBoard (mutations : List Value) : List (String × List Value) :=
  mutations.foldl (fun groups mutation =>
    if groups.any fun group => group.1 == boardIdOf client mutation then
      groups.map fun group =>
        if group.1 = boardIdOf client mutation then (group.1, group.2 ++ [mutation]) else group
    else groups ++ [(boardIdOf client mutation, [mutation])]) []

/-- The boards one after the other; what one of them throws ends the batch. -/
def processBoards (now : Nat) : List (String × List Value) → (String → BoardStore) →
    String → BoardStore
  | [], boards => boards
  | (boardId, mutations) :: rest, boards =>
    let processed := processBoardBatch client enableTargetedReads now mutations (boards boardId)
    let boards := Function.update boards boardId processed.2
    match processed.1 with
    | .error _ => boards
    | .ok () => processBoards now rest boards

def processBatch (now : Nat) (mutations : List Value) (boards : String → BoardStore) :
    String → BoardStore :=
  processBoards client enableTargetedReads now (groupByBoard client mutations) boards

end processing

/-! ### The cascade -/

section cascade
variable {elements : Dict Fields} {ids : List Value}

/-- The ids, and what is contained in them through `containerId` and `metaContainerId`. -/
inductive Contained (elements : Dict Fields) (ids : List Value) : Value → Prop where
  | listed {id : Value} : id ∈ ids → Contained elements ids id
  | child {parentId field key : String} {element : Fields} :
      Contained elements ids (some (.str parentId)) → elements.lookup field = some element →
      key ∈ ["containerId", "metaContainerId"] → element.lookup key = some (.str parentId) →
      Contained elements ids (element.lookup "id")

theorem eq_of_sameValue_str {s : String} {v : Value} (h : sameValue (some (.str s)) v = true) :
    v = some (.str s) := by
  cases v with
  | none => cases h
  | some v =>
    cases v with
    | str s' =>
      have heq : s = s' := by simpa [sameValue, jsonEq] using h
      rw [heq]
    | _ => cases h

theorem mem_of_mem_toValueSet {values : List Value} {v : Value} (h : v ∈ toValueSet values) :
    v ∈ values := by
  suffices hfold : ∀ v ∈ toValueSet values, v ∈ values from hfold v h
  refine List.foldlRecOn (motive := fun set => ∀ v ∈ set, v ∈ values) _ _ (by simp) ?_
  intro set hset value hvalue v hv
  split at hv
  · exact hset v hv
  · rcases List.mem_append.mp hv with hv | hv
    · exact hset v hv
    · rw [List.mem_singleton.mp hv]
      exact hvalue

/-- What HGETALL shows is in the hash. -/
theorem lookup_of_mem_elementList {element : Fields} (h : element ∈ elementList elements) :
    ∃ field, elements.lookup field = some element := by
  obtain ⟨entry, hentry, rfl⟩ := List.mem_map.mp h
  have hlookup := AList.mem_lookup_iff.mpr hentry
  rw [lookup_parsedObject] at hlookup
  split at hlookup
  · cases hlookup
  · exact ⟨entry.1, hlookup⟩

/-- An indexed child of a contained value is contained. -/
theorem contained_of_childrenBy {key : String} (hkey : key ∈ ["containerId", "metaContainerId"])
    {parentId id : Value} (hparent : Contained elements ids parentId)
    (h : id ∈ childrenBy key (elementList elements) parentId) : Contained elements ids id := by
  obtain ⟨element, hmem, rfl⟩ := List.mem_map.mp h
  obtain ⟨helement, hchild⟩ := List.mem_filter.mp hmem
  obtain ⟨field, hfield⟩ := lookup_of_mem_elementList helement
  split at hchild
  · next parent hstring =>
    obtain ⟨hstring, -⟩ := Option.filter_eq_some_iff.mp hstring
    obtain ⟨s, hs⟩ := asString_isSome (Option.isSome_of_eq_some hstring)
    have hlookup : element.lookup key = some (.str parent) := by
      rw [hs] at hstring ⊢
      rw [← Option.some.inj hstring]
    rw [eq_of_sameValue_str hchild] at hparent
    exact .child hparent hfield hkey hlookup
  · cases hchild

/-- One visit keeps the values found, and those pending, contained. -/
theorem contained_visitChildren {children deletes pending : List Value}
    (hchildren : ∀ id ∈ children, Contained elements ids id)
    (hdeletes : ∀ id ∈ deletes, Contained elements ids id)
    (hpending : ∀ id ∈ pending, Contained elements ids id) :
    (∀ id ∈ (visitChildren children deletes pending).1, Contained elements ids id) ∧
      ∀ id ∈ (visitChildren children deletes pending).2, Contained elements ids id := by
  have happend : ∀ {values : List Value} {v : Value}, (∀ id ∈ values, Contained elements ids id) →
      Contained elements ids v → ∀ id ∈ values ++ [v], Contained elements ids id := by
    intro values v hvalues hv id hid
    rcases List.mem_append.mp hid with hid | hid
    · exact hvalues id hid
    · rw [List.mem_singleton.mp hid]
      exact hv
  refine List.foldlRecOn (motive := fun acc : List Value × List Value =>
    (∀ id ∈ acc.1, Contained elements ids id) ∧ ∀ id ∈ acc.2, Contained elements ids id) _ _
    ⟨hdeletes, hpending⟩ ?_
  intro acc hacc childId hchild
  split
  · exact hacc
  · exact ⟨happend hacc.1 (hchildren childId hchild), happend hacc.2 (hchildren childId hchild)⟩

theorem contained_cascadeLoop (n : Nat) {pending deletes : List Value}
    (hpending : ∀ id ∈ pending, Contained elements ids id)
    (hdeletes : ∀ id ∈ deletes, Contained elements ids id) :
    ∀ id ∈ cascadeLoop (elementList elements) n pending deletes, Contained elements ids id := by
  induction n generalizing pending deletes with
  | zero => exact hdeletes
  | succ n ih =>
    cases pending with
    | nil => exact hdeletes
    | cons currentId pending =>
      have hcurrent := hpending currentId List.mem_cons_self
      have hchildren : ∀ id ∈ childrenBy "containerId" (elementList elements) currentId ++
          childrenBy "metaContainerId" (elementList elements) currentId,
          Contained elements ids id := by
        intro id hid
        rcases List.mem_append.mp hid with hid | hid
        · exact contained_of_childrenBy (by decide) hcurrent hid
        · exact contained_of_childrenBy (by decide) hcurrent hid
      -- the visit appends children of the current value to both lists
      obtain ⟨hfound, hleft⟩ := contained_visitChildren hchildren hdeletes
        fun id hid => hpending id (List.mem_cons_of_mem _ hid)
      exact ih hleft hfound

/-- What is deleted is contained in the ids requested. -/
theorem contained_deleteIdsOf : ∀ id ∈ deleteIdsOf elements ids, Contained elements ids id := by
  intro id hid
  unfold deleteIdsOf at hid
  split at hid
  · cases hid
  · -- the loop starts from the requested ids themselves
    have hseeds : ∀ v ∈ toValueSet ids, Contained elements ids v :=
      fun v hv => .listed (mem_of_mem_toValueSet hv)
    exact contained_cascadeLoop _ hseeds hseeds id hid

end cascade

end Notebortt.Payloads
