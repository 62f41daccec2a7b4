import Notebortt.Mutations.PayloadValues

/-! # The two entry points

    What `POST /boards/:id/mutations` (`boards/routes/shared.ts`) and the socket
    event (`socketio/payloads.ts`, `mutation-batch.handler.ts`) check of the
    mutations they pass on. A `Json` number is finite, so `Number.isFinite`
    holds of every number here. -/

namespace Notebortt.Payloads

inductive MutationType where
  | createElement
  | updateElement
  | deleteElements
  | moveElements
  | updateElements
  | reorderElement
  | reconcileMonthRange
deriving DecidableEq, Repr

/-- The `MutationType` a value of `operation.type` equals. -/
def mutationType? (type : Value) : Option MutationType :=
  match type with
  | some (.str "CREATE_ELEMENT") => some .createElement
  | some (.str "UPDATE_ELEMENT") => some .updateElement
  | some (.str "DELETE_ELEMENTS") => some .deleteElements
  | some (.str "MOVE_ELEMENTS") => some .moveElements
  | some (.str "UPDATE_ELEMENTS") => some .updateElements
  | some (.str "REORDER_ELEMENT") => some .reorderElement
  | some (.str "RECONCILE_MONTH_RANGE") => some .reconcileMonthRange
  | _ => none

/-! ### REST -/

def isNumber : Value → Bool
  | some (.num _) => true
  | _ => false

def isArray : Value → Bool
  | some (.arr _) => true
  | _ => false

def isStringArray (value : Value) : Bool :=
  isArray value && (items value).all fun item => (asString item).isSome

def isMutation (value : Value) : Bool :=
  if !isRecord value then false
  else if (asString (member value "mutationId")).isNone
      || (asString (member value "boardId")).isNone
      || !isNumber (member value "clientTimestamp") then false
  else
    let operation := member value "operation"
    if !isRecord operation || (asString (member operation "type")).isNone then false
    else
      match mutationType? (member operation "type") with
      | some .createElement =>
        (asString (member operation "elementId")).isSome && isRecord (member operation "data")
      | some .updateElement =>
        (asString (member operation "elementId")).isSome && isRecord (member operation "fields")
      | some .deleteElements => isStringArray (member operation "elementIds")
      | some .moveElements => isArray (member operation "moves")
      | some .updateElements => isArray (member operation "updates")
      | some .reorderElement =>
        (asString (member operation "elementId")).isSome && isNumber (member operation "zIndex")
      | some .reconcileMonthRange =>
        let upserts := member operation "upserts"
        (asString (member operation "metaId")).isSome && isArray upserts && !(items upserts).isEmpty
          && (items upserts).all isRecord && isStringArray (member operation "deletes")
      | none => false

/-- The `mutations` of `mutationsBodySchema`. -/
def acceptsBody (mutations : List Json) : Bool :=
  1 ≤ mutations.length && mutations.length ≤ 100 && mutations.all fun m => isMutation (some m)

/-! ### Socket -/

def MAX_MUTATION_BATCH : Nat := 100

def MAX_BOARD_ID_LENGTH : Nat := 200

def isMutationBatch (mutations : Value) : Bool :=
  isArray mutations && 0 < (items mutations).length && (items mutations).length ≤ MAX_MUTATION_BATCH

/-- The board id and the mutations, of which only the number is checked. -/
def parseMutationBatchPayload (payload : Value) : Option (String × List Value) :=
  if !isRecord payload then none
  else
    match (asString (member payload "boardId")).filter (· ≠ "") with
    | none => none
    | some boardId =>
      if textLength boardId > MAX_BOARD_ID_LENGTH
          || !isMutationBatch (member payload "mutations") then
        none
      else some (boardId, items (member payload "mutations"))

def hasConsistentBatchBoardId (boardId : String) (mutations : List Value) : Bool :=
  mutations.all fun mutation =>
    isRecord mutation && sameValue (member mutation "boardId") (some (.str boardId))

/-! ### Requests -/

inductive Request where
  | rest (mutations : List Json)
  | socket (payload : Value)

/-- The mutations a request brings to `processBatch`; `none`: it is turned away. -/
def Request.mutations? : Request → Option (List Value)
  | .rest mutations => if acceptsBody mutations then some (mutations.map some) else none
  | .socket payload =>
    match parseMutationBatchPayload payload with
    | none => none
    | some (boardId, mutations) =>
      if hasConsistentBatchBoardId boardId mutations then some mutations else none

end Notebortt.Payloads
