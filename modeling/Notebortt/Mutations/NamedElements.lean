import Notebortt.Mutations.PersistableElements

/-! # The elements a mutation names

    A mutation names elements by `elementId`, `elementIds`, `moves` and
    `updates`. What it writes goes to the ids inside the payloads: the `id` of
    the data of a creation, and the `id` of an element once a patch is merged
    into it. -/

namespace Notebortt.Payloads

/-! ### The hash commands -/

/-- A client whose hash commands read their ids field by field: HSET sets the pairs its arguments
    spell, HDEL removes the fields. -/
structure HashClient extends Client where
  sets : Value → Fields → List (String × Fields)
  fields : Value → List String
  sets_str : ∀ id element, sets (some (.str id)) element = [(id, element)]
  fields_str : ∀ id, fields (some (.str id)) = [id]
  hset_sets : ∀ elements id element,
    hset elements id element = Dict.insertAll elements (sets id element)
  hdel_fields : ∀ elements ids, hdel elements ids = Dict.eraseAll elements (ids.flatMap fields)

/-! ### `processMutation` -/

/-- What `processMutation` throws: a step that meets a value of another shape, or the query of the
    write-through. -/
inductive ProcessError where
  | type (e : TypeError)
  | query (e : QueryError)

section processing
variable (client : Client) (driver : Driver) (cfg : Config) (writeMode : BoardSyncWriteMode)
  (now : Nat)

/-- `persistIfSolo`. -/
def writeThrough (boardId : String) (board : BoardStore) (db : Postgres) :
    Option QueryError × BoardStore × Postgres :=
  if writeMode = .solo then persistBoard driver cfg boardId board db else (none, board, db)

/-- `processMutation`: what it throws or the change it returns, and what it leaves of the board and
    of the tables. -/
def processMutation (mutation : Value) (board : BoardStore) (db : Postgres) :
    Except ProcessError (Option ChangeSet) × BoardStore × Postgres :=
  match createCachedBoardContext client cfg.enableTargetedMutationReads board.elements
    [mutation] with
  | .error e => (.error (.type e), board, db)
  | .ok context =>
    match processMutationWithContext client now mutation context board with
    | (.error e, board) => (.error (.type e), board, db)
    | (.ok none, board) => (.ok none, board, db)
    | (.ok (some change), board) =>
      match writeThrough driver cfg writeMode (boardIdOf client mutation) board db with
      | (some e, board, db) => (.error (.query e), board, db)
      | (none, board, db) => (.ok (some change), board, db)

end processing

/-! ### Named elements -/

/-- The operation names the element: by its id, or, for what it deletes, by a container. A reconcile
    names its upserts by their ids. -/
def Names (elements : Dict Fields) (operation : Value) (id : Value) : Prop :=
  match mutationType? (member operation "type") with
  | some .createElement => id = member operation "elementId"
  | some .updateElement => id = member operation "elementId"
  | some .reorderElement => id = member operation "elementId"
  | some .moveElements => ∃ move ∈ items (member operation "moves"), id = member move "elementId"
  | some .updateElements =>
    ∃ update ∈ items (member operation "updates"), id = member update "elementId"
  | some .deleteElements => Contained elements (items (member operation "elementIds")) id
  | some .reconcileMonthRange =>
    (∃ element ∈ items (member operation "upserts"), id = member element "id") ∨
      Contained elements (items (member operation "deletes")) id
  | none => False

/-- The field of the hash is that of an element the operation names. -/
def NamesField (client : HashClient) (elements : Dict Fields) (operation : Value) (field : String) :
    Prop :=
  ∃ id, Names elements operation id ∧ field ∈ client.fields id

/-- The mutation leaves every element it does not name. -/
def ChangesNamedOnly (client : HashClient) (driver : Driver) (cfg : Config)
    (writeMode : BoardSyncWriteMode) (now : Nat) (mutation : Value) (board : BoardStore)
    (db : Postgres) : Prop :=
  ∀ field, ¬ NamesField client board.elements (member mutation "operation") field →
    (processMutation client.toClient driver cfg writeMode now mutation board
      db).2.1.elements.lookup field = board.elements.lookup field

/-! ### The condition -/

/-- The elements an operation brings, new or merged with what the context holds. -/
def payloads (context : ElementMap) (operation : Value) : List Fields :=
  match mutationType? (member operation "type") with
  | some .createElement => [spread (member operation "data")]
  | some .updateElement =>
    toUpsertFromCache context (member operation "elementId")
      (patchElement (member operation "fields"))
  | some .moveElements => (items (member operation "moves")).flatMap fun move =>
    toUpsertFromCache context (member move "elementId") fun existing =>
      setMember (setMember existing "x" (member move "x")) "y" (member move "y")
  | some .updateElements => (items (member operation "updates")).flatMap fun update =>
    toUpsertFromCache context (member update "elementId") (patchElement (member update "fields"))
  | some .reorderElement =>
    toUpsertFromCache context (member operation "elementId") fun existing =>
      setMember existing "zIndex" (member operation "zIndex")
  | some .reconcileMonthRange => (items (member operation "upserts")).map spread
  | _ => []

/-- The ids an operation deletes, before the cascade. -/
def requestedDeletes (operation : Value) : List Value :=
  match mutationType? (member operation "type") with
  | some .deleteElements => items (member operation "elementIds")
  | some .reconcileMonthRange => items (member operation "deletes")
  | _ => []

/-- Nothing turns the mutation away: it is neither transient nor seen, no lock rule and no
    validation stops it, and no step on the way throws. -/
structure GoesThrough (client : Client) (enableTargetedReads : Bool) (mutation : Value)
    (board : BoardStore) (context : ElementMap) : Prop where
  reads : createCachedBoardContext client enableTargetedReads board.elements [mutation] =
    .ok context
  lasting : isTransient (member mutation "operation") = .ok false
  unseen : client.text (member mutation "mutationId") ∉ board.seen
  unblocked : isMutationBlockedByLock (member mutation "operation") context = .ok false
  valid : mutationType? (member (member mutation "operation") "type") = some .reconcileMonthRange →
    validateReconcileMonthRange (member mutation "operation") context = .ok none
  merges : ∃ changeSet, toChangeSet context (member mutation "operation") = .ok changeSet

/-- The pairs that HSET is given for a list of upserts. -/
def pairsOf (client : HashClient) (now : Nat) (upserts : List Fields) : List (String × Fields) :=
  upserts.flatMap fun payload =>
    client.sets (payload.lookup "id") (payload.insert "updatedAt" (.num now))

/-- Where the last payload of an id lands, the element is named, or is the same already. -/
def LandsOnNamed (client : HashClient) (now : Nat) (elements : Dict Fields) (context : ElementMap)
    (operation : Value) : Prop :=
  ∀ field, ¬ NamesField client elements operation field →
    ∀ element, (pairsOf client now (normalizeUpserts (payloads context operation))).reverse.lookup
        field = some element →
      elements.lookup field = some element

/-- The board with the payloads of the mutation written to it. -/
def merged (client : Client) (now : Nat) (mutation : Value) (context : ElementMap)
    (board : BoardStore) : BoardStore :=
  let claimed := { board with seen := client.text (member mutation "mutationId") :: board.seen }
  match persistedChange now board.elements ⟨payloads context (member mutation "operation"),
      requestedDeletes (member mutation "operation")⟩ with
  | some change => applyChange client claimed change
  | none => claimed

/-- The write-through of such a board evicts its elements: the board has no row, or Postgres refuses
    the flush with an error that is taken for an invalid id. -/
def Evicts (driver : Driver) (cfg : Config) (writeMode : BoardSyncWriteMode) (boardId : String)
    (board : BoardStore) (db : Postgres) : Prop :=
  writeMode = .solo ∧ Flushes driver cfg boardId board db ∧
    scanFinds boardId (boardElementsKey boardId) = true

/-! ### The change set -/

section changes
variable {context : ElementMap} {operation : Value}

theorem moveUpserts_eq : ∀ {moves : List Value} {upserts : List Fields},
    moveUpserts context moves = .ok upserts →
      upserts = moves.flatMap fun move =>
        toUpsertFromCache context (member move "elementId") fun existing =>
          setMember (setMember existing "x" (member move "x")) "y" (member move "y") := by
  intro moves
  induction moves with
  | nil =>
    intro upserts h
    exact (Except.ok.inj h).symm
  | cons move moves ih =>
    intro upserts h
    obtain ⟨elementId, hid, h⟩ := bind_eq_ok.mp h
    obtain ⟨x, hx, h⟩ := bind_eq_ok.mp h
    obtain ⟨y, hy, h⟩ := bind_eq_ok.mp h
    obtain ⟨rest, hrest, h⟩ := bind_eq_ok.mp h
    obtain rfl := Except.ok.inj h
    rw [List.flatMap_cons, ih hrest, member_of_prop (by decide) hid, member_of_prop (by decide) hx,
      member_of_prop (by decide) hy]

theorem updateUpserts_eq : ∀ {updates : List Value} {upserts : List Fields},
    updateUpserts context updates = .ok upserts →
      upserts = updates.flatMap fun update =>
        toUpsertFromCache context (member update "elementId")
          (patchElement (member update "fields")) := by
  intro updates
  induction updates with
  | nil =>
    intro upserts h
    exact (Except.ok.inj h).symm
  | cons update updates ih =>
    intro upserts h
    obtain ⟨elementId, hid, h⟩ := bind_eq_ok.mp h
    obtain ⟨fields, hfields, h⟩ := bind_eq_ok.mp h
    obtain ⟨rest, hrest, h⟩ := bind_eq_ok.mp h
    obtain rfl := Except.ok.inj h
    rw [List.flatMap_cons, ih hrest, member_of_prop (by decide) hid,
      member_of_prop (by decide) hfields]

theorem mapM_toElement_eq : ∀ {values : List Value} {upserts : List Fields},
    values.mapM toElement = .ok upserts → upserts = values.map spread := by
  intro values
  induction values with
  | nil =>
    intro upserts h
    rw [List.mapM_nil] at h
    exact (Except.ok.inj h).symm
  | cons value values ih =>
    intro upserts h
    rw [List.mapM_cons] at h
    obtain ⟨first, hfirst, h⟩ := bind_eq_ok.mp h
    obtain ⟨rest, hrest, h⟩ := bind_eq_ok.mp h
    obtain rfl := Except.ok.inj h
    obtain ⟨id, -, hspread⟩ := bind_eq_ok.mp hfirst
    rw [List.map_cons, ih hrest, Except.ok.inj hspread]

/-- The change set of an operation of a known type, when nothing throws. -/
theorem toChangeSet_eq (htype : mutationType? (member operation "type") ≠ none)
    {changeSet : ChangeSet} (h : toChangeSet context operation = .ok changeSet) :
    changeSet = ⟨payloads context operation, requestedDeletes operation⟩ := by
  obtain ⟨type, hread, h⟩ := bind_eq_ok.mp h
  have hread := mutationType?_of_type? hread
  unfold payloads requestedDeletes
  rw [hread] at htype ⊢
  cases type with
  | none => exact absurd rfl htype
  | some type =>
    cases type with
    | createElement =>
      obtain ⟨data, hdata, h⟩ := bind_eq_ok.mp h
      obtain ⟨element, helement, h⟩ := bind_eq_ok.mp h
      obtain ⟨id, -, hspread⟩ := bind_eq_ok.mp helement
      obtain rfl := Except.ok.inj h
      rw [member_of_prop (by decide) hdata, Except.ok.inj hspread]
    | updateElement =>
      obtain ⟨elementId, hid, h⟩ := bind_eq_ok.mp h
      obtain ⟨fields, hfields, h⟩ := bind_eq_ok.mp h
      obtain rfl := Except.ok.inj h
      rw [member_of_prop (by decide) hid, member_of_prop (by decide) hfields]
    | deleteElements =>
      obtain ⟨value, hvalue, h⟩ := bind_eq_ok.mp h
      obtain ⟨ids, hids, h⟩ := bind_eq_ok.mp h
      obtain rfl := Except.ok.inj h
      rw [member_of_prop (by decide) hvalue, items_of_iterate hids]
    | moveElements =>
      obtain ⟨value, hvalue, h⟩ := bind_eq_ok.mp h
      obtain ⟨moves, hmoves, h⟩ := bind_eq_ok.mp h
      obtain ⟨upserts, hupserts, h⟩ := bind_eq_ok.mp h
      obtain rfl := Except.ok.inj h
      rw [member_of_prop (by decide) hvalue, items_of_arrayItems hmoves, moveUpserts_eq hupserts]
    | updateElements =>
      obtain ⟨value, hvalue, h⟩ := bind_eq_ok.mp h
      obtain ⟨updates, hupdates, h⟩ := bind_eq_ok.mp h
      obtain ⟨upserts, hupserts, h⟩ := bind_eq_ok.mp h
      obtain rfl := Except.ok.inj h
      rw [member_of_prop (by decide) hvalue, items_of_arrayItems hupdates,
        updateUpserts_eq hupserts]
    | reorderElement =>
      obtain ⟨zIndex, hzIndex, h⟩ := bind_eq_ok.mp h
      obtain ⟨elementId, hid, h⟩ := bind_eq_ok.mp h
      obtain rfl := Except.ok.inj h
      rw [member_of_prop (by decide) hzIndex, member_of_prop (by decide) hid]
    | reconcileMonthRange =>
      obtain ⟨value, hvalue, h⟩ := bind_eq_ok.mp h
      obtain ⟨deletes, hdeletes, h⟩ := bind_eq_ok.mp h
      obtain ⟨listed, hlisted, h⟩ := bind_eq_ok.mp h
      obtain ⟨values, hvalues, h⟩ := bind_eq_ok.mp h
      obtain ⟨upserts, hupserts, h⟩ := bind_eq_ok.mp h
      obtain rfl := Except.ok.inj h
      rw [member_of_prop (by decide) hvalue, items_of_iterate hdeletes,
        member_of_prop (by decide) hlisted, items_of_iterate hvalues, mapM_toElement_eq hupserts]

end changes

/-! ### What is written -/

section written
variable {client : HashClient} {now : Nat} {elements : Dict Fields} {context : ElementMap}
  {operation : Value}

theorem hset_upserts (upserts : List Fields) (elements : Dict Fields) :
    (upserts.map fun element => element.insert "updatedAt" (.num now)).foldl
        (fun elements element => client.hset elements (element.lookup "id") element) elements =
      Dict.insertAll elements (pairsOf client now upserts) := by
  induction upserts generalizing elements with
  | nil => rfl
  | cons payload upserts ih =>
    have hid : (AList.insert "updatedAt" (.num now) payload).lookup "id" = payload.lookup "id" :=
      AList.lookup_insert_ne (by decide)
    rw [List.map_cons, List.foldl_cons, ih, client.hset_sets, hid]
    simp only [pairsOf, List.flatMap_cons, Dict.insertAll, List.foldl_append]

/-- The hash after a change set. -/
def changed (client : HashClient) (now : Nat) (elements : Dict Fields) (changeSet : ChangeSet) :
    Dict Fields :=
  match persistedChange now elements changeSet with
  | some change => writeChange client.toClient elements change
  | none => elements

/-- A field that is not deleted shows the last pair written to it. -/
theorem lookup_changed (changeSet : ChangeSet) (field : String) :
    (changed client now elements changeSet).lookup field =
      if field ∈ (deleteIdsOf elements changeSet.deletes).flatMap client.fields then none
      else ((pairsOf client now ((normalizeUpserts changeSet.upserts).filter fun element =>
        !hasValue (deleteIdsOf elements changeSet.deletes) (element.lookup "id"))).reverse.lookup
          field).or (elements.lookup field) := by
  unfold changed persistedChange
  dsimp only
  generalize (normalizeUpserts changeSet.upserts).filter _ = upserts
  generalize deleteIdsOf elements changeSet.deletes = deletes
  split
  · next change hchange =>
    split at hchange
    · cases hchange
    · obtain rfl := Option.some.inj hchange
      unfold writeChange
      dsimp only
      rw [hset_upserts, ← Dict.lookup_insertAll_reverse]
      split
      · -- HDEL is not sent for no ids
        next hempty =>
        rw [List.isEmpty_iff] at hempty
        simp [hempty]
      · rw [client.hdel_fields, Dict.lookup_eraseAll]
  · -- no change: nothing to upsert, nothing to delete
    next hnone =>
    split at hnone
    · next hempty =>
      simp only [Bool.and_eq_true, List.isEmpty_iff, List.map_eq_nil_iff] at hempty
      simp [hempty, pairsOf]
    · cases hnone

/-- Every id that is deleted is named. -/
theorem names_of_deleted {id : Value} (h : id ∈ deleteIdsOf elements (requestedDeletes operation)) :
    Names elements operation id := by
  have hcontained := contained_deleteIdsOf id h
  unfold requestedDeletes at h hcontained
  unfold Names
  cases htype : mutationType? (member operation "type") with
  | none =>
    rw [htype] at h
    cases h
  | some type =>
    rw [htype] at h hcontained
    cases type with
    | deleteElements => exact hcontained
    | reconcileMonthRange => exact .inr hcontained
    | _ => cases h

/-- The ids of the upserts that a validation accepts are strings. -/
theorem validateUpserts_ids {metaId : Value} : ∀ {upserts upsertIds : List Value} {count : Nat}
    {result : List Value × Nat}, validateUpserts metaId upserts upsertIds count = .ok (.ok result) →
      ∀ element ∈ upserts, ∃ s, member element "id" = some (.str s) := by
  intro upserts
  induction upserts with
  | nil =>
    intro upsertIds count result _ element helement
    cases helement
  | cons head rest ih =>
    intro upsertIds count result h element helement
    obtain ⟨id, hid, h⟩ := bind_eq_ok.mp h
    split at h
    · cases h
    next hstring =>
    -- each of the two branches left goes on with the rest
    have hrest : ∃ upsertIds count,
        validateUpserts metaId rest upsertIds count = .ok (.ok result) := by
      repeat' split at h
      all_goals first
        | cases h
        | exact ⟨_, _, h⟩
    obtain ⟨upsertIds', count', hrest⟩ := hrest
    rcases List.mem_cons.mp helement with rfl | helement
    · rw [member_of_prop (by decide) hid]
      exact asString_isSome (Option.isSome_iff_ne_none.mpr (by simpa using hstring))
    · exact ih hrest element helement

theorem ids_of_valid (h : validateReconcileMonthRange operation context = .ok none) :
    ∀ element ∈ items (member operation "upserts"), ∃ s, member element "id" = some (.str s) := by
  obtain ⟨metaId, -, h⟩ := bind_eq_ok.mp h
  split at h
  · cases h
  obtain ⟨upserts, hupserts, h⟩ := bind_eq_ok.mp h
  obtain ⟨length, -, h⟩ := bind_eq_ok.mp h
  split at h
  · cases h
  obtain ⟨values, hvalues, h⟩ := bind_eq_ok.mp h
  obtain ⟨verdict, hverdict, h⟩ := bind_eq_ok.mp h
  rw [member_of_prop (by decide) hupserts, items_of_iterate hvalues]
  cases verdict with
  | error message => cases h
  | ok result => exact validateUpserts_ids hverdict

end written

/-! ### An empty change -/

section empty
variable {elements : Dict Fields} {changeSet : ChangeSet}

theorem foldl_ne_nil {α β : Type} {step : List α → β → List α} (hstep : ∀ acc b, step acc b ≠ []) :
    ∀ {values : List β}, values ≠ [] → ∀ acc, values.foldl step acc ≠ [] := by
  intro values hvalues
  induction values with
  | nil => exact absurd rfl hvalues
  | cons b values ih =>
    intro acc
    cases values with
    | nil => exact hstep acc b
    | cons c values => exact ih (List.cons_ne_nil c values) (step acc b)

theorem mapSet_ne_nil (map : ElementMap) (id : Value) (element : Fields) :
    mapSet map id element ≠ [] := by
  unfold mapSet
  split
  · next hany =>
    intro hnil
    rw [List.map_eq_nil_iff.mp hnil] at hany
    cases hany
  · simp

theorem normalizeUpserts_eq_nil {upserts : List Fields} (h : normalizeUpserts upserts = []) :
    upserts = [] := by
  unfold normalizeUpserts at h
  rw [List.map_eq_nil_iff] at h
  by_contra hne
  exact foldl_ne_nil (fun _ _ => mapSet_ne_nil _ _ _) hne [] h

theorem cascadeLoop_ne_nil {allElements : List Fields} (n : Nat) {pending deletes : List Value}
    (h : deletes ≠ []) : cascadeLoop allElements n pending deletes ≠ [] := by
  induction n generalizing pending deletes with
  | zero => exact h
  | succ n ih =>
    cases pending with
    | nil => exact h
    | cons currentId pending =>
      refine ih ?_
      refine List.foldlRecOn (motive := fun acc : List Value × List Value => acc.1 ≠ []) _ _ h ?_
      intro acc hacc childId _
      split
      · exact hacc
      · simp

theorem deleteIdsOf_eq_nil {deletes : List Value} (h : deleteIdsOf elements deletes = []) :
    deletes = [] := by
  unfold deleteIdsOf at h
  split at h
  · next hempty => exact List.isEmpty_iff.mp hempty
  · next hne =>
    have hset : toValueSet deletes ≠ [] := by
      refine foldl_ne_nil (fun set v => ?_) (fun hnil => hne (List.isEmpty_iff.mpr hnil)) []
      split
      · next hhas =>
        rintro rfl
        cases hhas
      · simp
    exact absurd h (cascadeLoop_ne_nil _ hset)

/-- A change set asks for nothing exactly when it lists nothing. -/
theorem persistedChange_eq_none_iff {now : Nat} :
    persistedChange now elements changeSet = none ↔ changeSet.upserts = [] ∧
      changeSet.deletes = [] := by
  unfold persistedChange
  dsimp only
  split
  · next hempty =>
    simp only [Bool.and_eq_true, List.isEmpty_iff, List.map_eq_nil_iff] at hempty
    obtain ⟨hupserts, hdeleted⟩ := hempty
    rw [hdeleted] at hupserts
    have hupserts : normalizeUpserts changeSet.upserts = [] := by simpa [hasValue] using hupserts
    exact iff_of_true rfl ⟨normalizeUpserts_eq_nil hupserts, deleteIdsOf_eq_nil hdeleted⟩
  · next hne =>
    refine iff_of_false nofun ?_
    rintro ⟨hupserts, hdeletes⟩
    apply hne
    rw [hupserts, hdeletes]
    rfl

end empty

/-! ### One mutation -/

section mutation
variable {client : HashClient} {driver : Driver} {cfg : Config} {writeMode : BoardSyncWriteMode}
  {now : Nat} {mutation : Value} {board : BoardStore} {db : Postgres}

/-- An operation that `isMutation` accepts has one of the seven types. -/
theorem type_of_isMutation (h : isMutation mutation = true) :
    mutationType? (member (member mutation "operation") "type") ≠ none := by
  intro hnone
  unfold isMutation at h
  simp only [hnone] at h
  repeat' split at h
  all_goals cases h

/-- The change of a claimed mutation, when nothing stops it. -/
theorem claimedChange_eq_some {context : ElementMap} {elements : Dict Fields} {operation : Value}
    {change : ChangeSet} :
    claimedChange now operation context elements = .ok (some change) ↔
      isMutationBlockedByLock operation context = .ok false ∧
        (mutationType? (member operation "type") = some .reconcileMonthRange →
          validateReconcileMonthRange operation context = .ok none) ∧
        ∃ changeSet, toChangeSet context operation = .ok changeSet ∧
          persistedChange now elements changeSet = some change := by
  constructor
  · intro h
    obtain ⟨blocked, hblocked, h⟩ := bind_eq_ok.mp h
    cases blocked with
    | true => cases h
    | false =>
      obtain ⟨type, htype, h⟩ := bind_eq_ok.mp h
      rw [mutationType?_of_type? htype]
      refine ⟨hblocked, ?_⟩
      split at h
      · next hreconcile =>
        obtain ⟨message, hmessage, h⟩ := bind_eq_ok.mp h
        cases message with
        | some message => cases h
        | none =>
          obtain ⟨changeSet, hchangeSet, h⟩ := bind_eq_ok.mp h
          exact ⟨fun _ => hmessage, changeSet, hchangeSet, Except.ok.inj h⟩
      · next hother =>
        obtain ⟨changeSet, hchangeSet, h⟩ := bind_eq_ok.mp h
        exact ⟨fun hreconcile => absurd hreconcile hother, changeSet, hchangeSet, Except.ok.inj h⟩
  · rintro ⟨hblocked, hvalid, changeSet, hchangeSet, hchange⟩
    obtain ⟨type, htype, -⟩ := bind_eq_ok.mp hchangeSet
    rw [mutationType?_of_type? htype] at hvalid
    refine bind_eq_ok.mpr ⟨false, hblocked, ?_⟩
    refine bind_eq_ok.mpr ⟨type, htype, ?_⟩
    have hlast : (do return persistedChange now elements (← toChangeSet context operation) :
        Except TypeError (Option ChangeSet)) = .ok (some change) :=
      bind_eq_ok.mpr ⟨changeSet, hchangeSet, congrArg Except.ok hchange⟩
    split
    · next hreconcile =>
      exact bind_eq_ok.mpr ⟨none, hvalid hreconcile, hlast⟩
    · exact hlast

/-- A claimed change is written; otherwise the elements stay. -/
theorem processMutationWithContext_cases (client : Client) (now : Nat) (mutation : Value)
    (context : ElementMap) (board : BoardStore) :
    (∃ change, isTransient (member mutation "operation") = .ok false ∧
      client.text (member mutation "mutationId") ∉ board.seen ∧
      claimedChange now (member mutation "operation") context board.elements = .ok (some change) ∧
      processMutationWithContext client now mutation context board = (.ok (some change),
        applyChange client
          { board with seen := client.text (member mutation "mutationId") :: board.seen } change)) ∨
    (∀ change,
        (processMutationWithContext client now mutation context board).1 ≠ .ok (some change)) ∧
      (processMutationWithContext client now mutation context board).2.elements =
        board.elements := by
  unfold processMutationWithContext
  dsimp only
  cases htransient : isTransient (member mutation "operation") with
  | error e => exact .inr ⟨fun _ => nofun, rfl⟩
  | ok transient =>
    cases transient with
    | true => exact .inr ⟨fun _ => nofun, rfl⟩
    | false =>
      dsimp only
      split
      · exact .inr ⟨fun _ => nofun, rfl⟩
      · next hunseen =>
        cases hclaimed : claimedChange now (member mutation "operation") context board.elements with
        | error e => exact .inr ⟨fun _ => nofun, rfl⟩
        | ok change? =>
          cases change? with
          | none => exact .inr ⟨fun _ => nofun, rfl⟩
          | some change => exact .inl ⟨change, rfl, hunseen, rfl, rfl⟩

/-- The board that a change leaves is the one the write-through leaves. -/
theorem processMutation_board {context : ElementMap} {changed : BoardStore} {change : ChangeSet}
    (hcontext : createCachedBoardContext client.toClient cfg.enableTargetedMutationReads
      board.elements [mutation] = .ok context)
    (hprocessed : processMutationWithContext client.toClient now mutation context board =
      (.ok (some change), changed)) :
    (processMutation client.toClient driver cfg writeMode now mutation board db).2.1 =
      (writeThrough driver cfg writeMode (boardIdOf client.toClient mutation) changed db).2.1 := by
  unfold processMutation
  rw [hcontext]
  dsimp only
  rw [hprocessed]
  dsimp only
  rcases writeThrough driver cfg writeMode (boardIdOf client.toClient mutation) changed db with
    ⟨error, board', db'⟩
  cases error with
  | some e => rfl
  | none => rfl

variable (client driver cfg writeMode now board db) in
/-- Either the mutation goes through and its change is written, or nothing is. -/
theorem processMutation_elements
    (htype : mutationType? (member (member mutation "operation") "type") ≠ none) :
    let after := (processMutation client.toClient driver cfg writeMode now mutation board
      db).2.1.elements
    (∃ context, GoesThrough client.toClient cfg.enableTargetedMutationReads mutation board context ∧
      ∃ change, persistedChange now board.elements ⟨payloads context (member mutation "operation"),
          requestedDeletes (member mutation "operation")⟩ = some change ∧
        after = (writeThrough driver cfg writeMode (boardIdOf client.toClient mutation)
          (merged client.toClient now mutation context board) db).2.1.elements) ∨
    (∀ context, GoesThrough client.toClient cfg.enableTargetedMutationReads mutation board context →
      persistedChange now board.elements ⟨payloads context (member mutation "operation"),
        requestedDeletes (member mutation "operation")⟩ = none) ∧ after = board.elements := by
  intro after
  cases hcontext : createCachedBoardContext client.toClient cfg.enableTargetedMutationReads
      board.elements [mutation] with
  | error e =>
    refine .inr ⟨fun context hgoes => ?_, by simp [after, processMutation, hcontext]⟩
    rw [hgoes.reads] at hcontext
    cases hcontext
  | ok context =>
    rcases processMutationWithContext_cases client.toClient now mutation context board with
      ⟨change, htransient, hunseen, hclaimed, hprocessed⟩ | ⟨hnone, hkept⟩
    · obtain ⟨hblocked, hvalid, changeSet, hchangeSet, hpersisted⟩ :=
          claimedChange_eq_some.mp hclaimed
      rw [toChangeSet_eq htype hchangeSet] at hpersisted
      refine .inl
        ⟨context, ⟨hcontext, htransient, hunseen, hblocked, hvalid, changeSet, hchangeSet⟩,
        change, hpersisted, ?_⟩
      simp only [after, processMutation_board hcontext hprocessed, merged, hpersisted]
    · refine .inr ⟨fun context' hgoes => ?_, ?_⟩
      · obtain rfl : context' = context := Except.ok.inj (hgoes.reads.symm.trans hcontext)
        by_contra hsome
        obtain ⟨change, hpersisted⟩ := Option.ne_none_iff_exists'.mp hsome
        obtain ⟨changeSet, hchangeSet⟩ := hgoes.merges
        -- a mutation that goes through has its change claimed
        have hclaimed : claimedChange now (member mutation "operation") context' board.elements =
            .ok (some change) := by
          refine claimedChange_eq_some.mpr ⟨hgoes.unblocked, hgoes.valid, changeSet, hchangeSet, ?_⟩
          rw [toChangeSet_eq htype hchangeSet]
          exact hpersisted
        refine hnone change ?_
        simp [processMutationWithContext, hgoes.lasting, hgoes.unseen, hclaimed]
      · simp only [after, processMutation, hcontext]
        rcases hprocessed :
            processMutationWithContext client.toClient now mutation context board with
          ⟨result, board'⟩
        rw [hprocessed] at hnone hkept
        cases result with
        | error e => exact hkept
        | ok change? =>
          cases change? with
          | none => exact hkept
          | some change => exact absurd rfl (hnone change)

/-- Every upsert of a valid reconcile is named. -/
theorem lookup_pairsOf_reconcile {context : ElementMap} {operation : Value} {elements : Dict Fields}
    (hreconcile : mutationType? (member operation "type") = some .reconcileMonthRange)
    (hvalid : validateReconcileMonthRange operation context = .ok none) {upserts : List Fields}
    (hupserts : ∀ payload ∈ upserts, payload ∈ payloads context operation) {field : String}
    (hfield : ¬ NamesField client elements operation field) :
    (pairsOf client now upserts).reverse.lookup field = none := by
  rw [List.lookup_eq_none_iff]
  intro pair hpair
  obtain ⟨payload, hpayload, hpair⟩ := List.mem_flatMap.mp (List.mem_reverse.mp hpair)
  have hlisted := hupserts payload hpayload
  simp only [payloads, hreconcile, List.mem_map] at hlisted
  obtain ⟨element, helement, rfl⟩ := hlisted
  obtain ⟨id, hid⟩ := ids_of_valid hvalid element helement
  have hspread : (spread element).lookup "id" = some (.str id) := hid
  rw [hspread, client.sets_str, List.mem_singleton] at hpair
  rw [hpair, bne_iff_ne]
  intro heq
  refine hfield ⟨some (.str id), ?_, ?_⟩
  · unfold Names
    rw [hreconcile]
    exact .inl ⟨element, helement, hid.symm⟩
  · rw [client.fields_str, heq]
    exact List.mem_singleton.mpr rfl

/-- No operation but a reconcile both upserts and deletes. -/
theorem payloads_eq_nil_of_deletes {context : ElementMap} {operation : Value}
    (hreconcile : mutationType? (member operation "type") ≠ some .reconcileMonthRange)
    (hdeletes : requestedDeletes operation ≠ []) : payloads context operation = [] := by
  unfold requestedDeletes at hdeletes
  unfold payloads
  cases htype : mutationType? (member operation "type") with
  | none => rfl
  | some type =>
    rw [htype] at hdeletes hreconcile
    cases type with
    | deleteElements => rfl
    | reconcileMonthRange => exact absurd rfl hreconcile
    | _ => exact absurd rfl hdeletes

/-- What a change that is written leaves under the fields that are not named. -/
theorem changed_unnamed_iff {context : ElementMap} {operation : Value} {elements : Dict Fields}
    (hvalid : mutationType? (member operation "type") = some .reconcileMonthRange →
      validateReconcileMonthRange operation context = .ok none) :
    (∀ field, ¬ NamesField client elements operation field →
      (changed client now elements
        ⟨payloads context operation, requestedDeletes operation⟩).lookup field =
          elements.lookup field) ↔ LandsOnNamed client now elements context operation := by
  have hkept : ∀ field, ¬ NamesField client elements operation field →
      field ∉ (deleteIdsOf elements (requestedDeletes operation)).flatMap client.fields := by
    intro field hfield hmem
    obtain ⟨id, hid, hmem⟩ := List.mem_flatMap.mp hmem
    exact hfield ⟨id, names_of_deleted hid, hmem⟩
  by_cases hreconcile : mutationType? (member operation "type") = some .reconcileMonthRange
  · -- its upserts are named, cascaded away or not
    have hnone : ∀ upserts : List Fields,
        (∀ payload ∈ upserts, payload ∈ payloads context operation) →
        ∀ field, ¬ NamesField client elements operation field →
          (pairsOf client now upserts).reverse.lookup field = none :=
      fun _ hupserts _ => lookup_pairsOf_reconcile hreconcile (hvalid hreconcile) hupserts
    refine iff_of_true (fun field hfield => ?_) fun field hfield element helement => ?_
    · rw [lookup_changed, if_neg (hkept field hfield), hnone _ ?_ field hfield, Option.none_or]
      exact fun payload hpayload => mem_normalizeUpserts (List.mem_filter.mp hpayload).1
    · rw [hnone _ (fun payload => mem_normalizeUpserts) field hfield] at helement
      cases helement
  · have hfilter : (normalizeUpserts (payloads context operation)).filter (fun element =>
          !hasValue (deleteIdsOf elements (requestedDeletes operation)) (element.lookup "id")) =
        normalizeUpserts (payloads context operation) := by
      by_cases hdeletes : requestedDeletes operation = []
      · simp [hdeletes, deleteIdsOf, hasValue]
      · rw [payloads_eq_nil_of_deletes hreconcile hdeletes]
        rfl
    -- so the last pair written to the field decides, and only one that differs is a change
    refine forall₂_congr fun field hfield => ?_
    rw [lookup_changed, if_neg (hkept field hfield), hfilter]
    cases hlast : (pairsOf client now
        (normalizeUpserts (payloads context operation))).reverse.lookup field with
    | none => simp
    | some element =>
      rw [Option.some_or]
      constructor
      · intro heq element' helement'
        rw [← heq, helement']
      · intro hsame
        exact (hsame element rfl).symm

theorem elements_writeThrough_of_evicts {boardId : String}
    (hevicts : Evicts driver cfg writeMode boardId board db) :
    (writeThrough driver cfg writeMode boardId board db).2.1.elements = ∅ := by
  obtain ⟨hsolo, hflushes, hfound⟩ := hevicts
  rw [writeThrough, if_pos hsolo, persistBoard_of_flushes driver hflushes]
  simp [evict, hfound]

theorem elements_writeThrough_of_not_evicts {boardId : String}
    (hevicts : ¬ Evicts driver cfg writeMode boardId board db) :
    (writeThrough driver cfg writeMode boardId board db).2.1.elements = board.elements := by
  unfold writeThrough
  split
  · next hsolo =>
    by_cases hflushes : Flushes driver cfg boardId board db
    · have hhidden : scanFinds boardId (boardElementsKey boardId) = false := by
        rw [← Bool.not_eq_true]
        exact fun hfound => hevicts ⟨hsolo, hflushes, hfound⟩
      rw [persistBoard_of_flushes driver hflushes]
      simp [evict, hhidden]
    · exact elements_persistBoard driver hflushes
  · rfl

/-- A mutation that REST accepts changes only the elements it names exactly when it does not go
    through, or the write-through evicts a board with no other elements, or every payload lands on
    an element that is named. -/
theorem changesNamedOnly_iff (h : isMutation mutation = true) :
    ChangesNamedOnly client driver cfg writeMode now mutation board db ↔
      ∀ context,
        GoesThrough client.toClient cfg.enableTargetedMutationReads mutation board context →
        payloads context (member mutation "operation") ≠ [] ∨
            requestedDeletes (member mutation "operation") ≠ [] →
          (Evicts driver cfg writeMode (boardIdOf client.toClient mutation)
              (merged client.toClient now mutation context board) db →
            ∀ field, ¬ NamesField client board.elements (member mutation "operation") field →
              field ∉ board.elements) ∧
          (¬ Evicts driver cfg writeMode (boardIdOf client.toClient mutation)
              (merged client.toClient now mutation context board) db →
            LandsOnNamed client now board.elements context (member mutation "operation")) := by
  have htype := type_of_isMutation h
  have hasked : ∀ context, persistedChange now board.elements
        ⟨payloads context (member mutation "operation"),
          requestedDeletes (member mutation "operation")⟩ ≠
          none ↔ payloads context (member mutation "operation") ≠ [] ∨
            requestedDeletes (member mutation "operation") ≠ [] := by
    intro context
    rw [Ne, persistedChange_eq_none_iff, not_and_or]
  unfold ChangesNamedOnly
  rcases processMutation_elements client driver cfg writeMode now board db htype with
    ⟨context, hgoes, change, hchange, hafter⟩ | ⟨hnone, hafter⟩
  · -- the mutation goes through, with this context only
    have hwritten : changed client now board.elements
        ⟨payloads context (member mutation "operation"),
          requestedDeletes (member mutation "operation")⟩ =
        (merged client.toClient now mutation context board).elements := by
      simp only [changed, merged, hchange, applyChange]
    have honly : ∀ {P : ElementMap → Prop}, (∀ context',
        GoesThrough client.toClient cfg.enableTargetedMutationReads mutation board context' →
          payloads context' (member mutation "operation") ≠ [] ∨
            requestedDeletes (member mutation "operation") ≠ [] → P context') ↔ P context := by
      intro P
      constructor
      · intro hall
        refine hall context hgoes ((hasked context).mp ?_)
        rw [hchange]
        exact Option.some_ne_none change
      · intro hcontext context' hgoes' _
        obtain rfl : context' = context := Except.ok.inj (hgoes'.reads.symm.trans hgoes.reads)
        exact hcontext
    rw [hafter, honly]
    by_cases hevicts : Evicts driver cfg writeMode (boardIdOf client.toClient mutation)
        (merged client.toClient now mutation context board) db
    · rw [elements_writeThrough_of_evicts hevicts]
      simp only [AList.lookup_empty, hevicts, not_true_eq_false, forall_const, false_implies,
        and_true]
      exact forall₂_congr fun field _ => eq_comm.trans AList.lookup_eq_none
    · rw [elements_writeThrough_of_not_evicts hevicts, ← hwritten,
        changed_unnamed_iff hgoes.valid]
      simp [hevicts]
  · refine iff_of_true (fun field _ => by rw [hafter]) fun context hgoes hne => ?_
    exact absurd (hnone context hgoes) ((hasked context).mpr hne)

end mutation

/-! ### Two notes -/

/-- `stringClient`, its hash commands field by field. -/
def stringHashClient : HashClient :=
  { stringClient with
    sets := fun id element => [((asString id).getD "", element)]
    fields := fun id => [(asString id).getD ""]
    sets_str := fun _ _ => rfl
    fields_str := fun _ => rfl
    hset_sets := fun _ _ _ => rfl
    hdel_fields := fun elements ids => by
      rw [← List.map_eq_flatMap]
      rfl }

def twoNotes : BoardStore where
  elements := Dict.insertAll ∅
    [("note", Dict.insertAll ∅ [("id", .str "note"), ("text", .str "a")]),
     ("other", Dict.insertAll ∅ [("id", .str "other"), ("text", .str "b")])]
  seen := []

/-- A creation whose data has the id it names. -/
theorem changesNamedOnly_create :
    ChangesNamedOnly stringHashClient stringDriver {} .collab 0 (some (createNote [])) twoNotes
      ⟨∅, ∅⟩ := by
  refine (changesNamedOnly_iff rfl).mpr fun context _ _ => ⟨fun hevicts => ?_, fun _ => ?_⟩
  · cases hevicts.1
  · intro field hfield element hlast
    have hne : field ≠ "note" := by
      rintro rfl
      exact hfield ⟨some (.str "note"), rfl, by decide⟩
    have hnone : (pairsOf stringHashClient 0 (normalizeUpserts
        (payloads context (member (some (createNote [])) "operation")))).reverse.lookup field =
          none := by
      rw [List.lookup_eq_none_iff]
      intro pair hpair
      rw [List.mem_singleton.mp (List.mem_reverse.mp hpair), bne_iff_ne]
      exact hne
    rw [hnone] at hlast
    cases hlast

/-- A creation whose data has the id of another note, and a patch that carries it, overwrite that
    note. -/
theorem create_overwrites_another :
    let create := mutationOf "create" [("type", .str "CREATE_ELEMENT"), ("elementId", .str "new"),
      ("data", .obj [("id", .str "other")])]
    let update := updateNote [("id", .str "other")]
    isMutation (some create) = true ∧
      ¬ ChangesNamedOnly stringHashClient stringDriver {} .collab 0 (some create) twoNotes ⟨∅, ∅⟩ ∧
    isMutation (some update) = true ∧
      ¬ ChangesNamedOnly stringHashClient stringDriver {} .collab 0 (some update) twoNotes
        ⟨∅, ∅⟩ := by
  refine ⟨rfl, ?_, rfl, ?_⟩
  · intro h
    have hunnamed : ¬ NamesField stringHashClient twoNotes.elements
        (member (some (mutationOf "create" [("type", .str "CREATE_ELEMENT"),
          ("elementId", .str "new"), ("data", .obj [("id", .str "other")])])) "operation")
        "other" := by
      rintro ⟨id, hid, hmem⟩
      obtain rfl : id = some (.str "new") := hid
      revert hmem
      decide
    have hsame := congrArg (·.map fun element => asString (element.lookup "text"))
      (h "other" hunnamed)
    revert hsame
    decide
  · intro h
    have hunnamed : ¬ NamesField stringHashClient twoNotes.elements
        (member (some (updateNote [("id", .str "other")])) "operation") "other" := by
      rintro ⟨id, hid, hmem⟩
      obtain rfl : id = some (.str "note") := hid
      revert hmem
      decide
    have hsame := congrArg (·.map fun element => asString (element.lookup "text"))
      (h "other" hunnamed)
    revert hsame
    decide

end Notebortt.Payloads
