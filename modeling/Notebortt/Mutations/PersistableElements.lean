import Mathlib.Data.Finset.Card
import Notebortt.Lib.Transition
import Notebortt.Mutations.PayloadPersistence

/-! # Elements that can be persisted

    A row of `elements` has an id and a type from a list, both taken from the
    element itself, and Postgres refuses some of what JSON can spell. The entry
    points check neither: a created element may have anything there, and a patch
    may overwrite both. What is stored and cannot be written stays, and with it
    every flush of the board fails. -/

open Transition

namespace Notebortt.Payloads

/-! ### Rows that Postgres takes -/

/-- The type is one of the `valid_element_type` check. -/
def isValidType (type : Value) : Bool := (asString type).any VALID_ELEMENT_TYPES.contains

/-- The id is a string, and the type an allowed one. -/
def RowValues.allowed (row : RowValues) : Bool := (asString row.id).isSome && isValidType row.type

/-- Every element of every board gives an allowed row. -/
def AllPersistable (boards : String → BoardStore) : Prop :=
  ∀ boardId field element, (boards boardId).elements.lookup field = some element →
    (toElementRow boardId element).allowed = true

/-- No other board has a row with the id of one of the elements. -/
def OwnIds (boardId : String) (board : BoardStore) (db : Postgres) : Prop :=
  ∀ id ∈ board.elements, ∀ row, db.elements.lookup id = some row → row.boardId = pgUuid boardId

/-- A flush of the board commits. A full snapshot inserts its rows without a conflict clause, so it
    needs ids of its own. -/
def Commits (driver : Driver) (cfg : Config) (boardId : String) (board : BoardStore)
    (db : Postgres) : Prop :=
  IsExistingBoard db boardId →
    (cfg.enableIncrementalPersistence = false → OwnIds boardId board db) →
    ∃ db', flushTransaction driver cfg boardId board db = .ok db'

/-! ### The system -/

structure State where
  boards : String → BoardStore
  db : Postgres

inductive Label where
  | request (r : Request) (now : Nat)
  /-- The write-through of a solo board, or a flush of the worker. -/
  | persistBoard (boardId : String)

/-- The ids that a flush of the board may send. -/
def BoardStore.ids (board : BoardStore) : Finset String :=
  board.elements.keys.toFinset ∪ board.dirtyElementIds.keys.toFinset ∪
    board.deletedElementIds.keys.toFinset

/-- The driver takes one INSERT of so many rows. -/
def MAX_FLUSHED_ROWS : Nat := 13106

/-- The element is stored under its id, which is one of `ids`, and Postgres takes its row. -/
structure Fits (ids : Finset String) (element : Fields) : Prop where
  id : ∃ id ∈ ids, element.lookup "id" = some (.str id)
  kind : isValidType (element.lookup "kind") = true
  storable : element.storable = true

/-- The elements are stored under their ids, and Postgres takes whatever a flush sends. -/
structure BoardFits (ids : Finset String) (board : BoardStore) : Prop where
  stored : ∀ field element, board.elements.lookup field = some element → Fits ids element
  keyed : ∀ field element, board.elements.lookup field = some element →
    element.lookup "id" = some (.str field)
  dirty : ∀ id ∈ board.dirtyElementIds, id ∈ ids ∧ storableText id = true
  deleted : ∀ id ∈ board.deletedElementIds, id ∈ ids ∧ storableText id = true

/-- So a flush takes each board, and the driver its rows. -/
def AllFit (boards : String → BoardStore) : Prop :=
  ∀ boardId, ∃ ids : Finset String, ids.card ≤ MAX_FLUSHED_ROWS ∧ BoardFits ids (boards boardId)

section system
variable (client : Client) (driver : Driver) (cfg : Config)

def step (s : State) : Label → Option State
  | .request r now => r.mutations?.map fun mutations =>
    { s with
      boards := processBatch client cfg.enableTargetedMutationReads now mutations s.boards }
  | .persistBoard boardId =>
    let persisted := persistBoard driver cfg boardId (s.boards boardId) s.db
    some ⟨Function.update s.boards boardId persisted.2.1, persisted.2.2⟩

/-- Any accepted requests, with flushes between them, from boards that can be persisted. -/
def system : System State Label where
  init := fun s => AllFit s.boards
  step := step client driver cfg

end system

/-! ### The condition -/

/-- The `id` and the `kind` of a new element, and all it spells. -/
def bringsRow (element : Value) : Bool :=
  (asString (member element "id")).isSome && isValidType (member element "kind") &&
    (spread element).storable

/-- A patch sets `id` to a string and `kind` to an allowed one, or leaves them. -/
def keepsRow (fields : Value) : Bool :=
  ((member fields "id").all fun id => (asString (some id)).isSome) &&
    ((member fields "kind").all fun kind => isValidType (some kind)) && (spread fields).storable

/-- A deleted id is a string that Postgres takes. -/
def isStorableId (id : Value) : Bool := (asString id).any storableText

def writesPersistable (operation : Value) : Bool :=
  match mutationType? (member operation "type") with
  | some .createElement => bringsRow (member operation "data")
  | some .updateElement => keepsRow (member operation "fields")
  | some .updateElements =>
    (items (member operation "updates")).all fun update => keepsRow (member update "fields")
  | some .deleteElements => (items (member operation "elementIds")).all isStorableId
  | some .moveElements => (items (member operation "moves")).all fun move =>
    (member move "x").all Json.storable && (member move "y").all Json.storable
  | some .reorderElement => (member operation "zIndex").all Json.storable
  -- an operation of another type is itself the change set, as a reconcile is
  | some .reconcileMonthRange | none =>
    (items (member operation "upserts")).all bringsRow &&
      (items (member operation "deletes")).all isStorableId

/-- The ids that a mutation brings. -/
def broughtIds (operation : Value) : List String :=
  [member (member operation "data") "id",
      member (member operation "fields") "id"].filterMap asString
    ++ (items (member operation "updates")).filterMap
      (fun update => asString (member (member update "fields") "id"))
    ++ (items (member operation "upserts")).filterMap
      (fun element => asString (member element "id"))
    ++ (items (member operation "elementIds")).filterMap asString
    ++ (items (member operation "deletes")).filterMap asString

/-- The ids of a board, once the mutations of a request have brought theirs. -/
def idsAfter (board : BoardStore) (mutations : List Value) : Finset String :=
  board.ids ∪ (mutations.flatMap fun mutation => broughtIds (member mutation "operation")).toFinset

/-- The step condition: every element and every patch of the request keeps the rows, and the boards
    stay small enough for one INSERT. -/
def WritesPersistable (client : Client) (s : State) : Label → Prop
  | .request r _ => ∀ mutations ∈ r.mutations?, ∀ mutation ∈ mutations,
    writesPersistable (member mutation "operation") = true ∧
      (idsAfter (s.boards (boardIdOf client mutation)) mutations).card ≤ MAX_FLUSHED_ROWS
  | .persistBoard _ => True

instance (client : Client) (s : State) : (l : Label) → Decidable (WritesPersistable client s l)
  | .request r _ => inferInstanceAs (Decidable (∀ mutations ∈ r.mutations?, ∀ mutation ∈ mutations,
      writesPersistable (member mutation "operation") = true ∧
        (idsAfter (s.boards (boardIdOf client mutation)) mutations).card ≤ MAX_FLUSHED_ROWS))
  | .persistBoard _ => .isTrue trivial

/-! ### Elements that fit -/

section fits
variable {ids : Finset String} {element element' : Fields}

/-- Fields that come from two storable ones are storable. -/
theorem storable_of_lookup {fields first second : Fields} (hfirst : first.storable = true)
    (hsecond : second.storable = true)
    (h : ∀ key value, fields.lookup key = some value →
      first.lookup key = some value ∨ second.lookup key = some value) : fields.storable = true := by
  rw [Fields.storable_iff] at hfirst hsecond ⊢
  intro key value hlookup
  rcases h key value hlookup with hlookup | hlookup
  · exact hfirst key value hlookup
  · exact hsecond key value hlookup

/-- An element with one field set to a storable value. -/
theorem Fits.setMember (h : Fits ids element) {key : String} (hid : key ≠ "id")
    (hkind : key ≠ "kind") (hkey : storableJsonText key = true) {v : Value}
    (hv : v.all Json.storable = true) : Fits ids (setMember element key v) := by
  refine ⟨?_, ?_, ?_⟩
  · rw [lookup_setMember_of_ne v hid.symm]
    exact h.id
  · rw [lookup_setMember_of_ne v hkind.symm]
    exact h.kind
  · rw [Fields.storable_iff]
    intro key' value hlookup
    rw [lookup_setMember] at hlookup
    split at hlookup
    · next heq =>
      subst heq
      rw [hlookup] at hv
      exact ⟨hkey, hv⟩
    · exact Fields.storable_iff.mp h.storable key' value hlookup

theorem Fits.patch (h : Fits ids element) {fields : Value} (hfields : keepsRow fields = true)
    (hids : ∀ id, asString (member fields "id") = some id → id ∈ ids) :
    Fits ids (patchElement fields element) := by
  simp only [keepsRow, Bool.and_eq_true] at hfields
  obtain ⟨⟨hid, hkind⟩, hstorable⟩ := hfields
  have hlookup : ∀ key, (patchElement fields element).lookup key =
      (member fields key).or (element.lookup key) := fun key => Dict.lookup_union _ _ _
  refine ⟨?_, ?_, ?_⟩
  · rw [hlookup]
    cases hmember : member fields "id" with
    | none => exact h.id
    | some id =>
      rw [hmember] at hid hids
      obtain ⟨s, hs⟩ := asString_isSome hid
      rw [hs] at hids
      exact ⟨s, hids s rfl, hs⟩
  · rw [hlookup]
    cases hmember : member fields "kind" with
    | none => exact h.kind
    | some kind =>
      rw [hmember] at hkind
      exact hkind
  · refine storable_of_lookup hstorable h.storable fun key value hvalue => ?_
    rw [hlookup] at hvalue
    cases hmember : member fields key with
    | none =>
      rw [hmember] at hvalue
      exact .inr hvalue
    | some value' =>
      rw [hmember] at hvalue
      exact .inl (hmember.trans hvalue)

theorem fits_of_toElement {value : Value} (helement : toElement value = .ok element)
    (h : bringsRow value = true) (hids : ∀ id, asString (member value "id") = some id → id ∈ ids) :
    Fits ids element := by
  obtain ⟨id, -, hspread⟩ := bind_eq_ok.mp helement
  obtain rfl := Except.ok.inj hspread
  simp only [bringsRow, Bool.and_eq_true] at h
  obtain ⟨⟨hid, hkind⟩, hstorable⟩ := h
  obtain ⟨s, hs⟩ := asString_isSome hid
  rw [hs] at hids
  exact ⟨⟨s, hids s rfl, hs⟩, hkind, hstorable⟩

end fits

/-! ### What is read -/

section read
variable {P : Fields → Prop} {client : Client} {elements : Dict Fields}

/-- Every element of the hash has `P`. -/
def Stored (P : Fields → Prop) (elements : Dict Fields) : Prop :=
  ∀ field element, elements.lookup field = some element → P element

theorem Stored.fetchByIds (h : Stored P elements) (enableTargetedReads : Bool) (ids : List Value) :
    AllElements P (fetchByIds client enableTargetedReads elements ids) := by
  unfold Payloads.fetchByIds
  split
  · refine List.foldlRecOn _ _ .nil ?_
    intro map hmap reply hreply
    cases hfound : reply.2 with
    | none => exact hmap
    | some element =>
      have hmem : some element ∈ client.hmget elements ids := by
        rw [← hfound]
        exact (List.of_mem_zip hreply).2
      obtain ⟨field, hlookup⟩ := client.hmget_mem hmem
      dsimp only
      split
      · exact hmap.set (h field element hlookup)
      · exact hmap
  · refine List.foldlRecOn _ _ .nil ?_
    intro map hmap id _
    cases hfound : client.hget elements id with
    | none => exact hmap
    | some element =>
      obtain ⟨field, hlookup⟩ := client.hget_mem hfound
      exact hmap.set (h field element hlookup)

theorem Stored.context (h : Stored P elements) {enableTargetedReads : Bool} {mutations : List Value}
    {context : ElementMap}
    (hcontext :
      createCachedBoardContext client enableTargetedReads elements mutations = .ok context) :
    AllElements P context := by
  obtain ⟨touched, -, hrest⟩ := bind_eq_ok.mp hcontext
  split at hrest
  · obtain rfl := Except.ok.inj hrest
    exact .nil
  obtain ⟨metaIds, -, hrest⟩ := bind_eq_ok.mp hrest
  dsimp only at hrest
  split at hrest
  · obtain rfl := Except.ok.inj hrest
    exact h.fetchByIds enableTargetedReads touched
  · obtain rfl := Except.ok.inj hrest
    refine List.foldlRecOn _ _ (h.fetchByIds enableTargetedReads touched) ?_
    intro map hmap entry hentry
    exact hmap.set (h.fetchByIds enableTargetedReads _ entry hentry)

end read

/-! ### What is written -/

section written
variable {ids : Finset String} {operation : Value} {context : ElementMap}

/-- A deleted id that Postgres takes. -/
def FitsId (ids : Finset String) (id : Value) : Prop :=
  ∃ s ∈ ids, id = some (.str s) ∧ storableText s = true

/-- Everything in a change set fits. -/
structure ChangeFits (ids : Finset String) (change : ChangeSet) : Prop where
  upserts : ∀ element ∈ change.upserts, Fits ids element
  deletes : ∀ id ∈ change.deletes, FitsId ids id

theorem storableText_of_storable {s : String} (h : (Json.str s).storable = true) :
    storableText s = true := by
  have hjson : storableJsonText s = true := by simpa [Json.storable, Json.texts] using h
  exact (Bool.and_eq_true_iff.mp hjson).1

/-- The id of an element that fits. -/
theorem Fits.fitsId {element : Fields} (h : Fits ids element) :
    FitsId ids (element.lookup "id") := by
  obtain ⟨s, hs, hid⟩ := h.id
  exact ⟨s, hs, hid, storableText_of_storable (Fields.storable_iff.mp h.storable "id" _ hid).2⟩

theorem fitsId_of_isStorableId {id : Value} (h : isStorableId id = true)
    (hids : ∀ s, asString id = some s → s ∈ ids) : FitsId ids id := by
  unfold isStorableId at h
  cases hid : asString id with
  | none =>
    rw [hid] at h
    cases h
  | some s =>
    obtain ⟨s', rfl⟩ := asString_isSome (Option.isSome_of_eq_some hid)
    obtain rfl := Option.some.inj hid
    exact ⟨s', hids s' rfl, rfl, h⟩

theorem mutationType?_of_type? {type : Option MutationType} (h : type? operation = .ok type) :
    mutationType? (member operation "type") = type := by
  obtain ⟨value, hvalue, htype⟩ := bind_eq_ok.mp h
  rw [member_of_prop (by decide) hvalue]
  exact Except.ok.inj htype

theorem mem_toUpsertFromCache {P : Fields → Prop} {elementId : Value}
    {transform : Fields → Fields} {element : Fields} (hcontext : AllElements P context)
    (htransform : ∀ existing, P existing → P (transform existing))
    (h : element ∈ toUpsertFromCache context elementId transform) : P element := by
  obtain ⟨existing, hget, rfl⟩ := Option.map_eq_some_iff.mp (Option.mem_toList.mp h)
  exact htransform existing (hcontext.get hget)

theorem fits_of_moveUpserts (hcontext : AllElements (Fits ids) context) :
    ∀ {moves : List Value} {upserts : List Fields},
      (∀ move ∈ moves, (member move "x").all Json.storable = true ∧
        (member move "y").all Json.storable = true) →
      moveUpserts context moves = .ok upserts → ∀ element ∈ upserts, Fits ids element := by
  intro moves
  induction moves with
  | nil =>
    intro upserts _ h element helement
    obtain rfl := Except.ok.inj h
    cases helement
  | cons move moves ih =>
    intro upserts hmoves h element helement
    obtain ⟨elementId, -, h⟩ := bind_eq_ok.mp h
    obtain ⟨x, hx, h⟩ := bind_eq_ok.mp h
    obtain ⟨y, hy, h⟩ := bind_eq_ok.mp h
    obtain ⟨rest, hrest, h⟩ := bind_eq_ok.mp h
    obtain rfl := Except.ok.inj h
    obtain helement | helement := List.mem_append.mp helement
    · have hmove := hmoves move List.mem_cons_self
      rw [member_of_prop (by decide) hx, member_of_prop (by decide) hy] at hmove
      refine mem_toUpsertFromCache hcontext (fun existing hexisting => ?_) helement
      exact (hexisting.setMember (by decide) (by decide) (by decide) hmove.1).setMember
        (by decide) (by decide) (by decide) hmove.2
    · exact ih (fun move hmove => hmoves move (List.mem_cons_of_mem _ hmove)) hrest element helement

theorem fits_of_updateUpserts (hcontext : AllElements (Fits ids) context) :
    ∀ {updates : List Value} {upserts : List Fields},
      (∀ update ∈ updates, keepsRow (member update "fields") = true ∧
        ∀ id, asString (member (member update "fields") "id") = some id → id ∈ ids) →
      updateUpserts context updates = .ok upserts → ∀ element ∈ upserts, Fits ids element := by
  intro updates
  induction updates with
  | nil =>
    intro upserts _ h element helement
    obtain rfl := Except.ok.inj h
    cases helement
  | cons update updates ih =>
    intro upserts hupdates h element helement
    obtain ⟨elementId, -, h⟩ := bind_eq_ok.mp h
    obtain ⟨fields, hfields, h⟩ := bind_eq_ok.mp h
    obtain ⟨rest, hrest, h⟩ := bind_eq_ok.mp h
    obtain rfl := Except.ok.inj h
    obtain helement | helement := List.mem_append.mp helement
    · have hpatch := hupdates update List.mem_cons_self
      rw [member_of_prop (by decide) hfields] at hpatch
      exact mem_toUpsertFromCache hcontext
        (fun existing hexisting => hexisting.patch hpatch.1 hpatch.2) helement
    · exact ih (fun update hupdate => hupdates update (List.mem_cons_of_mem _ hupdate)) hrest
        element helement

/-- A list of new elements, spread. -/
theorem fits_of_mapM {values : List Value} :
    ∀ {upserts : List Fields}, (∀ value ∈ values, bringsRow value = true ∧
        ∀ id, asString (member value "id") = some id → id ∈ ids) →
      values.mapM toElement = .ok upserts → ∀ element ∈ upserts, Fits ids element := by
  induction values with
  | nil =>
    intro upserts _ h element helement
    rw [List.mapM_nil] at h
    obtain rfl := Except.ok.inj h
    cases helement
  | cons value values ih =>
    intro upserts hvalues h element helement
    rw [List.mapM_cons] at h
    obtain ⟨first, hfirst, h⟩ := bind_eq_ok.mp h
    obtain ⟨rest, hrest, h⟩ := bind_eq_ok.mp h
    obtain rfl := Except.ok.inj h
    obtain rfl | helement := List.mem_cons.mp helement
    · obtain ⟨hbrings, hids⟩ := hvalues value List.mem_cons_self
      exact fits_of_toElement hfirst hbrings hids
    · exact ih (fun value hvalue => hvalues value (List.mem_cons_of_mem _ hvalue)) hrest element
        helement

/-- The ids of a list in the operation are among those it brings. -/
theorem mem_broughtIds {id : String} : id ∈ broughtIds operation ↔
    asString (member (member operation "data") "id") = some id ∨
    asString (member (member operation "fields") "id") = some id ∨
    (∃ update ∈ items (member operation "updates"),
      asString (member (member update "fields") "id") = some id) ∨
    (∃ element ∈ items (member operation "upserts"), asString (member element "id") = some id) ∨
    (∃ value ∈ items (member operation "elementIds"), asString value = some id) ∨
    ∃ value ∈ items (member operation "deletes"), asString value = some id := by
  simp [broughtIds, or_assoc]

/-- The change set that an operation lists itself. -/
theorem fits_of_listed {changeSet : ChangeSet}
    (hwrites : ((items (member operation "upserts")).all bringsRow &&
      (items (member operation "deletes")).all isStorableId) = true)
    (hids : ∀ id ∈ broughtIds operation, id ∈ ids)
    (h : (do
      let deletes ← iterate (← prop operation "deletes")
      return (⟨← (← iterate (← prop operation "upserts")).mapM toElement, deletes⟩ : ChangeSet)) =
        .ok changeSet) : ChangeFits ids changeSet := by
  obtain ⟨deletesValue, hdeletesValue, h⟩ := bind_eq_ok.mp h
  obtain ⟨deletes, hdeletes, h⟩ := bind_eq_ok.mp h
  obtain ⟨upsertsValue, hvalue, h⟩ := bind_eq_ok.mp h
  obtain ⟨values, hvalues, h⟩ := bind_eq_ok.mp h
  obtain ⟨upserts, hupserts, h⟩ := bind_eq_ok.mp h
  obtain rfl := Except.ok.inj h
  have hvalues : items (member operation "upserts") = values := by
    rw [member_of_prop (by decide) hvalue]
    exact items_of_iterate hvalues
  have hdeletes : items (member operation "deletes") = deletes := by
    rw [member_of_prop (by decide) hdeletesValue]
    exact items_of_iterate hdeletes
  obtain ⟨hbrings, hstorable⟩ := Bool.and_eq_true_iff.mp hwrites
  rw [hvalues] at hbrings
  rw [hdeletes] at hstorable
  constructor
  · refine fits_of_mapM (fun value hmem => ⟨List.all_eq_true.mp hbrings value hmem, ?_⟩) hupserts
    intro id hid
    exact hids id (mem_broughtIds.mpr (.inr (.inr (.inr (.inl ⟨value, hvalues ▸ hmem, hid⟩)))))
  · intro id hmem
    refine fitsId_of_isStorableId (List.all_eq_true.mp hstorable id hmem) fun s hs => ?_
    exact hids s (mem_broughtIds.mpr (.inr (.inr (.inr (.inr (.inr ⟨id, hdeletes ▸ hmem, hs⟩))))))

theorem ChangeFits.ofUpserts {upserts : List Fields} (h : ∀ element ∈ upserts, Fits ids element) :
    ChangeFits ids ⟨upserts, []⟩ :=
  ⟨h, fun _ hmem => absurd hmem List.not_mem_nil⟩

/-- The change set of an operation that meets the condition. -/
theorem fits_of_toChangeSet {changeSet : ChangeSet} (hcontext : AllElements (Fits ids) context)
    (hwrites : writesPersistable operation = true) (hids : ∀ id ∈ broughtIds operation, id ∈ ids)
    (h : toChangeSet context operation = .ok changeSet) : ChangeFits ids changeSet := by
  obtain ⟨type, htype, h⟩ := bind_eq_ok.mp h
  unfold writesPersistable at hwrites
  rw [mutationType?_of_type? htype] at hwrites
  cases type with
  | none => exact fits_of_listed hwrites hids h
  | some type =>
    cases type with
    | createElement =>
      obtain ⟨data, hdata, h⟩ := bind_eq_ok.mp h
      obtain ⟨element, helement, h⟩ := bind_eq_ok.mp h
      obtain rfl := Except.ok.inj h
      have hdata := member_of_prop (by decide) hdata
      refine .ofUpserts fun element' hmem => ?_
      rw [List.mem_singleton.mp hmem]
      refine fits_of_toElement helement (hdata ▸ hwrites) fun id hid => ?_
      exact hids id (mem_broughtIds.mpr (.inl (by rw [hdata, hid])))
    | updateElement =>
      obtain ⟨elementId, -, h⟩ := bind_eq_ok.mp h
      obtain ⟨fields, hfields, h⟩ := bind_eq_ok.mp h
      obtain rfl := Except.ok.inj h
      have hfields := member_of_prop (by decide) hfields
      refine .ofUpserts fun element =>
        mem_toUpsertFromCache hcontext fun existing hexisting => ?_
      refine hexisting.patch (hfields ▸ hwrites) fun id hid => ?_
      exact hids id (mem_broughtIds.mpr (.inr (.inl (by rw [hfields, hid]))))
    | deleteElements =>
      obtain ⟨idsValue, hvalue, h⟩ := bind_eq_ok.mp h
      obtain ⟨deletes, hdeletes, h⟩ := bind_eq_ok.mp h
      obtain rfl := Except.ok.inj h
      have hdeletes : items (member operation "elementIds") = deletes := by
        rw [member_of_prop (by decide) hvalue]
        exact items_of_iterate hdeletes
      refine ⟨fun element hmem => absurd hmem List.not_mem_nil, fun id hmem => ?_⟩
      refine fitsId_of_isStorableId (List.all_eq_true.mp hwrites id (hdeletes ▸ hmem)) ?_
      intro s hs
      exact hids s (mem_broughtIds.mpr (.inr (.inr (.inr (.inr (.inl ⟨id, hdeletes ▸ hmem, hs⟩))))))
    | moveElements =>
      obtain ⟨movesValue, hvalue, h⟩ := bind_eq_ok.mp h
      obtain ⟨moves, hmoves, h⟩ := bind_eq_ok.mp h
      obtain ⟨upserts, hupserts, h⟩ := bind_eq_ok.mp h
      obtain rfl := Except.ok.inj h
      refine .ofUpserts (fits_of_moveUpserts hcontext ?_ hupserts)
      rw [← items_of_arrayItems hmoves, ← member_of_prop (by decide) hvalue]
      intro move hmove
      exact Bool.and_eq_true_iff.mp (List.all_eq_true.mp hwrites move hmove)
    | updateElements =>
      obtain ⟨updatesValue, hvalue, h⟩ := bind_eq_ok.mp h
      obtain ⟨updates, hupdates, h⟩ := bind_eq_ok.mp h
      obtain ⟨upserts, hupserts, h⟩ := bind_eq_ok.mp h
      obtain rfl := Except.ok.inj h
      refine .ofUpserts (fits_of_updateUpserts hcontext ?_ hupserts)
      rw [← items_of_arrayItems hupdates, ← member_of_prop (by decide) hvalue]
      intro update hupdate
      refine ⟨List.all_eq_true.mp hwrites update hupdate, fun id hid => ?_⟩
      exact hids id (mem_broughtIds.mpr (.inr (.inr (.inl ⟨update, hupdate, hid⟩))))
    | reorderElement =>
      obtain ⟨zIndex, hzIndex, h⟩ := bind_eq_ok.mp h
      obtain ⟨elementId, -, h⟩ := bind_eq_ok.mp h
      obtain rfl := Except.ok.inj h
      rw [member_of_prop (by decide) hzIndex] at hwrites
      exact .ofUpserts fun element => mem_toUpsertFromCache hcontext fun existing hexisting =>
        hexisting.setMember (by decide) (by decide) (by decide) hwrites
    | reconcileMonthRange => exact fits_of_listed hwrites hids h

theorem mem_normalizeUpserts {upserts : List Fields} {element : Fields}
    (h : element ∈ normalizeUpserts upserts) : element ∈ upserts := by
  obtain ⟨entry, hentry, rfl⟩ := List.mem_map.mp h
  have hall : AllElements (· ∈ upserts) (upserts.foldl (fun deduped element =>
      mapSet deduped (element.lookup "id") element) []) :=
    List.foldlRecOn _ _ .nil fun map hmap element helement => hmap.set helement
  exact hall entry hentry

/-- What is contained in ids that fit has an id that fits. -/
theorem fitsId_of_contained {elements : Dict Fields} {deletes : List Value} {id : Value}
    (hstored : Stored (Fits ids) elements) (hdeletes : ∀ id ∈ deletes, FitsId ids id)
    (h : Contained elements deletes id) : FitsId ids id := by
  cases h with
  | listed hmem => exact hdeletes id hmem
  | child _ hfield _ _ => exact (hstored _ _ hfield).fitsId

theorem ChangeFits.persistedChange {now : Nat} {elements : Dict Fields}
    {changeSet change : ChangeSet} (hchange : ChangeFits ids changeSet)
    (hstored : Stored (Fits ids) elements)
    (h : persistedChange now elements changeSet = some change) : ChangeFits ids change := by
  unfold Payloads.persistedChange at h
  dsimp only at h
  split at h
  · cases h
  · obtain rfl := Option.some.inj h
    constructor
    · intro element helement
      obtain ⟨element', hmem, rfl⟩ := List.mem_map.mp helement
      have hfits := hchange.upserts element' (mem_normalizeUpserts (List.mem_filter.mp hmem).1)
      have hset : Fits ids (setMember element' "updatedAt" (some (.num now))) :=
        hfits.setMember (by decide) (by decide) (by decide) rfl
      exact hset
    · exact fun id hid =>
        fitsId_of_contained hstored hchange.deletes (contained_deleteIdsOf id hid)

/-- The change a claimed mutation writes. -/
theorem fits_of_claimedChange {now : Nat} {elements : Dict Fields} {change : ChangeSet}
    (hcontext : AllElements (Fits ids) context) (hstored : Stored (Fits ids) elements)
    (hwrites : writesPersistable operation = true) (hids : ∀ id ∈ broughtIds operation, id ∈ ids)
    (h : claimedChange now operation context elements = .ok (some change)) :
    ChangeFits ids change := by
  have hwritten : (do return persistedChange now elements (← toChangeSet context operation) :
      Except TypeError (Option ChangeSet)) = .ok (some change) → ChangeFits ids change := by
    intro h
    obtain ⟨changeSet, hchangeSet, h⟩ := bind_eq_ok.mp h
    exact (fits_of_toChangeSet hcontext hwrites hids hchangeSet).persistedChange hstored
      (Except.ok.inj h)
  obtain ⟨blocked, -, h⟩ := bind_eq_ok.mp h
  split at h
  · cases h
  obtain ⟨type, -, h⟩ := bind_eq_ok.mp h
  split at h
  · obtain ⟨message, -, h⟩ := bind_eq_ok.mp h
    split at h
    · cases h
    · exact hwritten h
  · exact hwritten h

end written

/-! ### One step -/

section step
variable {client : Client} {ids : Finset String}

/-- Ids that are strings, as the strings they are. -/
theorem exists_strings {p : String → Prop} {values : List Value}
    (h : ∀ v ∈ values, ∃ s, v = some (.str s) ∧ p s) :
    ∃ strings : List String, values = strings.map (fun s => some (.str s)) ∧
      ∀ s ∈ strings, p s := by
  induction values with
  | nil => exact ⟨[], rfl, by simp⟩
  | cons v values ih =>
    obtain ⟨s, rfl, hs⟩ := h v List.mem_cons_self
    obtain ⟨strings, rfl, hstrings⟩ := ih fun v hv => h v (List.mem_cons_of_mem _ hv)
    exact ⟨s :: strings, rfl, List.forall_mem_cons.mpr ⟨hs, hstrings⟩⟩

/-- Every id of the set is one that fits. -/
def SetFits (ids : Finset String) (set : IdSet) : Prop :=
  ∀ id ∈ set, id ∈ ids ∧ storableText id = true

theorem SetFits.sadd {set : IdSet} {values : List Value} (h : SetFits ids set)
    (hvalues : ∀ v ∈ values, FitsId ids v) : SetFits ids (client.sadd set values) := by
  obtain ⟨strings, rfl, hstrings⟩ := exists_strings
    (p := fun s => s ∈ ids ∧ storableText s = true) fun v hv => by
      obtain ⟨s, hs, hv, hstorable⟩ := hvalues v hv
      exact ⟨s, hv, hs, hstorable⟩
  rw [client.sadd_str]
  intro id hid
  rcases IdSet.mem_add.mp hid with hid | hid
  · exact hstrings id hid
  · exact h id hid

theorem SetFits.srem {set : IdSet} {values : List Value} (h : SetFits ids set)
    (hvalues : ∀ v ∈ values, FitsId ids v) : SetFits ids (client.srem set values) := by
  obtain ⟨strings, rfl, -⟩ := exists_strings (p := fun _ => True) fun v hv => by
    obtain ⟨s, -, hv, -⟩ := hvalues v hv
    exact ⟨s, hv, trivial⟩
  rw [client.srem_str]
  exact fun id hid => h id (IdSet.mem_remove.mp hid).2

theorem BoardFits.writeChange {board : BoardStore} {change : ChangeSet} (h : BoardFits ids board)
    (hchange : ChangeFits ids change) {field : String} {element : Fields}
    (hlookup : (writeChange client board.elements change).lookup field = some element) :
    Fits ids element ∧ element.lookup "id" = some (.str field) := by
  have hwritten : ∀ field element, (change.upserts.foldl (fun elements element =>
      client.hset elements (element.lookup "id") element) board.elements).lookup field =
        some element → Fits ids element ∧ element.lookup "id" = some (.str field) := by
    refine List.foldlRecOn (motive := fun written : Dict Fields => ∀ field element,
      written.lookup field = some element →
        Fits ids element ∧ element.lookup "id" = some (.str field)) _ _
      (fun field element hlookup =>
        ⟨h.stored field element hlookup, h.keyed field element hlookup⟩) ?_
    intro written hstored element helement field element' hlookup
    obtain ⟨id, -, hid⟩ := (hchange.upserts element helement).id
    rw [hid, client.hset_str, Dict.lookup_insert_ite] at hlookup
    split at hlookup
    · next heq =>
      obtain rfl := Option.some.inj hlookup
      exact ⟨hchange.upserts element helement, heq ▸ hid⟩
    · exact hstored field element' hlookup
  unfold Payloads.writeChange at hlookup
  dsimp only at hlookup
  split at hlookup
  · exact hwritten field element hlookup
  · exact hwritten field element (client.hdel_lookup hlookup)

/-- The step lemma: the pipeline of a change that fits leaves a board that fits. -/
theorem BoardFits.applyChange {board : BoardStore} {change : ChangeSet} (h : BoardFits ids board)
    (hchange : ChangeFits ids change) : BoardFits ids (applyChange client board change) := by
  have hupserts : ∀ v ∈ change.upserts.map (·.lookup "id"), FitsId ids v := by
    intro v hv
    obtain ⟨element, helement, rfl⟩ := List.mem_map.mp hv
    exact (hchange.upserts element helement).fitsId
  have hdirty : SetFits ids board.dirtyElementIds := h.dirty
  have hdeleted : SetFits ids board.deletedElementIds := h.deleted
  unfold Payloads.applyChange
  refine ⟨fun field element hlookup => (h.writeChange hchange hlookup).1,
    fun field element hlookup => (h.writeChange hchange hlookup).2, ?_, ?_⟩
  · dsimp only
    split <;> split
    · exact hdirty
    · exact hdirty.sadd hupserts
    · exact hdirty.srem hchange.deletes
    · exact (hdirty.sadd hupserts).srem hchange.deletes
  · dsimp only
    split <;> split
    · exact hdeleted
    · exact hdeleted.srem hupserts
    · exact hdeleted.sadd hchange.deletes
    · exact (hdeleted.srem hupserts).sadd hchange.deletes

theorem AllElements.applyPersistedChange {context : ElementMap} {change : ChangeSet}
    (h : AllElements (Fits ids) context)
    (hupserts : ∀ element ∈ change.upserts, Fits ids element) :
    AllElements (Fits ids) (applyPersistedChangeToContext context change) := by
  refine List.foldlRecOn _ _ ?_ fun map hmap id _ => hmap.delete
  exact List.foldlRecOn _ _ h fun map hmap element helement => hmap.set (hupserts element helement)

/-- A mutation that meets the condition, and brings ids that are counted. -/
structure MutationFits (ids : Finset String) (mutation : Value) : Prop where
  writes : writesPersistable (member mutation "operation") = true
  brings : ∀ id ∈ broughtIds (member mutation "operation"), id ∈ ids

/-- One mutation leaves a board that fits, and returns a change that fits. -/
theorem BoardFits.processMutation (client : Client) {board : BoardStore} {mutation : Value}
    {context : ElementMap}
    (h : BoardFits ids board) (hcontext : AllElements (Fits ids) context)
    (hmutation : MutationFits ids mutation) (now : Nat) :
    BoardFits ids (processMutationWithContext client now mutation context board).2 ∧
      ∀ change,
        (processMutationWithContext client now mutation context board).1 = .ok (some change) →
        ChangeFits ids change := by
  unfold processMutationWithContext
  dsimp only
  cases htransient : isTransient (member mutation "operation") with
  | error e => exact ⟨h, fun change hchange => by cases hchange⟩
  | ok transient =>
    cases transient with
    | true => exact ⟨h, fun change hchange => by cases hchange⟩
    | false =>
      dsimp only
      split
      · exact ⟨h, fun change hchange => by cases hchange⟩
      · -- the marker of a mutation seen is no id
        have hclaimed : BoardFits ids
            { board with seen := client.text (member mutation "mutationId") :: board.seen } :=
          ⟨h.stored, h.keyed, h.dirty, h.deleted⟩
        cases hchange : claimedChange now (member mutation "operation") context board.elements with
        | error e => exact ⟨hclaimed, fun change hchange => by cases hchange⟩
        | ok change? =>
          cases change? with
          | none => exact ⟨hclaimed, fun change hchange => by cases hchange⟩
          | some change =>
            have hfits := fits_of_claimedChange hcontext h.stored hmutation.writes
              hmutation.brings hchange
            refine ⟨hclaimed.applyChange hfits, fun change' hchange => ?_⟩
            obtain rfl := Option.some.inj (Except.ok.inj hchange)
            exact hfits

/-- The loop over the mutations of a board. -/
theorem BoardFits.processEntries (now : Nat) {mutations : List Value} :
    ∀ {context : ElementMap} {board : BoardStore}, BoardFits ids board →
      AllElements (Fits ids) context → (∀ mutation ∈ mutations, MutationFits ids mutation) →
      BoardFits ids (processEntries client now mutations context board).2 := by
  induction mutations with
  | nil => exact fun h _ _ => h
  | cons mutation rest ih =>
    intro context board h hcontext hmutations
    obtain ⟨hboard, hchange⟩ := h.processMutation client hcontext
      (hmutations mutation List.mem_cons_self) now
    have hrest : ∀ mutation ∈ rest, MutationFits ids mutation :=
      fun mutation hmem => hmutations mutation (List.mem_cons_of_mem _ hmem)
    unfold Payloads.processEntries
    cases hrun : processMutationWithContext client now mutation context board with
    | mk result board' =>
      rw [hrun] at hboard hchange
      cases result with
      | error e => exact hboard
      | ok change? =>
        cases change? with
        | none => exact ih hboard hcontext hrest
        | some change =>
          -- the context takes over what was written
          exact ih hboard (hcontext.applyPersistedChange (hchange change rfl).upserts) hrest

theorem BoardFits.processBoardBatch {enableTargetedReads : Bool} {board : BoardStore}
    {mutations : List Value} (h : BoardFits ids board) (now : Nat)
    (hmutations : ∀ mutation ∈ mutations, MutationFits ids mutation) :
    BoardFits ids (processBoardBatch client enableTargetedReads now mutations board).2 := by
  have hstored : Stored (Fits ids) board.elements := h.stored
  unfold Payloads.processBoardBatch
  cases hcontext : createCachedBoardContext client enableTargetedReads board.elements mutations with
  | error e => exact h
  | ok context => exact h.processEntries now (hstored.context hcontext) hmutations

/-! ### Requests -/

/-- The groups of a batch hold its mutations, each with those of one board. -/
theorem mem_of_mem_groupByBoard {mutations : List Value} {group : String × List Value}
    (hgroup : group ∈ groupByBoard client mutations)
    {mutation : Value} (hmem : mutation ∈ group.2) :
    mutation ∈ mutations ∧ boardIdOf client mutation = group.1 := by
  suffices h : ∀ group ∈ groupByBoard client mutations, ∀ mutation ∈ group.2,
      mutation ∈ mutations ∧ boardIdOf client mutation = group.1 from h group hgroup mutation hmem
  refine List.foldlRecOn (motive := fun groups : List (String × List Value) =>
    ∀ group ∈ groups, ∀ mutation ∈ group.2,
      mutation ∈ mutations ∧ boardIdOf client mutation = group.1) _ _ (by simp) ?_
  intro groups hgroups mutation hmutation group hgroup
  split at hgroup
  · obtain ⟨old, hold, rfl⟩ := List.mem_map.mp hgroup
    split
    · next hboard =>
      intro mutation' hmem
      obtain hmem | hmem := List.mem_append.mp hmem
      · exact hgroups old hold mutation' hmem
      · rw [List.mem_singleton.mp hmem]
        exact ⟨hmutation, hboard.symm⟩
    · exact hgroups old hold
  · obtain hgroup | hgroup := List.mem_append.mp hgroup
    · exact hgroups group hgroup
    · rw [List.mem_singleton.mp hgroup]
      intro mutation' hmem
      rw [List.mem_singleton.mp hmem]
      exact ⟨hmutation, rfl⟩

/-- The loop over the boards of a batch, with the ids counted for each. -/
theorem processBoards_fits {enableTargetedReads : Bool} (now : Nat)
    {counted : String → Finset String}
    {groups : List (String × List Value)} :
    ∀ {boards : String → BoardStore}, (∀ boardId, BoardFits (counted boardId) (boards boardId)) →
      (∀ group ∈ groups, ∀ mutation ∈ group.2, MutationFits (counted group.1) mutation) →
      ∀ boardId, BoardFits (counted boardId)
        (processBoards client enableTargetedReads now groups boards boardId) := by
  induction groups with
  | nil => exact fun h _ => h
  | cons group rest ih =>
    intro boards h hgroups
    have hboards : ∀ boardId, BoardFits (counted boardId) (Function.update boards group.1
        (processBoardBatch client enableTargetedReads now group.2 (boards group.1)).2 boardId) := by
      intro boardId
      by_cases hid : boardId = group.1
      · subst hid
        rw [Function.update_self]
        exact (h group.1).processBoardBatch now (hgroups group List.mem_cons_self)
      · rw [Function.update_of_ne hid]
        exact h boardId
    -- an error ends the loop, and the boards before keep what was written
    unfold processBoards
    dsimp only
    cases (processBoardBatch client enableTargetedReads now group.2 (boards group.1)).1 with
    | error e => exact hboards
    | ok _ => exact ih hboards fun group hgroup => hgroups group (List.mem_cons_of_mem _ hgroup)

/-- The ids that a board needs are its own. -/
theorem BoardFits.own {board : BoardStore} (h : BoardFits ids board) :
    board.ids ⊆ ids ∧ BoardFits board.ids board := by
  have hids : ∀ id, id ∈ board.ids ↔ id ∈ board.elements ∨ id ∈ board.dirtyElementIds ∨
      id ∈ board.deletedElementIds := by
    simp [BoardStore.ids, AList.mem_keys]
  constructor
  · intro id hid
    rcases (hids id).mp hid with hid | hid | hid
    · obtain ⟨element, hlookup⟩ := Option.isSome_iff_exists.mp (AList.lookup_isSome.mpr hid)
      obtain ⟨id', hid', hlookup'⟩ := (h.stored id element hlookup).id
      rw [h.keyed id element hlookup] at hlookup'
      obtain rfl : id = id' := by simpa using hlookup'
      exact hid'
    · exact (h.dirty id hid).1
    · exact (h.deleted id hid).1
  · refine ⟨fun field element hlookup => ?_, h.keyed, fun id hid => ?_, fun id hid => ?_⟩
    · have hfits := h.stored field element hlookup
      have hfield : field ∈ board.elements :=
        AList.lookup_isSome.mp (Option.isSome_of_eq_some hlookup)
      exact ⟨⟨field, (hids field).mpr (.inl hfield), h.keyed field element hlookup⟩, hfits.kind,
        hfits.storable⟩
    · exact ⟨(hids id).mpr (.inr (.inl hid)), (h.dirty id hid).2⟩
    · exact ⟨(hids id).mpr (.inr (.inr hid)), (h.deleted id hid).2⟩

theorem BoardFits.mono {ids' : Finset String} {board : BoardStore} (h : BoardFits ids board)
    (hsub : ids ⊆ ids') : BoardFits ids' board := by
  refine ⟨fun field element hlookup => ?_, h.keyed, fun id hid => ?_, fun id hid => ?_⟩
  · have hfits := h.stored field element hlookup
    obtain ⟨id, hid, hlookup⟩ := hfits.id
    exact ⟨⟨id, hsub hid, hlookup⟩, hfits.kind, hfits.storable⟩
  · exact ⟨hsub (h.dirty id hid).1, (h.dirty id hid).2⟩
  · exact ⟨hsub (h.deleted id hid).1, (h.deleted id hid).2⟩

/-- A request that meets the condition leaves boards that fit. -/
theorem AllFit.processBatch {enableTargetedReads : Bool} {boards : String → BoardStore}
    {mutations : List Value} (h : AllFit boards) (now : Nat)
    (hmutations : ∀ mutation ∈ mutations,
      writesPersistable (member mutation "operation") = true ∧
        (idsAfter (boards (boardIdOf client mutation)) mutations).card ≤ MAX_FLUSHED_ROWS) :
    AllFit (processBatch client enableTargetedReads now mutations boards) := by
  -- a board that the request does not name keeps its ids
  let counted (boardId : String) : Finset String :=
    if ∃ mutation ∈ mutations, boardIdOf client mutation = boardId then
      idsAfter (boards boardId) mutations
    else (boards boardId).ids
  have hcounted : ∀ boardId, (counted boardId).card ≤ MAX_FLUSHED_ROWS ∧
      BoardFits (counted boardId) (boards boardId) := by
    intro boardId
    obtain ⟨ids, hcard, hfits⟩ := h boardId
    obtain ⟨hsub, hown⟩ := hfits.own
    by_cases hnamed : ∃ mutation ∈ mutations, boardIdOf client mutation = boardId
    · simp only [counted, if_pos hnamed]
      obtain ⟨mutation, hmem, rfl⟩ := hnamed
      exact ⟨(hmutations mutation hmem).2, hown.mono Finset.subset_union_left⟩
    · simp only [counted, if_neg hnamed]
      exact ⟨(Finset.card_le_card hsub).trans hcard, hown⟩
  intro boardId
  refine ⟨counted boardId, (hcounted boardId).1,
    processBoards_fits now (fun boardId => (hcounted boardId).2) ?_ boardId⟩
  intro group hgroup mutation hmem
  obtain ⟨hmutation, hboard⟩ := mem_of_mem_groupByBoard hgroup hmem
  refine ⟨(hmutations mutation hmutation).1, fun id hid => ?_⟩
  simp only [counted, if_pos (⟨mutation, hmutation, hboard⟩ : ∃ mutation ∈ mutations, _ = group.1)]
  exact Finset.mem_union_right _
    (List.mem_toFinset.mpr (List.mem_flatMap.mpr ⟨mutation, hmutation, hid⟩))

end step

/-! ### The flush of a board that fits -/

section flush
variable {driver : Driver} {ids : Finset String} {boardId : String} {board : BoardStore}
  {db : Postgres}

variable (driver boardId) in
theorem sent_of_lookup {element : Fields} {id : String}
    (h : element.lookup "id" = some (.str id)) :
    (toElementRow boardId element).idText driver = some id ∧
      ((toElementRow boardId element).sent driver).id = id := by
  have htext : (toElementRow boardId element).idText driver = some id := by
    simp only [RowValues.idText, toElementRow, h, Option.bind_some, driver.text_str]
  refine ⟨htext, ?_⟩
  simp only [RowValues.sent, htext, Option.getD_some]

/-- Postgres takes the row. -/
theorem Fits.accept_sent {element : Fields} (h : Fits ids element) :
    ((toElementRow boardId element).sent driver).accept.isSome = true := by
  obtain ⟨id, -, hid⟩ := h.id
  have hsent := (sent_of_lookup driver boardId hid).2
  have hlookup := Fields.storable_iff.mp h.storable
  have htext : storableText id = true := storableText_of_storable (hlookup "id" _ hid).2
  have hdata : (toElementRow boardId element).data.storable = true := by
    rw [Fields.storable_iff]
    intro key value hvalue
    simp only [toElementRow, Dict.lookup_erase_ite] at hvalue
    split at hvalue
    · cases hvalue
    · split at hvalue
      · cases hvalue
      · split at hvalue
        · cases hvalue
        · exact hlookup key value hvalue
  have hkind := h.kind
  unfold isValidType at hkind
  cases hstring : asString (element.lookup "kind") with
  | none =>
    rw [hstring] at hkind
    cases hkind
  | some kind =>
    rw [hstring] at hkind
    obtain ⟨s, hs⟩ := asString_isSome (Option.isSome_of_eq_some hstring)
    rw [hs] at hstring
    obtain rfl := Option.some.inj hstring
    have hvalid : s ∈ VALID_ELEMENT_TYPES := List.contains_iff_mem.mp hkind
    have htype : ((toElementRow boardId element).sent driver).type = some (.str s) := hs
    unfold NewElementRow.accept
    rw [htype]
    simp only [hsent]
    rw [if_pos ⟨hvalid, htext, hdata⟩]
    rfl

/-- An INSERT of elements that fit goes through, in either mode. -/
theorem insertRows_ok {overwrites : Bool} {elements : List Fields}
    (hfits : ∀ element ∈ elements, Fits ids element) (hcount : ids.card ≤ MAX_FLUSHED_ROWS)
    (hnodup : (elements.map fun element =>
      ((toElementRow boardId element).sent driver).id).Nodup)
    (hboard : pgUuid boardId ∈ db.boards)
    (hfree : overwrites = false → ∀ element ∈ elements, ∀ id,
      element.lookup "id" = some (.str id) → id ∉ db.elements) :
    ∃ db', insertRows driver overwrites (elements.map (toElementRow boardId)) db = .ok db' := by
  have hsent : ∀ row ∈ (elements.map (toElementRow boardId)).map (·.sent driver),
      ∃ element ∈ elements, row = (toElementRow boardId element).sent driver := by
    intro row hrow
    rw [List.map_map] at hrow
    obtain ⟨element, hmem, rfl⟩ := List.mem_map.mp hrow
    exact ⟨element, hmem, rfl⟩
  have htexts : ((elements.map (toElementRow boardId)).all fun row =>
      (row.idText driver).isSome) = true := by
    rw [List.all_eq_true]
    intro row hrow
    obtain ⟨element, hmem, rfl⟩ := List.mem_map.mp hrow
    obtain ⟨id, -, hid⟩ := (hfits element hmem).id
    rw [(sent_of_lookup driver _ hid).1]
    rfl
  -- the ids are distinct, and among those counted
  have hlength : elements.length ≤ MAX_FLUSHED_ROWS := by
    rw [← List.length_map fun element => ((toElementRow boardId element).sent driver).id,
      ← List.toFinset_card_of_nodup hnodup]
    refine (Finset.card_le_card ?_).trans hcount
    intro id hid
    obtain ⟨element, hmem, rfl⟩ := List.mem_map.mp (List.mem_toFinset.mp hid)
    obtain ⟨id, hid, hlookup⟩ := (hfits element hmem).id
    rwa [(sent_of_lookup driver _ hlookup).2]
  have haccept : ∀ row ∈ (elements.map (toElementRow boardId)).map (·.sent driver),
      row.accept.isSome := by
    intro row hrow
    obtain ⟨element, hmem, rfl⟩ := hsent row hrow
    exact (hfits element hmem).accept_sent
  have hboards : ∀ row ∈ (elements.map (toElementRow boardId)).map (·.sent driver),
      row.boardId ∈ db.boards := by
    intro row hrow
    obtain ⟨element, -, rfl⟩ := hsent row hrow
    exact hboard
  have hids : (((elements.map (toElementRow boardId)).map (·.sent driver)).map (·.id)).Nodup := by
    rwa [List.map_map, List.map_map]
  have hfew : 5 * ((elements.map (toElementRow boardId)).map (·.sent driver)).length + 2 <
      MAX_PARAMETERS := by
    rw [List.length_map, List.length_map]
    unfold MAX_FLUSHED_ROWS at hlength
    unfold MAX_PARAMETERS
    omega
  unfold insertRows
  dsimp only
  rw [if_pos htexts]
  cases overwrites with
  | true => exact ⟨_, Postgres.insertOrUpdate_ok.mpr ⟨hfew, haccept, hids, hboards, rfl⟩⟩
  | false =>
    refine ⟨_, Postgres.insertNew_of_accepted (by omega) haccept hids ?_ hboards⟩
    intro row hrow
    obtain ⟨element, hmem, rfl⟩ := hsent row hrow
    obtain ⟨id, -, hid⟩ := (hfits element hmem).id
    rw [(sent_of_lookup driver _ hid).2]
    exact hfree rfl element hmem id hid

/-- The elements of the dirty ids. -/
theorem flushedRows_eq : board.flushedRows boardId =
    (board.dirtyElementIds.keys.filterMap fun id =>
      if id = "" then none else board.elements.lookup id).map (toElementRow boardId) := by
  rw [BoardStore.flushedRows, List.map_filterMap]
  refine List.filterMap_congr fun id _ => ?_
  split <;> rfl

theorem persistBoardIncremental_commits (h : BoardFits ids board)
    (hcount : ids.card ≤ MAX_FLUSHED_ROWS) (hboard : pgUuid boardId ∈ db.boards) :
    ∃ db', persistBoardIncremental driver boardId board db = .ok db' := by
  have hkeys : ∀ set : IdSet, (∀ id ∈ set, id ∈ ids ∧ storableText id = true) →
      set.keys.length ≤ MAX_FLUSHED_ROWS := by
    intro set hset
    rw [← List.toFinset_card_of_nodup set.keys_nodup]
    refine (Finset.card_le_card fun id hid => ?_).trans hcount
    exact (hset id (AList.mem_keys.mp (List.mem_toFinset.mp hid))).1
  have hdeletes : 1 + board.flushedDeletes.length < MAX_PARAMETERS ∧
      ∀ id ∈ board.flushedDeletes, storableText id = true := by
    constructor
    · have hset := length_toSet_le (board.deletedElementIds.keys ++
        board.dirtyElementIds.keys.filter fun id => id ≠ "" ∧ (board.elements.lookup id).isNone)
      have hfilter := List.length_filter_le
        (fun id => decide (id ≠ "" ∧ (board.elements.lookup id).isNone = true))
        board.dirtyElementIds.keys
      have hdirty := hkeys _ h.dirty
      have hdeleted := hkeys _ h.deleted
      rw [List.length_append] at hset
      unfold BoardStore.flushedDeletes
      unfold MAX_FLUSHED_ROWS at hdirty hdeleted
      unfold MAX_PARAMETERS
      omega
    · intro id hid
      rcases List.mem_append.mp (mem_toSet.mp hid) with hid | hid
      · exact (h.deleted id (AList.mem_keys.mp hid)).2
      · exact (h.dirty id (AList.mem_keys.mp (List.mem_filter.mp hid).1)).2
  unfold persistBoardIncremental
  split
  · exact ⟨db, rfl⟩
  · rw [Postgres.runDeleteIds_ok.mpr ⟨hdeletes.1, hdeletes.2, rfl⟩]
    dsimp only
    split
    · exact ⟨_, rfl⟩
    · rw [flushedRows_eq]
      have hread : ∀ id element, (if id = "" then none else board.elements.lookup id) =
          some element → board.elements.lookup id = some element := by
        intro id element hread
        split at hread
        · cases hread
        · exact hread
      refine insertRows_ok ?_ hcount ?_ hboard fun hfalse => by cases hfalse
      · intro element helement
        obtain ⟨id, -, hid⟩ := List.mem_filterMap.mp helement
        exact h.stored id element (hread id element hid)
      · -- an element is stored under its id, and so flushed once
        rw [List.map_filterMap]
        refine List.Nodup.filterMap ?_ board.dirtyElementIds.keys_nodup
        intro id id' sent hid hid'
        obtain ⟨element, helement, rfl⟩ := Option.map_eq_some_iff.mp hid
        obtain ⟨element', helement', hsent⟩ := Option.map_eq_some_iff.mp hid'
        rw [(sent_of_lookup driver _ (h.keyed id' element' (hread id' element' helement'))).2,
          (sent_of_lookup driver _ (h.keyed id element (hread id element helement))).2] at hsent
        exact hsent.symm

theorem persistBoardFullSnapshot_commits (h : BoardFits ids board)
    (hcount : ids.card ≤ MAX_FLUSHED_ROWS) (hboard : pgUuid boardId ∈ db.boards)
    (hown : OwnIds boardId board db) :
    ∃ db', persistBoardFullSnapshot driver boardId board db = .ok db' := by
  have hread : ∀ entry ∈ (parsedObject board.elements).entries,
      board.elements.lookup entry.1 = some entry.2 := by
    intro entry hentry
    have hlookup := AList.mem_lookup_iff.mpr hentry
    rw [lookup_parsedObject] at hlookup
    split at hlookup
    · cases hlookup
    · exact hlookup
  unfold persistBoardFullSnapshot
  dsimp only
  split
  · exact ⟨_, rfl⟩
  · refine insertRows_ok ?_ hcount ?_ hboard fun _ => ?_
    · intro element helement
      obtain ⟨entry, hentry, rfl⟩ := List.mem_map.mp helement
      exact h.stored entry.1 entry.2 (hread entry hentry)
    · have hkeys : (elementList board.elements).map (fun element =>
          ((toElementRow boardId element).sent driver).id) =
          (parsedObject board.elements).keys := by
        rw [elementList, List.map_map]
        refine List.map_congr_left fun entry hentry => ?_
        exact (sent_of_lookup driver _ (h.keyed entry.1 entry.2 (hread entry hentry))).2
      rw [hkeys]
      exact (parsedObject board.elements).keys_nodup
    · -- the rows of the board are gone, and no other board has the id
      intro element helement id hid hmem
      obtain ⟨entry, hentry, rfl⟩ := List.mem_map.mp helement
      have hentry := hread entry hentry
      rw [h.keyed entry.1 entry.2 hentry] at hid
      obtain rfl : entry.1 = id := by simpa using hid
      obtain ⟨row, hrow⟩ := Option.isSome_iff_exists.mp (AList.lookup_isSome.mpr hmem)
      rw [Postgres.lookup_deleteBoardRows] at hrow
      split at hrow
      · cases hrow
      · next hother =>
        have hmem := AList.lookup_isSome.mp (Option.isSome_of_eq_some hentry)
        have hrowId := hown entry.1 hmem row hrow
        exact hother (by simp [hrow, hrowId])

/-- So the transaction of an existing board commits. -/
theorem BoardFits.commits (h : BoardFits ids board) (hcount : ids.card ≤ MAX_FLUSHED_ROWS)
    (cfg : Config) : Commits driver cfg boardId board db := by
  intro hexists hown
  unfold flushTransaction
  split
  · exact persistBoardIncremental_commits h hcount hexists.2
  · next hmode =>
    exact persistBoardFullSnapshot_commits h hcount hexists.2 (hown (by simpa using hmode))

/-- A flush removes keys and marks, and no more. -/
theorem BoardFits.persistBoard (h : BoardFits ids board) (cfg : Config) :
    BoardFits ids (persistBoard driver cfg boardId board db).2.1 := by
  have hnone : SetFits ids ∅ := fun id hid => absurd hid (AList.notMem_empty id)
  have hevict : BoardFits ids (evict boardId board) := by
    refine ⟨fun field element hlookup => ?_, fun field element hlookup => ?_, ?_, ?_⟩
    · simp only [evict] at hlookup
      split at hlookup
      · cases hlookup
      · exact h.stored field element hlookup
    · simp only [evict] at hlookup
      split at hlookup
      · cases hlookup
      · exact h.keyed field element hlookup
    · simp only [evict]
      split
      · exact hnone
      · exact h.dirty
    · simp only [evict]
      split
      · exact hnone
      · exact h.deleted
  unfold Payloads.persistBoard
  split
  · exact hevict
  · split
    · simp only [BoardStore.clearMarkers]
      split
      · exact ⟨h.stored, h.keyed, hnone, hnone⟩
      · exact h
    · split
      · exact hevict
      · exact h

end flush

theorem BoardFits.allowed {ids : Finset String} {boardId field : String} {board : BoardStore}
    {element : Fields} (h : BoardFits ids board)
    (hlookup : board.elements.lookup field = some element) :
    (toElementRow boardId element).allowed = true := by
  have hfits := h.stored field element hlookup
  obtain ⟨id, -, hid⟩ := hfits.id
  refine Bool.and_eq_true_iff.mpr ⟨?_, hfits.kind⟩
  simp only [toElementRow, hid]
  rfl

/-- A client that writes an id that is not a string as the empty one. -/
def stringClient : Client :=
  let field (id : Value) : String := (asString id).getD ""
  { text := field
    hget := fun elements id => elements.lookup (field id)
    hmget := fun elements ids => ids.map fun id => elements.lookup (field id)
    hset := fun elements id element => elements.insert (field id) element
    hdel := fun elements ids => Dict.eraseAll elements (ids.map field)
    sadd := fun set ids => set.add (ids.map field)
    srem := fun set ids => set.remove (ids.map field)
    text_str := fun _ => rfl
    hget_str := fun _ _ => rfl
    hmget_str := fun elements ids => by rw [List.map_map]; rfl
    hset_str := fun _ _ _ => rfl
    hdel_str := fun elements ids => by rw [List.map_map]; exact congrArg _ ids.map_id
    sadd_str := fun set ids => by rw [List.map_map]; exact congrArg _ ids.map_id
    srem_str := fun set ids => by rw [List.map_map]; exact congrArg _ ids.map_id
    hget_mem := fun hlookup => ⟨_, hlookup⟩
    hmget_mem := fun {elements ids element} hmem => by
      obtain ⟨id, -, hlookup⟩ := List.mem_map.mp hmem
      exact ⟨_, hlookup⟩
    hdel_lookup := fun {elements ids field element} hlookup => by
      rw [Dict.lookup_eraseAll] at hlookup
      split at hlookup
      · cases hlookup
      · exact hlookup }

/-- A driver that sends a value that is not a string as NULL. -/
def stringDriver : Driver where
  text v := asString (some v)
  text_str _ := rfl
  text_null := rfl

def noteBoard : String := "3f2504e0-4f89-41d3-9a0c-0305e82c3301"

/-- The board has a row, and no elements. -/
def noElements : State where
  boards := fun _ => { elements := ∅, seen := [] }
  db := { boards := AList.singleton noteBoard (), elements := ∅ }

theorem noElements_allFit : AllFit noElements.boards := by
  intro boardId
  refine ⟨∅, Nat.zero_le _, ?_, ?_, ?_, ?_⟩
  · exact fun field element hlookup => by cases hlookup
  · exact fun field element hlookup => by cases hlookup
  · exact fun id hid => absurd hid (AList.notMem_empty id)
  · exact fun id hid => absurd hid (AList.notMem_empty id)

/-- A mutation of the board. -/
def mutationOf (mutationId : String) (operation : List (String × Json)) : Json :=
  .obj [("mutationId", .str mutationId), ("boardId", .str noteBoard), ("clientTimestamp", .num 1),
    ("operation", .obj operation)]

def createNote (data : List (String × Json)) : Json :=
  mutationOf "create" [("type", .str "CREATE_ELEMENT"), ("elementId", .str "note"),
    ("data", .obj (("id", .str "note") :: data))]

def updateNote (fields : List (String × Json)) : Json :=
  mutationOf "update" [("type", .str "UPDATE_ELEMENT"), ("elementId", .str "note"),
    ("fields", .obj fields)]

/-- The mutations in one message of the socket. -/
def socketBatch (mutations : List Json) : Request :=
  .socket (some (.obj [("boardId", .str noteBoard), ("mutations", .arr mutations)]))

/-- A flush of the board throws, and leaves the board and the tables as they are. -/
def FlushFails (s : State) : Prop :=
  ∃ e, persistBoard stringDriver {} noteBoard (s.boards noteBoard) s.db =
    (some e, s.boards noteBoard, s.db)

theorem flushFails_of_isSome {s : State}
    (h : (persistBoard stringDriver {} noteBoard (s.boards noteBoard) s.db).1.isSome = true) :
    FlushFails s := by
  unfold FlushFails
  unfold persistBoard at h ⊢
  split at h
  · cases h
  · next hexists =>
    split at h
    · cases h
    · next e _ =>
      split at h
      · cases h
      · next hkeeps =>
        rw [if_neg hexists]
        exact ⟨e, if_neg hkeeps⟩

end Notebortt.Payloads
