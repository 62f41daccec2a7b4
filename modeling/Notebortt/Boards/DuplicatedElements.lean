import Notebortt.Mutations.Types

/-! # The elements of a duplicated board

    `boards/board.service.utils.ts`: the copies of the rows of a board get new
    ids, and the ids inside their data are remapped. The ids of `randomUUID` are
    a parameter, by number of the call. -/

namespace Notebortt.Boards

/-! ### Remapping -/

def REMAPPABLE_ID_KEYS : List String :=
  ["id", "elementId", "parentId", "sourceId", "targetId", "startElementId", "endElementId",
   "containerId", "containedById", "columnId", "metaColumnId", "gridId", "noteId", "arrowId",
   "shapeId", "textId", "drawingId", "imageId", "linkPreviewId", "childId", "itemId"]

def includesId : List Char → Bool
  | c :: d :: rest => c == 'i' && d == 'd' || includesId (d :: rest)
  | _ => false

/-- `REMAPPABLE_ID_KEYS.has(keyHint) || keyHint.toLowerCase().includes('id')`. Of the characters
    outside ASCII none has the lower case of an `i` before a `d`. -/
def isRemappable (keyHint : String) : Bool :=
  REMAPPABLE_ID_KEYS.contains keyHint || includesId (keyHint.toList.map Char.toLower)

/-- A string under a key. -/
def remapString (idMap : Dict String) (keyHint value : String) : String :=
  match idMap.lookup value with
  | some remapped => if remapped ≠ "" ∧ isRemappable keyHint = true then remapped else value
  | none => value

mutual

def remapElementData (idMap : Dict String) (keyHint : String) : Json → Json
  | .arr items => .arr (remapItems idMap keyHint items)
  | .obj members => .obj (remapMembers idMap members)
  | .str value => .str (remapString idMap keyHint value)
  | .null => .null
  | .bool b => .bool b
  | .num n => .num n

/-- The items keep the key of the array. -/
def remapItems (idMap : Dict String) (keyHint : String) : List Json → List Json
  | [] => []
  | item :: items => remapElementData idMap keyHint item :: remapItems idMap keyHint items

/-- `result[key] = ...`. For `__proto__` the assignment makes no member. -/
def remapMembers (idMap : Dict String) : List (String × Json) → List (String × Json)
  | [] => []
  | (key, nestedValue) :: members =>
    if key = "__proto__" then remapMembers idMap members
    else (key, remapElementData idMap key nestedValue) :: remapMembers idMap members

end

/-! ### Rows -/

structure SourceElementRow where
  id : String
  type : String
  data : Json

structure DuplicatedElement where
  id : String
  boardId : String
  type : String
  data : Json

/-- `createElementIdMap`: the n-th element gets the n-th new id. -/
def createElementIdMap (randomUUID : Nat → String) (sourceElements : List SourceElementRow) :
    Dict String :=
  Dict.insertAll ∅ (sourceElements.zipIdx.map fun row => (row.1.id, randomUUID row.2))

/-- Every id is in the map, so that the default is never used. -/
def buildDuplicatedElements (randomUUID : Nat → String) (sourceElements : List SourceElementRow)
    (targetBoardId : String) : List DuplicatedElement :=
  let idMap := createElementIdMap randomUUID sourceElements
  sourceElements.map fun element =>
    { id := (idMap.lookup element.id).getD ""
      boardId := targetBoardId
      type := element.type
      data := remapElementData idMap "" element.data }

/-! ### Paths -/

inductive Step where
  | key (key : String)
  | index (i : Nat)
  deriving DecidableEq

/-- The member of an object: of two with one key, the last. -/
def lastMember (key : String) : List (String × Json) → Option Json
  | [] => none
  | (k, v) :: members => (lastMember key members).or (if k = key then some v else none)

/-- The value at a path. -/
def valueAt : List Step → Json → Option Json
  | [], value => some value
  | .index i :: path, .arr items => items[i]?.bind (valueAt path)
  | .key key :: path, .obj members => (lastMember key members).bind (valueAt path)
  | _ :: _, _ => none

/-- The key a value is reached under, through any nesting of arrays. -/
def keyAbove (keyHint : String) : List Step → String
  | [] => keyHint
  | .index _ :: path => keyAbove keyHint path
  | .key key :: path => keyAbove key path

/-! ### What a duplicate is -/

/-- What `node:crypto` promises of the ids it makes: they are distinct, and none of them is anywhere
    in the rows. -/
structure FreshIds (randomUUID : Nat → String) (rows : List SourceElementRow) : Prop where
  nonempty : ∀ i, randomUUID i ≠ ""
  distinct : ∀ i j, randomUUID i = randomUUID j → i = j
  newIds : ∀ i, ∀ row ∈ rows, row.id ≠ randomUUID i
  newInData : ∀ i, ∀ row ∈ rows, ∀ path, valueAt path row.data ≠ some (.str (randomUUID i))

/-- The id that the copy of an element has. -/
def newId (rows : List SourceElementRow) (copies : List DuplicatedElement) (id : String) :
    Option String :=
  ((rows.zip copies).find? fun pair => pair.1.id == id).map fun pair => pair.2.id

/-- A string of the source as the copy shows it: under a remappable key the id of an element is the
    new one. -/
def renamed (rows : List SourceElementRow) (copies : List DuplicatedElement)
    (keyHint value : String) : String :=
  if isRemappable keyHint then (newId rows copies value).getD value else value

/-- What stands at one place in the source and in the copy. -/
def SameBut (rename : String → String) : Option Json → Option Json → Prop
  | some (.str value), copy => copy = some (.str (rename value))
  | some (.arr _), copy => ∃ items, copy = some (.arr items)
  | some (.obj _), copy => ∃ members, copy = some (.obj members)
  | value, copy => copy = value

structure Duplicates (rows : List SourceElementRow) (copies : List DuplicatedElement) : Prop where
  length : copies.length = rows.length
  newIds : ∀ copy ∈ copies, ∀ row ∈ rows, copy.id ≠ row.id
  distinctIds : (copies.map (·.id)).Nodup
  types : ∀ pair ∈ rows.zip copies, pair.2.type = pair.1.type
  /-- Equal data at every path, but for the ids under remappable keys. -/
  data : ∀ pair ∈ rows.zip copies, ∀ path,
    SameBut (renamed rows copies (keyAbove "" path)) (valueAt path pair.1.data)
      (valueAt path pair.2.data)
  /-- A copy is in the copy of the element that its source is in, and in no other copy. -/
  containment : ∀ key ∈ ["containerId", "metaContainerId"],
    ∀ pair ∈ rows.zip copies, ∀ container ∈ rows.zip copies,
      (valueAt [.key key] pair.2.data = some (.str container.2.id) ↔
        valueAt [.key key] pair.1.data = some (.str container.1.id))
  /-- No remapped field refers to a source element. -/
  detached : ∀ copy ∈ copies, ∀ path value, valueAt path copy.data = some (.str value) →
    isRemappable (keyAbove "" path) = true → ∀ row ∈ rows, row.id ≠ value

/-- No object in the data has a member `__proto__`. -/
def NoProtoMember (data : Json) : Prop :=
  ∀ path, valueAt (path ++ [.key "__proto__"]) data = none

/-! ### Remapping along a path -/

section paths
variable {idMap : Dict String}

theorem getElem?_remapItems (keyHint : String) (items : List Json) (i : Nat) :
    (remapItems idMap keyHint items)[i]? = items[i]?.map (remapElementData idMap keyHint) := by
  induction items generalizing i with
  | nil => rfl
  | cons item items ih =>
    cases i with
    | zero => rfl
    | succ i =>
      simp only [remapItems, List.getElem?_cons_succ]
      exact ih i

theorem lastMember_remapMembers (key : String) (members : List (String × Json)) :
    lastMember key (remapMembers idMap members) =
      if key = "__proto__" then none
      else (lastMember key members).map (remapElementData idMap key) := by
  induction members with
  | nil => simp [remapMembers, lastMember]
  | cons head members ih =>
    obtain ⟨k, v⟩ := head
    simp only [remapMembers, lastMember]
    by_cases hproto : k = "__proto__"
    · -- the member is not in the copy, and only a lookup of `__proto__` would have found it
      rw [if_pos hproto, ih]
      by_cases hkey : key = "__proto__"
      · rw [if_pos hkey, if_pos hkey]
      · rw [if_neg hkey, if_neg hkey, if_neg (fun h => hkey (h.symm.trans hproto)), Option.or_none]
    · rw [if_neg hproto]
      simp only [lastMember, ih]
      by_cases hkey : key = "__proto__"
      · rw [if_pos hkey, if_pos hkey, if_neg (fun h => hproto (h.trans hkey)), Option.or_none]
      · rw [if_neg hkey, if_neg hkey]
        by_cases hk : k = key
        · subst hk
          cases lastMember k members <;> simp
        · simp [hk]

/-- What the copy shows at a path: nothing behind a `__proto__`, and elsewhere the value remapped
    under the key it is reached by. -/
theorem valueAt_remapElementData (path : List Step) (keyHint : String) (value : Json) :
    valueAt path (remapElementData idMap keyHint value) =
      if .key "__proto__" ∈ path then none
      else (valueAt path value).map (remapElementData idMap (keyAbove keyHint path)) := by
  induction path generalizing keyHint value with
  | nil => rfl
  | cons step path ih =>
    cases step with
    | index i =>
      cases value with
      | arr items =>
        simp only [remapElementData, valueAt, getElem?_remapItems, keyAbove, List.mem_cons,
          reduceCtorEq, false_or]
        -- an item keeps the hint of the key its array stands under
        cases items[i]? with
        | none => simp
        | some item => simpa using ih keyHint item
      | _ => simp [remapElementData, valueAt]
    | key key =>
      cases value with
      | obj members =>
        simp only [remapElementData, valueAt, lastMember_remapMembers, keyAbove, List.mem_cons,
          Step.key.injEq]
        by_cases hkey : key = "__proto__"
        · simp [hkey]
        · have hne : "__proto__" ≠ key := fun h => hkey h.symm
          simp only [if_neg hkey, hne, false_or]
          -- a member hands its own key on
          cases lastMember key members with
          | none => simp
          | some nested => simpa using ih key nested
      | _ => simp [remapElementData, valueAt]

theorem valueAt_append (front back : List Step) (value : Json) :
    valueAt (front ++ back) value = (valueAt front value).bind (valueAt back) := by
  induction front generalizing value with
  | nil => rfl
  | cons step front ih =>
    cases step with
    | index i =>
      cases value with
      | arr items =>
        simp only [List.cons_append, valueAt]
        cases items[i]? with
        | none => rfl
        | some item => exact ih item
      | _ => rfl
    | key key =>
      cases value with
      | obj members =>
        simp only [List.cons_append, valueAt]
        cases lastMember key members with
        | none => rfl
        | some nested => exact ih nested
      | _ => rfl

/-- Without a member `__proto__` nothing is behind one. -/
theorem NoProtoMember.valueAt_none {data : Json} (h : NoProtoMember data) {path : List Step}
    (hpath : .key "__proto__" ∈ path) : valueAt path data = none := by
  obtain ⟨front, back, rfl⟩ := List.append_of_mem hpath
  have hsplit : front ++ .key "__proto__" :: back = (front ++ [.key "__proto__"]) ++ back := by simp
  rw [hsplit, valueAt_append, h front]
  rfl

end paths

/-! ### The id map -/

section ids
variable {randomUUID : Nat → String} {rows : List SourceElementRow} {targetBoardId : String}

variable (randomUUID) in
theorem lookup_zipIdx (hdistinct : (rows.map (·.id)).Nodup) (n : Nat) {i : Nat}
    {row : SourceElementRow} (hrow : rows[i]? = some row) :
    ((rows.zipIdx n).map fun r => (r.1.id, randomUUID r.2)).lookup row.id =
      some (randomUUID (n + i)) := by
  induction rows generalizing n i with
  | nil => cases hrow
  | cons first rest ih =>
    simp only [List.map_cons, List.nodup_cons] at hdistinct
    simp only [List.zipIdx_cons, List.map_cons, List.lookup_cons]
    cases i with
    | zero =>
      obtain rfl := Option.some.inj hrow
      simp
    | succ i =>
      -- the first pair is not the one looked for, since the ids differ
      have hrest : rest[i]? = some row := hrow
      have hne : (row.id == first.id) = false := by
        rw [beq_eq_false_iff_ne]
        intro heq
        exact hdistinct.1 (List.mem_map.mpr ⟨row, List.mem_of_getElem? hrest, heq⟩)
      have hplace : n + (i + 1) = n + 1 + i := by omega
      rw [hne, hplace]
      exact ih hdistinct.2 (n + 1) hrest

theorem lookup_createElementIdMap (hdistinct : (rows.map (·.id)).Nodup) {i : Nat}
    {row : SourceElementRow} (hrow : rows[i]? = some row) :
    (createElementIdMap randomUUID rows).lookup row.id = some (randomUUID i) := by
  have hkeys : ((rows.zipIdx.map fun r => (r.1.id, randomUUID r.2)).map Prod.fst).Nodup := by
    have hids : (rows.zipIdx.map fun r => (r.1.id, randomUUID r.2)).map Prod.fst =
        rows.map (·.id) := by
      rw [List.map_map]
      have hcomp : (Prod.fst ∘ fun r : SourceElementRow × Nat => (r.1.id, randomUUID r.2)) =
          (·.id) ∘ Prod.fst := rfl
      rw [hcomp, ← List.map_map, List.zipIdx_map_fst]
    rw [hids]
    exact hdistinct
  have hlookup := lookup_zipIdx randomUUID hdistinct 0 hrow
  rw [createElementIdMap, Dict.lookup_insertAll _ _ _ hkeys, hlookup, Nat.zero_add]
  rfl

/-- What the map holds: the new id of the element of that id. -/
theorem lookup_createElementIdMap_eq_some (hdistinct : (rows.map (·.id)).Nodup)
    {id remapped : String} :
    (createElementIdMap randomUUID rows).lookup id = some remapped ↔
      ∃ i row, rows[i]? = some row ∧ row.id = id ∧ randomUUID i = remapped := by
  constructor
  · intro hlookup
    by_cases hid : id ∈ rows.map (·.id)
    · obtain ⟨row, hrow, rfl⟩ := List.mem_map.mp hid
      obtain ⟨i, hi⟩ := List.getElem?_of_mem hrow
      rw [lookup_createElementIdMap hdistinct hi] at hlookup
      exact ⟨i, row, hi, rfl, Option.some.inj hlookup⟩
    · have hnone : (createElementIdMap randomUUID rows).lookup id = none := by
        rw [createElementIdMap, Dict.lookup_insertAll_of_not_mem]
        · rfl
        · intro hmem
          simp only [List.map_map, List.mem_map, Function.comp_apply] at hmem
          obtain ⟨r, hr, rfl⟩ := hmem
          exact hid (List.mem_map_of_mem (List.fst_mem_of_mem_zipIdx hr))
      rw [hnone] at hlookup
      cases hlookup
  · rintro ⟨i, row, hrow, rfl, rfl⟩
    exact lookup_createElementIdMap hdistinct hrow

/-! ### The copies -/

/-- The copy of one row. -/
def copyOf (randomUUID : Nat → String) (rows : List SourceElementRow) (targetBoardId : String)
    (row : SourceElementRow) : DuplicatedElement where
  id := ((createElementIdMap randomUUID rows).lookup row.id).getD ""
  boardId := targetBoardId
  type := row.type
  data := remapElementData (createElementIdMap randomUUID rows) "" row.data

theorem zip_buildDuplicatedElements :
    rows.zip (buildDuplicatedElements randomUUID rows targetBoardId) =
      rows.map fun row => (row, copyOf randomUUID rows targetBoardId row) := by
  have hmap : buildDuplicatedElements randomUUID rows targetBoardId =
      rows.map (copyOf randomUUID rows targetBoardId) := rfl
  rw [hmap]
  have hzip : (rows.map id).zip (rows.map (copyOf randomUUID rows targetBoardId)) =
      rows.map fun row => (id row, copyOf randomUUID rows targetBoardId row) := List.zip_map'
  rw [List.map_id] at hzip
  exact hzip

/-- The id of a copy is the new id at the place of its row. -/
theorem id_copyOf (hdistinct : (rows.map (·.id)).Nodup) {i : Nat} {row : SourceElementRow}
    (hrow : rows[i]? = some row) :
    (copyOf randomUUID rows targetBoardId row).id = randomUUID i := by
  rw [copyOf, lookup_createElementIdMap hdistinct hrow]
  rfl

/-- The map of the remapping is what the copies show. -/
theorem newId_buildDuplicatedElements (hdistinct : (rows.map (·.id)).Nodup) (id : String) :
    newId rows (buildDuplicatedElements randomUUID rows targetBoardId) id =
      (createElementIdMap randomUUID rows).lookup id := by
  rw [newId, zip_buildDuplicatedElements, List.find?_map]
  cases hfind : rows.find? (fun row => row.id == id) with
  | some row =>
    obtain ⟨i, hi⟩ := List.getElem?_of_mem (List.mem_of_find?_eq_some hfind)
    have hid : row.id = id := by simpa using List.find?_some hfind
    have hcomp : rows.find? ((fun pair : SourceElementRow × DuplicatedElement => pair.1.id == id) ∘
        fun row => (row, copyOf randomUUID rows targetBoardId row)) = some row := hfind
    rw [hcomp, ← hid, lookup_createElementIdMap hdistinct hi]
    simp only [Option.map_some]
    rw [id_copyOf hdistinct hi]
  | none =>
    have hcomp : rows.find? ((fun pair : SourceElementRow × DuplicatedElement => pair.1.id == id) ∘
        fun row => (row, copyOf randomUUID rows targetBoardId row)) = none := hfind
    rw [hcomp]
    cases hlookup : (createElementIdMap randomUUID rows).lookup id with
    | none => rfl
    | some remapped =>
      obtain ⟨i, row, hrow, hid, -⟩ := (lookup_createElementIdMap_eq_some hdistinct).mp hlookup
      exact absurd hid (by simpa using List.find?_eq_none.mp hfind row (List.mem_of_getElem? hrow))

variable (targetBoardId) in
/-- A remapped string is the new id of the element it names, and else what it was. -/
theorem remapString_eq (hfresh : FreshIds randomUUID rows) (hdistinct : (rows.map (·.id)).Nodup)
    (keyHint value : String) :
    remapString (createElementIdMap randomUUID rows) keyHint value =
      renamed rows (buildDuplicatedElements randomUUID rows targetBoardId) keyHint value := by
  rw [renamed, newId_buildDuplicatedElements hdistinct, remapString]
  cases hlookup : (createElementIdMap randomUUID rows).lookup value with
  | none => simp
  | some remapped =>
    obtain ⟨i, -, -, -, rfl⟩ := (lookup_createElementIdMap_eq_some hdistinct).mp hlookup
    simp [hfresh.nonempty i]

theorem mem_buildDuplicatedElements {copy : DuplicatedElement} :
    copy ∈ buildDuplicatedElements randomUUID rows targetBoardId ↔
      ∃ row ∈ rows, copyOf randomUUID rows targetBoardId row = copy := List.mem_map

theorem mem_zip_buildDuplicatedElements {pair : SourceElementRow × DuplicatedElement} :
    pair ∈ rows.zip (buildDuplicatedElements randomUUID rows targetBoardId) ↔
      ∃ row ∈ rows, (row, copyOf randomUUID rows targetBoardId row) = pair := by
  rw [zip_buildDuplicatedElements, List.mem_map]

/-! ### The ids of the copies -/

variable (randomUUID targetBoardId) in
/-- The id of a copy is the new id at some place. -/
theorem exists_id_copyOf (hdistinct : (rows.map (·.id)).Nodup) {row : SourceElementRow}
    (hrow : row ∈ rows) :
    ∃ i, rows[i]? = some row ∧ (copyOf randomUUID rows targetBoardId row).id = randomUUID i := by
  obtain ⟨i, hi⟩ := List.getElem?_of_mem hrow
  exact ⟨i, hi, id_copyOf hdistinct hi⟩

theorem id_copyOf_injective (hfresh : FreshIds randomUUID rows)
    (hdistinct : (rows.map (·.id)).Nodup) {row row' : SourceElementRow} (hrow : row ∈ rows)
    (hrow' : row' ∈ rows)
    (hsame : (copyOf randomUUID rows targetBoardId row).id =
      (copyOf randomUUID rows targetBoardId row').id) : row = row' := by
  obtain ⟨i, hi, hid⟩ := exists_id_copyOf randomUUID targetBoardId hdistinct hrow
  obtain ⟨j, hj, hid'⟩ := exists_id_copyOf randomUUID targetBoardId hdistinct hrow'
  rw [hid, hid'] at hsame
  obtain rfl := hfresh.distinct i j hsame
  exact Option.some.inj (hi.symm.trans hj)

theorem nodup_ids_copies (hfresh : FreshIds randomUUID rows) (hdistinct : (rows.map (·.id)).Nodup) :
    ((buildDuplicatedElements randomUUID rows targetBoardId).map (·.id)).Nodup := by
  have hmap : (buildDuplicatedElements randomUUID rows targetBoardId).map (·.id) =
      rows.map fun row => (copyOf randomUUID rows targetBoardId row).id := List.map_map
  rw [hmap]
  refine List.Nodup.map_on ?_ (List.Nodup.of_map _ hdistinct)
  intro row hrow row' hrow' hsame
  exact id_copyOf_injective hfresh hdistinct hrow hrow' hsame

/-! ### The data of the copies -/

/-- What remapping leaves of a value, at the head. -/
theorem sameBut_remapElementData (hfresh : FreshIds randomUUID rows)
    (hdistinct : (rows.map (·.id)).Nodup) (keyHint : String) (value : Option Json) :
    SameBut (renamed rows (buildDuplicatedElements randomUUID rows targetBoardId) keyHint) value
      (value.map (remapElementData (createElementIdMap randomUUID rows) keyHint)) := by
  cases value with
  | none => rfl
  | some value =>
    cases value with
    | str value =>
      show some (Json.str _) = some (Json.str _)
      rw [remapString_eq targetBoardId hfresh hdistinct]
    | arr items => exact ⟨_, rfl⟩
    | obj members => exact ⟨_, rfl⟩
    | _ => rfl

variable (targetBoardId) in
/-- At every path a copy shows its row, with the ids under remappable keys renamed. -/
theorem sameBut_copyOf (hfresh : FreshIds randomUUID rows) (hdistinct : (rows.map (·.id)).Nodup)
    {row : SourceElementRow} (hproto : NoProtoMember row.data) (path : List Step) :
    SameBut
      (renamed rows (buildDuplicatedElements randomUUID rows targetBoardId) (keyAbove "" path))
      (valueAt path row.data) (valueAt path (copyOf randomUUID rows targetBoardId row).data) := by
  have hat : valueAt path (copyOf randomUUID rows targetBoardId row).data =
      (valueAt path row.data).map
        (remapElementData (createElementIdMap randomUUID rows) (keyAbove "" path)) := by
    rw [copyOf, valueAt_remapElementData]
    split
    · next hbehind => rw [hproto.valueAt_none hbehind, Option.map_none]
    · rfl
  rw [hat]
  exact sameBut_remapElementData hfresh hdistinct _ _

/-- A string of a copy was a string of the source. -/
theorem string_of_copy {path : List Step} {row : SourceElementRow} {value : String}
    (h : valueAt path (copyOf randomUUID rows targetBoardId row).data = some (.str value)) :
    ∃ before, valueAt path row.data = some (.str before) ∧
      remapString (createElementIdMap randomUUID rows) (keyAbove "" path) before = value := by
  have hat : valueAt path (copyOf randomUUID rows targetBoardId row).data =
      if .key "__proto__" ∈ path then none
      else (valueAt path row.data).map
        (remapElementData (createElementIdMap randomUUID rows) (keyAbove "" path)) :=
    valueAt_remapElementData path "" row.data
  rw [hat] at h
  split at h
  · cases h
  · obtain ⟨before, hbefore, hremapped⟩ := Option.map_eq_some_iff.mp h
    cases before with
    | str before =>
      simp only [remapElementData, Json.str.injEq] at hremapped
      exact ⟨before, hbefore, hremapped⟩
    | _ => cases hremapped

/-- Under a remappable key the copy shows a new id exactly where the source shows that element's. -/
theorem remapString_eq_id_copyOf (hfresh : FreshIds randomUUID rows)
    (hdistinct : (rows.map (·.id)).Nodup) {keyHint before : String}
    (hkey : isRemappable keyHint = true) {row : SourceElementRow} (hrow : row ∈ rows)
    (hnew : ∀ i, before ≠ randomUUID i) :
    remapString (createElementIdMap randomUUID rows) keyHint before =
      (copyOf randomUUID rows targetBoardId row).id ↔ before = row.id := by
  obtain ⟨i, hi, hid⟩ := exists_id_copyOf randomUUID targetBoardId hdistinct hrow
  rw [hid]
  cases hlookup : (createElementIdMap randomUUID rows).lookup before with
  | none =>
    -- an id outside the map stays, and is no new id
    simp only [remapString, hlookup]
    refine iff_of_false (hnew i) ?_
    rintro rfl
    rw [lookup_createElementIdMap hdistinct hi] at hlookup
    cases hlookup
  | some remapped =>
    obtain ⟨j, other, hj, hother, rfl⟩ := (lookup_createElementIdMap_eq_some hdistinct).mp hlookup
    simp only [remapString, hlookup, hkey, and_true, if_pos (hfresh.nonempty j)]
    constructor
    · intro hsame
      obtain rfl := hfresh.distinct j i hsame
      rw [← hother, Option.some.inj (hj.symm.trans hi)]
    · rintro rfl
      rw [lookup_createElementIdMap hdistinct hi] at hlookup
      exact (Option.some.inj hlookup).symm

theorem containment_copies (hfresh : FreshIds randomUUID rows)
    (hdistinct : (rows.map (·.id)).Nodup) {key : String} (hkey : isRemappable key = true)
    (hproto : key ≠ "__proto__") {row container : SourceElementRow} (hrow : row ∈ rows)
    (hcontainer : container ∈ rows) :
    valueAt [.key key] (copyOf randomUUID rows targetBoardId row).data =
        some (.str (copyOf randomUUID rows targetBoardId container).id) ↔
      valueAt [.key key] row.data = some (.str container.id) := by
  constructor
  · intro hcopy
    obtain ⟨before, hbefore, hremapped⟩ := string_of_copy hcopy
    have hnew : ∀ i, before ≠ randomUUID i := by
      intro i heq
      exact hfresh.newInData i row hrow [.key key] (heq ▸ hbefore)
    rw [hbefore, (remapString_eq_id_copyOf hfresh hdistinct hkey hcontainer hnew).mp hremapped]
  · intro hsource
    have hat : valueAt [.key key] (copyOf randomUUID rows targetBoardId row).data =
        if .key "__proto__" ∈ [Step.key key] then none
        else (valueAt [.key key] row.data).map
          (remapElementData (createElementIdMap randomUUID rows) key) :=
      valueAt_remapElementData [.key key] "" row.data
    have hnot : Step.key "__proto__" ∉ [Step.key key] := by
      simpa using fun h : "__proto__" = key => hproto h.symm
    have hnew : ∀ i, container.id ≠ randomUUID i := fun i => hfresh.newIds i container hcontainer
    rw [hat, if_neg hnot, hsource]
    simp only [Option.map_some, remapElementData]
    rw [(remapString_eq_id_copyOf hfresh hdistinct hkey hcontainer hnew).mpr rfl]

/-- Under a remappable key a copy shows no id of a source element. -/
theorem detached_copy (hfresh : FreshIds randomUUID rows) (hdistinct : (rows.map (·.id)).Nodup)
    {path : List Step} {row : SourceElementRow} {value : String}
    (h : valueAt path (copyOf randomUUID rows targetBoardId row).data = some (.str value))
    (hkey : isRemappable (keyAbove "" path) = true) {other : SourceElementRow}
    (hother : other ∈ rows) : other.id ≠ value := by
  obtain ⟨before, -, hremapped⟩ := string_of_copy h
  obtain ⟨i, hi⟩ := List.getElem?_of_mem hother
  intro heq
  cases hlookup : (createElementIdMap randomUUID rows).lookup before with
  | none =>
    -- the id of a source element is in the map
    simp only [remapString, hlookup] at hremapped
    rw [hremapped, ← heq, lookup_createElementIdMap hdistinct hi] at hlookup
    cases hlookup
  | some remapped =>
    obtain ⟨j, -, -, -, rfl⟩ := (lookup_createElementIdMap_eq_some hdistinct).mp hlookup
    simp only [remapString, hlookup, hkey, and_true, if_pos (hfresh.nonempty j)] at hremapped
    exact hfresh.newIds j other hother (heq.trans hremapped.symm)

/-- The copies duplicate the rows exactly when no object in the data has a member `__proto__`. -/
theorem duplicates_iff (hfresh : FreshIds randomUUID rows) (hdistinct : (rows.map (·.id)).Nodup) :
    Duplicates rows (buildDuplicatedElements randomUUID rows targetBoardId) ↔
      ∀ row ∈ rows, NoProtoMember row.data := by
  constructor
  · intro h row hrow path
    have hpair : (row, copyOf randomUUID rows targetBoardId row) ∈
        rows.zip (buildDuplicatedElements randomUUID rows targetBoardId) :=
      mem_zip_buildDuplicatedElements.mpr ⟨row, hrow, rfl⟩
    have hsame := h.data _ hpair (path ++ [.key "__proto__"])
    have hcopy : valueAt (path ++ [.key "__proto__"])
        (copyOf randomUUID rows targetBoardId row).data = none := by
      rw [copyOf, valueAt_remapElementData, if_pos (by simp)]
    rw [hcopy] at hsame
    -- a value at the path would be in the copy too
    cases hvalue : valueAt (path ++ [.key "__proto__"]) row.data with
    | none => rfl
    | some value =>
      rw [hvalue] at hsame
      cases value with
      | arr items =>
        obtain ⟨_, hsome⟩ := hsame
        cases hsome
      | obj members =>
        obtain ⟨_, hsome⟩ := hsame
        cases hsome
      | _ => cases hsame
  · intro hproto
    constructor
    · exact List.length_map _
    · intro copy hcopy row hrow
      obtain ⟨source, hsource, rfl⟩ := mem_buildDuplicatedElements.mp hcopy
      obtain ⟨i, -, hid⟩ := exists_id_copyOf randomUUID targetBoardId hdistinct hsource
      rw [hid]
      exact (hfresh.newIds i row hrow).symm
    · exact nodup_ids_copies hfresh hdistinct
    · intro pair hpair
      obtain ⟨row, -, rfl⟩ := mem_zip_buildDuplicatedElements.mp hpair
      rfl
    · intro pair hpair path
      obtain ⟨row, hrow, rfl⟩ := mem_zip_buildDuplicatedElements.mp hpair
      exact sameBut_copyOf targetBoardId hfresh hdistinct (hproto row hrow) path
    · intro key hkey pair hpair container hcontainer
      obtain ⟨row, hrow, rfl⟩ := mem_zip_buildDuplicatedElements.mp hpair
      obtain ⟨source, hsource, rfl⟩ := mem_zip_buildDuplicatedElements.mp hcontainer
      have hkeys : ∀ key ∈ ["containerId", "metaContainerId"],
          isRemappable key = true ∧ key ≠ "__proto__" := by decide
      exact containment_copies hfresh hdistinct (hkeys key hkey).1 (hkeys key hkey).2 hrow hsource
    · intro copy hcopy path value hvalue hkey row hrow
      obtain ⟨source, -, rfl⟩ := mem_buildDuplicatedElements.mp hcopy
      exact detached_copy hfresh hdistinct hvalue hkey hrow

end ids

/-! ### A column with a note -/

/-- Ids that are told apart by their lengths. -/
def freshId (i : Nat) : String := String.ofList (List.replicate (i + 36) 'f')

theorem length_freshId (i : Nat) : (freshId i).length = i + 36 := by simp [freshId]

def columnRow : SourceElementRow where
  id := "column"
  type := "COLUMN"
  data := .obj [("title", .str "note")]

def noteRow : SourceElementRow where
  id := "note"
  type := "NOTE"
  data := .obj [("containerId", .str "column")]

/-- The strings of an object with one string member. -/
theorem valueAt_single {key text : String} (path : List Step) :
    valueAt path (.obj [(key, .str text)]) =
      if path = [] then some (.obj [(key, .str text)])
      else if path = [.key key] then some (.str text) else none := by
  cases path with
  | nil => rfl
  | cons step path =>
    cases step with
    | index i => simp [valueAt]
    | key k =>
      by_cases hkey : k = key
      · subst hkey
        cases path with
        | nil => simp [valueAt, lastMember]
        | cons step path => cases step <;> simp [valueAt, lastMember]
      · have hne : key ≠ k := fun h => hkey h.symm
        simp [valueAt, lastMember, hne, hkey]

/-- An object of strings has no member `__proto__` but one of its own. -/
theorem noProtoMember_texts {members : List (String × Json)}
    (htexts : ∀ m ∈ members, m.1 ≠ "__proto__" ∧ ∃ text, m.2 = .str text) :
    NoProtoMember (.obj members) := by
  have hmember : ∀ key value, lastMember key members = some value →
      key ≠ "__proto__" ∧ ∃ text, value = .str text := by
    intro key value hlast
    induction members with
    | nil => cases hlast
    | cons m members ih =>
      obtain ⟨k, v⟩ := m
      rcases Option.or_eq_some_iff.mp hlast with hlater | ⟨-, hfirst⟩
      · exact ih (fun m hm => htexts m (List.mem_cons_of_mem _ hm)) hlater
      · split at hfirst
        · next hkey =>
          obtain rfl := Option.some.inj hfirst
          exact hkey ▸ htexts (k, v) List.mem_cons_self
        · cases hfirst
  intro path
  cases path with
  | nil =>
    cases hlast : lastMember "__proto__" members with
    | none => simp [valueAt, hlast]
    | some value => exact absurd rfl (hmember _ _ hlast).1
  | cons step path =>
    cases step with
    | index i => rfl
    | key key =>
      simp only [List.cons_append, valueAt]
      cases hlast : lastMember key members with
      | none => rfl
      | some value =>
        obtain ⟨-, text, rfl⟩ := hmember key value hlast
        cases path with
        | nil => rfl
        | cons step path => cases step <;> rfl

/-- Rows of short ids with one short string each. -/
structure IsShort (row : SourceElementRow) : Prop where
  id : row.id.length < 36
  data : ∃ key text, row.data = .obj [(key, .str text)] ∧ text.length < 36

theorem freshIds_of_short {rows : List SourceElementRow} (h : ∀ row ∈ rows, IsShort row) :
    FreshIds freshId rows where
  nonempty := by
    intro i hempty
    have hlength := length_freshId i
    rw [hempty] at hlength
    simp at hlength
  distinct := by
    intro i j hsame
    have hi := length_freshId i
    have hj := length_freshId j
    rw [hsame] at hi
    omega
  newIds := by
    intro i row hrow hsame
    have hlength := length_freshId i
    have hshort := (h row hrow).id
    rw [hsame] at hshort
    omega
  newInData := by
    intro i row hrow path hvalue
    have hlength := length_freshId i
    obtain ⟨key, text, hdata, hshort⟩ := (h row hrow).data
    rw [hdata, valueAt_single] at hvalue
    split at hvalue
    · cases hvalue
    · split at hvalue
      · rw [Json.str.inj (Option.some.inj hvalue)] at hshort
        omega
      · cases hvalue

theorem isShort_columnRow : IsShort columnRow := ⟨by decide, _, _, rfl, by decide⟩

theorem isShort_noteRow : IsShort noteRow := ⟨by decide, _, _, rfl, by decide⟩

theorem duplicates_column :
    Duplicates [columnRow, noteRow]
      (buildDuplicatedElements freshId [columnRow, noteRow] "copy") := by
  have hfresh : FreshIds freshId [columnRow, noteRow] := by
    refine freshIds_of_short fun row hrow => ?_
    rcases List.mem_pair.mp hrow with rfl | rfl
    · exact isShort_columnRow
    · exact isShort_noteRow
  refine (duplicates_iff hfresh (by decide)).mpr ?_
  intro row hrow
  rcases List.mem_pair.mp hrow with rfl | rfl
  · exact noProtoMember_texts (by simp)
  · exact noProtoMember_texts (by simp)

/-- A note whose data has a member `__proto__`, which its copy lacks. -/
theorem proto_member_lost :
    ¬ ∀ (randomUUID : Nat → String) (rows : List SourceElementRow) (targetBoardId : String),
      FreshIds randomUUID rows → (rows.map (·.id)).Nodup →
        Duplicates rows (buildDuplicatedElements randomUUID rows targetBoardId) := by
  intro h
  let row : SourceElementRow := ⟨"note", "NOTE", .obj [("__proto__", .str "text")]⟩
  have hfresh : FreshIds freshId [row] := by
    refine freshIds_of_short fun r hr => ?_
    obtain rfl := List.mem_singleton.mp hr
    exact ⟨by decide, _, _, rfl, by decide⟩
  have hdata := (h freshId [row] "copy" hfresh (by decide)).data _ (List.mem_singleton.mpr rfl)
    [.key "__proto__"]
  cases hdata

end Notebortt.Boards
