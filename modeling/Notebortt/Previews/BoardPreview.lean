import Notebortt.Lib.ExactNumber
import Notebortt.Mutations.Types

/-! # The preview of a board

    `previews/board-preview.service.ts`: the rows of a board are laid out as
    rectangles, and these are written as an SVG. No row is checked on the way:
    the casts of the code promise numbers, and the data holds any JSON. Numbers
    are of any type with an arithmetic. -/

namespace Notebortt.Previews

open Js

variable {ν : Type} [Arith ν]

/-! ### Rows -/

structure RawElementRow where
  id : String
  type : String
  data : Json

mutual

/-- A value of the data, as the program reads it. -/
def ofJson : Json → Value ν
  | .null => .null
  | .bool b => .bool b
  | .num n => .number (Arith.ofRat n)
  | .str s => .string s
  | .arr items => .array (ofItems items)
  | .obj members => .object (ofMembers members)

def ofItems : List Json → List (Value ν)
  | [] => []
  | v :: vs => ofJson v :: ofItems vs

def ofMembers : List (String × Json) → List (String × Value ν)
  | [] => []
  | (k, v) :: kvs => (k, ofJson v) :: ofMembers kvs

end

/-- `{ ...data, id, kind }`. The members of the data named `id` and `kind` are never read. -/
structure Element (ν : Type) where
  id : String
  kind : String
  members : List (String × Value ν)

/-- The own members of an array are its indices, none of which is read. -/
def normalizeElement (row : RawElementRow) : Element ν :=
  { id := row.id
    kind := row.type
    members := match row.data with
      | .obj members => ofMembers members
      | _ => [] }

def Element.get (e : Element ν) (name : String) : Value ν := Value.ownMember e.members name

/-- `items.sort((a, b) => a.id.localeCompare(b.id))`. -/
def sortById (localeCompare : String → String → Int) (items : List (Element ν)) :
    List (Element ν) :=
  items.mergeSort fun a b => decide (localeCompare a.id b.id ≤ 0)

/-! ### What is drawn -/

structure Rect (ν : Type) where
  x : Value ν
  y : Value ν
  width : Value ν
  height : Value ν

def NOTE_COLOR_KEYS : List String :=
  ["amber", "orange", "red", "green", "emerald", "teal", "blue", "sky", "purple", "violet", "pink",
   "gray"]

/-- The colour of a note is one of the keys. -/
abbrev ColorKey := { key : String // key ∈ NOTE_COLOR_KEYS }

structure PreviewNote (ν : Type) extends Rect ν where
  colorKey : ColorKey

structure PreviewGrid (ν : Type) extends Rect ν where
  sections : List (Rect ν)

structure PreviewModel (ν : Type) where
  notes : List (PreviewNote ν)
  grids : List (PreviewGrid ν)

def amber : ColorKey := ⟨"amber", by decide⟩

/-- A colour that is none of the keys is drawn as `amber`, a missing one too. -/
def colorKeyOf (color : Value ν) : ColorKey :=
  match color with
  | .string s => if h : s ∈ NOTE_COLOR_KEYS then ⟨s, h⟩ else amber
  | _ => amber

/-! ### The sections of a column -/

/-- `given ?? Array(count).fill(1)`, reduced: so it has to be an array. -/
def weights (given count : Value ν) : Except Abrupt (List (Value ν)) :=
  if given.nullish then
    match count with
    | .number n =>
      match Arith.toNat? n with
      | some length =>
        if length < 2 ^ 32 then .ok (List.replicate length (.nat 1)) else .error .rangeError
      | none => .error .rangeError
    | _ => .ok [.nat 1]
  else given.items

/-- `weights.reduce((sum, value) => sum + value, 0) || 1`. -/
def totalWeight (weights : List (Value ν)) : Except Abrupt (Value ν) := do
  let total ← weights.foldlM Value.add (.nat 0)
  .ok (if total.truthy then total else .nat 1)

/-- `steps` more rounds of the loop, from the `i`-th: `starts.push(acc)`, and the next `acc`. -/
def startsFrom (size total : Value ν) (weights : List (Value ν)) :
    Nat → Nat → Value ν → Except Abrupt (List (Value ν))
  | 0, _, _ => .ok []
  | steps + 1, i, acc => do
    let share ← ((Value.itemAt weights i).coalesce (.nat 1)).div total
    let length ← size.mul (.number share)
    let acc' ← acc.add (.number length)
    let starts ← startsFrom size total weights steps (i + 1) acc'
    .ok (acc :: starts)

/-- The loop `for (let i = 0; i < count; i++)` that fills `colStarts` and `rowStarts`. -/
def starts (count size total start : Value ν) (weights : List (Value ν)) :
    Except Abrupt (List (Value ν)) := do
  match Arith.below (← count.toNumber) with
  | some steps => startsFrom size total weights steps 0 start
  | none => .error .endless

/-- One axis of a section: where it starts, and how long it is. -/
def sectionSpan (starts : List (Value ν)) (start : Value ν) (stop : Except Abrupt (Value ν))
    (position span : Value ν) : Except Abrupt (Value ν × ν) := do
  let first := (← Value.item starts position).coalesce start
  let last ← (← Value.item starts (← position.add span)).coalesceM stop
  .ok (first, Arith.max (Arith.ofNat 1) (← last.sub first))

def sectionsOf (column : Element ν) : Value ν :=
  ((column.get "sections").coalesce (column.get "columnDefs")).coalesce (.array [])

/-- The lines between the sections: the constants and the loops of `calcColumnSections`. -/
structure GridLines (ν : Type) where
  bodyY : Value ν
  bodyHeight : ν
  colStarts : List (Value ν)
  rowStarts : List (Value ν)

def gridLines (column : Element ν) : Except Abrupt (GridLines ν) := do
  let gridCols := (column.get "gridCols").coalesce (.nat 1)
  let gridRows := (column.get "gridRows").coalesce (.nat 1)
  let colWeights ← weights (column.get "gridColWidths") gridCols
  let rowWeights ← weights (column.get "gridRowHeights") gridRows
  let totalColWeight ← totalWeight colWeights
  let totalRowWeight ← totalWeight rowWeights
  let bodyY ← (column.get "y").add (.nat 42)
  let bodyHeight := Arith.max (Arith.ofNat 40) (← (column.get "height").sub (.nat 42))
  let colStarts ← starts gridCols (column.get "width") totalColWeight (column.get "x") colWeights
  let rowStarts ← starts gridRows (.number bodyHeight) totalRowWeight bodyY rowWeights
  .ok { bodyY := bodyY, bodyHeight := bodyHeight, colStarts := colStarts, rowStarts := rowStarts }

def sectionRect (column : Element ν) (lines : GridLines ν) (columnDef : Value ν) :
    Except Abrupt (Rect ν) := do
  let col := (← columnDef.member "col").coalesce (.nat 0)
  let row := (← columnDef.member "row").coalesce (.nat 0)
  let colSpan := (← columnDef.member "colSpan").coalesce (.nat 1)
  let rowSpan := (← columnDef.member "rowSpan").coalesce (.nat 1)
  let across ← sectionSpan lines.colStarts (column.get "x")
    ((column.get "x").add (column.get "width")) col colSpan
  let down ← sectionSpan lines.rowStarts lines.bodyY
    (lines.bodyY.add (.number lines.bodyHeight)) row rowSpan
  .ok { x := across.1, y := down.1, width := .number across.2, height := .number down.2 }

def calcColumnSections (column : Element ν) : Except Abrupt (List (Rect ν)) := do
  let lines ← gridLines column
  (← (sectionsOf column).items).mapM (sectionRect column lines)

/-! ### The notes in a container -/

/-- `grouped`: the notes of each key, the keys in the order in which they come in. -/
def pushNote (note : Element ν) (key : Value ν) :
    List (Value ν × List (Element ν)) → List (Value ν × List (Element ν))
  | [] => [(key, [note])]
  | (k, notes) :: groups =>
    if k.sameKey key then (k, notes ++ [note]) :: groups
    else (k, notes) :: pushNote note key groups

/-- The sizes of the notes in a cell, and the gap between two of them. -/
structure NoteSizes where
  minWidth : Nat
  defaultWidth : Nat
  minHeight : Nat
  maxHeight : Nat
  defaultHeight : Nat
  gap : Nat

/-- The loop `for (const note of ordered)`. -/
def stackNotes (sizes : NoteSizes) (x : Value ν) (cellWidth : ν) :
    Value ν → List (Element ν) → Except Abrupt (List (PreviewNote ν))
  | _, [] => .ok []
  | cursorY, note :: notes => do
    let wanted ← (((note.get "customWidth").coalesce (note.get "width")).coalesce
      (.nat sizes.defaultWidth)).toNumber
    let width := Arith.max (Arith.ofNat sizes.minWidth)
      (Arith.min (Arith.sub cellWidth (Arith.ofNat 8)) wanted)
    let computed ← ((note.get "computedLayoutHeight").coalesce (.nat sizes.defaultHeight)).toNumber
    let height := Arith.max (Arith.ofNat sizes.minHeight)
      (Arith.min (Arith.ofNat sizes.maxHeight) computed)
    let cursorY' ← cursorY.add (.number (Arith.add height (Arith.ofNat sizes.gap)))
    let rest ← stackNotes sizes x cellWidth cursorY' notes
    .ok ({ x := x, y := cursorY, width := .number width, height := .number height
           colorKey := colorKeyOf (note.get "color") } :: rest)

def inContainerOrder (notes : List (Element ν)) : Except Abrupt (List (Element ν)) :=
  sortByNumber (fun note => (note.get "containerOrder").coalesce (.nat 0)) notes

/-- `target.split(':')`: the first part, and the second if there is one. -/
def splitTarget (target : String) : String × Option String :=
  match target.toList.splitOn ':' with
  | [] => ("", none)
  | [a] => (String.ofList a, none)
  | a :: b :: _ => (String.ofList a, some (String.ofList b))

/-- `target.split(':')`, of any value: only texts have the method. -/
def splitValue : Value ν → Except Abrupt (String × Option String)
  | .string target => .ok (splitTarget target)
  | _ => .error .typeError

def columnNoteSizes : NoteSizes := ⟨20, 160, 26, 140, 74, 4⟩

/-- `subColumns > 1 ? Number(subIndexRaw ?? 0) : 0`. -/
def subIndexOf (subIndexRaw : Option String) (subColumns : ν) : ν :=
  if Arith.lt (Arith.ofNat 1) subColumns then
    match subIndexRaw with
    | some text => Arith.ofText text
    | none => Arith.ofNat 0
  else Arith.ofNat 0

/-- The notes in one section, or in one of its sub-columns. -/
def layoutSectionNotes (columnDef : Value ν) (rect : Rect ν) (subIndexRaw : Option String)
    (notes : List (Element ν)) : Except Abrupt (List (PreviewNote ν)) := do
  let subColumns ← ((← columnDef.member "subColumns").coalesce (.nat 1)).toNumber
  let subIndex := subIndexOf subIndexRaw subColumns
  let subWidth := Arith.div (← rect.width.toNumber) (Arith.max (Arith.ofNat 1) subColumns)
  let subX ← rect.x.add (.number (Arith.mul subIndex subWidth))
  let ordered ← inContainerOrder notes
  let cursorY ← rect.y.add (.nat 24)
  stackNotes columnNoteSizes (← subX.add (.nat 4)) subWidth cursorY ordered

/-- A map from ids, under a text: the last entry with that id. -/
def findById {α : Type} (ids : List (Value ν)) (entries : List α) (id : String) : Option α :=
  ((ids.zip entries).reverse.find? fun entry => entry.1.isText id).map Prod.snd

omit [Arith ν] in
theorem mem_of_findById {α : Type} {ids : List (Value ν)} {entries : List α} {id : String} {a : α}
    (h : findById ids entries id = some a) : a ∈ entries := by
  obtain ⟨entry, hfind, rfl⟩ := Option.map_eq_some_iff.mp h
  exact (List.of_mem_zip (List.mem_reverse.mp (List.mem_of_find?_eq_some hfind))).2

omit [Arith ν] in
theorem findById_map {α β : Type} (f : α → β) (ids : List (Value ν)) (entries : List α)
    (id : String) : findById ids (entries.map f) id = (findById ids entries id).map f := by
  unfold findById
  rw [List.zip_map_right, ← List.map_reverse, List.find?_map, Option.map_map, Option.map_map]
  rfl

def groupNote (groups : List (Value ν × List (Element ν))) (note : Element ν) :
    List (Value ν × List (Element ν)) :=
  if (note.get "containerColumnId").truthy then pushNote note (note.get "containerColumnId") groups
  else groups

/-- The notes that name a place in the column, by the name. -/
def groupNotes (notes : List (Element ν)) : List (Value ν × List (Element ν)) :=
  notes.foldl groupNote []

def layoutContainedNotes (column : Element ν) (notes : List (Element ν)) :
    Except Abrupt (List (PreviewNote ν)) := do
  let sections ← (sectionsOf column).items
  let ids ← sections.mapM fun columnDef => columnDef.member "id"
  let sectionRects ← calcColumnSections column
  let previewNotes ← (groupNotes notes).mapM fun group => do
    let target ← splitValue group.1
    match findById ids (sections.zip sectionRects) target.1 with
    | none => .ok []
    | some (columnDef, rect) => layoutSectionNotes columnDef rect target.2 group.2
  .ok previewNotes.flatten

/-! ### Tables -/

/-- `colX += col.width`, along the columns: where each one starts. -/
def columnStarts : Value ν → List (Value ν) → Except Abrupt (List (Value ν))
  | _, [] => .ok []
  | colX, col :: columns => do
    let colX' ← colX.add (← col.member "width")
    let starts ← columnStarts colX' columns
    .ok (colX :: starts)

/-- `colStartMap.get(col.id)` of the `k`-th column: where the last column with that id starts. An
    id that is an object is the id of its own column only. -/
def startById (ids starts : List (Value ν)) (k : Nat) : Value ν :=
  match (List.range ids.length).reverse.find? fun j =>
    j == k || (Value.itemAt ids j).sameKey (Value.itemAt ids k) with
  | some j => Value.itemAt starts j
  | none => .undefined

/-- `v.length === 0`. -/
def lengthZero (v : Value ν) : Except Abrupt Bool :=
  match v with
  | .array items => .ok items.isEmpty
  | .string s => .ok (s == "")
  | v => do
    match ← v.member "length" with
    | .number n => .ok (Arith.same n (Arith.ofNat 0))
    | _ => .ok false

def tableRowsOf (table : Element ν) : Value ν := (table.get "tableRows").coalesce (.array [])

/-- The sections of one row of a table. -/
def rowSections (table : Element ν) (columns ids colStarts : List (Value ν)) (rowIdx : Nat) :
    Except Abrupt (List (Rect ν)) := do
  let y ← (← (table.get "y").add (.nat 40)).add (.nat (rowIdx * 28))
  columns.zipIdx.mapM fun entry => do
    let width ← (← entry.1.member "width").toNumber
    .ok { x := (startById ids colStarts entry.2).coalesce (table.get "x"), y := y
          width := .number (Arith.max (Arith.ofNat 1) width), height := .nat 28 }

/-- `layoutTableContainedNotes` runs first and has thrown if the columns are no array. -/
def calcTableSections (table : Element ν) : Except Abrupt (List (Rect ν)) := do
  let columns ← ((table.get "tableColumns").coalesce (.array [])).items
  if columns.isEmpty then .ok []
  else if ← lengthZero (tableRowsOf table) then .ok []
  else do
    let ids ← columns.mapM fun col => col.member "id"
    let colStarts ← columnStarts (← (table.get "x").add (.nat 36)) columns
    let rows ← (tableRowsOf table).items
    let sections ← (List.range rows.length).mapM (rowSections table columns ids colStarts)
    .ok sections.flatten

/-- The columns of a table, where they are an array. -/
def columnsOf (table : Element ν) : List (Value ν) :=
  match (table.get "tableColumns").coalesce (.array []) with
  | .array columns => columns
  | _ => []

omit [Arith ν] in
theorem columnsOf_of_items {table : Element ν} {columns : List (Value ν)}
    (h : ((table.get "tableColumns").coalesce (.array [])).items = .ok columns) :
    columnsOf table = columns := by
  rw [columnsOf, Value.eq_array_of_items h]

/-- What the sections of a row are, one for each column. -/
theorem rowSections_eq_ok {table : Element ν} {columns ids colStarts : List (Value ν)}
    {rowIdx : Nat} {rects : List (Rect ν)}
    (h : rowSections table columns ids colStarts rowIdx = .ok rects) :
    ∃ y₁ y, (table.get "y").add (.nat 40) = .ok y₁ ∧ y₁.add (.nat (rowIdx * 28)) = .ok y ∧
      List.Forall₂ (fun (entry : Value ν × Nat) (rect : Rect ν) => ∃ width : ν,
        ((entry.1.member "width") >>= Value.toNumber) = .ok width ∧
        rect = ⟨(startById ids colStarts entry.2).coalesce (table.get "x"), y,
          .number (Arith.max (Arith.ofNat 1) width), .nat 28⟩) columns.zipIdx rects := by
  simp only [rowSections, bind_eq_ok] at h
  obtain ⟨y₁, hy₁, y, hy, hmap⟩ := h
  refine ⟨y₁, y, hy₁, hy, (mapM_eq_ok.mp hmap).imp ?_⟩
  intro entry rect hrect
  simp only [bind_eq_ok, Except.ok.injEq] at hrect ⊢
  obtain ⟨v, hv, width, hwidth, rfl⟩ := hrect
  exact ⟨width, ⟨v, hv, hwidth⟩, rfl⟩

/-- What `calcTableSections` has computed where it draws sections. -/
theorem calcTableSections_eq_ok {table : Element ν} {rects : List (Rect ν)}
    (h : calcTableSections table = .ok rects) (hcolumns : columnsOf table ≠ [])
    (hrows : lengthZero (tableRowsOf table) ≠ .ok true) :
    lengthZero (tableRowsOf table) = .ok false ∧ ∃ ids colX colStarts rows sections,
      (columnsOf table).mapM (fun col => col.member "id") = .ok ids ∧
      (table.get "x").add (.nat 36) = .ok colX ∧
      columnStarts colX (columnsOf table) = .ok colStarts ∧
      (tableRowsOf table).items = .ok rows ∧
      (List.range rows.length).mapM
        (rowSections table (columnsOf table) ids colStarts) = .ok sections ∧
      rects = sections.flatten := by
  obtain ⟨columns, hitems, h⟩ := bind_eq_ok.mp h
  rw [columnsOf_of_items hitems] at hcolumns ⊢
  rw [if_neg (by simpa using hcolumns)] at h
  obtain ⟨noRows, hno, h⟩ := bind_eq_ok.mp h
  cases noRows with
  | true => exact absurd hno hrows
  | false =>
    simp only [Bool.false_eq_true, if_false, bind_eq_ok, Except.ok.injEq] at h
    obtain ⟨ids, hids, colX, hcolX, colStarts, hstarts, rows, hrowItems, sections, hmap, rfl⟩ := h
    exact ⟨hno, ids, colX, colStarts, rows, sections, hids, hcolX, hstarts, hrowItems, hmap, rfl⟩

def tableNoteSizes : NoteSizes := ⟨16, 120, 18, 60, 28, 2⟩

/-- The second part of a target. -/
def rowValue : Option String → Value ν
  | some rowId => .string rowId
  | none => .undefined

def tableGroup (colIds rowIds : List (Value ν)) (groups : List (Value ν × List (Element ν)))
    (note : Element ν) : Except Abrupt (List (Value ν × List (Element ν))) :=
  if (note.get "containerColumnId").truthy then do
    let target ← splitValue (note.get "containerColumnId")
    if colIds.any (·.isText target.1) && rowIds.any (·.sameKey (rowValue target.2)) then
      .ok (pushNote note (.string (target.1 ++ ":" ++ target.2.getD "undefined")) groups)
    else .ok groups
  else .ok groups

/-- The notes that name a cell of a column and a row of the table, by the cell. -/
def tableGroups (colIds rowIds : List (Value ν)) (notes : List (Element ν)) :
    Except Abrupt (List (Value ν × List (Element ν))) :=
  notes.foldlM (tableGroup colIds rowIds) []

/-- The columns that hold notes. -/
def noteColumns (columns : List (Value ν)) : Except Abrupt (List (Value ν)) :=
  columns.filterM fun col => do
    let colType ← col.member "colType"
    .ok (colType.isText "NOTE")

/-- Where the last column with this id starts. -/
def startOfColumn (ids colStarts : List (Value ν)) (colId : String) : Value ν :=
  match (List.range ids.length).reverse.find? fun j => (Value.itemAt ids j).isText colId with
  | some j => Value.itemAt colStarts j
  | none => .undefined

/-- The notes of one cell: in the first column and the first row with these ids, but from where
    the last column with the id starts. -/
def layoutCellNotes (table : Element ν) (columns ids rowIds colStarts : List (Value ν))
    (target : String × Option String) (notes : List (Element ν)) :
    Except Abrupt (List (PreviewNote ν)) :=
  match ids.findIdx? (·.isText target.1),
    rowIds.findIdx? (·.isText (target.2.getD "undefined")) with
  | some k, some rowIndex => do
    let cursorY ← (← (← (table.get "y").add (.nat 40)).add (.nat (rowIndex * 28))).add (.nat 2)
    let startX ← ((startOfColumn ids colStarts target.1).coalesce (table.get "x")).add (.nat 2)
    let ordered ← inContainerOrder notes
    let cellWidth ← (← (Value.itemAt columns k).member "width").toNumber
    stackNotes tableNoteSizes startX cellWidth cursorY ordered
  | _, _ => .ok []

def layoutTableContainedNotes (table : Element ν) (notes : List (Element ν)) :
    Except Abrupt (List (PreviewNote ν)) := do
  let columns ← ((table.get "tableColumns").coalesce (.array [])).items
  let noteCols ← noteColumns columns
  if noteCols.isEmpty then .ok []
  else if ← lengthZero (tableRowsOf table) then .ok []
  else do
    let colSet ← noteCols.mapM fun col => col.member "id"
    let rowIds ← (← (tableRowsOf table).items).mapM fun row => row.member "id"
    let ids ← columns.mapM fun col => col.member "id"
    let colStarts ← columnStarts (← (table.get "x").add (.nat 36)) columns
    let grouped ← tableGroups colSet rowIds notes
    let preview ← grouped.mapM fun group => do
      let target ← splitValue group.1
      layoutCellNotes table columns ids rowIds colStarts target group.2
    .ok preview.flatten

/-! ### The model -/

def freeNote (note : Element ν) : PreviewNote ν :=
  { x := note.get "x"
    y := note.get "y"
    width := ((note.get "customWidth").coalesce (note.get "width")).coalesce (.nat 180)
    height := (note.get "computedLayoutHeight").coalesce (.nat 74)
    colorKey := colorKeyOf (note.get "color") }

def rectOf (e : Element ν) : Rect ν :=
  { x := e.get "x", y := e.get "y", width := e.get "width", height := e.get "height" }

def gridOf (calcSections : Element ν → Except Abrupt (List (Rect ν))) (e : Element ν) :
    Except Abrupt (PreviewGrid ν) :=
  (calcSections e).map fun sections => { rectOf e with sections := sections }

def notesIn (container : Element ν) (notes : List (Element ν)) : List (Element ν) :=
  notes.filter fun note => (note.get "containerId").isText container.id

/-- The layout of notes, columns and tables that are in order. -/
def layout (notes columns tables : List (Element ν)) : Except Abrupt (PreviewModel ν) := do
  let freeNotes := (notes.filter fun note => !(note.get "containerId").truthy).map freeNote
  let containedNotes ← columns.mapM fun column => layoutContainedNotes column (notesIn column notes)
  let tableContainedNotes ← tables.mapM fun table =>
    layoutTableContainedNotes table (notesIn table notes)
  let grids ← columns.mapM (gridOf calcColumnSections)
  let tableGrids ← tables.mapM (gridOf calcTableSections)
  .ok { notes := freeNotes ++ containedNotes.flatten ++ tableContainedNotes.flatten
        grids := grids ++ tableGrids }

def ofKind (localeCompare : String → String → Int) (kind : String) (rows : List RawElementRow) :
    List (Element ν) :=
  sortById localeCompare ((rows.map normalizeElement).filter fun item => item.kind == kind)

theorem mem_ofKind {localeCompare : String → String → Int} {kind : String}
    {rows : List RawElementRow} {e : Element ν} :
    e ∈ ofKind localeCompare kind rows ↔
      (∃ row ∈ rows, normalizeElement row = e) ∧ e.kind = kind := by
  unfold ofKind sortById
  rw [List.mem_mergeSort, List.mem_filter, List.mem_map, beq_iff_eq]

def buildBoardPreviewModel (localeCompare : String → String → Int) (rows : List RawElementRow) :
    Except Abrupt (PreviewModel ν) :=
  layout (ofKind localeCompare "NOTE" rows) (ofKind localeCompare "COLUMN" rows)
    (ofKind localeCompare "TABLE" rows)

/-! ### The version -/

def rectMembers (rect : Rect ν) : List (String × Value ν) :=
  [("x", rect.x), ("y", rect.y), ("width", rect.width), ("height", rect.height)]

def noteValue (note : PreviewNote ν) : Value ν :=
  .object (rectMembers note.toRect ++ [("colorKey", .string note.colorKey.1)])

def gridValue (grid : PreviewGrid ν) : Value ν :=
  .object (rectMembers grid.toRect ++
    [("sections", .array (grid.sections.map fun rect => .object (rectMembers rect)))])

def modelValue (model : PreviewModel ν) : Value ν :=
  .object [("notes", .array (model.notes.map noteValue)),
    ("grids", .array (model.grids.map gridValue))]

/-- `charCodeAt`, along a text. -/
def codeUnits (s : String) : List Nat :=
  s.toList.flatMap fun c =>
    if c.toNat < 0x10000 then [c.toNat]
    else [0xd800 + (c.toNat - 0x10000) / 0x400, 0xdc00 + (c.toNat - 0x10000) % 0x400]

def hashString (input : String) : String :=
  let hash := (codeUnits input).foldl
    (fun hash unit => (hash ^^^ UInt32.ofNat unit) * 16777619) (2166136261 : UInt32)
  String.ofList (Nat.toDigits 16 hash.toNat)

def getBoardPreviewVersion (model : PreviewModel ν) : String :=
  hashString ((modelValue model).stringify.getD "")

/-! ### The SVG -/

/-- A piece of the text: of the template, or a value that is put into an attribute. -/
inductive Part where
  | literal (text : String)
  | value (text : String)
deriving DecidableEq, Repr

def Part.text : Part → String
  | .literal text => text
  | .value text => text

abbrev Svg := List Part

def Svg.text (svg : Svg) : String := String.join (List.map Part.text svg)

/-- The matrix `scale 0 0 scale tx ty`. -/
structure Transform (ν : Type) where
  scale : ν
  tx : ν
  ty : ν

/-- `Math.min(...vs)` and `Math.max(...vs)`, and the default where there is nothing to compare. -/
def extreme (choose : ν → ν → ν) (default_ : ν) : List ν → ν
  | [] => default_
  | v :: vs => vs.foldl choose v

def allRects (model : PreviewModel ν) : List (Rect ν) :=
  model.grids.map PreviewGrid.toRect ++ model.notes.map PreviewNote.toRect

/-- One axis of the page: `minX`, and `sourceWidth`. -/
def extent (size : ν) (starts stops : List (Value ν)) : Except Abrupt (ν × ν) := do
  let low := extreme Arith.min (Arith.ofNat 0) (← starts.mapM Value.toNumber)
  let high := extreme Arith.max size (← stops.mapM Value.toNumber)
  .ok (low, Arith.max (Arith.ofNat 1) (Arith.add (Arith.sub high low) (Arith.ofNat 16)))

/-- `offset - (min - 8) * scale`, where the offset centres what is drawn. -/
def translation (size source scale low : ν) : ν :=
  Arith.sub (Arith.div (Arith.sub size (Arith.mul source scale)) (Arith.ofNat 2))
    (Arith.mul (Arith.sub low (Arith.ofNat 8)) scale)

def transformOf (model : PreviewModel ν) (width height : ν) : Except Abrupt (Transform ν) := do
  let rects := allRects model
  let rights ← rects.mapM fun rect => rect.x.add rect.width
  let bottoms ← rects.mapM fun rect => rect.y.add rect.height
  let (minX, sourceWidth) ← extent width (rects.map Rect.x) rights
  let (minY, sourceHeight) ← extent height (rects.map Rect.y) bottoms
  let scale := Arith.min (Arith.div width sourceWidth) (Arith.div height sourceHeight)
  .ok { scale := scale
        tx := translation width sourceWidth scale minX
        ty := translation height sourceHeight scale minY }

/-- `<rect x=".." y=".." width=".." height="..`, and how it is painted. -/
def rectParts (rect : Rect ν) (paint : List Part) : Except Abrupt (List Part) := do
  let x ← rect.x.toText
  let y ← rect.y.toText
  let width ← rect.width.toText
  let height ← rect.height.toText
  .ok ([.literal "<rect x=\"", .value x, .literal "\" y=\"", .value y, .literal "\" width=\"",
    .value width, .literal "\" height=\"", .value height] ++ paint)

def gridPaint : List Part :=
  [.literal ("\" rx=\"8\" fill=\"var(--preview-grid-fill)\"" ++
    " stroke=\"var(--preview-grid-stroke)\" stroke-width=\"1.5\"/>")]

def sectionPaint : List Part :=
  [.literal "\" fill=\"none\" stroke=\"var(--preview-section-stroke)\" stroke-width=\"1\"/>"]

def notePaint (colorKey : String) : List Part :=
  [.literal "\" rx=\"6\" fill=\"var(--preview-note-", .value colorKey,
   .literal ")\" stroke=\"var(--preview-note-stroke)\" stroke-width=\"0.5\"/>"]

def gridShape (grid : PreviewGrid ν) : Except Abrupt (List Part) := do
  let shape ← rectParts grid.toRect gridPaint
  let sections ← grid.sections.mapM fun rect => rectParts rect sectionPaint
  .ok (shape ++ sections.flatten)

def noteShape (note : PreviewNote ν) : Except Abrupt (List Part) :=
  rectParts note.toRect (notePaint note.colorKey.1)

def renderBoardPreviewSvg (model : PreviewModel ν) (width height : ν) : Except Abrupt Svg := do
  let transform ← transformOf model width height
  let gridShapes ← model.grids.mapM gridShape
  let noteShapes ← model.notes.mapM noteShape
  let w := Part.value (Arith.toText width)
  let h := Part.value (Arith.toText height)
  let scale := Part.value (Arith.toText transform.scale)
  .ok ([.literal "<svg xmlns=\"http://www.w3.org/2000/svg\" viewBox=\"0 0 ", w, .literal " ", h,
      .literal "\" width=\"", w, .literal "\" height=\"", h, .literal "\"><rect width=\"", w,
      .literal "\" height=\"", h,
      .literal "\" fill=\"var(--preview-bg)\"/><g transform=\"matrix(", scale, .literal " 0 0 ",
      scale, .literal " ", .value (Arith.toText transform.tx), .literal " ",
      .value (Arith.toText transform.ty), .literal ")\">"] ++
    gridShapes.flatten ++ noteShapes.flatten ++ [.literal "</g></svg>"])

structure Rendered where
  svg : String
  version : String
deriving DecidableEq, Repr

/-- The SVG of the rows, in its parts. -/
def previewSvg (ν : Type) [Arith ν] (localeCompare : String → String → Int)
    (rows : List RawElementRow) : Except Abrupt Svg := do
  let model : PreviewModel ν ← buildBoardPreviewModel localeCompare rows
  renderBoardPreviewSvg model (Arith.ofNat 320) (Arith.ofNat 200)

def render (ν : Type) [Arith ν] (localeCompare : String → String → Int)
    (rows : List RawElementRow) : Except Abrupt Rendered := do
  let model : PreviewModel ν ← buildBoardPreviewModel localeCompare rows
  let svg ← renderBoardPreviewSvg model (Arith.ofNat 320) (Arith.ofNat 200)
  .ok { svg := svg.text, version := getBoardPreviewVersion model }

/-! ### The order of the rows -/

/-- `localeCompare` orders all texts, and no two of the ids are equal for it. -/
structure OrdersIds (localeCompare : String → String → Int) (ids : List String) : Prop where
  total : ∀ a b, localeCompare a b ≤ 0 ∨ localeCompare b a ≤ 0
  trans : ∀ a b c, localeCompare a b ≤ 0 → localeCompare b c ≤ 0 → localeCompare a c ≤ 0
  separates : ∀ a ∈ ids, ∀ b ∈ ids, localeCompare a b ≤ 0 → localeCompare b a ≤ 0 → a = b

omit [Arith ν] in
/-- Sorted by their ids, elements with distinct ids are in one order only. -/
theorem sortById_perm {localeCompare : String → String → Int} {items items' : List (Element ν)}
    (horder : OrdersIds localeCompare (items.map Element.id))
    (hdistinct : (items.map Element.id).Nodup) (hperm : items.Perm items') :
    sortById localeCompare items = sortById localeCompare items' := by
  let le := fun a b : Element ν => decide (localeCompare a.id b.id ≤ 0)
  have hsorted : ∀ l : List (Element ν), (l.mergeSort le).Pairwise fun a b => le a b = true := by
    intro l
    refine List.pairwise_mergeSort ?_ ?_ l
    · intro a b c hab hbc
      simp only [le, decide_eq_true_eq] at hab hbc ⊢
      exact horder.trans _ _ _ hab hbc
    · intro a b
      simpa [le] using horder.total a.id b.id
  have hperm' : (items.mergeSort le).Perm (items'.mergeSort le) :=
    (List.mergeSort_perm items le).trans (hperm.trans (List.mergeSort_perm items' le).symm)
  refine List.Perm.eq_of_pairwise ?_ (hsorted items) (hsorted items') hperm'
  intro a b ha hb hab hba
  have ha' : a ∈ items := (List.mergeSort_perm items le).mem_iff.mp ha
  have hb' : b ∈ items := hperm.mem_iff.mpr ((List.mergeSort_perm items' le).mem_iff.mp hb)
  have hid : a.id = b.id := by
    simp only [le, decide_eq_true_eq] at hab hba
    exact horder.separates a.id (List.mem_map_of_mem ha') b.id (List.mem_map_of_mem hb') hab hba
  exact List.inj_on_of_nodup_map hdistinct ha' hb' hid

/-- Rows in another order have the same elements of each kind, in the same order. -/
theorem ofKind_perm {localeCompare : String → String → Int} {rows rows' : List RawElementRow}
    (horder : OrdersIds localeCompare (rows.map RawElementRow.id))
    (hdistinct : (rows.map RawElementRow.id).Nodup) (hperm : rows.Perm rows') (kind : String) :
    (ofKind localeCompare kind rows : List (Element ν)) = ofKind localeCompare kind rows' := by
  have hids : (rows.map (normalizeElement : RawElementRow → Element ν)).map Element.id
      = rows.map RawElementRow.id := by
    rw [List.map_map]
    rfl
  have hsub : (((rows.map normalizeElement).filter fun item : Element ν => item.kind == kind).map
      Element.id).Sublist (rows.map RawElementRow.id) := by
    rw [← hids]
    exact List.filter_sublist.map _
  refine sortById_perm ⟨horder.total, horder.trans, ?_⟩ (hdistinct.sublist hsub)
    ((hperm.map _).filter _)
  intro a ha b hb
  exact horder.separates a (hsub.subset ha) b (hsub.subset hb)

/-- The preview does not depend on the order in which the rows are read. -/
theorem render_perm {localeCompare : String → String → Int} {rows rows' : List RawElementRow}
    (horder : OrdersIds localeCompare (rows.map RawElementRow.id))
    (hdistinct : (rows.map RawElementRow.id).Nodup) (hperm : rows.Perm rows') :
    render ν localeCompare rows = render ν localeCompare rows' := by
  have hmodel : (buildBoardPreviewModel localeCompare rows : Except Abrupt (PreviewModel ν))
      = buildBoardPreviewModel localeCompare rows' := by
    unfold buildBoardPreviewModel
    rw [ofKind_perm horder hdistinct hperm "NOTE", ofKind_perm horder hdistinct hperm "COLUMN",
      ofKind_perm horder hdistinct hperm "TABLE"]
  unfold render
  rw [hmodel]

/-- The shorter id first. -/
def byLength (a b : String) : Int := a.toList.length - b.toList.length

theorem render_perm_two_notes :
    render Exact byLength [⟨"a", "NOTE", .obj [("x", .num 1), ("y", .num 2)]⟩,
        ⟨"bb", "NOTE", .obj [("x", .num 3), ("y", .num 4)]⟩]
      = render Exact byLength [⟨"bb", "NOTE", .obj [("x", .num 3), ("y", .num 4)]⟩,
        ⟨"a", "NOTE", .obj [("x", .num 1), ("y", .num 2)]⟩] := by
  refine render_perm ⟨?_, ?_, ?_⟩ (by decide) (List.Perm.swap _ _ _)
  · intro a b
    unfold byLength
    omega
  · intro a b c
    unfold byLength
    omega
  · decide

end Notebortt.Previews
