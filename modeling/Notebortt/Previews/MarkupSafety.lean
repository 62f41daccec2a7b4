import Notebortt.Previews.BoardPreview
import Notebortt.Lib.ExactNumber
import Notebortt.Mutations.AcceptedPayloads

/-! # The markup of a preview

    Which fields of an element reach the SVG of a preview as they are, and when
    no text that is put into an attribute has a character of the markup. -/

namespace Notebortt.Previews

open Js

variable {ν : Type} [Arith ν]

/-! ### Markup -/

/-- None of the characters that end an attribute or begin a tag or an entity. -/
def isPlainChar (c : Char) : Bool := !(['"', '<', '>', '&'].contains c)

/-- No text that is put into an attribute can end it or begin anything else. -/
def MarkupSafe (svg : Svg) : Prop := ∀ text, Part.value text ∈ svg → AllChars isPlainChar text

instance (text : String) : Decidable (AllChars isPlainChar text) :=
  decidable_of_iff (text.toList.all isPlainChar = true) List.all_eq_true

abbrev Plain (v : Value ν) : Prop := v.Over isPlainChar

theorem isPlainChar_of_isWordChar (c : Char) (h : isWordChar c = true) : isPlainChar c = true := by
  unfold isPlainChar
  rw [Bool.not_eq_true', ← Bool.not_eq_true]
  intro hmem
  have hall : ['"', '<', '>', '&'].all (fun c => !isWordChar c) = true := by decide
  have hnot := List.all_eq_true.mp hall c (List.contains_iff_mem.mp hmem)
  simp [h] at hnot

theorem plain_number (n : ν) : Plain (.number n) := Value.over_number isPlainChar_of_isWordChar n

theorem plain_nat (n : Nat) : Plain (.nat n : Value ν) := plain_number _

theorem plain_add {a b c : Value ν} (h : a.add b = .ok c) : Plain c ↔ Plain a ∧ Plain b :=
  Value.over_add isPlainChar_of_isWordChar h

/-- A number that is added changes nothing. -/
theorem plain_add_number {a c : Value ν} {n : ν} (h : a.add (.number n) = .ok c) :
    Plain c ↔ Plain a := by
  rw [plain_add h, and_iff_left (plain_number n)]

theorem plain_itemAt {xs : List (Value ν)} (h : ∀ x ∈ xs, Plain x) (i : Nat) :
    Plain (Value.itemAt xs i) :=
  Value.over_itemAt isPlainChar_of_isWordChar h i

theorem plain_undefined : Plain (.undefined : Value ν) :=
  Value.over_undefined isPlainChar_of_isWordChar

structure PlainRect (rect : Rect ν) : Prop where
  x : Plain rect.x
  y : Plain rect.y
  width : Plain rect.width
  height : Plain rect.height

/-! ### Columns -/

theorem plain_startsFrom {size total : Value ν} {weights : List (Value ν)} {steps i : Nat}
    {acc : Value ν} {starts : List (Value ν)} (hacc : Plain acc)
    (h : startsFrom size total weights steps i acc = .ok starts) : ∀ v ∈ starts, Plain v := by
  induction steps generalizing i acc starts with
  | zero =>
    cases h
    intro v hv
    cases hv
  | succ steps ih =>
    unfold startsFrom at h
    simp only [bind_eq_ok, Except.ok.injEq] at h
    obtain ⟨share, _, length, _, acc', hadd, rest, hrest, rfl⟩ := h
    have hacc' : Plain acc' := (plain_add_number hadd).mpr hacc
    intro v hv
    rcases List.mem_cons.mp hv with rfl | hv
    · exact hacc
    · exact ih hacc' hrest v hv

theorem plain_starts {count size total start : Value ν} {weights xs : List (Value ν)}
    (hstart : Plain start) (h : starts count size total start weights = .ok xs) :
    ∀ v ∈ xs, Plain v := by
  obtain ⟨n, _, hrest⟩ := bind_eq_ok.mp h
  cases hbelow : Arith.below n with
  | none => simp [hbelow] at hrest
  | some steps =>
    rw [hbelow] at hrest
    exact plain_startsFrom hstart hrest

structure PlainLines (lines : GridLines ν) : Prop where
  bodyY : Plain lines.bodyY
  colStarts : ∀ v ∈ lines.colStarts, Plain v
  rowStarts : ∀ v ∈ lines.rowStarts, Plain v

theorem plain_gridLines {column : Element ν} {lines : GridLines ν} (hx : Plain (column.get "x"))
    (hy : Plain (column.get "y")) (h : gridLines column = .ok lines) : PlainLines lines := by
  simp only [gridLines, bind_eq_ok, Except.ok.injEq] at h
  obtain ⟨_, _, _, _, _, _, _, _, bodyY, hbody, _, _, colStarts, hcols, rowStarts, hrows, rfl⟩ := h
  have hbodyY : Plain bodyY := (plain_add_number hbody).mpr hy
  exact ⟨hbodyY, plain_starts hx hcols, plain_starts hbodyY hrows⟩

theorem plain_sectionSpan {starts : List (Value ν)} {start position span : Value ν}
    {stop : Except Abrupt (Value ν)} {r : Value ν × ν} (hstarts : ∀ v ∈ starts, Plain v)
    (hstart : Plain start) (h : sectionSpan starts start stop position span = .ok r) :
    Plain r.1 := by
  simp only [sectionSpan, bind_eq_ok, Except.ok.injEq] at h
  obtain ⟨found, hfound, _, _, _, _, _, _, _, _, rfl⟩ := h
  exact Value.over_coalesce (Value.over_item isPlainChar_of_isWordChar hstarts hfound) hstart

theorem plain_sectionRect {column : Element ν} {lines : GridLines ν} {columnDef : Value ν}
    {rect : Rect ν} (hx : Plain (column.get "x")) (hlines : PlainLines lines)
    (h : sectionRect column lines columnDef = .ok rect) : PlainRect rect := by
  simp only [sectionRect, bind_eq_ok, Except.ok.injEq] at h
  obtain ⟨_, _, _, _, _, _, _, _, across, hacross, down, hdown, rfl⟩ := h
  exact ⟨plain_sectionSpan hlines.colStarts hx hacross,
    plain_sectionSpan hlines.rowStarts hlines.bodyY hdown, plain_number _, plain_number _⟩

/-- The sections of a column have no text but that of its `x` and its `y`. -/
theorem plain_calcColumnSections {column : Element ν} {rects : List (Rect ν)}
    (hx : Plain (column.get "x")) (hy : Plain (column.get "y"))
    (h : calcColumnSections column = .ok rects) : ∀ rect ∈ rects, PlainRect rect := by
  obtain ⟨lines, hlines, hrest⟩ := bind_eq_ok.mp h
  obtain ⟨items, _, hmap⟩ := bind_eq_ok.mp hrest
  intro rect hrect
  obtain ⟨columnDef, _, heq⟩ := forall₂_exists_left (mapM_eq_ok.mp hmap) hrect
  exact plain_sectionRect hx (plain_gridLines hx hy hlines) heq

/-! ### Notes in a container -/

theorem plain_stackNotes {sizes : NoteSizes} {x cursorY : Value ν} {cellWidth : ν}
    {notes : List (Element ν)} {drawn : List (PreviewNote ν)} (hx : Plain x) (hy : Plain cursorY)
    (h : stackNotes sizes x cellWidth cursorY notes = .ok drawn) :
    ∀ note ∈ drawn, PlainRect note.toRect := by
  induction notes generalizing cursorY drawn with
  | nil =>
    cases h
    intro note hnote
    cases hnote
  | cons note notes ih =>
    simp only [stackNotes, bind_eq_ok, Except.ok.injEq] at h
    obtain ⟨_, _, _, _, cursorY', hadd, rest, hrest, rfl⟩ := h
    intro note' hnote'
    rcases List.mem_cons.mp hnote' with rfl | hmem
    · exact ⟨hx, hy, plain_number _, plain_number _⟩
    · exact ih ((plain_add_number hadd).mpr hy) hrest note' hmem

theorem plain_layoutSectionNotes {columnDef : Value ν} {rect : Rect ν} {subIndexRaw : Option String}
    {notes : List (Element ν)} {drawn : List (PreviewNote ν)} (hrect : PlainRect rect)
    (h : layoutSectionNotes columnDef rect subIndexRaw notes = .ok drawn) :
    ∀ note ∈ drawn, PlainRect note.toRect := by
  simp only [layoutSectionNotes, bind_eq_ok] at h
  obtain ⟨_, _, _, _, _, _, subX, hsub, _, _, cursorY, hcursor, x, hx, hstack⟩ := h
  have hplain : Plain subX := (plain_add_number hsub).mpr hrect.x
  exact plain_stackNotes ((plain_add_number hx).mpr hplain)
    ((plain_add_number hcursor).mpr hrect.y) hstack

theorem plain_layoutContainedNotes {column : Element ν} {notes : List (Element ν)}
    {drawn : List (PreviewNote ν)} (hx : Plain (column.get "x")) (hy : Plain (column.get "y"))
    (h : layoutContainedNotes column notes = .ok drawn) :
    ∀ note ∈ drawn, PlainRect note.toRect := by
  simp only [layoutContainedNotes, bind_eq_ok, Except.ok.injEq] at h
  obtain ⟨_, _, _, _, rects, hrects, cells, hcells, rfl⟩ := h
  intro note hnote
  obtain ⟨cell, hcell, hmem⟩ := List.mem_flatten.mp hnote
  obtain ⟨group, _, hgroup⟩ := forall₂_exists_left (mapM_eq_ok.mp hcells) hcell
  obtain ⟨target, _, hfind⟩ := bind_eq_ok.mp hgroup
  split at hfind
  · cases hfind
    cases hmem
  · rename_i columnDef rect hsome
    have hrect := plain_calcColumnSections hx hy hrects rect
      (List.of_mem_zip (mem_of_findById hsome)).2
    exact plain_layoutSectionNotes hrect hfind note hmem

/-! ### Tables -/

/-- The widths that are added to the text of a start: all but the last. -/
def addedWidths (columns : List (Value ν)) : List (Value ν) :=
  columns.dropLast.filterMap fun col => (col.member "width").toOption

theorem addedWidths_cons {col next : Value ν} {columns : List (Value ν)} {width : Value ν}
    (h : col.member "width" = .ok width) :
    addedWidths (col :: next :: columns) = width :: addedWidths (next :: columns) := by
  simp [addedWidths, h, Except.toOption]

/-- Where the last column starts: the text of it has the text of every width before. -/
theorem plain_last_columnStarts {colX : Value ν} {columns starts : List (Value ν)}
    (h : columnStarts colX columns = .ok starts) (hne : columns ≠ []) :
    Plain (Value.itemAt starts (columns.length - 1)) ↔
      Plain colX ∧ ∀ width ∈ addedWidths columns, Plain width := by
  induction columns generalizing colX starts with
  | nil => exact absurd rfl hne
  | cons col columns ih =>
    simp only [columnStarts, bind_eq_ok, Except.ok.injEq] at h
    obtain ⟨width, hwidth, colX', hadd, rest, hrest, rfl⟩ := h
    cases columns with
    | nil => simp [Value.itemAt, addedWidths]
    | cons next columns =>
      have hlast := ih hrest (List.cons_ne_nil _ _)
      rw [plain_add hadd] at hlast
      rw [addedWidths_cons hwidth, List.forall_mem_cons, ← and_assoc, ← hlast]
      simp [Value.itemAt]

/-- Every column starts behind widths that are added. -/
theorem plain_columnStarts {colX : Value ν} {columns starts : List (Value ν)}
    (hx : Plain colX) (hwidths : ∀ width ∈ addedWidths columns, Plain width)
    (h : columnStarts colX columns = .ok starts) : ∀ v ∈ starts, Plain v := by
  induction columns generalizing colX starts with
  | nil =>
    cases h
    intro v hv
    cases hv
  | cons col columns ih =>
    simp only [columnStarts, bind_eq_ok, Except.ok.injEq] at h
    obtain ⟨width, hwidth, colX', hadd, rest, hrest, rfl⟩ := h
    intro v hv
    rcases List.mem_cons.mp hv with rfl | hv
    · exact hx
    · cases columns with
      | nil =>
        cases hrest
        cases hv
      | cons next columns =>
        rw [addedWidths_cons hwidth, List.forall_mem_cons] at hwidths
        exact ih ((plain_add hadd).mpr ⟨hx, hwidths.1⟩) hwidths.2 hrest v hv

theorem length_columnStarts {colX : Value ν} {columns starts : List (Value ν)}
    (h : columnStarts colX columns = .ok starts) : starts.length = columns.length := by
  induction columns generalizing colX starts with
  | nil =>
    cases h
    rfl
  | cons col columns ih =>
    simp only [columnStarts, bind_eq_ok, Except.ok.injEq] at h
    obtain ⟨_, _, _, _, rest, hrest, rfl⟩ := h
    rw [List.length_cons, ih hrest, List.length_cons]

/-- A column that is found by its id starts where some column does. -/
theorem plain_startById {ids starts : List (Value ν)} {k : Nat} (h : ∀ v ∈ starts, Plain v) :
    Plain (startById ids starts k) := by
  unfold startById
  split
  · exact plain_itemAt h _
  · exact plain_undefined

/-- The last column is found by its id. -/
theorem startById_last {ids : List (Value ν)} (starts : List (Value ν)) (hne : ids ≠ []) :
    startById ids starts (ids.length - 1) = Value.itemAt starts (ids.length - 1) := by
  have hpos : 0 < ids.length := List.length_pos_of_ne_nil hne
  have hrange : (List.range ids.length).reverse
      = (ids.length - 1) :: (List.range (ids.length - 1)).reverse := by
    conv_lhs => rw [show ids.length = (ids.length - 1) + 1 by omega]
    rw [List.range_succ, List.reverse_append]
    rfl
  unfold startById
  rw [hrange, List.find?_cons_of_pos (by simp)]

/-- The widths in the texts of a table: none where no row is drawn. -/
def printedWidths (table : Element ν) : List (Value ν) :=
  if lengthZero (tableRowsOf table) = .ok true then [] else addedWidths (columnsOf table)

structure PlainTable (table : Element ν) : Prop where
  x : Plain (table.get "x")
  y : Plain (table.get "y")
  widths : ∀ width ∈ printedWidths table, Plain width

theorem PlainTable.addedWidths {table : Element ν} (h : PlainTable table) {columns : List (Value ν)}
    (hcolumns : columnsOf table = columns) (hrows : lengthZero (tableRowsOf table) = .ok false) :
    ∀ width ∈ addedWidths columns, Plain width := by
  have hwidths := h.widths
  rw [printedWidths, if_neg (by simp [hrows]), hcolumns] at hwidths
  exact hwidths

theorem plain_layoutCellNotes {table : Element ν} {columns ids rowIds colStarts : List (Value ν)}
    {target : String × Option String} {notes : List (Element ν)} {drawn : List (PreviewNote ν)}
    (hx : Plain (table.get "x")) (hy : Plain (table.get "y")) (hstarts : ∀ v ∈ colStarts, Plain v)
    (h : layoutCellNotes table columns ids rowIds colStarts target notes = .ok drawn) :
    ∀ note ∈ drawn, PlainRect note.toRect := by
  unfold layoutCellNotes at h
  split at h
  · simp only [bind_eq_ok] at h
    obtain ⟨y₁, hy₁, y₂, hy₂, cursorY, hcursor, startX, hstart, _, _, _, _, _, _, hstack⟩ := h
    have hplainY : Plain cursorY := by
      rw [plain_add_number hcursor, plain_add_number hy₂, plain_add_number hy₁]
      exact hy
    refine plain_stackNotes ((plain_add_number hstart).mpr (Value.over_coalesce ?_ hx)) hplainY
      hstack
    unfold startOfColumn
    split
    · exact plain_itemAt hstarts _
    · exact plain_undefined
  · cases h
    intro note hnote
    cases hnote

theorem plain_layoutTableContainedNotes {table : Element ν} {notes : List (Element ν)}
    {drawn : List (PreviewNote ν)} (hplain : PlainTable table)
    (h : layoutTableContainedNotes table notes = .ok drawn) :
    ∀ note ∈ drawn, PlainRect note.toRect := by
  obtain ⟨columns, hcolumns, h⟩ := bind_eq_ok.mp h
  obtain ⟨noteCols, _, h⟩ := bind_eq_ok.mp h
  split at h
  · cases h
    intro note hnote
    cases hnote
  · obtain ⟨noRows, hrows, h⟩ := bind_eq_ok.mp h
    cases noRows with
    | true =>
      cases h
      intro note hnote
      cases hnote
    | false =>
      simp only [Bool.false_eq_true, if_false, bind_eq_ok, Except.ok.injEq] at h
      obtain ⟨_, _, _, _, _, _, _, _, colX, hcolX, starts, hstarts, _, _, cells, hcells, rfl⟩ := h
      have hplainStarts := plain_columnStarts ((plain_add_number hcolX).mpr hplain.x)
        (hplain.addedWidths (columnsOf_of_items hcolumns) hrows) hstarts
      intro note hnote
      obtain ⟨cell, hcell, hmem⟩ := List.mem_flatten.mp hnote
      obtain ⟨group, _, hgroup⟩ := forall₂_exists_left (mapM_eq_ok.mp hcells) hcell
      obtain ⟨target, _, hdrawn⟩ := bind_eq_ok.mp hgroup
      exact plain_layoutCellNotes hplain.x hplain.y hplainStarts hdrawn note hmem

/-- The sections of a table have no text but that of its `x`, its `y` and the widths added. -/
theorem plain_calcTableSections {table : Element ν} {rects : List (Rect ν)}
    (hplain : PlainTable table) (h : calcTableSections table = .ok rects) :
    ∀ rect ∈ rects, PlainRect rect := by
  by_cases hcolumns : columnsOf table = []
  · obtain ⟨columns, hitems, h⟩ := bind_eq_ok.mp h
    rw [columnsOf_of_items hitems] at hcolumns
    rw [if_pos (by simp [hcolumns])] at h
    cases h
    simp
  · by_cases hrows : lengthZero (tableRowsOf table) = .ok true
    · obtain ⟨columns, hitems, h⟩ := bind_eq_ok.mp h
      rw [columnsOf_of_items hitems] at hcolumns
      rw [if_neg (by simpa using hcolumns), hrows] at h
      cases h
      simp
    · obtain ⟨hno, ids, colX, colStarts, rows, sections, _, hcolX, hstarts, _, hmap, rfl⟩ :=
        calcTableSections_eq_ok h hcolumns hrows
      have hplainStarts := plain_columnStarts ((plain_add_number hcolX).mpr hplain.x)
        (hplain.addedWidths rfl hno) hstarts
      intro rect hrect
      obtain ⟨row, hrow, hmem⟩ := List.mem_flatten.mp hrect
      obtain ⟨rowIdx, _, hsections⟩ := forall₂_exists_left (mapM_eq_ok.mp hmap) hrow
      obtain ⟨y₁, y, hy₁, hy, hall⟩ := rowSections_eq_ok hsections
      obtain ⟨entry, _, width, _, rfl⟩ := forall₂_exists_left hall hmem
      have hplainY : Plain y := by
        rw [plain_add_number hy, plain_add_number hy₁]
        exact hplain.y
      exact ⟨Value.over_coalesce (plain_startById hplainStarts) hplain.x, hplainY, plain_number _,
        plain_nat _⟩

theorem nullish_columnStarts {colX : Value ν} {columns starts : List (Value ν)}
    (hx : colX.nullish = false) (h : columnStarts colX columns = .ok starts) :
    ∀ v ∈ starts, v.nullish = false := by
  induction columns generalizing colX starts with
  | nil =>
    cases h
    simp
  | cons col columns ih =>
    simp only [columnStarts, bind_eq_ok, Except.ok.injEq] at h
    obtain ⟨width, _, colX', hadd, rest, hrest, rfl⟩ := h
    exact List.forall_mem_cons.mpr ⟨hx, ih (Value.nullish_add hadd) hrest⟩

/-- Where a row is drawn, its last section shows every width that is added. -/
theorem plain_printedWidths {table : Element ν} {rects : List (Rect ν)}
    (h : calcTableSections table = .ok rects) (hall : ∀ rect ∈ rects, Plain rect.x) :
    ∀ width ∈ printedWidths table, Plain width := by
  unfold printedWidths
  split
  · simp
  · rename_i hrows
    by_cases hcolumns : columnsOf table = []
    · rw [hcolumns]
      simp [addedWidths]
    · obtain ⟨hno, ids, colX, colStarts, rows, sections, hids, hcolX, hstarts, hitems, hmap, rfl⟩ :=
        calcTableSections_eq_ok h hcolumns hrows
      have hpos : 0 < rows.length := by
        rw [Value.eq_array_of_items hitems] at hno
        simpa [lengthZero, List.length_pos_iff] using hno
      -- There is a row and a column, so there is a last section.
      have hlen : ids.length = (columnsOf table).length := (mapM_eq_ok.mp hids).length_eq.symm
      have hcolPos : 0 < (columnsOf table).length := List.length_pos_of_ne_nil hcolumns
      have hlt : (columnsOf table).length - 1 < (columnsOf table).length := by omega
      -- The last section of the first row.
      obtain ⟨row, hrow, hsections⟩ :=
        forall₂_exists_right (mapM_eq_ok.mp hmap) (List.mem_range.mpr hpos)
      obtain ⟨y₁, y, _, _, hrects⟩ := rowSections_eq_ok hsections
      have hentry :
          ((columnsOf table)[(columnsOf table).length - 1], (columnsOf table).length - 1) ∈
            (columnsOf table).zipIdx :=
        List.mem_zipIdx_iff_getElem?.mpr (by simp [hlt])
      obtain ⟨rect, hrect, width, _, heq⟩ := forall₂_exists_right hrects hentry
      have hx : Plain rect.x := hall rect (List.mem_flatten.mpr ⟨row, hrow, hrect⟩)
      have hstart : rect.x = Value.itemAt colStarts ((columnsOf table).length - 1) := by
        have hids' : ids ≠ [] := List.ne_nil_of_length_pos (by omega)
        have hlookup := startById_last colStarts hids'
        rw [hlen] at hlookup
        have hmem : Value.itemAt colStarts ((columnsOf table).length - 1) ∈ colStarts := by
          have hcount := length_columnStarts hstarts
          unfold Value.itemAt
          rw [List.getElem?_eq_getElem (by omega)]
          exact List.getElem_mem _
        have hnot := nullish_columnStarts (Value.nullish_add hcolX) hstarts _ hmem
        rw [heq, hlookup]
        simp [Value.coalesce, hnot]
      rw [hstart] at hx
      exact ((plain_last_columnStarts hstarts hcolumns).mp hx).2

/-! ### The SVG -/

@[simp] theorem markupSafe_nil : MarkupSafe [] := by simp [MarkupSafe]

@[simp] theorem markupSafe_literal {text : String} {svg : Svg} :
    MarkupSafe (.literal text :: svg) ↔ MarkupSafe svg := by simp [MarkupSafe]

@[simp] theorem markupSafe_value {text : String} {svg : Svg} :
    MarkupSafe (.value text :: svg) ↔ AllChars isPlainChar text ∧ MarkupSafe svg := by
  simp [MarkupSafe]

@[simp] theorem markupSafe_append {svg svg' : Svg} :
    MarkupSafe (svg ++ svg') ↔ MarkupSafe svg ∧ MarkupSafe svg' := by
  simp only [MarkupSafe, List.mem_append, or_imp, forall_and]

def Part.fixed : Part → List Char
  | .literal text => text.toList
  | .value _ => []

/-- A safe SVG has the markup of the template: its data adds no tag and no attribute. -/
theorem count_text {svg : Svg} (h : MarkupSafe svg) {c : Char} (hc : isPlainChar c = false) :
    svg.text.toList.count c = (svg.flatMap Part.fixed).count c := by
  unfold Svg.text
  rw [String.toList_join, List.flatMap_map]
  induction svg with
  | nil => rfl
  | cons part svg ih =>
    cases part with
    | literal text =>
      rw [List.flatMap_cons, List.flatMap_cons, List.count_append, List.count_append,
        ih (markupSafe_literal.mp h)]
      rfl
    | value text =>
      obtain ⟨htext, hrest⟩ := markupSafe_value.mp h
      have hnone : text.toList.count c = 0 := by
        rw [List.count_eq_zero]
        intro hmem
        rw [htext c hmem] at hc
        cases hc
      rw [List.flatMap_cons, List.flatMap_cons, List.count_append, List.count_append, ih hrest]
      show text.toList.count c + _ = _
      rw [hnone]
      rfl

theorem markupSafe_flatten {svgs : List Svg} :
    MarkupSafe svgs.flatten ↔ ∀ svg ∈ svgs, MarkupSafe svg := by
  induction svgs with
  | nil => simp
  | cons svg svgs ih =>
    rw [List.flatten_cons, markupSafe_append, List.forall_mem_cons, ih]

/-- The parts of many shapes are safe if each shape is plain. -/
theorem markupSafe_mapM {α : Type} {f : α → Except Abrupt (List Part)} {shapes : List α}
    {svgs : List Svg} {P : α → Prop} (h : shapes.mapM f = .ok svgs)
    (hf : ∀ a ∈ shapes, ∀ parts, f a = .ok parts → (MarkupSafe parts ↔ P a)) :
    MarkupSafe svgs.flatten ↔ ∀ a ∈ shapes, P a := by
  have hall := mapM_eq_ok.mp h
  rw [markupSafe_flatten]
  constructor
  · intro hsafe a ha
    obtain ⟨parts, hparts, heq⟩ := forall₂_exists_right hall ha
    exact (hf a ha parts heq).mp (hsafe parts hparts)
  · intro hplain parts hparts
    obtain ⟨a, ha, heq⟩ := forall₂_exists_left hall hparts
    exact (hf a ha parts heq).mpr (hplain a ha)

theorem plain_of_toText {v : Value ν} {text : String} (h : v.toText = .ok text) :
    Plain v ↔ AllChars isPlainChar text := by
  constructor
  · intro hv
    exact hv text h
  · intro htext text' h'
    rw [h] at h'
    cases h'
    exact htext

theorem markupSafe_rectParts {rect : Rect ν} {paint parts : List Part}
    (h : rectParts rect paint = .ok parts) (hpaint : MarkupSafe paint) :
    MarkupSafe parts ↔ PlainRect rect := by
  simp only [rectParts, bind_eq_ok, Except.ok.injEq] at h
  obtain ⟨x, hx, y, hy, width, hwidth, height, hheight, rfl⟩ := h
  simp only [markupSafe_append, markupSafe_literal, markupSafe_value, markupSafe_nil, and_true,
    hpaint]
  rw [← plain_of_toText hx, ← plain_of_toText hy, ← plain_of_toText hwidth,
    ← plain_of_toText hheight]
  constructor
  · intro hplain
    obtain ⟨hx, hy, hw, hh⟩ := hplain
    exact ⟨hx, hy, hw, hh⟩
  · intro hplain
    exact ⟨hplain.x, hplain.y, hplain.width, hplain.height⟩

theorem plain_colorKey (key : ColorKey) : AllChars isPlainChar key.1 := by
  have hall : ∀ key ∈ NOTE_COLOR_KEYS, AllChars isPlainChar key := by
    decide +kernel
  exact hall key.1 key.2

structure PlainGrid (grid : PreviewGrid ν) : Prop where
  rect : PlainRect grid.toRect
  sections : ∀ rect ∈ grid.sections, PlainRect rect

theorem markupSafe_gridShape {grid : PreviewGrid ν} {parts : List Part}
    (h : gridShape grid = .ok parts) : MarkupSafe parts ↔ PlainGrid grid := by
  simp only [gridShape, bind_eq_ok, Except.ok.injEq] at h
  obtain ⟨shape, hshape, sections, hsections, rfl⟩ := h
  rw [markupSafe_append, markupSafe_rectParts hshape (by simp [gridPaint]),
    markupSafe_mapM hsections fun rect _ parts hparts =>
      markupSafe_rectParts hparts (by simp [sectionPaint])]
  constructor
  · intro hplain
    exact ⟨hplain.1, hplain.2⟩
  · intro hplain
    exact ⟨hplain.rect, hplain.sections⟩

structure PlainModel (model : PreviewModel ν) : Prop where
  grids : ∀ grid ∈ model.grids, PlainGrid grid
  notes : ∀ note ∈ model.notes, PlainRect note.toRect

/-- The SVG has no text of its own but the rectangles of the model. -/
theorem markupSafe_renderBoardPreviewSvg {model : PreviewModel ν} {width height : ν} {svg : Svg}
    (h : renderBoardPreviewSvg model width height = .ok svg) :
    MarkupSafe svg ↔ PlainModel model := by
  simp only [renderBoardPreviewSvg, bind_eq_ok, Except.ok.injEq] at h
  obtain ⟨transform, _, grids, hgrids, notes, hnotes, rfl⟩ := h
  have hnumber : ∀ n : ν, AllChars isPlainChar (Arith.toText n) := fun n =>
    allChars_toText isPlainChar_of_isWordChar n
  have hnote : ∀ note ∈ model.notes, ∀ parts, noteShape note = .ok parts →
      (MarkupSafe parts ↔ PlainRect note.toRect) := by
    intro note _ parts hparts
    exact markupSafe_rectParts hparts (by simp [notePaint, plain_colorKey])
  simp only [markupSafe_append, markupSafe_literal, markupSafe_value, markupSafe_nil, hnumber,
    true_and, and_true]
  rw [markupSafe_mapM hgrids fun grid _ parts hparts => markupSafe_gridShape hparts,
    markupSafe_mapM hnotes hnote]
  constructor
  · intro hplain
    exact ⟨hplain.1, hplain.2⟩
  · intro hplain
    exact ⟨hplain.grids, hplain.notes⟩

/-! ### The model -/

def rectValues (rect : Rect ν) : List (Value ν) := [rect.x, rect.y, rect.width, rect.height]

/-- The values of an element that reach the SVG as they are. A note in a container is placed by
    the container; of a column and a table everything but the listed fields is measured first. -/
def printedValues (element : Element ν) : List (Value ν) :=
  if element.kind = "NOTE" then
    if (element.get "containerId").truthy then [] else rectValues (freeNote element).toRect
  else if element.kind = "COLUMN" then rectValues (rectOf element)
  else if element.kind = "TABLE" then rectValues (rectOf element) ++ printedWidths element
  else []

/-- No field that is printed has a character of the markup in its text. -/
def PlainElement (element : Element ν) : Prop := ∀ v ∈ printedValues element, Plain v

theorem plainRect_iff {rect : Rect ν} :
    PlainRect rect ↔ ∀ v ∈ rectValues rect, Plain v := by
  unfold rectValues
  constructor
  · intro h
    simp only [List.forall_mem_cons, List.not_mem_nil, false_imp_iff, implies_true, and_true]
    exact ⟨h.x, h.y, h.width, h.height⟩
  · intro h
    simp only [List.forall_mem_cons, List.not_mem_nil, false_imp_iff, implies_true, and_true] at h
    exact ⟨h.1, h.2.1, h.2.2.1, h.2.2.2⟩

theorem plainElement_note {note : Element ν} (hkind : note.kind = "NOTE") :
    PlainElement note ↔
      ((note.get "containerId").truthy = false → PlainRect (freeNote note).toRect) := by
  unfold PlainElement printedValues
  rw [plainRect_iff, if_pos hkind]
  cases (note.get "containerId").truthy with
  | true => simp
  | false => simp

theorem plainElement_column {column : Element ν} (hkind : column.kind = "COLUMN") :
    PlainElement column ↔ PlainRect (rectOf column) := by
  unfold PlainElement printedValues
  rw [plainRect_iff, hkind, if_neg (by decide), if_pos rfl]

theorem plainElement_table {table : Element ν} (hkind : table.kind = "TABLE") :
    PlainElement table ↔
      PlainRect (rectOf table) ∧ ∀ width ∈ printedWidths table, Plain width := by
  unfold PlainElement printedValues
  rw [plainRect_iff, hkind, if_neg (by decide), if_neg (by decide), if_pos rfl,
    List.forall_mem_append]

/-- The sections of a grid are plain with the element they are drawn for. -/
theorem plainGrid_gridOf {calcSections : Element ν → Except Abrupt (List (Rect ν))} {e : Element ν}
    {grid : PreviewGrid ν} (h : gridOf calcSections e = .ok grid) :
    PlainGrid grid ↔ PlainRect (rectOf e) ∧
      ∃ rects, calcSections e = .ok rects ∧ ∀ rect ∈ rects, PlainRect rect := by
  obtain ⟨rects, hrects, rfl⟩ := map_eq_ok.mp h
  constructor
  · intro hgrid
    exact ⟨hgrid.rect, rects, hrects, hgrid.sections⟩
  · intro hplain
    obtain ⟨hrect, rects', hrects', hall⟩ := hplain
    rw [hrects] at hrects'
    cases hrects'
    exact ⟨hrect, hall⟩

theorem plainGrid_column {column : Element ν} {grid : PreviewGrid ν}
    (h : gridOf calcColumnSections column = .ok grid) :
    PlainGrid grid ↔ PlainRect (rectOf column) := by
  rw [plainGrid_gridOf h]
  obtain ⟨rects, hrects, _⟩ := map_eq_ok.mp h
  constructor
  · intro hplain
    exact hplain.1
  · intro hplain
    exact ⟨hplain, rects, hrects, plain_calcColumnSections hplain.x hplain.y hrects⟩

theorem plainGrid_table {table : Element ν} {grid : PreviewGrid ν}
    (h : gridOf calcTableSections table = .ok grid) :
    PlainGrid grid ↔ PlainRect (rectOf table) ∧ ∀ width ∈ printedWidths table, Plain width := by
  rw [plainGrid_gridOf h]
  constructor
  · intro hplain
    obtain ⟨hrect, rects, hrects, hall⟩ := hplain
    exact ⟨hrect, plain_printedWidths hrects fun rect hmem => (hall rect hmem).x⟩
  · intro hplain
    obtain ⟨rects, hrects, _⟩ := map_eq_ok.mp h
    exact ⟨hplain.1, rects, hrects,
      plain_calcTableSections ⟨hplain.1.x, hplain.1.y, hplain.2⟩ hrects⟩

/-- The model is plain when its elements are: the notes in a container have no text but that of
    the container. -/
theorem plainModel_layout {notes columns tables : List (Element ν)} {model : PreviewModel ν}
    (hnotes : ∀ e ∈ notes, e.kind = "NOTE") (hcolumns : ∀ e ∈ columns, e.kind = "COLUMN")
    (htables : ∀ e ∈ tables, e.kind = "TABLE") (h : layout notes columns tables = .ok model) :
    PlainModel model ↔ (∀ e ∈ notes, PlainElement e) ∧ (∀ e ∈ columns, PlainElement e) ∧
      ∀ e ∈ tables, PlainElement e := by
  simp only [layout, bind_eq_ok, Except.ok.injEq] at h
  obtain ⟨contained, hcontained, tableContained, htableContained, grids, hgrids, tableGrids,
    htableGrids, rfl⟩ := h
  constructor
  · intro hmodel
    refine ⟨?_, ?_, ?_⟩
    · intro e he
      rw [plainElement_note (hnotes e he)]
      intro hfree
      have hmem : freeNote e ∈
          (notes.filter fun note => !(note.get "containerId").truthy).map freeNote :=
        List.mem_map_of_mem (List.mem_filter.mpr ⟨he, by simp [hfree]⟩)
      exact hmodel.notes _ (List.mem_append_left _ (List.mem_append_left _ hmem))
    · intro e he
      obtain ⟨grid, hgrid, heq⟩ := forall₂_exists_right (mapM_eq_ok.mp hgrids) he
      rw [plainElement_column (hcolumns e he), ← plainGrid_column heq]
      exact hmodel.grids grid (List.mem_append_left _ hgrid)
    · intro e he
      obtain ⟨grid, hgrid, heq⟩ := forall₂_exists_right (mapM_eq_ok.mp htableGrids) he
      rw [plainElement_table (htables e he), ← plainGrid_table heq]
      exact hmodel.grids grid (List.mem_append_right _ hgrid)
  · intro hplain
    obtain ⟨hn, hc, ht⟩ := hplain
    constructor
    · intro grid hgrid
      rcases List.mem_append.mp hgrid with hmem | hmem
      · obtain ⟨e, he, heq⟩ := forall₂_exists_left (mapM_eq_ok.mp hgrids) hmem
        rw [plainGrid_column heq, ← plainElement_column (hcolumns e he)]
        exact hc e he
      · obtain ⟨e, he, heq⟩ := forall₂_exists_left (mapM_eq_ok.mp htableGrids) hmem
        rw [plainGrid_table heq, ← plainElement_table (htables e he)]
        exact ht e he
    · intro note hnote
      rcases List.mem_append.mp hnote with hmem | hmem
      · rcases List.mem_append.mp hmem with hmem | hmem
        · obtain ⟨e, he, rfl⟩ := List.mem_map.mp hmem
          obtain ⟨he, hfree⟩ := List.mem_filter.mp he
          exact (plainElement_note (hnotes e he)).mp (hn e he) (by simpa using hfree)
        · obtain ⟨drawn, hdrawn, hin⟩ := List.mem_flatten.mp hmem
          obtain ⟨e, he, heq⟩ := forall₂_exists_left (mapM_eq_ok.mp hcontained) hdrawn
          have hrect := (plainElement_column (hcolumns e he)).mp (hc e he)
          exact plain_layoutContainedNotes hrect.x hrect.y heq note hin
      · obtain ⟨drawn, hdrawn, hin⟩ := List.mem_flatten.mp hmem
        obtain ⟨e, he, heq⟩ := forall₂_exists_left (mapM_eq_ok.mp htableContained) hdrawn
        have htable := (plainElement_table (htables e he)).mp (ht e he)
        exact plain_layoutTableContainedNotes ⟨htable.1.x, htable.1.y, htable.2⟩ heq note hin

/-! ### The preview -/

/-- An element of another kind is not drawn. -/
theorem plainElement_other {e : Element ν} (hnote : e.kind ≠ "NOTE") (hcolumn : e.kind ≠ "COLUMN")
    (htable : e.kind ≠ "TABLE") : PlainElement e := by
  unfold PlainElement printedValues
  rw [if_neg hnote, if_neg hcolumn, if_neg htable]
  simp

/-- The preview is safe exactly if no field that is printed as it is has a character of the
    markup in its text. -/
theorem markupSafe_previewSvg {localeCompare : String → String → Int} {rows : List RawElementRow}
    {svg : Svg} (h : previewSvg ν localeCompare rows = .ok svg) :
    MarkupSafe svg ↔ ∀ row ∈ rows, PlainElement (normalizeElement row : Element ν) := by
  obtain ⟨model, hmodel, hsvg⟩ := bind_eq_ok.mp h
  have hkind : ∀ kind, ∀ e ∈ (ofKind localeCompare kind rows : List (Element ν)), e.kind = kind :=
    fun kind e he => (mem_ofKind.mp he).2
  rw [markupSafe_renderBoardPreviewSvg hsvg,
    plainModel_layout (hkind "NOTE") (hkind "COLUMN") (hkind "TABLE") hmodel]
  constructor
  · intro hplain row hrow
    obtain ⟨hn, hc, ht⟩ := hplain
    by_cases hnote : (normalizeElement row : Element ν).kind = "NOTE"
    · exact hn _ (mem_ofKind.mpr ⟨⟨row, hrow, rfl⟩, hnote⟩)
    · by_cases hcolumn : (normalizeElement row : Element ν).kind = "COLUMN"
      · exact hc _ (mem_ofKind.mpr ⟨⟨row, hrow, rfl⟩, hcolumn⟩)
      · by_cases htable : (normalizeElement row : Element ν).kind = "TABLE"
        · exact ht _ (mem_ofKind.mpr ⟨⟨row, hrow, rfl⟩, htable⟩)
        · exact plainElement_other hnote hcolumn htable
  · intro hplain
    have hall : ∀ kind, ∀ e ∈ (ofKind localeCompare kind rows : List (Element ν)),
        PlainElement e := by
      intro kind e he
      obtain ⟨row, hrow, rfl⟩ := (mem_ofKind.mp he).1
      exact hplain row hrow
    exact ⟨hall "NOTE", hall "COLUMN", hall "TABLE"⟩

/-- What is rendered is the text of the parts. -/
theorem render_eq_ok {localeCompare : String → String → Int} {rows : List RawElementRow}
    {rendered : Rendered} (h : render ν localeCompare rows = .ok rendered) :
    ∃ svg, previewSvg ν localeCompare rows = .ok svg ∧ rendered.svg = svg.text := by
  obtain ⟨model, hmodel, hrest⟩ := bind_eq_ok.mp h
  obtain ⟨svg, hsvg, heq⟩ := bind_eq_ok.mp hrest
  cases heq
  exact ⟨svg, bind_eq_ok.mpr ⟨model, hmodel, hsvg⟩, rfl⟩

/-- A rendered preview is safe exactly if no field that is printed as it is has a character of the
    markup in its text. -/
theorem render_markupSafe_iff {localeCompare : String → String → Int} {rows : List RawElementRow}
    {rendered : Rendered} (h : render ν localeCompare rows = .ok rendered) :
    ∃ svg, previewSvg ν localeCompare rows = .ok svg ∧ rendered.svg = svg.text ∧
      (MarkupSafe svg ↔ ∀ row ∈ rows, PlainElement (normalizeElement row : Element ν)) := by
  obtain ⟨svg, hsvg, htext⟩ := render_eq_ok h
  exact ⟨svg, hsvg, htext, markupSafe_previewSvg hsvg⟩

/-- A note at a place that is a number or a word. -/
def placedNote (x : Json) : RawElementRow :=
  { id := "note", type := "NOTE", data := .obj [("x", x), ("y", .num 0)] }

theorem render_markupSafe_placedNote :
    ∃ rendered svg, render Exact (fun _ _ => 0) [placedNote (.num 5)] = .ok rendered ∧
      rendered.svg = svg.text ∧ MarkupSafe svg := by
  have hok : (render Exact (fun _ _ => 0) [placedNote (.num 5)]).toOption.isSome = true := by
    decide +kernel
  cases hr : render Exact (fun _ _ => 0) [placedNote (.num 5)] with
  | error e => simp [hr, Except.toOption] at hok
  | ok rendered =>
    obtain ⟨svg, _, htext, hiff⟩ := render_markupSafe_iff hr
    refine ⟨rendered, svg, rfl, htext, hiff.mpr ?_⟩
    intro row hrow
    rw [List.mem_singleton] at hrow
    rw [hrow, plainElement_note rfl]
    intro _
    exact ⟨plain_number _, plain_number _, plain_nat _, plain_nat _⟩

/-- An `x` that closes its attribute and its tag. -/
def scriptX : Json := .str "\"/><script>alert(1)</script><rect x=\""

/-- A creation with such an `x` is accepted, and its preview is not safe. -/
theorem script_in_preview :
    Payloads.isMutation (some (.obj [("mutationId", .str "m"), ("boardId", .str "b"),
      ("clientTimestamp", .num 0), ("operation", .obj [("type", .str "CREATE_ELEMENT"),
        ("elementId", .str "note"), ("data", (placedNote scriptX).data)])])) = true ∧
      ∃ rendered svg, render Exact (fun _ _ => 0) [placedNote scriptX] = .ok rendered ∧
        previewSvg Exact (fun _ _ => 0) [placedNote scriptX] = .ok svg ∧
        rendered.svg = svg.text ∧ ¬ MarkupSafe svg := by
  refine ⟨rfl, ?_⟩
  have hok : (render Exact (fun _ _ => 0) [placedNote scriptX]).toOption.isSome = true := by
    decide +kernel
  cases hr : render Exact (fun _ _ => 0) [placedNote scriptX] with
  | error e => simp [hr, Except.toOption] at hok
  | ok rendered =>
    obtain ⟨svg, hsvg, htext⟩ := render_eq_ok hr
    refine ⟨rendered, svg, rfl, hsvg, htext, ?_⟩
    rw [markupSafe_previewSvg hsvg]
    intro hplain
    have hnote := (plainElement_note rfl).mp (hplain _ List.mem_cons_self) rfl
    have hx : AllChars isPlainChar "\"/><script>alert(1)</script><rect x=\"" := hnote.x _ rfl
    revert hx
    decide +kernel

end Notebortt.Previews
