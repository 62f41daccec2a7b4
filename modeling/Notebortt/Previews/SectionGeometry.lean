import Notebortt.Previews.BoardPreview
import Notebortt.Lib.FitToPage
import Mathlib.Algebra.BigOperators.Intervals

/-! # Where the sections are drawn

    The sections of a preview in rational numbers: the lines of a grid are at
    the partial sums of its weights, the columns of a table start at the sums of
    the widths. Where the data holds numbers, the model of the program computes
    exactly this. -/

namespace Notebortt.Previews

open Js Fit

/-! ### Rational values -/

abbrev num (q : Rat) : Value Exact := .number (.rat q)

/-- The number that the value is, or the default. -/
def numOr (default_ : Rat) : Value Exact → Rat
  | .number (.rat q) => q
  | _ => default_

def okOr {α : Type} (default_ : α) : Except Abrupt α → α
  | .ok a => a
  | .error _ => default_

def memberOf (v : Value Exact) (name : String) : Value Exact := okOr .undefined (v.member name)

/-- The number in a member of a value. -/
def memberOr (default_ : Rat) (v : Value Exact) (name : String) : Rat :=
  numOr default_ (memberOf v name)

def idOf (v : Value Exact) : Value Exact := memberOf v "id"

theorem memberOf_of_ok {v w : Value Exact} {name : String} (h : v.member name = .ok w) :
    memberOf v name = w := by
  rw [memberOf, h]
  rfl

theorem mapM_id {vs ids : List (Value Exact)} (h : vs.mapM (fun v => v.member "id") = .ok ids) :
    ids = vs.map idOf :=
  eq_map_of_mapM h fun _ _ _ hv => (memberOf_of_ok hv).symm

def rectOfBox (box : Box Rat) : Rect Exact :=
  { x := num box.left, y := num box.top, width := num box.width, height := num box.height }

def IsNum (v : Value Exact) : Prop := ∃ q, v = num q

/-- A number that is not negative. -/
def IsSize (v : Value Exact) : Prop := ∃ q, 0 ≤ q ∧ v = num q

def OptNum (v : Value Exact) : Prop := v.nullish = true ∨ IsNum v

def OptSize (v : Value Exact) : Prop := v.nullish = true ∨ IsSize v

theorem IsNum.eq {v : Value Exact} (h : IsNum v) (d : Rat) : v = num (numOr d v) := by
  obtain ⟨q, rfl⟩ := h
  rfl

theorem IsSize.isNum {v : Value Exact} (h : IsSize v) : IsNum v := by
  obtain ⟨q, _, rfl⟩ := h
  exact ⟨q, rfl⟩

theorem IsSize.nonneg {v : Value Exact} (h : IsSize v) (d : Rat) : 0 ≤ numOr d v := by
  obtain ⟨q, hq, rfl⟩ := h
  exact hq

theorem numOr_of_nullish {v : Value Exact} (h : v.nullish = true) (d : Rat) : numOr d v = d := by
  cases v with
  | number n => cases h
  | _ => rfl

theorem OptSize.optNum {v : Value Exact} (h : OptSize v) : OptNum v := by
  rcases h with hnull | hsize
  · exact .inl hnull
  · exact .inr hsize.isNum

theorem OptNum.coalesce {v : Value Exact} (h : OptNum v) (d : Rat) :
    v.coalesce (num d) = num (numOr d v) := by
  rcases h with hnull | hnum
  · rw [numOr_of_nullish hnull]
    simp [Value.coalesce, hnull]
  · obtain ⟨q, rfl⟩ := hnum
    rfl

theorem OptSize.nonneg {v : Value Exact} (h : OptSize v) {d : Rat} (hd : 0 ≤ d) :
    0 ≤ numOr d v := by
  rcases h with hnull | hsize
  · rw [numOr_of_nullish hnull]
    exact hd
  · exact hsize.nonneg d

/-- `a ?? b`, of two sizes that may be missing. -/
theorem OptSize.orElse {a b : Value Exact} (ha : OptSize a) (hb : OptSize b) :
    OptSize (a.coalesce b) := by
  unfold Value.coalesce
  split
  · exact hb
  · exact ha

theorem nat_eq (n : Nat) : (Value.nat n : Value Exact) = num n := rfl

theorem add_num (a b : Rat) : (num a).add (num b) = .ok (num (a + b)) := rfl

theorem sub_num (a b : Rat) : (num a).sub (num b) = .ok (.rat (a - b)) := by
  rw [sub_eq_add_neg]
  rfl

theorem mul_num (a b : Rat) : (num a).mul (num b) = .ok (.rat (a * b)) := rfl

theorem div_rat {a b : Rat} (hb : b ≠ 0) : Arith.div (.rat a : Exact) (.rat b) = .rat (a / b) := by
  show Exact.div (.rat a) (.rat b) = .rat (a / b)
  simp [Exact.div, hb]

theorem div_num {a b : Rat} (hb : b ≠ 0) : (num a).div (num b) = .ok (.rat (a / b)) :=
  congrArg Except.ok (div_rat hb)

theorem sub_rat (a b : Rat) : Arith.sub (.rat a : Exact) (.rat b) = .rat (a - b) := by
  rw [sub_eq_add_neg]
  rfl

theorem max_rat (a b : Rat) : Arith.max (.rat a : Exact) (.rat b) = .rat (max a b) := by
  show Exact.max (.rat a) (.rat b) = .rat (max a b)
  unfold Exact.max Exact.lt
  by_cases h : a < b
  · simp [h, max_eq_right h.le]
  · simp [h, max_eq_left (not_lt.mp h)]

theorem min_rat (a b : Rat) : Arith.min (.rat a : Exact) (.rat b) = .rat (min a b) := by
  show Exact.min (.rat a) (.rat b) = .rat (min a b)
  unfold Exact.min Exact.lt
  by_cases h : b < a
  · simp [h, min_eq_right h.le]
  · simp [h, min_eq_left (not_lt.mp h)]

theorem ofNat_rat (n : Nat) : (Arith.ofNat n : Exact) = .rat n := rfl

/-! ### Lines -/

/-- Lines at the partial sums of a list of weights, and what stands for a line that is missing. -/
structure GridAxis where
  start : Rat
  stop : Rat
  lines : Nat
  position : Nat → Rat

/-- The line with this number, if there is one. -/
def GridAxis.line (axis : GridAxis) (q : Rat) : Option Rat :=
  match Exact.toNat? (.rat q) with
  | some k => if k < axis.lines then some (axis.position k) else none
  | none => none

def GridAxis.values (axis : GridAxis) : List (Value Exact) :=
  (List.range axis.lines).map fun k => num (axis.position k)

/-- Where a section starts, and its length: 1 at least. -/
def GridAxis.extent (axis : GridAxis) (position span : Rat) : Rat × Rat :=
  let first := (axis.line position).getD axis.start
  (first, max 1 ((axis.line (position + span)).getD axis.stop - first))

theorem item_values (axis : GridAxis) (q : Rat) :
    Value.item axis.values (num q)
      = .ok (((axis.line q).map num).getD .undefined) := by
  show Except.ok (((Exact.toNat? (.rat q)).map (Value.itemAt axis.values)).getD .undefined) = _
  unfold GridAxis.line
  cases Exact.toNat? (.rat q) with
  | none => rfl
  | some k =>
    by_cases hk : k < axis.lines
    · simp [Value.itemAt, GridAxis.values, hk]
    · simp [Value.itemAt, GridAxis.values, hk]

theorem coalesce_line (line : Option Rat) (d : Rat) :
    ((line.map num).getD .undefined).coalesce (num d) = num (line.getD d) := by
  cases line with
  | none => rfl
  | some q => rfl

theorem sectionSpan_num (axis : GridAxis) (position span : Rat) :
    sectionSpan axis.values (num axis.start) (.ok (num axis.stop)) (num position) (num span)
      = .ok (num (axis.extent position span).1, .rat (axis.extent position span).2) := by
  -- The right end is computed only where the line is missing.
  have hstop : ∀ line : Option Rat,
      ((line.map num).getD .undefined : Value Exact).coalesceM (.ok (num axis.stop))
        = .ok (num (line.getD axis.stop)) := by
    intro line
    cases line with
    | none => rfl
    | some q => rfl
  unfold sectionSpan
  rw [item_values, add_num]
  simp only [bind, Except.bind, item_values, coalesce_line, hstop, sub_num]
  rw [ofNat_rat, max_rat]
  rfl

/-! ### Weights -/

/-- `weights[i] ?? 1`. -/
def weightAt (weights : List Rat) (i : Nat) : Rat := weights.getD i 1

def partialSum (weights : List Rat) (k : Nat) : Rat := ∑ i ∈ Finset.range k, weightAt weights i

/-- The sum of the weights that are given; 1 if it is zero. -/
def weightTotal (weights : List Rat) : Rat := if weights.sum = 0 then 1 else weights.sum

theorem weightTotal_ne_zero (weights : List Rat) : weightTotal weights ≠ 0 := by
  unfold weightTotal
  split
  · exact one_ne_zero
  · assumption

/-- Where the `k`-th line is. -/
def linePosition (start size : Rat) (weights : List Rat) (k : Nat) : Rat :=
  start + size * (partialSum weights k / weightTotal weights)

theorem linePosition_zero (start size : Rat) (weights : List Rat) :
    linePosition start size weights 0 = start := by
  simp [linePosition, partialSum]

theorem linePosition_succ (start size : Rat) (weights : List Rat) (k : Nat) :
    linePosition start size weights (k + 1)
      = linePosition start size weights k + size * (weightAt weights k / weightTotal weights) := by
  unfold linePosition partialSum
  rw [Finset.sum_range_succ, add_div, mul_add, add_assoc]

theorem coalesce_itemAt (weights : List Rat) (i : Nat) :
    (Value.itemAt (weights.map num) i).coalesce (.nat 1) = num (weightAt weights i) := by
  unfold Value.itemAt weightAt
  rw [List.getElem?_map, List.getD_eq_getElem?_getD]
  cases weights[i]? with
  | none => rfl
  | some q => rfl

/-- The loop computes the lines one after another. -/
theorem startsFrom_num (start size : Rat) (weights : List Rat) (steps i : Nat) :
    startsFrom (num size) (num (weightTotal weights)) (weights.map num) steps i
        (num (linePosition start size weights i))
      = .ok ((List.range steps).map fun k => num (linePosition start size weights (i + k))) := by
  induction steps generalizing i with
  | zero => rfl
  | succ steps ih =>
    -- One round goes from the line `i` to the next one.
    unfold startsFrom
    rw [coalesce_itemAt, div_num (weightTotal_ne_zero weights)]
    simp only [bind, Except.bind, mul_num, add_num]
    rw [← linePosition_succ, ih (i + 1), List.range_succ_eq_map]
    simp only [List.map_cons, List.map_map, Nat.add_zero]
    refine congrArg (fun l => Except.ok (num (linePosition start size weights i) :: l)) ?_
    apply List.map_congr_left
    intro k _
    simp only [Function.comp_apply]
    rw [Nat.add_assoc, Nat.add_comm 1 k]

/-- How often the loop over the lines runs. -/
def lineCount (count : Value Exact) : Nat := (numOr 1 count).ceil.toNat

/-- The weights of one direction of a grid: one for each line where none are given. -/
def weightList (given count : Value Exact) : List Rat :=
  match given with
  | .array items => items.map (numOr 1)
  | _ => List.replicate (lineCount count) 1

/-- The weights are missing, or an array of sizes. -/
def OptWeights (given : Value Exact) : Prop :=
  given.nullish = true ∨ ∃ items, given = .array items ∧ ∀ v ∈ items, IsSize v

theorem map_num_numOr {items : List (Value Exact)} (h : ∀ v ∈ items, IsNum v) (d : Rat) :
    (items.map (numOr d)).map num = items := by
  rw [List.map_map]
  conv_rhs => rw [← List.map_id items]
  apply List.map_congr_left
  intro v hv
  exact ((h v hv).eq d).symm

theorem toNat?_eq_some {q : Rat} {n : Nat} (h : Exact.toNat? (.rat q) = some n) : q = n := by
  rw [Exact.toNat?, Option.ite_none_right_eq_some] at h
  obtain ⟨hint, hn⟩ := h
  have hcast : ((q.num.toNat : Int) : Rat) = q := by
    rw [Int.toNat_of_nonneg hint.2]
    exact Rat.coe_int_num_of_den_eq_one hint.1
  rw [← hcast, Option.some.inj hn]
  simp

theorem weights_num {given count : Value Exact} {ws : List (Value Exact)}
    (hgiven : OptWeights given) (hcount : OptNum count)
    (h : weights given (count.coalesce (.nat 1)) = .ok ws) :
    ws = (weightList given count).map num := by
  rw [nat_eq, Nat.cast_one, hcount.coalesce] at h
  rcases hgiven with hnull | harray
  · -- None are given: as many ones as the count says, if it is a natural number.
    have hlist : weightList given count = List.replicate (lineCount count) 1 := by
      cases given with
      | array items => cases hnull
      | _ => rfl
    rw [weights, if_pos hnull] at h
    rw [hlist, List.map_replicate]
    cases hnat : Arith.toNat? (.rat (numOr 1 count) : Exact) with
    | none => simp [hnat] at h
    | some n =>
      simp only [hnat] at h
      split at h
      · cases h
        have hceil : ((n : Nat) : Rat).ceil = (n : Int) := by
          rw [← Int.cast_natCast]
          exact Rat.ceil_intCast n
        unfold lineCount
        rw [toNat?_eq_some hnat, hceil, Int.toNat_natCast, nat_eq, Nat.cast_one]
      · cases h
  · obtain ⟨items, rfl, hitems⟩ := harray
    cases h
    exact (map_num_numOr (fun v hv => (hitems v hv).isNum) 1).symm

theorem foldlM_add (weights : List Rat) (acc : Rat) :
    (weights.map num).foldlM Value.add (num acc) = .ok (num (acc + weights.sum)) := by
  induction weights generalizing acc with
  | nil => simp [pure, Except.pure]
  | cons w weights ih =>
    rw [List.map_cons, List.foldlM_cons, add_num]
    simp only [bind, Except.bind]
    rw [ih, List.sum_cons, add_assoc]

theorem truthy_num (q : Rat) : (num q).truthy = true ↔ q ≠ 0 := by
  show (Exact.lt (.rat q) (.rat ((0 : Nat) : Rat)) ||
    Exact.lt (.rat ((0 : Nat) : Rat)) (.rat q)) = true ↔ _
  simp only [Exact.lt, Nat.cast_zero, Bool.or_eq_true, decide_eq_true_eq]
  exact ne_iff_lt_or_gt.symm

theorem totalWeight_num (weights : List Rat) :
    totalWeight (weights.map num) = .ok (num (weightTotal weights)) := by
  unfold totalWeight weightTotal
  rw [nat_eq, Nat.cast_zero, foldlM_add, zero_add]
  simp only [bind, Except.bind]
  by_cases hzero : weights.sum = 0
  · rw [if_pos hzero, if_neg (by rw [truthy_num]; simpa using hzero)]
    rfl
  · rw [if_neg hzero, if_pos ((truthy_num _).mpr hzero)]

theorem starts_num {count : Value Exact} (hcount : OptNum count) (start size : Rat)
    (weights : List Rat) :
    starts (count.coalesce (.nat 1)) (num size) (num (weightTotal weights)) (num start)
        (weights.map num)
      = .ok ((List.range (lineCount count)).map fun k =>
          num (linePosition start size weights k)) := by
  have hzero := startsFrom_num start size weights (lineCount count) 0
  rw [linePosition_zero] at hzero
  simp only [Nat.zero_add] at hzero
  rw [nat_eq, Nat.cast_one, hcount.coalesce]
  exact hzero

/-! ### The sections of a column -/

structure NumericDef (columnDef : Value Exact) : Prop where
  col : ∀ v, columnDef.member "col" = .ok v → OptSize v
  row : ∀ v, columnDef.member "row" = .ok v → OptSize v
  colSpan : ∀ v, columnDef.member "colSpan" = .ok v → OptSize v
  rowSpan : ∀ v, columnDef.member "rowSpan" = .ok v → OptSize v
  subColumns : ∀ v, columnDef.member "subColumns" = .ok v → OptNum v

/-- A column whose coordinates are numbers, and whose sizes, weights, positions and spans are
    numbers that are not negative. -/
structure NumericColumn (column : Element Exact) : Prop where
  x : IsNum (column.get "x")
  y : IsNum (column.get "y")
  width : IsSize (column.get "width")
  height : IsSize (column.get "height")
  gridCols : OptNum (column.get "gridCols")
  gridRows : OptNum (column.get "gridRows")
  gridColWidths : OptWeights (column.get "gridColWidths")
  gridRowHeights : OptWeights (column.get "gridRowHeights")
  sections : ∀ defs, (sectionsOf column).items = .ok defs → ∀ d ∈ defs, NumericDef d

def boxOf (e : Element Exact) : Box Rat :=
  { left := numOr 0 (e.get "x"), top := numOr 0 (e.get "y")
    width := numOr 0 (e.get "width"), height := numOr 0 (e.get "height") }

def axisOf (start size : Rat) (weights : List Rat) (lines : Nat) : GridAxis :=
  { start := start, stop := start + size, lines := lines
    position := linePosition start size weights }

def colAxis (column : Element Exact) : GridAxis :=
  axisOf (boxOf column).left (boxOf column).width
    (weightList (column.get "gridColWidths") (column.get "gridCols"))
    (lineCount (column.get "gridCols"))

/-- The rows share what is below the header, 40 at least. -/
def rowAxis (column : Element Exact) : GridAxis :=
  axisOf ((boxOf column).top + 42) (max 40 ((boxOf column).height - 42))
    (weightList (column.get "gridRowHeights") (column.get "gridRows"))
    (lineCount (column.get "gridRows"))

def sectionBox (column : Element Exact) (columnDef : Value Exact) : Box Rat :=
  let across :=
    (colAxis column).extent (memberOr 0 columnDef "col") (memberOr 1 columnDef "colSpan")
  let down :=
    (rowAxis column).extent (memberOr 0 columnDef "row") (memberOr 1 columnDef "rowSpan")
  { left := across.1, top := down.1, width := across.2, height := down.2 }

def definitionsOf (column : Element Exact) : List (Value Exact) :=
  match sectionsOf column with
  | .array defs => defs
  | _ => []

def columnSections (column : Element Exact) : List (Box Rat) :=
  (definitionsOf column).map (sectionBox column)

theorem definitionsOf_of_items {column : Element Exact} {defs : List (Value Exact)}
    (h : (sectionsOf column).items = .ok defs) : definitionsOf column = defs := by
  rw [definitionsOf, Value.eq_array_of_items h]

theorem gridLines_num {column : Element Exact} (hcolumn : NumericColumn column)
    {lines : GridLines Exact} (h : gridLines column = .ok lines) :
    lines = { bodyY := num (rowAxis column).start
              bodyHeight := .rat (max 40 ((boxOf column).height - 42))
              colStarts := (colAxis column).values
              rowStarts := (rowAxis column).values } := by
  obtain ⟨colWeights, hcw, h⟩ := bind_eq_ok.mp h
  obtain ⟨rowWeights, hrw, h⟩ := bind_eq_ok.mp h
  have hcols := weights_num hcolumn.gridColWidths hcolumn.gridCols hcw
  have hrows := weights_num hcolumn.gridRowHeights hcolumn.gridRows hrw
  rw [hcols, hrows, totalWeight_num, totalWeight_num, hcolumn.x.eq 0, hcolumn.y.eq 0,
    hcolumn.width.isNum.eq 0, hcolumn.height.isNum.eq 0, nat_eq, add_num, sub_num] at h
  simp only [bind, Except.bind, ofNat_rat, max_rat] at h
  rw [starts_num hcolumn.gridCols, starts_num hcolumn.gridRows] at h
  cases h
  rfl

theorem member_coalesce {v w : Value Exact} {name : String} (h : v.member name = .ok w)
    (hopt : OptSize w) (d : Rat) : w.coalesce (num d) = num (memberOr d v name) := by
  rw [hopt.optNum.coalesce, memberOr, memberOf_of_ok h]

theorem sectionRect_num {column : Element Exact} (hcolumn : NumericColumn column)
    {columnDef : Value Exact} (hdef : NumericDef columnDef) {lines : GridLines Exact}
    (hlines : gridLines column = .ok lines) {rect : Rect Exact}
    (h : sectionRect column lines columnDef = .ok rect) :
    rect = rectOfBox (sectionBox column columnDef) := by
  obtain ⟨col, hcol, h⟩ := bind_eq_ok.mp h
  obtain ⟨row, hrow, h⟩ := bind_eq_ok.mp h
  obtain ⟨colSpan, hcolSpan, h⟩ := bind_eq_ok.mp h
  obtain ⟨rowSpan, hrowSpan, h⟩ := bind_eq_ok.mp h
  rw [gridLines_num hcolumn hlines, hcolumn.x.eq 0, hcolumn.width.isNum.eq 0] at h
  simp only [nat_eq, Nat.cast_zero, Nat.cast_one, add_num] at h
  rw [member_coalesce hcol (hdef.col _ hcol), member_coalesce hrow (hdef.row _ hrow),
    member_coalesce hcolSpan (hdef.colSpan _ hcolSpan),
    member_coalesce hrowSpan (hdef.rowSpan _ hrowSpan)] at h
  have hacross := sectionSpan_num (colAxis column) (memberOr 0 columnDef "col")
    (memberOr 1 columnDef "colSpan")
  have hdown := sectionSpan_num (rowAxis column) (memberOr 0 columnDef "row")
    (memberOr 1 columnDef "rowSpan")
  obtain ⟨across, hacross', h⟩ := bind_eq_ok.mp h
  obtain ⟨down, hdown', h⟩ := bind_eq_ok.mp h
  cases hacross'.symm.trans hacross
  cases hdown'.symm.trans hdown
  cases h
  rfl

/-- The sections of a numeric column are where the weights and spans put them. -/
theorem calcColumnSections_num {column : Element Exact} (hcolumn : NumericColumn column)
    {rects : List (Rect Exact)} (h : calcColumnSections column = .ok rects) :
    rects = (columnSections column).map rectOfBox := by
  obtain ⟨lines, hlines, h⟩ := bind_eq_ok.mp h
  obtain ⟨defs, hdefs, h⟩ := bind_eq_ok.mp h
  rw [columnSections, definitionsOf_of_items hdefs, List.map_map]
  refine eq_map_of_mapM h ?_
  intro columnDef hmem rect hrect
  exact sectionRect_num hcolumn (hcolumn.sections defs hdefs columnDef hmem) hlines hrect

/-! ### Tables -/

/-- A table whose coordinates are numbers, and whose sizes and column widths are numbers that are
    not negative. -/
structure NumericTable (table : Element Exact) : Prop where
  x : IsNum (table.get "x")
  y : IsNum (table.get "y")
  width : IsSize (table.get "width")
  height : IsSize (table.get "height")
  columns : ∀ columns, ((table.get "tableColumns").coalesce (.array [])).items = .ok columns →
    ∀ col ∈ columns, ∀ v, col.member "width" = .ok v → IsSize v

def widthsOf (table : Element Exact) : List Rat :=
  (columnsOf table).map fun col => memberOr 0 col "width"

/-- Where the `k`-th column starts. -/
def tableLine (table : Element Exact) (k : Nat) : Rat :=
  (boxOf table).left + 36 + ((widthsOf table).take k).sum

def tableStarts (table : Element Exact) : List (Value Exact) :=
  (List.range (columnsOf table).length).map fun k => num (tableLine table k)

def tableIds (table : Element Exact) : List (Value Exact) :=
  (columnsOf table).map idOf

def rowCount (table : Element Exact) : Nat :=
  match tableRowsOf table with
  | .array rows => rows.length
  | _ => 0

/-- The section in a row and a column: where the last column with the same id starts. -/
def tableSectionBox (table : Element Exact) (row k : Nat) : Box Rat :=
  { left := numOr (boxOf table).left (startById (tableIds table) (tableStarts table) k)
    top := (boxOf table).top + 40 + row * 28
    width := max 1 ((widthsOf table).getD k 0)
    height := 28 }

def tableSections (table : Element Exact) : List (Box Rat) :=
  (List.range (rowCount table)).flatMap fun row =>
    (List.range (columnsOf table).length).map (tableSectionBox table row)

/-- The loop over the columns adds up the widths. -/
theorem columnStarts_num {columns : List (Value Exact)}
    (hwidths : ∀ col ∈ columns, ∀ v, col.member "width" = .ok v → IsSize v) {colX : Rat}
    {starts : List (Value Exact)} (h : columnStarts (num colX) columns = .ok starts) :
    starts = (List.range columns.length).map fun k =>
      num (colX + ((columns.map fun col => memberOr 0 col "width").take k).sum) := by
  induction columns generalizing colX starts with
  | nil =>
    cases h
    rfl
  | cons col columns ih =>
    obtain ⟨hcol, hrest⟩ := List.forall_mem_cons.mp hwidths
    obtain ⟨width, hwidth, h⟩ := bind_eq_ok.mp h
    have hvalue : width = num (memberOr 0 col "width") := by
      rw [memberOr, memberOf_of_ok hwidth]
      exact (hcol width hwidth).isNum.eq 0
    rw [hvalue, add_num] at h
    obtain ⟨colX', hadd, h⟩ := bind_eq_ok.mp h
    cases hadd
    obtain ⟨rest, hstarts, h⟩ := bind_eq_ok.mp h
    cases h
    rw [ih hrest hstarts, List.length_cons, List.range_succ_eq_map, List.map_cons, List.map_map]
    refine congrArg₂ List.cons ?_ ?_
    · simp
    · apply List.map_congr_left
      intro k _
      simp [add_assoc]

theorem NumericTable.width_of_mem {table : Element Exact} (htable : NumericTable table)
    {col v : Value Exact} (hmem : col ∈ columnsOf table) (hv : col.member "width" = .ok v) :
    IsSize v := by
  unfold columnsOf at hmem
  split at hmem
  · rename_i columns heq
    exact htable.columns columns (by rw [heq]; rfl) col hmem v hv
  · cases hmem

theorem tableStarts_eq {table : Element Exact} (htable : NumericTable table)
    {starts : List (Value Exact)}
    (h : columnStarts (num ((boxOf table).left + 36)) (columnsOf table) = .ok starts) :
    starts = tableStarts table :=
  columnStarts_num (fun _ hcol _ hv => htable.width_of_mem hcol hv) h

theorem optNum_tableStarts (table : Element Exact) (j : Nat) :
    OptNum (Value.itemAt (tableStarts table) j) := by
  unfold Value.itemAt tableStarts
  rw [List.getElem?_map]
  cases (List.range (columnsOf table).length)[j]? with
  | none => exact .inl rfl
  | some i => exact .inr ⟨_, rfl⟩

theorem coalesce_startById (table : Element Exact) {ids : List (Value Exact)} (k : Nat) (d : Rat) :
    (startById ids (tableStarts table) k).coalesce (num d)
      = num (numOr d (startById ids (tableStarts table) k)) := by
  refine OptNum.coalesce ?_ d
  unfold startById
  split
  · exact optNum_tableStarts table _
  · exact .inl rfl

theorem rowSections_num {table : Element Exact} (htable : NumericTable table) {row : Nat}
    {rects : List (Rect Exact)}
    (h : rowSections table (columnsOf table) (tableIds table) (tableStarts table) row = .ok rects) :
    rects =
      ((List.range (columnsOf table).length).map (tableSectionBox table row)).map rectOfBox := by
  obtain ⟨y₁, hy₁, h⟩ := bind_eq_ok.mp h
  obtain ⟨y, hy, h⟩ := bind_eq_ok.mp h
  rw [htable.y.eq 0, nat_eq, add_num] at hy₁
  cases hy₁
  rw [nat_eq, add_num] at hy
  cases hy
  have hmap := eq_map_of_mapM (g := fun entry => rectOfBox (tableSectionBox table row entry.2)) h ?_
  · rw [hmap, List.map_map, List.range_eq_range', ← List.zipIdx_map_snd, List.map_map]
    rfl
  · intro entry hentry rect hrect
    obtain ⟨col, k⟩ := entry
    have hget := List.mem_zipIdx_iff_getElem?.mp hentry
    obtain ⟨v, hv, hrect⟩ := bind_eq_ok.mp hrect
    obtain ⟨width, hwidth, hrect⟩ := bind_eq_ok.mp hrect
    have hsize := htable.width_of_mem (List.mem_of_getElem? hget) hv
    have hvalue : v = num ((widthsOf table).getD k 0) := by
      rw [List.getD_eq_getElem?_getD, widthsOf, List.getElem?_map, hget]
      show v = num (memberOr 0 col "width")
      rw [memberOr, memberOf_of_ok hv]
      exact hsize.isNum.eq 0
    rw [hvalue] at hwidth
    cases hwidth
    cases hrect
    rw [htable.x.eq 0, coalesce_startById, ofNat_rat, Prim.toNumber, max_rat]
    simp [rectOfBox, tableSectionBox, boxOf, nat_eq]

theorem rowCount_eq_zero {table : Element Exact} (h : lengthZero (tableRowsOf table) = .ok true) :
    rowCount table = 0 := by
  unfold rowCount
  cases hv : tableRowsOf table with
  | array items =>
    rw [hv] at h
    simpa [lengthZero] using h
  | _ => rfl

/-- The sections of a numeric table are where the widths put them. -/
theorem calcTableSections_num {table : Element Exact} (htable : NumericTable table)
    {rects : List (Rect Exact)} (h : calcTableSections table = .ok rects) :
    rects = (tableSections table).map rectOfBox := by
  by_cases hcolumns : columnsOf table = []
  · obtain ⟨columns, hitems, h⟩ := bind_eq_ok.mp h
    have hnil := hcolumns
    rw [columnsOf_of_items hitems] at hnil
    rw [if_pos (by simp [hnil])] at h
    cases h
    simp [tableSections, hcolumns]
  · by_cases hrows : lengthZero (tableRowsOf table) = .ok true
    · -- Without rows nothing is drawn.
      have hcount := rowCount_eq_zero hrows
      obtain ⟨columns, hitems, h⟩ := bind_eq_ok.mp h
      rw [columnsOf_of_items hitems] at hcolumns
      rw [if_neg (by simpa using hcolumns), hrows] at h
      cases h
      simp [tableSections, hcount]
    · obtain ⟨_, ids, colX, colStarts, rows, sections, hids, hcolX, hstarts, hitems, hmap, rfl⟩ :=
        calcTableSections_eq_ok h hcolumns hrows
      rw [htable.x.eq 0, nat_eq, add_num] at hcolX
      cases hcolX
      have hidsEq : ids = tableIds table := mapM_id hids
      have hcount : rows.length = rowCount table := by
        rw [rowCount, Value.eq_array_of_items hitems]
      -- The rows are drawn one after another, each with all columns.
      rw [hidsEq, tableStarts_eq htable hstarts, hcount] at hmap
      have hflat := map_flatten_of_mapM (g := id) (k := rectOfBox)
        (h := fun row => (List.range (columnsOf table).length).map (tableSectionBox table row))
        hmap fun row _ rects hrects => by
          rw [List.map_id]
          exact rowSections_num htable hrects
      rw [List.map_id] at hflat
      exact hflat

end Notebortt.Previews
