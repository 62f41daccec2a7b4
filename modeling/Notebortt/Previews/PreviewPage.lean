import Notebortt.Previews.NoteGeometry

/-! # What of a preview is on its page

    The matrix of a preview is computed from the notes and the grids. These are
    always drawn on the page; a section is if it lies in the frame, and the
    layout puts no section there: not that of a row behind the end of its table,
    nor that of a grid lower than its header. -/

namespace Notebortt.Previews

open Js Fit

/-! ### The picture -/

/-- All rectangles of a preview: what is measured, and the sections. -/
structure Picture where
  notes : List (Box Rat)
  grids : List (Box Rat)
  sections : List (Box Rat)

def Picture.measured (picture : Picture) : List (Box Rat) := picture.grids ++ picture.notes

def freeNoteBox (note : Element Exact) : Box Rat :=
  { left := numOr 0 (note.get "x"), top := numOr 0 (note.get "y")
    width := numOr 180 ((note.get "customWidth").coalesce (note.get "width"))
    height := numOr 74 (note.get "computedLayoutHeight") }

def pictureOf (notes columns tables : List (Element Exact)) : Picture where
  notes := (notes.filter fun note => !(note.get "containerId").truthy).map freeNoteBox ++
    columns.flatMap (fun column => containedBoxes column (notesIn column notes)) ++
    tables.flatMap fun table => tableNoteBoxes table (notesIn table notes)
  grids := columns.map boxOf ++ tables.map boxOf
  sections := columns.flatMap columnSections ++ tables.flatMap tableSections

/-- Elements with numbers for coordinates, and with sizes that are not negative. -/
structure NumericElements (notes columns tables : List (Element Exact)) : Prop where
  notes : ∀ e ∈ notes, NumericNote e
  columns : ∀ e ∈ columns, NumericColumn e
  tables : ∀ e ∈ tables, NumericTable e

theorem freeNote_num {note : Element Exact} (h : NumericNote note) :
    (freeNote note).toRect = rectOfBox (freeNoteBox note) := by
  have hwidth := (h.customWidth.orElse h.width).optNum.coalesce 180
  have hheight := h.computedLayoutHeight.optNum.coalesce 74
  unfold freeNote rectOfBox freeNoteBox
  simp only [nat_eq, Nat.cast_ofNat]
  rw [hwidth, hheight, h.x.eq 0, h.y.eq 0]
  rfl

theorem rectOf_num {e : Element Exact} (hx : IsNum (e.get "x")) (hy : IsNum (e.get "y"))
    (hwidth : IsSize (e.get "width")) (hheight : IsSize (e.get "height")) :
    rectOf e = rectOfBox (boxOf e) := by
  unfold rectOf rectOfBox boxOf
  rw [hx.eq 0, hy.eq 0, hwidth.isNum.eq 0, hheight.isNum.eq 0]
  rfl

/-- The grids of a model, with the element and the sections of each. -/
theorem gridOf_num {calcSections : Element Exact → Except Abrupt (List (Rect Exact))}
    {sections : Element Exact → List (Box Rat)} {es : List (Element Exact)}
    {grids : List (PreviewGrid Exact)} (h : es.mapM (gridOf calcSections) = .ok grids)
    (hrect : ∀ e ∈ es, rectOf e = rectOfBox (boxOf e))
    (hsections : ∀ e ∈ es, ∀ rects, calcSections e = .ok rects →
      rects = (sections e).map rectOfBox) :
    grids.map PreviewGrid.toRect = (es.map boxOf).map rectOfBox ∧
      grids.flatMap PreviewGrid.sections = (es.flatMap sections).map rectOfBox := by
  have hall := mapM_eq_ok.mp h
  clear h
  induction hall with
  | nil => exact ⟨rfl, rfl⟩
  | @cons e grid es grids hgrid _ ih =>
    obtain ⟨hrect, hrects⟩ := List.forall_mem_cons.mp hrect
    obtain ⟨hsection, hsections⟩ := List.forall_mem_cons.mp hsections
    obtain ⟨hmap, hflat⟩ := ih hrects hsections
    obtain ⟨rects, hcalc, rfl⟩ := map_eq_ok.mp hgrid
    rw [List.map_cons, List.map_cons, List.map_cons, List.flatMap_cons, List.flatMap_cons,
      List.map_append, hmap, hflat, hsection rects hcalc]
    exact ⟨congrArg (· :: _) hrect, rfl⟩

/-- The model draws the picture. -/
structure Draws (model : PreviewModel Exact) (picture : Picture) : Prop where
  notes : model.notes.map PreviewNote.toRect = picture.notes.map rectOfBox
  grids : model.grids.map PreviewGrid.toRect = picture.grids.map rectOfBox
  sections : model.grids.flatMap PreviewGrid.sections = picture.sections.map rectOfBox

/-- Laid out in numbers, the elements are where the sums put them. -/
theorem layout_num {notes columns tables : List (Element Exact)}
    (hnum : NumericElements notes columns tables)
    (hfinite : ∀ column ∈ columns, FiniteTargets column (notesIn column notes))
    {model : PreviewModel Exact} (h : layout notes columns tables = .ok model) :
    Draws model (pictureOf notes columns tables) := by
  simp only [layout, bind_eq_ok, Except.ok.injEq] at h
  obtain ⟨contained, hcontained, tableContained, htableContained, grids, hgrids, tableGrids,
    htableGrids, rfl⟩ := h
  have hin : ∀ container, ∀ note ∈ notesIn container notes, NumericNote note := by
    intro container note hnote
    exact hnum.notes note (List.mem_of_mem_filter hnote)
  have hcolumnGrids := gridOf_num hgrids
    (fun e he => rectOf_num (hnum.columns e he).x (hnum.columns e he).y (hnum.columns e he).width
      (hnum.columns e he).height)
    fun e he rects hrects => calcColumnSections_num (hnum.columns e he) hrects
  have htableGrids' := gridOf_num htableGrids
    (fun e he => rectOf_num (hnum.tables e he).x (hnum.tables e he).y (hnum.tables e he).width
      (hnum.tables e he).height)
    fun e he rects hrects => calcTableSections_num (hnum.tables e he) hrects
  refine ⟨?_, ?_, ?_⟩
  · have hfree : ∀ free : List (Element Exact), (∀ note ∈ free, NumericNote note) →
        (free.map freeNote).map PreviewNote.toRect = (free.map freeNoteBox).map rectOfBox := by
      intro free hall
      rw [List.map_map, List.map_map]
      apply List.map_congr_left
      intro note hnote
      exact freeNote_num (hall note hnote)
    have hcolumnNotes := map_flatten_of_mapM (k := rectOfBox) hcontained
      fun column hcolumn drawn hdrawn => layoutContainedNotes_num (hnum.columns column hcolumn)
        (hin column) (hfinite column hcolumn) hdrawn
    have htableNotes := map_flatten_of_mapM (k := rectOfBox) htableContained
      fun table htable drawn hdrawn => layoutTableContainedNotes_num (hnum.tables table htable)
        (hin table) hdrawn
    simp only [pictureOf, List.map_append]
    rw [hfree _ fun note hnote => hnum.notes note (List.mem_of_mem_filter hnote), hcolumnNotes,
      htableNotes]
  · simp only [pictureOf, List.map_append]
    rw [hcolumnGrids.1, htableGrids'.1]
  · simp only [pictureOf, List.flatMap_append, List.map_append]
    rw [hcolumnGrids.2, htableGrids'.2]

/-! ### The page -/

/-- 320 by 200, with a margin of 8. -/
def page : Page Rat := { width := 320, height := 200, margin := 8 }

theorem page_valid : page.Valid := ⟨by norm_num [page], by norm_num [page], by norm_num [page]⟩

/-- The rectangle around the boxes; around nothing, the page. -/
def boundsOf (boxes : List (Box Rat)) : Bounds Rat where
  left := extreme min 0 (boxes.map Box.left)
  right := extreme max 320 (boxes.map fun box => box.left + box.width)
  top := extreme min 0 (boxes.map Box.top)
  bottom := extreme max 200 (boxes.map fun box => box.top + box.height)

/-- What is chosen among the numbers is related to each, as a choice is to both of its two. -/
theorem extreme_rel {choose : Rat → Rat → Rat} {r : Rat → Rat → Prop}
    (hrefl : ∀ a, r a a) (htrans : ∀ a b c, r a b → r b c → r a c)
    (hleft : ∀ a b, r (choose a b) a) (hright : ∀ a b, r (choose a b) b) {d : Rat} {qs : List Rat} :
    ∀ q ∈ qs, r (extreme choose d qs) q := by
  have hfold : ∀ (qs : List Rat) (m : Rat),
      r (qs.foldl choose m) m ∧ ∀ q ∈ qs, r (qs.foldl choose m) q := by
    intro qs
    induction qs with
    | nil => exact fun m => ⟨hrefl m, List.forall_mem_nil _⟩
    | cons a qs ih =>
      intro m
      obtain ⟨hm, hall⟩ := ih (choose m a)
      exact ⟨htrans _ _ _ hm (hleft m a),
        List.forall_mem_cons.mpr ⟨htrans _ _ _ hm (hright m a), hall⟩⟩
  cases qs with
  | nil => exact List.forall_mem_nil _
  | cons a qs => exact List.forall_mem_cons.mpr (hfold qs a)

theorem extreme_min_le {d : Rat} {qs : List Rat} : ∀ q ∈ qs, extreme min d qs ≤ q :=
  extreme_rel le_refl (fun _ _ _ => le_trans) min_le_left min_le_right

theorem le_extreme_max {d : Rat} {qs : List Rat} : ∀ q ∈ qs, q ≤ extreme max d qs :=
  extreme_rel (r := fun a b => b ≤ a) le_refl (fun _ _ _ hab hbc => hbc.trans hab) le_max_left
    le_max_right

theorem boundsOf_encloses {boxes : List (Box Rat)} :
    ∀ box ∈ boxes, (boundsOf boxes).Encloses box := by
  intro box hbox
  exact ⟨extreme_min_le _ (List.mem_map_of_mem hbox),
    le_extreme_max _ (List.mem_map.mpr ⟨box, hbox, rfl⟩),
    extreme_min_le _ (List.mem_map_of_mem hbox),
    le_extreme_max _ (List.mem_map.mpr ⟨box, hbox, rfl⟩)⟩

theorem boundsOf_valid {boxes : List (Box Rat)}
    (hsizes : ∀ box ∈ boxes, 0 ≤ box.width ∧ 0 ≤ box.height) : (boundsOf boxes).Valid := by
  cases boxes with
  | nil => exact ⟨by norm_num [boundsOf, extreme], by norm_num [boundsOf, extreme]⟩
  | cons box boxes =>
    have hin := boundsOf_encloses box (List.mem_cons_self (l := boxes))
    obtain ⟨hwidth, hheight⟩ := hsizes box List.mem_cons_self
    exact ⟨hin.left.trans ((le_add_of_nonneg_right hwidth).trans hin.right),
      hin.top.trans ((le_add_of_nonneg_right hheight).trans hin.bottom)⟩

theorem extreme_rat {choose : Exact → Exact → Exact} {choose' : Rat → Rat → Rat}
    (h : ∀ a b, choose (.rat a) (.rat b) = .rat (choose' a b)) (d : Rat) (qs : List Rat) :
    extreme choose (.rat d) (qs.map .rat) = .rat (extreme choose' d qs) := by
  have hfold : ∀ (qs : List Rat) (m : Rat),
      (qs.map Exact.rat).foldl choose (.rat m) = .rat (qs.foldl choose' m) := by
    intro qs
    induction qs with
    | nil => simp
    | cons a qs ih =>
      intro m
      rw [List.map_cons, List.foldl_cons, List.foldl_cons, h, ih]
  cases qs with
  | nil => rfl
  | cons a qs => exact hfold qs a

theorem mapM_toNumber (qs : List Rat) :
    (qs.map num).mapM Value.toNumber = .ok (qs.map Exact.rat) := by
  induction qs with
  | nil => rfl
  | cons q qs ih =>
    rw [List.map_cons, List.mapM_cons, ih]
    rfl

/-- One axis: the least start and the greatest stop. -/
theorem extent_num {size low high : Rat} {starts stops : List Rat}
    (hlow : extreme min 0 starts = low) (hhigh : extreme max size stops = high) (hle : low ≤ high) :
    extent (Exact.rat size) (starts.map num) (stops.map num)
      = .ok (.rat low, .rat (high - low + 2 * page.margin)) := by
  unfold extent
  rw [mapM_toNumber, mapM_toNumber]
  simp only [bind, Except.bind]
  have hmin : extreme Arith.min (Arith.ofNat 0) (starts.map Exact.rat) = .rat low := by
    rw [← hlow, ofNat_rat, Nat.cast_zero]
    exact extreme_rat min_rat 0 starts
  have hmax : extreme Arith.max (Exact.rat size) (stops.map Exact.rat) = .rat high := by
    rw [← hhigh]
    exact extreme_rat max_rat size stops
  have hsource : max (1 : Rat) (high - low + 16) = high - low + 2 * page.margin := by
    rw [max_eq_right (by linarith)]
    norm_num [page]
  rw [hmin, hmax, sub_rat]
  show Except.ok
    (Exact.rat low, Arith.max (Arith.ofNat 1) (Exact.rat (high - low + (16 : Nat)))) = _
  rw [ofNat_rat, max_rat, Nat.cast_one, Nat.cast_ofNat, hsource]

theorem translation_num (size source scale low : Rat) :
    translation (Exact.rat size) (.rat source) (.rat scale) (.rat low)
      = .rat (page.translate size source scale low) := by
  unfold translation Page.translate
  show Arith.sub (Arith.div (Arith.sub (Exact.rat size) (.rat (source * scale))) (.rat (2 : Nat)))
    (Arith.mul (Arith.sub (.rat low) (.rat (8 : Nat))) (.rat scale)) = _
  rw [sub_rat, sub_rat, Nat.cast_ofNat, Nat.cast_ofNat, div_rat two_ne_zero]
  show Arith.sub (Exact.rat ((size - source * scale) / 2)) (.rat ((low - 8) * scale)) = _
  rw [sub_rat]
  rfl

/-- A sum over the fields of every rectangle. -/
theorem mapM_rectOfBox {sum : Rect Exact → Except Abrupt (Value Exact)} {edge : Box Rat → Rat}
    (h : ∀ box, sum (rectOfBox box) = .ok (num (edge box))) (boxes : List (Box Rat)) :
    (boxes.map rectOfBox).mapM sum = .ok ((boxes.map edge).map num) := by
  induction boxes with
  | nil => rfl
  | cons box boxes ih =>
    rw [List.map_cons, List.mapM_cons, h, ih]
    rfl

/-- The matrix of the page for what is measured. -/
theorem transformOf_num {model : PreviewModel Exact} {boxes : List (Box Rat)}
    (hrects : allRects model = boxes.map rectOfBox)
    (hsizes : ∀ box ∈ boxes, 0 ≤ box.width ∧ 0 ≤ box.height) :
    transformOf model (Arith.ofNat 320) (Arith.ofNat 200)
      = .ok { scale := .rat (page.scale (boundsOf boxes)), tx := .rat (page.tx (boundsOf boxes))
              ty := .rat (page.ty (boundsOf boxes)) } := by
  have hvalid := boundsOf_valid hsizes
  have hrights : (allRects model).mapM (fun rect => rect.x.add rect.width)
      = .ok ((boxes.map fun box => box.left + box.width).map num) := by
    rw [hrects]
    exact mapM_rectOfBox (fun _ => rfl) boxes
  have hbottoms : (allRects model).mapM (fun rect => rect.y.add rect.height)
      = .ok ((boxes.map fun box => box.top + box.height).map num) := by
    rw [hrects]
    exact mapM_rectOfBox (fun _ => rfl) boxes
  have hxs : (allRects model).map Rect.x = (boxes.map Box.left).map num := by
    rw [hrects, List.map_map, List.map_map]
    rfl
  have hys : (allRects model).map Rect.y = (boxes.map Box.top).map num := by
    rw [hrects, List.map_map, List.map_map]
    rfl
  have hx : extent (Exact.rat 320) ((boxes.map Box.left).map num)
      ((boxes.map fun box => box.left + box.width).map num)
      = .ok (.rat (boundsOf boxes).left, .rat (page.sourceWidth (boundsOf boxes))) :=
    extent_num rfl rfl hvalid.across
  have hy : extent (Exact.rat 200) ((boxes.map Box.top).map num)
      ((boxes.map fun box => box.top + box.height).map num)
      = .ok (.rat (boundsOf boxes).top, .rat (page.sourceHeight (boundsOf boxes))) :=
    extent_num rfl rfl hvalid.down
  have hwidth := (Page.sourceWidth_pos page_valid hvalid).ne'
  have hheight := (Page.sourceHeight_pos page_valid hvalid).ne'
  unfold transformOf
  simp only [hrights, hbottoms, hxs, hys, bind, Except.bind, ofNat_rat, Nat.cast_ofNat, hx, hy,
    div_rat hwidth, div_rat hheight, min_rat, translation_num]
  rfl

theorem containedBoxes_nonneg {column : Element Exact} {notes : List (Element Exact)} :
    ∀ box ∈ containedBoxes column notes, 0 ≤ box.width ∧ 0 ≤ box.height := by
  intro box hbox
  obtain ⟨group, _, hmem⟩ := List.mem_flatMap.mp hbox
  unfold groupBoxes at hmem
  split at hmem
  · split at hmem
    · exact stackBoxes_nonneg box hmem
    · cases hmem
  · cases hmem

theorem tableNoteBoxes_nonneg {table : Element Exact} {notes : List (Element Exact)} :
    ∀ box ∈ tableNoteBoxes table notes, 0 ≤ box.width ∧ 0 ≤ box.height := by
  intro box hbox
  unfold tableNoteBoxes at hbox
  split at hbox
  · cases hbox
  · obtain ⟨group, _, hmem⟩ := List.mem_flatMap.mp hbox
    unfold cellBoxes at hmem
    split at hmem
    · exact stackBoxes_nonneg box hmem
    · cases hmem

/-- Nothing that is measured has a negative size. -/
theorem measured_nonneg {notes columns tables : List (Element Exact)}
    (hnum : NumericElements notes columns tables) :
    ∀ box ∈ (pictureOf notes columns tables).measured, 0 ≤ box.width ∧ 0 ≤ box.height := by
  intro box hbox
  rcases List.mem_append.mp hbox with hgrid | hnote
  · rcases List.mem_append.mp hgrid with hmem | hmem
    · obtain ⟨e, he, rfl⟩ := List.mem_map.mp hmem
      exact ⟨(hnum.columns e he).width.nonneg 0, (hnum.columns e he).height.nonneg 0⟩
    · obtain ⟨e, he, rfl⟩ := List.mem_map.mp hmem
      exact ⟨(hnum.tables e he).width.nonneg 0, (hnum.tables e he).height.nonneg 0⟩
  · rcases List.mem_append.mp hnote with hmem | hmem
    · rcases List.mem_append.mp hmem with hmem | hmem
      · obtain ⟨e, he, rfl⟩ := List.mem_map.mp hmem
        have hnumeric := hnum.notes e (List.mem_of_mem_filter he)
        exact ⟨(hnumeric.customWidth.orElse hnumeric.width).nonneg (by norm_num),
          hnumeric.computedLayoutHeight.nonneg (by norm_num)⟩
      · obtain ⟨column, _, hmem⟩ := List.mem_flatMap.mp hmem
        exact containedBoxes_nonneg box hmem
    · obtain ⟨table, _, hmem⟩ := List.mem_flatMap.mp hmem
      exact tableNoteBoxes_nonneg box hmem

/-! ### What is on the page -/

/-- All rectangles of a model. -/
def drawnRects (model : PreviewModel Exact) : List (Rect Exact) :=
  allRects model ++ model.grids.flatMap PreviewGrid.sections

/-- After the transform the rectangle lies in the view box `0 0 320 200`. -/
def InView (t : Transform Exact) (rect : Rect Exact) : Prop :=
  ∃ (scale tx ty : Rat) (box : Box Rat),
    t = { scale := .rat scale, tx := .rat tx, ty := .rat ty } ∧ rect = rectOfBox box ∧
    0 ≤ scale * box.left + tx ∧ scale * (box.left + box.width) + tx ≤ 320 ∧
    0 ≤ scale * box.top + ty ∧ scale * (box.top + box.height) + ty ≤ 200

theorem rectOfBox_injective {a b : Box Rat} (h : rectOfBox a = rectOfBox b) : a = b := by
  obtain ⟨ax, ay, aw, ah⟩ := a
  obtain ⟨bx, byy, bw, bh⟩ := b
  simpa [rectOfBox] using h

theorem inView_iff_shows {t : Transform Exact} {b : Bounds Rat}
    (ht : t = { scale := .rat (page.scale b), tx := .rat (page.tx b), ty := .rat (page.ty b) })
    (box : Box Rat) : InView t (rectOfBox box) ↔ page.Shows b box := by
  constructor
  · intro h
    obtain ⟨scale, tx, ty, box', hsame, hrect, hleft, hright, htop, hbottom⟩ := h
    rw [ht] at hsame
    simp only [Transform.mk.injEq, Exact.rat.injEq] at hsame
    obtain ⟨rfl, rfl, rfl⟩ := hsame
    rw [← rectOfBox_injective hrect] at hleft hright htop hbottom
    exact ⟨hleft, hright, htop, hbottom⟩
  · intro h
    exact ⟨_, _, _, box, ht, rfl, h.left, h.right, h.top, h.bottom⟩

/-- The rectangles of a numeric model are the boxes of the picture. -/
theorem Draws.allRects {model : PreviewModel Exact} {picture : Picture} (h : Draws model picture) :
    allRects model = picture.measured.map rectOfBox := by
  rw [Previews.allRects, Picture.measured, List.map_append, h.grids, h.notes]

/-- Everything is drawn on the page exactly if every section is in the frame of what is measured:
    the bounds of the notes and the grids, with the margin, in the proportions of the page. -/
theorem layout_inView_iff {notes columns tables : List (Element Exact)}
    (hnum : NumericElements notes columns tables) {model : PreviewModel Exact}
    (hmodel : layout notes columns tables = .ok model) {t : Transform Exact}
    (ht : transformOf model (Arith.ofNat 320) (Arith.ofNat 200) = .ok t) :
    ((∀ rect ∈ drawnRects model, InView t rect) ∧ ∃ s, t.scale = .rat s ∧ 0 < s) ↔
      (∀ column ∈ columns, FiniteTargets column (notesIn column notes)) ∧
      ∀ box ∈ (pictureOf notes columns tables).sections,
        (page.frame (boundsOf (pictureOf notes columns tables).measured)).Encloses box := by
  have hvalid := boundsOf_valid (measured_nonneg hnum)
  have hmatrix : Draws model (pictureOf notes columns tables) →
      t = { scale := .rat (page.scale (boundsOf (pictureOf notes columns tables).measured))
            tx := .rat (page.tx (boundsOf (pictureOf notes columns tables).measured))
            ty := .rat (page.ty (boundsOf (pictureOf notes columns tables).measured)) } := by
    intro hdraws
    have hok := transformOf_num hdraws.allRects (measured_nonneg hnum)
    rw [ht] at hok
    exact Except.ok.inj hok
  constructor
  · intro h
    obtain ⟨hview, _⟩ := h
    have hfinite : ∀ column ∈ columns, FiniteTargets column (notesIn column notes) := by
      intro column hcolumn
      obtain ⟨contained, hcontained, hrest⟩ := bind_eq_ok.mp hmodel
      simp only [bind_eq_ok, Except.ok.injEq] at hrest
      obtain ⟨tableContained, _, grids, _, tableGrids, _, rfl⟩ := hrest
      obtain ⟨drawn, hdrawn, hlayout⟩ := forall₂_exists_right (mapM_eq_ok.mp hcontained) hcolumn
      refine finiteTargets_of_num (hnum.columns column hcolumn) hlayout ?_
      intro note hnote
      have hmem : note ∈ contained.flatten := List.mem_flatten.mpr ⟨drawn, hdrawn, hnote⟩
      obtain ⟨_, _, _, box, _, hrect, _⟩ := hview note.toRect
        (List.mem_append_left _ (List.mem_append_right _ (List.mem_map_of_mem
          (List.mem_append_left _ (List.mem_append_right _ hmem)))))
      exact ⟨box.left, congrArg Rect.x hrect⟩
    have hdraws := layout_num hnum hfinite hmodel
    refine ⟨hfinite, ?_⟩
    intro box hbox
    rw [← Page.shows_iff page_valid hvalid, ← inView_iff_shows (hmatrix hdraws)]
    refine hview _ (List.mem_append_right _ ?_)
    rw [hdraws.sections]
    exact List.mem_map_of_mem hbox
  · intro h
    obtain ⟨hfinite, hsections⟩ := h
    have hdraws := layout_num hnum hfinite hmodel
    have hpage := hmatrix hdraws
    refine ⟨?_, page.scale (boundsOf (pictureOf notes columns tables).measured), by rw [hpage],
      Page.scale_pos page_valid hvalid⟩
    intro rect hrect
    rcases List.mem_append.mp hrect with hmem | hmem
    · rw [hdraws.allRects] at hmem
      obtain ⟨box, hbox, rfl⟩ := List.mem_map.mp hmem
      rw [inView_iff_shows hpage, Page.shows_iff page_valid hvalid]
      exact Page.frame_encloses page_valid (boundsOf_encloses box hbox)
    · rw [hdraws.sections] at hmem
      obtain ⟨box, hbox, rfl⟩ := List.mem_map.mp hmem
      rw [inView_iff_shows hpage, Page.shows_iff page_valid hvalid]
      exact hsections box hbox

/-- A row with numbers for coordinates and with sizes, weights, widths, positions and spans that are
    numbers and not negative. -/
structure NumericRow (row : RawElementRow) : Prop where
  note : row.type = "NOTE" → NumericNote (normalizeElement row)
  column : row.type = "COLUMN" → NumericColumn (normalizeElement row)
  table : row.type = "TABLE" → NumericTable (normalizeElement row)

theorem numericElements_of_rows {localeCompare : String → String → Int} {rows : List RawElementRow}
    (hrows : ∀ row ∈ rows, NumericRow row) :
    NumericElements (ofKind localeCompare "NOTE" rows) (ofKind localeCompare "COLUMN" rows)
      (ofKind localeCompare "TABLE" rows) := by
  refine ⟨?_, ?_, ?_⟩
  · intro e he
    obtain ⟨⟨row, hrow, rfl⟩, hkind⟩ := mem_ofKind.mp he
    exact (hrows row hrow).note hkind
  · intro e he
    obtain ⟨⟨row, hrow, rfl⟩, hkind⟩ := mem_ofKind.mp he
    exact (hrows row hrow).column hkind
  · intro e he
    obtain ⟨⟨row, hrow, rfl⟩, hkind⟩ := mem_ofKind.mp he
    exact (hrows row hrow).table hkind

/-- The picture of the rows. -/
def pictureOfRows (localeCompare : String → String → Int) (rows : List RawElementRow) : Picture :=
  pictureOf (ofKind localeCompare "NOTE" rows) (ofKind localeCompare "COLUMN" rows)
    (ofKind localeCompare "TABLE" rows)

/-- A preview is drawn on its page exactly if every sub-column is named by a finite number and
    every section lies in the frame of the notes and the grids. -/
theorem previewSvg_inView_iff {localeCompare : String → String → Int} {rows : List RawElementRow}
    (hrows : ∀ row ∈ rows, NumericRow row) {svg : Svg}
    (h : previewSvg Exact localeCompare rows = .ok svg) :
    ∃ model t, buildBoardPreviewModel localeCompare rows = .ok model ∧
      transformOf model (Arith.ofNat 320) (Arith.ofNat 200) = .ok t ∧
      renderBoardPreviewSvg model (Arith.ofNat 320) (Arith.ofNat 200) = .ok svg ∧
      (((∀ rect ∈ drawnRects model, InView t rect) ∧ ∃ s, t.scale = .rat s ∧ 0 < s) ↔
        (∀ column ∈ ofKind localeCompare "COLUMN" rows,
          FiniteTargets column (notesIn column (ofKind localeCompare "NOTE" rows))) ∧
        ∀ box ∈ (pictureOfRows localeCompare rows).sections,
          (page.frame (boundsOf (pictureOfRows localeCompare rows).measured)).Encloses box) := by
  obtain ⟨model, hmodel, hsvg⟩ := bind_eq_ok.mp h
  obtain ⟨t, ht, _⟩ := bind_eq_ok.mp hsvg
  exact ⟨model, t, hmodel, ht, hsvg, layout_inView_iff (numericElements_of_rows hrows) hmodel ht⟩

/-- A table of one column and one row. -/
def tableRow (width : Rat) : RawElementRow :=
  { id := "t", type := "TABLE"
    data := .obj [("x", .num 0), ("y", .num 0), ("width", .num 100), ("height", .num 68),
      ("tableColumns", .arr [.obj [("id", .str "a"), ("width", .num width)]]),
      ("tableRows", .arr [.obj [("id", .str "r")]])] }

theorem numericRow_tableRow {width : Rat} (hwidth : 0 ≤ width) : NumericRow (tableRow width) := by
  refine ⟨fun h => ?_, fun h => ?_, fun _ => ?_⟩
  · exact absurd h (by simp [tableRow])
  · exact absurd h (by simp [tableRow])
  · refine ⟨⟨0, rfl⟩, ⟨0, rfl⟩, ⟨100, by norm_num, rfl⟩, ⟨68, by norm_num, rfl⟩, ?_⟩
    intro columns hcolumns col hcol v hv
    cases hcolumns
    rw [List.mem_singleton.mp hcol] at hv
    cases hv
    exact ⟨width, hwidth, rfl⟩

/-- A column that fills its table is drawn inside of it. -/
theorem previewSvg_inView_tableRow :
    ∃ svg model t, previewSvg Exact (fun _ _ => 0) [tableRow 64] = .ok svg ∧
      buildBoardPreviewModel (fun _ _ => 0) [tableRow 64] = .ok model ∧
      transformOf model (Arith.ofNat 320) (Arith.ofNat 200) = .ok t ∧
      (∀ rect ∈ drawnRects model, InView t rect) ∧ ∃ s, t.scale = .rat s ∧ 0 < s := by
  have hok : (previewSvg Exact (fun _ _ => 0) [tableRow 64]).toOption.isSome = true := by
    decide +kernel
  cases hsvg : previewSvg Exact (fun _ _ => 0) [tableRow 64] with
  | error e => simp [hsvg, Except.toOption] at hok
  | ok svg =>
    have hrows : ∀ row ∈ [tableRow 64], NumericRow row := by
      intro row hrow
      rw [List.mem_singleton.mp hrow]
      exact numericRow_tableRow (by norm_num)
    obtain ⟨model, t, hmodel, ht, _, hiff⟩ := previewSvg_inView_iff hrows hsvg
    refine ⟨svg, model, t, rfl, hmodel, ht, hiff.mpr ⟨?_, ?_⟩⟩
    · intro column hcolumn
      have hnone :
          (ofKind (fun _ _ => 0) "COLUMN" [tableRow 64] : List (Element Exact)).length = 0 := by
        decide +kernel
      rw [List.length_eq_zero_iff.mp hnone] at hcolumn
      cases hcolumn
    · have hall : ((pictureOfRows (fun _ _ => 0) [tableRow 64]).sections.all fun box =>
          let frame := page.frame (boundsOf (pictureOfRows (fun _ _ => 0) [tableRow 64]).measured)
          decide (frame.left ≤ box.left) && decide (box.left + box.width ≤ frame.right) &&
            decide (frame.top ≤ box.top) &&
            decide (box.top + box.height ≤ frame.bottom)) = true := by
        decide +kernel
      intro box hbox
      have hbox' := List.all_eq_true.mp hall box hbox
      simp only [Bool.and_eq_true, decide_eq_true_eq] at hbox'
      exact ⟨hbox'.1.1.1, hbox'.1.1.2, hbox'.1.2, hbox'.2⟩

/-- The column of a table that is wider than the table is drawn beside the page. -/
theorem wide_table_outside :
    NumericRow (tableRow 1000) ∧ ∃ svg model t,
      previewSvg Exact (fun _ _ => 0) [tableRow 1000] = .ok svg ∧
      buildBoardPreviewModel (fun _ _ => 0) [tableRow 1000] = .ok model ∧
      transformOf model (Arith.ofNat 320) (Arith.ofNat 200) = .ok t ∧
      ¬ ((∀ rect ∈ drawnRects model, InView t rect) ∧ ∃ s, t.scale = .rat s ∧ 0 < s) := by
  refine ⟨numericRow_tableRow (by norm_num), ?_⟩
  have hok : (previewSvg Exact (fun _ _ => 0) [tableRow 1000]).toOption.isSome = true := by
    decide +kernel
  cases hsvg : previewSvg Exact (fun _ _ => 0) [tableRow 1000] with
  | error e => simp [hsvg, Except.toOption] at hok
  | ok svg =>
    obtain ⟨model, hmodel, hrender⟩ := bind_eq_ok.mp hsvg
    obtain ⟨t, ht, _⟩ := bind_eq_ok.mp hrender
    refine ⟨svg, model, t, rfl, hmodel, ht, ?_⟩
    have hrows : ∀ row ∈ [tableRow 1000], NumericRow row := by
      intro row hrow
      rw [List.mem_singleton.mp hrow]
      exact numericRow_tableRow (by norm_num)
    rw [layout_inView_iff (numericElements_of_rows hrows) hmodel ht]
    intro h
    have hout : ((pictureOfRows (fun _ _ => 0) [tableRow 1000]).sections.all fun box =>
        decide (box.left + box.width ≤
          (page.frame (boundsOf (pictureOfRows (fun _ _ => 0) [tableRow 1000]).measured)).right))
        = false := by
      decide +kernel
    rw [List.all_eq_false] at hout
    obtain ⟨box, hbox, hright⟩ := hout
    exact hright (decide_eq_true (h.2 box hbox).right)

end Notebortt.Previews
