import Notebortt.Previews.SectionGeometry

/-! # Where the notes are drawn

    The notes in a column or in a table are stacked in the sections they name.
    A section with several sub-columns is divided evenly, and a note names its
    part by a number: where this is no finite number, nothing is at a place. -/

namespace Notebortt.Previews

open Js Fit

/-! ### Stacked notes -/

/-- A note whose sizes are numbers that are not negative, or missing. -/
structure NumericNote (note : Element Exact) : Prop where
  x : IsNum (note.get "x")
  y : IsNum (note.get "y")
  customWidth : OptSize (note.get "customWidth")
  width : OptSize (note.get "width")
  computedLayoutHeight : OptSize (note.get "computedLayoutHeight")

def noteWidth (sizes : NoteSizes) (cellWidth : Rat) (note : Element Exact) : Rat :=
  max sizes.minWidth (min (cellWidth - 8)
    (numOr sizes.defaultWidth ((note.get "customWidth").coalesce (note.get "width"))))

def noteHeight (sizes : NoteSizes) (note : Element Exact) : Rat :=
  max sizes.minHeight (min sizes.maxHeight
    (numOr sizes.defaultHeight (note.get "computedLayoutHeight")))

/-- The notes below one another, from `y` on. -/
def stackBoxes (sizes : NoteSizes) (x cellWidth : Rat) : Rat → List (Element Exact) → List (Box Rat)
  | _, [] => []
  | y, note :: notes =>
    { left := x, top := y, width := noteWidth sizes cellWidth note
      height := noteHeight sizes note } ::
      stackBoxes sizes x cellWidth (y + (noteHeight sizes note + sizes.gap)) notes

theorem stackNotes_num {sizes : NoteSizes} {x cellWidth y : Rat} {notes : List (Element Exact)}
    (hnotes : ∀ note ∈ notes, NumericNote note) {drawn : List (PreviewNote Exact)}
    (h : stackNotes sizes (num x) (.rat cellWidth) (num y) notes = .ok drawn) :
    drawn.map PreviewNote.toRect = (stackBoxes sizes x cellWidth y notes).map rectOfBox := by
  induction notes generalizing y drawn with
  | nil =>
    cases h
    rfl
  | cons note notes ih =>
    obtain ⟨hnote, hrest⟩ := List.forall_mem_cons.mp hnotes
    have hwidth := (hnote.customWidth.orElse hnote.width).optNum.coalesce (sizes.defaultWidth : Rat)
    have hheight := hnote.computedLayoutHeight.optNum.coalesce (sizes.defaultHeight : Rat)
    obtain ⟨wanted, hwanted, h⟩ := bind_eq_ok.mp h
    obtain ⟨computed, hcomputed, h⟩ := bind_eq_ok.mp h
    rw [nat_eq, hwidth] at hwanted
    rw [nat_eq, hheight] at hcomputed
    cases hwanted
    cases hcomputed
    simp only [Prim.toNumber, ofNat_rat, sub_rat, min_rat, max_rat, Nat.cast_ofNat] at h
    obtain ⟨cursorY', hadd, h⟩ := bind_eq_ok.mp h
    cases hadd
    obtain ⟨rest, hstack, h⟩ := bind_eq_ok.mp h
    cases h
    rw [List.map_cons, ih hrest hstack]
    rfl

/-- What a note lies in: as wide and as high as the sizes let it be. -/
theorem stackBoxes_nonneg {sizes : NoteSizes} {x cellWidth y : Rat} {notes : List (Element Exact)} :
    ∀ box ∈ stackBoxes sizes x cellWidth y notes, 0 ≤ box.width ∧ 0 ≤ box.height := by
  induction notes generalizing y with
  | nil => simp [stackBoxes]
  | cons note notes ih =>
    refine List.forall_mem_cons.mpr ⟨⟨?_, ?_⟩, ih⟩
    · exact le_max_of_le_left (Nat.cast_nonneg _)
    · exact le_max_of_le_left (Nat.cast_nonneg _)

/-! ### The notes of a column -/

def ordered (notes : List (Element Exact)) : List (Element Exact) :=
  match inContainerOrder notes with
  | .ok ordered => ordered
  | .error _ => []

/-- The boxes of the notes in a section, in the sub-column with this index. -/
def sectionNoteBoxes (columnDef : Value Exact) (box : Box Rat) (subIndex : Rat)
    (notes : List (Element Exact)) : List (Box Rat) :=
  let cellWidth := box.width / max 1 (memberOr 1 columnDef "subColumns")
  stackBoxes columnNoteSizes (box.left + subIndex * cellWidth + 4) cellWidth (box.top + 24)
    (ordered notes)

theorem mem_sortByNumber {α : Type} {key : α → Value Exact} {xs ys : List α}
    (h : sortByNumber key xs = .ok ys) : ys.Perm xs := by
  unfold sortByNumber at h
  split at h
  · cases h
    exact .refl _
  · obtain ⟨keys, hkeys, h⟩ := bind_eq_ok.mp h
    cases h
    have hlen : xs.length = keys.length := (mapM_eq_ok.mp hkeys).length_eq
    refine ((List.mergeSort_perm _ _).map _).trans ?_
    rw [List.map_fst_zip (by omega)]

/-- The section is a numeric one, and its notes too. -/
theorem layoutSectionNotes_num {columnDef : Value Exact} (hdef : NumericDef columnDef)
    {box : Box Rat} {subIndexRaw : Option String} {notes : List (Element Exact)}
    (hnotes : ∀ note ∈ notes, NumericNote note) {subIndex : Rat}
    (hsub : subIndexOf subIndexRaw (Exact.rat (memberOr 1 columnDef "subColumns")) = .rat subIndex)
    {drawn : List (PreviewNote Exact)}
    (h : layoutSectionNotes columnDef (rectOfBox box) subIndexRaw notes = .ok drawn) :
    drawn.map PreviewNote.toRect
      = (sectionNoteBoxes columnDef box subIndex notes).map rectOfBox := by
  obtain ⟨member, hmember, h⟩ := bind_eq_ok.mp h
  obtain ⟨subColumns, hsubColumns, h⟩ := bind_eq_ok.mp h
  have hvalue : memberOr 1 columnDef "subColumns" = numOr 1 member := by
    rw [memberOr, memberOf_of_ok hmember]
  rw [hvalue] at hsub
  rw [nat_eq, Nat.cast_one, (hdef.subColumns member hmember).coalesce] at hsubColumns
  cases hsubColumns
  obtain ⟨width, hwidth, h⟩ := bind_eq_ok.mp h
  cases hwidth
  have hone : (0 : Rat) < max 1 (numOr 1 member) := lt_max_of_lt_left one_pos
  simp only [Prim.toNumber, hsub, ofNat_rat, max_rat, Nat.cast_one, div_rat hone.ne'] at h
  obtain ⟨subX, hsubX, h⟩ := bind_eq_ok.mp h
  cases hsubX
  obtain ⟨sorted, hsorted, h⟩ := bind_eq_ok.mp h
  obtain ⟨cursorY, hcursorY, h⟩ := bind_eq_ok.mp h
  cases hcursorY
  obtain ⟨x, hx, h⟩ := bind_eq_ok.mp h
  cases hx
  have hordered : ordered notes = sorted := by
    unfold ordered
    rw [hsorted]
  have hmem : ∀ note ∈ sorted, NumericNote note := by
    intro note hnote
    exact hnotes note ((mem_sortByNumber hsorted).mem_iff.mp hnote)
  rw [sectionNoteBoxes, hordered, hvalue]
  exact stackNotes_num hmem h

/-- The section with this id, and its box. -/
def sectionOf (column : Element Exact) (sectionId : String) : Option (Value Exact × Box Rat) :=
  findById ((definitionsOf column).map idOf)
    ((definitionsOf column).zip (columnSections column)) sectionId

/-- The index of the sub-column that a target names in a section. -/
def subIndexIn (columnDef : Value Exact) (target : String) : Exact :=
  subIndexOf (splitTarget target).2 (.rat (memberOr 1 columnDef "subColumns"))

def ratOr0 : Exact → Rat
  | .rat q => q
  | _ => 0

def groupBoxes (column : Element Exact) (group : Value Exact × List (Element Exact)) :
    List (Box Rat) :=
  match group.1 with
  | .string target =>
    match sectionOf column (splitTarget target).1 with
    | some (columnDef, box) =>
      sectionNoteBoxes columnDef box (ratOr0 (subIndexIn columnDef target)) group.2
    | none => []
  | _ => []

/-- The boxes of the notes in a column. -/
def containedBoxes (column : Element Exact) (notes : List (Element Exact)) : List (Box Rat) :=
  (groupNotes notes).flatMap (groupBoxes column)

/-- A note that names one of several sub-columns names it by a number that is finite. -/
def FiniteTargets (column : Element Exact) (notes : List (Element Exact)) : Prop :=
  ∀ note ∈ notes, ∀ target, note.get "containerColumnId" = .string target → target ≠ "" →
    ∀ columnDef box, sectionOf column (splitTarget target).1 = some (columnDef, box) →
      ∃ q, subIndexIn columnDef target = .rat q

/-- A group holds notes, and is under the target of one of them. -/
structure GroupOf (notes : List (Element Exact)) (group : Value Exact × List (Element Exact)) :
    Prop where
  nonempty : group.2 ≠ []
  subset : ∀ note ∈ group.2, note ∈ notes
  key : ∃ note ∈ notes, note.get "containerColumnId" = group.1 ∧ group.1.truthy = true

theorem groupOf_pushNote {notes : List (Element Exact)} {note : Element Exact}
    (hnote : note ∈ notes) (htruthy : (note.get "containerColumnId").truthy = true)
    {groups : List (Value Exact × List (Element Exact))} (hall : ∀ g ∈ groups, GroupOf notes g) :
    ∀ g ∈ pushNote note (note.get "containerColumnId") groups, GroupOf notes g := by
  induction groups with
  | nil =>
    intro g hg
    rw [pushNote, List.mem_singleton] at hg
    rw [hg]
    refine ⟨List.cons_ne_nil _ _, ?_, note, hnote, rfl, htruthy⟩
    intro n hn
    rw [List.mem_singleton.mp hn]
    exact hnote
  | cons group groups ih =>
    obtain ⟨hgroup, hrest⟩ := List.forall_mem_cons.mp hall
    unfold pushNote
    split
    · refine List.forall_mem_cons.mpr ⟨⟨by simp, ?_, hgroup.key⟩, hrest⟩
      intro n hn
      rcases List.mem_append.mp hn with hmem | hmem
      · exact hgroup.subset n hmem
      · rw [List.mem_singleton.mp hmem]
        exact hnote
    · exact List.forall_mem_cons.mpr ⟨hgroup, ih hrest⟩

theorem groupOf_groupNotes (notes : List (Element Exact)) :
    ∀ g ∈ groupNotes notes, GroupOf notes g := by
  unfold groupNotes
  refine List.foldlRecOn notes _ (motive := fun groups => ∀ g ∈ groups, GroupOf notes g) ?_ ?_
  · simp
  · intro groups hgroups note hnote
    unfold groupNote
    split
    · rename_i htruthy
      exact groupOf_pushNote hnote htruthy hgroups
    · exact hgroups

theorem sameKey_string {v : Value Exact} {s : String} :
    v.sameKey (.string s) = true ↔ v = .string s := by
  cases v with
  | string t => simp [Value.sameKey]
  | _ => simp [Value.sameKey]

/-- A key that is in the groups stays, and the key that is pushed is there. -/
theorem key_pushNote (note : Element Exact) (target : String)
    (groups : List (Value Exact × List (Element Exact))) :
    ∃ g ∈ pushNote note (.string target) groups, g.1 = .string target := by
  induction groups with
  | nil => exact ⟨_, List.mem_singleton_self _, rfl⟩
  | cons group groups ih =>
    unfold pushNote
    split
    · rename_i hsame
      exact ⟨_, List.mem_cons_self, sameKey_string.mp hsame⟩
    · obtain ⟨g, hg, hkey⟩ := ih
      exact ⟨g, List.mem_cons_of_mem _ hg, hkey⟩

theorem key_pushNote_of_mem (note : Element Exact) (key : Value Exact)
    {groups : List (Value Exact × List (Element Exact))} {g : Value Exact × List (Element Exact)}
    (hg : g ∈ groups) : ∃ g' ∈ pushNote note key groups, g'.1 = g.1 := by
  induction groups with
  | nil => cases hg
  | cons group groups ih =>
    unfold pushNote
    split
    · rcases List.mem_cons.mp hg with rfl | hmem
      · exact ⟨_, List.mem_cons_self, rfl⟩
      · exact ⟨g, List.mem_cons_of_mem _ hmem, rfl⟩
    · rcases List.mem_cons.mp hg with rfl | hmem
      · exact ⟨_, List.mem_cons_self, rfl⟩
      · obtain ⟨g', hg', hkey⟩ := ih hmem
        exact ⟨g', List.mem_cons_of_mem _ hg', hkey⟩

/-- A note that names a place is in a group of that name. -/
theorem exists_group {notes : List (Element Exact)} {note : Element Exact} (hnote : note ∈ notes)
    {target : String} (htarget : note.get "containerColumnId" = .string target)
    (hne : target ≠ "") : ∃ g ∈ groupNotes notes, g.1 = .string target := by
  have hstep : ∀ (rest : List (Element Exact)) (groups : List (Value Exact × List (Element Exact))),
      ((∃ g ∈ groups, g.1 = .string target) ∨ note ∈ rest) →
      ∃ g ∈ rest.foldl groupNote groups, g.1 = .string target := by
    intro rest
    induction rest with
    | nil =>
      intro groups h
      rcases h with h | h
      · exact h
      · cases h
    | cons n rest ih =>
      intro groups h
      rw [List.foldl_cons]
      apply ih
      rcases h with ⟨g, hg, hkey⟩ | hmem
      · left
        unfold groupNote
        split
        · obtain ⟨g', hg', hkey'⟩ := key_pushNote_of_mem n (n.get "containerColumnId") hg
          exact ⟨g', hg', hkey'.trans hkey⟩
        · exact ⟨g, hg, hkey⟩
      · rcases List.mem_cons.mp hmem with rfl | hmem
        · left
          rw [groupNote, htarget]
          simp only [Value.truthy, bne_iff_ne, ne_eq, hne, not_false_eq_true, if_true]
          exact key_pushNote note target groups
        · exact .inr hmem
  exact hstep notes [] (.inr hnote)

/-- The notes that are drawn for a group: none where its section is missing. -/
structure CellOf (column : Element Exact) (group : Value Exact × List (Element Exact))
    (target : String) (cell : List (PreviewNote Exact)) : Prop where
  key : group.1 = .string target
  missing : sectionOf column (splitTarget target).1 = none → cell = []
  found : ∀ columnDef box, sectionOf column (splitTarget target).1 = some (columnDef, box) →
    layoutSectionNotes columnDef (rectOfBox box) (splitTarget target).2 group.2 = .ok cell

/-- What `layoutContainedNotes` has drawn for each group. -/
theorem layoutContainedNotes_eq_ok {column : Element Exact} (hcolumn : NumericColumn column)
    {notes : List (Element Exact)} {drawn : List (PreviewNote Exact)}
    (h : layoutContainedNotes column notes = .ok drawn) :
    ∃ cells, drawn = cells.flatten ∧
      List.Forall₂ (fun group cell => ∃ target, CellOf column group target cell)
        (groupNotes notes) cells := by
  obtain ⟨defs, hdefs, h⟩ := bind_eq_ok.mp h
  obtain ⟨ids, hids, h⟩ := bind_eq_ok.mp h
  obtain ⟨rects, hrects, h⟩ := bind_eq_ok.mp h
  obtain ⟨cells, hcells, h⟩ := bind_eq_ok.mp h
  cases h
  refine ⟨cells, rfl, (mapM_eq_ok.mp hcells).imp ?_⟩
  intro group cell hgroup
  obtain ⟨parts, hsplit, hcell⟩ := bind_eq_ok.mp hgroup
  obtain ⟨key, members⟩ := group
  cases key with
  | string target =>
    cases hsplit
    have hzip : defs.zip rects
        = (defs.zip (columnSections column)).map fun entry => (entry.1, rectOfBox entry.2) := by
      rw [calcColumnSections_num hcolumn hrects, List.zip_map_right]
      rfl
    rw [← definitionsOf_of_items hdefs] at hids hzip
    rw [mapM_id hids, ← definitionsOf_of_items hdefs, hzip, findById_map] at hcell
    refine ⟨target, rfl, ?_, ?_⟩
    · intro hnone
      rw [sectionOf] at hnone
      rw [hnone] at hcell
      cases hcell
      rfl
    · intro columnDef box hsome
      rw [sectionOf] at hsome
      rw [hsome] at hcell
      exact hcell
  | _ => cases hsplit

theorem sectionOf_numeric {column : Element Exact} (hcolumn : NumericColumn column)
    {sectionId : String} {columnDef : Value Exact} {box : Box Rat}
    (h : sectionOf column sectionId = some (columnDef, box)) : NumericDef columnDef := by
  have hmem : columnDef ∈ definitionsOf column := (List.of_mem_zip (mem_of_findById h)).1
  unfold definitionsOf at hmem
  cases hv : sectionsOf column with
  | array defs =>
    rw [hv] at hmem
    exact hcolumn.sections defs (by rw [hv]; rfl) columnDef hmem
  | _ =>
    rw [hv] at hmem
    cases hmem

/-- The notes in a numeric column are stacked in its sections. -/
theorem layoutContainedNotes_num {column : Element Exact} (hcolumn : NumericColumn column)
    {notes : List (Element Exact)} (hnotes : ∀ note ∈ notes, NumericNote note)
    (hfinite : FiniteTargets column notes) {drawn : List (PreviewNote Exact)}
    (h : layoutContainedNotes column notes = .ok drawn) :
    drawn.map PreviewNote.toRect = (containedBoxes column notes).map rectOfBox := by
  obtain ⟨cells, rfl, hcells⟩ := layoutContainedNotes_eq_ok hcolumn h
  have hgroups := groupOf_groupNotes notes
  unfold containedBoxes
  clear h
  revert hcells hgroups
  generalize groupNotes notes = groups
  intro hcells hgroups
  induction hcells with
  | nil => rfl
  | @cons group cell groups cells hcell _ ih =>
    obtain ⟨hgroup, hrest⟩ := List.forall_mem_cons.mp hgroups
    rw [List.flatten_cons, List.map_append, List.flatMap_cons, List.map_append, ih hrest]
    congr 1
    obtain ⟨target, hcell⟩ := hcell
    unfold groupBoxes
    rw [hcell.key]
    cases hfound : sectionOf column (splitTarget target).1 with
    | none =>
      rw [hcell.missing hfound]
      simp [hfound]
    | some entry =>
      obtain ⟨columnDef, box⟩ := entry
      obtain ⟨note, hnote, hat, htruthy⟩ := hgroup.key
      have hne : target ≠ "" := by
        rw [hcell.key] at htruthy
        simpa [Value.truthy] using htruthy
      obtain ⟨q, hq⟩ := hfinite note hnote target (hat.trans hcell.key) hne columnDef box hfound
      simp only [hfound, hq]
      exact layoutSectionNotes_num (sectionOf_numeric hcolumn hfound)
        (fun n hn => hnotes n (hgroup.subset n hn)) hq (hcell.found columnDef box hfound)

theorem rat_of_add {a : Exact} {b q : Rat} (h : Exact.add (.rat b) a = .rat q) :
    ∃ p, a = .rat p := by
  cases a with
  | rat p => exact ⟨p, rfl⟩
  | _ => cases h

theorem rat_of_mul {a : Exact} {b q : Rat} (h : Exact.mul a (.rat b) = .rat q) :
    ∃ p, a = .rat p := by
  have hinf : ∀ s, Exact.infinity s ≠ .rat q := by
    intro s
    unfold Exact.infinity
    split
    · simp
    · split <;> simp
  cases a with
  | rat p => exact ⟨p, rfl⟩
  | nan => cases h
  | _ => exact absurd h (hinf _)

/-- Notes that are drawn at a number are in a sub-column with a number. -/
theorem finite_of_layoutSectionNotes {columnDef : Value Exact} (hdef : NumericDef columnDef)
    {box : Box Rat} {subIndexRaw : Option String} {notes : List (Element Exact)} (hne : notes ≠ [])
    {drawn : List (PreviewNote Exact)}
    (h : layoutSectionNotes columnDef (rectOfBox box) subIndexRaw notes = .ok drawn)
    (hnum : ∀ note ∈ drawn, IsNum note.x) :
    ∃ q, subIndexOf subIndexRaw (Exact.rat (memberOr 1 columnDef "subColumns")) = .rat q := by
  obtain ⟨member, hmember, h⟩ := bind_eq_ok.mp h
  obtain ⟨subColumns, hsubColumns, h⟩ := bind_eq_ok.mp h
  have hvalue : memberOr 1 columnDef "subColumns" = numOr 1 member := by
    rw [memberOr, memberOf_of_ok hmember]
  rw [nat_eq, Nat.cast_one, (hdef.subColumns member hmember).coalesce, ← hvalue] at hsubColumns
  cases hsubColumns
  obtain ⟨width, hwidth, h⟩ := bind_eq_ok.mp h
  cases hwidth
  have hone : (0 : Rat) < max 1 (memberOr 1 columnDef "subColumns") := lt_max_of_lt_left one_pos
  simp only [Prim.toNumber, ofNat_rat, max_rat, Nat.cast_one, div_rat hone.ne'] at h
  obtain ⟨subX, hsubX, h⟩ := bind_eq_ok.mp h
  cases hsubX
  obtain ⟨sorted, hsorted, h⟩ := bind_eq_ok.mp h
  obtain ⟨cursorY, _, h⟩ := bind_eq_ok.mp h
  obtain ⟨x, hx, h⟩ := bind_eq_ok.mp h
  cases hx
  cases sorted with
  | nil => exact absurd (mem_sortByNumber hsorted).symm.eq_nil hne
  | cons note sorted =>
    simp only [stackNotes, bind_eq_ok, Except.ok.injEq] at h
    obtain ⟨_, _, _, _, _, _, rest, _, rfl⟩ := h
    obtain ⟨q, hq⟩ := hnum _ List.mem_cons_self
    have hsum : ∀ e : Exact, Exact.add e (.rat 4) = .rat q → ∃ p, e = .rat p := by
      intro e he
      cases e with
      | rat p => exact ⟨p, rfl⟩
      | _ => cases he
    obtain ⟨p, hp⟩ := hsum _ (Value.number.inj hq)
    obtain ⟨p', hp'⟩ := rat_of_add hp
    exact rat_of_mul hp'

theorem finiteTargets_of_num {column : Element Exact} (hcolumn : NumericColumn column)
    {notes : List (Element Exact)} {drawn : List (PreviewNote Exact)}
    (h : layoutContainedNotes column notes = .ok drawn) (hnum : ∀ note ∈ drawn, IsNum note.x) :
    FiniteTargets column notes := by
  intro note hnote target htarget hne columnDef box hsection
  obtain ⟨cells, rfl, hcells⟩ := layoutContainedNotes_eq_ok hcolumn h
  obtain ⟨group, hgroup, hkey⟩ := exists_group hnote htarget hne
  obtain ⟨cell, hcell, target', hof⟩ := forall₂_exists_right hcells hgroup
  have hsame : target' = target := Value.string.inj (hof.key.symm.trans hkey)
  rw [hsame] at hof
  exact finite_of_layoutSectionNotes (sectionOf_numeric hcolumn hsection)
    (groupOf_groupNotes notes group hgroup).nonempty (hof.found columnDef box hsection)
    fun n hn => hnum n (List.mem_flatten.mpr ⟨cell, hcell, hn⟩)

/-! ### The notes of a table -/

def noteColIds (table : Element Exact) : List (Value Exact) :=
  (okOr [] (noteColumns (columnsOf table))).map idOf

def rowIdsOf (table : Element Exact) : List (Value Exact) :=
  match tableRowsOf table with
  | .array rows => rows.map idOf
  | _ => []

/-- The boxes of the notes in one cell. -/
def cellBoxes (table : Element Exact) (target : String × Option String)
    (notes : List (Element Exact)) : List (Box Rat) :=
  match (tableIds table).findIdx? (·.isText target.1),
    (rowIdsOf table).findIdx? (·.isText (target.2.getD "undefined")) with
  | some k, some row =>
    stackBoxes tableNoteSizes
      (numOr (boxOf table).left (startOfColumn (tableIds table) (tableStarts table) target.1) + 2)
      ((widthsOf table).getD k 0) ((boxOf table).top + 40 + row * 28 + 2) (ordered notes)
  | _, _ => []

/-- The boxes of the notes in a table. -/
def tableNoteBoxes (table : Element Exact) (notes : List (Element Exact)) : List (Box Rat) :=
  if noteColIds table = [] ∨ rowCount table = 0 then []
  else (okOr [] (tableGroups (noteColIds table) (rowIdsOf table) notes)).flatMap fun group =>
    cellBoxes table (okOr ("", none) (splitValue group.1)) group.2

theorem subset_pushNote {notes : List (Element Exact)} {note : Element Exact} (hnote : note ∈ notes)
    {key : Value Exact} {groups : List (Value Exact × List (Element Exact))}
    (hall : ∀ g ∈ groups, ∀ n ∈ g.2, n ∈ notes) :
    ∀ g ∈ pushNote note key groups, ∀ n ∈ g.2, n ∈ notes := by
  induction groups with
  | nil =>
    intro g hg n hn
    rw [List.mem_singleton.mp hg, List.mem_singleton] at hn
    rw [hn]
    exact hnote
  | cons group groups ih =>
    obtain ⟨hgroup, hrest⟩ := List.forall_mem_cons.mp hall
    unfold pushNote
    split
    · refine List.forall_mem_cons.mpr ⟨?_, hrest⟩
      intro n hn
      rcases List.mem_append.mp hn with hmem | hmem
      · exact hgroup n hmem
      · rw [List.mem_singleton.mp hmem]
        exact hnote
    · exact List.forall_mem_cons.mpr ⟨hgroup, ih hrest⟩

/-- The groups hold notes of the list. -/
theorem subset_tableGroups {colIds rowIds : List (Value Exact)} {notes : List (Element Exact)}
    {groups : List (Value Exact × List (Element Exact))}
    (h : tableGroups colIds rowIds notes = .ok groups) : ∀ g ∈ groups, ∀ n ∈ g.2, n ∈ notes := by
  have hstep : ∀ (rest : List (Element Exact))
      (acc groups : List (Value Exact × List (Element Exact))),
      (∀ n ∈ rest, n ∈ notes) → (∀ g ∈ acc, ∀ n ∈ g.2, n ∈ notes) →
      rest.foldlM (tableGroup colIds rowIds) acc = .ok groups →
      ∀ g ∈ groups, ∀ n ∈ g.2, n ∈ notes := by
    intro rest
    induction rest with
    | nil =>
      intro acc groups _ hacc hfold
      cases hfold
      exact hacc
    | cons note rest ih =>
      intro acc groups hrest hacc hfold
      obtain ⟨hnote, hrest⟩ := List.forall_mem_cons.mp hrest
      rw [List.foldlM_cons] at hfold
      obtain ⟨acc', hacc', hfold⟩ := bind_eq_ok.mp hfold
      refine ih acc' groups hrest ?_ hfold
      unfold tableGroup at hacc'
      split at hacc'
      · obtain ⟨target, _, hpush⟩ := bind_eq_ok.mp hacc'
        split at hpush
        · cases hpush
          exact subset_pushNote hnote hacc
        · cases hpush
          exact hacc
      · cases hacc'
        exact hacc
  exact hstep notes [] groups (fun n hn => hn) (by simp) h

theorem coalesce_startOfColumn (table : Element Exact) {ids : List (Value Exact)} (colId : String)
    (d : Rat) : (startOfColumn ids (tableStarts table) colId).coalesce (num d)
      = num (numOr d (startOfColumn ids (tableStarts table) colId)) := by
  refine OptNum.coalesce ?_ d
  unfold startOfColumn
  split
  · exact optNum_tableStarts table _
  · exact .inl rfl

theorem layoutCellNotes_num {table : Element Exact} (htable : NumericTable table)
    {target : String × Option String} {notes : List (Element Exact)}
    (hnotes : ∀ note ∈ notes, NumericNote note) {drawn : List (PreviewNote Exact)}
    (h : layoutCellNotes table (columnsOf table) (tableIds table) (rowIdsOf table)
      (tableStarts table) target notes = .ok drawn) :
    drawn.map PreviewNote.toRect = (cellBoxes table target notes).map rectOfBox := by
  unfold layoutCellNotes at h
  unfold cellBoxes
  cases hk : (tableIds table).findIdx? (·.isText target.1) with
  | none =>
    rw [hk] at h
    cases h
    rfl
  | some k =>
    cases hrow : (rowIdsOf table).findIdx? (·.isText (target.2.getD "undefined")) with
    | none =>
      rw [hk, hrow] at h
      cases h
      rfl
    | some row =>
      rw [hk, hrow] at h
      obtain ⟨y₁, hy₁, h⟩ := bind_eq_ok.mp h
      rw [htable.y.eq 0, nat_eq, add_num] at hy₁
      cases hy₁
      obtain ⟨y₂, hy₂, h⟩ := bind_eq_ok.mp h
      rw [nat_eq, add_num] at hy₂
      cases hy₂
      obtain ⟨cursorY, hcursorY, h⟩ := bind_eq_ok.mp h
      rw [nat_eq, add_num] at hcursorY
      cases hcursorY
      obtain ⟨startX, hstartX, h⟩ := bind_eq_ok.mp h
      rw [htable.x.eq 0, coalesce_startOfColumn, nat_eq, add_num] at hstartX
      cases hstartX
      obtain ⟨sorted, hsorted, h⟩ := bind_eq_ok.mp h
      obtain ⟨width, hwidth, h⟩ := bind_eq_ok.mp h
      obtain ⟨cell, hcell, h⟩ := bind_eq_ok.mp h
      have hlt : k < (columnsOf table).length := by
        have hidx := (List.findIdx?_eq_some_iff_getElem.mp hk).1
        simpa [tableIds] using hidx
      have hat : Value.itemAt (columnsOf table) k = (columnsOf table)[k] := by
        simp [Value.itemAt, hlt]
      -- The width that the code reads is that of the column found.
      have hvalue : width = num ((widthsOf table).getD k 0) := by
        have hsize := htable.width_of_mem (List.getElem_mem hlt) (hat ▸ hwidth)
        rw [List.getD_eq_getElem?_getD, widthsOf, List.getElem?_map, List.getElem?_eq_getElem hlt]
        show width = num (memberOr 0 (columnsOf table)[k] "width")
        rw [memberOr, memberOf_of_ok (hat ▸ hwidth)]
        exact hsize.isNum.eq 0
      rw [hvalue] at hcell
      cases hcell
      have hordered : ordered notes = sorted := by
        unfold ordered
        rw [hsorted]
      have hmem : ∀ note ∈ sorted, NumericNote note := by
        intro note hnote
        exact hnotes note ((mem_sortByNumber hsorted).mem_iff.mp hnote)
      have hstack := stackNotes_num hmem h
      rw [hordered]
      simpa [boxOf] using hstack

/-- The notes in a numeric table are stacked in its cells. -/
theorem layoutTableContainedNotes_num {table : Element Exact} (htable : NumericTable table)
    {notes : List (Element Exact)} (hnotes : ∀ note ∈ notes, NumericNote note)
    {drawn : List (PreviewNote Exact)} (h : layoutTableContainedNotes table notes = .ok drawn) :
    drawn.map PreviewNote.toRect = (tableNoteBoxes table notes).map rectOfBox := by
  obtain ⟨columns, hcolumns, h⟩ := bind_eq_ok.mp h
  rw [← columnsOf_of_items hcolumns] at h
  obtain ⟨noteCols, hnoteCols, h⟩ := bind_eq_ok.mp h
  have hids : noteColIds table = noteCols.map idOf := by
    rw [noteColIds, hnoteCols]
    rfl
  unfold tableNoteBoxes
  split at h
  · rename_i hempty
    cases h
    rw [if_pos (.inl (by rw [hids, List.isEmpty_iff.mp hempty]; rfl))]
    rfl
  · rename_i hnonempty
    obtain ⟨noRows, hno, h⟩ := bind_eq_ok.mp h
    cases noRows with
    | true =>
      cases h
      rw [if_pos (.inr (rowCount_eq_zero hno))]
      rfl
    | false =>
      simp only [Bool.false_eq_true, if_false] at h
      obtain ⟨colSet, hcolSet, h⟩ := bind_eq_ok.mp h
      obtain ⟨rows, hrows, h⟩ := bind_eq_ok.mp h
      obtain ⟨rowIds, hrowIds, h⟩ := bind_eq_ok.mp h
      obtain ⟨ids, hcolIds, h⟩ := bind_eq_ok.mp h
      obtain ⟨colX, hcolX, h⟩ := bind_eq_ok.mp h
      obtain ⟨starts, hstarts, h⟩ := bind_eq_ok.mp h
      obtain ⟨groups, hgroups, h⟩ := bind_eq_ok.mp h
      obtain ⟨cells, hcells, h⟩ := bind_eq_ok.mp h
      cases h
      rw [htable.x.eq 0, nat_eq, add_num] at hcolX
      cases hcolX
      -- What is known of the rows: an array, which is not empty.
      have harray := Value.eq_array_of_items hrows
      have hrowEq : rowIds = rowIdsOf table := by
        rw [mapM_id hrowIds, rowIdsOf, harray]
      have hcount : rowCount table ≠ 0 := by
        rw [harray] at hno
        rw [rowCount, harray]
        simpa [lengthZero] using hno
      rw [mapM_id hcolSet, ← hids, hrowEq] at hgroups
      rw [mapM_id hcolIds, hrowEq, tableStarts_eq htable hstarts] at hcells
      have hcells' : ¬ (noteColIds table = [] ∨ rowCount table = 0) := by
        rw [not_or, hids, List.map_eq_nil_iff, ← List.isEmpty_iff]
        exact ⟨hnonempty, hcount⟩
      -- Cell by cell.
      rw [if_neg hcells', hgroups]
      refine map_flatten_of_mapM hcells ?_
      intro group hgroup cell hcell
      obtain ⟨target, htarget, hcell⟩ := bind_eq_ok.mp hcell
      rw [htarget]
      refine layoutCellNotes_num htable ?_ hcell
      intro note hnote
      exact hnotes note (subset_tableGroups hgroups group hgroup note hnote)

end Notebortt.Previews
