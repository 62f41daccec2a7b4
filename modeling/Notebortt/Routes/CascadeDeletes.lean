import Notebortt.Lib.InsertionMap
import Notebortt.Routes.ElementPatches

/-! # The cascade on its index maps

    `collectCascadeDeleteIds` reads the elements once, into two maps from a
    parent to the ids it holds, and then visits the ids one by one. The copy in
    `boards/utils.ts` does the same and sorts what it has collected. -/

namespace Notebortt

/-! ### The index maps -/

/-- A map from a parent to the ids it holds. -/
abbrev ParentIndex : Type := InsertionMap String (List String)

namespace ParentIndex

/-- `index.get(parentId) ?? []` -/
def children (index : ParentIndex) (parentId : String) : List String :=
  (index.get? parentId).getD []

/-- One more child of the parent, unless there is none or it is the empty string. -/
def push (index : ParentIndex) (parentId : Option String) (id : String) : ParentIndex :=
  match parentId.filter (· ≠ "") with
  | some parentId => index.set parentId (index.children parentId ++ [id])
  | none => index

theorem children_push (index : ParentIndex) (parentId : Option String) (id p : String) :
    (index.push parentId id).children p =
      index.children p ++ if parentId = some p ∧ p ≠ "" then [id] else [] := by
  unfold push
  cases hfilter : parentId.filter (· ≠ "") with
  | some q =>
    obtain ⟨rfl, hne⟩ := Option.filter_eq_some_iff.mp hfilter
    have hne : q ≠ "" := of_decide_eq_true hne
    unfold children
    dsimp only
    rw [InsertionMap.get?_set]
    by_cases hp : p = q
    · subst hp
      rw [if_pos rfl, if_pos ⟨rfl, hne⟩]
      rfl
    · rw [if_neg hp, if_neg (fun h => hp (Option.some.inj h.1).symm), List.append_nil]
  | none =>
    have hnot : ¬ (parentId = some p ∧ p ≠ "") := by
      rintro ⟨rfl, hne⟩
      rw [Option.filter_some, if_pos (decide_eq_true hne)] at hfilter
      cases hfilter
    rw [if_neg hnot, List.append_nil]

end ParentIndex

structure Indexes where
  containedByColumn : ParentIndex
  columnsByMeta : ParentIndex

def indexElement (ix : Indexes) (element : BoardElement) : Indexes where
  containedByColumn := ix.containedByColumn.push (element.str? "containerId") element.id
  columnsByMeta := ix.columnsByMeta.push (element.str? "metaContainerId") element.id

/-- The pass over `Object.values(allElements)`. -/
def indexElements (allElements : List BoardElement) : Indexes :=
  allElements.foldl indexElement ⟨.empty, .empty⟩

/-- What the pass adds to one of the maps. -/
theorem children_foldl_indexElement {key : String} {column : Indexes → ParentIndex}
    (hcolumn : ∀ ix element,
      column (indexElement ix element) = (column ix).push (element.str? key) element.id)
    (allElements : List BoardElement) (ix : Indexes) (parentId : String) :
    (column (allElements.foldl indexElement ix)).children parentId =
      (column ix).children parentId ++ childrenBy key allElements parentId := by
  induction allElements generalizing ix with
  | nil => exact (List.append_nil _).symm
  | cons element rest ih =>
    -- The element is pushed first, and stays first among the children of its parent.
    rw [List.foldl_cons, ih, hcolumn, ParentIndex.children_push, List.append_assoc]
    congr 1
    unfold childrenBy
    rw [List.filter_cons]
    by_cases h : element.str? key = some parentId ∧ parentId ≠ ""
    · rw [if_pos h, if_pos (decide_eq_true h)]
      rfl
    · rw [if_neg h, if_neg (by simpa using h)]
      rfl

theorem children_containedByColumn (allElements : List BoardElement) (parentId : String) :
    (indexElements allElements).containedByColumn.children parentId =
      containedByColumn allElements parentId :=
  children_foldl_indexElement (fun _ _ => rfl) allElements _ parentId

theorem children_columnsByMeta (allElements : List BoardElement) (parentId : String) :
    (indexElements allElements).columnsByMeta.children parentId =
      columnsByMeta allElements parentId :=
  children_foldl_indexElement (fun _ _ => rfl) allElements _ parentId

/-! ### The loop -/

/-- At most `n` rounds of the loop, or `none` when some id is still pending. -/
def cascadeRounds (ix : Indexes) : Nat → List String → List String → Option (List String)
  | _, [], deletes => some deletes
  | 0, _ :: _, _ => none
  | n + 1, currentId :: pending, deletes =>
    let containedChildren := ix.containedByColumn.children currentId
    let metaChildren := ix.columnsByMeta.children currentId
    let next := visitChildren (containedChildren ++ metaChildren) deletes pending
    cascadeRounds ix n next.2 next.1

/-- `collectCascadeDeleteIds`, when `n` rounds are enough. -/
def collectInRounds (n : Nat) (allElements : List BoardElement) (requestedDeletes : List String) :
    Option (List String) :=
  let pending := toSet requestedDeletes
  cascadeRounds (indexElements allElements) n pending pending

/-- The copy in `boards/utils.ts`. -/
def collectSortedInRounds (n : Nat) (allElements : List BoardElement)
    (requestedDeletes : List String) : Option (List String) :=
  (collectInRounds n allElements requestedDeletes).map fun deletes =>
    deletes.insertionSort fun a b => notAfter (codeUnits a) (codeUnits b)

theorem cascadeRounds_indexElements (allElements : List BoardElement) (n : Nat)
    (pending deletes : List String) :
    cascadeRounds (indexElements allElements) n pending deletes =
      Worklist.run (cascadeChildren allElements) n pending deletes := by
  induction n generalizing pending deletes with
  | zero => cases pending <;> rfl
  | succ n ih =>
    cases pending with
    | nil => rfl
    | cons currentId pending =>
      rw [cascadeRounds, children_containedByColumn, children_columnsByMeta]
      exact ih _ _

/-- With a round for every id requested and every element the loop has ended, with the ids that
    the change sets delete. -/
theorem collectInRounds_eq {n : Nat} {allElements : List BoardElement}
    {requestedDeletes : List String}
    (hn : (toSet requestedDeletes).length + allElements.length ≤ n) :
    collectInRounds n allElements requestedDeletes =
      some (collectCascadeDeleteIds allElements requestedDeletes) := by
  have hfuel : (toSet requestedDeletes).length +
      (Worklist.unfound (allElements.map (·.id)) (toSet requestedDeletes)).length ≤
        (toSet requestedDeletes).length + allElements.length := by
    have hle := List.length_filter_le (· ∉ toSet requestedDeletes) (allElements.map (·.id))
    rw [List.length_map] at hle
    exact Nat.add_le_add_left hle _
  -- The loop has ended after these rounds, and more rounds change nothing.
  have hends := Worklist.run_eq_loop (cascadeChildren_subset allElements) hfuel
  have hends := Worklist.run_mono hends hn
  rw [collectInRounds, cascadeRounds_indexElements, hends, collectCascadeDeleteIds, cascadeLoop_eq]

theorem collectSortedInRounds_eq {n : Nat} {allElements : List BoardElement}
    {requestedDeletes : List String}
    (hn : (toSet requestedDeletes).length + allElements.length ≤ n) :
    collectSortedInRounds n allElements requestedDeletes =
      some (collectCascadeDeleteIdsSorted allElements requestedDeletes) := by
  rw [collectSortedInRounds, collectInRounds_eq hn]
  rfl

/-! ### What is collected -/

theorem nodup_toSet (ids : List String) : (toSet ids).Nodup := by
  suffices h : ∀ acc : List String, acc.Nodup →
      (ids.foldl (fun acc id => if id ∈ acc then acc else acc ++ [id]) acc).Nodup from
    h [] List.nodup_nil
  induction ids with
  | nil => exact fun _ hacc => hacc
  | cons id ids ih =>
    intro acc hacc
    rw [List.foldl_cons]
    apply ih
    split
    · exact hacc
    · next hnew =>
      refine List.nodup_append.mpr ⟨hacc, List.nodup_singleton id, ?_⟩
      rintro a ha b hb rfl
      rw [List.mem_singleton.mp hb] at ha
      exact hnew ha

theorem nodup_collectCascadeDeleteIds (allElements : List BoardElement)
    (requestedDeletes : List String) :
    (collectCascadeDeleteIds allElements requestedDeletes).Nodup := by
  rw [collectCascadeDeleteIds, cascadeLoop_eq]
  exact Worklist.nodup_loop _ (nodup_toSet requestedDeletes)

/-- An element contained in an element of the set is in the set; the empty string contains
    nothing. -/
def ContainmentClosed (allElements : List BoardElement) (s : Set String) : Prop :=
  ∀ e ∈ allElements, ∀ parent ∈ s, parent ≠ "" →
    (e.str? "containerId" = some parent ∨ e.str? "metaContainerId" = some parent) → e.id ∈ s

theorem closed_iff_containmentClosed {allElements : List BoardElement} {s : Set String} :
    Worklist.Closed (cascadeChildren allElements) s ↔ ContainmentClosed allElements s := by
  constructor
  · intro hclosed e he parent hparent hne hkey
    exact hclosed parent hparent e.id (mem_cascadeChildren.mpr ⟨hne, e, he, rfl, hkey⟩)
  · intro hclosed parent hparent id hid
    obtain ⟨hne, e, he, rfl, hkey⟩ := mem_cascadeChildren.mp hid
    exact hclosed e he parent hparent hne hkey

/-- After some number of rounds the loop has ended; what it has collected has no duplicates, and is
    the least of the sets. -/
def CollectsLeast (collect : Nat → Option (List String)) (sets : Set (Set String)) : Prop :=
  ∃ rounds ids, (∀ n, rounds ≤ n → collect n = some ids) ∧ ids.Nodup ∧
    IsLeast sets {id | id ∈ ids}

/-- On any containment graph both copies end, and collect the least set with the requested ids that
    is closed under containment, without duplicates. -/
theorem collectInRounds_collectsLeast (allElements : List BoardElement)
    (requestedDeletes : List String) :
    CollectsLeast (fun n => collectInRounds n allElements requestedDeletes)
      {s | (∀ id ∈ requestedDeletes, id ∈ s) ∧ ContainmentClosed allElements s} ∧
    CollectsLeast (fun n => collectSortedInRounds n allElements requestedDeletes)
      {s | (∀ id ∈ requestedDeletes, id ∈ s) ∧ ContainmentClosed allElements s} := by
  have hleast := isLeast_cascade allElements requestedDeletes
  simp only [closed_iff_containmentClosed] at hleast
  have hnodup := nodup_collectCascadeDeleteIds allElements requestedDeletes
  constructor
  · exact ⟨_, _, fun n hn => collectInRounds_eq hn, hnodup, hleast⟩
  · refine ⟨_, _, fun n hn => collectSortedInRounds_eq hn, ?_, ?_⟩
    · exact (List.perm_insertionSort _ _).nodup_iff.mpr hnodup
    · simpa only [mem_collectCascadeDeleteIdsSorted] using hleast

/-! ### An empty parent -/

/-- An element whose `containerId` is the empty string. -/
def inUnnamed : BoardElement := ⟨"element", Dict.insertAll ∅ [("containerId", .str "")]⟩

/-- The empty id is requested, and the element whose `containerId` it is stays. -/
theorem unnamed_parent_not_followed :
    ¬ CollectsLeast (fun n => collectInRounds n [inUnnamed] [""])
      {s | (∀ id ∈ [""], id ∈ s) ∧ ∀ e ∈ [inUnnamed], ∀ parent ∈ s,
        (e.str? "containerId" = some parent ∨ e.str? "metaContainerId" = some parent) →
          e.id ∈ s} := by
  rintro ⟨rounds, ids, hends, -, ⟨hrequested, hclosed⟩, -⟩
  have hmem : inUnnamed.id ∈ ids :=
    hclosed inUnnamed (List.mem_singleton_self _) "" (hrequested "" (List.mem_singleton_self _))
      (.inl rfl)
  -- The loop ends with what was requested.
  have hids : ids = [""] := by
    have hrun : collectInRounds (rounds + 2) [inUnnamed] [""] = some [""] :=
      collectInRounds_eq (Nat.le_add_left 2 rounds)
    exact Option.some.inj ((hends _ (Nat.le_add_right rounds 2)).symm.trans hrun)
  rw [hids] at hmem
  exact absurd hmem (by decide)

end Notebortt
