import Notebortt.BoardState.State
import Notebortt.Lib.Worklist

/-! # A change set as one simultaneous update

    Deduplicated upserts, the closure of the deletes over the containment
    graph, and the pipeline together are one update of the elements hash and
    of the two marker sets. -/

namespace Notebortt

/-! ### The cascade -/

/-- With a parent the set holds the elements contained in it. An empty `containerId` or
    `metaContainerId` is none. -/
def CascadeClosed (elements : Dict BoardElement) (s : Set String) : Prop :=
  ∀ id e, elements.lookup id = some e → ∀ parent ∈ s, parent ≠ "" →
    (e.str? "containerId" = some parent ∨ e.str? "metaContainerId" = some parent) → e.id ∈ s

/-- The sets that a cascade of the requested deletes may not be smaller than. -/
def CascadeSets (elements : Dict BoardElement) (requested : List String) : Set (Set String) :=
  {s | (∀ id ∈ requested, id ∈ s) ∧ CascadeClosed elements s}

/-- The ids indexed under a parent by one of the two fields. -/
def cascadeChildren (allElements : List BoardElement) (parentId : String) : List String :=
  containedByColumn allElements parentId ++ columnsByMeta allElements parentId

theorem cascadeLoop_eq (allElements : List BoardElement) (n : Nat) (pending deletes : List String) :
    cascadeLoop allElements n pending deletes =
      Worklist.loop (cascadeChildren allElements) n pending deletes := by
  induction n generalizing pending deletes with
  | zero => rfl
  | succ n ih =>
    cases pending with
    | nil => rfl
    | cons currentId pending => exact ih _ _

theorem mem_childrenBy {key : String} {allElements : List BoardElement} {parentId id : String} :
    id ∈ childrenBy key allElements parentId ↔
      parentId ≠ "" ∧ ∃ e ∈ allElements, e.str? key = some parentId ∧ e.id = id := by
  simp only [childrenBy, List.mem_map, List.mem_filter, decide_eq_true_eq]
  constructor
  · rintro ⟨e, ⟨hmem, hkey, hne⟩, hid⟩
    exact ⟨hne, e, hmem, hkey, hid⟩
  · rintro ⟨hne, e, hmem, hkey, hid⟩
    exact ⟨e, ⟨hmem, hkey, hne⟩, hid⟩

theorem mem_cascadeChildren {allElements : List BoardElement} {parentId id : String} :
    id ∈ cascadeChildren allElements parentId ↔
      parentId ≠ "" ∧ ∃ e ∈ allElements, e.id = id ∧
        (e.str? "containerId" = some parentId ∨ e.str? "metaContainerId" = some parentId) := by
  simp only [cascadeChildren, containedByColumn, columnsByMeta, List.mem_append, mem_childrenBy]
  constructor
  · rintro (⟨hne, e, hmem, hkey, hid⟩ | ⟨hne, e, hmem, hkey, hid⟩)
    · exact ⟨hne, e, hmem, hid, .inl hkey⟩
    · exact ⟨hne, e, hmem, hid, .inr hkey⟩
  · rintro ⟨hne, e, hmem, hid, hkey | hkey⟩
    · exact .inl ⟨hne, e, hmem, hkey, hid⟩
    · exact .inr ⟨hne, e, hmem, hkey, hid⟩

/-- Closed under the indexed children is closed under the containment that is read. -/
theorem closed_cascadeChildren_iff {k : BoardKeys} (s : Set String) :
    Worklist.Closed (cascadeChildren k.elementList) s ↔
      CascadeClosed (parsedObject k.elements) s := by
  have hmem : ∀ e, e ∈ k.elementList ↔
      ∃ id, (parsedObject k.elements).lookup id = some e := by
    intro e
    simp [BoardKeys.mem_elementList, lookup_parsedObject]
  constructor
  · intro hclosed id e hlookup parent hparent hne hkey
    refine hclosed parent hparent e.id (mem_cascadeChildren.mpr ⟨hne, e, ?_, rfl, hkey⟩)
    exact (hmem e).mpr ⟨id, hlookup⟩
  · intro hclosed parent hparent id hid
    obtain ⟨hne, e, he, rfl, hkey⟩ := mem_cascadeChildren.mp hid
    obtain ⟨id, hlookup⟩ := (hmem e).mp he
    exact hclosed id e hlookup parent hparent hne hkey

/-- An element stored under `__proto__`, which a read of the whole hash drops, is contained in
    nothing. -/
def ProtoUncontained (elements : Dict BoardElement) : Prop :=
  ∀ e, elements.lookup "__proto__" = some e → ∀ parent, parent ≠ "" →
    e.str? "containerId" ≠ some parent ∧ e.str? "metaContainerId" ≠ some parent

/-- So the read misses nothing that is contained. -/
theorem cascadeSets_parsedObject {elements : Dict BoardElement} (h : ProtoUncontained elements)
    (requested : List String) :
    CascadeSets (parsedObject elements) requested = CascadeSets elements requested := by
  have hclosed : ∀ s, CascadeClosed (parsedObject elements) s ↔ CascadeClosed elements s := by
    intro s
    constructor
    · intro hs id e hlookup parent hparent hne hkey
      by_cases hid : id = "__proto__"
      · subst hid
        obtain ⟨hcontainer, hmeta⟩ := h e hlookup parent hne
        exact absurd hkey (not_or.mpr ⟨hcontainer, hmeta⟩)
      · exact hs id e (by rw [lookup_parsedObject, if_neg hid, hlookup]) parent hparent hne hkey
    · intro hs id e hlookup
      rw [lookup_parsedObject] at hlookup
      split at hlookup
      · cases hlookup
      · exact hs id e hlookup
  ext s
  simp only [CascadeSets, Set.mem_ofPred_eq, hclosed]

theorem cascadeChildren_subset (allElements : List BoardElement) (parentId : String) :
    cascadeChildren allElements parentId ⊆ allElements.map (·.id) := by
  intro id hid
  obtain ⟨-, e, hmem, rfl, -⟩ := mem_cascadeChildren.mp hid
  exact List.mem_map_of_mem hmem

/-- The ids collected from any elements are the least set with the requested ones that is closed
    under the indexed children. -/
theorem isLeast_cascade (allElements : List BoardElement) (requested : List String) :
    IsLeast {s | (∀ id ∈ requested, id ∈ s) ∧ Worklist.Closed (cascadeChildren allElements) s}
      {id | id ∈ collectCascadeDeleteIds allElements requested} := by
  -- whatever the loop finds is the id of an element: its fuel lasts
  have hleast : IsLeast
      {s | (∀ id ∈ toSet requested, id ∈ s) ∧ Worklist.Closed (cascadeChildren allElements) s}
      {id | id ∈ Worklist.loop (cascadeChildren allElements)
        ((toSet requested).length + allElements.length) (toSet requested) (toSet requested)} :=
    Worklist.isLeast_loop (cascadeChildren_subset allElements) (by rw [List.length_map])
  simp only [mem_toSet] at hleast
  simpa only [collectCascadeDeleteIds, cascadeLoop_eq] using hleast

/-- The ids collected are the least set with the requested ones that is closed under
    the containment that is read. -/
theorem isLeast_collectCascadeDeleteIds (k : BoardKeys) (requested : List String) :
    IsLeast (CascadeSets (parsedObject k.elements) requested)
      {id | id ∈ collectCascadeDeleteIds k.elementList requested} := by
  have hsets : CascadeSets (parsedObject k.elements) requested =
      {s | (∀ id ∈ requested, id ∈ s) ∧
        Worklist.Closed (cascadeChildren k.elementList) s} := by
    ext s
    simp only [CascadeSets, Set.mem_ofPred_eq, closed_cascadeChildren_iff]
  rw [hsets]
  exact isLeast_cascade k.elementList requested

/-! ### The resolved change -/

/-- The last of the upserts of an id. -/
def ElementChangeSet.lastUpsert (changeSet : ElementChangeSet) (id : String) :
    Option BoardElement :=
  changeSet.upserts.reverse.find? (·.id = id)

section resolved
variable (cascadeSource : List BoardElement) (changeSet : ElementChangeSet)

theorem resolveChangeSet_deletes :
    (resolveChangeSet cascadeSource changeSet).deletes =
      collectCascadeDeleteIds cascadeSource changeSet.deletes := by
  cases hdeletes : changeSet.deletes with
  | nil =>
    have hloop : ∀ n, cascadeLoop cascadeSource n [] [] = [] := fun n => by cases n <;> rfl
    simp only [resolveChangeSet, hdeletes, List.isEmpty_nil, if_true]
    exact (hloop _).symm
  | cons id ids => simp [resolveChangeSet, hdeletes]

theorem mem_normalizeUpserts {upserts : List BoardElement} {e : BoardElement} :
    e ∈ normalizeUpserts upserts ↔ upserts.reverse.find? (·.id = e.id) = some e := by
  rw [← find?_normalizeUpserts]
  constructor
  · intro hmem
    cases hfind : (normalizeUpserts upserts).find? (·.id = e.id) with
    | none =>
      have hnone := List.find?_eq_none.mp hfind e hmem
      simp at hnone
    | some e' =>
      have hid : e'.id = e.id := by simpa using List.find?_some hfind
      rw [List.inj_on_of_nodup_map (nodup_normalizeUpserts upserts)
        (List.mem_of_find?_eq_some hfind) hmem hid]
  · intro hfind
    exact List.mem_of_find?_eq_some hfind

theorem mem_resolveChangeSet_upserts {e : BoardElement} :
    e ∈ (resolveChangeSet cascadeSource changeSet).upserts ↔
      e.id ∉ (resolveChangeSet cascadeSource changeSet).deletes ∧
        changeSet.lastUpsert e.id = some e := by
  simp only [resolveChangeSet, List.mem_filter, decide_eq_true_eq, mem_normalizeUpserts,
    ElementChangeSet.lastUpsert, and_comm]

theorem nodup_resolveChangeSet_upserts :
    ((resolveChangeSet cascadeSource changeSet).upserts.map (·.id)).Nodup :=
  (nodup_normalizeUpserts changeSet.upserts).sublist (List.filter_sublist.map _)

/-- What the resolved upserts show under an id that is not deleted. -/
theorem find?_resolveChangeSet_upserts {id : String}
    (hkept : id ∉ (resolveChangeSet cascadeSource changeSet).deletes) :
    (resolveChangeSet cascadeSource changeSet).upserts.find? (·.id = id) =
      changeSet.lastUpsert id := by
  cases hfind : (resolveChangeSet cascadeSource changeSet).upserts.find? (·.id = id) with
  | some e =>
    have hid : e.id = id := by simpa using List.find?_some hfind
    obtain ⟨-, hlast⟩ := (mem_resolveChangeSet_upserts _ _).mp (List.mem_of_find?_eq_some hfind)
    rw [← hid, hlast]
  | none =>
    cases hlast : changeSet.lastUpsert id with
    | none => rfl
    | some e =>
      have hid : e.id = id := by simpa using List.find?_some hlast
      have hmem := (mem_resolveChangeSet_upserts cascadeSource changeSet).mpr
        ⟨hid.symm ▸ hkept, hid.symm ▸ hlast⟩
      have hnone := List.find?_eq_none.mp hfind e hmem
      simp [hid] at hnone

end resolved

/-! ### One simultaneous update -/

/-- What a returned change carries, and the counters and markers behind it: `C` is the set of
    deleted ids. -/
structure Returned (changeSet : ElementChangeSet) (C : Set String) (k : BoardKeys)
    (change : PersistedElementChange) (k' : BoardKeys) : Prop where
  upserts : ∀ e, e ∈ change.upserts ↔ e.id ∉ C ∧ changeSet.lastUpsert e.id = some e
  nodup : (change.upserts.map (·.id)).Nodup
  deletes : ∀ id, id ∈ change.deletes ↔ id ∈ C
  sequence : change.sequence = peekSequence k + 1 ∧ peekSequence k' = peekSequence k + 1
  epoch : getDirtyEpoch k' = getDirtyEpoch k + 1
  dirty : ∀ e ∈ change.upserts, e.id ∈ k'.dirtyElementIds ∧ e.id ∉ k'.deletedElementIds
  deleted : ∀ id ∈ C, id ∈ k'.deletedElementIds ∧ id ∉ k'.dirtyElementIds
  disjoint : (∀ id ∈ k.dirtyElementIds, id ∉ k.deletedElementIds) →
    ∀ id ∈ k'.dirtyElementIds, id ∉ k'.deletedElementIds

/-- The elements hash without `C` and with the last upserts of the other ids, all at once. -/
structure AppliedAtOnce (changeSet : ElementChangeSet) (C : Set String) (k : BoardKeys)
    (result : Option PersistedElementChange × BoardKeys) : Prop where
  deleted : ∀ id ∈ C, result.2.elements.lookup id = none
  kept : ∀ id ∉ C,
    result.2.elements.lookup id = (changeSet.lastUpsert id).or (k.elements.lookup id)
  null_iff : result.1 = none ↔ (∀ id ∉ C, changeSet.lastUpsert id = none) ∧ C = ∅
  unchanged : result.1 = none → result.2 = k
  returned : ∀ change, result.1 = some change → Returned changeSet C k change result.2

section
variable (trackChangeLog : Bool) (now : Nat) (changeSet : ElementChangeSet) {k : BoardKeys}

/-- The keys that `applyChangeSet` leaves with a change, and the change. -/
theorem applyChangeSet_of_change {change : PersistedElementChange}
    (h : (applyChangeSet trackChangeLog now changeSet k).1 = some change) :
    change.upserts = (resolveChangeSet k.elementList changeSet).upserts ∧
      change.deletes = (resolveChangeSet k.elementList changeSet).deletes ∧
      change.sequence = peekSequence k + 1 ∧
      Written change { k with seq := some (peekSequence k + 1) }
        (applyChangeSet trackChangeLog now changeSet k).2 := by
  simp only [applyChangeSet] at h ⊢
  split at h
  · cases h
  · next hne =>
    rw [if_neg hne]
    obtain rfl := Option.some.inj h
    exact ⟨rfl, rfl, rfl, written_runPipeline _ _ _ _⟩

theorem applyChangeSet_eq_none_iff :
    (applyChangeSet trackChangeLog now changeSet k).1 = none ↔
      (resolveChangeSet k.elementList changeSet).upserts = [] ∧
        (resolveChangeSet k.elementList changeSet).deletes = [] := by
  simp only [applyChangeSet]
  split
  · next hempty =>
    simp only [Bool.and_eq_true, List.isEmpty_iff] at hempty
    exact iff_of_true rfl hempty
  · next hne =>
    simp only [Bool.and_eq_true, List.isEmpty_iff] at hne
    exact iff_of_false (fun h => by cases h) hne

theorem applyChangeSet_of_none
    (h : (applyChangeSet trackChangeLog now changeSet k).1 = none) :
    (applyChangeSet trackChangeLog now changeSet k).2 = k := by
  simp only [applyChangeSet] at h ⊢
  split at h
  · next hempty => rw [if_pos hempty]
  · cases h

/-- The hash a resolved change leaves, id by id. -/
theorem lookup_applyTo_resolved {change : PersistedElementChange} (elements : Dict BoardElement)
    (hupserts : change.upserts = (resolveChangeSet k.elementList changeSet).upserts)
    (hdeletes : change.deletes = (resolveChangeSet k.elementList changeSet).deletes) (id : String)
    (hkept : id ∉ change.deletes) :
    (change.applyTo elements).lookup id = (changeSet.lastUpsert id).or (elements.lookup id) := by
  simp only [PersistedElementChange.applyTo]
  rw [Dict.lookup_eraseAll, if_neg hkept, hupserts,
    lookup_insertAll_upserts (nodup_resolveChangeSet_upserts _ _),
    find?_resolveChangeSet_upserts _ _ (hdeletes ▸ hkept)]

/-- The ids a change set deletes. -/
def deletedIds (changeSet : ElementChangeSet) (k : BoardKeys) : Set String :=
  {id | id ∈ (resolveChangeSet k.elementList changeSet).deletes}

theorem isLeast_deletedIds :
    IsLeast (CascadeSets (parsedObject k.elements) changeSet.deletes) (deletedIds changeSet k) := by
  rw [deletedIds, resolveChangeSet_deletes]
  exact isLeast_collectCascadeDeleteIds k changeSet.deletes

theorem appliedAtOnce_of_none
    (hresult : (applyChangeSet trackChangeLog now changeSet k).1 = none) :
    AppliedAtOnce changeSet (deletedIds changeSet k) k
      (applyChangeSet trackChangeLog now changeSet k) := by
  have hsame := applyChangeSet_of_none _ _ _ hresult
  obtain ⟨hupserts, hdeletes⟩ := (applyChangeSet_eq_none_iff _ _ _).mp hresult
  have hnone : ∀ id, id ∉ deletedIds changeSet k := by
    intro id hid
    have hmem : id ∈ (resolveChangeSet k.elementList changeSet).deletes := hid
    rw [hdeletes] at hmem
    exact List.not_mem_nil hmem
  -- no id is deleted, so every last upsert would have been kept
  have hlast : ∀ id, changeSet.lastUpsert id = none := by
    intro id
    rw [← find?_resolveChangeSet_upserts k.elementList changeSet (hnone id), hupserts]
    rfl
  constructor
  · intro id hid
    exact absurd hid (hnone id)
  · intro id _
    rw [hsame, hlast]
    rfl
  · exact iff_of_true hresult ⟨fun id _ => hlast id, Set.eq_empty_of_forall_notMem hnone⟩
  · intro _
    exact hsame
  · intro change hchange
    rw [hresult] at hchange
    cases hchange

theorem returned_of_change {change : PersistedElementChange}
    (hresult : (applyChangeSet trackChangeLog now changeSet k).1 = some change) :
    Returned changeSet (deletedIds changeSet k) k change
      (applyChangeSet trackChangeLog now changeSet k).2 := by
  obtain ⟨hupserts, hdeletes, hsequence, hwritten⟩ := applyChangeSet_of_change _ _ _ hresult
  have hmem : ∀ e ∈ change.upserts, e.id ∉ change.deletes := by
    intro e he
    rw [hdeletes]
    exact ((mem_resolveChangeSet_upserts _ _).mp (hupserts ▸ he)).1
  constructor
  · intro e
    rw [hupserts]
    exact mem_resolveChangeSet_upserts _ _
  · rw [hupserts]
    exact nodup_resolveChangeSet_upserts _ _
  · intro id
    rw [hdeletes]
    rfl
  · refine ⟨hsequence, ?_⟩
    rw [peekSequence, hwritten.seq]
    rfl
  · exact hwritten.epoch
  · intro e he
    have hupsert : e.id ∈ change.upserts.map (·.id) := List.mem_map_of_mem he
    refine ⟨(hwritten.dirty e.id).mpr ⟨hmem e he, .inl hupsert⟩, ?_⟩
    intro hdeleted
    rcases (hwritten.deleted e.id).mp hdeleted with h | h
    · exact hmem e he h
    · exact h.1 hupsert
  · intro id hid
    have hdelete : id ∈ change.deletes := by
      rw [hdeletes]
      exact hid
    refine ⟨(hwritten.deleted id).mpr (.inl hdelete), ?_⟩
    intro hdirty
    exact ((hwritten.dirty id).mp hdirty).1 hdelete
  · intro hdisjoint id hdirty hdeleted
    obtain ⟨hkept, hdirty⟩ := (hwritten.dirty id).mp hdirty
    rcases (hwritten.deleted id).mp hdeleted with h | ⟨hnot, h⟩
    · exact hkept h
    · rcases hdirty with hdirty | hdirty
      · exact hnot hdirty
      · exact hdisjoint id hdirty h

theorem appliedAtOnce_of_change {change : PersistedElementChange}
    (hresult : (applyChangeSet trackChangeLog now changeSet k).1 = some change) :
    AppliedAtOnce changeSet (deletedIds changeSet k) k
      (applyChangeSet trackChangeLog now changeSet k) := by
  obtain ⟨hupserts, hdeletes, -, hwritten⟩ := applyChangeSet_of_change _ _ _ hresult
  constructor
  · intro id hid
    rw [hwritten.elements]
    apply lookup_applyTo_of_delete
    rw [hdeletes]
    exact hid
  · intro id hid
    rw [hwritten.elements]
    apply lookup_applyTo_resolved changeSet _ hupserts hdeletes
    rw [hdeletes]
    exact hid
  · refine iff_of_false (by rw [hresult]; simp) ?_
    -- with nothing to upsert and nothing to delete no change would have come back
    rintro ⟨hlast, hempty⟩
    have hnone := (applyChangeSet_eq_none_iff trackChangeLog now changeSet (k := k)).mpr ⟨?_, ?_⟩
    · rw [hresult] at hnone
      cases hnone
    · apply List.eq_nil_iff_forall_not_mem.mpr
      intro e he
      obtain ⟨hkept, hfound⟩ := (mem_resolveChangeSet_upserts _ _).mp he
      rw [hlast e.id hkept] at hfound
      cases hfound
    · apply List.eq_nil_iff_forall_not_mem.mpr
      intro id hid
      have hmem : id ∈ deletedIds changeSet k := hid
      rw [hempty] at hmem
      exact hmem
  · intro hnone
    rw [hresult] at hnone
    cases hnone
  · intro change' hchange'
    obtain rfl := Option.some.inj (hresult.symm.trans hchange')
    exact returned_of_change _ _ _ hresult

theorem appliedAtOnce_deletedIds (k : BoardKeys) :
    AppliedAtOnce changeSet (deletedIds changeSet k) k
      (applyChangeSet trackChangeLog now changeSet k) := by
  cases hresult : (applyChangeSet trackChangeLog now changeSet k).1 with
  | none => exact appliedAtOnce_of_none _ _ _ hresult
  | some change => exact appliedAtOnce_of_change _ _ _ hresult

/-- `applyChangeSet` is one simultaneous update, with the deletes closed under containment. -/
theorem applyChangeSet_at_once (k : BoardKeys) (hproto : ProtoUncontained k.elements) :
    ∃ C, IsLeast (CascadeSets k.elements changeSet.deletes) C ∧
      AppliedAtOnce changeSet C k (applyChangeSet trackChangeLog now changeSet k) := by
  refine ⟨deletedIds changeSet k, ?_, appliedAtOnce_deletedIds trackChangeLog now changeSet k⟩
  rw [← cascadeSets_parsedObject hproto]
  exact isLeast_deletedIds changeSet

end

/-- A column with a note in it, and an element of its own under `__proto__`. -/
def columnKeys : BoardKeys where
  elements := Dict.insertAll ∅
    [("column", ⟨"column", ∅⟩), ("note", ⟨"note", AList.singleton "containerId" (.str "column")⟩),
     ("__proto__", ⟨"__proto__", ∅⟩)]

/-- The column is deleted, with what it contains. -/
theorem applyChangeSet_at_once_column :
    ∃ C, IsLeast (CascadeSets columnKeys.elements ["column"]) C ∧
      AppliedAtOnce ⟨[], ["column"]⟩ C columnKeys
        (applyChangeSet true 0 ⟨[], ["column"]⟩ columnKeys) := by
  refine applyChangeSet_at_once true 0 ⟨[], ["column"]⟩ columnKeys ?_
  intro e he parent _
  obtain rfl : (⟨"__proto__", ∅⟩ : BoardElement) = e := Option.some.inj he
  exact ⟨by simp [BoardElement.str?], by simp [BoardElement.str?]⟩

/-! ### An empty parent -/

/-- A board with one element, whose `containerId` is the empty string. -/
def orphanKeys : BoardKeys where
  elements := (∅ : Dict BoardElement).insert "o" ⟨"o", Dict.insertAll ∅ [("containerId", .str "")]⟩

/-- A cascade that took the empty string for a parent would delete `o` with the empty id. -/
theorem empty_container_not_cascaded :
    ¬ ∃ C, IsLeast
        {s : Set String | (∀ id ∈ [""], id ∈ s) ∧
          ∀ id e, orphanKeys.elements.lookup id = some e → ∀ parent ∈ s,
            (e.str? "containerId" = some parent ∨ e.str? "metaContainerId" = some parent) →
              e.id ∈ s} C ∧
      AppliedAtOnce ⟨[], [""]⟩ C orphanKeys (applyChangeSet true 0 ⟨[], [""]⟩ orphanKeys) := by
  rintro ⟨C, ⟨⟨hrequested, hclosed⟩, -⟩, happlied⟩
  have hmem : "o" ∈ C := hclosed "o" _ rfl "" (hrequested "" (by simp)) (.inl rfl)
  have hstays :
      ((applyChangeSet true 0 ⟨[], [""]⟩ orphanKeys).2.elements.lookup "o").isSome = true := rfl
  rw [happlied.deleted "o" hmem] at hstays
  cases hstays

end Notebortt
