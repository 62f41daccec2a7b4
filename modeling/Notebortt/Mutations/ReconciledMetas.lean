import Notebortt.BoardState.ChangeSets
import Notebortt.Mutations.LockedPositions

/-! # What a reconcile of a month range reaches

    A `RECONCILE_MONTH_RANGE` passes every lock rule. Its validation looks at the
    containment of the upserts in the payload, not in the board, and lets pass a
    delete of an id that the board does not hold. -/

namespace Notebortt

/-! ### Inside a meta -/

/-- The element names the parent by `containerId` or `metaContainerId`. -/
def IsContainedIn (e : BoardElement) (parent : String) : Prop :=
  e.str? "containerId" = some parent ∨ e.str? "metaContainerId" = some parent

instance (e : BoardElement) (parent : String) : Decidable (IsContainedIn e parent) :=
  inferInstanceAs (Decidable (_ ∨ _))

/-- The ids of the elements contained in the meta, directly or through others. -/
inductive Inside (elements : Dict BoardElement) (metaId : String) : String → Prop where
  | direct {id : String} {e : BoardElement} :
      elements.lookup id = some e → IsContainedIn e metaId → Inside elements metaId e.id
  | nested {parent id : String} {e : BoardElement} :
      Inside elements metaId parent → elements.lookup id = some e → IsContainedIn e parent →
        Inside elements metaId e.id

/-- An element of the board that is neither the meta nor inside it. -/
def IsOutside (elements : Dict BoardElement) (metaId id : String) (e : BoardElement) : Prop :=
  elements.lookup id = some e ∧ id ≠ metaId ∧ ¬ Inside elements metaId id

/-- Every element outside the meta stays as it is. -/
def KeepsOutside (cfg : Config) (writeMode : BoardSyncWriteMode) (now : Nat) (mutation : Mutation)
    (metaId : String) (s : Server) : Prop :=
  ∀ id e, IsOutside (s.redis mutation.boardId).elements metaId id e →
    ((processMutation cfg writeMode now mutation s).2.redis mutation.boardId).elements.lookup id =
      some e

/-! ### The condition -/

/-- The deletes that the board does not hold, as the context reads it. -/
def unheldDeletes (cfg : Config) (elementsById : LockContext) (deletes : List String) :
    List String :=
  deletes.filter fun id => (readable cfg elementsById id).all fun e => e.id ≠ id

/-- No element outside the meta is contained in a delete that the board does not hold, and no
    upsert has the id of one, unless it brings the very element. -/
def SparesOutside (cfg : Config) (k : BoardKeys) (metaId : String) (upserts : List BoardElement)
    (deletes : List String) : Prop :=
  ∀ id e, IsOutside k.elements metaId id e →
    id ∉ collectCascadeDeleteIds k.elementList (unheldDeletes cfg k.elements.lookup deletes) ∧
      ∀ u ∈ upserts, u.id = id → u = e

/-! ### What the validation checks -/

section valid
variable {context : LockContext} {metaId : String}

theorem validateDeletes_contained {upsertIds : List String} :
    ∀ {deletes deleteIds : List String},
      validateDeletes context metaId upsertIds deletes deleteIds = none →
      ∀ id ∈ deletes, ∀ e, context id = some e → e.str? "metaContainerId" = some metaId := by
  intro deletes
  induction deletes with
  | nil =>
    intro deleteIds _ id hid
    cases hid
  | cons d deletes ih =>
    intro deleteIds h id hid e he
    unfold validateDeletes at h
    split at h
    · cases h
    split at h
    · cases h
    split at h
    · cases h
    cases hd : context d with
    | none =>
      -- an id that the board does not hold is passed over
      rw [hd] at h
      rcases List.mem_cons.mp hid with rfl | hid
      · rw [hd] at he
        cases he
      · exact ih h id hid e he
    | some element =>
      rw [hd] at h
      dsimp only at h
      split at h
      · next hcontained =>
        rcases List.mem_cons.mp hid with rfl | hid
        · obtain rfl := Option.some.inj (hd.symm.trans he)
          exact hcontained
        · exact ih h id hid e he
      · cases h

theorem validateUpserts_nodup : ∀ {upserts : List BoardElement} {upsertIds : List String}
    {count : Nat} {result : List String × Nat},
      validateUpserts metaId upserts upsertIds count = .ok result →
      (upserts.map (·.id)).Nodup ∧ ∀ u ∈ upserts, u.id ∉ upsertIds := by
  intro upserts
  induction upserts with
  | nil =>
    intro upsertIds count result _
    exact ⟨List.nodup_nil, fun u hu => by cases hu⟩
  | cons u upserts ih =>
    intro upsertIds count result h
    unfold validateUpserts at h
    split at h
    · cases h
    next hfresh =>
    have hrest : ∃ count, validateUpserts metaId upserts (u.id :: upsertIds) count =
        .ok result := by
      repeat' split at h
      all_goals first
        | cases h
        | exact ⟨_, h⟩
    obtain ⟨count', hrest⟩ := hrest
    obtain ⟨hnodup, hnew⟩ := ih hrest
    constructor
    · refine List.nodup_cons.mpr ⟨fun hmem => ?_, hnodup⟩
      obtain ⟨u', hu', hid⟩ := List.mem_map.mp hmem
      exact hnew u' hu' (hid ▸ List.mem_cons_self)
    · intro u' hu'
      rcases List.mem_cons.mp hu' with rfl | hu'
      · exact hfresh
      · exact fun hmem => hnew u' hu' (List.mem_cons_of_mem _ hmem)

/-- What a valid reconcile is. -/
theorem reconcile_of_valid {upserts : List BoardElement} {deletes : List String}
    (h : validateReconcileMonthRange (.reconcileMonthRange metaId upserts deletes) context = none) :
    upserts ≠ [] ∧ (upserts.map (·.id)).Nodup ∧
      ∀ id ∈ deletes, ∀ e, context id = some e → e.str? "metaContainerId" = some metaId := by
  have hchecked : upserts ≠ [] ∧ ∃ upsertIds count,
      validateUpserts metaId upserts [] 0 = .ok (upsertIds, count) ∧
      validateDeletes context metaId upsertIds deletes [] = none := by
    unfold validateReconcileMonthRange at h
    dsimp only at h
    repeat' split at h
    all_goals first
      | cases h
      | next hnonempty _ upsertIds count hupserts _ =>
        exact ⟨fun hnil => hnonempty (List.isEmpty_iff.mpr hnil), upsertIds, count, hupserts, h⟩
  obtain ⟨hnonempty, upsertIds, count, hupserts, hdeletes⟩ := hchecked
  exact ⟨hnonempty, (validateUpserts_nodup hupserts).1, validateDeletes_contained hdeletes⟩

end valid

/-! ### The ids deleted -/

section deleted
variable {cfg : Config} {k : BoardKeys} {metaId : String} {upserts : List BoardElement}
  {deletes : List String}

variable (upserts) in
/-- Outside the meta, the cascade takes what the unheld deletes cascade to. -/
theorem mem_deletedIds_outside
    (hdeletes : ∀ id ∈ deletes, ∀ e, readable cfg k.elements.lookup id = some e →
      e.str? "metaContainerId" = some metaId) {id : String} (hid : ¬ Inside k.elements metaId id) :
    id ∈ deletedIds ⟨upserts, deletes⟩ k ↔
      id ∈ collectCascadeDeleteIds k.elementList (unheldDeletes cfg k.elements.lookup deletes) := by
  obtain ⟨⟨hroots, hclosed⟩, hleast⟩ := isLeast_deletedIds ⟨upserts, deletes⟩ (k := k)
  obtain ⟨⟨hunheld, hcascade⟩, hminimal⟩ :=
    isLeast_collectCascadeDeleteIds k (unheldDeletes cfg k.elements.lookup deletes)
  constructor
  · intro hmem
    -- with what is inside the meta, the unheld deletes and their cascade are closed
    have hsub : id ∈ {id : String | id ∈ collectCascadeDeleteIds k.elementList
        (unheldDeletes cfg k.elements.lookup deletes) ∨ Inside k.elements metaId id} := by
      refine hleast ⟨fun d hd => ?_, fun id e hlookup parent hparent hne hcontained => ?_⟩ hmem
      · -- a delete that is held was validated to be in the meta
        by_cases hheld : ∃ e, readable cfg k.elements.lookup d = some e ∧ e.id = d
        · obtain ⟨e, he, hown⟩ := hheld
          have hstored : k.elements.lookup d = some e := by
            unfold readable at he
            split at he
            · cases he
            · exact he
          have hinside : Inside k.elements metaId e.id :=
            .direct hstored (.inr (hdeletes d hd e he))
          rw [hown] at hinside
          exact .inr hinside
        · refine .inl (hunheld d (List.mem_filter.mpr ⟨hd, ?_⟩))
          rw [Option.all_eq_true]
          intro e he
          exact decide_eq_true fun hown => hheld ⟨e, he, hown⟩
      · rcases hparent with hparent | hparent
        · exact .inl (hcascade id e hlookup parent hparent hne hcontained)
        · rw [lookup_parsedObject] at hlookup
          split at hlookup
          · cases hlookup
          · exact .inr (.nested hparent hlookup hcontained)
    exact hsub.resolve_right hid
  · intro hmem
    refine hminimal ⟨fun d hd => hroots d (List.mem_filter.mp hd).1, hclosed⟩ hmem

theorem lastUpsert_eq_some_iff (hnodup : (upserts.map (·.id)).Nodup) {id : String}
    {u : BoardElement} :
    (ElementChangeSet.lastUpsert ⟨upserts, deletes⟩ id = some u) ↔ u ∈ upserts ∧ u.id = id := by
  unfold ElementChangeSet.lastUpsert
  constructor
  · intro h
    exact ⟨List.mem_reverse.mp (List.mem_of_find?_eq_some h), by simpa using List.find?_some h⟩
  · rintro ⟨hu, rfl⟩
    cases hfind : upserts.reverse.find? (·.id = u.id) with
    | none =>
      have hnone := List.find?_eq_none.mp hfind u (List.mem_reverse.mpr hu)
      simp at hnone
    | some u' =>
      have hid : u'.id = u.id := by simpa using List.find?_some hfind
      have hmem : u' ∈ upserts := List.mem_reverse.mp (List.mem_of_find?_eq_some hfind)
      rw [List.inj_on_of_nodup_map hnodup hmem hu hid]

variable (cfg k) in
/-- A valid change set keeps the elements outside the meta exactly when it spares them. -/
theorem applyChangeSet_keepsOutside_iff (trackChangeLog : Bool) (now : Nat)
    (hnodup : (upserts.map (·.id)).Nodup)
    (hdeletes : ∀ id ∈ deletes, ∀ e, readable cfg k.elements.lookup id = some e →
      e.str? "metaContainerId" = some metaId) :
    (∀ id e, IsOutside k.elements metaId id e →
      (applyChangeSet trackChangeLog now ⟨upserts, deletes⟩ k).2.elements.lookup id = some e) ↔
      SparesOutside cfg k metaId upserts deletes := by
  have happlied := appliedAtOnce_deletedIds trackChangeLog now ⟨upserts, deletes⟩ k
  refine forall₃_congr fun id e houtside => ?_
  rw [← mem_deletedIds_outside upserts hdeletes houtside.2.2]
  by_cases hdeleted : id ∈ deletedIds ⟨upserts, deletes⟩ k
  · rw [happlied.deleted id hdeleted]
    exact iff_of_false nofun fun h => h.1 hdeleted
  · -- a kept element is the last upsert of its id, or what it was
    rw [happlied.kept id hdeleted, houtside.1]
    cases hlast : ElementChangeSet.lastUpsert ⟨upserts, deletes⟩ id with
    | none =>
      refine iff_of_true rfl ⟨hdeleted, fun u hu hid => ?_⟩
      rw [(lastUpsert_eq_some_iff hnodup).mpr ⟨hu, hid⟩] at hlast
      cases hlast
    | some u =>
      obtain ⟨hu, hid⟩ := (lastUpsert_eq_some_iff hnodup).mp hlast
      rw [Option.some_or, Option.some.injEq]
      constructor
      · rintro rfl
        refine ⟨hdeleted, fun u' hu' hid' => ?_⟩
        exact List.inj_on_of_nodup_map hnodup hu' hu (hid'.trans hid.symm)
      · intro hsame
        exact hsame.2 u hu hid

variable (k) in
/-- A change set with upserts of different ids is a change: one of them is left, or the cascade
    takes them all. -/
theorem applyChangeSet_isSome (trackChangeLog : Bool) (now : Nat) (hnonempty : upserts ≠ [])
    (hnodup : (upserts.map (·.id)).Nodup) :
    (applyChangeSet trackChangeLog now ⟨upserts, deletes⟩ k).1.isSome = true := by
  rw [Option.isSome_iff_ne_none]
  intro hnone
  obtain ⟨hupserts, hempty⟩ :=
    (appliedAtOnce_deletedIds trackChangeLog now ⟨upserts, deletes⟩ k).null_iff.mp hnone
  obtain ⟨u, hu⟩ := List.exists_mem_of_ne_nil _ hnonempty
  have hlast := hupserts u.id (by rw [hempty]; exact Set.notMem_empty _)
  rw [(lastUpsert_eq_some_iff hnodup).mpr ⟨hu, rfl⟩] at hlast
  cases hlast

end deleted

/-! ### The mutation -/

section mutation
variable {cfg : Config} {writeMode : BoardSyncWriteMode} {now : Nat} {mutation : Mutation}
  {s : Server} {metaId : String} {upserts : List BoardElement} {deletes : List String}

/-- A valid reconcile that was not seen applies its change set. -/
theorem processed_reconcile
    (hoperation : mutation.operation = .reconcileMonthRange metaId upserts deletes)
    {context : Dict BoardElement} {k : BoardKeys} (hseen : mutation.mutationId ∉ k.seen)
    (hvalid : validateReconcileMonthRange mutation.operation context.lookup = none) :
    let applied := applyChangeSet (writeMode = .collab) now ⟨upserts, deletes⟩
      (k.claim mutation.mutationId)
    (processMutationWithContext now mutation context writeMode k).keys = applied.2 ∧
      (processMutationWithContext now mutation context writeMode k).appliedCanonicalChange =
        applied.1.isSome := by
  intro applied
  have htransient : mutation.isTransient = false := by
    simp [Mutation.isTransient, hoperation]
  have hclaimed : processMutationWithContext now mutation context writeMode k =
      processClaimed now mutation context writeMode (k.claim mutation.mutationId) := by
    simp [processMutationWithContext, htransient, tryMarkSeen, hseen, BoardKeys.claim]
  rw [hclaimed]
  unfold processClaimed
  rw [hvalid, hoperation]
  simp only [isMutationBlockedByLock, Bool.false_eq_true, if_false, Option.isSome_none, toChangeSet]
  cases happlied : applyChangeSet (writeMode = .collab) now ⟨upserts, deletes⟩
      (k.claim mutation.mutationId) with
  | mk change? keys =>
    have heq : applied = (change?, keys) := happlied
    rw [heq]
    cases change? with
    | none => exact ⟨rfl, rfl⟩
    | some change => exact ⟨rfl, rfl⟩

/-- A reconcile that the validation accepts keeps what is outside its meta exactly when it was seen,
    or, evicting the elements, finds none outside, or else spares them. -/
theorem keepsOutside_iff
    (hoperation : mutation.operation = .reconcileMonthRange metaId upserts deletes)
    (hvalid : validateReconcileMonthRange mutation.operation
      (createCachedBoardContext cfg (s.redis mutation.boardId) [mutation]).lookup = none) :
    KeepsOutside cfg writeMode now mutation metaId s ↔
      mutation.mutationId ∈ (s.redis mutation.boardId).seen ∨
        (EvictsElements cfg writeMode mutation.boardId (s.merge cfg writeMode now mutation) →
          ∀ id e, ¬ IsOutside (s.redis mutation.boardId).elements metaId id e) ∧
        (¬ EvictsElements cfg writeMode mutation.boardId (s.merge cfg writeMode now mutation) →
          SparesOutside cfg (s.redis mutation.boardId) metaId upserts deletes) := by
  unfold KeepsOutside Server.merge
  rw [processMutation_server]
  generalize hkeys : s.redis mutation.boardId = k at hvalid ⊢
  generalize hprocessed : processMutationWithContext now mutation
    (createCachedBoardContext cfg k [mutation]) writeMode k = processed
  by_cases hseen : mutation.mutationId ∈ k.seen
  · -- nothing is applied, and nothing flushed
    have htransient : mutation.isTransient = false := by
      simp [Mutation.isTransient, hoperation]
    have hidle : processed.appliedCanonicalChange = false ∧ processed.keys = k := by
      rw [← hprocessed]
      simp [processMutationWithContext, htransient, tryMarkSeen, hseen]
    refine iff_of_true (fun id e houtside => ?_) (.inl hseen)
    rw [hidle.1, hidle.2]
    simpa [persistIfSolo] using houtside.1
  · have hreads : mutation.operation.readsAhead = true := by
      rw [hoperation]
      rfl
    obtain ⟨hmerged, hflag⟩ : processed.keys = _ ∧ processed.appliedCanonicalChange = _ :=
      hprocessed ▸ processed_reconcile hoperation hseen hvalid
    rw [(context_verdicts cfg k mutation hreads).2, hoperation] at hvalid
    obtain ⟨hnonempty, hnodup, hdeletes⟩ := reconcile_of_valid hvalid
    have hchanged : processed.appliedCanonicalChange = true := by
      rw [hflag]
      exact applyChangeSet_isSome _ _ now hnonempty hnodup
    have hspares := applyChangeSet_keepsOutside_iff cfg (k.claim mutation.mutationId)
      (writeMode = .collab) now hnodup hdeletes
    rw [← hmerged] at hspares
    have hflush := elements_persistIfSolo cfg writeMode now processed.appliedCanonicalChange
      mutation.boardId (s.setKeys mutation.boardId processed.keys)
    rw [Server.setKeys_redis_self, hchanged] at hflush
    simp only [hoperation, toChangeSet]
    rw [hchanged, ← hmerged]
    simp only [hseen, false_or]
    rcases hflush with ⟨hsame, hnot⟩ | ⟨hevicts, hgone⟩
    · have hstays : ¬ EvictsElements cfg writeMode mutation.boardId
          (s.setKeys mutation.boardId processed.keys) := fun h => hnot ⟨h, rfl⟩
      rw [hsame]
      simp only [hstays, false_implies, true_and, not_false_eq_true, true_implies]
      exact hspares
    · rw [hgone]
      simp only [hevicts, true_implies, not_true_eq_false, false_implies, and_true]
      refine forall₃_congr fun id e houtside => iff_of_false ?_ fun h => h
      intro hsome
      cases hsome

end mutation

/-! ### A month range and a note -/

theorem not_inside {elements : Dict BoardElement} {metaId : String}
    (h : ∀ entry ∈ elements.entries, ¬ IsContainedIn entry.2 metaId) (id : String) :
    ¬ Inside elements metaId id := by
  intro hinside
  induction hinside with
  | direct hlookup hcontained => exact h _ (AList.mem_lookup_iff.mp hlookup) hcontained
  | nested _ _ _ ih => exact ih

/-- A managed meta `meta`, the element that a reconcile brings for it. -/
def managedMeta : BoardElement := ⟨"meta", Dict.insertAll ∅ [("monthRange", .obj [])]⟩

def serverOf (elements : List (String × BoardElement)) : Server where
  redis := fun _ => { seq := some 0, elements := Dict.insertAll ∅ elements }
  db := ⟨∅, ∅⟩

/-- `january` comes and `february` goes, both in the meta; the note stays. -/
theorem keepsOutside_months :
    KeepsOutside {} .collab 0
      ⟨"m", "b", .reconcileMonthRange "meta"
        [managedMeta, ⟨"january", Dict.insertAll ∅ [("metaContainerId", .str "meta")]⟩]
        ["february"]⟩
      "meta"
      (serverOf [("meta", managedMeta), ("note", ⟨"note", ∅⟩),
        ("february", ⟨"february", Dict.insertAll ∅ [("metaContainerId", .str "meta")]⟩)]) := by
  refine (keepsOutside_iff rfl (by decide)).mpr
    (.inr ⟨fun h => ?_, fun _ id e houtside => ⟨?_, ?_⟩⟩)
  · cases h.1
  · exact List.not_mem_nil
  · intro u hu hid
    rcases List.mem_cons.mp hu with rfl | hu
    · exact absurd hid.symm houtside.2.1
    · obtain rfl := List.mem_singleton.mp hu
      have hlookup := houtside.1
      rw [← hid] at hlookup
      cases hlookup

/-- An upsert takes over the note, and the delete of an id that the board does not hold takes the
    element that is contained in it. -/
theorem reconcile_takes_note :
    let s := serverOf [("meta", managedMeta), ("note", ⟨"note", ∅⟩),
      ("orphan", ⟨"orphan", Dict.insertAll ∅ [("containerId", .str "ghost")]⟩)]
    let takeOver : Mutation := ⟨"m", "b", .reconcileMonthRange "meta"
      [managedMeta, ⟨"note", Dict.insertAll ∅ [("metaContainerId", .str "meta")]⟩] []⟩
    let cascade : Mutation := ⟨"m", "b", .reconcileMonthRange "meta" [managedMeta] ["ghost"]⟩
    validateReconcileMonthRange takeOver.operation
        (createCachedBoardContext {} (s.redis "b") [takeOver]).lookup = none ∧
      ¬ KeepsOutside {} .collab 0 takeOver "meta" s ∧
    validateReconcileMonthRange cascade.operation
        (createCachedBoardContext {} (s.redis "b") [cascade]).lookup = none ∧
      ¬ KeepsOutside {} .collab 0 cascade "meta" s := by
  refine ⟨by decide, ?_, by decide, ?_⟩
  · intro h
    have hkept := congrArg (·.map fun e => e.fields.keys)
      (h "note" ⟨"note", ∅⟩ ⟨rfl, by decide, not_inside (by decide) _⟩)
    revert hkept
    decide
  · intro h
    have hkept := congrArg (·.map fun e => e.fields.keys)
      (h "orphan" ⟨"orphan", Dict.insertAll ∅ [("containerId", .str "ghost")]⟩
        ⟨rfl, by decide, not_inside (by decide) _⟩)
    revert hkept
    decide

end Notebortt
