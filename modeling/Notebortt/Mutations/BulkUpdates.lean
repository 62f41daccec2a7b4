import Notebortt.BoardState.ChangeSets
import Notebortt.BoardState.RowsMatch
import Notebortt.Lib.KeyedEdits
import Notebortt.Mutations.BatchEquivalence

/-! # One bulk mutation against its entries one by one

    `UPDATE_ELEMENTS` and `MOVE_ELEMENTS` transform every entry from the
    elements read before the mutation, and of several entries of one element
    the last upsert is kept. One mutation for each entry reads again every time. -/

namespace Notebortt

/-! ### The same elements -/

/-- One JSON object, whatever the order of its members. -/
structure SameElement (e e' : BoardElement) : Prop where
  id : e.id = e'.id
  fields : ∀ key, e.fields.lookup key = e'.fields.lookup key

def SameElements (d d' : Dict BoardElement) : Prop :=
  ∀ id, Option.Rel SameElement (d.lookup id) (d'.lookup id)

theorem SameElement.refl (e : BoardElement) : SameElement e e := ⟨rfl, fun _ => rfl⟩

theorem optionRel_refl (o : Option BoardElement) : Option.Rel SameElement o o := by
  cases o with
  | none => exact .none
  | some e => exact .some (.refl e)

theorem SameElements.lookup_field {d d' : Dict BoardElement} (h : SameElements d d')
    (id key : String) :
    (d.lookup id).bind (·.fields.lookup key) = (d'.lookup id).bind (·.fields.lookup key) := by
  have hid := h id
  generalize d.lookup id = o, d'.lookup id = o' at hid ⊢
  cases hid with
  | none => rfl
  | some hsame => exact hsame.fields key

/-! ### Entries as edits -/

/-- The transformation of `MOVE_ELEMENTS`. -/
def moveTo (move : Move) (existing : BoardElement) : BoardElement :=
  { existing with
    fields := setMember (setMember existing.fields "x" move.x) "y" move.y }

/-- The transformation of `UPDATE_ELEMENTS`. -/
def patchWith (u : Update) (existing : BoardElement) : BoardElement := existing.patch u.fields

/-- What the entries of a bulk operation have in common: the element each is for, what it does to
    it, and the rule it is held to. -/
structure EntryKind (α : Type) where
  target : α → String
  transform : α → BoardElement → BoardElement
  blocked : LockContext → α → Bool

/-- An entry edits the element it is for; without one it does nothing. -/
def EntryKind.edits (kind : EntryKind α) (a : α) : Option BoardElement → Option BoardElement :=
  Option.map (kind.transform a)

theorem EntryKind.edits_eq_none_iff (kind : EntryKind α) (a : α) (o : Option BoardElement) :
    kind.edits a o = none ↔ o = none :=
  Option.map_eq_none_iff

theorem EntryKind.foldl_edits_none (kind : EntryKind α) (as : List α) :
    as.foldl (fun o a => kind.edits a o) none = none := by
  induction as with
  | nil => rfl
  | cons a as ih => exact ih

theorem EntryKind.foldl_edits (kind : EntryKind α) (as : List α) (e : BoardElement) :
    as.foldl (fun o a => kind.edits a o) (some e) =
      some (as.foldl (fun e a => kind.transform a e) e) := by
  induction as generalizing e with
  | nil => rfl
  | cons a as ih => exact ih (kind.transform a e)

def updateKind : EntryKind Update where
  target u := u.elementId
  transform := patchWith
  blocked c u := isPatchBlocked c u.elementId u.fields

def moveKind : EntryKind Move where
  target move := move.elementId
  transform := moveTo
  blocked := isMoveBlocked

/-- The upserts of the entries, each from the elements of the context. -/
def EntryKind.upserts (kind : EntryKind α) (c : LockContext) (as : List α) : List BoardElement :=
  as.flatMap fun a => toUpsertFromCache c (kind.target a) (kind.transform a)

/-- The operation is one over the entries. -/
structure EntryKind.Carries (kind : EntryKind α) (operation : Operation) (as : List α) : Prop where
  readsAhead : operation.readsAhead = true
  blocked : ∀ c, isMutationBlockedByLock operation c = as.any (kind.blocked c)
  valid : ∀ c, validateReconcileMonthRange operation c = none
  change : ∀ c, toChangeSet c operation = ⟨kind.upserts c as, []⟩

theorem carries_updateElements (updates : List Update) :
    updateKind.Carries (.updateElements updates) updates :=
  ⟨rfl, fun _ => rfl, fun _ => rfl, fun _ => rfl⟩

theorem carries_updateElement (u : Update) :
    updateKind.Carries (.updateElement u.elementId u.fields) [u] where
  readsAhead := rfl
  blocked c := by simp [isMutationBlockedByLock, updateKind]
  valid _ := rfl
  change c := by
    simp only [toChangeSet, EntryKind.upserts, List.flatMap_cons, List.flatMap_nil,
      List.append_nil]
    rfl

theorem carries_moveElements (moves : List Move) (transient : Bool) :
    moveKind.Carries (.moveElements moves transient) moves :=
  ⟨rfl, fun _ => rfl, fun _ => rfl, fun _ => rfl⟩

/-! ### The hash after one mutation -/

section
variable (cfg : Config) (now : Nat) (mode : BoardSyncWriteMode)

theorem deletedIds_upserts (upserts : List BoardElement) (k : BoardKeys) :
    deletedIds ⟨upserts, []⟩ k = ∅ :=
  Set.subset_empty_iff.mp ((isLeast_deletedIds ⟨upserts, []⟩).2
    ⟨by simp, fun _ _ _ _ h => absurd h (Set.notMem_empty _)⟩)

/-- Without deletes the last upsert of each id is set, and nothing else changes. -/
theorem lookup_applyChangeSet_upserts (trackChangeLog : Bool) (upserts : List BoardElement)
    (k : BoardKeys) (id : String) :
    (applyChangeSet trackChangeLog now ⟨upserts, []⟩ k).2.elements.lookup id =
      ((⟨upserts, []⟩ : ElementChangeSet).lastUpsert id).or (k.elements.lookup id) := by
  refine (appliedAtOnce_deletedIds trackChangeLog now ⟨upserts, []⟩ k).kept id ?_
  rw [deletedIds_upserts]
  exact Set.notMem_empty id

/-- What the entries need: their transformations keep the id under which the hash has the
    element. -/
def EntryKind.KeepsIds (kind : EntryKind α) (as : List α) : Prop :=
  ∀ a ∈ as, ∀ e, (kind.transform a e).id = e.id

/-- Of the upserts of the entries the last one of an id is that of its last entry. -/
theorem lastUpsert_upserts {kind : EntryKind α} {c : LockContext} {as : List α}
    (hown : OwnIds c) (hkeeps : kind.KeepsIds as) (id : String) :
    (⟨kind.upserts c as, []⟩ : ElementChangeSet).lastUpsert id =
      (KeyedEdits.last? kind.target as id).bind fun a => (c id).map (kind.transform a) := by
  simp only [ElementChangeSet.lastUpsert, EntryKind.upserts, KeyedEdits.last?]
  induction as using List.reverseRecOn with
  | nil => rfl
  | append_singleton as a ih =>
    have hrest := ih fun b hb => hkeeps b (by simp [hb])
    simp only [List.flatMap_append, List.flatMap_cons, List.flatMap_nil, List.append_nil,
      List.reverse_append, List.find?_append, List.reverse_cons, List.reverse_nil, List.nil_append,
      List.find?_cons, List.find?_nil, hrest]
    cases he : c (kind.target a) with
    | none =>
      by_cases ha : kind.target a = id
      · subst ha
        simp [toUpsertFromCache, he]
      · simp [toUpsertFromCache, he, ha]
    | some e =>
      have hid : (kind.transform a e).id = kind.target a :=
        (hkeeps a (by simp) e).trans (hown _ e he)
      by_cases ha : kind.target a = id
      · subst ha
        simp [toUpsertFromCache, he, hid]
      · simp [toUpsertFromCache, he, hid, ha]

theorem OwnIds.readable {c : LockContext} (h : OwnIds c) : OwnIds (readable cfg c) := by
  intro id e he
  unfold Notebortt.readable at he
  split at he
  · cases he
  · exact h id e he

/-- The hash after a mutation over entries: every entry transforms the element read before it. -/
theorem lookup_process_entries {kind : EntryKind α} {m : Mutation} {as : List α} {k : BoardKeys}
    (hcarries : kind.Carries m.operation as) (hkeeps : kind.KeepsIds as)
    (hown : OwnIds k.elements.lookup) (htransient : m.isTransient = false)
    (hseen : m.mutationId ∉ k.seen) (id : String) :
    (processMutationWithContext now m (createCachedBoardContext cfg k [m]) mode
        k).keys.elements.lookup id =
      if as.any (kind.blocked (readable cfg k.elements.lookup)) then k.elements.lookup id
      else
        (KeyedEdits.atOnce kind.target kind.edits (readable cfg k.elements.lookup) as id).or
          (k.elements.lookup id) := by
  have hownRead := hown.readable cfg
  have hlock : isMutationBlockedByLock m.operation (createCachedBoardContext cfg k [m]).lookup =
      as.any (kind.blocked (readable cfg k.elements.lookup)) := by
    rw [(context_verdicts cfg k m hcarries.readsAhead).1, hcarries.blocked]
  split
  · next hblocked =>
    rw [hblocked] at hlock
    have hrequested : requestedChange k (createCachedBoardContext cfg k [m]).lookup m.operation =
        ⟨[], []⟩ := by
      simp [requestedChange, hlock]
    rw [processMutationWithContext_unseen now m _ mode k htransient hseen, hrequested]
    simp [writeRequested, unchangedResult, tryMarkSeen, hseen]
  · next hblocked =>
    rw [Bool.not_eq_true] at hblocked
    rw [hblocked] at hlock
    have hchange : toChangeSet (createCachedBoardContext cfg k [m]).lookup m.operation =
        ⟨kind.upserts (readable cfg k.elements.lookup) as, []⟩ := by
      rw [← hcarries.change]
      exact toChangeSet_own cfg k m
    have hkeys := (processMutationWithContext_unblocked now mode htransient hseen hlock
      (hcarries.valid _)).2
    have helements : (k.claim m.mutationId).elements = k.elements := rfl
    rw [hkeys, hchange, lookup_applyChangeSet_upserts, helements,
      lastUpsert_upserts hownRead hkeeps]
    unfold KeyedEdits.atOnce
    cases KeyedEdits.last? kind.target as id with
    | some a => rfl
    | none =>
      simp only [Option.bind_none, Option.none_or, readable]
      split <;> simp

theorem appliedCanonicalChange_iff {m : Mutation} {c : Dict BoardElement} {k : BoardKeys} :
    (processMutationWithContext now m c mode k).appliedCanonicalChange = true ↔
      (processMutationWithContext now m c mode k).result.change ≠ none := by
  cases processMutationWithContext_turn now m c mode k with
  | away _ unchanged flag _ => simp [unchanged, flag]
  | unchanged _ unchanged flag _ => simp [unchanged, flag]
  | changed _ change result _ flag _ => simp [result, flag]

/-- A mutation over entries changes something exactly when the rules let all of them pass and one is
    for an element that was read. -/
theorem applied_process_entries {kind : EntryKind α} {m : Mutation} {as : List α} {k : BoardKeys}
    (hcarries : kind.Carries m.operation as) (hkeeps : kind.KeepsIds as)
    (hown : OwnIds k.elements.lookup) (htransient : m.isTransient = false)
    (hseen : m.mutationId ∉ k.seen) :
    (processMutationWithContext now m (createCachedBoardContext cfg k [m]) mode
        k).appliedCanonicalChange = true ↔
      as.any (kind.blocked (readable cfg k.elements.lookup)) = false ∧
        ∃ a ∈ as, (readable cfg k.elements.lookup (kind.target a)).isSome := by
  have hlock : isMutationBlockedByLock m.operation (createCachedBoardContext cfg k [m]).lookup =
      as.any (kind.blocked (readable cfg k.elements.lookup)) := by
    rw [(context_verdicts cfg k m hcarries.readsAhead).1, hcarries.blocked]
  cases hblocked : as.any (kind.blocked (readable cfg k.elements.lookup)) with
  | true =>
    rw [hblocked] at hlock
    simp [processMutationWithContext, htransient, tryMarkSeen, hseen, processClaimed, hlock,
      unchangedResult]
  | false =>
    rw [hblocked] at hlock
    have hchange : toChangeSet (createCachedBoardContext cfg k [m]).lookup m.operation =
        ⟨kind.upserts (readable cfg k.elements.lookup) as, []⟩ := by
      rw [← hcarries.change]
      exact toChangeSet_own cfg k m
    have happlied := (processMutationWithContext_unblocked now mode htransient hseen hlock
      (hcarries.valid _)).1
    rw [hchange] at happlied
    -- nothing is written exactly when no id has an upsert
    rw [appliedCanonicalChange_iff, happlied, ne_eq,
      (appliedAtOnce_deletedIds _ now _ _).null_iff, deletedIds_upserts]
    simp only [Set.mem_empty_iff_false, not_false_eq_true, true_implies, and_true,
      lastUpsert_upserts (hown.readable cfg) hkeeps]
    constructor
    · intro h
      push Not at h
      obtain ⟨id, hid⟩ := h
      obtain ⟨e, he⟩ := Option.ne_none_iff_exists'.mp hid
      obtain ⟨a, hlast, hwritten⟩ := Option.bind_eq_some_iff.mp he
      obtain ⟨existing, hexisting, -⟩ := Option.map_eq_some_iff.mp hwritten
      have hmem : a ∈ as := List.mem_reverse.mp (List.mem_of_find?_eq_some hlast)
      have htarget : kind.target a = id := by simpa using List.find?_some hlast
      have hread : (readable cfg k.elements.lookup (kind.target a)).isSome := by
        rw [htarget, hexisting]
        rfl
      exact ⟨trivial, a, hmem, hread⟩
    · intro h hnone
      obtain ⟨-, a, hmem, hread⟩ := h
      obtain ⟨existing, hexisting⟩ := Option.isSome_iff_exists.mp hread
      have hlast := hnone (kind.target a)
      rw [hexisting] at hlast
      cases hfind : KeyedEdits.last? kind.target as (kind.target a) with
      | none =>
        have hmissing := List.find?_eq_none.mp hfind a (List.mem_reverse.mpr hmem)
        exact hmissing (decide_eq_true rfl)
      | some last =>
        rw [hfind] at hlast
        cases hlast

section run
variable {kind : EntryKind α}

/-- One entry on its own is one step of the edits, on the elements that can be read. -/
theorem readable_process_entry {m : Mutation} {a : α} {k : BoardKeys}
    (hcarries : kind.Carries m.operation [a]) (hkeeps : kind.KeepsIds [a])
    (hown : OwnIds k.elements.lookup) (htransient : m.isTransient = false)
    (hseen : m.mutationId ∉ k.seen) :
    let k' := (processMutationWithContext now m (createCachedBoardContext cfg k [m]) mode k).keys
    let stepped := KeyedEdits.step kind.target kind.edits kind.blocked
      (readable cfg k.elements.lookup) a
    (∀ id, k'.elements.lookup id = (stepped id).or (k.elements.lookup id)) ∧
      readable cfg k'.elements.lookup = stepped ∧ OwnIds k'.elements.lookup := by
  intro k' stepped
  have hlookup : ∀ id, k'.elements.lookup id = (stepped id).or (k.elements.lookup id) := by
    intro id
    have hprocess := lookup_process_entries cfg now mode hcarries hkeeps hown htransient hseen id
    rw [KeyedEdits.atOnce_singleton] at hprocess
    refine hprocess.trans ?_
    simp only [stepped, KeyedEdits.step, List.any_cons, List.any_nil, Bool.or_false]
    split
    · unfold readable
      split <;> simp
    · rfl
  have hnone : ∀ id, stepped id = none ↔ readable cfg k.elements.lookup id = none := fun id =>
    KeyedEdits.oneByOne_eq_none_iff kind.target kind.edits kind.blocked
      kind.edits_eq_none_iff _ [a] id
  refine ⟨hlookup, ?_, ?_⟩
  · funext id
    have hid := hnone id
    unfold readable at hid ⊢
    split
    · next hhidden =>
      rw [if_pos hhidden] at hid
      exact (hid.mpr rfl).symm
    · next hshown =>
      rw [if_neg hshown] at hid
      show k'.elements.lookup id = stepped id
      rw [hlookup]
      cases hstepped : stepped id with
      | some e => rfl
      | none => exact hid.mp hstepped
  · intro id e he
    rcases Option.or_eq_some_iff.mp ((hlookup id).symm.trans he) with hstepped | ⟨-, hold⟩
    · refine KeyedEdits.step_keeps kind.target kind.edits kind.blocked
        (P := fun id e => e.id = id) (hown.readable cfg) (fun e he => ?_) hstepped
      obtain ⟨existing, hexisting, rfl⟩ := Option.map_eq_some_iff.mp he
      exact (hkeeps a (by simp) existing).trans (hown.readable cfg _ existing hexisting)
    · exact hown id e hold

/-- One mutation for each entry is the edits one by one, on the elements that can be read. -/
theorem lookup_eachKeys_entries {single : α → Operation}
    (hsingle : ∀ a, kind.Carries (single a) [a]) {as : List α} {ms : List Mutation}
    {k : BoardKeys} (hoperations : ms.map (·.operation) = as.map single)
    (hkeeps : kind.KeepsIds as) (hown : OwnIds k.elements.lookup)
    (htransient : ∀ m ∈ ms, m.isTransient = false) (hunseen : ∀ m ∈ ms, m.mutationId ∉ k.seen)
    (hdistinct : (ms.map (·.mutationId)).Nodup) (id : String) :
    (eachKeys cfg now mode ms k).2.elements.lookup id =
      (KeyedEdits.oneByOne kind.target kind.edits kind.blocked
        (readable cfg k.elements.lookup) as id).or (k.elements.lookup id) := by
  induction as generalizing ms k with
  | nil =>
    rw [List.map_nil, List.map_eq_nil_iff] at hoperations
    subst hoperations
    simp only [eachKeys, KeyedEdits.oneByOne, List.foldl_nil, readable]
    split <;> simp
  | cons a as ih =>
    obtain ⟨m, rest, rfl, hm, hrest⟩ := List.map_eq_cons_iff.mp hoperations
    obtain ⟨hlookup, hread, hown'⟩ := readable_process_entry cfg now mode (hm ▸ hsingle a)
      (fun b hb => hkeeps b (by simp_all)) hown
      (htransient m (by simp)) (hunseen m (by simp))
    have hnew : ∀ m' ∈ rest, m'.mutationId ≠ m.mutationId := by
      intro m' hm' heq
      rw [List.map_cons, List.nodup_cons] at hdistinct
      exact hdistinct.1 (heq ▸ List.mem_map_of_mem hm')
    -- the rest of the run starts from the elements that the first mutation left
    have htail := ih hrest (fun b hb => hkeeps b (by simp [hb])) hown'
      (fun m' hm' => htransient m' (by simp [hm']))
      (fun m' hm' hmem => ((processMutationWithContext_seen now m _ mode k _).mp hmem).elim
        (hunseen m' (by simp [hm'])) fun h => hnew m' hm' h.2)
      (List.Nodup.of_cons hdistinct)
    rw [hread, hlookup] at htail
    refine htail.trans ?_
    show (KeyedEdits.oneByOne _ _ _ (KeyedEdits.step _ _ _ _ a) as id).or _ =
      (KeyedEdits.oneByOne _ _ _ (KeyedEdits.step _ _ _ _ a) as id).or _
    cases hfinal : KeyedEdits.oneByOne kind.target kind.edits kind.blocked
        (KeyedEdits.step kind.target kind.edits kind.blocked
          (readable cfg k.elements.lookup) a) as id with
    | some e => rfl
    | none =>
      rw [KeyedEdits.oneByOne_eq_none_iff _ _ _ kind.edits_eq_none_iff] at hfinal
      rw [hfinal]
      rfl

/-- The two forms of the entries leave the same elements exactly when every element with a last
    entry is the same after it as after the entries of it that land. -/
theorem sameElements_iff {single : α → Operation} (hsingle : ∀ a, kind.Carries (single a) [a])
    {as : List α} {m : Mutation} {ms : List Mutation} {k : BoardKeys}
    (hbulk : kind.Carries m.operation as) (hoperations : ms.map (·.operation) = as.map single)
    (hkeeps : kind.KeepsIds as) (hown : OwnIds k.elements.lookup)
    (htransient : ∀ m' ∈ m :: ms, m'.isTransient = false)
    (hunseen : ∀ m' ∈ m :: ms, m'.mutationId ∉ k.seen)
    (hdistinct : (ms.map (·.mutationId)).Nodup)
    (hblocked : as.any (kind.blocked (readable cfg k.elements.lookup)) = false) :
    SameElements (eachKeys cfg now mode [m] k).2.elements (eachKeys cfg now mode ms k).2.elements ↔
      ∀ id e a, readable cfg k.elements.lookup id = some e →
        KeyedEdits.last? kind.target as id = some a →
        SameElement (kind.transform a e)
          ((KeyedEdits.onKey kind.target id (KeyedEdits.landed kind.target kind.edits
            kind.blocked (readable cfg k.elements.lookup) as)).foldl
              (fun e a => kind.transform a e) e) := by
  have hatOnce : ∀ id, (eachKeys cfg now mode [m] k).2.elements.lookup id =
      (KeyedEdits.atOnce kind.target kind.edits (readable cfg k.elements.lookup) as id).or
        (k.elements.lookup id) := by
    intro id
    have hprocess := lookup_process_entries cfg now mode hbulk hkeeps hown
      (htransient m (by simp)) (hunseen m (by simp)) id
    rw [hblocked] at hprocess
    exact hprocess
  have honeByOne := lookup_eachKeys_entries cfg now mode hsingle hoperations hkeeps hown
    (fun m' hm' => htransient m' (by simp [hm'])) (fun m' hm' => hunseen m' (by simp [hm']))
    hdistinct
  unfold SameElements
  simp only [hatOnce, honeByOne, KeyedEdits.oneByOne_apply]
  refine forall_congr' fun id => ?_
  cases he : readable cfg k.elements.lookup id with
  | none =>
    -- an element that is not there is made by neither form
    have hnone : KeyedEdits.atOnce kind.target kind.edits (readable cfg k.elements.lookup) as
        id = none := by
      unfold KeyedEdits.atOnce
      split <;> simp [he, EntryKind.edits]
    simp only [hnone, kind.foldl_edits_none, Option.none_or]
    exact iff_of_true (optionRel_refl _) (fun e a h => by cases h)
  | some e =>
    unfold KeyedEdits.atOnce
    cases hlast : KeyedEdits.last? kind.target as id with
    | none =>
      -- without an entry of its own the element stays as it is
      have hland : KeyedEdits.onKey kind.target id (KeyedEdits.landed kind.target kind.edits
          kind.blocked (readable cfg k.elements.lookup) as) = [] := by
        have hsub := KeyedEdits.landed_sublist kind.target kind.edits kind.blocked
          (readable cfg k.elements.lookup) as
        have hnil := (KeyedEdits.last?_eq_none_iff kind.target).mp hlast
        exact List.sublist_nil.mp (hnil ▸ hsub.filter _)
      simp only [he, hland, List.foldl_nil, Option.some_or]
      exact iff_of_true (optionRel_refl _) (fun e a _ h => by cases h)
    | some a =>
      have hedit : kind.edits a (some e) = some (kind.transform a e) := rfl
      simp only [he, kind.foldl_edits, hedit, Option.some_or]
      constructor
      · intro h e' a' he' ha'
        obtain rfl := Option.some.inj he'
        obtain rfl := Option.some.inj ha'
        cases h with
        | some h => exact h
      · intro h
        exact .some (h e a rfl rfl)

end run

end

/-! ### Patches of one element -/

/-- The value that the last of the updates setting a field gives it. -/
def lastValue (updates : List Update) (key : String) : Option Json :=
  updates.reverse.findSome? fun u => u.fields.fields.lookup key

theorem patchWith_lookup (u : Update) (e : BoardElement) (key : String) :
    (patchWith u e).fields.lookup key = (u.fields.fields.lookup key).or (e.fields.lookup key) :=
  BoardElement.patch_lookup e u.fields key

theorem lookup_foldl_patchWith (updates : List Update) (e : BoardElement) (key : String) :
    (updates.foldl (fun e u => patchWith u e) e).fields.lookup key =
      (lastValue updates key).or (e.fields.lookup key) := by
  induction updates using List.reverseRecOn with
  | nil => rfl
  | append_singleton us u ih =>
    rw [List.foldl_append, List.foldl_cons, List.foldl_nil, patchWith_lookup, ih]
    simp only [lastValue, List.reverse_append, List.reverse_cons, List.reverse_nil,
      List.nil_append, List.singleton_append, List.findSome?_cons]
    cases u.fields.fields.lookup key <;> rfl

theorem id_foldl_patchWith {updates : List Update} (h : ∀ u ∈ updates, u.fields.id = none)
    (e : BoardElement) : (updates.foldl (fun e u => patchWith u e) e).id = e.id := by
  induction updates generalizing e with
  | nil => rfl
  | cons u us ih =>
    rw [List.foldl_cons, ih fun v hv => h v (by simp [hv])]
    simp [patchWith, BoardElement.patch, h u (by simp)]

/-- The last update of an element leaves out no field that the updates of it that land set, and sets
    none otherwise than they do; a field counts as set when its value is not the one it had. -/
structure LastPrevails (e : BoardElement) (landed : List Update) (u : Update) : Prop where
  kept : ∀ key v, u.fields.fields.lookup key = none → lastValue landed key = some v →
    e.fields.lookup key = some v
  set : ∀ key v, u.fields.fields.lookup key = some v →
    (lastValue landed key).or (e.fields.lookup key) = some v

theorem sameElement_patch_iff {e : BoardElement} {landed : List Update} {u : Update}
    (hlanded : ∀ v ∈ landed, v.fields.id = none) (hu : u.fields.id = none) :
    SameElement (patchWith u e) (landed.foldl (fun e u => patchWith u e) e) ↔
      LastPrevails e landed u := by
  have hid : (patchWith u e).id = (landed.foldl (fun e u => patchWith u e) e).id := by
    rw [id_foldl_patchWith hlanded]
    simp [patchWith, BoardElement.patch, hu]
  constructor
  · rintro ⟨-, hfields⟩
    simp only [lookup_foldl_patchWith, patchWith_lookup] at hfields
    constructor
    · intro key v hnone hlast
      simpa [hnone, hlast] using hfields key
    · intro key v hset
      simpa [hset] using (hfields key).symm
  · rintro ⟨hkept, hset⟩
    refine ⟨hid, fun key => ?_⟩
    simp only [lookup_foldl_patchWith, patchWith_lookup]
    cases hu : u.fields.fields.lookup key with
    | some v => exact (hset key v hu).symm
    | none =>
      cases hlast : lastValue landed key with
      | none => rfl
      | some v => exact hkept key v hu hlast

/-! ### Moves of one element -/

theorem moveTo_lookup (move : Move) (e : BoardElement) (key : String) :
    (moveTo move e).fields.lookup key =
      if key = "y" then move.y else if key = "x" then move.x else e.fields.lookup key := by
  simp only [moveTo, lookup_setMember]

theorem id_foldl_moveTo (moves : List Move) (e : BoardElement) :
    (moves.foldl (fun e move => moveTo move e) e).id = e.id := by
  induction moves generalizing e with
  | nil => rfl
  | cons move moves ih => exact ih (moveTo move e)

/-- A move after other moves of the element leaves what it leaves on its own. -/
theorem sameElement_moveTo (before : List Move) (move : Move) (e : BoardElement) :
    SameElement (moveTo move e) ((before ++ [move]).foldl (fun e move => moveTo move e) e) := by
  rw [List.foldl_append, List.foldl_cons, List.foldl_nil]
  refine ⟨(id_foldl_moveTo before e).symm, fun key => ?_⟩
  rw [moveTo_lookup, moveTo_lookup]
  by_cases hy : key = "y"
  · rw [if_pos hy, if_pos hy]
  · by_cases hx : key = "x"
    · rw [if_neg hy, if_neg hy, if_pos hx, if_pos hx]
    · rw [if_neg hy, if_neg hy, if_neg hx, if_neg hx]
      -- the moves before it leave the other fields alone
      clear move
      induction before generalizing e with
      | nil => rfl
      | cons move before ih =>
        rw [List.foldl_cons, ← ih (moveTo move e), moveTo_lookup, if_neg hy, if_neg hx]

/-- The fields that the lock rules read are no coordinates. -/
def SameUnmoved (e e' : BoardElement) : Prop :=
  ∀ key, key ≠ "x" → key ≠ "y" → e.fields.lookup key = e'.fields.lookup key

theorem sameUnmoved_moveTo (move : Move) (e : BoardElement) : SameUnmoved (moveTo move e) e := by
  intro key hx hy
  rw [moveTo_lookup, if_neg hy, if_neg hx]

theorem edit_moveTo_unmoved (c : LockContext) (move : Move) (id : String) :
    Option.Rel SameUnmoved (KeyedEdits.edit moveKind.target moveKind.edits c move id) (c id) := by
  by_cases hid : moveKind.target move = id
  · subst hid
    rw [KeyedEdits.edit_self]
    cases c (moveKind.target move) with
    | none => exact .none
    | some e => exact .some (sameUnmoved_moveTo move e)
  · rw [KeyedEdits.edit_ne _ _ c hid]
    cases c id with
    | none => exact .none
    | some e => exact .some fun _ _ _ => rfl

section
variable {c c' : LockContext} (h : ∀ id, Option.Rel SameUnmoved (c id) (c' id))
include h

theorem isManaged_unmoved (metaId : String) : isManaged c metaId = isManaged c' metaId := by
  unfold isManaged
  have hmeta := h metaId
  generalize c metaId = o, c' metaId = o' at hmeta ⊢
  cases hmeta with
  | none => rfl
  | some hsame => exact congrArg Option.isSome (hsame "monthRange" (by decide) (by decide))

theorem isHeld_unmoved {e e' : BoardElement} (he : SameUnmoved e e') :
    isHeld c e = isHeld c' e' := by
  have hstr : ∀ key, key ≠ "x" → key ≠ "y" → e.str? key = e'.str? key := by
    intro key hx hy
    simp only [BoardElement.str?, he key hx hy]
  have hparents : parentIds e = parentIds e' := by
    simp only [parentIds, hstr "containerId" (by decide) (by decide),
      hstr "metaContainerId" (by decide) (by decide)]
  have hlocked : ∀ {e e' : BoardElement}, SameUnmoved e e' →
      isElementLocked e = isElementLocked e' := by
    intro e e' he
    simp only [isElementLocked, he "locked" (by decide) (by decide)]
  have hinside : isInsideLockedContainer c e = isInsideLockedContainer c' e' := by
    unfold isInsideLockedContainer
    rw [hparents]
    congr 1
    funext parentId
    have hparent := h parentId
    generalize c parentId = o, c' parentId = o' at hparent ⊢
    cases hparent with
    | none => rfl
    | some hsame => exact hlocked hsame
  have hmanaged : isInsideManagedMeta c e = isInsideManagedMeta c' e' := by
    unfold isInsideManagedMeta
    rw [hstr "metaContainerId" (by decide) (by decide)]
    cases e'.str? "metaContainerId" with
    | none => rfl
    | some metaId => exact isManaged_unmoved h metaId
  rw [isHeld, isHeld, hlocked he, hinside, hmanaged]

theorem isMoveBlocked_unmoved (move : Move) : isMoveBlocked c move = isMoveBlocked c' move := by
  unfold isMoveBlocked
  have helement := h move.elementId
  generalize c move.elementId = o, c' move.elementId = o' at helement ⊢
  cases helement with
  | none => rfl
  | some hsame => exact isHeld_unmoved h hsame

end

/-! ### The two forms -/

/-- A bulk mutation and one mutation for each of its entries, all still to be processed. -/
structure OneByOne (k : BoardKeys) (bulk : Mutation) (singles : List Mutation)
    (operation : Operation) (operations : List Operation) : Prop where
  bulkOperation : bulk.operation = operation
  singleOperations : singles.map (·.operation) = operations
  unseen : ∀ m ∈ bulk :: singles, m.mutationId ∉ k.seen
  distinct : (singles.map (·.mutationId)).Nodup

/-- The updates that no lock rule turns away when their turn comes, judged on the elements that the
    updates before them left. -/
def landedUpdates (cfg : Config) (k : BoardKeys) (updates : List Update) : List Update :=
  KeyedEdits.landed updateKind.target updateKind.edits updateKind.blocked
    (readable cfg k.elements.lookup) updates

/-- The last update of every element that can be read prevails over those of it that land. -/
def LastUpdatesPrevail (cfg : Config) (k : BoardKeys) (updates : List Update) : Prop :=
  ∀ id e u, readable cfg k.elements.lookup id = some e →
    updates.reverse.find? (·.elementId = id) = some u →
    LastPrevails e ((landedUpdates cfg k updates).filter (·.elementId = id)) u

section
variable (cfg : Config) (now : Nat) (mode : BoardSyncWriteMode) {k : BoardKeys}
  (hown : OwnIds k.elements.lookup) {bulk : Mutation} {singles : List Mutation}
include hown

theorem updates_sameElements_iff {updates : List Update}
    (hforms : OneByOne k bulk singles (.updateElements updates)
      (updates.map fun u => .updateElement u.elementId u.fields))
    (hids : ∀ u ∈ updates, u.fields.id = none)
    (hblocked : isMutationBlockedByLock bulk.operation
      (createCachedBoardContext cfg k [bulk]).lookup = false) :
    SameElements (eachKeys cfg now mode [bulk] k).2.elements
        (eachKeys cfg now mode singles k).2.elements ↔
      LastUpdatesPrevail cfg k updates := by
  have hcarries : updateKind.Carries bulk.operation updates :=
    hforms.bulkOperation ▸ carries_updateElements updates
  have htransient : ∀ m ∈ bulk :: singles, m.isTransient = false := by
    intro m hm
    rcases List.mem_cons.mp hm with rfl | hm
    · simp [Mutation.isTransient, hforms.bulkOperation]
    · have hop : m.operation ∈ singles.map (·.operation) := List.mem_map_of_mem hm
      rw [hforms.singleOperations] at hop
      obtain ⟨u, -, hu⟩ := List.mem_map.mp hop
      simp [Mutation.isTransient, ← hu]
  rw [(context_verdicts cfg k bulk hcarries.readsAhead).1, hcarries.blocked] at hblocked
  rw [sameElements_iff cfg now mode carries_updateElement hcarries hforms.singleOperations
    (fun u hu e => by simp [updateKind, patchWith, BoardElement.patch, hids u hu]) hown htransient
    hforms.unseen hforms.distinct hblocked]
  have hland : ∀ id, ∀ v ∈ KeyedEdits.onKey updateKind.target id (landedUpdates cfg k updates),
      v.fields.id = none := by
    intro id v hv
    exact hids v ((KeyedEdits.landed_sublist _ _ _ _ _).mem (List.mem_of_mem_filter hv))
  refine forall_congr' fun id => forall_congr' fun e => forall_congr' fun u =>
    imp_congr_right fun _ => imp_congr_right fun hlast => ?_
  have hu : u ∈ updates := List.mem_reverse.mp (List.mem_of_find?_eq_some hlast)
  exact sameElement_patch_iff (hland id) (hids u hu)

/-- No move keeps another of the list from landing. -/
theorem moves_sameElements {moves : List Move} {transient : Bool}
    (hforms : OneByOne k bulk singles (.moveElements moves transient)
      (moves.map fun move => .moveElements [move] transient))
    (hblocked : isMutationBlockedByLock bulk.operation
      (createCachedBoardContext cfg k [bulk]).lookup = false) :
    SameElements (eachKeys cfg now mode [bulk] k).2.elements
      (eachKeys cfg now mode singles k).2.elements := by
  have hcarries : moveKind.Carries bulk.operation moves :=
    hforms.bulkOperation ▸ carries_moveElements moves transient
  have htransient : ∀ m ∈ bulk :: singles, m.isTransient = transient := by
    intro m hm
    rcases List.mem_cons.mp hm with rfl | hm
    · simp [Mutation.isTransient, hforms.bulkOperation]
    · have hop : m.operation ∈ singles.map (·.operation) := List.mem_map_of_mem hm
      rw [hforms.singleOperations] at hop
      obtain ⟨move, -, hmove⟩ := List.mem_map.mp hop
      simp [Mutation.isTransient, ← hmove]
  cases transient with
  | true =>
    -- transient moves are only passed on
    have hpassed : ∀ ms : List Mutation, (∀ m ∈ ms, m.isTransient = true) →
        ∀ k, (eachKeys cfg now mode ms k).2 = k := by
      intro ms hms
      induction ms with
      | nil => intro k; rfl
      | cons m ms ih =>
        intro k
        simp only [eachKeys, processMutationWithContext, hms m (by simp), if_true]
        exact ih (fun m' hm' => hms m' (by simp [hm'])) k
    rw [hpassed [bulk] (fun m hm => htransient m (by simp_all)),
      hpassed singles fun m hm => htransient m (by simp [hm])]
    exact fun id => optionRel_refl _
  | false =>
    rw [(context_verdicts cfg k bulk hcarries.readsAhead).1, hcarries.blocked] at hblocked
    rw [sameElements_iff cfg now mode (fun move => carries_moveElements [move] false) hcarries
      hforms.singleOperations (fun _ _ _ => rfl) hown htransient hforms.unseen
      hforms.distinct hblocked]
    intro id e move _ hlast
    rw [KeyedEdits.landed_eq_self]
    · obtain ⟨before, hbefore⟩ := KeyedEdits.onKey_of_last? moveKind.target hlast
      rw [hbefore]
      exact sameElement_moveTo before move e
    · intro move' hmove'
      simpa using List.any_eq_false.mp hblocked move' hmove'
    · intro c a _ b _ hb
      exact (isMoveBlocked_unmoved (edit_moveTo_unmoved c a) b).trans hb

/-- One `MOVE_ELEMENTS` leaves the elements that its moves leave one by one; one `UPDATE_ELEMENTS`
    does so exactly when the last update of each element prevails. -/
theorem bulk_as_one_by_one_iff :
    (∀ bulk singles updates,
      OneByOne k bulk singles (.updateElements updates)
        (updates.map fun u => .updateElement u.elementId u.fields) →
      (∀ u ∈ updates, u.fields.id = none) →
      isMutationBlockedByLock bulk.operation (createCachedBoardContext cfg k [bulk]).lookup =
        false →
      (SameElements (eachKeys cfg now mode [bulk] k).2.elements
          (eachKeys cfg now mode singles k).2.elements ↔ LastUpdatesPrevail cfg k updates)) ∧
    (∀ bulk singles moves transient,
      OneByOne k bulk singles (.moveElements moves transient)
        (moves.map fun move => .moveElements [move] transient) →
      isMutationBlockedByLock bulk.operation (createCachedBoardContext cfg k [bulk]).lookup =
        false →
      SameElements (eachKeys cfg now mode [bulk] k).2.elements
        (eachKeys cfg now mode singles k).2.elements) :=
  ⟨fun _ _ _ hforms hids hblocked =>
      updates_sameElements_iff cfg now mode hown hforms hids hblocked,
    fun _ _ _ _ hforms hblocked => moves_sameElements cfg now mode hown hforms hblocked⟩

end

/-! ### A note with a title -/

/-- A board with one note. -/
def noteKeys : BoardKeys where
  elements := (∅ : Dict BoardElement).insert "note" ⟨"note", AList.singleton "title" (.str "old")⟩

theorem ownIds_noteKeys : OwnIds noteKeys.elements.lookup := ownIds_of_entries (by decide)

def setField (key value : String) : Update :=
  ⟨"note", { fields := AList.singleton key (.str value) }⟩

/-- The note is renamed and then moved twice, in either form. -/
theorem note_renamed_and_moved :
    let rename := ⟨"m0", "board", .updateElements [setField "title" "new"]⟩
    let renamed := [⟨"m1", "board", .updateElement "note" (setField "title" "new").fields⟩]
    let first : Move := ⟨"note", some (.num 1), some (.num 2)⟩
    let second : Move := ⟨"note", some (.num 3), some (.num 4)⟩
    let move := ⟨"m0", "board", .moveElements [first, second] false⟩
    let moved := [⟨"m1", "board", .moveElements [first] false⟩,
      ⟨"m2", "board", .moveElements [second] false⟩]
    SameElements (eachKeys {} 0 .solo [rename] noteKeys).2.elements
        (eachKeys {} 0 .solo renamed noteKeys).2.elements ∧
      SameElements (eachKeys {} 0 .solo [move] noteKeys).2.elements
        (eachKeys {} 0 .solo moved noteKeys).2.elements := by
  intro rename renamed first second move moved
  have hall := bulk_as_one_by_one_iff {} 0 .solo ownIds_noteKeys
  refine ⟨(hall.1 rename renamed [setField "title" "new"] ⟨rfl, rfl, by decide, by decide⟩
    (by decide) (by decide)).mpr ?_,
    hall.2 move moved _ _ ⟨rfl, rfl, by decide, by decide⟩ (by decide)⟩
  intro id e u he hu
  have hid : id = "note" := by
    by_contra hne
    simp [setField, Ne.symm hne] at hu
  subst hid
  obtain rfl := Option.some.inj hu
  obtain rfl := Option.some.inj he
  have hlanded : (landedUpdates {} noteKeys [setField "title" "new"]).filter
      (·.elementId = "note") = [setField "title" "new"] := rfl
  rw [hlanded]
  constructor
  · intro key v hnone hlast
    simp [lastValue, hnone] at hlast
  · intro key v hset
    simp [lastValue, hset]

/-- The bulk form of a new title and a new text loses the title. -/
theorem bulk_loses_title :
    let updates := [setField "title" "new", setField "text" "hello"]
    let bulk : Mutation := ⟨"m0", "board", .updateElements updates⟩
    let singles : List Mutation :=
      [⟨"m1", "board", .updateElement "note" (setField "title" "new").fields⟩,
        ⟨"m2", "board", .updateElement "note" (setField "text" "hello").fields⟩]
    OwnIds noteKeys.elements.lookup ∧
      OneByOne noteKeys bulk singles (.updateElements updates)
        (updates.map fun u => .updateElement u.elementId u.fields) ∧
      (∀ u ∈ updates, u.fields.id = none) ∧
      isMutationBlockedByLock bulk.operation
        (createCachedBoardContext {} noteKeys [bulk]).lookup = false ∧
      ¬ SameElements (eachKeys {} 0 .solo [bulk] noteKeys).2.elements
        (eachKeys {} 0 .solo singles noteKeys).2.elements := by
  refine ⟨ownIds_noteKeys, ⟨rfl, rfl, by decide, by decide⟩, by decide, by decide, ?_⟩
  intro hsame
  have htitle : some (Json.str "old") = some (Json.str "new") :=
    hsame.lookup_field "note" "title"
  simp at htitle

end Notebortt
