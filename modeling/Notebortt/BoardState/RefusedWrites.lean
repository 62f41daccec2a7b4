import Notebortt.BoardState.ChangeSets
import Notebortt.Concurrency.PipelineOrder

/-! # Commands of the write pipeline that Redis refuses

    A pipeline answers command by command, and `applyChangeSet` does not look
    at the answers. The commands of one pipeline differ from one another, so a
    set of commands names any subset of them. -/

namespace Notebortt

/-! ### A pipeline with refusals -/

/-- A refused command changes nothing. -/
def execReply (refused : WriteCommand → Bool) (k : BoardKeys) (c : WriteCommand) : BoardKeys :=
  if refused c then k else c.exec k

def runReplies (refused : WriteCommand → Bool) (commands : List WriteCommand) (k : BoardKeys) :
    BoardKeys :=
  commands.foldl (execReply refused) k

/-- `applyChangeSet` when Redis answers the commands in `refused` with an error: whatever the
    answers, the change is returned. -/
def applyChangeSetReplies (refused : WriteCommand → Bool) (trackChangeLog : Bool) (now : Nat)
    (changeSet : ElementChangeSet) (k : BoardKeys) : Option PersistedElementChange × BoardKeys :=
  let resolved := resolveChangeSet k.elementList changeSet
  if resolved.upserts.isEmpty && resolved.deletes.isEmpty then (none, k)
  else
    let numbered := getSequence k
    let change : PersistedElementChange :=
      { sequence := numbered.1, upserts := resolved.upserts, deletes := resolved.deletes }
    (some change, runReplies refused (writePipeline trackChangeLog now change) numbered.2)

/-- With every command accepted it is `applyChangeSet`. -/
theorem applyChangeSetReplies_accepted (trackChangeLog : Bool) (now : Nat)
    (changeSet : ElementChangeSet) (k : BoardKeys) :
    applyChangeSetReplies (fun _ => false) trackChangeLog now changeSet k =
      applyChangeSet trackChangeLog now changeSet k := rfl

/-! ### The commands of a pipeline -/

section pipeline
variable {trackChangeLog : Bool} {now : Nat} {change : PersistedElementChange} {c : WriteCommand}

/-- The four kinds of commands that write the hash and mark its ids, by what they carry. -/
def WriteCommand.Carries (change : PersistedElementChange) : WriteCommand → Prop
  | .hset elementId element => element ∈ change.upserts ∧ elementId = element.id
  | .hdel ids | .saddDeletedElementIds ids | .sremDirtyElementIds ids => ids = change.deletes
  | .saddDirtyElementIds ids | .sremDeletedElementIds ids => ids = change.upserts.map (·.id)
  | _ => True

theorem carries_of_mem (hc : c ∈ writePipeline trackChangeLog now change) : c.Carries change := by
  obtain ⟨sequence, upserts, deletes⟩ := change
  simp only [writePipeline, List.mem_append, List.mem_map] at hc
  rcases hc with ((((⟨e, he, rfl⟩ | hc) | hc) | hc) | hc) | hc
  · exact ⟨he, rfl⟩
  · split at hc
    · cases hc
    · rw [List.mem_singleton.mp hc]
      rfl
  · cases trackChangeLog with
    | false => cases hc
    | true =>
      simp only [if_true, List.mem_cons, List.not_mem_nil, or_false] at hc
      rcases hc with rfl | rfl <;> trivial
  · simp only [List.mem_cons, List.not_mem_nil, or_false] at hc
    rcases hc with rfl | rfl | rfl | rfl | rfl | rfl <;> trivial
  · split at hc
    · cases hc
    · simp only [List.mem_cons, List.not_mem_nil, or_false] at hc
      rcases hc with rfl | rfl <;> rfl
  · split at hc
    · cases hc
    · simp only [List.mem_cons, List.not_mem_nil, or_false] at hc
      rcases hc with rfl | rfl <;> rfl

/-- A command of the pipeline leaves the entry of an id that it neither sets nor deletes. -/
theorem lookup_exec_of_carries {id : String} (hcarries : c.Carries change)
    (hset : ∀ e ∈ change.upserts, c = .hset e.id e → e.id ≠ id)
    (hdel : c = .hdel change.deletes → id ∉ change.deletes) (k : BoardKeys) :
    (c.exec k).elements.lookup id = k.elements.lookup id := by
  apply WriteCommand.lookup_exec_of_not_sets
  · cases c with
    | hset elementId element =>
      obtain ⟨hmem, rfl⟩ := hcarries
      simpa [WriteCommand.sets] using hset element hmem rfl
    | _ => rfl
  · cases c with
    | hdel elementIds =>
      obtain rfl : elementIds = change.deletes := hcarries
      simpa [WriteCommand.removes] using hdel rfl
    | _ => rfl

theorem hset_mem_writePipeline {e : BoardElement} (he : e ∈ change.upserts) :
    .hset e.id e ∈ writePipeline trackChangeLog now change := by
  simp only [writePipeline, List.mem_append, List.mem_map]
  exact .inl (.inl (.inl (.inl (.inl ⟨e, he, rfl⟩))))

theorem hdel_mem_writePipeline {id : String} (hid : id ∈ change.deletes) :
    .hdel change.deletes ∈ writePipeline trackChangeLog now change := by
  have hne : change.deletes.isEmpty = false := by
    rw [List.isEmpty_eq_false_iff]
    exact List.ne_nil_of_mem hid
  simp [writePipeline, hne]

theorem saddDirty_mem_writePipeline {e : BoardElement} (he : e ∈ change.upserts) :
    .saddDirtyElementIds (change.upserts.map (·.id)) ∈ writePipeline trackChangeLog now change := by
  have hne : change.upserts.isEmpty = false := by
    rw [List.isEmpty_eq_false_iff]
    exact List.ne_nil_of_mem he
  simp [writePipeline, hne]

theorem saddDeleted_mem_writePipeline {id : String} (hid : id ∈ change.deletes) :
    .saddDeletedElementIds change.deletes ∈ writePipeline trackChangeLog now change := by
  have hne : change.deletes.isEmpty = false := by
    rw [List.isEmpty_eq_false_iff]
    exact List.ne_nil_of_mem hid
  simp [writePipeline, hne]

/-- No command stands twice in a pipeline. -/
theorem nodup_writePipeline (hnodup : (change.upserts.map (·.id)).Nodup) :
    (writePipeline trackChangeLog now change).Nodup := by
  obtain ⟨sequence, upserts, deletes⟩ := change
  have hhsets : (upserts.map fun element => WriteCommand.hset element.id element).Nodup := by
    refine (List.Nodup.of_map _ hnodup).map ?_
    intro e e' heq
    exact (WriteCommand.hset.inj heq).2
  simp only [writePipeline, List.append_assoc]
  refine List.nodup_append.mpr ⟨hhsets, ?_, ?_⟩
  · cases upserts.isEmpty <;> cases deletes.isEmpty <;> cases trackChangeLog <;> simp
  · rintro c hc c' hc' rfl
    obtain ⟨e, -, rfl⟩ := List.mem_map.mp hc
    cases upserts.isEmpty <;> cases deletes.isEmpty <;> cases trackChangeLog <;> simp at hc'

end pipeline

/-! ### One command that decides -/

section decide
variable {β : Type} {f : BoardKeys → β} {refused : WriteCommand → Bool}

theorem execReply_frame {c : WriteCommand} (hsame : ∀ k, f (c.exec k) = f k) (k : BoardKeys) :
    f (execReply refused k c) = f k := by
  rw [execReply]
  split
  · rfl
  · exact hsame k

theorem runReplies_frame {commands : List WriteCommand}
    (hsame : ∀ c ∈ commands, ∀ k, f (c.exec k) = f k) (k : BoardKeys) :
    f (runReplies refused commands k) = f k := by
  induction commands generalizing k with
  | nil => rfl
  | cons c rest ih =>
    have hcons : runReplies refused (c :: rest) k =
        runReplies refused rest (execReply refused k c) :=
      rfl
    rw [hcons, ih fun d hd => hsame d (List.mem_cons_of_mem c hd)]
    exact execReply_frame (hsame c List.mem_cons_self) k

/-- What only one command of a list can change is as that command left it, or as it was where the
    command is refused. -/
theorem runReplies_only {v : β} {c : WriteCommand} {commands : List WriteCommand}
    (hnodup : commands.Nodup) (hc : c ∈ commands)
    (hframe : ∀ c' ∈ commands, c' ≠ c → ∀ k, f (c'.exec k) = f k) (hset : ∀ k, f (c.exec k) = v)
    (k : BoardKeys) : f (runReplies refused commands k) = if refused c then f k else v := by
  induction commands generalizing k with
  | nil => cases hc
  | cons c' rest ih =>
    obtain ⟨hfresh, hrest⟩ := List.nodup_cons.mp hnodup
    have hcons : runReplies refused (c' :: rest) k =
        runReplies refused rest (execReply refused k c') :=
      rfl
    rw [hcons]
    by_cases hhead : c' = c
    · subst hhead
      have hsame : ∀ d ∈ rest, ∀ k, f (d.exec k) = f k := by
        intro d hd
        exact hframe d (List.mem_cons_of_mem c' hd) fun heq => hfresh (heq ▸ hd)
      rw [runReplies_frame hsame, execReply]
      split
      · rfl
      · exact hset k
    · have hmem : c ∈ rest := by
        rcases List.mem_cons.mp hc with heq | hmem
        · exact absurd heq.symm hhead
        · exact hmem
      rw [ih hrest hmem fun d hd => hframe d (List.mem_cons_of_mem c' hd),
        execReply_frame (hframe c' List.mem_cons_self hhead)]

end decide

/-! ### What lands -/

/-- The upserts of the change are in the hash and marked as dirty, its deletes are not and are
    marked as deleted. -/
structure Landed (change : PersistedElementChange) (k : BoardKeys) : Prop where
  upserts : ∀ e ∈ change.upserts, k.elements.lookup e.id = some e
  deletes : ∀ id ∈ change.deletes, k.elements.lookup id = none
  dirty : ∀ e ∈ change.upserts, e.id ∈ k.dirtyElementIds
  deleted : ∀ id ∈ change.deletes, id ∈ k.deletedElementIds

/-- Of the HSETs, the HDEL and the two SADDs of a change only such are refused whose effect is
    there already. -/
structure Harmless (refused : WriteCommand → Bool) (upserts : List BoardElement)
    (deletes : List String) (k : BoardKeys) : Prop where
  hset : ∀ e ∈ upserts, refused (.hset e.id e) = true → k.elements.lookup e.id = some e
  hdel : refused (.hdel deletes) = true → ∀ id ∈ deletes, k.elements.lookup id = none
  saddDirty : refused (.saddDirtyElementIds (upserts.map (·.id))) = true →
    ∀ e ∈ upserts, e.id ∈ k.dirtyElementIds
  saddDeleted : refused (.saddDeletedElementIds deletes) = true →
    ∀ id ∈ deletes, id ∈ k.deletedElementIds

section landed
variable {refused : WriteCommand → Bool} {trackChangeLog : Bool} {now : Nat}
  {change : PersistedElementChange} (hnodup : (change.upserts.map (·.id)).Nodup)
  (hkept : ∀ e ∈ change.upserts, e.id ∉ change.deletes) (k : BoardKeys)

include hnodup hkept

theorem lookup_upsert_runReplies {e : BoardElement} (he : e ∈ change.upserts) :
    (runReplies refused (writePipeline trackChangeLog now change) k).elements.lookup e.id =
      if refused (.hset e.id e) then k.elements.lookup e.id else some e := by
  refine runReplies_only (f := fun k => k.elements.lookup e.id) (nodup_writePipeline hnodup)
    (hset_mem_writePipeline he) ?_ ?_ k
  · intro c hc hne k
    refine lookup_exec_of_carries (carries_of_mem hc) ?_ (fun _ => hkept e he) k
    -- one id is upserted once, so another HSET is of another id
    intro element hmem heq hid
    rw [List.inj_on_of_nodup_map hnodup hmem he hid] at heq
    exact hne heq
  · intro k
    simp only [WriteCommand.exec]
    exact AList.lookup_insert _

theorem lookup_delete_runReplies {id : String} (hid : id ∈ change.deletes) :
    (runReplies refused (writePipeline trackChangeLog now change) k).elements.lookup id =
      if refused (.hdel change.deletes) then k.elements.lookup id else none := by
  refine runReplies_only (f := fun k => k.elements.lookup id) (nodup_writePipeline hnodup)
    (hdel_mem_writePipeline hid) ?_ ?_ k
  · intro c hc hne k
    refine lookup_exec_of_carries (carries_of_mem hc) ?_ (fun heq => absurd heq hne) k
    intro element hmem _ heq
    exact hkept element hmem (heq ▸ hid)
  · intro k
    simp only [WriteCommand.exec, Dict.lookup_eraseAll, if_pos hid]

theorem mem_dirty_runReplies {e : BoardElement} (he : e ∈ change.upserts) :
    e.id ∈ (runReplies refused (writePipeline trackChangeLog now change) k).dirtyElementIds ↔
      (refused (.saddDirtyElementIds (change.upserts.map (·.id))) = true →
        e.id ∈ k.dirtyElementIds) := by
  have hmem : e.id ∈ change.upserts.map (·.id) := List.mem_map_of_mem he
  have hdecides :
      (e.id ∈ (runReplies refused (writePipeline trackChangeLog now change) k).dirtyElementIds) =
        if refused (.saddDirtyElementIds (change.upserts.map (·.id))) then
          e.id ∈ k.dirtyElementIds
        else True := by
    refine runReplies_only (f := fun k => e.id ∈ k.dirtyElementIds) (nodup_writePipeline hnodup)
      (saddDirty_mem_writePipeline he) ?_ ?_ k
    · intro c hc hne k
      have hcarries := carries_of_mem hc
      have hmarks : c.marksDirty e.id = false := by
        cases c with
        | saddDirtyElementIds ids =>
          obtain rfl : ids = change.upserts.map (·.id) := hcarries
          exact absurd rfl hne
        | _ => rfl
      have hclears : c.clearsDirty e.id = false := by
        cases c with
        | sremDirtyElementIds ids =>
          obtain rfl : ids = change.deletes := hcarries
          simpa [WriteCommand.clearsDirty] using hkept e he
        | _ => rfl
      simp [WriteCommand.mem_dirty_exec, hmarks, hclears]
    · intro k
      simp [WriteCommand.mem_dirty_exec, WriteCommand.marksDirty, hmem]
  rw [hdecides]
  split
  · next hrefused => simp [hrefused]
  · next hrefused => simp [hrefused]

theorem mem_deleted_runReplies {id : String} (hid : id ∈ change.deletes) :
    id ∈ (runReplies refused (writePipeline trackChangeLog now change) k).deletedElementIds ↔
      (refused (.saddDeletedElementIds change.deletes) = true → id ∈ k.deletedElementIds) := by
  have hdecides :
      (id ∈ (runReplies refused (writePipeline trackChangeLog now change) k).deletedElementIds) =
        if refused (.saddDeletedElementIds change.deletes) then id ∈ k.deletedElementIds
        else True := by
    refine runReplies_only (f := fun k => id ∈ k.deletedElementIds) (nodup_writePipeline hnodup)
      (saddDeleted_mem_writePipeline hid) ?_ ?_ k
    · intro c hc hne k
      have hcarries := carries_of_mem hc
      have hmarks : c.marksDeleted id = false := by
        cases c with
        | saddDeletedElementIds ids =>
          obtain rfl : ids = change.deletes := hcarries
          exact absurd rfl hne
        | _ => rfl
      have hclears : c.clearsDeleted id = false := by
        cases c with
        | sremDeletedElementIds ids =>
          obtain rfl : ids = change.upserts.map (·.id) := hcarries
          have hnot : id ∉ change.upserts.map (·.id) := by
            intro hupsert
            obtain ⟨e, he, rfl⟩ := List.mem_map.mp hupsert
            exact hkept e he hid
          simpa [WriteCommand.clearsDeleted] using hnot
        | _ => rfl
      simp [WriteCommand.mem_deleted_exec, hmarks, hclears]
    · intro k
      simp [WriteCommand.mem_deleted_exec, WriteCommand.marksDeleted, hid]
  rw [hdecides]
  split
  · next hrefused => simp [hrefused]
  · next hrefused => simp [hrefused]

/-- A pipeline lands whole exactly when its refusals are harmless. -/
theorem landed_runReplies_iff :
    Landed change (runReplies refused (writePipeline trackChangeLog now change) k) ↔
      Harmless refused change.upserts change.deletes k := by
  constructor
  · intro h
    constructor
    · intro e he hrefused
      have hlands := h.upserts e he
      rwa [lookup_upsert_runReplies hnodup hkept k he, if_pos hrefused] at hlands
    · intro hrefused id hid
      have hlands := h.deletes id hid
      rwa [lookup_delete_runReplies hnodup hkept k hid, if_pos hrefused] at hlands
    · intro hrefused e he
      exact (mem_dirty_runReplies hnodup hkept k he).mp (h.dirty e he) hrefused
    · intro hrefused id hid
      exact (mem_deleted_runReplies hnodup hkept k hid).mp (h.deleted id hid) hrefused
  · intro h
    constructor
    · intro e he
      rw [lookup_upsert_runReplies hnodup hkept k he]
      split
      · next hrefused => exact h.hset e he hrefused
      · rfl
    · intro id hid
      rw [lookup_delete_runReplies hnodup hkept k hid]
      split
      · next hrefused => exact h.hdel hrefused id hid
      · rfl
    · intro e he
      exact (mem_dirty_runReplies hnodup hkept k he).mpr fun hrefused => h.saddDirty hrefused e he
    · intro id hid
      exact (mem_deleted_runReplies hnodup hkept k hid).mpr fun hrefused =>
        h.saddDeleted hrefused id hid

end landed

/-! ### Success and partial writes -/

/-- The INCR before the pipeline writes neither the hash nor a marker. -/
theorem harmless_getSequence {refused : WriteCommand → Bool} {upserts : List BoardElement}
    {deletes : List String} {k : BoardKeys} :
    Harmless refused upserts deletes (getSequence k).2 ↔ Harmless refused upserts deletes k :=
  ⟨fun h => ⟨h.hset, h.hdel, h.saddDirty, h.saddDeleted⟩,
    fun h => ⟨h.hset, h.hdel, h.saddDirty, h.saddDeleted⟩⟩

/-- A call that returns a change reports a write that landed exactly when, of the commands of that
    change, only harmless ones were refused. -/
theorem applyChangeSet_reports_landed_iff (refused : WriteCommand → Bool) (trackChangeLog : Bool)
    (now : Nat) (changeSet : ElementChangeSet) (k : BoardKeys) :
    (∀ change, (applyChangeSetReplies refused trackChangeLog now changeSet k).1 = some change →
        Landed change (applyChangeSetReplies refused trackChangeLog now changeSet k).2) ↔
      Harmless refused (resolveChangeSet k.elementList changeSet).upserts
        (resolveChangeSet k.elementList changeSet).deletes k := by
  have hnodup := nodup_resolveChangeSet_upserts k.elementList changeSet
  have hkept : ∀ e ∈ (resolveChangeSet k.elementList changeSet).upserts,
      e.id ∉ (resolveChangeSet k.elementList changeSet).deletes := by
    intro e he
    exact ((mem_resolveChangeSet_upserts _ _).mp he).1
  simp only [applyChangeSetReplies]
  split
  · next hempty =>
    simp only [Bool.and_eq_true, List.isEmpty_iff] at hempty
    refine iff_of_true (fun change h => by cases h) ?_
    rw [hempty.1, hempty.2]
    constructor <;> simp
  · constructor
    · intro h
      exact harmless_getSequence.mp
        ((landed_runReplies_iff (by exact hnodup) (by exact hkept) _).mp (h _ rfl))
    · intro h change hchange
      obtain rfl := Option.some.inj hchange
      exact (landed_runReplies_iff (by exact hnodup) (by exact hkept) _).mpr
        (harmless_getSequence.mpr h)

/-- The memory runs out behind the HSETs: what would add to it is refused, what only removes is
    not. -/
def outOfMemory : WriteCommand → Bool
  | .hset .. | .hdel _ | .ltrimChanges | .sremDeletedElementIds _ | .sremDirtyElementIds _ => false
  | _ => true

/-- An element in the hash that no flush will find, and a change returned for it. -/
theorem unmarked_write_reported :
    ((applyChangeSetReplies outOfMemory true 0 ⟨[⟨"n", ∅⟩], []⟩ {}).1.map fun change =>
        change.upserts.map (·.id)) = some ["n"] ∧
      ((applyChangeSetReplies outOfMemory true 0
          ⟨[⟨"n", ∅⟩], []⟩ {}).2.elements.lookup "n").isSome =
        true ∧
      "n" ∉ (applyChangeSetReplies outOfMemory true 0 ⟨[⟨"n", ∅⟩], []⟩ {}).2.dirtyElementIds ∧
      ¬ ∀ change, (applyChangeSetReplies outOfMemory true 0 ⟨[⟨"n", ∅⟩], []⟩ {}).1 = some change →
        Landed change (applyChangeSetReplies outOfMemory true 0 ⟨[⟨"n", ∅⟩], []⟩ {}).2 := by
  have hunmarked :
      "n" ∉ (applyChangeSetReplies outOfMemory true 0 ⟨[⟨"n", ∅⟩], []⟩ {}).2.dirtyElementIds := by
    decide
  refine ⟨rfl, rfl, hunmarked, ?_⟩
  intro h
  exact hunmarked ((h _ rfl).dirty ⟨"n", ∅⟩ List.mem_cons_self)

end Notebortt
