import Notebortt.Concurrency.BoardCommands
import Mathlib.Data.Fintype.Basic

/-! # Dirty ids and the index of dirty boards

    `persistDirtyBoards` looks for work in `boards:dirty_by_age` only. A pipeline
    puts the board there before it marks its ids; the index entry is taken out by
    the compare-and-clear, by a flush of a board that is not loaded, and after an
    eviction. -/

open Transition

namespace Notebortt.BoardCommands

/-! ### Ids to flush -/

/-- Neither set of ids has a member. -/
def NoIds (k : BoardKeys) : Prop :=
  k.dirtyElementIds.entries = [] ∧ k.deletedElementIds.entries = []

instance (k : BoardKeys) : Decidable (NoIds k) := by
  unfold NoIds; infer_instance

/-- SADD to the dirty ids or to the deleted ids. -/
def addsIds : WriteCommand → Bool
  | .saddDirtyElementIds _ => true
  | .saddDeletedElementIds _ => true
  | _ => false

/-- ZADD to `boards:dirty_by_age`. -/
def addsToIndex : WriteCommand → Bool
  | .zaddDirtyBoardsByAge _ => true
  | _ => false

/-- The run has put the board in the index, and has ids still to mark. -/
def Run.owesIds (r : Run) : Bool := r.pipeline.any addsIds && !r.pipeline.any addsToIndex

def Run.isPersist : Run → Bool
  | .persist _ => true
  | _ => false

section index
variable {P : Type}

/-- With nothing in flight, a board that has ids to flush is where
    `persistDirtyBoards` looks. -/
def DirtyIsIndexed (s : State P) : Prop :=
  (∀ p, s.run p = .idle) → ¬ NoIds s.keys → s.keys.dirtyByAge ≠ none

/-- One `persistBoard` at a time. -/
def OnePersist (s : State P) : Label P → Prop
  | .persistBoard _ => ∀ q, (s.run q).isPersist = false
  | _ => True

instance [Fintype P] (s : State P) (l : Label P) : Decidable (OnePersist s l) := by
  unfold OnePersist
  split <;> infer_instance

/-- The board can leave the index: no id is marked, and none is about to be. -/
def Unowed (s : State P) : Prop := NoIds s.keys ∧ ∀ q, (s.run q).owesIds = false

/-- The step condition: a compare-and-clear that is not rejected finds no run with
    ids still to mark, and leaves no id behind (a full snapshot clears none); the
    other two ZREM find no id, marked or still to mark. -/
def KeepsIndex (cfg : Config) (s : State P) : Label P → Prop
  | .command p _ =>
    match s.run p with
    | .persist (.clear _ epoch) =>
      getDirtyEpoch s.keys = epoch →
        (cfg.enableIncrementalPersistence = true ∨ NoIds s.keys) ∧ ∀ q, (s.run q).owesIds = false
    | .persist (.unindexing (.zremDirtyBoardsByAge :: _)) => Unowed s
    | .flush (.unindexing (.zremDirtyBoardsByAge :: _)) => Unowed s
    | _ => True
  | _ => True

instance [Fintype P] (s : State P) : Decidable (Unowed s) := by
  unfold Unowed; infer_instance

instance [Fintype P] (cfg : Config) (s : State P) (l : Label P) :
    Decidable (KeepsIndex cfg s l) := by
  unfold KeepsIndex
  split
  · split <;> infer_instance
  · infer_instance

/-! ### The invariant -/

/-- No ZADD comes after a SADD. -/
def IndexFirst (commands : List WriteCommand) : Prop :=
  commands.Pairwise fun c d => addsIds c = true → addsToIndex d = false

structure Indexed (s : State P) : Prop where
  ids : ¬ NoIds s.keys → s.keys.dirtyByAge ≠ none
  owed : ∀ p, (s.run p).owesIds = true → s.keys.dirtyByAge ≠ none
  first : ∀ p, IndexFirst (s.run p).pipeline

theorem IndexFirst.append {front back : List WriteCommand} (hfront : ∀ c ∈ front, addsIds c = false)
    (hback : ∀ c ∈ back, addsToIndex c = false) : IndexFirst (front ++ back) := by
  refine List.pairwise_append.mpr ⟨?_, ?_, ?_⟩
  · refine List.Pairwise.imp_of_mem ?_ (List.pairwise_of_forall fun _ _ => trivial)
    intro c d hc _ _ hadds
    rw [hfront c hc] at hadds
    cases hadds
  · refine List.Pairwise.imp_of_mem ?_ (List.pairwise_of_forall fun _ _ => trivial)
    intro c d _ hd _ _
    exact hback d hd
  · intro c hc d _ hadds
    rw [hfront c hc] at hadds
    cases hadds

theorem indexFirst_writePipeline (trackChangeLog : Bool) (now : Nat)
    (change : PersistedElementChange) : IndexFirst (writePipeline trackChangeLog now change) := by
  unfold writePipeline
  rw [List.append_assoc]
  -- the ZADD stands with the other markers, the SADDs of ids at the end
  apply IndexFirst.append
  · intro c hc
    simp only [List.mem_append] at hc
    rcases hc with ((hset | hdel) | hlog) | hmarkers
    · obtain ⟨element, _, rfl⟩ := List.mem_map.mp hset
      rfl
    · split at hdel
      · cases hdel
      · rw [List.mem_singleton.mp hdel]
        rfl
    · cases trackChangeLog
      · cases hlog
      · simp only [if_true, List.mem_cons, List.not_mem_nil, or_false] at hlog
        rcases hlog with rfl | rfl <;> rfl
    · simp only [List.mem_cons, List.not_mem_nil, or_false] at hmarkers
      rcases hmarkers with rfl | rfl | rfl | rfl | rfl | rfl <;> rfl
  · intro c hc
    rcases List.mem_append.mp hc with hupserts | hdeletes
    · split at hupserts
      · cases hupserts
      · simp only [List.mem_cons, List.not_mem_nil, or_false] at hupserts
        rcases hupserts with rfl | rfl <;> rfl
    · split at hdeletes
      · cases hdeletes
      · simp only [List.mem_cons, List.not_mem_nil, or_false] at hdeletes
        rcases hdeletes with rfl | rfl <;> rfl

theorem any_addsToIndex_writePipeline (trackChangeLog : Bool) (now : Nat)
    (change : PersistedElementChange) :
    (writePipeline trackChangeLog now change).any addsToIndex = true := by
  rw [List.any_eq_true]
  exact ⟨.zaddDirtyBoardsByAge now, by simp [writePipeline], rfl⟩

theorem Run.owesIds_of_pipeline_nil {r : Run} (h : r.pipeline = []) : r.owesIds = false := by
  simp [Run.owesIds, h]

/-! ### What a step keeps -/

theorem dirtyByAge_exec {c : WriteCommand} (h : addsToIndex c = false) (k : BoardKeys) :
    (c.exec k).dirtyByAge = k.dirtyByAge := by
  cases c with
  | zaddDirtyBoardsByAge serverTimestamp => cases h
  | _ => simp only [WriteCommand.exec]

theorem remove_of_entries_eq_nil {d : IdSet} (h : d.entries = []) (ids : List String) :
    (d.remove ids).entries = [] := by
  have hempty : d = ∅ := AList.ext h
  have hnone : ∀ id, id ∉ d.remove ids := by
    intro id hid
    rw [IdSet.mem_remove, hempty] at hid
    exact absurd hid.2 (AList.notMem_empty id)
  by_contra hne
  obtain ⟨entry, hentry⟩ := List.exists_mem_of_ne_nil _ hne
  exact hnone entry.1 (List.mem_map.mpr ⟨entry, hentry, rfl⟩)

theorem NoIds.exec {c : WriteCommand} (hc : addsIds c = false) {k : BoardKeys} (h : NoIds k) :
    NoIds (c.exec k) := by
  obtain ⟨hdirty, hdeleted⟩ := h
  cases c with
  | saddDirtyElementIds ids => cases hc
  | saddDeletedElementIds ids => cases hc
  | sremDeletedElementIds ids => exact ⟨hdirty, remove_of_entries_eq_nil hdeleted ids⟩
  | sremDirtyElementIds ids => exact ⟨remove_of_entries_eq_nil hdirty ids, hdeleted⟩
  | _ => exact ⟨hdirty, hdeleted⟩

/-- A step that leaves the index, marks no id, and starts no pipeline. -/
theorem Indexed.of_frame {s s' : State P} (h : Indexed s)
    (hindex : s'.keys.dirtyByAge = s.keys.dirtyByAge) (hids : NoIds s.keys → NoIds s'.keys)
    (hruns : ∀ q, s'.run q = s.run q ∨ (s'.run q).pipeline = []) : Indexed s' := by
  constructor
  · rw [hindex]
    exact fun hsome => h.ids (mt hids hsome)
  · intro q howes
    rw [hindex]
    rcases hruns q with heq | hnil
    · exact h.owed q (heq ▸ howes)
    · rw [Run.owesIds_of_pipeline_nil hnil] at howes
      cases howes
  · intro q
    rcases hruns q with heq | hnil
    · rw [heq]
      exact h.first q
    · rw [hnil]
      exact List.Pairwise.nil

/-- The board may leave the index when nobody owes it an id. -/
theorem Indexed.of_unowed {s s' : State P} (h : Indexed s) (hids : NoIds s'.keys)
    (howed : ∀ q, (s.run q).owesIds = false)
    (hruns : ∀ q, s'.run q = s.run q ∨ (s'.run q).pipeline = []) : Indexed s' := by
  constructor
  · exact fun hsome => absurd hids hsome
  · intro q howes
    rcases hruns q with heq | hnil
    · rw [heq, howed q] at howes
      cases howes
    · rw [Run.owesIds_of_pipeline_nil hnil] at howes
      cases howes
  · intro q
    rcases hruns q with heq | hnil
    · rw [heq]
      exact h.first q
    · rw [hnil]
      exact List.Pairwise.nil

/-- One command of a pipeline: the ZADD indexes the board, and a SADD comes after it. -/
theorem Indexed.write [DecidableEq P] {s s' : State P} (h : Indexed s) {p : P} {c : WriteCommand}
    {rest : List WriteCommand} (hrun : (s.run p).pipeline = c :: rest)
    (hkeys : s'.keys = c.exec s.keys) (hpipeline : (s'.run p).pipeline = rest)
    (hruns : ∀ q, q ≠ p → s'.run q = s.run q) : Indexed s' := by
  have hfirst := h.first p
  rw [hrun] at hfirst
  obtain ⟨hhead, htail⟩ := List.pairwise_cons.mp hfirst
  have hfirst' : ∀ q, IndexFirst (s'.run q).pipeline := by
    intro q
    by_cases hq : q = p
    · rw [hq, hpipeline]
      exact htail
    · rw [hruns q hq]
      exact h.first q
  -- the case that counts is a SADD: its ZADD must be behind it
  cases hzadd : addsToIndex c with
  | true =>
    have hsome : s'.keys.dirtyByAge ≠ none := by
      rw [hkeys]
      cases c with
      | zaddDirtyBoardsByAge serverTimestamp =>
        cases hage : s.keys.dirtyByAge <;> simp [WriteCommand.exec, hage]
      | _ => cases hzadd
    exact ⟨fun _ => hsome, fun _ _ => hsome, hfirst'⟩
  | false =>
    have hindex : s'.keys.dirtyByAge = s.keys.dirtyByAge := by rw [hkeys, dirtyByAge_exec hzadd]
    refine ⟨?_, ?_, hfirst'⟩
    · intro hids
      rw [hindex]
      cases hadds : addsIds c with
      | false =>
        rw [hkeys] at hids
        exact h.ids (mt (NoIds.exec hadds) hids)
      | true =>
        -- the ZADD of this pipeline is behind it
        apply h.owed p
        have hnone : rest.any addsToIndex = false := by
          rw [List.any_eq_false]
          intro d hd
          simpa using hhead d hd hadds
        simp [Run.owesIds, hrun, hadds, hzadd, hnone]
    · intro q howes
      rw [hindex]
      by_cases hq : q = p
      · apply h.owed p
        simp only [Run.owesIds, hq, hpipeline, Bool.and_eq_true, Bool.not_eq_true'] at howes
        simp [Run.owesIds, hrun, howes.1, howes.2, hzadd]
      · rw [hruns q hq] at howes
        exact h.owed q howes

theorem indexed_step [DecidableEq P] {cfg : Config} {boardId : String} {s s' : State P}
    {l : Label P}
    (h : Indexed s) (hkeeps : KeepsIndex cfg s l) (hstep : step cfg boardId s l = some s') :
    Indexed s' := by
  cases step_effect hstep with
  | move keys numbers runs =>
    exact h.of_frame (by rw [keys]) (by rw [keys]; exact id) runs
  | loadRow run keys numbers runs =>
    exact h.of_frame (by rw [keys]) (by rw [keys]; exact id) runs
  | loadSeq run keys numbers runs =>
    exact h.of_frame (by rw [keys]) (by rw [keys]; exact id) runs
  | number run keys numbers pipeline runs =>
    rename_i p now call changes
    constructor
    · rw [keys]
      exact h.ids
    · intro q howes
      rw [keys]
      by_cases hq : q = p
      · -- its own ZADD is still to come
        rw [hq, Run.owesIds, pipeline, any_addsToIndex_writePipeline] at howes
        simp at howes
      · rw [runs q hq] at howes
        exact h.owed q howes
    · intro q
      by_cases hq : q = p
      · rw [hq, pipeline]
        exact indexFirst_writePipeline _ _ _
      · rw [runs q hq]
        exact h.first q
  | write run keys numbers pipeline runs => exact h.write run keys pipeline runs
  | unindex run keys numbers runs =>
    rename_i p now c rest
    cases c with
    | sremDirtyBoards => exact h.of_frame (by rw [keys]; rfl) (by rw [keys]; exact id) runs
    | sremActiveBoards => exact h.of_frame (by rw [keys]; rfl) (by rw [keys]; exact id) runs
    | zremDirtyBoardsByAge =>
      have hunowed : Unowed s := by
        rcases run with run | run <;> simpa [KeepsIndex, run] using hkeeps
      exact h.of_unowed (by rw [keys]; exact hunowed.1) hunowed.2 runs
  | clear run keys numbers runs =>
    rename_i p now sequence epoch
    simp only [KeepsIndex, run] at hkeeps
    unfold compareAndClear at keys
    split at keys
    · exact h.of_frame (by rw [keys]) (by rw [keys]; exact id) runs
    · next hepoch =>
      -- the clear was not rejected: nobody owes an id, and none is left
      obtain ⟨hmode, howed⟩ := hkeeps (not_not.mp hepoch)
      refine h.of_unowed ?_ howed runs
      rw [keys]
      rcases hmode with hincremental | hnone
      · simp [NoIds, BoardKeys.clearMarkers, hincremental, AList.empty_entries]
      · unfold BoardKeys.clearMarkers
        cases cfg.enableIncrementalPersistence
        · exact hnone
        · exact ⟨rfl, rfl⟩
  | del run keys numbers runs =>
    refine h.of_frame (by rw [keys]; rfl) ?_ runs
    rw [keys]
    rintro ⟨hdirty, hdeleted⟩
    simp only [NoIds, BoardKeys.del]
    constructor
    · split
      · rfl
      · exact hdirty
    · split
      · rfl
      · exact hdeleted

/-! ### The run -/

theorem dirtyIsIndexed_of_keepsIndex [DecidableEq P] {cfg : Config} {boardId : String} {s : State P}
    (hs : (system P cfg boardId).ReachableUnder (KeepsIndex cfg) s) : DirtyIsIndexed s := by
  have hinv : Indexed s := by
    refine hs.invariant ?_ ?_
    · intro s h
      refine ⟨?_, ?_, ?_⟩
      · rw [h.keys]
        exact fun hsome => absurd ⟨rfl, rfl⟩ hsome
      · intro q howes
        rw [h.run q] at howes
        cases howes
      · intro q
        rw [h.run q]
        exact List.Pairwise.nil
    · intro s l s' h hkeeps hstep
      exact indexed_step h hkeeps hstep
  exact fun _ => hinv.ids

end index

/-! ### Two runs -/

/-- A board, and its row. -/
def indexedDb : Postgres where
  boards := AList.singleton "aaaaaaaa-aaaa-4aaa-8aaa-aaaaaaaaaaaa" ()
  elements := ∅

/-- A note is stored. -/
theorem dirtyIsIndexed_of_keepsIndex_run :
    ∃ s : State Bool, ¬ NoIds s.keys ∧ DirtyIsIndexed s := by
  obtain ⟨s, hs, hids⟩ : ∃ s, (system Bool {} "aaaaaaaa-aaaa-4aaa-8aaa-aaaaaaaaaaaa").execUnder
      (KeepsIndex {}) (start indexedDb) (applyNote true "x") = some s ∧
        s.keys.dirtyElementIds.keys = ["x"] := ⟨_, rfl, rfl⟩
  refine ⟨s, ?_, dirtyIsIndexed_of_keepsIndex (.execUnder (.init (start_init _)) hs)⟩
  rintro ⟨hnone, _⟩
  rw [AList.keys, hnone] at hids
  cases hids

/-- A flush runs while a pipeline is between its INCR of the epoch and its SADD:
    the flush reads the new epoch and no dirty id, and its clear takes the board out
    of the index; then the id is marked. -/
theorem late_mark_leaves_index :
    ∃ s : State Bool, (system Bool {} "aaaaaaaa-aaaa-4aaa-8aaa-aaaaaaaaaaaa").ReachableUnder
      OnePersist s ∧ ¬ DirtyIsIndexed s := by
  obtain ⟨s, hs, hruns, hids, hindex⟩ : ∃ s,
      (system Bool {} "aaaaaaaa-aaaa-4aaa-8aaa-aaaaaaaaaaaa").execUnder OnePersist (start indexedDb)
        ((applyNote true "x").take 16 ++ persist false ++ (applyNote true "x").drop 16) = some s ∧
        s.run = Function.update (Function.update s.run false .idle) true .idle ∧
        s.keys.dirtyElementIds.keys = ["x"] ∧ s.keys.dirtyByAge = none :=
    ⟨_, rfl, by funext p; cases p <;> rfl, rfl, rfl⟩
  refine ⟨s, .execUnder (.init (start_init _)) hs, ?_⟩
  intro hindexed
  refine hindexed ?_ ?_ hindex
  · intro p
    rw [hruns]
    cases p <;> rfl
  · rintro ⟨hnone, _⟩
    rw [AList.keys, hnone] at hids
    cases hids

end Notebortt.BoardCommands
