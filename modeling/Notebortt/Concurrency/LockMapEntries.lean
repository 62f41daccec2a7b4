import Notebortt.Concurrency.PromiseLockRuns

/-! # The entries of the lock maps

    The `finally` block of a lock deletes the entry of its board when it finds
    `current` there. What is stored is `previous.then(() => current)`, another
    promise, so that no entry is ever deleted. -/

open Transition
open Promises (Heap Job Outcome)

namespace Notebortt.PromiseLocks

variable {Call : Type}

/-- No task of the board is running or waiting. -/
def Quiet (target : Call → Target) (s : State Call) (t : Target) : Prop :=
  ∀ c, target c = t → ¬ Busy s c

/-- The maps have no entry for a board of which no task is running or waiting. -/
def Drained (target : Call → Target) (s : State Call) : Prop :=
  ∀ t, Quiet target s t → s.locks t = none

/-- A task that ends leaves another one of its board waiting. -/
def LeavesAnother (target : Call → Target) (s : State Call) : Label Call → Prop
  | .finish c _ => ∃ c' ∈ s.called, target c' = target c ∧ s.phase c' = .waiting
  | _ => True

instance (target : Call → Target) (s : State Call) (l : Label Call) :
    Decidable (LeavesAnother target s l) :=
  match l with
  | .finish c _ =>
    inferInstanceAs (Decidable (∃ c' ∈ s.called, target c' = target c ∧ s.phase c' = .waiting))
  | .call _ => inferInstanceAs (Decidable True)
  | .job _ => inferInstanceAs (Decidable True)

/-! ### One step -/

section steps
variable {target : Call → Target} {s s' : State Call} {c : Call} {t : Target}

/-- A board has an entry from its first call on. -/
theorem Inv.locks_eq_none (h : Inv target s) :
    s.locks t = none ↔ ∀ c ∈ s.called, target c ≠ t := by
  rw [h.line.locks, Option.map_eq_none_iff, List.getLast?_eq_none_iff, State.callsOn,
    List.filter_eq_nil_iff]
  simp

/-- The maps are drained when every board that was ever called has a task running or waiting. -/
theorem Inv.drained_iff (h : Inv target s) :
    Drained target s ↔ ∀ c ∈ s.called, ∃ c', target c' = target c ∧ Busy s c' := by
  have hquiet : ∀ t, (¬ Quiet target s t ↔ ∃ c', target c' = t ∧ Busy s c') := by
    intro t
    simp [Quiet]
  constructor
  · intro hdrained c hc
    refine (hquiet _).mp fun hq => ?_
    exact h.locks_eq_none.mp (hdrained _ hq) c hc rfl
  · intro hbusy t hq
    refine h.locks_eq_none.mpr fun c hc ht => ?_
    exact (hquiet t).mpr (ht ▸ hbusy c hc) hq

/-- A step that leaves its call in the lock leaves the maps drained. -/
theorem Inv.drained_of_moves (h : Inv target s) (h' : Inv target s') (hm : Moves s s' c)
    (hbusy : Busy s c → Busy s' c) (hdrained : Drained target s) : Drained target s' := by
  rw [h.drained_iff] at hdrained
  rw [h'.drained_iff, hm.called]
  intro c₀ hc₀
  obtain ⟨c', ht, hc'⟩ := hdrained c₀ hc₀
  refine ⟨c', ht, ?_⟩
  by_cases heq : c' = c
  · subst heq
    exact hbusy hc'
  · exact (hm.busy_iff heq).mpr hc'

variable [DecidableEq Call]

theorem drained_enter (h : Inv target s) (hidle : s.phase c = .idle) (hdrained : Drained target s) :
    Drained target (s.enter (target c) c) := by
  rw [h.drained_iff] at hdrained
  rw [(inv_call h hidle).drained_iff]
  intro c₀ hc₀
  rcases List.mem_append.mp hc₀ with hold | hnew
  · obtain ⟨c', ht, hbusy⟩ := hdrained c₀ hold
    refine ⟨c', ht, ?_⟩
    have hne : c' ≠ c := by
      rintro rfl
      exact (h.called c').mp (h.called_of_busy hbusy) hidle
    unfold Busy
    rw [enter_phase_of_ne hne]
    exact hbusy
  · rw [List.mem_singleton.mp hnew]
    exact ⟨c, rfl, .inl enter_phase_self⟩

/-- The task that ends was the only one of its board that was running. -/
theorem drained_finish_iff (h : Inv target s) (hc : c ∈ s.called) (hrunning : s.phase c = .running)
    (result : Result) (hdrained : Drained target s) :
    Drained target (s.afterFinish c result) ↔
      ∃ c' ∈ s.called, target c' = target c ∧ s.phase c' = .waiting := by
  have hm : Moves s (s.afterFinish c result) c := moves_finish
  have hleft : ¬ Busy (s.afterFinish c result) c := by
    have hself : (s.afterFinish c result).phase c = .done result := Function.update_self ..
    unfold Busy
    rw [hself]
    exact nofun
  rw [(inv_finish h hc hrunning result).drained_iff]
  constructor
  · intro hbusy
    obtain ⟨c', ht, hc'⟩ := hbusy c hc
    have hne : c' ≠ c := by
      rintro rfl
      exact hleft hc'
    have hbusy' := (hm.busy_iff hne).mp hc'
    refine ⟨c', h.called_of_busy hbusy', ht, ?_⟩
    rcases hbusy' with hwaiting | hphase
    · exact hwaiting
    · exact absurd (h.exclusive c' c hphase hrunning ht) hne
  · rintro ⟨c', hcalled, ht, hwaiting⟩ c₀ hc₀
    obtain ⟨c'', ht'', hbusy⟩ := h.drained_iff.mp hdrained c₀ hc₀
    by_cases heq : c'' = c
    · -- The board of the task that ends: the one that waits is left.
      have hne : c' ≠ c := by
        rintro rfl
        rw [hrunning] at hwaiting
        cases hwaiting
      exact ⟨c', by rw [ht, ← heq, ht''], (hm.busy_iff hne).mpr (.inl hwaiting)⟩
    · exact ⟨c'', ht'', (hm.busy_iff heq).mpr hbusy⟩

theorem drained_step_iff (h : Inv target s) (hdrained : Drained target s) {l : Label Call}
    (hstep : step target s l = some s') : Drained target s' ↔ LeavesAnother target s l := by
  have h' : Inv target s' := step_inv h hstep
  cases step_effect h hstep with
  | call idle => exact iff_of_true (drained_enter h idle hdrained) trivial
  | resume called waiting previous =>
    refine iff_of_true (h.drained_of_moves h' moves_resume (fun _ => ?_) hdrained) trivial
    exact .inr (Function.update_self ..)
  | callback called mem previous =>
    exact iff_of_true (h.drained_of_moves h' (moves_callback h) id hdrained) trivial
  | adopt called mem current =>
    exact iff_of_true (h.drained_of_moves h' moves_adopt id hdrained) trivial
  | finish called running => exact drained_finish_iff h called running _ hdrained

end steps

/-! ### Runs -/

section runs
variable [DecidableEq Call] {s s' : State Call}

/-- Throughout a run the maps have entries only for boards of which a task is running or waiting
    exactly when every task of the run that ends leaves another one of its board waiting. -/
theorem throughout_drained_iff (target : Call → Target) {ls : List (Label Call)} (hinit : Init s)
    (hrun : (system target).exec s ls = some s') :
    (system target).Throughout (Drained target) s ls ↔
      (system target).execUnder (LeavesAnother target) s ls = some s' := by
  refine System.throughout_iff_execUnder (M := system target) (J := Inv target) ?_ ?_
    (init_inv hinit) (fun t _ => hinit.locks t) hrun
  · exact fun _ _ _ h hstep => step_inv h hstep
  · exact fun _ _ _ h hdrained hstep => drained_step_iff h hdrained hstep

end runs

/-- The first of two tasks ends while the second one waits. -/
theorem throughout_drained_iff_handsOver :
    (system oneBoard).Throughout (Drained oneBoard) noCalls (firstThrows.take 7) := by
  obtain ⟨s, hs, hunder⟩ : ∃ s,
      (system oneBoard).exec noCalls (firstThrows.take 7) = some s ∧
      (system oneBoard).execUnder (LeavesAnother oneBoard) noCalls (firstThrows.take 7) = some s :=
    ⟨_, rfl, rfl⟩
  exact (throughout_drained_iff oneBoard init_noCalls hs).mpr hunder

/-- A call whose task returns before another one is made. -/
def oneTask : List (Label Caller) :=
  [.call .first, .job (.resume (.resolved .first) .first), .finish .first .returns,
    .job (.callback (.resolved .first) (.current .first) (.chained .first)),
    .job (.adopt (.current .first) (.chained .first))]

/-- The task has ended, nothing waits for any promise, and the entry of its board is there. -/
theorem entry_left_behind : ∃ s, (system oneBoard).exec noCalls oneTask = some s ∧
    s.heap.jobs = [] ∧ Quiet oneBoard s ⟨.localLocks, "board"⟩ ∧
    s.locks ⟨.localLocks, "board"⟩ = some (.chained .first) ∧ ¬ Drained oneBoard s := by
  have hquiet : ∀ s : State Caller, s.phase .first = .done .returns → s.phase .second = .idle →
      Quiet oneBoard s ⟨.localLocks, "board"⟩ := by
    intro s hfirst hsecond c _
    unfold Busy
    match c with
    | .first => simp [hfirst]
    | .second => simp [hsecond]
  refine ⟨_, rfl, rfl, hquiet _ rfl rfl, rfl, fun hdrained => ?_⟩
  have hnone := hdrained _ (hquiet _ rfl rfl)
  cases hnone

end Notebortt.PromiseLocks
