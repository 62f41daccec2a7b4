import Mathlib.Data.Nat.Init
import Mathlib.Tactic.ByContra
import Notebortt.Lib.Transition

/-! # Infinite runs

    A run goes on forever. At each moment it takes a step, or none: the rest of
    the process does something that the system does not see. What has to happen
    sooner or later is shown with a measure that no step increases, and that a
    step which has to be taken decreases. -/

namespace Transition

/-- An infinite run; a label `none` is a moment without a step. -/
structure Run {σ : Type u} {ι : Type v} (M : System σ ι) where
  state : Nat → σ
  label : Nat → Option ι
  init : M.init (state 0)
  step : ∀ n, (label n).elim (some (state n)) (M.step (state n)) = some (state (n + 1))

variable {σ : Type u} {ι : Type v} {M : System σ ι}

namespace System

variable (M)

def Enabled (s : σ) (l : ι) : Prop := (M.step s l).isSome

/-- Once enabled, the label stays so until it is taken. -/
def Persists (l : ι) : Prop :=
  ∀ s l' s', M.step s l' = some s' → l' ≠ l → M.Enabled s l → M.Enabled s' l

end System

namespace Run

variable (run : Run M)

/-- A label that stays enabled is taken. -/
def WeakFair (l : ι) : Prop :=
  ∀ n, (∀ m, n ≤ m → M.Enabled (run.state m) l) → ∃ m, n ≤ m ∧ run.label m = some l

variable {run}

theorem step_of_label {n : Nat} {l : ι} (h : run.label n = some l) :
    M.step (run.state n) l = some (run.state (n + 1)) := by
  have := run.step n
  rwa [h] at this

theorem state_of_none {n : Nat} (h : run.label n = none) : run.state (n + 1) = run.state n := by
  have := run.step n
  rw [h] at this
  exact (Option.some.inj this).symm

theorem reachable (n : Nat) : M.Reachable (run.state n) := by
  induction n with
  | zero => exact .init run.init
  | succ n ih =>
    cases hlabel : run.label n with
    | none =>
      rw [state_of_none hlabel]
      exact ih
    | some l => exact .step l ih (step_of_label hlabel)

/-! ### What has to happen -/

/-- What is enabled and stays so until it is taken is taken. -/
theorem WeakFair.taken {l : ι} (hfair : run.WeakFair l) (hpersists : M.Persists l) {n : Nat}
    (henabled : M.Enabled (run.state n) l) : ∃ m, n ≤ m ∧ run.label m = some l := by
  by_contra hnever
  refine hnever (hfair n ?_)
  intro m hle
  induction m, hle using Nat.le_induction with
  | base => exact henabled
  | succ m hle ih =>
    cases hlabel : run.label m with
    | none =>
      rw [state_of_none hlabel]
      exact ih
    | some l' =>
      refine hpersists _ l' _ (step_of_label hlabel) ?_ ih
      rintro rfl
      exact hnever ⟨m, hle, hlabel⟩

/-- What no step takes away stays along the run. -/
theorem stays {I P : σ → Prop} (hI : ∀ n, I (run.state n))
    (hstep : ∀ s l s', I s → P s → M.step s l = some s' → P s') {n m : Nat} (hle : n ≤ m)
    (h : P (run.state n)) : P (run.state m) := by
  induction m, hle using Nat.le_induction with
  | base => exact h
  | succ m hle ih =>
    cases hlabel : run.label m with
    | none =>
      rw [state_of_none hlabel]
      exact ih
    | some l => exact hstep _ l _ (hI m) ih (step_of_label hlabel)

/-- What holds and later does not is ended by a step. -/
theorem exists_step_ending {P : σ → Prop} {n m : Nat} (hle : n ≤ m) (h : P (run.state n))
    (hend : ¬ P (run.state m)) :
    ∃ k l, n ≤ k ∧ run.label k = some l ∧ P (run.state k) ∧ ¬ P (run.state (k + 1)) := by
  induction m, hle using Nat.le_induction with
  | base => exact absurd h hend
  | succ m hle ih =>
    by_cases hm : P (run.state m)
    · cases hlabel : run.label m with
      | none =>
        rw [state_of_none hlabel] at hend
        exact absurd hm hend
      | some l => exact ⟨m, l, hle, hlabel, hm, hend⟩
    · exact ih hm

/-- A measure that keeps coming down until the goal is reached ends there. -/
theorem eventually_of_measure (goal : σ → Prop) (measure : σ → Nat) {start : Nat}
    (hdown : ∀ n, start ≤ n → ¬ goal (run.state n) →
      ∃ m, n ≤ m ∧ measure (run.state m) < measure (run.state n)) :
    ∃ m, start ≤ m ∧ goal (run.state m) := by
  suffices h : ∀ bound n, start ≤ n → measure (run.state n) ≤ bound →
      ∃ m, start ≤ m ∧ goal (run.state m) from h _ start (Nat.le_refl _) (Nat.le_refl _)
  intro bound
  induction bound with
  | zero =>
    intro n hn hmeasure
    by_contra hnever
    obtain ⟨m, _, hlt⟩ := hdown n hn fun hgoal => hnever ⟨n, hn, hgoal⟩
    omega
  | succ bound ih =>
    intro n hn hmeasure
    by_cases hgoal : goal (run.state n)
    · exact ⟨n, hn, hgoal⟩
    · obtain ⟨m, hm, hlt⟩ := hdown n hn hgoal
      exact ih m (Nat.le_trans hn hm) (by omega)

end Run

/-! ### Runs that end -/

/-- The finite run, and no step after it. -/
def Run.ofExec {s s' : σ} {ls : List ι} (hinit : M.init s) (hrun : M.exec s ls = some s') :
    Run M where
  state n := (M.exec s (ls.take n)).getD s
  label n := ls[n]?
  init := by simpa [System.exec] using hinit
  step n := by
    have hprefix : ∀ k, ∃ t, M.exec s (ls.take k) = some t := by
      intro k
      rw [← List.take_append_drop k ls, System.exec_append] at hrun
      cases hk : M.exec s (ls.take k) with
      | none =>
        rw [hk] at hrun
        cases hrun
      | some t => exact ⟨t, rfl⟩
    obtain ⟨t, ht⟩ := hprefix n
    obtain ⟨t', ht'⟩ := hprefix (n + 1)
    rw [ht, ht']
    rw [List.take_add_one, System.exec_append, ht] at ht'
    cases hl : ls[n]? with
    | none =>
      rw [hl] at ht'
      exact ht'
    | some l =>
      rw [hl] at ht'
      simp only [Option.toList, Option.bind_some, System.exec] at ht'
      cases hstep : M.step t l with
      | none =>
        rw [hstep] at ht'
        cases ht'
      | some u =>
        rw [hstep] at ht'
        exact hstep.trans ht'

theorem Run.ofExec_end {s s' : σ} {ls : List ι} (hinit : M.init s) (hrun : M.exec s ls = some s')
    {n : Nat} (h : ls.length ≤ n) : (Run.ofExec hinit hrun).state n = s' := by
  show (M.exec s (ls.take n)).getD s = s'
  rw [List.take_of_length_le h, hrun]
  rfl

/-- What the run leaves disabled it need not take. -/
theorem Run.ofExec_weakFair {s s' : σ} {ls : List ι} {l : ι} (hinit : M.init s)
    (hrun : M.exec s ls = some s') (hend : ¬ M.Enabled s' l) :
    (Run.ofExec hinit hrun).WeakFair l := by
  intro n hstays
  have henabled := hstays (max n ls.length) (Nat.le_max_left _ _)
  rw [Run.ofExec_end hinit hrun (Nat.le_max_right _ _)] at henabled
  exact absurd henabled hend

end Transition
