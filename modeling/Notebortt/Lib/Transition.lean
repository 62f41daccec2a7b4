/-! # Labelled transition systems with a partial step function

    `step s l` is `some s'` when the label `l` is enabled in `s`, and `none`
    otherwise. One definition then serves a concrete run (`exec` evaluates it)
    and an invariant proof (`Reachable`, `ReachableUnder`).

    `ReachableUnder C` collects the states reached by runs all of whose steps
    meet the step condition `C`: it is how a property is stated that a system
    has only while its environment behaves. -/

namespace Transition

/-- A transition system: initial states and a guarded step function. -/
structure System (σ : Type u) (ι : Type v) where
  init : σ → Prop
  step : σ → ι → Option σ

namespace System

variable {σ : Type u} {ι : Type v} (M : System σ ι)

/-- Run the labels from left to right; `none` when one of them is disabled. -/
def exec : σ → List ι → Option σ
  | s, [] => some s
  | s, l :: ls =>
    match M.step s l with
    | some s' => exec s' ls
    | none => none

/-- Run the labels as long as each of them meets the step condition. -/
def execUnder (C : σ → ι → Prop) [∀ s l, Decidable (C s l)] : σ → List ι → Option σ
  | s, [] => some s
  | s, l :: ls =>
    if C s l then
      match M.step s l with
      | some s' => execUnder C s' ls
      | none => none
    else none

/-- The states reached by some run. -/
inductive Reachable : σ → Prop where
  | init {s : σ} : M.init s → Reachable s
  | step {s s' : σ} (l : ι) : Reachable s → M.step s l = some s' → Reachable s'

/-- The states reached by a run all of whose steps meet `C`. -/
inductive ReachableUnder (C : σ → ι → Prop) : σ → Prop where
  | init {s : σ} : M.init s → ReachableUnder C s
  | step {s s' : σ} (l : ι) :
      ReachableUnder C s → C s l → M.step s l = some s' → ReachableUnder C s'

variable {M}

/-- What an evaluated run reaches is reachable. -/
theorem Reachable.exec {s s' : σ} (hs : M.Reachable s) :
    ∀ {ls : List ι}, M.exec s ls = some s' → M.Reachable s' := by
  intro ls
  induction ls generalizing s with
  | nil =>
    intro h
    simp only [System.exec, Option.some.injEq] at h
    exact h ▸ hs
  | cons l ls ih =>
    intro h
    simp only [System.exec] at h
    split at h
    · next s₁ hstep => exact ih (.step l hs hstep) h
    · cases h

/-- What an evaluated run under a condition reaches is reachable under it. -/
theorem ReachableUnder.execUnder {C : σ → ι → Prop} [∀ s l, Decidable (C s l)] {s s' : σ}
    (hs : M.ReachableUnder C s) :
    ∀ {ls : List ι}, M.execUnder C s ls = some s' → M.ReachableUnder C s' := by
  intro ls
  induction ls generalizing s with
  | nil =>
    intro h
    simp only [System.execUnder, Option.some.injEq] at h
    exact h ▸ hs
  | cons l ls ih =>
    intro h
    simp only [System.execUnder] at h
    split at h
    · next hC =>
      split at h
      · next s₁ hstep => exact ih (.step l hs hC hstep) h
      · cases h
    · cases h

theorem exec_cons_eq_some {s s' : σ} {l : ι} {ls : List ι} :
    M.exec s (l :: ls) = some s' ↔ ∃ s₁, M.step s l = some s₁ ∧ M.exec s₁ ls = some s' := by
  rw [System.exec]
  cases M.step s l with
  | none => simp
  | some s₁ => simp

theorem exec_append {s : σ} {before after : List ι} :
    M.exec s (before ++ after) = (M.exec s before).bind fun s' => M.exec s' after := by
  induction before generalizing s with
  | nil => rfl
  | cons l before ih =>
    simp only [List.cons_append, System.exec]
    split
    · exact ih
    · rfl

/-- The invariant rule for a state together with the labels that have led to it. -/
theorem exec_history {s₀ : σ} {I : List ι → σ → Prop} (hinit : I [] s₀)
    (hstep : ∀ ls s l s', M.exec s₀ ls = some s → I ls s → M.step s l = some s' →
      I (ls ++ [l]) s') {ls : List ι} {s : σ} (h : M.exec s₀ ls = some s) : I ls s := by
  -- on the labels still to come, with those that have been
  have hrun : ∀ {after before : List ι} {s : σ}, M.exec s₀ before = some s → I before s →
      ∀ {s'}, M.exec s after = some s' → I (before ++ after) s' := by
    intro after
    induction after with
    | nil =>
      intro before s _ hs s' h
      rw [List.append_nil]
      exact Option.some.inj h ▸ hs
    | cons l after ih =>
      intro before s hbefore hs s' h
      obtain ⟨s₁, hl, hrest⟩ := exec_cons_eq_some.mp h
      have hbefore₁ : M.exec s₀ (before ++ [l]) = some s₁ := by
        rw [exec_append, hbefore]
        exact exec_cons_eq_some.mpr ⟨s₁, hl, rfl⟩
      have hall := ih hbefore₁ (hstep before s l s₁ hbefore hs hl) hrest
      rwa [List.append_assoc] at hall
  exact @hrun ls [] s₀ rfl hinit s h

/-- A run of labels that meet the condition in every state is one under it. -/
theorem ReachableUnder.exec {C : σ → ι → Prop} {s s' : σ} (hs : M.ReachableUnder C s) :
    ∀ {ls : List ι}, (∀ s, ∀ l ∈ ls, C s l) → M.exec s ls = some s' →
      M.ReachableUnder C s' := by
  intro ls
  induction ls generalizing s with
  | nil =>
    intro _ h
    simp only [System.exec, Option.some.injEq] at h
    exact h ▸ hs
  | cons l ls ih =>
    intro hC h
    obtain ⟨s₁, hstep, hrest⟩ := exec_cons_eq_some.mp h
    have hl : C s l := hC s l List.mem_cons_self
    exact ih (.step l hs hl hstep) (fun s' l' hl' => hC s' l' (List.mem_cons_of_mem _ hl')) hrest

/-- What every step that meets `C` keeps, an evaluated run under `C` keeps. -/
theorem execUnder_invariant {C : σ → ι → Prop} [∀ s l, Decidable (C s l)] {I : σ → Prop}
    (hstep : ∀ s l s', I s → C s l → M.step s l = some s' → I s') :
    ∀ {ls : List ι} {s s' : σ}, I s → M.execUnder C s ls = some s' → I s' := by
  intro ls
  induction ls with
  | nil =>
    intro s s' hs h
    simp only [System.execUnder, Option.some.injEq] at h
    exact h ▸ hs
  | cons l ls ih =>
    intro s s' hs h
    simp only [System.execUnder] at h
    split at h
    · next hC =>
      split at h
      · next s₁ hl => exact ih (hstep s l s₁ hs hC hl) h
      · cases h
    · cases h

/-- A property that a step reaches exactly when it had it and meets `C` holds at the end of a run
    exactly when it held at its start and all of the run's steps meet `C`. -/
theorem exec_iff_execUnder {C : σ → ι → Prop} [∀ s l, Decidable (C s l)] {P : σ → Prop}
    (hstep : ∀ s l s', M.step s l = some s' → (P s' ↔ P s ∧ C s l)) :
    ∀ {ls : List ι} {s s' : σ}, M.exec s ls = some s' →
      (P s' ↔ P s ∧ M.execUnder C s ls = some s') := by
  intro ls
  induction ls with
  | nil =>
    intro s s' h
    simp only [System.exec, Option.some.injEq] at h
    simp [System.execUnder, h]
  | cons l ls ih =>
    intro s s' h
    simp only [System.exec] at h
    split at h
    · next s₁ hl =>
      rw [ih h, hstep s l s₁ hl, and_assoc]
      simp only [System.execUnder, hl]
      by_cases hC : C s l
      · simp [hC]
      · simp [hC]
    · cases h

variable (M) in
/-- The property holds in every state the run goes through. -/
def Throughout (P : σ → Prop) (s : σ) (ls : List ι) : Prop :=
  ∀ before s', before <+: ls → M.exec s before = some s' → P s'

theorem throughout_nil {P : σ → Prop} {s : σ} : M.Throughout P s [] ↔ P s := by
  constructor
  · exact fun h => h [] s (List.prefix_refl []) rfl
  · intro h before s' hbefore hrun
    rw [List.prefix_nil.mp hbefore] at hrun
    exact Option.some.inj hrun ▸ h

theorem throughout_cons {P : σ → Prop} {s s₁ : σ} {l : ι} {ls : List ι}
    (hl : M.step s l = some s₁) :
    M.Throughout P s (l :: ls) ↔ P s ∧ M.Throughout P s₁ ls := by
  constructor
  · intro h
    refine ⟨h [] s (List.nil_prefix) rfl, ?_⟩
    intro before s' hbefore hrun
    refine h (l :: before) s' (List.cons_prefix_cons.mpr ⟨rfl, hbefore⟩) ?_
    simp only [System.exec, hl]
    exact hrun
  · rintro ⟨hs, h⟩ before s' hbefore hrun
    rcases List.prefix_cons_iff.mp hbefore with rfl | ⟨rest, rfl, hrest⟩
    · exact Option.some.inj hrun ▸ hs
    · simp only [System.exec, hl] at hrun
      exact h rest s' hrest hrun

/-- A property that a step keeps exactly when it meets `C`, in the states that have the invariant
    `J`, holds throughout a run exactly when all of the run's steps meet `C`. -/
theorem throughout_iff_execUnder {C : σ → ι → Prop} [∀ s l, Decidable (C s l)] {P J : σ → Prop}
    (hJ : ∀ s l s', J s → M.step s l = some s' → J s')
    (hstep : ∀ s l s', J s → P s → M.step s l = some s' → (P s' ↔ C s l)) :
    ∀ {ls : List ι} {s s' : σ}, J s → P s → M.exec s ls = some s' →
      (M.Throughout P s ls ↔ M.execUnder C s ls = some s') := by
  intro ls
  induction ls with
  | nil =>
    intro s s' _ hP h
    exact iff_of_true (throughout_nil.mpr hP) h
  | cons l ls ih =>
    intro s s' hs hP h
    simp only [System.exec] at h
    split at h
    · next s₁ hl =>
      have hiff := hstep s l s₁ hs hP hl
      rw [throughout_cons hl, and_iff_right hP]
      simp only [System.execUnder, hl]
      by_cases hC : C s l
      · rw [if_pos hC]
        exact ih (hJ s l s₁ hs hl) (hiff.mpr hC) h
      · rw [if_neg hC]
        refine iff_of_false (fun hall => hC (hiff.mp ?_)) nofun
        exact hall [] s₁ List.nil_prefix rfl
    · cases h

/-- The invariant rule. -/
theorem Reachable.invariant {I : σ → Prop} (hinit : ∀ s, M.init s → I s)
    (hstep : ∀ s l s', I s → M.step s l = some s' → I s') {s : σ} (h : M.Reachable s) : I s := by
  induction h with
  | init h0 => exact hinit _ h0
  | step l _ hs ih => exact hstep _ l _ ih hs

/-- The invariant rule under a step condition: what holds initially and is kept by every step that
    meets `C` holds in every state reached by such steps. -/
theorem ReachableUnder.invariant {C : σ → ι → Prop} {I : σ → Prop}
    (hinit : ∀ s, M.init s → I s)
    (hstep : ∀ s l s', I s → C s l → M.step s l = some s' → I s')
    {s : σ} (h : M.ReachableUnder C s) : I s := by
  induction h with
  | init h0 => exact hinit _ h0
  | step l _ hC hs ih => exact hstep _ l _ ih hC hs

/-- `N` says through `abs` what `M` is for: a step of `M` is one of `N`, or one that `N` does not
    see. -/
structure Simulation {τ : Type u'} {κ : Type v'} (M : System σ ι) (N : System τ κ) (abs : σ → τ)
    (observed : ι → Option κ) : Prop where
  init : ∀ s, M.init s → N.init (abs s)
  step : ∀ s l s', M.Reachable s → M.step s l = some s' →
    (observed l).elim (some (abs s)) (N.step (abs s)) = some (abs s')

section simulation
variable {τ : Type u'} {κ : Type v'} {N : System τ κ} {abs : σ → τ} {observed : ι → Option κ}

/-- The runs of `M` are runs of `N`. -/
theorem Simulation.exec (h : Simulation M N abs observed) :
    ∀ {ls : List ι} {s s' : σ}, M.Reachable s → M.exec s ls = some s' →
      N.exec (abs s) (ls.filterMap observed) = some (abs s') := by
  intro ls
  induction ls with
  | nil =>
    intro s s' _ hrun
    exact congrArg _ (congrArg abs (Option.some.inj hrun))
  | cons l ls ih =>
    intro s s' hs hrun
    simp only [System.exec] at hrun
    split at hrun
    · next s₁ hl =>
      have hsimulated := h.step s l s₁ hs hl
      have hrest := ih (.step l hs hl) hrun
      cases hlabel : observed l with
      | none =>
        have hsame : abs s = abs s₁ := by simpa [hlabel] using hsimulated
        rw [List.filterMap_cons_none hlabel, hsame]
        exact hrest
      | some k =>
        have hk : N.step (abs s) k = some (abs s₁) := by simpa [hlabel] using hsimulated
        rw [List.filterMap_cons_some hlabel, System.exec, hk]
        exact hrest
    · cases hrun

/-- What holds of all that `N` reaches holds of what `M` reaches. -/
theorem Simulation.reachable (h : Simulation M N abs observed) {s : σ} (hs : M.Reachable s) :
    N.Reachable (abs s) := by
  induction hs with
  | init hinit => exact .init (h.init _ hinit)
  | @step s s' l hs hl ih =>
    have hsimulated := h.step s l s' hs hl
    cases hlabel : observed l with
    | none =>
      have hsame : abs s = abs s' := by simpa [hlabel] using hsimulated
      exact hsame ▸ ih
    | some k => exact .step k ih (by simpa [hlabel] using hsimulated)

end simulation

end System

end Transition
