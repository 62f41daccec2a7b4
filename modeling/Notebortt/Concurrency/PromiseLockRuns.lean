import Mathlib.Algebra.Order.BigOperators.Group.List
import Mathlib.Algebra.Order.Ring.Nat
import Notebortt.Concurrency.PromiseQueues
import Notebortt.Lib.Fairness

/-! # What the promise-chain locks guarantee

    The tasks of a board run one at a time, in the order of the calls and each
    exactly once, whatever the other tasks return or throw. -/

open Transition
open Promises (Heap Job Outcome)

namespace Notebortt.PromiseLocks

variable {Call : Type} [DecidableEq Call]

/-! ### One task at a time, in order -/

/-- At most one task of a board is running. -/
def Exclusive (target : Call → Target) (s : State Call) : Prop :=
  ∀ c c', s.phase c = .running → s.phase c' = .running → target c = target c' → c = c'

/-- The tasks of a board have been called in the order of the calls, and each at most once. -/
structure InOrder (target : Call → Target) (s : State Call) : Prop where
  order : ∀ t, s.startedOn target t <+: s.callsOn target t
  once : s.started.Nodup

section safety

omit [DecidableEq Call]
variable {target : Call → Target} {s : State Call} {c : Call}

/-- Of two tasks that are running both are at the head of the queue. -/
theorem Inv.exclusive (h : Inv target s) : Exclusive target s := by
  intro c c' hc hc' htarget
  have hhead := h.head_of_running hc
  rw [htarget, h.head_of_running hc'] at hhead
  exact (Option.some.inj hhead).symm

theorem Inv.started_iff (h : Inv target s) :
    c ∈ s.started ↔ c ∈ s.called ∧ s.phase c ≠ .waiting := by
  have hstarts := h.starts (target c)
  have hnodup : (s.callsOn target (target c)).Nodup := h.line.nodup.filter _
  have hmem : c ∈ s.startedOn target (target c) ↔ c ∈ s.started := by
    simp [State.startedOn]
  have hcall : c ∈ s.callsOn target (target c) ↔ c ∈ s.called := by
    simp [mem_callsOn]
  rw [← hmem, ← hcall]
  constructor
  · intro hc
    refine ⟨by rw [hstarts]; exact List.mem_append_left _ hc, fun hwaiting => ?_⟩
    rw [hstarts] at hnodup
    refine (List.nodup_append.mp hnodup).2.2 c hc c ?_ rfl
    refine List.mem_filter.mpr ⟨?_, decide_eq_true hwaiting⟩
    rw [hstarts]
    exact List.mem_append_left _ hc
  · rintro ⟨hc, hphase⟩
    rw [hstarts] at hc
    rcases List.mem_append.mp hc with hc | hc
    · exact hc
    · exact absurd (of_decide_eq_true (List.mem_filter.mp hc).2) hphase

end safety

theorem Inv.inOrder {target : Call → Target} {s : State Call} (h : Inv target s) :
    InOrder target s where
  order t := ⟨_, (h.starts t).symm⟩
  once := by
    refine List.nodup_iff_count_le_one.mpr fun c => ?_
    have hcount : s.started.count c = (s.startedOn target (target c)).count c :=
      (List.count_filter (by simp)).symm
    have hnodup : (s.callsOn target (target c)).Nodup := h.line.nodup.filter _
    rw [h.starts (target c)] at hnodup
    rw [hcount]
    exact List.nodup_iff_count_le_one.mp (List.nodup_append.mp hnodup).1 c

/-! ### Every step brings a call forward -/

/-- What a call still has to do before its task has ended. -/
def awaitRank (s : State Call) (c : Call) : Nat :=
  match s.phase c with
  | .waiting => 2
  | .running => 1
  | _ => 0

/-- What the promise in the map still has to do before it is fulfilled. -/
def chainRank (s : State Call) (c : Call) : Nat :=
  if s.callbackJob c ∈ s.heap.jobs then 2 else if adoptJob c ∈ s.heap.jobs then 1 else 0

def rank (s : State Call) (c : Call) : Nat := awaitRank s c + chainRank s c

section rank
variable {target : Call → Target} {s s' : State Call} {c : Call}

theorem chainRank_congr (hprevious : s'.previous c = s.previous c)
    (hjobs : ∀ j, OwnJob s c j → (j ∈ s'.heap.jobs ↔ j ∈ s.heap.jobs)) :
    chainRank s' c = chainRank s c := by
  have hjob : s'.callbackJob c = s.callbackJob c := by
    rw [State.callbackJob, State.callbackJob, hprevious]
  unfold chainRank
  simp only [hjob, hjobs _ (.inr (.inl rfl)), hjobs _ (.inr (.inr rfl))]

theorem rank_of_moves {c' : Call} (hm : Moves s s' c) (hne : c' ≠ c) : rank s' c' = rank s c' := by
  unfold rank awaitRank
  rw [hm.phase c' hne,
    chainRank_congr (by rw [hm.previous]) fun j hj => hm.own_mem_iff hne hj]

theorem rank_enter {c' : Call} (h : Inv target s) (hc : c ∉ s.called) (hc' : c' ∈ s.called) :
    rank (s.enter (target c) c) c' = rank s c' := by
  have hne := ne_of_fresh hc hc'
  unfold rank awaitRank
  rw [enter_phase_of_ne hne, chainRank_congr (enter_previous_of_ne hne)]
  exact fun j hj => own_mem_enter h hc hne hj

/-- A call of its own, or the progress of one that has been made. -/
inductive Progress (target : Call → Target) (s s' : State Call) : Label Call → Prop where
  | call {c : Call} (fresh : c ∉ s.called) (after : s' = s.enter (target c) c) :
    Progress target s s' (.call c)
  | moves {l : Label Call} {c : Call} (called : c ∈ s.called) (moves : Moves s s' c)
      (less : rank s' c < rank s c) (job : ∀ j, l = .job j → OwnJob s c j) :
    Progress target s s' l

theorem step_progress (h : Inv target s) {l : Label Call} (hstep : step target s l = some s') :
    Progress target s s' l := by
  cases step_effect h hstep with
  | call idle => exact .call (fun hmem => (h.called _).mp hmem idle) rfl
  | @resume c called waiting previous =>
    refine .moves called moves_resume ?_ fun j hj => .inl (Label.job.inj hj).symm
    have hchain : chainRank (s.afterResume c) c = chainRank s c := by
      have hcallback : s.callbackJob c ∈ s.heap.jobs.erase (s.resumeJob c) ↔
          s.callbackJob c ∈ s.heap.jobs := List.mem_erase_of_ne nofun
      have hadopt : adoptJob c ∈ s.heap.jobs.erase (s.resumeJob c) ↔
          adoptJob c ∈ s.heap.jobs := List.mem_erase_of_ne nofun
      show (if s.callbackJob c ∈ s.heap.jobs.erase (s.resumeJob c) then 2
        else if adoptJob c ∈ s.heap.jobs.erase (s.resumeJob c) then 1 else 0) = _
      simp only [hcallback, hadopt]
      rfl
    have hafter : awaitRank (s.afterResume c) c = 1 := by
      simp [awaitRank, State.afterResume]
    have hbefore : awaitRank s c = 2 := by simp [awaitRank, waiting]
    unfold rank
    omega
  | @callback c called mem previous =>
    refine .moves called (moves_callback h) ?_ fun j hj => .inr (.inl (Label.job.inj hj).symm)
    have hnot : s.callbackJob c ∉ (s.afterCallback c).heap.jobs := by
      intro hmem
      rcases (mem_jobs_callback h _).mp hmem with ⟨hne, _⟩ | heq
      · exact hne rfl
      · cases heq
    have hafter : chainRank (s.afterCallback c) c ≤ 1 := by
      have hjob : (s.afterCallback c).callbackJob c = s.callbackJob c := rfl
      rw [chainRank, hjob, if_neg hnot]
      split <;> omega
    have hbefore : chainRank s c = 2 := if_pos mem
    have hawait : awaitRank (s.afterCallback c) c = awaitRank s c := rfl
    unfold rank
    omega
  | @adopt c called mem current =>
    refine .moves called moves_adopt ?_ fun j hj => .inr (.inr (Label.job.inj hj).symm)
    obtain ⟨hcallback, _⟩ := adopting_of_mem (h.linked c called).stage mem
    have hnot : s.callbackJob c ∉ (s.afterAdopt c).heap.jobs :=
      fun hmem => hcallback (List.mem_of_mem_erase hmem)
    have hafter : chainRank (s.afterAdopt c) c = 0 := by
      have hjob : (s.afterAdopt c).callbackJob c = s.callbackJob c := rfl
      have hadopt : adoptJob c ∉ (s.afterAdopt c).heap.jobs := h.jobs_nodup.not_mem_erase
      rw [chainRank, hjob, if_neg hnot, if_neg hadopt]
    have hbefore : chainRank s c = 1 := by
      rw [chainRank, if_neg hcallback, if_pos mem]
    have hawait : awaitRank (s.afterAdopt c) c = awaitRank s c := rfl
    unfold rank
    omega
  | @finish c result called running =>
    refine .moves called moves_finish ?_ nofun
    have hafter : awaitRank (s.afterFinish c result) c = 0 := by
      simp [awaitRank, State.afterFinish]
    have hbefore : awaitRank s c = 1 := by simp [awaitRank, running]
    have hchain : chainRank (s.afterFinish c result) c = chainRank s c := rfl
    unfold rank
    omega

theorem rank_le (h : Inv target s) {l : Label Call} (hstep : step target s l = some s')
    (hc : c ∈ s.called) : rank s' c ≤ rank s c := by
  cases step_progress h hstep with
  | call fresh after =>
    rw [after]
    exact Nat.le_of_eq (rank_enter h fresh hc)
  | @moves _ c' called moves less job =>
    by_cases heq : c = c'
    · rw [heq]
      exact Nat.le_of_lt less
    · exact Nat.le_of_eq (rank_of_moves moves heq)

/-- A job of the call, or the end of its task, brings it forward. -/
theorem rank_lt (h : Inv target s) {l : Label Call} (hstep : step target s l = some s')
    (hc : c ∈ s.called)
    (hown : (∃ j, l = .job j ∧ OwnJob s c j) ∨ s'.phase c ≠ s.phase c) :
    rank s' c < rank s c := by
  cases step_progress h hstep with
  | @call c' fresh after =>
    rcases hown with ⟨j, hj, _⟩ | hphase
    · cases hj
    · rw [after] at hphase
      exact absurd (enter_phase_of_ne (ne_of_fresh fresh hc)) hphase
  | @moves _ c' called moves less job =>
    rcases hown with ⟨j, rfl, hj⟩ | hphase
    · rw [eq_of_ownJob hj (job j rfl)]
      exact less
    · by_cases heq : c = c'
      · rw [heq]
        exact less
      · exact absurd (moves.phase c heq) hphase

end rank

/-! ### What can be done for a call that waits -/

/-- `p` was called before `c`, on the same board. -/
def Ahead (target : Call → Target) (s : State Call) (p c : Call) : Prop :=
  List.Sublist [p, c] (s.callsOn target (target c))

section helpful

omit [DecidableEq Call]
variable {target : Call → Target} {s : State Call} {c p : Call}

theorem mem_line (hc : c ∈ s.called) (hp : p = c ∨ Ahead target s p c) :
    p ∈ s.callsOn target (target c) := by
  rcases hp with rfl | hahead
  · exact mem_callsOn.mpr ⟨hc, rfl⟩
  · exact hahead.subset List.mem_cons_self

theorem ahead_of_append {before after : List Call}
    (hline : s.callsOn target (target c) = before ++ after) (hp : p ∈ before) (hc : c ∈ after) :
    Ahead target s p c := by
  unfold Ahead
  rw [hline]
  exact (List.singleton_sublist.mpr hp).append (List.singleton_sublist.mpr hc)

/-- A job of the call is ready, or its task is running. -/
def Movable (s : State Call) (c : Call) : Prop :=
  (∃ j, OwnJob s c j ∧ s.heap.Ready j) ∨ s.phase c = .running

/-- The call that another one waits for moves, unless it has settled its promise. -/
theorem Inv.movable_of_pending (h : Inv target s) (hp : p ∈ s.called)
    (hphase : s.phase p ≠ .waiting) (hpending : s.heap.settled (.chained p) = none) :
    Movable s p := by
  have hlinked := h.linked p hp
  cases hlinked.stage with
  | registered callback adopt pending =>
    refine .inl ⟨s.callbackJob p, .inr (.inl rfl), callback, ?_⟩
    show s.heap.settled (s.previous p) ≠ none
    simp [hlinked.started hphase]
  | adopting callback adopt pending previous =>
    rcases hlinked.phase with hwaiting | hrunning | hleft
    · exact absurd hwaiting hphase
    · exact .inr hrunning
    · refine .inl ⟨adoptJob p, .inr (.inr rfl), adopt, ?_⟩
      show s.heap.settled (.current p) ≠ none
      simp [hlinked.released hleft]
  | settled callback adopt fulfilled previous current =>
    rw [hpending] at fulfilled
    cases fulfilled

/-- The first call that waits goes on, or the one before it does. -/
theorem Inv.movable_of_first (h : Inv target s) {d : Call} {rest : List Call}
    (hline : s.callsOn target (target c) = s.startedOn target (target c) ++ d :: rest)
    (hwaiting : s.phase d = .waiting) :
    Movable s d ∨ ∃ p ∈ s.startedOn target (target c), Movable s p := by
  have hd : d ∈ s.callsOn target (target c) := by
    rw [hline]
    exact List.mem_append_right _ List.mem_cons_self
  have hcalled := (mem_callsOn.mp hd).1
  by_cases hready : s.heap.settled (s.previous d) = none
  · have hfirst := h.line.first (target c) d
    have hchain := h.line.chain (target c)
    rw [hline] at hfirst hchain
    rcases List.eq_nil_or_concat' (s.startedOn target (target c)) with
      hnil | ⟨before, p, hconcat⟩
    · rw [hnil] at hfirst
      have hresolved := hfirst rfl
      rw [hresolved, h.resolved d hcalled hresolved] at hready
      cases hready
    · have hp : p ∈ s.startedOn target (target c) := by
        rw [hconcat]
        exact List.mem_concat_self
      rw [hconcat] at hchain
      have hprevious : s.previous d = .chained p := by
        simpa using hchain.rel_getLast_head_of_append
      rw [hprevious] at hready
      have hstarted := h.started_iff.mp (List.mem_filter.mp hp).1
      exact .inr ⟨p, hp, h.movable_of_pending hstarted.1 hstarted.2 hready⟩
  · refine .inl (.inl ⟨s.resumeJob d, .inl rfl, ?_, hready⟩)
    exact (h.linked d hcalled).resumes.mpr hwaiting

/-- As long as a call waits, it or one that is ahead of it can move. -/
theorem Inv.movable (h : Inv target s) (hc : c ∈ s.called) (hwaits : c ∉ s.started) :
    ∃ p, (p = c ∨ Ahead target s p c) ∧ Movable s p := by
  have hline := h.starts (target c)
  have hmem : c ∈ s.callsOn target (target c) := mem_callsOn.mpr ⟨hc, rfl⟩
  have hphase : s.phase c = .waiting := by
    by_contra hphase
    exact hwaits (h.started_iff.mpr ⟨hc, hphase⟩)
  have hwaiting : c ∈ (s.callsOn target (target c)).filter fun c => s.phase c = .waiting :=
    List.mem_filter.mpr ⟨hmem, decide_eq_true hphase⟩
  cases hfilter : (s.callsOn target (target c)).filter fun c => s.phase c = .waiting with
  | nil =>
    rw [hfilter] at hwaiting
    cases hwaiting
  | cons d rest =>
    have hd : s.phase d = .waiting := by
      have hd : d ∈ (s.callsOn target (target c)).filter fun c => s.phase c = .waiting := by
        rw [hfilter]
        exact List.mem_cons_self
      exact of_decide_eq_true (List.mem_filter.mp hd).2
    rw [hfilter] at hline hwaiting
    rcases h.movable_of_first hline hd with hmovable | ⟨p, hp, hmovable⟩
    · refine ⟨d, ?_, hmovable⟩
      rcases List.mem_cons.mp hwaiting with rfl | hrest
      · exact .inl rfl
      · rw [List.append_cons] at hline
        have hd : d ∈ s.startedOn target (target c) ++ [d] :=
          List.mem_append_right _ (List.mem_singleton_self d)
        exact .inr (ahead_of_append hline hd hrest)
    · exact ⟨p, .inr (ahead_of_append hline hp hwaiting), hmovable⟩

end helpful

/-! ### Along a run -/

section runs
variable {target : Call → Target} {s s' : State Call} {c p : Call}

theorem afterJob_heap (r : Heap (Promise Call) Call × Option (Call × Outcome)) :
    (s.afterJob r).heap = r.1 := by
  rcases r with ⟨heap, _ | ⟨c, _ | _⟩⟩
  · rfl
  · rfl
  · rfl

theorem enabled_job_iff {j : Job (Promise Call) Call} :
    (system target).Enabled s (.job j) ↔ s.heap.Ready j := by
  rw [← Promises.run_isSome_iff]
  show ((s.heap.run j).map s.afterJob).isSome ↔ _
  rw [Option.isSome_map]

/-- No step takes away a job that is ready but the one that does it. -/
theorem persists_job (j : Job (Promise Call) Call) : (system target).Persists (.job j) := by
  intro s l s' hstep hne henabled
  rw [enabled_job_iff] at henabled ⊢
  cases l with
  | call c =>
    simp only [system, step, withLock_eq] at hstep
    split at hstep
    · obtain rfl := Option.some.inj hstep
      refine Promises.ready_register (Promises.ready_register ?_)
      unfold State.found
      split
      · exact henabled
      · exact Promises.ready_settle henabled
    · cases hstep
  | finish c result =>
    simp only [system, step] at hstep
    split at hstep
    · obtain rfl := Option.some.inj hstep
      exact Promises.ready_settle henabled
    · cases hstep
  | job j' =>
    obtain ⟨⟨heap, goesOn⟩, hrun, rfl⟩ := Option.map_eq_some_iff.mp hstep
    rw [afterJob_heap]
    exact Promises.ready_of_run hrun (fun heq => hne (heq ▸ rfl)) henabled

/-- A call that has been made keeps its jobs. -/
theorem step_own (h : Inv target s) {l : Label Call} (hstep : step target s l = some s')
    {j : Job (Promise Call) Call} (hp : p ∈ s.called) (hj : OwnJob s p j) :
    p ∈ s'.called ∧ OwnJob s' p j := by
  cases step_progress h hstep with
  | @call c fresh after =>
    rw [after, own_enter (ne_of_fresh fresh hp)]
    exact ⟨List.mem_append_left _ hp, hj⟩
  | moves called moves less job =>
    rw [moves.called, ownJob_congr (congrFun moves.previous p)]
    exact ⟨hp, hj⟩

/-- The line of a board grows at its end. -/
theorem step_line (h : Inv target s) {l : Label Call} (hstep : step target s l = some s')
    (t : Target) : s.callsOn target t <+: s'.callsOn target t := by
  cases step_progress h hstep with
  | @call c fresh after =>
    rw [after, callsOn_enter]
    exact List.prefix_append _ _
  | moves called moves less job =>
    have hsame : s'.callsOn target t = s.callsOn target t := by
      rw [State.callsOn, State.callsOn, moves.called]
    exact ⟨[], by rw [List.append_nil, hsame]⟩

theorem step_started (h : Inv target s) {l : Label Call} (hstep : step target s l = some s')
    (hc : c ∈ s.started) : c ∈ s'.started := by
  cases step_effect h hstep with
  | call idle => exact hc
  | resume called waiting previous => exact List.mem_append_left _ hc
  | callback called mem previous => exact hc
  | adopt called mem current => exact hc
  | finish called running => exact hc

end runs

/-- Of two entries of a list the later one is in its first part only if both are. -/
theorem pair_sublist_of_append {α : Type} {a b : α} {before after : List α}
    (hnodup : (before ++ after).Nodup) (hb : b ∈ before)
    (h : List.Sublist [a, b] (before ++ after)) : List.Sublist [a, b] before := by
  obtain ⟨first, second, heq, hfirst, hsecond⟩ := List.sublist_append_iff.mp h
  rcases List.eq_nil_or_concat' second with rfl | ⟨init, last, rfl⟩
  · rw [heq, List.append_nil]
    exact hfirst
  · obtain rfl : b = last := by simpa using congrArg List.getLast? heq
    have hafter : b ∈ after := hsecond.subset (List.mem_append_right _ (List.mem_singleton_self b))
    exact absurd rfl ((List.nodup_append.mp hnodup).2.2 b hb b hafter)

section fair
variable {target : Call → Target} {run : Run (system target)} {c p : Call} {n m : Nat}

theorem run_inv (run : Run (system target)) (n : Nat) : Inv target (run.state n) :=
  reachable_inv (Run.reachable n)

theorem run_step {l : Label Call} (h : run.label n = some l) :
    step target (run.state n) l = some (run.state (n + 1)) := Run.step_of_label h

theorem called_mono (hle : n ≤ m) (hc : c ∈ (run.state n).called) : c ∈ (run.state m).called := by
  refine Run.stays (P := fun s => c ∈ s.called) (run_inv run) ?_ hle hc
  exact fun s l s' h hc hstep => (step_own h hstep hc (.inl rfl)).1

theorem own_mono {j : Job (Promise Call) Call} (hle : n ≤ m) (hc : c ∈ (run.state n).called)
    (hj : OwnJob (run.state n) c j) : OwnJob (run.state m) c j := by
  have hstays := Run.stays (P := fun s => c ∈ s.called ∧ OwnJob s c j) (run_inv run)
    (fun s l s' h hc hstep => step_own h hstep hc.1 hc.2) hle ⟨hc, hj⟩
  exact hstays.2

theorem started_mono (hle : n ≤ m) (hc : c ∈ (run.state n).started) :
    c ∈ (run.state m).started :=
  Run.stays (P := fun s => c ∈ s.started) (run_inv run)
    (fun _ _ _ h hc hstep => step_started h hstep hc) hle hc

theorem line_mono (hle : n ≤ m) (t : Target) :
    (run.state n).callsOn target t <+: (run.state m).callsOn target t :=
  Run.stays (P := fun s => (run.state n).callsOn target t <+: s.callsOn target t) (run_inv run)
    (fun _ _ _ h hprefix hstep => hprefix.trans (step_line h hstep t)) hle List.prefix_rfl

theorem rank_mono (hle : n ≤ m) (hc : c ∈ (run.state n).called) :
    rank (run.state m) c ≤ rank (run.state n) c := by
  have hstays := Run.stays (P := fun s => c ∈ s.called ∧ rank s c ≤ rank (run.state n) c)
    (run_inv run) (fun s l s' h hc hstep =>
      ⟨(step_own h hstep hc.1 (.inl rfl)).1, (rank_le h hstep hc.1).trans hc.2⟩) hle
    ⟨hc, Nat.le_refl _⟩
  exact hstays.2

/-- No call gets ahead of one that has been made. -/
theorem ahead_before (hle : n ≤ m) (hc : c ∈ (run.state n).called)
    (h : Ahead target (run.state m) p c) : Ahead target (run.state n) p c := by
  obtain ⟨after, hafter⟩ : (run.state n).callsOn target (target c) <+:
      (run.state m).callsOn target (target c) := line_mono hle (target c)
  have hnodup : ((run.state m).callsOn target (target c)).Nodup :=
    (run_inv run m).line.nodup.filter _
  unfold Ahead at h ⊢
  rw [← hafter] at h hnodup
  exact pair_sublist_of_append hnodup (mem_callsOn.mpr ⟨hc, rfl⟩) h

/-- A job that is ready is taken, and brings its call forward. -/
theorem rank_drops_of_ready {j : Job (Promise Call) Call} (hfair : run.WeakFair (.job j))
    (hc : c ∈ (run.state n).called) (hj : OwnJob (run.state n) c j)
    (hready : (run.state n).heap.Ready j) :
    ∃ m, n ≤ m ∧ rank (run.state m) c < rank (run.state n) c := by
  obtain ⟨m, hle, hlabel⟩ := hfair.taken (persists_job j) (enabled_job_iff.mpr hready)
  have hdrop := rank_lt (run_inv run m) (run_step hlabel) (called_mono hle hc)
    (.inl ⟨j, rfl, own_mono hle hc hj⟩)
  exact ⟨m + 1, Nat.le_succ_of_le hle, Nat.lt_of_lt_of_le hdrop (rank_mono hle hc)⟩

/-- Whenever the task of the call runs, it returns or throws in the end. -/
def Settles (run : Run (system target)) (c : Call) : Prop :=
  ∀ n, (run.state n).phase c = .running → ∃ m, n ≤ m ∧ (run.state m).Left c

/-- A task that ends brings its call forward, however it ends. -/
theorem rank_drops_of_running (hsettles : Settles run c) (hc : c ∈ (run.state n).called)
    (hrunning : (run.state n).phase c = .running) :
    ∃ m, n ≤ m ∧ rank (run.state m) c < rank (run.state n) c := by
  obtain ⟨m, hle, hleft⟩ := hsettles n hrunning
  have hend : ¬ (run.state m).phase c = .running := by
    intro hphase
    exact not_left_of_phase hphase nofun hleft
  obtain ⟨k, l, hk, hlabel, hbefore, hafter⟩ :=
    Run.exists_step_ending (P := fun s : State Call => s.phase c = .running) hle hrunning hend
  have hdrop := rank_lt (run_inv run k) (run_step hlabel) (called_mono hk hc)
    (.inr fun hsame => hafter (hsame.trans hbefore))
  exact ⟨k + 1, Nat.le_succ_of_le hk, Nat.lt_of_lt_of_le hdrop (rank_mono hk hc)⟩

/-- The call that waits, or one that is ahead of it, comes forward. -/
theorem rank_drops (hfair : ∀ j, run.WeakFair (.job j)) (hc : c ∈ (run.state n).called)
    (hwaits : c ∉ (run.state n).started)
    (hsettles : ∀ p, Ahead target (run.state n) p c → Settles run p) :
    ∃ p, (p = c ∨ Ahead target (run.state n) p c) ∧
      ∃ m, n ≤ m ∧ rank (run.state m) p < rank (run.state n) p := by
  have hinv := run_inv run n
  obtain ⟨p, hp, hmovable⟩ := hinv.movable hc hwaits
  have hcalled := (mem_callsOn.mp (mem_line hc hp)).1
  refine ⟨p, hp, ?_⟩
  rcases hmovable with ⟨j, hj, hready⟩ | hrunning
  · exact rank_drops_of_ready (hfair j) hcalled hj hready
  · rcases hp with rfl | hahead
    · exact absurd (hinv.started_iff.mpr ⟨hc, by simp [hrunning]⟩) hwaits
    · exact rank_drops_of_running (hsettles p hahead) hcalled hrunning

/-- Whoever waits only behind tasks that end has its own task called. -/
theorem eventually_started (hfair : ∀ j, run.WeakFair (.job j)) (hc : c ∈ (run.state n).called)
    (hsettles : ∀ p, Ahead target (run.state n) p c → Settles run p) :
    ∃ m, n ≤ m ∧ c ∈ (run.state m).started := by
  -- The calls that were made until now, each with what it has to do.
  let line := (run.state n).callsOn target (target c)
  refine Run.eventually_of_measure (fun s => c ∈ s.started) (fun s => (line.map (rank s)).sum) ?_
  intro m hle hwaits
  have hcalled := called_mono hle hc
  obtain ⟨p, hp, k, hk, hdrop⟩ := rank_drops hfair hcalled hwaits
    fun p hahead => hsettles p (ahead_before hle hc hahead)
  have hline : p ∈ line := mem_line hc (hp.imp_right (ahead_before hle hc))
  refine ⟨k, hk, List.sum_lt_sum _ _ (fun q hq => ?_) ⟨p, hline, hdrop⟩⟩
  exact rank_mono hk (called_mono hle (mem_callsOn.mp hq).1)

end fair

/-- The tasks of a board run one at a time, in the order of the calls and each exactly once, as
    long as every task that runs returns or throws. -/
theorem everyCall_runsOnce (target : Call → Target) :
    (∀ s, (system target).Reachable s → Exclusive target s ∧ InOrder target s) ∧
      ∀ run : Run (system target), (∀ j, run.WeakFair (.job j)) →
        ∀ n c, c ∈ (run.state n).called →
          (∀ p, Ahead target (run.state n) p c → Settles run p) →
            ∃ m, n ≤ m ∧ ∀ k, m ≤ k → (run.state k).started.count c = 1 := by
  refine ⟨fun s hs => ⟨(reachable_inv hs).exclusive, (reachable_inv hs).inOrder⟩, ?_⟩
  intro run hfair n c hc hsettles
  obtain ⟨m, hle, hstarted⟩ := eventually_started hfair hc hsettles
  refine ⟨m, hle, fun k hk => ?_⟩
  have hmem : c ∈ (run.state k).started := started_mono hk hstarted
  exact List.count_eq_one_of_mem (run_inv run k).inOrder.once hmem

/-! ### A task that throws -/

/-- A process that has just started. -/
def noCalls : State Call := ⟨fun _ => none, .empty, fun _ => .idle, .resolved, [], []⟩

omit [DecidableEq Call] in
theorem init_noCalls : Init (noCalls : State Call) := ⟨fun _ => rfl, rfl, fun _ => rfl, rfl, rfl⟩

inductive Caller where
  | first
  | second
deriving DecidableEq

/-- Both calls are on one board. -/
def oneBoard (_ : Caller) : Target := ⟨.localLocks, "board"⟩

/-- Two calls are made before the first task runs, and it throws. -/
def firstThrows : List (Label Caller) :=
  [.call .first, .call .second,
    .job (.resume (.resolved .first) .first), .finish .first .throws,
    .job (.callback (.resolved .first) (.current .first) (.chained .first)),
    .job (.adopt (.current .first) (.chained .first)),
    .job (.resume (.chained .first) .second), .finish .second .returns,
    .job (.callback (.chained .first) (.current .second) (.chained .second)),
    .job (.adopt (.current .second) (.chained .second))]

/-- Both calls have left, and nothing waits any more. -/
theorem firstThrows_end : ((system oneBoard).exec noCalls firstThrows).map
    (fun s => (s.phase .first, s.phase .second, s.heap.jobs)) =
      some (.done .throws, .done .returns, []) := by decide

theorem everyCall_runsOnce_firstThrows : ∃ s, (system oneBoard).exec noCalls firstThrows = some s ∧
    (Exclusive oneBoard s ∧ InOrder oneBoard s) ∧ s.started.count .second = 1 := by
  obtain ⟨s, hs, hend⟩ := Option.map_eq_some_iff.mp firstThrows_end
  obtain ⟨hfirst, hsecond, hjobs⟩ := by simpa using hend
  have hinit : (system oneBoard).init noCalls := init_noCalls
  let run := Run.ofExec hinit hs
  have hstate : ∀ n, 10 ≤ n → run.state n = s := fun n hn => Run.ofExec_end hinit hs hn
  obtain ⟨hsafe, hlive⟩ := everyCall_runsOnce oneBoard
  have hfair : ∀ j, run.WeakFair (.job j) := by
    refine fun j => Run.ofExec_weakFair hinit hs ?_
    rw [enabled_job_iff]
    rintro ⟨hmem, _⟩
    rw [hjobs] at hmem
    cases hmem
  have hsettles : ∀ p, Settles run p := by
    intro p n _
    refine ⟨max n 10, Nat.le_max_left _ _, ?_⟩
    rw [hstate _ (Nat.le_max_right _ _)]
    match p with
    | .first => exact ⟨_, hfirst⟩
    | .second => exact ⟨_, hsecond⟩
  have hcalled : Caller.second ∈ (run.state 2).called := by
    show Caller.second ∈ (((system oneBoard).exec noCalls (firstThrows.take 2)).getD noCalls).called
    decide
  obtain ⟨m, _, hcount⟩ := hlive run hfair 2 .second hcalled fun p _ => hsettles p
  have hreach : (system oneBoard).Reachable s := (System.Reachable.init hinit).exec hs
  refine ⟨s, hs, hsafe s hreach, ?_⟩
  rw [← hstate (max m 10) (Nat.le_max_right _ _)]
  exact hcount _ (Nat.le_max_left _ _)

end Notebortt.PromiseLocks
