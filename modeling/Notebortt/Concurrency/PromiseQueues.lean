import Notebortt.Concurrency.LocalQueue
import Notebortt.Concurrency.PromiseLockSteps

/-! # The promise chains are queues

    What the chains amount to: every board has a queue. A call is put at its end,
    goes on when it is at the head, and is taken out when its task has ended. The
    jobs of the promise in the map are not seen. -/

open Transition

namespace Notebortt.PromiseLocks

open LocalQueue (Stage)

variable {Call : Type}

/-! ### The queue of a board -/

def Phase.stage : Phase → Stage
  | .idle => .outside
  | .waiting => .queued
  | .running => .inside
  | .done _ => .left
  | .failed => .left

/-- The call is in the lock, or on its way to it. -/
def Busy (s : State Call) (c : Call) : Prop := s.phase c = .waiting ∨ s.phase c = .running

instance (s : State Call) (c : Call) : Decidable (Busy s c) :=
  inferInstanceAs (Decidable (s.phase c = .waiting ∨ s.phase c = .running))

/-- The calls of a board that are in the lock or on their way to it. -/
def State.queueOf (s : State Call) (target : Call → Target) (t : Target) : List Call :=
  (s.callsOn target t).filter fun c => Busy s c

def State.queues (s : State Call) (target : Call → Target) : LocalQueue.State Target Call where
  queue := s.queueOf target
  stage := Phase.stage ∘ s.phase

/-- What the queues see of a step. -/
def observed : Label Call → Option (LocalQueue.Label Target Call)
  | .call c => some (.enter c)
  | .job (.resume _ c) => some (.pass c)
  | .job _ => none
  | .finish c _ => some (.leave c)

section queue
variable {target : Call → Target} {s s' : State Call} {c : Call}

theorem Inv.called_of_phase (h : Inv target s) {ph : Phase} (hphase : s.phase c = ph)
    (hne : ph ≠ .idle) : c ∈ s.called := by
  rw [h.called, hphase]
  exact hne

theorem Inv.called_of_busy (h : Inv target s) (hbusy : Busy s c) : c ∈ s.called := by
  rcases hbusy with hphase | hphase
  · exact h.called_of_phase hphase nofun
  · exact h.called_of_phase hphase nofun

theorem Moves.busy_iff (hm : Moves s s' c) {c' : Call} (hne : c' ≠ c) : Busy s' c' ↔ Busy s c' := by
  unfold Busy
  rw [hm.phase c' hne]

theorem not_left_of_busy (hbusy : Busy s c) : ¬ s.Left c := by
  rcases hbusy with hphase | hphase
  · exact not_left_of_phase hphase nofun
  · exact not_left_of_phase hphase nofun

/-- A call that can go on, and the one whose task is running, are at the head. -/
theorem Inv.head_queueOf (h : Inv target s) (hbusy : Busy s c)
    (hprevious : s.heap.settled (s.previous c) = some .fulfilled) :
    (s.queueOf target (target c)).head? = some c := by
  have hmem : c ∈ s.queueOf target (target c) :=
    List.mem_filter.mpr ⟨mem_callsOn.mpr ⟨h.called_of_busy hbusy, rfl⟩, decide_eq_true hbusy⟩
  have hstay : ∀ d ∈ s.queueOf target (target c), ¬ s.Left d :=
    fun d hd => not_left_of_busy (of_decide_eq_true (List.mem_filter.mp hd).2)
  obtain ⟨rest, hrest⟩ : ∃ rest, s.queueOf target (target c) = c :: rest :=
    eq_cons_of_behind ((h.behind (target c)).filter _) hstay hmem hprevious
  rw [hrest, List.head?_cons]

theorem Inv.head_of_running (h : Inv target s) (hrunning : s.phase c = .running) :
    (s.queueOf target (target c)).head? = some c := by
  have hlinked := h.linked c (h.called_of_phase hrunning nofun)
  exact h.head_queueOf (.inr hrunning) (hlinked.started (by simp [hrunning]))

/-- A call that moves and stays in its queue changes no queue. -/
theorem queueOf_of_moves (hm : Moves s s' c) (hbusy : Busy s' c ↔ Busy s c) :
    s'.queueOf target = s.queueOf target := by
  funext t
  rw [State.queueOf, State.callsOn, hm.called]
  refine List.filter_congr fun c' _ => ?_
  by_cases heq : c' = c
  · rw [heq, decide_eq_decide]
    exact hbusy
  · rw [decide_eq_decide]
    exact hm.busy_iff heq

variable [DecidableEq Call]

theorem queueOf_enter (hc : c ∉ s.called) :
    (s.enter (target c) c).queueOf target =
      Function.update (s.queueOf target) (target c) (s.queueOf target (target c) ++ [c]) := by
  funext t
  refine (filter_callsOn_enter hc t (fun ph => ph = .waiting ∨ ph = .running) rfl).trans ?_
  by_cases ht : target c = t
  · subst ht
    rw [if_pos rfl, Function.update_self]
    rfl
  · rw [if_neg ht, Function.update_of_ne (Ne.symm ht), List.append_nil]
    rfl

theorem queueOf_finish (h : Inv target s) {result : Result} :
    (s.afterFinish c result).queueOf target =
      Function.update (s.queueOf target) (target c) ((s.queueOf target (target c)).erase c) := by
  have hm : Moves s (s.afterFinish c result) c := moves_finish
  have hleft : ¬ Busy (s.afterFinish c result) c := by
    intro hbusy
    exact not_left_of_busy hbusy ⟨result, Function.update_self ..⟩
  funext t
  by_cases ht : target c = t
  · subst ht
    have hnodup : (s.queueOf target (target c)).Nodup := (h.line.nodup.filter _).filter _
    rw [Function.update_self, hnodup.erase_eq_filter, State.queueOf, State.queueOf,
      List.filter_filter]
    refine List.filter_congr fun c' _ => ?_
    by_cases heq : c' = c
    · simp [heq, hleft]
    · simp [heq, hm.busy_iff heq]
  · rw [Function.update_of_ne (Ne.symm ht)]
    refine List.filter_congr fun c' hc' => ?_
    have hne : c' ≠ c := by
      rintro rfl
      exact ht (mem_callsOn.mp hc').2
    rw [decide_eq_decide]
    exact hm.busy_iff hne

/-- A step of the locks is one of the queues, or moves only the promise in the map. -/
theorem step_queues (h : Inv target s) {l : Label Call} (hstep : step target s l = some s') :
    (observed l).elim (some (s.queues target)) (LocalQueue.step target (s.queues target)) =
      some (s'.queues target) := by
  cases step_effect h hstep with
  | @call c idle =>
    have hc : c ∉ s.called := fun hmem => (h.called c).mp hmem idle
    have houtside : (s.queues target).stage c = .outside := congrArg Phase.stage idle
    refine (if_pos houtside).trans (congrArg some ?_)
    unfold State.queues
    rw [queueOf_enter hc]
    exact LocalQueue.mk_update _ Phase.stage s.phase c .waiting
  | @resume c called waiting previous =>
    have hqueued : (s.queues target).stage c = .queued := congrArg Phase.stage waiting
    have hhead := h.head_queueOf (.inl waiting) previous
    have hbusy : Busy (s.afterResume c) c ↔ Busy s c :=
      iff_of_true (.inr (Function.update_self ..)) (.inl waiting)
    refine (if_pos ⟨hqueued, hhead⟩).trans (congrArg some ?_)
    unfold State.queues
    rw [queueOf_of_moves moves_resume hbusy]
    exact LocalQueue.mk_update _ Phase.stage s.phase c .running
  | @callback c called mem previous =>
    refine congrArg some ?_
    unfold State.queues
    rw [queueOf_of_moves (moves_callback h) Iff.rfl]
    rfl
  | @adopt c called mem current =>
    refine congrArg some ?_
    unfold State.queues
    rw [queueOf_of_moves moves_adopt Iff.rfl]
    rfl
  | @finish c result called running =>
    have hinside : (s.queues target).stage c = .inside := congrArg Phase.stage running
    refine (if_pos hinside).trans (congrArg some ?_)
    unfold State.queues
    rw [queueOf_finish h]
    exact LocalQueue.mk_update _ Phase.stage s.phase c (.done result)

theorem init_queues (h : Init s) : (LocalQueue.system target).init (s.queues target) := by
  refine ⟨fun t => ?_, fun c => congrArg Phase.stage (h.phase c)⟩
  show (s.callsOn target t).filter (fun c => Busy s c) = []
  rw [State.callsOn, h.called]
  rfl

end queue

/-- The chains of promises are queues. -/
theorem simulation [DecidableEq Call] (target : Call → Target) :
    System.Simulation (system target) (LocalQueue.system target) (fun s => s.queues target)
      observed where
  init _ hinit := init_queues hinit
  step _ _ _ hs hstep := step_queues (reachable_inv hs) hstep

/-- A run of the locks is one of the queues: the calls of a board pass in the order in which they
    came, and none before the one ahead of it has left. -/
theorem exec_queues [DecidableEq Call] {target : Call → Target} {s s' : State Call}
    {ls : List (Label Call)} (hs : (system target).Reachable s)
    (hrun : (system target).exec s ls = some s') :
    (LocalQueue.system target).exec (s.queues target) (ls.filterMap observed) =
      some (s'.queues target) :=
  (simulation target).exec hs hrun

end Notebortt.PromiseLocks
