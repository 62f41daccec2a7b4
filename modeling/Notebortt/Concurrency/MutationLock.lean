import Mathlib.Logic.Function.Basic
import Notebortt.BoardState.Keys
import Notebortt.Concurrency.LocalQueue

/-! # The distributed mutation lock

    `withBoardMutationLock` (`mutation-lock-domain.ts`) on one board: any
    number of processes, each with its local queue of calls, one Redis key, and
    any number of `flushBoard` calls, which delete the board's keys by pattern.

    A call stands for its token: every attempt of the source draws a fresh
    token, and only the one that succeeds is ever stored. The eviction lock is
    left out: it limits how many flushes run at once, and nothing here asks it. -/

open Transition

namespace Notebortt.MutationLock

/-! ### State -/

/-- Where a call of `withBoardMutationLock` is. -/
inductive Phase where
  | idle
  /-- Waiting for the earlier calls of its process. -/
  | queued
  /-- In the loop of `acquireMutationLock`. -/
  | acquiring
  /-- Its SET NX has stored the token, and the reply is on its way. -/
  | acquired
  /-- Its task is executing. -/
  | running
  /-- In the `finally` block. -/
  | releasing
  | done
  deriving DecidableEq

/-- Where a `flushBoard` call is: the keys of its SCAN, as far as the lock key
    is among them. -/
inductive FlushPhase where
  | idle
  | scanning (foundLock : Bool)
  | done
  deriving DecidableEq

variable (Call Process Flush : Type)

structure State where
  phase : Call → Phase
  /-- `localLocks`: the calls of a process, the one at the head past the local lock. -/
  queue : Process → List Call
  /-- The value of the lock key. -/
  lock : Option Call
  flush : Flush → FlushPhase

/-! ### Steps -/

inductive Label where
  /-- `withBoardMutationLock` is called. -/
  | enter (c : Call)
  /-- `await previous` returns. -/
  | pass (c : Call)
  /-- Redis executes one SET NX, which may find the key taken. -/
  | setNx (c : Call)
  /-- `OK` arrives, and the task starts. -/
  | start (c : Call)
  /-- The reply is lost: the call rejects, the key stays. -/
  | replyLost (c : Call)
  /-- The acquire deadline has passed: the call rejects. -/
  | timeout (c : Call)
  /-- The renewal timer fires: PEXPIRE if the token matches. -/
  | renew (c : Call)
  /-- The task returns or throws. -/
  | finish (c : Call)
  /-- The release script. -/
  | release (c : Call)
  /-- The release script cannot be sent: the call rejects, the key stays. -/
  | releaseFails (c : Call)
  /-- A process dies with all its calls. -/
  | crash (p : Process)
  /-- The TTL of the key elapses. -/
  | expire
  /-- One SCAN page of a flush; `hit` when the lock key is on it. -/
  | scanPage (f : Flush) (hit : Bool)
  /-- The DEL of a flush. -/
  | del (f : Flush)

variable {Call Process Flush}
variable [DecidableEq Call] [DecidableEq Process] [DecidableEq Flush]

/-- The call leaves `withBoardMutationLock`, and the next one of its process goes on. -/
def State.leave (proc : Call → Process) (s : State Call Process Flush) (c : Call) :
    State Call Process Flush :=
  { s with
    phase := Function.update s.phase c .done
    queue := Function.update s.queue (proc c) ((s.queue (proc c)).erase c) }

/-- `proc` says which process a call is made in. -/
def step (boardId : String) (proc : Call → Process) (s : State Call Process Flush) :
    Label Call Process Flush → Option (State Call Process Flush)
  | .enter c =>
    if s.phase c = .idle then
      some { s with
        phase := Function.update s.phase c .queued
        queue := Function.update s.queue (proc c) (s.queue (proc c) ++ [c]) }
    else none
  | .pass c =>
    if s.phase c = .queued ∧ (s.queue (proc c)).head? = some c then
      some { s with phase := Function.update s.phase c .acquiring }
    else none
  | .setNx c =>
    if s.phase c = .acquiring then
      if s.lock = none then
        some { s with phase := Function.update s.phase c .acquired, lock := some c }
      else some s
    else none
  | .start c =>
    if s.phase c = .acquired then some { s with phase := Function.update s.phase c .running }
    else none
  | .replyLost c => if s.phase c = .acquired then some (s.leave proc c) else none
  | .timeout c => if s.phase c = .acquiring then some (s.leave proc c) else none
  | .renew c => if s.phase c = .running then some s else none
  | .finish c =>
    if s.phase c = .running then
      some { s with phase := Function.update s.phase c .releasing }
    else none
  | .release c =>
    if s.phase c = .releasing then
      some { s.leave proc c with lock := if s.lock = some c then none else s.lock }
    else none
  | .releaseFails c => if s.phase c = .releasing then some (s.leave proc c) else none
  | .crash p =>
    some { s with
      phase := fun c => if proc c = p ∧ s.phase c ≠ .idle then .done else s.phase c
      queue := Function.update s.queue p [] }
  | .expire =>
    match s.lock with
    | some c =>
      -- the TTL never elapses while the holder is alive
      if s.phase c = .acquired ∨ s.phase c = .running ∨ s.phase c = .releasing then none
      else some { s with lock := none }
    | none => none
  | .scanPage f hit =>
    if hit && !(s.lock.isSome && scanFinds boardId (boardMutationLockKey boardId)) then none
    else
      match s.flush f with
      | .idle => some { s with flush := Function.update s.flush f (.scanning hit) }
      | .scanning found =>
        some { s with flush := Function.update s.flush f (.scanning (found || hit)) }
      | .done => none
  | .del f =>
    match s.flush f with
    | .scanning found =>
      some { s with
        lock := if found then none else s.lock
        flush := Function.update s.flush f .done }
    | _ => none

def init (s : State Call Process Flush) : Prop :=
  (∀ c, s.phase c = .idle) ∧ (∀ p, s.queue p = []) ∧ s.lock = none ∧ ∀ f, s.flush f = .idle

/-- The mutation lock of one board. -/
def system (Flush : Type) [DecidableEq Flush] (boardId : String) (proc : Call → Process) :
    System (State Call Process Flush) (Label Call Process Flush) where
  init := init
  step := step boardId proc

/-- At most one task is executing. -/
def Exclusive (s : State Call Process Flush) : Prop :=
  ∀ c c', s.phase c = .running → s.phase c' = .running → c = c'

/-! ### What a step does -/

section effect

/-- The call is past the local lock. -/
def PastLocalLock (s : State Call Process Flush) (c : Call) : Prop :=
  s.phase c = .acquiring ∨ s.phase c = .acquired ∨ s.phase c = .running ∨ s.phase c = .releasing

/-- The call holds the lock: its task is executing, or starts with the next step of its process. -/
def Holding (s : State Call Process Flush) (c : Call) : Prop :=
  s.phase c = .acquired ∨ s.phase c = .running

inductive Effect (proc : Call → Process) (s : State Call Process Flush) :
    Label Call Process Flush → State Call Process Flush → Prop where
  | enter {c : Call} (idle : s.phase c = .idle) :
    Effect proc s (.enter c)
      { s with
        phase := Function.update s.phase c .queued
        queue := Function.update s.queue (proc c) (s.queue (proc c) ++ [c]) }
  | pass {c : Call} (queued : s.phase c = .queued) (head : (s.queue (proc c)).head? = some c) :
    Effect proc s (.pass c) { s with phase := Function.update s.phase c .acquiring }
  | acquire {c : Call} (acquiring : s.phase c = .acquiring) (free : s.lock = none) :
    Effect proc s (.setNx c)
      { s with phase := Function.update s.phase c .acquired, lock := some c }
  | start {c : Call} (acquired : s.phase c = .acquired) :
    Effect proc s (.start c) { s with phase := Function.update s.phase c .running }
  /-- A SET NX that finds the key taken, or a renewal. -/
  | stay {l : Label Call Process Flush} : Effect proc s l s
  | finish {c : Call} (running : s.phase c = .running) :
    Effect proc s (.finish c) { s with phase := Function.update s.phase c .releasing }
  /-- The call rejects. -/
  | leave {c : Call} {l : Label Call Process Flush} (past : PastLocalLock s c) :
    Effect proc s l (s.leave proc c)
  | release {c : Call} (releasing : s.phase c = .releasing) :
    Effect proc s (.release c)
      { s.leave proc c with lock := if s.lock = some c then none else s.lock }
  | crash {p : Process} :
    Effect proc s (.crash p)
      { s with
        phase := fun c => if proc c = p ∧ s.phase c ≠ .idle then .done else s.phase c
        queue := Function.update s.queue p [] }
  | expire {holder : Call} (lock : s.lock = some holder) (dead : ¬ Holding s holder) :
    Effect proc s .expire { s with lock := none }
  | scanPage {f : Flush} {hit : Bool} {run : FlushPhase} :
    Effect proc s (.scanPage f hit) { s with flush := Function.update s.flush f run }
  | del {f : Flush} {found : Bool} (scanning : s.flush f = .scanning found) :
    Effect proc s (.del f)
      { s with
        lock := if found then none else s.lock
        flush := Function.update s.flush f .done }

theorem step_effect {boardId : String} {proc : Call → Process} {s s' : State Call Process Flush}
    {l : Label Call Process Flush} (hstep : step boardId proc s l = some s') :
    Effect proc s l s' := by
  cases l with
  | enter c =>
    simp only [step] at hstep
    split at hstep
    · next hidle =>
      obtain rfl := Option.some.inj hstep
      exact .enter hidle
    · cases hstep
  | pass c =>
    simp only [step] at hstep
    split at hstep
    · next hguard =>
      obtain rfl := Option.some.inj hstep
      exact .pass hguard.1 hguard.2
    · cases hstep
  | setNx c =>
    simp only [step] at hstep
    split at hstep
    · next hacquiring =>
      split at hstep
      · next hfree =>
        obtain rfl := Option.some.inj hstep
        exact .acquire hacquiring hfree
      · obtain rfl := Option.some.inj hstep
        exact .stay
    · cases hstep
  | start c =>
    simp only [step] at hstep
    split at hstep
    · next hacquired =>
      obtain rfl := Option.some.inj hstep
      exact .start hacquired
    · cases hstep
  | replyLost c =>
    simp only [step] at hstep
    split at hstep
    · next hacquired =>
      obtain rfl := Option.some.inj hstep
      exact .leave (.inr (.inl hacquired))
    · cases hstep
  | timeout c =>
    simp only [step] at hstep
    split at hstep
    · next hacquiring =>
      obtain rfl := Option.some.inj hstep
      exact .leave (.inl hacquiring)
    · cases hstep
  | renew c =>
    simp only [step] at hstep
    split at hstep
    · obtain rfl := Option.some.inj hstep
      exact .stay
    · cases hstep
  | finish c =>
    simp only [step] at hstep
    split at hstep
    · next hrunning =>
      obtain rfl := Option.some.inj hstep
      exact .finish hrunning
    · cases hstep
  | release c =>
    simp only [step] at hstep
    split at hstep
    · next hreleasing =>
      obtain rfl := Option.some.inj hstep
      exact .release hreleasing
    · cases hstep
  | releaseFails c =>
    simp only [step] at hstep
    split at hstep
    · next hreleasing =>
      obtain rfl := Option.some.inj hstep
      exact .leave (.inr (.inr (.inr hreleasing)))
    · cases hstep
  | crash p =>
    obtain rfl := Option.some.inj hstep
    exact .crash
  | expire =>
    simp only [step] at hstep
    split at hstep
    · next holder hlock =>
      split at hstep
      · cases hstep
      · next hdead =>
        obtain rfl := Option.some.inj hstep
        exact .expire hlock fun hholding => hdead (or_assoc.mp (.inl hholding))
    · cases hstep
  | scanPage f hit =>
    simp only [step] at hstep
    split at hstep
    · cases hstep
    · split at hstep
      · obtain rfl := Option.some.inj hstep
        exact .scanPage
      · obtain rfl := Option.some.inj hstep
        exact .scanPage
      · cases hstep
  | del f =>
    simp only [step] at hstep
    split at hstep
    · next found hscanning =>
      obtain rfl := Option.some.inj hstep
      exact .del hscanning
    · cases hstep

end effect

/-! ### The queues of the processes -/

section queues
variable {boardId : String} {proc : Call → Process} {s s' : State Call Process Flush} {c : Call}

def Phase.stage : Phase → LocalQueue.Stage
  | .idle => .outside
  | .queued => .queued
  | .acquiring => .inside
  | .acquired => .inside
  | .running => .inside
  | .releasing => .inside
  | .done => .left

def State.queues (s : State Call Process Flush) : LocalQueue.State Process Call where
  queue := s.queue
  stage := Phase.stage ∘ s.phase

/-- What the queues see of a step. -/
def observed : Label Call Process Flush → Option (LocalQueue.Label Process Call)
  | .enter c => some (.enter c)
  | .pass c => some (.pass c)
  | .replyLost c => some (.leave c)
  | .timeout c => some (.leave c)
  | .release c => some (.leave c)
  | .releaseFails c => some (.leave c)
  | .crash p => some (.clear p)
  | _ => none

omit [DecidableEq Flush] in
/-- A call that leaves the lock leaves its queue. -/
theorem queues_leave (hinside : (s.phase c).stage = .inside) :
    LocalQueue.step proc s.queues (.leave c) = some (s.leave proc c).queues := by
  refine (if_pos hinside).trans (congrArg some ?_)
  exact LocalQueue.mk_update _ Phase.stage s.phase c .done

omit [DecidableEq Process] [DecidableEq Flush] in
/-- A call that stays inside moves without its queue. -/
theorem stage_inside (ph : Phase) (hinside : (s.phase c).stage = .inside)
    (hph : ph.stage = .inside) :
    Phase.stage ∘ Function.update s.phase c ph = Phase.stage ∘ s.phase := by
  rw [Function.comp_update, hph, ← hinside]
  exact Function.update_eq_self c (Phase.stage ∘ s.phase)

omit [DecidableEq Call] [DecidableEq Flush] in
/-- A crash ends the calls of its process that have been made. -/
theorem stage_crash (p : Process) :
    (Phase.stage ∘ fun c => if proc c = p ∧ s.phase c ≠ .idle then .done else s.phase c) =
      fun c => if proc c = p ∧ (s.phase c).stage ≠ .outside then .left else (s.phase c).stage := by
  have houtside : ∀ ph : Phase, ph.stage = .outside ↔ ph = .idle := by
    intro ph
    cases ph <;> simp [Phase.stage]
  funext c
  simp only [Function.comp_apply, apply_ite Phase.stage, ne_eq, houtside]
  rfl

/-- Of the distributed lock's steps the queues see a call's arrival, its passing the local lock and
    its end, and the death of a process; not the key. -/
theorem step_queues {l : Label Call Process Flush} (hstep : step boardId proc s l = some s') :
    (observed l).elim (some s.queues) (LocalQueue.step proc s.queues) = some s'.queues := by
  cases l with
  | enter c =>
    simp only [step] at hstep
    split at hstep
    · next hidle =>
      obtain rfl := Option.some.inj hstep
      refine (if_pos (congrArg Phase.stage hidle)).trans (congrArg some ?_)
      exact LocalQueue.mk_update _ Phase.stage s.phase c .queued
    · cases hstep
  | pass c =>
    simp only [step] at hstep
    split at hstep
    · next hqueued =>
      obtain rfl := Option.some.inj hstep
      refine (if_pos ⟨congrArg Phase.stage hqueued.1, hqueued.2⟩).trans (congrArg some ?_)
      exact LocalQueue.mk_update _ Phase.stage s.phase c .acquiring
    · cases hstep
  | setNx c =>
    simp only [step] at hstep
    split at hstep
    · next hacquiring =>
      split at hstep
      · obtain rfl := Option.some.inj hstep
        have hstage := stage_inside .acquired (congrArg Phase.stage hacquiring) rfl
        exact congrArg (fun stage => some (LocalQueue.State.mk _ stage)) hstage.symm
      · exact congrArg (Option.map State.queues) hstep
    · cases hstep
  | start c =>
    simp only [step] at hstep
    split at hstep
    · next hacquired =>
      obtain rfl := Option.some.inj hstep
      have hstage := stage_inside .running (congrArg Phase.stage hacquired) rfl
      exact congrArg (fun stage => some (LocalQueue.State.mk _ stage)) hstage.symm
    · cases hstep
  | replyLost c =>
    simp only [step] at hstep
    split at hstep
    · next hacquired =>
      obtain rfl := Option.some.inj hstep
      exact queues_leave (congrArg Phase.stage hacquired)
    · cases hstep
  | timeout c =>
    simp only [step] at hstep
    split at hstep
    · next hacquiring =>
      obtain rfl := Option.some.inj hstep
      exact queues_leave (congrArg Phase.stage hacquiring)
    · cases hstep
  | renew c =>
    simp only [step] at hstep
    split at hstep
    · exact congrArg (Option.map State.queues) hstep
    · cases hstep
  | finish c =>
    simp only [step] at hstep
    split at hstep
    · next hrunning =>
      obtain rfl := Option.some.inj hstep
      have hstage := stage_inside .releasing (congrArg Phase.stage hrunning) rfl
      exact congrArg (fun stage => some (LocalQueue.State.mk _ stage)) hstage.symm
    · cases hstep
  | release c =>
    simp only [step] at hstep
    split at hstep
    · next hreleasing =>
      obtain rfl := Option.some.inj hstep
      exact queues_leave (congrArg Phase.stage hreleasing)
    · cases hstep
  | releaseFails c =>
    simp only [step] at hstep
    split at hstep
    · next hreleasing =>
      obtain rfl := Option.some.inj hstep
      exact queues_leave (congrArg Phase.stage hreleasing)
    · cases hstep
  | crash p =>
    obtain rfl := Option.some.inj hstep
    exact congrArg (fun stage => some (LocalQueue.State.mk _ stage)) (stage_crash p).symm
  | expire =>
    simp only [step] at hstep
    split at hstep
    · split at hstep
      · cases hstep
      · obtain rfl := Option.some.inj hstep
        rfl
    · cases hstep
  | scanPage f hit =>
    simp only [step] at hstep
    split at hstep
    · cases hstep
    · split at hstep
      · obtain rfl := Option.some.inj hstep
        rfl
      · obtain rfl := Option.some.inj hstep
        rfl
      · cases hstep
  | del f =>
    simp only [step] at hstep
    split at hstep
    · obtain rfl := Option.some.inj hstep
      rfl
    · cases hstep

/-- Without its key the distributed lock is the queues of its processes. -/
theorem simulation :
    System.Simulation (system Flush boardId proc) (LocalQueue.system proc) State.queues
      observed where
  init _ hinit := ⟨hinit.2.1, fun c => congrArg Phase.stage (hinit.1 c)⟩
  step _ _ _ _ hstep := step_queues hstep

end queues

/-! ### Exclusion inside one process -/

section exclusion
variable {boardId : String} {proc : Call → Process}

/-- A call past the local lock is at the head of its process's queue. -/
def HeadsQueue (proc : Call → Process) (s : State Call Process Flush) : Prop :=
  ∀ c, PastLocalLock s c → (s.queue (proc c)).head? = some c

omit [DecidableEq Call] [DecidableEq Process] [DecidableEq Flush] in
theorem headsQueue_iff {s : State Call Process Flush} :
    HeadsQueue proc s ↔ LocalQueue.Heads proc s.queues := by
  have hinside : ∀ ph : Phase,
      ph.stage = .inside ↔
        ph = .acquiring ∨ ph = .acquired ∨ ph = .running ∨ ph = .releasing := by
    intro ph
    cases ph <;> simp [Phase.stage]
  exact forall_congr' fun c => imp_congr_left (hinside (s.phase c)).symm

theorem reachable_headsQueue {s : State Call Process Flush}
    (hs : (system Flush boardId proc).Reachable s) : HeadsQueue proc s :=
  headsQueue_iff.mpr (LocalQueue.reachable_heads (simulation.reachable hs))

/-- Inside one process the local queue alone excludes, whatever the flushes delete. -/
theorem exclusive_in_process {s : State Call Process Flush}
    (hs : (system Flush boardId proc).Reachable s) {c c' : Call} (hc : s.phase c = .running)
    (hc' : s.phase c' = .running) (hproc : proc c = proc c') : c = c' := by
  have hheads := reachable_headsQueue hs
  have hhead := hheads c (.inr (.inr (.inl hc)))
  rw [hproc, hheads c' (.inr (.inr (.inl hc')))] at hhead
  exact (Option.some.inj hhead).symm

/-! ### Exclusion across processes -/

/-- The lock key has the token of the call that holds the lock. -/
def HoldsLock (s : State Call Process Flush) : Prop :=
  ∀ c, Holding s c → s.lock = some c

/-- The step condition: a flush that has found the lock key deletes it only while no task is
    executing, and none is about to start. -/
def KeepsHeldLock (s : State Call Process Flush) : Label Call Process Flush → Prop
  | .del f => s.flush f = .scanning true → ∀ c, ¬ Holding s c
  | _ => True

omit [DecidableEq Call] [DecidableEq Process] [DecidableEq Flush] in
theorem HoldsLock.exclusive {s : State Call Process Flush} (h : HoldsLock s) : Exclusive s := by
  intro c c' hc hc'
  have heq := h c (.inr hc)
  rw [h c' (.inr hc')] at heq
  exact (Option.some.inj heq).symm

omit [DecidableEq Process] [DecidableEq Flush] in
/-- A step of one call that leaves the key, and the call holding the lock only if it did before. -/
theorem HoldsLock.of_update {s s' : State Call Process Flush} (h : HoldsLock s) {c : Call}
    {ph : Phase} (hph : ph = .acquired ∨ ph = .running → Holding s c)
    (hphase : s'.phase = Function.update s.phase c ph) (hlock : s'.lock = s.lock) :
    HoldsLock s' := by
  intro c' hc'
  rw [hlock]
  apply h c'
  unfold Holding at hc'
  by_cases heq : c' = c
  · subst heq
    rw [hphase, Function.update_self] at hc'
    exact hph hc'
  · rwa [hphase, Function.update_of_ne heq] at hc'

theorem holdsLock_step {s s' : State Call Process Flush} {l : Label Call Process Flush}
    (h : HoldsLock s) (hcond : KeepsHeldLock s l) (hstep : step boardId proc s l = some s') :
    HoldsLock s' := by
  cases step_effect hstep with
  | enter idle => exact h.of_update (fun hph => by simp at hph) rfl rfl
  | pass queued head => exact h.of_update (fun hph => by simp at hph) rfl rfl
  | @acquire c acquiring free =>
    -- the key was free, so no call held the lock
    intro c' hc'
    by_cases heq : c' = c
    · rw [heq]
    · have hheld := h c' (by simpa [Holding, heq] using hc')
      rw [free] at hheld
      cases hheld
  | start acquired => exact h.of_update (fun _ => .inl acquired) rfl rfl
  | stay => exact h
  | finish running => exact h.of_update (fun hph => by simp at hph) rfl rfl
  | leave past => exact h.of_update (fun hph => by simp at hph) rfl rfl
  | @release c releasing =>
    intro c' hc'
    have hne : c' ≠ c := by
      rintro rfl
      simp [Holding, State.leave] at hc'
    have hheld := h c' (by simpa [Holding, State.leave, hne] using hc')
    -- another call holds the lock, so the token does not match
    have hother : s.lock ≠ some c := by
      rw [hheld]
      exact fun heq => hne (Option.some.inj heq)
    simp only [if_neg hother]
    exact hheld
  | @crash p =>
    intro c hc
    apply h c
    unfold Holding at hc ⊢
    by_cases hdead : proc c = p ∧ s.phase c ≠ .idle
    · simp [hdead] at hc
    · simpa only [if_neg hdead] using hc
  | @expire holder lock dead =>
    -- a holder that is alive keeps its key
    intro c hc
    have hheld := h c hc
    rw [lock] at hheld
    obtain rfl := Option.some.inj hheld
    exact absurd hc dead
  | scanPage => exact h
  | @del f found scanning =>
    intro c hc
    cases found with
    | true => exact absurd hc (hcond scanning c)
    | false => exact h c hc

/-- In every run in which no flush deletes the lock key while it is held, at most one task is
    executing. -/
theorem exclusive_of_keepsHeldLock {s : State Call Process Flush}
    (hs : (system Flush boardId proc).ReachableUnder KeepsHeldLock s) : Exclusive s := by
  have hholds : HoldsLock s := by
    refine hs.invariant ?_ ?_
    · intro s h c hc
      unfold Holding at hc
      rw [h.1 c] at hc
      simp at hc
    · intro s l s' h hcond hstep
      exact holdsLock_step h hcond hstep
  exact hholds.exclusive

end exclusion

/-! ### Two runs -/

/-- Two processes with one call each, and one flush. -/
def start : State Bool Bool Unit where
  phase := fun _ => .idle
  queue := fun _ => []
  lock := none
  flush := fun _ => .idle

theorem start_init : init start := ⟨fun _ => rfl, fun _ => rfl, rfl, fun _ => rfl⟩

/-- One call acquires the lock, and then a flush scans the keys and finds it. -/
theorem exclusive_of_keepsHeldLock_run :
    ∃ s : State Bool Bool Unit, s.phase true = .running ∧ s.flush () = .scanning true ∧
      Exclusive s := by
  let boardId := "aaaaaaaa-aaaa-4aaa-8aaa-aaaaaaaaaaaa"
  have h₀ : (system Unit boardId id).ReachableUnder KeepsHeldLock start := .init start_init
  have h₁ := h₀.step (Label.enter true) trivial rfl
  have h₂ := h₁.step (Label.pass true) trivial rfl
  have h₃ := h₂.step (Label.setNx true) trivial rfl
  have h₄ := h₃.step (Label.start true) trivial rfl
  have h₅ := h₄.step (Label.scanPage () true) trivial rfl
  exact ⟨_, rfl, rfl, exclusive_of_keepsHeldLock h₅⟩

/-- One process executes a task; a flush deletes the board's keys, the lock key
    with them; the other process acquires the lock and executes a second task. -/
theorem flush_breaks_exclusion :
    ∃ s : State Bool Bool Unit,
      (system Unit "aaaaaaaa-aaaa-4aaa-8aaa-aaaaaaaaaaaa" id).Reachable s ∧ ¬ Exclusive s := by
  have h₀ : (system Unit "aaaaaaaa-aaaa-4aaa-8aaa-aaaaaaaaaaaa" id).Reachable start :=
    .init start_init
  have h₁ := h₀.step (.enter true) rfl
  have h₂ := h₁.step (.pass true) rfl
  have h₃ := h₂.step (.setNx true) rfl
  have h₄ := h₃.step (.start true) rfl
  have h₅ := h₄.step (.scanPage () true) rfl
  have h₆ := h₅.step (.del ()) rfl
  have h₇ := h₆.step (.enter false) rfl
  have h₈ := h₇.step (.pass false) rfl
  have h₉ := h₈.step (.setNx false) rfl
  have h₁₀ := h₉.step (.start false) rfl
  refine ⟨_, h₁₀, ?_⟩
  intro hexclusive
  exact absurd (hexclusive true false rfl rfl) (by decide)

end Notebortt.MutationLock
