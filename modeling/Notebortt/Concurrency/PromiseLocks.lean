import Mathlib.Data.List.Chain
import Notebortt.Lib.Promises
import Notebortt.Lib.Transition

/-! # The promise-chain locks

    `withLocalLock`, `withLoadLock`, `withPersistLock` and
    `withLocalBoardMutationLock` are four copies of one function, each over a map
    of its own from board ids to promises. A call chains a promise of its own
    behind the one that it finds in the map, and waits for the one that it found.

    A call is suspended at `await previous` and at `await task()`; a step is what
    it does from one of these to the next. Between any two steps other calls may
    be made and jobs of the event loop run. -/

open Transition
open Promises (Heap Job Outcome)

namespace Notebortt.PromiseLocks

/-! ### State -/

inductive LockMap where
  | localLocks
  | loadLocks
  | persistLocks
  | boardMutationLocks
deriving DecidableEq

/-- What a call locks: a board, in one of the maps. -/
structure Target where
  map : LockMap
  boardId : String
deriving DecidableEq

variable (Call : Type)

/-- The promises that a call makes, each of them a new one. -/
inductive Promise where
  /-- `Promise.resolve()`, where the map has no entry. -/
  | resolved (c : Call)
  /-- `current`, which `release` fulfils. -/
  | current (c : Call)
  /-- `previous.then(() => current)`. -/
  | chained (c : Call)
deriving DecidableEq

/-- How the promise of a task is settled, and with it that of the call. -/
inductive Result where
  | returns
  | throws
deriving DecidableEq

inductive Phase where
  | idle
  /-- At `await previous`. -/
  | waiting
  /-- At `await task()`. -/
  | running
  /-- Past the `finally` block. -/
  | done (result : Result)
  /-- `await previous` has thrown. -/
  | failed
deriving DecidableEq

structure State where
  locks : Target → Option (Promise Call)
  heap : Heap (Promise Call) Call
  phase : Call → Phase
  /-- The local variable `previous` of each call. -/
  previous : Call → Promise Call
  /-- Ghost: the calls in the order in which they were made. -/
  called : List Call
  /-- Ghost: whose task was called, each time one was. -/
  started : List Call

variable {Call} [DecidableEq Call]

/-! ### The functions -/

namespace State

variable (s : State Call) (t : Target) (c : Call)

/-- The promise that the call waits for: the one in the map, or a new one that is resolved. -/
def found : Promise Call × Heap (Promise Call) Call :=
  match s.locks t with
  | some p => (p, s.heap)
  | none => (.resolved c, s.heap.settle (.resolved c) .fulfilled)

/-- From the call to `await previous`. -/
def enter : State Call :=
  let found := s.found t c
  { s with
    locks := Function.update s.locks t (some (.chained c))
    heap := (found.2.thenReturn found.1 (.current c) (.chained c)).await found.1 c
    phase := Function.update s.phase c .waiting
    previous := Function.update s.previous c found.1
    called := s.called ++ [c] }

/-- From `await previous` to `await task()`. What the first one throws is not caught. -/
def resume : Outcome → State Call
  | .fulfilled =>
    { s with phase := Function.update s.phase c .running, started := s.started ++ [c] }
  | .rejected => { s with phase := Function.update s.phase c .failed }

/-- The `finally` block: `release()`, and the entry is deleted if it is `current`. -/
def leave (result : Result) : State Call :=
  { s with
    heap := s.heap.settle (.current c) .fulfilled
    locks := if s.locks t = some (.current c) then Function.update s.locks t none else s.locks
    phase := Function.update s.phase c (.done result) }

/-- The event loop has taken a job, and a function may go on. -/
def afterJob : Heap (Promise Call) Call × Option (Call × Outcome) → State Call
  | (heap, none) => { s with heap := heap }
  | (heap, some (c, o)) => { s with heap := heap }.resume c o

end State

section enter
variable {s : State Call} {t : Target} {c c' : Call}

@[simp] theorem enter_phase_self : (s.enter t c).phase c = .waiting := Function.update_self ..

@[simp] theorem enter_phase_of_ne (hne : c' ≠ c) : (s.enter t c).phase c' = s.phase c' :=
  Function.update_of_ne hne _ _

@[simp] theorem enter_previous_self : (s.enter t c).previous c = (s.found t c).1 :=
  Function.update_self ..

@[simp] theorem enter_previous_of_ne (hne : c' ≠ c) : (s.enter t c).previous c' = s.previous c' :=
  Function.update_of_ne hne _ _

@[simp] theorem enter_called : (s.enter t c).called = s.called ++ [c] := rfl

end enter

def withLocalLock (s : State Call) (boardId : String) (c : Call) : State Call :=
  s.enter ⟨.localLocks, boardId⟩ c

def withLoadLock (s : State Call) (boardId : String) (c : Call) : State Call :=
  s.enter ⟨.loadLocks, boardId⟩ c

def withPersistLock (s : State Call) (boardId : String) (c : Call) : State Call :=
  s.enter ⟨.persistLocks, boardId⟩ c

def withLocalBoardMutationLock (s : State Call) (boardId : String) (c : Call) : State Call :=
  s.enter ⟨.boardMutationLocks, boardId⟩ c

/-- The function that goes with a map. -/
def withLock : LockMap → State Call → String → Call → State Call
  | .localLocks => withLocalLock
  | .loadLocks => withLoadLock
  | .persistLocks => withPersistLock
  | .boardMutationLocks => withLocalBoardMutationLock

@[simp] theorem withLock_eq (s : State Call) (t : Target) (c : Call) :
    withLock t.map s t.boardId c = s.enter t c := by
  obtain ⟨map, boardId⟩ := t
  cases map with
  | localLocks => rfl
  | loadLocks => rfl
  | persistLocks => rfl
  | boardMutationLocks => rfl

/-! ### Steps -/

inductive Label (Call : Type) where
  | call (c : Call)
  /-- The event loop takes a job. -/
  | job (j : Job (Promise Call) Call)
  /-- `await task()` returns or throws. -/
  | finish (c : Call) (result : Result)

/-- `target` says of which board and in which map a call is. -/
def step (target : Call → Target) (s : State Call) : Label Call → Option (State Call)
  | .call c =>
    if s.phase c = .idle then some (withLock (target c).map s (target c).boardId c) else none
  | .job j => (s.heap.run j).map s.afterJob
  | .finish c result =>
    if s.phase c = .running then some (s.leave (target c) c result) else none

structure Init (s : State Call) : Prop where
  locks : ∀ t, s.locks t = none
  heap : s.heap = .empty
  phase : ∀ c, s.phase c = .idle
  called : s.called = []
  started : s.started = []

/-- The locks of one process. -/
def system (target : Call → Target) : System (State Call) (Label Call) where
  init := Init
  step := step target

/-! ### What a call has in the heap -/

section linked

omit [DecidableEq Call]

/-- The rest of the call waits for the promise that it found. -/
def State.resumeJob (s : State Call) (c : Call) : Job (Promise Call) Call :=
  .resume (s.previous c) c

/-- The promise that the call has put in the map waits for the one that it found. -/
def State.callbackJob (s : State Call) (c : Call) : Job (Promise Call) Call :=
  .callback (s.previous c) (.current c) (.chained c)

/-- And then for `current`. -/
def adoptJob (c : Call) : Job (Promise Call) Call := .adopt (.current c) (.chained c)

/-- The jobs of a call. -/
def OwnJob (s : State Call) (c : Call) (j : Job (Promise Call) Call) : Prop :=
  j = s.resumeJob c ∨ j = s.callbackJob c ∨ j = adoptJob c

/-- How far the promise that the call has put in the map is. -/
inductive ChainStage (s : State Call) (c : Call) : Prop where
  | registered (callback : s.callbackJob c ∈ s.heap.jobs) (adopt : adoptJob c ∉ s.heap.jobs)
      (pending : s.heap.settled (.chained c) = none)
  | adopting (callback : s.callbackJob c ∉ s.heap.jobs) (adopt : adoptJob c ∈ s.heap.jobs)
      (pending : s.heap.settled (.chained c) = none)
      (previous : s.heap.settled (s.previous c) = some .fulfilled)
  | settled (callback : s.callbackJob c ∉ s.heap.jobs) (adopt : adoptJob c ∉ s.heap.jobs)
      (fulfilled : s.heap.settled (.chained c) = some .fulfilled)
      (previous : s.heap.settled (s.previous c) = some .fulfilled)
      (current : s.heap.settled (.current c) = some .fulfilled)

/-- The call has left the lock. -/
def State.Left (s : State Call) (c : Call) : Prop := ∃ result, s.phase c = .done result

/-- A call that has been made: its promises and its jobs are where its phase says. -/
structure Linked (s : State Call) (c : Call) : Prop where
  phase : s.phase c = .waiting ∨ s.phase c = .running ∨ s.Left c
  resumes : s.resumeJob c ∈ s.heap.jobs ↔ s.phase c = .waiting
  started : s.phase c ≠ .waiting → s.heap.settled (s.previous c) = some .fulfilled
  pending : ¬ s.Left c → s.heap.settled (.current c) = none
  released : s.Left c → s.heap.settled (.current c) = some .fulfilled
  stage : ChainStage s c

/-- The jobs of a call depend on the promise that it has found. -/
theorem ownJob_congr {s s' : State Call} {c : Call} {j : Job (Promise Call) Call}
    (h : s'.previous c = s.previous c) : OwnJob s' c j ↔ OwnJob s c j := by
  unfold OwnJob State.resumeJob State.callbackJob
  rw [h]

/-- Two calls have no job in common. -/
theorem eq_of_ownJob {s : State Call} {c c' : Call} {j : Job (Promise Call) Call}
    (h : OwnJob s c j) (h' : OwnJob s c' j) : c = c' := by
  rcases h with rfl | rfl | rfl
  · rcases h' with h' | h' | h'
    · exact (Job.resume.inj h').2
    · cases h'
    · cases h'
  · rcases h' with h' | h' | h'
    · cases h'
    · exact Promise.current.inj (Job.callback.inj h').2.1
    · cases h'
  · rcases h' with h' | h' | h'
    · cases h'
    · cases h'
    · exact Promise.current.inj (Job.adopt.inj h').1

/-- A step of the call `c` in its own part of the state. -/
structure Moves (s s' : State Call) (c : Call) : Prop where
  locks : s'.locks = s.locks
  previous : s'.previous = s.previous
  called : s'.called = s.called
  phase : ∀ c', c' ≠ c → s'.phase c' = s.phase c'
  jobs : ∀ j, ¬ OwnJob s c j → (j ∈ s'.heap.jobs ↔ j ∈ s.heap.jobs)
  settled : ∀ p, p ≠ .current c → p ≠ .chained c → s'.heap.settled p = s.heap.settled p
  settled_mono : ∀ p o, s.heap.settled p = some o → s'.heap.settled p = some o

section moves
variable {s s' : State Call} {c c' : Call}

/-- A stage stays where the jobs and the chained promise of the call do. -/
theorem ChainStage.keep (h : ChainStage s c) (hprevious : s'.previous c = s.previous c)
    (hcallback : s.callbackJob c ∈ s'.heap.jobs ↔ s.callbackJob c ∈ s.heap.jobs)
    (hadopt : adoptJob c ∈ s'.heap.jobs ↔ adoptJob c ∈ s.heap.jobs)
    (hchained : s'.heap.settled (.chained c) = s.heap.settled (.chained c))
    (hmono : ∀ p o, s.heap.settled p = some o → s'.heap.settled p = some o) : ChainStage s' c := by
  have hjob : s'.callbackJob c = s.callbackJob c := by
    rw [State.callbackJob, State.callbackJob, hprevious]
  cases h with
  | registered callback adopt pending =>
    exact .registered (by rwa [hjob, hcallback]) (by rwa [hadopt]) (by rwa [hchained])
  | adopting callback adopt pending previous =>
    exact .adopting (by rwa [hjob, hcallback]) (by rwa [hadopt]) (by rwa [hchained])
      (by rw [hprevious]; exact hmono _ _ previous)
  | settled callback adopt fulfilled previous current =>
    exact .settled (by rwa [hjob, hcallback]) (by rwa [hadopt]) (by rwa [hchained])
      (by rw [hprevious]; exact hmono _ _ previous) (hmono _ _ current)

/-- A call stays linked where its phase, its jobs and its promises stay. -/
theorem Linked.keep (h : Linked s c) (hprevious : s'.previous c = s.previous c)
    (hphase : s'.phase c = s.phase c)
    (hjobs : ∀ j, OwnJob s c j → (j ∈ s'.heap.jobs ↔ j ∈ s.heap.jobs))
    (hcurrent : s'.heap.settled (.current c) = s.heap.settled (.current c))
    (hchained : s'.heap.settled (.chained c) = s.heap.settled (.chained c))
    (hmono : ∀ p o, s.heap.settled p = some o → s'.heap.settled p = some o) : Linked s' c := by
  have hresume : s'.resumeJob c = s.resumeJob c := by
    rw [State.resumeJob, State.resumeJob, hprevious]
  have hleft : s'.Left c ↔ s.Left c := by
    unfold State.Left
    rw [hphase]
  refine ⟨?_, ?_, ?_, ?_, ?_, ?_⟩
  · rw [hphase, hleft]
    exact h.phase
  · rw [hresume, hjobs _ (.inl rfl), hphase]
    exact h.resumes
  · rw [hphase, hprevious]
    exact fun hwaiting => hmono _ _ (h.started hwaiting)
  · rw [hleft, hcurrent]
    exact h.pending
  · rw [hleft, hcurrent]
    exact h.released
  · exact h.stage.keep hprevious (hjobs _ (.inr (.inl rfl))) (hjobs _ (.inr (.inr rfl))) hchained
      hmono

theorem Moves.own_mem_iff (hm : Moves s s' c) (hne : c' ≠ c) {j : Job (Promise Call) Call}
    (hj : OwnJob s c' j) : j ∈ s'.heap.jobs ↔ j ∈ s.heap.jobs :=
  hm.jobs j fun hown => hne (eq_of_ownJob hj hown)

/-- The other calls stay where they are. -/
theorem Moves.linked (hm : Moves s s' c) (hne : c' ≠ c) (h : Linked s c') : Linked s' c' := by
  refine h.keep (by rw [hm.previous]) (hm.phase c' hne) (fun j hj => hm.own_mem_iff hne hj) ?_ ?_
    hm.settled_mono
  · exact hm.settled _ (by simpa using hne) (by simp)
  · exact hm.settled _ (by simp) (by simpa using hne)

end moves

end linked

/-! ### The line of a board -/

section line

omit [DecidableEq Call]
variable (target : Call → Target) (s : State Call)

/-- The calls on a board, in the order in which they were made. -/
def State.callsOn (t : Target) : List Call := s.called.filter fun c => target c = t

/-- The calls on a board whose task was called, in the order of that. -/
def State.startedOn (t : Target) : List Call := s.started.filter fun c => target c = t

/-- The map has the promise of the last call, and every call has found that of the one before. -/
structure InLine : Prop where
  nodup : s.called.Nodup
  locks : ∀ t, s.locks t = (s.callsOn target t).getLast?.map .chained
  first : ∀ t, ∀ c ∈ (s.callsOn target t).head?, s.previous c = .resolved c
  chain : ∀ t, (s.callsOn target t).IsChain fun p c => s.previous c = .chained p

variable {target s}

theorem mem_callsOn {t : Target} {c : Call} :
    c ∈ s.callsOn target t ↔ c ∈ s.called ∧ target c = t := by
  simp [State.callsOn]

/-- In a chain everything but the first has something before it. -/
theorem head_or_before {α : Type} {R : α → α → Prop} {l : List α} (h : l.IsChain R) {a : α}
    (ha : a ∈ l) : l.head? = some a ∨ ∃ b ∈ l, R b a := by
  induction l with
  | nil => cases ha
  | cons b l ih =>
    rcases List.mem_cons.mp ha with rfl | hmem
    · exact .inl rfl
    · refine .inr ?_
      rcases ih h.tail hmem with hhead | ⟨d, hd, hR⟩
      · obtain ⟨rest, rfl⟩ : ∃ rest, l = a :: rest := by
          cases l with
          | nil => cases hhead
          | cons d rest => exact ⟨rest, by rw [Option.some.inj hhead]⟩
        exact ⟨b, List.mem_cons_self, (List.isChain_cons_cons.mp h).1⟩
      · exact ⟨d, List.mem_cons_of_mem _ hd, hR⟩

/-- What a call has found: a resolved promise, or that of an earlier call on its board. -/
theorem InLine.previous_cases (h : InLine target s) {c : Call} (hc : c ∈ s.called) :
    s.previous c = .resolved c ∨
      ∃ p ∈ s.called, target p = target c ∧ s.previous c = .chained p := by
  rcases head_or_before (h.chain (target c)) (mem_callsOn.mpr ⟨hc, rfl⟩) with hhead | ⟨p, hp, hR⟩
  · exact .inl (h.first _ c hhead)
  · exact .inr ⟨p, (mem_callsOn.mp hp).1, (mem_callsOn.mp hp).2, hR⟩

theorem InLine.of_moves {s' : State Call} {c : Call} (h : InLine target s) (hm : Moves s s' c) :
    InLine target s' := by
  have hcalls : ∀ t, s'.callsOn target t = s.callsOn target t := by
    intro t
    rw [State.callsOn, State.callsOn, hm.called]
  refine ⟨?_, ?_, ?_, ?_⟩
  · rw [hm.called]
    exact h.nodup
  · intro t
    rw [hm.locks, hcalls]
    exact h.locks t
  · intro t
    rw [hm.previous, hcalls]
    exact h.first t
  · intro t
    rw [hm.previous, hcalls]
    exact h.chain t

/-- The entry of a board is never the promise that the `finally` block compares it with. -/
theorem InLine.entry_ne_current (h : InLine target s) (t : Target) (c : Call) :
    s.locks t ≠ some (.current c) := by
  rw [h.locks]
  cases (s.callsOn target t).getLast? with
  | none => exact nofun
  | some p => exact nofun

end line

/-! ### The invariant -/

/-- `later` goes on only behind `earlier`. -/
def Behind (s : State Call) (earlier later : Call) : Prop :=
  s.heap.settled (s.previous later) = some .fulfilled →
    s.Left earlier ∧ s.heap.settled (s.previous earlier) = some .fulfilled

instance (s : State Call) : Trans (Behind s) (Behind s) (Behind s) where
  trans := fun hab hbc hlater => hab (hbc hlater).2

structure Inv (target : Call → Target) (s : State Call) : Prop where
  line : InLine target s
  called : ∀ c, c ∈ s.called ↔ s.phase c ≠ .idle
  resolved : ∀ c ∈ s.called, s.previous c = .resolved c →
    s.heap.settled (.resolved c) = some .fulfilled
  linked : ∀ c ∈ s.called, Linked s c
  fresh : ∀ c, c ∉ s.called → s.heap.settled (.resolved c) = none ∧
    s.heap.settled (.current c) = none ∧ s.heap.settled (.chained c) = none
  owned : ∀ j ∈ s.heap.jobs, ∃ c ∈ s.called, OwnJob s c j
  jobs_nodup : s.heap.jobs.Nodup
  starts : ∀ t, s.callsOn target t =
    s.startedOn target t ++ (s.callsOn target t).filter fun c => s.phase c = .waiting

section inv

omit [DecidableEq Call]
variable {target : Call → Target} {s : State Call}

/-- The chained promise of a call is fulfilled behind the promise that the call has found and its
    own `current`. -/
theorem Linked.of_chained {c : Call} (h : Linked s c)
    (hchained : s.heap.settled (.chained c) = some .fulfilled) :
    s.Left c ∧ s.heap.settled (s.previous c) = some .fulfilled := by
  cases h.stage with
  | registered callback adopt pending =>
    rw [pending] at hchained
    cases hchained
  | adopting callback adopt pending previous =>
    rw [pending] at hchained
    cases hchained
  | settled callback adopt fulfilled previous current =>
    refine ⟨?_, previous⟩
    by_contra hleft
    rw [h.pending hleft] at current
    cases current

theorem Inv.behind (h : Inv target s) (t : Target) :
    (s.callsOn target t).Pairwise (Behind s) := by
  refine List.isChain_iff_pairwise.mp ?_
  refine (h.line.chain t).imp_of_mem_imp ?_
  intro p c hp _ hprevious hfulfilled
  rw [hprevious] at hfulfilled
  exact (h.linked p (mem_callsOn.mp hp).1).of_chained hfulfilled

/-- Nothing that a call waits for is ever rejected. -/
theorem Inv.previous_fulfilled (h : Inv target s) {c : Call} (hc : c ∈ s.called) {o : Outcome}
    (ho : s.heap.settled (s.previous c) = some o) : o = .fulfilled := by
  rcases h.line.previous_cases hc with hresolved | ⟨p, hp, _, hprevious⟩
  · have := h.resolved c hc hresolved
    rw [hresolved, this] at ho
    exact (Option.some.inj ho).symm
  · rw [hprevious] at ho
    cases (h.linked p hp).stage with
    | registered callback adopt pending =>
      rw [pending] at ho
      cases ho
    | adopting callback adopt pending previous =>
      rw [pending] at ho
      cases ho
    | settled callback adopt fulfilled previous current =>
      rw [fulfilled] at ho
      exact (Option.some.inj ho).symm

theorem Inv.current_fulfilled (h : Inv target s) {c : Call} (hc : c ∈ s.called) {o : Outcome}
    (ho : s.heap.settled (.current c) = some o) : o = .fulfilled := by
  by_cases hleft : s.Left c
  · rw [(h.linked c hc).released hleft] at ho
    exact (Option.some.inj ho).symm
  · rw [(h.linked c hc).pending hleft] at ho
    cases ho

/-- A call moves in its own part of the state: the rest of the invariant stays. -/
theorem Inv.move {s' : State Call} {c : Call} (h : Inv target s) (hm : Moves s s' c)
    (hc : c ∈ s.called) (hlinked : Linked s' c) (hnodup : s'.heap.jobs.Nodup)
    (hstarts : ∀ t, s'.callsOn target t =
      s'.startedOn target t ++ (s'.callsOn target t).filter fun c => s'.phase c = .waiting) :
    Inv target s' := by
  refine ⟨h.line.of_moves hm, ?_, ?_, ?_, ?_, ?_, hnodup, hstarts⟩
  · intro c'
    rw [hm.called]
    by_cases heq : c' = c
    · subst heq
      refine iff_of_true hc ?_
      rcases hlinked.phase with hphase | hphase | ⟨result, hphase⟩
      · rw [hphase]
        exact nofun
      · rw [hphase]
        exact nofun
      · rw [hphase]
        exact nofun
    · rw [hm.phase c' heq]
      exact h.called c'
  · intro c' hc' hprevious
    rw [hm.called] at hc'
    rw [hm.previous] at hprevious
    exact hm.settled_mono _ _ (h.resolved c' hc' hprevious)
  · intro c' hc'
    rw [hm.called] at hc'
    by_cases heq : c' = c
    · exact heq ▸ hlinked
    · exact hm.linked heq (h.linked c' hc')
  · intro c' hc'
    rw [hm.called] at hc'
    have hne : c' ≠ c := fun heq => hc' (heq ▸ hc)
    rw [hm.settled (.resolved c') (by simp) (by simp),
      hm.settled (.current c') (by simpa using hne) (by simp),
      hm.settled (.chained c') (by simp) (by simpa using hne)]
    exact h.fresh c' hc'
  · intro j hj
    have hown : ∀ c', OwnJob s c' j → OwnJob s' c' j :=
      fun c' => (ownJob_congr (congrFun hm.previous c')).mpr
    rw [hm.called]
    by_cases hj' : OwnJob s c j
    · exact ⟨c, hc, hown c hj'⟩
    · obtain ⟨c', hc', hown'⟩ := h.owned j ((hm.jobs j hj').mp hj)
      exact ⟨c', hc', hown c' hown'⟩

/-- A step that calls no task keeps the order of the tasks. -/
theorem Inv.starts_of_moves {s' : State Call} {c : Call} (h : Inv target s) (hm : Moves s s' c)
    (hstarted : s'.started = s.started) (hwaiting : s'.phase c = .waiting ↔ s.phase c = .waiting) :
    ∀ t, s'.callsOn target t =
      s'.startedOn target t ++ (s'.callsOn target t).filter fun c => s'.phase c = .waiting := by
  intro t
  have hphase : ∀ c', s'.phase c' = .waiting ↔ s.phase c' = .waiting := by
    intro c'
    by_cases heq : c' = c
    · rw [heq]
      exact hwaiting
    · rw [hm.phase c' heq]
  simp only [State.callsOn, State.startedOn, hm.called, hstarted, hphase]
  exact h.starts t

end inv

/-! ### What a step does -/

namespace State

variable (s : State Call) (c : Call)

/-- The task of the call is called. -/
def afterResume : State Call :=
  { s with
    heap := s.heap.remove (s.resumeJob c)
    phase := Function.update s.phase c .running
    started := s.started ++ [c] }

/-- The callback of the call returns `current`. -/
def afterCallback : State Call :=
  { s with heap := (s.heap.remove (s.callbackJob c)).register (adoptJob c) }

/-- The promise of the call is fulfilled. -/
def afterAdopt : State Call :=
  { s with heap := (s.heap.remove (adoptJob c)).settle (.chained c) .fulfilled }

/-- The `finally` block, which finds an entry that is not `current`. -/
def afterFinish (result : Result) : State Call :=
  { s with
    heap := s.heap.settle (.current c) .fulfilled
    phase := Function.update s.phase c (.done result) }

end State

section effect
variable {target : Call → Target} {s s' : State Call} {c : Call}

/-- The steps of the calls that have been made, where nothing is ever rejected. -/
inductive Effect (target : Call → Target) (s : State Call) : Label Call → State Call → Prop where
  | call {c : Call} (idle : s.phase c = .idle) : Effect target s (.call c) (s.enter (target c) c)
  | resume {c : Call} (called : c ∈ s.called) (waiting : s.phase c = .waiting)
      (previous : s.heap.settled (s.previous c) = some .fulfilled) :
    Effect target s (.job (s.resumeJob c)) (s.afterResume c)
  | callback {c : Call} (called : c ∈ s.called) (mem : s.callbackJob c ∈ s.heap.jobs)
      (previous : s.heap.settled (s.previous c) = some .fulfilled) :
    Effect target s (.job (s.callbackJob c)) (s.afterCallback c)
  | adopt {c : Call} (called : c ∈ s.called) (mem : adoptJob c ∈ s.heap.jobs)
      (current : s.heap.settled (.current c) = some .fulfilled) :
    Effect target s (.job (adoptJob c)) (s.afterAdopt c)
  | finish {c : Call} {result : Result} (called : c ∈ s.called) (running : s.phase c = .running) :
    Effect target s (.finish c result) (s.afterFinish c result)

theorem step_effect (h : Inv target s) {l : Label Call} (hstep : step target s l = some s') :
    Effect target s l s' := by
  cases l with
  | call c =>
    simp only [step, withLock_eq] at hstep
    split at hstep
    · next hidle =>
      obtain rfl := Option.some.inj hstep
      exact .call hidle
    · cases hstep
  | finish c result =>
    simp only [step] at hstep
    split at hstep
    · next hrunning =>
      obtain rfl := Option.some.inj hstep
      have hcalled : c ∈ s.called := (h.called c).mpr (by simp [hrunning])
      rw [State.leave, if_neg (h.line.entry_ne_current _ _)]
      exact .finish hcalled hrunning
    · cases hstep
  | job j =>
    obtain ⟨⟨heap, goesOn⟩, hrun, rfl⟩ := Option.map_eq_some_iff.mp hstep
    obtain ⟨hmem, o, ho, hperform⟩ := Promises.run_eq_some.mp hrun
    obtain ⟨c, hc, rfl | rfl | rfl⟩ := h.owned j hmem
    · obtain rfl := h.previous_fulfilled hc ho
      obtain ⟨rfl, rfl⟩ := Prod.mk.inj hperform
      exact .resume hc ((h.linked c hc).resumes.mp hmem) ho
    · obtain rfl := h.previous_fulfilled hc ho
      obtain ⟨rfl, rfl⟩ := Prod.mk.inj hperform
      exact .callback hc hmem ho
    · obtain rfl := h.current_fulfilled hc ho
      obtain ⟨rfl, rfl⟩ := Prod.mk.inj hperform
      exact .adopt hc hmem ho

omit [DecidableEq Call] in
theorem not_left_of_phase {ph : Phase} (hphase : s.phase c = ph) (h : ∀ result, ph ≠ .done result) :
    ¬ s.Left c := by
  rintro ⟨result, hdone⟩
  exact h result (hphase.symm.trans hdone)

end effect

end Notebortt.PromiseLocks
