import Mathlib.Data.List.Nodup
import Mathlib.Logic.Function.Basic

/-! # Promises

    The promises of a process, and what waits for them. What waits for a promise
    that is settled is a job of the event loop. The jobs run one at a time; the
    order is left open, so what holds here holds in the order in which an event
    loop takes them from its queue.

    Values play no role: a promise is fulfilled or rejected, and is so for good. -/

namespace Promises

inductive Outcome where
  | fulfilled
  | rejected
deriving DecidableEq

/-- What waits for a promise. `F` are the async functions that are suspended. -/
inductive Job (P : Type u) (F : Type v) where
  /-- The rest of a function, from `await p` on. -/
  | resume (p : P) (f : F)
  /-- The callback of `p.then(() => inner)`, which returned the promise `derived`. -/
  | callback (p inner derived : P)
  /-- `derived` takes over what becomes of `inner`. -/
  | adopt (inner derived : P)
deriving DecidableEq

def Job.awaits {P : Type u} {F : Type v} : Job P F → P
  | .resume p _ => p
  | .callback p _ _ => p
  | .adopt inner _ => inner

structure Heap (P : Type u) (F : Type v) where
  settled : P → Option Outcome
  jobs : List (Job P F)

variable {P : Type u} {F : Type v}

namespace Heap

/-- Every promise is pending, and nothing waits. -/
def empty : Heap P F := ⟨fun _ => none, []⟩

variable (h : Heap P F)

/-- The job waits, and its promise is settled. -/
def Ready (j : Job P F) : Prop := j ∈ h.jobs ∧ h.settled j.awaits ≠ none

def register (j : Job P F) : Heap P F := { h with jobs := h.jobs ++ [j] }

/-- The function suspends at `await p`. -/
def await (p : P) (f : F) : Heap P F := h.register (.resume p f)

/-- `derived = p.then(() => inner)`. -/
def thenReturn (p inner derived : P) : Heap P F := h.register (.callback p inner derived)

section decidable
variable [DecidableEq P]

/-- What settles a promise first stands. -/
def settle (p : P) (o : Outcome) : Heap P F :=
  { h with settled := Function.update h.settled p ((h.settled p).or (some o)) }

/-- What a job does, by how its promise was settled, and the function that goes on, if one does. -/
def perform : Job P F → Outcome → Heap P F × Option (F × Outcome)
  | .resume _ f, o => (h, some (f, o))
  -- The job in which `derived` only starts to wait for `inner` is taken with this one.
  | .callback _ inner derived, .fulfilled => (h.register (.adopt inner derived), none)
  | .callback _ _ derived, .rejected => (h.settle derived .rejected, none)
  | .adopt _ derived, o => (h.settle derived o, none)

variable [DecidableEq F]

def remove (j : Job P F) : Heap P F := { h with jobs := h.jobs.erase j }

/-- The event loop takes a job. -/
def run (j : Job P F) : Option (Heap P F × Option (F × Outcome)) :=
  if j ∈ h.jobs then (h.settled j.awaits).map ((h.remove j).perform j) else none

end decidable

end Heap

/-! ### Settling -/

section settle
variable [DecidableEq P] {h : Heap P F} {p q : P} {o o' : Outcome}

theorem settle_self (hp : h.settled p = none) : (h.settle p o).settled p = some o := by
  simp [Heap.settle, hp]

@[simp] theorem settle_of_ne (hne : q ≠ p) : (h.settle p o).settled q = h.settled q := by
  simp [Heap.settle, hne]

/-- A settled promise stays as it is. -/
theorem settle_mono (hq : h.settled q = some o') : (h.settle p o).settled q = some o' := by
  by_cases heq : q = p
  · subst heq
    simp [Heap.settle, hq]
  · rw [settle_of_ne heq]
    exact hq

end settle

/-! ### Jobs -/

section jobs
variable {h : Heap P F} {p q : P} {f : F} {j j' : Job P F}

variable [DecidableEq P]

theorem perform_mono {o o' : Outcome} (hq : h.settled q = some o') :
    (h.perform j o).1.settled q = some o' := by
  cases j with
  | resume p f => exact hq
  | callback p inner derived =>
    cases o with
    | fulfilled => exact hq
    | rejected => exact settle_mono hq
  | adopt inner derived => exact settle_mono hq

theorem mem_perform_jobs {o : Outcome} (hmem : j' ∈ h.jobs) : j' ∈ (h.perform j o).1.jobs := by
  cases j with
  | resume p f => exact hmem
  | callback p inner derived =>
    cases o with
    | fulfilled => exact List.mem_append_left _ hmem
    | rejected => exact hmem
  | adopt inner derived => exact hmem

variable [DecidableEq F]

variable {h' : Heap P F} {r : Option (F × Outcome)}

/-- A job that runs was ready, and does what `perform` says. -/
theorem run_eq_some : h.run j = some (h', r) ↔
    j ∈ h.jobs ∧ ∃ o, h.settled j.awaits = some o ∧ (h.remove j).perform j o = (h', r) := by
  unfold Heap.run
  split
  · next hmem => simp [hmem, Option.map_eq_some_iff]
  · next hmem => simp [hmem]

/-- The event loop can take a job exactly if it is ready. -/
theorem run_isSome_iff : (h.run j).isSome ↔ h.Ready j := by
  unfold Heap.run Heap.Ready
  split
  · next hmem => simp [hmem, Option.isSome_iff_ne_none]
  · next hmem => simp [hmem]

/-- No job changes what is settled. -/
theorem run_mono {o : Outcome} (hrun : h.run j = some (h', r)) (hq : h.settled q = some o) :
    h'.settled q = some o := by
  obtain ⟨_, o', _, heq⟩ := run_eq_some.mp hrun
  have := perform_mono (h := h.remove j) (j := j) (o := o') hq
  rwa [heq] at this

/-- The jobs that do not run keep waiting. -/
theorem mem_run_jobs (hrun : h.run j = some (h', r)) (hne : j' ≠ j) (hmem : j' ∈ h.jobs) :
    j' ∈ h'.jobs := by
  obtain ⟨_, o', _, heq⟩ := run_eq_some.mp hrun
  have := mem_perform_jobs (h := h.remove j) (j := j) (o := o')
    ((List.mem_erase_of_ne hne).mpr hmem)
  rwa [heq] at this

omit [DecidableEq P] [DecidableEq F] in
theorem ready_register (hready : h.Ready j') : (h.register j).Ready j' :=
  ⟨List.mem_append_left _ hready.1, hready.2⟩

omit [DecidableEq F] in
theorem ready_settle {o : Outcome} (hready : h.Ready j') : (h.settle p o).Ready j' := by
  obtain ⟨o', ho'⟩ := Option.ne_none_iff_exists'.mp hready.2
  refine ⟨hready.1, ?_⟩
  rw [settle_mono ho']
  exact Option.some_ne_none o'

/-- A job that is ready stays so until it runs. -/
theorem ready_of_run (hrun : h.run j = some (h', r)) (hne : j' ≠ j) (hready : h.Ready j') :
    h'.Ready j' := by
  obtain ⟨o, ho⟩ := Option.ne_none_iff_exists'.mp hready.2
  refine ⟨mem_run_jobs hrun hne hready.1, ?_⟩
  rw [run_mono hrun ho]
  exact Option.some_ne_none o

end jobs

end Promises
