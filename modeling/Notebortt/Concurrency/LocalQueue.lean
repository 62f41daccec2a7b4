import Mathlib.Logic.Function.Basic
import Notebortt.Lib.Transition

/-! # Queues of calls

    What a lock inside a process is for: a call is put at the end of its queue,
    goes on when it is at the head, and is taken out when it has ended. -/

open Transition

namespace Notebortt.LocalQueue

/-! ### Steps -/

inductive Stage where
  | outside
  | queued
  | inside
  | left
deriving DecidableEq

variable (Key Call : Type)

structure State where
  queue : Key → List Call
  stage : Call → Stage

inductive Label where
  | enter (c : Call)
  | pass (c : Call)
  | leave (c : Call)
  /-- The process dies, and with it the calls in the queue. -/
  | clear (k : Key)

variable {Key Call} [DecidableEq Key] [DecidableEq Call]

def step (key : Call → Key) (s : State Key Call) : Label Key Call → Option (State Key Call)
  | .enter c =>
    if s.stage c = .outside then
      some {
        stage := Function.update s.stage c .queued
        queue := Function.update s.queue (key c) (s.queue (key c) ++ [c]) }
    else none
  | .pass c =>
    if s.stage c = .queued ∧ (s.queue (key c)).head? = some c then
      some { s with stage := Function.update s.stage c .inside }
    else none
  | .leave c =>
    if s.stage c = .inside then
      some {
        stage := Function.update s.stage c .left
        queue := Function.update s.queue (key c) ((s.queue (key c)).erase c) }
    else none
  | .clear k =>
    some {
      stage := fun c => if key c = k ∧ s.stage c ≠ .outside then .left else s.stage c
      queue := Function.update s.queue k [] }

def system (key : Call → Key) : System (State Key Call) (Label Key Call) where
  init s := (∀ k, s.queue k = []) ∧ ∀ c, s.stage c = .outside
  step := step key

omit [DecidableEq Key] in
/-- Setting a phase that a stage is read from. -/
theorem mk_update {Phase : Type} (queue : Key → List Call) (stage : Phase → Stage)
    (phase : Call → Phase) (c : Call) (ph : Phase) :
    State.mk queue (Function.update (stage ∘ phase) c (stage ph)) =
      State.mk queue (stage ∘ Function.update phase c ph) := by
  rw [Function.comp_update]

/-! ### The head of a queue -/

section heads
variable {key : Call → Key} {s s' : State Key Call}

/-- Who is inside is at the head of its queue. -/
def Heads (key : Call → Key) (s : State Key Call) : Prop :=
  ∀ c, s.stage c = .inside → (s.queue (key c)).head? = some c

omit [DecidableEq Key] [DecidableEq Call] in
theorem Heads.exclusive (h : Heads key s) {c c' : Call} (hc : s.stage c = .inside)
    (hc' : s.stage c' = .inside) (hkey : key c = key c') : c = c' := by
  have hhead := h c hc
  rw [hkey, h c' hc'] at hhead
  exact (Option.some.inj hhead).symm

theorem heads_step {l : Label Key Call} (h : Heads key s) (hstep : step key s l = some s') :
    Heads key s' := by
  cases l with
  | enter c =>
    simp only [step] at hstep
    split at hstep
    · obtain rfl := Option.some.inj hstep
      intro c' hc'
      have hne : c' ≠ c := by
        rintro rfl
        simp at hc'
      have hhead := h c' (by simpa [hne] using hc')
      by_cases hkey : key c' = key c
      · -- the new call goes behind the head
        rw [hkey] at hhead ⊢
        simp [hhead]
      · simpa [hkey] using hhead
    · cases hstep
  | pass c =>
    simp only [step] at hstep
    split at hstep
    · next hqueued =>
      obtain rfl := Option.some.inj hstep
      intro c' hc'
      by_cases heq : c' = c
      · rw [heq]
        exact hqueued.2
      · exact h c' (by simpa [heq] using hc')
    · cases hstep
  | leave c =>
    simp only [step] at hstep
    split at hstep
    · next hinside =>
      obtain rfl := Option.some.inj hstep
      intro c' hc'
      have hne : c' ≠ c := by
        rintro rfl
        simp at hc'
      have hc'' : s.stage c' = .inside := by simpa [hne] using hc'
      -- the queue that loses its head is not the one of another call that is inside
      have hkey : key c' ≠ key c := fun hkey => hne (h.exclusive hc'' hinside hkey)
      simpa [hkey] using h c' hc''
    · cases hstep
  | clear k =>
    obtain rfl := Option.some.inj hstep
    intro c hc
    by_cases hcleared : key c = k ∧ s.stage c ≠ .outside
    · simp [hcleared] at hc
    · have hinside : s.stage c = .inside := by simpa [hcleared] using hc
      have hkey : key c ≠ k := fun hkey => hcleared ⟨hkey, by simp [hinside]⟩
      simpa [hkey] using h c hinside

theorem reachable_heads (hs : (system key).Reachable s) : Heads key s := by
  refine hs.invariant (M := system key) ?_ fun _ _ _ h hstep => heads_step h hstep
  intro s hinit c hc
  rw [hinit.2 c] at hc
  cases hc

end heads

end Notebortt.LocalQueue
