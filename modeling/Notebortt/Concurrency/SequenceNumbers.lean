import Notebortt.Concurrency.BoardCommands

/-! # Sequence numbers across evictions and loads

    The counter of a board is a key like the others: an eviction deletes it, and
    a load puts it back at 0. -/

open Transition

namespace Notebortt.BoardCommands

section numbers
variable {P : Type} [DecidableEq P]

/-- The sequence number of a client that has the first `known` changes. -/
def lastNumber (numbers : List Nat) : Nat → Nat
  | 0 => 0
  | known + 1 => numbers.getD known 0

/-- The numbers given out go up, and no client that misses a change is told that
    there is nothing to catch up with. -/
structure NumbersIncrease (s : State P) : Prop where
  increasing : s.numbers.Pairwise (· < ·)
  noticed : ∀ known, known < s.numbers.length →
    getChangesAfter s.keys (lastNumber s.numbers known) ≠ { changes := [], complete := true }

/-- The next command is the SET of the sequence. -/
def Run.setsSeq : Run → Bool
  | .load (.writing []) => true
  | _ => false

/-- The sequence is among the keys that the DEL takes. -/
def Run.deletesSeq : Run → Bool
  | .flush (.scanning found) => found .seq
  | _ => false

/-- The step condition: a counter that has given out a number is neither deleted
    by an eviction nor set by a load. -/
def KeepsCounter (s : State P) : Label P → Prop
  | .command p _ => (s.run p).setsSeq = true → peekSequence s.keys = 0
  | .del p => (s.run p).deletesSeq = true → peekSequence s.keys = 0
  | _ => True

instance (s : State P) : (l : Label P) → Decidable (KeepsCounter s l)
  | .command p _ => inferInstanceAs (Decidable ((s.run p).setsSeq = true → peekSequence s.keys = 0))
  | .del p => inferInstanceAs (Decidable ((s.run p).deletesSeq = true → peekSequence s.keys = 0))
  | .loadBoard _ | .applyChangeSet _ _ | .persistBoard _ | .flushBoard _ _ | .idleCheck _ _
  | .scanPage _ _ | .loadLockExpires | .evictionLockExpires => .isTrue trivial

/-- The numbers given out are those from 1 to the counter. -/
def Counted (s : State P) : Prop :=
  s.numbers = List.range' 1 (peekSequence s.keys)

/-! ### What a step keeps -/

theorem seq_compareAndClear (incremental : Bool) (epoch sequence now duration : Nat)
    (k : BoardKeys) :
    (compareAndClear incremental epoch sequence now duration k).2.seq = k.seq := by
  unfold compareAndClear
  split <;> rfl

/-- A step gives out no number and leaves the counter, or it gives out the next one. -/
inductive Counts (s s' : State P) : Prop where
  | kept (numbers : s'.numbers = s.numbers) (counter : peekSequence s'.keys = peekSequence s.keys)
  | next (numbers : s'.numbers = s.numbers ++ [peekSequence s.keys + 1])
      (counter : peekSequence s'.keys = peekSequence s.keys + 1)

theorem counts_step {cfg : Config} {boardId : String} {s s' : State P} {l : Label P}
    (hkeeps : KeepsCounter s l) (hstep : step cfg boardId s l = some s') : Counts s s' := by
  cases step_effect hstep with
  | move keys numbers runs => exact .kept numbers (by rw [keys])
  | loadRow run keys numbers runs =>
    refine .kept numbers ?_
    rw [keys]
    rfl
  | loadSeq run keys numbers runs =>
    -- no number has been given out, and the counter stays at 0
    have hzero : peekSequence s.keys = 0 := hkeeps (by rw [run]; rfl)
    refine .kept numbers ?_
    rw [hzero, keys]
    rfl
  | number run keys numbers pipeline runs =>
    refine .next numbers ?_
    rw [keys]
    rfl
  | write run keys numbers pipeline runs =>
    exact .kept numbers (by rw [keys, peekSequence, WriteCommand.seq_exec, peekSequence])
  | unindex run keys numbers runs =>
    refine .kept numbers ?_
    rename_i c _
    rw [keys]
    cases c <;> rfl
  | clear run keys numbers runs =>
    exact .kept numbers (by rw [keys, peekSequence, seq_compareAndClear, peekSequence])
  | del run keys numbers runs =>
    rename_i p found
    have hdel : (s.keys.del found).seq = if found .seq then none else s.keys.seq := rfl
    refine .kept numbers ?_
    rw [keys, peekSequence, hdel]
    split
    · next hfound =>
      have hzero : peekSequence s.keys = 0 := hkeeps (by rw [run]; exact hfound)
      rw [hzero]
      rfl
    · rfl

theorem counted_step {cfg : Config} {boardId : String} {s s' : State P} {l : Label P}
    (h : Counted s) (hkeeps : KeepsCounter s l) (hstep : step cfg boardId s l = some s') :
    Counted s' := by
  unfold Counted at h ⊢
  cases counts_step hkeeps hstep with
  | kept numbers counter => rw [numbers, counter, h]
  | next numbers counter => rw [numbers, counter, h, List.range'_1_concat, Nat.add_comm 1]

/-! ### The run -/

omit [DecidableEq P] in
/-- With the numbers up to the counter, whoever misses a change is behind it. -/
theorem Counted.numbersIncrease {s : State P} (h : Counted s) : NumbersIncrease s := by
  unfold Counted at h
  constructor
  · rw [h]
    exact List.pairwise_lt_range'
  · intro known hknown heq
    have hlength : s.numbers.length = peekSequence s.keys := by rw [h, List.length_range']
    have hlast : lastNumber s.numbers known = known := by
      cases known with
      | zero => rfl
      | succ n =>
        have hlt : n < peekSequence s.keys := by omega
        simp [lastNumber, h, List.getElem?_range' hlt, Nat.add_comm]
    rw [hlast] at heq
    unfold getChangesAfter at heq
    rw [if_neg (by omega)] at heq
    simp only at heq
    split at heq
    · cases congrArg CatchUp.complete heq
    · next first rest hchanges =>
      rw [hchanges] at heq
      cases congrArg CatchUp.changes heq

theorem numbersIncrease_of_keepsCounter {cfg : Config} {boardId : String} {s : State P}
    (hs : (system P cfg boardId).ReachableUnder KeepsCounter s) : NumbersIncrease s := by
  apply Counted.numbersIncrease
  refine hs.invariant ?_ ?_
  · intro s h
    unfold Counted
    rw [h.numbers, h.keys]
    rfl
  · intro s l s' h hkeeps hstep
    exact counted_step h hkeeps hstep

end numbers

/-! ### Two runs -/

/-- A board is loaded, and two notes are stored. -/
theorem numbersIncrease_of_keepsCounter_run :
    ∃ s : State Unit, s.numbers = [1, 2] ∧ NumbersIncrease s := by
  obtain ⟨s, hs, hnumbers⟩ : ∃ s, (system Unit {} "b").execUnder KeepsCounter (start ⟨∅, ∅⟩)
      (loadEmpty () ++ applyNote () "x" ++ applyNote () "y") = some s ∧ s.numbers = [1, 2] :=
        ⟨_, rfl, rfl⟩
  exact ⟨s, hnumbers, numbersIncrease_of_keepsCounter (.execUnder (.init (start_init _)) hs)⟩

/-- Between the notes the board is evicted and loaded again: both get number 1. -/
theorem evicted_counter_starts_over :
    ∃ s : State Unit, (system Unit {} "b").Reachable s ∧ ¬ NumbersIncrease s := by
  obtain ⟨s, hs, hnumbers⟩ : ∃ s, (system Unit {} "b").exec (start ⟨∅, ∅⟩)
      (loadEmpty () ++ applyNote () "x" ++ evict () ++ loadEmpty () ++ applyNote () "y") = some s ∧
        s.numbers = [1, 1] := ⟨_, rfl, rfl⟩
  refine ⟨s, .exec (.init (start_init _)) hs, ?_⟩
  intro h
  have hincreasing := h.increasing
  rw [hnumbers] at hincreasing
  exact absurd hincreasing (by decide)

end Notebortt.BoardCommands
