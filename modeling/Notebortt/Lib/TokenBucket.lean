import Mathlib.Algebra.Order.Field.Basic
import Mathlib.Tactic.Linarith
import Mathlib.Tactic.Ring

/-! # Token buckets

    Tokens come in at a constant rate, up to a capacity, and an event takes one
    or is refused. However the bucket stands before a window of time, the events
    that get a token in the window are at most the capacity and what comes in
    during the window. -/

namespace TokenBucket

/-- How much a bucket holds at most, and how many tokens come in per unit of time. -/
structure Limits (K : Type u) where
  capacity : K
  rate : K

structure Bucket (K : Type u) where
  tokens : K
  updatedAt : K

/-! ### Windows -/

section window
variable {K : Type u} [LinearOrder K]

/-- How many events from `start` to `stop` got a token. -/
def acceptedIn (start stop : K) (answers : List (K × Bool)) : Nat :=
  answers.countP fun answer => answer.2 ∧ start ≤ answer.1 ∧ answer.1 ≤ stop

theorem acceptedIn_cons {start stop : K} {answer : K × Bool} {answers : List (K × Bool)} :
    acceptedIn start stop (answer :: answers) =
      acceptedIn start stop answers +
        if answer.2 ∧ start ≤ answer.1 ∧ answer.1 ≤ stop then 1 else 0 := by
  simp [acceptedIn, List.countP_cons]

theorem acceptedIn_cons_le {start stop : K} {answer : K × Bool} {answers : List (K × Bool)} :
    acceptedIn start stop (answer :: answers) ≤
      acceptedIn start stop answers + if answer.2 then 1 else 0 := by
  rw [acceptedIn_cons]
  refine Nat.add_le_add_left ?_ _
  by_cases htoken : answer.2 = true
  · rw [if_pos htoken]
    split
    · exact Nat.le_refl 1
    · exact Nat.zero_le 1
  · rw [if_neg fun h => htoken h.1]
    exact Nat.zero_le _

/-- An event outside the window does not count. -/
theorem acceptedIn_cons_of_lt {start stop : K} {answer : K × Bool} {answers : List (K × Bool)}
    (h : answer.1 < start) :
    acceptedIn start stop (answer :: answers) = acceptedIn start stop answers := by
  rw [acceptedIn_cons, if_neg fun hin => not_le_of_gt h hin.2.1, Nat.add_zero]

theorem acceptedIn_eq_zero {start stop : K} {answers : List (K × Bool)}
    (h : ∀ answer ∈ answers, stop < answer.1) : acceptedIn start stop answers = 0 := by
  refine List.countP_eq_zero.mpr fun answer hanswer => ?_
  have hlt := h answer hanswer
  simp [hlt]

end window

/-! ### Events -/

variable {K : Type u} [Field K] [LinearOrder K]

namespace Bucket

variable (limits : Limits K) (b : Bucket K) (now : K)

def refill : Bucket K where
  tokens := min limits.capacity (b.tokens + limits.rate * (now - b.updatedAt))
  updatedAt := now

/-- Whether the event gets a token, and the bucket after it. -/
def take : Bool × Bucket K :=
  let b := b.refill limits now
  if b.tokens < 1 then (false, b) else (true, { b with tokens := b.tokens - 1 })

/-- The events with their answers, and the bucket after them. -/
def run : Bucket K → List K → List (K × Bool) × Bucket K
  | b, [] => ([], b)
  | b, now :: events =>
    let taken := b.take limits now
    let rest := run taken.2 events
    ((now, taken.1) :: rest.1, rest.2)

/-- Between empty and full. -/
structure Within : Prop where
  nonneg : 0 ≤ b.tokens
  le_capacity : b.tokens ≤ limits.capacity

end Bucket

section events
variable {limits : Limits K} {b : Bucket K} {now : K} {events : List K}

@[simp] theorem take_updatedAt : (b.take limits now).2.updatedAt = now := by
  unfold Bucket.take
  dsimp only
  split
  · rfl
  · rfl

/-- A token less than after the refill, for an event that gets one. -/
theorem take_tokens :
    (b.take limits now).2.tokens + (if (b.take limits now).1 then 1 else 0) =
      (b.refill limits now).tokens := by
  unfold Bucket.take
  dsimp only
  split
  · exact add_zero _
  · exact sub_add_cancel _ _

theorem run_cons :
    Bucket.run limits b (now :: events) =
      ((now, (b.take limits now).1) :: (Bucket.run limits (b.take limits now).2 events).1,
        (Bucket.run limits (b.take limits now).2 events).2) := rfl

/-- Every answer is that of an event. -/
theorem mem_of_mem_run {answer : K × Bool} (h : answer ∈ (Bucket.run limits b events).1) :
    answer.1 ∈ events := by
  induction events generalizing b with
  | nil => cases h
  | cons now events ih =>
    rw [run_cons] at h
    rcases List.mem_cons.mp h with rfl | hrest
    · exact List.mem_cons_self
    · exact List.mem_cons_of_mem _ (ih hrest)

/-- Once the window is over nothing more counts. -/
theorem acceptedIn_run_of_lt {start stop : K} (hsorted : (now :: events).Pairwise (· ≤ ·))
    (hafter : stop < now) : acceptedIn start stop (Bucket.run limits b (now :: events)).1 = 0 := by
  refine acceptedIn_eq_zero fun answer hanswer => ?_
  rcases List.mem_cons.mp (mem_of_mem_run hanswer) with heq | hmem
  · exact heq ▸ hafter
  · exact hafter.trans_le ((List.pairwise_cons.mp hsorted).1 _ hmem)

end events

/-! ### The bound -/

structure Limits.Valid (limits : Limits K) : Prop where
  capacity : 0 ≤ limits.capacity
  rate : 0 ≤ limits.rate

section bound
variable [IsStrictOrderedRing K]
variable {limits : Limits K} {b : Bucket K} {now start stop : K} {events : List K}

/-- What comes in between two times. -/
theorem Limits.Valid.rate_mul_nonneg (hlimits : limits.Valid) (h : start ≤ stop) :
    0 ≤ limits.rate * (stop - start) :=
  mul_nonneg hlimits.rate (sub_nonneg.mpr h)

theorem refill_within (hlimits : limits.Valid) (hb : b.Within limits) (hnow : b.updatedAt ≤ now) :
    (b.refill limits now).Within limits where
  nonneg := le_min hlimits.capacity (add_nonneg hb.nonneg (hlimits.rate_mul_nonneg hnow))
  le_capacity := min_le_left _ _

theorem take_within (hlimits : limits.Valid) (hb : b.Within limits) (hnow : b.updatedAt ≤ now) :
    (b.take limits now).2.Within limits := by
  have hrefill := refill_within hlimits hb hnow
  unfold Bucket.take
  dsimp only
  split
  · exact hrefill
  · next htoken =>
    have hone : 1 ≤ (b.refill limits now).tokens := not_lt.mp htoken
    have hle := hrefill.le_capacity
    exact ⟨sub_nonneg.mpr hone, by linarith⟩

theorem run_within (hlimits : limits.Valid)
    (hsorted : (b.updatedAt :: events).Pairwise (· ≤ ·)) (hb : b.Within limits) :
    (Bucket.run limits b events).2.Within limits := by
  induction events generalizing b with
  | nil => exact hb
  | cons now events ih =>
    rw [run_cons]
    obtain ⟨hfirst, hrest⟩ := List.pairwise_cons.mp hsorted
    refine ih ?_ (take_within hlimits hb (hfirst now List.mem_cons_self))
    rw [take_updatedAt]
    exact hrest

/-- The refilled bucket pays for the first event; what it leaves and what comes in, for the rest. -/
theorem acceptedIn_cons_le_refill
    (hrest : (acceptedIn start stop (Bucket.run limits (b.take limits now).2 events).1 : K) ≤
      (b.take limits now).2.tokens + limits.rate * (stop - now)) :
    (acceptedIn start stop (Bucket.run limits b (now :: events)).1 : K) ≤
      (b.refill limits now).tokens + limits.rate * (stop - now) := by
  have hcons : acceptedIn start stop (Bucket.run limits b (now :: events)).1 ≤
      acceptedIn start stop (Bucket.run limits (b.take limits now).2 events).1 +
        if (b.take limits now).1 then 1 else 0 := acceptedIn_cons_le
  calc (acceptedIn start stop (Bucket.run limits b (now :: events)).1 : K)
      ≤ acceptedIn start stop (Bucket.run limits (b.take limits now).2 events).1 +
          if (b.take limits now).1 then 1 else 0 := by exact_mod_cast hcons
    _ ≤ (b.take limits now).2.tokens + limits.rate * (stop - now) +
          if (b.take limits now).1 then 1 else 0 := by gcongr
    _ = (b.refill limits now).tokens + limits.rate * (stop - now) := by
        rw [← take_tokens]
        ring

/-- From a moment before the window ends on, what is in the bucket and what comes in until then pays
    for every token. -/
theorem acceptedIn_le_tokens (hlimits : limits.Valid)
    (hsorted : (b.updatedAt :: events).Pairwise (· ≤ ·)) (hb : b.Within limits)
    (hstop : b.updatedAt ≤ stop) :
    (acceptedIn start stop (Bucket.run limits b events).1 : K) ≤
      b.tokens + limits.rate * (stop - b.updatedAt) := by
  -- By induction on the events: a refused one moves the clock and takes no token.
  induction events generalizing b with
  | nil =>
    rw [Bucket.run, acceptedIn, List.countP_nil, Nat.cast_zero]
    exact add_nonneg hb.nonneg (hlimits.rate_mul_nonneg hstop)
  | cons now events ih =>
    obtain ⟨hfirst, hrest⟩ := List.pairwise_cons.mp hsorted
    have hnow := hfirst now List.mem_cons_self
    rcases lt_or_ge stop now with hafter | hbefore
    · rw [acceptedIn_run_of_lt hrest hafter, Nat.cast_zero]
      exact add_nonneg hb.nonneg (hlimits.rate_mul_nonneg hstop)
    · have hlater := ih (b := (b.take limits now).2) (by rwa [take_updatedAt])
        (take_within hlimits hb hnow) (by rwa [take_updatedAt])
      rw [take_updatedAt] at hlater
      have hrefill : (b.refill limits now).tokens ≤
          b.tokens + limits.rate * (now - b.updatedAt) := min_le_right _ _
      have hcount := acceptedIn_cons_le_refill hlater
      have hsplit : limits.rate * (stop - b.updatedAt) =
          limits.rate * (now - b.updatedAt) + limits.rate * (stop - now) := by ring
      linarith

/-- Over any window at most the capacity and what comes in during the window. -/
theorem acceptedIn_le (hlimits : limits.Valid) (hwindow : start ≤ stop)
    (hsorted : (b.updatedAt :: events).Pairwise (· ≤ ·)) (hb : b.Within limits) :
    (acceptedIn start stop (Bucket.run limits b events).1 : K) ≤
      limits.capacity + limits.rate * (stop - start) := by
  have hfull := add_nonneg hlimits.capacity (hlimits.rate_mul_nonneg hwindow)
  -- By induction up to the first event of the window, whose refill stops at the capacity.
  induction events generalizing b with
  | nil =>
    rw [Bucket.run, acceptedIn, List.countP_nil, Nat.cast_zero]
    exact hfull
  | cons now events ih =>
    obtain ⟨hfirst, hrest⟩ := List.pairwise_cons.mp hsorted
    have hnow := hfirst now List.mem_cons_self
    have htake := take_within hlimits hb hnow
    have hrest' : ((b.take limits now).2.updatedAt :: events).Pairwise (· ≤ ·) := by
      rwa [take_updatedAt]
    rcases lt_or_ge now start with hbefore | hin
    · rw [run_cons, acceptedIn_cons_of_lt hbefore]
      exact ih hrest' htake
    rcases lt_or_ge stop now with hafter | hstop
    · rw [acceptedIn_run_of_lt hrest hafter, Nat.cast_zero]
      exact hfull
    · have hstop' : (b.take limits now).2.updatedAt ≤ stop := by rwa [take_updatedAt]
      have hlater : (acceptedIn start stop (Bucket.run limits (b.take limits now).2 events).1 : K) ≤
          (b.take limits now).2.tokens + limits.rate * (stop - now) := by
        simpa using acceptedIn_le_tokens hlimits hrest' htake hstop'
      have hcount := acceptedIn_cons_le_refill hlater
      have hrefill : (b.refill limits now).tokens ≤ limits.capacity := min_le_left _ _
      have hshorter : limits.rate * (stop - now) ≤ limits.rate * (stop - start) :=
        mul_le_mul_of_nonneg_left (sub_le_sub_left hin stop) hlimits.rate
      linarith

end bound

end TokenBucket
