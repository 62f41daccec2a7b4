import Mathlib.Logic.Function.Basic

/-! # Random values

    A source of random texts, in the order they are drawn: ids, tokens, states.
    That none is drawn twice is what the code that draws them relies on. -/

structure RandomSource where
  random : Nat → String
  random_injective : Function.Injective random
  random_ne_empty : ∀ n, random n ≠ ""

/-- The values counted. -/
def RandomSource.counting : RandomSource where
  random := fun n => String.ofList (List.replicate (n + 1) 'r')
  random_injective := by
    intro m n h
    have hlists := String.ofList_injective h
    simpa using congrArg List.length hlists
  random_ne_empty := by
    intro n h
    have hlength := congrArg String.length h
    simp at hlength
