import Mathlib.Data.List.Nodup

/-! # Queues whose failures keep their place

    A round looks at the first `limit` elements of a queue. An element that
    fails stays where it is, any other leaves; so the elements that failed take
    room in every later round. -/

namespace RetryQueue

variable {α : Type u} (limit : Nat) (fails : α → Bool)

def round (l : List α) : List α := (l.take limit).filter fails ++ l.drop limit

def rounds : Nat → List α → List α
  | 0, l => l
  | k + 1, l => rounds k (round limit fails l)

/-- How many of the first `p` elements fail. -/
def failing (l : List α) (p : Nat) : Nat := ((l.take p).filter fails).length

/-- How far `k` rounds look: each has room for `limit` elements less those that failed before. -/
def examined (l : List α) : Nat → Nat
  | 0 => 0
  | k + 1 => examined l k + (limit - failing fails l (examined l k))

variable {limit fails}

/-! ### The queue after some rounds -/

theorem rounds_succ (k : Nat) (l : List α) :
    rounds limit fails (k + 1) l = round limit fails (rounds limit fails k l) := by
  induction k generalizing l with
  | zero => rfl
  | succ k ih => exact ih (round limit fails l)

theorem filter_fails_take (l : List α) (n : Nat) :
    ((l.filter fails).take n).filter fails = (l.filter fails).take n := by
  rw [List.filter_eq_self]
  intro a ha
  exact (List.mem_filter.mp (List.mem_of_mem_take ha)).2

theorem take_add (l : List α) (p d : Nat) : l.take (p + d) = l.take p ++ (l.drop p).take d :=
  List.take_add

/-- A round on a queue of which `p` elements have been looked at. -/
theorem round_split (l : List α) (p : Nat) :
    round limit fails ((l.take p).filter fails ++ l.drop p) =
      (l.take (p + (limit - failing fails l p))).filter fails ++
        l.drop (p + (limit - failing fails l p)) := by
  unfold round failing
  rw [List.take_append, List.drop_append, List.filter_append, filter_fails_take, take_add,
    List.filter_append, List.drop_drop]
  rcases Nat.le_total limit ((l.take p).filter fails).length with hfull | hroom
  · -- the failures fill the round
    rw [Nat.sub_eq_zero_of_le hfull, List.take_zero, List.filter_nil, List.append_nil,
      List.append_nil, ← List.append_assoc, List.take_append_drop, Nat.add_zero]
  · -- the failures stay in front, and the rest of the round is new
    rw [List.take_of_length_le hroom, List.drop_eq_nil_of_le hroom, List.nil_append]

/-- After some rounds: what failed among the elements looked at, then the others. -/
theorem rounds_eq (k : Nat) (l : List α) :
    rounds limit fails k l = (l.take (examined limit fails l k)).filter fails ++
      l.drop (examined limit fails l k) := by
  induction k with
  | zero => rfl
  | succ k ih =>
    rw [rounds_succ, ih]
    exact round_split l _

/-! ### Which elements are looked at -/

/-- An element is looked at in one of `k` rounds exactly when it is among the first ones. -/
theorem looked_iff (k : Nat) (l : List α) (a : α) :
    (∃ j < k, a ∈ (rounds limit fails j l).take limit) ↔ a ∈ l.take (examined limit fails l k) := by
  have hwindow (j : Nat) : (rounds limit fails j l).take limit =
      ((l.take (examined limit fails l j)).filter fails).take limit ++
        (l.drop (examined limit fails l j)).take
          (limit - failing fails l (examined limit fails l j)) := by
    rw [rounds_eq, List.take_append]
    rfl
  have hnext (j : Nat) : l.take (examined limit fails l (j + 1)) =
      l.take (examined limit fails l j) ++ (l.drop (examined limit fails l j)).take
        (limit - failing fails l (examined limit fails l j)) := take_add l _ _
  induction k with
  | zero => simp [examined]
  | succ k ih =>
    rw [hnext, List.mem_append]
    constructor
    · intro h
      obtain ⟨j, hj, ha⟩ := h
      by_cases hlast : j = k
      · rw [hlast, hwindow, List.mem_append] at ha
        rcases ha with ha | ha
        · -- it failed before
          exact .inl (List.mem_filter.mp (List.mem_of_mem_take ha)).1
        · exact .inr ha
      · -- an earlier round
        exact .inl (ih.mp ⟨j, by omega, ha⟩)
    · intro h
      rcases h with ha | ha
      · obtain ⟨j, hj, ha⟩ := ih.mpr ha
        exact ⟨j, by omega, ha⟩
      · refine ⟨k, by omega, ?_⟩
        rw [hwindow]
        exact List.mem_append_right _ ha

theorem failing_le_add (l : List α) {p q : Nat} (h : p ≤ q) :
    failing fails l q ≤ failing fails l p + (q - p) := by
  have hq : q = p + (q - p) := by omega
  unfold failing
  rw [hq, take_add, List.filter_append, List.length_append, Nat.add_sub_cancel_left]
  have hrest : (((l.drop p).take (q - p)).filter fails).length ≤ q - p :=
    Nat.le_trans (List.length_filter_le _ _) (List.length_take_le _ _)
  omega

/-- Where `limit` elements fail, no number of rounds gets past them. -/
theorem examined_le {l : List α} {p : Nat} (h : limit ≤ failing fails l p) (k : Nat) :
    examined limit fails l k ≤ p := by
  induction k with
  | zero => exact Nat.zero_le p
  | succ k ih =>
    have hfailing := @failing_le_add α fails l _ _ ih
    show examined limit fails l k + (limit - failing fails l (examined limit fails l k)) ≤ p
    omega

end RetryQueue
