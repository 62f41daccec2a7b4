import Mathlib.Data.List.Nodup
import Mathlib.Data.List.Perm.Subperm
import Mathlib.Data.Set.Basic
import Mathlib.Order.Bounds.Defs

/-! # Worklists

    A worklist that marks a value when it enqueues it computes the least set
    that holds the seeds and every child of its members, on any graph. -/

namespace Worklist

variable {α : Type u} [DecidableEq α]

/-- Add the children not found yet to the values found and to those still to be visited. -/
def visit (children found pending : List α) : List α × List α :=
  children.foldl (fun acc child =>
    if child ∈ acc.1 then acc else (acc.1 ++ [child], acc.2 ++ [child])) (found, pending)

/-- At most `n` visits. -/
def loop (children : α → List α) : Nat → List α → List α → List α
  | 0, _, found => found
  | _ + 1, [], found => found
  | n + 1, a :: pending, found =>
    let next := visit (children a) found pending
    loop children n next.2 next.1

def Closed (children : α → List α) (s : Set α) : Prop := ∀ a ∈ s, ∀ b ∈ children a, b ∈ s

/-! ### One visit -/

/-- A visit appends the same new values to both lists. -/
theorem visit_eq (children found pending : List α) :
    ∃ new, visit children found pending = (found ++ new, pending ++ new) ∧ new.Nodup ∧
      (∀ b ∈ new, b ∈ children ∧ b ∉ found) ∧ ∀ b ∈ children, b ∈ found ∨ b ∈ new := by
  induction children generalizing found pending with
  | nil => exact ⟨[], by simp [visit], List.nodup_nil, by simp, by simp⟩
  | cons c cs ih =>
    by_cases hc : c ∈ found
    · have hstep : visit (c :: cs) found pending = visit cs found pending := by
        simp [visit, hc]
      obtain ⟨new, hvisit, hnodup, hnew, hall⟩ := ih found pending
      refine ⟨new, hstep.trans hvisit, hnodup, ?_, ?_⟩
      · intro b hb
        exact ⟨List.mem_cons_of_mem c (hnew b hb).1, (hnew b hb).2⟩
      · intro b hb
        rcases List.mem_cons.mp hb with rfl | hb
        · exact .inl hc
        · exact hall b hb
    · have hstep : visit (c :: cs) found pending = visit cs (found ++ [c]) (pending ++ [c]) := by
        simp [visit, hc]
      obtain ⟨new, hvisit, hnodup, hnew, hall⟩ := ih (found ++ [c]) (pending ++ [c])
      have hfresh : c ∉ new := fun h => (hnew c h).2 (by simp)
      refine ⟨c :: new, ?_, List.nodup_cons.mpr ⟨hfresh, hnodup⟩, ?_, ?_⟩
      · rw [hstep, hvisit, List.append_assoc, List.append_assoc]
        rfl
      · intro b hb
        rcases List.mem_cons.mp hb with rfl | hb
        · exact ⟨List.mem_cons_self, hc⟩
        · obtain ⟨hmem, hnot⟩ := hnew b hb
          exact ⟨List.mem_cons_of_mem c hmem, fun h => hnot (List.mem_append_left _ h)⟩
      · intro b hb
        rcases List.mem_cons.mp hb with rfl | hb
        · exact .inr List.mem_cons_self
        · rcases hall b hb with h | h
          · rcases List.mem_append.mp h with h | h
            · exact .inl h
            · exact .inr (List.mem_singleton.mp h ▸ List.mem_cons_self)
          · exact .inr (List.mem_cons_of_mem c h)

/-! ### The loop -/

/-- The values of a list that are not found yet. -/
def unfound (nodes found : List α) : List α := nodes.filter (· ∉ found)

theorem unfound_append {nodes found new : List α} (hnodup : new.Nodup)
    (hnew : ∀ b ∈ new, b ∈ nodes ∧ b ∉ found) :
    new.length + (unfound nodes (found ++ new)).length ≤ (unfound nodes found).length := by
  -- the unfound values are the new ones among them and the rest
  have hsplit := List.length_eq_length_filter_add (l := unfound nodes found) (· ∈ new)
  have hrest : (unfound nodes found).filter (fun b => !decide (b ∈ new)) =
      unfound nodes (found ++ new) := by
    rw [unfound, List.filter_filter, unfound]
    apply List.filter_congr
    intro b _
    by_cases hfound : b ∈ found <;> by_cases hmem : b ∈ new <;> simp [hfound, hmem]
  have hsub : new ⊆ (unfound nodes found).filter (· ∈ new) := by
    intro b hb
    obtain ⟨hnodes, hfound⟩ := hnew b hb
    exact List.mem_filter.mpr
      ⟨List.mem_filter.mpr ⟨hnodes, decide_eq_true hfound⟩, decide_eq_true hb⟩
  have hlength : new.length ≤ ((unfound nodes found).filter (· ∈ new)).length :=
    (List.subperm_of_subset hnodup hsub).length_le
  rw [hrest] at hsplit
  omega

variable {children : α → List α} {nodes : List α} {s : Set α}

/-- What is found and no longer pending has its children found, and all of it lies in `s`. -/
structure Inv (children : α → List α) (s : Set α) (pending found : List α) : Prop where
  enqueued : ∀ a ∈ pending, a ∈ found
  within : ∀ a ∈ found, a ∈ s
  visited : ∀ a ∈ found, a ∉ pending → ∀ b ∈ children a, b ∈ found

theorem Inv.visit {a : α} {pending found : List α} (h : Inv children s (a :: pending) found)
    (hclosed : Closed children s) {new : List α}
    (hnew : ∀ b ∈ new, b ∈ children a ∧ b ∉ found)
    (hall : ∀ b ∈ children a, b ∈ found ∨ b ∈ new) :
    Inv children s (pending ++ new) (found ++ new) where
  enqueued := by
    intro b hb
    rcases List.mem_append.mp hb with hb | hb
    · exact List.mem_append_left _ (h.enqueued b (List.mem_cons_of_mem a hb))
    · exact List.mem_append_right _ hb
  within := by
    intro b hb
    rcases List.mem_append.mp hb with hb | hb
    · exact h.within b hb
    · exact hclosed a (h.within a (h.enqueued a List.mem_cons_self)) b (hnew b hb).1
  visited := by
    intro b hb hpending c hc
    rcases List.mem_append.mp hb with hb | hb
    · by_cases hba : b = a
      · -- the value visited
        subst hba
        rcases hall c hc with h | h
        · exact List.mem_append_left _ h
        · exact List.mem_append_right _ h
      · have hpending' : b ∉ a :: pending := by
          intro hmem
          rcases List.mem_cons.mp hmem with heq | hmem
          · exact hba heq
          · exact hpending (List.mem_append_left _ hmem)
        exact List.mem_append_left _ (h.visited b hb hpending' c hc)
    · exact absurd (List.mem_append_right _ hb) hpending

theorem subset_loop (n : Nat) (pending found : List α) : found ⊆ loop children n pending found := by
  induction n generalizing pending found with
  | zero => exact List.Subset.refl _
  | succ n ih =>
    cases pending with
    | nil => exact List.Subset.refl _
    | cons a pending =>
      obtain ⟨new, hvisit, -⟩ := visit_eq (children a) found pending
      rw [loop, hvisit]
      exact List.Subset.trans (List.subset_append_left found new) (ih _ _)

/-- With fuel for every value that may still be found the loop ends with nothing to visit. -/
theorem Inv.loop (hnodes : ∀ a, children a ⊆ nodes) (hclosed : Closed children s) {n : Nat}
    {pending found : List α} (h : Inv children s pending found)
    (hfuel : pending.length + (unfound nodes found).length ≤ n) :
    Inv children s [] (loop children n pending found) := by
  induction n generalizing pending found with
  | zero =>
    have hempty : pending = [] := List.length_eq_zero_iff.mp (by omega)
    rw [hempty] at h
    exact h
  | succ n ih =>
    cases pending with
    | nil => exact h
    | cons a pending =>
      obtain ⟨new, hvisit, hnodup, hnew, hall⟩ := visit_eq (children a) found pending
      rw [Worklist.loop, hvisit]
      apply ih (h.visit hclosed hnew hall)
      have hle := unfound_append hnodup fun b hb => ⟨hnodes a (hnew b hb).1, (hnew b hb).2⟩
      rw [List.length_cons] at hfuel
      rw [List.length_append]
      omega

/-- The loop computes the least closed set with the seeds. -/
theorem isLeast_loop (hnodes : ∀ a, children a ⊆ nodes) {n : Nat} {seeds : List α}
    (hfuel : seeds.length + nodes.length ≤ n) :
    IsLeast {s : Set α | (∀ a ∈ seeds, a ∈ s) ∧ Closed children s}
      {a | a ∈ loop children n seeds seeds} := by
  have hfuel' : seeds.length + (unfound nodes seeds).length ≤ n :=
    Nat.le_trans (Nat.add_le_add_left (List.length_filter_le _ _) _) hfuel
  have hinv : ∀ {s : Set α}, (∀ a ∈ seeds, a ∈ s) → Closed children s →
      Inv children s [] (loop children n seeds seeds) := by
    intro s hseeds hclosed
    have hinit : Inv children s seeds seeds :=
      ⟨fun _ h => h, hseeds, fun a ha hpending => absurd ha hpending⟩
    exact hinit.loop hnodes hclosed hfuel'
  constructor
  · refine ⟨fun a ha => subset_loop n seeds seeds ha, ?_⟩
    -- the invariant within everything gives closure, within a closed set leastness
    have huniv : Inv children Set.univ [] (loop children n seeds seeds) :=
      hinv (fun _ _ => trivial) fun _ _ _ _ => trivial
    intro a ha b hb
    exact huniv.visited a ha List.not_mem_nil b hb
  · intro s hs a ha
    exact (hinv hs.1 hs.2).within a ha

/-! ### Runs that end -/

section run

/-- At most `n` visits, or `none` when there are more to make. -/
def run (children : α → List α) : Nat → List α → List α → Option (List α)
  | _, [], found => some found
  | 0, _ :: _, _ => none
  | n + 1, a :: pending, found =>
    let next := visit (children a) found pending
    run children n next.2 next.1

theorem run_nil (n : Nat) (found : List α) : run children n [] found = some found := by
  cases n <;> rfl

theorem run_mono {n m : Nat} {pending found ids : List α}
    (h : run children n pending found = some ids) (hle : n ≤ m) :
    run children m pending found = some ids := by
  induction n generalizing m pending found with
  | zero =>
    cases pending with
    | nil => rwa [run_nil] at h ⊢
    | cons a pending => cases h
  | succ n ih =>
    cases pending with
    | nil => rwa [run_nil] at h ⊢
    | cons a pending =>
      obtain ⟨m, rfl⟩ := Nat.exists_eq_succ_of_ne_zero (show m ≠ 0 by omega)
      rw [run] at h ⊢
      exact ih h (Nat.le_of_succ_le_succ hle)

/-- With fuel for every value that may still be found the run ends. -/
theorem run_eq_loop (hnodes : ∀ a, children a ⊆ nodes) {n : Nat} {pending found : List α}
    (hfuel : pending.length + (unfound nodes found).length ≤ n) :
    run children n pending found = some (loop children n pending found) := by
  induction n generalizing pending found with
  | zero =>
    obtain rfl : pending = [] := List.length_eq_zero_iff.mp (by omega)
    rfl
  | succ n ih =>
    cases pending with
    | nil => rfl
    | cons a pending =>
      obtain ⟨new, hvisit, hnodup, hnew, -⟩ := visit_eq (children a) found pending
      rw [run, loop, hvisit]
      dsimp only
      apply ih
      have hle := unfound_append hnodup fun b hb => ⟨hnodes a (hnew b hb).1, (hnew b hb).2⟩
      rw [List.length_cons] at hfuel
      rw [List.length_append]
      omega

theorem nodup_loop (n : Nat) {pending found : List α} (h : found.Nodup) :
    (loop children n pending found).Nodup := by
  induction n generalizing pending found with
  | zero => exact h
  | succ n ih =>
    cases pending with
    | nil => exact h
    | cons a pending =>
      obtain ⟨new, hvisit, hnodup, hnew, -⟩ := visit_eq (children a) found pending
      rw [loop, hvisit]
      apply ih
      refine List.nodup_append.mpr ⟨h, hnodup, ?_⟩
      rintro b hb c hc rfl
      exact (hnew b hc).2 hb

end run

end Worklist
