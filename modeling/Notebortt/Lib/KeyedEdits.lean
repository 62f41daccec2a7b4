import Mathlib.Data.List.Induction
import Mathlib.Logic.Function.Basic

/-! # Edits of a keyed family, one by one and at once

    An edit transforms what is under one key. A list of edits can be applied one
    by one, each judged by a rule on the family its predecessors left, or all at
    once: every edit transforms what was there at the start, and the last edit
    of a key counts. -/

namespace KeyedEdits

variable {κ : Type u} {V : Type v} {α : Type w} [DecidableEq κ]
variable (target : α → κ) (transform : α → Option V → Option V)
  (blocked : (κ → Option V) → α → Bool)

def edit (c : κ → Option V) (a : α) : κ → Option V :=
  Function.update c (target a) (transform a (c (target a)))

/-- One edit, unless the rule turns it away. -/
def step (c : κ → Option V) (a : α) : κ → Option V :=
  if blocked c a then c else edit target transform c a

def oneByOne (c : κ → Option V) (as : List α) : κ → Option V :=
  as.foldl (step target transform blocked) c

/-- The edits that pass the rule, each at its turn. -/
def landed : (κ → Option V) → List α → List α
  | _, [] => []
  | c, a :: as =>
    if blocked c a then landed c as else a :: landed (edit target transform c a) as

/-- The edits of one key. -/
def onKey (k : κ) (as : List α) : List α := as.filter fun a => target a = k

/-- The last edit of a key. -/
def last? (as : List α) (k : κ) : Option α := as.reverse.find? fun a => target a = k

def atOnce (c : κ → Option V) (as : List α) (k : κ) : Option V :=
  match last? target as k with
  | some a => transform a (c k)
  | none => c k

/-! ### One by one -/

@[simp] theorem edit_self (c : κ → Option V) (a : α) :
    edit target transform c a (target a) = transform a (c (target a)) := by
  simp [edit]

theorem edit_ne (c : κ → Option V) {a : α} {k : κ} (h : target a ≠ k) :
    edit target transform c a k = c k := by
  simp [edit, Function.update_of_ne (Ne.symm h)]

theorem onKey_cons_self (a : α) (as : List α) :
    onKey target (target a) (a :: as) = a :: onKey target (target a) as := by
  simp [onKey]

theorem onKey_cons_ne {a : α} {k : κ} (h : target a ≠ k) (as : List α) :
    onKey target k (a :: as) = onKey target k as := by
  simp [onKey, h]

/-- Under a key, the edits that land are applied in order. -/
theorem oneByOne_apply (c : κ → Option V) (as : List α) (k : κ) :
    oneByOne target transform blocked c as k =
      (onKey target k (landed target transform blocked c as)).foldl (fun o a => transform a o)
        (c k) := by
  induction as generalizing c with
  | nil => simp [oneByOne, landed, onKey]
  | cons a as ih =>
    have hstep : oneByOne target transform blocked c (a :: as) =
        oneByOne target transform blocked (step target transform blocked c a) as := rfl
    rw [hstep, ih]
    cases hblocked : blocked c a with
    | true => simp only [step, landed, hblocked, if_true]
    | false =>
      simp only [step, landed, hblocked, Bool.false_eq_true, if_false]
      -- the edit is the first of its own key and none of any other
      by_cases hk : target a = k
      · subst hk
        rw [edit_self, onKey_cons_self, List.foldl_cons]
      · rw [edit_ne target transform c hk, onKey_cons_ne target hk]

/-- When no edit gives a key a value or takes it, one by one they do not. -/
theorem oneByOne_eq_none_iff (hnone : ∀ a o, transform a o = none ↔ o = none) (c : κ → Option V)
    (as : List α) (k : κ) : oneByOne target transform blocked c as k = none ↔ c k = none := by
  rw [oneByOne_apply]
  generalize onKey target k (landed target transform blocked c as) = edits, c k = o
  induction edits generalizing o with
  | nil => rfl
  | cons a edits ih => rw [List.foldl_cons, ih, hnone]

/-- A step keeps what holds of every value under its key, when its edit does. -/
theorem step_keeps {P : κ → V → Prop} {c : κ → Option V} {a : α}
    (hP : ∀ k v, c k = some v → P k v)
    (hkeeps : ∀ v, transform a (c (target a)) = some v → P (target a) v) {k : κ} {v : V}
    (h : step target transform blocked c a k = some v) : P k v := by
  unfold step at h
  split at h
  · exact hP k v h
  · by_cases hk : target a = k
    · subst hk
      rw [edit_self] at h
      exact hkeeps v h
    · rw [edit_ne target transform c hk] at h
      exact hP k v h

/-- The edits that land are among the edits, in their order. -/
theorem landed_sublist (c : κ → Option V) (as : List α) :
    (landed target transform blocked c as).Sublist as := by
  induction as generalizing c with
  | nil => exact List.Sublist.refl _
  | cons a as ih =>
    unfold landed
    split
    · exact (ih c).cons a
    · exact (ih _).cons_cons a

/-- When no edit makes the rule turn away another, all land. -/
theorem landed_eq_self {c : κ → Option V} {as : List α} (h : ∀ a ∈ as, blocked c a = false)
    (hkeeps : ∀ c, ∀ a ∈ as, ∀ b ∈ as, blocked c b = false →
      blocked (edit target transform c a) b = false) :
    landed target transform blocked c as = as := by
  induction as generalizing c with
  | nil => rfl
  | cons a as ih =>
    simp only [landed, h a (by simp), Bool.false_eq_true, if_false, List.cons.injEq, true_and]
    apply ih
    · intro b hb
      exact hkeeps c a (by simp) b (by simp [hb]) (h b (by simp [hb]))
    · exact fun c a ha b hb => hkeeps c a (by simp [ha]) b (by simp [hb])

/-! ### At once -/

theorem atOnce_singleton (c : κ → Option V) (a : α) :
    atOnce target transform c [a] = edit target transform c a := by
  funext k
  by_cases hk : target a = k
  · subst hk
    simp [atOnce, last?]
  · simp [atOnce, last?, hk, edit_ne target transform c hk]

theorem last?_cons (a : α) (as : List α) (k : κ) :
    last? target (a :: as) k = (last? target as k).or (if target a = k then some a else none) := by
  by_cases hk : target a = k <;> simp [last?, hk]

theorem last?_eq_none_iff {as : List α} {k : κ} :
    last? target as k = none ↔ onKey target k as = [] := by
  simp [last?, onKey, List.filter_eq_nil_iff]

/-- The last edit of a key ends the edits of that key. -/
theorem onKey_of_last? {as : List α} {k : κ} {a : α} (h : last? target as k = some a) :
    ∃ before, onKey target k as = before ++ [a] := by
  induction as using List.reverseRecOn with
  | nil => simp [last?] at h
  | append_singleton as b ih =>
    by_cases hb : target b = k
    · have hlast : last? target (as ++ [b]) k = some b := by simp [last?, hb]
      obtain rfl := Option.some.inj (hlast.symm.trans h)
      exact ⟨onKey target k as, by simp [onKey, hb]⟩
    · have hlast : last? target (as ++ [b]) k = last? target as k := by simp [last?, hb]
      obtain ⟨before, hbefore⟩ := ih (hlast ▸ h)
      exact ⟨before, by simpa [onKey, hb] using hbefore⟩

end KeyedEdits
