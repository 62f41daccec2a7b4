/-! # Calls that may stop at any step

    A call is a sequence of steps over a shared store: statements, and requests
    to other services. It may be refused at a step and throw, or stop before any
    step (its connection or its process is gone), and what the steps before have
    written stays. `Triple P x Q E` says what holds of the store after the call
    returns (`Q`), and after it throws or stops (`E`). -/

namespace Call

/-- Why a call did not return. -/
inductive Failure (ε : Type u) where
  | stopped
  | thrown (e : ε)

/-- The store, and how many steps the call still makes before it stops; `none`: it does not. -/
structure World (σ : Type u) where
  store : σ
  stopsAfter : Option Nat

end Call

/-- A call over stores `σ` that throws an `ε` or returns an `α`. -/
def Call (σ ε α : Type) : Type := Call.World σ → Except (Call.Failure ε) α × Call.World σ

namespace Call

variable {σ ε α β : Type}

instance : Monad (Call σ ε) where
  pure a := fun w => (.ok a, w)
  bind x f := fun w =>
    match x w with
    | (.ok a, w') => f a w'
    | (.error e, w') => (.error e, w')

/-- Throw, without a step. -/
def throw (e : ε) : Call σ ε α := fun w => (.error (.thrown e), w)

/-- One step: it reads and writes the store, or is refused. -/
def step (f : σ → Except ε (α × σ)) : Call σ ε α := fun w =>
  match w.stopsAfter with
  | some 0 => (.error .stopped, w)
  | stopsAfter =>
    match f w.store with
    | .ok (a, store) => (.ok a, ⟨store, stopsAfter.map (· - 1)⟩)
    | .error e => (.error (.thrown e), ⟨w.store, stopsAfter.map (· - 1)⟩)

/-- One step that only reads, or asks another service. -/
def read (f : σ → Except ε α) : Call σ ε α := step fun store => (f store).map fun a => (a, store)

/-- Ghost: a mark in the store, which is no step of the call. -/
def ghost (f : σ → σ) : Call σ ε Unit := fun w => (.ok (), { w with store := f w.store })

/-! ### Running a call -/

theorem bind_apply (x : Call σ ε α) (f : α → Call σ ε β) (w : World σ) :
    (x >>= f) w =
      match x w with
      | (.ok a, w') => f a w'
      | (.error e, w') => (.error e, w') := rfl

theorem bind_ok {x : Call σ ε α} {f : α → Call σ ε β} {w w' : World σ} {a : α}
    (h : x w = (.ok a, w')) : (x >>= f) w = f a w' := by
  rw [bind_apply, h]

theorem bind_error {x : Call σ ε α} {f : α → Call σ ε β} {w w' : World σ} {e : Failure ε}
    (h : x w = (.error e, w')) : (x >>= f) w = (.error e, w') := by
  rw [bind_apply, h]

theorem step_stopped (f : σ → Except ε (α × σ)) (store : σ) :
    step f ⟨store, some 0⟩ = (.error .stopped, ⟨store, some 0⟩) := rfl

/-- The step is made: the call was not to stop before it. -/
theorem step_ok {f : σ → Except ε (α × σ)} {store store' : σ} {a : α}
    (h : f store = .ok (a, store')) {stopsAfter : Option Nat} (hgo : stopsAfter ≠ some 0) :
    step f ⟨store, stopsAfter⟩ = (.ok a, ⟨store', stopsAfter.map (· - 1)⟩) := by
  cases stopsAfter with
  | none => simp [step, h]
  | some n =>
    cases n with
    | zero => exact absurd rfl hgo
    | succ n => simp [step, h]

theorem step_error {f : σ → Except ε (α × σ)} {store : σ} {e : ε} (h : f store = .error e)
    {stopsAfter : Option Nat} (hgo : stopsAfter ≠ some 0) :
    step f ⟨store, stopsAfter⟩ = (.error (.thrown e), ⟨store, stopsAfter.map (· - 1)⟩) := by
  cases stopsAfter with
  | none => simp [step, h]
  | some n =>
    cases n with
    | zero => exact absurd rfl hgo
    | succ n => simp [step, h]

theorem read_ok {f : σ → Except ε α} {store : σ} {a : α} (h : f store = .ok a)
    {stopsAfter : Option Nat} (hgo : stopsAfter ≠ some 0) :
    read f ⟨store, stopsAfter⟩ = (.ok a, ⟨store, stopsAfter.map (· - 1)⟩) :=
  step_ok (by rw [h]; rfl) hgo

/-- A read of an undisturbed call. -/
theorem read_apply (f : σ → α) (store : σ) :
    (read fun store => .ok (f store) : Call σ ε α) ⟨store, none⟩ = (.ok (f store), ⟨store, none⟩) :=
  rfl

theorem bind_pure_store (x : Call σ ε α) (b : β) (w : World σ) :
    ((x >>= fun _ => (pure b : Call σ ε β)) w).2.store = (x w).2.store := by
  rw [bind_apply]
  split
  · next hrun => rw [hrun]; rfl
  · next hrun => rw [hrun]

/-! ### Triples -/

/-- From a store with `P` the call returns with `Q`, or does not return and leaves `E`. -/
def Triple (P : σ → Prop) (x : Call σ ε α) (Q : α → σ → Prop) (E : σ → Prop) : Prop :=
  ∀ w, P w.store →
    match x w with
    | (.ok a, w') => Q a w'.store
    | (.error _, w') => E w'.store

namespace Triple

variable {P : σ → Prop} {Q : α → σ → Prop} {R : β → σ → Prop} {E : σ → Prop}

theorem pure {a : α} (h : ∀ store, P store → Q a store) :
    Triple P (Pure.pure a : Call σ ε α) Q E :=
  fun w hw => h w.store hw

theorem throw {e : ε} (h : ∀ store, P store → E store) :
    Triple P (Call.throw e : Call σ ε α) Q E :=
  fun w hw => h w.store hw

theorem bind {x : Call σ ε α} {f : α → Call σ ε β} (hx : Triple P x Q E)
    (hf : ∀ a, Triple (Q a) (f a) R E) : Triple P (x >>= f) R E := by
  intro w hw
  have hxw := hx w hw
  rw [bind_apply]
  cases hrun : x w with
  | mk result w' =>
    rw [hrun] at hxw
    cases result with
    | ok a => exact hf a w' hxw
    | error e => exact hxw

/-- One step: stopping before it or being refused leaves the store. -/
theorem step {f : σ → Except ε (α × σ)} (hE : ∀ store, P store → E store)
    (hf : ∀ store a store', P store → f store = .ok (a, store') → Q a store') :
    Triple P (Call.step f) Q E := by
  intro w hw
  obtain ⟨store, stopsAfter⟩ := w
  by_cases hstop : stopsAfter = some 0
  · subst hstop
    exact hE store hw
  · cases hrun : f store with
    | ok result =>
      rw [step_ok hrun hstop]
      exact hf store result.1 result.2 hw hrun
    | error e =>
      rw [step_error hrun hstop]
      exact hE store hw

theorem read {f : σ → Except ε α} (hE : ∀ store, P store → E store)
    (hf : ∀ store a, P store → f store = .ok a → Q a store) : Triple P (Call.read f) Q E := by
  refine step hE ?_
  intro store a store' hw hrun
  cases hstore : f store with
  | ok b =>
    rw [hstore] at hrun
    obtain ⟨rfl, rfl⟩ := Prod.mk.inj (Except.ok.inj hrun)
    exact hf store b hw hstore
  | error e =>
    rw [hstore] at hrun
    cases hrun

/-- A read whose answer is known, and what follows it. -/
theorem read_bind {f : σ → Except ε α} {g : α → Call σ ε β} {a : α}
    (hE : ∀ store, P store → E store) (hf : ∀ store, P store → f store = .ok a)
    (hg : Triple P (g a) R E) : Triple P (Call.read f >>= g) R E := by
  refine .bind (Q := fun b store => P store ∧ b = a) (.read hE ?_) fun b => ?_
  · intro store b hP hrun
    rw [hf store hP] at hrun
    exact ⟨hP, (Except.ok.inj hrun).symm⟩
  · rintro w ⟨hw, rfl⟩
    exact hg w hw

/-- What the precondition says of the values alone. -/
theorem of_and {p : Prop} {x : Call σ ε α} (h : p → Triple P x Q E) :
    Triple (fun store => P store ∧ p) x Q E :=
  fun w hw => h hw.2 w hw.1

theorem ghost {f : σ → σ} {Q : Unit → σ → Prop} (h : ∀ store, P store → Q () (f store)) :
    Triple P (Call.ghost f : Call σ ε Unit) Q E :=
  fun w hw => h w.store hw

theorem conseq {x : Call σ ε α} {P' : σ → Prop} {Q' : α → σ → Prop}
    (hP : ∀ store, P store → P' store)
    (h : Triple P' x Q' E) (hQ : ∀ a store, Q' a store → Q a store) : Triple P x Q E := by
  intro w hw
  have hxw := h w (hP w.store hw)
  cases hrun : x w with
  | mk result w' =>
    rw [hrun] at hxw
    cases result with
    | ok a => exact hQ a w'.store hxw
    | error e => exact hxw

end Triple

/-- What a call leaves, whether it returns or not. -/
theorem Triple.final {P E : σ → Prop} {x : Call σ ε α} (h : Triple P x (fun _ => E) E) {w : World σ}
    (hw : P w.store) : E (x w).2.store := by
  have hxw := h w hw
  cases hrun : x w with
  | mk result w' =>
    rw [hrun] at hxw
    cases result with
    | ok a => exact hxw
    | error e => exact hxw

end Call
