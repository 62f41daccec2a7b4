import Mathlib.Logic.Function.Basic
import Notebortt.Lib.Transition

/-! # Programs of statements, interleaved over a shared store

    A program runs one statement after another. A statement runs at once: it
    reads the store it finds and may write it. Any number of programs run at
    the same time, so between two statements of one the others may write.

    A `Discipline` says what all of them keep: an invariant of the store, what
    a program may rely on to hold later of what it has read, and which writes
    are allowed in which store. What a program that follows it does is proved
    statement by statement, and `disciplined_of_reachableUnder` puts the
    programs together. A store may be part of a larger one that other programs
    share: what follows a discipline on the part follows it there. -/

open Transition

namespace Interleaving

/-- A program over stores `σ` whose writes are the `ω`. It ends with an `α`, or throws an `ε`. -/
inductive Program (σ ω ε α : Type) where
  | done (a : α)
  | fail (e : ε)
  /-- `next` is given the store that the statement found. -/
  | statement (write : Option ω) (next : σ → Program σ ω ε α)

namespace Program

variable {σ ω ε ε' α β : Type}

def bind : Program σ ω ε α → (α → Program σ ω ε β) → Program σ ω ε β
  | .done a, f => f a
  | .fail e, _ => .fail e
  | .statement write next, f => .statement write fun s => (next s).bind f

instance : Monad (Program σ ω ε) where
  pure := .done
  bind := bind

/-- `try .. catch`. -/
def orElse : Program σ ω ε α → (ε → Program σ ω ε' α) → Program σ ω ε' α
  | .done a, _ => .done a
  | .fail e, handler => handler e
  | .statement write next, handler => .statement write fun s => (next s).orElse handler

/-- A statement that only reads. -/
def read (f : σ → α) : Program σ ω ε α := .statement none fun s => .done (f s)

def ofExcept : Except ε α → Program σ ω ε α
  | .ok a => .done a
  | .error e => .fail e

/-- A statement that writes, with what it answers; a refused one throws. -/
def perform (write : ω) (answer : σ → Except ε α) : Program σ ω ε α :=
  .statement (some write) fun s => ofExcept (answer s)

@[simp] theorem pure_eq (a : α) : (pure a : Program σ ω ε α) = .done a := rfl

@[simp] theorem bind_done (a : α) (f : α → Program σ ω ε β) : (.done a >>= f) = f a := rfl

@[simp] theorem bind_fail (e : ε) (f : α → Program σ ω ε β) : (.fail e >>= f) = .fail e := rfl

theorem bind_assoc (p : Program σ ω ε α) (f : α → Program σ ω ε β)
    {γ : Type} (g : β → Program σ ω ε γ) : (p >>= f) >>= g = p >>= fun a => f a >>= g := by
  induction p with
  | done a => rfl
  | fail e => rfl
  | statement write next ih => exact congrArg (statement write) (funext ih)

end Program

/-! ### Disciplines -/

structure Discipline (σ ω : Type) where
  /-- Holds of the store between any two statements. -/
  inv : σ → Prop
  /-- What a program that has seen the first store may rely on in the second one. -/
  later : σ → σ → Prop
  /-- The write is allowed in the store. -/
  may : σ → ω → Prop

section discipline
variable {σ ω ε α β : Type} (apply : ω → σ → σ)

/-- The allowed writes keep the invariant and what others rely on. -/
structure Discipline.Sound (d : Discipline σ ω) : Prop where
  keeps : ∀ s w, d.inv s → d.may s w → d.inv (apply w s)
  moves : ∀ s w, d.inv s → d.may s w → d.later s (apply w s)
  refl : ∀ s, d.later s s
  trans : ∀ s s' s'', d.later s s' → d.later s' s'' → d.later s s''

/-- The store after a statement. -/
def after : Option ω → σ → σ
  | none, s => s
  | some w, s => apply w s

/-- From the store `s` on, whatever the others do by the discipline, the program writes only what
    it may, and ends as `Q` says. -/
def Program.Follows (d : Discipline σ ω) (Q : Except ε α → σ → Prop) :
    Program σ ω ε α → σ → Prop
  | .done a, s => Q (.ok a) s
  | .fail e, s => Q (.error e) s
  | .statement write next, s =>
    ∀ s', d.inv s' → d.later s s' →
      (∀ w, write = some w → d.may s' w) ∧ (next s').Follows d Q (after apply write s')

variable {apply} {d : Discipline σ ω} {Q Q' : Except ε α → σ → Prop}

theorem Program.Follows.mono {p : Program σ ω ε α} {s : σ} (h : p.Follows apply d Q s)
    (hQ : ∀ r s, Q r s → Q' r s) : p.Follows apply d Q' s := by
  induction p generalizing s with
  | done a => exact hQ _ _ h
  | fail e => exact hQ _ _ h
  | statement write next ih =>
    intro s' hinv hlater
    exact ⟨(h s' hinv hlater).1, ih s' (h s' hinv hlater).2⟩

/-- A program that is left alone for a while goes on as before. -/
theorem Program.Follows.later {p : Program σ ω ε α} {s s' : σ} (hd : d.Sound apply)
    (h : p.Follows apply d Q s) (hlater : d.later s s')
    (hQ : ∀ r, Q r s → Q r s') : p.Follows apply d Q s' := by
  cases p with
  | done a => exact hQ _ h
  | fail e => exact hQ _ h
  | statement write next =>
    intro s'' hinv hlater'
    exact h s'' hinv (hd.trans s s' s'' hlater hlater')

theorem Program.Follows.bind {p : Program σ ω ε α} {f : α → Program σ ω ε β} {s : σ}
    {Q : Except ε β → σ → Prop}
    (h : p.Follows apply d (fun r s => match r with
      | .ok a => (f a).Follows apply d Q s
      | .error e => Q (.error e) s) s) :
    (p >>= f).Follows apply d Q s := by
  induction p generalizing s with
  | done a => exact h
  | fail e => exact h
  | statement write next ih =>
    intro s' hinv hlater
    exact ⟨(h s' hinv hlater).1, ih s' (h s' hinv hlater).2⟩

/-- The store in which a program ends is later than the one it began in. -/
theorem Program.Follows.ends_later {p : Program σ ω ε α} {s : σ} (hd : d.Sound apply)
    (h : p.Follows apply d Q s) :
    p.Follows apply d (fun r s' => Q r s' ∧ d.later s s') s := by
  induction p generalizing s with
  | done a => exact ⟨h, hd.refl s⟩
  | fail e => exact ⟨h, hd.refl s⟩
  | statement write next ih =>
    intro s' hinv hlater
    obtain ⟨hmay, hnext⟩ := h s' hinv hlater
    refine ⟨hmay, (ih s' hnext).mono ?_⟩
    rintro r s'' ⟨hQ, hlater'⟩
    have hafter : d.later s' (after apply write s') := by
      cases write with
      | none => exact hd.refl s'
      | some w => exact hd.moves s' w hinv (hmay w rfl)
    exact ⟨hQ, hd.trans _ _ _ hlater (hd.trans _ _ _ hafter hlater')⟩

theorem Program.Follows.orElse {ε' : Type} {p : Program σ ω ε α}
    {handler : ε → Program σ ω ε' α} {s : σ} {Q : Except ε' α → σ → Prop}
    (h : p.Follows apply d (fun r s => match r with
      | .ok a => Q (.ok a) s
      | .error e => (handler e).Follows apply d Q s) s) :
    (p.orElse handler).Follows apply d Q s := by
  induction p generalizing s with
  | done a => exact h
  | fail e => exact h
  | statement write next ih =>
    intro s' hinv hlater
    exact ⟨(h s' hinv hlater).1, ih s' (h s' hinv hlater).2⟩

theorem Program.Follows.read {f : σ → α} {s : σ}
    (h : ∀ s', d.inv s' → d.later s s' → Q (.ok (f s')) s') :
    (Program.read f).Follows apply d Q s := by
  intro s' hinv hlater
  exact ⟨nofun, h s' hinv hlater⟩

theorem Program.follows_ofExcept {r : Except ε α} {s : σ} :
    (Program.ofExcept r).Follows apply d Q s ↔ Q r s := by
  cases r <;> rfl

theorem Program.Follows.perform {write : ω} {answer : σ → Except ε α} {s : σ}
    (h : ∀ s', d.inv s' → d.later s s' → d.may s' write ∧ Q (answer s') (apply write s')) :
    (Program.perform write answer).Follows apply d Q s := by
  intro s' hinv hlater
  obtain ⟨hmay, hQ⟩ := h s' hinv hlater
  refine ⟨?_, ?_⟩
  · rintro w ⟨rfl⟩
    exact hmay
  · exact Program.follows_ofExcept.mpr hQ

end discipline

/-! ### Sections -/

section sections
variable {σ ε α : Type} {inv : σ → Prop} {later : σ → σ → Prop}

/-- What runs at once between two statements of others: the store after it, and a result. -/
def Program.atomically (f : σ → σ × α) : Program σ (σ → σ) ε α :=
  .statement (some fun s => (f s).1) fun s => .done (f s).2

/-- The sections that keep the invariant and what others rely on are allowed. -/
def Discipline.keeping (inv : σ → Prop) (later : σ → σ → Prop) : Discipline σ (σ → σ) where
  inv := inv
  later := later
  may s f := inv (f s) ∧ later s (f s)

theorem Discipline.keeping_sound (hrefl : ∀ s, later s s)
    (htrans : ∀ s s' s'', later s s' → later s' s'' → later s s'') :
    (Discipline.keeping inv later).Sound (· ·) where
  keeps := fun _ _ _ h => h.1
  moves := fun _ _ _ h => h.2
  refl := hrefl
  trans := htrans

theorem Program.Follows.atomically {f : σ → σ × α} {s : σ} {Q : Except ε α → σ → Prop}
    (h : ∀ s', inv s' → later s s' →
      (inv (f s').1 ∧ later s' (f s').1) ∧ Q (.ok (f s').2) (f s').1) :
    (Program.atomically f : Program σ (σ → σ) ε α).Follows (· ·) (.keeping inv later) Q s := by
  intro s' hinv hlater
  refine ⟨?_, (h s' hinv hlater).2⟩
  rintro w ⟨rfl⟩
  exact (h s' hinv hlater).1

end sections

/-! ### Programs on a part of the store -/

section part
variable {σ σ' ω ω' ε α : Type} (part : σ' → σ) (lift : ω → ω')

/-- The program on a part of a larger store. -/
def Program.on : Program σ ω ε α → Program σ' ω' ε α
  | .done a => .done a
  | .fail e => .fail e
  | .statement write next => .statement (write.map lift) fun s => (next (part s)).on

@[simp] theorem Program.on_done (a : α) :
    (.done a : Program σ ω ε α).on part lift = (.done a : Program σ' ω' ε α) := rfl

@[simp] theorem Program.on_read (f : σ → α) :
    (.read f : Program σ ω ε α).on part lift = .read fun s => f (part s) := rfl

theorem Program.on_bind {β : Type} (p : Program σ ω ε α) (f : α → Program σ ω ε β) :
    (p >>= f).on part lift = p.on part lift >>= fun a => (f a).on part lift := by
  induction p with
  | done a => rfl
  | fail e => rfl
  | statement write next ih => exact congrArg (statement _) (funext fun s => ih (part s))

/-- What keeps the discipline `d'` of the whole keeps `d` on the part, and a write that `d` allows
    there is allowed by `d'`. -/
structure Discipline.Restricts (apply : ω → σ → σ) (apply' : ω' → σ' → σ') (d' : Discipline σ' ω')
    (d : Discipline σ ω) : Prop where
  inv : ∀ s, d'.inv s → d.inv (part s)
  later : ∀ s s', d'.later s s' → d.later (part s) (part s')
  may : ∀ s w, d'.inv s → d.may (part s) w → d'.may s (lift w)
  write : ∀ s w, part (apply' (lift w) s) = apply w (part s)

variable {part lift} {apply : ω → σ → σ} {apply' : ω' → σ' → σ'} {d' : Discipline σ' ω'}
  {d : Discipline σ ω}

theorem Discipline.Restricts.part_after (h : d'.Restricts part lift apply apply' d)
    (write : Option ω) (s : σ') :
    part (after apply' (write.map lift) s) = after apply write (part s) := by
  cases write with
  | none => rfl
  | some w => exact h.write s w

theorem Program.Follows.on {p : Program σ ω ε α} {Q : Except ε α → σ → Prop} {s : σ'}
    (hpart : d'.Restricts part lift apply apply' d)
    (h : p.Follows apply d Q (part s)) :
    (p.on part lift).Follows apply' d' (fun r s => Q r (part s)) s := by
  induction p generalizing s with
  | done a => exact h
  | fail e => exact h
  | statement write next ih =>
    intro s' hinv hlater
    obtain ⟨hmay, hnext⟩ := h (part s') (hpart.inv s' hinv) (hpart.later s s' hlater)
    refine ⟨?_, ih (part s') ?_⟩
    · intro w hw
      obtain ⟨w, rfl, rfl⟩ := Option.map_eq_some_iff.mp hw
      exact hpart.may s' w hinv (hmay w rfl)
    · rw [hpart.part_after]
      exact hnext

end part

/-! ### Programs that write only when they end well -/

section ends
variable {σ ω ε α β : Type}

/-- Whatever its statements find, the program ends as `good` says. -/
def Program.Ends (good : Except ε α → Prop) : Program σ ω ε α → Prop
  | .done a => good (.ok a)
  | .fail e => good (.error e)
  | .statement _ next => ∀ s, (next s).Ends good

/-- A result from which the rest of the program ends as `good` says. -/
def Program.goesOn (f : α → Program σ ω ε β) (good : Except ε β → Prop) : Except ε α → Prop
  | .ok a => (f a).Ends good
  | .error e => good (.error e)

/-- A result after which `try .. catch` ends as `good` says. -/
def Program.recovers {ε' : Type} (handler : ε → Program σ ω ε' α) (good : Except ε' α → Prop) :
    Except ε α → Prop
  | .ok a => good (.ok a)
  | .error e => (handler e).Ends good

theorem Program.Ends.bind {p : Program σ ω ε α} {f : α → Program σ ω ε β}
    {good : Except ε β → Prop}
    (h : p.Ends (Program.goesOn f good)) : (p >>= f).Ends good := by
  induction p with
  | done a => exact h
  | fail e => exact h
  | statement write next ih => exact fun s => ih s (h s)

theorem Program.Ends.orElse {ε' : Type} {p : Program σ ω ε α} {handler : ε → Program σ ω ε' α}
    {good : Except ε' α → Prop}
    (h : p.Ends (Program.recovers handler good)) : (p.orElse handler).Ends good := by
  induction p with
  | done a => exact h
  | fail e => exact h
  | statement write next ih => exact fun s => ih s (h s)

theorem Program.Ends.mono {p : Program σ ω ε α} {good good' : Except ε α → Prop}
    (h : p.Ends good) (hgood : ∀ r, good r → good' r) : p.Ends good' := by
  induction p with
  | done a => exact hgood _ h
  | fail e => exact hgood _ h
  | statement write next ih => exact fun s => ih s (h s)

theorem Program.ends_ofExcept {r : Except ε α} {good : Except ε α → Prop} :
    (Program.ofExcept r : Program σ ω ε α).Ends good ↔ good r := by
  cases r <;> rfl

variable (apply : ω → σ → σ) (same : σ → σ → Prop)

/-- A statement after which the store is not the same is followed by a good end only. -/
def Program.AllOrNothing (good : Except ε α → Prop) : Program σ ω ε α → Prop
  | .done _ | .fail _ => True
  | .statement write next => ∀ s,
    (same s (after apply write s) ∨ (next s).Ends good) ∧ (next s).AllOrNothing good

variable {apply same}

theorem Program.AllOrNothing.mono {p : Program σ ω ε α} {good good' : Except ε α → Prop}
    (h : p.AllOrNothing apply same good) (hgood : ∀ r, good r → good' r) :
    p.AllOrNothing apply same good' := by
  induction p with
  | done a => trivial
  | fail e => trivial
  | statement write next ih =>
    exact fun s => ⟨(h s).1.imp_right fun hends => hends.mono hgood, ih s (h s).2⟩

theorem Program.AllOrNothing.bind {p : Program σ ω ε α} {f : α → Program σ ω ε β}
    {good : Except ε β → Prop}
    (h : p.AllOrNothing apply same (Program.goesOn f good))
    (hf : ∀ a, (f a).AllOrNothing apply same good) :
    (p >>= f).AllOrNothing apply same good := by
  induction p with
  | done a => exact hf a
  | fail e => trivial
  | statement write next ih =>
    exact fun s => ⟨(h s).1.imp_right fun hends => .bind hends, ih s (h s).2⟩

theorem Program.AllOrNothing.orElse {ε' : Type} {p : Program σ ω ε α}
    {handler : ε → Program σ ω ε' α} {good : Except ε' α → Prop}
    (h : p.AllOrNothing apply same (Program.recovers handler good))
    (hhandler : ∀ e, (handler e).AllOrNothing apply same good) :
    (p.orElse handler).AllOrNothing apply same good := by
  induction p with
  | done a => trivial
  | fail e => exact hhandler e
  | statement write next ih =>
    exact fun s => ⟨(h s).1.imp_right fun hends => .orElse hends, ih s (h s).2⟩

theorem Program.AllOrNothing.read {f : σ → α} {good : Except ε α → Prop}
    (hsame : ∀ s, same s s) :
    (Program.read f).AllOrNothing apply same good := fun s => ⟨.inl (hsame s), trivial⟩

theorem Program.allOrNothing_ofExcept {r : Except ε α} {good : Except ε α → Prop} :
    (Program.ofExcept r).AllOrNothing apply same good := by
  cases r <;> trivial

theorem Program.AllOrNothing.perform {write : ω} {answer : σ → Except ε α}
    {good : Except ε α → Prop} (h : ∀ s, same s (apply write s) ∨ good (answer s)) :
    (Program.perform write answer).AllOrNothing apply same good := by
  intro s
  exact ⟨(h s).imp_right Program.ends_ofExcept.mpr, Program.allOrNothing_ofExcept⟩

end ends

/-! ### Programs at the same time -/

/-- The store, and for each thread the request it was started for and the rest of its program. -/
structure Running (Thread σ ρ ω ε α : Type) where
  store : σ
  running : Thread → Option (ρ × Program σ ω ε α)

inductive Label (Thread ρ : Type) where
  | start (t : Thread) (request : ρ)
  | resume (t : Thread)

section system
variable {Thread σ ρ ω ε α : Type} [DecidableEq Thread] (apply : ω → σ → σ)
  (admits : σ → ρ → Bool) (handle : ρ → Program σ ω ε α)

def step (s : Running Thread σ ρ ω ε α) :
    Label Thread ρ → Option (Running Thread σ ρ ω ε α)
  | .start t request =>
    match s.running t with
    | some _ => none
    | none =>
      if admits s.store request then
        some { s with running := Function.update s.running t (some (request, handle request)) }
      else none
  | .resume t =>
    match s.running t with
    | some (request, .statement write next) =>
      some {
        store := after apply write s.store
        running := Function.update s.running t (some (request, next s.store)) }
    | _ => none

/-- Nothing runs at the start. -/
structure Init (init : σ → Prop) (s : Running Thread σ ρ ω ε α) : Prop where
  store : init s.store
  idle : ∀ t, s.running t = none

variable (Thread) in
def system (init : σ → Prop) : System (Running Thread σ ρ ω ε α) (Label Thread ρ) where
  init := Init init
  step := step apply admits handle

variable {apply admits handle} {s s' : Running Thread σ ρ ω ε α}

/-- What a step does. -/
theorem step_eq_some {l : Label Thread ρ} (h : step apply admits handle s l = some s') :
    (∃ t request, l = .start t request ∧ admits s.store request = true ∧ s'.store = s.store ∧
      s'.running = Function.update s.running t (some (request, handle request))) ∨
    ∃ t request write next, l = .resume t ∧
      s.running t = some (request, .statement write next) ∧
      s'.store = after apply write s.store ∧
      s'.running = Function.update s.running t (some (request, next s.store)) := by
  cases l with
  | start t request =>
    simp only [step] at h
    split at h
    · cases h
    · split at h
      next hadmits =>
        obtain rfl := Option.some.inj h
        exact .inl ⟨t, request, rfl, hadmits, rfl, rfl⟩
      next => cases h
  | resume t =>
    simp only [step] at h
    split at h
    · next request write next hrunning =>
      obtain rfl := Option.some.inj h
      exact .inr ⟨t, request, write, next, rfl, hrunning, rfl, rfl⟩
    · cases h

/-- What a thread runs after a step: what it has run, a request just started, or what follows its
    statement. -/
theorem running_of_step {l : Label Thread ρ} {t : Thread} {request : ρ} {p : Program σ ω ε α}
    (h : step apply admits handle s l = some s') (hp : s'.running t = some (request, p)) :
    s.running t = some (request, p) ∨
    (l = .start t request ∧ admits s.store request = true ∧ p = handle request) ∨
    ∃ write next, l = .resume t ∧ s.running t = some (request, .statement write next) ∧
      s'.store = after apply write s.store ∧ p = next s.store := by
  rcases step_eq_some h with ⟨t', request', rfl, hadmits, -, hrunning⟩ |
    ⟨t', request', write, next, rfl, hat, hstore, hrunning⟩
  · rw [hrunning] at hp
    by_cases ht : t = t'
    · rw [ht, Function.update_self] at hp
      obtain ⟨rfl, rfl⟩ := Prod.mk.inj (Option.some.inj hp)
      exact .inr (.inl ⟨ht ▸ rfl, hadmits, rfl⟩)
    · rw [Function.update_of_ne ht] at hp
      exact .inl hp
  · rw [hrunning] at hp
    by_cases ht : t = t'
    · rw [ht, Function.update_self] at hp
      obtain ⟨rfl, rfl⟩ := Prod.mk.inj (Option.some.inj hp)
      exact .inr (.inr ⟨write, next, ht ▸ rfl, ht ▸ hat, hstore, rfl⟩)
    · rw [Function.update_of_ne ht] at hp
      exact .inl hp

/-- The store keeps the invariant and every program in its midst goes on by the discipline. -/
structure Disciplined (apply : ω → σ → σ) (d : Discipline σ ω)
    (Q : ρ → Except ε α → σ → Prop) (s : Running Thread σ ρ ω ε α) : Prop where
  inv : d.inv s.store
  follows : ∀ t request p, s.running t = some (request, p) →
    p.Follows apply d (Q request) s.store

variable {d : Discipline σ ω} {Q : ρ → Except ε α → σ → Prop}

/-- What a thread does next, with what the others may rely on of it. -/
theorem Disciplined.step (hd : d.Sound apply)
    (hQ : ∀ request r s s', d.inv s → d.later s s' → Q request r s → Q request r s')
    (h : Disciplined apply d Q s) {l : Label Thread ρ}
    (hstart : ∀ t request, l = .start t request → admits s.store request = true →
      (handle request).Follows apply d (Q request) s.store)
    (hstep : Interleaving.step apply admits handle s l = some s') :
    Disciplined apply d Q s' ∧ d.later s.store s'.store := by
  have hmoved : d.inv s'.store ∧ d.later s.store s'.store := by
    rcases step_eq_some hstep with ⟨t, request, -, -, hstore, -⟩ |
      ⟨t, request, write, next, -, hat, hstore, -⟩
    · rw [hstore]
      exact ⟨h.inv, hd.refl _⟩
    · obtain ⟨hmay, -⟩ := h.follows t request _ hat s.store h.inv (hd.refl _)
      rw [hstore]
      cases write with
      | none => exact ⟨h.inv, hd.refl _⟩
      | some w => exact ⟨hd.keeps _ w h.inv (hmay w rfl), hd.moves _ w h.inv (hmay w rfl)⟩
  refine ⟨⟨hmoved.1, ?_⟩, hmoved.2⟩
  intro t request p hp
  have hstays {p : Program σ ω ε α} (hp : p.Follows apply d (Q request) s.store) :
      p.Follows apply d (Q request) s'.store :=
    hp.later hd hmoved.2 fun r => hQ request r _ _ h.inv hmoved.2
  rcases running_of_step hstep hp with hold | ⟨hl, hadmits, rfl⟩ |
    ⟨write, next, -, hat, hstore, rfl⟩
  · exact hstays (h.follows t request p hold)
  · exact hstays (hstart t request hl hadmits)
  · rw [hstore]
    exact (h.follows t request _ hat s.store h.inv (hd.refl _)).2

omit [DecidableEq Thread] in
theorem Disciplined.init {init : σ → Prop} (hinit : ∀ s, init s → d.inv s)
    (hs : Init init s) : Disciplined apply d Q s := by
  refine ⟨hinit _ hs.store, ?_⟩
  intro t request p hp
  rw [hs.idle t] at hp
  cases hp

/-- Programs that follow a sound discipline, at the same time and under any schedule, keep its
    invariant. -/
theorem disciplined_of_reachableUnder {init : σ → Prop}
    {C : Running Thread σ ρ ω ε α → Label Thread ρ → Prop}
    (hd : d.Sound apply) (hinit : ∀ s, init s → d.inv s)
    (hQ : ∀ request r s s', d.inv s → d.later s s' → Q request r s → Q request r s')
    (hstart : ∀ s t request, C s (.start t request) → d.inv s.store →
      admits s.store request = true → (handle request).Follows apply d (Q request) s.store)
    (h : (system Thread apply admits handle init).ReachableUnder C s) :
    Disciplined apply d Q s := by
  refine h.invariant (I := Disciplined apply d Q) ?_ ?_
  · exact fun s hs => .init hinit hs
  · intro s l s' hs hC hstep
    refine (hs.step hd hQ ?_ hstep).1
    rintro t request rfl hadmits
    exact hstart s t request hC hs.inv hadmits

theorem disciplined_of_reachable {init : σ → Prop} (hd : d.Sound apply)
    (hinit : ∀ s, init s → d.inv s)
    (hQ : ∀ request r s s', d.inv s → d.later s s' → Q request r s → Q request r s')
    (hstart : ∀ s request, d.inv s → admits s request = true →
      (handle request).Follows apply d (Q request) s)
    (h : (system Thread apply admits handle init).Reachable s) :
    Disciplined apply d Q s := by
  refine h.invariant (I := Disciplined apply d Q) ?_ ?_
  · exact fun s hs => .init hinit hs
  · intro s l s' hs hstep
    refine (hs.step hd hQ ?_ hstep).1
    rintro t request - hadmits
    exact hstart s.store request hs.inv hadmits

/-- What one may rely on, along a whole run. -/
theorem later_of_exec {init : σ → Prop} (hd : d.Sound apply)
    (hQ : ∀ request r s s', d.inv s → d.later s s' → Q request r s → Q request r s')
    (hstart : ∀ s request, d.inv s → admits s request = true →
      (handle request).Follows apply d (Q request) s) :
    ∀ {ls : List (Label Thread ρ)} {s s' : Running Thread σ ρ ω ε α},
      Disciplined apply d Q s → (system Thread apply admits handle init).exec s ls = some s' →
      d.later s.store s'.store := by
  intro ls
  induction ls with
  | nil =>
    intro s s' _ hrun
    obtain rfl := Option.some.inj hrun
    exact hd.refl _
  | cons l ls ih =>
    intro s s' hs hrun
    simp only [System.exec] at hrun
    split at hrun
    · next s₁ hl =>
      obtain ⟨hs₁, hlater⟩ := hs.step hd hQ
        (fun t request _ hadmits => hstart s.store request hs.inv hadmits) hl
      exact hd.trans _ _ _ hlater (ih hs₁ hrun)
    · cases hrun

/-- A request that goes on ends as its program does. -/
theorem ends_of_exec {init : σ → Prop} {good : Except ε α → Prop} {t : Thread} {request : ρ} :
    ∀ {ls : List (Label Thread ρ)} {s s' : Running Thread σ ρ ω ε α} {p : Program σ ω ε α} {a : α},
      (system Thread apply admits handle init).exec s ls = some s' →
      s.running t = some (request, p) → p.Ends good →
      s'.running t = some (request, .done a) → good (.ok a) := by
  intro ls
  induction ls with
  | nil =>
    intro s s' p a hrun hp hends hdone
    obtain rfl := Option.some.inj hrun
    obtain ⟨-, rfl⟩ := Prod.mk.inj (Option.some.inj (hp.symm.trans hdone))
    exact hends
  | cons l ls ih =>
    intro s s' p a hrun hp hends hdone
    simp only [System.exec] at hrun
    split at hrun
    · next s₁ hl =>
      rcases step_eq_some hl with ⟨t', request', rfl, -, -, hrunning⟩ |
        ⟨t', request', write, next, rfl, hat, -, hrunning⟩
      · refine ih hrun ?_ hends hdone
        rw [hrunning, Function.update_of_ne, hp]
        -- a thread that runs is not started
        rintro rfl
        change step apply admits handle s (.start t request') = some s₁ at hl
        simp [step, hp] at hl
      · by_cases ht : t = t'
        · subst ht
          obtain ⟨rfl, rfl⟩ := Prod.mk.inj (Option.some.inj (hp.symm.trans hat))
          exact ih hrun (by rw [hrunning, Function.update_self]) (hends s.store) hdone
        · exact ih hrun (by rw [hrunning, Function.update_of_ne ht, hp]) hends hdone
    · cases hrun

/-- Every request started goes on by a rest of its program. -/
theorem allOrNothing_of_reachable {init : σ → Prop} {same : σ → σ → Prop}
    {good : Except ε α → Prop} {request : ρ}
    (hhandle : (handle request).AllOrNothing apply same good)
    (h : (system Thread apply admits handle init).Reachable s) {t : Thread}
    {p : Program σ ω ε α} (hp : s.running t = some (request, p)) :
    p.AllOrNothing apply same good := by
  refine h.invariant (I := fun s => ∀ p, s.running t = some (request, p) →
    p.AllOrNothing apply same good) ?_ ?_ p hp
  · intro s hs p hp
    rw [hs.idle t] at hp
    cases hp
  · intro s l s' hs hstep p hp
    rcases running_of_step hstep hp with hp | ⟨-, -, rfl⟩ | ⟨write, next, -, hat, -, rfl⟩
    · exact hs p hp
    · exact hhandle
    · exact (hs _ hat s.store).2

/-- A request that does not end well has left the store the same with each of its statements. -/
theorem same_of_bad_end {init : σ → Prop} {same : σ → σ → Prop} {good : Except ε α → Prop}
    {request : ρ} (hhandle : (handle request).AllOrNothing apply same good)
    {s₁ s₂ : Running Thread σ ρ ω ε α}
    (h : (system Thread apply admits handle init).Reachable s) {t : Thread}
    {p : Program σ ω ε α} (hp : s.running t = some (request, p))
    (hstep : step apply admits handle s (.resume t) = some s₁) {ls : List (Label Thread ρ)}
    (hrun : (system Thread apply admits handle init).exec s₁ ls = some s₂) {a : α}
    (hdone : s₂.running t = some (request, .done a)) (hbad : ¬ good (.ok a)) :
    same s.store s₁.store := by
  have hall := allOrNothing_of_reachable hhandle h hp
  rcases step_eq_some hstep with ⟨_, _, hl, -⟩ |
    ⟨t', request', write, next, hl, hat, hstore, hrunning⟩
  · cases hl
  · obtain rfl := Label.resume.inj hl
    obtain ⟨rfl, rfl⟩ := Prod.mk.inj (Option.some.inj (hp.symm.trans hat))
    rw [hstore]
    refine (hall s.store).1.resolve_right fun hends => hbad ?_
    exact ends_of_exec hrun (by rw [hrunning, Function.update_self]) hends hdone

end system

end Interleaving
