import Notebortt.BoardState.ChangeLog
import Notebortt.Lib.Transition

/-! # Board reads against changes

    Calls of `applyChangeSet` on a loaded board, one at a time under the mutation
    lock, each made of its read for the cascade, the INCR of the sequence and the
    write pipeline; and any number of readers, who take no lock: `getSnapshot`,
    whose MULTI is one step, and `GET /boards/:id/elements`, whose two reads are
    two. Both parse the hash into an object, which drops the key `__proto__`. -/

open Transition

namespace Notebortt.SnapshotReads

/-! ### State -/

/-- Where the call that holds the mutation lock is. -/
inductive WriteRun where
  | resolved (trackChangeLog : Bool) (changes : ElementChangeSet)
  | numbered (trackChangeLog : Bool) (change : PersistedElementChange)

/-- Where a `GET /boards/:id/elements` is. -/
inductive ReadRun where
  | idle
  /-- It has the elements. -/
  | elementsRead (elements : Dict BoardElement)

/-- What a reader returns. -/
structure Response where
  elements : Dict BoardElement
  sequence : Nat

structure State (Writer Reader : Type) where
  keys : BoardKeys
  writer : Option (Writer × WriteRun)
  read : Reader → ReadRun
  /-- Ghost: the keys at the start. -/
  loaded : BoardKeys
  /-- Ghost: the changes numbered since, in order. -/
  numbered : List PersistedElementChange
  /-- Ghost: what the readers have returned. -/
  returned : List Response

/-! ### Steps -/

inductive Label (Writer Reader : Type) where
  /-- The lock is taken, and the change set resolved. -/
  | resolve (w : Writer) (call : ApplyCall)
  /-- INCR of the sequence. -/
  | number (w : Writer)
  /-- The write pipeline. -/
  | write (w : Writer) (serverTimestamp : Nat)
  /-- MULTI: HGETALL and GET. -/
  | getSnapshot (r : Reader)
  /-- HGETALL of the REST read. -/
  | getElements (r : Reader)
  /-- GET of the REST read. -/
  | peekSequence (r : Reader)

section system
variable {Writer Reader : Type} [DecidableEq Writer] [DecidableEq Reader]

/-- Changes that are numbered and not written yet. -/
def State.pending (s : State Writer Reader) : Nat :=
  match s.writer with
  | some (_, .numbered _ _) => 1
  | _ => 0

def step (s : State Writer Reader) : Label Writer Reader → Option (State Writer Reader)
  | .resolve w call =>
    match s.writer with
    | none =>
      let resolved := resolveChangeSet
        (call.baseElementsForCascadeDelete.getD s.keys.elementList) call.changeSet
      -- an empty change set is not numbered, and the lock is free again
      if resolved.upserts.isEmpty && resolved.deletes.isEmpty then some s
      else some { s with writer := some (w, .resolved call.trackChangeLog resolved) }
    | some _ => none
  | .number w =>
    match s.writer with
    | some (holder, .resolved trackChangeLog changes) =>
      if holder = w then
        let numbered := getSequence s.keys
        let change : PersistedElementChange :=
          { sequence := numbered.1, upserts := changes.upserts, deletes := changes.deletes }
        some { s with
          keys := numbered.2
          writer := some (w, .numbered trackChangeLog change)
          numbered := s.numbered ++ [change] }
      else none
    | _ => none
  | .write w serverTimestamp =>
    match s.writer with
    | some (holder, .numbered trackChangeLog change) =>
      if holder = w then
        some { s with
          keys := runPipeline (writePipeline trackChangeLog serverTimestamp change) s.keys
          writer := none }
      else none
    | _ => none
  | .getSnapshot r =>
    match s.read r with
    | .idle =>
      some { s with
        returned := s.returned ++ [⟨parsedObject s.keys.elements, Notebortt.peekSequence s.keys⟩] }
    | _ => none
  | .getElements r =>
    match s.read r with
    | .idle =>
      some { s with
        read := Function.update s.read r (.elementsRead (parsedObject s.keys.elements)) }
    | _ => none
  | .peekSequence r =>
    match s.read r with
    | .elementsRead elements =>
      some { s with
        read := Function.update s.read r .idle
        returned := s.returned ++ [⟨elements, Notebortt.peekSequence s.keys⟩] }
    | _ => none

/-- A loaded board, with nobody at work on it. -/
structure Init (s : State Writer Reader) : Prop where
  seq : s.keys.seq.isSome
  loaded : s.loaded = s.keys
  writer : s.writer = none
  read : ∀ r, s.read r = .idle
  numbered : s.numbered = []
  returned : s.returned = []

def system (Writer Reader : Type) [DecidableEq Writer] [DecidableEq Reader] :
    System (State Writer Reader) (Label Writer Reader) where
  init := Init
  step := step

end system

/-! ### What a reader must get -/

/-- The elements are those after some of the changes, and among these is every
    change whose number is at most the one returned. -/
def Response.Contains (loaded : Dict BoardElement) (numbered : List PersistedElementChange)
    (response : Response) : Prop :=
  ∃ m, response.elements = replay loaded (numbered.take m) ∧
    ∀ i change, numbered[i]? = some change → change.sequence ≤ response.sequence → i < m

def ReadsAreCurrent {Writer Reader : Type} (s : State Writer Reader) : Prop :=
  ∀ response ∈ s.returned, response.Contains s.loaded.elements s.numbered

/-- No element is stored under the key that an object drops. -/
def ShowsAll (k : BoardKeys) : Prop := "__proto__" ∉ k.elements

/-- The step condition: elements are read while no call is between its INCR and its pipeline, and no
    call does its INCR while a reader is between its two reads. -/
def ReadsSettled {Writer Reader : Type} (s : State Writer Reader) : Label Writer Reader → Prop
  | .getSnapshot _ => s.pending = 0 ∧ ShowsAll s.keys
  | .getElements _ => s.pending = 0 ∧ ShowsAll s.keys
  | .number _ => ∀ r elements, s.read r ≠ .elementsRead elements
  | _ => True

/-! ### The invariant -/

section proofs
variable {Writer Reader : Type}

/-- The elements are those after the first changes, whose numbers reach the
    sequence. -/
structure Response.Settled (loaded : BoardKeys) (numbered : List PersistedElementChange)
    (response : Response) (m : Nat) : Prop where
  le : m ≤ numbered.length
  elements : response.elements = replay loaded.elements (numbered.take m)
  sequence : response.sequence ≤ peekSequence loaded + m

structure Inv (s : State Writer Reader) : Prop where
  sequence : peekSequence s.keys = peekSequence s.loaded + s.numbered.length
  numbers : ∀ i change, s.numbered[i]? = some change →
    change.sequence = peekSequence s.loaded + 1 + i
  pending : ∀ w trackChangeLog change, s.writer = some (w, .numbered trackChangeLog change) →
    s.numbered.getLast? = some change
  elements : s.keys.elements =
    replay s.loaded.elements (s.numbered.take (s.numbered.length - s.pending))
  reads : ∀ r elements, s.read r = .elementsRead elements →
    elements = replay s.loaded.elements s.numbered
  returned : ∀ response ∈ s.returned, ∃ m, response.Settled s.loaded s.numbered m

theorem Response.Settled.append {loaded : BoardKeys} {numbered : List PersistedElementChange}
    {response : Response} {m : Nat} (h : response.Settled loaded numbered m)
    (change : PersistedElementChange) : response.Settled loaded (numbered ++ [change]) m := by
  refine ⟨?_, ?_, h.sequence⟩
  · have hle := h.le
    rw [List.length_append]
    omega
  · rw [List.take_append_of_le_length h.le]
    exact h.elements

/-- Every change numbered so far up to the sequence returned is among the first. -/
theorem Response.Settled.contains {loaded : BoardKeys} {numbered : List PersistedElementChange}
    {response : Response} {m : Nat} (h : response.Settled loaded numbered m)
    (hnumbers : ∀ i change, numbered[i]? = some change →
      change.sequence = peekSequence loaded + 1 + i) :
    response.Contains loaded.elements numbered := by
  refine ⟨m, h.elements, ?_⟩
  intro i change hchange hle
  have hnumber := hnumbers i change hchange
  have hsequence := h.sequence
  omega

theorem inv_init {s : State Writer Reader} (h : Init s) : Inv s := by
  constructor
  · rw [h.loaded, h.numbered]
    rfl
  · intro i change hchange
    rw [h.numbered] at hchange
    simp at hchange
  · intro w trackChangeLog change hwriter
    rw [h.writer] at hwriter
    cases hwriter
  · rw [h.numbered, h.loaded, List.take_nil]
    rfl
  · intro r elements hread
    rw [h.read r] at hread
    cases hread
  · intro response hresponse
    rw [h.returned] at hresponse
    cases hresponse

/-- The pipeline of the change in flight brings the elements up to the last number. -/
theorem Inv.written {s : State Writer Reader} (h : Inv s) {w : Writer} {trackChangeLog : Bool}
    {change : PersistedElementChange}
    (hwriter : s.writer = some (w, .numbered trackChangeLog change)) :
    change.applyTo s.keys.elements = replay s.loaded.elements s.numbered := by
  have hpending : s.pending = 1 := by simp [State.pending, hwriter]
  obtain ⟨earlier, hearlier⟩ : ∃ earlier, s.numbered = earlier ++ [change] :=
    List.getLast?_eq_some_iff.mp (h.pending w trackChangeLog change hwriter)
  have helements := h.elements
  rw [hpending, hearlier, List.length_append, List.length_singleton, Nat.add_sub_cancel,
    List.take_left' rfl] at helements
  rw [helements, hearlier, replay_append]
  rfl

theorem parsedObject_of_showsAll {k : BoardKeys} (h : ShowsAll k) :
    parsedObject k.elements = k.elements :=
  AList.ext (List.kerase_of_notMem_keys h)

/-- Elements that are read while nothing is in flight have every change. -/
theorem Inv.settled {s : State Writer Reader} (h : Inv s) (hpending : s.pending = 0)
    (hshows : ShowsAll s.keys) :
    parsedObject s.keys.elements = replay s.loaded.elements s.numbered := by
  rw [parsedObject_of_showsAll hshows, h.elements, hpending, Nat.sub_zero, List.take_length]

/-- The new change takes the next number, and is the one in flight. -/
theorem Inv.number {s : State Writer Reader} (h : Inv s)
    (hreads : ∀ r elements, s.read r ≠ .elementsRead elements) {holder w : Writer}
    {trackChangeLog : Bool}
    {changes : ElementChangeSet}
    (hwriter : s.writer = some (holder, .resolved trackChangeLog changes))
    {change : PersistedElementChange} (hchange : change.sequence = (getSequence s.keys).1) :
    Inv { s with
      keys := (getSequence s.keys).2
      writer := some (w, .numbered trackChangeLog change)
      numbered := s.numbered ++ [change] } := by
  -- before the INCR nothing is in flight
  have hpending : s.pending = 0 := by simp [State.pending, hwriter]
  have helements := h.elements
  rw [hpending, Nat.sub_zero, List.take_length] at helements
  have hsequence := h.sequence
  constructor
  · simp only [getSequence, peekSequence, Option.getD_some, List.length_append,
      List.length_singleton] at hsequence ⊢
    omega
  · intro i change' hget
    rcases Nat.lt_or_ge i s.numbered.length with hlt | hge
    · rw [List.getElem?_append_left hlt] at hget
      exact h.numbers i change' hget
    · -- past the earlier changes there is only the new one
      rw [List.getElem?_append_right hge] at hget
      cases hi : i - s.numbered.length with
      | zero =>
        rw [hi] at hget
        obtain rfl := Option.some.inj hget
        rw [hchange]
        simp only [getSequence]
        omega
      | succ n =>
        rw [hi] at hget
        cases hget
  · intro w' tracked change' hnext
    cases hnext
    exact List.getLast?_concat
  · simp only [State.pending, List.length_append, List.length_singleton, Nat.add_sub_cancel,
      List.take_left' rfl]
    exact helements
  · exact fun r elements hread => absurd hread (hreads r elements)
  · intro response hresponse
    obtain ⟨m, hm⟩ := h.returned response hresponse
    exact ⟨m, hm.append _⟩

theorem Inv.write {s : State Writer Reader} (h : Inv s) {holder : Writer} {trackChangeLog : Bool}
    {change : PersistedElementChange}
    (hwriter : s.writer = some (holder, .numbered trackChangeLog change)) (serverTimestamp : Nat) :
    Inv ({ s with
      keys := runPipeline (writePipeline trackChangeLog serverTimestamp change) s.keys
      writer := none } : State Writer Reader) := by
  have hwritten := written_runPipeline trackChangeLog serverTimestamp change s.keys
  constructor
  · simp only [peekSequence, hwritten.seq]
    exact h.sequence
  · exact h.numbers
  · intro w' tracked change' hnext
    cases hnext
  · simp only [State.pending, Nat.sub_zero, List.take_length, hwritten.elements]
    exact h.written hwriter
  · exact h.reads
  · exact h.returned

theorem Inv.respond {s : State Writer Reader} (h : Inv s) {response : Response} {m : Nat}
    (hresponse : response.Settled s.loaded s.numbered m) :
    Inv { s with returned := s.returned ++ [response] } := by
  refine ⟨h.sequence, h.numbers, h.pending, h.elements, h.reads, ?_⟩
  intro response' hmem
  rcases List.mem_append.mp hmem with hold | hnew
  · exact h.returned response' hold
  · rw [List.mem_singleton.mp hnew]
    exact ⟨m, hresponse⟩

variable [DecidableEq Writer] [DecidableEq Reader]

omit [DecidableEq Writer] in
theorem Inv.setRead {s : State Writer Reader} (h : Inv s) (r : Reader) {run : ReadRun}
    (hrun : ∀ elements, run = .elementsRead elements →
      elements = replay s.loaded.elements s.numbered) :
    Inv { s with read := Function.update s.read r run } := by
  refine ⟨h.sequence, h.numbers, h.pending, h.elements, ?_, h.returned⟩
  intro r' elements hread
  by_cases hr : r' = r
  · simp only [hr, Function.update_self] at hread
    exact hrun elements hread
  · simp only [Function.update_of_ne hr] at hread
    exact h.reads r' elements hread

theorem inv_step {s s' : State Writer Reader} {l : Label Writer Reader} (h : Inv s)
    (hsettled : ReadsSettled s l) (hstep : step s l = some s') : Inv s' := by
  cases l with
  | resolve w call =>
    simp only [step] at hstep
    split at hstep
    · next hidle =>
      split at hstep
      · obtain rfl := Option.some.inj hstep
        exact h
      · obtain rfl := Option.some.inj hstep
        have hpending : s.pending = 0 := by simp [State.pending, hidle]
        have helements := h.elements
        rw [hpending] at helements
        refine ⟨h.sequence, h.numbers, ?_, helements, h.reads, h.returned⟩
        intro w' trackChangeLog change hwriter
        cases hwriter
    · cases hstep
  | number w =>
    simp only [step] at hstep
    split at hstep
    · next holder trackChangeLog changes hwriter =>
      split at hstep
      · obtain rfl := Option.some.inj hstep
        exact h.number hsettled hwriter rfl
      · cases hstep
    · cases hstep
  | write w serverTimestamp =>
    simp only [step] at hstep
    split at hstep
    · next holder trackChangeLog change hwriter =>
      split at hstep
      · obtain rfl := Option.some.inj hstep
        exact h.write hwriter serverTimestamp
      · cases hstep
    · cases hstep
  | getSnapshot r =>
    simp only [step] at hstep
    split at hstep
    · obtain rfl := Option.some.inj hstep
      refine h.respond ⟨Nat.le_refl s.numbered.length, ?_, Nat.le_of_eq h.sequence⟩
      rw [List.take_length]
      exact h.settled hsettled.1 hsettled.2
    · cases hstep
  | getElements r =>
    simp only [step] at hstep
    split at hstep
    · obtain rfl := Option.some.inj hstep
      refine h.setRead r ?_
      intro elements hread
      cases hread
      exact h.settled hsettled.1 hsettled.2
    · cases hstep
  | peekSequence r =>
    simp only [step] at hstep
    split at hstep
    · next elements hread =>
      obtain rfl := Option.some.inj hstep
      -- nothing was numbered since the elements were read
      have helements := h.reads r elements hread
      have hidle : Inv { s with read := Function.update s.read r .idle } := by
        refine h.setRead r ?_
        intro elements heq
        cases heq
      refine hidle.respond ⟨Nat.le_refl s.numbered.length, ?_, Nat.le_of_eq h.sequence⟩
      rw [List.take_length]
      exact helements
    · cases hstep

/-- In every run whose reads keep out of the way of the numbered changes, what a reader returns
    contains every change up to its number. -/
theorem readsAreCurrent_of_settled {s : State Writer Reader}
    (hs : (system Writer Reader).ReachableUnder ReadsSettled s) : ReadsAreCurrent s := by
  have hinv : Inv s := by
    refine hs.invariant ?_ ?_
    · intro s h
      exact inv_init h
    · intro s l s' h hsettled hstep
      exact inv_step h hsettled hstep
  intro response hresponse
  obtain ⟨m, hm⟩ := hinv.returned response hresponse
  exact hm.contains hinv.numbers

end proofs

/-! ### Two runs -/

/-- An empty board. -/
def start : State Unit Unit where
  keys := { seq := some 0 }
  writer := none
  read := fun _ => .idle
  loaded := { seq := some 0 }
  numbered := []
  returned := []

theorem start_init : Init start where
  seq := rfl
  loaded := rfl
  writer := rfl
  read := fun _ => rfl
  numbered := rfl
  returned := rfl

/-- A note is stored, and then read. -/
theorem readsAreCurrent_of_settled_run :
    ∃ s : State Unit Unit, (∃ response ∈ s.returned, response.sequence = 1 ∧
      (response.elements.lookup "x").isSome) ∧ ReadsAreCurrent s := by
  have h₀ : (system Unit Unit).ReachableUnder ReadsSettled start := .init start_init
  have h₁ := h₀.step (Label.resolve () (storeNote "x" true)) trivial rfl
  have h₂ := h₁.step (Label.number ()) (fun r elements => nofun) rfl
  have h₃ := h₂.step (Label.write () 0) trivial rfl
  have h₄ := h₃.step (Label.getSnapshot ()) ⟨rfl, show "__proto__" ∉ _ by decide⟩ rfl
  exact ⟨_, ⟨_, List.mem_singleton_self _, rfl, rfl⟩, readsAreCurrent_of_settled h₄⟩

/-- The snapshot is taken between the INCR and the pipeline: it has number 1 and
    no element. -/
theorem snapshot_misses_numbered_change :
    ∃ s : State Unit Unit, (system Unit Unit).Reachable s ∧ ¬ ReadsAreCurrent s := by
  obtain ⟨s, hs, hnumbered, hreturned, hloaded⟩ : ∃ s, (system Unit Unit).exec start
      [.resolve () (storeNote "x" true), .number (), .getSnapshot ()] = some s ∧
        s.numbered = [⟨1, [⟨"x", ∅⟩], []⟩] ∧ s.returned = [⟨∅, 1⟩] ∧ s.loaded.elements = ∅ :=
    ⟨_, rfl, rfl, rfl, rfl⟩
  refine ⟨s, .exec (.init start_init) hs, ?_⟩
  intro hcurrent
  obtain ⟨m, helements, hnumber⟩ := hcurrent ⟨∅, 1⟩
    (by rw [hreturned]; exact List.mem_singleton_self _)
  have hpos : 0 < m := hnumber 0 ⟨1, [⟨"x", ∅⟩], []⟩ (by rw [hnumbered]; rfl) (by decide)
  have hall : s.numbered.take m = s.numbered :=
      List.take_of_length_le (by rw [hnumbered]; exact hpos)
  rw [hall, hnumbered, hloaded] at helements
  have hx : (none : Option BoardElement) = some ⟨"x", ∅⟩ :=
    congrArg (fun elements : Dict BoardElement => elements.lookup "x") helements
  cases hx

end Notebortt.SnapshotReads
