import Mathlib.Data.Fintype.Basic
import Notebortt.Realtime.BatchHandlers

/-! # The order of a socket's own batches

    The lock queue of a process is first come, first served, and a handler keeps
    its place at the head until its batch is processed. It enters the queue once
    its refresh of the activity is over: at once when the throttle skips the
    refresh, and some Redis calls later when it does not. -/

open Transition
open Notebortt.SocketBatches (Batch)

namespace Notebortt.BatchHandlers

section arrivals
variable {Handler Socket Process Other : Type} {cfg : Config} {boardId : String}
  {net : Layout Handler Socket Process} {s s' : State Handler Socket Process Other}

/-- The batch of `a` arrived before that of `b`, from the same socket. -/
def Earlier (net : Layout Handler Socket Process) (s : State Handler Socket Process Other)
    (a b : Handler) : Prop :=
  [a, b].Sublist s.arrived ∧ net.socket a = net.socket b

/-- The batches of a socket get their numbers in the order of their arrival. -/
def NumberedInOrder (net : Layout Handler Socket Process)
    (s : State Handler Socket Process Other) : Prop :=
  ∀ a b, Earlier net s a b → ∀ n ∈ s.numbers a, ∀ n' ∈ s.numbers b, n < n'

def Phase.isRefreshing : Phase Socket → Bool
  | .refreshing => true
  | _ => false

instance [DecidableEq Handler] [DecidableEq Socket] (a b : Handler) :
    Decidable (Earlier net s a b) := by
  unfold Earlier
  infer_instance

section condition
variable [DecidableEq Handler] [DecidableEq Other]

/-- The step condition: a handler queues for the lock only when no earlier batch of
    its socket is still refreshing the activity, and a counter that has given out a
    number is neither deleted nor set by a load. -/
def EntersInTurn (net : Layout Handler Socket Process) (s : State Handler Socket Process Other) :
    Label Handler Socket Other → Prop
  | .arrive h _ => shouldWriteActivity net s (net.socket h) = false →
    ∀ a ∈ s.arrived, net.socket a = net.socket h → (s.phase a).isRefreshing = false
  | .refreshed h true => ∀ a ∈ s.arrived, Earlier net s a h → (s.phase a).isRefreshing = false
  | .board l => BoardCommands.KeepsCounter s.board l
  | _ => True

instance [DecidableEq Socket] (s : State Handler Socket Process Other)
    (l : Label Handler Socket Other) : Decidable (EntersInTurn net s l) := by
  unfold EntersInTurn
  split
  · infer_instance
  · exact List.decidableBAll _ _
  · infer_instance
  · infer_instance

end condition

/-! ### What a step keeps -/

/-- What is known of an earlier and a later batch of one socket. -/
structure PairInTurn (net : Layout Handler Socket Process) (s : State Handler Socket Process Other)
    (a b : Handler) : Prop where
  /-- The later one waits as long as the earlier one refreshes the activity. -/
  refreshing : s.phase a = .refreshing → b ∉ s.queue (net.process (net.socket b)) ∧ s.numbers b = []
  /-- It queues behind it. -/
  queued : a ∈ s.queue (net.process (net.socket b)) → s.numbers b = [] ∧
    (b ∈ s.queue (net.process (net.socket b)) →
      [a, b].Sublist (s.queue (net.process (net.socket b))))
  numbers : ∀ n ∈ s.numbers a, ∀ n' ∈ s.numbers b, n < n'

structure InTurn (net : Layout Handler Socket Process) (s : State Handler Socket Process Other) :
    Prop where
  pairs : ∀ a b, Earlier net s a b → PairInTurn net s a b
  numbers_le : ∀ h, ∀ n ∈ s.numbers h, n ≤ peekSequence s.board.keys

theorem Base.earlier_ne (hb : Base net s) {a b : Handler} (h : Earlier net s a b) :
    a ≠ b := by
  have hnodup := hb.arrivedNodup.sublist h.1
  simp only [List.nodup_cons, List.mem_singleton] at hnodup
  exact hnodup.1

/-- Off the head, a pair is in the rest of the list. -/
theorem sublist_tail {α : Type} {a b x : α} {xs : List α} (h : [a, b].Sublist (x :: xs))
    (hne : a ≠ x) :
    [a, b].Sublist xs := by
  cases h with
  | cons _ hrest => exact hrest
  | cons_cons _ hrest => exact absurd rfl hne

/-- A pair in a list with one more at the end. -/
theorem sublist_concat {α : Type} {a b x : α} {xs : List α} (h : [a, b].Sublist (xs ++ [x])) :
    [a, b].Sublist xs ∨ a ∈ xs ∧ b = x := by
  obtain ⟨front, back, hsplit, hfront, hback⟩ := List.sublist_append_iff.mp h
  rcases List.sublist_singleton.mp hback with rfl | rfl
  · rw [List.append_nil] at hsplit
    exact .inl (hsplit ▸ hfront)
  · obtain ⟨rfl, hlast⟩ := List.append_inj' (show [a] ++ [b] = front ++ [x] from hsplit) rfl
    exact .inr ⟨List.singleton_sublist.mp hfront, (List.cons.inj hlast).1⟩

theorem mem_of_concat {α : Type} {a x : α} {xs ys : List α} (h : ys = xs ∨ ys = xs ++ [x])
    (hne : a ≠ x) : a ∈ ys ↔ a ∈ xs := by
  rcases h with rfl | rfl
  · rfl
  · simp [hne]

theorem sublist_of_concat {α : Type} {x : α} {xs ys : List α} (h : ys = xs ∨ ys = xs ++ [x]) :
    xs.Sublist ys := by
  rcases h with rfl | rfl
  · exact List.Sublist.refl _
  · exact List.sublist_append_left _ _

/-- A step that leaves the queues and the numbers, and starts no refresh. -/
theorem InTurn.of_phase (h : InTurn net s) (hqueue : s'.queue = s.queue)
    (harrived : s'.arrived = s.arrived) (hnumbers : s'.numbers = s.numbers)
    (hcounter : peekSequence s.board.keys ≤ peekSequence s'.board.keys)
    (hphase : ∀ a, s'.phase a = .refreshing → s.phase a = .refreshing) : InTurn net s' := by
  constructor
  · intro a b hpair
    rw [Earlier, harrived] at hpair
    have hold := h.pairs a b hpair
    refine ⟨fun ha => ?_, ?_, ?_⟩
    · rw [hqueue, hnumbers]
      exact hold.refreshing (hphase a ha)
    · rw [hqueue, hnumbers]
      exact hold.queued
    · rw [hnumbers]
      exact hold.numbers
  · intro x n hn
    rw [hnumbers] at hn
    exact (h.numbers_le x n hn).trans hcounter

/-- A batch that arrives is the last of its socket: what holds of the pairs before
    it, and of it behind each of them, is enough. -/
theorem InTurn.of_arrival (h : InTurn net s) (hb : Base net s) {x : Handler}
    (hidle : s.phase x = .idle) (hboard : s'.board = s.board)
    (harrived : s'.arrived = s.arrived ++ [x]) (hnumbers : s'.numbers = s.numbers)
    (hphase : ∀ a, a ≠ x → s'.phase a = s.phase a)
    (hqueue : ∀ p, s'.queue p = s.queue p ∨ s'.queue p = s.queue p ++ [x])
    (hbehind : ∀ a ∈ s.arrived, net.socket a = net.socket x → s.phase a = .refreshing →
      x ∉ s'.queue (net.process (net.socket x))) : InTurn net s' := by
  have hnew : ∀ a ∈ s.arrived, a ≠ x := by
    rintro a ha rfl
    exact hb.arrived a ha hidle
  have hmem : ∀ p a, a ≠ x → (a ∈ s'.queue p ↔ a ∈ s.queue p) :=
    fun p _ ha => mem_of_concat (hqueue p) ha
  have hsub : ∀ p, (s.queue p).Sublist (s'.queue p) := fun p => sublist_of_concat (hqueue p)
  constructor
  · intro a b hpair
    obtain ⟨hsublist, hsocket⟩ := hpair
    rw [harrived] at hsublist
    rcases sublist_concat hsublist with hold | ⟨ha, rfl⟩
    · have hax : a ≠ x := hnew a (hold.subset (by simp))
      have hbx : b ≠ x := hnew b (hold.subset (by simp))
      have hpair := h.pairs a b ⟨hold, hsocket⟩
      refine ⟨fun hrefreshing => ?_, fun hqueued => ?_, ?_⟩
      · rw [hphase a hax] at hrefreshing
        rw [hmem _ b hbx, hnumbers]
        exact hpair.refreshing hrefreshing
      · rw [hmem _ a hax] at hqueued
        rw [hmem _ b hbx, hnumbers]
        exact ⟨(hpair.queued hqueued).1, fun hb => ((hpair.queued hqueued).2 hb).trans (hsub _)⟩
      · rw [hnumbers]
        exact hpair.numbers
    · -- the new batch is behind every earlier one, and has no numbers yet
      have hfresh : s'.numbers b = [] := by
        rw [hnumbers]
        exact hb.fresh b hidle
      refine ⟨fun hrefreshing => ⟨?_, hfresh⟩, fun hqueued => ⟨hfresh, fun hbq => ?_⟩, ?_⟩
      · rw [hphase a (hnew a ha)] at hrefreshing
        exact hbehind a ha hsocket hrefreshing
      · rcases hqueue (net.process (net.socket b)) with hsame | hmore
        · rw [hsame] at hbq
          exact absurd hbq (hb.queues.not_mem (by rw [hidle]; rfl) _)
        · rw [hmem _ a (hnew a ha)] at hqueued
          rw [hmore]
          exact (List.singleton_sublist.mpr hqueued).append (List.Sublist.refl [b])
      · intro n _ n' hn'
        rw [hfresh] at hn'
        cases hn'
  · intro y n hn
    rw [hnumbers] at hn
    rw [hboard]
    exact h.numbers_le y n hn

/-- Nothing that is behind another handler of its socket is at the head. -/
theorem Base.head_first (hb : Base net s) {x a : Handler}
    (hhead : (s.queue (net.process (net.socket x))).head? = some x) (hne : a ≠ x) :
    ¬ [a, x].Sublist (s.queue (net.process (net.socket x))) := by
  intro hbehind
  have hnodup := hb.queues.nodup (net.process (net.socket x))
  rw [queue_eq_cons hhead] at hbehind hnodup
  exact (List.nodup_cons.mp hnodup).1 ((sublist_tail hbehind hne).subset (by simp))

section queues
variable [DecidableEq Handler] [DecidableEq Process]

/-- A refreshed handler goes to the end of its queue. -/
theorem InTurn.enter (h : InTurn net s) (hb : Base net s) {x : Handler}
    (hrefreshing : s.phase x = .refreshing)
    (hturn : ∀ a ∈ s.arrived, Earlier net s a x → (s.phase a).isRefreshing = false) :
    InTurn net (s.enter net x) := by
  have hphase : ∀ a, a ≠ x → (s.enter net x).phase a = s.phase a := by
    intro a ha
    simp [State.enter, State.setPhase, ha]
  have hself : (s.enter net x).phase x = .queued := by
    simp [State.enter, State.setPhase]
  have hqueue : ∀ p,
      (s.enter net x).queue p = s.queue p ∨ (s.enter net x).queue p = s.queue p ++ [x] := by
    intro p
    by_cases hp : p = net.process (net.socket x)
    · subst hp
      exact .inr (by simp [State.enter])
    · exact .inl (by simp [State.enter, hp])
  have hmem : ∀ p a, a ≠ x → (a ∈ (s.enter net x).queue p ↔ a ∈ s.queue p) :=
    fun p _ ha => mem_of_concat (hqueue p) ha
  constructor
  · intro a b hpair
    have hne := hb.earlier_ne hpair
    have hold := h.pairs a b hpair
    refine ⟨fun ha => ?_, fun ha => ?_, hold.numbers⟩
    · have hax : a ≠ x := by
        rintro rfl
        rw [hself] at ha
        cases ha
      rw [hphase a hax] at ha
      have hbx : b ≠ x := by
        rintro rfl
        -- the condition: no earlier batch is still refreshing
        have hover := hturn a (hpair.1.subset (by simp)) hpair
        rw [ha] at hover
        cases hover
      rw [hmem _ b hbx]
      exact hold.refreshing ha
    · by_cases hax : a = x
      · -- the later one was waiting for it
        subst hax
        obtain ⟨hwaits, hfresh⟩ := hold.refreshing hrefreshing
        rw [hmem _ b hne.symm]
        exact ⟨hfresh, fun hbq => absurd hbq hwaits⟩
      · rw [hmem _ a hax] at ha
        refine ⟨(hold.queued ha).1, fun hbq => ?_⟩
        by_cases hbx : b = x
        · subst hbx
          rcases hqueue (net.process (net.socket b)) with hsame | hmore
          · rw [hsame] at hbq ⊢
            exact (hold.queued ha).2 hbq
          · rw [hmore]
            exact (List.singleton_sublist.mpr ha).append (List.Sublist.refl [b])
        · rw [hmem _ b hbx] at hbq
          exact ((hold.queued ha).2 hbq).trans (sublist_of_concat (hqueue _))
  · exact h.numbers_le

/-- The handler at the head of a queue is gone from `s'`, and the others stand as
    they stood. -/
structure LeavesHead (s s' : State Handler Socket Process Other) (x : Handler) : Prop where
  gone : ∀ p, x ∉ s'.queue p
  kept : ∀ p a, a ∈ s'.queue p → a ∈ s.queue p
  behind : ∀ p a b, a ≠ x → [a, b].Sublist (s.queue p) → [a, b].Sublist (s'.queue p)
  refreshing : ∀ a, s'.phase a = .refreshing → s.phase a = .refreshing

theorem Base.leavesHead (hb : Base net s) {x : Handler} {phase : Phase Socket}
    (hhead : (s.queue (net.process (net.socket x))).head? = some x) (hgoes : phase ≠ .refreshing) :
    LeavesHead s (s.leave net x phase) x := by
  have hhold := queue_eq_cons hhead
  have hnodup := hb.queues.nodup (net.process (net.socket x))
  rw [hhold, List.nodup_cons] at hnodup
  constructor
  · intro p hmem
    by_cases hp : p = net.process (net.socket x)
    · subst hp
      exact hnodup.1 (by simpa [State.leave] using hmem)
    · have hold : x ∈ s.queue p := by simpa [State.leave, hp] using hmem
      exact hp (hb.queues.queued p x hold).2.symm
  · intro p a ha
    by_cases hp : p = net.process (net.socket x)
    · subst hp
      exact List.mem_of_mem_tail (by simpa [State.leave] using ha)
    · simpa [State.leave, hp] using ha
  · intro p a b ha hold
    by_cases hp : p = net.process (net.socket x)
    · subst hp
      rw [hhold] at hold
      simpa [State.leave] using sublist_tail hold ha
    · simpa [State.leave, hp] using hold
  · intro a ha
    by_cases hax : a = x
    · subst hax
      exact absurd (by simpa [State.leave, State.setPhase] using ha) hgoes
    · simpa [State.leave, State.setPhase, hax] using ha

/-- The head of a queue leaves it. -/
theorem InTurn.leave (h : InTurn net s) (hb : Base net s) {x : Handler} {phase : Phase Socket}
    (hhead : (s.queue (net.process (net.socket x))).head? = some x) (hgoes : phase ≠ .refreshing) :
    InTurn net (s.leave net x phase) := by
  have hleaves : LeavesHead s (s.leave net x phase) x := hb.leavesHead hhead hgoes
  constructor
  · intro a b hpair
    have hold := h.pairs a b hpair
    refine ⟨fun ha => ?_, fun ha => ?_, hold.numbers⟩
    · obtain ⟨hwaits, hfresh⟩ := hold.refreshing (hleaves.refreshing a ha)
      exact ⟨fun hbq => hwaits (hleaves.kept _ b hbq), hfresh⟩
    · have hax : a ≠ x := by
        rintro rfl
        exact hleaves.gone _ ha
      obtain ⟨hfresh, hbehind⟩ := hold.queued (hleaves.kept _ a ha)
      exact ⟨hfresh, fun hbq => hleaves.behind _ a b hax (hbehind (hleaves.kept _ b hbq))⟩
  · exact h.numbers_le

end queues

theorem refreshing_of_update [DecidableEq Handler] {x : Handler} {phase : Phase Socket}
    (hphase : phase ≠ .refreshing) {a : Handler}
    (ha : Function.update s.phase x phase a = .refreshing) :
    s.phase a = .refreshing := by
  by_cases hax : a = x
  · subst hax
    exact absurd (by simpa using ha) hphase
  · simpa [hax] using ha

section steps
variable [DecidableEq Handler] [DecidableEq Other]

/-- A command of the batch at the head may give it the next number. -/
theorem InTurn.command (h : InTurn net s) (hb : Base net s) {x : Handler} {b : Batch Socket}
    {now : Nat} {board : BoardCommands.State (Handler ⊕ Other)}
    (hprocessing : s.phase x = .processing b)
    (hkeeps : BoardCommands.KeepsCounter s.board (.command (.inl x) now))
    (hstep : BoardCommands.step cfg boardId s.board (.command (.inl x) now) = some board)
    (hqueue : s'.queue = s.queue) (harrived : s'.arrived = s.arrived) (hboard : s'.board = board)
    (hphase : ∀ a, s'.phase a = .refreshing → s.phase a = .refreshing)
    (hnumbers : s'.numbers =
      Function.update s.numbers x (s.numbers x ++ numbersFrom s.board board)) : InTurn net s' := by
  cases BoardCommands.counts_step hkeeps hstep with
  | kept same counter =>
    have hnone : numbersFrom s.board board = [] := by simp [numbersFrom, same]
    refine h.of_phase hqueue harrived ?_ (by rw [hboard, counter]) hphase
    rw [hnumbers, hnone, List.append_nil, Function.update_eq_self]
  | next same counter =>
    have hnext : numbersFrom s.board board = [peekSequence s.board.keys + 1] := by
      simp [numbersFrom, same]
    have hself : s'.numbers x = s.numbers x ++ [peekSequence s.board.keys + 1] := by
      rw [hnumbers, hnext, Function.update_self]
    have hother : ∀ y, y ≠ x → s'.numbers y = s.numbers y := by
      intro y hy
      rw [hnumbers, Function.update_of_ne hy]
    have hcounter : peekSequence s'.board.keys = peekSequence s.board.keys + 1 := by
      rw [hboard, counter]
    have hhead := hb.queues.head x b hprocessing
    have hqueued := List.mem_of_mem_head? hhead
    constructor
    · intro a c hpair
      rw [Earlier, harrived] at hpair
      have hne := hb.earlier_ne hpair
      have hold := h.pairs a c hpair
      refine ⟨fun ha => ?_, fun ha => ?_, ?_⟩
      · obtain ⟨hwaits, hfresh⟩ := hold.refreshing (hphase a ha)
        have hcx : c ≠ x := by
          rintro rfl
          exact hwaits hqueued
        rw [hqueue, hother c hcx]
        exact ⟨hwaits, hfresh⟩
      · rw [hqueue] at ha ⊢
        obtain ⟨hfresh, hbehind⟩ := hold.queued ha
        have hcx : c ≠ x := by
          rintro rfl
          exact hb.head_first hhead hne (hbehind hqueued)
        rw [hother c hcx]
        exact ⟨hfresh, hbehind⟩
      · by_cases hcx : c = x
        · subst hcx
          rw [hother a hne, hself]
          intro n hn n' hn'
          rcases List.mem_append.mp hn' with hn' | hn'
          · exact hold.numbers n hn n' hn'
          · rw [List.mem_singleton.mp hn']
            exact Nat.lt_succ_of_le (h.numbers_le a n hn)
        · rw [hother c hcx]
          by_cases hax : a = x
          · subst hax
            -- the later one has no numbers while the earlier one is at the head
            rw [hpair.2] at hqueued
            rw [(hold.queued hqueued).1]
            intro n _ n' hn'
            cases hn'
          · rw [hother a hax]
            exact hold.numbers
    · intro y n hn
      rw [hcounter]
      by_cases hyx : y = x
      · subst hyx
        rw [hself] at hn
        rcases List.mem_append.mp hn with hn | hn
        · exact (h.numbers_le y n hn).trans (Nat.le_succ _)
        · rw [List.mem_singleton.mp hn]
      · rw [hother y hyx] at hn
        exact (h.numbers_le y n hn).trans (Nat.le_succ _)

variable [DecidableEq Socket] [DecidableEq Process]

theorem inTurn_step {l : Label Handler Socket Other} (h : InTurn net s) (hb : Base net s)
    (hturn : EntersInTurn net s l) (hstep : step cfg boardId net s l = some s') :
    InTurn net s' := by
  cases step_effect hstep with
  | tick now lastActivityWriteAt => exact h.of_phase rfl rfl rfl le_rfl fun _ ha => ha
  | arriveRefreshing idle lastActivityWriteAt =>
    rename_i x mutations
    refine h.of_arrival hb idle rfl rfl rfl (fun a ha => ?_) (fun _ => .inl rfl) fun _ _ _ _ => ?_
    · simp [State.setPhase, State.receive, ha]
    · exact hb.queues.not_mem (by rw [idle]; rfl) _
  | arriveQueued idle throttled =>
    rename_i x mutations
    refine h.of_arrival hb idle rfl rfl rfl (fun a ha => ?_) (fun p => ?_)
      fun a ha hsocket hphase => ?_
    · simp [State.enter, State.setPhase, State.receive, ha]
    · by_cases hp : p = net.process (net.socket x)
      · subst hp
        exact .inr (by simp [State.enter, State.receive])
      · exact .inl (by simp [State.enter, State.receive, hp])
    · have hover := hturn throttled a ha hsocket
      rw [hphase] at hover
      cases hover
  | enter refreshing => exact h.enter hb refreshing hturn
  | drop idle waits =>
    exact h.of_phase rfl rfl rfl le_rfl fun _ ha => refreshing_of_update (by simp) ha
  | timeout head => exact h.leave hb head (by simp)
  | process queued head =>
    exact h.of_phase rfl rfl rfl le_rfl fun _ ha => refreshing_of_update (by simp) ha
  | advance processing advances =>
    refine h.of_phase rfl rfl rfl ?_ fun _ ha => refreshing_of_update (by simp) ha
    exact le_of_eq advances.counter.symm
  | returns processing applying => exact h.leave hb (hb.queues.head _ _ processing) (by simp)
  | fails processing => exact h.leave hb (hb.queues.head _ _ processing) (by simp)
  | command processing step =>
    exact h.command hb processing hturn step rfl rfl rfl
      (fun _ ha => refreshing_of_update (by simp) ha) rfl
  | claim =>
    exact h.of_phase rfl rfl rfl (le_of_eq (peekSequence_tryMarkSeen _ _).symm) fun _ ha => ha
  | others step other =>
    refine h.of_phase rfl rfl rfl ?_ fun _ ha => ha
    cases BoardCommands.counts_step hturn step with
    | kept numbers counter => exact le_of_eq counter.symm
    | next numbers counter => exact le_of_lt (by rw [counter]; exact Nat.lt_succ_self _)
  | enqueue processed =>
    exact h.of_phase rfl rfl rfl le_rfl fun _ ha => refreshing_of_update (by simp) ha
  | broadcast enqueueing =>
    exact h.of_phase rfl rfl rfl le_rfl fun _ ha => refreshing_of_update (by simp) ha

/-! ### The run -/

/-- As long as handlers queue in turn and the counter is kept, the batches of every
    socket get their numbers in the order of their arrival. -/
theorem numberedInOrder_of_inTurn
    (hs : (system cfg boardId net).ReachableUnder (EntersInTurn net) s) :
      NumberedInOrder net s := by
  have hinv : Base net s ∧ InTurn net s := by
    induction hs with
    | init h =>
      refine ⟨base_init h, fun a b hpair => ?_, fun x n hn => ?_⟩
      · have hnone := hpair.1
        rw [h.arrived] at hnone
        cases hnone
      · rw [h.numbers x] at hn
        cases hn
    | step l _ hturn hstep ih => exact ⟨base_step ih.1 hstep, inTurn_step ih.2 ih.1 hturn hstep⟩
  exact fun a b hpair => (hinv.2.pairs a b hpair).numbers

end steps

end arrivals

/-! ### Two runs -/

/-- One socket with two handlers, and a window of three seconds. -/
def oneSocket : Layout Bool Unit Unit where
  socket := fun _ => ()
  process := fun _ => ()
  effectiveWindow := fun _ => 3000

/-- The refresh of the first batch is over before the second arrives. -/
theorem numberedInOrder_of_inTurn_run :
    ∃ s : State Bool Unit Unit Unit, s.numbers false = [1] ∧ s.numbers true = [2] ∧
      NumberedInOrder oneSocket s := by
  have hrun : ((system {} "aaaaaaaa-aaaa-4aaa-8aaa-aaaaaaaaaaaa" oneSocket).execUnder
      (EntersInTurn oneSocket) (start : State Bool Unit Unit Unit)
        ([.advance 3000, .arrive false (noteBatch "x"), .refreshed false true,
          .arrive true (noteBatch "y")] ++ processNote false ++ processNote true)).map
      (fun s => (s.numbers false, s.numbers true)) = some ([1], [2]) := rfl
  obtain ⟨s, hs, hnumbers⟩ := Option.map_eq_some_iff.mp hrun
  obtain ⟨hfirst, hsecond⟩ := Prod.mk.inj hnumbers
  exact ⟨s, hfirst, hsecond, numberedInOrder_of_inTurn (.execUnder (.init start_init) hs)⟩

/-- The first batch refreshes the activity; the second finds the throttle closed
    and is processed before it. -/
theorem throttled_batch_overtakes :
    ∃ s : State Bool Unit Unit Unit,
      (system {} "aaaaaaaa-aaaa-4aaa-8aaa-aaaaaaaaaaaa" oneSocket).Reachable s ∧
        ¬ NumberedInOrder oneSocket s := by
  have hrun : ((system {} "aaaaaaaa-aaaa-4aaa-8aaa-aaaaaaaaaaaa" oneSocket).exec
      (start : State Bool Unit Unit Unit)
        ([.advance 3000, .arrive false (noteBatch "x"), .arrive true (noteBatch "y")]
          ++ processNote true ++ [.refreshed false true] ++ processNote false)).map
      (fun s => (s.arrived, s.numbers false, s.numbers true)) =
        some ([false, true], [2], [1]) := rfl
  obtain ⟨s, hs, hnumbers⟩ := Option.map_eq_some_iff.mp hrun
  simp only [Prod.mk.injEq] at hnumbers
  obtain ⟨harrived, hfirst, hsecond⟩ := hnumbers
  refine ⟨s, .exec (.init start_init) hs, ?_⟩
  intro h
  have hearlier : Earlier oneSocket s false true := ⟨by rw [harrived], rfl⟩
  have hlt := h false true hearlier 2 (by simp [hfirst]) 1 (by simp [hsecond])
  omega

end Notebortt.BatchHandlers
