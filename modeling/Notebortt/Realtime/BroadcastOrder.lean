import Mathlib.Data.Fintype.Basic
import Notebortt.Realtime.BatchHandlers

/-! # The order of the broadcasts

    The changes of a board get their numbers one after the other, as long as its
    counter is neither evicted nor loaded again. A handler broadcasts once its
    enqueue of BOARD_MUTATED is over, without the lock. -/

open Transition
open Notebortt.SocketBatches (Batch)

namespace Notebortt.BatchHandlers

section broadcasts
variable {Handler Socket Process Other : Type} {cfg : Config} {boardId : String}
  {net : Layout Handler Socket Process} {s s' : State Handler Socket Process Other}

/-- The numbers of the changes that messages carry. -/
def sequences (messages : List (Message Socket)) : List Nat := messages.filterMap (·.sequence)

/-- The numbers of the changes that a handler has still to broadcast. -/
def Phase.held : Phase Socket → List Nat
  | .processing b => batchNumbers b
  | .processed messages => sequences messages
  | .enqueueing messages => sequences messages
  | _ => []

/-- A socket is sent what the others broadcast. -/
def State.sentTo [DecidableEq Socket] (s : State Handler Socket Process Other) (x : Socket) :
    List (Message Socket) :=
  s.messages.filter fun message => message.sender ≠ x

/-- Every socket is sent the changes of the others in the order of their numbers. -/
def BroadcastsInOrder [DecidableEq Socket] (s : State Handler Socket Process Other) : Prop :=
  ∀ x, (sequences (s.sentTo x)).Pairwise (· < ·)

section condition
variable [DecidableEq Handler] [DecidableEq Other]

/-- The step condition: a handler broadcasts only when the others hold later changes
    than it does, and a counter that has given out a number is neither deleted nor
    set by a load. -/
def BroadcastsInTurn (s : State Handler Socket Process Other) : Label Handler Socket Other → Prop
  | .broadcast h => ∀ h', h' ≠ h → ∀ n ∈ (s.phase h).held, ∀ n' ∈ (s.phase h').held, n < n'
  | .board l => BoardCommands.KeepsCounter s.board l
  | _ => True

instance [Fintype Handler] (s : State Handler Socket Process Other) :
    (l : Label Handler Socket Other) → Decidable (BroadcastsInTurn s l)
  | .broadcast h => inferInstanceAs (Decidable (∀ h', h' ≠ h →
      ∀ n ∈ (s.phase h).held, ∀ n' ∈ (s.phase h').held, n < n'))
  | .board l => inferInstanceAs (Decidable (BoardCommands.KeepsCounter s.board l))
  | .advance _ | .activity _ | .arrive _ _ | .refreshed _ _ | .timeout _ | .process _ | .ask _
  | .mode _ _ | .go _ | .fail _ | .claim _ | .enqueue _ _ => .isTrue trivial

end condition

/-! ### What a step keeps -/

/-- What is broadcast is sorted, and numbered below all that is held. -/
structure Sorted (s : State Handler Socket Process Other) : Prop where
  sent : (sequences s.messages).Pairwise (· < ·)
  held : ∀ h, (s.phase h).held.Pairwise (· < ·)
  sent_le : ∀ n ∈ sequences s.messages, n ≤ peekSequence s.board.keys
  held_le : ∀ h, ∀ n ∈ (s.phase h).held, n ≤ peekSequence s.board.keys
  sent_lt : ∀ n ∈ sequences s.messages, ∀ h, ∀ n' ∈ (s.phase h).held, n < n'

/-- A batch knows the number of the change whose pipeline is sent for it. -/
def Noted (s : State Handler Socket Process Other) : Prop :=
  ∀ h b, s.phase h = .processing b → isApplying b.run = true →
    changeOf (s.board.run (.inl h)) = none ∨ changeOf (s.board.run (.inl h)) = pendingOf b.run

/-- A step that broadcasts nothing, where no handler holds more. -/
theorem Sorted.of_held (h : Sorted s) (hmessages : s'.messages = s.messages)
    (hcounter : peekSequence s.board.keys ≤ peekSequence s'.board.keys)
    (hheld : ∀ x, (s'.phase x).held.Sublist (s.phase x).held) : Sorted s' := by
  constructor
  · rw [hmessages]
    exact h.sent
  · intro x
    exact (h.held x).sublist (hheld x)
  · intro n hn
    rw [hmessages] at hn
    exact (h.sent_le n hn).trans hcounter
  · intro x n hn
    exact (h.held_le x n ((hheld x).subset hn)).trans hcounter
  · intro n hn x n' hn'
    rw [hmessages] at hn
    exact h.sent_lt n hn x n' ((hheld x).subset hn')

/-- A handler gets the next number for a change. -/
theorem Sorted.of_next (h : Sorted s) {x : Handler} (hmessages : s'.messages = s.messages)
    (hcounter : peekSequence s'.board.keys = peekSequence s.board.keys + 1)
    (hothers : ∀ y, y ≠ x → (s'.phase y).held = (s.phase y).held) {known : List Nat}
    (hknown : known.Sublist (s.phase x).held)
    (hnext : (s'.phase x).held = known ++ [peekSequence s.board.keys + 1]) : Sorted s' := by
  have hle : ∀ n ∈ known, n ≤ peekSequence s.board.keys :=
    fun n hn => h.held_le x n (hknown.subset hn)
  constructor
  · rw [hmessages]
    exact h.sent
  · intro y
    by_cases hy : y = x
    · subst hy
      rw [hnext]
      refine List.pairwise_append.mpr ⟨(h.held y).sublist hknown, List.pairwise_singleton _ _, ?_⟩
      intro n hn n' hn'
      rw [List.mem_singleton.mp hn']
      exact Nat.lt_succ_of_le (hle n hn)
    · rw [hothers y hy]
      exact h.held y
  · intro n hn
    rw [hmessages] at hn
    have hold := h.sent_le n hn
    omega
  · intro y n hn
    by_cases hy : y = x
    · subst hy
      rw [hnext, List.mem_append, List.mem_singleton] at hn
      rcases hn with hn | rfl
      · have hold := hle n hn
        omega
      · rw [hcounter]
    · rw [hothers y hy] at hn
      have hold := h.held_le y n hn
      omega
  · intro n hn y n' hn'
    rw [hmessages] at hn
    by_cases hy : y = x
    · subst hy
      rw [hnext, List.mem_append, List.mem_singleton] at hn'
      rcases hn' with hn' | rfl
      · exact h.sent_lt n hn y n' (hknown.subset hn')
      · exact Nat.lt_succ_of_le (h.sent_le n hn)
    · rw [hothers y hy] at hn'
      exact h.sent_lt n hn y n' hn'

/-- A handler broadcasts what it holds, and the others hold later changes. -/
theorem Sorted.of_broadcast (h : Sorted s) {x : Handler} {messages : List (Message Socket)}
    (hmessages : s'.messages = s.messages ++ messages) (hx : sequences messages = (s.phase x).held)
    (hcounter : peekSequence s'.board.keys = peekSequence s.board.keys)
    (hself : (s'.phase x).held = []) (hothers : ∀ y, y ≠ x → (s'.phase y).held = (s.phase y).held)
    (hturn : ∀ y, y ≠ x → ∀ n ∈ (s.phase x).held, ∀ n' ∈ (s.phase y).held, n < n') : Sorted s' := by
  have hsent : sequences s'.messages = sequences s.messages ++ (s.phase x).held := by
    rw [hmessages, ← hx]
    exact List.filterMap_append
  have hkept : ∀ y, ∀ n ∈ (s'.phase y).held, y ≠ x ∧ n ∈ (s.phase y).held := by
    intro y n hn
    by_cases hy : y = x
    · subst hy
      rw [hself] at hn
      cases hn
    · rw [hothers y hy] at hn
      exact ⟨hy, hn⟩
  constructor
  · rw [hsent]
    refine List.pairwise_append.mpr ⟨h.sent, h.held x, ?_⟩
    intro n hn n' hn'
    exact h.sent_lt n hn x n' hn'
  · intro y
    by_cases hy : y = x
    · subst hy
      rw [hself]
      exact .nil
    · rw [hothers y hy]
      exact h.held y
  · intro n hn
    rw [hcounter]
    rw [hsent, List.mem_append] at hn
    exact hn.elim (h.sent_le n) (h.held_le x n)
  · intro y n hn
    rw [hcounter]
    exact h.held_le y n (hkept y n hn).2
  · intro n hn y n' hn'
    obtain ⟨hy, hn'⟩ := hkept y n' hn'
    rw [hsent, List.mem_append] at hn
    rcases hn with hn | hn
    · exact h.sent_lt n hn y n' hn'
    · exact hturn y hy n hn n' hn'

section steps
variable [DecidableEq Handler]

/-- Setting a phase that holds no more than the handler held. -/
theorem held_update {phase : Handler → Phase Socket} {h : Handler} {next : Phase Socket}
    (hnext : next.held.Sublist (phase h).held) (x : Handler) :
    (Function.update phase h next x).held.Sublist (phase x).held := by
  by_cases hx : x = h
  · subst hx
    simpa using hnext
  · simp [hx]

theorem Noted.of_update (hnoted : Noted s) {x : Handler} {phase : Phase Socket}
    (hphase : s'.phase = Function.update s.phase x phase)
    (hothers : ∀ q, q ≠ .inl x → s'.board.run q = s.board.run q)
    (hself : ∀ b, phase = .processing b → isApplying b.run = true →
      changeOf (s'.board.run (.inl x)) = none ∨
        changeOf (s'.board.run (.inl x)) = pendingOf b.run) :
    Noted s' := by
  intro y b hy happlying
  by_cases hyx : y = x
  · subst hyx
    exact hself b (by simpa [hphase] using hy) happlying
  · rw [hothers (.inl y) fun heq => hyx (Sum.inl.inj heq)]
    exact hnoted y b (by simpa [hphase, hyx] using hy) happlying

/-- A handler goes to a phase outside `processBatch`, or starts it. -/
theorem Noted.setPhase (hnoted : Noted s) {x : Handler} {phase : Phase Socket}
    (hphase : s'.phase = Function.update s.phase x phase) (hboard : s'.board = s.board)
    (hout : ∀ b, phase = .processing b → isApplying b.run = false) : Noted s' := by
  refine hnoted.of_update hphase (fun q _ => by rw [hboard]) fun b hb happlying => ?_
  rw [hout b hb] at happlying
  cases happlying

end steps

/-! ### Commands of a batch -/

/-- The change that a command numbers, or goes on writing, is noted. -/
theorem noted_note (b : Batch Socket) (r : BoardCommands.Run)
    (happlying : isApplying (b.note r).run = true) :
    changeOf r = none ∨ changeOf r = pendingOf (b.note r).run := by
  cases r with
  | apply call r =>
    cases r with
    | writing change sent rest =>
      cases hb : b.run with
      | applying m c left => exact .inr (by simp [Batch.note, hb, changeOf, pendingOf])
      | _ => simp [Batch.note, hb, isApplying] at happlying
    | _ => exact .inl rfl
  | _ => exact .inl rfl

theorem note_of_changeOf {r : BoardCommands.Run} (hr : changeOf r = none) (b : Batch Socket) :
    b.note r = b := by
  cases r with
  | apply call r =>
    cases r with
    | writing change sent rest => cases hr
    | _ => cases hb : b.run <;> simp [Batch.note, hb]
  | _ => cases hb : b.run <;> simp [Batch.note, hb]

theorem note_of_not_applying {b : Batch Socket} (hb : isApplying b.run = false)
    (r : BoardCommands.Run) : b.note r = b := by
  cases hrun : b.run with
  | applying m c rest =>
    rw [hrun] at hb
    cases hb
  | _ => simp [Batch.note, hrun]

/-- A change that is written notes its number behind those of the results. -/
theorem batchNumbers_note {b : Batch Socket} {r : BoardCommands.Run}
    {change : PersistedElementChange}
    (hb : isApplying b.run = true) (hr : changeOf r = some change) :
    batchNumbers (b.note r) = numbersOf b.results ++ [change.sequence] := by
  cases hrun : b.run with
  | applying m c rest =>
    cases r with
    | apply call r =>
      cases r with
      | writing written sent left =>
        obtain rfl := Option.some.inj hr
        simp [Batch.note, hrun, batchNumbers, pendingOf]
      | _ => cases hr
    | _ => cases hr
  | _ =>
    rw [hrun] at hb
    cases hb

/-- A command that numbers nothing shows the batch no new change. -/
theorem held_note (hnoted : Noted s) {h : Handler} {b : Batch Socket} {r : BoardCommands.Run}
    (hprocessing : s.phase h = .processing b)
    (hchange : changeOf r = none ∨ changeOf r = changeOf (s.board.run (.inl h))) :
    batchNumbers (b.note r) = batchNumbers b := by
  cases happlying : isApplying b.run with
  | false => rw [note_of_not_applying happlying]
  | true =>
    cases hr : changeOf r with
    | none => rw [note_of_changeOf hr]
    | some change =>
      -- the change was noted before
      have hwrites : changeOf (s.board.run (.inl h)) = some change := by
        rcases hchange with hnone | hsame
        · rw [hr] at hnone
          cases hnone
        · rw [← hsame, hr]
      have hpending : pendingOf b.run = some change := by
        rcases hnoted h b hprocessing happlying with hnone | hsame
        · rw [hwrites] at hnone
          cases hnone
        · rw [← hsame, hwrites]
      rw [batchNumbers_note happlying hr, batchNumbers, hpending]
      rfl

/-! ### Steps -/

theorem Sorted.broadcastsInOrder [DecidableEq Socket] (h : Sorted s) : BroadcastsInOrder s := by
  intro x
  exact h.sent.sublist (List.filter_sublist.filterMap _)

section run
variable [DecidableEq Handler] [DecidableEq Other]

theorem sorted_command (h : Sorted s) (hnoted : Noted s) {x : Handler} {b : Batch Socket}
    {now : Nat} {board : BoardCommands.State (Handler ⊕ Other)}
    (hprocessing : s.phase x = .processing b)
    (hkeeps : BoardCommands.KeepsCounter s.board (.command (.inl x) now))
    (hstep : BoardCommands.step cfg boardId s.board (.command (.inl x) now) = some board)
    (hmessages : s'.messages = s.messages) (hboard : s'.board = board)
    (hphase : s'.phase = Function.update s.phase x (.processing (b.note (board.run (.inl x))))) :
    Sorted s' := by
  have hheld : (s.phase x).held = batchNumbers b := by rw [hprocessing]; rfl
  have hself : (s'.phase x).held = batchNumbers (b.note (board.run (.inl x))) := by
    rw [hphase, Function.update_self]
    rfl
  -- a command that shows the batch no new change
  have hkept : batchNumbers (b.note (board.run (.inl x))) = batchNumbers b → Sorted s' := by
    intro hsame
    refine h.of_held hmessages ?_ ?_
    · rw [hboard]
      cases BoardCommands.counts_step hkeeps hstep with
      | kept numbers counter => rw [counter]
      | next numbers counter => omega
    · rw [hphase]
      refine held_update ?_
      rw [hheld, ← hsame]
      exact List.Sublist.refl _
  cases turn_command hstep with
  | moves hmoves => exact hkept (held_note hnoted hprocessing (.inl hmoves.changeOf_eq))
  | writes others numbers change => exact hkept (held_note hnoted hprocessing change)
  | number others numbers writes sequence =>
    cases happlying : isApplying b.run with
    | false => exact hkept (by rw [note_of_not_applying happlying])
    | true =>
      have hcounter : peekSequence board.keys = peekSequence s.board.keys + 1 := by
        cases BoardCommands.counts_step hkeeps hstep with
        | kept same counter =>
          rw [same] at numbers
          simp at numbers
        | next numbers counter => exact counter
      have hothers : ∀ y, y ≠ x → (s'.phase y).held = (s.phase y).held := by
        intro y hy
        rw [hphase, Function.update_of_ne hy]
      have hknown : (numbersOf b.results).Sublist (s.phase x).held := by
        rw [hheld, batchNumbers]
        exact List.sublist_append_left _ _
      refine h.of_next hmessages (by rw [hboard]; exact hcounter) hothers hknown ?_
      rw [hself, batchNumbers_note happlying writes, sequence]

variable [DecidableEq Process] [DecidableEq Socket]

theorem sorted_step {l : Label Handler Socket Other} (h : Sorted s) (hnoted : Noted s)
    (hturn : BroadcastsInTurn s l) (hstep : step cfg boardId net s l = some s') : Sorted s' := by
  cases step_effect hstep with
  | tick now lastActivityWriteAt => exact h.of_held rfl le_rfl fun _ => List.Sublist.refl _
  | arriveRefreshing idle lastActivityWriteAt =>
    exact h.of_held rfl le_rfl (held_update (List.nil_sublist _))
  | arriveQueued idle throttled => exact h.of_held rfl le_rfl (held_update (List.nil_sublist _))
  | enter refreshing => exact h.of_held rfl le_rfl (held_update (List.nil_sublist _))
  | drop idle waits => exact h.of_held rfl le_rfl (held_update (List.nil_sublist _))
  | timeout head => exact h.of_held rfl le_rfl (held_update (List.nil_sublist _))
  | process queued head =>
    refine h.of_held rfl le_rfl (held_update ?_)
    rw [Phase.held, batchNumbers_begin]
    exact List.nil_sublist _
  | advance processing advances =>
    refine h.of_held rfl (le_of_eq advances.counter.symm) (held_update ?_)
    rw [processing, Phase.held, Phase.held, advances.numbers]
  | returns processing applying =>
    refine h.of_held rfl le_rfl (held_update ?_)
    rw [processing]
    exact (broadcastsOf_sublist _ _ _).trans (List.sublist_append_left _ _)
  | fails processing => exact h.of_held rfl le_rfl (held_update (List.nil_sublist _))
  | command processing step => exact sorted_command h hnoted processing hturn step rfl rfl rfl
  | claim =>
    refine h.of_held rfl ?_ fun _ => List.Sublist.refl _
    exact le_of_eq (peekSequence_tryMarkSeen _ _).symm
  | others step other =>
    refine h.of_held rfl ?_ fun _ => List.Sublist.refl _
    cases BoardCommands.counts_step hturn step with
    | kept numbers counter => exact le_of_eq counter.symm
    | next numbers counter => exact le_of_lt (by rw [counter]; exact Nat.lt_succ_self _)
  | enqueue processed =>
    refine h.of_held rfl le_rfl (held_update ?_)
    rw [processed]
    exact List.Sublist.refl _
  | broadcast enqueueing =>
    rename_i x messages
    refine h.of_broadcast rfl ?_ rfl ?_ ?_ hturn
    · rw [enqueueing]
      rfl
    · simp [State.setPhase, Phase.held]
    · intro y hy
      simp [State.setPhase, hy]

theorem noted_step {l : Label Handler Socket Other} (hnoted : Noted s)
    (hstep : step cfg boardId net s l = some s') : Noted s' := by
  cases step_effect hstep with
  | tick now lastActivityWriteAt => exact hnoted
  | arriveRefreshing idle lastActivityWriteAt =>
    exact hnoted.setPhase rfl rfl fun _ hb => by cases hb
  | arriveQueued idle throttled => exact hnoted.setPhase rfl rfl fun _ hb => by cases hb
  | enter refreshing => exact hnoted.setPhase rfl rfl fun _ hb => by cases hb
  | drop idle waits => exact hnoted.setPhase rfl rfl fun _ hb => by cases hb
  | timeout head => exact hnoted.setPhase rfl rfl fun _ hb => by cases hb
  | process queued head =>
    refine hnoted.setPhase rfl rfl fun b hb => ?_
    obtain rfl := Phase.processing.inj hb
    simp only [Batch.begin]
    split <;> rfl
  | advance processing advances =>
    refine hnoted.of_update rfl advances.others fun b hb happlying => ?_
    obtain rfl := Phase.processing.inj hb
    exact .inl (advances.applying happlying)
  | returns processing applying => exact hnoted.setPhase rfl rfl fun _ hb => by cases hb
  | fails processing => exact hnoted.setPhase rfl rfl fun _ hb => by cases hb
  | command processing step =>
    refine hnoted.of_update rfl (fun q hq => (turn_command step).others hq) fun b hb happlying => ?_
    obtain rfl := Phase.processing.inj hb
    exact noted_note _ _ happlying
  | claim => exact hnoted
  | others step other =>
    intro y b hy happlying
    rcases changeOf_step step (other y) with hsame | hnone
    · rw [hsame]
      exact hnoted y b hy happlying
    · exact .inl hnone
  | enqueue processed => exact hnoted.setPhase rfl rfl fun _ hb => by cases hb
  | broadcast enqueueing => exact hnoted.setPhase rfl rfl fun _ hb => by cases hb

/-! ### The run -/

end run

end broadcasts

/-! ### Two runs -/

/-- Both sockets create a note, and both enqueues are under way. -/
def twoBatches : List (Label Bool (Option Bool) Unit) :=
  [.arrive false (noteBatch "x"), .arrive true (noteBatch "y")] ++ processNote false
    ++ processNote true ++ [.enqueue false true, .enqueue true true]

end Notebortt.BatchHandlers
