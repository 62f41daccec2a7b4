import Notebortt.Concurrency.PersistRace

/-! # One flusher that may crash

    The system of `PersistRace` with one flusher at a time. A crash or an
    exception ends a flush at any of its steps and leaves what it has done so
    far: nothing before the transaction, the rows behind it, and in both cases
    the markers. The one exception that leaves less is an error that the catch
    of `persistBoard` takes for an invalid id: it evicts the board. -/

open Transition

namespace Notebortt.FlushCrashes

open PersistRace

/-! ### What a flush promises -/

/-- The id waits for a flush. -/
def Marked (k : BoardKeys) (id : String) : Prop :=
  id ∈ k.dirtyElementIds ∨ id ∈ k.deletedElementIds

/-- Postgres takes every dirty element and every id that is to be deleted. -/
structure Storable (boardId : String) (k : BoardKeys) : Prop where
  deleted : ∀ id ∈ k.deletedElementIds, storableText id
  dirty : ∀ id ∈ k.dirtyElementIds, ∀ e, k.elements.lookup id = some e →
    (toElementRow boardId e).accept.isSome
  few : FewMarked k

section system
variable {Writer : Type} [DecidableEq Writer]

/-- The step is a compare-and-clear that returns 1. -/
def ClearReturnsOne (s : State Writer Unit) : Label Writer Unit → Prop
  | .clear f flushCompletedAt duration =>
    match s.flush f with
    | .committed sequence epoch =>
      (compareAndClear true epoch sequence flushCompletedAt duration s.keys).1 = true
    | _ => False
  | _ => False

instance (s : State Writer Unit) (l : Label Writer Unit) : Decidable (ClearReturnsOne s l) := by
  unfold ClearReturnsOne
  split
  · split <;> infer_instance
  · infer_instance

/-- A `persistBoard` that nothing interrupts. -/
def uninterrupted (flushCompletedAt duration : Nat) : List (Label Writer Unit) :=
  [.readEpoch (), .readDirty (), .readDeleted (), .readElements (), .commit () none,
    .clear () flushCompletedAt duration]

/-- What the claim of the flush comes to in a state of a run whose steps all meet `cond`. -/
structure CrashConsistent (cond : State Writer Unit → Label Writer Unit → Prop)
    [∀ s l, Decidable (cond s l)] (boardId : String) (s : State Writer Unit) : Prop where
  /-- A clear that returns 1 leaves rows that equal the hash. -/
  cleared : ∀ l s', ClearReturnsOne s l → step boardId s l = some s' →
    RowsMatch boardId s'.db s'.keys.elements
  /-- However the run goes on, every marked id stays marked until a clear returns 1. -/
  marked : ∀ ls s',
    (system Writer Unit boardId).execUnder (fun s l => cond s l ∧ ¬ ClearReturnsOne s l) s ls =
        some s' →
      ∀ id, Marked s.keys id → Marked s'.keys id
  /-- A flush that nothing interrupts brings the rows to the hash. -/
  later : s.flush () = .idle → Storable boardId s.keys → ∀ flushCompletedAt duration,
    ∃ s', (system Writer Unit boardId).exec s (uninterrupted flushCompletedAt duration) = some s' ∧
      s'.keys.elements = s.keys.elements ∧ RowsMatch boardId s'.db s'.keys.elements

/-- The step condition: no pipeline stores an element under the empty id, which a flush skips and
    then clears, and no transaction fails with an error that is taken for an invalid id. -/
def KeepsMarks (boardId : String) (s : State Writer Unit) : Label Writer Unit → Prop
  | .write w _ =>
    match s.write w with
    | .numbered _ change => ∀ e ∈ change.upserts, e.id ≠ ""
    | _ => True
  | .commit f fault =>
    match s.flush f with
    | .elementsRead _ _ snap =>
      match transaction boardId fault snap s.db with
      | .ok _ => True
      | .error e => flushesBoard e = false
    | _ => True
  | _ => True

instance (boardId : String) (s : State Writer Unit) (l : Label Writer Unit) :
    Decidable (KeepsMarks boardId s l) := by
  unfold KeepsMarks
  split
  · split <;> infer_instance
  · split
    · split <;> infer_instance
    · infer_instance
  · infer_instance

end system

theorem compareAndClear_returns_one (epoch sequence now duration : Nat) (k : BoardKeys) :
    (compareAndClear true epoch sequence now duration k).1 = true ↔ getDirtyEpoch k = epoch := by
  unfold compareAndClear getDirtyEpoch
  split
  · next hmoved => simp [hmoved]
  · next hsame => simpa using hsame

/-! ### Markers -/

theorem marked_of_written {change : PersistedElementChange} {k k' : BoardKeys} {id : String}
    (h : Written change k k') (hmarked : Marked k id) : Marked k' id := by
  by_contra hnot
  have hclean : Clean k' id := by
    unfold Marked at hnot
    unfold Clean
    tauto
  have hbefore := (hclean.before h).1
  unfold Marked at hmarked
  unfold Clean at hbefore
  tauto

section steps
variable {Writer : Type} [DecidableEq Writer] {boardId : String} {s s' : State Writer Unit}
  {l : Label Writer Unit}

theorem marked_step {id : String} (hmarked : Marked s.keys id)
    (hstays : ∀ f, (s.flush f).evicts = false) (hclear : ¬ ClearReturnsOne s l)
    (hstep : step boardId s l = some s') : Marked s'.keys id := by
  cases l with
  | evict f found =>
    simp only [step] at hstep
    split at hstep
    · next hflush => simpa [hflush, FlushRun.evicts] using hstays f
    · cases hstep
  | write w serverTimestamp =>
    simp only [step] at hstep
    split at hstep
    · next trackChangeLog change hwrite =>
      obtain rfl := Option.some.inj hstep
      exact marked_of_written (written_runPipeline trackChangeLog serverTimestamp change s.keys)
        hmarked
    · cases hstep
  | clear f flushCompletedAt duration =>
    simp only [step] at hstep
    split at hstep
    · next sequence epoch hflush =>
      obtain rfl := Option.some.inj hstep
      -- the epoch has moved, and the script has returned 0
      simp only [ClearReturnsOne, hflush, compareAndClear_returns_one] at hclear
      show Marked (compareAndClear true epoch sequence flushCompletedAt duration s.keys).2 id
      rcases compareAndClear_cases epoch sequence flushCompletedAt duration s.keys with
        ⟨_, hkeys⟩ | ⟨hsame, _⟩
      · rw [hkeys]
        exact hmarked
      · exact absurd hsame hclear
    · cases hstep
  | _ =>
    -- the other steps leave the two id sets alone
    simp only [step] at hstep
    repeat' split at hstep
    all_goals cases hstep
    all_goals exact hmarked

end steps

/-! ### The invariant -/

/-- The run in flight has read no epoch older than what is committed: no other run commits. -/
def Ordered {Writer : Type} (s : State Writer Unit) : Prop :=
  ∀ epoch ∈ (s.flush ()).epoch?, s.committedEpoch ≤ epoch

structure OneFlusher {Writer : Type} (boardId : String) (s : State Writer Unit) : Prop where
  stores : Inv boardId s
  board : pgUuid boardId ∈ s.db.boards
  ordered : Ordered s

section invariant
variable {Writer : Type} {boardId : String} {s s' : State Writer Unit} {l : Label Writer Unit}

@[simp] theorem setFlush_flush (s : State Writer Unit) (f : Unit) (r : FlushRun) :
    (s.setFlush f r).flush f = r := by
  simp [State.setFlush]

@[simp] theorem setFlush_setFlush (s : State Writer Unit) (f : Unit) (r r' : FlushRun) :
    (s.setFlush f r).setFlush f r' = s.setFlush f r' := by
  simp [State.setFlush]

theorem ordered_setFlush {f : Unit} {r : FlushRun}
    (h : ∀ epoch ∈ r.epoch?, s.committedEpoch ≤ epoch) :
    Ordered (s.setFlush f r) := by
  intro epoch hepoch
  rw [setFlush_flush] at hepoch
  exact h epoch hepoch

theorem ordered_idle (f : Unit) : Ordered (s.setFlush f .idle) := by
  apply ordered_setFlush
  intro epoch hepoch
  cases hepoch

theorem OneFlusher.commitsInOrder (h : OneFlusher boardId s) (hkeeps : KeepsMarks boardId s l) :
    CommitsInOrder boardId s l := by
  cases l with
  | commit f fault =>
    cases hflush : s.flush f with
    | elementsRead sequence epoch snap =>
      have hepoch : epoch ∈ (s.flush f).epoch? := by rw [hflush]; rfl
      simp only [KeepsMarks, CommitsInOrder, hflush] at hkeeps ⊢
      split
      · exact h.ordered epoch hepoch
      · next e hfailed => simpa only [hfailed] using hkeeps
    | _ => simp only [CommitsInOrder, hflush]
  | write w serverTimestamp => exact hkeeps
  | _ => trivial

theorem OneFlusher.stays (h : OneFlusher boardId s) (f : Unit) : (s.flush f).evicts = false :=
  (h.stores.runs f).stays

theorem oneFlusher_init (h : Init boardId s) : OneFlusher boardId s where
  stores := inv_init h
  board := h.board
  ordered := by
    intro epoch hepoch
    rw [h.flush ()] at hepoch
    cases hepoch

/-- The transaction of a flush that nothing interrupts is not refused. -/
theorem writable_of_storable (h : OneFlusher boardId s) (hstorable : Storable boardId s.keys) :
    (dirtySnapshot s.keys).Writable boardId :=
  writable_dirtySnapshot h.stores.synced.ownIds h.stores.synced.dirtyPresent
    hstorable.deleted hstorable.dirty hstorable.few

variable [DecidableEq Writer]

theorem board_step (h : pgUuid boardId ∈ s.db.boards) (hstep : step boardId s l = some s') :
    pgUuid boardId ∈ s'.db.boards := by
  cases l with
  | commit f fault =>
    simp only [step] at hstep
    split at hstep
    · split at hstep
      · next db hcommit =>
        obtain rfl := Option.some.inj hstep
        show pgUuid boardId ∈ db.boards
        rw [persistBoardIncremental_boards (transaction_ok.mp hcommit).2]
        exact h
      · obtain rfl := Option.some.inj hstep
        exact h
    · cases hstep
  | _ =>
    simp only [step] at hstep
    repeat' split at hstep
    all_goals cases hstep
    all_goals exact h

/-- A run reads the current epoch, keeps it, and commits under it. -/
theorem ordered_step (h : OneFlusher boardId s) (hstep : step boardId s l = some s') :
    Ordered s' := by
  have hordered : ∀ f, ∀ epoch ∈ (s.flush f).epoch?, s.committedEpoch ≤ epoch :=
    fun _ => h.ordered
  have hcommitted := h.stores.synced.committed_le
  cases l with
  | resolve | number | write =>
    -- a writer leaves the run alone
    simp only [step] at hstep
    repeat' split at hstep
    all_goals cases hstep
    all_goals exact h.ordered
  | readEpoch f =>
    simp only [step] at hstep
    split at hstep
    · split at hstep
      · obtain rfl := Option.some.inj hstep
        exact h.ordered
      · obtain rfl := Option.some.inj hstep
        apply ordered_setFlush
        intro epoch hepoch
        obtain rfl := Option.some.inj hepoch
        exact hcommitted
    · cases hstep
  | readDirty f | readDeleted f | readElements f =>
    simp only [step] at hstep
    split at hstep
    · next hflush =>
      obtain rfl := Option.some.inj hstep
      have hrun := hordered f
      rw [hflush] at hrun
      exact ordered_setFlush hrun
    · cases hstep
  | commit f fault =>
    simp only [step] at hstep
    split at hstep
    · next sequence epoch snap hflush =>
      -- the commit raises the committed epoch to that of the run, and no further
      have hle : s.committedEpoch ≤ epoch := hordered f epoch (by rw [hflush]; rfl)
      split at hstep
      · obtain rfl := Option.some.inj hstep
        apply ordered_setFlush
        intro epoch' hepoch'
        obtain rfl := Option.some.inj hepoch'
        show max s.committedEpoch epoch ≤ epoch
        omega
      · obtain rfl := Option.some.inj hstep
        apply ordered_setFlush
        intro epoch' hepoch'
        split at hepoch' <;> cases hepoch'
    · cases hstep
  | evict f found =>
    simp only [step] at hstep
    split at hstep
    · next hflush => simpa [hflush, FlushRun.evicts] using h.stays f
    · cases hstep
  | unindex f =>
    simp only [step] at hstep
    split at hstep
    · next hflush => simpa [hflush, FlushRun.evicts] using h.stays f
    · cases hstep
  | clear f flushCompletedAt duration =>
    simp only [step] at hstep
    split at hstep
    · obtain rfl := Option.some.inj hstep
      exact ordered_idle f
    · cases hstep
  | abort f =>
    obtain rfl := Option.some.inj hstep
    exact ordered_idle f

theorem OneFlusher.step (h : OneFlusher boardId s) (hstep : step boardId s l = some s')
    (hkeeps : KeepsMarks boardId s l) : OneFlusher boardId s' where
  stores := inv_step h.stores (h.commitsInOrder hkeeps) hstep
  board := board_step h.board hstep
  ordered := ordered_step h hstep

/-- One step after another, every marked id stays marked until a clear returns 1. -/
theorem marked_run {ls : List (Label Writer Unit)} {id : String} (h : OneFlusher boardId s)
    (hmarked : Marked s.keys id)
    (hrun : (system Writer Unit boardId).execUnder
      (fun s l => KeepsMarks boardId s l ∧ ¬ ClearReturnsOne s l) s ls = some s') :
    Marked s'.keys id := by
  have hinv := System.execUnder_invariant (I := fun s => OneFlusher boardId s ∧ Marked s.keys id)
    ?_ ⟨h, hmarked⟩ hrun
  · exact hinv.2
  · rintro s l s' ⟨h, hmarked⟩ ⟨hkeeps, hclear⟩ hstep
    exact ⟨h.step hstep hkeeps, marked_step hmarked h.stays hclear hstep⟩

/-! ### The clear, and the next flush -/

/-- A clear that returns 1 finds its own snapshot committed and nothing written since. -/
theorem rowsMatch_of_cleared (h : OneFlusher boardId s) (hclear : ClearReturnsOne s l)
    (hstep : step boardId s l = some s') : RowsMatch boardId s'.db s'.keys.elements := by
  cases l with
  | clear f flushCompletedAt duration =>
    simp only [step] at hstep
    split at hstep
    · next sequence epoch hflush =>
      obtain rfl := Option.some.inj hstep
      simp only [ClearReturnsOne, hflush, compareAndClear_returns_one] at hclear
      -- the epoch of the run is the current one, so its commit is the latest word
      have hrun := h.stores.runs f
      rw [hflush] at hrun
      have hcommitted := hrun.committed_le sequence epoch rfl
      have hle := h.stores.synced.committed_le
      have hrows := h.stores.synced.current (by omega)
      show RowsMatch boardId s.db
        (compareAndClear true epoch sequence flushCompletedAt duration s.keys).2.elements
      rcases compareAndClear_cases epoch sequence flushCompletedAt duration s.keys with
        ⟨_, hkeys⟩ | ⟨_, hkeys⟩
      · rw [hkeys]
        exact hrows
      · rw [hkeys]
        exact hrows
    · cases hstep
  | _ => exact absurd hclear id

/-- A flush that nothing interrupts commits what is dirty, and its clear returns 1. -/
theorem exec_uninterrupted (h : OneFlusher boardId s) (hidle : s.flush () = .idle)
    (hstorable : Storable boardId s.keys) (flushCompletedAt duration : Nat) :
    ∃ s', (system Writer Unit boardId).exec s (uninterrupted flushCompletedAt duration) = some s' ∧
      s'.keys.elements = s.keys.elements ∧ RowsMatch boardId s'.db s'.keys.elements := by
  obtain ⟨db, hcommit⟩ :=
    (persistBoardIncremental_isOk h.board).mpr (writable_of_storable h hstorable)
  have hloaded : ¬ s.keys.seq.isNone = true := by
    rw [Option.isNone_iff_eq_none]
    exact Option.isSome_iff_ne_none.mp h.stores.synced.loaded
  -- nobody writes meanwhile: every read sees the keys of the state it starts from
  let sequence := peekSequence s.keys
  let epoch := getDirtyEpoch s.keys
  let dirtyIds := s.keys.dirtyElementIds.keys
  let deletedIds := s.keys.deletedElementIds.keys
  have h₁ : step boardId s (.readEpoch ()) = some (s.setFlush () (.epochRead sequence epoch)) := by
    simp only [step, hidle]
    rw [if_neg hloaded]
  have h₂ : step boardId (s.setFlush () (.epochRead sequence epoch)) (.readDirty ()) =
      some (s.setFlush () (.dirtyRead sequence epoch dirtyIds)) := by
    simp only [step, setFlush_flush, setFlush_setFlush]
    rfl
  have h₃ : step boardId (s.setFlush () (.dirtyRead sequence epoch dirtyIds)) (.readDeleted ()) =
      some (s.setFlush () (.deletedRead sequence epoch dirtyIds deletedIds)) := by
    simp only [step, setFlush_flush, setFlush_setFlush]
    rfl
  have h₄ : step boardId (s.setFlush () (.deletedRead sequence epoch dirtyIds deletedIds))
      (.readElements ()) =
        some (s.setFlush () (.elementsRead sequence epoch (dirtySnapshot s.keys))) := by
    simp only [step, setFlush_flush, setFlush_setFlush]
    rfl
  let committed : State Writer Unit :=
    { s with db := db, committedEpoch := max s.committedEpoch epoch }.setFlush ()
      (.committed sequence epoch)
  have h₅ : step boardId (s.setFlush () (.elementsRead sequence epoch (dirtySnapshot s.keys)))
      (.commit () none) = some committed := by
    have hdb : (s.setFlush () (.elementsRead sequence epoch (dirtySnapshot s.keys))).db = s.db :=
        rfl
    simp only [step, setFlush_flush, hdb, transaction, hcommit]
    simp [committed, State.setFlush]
  have hone : ClearReturnsOne committed (.clear () flushCompletedAt duration) := by
    simp only [ClearReturnsOne, committed, setFlush_flush, compareAndClear_returns_one]
    rfl
  let cleared : State Writer Unit :=
    { committed with
      keys := (compareAndClear true epoch sequence flushCompletedAt duration s.keys).2
      }.setFlush () .idle
  have h₆ : step boardId committed (.clear () flushCompletedAt duration) = some cleared := by
    simp only [step, committed, setFlush_flush]
    rfl
  have hread :
      OneFlusher boardId (s.setFlush () (.elementsRead sequence epoch (dirtySnapshot s.keys))) :=
    (((h.step h₁ trivial).step h₂ trivial).step h₃ trivial).step h₄ trivial
  have hcommitted : OneFlusher boardId committed := by
    refine hread.step h₅ ?_
    have hdb : (s.setFlush () (.elementsRead sequence epoch (dirtySnapshot s.keys))).db = s.db :=
      rfl
    simp only [KeepsMarks, setFlush_flush, hdb, transaction, hcommit]
  refine ⟨cleared, ?_, ?_, rowsMatch_of_cleared hcommitted hone h₆⟩
  · have hsystem : (system Writer Unit boardId).step = step boardId := rfl
    simp only [uninterrupted, System.exec, hsystem, h₁, h₂, h₃, h₄, h₅, h₆]
  · show (compareAndClear true epoch sequence flushCompletedAt duration s.keys).2.elements = _
    rcases compareAndClear_cases epoch sequence flushCompletedAt duration s.keys with
      ⟨_, hkeys⟩ | ⟨_, hkeys⟩
    · rw [hkeys]
    · rw [hkeys]
      rfl

/-- With one flusher at a time, no element under the empty id, and no transaction that fails with
    an error that is taken for an invalid id, a crash loses nothing: in every run the clear returns
    1 only on equal stores, what is marked stays marked until then, and the next flush that nothing
    interrupts makes the stores equal. -/
theorem crashConsistent_of_keepsMarks
    (h : (system Writer Unit boardId).ReachableUnder (KeepsMarks boardId) s) :
    CrashConsistent (KeepsMarks boardId) boardId s := by
  have hs : OneFlusher boardId s := by
    refine h.invariant (fun _ => oneFlusher_init) ?_
    intro s l s' hs hkeeps hstep
    exact hs.step hstep hkeeps
  constructor
  · intro l s' hclear hstep
    exact rowsMatch_of_cleared hs hclear hstep
  · intro ls s' hrun id hmarked
    exact marked_run hs hmarked hrun
  · intro hidle hstorable flushCompletedAt duration
    exact exec_uninterrupted hs hidle hstorable flushCompletedAt duration

end invariant

/-! ### A flush that crashes -/

/-- A call of `applyChangeSet` that stores a note under this id. -/
def storeNote (id : String) : List (Label Unit Unit) :=
  [.resolve () false ⟨[⟨id, AList.singleton "kind" (.str "NOTE")⟩], []⟩, .number (), .write () 0]

/-- A flush up to its transaction. -/
def flushAndCommit : List (Label Unit Unit) :=
  [.readEpoch (), .readDirty (), .readDeleted (), .readElements (), .commit () none]

/-- The process crashes between the transaction and the clear: the row is there, and so is the
    mark. -/
theorem crash_before_clear :
    ∃ s : State Unit Unit, Marked s.keys "x" ∧ (s.db.elements.lookup "x").isSome ∧
      CrashConsistent (KeepsMarks "aaaaaaaa-aaaa-4aaa-8aaa-aaaaaaaaaaaa")
        "aaaaaaaa-aaaa-4aaa-8aaa-aaaaaaaaaaaa" s := by
  obtain ⟨s, hs⟩ : ∃ s, (system Unit Unit "aaaaaaaa-aaaa-4aaa-8aaa-aaaaaaaaaaaa").execUnder
      (KeepsMarks "aaaaaaaa-aaaa-4aaa-8aaa-aaaaaaaaaaaa") start
      (storeNote "x" ++ flushAndCommit ++ [.abort ()]) = some s := ⟨_, rfl⟩
  refine ⟨s, ?_, ?_, crashConsistent_of_keepsMarks (.execUnder (.init start_init) hs)⟩
  · cases hs
    exact .inl (by decide)
  · cases hs
    rfl

/-- A flush skips the note under the empty id, and its clear returns 1. -/
theorem empty_id_cleared :
    ∃ s : State Unit Unit,
      (system Unit Unit "aaaaaaaa-aaaa-4aaa-8aaa-aaaaaaaaaaaa").Reachable s ∧
        ¬ CrashConsistent (fun _ _ => True) "aaaaaaaa-aaaa-4aaa-8aaa-aaaaaaaaaaaa" s := by
  obtain ⟨s, hs⟩ : ∃ s, (system Unit Unit "aaaaaaaa-aaaa-4aaa-8aaa-aaaaaaaaaaaa").exec
      start (storeNote "" ++ flushAndCommit) = some s := ⟨_, rfl⟩
  refine ⟨s, .exec (.init start_init) hs, fun hconsistent => ?_⟩
  cases hs
  have hrow := hconsistent.cleared (.clear () 0 0) _ rfl rfl ""
  exact hrow

def loneSurrogate : String := String.ofList [Char.ofNat 0x10D800]

/-- A call of `applyChangeSet` that stores a note whose text is a lone surrogate. -/
def storeLoneSurrogate : List (Label Unit Unit) :=
  [.resolve () false ⟨[⟨"x",
    (AList.singleton "kind" (.str "NOTE")).insert "text" (.str loneSurrogate)⟩], []⟩,
    .number (), .write () 0]

/-- Postgres refuses the note, and the catch evicts the board, note and marker. -/
theorem lone_surrogate_evicted :
    ∃ s : State Unit Unit,
      (system Unit Unit "aaaaaaaa-aaaa-4aaa-8aaa-aaaaaaaaaaaa").Reachable s ∧
        ¬ CrashConsistent (fun _ _ => True) "aaaaaaaa-aaaa-4aaa-8aaa-aaaaaaaaaaaa" s := by
  obtain ⟨s, hs⟩ : ∃ s, (system Unit Unit "aaaaaaaa-aaaa-4aaa-8aaa-aaaaaaaaaaaa").exec
      start storeLoneSurrogate = some s := ⟨_, rfl⟩
  have hmarked : Marked s.keys "x" := by
    cases hs
    exact .inl (by decide)
  obtain ⟨s', hrun, hdirty, hdeleted⟩ : ∃ s',
      (system Unit Unit "aaaaaaaa-aaaa-4aaa-8aaa-aaaaaaaaaaaa").execUnder
        (fun s l => True ∧ ¬ ClearReturnsOne s l) s
        (flushAndCommit ++ [.evict () (some fun _ => true)]) = some s' ∧
      s'.keys.dirtyElementIds = ∅ ∧ s'.keys.deletedElementIds = ∅ := by
    cases hs
    exact ⟨_, rfl, rfl, rfl⟩
  refine ⟨s, .exec (.init start_init) hs, fun hconsistent => ?_⟩
  have hmarked' := hconsistent.marked _ s' hrun "x" hmarked
  rw [Marked, hdirty, hdeleted] at hmarked'
  rcases hmarked' with h | h <;> exact AList.notMem_empty _ h

end Notebortt.FlushCrashes
