import Notebortt.Concurrency.LoadedBoards

/-! # The steps of a loaded board

    Every command of every operation keeps the invariant of `LoadedBoards`, under
    its step condition. -/

open Transition

namespace Notebortt.BoardCommands

section steps
variable {P : Type} {cfg : Config} {boardId : String} {p : P} {s s' : State P}

/-! ### The pipeline -/

/-- The run of `p` sends the next command of its pipeline. -/
structure Sends (p : P) (sent : List WriteCommand) (c : WriteCommand) (rest : List WriteCommand)
    (s s' : State P) : Prop where
  writes : Writes s sent (c :: rest)
  before : ∀ sentOne leftOne,
    (s.run p).midway sentOne leftOne = (sent.any sentOne && (c :: rest).any leftOne)
  after : ∀ sentOne leftOne,
    (s'.run p).midway sentOne leftOne = ((sent ++ [c]).any sentOne && rest.any leftOne)
  runs : ∀ q, q ≠ p → s'.run q = s.run q
  keys : s'.keys = c.exec s.keys
  lastUpsert : s'.lastUpsert = noteUpsert s.lastUpsert c
  db : s'.db = s.db
  committedEpoch : s'.committedEpoch = s.committedEpoch

namespace Sends
variable {sent rest : List WriteCommand} {c : WriteCommand} {id : String}

theorem fits (h : Sends p sent c rest s s') : c.Fits sent rest := h.writes.inOrder.1

theorem fresh_of_sets (h : Sends p sent c rest s s') (hset : c.sets id = true) : s'.Fresh id := by
  cases c with
  | hset elementId element =>
    have hid : elementId = id := by simpa [WriteCommand.sets] using hset
    subst hid
    refine ⟨element, ?_, ?_⟩
    · simp [h.lastUpsert, noteUpsert]
    · simp [h.keys, WriteCommand.exec]
  | _ => cases hset

theorem fresh (h : Sends p sent c rest s s') (hfresh : s.Fresh id) (hkept : c.removes id = false) :
    s'.Fresh id := by
  cases hset : c.sets id with
  | true => exact h.fresh_of_sets hset
  | false =>
    obtain ⟨e, hlast, hlookup⟩ := hfresh
    refine ⟨e, ?_, ?_⟩
    · rw [h.lastUpsert]
      cases c with
      | hset elementId element =>
        have hne : id ≠ elementId := by simpa [WriteCommand.sets, eq_comm] using hset
        simpa [noteUpsert, hne] using hlast
      | _ => exact hlast
    · rw [h.keys, WriteCommand.lookup_exec_of_not_sets hset hkept]
      exact hlookup

/-- What the pipeline has set and is about to mark is in the hash. -/
theorem fresh_of_marks (h : Sends p sent c rest s s')
    (hmarks : c.marksDirty id = true ∨ c.clearsDeleted id = true) :
    s.Fresh id ∧ c.removes id = false := by
  have hset : sent.any (·.sets id) = true :=
    hmarks.elim h.fits.sets_of_marksDirty h.fits.sets_of_clearsDeleted
  refine ⟨h.writes.fresh id hset (by simpa using .inl hmarks), ?_⟩
  cases c with
  | hdel elementIds => rcases hmarks with hmarks | hmarks <;> cases hmarks
  | _ => rfl

/-- An element leaves the hash with its deletion mark to come, and is marked before
    the change is over. -/
theorem held (h : Sends p sent c rest s s') (hheld : s.Held id) :
    s'.Held id ∨ c.marksDeleted id = true := by
  rcases hheld with hhash | ⟨q, hq⟩
  · left
    -- either this command takes it out of the hash, or it stays
    cases hremoves : c.removes id with
    | true =>
      refine .inr ⟨p, ?_⟩
      rw [Run.unlisted, h.after]
      simp [hremoves, (h.fits.removes hremoves).1]
    | false =>
      left
      rw [h.keys]
      exact WriteCommand.isSome_lookup_exec hhash hremoves
  · by_cases hqp : q = p
    · subst hqp
      rw [Run.unlisted, h.before, Bool.and_eq_true, List.any_cons, Bool.or_eq_true] at hq
      obtain ⟨hsent, hmarks | hrest⟩ := hq
      · exact .inr hmarks
      · refine .inl (.inr ⟨q, ?_⟩)
        rw [Run.unlisted, h.after, List.any_append, hsent, hrest]
        rfl
    · refine .inl (.inr ⟨q, ?_⟩)
      rwa [h.runs q hqp]

theorem kept (h : Sends p sent c rest s s') (hkept : s.Kept id) : s'.Kept id := by
  have hmem := WriteCommand.mem_deleted_exec c s.keys id
  rw [← h.keys] at hmem
  rcases hkept with hheld | hdeleted
  · exact (h.held hheld).imp_right fun hmarks => hmem.mpr (.inl hmarks)
  · cases hclears : c.clearsDeleted id with
    | true =>
      -- the pipeline has set the element itself
      obtain ⟨⟨e, _, hlookup⟩, hremoves⟩ := h.fresh_of_marks (.inr hclears)
      refine .inl (.inl ?_)
      rw [h.keys]
      exact WriteCommand.isSome_lookup_exec (by rw [hlookup]; rfl) hremoves
    | false => exact .inr (hmem.mpr (.inr ⟨hdeleted, hclears⟩))

/-- While a flush may trust what it read, no id is marked as deleted. -/
theorem not_isSaddDeleted (h : Sends p sent c rest s s') (hsettled : Settled cfg s s') :
    c.isSaddDeleted = false := by
  cases hdeletes : c.isSaddDeleted with
  | false => rfl
  | true =>
    have hlate : (s.run p).lateDelete = true := by
      rw [Run.lateDelete, h.before]
      simp [h.fits.raised hdeletes, hdeletes]
    rw [hsettled.late p] at hlate
    cases hlate

theorem not_isIncrDirtyEpoch (h : Sends p sent c rest s s') (hsettled : Settled cfg s s') :
    c.isIncrDirtyEpoch = false := by
  cases hraises : c.isIncrDirtyEpoch with
  | false => rfl
  | true =>
    have hepoch := hsettled.epoch
    rw [h.keys, WriteCommand.getDirtyEpoch_exec, hraises, if_pos rfl] at hepoch
    omega

theorem evolves [DecidableEq P] (h : Sends p sent c rest s s') (hseq : s.keys.seq.isSome)
    (hremoves : ∀ id, c.removes id = true → ∀ q, q ≠ p → (s.run q).unmarked id = false) :
    Evolves cfg boardId p s s' := by
  have hseq' : s'.keys.seq = s.keys.seq := by rw [h.keys, WriteCommand.seq_exec]
  -- while the epoch stays, no pipeline is at its deletion marks
  have hheld : Settled cfg s s' → ∀ id, s.Held id → s'.Held id := by
    intro hsettled id hheld
    refine (h.held hheld).resolve_right fun hmarks => ?_
    have hdeletes := WriteCommand.isSaddDeleted_of_marksDeleted hmarks
    rw [h.not_isSaddDeleted hsettled] at hdeletes
    cases hdeletes
  exact
    { runs := h.runs
      loaded := by
        rw [hseq']
        exact id
      unloaded := by
        rw [hseq']
        exact fun hnone => absurd hnone (Option.isSome_iff_ne_none.mp hseq)
      done := fun hnone => absurd hnone (Option.isSome_iff_ne_none.mp hseq)
      fresh := by
        intro q hq id hunmarked hfresh
        refine h.fresh hfresh ?_
        cases hr : c.removes id with
        | false => rfl
        | true =>
          rw [hremoves id hr q hq] at hunmarked
          cases hunmarked
      epoch_le := by
        rw [h.keys, WriteCommand.getDirtyEpoch_exec]
        omega
      committed_le := by rw [h.committedEpoch]
      late := by
        intro hsettled q
        have hbefore := hsettled.late q
        by_cases hq : q = p
        · subst hq
          rw [Run.lateDelete, h.before] at hbefore
          rw [Run.lateDelete, h.after]
          simpa [h.not_isIncrDirtyEpoch hsettled, h.not_isSaddDeleted hsettled] using hbefore
        · rwa [h.runs q hq]
      deleted := by
        intro hsettled id hid
        rw [h.keys, WriteCommand.mem_deleted_exec] at hid
        rcases hid with hmarks | ⟨hid, _⟩
        · have hdeletes := WriteCommand.isSaddDeleted_of_marksDeleted hmarks
          rw [h.not_isSaddDeleted hsettled] at hdeletes
          cases hdeletes
        · exact hid
      held := hheld
      kept := fun _ hkept => .inl (h.kept hkept)
      rows := by
        intro hsettled _ hrows id hrow
        rw [h.db] at hrow
        exact hheld hsettled id (hrows id hrow) }

/-- A dirty element that leaves the hash loses its mark before the change is over. -/
theorem dirty (h : Sends p sent c rest s s')
    (hdirty : ∀ id ∈ s.keys.dirtyElementIds, s.Fresh id ∨ ∃ q, (s.run q).uncleared id = true) :
    ∀ id ∈ s'.keys.dirtyElementIds, s'.Fresh id ∨ ∃ q, (s'.run q).uncleared id = true := by
  intro id hid
  rw [h.keys, WriteCommand.mem_dirty_exec] at hid
  rcases hid with hmarks | ⟨hid, hclears⟩
  · obtain ⟨hfresh, hkept⟩ := h.fresh_of_marks (.inl hmarks)
    exact .inl (h.fresh hfresh hkept)
  · -- its own pipeline takes the mark off after the HDEL
    rcases hdirty id hid with hfresh | ⟨q, hq⟩
    · cases hremoves : c.removes id with
      | false => exact .inl (h.fresh hfresh hremoves)
      | true =>
        refine .inr ⟨p, ?_⟩
        rw [Run.uncleared, h.after]
        simp [hremoves, (h.fits.removes hremoves).2.1]
    · by_cases hqp : q = p
      · subst hqp
        rw [Run.uncleared, h.before, List.any_cons, hclears, Bool.false_or, Bool.and_eq_true] at hq
        refine .inr ⟨q, ?_⟩
        rw [Run.uncleared, h.after, List.any_append, hq.1, hq.2]
        rfl
      · refine .inr ⟨q, ?_⟩
        rwa [h.runs q hqp]

theorem writes_rest (h : Sends p sent c rest s s') : Writes s' (sent ++ [c]) rest := by
  refine ⟨h.writes.inOrder.2, fun id hset hrest => ?_⟩
  cases hsets : c.sets id with
  | true => exact h.fresh_of_sets hsets
  | false =>
    have hbefore : sent.any (·.sets id) = true := by simpa [hsets] using hset
    have hfresh := h.writes.fresh id hbefore (by rw [List.any_cons, hrest, Bool.or_true])
    refine h.fresh hfresh ?_
    cases hremoves : c.removes id with
    | false => rfl
    | true =>
      rw [(h.fits.removes hremoves).2.2] at hbefore
      cases hbefore

end Sends

section commands
variable [DecidableEq P] {call : ApplyCall} {now : Nat}

theorem consistent_write {change : PersistedElementChange} {sent rest : List WriteCommand}
    {c : WriteCommand} (h : Consistent cfg boardId s)
    (hrun : s.run p = .apply call (.writing change sent (c :: rest)))
    (horderly : OrderlyCommand cfg boardId s p) :
    Consistent cfg boardId (applyCommand s p call now (.writing change sent (c :: rest))) := by
  have hloaded : s.keys.seq.isSome := h.loaded p (by rw [hrun]; rfl)
  have hsends : Sends p sent c rest s
      (applyCommand s p call now (.writing change sent (c :: rest))) := by
    constructor
    · have hok := h.runs p
      rw [hrun] at hok
      exact hok
    · intro sentOne leftOne
      rw [hrun]
      rfl
    · intro sentOne leftOne
      cases rest <;> simp [applyCommand, State.setRun, Run.midway]
    · exact fun q hq => State.setRun_ne _ _ hq
    all_goals rfl
  -- nobody else has set the element and not marked it yet
  have hremoves : ∀ id, c.removes id = true → ∀ q, q ≠ p → (s.run q).unmarked id = false := by
    intro id hc
    apply horderly.removes
    rw [hrun]
    cases c with
    | hdel elementIds =>
      have hmem : id ∈ elementIds := by simpa [WriteCommand.removes] using hc
      exact hmem
    | _ => cases hc
  have hseq : (c.exec s.keys).seq = s.keys.seq := c.seq_exec s.keys
  refine h.evolves (hsends.evolves hloaded hremoves) ?_ ?_ ?_ ?_ (hsends.dirty h.dirty) ?_ ?_ ?_
  · exact WriteCommand.ownIds_exec h.ownIds hsends.fits.ownId
  · have hle := h.committed_le
    rw [hsends.keys, hsends.committedEpoch, WriteCommand.getDirtyEpoch_exec]
    omega
  · intro hnone
    rw [hsends.keys, hseq] at hnone
    exact absurd hnone (Option.isSome_iff_ne_none.mp hloaded)
  · intro _ id hrow
    exact hsends.kept (h.rows hloaded id hrow)
  · refine h.lock_of_runs hsends.runs rfl ?_
    simp only [applyCommand, State.setRun, Function.update_self]
    split <;> rfl
  · rw [hsends.keys, hseq]
    exact fun _ => hloaded
  · have hnext : (applyCommand s p call now (.writing change sent (c :: rest))).run p =
        if rest.isEmpty then .idle else .apply call (.writing change (sent ++ [c]) rest) := by
      simp [applyCommand, State.setRun]
    rw [hnext]
    split
    · trivial
    · exact hsends.writes_rest

/-- A number loads a board without rows. -/
theorem consistent_number {changes : ElementChangeSet} (h : Consistent cfg boardId s)
    (hrun : s.run p = .apply call (.incr changes)) (horderly : OrderlyCommand cfg boardId s p) :
    Consistent cfg boardId (applyCommand s p call now (.incr changes)) := by
  -- the number is the key that says loaded, so there must be nothing to load
  have hrows : s.keys.seq = none → s.db.rowsOf boardId = [] := by
    intro hnone
    have hnumbers := horderly.numbers (by rw [hrun]; rfl)
    rw [hnone] at hnumbers
    exact hnumbers.resolve_left (by simp)
  have hruns : ∀ q, q ≠ p → (applyCommand s p call now (.incr changes)).run q = s.run q :=
    fun q hq => State.setRun_ne _ _ hq
  have hnext : (applyCommand s p call now (.incr changes)).run p =
      .apply call (.writing
        ⟨(getSequence s.keys).1, changes.upserts, changes.deletes⟩ []
        (writePipeline call.trackChangeLog now
          ⟨(getSequence s.keys).1, changes.upserts, changes.deletes⟩)) :=
    State.setRun_self _ _ _
  have hmidway := midway_of_runs hruns (by rw [hrun]; rfl) (by rw [hnext]; exact fun _ _ => rfl)
  have hsame : SameBoard s (applyCommand s p call now (.incr changes)) :=
    ⟨hmidway, rfl, rfl, rfl, rfl, rfl, rfl, rfl⟩
  have hevolves : Evolves cfg boardId p s (applyCommand s p call now (.incr changes)) :=
    hsame.evolves hruns (fun _ => rfl) fun hnone _ => .inl (hrows hnone)
  refine h.same hsame hevolves ?_ ?_ (fun _ => rfl) ?_
  · intro hnone _ id hrow
    obtain ⟨row, hrow⟩ := Option.isSome_iff_exists.mp hrow
    rw [Postgres.ownRow_eq_some, hrows hnone] at hrow
    cases hrow
  · exact h.lock_of_runs hruns rfl (by rw [hnext]; rfl)
  · rw [hnext]
    have hok := h.runs p
    rw [hrun] at hok
    exact ⟨inOrder_writePipeline _ _ hok, fun id hset => absurd hset (by simp)⟩

/-! ### A load -/

omit [DecidableEq P] in
/-- Only one load holds the lock. -/
theorem Consistent.loading_unique (h : Consistent cfg boardId s) (hp : (s.run p).loading = true)
    (q : P) (hq : q ≠ p) : (s.run q).loading = false := by
  cases hloading : (s.run q).loading with
  | false => rfl
  | true =>
    have hholder := (h.lock p hp).symm.trans (h.lock q hloading)
    exact absurd (Option.some.inj hholder).symm hq

/-- The SET of the sequence, when every row is written. -/
theorem consistent_loadSeq (h : Consistent cfg boardId s) (hrun : s.run p = .load (.writing [])) :
    Consistent cfg boardId (loadCommand boardId s p (.writing [])) := by
  have hloading : (s.run p).loading = true := by rw [hrun]; rfl
  have hruns : ∀ q, q ≠ p → (loadCommand boardId s p (.writing [])).run q = s.run q :=
    fun q hq => State.setRun_ne _ _ hq
  have hnext : (loadCommand boardId s p (.writing [])).run p = .load .release :=
    State.setRun_self _ _ _
  have hmidway := midway_of_runs hruns (by rw [hrun]; rfl) (by rw [hnext]; exact fun _ _ => rfl)
  -- no row is left to write
  have hrest : LoadsRest boardId s [] := by
    have hok := h.runs p
    rwa [hrun] at hok
  have hsame : SameBoard s (loadCommand boardId s p (.writing [])) :=
    ⟨hmidway, rfl, rfl, rfl, rfl, rfl, rfl, rfl⟩
  have hevolves : Evolves cfg boardId p s (loadCommand boardId s p (.writing [])) :=
    hsame.evolves hruns (fun _ => rfl) fun _ _ => .inr (h.loading_unique hloading)
  refine h.same hsame hevolves ?_ ?_ (fun _ => rfl) ?_
  · intro hnone _ id hrow
    have hhash := (hrest.loaded hnone id hrow).resolve_right (by simp)
    exact .inl (.inl hhash)
  · exact h.lock_of_runs hruns rfl (by rw [hnext]; rfl)
  · rw [hnext]
    trivial

/-- The HSET of a row, on a board that is not loaded. -/
theorem consistent_loadRow {row : String × BoardElement} {rest : List (String × BoardElement)}
    (h : Consistent cfg boardId s) (hrun : s.run p = .load (.writing (row :: rest))) :
    Consistent cfg boardId (loadCommand boardId s p (.writing (row :: rest))) := by
  have hrest : LoadsRest boardId s (row :: rest) := by
    have hok := h.runs p
    rwa [hrun] at hok
  have hseq : s.keys.seq = none := by
    cases hseq : s.keys.seq with
    | none => rfl
    | some n => cases hrest.done (by simp [hseq])
  have hruns : ∀ q, q ≠ p → (loadCommand boardId s p (.writing (row :: rest))).run q = s.run q :=
    fun q hq => State.setRun_ne _ _ hq
  have hnext : (loadCommand boardId s p (.writing (row :: rest))).run p = .load (.writing rest) :=
    State.setRun_self _ _ _
  have hlookup : ∀ id, (loadCommand boardId s p (.writing (row :: rest))).keys.elements.lookup id =
      if id = row.1 then some row.2 else s.keys.elements.lookup id :=
    fun id => Dict.lookup_insert_ite _ _ _ _
  have hhash : ∀ id, (s.keys.elements.lookup id).isSome →
      ((loadCommand boardId s p (.writing (row :: rest))).keys.elements.lookup id).isSome := by
    intro id hsome
    rw [hlookup]
    split
    · rfl
    · exact hsome
  have hmidway := midway_of_runs hruns (by rw [hrun]; rfl) (by rw [hnext]; exact fun _ _ => rfl)
  have hheld : ∀ id, s.Held id → (loadCommand boardId s p (.writing (row :: rest))).Held id :=
    fun id => Or.imp (hhash id) (exists_midway hmidway)
  have hmem : row ∈ loadedElements boardId s.db := hrest.rows hseq row (by simp)
  have hunloaded : ¬ (loadCommand boardId s p (.writing (row :: rest))).keys.seq.isSome := by
    show ¬ s.keys.seq.isSome
    simp [hseq]
  -- no change is in flight on a board that is not loaded
  have hnone : ∀ q id, (s.run q).unmarked id ≠ true := by
    intro q id hunmarked
    have hloaded := h.loaded q (Run.relies_of_midway hunmarked)
    rw [hseq] at hloaded
    cases hloaded
  have hevolves : Evolves cfg boardId p s (loadCommand boardId s p (.writing (row :: rest))) :=
    { runs := hruns
      loaded := id
      unloaded := fun _ => ⟨rfl, hhash⟩
      done := fun _ hsome => absurd hsome hunloaded
      fresh := fun q _ id hunmarked => absurd hunmarked (hnone q id)
      epoch_le := Nat.le_refl _
      committed_le := Nat.le_refl _
      late := fun hsettled q => (hmidway q _ _).trans (hsettled.late q)
      deleted := fun _ _ hid => hid
      held := fun _ => hheld
      kept := fun id hkept => .inl (hkept.imp_left (hheld id))
      rows := fun _ _ hrows id hrow => hheld id (hrows id hrow) }
  refine h.evolves hevolves ?_ h.committed_le (fun _ => h.clean hseq) ?_ ?_ ?_ ?_ ?_
  · exact h.ownIds.insert (loadedElements_ownId hmem)
  · exact fun hsome => absurd hsome hunloaded
  · intro id hid
    exact absurd hid (h.clean hseq id)
  · intro q hloading
    by_cases hq : q = p
    · subst hq
      exact h.lock q (by rw [hrun]; rfl)
    · rw [hruns q hq] at hloading
      exact h.lock q hloading
  · rw [hnext]
    intro hrelies
    cases hrelies
  · rw [hnext]
    constructor
    · exact fun _ x hx => hrest.rows hseq x (by simp [hx])
    · intro _ id hrow
      rw [hlookup]
      split
      · exact .inl rfl
      · next hne =>
        refine (hrest.loaded hseq id hrow).imp_right fun hid => ?_
        simpa [hne] using hid
    · exact fun hsome => absurd hsome hunloaded

/-! ### A flush -/

/-- A row after the commit was written from the snapshot, or was there and is not
    dropped. -/
theorem Snapshot.row_of_transaction {snap : Snapshot} {db db' : Postgres} {id : String}
    (hown : OwnIds snap.elements) (hcommit : snap.transaction boardId db = .ok db')
    (hrow : (db'.ownRow boardId id).isSome) :
    (snap.elements id).isSome ∨ ((db.ownRow boardId id).isSome ∧ ¬ snap.Drops id) := by
  cases snap with
  | incremental snap =>
    rcases ownRow_of_commit hcommit hown id with
      ⟨e, _, hupserts, _⟩ | ⟨_, _, hnone⟩ | ⟨_, hkept, hsame⟩
    · left
      rw [show (Snapshot.incremental snap).elements id = some e from hupserts.2.2]
      rfl
    · rw [hnone] at hrow
      cases hrow
    · rw [hsame] at hrow
      exact .inr ⟨hrow, fun hdrop => hkept (mem_toSet.mpr (List.mem_append_left _ hdrop))⟩
  | full elements =>
    let k : BoardKeys := { elements := elements }
    exact .inl (isSome_of_fullSnapshot (k := k) hown hcommit hrow)

theorem Snapshot.transaction_of_isEmpty {snap : Snapshot} {db db' : Postgres}
    (hempty : snap.isEmpty = true) (hcommit : snap.transaction boardId db = .ok db') :
      db' = db := by
  cases snap with
  | incremental snap =>
    have hnothing : (snap.dirtyIds.isEmpty && snap.deletedIds.isEmpty) = true := hempty
    simp only [Snapshot.transaction, persistBoardIncremental, if_pos hnothing] at hcommit
    exact (Except.ok.inj hcommit).symm
  | full elements => cases hempty

section commit
variable {sequence epoch : Nat} {snap : Snapshot} {db : Postgres} {id : String}

omit [DecidableEq P] in
/-- While the epoch stays, no row after the commit needs its deletion mark. -/
theorem held_of_commit (h : Consistent cfg boardId s) (hloaded : s.keys.seq.isSome)
    (hdeleted : DeletedRead cfg s epoch snap.Drops) (hread : ElementsRead cfg s epoch snap.elements)
    (hcommit : snap.transaction boardId s.db = .ok db)
    (hincremental : cfg.enableIncrementalPersistence = true)
    (hepoch : epoch = getDirtyEpoch s.keys) (hrow : (db.ownRow boardId id).isSome) : s.Held id := by
  rcases Snapshot.row_of_transaction hread.ownIds hcommit hrow with hwritten | ⟨hrow, hkept⟩
  · exact hread.held hincremental hepoch id hwritten
  · refine (h.rows hloaded id hrow).resolve_right fun hid => ?_
    exact hkept (hdeleted.deleted hincremental hepoch id hid)

omit [DecidableEq P] in
theorem kept_of_commit (h : Consistent cfg boardId s) (hloaded : s.keys.seq.isSome)
    (hread : ElementsRead cfg s epoch snap.elements)
    (hlatest : cfg.enableIncrementalPersistence = true → s.committedEpoch ≤ epoch)
    (hcommit : snap.transaction boardId s.db = .ok db)
    (hrow : (db.ownRow boardId id).isSome) : s.Kept id := by
  rcases Snapshot.row_of_transaction hread.ownIds hcommit hrow with hwritten | ⟨hrow, _⟩
  · exact hread.kept hlatest id hwritten
  · exact h.rows hloaded id hrow

theorem consistent_commit (h : Consistent cfg boardId s)
    (hrun : s.run p = .persist (.commit sequence epoch snap))
    (horderly : OrderlyCommand cfg boardId s p) (hcommit : snap.transaction boardId s.db = .ok db) :
    Consistent cfg boardId
      ({ s with db := db, committedEpoch := max s.committedEpoch epoch }.setRun p
        (.persist (.clear sequence epoch))) := by
  have hloaded : s.keys.seq.isSome := h.loaded p (by rw [hrun]; rfl)
  have hok : DeletedRead cfg s epoch snap.Drops ∧ ElementsRead cfg s epoch snap.elements := by
    have hok := h.runs p
    rwa [hrun] at hok
  obtain ⟨hdeleted, hread⟩ := hok
  have hle := hdeleted.le
  -- either nothing is written, or no later snapshot is committed
  have hlatest : db = s.db ∨
      (cfg.enableIncrementalPersistence = true → s.committedEpoch ≤ epoch) := by
    cases hempty : snap.isEmpty with
    | true => exact .inl (Snapshot.transaction_of_isEmpty hempty hcommit)
    | false =>
      refine .inr fun hincremental => horderly.commits hincremental epoch ?_
      rw [hrun]
      simp [Run.commitsNext, hempty]
  let s' : State P := { s with db := db, committedEpoch := max s.committedEpoch epoch }.setRun p
    (.persist (.clear sequence epoch))
  have hruns : ∀ q, q ≠ p → s'.run q = s.run q :=
    fun q hq => State.setRun_ne _ _ hq
  have hnext : s'.run p = .persist (.clear sequence epoch) := State.setRun_self _ _ _
  have hmidway := midway_of_runs hruns (by rw [hrun]; rfl) (by rw [hnext]; exact fun _ _ => rfl)
  have hheld : ∀ id, s.Held id → s'.Held id := fun id => Or.imp_right (exists_midway hmidway)
  have hkept : ∀ id, s.Kept id → s'.Kept id := fun id => Or.imp_left (hheld id)
  have hevolves : Evolves cfg boardId p s s' :=
    { runs := hruns
      loaded := id
      unloaded := fun hnone => absurd hnone (Option.isSome_iff_ne_none.mp hloaded)
      done := fun hnone => absurd hnone (Option.isSome_iff_ne_none.mp hloaded)
      fresh := fun _ _ _ _ hfresh => hfresh
      epoch_le := Nat.le_refl _
      committed_le := Nat.le_max_left _ _
      late := fun hsettled q => (hmidway q _ _).trans (hsettled.late q)
      deleted := fun _ _ hid => hid
      held := fun _ => hheld
      kept := fun id hid => .inl (hkept id hid)
      rows := by
        intro hsettled hcurrent hrows id hrow
        apply hheld
        rcases hlatest with hsame | hlatest
        · exact hrows id (hsame ▸ hrow)
        · have hcommitted := hlatest hsettled.incremental
          have hepoch : epoch = getDirtyEpoch s.keys := by omega
          exact held_of_commit h hloaded hdeleted hread hcommit hsettled.incremental hepoch hrow }
  refine h.evolves hevolves h.ownIds ?_ h.clean ?_ ?_ ?_ (fun _ => hloaded) ?_
  · have hcommitted := h.committed_le
    exact Nat.max_le.mpr ⟨hcommitted, hle⟩
  · intro _ id hrow
    apply hkept
    rcases hlatest with hsame | hlatest
    · exact h.rows hloaded id (hsame ▸ hrow)
    · exact kept_of_commit h hloaded hread hlatest hcommit hrow
  · exact fun id hid => (h.dirty id hid).imp_right (exists_midway hmidway)
  · exact h.lock_of_runs hruns rfl (by rw [hnext]; rfl)
  · rw [hnext]
    refine ⟨⟨hle, ?_⟩, Nat.le_max_right _ _, ?_⟩
    · exact fun hincremental hepoch q =>
        (hmidway q _ _).trans (hdeleted.settled hincremental hepoch q)
    · intro hincremental hepoch id hrow
      exact hheld id (held_of_commit h hloaded hdeleted hread hcommit hincremental hepoch hrow)

/-- The compare-and-clear that clears the markers, at the epoch committed. -/
theorem consistent_clearMarkers (h : Consistent cfg boardId s)
    (hrun : s.run p = .persist (.clear sequence epoch))
    (hincremental : cfg.enableIncrementalPersistence = true)
    (hepoch : epoch = getDirtyEpoch s.keys) :
    Consistent cfg boardId
      ({ s with keys := s.keys.clearMarkers true sequence now 0 }.setRun p .idle) := by
  have hloaded : s.keys.seq.isSome := h.loaded p (by rw [hrun]; rfl)
  -- what the run committed is what the hash holds
  have hcommitted : Committed cfg boardId s epoch := by
    have hok := h.runs p
    rwa [hrun] at hok
  let s' : State P := { s with keys := s.keys.clearMarkers true sequence now 0 }.setRun p .idle
  have hruns : ∀ q, q ≠ p → s'.run q = s.run q :=
    fun q hq => State.setRun_ne _ _ hq
  have hnext : s'.run p = .idle := State.setRun_self _ _ _
  have hmidway := midway_of_runs hruns (by rw [hrun]; rfl) (by rw [hnext]; exact fun _ _ => rfl)
  have hheld : ∀ id, s.Held id → s'.Held id := fun id => Or.imp_right (exists_midway hmidway)
  have hempty : ∀ id, id ∉ (∅ : IdSet) := fun id => AList.notMem_empty id
  have hevolves : Evolves cfg boardId p s s' :=
    { runs := hruns
      loaded := id
      unloaded := fun _ => ⟨rfl, fun _ => id⟩
      done := fun hnone => absurd hnone (Option.isSome_iff_ne_none.mp hloaded)
      fresh := fun _ _ _ _ hfresh => hfresh
      epoch_le := Nat.le_refl _
      committed_le := Nat.le_refl _
      late := fun hsettled q => (hmidway q _ _).trans (hsettled.late q)
      deleted := fun _ id hid => absurd hid (hempty id)
      held := fun _ => hheld
      kept := by
        intro id hkept
        rcases hkept with hid | _
        · exact .inl (.inl (hheld id hid))
        · exact .inr ⟨hincremental, rfl, hepoch ▸ hcommitted.committed⟩
      rows := fun _ _ hrows id hrow => hheld id (hrows id hrow) }
  refine h.evolves hevolves h.ownIds h.committed_le ?_ ?_ ?_ ?_ (fun _ => hloaded) ?_
  · exact fun _ => hempty
  · exact fun _ id hrow => .inl (hheld id (hcommitted.held hincremental hepoch id hrow))
  · exact fun id hid => absurd hid (hempty id)
  · exact h.lock_of_runs hruns rfl (by rw [hnext]; rfl)
  · rw [hnext]
    trivial

theorem consistent_clear (h : Consistent cfg boardId s)
    (hrun : s.run p = .persist (.clear sequence epoch)) :
    Consistent cfg boardId (persistCommand cfg boardId s p now (.clear sequence epoch)) := by
  have hpipeline : (s.run p).pipeline = [] := by rw [hrun]; rfl
  simp only [persistCommand, compareAndClear]
  split
  · exact h.setAside hpipeline rfl rfl rfl trivial
  · next hepoch =>
    have hepoch : epoch = getDirtyEpoch s.keys := (not_not.mp hepoch).symm
    cases hincremental : cfg.enableIncrementalPersistence with
    | true => exact consistent_clearMarkers h hrun hincremental hepoch
    | false =>
      -- a full snapshot clears no marker
      have hstores : Consistent cfg boardId
          { s with keys := s.keys.clearMarkers false sequence now 0 } :=
        h.stores p ⟨fun _ _ _ => rfl, rfl, rfl, rfl, rfl, rfl, rfl, rfl⟩ rfl rfl h.lock
      exact hstores.setAside hpipeline rfl rfl rfl trivial

end commit

/-! ### An eviction -/

omit [DecidableEq P] in
/-- What is known of a run that is not at work on the board needs no board. -/
theorem RunOk.aside {r : Run} (h : RunOk cfg boardId s r) (hloading : r.loading = false)
    (hrelies : r.relies = false) : RunOk cfg boardId s' r := by
  cases r with
  | idle => trivial
  | load r =>
    cases r with
    | checkAgain rows => cases hloading
    | writing rest => cases hloading
    | _ => trivial
  | apply call r =>
    cases r with
    | waitingSequence w changes => exact h
    | incr changes => exact h
    | writing change sent rest => cases hrelies
    | _ => trivial
  | persist r =>
    cases r with
    | waiting w => trivial
    | checkBoard => trivial
    | checkLoaded => trivial
    | unindexing rest => trivial
    | _ => cases hrelies
  | flush r => trivial

theorem ite_eq_of_spared {α : Type} {found : Bool} {absent value : α}
    (h : found = false ∨ value = absent) : (if found then absent else value) = value := by
  rcases h with hspared | habsent
  · rw [hspared]
    rfl
  · rw [habsent, ite_self]

/-- The state after the DEL of the keys found. -/
def State.del (s : State P) (p : P) (found : KeyName → Bool) : State P :=
  { s with
    keys := s.keys.del found
    loadLock := if found .loadLock then none else s.loadLock
    evictionLock := if found .evictionLock then none else s.evictionLock
    committedEpoch := min s.committedEpoch (getDirtyEpoch (s.keys.del found)) }.setRun p
      (.flush (.unindexing unindexPipeline))

theorem consistent_evict {found : KeyName → Bool} (h : Consistent cfg boardId s)
    (hevicts : Evicts found s) : Consistent cfg boardId (s.del p found) := by
  have hrun : ∀ q, (s.del p found).run q = s.run q ∨
      (s.del p found).run q = .flush (.unindexing unindexPipeline) := by
    intro q
    by_cases hq : q = p
    · right
      simp [State.del, State.setRun, hq]
    · left
      simp [State.del, State.setRun, hq]
  have hseq : (s.del p found).keys.seq = none := by
    have hdel : (s.del p found).keys.seq = if found .seq then none else s.keys.seq := rfl
    rw [hdel]
    rcases hevicts.seq with hfound | hnone
    · rw [hfound]
      rfl
    · rw [hnone, ite_self]
  have hdirty : ∀ id, id ∉ (s.del p found).keys.dirtyElementIds := by
    have hdel : (s.del p found).keys.dirtyElementIds =
      if found .dirtyElementIds then ∅ else s.keys.dirtyElementIds := rfl
    intro id
    rw [hdel]
    rcases hevicts.dirty with hfound | hnone
    · rw [hfound]
      exact AList.notMem_empty id
    · have hempty : s.keys.dirtyElementIds = ∅ := AList.ext hnone
      rw [hempty, ite_self]
      exact AList.notMem_empty id
  -- nobody is at work on the board, so nobody misses its keys
  have hloading : ∀ q, ((s.del p found).run q).loading = false := by
    intro q
    rcases hrun q with hsame | hnext
    · rw [hsame, hevicts.loading q]
    · rw [hnext]
      rfl
  have hrelies : ∀ q, ((s.del p found).run q).relies = false := by
    intro q
    rcases hrun q with hsame | hnext
    · rw [hsame, hevicts.relies q]
    · rw [hnext]
      rfl
  constructor
  · have hdel : (s.del p found).keys.elements =
      if found .elements then ∅ else s.keys.elements := rfl
    rw [hdel]
    split
    · exact fun id e he => absurd he (by simp)
    · exact h.ownIds
  · exact Nat.min_le_right _ _
  · exact fun _ => hdirty
  · intro hsome
    rw [hseq] at hsome
    cases hsome
  · exact fun id hid => absurd hid (hdirty id)
  · intro q hq
    rw [hloading q] at hq
    cases hq
  · intro q hq
    rw [hrelies q] at hq
    cases hq
  · intro q
    rcases hrun q with hsame | hnext
    · rw [hsame]
      exact (h.runs q).aside (hevicts.loading q) (hevicts.relies q)
    · rw [hnext]
      trivial

theorem consistent_spare {found : KeyName → Bool} (h : Consistent cfg boardId s)
    (hpipeline : (s.run p).pipeline = []) (hspares : Spares found s) :
    Consistent cfg boardId (s.del p found) := by
  have hepoch : (s.keys.del found).dirtyEpoch = s.keys.dirtyEpoch := ite_eq_of_spared hspares.epoch
  have hstores : Consistent cfg boardId { s with
      keys := s.keys.del found
      loadLock := if found .loadLock then none else s.loadLock
      evictionLock := if found .evictionLock then none else s.evictionLock
      committedEpoch := min s.committedEpoch (getDirtyEpoch (s.keys.del found)) } := by
    refine h.stores p ⟨fun _ _ _ => rfl, ?_, ?_, ?_, hepoch, rfl, ?_, rfl⟩ ?_ rfl ?_
    · exact ite_eq_of_spared (hspares.elements.imp_right fun hnone => AList.ext hnone)
    · exact ite_eq_of_spared (hspares.dirty.imp_right fun hnone => AList.ext hnone)
    · exact ite_eq_of_spared (hspares.deleted.imp_right fun hnone => AList.ext hnone)
    · have hle := h.committed_le
      rw [getDirtyEpoch, ← hepoch] at hle
      exact Nat.min_eq_left hle
    · exact ite_eq_of_spared hspares.seq
    · intro q hloading
      have hspared : found .loadLock = false := by
        refine hspares.loadLock.resolve_right fun hnone => ?_
        rw [hnone q] at hloading
        cases hloading
      simp only [hspared]
      exact h.lock q hloading
  exact hstores.setAside hpipeline rfl rfl rfl trivial

/-! ### One step -/

theorem consistent_unindex (h : Consistent cfg boardId s) (p : P) (c : UnindexCommand) :
    Consistent cfg boardId { s with keys := c.exec s.keys } := by
  cases c <;> exact h.stores p ⟨fun _ _ _ => rfl, rfl, rfl, rfl, rfl, rfl, rfl, rfl⟩ rfl rfl h.lock

theorem consistent_loadCommand {r : LoadRun} (h : Consistent cfg boardId s)
    (hrun : s.run p = .load r) : Consistent cfg boardId (loadCommand boardId s p r) := by
  have hpipeline : (s.run p).pipeline = [] := by rw [hrun]; rfl
  cases r with
  | checkEviction =>
    simp only [loadCommand]
    split <;> exact h.setAside hpipeline rfl rfl rfl trivial
  | checkLoaded =>
    simp only [loadCommand]
    split <;> exact h.setAside hpipeline rfl rfl rfl trivial
  | acquire =>
    simp only [loadCommand]
    split
    · exact h.setAside hpipeline rfl rfl rfl trivial
    · next hfree =>
      have hstores : Consistent cfg boardId { s with loadLock := some p } := by
        refine h.stores p ⟨fun _ _ _ => rfl, rfl, rfl, rfl, rfl, rfl, rfl, rfl⟩ rfl rfl ?_
        intro q hloading
        rw [h.lock q hloading] at hfree
        exact absurd rfl hfree
      exact hstores.setLoading hpipeline rfl rfl rfl trivial
  | waiting w =>
    simp only [loadCommand]
    split <;> exact h.setAside hpipeline rfl rfl rfl trivial
  | recheck =>
    have hlock := h.lock p (by rw [hrun]; rfl)
    simp only [loadCommand]
    split
    · exact h.setAside hpipeline rfl rfl rfl trivial
    · exact h.setLoading hpipeline rfl hlock rfl trivial
  | select =>
    have hlock := h.lock p (by rw [hrun]; rfl)
    exact h.setLoading hpipeline rfl hlock rfl fun _ => rfl
  | checkAgain rows =>
    have hlock := h.lock p (by rw [hrun]; rfl)
    -- the rows read are those that are there
    have hrows : s.keys.seq = none → rows = loadedElements boardId s.db := by
      have hok := h.runs p
      rwa [hrun] at hok
    simp only [loadCommand]
    split
    · exact h.setAside hpipeline rfl rfl rfl trivial
    · next hseq =>
      refine h.setLoading hpipeline rfl hlock rfl ⟨?_, ?_, ?_⟩
      · intro hnone row hrow
        rwa [← hrows hnone]
      · intro hnone id hrow
        right
        rw [hrows hnone]
        exact mem_loadedElements hrow
      · exact fun hsome => absurd hsome hseq
  | writing rest =>
    cases rest with
    | nil => exact consistent_loadSeq h hrun
    | cons row rest => exact consistent_loadRow h hrun
  | release =>
    have hstores : Consistent cfg boardId
        { s with loadLock := if s.loadLock = some p then none else s.loadLock } := by
      refine h.stores p ⟨fun _ _ _ => rfl, rfl, rfl, rfl, rfl, rfl, rfl, rfl⟩ rfl rfl ?_
      intro q hloading
      have hlock := h.lock q hloading
      -- another load holds the lock by now
      have hne : s.loadLock ≠ some p := by
        rw [hlock]
        rintro ⟨⟩
        rw [hrun] at hloading
        cases hloading
      simpa [hne] using hlock
    exact hstores.setAside hpipeline rfl rfl rfl trivial

/-- No change deletes one of its upserts. -/
theorem resolveChangeSet_disjoint (cascadeSource : List BoardElement)
    (changeSet : ElementChangeSet) :
    ∀ e ∈ (resolveChangeSet cascadeSource changeSet).upserts,
      e.id ∉ (resolveChangeSet cascadeSource changeSet).deletes := by
  intro e he
  exact of_decide_eq_true (List.mem_filter.mp he).2

theorem consistent_resolved (h : Consistent cfg boardId s) (hpipeline : (s.run p).pipeline = [])
    (call : ApplyCall) (cascadeSource : List BoardElement) :
    Consistent cfg boardId (resolved s p call cascadeSource) := by
  simp only [resolved]
  split
  · exact h.setAside hpipeline rfl rfl rfl trivial
  · exact h.setAside hpipeline rfl rfl rfl (resolveChangeSet_disjoint _ _)

theorem consistent_applyCommand {r : ApplyRun} (h : Consistent cfg boardId s)
    (hrun : s.run p = .apply call r) (horderly : OrderlyCommand cfg boardId s p) :
    Consistent cfg boardId (applyCommand s p call now r) := by
  cases r with
  | waiting w =>
    have hpipeline : (s.run p).pipeline = [] := by rw [hrun]; rfl
    simp only [applyCommand]
    split
    · exact h.setAside hpipeline rfl rfl rfl trivial
    · split
      · exact consistent_resolved h hpipeline _ _
      · split
        · exact consistent_resolved h hpipeline _ _
        · exact h.setAside hpipeline rfl rfl rfl trivial
  | waitingElements w =>
    have hpipeline : (s.run p).pipeline = [] := by rw [hrun]; rfl
    simp only [applyCommand]
    split <;> exact h.setAside hpipeline rfl rfl rfl trivial
  | readElements => exact consistent_resolved h (by rw [hrun]; rfl) _ _
  | waitingSequence w changes =>
    have hpipeline : (s.run p).pipeline = [] := by rw [hrun]; rfl
    have hok := h.runs p
    rw [hrun] at hok
    simp only [applyCommand]
    split <;> exact h.setAside hpipeline rfl rfl rfl hok
  | incr changes => exact consistent_number h hrun horderly
  | writing change sent rest =>
    cases rest with
    | nil => exact h.setAside (by rw [hrun]; rfl) rfl rfl rfl trivial
    | cons c rest => exact consistent_write h hrun horderly

theorem consistent_persistCommand {r : PersistRun} (h : Consistent cfg boardId s)
    (hrun : s.run p = .persist r) (horderly : OrderlyCommand cfg boardId s p) :
    Consistent cfg boardId (persistCommand cfg boardId s p now r) := by
  have hpipeline : (s.run p).pipeline = [] := by rw [hrun]; rfl
  have hok : PersistOk cfg boardId s r := by
    have hok := h.runs p
    rwa [hrun] at hok
  have hloaded : (Run.persist r).relies = true → s.keys.seq.isSome := by
    rw [← hrun]
    exact h.loaded p
  cases r with
  | waiting w =>
    simp only [persistCommand]
    split <;> exact h.setAside hpipeline rfl rfl rfl trivial
  | checkBoard =>
    simp only [persistCommand]
    split <;> exact h.setAside hpipeline rfl rfl rfl trivial
  | checkLoaded =>
    simp only [persistCommand]
    split
    · next hseq => exact h.setRelying hpipeline rfl rfl hseq trivial
    · exact h.setAside hpipeline rfl rfl rfl trivial
  | unindexing rest =>
    cases rest with
    | nil => exact h.setAside hpipeline rfl rfl rfl trivial
    | cons c rest => exact (consistent_unindex h p c).setAside hpipeline rfl rfl rfl trivial
  | readSince => exact h.setRelying hpipeline rfl rfl (hloaded rfl) trivial
  | waitingSequence w =>
    simp only [persistCommand]
    split <;> exact h.setRelying hpipeline rfl rfl (hloaded rfl) trivial
  | readSequence => exact h.setRelying hpipeline rfl rfl (hloaded rfl) trivial
  | readEpoch sequence =>
    -- no pipeline is between its epoch and its deletion marks
    have hread : EpochRead cfg s (getDirtyEpoch s.keys) := by
      refine ⟨Nat.le_refl _, fun hincremental _ => ?_⟩
      exact horderly.readsEpoch hincremental (by rw [hrun]; rfl)
    simp only [persistCommand]
    split <;> exact h.setRelying hpipeline rfl rfl (hloaded rfl) hread
  | readDirty sequence epoch => exact h.setRelying hpipeline rfl rfl (hloaded rfl) hok
  | readDeleted sequence epoch dirtyIds =>
    refine h.setRelying hpipeline rfl rfl (hloaded rfl) ⟨hok, fun _ _ id hid => ?_⟩
    exact AList.mem_keys.mp hid
  | readElements sequence epoch dirtyIds deletedIds =>
    refine h.setRelying hpipeline rfl rfl (hloaded rfl) ⟨hok, h.ownIds, ?_, ?_⟩
    · exact fun _ id hid => .inl (.inl hid)
    · exact fun _ _ id hid => .inl hid
  | waitingElements w sequence epoch =>
    simp only [persistCommand]
    split <;> exact h.setRelying hpipeline rfl rfl (hloaded rfl) hok
  | readAll sequence epoch =>
    refine h.setRelying hpipeline rfl rfl (hloaded rfl)
      ⟨⟨hok, fun _ _ _ _ => trivial⟩, h.ownIds, ?_, ?_⟩
    · exact fun _ id hid => .inl (.inl hid)
    · exact fun _ _ id hid => .inl hid
  | commit sequence epoch snap =>
    simp only [persistCommand]
    split
    · next db hcommit => exact consistent_commit h hrun horderly hcommit
    · split <;> exact h.setAside hpipeline rfl rfl rfl trivial
  | clear sequence epoch => exact consistent_clear h hrun

theorem consistent_flushCommand {r : FlushRun} (h : Consistent cfg boardId s)
    (hrun : s.run p = .flush r) (hstep : flushCommand s p r = some s') :
    Consistent cfg boardId s' := by
  have hpipeline : (s.run p).pipeline = [] := by rw [hrun]; rfl
  have hevictionLock : ∀ lock, Consistent cfg boardId { s with evictionLock := lock } :=
    fun _ => h.stores p ⟨fun _ _ _ => rfl, rfl, rfl, rfl, rfl, rfl, rfl, rfl⟩ rfl rfl h.lock
  cases r with
  | acquire requireIdle =>
    simp only [flushCommand] at hstep
    split at hstep
    · obtain rfl := Option.some.inj hstep
      exact h.setAside hpipeline rfl rfl rfl trivial
    · obtain rfl := Option.some.inj hstep
      cases requireIdle <;> exact (hevictionLock _).setAside hpipeline rfl rfl rfl trivial
  | checkIdle => cases hstep
  | scanning found => cases hstep
  | unindexing rest =>
    cases rest with
    | nil =>
      obtain rfl := Option.some.inj hstep
      exact h.setAside hpipeline rfl rfl rfl trivial
    | cons c rest =>
      obtain rfl := Option.some.inj hstep
      exact (consistent_unindex h p c).setAside hpipeline rfl rfl rfl trivial
  | release =>
    obtain rfl := Option.some.inj hstep
    exact (hevictionLock _).setAside hpipeline rfl rfl rfl trivial

theorem consistent_start {r : Run} (h : Consistent cfg boardId s) (hstep : s.start p r = some s')
    (hnew : r.pipeline = []) (hloading : r.loading = false) (hrelies : r.relies = false)
    (hok : RunOk cfg boardId s r) : Consistent cfg boardId s' := by
  simp only [State.start] at hstep
  split at hstep
  · next hrun =>
    obtain rfl := Option.some.inj hstep
    refine h.setRun (by rw [hrun]; rfl) hnew ?_ ?_ hok
    · simp [hloading]
    · simp [hrelies]
  · cases hstep

theorem consistent_step {l : Label P} (h : Consistent cfg boardId s)
    (horderly : Orderly cfg boardId s l) (hstep : step cfg boardId s l = some s') :
    Consistent cfg boardId s' := by
  cases l with
  | loadBoard q => exact consistent_start h hstep rfl rfl rfl trivial
  | applyChangeSet q call => exact consistent_start h hstep rfl rfl rfl trivial
  | persistBoard q => exact consistent_start h hstep rfl rfl rfl trivial
  | flushBoard q requireIdle => exact consistent_start h hstep rfl rfl rfl trivial
  | command q now =>
    simp only [step] at hstep
    split at hstep
    · cases hstep
    · next r hrun =>
      obtain rfl := Option.some.inj hstep
      exact consistent_loadCommand h hrun
    · next call r hrun =>
      obtain rfl := Option.some.inj hstep
      exact consistent_applyCommand h hrun horderly
    · next r hrun =>
      obtain rfl := Option.some.inj hstep
      exact consistent_persistCommand h hrun horderly
    · next r hrun => exact consistent_flushCommand h hrun hstep
  | idleCheck q idle | scanPage q page =>
    simp only [step] at hstep
    split at hstep
    · next hrun =>
      obtain rfl := Option.some.inj hstep
      exact h.setAside (by rw [hrun]; rfl) rfl rfl rfl trivial
    · cases hstep
  | del q =>
    simp only [step] at hstep
    split at hstep
    · next found hrun =>
      obtain rfl := Option.some.inj hstep
      have hfound : (s.run q).found = found := by rw [hrun]; rfl
      rcases horderly with hevicts | hspares
      · exact consistent_evict h (hfound ▸ hevicts)
      · exact consistent_spare h (by rw [hrun]; rfl) (hfound ▸ hspares)
    · cases hstep
  | loadLockExpires =>
    obtain rfl := Option.some.inj hstep
    cases hlock : s.loadLock with
    | none =>
      rw [← hlock]
      exact h
    | some q =>
      refine h.stores q ⟨fun _ _ _ => rfl, rfl, rfl, rfl, rfl, rfl, rfl, rfl⟩ rfl rfl ?_
      intro q' hloading
      rw [horderly q'] at hloading
      cases hloading
  | evictionLockExpires =>
    obtain rfl := Option.some.inj hstep
    cases hlock : s.evictionLock with
    | none =>
      rw [← hlock]
      exact h
    | some q =>
      exact h.stores q ⟨fun _ _ _ => rfl, rfl, rfl, rfl, rfl, rfl, rfl, rfl⟩ rfl rfl h.lock

end commands

/-! ### The run -/

theorem Init.consistent (h : Init s) : Consistent cfg boardId s := by
  have hseq : s.keys.seq = none := by rw [h.keys]
  have hdirty : ∀ id, id ∉ s.keys.dirtyElementIds := by
    intro id
    rw [h.keys]
    exact AList.notMem_empty id
  constructor
  · rw [h.keys]
    exact fun id e he => absurd he (by simp)
  · rw [h.committedEpoch]
    exact Nat.zero_le _
  · exact fun _ => hdirty
  · intro hsome
    rw [hseq] at hsome
    cases hsome
  · exact fun id hid => absurd hid (hdirty id)
  · intro q hloading
    rw [h.run q] at hloading
    cases hloading
  · intro q hrelies
    rw [h.run q] at hrelies
    cases hrelies
  · intro q
    rw [h.run q]
    trivial

/-- On a quiet board nothing is on its way. -/
theorem Consistent.loadedIsComplete (h : Consistent cfg boardId s) :
    LoadedIsComplete boardId s := by
  intro hquiet hloaded
  have hnone : ∀ sentOne leftOne, ¬ ∃ q, (s.run q).midway sentOne leftOne = true := by
    rintro sentOne leftOne ⟨q, hq⟩
    rw [hquiet.run q] at hq
    cases hq
  constructor
  · intro id hrow hdeleted
    have hheld := (h.rows hloaded id hrow).resolve_right hdeleted
    exact hheld.resolve_right (hnone _ _)
  · intro id hid
    exact (h.dirty id hid).resolve_right (hnone _ _)

theorem loadedIsComplete_of_orderly [DecidableEq P]
    (hs : (system P cfg boardId).ReachableUnder (Orderly cfg boardId) s) :
    LoadedIsComplete boardId s := by
  have h : Consistent cfg boardId s := by
    refine hs.invariant ?_ ?_
    · intro s hinit
      exact Init.consistent hinit
    · intro s l s' h horderly hstep
      exact consistent_step h horderly hstep
  exact h.loadedIsComplete

end steps

/-! ### Two runs -/

/-- A board with two rows. -/
def twoRowsDb : Postgres where
  boards := AList.singleton "aaaaaaaa-aaaa-4aaa-8aaa-aaaaaaaaaaaa" ()
  elements := (AList.singleton "x" ⟨"aaaaaaaa-aaaa-4aaa-8aaa-aaaaaaaaaaaa", "NOTE", ∅⟩).insert "y"
    ⟨"aaaaaaaa-aaaa-4aaa-8aaa-aaaaaaaaaaaa", "NOTE", ∅⟩

/-- The labels of a load that finds a number of rows. -/
def loadRows (p : Bool) (rows : Nat) : List (Label Bool) :=
  .loadBoard p :: List.replicate (8 + rows) (.command p 0)

/-- The labels of a call that deletes an element, up to the end of its pipeline. -/
def applyDelete (p : Bool) (id : String) : List (Label Bool) :=
  .applyChangeSet p ⟨⟨[], [id]⟩, true, some []⟩ :: List.replicate 18 (.command p 0)

/-- An element is deleted while a flush goes on; the board is flushed once more,
    evicted, and loaded again. -/
theorem loadedIsComplete_of_orderly_run :
    ∃ s : State Bool, Quiet s ∧ s.keys.seq = some 0 ∧ s.keys.elements.keys = ["y"] ∧
      LoadedIsComplete "aaaaaaaa-aaaa-4aaa-8aaa-aaaaaaaaaaaa" s := by
  obtain ⟨s, hs, htrue, hfalse, hloadLock, hevictionLock, hseq, helements⟩ : ∃ s,
      (system Bool {} "aaaaaaaa-aaaa-4aaa-8aaa-aaaaaaaaaaaa").execUnder
        (Orderly {} "aaaaaaaa-aaaa-4aaa-8aaa-aaaaaaaaaaaa") (start twoRowsDb)
        (loadRows true 2 ++ (applyDelete true "x").take 10 ++ (persist false).take 12
          ++ (applyDelete true "x").drop 10 ++ (persist false).drop 12
          ++ persist false ++ evict false ++ loadRows false 1) = some s ∧
        s.run true = .idle ∧ s.run false = .idle ∧ s.loadLock = none ∧ s.evictionLock = none ∧
        s.keys.seq = some 0 ∧ s.keys.elements.keys = ["y"] := ⟨_, rfl, rfl, rfl, rfl, rfl, rfl, rfl⟩
  refine ⟨s, ⟨hloadLock, hevictionLock, ?_⟩, hseq, helements,
    loadedIsComplete_of_orderly (.execUnder (.init (start_init _)) hs)⟩
  intro p
  cases p with
  | false => exact hfalse
  | true => exact htrue

/-- A change has waited for the board; the board is evicted before the change is
    numbered. The board then counts as loaded, without its rows. -/
theorem evicted_before_number :
    ∃ s : State Bool, (system Bool {} "aaaaaaaa-aaaa-4aaa-8aaa-aaaaaaaaaaaa").Reachable s ∧
      ¬ LoadedIsComplete "aaaaaaaa-aaaa-4aaa-8aaa-aaaaaaaaaaaa" s := by
  obtain ⟨s, hs, hruns, hloadLock, hevictionLock, hseq, hdeleted, hrow, hmissing⟩ : ∃ s,
      (system Bool {} "aaaaaaaa-aaaa-4aaa-8aaa-aaaaaaaaaaaa").exec (start twoRowsDb)
        (loadRows true 2 ++ (applyNote true "z").take 7 ++ evict false
          ++ (applyNote true "z").drop 7) = some s ∧
        s.run = Function.update (Function.update s.run false .idle) true .idle ∧
        s.loadLock = none ∧ s.evictionLock = none ∧ s.keys.seq = some 1 ∧
        s.keys.deletedElementIds = ∅ ∧
        (s.db.ownRow "aaaaaaaa-aaaa-4aaa-8aaa-aaaaaaaaaaaa" "x").isSome ∧
        s.keys.elements.lookup "x" = none :=
    ⟨_, rfl, by funext p; cases p <;> rfl, rfl, rfl, rfl, rfl, rfl, rfl⟩
  refine ⟨s, .exec (.init (start_init _)) hs, ?_⟩
  intro hcomplete
  have hquiet : Quiet s := by
    refine ⟨hloadLock, hevictionLock, fun p => ?_⟩
    rw [hruns]
    cases p <;> rfl
  have hpresent := (hcomplete hquiet (by rw [hseq]; rfl)).1 "x" hrow (by rw [hdeleted]; simp)
  rw [hmissing] at hpresent
  cases hpresent

end Notebortt.BoardCommands
