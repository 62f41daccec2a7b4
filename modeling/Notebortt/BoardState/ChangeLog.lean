import Notebortt.BoardState.Persistence
import Mathlib.Data.List.TakeDrop

/-! # The change log and catching up from it

    `getChangesAfter` of `board-state/state-domain.ts`, against the history of
    the `applyChangeSet` calls on a loaded board. A call is numbered whether or
    not it is trackedChanges, and the log keeps its last entries only. -/

namespace Notebortt

/-! ### Calls of `applyChangeSet` -/

/-- The arguments of `applyChangeSet`. -/
structure ApplyCall where
  changeSet : ElementChangeSet
  trackChangeLog : Bool
  baseElementsForCascadeDelete : Option (List BoardElement)

/-- `applyChangeSet` with its options and no other writer. -/
def ApplyCall.run (call : ApplyCall) (now : Nat) (k : BoardKeys) :
    Option PersistedElementChange × BoardKeys :=
  let resolved :=
    resolveChangeSet (call.baseElementsForCascadeDelete.getD k.elementList) call.changeSet
  if resolved.upserts.isEmpty && resolved.deletes.isEmpty then (none, k)
  else
    let numbered := getSequence k
    let change : PersistedElementChange :=
      { sequence := numbered.1, upserts := resolved.upserts, deletes := resolved.deletes }
    (some change, runPipeline (writePipeline call.trackChangeLog now change) numbered.2)

/-- Without the option the cascade runs over the board's own elements. -/
theorem ApplyCall.run_eq_applyChangeSet (changeSet : ElementChangeSet) (trackChangeLog : Bool)
    (now : Nat) (k : BoardKeys) :
    ApplyCall.run ⟨changeSet, trackChangeLog, none⟩ now k =
      applyChangeSet trackChangeLog now changeSet k := rfl

/-! ### Replay -/

/-- The elements after the changes, from the first to the last. -/
def replay (loaded : Dict BoardElement) (log : List PersistedElementChange) : Dict BoardElement :=
  log.foldl (fun elements change => change.applyTo elements) loaded

theorem replay_append (loaded : Dict BoardElement) (log more : List PersistedElementChange) :
    replay loaded (log ++ more) = replay (replay loaded log) more :=
  List.foldl_append

/-- An id shows what the last change that touches it leaves. -/
theorem lookup_replay (loaded : Dict BoardElement) (log : List PersistedElementChange)
    (id : String) :
    (replay loaded log).lookup id =
      match log.reverse.find? (id ∈ ·.ids) with
      | some change => (change.applyTo ∅).lookup id
      | none => loaded.lookup id := by
  induction log using List.reverseRecOn with
  | nil => rfl
  | append_singleton log change ih =>
    have hlast : replay loaded (log ++ [change]) = change.applyTo (replay loaded log) :=
      replay_append loaded log [change]
    rw [hlast, List.reverse_append, List.reverse_singleton, List.singleton_append, List.find?_cons]
    by_cases h : id ∈ change.ids
    · simp only [h, decide_true]
      exact lookup_applyTo_of_mem h _ _
    · simp only [h, decide_false]
      rw [lookup_applyTo_of_not_mem h]
      exact ih

/-! ### `getChangesAfter` -/

structure CatchUp where
  changes : List PersistedElementChange
  complete : Bool

def getChangesAfter (k : BoardKeys) (afterSequence : Nat) : CatchUp :=
  if peekSequence k ≤ afterSequence then { changes := [], complete := true }
  else
    let changes :=
      (k.changes.filter (afterSequence < ·.sequence)).mergeSort (·.sequence ≤ ·.sequence)
    match changes with
    | [] => { changes := [], complete := false }
    | first :: _ => { changes := changes, complete := first.sequence = afterSequence + 1 }

/-! ### The history of a board -/

/-- A numbered change, and whether it was logged. -/
structure Entry where
  tracked : Bool
  change : PersistedElementChange

/-- The keys after the calls, each at its reading of the clock. -/
def applyCalls (calls : List (ApplyCall × Nat)) (k : BoardKeys) : BoardKeys :=
  calls.foldl (fun k call => (call.1.run call.2 k).2) k

/-- The changes of the calls, in order. A call with nothing to do makes none. -/
def history : List (ApplyCall × Nat) → BoardKeys → List Entry
  | [], _ => []
  | (call, now) :: calls, k =>
    let rest := history calls (call.run now k).2
    match (call.run now k).1 with
    | some change => ⟨call.trackChangeLog, change⟩ :: rest
    | none => rest

/-- The content of the board when its sequence reached a number. -/
def contentAt (afterSequence : Nat) : List (ApplyCall × Nat) → BoardKeys → Dict BoardElement
  | [], k => k.elements
  | (call, now) :: calls, k =>
    if afterSequence ≤ peekSequence k then k.elements
    else contentAt afterSequence calls (call.run now k).2

/-- The logged changes among the entries. -/
def trackedChanges (entries : List Entry) : List PersistedElementChange :=
  (entries.filter (·.tracked)).map (·.change)

/-- The keys a load leaves where there was none: the sequence is at 0, and there
    is no change log. -/
structure JustLoaded (k : BoardKeys) : Prop where
  seq : k.seq = some 0
  changes : k.changes = []

theorem justLoaded_loadBoard {boardId : String} {s : Server} (hseq : (s.redis boardId).seq = none)
    (hchanges : (s.redis boardId).changes = []) :
    JustLoaded ((loadBoard boardId s).redis boardId) := by
  simp only [loadBoard, hseq, Option.isSome_none, Bool.false_eq_true, if_false,
    Server.setKeys_redis_self]
  exact ⟨rfl, hchanges⟩

/-- Catching up from the sequence number is sound: a report that is complete
    replays to the current content. -/
def CatchesUp (k : BoardKeys) (calls : List (ApplyCall × Nat)) (afterSequence : Nat) : Prop :=
  let current := applyCalls calls k
  (getChangesAfter current afterSequence).complete = true →
    ∀ id, (replay (contentAt afterSequence calls k)
      (getChangesAfter current afterSequence).changes).lookup id = current.elements.lookup id

/-- The change after `afterSequence` is in the log, and so is every later change
    that was logged. -/
def InLog (entries : List Entry) (afterSequence : Nat) : Prop :=
  (∃ change, entries[afterSequence]? = some ⟨true, change⟩) ∧
    (trackedChanges (entries.drop afterSequence)).length ≤ CHANGE_LOG_MAX_LENGTH

/-- Where the last change of an id is not logged, the logged ones leave its value
    all the same. -/
def Traceless (content : Dict BoardElement) (entries : List Entry) : Prop :=
  ∀ id change, entries.reverse.find? (id ∈ ·.change.ids) = some ⟨false, change⟩ →
    (replay content (trackedChanges entries)).lookup id = (change.applyTo ∅).lookup id

/-! ### What the calls leave -/

/-- LTRIM to the last entries. -/
def ltrim (log : List PersistedElementChange) : List PersistedElementChange :=
  log.drop (log.length - CHANGE_LOG_MAX_LENGTH)

theorem ltrim_of_le {log : List PersistedElementChange} (h : log.length ≤ CHANGE_LOG_MAX_LENGTH) :
    ltrim log = log := by
  have hnone : log.length - CHANGE_LOG_MAX_LENGTH = 0 := by omega
  rw [ltrim, hnone, List.drop_zero]

/-- A log trimmed on the way is the log trimmed at the end. -/
theorem ltrim_append (log more : List PersistedElementChange) :
    ltrim (ltrim log ++ more) = ltrim (log ++ more) := by
  unfold ltrim
  generalize CHANGE_LOG_MAX_LENGTH = limit
  have hle : log.length - limit ≤ log.length := by omega
  rw [← List.drop_append_of_le_length hle, List.drop_drop]
  congr 1
  simp only [List.length_drop, List.length_append]
  omega

/-- A call does nothing, or makes the change of the next number. -/
theorem ApplyCall.run_cases (call : ApplyCall) (now : Nat) (k : BoardKeys) :
    call.run now k = (none, k) ∨
    ∃ change k', call.run now k = (some change, k') ∧ change.sequence = peekSequence k + 1 ∧
      peekSequence k' = peekSequence k + 1 ∧ k'.elements = change.applyTo k.elements ∧
      k'.changes = if call.trackChangeLog then ltrim (k.changes ++ [change]) else k.changes := by
  unfold ApplyCall.run
  simp only
  split
  · exact .inl rfl
  · refine .inr ⟨_, _, rfl, rfl, ?_⟩
    rw [runPipeline_writePipeline]
    exact ⟨rfl, rfl, rfl⟩

section calls
variable {calls : List (ApplyCall × Nat)} {k : BoardKeys}

theorem peekSequence_applyCalls (calls : List (ApplyCall × Nat)) (k : BoardKeys) :
    peekSequence (applyCalls calls k) = peekSequence k + (history calls k).length := by
  induction calls generalizing k with
  | nil => rfl
  | cons call calls ih =>
    have hrest := ih (call.1.run call.2 k).2
    rcases call.1.run_cases call.2 k with hrun | ⟨change, k', hrun, _, hseq, _, _⟩
    · simpa [applyCalls, history, hrun] using hrest
    · simp only [hrun, hseq] at hrest
      simp only [applyCalls, List.foldl_cons, history, hrun, List.length_cons] at hrest ⊢
      omega

/-- The changes are numbered from the sequence on, without a gap. -/
theorem sequence_history {i : Nat} {entry : Entry} (h : (history calls k)[i]? = some entry) :
    entry.change.sequence = peekSequence k + 1 + i := by
  induction calls generalizing k i with
  | nil => simp [history] at h
  | cons call calls ih =>
    rcases call.1.run_cases call.2 k with hrun | ⟨change, k', hrun, hnumber, hseq, _, _⟩
    · simp only [history, hrun] at h
      exact ih h
    · simp only [history, hrun] at h
      cases i with
      | zero =>
        obtain rfl := Option.some.inj h
        exact hnumber
      | succ i =>
        have htail := ih h
        omega

theorem elements_applyCalls (calls : List (ApplyCall × Nat)) (k : BoardKeys) :
    (applyCalls calls k).elements = replay k.elements ((history calls k).map (·.change)) := by
  induction calls generalizing k with
  | nil => rfl
  | cons call calls ih =>
    have hrest := ih (call.1.run call.2 k).2
    rcases call.1.run_cases call.2 k with hrun | ⟨change, k', hrun, _, _, helements, _⟩
    · simpa [applyCalls, history, hrun] using hrest
    · simp only [hrun, helements] at hrest
      simpa [applyCalls, history, hrun, replay] using hrest

/-- The log holds the last of the logged changes. -/
theorem changes_applyCalls (calls : List (ApplyCall × Nat)) {k : BoardKeys}
    (h : ltrim k.changes = k.changes) :
    (applyCalls calls k).changes = ltrim (k.changes ++ trackedChanges (history calls k)) := by
  induction calls generalizing k with
  | nil => simp [applyCalls, history, trackedChanges, h]
  | cons call calls ih =>
    rcases call.1.run_cases call.2 k with hrun | ⟨change, k', hrun, _, _, _, hchanges⟩
    · have hrest := ih h
      simpa [applyCalls, history, hrun] using hrest
    · cases htrack : call.1.trackChangeLog with
      | false =>
        rw [htrack] at hchanges
        -- not logged: the log stays trimmed
        have hkept : ltrim k'.changes = k'.changes := by
          rw [hchanges]
          exact h
        have hrest := ih hkept
        rw [hchanges] at hrest
        simpa [applyCalls, history, hrun, trackedChanges, htrack] using hrest
      | true =>
        rw [htrack, if_pos rfl] at hchanges
        -- RPUSH and LTRIM leave a trimmed log again
        have htrimmed : ltrim k'.changes = k'.changes := by
          have hnil := ltrim_append (k.changes ++ [change]) []
          rw [List.append_nil, List.append_nil] at hnil
          rw [hchanges, hnil]
        have hrest := ih htrimmed
        rw [hchanges, ltrim_append, List.append_assoc] at hrest
        simpa [applyCalls, history, hrun, trackedChanges, htrack] using hrest

/-- The content at a number is what the changes up to it leave. -/
theorem contentAt_eq (afterSequence : Nat) (calls : List (ApplyCall × Nat)) (k : BoardKeys) :
    contentAt afterSequence calls k =
      replay k.elements
        (((history calls k).take (afterSequence - peekSequence k)).map (·.change)) := by
  induction calls generalizing k with
  | nil => simp [contentAt, history, replay]
  | cons call calls ih =>
    simp only [contentAt]
    split
    · next hreached =>
      have hzero : afterSequence - peekSequence k = 0 := by omega
      rw [hzero]
      rfl
    · next hbefore =>
      rw [ih]
      rcases call.1.run_cases call.2 k with hrun | ⟨change, k', hrun, _, hseq, helements, _⟩
      · simp only [history, hrun]
      · have hsucc : afterSequence - peekSequence k =
            afterSequence - peekSequence k' + 1 := by omega
        simp only [history, hrun, hsucc, List.take_succ_cons, List.map_cons, helements]
        rfl

end calls

/-! ### Catching up -/

theorem trackedChanges_split (entries : List Entry) (n : Nat) :
    trackedChanges entries =
      trackedChanges (entries.take n) ++ trackedChanges (entries.drop n) := by
  unfold trackedChanges
  rw [← List.map_append, ← List.filter_append, List.take_append_drop]

section catchUp
variable {entries : List Entry} (hnumbers : ∀ i entry, entries[i]? = some entry →
  entry.change.sequence = 1 + i)
include hnumbers

theorem sequence_of_mem_drop {n : Nat} {change : PersistedElementChange}
    (h : change ∈ trackedChanges (entries.drop n)) : n < change.sequence := by
  obtain ⟨entry, hentry, rfl⟩ := List.mem_map.mp h
  obtain ⟨i, hi⟩ := List.mem_iff_getElem?.mp (List.mem_filter.mp hentry).1
  rw [List.getElem?_drop] at hi
  have hnumber := hnumbers _ _ hi
  omega

theorem sequence_of_mem_take {n : Nat} {change : PersistedElementChange}
    (h : change ∈ trackedChanges (entries.take n)) : change.sequence ≤ n := by
  obtain ⟨entry, hentry, rfl⟩ := List.mem_map.mp h
  obtain ⟨i, hi⟩ := List.mem_iff_getElem?.mp (List.mem_filter.mp hentry).1
  rw [List.getElem?_take] at hi
  split at hi
  · next hlt =>
    have hnumber := hnumbers _ _ hi
    omega
  · cases hi

/-- The logged changes are in the order of their numbers. -/
theorem pairwise_trackedChanges : (trackedChanges entries).Pairwise (·.sequence < ·.sequence) := by
  have hentries : entries.Pairwise (·.change.sequence < ·.change.sequence) := by
    rw [List.pairwise_iff_getElem]
    intro i j hi hj hij
    have hleft := hnumbers i _ (List.getElem?_eq_getElem hi)
    have hright := hnumbers j _ (List.getElem?_eq_getElem hj)
    omega
  exact List.pairwise_map.mpr (hentries.sublist List.filter_sublist)

/-- The entries of the log after a number: the last of the logged changes after it. -/
theorem filter_ltrim (n : Nat) :
    (ltrim (trackedChanges entries)).filter (n < ·.sequence) =
      ltrim (trackedChanges (entries.drop n)) := by
  -- whatever the trim leaves of the earlier changes, the filter takes away
  have hbefore : ∀ m, ((trackedChanges (entries.take n)).drop m).filter (n < ·.sequence) = [] := by
    intro m
    rw [List.filter_eq_nil_iff]
    intro change hchange
    have hle := sequence_of_mem_take hnumbers (List.mem_of_mem_drop hchange)
    simpa using hle
  have hafter : ∀ m, ((trackedChanges (entries.drop n)).drop m).filter (n < ·.sequence) =
      (trackedChanges (entries.drop n)).drop m := by
    intro m
    rw [List.filter_eq_self]
    intro change hchange
    have hlt := sequence_of_mem_drop hnumbers (List.mem_of_mem_drop hchange)
    simpa using hlt
  unfold ltrim
  rw [trackedChanges_split entries n, List.drop_append, List.filter_append, hbefore, hafter,
    List.nil_append]
  generalize CHANGE_LOG_MAX_LENGTH = limit
  congr 1
  simp only [List.length_append]
  omega

/-- What a client behind the board is told. -/
theorem getChangesAfter_eq {current : BoardKeys} {n : Nat}
    (hseq : peekSequence current = entries.length)
    (hchanges : current.changes = ltrim (trackedChanges entries)) (hn : n < entries.length) :
    (getChangesAfter current n).changes = ltrim (trackedChanges (entries.drop n)) ∧
      ((getChangesAfter current n).complete = true ↔
        ∃ first ∈ (ltrim (trackedChanges (entries.drop n))).head?, first.sequence = n + 1) := by
  have hsorted : (ltrim (trackedChanges (entries.drop n))).mergeSort (·.sequence ≤ ·.sequence) =
      ltrim (trackedChanges (entries.drop n)) := by
    apply List.mergeSort_of_pairwise
    have hpairwise := pairwise_trackedChanges hnumbers
    rw [trackedChanges_split entries n] at hpairwise
    have htail := (List.pairwise_append.mp hpairwise).2.1
    refine (htail.sublist (List.drop_sublist _ _)).imp ?_
    intro left right hlt
    simpa using Nat.le_of_lt hlt
  unfold getChangesAfter
  rw [if_neg (by omega), hchanges, filter_ltrim hnumbers, hsorted]
  cases ltrim (trackedChanges (entries.drop n)) with
  | nil => simp
  | cons first rest => simp

/-- The log begins with the next change exactly when it still holds it. -/
theorem head_iff_inLog {n : Nat} :
    (∃ first ∈ (ltrim (trackedChanges (entries.drop n))).head?, first.sequence = n + 1) ↔
      InLog entries n := by
  constructor
  · rintro ⟨first, hfirst, hnumber⟩
    have hmem : first ∈ trackedChanges (entries.drop n) :=
      List.mem_of_mem_drop (List.mem_of_mem_head? hfirst)
    -- no later change has the number, so the next one is trackedChanges, and is the first of them
    have hlater : first ∉ trackedChanges (entries.drop (n + 1)) := by
      intro h
      have hlt := sequence_of_mem_drop hnumbers h
      omega
    cases hnext : entries[n]? with
    | none =>
      have hnil : entries.drop n = [] := List.drop_eq_nil_of_le (List.getElem?_eq_none_iff.mp hnext)
      rw [hnil] at hmem
      cases hmem
    | some entry =>
      obtain ⟨tracked, change⟩ := entry
      have hcons : entries.drop n = ⟨tracked, change⟩ :: entries.drop (n + 1) := by
        obtain ⟨hlt, hget⟩ := List.getElem?_eq_some_iff.mp hnext
        rw [← hget, List.cons_getElem_drop_succ]
      cases tracked with
      | false =>
        have hlogged : trackedChanges (entries.drop n) = trackedChanges (entries.drop (n + 1)) := by
          rw [hcons]
          rfl
        exact absurd (hlogged ▸ hmem) hlater
      | true =>
        refine ⟨⟨change, hnext⟩, ?_⟩
        have hlogged : trackedChanges (entries.drop n) =
            change :: trackedChanges (entries.drop (n + 1)) := by
          rw [hcons]
          rfl
        by_contra hlong
        have hsome : ∃ m, (trackedChanges (entries.drop n)).length - CHANGE_LOG_MAX_LENGTH =
            m + 1 :=
          ⟨(trackedChanges (entries.drop n)).length - CHANGE_LOG_MAX_LENGTH - 1, by omega⟩
        obtain ⟨m, hm⟩ := hsome
        rw [ltrim, hm, hlogged, List.drop_succ_cons] at hfirst
        exact hlater (List.mem_of_mem_drop (List.mem_of_mem_head? hfirst))
  · rintro ⟨⟨change, hnext⟩, hle⟩
    obtain ⟨hlt, hget⟩ := List.getElem?_eq_some_iff.mp hnext
    have hcons : entries.drop n = ⟨true, change⟩ :: entries.drop (n + 1) := by
      rw [← hget, List.cons_getElem_drop_succ]
    refine ⟨change, ?_, ?_⟩
    · rw [ltrim_of_le hle, hcons]
      rfl
    · have hnumber := hnumbers n _ hnext
      simp only at hnumber
      omega

end catchUp

/-- Leaving the unlogged changes out makes no difference exactly when they leave
    no trace. -/
theorem traceless_iff {content : Dict BoardElement} {entries : List Entry} :
    Traceless content entries ↔ ∀ id, (replay content (trackedChanges entries)).lookup id =
      (replay content (entries.map (·.change))).lookup id := by
  have hall : ∀ id, (entries.map (·.change)).reverse.find? (id ∈ ·.ids) =
      (entries.reverse.find? (id ∈ ·.change.ids)).map (·.change) := by
    intro id
    rw [← List.map_reverse, List.find?_map]
    rfl
  have hlast : ∀ id, (replay content (entries.map (·.change))).lookup id =
      match entries.reverse.find? (id ∈ ·.change.ids) with
      | some entry => (entry.change.applyTo ∅).lookup id
      | none => content.lookup id := by
    intro id
    rw [lookup_replay, hall]
    cases entries.reverse.find? (id ∈ ·.change.ids) <;> rfl
  constructor
  · intro htraceless id
    rw [hlast]
    cases hfind : entries.reverse.find? (id ∈ ·.change.ids) with
    | none =>
      -- nothing touches the id
      have hnone : (trackedChanges entries).reverse.find? (id ∈ ·.ids) = none := by
        rw [List.find?_eq_none] at hfind ⊢
        intro change hchange
        obtain ⟨entry, hentry, rfl⟩ := List.mem_map.mp (List.mem_reverse.mp hchange)
        exact hfind entry (List.mem_reverse.mpr (List.mem_filter.mp hentry).1)
      rw [lookup_replay, hnone]
    | some entry =>
      obtain ⟨tracked, change⟩ := entry
      cases tracked with
      | false => exact htraceless id change hfind
      | true =>
        have hsame : (trackedChanges entries).reverse.find? (id ∈ ·.ids) = some change := by
          obtain ⟨hid, before, after, hsplit, hbefore⟩ := List.find?_eq_some_iff_append.mp hfind
          have hreverse : (trackedChanges entries).reverse = trackedChanges entries.reverse := by
            rw [trackedChanges, ← List.map_reverse, ← List.filter_reverse]
            rfl
          rw [hreverse, hsplit]
          have hhead : ∀ c ∈ trackedChanges before, id ∉ c.ids := by
            intro c hc
            obtain ⟨entry, hentry, rfl⟩ := List.mem_map.mp hc
            simpa using hbefore entry (List.mem_filter.mp hentry).1
          have hcons : trackedChanges (before ++ ⟨true, change⟩ :: after) =
              trackedChanges before ++ change :: trackedChanges after := by
            simp [trackedChanges]
          rw [hcons, List.find?_eq_some_iff_append]
          exact ⟨by simpa using hid, _, _, rfl, by simpa using hhead⟩
        rw [lookup_replay, hsame]
  · intro hsame id change hfind
    rw [hsame id, hlast id, hfind]

/-- Catching up is sound exactly when the next change is not in the log, or the
    changes that were not logged leave no trace. -/
theorem catchesUp_iff {k : BoardKeys} (hloaded : JustLoaded k) (calls : List (ApplyCall × Nat))
    {afterSequence : Nat} (hafter : afterSequence ≤ peekSequence (applyCalls calls k)) :
    CatchesUp k calls afterSequence ↔
      (InLog (history calls k) afterSequence →
        Traceless (contentAt afterSequence calls k) ((history calls k).drop afterSequence)) := by
  -- a board just loaded is at zero, so positions in the history are numbers
  have hzero : peekSequence k = 0 := by
    rw [peekSequence, hloaded.seq]
    rfl
  have hseq : peekSequence (applyCalls calls k) = (history calls k).length := by
    rw [peekSequence_applyCalls, hzero, Nat.zero_add]
  have hnumbers : ∀ i entry, (history calls k)[i]? = some entry →
      entry.change.sequence = 1 + i := by
    intro i entry hentry
    have hnumber := sequence_history hentry
    omega
  have hchanges : (applyCalls calls k).changes = ltrim (trackedChanges (history calls k)) := by
    have hnil : ltrim k.changes = k.changes := by
      rw [hloaded.changes]
      rfl
    rw [changes_applyCalls calls hnil, hloaded.changes, List.nil_append]
  have hcurrent : (applyCalls calls k).elements = replay (contentAt afterSequence calls k)
      (((history calls k).drop afterSequence).map (·.change)) := by
    rw [elements_applyCalls, contentAt_eq, hzero, Nat.sub_zero, ← replay_append, ← List.map_append,
      List.take_append_drop]
  rcases Nat.lt_or_ge afterSequence (history calls k).length with hbehind | hcaught
  · obtain ⟨hreported, hcomplete⟩ := getChangesAfter_eq hnumbers hseq hchanges hbehind
    rw [head_iff_inLog hnumbers] at hcomplete
    simp only [CatchesUp]
    rw [hcomplete, hreported]
    -- when the next change is in the log, nothing after it was trimmed
    refine imp_congr_right fun hin => ?_
    rw [ltrim_of_le hin.2, traceless_iff, hcurrent]
  · -- the client has every change
    have hnil : (history calls k).drop afterSequence = [] := List.drop_eq_nil_of_le hcaught
    have hreport : (getChangesAfter (applyCalls calls k) afterSequence).changes = [] := by
      unfold getChangesAfter
      rw [if_pos (by omega)]
    constructor
    · intro _ _ id change hfind
      rw [hnil] at hfind
      cases hfind
    · intro _ _ id
      rw [hreport, hcurrent, hnil]
      rfl

/-- A note is stored, in collab mode or in solo mode. -/
def storeNote (id : String) (trackChangeLog : Bool) : ApplyCall where
  changeSet := { upserts := [⟨id, ∅⟩], deletes := [] }
  trackChangeLog := trackChangeLog
  baseElementsForCascadeDelete := none

/-- Two logged changes on an empty board, and a client that has the first. -/
theorem catchesUp_iff_twoNotes :
    let k : BoardKeys := { seq := some 0 }
    JustLoaded k ∧ (CatchesUp k [(storeNote "x" true, 0), (storeNote "y" true, 0)] 1 ↔
      (InLog (history [(storeNote "x" true, 0), (storeNote "y" true, 0)] k) 1 →
        Traceless (contentAt 1 [(storeNote "x" true, 0), (storeNote "y" true, 0)] k)
          ((history [(storeNote "x" true, 0), (storeNote "y" true, 0)] k).drop 1))) :=
  ⟨⟨rfl, rfl⟩, catchesUp_iff ⟨rfl, rfl⟩ _ (by decide)⟩

/-- The board goes from collab mode to solo mode: a client that has neither note
    is told that the first one is all it missed. -/
theorem unlogged_change_is_skipped :
    ¬ CatchesUp { seq := some 0 } [(storeNote "x" true, 0), (storeNote "y" false, 0)] 0 := by
  have hseq : peekSequence (applyCalls [(storeNote "x" true, 0), (storeNote "y" false, 0)]
      { seq := some 0 }) = 2 := rfl
  have hlog : (applyCalls [(storeNote "x" true, 0), (storeNote "y" false, 0)]
      { seq := some 0 }).changes = [⟨1, [⟨"x", ∅⟩], []⟩] := rfl
  have hreport : getChangesAfter (applyCalls [(storeNote "x" true, 0), (storeNote "y" false, 0)]
      { seq := some 0 }) 0 = ⟨[⟨1, [⟨"x", ∅⟩], []⟩], true⟩ := by
    simp [getChangesAfter, hseq, hlog]
  intro h
  have hy := h (by rw [hreport]) "y"
  rw [hreport] at hy
  have hmissing : none = some (BoardElement.mk "y" ∅) := hy
  cases hmissing

end Notebortt
