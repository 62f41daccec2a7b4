import Notebortt.BoardState.RowIsolation
import Notebortt.Mutations.BatchEquivalence

/-! # `POST /boards/:id/mutations`

    The route checks the caller's access to the board in its path and hands the
    body to `processBatch`, which regroups the mutations by the board each of
    them names. This module says when the request leaves every board but its
    own alone. The socket entry compares the two ids first
    (`hasConsistentBatchBoardId`). -/

namespace Notebortt

/-! ### The route -/

inductive BoardPermission where
  | view
  | edit
  deriving DecidableEq

/-- What `checkBoardAccess` answers. -/
structure BoardAccess where
  hasAccess : Bool
  permission : BoardPermission

inductive MutationsResponse where
  | badRequest
  | forbidden
  | results (results : List (Option MutationResult))

/-- `POST /boards/:id/mutations`: the length of the body, the access check, the
    load of the board, the batch. -/
def postMutations (cfg : Config) (mode : String → BoardSyncWriteMode) (now : Nat)
    (access : BoardAccess) (id : String) (mutations : List Mutation) (s : Server) :
    Except QueryError MutationsResponse × Server :=
  if mutations.isEmpty || 100 < mutations.length then (.ok .badRequest, s)
  else if !access.hasAccess || access.permission ≠ .edit then (.ok .forbidden, s)
  else
    match processBatch cfg mode now mutations (loadBoard id s) with
    | (.error e, s) => (.error e, s)
    | (.ok results, s) => (.ok (.results results), s)

/-- The check the socket entry makes before its batch. -/
def hasConsistentBatchBoardId (boardId : String) (mutations : List Mutation) : Bool :=
  mutations.all fun mutation => mutation.boardId == boardId

/-! ### What must stay -/

/-- The state of one board: elements, sequence, seen and dirty markers. -/
structure StateKept (k k' : BoardKeys) : Prop where
  seq : k'.seq = k.seq
  elements : k'.elements = k.elements
  seen : k'.seen = k.seen
  dirtyElementIds : k'.dirtyElementIds = k.dirtyElementIds
  deletedElementIds : k'.deletedElementIds = k.deletedElementIds
  dirtySince : k'.dirtySince = k.dirtySince
  dirtyEpoch : k'.dirtyEpoch = k.dirtyEpoch
  inDirtyBoards : k'.inDirtyBoards = k.inDirtyBoards
  dirtyByAge : k'.dirtyByAge = k.dirtyByAge

theorem StateKept.of_eq {k k' : BoardKeys} (h : k' = k) : StateKept k k' := by
  subst h
  exact ⟨rfl, rfl, rfl, rfl, rfl, rfl, rfl, rfl, rfl⟩

/-- Every board but one is as it was, in Redis and in Postgres. -/
structure OtherBoardsKept (id : String) (s s' : Server) : Prop where
  redis : ∀ b, b ≠ id → StateKept (s.redis b) (s'.redis b)
  rows : OtherRowsKept id s.db s'.db

/-! ### One mutation and one loop, on the seen markers -/

/-- The mutation leaves no trace: it is only passed on, or it was seen. -/
def LeavesNoTrace (m : Mutation) (k : BoardKeys) : Prop :=
  m.isTransient = true ∨ m.mutationId ∈ k.seen

theorem processMutationWithContext_no_trace {m : Mutation} {k : BoardKeys} (now : Nat)
    (context : Dict BoardElement) (mode : BoardSyncWriteMode) (h : LeavesNoTrace m k) :
    (processMutationWithContext now m context mode k).keys = k ∧
      (processMutationWithContext now m context mode k).appliedCanonicalChange = false := by
  unfold processMutationWithContext
  cases htransient : m.isTransient with
  | true => exact ⟨rfl, rfl⟩
  | false =>
    rcases h with h | hseen
    · rw [htransient] at h
      cases h
    · simp [tryMarkSeen, hseen]

/-- A loop over mutations that leave no trace leaves the keys, and changes nothing. -/
theorem processEntries_no_trace (now : Nat) (mode : BoardSyncWriteMode)
    {entries : List (Nat × Mutation)} (context : Dict BoardElement) {k : BoardKeys}
    (h : ∀ e ∈ entries, LeavesNoTrace e.2 k) :
    (processEntries now mode entries context k).2 = (false, k) := by
  induction entries generalizing context with
  | nil => rfl
  | cons e rest ih =>
    obtain ⟨index, m⟩ := e
    obtain ⟨hkeys, hflag⟩ := processMutationWithContext_no_trace now context mode
      (h (index, m) (by simp))
    simp only [processEntries, hkeys, hflag, Bool.false_or]
    rw [ih _ fun e he => h e (by simp [he])]

/-- A loop keeps the seen markers, and sets one for every mutation that is not
    only passed on. -/
theorem processEntries_seen (now : Nat) (mode : BoardSyncWriteMode)
    (entries : List (Nat × Mutation)) (context : Dict BoardElement) (k : BoardKeys) :
    (∀ id ∈ k.seen, id ∈ (processEntries now mode entries context k).2.2.seen) ∧
      ∀ e ∈ entries, e.2.isTransient = false →
        e.2.mutationId ∈ (processEntries now mode entries context k).2.2.seen := by
  induction entries generalizing context k with
  | nil => exact ⟨fun _ h => h, fun e he => by cases he⟩
  | cons first rest ih =>
    obtain ⟨index, m⟩ := first
    simp only [processEntries]
    set processed := processMutationWithContext now m context mode k
    obtain ⟨hkept, hset⟩ :=
      ih (applyPersistedChangeToContext context processed.result) processed.keys
    constructor
    · intro id hid
      exact hkept id ((processMutationWithContext_seen now m context mode k id).mpr (.inl hid))
    · intro e he htransient
      rcases List.mem_cons.mp he with rfl | he
      · exact hkept _ ((processMutationWithContext_seen now m context mode k _).mpr
          (.inr ⟨htransient, rfl⟩))
      · exact hset e he htransient

/-! ### One board of the batch -/

/-- The write-through after a board's loop deletes no key of another board: it does not flush the
    board, or finds no key of another one when it does. -/
def EvictsOwn (cfg : Config) (now : Nat) (mode : BoardSyncWriteMode) (boardId : String)
    (entries : List (Nat × Mutation)) (s : Server) : Prop :=
  let loop := boardLoop cfg now mode boardId entries s
  WriteThroughKeeps cfg mode boardId loop.2.1 (s.setKeys boardId loop.2.2) ∨
    ∀ b, b ≠ boardId →
      (s.redis b).del (fun name => scanFinds boardId (name.key b)) = s.redis b

theorem persistBoard_other {cfg : Config} {now : Nat} {boardId b : String} {s : Server}
    (hne : b ≠ boardId) (hkept : ¬ Flushes cfg boardId s) :
    (persistBoard cfg now boardId s).2.redis b = s.redis b := by
  rcases persistBoard_cases cfg now boardId s with
    ⟨hflushes, -⟩ | ⟨-, -, hpersist⟩ | ⟨-, -, e, -, -, hpersist⟩ | ⟨-, -, db, -, hpersist⟩
  · exact absurd hflushes hkept
  · rw [hpersist]
    exact Server.setKeys_redis_ne _ _ hne
  · rw [hpersist]
  · rw [hpersist]
    exact Server.setKeys_redis_ne _ _ hne

/-- One board of the batch leaves the keys of the others. -/
theorem processBoardBatch_other {cfg : Config} {mode : BoardSyncWriteMode} {now : Nat}
    {boardId : String} {entries : List (Nat × Mutation)} {s : Server}
    (hown : EvictsOwn cfg now mode boardId entries s) {b : String} (hne : b ≠ boardId) :
    (processBoardBatch cfg mode now boardId entries s).2.redis b = s.redis b := by
  rw [processBoardBatch_server]
  unfold EvictsOwn at hown
  dsimp only at hown
  generalize (boardLoop cfg now mode boardId entries s).2.1 = changed at hown ⊢
  have hwritten : (s.setKeys boardId (boardLoop cfg now mode boardId entries s).2.2).redis b =
      s.redis b :=
    Server.setKeys_redis_ne _ _ hne
  generalize s.setKeys boardId (boardLoop cfg now mode boardId entries s).2.2 = written
    at hown hwritten ⊢
  unfold persistIfSolo
  split
  · next hwrites =>
    simp only [Bool.and_eq_true, decide_eq_true_eq] at hwrites
    by_cases hflushes : Flushes cfg boardId written
    · have hnone := hown.resolve_left fun h => h hwrites.1 hwrites.2 hflushes
      rw [persistBoard_of_flushes now hflushes]
      show flushBoard boardId written.redis b = s.redis b
      simp only [flushBoard, if_neg hne, hwritten]
      exact hnone b hne
    · rw [persistBoard_other hne hflushes, hwritten]
  · exact hwritten

/-- The write-through after a board's loop takes no row of another board. -/
def FlushIsOwn (cfg : Config) (now : Nat) (mode : BoardSyncWriteMode) (boardId : String)
    (entries : List (Nat × Mutation)) (s : Server) : Prop :=
  let loop := boardLoop cfg now mode boardId entries s
  mode = .solo → loop.2.1 = true → cfg.enableIncrementalPersistence = true →
    FlushReachesRows boardId (s.setKeys boardId loop.2.2) →
      DirtyIdsAreOwn boardId (s.setKeys boardId loop.2.2)

theorem processBoardBatch_rows_iff (cfg : Config) (mode : BoardSyncWriteMode) (now : Nat)
    (boardId : String) (entries : List (Nat × Mutation)) (s : Server) :
    OtherRowsKept boardId s.db (processBoardBatch cfg mode now boardId entries s).2.db ↔
      FlushIsOwn cfg now mode boardId entries s := by
  rw [processBoardBatch_server]
  show OtherRowsKept boardId (s.setKeys boardId (boardLoop cfg now mode boardId entries s).2.2).db _
    ↔ _
  simp only [FlushIsOwn]
  set loop := boardLoop cfg now mode boardId entries s
  unfold persistIfSolo
  split
  · next hpersist =>
    simp only [Bool.and_eq_true, decide_eq_true_eq] at hpersist
    obtain ⟨hmode, hchanged⟩ := hpersist
    cases hcfg : cfg.enableIncrementalPersistence with
    | true =>
      rw [persistBoard_otherRowsKept_of_incremental now boardId _ hcfg]
      simp [hmode, hchanged]
    | false =>
      -- a full snapshot takes no row of another board
      have hkept := persistBoard_otherRowsKept_of_fullSnapshot now boardId
        (s.setKeys boardId loop.2.2) hcfg
      simp only [hkept, Bool.false_eq_true, false_implies, implies_true]
  · next hpersist =>
    simp only [Bool.and_eq_true, decide_eq_true_eq, not_and] at hpersist
    constructor
    · intro _ hmode hchanged
      exact absurd hchanged (hpersist hmode)
    · intro _
      exact OtherRowsKept.refl _ _

/-- A board whose mutations leave no trace is left as it was. -/
theorem processBoardBatch_no_trace (cfg : Config) (mode : BoardSyncWriteMode) (now : Nat)
    {boardId : String} {entries : List (Nat × Mutation)} {s : Server}
    (h : ∀ e ∈ entries, LeavesNoTrace e.2 (s.redis boardId)) :
    ∃ results, processBoardBatch cfg mode now boardId entries s = (.ok results, s) := by
  have hloop := processEntries_no_trace now mode
    (createCachedBoardContext cfg (s.redis boardId) (entries.map (·.2))) h
  have hsame : s.setKeys boardId (s.redis boardId) = s := by
    simp [Server.setKeys]
  simp only [processBoardBatch, hloop, persistIfSolo, Bool.and_false, Bool.false_eq_true, if_false,
    hsame]
  exact ⟨_, rfl⟩

/-! ### The boards of the batch -/

/-- After a board that returns, the batch goes on from what it left. -/
theorem processBoards_cons_ok {cfg : Config} {mode : String → BoardSyncWriteMode} {now : Nat}
    {boardId : String} {entries : List (Nat × Mutation)}
    {rest : List (String × List (Nat × Mutation))} {s s' : Server}
    {results : List (Nat × MutationResult)}
    (h : processBoardBatch cfg (mode boardId) now boardId entries s = (.ok results, s')) :
    (processBoards cfg mode now ((boardId, entries) :: rest) s).2 =
      (processBoards cfg mode now rest s').2 := by
  simp only [processBoards, h]
  split <;> next hrest => rw [hrest]

/-- A board that fails ends the batch. -/
theorem processBoards_cons_error {cfg : Config} {mode : String → BoardSyncWriteMode} {now : Nat}
    {boardId : String} {entries : List (Nat × Mutation)}
    {rest : List (String × List (Nat × Mutation))} {s s' : Server} {e : QueryError}
    (h : processBoardBatch cfg (mode boardId) now boardId entries s = (.error e, s')) :
    processBoards cfg mode now ((boardId, entries) :: rest) s = (.error e, s') := by
  simp only [processBoards, h]

/-- The mutations of every group but that of board `id` leave no trace. -/
def OthersLeaveNoTrace (id : String) (groups : List (String × List (Nat × Mutation))) (s : Server) :
    Prop :=
  ∀ g ∈ groups, g.1 ≠ id → ∀ e ∈ g.2, LeavesNoTrace e.2 (s.redis g.1)

theorem processBoards_no_trace {cfg : Config} {mode : String → BoardSyncWriteMode} {now : Nat}
    {groups : List (String × List (Nat × Mutation))} {s : Server}
    (h : ∀ g ∈ groups, ∀ e ∈ g.2, LeavesNoTrace e.2 (s.redis g.1)) :
    (processBoards cfg mode now groups s).2 = s := by
  induction groups with
  | nil => rfl
  | cons g rest ih =>
    obtain ⟨boardId, entries⟩ := g
    obtain ⟨results, hhead⟩ := processBoardBatch_no_trace cfg (mode boardId) now
      (h (boardId, entries) (by simp))
    rw [processBoards_cons_ok hhead]
    exact ih fun g hg => h g (by simp [hg])

/-- When the other boards' mutations leave no trace, the batch leaves what the
    loop over the board `id` leaves. -/
theorem processBoards_own {cfg : Config} {mode : String → BoardSyncWriteMode} {now : Nat}
    {groups : List (String × List (Nat × Mutation))} {s : Server} {id : String}
    {entries : List (Nat × Mutation)} (hnodup : (groups.map (·.1)).Nodup)
    (hevicts : EvictsOwn cfg now (mode id) id entries s)
    (hothers : OthersLeaveNoTrace id groups s) (hmem : (id, entries) ∈ groups) :
    (processBoards cfg mode now groups s).2 =
      (processBoardBatch cfg (mode id) now id entries s).2 := by
  induction groups with
  | nil => cases hmem
  | cons g rest ih =>
    obtain ⟨boardId, es⟩ := g
    simp only [List.map_cons, List.nodup_cons] at hnodup
    by_cases hid : boardId = id
    · subst hid
      have hes : entries = es := by
        rcases List.mem_cons.mp hmem with heq | hrest
        · exact (Prod.mk.inj heq).2
        · exact absurd (List.mem_map.mpr ⟨_, hrest, rfl⟩) hnodup.1
      subst hes
      have hkeys : ∀ b, b ≠ boardId → _ = s.redis b := fun b => processBoardBatch_other hevicts
      cases hhead : processBoardBatch cfg (mode boardId) now boardId entries s with
      | mk outcome s' =>
        rw [hhead] at hkeys
        cases outcome with
        | error e => rw [processBoards_cons_error hhead]
        | ok results =>
          -- the boards that follow leave no trace on what the board has left
          have hquiet : ∀ g ∈ rest, ∀ e ∈ g.2, LeavesNoTrace e.2 (s'.redis g.1) := by
            intro g hg e he
            have hne : g.1 ≠ boardId := by
              intro heq
              exact hnodup.1 (heq ▸ List.mem_map.mpr ⟨g, hg, rfl⟩)
            have hkept : s'.redis g.1 = s.redis g.1 := hkeys g.1 hne
            rw [hkept]
            exact hothers g (by simp [hg]) hne e he
          rw [processBoards_cons_ok hhead]
          exact processBoards_no_trace hquiet
    · have hrest : (id, entries) ∈ rest := by
        rcases List.mem_cons.mp hmem with heq | hrest
        · exact absurd (Prod.mk.inj heq).1.symm hid
        · exact hrest
      obtain ⟨results, hhead⟩ := processBoardBatch_no_trace cfg (mode boardId) now
        (hothers (boardId, es) (by simp) hid)
      rw [processBoards_cons_ok hhead]
      exact ih hnodup.2 (fun g hg => hothers g (by simp [hg])) hrest

/-- No write-through of the batch flushes a board. -/
def WriteThroughsKeep (cfg : Config) (mode : String → BoardSyncWriteMode) (now : Nat) :
    List (String × List (Nat × Mutation)) → Server → Prop
  | [], _ => True
  | (boardId, entries) :: rest, s =>
    let loop := boardLoop cfg now (mode boardId) boardId entries s
    WriteThroughKeeps cfg (mode boardId) boardId loop.2.1 (s.setKeys boardId loop.2.2) ∧
      WriteThroughsKeep cfg mode now rest
        (processBoardBatch cfg (mode boardId) now boardId entries s).2

/-- A batch leaves the keys of a board it has no group for. -/
theorem processBoards_other {cfg : Config} {mode : String → BoardSyncWriteMode} {now : Nat}
    {groups : List (String × List (Nat × Mutation))} {s : Server} {b : String}
    (hkept : WriteThroughsKeep cfg mode now groups s) (hnot : b ∉ groups.map (·.1)) :
    (processBoards cfg mode now groups s).2.redis b = s.redis b := by
  induction groups generalizing s with
  | nil => rfl
  | cons g rest ih =>
    obtain ⟨boardId, es⟩ := g
    obtain ⟨hfirst, hrest⟩ := hkept
    simp only [List.map_cons, List.mem_cons, not_or] at hnot
    have hkeys := processBoardBatch_other (.inl hfirst) hnot.1
    cases hhead : processBoardBatch cfg (mode boardId) now boardId es s with
    | mk outcome s' =>
      rw [hhead] at hkeys hrest
      cases outcome with
      | error e =>
        rw [processBoards_cons_error hhead]
        exact hkeys
      | ok results =>
        rw [processBoards_cons_ok hhead, ih hrest hnot.2]
        exact hkeys

/-- A batch that returns has set the seen marker of every mutation that is not
    only passed on. -/
theorem processBoards_seen {cfg : Config} {mode : String → BoardSyncWriteMode} {now : Nat}
    {groups : List (String × List (Nat × Mutation))} {s : Server}
    {results : List (Nat × MutationResult)} (hnodup : (groups.map (·.1)).Nodup)
    (hkept : WriteThroughsKeep cfg mode now groups s)
    (hok : (processBoards cfg mode now groups s).1 = .ok results) :
    ∀ g ∈ groups, ∀ e ∈ g.2, e.2.isTransient = false →
      e.2.mutationId ∈ ((processBoards cfg mode now groups s).2.redis g.1).seen := by
  induction groups generalizing s results with
  | nil => intro g hg; cases hg
  | cons first rest ih =>
    obtain ⟨boardId, es⟩ := first
    obtain ⟨hfirst, hrest⟩ := hkept
    simp only [List.map_cons, List.nodup_cons] at hnodup
    have hloop := (processEntries_seen now (mode boardId) es
      (createCachedBoardContext cfg (s.redis boardId) (es.map (·.2))) (s.redis boardId)).2
    -- the write-through keeps the seen markers of the loop
    have hself : SameHot ((processBoardBatch cfg (mode boardId) now boardId es s).2.redis boardId)
        (boardLoop cfg now (mode boardId) boardId es s).2.2 := by
      rw [processBoardBatch_server]
      have hflushed := persistIfSolo_sameHot cfg (mode boardId) now
        (boardLoop cfg now (mode boardId) boardId es s).2.1
        (s.setKeys boardId (boardLoop cfg now (mode boardId) boardId es s).2.2) hfirst
      rw [Server.setKeys_redis_self] at hflushed
      exact hflushed
    cases hhead : processBoardBatch cfg (mode boardId) now boardId es s with
    | mk outcome s' =>
      rw [hhead] at hself hrest
      cases outcome with
      | error e =>
        rw [processBoards_cons_error hhead] at hok
        cases hok
      | ok headResults =>
        -- the answer is there, so no later board failed
        have hmore : ∃ more, (processBoards cfg mode now rest s').1 = .ok more := by
          simp only [processBoards, hhead] at hok
          split at hok
          · cases hok
          · next more _ hrest => exact ⟨more, by rw [hrest]⟩
        obtain ⟨more, hmore⟩ := hmore
        rw [processBoards_cons_ok hhead]
        intro g hg e he htransient
        rcases List.mem_cons.mp hg with rfl | hg
        · rw [processBoards_other hrest hnodup.1, hself.seen]
          exact hloop e he htransient
        · exact ih hnodup.2 hrest hmore g hg e he htransient

/-! ### The request -/

/-- The answer to `checkBoardAccess` that lets a caller edit. -/
def editAccess : BoardAccess := { hasAccess := true, permission := .edit }

/-- The request is about its own board: a mutation that names another board
    leaves no trace there, and the write-through of the board takes no row and
    no key of another one. -/
structure RequestIsOwn (cfg : Config) (mode : String → BoardSyncWriteMode) (now : Nat)
    (id : String) (ms : List Mutation) (s : Server) : Prop where
  mutations : ∀ m ∈ ms, m.boardId ≠ id → LeavesNoTrace m (s.redis m.boardId)
  flush : ∀ entries, (id, entries) ∈ groupByBoard ms →
    FlushIsOwn cfg now (mode id) id entries (loadBoard id s)
  evicts : ∀ entries, (id, entries) ∈ groupByBoard ms →
    EvictsOwn cfg now (mode id) id entries (loadBoard id s)

/-- The check of the socket entry is enough for the first part. -/
theorem hasConsistentBatchBoardId_own {id : String} {ms : List Mutation} {s : Server}
    (h : hasConsistentBatchBoardId id ms = true) :
    ∀ m ∈ ms, m.boardId ≠ id → LeavesNoTrace m (s.redis m.boardId) := by
  intro m hm hne
  have hown : m.boardId = id := by simpa using List.all_eq_true.mp h m hm
  exact absurd hown hne

/-- An accepted body, from a caller who may edit: the board is loaded and the
    batch runs. -/
theorem postMutations_accepted {cfg : Config} {mode : String → BoardSyncWriteMode} {now : Nat}
    {id : String} {ms : List Mutation} {s : Server} (hbody : ms ≠ [] ∧ ms.length ≤ 100) :
    postMutations cfg mode now editAccess id ms s =
      match processBatch cfg mode now ms (loadBoard id s) with
      | (.error e, s) => (.error e, s)
      | (.ok results, s) => (.ok (.results results), s) := by
  obtain ⟨hne, hlength⟩ := hbody
  have hempty : ms.isEmpty = false := by simpa [List.isEmpty_iff] using hne
  have hlong : decide (100 < ms.length) = false := by simpa using hlength
  simp only [postMutations, editAccess, hempty, hlong]
  rfl

theorem postMutations_server {cfg : Config} {mode : String → BoardSyncWriteMode} {now : Nat}
    {id : String} {ms : List Mutation} {s : Server} (hbody : ms ≠ [] ∧ ms.length ≤ 100) :
    (postMutations cfg mode now editAccess id ms s).2 =
      (processBoards cfg mode now (groupByBoard ms) (loadBoard id s)).2 := by
  rw [postMutations_accepted hbody]
  unfold processBatch
  cases processBoards cfg mode now (groupByBoard ms) (loadBoard id s) with
  | mk outcome s' => cases outcome <;> rfl

theorem postMutations_returns {cfg : Config} {mode : String → BoardSyncWriteMode} {now : Nat}
    {id : String} {ms : List Mutation} {s : Server} (hbody : ms ≠ [] ∧ ms.length ≤ 100)
    {response : MutationsResponse}
    (h : (postMutations cfg mode now editAccess id ms s).1 = .ok response) :
    ∃ results, (processBoards cfg mode now (groupByBoard ms) (loadBoard id s)).1 = .ok results := by
  rw [postMutations_accepted hbody] at h
  unfold processBatch at h
  cases hboards : processBoards cfg mode now (groupByBoard ms) (loadBoard id s) with
  | mk outcome s' =>
    cases outcome with
    | error e =>
      rw [hboards] at h
      cases h
    | ok results => exact ⟨results, rfl⟩

section request
variable {cfg : Config} {mode : String → BoardSyncWriteMode} {now : Nat} {id : String}
  {ms : List Mutation} {s : Server}

/-- The groups of the other boards leave no trace on the server with the board loaded. -/
theorem othersLeaveNoTrace_groups
    (h : ∀ m ∈ ms, m.boardId ≠ id → LeavesNoTrace m (s.redis m.boardId)) :
    OthersLeaveNoTrace id (groupByBoard ms) (loadBoard id s) := by
  intro g hg hne e he
  obtain ⟨hmem, hnamed⟩ := mem_groupByBoard hg e he
  rw [loadBoard_other s hne, ← hnamed]
  exact h e.2 hmem (by rw [hnamed]; exact hne)

/-- With no trace on the other boards, the rows of the other boards are kept
    exactly when the write-through of the board takes none of them. -/
theorem processBoards_rows_iff
    (hevicts : ∀ entries, (id, entries) ∈ groupByBoard ms →
      EvictsOwn cfg now (mode id) id entries (loadBoard id s))
    (h : ∀ m ∈ ms, m.boardId ≠ id → LeavesNoTrace m (s.redis m.boardId)) :
    OtherRowsKept id s.db (processBoards cfg mode now (groupByBoard ms) (loadBoard id s)).2.db ↔
      ∀ entries, (id, entries) ∈ groupByBoard ms →
        FlushIsOwn cfg now (mode id) id entries (loadBoard id s) := by
  have hothers := othersLeaveNoTrace_groups h
  have hdb : (loadBoard id s).db = s.db := loadBoard_db id s
  by_cases hgroup : ∃ entries, (id, entries) ∈ groupByBoard ms
  · obtain ⟨entries, hmem⟩ := hgroup
    rw [processBoards_own (nodup_groupByBoard ms) (hevicts entries hmem) hothers hmem, ← hdb,
      processBoardBatch_rows_iff]
    constructor
    · intro hflush entries' hmem'
      -- a board has one group
      have hsame : entries' = entries := by
        have hinj := List.inj_on_of_nodup_map (nodup_groupByBoard ms) hmem' hmem rfl
        exact (Prod.mk.inj hinj).2
      rw [hsame]
      exact hflush
    · intro hflush
      exact hflush entries hmem
  · have hall : ∀ g ∈ groupByBoard ms, ∀ e ∈ g.2,
        LeavesNoTrace e.2 ((loadBoard id s).redis g.1) := by
      intro g hg e he
      refine hothers g hg ?_ e he
      rintro rfl
      exact hgroup ⟨g.2, hg⟩
    rw [processBoards_no_trace hall, hdb]
    constructor
    · intro _ entries hmem
      exact absurd ⟨entries, hmem⟩ hgroup
    · intro _
      exact OtherRowsKept.refl _ _

/-- With no trace on the other boards, their keys are kept. -/
theorem processBoards_keys_kept
    (hevicts : ∀ entries, (id, entries) ∈ groupByBoard ms →
      EvictsOwn cfg now (mode id) id entries (loadBoard id s))
    (h : ∀ m ∈ ms, m.boardId ≠ id → LeavesNoTrace m (s.redis m.boardId)) {b : String}
    (hne : b ≠ id) :
    (processBoards cfg mode now (groupByBoard ms) (loadBoard id s)).2.redis b = s.redis b := by
  have hothers := othersLeaveNoTrace_groups h
  by_cases hgroup : ∃ entries, (id, entries) ∈ groupByBoard ms
  · obtain ⟨entries, hmem⟩ := hgroup
    rw [processBoards_own (nodup_groupByBoard ms) (hevicts entries hmem) hothers hmem,
      processBoardBatch_other (hevicts entries hmem) hne, loadBoard_other s hne]
  · have hall : ∀ g ∈ groupByBoard ms, ∀ e ∈ g.2,
        LeavesNoTrace e.2 ((loadBoard id s).redis g.1) := by
      intro g hg e he
      refine hothers g hg ?_ e he
      rintro rfl
      exact hgroup ⟨g.2, hg⟩
    rw [processBoards_no_trace hall, loadBoard_other s hne]

/-- A batch that returns, flushes no board and keeps the other boards' seen markers has left no
    trace on them. -/
theorem no_trace_of_seen_kept
    (hkept : WriteThroughsKeep cfg mode now (groupByBoard ms) (loadBoard id s))
    {results : List (Nat × MutationResult)}
    (hok : (processBoards cfg mode now (groupByBoard ms) (loadBoard id s)).1 = .ok results)
    (hseen : ∀ b, b ≠ id → ((processBoards cfg mode now (groupByBoard ms)
      (loadBoard id s)).2.redis b).seen = (s.redis b).seen) :
    ∀ m ∈ ms, m.boardId ≠ id → LeavesNoTrace m (s.redis m.boardId) := by
  intro m hm hne
  cases htransient : m.isTransient with
  | true => exact .inl htransient
  | false =>
    obtain ⟨entries, hgroup, e, he, rfl⟩ := groupByBoard_covers hm
    have hmarked := processBoards_seen (nodup_groupByBoard ms) hkept hok _ hgroup e he htransient
    rw [hseen e.2.boardId hne] at hmarked
    exact .inr hmarked

/-- When the other boards leave no trace, the write-through of the board is one of those of the
    batch. -/
theorem evictsOwn_of_keeps {groups : List (String × List (Nat × Mutation))} {s : Server}
    (hnodup : (groups.map (·.1)).Nodup) (hkept : WriteThroughsKeep cfg mode now groups s)
    (hothers : OthersLeaveNoTrace id groups s) :
    ∀ entries, (id, entries) ∈ groups → EvictsOwn cfg now (mode id) id entries s := by
  intro entries hmem
  induction groups with
  | nil => cases hmem
  | cons g rest ih =>
    obtain ⟨boardId, es⟩ := g
    simp only [List.map_cons, List.nodup_cons] at hnodup
    rcases List.mem_cons.mp hmem with hown | hrest
    · obtain ⟨rfl, rfl⟩ := Prod.mk.inj hown
      exact .inl hkept.1
    · have hid : boardId ≠ id := by
        rintro rfl
        exact hnodup.1 (List.mem_map.mpr ⟨_, hrest, rfl⟩)
      obtain ⟨results, hhead⟩ := processBoardBatch_no_trace cfg (mode boardId) now
        (hothers (boardId, es) (by simp) hid)
      have hkept' := hkept.2
      rw [hhead] at hkept'
      exact ih hnodup.2 hkept' (fun g hg => hothers g (by simp [hg])) hrest

end request

/-- An edit request leaves every other board as it was when it is about its own
    board. It is so only then, for a request that returns and flushes no board. -/
theorem postMutations_otherBoardsKept_iff (cfg : Config) (mode : String → BoardSyncWriteMode)
    (now : Nat) (id : String) (ms : List Mutation) (s : Server)
    (hbody : ms ≠ [] ∧ ms.length ≤ 100) :
    (RequestIsOwn cfg mode now id ms s →
      OtherBoardsKept id s (postMutations cfg mode now editAccess id ms s).2) ∧
    (WriteThroughsKeep cfg mode now (groupByBoard ms) (loadBoard id s) →
      (∃ response, (postMutations cfg mode now editAccess id ms s).1 = .ok response) →
      OtherBoardsKept id s (postMutations cfg mode now editAccess id ms s).2 →
      RequestIsOwn cfg mode now id ms s) := by
  rw [postMutations_server hbody]
  constructor
  · rintro ⟨hmutations, hflush, hevicts⟩
    constructor
    · intro b hne
      exact .of_eq (processBoards_keys_kept hevicts hmutations hne)
    · exact (processBoards_rows_iff hevicts hmutations).mpr hflush
  · rintro hkept ⟨response, hresponse⟩ ⟨hredis, hrows⟩
    obtain ⟨results, hok⟩ := postMutations_returns hbody hresponse
    have hmutations := no_trace_of_seen_kept hkept hok fun b hne => (hredis b hne).seen
    have hevicts := evictsOwn_of_keeps (nodup_groupByBoard ms) hkept
      (othersLeaveNoTrace_groups hmutations)
    exact ⟨hmutations, (processBoards_rows_iff hevicts hmutations).mp hrows, hevicts⟩

/-- A note created on the board of the path, with another board loaded. -/
theorem postMutations_otherBoardsKept_create :
    let boardA := "aaaaaaaa-aaaa-4aaa-8aaa-aaaaaaaaaaaa"
    let boardB := "bbbbbbbb-bbbb-4bbb-8bbb-bbbbbbbbbbbb"
    let note : BoardElement := ⟨"x", AList.singleton "kind" (.str "NOTE")⟩
    let s : Server := ⟨fun _ => { seq := some 0 }, ⟨IdSet.add ∅ [boardA, boardB], ∅⟩⟩
    OtherBoardsKept boardA s
      (postMutations {} (fun _ => .solo) 0 editAccess boardA
        [⟨"m1", boardA, .createElement "x" note⟩] s).2 := by
  intro boardA boardB note s
  apply (postMutations_otherBoardsKept_iff {} (fun _ => .solo) 0 boardA _ s (by simp)).1
  constructor
  · intro m hm hne
    rw [List.mem_singleton.mp hm] at hne
    exact absurd rfl hne
  · intro entries _ _ _ _ _ id _ _ e _ row hrow
    cases hrow
  · intro entries hmem
    have hentries : entries = [(0, ⟨"m1", boardA, .createElement "x" note⟩)] := by
      simpa [groupByBoard, addEntry] using hmem
    subst hentries
    exact .inl fun _ _ => not_flushes_of_isOk ⟨by decide, by decide⟩ (by decide)

/-- The caller may edit the board `aaaa…` and posts to it a mutation that names
    the board `bbbb…`: the note is created there. -/
theorem postMutations_writes_other_board :
    let boardA := "aaaaaaaa-aaaa-4aaa-8aaa-aaaaaaaaaaaa"
    let boardB := "bbbbbbbb-bbbb-4bbb-8bbb-bbbbbbbbbbbb"
    let note : BoardElement := ⟨"x", AList.singleton "kind" (.str "NOTE")⟩
    let s : Server := ⟨fun _ => { seq := some 0 }, ⟨IdSet.add ∅ [boardA, boardB], ∅⟩⟩
    ¬ OtherBoardsKept boardA s
      (postMutations {} (fun _ => .collab) 0 editAccess boardA
        [⟨"m1", boardB, .createElement "x" note⟩] s).2 := by
  intro boardA boardB note s hkept
  have hseq := (hkept.redis boardB (by decide)).seq
  revert hseq
  decide

end Notebortt
