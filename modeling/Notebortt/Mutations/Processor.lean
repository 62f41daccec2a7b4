import Notebortt.Mutations.LockEnforcement
import Notebortt.BoardState.Persistence

/-! # The mutation processor

    `mutations/processor.ts`, run with no other writer: the context that is read
    ahead for the lock rules, one mutation, and a batch. The write mode of a
    board (`getSyncWriteMode`) is a parameter; the presence keys it reads and
    the collab marker it extends are not part of this state. -/

namespace Notebortt

/-! ### The context -/

/-- The ids an operation reads ahead (`collectTouchedElementIds`). -/
def touchedIds : Operation → List String
  | .updateElement elementId _ => [elementId]
  | .reorderElement elementId _ => [elementId]
  | .moveElements moves _ => moves.map (·.elementId)
  | .updateElements updates => updates.map (·.elementId)
  | .reconcileMonthRange metaId _ deletes => metaId :: deletes
  | .createElement _ _ => []
  | .deleteElements _ => []

/-- The metas named by containment fields of a payload (`collectReferencedMetaIds`). -/
def referencedMetaIds : Operation → List String
  | .createElement _ data => (data.str? "metaContainerId").toList
  | .updateElement _ fields => (fields.str? "metaContainerId").toList
  | .updateElements updates => updates.flatMap fun u => (u.fields.str? "metaContainerId").toList
  | _ => []

def collectTouchedElementIds (mutations : List Mutation) : List String :=
  toSet (mutations.flatMap fun m => touchedIds m.operation)

def collectReferencedMetaIds (mutations : List Mutation) : List String :=
  toSet (mutations.flatMap fun m => referencedMetaIds m.operation)

/-- `fetchByIds`: one HMGET, or one HGET an id when targeted reads are off. -/
def fetchByIds (cfg : Config) (k : BoardKeys) (ids : List String) : Dict BoardElement :=
  if cfg.enableTargetedMutationReads then getElementsByIds k ids else getElementEach k ids

/-- `createCachedBoardContext`: the touched elements, their containers and the
    metas named in payloads. With no touched id nothing is read at all. -/
def createCachedBoardContext (cfg : Config) (k : BoardKeys) (mutations : List Mutation) :
    Dict BoardElement :=
  let touchedElementIds := collectTouchedElementIds mutations
  if touchedElementIds.isEmpty then ∅
  else
    let elementsById := fetchByIds cfg k touchedElementIds
    let parents := toSet (elementsById.entries.flatMap (fun entry => parentIds entry.2)
      ++ collectReferencedMetaIds mutations)
    let missingParents := parents.filter (· ∉ elementsById)
    if missingParents.isEmpty then elementsById
    else fetchByIds cfg k missingParents ∪ elementsById

/-- `applyPersistedChangeToContext`. -/
def applyPersistedChangeToContext (context : Dict BoardElement) (result : MutationResult) :
    Dict BoardElement :=
  match result.change with
  | some change => change.applyTo context
  | none => context

/-! ### The change set of an operation -/

def toUpsertFromCache (context : LockContext) (elementId : String)
    (transform : BoardElement → BoardElement) : List BoardElement :=
  match context elementId with
  | some existing => [transform existing]
  | none => []

def toChangeSet (context : LockContext) : Operation → ElementChangeSet
  | .createElement _ data => { upserts := [data], deletes := [] }
  | .updateElement elementId fields =>
    { upserts := toUpsertFromCache context elementId (·.patch fields), deletes := [] }
  | .deleteElements elementIds => { upserts := [], deletes := elementIds }
  | .moveElements moves _ =>
    { upserts := moves.flatMap fun move =>
        toUpsertFromCache context move.elementId fun existing =>
          { existing with
            fields := setMember (setMember existing.fields "x" move.x) "y" move.y }
      deletes := [] }
  | .updateElements updates =>
    { upserts := updates.flatMap fun u => toUpsertFromCache context u.elementId (·.patch u.fields)
      deletes := [] }
  | .reorderElement elementId zIndex =>
    { upserts := toUpsertFromCache context elementId fun existing =>
        { existing with fields := existing.fields.insert "zIndex" (.num zIndex) }
      deletes := [] }
  | .reconcileMonthRange _ upserts deletes => { upserts := upserts, deletes := deletes }

/-! ### One mutation -/

/-- What processing one mutation returns, and the keys it leaves. -/
structure Processed where
  result : MutationResult
  appliedCanonicalChange : Bool
  keys : BoardKeys

/-- The answer to a mutation that changed nothing: blocked, rejected or empty. -/
def unchangedResult (mutation : Mutation) (k : BoardKeys) : Processed where
  result :=
    { mutationId := mutation.mutationId, status := .applied, sequence := some (peekSequence k) }
  appliedCanonicalChange := false
  keys := k

/-- What follows once the seen marker is claimed. -/
def processClaimed (now : Nat) (mutation : Mutation) (context : Dict BoardElement)
    (writeMode : BoardSyncWriteMode) (k : BoardKeys) : Processed :=
  if isMutationBlockedByLock mutation.operation context.lookup then unchangedResult mutation k
  else if (validateReconcileMonthRange mutation.operation context.lookup).isSome then
    unchangedResult mutation k
  else
    match applyChangeSet (writeMode = .collab) now
      (toChangeSet context.lookup mutation.operation) k with
    | (none, k) => unchangedResult mutation k
    | (some change, k) =>
      { result :=
          { mutationId := mutation.mutationId, status := .applied
            sequence := some change.sequence, change := some change }
        appliedCanonicalChange := true
        keys := k }

def processMutationWithContext (now : Nat) (mutation : Mutation) (context : Dict BoardElement)
    (writeMode : BoardSyncWriteMode) (k : BoardKeys) : Processed :=
  if mutation.isTransient then
    { result := { mutationId := mutation.mutationId, status := .broadcastOnly }
      appliedCanonicalChange := false
      keys := k }
  else
    match tryMarkSeen mutation.mutationId k with
    | (false, k) =>
      { result := { mutationId := mutation.mutationId, status := .alreadyApplied }
        appliedCanonicalChange := false
        keys := k }
    | (true, k) => processClaimed now mutation context writeMode k

/-- Solo mode writes through: the board is flushed when something changed. -/
def persistIfSolo (cfg : Config) (writeMode : BoardSyncWriteMode) (now : Nat) (boardId : String)
    (changed : Bool) (s : Server) : Option QueryError × Server :=
  if writeMode = .solo && changed then persistBoard cfg now boardId s else (none, s)

def processMutation (cfg : Config) (writeMode : BoardSyncWriteMode) (now : Nat)
    (mutation : Mutation) (s : Server) : Except QueryError MutationResult × Server :=
  let k := s.redis mutation.boardId
  let context := createCachedBoardContext cfg k [mutation]
  let processed := processMutationWithContext now mutation context writeMode k
  match persistIfSolo cfg writeMode now mutation.boardId processed.appliedCanonicalChange
      (s.setKeys mutation.boardId processed.keys) with
  | (some e, s) => (.error e, s)
  | (none, s) => (.ok processed.result, s)

/-! ### A batch -/

/-- One round of the loop that fills `byBoard`. -/
def addEntry (groups : List (String × List (Nat × Mutation))) (entry : Mutation × Nat) :
    List (String × List (Nat × Mutation)) :=
  if groups.any (·.1 == entry.1.boardId) then
    groups.map fun g =>
      if g.1 = entry.1.boardId then (g.1, g.2 ++ [(entry.2, entry.1)]) else g
  else groups ++ [(entry.1.boardId, [(entry.2, entry.1)])]

/-- `byBoard`: the mutations by board, boards and mutations in arrival order,
    each mutation with its position. -/
def groupByBoard (mutations : List Mutation) : List (String × List (Nat × Mutation)) :=
  mutations.zipIdx.foldl addEntry []

/-- The loop over one board's entries: the results by position, whether some
    entry changed the board, and the keys left. -/
def processEntries (now : Nat) (writeMode : BoardSyncWriteMode) :
    List (Nat × Mutation) → Dict BoardElement → BoardKeys →
      List (Nat × MutationResult) × Bool × BoardKeys
  | [], _, k => ([], false, k)
  | (index, mutation) :: rest, context, k =>
    let processed := processMutationWithContext now mutation context writeMode k
    let tail := processEntries now writeMode rest
      (applyPersistedChangeToContext context processed.result) processed.keys
    ((index, processed.result) :: tail.1, processed.appliedCanonicalChange || tail.2.1, tail.2.2)

/-- One board of a batch, under its mutation lock. -/
def processBoardBatch (cfg : Config) (writeMode : BoardSyncWriteMode) (now : Nat)
    (boardId : String) (entries : List (Nat × Mutation)) (s : Server) :
    Except QueryError (List (Nat × MutationResult)) × Server :=
  let k := s.redis boardId
  let context := createCachedBoardContext cfg k (entries.map (·.2))
  let processed := processEntries now writeMode entries context k
  match persistIfSolo cfg writeMode now boardId processed.2.1 (s.setKeys boardId processed.2.2) with
  | (some e, s) => (.error e, s)
  | (none, s) => (.ok processed.1, s)

/-- The boards of a batch one after the other; an error ends the batch. -/
def processBoards (cfg : Config) (writeMode : String → BoardSyncWriteMode) (now : Nat) :
    List (String × List (Nat × Mutation)) → Server →
      Except QueryError (List (Nat × MutationResult)) × Server
  | [], s => (.ok [], s)
  | (boardId, entries) :: rest, s =>
    match processBoardBatch cfg (writeMode boardId) now boardId entries s with
    | (.error e, s) => (.error e, s)
    | (.ok results, s) =>
      match processBoards cfg writeMode now rest s with
      | (.error e, s) => (.error e, s)
      | (.ok more, s) => (.ok (results ++ more), s)

/-- `results[entry.index] = result` for every entry. -/
def fillResults (count : Nat) (results : List (Nat × MutationResult)) :
    List (Option MutationResult) :=
  results.foldl (fun slots r => slots.set r.1 (some r.2)) (List.replicate count none)

def processBatch (cfg : Config) (writeMode : String → BoardSyncWriteMode) (now : Nat)
    (mutations : List Mutation) (s : Server) :
    Except QueryError (List (Option MutationResult)) × Server :=
  match processBoards cfg writeMode now (groupByBoard mutations) s with
  | (.error e, s) => (.error e, s)
  | (.ok results, s) => (.ok (fillResults mutations.length results), s)

/-! ### The server that is left -/

/-- What holds before the write-through holds after it, when a flush in solo mode keeps it. -/
theorem persistIfSolo_keeps {P : Server → Prop} {cfg : Config} {writeMode : BoardSyncWriteMode}
    {now : Nat} {boardId : String} {s : Server} (changed : Bool) (h : P s)
    (hpersist : writeMode = .solo → P (persistBoard cfg now boardId s).2) :
    P (persistIfSolo cfg writeMode now boardId changed s).2 := by
  unfold persistIfSolo
  split
  · next hwrites =>
    simp only [Bool.and_eq_true, decide_eq_true_eq] at hwrites
    exact hpersist hwrites.1
  · exact h

theorem processBatch_server (cfg : Config) (writeMode : String → BoardSyncWriteMode) (now : Nat)
    (mutations : List Mutation) (s : Server) :
    (processBatch cfg writeMode now mutations s).2 =
      (processBoards cfg writeMode now (groupByBoard mutations) s).2 := by
  unfold processBatch
  split
  · next hboards => rw [hboards]
  · next hboards => rw [hboards]

theorem processBoards_one_server (cfg : Config) (writeMode : String → BoardSyncWriteMode)
    (now : Nat) (boardId : String) (entries : List (Nat × Mutation)) (s : Server) :
    (processBoards cfg writeMode now [(boardId, entries)] s).2 =
      (processBoardBatch cfg (writeMode boardId) now boardId entries s).2 := by
  unfold processBoards
  split
  · next hbatch => rw [hbatch]
  · next hbatch =>
    rw [hbatch]
    rfl

theorem processMutation_server (cfg : Config) (writeMode : BoardSyncWriteMode) (now : Nat)
    (mutation : Mutation) (s : Server) :
    let processed := processMutationWithContext now mutation
      (createCachedBoardContext cfg (s.redis mutation.boardId) [mutation]) writeMode
      (s.redis mutation.boardId)
    (processMutation cfg writeMode now mutation s).2 =
      (persistIfSolo cfg writeMode now mutation.boardId processed.appliedCanonicalChange
        (s.setKeys mutation.boardId processed.keys)).2 := by
  simp only [processMutation]
  split <;> next hpersist => rw [hpersist]

/-- What one board of the batch leaves, before its write-through. -/
def boardLoop (cfg : Config) (now : Nat) (mode : BoardSyncWriteMode) (boardId : String)
    (entries : List (Nat × Mutation)) (s : Server) :
    List (Nat × MutationResult) × Bool × BoardKeys :=
  processEntries now mode entries
    (createCachedBoardContext cfg (s.redis boardId) (entries.map (·.2))) (s.redis boardId)

theorem processBoardBatch_server (cfg : Config) (mode : BoardSyncWriteMode) (now : Nat)
    (boardId : String) (entries : List (Nat × Mutation)) (s : Server) :
    (processBoardBatch cfg mode now boardId entries s).2 =
      (persistIfSolo cfg mode now boardId (boardLoop cfg now mode boardId entries s).2.1
        (s.setKeys boardId (boardLoop cfg now mode boardId entries s).2.2)).2 := by
  simp only [processBoardBatch, boardLoop]
  split <;> next hpersist => rw [hpersist]

/-! ### The groups of a batch -/

theorem mem_addEntry {groups : List (String × List (Nat × Mutation))} {entry : Mutation × Nat}
    {b : String} {entries : List (Nat × Mutation)} (h : (b, entries) ∈ addEntry groups entry) :
    (b, entries) ∈ groups ∨
      b = entry.1.boardId ∧ ∃ old, entries = old ++ [(entry.2, entry.1)] ∧
        (old = [] ∨ (b, old) ∈ groups) := by
  unfold addEntry at h
  split at h
  · obtain ⟨g, hg, heq⟩ := List.mem_map.mp h
    split at heq
    · next hb =>
      obtain ⟨rfl, rfl⟩ := Prod.mk.inj heq
      exact .inr ⟨hb, g.2, rfl, .inr hg⟩
    · exact .inl (heq ▸ hg)
  · rcases List.mem_append.mp h with hg | hnew
    · exact .inl hg
    · obtain ⟨rfl, rfl⟩ := Prod.mk.inj (List.mem_singleton.mp hnew)
      exact .inr ⟨rfl, [], rfl, .inl rfl⟩

/-- The mutations of a group are mutations of the batch, on the group's board. -/
theorem mem_groupByBoard {ms : List Mutation} {b : String} {entries : List (Nat × Mutation)}
    (h : (b, entries) ∈ groupByBoard ms) : ∀ e ∈ entries, e.2 ∈ ms ∧ e.2.boardId = b := by
  suffices hfold : ∀ (l : List (Mutation × Nat)) (groups : List (String × List (Nat × Mutation))),
      (∀ p ∈ l, p.1 ∈ ms) →
      (∀ g ∈ groups, ∀ e ∈ g.2, e.2 ∈ ms ∧ e.2.boardId = g.1) →
      ∀ g ∈ l.foldl addEntry groups, ∀ e ∈ g.2, e.2 ∈ ms ∧ e.2.boardId = g.1 from
    hfold ms.zipIdx [] (fun p hp => List.fst_mem_of_mem_zipIdx hp) (by simp) (b, entries) h
  intro l
  induction l with
  | nil => intro groups _ hgroups; exact hgroups
  | cons p l ih =>
    intro groups hl hgroups
    apply ih _ fun q hq => hl q (by simp [hq])
    intro g hg e he
    rcases mem_addEntry hg with hold | ⟨hb, old, hentries, hold⟩
    · exact hgroups g hold e he
    · rw [hentries] at he
      rcases List.mem_append.mp he with he | he
      · rcases hold with rfl | hold
        · cases he
        · exact hgroups _ hold e he
      · rw [List.mem_singleton.mp he]
        exact ⟨hl p (by simp), hb.symm⟩

theorem keys_addEntry (groups : List (String × List (Nat × Mutation))) (entry : Mutation × Nat) :
    (addEntry groups entry).map (·.1) =
      if entry.1.boardId ∈ groups.map (·.1) then groups.map (·.1)
      else groups.map (·.1) ++ [entry.1.boardId] := by
  have hany : groups.any (·.1 == entry.1.boardId) = true ↔ entry.1.boardId ∈ groups.map (·.1) := by
    simp only [List.any_eq_true, beq_iff_eq, List.mem_map]
  unfold addEntry
  by_cases h : entry.1.boardId ∈ groups.map (·.1)
  · rw [if_pos (hany.mpr h), if_pos h, List.map_map]
    apply List.map_congr_left
    intro g _
    simp only [Function.comp_apply]
    split <;> rfl
  · rw [if_neg (mt hany.mp h), if_neg h]
    simp

/-- Each board has one group. -/
theorem nodup_groupByBoard (ms : List Mutation) : ((groupByBoard ms).map (·.1)).Nodup := by
  suffices hfold : ∀ (l : List (Mutation × Nat)) (groups : List (String × List (Nat × Mutation))),
      (groups.map (·.1)).Nodup → ((l.foldl addEntry groups).map (·.1)).Nodup from
    hfold ms.zipIdx [] (by simp)
  intro l
  induction l with
  | nil => intro groups h; exact h
  | cons p l ih =>
    intro groups h
    apply ih
    rw [keys_addEntry]
    split
    · exact h
    · next hnew =>
      refine List.nodup_append.mpr ⟨h, by simp, ?_⟩
      intro b hb b' hb' heq
      rw [heq, List.mem_singleton.mp hb'] at hb
      exact hnew hb

/-- An entry stays in the group of its board while further entries are added. -/
theorem addEntry_keeps {groups : List (String × List (Nat × Mutation))} {entry : Mutation × Nat}
    {b : String} {e : Nat × Mutation} (h : ∃ entries, (b, entries) ∈ groups ∧ e ∈ entries) :
    ∃ entries, (b, entries) ∈ addEntry groups entry ∧ e ∈ entries := by
  obtain ⟨entries, hg, he⟩ := h
  unfold addEntry
  split
  · by_cases hb : b = entry.1.boardId
    · exact ⟨entries ++ [(entry.2, entry.1)],
        List.mem_map.mpr ⟨(b, entries), hg, by simp [hb]⟩, List.mem_append_left _ he⟩
    · exact ⟨entries, List.mem_map.mpr ⟨(b, entries), hg, by simp [hb]⟩, he⟩
  · exact ⟨entries, List.mem_append_left _ hg, he⟩

theorem addEntry_adds (groups : List (String × List (Nat × Mutation))) (entry : Mutation × Nat) :
    ∃ entries, (entry.1.boardId, entries) ∈ addEntry groups entry ∧
      (entry.2, entry.1) ∈ entries := by
  unfold addEntry
  split
  · next hany =>
    obtain ⟨g, hg, hb⟩ := List.any_eq_true.mp hany
    have hb : g.1 = entry.1.boardId := by simpa using hb
    exact ⟨g.2 ++ [(entry.2, entry.1)], List.mem_map.mpr ⟨g, hg, by simp [hb]⟩, by simp⟩
  · exact ⟨[(entry.2, entry.1)], by simp, by simp⟩

/-- Every mutation of the batch is in the group of its board. -/
theorem groupByBoard_covers {ms : List Mutation} {m : Mutation} (hm : m ∈ ms) :
    ∃ entries, (m.boardId, entries) ∈ groupByBoard ms ∧ ∃ e ∈ entries, e.2 = m := by
  -- once in, an entry stays in its group
  have hkept : ∀ (l : List (Mutation × Nat)) (groups : List (String × List (Nat × Mutation)))
      (b : String) (e : Nat × Mutation), (∃ entries, (b, entries) ∈ groups ∧ e ∈ entries) →
      ∃ entries, (b, entries) ∈ l.foldl addEntry groups ∧ e ∈ entries := by
    intro l
    induction l with
    | nil => intro groups b e h; exact h
    | cons p l ih => intro groups b e h; exact ih _ b e (addEntry_keeps h)
  have hadded : ∀ (l : List (Mutation × Nat)) (groups : List (String × List (Nat × Mutation))),
      ∀ p ∈ l, ∃ entries, (p.1.boardId, entries) ∈ l.foldl addEntry groups ∧
        (p.2, p.1) ∈ entries := by
    intro l
    induction l with
    | nil => intro groups p hp; cases hp
    | cons q l ih =>
      intro groups p hp
      rcases List.mem_cons.mp hp with rfl | hp
      · exact hkept l _ _ _ (addEntry_adds groups p)
      · exact ih _ p hp
  obtain ⟨i, hi⟩ := List.getElem?_of_mem hm
  obtain ⟨entries, hgroup, hentry⟩ := hadded ms.zipIdx [] (m, i)
    (List.mem_zipIdx_iff_getElem?.mpr hi)
  exact ⟨entries, hgroup, (i, m), hentry, rfl⟩

end Notebortt
