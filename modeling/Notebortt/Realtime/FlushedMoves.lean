import Notebortt.BoardState.CompleteBoard
import Notebortt.Mutations.BulkUpdates
import Notebortt.Mutations.LockedPositions
import Notebortt.Realtime.QueuedMoves

/-! # What a flush of queued moves writes

    `flushTickMoves` and the `flush` of a CRDT room put the moves of all users
    of a board into one `MOVE_ELEMENTS`, which the lock rules let pass as a
    whole or not at all, and which throws as a whole at a coordinate that JSON
    cannot write. The flushes run here with no other writer. -/

open Notebortt.QueuedMoves (Coordinate PendingMove Position Source)

namespace Notebortt.FlushedMoves

/-! ### The flushes -/

/-- What `JSON.stringify` writes for the coordinate; a member that is `undefined` it leaves out. -/
def jsonOf : Coordinate → Option Json
  | .number value => some (.num value)
  | .undefined => none
  | .other form => some form
  | .unwritable => none

/-- The moves of a pending map, in its order. -/
def movesOf (pending : InsertionMap String PendingMove) : List Move :=
  pending.entries.map fun entry => ⟨entry.1, jsonOf entry.2.x, jsonOf entry.2.y⟩

def moveMutation (boardId mutationId : String) (pending : InsertionMap String PendingMove) :
    Mutation where
  mutationId := mutationId
  boardId := boardId
  operation := .moveElements (movesOf pending) false

def isUnwritable (move : PendingMove) : Bool := move.x = .unwritable || move.y = .unwritable

/-- `applyChangeSet` throws: `JSON.stringify` meets an element with such a coordinate. -/
def stringifyThrows (cfg : Config) (pending : InsertionMap String PendingMove) (mutation : Mutation)
    (k : BoardKeys) : Bool :=
  let context := (createCachedBoardContext cfg k [mutation]).lookup
  (tryMarkSeen mutation.mutationId k).1 && !isMutationBlockedByLock mutation.operation context &&
    pending.entries.any fun entry => (context entry.1).isSome && isUnwritable entry.2

inductive FlushError where
  | query (error : QueryError)
  | unwritable

/-- What the two flushes do with the stores. -/
def flushMoves (cfg : Config) (writeMode : String → BoardSyncWriteMode) (now : Nat)
    (boardId mutationId : String) (pending : InsertionMap String PendingMove) (s : Server) :
    Except FlushError (List (Option MutationResult)) × Server :=
  if pending.isEmpty then (.ok [], s)
  else
    let loaded := loadBoard boardId s
    let mutation := moveMutation boardId mutationId pending
    if stringifyThrows cfg pending mutation (loaded.redis boardId) then
      -- the mutation has been claimed and has taken a number, and nothing is written
      let claimed := (tryMarkSeen mutationId (loaded.redis boardId)).2
      (.error .unwritable, loaded.setKeys boardId (getSequence claimed).2)
    else
      let flushed := processBatch cfg writeMode now [mutation] loaded
      (flushed.1.mapError .query, flushed.2)

/-- `Math.random` follows the clock in the id of a tick flush; `randomUUID` is that of a CRDT
    flush. -/
def mutationIdOf (now : Nat) (random : String) : Source → String
  | .tick => "tick:" ++ toString now ++ ":" ++ random
  | .crdt => random

def flushTickMoves (cfg : Config) (writeMode : String → BoardSyncWriteMode) (now : Nat)
    (random boardId : String) (pending : InsertionMap String PendingMove) (s : Server) :=
  flushMoves cfg writeMode now boardId (mutationIdOf now random .tick) pending s

/-- The `flush` of `crdt-room.ts`. -/
def flushRoom (cfg : Config) (writeMode : String → BoardSyncWriteMode) (now : Nat)
    (random boardId : String) (pending : InsertionMap String PendingMove) (s : Server) :=
  flushMoves cfg writeMode now boardId (mutationIdOf now random .crdt) pending s

def flushOf (cfg : Config) (writeMode : String → BoardSyncWriteMode) (now : Nat)
    (random boardId : String) (pending : InsertionMap String PendingMove) (s : Server) :
    Source → Except FlushError (List (Option MutationResult)) × Server
  | .tick => flushTickMoves cfg writeMode now random boardId pending s
  | .crdt => flushRoom cfg writeMode now random boardId pending s

/-! ### The property -/

/-- The elements of the board once it is loaded. -/
def loadedMap (boardId : String) (s : Server) : Dict BoardElement :=
  ((loadBoard boardId s).redis boardId).elements

/-- The element is at the position: two numbers. A move with another coordinate queues none. -/
def IsAt (move : PendingMove) (e : BoardElement) : Prop :=
  ∃ position : Position, move = position.pending ∧
    e.fields.lookup "x" = some (.num position.x) ∧ e.fields.lookup "y" = some (.num position.y)

/-- Every queued element that is free (neither locked, nor directly inside a locked container, nor
    inside a managed meta) is at its queued position after the flush. -/
def FreeElementsMove (cfg : Config) (writeMode : String → BoardSyncWriteMode) (now : Nat)
    (random boardId : String) (pending : InsertionMap String PendingMove) (s : Server)
    (source : Source) : Prop :=
  ∀ id move, pending.get? id = some move →
    ∀ e, (loadedMap boardId s).lookup id = some e → isHeld (loadedMap boardId s).lookup e = false →
      ∃ e', ((flushOf cfg writeMode now random boardId pending s source).2.redis
        boardId).elements.lookup id = some e' ∧ IsAt move e'

/-- The rule lets every queued move pass, on what the processor reads. -/
def AllFree (cfg : Config) (elements : Dict BoardElement)
    (pending : InsertionMap String PendingMove) : Prop :=
  isMutationBlockedByLock (.moveElements (movesOf pending) false) (readable cfg elements.lookup) =
    false

instance (cfg : Config) (elements : Dict BoardElement)
    (pending : InsertionMap String PendingMove) : Decidable (AllFree cfg elements pending) := by
  unfold AllFree
  infer_instance

/-- Every queued move of an element that can be read has coordinates that can be written. -/
def Writable (cfg : Config) (elements : Dict BoardElement)
    (pending : InsertionMap String PendingMove) : Prop :=
  ∀ entry ∈ pending.entries, (readable cfg elements.lookup entry.1).isSome →
    isUnwritable entry.2 = false

instance (cfg : Config) (elements : Dict BoardElement)
    (pending : InsertionMap String PendingMove) : Decidable (Writable cfg elements pending) := by
  unfold Writable
  infer_instance

/-- The flush writes: all queued moves are free and writable, and one is of an element that can be
    read. -/
def Writes (cfg : Config) (elements : Dict BoardElement)
    (pending : InsertionMap String PendingMove) : Prop :=
  AllFree cfg elements pending ∧ Writable cfg elements pending ∧
    ∃ entry ∈ pending.entries, (readable cfg elements.lookup entry.1).isSome

/-- The loaded board with the queued moves merged in. -/
def moved (cfg : Config) (mode : BoardSyncWriteMode) (now : Nat) (boardId mutationId : String)
    (pending : InsertionMap String PendingMove) (s : Server) : Server :=
  (loadBoard boardId s).merge cfg mode now (moveMutation boardId mutationId pending)

/-- When a free element gets to its position: no queued move is held, each can be written, this one
    is a position of an element that can be read, and no write-through evicts it; or it was there
    before, and is not evicted. -/
def MovesLand (cfg : Config) (mode : BoardSyncWriteMode) (now : Nat) (boardId mutationId : String)
    (pending : InsertionMap String PendingMove) (s : Server) : Prop :=
  ∀ id move, pending.get? id = some move →
    ∀ e, (loadedMap boardId s).lookup id = some e → isHeld (loadedMap boardId s).lookup e = false →
      ¬ (Writes cfg (loadedMap boardId s) pending ∧
          EvictsElements cfg mode boardId (moved cfg mode now boardId mutationId pending s)) ∧
        ((AllFree cfg (loadedMap boardId s) pending ∧ Writable cfg (loadedMap boardId s) pending ∧
            (readable cfg (loadedMap boardId s).lookup id).isSome ∧
            ∃ position : Position, move = position.pending) ∨
          IsAt move e)

/-! ### One mutation as a batch -/

theorem processBatch_one_server (cfg : Config) (writeMode : String → BoardSyncWriteMode) (now : Nat)
    (m : Mutation) (s : Server) :
    (processBatch cfg writeMode now [m] s).2 =
      (processMutation cfg (writeMode m.boardId) now m s).2 := by
  have hgroups : groupByBoard [m] = [(m.boardId, [(0, m)])] := rfl
  rw [processBatch_server, hgroups, processBoards_one_server, processBoardBatch_server,
    processMutation_server]
  simp [boardLoop, processEntries]

theorem loadedMap_ownIds {boardId : String} {s : Server}
    (hown : OwnIds (s.redis boardId).elements.lookup) : OwnIds (loadedMap boardId s).lookup := by
  unfold loadedMap loadBoard
  dsimp only
  split
  · exact hown
  · rw [Server.setKeys_redis_self]
    exact hown.insertAll_loaded boardId s.db

theorem loadBoard_seen (boardId : String) (s : Server) :
    ((loadBoard boardId s).redis boardId).seen = (s.redis boardId).seen := by
  unfold loadBoard
  dsimp only
  split
  · rfl
  · rw [Server.setKeys_redis_self]

theorem last?_movesOf {pending : InsertionMap String PendingMove} {id : String}
    {move : PendingMove} (h : pending.get? id = some move) :
    KeyedEdits.last? moveKind.target (movesOf pending) id =
      some ⟨id, jsonOf move.x, jsonOf move.y⟩ := by
  have hmem : (⟨id, jsonOf move.x, jsonOf move.y⟩ : Move) ∈ movesOf pending :=
    List.mem_map.mpr ⟨(id, move), pending.mem_entries.mpr h, rfl⟩
  cases hlast : KeyedEdits.last? moveKind.target (movesOf pending) id with
  | none =>
    have hmissing := List.find?_eq_none.mp hlast _ (List.mem_reverse.mpr hmem)
    exact absurd (decide_eq_true rfl) hmissing
  | some last =>
    -- the map has one entry for the key
    have htarget : last.elementId = id := by
      show moveKind.target last = id
      simpa using List.find?_some hlast
    obtain ⟨entry, hentry, rfl⟩ := List.mem_map.mp
      (List.mem_reverse.mp (List.mem_of_find?_eq_some hlast))
    have hget := pending.mem_entries.mp hentry
    dsimp only at htarget
    rw [htarget, h] at hget
    rw [htarget, ← Option.some.inj hget]

/-- A written element is at the queued position when there is one. -/
theorem isAt_moveTo_iff (id : String) (move : PendingMove) (e : BoardElement) :
    IsAt move (moveTo ⟨id, jsonOf move.x, jsonOf move.y⟩ e) ↔
      ∃ position : Position, move = position.pending := by
  constructor
  · intro h
    obtain ⟨position, hmove, -⟩ := h
    exact ⟨position, hmove⟩
  · intro h
    obtain ⟨position, rfl⟩ := h
    refine ⟨position, rfl, ?_, ?_⟩
    · rw [moveTo_lookup, if_neg (by decide), if_pos rfl]
      rfl
    · rw [moveTo_lookup, if_pos rfl]
      rfl

/-! ### What a flush leaves -/

section throws
variable {cfg : Config} {boardId mutationId : String} {pending : InsertionMap String PendingMove}
  {k : BoardKeys}

/-- The context of the flush has the queued elements as the processor reads them. -/
theorem context_queued {entry : String × PendingMove} (h : entry ∈ pending.entries) :
    (createCachedBoardContext cfg k [moveMutation boardId mutationId pending]).lookup entry.1 =
      readable cfg k.elements.lookup entry.1 := by
  have htouched : entry.1 ∈ touchedIds (moveMutation boardId mutationId pending).operation := by
    simp only [moveMutation, touchedIds, movesOf, List.map_map]
    exact List.mem_map.mpr ⟨entry, h, rfl⟩
  exact (lookup_createCachedBoardContext cfg k _ entry.1).1
    ⟨⟨_, List.mem_singleton.mpr rfl, List.ne_nil_of_mem htouched⟩,
      .inl ⟨_, List.mem_singleton.mpr rfl, htouched⟩⟩

theorem stringifyThrows_iff (hseen : mutationId ∉ k.seen) :
    stringifyThrows cfg pending (moveMutation boardId mutationId pending) k = true ↔
      AllFree cfg k.elements pending ∧ ¬ Writable cfg k.elements pending := by
  have hclaimed : (tryMarkSeen mutationId k).1 = true := by simp [tryMarkSeen, hseen]
  have hlock := (context_verdicts cfg k (moveMutation boardId mutationId pending) rfl).1
  have hmeets : (pending.entries.any fun entry =>
      ((createCachedBoardContext cfg k [moveMutation boardId mutationId pending]).lookup
        entry.1).isSome && isUnwritable entry.2) = true ↔ ¬ Writable cfg k.elements pending := by
    simp only [Writable, not_forall, List.any_eq_true, Bool.and_eq_true, Bool.not_eq_false,
      exists_prop]
    refine exists_congr fun entry => and_congr_right fun hentry => ?_
    rw [context_queued hentry]
  unfold stringifyThrows
  simp only [Bool.and_eq_true, Bool.not_eq_true', hmeets, hlock]
  rw [and_assoc]
  exact and_iff_right hclaimed

end throws

section after
variable {cfg : Config} {writeMode : String → BoardSyncWriteMode} {now : Nat}
  {random boardId : String} {pending : InsertionMap String PendingMove} {s : Server}
  {source : Source}

/-- A queued element before and after the mutation: it is moved when all are free and it can be
    read. -/
theorem lookup_processed {mutationId : String} {k : BoardKeys} {mode : BoardSyncWriteMode}
    {id : String} {move : PendingMove} (hown : OwnIds k.elements.lookup)
    (hseen : mutationId ∉ k.seen) (hqueued : pending.get? id = some move) :
    let m := moveMutation boardId mutationId pending
    (processMutationWithContext now m (createCachedBoardContext cfg k [m]) mode
        k).keys.elements.lookup id =
      if AllFree cfg k.elements pending then
        ((readable cfg k.elements.lookup id).map
          (moveTo ⟨id, jsonOf move.x, jsonOf move.y⟩)).or (k.elements.lookup id)
      else k.elements.lookup id := by
  intro m
  have hcarries : moveKind.Carries m.operation (movesOf pending) :=
    carries_moveElements (movesOf pending) false
  rw [lookup_process_entries cfg now mode hcarries (fun _ _ _ => rfl) hown rfl hseen id]
  have hatOnce : KeyedEdits.atOnce moveKind.target moveKind.edits (readable cfg k.elements.lookup)
      (movesOf pending) id =
      (readable cfg k.elements.lookup id).map (moveTo ⟨id, jsonOf move.x, jsonOf move.y⟩) := by
    unfold KeyedEdits.atOnce
    rw [last?_movesOf hqueued]
    rfl
  rw [hatOnce]
  by_cases hfree : AllFree cfg k.elements pending
  · have hblocked : (movesOf pending).any (moveKind.blocked (readable cfg k.elements.lookup)) =
        false :=
      hfree
    rw [if_pos hfree, hblocked]
    rfl
  · have hblocked : (movesOf pending).any (moveKind.blocked (readable cfg k.elements.lookup)) =
        true :=
      Bool.not_eq_false _ ▸ hfree
    rw [if_neg hfree, hblocked]
    rfl

/-- The flush of a pending map that is not empty: it throws at the load of what it would write, or
    is the batch of its one mutation. -/
theorem redis_flushOf (hnew : mutationIdOf now random source ∉ (s.redis boardId).seen)
    (hnonempty : pending.isEmpty = false) :
    let mutationId := mutationIdOf now random source
    let m := moveMutation boardId mutationId pending
    let loaded := loadBoard boardId s
    let processed := processMutationWithContext now m
      (createCachedBoardContext cfg (loaded.redis boardId) [m]) (writeMode boardId)
      (loaded.redis boardId)
    ((flushOf cfg writeMode now random boardId pending s source).2.redis boardId).elements =
      if AllFree cfg (loadedMap boardId s) pending ∧
          ¬ Writable cfg (loadedMap boardId s) pending then
        loadedMap boardId s
      else
        ((persistIfSolo cfg (writeMode boardId) now boardId processed.appliedCanonicalChange
          (loaded.setKeys boardId processed.keys)).2.redis boardId).elements := by
  intro mutationId m loaded processed
  have hseen : mutationId ∉ (loaded.redis boardId).seen := by
    rw [loadBoard_seen]
    exact hnew
  have hflush : flushOf cfg writeMode now random boardId pending s source =
      flushMoves cfg writeMode now boardId mutationId pending s := by
    cases source with
    | tick => rfl
    | crdt => rfl
  have hthrows : stringifyThrows cfg pending m (loaded.redis boardId) = true ↔
      AllFree cfg (loadedMap boardId s) pending ∧ ¬ Writable cfg (loadedMap boardId s) pending :=
    stringifyThrows_iff hseen
  rw [hflush]
  unfold flushMoves
  rw [if_neg (by simp [hnonempty])]
  dsimp only
  split
  · next h =>
    rw [if_pos (hthrows.mp h), Server.setKeys_redis_self]
    simp [getSequence, tryMarkSeen, hseen, loadedMap, loaded]
  · next h =>
    rw [if_neg fun hstuck => h (hthrows.mpr hstuck), processBatch_one_server,
      processMutation_server]
    rfl

/-- The elements after a flush: none when it evicts them, else the queued ones are moved when all
    can be. -/
theorem elements_flushOf (hown : OwnIds (s.redis boardId).elements.lookup)
    (hnew : mutationIdOf now random source ∉ (s.redis boardId).seen)
    (hnonempty : pending.isEmpty = false) :
    let elements := loadedMap boardId s
    let evicts := Writes cfg elements pending ∧ EvictsElements cfg (writeMode boardId) boardId
      (moved cfg (writeMode boardId) now boardId (mutationIdOf now random source) pending s)
    let after :=
      ((flushOf cfg writeMode now random boardId pending s source).2.redis boardId).elements
    (evicts ∧ after = ∅) ∨
      (¬ evicts ∧ ∀ id move, pending.get? id = some move → after.lookup id =
        if AllFree cfg elements pending ∧ Writable cfg elements pending then
          ((readable cfg elements.lookup id).map
            (moveTo ⟨id, jsonOf move.x, jsonOf move.y⟩)).or (elements.lookup id)
        else elements.lookup id) := by
  intro elements evicts after
  let m := moveMutation boardId (mutationIdOf now random source) pending
  let k := (loadBoard boardId s).redis boardId
  let processed :=
    processMutationWithContext now m (createCachedBoardContext cfg k [m]) (writeMode boardId) k
  have hseen : mutationIdOf now random source ∉ ((loadBoard boardId s).redis boardId).seen := by
    rw [loadBoard_seen]
    exact hnew
  have hafter : after =
      if AllFree cfg elements pending ∧ ¬ Writable cfg elements pending then elements
      else
        ((persistIfSolo cfg (writeMode boardId) now boardId processed.appliedCanonicalChange
          ((loadBoard boardId s).setKeys boardId processed.keys)).2.redis boardId).elements :=
    redis_flushOf hnew hnonempty
  by_cases hstuck : AllFree cfg elements pending ∧ ¬ Writable cfg elements pending
  · -- it throws, and the elements stay
    rw [if_pos hstuck] at hafter
    refine .inr ⟨fun h => hstuck.2 h.1.2.1, fun id move _ => ?_⟩
    rw [if_neg fun h => hstuck.2 h.2]
    exact congrArg (fun d => AList.lookup id d) hafter
  · rw [if_neg hstuck] at hafter
    have happlied : processed.appliedCanonicalChange = true ↔ AllFree cfg elements pending ∧
        ∃ move ∈ movesOf pending, (readable cfg elements.lookup move.elementId).isSome :=
      applied_process_entries cfg now (writeMode boardId) (m := m) (k := k)
        (carries_moveElements (movesOf pending) false) (fun _ _ _ => rfl) (loadedMap_ownIds hown)
        rfl hseen
    have hwrites : Writes cfg elements pending ↔ processed.appliedCanonicalChange = true := by
      rw [happlied]
      constructor
      · intro h
        obtain ⟨hfree, -, entry, hentry, hread⟩ := h
        exact ⟨hfree, _, List.mem_map.mpr ⟨entry, hentry, rfl⟩, hread⟩
      · intro h
        obtain ⟨hfree, move, hmove, hread⟩ := h
        obtain ⟨entry, hentry, rfl⟩ := List.mem_map.mp hmove
        exact ⟨hfree, not_not.mp fun h => hstuck ⟨hfree, h⟩, entry, hentry, hread⟩
    -- what the batch leaves before its write-through
    have hmoved : ∀ id move, pending.get? id = some move →
        (((loadBoard boardId s).setKeys boardId processed.keys).redis boardId).elements.lookup id =
        if AllFree cfg elements pending ∧ Writable cfg elements pending then
          ((readable cfg elements.lookup id).map
            (moveTo ⟨id, jsonOf move.x, jsonOf move.y⟩)).or (elements.lookup id)
        else elements.lookup id := by
      intro id move hqueued
      rw [Server.setKeys_redis_self]
      refine (lookup_processed (loadedMap_ownIds hown) hseen hqueued).trans ?_
      have hboth : AllFree cfg elements pending ∧ Writable cfg elements pending ↔
          AllFree cfg elements pending :=
        ⟨And.left, fun hfree => ⟨hfree, not_not.mp fun h => hstuck ⟨hfree, h⟩⟩⟩
      simp only [hboth]
      rfl
    have hpersist := elements_persistIfSolo cfg (writeMode boardId) now
      processed.appliedCanonicalChange boardId
      ((loadBoard boardId s).setKeys boardId processed.keys)
    cases hchanged : processed.appliedCanonicalChange with
    | false =>
      -- without a change nothing is written through
      have hnone : ¬ Writes cfg elements pending := by simp [hwrites, hchanged]
      refine .inr ⟨fun h => hnone h.1, fun id move hqueued => ?_⟩
      rw [← hmoved id move hqueued]
      rw [hchanged] at hafter
      refine congrArg (fun d => AList.lookup id d) (hafter.trans ?_)
      simp [persistIfSolo]
    | true =>
      have hlock : isMutationBlockedByLock m.operation (createCachedBoardContext cfg k [m]).lookup =
          false :=
        (context_verdicts cfg k m rfl).1.trans (hwrites.mpr hchanged).1
      have hkeys : (loadBoard boardId s).setKeys boardId processed.keys =
          moved cfg (writeMode boardId) now boardId (mutationIdOf now random source) pending s :=
        congrArg ((loadBoard boardId s).setKeys boardId)
          (processMutationWithContext_unblocked now (writeMode boardId) (m := m) rfl hseen hlock
            rfl).2
      rw [← hafter, hchanged, hkeys] at hpersist
      rw [hkeys] at hmoved
      rcases hpersist with ⟨hsame, hnot⟩ | ⟨hevicted, hgone⟩
      · refine .inr ⟨fun h => hnot ⟨h.2, rfl⟩, fun id move hqueued => ?_⟩
        rw [← hmoved id move hqueued]
        exact congrArg (fun d => AList.lookup id d) hsame
      · exact .inl ⟨⟨hwrites.mpr hchanged, hevicted⟩, hgone⟩

/-- Every free element gets to its queued position exactly when the moves land: above all when no
    queued element, of whichever user, is held. -/
theorem freeElementsMove_iff (hown : OwnIds (s.redis boardId).elements.lookup)
    (hnew : mutationIdOf now random source ∉ (s.redis boardId).seen) :
    FreeElementsMove cfg writeMode now random boardId pending s source ↔
      MovesLand cfg (writeMode boardId) now boardId (mutationIdOf now random source) pending s := by
  unfold FreeElementsMove MovesLand
  refine forall_congr' fun id => forall_congr' fun move => imp_congr_right fun hqueued =>
    forall_congr' fun e => imp_congr_right fun he => imp_congr_right fun hfree => ?_
  have hnonempty : pending.isEmpty = false := by
    rw [Bool.eq_false_iff]
    intro hempty
    have hmem := pending.mem_entries.mpr hqueued
    rw [List.isEmpty_iff.mp hempty] at hmem
    cases hmem
  have hflushed := @elements_flushOf cfg writeMode now random boardId pending s source hown hnew
    hnonempty
  dsimp only at hflushed
  rcases hflushed with ⟨hevicts, hgone⟩ | ⟨hstays, hafter⟩
  · -- evicted: no element is left to be anywhere
    rw [hgone]
    refine iff_of_false ?_ fun h => h.1 hevicts
    intro h
    obtain ⟨e', hnone, -⟩ := h
    cases hnone
  · rw [hafter id move hqueued, he, and_iff_right hstays]
    have hwhere : (∃ e', some e = some e' ∧ IsAt move e') ↔ IsAt move e := by simp
    -- the rule is that of the whole batch: either every readable move is made, or none is
    by_cases hall : AllFree cfg (loadedMap boardId s) pending ∧
        Writable cfg (loadedMap boardId s) pending
    · rw [if_pos hall]
      cases hread : readable cfg (loadedMap boardId s).lookup id with
      | none => simp
      | some e₀ =>
        have hposition : IsAt move e → ∃ position : Position, move = position.pending :=
          fun h => h.imp fun _ hat => hat.1
        simp only [Option.map_some, Option.some_or, Option.some.injEq, exists_eq_left',
          isAt_moveTo_iff, hall, Option.isSome_some, true_and]
        exact ⟨.inl, fun h => h.elim (fun hmoved => hmoved) hposition⟩
    · rw [if_neg hall, hwhere]
      exact ⟨.inr, fun h =>
        h.elim (fun hmoved => absurd ⟨hmoved.1, hmoved.2.1⟩ hall) fun hat => hat⟩

end after

/-! ### A locked note and a free one -/

theorem ownIds_lockedNote : OwnIds (lockedNote.redis "b").elements.lookup :=
  ownIds_of_entries (by decide)

/-- The move of the free note, queued on its own. -/
theorem freeElementsMove_freeNote :
    FreeElementsMove {} (fun _ => .collab) 0 "r" "b"
      (InsertionMap.empty.set "y" ⟨.number 5, .number 5⟩) lockedNote .tick := by
  refine (freeElementsMove_iff (ownIds_lockedNote) (by decide)).mpr ?_
  intro id move hqueued e he _
  rw [InsertionMap.get?_set] at hqueued
  split at hqueued
  · next hid =>
    subst hid
    obtain rfl := Option.some.inj hqueued
    have hcollab : ¬ EvictsElements {} .collab "b"
        (moved {} .collab 0 "b" (mutationIdOf 0 "r" .tick)
          (InsertionMap.empty.set "y" ⟨.number 5, .number 5⟩) lockedNote) := by
      intro h
      cases h.1
    exact ⟨fun h => hcollab h.2, .inl ⟨by decide, by decide, by decide, ⟨5, 5⟩, rfl⟩⟩
  · cases hqueued

def lockedAndFree : InsertionMap String PendingMove :=
  (InsertionMap.empty.set "y" ⟨.number 5, .number 5⟩).set "x" ⟨.number 1, .number 1⟩

/-- Beside a move of the locked note, in either order of the queue, it is lost. -/
theorem locked_note_blocks_other_move :
    ¬ ∀ (cfg : Config) (writeMode : String → BoardSyncWriteMode) (now : Nat)
      (random boardId : String) (pending : InsertionMap String PendingMove) (s : Server)
      (source : Source),
      OwnIds (s.redis boardId).elements.lookup →
        mutationIdOf now random source ∉ (s.redis boardId).seen →
          FreeElementsMove cfg writeMode now random boardId pending s source := by
  intro h
  have hmoved := h {} (fun _ => .collab) 0 "r" "b" lockedAndFree lockedNote .tick
    ownIds_lockedNote (by decide)
  obtain ⟨e', hlookup, hat⟩ := hmoved "y" ⟨.number 5, .number 5⟩ rfl ⟨"y", ∅⟩ rfl rfl
  have hflushed := @elements_flushOf {} (fun _ => .collab) 0 "r" "b" lockedAndFree lockedNote .tick
    ownIds_lockedNote (by decide) (by decide)
  rcases hflushed with ⟨hevicts, -⟩ | ⟨-, hafter⟩
  · cases hevicts.2.1
  · rw [hafter "y" ⟨.number 5, .number 5⟩ rfl, if_neg (by decide)] at hlookup
    obtain rfl := Option.some.inj hlookup
    obtain ⟨position, -, hx, -⟩ := hat
    cases hx

end Notebortt.FlushedMoves
