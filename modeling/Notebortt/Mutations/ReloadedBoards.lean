import Notebortt.BoardState.TrackedRows
import Notebortt.Lib.Transition
import Notebortt.Mutations.BatchEquivalence

/-! # Flushed, evicted and loaded again

    A loaded board on which mutations are processed, alone or in batches, with
    flushes between them. At any point of such a run a flush that commits can be
    followed by an eviction and a load. -/

open Transition

namespace Notebortt.ReloadedBoards

/-! ### What is restored -/

/-- One element map: the ids, and every field of every element. -/
def SameElement : Option BoardElement → Option BoardElement → Prop
  | some e, some e' => e.id = e'.id ∧ ∀ key, e.fields.lookup key = e'.fields.lookup key
  | none, none => True
  | _, _ => False

/-- `persistBoard` commits, and its clear, which nothing precedes, returns 1. -/
structure FlushSucceeds (cfg : Config) (boardId : String) (s : Server) : Prop where
  board : IsExistingBoard s.db boardId
  loaded : (s.redis boardId).seq.isSome
  commits : ∃ db', flushTransaction cfg boardId (s.redis boardId) s.db = .ok db'

/-- `persistBoard`, `flushBoard` and `loadBoard`, with nothing in between. -/
def reloaded (cfg : Config) (now : Nat) (boardId : String) (s : Server) : Server :=
  let flushed := (persistBoard cfg now boardId s).2
  loadBoard boardId { flushed with redis := flushBoard boardId flushed.redis }

/-- A flush that succeeds, an eviction and a load restore the elements. -/
structure Restored (cfg : Config) (boardId : String) (s : Server) : Prop where
  elements : FlushSucceeds cfg boardId s → ∀ now id,
    SameElement (((reloaded cfg now boardId s).redis boardId).elements.lookup id)
      ((s.redis boardId).elements.lookup id)

/-! ### The system -/

/-- An existing board that was just loaded, whatever its rows. -/
def Init (boardId : String) (s : Server) : Prop :=
  IsExistingBoard s.db boardId ∧ ∃ before : Server, Emptied (before.redis boardId) ∧
    s = loadBoard boardId before

inductive Label where
  | mutation (writeMode : BoardSyncWriteMode) (now : Nat) (mutation : Mutation)
  /-- The entries of a batch that are for the board. -/
  | batch (writeMode : BoardSyncWriteMode) (now : Nat) (entries : List (Nat × Mutation))
  | persist (now : Nat)

def step (cfg : Config) (boardId : String) (s : Server) : Label → Option Server
  | .mutation writeMode now mutation =>
    if mutation.boardId = boardId then some (processMutation cfg writeMode now mutation s).2
    else none
  | .batch writeMode now entries => some (processBoardBatch cfg writeMode now boardId entries s).2
  | .persist now => some (persistBoard cfg now boardId s).2

def system (cfg : Config) (boardId : String) : System Server Label where
  init := Init boardId
  step := step cfg boardId

/-- No change stores an element under the empty id. -/
def storesNoEmptyId (results : List MutationResult) : Bool :=
  results.all fun result => result.change.all fun change => change.upserts.all (·.id != "")

/-- In the incremental mode, the mutations of the step store no element under the empty id. -/
def SkipsNothing (cfg : Config) (boardId : String) (s : Server) : Label → Prop
  | .mutation writeMode now mutation =>
    cfg.enableIncrementalPersistence = true → storesNoEmptyId
      [(processMutationWithContext now mutation
        (createCachedBoardContext cfg (s.redis boardId) [mutation]) writeMode
        (s.redis boardId)).result] = true
  | .batch writeMode now entries =>
    cfg.enableIncrementalPersistence = true →
      storesNoEmptyId ((boardLoop cfg now writeMode boardId entries s).1.map (·.2)) = true
  | .persist _ => True

/-- The flush of the step, if it has one, does not evict the board. -/
def FlushKeeps (cfg : Config) (boardId : String) (s : Server) : Label → Prop
  | .mutation writeMode now mutation =>
    let processed := processMutationWithContext now mutation
      (createCachedBoardContext cfg (s.redis boardId) [mutation]) writeMode (s.redis boardId)
    WriteThroughKeeps cfg writeMode boardId processed.appliedCanonicalChange
      (s.setKeys boardId processed.keys)
  | .batch writeMode now entries =>
    let loop := boardLoop cfg now writeMode boardId entries s
    WriteThroughKeeps cfg writeMode boardId loop.2.1 (s.setKeys boardId loop.2.2)
  | .persist _ => ¬ Flushes cfg boardId s

/-- The step condition: an incremental flush skips nothing that is stored, and none evicts the
    board. -/
def FlushesWhatIsStored (cfg : Config) (boardId : String) (s : Server) (l : Label) : Prop :=
  SkipsNothing cfg boardId s l ∧ FlushKeeps cfg boardId s l

instance (cfg : Config) (boardId : String) (s : Server) (l : Label) :
    Decidable (SkipsNothing cfg boardId s l) := by
  unfold SkipsNothing
  split <;> infer_instance

instance (cfg : Config) (boardId : String) (s : Server) (l : Label) :
    Decidable (FlushKeeps cfg boardId s l) := by
  unfold FlushKeeps
  split <;> infer_instance

instance (cfg : Config) (boardId : String) (s : Server) (l : Label) :
    Decidable (FlushesWhatIsStored cfg boardId s l) := by
  unfold FlushesWhatIsStored; infer_instance

section proofs
variable {cfg : Config} {boardId : String} {s s' : Server} {l : Label} {k k' : BoardKeys}
  {db : Postgres}

/-! ### The invariant -/

/-- The ids whose rows are followed: a full snapshot drops the element under `__proto__`. -/
def Followed (cfg : Config) (id : String) : Prop :=
  cfg.enableIncrementalPersistence = false → id ≠ "__proto__"

/-- The rows outside the two sets load as the elements, and in the incremental mode no dirty id is
    empty. -/
structure Accounted (cfg : Config) (boardId : String) (k : BoardKeys) (db : Postgres) : Prop where
  tracked : Tracked (Followed cfg) LoadsAs boardId k db
  dirty : cfg.enableIncrementalPersistence = true → ∀ id ∈ k.dirtyElementIds, id ≠ ""

theorem loadsAs_dbRow (id : String) (row : Option ElementRow) :
    LoadsAs row (row.map (dbRowToBoardElement id)) := by
  cases row with
  | none => trivial
  | some row => exact fun _ => rfl

theorem accounted_init (hempty : Emptied (s.redis boardId)) :
    Accounted cfg boardId ((loadBoard boardId s).redis boardId) (loadBoard boardId s).db where
  tracked := tracked_loadBoard hempty fun id _ => loadsAs_dbRow id _
  dirty := by
    intro _ id hid
    -- a load marks nothing
    have hkeys : ((loadBoard boardId s).redis boardId).dirtyElementIds = ∅ := by
      simp [loadBoard, hempty.seq, hempty.dirty]
    rw [hkeys] at hid
    cases hid

/-- Only the hash and the two sets matter. -/
theorem Accounted.congr (h : Accounted cfg boardId k db) (helements : k'.elements = k.elements)
    (hdirty : k'.dirtyElementIds = k.dirtyElementIds)
    (hdeleted : k'.deletedElementIds = k.deletedElementIds) : Accounted cfg boardId k' db := by
  obtain ⟨⟨hown, hpresent, habsent, hrows⟩, hids⟩ := h
  constructor
  · constructor <;> simp only [helements, hdirty, hdeleted] <;> assumption
  · simpa only [hdirty] using hids

/-- What one mutation of a run keeps. -/
theorem Accounted.turn (h : Accounted cfg boardId k db) {now : Nat} {m : Mutation}
    {mode : BoardSyncWriteMode} {p : Processed} (hturn : Turn now m mode k p)
    (hstores : cfg.enableIncrementalPersistence = true → storesNoEmptyId [p.result] = true) :
    Accounted cfg boardId p.keys db := by
  cases hturn with
  | away _ _ _ keys =>
    rw [keys]
    exact h
  | unchanged _ _ _ keys =>
    rw [keys]
    exact h.congr rfl rfl rfl
  | changed _ change result _ _ keys =>
    rw [keys]
    have hclaimed : Accounted cfg boardId (getSequence (k.claim m.mutationId)).2 db :=
      h.congr rfl rfl rfl
    have hwritten := written_runPipeline (mode = .collab) now change
      (getSequence (k.claim m.mutationId)).2
    constructor
    · exact hclaimed.tracked.written hwritten
    · -- a dirty id is that of an upsert, or was dirty before
      intro hincremental id hid
      rcases ((hwritten.dirty id).mp hid).2 with hupsert | hbefore
      · obtain ⟨e, he, rfl⟩ := List.mem_map.mp hupsert
        have hnone := hstores hincremental
        simp only [storesNoEmptyId, List.all_cons, List.all_nil, Bool.and_true, result,
          Option.all_some, List.all_eq_true, bne_iff_ne] at hnone
        exact hnone e he
      · exact hclaimed.dirty hincremental id hbefore

theorem storesNoEmptyId_cons {result : MutationResult} {results : List MutationResult} :
    storesNoEmptyId (result :: results) = true ↔
      storesNoEmptyId [result] = true ∧ storesNoEmptyId results = true := by
  simp [storesNoEmptyId]

/-- So does a batch, entry by entry. -/
theorem Accounted.entries {now : Nat} {mode : BoardSyncWriteMode} {entries : List (Nat × Mutation)}
    {context : Dict BoardElement} (h : Accounted cfg boardId k db)
    (hstores : cfg.enableIncrementalPersistence = true →
      storesNoEmptyId ((processEntries now mode entries context k).1.map (·.2)) = true) :
    Accounted cfg boardId (processEntries now mode entries context k).2.2 db := by
  induction entries generalizing context k with
  | nil => exact h
  | cons entry rest ih =>
    obtain ⟨index, m⟩ := entry
    have hcons := fun hincremental => storesNoEmptyId_cons.mp (hstores hincremental)
    have hfirst := h.turn (processMutationWithContext_turn now m context mode k)
      fun hincremental => (hcons hincremental).1
    exact ih hfirst fun hincremental => (hcons hincremental).2

theorem Accounted.writesFollowed (h : Accounted cfg boardId k db) :
    WritesFollowed (Followed cfg) cfg k :=
  ⟨fun hincremental id hid _ => h.dirty hincremental id hid,
    fun hfull hfollowed => absurd rfl (hfollowed hfull)⟩

/-- What is followed has its row once a transaction has committed. -/
theorem Accounted.committed (h : Accounted cfg boardId k db) {db' : Postgres}
    (hcommit : flushTransaction cfg boardId k db = .ok db') {id : String} (hid : Followed cfg id) :
    LoadsAs (db'.ownRow boardId id) (k.elements.lookup id) :=
  h.tracked.committed upToDate_loadsAs h.writesFollowed hcommit hid

/-- So the sets can be cleared. -/
theorem Accounted.clearMarkers (h : Accounted cfg boardId k db) {db' : Postgres}
    (hcommit : flushTransaction cfg boardId k db = .ok db') (sequence now duration : Nat) :
    Accounted cfg boardId
      (k.clearMarkers cfg.enableIncrementalPersistence sequence now duration) db' where
  tracked := h.tracked.clearMarkers (fun _ hid => h.committed hcommit hid) _ _ _
  dirty := by
    intro hincremental id hid
    -- in this mode the clear empties the set
    have hkept := (BoardKeys.mem_dirty_clearMarkers.mp hid).1
    rw [hincremental] at hkept
    cases hkept

theorem Accounted.persistBoard (h : Accounted cfg boardId (s.redis boardId) s.db)
    (hkept : ¬ Flushes cfg boardId s) (now : Nat) :
    Accounted cfg boardId ((persistBoard cfg now boardId s).2.redis boardId)
      (persistBoard cfg now boardId s).2.db := by
  rcases persistBoard_cases cfg now boardId s with
    ⟨hflushes, _⟩ | ⟨_, _, hleft⟩ | ⟨_, _, _, _, _, hleft⟩ | ⟨_, _, db', hcommit, hleft⟩
  · exact absurd hflushes hkept
  · rw [hleft, Server.setKeys_redis_self, Server.setKeys_db]
    exact h.congr rfl rfl rfl
  · rw [hleft]
    exact h
  · rw [hleft, Server.setKeys_redis_self, Server.setKeys_db]
    exact h.clearMarkers hcommit _ _ _

/-- The invariant of a run. -/
structure Inv (cfg : Config) (boardId : String) (s : Server) : Prop where
  board : IsExistingBoard s.db boardId
  accounted : Accounted cfg boardId (s.redis boardId) s.db

theorem Inv.persistBoard (h : Inv cfg boardId s) (hkept : ¬ Flushes cfg boardId s) (now : Nat) :
    Inv cfg boardId (persistBoard cfg now boardId s).2 where
  board := ⟨h.board.1, by rw [persistBoard_boards]; exact h.board.2⟩
  accounted := h.accounted.persistBoard hkept now

theorem Inv.persistIfSolo (h : Inv cfg boardId s) {mode : BoardSyncWriteMode} {changed : Bool}
    (hkept : WriteThroughKeeps cfg mode boardId changed s) (now : Nat) :
    Inv cfg boardId (persistIfSolo cfg mode now boardId changed s).2 := by
  unfold Notebortt.persistIfSolo
  split
  · next hwrites =>
    simp only [Bool.and_eq_true, decide_eq_true_eq] at hwrites
    exact h.persistBoard (hkept hwrites.1 hwrites.2) now
  · exact h

/-- Keys that are accounted for can replace those of the board. -/
theorem Inv.setKeys (h : Inv cfg boardId s) (hkeys : Accounted cfg boardId k s.db) :
    Inv cfg boardId (s.setKeys boardId k) := by
  refine ⟨h.board, ?_⟩
  rw [Server.setKeys_redis_self, Server.setKeys_db]
  exact hkeys

theorem inv_step (h : Inv cfg boardId s) (hstores : FlushesWhatIsStored cfg boardId s l)
    (hstep : step cfg boardId s l = some s') : Inv cfg boardId s' := by
  cases l with
  | mutation mode now m =>
    simp only [step] at hstep
    split at hstep
    · next hboard =>
      subst hboard
      obtain rfl := Option.some.inj hstep
      -- the turn of the mutation, then its write-through
      rw [processMutation_server]
      have hturned := h.accounted.turn (processMutationWithContext_turn now m _ mode _) hstores.1
      exact (h.setKeys hturned).persistIfSolo hstores.2 now
    · cases hstep
  | batch mode now entries =>
    obtain rfl := Option.some.inj hstep
    rw [processBoardBatch_server]
    have hlooped : Accounted cfg boardId (boardLoop cfg now mode boardId entries s).2.2 s.db :=
      h.accounted.entries hstores.1
    exact (h.setKeys hlooped).persistIfSolo hstores.2 now
  | persist now =>
    obtain rfl := Option.some.inj hstep
    exact h.persistBoard hstores.2 now

/-! ### The round trip -/

/-- A row that loads as an element restores it. -/
theorem sameElement_of_loadsAs {id : String} {row : Option ElementRow} {e : Option BoardElement}
    (hid : ∀ e', e = some e' → e'.id = id) (hloads : LoadsAs row e) :
    SameElement (row.map (dbRowToBoardElement id)) e := by
  cases row with
  | none =>
    cases e with
    | none => trivial
    | some e => cases hloads
  | some row =>
    cases e with
    | none => cases hloads
    | some e => exact ⟨(hid e rfl).symm, hloads⟩

/-- What is loaded after a flush that commits and an eviction are the rows it committed. -/
theorem lookup_reloaded (hboard : IsExistingBoard s.db boardId)
    (hloaded : (s.redis boardId).seq.isSome) {db' : Postgres}
    (hcommit : flushTransaction cfg boardId (s.redis boardId) s.db = .ok db') (now : Nat)
    (id : String) : ((reloaded cfg now boardId s).redis boardId).elements.lookup id =
      (db'.ownRow boardId id).map (dbRowToBoardElement id) := by
  have hdb : (persistBoard cfg now boardId s).2.db = db' := by
    -- the transaction commits, so the flush took the last of its ways
    rcases persistBoard_cases cfg now boardId s with
      ⟨hflushes, _⟩ | ⟨_, hnone, _⟩ | ⟨_, _, e, herror, _⟩ | ⟨_, _, db'', hcommit', hleft⟩
    · exact absurd hflushes (not_flushes_of_isOk hboard (by rw [hcommit]; rfl))
    · simp [hnone] at hloaded
    · rw [herror] at hcommit
      cases hcommit
    · rw [hleft, Server.setKeys_db]
      rw [hcommit] at hcommit'
      exact (Except.ok.inj hcommit').symm
  have hempty := emptied_flushBoard (isLiteralId_of_isUuidLike hboard.1)
    (persistBoard cfg now boardId s).2.redis
  rw [reloaded, loadBoard_of_emptied hempty, hdb]

/-- No element that a full snapshot drops is on the board. -/
def SnapshotComplete (cfg : Config) (k : BoardKeys) : Prop :=
  cfg.enableIncrementalPersistence = false → k.elements.lookup "__proto__" = none

theorem Inv.restored (h : Inv cfg boardId s) (hcomplete : SnapshotComplete cfg (s.redis boardId)) :
    Restored cfg boardId s := by
  constructor
  intro hflush now id
  obtain ⟨db', hcommit⟩ := hflush.commits
  rw [lookup_reloaded hflush.board hflush.loaded hcommit now id]
  have hloads : LoadsAs (db'.ownRow boardId id) ((s.redis boardId).elements.lookup id) := by
    have htracked := h.accounted.tracked
    by_cases hid : Followed cfg id
    · exact h.accounted.committed hcommit hid
    · -- the full snapshot leaves no row for the one id it drops
      simp only [Followed, Classical.not_imp, not_not] at hid
      obtain ⟨hfull, rfl⟩ := hid
      unfold flushTransaction at hcommit
      rw [if_neg (by simp [hfull])] at hcommit
      have hmatches := ownRow_of_fullSnapshot htracked.ownIds hcommit "__proto__"
      rw [lookup_parsedObject, if_pos rfl] at hmatches
      rw [hcomplete hfull]
      cases hrow : db'.ownRow boardId "__proto__" with
      | none => trivial
      | some row =>
        rw [hrow] at hmatches
        cases hmatches
  exact sameElement_of_loadsAs (fun e he => h.accounted.tracked.ownIds id e he) hloads

/-- In every run whose mutations leave nothing for an incremental flush to skip and whose flushes do
    not evict the board, a flush that succeeds, an eviction and a load restore the elements, when a
    full snapshot drops none of them. -/
theorem restored_of_flushesWhatIsStored
    (hreach : (system cfg boardId).ReachableUnder (FlushesWhatIsStored cfg boardId) s)
    (hcomplete : SnapshotComplete cfg (s.redis boardId)) : Restored cfg boardId s := by
  have hinv : Inv cfg boardId s := by
    refine hreach.invariant ?_ fun _ _ _ h hstores hstep => inv_step h hstores hstep
    intro s₀ ⟨hboard, before, hempty, hload⟩
    subst hload
    exact ⟨hboard, accounted_init hempty⟩
  exact hinv.restored hcomplete

end proofs

/-! ### Runs -/

def boardId : String := "3f2504e0-4f89-41d3-9a0c-0305e82c3301"

/-- A new board: a row in `boards`, and nothing else. -/
def newBoard : Server where
  redis := fun _ => {}
  db := { boards := AList.singleton boardId (), elements := ∅ }

def createNote (id : String) : Mutation where
  mutationId := "create"
  boardId := boardId
  operation := .createElement id ⟨id, AList.singleton "kind" (.str "NOTE")⟩

def deleteNote (id : String) : Mutation where
  mutationId := "delete"
  boardId := boardId
  operation := .deleteElements [id]

/-- The board with one note that waits for its flush. -/
def withNote (id : String) : Server :=
  (processMutation {} .collab 1 (createNote id) (loadBoard boardId newBoard)).2

theorem init_newBoard : Init boardId (loadBoard boardId newBoard) :=
  ⟨by decide, newBoard, ⟨rfl, rfl, rfl, rfl⟩, rfl⟩

/-- A note that is created, flushed and deleted in a batch. -/
theorem restored_deletedNote :
    Restored {} boardId
      (processBoardBatch {} .collab 3 boardId [(0, deleteNote "n1")]
        (persistBoard {} 2 boardId (withNote "n1")).2).2 := by
  have hcreated :
      (system {} boardId).ReachableUnder (FlushesWhatIsStored {} boardId) (withNote "n1") :=
    .step (.mutation .collab 1 (createNote "n1")) (.init init_newBoard) (by decide) rfl
  have hflushed : (system {} boardId).ReachableUnder (FlushesWhatIsStored {} boardId)
      (persistBoard {} 2 boardId (withNote "n1")).2 :=
    .step (.persist 2) hcreated (by decide) rfl
  have hstores : FlushesWhatIsStored {} boardId (persistBoard {} 2 boardId (withNote "n1")).2
      (.batch .collab 3 [(0, deleteNote "n1")]) := by decide
  exact restored_of_flushesWhatIsStored
    (.step (.batch .collab 3 [(0, deleteNote "n1")]) hflushed hstores rfl)
    (by simp [SnapshotComplete])

/-- A note under the empty id is on the board, and the reload does not bring it back. -/
theorem empty_id_not_restored :
    ¬ ∀ (cfg : Config) (boardId : String) (s : Server), (system cfg boardId).Reachable s →
      Restored cfg boardId s := by
  intro h
  have hreach : (system {} boardId).Reachable (withNote "") :=
    .step (.mutation .collab 1 (createNote "")) (.init init_newBoard) rfl
  have hflush : FlushSucceeds {} boardId (withNote "") := ⟨by decide, by decide, _, rfl⟩
  exact (h {} boardId (withNote "") hreach).elements hflush 2 ""

end Notebortt.ReloadedBoards
