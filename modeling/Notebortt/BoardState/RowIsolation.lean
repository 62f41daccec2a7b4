import Notebortt.BoardState.Persistence

/-! # Which rows a flush leaves alone

    `elements.id` is a primary key over all boards, and the upsert of an
    incremental flush resolves a conflict on that id alone and rewrites
    `board_id`. The delete of the same transaction asks for the board. So the
    rows of the other boards survive a flush exactly when none of the ids it
    upserts is one of theirs. -/

namespace Notebortt

/-- The rows of all boards but one are the same in two states of the table. -/
def OtherRowsKept (boardId : String) (db db' : Postgres) : Prop :=
  ∀ id row, row.boardId ≠ pgUuid boardId →
    (db'.elements.lookup id = some row ↔ db.elements.lookup id = some row)

theorem OtherRowsKept.refl (boardId : String) (db : Postgres) : OtherRowsKept boardId db db :=
  fun _ _ _ => Iff.rfl

theorem OtherRowsKept.trans {boardId : String} {db₁ db₂ db₃ : Postgres}
    (h₁ : OtherRowsKept boardId db₁ db₂) (h₂ : OtherRowsKept boardId db₂ db₃) :
    OtherRowsKept boardId db₁ db₃ :=
  fun id row hrow => (h₂ id row hrow).trans (h₁ id row hrow)

/-- The flush of the board gets as far as writing rows: the id is one of an
    existing board, the board is loaded, and Postgres takes the values. -/
def FlushReachesRows (boardId : String) (s : Server) : Prop :=
  isUuidLike boardId = true ∧ pgUuid boardId ∈ s.db.boards ∧ (s.redis boardId).seq.isSome ∧
    (dirtySnapshot (s.redis boardId)).Writable boardId

/-- No element waiting to be upserted has the id of another board's row. -/
def DirtyIdsAreOwn (boardId : String) (s : Server) : Prop :=
  ∀ id ∈ (s.redis boardId).dirtyElementIds, id ≠ "" →
    ∀ e, (s.redis boardId).elements.lookup id = some e →
      ∀ row, s.db.elements.lookup e.id = some row → row.boardId = pgUuid boardId

/-! ### The rows a snapshot upserts -/

theorem mem_dirtySnapshot_upserts {boardId : String} {k : BoardKeys} {r : NewElementRow} :
    r ∈ (dirtySnapshot k).upserts boardId ↔
      ∃ id ∈ k.dirtyElementIds, id ≠ "" ∧
        ∃ e, k.elements.lookup id = some e ∧ toElementRow boardId e = r := by
  simp only [DirtySnapshot.upserts, dirtySnapshot, List.mem_filterMap, AList.mem_keys]
  constructor
  · rintro ⟨id, hid, hr⟩
    split at hr
    · cases hr
    · next hne =>
      obtain ⟨e, he, rfl⟩ := Option.map_eq_some_iff.mp hr
      exact ⟨id, hid, hne, e, he, rfl⟩
  · rintro ⟨id, hid, hne, e, he, rfl⟩
    exact ⟨id, hid, by simp [hne, he]⟩

theorem dirtyIdsAreOwn_iff {boardId : String} {s : Server} :
    DirtyIdsAreOwn boardId s ↔
      ∀ r ∈ (dirtySnapshot (s.redis boardId)).upserts boardId,
        ∀ row, s.db.elements.lookup r.id = some row → row.boardId = pgUuid boardId := by
  unfold DirtyIdsAreOwn
  constructor
  · intro h r hr row hrow
    obtain ⟨id, hid, hne, e, he, rfl⟩ := mem_dirtySnapshot_upserts.mp hr
    exact h id hid hne e he row hrow
  · intro h id hid hne e he row hrow
    exact h _ (mem_dirtySnapshot_upserts.mpr ⟨id, hid, hne, e, he, rfl⟩) row hrow

/-! ### One transaction -/

/-- Deleting by id within a board keeps the rows of the other boards. -/
theorem lookup_deleteIds_other {db : Postgres} {boardId : String} {ids : List String} {id : String}
    {row : ElementRow} (hrow : row.boardId ≠ pgUuid boardId) :
    (db.deleteIds boardId ids).elements.lookup id = some row ↔
      db.elements.lookup id = some row := by
  rw [Postgres.lookup_deleteIds]
  split
  · next h =>
    obtain ⟨_, hany⟩ := h
    constructor
    · intro hno
      cases hno
    · intro hsome
      rw [hsome] at hany
      exact absurd (by simpa using hany) hrow
  · exact Iff.rfl

/-- A committed incremental flush keeps the other boards' rows exactly when it
    upserts none of their ids. -/
theorem persistBoardIncremental_otherRowsKept_iff {boardId : String} {snap : DirtySnapshot}
    {db db' : Postgres} (h : persistBoardIncremental boardId snap db = .ok db') :
    OtherRowsKept boardId db db' ↔
      ∀ r ∈ snap.upserts boardId, ∀ row, db.elements.lookup r.id = some row →
        row.boardId = pgUuid boardId := by
  constructor
  · intro hkept r hr row hrow
    by_contra hne
    have hafter := (hkept r.id row hne).mpr hrow
    rw [persistBoardIncremental_lookup h] at hafter
    cases hfind : (snap.upserts boardId).find? (·.id == r.id) with
    | none => exact absurd (List.find?_eq_none.mp hfind r hr) (by simp)
    | some r' =>
      -- the upsert gives the row to this board
      rw [hfind] at hafter
      obtain ⟨a, ha, rfl⟩ := Option.map_eq_some_iff.mp hafter
      have hr' := DirtySnapshot.upserts_boardId (List.mem_of_find?_eq_some hfind)
      exact hne ((NewElementRow.accept_eq_some ha).2.1.trans hr')
  · intro hown id row hne
    rw [persistBoardIncremental_lookup h]
    cases hfind : (snap.upserts boardId).find? (·.id == id) with
    | none => exact lookup_deleteIds_other hne
    | some r =>
      have hr := List.mem_of_find?_eq_some hfind
      have hid : r.id = id := by simpa using List.find?_some hfind
      constructor
      · intro hafter
        obtain ⟨a, ha, rfl⟩ := Option.map_eq_some_iff.mp hafter
        exact absurd ((NewElementRow.accept_eq_some ha).2.1.trans
          (DirtySnapshot.upserts_boardId hr)) hne
      · intro hbefore
        exact absurd (hown r hr row (hid ▸ hbefore)) hne

/-- A full snapshot that commits keeps the rows of the other boards: its INSERT
    fails on an id that is taken. -/
theorem persistBoardFullSnapshot_otherRowsKept {boardId : String} {elements : List BoardElement}
    {db db' : Postgres} (h : persistBoardFullSnapshot boardId elements db = .ok db') :
    OtherRowsKept boardId db db' := by
  have hdeleted : OtherRowsKept boardId db (db.deleteBoardRows boardId) := by
    intro id row hne
    rw [Postgres.lookup_deleteBoardRows]
    split
    · next hown =>
      constructor
      · intro hno
        cases hno
      · intro hsome
        rw [hsome] at hown
        exact absurd (by simpa using hown) hne
    · exact Iff.rfl
  simp only [persistBoardFullSnapshot] at h
  split at h
  · obtain rfl := Except.ok.inj h
    exact hdeleted
  · obtain ⟨_, hacc, hnd, hfree, rfl⟩ := Postgres.insertNew_ok h
    refine hdeleted.trans ?_
    intro id row hne
    rw [lookup_insertAll_accept _ id hacc hnd]
    cases hfind : (elements.map (toElementRow boardId)).find? (·.id == id) with
    | none => exact Iff.rfl
    | some r =>
      have hr := List.mem_of_find?_eq_some hfind
      have hid : r.id = id := by simpa using List.find?_some hfind
      constructor
      · intro hafter
        obtain ⟨a, ha, rfl⟩ := Option.map_eq_some_iff.mp hafter
        obtain ⟨e, _, rfl⟩ := List.mem_map.mp hr
        exact absurd (NewElementRow.accept_eq_some ha).2.1 hne
      · intro hbefore
        -- a plain INSERT fails on an id that is taken
        rw [← hid] at hbefore
        exact absurd (AList.lookup_isSome.mp (by rw [hbefore]; rfl)) (hfree r hr)

/-! ### A whole flush -/

/-- An incremental flush that commits nothing leaves the table as it was. -/
theorem persistBoard_db_of_not_reached {cfg : Config} {now : Nat} {boardId : String} {s : Server}
    (hcfg : cfg.enableIncrementalPersistence = true) (h : ¬ FlushReachesRows boardId s) :
    (persistBoard cfg now boardId s).2.db = s.db := by
  rcases persistBoard_cases cfg now boardId s with ⟨_, hrun⟩ | ⟨_, _, hrun⟩ |
    ⟨_, _, e, _, _, hrun⟩ | ⟨hboard, hseq, db', hok, hrun⟩ <;> rw [hrun]
  · rfl
  · simp only [flushTransaction, hcfg, if_true] at hok
    exact absurd ⟨hboard.1, hboard.2, hseq, persistBoardIncremental_writable hok⟩ h

/-- An incremental flush that reaches the rows commits its transaction. -/
theorem persistBoard_db_of_reached {cfg : Config} {now : Nat} {boardId : String} {s : Server}
    (hcfg : cfg.enableIncrementalPersistence = true) (h : FlushReachesRows boardId s) :
    persistBoardIncremental boardId (dirtySnapshot (s.redis boardId)) s.db =
      .ok (persistBoard cfg now boardId s).2.db := by
  obtain ⟨huuid, hboard, hseq, hw⟩ := h
  obtain ⟨db', hok⟩ := (persistBoardIncremental_isOk hboard).mpr hw
  have hsome : (s.redis boardId).seq.isNone = false := by simpa using hseq
  simp [persistBoard, huuid, hboard, hsome, flushTransaction, hcfg, hok]

theorem persistBoard_otherRowsKept_of_incremental {cfg : Config} (now : Nat) (boardId : String)
    (s : Server) (hcfg : cfg.enableIncrementalPersistence = true) :
    OtherRowsKept boardId s.db (persistBoard cfg now boardId s).2.db ↔
      (FlushReachesRows boardId s → DirtyIdsAreOwn boardId s) := by
  by_cases h : FlushReachesRows boardId s
  · rw [persistBoardIncremental_otherRowsKept_iff (persistBoard_db_of_reached hcfg h),
      ← dirtyIdsAreOwn_iff]
    exact ⟨fun hown _ => hown, fun himp => himp h⟩
  · rw [persistBoard_db_of_not_reached hcfg h]
    exact ⟨fun _ hreach => absurd hreach h, fun _ => OtherRowsKept.refl _ _⟩

/-- A flush in full-snapshot mode keeps the rows of the other boards. -/
theorem persistBoard_otherRowsKept_of_fullSnapshot {cfg : Config} (now : Nat) (boardId : String)
    (s : Server) (hcfg : cfg.enableIncrementalPersistence = false) :
    OtherRowsKept boardId s.db (persistBoard cfg now boardId s).2.db := by
  rcases persistBoard_cases cfg now boardId s with ⟨_, hrun⟩ | ⟨_, _, hrun⟩ |
    ⟨_, _, e, _, _, hrun⟩ | ⟨_, _, db', hok, hrun⟩ <;> rw [hrun]
  · exact OtherRowsKept.refl _ _
  · exact OtherRowsKept.refl _ _
  · exact OtherRowsKept.refl _ _
  · simp only [flushTransaction, hcfg, Bool.false_eq_true, if_false] at hok
    exact persistBoardFullSnapshot_otherRowsKept hok

/-- A flush in incremental mode keeps the rows of the other boards exactly when
    it writes no rows at all, or no element it is about to upsert has the id of
    another board's row. -/
theorem persistBoard_otherRowsKept_iff (cfg : Config) (now : Nat) (boardId : String) (s : Server) :
    OtherRowsKept boardId s.db
        (persistBoard { cfg with enableIncrementalPersistence := true } now boardId s).2.db ↔
      (FlushReachesRows boardId s → DirtyIdsAreOwn boardId s) :=
  persistBoard_otherRowsKept_of_incremental now boardId s rfl

/-- A note that takes the id `x`, which the board `aaaa…` stores already, is
    created on the board `bbbb…`; the flush of `bbbb…` moves the row over. -/
theorem persistBoard_steals_row :
    let boardA := "aaaaaaaa-aaaa-4aaa-8aaa-aaaaaaaaaaaa"
    let boardB := "bbbbbbbb-bbbb-4bbb-8bbb-bbbbbbbbbbbb"
    let note : BoardElement := ⟨"x", AList.singleton "kind" (.str "NOTE")⟩
    let db : Postgres :=
      { boards := IdSet.add ∅ [boardA, boardB]
        elements := AList.singleton "x" ⟨boardA, "TEXT", ∅⟩ }
    let loaded := loadBoard boardB { redis := fun _ => {}, db := db }
    let keys := (applyChangeSet false 0 ⟨[note], []⟩ (loaded.redis boardB)).2
    let flushed :=
      persistBoard { enableIncrementalPersistence := true } 0 boardB (loaded.setKeys boardB keys)
    (db.elements.lookup "x").map (·.boardId) = some boardA ∧
      (flushed.2.db.elements.lookup "x").map (·.boardId) = some boardB ∧
      ¬ OtherRowsKept boardB db flushed.2.db := by
  intro boardA boardB note db loaded keys flushed
  have hafter : (flushed.2.db.elements.lookup "x").map (·.boardId) = some boardB := by decide
  refine ⟨rfl, hafter, ?_⟩
  intro hkept
  have hrow := (hkept "x" ⟨boardA, "TEXT", ∅⟩ (by decide)).mpr rfl
  rw [hrow] at hafter
  exact absurd hafter (by decide)

end Notebortt
