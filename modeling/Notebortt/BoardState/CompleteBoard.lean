import Notebortt.BoardState.Eviction
import Notebortt.BoardState.RowsMatch

/-! # Complete boards

    A board is complete when its elements hash has an entry for every row of the
    board, but for the rows whose deletion is still to be flushed. -/

namespace Notebortt

/-! ### Completeness -/

/-- Every row of the board whose id is not in `deleted_element_ids` has an entry
    in the elements hash. -/
def HoldsRows (boardId : String) (k : BoardKeys) (db : Postgres) : Prop :=
  ∀ id, (db.ownRow boardId id).isSome → id ∉ k.deletedElementIds → (k.elements.lookup id).isSome

theorem Postgres.ownRow_eq_some {db : Postgres} {boardId id : String} {row : ElementRow} :
    db.ownRow boardId id = some row ↔ (id, row) ∈ db.rowsOf boardId := by
  rw [Postgres.mem_rowsOf, Postgres.ownRow, Option.filter_eq_some_iff]
  simp

/-- A board without rows is complete, whatever its hash holds. -/
theorem holdsRows_of_no_rows {boardId : String} {db : Postgres} (h : db.rowsOf boardId = [])
    (k : BoardKeys) : HoldsRows boardId k db := by
  intro id hrow
  obtain ⟨row, hrow⟩ := Option.isSome_iff_exists.mp hrow
  rw [Postgres.ownRow_eq_some, h] at hrow
  cases hrow

/-! ### Loading -/

theorem OwnIds.insertAll_loaded {d : Dict BoardElement} (h : OwnIds d.lookup) (boardId : String)
    (db : Postgres) : OwnIds (Dict.insertAll d (loadedElements boardId db)).lookup := by
  suffices hfold : ∀ (rows : List (String × ElementRow)) (d : Dict BoardElement), OwnIds d.lookup →
      OwnIds (Dict.insertAll d (rows.map fun row =>
        (row.1, dbRowToBoardElement row.1 row.2))).lookup from hfold _ d h
  intro rows
  induction rows with
  | nil => intro d h; exact h
  | cons row rows ih =>
    intro d h
    exact ih _ (h.insert rfl)

/-- Every row of the board is loaded. -/
theorem mem_loadedElements {boardId id : String} {db : Postgres}
    (hrow : (db.ownRow boardId id).isSome) : id ∈ (loadedElements boardId db).map Prod.fst := by
  obtain ⟨row, hrow⟩ := Option.isSome_iff_exists.mp hrow
  simp only [loadedElements, List.map_map, List.mem_map, Function.comp_apply, Prod.exists]
  exact ⟨id, row, Postgres.ownRow_eq_some.mp hrow, rfl⟩

theorem loadedElements_ownId {boardId : String} {db : Postgres} {row : String × BoardElement}
    (h : row ∈ loadedElements boardId db) : row.2.id = row.1 := by
  obtain ⟨stored, _, rfl⟩ := List.mem_map.mp h
  rfl

/-! ### Flushing -/

/-- A full snapshot leaves no row that the hash lacks. -/
theorem isSome_of_fullSnapshot {boardId : String} {k : BoardKeys} {db db' : Postgres}
    (hown : OwnIds k.elements.lookup)
    (hcommit : persistBoardFullSnapshot boardId k.elementList db = .ok db') {id : String}
    (hrow : (db'.ownRow boardId id).isSome) : (k.elements.lookup id).isSome := by
  have hmatches := ownRow_of_fullSnapshot hown hcommit id
  obtain ⟨row, hrow⟩ := Option.isSome_iff_exists.mp hrow
  rw [hrow] at hmatches
  obtain ⟨e, he, -⟩ := hmatches.exists_element
  rw [lookup_parsedObject] at he
  split at he
  · cases he
  · rw [he]
    rfl

end Notebortt
