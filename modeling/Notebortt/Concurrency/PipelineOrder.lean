import Notebortt.BoardState.RowsMatch

/-! # The order of a write pipeline

    What one command of the pipeline of `applyChangeSet` does to the element of
    an id and to its markers, and what may be told, in the middle of the
    pipeline, from the commands sent and the commands left. -/

namespace Notebortt

namespace WriteCommand

/-! ### What a command is about -/

/-- HSET. -/
def sets (id : String) : WriteCommand → Bool
  | .hset elementId _ => elementId = id
  | _ => false

/-- HDEL. -/
def removes (id : String) : WriteCommand → Bool
  | .hdel elementIds => id ∈ elementIds
  | _ => false

/-- SADD to the dirty ids. -/
def marksDirty (id : String) : WriteCommand → Bool
  | .saddDirtyElementIds ids => id ∈ ids
  | _ => false

/-- SREM from the dirty ids. -/
def clearsDirty (id : String) : WriteCommand → Bool
  | .sremDirtyElementIds ids => id ∈ ids
  | _ => false

/-- SADD to the deleted ids. -/
def marksDeleted (id : String) : WriteCommand → Bool
  | .saddDeletedElementIds ids => id ∈ ids
  | _ => false

/-- SREM from the deleted ids. -/
def clearsDeleted (id : String) : WriteCommand → Bool
  | .sremDeletedElementIds ids => id ∈ ids
  | _ => false

def isIncrDirtyEpoch : WriteCommand → Bool
  | .incrDirtyEpoch => true
  | _ => false

def isSaddDeleted : WriteCommand → Bool
  | .saddDeletedElementIds _ => true
  | _ => false

theorem isSaddDeleted_of_marksDeleted {c : WriteCommand} {id : String}
    (h : c.marksDeleted id = true) : c.isSaddDeleted = true := by
  cases c <;> simp_all [marksDeleted, isSaddDeleted]

/-! ### What a command does, id by id -/

theorem isSome_lookup_exec {c : WriteCommand} {k : BoardKeys} {id : String}
    (h : (k.elements.lookup id).isSome) (hkept : c.removes id = false) :
    ((c.exec k).elements.lookup id).isSome := by
  cases c with
  | hset elementId element =>
    simp only [exec, Dict.lookup_insert_ite]
    split
    · rfl
    · exact h
  | hdel elementIds =>
    have hnot : id ∉ elementIds := by simpa [removes] using hkept
    simpa only [exec, Dict.lookup_eraseAll, if_neg hnot] using h
  | _ => simpa only [exec] using h

/-- Only an HSET or an HDEL of the id changes its element. -/
theorem lookup_exec_of_not_sets {c : WriteCommand} {id : String} (hset : c.sets id = false)
    (hkept : c.removes id = false) (k : BoardKeys) :
    (c.exec k).elements.lookup id = k.elements.lookup id := by
  cases c with
  | hset elementId element =>
    have hne : id ≠ elementId := by simpa [sets, eq_comm] using hset
    simp only [exec, Dict.lookup_insert_ite, if_neg hne]
  | hdel elementIds =>
    have hnot : id ∉ elementIds := by simpa [removes] using hkept
    simp only [exec, Dict.lookup_eraseAll, if_neg hnot]
  | _ => simp only [exec]

theorem mem_dirty_exec (c : WriteCommand) (k : BoardKeys) (id : String) :
    id ∈ (c.exec k).dirtyElementIds ↔
      c.marksDirty id = true ∨ (id ∈ k.dirtyElementIds ∧ c.clearsDirty id = false) := by
  cases c <;> simp [exec, marksDirty, clearsDirty, IdSet.mem_add, IdSet.mem_remove, and_comm]

theorem mem_deleted_exec (c : WriteCommand) (k : BoardKeys) (id : String) :
    id ∈ (c.exec k).deletedElementIds ↔
      c.marksDeleted id = true ∨ (id ∈ k.deletedElementIds ∧ c.clearsDeleted id = false) := by
  cases c <;> simp [exec, marksDeleted, clearsDeleted, IdSet.mem_add, IdSet.mem_remove, and_comm]

theorem getDirtyEpoch_exec (c : WriteCommand) (k : BoardKeys) :
    getDirtyEpoch (c.exec k) = getDirtyEpoch k + if c.isIncrDirtyEpoch then 1 else 0 := by
  cases c <;> simp [exec, getDirtyEpoch, isIncrDirtyEpoch]

theorem ownIds_exec {c : WriteCommand} {k : BoardKeys} (hown : OwnIds k.elements.lookup)
    (hset : ∀ elementId element, c = .hset elementId element → element.id = elementId) :
    OwnIds (c.exec k).elements.lookup := by
  cases c with
  | hset elementId element => exact hown.insert (hset elementId element rfl)
  | hdel elementIds =>
    intro id e he
    simp only [exec, Dict.lookup_eraseAll] at he
    split at he
    · cases he
    · exact hown id e he
  | _ => simpa only [exec] using hown

end WriteCommand

/-! ### The order -/

/-- What holds of a command in its place: an HDEL comes before the markers of its
    ids, and takes none that the pipeline has set; ids are marked as dirty, or no
    longer as deleted, when they are set; ids are marked as deleted when the
    epoch is raised. -/
def WriteCommand.Fits (sent rest : List WriteCommand) : WriteCommand → Prop
  | .hset elementId element => element.id = elementId
  | .hdel elementIds => ∀ id ∈ elementIds,
    rest.any (·.marksDeleted id) ∧ rest.any (·.clearsDirty id) ∧ sent.any (·.sets id) = false
  | .saddDirtyElementIds ids => ∀ id ∈ ids, sent.any (·.sets id)
  | .sremDeletedElementIds ids => ∀ id ∈ ids, sent.any (·.sets id)
  | .saddDeletedElementIds _ => sent.any (·.isIncrDirtyEpoch)
  | _ => True

/-- Every command left is in its place. -/
def InOrder : List WriteCommand → List WriteCommand → Prop
  | _, [] => True
  | sent, c :: rest => c.Fits sent rest ∧ InOrder (sent ++ [c]) rest

namespace WriteCommand.Fits
variable {sent rest : List WriteCommand} {c : WriteCommand} {id : String}

theorem ownId (h : c.Fits sent rest) (elementId : String) (element : BoardElement)
    (hc : c = .hset elementId element) : element.id = elementId := by
  subst hc
  exact h

theorem removes (h : c.Fits sent rest) (hremoves : c.removes id = true) :
    rest.any (·.marksDeleted id) = true ∧ rest.any (·.clearsDirty id) = true ∧
      sent.any (·.sets id) = false := by
  cases c with
  | hdel elementIds => exact h id (by simpa [WriteCommand.removes] using hremoves)
  | _ => cases hremoves

theorem sets_of_marksDirty (h : c.Fits sent rest) (hmarks : c.marksDirty id = true) :
    sent.any (·.sets id) = true := by
  cases c with
  | saddDirtyElementIds ids => exact h id (by simpa [marksDirty] using hmarks)
  | _ => cases hmarks

theorem sets_of_clearsDeleted (h : c.Fits sent rest) (hclears : c.clearsDeleted id = true) :
    sent.any (·.sets id) = true := by
  cases c with
  | sremDeletedElementIds ids => exact h id (by simpa [clearsDeleted] using hclears)
  | _ => cases hclears

theorem raised (h : c.Fits sent rest) (hdeletes : c.isSaddDeleted = true) :
    sent.any (·.isIncrDirtyEpoch) = true := by
  cases c with
  | saddDeletedElementIds ids => exact h
  | _ => cases hdeletes

end WriteCommand.Fits

/-- The HSETs of a pipeline come first. -/
theorem inOrder_hsets {upserts : List BoardElement} {sent rest : List WriteCommand}
    (h : InOrder (sent ++ upserts.map fun element => .hset element.id element) rest) :
    InOrder sent ((upserts.map fun element => .hset element.id element) ++ rest) := by
  induction upserts generalizing sent with
  | nil => simpa using h
  | cons e es ih =>
    refine ⟨rfl, ih ?_⟩
    simpa using h

/-- The pipeline of a change that deletes none of its upserts. -/
theorem inOrder_writePipeline (trackChangeLog : Bool) (now : Nat) {change : PersistedElementChange}
    (h : ∀ e ∈ change.upserts, e.id ∉ change.deletes) :
    InOrder [] (writePipeline trackChangeLog now change) := by
  obtain ⟨sequence, upserts, deletes⟩ := change
  have hset : ∀ e ∈ upserts, ∃ c ∈ upserts.map fun element => WriteCommand.hset element.id element,
      c.sets e.id = true := by
    intro e he
    exact ⟨_, List.mem_map_of_mem he, by simp [WriteCommand.sets]⟩
  have hunset : ∀ id ∈ deletes,
      ∀ c ∈ upserts.map fun element => WriteCommand.hset element.id element,
      c.sets id = false := by
    intro id hid c hc
    obtain ⟨e, he, rfl⟩ := List.mem_map.mp hc
    have hne : e.id ≠ id := fun heq => h e he (heq ▸ hid)
    simpa [WriteCommand.sets] using hne
  unfold writePipeline
  simp only [List.append_assoc]
  apply inOrder_hsets
  generalize (upserts.map fun element => WriteCommand.hset element.id element) = hsets at *
  cases upserts.isEmpty <;> cases deletes.isEmpty <;> cases trackChangeLog <;>
    simp +contextual [InOrder, WriteCommand.Fits, WriteCommand.marksDeleted,
      WriteCommand.clearsDirty,
      WriteCommand.isIncrDirtyEpoch, hset, hunset]

end Notebortt
