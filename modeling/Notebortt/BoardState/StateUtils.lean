import Mathlib.Data.List.Induction
import Notebortt.Mutations.Types

/-! # Change-set normalisation and cascading deletes

    The two functions of `board-state/state-utils.ts`. JS `Map` and `Set` keep
    the order of first insertion; both are lists here, with the membership test
    made before an id is added. -/

namespace Notebortt

/-! ### `normalizeUpserts` -/

/-- `deduped.set(element.id, element)`: a known id keeps its place. -/
def setUpsert (deduped : List BoardElement) (element : BoardElement) : List BoardElement :=
  if deduped.any (·.id == element.id) then
    deduped.map fun e => if e.id = element.id then element else e
  else deduped ++ [element]

def normalizeUpserts (upserts : List BoardElement) : List BoardElement :=
  upserts.foldl setUpsert []

theorem find?_setUpsert (deduped : List BoardElement) (element : BoardElement) (id : String) :
    (setUpsert deduped element).find? (·.id = id) =
      if element.id = id then some element else deduped.find? (·.id = id) := by
  unfold setUpsert
  by_cases hid : element.id = id
  · rw [if_pos hid]
    split
    · -- a known id keeps its place and takes the new element
      next hknown =>
      induction deduped with
      | nil => cases hknown
      | cons e es ih =>
        by_cases he : e.id = element.id
        · simp [he, hid]
        · have hrest : es.any (·.id == element.id) = true := by simpa [he] using hknown
          have hother : e.id ≠ id := fun h => he (h.trans hid.symm)
          simpa [he, hother] using ih hrest
    · next hnew =>
      have hnone : deduped.find? (·.id = id) = none := by
        rw [List.find?_eq_none]
        simpa [hid] using hnew
      simp [List.find?_append, hnone, hid]
  · rw [if_neg hid]
    split
    · clear *- hid
      induction deduped with
      | nil => rfl
      | cons e es ih =>
        by_cases he : e.id = element.id
        · have hother : e.id ≠ id := fun h => hid (he.symm.trans h)
          simpa [he, hid, hother] using ih
        · simp only [List.map_cons, he, if_false, List.find?_cons, ih]
    · simp [List.find?_append, hid]

theorem ids_setUpsert (deduped : List BoardElement) (element : BoardElement) :
    (setUpsert deduped element).map (·.id) =
      if element.id ∈ deduped.map (·.id) then deduped.map (·.id)
      else deduped.map (·.id) ++ [element.id] := by
  have hknown : deduped.any (·.id == element.id) = true ↔ element.id ∈ deduped.map (·.id) := by
    simp only [List.any_eq_true, beq_iff_eq, List.mem_map]
  unfold setUpsert
  by_cases h : element.id ∈ deduped.map (·.id)
  · rw [if_pos (hknown.mpr h), if_pos h, List.map_map]
    apply List.map_congr_left
    intro e _
    simp only [Function.comp_apply]
    split
    · next he => exact he.symm
    · rfl
  · rw [if_neg (mt hknown.mp h), if_neg h]
    simp

theorem nodup_normalizeUpserts (upserts : List BoardElement) :
    ((normalizeUpserts upserts).map (·.id)).Nodup := by
  unfold normalizeUpserts
  induction upserts using List.reverseRecOn with
  | nil => exact List.nodup_nil
  | append_singleton es e ih =>
    rw [List.foldl_append, List.foldl_cons, List.foldl_nil, ids_setUpsert]
    split
    · exact ih
    · next hnew =>
      refine List.nodup_append.mpr ⟨ih, List.nodup_singleton _, ?_⟩
      rintro a ha b hb rfl
      rw [List.mem_singleton.mp hb] at ha
      exact hnew ha

/-- Of several upserts of one id the last one stays. -/
theorem find?_normalizeUpserts (upserts : List BoardElement) (id : String) :
    (normalizeUpserts upserts).find? (·.id = id) = upserts.reverse.find? (·.id = id) := by
  unfold normalizeUpserts
  induction upserts using List.reverseRecOn with
  | nil => rfl
  | append_singleton es e ih =>
    rw [List.foldl_append, List.foldl_cons, List.foldl_nil, find?_setUpsert, ih,
      List.reverse_append]
    by_cases he : e.id = id <;> simp [he]

/-! ### `collectCascadeDeleteIds` -/

/-- `new Set(ids)` as a list: first occurrences, in order. -/
def toSet (ids : List String) : List String :=
  ids.foldl (fun acc id => if id ∈ acc then acc else acc ++ [id]) []

theorem mem_toSet {ids : List String} {id : String} : id ∈ toSet ids ↔ id ∈ ids := by
  suffices h : ∀ acc : List String,
      id ∈ ids.foldl (fun acc id => if id ∈ acc then acc else acc ++ [id]) acc ↔
        id ∈ acc ∨ id ∈ ids by
    simpa [toSet] using h []
  induction ids with
  | nil => simp
  | cons a as ih =>
    intro acc
    rw [List.foldl_cons, ih]
    split
    · next ha =>
      constructor
      · rintro (h | h)
        · exact .inl h
        · exact .inr (List.mem_cons_of_mem _ h)
      · rintro (h | h)
        · exact .inl h
        · rcases List.mem_cons.mp h with rfl | h
          · exact .inl ha
          · exact .inr h
    · simp [or_assoc]

theorem length_toSet_le (ids : List String) : (toSet ids).length ≤ ids.length := by
  suffices h : ∀ acc : List String,
      (ids.foldl (fun acc id => if id ∈ acc then acc else acc ++ [id]) acc).length ≤
        acc.length + ids.length by
    simpa [toSet] using h []
  induction ids with
  | nil => simp
  | cons a as ih =>
    intro acc
    rw [List.foldl_cons]
    refine (ih _).trans ?_
    split <;> simp only [List.length_append, List.length_cons, List.length_nil] <;> omega

/-- The ids indexed under `parentId` by the field `key`. An empty parent id is
    falsy and is not indexed. -/
def childrenBy (key : String) (allElements : List BoardElement) (parentId : String) : List String :=
  (allElements.filter fun e => e.str? key = some parentId ∧ parentId ≠ "").map (·.id)

def containedByColumn : List BoardElement → String → List String := childrenBy "containerId"

def columnsByMeta : List BoardElement → String → List String := childrenBy "metaContainerId"

/-- Add the children that are not yet to be deleted to both lists. -/
def visitChildren (children : List String) (deletes pending : List String) :
    List String × List String :=
  children.foldl (fun acc childId =>
    if childId ∈ acc.1 then acc else (acc.1 ++ [childId], acc.2 ++ [childId])) (deletes, pending)

/-- The worklist loop. Every round takes one id off `pending`, and an id enters
    `pending` once, so the requested ids and the elements bound the rounds. -/
def cascadeLoop (allElements : List BoardElement) : Nat → List String → List String → List String
  | 0, _, deletes => deletes
  | _ + 1, [], deletes => deletes
  | n + 1, currentId :: pending, deletes =>
    let next := visitChildren
      (containedByColumn allElements currentId ++ columnsByMeta allElements currentId)
      deletes pending
    cascadeLoop allElements n next.2 next.1

def collectCascadeDeleteIds (allElements : List BoardElement) (requestedDeletes : List String) :
    List String :=
  let pending := toSet requestedDeletes
  cascadeLoop allElements (pending.length + allElements.length) pending pending

end Notebortt
