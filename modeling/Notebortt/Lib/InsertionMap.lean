import Mathlib.Data.List.Nodup

/-! # Maps in insertion order

    A map that lists its entries in the order in which their keys came in. A
    key that is set again keeps its place and takes the new value. -/

structure InsertionMap (κ : Type u) (β : Type v) where
  entries : List (κ × β)
  nodup : (entries.map Prod.fst).Nodup
deriving DecidableEq, Repr

namespace InsertionMap

variable {κ : Type u} {β : Type v}

def empty : InsertionMap κ β := ⟨[], List.nodup_nil⟩

/-- The entry with this key, in any list of entries: the first one. -/
def find? [DecidableEq κ] (entries : List (κ × β)) (k : κ) : Option β :=
  (entries.find? fun e => decide (e.1 = k)).map Prod.snd

section
variable [DecidableEq κ] (m : InsertionMap κ β)

def get? (k : κ) : Option β := find? m.entries k

def has (k : κ) : Bool := (m.get? k).isSome

def values : List β := m.entries.map Prod.snd

def isEmpty : Bool := m.entries.isEmpty

/-- The entries with the value of one key replaced. -/
def replaced (entries : List (κ × β)) (k : κ) (v : β) : List (κ × β) :=
  entries.map fun e => if e.1 = k then (k, v) else e

theorem keys_replaced (entries : List (κ × β)) (k : κ) (v : β) :
    (replaced entries k v).map Prod.fst = entries.map Prod.fst := by
  rw [replaced, List.map_map]
  apply List.map_congr_left
  intro e _
  by_cases he : e.1 = k
  · simp [he]
  · simp [he]

def set (k : κ) (v : β) : InsertionMap κ β :=
  if h : k ∈ m.entries.map Prod.fst then
    ⟨replaced m.entries k v, by rw [keys_replaced]; exact m.nodup⟩
  else
    ⟨m.entries ++ [(k, v)], by
      rw [List.map_append]
      refine List.nodup_append.mpr ⟨m.nodup, List.nodup_singleton _, ?_⟩
      intro a ha b hb hab
      rw [hab, List.mem_singleton.mp hb] at ha
      exact h ha⟩

/-- Set a key that is not there yet; leave the others. -/
def setNew (k : κ) (v : β) : InsertionMap κ β := if m.has k then m else m.set k v

/-- Set the listed pairs, one after another. -/
def setAll (kvs : List (κ × β)) : InsertionMap κ β := kvs.foldl (fun m kv => m.set kv.1 kv.2) m

def setAllNew (kvs : List (κ × β)) : InsertionMap κ β :=
  kvs.foldl (fun m kv => m.setNew kv.1 kv.2) m

end

/-! ### Lookups in a list of entries -/

section
variable [DecidableEq κ] {entries : List (κ × β)} {k : κ} {v : β}

theorem find?_cons (e : κ × β) (es : List (κ × β)) (k : κ) :
    find? (e :: es) k = if e.1 = k then some e.2 else find? es k := by
  unfold find?
  by_cases he : e.1 = k
  · simp [he]
  · simp [he]

theorem find?_append (es es' : List (κ × β)) (k : κ) :
    find? (es ++ es') k = (find? es k).or (find? es' k) := by
  rw [find?, List.find?_append, Option.map_or]
  rfl

theorem find?_eq_none : find? entries k = none ↔ k ∉ entries.map Prod.fst := by
  induction entries with
  | nil => simp [find?]
  | cons e es ih =>
    rw [find?_cons]
    by_cases he : e.1 = k
    · simp [he]
    · have hne : ¬ k = e.1 := fun h => he h.symm
      simp [he, hne, ih]

theorem mem_of_find? (h : find? entries k = some v) : (k, v) ∈ entries := by
  obtain ⟨e, hfind, rfl⟩ := Option.map_eq_some_iff.mp h
  have hkey : e.1 = k := by simpa using List.find?_some hfind
  rw [← hkey]
  exact List.mem_of_find?_eq_some hfind

/-- A key whose entries all carry one value is found with it. -/
theorem find?_of_agree (hmem : (k, v) ∈ entries) (hagree : ∀ v', (k, v') ∈ entries → v' = v) :
    find? entries k = some v := by
  cases hfind : find? entries k with
  | none => exact absurd (List.mem_map_of_mem hmem) (find?_eq_none.mp hfind)
  | some v' => rw [hagree v' (mem_of_find? hfind)]

/-- Of several lists of entries, the last one that has the key decides. -/
theorem find?_reverse_flatMap {α : Type w} {f : α → List (κ × β)} {before after : List α} {x : α}
    (hx : find? (f x).reverse k = some v) (hafter : ∀ y ∈ after, find? (f y).reverse k = none) :
    find? ((before ++ x :: after).flatMap f).reverse k = some v := by
  have hnone : find? (after.flatMap f).reverse k = none := by
    rw [find?_eq_none]
    intro hkey
    obtain ⟨e, hmem, hek⟩ := List.mem_map.mp hkey
    obtain ⟨y, hy, hey⟩ := List.mem_flatMap.mp (List.mem_reverse.mp hmem)
    exact find?_eq_none.mp (hafter y hy)
      (List.mem_map.mpr ⟨e, List.mem_reverse.mpr hey, hek⟩)
  rw [List.flatMap_append, List.flatMap_cons, List.reverse_append, List.reverse_append,
    find?_append, find?_append, hnone, hx]
  rfl

end

/-! ### Lookups in a map -/

section
variable [DecidableEq κ] (m : InsertionMap κ β) {k : κ} {v : β}

@[simp] theorem get?_empty (k : κ) : (empty : InsertionMap κ β).get? k = none := rfl

theorem mem_entries : (k, v) ∈ m.entries ↔ m.get? k = some v := by
  constructor
  · intro hmem
    refine find?_of_agree hmem ?_
    intro v' hmem'
    exact congrArg Prod.snd (List.inj_on_of_nodup_map m.nodup hmem' hmem rfl)
  · intro hget
    exact mem_of_find? hget

theorem isEmpty_eq_false_iff : m.isEmpty = false ↔ ∃ k v, m.get? k = some v := by
  unfold isEmpty
  constructor
  · intro h
    obtain ⟨e, rest, hentries⟩ := List.exists_cons_of_ne_nil (List.isEmpty_eq_false_iff.mp h)
    refine ⟨e.1, e.2, m.mem_entries.mp ?_⟩
    rw [hentries]
    exact List.mem_cons_self
  · rintro ⟨k, v, hget⟩
    exact List.isEmpty_eq_false_iff.mpr (List.ne_nil_of_mem (m.mem_entries.mpr hget))

theorem find?_replaced (entries : List (κ × β)) (k k' : κ) (v : β) :
    find? (replaced entries k v) k' =
      (find? entries k').map fun v' => if k' = k then v else v' := by
  induction entries with
  | nil => rfl
  | cons e es ih =>
    have hcons : replaced (e :: es) k v = (if e.1 = k then (k, v) else e) :: replaced es k v := rfl
    rw [hcons, find?_cons, find?_cons, ih]
    by_cases he : e.1 = k
    · rw [if_pos he, he]
      by_cases hk : k = k'
      · simp [hk]
      · simp [hk]
    · rw [if_neg he]
      by_cases hk : e.1 = k'
      · have hne : ¬ k' = k := fun h => he (hk.trans h)
        simp [hk, hne]
      · simp [hk]

theorem get?_set (k k' : κ) (v : β) :
    (m.set k v).get? k' = if k' = k then some v else m.get? k' := by
  unfold set
  split
  · next hknown =>
    show find? (replaced m.entries k v) k' = _
    rw [find?_replaced]
    by_cases hk : k' = k
    · subst hk
      obtain ⟨v', hv'⟩ := Option.ne_none_iff_exists'.mp (mt find?_eq_none.mp (not_not.mpr hknown))
      simp [hv']
    · simp [hk, get?]
  · next hnew =>
    show find? (m.entries ++ [(k, v)]) k' = _
    rw [find?_append, find?_cons]
    by_cases hk : k' = k
    · rw [hk, find?_eq_none.mpr hnew, if_pos rfl, if_pos rfl]
      rfl
    · rw [if_neg (fun h => hk h.symm), if_neg hk]
      exact Option.or_none

theorem get?_setNew (k k' : κ) (v : β) :
    (m.setNew k v).get? k' = (m.get? k').or (if k' = k then some v else none) := by
  unfold setNew has
  by_cases hk : k' = k
  · subst hk
    cases hget : m.get? k' with
    | none => simp [get?_set]
    | some v' => simp [hget]
  · cases hget : m.get? k with
    | none => simp [get?_set, hk]
    | some v' => simp [hk]

/-- Of several pairs with one key the last one stays. -/
theorem get?_setAll (kvs : List (κ × β)) (k : κ) :
    (m.setAll kvs).get? k = (find? kvs.reverse k).or (m.get? k) := by
  induction kvs generalizing m with
  | nil => rfl
  | cons kv kvs ih =>
    have hstep : m.setAll (kv :: kvs) = (m.set kv.1 kv.2).setAll kvs := rfl
    rw [hstep, ih, get?_set, List.reverse_cons, find?_append, find?_cons, Option.or_assoc]
    by_cases hk : k = kv.1
    · rw [if_pos hk, if_pos hk.symm]
      rfl
    · rw [if_neg hk, if_neg (fun h => hk h.symm)]
      rfl

/-- What is there stays; of several new pairs with one key the first one comes in. -/
theorem get?_setAllNew (kvs : List (κ × β)) (k : κ) :
    (m.setAllNew kvs).get? k = (m.get? k).or (find? kvs k) := by
  induction kvs generalizing m with
  | nil => exact Option.or_none.symm
  | cons kv kvs ih =>
    have hstep : m.setAllNew (kv :: kvs) = (m.setNew kv.1 kv.2).setAllNew kvs := rfl
    rw [hstep, ih, get?_setNew, find?_cons, Option.or_assoc]
    by_cases hk : k = kv.1
    · rw [if_pos hk, if_pos hk.symm]
      rfl
    · rw [if_neg hk, if_neg (fun h => hk h.symm)]
      rfl

end

end InsertionMap
