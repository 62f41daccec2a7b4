import Mathlib.Data.List.AList

/-! # Finite maps from strings

    `Dict β` is Mathlib's association list without repeated keys, at string
    keys: the shape of a JSON object, of a hash in a key-value store and of a
    table with a text primary key. The lemmas below read a lookup through one
    update, through a list of insertions and through a list of removals. -/

/-- A finite map from strings to `β`. -/
abbrev Dict (β : Type u) := AList (fun _ : String => β)

namespace Dict

variable {β : Type u}

theorem lookup_insert_ite (d : Dict β) (k k' : String) (v : β) :
    (AList.insert k v d).lookup k' = if k' = k then some v else d.lookup k' := by
  split
  · next h => subst h; exact AList.lookup_insert d
  · next h => exact AList.lookup_insert_ne h

theorem lookup_erase_ite (d : Dict β) (k k' : String) :
    (AList.erase k d).lookup k' = if k' = k then none else d.lookup k' := by
  split
  · next h => subst h; exact AList.lookup_erase k' d
  · next h => exact AList.lookup_erase_ne h

theorem lookup_union (d₁ d₂ : Dict β) (k : String) :
    (d₁ ∪ d₂).lookup k = (d₁.lookup k).or (d₂.lookup k) := by
  by_cases h : k ∈ d₁
  · rw [AList.lookup_union_left h]
    obtain ⟨v, hv⟩ := Option.isSome_iff_exists.mp (AList.lookup_isSome.mpr h)
    simp [hv]
  · rw [AList.lookup_union_right h, AList.lookup_eq_none.mpr h, Option.none_or]

/-- Remove the listed keys. -/
def eraseAll (d : Dict β) (ks : List String) : Dict β :=
  ks.foldl (fun acc k => acc.erase k) d

/-- Insert the listed pairs, a later one over an earlier one. -/
def insertAll (d : Dict β) (kvs : List (String × β)) : Dict β :=
  kvs.foldl (fun acc kv => acc.insert kv.1 kv.2) d

@[simp] theorem eraseAll_nil (d : Dict β) : eraseAll d [] = d := rfl

@[simp] theorem insertAll_nil (d : Dict β) : insertAll d [] = d := rfl

theorem lookup_eraseAll (ks : List String) (d : Dict β) (k : String) :
    (eraseAll d ks).lookup k = if k ∈ ks then none else d.lookup k := by
  induction ks generalizing d with
  | nil => simp [eraseAll]
  | cons a as ih =>
    have hstep : eraseAll d (a :: as) = eraseAll (d.erase a) as := rfl
    rw [hstep, ih, lookup_erase_ite]
    by_cases hka : k = a <;> by_cases hk : k ∈ as <;> simp [hka, hk]

/-! ### Sizes -/

theorem length_keys_insert (d : Dict β) (k : String) (v : β) :
    (d.insert k v).keys.length = if k ∈ d then d.keys.length else d.keys.length + 1 := by
  rw [AList.keys_insert, List.length_cons]
  split
  · next h =>
    have hmem : k ∈ d.keys := AList.mem_keys.mp h
    have hpos := List.length_pos_of_mem hmem
    rw [List.length_erase_of_mem hmem]
    omega
  · next h => rw [List.erase_of_not_mem fun hmem => h (AList.mem_keys.mpr hmem)]

theorem length_keys_erase_le (d : Dict β) (k : String) :
    (d.erase k).keys.length ≤ d.keys.length := by
  rw [AList.keys_erase]
  exact List.length_erase_le

theorem length_keys_eraseAll_le (ks : List String) (d : Dict β) :
    (eraseAll d ks).keys.length ≤ d.keys.length := by
  induction ks generalizing d with
  | nil => exact Nat.le_refl _
  | cons k ks ih => exact Nat.le_trans (ih (d.erase k)) (length_keys_erase_le d k)

theorem mem_eraseAll (ks : List String) (d : Dict β) (k : String) :
    k ∈ eraseAll d ks ↔ k ∈ d ∧ k ∉ ks := by
  rw [← AList.lookup_isSome, lookup_eraseAll, ← AList.lookup_isSome]
  split
  · next h => simp [h]
  · next h => simp [h]

/-- A key that is not listed shows what was there. -/
theorem lookup_insertAll_of_not_mem (kvs : List (String × β)) (d : Dict β) {k : String}
    (h : k ∉ kvs.map Prod.fst) : (insertAll d kvs).lookup k = d.lookup k := by
  induction kvs generalizing d with
  | nil => rfl
  | cons kv kvs ih =>
    simp only [List.map_cons, List.mem_cons, not_or] at h
    have hstep : insertAll d (kv :: kvs) = insertAll (d.insert kv.1 kv.2) kvs := rfl
    rw [hstep, ih _ h.2, lookup_insert_ite, if_neg h.1]

/-- A listed key shows a listed value, whatever was there. -/
theorem lookup_insertAll_of_mem (kvs : List (String × β)) (d d' : Dict β) {k : String}
    (h : k ∈ kvs.map Prod.fst) : (insertAll d kvs).lookup k = (insertAll d' kvs).lookup k := by
  induction kvs generalizing d d' with
  | nil => cases h
  | cons kv kvs ih =>
    have hstep : ∀ d : Dict β, insertAll d (kv :: kvs) = insertAll (d.insert kv.1 kv.2) kvs :=
      fun _ => rfl
    rw [hstep, hstep]
    by_cases hk : k ∈ kvs.map Prod.fst
    · exact ih _ _ hk
    · have hhead : k = kv.1 := by
        rcases List.mem_cons.mp h with hhead | htail
        · exact hhead
        · exact absurd htail hk
      rw [lookup_insertAll_of_not_mem _ _ hk, lookup_insertAll_of_not_mem _ _ hk, hhead]
      simp

/-- With distinct keys the listed pairs are exactly what was written. -/
theorem lookup_insertAll (kvs : List (String × β)) (d : Dict β) (k : String)
    (hnd : (kvs.map Prod.fst).Nodup) :
    (insertAll d kvs).lookup k = (kvs.lookup k).or (d.lookup k) := by
  induction kvs generalizing d with
  | nil => simp [insertAll]
  | cons kv kvs ih =>
    obtain ⟨a, v⟩ := kv
    simp only [List.map_cons, List.nodup_cons] at hnd
    have hstep : insertAll d ((a, v) :: kvs) = insertAll (d.insert a v) kvs := rfl
    rw [hstep, ih _ hnd.2, lookup_insert_ite]
    by_cases hka : k = a
    · subst hka
      have hnone : kvs.lookup k = none := by
        rw [List.lookup_eq_none_iff]
        intro p hp
        simpa using fun hkp => hnd.1 (List.mem_map.mpr ⟨p, hp, hkp.symm⟩)
      simp [hnone]
    · have hne : (k == a) = false := by simpa using hka
      simp [List.lookup_cons, hne, hka]

/-- The last pair of a key counts. -/
theorem lookup_insertAll_reverse (kvs : List (String × β)) (d : Dict β) (k : String) :
    (insertAll d kvs).lookup k = (kvs.reverse.lookup k).or (d.lookup k) := by
  induction kvs generalizing d with
  | nil => simp
  | cons kv kvs ih =>
    obtain ⟨a, v⟩ := kv
    have hstep : insertAll d ((a, v) :: kvs) = insertAll (d.insert a v) kvs := rfl
    rw [hstep, ih, lookup_insert_ite, List.reverse_cons, List.lookup_append, Option.or_assoc]
    congr 1
    by_cases hka : k = a
    · simp [hka]
    · have hne : (k == a) = false := by simpa using hka
      simp [List.lookup_cons, hka, hne]

/-- Pairs read off one function: the inserted keys show the function's values. -/
theorem lookup_insertAll_filterMap (f : String → Option β) (ks : List String) (d : Dict β)
    (k : String) :
    (insertAll d (ks.filterMap fun key => (f key).map (key, ·))).lookup k =
      if k ∈ ks then (f k).or (d.lookup k) else d.lookup k := by
  induction ks generalizing d with
  | nil => rfl
  | cons a as ih =>
    cases hfa : f a with
    | none =>
      simp only [List.filterMap_cons, hfa, Option.map_none]
      rw [ih]
      by_cases hka : k = a
      · subst hka
        simp [hfa]
      · simp [hka]
    | some v =>
      simp only [List.filterMap_cons, hfa, Option.map_some]
      have hstep : insertAll d ((a, v) :: as.filterMap fun key => (f key).map (key, ·)) =
          insertAll (d.insert a v) (as.filterMap fun key => (f key).map (key, ·)) := rfl
      rw [hstep, ih, lookup_insert_ite]
      by_cases hka : k = a
      · subst hka
        simp [hfa]
      · simp [hka]

end Dict
