import Mathlib.Data.List.Pairwise

/-! # Tables under row checks, unique indexes and foreign keys

    A table is the list of its rows. `Constraints` says which row may stand in
    it, and which two rows may not stand in it together; a statement that would
    break one of them is refused and changes nothing. -/

namespace Table

/-- What a statement is refused for. -/
inductive DbError where
  | checkViolation
  | uniqueViolation
  | foreignKeyViolation
deriving DecidableEq, Repr

structure Constraints (ρ : Type u) where
  check : ρ → Bool
  /-- Some unique index takes only one of the two rows. -/
  clash : ρ → ρ → Bool
  references : ρ → Bool
  clash_self : ∀ r, clash r r = true
  clash_comm : ∀ r r', clash r r' = clash r' r

section table
variable {ρ : Type u} (c : Constraints ρ)

/-- Every row may stand in the table, and every two together. -/
structure Constraints.Holds (rows : List ρ) : Prop where
  check : ∀ r ∈ rows, c.check r = true
  unique : rows.Pairwise fun r r' => c.clash r r' = false
  references : ∀ r ∈ rows, c.references r = true

theorem Constraints.holds_iff {rows : List ρ} :
    c.Holds rows ↔
      (∀ r ∈ rows, c.check r = true) ∧ (rows.Pairwise fun r r' => c.clash r r' = false) ∧
        ∀ r ∈ rows, c.references r = true :=
  ⟨fun h => ⟨h.check, h.unique, h.references⟩, fun h => ⟨h.1, h.2.1, h.2.2⟩⟩

instance (rows : List ρ) : Decidable (c.Holds rows) := decidable_of_iff _ c.holds_iff.symm

def updateRows (cond : ρ → Bool) (set : ρ → ρ) (rows : List ρ) : List ρ :=
  rows.map fun r => if cond r then set r else r

/-- `INSERT`. -/
def insert (row : ρ) (rows : List ρ) : Except DbError (List ρ) :=
  if !c.check row then .error .checkViolation
  else if rows.any (c.clash row) then .error .uniqueViolation
  else if !c.references row then .error .foreignKeyViolation
  else .ok (rows ++ [row])

/-- `UPDATE .. SET .. WHERE cond`. -/
def update (cond : ρ → Bool) (set : ρ → ρ) (rows : List ρ) : Except DbError (List ρ) :=
  let rows' := updateRows cond set rows
  if !rows'.all c.check then .error .checkViolation
  else if ¬ rows'.Pairwise (fun r r' => c.clash r r' = false) then .error .uniqueViolation
  else if !rows'.all c.references then .error .foreignKeyViolation
  else .ok rows'

/-- `INSERT .. ON CONFLICT (target) DO UPDATE SET ..`, where `target` picks the row with the key of
    the row inserted. -/
def upsert (target : ρ → Bool) (set : ρ → ρ) (row : ρ) (rows : List ρ) :
    Except DbError (List ρ) :=
  if rows.any target then update c target set rows else insert c row rows

/-- `INSERT .. ON CONFLICT DO NOTHING`. -/
def insertOrIgnore (row : ρ) (rows : List ρ) : Except DbError (List ρ) :=
  if rows.any (c.clash row) then .ok rows else insert c row rows

/-- `DELETE .. WHERE cond`. -/
def delete (cond : ρ → Bool) (rows : List ρ) : List ρ := rows.filter fun r => !cond r

/-! ### Updated rows -/

variable {c} {cond : ρ → Bool} {set : ρ → ρ} {row : ρ} {rows rows' : List ρ}

theorem mem_updateRows {r : ρ} :
    r ∈ updateRows cond set rows ↔
      ∃ r₀ ∈ rows, (cond r₀ = true ∧ r = set r₀) ∨ (cond r₀ = false ∧ r = r₀) := by
  simp only [updateRows, List.mem_map]
  refine exists_congr fun r₀ => and_congr_right fun _ => ?_
  cases cond r₀ <;> simp [eq_comm]

/-- A row the update does not select stays. -/
theorem mem_updateRows_of_not {r : ρ} (hr : r ∈ rows) (hcond : cond r = false) :
    r ∈ updateRows cond set rows :=
  mem_updateRows.mpr ⟨r, hr, .inr ⟨hcond, rfl⟩⟩

/-- A row the update selects is replaced. -/
theorem set_mem_updateRows {r : ρ} (hr : r ∈ rows) (hcond : cond r = true) :
    set r ∈ updateRows cond set rows :=
  mem_updateRows.mpr ⟨r, hr, .inl ⟨hcond, rfl⟩⟩

/-- A column the update does not set is as before. -/
theorem map_updateRows {α : Type v} (column : ρ → α) (hcolumn : ∀ r, column (set r) = column r) :
    (updateRows cond set rows).map column = rows.map column := by
  rw [updateRows, List.map_map]
  refine List.map_congr_left fun r _ => ?_
  rw [Function.comp_apply]
  split
  · exact hcolumn r
  · rfl

theorem updateRows_eq_self (h : ∀ r ∈ rows, cond r = false) : updateRows cond set rows = rows := by
  refine (List.map_congr_left fun r hr => ?_).trans rows.map_id
  rw [h r hr]
  rfl

/-- Where the selected rows still are selected, and there are none, nothing was updated. -/
theorem updateRows_eq_self_of_find? (hcond : ∀ r, cond (set r) = cond r)
    (h : (updateRows cond set rows).find? cond = none) : updateRows cond set rows = rows := by
  refine updateRows_eq_self fun r hr => ?_
  rw [← Bool.not_eq_true]
  intro hselected
  refine List.find?_eq_none.mp h _ (set_mem_updateRows hr hselected) ?_
  rw [hcond, hselected]

/-! ### What a statement does when it is not refused -/

theorem insert_eq_ok_iff :
    insert c row rows = .ok rows' ↔
      c.check row = true ∧ (∀ r ∈ rows, c.clash row r = false) ∧ c.references row = true ∧
        rows' = rows ++ [row] := by
  have hany : rows.any (c.clash row) = false ↔ ∀ r ∈ rows, c.clash row r = false := by
    rw [List.any_eq_false]
    exact forall₂_congr fun r _ => by rw [Bool.not_eq_true]
  rw [insert, ← hany]
  cases c.check row <;> cases rows.any (c.clash row) <;> cases c.references row <;> simp [eq_comm]

theorem update_eq_ok_iff :
    update c cond set rows = .ok rows' ↔
      c.Holds (updateRows cond set rows) ∧ rows' = updateRows cond set rows := by
  simp only [update]
  constructor
  · intro h
    split at h
    · cases h
    split at h
    · cases h
    split at h
    · cases h
    next hcheck hunique hreferences =>
    obtain rfl := Except.ok.inj h
    refine ⟨⟨?_, not_not.mp hunique, ?_⟩, rfl⟩
    · simpa using hcheck
    · simpa using hreferences
  · rintro ⟨h, rfl⟩
    rw [if_neg (by simpa using h.check), if_neg (not_not.mpr h.unique),
      if_neg (by simpa using h.references)]

theorem Constraints.Holds.nodup (h : c.Holds rows) : rows.Nodup :=
  h.unique.imp fun {r r'} hclash heq => by
    rw [heq, c.clash_self] at hclash
    cases hclash

/-- Two rows one index would not take together are one row. -/
theorem Constraints.Holds.eq_of_clash (h : c.Holds rows) {r r' : ρ} (hr : r ∈ rows)
    (hr' : r' ∈ rows) (hclash : c.clash r r' = true) : r = r' := by
  by_contra hne
  have hsymm : Std.Symm fun r r' => c.clash r r' = false :=
    ⟨fun r r' h => (c.clash_comm r' r).trans h⟩
  rw [h.unique.forall hr hr' hne] at hclash
  cases hclash

theorem Constraints.Holds.insert (h : c.Holds rows) (hinsert : insert c row rows = .ok rows') :
    c.Holds rows' := by
  obtain ⟨hcheck, hclash, hreferences, rfl⟩ := insert_eq_ok_iff.mp hinsert
  refine ⟨?_, ?_, ?_⟩
  · intro r hr
    rcases List.mem_append.mp hr with hr | hr
    · exact h.check r hr
    · rwa [List.mem_singleton.mp hr]
  · refine List.pairwise_append.mpr ⟨h.unique, List.pairwise_singleton _ _, ?_⟩
    intro r hr r' hr'
    rw [List.mem_singleton.mp hr', c.clash_comm]
    exact hclash r hr
  · intro r hr
    rcases List.mem_append.mp hr with hr | hr
    · exact h.references r hr
    · rwa [List.mem_singleton.mp hr]

theorem Constraints.Holds.update (hupdate : update c cond set rows = .ok rows') :
    c.Holds rows' := by
  obtain ⟨h, rfl⟩ := update_eq_ok_iff.mp hupdate
  exact h

theorem Constraints.Holds.upsert {target : ρ → Bool} (h : c.Holds rows)
    (hupsert : upsert c target set row rows = .ok rows') : c.Holds rows' := by
  rw [Table.upsert] at hupsert
  split at hupsert
  · exact .update hupsert
  · exact h.insert hupsert

theorem Constraints.Holds.insertOrIgnore (h : c.Holds rows)
    (hinsert : insertOrIgnore c row rows = .ok rows') : c.Holds rows' := by
  rw [Table.insertOrIgnore] at hinsert
  split at hinsert
  · exact Except.ok.inj hinsert ▸ h
  · exact h.insert hinsert

theorem mem_delete {r : ρ} : r ∈ delete cond rows ↔ r ∈ rows ∧ cond r = false := by
  rw [delete, List.mem_filter, Bool.not_eq_true']

theorem Constraints.Holds.delete (h : c.Holds rows) : c.Holds (delete cond rows) where
  check := fun r hr => h.check r (mem_delete.mp hr).1
  unique := h.unique.filter _
  references := fun r hr => h.references r (mem_delete.mp hr).1

/-- Only what the rows refer to has changed. -/
theorem Constraints.Holds.of_references {c' : Constraints ρ} (h : c.Holds rows)
    (hcheck : c'.check = c.check) (hclash : c'.clash = c.clash)
    (href : ∀ r ∈ rows, c.references r = true → c'.references r = true) : c'.Holds rows where
  check := fun r hr => hcheck ▸ h.check r hr
  unique := hclash ▸ h.unique
  references := fun r hr => href r hr (h.references r hr)

/-- A row that is stored after an `INSERT .. ON CONFLICT DO NOTHING` was there, or is the one
    inserted. -/
theorem mem_insertOrIgnore {r : ρ} (h : insertOrIgnore c row rows = .ok rows') (hr : r ∈ rows') :
    r ∈ rows ∨ r = row := by
  rw [insertOrIgnore] at h
  split at h
  · exact .inl (Except.ok.inj h ▸ hr)
  · obtain ⟨-, -, -, rfl⟩ := insert_eq_ok_iff.mp h
    exact (List.mem_append.mp hr).imp_right List.mem_singleton.mp

/-- An update that selects one row is refused exactly when the new row may not stand beside the
    other rows. -/
theorem Constraints.Holds.updateRows_iff (h : c.Holds rows) {r₀ : ρ} (hr₀ : r₀ ∈ rows)
    (hcond : ∀ r ∈ rows, cond r = true ↔ r = r₀) :
    c.Holds (updateRows cond set rows) ↔
      c.check (set r₀) = true ∧ c.references (set r₀) = true ∧
        ∀ r ∈ rows, r ≠ r₀ → c.clash (set r₀) r = false := by
  have hcond₀ : cond r₀ = true := (hcond r₀ hr₀).mpr rfl
  have hother : ∀ r ∈ rows, r ≠ r₀ → cond r = false := by
    intro r hr hne
    exact eq_false_of_ne_true fun htrue => hne ((hcond r hr).mp htrue)
  constructor
  · intro h'
    have hmem : set r₀ ∈ updateRows cond set rows := set_mem_updateRows hr₀ hcond₀
    refine ⟨h'.check _ hmem, h'.references _ hmem, ?_⟩
    intro r hr hne
    -- both rows stand in the updated table, at different places
    have hpairwise : rows.Pairwise fun r r' =>
        c.clash (if cond r then set r else r) (if cond r' then set r' else r') = false :=
      List.pairwise_map.mp h'.unique
    have hsymm : Std.Symm fun r r' =>
        c.clash (if cond r then set r else r) (if cond r' then set r' else r') = false :=
      ⟨fun r r' h => (c.clash_comm _ _).trans h⟩
    have hclash := hpairwise.forall hr₀ hr hne.symm
    rw [if_pos hcond₀, if_neg (by simp [hother r hr hne])] at hclash
    exact hclash
  · rintro ⟨hcheck, hreferences, hclash⟩
    refine ⟨?_, ?_, ?_⟩
    · intro r hr
      obtain ⟨r₁, hr₁, ⟨hr₁cond, rfl⟩ | ⟨-, rfl⟩⟩ := mem_updateRows.mp hr
      · rwa [(hcond r₁ hr₁).mp hr₁cond]
      · exact h.check r hr₁
    · refine List.pairwise_map.mpr ((h.unique.and h.nodup).imp_of_mem ?_)
      intro r r' hr hr' hrr'
      obtain ⟨hfree, hne⟩ := hrr'
      by_cases h₁ : r = r₀ <;> by_cases h₂ : r' = r₀
      · exact absurd (h₁.trans h₂.symm) hne
      · rw [if_pos (by rw [h₁]; exact hcond₀), if_neg (by simp [hother r' hr' h₂]), h₁]
        exact hclash r' hr' h₂
      · rw [if_neg (by simp [hother r hr h₁]), if_pos (by rw [h₂]; exact hcond₀), h₂, c.clash_comm]
        exact hclash r hr h₁
      · rw [if_neg (by simp [hother r hr h₁]), if_neg (by simp [hother r' hr' h₂])]
        exact hfree
    · intro r hr
      obtain ⟨r₁, hr₁, ⟨hr₁cond, rfl⟩ | ⟨-, rfl⟩⟩ := mem_updateRows.mp hr
      · rwa [(hcond r₁ hr₁).mp hr₁cond]
      · exact h.references r hr₁

/-- The row an upsert writes. -/
def upserted (target : ρ → Bool) (set : ρ → ρ) (row : ρ) (rows : List ρ) : ρ :=
  (rows.find? target).elim row set

theorem upserted_cases {target : ρ → Bool} {P : ρ → Prop} (hrow : P row)
    (hset : ∀ r ∈ rows, target r = true → P (set r)) : P (upserted target set row rows) := by
  rw [upserted]
  cases hfind : rows.find? target with
  | none => exact hrow
  | some r => exact hset r (List.mem_of_find?_eq_some hfind) (List.find?_some hfind)

/-- An upsert over a key is refused exactly when the row it writes may not stand beside the rows
    with another key. -/
theorem Constraints.Holds.upsert_isOk_iff {target : ρ → Bool} (h : c.Holds rows)
    (hkey : ∀ r ∈ rows, ∀ r' ∈ rows, target r = true → target r' = true → c.clash r r' = true) :
    (∃ rows', Table.upsert c target set row rows = .ok rows') ↔
      c.check (upserted target set row rows) = true ∧
        c.references (upserted target set row rows) = true ∧
          ∀ r ∈ rows, target r = false → c.clash (upserted target set row rows) r = false := by
  rw [Table.upsert, upserted]
  cases hfind : rows.find? target with
  | none =>
    have hnone : ∀ r ∈ rows, target r = false := by simpa using hfind
    have hany : ¬ rows.any target = true := by simpa using hnone
    simp only [if_neg hany, insert_eq_ok_iff, exists_and_left, exists_eq, and_true,
      Option.elim_none]
    constructor
    · rintro ⟨hcheck, hclash, hreferences⟩
      exact ⟨hcheck, hreferences, fun r hr _ => hclash r hr⟩
    · rintro ⟨hcheck, hreferences, hclash⟩
      exact ⟨hcheck, fun r hr => hclash r hr (hnone r hr), hreferences⟩
  | some r₀ =>
    have hr₀ : r₀ ∈ rows := List.mem_of_find?_eq_some hfind
    have htarget : target r₀ = true := List.find?_some hfind
    have hany : rows.any target = true := List.any_eq_true.mpr ⟨r₀, hr₀, htarget⟩
    have hone : ∀ r ∈ rows, target r = true ↔ r = r₀ := by
      intro r hr
      constructor
      · intro hr'
        exact h.eq_of_clash hr hr₀ (hkey r hr r₀ hr₀ hr' htarget)
      · rintro rfl
        exact htarget
    simp only [if_pos hany, update_eq_ok_iff, exists_and_left, exists_eq, and_true,
      h.updateRows_iff hr₀ hone, Option.elim_some]
    refine and_congr_right fun _ => and_congr_right fun _ => forall₂_congr fun r hr => ?_
    rw [ne_eq, ← hone r hr, Bool.not_eq_true]

/-- A row after an upsert: as before, inserted, or updated. -/
theorem mem_upsert {target : ρ → Bool} (h : upsert c target set row rows = .ok rows') {r : ρ}
    (hr : r ∈ rows') :
    (r ∈ rows ∧ target r = false) ∨ r = row ∨ ∃ r₀ ∈ rows, target r₀ = true ∧ r = set r₀ := by
  rw [upsert] at h
  split at h
  · obtain ⟨-, rfl⟩ := update_eq_ok_iff.mp h
    obtain ⟨r₀, hr₀, ⟨htarget, rfl⟩ | ⟨htarget, rfl⟩⟩ := mem_updateRows.mp hr
    · exact .inr (.inr ⟨r₀, hr₀, htarget, rfl⟩)
    · exact .inl ⟨hr₀, htarget⟩
  · next hnone =>
    obtain ⟨-, -, -, rfl⟩ := insert_eq_ok_iff.mp h
    obtain hr | hr := List.mem_append.mp hr
    · exact .inl ⟨hr, eq_false_of_ne_true fun ht => hnone (List.any_eq_true.mpr ⟨r, hr, ht⟩)⟩
    · exact .inr (.inl (List.mem_singleton.mp hr))

/-- A row before an upsert stays, or is updated. -/
theorem mem_of_upsert {target : ρ → Bool} (h : upsert c target set row rows = .ok rows') {r : ρ}
    (hr : r ∈ rows) : (if target r = true then set r else r) ∈ rows' := by
  rw [upsert] at h
  split at h
  · obtain ⟨-, rfl⟩ := update_eq_ok_iff.mp h
    exact List.mem_map_of_mem (f := fun r => if target r = true then set r else r) hr
  · next hnone =>
    obtain ⟨-, -, -, rfl⟩ := insert_eq_ok_iff.mp h
    have htarget : ¬ target r = true := fun htrue => hnone (List.any_eq_true.mpr ⟨r, hr, htrue⟩)
    rw [if_neg htarget]
    exact List.mem_append_left _ hr

/-- The row with the key of an upsert, after it. -/
theorem map_find?_upsert {target : ρ → Bool} {α : Type v} (column : ρ → α) {value : α}
    (hset : ∀ r, target r = true → target (set r) = true ∧ column (set r) = value)
    (hrow : target row = true ∧ column row = value)
    (h : upsert c target set row rows = .ok rows') :
      (rows'.find? target).map column = some value := by
  rw [upsert] at h
  split at h
  · next hany =>
    obtain ⟨-, rfl⟩ := update_eq_ok_iff.mp h
    obtain ⟨r, hr, htarget⟩ := List.any_eq_true.mp hany
    cases hfind : (updateRows target set rows).find? target with
    | none =>
      exact absurd (hset r htarget).1
        (List.find?_eq_none.mp hfind (set r) (set_mem_updateRows hr htarget))
    | some r' =>
      obtain ⟨r₀, -, ⟨hr₀, rfl⟩ | ⟨hr₀, rfl⟩⟩ := mem_updateRows.mp (List.mem_of_find?_eq_some hfind)
      · exact congrArg some (hset r₀ hr₀).2
      · rw [List.find?_some hfind] at hr₀
        cases hr₀
  · next hnone =>
    obtain ⟨-, -, -, rfl⟩ := insert_eq_ok_iff.mp h
    have hrows : rows.find? target = none := by simpa using hnone
    rw [List.find?_append, hrows, Option.none_or, List.find?_singleton, if_pos hrow.1,
      Option.map_some, hrow.2]

end table

end Table
