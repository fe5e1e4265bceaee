import Mathlib.Data.List.Forall2

/-!
# Tables with a unique key

A table is the list of its rows in insertion order. `insertOrIgnore` is the insertion of a
table whose key is unique: a row whose key is taken is dropped. After it some row holds the
key. Insertions, upserts and updates are all a `change`: rewrite the rows with a key, and add one
where there is none. What becomes of the rows with a key is that each is related to what it was,
and that no second one comes (`Evolves`), exactly when the change rewrites them so
(`evolves_change_iff`).
-/

namespace UniqueTable

variable {ρ κ : Type*} [DecidableEq κ] {key : ρ → κ} {row r : ρ} {rows : List ρ}

/-- Append the row unless its key is taken. -/
def insertOrIgnore (key : ρ → κ) (row : ρ) (rows : List ρ) : List ρ :=
  if rows.any (key · = key row) then rows else rows ++ [row]

/-- A taken key leaves the table as it was. -/
theorem insertOrIgnore_of_taken (h : ∃ r ∈ rows, key r = key row) :
    insertOrIgnore key row rows = rows := by
  rw [insertOrIgnore, if_pos]
  simpa using h

/-- A free key appends the row. -/
theorem insertOrIgnore_of_free (h : ∀ r ∈ rows, key r ≠ key row) :
    insertOrIgnore key row rows = rows ++ [row] := by
  rw [insertOrIgnore, if_neg]
  simpa using h

/-- After an insertion some row holds the key. -/
theorem exists_key_insertOrIgnore (key : ρ → κ) (row : ρ) (rows : List ρ) :
    ∃ r ∈ insertOrIgnore key row rows, key r = key row := by
  by_cases h : ∃ r ∈ rows, key r = key row
  · rw [insertOrIgnore_of_taken h]; exact h
  · rw [insertOrIgnore_of_free fun r hr hk => h ⟨r, hr, hk⟩]
    exact ⟨row, by simp, rfl⟩

/-! ## Changes -/

/-- The rows with a key. -/
def rowsOf (key : ρ → κ) (k : κ) (rows : List ρ) : List ρ := rows.filter (key · = k)

/-- Rewrite the rows with a key; where there is none, add one. -/
def change (key : ρ → κ) (k : κ) (f : ρ → ρ) (new : Option ρ) (rows : List ρ) : List ρ :=
  rows.map (fun r => if key r = k then f r else r) ++
    if rows.any (key · = k) then [] else new.toList

/-- What becomes of the rows with a key: each is related to what it was, and there is no second
one. -/
structure Evolves (key : ρ → κ) (R : ρ → ρ → Prop) (k : κ) (rows rows' : List ρ) : Prop where
  grows : rowsOf key k rows ≠ [] → List.Forall₂ R (rowsOf key k rows) (rowsOf key k rows')
  single : (rowsOf key k rows').length ≤ max 1 (rowsOf key k rows).length

section
variable {k k' : κ} {f : ρ → ρ} {new : Option ρ} {R : ρ → ρ → Prop} {rows' rows'' : List ρ}

theorem mem_rowsOf : r ∈ rowsOf key k rows ↔ r ∈ rows ∧ key r = k := by simp [rowsOf]

theorem any_key_iff : rows.any (key · = k) = true ↔ rowsOf key k rows ≠ [] := by
  simp [rowsOf]

/-- A change of a key without rows. -/
theorem change_of_free (h : rows.any (key · = k) = false) :
    change key k f new rows = rows ++ new.toList := by
  have hmap : (rows.map fun r => if key r = k then f r else r) = rows := by
    refine (List.map_congr_left fun r hr => if_neg fun heq => ?_).trans (List.map_id rows)
    rw [List.any_eq_false] at h
    exact h r hr (by simpa using heq)
  rw [change, hmap, h]
  rfl

/-- A change that adds nothing. -/
theorem change_of_taken (h : rows.any (key · = k) = true ∨ new = none) :
    change key k f new rows = rows.map fun r => if key r = k then f r else r := by
  have hnil : (if rows.any (key · = k) then [] else new.toList) = [] := by
    rcases h with h | rfl
    · rw [if_pos h]
    · exact ite_self _
  rw [change, hnil, List.append_nil]

/-- The rows with a key after the change. -/
theorem rowsOf_change (hf : ∀ r, key r = k → key (f r) = k) (hnew : ∀ r ∈ new, key r = k) :
    rowsOf key k' (change key k f new rows) =
      if k' = k then (rowsOf key k rows).map f ++ if rows.any (key · = k) then [] else new.toList
      else rowsOf key k' rows := by
  have hkey (r : ρ) : key (if key r = k then f r else r) = key r := by
    split
    · next hr => rw [hf r hr, hr]
    · rfl
  have hold : rowsOf key k' (rows.map fun r => if key r = k then f r else r) =
      (rowsOf key k' rows).map fun r => if key r = k then f r else r := by
    unfold rowsOf
    rw [List.filter_map]
    congr 1
    refine List.filter_congr fun r _ => ?_
    rw [Function.comp_apply, hkey]
  have hadded (r : ρ) (hr : r ∈ if rows.any (key · = k) then [] else new.toList) : key r = k := by
    split at hr
    · cases hr
    · exact hnew r (by simpa using hr)
  have hsplit : rowsOf key k' (change key k f new rows) =
      (rowsOf key k' rows).map (fun r => if key r = k then f r else r) ++
        rowsOf key k' (if rows.any (key · = k) then [] else new.toList) := by
    rw [← hold]
    exact List.filter_append ..
  rw [hsplit]
  by_cases hk : k' = k
  · subst hk
    rw [if_pos rfl]
    congr 1
    · exact List.map_congr_left fun r hr => if_pos (mem_rowsOf.1 hr).2
    · exact List.filter_eq_self.2 fun r hr => by simpa using hadded r hr
  · rw [if_neg hk]
    have hnone : rowsOf key k' (if rows.any (key · = k) then [] else new.toList) = [] :=
      List.filter_eq_nil_iff.2 fun r hr => by simpa [hadded r hr] using Ne.symm hk
    rw [hnone, List.append_nil]
    refine (List.map_congr_left fun r hr => if_neg ?_).trans (List.map_id _)
    rw [(mem_rowsOf.1 hr).2]
    exact hk

/-- The key of a row after the change was there before, unless the row is the one added. -/
theorem key_mem_change (hf : ∀ r, key r = k → key (f r) = k) (h : r ∈ change key k f new rows) :
    rows.any (key · = key r) = true ∨ rows.any (key · = k) = false ∧ r ∈ new := by
  rcases List.mem_append.1 h with h | h
  · obtain ⟨r', hr', rfl⟩ := List.mem_map.1 h
    refine .inl (List.any_eq_true.2 ⟨r', hr', decide_eq_true ?_⟩)
    split
    · next hk => rw [hk, hf r' hk]
    · rfl
  · split at h
    · cases h
    · next hfree => exact .inr ⟨Bool.eq_false_iff.2 hfree, by simpa using h⟩

/-- A column of a changed table, where the change of a row is one of its column. -/
theorem map_change {ρ' : Type*} {key' : ρ' → κ} {g : ρ → ρ'} {f' : ρ' → ρ'}
    (hkey : ∀ r, key' (g r) = key r) (hf : ∀ r, key r = k → g (f r) = f' (g r)) :
    (change key k f new rows).map g = change key' k f' (new.map g) (rows.map g) := by
  unfold change
  rw [List.map_append, List.map_map, List.map_map, List.any_map]
  congr 1
  · refine List.map_congr_left fun r _ => ?_
    simp only [Function.comp_apply, hkey]
    split
    · next hr => exact hf r hr
    · rfl
  · simp only [Function.comp_def, hkey]
    split
    · rfl
    · cases new <;> rfl

/-- A change after another of the same key. -/
theorem change_change {f' : ρ → ρ} (hf : ∀ r, key r = k → key (f r) = k)
    (hnew : ∀ r ∈ new, key r = k) :
    change key k f' none (change key k f new rows) = change key k (f' ∘ f) (new.map f') rows := by
  rw [change_of_taken (.inr rfl)]
  unfold change
  rw [List.map_append, List.map_map]
  congr 1
  · refine List.map_congr_left fun r _ => ?_
    by_cases hr : key r = k
    · simp [hr, hf r hr]
    · simp [hr]
  · split
    · rfl
    · cases new with
      | none => rfl
      | some r => simp [hnew r rfl]

/-! ## What becomes of the rows -/

theorem forall₂_trans (hR : ∀ a b c, R a b → R b c → R a c) (h : List.Forall₂ R rows rows')
    (h' : List.Forall₂ R rows' rows'') : List.Forall₂ R rows rows'' := by
  induction h generalizing rows'' with
  | nil => exact h'
  | cons hab _ ih =>
    cases h' with
    | cons hbc htail => exact .cons (hR _ _ _ hab hbc) (ih htail)

theorem Evolves.refl (hR : ∀ r, R r r) (k : κ) (rows : List ρ) : Evolves key R k rows rows :=
  ⟨fun _ => List.forall₂_same.2 fun r _ => hR r, Nat.le_max_right _ _⟩

theorem Evolves.trans (hR : ∀ a b c, R a b → R b c → R a c) (h : Evolves key R k rows rows')
    (h' : Evolves key R k rows' rows'') : Evolves key R k rows rows'' := by
  refine ⟨fun hne => ?_, ?_⟩
  · have h1 := h.grows hne
    have hne' : rowsOf key k rows' ≠ [] := fun hnil => by
      rw [hnil, List.forall₂_nil_right_iff] at h1
      exact hne h1
    exact forall₂_trans hR h1 (h'.grows hne')
  · have h1 := h.single
    have h2 := h'.single
    omega

/-- After a change the rows of every key have evolved exactly when it rewrites its rows so. -/
theorem evolves_change_iff (hR : ∀ r, R r r) (hf : ∀ r, key r = k → key (f r) = k)
    (hnew : ∀ r ∈ new, key r = k) :
    (∀ k', Evolves key R k' rows (change key k f new rows)) ↔ ∀ r ∈ rowsOf key k rows, R r (f r) := by
  have hrows (k' : κ) : rowsOf key k' (change key k f new rows) =
      if k' = k then (rowsOf key k rows).map f ++ if rows.any (key · = k) then [] else new.toList
      else rowsOf key k' rows := rowsOf_change hf hnew
  constructor
  · intro h r hr
    have hne : rowsOf key k rows ≠ [] := List.ne_nil_of_mem hr
    have hgrows := (h k).grows hne
    rw [hrows, if_pos rfl, if_pos (any_key_iff.2 hne), List.append_nil, List.forall₂_map_right_iff,
      List.forall₂_same] at hgrows
    exact hgrows r hr
  · intro h k'
    by_cases hk : k' = k
    · subst hk
      refine ⟨fun hne => ?_, ?_⟩
      · rw [hrows, if_pos rfl, if_pos (any_key_iff.2 hne), List.append_nil,
          List.forall₂_map_right_iff, List.forall₂_same]
        exact h
      · rw [hrows, if_pos rfl, List.length_append, List.length_map]
        by_cases hany : rows.any (key · = k') = true
        · rw [if_pos hany]
          exact Nat.le_max_right _ _
        · have hnil : rowsOf key k' rows = [] := not_not.1 fun hne => hany (any_key_iff.2 hne)
          rw [if_neg hany, hnil]
          cases new <;> simp
    · refine ⟨fun _ => ?_, ?_⟩ <;> rw [hrows, if_neg hk]
      · exact List.forall₂_same.2 fun r _ => hR r
      · exact Nat.le_max_right _ _

end

end UniqueTable
