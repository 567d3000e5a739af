import Mathlib.Data.List.Nodup
import Mathlib.Data.List.Basic

/-!
# Tables looked up by a key

A table is a list of rows in insertion order. `key` is the column (or pair of
columns) a query selects on; a query takes the first row it meets, and where
the key is unique that is the only one.
-/

namespace PaymentRecovery.Lib.Table

variable {ρ κ : Type} [DecidableEq κ]

/-- `SELECT … WHERE key = k`, first row. -/
def selectBy (key : ρ → κ) (k : κ) (rows : List ρ) : Option ρ :=
  rows.find? fun x => key x = k

/-- `UPDATE … WHERE key = k`. -/
def updateBy (key : ρ → κ) (k : κ) (f : ρ → ρ) (rows : List ρ) : List ρ :=
  rows.map fun x => if key x = k then f x else x

/-- Update the row with the key, or insert one. -/
def upsertBy (key : ρ → κ) (k : κ) (f : ρ → ρ) (new : ρ) (rows : List ρ) : List ρ :=
  match selectBy key k rows with
  | some _ => updateBy key k f rows
  | none => rows ++ [new]

variable {key : ρ → κ} {rows : List ρ}

theorem selectBy_some {k : κ} {x : ρ} (h : selectBy key k rows = some x) :
    x ∈ rows ∧ key x = k :=
  ⟨List.mem_of_find?_eq_some h, by simpa using List.find?_some h⟩

theorem selectBy_none {k : κ} : selectBy key k rows = none ↔ ∀ x ∈ rows, key x ≠ k := by
  simp [selectBy, List.find?_eq_none]

/-- Where the key is unique, the row with the key is the one selected. -/
theorem selectBy_of_mem (hnd : (rows.map key).Nodup) {x : ρ} (hx : x ∈ rows) :
    selectBy key (key x) rows = some x := by
  cases h : selectBy key (key x) rows with
  | none => exact absurd rfl (selectBy_none.mp h x hx)
  | some y =>
    obtain ⟨hy, hkey⟩ := selectBy_some h
    rw [List.inj_on_of_nodup_map hnd hy hx hkey]

/-- Where the key is unique, the row is the only one with its key. -/
theorem filter_of_mem (hnd : (rows.map key).Nodup) {x : ρ} (hx : x ∈ rows) :
    (rows.filter fun y => key y = key x) = [x] := by
  induction rows with
  | nil => cases hx
  | cons y rest ih =>
    rw [List.map_cons, List.nodup_cons] at hnd
    rcases List.mem_cons.mp hx with rfl | hmem
    · have hrest : (rest.filter fun z => key z = key x) = [] := by
        rw [List.filter_eq_nil_iff]
        intro z hz h
        exact hnd.1 (List.mem_map.mpr ⟨z, hz, of_decide_eq_true h⟩)
      rw [List.filter_cons_of_pos (by simp), hrest]
    · have hne : key y ≠ key x := fun h => hnd.1 (List.mem_map.mpr ⟨x, hmem, h.symm⟩)
      rw [List.filter_cons_of_neg (by simpa using hne)]
      exact ih hnd.2 hmem

theorem selectBy_append (k : κ) (new : ρ) :
    selectBy key k (rows ++ [new]) =
      (selectBy key k rows).or (if key new = k then some new else none) := by
  unfold selectBy
  rw [List.find?_append]
  congr 1
  by_cases h : key new = k <;> simp [h]

/-- Appending a row with a new key answers that key and leaves the others. -/
theorem selectBy_insert {k : κ} {new : ρ} (hnew : key new = k)
    (hnone : selectBy key k rows = none) (k' : κ) :
    selectBy key k' (rows ++ [new]) = if k' = k then some new else selectBy key k' rows := by
  rw [selectBy_append, hnew]
  by_cases h : k' = k
  · subst h
    simp [hnone]
  · simp [h, Ne.symm h]

theorem selectBy_update {k : κ} {f : ρ → ρ} (hf : ∀ x, key (f x) = key x) (k' : κ) :
    selectBy key k' (updateBy key k f rows) =
      if k' = k then (selectBy key k rows).map f else selectBy key k' rows := by
  unfold selectBy updateBy
  induction rows with
  | nil => simp
  | cons x rest ih =>
    simp only [List.map_cons, List.find?_cons]
    by_cases hx : key x = k
    · rw [if_pos hx, hf]
      by_cases hk : k' = k
      · subst hk
        simp [hx]
      · have hne : key x ≠ k' := fun he => hk (he.symm.trans hx)
        simp only [hne, decide_false]
        rw [ih, if_neg hk, if_neg hk]
    · rw [if_neg hx]
      by_cases hk : k' = k
      · subst hk
        simp only [hx, decide_false]
        rw [ih, if_pos rfl]
        simp
      · by_cases hx' : key x = k'
        · simp [hx', hk]
        · simp only [hx', decide_false]
          rw [ih, if_neg hk, if_neg hk]

theorem selectBy_upsert {k : κ} {f : ρ → ρ} {new : ρ} (hf : ∀ x, key (f x) = key x)
    (hnew : key new = k) (k' : κ) :
    selectBy key k' (upsertBy key k f new rows) =
      if k' = k then some ((selectBy key k rows).elim new f) else selectBy key k' rows := by
  unfold upsertBy
  cases h : selectBy key k rows with
  | none => exact selectBy_insert hnew h k'
  | some x =>
    show selectBy key k' (updateBy key k f rows) = _
    rw [selectBy_update hf, h]
    rfl

theorem map_updateBy {α : Type} {k : κ} {f : ρ → ρ} {col : ρ → α}
    (hf : ∀ x, col (f x) = col x) : (updateBy key k f rows).map col = rows.map col := by
  unfold updateBy
  rw [List.map_map]
  apply List.map_congr_left
  intro x _
  simp only [Function.comp_apply]
  split
  · exact hf x
  · rfl

theorem mem_updateBy {k : κ} {f : ρ → ρ} {y : ρ} (h : y ∈ updateBy key k f rows) :
    ∃ x ∈ rows, y = if key x = k then f x else x := by
  obtain ⟨x, hx, rfl⟩ := List.mem_map.mp h
  exact ⟨x, hx, rfl⟩

end PaymentRecovery.Lib.Table
