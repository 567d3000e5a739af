import PaymentRecovery.Rules.Evaluator

/-!
# What a conjunction of predicates matches

A precondition speaks about each field by itself. A value fits a field if it
meets all predicates on it, and a context matches if its fields all fit.
-/

namespace PaymentRecovery.Rules

open PaymentRecovery.Python

variable {rule : Rule} {context : List (String × PyVal)}

/-- The value meets every predicate on the field. -/
def Fits (rule : Rule) (field : String) (value : PyVal) : Prop :=
  ∀ p ∈ rule.precondition, p.field = field → compare p.op value p.value = some true

/-- No context can match: some field has no value that fits. -/
def Unmatchable (rule : Rule) : Prop :=
  ∃ field, ∀ value, ¬ Fits rule field value

theorem holds_iff {p : Predicate} : holds context p = true ↔
    ∃ actual, contextGet? context p.field = some actual ∧ compare p.op actual p.value = some true := by
  unfold holds
  cases contextGet? context p.field with
  | none => simp
  | some actual =>
    simp only [Option.some.injEq, exists_eq_left']
    cases compare p.op actual p.value with
    | none => simp
    | some answer => simp

/-- Every predicate finds its field in the context, and the comparison is true. -/
def Matches (rule : Rule) (context : List (String × PyVal)) : Prop :=
  ∀ p ∈ rule.precondition, ∃ actual, contextGet? context p.field = some actual ∧
    compare p.op actual p.value = some true

theorem evaluate_iff : evaluate rule context = true ↔ Matches rule context := by
  unfold evaluate
  rw [List.all_eq_true]
  exact forall₂_congr fun p _ => holds_iff

/-- The fields of a matching context fit. -/
theorem fits_of_evaluate (h : evaluate rule context = true) {field : String} {value : PyVal}
    (hvalue : contextGet? context field = some value) : Fits rule field value := by
  rintro p hp rfl
  obtain ⟨actual, hactual, hcompare⟩ := evaluate_iff.mp h p hp
  rw [hvalue] at hactual
  injection hactual with hactual
  exact hactual ▸ hcompare

theorem not_unmatchable_of_evaluate (h : evaluate rule context = true) : ¬ Unmatchable rule := by
  rintro ⟨field, hnone⟩
  cases hget : contextGet? context field with
  | some value => exact hnone value (fits_of_evaluate h hget)
  | none =>
    -- a field the context lacks has no predicate on it
    refine hnone .none fun p hp hfield => ?_
    obtain ⟨actual, hactual, _⟩ := evaluate_iff.mp h p hp
    rw [hfield, hget] at hactual
    cases hactual

/-- Where every field has a value that fits, any one of them can be completed to a context that
matches. -/
theorem exists_context {field : String} {value : PyVal} (hfits : Fits rule field value)
    (h : ¬ Unmatchable rule) :
    ∃ context, evaluate rule context = true ∧ contextGet? context field = some value := by
  have hall : ∀ f, ∃ v, Fits rule f v := by
    intro f
    by_contra hnone
    exact h ⟨f, fun v hv => hnone ⟨v, hv⟩⟩
  choose pick hpick using hall
  let rest := rule.precondition.map fun p => (p.field, pick p.field)
  have hrest : ∀ {preds : List Predicate} {f : String}, f ∈ preds.map (·.field) →
      contextGet? (preds.map fun p => (p.field, pick p.field)) f = some (pick f) := by
    intro preds f hf
    unfold contextGet?
    induction preds with
    | nil => cases hf
    | cons p preds ih =>
      by_cases hp : p.field = f
      · simp [hp]
      · rcases List.mem_cons.mp hf with rfl | hf
        · exact absurd rfl hp
        · rw [List.map_cons, List.find?_cons_of_neg (by simpa using hp)]
          exact ih hf
  refine ⟨(field, value) :: rest, evaluate_iff.mpr fun p hp => ?_, by simp [contextGet?]⟩
  by_cases hfield : field = p.field
  · exact ⟨value, by simp [contextGet?, hfield], hfits p hp hfield.symm⟩
  · refine ⟨pick p.field, ?_, hpick p.field p hp rfl⟩
    have hget := hrest (List.mem_map_of_mem (f := (·.field)) hp)
    unfold contextGet? at hget ⊢
    rw [List.find?_cons_of_neg (by simpa using hfield)]
    exact hget

/-! ## Numbers -/

/-- A comparison only sees which number a number is. -/
theorem compare_congr {a b : PyVal} {x : ℚ} (ha : a.number? = some x) (hb : b.number? = some x)
    (op : Operator) (value : PyVal) : compare op a value = compare op b value := by
  have heq : ∀ v, scalarEq a v = scalarEq b v := by
    intro v
    unfold scalarEq
    rw [ha, hb]
    cases v.number? <;> rfl
  have hlt : scalarLt a value = scalarLt b value := by
    unfold scalarLt
    rw [ha, hb]
    cases value.number? <;> rfl
  have hgt : scalarLt value a = scalarLt value b := by
    unfold scalarLt
    rw [ha, hb]
    cases value.number? <;> rfl
  unfold compare
  simp only [heq, hlt, hgt]

/-- Below a number, or at most one: only numbers are. -/
theorem number_of_upper {op : Operator} {actual value : PyVal} {bound : ℚ}
    (hop : op = .lt ∨ op = .le) (hbound : value.number? = some bound)
    (h : compare op actual value = some true) : ∃ x, actual.number? = some x ∧ x ≤ bound := by
  cases hactual : actual.number? with
  | none => rcases hop with rfl | rfl <;> simp [compare, scalarLt, hactual, hbound] at h
  | some x =>
    refine ⟨x, rfl, ?_⟩
    rcases hop with rfl | rfl
    · simp only [compare, scalarLt, hactual, hbound, Option.some.injEq, decide_eq_true_eq] at h
      exact h.le
    · simpa [compare, scalarLt, hactual, hbound] using h

end PaymentRecovery.Rules
