import PaymentRecovery.Evals.Harness
import PaymentRecovery.Evals.Simulator
import Mathlib.Data.List.MinMax

/-!
# The retry budget

The sweep replays every treated record under each budget and flags the smallest one
that is good enough. Its rates rise with the budget, since each case's recovery does,
so the last budget is always good enough and the first good one is the smallest.
-/

namespace PaymentRecovery.Evals

def retrySweepMax : Nat := 8

/-- A binomial rate. -/
structure RateEstimate where
  successes : Nat
  n : Nat

def RateEstimate.rate (estimate : RateEstimate) : ℚ :=
  if estimate.n = 0 then 0 else estimate.successes / estimate.n

/-- What the sweep reads of a record. -/
structure SweptRecord where
  path : RecordPath
  action : Option String
  case : SimulatedCase

/-- One row of the sweep. -/
structure SweepRow where
  budget : Nat
  recovery : RateEstimate
  optimal : Bool

variable (sha256 : ByteArray → List UInt8)

/-- The treated records that recover under a budget. -/
def sweptRecovery (treated : List SweptRecord) (budget : Nat) : RateEstimate :=
  ⟨treated.countP fun r => simulatedRecovery sha256 r.case (orNoAction r.action) budget,
    treated.length⟩

/-- The rows of the sweep, before one is flagged. -/
def sweptRows (treated : List SweptRecord) : List (Nat × RateEstimate) :=
  (List.range' 1 retrySweepMax).map fun budget => (budget, sweptRecovery sha256 treated budget)

/-- The best rate seen, from zero on. -/
def bestRate (rows : List (Nat × RateEstimate)) : ℚ :=
  rows.foldl (fun best row => max best row.2.rate) 0

/-- The smallest budget within one percentage point of the best rate. -/
def optimalBudget (rows : List (Nat × RateEstimate)) : Nat :=
  match rows.find? fun row => bestRate rows - 1 / 100 ≤ row.2.rate with
  | some row => row.1
  | none => retrySweepMax

/-- Every row says whether its budget is the optimal one. -/
def flagRows (rows : List (Nat × RateEstimate)) (optimal : Nat) : List SweepRow :=
  rows.map fun row => ⟨row.1, row.2, row.1 = optimal⟩

/-- `_retry_sweep`. -/
def retrySweep (records : List SweptRecord) : List SweepRow :=
  let treated := records.filter fun r => r.path ≠ .control
  let rows := sweptRows sha256 treated
  flagRows rows (optimalBudget rows)

/-- `optimal_retry_budget`. -/
def optimalRetryBudget (sweep : List SweepRow) : Nat :=
  match sweep.find? SweepRow.optimal with
  | some row => row.budget
  | none => match sweep.getLast? with
    | some row => row.budget
    | none => 1

/-- The rate of the row is within one percentage point of every rate of the sweep. -/
def WithinPoint (sweep : List SweepRow) (row : SweepRow) : Prop :=
  ∀ other ∈ sweep, other.recovery.rate - 1 / 100 ≤ row.recovery.rate

/-- What a sweep shows. -/
structure SweepLaws (sweep : List SweepRow) : Prop where
  budgets : sweep.map SweepRow.budget = List.range' 1 retrySweepMax
  monotone : sweep.Pairwise fun row later => row.recovery.rate ≤ later.recovery.rate
  oneOptimal : sweep.countP SweepRow.optimal = 1
  optimal_iff : ∀ row ∈ sweep, row.optimal = true ↔
    IsLeast {budget | ∃ good ∈ sweep, WithinPoint sweep good ∧ good.budget = budget} row.budget
  chosen : ∀ row ∈ sweep, row.optimal = true → optimalRetryBudget sweep = row.budget

/-! ## Rates -/

theorem RateEstimate.rate_nonneg (estimate : RateEstimate) : 0 ≤ estimate.rate := by
  unfold RateEstimate.rate
  split
  · exact le_refl 0
  · positivity

/-- A larger budget recovers at least as many of the same records. -/
theorem sweptRecovery_mono (treated : List SweptRecord) {budget budget' : Nat}
    (h : budget ≤ budget') :
    (sweptRecovery sha256 treated budget).rate ≤ (sweptRecovery sha256 treated budget').rate := by
  unfold RateEstimate.rate
  have hcount : (sweptRecovery sha256 treated budget).successes ≤
      (sweptRecovery sha256 treated budget').successes :=
    List.countP_mono_left fun r _ => simulatedRecovery_mono (Int.ofNat_le.mpr h)
  show (if treated.length = 0 then (0 : ℚ) else _) ≤ if treated.length = 0 then (0 : ℚ) else _
  split
  · exact le_refl 0
  · exact div_le_div_of_nonneg_right (Nat.cast_le.mpr hcount) (Nat.cast_nonneg _)

theorem bestRate_le_iff {rows : List (Nat × RateEstimate)} {x : ℚ} (hx : 0 ≤ x) :
    bestRate rows ≤ x ↔ ∀ row ∈ rows, row.2.rate ≤ x := by
  have hfold : ∀ start : ℚ, rows.foldl (fun best row => max best row.2.rate) start ≤ x ↔
      start ≤ x ∧ ∀ row ∈ rows, row.2.rate ≤ x := by
    induction rows with
    | nil => simp
    | cons row rest ih =>
      intro start
      rw [List.foldl_cons, ih, max_le_iff, List.forall_mem_cons, and_assoc]
  unfold bestRate
  rw [hfold 0, and_iff_right hx]

/-! ## The chosen row -/

/-- The first row found in a table in order has the smallest budget. -/
theorem find?_least {rows : List (Nat × RateEstimate)} {p : Nat × RateEstimate → Bool}
    (hsorted : rows.Pairwise fun row later => row.1 < later.1) {row : Nat × RateEstimate}
    (h : rows.find? p = some row) : ∀ other ∈ rows, p other = true → row.1 ≤ other.1 := by
  obtain ⟨_, before, after, hsplit, hbefore⟩ := List.find?_eq_some_iff_append.mp h
  intro other hother hp
  rw [hsplit] at hother hsorted
  rcases List.mem_append.mp hother with hmem | hmem
  · have hnot := hbefore other hmem
    rw [hp] at hnot
    cases hnot
  · rcases List.mem_cons.mp hmem with rfl | hmem
    · exact Nat.le_refl _
    · have hafter := (List.pairwise_append.mp hsorted).2.1
      exact Nat.le_of_lt ((List.pairwise_cons.mp hafter).1 other hmem)

theorem sweptRows_budgets (treated : List SweptRecord) :
    (sweptRows sha256 treated).map Prod.fst = List.range' 1 retrySweepMax := by
  unfold sweptRows
  rw [List.map_map]
  exact List.map_id _

theorem sweptRows_sorted (treated : List SweptRecord) :
    (sweptRows sha256 treated).Pairwise fun row later =>
      row.1 < later.1 ∧ row.2.rate ≤ later.2.rate :=
  List.pairwise_map.mpr ((List.pairwise_lt_range' 1).imp fun h => ⟨h, sweptRecovery_mono sha256 treated h.le⟩)

/-- No rate of the table is better by more than a point. -/
def GoodEnough (rows : List (Nat × RateEstimate)) (row : Nat × RateEstimate) : Prop :=
  ∀ other ∈ rows, other.2.rate - 1 / 100 ≤ row.2.rate

theorem bestRate_sub_le_iff {rows : List (Nat × RateEstimate)} {row : Nat × RateEstimate} :
    bestRate rows - 1 / 100 ≤ row.2.rate ↔ GoodEnough rows row := by
  have hnonneg := row.2.rate_nonneg
  rw [sub_le_iff_le_add, bestRate_le_iff (by positivity)]
  exact forall₂_congr fun other _ => sub_le_iff_le_add.symm

/-- The chosen budget is the smallest that is good enough. -/
theorem optimalBudget_least (treated : List SweptRecord) :
    IsLeast {budget | ∃ row ∈ sweptRows sha256 treated,
      GoodEnough (sweptRows sha256 treated) row ∧ row.1 = budget}
      (optimalBudget (sweptRows sha256 treated)) := by
  have hsorted := sweptRows_sorted sha256 treated
  -- the last budget has the best rate
  have hlast : GoodEnough (sweptRows sha256 treated)
      (retrySweepMax, sweptRecovery sha256 treated retrySweepMax) := by
    intro other hother
    obtain ⟨budget, hbudget, rfl⟩ := List.mem_map.mp hother
    have hle : budget ≤ retrySweepMax := by
      have hrange := (List.mem_range'_1.mp hbudget).2
      omega
    linarith only [sweptRecovery_mono sha256 treated hle]
  have hmem : (retrySweepMax, sweptRecovery sha256 treated retrySweepMax) ∈
      sweptRows sha256 treated :=
    List.mem_map.mpr ⟨retrySweepMax, by decide, rfl⟩
  unfold optimalBudget
  cases hfind : (sweptRows sha256 treated).find?
      fun row => bestRate (sweptRows sha256 treated) - 1 / 100 ≤ row.2.rate with
  | none =>
    have hnone := List.find?_eq_none.mp hfind _ hmem
    rw [decide_eq_true_eq, bestRate_sub_le_iff] at hnone
    exact absurd hlast hnone
  | some row =>
    refine ⟨⟨row, List.mem_of_find?_eq_some hfind, ?_, rfl⟩, ?_⟩
    · have hfound := List.find?_some hfind
      exact bestRate_sub_le_iff.mp (of_decide_eq_true hfound)
    · rintro budget ⟨other, hother, hgood, rfl⟩
      exact find?_least (hsorted.imp And.left) hfind other hother
        (decide_eq_true (bestRate_sub_le_iff.mpr hgood))

/-! ## The flagged rows -/

section Flagged

variable {rows : List (Nat × RateEstimate)} {optimal : Nat}

theorem mem_flagRows {row : SweepRow} :
    row ∈ flagRows rows optimal ↔ ∃ r ∈ rows, ⟨r.1, r.2, r.1 = optimal⟩ = row :=
  List.mem_map

theorem optimal_of_mem {row : SweepRow} (h : row ∈ flagRows rows optimal) :
    row.optimal = true ↔ row.budget = optimal := by
  obtain ⟨r, _, rfl⟩ := mem_flagRows.mp h
  exact decide_eq_true_iff

/-- Flagging changes no rate. -/
theorem withinPoint_flagRows (r : Nat × RateEstimate) :
    WithinPoint (flagRows rows optimal) ⟨r.1, r.2, r.1 = optimal⟩ ↔ GoodEnough rows r :=
  List.forall_mem_map

theorem goodBudgets_flagRows :
    {budget | ∃ good ∈ flagRows rows optimal,
      WithinPoint (flagRows rows optimal) good ∧ good.budget = budget} =
    {budget | ∃ row ∈ rows, GoodEnough rows row ∧ row.1 = budget} := by
  ext budget
  constructor
  · rintro ⟨good, hmem, hgood, hbudget⟩
    obtain ⟨r, hr, rfl⟩ := mem_flagRows.mp hmem
    exact ⟨r, hr, (withinPoint_flagRows r).mp hgood, hbudget⟩
  · rintro ⟨r, hr, hgood, hbudget⟩
    exact ⟨_, mem_flagRows.mpr ⟨r, hr, rfl⟩, (withinPoint_flagRows r).mpr hgood, hbudget⟩

/-- Of distinct budgets one is flagged. -/
theorem countP_flagRows (hnodup : (rows.map Prod.fst).Nodup) (hmem : optimal ∈ rows.map Prod.fst) :
    (flagRows rows optimal).countP SweepRow.optimal = 1 := by
  have hcount := List.count_eq_one_of_mem hnodup hmem
  unfold flagRows
  rw [List.count, List.countP_map] at hcount
  rw [List.countP_map, ← hcount]
  exact List.countP_congr fun r _ => by simp

theorem optimalRetryBudget_flagRows {row : SweepRow} (hrow : row ∈ flagRows rows optimal)
    (hoptimal : row.optimal = true) :
    optimalRetryBudget (flagRows rows optimal) = row.budget := by
  unfold optimalRetryBudget
  cases hfind : (flagRows rows optimal).find? SweepRow.optimal with
  | none => exact absurd hoptimal (List.find?_eq_none.mp hfind row hrow)
  | some first =>
    have hfirst := (optimal_of_mem (List.mem_of_find?_eq_some hfind)).mp (List.find?_some hfind)
    exact hfirst.trans ((optimal_of_mem hrow).mp hoptimal).symm

end Flagged

theorem retrySweep_laws (records : List SweptRecord) : SweepLaws (retrySweep sha256 records) := by
  unfold retrySweep
  dsimp only
  generalize records.filter (fun r => r.path ≠ .control) = treated
  have hsorted := sweptRows_sorted sha256 treated
  have hleast := optimalBudget_least sha256 treated
  refine ⟨?_, ?_, ?_, ?_, fun row => optimalRetryBudget_flagRows⟩
  · unfold flagRows
    rw [List.map_map]
    exact sweptRows_budgets sha256 treated
  · exact List.pairwise_map.mpr (hsorted.imp And.right)
  · obtain ⟨row, hrow, _, hchosen⟩ := hleast.1
    refine countP_flagRows (List.pairwise_map.mpr (hsorted.imp fun h => h.1.ne)) ?_
    rw [← hchosen]
    exact List.mem_map_of_mem hrow
  · intro row hrow
    rw [goodBudgets_flagRows, optimal_of_mem hrow]
    exact ⟨fun h => h ▸ hleast, fun h => h.unique hleast⟩

/-- **The retry budget.** For every draw, case and action the probability of a recovery lies
between zero and one, rises with the budget up to the abandonment threshold and not beyond, and a
larger budget recovers what a smaller one does. So for all records the rates of the sweep rise
with the budget, one row is flagged, and its budget is the smallest within a point of the best. -/
theorem retry_budget_laws (sha256 : ByteArray → List UInt8) :
    (∀ (case : SimulatedCase) (action : String) (budget : Int),
      0 ≤ recoveryProbability sha256 case action budget ∧
      recoveryProbability sha256 case action budget ≤ 1 ∧
      (∀ larger, budget ≤ larger → recoveryProbability sha256 case action budget ≤
        recoveryProbability sha256 case action larger) ∧
      (case.persona.abandonmentThreshold ≤ budget → recoveryProbability sha256 case action budget =
        recoveryProbability sha256 case action case.persona.abandonmentThreshold) ∧
      ∀ larger, budget ≤ larger → simulatedRecovery sha256 case action budget = true →
        simulatedRecovery sha256 case action larger = true) ∧
    ∀ records, SweepLaws (retrySweep sha256 records) :=
  ⟨fun case action budget => ⟨recoveryProbability_nonneg case action budget,
    recoveryProbability_le_one case action budget, fun _ => recoveryProbability_mono case action,
    recoveryProbability_abandoned case action, fun _ => simulatedRecovery_mono⟩,
    retrySweep_laws sha256⟩

end PaymentRecovery.Evals
