import PaymentRecovery.Guardrails.SharedRuns
import PaymentRecovery.Guardrails.Limits
import Mathlib.Algebra.Order.Ring.Rat
import Mathlib.Algebra.Order.Ring.Int
import Mathlib.Tactic.Linarith

/-!
# Limits and keys among several workers

The two counters are read, and only later written, so workers that share a store
can pass a limit together; so can two executions of one key. What they can do is
bounded by their number: each but one may hold one action that the others' checks
have not seen. With one worker at a time the limits hold exactly.
-/

namespace PaymentRecovery.Guardrails

open PaymentRecovery.Python PaymentRecovery.Lib Program LawfulGuardStore

variable {ι S σ : Type} {scope : Scope} {s s' : Snapshot} {c' : Point}

/-! ## What is in flight -/

/-- What the worker may still add to the spend of the run. -/
def Point.pendingSpend (run : String) : Point → ℚ
  | .admitted t | .returned t => if t.runId = run then max 0 t.action.cost else 0
  | _ => 0

/-- What it may still add to the count of the subject. -/
def Point.pendingCount (run subject : String) : Point → ℤ
  | .counted t | .admitted t | .returned t =>
    if t.runId = run ∧ t.action.subjectId = subject then 1 else 0
  | _ => 0

theorem Point.pendingSpend_nonneg (run : String) (c : Point) : 0 ≤ c.pendingSpend run := by
  unfold pendingSpend
  split <;> first | exact le_refl _ | (split <;> simp)

theorem Point.pendingSpend_le {run : String} {bound : ℚ} (hbound : 0 ≤ bound) {c : Point}
    (h : ∀ t, c.ticket? = some t → t.runId = run → t.action.cost ≤ bound) :
    c.pendingSpend run ≤ bound := by
  cases c with
  | admitted t | returned t =>
    unfold pendingSpend
    dsimp only
    split
    · rename_i hrun
      exact max_le hbound (h t rfl hrun)
    · exact hbound
  | _ => exact hbound

theorem Point.pendingCount_nonneg (run subject : String) (c : Point) :
    0 ≤ c.pendingCount run subject := by
  unfold pendingCount
  split <;> first | exact le_refl _ | (split <;> simp)

theorem Point.pendingCount_le_one (run subject : String) (c : Point) :
    c.pendingCount run subject ≤ 1 := by
  unfold pendingCount
  split <;> first | exact zero_le_one | (split <;> simp)

/-- A worker that admits an action has checked its cost against the cap; no other move adds to
the spend and what is in flight. -/
theorem Move.spends {c : Point} (h : Move scope s c c' s') (run : String) :
    s'.state.spend run + c'.pendingSpend run ≤ s.state.spend run + c.pendingSpend run ∨
    ∃ t, c' = .admitted t ∧ t.runId = run ∧
      s'.state.spend run + c'.pendingSpend run ≤ t.policy.perRunSpendCap := by
  cases h with
  | admitted t hcap =>
    by_cases hrun : t.runId = run
    · rw [show (Point.admitted t).pendingSpend run = max 0 t.action.cost from if_pos hrun]
      rcases le_total 0 t.action.cost with hcost | hcost
      · refine .inr ⟨t, rfl, hrun, ?_⟩
        rw [max_eq_right hcost, ← hrun]
        exact hcap
      · -- a refund holds nothing back
        rw [max_eq_left hcost]
        exact .inl (le_refl _)
    · rw [show (Point.admitted t).pendingSpend run = 0 from if_neg hrun]
      exact .inl (le_refl _)
  | charged t =>
    refine .inl ?_
    show (if run = t.runId then s.state.spend run + t.action.cost else s.state.spend run) + 0 ≤ _
    rw [add_zero]
    by_cases hrun : t.runId = run
    · rw [show (Point.returned t).pendingSpend run = max 0 t.action.cost from if_pos hrun,
        if_pos hrun.symm]
      exact add_le_add_right (le_max_right _ _) _
    · rw [show (Point.returned t).pendingSpend run = 0 from if_neg hrun, if_neg (Ne.symm hrun),
        add_zero]
  | failed t => exact .inl (add_le_add_right ((Point.admitted t).pendingSpend_nonneg run) _)
  | _ => exact .inl (le_refl _)

/-- A worker past the budget check has seen a count below the budget; no other move adds to the
count and what is in flight. -/
theorem Move.counts {c : Point} (h : Move scope s c c' s') (run subject : String) :
    (s'.state.count run subject : ℤ) + c'.pendingCount run subject ≤
      s.state.count run subject + c.pendingCount run subject ∨
    ∃ t, c' = .counted t ∧ t.runId = run ∧
      (s'.state.count run subject : ℤ) + c'.pendingCount run subject ≤
        t.policy.perSubjectActionBudget := by
  cases h with
  | counted t hbudget =>
    by_cases hown : t.runId = run ∧ t.action.subjectId = subject
    · refine .inr ⟨t, rfl, hown.1, ?_⟩
      rw [show (Point.counted t).pendingCount run subject = 1 from if_pos hown, ← hown.1, ← hown.2]
      exact hbudget
    · rw [show (Point.counted t).pendingCount run subject = 0 from if_neg hown]
      exact .inl (le_refl _)
  | charged t =>
    refine .inl ?_
    show ((if run = t.runId ∧ subject = t.action.subjectId then s.state.count run subject + 1
      else s.state.count run subject : ℕ) : ℤ) + 0 ≤ _
    by_cases hown : t.runId = run ∧ t.action.subjectId = subject
    · rw [show (Point.returned t).pendingCount run subject = 1 from if_pos hown,
        if_pos ⟨hown.1.symm, hown.2.symm⟩]
      push_cast
      omega
    · rw [show (Point.returned t).pendingCount run subject = 0 from if_neg hown,
        if_neg fun h => hown ⟨h.1.symm, h.2.symm⟩]
  | spent | refused | failed =>
    refine .inl (add_le_add_right ?_ _)
    unfold Point.pendingCount
    first | exact le_refl _ | (dsimp only; split <;> simp)
  | _ => exact .inl (le_refl _)

/-! ## Runs -/

/-- One policy in the run, and no action in it costs more than `bound`. -/
def Scope.bounded (run : String) (policy : GuardPolicy) (bound : ℚ) : Scope where
  policy r p := r = run → p = policy
  cost r cost := r = run → cost ≤ bound

/-- What the call presents in the run costs at most `bound`. -/
def Costs (run : String) (bound : ℚ) : Call σ → Prop
  | .execute ex action => ex.runId = run → action.cost ≤ bound
  | .approve _ _ | .rejectApproval _ _ => True

theorem Scope.bounded_covers {run : String} {policy : GuardPolicy} {bound : ℚ} {call : Call σ}
    (hunder : Under run policy call) (hcosts : Costs run bound call) :
    (Scope.bounded run policy bound).Covers call := by
  cases call with
  | execute => exact ⟨hunder, hcosts⟩
  | approve => exact hunder
  | rejectApproval => trivial

/-- The counters of the run, with all that is in flight, are within the policy and one action for
each worker but one. -/
structure WithinReach [Fintype ι] (run : String) (policy : GuardPolicy) (bound : ℚ)
    (points : ι → Point) (s : Snapshot) : Prop where
  spend : s.state.spend run + ∑ i, (points i).pendingSpend run ≤
    policy.perRunSpendCap + (Fintype.card ι - 1) • bound
  count : ∀ subject, (s.state.count run subject : ℤ) + ∑ i, (points i).pendingCount run subject ≤
    policy.perSubjectActionBudget + (Fintype.card ι - 1) • 1

variable [Fintype ι] [DecidableEq ι]

theorem WithinReach.move {run : String} {policy : GuardPolicy} {bound : ℚ} {points : ι → Point}
    {i : ι} (hbound : 0 ≤ bound) (h : WithinReach run policy bound points s)
    (hsound : Sound (.bounded run policy bound) points s)
    (hmove : Move (.bounded run policy bound) s (points i) c' s') :
    WithinReach run policy bound (Function.update points i c') s' := by
  have hpolicy : ∀ t, c'.ticket? = some t → t.runId = run → t.policy = policy := by
    intro t ht hrun
    have hallows := (hsound.move hmove).carried i t (by rw [Function.update_self]; exact ht)
    exact hallows.1 hrun
  constructor
  · refine total_in_flight (fun j => Point.pendingSpend_le hbound fun t ht hrun =>
      (hsound.carried j t ht).2 hrun) h.spend ((hmove.spends run).imp_right ?_)
    rintro ⟨t, hpoint, hrun, hcap⟩
    rw [hpolicy t (by rw [hpoint]; rfl) hrun] at hcap
    exact hcap
  · intro subject
    refine total_in_flight (fun j => (points j).pendingCount_le_one run subject)
      (h.count subject) ((hmove.counts run subject).imp_right ?_)
    rintro ⟨t, hpoint, hrun, hbudget⟩
    rw [hpolicy t (by rw [hpoint]; rfl) hrun] at hbudget
    exact hbudget

variable [GuardStore S] [LawfulGuardStore S] [SharedGuardStore S]

/-- **How far workers can pass the limits of a run together.** All executors of the run share one
policy, and no action in it costs more than `bound`. However the workers' transactions are
ordered, the spend stays within the cap and `bound` for each worker but one, and a subject's count
within the budget and one for each worker but one: one worker alone keeps the limits. -/
theorem limits_among_workers (run : String) (policy : GuardPolicy) (bound : ℚ)
    (calls : ι → List (Call σ)) (w : World S σ) (schedule : List ι) (hbound : 0 ≤ bound)
    (hstart : WithinLimits run policy w.snapshot.state)
    (hunder : ∀ i, ∀ call ∈ calls i, Under run policy call)
    (hcosts : ∀ i, ∀ call ∈ calls i, Costs run bound call)
    (hqueued : ∀ key rec, GuardStore.getApproval w.store run key = some rec → rec.cost ≤ bound) :
    GuardStore.accumulatedSpend (worldAfter calls w schedule).store run ≤
      policy.perRunSpendCap + (Fintype.card ι - 1 : ℕ) * bound ∧
    ∀ subject, (GuardStore.subjectExecutedCount (worldAfter calls w schedule).store run subject :
      ℤ) ≤ policy.perSubjectActionBudget + (Fintype.card ι - 1 : ℕ) := by
  obtain ⟨points, hreach, _⟩ := workers_keep (.bounded run policy bound) calls w
    (I := fun _ points s => WithinReach run policy bound points s)
    (fun i call hcall => Scope.bounded_covers (hunder i call hcall) (hcosts i call hcall))
    (fun r key rec hrec hr => by
      subst hr
      refine hqueued key rec ?_
      rw [getApproval_eq]
      exact hrec)
    (by
      refine ⟨?_, fun subject => ?_⟩
      · have hspend := hstart.spend
        have hroom := nsmul_nonneg hbound (Fintype.card ι - 1)
        simp only [Point.pendingSpend, Finset.sum_const_zero, add_zero]
        linarith
      · have hcount := hstart.count subject
        have hroom := nsmul_nonneg (zero_le_one (α := ℤ)) (Fintype.card ι - 1)
        simp only [Point.pendingCount, Finset.sum_const_zero, add_zero]
        linarith)
    (fun _ _ _ _ hsound h hmove => h.move hbound hsound hmove) schedule
  rw [accumulatedSpend_eq]
  refine ⟨?_, fun subject => ?_⟩
  · have hspend := hreach.spend
    have hflight := Finset.sum_nonneg fun i (_ : i ∈ Finset.univ) =>
      (points i).pendingSpend_nonneg run
    rw [nsmul_eq_mul] at hspend
    exact (le_add_of_nonneg_right hflight).trans hspend
  · rw [subjectExecutedCount_eq]
    have hcount := hreach.count subject
    have hflight := Finset.sum_nonneg fun i (_ : i ∈ Finset.univ) =>
      (points i).pendingCount_nonneg run subject
    rw [nsmul_eq_mul, mul_one] at hcount
    exact (le_add_of_nonneg_right hflight).trans hcount

namespace Sample

/-- Two workers of one run whose cap is one payment of 100. -/
def hurried : Bool → List (Call Unit) := fun second =>
  [.execute { executor with policy := ⟨500, 5, 100⟩ }
    ⟨"pay", "order", if second then "second" else "first", 100, .dict []⟩]

end Sample

open Sample

theorem limits_among_two :
    GuardStore.accumulatedSpend
      (worldAfter hurried (.fresh () : World InMemoryGuardStore Unit) inTurns).store "run" ≤
        100 + (1 : ℕ) * 100 := by
  have h := limits_among_workers (S := InMemoryGuardStore) "run" ⟨500, 5, 100⟩ 100 hurried (.fresh ())
    inTurns (by decide +kernel)
    (by
      rw [snapshot_fresh]
      exact ⟨by decide +kernel, fun _ => by show (0 : ℤ) ≤ 5; decide⟩)
    (fun i call hcall _ => by
      obtain rfl := List.mem_singleton.mp hcall
      rfl)
    (fun i call hcall => by
      obtain rfl := List.mem_singleton.mp hcall
      exact fun _ => le_refl _)
    (fun key rec hrec => by cases hrec)
  exact h.1

/-- Both payments pass the check before either is charged, and the bound is met. -/
example : GuardStore.accumulatedSpend
    (worldAfter hurried (.fresh () : World InMemoryGuardStore Unit) inTurns).store "run" = 200 := by
  decide +kernel

end PaymentRecovery.Guardrails
