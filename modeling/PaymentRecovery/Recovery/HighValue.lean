import PaymentRecovery.Recovery.Lifecycle
import PaymentRecovery.Rules.Matching

/-!
# High-value refunds

`promote` passes a refund rule whose amount predicate is `lt` or `le` some
number up to the approval threshold. That bounds the amount by the threshold,
and strictly so exactly when something in the precondition excludes the
threshold itself.
-/

namespace PaymentRecovery.Recovery

open PaymentRecovery.Python PaymentRecovery.Lib PaymentRecovery.Rules PaymentRecovery.Distill

/-- The number in the context's `amount_inr`. -/
def amountOf (context : List (String × PyVal)) : Option ℚ :=
  (contextGet? context "amount_inr").bind PyVal.number?

/-- Every context that satisfies the precondition has an amount strictly below the threshold. -/
def BelowThreshold (rule : Rule) (threshold : ℚ) : Prop :=
  ∀ context, evaluate rule context = true →
    ∃ amount, amountOf context = some amount ∧ amount < threshold

/-- Some predicate on the amount does not hold of the threshold itself. -/
def ExcludesThreshold (rule : Rule) (threshold : ℚ) : Prop :=
  ∃ p ∈ rule.precondition, p.field = "amount_inr" ∧
    compare p.op (.float threshold) p.value ≠ some true

section Bound

variable {σ : Type} {D : PaymentDistiller σ} {rule : Rule}

/-- What the check of a refund rule finds. -/
theorem bound_of_notHigh (h : D.isHighValueRefund rule = false)
    (hrefund : rule.action.name = "refund") :
    ∃ p ∈ rule.precondition, p.field = "amount_inr" ∧ (p.op = .lt ∨ p.op = .le) ∧
      ∃ bound, p.value.number? = some bound ∧ bound ≤ D.settings.approvalThresholdInr := by
  unfold PaymentDistiller.isHighValueRefund at h
  rw [hrefund] at h
  simp only [decide_true, Bool.true_and, Bool.not_eq_false', List.any_eq_true, Bool.and_eq_true,
    Bool.or_eq_true, decide_eq_true_eq] at h
  obtain ⟨p, hp, ⟨hfield, hop⟩, hbound⟩ := h
  refine ⟨p, hp, hfield, hop, ?_⟩
  split at hbound
  · rename_i bound hnumber
    exact ⟨bound, hnumber, of_decide_eq_true hbound⟩
  · cases hbound

/-- So what it matches has an amount of at most the threshold. -/
theorem amount_le_threshold (h : D.isHighValueRefund rule = false)
    (hrefund : rule.action.name = "refund") {context : List (String × PyVal)}
    (hmatch : evaluate rule context = true) :
    ∃ actual amount, contextGet? context "amount_inr" = some actual ∧ actual.number? = some amount ∧
      amount ≤ D.settings.approvalThresholdInr := by
  obtain ⟨p, hp, hfield, hop, bound, hbound, hle⟩ := bound_of_notHigh h hrefund
  obtain ⟨actual, hactual, hcompare⟩ := evaluate_iff.mp hmatch p hp
  obtain ⟨amount, hamount, hupper⟩ := number_of_upper hop hbound hcompare
  exact ⟨actual, amount, hfield ▸ hactual, hamount, hupper.trans hle⟩

/-- The bound is strict exactly when the threshold does not fit, or nothing does. -/
theorem belowThreshold_iff (h : D.isHighValueRefund rule = false)
    (hrefund : rule.action.name = "refund") :
    BelowThreshold rule D.settings.approvalThresholdInr ↔
      ExcludesThreshold rule D.settings.approvalThresholdInr ∨ Unmatchable rule := by
  refine ⟨fun hbelow => ?_, ?_⟩
  · by_contra hneither
    obtain ⟨hfitting, hmatchable⟩ := not_or.mp hneither
    -- a context at the threshold itself
    have hfits : Fits rule "amount_inr" (.float D.settings.approvalThresholdInr) := by
      intro p hp hfield
      by_contra hcompare
      exact hfitting ⟨p, hp, hfield, hcompare⟩
    obtain ⟨context, hmatch, hamount⟩ := exists_context hfits hmatchable
    obtain ⟨amount, hget, hlt⟩ := hbelow context hmatch
    unfold amountOf at hget
    rw [hamount] at hget
    injection hget with hget
    exact lt_irrefl _ (hget ▸ hlt)
  · rintro (⟨p, hp, hfield, hexcludes⟩ | hunmatchable)
    · intro context hmatch
      obtain ⟨actual, amount, hactual, hamount, hle⟩ := amount_le_threshold h hrefund hmatch
      refine ⟨amount, by rw [amountOf, hactual]; exact hamount, lt_of_le_of_ne hle ?_⟩
      rintro rfl
      refine hexcludes ?_
      rw [compare_congr (b := actual) rfl hamount]
      exact fits_of_evaluate hmatch hactual p hp hfield
    · exact fun context hmatch => absurd hunmatchable (not_unmatchable_of_evaluate hmatch)

end Bound

/-- **High-value refunds.** In every run, a refund rule that `promote` makes ACTIVE matches
amounts strictly below the approval threshold alone, if and only if one of its predicates on
the amount excludes the threshold itself, or nothing matches it at all. -/
theorem promoted_refund_below_threshold_iff {σ : Type} (D : PaymentDistiller σ)
    (w : DistillerWorld σ) (ops : List DistillerOp) (op : DistillerOp) (before : DistillerWorld σ)
    (row : RuleRow) (rule : Rule) (hunique : UniqueRules w.rows)
    (hcall : D.promotesFrom op (Run.exec D.runOp ops w) = some before)
    (hpromotes : D.Promotes before row) (hrule : acceptedRule D.schema row = some rule)
    (hrefund : rule.action.name = "refund") :
    BelowThreshold rule D.settings.approvalThresholdInr ↔
      ExcludesThreshold rule D.settings.approvalThresholdInr ∨ Unmatchable rule := by
  obtain ⟨l, stats, hfrom, _, hpasses⟩ := hpromotes.gate (promotesFrom_unique hunique hcall)
  have hsame : l.rule = rule := by
    have h := hfrom.rule
    rw [hrule] at h
    exact (Option.some.inj h).symm
  exact belowThreshold_iff (hsame ▸ hpasses.notHigh) hrefund

/-! ## A store with one refund rule -/

/-- A SHADOW refund rule for amounts `op` 2000. -/
def Sample.refundRow (op : String) : RuleRow :=
  ⟨"distilled:failure_reason=network_error", 1, "shadow", 50,
    .doc (.obj [("precondition", .obj [("all", .arr [.obj
        [("field", .str "amount_inr"), ("op", .str op), ("value", .int 2000)]])]),
      ("action", .obj [("name", .str "refund"), ("params", .obj [("full", .bool true)])])]),
    .doc (.obj [("origin", .str "distilled")])⟩

/-- It has agreed and recovered on 40 cases. -/
def Sample.refundStore (op : String) : DistillerWorld Unit where
  rows := [Sample.refundRow op]
  env := ()
  state := { shadow := Dict.empty.set "distilled:failure_reason=network_error" ⟨40, 40, 40⟩ }

def Sample.refundRule (op : Operator) : Rule :=
  ⟨[⟨"amount_inr", op, .int 2000⟩], "refund", [("full", .bool true)]⟩

/-- `promote` makes it ACTIVE, with `lt` and with `le`. -/
theorem Sample.promotes {op : String} (h : op = "lt" ∨ op = "le") :
    Sample.distiller.Promotes (Sample.refundStore op) (Sample.refundRow op) := by
  have hafter : ((Sample.distiller.promote.run (Sample.refundStore op)).2.rows.map fun row =>
      (ruleId row, row.status)) = [(("distilled:failure_reason=network_error", 1), "active")] := by
    rcases h with rfl | rfl <;> decide +kernel
  refine ⟨List.mem_singleton.mpr rfl, rfl, ?_⟩
  obtain ⟨row', hrow', heq⟩ := List.mem_map.mp (hafter ▸ List.mem_singleton.mpr rfl)
  injection heq with hid hstatus
  exact ⟨row', hrow', hid, hstatus⟩

theorem Sample.unique (op : String) : UniqueRules (Sample.refundStore op).rows :=
  List.nodup_singleton _

/-- With `lt`, amounts stay below the threshold. -/
theorem promoted_refund_below_threshold_sample :
    BelowThreshold (Sample.refundRule .lt) 2000 :=
  (promoted_refund_below_threshold_iff Sample.distiller (Sample.refundStore "lt") [] .promote _ _ _
    (Sample.unique "lt") rfl (Sample.promotes (.inl rfl)) rfl rfl).mpr
    (.inl ⟨_, List.mem_singleton.mpr rfl, rfl, by decide +kernel⟩)

/-- With `le`, a refund of exactly the threshold is made automatic. -/
theorem threshold_refund_promoted :
    Sample.distiller.Promotes (Sample.refundStore "le") (Sample.refundRow "le") ∧
    acceptedRule paymentRuleSchema (Sample.refundRow "le") = some (Sample.refundRule .le) ∧
    (Sample.refundRule .le).action.name = "refund" ∧
    ¬ BelowThreshold (Sample.refundRule .le) Sample.distiller.settings.approvalThresholdInr := by
  refine ⟨Sample.promotes (.inr rfl), rfl, rfl, fun hbelow => ?_⟩
  obtain ⟨amount, hamount, hlt⟩ := hbelow [("amount_inr", .float 2000)] (by decide +kernel)
  injection hamount with hamount
  exact lt_irrefl _ (hamount ▸ hlt)

end PaymentRecovery.Recovery
