import PaymentRecovery.Recovery.Keeps

/-!
# The three actions of a case

What each effect tool builds, down to the last field, and what the rule path
makes of it. The link a rule sends is for the payment's amount, a refund is for
the amount the provider tells at that moment, and nothing else ever reaches the
executor.
-/

namespace PaymentRecovery.Recovery

open PaymentRecovery.Python PaymentRecovery.Guardrails PaymentRecovery.Providers
open PaymentRecovery.Agent PaymentRecovery.Lib Program

variable {S τ : Type}

def linkAction (case : RecoveryCase) (amount : ℚ) : Action :=
  ⟨"send_payment_link", case.subject, linkKey case, 0, .record [("amount_inr", .float amount)]⟩

def refundAction (case : RecoveryCase) (amount : ℚ) : Action :=
  ⟨"refund", case.subject, refundKey case, amount, .record [("amount_inr", .float amount),
    ("idempotency_key", .str (refundKey case))]⟩

def escalateAction (case : RecoveryCase) : Action :=
  ⟨"escalate_to_human", case.subject, escalateKey case, 0, .record []⟩

/-- The provider's answer about the payment of the case. -/
def paymentOf (case : RecoveryCase) (provider : PaymentProvider τ) (env : Env τ) :
    Except PyExc Payment :=
  (provider.getPayment case.paymentId env.outer).1

theorem buildLinkAction_eq {case : RecoveryCase} {args : Args} {env : Env τ} {action : Action}
    (h : (buildLinkAction case args env).1 = .ok action) :
    ∃ value amount, args.get "amount_inr" = .ok value ∧ toFloat value = .ok amount ∧
      action = linkAction case amount := by
  unfold buildLinkAction at h
  dsimp only at h
  cases hget : args.get "amount_inr" with
  | error exc =>
    rw [hget] at h
    cases h
  | ok value =>
    rw [hget] at h
    simp only [Bind.bind, Except.bind] at h
    cases hfloat : toFloat value with
    | error exc =>
      rw [hfloat] at h
      cases h
    | ok amount =>
      rw [hfloat] at h
      injection h with h
      exact ⟨value, amount, rfl, hfloat, h.symm⟩

/-- A refund asks the provider for the payment, and is for what it answers. -/
theorem buildRefundAction_fst (case : RecoveryCase) (provider : PaymentProvider τ) (args : Args)
    (env : Env τ) : (buildRefundAction case provider args env).1 =
      (paymentOf case provider env).map fun payment => refundAction case payment.amountInr := by
  unfold buildRefundAction paymentOf Env.ask
  cases provider.getPayment case.paymentId env.outer with
  | mk answer outer => cases answer <;> rfl

/-! ## What a rule presents -/

namespace RecoveryPipeline

theorem buildRuleAction_link (case : RecoveryCase) (w : World S (Env τ)) :
    (buildRuleAction case (linkTool case) (buildLinkAction case)).run w =
      (.ok (.ok (linkAction case case.amountInr)), w) := rfl

theorem buildRuleAction_escalate (case : RecoveryCase) (w : World S (Env τ)) :
    (buildRuleAction case (escalateTool case) (buildEscalateAction case)).run w =
      (.ok (.ok (escalateAction case)), w) := rfl

/-- What becomes of the provider's answer when a rule asks for a refund. -/
def refundAnswer (case : RecoveryCase) : Except PyExc Payment → Except PyExc (Except PyExc Action)
  | .ok payment => .ok (.ok (refundAction case payment.amountInr))
  | .error exc => if exc.cls = .toolArgError then .ok (.error exc) else .error exc

/-- The world after the provider was asked about the payment. -/
def askedPayment (case : RecoveryCase) (provider : PaymentProvider τ) (w : World S (Env τ)) :
    World S (Env τ) :=
  { w with env := (w.env.ask (.provider provider.name) (provider.getPayment case.paymentId)).2 }

theorem buildRuleAction_refund (case : RecoveryCase) (provider : PaymentProvider τ)
    (w : World S (Env τ)) :
    (buildRuleAction case (refundTool case provider) (buildRefundAction case provider)).run w =
      (refundAnswer case (paymentOf case provider w.env), askedPayment case provider w) := by
  have hargs : validateArgs (refundTool case provider) (.record []) = .ok [] := rfl
  have hparams : (refundTool case provider).params = [] := rfl
  unfold buildRuleAction
  rw [hparams]
  simp only [List.any_nil, Bool.false_eq_true, if_false, hargs, onEnv, run_bind, run_step]
  unfold paymentOf askedPayment buildRefundAction Env.ask
  cases provider.getPayment case.paymentId w.env.outer with
  | mk answer outer =>
    cases answer with
    | ok payment => rfl
    | error exc =>
      dsimp only [refundAnswer]
      split <;> rfl

variable (p : RecoveryPipeline τ) [GuardStore S]

/-- The row of a rule whose action was presented. -/
def ruleRow (decision : RoutingDecision) (name : String) (result : ExecutionResult) : LedgerFields :=
  { ruleFields decision with
    executionStatus := some result.status.value
    outcome := outcomeFor result.status name
    approvalId := result.approvalId }

/-- A rule presents the action its tool builds. -/
theorem executeRule_run {ex : GuardedExecutor (Env τ)} {case : RecoveryCase}
    {spec : ToolSpec (Env τ)} {build : Args → Env τ → Except PyExc Action × Env τ}
    {decision : RoutingDecision} {action : Action} {w v : World S (Env τ)}
    (hbuilt : (buildRuleAction case spec build).run w = (.ok (.ok action), v)) :
    (executeRule ex case spec build decision).run w =
      (ruleRow decision action.name <$> ex.execute action).run v := by
  unfold executeRule
  rw [run_bind, hbuilt]
  rfl

theorem runRule_link (case : RecoveryCase) (provider : PaymentProvider τ)
    {decision : RoutingDecision} (haction : decision.action = some "send_payment_link")
    (w : World S (Env τ)) : (p.runRule case provider decision).run w =
      (ruleRow decision "send_payment_link" <$>
        (p.caseExecutor case provider).execute (linkAction case case.amountInr)).run w := by
  have hspec : (caseRegistry case provider).get? "create_payment_link" = some (linkTool case) := by
    rw [caseRegistry_get?]
    rfl
  rw [runRule_eq (by rw [haction]; rfl) hspec rfl]
  exact executeRule_run (buildRuleAction_link case w)

theorem runRule_escalate (case : RecoveryCase) (provider : PaymentProvider τ)
    {decision : RoutingDecision} (haction : decision.action = some "escalate_to_human")
    (w : World S (Env τ)) : (p.runRule case provider decision).run w =
      (ruleRow decision "escalate_to_human" <$>
        (p.caseExecutor case provider).execute (escalateAction case)).run w := by
  have hspec : (caseRegistry case provider).get? "escalate_to_human" = some (escalateTool case) := by
    rw [caseRegistry_get?]
    rfl
  rw [runRule_eq (by rw [haction]; rfl) hspec rfl]
  exact executeRule_run (buildRuleAction_escalate case w)

theorem runRule_refund (case : RecoveryCase) (provider : PaymentProvider τ)
    {decision : RoutingDecision} (haction : decision.action = some "refund")
    {w : World S (Env τ)} {payment : Payment}
    (hpayment : paymentOf case provider w.env = .ok payment) :
    (p.runRule case provider decision).run w =
      (ruleRow decision "refund" <$> (p.caseExecutor case provider).execute
        (refundAction case payment.amountInr)).run (askedPayment case provider w) := by
  have hspec : (caseRegistry case provider).get? "refund_payment" =
      some (refundTool case provider) := by
    rw [caseRegistry_get?]
    rfl
  rw [runRule_eq (by rw [haction]; rfl) hspec rfl]
  refine executeRule_run ?_
  rw [buildRuleAction_refund, hpayment]
  rfl

/-- A refund without an answer about the payment is refused or raises. -/
theorem runRule_refund_error (case : RecoveryCase) (provider : PaymentProvider τ)
    {decision : RoutingDecision} (haction : decision.action = some "refund")
    {w : World S (Env τ)} {exc : PyExc} (hpayment : paymentOf case provider w.env = .error exc) :
    (p.runRule case provider decision).run w =
      (if exc.cls = .toolArgError then
          .ok { ruleFields decision with
            outcome := "failed"
            error := some ("rule arguments invalid: " ++ exc.message) }
        else .error exc, askedPayment case provider w) := by
  have hspec : (caseRegistry case provider).get? "refund_payment" =
      some (refundTool case provider) := by
    rw [caseRegistry_get?]
    rfl
  rw [runRule_eq (by rw [haction]; rfl) hspec rfl]
  unfold executeRule
  rw [run_bind, buildRuleAction_refund, hpayment]
  dsimp only [refundAnswer]
  by_cases hcls : exc.cls = .toolArgError
  · rw [if_pos hcls, if_pos hcls]
    rfl
  · rw [if_neg hcls, if_neg hcls]

/-- Any other action presents nothing. -/
theorem runRule_none (case : RecoveryCase) (provider : PaymentProvider τ)
    {decision : RoutingDecision} (haction : ruleActionToTool (decision.action.getD "") = none) :
    (p.runRule case provider decision : Pipe S τ LedgerFields) = pure (ruleFields decision) := by
  unfold runRule
  rw [haction]

/-- The actions of the rules, one by one. -/
theorem ruleActionToTool_cases (action : Option String) :
    action = some "send_payment_link" ∨ action = some "refund" ∨
    action = some "escalate_to_human" ∨ ruleActionToTool (action.getD "") = none := by
  cases action with
  | none => exact .inr (.inr (.inr rfl))
  | some name =>
    by_cases hlink : name = "send_payment_link"
    · exact .inl (congrArg some hlink)
    · by_cases hrefund : name = "refund"
      · exact .inr (.inl (congrArg some hrefund))
      · by_cases hescalate : name = "escalate_to_human"
        · exact .inr (.inr (.inl (congrArg some hescalate)))
        · refine .inr (.inr (.inr ?_))
          show ruleActionToTool name = none
          unfold ruleActionToTool
          rw [if_neg hlink, if_neg hrefund, if_neg hescalate]

end RecoveryPipeline

end PaymentRecovery.Recovery
