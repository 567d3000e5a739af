import PaymentRecovery.Recovery.Built
import PaymentRecovery.Agent.Presented

/-!
# Model confinement

Whatever the LLM writes, the loop of a case presents three kinds of actions to
the executor. Their keys, costs and subjects come from the case and from the
provider, so two models that meet the same answer of the provider refund alike.
-/

namespace PaymentRecovery.Recovery

open PaymentRecovery.Python PaymentRecovery.Guardrails PaymentRecovery.Providers
open PaymentRecovery.Agent PaymentRecovery.Lib

variable {S T τ : Type} [GuardStore S] [GuardStore T]

/-- The actions a model can have built in an environment. The amount of a link is the model's own;
that of a refund is the answer of the provider. -/
inductive Confined (case : RecoveryCase) (provider : PaymentProvider τ) (env : Env τ) :
    Action → Prop where
  | link {action : Action} (name : action.name = "send_payment_link")
    (key : action.idempotencyKey = "link:" ++ case.paymentId) (cost : action.cost = 0) :
    Confined case provider env action
  | refund {action : Action} {payment : Payment} (name : action.name = "refund")
    (key : action.idempotencyKey = "refund:" ++ case.paymentId)
    (asked : paymentOf case provider env = .ok payment) (cost : action.cost = payment.amountInr)
    (amount : paramGet action.params "amount_inr" = .ok (.float payment.amountInr)) :
    Confined case provider env action
  | escalate {action : Action} (name : action.name = "escalate_to_human")
    (key : action.idempotencyKey = "escalate:" ++ case.paymentId) (cost : action.cost = 0) :
    Confined case provider env action

theorem RecoveryCase.subject_eq (case : RecoveryCase) :
    some case.subject = case.customerId ∨ case.subject = case.paymentId := by
  unfold RecoveryCase.subject
  cases case.customerId with
  | none => exact .inr rfl
  | some customerId =>
    dsimp only
    split
    · exact .inr rfl
    · exact .inl rfl

/-- What an effect tool of the case builds. -/
theorem tool_builds {case : RecoveryCase} {provider : PaymentProvider τ} {spec : ToolSpec (Env τ)}
    (hmem : spec ∈ tools case provider) {build : Args → Env τ → Except PyExc Action × Env τ}
    (hbody : spec.body = .effect build) {args : Args} {env : Env τ} {action : Action}
    (h : (build args env).1 = .ok action) :
    (∃ amount, action = linkAction case amount) ∨
    (∃ payment, paymentOf case provider env = .ok payment ∧
      action = refundAction case payment.amountInr) ∨
    action = escalateAction case := by
  refine (tools_all (A := fun _ => True)
    (B := fun build : Args → Env τ → Except PyExc Action × Env τ =>
      ∀ args env action, (build args env).1 = .ok action →
        (∃ amount, action = linkAction case amount) ∨
        (∃ payment, paymentOf case provider env = .ok payment ∧
          action = refundAction case payment.amountInr) ∨
        action = escalateAction case)
    trivial trivial trivial ?_ ?_ ?_ hmem).2 build hbody args env action h
  · intro args env action h
    obtain ⟨value, amount, _, _, haction⟩ := buildLinkAction_eq h
    exact .inl ⟨amount, haction⟩
  · intro args env action h
    rw [buildRefundAction_fst] at h
    cases hasked : paymentOf case provider env with
    | error exc =>
      rw [hasked] at h
      cases h
    | ok payment =>
      rw [hasked] at h
      injection h with h
      exact .inr (.inl ⟨payment, rfl, h.symm⟩)
  · intro args env action h
    injection h with h
    exact .inr (.inr h.symm)

theorem presents_cases {p : RecoveryPipeline τ} {case : RecoveryCase} {provider : PaymentProvider τ}
    {view : List (String × PyVal)} {w : World S (Env τ)} {env : Env τ} {action : Action}
    (h : (p.caseLoop case provider).Presents view w env action) :
    (∃ amount, action = linkAction case amount) ∨
    (∃ payment, paymentOf case provider env = .ok payment ∧
      action = refundAction case payment.amountInr) ∨
    action = escalateAction case := by
  obtain ⟨answer, hcall⟩ := h
  obtain ⟨name, raw, ⟨spec, args, build, hspec, _, hbody, hbuilt⟩⟩ := calls_built hcall
  exact tool_builds (mem_tools_of_get? hspec) hbody hbuilt

theorem presents_confined {p : RecoveryPipeline τ} {case : RecoveryCase}
    {provider : PaymentProvider τ} {view : List (String × PyVal)} {w : World S (Env τ)} {env : Env τ}
    {action : Action} (h : (p.caseLoop case provider).Presents view w env action) :
    Confined case provider env action ∧ action.subjectId = case.subject := by
  rcases presents_cases h with ⟨amount, rfl⟩ | ⟨payment, hasked, rfl⟩ | rfl
  · exact ⟨.link rfl rfl rfl, rfl⟩
  · exact ⟨.refund rfl rfl hasked rfl rfl, rfl⟩
  · exact ⟨.escalate rfl rfl rfl, rfl⟩

/-- A refund is determined by the provider's answer. -/
theorem refund_determined {p p' : RecoveryPipeline τ} {case : RecoveryCase}
    {provider : PaymentProvider τ} {view view' : List (String × PyVal)} {w : World S (Env τ)}
    {w' : World T (Env τ)} {env env' : Env τ} {action action' : Action}
    (h : (p.caseLoop case provider).Presents view w env action)
    (h' : (p'.caseLoop case provider).Presents view' w' env' action')
    (hname : action.name = "refund") (hname' : action'.name = "refund")
    (hasked : paymentOf case provider env = paymentOf case provider env') : action = action' := by
  have hrefund : ∀ {S : Type} [GuardStore S] {p : RecoveryPipeline τ} {view : List (String × PyVal)}
      {w : World S (Env τ)} {env : Env τ} {action : Action},
      (p.caseLoop case provider).Presents view w env action → action.name = "refund" →
      ∃ payment, paymentOf case provider env = .ok payment ∧
        action = refundAction case payment.amountInr := by
    intro S _ p view w env action h hname
    rcases presents_cases h with ⟨amount, rfl⟩ | hrefund | rfl
    · exact absurd (show "send_payment_link" = "refund" from hname) (by decide)
    · exact hrefund
    · exact absurd (show "escalate_to_human" = "refund" from hname) (by decide)
  obtain ⟨payment, hok, rfl⟩ := hrefund h hname
  obtain ⟨payment', hok', rfl⟩ := hrefund h' hname'
  rw [hok, hok'] at hasked
  injection hasked with hasked
  rw [hasked]

/-- **The model is confined.** For every case, provider, store and LLM: what the loop of
`build_agent` presents to the executor, and so what the journal gains, is a link, a refund or an
escalation of the case; another model's refund under the same answer of the provider is the same
action; and a response with an unknown tool or with arguments out of order presents nothing. -/
theorem model_confined (p p' : RecoveryPipeline τ) (case : RecoveryCase)
    (provider : PaymentProvider τ) (subjectId : String) (view view' : List (String × PyVal))
    (w : World S (Env τ)) (w' : World T (Env τ)) :
    ∃ loop loop', p.buildAgent case provider = .ok loop ∧ p'.buildAgent case provider = .ok loop' ∧
      presented ((loop.run subjectId view).run w).2 =
        presented w ++ presentations (loop.calls view w) ∧
      (∀ action ∈ presentations (loop.calls view w), ∃ env, loop.Presents view w env action) ∧
      (∀ env action, loop.Presents view w env action →
        Confined case provider env action ∧
        (some action.subjectId = case.customerId ∨ action.subjectId = case.paymentId)) ∧
      (∀ env action env' action', loop.Presents view w env action →
        loop'.Presents view' w' env' action' → action.name = "refund" → action'.name = "refund" →
        paymentOf case provider env = paymentOf case provider env' → action = action') ∧
      ∀ thought name raw, (∀ spec, loop.registry.get? name = some spec → ¬ Conforms spec raw) →
        ∀ progress index response (v : World S (Env τ)),
          presented ((loop.turn (some (.call thought name raw)) progress index response).run v).2 =
            presented v := by
  refine ⟨p.caseLoop case provider, p'.caseLoop case provider, p.buildAgent_eq case provider,
    p'.buildAgent_eq case provider, run_presented _ _ _ _, fun action => presents_of_mem, ?_, ?_, ?_⟩
  · intro env action h
    obtain ⟨hconfined, hsubject⟩ := presents_confined h
    exact ⟨hconfined, hsubject ▸ case.subject_eq⟩
  · intro env action env' action' h h' hname hname' hasked
    exact refund_determined h h' hname hname' hasked
  · intro thought name raw h progress index response v
    exact turn_presents_nothing h progress index response v

end PaymentRecovery.Recovery
