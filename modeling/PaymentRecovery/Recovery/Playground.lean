import PaymentRecovery.Providers.Fake
import PaymentRecovery.Providers.Webhooks
import PaymentRecovery.Recovery.RateLimiter
import PaymentRecovery.Recovery.Trajectories

/-!
# The playground

A visitor describes a failed payment. It becomes a payment of the demo provider and an event,
the event goes through the live pipeline, and the answer is put together from what the pipeline
left: the ledger row, the stored trajectory, and the audit entries of this run.
-/

namespace PaymentRecovery.Recovery

open PaymentRecovery.Python PaymentRecovery.Guardrails PaymentRecovery.Providers
open PaymentRecovery.Agent PaymentRecovery.Lib PaymentRecovery.Lib.Table Program

variable {S σ τ : Type}

/-- `DEMO_PROVIDER`. -/
def demoProvider : String := "demo"

/-- `^<start>[A-Za-z0-9]{1,32}$`. -/
def isDemoId (start id : String) : Bool :=
  match afterPrefix start id with
  | none => false
  | some rest => 1 ≤ rest.toList.length && rest.toList.length ≤ 32 &&
      rest.toList.all Char.isAlphanum

/-- A synthetic failed payment. Describes the payment, never the decision. -/
structure ScenarioIn where
  paymentId : String
  amountInr : ℚ
  failureReason : FailureReason
  customerId : Option String
  payment_demo : isDemoId "pay_demo_" paymentId = true
  amount_bounded : 0 < amountInr ∧ amountInr ≤ 1000000
  customer_demo : ∀ id, customerId = some id → isDemoId "cust_demo_" id = true

/-- No customer is none of another namespace. -/
theorem noCustomer_demo (id : String) (h : none = some id) : isDemoId "cust_demo_" id = true :=
  nomatch h

/-- The customer of a scenario: none, or one of the demo namespace. -/
def ScenarioIn.customerOf (value : PyVal) :
    Option { customer : Option String //
      ∀ id, customer = some id → isDemoId "cust_demo_" id = true } :=
  match value with
  | .none => some ⟨none, noCustomer_demo⟩
  | .str id =>
    if h : isDemoId "cust_demo_" id = true then
      some ⟨some id, fun _ he => Option.some.inj he ▸ h⟩
    else none
  | _ => none

/-- The request body, validated; `floatOf` is how a value is read as a float. Unknown fields are
rejected. -/
def ScenarioIn.ofBody (floatOf : PyVal → Option ℚ) (body : Dict String PyVal) : Option ScenarioIn :=
  if body.entries.all fun (name, _) =>
      name ∈ ["payment_id", "amount_inr", "failure_reason", "customer_id"] then
    match body.get? "payment_id", (body.get? "amount_inr").bind floatOf,
        body.get? "failure_reason", customerOf ((body.get? "customer_id").getD .none) with
    | some (.str paymentId), some amountInr, some (.str reason), some ⟨customerId, hcustomer⟩ =>
      match FailureReason.ofValue reason with
      | .error _ => none
      | .ok failureReason =>
        if h : isDemoId "pay_demo_" paymentId = true ∧ 0 < amountInr ∧ amountInr ≤ 1000000 then
          some ⟨paymentId, amountInr, failureReason, customerId, h.1, h.2, hcustomer⟩
        else none
    | _, _, _, _ => none
  else none

/-- What `HTTPException(status, detail)` is. -/
def httpException (status : Nat) (detail : String) : PyExc :=
  ⟨.other "HTTPException", toString status ++ ": " ++ detail⟩

/-! ## One run -/

/-- The payment that is seeded. -/
def demoPayment (scenario : ScenarioIn) (now : Time) : Payment :=
  ⟨scenario.paymentId, scenario.amountInr, .failed, .card, none, scenario.customerId,
    some scenario.failureReason, some now⟩

/-- The event that is persisted. -/
def demoEvent (scenario : ScenarioIn) (token : String) (now : Time) : NormalisedEvent :=
  ⟨demoProvider, "demo_evt_" ++ token, .paymentFailed, scenario.paymentId, scenario.amountInr,
    some scenario.failureReason, some now⟩

section Run

variable (p : RecoveryPipeline (FakeProvider × σ))

/-- `_seed_demo_payment`. -/
def seedDemoPayment (scenario : ScenarioIn) : Pipe S (FakeProvider × σ) Unit := do
  let now ← onEnv fun env => env.tick p.now
  onEnv fun env => env.tick (onFirst fun fake => ((), fake.addPayment (demoPayment scenario now)))

/-- `_persist_demo_event`: the id of the event; `token` is what `secrets.token_hex(8)` answers. -/
def persistDemoEvent (scenario : ScenarioIn) (token : String) : Pipe S (FakeProvider × σ) Nat := do
  let now ← onEnv fun env => env.tick p.now
  writeDb fun db =>
    (.ok (db.persistInternal (demoEvent scenario token now)).1,
      (db.persistInternal (demoEvent scenario token now)).2)

end Run

/-! ## What is answered -/

structure StepView where
  index : PyVal
  tool : PyVal
  decision : PyVal
  thought : PyVal

structure TrajectoryView where
  id : Nat
  outcome : String
  resolutionAction : PyVal
  promptId : PyVal
  steps : List StepView

structure AuditView where
  action : String
  decision : String
  detail : String

/-- The answer of a run. -/
structure PlayResult where
  provider : String
  ledgerId : Nat
  internalEventId : Nat
  eventId : String
  paymentId : String
  amountInr : ℚ
  failureReason : Option String
  path : LedgerPath
  rule : Option (String × Option Int)
  action : Option String
  llmCalls : Nat
  llmModel : Option String
  promptTokens : Int
  completionTokens : Int
  modelledCostUsd : ℚ
  executionStatus : Option String
  approvalId : Option ApprovalId
  audit : List AuditView
  outcome : String
  error : Option String
  trajectory : Option TrajectoryView
  latencyMs : ℚ

/-- `(thought or "")[:240]`. -/
def shortThought (thought : PyVal) : Except PyExc PyVal :=
  if truthy thought then
    match thought with
    | .str s => .ok (.str (takeChars 240 s))
    | .list items => .ok (.list (items.take 240))
    | .tuple items => .ok (.tuple (items.take 240))
    | other => .error ⟨.typeError, "'" ++ other.typeName ++ "' object is not subscriptable"⟩
  else .ok (.str "")

def stepView (step : LoadedStep) : Except PyExc StepView := do
  return ⟨step.index, step.tool, step.decision, ← shortThought step.thought⟩

/-- `_trajectory_view`. -/
def trajectoryView (trajectoryId : Option Nat) : Pipe S τ (Option TrajectoryView) :=
  match trajectoryId with
  | none => return none
  | some id => do
    let trajectory ← loadTrajectory id
    match trajectory with
    | none => return none
    | some t => do
      let steps ← orRaise (t.steps.mapM stepView)
      return some ⟨id, t.outcome.value, t.resolutionAction, t.systemPromptId, steps⟩

def auditView (entry : AuditEntry) : AuditView :=
  ⟨entry.actionName, entry.decision, entry.detail⟩

/-- `round(x, 2)`. -/
def round2 (x : ℚ) : ℚ := roundHalfEven (x * 100) / 100

/-- The answer, from the row and the trajectory. -/
def resultOf (row : LedgerEntry) (trajectory : Option TrajectoryView) (audit : List AuditEntry)
    (llmModel : String) : PlayResult where
  provider := row.provider
  ledgerId := row.id
  internalEventId := row.internalEventId
  eventId := row.eventId
  paymentId := row.paymentId
  amountInr := row.amountInr
  failureReason := row.failureReason
  path := row.path
  rule := match row.ruleKey with
    | none => none
    | some key => if key = "" then none else some (key, row.ruleVersion)
  action := row.action
  llmCalls := match trajectory with
    | none => 0
    | some view => view.steps.length
  llmModel := if row.path = .llm then some llmModel else none
  promptTokens := row.promptTokens
  completionTokens := row.completionTokens
  modelledCostUsd := row.modelledCostUsd
  executionStatus := row.executionStatus
  approvalId := row.approvalId
  audit := audit.map auditView
  outcome := row.outcome
  error := row.error
  trajectory := trajectory
  latencyMs := round2 row.latencyMs

/-- `LedgerRepository.get`. -/
def Ledger.get (ledger : Ledger) (ledgerId : Nat) : Option LedgerEntry :=
  selectBy LedgerEntry.id ledgerId ledger.rows

/-- `build_result`: assembled purely from what the pipeline persisted. -/
def buildResult (ledgerId : Nat) (audit : List AuditEntry) (llmModel : String) :
    Pipe S τ PlayResult := do
  let row ← readDb fun db => db.ledger.get ledgerId
  match row with
  | none => throw ⟨.assertionError, ""⟩
  | some row => do
    let trajectory ← trajectoryView row.trajectoryId
    return resultOf row trajectory audit llmModel

section Requests

variable [GuardStore S]

/-- `len(guard_store.read_audit(payment_id))`. -/
def countAudit (paymentId : String) : Pipe S τ Nat :=
  read fun w => (GuardStore.readAudit w.store paymentId).length

/-- `pipeline.process`, which has to name a row. -/
def processDemoEvent (p : RecoveryPipeline τ) (internalId : Nat) : Pipe S τ Nat := do
  let ledgerId ← p.process internalId
  match ledgerId with
  | none => throw (httpException 500 "event was not processed")
  | some ledgerId => return ledgerId

/-- The audit entries since the first count, and the answer. -/
def readResult (paymentId : String) (auditBefore ledgerId : Nat) (llmModel : String) :
    Pipe S τ PlayResult := do
  let audit ← read fun w => (GuardStore.readAudit w.store paymentId).drop auditBefore
  buildResult ledgerId audit llmModel

/-- `run_scenario`, with what the clock of the limiter reads. -/
def runScenario (pipeline : Option (RecoveryPipeline (FakeProvider × σ))) (llmModel : String)
    (limiter : RateLimiter) (now : ℚ) (scenario : ScenarioIn) (token : String) :
    RateLimiter × Pipe S (FakeProvider × σ) PlayResult :=
  match pipeline with
  | none => (limiter, throw (httpException 503 "pipeline not started"))
  | some p =>
    match limiter.allow now with
    | (false, limiter) =>
      (limiter, throw (httpException 429 "playground rate limit; retry shortly"))
    | (true, limiter) => (limiter, do
        seedDemoPayment p scenario
        let internalId ← persistDemoEvent p scenario token
        let auditBefore ← countAudit scenario.paymentId
        let ledgerId ← processDemoEvent p internalId
        readResult scenario.paymentId auditBefore ledgerId llmModel)

/-- How far a run has come. Between any two of these, other threads may do what they like. -/
inductive PlayPhase where
  | admitted
  | seeded
  | persisted (internalId : Nat)
  | counted (internalId auditBefore : Nat)
  | processed (auditBefore ledgerId : Nat)
  deriving DecidableEq

/-- A run behind the limit. -/
structure PlayRun where
  scenario : ScenarioIn
  token : String
  phase : PlayPhase

namespace PlayRun

/-- The event whose row the run still has to see to. -/
def owes (run : PlayRun) : Option Nat :=
  match run.phase with
  | .persisted internalId | .counted internalId _ => some internalId
  | .admitted | .seeded | .processed _ _ => none

/-- The next part of a run: it goes on, or it has its answer. -/
def next (p : RecoveryPipeline (FakeProvider × σ)) (llmModel : String) (run : PlayRun) :
    Pipe S (FakeProvider × σ) (PlayRun ⊕ PlayResult) :=
  match run.phase with
  | .admitted => do
    seedDemoPayment p run.scenario
    return .inl { run with phase := .seeded }
  | .seeded => do
    let internalId ← persistDemoEvent p run.scenario run.token
    return .inl { run with phase := .persisted internalId }
  | .persisted internalId => do
    let auditBefore ← countAudit run.scenario.paymentId
    return .inl { run with phase := .counted internalId auditBefore }
  | .counted internalId auditBefore => do
    let ledgerId ← processDemoEvent p internalId
    return .inl { run with phase := .processed auditBefore ledgerId }
  | .processed auditBefore ledgerId => do
    let result ← readResult run.scenario.paymentId auditBefore ledgerId llmModel
    return .inr result

/-- The parts one after another, with nothing in between. -/
def goOn (p : RecoveryPipeline (FakeProvider × σ)) (llmModel : String) :
    Nat → PlayRun ⊕ PlayResult → Pipe S (FakeProvider × σ) (PlayRun ⊕ PlayResult)
  | 0, state => return state
  | n + 1, .inl run => do
    let state ← run.next p llmModel
    goOn p llmModel n state
  | _ + 1, .inr result => return .inr result

end PlayRun

/-- A run that nothing interrupts does what `run_scenario` does. -/
theorem runScenario_parts (p : RecoveryPipeline (FakeProvider × σ)) (llmModel : String)
    {limiter limiter' : RateLimiter} {now : ℚ} (hallow : limiter.allow now = (true, limiter'))
    (scenario : ScenarioIn) (token : String) :
    Sum.inr <$> (runScenario (S := S) (some p) llmModel limiter now scenario token).2 =
      PlayRun.goOn p llmModel 5 (.inl ⟨scenario, token, .admitted⟩) := by
  unfold runScenario
  rw [hallow]
  simp only [PlayRun.goOn, PlayRun.next, Program.map_bind, Program.bind_assoc, Program.pure_bind]
  rfl

end Requests

/-! ## Reading back changes nothing -/

section Reads

variable {C I : World S (Env τ) → Prop}

theorem trajectoryView_carries (hcut : ∀ w, I w → C w) (trajectoryId : Option Nat) :
    Carries C I (trajectoryView trajectoryId : Pipe S τ (Option TrajectoryView)) := by
  unfold trajectoryView loadTrajectory
  split
  · exact .pure _
  · refine Carries.bind (Carries.bind (Carries.read _ hcut) fun row => ?_) fun trajectory => ?_
    · split
      · exact .pure _
      · exact Carries.bind (.orRaise _) fun data => Carries.map (.orRaise _)
    · split
      · exact .pure _
      · exact Carries.bind (.orRaise _) fun steps => .pure _

theorem buildResult_carries (hcut : ∀ w, I w → C w) (ledgerId : Nat) (audit : List AuditEntry)
    (llmModel : String) :
    Carries C I (buildResult ledgerId audit llmModel : Pipe S τ PlayResult) := by
  refine Carries.bind (Carries.read _ hcut) fun row => ?_
  split
  · exact .throw _
  · exact Carries.bind (trajectoryView_carries hcut _) fun view => .pure _

variable [GuardStore S]

theorem processDemoEvent_carries {p : RecoveryPipeline τ} {internalId : Nat}
    (hprocess : Carries C I (p.process internalId)) :
    Carries C I (processDemoEvent p internalId) := by
  refine Carries.bind hprocess fun ledgerId => ?_
  split
  · exact .throw _
  · exact .pure _

/-- What seeding, persisting and processing keep, every part of a run keeps. -/
theorem PlayRun.next_carries {p : RecoveryPipeline (FakeProvider × σ)}
    {C I : World S (Env (FakeProvider × σ)) → Prop} {run : PlayRun} (hcut : ∀ w, I w → C w)
    (hseed : Carries C I (seedDemoPayment p run.scenario))
    (hpersist : Carries C I (persistDemoEvent p run.scenario run.token))
    (hprocess : ∀ internalId, Carries C I (p.process internalId)) (llmModel : String) :
    Carries C I (run.next p llmModel) := by
  unfold PlayRun.next
  split
  · exact Carries.bind hseed fun _ => .pure _
  · exact Carries.bind hpersist fun _ => .pure _
  · exact Carries.bind (Carries.read _ hcut) fun _ => .pure _
  · exact Carries.bind (processDemoEvent_carries (hprocess _)) fun _ => .pure _
  · refine Carries.bind (Carries.bind (Carries.read _ hcut) fun audit => ?_) fun _ => .pure _
    exact buildResult_carries hcut _ _ _

/-- Processing leaves what the pipeline leaves. -/
theorem processDemoEvent_world (p : RecoveryPipeline τ) (internalId : Nat)
    (w : World S (Env τ)) :
    ((processDemoEvent p internalId).run w).2 = ((p.process internalId).run w).2 := by
  unfold processDemoEvent
  rw [run_bind]
  cases (p.process internalId).run w with
  | mk answer v =>
    cases answer with
    | error exc => rfl
    | ok ledgerId => cases ledgerId <;> rfl

/-- The answer only reads. -/
theorem readResult_world (paymentId : String) (auditBefore ledgerId : Nat) (llmModel : String)
    (w : World S (Env τ)) :
    ((readResult paymentId auditBefore ledgerId llmModel : Pipe S τ PlayResult).run w).2 = w := by
  have hreads : Carries (fun u => u = w) (fun u => u = w)
      (readResult paymentId auditBefore ledgerId llmModel : Pipe S τ PlayResult) :=
    Carries.bind (Carries.read _ fun _ h => h) fun audit =>
      buildResult_carries (fun _ h => h) ledgerId audit llmModel
  exact hreads.run rfl

end Reads

/-- A scenario as it is posted, and two that are turned away. -/
example :
    (ScenarioIn.ofBody PyVal.number? (dictOf [("payment_id", .str "pay_demo_7"),
      ("amount_inr", .int 499), ("failure_reason", .str "expired_card")])).isSome = true ∧
    (ScenarioIn.ofBody PyVal.number? (dictOf [("payment_id", .str "pay_7"),
      ("amount_inr", .int 499), ("failure_reason", .str "expired_card")])).isSome = false ∧
    (ScenarioIn.ofBody PyVal.number? (dictOf [("payment_id", .str "pay_demo_7"),
      ("amount_inr", .int 499), ("failure_reason", .str "expired_card"),
      ("refund_inr", .int 499)])).isSome = false := by
  decide +kernel

end PaymentRecovery.Recovery
