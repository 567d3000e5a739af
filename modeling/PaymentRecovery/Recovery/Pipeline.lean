import PaymentRecovery.Recovery.Router
import PaymentRecovery.Recovery.Tools

/-!
# The live recovery pipeline

From a persisted event to its ledger row: enrichment by the provider, routing,
the rule's action or the agent loop, both through one guarded executor, and the
ledger. The guard store is durable and shared by all events; each store method
and each database write is one transaction.
-/

namespace PaymentRecovery.Recovery

open PaymentRecovery.Python PaymentRecovery.Guardrails PaymentRecovery.Providers
open PaymentRecovery.Agent PaymentRecovery.Lib Program

/-- The settings the pipeline reads. -/
structure Settings where
  approvalThresholdInr : ℚ
  perSubjectActionBudget : Int
  perRunSpendCapInr : ℚ
  agentMaxIterations : Int
  agentTimeoutSeconds : ℚ
  modelledInputUsdPer1k : ℚ
  modelledOutputUsdPer1k : ℚ

/-- The versioned prompt of the agent. -/
structure Prompt where
  id : String
  text : JsonText

/-- The pipeline over the outer state `τ`: its providers, its LLM client and the clocks. -/
structure RecoveryPipeline (τ : Type) where
  registry : Dict String (PaymentProvider τ)
  settings : Settings
  llm : LLMClient τ
  prompt : Prompt
  monotonic : τ → ℚ × τ
  now : τ → Time × τ
  isoNow : τ → String × τ

variable {S τ : Type}

/-- Programs of the pipeline. -/
abbrev Pipe (S τ α : Type) := Program (World S (Env τ)) PyExc α

/-- One read of the database. -/
def readDb {α : Type} (f : Database → α) : Pipe S τ α :=
  read fun w => f w.env.db

/-- One write of the database. -/
def writeDb {α : Type} (f : Database → Except PyExc α × Database) : Pipe S τ α :=
  attempt fun w =>
    ((f w.env.db).1, { w with env := { w.env with db := (f w.env.db).2 } })

/-! ## The agent for one case -/

/-- The single source of guardrail limits, for every path that acts. -/
def guardPolicy (settings : Settings) : GuardPolicy :=
  ⟨settings.approvalThresholdInr, settings.perSubjectActionBudget, settings.perRunSpendCapInr⟩

namespace RecoveryPipeline

variable (p : RecoveryPipeline τ)

/-- Build the guarded executor and the tool registry for one case. -/
def buildExecutor (case : RecoveryCase) (provider : PaymentProvider τ) :
    Except PyExc (GuardedExecutor (Env τ) × ToolRegistry (Env τ)) := do
  let executor := GuardedExecutor.new case.paymentId (guardPolicy p.settings)
    fun env => env.tick p.now
  let (registry, handlers) ← buildTools case provider
  return (handlers.foldl (fun ex (name, handler) => ex.register name handler) executor, registry)

/-- Build the agent loop for one case. -/
def buildAgent (case : RecoveryCase) (provider : PaymentProvider τ) :
    Except PyExc (AgentLoop (Env τ)) := do
  let (executor, registry) ← p.buildExecutor case provider
  return {
    llm := fun messages env => env.ask .llm (p.llm messages)
    registry := registry
    executor := executor
    systemPrompt := p.prompt.text
    systemPromptId := p.prompt.id
    maxIterations := p.settings.agentMaxIterations
    timeoutSeconds := p.settings.agentTimeoutSeconds
    clock := fun env => env.tick p.monotonic
    now := fun env => env.tick p.isoNow }

/-- What the agent is told about the case. -/
def caseView (case : RecoveryCase) : List (String × PyVal) :=
  [("payment_id", .str case.paymentId), ("amount_inr", .float case.amountInr),
    ("failure_reason", .str case.failureReason), ("method", .ofOption .str case.method),
    ("customer_id", .ofOption .str case.customerId)]

variable [GuardStore S]

/-- Run the agent for one case and return its trajectory. -/
def runRecovery (case : RecoveryCase) (provider : PaymentProvider τ) : Pipe S τ Trajectory := do
  let loop ← orRaise (p.buildAgent case provider)
  loop.run case.subject (caseView case)

/-! ## The two paths -/

/-- `_RULE_ACTION_TO_TOOL`. -/
def ruleActionToTool (action : String) : Option String :=
  if action = "send_payment_link" then some "create_payment_link"
  else if action = "refund" then some "refund_payment"
  else if action = "escalate_to_human" then some "escalate_to_human"
  else none

/-- `_outcome_for`: an executor status in the ledger's vocabulary. -/
def outcomeFor (status : ExecutionStatus) (action : String) : String :=
  match status with
  | .pendingApproval => "pending_approval"
  | .duplicate => "duplicate"
  | .rejectedActionBudget | .rejectedSpendCap | .rejectedBreakerOpen => "rejected"
  | .executed => if action = "escalate_to_human" then "escalated" else "resolved"

/-- `spec.build_action(validate_args(spec, args))`: a `ToolArgError` is handed to the caller,
anything else raises. -/
def buildRuleAction (case : RecoveryCase) (spec : ToolSpec (Env τ))
    (buildAction : Args → Env τ → Except PyExc Action × Env τ) :
    Pipe S τ (Except PyExc Action) := do
  -- a link is for the authoritative payment amount
  let args : PyVal := if spec.params.any fun (name, _) => name = "amount_inr" then
      .record [("amount_inr", .float case.amountInr)]
    else .record []
  match validateArgs spec args with
  | .error exc => return .error exc
  | .ok args => do
    let built ← onEnv (buildAction args)
    match built with
    | .error exc => if exc.cls = .toolArgError then return .error exc else throw exc
    | .ok action => return .ok action

/-- The row of a rule, before anything was executed. -/
def ruleFields (decision : RoutingDecision) : LedgerFields where
  path := .deterministic
  outcome := "no_effect"
  action := decision.action
  ruleKey := decision.ruleKey
  ruleVersion := decision.ruleVersion

/-- The rule's action, built by its tool and presented to the executor. -/
def executeRule (executor : GuardedExecutor (Env τ)) (case : RecoveryCase)
    (spec : ToolSpec (Env τ)) (buildAction : Args → Env τ → Except PyExc Action × Env τ)
    (decision : RoutingDecision) : Pipe S τ LedgerFields := do
  let built ← buildRuleAction case spec buildAction
  match built with
  | .error exc =>
    return { ruleFields decision with
      outcome := "failed"
      error := some ("rule arguments invalid: " ++ exc.message) }
  | .ok action => do
    let result ← executor.execute action
    return { ruleFields decision with
      executionStatus := some result.status.value
      outcome := outcomeFor result.status action.name
      approvalId := result.approvalId }

/-- Carry out an ACTIVE rule's action through the guarded executor. No LLM. -/
def runRule (case : RecoveryCase) (provider : PaymentProvider τ) (decision : RoutingDecision) :
    Pipe S τ LedgerFields :=
  match ruleActionToTool (decision.action.getD "") with
  -- `wait_and_retry` and `no_action`: nothing to execute now
  | none => return ruleFields decision
  | some toolName => do
    let (executor, registry) ← orRaise (p.buildExecutor case provider)
    match registry.get? toolName with
    -- the source asserts an effect tool
    | none => throw ⟨.assertionError, ""⟩
    | some spec =>
      match spec.body with
      | .read _ => throw ⟨.assertionError, ""⟩
      | .effect buildAction => executeRule executor case spec buildAction decision

/-- `TrajectoryStore.save`. -/
def saveTrajectory (trajectory : Trajectory) : Pipe S τ Nat :=
  writeDb fun db =>
    match jsonDumps trajectory.toDict with
    | .error exc => (.error exc, db)
    | .ok trajectoryJson =>
      let id := db.trajectories.length + 1
      (.ok id, { db with trajectories := (db.trajectories ++ [⟨id, trajectory.runId,
        trajectory.subjectId, trajectory.outcome.value, trajectory.resolutionAction,
        trajectory.systemPromptId, trajectory.iterations, trajectory.totalTokens,
        trajectory.totalLatencyMs, trajectoryJson⟩]) })

/-- The status of the last effect step, as the row spells it. -/
def lastEffectStatus (steps : List TrajectoryStep) : Option String :=
  steps.reverse.findSome? fun step => afterPrefix "effect_" step.decision

/-- `max(pending, key=lambda r: r.created_at)`: the first of the newest. -/
def newest : List ApprovalRecord → Option ApprovalRecord
  | [] => none
  | first :: rest => some (rest.foldl
      (fun best rec => if best.createdAt < rec.createdAt then rec else best) first)

/-- The row of an agent run. -/
def agentFields (trajectory : Trajectory) (trajectoryId : Nat) (approvalId : Option ApprovalId) :
    LedgerFields where
  path := .llm
  action := trajectory.resolutionAction
  executionStatus := lastEffectStatus trajectory.steps
  outcome := trajectory.outcome.value
  approvalId := approvalId
  trajectoryId := some trajectoryId
  toolCalls := trajectory.iterations
  promptTokens := trajectory.totalPromptTokens
  completionTokens := trajectory.totalCompletionTokens
  modelledCostUsd :=
    trajectory.totalPromptTokens / 1000 * p.settings.modelledInputUsdPer1k +
    trajectory.totalCompletionTokens / 1000 * p.settings.modelledOutputUsdPer1k

/-- Run the agent loop; its effects go through the executor. -/
def runAgent (case : RecoveryCase) (provider : PaymentProvider τ) : Pipe S τ LedgerFields := do
  let trajectory ← p.runRecovery case provider
  let trajectoryId ← saveTrajectory trajectory
  if trajectory.outcome = .pendingApproval then
    -- the records of the payment's run, also those of earlier events
    let pending ← read fun w => GuardStore.listPending w.store case.paymentId
    return p.agentFields trajectory trajectoryId ((newest pending).map (·.approvalId))
  else
    return p.agentFields trajectory trajectoryId none

/-! ## One event -/

/-- The customer's history, if there is a customer and the provider knows one. -/
def fetchHistory (provider : PaymentProvider τ) (payment : Payment) :
    Pipe S τ (Option CustomerHistory) :=
  match payment.customerId with
  | none => return none
  | some customerId =>
    if customerId = "" then return none
    else do
      let answer ← onEnv fun env =>
        env.ask (.provider provider.name) (provider.getCustomerHistory customerId)
      match answer with
      | .ok history => return some history
      -- an unknown customer has no history
      | .error exc => if exc.cls = .resourceNotFound then return none else throw exc

/-- Hours since the payment was created. -/
def hoursSince (payment : Payment) : Pipe S τ (Option ℚ) :=
  match payment.createdAt with
  | none => return none
  | some createdAt => do
    let now ← onEnv fun env => env.tick p.now
    return some (max 0 (((now - createdAt : Int) : ℚ) / 1000000 / 3600))

/-- The case the tools and the agent work on. -/
def caseOf (event : NormalisedEvent) (payment : Payment) : RecoveryCase :=
  ⟨payment.id, payment.amountInr, (event.failureReason.getD .unknown).value,
    some payment.method.value, payment.customerId, payment.orderId⟩

/-- The first half of `_route_and_act`: enrichment from the authoritative provider record
and routing. -/
def prepare (event : NormalisedEvent) :
    Pipe S τ (RecoveryCase × PaymentProvider τ × RoutingDecision) :=
  match p.registry.get? event.provider with
  | none =>
    throw ⟨.providerError, "no adapter registered for provider " ++ strRepr event.provider⟩
  | some provider => do
    let payment ← attemptEnv fun env =>
      env.ask (.provider provider.name) (provider.getPayment event.paymentId)
    let history ← fetchHistory provider payment
    let hours ← p.hoursSince payment
    let context := buildContext event (some payment.method) history hours none
    let routed ← readDb fun db => route db.rules context
    let decision ← orRaise routed
    return (caseOf event payment, provider, decision)

/-- The second half: the rule's action, or the agent. -/
def act (case : RecoveryCase) (provider : PaymentProvider τ) (decision : RoutingDecision) :
    Pipe S τ LedgerFields :=
  match decision.route with
  | .deterministic => runRule p case provider decision
  | .escalateToAgent => runAgent p case provider

/-- `_route_and_act`. -/
def routeAndAct (event : NormalisedEvent) : Pipe S τ LedgerFields := do
  let (case, provider, decision) ← p.prepare event
  p.act case provider decision

/-- `_mark_event`. -/
def markEvent (internalEventId : Nat) (fields : LedgerFields) : Pipe S τ Unit :=
  let route := match fields.path with
    | .deterministic => some Route.deterministic.value
    | .llm => some Route.escalateToAgent.value
    | .duplicateDelivery | .failed => none
  writeDb fun db => (.ok (), { db with events := (Table.updateBy InternalEvent.id internalEventId
    (fun row => { row with
      route := route, matchedRuleKey := fields.ruleKey, matchedRuleVersion := fields.ruleVersion,
      resolvedAction := fields.action }) db.events) })

/-- `ledger.record`. -/
def record (base : LedgerBase) (fields : LedgerFields) : Pipe S τ Nat :=
  writeDb fun db =>
    ((db.ledger.record base fields).1, { db with ledger := (db.ledger.record base fields).2 })

/-- What the row repeats from the event. -/
def baseOf (internalEventId : Nat) (event : NormalisedEvent) : LedgerBase :=
  ⟨internalEventId, event.provider, event.eventId, event.paymentId, event.amountInr,
    event.failureReason.map FailureReason.value⟩

/-- What an exception out of `_route_and_act` is recorded as. -/
def failedFields (exc : PyExc) : LedgerFields :=
  { path := .failed, outcome := "failed", error := some (takeChars 2000 exc.repr) }

/-- A new failed-payment event: act, record, mark. -/
def handle (internalEventId : Nat) (event : NormalisedEvent) : Pipe S τ Nat := do
  let started ← onEnv fun env => env.tick p.monotonic
  let fields ← tryCatch (p.routeAndAct event) fun exc => pure (failedFields exc)
  let ended ← onEnv fun env => env.tick p.monotonic
  let fields := { fields with latencyMs := (ended - started) * 1000 }
  -- two transactions: a process may die with the row written and the event unmarked
  let ledgerId ← record (baseOf internalEventId event) fields
  markEvent internalEventId fields
  return ledgerId

/-- A redelivery of an event that was already acted on. -/
def recordDuplicate (internalEventId : Nat) (event : NormalisedEvent) (earlier : LedgerEntry) :
    Pipe S τ Nat :=
  record (baseOf internalEventId event)
    { path := .duplicateDelivery, outcome := "duplicate"
      error := some ("duplicate of ledger row " ++ toString earlier.id ++ "; not re-processed") }

/-- Process one normalised event; return its ledger row id, or none for an event that is no
payment failure. -/
def process (internalEventId : Nat) : Pipe S τ (Option Nat) := do
  let existing ← readDb fun db => db.ledger.forEvent internalEventId
  match existing with
  | some existing => return some existing.id
  | none => do
    let row ← readDb fun db => db.event internalEventId
    match row with
    | none => return none
    | some row => do
      -- outside the handler of `_route_and_act`: an unknown enum value leaves `process`
      let event ← orRaise row.normalised
      if event.eventType ≠ .paymentFailed then
        return none
      else
        -- failed attempts do not count as processed
        let earlier ← readDb fun db => db.ledger.processedDelivery event.provider event.eventId
        match earlier with
        | some earlier => some <$> recordDuplicate internalEventId event earlier
        | none => some <$> p.handle internalEventId event

/-- The failed-payment events without a ledger row, in order, at most `limit` of them. -/
def pendingIds (db : Database) (limit : Nat) : List Nat :=
  ((db.events.filter fun row =>
    (db.ledger.forEvent row.id).isNone ∧ row.eventType = EventType.paymentFailed.value).map
      (·.id)).take limit

/-- Process each id in turn. -/
def processAll : List Nat → Pipe S τ Unit
  | [] => return ()
  | id :: rest => do
    let _ ← p.process id
    processAll rest

/-- Process failed-payment events that have no ledger row yet. -/
def processPending (limit : Nat) : Pipe S τ Nat := do
  let ids ← readDb fun db => pendingIds db limit
  p.processAll ids
  return ids.length

end RecoveryPipeline

end PaymentRecovery.Recovery
