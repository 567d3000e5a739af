import PaymentRecovery.Recovery.Database
import PaymentRecovery.Rules.Validator
import PaymentRecovery.Rules.Evaluator

/-!
# Routing

The context a rule is evaluated against, the ACTIVE rules as they are loaded,
and the first match.
-/

namespace PaymentRecovery.Recovery

open PaymentRecovery.Python PaymentRecovery.Providers PaymentRecovery.Rules PaymentRecovery.Lib

/-- Return the rule-evaluation context for a normalised event; what is not known is
left out. -/
def buildContext (event : NormalisedEvent) (method : Option PaymentMethod)
    (history : Option CustomerHistory) (hoursSinceLastAttempt : Option ℚ)
    (attemptNumber : Option Int) : List (String × PyVal) :=
  [("failure_reason", .str (event.failureReason.getD .unknown).value),
    ("amount_inr", .float event.amountInr)] ++
  (match method with
    | some method => [("method", .str method.value)]
    | none => []) ++
  (match history with
    | some history => [("customer_successful_payments", .int history.successfulPayments),
        ("customer_failed_payments", .int history.failedPayments)]
    | none => []) ++
  (match hoursSinceLastAttempt with
    | some hours => [("hours_since_last_attempt", .float hours)]
    | none => []) ++
  (match attemptNumber with
    | some attempt => [("attempt_number", .int attempt)]
    | none => [])

/-- The recovery action space. -/
inductive RecoveryAction where
  | sendPaymentLink
  | refund
  | waitAndRetry
  | escalateToHuman
  | noAction
  deriving DecidableEq

def RecoveryAction.value : RecoveryAction → String
  | .sendPaymentLink => "send_payment_link"
  | .refund => "refund"
  | .waitAndRetry => "wait_and_retry"
  | .escalateToHuman => "escalate_to_human"
  | .noAction => "no_action"

/-- A dictionary from its entries, later ones winning. -/
def dictOf {ν : Type} (entries : List (String × ν)) : Dict String ν :=
  entries.foldl (fun d (k, v) => d.set k v) .empty

/-- The schema for payment-recovery rules. -/
def paymentRuleSchema : Schema where
  fields := dictOf [
    ("failure_reason", ⟨.enum, FailureReason.all.map FailureReason.value, by decide⟩),
    ("amount_inr", .plain .number (by decide)),
    ("method", ⟨.enum, PaymentMethod.all.map PaymentMethod.value, by decide⟩),
    ("customer_successful_payments", .plain .number (by decide)),
    ("customer_failed_payments", .plain .number (by decide)),
    ("hours_since_last_attempt", .plain .number (by decide)),
    ("attempt_number", .plain .number (by decide))]
  actions := dictOf [
    (RecoveryAction.sendPaymentLink.value, ⟨RecoveryAction.sendPaymentLink.value, .empty⟩),
    (RecoveryAction.refund.value,
      ⟨RecoveryAction.refund.value, dictOf [("full", .plain .bool (by decide))]⟩),
    (RecoveryAction.waitAndRetry.value,
      ⟨RecoveryAction.waitAndRetry.value, dictOf [("delay_hours", .plain .number (by decide))]⟩),
    (RecoveryAction.escalateToHuman.value, ⟨RecoveryAction.escalateToHuman.value, .empty⟩),
    (RecoveryAction.noAction.value, ⟨RecoveryAction.noAction.value, .empty⟩)]

/-- A rule row parsed back into a typed rule plus its metadata. -/
structure LoadedRule where
  ruleKey : String
  version : Int
  status : String
  priority : Int
  rule : Rule
  definition : PyVal
  provenance : PyVal

/-- One row of `_load`: skipped if it fails validation, while undecodable text raises. -/
def loadRow (schema : Schema) (row : RuleRow) : Except PyExc (Option LoadedRule) := do
  let definition ← jsonLoads row.definitionJson
  match parseRule definition schema with
  -- a rule that no longer fits the schema is skipped
  | .error _ => return none
  | .ok rule =>
    let provenance ← jsonLoads row.provenanceJson
    return some ⟨row.ruleKey, row.version, row.status, row.priority, rule, definition, provenance⟩

/-- `_load`: the rules of one status in ascending priority. -/
def loadRules (schema : Schema) (status : String) (rows : List RuleRow) :
    Except PyExc (List LoadedRule) := do
  let selected := (rows.filter fun row => row.status = status).insertionSort
    fun a b => a.priority ≤ b.priority
  let loaded ← selected.mapM (loadRow schema)
  return (loaded.filterMap id).insertionSort fun a b => a.priority ≤ b.priority

/-- Rules the router evaluates, in ascending priority order. -/
def activeRules (rows : List RuleRow) : Except PyExc (List LoadedRule) :=
  loadRules paymentRuleSchema "active" rows

inductive Route where
  | deterministic
  | escalateToAgent
  deriving DecidableEq

def Route.value : Route → String
  | .deterministic => "deterministic"
  | .escalateToAgent => "escalate_to_agent"

/-- Outcome of routing one event. -/
structure RoutingDecision where
  route : Route
  action : Option String := none
  actionParams : Option (List (String × PyVal)) := none
  ruleKey : Option String := none
  ruleVersion : Option Int := none

/-- The first matching active rule's action, or escalation to the agent. -/
def route (rows : List RuleRow) (context : List (String × PyVal)) :
    Except PyExc RoutingDecision := do
  let rules ← activeRules rows
  match rules.find? fun loaded => evaluate loaded.rule context with
  | some loaded =>
    return ⟨.deterministic, some loaded.rule.action.name, some loaded.rule.action.params,
      some loaded.ruleKey, some loaded.version⟩
  | none => return { route := .escalateToAgent }

end PaymentRecovery.Recovery
