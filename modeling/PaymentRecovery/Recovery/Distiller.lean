import PaymentRecovery.Distill.Cluster
import PaymentRecovery.Distill.Lifecycle
import PaymentRecovery.Recovery.Pipeline
import PaymentRecovery.Recovery.RulesRepo

/-!
# The distiller

Observe, cluster, propose, shadow, promote, demote. A distiller keeps its
statistics in memory, by rule key, and its rules in the rule store, by key and
version. The proposer and the clock are functions on the environment.
-/

namespace PaymentRecovery.Recovery

open PaymentRecovery.Python PaymentRecovery.Lib PaymentRecovery.Rules PaymentRecovery.Distill
open PaymentRecovery.Agent Program

/-- Operational knobs, not the statistical promotion gate. -/
def minClusterSupport : Nat := 15
def minClusterAgreement : ℚ := 80 / 100
def reasonRecoveryHint : ℚ := 60 / 100

/-- One entry of `log.promoted`. -/
structure Promotion where
  ruleKey : String
  support : Nat
  agreement : ℚ
  recovery : ℚ
  atCase : Int

/-- One entry of `log.demoted`. -/
structure Demotion where
  ruleKey : String
  recentRecovery : String
  reason : String
  atCase : Int

/-- Everything the harness reports about a distillation run. -/
structure DistillationLog where
  shadowCreated : List String := []
  promoted : List Promotion := []
  demoted : List Demotion := []
  blockedHighValueRefund : List String := []
  invalidProposals : Nat := 0

/-- What a distiller remembers from one call to the next. -/
structure DistillerState where
  pool : List Observation := []
  createdKeys : List String := []
  shadow : Dict String ShadowStats := .empty
  recent : Dict String (List Bool) := .empty
  casesSeen : Int := 0
  log : DistillationLog := {}

/-- The rule store, the environment and the distiller's memory. -/
structure DistillerWorld (σ : Type) where
  rows : List RuleRow
  env : σ
  state : DistillerState

/-- What a distiller is built with. `floatOfText` and `intOfText` read texts as numbers. -/
structure PaymentDistiller (σ : Type) where
  schema : Schema
  proposer : LLMClient σ
  proposerModel : String
  settings : Settings
  promotion : PromotionPolicy ℚ := {}
  demotion : DemotionPolicy ℚ := {}
  cadence : Int := 25
  prompt : Prompt
  sqrt : ℚ → ℚ
  now : σ → String × σ
  floatOfText : String → Except PyExc ℚ
  intOfText : String → Except PyExc Int

/-- One predicate of a proposal. -/
def predicateDict (field op : String) (value : PyVal) : PyVal :=
  .record [("field", .str field), ("op", .str op), ("value", value)]

def bandPredicates (band : String) : List PyVal :=
  if band = "lt_2000" then [predicateDict "amount_inr" "lt" (.int 2000)]
  else if band = "2000_10000" then
    [predicateDict "amount_inr" "ge" (.int 2000), predicateDict "amount_inr" "lt" (.int 10000)]
  else [predicateDict "amount_inr" "ge" (.int 10000)]

/-- `key_features["failure_reason"]`. -/
def reasonOf (keyFeatures : Situation) : Except PyExc String :=
  match keyFeatures.get? "failure_reason" with
  | some reason => .ok reason
  | none => .error ⟨.keyError, strRepr "failure_reason"⟩

def predicatesForKey (keyFeatures : Situation) : Except PyExc (List PyVal) := do
  let reason ← reasonOf keyFeatures
  return [predicateDict "failure_reason" "eq" (.str reason)] ++
    (match keyFeatures.get? "amount_band" with
      | some band => bandPredicates band
      | none => []) ++
    (if keyFeatures.get? "failure_history" = some "many" then
      [predicateDict "customer_failed_payments" "ge" (.int 3)] else []) ++
    (if keyFeatures.get? "recency" = some "recent" then
      [predicateDict "hours_since_last_attempt" "lt" (.int 1)] else []) ++
    (match keyFeatures.get? "channel" with
      | some channel => [predicateDict "method" "eq" (.str channel)]
      | none => [])

/-- `_rule_key`. -/
def distilledKey (keyFeatures : Situation) : String :=
  "distilled:" ++ ";".intercalate
    ((keyFeatures.insertionSort pairLe).map fun feature => feature.1 ++ "=" ++ feature.2)

/-- `provenance.get("origin") == "distilled"`. -/
def isDistilled (provenance : PyVal) : Except PyExc Bool :=
  match provenance with
  | .dict items =>
    match itemGet? items "origin" with
    | some (.str origin) => .ok (origin = "distilled")
    | _ => .ok false
  | other => .error ⟨.other "AttributeError",
      "'" ++ other.typeName ++ "' object has no attribute 'get'"⟩

/-- The rules whose provenance says so. -/
def keepDistilled : List LoadedRule → Except PyExc (List LoadedRule)
  | [] => return []
  | l :: rest => do
    let distilled ← isDistilled l.provenance
    let kept ← keepDistilled rest
    return if distilled then l :: kept else kept

/-- `window.append(recovered)`, for a deque of at most `maxlen`. -/
def pushWindow (maxlen : Nat) (window : List Bool) (recovered : Bool) : List Bool :=
  (window ++ [recovered]).drop (window.length + 1 - maxlen)

/-- The clusters that are frequent, agree and recover, with their dominant actions. -/
def consistent (clusters : List Cluster) : Except PyExc (List (Situation × String × List String)) :=
  clusters.foldlM (fun out cluster => do
    if minClusterSupport ≤ cluster.support then
      if minClusterAgreement ≤ (← cluster.actionAgreement) then
        if reasonRecoveryHint ≤ cluster.recoveryRate then
          return out ++ [(cluster.key, ← cluster.dominantAction, cluster.sourceIds)]
    return out) []

/-- `_refine`. -/
def refine (pool : List Observation) (reason : String) :
    Except PyExc (List (Situation × String × List String)) :=
  consistent (clusterObservations
    (pool.filter fun o => o.situation.get? "failure_reason" = some reason)
    ["failure_reason", "amount_band"])

/-- `_candidate_situations`. -/
def candidateSituations (pool : List Observation) :
    Except PyExc (List (Situation × String × List String)) :=
  (clusterObservations pool ["failure_reason"]).foldlM (fun candidates cluster => do
    if cluster.support < minClusterSupport then return candidates
    if (← cluster.actionAgreement) < minClusterAgreement then
      return candidates ++ (← refine pool (← reasonOf cluster.key))
    if reasonRecoveryHint ≤ cluster.recoveryRate then
      return candidates ++ [(cluster.key, ← cluster.dominantAction, cluster.sourceIds)]
    -- the reason alone looks inconsistent in outcome: try adding context
    return candidates ++ (← refine pool (← reasonOf cluster.key))) []

namespace DistillerState

/-- Update the in-memory log. -/
def logged (state : DistillerState) (f : DistillationLog → DistillationLog) : DistillerState :=
  { state with log := f state.log }

/-- The pool takes the cases the agent handled with an action. -/
def pooled (state : DistillerState) (features : List (String × String)) (action : Option String)
    (recovered fromAgent : Bool) (sourceId : String) : DistillerState :=
  match fromAgent, action with
  | true, some action => { state with pool := state.pool ++
      [⟨Situation.fromMapping features, action, recovered, sourceId⟩] }
  | _, _ => state

/-- `setdefault(rule_key, ShadowStats()).record(...)`. -/
def tallied (state : DistillerState) (ruleKey : String) (agreed recovered : Bool) :
    DistillerState :=
  let stats := (state.shadow.get? ruleKey).getD {}
  { state with shadow := state.shadow.set ruleKey (stats.record agreed recovered) }

/-- `setdefault(rule_key, deque(maxlen)).append(recovered)`. -/
def pushed (state : DistillerState) (maxlen : Nat) (ruleKey : String) (recovered : Bool) :
    DistillerState :=
  let window := (state.recent.get? ruleKey).getD []
  { state with recent := state.recent.set ruleKey (pushWindow maxlen window recovered) }

end DistillerState

/-- Change the distiller's memory. -/
def remember {σ : Type} (f : DistillerState → DistillerState) :
    Program (DistillerWorld σ) PyExc Unit :=
  write fun w => { w with state := f w.state }

namespace PaymentDistiller

variable {σ : Type} (D : PaymentDistiller σ)

/-- Discretise an observable context into situation features. -/
def situationFeatures (context : List (String × PyVal)) :
    Except PyExc (List (String × String)) := do
  let amount ← floatOf D.floatOfText ((contextGet? context "amount_inr").getD (.float 0))
  let failed ← intOf D.intOfText ((contextGet? context "customer_failed_payments").getD (.int 0))
  let hours ← floatOf D.floatOfText
    ((contextGet? context "hours_since_last_attempt").getD (.float 999))
  let band := if amount < 2000 then "lt_2000" else if amount < 10000 then "2000_10000" else "gte_10000"
  let history := if 3 ≤ failed then "many" else if 1 ≤ failed then "some" else "none"
  return [("failure_reason", ((contextGet? context "failure_reason").getD (.str "unknown")).text),
    ("amount_band", band), ("failure_history", history),
    ("recency", if hours < 1 then "recent" else "normal"),
    ("channel", ((contextGet? context "method").getD (.str "unknown")).text)]

/-- `_distilled_rules`, for the given statuses. -/
def distilledRules : List RuleStatus → List RuleRow → Except PyExc (List LoadedRule)
  | [], _ => return []
  | status :: rest, rows => do
    let kept ← keepDistilled (← listByStatus D.schema status rows)
    return kept ++ (← distilledRules rest rows)

/-- `_default_params`. -/
def defaultParams (action : String) : PyVal :=
  match D.schema.actions.get? action with
  | none => .record []
  | some spec => .record (spec.params.entries.map fun param =>
      (param.1, match param.2.type with
        | .number => .int 24
        | .bool => .bool false
        | .string => .str ""
        | .enum => .int 0))

/-- `_is_high_value_refund`. -/
def isHighValueRefund (rule : Rule) : Bool :=
  rule.action.name = "refund" && !rule.precondition.any fun predicate =>
    predicate.field = "amount_inr" && (predicate.op = .lt || predicate.op = .le) &&
      match predicate.value.number? with
      | some bound => bound ≤ D.settings.approvalThresholdInr
      | none => false

/-- `set_status`, with the clock's reading. -/
def moveTo (l : LoadedRule) (status : RuleStatus) (reason : String) :
    Program (DistillerWorld σ) PyExc Unit :=
  attempt fun w =>
    let (now, env) := D.now w.env
    let (answer, rows) := setStatus l.ruleKey l.version status reason now w.rows
    (answer, { w with rows := rows, env := env })

/-! ## Observation -/

/-- The recent window of an ACTIVE rule. -/
def pushRecent (ruleKey : String) (recovered : Bool) : Program (DistillerWorld σ) PyExc Unit :=
  if D.demotion.minRecent < 0 then throw ⟨.valueError, "maxlen must be non-negative"⟩
  else remember fun s => s.pushed D.demotion.minRecent.toNat ruleKey recovered

/-- One loaded rule meets an observed case. -/
def watch (context : List (String × PyVal)) (action : Option String) (recovered : Bool)
    (l : LoadedRule) : Program (DistillerWorld σ) PyExc Unit :=
  if evaluate l.rule context then do
    remember fun s => s.tallied l.ruleKey (some l.rule.action.name = action) recovered
    if l.status = RuleStatus.active.value then D.pushRecent l.ruleKey recovered else pure ()
  else pure ()

/-- The loop of `observe`. -/
def watchAll (context : List (String × PyVal)) (action : Option String) (recovered : Bool) :
    List LoadedRule → Program (DistillerWorld σ) PyExc Unit
  | [] => pure ()
  | l :: rest => do
    D.watch context action recovered l
    watchAll context action recovered rest

/-- Record a handled case and update the statistics of the rules it matches. -/
def observe (context : List (String × PyVal)) (action : Option String) (recovered fromAgent : Bool)
    (sourceId : String) : Program (DistillerWorld σ) PyExc Unit := do
  let features ← orRaise (D.situationFeatures context)
  remember fun s => s.pooled features action recovered fromAgent sourceId
  let loaded ← attempt fun w => (D.distilledRules [.shadow, .active] w.rows, w)
  D.watchAll context action recovered loaded

/-! ## Distillation -/

/-- The `suggested` rule of `_propose`. -/
def suggestedDefinition (keyFeatures : Situation) (action : String) : Except PyExc PyVal := do
  let predicates ← predicatesForKey keyFeatures
  return .record [
    ("precondition", .record [("all", .list predicates)]),
    ("action", .record [("name", .str action), ("params", D.defaultParams action)])]

/-- The chat messages that ask for a rule. -/
def proposalMessages (keyFeatures : Situation) (action : String) :
    Except PyExc (List LLMMessage) := do
  let suggested ← D.suggestedDefinition keyFeatures action
  let state : PyVal := .record [
    ("task", .str "propose_rule"),
    ("situation", .record (keyFeatures.map fun feature => (feature.1, .str feature.2))),
    ("schema", .record [
      ("fields", .list (D.schema.fields.entries.map fun field => .str field.1)),
      ("actions", .list (D.schema.actions.entries.map fun action => .str action.1))]),
    ("suggested", suggested)]
  return [⟨"system", D.prompt.text⟩, ⟨"user", ← jsonDumps state.sortKeys⟩]

/-- The proposal a response spells, if it is valid. -/
def readProposal (response : LLMResponse) : Except PyExc PyVal := do
  let doc ← response.parsed
  -- trust boundary: rejects wholesale
  let _ ← parseRule doc.toPyVal D.schema
  return doc.toPyVal

/-- `_propose`. -/
def propose (keyFeatures : Situation) (action : String) :
    Program (DistillerWorld σ) PyExc (Option PyVal) := do
  let messages ← orRaise (D.proposalMessages keyFeatures action)
  let response ← attempt fun w =>
    ((D.proposer messages w.env).1, { w with env := (D.proposer messages w.env).2 })
  match D.readProposal response with
  | .ok proposal => return some proposal
  | .error exc =>
    if ExcClass.isValueOrTypeError exc.cls then
      remember fun s => s.logged fun log =>
        { log with invalidProposals := log.invalidProposals + 1 }
      return none
    else throw exc

/-- The provenance of a distilled rule. -/
def distilledProvenance (keyFeatures : Situation) (sourceIds : List String) (now : String) : PyVal :=
  .record [("origin", .str "distilled"),
    ("situation_key", .record (keyFeatures.map fun feature => (feature.1, .str feature.2))),
    ("source_trajectory_ids", .list ((sourceIds.take 20).map .str)),
    ("proposal_model", .str D.proposerModel), ("prompt_version", .str D.prompt.id),
    ("created_at", .str now),
    ("originating_reason", .ofOption .str (keyFeatures.get? "failure_reason")),
    ("promoted_at", .none), ("demoted_at", .none), ("demotion_history", .list []),
    ("performance", .record [])]

/-- `add_rule` for an accepted proposal, with the clock's reading. -/
def store (ruleKey : String) (candidate : Situation × String × List String) (definition : PyVal) :
    Program (DistillerWorld σ) PyExc Int :=
  attempt fun w =>
    let (now, env) := D.now w.env
    let (answer, rows) := addRule D.schema ruleKey definition .shadow
      (some (D.distilledProvenance candidate.1 candidate.2.2 now)) 50 none now w.rows
    (answer, { w with rows := rows, env := env })

/-- One candidate of `distill`. -/
def distillOne (candidate : Situation × String × List String) :
    Program (DistillerWorld σ) PyExc Unit := do
  let ruleKey := distilledKey candidate.1
  let created ← read fun w => w.state.createdKeys
  if ruleKey ∈ created then pure ()
  else match ← D.propose candidate.1 candidate.2.1 with
    | none => pure ()
    | some definition =>
      let _ ← D.store ruleKey candidate definition
      remember fun s => { s.logged (fun log =>
        { log with shadowCreated := log.shadowCreated ++ [ruleKey] }) with
          createdKeys := s.createdKeys ++ [ruleKey] }

def distillAll : List (Situation × String × List String) → Program (DistillerWorld σ) PyExc Unit
  | [] => pure ()
  | candidate :: rest => do
    D.distillOne candidate
    distillAll rest

/-- `distill`. -/
def distill : Program (DistillerWorld σ) PyExc Unit := do
  let candidates ← attempt fun w => (candidateSituations w.state.pool, w)
  D.distillAll candidates

/-! ## Promotion and demotion -/

/-- One SHADOW rule at the gate. -/
def promoteOne (l : LoadedRule) : Program (DistillerWorld σ) PyExc Unit := do
  match ← read fun w => w.state.shadow.get? l.ruleKey with
  | none => pure ()
  | some stats =>
    if !qualifiesForPromotion D.sqrt stats D.promotion then pure ()
    else if D.isHighValueRefund l.rule then
      -- structurally never auto-promoted
      remember fun s => s.logged fun log =>
        if l.ruleKey ∈ log.blockedHighValueRefund then log
        else { log with blockedHighValueRefund := log.blockedHighValueRefund ++ [l.ruleKey] }
    else
      D.moveTo l .active ""
      remember fun s => s.logged fun log => { log with promoted := log.promoted ++
        [⟨l.ruleKey, stats.matched, round3 stats.agreementRate, round3 stats.recoveryRate,
          s.casesSeen⟩] }

def promoteAll : List LoadedRule → Program (DistillerWorld σ) PyExc Unit
  | [] => pure ()
  | l :: rest => do
    D.promoteOne l
    promoteAll rest

/-- `promote`. -/
def promote : Program (DistillerWorld σ) PyExc Unit := do
  let loaded ← attempt fun w => (D.distilledRules [.shadow] w.rows, w)
  D.promoteAll loaded

/-- One ACTIVE rule and its recent window. -/
def demoteOne (l : LoadedRule) : Program (DistillerWorld σ) PyExc Unit := do
  match ← read fun w => w.state.recent.get? l.ruleKey with
  | none => pure ()
  | some window =>
    let rate := toString (window.countP id) ++ "/" ++ toString window.length
    let reason := "recent recovery " ++ rate ++ " upper bound below " ++
      floatRepr D.demotion.recoveryUbFloor
    if shouldDemote D.sqrt (window.countP id) window.length D.demotion then
      D.moveTo l .demoted reason
      remember fun s => { s.logged (fun log => { log with demoted := log.demoted ++
        [⟨l.ruleKey, rate, reason, s.casesSeen⟩] }) with recent := s.recent.set l.ruleKey [] }
    else pure ()

def demoteAll : List LoadedRule → Program (DistillerWorld σ) PyExc Unit
  | [] => pure ()
  | l :: rest => do
    D.demoteOne l
    demoteAll rest

/-- `demote`. -/
def demote : Program (DistillerWorld σ) PyExc Unit := do
  let loaded ← attempt fun w => (D.distilledRules [.active] w.rows, w)
  D.demoteAll loaded

/-- `step` as far as `promote`: is it due? -/
def dueToPromote (casesSeen : Int) : Program (DistillerWorld σ) PyExc Bool := do
  remember fun s => { s with casesSeen := casesSeen }
  if D.cadence = 0 then throw ⟨.other "ZeroDivisionError", "integer modulo by zero"⟩
  else if casesSeen % D.cadence ≠ 0 then return false
  else
    D.distill
    return true

/-- Run distillation, promotion and demotion on the cadence. -/
def step (casesSeen : Int) : Program (DistillerWorld σ) PyExc Unit := do
  if ← D.dueToPromote casesSeen then
    D.promote
    D.demote
  else pure ()

end PaymentDistiller

end PaymentRecovery.Recovery
