import PaymentRecovery.Guardrails.Store
import PaymentRecovery.Lib.Dict
import PaymentRecovery.Lib.Program

/-!
# The guarded executor

The only path to a side effect. Each store method is one transaction, and so is
the handler call. A handler works on the environment `σ` alone, so it cannot
call the executor back.

The journal is a ghost: no function of the source reads it. It records every
entry into `execute` and every handler run, with the approval record the store
held at that moment.
-/

namespace PaymentRecovery.Guardrails

open PaymentRecovery.Python PaymentRecovery.Lib Program

/-- One run of a handler. -/
structure Invocation where
  runId : String
  policy : GuardPolicy
  action : Action
  approval : Option ApprovalRecord
  outcome : Except PyExc PyVal

/-- What the journal records. -/
inductive GuardEvent where
  | called (runId : String) (action : Action)
  | invoked (inv : Invocation)

/-- The durable store, everything outside the guardrail layer, and the journal. -/
structure World (S σ : Type) where
  store : S
  env : σ
  journal : List GuardEvent

/-- A handler performs the real side effect for one action name. -/
abbrev EffectHandler (σ : Type) := Action → σ → Except PyExc PyVal × σ

/-- A guarded executor. `now` is the clock its store was built with. -/
structure GuardedExecutor (σ : Type) where
  runId : String
  policy : GuardPolicy
  now : σ → Time × σ
  handlers : Dict String (EffectHandler σ)

namespace GuardedExecutor

variable {S σ : Type} [GuardStore S]

/-- `GuardedExecutor(run_id, store, policy)`: no handler yet. -/
def new (runId : String) (policy : GuardPolicy) (now : σ → Time × σ) : GuardedExecutor σ :=
  ⟨runId, policy, now, .empty⟩

/-- Register the effect handler for `actionName`. -/
def register (ex : GuardedExecutor σ) (actionName : String) (handler : EffectHandler σ) :
    GuardedExecutor σ :=
  { ex with handlers := ex.handlers.set actionName handler }

/-- `_audit`. -/
def audit (ex : GuardedExecutor σ) (action : Action) (decision detail : String) :
    Program (World S σ) PyExc Unit :=
  write fun w =>
    { w with store := (GuardStore.appendAudit w.store ex.runId action.name action.subjectId
        action.idempotencyKey action.cost decision detail).2 }

/-- `_finish`. -/
def finish (ex : GuardedExecutor σ) (action : Action) (status : ExecutionStatus)
    (result : PyVal) (approvalId : Option ApprovalId) (detail : String) :
    Program (World S σ) PyExc ExecutionResult := do
  ex.audit action status.value detail
  return ⟨status, action.idempotencyKey, result, approvalId, detail⟩

/-- Queue the action for a human decision; the store stamps it with its clock. -/
def createPending (ex : GuardedExecutor σ) (action : Action) (paramsJson : JsonText) :
    Program (World S σ) PyExc ApprovalRecord :=
  step fun w =>
    let (t, env) := ex.now w.env
    let (approval, store) := GuardStore.createPending w.store ex.runId action.idempotencyKey
      action.name action.subjectId action.cost paramsJson t
    (approval, { w with store := store, env := env })

/-- The approval gate: `none` lets the action pass. Strictly-above-threshold cost
never auto-executes. -/
def approvalGate (ex : GuardedExecutor σ) (action : Action) :
    Program (World S σ) PyExc (Option ExecutionResult) :=
  if ex.policy.approvalThreshold < action.cost then do
    let existing ← read fun w => GuardStore.getApproval w.store ex.runId action.idempotencyKey
    let approval ← match existing with
      -- found by its key; what it was queued for is not compared
      | some approval => pure approval
      | none => do
        -- `dict(action.params)` is a copy of the mapping
        let paramsJson ← orRaise (jsonDumps action.params)
        ex.createPending action paramsJson
    if approval.state = .approved then
      return none
    else
      let detail := if approval.state = .pending then "awaiting human approval"
        else "approval was rejected; not executing"
      let result ← ex.finish action .pendingApproval .none (some approval.approvalId) detail
      return some result
  else
    return none

/-- `handler(action)`, in one step with its journal entry. -/
def invoke (ex : GuardedExecutor σ) (handler : EffectHandler σ) (action : Action) :
    Program (World S σ) PyExc PyVal :=
  attempt fun w =>
    let (outcome, env) := handler action w.env
    let approval := GuardStore.getApproval w.store ex.runId action.idempotencyKey
    (outcome, { w with
      env := env
      journal := w.journal ++ [.invoked ⟨ex.runId, ex.policy, action, approval, outcome⟩] })

/-- Execute exactly once, then record consumption and the result. -/
def perform (ex : GuardedExecutor σ) (handler : EffectHandler σ) (action : Action) :
    Program (World S σ) PyExc ExecutionResult := do
  let result ← tryCatch (ex.invoke handler action) fun exc => do
    ex.audit action "error" exc.repr
    throw exc
  let resultJson ← orRaise (jsonDumps result)
  -- the effect is charged and stored in two transactions
  write fun w =>
    { w with store := GuardStore.recordExecution w.store ex.runId action.subjectId action.cost }
  write fun w =>
    { w with store := (GuardStore.putResult w.store ex.runId action.idempotencyKey
        ExecutionStatus.executed.value resultJson) }
  ex.finish action .executed result none "executed"

/-- The action budget and the spend cap, and then the effect. -/
def spend (ex : GuardedExecutor σ) (handler : EffectHandler σ) (action : Action) :
    Program (World S σ) PyExc ExecutionResult := do
  let used ← read fun w => GuardStore.subjectExecutedCount w.store ex.runId action.subjectId
  if ex.policy.perSubjectActionBudget ≤ (used : Int) then
    ex.finish action .rejectedActionBudget .none none
      ("action budget exhausted for subject (" ++ toString used ++ " used)")
  else
    let spent ← read fun w => GuardStore.accumulatedSpend w.store ex.runId
    if ex.policy.perRunSpendCap < spent + action.cost then
      write fun w => { w with store := GuardStore.tripBreaker w.store ex.runId }
      ex.finish action .rejectedSpendCap .none none "spend-cap breaker tripped by this action"
    else
      ex.perform handler action

/-- Run `action` through the guardrail chain. -/
def execute (ex : GuardedExecutor σ) (action : Action) :
    Program (World S σ) PyExc ExecutionResult := do
  let halted ← step fun w =>
    (GuardStore.isBreakerOpen w.store ex.runId,
      { w with journal := w.journal ++ [.called ex.runId action] })
  if halted then
    ex.finish action .rejectedBreakerOpen .none none "spend-cap breaker open; run halted"
  else
    let existing ← read fun w => GuardStore.getResult w.store ex.runId action.idempotencyKey
    match existing with
    | some existing => do
      let result ← orRaise (jsonLoads existing.resultJson)
      ex.finish action .duplicate result none "idempotent replay of a completed action"
    | none =>
      -- an action without a handler is never queued
      match ex.handlers.get? action.name with
      | none => throw ⟨.unknownActionError, action.name⟩
      | some handler => do
        let held ← ex.approvalGate action
        match held with
        | some result => return result
        | none => ex.spend handler action

/-- `_require_approval`. -/
def requireApproval (ex : GuardedExecutor σ) (id : ApprovalId) :
    Program (World S σ) PyExc ApprovalRecord := do
  let approval ← read fun w => GuardStore.getApprovalById w.store id
  match approval with
  | none => throw ⟨.approvalError, "no such approval: " ++ strRepr id.text⟩
  | some approval =>
    if approval.runId = ex.runId then return approval
    else throw ⟨.approvalError, "approval belongs to a different run"⟩

/-- `_action_from_approval`. -/
def actionFromApproval (approval : ApprovalRecord) : Except PyExc Action := do
  let params ← jsonLoads approval.paramsJson
  return ⟨approval.actionName, approval.subjectId, approval.idempotencyKey, approval.cost, params⟩

/-- `set_approval_state`. -/
def setApprovalState (id : ApprovalId) (state : ApprovalState) :
    Program (World S σ) PyExc Unit :=
  attempt fun w =>
    match GuardStore.setApprovalState w.store id state with
    | .ok store => (.ok (), { w with store := store })
    | .error exc => (.error exc, w)

/-- Approve a pending action and execute it through the guarded path. -/
def approve (ex : GuardedExecutor σ) (id : ApprovalId) :
    Program (World S σ) PyExc ExecutionResult := do
  let approval ← ex.requireApproval id
  if approval.state = .approved then
    -- re-approving returns the existing outcome
    let action ← orRaise (actionFromApproval approval)
    ex.execute action
  else
    -- whatever the state was, a rejected one too
    setApprovalState id .approved
    let action ← orRaise (actionFromApproval approval)
    ex.execute action

/-- Deny a pending action. -/
def rejectApproval (ex : GuardedExecutor σ) (id : ApprovalId) :
    Program (World S σ) PyExc Unit := do
  let _ ← ex.requireApproval id
  setApprovalState id .rejected

/-- This run's pending-approval records. -/
def pendingApprovals (ex : GuardedExecutor σ) :
    Program (World S σ) PyExc (List ApprovalRecord) :=
  read fun w => GuardStore.listPending w.store ex.runId

end GuardedExecutor

end PaymentRecovery.Guardrails
