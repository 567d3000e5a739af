import PaymentRecovery.Python.Value

/-!
# Value objects of the guardrail layer

Actions, policies, results and the persisted records. Clock readings that no
function reads back are left out; the creation time of an approval is kept,
because the pipeline picks the newest pending one by it.
-/

namespace PaymentRecovery.Guardrails

open PaymentRecovery.Python

/-- A clock reading, in microseconds. -/
abbrev Time := Int

/-- Outcome of one `execute` call that returns. -/
inductive ExecutionStatus where
  | executed
  | duplicate
  | pendingApproval
  | rejectedActionBudget
  | rejectedSpendCap
  | rejectedBreakerOpen
  deriving DecidableEq

/-- `status.value`. -/
def ExecutionStatus.value : ExecutionStatus → String
  | .executed => "executed"
  | .duplicate => "duplicate"
  | .pendingApproval => "pending_approval"
  | .rejectedActionBudget => "rejected_action_budget"
  | .rejectedSpendCap => "rejected_spend_cap"
  | .rejectedBreakerOpen => "rejected_breaker_open"

theorem ExecutionStatus.value_injective : Function.Injective ExecutionStatus.value := by
  intro a b h
  cases a <;> cases b <;> first | rfl | (simp [ExecutionStatus.value] at h)

/-- The audit word of a raising handler is no status. -/
theorem ExecutionStatus.value_ne_error (st : ExecutionStatus) : st.value ≠ "error" := by
  cases st <;> decide

/-- Lifecycle of an approval record. -/
inductive ApprovalState where
  | pending
  | approved
  | rejected
  deriving DecidableEq

/-- The limits of a guarded run. -/
structure GuardPolicy where
  approvalThreshold : ℚ
  perSubjectActionBudget : Int
  perRunSpendCap : ℚ
  deriving DecidableEq

/-- A declarative description of an intended effect. `params` is the mapping the
handler will read. -/
structure Action where
  name : String
  subjectId : String
  idempotencyKey : String
  cost : ℚ
  params : PyVal

/-- `"apr_" + uuid4().hex`: a fresh identifier, numbered by order of creation. -/
structure ApprovalId where
  serial : Nat
  deriving DecidableEq

/-- The text of an approval id. -/
def ApprovalId.text (id : ApprovalId) : String := "apr_" ++ toString id.serial

/-- What `execute` returns. -/
structure ExecutionResult where
  status : ExecutionStatus
  idempotencyKey : String
  result : PyVal
  approvalId : Option ApprovalId
  detail : String

/-- A stored terminal outcome for one idempotency key. -/
structure IdempotencyRecord where
  runId : String
  idempotencyKey : String
  status : String
  resultJson : JsonText

/-- A human-gated action awaiting or having received a decision. -/
structure ApprovalRecord where
  approvalId : ApprovalId
  runId : String
  idempotencyKey : String
  actionName : String
  subjectId : String
  cost : ℚ
  paramsJson : JsonText
  state : ApprovalState
  createdAt : Time

/-- One append-only audit record; `seq` counts within a run. -/
structure AuditEntry where
  runId : String
  seq : Nat
  actionName : String
  subjectId : String
  idempotencyKey : String
  cost : ℚ
  decision : String
  detail : String
  deriving DecidableEq

end PaymentRecovery.Guardrails
