import PaymentRecovery.Agent.Loop
import PaymentRecovery.Recovery.Database

/-!
# The payment-recovery tools

Read tools ask the provider. Effect tools only build an `Action`; the side
effect is performed by a handler registered on the guarded executor.
-/

namespace PaymentRecovery.Recovery

open PaymentRecovery.Python PaymentRecovery.Guardrails PaymentRecovery.Providers
open PaymentRecovery.Agent PaymentRecovery.Lib

variable {τ : Type}

/-- The failed payment under recovery. -/
structure RecoveryCase where
  paymentId : String
  amountInr : ℚ
  failureReason : String
  method : Option String
  customerId : Option String
  orderId : Option String

/-- `case.customer_id or case.payment_id`. -/
def RecoveryCase.subject (case : RecoveryCase) : String :=
  match case.customerId with
  | some customerId => if customerId = "" then case.paymentId else customerId
  | none => case.paymentId

def boundedPayment (p : Payment) : PyVal :=
  .record [("id", .str p.id), ("amount_inr", .float p.amountInr), ("status", .str p.status.value),
    ("method", .str p.method.value),
    ("failure_reason", .ofOption (fun r => .str r.value) p.failureReason),
    ("order_id", .ofOption .str p.orderId), ("customer_id", .ofOption .str p.customerId)]

def boundedOrder (o : Order) : PyVal :=
  .record [("id", .str o.id), ("amount_inr", .float o.amountInr), ("status", .str o.status.value)]

def boundedHistory (h : CustomerHistory) : PyVal :=
  .record [("customer_id", .str h.customerId), ("total_payments", .int h.totalPayments),
    ("successful_payments", .int h.successfulPayments),
    ("failed_payments", .int h.failedPayments)]

def boundedLink (link : PaymentLink) : PyVal :=
  .record [("id", .str link.id), ("short_url", .str link.shortUrl),
    ("status", .str link.status.value)]

def boundedRefund (refund : Refund) : PyVal :=
  .record [("id", .str refund.id), ("amount_inr", .float refund.amountInr),
    ("status", .str refund.status.value)]

/-! ## Read tools -/

/-- A read of the provider by the id in `args[argName]`; a missing resource is an
answer, not an exception. -/
def fetch {α : Type} (provider : PaymentProvider τ) (argName : String)
    (get : String → τ → Except PyExc α × τ) (bounded : α → PyVal) (args : Args) (env : Env τ) :
    Except PyExc PyVal × Env τ :=
  match args.get argName with
  | .ok (.str id) =>
    match env.ask (.provider provider.name) (get id) with
    | (.ok a, env) => (.ok (bounded a), env)
    | (.error exc, env) =>
      if exc.cls = .resourceNotFound then (.ok (.record [("error", .str "not_found")]), env)
      else (.error exc, env)
  | .ok _ => (.error ⟨.typeError, "expected str"⟩, env)
  | .error exc => (.error exc, env)

def fetchPayment (provider : PaymentProvider τ) : Args → Env τ → Except PyExc PyVal × Env τ :=
  fetch provider "payment_id" provider.getPayment boundedPayment

def fetchOrder (provider : PaymentProvider τ) : Args → Env τ → Except PyExc PyVal × Env τ :=
  fetch provider "order_id" provider.getOrder boundedOrder

def fetchCustomerHistory (provider : PaymentProvider τ) :
    Args → Env τ → Except PyExc PyVal × Env τ :=
  fetch provider "customer_id" provider.getCustomerHistory boundedHistory

/-! ## Action builders -/

def linkKey (case : RecoveryCase) : String := "link:" ++ case.paymentId
def refundKey (case : RecoveryCase) : String := "refund:" ++ case.paymentId
def escalateKey (case : RecoveryCase) : String := "escalate:" ++ case.paymentId

def buildLinkAction (case : RecoveryCase) (args : Args) (env : Env τ) :
    Except PyExc Action × Env τ :=
  (do
    let amount ← toFloat (← args.get "amount_inr")
    return ⟨"send_payment_link", case.subject, linkKey case, 0,
      .record [("amount_inr", .float amount)]⟩, env)

/-- Full refund only: the amount is the provider's, never the model's. -/
def buildRefundAction (case : RecoveryCase) (provider : PaymentProvider τ) (_args : Args)
    (env : Env τ) : Except PyExc Action × Env τ :=
  match env.ask (.provider provider.name) (provider.getPayment case.paymentId) with
  | (.ok payment, env) =>
    (.ok ⟨"refund", case.subject, refundKey case, payment.amountInr,
      .record [("amount_inr", .float payment.amountInr),
        ("idempotency_key", .str (refundKey case))]⟩, env)
  | (.error exc, env) => (.error exc, env)

def buildEscalateAction (case : RecoveryCase) (_args : Args) (env : Env τ) :
    Except PyExc Action × Env τ :=
  (.ok ⟨"escalate_to_human", case.subject, escalateKey case, 0, .record []⟩, env)

/-! ## Effect handlers: the only place a side effect happens -/

/-- `action.params[name]`. -/
def paramGet (params : PyVal) (name : String) : Except PyExc PyVal :=
  match params with
  | .dict items =>
    match itemGet? items name with
    | some value => .ok value
    | none => .error ⟨.keyError, strRepr name⟩
  | _ => .error ⟨.typeError, "'" ++ params.typeName ++ "' object is not subscriptable"⟩

def doLink (case : RecoveryCase) (provider : PaymentProvider τ) : EffectHandler (Env τ) :=
  fun action env =>
    match paramGet action.params "amount_inr" >>= toFloat with
    | .error exc => (.error exc, env)
    | .ok amount =>
      match env.effect provider.name case.paymentId (linkKey case)
          (provider.createPaymentLink amount case.paymentId) with
      | (.ok link, env) => (.ok (boundedLink link), env)
      | (.error exc, env) => (.error exc, env)

def doRefund (case : RecoveryCase) (provider : PaymentProvider τ) : EffectHandler (Env τ) :=
  fun action env =>
    match paramGet action.params "amount_inr" >>= toFloat,
        paramGet action.params "idempotency_key" with
    | .ok amount, .ok (.str key) =>
      -- noted under the key of the case, which the params carry
      match env.effect provider.name case.paymentId (refundKey case)
          (provider.refundPayment case.paymentId amount key) with
      | (.ok refund, env) => (.ok (boundedRefund refund), env)
      | (.error exc, env) => (.error exc, env)
    | .ok _, .ok _ => (.error ⟨.typeError, "expected str"⟩, env)
    | .error exc, _ => (.error exc, env)
    | .ok _, .error exc => (.error exc, env)

def doEscalate (case : RecoveryCase) : EffectHandler (Env τ) := fun _ env =>
  (.ok (.record [("status", .str "escalated"), ("payment_id", .str case.paymentId)]), env)

/-! ## The registry -/

def fetchPaymentTool (provider : PaymentProvider τ) : ToolSpec (Env τ) :=
  ⟨"fetch_payment", "Fetch a payment by id.", [("payment_id", ⟨.string, true⟩)],
    .read (fetchPayment provider), by decide⟩

def fetchOrderTool (provider : PaymentProvider τ) : ToolSpec (Env τ) :=
  ⟨"fetch_order", "Fetch an order by id.", [("order_id", ⟨.string, true⟩)],
    .read (fetchOrder provider), by decide⟩

def fetchHistoryTool (provider : PaymentProvider τ) : ToolSpec (Env τ) :=
  ⟨"fetch_customer_history", "Fetch a customer's payment history.",
    [("customer_id", ⟨.string, true⟩)], .read (fetchCustomerHistory provider), by decide⟩

def linkTool (case : RecoveryCase) : ToolSpec (Env τ) :=
  ⟨"create_payment_link", "Create a new payment link for the customer to retry payment.",
    [("amount_inr", ⟨.number, true⟩)], .effect (buildLinkAction case), by decide⟩

def refundTool (case : RecoveryCase) (provider : PaymentProvider τ) : ToolSpec (Env τ) :=
  ⟨"refund_payment", "Issue a FULL refund of the failed payment. The amount is derived " ++
    "server-side from the payment record; you cannot set it. Subject to " ++
    "the approval gate, spend cap and idempotency.", [],
    .effect (buildRefundAction case provider), List.nodup_nil⟩

def escalateTool (case : RecoveryCase) : ToolSpec (Env τ) :=
  ⟨"escalate_to_human", "Escalate this payment to a human agent.", [],
    .effect (buildEscalateAction case), List.nodup_nil⟩

/-- The tools in the order they are added. -/
def tools (case : RecoveryCase) (provider : PaymentProvider τ) : List (ToolSpec (Env τ)) :=
  [fetchPaymentTool provider, fetchOrderTool provider, fetchHistoryTool provider, linkTool case,
    refundTool case provider, escalateTool case]

/-- The handlers under the action names they perform. -/
def handlers (case : RecoveryCase) (provider : PaymentProvider τ) :
    List (String × EffectHandler (Env τ)) :=
  [("send_payment_link", doLink case provider), ("refund", doRefund case provider),
    ("escalate_to_human", doEscalate case)]

/-- Build the tool registry and the executor effect handlers for one case. -/
def buildTools (case : RecoveryCase) (provider : PaymentProvider τ) :
    Except PyExc (ToolRegistry (Env τ) × List (String × EffectHandler (Env τ))) := do
  let registry ← (tools case provider).foldlM ToolRegistry.add Dict.empty
  return (registry, handlers case provider)

end PaymentRecovery.Recovery
