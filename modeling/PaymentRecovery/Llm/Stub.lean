import PaymentRecovery.Agent.Values
import PaymentRecovery.Providers.Webhooks

/-!
# The offline stub

A deterministic policy behind the interface of an LLM client. It reads the JSON
state in the last user message and decides from the names of the tools called so
far and from the failure reason alone.
-/

namespace PaymentRecovery.Llm

open PaymentRecovery.Python PaymentRecovery.Agent PaymentRecovery.Providers PaymentRecovery.Rules

def sendLinkReasons : List String :=
  ["insufficient_funds", "card_declined", "expired_card", "invalid_details",
    "authentication_required", "processing_error"]

/-- The tools after which the stub is done. -/
def effectTools : List String := ["create_payment_link", "refund_payment", "escalate_to_human"]

/-! ## Sets of values -/

/-- `for item in value`. -/
def iterItems (value : PyVal) : Except PyExc (List PyVal) :=
  match value with
  | .list items | .tuple items => .ok items
  | .dict items => .ok (items.map fun item => .str item.1.text)
  | .str s => .ok (s.toList.map fun c => .str (String.singleton c))
  | _ => .error ⟨.typeError, "'" ++ value.typeName ++ "' object is not iterable"⟩

/-- `hash(value)` is defined; lists and mappings have none. -/
def hashed (value : PyVal) : Except PyExc PyVal :=
  match value with
  | .list _ | .dict _ => .error ⟨.typeError, "unhashable type: '" ++ value.typeName ++ "'"⟩
  | _ => .ok value

/-- `{item.get(key) for item in value}`, in the order of the items. -/
def fieldSet (value : PyVal) (key : String) : Except PyExc (List PyVal) := do
  let items ← iterItems value
  items.mapM fun item => do hashed (← getKey item key .none)

/-- `value in names`, for a set of texts. -/
def inTexts (names : List String) : PyVal → Bool
  | .str s => s ∈ names
  | _ => false

/-- `name in values`. -/
def hasText (values : List PyVal) (name : String) : Bool := values.any (inTexts [name])

/-! ## The policy -/

/-- `_resolving_action`. -/
def resolvingAction (failureReason : PyVal) (toolNames : List PyVal) : Except PyExc String := do
  let reason ← hashed failureReason
  if inTexts sendLinkReasons reason && hasText toolNames "create_payment_link" then
    return "create_payment_link"
  return "escalate_to_human"

/-- The answer that calls a tool. -/
def callDict (thought tool : String) (args : PyVal) : PyVal :=
  .record [("thought", .str thought),
    ("action", .record [("tool", .str tool), ("args", args)])]

/-- The answer that finishes. -/
def finalDict (resolution : PyVal) : PyVal :=
  .record [("thought", .str "resolved"), ("final", .record [("resolution", resolution)])]

/-- `_last_effect`, of the tools called in order. -/
def lastEffect (called : List PyVal) : PyVal :=
  (called.reverse.find? (inTexts effectTools)).getD .none

/-- `_decide`. -/
def decideOn (state : PyVal) : Except PyExc PyVal := do
  let case ← getKey state "case" (.record [])
  let history ← getKey state "history" (.list [])
  let tools ← getKey state "tools" (.list [])
  let toolNames ← fieldSet tools "name"
  let called ← fieldSet history "tool"
  if called.any (inTexts effectTools) then
    return finalDict (lastEffect called)
  if hasText toolNames "fetch_payment" && !hasText called "fetch_payment" then
    let paymentId ← getKey case "payment_id" (.str "")
    return callDict "inspect the payment" "fetch_payment" (.record [("payment_id", paymentId)])
  -- the case is looked at only if there is a tool to call
  let known ← if hasText toolNames "fetch_customer_history" then
      truthy <$> getKey case "customer_id" .none
    else pure false
  if known && !hasText called "fetch_customer_history" then
    let customerId ← getKey case "customer_id" .none
    return callDict "check customer history" "fetch_customer_history"
      (.record [("customer_id", customerId)])
  let action ← resolvingAction (← getKey case "failure_reason" (.str "")) toolNames
  if action = "create_payment_link" then
    let amount ← getKey case "amount_inr" (.int 0)
    return callDict "let the customer retry via a new link" "create_payment_link"
      (.record [("amount_inr", amount)])
  return callDict "needs a human" "escalate_to_human" (.record [])

/-! ## The client -/

/-- `_read_state`: an unreadable message is an empty state. -/
def readState (messages : List LLMMessage) : PyVal :=
  match messages.reverse.find? fun message => message.role = "user" with
  | none => .record []
  | some message =>
    match jsonLoads message.content with
    | .ok state => state
    | .error _ => .record []

/-- The stub; `spelling` gives the characters of a text, for the token counts. -/
structure StubLLMClient where
  spelling : JsonText → String

namespace StubLLMClient

variable (stub : StubLLMClient)

/-- `LLMResponse(json.dumps(value), ...)`. -/
def respond (messages : List LLMMessage) (value : PyVal) : Except PyExc LLMResponse := do
  let text ← jsonDumps value
  let promptChars := (messages.map fun message => (stub.spelling message.content).length).sum
  return {
    text := stub.spelling text
    parsed := match text with
      | .doc json => .ok json
      | .malformed _ => .error ⟨.jsonDecodeError, "Expecting value"⟩
    promptTokens := promptChars / 4
    completionTokens := (stub.spelling text).length / 4
    latencyMs := 0
    cached := false }

/-- `complete`. -/
def complete (messages : List LLMMessage) : Except PyExc LLMResponse := do
  let state := readState messages
  let task ← getKey state "task" .none
  if inTexts ["propose_rule"] task then
    -- the proposer is handed back what was suggested to it
    stub.respond messages (← getKey state "suggested" (.record []))
  else
    stub.respond messages (← decideOn state)

/-- The stub as an LLM client: it leaves the outer state alone. -/
def client {σ : Type} : LLMClient σ := fun messages outer => (stub.complete messages, outer)

end StubLLMClient

/-! ## What the stub hears and says -/

end PaymentRecovery.Llm
