import PaymentRecovery.Lib.Dict
import PaymentRecovery.Providers.Types
import PaymentRecovery.Python.Bytes

/-!
# Signatures and payloads

How each adapter checks the signature of a webhook and what it makes of the
body. The body is whatever JSON the sender chose: a member may be missing, or of
any type.
-/

namespace PaymentRecovery.Providers

open PaymentRecovery.Python PaymentRecovery.Guardrails PaymentRecovery.Lib

/-- What the adapters use of the runtime: HMAC-SHA256, `json.loads` on bytes, and how texts are
read as numbers and times. -/
structure Runtime where
  hmacSha256 : (secret message : ByteArray) → List UInt8
  jsonLoads : ByteArray → Except PyExc PyVal
  intOfText : String → Except PyExc Int
  floatOfText : String → Except PyExc ℚ
  fromTimestamp : PyVal → Except PyExc Time
  fromIsoformat : PyVal → Except PyExc Time

/-- A registered adapter, with the secret of its endpoint. -/
inductive Adapter where
  | fake (secret : ByteArray)
  | razorpay (webhookSecret : ByteArray)
  | stripe (webhookSecret : ByteArray)

def Adapter.name : Adapter → String
  | .fake _ => "fake"
  | .razorpay _ => "razorpay"
  | .stripe _ => "stripe"

def Adapter.signatureHeader : Adapter → String
  | .fake _ => "X-Fake-Signature"
  | .razorpay _ => "X-Razorpay-Signature"
  | .stripe _ => "Stripe-Signature"

/-- Stripe carries the event id in the body. -/
def Adapter.eventIdHeader : Adapter → Option String
  | .fake _ => some "X-Fake-Event-Id"
  | .razorpay _ => some "X-Razorpay-Event-Id"
  | .stripe _ => none

/-! ## Signatures -/

/-- `item.split("=", 1)`, for an item with a `=`. -/
def splitOnce (item : List Char) : String × String :=
  (String.ofList (item.takeWhile (· ≠ '=')), String.ofList ((item.dropWhile (· ≠ '=')).drop 1))

/-- The elements of a `Stripe-Signature` header, as a dictionary: of equal keys the last counts. -/
def stripeParts (signature : String) : Dict String String :=
  (((signature.toList.splitOn ',').filter fun item => '=' ∈ item).map splitOnce).foldl
    (fun parts part => parts.set part.1 part.2) .empty

/-- The text that is signed with the timestamp in front, and the digest that came with it. -/
def stripeSigned (body : ByteArray) (signature : String) : Option (ByteArray × String) :=
  let parts := stripeParts signature
  match parts.get? "t", parts.get? "v1" with
  | some timestamp, some provided =>
    if timestamp = "" ∨ provided = "" then none
    else some (encodeUtf8 (timestamp ++ ".") ++ body, provided)
  | _, _ => none

/-- `verify_signature`. -/
def verifySignature (rt : Runtime) (adapter : Adapter) (body : ByteArray) (signature : String) :
    Except PyExc Bool :=
  match adapter with
  | .fake secret => compareDigest (hexdigest (rt.hmacSha256 secret body)) signature
  | .razorpay secret => compareDigest (hexdigest (rt.hmacSha256 secret body)) signature
  | .stripe secret =>
    match stripeSigned body signature with
    | none => .ok false
    | some (signed, provided) => compareDigest (hexdigest (rt.hmacSha256 secret signed)) provided

/-! ## Payloads -/

/-- `bool(value)`. -/
def truthy : PyVal → Bool
  | .none => false
  | .bool b => b
  | .int i => i ≠ 0
  | .float x => x ≠ 0
  | .str s => s ≠ ""
  | .list items => !items.isEmpty
  | .tuple items => !items.isEmpty
  | .dict items => !items.isEmpty
  | .object _ _ => true

/-- `table.get(key)`, for a table with texts as keys. -/
def tableGet {α : Type} (table : List (String × α)) (key : PyVal) : Except PyExc (Option α) :=
  match key with
  | .str name => .ok ((table.find? fun entry => entry.1 = name).map Prod.snd)
  | .list _ | .dict _ => .error ⟨.typeError, "unhashable type: '" ++ key.typeName ++ "'"⟩
  | _ => .ok none

/-- A webhook body, normalised. The ids are what the body holds under them. -/
structure ParsedEvent where
  provider : String
  eventId : PyVal
  eventType : EventType
  paymentId : PyVal
  amountInr : ℚ
  failureReason : Option FailureReason
  occurredAt : Option Time

/-- `event_id or …`: a missing or empty header falls back to the body. -/
def eventIdOr (eventId : Option String) (fallback : Except PyExc PyVal) : Except PyExc PyVal :=
  match eventId with
  | some id => if id = "" then fallback else .ok (.str id)
  | none => fallback

/-- `_paise_to_inr(int(value))`. -/
def minorToInr (rt : Runtime) (value : PyVal) : Except PyExc ℚ := do
  let minor ← intOf rt.intOfText value
  return (← toFloat (.int minor)) / 100

/-- `_ts_to_dt`. -/
def tsToDt (rt : Runtime) (ts : PyVal) : Except PyExc (Option Time) :=
  if truthy ts then some <$> rt.fromTimestamp ts else .ok none

/-- `FailureReason.from_code`. -/
def FailureReason.fromCode (code : PyVal) : FailureReason :=
  match code with
  | .str text =>
    match FailureReason.ofValue text with
    | .ok reason => reason
    | .error _ => .unknown
  | _ => .unknown

/-- Event types of the fake provider and of Razorpay. -/
def eventTypes : List (String × EventType) :=
  [("payment.failed", .paymentFailed), ("payment.authorized", .paymentAuthorized),
    ("payment.captured", .paymentCaptured), ("refund.processed", .refundProcessed)]

/-- `_REASON_MAP` of Razorpay. -/
def razorpayReasons : List (String × FailureReason) :=
  [("insufficient_funds", .insufficientFunds), ("insufficient_balance", .insufficientFunds),
    ("payment_declined", .cardDeclined), ("card_declined", .cardDeclined),
    ("expired_card", .expiredCard), ("authentication_failed", .authenticationRequired),
    ("authentication_required", .authenticationRequired), ("gateway_error", .processingError),
    ("server_error", .processingError), ("invalid_card", .invalidDetails),
    ("invalid_details", .invalidDetails), ("payment_frozen", .riskBlocked),
    ("risk_blocked", .riskBlocked)]

/-- `_EVENT_TYPE_MAP` of Stripe. -/
def stripeEventTypes : List (String × EventType) :=
  [("payment_intent.payment_failed", .paymentFailed),
    ("payment_intent.succeeded", .paymentCaptured),
    ("payment_intent.amount_capturable_updated", .paymentAuthorized),
    ("charge.refunded", .refundProcessed)]

/-- `_REASON_MAP` of Stripe. -/
def stripeReasons : List (String × FailureReason) :=
  [("insufficient_funds", .insufficientFunds), ("card_declined", .cardDeclined),
    ("generic_decline", .cardDeclined), ("do_not_honor", .cardDeclined),
    ("transaction_not_allowed", .cardDeclined), ("expired_card", .expiredCard),
    ("authentication_required", .authenticationRequired),
    ("payment_intent_authentication_failure", .authenticationRequired),
    ("processing_error", .processingError), ("try_again_later", .processingError),
    ("incorrect_number", .invalidDetails), ("incorrect_cvc", .invalidDetails),
    ("invalid_expiry_month", .invalidDetails), ("invalid_expiry_year", .invalidDetails),
    ("invalid_account", .invalidDetails), ("fraudulent", .riskBlocked), ("lost_card", .riskBlocked),
    ("stolen_card", .riskBlocked), ("merchant_blacklist", .riskBlocked)]

/-- `_reason_from_error`. -/
def reasonFromError (error : PyVal) : Except PyExc FailureReason := do
  if truthy error then
    let decline ← getKey error "decline_code" .none
    let code ← if truthy decline then .ok decline else getKey error "code" .none
    return (← tableGet stripeReasons code).getD .unknown
  else return .unknown

/-- `FakeProvider.parse_event`. -/
def parseFake (rt : Runtime) (payload : ByteArray) (eventId : Option String) :
    Except PyExc ParsedEvent := do
  let body ← rt.jsonLoads payload
  let occurredRaw ← getKey body "occurred_at" .none
  let eventId ← eventIdOr eventId (getItem body "event_id")
  let eventType ← tableGet eventTypes (← getKey body "event" (.str ""))
  let paymentId ← getItem body "payment_id"
  let amountInr ← floatOf rt.floatOfText (← getItem body "amount_inr")
  let reason ← getKey body "failure_reason" .none
  let occurredAt ← if truthy occurredRaw then some <$> rt.fromIsoformat occurredRaw else .ok none
  return ⟨"fake", eventId, eventType.getD .other, paymentId, amountInr,
    some (FailureReason.fromCode reason), occurredAt⟩

/-- `RazorpayAdapter.parse_event`. -/
def parseRazorpay (rt : Runtime) (payload : ByteArray) (eventId : Option String) :
    Except PyExc ParsedEvent := do
  let body ← rt.jsonLoads payload
  let event ← getKey body "event" (.str "")
  let entity ← getKey (← getKey (← getKey body "payload" (.dict [])) "payment" (.dict []))
    "entity" (.dict [])
  let eventId ← eventIdOr eventId do
    let id ← getKey body "id" .none
    if truthy id then return id
    else return .str (event.text ++ ":" ++ (← getKey entity "id" .none).text)
  let eventType ← tableGet eventTypes event
  let paymentId ← getKey entity "id" (.str "")
  let amountInr ← minorToInr rt (← getKey entity "amount" (.int 0))
  let status ← getKey entity "status" .none
  let failureReason ← if scalarEq status (.str "failed") then do
      let reason ← tableGet razorpayReasons (← getKey entity "error_reason" .none)
      pure (some (reason.getD .unknown))
    else pure none
  let occurredAt ← tsToDt rt (← getKey entity "created_at" .none)
  return ⟨"razorpay", eventId, eventType.getD .other, paymentId, amountInr, failureReason,
    occurredAt⟩

/-- `StripeProvider.parse_event`. -/
def parseStripe (rt : Runtime) (payload : ByteArray) (eventId : Option String) :
    Except PyExc ParsedEvent := do
  let body ← rt.jsonLoads payload
  let type ← getKey body "type" (.str "")
  let entity ← getKey (← getKey body "data" (.dict [])) "object" (.dict [])
  let _ ← getKey entity "status" .none
  let error ← getKey entity "last_payment_error" .none
  let eventId ← eventIdOr eventId do
    let id ← getKey body "id" .none
    if truthy id then return id
    else return .str (type.text ++ ":" ++ (← getKey entity "id" .none).text)
  let eventType ← tableGet stripeEventTypes type
  let paymentId ← getKey entity "id" (.str "")
  let amountInr ← minorToInr rt (← getKey entity "amount" (.int 0))
  let failureReason ←
    if scalarEq type (.str "payment_intent.payment_failed") || truthy error then
      some <$> reasonFromError error
    else pure none
  let created ← getKey body "created" .none
  let occurredAt ← tsToDt rt (← if truthy created then pure created else getKey entity "created" .none)
  return ⟨"stripe", eventId, eventType.getD .other, paymentId, amountInr, failureReason, occurredAt⟩

/-- `parse_event`. -/
def parseEvent (rt : Runtime) (adapter : Adapter) (payload : ByteArray) (eventId : Option String) :
    Except PyExc ParsedEvent :=
  match adapter with
  | .fake _ => parseFake rt payload eventId
  | .razorpay _ => parseRazorpay rt payload eventId
  | .stripe _ => parseStripe rt payload eventId

/-- A missing event id and an empty one are the same to every adapter. -/
theorem parseEvent_stored (rt : Runtime) (adapter : Adapter) (payload : ByteArray)
    (eventId : Option String) :
    parseEvent rt adapter payload (some (eventId.getD "")) = parseEvent rt adapter payload eventId := by
  cases eventId with
  | some id => rfl
  | none =>
    have hsame : ∀ fallback, eventIdOr (some "") fallback = eventIdOr none fallback := fun _ => rfl
    cases adapter with
    | fake _ => rfl
    | razorpay _ => rfl
    | stripe _ => rfl

/-! ## Comparing digests -/

/-- Comparing with a digest: an answer for an ASCII text, and an exception for any other. -/
theorem compareDigest_spec (digest : List UInt8) (given : String) :
    (isAscii given = true →
      compareDigest (hexdigest digest) given = .ok (decide (given = hexdigest digest))) ∧
    (¬ isAscii given = true → ∃ exc, compareDigest (hexdigest digest) given = .error exc) := by
  rw [compareDigest_hexdigest]
  refine ⟨fun h => ?_, fun h => ?_⟩
  · rw [if_pos h]
    exact congrArg _ (decide_eq_decide.mpr eq_comm)
  · rw [if_neg h]
    exact ⟨_, rfl⟩

/-- Of two timestamps or digests in a header the last counts. -/
example : (stripeParts "t=1,v1=a=b,v0,t=2").entries = [("t", "2"), ("v1", "a=b")] := by
  decide +kernel

end PaymentRecovery.Providers
