import PaymentRecovery.Guardrails.Model
import PaymentRecovery.Python.Builtins

/-!
# Normalised provider types

What adapters answer, and the adapter itself as functions on the outer state
`τ`: every call may raise. A call with an effect also says whether the provider
applied the effect, which the code never learns from an exception.
-/

namespace PaymentRecovery.Providers

open PaymentRecovery.Python PaymentRecovery.Guardrails

inductive FailureReason where
  | insufficientFunds
  | cardDeclined
  | expiredCard
  | authenticationRequired
  | processingError
  | invalidDetails
  | riskBlocked
  | unknown
  deriving DecidableEq

/-- `reason.value`. -/
def FailureReason.value : FailureReason → String
  | .insufficientFunds => "insufficient_funds"
  | .cardDeclined => "card_declined"
  | .expiredCard => "expired_card"
  | .authenticationRequired => "authentication_required"
  | .processingError => "processing_error"
  | .invalidDetails => "invalid_details"
  | .riskBlocked => "risk_blocked"
  | .unknown => "unknown"

def FailureReason.all : List FailureReason :=
  [.insufficientFunds, .cardDeclined, .expiredCard, .authenticationRequired, .processingError,
    .invalidDetails, .riskBlocked, .unknown]

/-- `FailureReason(value)`. -/
def FailureReason.ofValue (value : String) : Except PyExc FailureReason :=
  match FailureReason.all.find? fun reason => reason.value = value with
  | some reason => .ok reason
  | none => .error ⟨.valueError, strRepr value ++ " is not a valid FailureReason"⟩

theorem FailureReason.ofValue_value (reason : FailureReason) :
    FailureReason.ofValue reason.value = .ok reason := by
  cases reason <;> rfl

inductive PaymentStatus where
  | created
  | authorized
  | captured
  | failed
  | refunded
  | partiallyRefunded
  deriving DecidableEq

def PaymentStatus.value : PaymentStatus → String
  | .created => "created"
  | .authorized => "authorized"
  | .captured => "captured"
  | .failed => "failed"
  | .refunded => "refunded"
  | .partiallyRefunded => "partially_refunded"

inductive PaymentMethod where
  | card
  | upi
  | netbanking
  | wallet
  | emi
  | unknown
  deriving DecidableEq

def PaymentMethod.value : PaymentMethod → String
  | .card => "card"
  | .upi => "upi"
  | .netbanking => "netbanking"
  | .wallet => "wallet"
  | .emi => "emi"
  | .unknown => "unknown"

def PaymentMethod.all : List PaymentMethod :=
  [.card, .upi, .netbanking, .wallet, .emi, .unknown]

inductive OrderStatus where
  | created
  | attempted
  | paid
  deriving DecidableEq

def OrderStatus.value : OrderStatus → String
  | .created => "created"
  | .attempted => "attempted"
  | .paid => "paid"

inductive RefundStatus where
  | pending
  | processed
  | failed
  deriving DecidableEq

def RefundStatus.value : RefundStatus → String
  | .pending => "pending"
  | .processed => "processed"
  | .failed => "failed"

inductive PaymentLinkStatus where
  | created
  | paid
  | expired
  | cancelled
  deriving DecidableEq

def PaymentLinkStatus.value : PaymentLinkStatus → String
  | .created => "created"
  | .paid => "paid"
  | .expired => "expired"
  | .cancelled => "cancelled"

/-- Normalised webhook event types. -/
inductive EventType where
  | paymentFailed
  | paymentAuthorized
  | paymentCaptured
  | refundProcessed
  | other
  deriving DecidableEq

def EventType.value : EventType → String
  | .paymentFailed => "payment_failed"
  | .paymentAuthorized => "payment_authorized"
  | .paymentCaptured => "payment_captured"
  | .refundProcessed => "refund_processed"
  | .other => "other"

def EventType.all : List EventType :=
  [.paymentFailed, .paymentAuthorized, .paymentCaptured, .refundProcessed, .other]

/-- `EventType(value)`. -/
def EventType.ofValue (value : String) : Except PyExc EventType :=
  match EventType.all.find? fun type => type.value = value with
  | some type => .ok type
  | none => .error ⟨.valueError, strRepr value ++ " is not a valid EventType"⟩

theorem EventType.ofValue_value (type : EventType) :
    EventType.ofValue type.value = .ok type := by
  cases type <;> rfl

/-- A value that reads as a type spells it. -/
theorem EventType.value_of_ofValue {value : String} {type : EventType}
    (h : EventType.ofValue value = .ok type) : value = type.value := by
  unfold EventType.ofValue at h
  split at h
  · rename_i found hfound
    injection h with h
    have hspelled := List.find?_some hfound
    rw [← h]
    exact (of_decide_eq_true hspelled).symm
  · cases h

/-- A payment, normalised. `amountInr` is rupees. -/
structure Payment where
  id : String
  amountInr : ℚ
  status : PaymentStatus
  method : PaymentMethod
  orderId : Option String
  customerId : Option String
  failureReason : Option FailureReason
  createdAt : Option Time

structure Order where
  id : String
  amountInr : ℚ
  status : OrderStatus

/-- Aggregate payment history for one customer. -/
structure CustomerHistory where
  customerId : String
  totalPayments : Int
  successfulPayments : Int
  failedPayments : Int

structure PaymentLink where
  id : String
  shortUrl : String
  status : PaymentLinkStatus

structure Refund where
  id : String
  amountInr : ℚ
  status : RefundStatus

/-- A provider webhook after signature check and normalisation. -/
structure NormalisedEvent where
  provider : String
  eventId : String
  eventType : EventType
  paymentId : String
  amountInr : ℚ
  failureReason : Option FailureReason
  occurredAt : Option Time

/-- How a call with an effect ends: whether the provider applied the effect, and what
the caller is told. -/
structure EffectReply (α : Type) where
  applied : Bool
  reply : Except PyExc α

/-- A provider adapter over the outer state `τ`. -/
structure PaymentProvider (τ : Type) where
  name : String
  getPayment : String → τ → Except PyExc Payment × τ
  getOrder : String → τ → Except PyExc Order × τ
  getCustomerHistory : String → τ → Except PyExc CustomerHistory × τ
  createPaymentLink : (amountInr : ℚ) → (referenceId : String) → τ → EffectReply PaymentLink × τ
  refundPayment : (paymentId : String) → (amountInr : ℚ) → (idempotencyKey : String) → τ →
    EffectReply Refund × τ

end PaymentRecovery.Providers
