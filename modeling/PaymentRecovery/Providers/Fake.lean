import PaymentRecovery.Lib.Dict
import PaymentRecovery.Providers.Types

/-!
# The in-memory provider

Payments, orders and histories are seeded, and found again under their ids. Links and refunds
are numbered from one; nothing else of the provider changes when one is made.
-/

namespace PaymentRecovery.Providers

open PaymentRecovery.Python PaymentRecovery.Guardrails PaymentRecovery.Lib

variable {α β σ : Type}

/-- A deterministic, network-free provider implementing the full contract. -/
structure FakeProvider where
  payments : Dict String Payment
  orders : Dict String Order
  histories : Dict String CustomerHistory
  linkSeq : Nat
  refundSeq : Nat

namespace FakeProvider

def new : FakeProvider := ⟨.empty, .empty, .empty, 0, 0⟩

def addPayment (payment : Payment) (fake : FakeProvider) : FakeProvider :=
  { fake with payments := fake.payments.set payment.id payment }

/-- What is held under an id, or `ResourceNotFound`. -/
def lookUp (kind : String) (table : Dict String α) (id : String) : Except PyExc α :=
  match table.get? id with
  | some value => .ok value
  | none => .error ⟨.resourceNotFound, kind ++ " " ++ strRepr id ++ " not found"⟩

def getPayment (id : String) (fake : FakeProvider) : Except PyExc Payment × FakeProvider :=
  (lookUp "payment" fake.payments id, fake)

def getOrder (id : String) (fake : FakeProvider) : Except PyExc Order × FakeProvider :=
  (lookUp "order" fake.orders id, fake)

def getCustomerHistory (id : String) (fake : FakeProvider) :
    Except PyExc CustomerHistory × FakeProvider :=
  (lookUp "customer" fake.histories id, fake)

def createPaymentLink (_amountInr : ℚ) (_referenceId : String) (fake : FakeProvider) :
    EffectReply PaymentLink × FakeProvider :=
  let linkId := "plink_fake_" ++ toString (fake.linkSeq + 1)
  (⟨true, .ok ⟨linkId, "https://fake.pay/" ++ linkId, .created⟩⟩,
    { fake with linkSeq := fake.linkSeq + 1 })

def refundPayment (_paymentId : String) (amountInr : ℚ) (_idempotencyKey : String)
    (fake : FakeProvider) : EffectReply Refund × FakeProvider :=
  (⟨true, .ok ⟨"rfnd_fake_" ++ toString (fake.refundSeq + 1), amountInr, .processed⟩⟩,
    { fake with refundSeq := fake.refundSeq + 1 })

end FakeProvider

/-! ## Beside a world outside -/

/-- A call on the first part of a state. -/
def onFirst (f : α → β × α) (state : α × σ) : β × (α × σ) :=
  ((f state.1).1, (f state.1).2, state.2)

/-- A call on the second part of a state. -/
def onSecond (f : σ → β × σ) (state : α × σ) : β × (α × σ) :=
  ((f state.2).1, state.1, (f state.2).2)

/-- The in-memory provider as an adapter: its data are the first part of the outer state. -/
def FakeProvider.adapter (name : String) : PaymentProvider (FakeProvider × σ) where
  name := name
  getPayment id := onFirst (FakeProvider.getPayment id)
  getOrder id := onFirst (FakeProvider.getOrder id)
  getCustomerHistory id := onFirst (FakeProvider.getCustomerHistory id)
  createPaymentLink amount reference := onFirst (FakeProvider.createPaymentLink amount reference)
  refundPayment id amount key := onFirst (FakeProvider.refundPayment id amount key)

/-- An adapter of the world outside, which knows nothing of what is in memory. -/
def PaymentProvider.outside (provider : PaymentProvider σ) : PaymentProvider (α × σ) where
  name := provider.name
  getPayment id := onSecond (provider.getPayment id)
  getOrder id := onSecond (provider.getOrder id)
  getCustomerHistory id := onSecond (provider.getCustomerHistory id)
  createPaymentLink amount reference := onSecond (provider.createPaymentLink amount reference)
  refundPayment id amount key := onSecond (provider.refundPayment id amount key)

end PaymentRecovery.Providers
