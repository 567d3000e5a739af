import PaymentRecovery.Providers.StripeHeader

/-!
# What verification decides

A header authenticates a body if it carries the digest. An adapter says so of the part of
the header it compares: for Stripe that is one `v1` element of several, and what is not
ASCII cannot be compared at all.
-/

namespace PaymentRecovery.Providers

open PaymentRecovery.Python

/-- The header authenticates the body: it carries the digest of what is signed. -/
def Authenticates (rt : Runtime) (adapter : Adapter) (body : ByteArray) (signature : String) : Prop :=
  match adapter with
  | .fake secret => signature = hexdigest (rt.hmacSha256 secret body)
  | .razorpay secret => signature = hexdigest (rt.hmacSha256 secret body)
  | .stripe secret => SignedByAny rt secret body signature

/-- What the digest is compared with is ASCII. -/
def Comparable (adapter : Adapter) (signature : String) : Prop :=
  match adapter with
  | .fake _ => isAscii signature = true
  | .razorpay _ => isAscii signature = true
  | .stripe _ => LastComparable signature

/-- Only Stripe's header has more elements than the adapter compares. -/
def LooksAtSigned (rt : Runtime) (adapter : Adapter) (body : ByteArray) (signature : String) : Prop :=
  match adapter with
  | .fake _ => True
  | .razorpay _ => True
  | .stripe secret => LastSigns rt secret body signature

/-- Verification answers, and says whether the header authenticates the body. -/
def Verifies (rt : Runtime) (adapter : Adapter) (body : ByteArray) (signature : String) : Prop :=
  ∃ answer, verifySignature rt adapter body signature = .ok answer ∧
    (answer = true ↔ Authenticates rt adapter body signature)

/-- A digest that is compared with the whole header. -/
theorem verifies_whole {rt : Runtime} {adapter : Adapter} {body : ByteArray} {signature : String}
    {digest : List UInt8}
    (hverify : verifySignature rt adapter body signature =
      compareDigest (hexdigest digest) signature)
    (hauth : Authenticates rt adapter body signature ↔ signature = hexdigest digest) :
    Verifies rt adapter body signature ↔ isAscii signature = true := by
  obtain ⟨hanswers, hraises⟩ := compareDigest_spec digest signature
  unfold Verifies
  rw [hverify, hauth]
  refine ⟨?_, fun hascii => ⟨_, hanswers hascii, decide_eq_true_iff⟩⟩
  rintro ⟨answer, hanswer, _⟩
  by_contra hascii
  obtain ⟨exc, hexc⟩ := hraises hascii
  rw [hexc] at hanswer
  cases hanswer

/-- Verification is right exactly where what it compares is ASCII, and is what signs the body if
anything in the header does. -/
theorem verifies_iff (rt : Runtime) (adapter : Adapter) (body : ByteArray) (signature : String) :
    Verifies rt adapter body signature ↔
      Comparable adapter signature ∧ LooksAtSigned rt adapter body signature := by
  cases adapter with
  | fake secret =>
    exact (verifies_whole rfl Iff.rfl).trans ⟨fun hascii => ⟨hascii, trivial⟩, And.left⟩
  | razorpay secret =>
    exact (verifies_whole rfl Iff.rfl).trans ⟨fun hascii => ⟨hascii, trivial⟩, And.left⟩
  | stripe secret => exact verifiesAny_lasts rt secret body signature

end PaymentRecovery.Providers
