import Mathlib.Data.Rat.Floor
import Mathlib.Tactic.Linarith
import Mathlib.Tactic.NormNum
import PaymentRecovery.Providers.Webhooks
import PaymentRecovery.Python.JsonValues

/-!
# Senders

Who writes the webhooks that the adapters read: the fake provider, and the script that posts a
Razorpay event by hand. What they write is read back as they meant it; an amount in paise is the
nearest there is.
-/

namespace PaymentRecovery.Providers

open PaymentRecovery.Python PaymentRecovery.Guardrails

/-- How a body is written as bytes, and a time as a text. -/
structure Writing where
  jsonDumps : PyVal → ByteArray
  isoformat : Time → String

/-- The document is read back, if it is JSON, and so is the time. -/
structure Writing.ReadBy (wr : Writing) (rt : Runtime) (document : PyVal) (t : Time) : Prop where
  json : IsJson document → rt.jsonLoads (wr.jsonDumps document) = .ok document
  time : wr.isoformat t ≠ "" ∧ rt.fromIsoformat (.str (wr.isoformat t)) = .ok t

/-- `sign`, of the fake provider and of the script. -/
def sign (rt : Runtime) (secret body : ByteArray) : String := hexdigest (rt.hmacSha256 secret body)

/-- The body of `build_failed_event_payload`; `now` is what the clock reads. -/
def failedEventBody (wr : Writing) (eventId paymentId : String) (amountInr : ℚ)
    (failureReason : FailureReason) (method : PaymentMethod) (occurredAt : Option Time)
    (now : Time) : PyVal :=
  let occurred := occurredAt.getD now
  .record [("event_id", .str eventId), ("event", .str "payment.failed"),
    ("payment_id", .str paymentId), ("amount_inr", .float amountInr),
    ("failure_reason", .str failureReason.value), ("method", .str method.value),
    ("occurred_at", .str (wr.isoformat occurred))]

/-- `FakeProvider.build_failed_event_payload`. -/
def buildFailedEventPayload (wr : Writing) (eventId paymentId : String) (amountInr : ℚ)
    (failureReason : FailureReason) (method : PaymentMethod) (occurredAt : Option Time)
    (now : Time) : ByteArray :=
  wr.jsonDumps (failedEventBody wr eventId paymentId amountInr failureReason method occurredAt now)

/-- The entity of the script's body. -/
def razorpayEntity (paymentId : String) (amountInr : ℚ) (errorReason method : String)
    (customerId : Option String) (now : Int) : PyVal :=
  .record ([("id", .str paymentId), ("entity", .str "payment"),
    ("amount", .int (roundHalfEven (amountInr * 100))), ("currency", .str "INR"),
    ("status", .str "failed"), ("method", .str method), ("error_reason", .str errorReason),
    ("created_at", .int now)] ++
    match customerId with
    | none => []
    | some id => if id = "" then [] else [("customer_id", .str id)])

/-- The body of `build_payload`; `now` is `int(time.time())`. -/
def razorpayBody (paymentId : String) (amountInr : ℚ) (errorReason method : String)
    (customerId : Option String) (now : Int) : PyVal :=
  .record [("entity", .str "event"), ("event", .str "payment.failed"),
    ("payload", .record [("payment", .record [("entity",
      razorpayEntity paymentId amountInr errorReason method customerId now)])])]

/-- `build_payload` of the script. -/
def buildPayload (wr : Writing) (paymentId : String) (amountInr : ℚ) (errorReason method : String)
    (customerId : Option String) (now : Int) : ByteArray :=
  wr.jsonDumps (razorpayBody paymentId amountInr errorReason method customerId now)

/-- How a header travels: in Latin-1. -/
def encodeLatin1 (text : String) : List UInt8 := text.toList.map fun c => UInt8.ofNat c.toNat

/-! ## Amounts in paise -/

/-- Rounding is to a nearest whole number. -/
theorem roundHalfEven_near (x : ℚ) : |(roundHalfEven x : ℚ) - x| ≤ 1 / 2 := by
  have hlow : ((x.floor : Int) : ℚ) ≤ x := Int.floor_le x
  have hhigh : x < (x.floor : Int) + 1 := Int.lt_floor_add_one x
  unfold roundHalfEven
  dsimp only
  rw [abs_le]
  split_ifs with hdown hup heven
  · constructor <;> linarith
  · push_cast
    constructor <;> linarith
  · constructor <;> linarith
  · push_cast
    constructor <;> linarith

/-- Whole numbers stay as they are. -/
theorem roundHalfEven_int (n : Int) : roundHalfEven (n : ℚ) = n := by
  unfold roundHalfEven
  have hfloor : (n : ℚ).floor = n := Rat.floor_intCast n
  simp only [hfloor, sub_self]
  norm_num

/-! ## Read back -/

/-- A header whose characters are Latin-1 arrives as it was. -/
theorem decodeLatin1_encodeLatin1 {text : String} (h : ∀ c ∈ text.toList, c.toNat < 256) :
    decodeLatin1 (encodeLatin1 text) = text := by
  unfold decodeLatin1 encodeLatin1
  rw [List.map_map, List.map_congr_left (g := id) fun c hc => ?_, List.map_id, String.ofList_toList]
  show Char.ofNat (UInt8.ofNat c.toNat).toNat = c
  rw [UInt8.toNat_ofNat', Nat.mod_eq_of_lt (h c hc), Char.ofNat_toNat]

variable {rt : Runtime} {wr : Writing}

theorem FailureReason.fromCode_value (reason : FailureReason) :
    FailureReason.fromCode (.str reason.value) = reason := by
  cases reason <;> decide

/-- The fake provider reads its own bodies. The id in the header goes first. -/
theorem parseFake_built (eventId paymentId : String) (amountInr : ℚ)
    (failureReason : FailureReason) (method : PaymentMethod) (occurredAt : Option Time)
    (now : Time) (h : wr.ReadBy rt (failedEventBody wr eventId paymentId amountInr failureReason
      method occurredAt now) (occurredAt.getD now)) (header : Option String) :
    ∃ id, eventIdOr header (.ok (.str eventId)) = .ok (.str id) ∧
      parseFake rt (buildFailedEventPayload wr eventId paymentId amountInr failureReason method
        occurredAt now) header =
        .ok ⟨"fake", .str id, .paymentFailed, .str paymentId, amountInr, some failureReason,
          some (occurredAt.getD now)⟩ := by
  have hid : ∃ id, eventIdOr header (.ok (.str eventId)) = .ok (.str id) := by
    unfold eventIdOr
    cases header with
    | none => exact ⟨eventId, rfl⟩
    | some id =>
      by_cases hempty : id = ""
      · exact ⟨eventId, if_pos hempty⟩
      · exact ⟨id, if_neg hempty⟩
  obtain ⟨id, hid⟩ := hid
  refine ⟨id, hid, ?_⟩
  have hjson : IsJson (failedEventBody wr eventId paymentId amountInr failureReason method
      occurredAt now) := by
    refine isJson_record ?_ fun item hitem => ?_
    · simp only [List.map_cons, List.map_nil]
      decide
    · simp only [List.mem_cons, List.not_mem_nil, or_false] at hitem
      rcases hitem with rfl | rfl | rfl | rfl | rfl | rfl | rfl <;> trivial
  obtain ⟨hne, htime⟩ := h.time
  have htruthy : truthy (.str (wr.isoformat (occurredAt.getD now))) = true := by
    simp [truthy, hne]
  unfold parseFake buildFailedEventPayload
  rw [h.json hjson]
  -- what the adapter looks up is what was written
  have hoccurred : getKey (failedEventBody wr eventId paymentId amountInr failureReason method
      occurredAt now) "occurred_at" .none = .ok (.str (wr.isoformat (occurredAt.getD now))) := rfl
  have hevent : getItem (failedEventBody wr eventId paymentId amountInr failureReason method
      occurredAt now) "event_id" = .ok (.str eventId) := rfl
  have htype : getKey (failedEventBody wr eventId paymentId amountInr failureReason method
      occurredAt now) "event" (.str "") = .ok (.str "payment.failed") := rfl
  have hpayment : getItem (failedEventBody wr eventId paymentId amountInr failureReason method
      occurredAt now) "payment_id" = .ok (.str paymentId) := rfl
  have hamount : getItem (failedEventBody wr eventId paymentId amountInr failureReason method
      occurredAt now) "amount_inr" = .ok (.float amountInr) := rfl
  have hreason : getKey (failedEventBody wr eventId paymentId amountInr failureReason method
      occurredAt now) "failure_reason" .none = .ok (.str failureReason.value) := rfl
  have htable : tableGet eventTypes (.str "payment.failed") = .ok (some .paymentFailed) := rfl
  have hfloat : floatOf rt.floatOfText (.float amountInr) = .ok amountInr := rfl
  simp only [bind, Except.bind, hoccurred, hevent, htype, hpayment, hamount, hreason, htable,
    hfloat, hid, htruthy, if_true, htime, FailureReason.fromCode_value]
  rfl

/-- The adapter reads what the script writes. -/
theorem parseRazorpay_built {eventId : String} (hevent : eventId ≠ "") (paymentId : String)
    (amountInr : ℚ) (errorReason method : String) (customerId : Option String) {now : Int}
    (hnow : now ≠ 0) {sent : Time}
    (h : wr.ReadBy rt (razorpayBody paymentId amountInr errorReason method customerId now) sent)
    (hsent : rt.fromTimestamp (.int now) = .ok sent)
    (hfinite : (roundHalfEven (amountInr * 100)).natAbs < floatOverflow) :
    parseRazorpay rt (buildPayload wr paymentId amountInr errorReason method customerId now)
      (some eventId) =
      .ok ⟨"razorpay", .str eventId, .paymentFailed, .str paymentId,
        (roundHalfEven (amountInr * 100) : ℚ) / 100,
        some (((razorpayReasons.find? fun entry => entry.1 = errorReason).map Prod.snd).getD
          .unknown), some sent⟩ := by
  have hentity : IsJson (razorpayEntity paymentId amountInr errorReason method customerId now) := by
    unfold razorpayEntity
    refine isJson_record ?_ fun item hitem => ?_
    · cases customerId with
      | none => simp
      | some id => by_cases hempty : id = "" <;> simp [hempty]
    · rcases List.mem_append.mp hitem with hmem | hmem
      · simp only [List.mem_cons, List.not_mem_nil, or_false] at hmem
        rcases hmem with rfl | rfl | rfl | rfl | rfl | rfl | rfl | rfl <;> trivial
      · revert hmem
        cases customerId with
        | none => exact fun hmem => absurd hmem List.not_mem_nil
        | some id =>
          by_cases hempty : id = ""
          · simp [hempty]
          · intro hmem
            replace hmem : item ∈ [("customer_id", PyVal.str id)] := by simpa [hempty] using hmem
            rw [List.mem_singleton.mp hmem]
            trivial
  have hjson : IsJson (razorpayBody paymentId amountInr errorReason method customerId now) := by
    have hone : ∀ (name : String) (value : PyVal), IsJson value →
        IsJson (.record [(name, value)]) :=
      fun name value hvalue => isJson_record (by simp) fun item hitem => by
        rw [List.mem_singleton.mp hitem]
        exact hvalue
    refine isJson_record (by simp) fun item hitem => ?_
    simp only [List.mem_cons, List.not_mem_nil, or_false] at hitem
    rcases hitem with rfl | rfl | rfl
    · trivial
    · trivial
    · exact hone _ _ (hone _ _ hentity)
  have hid : ∀ fallback, eventIdOr (some eventId) fallback = .ok (.str eventId) :=
    fun _ => if_neg hevent
  have hminor : minorToInr rt (.int (roundHalfEven (amountInr * 100))) =
      .ok ((roundHalfEven (amountInr * 100) : ℚ) / 100) := by
    have hint : intOf rt.intOfText (.int (roundHalfEven (amountInr * 100))) =
        .ok (roundHalfEven (amountInr * 100)) := rfl
    have hfloat : toFloat (.int (roundHalfEven (amountInr * 100))) =
        .ok (roundHalfEven (amountInr * 100) : ℚ) := by
      unfold toFloat
      exact if_pos hfinite
    unfold minorToInr
    simp only [bind, Except.bind, hint, hfloat]
    rfl
  have hdt : tsToDt rt (.int now) = .ok (some sent) := by
    unfold tsToDt
    rw [if_pos (by simp [truthy, hnow]), hsent]
    rfl
  unfold parseRazorpay buildPayload
  rw [h.json hjson]
  unfold razorpayBody
  generalize hmade : razorpayEntity paymentId amountInr errorReason method customerId now = entity
  have hpath : getKey (.record [("entity", .str "event"), ("event", .str "payment.failed"),
      ("payload", .record [("payment", .record [("entity", entity)])])]) "payload" (.dict []) =
      .ok (.record [("payment", .record [("entity", entity)])]) := rfl
  have htype : getKey (.record [("entity", .str "event"), ("event", .str "payment.failed"),
      ("payload", .record [("payment", .record [("entity", entity)])])]) "event" (.str "") =
      .ok (.str "payment.failed") := rfl
  have hpayment : getKey (.record [("payment", .record [("entity", entity)])]) "payment"
      (.dict []) = .ok (.record [("entity", entity)]) := rfl
  have hinner : getKey (.record [("entity", entity)]) "entity" (.dict []) = .ok entity := rfl
  have hpaymentId : getKey entity "id" (.str "") = .ok (.str paymentId) := by rw [← hmade]; rfl
  have hamount : getKey entity "amount" (.int 0) =
      .ok (.int (roundHalfEven (amountInr * 100))) := by rw [← hmade]; rfl
  have hstatus : getKey entity "status" .none = .ok (.str "failed") := by rw [← hmade]; rfl
  have hreason : getKey entity "error_reason" .none = .ok (.str errorReason) := by
    rw [← hmade]; rfl
  have hcreated : getKey entity "created_at" .none = .ok (.int now) := by rw [← hmade]; rfl
  have htable : tableGet eventTypes (.str "payment.failed") = .ok (some .paymentFailed) := rfl
  have hreasons : tableGet razorpayReasons (.str errorReason) =
      .ok ((razorpayReasons.find? fun entry => entry.1 = errorReason).map Prod.snd) := rfl
  have hfailed : scalarEq (.str "failed") (.str "failed") = true := by decide
  simp only [bind, Except.bind, hpath, htype, hpayment, hinner, hid, htable, hpaymentId, hamount,
    hminor, hstatus, hfailed, if_true, hreason, hreasons, hcreated, hdt]
  rfl

end PaymentRecovery.Providers
