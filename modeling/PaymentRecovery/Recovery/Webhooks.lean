import PaymentRecovery.Providers.Verification
import PaymentRecovery.Recovery.Database

/-!
# The webhook receiver

A request is checked at the boundary, its body is stored, and what it says is
normalised as far as that goes. Nothing after the signature check changes the
answer.
-/

namespace PaymentRecovery.Recovery

open PaymentRecovery.Python PaymentRecovery.Providers PaymentRecovery.Lib

/-- An inbound webhook, as it is stored before any processing. -/
structure RawWebhookEvent where
  id : Nat
  provider : String
  eventId : String
  eventType : String
  signatureVerified : Bool
  payload : String

/-- What the receiver writes: raw events, the tables, and the background tasks of
`pipeline.process`. -/
structure Inbox where
  raw : List RawWebhookEvent
  db : Database
  scheduled : List Nat

/-- A request: the body, and the first value of a header as it came. -/
structure WebhookRequest where
  body : ByteArray
  header : String → Option (List UInt8)

inductive WebhookResponse where
  | ok
  | badRequest
  | notFound
  deriving DecidableEq

def WebhookResponse.status : WebhookResponse → Nat
  | .ok => 200
  | .badRequest => 400
  | .notFound => 404

/-- How the database answers the insert: what a text column makes of a value, and whether the
commit goes through. -/
structure InsertAnswers where
  bindText : PyVal → Except PyExc String
  commit : Except PyExc Unit

/-- `request.headers.get(signature_header, "")`. -/
def signatureOf (adapter : Adapter) (request : WebhookRequest) : String :=
  ((request.header adapter.signatureHeader).map decodeLatin1).getD ""

/-- `request.headers.get(event_id_header)`, where the adapter has one. -/
def eventIdOf (adapter : Adapter) (request : WebhookRequest) : Option String :=
  adapter.eventIdHeader.bind fun name => (request.header name).map decodeLatin1

/-- `_persist_raw`. -/
def persistRaw (providerName : String) (body : ByteArray) (eventId : Option String)
    (eventType : String) (inbox : Inbox) : Inbox :=
  { inbox with
    raw := inbox.raw ++ [{
      id := inbox.raw.length + 1
      provider := providerName
      eventId := eventId.getD ""
      eventType := eventType
      signatureVerified := true
      payload := decodeReplace body }] }

/-- `_persist_internal`: the new row's id; an insert that fails is rolled back. -/
def persistInternal (answers : InsertAnswers) (event : ParsedEvent) (db : Database) :
    Except PyExc Nat × Database :=
  let bound : Except PyExc NormalisedEvent := do
    let eventId ← answers.bindText event.eventId
    let paymentId ← answers.bindText event.paymentId
    answers.commit
    return ⟨event.provider, eventId, event.eventType, paymentId, event.amountInr,
      event.failureReason, event.occurredAt⟩
  match bound with
  | .error exc => (.error exc, db)
  | .ok row => ((.ok (db.persistInternal row).1), (db.persistInternal row).2)

/-- What follows the raw event: normalisation, and scheduling if there is a pipeline. -/
def normaliseAndSchedule (rt : Runtime) (answers : InsertAnswers) (pipeline : Bool)
    (adapter : Adapter) (body : ByteArray) (eventId : Option String) (inbox : Inbox) : Inbox :=
  match parseEvent rt adapter body eventId with
  | .error _ => inbox
  | .ok event =>
    match persistInternal answers event inbox.db with
    | (.error _, db) => { inbox with db := db }
    | (.ok internalId, db) =>
      if pipeline ∧ event.eventType = .paymentFailed then
        { inbox with db := db, scheduled := inbox.scheduled ++ [internalId] }
      else { inbox with db := db }

/-- `receive_webhook`: the answer, or the exception that escapes. -/
def receiveWebhook (rt : Runtime) (answers : InsertAnswers) (registry : Dict String Adapter)
    (pipeline : Bool) (providerName : String) (request : WebhookRequest) (inbox : Inbox) :
    Except PyExc WebhookResponse × Inbox :=
  match registry.get? providerName with
  | none => (.ok .notFound, inbox)
  | some adapter =>
    match verifySignature rt adapter request.body (signatureOf adapter request) with
    | .error exc => (.error exc, inbox)
    | .ok false => (.ok .badRequest, inbox)
    | .ok true =>
      let eventId := eventIdOf adapter request
      (.ok .ok, normaliseAndSchedule rt answers pipeline adapter request.body eventId
        (persistRaw providerName request.body eventId "" inbox))

variable {rt : Runtime} {answers : InsertAnswers} {registry : Dict String Adapter}
  {pipeline : Bool} {providerName : String} {adapter : Adapter} {request : WebhookRequest}
  {inbox : Inbox}

theorem persistInternal_error {event : ParsedEvent} {db : Database} {exc : PyExc}
    (h : (persistInternal answers event db).1 = .error exc) :
    (persistInternal answers event db).2 = db := by
  unfold persistInternal at h ⊢
  dsimp only at h ⊢
  split at h
  · rfl
  · cases h

/-- An insert that succeeds adds one row, numbered after the others. -/
theorem persistInternal_ok {event : ParsedEvent} {db : Database} {id : Nat}
    (h : (persistInternal answers event db).1 = .ok id) :
    ∃ row, row.id = id ∧ row.eventType = event.eventType.value ∧
      (persistInternal answers event db).2 = { db with events := db.events ++ [row] } := by
  unfold persistInternal at h ⊢
  dsimp only at h ⊢
  split at h
  · cases h
  · rename_i row hbound
    injection h with h
    have htype : row.eventType = event.eventType := by
      cases heventId : answers.bindText event.eventId with
      | error exc =>
        rw [heventId] at hbound
        cases hbound
      | ok eventId =>
        cases hpaymentId : answers.bindText event.paymentId with
        | error exc =>
          rw [heventId, hpaymentId] at hbound
          cases hbound
        | ok paymentId =>
          cases hcommit : answers.commit with
          | error exc =>
            rw [heventId, hpaymentId, hcommit] at hbound
            cases hbound
          | ok _ =>
            rw [heventId, hpaymentId, hcommit] at hbound
            injection hbound with hbound
            rw [← hbound]
    exact ⟨_, h, congrArg EventType.value htype, rfl⟩

/-- The raw events stay as they are from there on. -/
theorem normaliseAndSchedule_raw (body : ByteArray) (eventId : Option String) :
    (normaliseAndSchedule rt answers pipeline adapter body eventId inbox).raw = inbox.raw := by
  unfold normaliseAndSchedule
  split
  · rfl
  · split
    · rfl
    · split <;> rfl

theorem receive_registered (hregistered : registry.get? providerName = some adapter) :
    receiveWebhook rt answers registry pipeline providerName request inbox =
      match verifySignature rt adapter request.body (signatureOf adapter request) with
      | .error exc => (.error exc, inbox)
      | .ok false => (.ok .badRequest, inbox)
      | .ok true => (.ok .ok, normaliseAndSchedule rt answers pipeline adapter request.body
          (eventIdOf adapter request)
          (persistRaw providerName request.body (eventIdOf adapter request) "" inbox)) := by
  unfold receiveWebhook
  rw [hregistered]

/-! ## The boundary -/

/-- One more internal event: of this id and type. -/
def OneMore (before after : Database) (id : Nat) (type : EventType) : Prop :=
  ∃ row, row.id = id ∧ row.eventType = type.value ∧
    after = { before with events := before.events ++ [row] }

/-- The event and the id its row gets, if `parse_event` and the insert succeed. -/
def normalised (rt : Runtime) (answers : InsertAnswers) (adapter : Adapter)
    (request : WebhookRequest) (db : Database) : Option (ParsedEvent × Nat) :=
  match parseEvent rt adapter request.body (eventIdOf adapter request) with
  | .error _ => none
  | .ok event =>
    match (persistInternal answers event db).1 with
    | .error _ => none
    | .ok id => some (event, id)

/-- The contract: an answer of 400 and nothing else, if the header does not authenticate the body;
if it does, 200, one raw event, and an internal event and a task as far as the body has them. -/
structure Boundary (rt : Runtime) (answers : InsertAnswers) (adapter : Adapter)
    (request : WebhookRequest) (before : Inbox) (answer : Except PyExc WebhookResponse)
    (after : Inbox) : Prop where
  refused : ¬ Authenticates rt adapter request.body (signatureOf adapter request) →
    answer = .ok .badRequest ∧ after = before
  answered : Authenticates rt adapter request.body (signatureOf adapter request) →
    answer = .ok .ok ∧ ∃ row, after.raw = before.raw ++ [row]
  kept : Authenticates rt adapter request.body (signatureOf adapter request) →
    ∀ event id, normalised rt answers adapter request before.db = some (event, id) →
      OneMore before.db after.db id event.eventType ∧
      (event.eventType = .paymentFailed → after.scheduled = before.scheduled ++ [id]) ∧
      (event.eventType ≠ .paymentFailed → after.scheduled = before.scheduled)
  lost : Authenticates rt adapter request.body (signatureOf adapter request) →
    normalised rt answers adapter request before.db = none →
      after.db = before.db ∧ after.scheduled = before.scheduled

/-- After the raw event, a body that normalises adds its event and its task. -/
theorem normaliseAndSchedule_some {event : ParsedEvent} {id : Nat}
    (h : normalised rt answers adapter request inbox.db = some (event, id)) :
    let after := normaliseAndSchedule rt answers true adapter request.body
      (eventIdOf adapter request) inbox
    OneMore inbox.db after.db id event.eventType ∧
    (event.eventType = .paymentFailed → after.scheduled = inbox.scheduled ++ [id]) ∧
    (event.eventType ≠ .paymentFailed → after.scheduled = inbox.scheduled) := by
  unfold normalised at h
  unfold normaliseAndSchedule
  cases hparse : parseEvent rt adapter request.body (eventIdOf adapter request) with
  | error exc =>
    rw [hparse] at h
    cases h
  | ok parsed =>
    rw [hparse] at h
    dsimp only at h ⊢
    cases hinsert : (persistInternal answers parsed inbox.db).1 with
    | error exc =>
      rw [hinsert] at h
      cases h
    | ok internalId =>
      rw [hinsert] at h
      injection h with h
      injection h with hevent hid
      subst hevent hid
      obtain ⟨row, hrowid, htype, hdb⟩ := persistInternal_ok hinsert
      have hpair : persistInternal answers parsed inbox.db =
          (.ok internalId, (persistInternal answers parsed inbox.db).2) := Prod.ext hinsert rfl
      rw [hpair]
      dsimp only
      by_cases hfailed : parsed.eventType = .paymentFailed
      · rw [if_pos ⟨rfl, hfailed⟩]
        exact ⟨⟨row, hrowid, htype, hdb⟩, fun _ => rfl, fun hne => absurd hfailed hne⟩
      · rw [if_neg fun hboth => hfailed hboth.2]
        exact ⟨⟨row, hrowid, htype, hdb⟩, fun heq => absurd heq hfailed, fun _ => rfl⟩

/-- One that does not normalise adds nothing. -/
theorem normaliseAndSchedule_none (h : normalised rt answers adapter request inbox.db = none) :
    normaliseAndSchedule rt answers pipeline adapter request.body (eventIdOf adapter request) inbox =
      inbox := by
  unfold normalised at h
  unfold normaliseAndSchedule
  cases hparse : parseEvent rt adapter request.body (eventIdOf adapter request) with
  | error exc => rfl
  | ok parsed =>
    rw [hparse] at h
    dsimp only at h ⊢
    cases hinsert : (persistInternal answers parsed inbox.db).1 with
    | error exc =>
      have hpair : persistInternal answers parsed inbox.db = (.error exc, inbox.db) :=
        Prod.ext hinsert (persistInternal_error hinsert)
      rw [hpair]
    | ok internalId =>
      rw [hinsert] at h
      cases h

/-- Without an answer the contract is broken, whatever the header. -/
theorem Boundary.not_raised {exc : PyExc} {after : Inbox} :
    ¬ Boundary rt answers adapter request inbox (.error exc) after := by
  intro h
  by_cases hauth : Authenticates rt adapter request.body (signatureOf adapter request)
  · obtain ⟨hok, _⟩ := h.answered hauth
    cases hok
  · obtain ⟨hbad, _⟩ := h.refused hauth
    cases hbad

/-- A refusal that changes nothing keeps the contract exactly for what is not authentic. -/
theorem boundary_refused : Boundary rt answers adapter request inbox (.ok .badRequest) inbox ↔
    ¬ Authenticates rt adapter request.body (signatureOf adapter request) := by
  refine ⟨fun h hauth => ?_, fun hnot => ?_⟩
  · obtain ⟨hok, _⟩ := h.answered hauth
    cases hok
  · exact ⟨fun _ => ⟨rfl, rfl⟩, fun h => absurd h hnot, fun h => absurd h hnot,
      fun h => absurd h hnot⟩

/-- Storing the body and answering 200 keeps it exactly for what is. -/
theorem boundary_taken : Boundary rt answers adapter request inbox (.ok .ok)
      (normaliseAndSchedule rt answers true adapter request.body (eventIdOf adapter request)
        (persistRaw providerName request.body (eventIdOf adapter request) "" inbox)) ↔
    Authenticates rt adapter request.body (signatureOf adapter request) := by
  refine ⟨fun h => ?_, fun hauth => ?_⟩
  · by_contra hnot
    obtain ⟨hbad, _⟩ := h.refused hnot
    cases hbad
  · refine ⟨fun h => absurd hauth h, fun _ => ⟨rfl, _, normaliseAndSchedule_raw _ _⟩, ?_, ?_⟩
    · exact fun _ event id hsome => normaliseAndSchedule_some hsome
    · intro _ hnone
      have hstay : normaliseAndSchedule rt answers true adapter request.body
          (eventIdOf adapter request)
          (persistRaw providerName request.body (eventIdOf adapter request) "" inbox) =
            persistRaw providerName request.body (eventIdOf adapter request) "" inbox :=
        normaliseAndSchedule_none hnone
      rw [hstay]
      exact ⟨rfl, rfl⟩

/-- The contract is a matter of verification alone: nothing after it changes the answer. -/
theorem boundary_iff_verifies (hregistered : registry.get? providerName = some adapter) :
    Boundary rt answers adapter request inbox
        (receiveWebhook rt answers registry true providerName request inbox).1
        (receiveWebhook rt answers registry true providerName request inbox).2 ↔
      Verifies rt adapter request.body (signatureOf adapter request) := by
  rw [receive_registered hregistered]
  cases hverify : verifySignature rt adapter request.body (signatureOf adapter request) with
  | error exc =>
    refine iff_of_false Boundary.not_raised ?_
    rintro ⟨answer, hanswer, _⟩
    rw [hverify] at hanswer
    cases hanswer
  | ok answer =>
    refine Iff.trans ?_ (right_answer_iff hverify).symm
    cases answer with
    | false => exact boundary_refused.trans (by simp)
    | true => exact boundary_taken.trans (by simp)

/-- **The webhook boundary.** For a registered provider of a running app: the contract is kept if
and only if what the digest is compared with is ASCII and, for Stripe, the last elements sign the
body if any do. A header that is not ASCII makes the comparison raise, and no answer is given;
one that signs the body before its last elements is refused. -/
theorem webhook_boundary_iff (hregistered : registry.get? providerName = some adapter) :
    (Boundary rt answers adapter request inbox
        (receiveWebhook rt answers registry true providerName request inbox).1
        (receiveWebhook rt answers registry true providerName request inbox).2 ↔
      Comparable adapter (signatureOf adapter request) ∧
      LooksAtSigned rt adapter request.body (signatureOf adapter request)) :=
  (boundary_iff_verifies hregistered).trans (verifies_iff _ _ _ _)

/-- `{}` in UTF-16, as it starts with a byte order mark. -/
def Sample.wideObject : ByteArray := ⟨#[0xFF, 0xFE, 0x7B, 0x00, 0x7D, 0x00]⟩

/-- A runtime with a constant digest, that reads one JSON text. -/
def Sample.runtime : Runtime where
  hmacSha256 _ _ := [0xAB]
  jsonLoads body :=
    if body.data.toList = Sample.wideObject.data.toList then .ok (.dict [])
    else .error ⟨.jsonDecodeError, "Expecting value"⟩
  intOfText text := .error ⟨.valueError, text⟩
  floatOfText text := .error ⟨.valueError, text⟩
  fromTimestamp _ := .error ⟨.valueError, "year is out of range"⟩
  fromIsoformat _ := .error ⟨.valueError, "Invalid isoformat string"⟩

def Sample.insertAnswers : InsertAnswers where
  bindText value := .ok value.text
  commit := .ok ()

/-- The fake provider alone. -/
def Sample.fakeOnly : Dict String Adapter := Dict.empty.set "fake" (.fake ByteArray.empty)

def Sample.emptyInbox : Inbox := ⟨[], ⟨[], Ledger.empty, [], []⟩, []⟩

/-- A body with its signature. -/
def Sample.signed (body : ByteArray) (signature : List UInt8) : WebhookRequest :=
  ⟨body, fun name => if name = "X-Fake-Signature" then some signature else none⟩

/-- What the fake provider's endpoint does with it. -/
def Sample.received (request : WebhookRequest) : Except PyExc WebhookResponse × Inbox :=
  receiveWebhook Sample.runtime Sample.insertAnswers Sample.fakeOnly true "fake" request
    Sample.emptyInbox

/-- A signature that is one byte outside ASCII: neither a 400 nor a 200. -/
theorem boundary_broken : ¬ Boundary Sample.runtime Sample.insertAnswers (.fake ByteArray.empty)
    (Sample.signed ByteArray.empty [0xE9]) Sample.emptyInbox
    (Sample.received (Sample.signed ByteArray.empty [0xE9])).1
    (Sample.received (Sample.signed ByteArray.empty [0xE9])).2 := by
  intro h
  have hbad : ¬ Authenticates Sample.runtime (.fake ByteArray.empty) ByteArray.empty "é" := by
    show ¬ "é" = hexdigest [0xAB]
    decide
  obtain ⟨hanswer, _⟩ := h.refused hbad
  cases hanswer

/-- The runtime, reading one other JSON text and knowing the digest of one message. -/
def Sample.reading (text : String) (value : PyVal) (secret message : String)
    (digest : List UInt8) : Runtime :=
  { Sample.runtime with
    hmacSha256 := fun key content =>
      if key.data.toList = (encodeUtf8 secret).data.toList ∧
          content.data.toList = (encodeUtf8 message).data.toList then digest
      else []
    jsonLoads := fun body =>
      if body.data.toList = (encodeUtf8 text).data.toList then .ok value
      else .error ⟨.jsonDecodeError, "Expecting value"⟩ }

/-- A failed payment, as Stripe posts it. -/
def Sample.intentText : String :=
  "\x7b\"id\": \"evt_1\", \"type\": \"payment_intent.payment_failed\", \"data\": " ++
  "\x7b\"object\": \x7b\"id\": \"pi_1\", \"amount\": 49900, \"last_payment_error\": " ++
  "\x7b\"decline_code\": \"insufficient_funds\"\x7d\x7d\x7d\x7d"

def Sample.intent : PyVal :=
  .record [("id", .str "evt_1"), ("type", .str "payment_intent.payment_failed"),
    ("data", .record [("object", .record [("id", .str "pi_1"), ("amount", .int 49900),
      ("last_payment_error", .record [("decline_code", .str "insufficient_funds")])])])]

def Sample.intentRuntime : Runtime :=
  Sample.reading Sample.intentText Sample.intent "whsec_new" ("1767225600." ++ Sample.intentText)
    [0x0D, 0x24, 0xDB, 0x40, 0x74, 0x7D, 0x10, 0xB1, 0xD3, 0x25, 0xCF, 0xFA,
      0x72, 0xF0, 0xA2, 0xEF, 0xC8, 0x8D, 0x87, 0x53, 0xAA, 0x4B, 0x09, 0x38,
      0x75, 0xDB, 0x54, 0xB3, 0xE6, 0xBB, 0xFA, 0xAD]

def Sample.intentDigest : String :=
  "0d24db40747d10b1d325cffa72f0a2efc88d8753aa4b093875db54b3e6bbfaad"

/-- It is posted while the secret is being rotated, with the digests of the old and the new one. -/
def Sample.postedHeader : List UInt8 :=
  (encodeUtf8 ("t=1767225600," ++
    "v1=db9e05f41a25856044d74861117c7d0e08ed74ff7384160352ea72f322207a0d,v1=" ++
    Sample.intentDigest)).data.toList

def Sample.postedIntent : WebhookRequest :=
  ⟨encodeUtf8 Sample.intentText, fun name =>
    if name = "Stripe-Signature" then some Sample.postedHeader else none⟩

def Sample.stripe : Adapter := .stripe (encodeUtf8 "whsec_new")

def Sample.acceptedIntent : Except PyExc WebhookResponse × Inbox :=
  receiveWebhook Sample.intentRuntime Sample.insertAnswers (Dict.empty.set "stripe" Sample.stripe)
    true "stripe" Sample.postedIntent Sample.emptyInbox

/-- The contract over a failed payment: its event is stored and its task scheduled. -/
theorem webhook_boundary_iff_posted :
    Boundary Sample.intentRuntime Sample.insertAnswers Sample.stripe Sample.postedIntent
      Sample.emptyInbox Sample.acceptedIntent.1 Sample.acceptedIntent.2 ∧
    Sample.acceptedIntent.2.db.events.map (·.eventId) = ["evt_1"] ∧
    Sample.acceptedIntent.2.scheduled = [1] := by
  have hregistered : (Dict.empty.set "stripe" Sample.stripe : Dict String Adapter).get?
      "stripe" = some Sample.stripe := rfl
  have hheader : (signatureOf Sample.stripe Sample.postedIntent).toList =
      Sample.postedHeader.map fun byte => Char.ofNat byte.toNat := String.toList_ofList
  obtain ⟨ht, hlast⟩ :
      (elements "t" (signatureOf Sample.stripe Sample.postedIntent)).getLast? =
        some "1767225600" ∧
      (elements "v1" (signatureOf Sample.stripe Sample.postedIntent)).getLast? =
        some Sample.intentDigest := by
    unfold elements
    rw [hheader]
    decide +kernel
  have hdigest : Sample.intentDigest = stripeDigest Sample.intentRuntime (encodeUtf8 "whsec_new")
      Sample.postedIntent.body "1767225600" := by
    decide +kernel
  have hverify : verifySignature Sample.intentRuntime Sample.stripe Sample.postedIntent.body
      (signatureOf Sample.stripe Sample.postedIntent) = .ok true := by
    unfold Sample.stripe at ht hlast ⊢
    rw [verifySignature_stripe, ht, hlast]
    decide +kernel
  obtain ⟨hevents, hscheduled⟩ :
      Sample.acceptedIntent.2.db.events.map (·.eventId) = ["evt_1"] ∧
      Sample.acceptedIntent.2.scheduled = [1] := by
    unfold Sample.acceptedIntent
    rw [receive_registered hregistered, hverify]
    decide +kernel
  refine ⟨(webhook_boundary_iff hregistered).mpr ⟨?_, fun _ => ?_⟩, hevents, hscheduled⟩
  · exact (lastComparable_some ht (by decide) hlast).mpr (by decide +kernel)
  · exact ⟨"1767225600", Sample.intentDigest, ht, by decide, hlast, hdigest, by decide +kernel⟩

/-! ## Replaying a raw event -/

/-- The raw event holds the received bytes, and normalises as they did. -/
def StoredVerbatim (rt : Runtime) (adapter : Adapter) (body : ByteArray) (eventId : Option String)
    (row : RawWebhookEvent) : Prop :=
  encodeUtf8 row.payload = body ∧
    parseEvent rt adapter (encodeUtf8 row.payload) (some row.eventId) =
      parseEvent rt adapter body eventId

/-- **Raw events.** An accepted webhook adds one raw event, which is verbatim and can be replayed
if and only if the body was UTF-8. -/
theorem raw_verbatim_iff (hregistered : registry.get? providerName = some adapter)
    (haccepted : verifySignature rt adapter request.body (signatureOf adapter request) = .ok true) :
    ∃ row, (receiveWebhook rt answers registry pipeline providerName request inbox).2.raw =
        inbox.raw ++ [row] ∧
      (StoredVerbatim rt adapter request.body (eventIdOf adapter request) row ↔
        request.body.IsValidUTF8) := by
  rw [receive_registered hregistered, haccepted]
  refine ⟨_, normaliseAndSchedule_raw _ _, ?_⟩
  unfold StoredVerbatim
  refine ⟨fun h => (encode_decodeReplace_iff _).mp h.1, fun hvalid => ?_⟩
  have hbytes := (encode_decodeReplace_iff request.body).mpr hvalid
  refine ⟨hbytes, ?_⟩
  dsimp only
  rw [hbytes]
  exact parseEvent_stored rt adapter request.body _

/-- JSON in UTF-16: it is accepted and read, and stored as something else. -/
theorem raw_not_verbatim :
    verifySignature Sample.runtime (.fake ByteArray.empty) Sample.wideObject "ab" = .ok true ∧
    ∀ row ∈ (Sample.received (Sample.signed Sample.wideObject [0x61, 0x62])).2.raw,
      ¬ StoredVerbatim Sample.runtime (.fake ByteArray.empty) Sample.wideObject none row := by
  have hvalid : ¬ Sample.wideObject.IsValidUTF8 := by decide +kernel
  refine ⟨by decide +kernel, fun row hrow h => hvalid ?_⟩
  rw [← h.1]
  exact row.payload.isValidUTF8

/-- A failed payment of the fake provider, with a note that is not ASCII. -/
def Sample.notedText : String :=
  "\x7b\"event\": \"payment.failed\", \"payment_id\": \"pay_1\", \"amount_inr\": 499.0, " ++
  "\"note\": \"₹499 भुगतान\"\x7d"

def Sample.noted : PyVal :=
  .record [("event", .str "payment.failed"), ("payment_id", .str "pay_1"),
    ("amount_inr", .float 499), ("note", .str "₹499 भुगतान")]

def Sample.notedRuntime : Runtime :=
  Sample.reading Sample.notedText Sample.noted "" Sample.notedText
    [0x75, 0xB2, 0xE5, 0x12, 0x71, 0x69, 0x1A, 0x1D, 0xC7, 0xA8, 0xC5, 0xAE,
      0x88, 0x36, 0xF8, 0x25, 0x0D, 0x74, 0x09, 0x94, 0x89, 0x76, 0x39, 0xA5,
      0xC6, 0x47, 0xF6, 0xC3, 0x59, 0x52, 0x14, 0x8C]

/-- Its id is in a header. -/
def Sample.notedRequest : WebhookRequest :=
  ⟨encodeUtf8 Sample.notedText, fun name =>
    if name = "X-Fake-Signature" then
      some (encodeUtf8
        "75b2e51271691a1dc7a8c5ae8836f8250d740994897639a5c647f6c35952148c").data.toList
    else if name = "X-Fake-Event-Id" then some (encodeUtf8 "evt_1").data.toList
    else none⟩

def Sample.notedInbox : Inbox :=
  (receiveWebhook Sample.notedRuntime Sample.insertAnswers
    Sample.fakeOnly true "fake" Sample.notedRequest Sample.emptyInbox).2

/-- It is stored as it came, under its id, can be replayed, and its task is scheduled. -/
theorem raw_verbatim_iff_noted :
    ∃ row, Sample.notedInbox.raw = [row] ∧ row.eventId = "evt_1" ∧
      StoredVerbatim Sample.notedRuntime (.fake ByteArray.empty)
        (encodeUtf8 Sample.notedText) (some "evt_1") row ∧
      Sample.notedInbox.scheduled = [1] := by
  have hregistered : Sample.fakeOnly.get? "fake" = some (.fake ByteArray.empty) := rfl
  have haccepted : verifySignature Sample.notedRuntime
      (.fake ByteArray.empty) Sample.notedRequest.body
      (signatureOf (.fake ByteArray.empty) Sample.notedRequest) = .ok true := by
    decide +kernel
  have hid : eventIdOf (.fake ByteArray.empty) Sample.notedRequest = some "evt_1" := by
    decide +kernel
  obtain ⟨hrows, hscheduled⟩ : Sample.notedInbox.raw.map (·.eventId) = ["evt_1"] ∧
      Sample.notedInbox.scheduled = [1] := by
    decide +kernel
  obtain ⟨row, hrow, hiff⟩ : ∃ row, Sample.notedInbox.raw = [row] ∧
      (StoredVerbatim Sample.notedRuntime (.fake ByteArray.empty)
        Sample.notedRequest.body (eventIdOf (.fake ByteArray.empty) Sample.notedRequest) row ↔
        Sample.notedRequest.body.IsValidUTF8) :=
    raw_verbatim_iff hregistered haccepted
  rw [hid] at hiff
  rw [hrow] at hrows
  exact ⟨row, hrow, List.singleton_inj.mp hrows, hiff.mpr (String.isValidUTF8 _), hscheduled⟩

end PaymentRecovery.Recovery
