import PaymentRecovery.Providers.Senders
import PaymentRecovery.Recovery.Recounts
import PaymentRecovery.Recovery.Retries
import PaymentRecovery.Recovery.Served

/-!
# From the sender to the ledger

A webhook that a sender posts is accepted, its event waits for its background task whatever else
the process does, and the row the task leaves tells what the sender wrote.
-/

namespace PaymentRecovery.Recovery

open PaymentRecovery.Python PaymentRecovery.Guardrails PaymentRecovery.Providers
open PaymentRecovery.Agent PaymentRecovery.Lib PaymentRecovery.Lib.Table Program
open RecoveryPipeline

variable {S σ : Type}

/-! ## Messages -/

/-- What a sender posts: an event of the fake provider, with or without its id in the header, or
one of the script. `now` is what the sender's clock reads. -/
inductive Message where
  | fake (eventId paymentId : String) (amountInr : ℚ) (failureReason : FailureReason)
    (method : PaymentMethod) (occurredAt : Option Time) (now : Time) (header : Option String)
  | razorpay (eventId paymentId : String) (amountInr : ℚ) (errorReason method : String)
    (customerId : Option String) (now : Int)

namespace Message

/-- The adapter it is meant for. -/
def adapter (secret : ByteArray) : Message → Adapter
  | .fake .. => .fake secret
  | .razorpay .. => .razorpay secret

/-- What the body says. -/
def document (wr : Writing) : Message → PyVal
  | .fake eventId paymentId amountInr reason method occurredAt now _ =>
    failedEventBody wr eventId paymentId amountInr reason method occurredAt now
  | .razorpay _ paymentId amountInr errorReason method customerId now =>
    razorpayBody paymentId amountInr errorReason method customerId now

def body (wr : Writing) : Message → ByteArray
  | .fake eventId paymentId amountInr reason method occurredAt now _ =>
    buildFailedEventPayload wr eventId paymentId amountInr reason method occurredAt now
  | .razorpay _ paymentId amountInr errorReason method customerId now =>
    buildPayload wr paymentId amountInr errorReason method customerId now

/-- The event id that is posted in a header. -/
def idHeader : Message → Option String
  | .fake _ _ _ _ _ _ _ header => header
  | .razorpay eventId .. => some eventId

/-- The request: the body, signed, and the event id. -/
def request (rt : Runtime) (wr : Writing) (secret : ByteArray) (m : Message) : WebhookRequest where
  body := m.body wr
  header name :=
    if name = (m.adapter secret).signatureHeader then
      some (encodeLatin1 (sign rt secret (m.body wr)))
    else if (m.adapter secret).eventIdHeader = some name then m.idHeader.map encodeLatin1
    else none

/-- The id of the event that is meant. -/
def eventId : Message → String
  | .fake eventId _ _ _ _ _ _ header =>
    match header with
    | none => eventId
    | some id => if id = "" then eventId else id
  | .razorpay eventId .. => eventId

def paymentId : Message → String
  | .fake _ paymentId .. => paymentId
  | .razorpay _ paymentId .. => paymentId

def amountInr : Message → ℚ
  | .fake _ _ amountInr .. => amountInr
  | .razorpay _ _ amountInr .. => amountInr

/-- The amount that arrives: the script counts in paise. -/
def posted : Message → ℚ
  | .fake _ _ amountInr .. => amountInr
  | .razorpay _ _ amountInr .. => (roundHalfEven (amountInr * 100) : ℚ) / 100

/-- The failure reason, as far as the adapter knows it. -/
def reason : Message → FailureReason
  | .fake _ _ _ failureReason .. => failureReason
  | .razorpay _ _ _ errorReason .. =>
    ((razorpayReasons.find? fun entry => entry.1 = errorReason).map Prod.snd).getD .unknown

/-- What the sender sees to: an id that travels in a header, and a clock and an amount that make
sense to the adapter. -/
structure Sendable (rt : Runtime) (m : Message) (occurred : Time) : Prop where
  latin : ∀ id, m.idHeader = some id → ∀ c ∈ id.toList, c.toNat < 256
  sense : match m with
    | .fake _ _ _ _ _ occurredAt now _ => occurred = occurredAt.getD now
    | .razorpay eventId _ amountInr _ _ _ now => eventId ≠ "" ∧ now ≠ 0 ∧
      rt.fromTimestamp (.int now) = .ok occurred ∧
      (roundHalfEven (amountInr * 100)).natAbs < floatOverflow

variable {rt : Runtime} {wr : Writing} {secret : ByteArray} {m : Message} {occurred : Time}

/-- What arrives is at most half a paisa from what was meant, and a whole number of paise
arrives as it was. -/
theorem posted_near (m : Message) : |m.posted - m.amountInr| ≤ 1 / 200 ∧
    ∀ paise : Int, m.amountInr = paise / 100 → m.posted = m.amountInr := by
  cases m with
  | fake eventId paymentId amountInr reason method occurredAt now header =>
    refine ⟨?_, fun _ _ => rfl⟩
    show |amountInr - amountInr| ≤ 1 / 200
    rw [sub_self, abs_zero]
    norm_num
  | razorpay eventId paymentId amountInr errorReason method customerId now =>
    constructor
    · have hnear := abs_le.mp (roundHalfEven_near (amountInr * 100))
      show |(roundHalfEven (amountInr * 100) : ℚ) / 100 - amountInr| ≤ 1 / 200
      rw [abs_le]
      constructor <;> linarith [hnear.1, hnear.2]
    · intro paise hpaise
      replace hpaise : amountInr = paise / 100 := hpaise
      have hwhole : amountInr * 100 = paise := by rw [hpaise]; ring
      show (roundHalfEven (amountInr * 100) : ℚ) / 100 = amountInr
      rw [hwhole, roundHalfEven_int, hpaise]

/-- The signature arrives as it was computed. -/
theorem signature_request : signatureOf (m.adapter secret) (m.request rt wr secret) =
    sign rt secret (m.body wr) := by
  have hlatin : ∀ c ∈ (sign rt secret (m.body wr)).toList, c.toNat < 256 := by
    intro c hc
    have hascii := List.all_eq_true.mp (isAscii_hexdigest (rt.hmacSha256 secret (m.body wr))) c hc
    have hsmall : c.toNat < 128 := of_decide_eq_true hascii
    omega
  unfold signatureOf request
  dsimp only
  rw [if_pos rfl, Option.map_some, decodeLatin1_encodeLatin1 hlatin]
  rfl

/-- And so does the event id. -/
theorem eventId_request (h : m.Sendable rt occurred) :
    eventIdOf (m.adapter secret) (m.request rt wr secret) = m.idHeader := by
  have hheader : ∀ name, name ≠ (m.adapter secret).signatureHeader →
      (m.adapter secret).eventIdHeader = some name →
      ((m.request rt wr secret).header name).map decodeLatin1 = m.idHeader := by
    intro name hne hname
    unfold request
    dsimp only
    rw [if_neg hne, if_pos hname]
    cases hid : m.idHeader with
    | none => rfl
    | some id =>
      rw [Option.map_some, Option.map_some, decodeLatin1_encodeLatin1 (h.latin id hid)]
  have hfake : "X-Fake-Event-Id" ≠ "X-Fake-Signature" := by decide
  have hrazorpay : "X-Razorpay-Event-Id" ≠ "X-Razorpay-Signature" := by decide
  cases m with
  | fake => exact hheader "X-Fake-Event-Id" hfake rfl
  | razorpay => exact hheader "X-Razorpay-Event-Id" hrazorpay rfl

/-- The body is read as it was meant. -/
theorem parse_request (secret : ByteArray) (hread : wr.ReadBy rt (m.document wr) occurred)
    (h : m.Sendable rt occurred) :
    parseEvent rt (m.adapter secret) (m.body wr) m.idHeader =
      .ok ⟨(m.adapter secret).name, .str m.eventId, .paymentFailed, .str m.paymentId, m.posted,
        some m.reason, some occurred⟩ := by
  cases m with
  | fake eventId paymentId amountInr reason method occurredAt now header =>
    have hoccurred : occurred = occurredAt.getD now := h.sense
    subst hoccurred
    obtain ⟨id, hid, hparse⟩ := parseFake_built eventId paymentId amountInr reason method
      occurredAt now hread header
    have hmeant : id = (Message.fake eventId paymentId amountInr reason method occurredAt now
        header).eventId := by
      unfold Message.eventId
      unfold eventIdOr at hid
      cases header with
      | none => exact (PyVal.str.inj (Except.ok.inj hid)).symm
      | some given =>
        dsimp only at hid ⊢
        by_cases hempty : given = ""
        · rw [if_pos hempty] at hid ⊢
          exact (PyVal.str.inj (Except.ok.inj hid)).symm
        · rw [if_neg hempty] at hid ⊢
          exact (PyVal.str.inj (Except.ok.inj hid)).symm
    rw [← hmeant]
    exact hparse
  | razorpay eventId paymentId amountInr errorReason method customerId now =>
    obtain ⟨hevent, hnow, hsent, hfinite⟩ := h.sense
    exact parseRazorpay_built hevent paymentId amountInr errorReason method customerId hnow hread
      hsent hfinite

/-- The event that is meant. -/
def event (secret : ByteArray) (m : Message) (occurred : Time) : NormalisedEvent :=
  ⟨(m.adapter secret).name, m.eventId, .paymentFailed, m.paymentId, m.posted, some m.reason,
    some occurred⟩

end Message

/-- A database that stores texts as they are, and commits. -/
structure InsertAnswers.Stores (answers : InsertAnswers) : Prop where
  text : ∀ s, answers.bindText (.str s) = .ok s
  commits : answers.commit = .ok ()

/-- **What is sent is received**: the answer is 200, the event that was meant is stored, and its
task is scheduled. -/
theorem message_received {rt : Runtime} {wr : Writing} {secret : ByteArray} {m : Message}
    {occurred : Time} {answers : InsertAnswers} {registry : Dict String Adapter} {name : String}
    (hread : wr.ReadBy rt (m.document wr) occurred) (h : m.Sendable rt occurred)
    (hstores : answers.Stores) (hregistered : registry.get? name = some (m.adapter secret))
    (inbox : Inbox) :
    ∃ raw, receiveWebhook rt answers registry true name (m.request rt wr secret) inbox =
      (.ok .ok, ⟨raw, (inbox.db.persistInternal (m.event secret occurred)).2,
        inbox.scheduled ++ [inbox.db.events.length + 1]⟩) := by
  have hverified : verifySignature rt (m.adapter secret) (m.request rt wr secret).body
      (signatureOf (m.adapter secret) (m.request rt wr secret)) = .ok true := by
    rw [Message.signature_request]
    have hcompared : compareDigest (hexdigest (rt.hmacSha256 secret (m.body wr)))
        (sign rt secret (m.body wr)) = .ok true := by
      unfold sign
      rw [compareDigest_hexdigest, if_pos (isAscii_hexdigest _)]
      simp
    cases m with
    | fake => exact hcompared
    | razorpay => exact hcompared
  have hparse := Message.parse_request secret hread h
  rw [receive_registered hregistered, hverified]
  dsimp only
  rw [Message.eventId_request h]
  unfold normaliseAndSchedule
  rw [show (m.request rt wr secret).body = m.body wr from rfl, hparse]
  dsimp only
  have hinsert : ∀ db, persistInternal answers ⟨(m.adapter secret).name, .str m.eventId,
      .paymentFailed, .str m.paymentId, m.posted, some m.reason, some occurred⟩ db =
      (.ok (db.persistInternal (m.event secret occurred)).1,
        (db.persistInternal (m.event secret occurred)).2) := by
    intro db
    unfold persistInternal
    simp only [Bind.bind, Except.bind, hstores.text, hstores.commits]
    rfl
  rw [hinsert]
  exact ⟨_, rfl⟩

/-! ## The event waits for its task -/

/-- The process lives on, and the task is not run. -/
def Step.leavesTask (id : Nat) : Step σ → Bool
  | .boot .. | .crash => false
  | .webhook _ _ _ _ cut => !cut
  | .task other .lives => other ≠ id
  | .task _ (.dies _) => false
  | .advance _ .lives => true
  | .advance _ (.dies _) => false
  | .play .. | .changeRules _ | .outside _ => true

/-- The task of the event is scheduled, and the event has no row yet. -/
structure App.Awaits (app : App S σ) (d : Deployment σ) (id : Nat) (event : NormalisedEvent) :
    Prop where
  up : ∃ proc, app.process = some proc ∧ proc.deployment = d ∧ id ∈ proc.scheduled
  norow : app.world.env.db.ledger.forEvent id = none
  stored : InternalEvent.ofNormalised id event ∈ app.world.env.db.events.map InternalEvent.unmarked

section Waiting

variable [GuardStore S] {app : App S σ} {d : Deployment σ} {id : Nat}
  {event : NormalisedEvent}

/-- Nothing but its task, or the end of the process, takes the event from there. -/
theorem App.Awaits.step (h : app.Awaits d id event) (hserved : Served app) {step : Step σ}
    (hleaves : step.leavesTask id = true) : (step.run app).2.Awaits d id event := by
  obtain ⟨⟨proc, hproc, hd, hid⟩, hnorow, hstored⟩ := h
  have hkept : InternalEvent.ofNormalised id event ∈
      (step.run app).2.world.env.db.events.map InternalEvent.unmarked :=
    (step_refines step app).eventsKept.subset hstored
  have hserve := App.serve_up hproc
  have hserves := hserved.serves hproc
  cases step with
  | boot d' now fate => cases hleaves
  | crash => cases hleaves
  | changeRules rows => exact ⟨⟨proc, hproc, hd, hid⟩, hnorow, hkept⟩
  | outside f => exact ⟨⟨proc, hproc, hd, hid⟩, hnorow, hkept⟩
  | webhook rt answers name request cut =>
    cases cut with
    | true => cases hleaves
    | false =>
      have htook := receiveWebhook_took rt answers proc.deployment.adapters name request
        ⟨app.raw, app.world.env.db, proc.scheduled⟩
      simp only [Step.run, hserve, App.receive] at hkept ⊢
      refine ⟨⟨_, rfl, hd, ?_⟩, ?_, hkept⟩
      · show id ∈ (receiveWebhook rt answers proc.deployment.adapters true name request
          ⟨app.raw, app.world.env.db, proc.scheduled⟩).2.scheduled
        cases htook with
        | nothing _ hscheduled => exact hscheduled ▸ hid
        | event other _ hfailed hother =>
          by_cases htype : other.eventType = .paymentFailed
          · rw [hfailed htype]
            exact List.mem_append_left _ hid
          · rw [hother htype]
            exact hid
      · show (receiveWebhook rt answers proc.deployment.adapters true name request
          ⟨app.raw, app.world.env.db, proc.scheduled⟩).2.db.ledger.forEvent id = none
        cases htook with
        | nothing hdb _ => rw [hdb]; exact hnorow
        | event other hdb _ _ => rw [hdb]; exact hnorow
  | task other fate =>
    cases fate with
    | dies n => cases hleaves
    | lives =>
      have hne : other ≠ id := of_decide_eq_true hleaves
      simp only [Step.run, hserve, App.task] at hkept ⊢
      split at hkept
      · rename_i hin
        rw [if_pos hin]
        exact ⟨⟨_, rfl, hd, (List.mem_erase_of_ne hne.symm).mpr hid⟩,
          process_norow _ hne.symm hnorow, hkept⟩
      · rename_i hout
        rw [if_neg hout]
        exact ⟨⟨proc, hproc, hd, hid⟩, hnorow, hkept⟩
  | play thread scenario now token =>
    simp only [Step.run, hserve, App.play] at hkept ⊢
    split
    · exact ⟨⟨proc, hproc, hd, hid⟩, hnorow, hstored⟩
    · split
      · exact ⟨⟨_, rfl, hd, hid⟩, hnorow, hstored⟩
      · exact ⟨⟨_, rfl, hd, hid⟩, hnorow, hstored⟩
  | advance thread fate =>
    cases fate with
    | dies n => cases hleaves
    | lives =>
      simp only [Step.run, hserve, App.advance] at hkept ⊢
      split
      · exact ⟨⟨proc, hproc, hd, hid⟩, hnorow, hstored⟩
      · rename_i run hrun
        -- a run processes what it owes, and that is another event
        refine ⟨⟨_, rfl, hd, hid⟩, ?_, ?_⟩
        · have hgoes := next_goes proc.deployment run app.world
          dsimp only [Fate.leaves]
          revert hgoes
          generalize ((run.next proc.deployment.live proc.deployment.llmModel).run app.world).1 = a
          generalize ((run.next proc.deployment.live proc.deployment.llmModel).run app.world).2 = v
          intro hgoes
          have hother : ∀ other, run.owes = some other → id ≠ other := by
            intro other howes hsame
            exact hserves.apart.tasks hrun howes (hsame ▸ hid)
          cases hgoes with
          | seeds => exact hnorow
          | persists => exact hnorow
          | counts => exact hnorow
          | processes other _ _ hphase =>
            exact process_norow _ (hother other (by simp [PlayRun.owes, hphase])) hnorow
          | raises other _ _ hphase =>
            exact process_norow _ (hother other (by simp [PlayRun.owes, hphase])) hnorow
          | answers => exact hnorow
        · rw [hrun] at hkept
          exact hkept

/-- The row that is added says whether the event had been acted on. -/
theorem duplicate_iff (p : RecoveryPipeline (FakeProvider × σ)) {id : Nat}
    {event : NormalisedEvent} {w v : World S (Env (FakeProvider × σ))} {row : LedgerEntry}
    (h : p.Ends id event w v row) : row.path = .duplicateDelivery ↔
      (w.env.db.ledger.processedDelivery event.provider event.eventId).isSome = true := by
  cases h with
  | duplicate earlier hre =>
    rw [hre.earlier]
    exact ⟨fun _ => rfl, fun _ => rfl⟩
  | acted latency hdue =>
    rw [hdue.first]
    exact ⟨fun hpath => absurd hpath (acted_row p hdue).1, fun hsome => by cases hsome⟩

/-- A message that is posted is received, and its event waits. -/
theorem App.posts {proc : Process σ} (hproc : app.process = some proc) (hserved : Served app)
    {rt : Runtime} {wr : Writing} {answers : InsertAnswers} (hstores : answers.Stores)
    {m : Message} {occurred : Time} (hread : wr.ReadBy rt (m.document wr) occurred)
    (hsendable : m.Sendable rt occurred) {name : String} {secret : ByteArray}
    (hregistered : proc.deployment.adapters.get? name = some (m.adapter secret)) :
    let posted := (Step.webhook rt answers name (m.request rt wr secret) false).run app
    posted.1 = .webhook (.ok .ok) ∧ posted.2.Awaits proc.deployment
      (app.world.env.db.events.length + 1) (m.event secret occurred) := by
  obtain ⟨raw, hreceived⟩ := message_received hread hsendable hstores hregistered
    ⟨app.raw, app.world.env.db, proc.scheduled⟩
  have hposted : (Step.webhook rt answers name (m.request rt wr secret) false).run app =
      (.webhook (.ok .ok), ⟨{ app.world with env := { app.world.env with
        db := (app.world.env.db.persistInternal (m.event secret occurred)).2 } }, raw,
        some { proc with
          scheduled := proc.scheduled ++ [app.world.env.db.events.length + 1] }⟩) := by
    show (app.serve fun proc => app.receive proc rt answers name _ false) = _
    rw [App.serve_up hproc]
    unfold App.receive
    rw [hreceived]
    rfl
  intro posted
  have hsame : posted = _ := hposted
  rw [hsame]
  refine ⟨rfl, ⟨_, rfl, rfl, List.mem_append_right _ (List.mem_singleton_self _)⟩,
    hserved.numbered.norow_next, ?_⟩
  exact List.mem_map.mpr ⟨.ofNormalised _ (m.event secret occurred),
    List.mem_append_right _ (List.mem_singleton_self _), rfl⟩

/-- The task of an event that waits leaves its row. -/
theorem App.Awaits.runs (h : app.Awaits d id event) (hserved : Served app)
    (hfailed : event.eventType = .paymentFailed) :
    ∃ row, ((Step.task id .lives).run app).2.world.env.db.ledger.rows =
        app.world.env.db.ledger.rows ++ [row] ∧ row.toLedgerBase = baseOf id event ∧
      (row.path = .duplicateDelivery ↔ (app.world.env.db.ledger.processedDelivery event.provider
        event.eventId).isSome = true) := by
  have hun := unrecorded_stored hserved.numbered h.norow h.stored hfailed
  obtain ⟨row, v, hprocess, hadded, hbase, hends⟩ := process_ends d.live hun
  obtain ⟨proc, hproc, hdeployment, hscheduled⟩ := h.up
  refine ⟨row, ?_, hbase, duplicate_iff d.live hends⟩
  have hworld : ((Step.task id .lives).run app).2.world = v := by
    show ((app.serve fun proc => (.none, app.task proc id .lives)).2).world = v
    rw [App.serve_up hproc]
    dsimp only
    unfold App.task
    rw [if_pos hscheduled, hdeployment]
    show ((d.live.process id).run app.world).2 = v
    rw [hprocess]
  rw [hworld]
  exact hadded

variable [LawfulGuardStore S]

/-- However long it waits. -/
theorem App.Awaits.steps (h : app.Awaits d id event) (hserved : Served app)
    {during : List (Step σ)} (hleaves : ∀ step ∈ during, step.leavesTask id = true) :
    Served (runApp during app) ∧ (runApp during app).Awaits d id event :=
  Run.exec_inv_along (P := fun a : App S σ => Served a ∧ a.Awaits d id event)
    (C := fun _ step => step.leavesTask id = true)
    (fun _ step ha hstep => ⟨ha.1.step step, ha.2.step ha.1 hstep⟩) ⟨hserved, h⟩
    (Run.along_of_forall hleaves app)

/-- **From the sender to the ledger.** However the application got to a process that knows the
adapter, and whatever it does until the task of the event is run: a message that a sender posts is
answered with 200, and from the end of its task on, through any crashes and restarts, its event has
one row, which tells what was sent, and is a redelivery exactly if the event had been acted on. -/
theorem sent_is_told (store : S) (outer : σ) (rules : List RuleRow) (before : List (Step σ))
    {proc : Process σ} (hproc : (runApp before (App.fresh store outer rules)).process = some proc)
    {rt : Runtime} {wr : Writing} {answers : InsertAnswers} (hstores : answers.Stores)
    {m : Message} {occurred : Time} (hread : wr.ReadBy rt (m.document wr) occurred)
    (hsendable : m.Sendable rt occurred) {name : String} {secret : ByteArray}
    (hregistered : proc.deployment.adapters.get? name = some (m.adapter secret))
    (during later : List (Step σ)) :
    let app := runApp before (App.fresh store outer rules)
    let id := app.world.env.db.events.length + 1
    let posted := (Step.webhook rt answers name (m.request rt wr secret) false).run app
    let waiting := runApp during posted.2
    let done := ((Step.task id .lives).run waiting).2
    let last := runApp later done
    (∀ step ∈ during, step.leavesTask id = true) →
    posted.1 = .webhook (.ok .ok) ∧
    ∃ row, (last.world.env.db.ledger.rows.filter fun r => r.internalEventId = id) = [row] ∧
      row.toLedgerBase = ⟨id, (m.adapter secret).name, m.eventId, m.paymentId, m.posted,
        some m.reason.value⟩ ∧
      |row.amountInr - m.amountInr| ≤ 1 / 200 ∧
      (∀ paise : Int, m.amountInr = paise / 100 → row.amountInr = m.amountInr) ∧
      (row.path = .duplicateDelivery ↔ (waiting.world.env.db.ledger.processedDelivery
        (m.adapter secret).name m.eventId).isSome = true) := by
  intro app id posted waiting done last hduring
  have hserved : Served app := .run store outer rules before
  obtain ⟨hanswer, hawaits⟩ := App.posts hproc hserved hstores hread hsendable hregistered
  replace hawaits : posted.2.Awaits proc.deployment id (m.event secret occurred) := hawaits
  -- its task runs, and leaves the row
  obtain ⟨hservedWaiting, hwaiting⟩ := hawaits.steps (hserved.step _) hduring
  obtain ⟨row, hadded, hbase, hduplicate⟩ := hwaiting.runs hservedWaiting rfl
  replace hadded : done.world.env.db.ledger.rows = waiting.world.env.db.ledger.rows ++ [row] :=
    hadded
  -- from there on the ledger only grows
  have hreached : LeadsTo (World.opened store (FakeProvider.new, outer) rules) done.world :=
    (((run_refines before (App.fresh store outer rules)).trans (step_refines _ app)).trans
      (run_refines during _)).trans (step_refines _ waiting)
  have hrow : row ∈ last.world.env.db.ledger.rows := by
    refine LeadsTo.keepsRow hreached (run_refines later done) ?_
    rw [hadded]
    exact List.mem_append_right _ (List.mem_singleton_self row)
  have hrowId : row.internalEventId = id := congrArg LedgerBase.internalEventId hbase
  have hamount : row.amountInr = m.posted := congrArg LedgerBase.amountInr hbase
  refine ⟨hanswer, row, ?_, hbase, ?_, ?_, hduplicate⟩
  · rw [← hrowId]
    exact filter_of_mem last.world.env.db.ledger.unique hrow
  · rw [hamount]
    exact m.posted_near.1
  · rw [hamount]
    exact m.posted_near.2

end Waiting

/-! ## A sample message -/

namespace Sample

/-- An expired card, at the beginning of 2026. -/
def message : Message :=
  .fake "evt_9" "pay_9" 499 .expiredCard .card none 1767225600 (some "evt_9")

/-- The text of its body. -/
def messageText : String :=
  "\x7b\"event_id\": \"evt_9\", \"event\": \"payment.failed\", \"payment_id\": \"pay_9\", " ++
  "\"amount_inr\": 499.0, \"failure_reason\": \"expired_card\", \"method\": \"card\", " ++
  "\"occurred_at\": \"2026-01-01T00:00:00+00:00\"\x7d"

/-- How it is written. -/
def writing : Writing where
  jsonDumps _ := encodeUtf8 messageText
  isoformat _ := "2026-01-01T00:00:00+00:00"

/-- A runtime that reads it. -/
def reader : Runtime :=
  { runtime with
    jsonLoads := fun body =>
      if body.data.toList = (encodeUtf8 messageText).data.toList then .ok (message.document writing)
      else .error ⟨.jsonDecodeError, "Expecting value"⟩
    fromIsoformat := fun value =>
      match value with
      | .str "2026-01-01T00:00:00+00:00" => .ok 1767225600
      | _ => .error ⟨.valueError, "Invalid isoformat string"⟩ }

/-- The message is posted, a visitor plays, the task runs, and the process is restarted. -/
def told : App SqlGuardStore Outside :=
  runApp [.crash, .boot deployed id .lives] ((Step.task 1 .lives).run
    (runApp [.play 0 scenario 0 "a1", .advance 0 .lives]
      ((Step.webhook reader insertAnswers "fake" (message.request reader writing ByteArray.empty)
        false).run (runApp [.boot deployed id .lives] (installed []))).2)).2

end Sample

/-- The message is in the ledger, once. -/
theorem message_told : ∃ row, (Sample.told.world.env.db.ledger.rows.filter fun r =>
    r.internalEventId = 1) = [row] ∧ row.eventId = "evt_9" ∧ row.paymentId = "pay_9" ∧
    row.amountInr = 499 := by
  have hread : Sample.writing.ReadBy Sample.reader (Sample.message.document Sample.writing)
      1767225600 := by
    refine ⟨fun _ => ?_, by decide, rfl⟩
    have hsame : Sample.writing.jsonDumps (Sample.message.document Sample.writing) =
        encodeUtf8 Sample.messageText := rfl
    unfold Sample.reader
    dsimp only
    rw [hsame, if_pos rfl]
  have hsendable : Sample.message.Sendable Sample.reader 1767225600 := by
    have hlatin : ("evt_9".toList.all fun c => c.toNat < 256) = true := by decide
    refine ⟨fun id hid c hc => ?_, rfl⟩
    rw [← Option.some.inj hid] at hc
    exact of_decide_eq_true (List.all_eq_true.mp hlatin c hc)
  have hstores : Sample.insertAnswers.Stores := ⟨fun _ => rfl, rfl⟩
  have hup : (runApp [.boot Sample.deployed id .lives]
      (Sample.installed [])).process.isSome = true := by decide +kernel
  obtain ⟨proc, hproc⟩ := Option.isSome_iff_exists.mp hup
  have hbooted := boot_process hproc
  have hregistered : proc.deployment.adapters.get? "fake" =
      some (Sample.message.adapter ByteArray.empty) := by
    rw [hbooted]
    rfl
  have hfirst : (runApp [.boot Sample.deployed id .lives]
      (App.fresh GuardStore.empty (⟨[], false⟩ : Sample.Outside) [] :
        App SqlGuardStore Sample.Outside)).world.env.db.events.length = 0 := by decide +kernel
  have htold := sent_is_told (S := SqlGuardStore) GuardStore.empty
    (⟨[], false⟩ : Sample.Outside) [] [.boot Sample.deployed id .lives] hproc hstores hread
    hsendable hregistered [.play 0 Sample.scenario 0 "a1", .advance 0 .lives]
    [.crash, .boot Sample.deployed id .lives]
  dsimp only at htold
  rw [hfirst, Nat.zero_add] at htold
  obtain ⟨_, row, hrow, hbase, _⟩ := htold (by decide)
  have hevent : row.eventId = Sample.message.eventId := congrArg LedgerBase.eventId hbase
  have hpayment : row.paymentId = Sample.message.paymentId := congrArg LedgerBase.paymentId hbase
  have hamount : row.amountInr = Sample.message.posted := congrArg LedgerBase.amountInr hbase
  refine ⟨row, ?_, hevent, hpayment, hamount⟩
  unfold Sample.told Sample.installed
  exact hrow

end PaymentRecovery.Recovery
