import PaymentRecovery.Recovery.Built
import PaymentRecovery.Recovery.Drain

/-!
# Redeliveries of failed attempts

A redelivery is routed again unless a row of its event counts as processed. That
is decided by the path of the row, while a failure shows in its outcome: an
agent that ran into its timeout or answered with malformed output failed on a
path that counts, and so does a rule whose arguments are refused.
-/

namespace PaymentRecovery.Recovery

open PaymentRecovery.Python PaymentRecovery.Guardrails PaymentRecovery.Providers
open PaymentRecovery.Agent PaymentRecovery.Lib PaymentRecovery.Lib.Table Program

variable {S τ : Type}

/-- The outcomes of a failed attempt. -/
def failedOutcomes : List String := ["failed", "failed_timeout", "failed_malformed_output"]

/-- The row tells of a failed attempt. -/
def LedgerFields.Failed (fields : LedgerFields) : Prop :=
  fields.outcome ∈ failedOutcomes

theorem outcomeFor_not_failed (status : ExecutionStatus) (action : String) :
    RecoveryPipeline.outcomeFor status action ∉ failedOutcomes := by
  cases status with
  | executed =>
    unfold RecoveryPipeline.outcomeFor
    dsimp only
    split <;> decide
  | duplicate => exact (by decide : "duplicate" ∉ failedOutcomes)
  | pendingApproval => exact (by decide : "pending_approval" ∉ failedOutcomes)
  | rejectedActionBudget => exact (by decide : "rejected" ∉ failedOutcomes)
  | rejectedSpendCap => exact (by decide : "rejected" ∉ failedOutcomes)
  | rejectedBreakerOpen => exact (by decide : "rejected" ∉ failedOutcomes)

theorem value_failed {outcome : AgentOutcome} (h : outcome.value ∈ failedOutcomes) :
    outcome = .failedTimeout ∨ outcome = .failedMalformed := by
  cases outcome <;> first | exact .inl rfl | exact .inr rfl | exact absurd h (by decide)

namespace RecoveryPipeline

variable [GuardStore S]

theorem ruleRow_returned {p : RecoveryPipeline τ} {case : RecoveryCase}
    {provider : PaymentProvider τ} {decision : RoutingDecision} {name : String} {action : Action}
    {w : World S (Env τ)} {fields : LedgerFields}
    (h : ((ruleRow decision name <$> (p.caseExecutor case provider).execute action).run w).1 =
      .ok fields) : fields.path = .deterministic ∧ ¬ fields.Failed := by
  obtain ⟨result, _, rfl⟩ := run_map_ok h
  exact ⟨rfl, outcomeFor_not_failed result.status name⟩

/-- A rule's row is on its path, and tells of a failure only where the provider answered a
refund with the exception for wrong arguments. -/
theorem runRule_failed (p : RecoveryPipeline τ) {case : RecoveryCase}
    {provider : PaymentProvider τ} {decision : RoutingDecision} {w : World S (Env τ)}
    {fields : LedgerFields} (h : ((p.runRule case provider decision).run w).1 = .ok fields) :
    fields.path = .deterministic ∧ (fields.Failed → decision.action = some "refund" ∧
      ∃ exc, paymentOf case provider w.env = .error exc ∧ exc.cls = .toolArgError) := by
  rcases ruleActionToTool_cases decision.action with hlink | hrefund | hescalate | hnone
  · rw [runRule_link p case provider hlink] at h
    obtain ⟨hpath, hfine⟩ := ruleRow_returned h
    exact ⟨hpath, fun hfailed => absurd hfailed hfine⟩
  · cases hpayment : paymentOf case provider w.env with
    | ok payment =>
      rw [runRule_refund p case provider hrefund hpayment] at h
      obtain ⟨hpath, hfine⟩ := ruleRow_returned h
      exact ⟨hpath, fun hfailed => absurd hfailed hfine⟩
    | error exc =>
      rw [runRule_refund_error p case provider hrefund hpayment] at h
      by_cases hcls : exc.cls = .toolArgError
      · rw [if_pos hcls] at h
        injection h with h
        rw [← h]
        exact ⟨rfl, fun _ => ⟨hrefund, exc, rfl, hcls⟩⟩
      · rw [if_neg hcls] at h
        cases h
  · rw [runRule_escalate p case provider hescalate] at h
    obtain ⟨hpath, hfine⟩ := ruleRow_returned h
    exact ⟨hpath, fun hfailed => absurd hfailed hfine⟩
  · rw [runRule_none p case provider hnone] at h
    injection h with h
    rw [← h]
    exact ⟨rfl, fun hfailed => absurd hfailed (by decide : "no_effect" ∉ failedOutcomes)⟩

/-- An agent's row is on its path, and tells the outcome of the trajectory. -/
theorem runAgent_outcome (p : RecoveryPipeline τ) {case : RecoveryCase}
    {provider : PaymentProvider τ} {w : World S (Env τ)} {fields : LedgerFields}
    (h : ((p.runAgent case provider).run w).1 = .ok fields) :
    fields.path = .llm ∧ ∃ trajectory, ((p.runRecovery case provider).run w).1 = .ok trajectory ∧
      fields.outcome = trajectory.outcome.value := by
  unfold runAgent at h
  obtain ⟨trajectory, v, hrecovery, hrest⟩ := run_bind_ok (Prod.ext h rfl)
  obtain ⟨trajectoryId, v', _, hrow⟩ := run_bind_ok hrest
  suffices hfields : ∃ approvalId, fields = p.agentFields trajectory trajectoryId approvalId by
    obtain ⟨approvalId, rfl⟩ := hfields
    exact ⟨rfl, trajectory, by rw [hrecovery], rfl⟩
  split at hrow
  · injection hrow with hrow
    injection hrow with hrow
    exact ⟨_, hrow.symm⟩
  · injection hrow with hrow
    injection hrow with hrow
    exact ⟨_, hrow.symm⟩

/-- The call on the event ends with no failure on a path that counts: a rule's refund is not
refused over its arguments, and the agent neither runs into its timeout nor answers with
malformed output. -/
def Settles (p : RecoveryPipeline τ) (w : World S (Env τ)) (id : Nat) : Prop :=
  ∀ event case provider decision w₁, Due w.env.db id event → event.eventId ≠ "" →
    p.Reaches event w case provider decision w₁ →
    (decision.route = .deterministic → decision.action = some "refund" →
      ∀ exc, paymentOf case provider w₁.env = .error exc → exc.cls ≠ .toolArgError) ∧
    (decision.route = .escalateToAgent → ∀ trajectory,
      ((p.runRecovery case provider).run w₁).1 = .ok trajectory →
        trajectory.outcome ≠ .failedTimeout ∧ trajectory.outcome ≠ .failedMalformed)

/-- The row of an event that was acted on is no redelivery, a path that does not count is
that of a failure, and if the call settles, a path that counts is not. -/
theorem acted_row (p : RecoveryPipeline τ) {id : Nat} {event : NormalisedEvent}
    {w : World S (Env τ)} (hdue : Due w.env.db id event) :
    (fieldsOf (p.acted event w).1).path ≠ .duplicateDelivery ∧
    ((fieldsOf (p.acted event w).1).path = .failed → (fieldsOf (p.acted event w).1).Failed) ∧
    (event.eventId ≠ "" → p.Settles w id → (fieldsOf (p.acted event w).1).Failed →
      (fieldsOf (p.acted event w).1).path = .failed) := by
  cases hacted : (p.acted event w).1 with
  | error exc =>
    exact ⟨fun h => (by cases h), fun _ => (by decide : "failed" ∈ failedOutcomes), fun _ _ _ => rfl⟩
  | ok fields =>
    show fields.path ≠ _ ∧ (fields.path = _ → fields.Failed) ∧
      (_ → _ → fields.Failed → fields.path = _)
    rcases p.acted_cases event w with ⟨exc, _, herror, _⟩ |
      ⟨case, provider, decision, w₁, hreaches, _, _, hact⟩
    · rw [hacted] at herror
      cases herror
    · rw [hact] at hacted
      unfold act at hacted
      cases hroute : decision.route with
      | deterministic =>
        rw [hroute] at hacted
        obtain ⟨hpath, hfailed⟩ := p.runRule_failed hacted
        rw [hpath]
        refine ⟨by decide, fun h => (by cases h), fun hne hsettles h => ?_⟩
        obtain ⟨hrefund, exc, hpayment, hcls⟩ := hfailed h
        exact absurd hcls ((hsettles event case provider decision w₁ hdue hne hreaches).1 hroute
          hrefund exc hpayment)
      | escalateToAgent =>
        rw [hroute] at hacted
        obtain ⟨hpath, trajectory, hrecovery, houtcome⟩ := p.runAgent_outcome hacted
        rw [hpath]
        refine ⟨by decide, fun h => (by cases h), fun hne hsettles h => ?_⟩
        obtain ⟨htimeout, hmalformed⟩ := (hsettles event case provider decision w₁ hdue hne
          hreaches).2 hroute trajectory hrecovery
        unfold LedgerFields.Failed at h
        rw [houtcome] at h
        rcases value_failed h with hbad | hbad
        · exact absurd hbad htimeout
        · exact absurd hbad hmalformed

end RecoveryPipeline

/-! ## Redeliveries -/

/-- Every row of the provider event tells of a failed attempt or of a redelivery. -/
def OnlyFailed (ledger : Ledger) (event : NormalisedEvent) : Prop :=
  ∀ row ∈ ledger.rows, row.provider = event.provider → row.eventId = event.eventId →
    row.toLedgerFields.Failed ∨ row.path = .duplicateDelivery

variable [GuardStore S]

/-- The call acts on the event, and its row is not that of a redelivery. -/
def RoutesAgain (p : RecoveryPipeline τ) (id : Nat) (event : NormalisedEvent)
    (w : World S (Env τ)) : Prop :=
  ∃ w', (p.process id).run w = (.ok (some (w.env.db.ledger.rows.length + 1)), w') ∧
    p.Handled id event w w' ∧
    ∀ row ∈ w'.env.db.ledger.rows, row.internalEventId = id → row.path ≠ .duplicateDelivery

/-- A delivery without a row is acted on whenever all earlier attempts at its event failed. -/
def Retryable (p : RecoveryPipeline τ) (w : World S (Env τ)) : Prop :=
  ∀ id event, Unrecorded w.env.db id event → OnlyFailed w.env.db.ledger event →
    RoutesAgain p id event w

theorem routesAgain_of_due (p : RecoveryPipeline τ) {id : Nat} {event : NormalisedEvent}
    {w : World S (Env τ)} (hdue : Due w.env.db id event) : RoutesAgain p id event w := by
  rcases p.process_cases id w with ⟨answer, hidle, _, _⟩ | ⟨event', earlier, hre, _, _⟩ |
    ⟨event', hdue', hrun, _⟩
  · exact absurd hdue (hidle.not_due event)
  · exact absurd hdue (hre.not_due event)
  · obtain rfl := hdue.toUnrecorded.event_unique hdue'.toUnrecorded
    obtain ⟨w', hrun', hhandled⟩ := p.handle_run event hdue.norow
    rw [run_map, hrun'] at hrun
    refine ⟨w', hrun, hhandled, fun row hmem hid => ?_⟩
    obtain ⟨latency, hrows⟩ := hhandled.rows
    rw [hrows] at hmem
    rcases List.mem_append.mp hmem with hold | hnew
    · exact absurd hid (Ledger.forEvent_none.mp hdue.norow row hold)
    · rw [List.mem_singleton.mp hnew]
      exact (p.acted_row hdue).1

theorem not_routesAgain_of_redelivered (p : RecoveryPipeline τ) {id : Nat}
    {event : NormalisedEvent} {earlier : LedgerEntry} {w : World S (Env τ)}
    (hre : Redelivered w.env.db id event earlier) : ¬ RoutesAgain p id event w := by
  rintro ⟨w', hrun, _, hpath⟩
  rcases p.process_cases id w with ⟨answer, hidle, hrun', _⟩ | ⟨event', earlier', hre', hrun', _⟩ |
    ⟨event', hdue, _, _⟩
  · -- an idle call answers no new row
    rw [hrun] at hrun'
    injection hrun' with hanswer
    cases hidle with
    | recorded entry hentry => rw [hre.norow] at hentry; cases hentry
    | unknown => cases hanswer
    | unreadable => cases hanswer
    | notFailed => cases hanswer
  · obtain ⟨v, hrun'', _, _, new, hrows, hid, _, hnew, _⟩ :=
      recordDuplicate_only earlier' hre'.toUnrecorded
    rw [hrun, run_map, hrun''] at hrun'
    injection hrun' with _ hv
    refine hpath new ?_ hid hnew
    rw [hv, hrows]
    exact List.mem_append_right _ List.mem_cons_self
  · exact absurd hdue (hre.not_due event')

omit [GuardStore S] in
/-- Nothing of the event counts as processed if all attempts at it failed on the path of
failures. -/
theorem due_of_onlyFailed {id : Nat} {event : NormalisedEvent} {w : World S (Env τ)}
    (hun : Unrecorded w.env.db id event) (hfailed : OnlyFailed w.env.db.ledger event)
    (hsettled : ∀ row ∈ w.env.db.ledger.rows, row.eventId ≠ "" → row.toLedgerFields.Failed →
      Ledger.LedgerPath.counts row.path = false) : Due w.env.db id event := by
  refine ⟨hun, ?_⟩
  by_cases hempty : event.eventId = ""
  · exact if_pos hempty
  · unfold Ledger.processedDelivery
    rw [if_neg hempty, List.find?_eq_none]
    intro row hmem hfound
    obtain ⟨hprovider, heventId, hcounts⟩ := of_decide_eq_true hfound
    rcases hfailed row hmem hprovider heventId with h | h
    · rw [hsettled row hmem (heventId ▸ hempty) h] at hcounts
      cases hcounts
    · rw [h] at hcounts
      cases hcounts

/-! ## Reachable states -/

/-- What a row on the path of failures tells is a failure. -/
def FailuresTold (w : World S (Env τ)) : Prop :=
  ∀ row ∈ w.env.db.ledger.rows, row.path = .failed → row.toLedgerFields.Failed

/-- No failure stands on a path that counts. -/
def FailuresApart (w : World S (Env τ)) : Prop :=
  ∀ row ∈ w.env.db.ledger.rows, row.eventId ≠ "" → row.toLedgerFields.Failed →
    Ledger.LedgerPath.counts row.path = false

omit [GuardStore S] in
/-- A property of all rows is kept by a new row that has it. -/
theorem rows_recorded {P : LedgerEntry → Prop} {id : Nat} {event : NormalisedEvent}
    {fields : LedgerFields} {w c : World S (Env τ)} (hun : Unrecorded w.env.db id event)
    (hrec : RecoveryPipeline.Recorded id event fields w c)
    (hold : ∀ row ∈ w.env.db.ledger.rows, P row)
    (hnew : P (w.env.db.ledger.newRow (RecoveryPipeline.baseOf id event) fields)) :
    ∀ row ∈ c.env.db.ledger.rows, P row := by
  intro row hrow
  rw [hrec.ledger, (Ledger.record_new _ _ (by exact hun.norow)).2] at hrow
  rcases List.mem_append.mp hrow with hmem | hmem
  · exact hold row hmem
  · rw [List.mem_singleton.mp hmem]
    exact hnew

theorem FailuresTold.writes {p : RecoveryPipeline τ} {id : Nat} {w c : World S (Env τ)}
    (h : FailuresTold w) (hwrites : p.Writes id w c) : FailuresTold c := by
  cases hwrites with
  | nothing hsame => exact fun row hrow => h row (hsame.1 ▸ hrow)
  | duplicate event earlier hre hrec =>
    exact rows_recorded hre.toUnrecorded hrec h fun hpath => by cases hpath
  | acted event latency hdue hrec =>
    exact rows_recorded hdue.toUnrecorded hrec h (p.acted_row hdue).2.1

/-- A call that settles keeps failures on their path. -/
theorem FailuresApart.writes {p : RecoveryPipeline τ} {id : Nat} {w c : World S (Env τ)}
    (h : FailuresApart w) (hsettles : p.Settles w id) (hwrites : p.Writes id w c) :
    FailuresApart c := by
  cases hwrites with
  | nothing hsame => exact fun row hrow => h row (hsame.1 ▸ hrow)
  | duplicate event earlier hre hrec =>
    exact rows_recorded hre.toUnrecorded hrec h fun _ _ => rfl
  | acted event latency hdue hrec =>
    refine rows_recorded hdue.toUnrecorded hrec h fun hne hfailed => ?_
    have hpath := (p.acted_row hdue).2.2 hne hsettles hfailed
    show Ledger.LedgerPath.counts (RecoveryPipeline.fieldsOf (p.acted event w).1).path = false
    rw [hpath]
    rfl

theorem runOps_failuresTold (ops : List (Op τ)) {w : World S (Env τ)} (hw : FailuresTold w) :
    FailuresTold (runOps ops w) :=
  Run.exec_inv (P := FailuresTold) (fun _ op h => op.run_keeps_all (I := FailuresTold)
    (fun _ _ _ _ h hwrites => h.writes hwrites) (fun _ _ h => h) (fun _ _ h => h)
    (fun _ _ h => h) h) hw

theorem runOps_failuresApart (ops : List (Op τ)) {w : World S (Env τ)} (hw : FailuresApart w)
    (halong : Run.Along Op.run (fun v op => op.Calls RecoveryPipeline.Settles v) ops w) :
    FailuresApart (runOps ops w) :=
  Run.exec_inv_along (P := FailuresApart) (fun _ op h hcalls => op.run_keeps (I := FailuresApart)
    (fun _ _ _ _ h hsettles hwrites => h.writes hsettles hwrites) (fun _ _ h => h)
    (fun _ _ h => h) (fun _ _ h => h) h hcalls) hw halong

/-- A delivery of the same provider event, whose own data do not matter. -/
def LedgerEntry.redelivery (row : LedgerEntry) : NormalisedEvent where
  provider := row.provider
  eventId := row.eventId
  eventType := .paymentFailed
  paymentId := row.paymentId
  amountInr := row.amountInr
  failureReason := none
  occurredAt := none

/-- A failure on a path that counts is the only row of its event that does, so a redelivery of
the event is refused although every attempt at it failed. -/
theorem not_retryable_of_counted (p : RecoveryPipeline τ) {w : World S (Env τ)}
    (horderly : Orderly w.env.db) (htold : FailuresTold w) {row : LedgerEntry} {id : Nat}
    {event : NormalisedEvent} (hmem : row ∈ w.env.db.ledger.rows)
    (hprovider : event.provider = row.provider) (heventId : event.eventId = row.eventId)
    (hne : row.eventId ≠ "") (hfailed : row.toLedgerFields.Failed)
    (hcounts : Ledger.LedgerPath.counts row.path = true)
    (hun : Unrecorded w.env.db id event) : ¬ Retryable p w := by
  intro hretryable
  have hin : row ∈ w.env.db.ledger.actedOn row.provider row.eventId :=
    List.mem_filter.mpr ⟨hmem, by simp [hcounts]⟩
  have honly : OnlyFailed w.env.db.ledger event := by
    intro other hother hprovider' heventId'
    cases hpath : Ledger.LedgerPath.counts other.path with
    | true =>
      have hother' : other ∈ w.env.db.ledger.actedOn row.provider row.eventId :=
        List.mem_filter.mpr ⟨hother, decide_eq_true
          ⟨hprovider'.trans hprovider, heventId'.trans heventId, hpath⟩⟩
      exact .inl (horderly.acted_unique hne hin hother' ▸ hfailed)
    | false =>
      cases hp : other.path with
      | deterministic => rw [hp] at hpath; cases hpath
      | llm => rw [hp] at hpath; cases hpath
      | duplicateDelivery => exact .inr rfl
      | failed => exact .inl (htold other hother hp)
  have hearlier : w.env.db.ledger.processedDelivery event.provider event.eventId ≠ none := by
    rw [hprovider, heventId, Ledger.processedDelivery_eq _ hne, Ne, List.head?_eq_none_iff]
    exact List.ne_nil_of_mem hin
  obtain ⟨earlier, hsome⟩ := Option.ne_none_iff_exists'.mp hearlier
  exact not_routesAgain_of_redelivered p ⟨hun, hsome⟩ (hretryable id event hun honly)

/-- **Failed attempts and redeliveries.** After any history: whatever is delivered next, a
redelivery of an event whose attempts all failed is routed again, if and only if no row of a
failed attempt stands on the path of rules or of the agent. No such row comes about in a
history whose calls all settle. -/
theorem failed_attempts_retryable_iff (p : RecoveryPipeline τ) (store : S) (outer : τ)
    (rules : List RuleRow) (ops : List (Op τ)) :
    ((∀ event : NormalisedEvent, event.eventType = .paymentFailed →
        Retryable p ((Op.deliver event).run (runOps ops (World.opened store outer rules))).2) ↔
      ∀ row ∈ (runOps ops (World.opened store outer rules)).env.db.ledger.rows,
        row.eventId ≠ "" → row.toLedgerFields.Failed →
          row.path ≠ .deterministic ∧ row.path ≠ .llm) ∧
    (Run.Along Op.run (fun v op => op.Calls RecoveryPipeline.Settles v) ops
        (World.opened store outer rules) →
      Retryable p (runOps ops (World.opened store outer rules))) := by
  have horderly := (runOps_grown [] ops (grown_opened store outer rules)).1
  have hnumbered := (Numbered.opened store outer rules).runOps ops
  have htold : FailuresTold (runOps ops (World.opened store outer rules)) :=
    runOps_failuresTold ops fun row hrow => absurd hrow List.not_mem_nil
  have hapart := runOps_failuresApart (S := S) ops (w := World.opened store outer rules)
    fun row hrow => absurd hrow List.not_mem_nil
  generalize runOps ops (World.opened store outer rules) = w at *
  refine ⟨⟨fun hretryable row hmem hne hfailed => ?_, fun hpaths event _ id e hun honly => ?_⟩,
    fun halong id e hun honly => routesAgain_of_due p (due_of_onlyFailed hun honly (hapart halong))⟩
  · by_contra hcounted
    have hcounts : Ledger.LedgerPath.counts row.path = true := by
      cases hp : row.path <;> first | rfl | exact absurd (by rw [hp]; decide) hcounted
    exact not_retryable_of_counted (w := ((Op.deliver row.redelivery).run w).2) p
      (horderly.delivered row.redelivery) htold hmem rfl rfl hne hfailed hcounts
      (hnumbered.unrecorded_delivered rfl) (hretryable row.redelivery rfl)
  · refine routesAgain_of_due p (due_of_onlyFailed hun honly fun row hmem hne hfailed => ?_)
    obtain ⟨hrule, hagent⟩ := hpaths row hmem hne hfailed
    cases hp : row.path with
    | deterministic => exact absurd hp hrule
    | llm => exact absurd hp hagent
    | duplicateDelivery => rfl
    | failed => rfl

/-- The LLM answers with no decision. -/
def Sample.malformed : World SqlGuardStore (Env Sample.Outside) :=
  runOps [.deliver (Sample.failed "evt_1" .unknown), .process Sample.pipeline 1 .lives]
    (World.opened GuardStore.empty ⟨[.obj []], false⟩ [])

/-- The only attempt failed, and its redelivery is not routed again. -/
theorem failed_attempt_not_retryable : ¬ Retryable Sample.pipeline
    ((Op.deliver (Sample.failed "evt_1" .unknown)).run Sample.malformed).2 := by
  have hrow : ∃ row ∈ Sample.malformed.env.db.ledger.rows, row.provider = "razorpay" ∧
      row.eventId = "evt_1" ∧ row.outcome = "failed_malformed_output" ∧ row.path = .llm := by
    decide +kernel
  obtain ⟨row, hmem, hprovider, heventId, houtcome, hpath⟩ := hrow
  have hnumbered : Numbered Sample.malformed := (Numbered.opened _ _ _).runOps _
  refine not_retryable_of_counted Sample.pipeline
    ((runOps_grown [] _ (grown_opened _ _ _)).1.delivered _)
    (runOps_failuresTold _ fun row hrow => absurd hrow List.not_mem_nil) hmem hprovider.symm
    heventId.symm (by rw [heventId]; decide) ?_ (by rw [hpath]; rfl)
    (hnumbered.unrecorded_delivered rfl)
  unfold LedgerFields.Failed
  rw [houtcome]
  decide

end PaymentRecovery.Recovery
