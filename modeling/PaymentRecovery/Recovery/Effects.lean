import PaymentRecovery.Recovery.Rows
import PaymentRecovery.Guardrails.SqlStore

/-!
# Effects in the ledger

Whether the row of an event keeps the effects made while it was processed, and
whether a row that tells a resolution stands for an effect. The rule path keeps
both. On the agent path an effect is lost when the loop is left by an exception,
or goes on to a call with another answer.
-/

namespace PaymentRecovery.Recovery

open PaymentRecovery.Python PaymentRecovery.Guardrails PaymentRecovery.Providers
open PaymentRecovery.Agent PaymentRecovery.Lib Program

variable {S τ : Type} [GuardStore S]

/-! ## The row of an event -/

/-- The new row of a handled event. -/
theorem RecoveryPipeline.Handled.row {p : RecoveryPipeline τ} {id : Nat}
    {event : NormalisedEvent} {w w' : World S (Env τ)} (h : p.Handled id event w w')
    (hnew : w.env.db.ledger.forEvent id = none) :
    ∃ row : LedgerEntry, w'.env.db.ledger.rows = w.env.db.ledger.rows ++ [row] ∧
      row.internalEventId = id ∧ row.paymentId = event.paymentId ∧
      row.action = (RecoveryPipeline.fieldsOf (p.acted event w).1).action ∧
      row.executionStatus = (RecoveryPipeline.fieldsOf (p.acted event w).1).executionStatus ∧
      row.outcome = (RecoveryPipeline.fieldsOf (p.acted event w).1).outcome ∧
      row.approvalId = (RecoveryPipeline.fieldsOf (p.acted event w).1).approvalId ∧
      ∀ other ∈ w'.env.db.ledger.rows, other.internalEventId = id → other = row := by
  obtain ⟨latency, hrows⟩ := h.rows
  refine ⟨_, hrows, rfl, rfl, rfl, rfl, rfl, rfl, fun other hmem hid => ?_⟩
  rw [hrows] at hmem
  rcases List.mem_append.mp hmem with hold | hlast
  · exact absurd hid (Ledger.forEvent_none.mp hnew other hold)
  · exact List.mem_singleton.mp hlast

theorem lastAnswer_eq (done : List (Action × ExecutionResult)) :
    lastAnswer done (none, none) =
      (done.getLast?.map (·.2.status), done.getLast?.map (·.1.name)) := by
  induction done using List.reverseRecOn with
  | nil => rfl
  | append_singleton rest call _ =>
    unfold lastAnswer
    rw [List.foldl_append, List.getLast?_append]
    rfl

/-- The action a trajectory names is that of the last call. -/
theorem resolutionAction_eq {done : List (Action × ExecutionResult)} {trajectory : Trajectory}
    (h : Tells done trajectory) : trajectory.resolutionAction = done.getLast?.map (·.1.name) := by
  rw [h.action, lastAnswer_eq]

/-- The last effect step of a trajectory is the answer of the last call. -/
theorem lastEffectStatus_eq {done : List (Action × ExecutionResult)} {trajectory : Trajectory}
    (h : Tells done trajectory) :
    RecoveryPipeline.lastEffectStatus trajectory.steps =
      done.getLast?.map (·.2.status.value) := by
  have hlast := congrArg List.getLast? h.effects
  rw [List.getLast?_map] at hlast
  rw [← hlast, List.getLast?_eq_head?_reverse, ← List.filterMap_reverse, List.head?_filterMap]
  rfl

/-! ## No effect is missing -/

/-- The row of an event tells the effects made while it was processed: it says `executed`, and
names an action that was. -/
def RecordsEffects (id : Nat) (w w' : World S (Env τ)) : Prop :=
  (∃ name, ExecutedDuring w w' name) →
    ∃ row ∈ w'.env.db.ledger.rows, row.internalEventId = id ∧
      row.executionStatus = some ExecutionStatus.executed.value ∧
      ∃ name, row.action = some name ∧ ExecutedDuring w w' name

/-- If the agent's run executes anything, no exception leaves its loop, and the last action
it presents meets a guard state that admits it. -/
def RecoveryPipeline.EndsExecuted [LawfulGuardStore S] (p : RecoveryPipeline τ)
    (case : RecoveryCase) (provider : PaymentProvider τ) (w : World S (Env τ)) : Prop :=
  (∃ name, ExecutedDuring w ((p.runRecovery case provider).run w).2 name) →
    (∃ trajectory, ((p.runRecovery case provider).run w).1 = .ok trajectory) ∧
    EndsIn (p.caseExecutor case provider) (Admitted (p.caseExecutor case provider)) w.snapshot
      ((p.runRecovery case provider).run w).2.snapshot

/-- What is returned for the row tells the effects made since `w`. -/
def FieldsRecord (w : World S (Env τ)) (answer : Except PyExc LedgerFields)
    (w' : World S (Env τ)) : Prop :=
  (∃ name, ExecutedDuring w w' name) →
    (RecoveryPipeline.fieldsOf answer).executionStatus = some ExecutionStatus.executed.value ∧
    ∃ name, (RecoveryPipeline.fieldsOf answer).action = some name ∧ ExecutedDuring w w' name

theorem executedDuring_congr {w₁ w₂ w₁' w₂' : World S (Env τ)} (h : w₁.store = w₂.store)
    (h' : w₁'.store = w₂'.store) (name : String) :
    ExecutedDuring w₁ w₁' name ↔ ExecutedDuring w₂ w₂' name := by
  unfold ExecutedDuring newEntries
  rw [h, h']

/-- The row of a due event keeps the effects if and only if its fields do. -/
theorem RecoveryPipeline.Handled.records_iff {p : RecoveryPipeline τ} {id : Nat}
    {event : NormalisedEvent} {w w' : World S (Env τ)} (h : p.Handled id event w w')
    (hnew : w.env.db.ledger.forEvent id = none) :
    RecordsEffects id w w' ↔ FieldsRecord w (p.acted event w).1 (p.acted event w).2 := by
  obtain ⟨row, hrows, hid, _, haction, hstatus, _, _, honly⟩ := h.row hnew
  have hduring : ∀ name, ExecutedDuring w w' name ↔ ExecutedDuring w (p.acted event w).2 name :=
    executedDuring_congr rfl h.store
  unfold RecordsEffects FieldsRecord
  simp only [hduring]
  rw [← haction, ← hstatus]
  refine imp_congr_right fun _ => ⟨?_, fun hrow => ?_⟩
  · rintro ⟨other, hmem, hother, hfields⟩
    rw [honly other hmem hother] at hfields
    exact hfields
  · refine ⟨row, ?_, hid, hrow⟩
    rw [hrows]
    exact List.mem_append_right _ List.mem_cons_self

variable [LawfulGuardStore S]

/-- The agent's row tells the effects of its run if and only if the run ends executed. -/
theorem agent_records_iff (p : RecoveryPipeline τ) (case : RecoveryCase)
    (provider : PaymentProvider τ) (w : World S (Env τ)) :
    FieldsRecord w ((p.runAgent case provider).run w).1 ((p.runAgent case provider).run w).2 ↔
    p.EndsExecuted case provider w := by
  obtain ⟨done, s, hexec, _, hends⟩ := p.runAgent_ends case provider w
  unfold RecoveryPipeline.EndsExecuted FieldsRecord
  cases hends with
  | raised exc hloop hrow hend =>
    -- the row says nothing, so nothing may have been executed
    rw [hrow]
    refine imp_congr_right fun _ => ⟨fun h => (by cases h.1), ?_⟩
    rintro ⟨⟨trajectory, hok⟩, _⟩
    rw [hloop] at hok
    cases hok
  | returned trajectory trajectoryId hloop hsnap htells hrow hstore hjournal =>
    have hduring : ∀ name, ExecutedDuring w ((p.runAgent case provider).run w).2 name ↔
        ExecutedDuring w ((p.runRecovery case provider).run w).2 name :=
      executedDuring_congr rfl hstore
    have hcalls : ∀ name, ExecutedDuring w ((p.runRecovery case provider).run w).2 name ↔
        ∃ call ∈ done, call.2.status = .executed ∧ call.1.name = name :=
      executedDuring_iff hexec (.inl hsnap)
    have hstatus := lastEffectStatus_eq htells
    have haction := resolutionAction_eq htells
    rw [← hsnap] at hexec
    rw [hrow, hloop, hexec.endsIn_iff fun _ _ _ _ hstep => hstep.executed_iff]
    simp only [hduring]
    refine imp_congr_right fun _ => ⟨fun h => ⟨⟨trajectory, rfl⟩, ?_⟩, ?_⟩
    · have hlast : done.getLast?.map (·.2.status.value) = some ExecutionStatus.executed.value :=
        hstatus.symm.trans h.1
      obtain ⟨call, hcall, hvalue⟩ := Option.map_eq_some_iff.mp hlast
      rw [hcall]
      exact congrArg some (ExecutionStatus.value_injective hvalue)
    · rintro ⟨_, hlast⟩
      obtain ⟨call, hcall, hvalue⟩ := Option.map_eq_some_iff.mp hlast
      refine ⟨?_, call.1.name, ?_, (hcalls _).mpr ⟨call, List.mem_of_getLast? hcall, hvalue, rfl⟩⟩
      · show RecoveryPipeline.lastEffectStatus trajectory.steps = _
        rw [hstatus, hcall, Option.map_some, hvalue]
      · show trajectory.resolutionAction = _
        rw [haction, hcall, Option.map_some]

/-- A rule's row always tells the effect. -/
theorem rule_records (p : RecoveryPipeline τ) (case : RecoveryCase)
    (provider : PaymentProvider τ) (decision : RoutingDecision) (w : World S (Env τ)) :
    FieldsRecord w ((p.runRule case provider decision).run w).1
      ((p.runRule case provider decision).run w).2 := by
  rintro ⟨name, hname⟩
  obtain ⟨done, s, hexec, _, hend⟩ := p.runRule_traces case provider decision w
  cases hrow : ((p.runRule case provider decision).run w).1 with
  | error exc =>
    -- the one call of a rule raised: it was not executed
    obtain ⟨call, hcall, _⟩ :=
      (executedDuring_iff (.nil _) (p.runRule_raised hrow) name).mp hname
    exact absurd hcall List.not_mem_nil
  | ok fields =>
    rw [hrow] at hend
    obtain ⟨hsnap, htells⟩ := hend
    have hcalls := executedDuring_iff hexec (.inl hsnap)
    obtain ⟨call, hcall, hstatus, _⟩ := (hcalls name).mp hname
    cases htells with
    | nothing => exact absurd hcall List.not_mem_nil
    | answered action result haction =>
      rw [List.mem_singleton.mp hcall] at hstatus
      refine ⟨by show some result.status.value = _; rw [hstatus], action.name, haction,
        (hcalls _).mpr ⟨_, List.mem_cons_self, hstatus, rfl⟩⟩

/-- **Which effects the ledger keeps.** The row of an event tells the effects made while it
was processed if and only if, where the event is handed to the agent, the agent's run
executes nothing or ends executed. -/
theorem effects_recorded_iff (p : RecoveryPipeline τ) (id : Nat) (w : World S (Env τ)) :
    RecordsEffects id w ((p.process id).run w).2 ↔
      ∀ event case provider decision w₁, Due w.env.db id event →
        p.Reaches event w case provider decision w₁ → decision.route = .escalateToAgent →
        p.EndsExecuted case provider w₁ := by
  have hduring : ∀ {w₁ : World S (Env τ)}, w₁.store = w.store → ∀ w' name,
      ExecutedDuring w w' name ↔ ExecutedDuring w₁ w' name :=
    fun hstore _ name => executedDuring_congr hstore.symm rfl name
  refine p.process_iff_agent id w (X := FieldsRecord w) (A := p.EndsExecuted)
    (fun w' hstore => ?_) (fun event w' hdue hhandled => hhandled.records_iff hdue.norow)
    (fun exc w' hstore => ?_) (fun case provider decision w₁ hstore => ?_)
    fun case provider w₁ hstore => ?_
  · rintro ⟨name, hname⟩
    exact absurd hname (not_executedDuring_same hstore name)
  · rintro ⟨name, hname⟩
    exact absurd hname (not_executedDuring_same hstore name)
  · unfold FieldsRecord
    simp only [hduring hstore]
    exact rule_records p case provider decision w₁
  · unfold FieldsRecord
    simp only [hduring hstore]
    exact agent_records_iff p case provider w₁

/-! ## A sample application -/

namespace Sample

/-- The LLM's coming answers, after which its client raises, and whether the provider's
answers get lost. -/
structure Outside where
  script : List Json
  lossy : Bool

/-- Every payment is a card payment of 900 rupees. Effects are always applied. -/
def provider : PaymentProvider Outside where
  name := "razorpay"
  getPayment id o := (.ok ⟨id, 900, .failed, .card, none, none, none, none⟩, o)
  getOrder id o := (.error ⟨.resourceNotFound, id⟩, o)
  getCustomerHistory id o := (.error ⟨.resourceNotFound, id⟩, o)
  createPaymentLink _ _ o :=
    (⟨true, if o.lossy then .error ⟨.providerAPIError, "timeout"⟩
      else .ok ⟨"plink_1", "https://rzp.io/i/1", .created⟩⟩, o)
  refundPayment _ amount _ o :=
    (⟨true, if o.lossy then .error ⟨.providerAPIError, "timeout"⟩
      else .ok ⟨"rfnd_1", amount, .processed⟩⟩, o)

/-- A pipeline whose LLM follows the script. Refunds are gated, links are not. -/
def pipeline : RecoveryPipeline Outside where
  registry := dictOf [("razorpay", provider)]
  settings := ⟨500, 3, 2000, 5, 30, 0, 0⟩
  llm _ o := match o.script with
    | [] => (.error ⟨.other "RuntimeError", "client down"⟩, o)
    | answer :: rest => (.ok ⟨"", .ok answer, 1, 1, 0, false⟩, { o with script := rest })
  prompt := ⟨"recovery.v1", .malformed ""⟩
  monotonic o := (0, o)
  now o := (0, o)
  isoNow o := ("", o)

def failed (eventId : String) (reason : FailureReason) : NormalisedEvent :=
  ⟨"razorpay", eventId, .paymentFailed, "pay_1", 900, some reason, none⟩

/-- The LLM asks for a link. -/
def sendLink : Json :=
  .obj [("action", .obj [("tool", .str "create_payment_link"),
    ("args", .obj [("amount_inr", .int 900)])])]

/-- The LLM finishes. -/
def finish : Json := .obj [("final", .obj [("resolution", .str "send_payment_link")])]

/-- One failed payment arrived, and no rule is active. -/
def arrived (script : List Json) : World SqlGuardStore (Env Outside) :=
  runOps [.deliver (failed "evt_1" .unknown)] (World.opened GuardStore.empty ⟨script, false⟩ [])

end Sample

/-- A link is sent, and then the LLM's client raises. -/
theorem effects_not_recorded : ¬ RecordsEffects 1 (Sample.arrived [Sample.sendLink])
    ((Sample.pipeline.process 1).run (Sample.arrived [Sample.sendLink])).2 := by
  intro hrecords
  have hsent : ∃ entry ∈ newEntries (Sample.arrived [Sample.sendLink])
      ((Sample.pipeline.process 1).run (Sample.arrived [Sample.sendLink])).2 "pay_1",
      entry.decision = ExecutionStatus.executed.value ∧ entry.actionName = "send_payment_link" := by
    decide +kernel
  have hrows : ∀ row ∈ ((Sample.pipeline.process 1).run
      (Sample.arrived [Sample.sendLink])).2.env.db.ledger.rows, row.executionStatus = none := by
    decide +kernel
  obtain ⟨row, hmem, _, hstatus, _⟩ := hrecords ⟨"send_payment_link", "pay_1", hsent⟩
  rw [hrows row hmem] at hstatus
  cases hstatus

end PaymentRecovery.Recovery
