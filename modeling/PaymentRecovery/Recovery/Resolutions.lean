import PaymentRecovery.Recovery.Effects

/-!
# Resolutions in the ledger

What stands behind a row that says `resolved` or `escalated`. If the row names an
action, the log of the payment's run has an executed entry of that name, for an
answer `duplicate` is given only under a key whose effect was logged. The agent
can also finish without presenting anything: its row then names no action.
-/

namespace PaymentRecovery.Recovery

open PaymentRecovery.Python PaymentRecovery.Guardrails PaymentRecovery.Providers
open PaymentRecovery.Agent PaymentRecovery.Lib Program

variable {S τ : Type}

/-! ## Results and their entries -/

/-- The run's log has an executed entry of this name. -/
def LoggedAs (g : GuardState) (run name : String) : Prop :=
  ∃ entry ∈ g.audit run, entry.decision = ExecutionStatus.executed.value ∧ entry.actionName = name

/-- Every result stored under the key of a payment's action has its executed entry. -/
def Logged (g : GuardState) : Prop :=
  ∀ case action, BuiltFor case action →
    g.result case.paymentId action.idempotencyKey ≠ none → LoggedAs g case.paymentId action.name

/-- Nothing is stored in a store nobody has used. -/
theorem Logged.init : Logged .init :=
  fun _ _ _ h => absurd rfl h

theorem LoggedAs.grow {g g' : GuardState} {run name : String} (h : LoggedAs g run name)
    (hgrows : g.audit run <+: g'.audit run) : LoggedAs g' run name := by
  obtain ⟨entry, hmem, hentry⟩ := h
  exact ⟨entry, hgrows.subset hmem, hentry⟩

/-- An executed call leaves its entry. -/
theorem LoggedAs.of_executed {σ : Type} {ex : GuardedExecutor σ} {action : Action}
    {s s' : Snapshot} {result : ExecutionResult} (hstep : ExecuteStep ex action s (.ok result) s')
    (hstatus : result.status = .executed) : LoggedAs s'.state ex.runId action.name := by
  obtain ⟨entry, habout, hdecision, haudit⟩ := hstep.audit_returned
  injection habout with hname
  refine ⟨entry, ?_, by rw [hdecision, hstatus], hname⟩
  rw [haudit, if_pos rfl]
  exact List.mem_append_right _ List.mem_cons_self

/-- One call that presents an action of its case keeps the entries of all results. -/
theorem Logged.step {p : RecoveryPipeline τ} {case : RecoveryCase} {provider : PaymentProvider τ}
    {action : Action} {s s' : Snapshot} {answer : Except PyExc ExecutionResult}
    (h : Logged s.state) (hbuilt : BuiltFor case action)
    (hstep : ExecuteStep (p.caseExecutor case provider) action s answer s') :
    Logged s'.state := by
  intro case' action' hbuilt' hres
  rcases hstep.result_new hres with hold | ⟨hrun, hkey, result, hanswer, hstatus⟩
  · exact (h case' action' hbuilt' hold).grow (hstep.audit_prefix _)
  · -- the new result is that of this call
    rw [hanswer] at hstep
    rw [hrun, hbuilt'.name_eq hbuilt hrun hkey]
    exact .of_executed hstep hstatus

/-- What an answer `executed` or `duplicate` stands for. -/
theorem Logged.answered {p : RecoveryPipeline τ} {case : RecoveryCase}
    {provider : PaymentProvider τ} {action : Action} {s s' : Snapshot} {result : ExecutionResult}
    (h : Logged s.state) (hbuilt : BuiltFor case action)
    (hstep : ExecuteStep (p.caseExecutor case provider) action s (.ok result) s')
    (hstatus : result.status = .executed ∨ result.status = .duplicate) :
    LoggedAs s'.state case.paymentId action.name := by
  rcases hstatus with hexecuted | hduplicate
  · exact .of_executed hstep hexecuted
  · exact (h case action hbuilt (hstep.result_of_duplicate hduplicate)).grow
      (hstep.audit_prefix _)

/-- What stands behind the last answer of a run of calls. -/
theorem Logged.last_answered {p : RecoveryPipeline τ} {case : RecoveryCase}
    {provider : PaymentProvider τ} {s s' : Snapshot} {done : List (Action × ExecutionResult)}
    {call : Action × ExecutionResult} (h : Logged s.state)
    (hexec : Executes (p.caseExecutor case provider) s done s')
    (hbuilt : ∀ c ∈ done, BuiltFor case c.1) (hcall : done.getLast? = some call)
    (hstatus : call.2.status = .executed ∨ call.2.status = .duplicate) :
    LoggedAs s'.state case.paymentId call.1.name := by
  obtain ⟨before, rfl⟩ := List.getLast?_eq_some_iff.mp hcall
  obtain ⟨s₁, hbefore, hstep⟩ := hexec.last
  have hlogged : Logged s₁.state :=
    hbefore.preserves (I := fun s => Logged s.state)
      (fun _ _ _ _ hok hs hstep => Logged.step hs hok hstep)
      (fun c hc => hbuilt c (List.mem_append_left _ hc)) h
  exact hlogged.answered (hbuilt call (List.mem_append_right _ List.mem_cons_self)) hstep hstatus

/-- An agent that resolved its case presented nothing, or its last action was executed or had
been before. -/
theorem last_of_resolved {done : List (Action × ExecutionResult)} {trajectory : Trajectory}
    (htells : Tells done trajectory)
    (hresolved : trajectory.outcome = .resolved ∨ trajectory.outcome = .escalated) :
    done.getLast?.map (·.2.status) = none ∨ done.getLast?.map (·.2.status) = some .executed ∨
      done.getLast?.map (·.2.status) = some .duplicate := by
  rcases htells.outcome with h | h | h | ⟨resolution, progress, h, hprogress⟩
  · rcases hresolved with h' | h' <;> rw [h] at h' <;> cases h'
  · rcases hresolved with h' | h' <;> rw [h] at h' <;> cases h'
  · rcases hresolved with h' | h' <;> rw [h] at h' <;> cases h'
  · -- a final decision: the outcome is read off the last status
    rw [lastAnswer_eq] at hprogress
    injection hprogress with hstatus
    rw [← hstatus]
    exact AgentLoop.finalOutcome_settled.mp (h ▸ hresolved)

section World

variable [GuardStore S] [LawfulGuardStore S]

theorem Logged.keeps (p : RecoveryPipeline τ) :
    p.Keeps (fun _ : World S (Env τ) => True) (fun w => Logged w.snapshot.state) :=
  RecoveryPipeline.Keeps.of_snapshot (C := fun _ => True) p (fun _ _ => trivial)
    (fun _ _ _ _ => trivial) fun hbuilt _ h hstep => Logged.step h hbuilt hstep

/-! ## The row of the rule and the row of the agent -/

/-- An executed entry stands behind the action the row names; or it names none, and nothing
was presented to the executor. -/
inductive Backed (run : String) (w w' : World S (Env τ)) (fields : LedgerFields) : Prop
  | executed (name : String) (haction : fields.action = some name)
    (hlogged : LoggedAs w'.snapshot.state run name) : Backed run w w' fields
  | unpresented (haction : fields.action = none) (hstatus : fields.executionStatus = none)
    (hpath : fields.path = .llm) (hsame : w'.snapshot = w.snapshot) : Backed run w w' fields

/-- The row says that the payment was resolved or escalated. -/
def LedgerFields.Resolves (fields : LedgerFields) : Prop :=
  fields.outcome = "resolved" ∨ fields.outcome = "escalated"

instance (fields : LedgerFields) : Decidable fields.Resolves :=
  inferInstanceAs (Decidable (_ ∨ _))

theorem outcomeFor_resolves {status : ExecutionStatus} {action : String}
    (h : RecoveryPipeline.outcomeFor status action = "resolved" ∨
      RecoveryPipeline.outcomeFor status action = "escalated") : status = .executed := by
  cases status with
  | executed => rfl
  | duplicate => exact absurd h (by simp [RecoveryPipeline.outcomeFor])
  | pendingApproval => exact absurd h (by simp [RecoveryPipeline.outcomeFor])
  | rejectedActionBudget => exact absurd h (by simp [RecoveryPipeline.outcomeFor])
  | rejectedSpendCap => exact absurd h (by simp [RecoveryPipeline.outcomeFor])
  | rejectedBreakerOpen => exact absurd h (by simp [RecoveryPipeline.outcomeFor])

theorem rule_backed (p : RecoveryPipeline τ) {case : RecoveryCase} {provider : PaymentProvider τ}
    {decision : RoutingDecision} {w : World S (Env τ)} {fields : LedgerFields}
    (hlogged : Logged w.snapshot.state)
    (hrow : ((p.runRule case provider decision).run w).1 = .ok fields)
    (hresolves : fields.Resolves) :
    Backed case.paymentId w ((p.runRule case provider decision).run w).2 fields := by
  rcases p.runRule_returned hrow with ⟨_, htells⟩ | ⟨action, result, hbuilt, hstep, htells⟩
  · -- without an answer the row says `no_effect` or `failed`
    cases htells with
    | nothing _ haction houtcome =>
      rcases hresolves with h | h <;> rcases houtcome with h' | h' <;> rw [h] at h' <;>
        exact absurd h' (by decide)
  · cases htells with
    | answered _ _ hname =>
      have hstatus : result.status = .executed := outcomeFor_resolves hresolves
      exact .executed action.name hname (hlogged.answered hbuilt hstep (.inl hstatus))

theorem agent_backed (p : RecoveryPipeline τ) {case : RecoveryCase}
    {provider : PaymentProvider τ} {w : World S (Env τ)} {fields : LedgerFields}
    (hlogged : Logged w.snapshot.state)
    (hrow : ((p.runAgent case provider).run w).1 = .ok fields) (hresolves : fields.Resolves) :
    Backed case.paymentId w ((p.runAgent case provider).run w).2 fields := by
  obtain ⟨done, s, hexec, hbuilt, hends⟩ := p.runAgent_ends case provider w
  cases hends with
  | raised exc hloop hraised =>
    rw [hraised] at hrow
    cases hrow
  | returned trajectory trajectoryId hloop hsnap htells hreturned hstore hjournal =>
    rw [hreturned] at hrow
    injection hrow with hfields
    subst hfields
    have hend : ((p.runAgent case provider).run w).2.snapshot = s := by
      rw [← hsnap]
      unfold World.snapshot
      rw [hstore, hjournal]
    have hresolved : trajectory.outcome = .resolved ∨ trajectory.outcome = .escalated :=
      hresolves.imp (fun h => AgentOutcome.value_injective h)
        fun h => AgentOutcome.value_injective h
    have hlast := last_of_resolved htells hresolved
    have haction := resolutionAction_eq htells
    cases hcall : done.getLast? with
    | none =>
      -- nothing was presented
      rw [List.getLast?_eq_none_iff.mp hcall] at hexec
      rw [hcall] at haction
      refine .unpresented haction ?_ rfl ?_
      · exact (lastEffectStatus_eq htells).trans (by rw [hcall]; rfl)
      · cases hexec with
        | nil => exact hend
    | some call =>
      rw [hcall] at hlast haction
      refine .executed call.1.name haction ?_
      rw [hend]
      refine hlogged.last_answered hexec hbuilt hcall ?_
      rcases hlast with h | h | h
      · cases h
      · exact .inl (Option.some.inj h)
      · exact .inr (Option.some.inj h)

theorem Backed.congr {run : String} {w₁ w₂ w₁' w₂' : World S (Env τ)} {fields : LedgerFields}
    (hstart : w₁.snapshot = w₂.snapshot) (hend : w₂'.snapshot = w₁'.snapshot)
    (h : Backed run w₁ w₁' fields) : Backed run w₂ w₂' fields := by
  cases h with
  | executed name haction hentry => exact .executed name haction (hend ▸ hentry)
  | unpresented haction hstatus hpath hquiet =>
    exact .unpresented haction hstatus hpath (hend.trans (hquiet.trans hstart))

omit [GuardStore S] [LawfulGuardStore S] in
/-- What was raised is recorded as `failed`. -/
theorem failedFields_unresolved (exc : PyExc) :
    ¬ (RecoveryPipeline.failedFields exc).Resolves := by
  unfold LedgerFields.Resolves RecoveryPipeline.failedFields
  dsimp only
  decide

theorem act_backed (p : RecoveryPipeline τ) {case : RecoveryCase} {provider : PaymentProvider τ}
    {decision : RoutingDecision} {w : World S (Env τ)} (hlogged : Logged w.snapshot.state)
    (hresolves : (RecoveryPipeline.fieldsOf ((p.act case provider decision).run w).1).Resolves) :
    Backed case.paymentId w ((p.act case provider decision).run w).2
      (RecoveryPipeline.fieldsOf ((p.act case provider decision).run w).1) := by
  cases hrow : ((p.act case provider decision).run w).1 with
  | error exc =>
    rw [hrow] at hresolves
    exact absurd hresolves (failedFields_unresolved exc)
  | ok fields =>
    rw [hrow] at hresolves
    unfold RecoveryPipeline.act at hrow ⊢
    cases hroute : decision.route with
    | deterministic =>
      rw [hroute] at hrow
      exact rule_backed p hlogged hrow hresolves
    | escalateToAgent =>
      rw [hroute] at hrow
      exact agent_backed p hlogged hrow hresolves

/-- **What stands behind a resolution.** Where the results of a store have their entries,
they have them after any call to `process`; and if the row the call writes says `resolved` or
`escalated`, an executed entry stands behind the action it names in the log of the payment's
run, or it names none and nothing was presented to the executor. -/
theorem resolution_backed (p : RecoveryPipeline τ) (id : Nat) (w : World S (Env τ))
    (hlogged : Logged w.snapshot.state) :
    Logged ((p.process id).run w).2.snapshot.state ∧
    ∀ row : LedgerEntry, ((p.process id).run w).2.env.db.ledger.rows =
        w.env.db.ledger.rows ++ [row] → row.Resolves →
      ∃ event case provider decision w₁, Due w.env.db id event ∧
        p.Reaches event w case provider decision w₁ ∧
        Backed case.paymentId w ((p.process id).run w).2 row.toLedgerFields := by
  refine ⟨(p.process_carries (Logged.keeps p) (fun _ _ h => ⟨trivial, h⟩) id).run hlogged, ?_⟩
  intro row hrow hresolves
  rcases p.process_cases id w with ⟨answer, _, hrun, _⟩ | ⟨event, earlier, hre, hrun, _⟩ |
    ⟨event, hdue, hrun, _⟩
  · rw [hrun] at hrow
    exact absurd (congrArg List.length hrow) (by simp)
  · -- the row of a redelivery says `duplicate`
    obtain ⟨w', hrun', _, _, new, hnew, _, _, _, houtcome⟩ :=
      recordDuplicate_only earlier hre.toUnrecorded
    rw [hrun, run_map, hrun'] at hrow
    have hsame : [row] = [new] := List.append_cancel_left (hrow.symm.trans hnew)
    injection hsame with hsame
    rw [hsame] at hresolves
    rcases hresolves with h | h <;> rw [houtcome] at h <;> exact absurd h (by decide)
  · obtain ⟨w', hrun', hhandled⟩ := p.handle_run event hdue.norow
    rw [hrun, run_map, hrun'] at hrow ⊢
    obtain ⟨latency, hrows⟩ := hhandled.rows
    have hsame := List.append_cancel_left (hrow.symm.trans hrows)
    injection hsame with hsame
    subst hsame
    have hsnap : w'.snapshot = (p.acted event w).2.snapshot := by
      unfold World.snapshot
      rw [hhandled.store, hhandled.journal]
    rcases p.acted_cases event w with ⟨exc, _, hraised, _⟩ |
      ⟨case, provider, decision, w₁, hreaches, hstore, hjournal, hacted⟩
    · -- routing raised, and the row says `failed`
      have hfailed : (RecoveryPipeline.fieldsOf (p.acted event w).1).Resolves := hresolves
      rw [hraised] at hfailed
      exact absurd hfailed (failedFields_unresolved exc)
    · have hstart : w₁.snapshot = w.snapshot := by
        unfold World.snapshot
        rw [hstore, hjournal]
      have hback : Backed case.paymentId w w' (RecoveryPipeline.fieldsOf (p.acted event w).1) := by
        have hfields : (RecoveryPipeline.fieldsOf (p.acted event w).1).Resolves := hresolves
        rw [hacted] at hfields hsnap ⊢
        refine Backed.congr hstart hsnap (act_backed p (hstart ▸ hlogged) hfields)
      refine ⟨event, case, provider, decision, w₁, hdue, hreaches, ?_⟩
      cases hback with
      | executed name haction hentry => exact .executed name haction hentry
      | unpresented haction hstatus hpath hquiet => exact .unpresented haction hstatus hpath hquiet

end World

/-- The row of a payment whose link was sent, with the entry behind it. -/
theorem resolution_backed_sample :
    ∃ row : LedgerEntry, ((Sample.pipeline.process 1).run
        (Sample.arrived [Sample.sendLink, Sample.finish])).2.env.db.ledger.rows = [row] ∧
      row.Resolves ∧ ∃ case : RecoveryCase, Backed case.paymentId
        (Sample.arrived [Sample.sendLink, Sample.finish])
        ((Sample.pipeline.process 1).run (Sample.arrived [Sample.sendLink, Sample.finish])).2
        row.toLedgerFields := by
  have hresolves : ∀ row ∈ ((Sample.pipeline.process 1).run
      (Sample.arrived [Sample.sendLink, Sample.finish])).2.env.db.ledger.rows,
      row.Resolves := by decide +kernel
  obtain ⟨row, hrow⟩ : ∃ row, ((Sample.pipeline.process 1).run
      (Sample.arrived [Sample.sendLink, Sample.finish])).2.env.db.ledger.rows = [row] :=
    List.length_eq_one_iff.mp (by decide +kernel)
  have hlogged : Logged (LawfulGuardStore.view (GuardStore.empty : SqlGuardStore)) := by
    rw [LawfulGuardStore.view_empty]
    exact Logged.init
  obtain ⟨_, hbacked⟩ := resolution_backed Sample.pipeline 1
    (Sample.arrived [Sample.sendLink, Sample.finish]) hlogged
  obtain ⟨event, case, _, _, _, _, _, hback⟩ :=
    hbacked row hrow (hresolves row (hrow ▸ List.mem_cons_self))
  exact ⟨row, hrow, hresolves row (hrow ▸ List.mem_cons_self), case, hback⟩

/-- The row says that the payment was resolved, and no executed entry of the run has the
row's action. -/
def Phantom (w : World SqlGuardStore (Env Sample.Outside)) (row : LedgerEntry) : Prop :=
  row.Resolves ∧ ¬ ∃ entry ∈ GuardStore.readAudit w.store "pay_1",
    entry.decision = ExecutionStatus.executed.value ∧ row.action = some entry.actionName

instance (w : World SqlGuardStore (Env Sample.Outside)) (row : LedgerEntry) :
    Decidable (Phantom w row) :=
  inferInstanceAs (Decidable (_ ∧ _))

/-- The link is sent and its result stored, and then the process dies before the entry is
written. -/
def Sample.interrupted : World SqlGuardStore (Env Sample.Outside) :=
  runOps [.process Sample.pipeline 1 (.dies 18)]
    (Sample.arrived [Sample.sendLink, Sample.sendLink, Sample.finish])

/-- Two rows without an entry: of an agent that finishes at once, and of one that is answered
`duplicate` after the process died between a result and its entry. -/
theorem resolution_not_backed :
    (∃ row ∈ ((Sample.pipeline.process 1).run (Sample.arrived [Sample.finish])).2.env.db.ledger.rows,
      Phantom ((Sample.pipeline.process 1).run (Sample.arrived [Sample.finish])).2 row) ∧
    ∃ row ∈ ((Sample.pipeline.process 1).run Sample.interrupted).2.env.db.ledger.rows,
      Phantom ((Sample.pipeline.process 1).run Sample.interrupted).2 row := by
  constructor
  · decide +kernel
  · decide +kernel

end PaymentRecovery.Recovery
