import PaymentRecovery.Recovery.History

/-!
# What a ledger row tells

The row of an event against what the guarded executor did while the event was
processed. On the rule path there is one call and the row tells it. On the agent
path the row tells the last of any number of calls, and nothing if the loop was
left by an exception.
-/

namespace PaymentRecovery.Recovery

open PaymentRecovery.Python PaymentRecovery.Guardrails PaymentRecovery.Providers
open PaymentRecovery.Agent PaymentRecovery.Lib Program

variable {S τ : Type}

namespace RecoveryPipeline

variable (p : RecoveryPipeline τ)

/-! ## Up to routing -/

/-- Routing reaches this decision, for this case and provider, in this world. -/
def Reaches (event : NormalisedEvent) (w : World S (Env τ)) (case : RecoveryCase)
    (provider : PaymentProvider τ) (decision : RoutingDecision) (w₁ : World S (Env τ)) : Prop :=
  (p.prepare event).run (p.started w) = (.ok (case, provider, decision), w₁)

/-- Up to routing nothing touches the guard store or the journal. -/
theorem prepare_quiet (event : NormalisedEvent) (w : World S (Env τ)) :
    ((p.prepare event).run w).2.store = w.store ∧
    ((p.prepare event).run w).2.journal = w.journal := by
  have hkeeps : KeepsOutside
      (fun v : World S (Env τ) => v.store = w.store ∧ v.journal = w.journal)
      (fun v => v.store = w.store ∧ v.journal = w.journal) :=
    ⟨fun _ _ _ _ hv => ⟨hv, hv⟩⟩
  exact (hkeeps.prepare p event).run ⟨rfl, rfl⟩

theorem Reaches.unique {p : RecoveryPipeline τ} {event : NormalisedEvent} {w : World S (Env τ)}
    {case case' : RecoveryCase} {provider provider' : PaymentProvider τ}
    {decision decision' : RoutingDecision} {w₁ w₁' : World S (Env τ)}
    (h : p.Reaches event w case provider decision w₁)
    (h' : p.Reaches event w case' provider' decision' w₁') :
    case = case' ∧ provider = provider' ∧ decision = decision' ∧ w₁ = w₁' := by
  have hsame := h.symm.trans h'
  injection hsame with hfst hw
  injection hfst with hfst
  injection hfst with hcase hrest
  injection hrest with hprovider hdecision
  exact ⟨hcase, hprovider, hdecision, hw⟩

/-- The case is about the payment that the event's provider tells. -/
theorem Reaches.case {p : RecoveryPipeline τ} {event : NormalisedEvent} {w w₁ : World S (Env τ)}
    {case : RecoveryCase} {provider : PaymentProvider τ} {decision : RoutingDecision}
    (h : p.Reaches event w case provider decision w₁) :
    p.registry.get? event.provider = some provider ∧ ∃ payment,
      (provider.getPayment event.paymentId (p.started w).env.outer).1 = .ok payment ∧
      case = caseOf event payment := by
  unfold Reaches prepare at h
  split at h
  · cases h
  · rename_i provider' hprovider
    obtain ⟨payment, w₂, hpayment, h⟩ := run_bind_ok h
    obtain ⟨history, w₃, _, h⟩ := run_bind_ok h
    obtain ⟨hours, w₄, _, h⟩ := run_bind_ok h
    obtain ⟨routed, w₅, _, h⟩ := run_bind_ok h
    obtain ⟨decision', w₆, _, h⟩ := run_bind_ok h
    injection h with h _
    injection h with h
    injection h with hcase hrest
    injection hrest with hprovider' _
    rw [attemptEnv, run_attempt] at hpayment
    injection hpayment with hpayment _
    exact ⟨hprovider' ▸ hprovider, payment, hprovider' ▸ hpayment, hcase.symm⟩

variable [GuardStore S]

/-- Either routing raises, or the rule or the agent acts in the world routing left. -/
theorem acted_cases (event : NormalisedEvent) (w : World S (Env τ)) :
    (∃ exc, ((p.prepare event).run (p.started w)).1 = .error exc ∧
      (p.acted event w).1 = .error exc ∧ (p.acted event w).2.store = w.store ∧
      (p.acted event w).2.journal = w.journal) ∨
    (∃ case provider decision w₁, p.Reaches event w case provider decision w₁ ∧
      w₁.store = w.store ∧ w₁.journal = w.journal ∧
      p.acted event w = (p.act case provider decision).run w₁) := by
  have hquiet := p.prepare_quiet event (p.started w)
  unfold Reaches acted routeAndAct
  rw [run_bind]
  cases hrun : (p.prepare event).run (p.started w) with
  | mk answer w₁ =>
    rw [hrun] at hquiet
    cases answer with
    | error exc => exact .inl ⟨exc, rfl, rfl, hquiet⟩
    | ok prepared =>
      obtain ⟨case, provider, decision⟩ := prepared
      exact .inr ⟨case, provider, decision, w₁, rfl, hquiet.1, hquiet.2, rfl⟩

/-! ## The rule path -/

variable [LawfulGuardStore S]

/-- What the row of a rule tells: nothing was presented, or one action under the rule's own
name, and its answer. -/
inductive RuleTells (decision : RoutingDecision) :
    List (Action × ExecutionResult) → LedgerFields → Prop
  | nothing (fields : LedgerFields) (haction : fields.action = decision.action)
    (houtcome : fields.outcome = "no_effect" ∨ fields.outcome = "failed")
    (happroval : fields.approvalId = none) : RuleTells decision [] fields
  | answered (action : Action) (result : ExecutionResult)
    (hname : decision.action = some action.name) :
    RuleTells decision [(action, result)] { ruleFields decision with
      executionStatus := some result.status.value
      outcome := outcomeFor result.status action.name
      approvalId := result.approvalId }

theorem buildRuleAction_traces {ex : GuardedExecutor (Env τ)} {ok : Action → Prop}
    (case : RecoveryCase) (spec : ToolSpec (Env τ))
    (build : Args → Env τ → Except PyExc Action × Env τ) :
    Traces ex ok (buildRuleAction case spec build : Pipe S τ (Except PyExc Action))
      fun done built => done = [] ∧ ∀ action, built = .ok action →
        ∃ args env, (build args env).1 = .ok action := by
  unfold buildRuleAction
  dsimp only
  split
  · exact .pure ⟨rfl, fun action h => by cases h⟩
  · rename_i args _
    refine Traces.bind_quiet (A := fun built => ∃ env, (build args env).1 = built)
      (traces_onEnv _ fun env => ⟨rfl, env, rfl⟩) ?_
    rintro built ⟨env, henv⟩
    cases built with
    | error exc =>
      dsimp only
      split
      · exact .pure ⟨rfl, fun action h => by cases h⟩
      · exact .throw
    | ok action =>
      refine .pure ⟨rfl, fun action' h => ⟨args, env, ?_⟩⟩
      rw [henv, ← h]

/-- A rule presents at most one action, and its row tells which and how it ended. -/
theorem runRule_traces (case : RecoveryCase) (provider : PaymentProvider τ)
    (decision : RoutingDecision) :
    Traces (p.caseExecutor case provider) (BuiltFor case)
      (p.runRule case provider decision : Pipe S τ LedgerFields) (RuleTells decision) := by
  cases htool : ruleActionToTool (decision.action.getD "") with
  | none =>
    unfold runRule
    rw [htool]
    exact .pure (.nothing _ rfl (.inl rfl) rfl)
  | some toolName =>
    obtain ⟨spec, build, hspec, hbody, hbuild⟩ :=
      rule_tool case provider htool
    rw [runRule_eq htool hspec hbody]
    refine Traces.bind_quiet (buildRuleAction_traces case spec build) fun built hbuilt => ?_
    cases built with
    | error exc => exact .pure (.nothing _ rfl (.inr rfl) rfl)
    | ok action =>
      obtain ⟨args, env, hok⟩ := hbuilt action rfl
      obtain ⟨hname, hfor⟩ := hbuild args env action hok
      have haction : decision.action = some action.name := by
        cases hd : decision.action with
        | none =>
          rw [hd] at htool
          cases htool
        | some name =>
          rw [hd] at hname
          exact congrArg some hname.symm
      refine (Traces.execute hfor).bind fun done result hdone => .pure ?_
      rw [hdone]
      exact .answered action result haction

/-- A rule that returns its row presented nothing, or one action that was answered. -/
theorem runRule_returned {case : RecoveryCase} {provider : PaymentProvider τ}
    {decision : RoutingDecision} {w : World S (Env τ)} {fields : LedgerFields}
    (hrow : ((p.runRule case provider decision).run w).1 = .ok fields) :
    (((p.runRule case provider decision).run w).2.snapshot = w.snapshot ∧
      RuleTells decision [] fields) ∨
    ∃ action result, BuiltFor case action ∧
      ExecuteStep (p.caseExecutor case provider) action w.snapshot (.ok result)
        ((p.runRule case provider decision).run w).2.snapshot ∧
      RuleTells decision [(action, result)] fields := by
  obtain ⟨done, s, hexec, hbuilt, hend⟩ := p.runRule_traces case provider decision w
  rw [hrow] at hend
  obtain ⟨hsnap, htells⟩ := hend
  rw [hsnap]
  cases htells with
  | nothing _ haction houtcome happroval =>
    cases hexec with
    | nil => exact .inl ⟨rfl, .nothing _ haction houtcome happroval⟩
  | answered action result hname =>
    cases hexec with
    | cons hstep hrest =>
      cases hrest with
      | nil =>
        exact .inr ⟨action, result, hbuilt _ List.mem_cons_self, hstep,
          .answered action result hname⟩

/-- A rule that ends with an exception presented nothing, or one call that raised. -/
theorem runRule_raised {case : RecoveryCase} {provider : PaymentProvider τ}
    {decision : RoutingDecision} {w : World S (Env τ)} {exc : PyExc}
    (hraised : ((p.runRule case provider decision).run w).1 = .error exc) :
    ((p.runRule case provider decision).run w).2.snapshot = w.snapshot ∨
    ∃ action exc, ExecuteStep (p.caseExecutor case provider) action w.snapshot (.error exc)
      ((p.runRule case provider decision).run w).2.snapshot := by
  cases htool : ruleActionToTool (decision.action.getD "") with
  | none =>
    unfold runRule at hraised
    rw [htool] at hraised
    cases hraised
  | some toolName =>
    obtain ⟨spec, build, hspec, hbody, _⟩ :=
      rule_tool case provider htool
    rw [runRule_eq htool hspec hbody] at hraised ⊢
    -- up to the call nothing has touched the store or the journal
    have hquiet : KeepsOutside (fun _ : World S (Env τ) => True)
        (fun v => v.snapshot = w.snapshot) := ⟨fun _ _ _ _ hv => ⟨trivial, hv⟩⟩
    have hbuilt := hquiet.buildRuleAction (mem_tools_of_get? hspec) hbody w rfl
    unfold executeRule at hraised ⊢
    rw [run_bind] at hraised ⊢
    cases hrun : (buildRuleAction case spec build).run w with
    | mk answer w₁ =>
      rw [hrun] at hraised hbuilt
      obtain ⟨_, hsnap, _⟩ := hbuilt
      cases answer with
      | error exc' => exact .inl hsnap
      | ok built =>
        cases built with
        | error exc' => cases hraised
        | ok action =>
          have hstep := execute_step (p.caseExecutor case provider) action w₁
          dsimp only at hraised hsnap ⊢
          rw [run_bind] at hraised ⊢
          cases hcall : ((p.caseExecutor case provider).execute action).run w₁ with
          | mk result w₂ =>
            rw [hcall] at hraised hstep
            cases result with
            | ok result => cases hraised
            | error exc' => exact .inr ⟨action, exc', hsnap ▸ hstep⟩

/-! ## The agent path -/

/-- The approval the row of an agent run names. -/
def approvalOf (case : RecoveryCase) (trajectory : Trajectory) (store : S) : Option ApprovalId :=
  if trajectory.outcome = .pendingApproval then
    (newest (GuardStore.listPending store case.paymentId)).map (·.approvalId)
  else none

/-- How the agent's run ends: with a trajectory, which is saved and told by the row, or with
the exception that left the loop. -/
inductive AgentEnds (case : RecoveryCase) (provider : PaymentProvider τ) (w : World S (Env τ))
    (done : List (Action × ExecutionResult)) (s : Snapshot) : Prop
  | returned (trajectory : Trajectory) (trajectoryId : Nat)
    (hloop : ((p.runRecovery case provider).run w).1 = .ok trajectory)
    (hsnap : ((p.runRecovery case provider).run w).2.snapshot = s)
    (htells : Tells done trajectory)
    (hrow : ((p.runAgent case provider).run w).1 = .ok (p.agentFields trajectory trajectoryId
      (approvalOf case trajectory ((p.runRecovery case provider).run w).2.store)))
    (hstore : ((p.runAgent case provider).run w).2.store =
      ((p.runRecovery case provider).run w).2.store)
    (hjournal : ((p.runAgent case provider).run w).2.journal =
      ((p.runRecovery case provider).run w).2.journal)
  | raised (exc : PyExc) (hloop : ((p.runRecovery case provider).run w).1 = .error exc)
    (hrow : (p.runAgent case provider).run w =
      (.error exc, ((p.runRecovery case provider).run w).2))
    (hend : ((p.runRecovery case provider).run w).2.snapshot = s ∨ ∃ action,
      BuiltFor case action ∧ ExecuteStep (p.caseExecutor case provider) action s (.error exc)
        ((p.runRecovery case provider).run w).2.snapshot)

omit [LawfulGuardStore S] in
theorem runRecovery_run (case : RecoveryCase) (provider : PaymentProvider τ)
    (w : World S (Env τ)) : (p.runRecovery case provider).run w =
      ((p.caseLoop case provider).run case.subject (caseView case)).run w := by
  unfold runRecovery
  rw [buildAgent_eq]
  rfl

theorem runRecovery_traces (case : RecoveryCase) (provider : PaymentProvider τ) :
    Traces (p.caseExecutor case provider) (BuiltFor case)
      (p.runRecovery case provider : Pipe S τ Trajectory) Tells := by
  intro w
  have hloop := run_traces (S := S) (p.caseLoop case provider) case.subject (caseView case)
  obtain ⟨done, s, hexec, hok, hend⟩ := hloop w
  refine ⟨done, s, hexec, fun call hcall => builtFor_of_builds (hok call hcall), ?_⟩
  rw [p.runRecovery_run]
  cases hanswer : (((p.caseLoop case provider).run case.subject (caseView case)).run w).1 with
  | ok trajectory =>
    rw [hanswer] at hend
    exact hend
  | error exc =>
    rw [hanswer] at hend
    exact hend.imp_right fun ⟨action, hbuilds, hstep⟩ =>
      ⟨action, builtFor_of_builds hbuilds, hstep⟩

/-- The world with another database. -/
def withDb (w : World S (Env τ)) (db : Database) : World S (Env τ) :=
  { w with env := { w.env with db := db } }

omit [GuardStore S] [LawfulGuardStore S] in
/-- A trajectory with a text is saved. -/
theorem saveTrajectory_run {trajectory : Trajectory} (hsaves : trajectory.toDict.Encodable)
    (w : World S (Env τ)) :
    ∃ id db, (saveTrajectory trajectory).run w = (.ok id, withDb w db) := by
  obtain ⟨text, htext⟩ := hsaves.dumps
  unfold saveTrajectory writeDb
  rw [run_attempt, htext]
  exact ⟨_, _, rfl⟩

omit [LawfulGuardStore S] in
/-- The row of a trajectory, and nothing but the database changed. -/
theorem runAgent_run {case : RecoveryCase} {provider : PaymentProvider τ} {w w₁ : World S (Env τ)}
    {trajectory : Trajectory} (hloop : (p.runRecovery case provider).run w = (.ok trajectory, w₁))
    (hsaves : trajectory.toDict.Encodable) :
    ∃ id db, (p.runAgent case provider).run w =
      (.ok (p.agentFields trajectory id (approvalOf case trajectory w₁.store)), withDb w₁ db) := by
  obtain ⟨id, db, hsave⟩ := saveTrajectory_run hsaves w₁
  refine ⟨id, db, ?_⟩
  unfold runAgent approvalOf
  rw [run_bind, hloop]
  dsimp only
  rw [run_bind, hsave]
  dsimp only
  split <;> rfl

omit [LawfulGuardStore S] in
/-- An exception of the loop is the agent's. -/
theorem runAgent_raises {case : RecoveryCase} {provider : PaymentProvider τ}
    {w w₁ : World S (Env τ)} {exc : PyExc}
    (hloop : (p.runRecovery case provider).run w = (.error exc, w₁)) :
    (p.runAgent case provider).run w = (.error exc, w₁) := by
  unfold runAgent
  rw [run_bind, hloop]

/-- The agent presents actions of the case one after another, and its row is about the
trajectory its loop returned, if it returned one. -/
theorem runAgent_ends (case : RecoveryCase) (provider : PaymentProvider τ)
    (w : World S (Env τ)) :
    ∃ done s, Executes (p.caseExecutor case provider) w.snapshot done s ∧
      (∀ call ∈ done, BuiltFor case call.1) ∧ p.AgentEnds case provider w done s := by
  obtain ⟨done, s, hexec, hok, hend⟩ := p.runRecovery_traces case provider w
  refine ⟨done, s, hexec, hok, ?_⟩
  cases hrun : (p.runRecovery case provider).run w with
  | mk answer w₁ =>
    rw [hrun] at hend
    cases answer with
    | error exc =>
      refine .raised exc (by rw [hrun]) ?_ (by rw [hrun]; exact hend)
      rw [p.runAgent_raises hrun, hrun]
    | ok trajectory =>
      obtain ⟨hsnap, htells⟩ := hend
      obtain ⟨id, db, hagent⟩ := p.runAgent_run hrun htells.saves
      refine .returned trajectory id (by rw [hrun]) (by rw [hrun]; exact hsnap) htells ?_ ?_ ?_
      · rw [hagent, hrun]
      · rw [hagent, hrun]
        rfl
      · rw [hagent, hrun]
        rfl

/-! ## A property of one call, on the agent's part -/

omit [LawfulGuardStore S] in
/-- A property of one call to `process` that can fail on the agent path alone: it holds where
the store is left alone, and of a handled event it is a property `X` of what was returned for
the row. Then it holds if and only if the agent's run meets the condition `A`, where the
event is handed to the agent. -/
theorem process_iff_agent (id : Nat) (w : World S (Env τ)) {Y : World S (Env τ) → Prop}
    {X : Except PyExc LedgerFields → World S (Env τ) → Prop}
    {A : RecoveryCase → PaymentProvider τ → World S (Env τ) → Prop}
    (hquiet : ∀ w' : World S (Env τ), w'.store = w.store → Y w')
    (hhandled : ∀ event w', Due w.env.db id event → p.Handled id event w w' →
      (Y w' ↔ X (p.acted event w).1 (p.acted event w).2))
    (hraised : ∀ exc (w' : World S (Env τ)), w'.store = w.store → X (.error exc) w')
    (hrule : ∀ case provider decision (w₁ : World S (Env τ)), w₁.store = w.store →
      X ((p.runRule case provider decision).run w₁).1 ((p.runRule case provider decision).run w₁).2)
    (hagent : ∀ case provider (w₁ : World S (Env τ)), w₁.store = w.store →
      (X ((p.runAgent case provider).run w₁).1 ((p.runAgent case provider).run w₁).2 ↔
        A case provider w₁)) :
    Y ((p.process id).run w).2 ↔ ∀ event case provider decision w₁, Due w.env.db id event →
      p.Reaches event w case provider decision w₁ → decision.route = .escalateToAgent →
      A case provider w₁ := by
  rcases p.process_cases id w with ⟨answer, hidle, hrun, _⟩ | ⟨event, earlier, hre, hrun, _⟩ |
    ⟨event, hdue, hrun, _⟩
  · rw [hrun]
    exact ⟨fun _ event _ _ _ _ hdue => absurd hdue (hidle.not_due event), fun _ => hquiet w rfl⟩
  · obtain ⟨w', hrun', _, honly, _⟩ := recordDuplicate_only earlier hre.toUnrecorded
    rw [hrun, run_map, hrun']
    exact ⟨fun _ event' _ _ _ _ hdue => absurd hdue (hre.not_due event'),
      fun _ => hquiet w' honly.store⟩
  · obtain ⟨w', hrun', hdone⟩ := p.handle_run event hdue.norow
    rw [hrun, run_map, hrun']
    show Y w' ↔ _
    rw [hhandled event w' hdue hdone]
    rcases p.acted_cases event w with ⟨exc, hprepare, hacted, hstore, _⟩ |
      ⟨case, provider, decision, w₁, hreaches, hstore, _, hacted⟩
    · -- routing raised, and nothing is reached
      rw [hacted]
      refine ⟨fun _ event' case provider decision w₁ hdue' hreaches => ?_,
        fun _ => hraised exc _ hstore⟩
      rw [← hdue.toUnrecorded.event_unique hdue'.toUnrecorded] at hreaches
      unfold Reaches at hreaches
      rw [hreaches] at hprepare
      cases hprepare
    · -- only one case is reached, so the condition is about this one
      have hone : (∀ event case provider decision w₁, Due w.env.db id event →
          p.Reaches event w case provider decision w₁ → decision.route = .escalateToAgent →
          A case provider w₁) ↔ (decision.route = .escalateToAgent → A case provider w₁) := by
        refine ⟨fun h => h event case provider decision w₁ hdue hreaches, ?_⟩
        intro h event' case' provider' decision' w₁' hdue' hreaches' hroute
        rw [← hdue.toUnrecorded.event_unique hdue'.toUnrecorded] at hreaches'
        obtain ⟨rfl, rfl, rfl, rfl⟩ := hreaches.unique hreaches'
        exact h hroute
      rw [hone, hacted]
      unfold act
      cases hroute : decision.route with
      | deterministic =>
        exact ⟨fun _ h => (by cases h), fun _ => hrule case provider decision w₁ hstore⟩
      | escalateToAgent =>
        exact (hagent case provider w₁ hstore).trans ⟨fun h _ => h, fun h => h rfl⟩

end RecoveryPipeline

end PaymentRecovery.Recovery
