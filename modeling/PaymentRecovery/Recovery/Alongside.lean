import PaymentRecovery.Agent.Alongside
import PaymentRecovery.Recovery.Outside
import PaymentRecovery.Recovery.Rows

/-!
# One event in two worlds

An event that is routed and acted on over two guard stores, two databases and
two worlds outside. Where the rules are the same, the stores agree on the run of
the payment and everything outside answers alike, both rows tell the same.
-/

namespace PaymentRecovery.Recovery

open PaymentRecovery.Python PaymentRecovery.Guardrails PaymentRecovery.Providers
open PaymentRecovery.Agent PaymentRecovery.Lib Program

variable {S T τ α : Type} {U : String → Prop} {R : τ → τ → Prop} {seen : OuterCall → Bool}
  {provider : PaymentProvider τ}

/-! ## What is asked outside -/

theorem respects_ask {f : τ → α × τ} (hf : Respects R f) (call : OuterCall) :
    Respects (SameOutside R seen) fun env => env.ask call f :=
  fun _ _ h => h.asked hf call

theorem respects_tick {f : τ → α × τ} (hf : Respects R f) :
    Respects (SameOutside R seen) fun env => env.tick f :=
  fun _ _ h => ⟨(hf _ _ h.outer).1, h.ticked fun o o' hR => (hf o o' hR).2⟩

theorem respects_fetch (argName : String) {get : String → τ → Except PyExc α × τ}
    (hget : ∀ id, Respects R (get id)) (bounded : α → PyVal) (args : Args) :
    Respects (SameOutside R seen) (fetch provider argName get bounded args) := by
  intro a b h
  unfold fetch
  split
  · rename_i id _
    obtain ⟨hanswer, henv⟩ := h.asked (hget id) (.provider provider.name)
    cases ha : a.ask (.provider provider.name) (get id) with
    | mk answer a' =>
      cases hb : b.ask (.provider provider.name) (get id) with
      | mk answer' b' =>
        rw [ha, hb] at hanswer henv
        dsimp only at hanswer henv
        subst hanswer
        cases answer with
        | ok value => exact ⟨rfl, henv⟩
        | error exc =>
          dsimp only
          split
          · exact ⟨rfl, henv⟩
          · exact ⟨rfl, henv⟩
  · exact ⟨rfl, h⟩
  · exact ⟨rfl, h⟩

/-- The tools of a case answer and build alike. -/
theorem respects_tools (hsteady : Steady R provider) {case : RecoveryCase}
    {spec : ToolSpec (Env τ)} (hmem : spec ∈ tools case provider) :
    (∀ handler, spec.body = .read handler →
      ∀ args, Respects (SameOutside R seen) (handler args)) ∧
    (∀ build, spec.body = .effect build → ∀ args, Respects (SameOutside R seen) (build args)) :=
  tools_all (fun args => respects_fetch _ hsteady.getPayment _ args)
    (fun args => respects_fetch _ hsteady.getOrder _ args)
    (fun args => respects_fetch _ hsteady.getCustomerHistory _ args) (fun _ _ _ h => ⟨rfl, h⟩)
    (fun args _ _ h => buildRefundAction_same hsteady case args h) (fun _ _ _ h => ⟨rfl, h⟩) hmem

/-- The provider, the LLM and the clocks answer related states alike. -/
structure Alike (R : τ → τ → Prop) (p : RecoveryPipeline τ) (provider : PaymentProvider τ) :
    Prop where
  steady : Steady R provider
  llm : ∀ messages, Respects R (p.llm messages)
  monotonic : Respects R p.monotonic
  now : Respects R p.now
  isoNow : Respects R p.isoNow

theorem Alike.loop {p : RecoveryPipeline τ} (h : Alike R p provider) (case : RecoveryCase) :
    SameLoop (SameOutside R seen) (p.caseLoop case provider) where
  llm messages := respects_ask (h.llm messages) .llm
  clock := respects_tick h.monotonic
  now := respects_tick h.isoNow
  build hspec hbody := (respects_tools h.steady (mem_tools_of_get? hspec)).2 _ hbody
  handler hspec hbody := (respects_tools h.steady (mem_tools_of_get? hspec)).1 _ hbody
  executor := caseExecutor_same h.steady (fun o o' hR => (h.now o o' hR).2) case

/-! ## Routing -/

/-- The same rules, and the same outside. -/
structure SameSide (R : τ → τ → Prop) (seen : OuterCall → Bool) (a b : Env τ) : Prop
    extends SameOutside R seen a b where
  rules : a.db.rules = b.db.rules

/-- What leaves the database alone leaves the rules alone. -/
theorem respects_sameSide {f : Env τ → α × Env τ} (hf : Respects (SameOutside R seen) f)
    (hdb : ∀ env, (f env).2.db = env.db) : Respects (SameSide R seen) f := by
  intro a b h
  obtain ⟨hanswer, henv⟩ := hf a b h.toSameOutside
  refine ⟨hanswer, henv, ?_⟩
  rw [hdb, hdb]
  exact h.rules

/-- What a row tells of its event, the numbers of other rows aside. -/
structure Verdict where
  path : LedgerPath
  action : Option String
  executionStatus : Option String
  outcome : String

def LedgerFields.verdict (fields : LedgerFields) : Verdict :=
  ⟨fields.path, fields.action, fields.executionStatus, fields.outcome⟩

section Pipeline

variable [GuardStore S] [LawfulGuardStore S] [GuardStore T] [LawfulGuardStore T]

theorem Parallel.outside {w : World S (Env τ)} {v : World T (Env τ)}
    (h : Parallel U (SameSide R seen) w v) : Parallel U (SameOutside R seen) w v :=
  ⟨h.agree, h.env.toSameOutside⟩

namespace RecoveryPipeline

variable {p : RecoveryPipeline τ}

theorem fetchHistory_coupled (h : Alike R p provider) (payment : Payment) :
    InStep (Parallel (S := S) (T := T) U (SameSide R seen)) (fetchHistory provider payment)
      (fetchHistory provider payment) := by
  unfold fetchHistory
  split
  · exact InStep.pure _
  · split
    · exact InStep.pure _
    · refine InStep.bind (onEnv_coupled (respects_sameSide
        (respects_ask (h.steady.getCustomerHistory _) _) fun _ => rfl)) fun answer => ?_
      split
      · exact InStep.pure _
      · split
        · exact InStep.pure _
        · exact InStep.throw _

theorem hoursSince_coupled (h : Alike R p provider) (payment : Payment) :
    InStep (Parallel (S := S) (T := T) U (SameSide R seen)) (p.hoursSince payment)
      (p.hoursSince payment) := by
  unfold hoursSince
  split
  · exact InStep.pure _
  · exact InStep.bind (onEnv_coupled (respects_sameSide (respects_tick h.now) fun _ => rfl))
      fun now => InStep.pure _

/-- Both are routed alike, or both raise. -/
theorem prepare_coupled {event : NormalisedEvent}
    (h : ∀ provider, p.registry.get? event.provider = some provider → Alike R p provider) :
    InStep (Parallel (S := S) (T := T) U (SameSide R seen)) (p.prepare event) (p.prepare event) := by
  unfold prepare
  split
  · exact InStep.throw _
  · rename_i provider hprovider
    have halike := h provider hprovider
    refine InStep.bind (attemptEnv_coupled (respects_sameSide
      (respects_ask (halike.steady.getPayment _) _) fun _ => rfl)) fun payment => ?_
    refine InStep.bind (fetchHistory_coupled halike payment) fun history => ?_
    refine InStep.bind (hoursSince_coupled halike payment) fun hours => ?_
    refine InStep.bind (Coupled.read fun w v hpar => ⟨hpar, ?_⟩) fun routed => ?_
    · dsimp only
      rw [hpar.env.rules]
    · exact InStep.bind (InStep.orRaise _) fun decision => InStep.pure _

/-! ## The rule or the agent -/

variable {case : RecoveryCase}

theorem buildRuleAction_coupled {spec : ToolSpec (Env τ)}
    {build : Args → Env τ → Except PyExc Action × Env τ}
    (hbuild : ∀ args, Respects (SameOutside R seen) (build args)) :
    InStep (Parallel (S := S) (T := T) U (SameOutside R seen)) (buildRuleAction case spec build)
      (buildRuleAction case spec build) := by
  unfold buildRuleAction
  dsimp only
  split
  · exact InStep.pure _
  · refine InStep.bind (onEnv_coupled (hbuild _)) fun built => ?_
    cases built with
    | error exc =>
      dsimp only
      split
      · exact InStep.pure _
      · exact InStep.throw _
    | ok action => exact InStep.pure _

/-- The two programs return rows that tell the same. -/
abbrev TellSame (U : String → Prop) (E : Env τ → Env τ → Prop) (f : Pipe S τ LedgerFields)
    (g : Pipe T τ LedgerFields) : Prop :=
  Coupled (Parallel U E) (Parallel U E) (fun _ _ a b => a.verdict = b.verdict) f g

theorem runRule_coupled (h : Alike R p provider) (hU : U case.paymentId)
    (decision : RoutingDecision) :
    TellSame (S := S) (T := T) U (SameOutside R seen) (p.runRule case provider decision)
      (p.runRule case provider decision) := by
  cases htool : ruleActionToTool (decision.action.getD "") with
  | none =>
    unfold runRule
    rw [htool]
    exact Coupled.pure fun _ _ hpar => ⟨hpar, rfl⟩
  | some toolName =>
    obtain ⟨spec, build, hspec, hbody, _⟩ := rule_tool case provider htool
    rw [runRule_eq htool hspec hbody, runRule_eq htool hspec hbody]
    have hloop : SameLoop (SameOutside R seen) (p.caseLoop case provider) := h.loop case
    refine InStep.bind (buildRuleAction_coupled (hloop.build hspec hbody)) fun built => ?_
    cases built with
    | error exc => exact Coupled.pure fun _ _ hpar => ⟨hpar, rfl⟩
    | ok action =>
      refine Coupled.bind (execute_coupled hloop.executor hU action) fun result result' => ?_
      refine Coupled.pure fun w v ⟨hpar, hsame⟩ => ⟨hpar, ?_⟩
      -- the rows name different approvals
      unfold LedgerFields.verdict
      rw [hsame.status]

/-- Whatever is saved, the guard store and the world outside do not see it. -/
theorem saveTrajectory_coupled (trajectory : Trajectory) :
    Coupled (Parallel (S := S) (T := T) U (SameOutside R seen)) (Parallel U (SameOutside R seen))
      (fun _ _ _ _ => True) (saveTrajectory trajectory) (saveTrajectory trajectory) := by
  refine Coupled.attempt fun w v hpar => ?_
  dsimp only
  split
  · exact ⟨⟨hpar.agree, hpar.env⟩, .error _⟩
  · exact ⟨⟨hpar.agree, hpar.env.outer, hpar.env.calls, hpar.env.applied⟩, .ok trivial⟩

theorem runAgent_coupled (h : Alike R p provider) (hU : U case.paymentId) :
    TellSame (S := S) (T := T) U (SameOutside R seen) (p.runAgent case provider)
      (p.runAgent case provider) := by
  have hrun : InStep (Parallel (S := S) (T := T) U (SameOutside R seen))
      (p.runRecovery case provider) (p.runRecovery case provider) := by
    unfold runRecovery
    rw [buildAgent_eq]
    exact run_coupled (h.loop case) hU case.subject (caseView case)
  refine InStep.bind hrun fun trajectory => ?_
  refine Coupled.bind (saveTrajectory_coupled trajectory) fun id id' => ?_
  split
  · refine Coupled.bind (R := Parallel U (SameOutside R seen)) (A := fun _ _ _ _ => True)
      (Coupled.read fun w v hpar => ⟨hpar.1, trivial⟩) fun pending pending' => ?_
    exact Coupled.pure fun w v hpar => ⟨hpar.1, rfl⟩
  · exact Coupled.pure fun w v hpar => ⟨hpar.1, rfl⟩

theorem act_coupled (h : Alike R p provider) (hU : U case.paymentId) (decision : RoutingDecision) :
    TellSame (S := S) (T := T) U (SameOutside R seen) (p.act case provider decision)
      (p.act case provider decision) := by
  unfold act
  split
  · exact runRule_coupled h hU decision
  · exact runAgent_coupled h hU

/-- Acting on the event comes to the same in both worlds, if it is about a payment in `U`. -/
theorem acted_coupled {event : NormalisedEvent} {w : World S (Env τ)} {v : World T (Env τ)}
    (hpar : Parallel U (SameSide R seen) w v) (hclock : Respects R p.monotonic)
    (h : ∀ provider, p.registry.get? event.provider = some provider → Alike R p provider)
    (hU : ∀ case provider decision w₁, p.Reaches event w case provider decision w₁ →
      U case.paymentId) :
    Parallel U (SameOutside R seen) (p.acted event w).2 (p.acted event v).2 ∧
      Answers (fun a b => a.verdict = b.verdict) (p.acted event w).1 (p.acted event v).1 := by
  have hstarted : Parallel U (SameSide R seen) (p.started w) (p.started v) :=
    ⟨hpar.agree, (respects_sameSide (respects_tick hclock) (fun _ => rfl) _ _ hpar.env).2⟩
  obtain ⟨hprepared, hanswers⟩ := prepare_coupled h _ _ hstarted
  unfold acted routeAndAct
  rw [run_bind, run_bind]
  cases hw : (p.prepare event).run (p.started w) with
  | mk answer w₁ =>
    cases hv : (p.prepare event).run (p.started v) with
    | mk answer' v₁ =>
      rw [hw, hv] at hprepared hanswers
      cases hanswers with
      | error exc => exact ⟨Parallel.outside hprepared, .error exc⟩
      | @ok prepared prepared' hsame =>
        obtain ⟨case, provider, decision⟩ := prepared
        subst hsame
        have hreaches : p.Reaches event w case provider decision w₁ := hw
        exact act_coupled (h provider hreaches.case.1) (hU case provider decision w₁ hreaches)
          decision w₁ v₁ (Parallel.outside hprepared)

end RecoveryPipeline

end Pipeline

end PaymentRecovery.Recovery
