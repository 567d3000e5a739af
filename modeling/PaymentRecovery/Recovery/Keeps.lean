import PaymentRecovery.Recovery.Wiring
import PaymentRecovery.Guardrails.Crash

/-!
# What acting on an event keeps

An invariant of the world is kept by acting on an event if the outer world, the
executor and the trajectory store keep it. `Keeps` names these three parts, and
`routeAndAct_carries` puts them together along the whole of routing, rule and
agent loop, for a process that may die on the way.
-/

namespace PaymentRecovery.Recovery

open PaymentRecovery.Python PaymentRecovery.Guardrails PaymentRecovery.Providers
open PaymentRecovery.Agent PaymentRecovery.Lib Program

variable {S τ : Type}

namespace RecoveryPipeline

variable {C I : World S (Env τ) → Prop}

/-! ## Routing and building -/

/-- What is asked on the way keeps `I`, so routing does. -/
theorem prepare_carries {p : RecoveryPipeline τ} {event : NormalisedEvent} (hcut : ∀ w, I w → C w)
    (hask : ∀ provider, p.registry.get? event.provider = some provider →
      (∀ id, Carries C I (attemptEnv fun env =>
        env.ask (.provider provider.name) (provider.getPayment id))) ∧
      ∀ id, Carries C I (onEnv fun env =>
        env.ask (.provider provider.name) (provider.getCustomerHistory id)))
    (hnow : Carries C I (onEnv fun env => env.tick p.now)) : Carries C I (p.prepare event) := by
  unfold RecoveryPipeline.prepare
  split
  · exact .throw _
  · rename_i provider hprovider
    obtain ⟨hpayment, hhistory⟩ := hask provider hprovider
    refine Carries.bind (hpayment _) fun payment => ?_
    have hfetched : Carries C I (fetchHistory provider payment : Pipe S τ _) := by
      unfold fetchHistory
      split
      · exact .pure _
      · split
        · exact .pure _
        · refine Carries.bind (hhistory _) fun answer => ?_
          split
          · exact .pure _
          · split
            · exact .pure _
            · exact .throw _
    have hhours : Carries C I (p.hoursSince payment : Pipe S τ _) := by
      unfold hoursSince
      split
      · exact .pure _
      · exact Carries.bind hnow fun now => .pure _
    refine Carries.bind hfetched fun history => Carries.bind hhours fun hours => ?_
    refine Carries.bind (Carries.read _ fun w hw => hcut w hw) fun routed => ?_
    exact Carries.bind (.orRaise _) fun decision => .pure _

/-- What is built for a rule is what its tool builds. -/
theorem buildRuleAction_builds {case : RecoveryCase} {spec : ToolSpec (Env τ)}
    {build : Args → Env τ → Except PyExc Action × Env τ}
    (hbuild : ∀ args, Carries C I (onEnv (build args) : Pipe S τ (Except PyExc Action))) :
    Triple C I (buildRuleAction case spec build : Pipe S τ (Except PyExc Action))
      fun answer w => I w ∧ ∀ action, answer = .ok (.ok action) →
        ∃ args env, (build args env).1 = .ok action := by
  unfold buildRuleAction
  dsimp only
  split
  · exact Triple.pure fun w hw => ⟨hw, fun action ha => by cases ha⟩
  · rename_i args _
    have hbuilt : Triple C I (onEnv (build args) : Pipe S τ (Except PyExc Action))
        fun answer w => I w ∧ ∃ env, answer = .ok (build args env).1 := by
      intro w hw
      have hstep := hbuild args w hw
      exact ⟨hstep.1, hstep.2, w.env, rfl⟩
    refine Triple.bind hbuilt (fun built => ?_) fun e w hw => ⟨hw.1, fun action ha => by cases ha⟩
    cases built with
    | error exc =>
      dsimp only
      split
      · exact Triple.pure fun w hw => ⟨hw.1, fun action ha => by cases ha⟩
      · exact Triple.throw fun w hw => ⟨hw.1, fun action ha => by cases ha⟩
    | ok action =>
      refine Triple.pure fun w hw => ⟨hw.1, fun action' ha => ?_⟩
      obtain ⟨_, env, henv⟩ := hw
      injection ha with ha
      injection henv with henv
      exact ⟨args, env, by rw [← henv, ha]⟩

/-! ## What the parts keep -/

/-- Calls that make the provider apply nothing keep `I`, passing only through `C`. -/
structure KeepsOutside (C I : World S (Env τ) → Prop) : Prop where
  outside : ∀ (w : World S (Env τ)) env, env.db = w.env.db → env.applied = w.env.applied → I w →
    C { w with env := env } ∧ I { w with env := env }

namespace KeepsOutside

variable (h : KeepsOutside C I)

include h

theorem cut {w : World S (Env τ)} (hw : I w) : C w :=
  (h.outside w w.env rfl rfl hw).1

theorem onEnv {α : Type} {f : Env τ → α × Env τ} (hf : Quiet f) :
    Carries C I (onEnv f : Pipe S τ α) :=
  Carries.step fun w hw => h.outside w _ (hf w.env).1 (hf w.env).2 hw

theorem attemptEnv {α : Type} {f : Env τ → Except PyExc α × Env τ} (hf : Quiet f) :
    Carries C I (attemptEnv f : Pipe S τ α) :=
  Carries.attempt fun w hw => h.outside w _ (hf w.env).1 (hf w.env).2 hw

theorem readDb {α : Type} (f : Database → α) : Carries C I (readDb f : Pipe S τ α) :=
  Carries.read _ fun _ hw => h.cut hw

theorem prepare (p : RecoveryPipeline τ) (event : NormalisedEvent) : Carries C I (p.prepare event) :=
  prepare_carries (fun _ => h.cut) (fun _ _ => ⟨fun _ => h.attemptEnv (quiet_ask _ _),
    fun _ => h.onEnv (quiet_ask _ _)⟩) (h.onEnv (quiet_tick _))

theorem buildRuleAction {case : RecoveryCase} {provider : PaymentProvider τ}
    {spec : ToolSpec (Env τ)} {build : Args → Env τ → Except PyExc Action × Env τ}
    (hmem : spec ∈ tools case provider) (hbody : spec.body = .effect build) :
    Triple C I (RecoveryPipeline.buildRuleAction case spec build : Pipe S τ (Except PyExc Action))
      fun answer w => I w ∧ ∀ action, answer = .ok (.ok action) →
        ∃ args env, (build args env).1 = .ok action :=
  buildRuleAction_builds fun args => h.onEnv ((quiet_tools hmem).2 build hbody args)

end KeepsOutside

variable [GuardStore S]

/-- Every part of acting on an event keeps `I`, passing only through `C`. -/
structure Keeps (C I : World S (Env τ) → Prop) (p : RecoveryPipeline τ) : Prop
    extends KeepsOutside C I where
  execute : ∀ {case provider action}, BuiltFor case action →
    Carries C I ((p.caseExecutor case provider).execute action)
  saved : ∀ (w : World S (Env τ)) rows, I w →
    C { w with env := { w.env with db := { w.env.db with trajectories := rows } } } ∧
    I { w with env := { w.env with db := { w.env.db with trajectories := rows } } }

/-- An invariant of the environment and the journal. Between its database writes, a handler
run and its journal entry are all that acting on an event does to them. -/
theorem Keeps.of_outside {J : Env τ → List GuardEvent → Prop} (p : RecoveryPipeline τ)
    (houtside : ∀ {env env' : Env τ} {journal}, env'.db = env.db → env'.applied = env.applied →
      J env journal → J env' journal)
    (hcalled : ∀ {env : Env τ} {journal} run action, J env journal →
      J env (journal ++ [.called run action]))
    (hinvoked : ∀ {env : Env τ} {journal} {case action} {inv : Invocation} {outcome},
      BuiltFor case action → HandlerRun case action env outcome → inv.runId = case.paymentId →
      inv.action = action → inv.outcome = outcome.1 → J env journal →
      J outcome.2 (journal ++ [.invoked inv]))
    (hsaved : ∀ {env : Env τ} {journal} rows, J env journal →
      J { env with db := { env.db with trajectories := rows } } journal) :
    p.Keeps (fun w : World S (Env τ) => J w.env w.journal) (fun w => J w.env w.journal) where
  outside w env hdb happlied hw := ⟨houtside hdb happlied hw, houtside hdb happlied hw⟩
  execute {case provider action} hbuilt :=
    execute_carries_outside (fun env journal hJ => hcalled _ _ hJ)
      (fun env journal hJ => houtside (by rfl) (by rfl) hJ)
      fun handler hhandler env journal approval hJ =>
        hinvoked hbuilt (handler_run hbuilt hhandler env) rfl rfl rfl hJ
  saved w rows hw := ⟨hsaved rows hw, hsaved rows hw⟩

/-- An invariant of the store and the journal, kept by every call that presents an action
of its case. -/
theorem Keeps.of_snapshot [LawfulGuardStore S] {C I : Snapshot → Prop} (p : RecoveryPipeline τ)
    (hC : ∀ s, I s → C s)
    (hcut : ∀ {case provider action s s'}, BuiltFor case action → s.state.Wf → I s →
      ExecuteCut (p.caseExecutor case provider) action s s' → C s')
    (hstep : ∀ {case provider action s answer s'}, BuiltFor case action → s.state.Wf → I s →
      ExecuteStep (p.caseExecutor case provider) action s answer s' → I s') :
    p.Keeps (fun w : World S (Env τ) => C w.snapshot) (fun w => I w.snapshot) where
  outside _ _ _ _ hw := ⟨hC _ hw, hw⟩
  execute hbuilt := execute_carries (fun _ _ => hcut hbuilt) fun _ _ _ => hstep hbuilt
  saved _ _ hw := ⟨hC _ hw, hw⟩

theorem Keeps.and {p : RecoveryPipeline τ} {C' I' : World S (Env τ) → Prop} (h : p.Keeps C I)
    (h' : p.Keeps C' I') : p.Keeps (fun w => C w ∧ C' w) (fun w => I w ∧ I' w) where
  outside w env hdb happlied hw := ⟨⟨(h.outside w env hdb happlied hw.1).1,
    (h'.outside w env hdb happlied hw.2).1⟩, (h.outside w env hdb happlied hw.1).2,
    (h'.outside w env hdb happlied hw.2).2⟩
  execute hbuilt := Triple.and (h.execute hbuilt) (h'.execute hbuilt)
  saved w rows hw := ⟨⟨(h.saved w rows hw.1).1, (h'.saved w rows hw.2).1⟩,
    (h.saved w rows hw.1).2, (h'.saved w rows hw.2).2⟩

/-- Every part of acting on one case keeps `I`, passing only through `C`. -/
structure KeepsCase (C I : World S (Env τ) → Prop) (p : RecoveryPipeline τ) (case : RecoveryCase)
    (provider : PaymentProvider τ) : Prop where
  cut : ∀ w, I w → C w
  loop : (p.caseLoop case provider).Keeps C I
  saved : ∀ (w : World S (Env τ)) rows, I w →
    C { w with env := { w.env with db := { w.env.db with trajectories := rows } } } ∧
    I { w with env := { w.env with db := { w.env.db with trajectories := rows } } }

variable {p : RecoveryPipeline τ} {case : RecoveryCase} {provider : PaymentProvider τ}

/-- Of the parts of the loop the executor alone makes the provider apply anything. -/
theorem KeepsOutside.loop (h : KeepsOutside C I)
    (hexecute : ∀ {action}, BuiltFor case action →
      Carries C I ((p.caseExecutor case provider).execute action)) :
    (p.caseLoop case provider).Keeps C I where
  clock := h.onEnv (quiet_tick _)
  now := h.onEnv (quiet_tick _)
  llm _ := h.attemptEnv (quiet_ask _ _)
  build hspec hbody args := h.onEnv ((quiet_tools (mem_tools_of_get? hspec)).2 _ hbody args)
  handler hspec hbody args := h.attemptEnv ((quiet_tools (mem_tools_of_get? hspec)).1 _ hbody args)
  execute hbuilds := hexecute (builtFor_of_builds hbuilds)

theorem Keeps.onCase (h : p.Keeps C I) (case : RecoveryCase) (provider : PaymentProvider τ) :
    p.KeepsCase C I case provider where
  cut _ hw := h.cut hw
  saved := h.saved
  loop := h.toKeepsOutside.loop h.execute

/-! ## The rule and the agent -/

/-- A rule whose action has a tool presents what that tool builds. -/
theorem runRule_eq {case : RecoveryCase} {provider : PaymentProvider τ}
    {decision : RoutingDecision} {toolName : String} {spec : ToolSpec (Env τ)}
    {build : Args → Env τ → Except PyExc Action × Env τ}
    (htool : ruleActionToTool (decision.action.getD "") = some toolName)
    (hspec : (caseRegistry case provider).get? toolName = some spec)
    (hbody : spec.body = .effect build) :
    (p.runRule case provider decision : Pipe S τ LedgerFields) =
      executeRule (p.caseExecutor case provider) case spec build decision := by
  unfold runRule
  rw [htool, buildExecutor_eq]
  dsimp only
  rw [orRaise_ok_bind]
  dsimp only
  rw [hspec]
  dsimp only
  rw [hbody]

section Rule

variable
  (hbuild : ∀ {name spec build}, (caseRegistry case provider).get? name = some spec →
    spec.body = .effect build → ∀ args, Carries C I (onEnv (build args)))
  (hexecute : ∀ {action}, (p.caseLoop case provider).Builds action →
    Carries C I ((p.caseExecutor case provider).execute action))

include hbuild hexecute

theorem executeRule_keeps {name : String} {spec : ToolSpec (Env τ)}
    {build : Args → Env τ → Except PyExc Action × Env τ}
    (hspec : (caseRegistry case provider).get? name = some spec) (hbody : spec.body = .effect build)
    (decision : RoutingDecision) :
    Carries C I (executeRule (p.caseExecutor case provider) case spec build decision :
      Pipe S τ LedgerFields) := by
  refine Triple.bind (buildRuleAction_builds (hbuild hspec hbody)) (fun built => ?_)
    fun e w hw => hw.1
  cases built with
  | error exc => exact Triple.pure fun w hw => hw.1
  | ok action =>
    intro w hw
    obtain ⟨args, env, hbuild⟩ := hw.2 action rfl
    -- the executor only ever sees what a tool of the case built
    have hexec : Carries C I ((p.caseExecutor case provider).execute action) :=
      hexecute ⟨name, spec, build, args, env, hspec, hbody, hbuild⟩
    exact Carries.bind hexec (fun result => .pure _) w hw.1

/-- What building and executing keep, a rule keeps. -/
theorem runRule_keeps (decision : RoutingDecision) :
    Carries C I (p.runRule case provider decision) := by
  cases htool : ruleActionToTool (decision.action.getD "") with
  | none =>
    unfold runRule
    rw [htool]
    exact .pure _
  | some toolName =>
    obtain ⟨spec, build, hspec, hbody, _⟩ := rule_tool case provider htool
    rw [runRule_eq htool hspec hbody]
    exact executeRule_keeps hbuild hexecute hspec hbody decision

end Rule

section Act

variable (hloop : (p.caseLoop case provider).Keeps C I)

include hloop

theorem runRecovery_keeps : Carries C I (p.runRecovery case provider) := by
  unfold runRecovery
  rw [buildAgent_eq]
  exact run_carries hloop case.subject (caseView case)

/-- What the loop's parts and the saving of its trajectory keep, acting on a case keeps. -/
theorem act_keeps (hcut : ∀ w, I w → C w)
    (hsave : ∀ trajectory, Carries C I (saveTrajectory trajectory : Pipe S τ Nat))
    (decision : RoutingDecision) : Carries C I (p.act case provider decision) := by
  unfold act
  split
  · exact runRule_keeps hloop.build hloop.execute decision
  · refine Carries.bind (runRecovery_keeps hloop) fun trajectory => ?_
    refine Carries.bind (hsave trajectory) fun trajectoryId => ?_
    split
    · exact Carries.bind (Carries.read _ hcut) fun pending => .pure _
    · exact .pure _

end Act

theorem act_carries (h : p.KeepsCase C I case provider) (decision : RoutingDecision) :
    Carries C I (p.act case provider decision) := by
  refine act_keeps h.loop h.cut (fun trajectory => Carries.attempt fun w hw => ?_) decision
  dsimp only
  split
  · exact ⟨h.cut w hw, hw⟩
  · exact h.saved w _ hw

/-- What every part keeps, acting on an event keeps. -/
theorem routeAndAct_carries (h : p.Keeps C I) (event : NormalisedEvent) :
    Carries C I (p.routeAndAct event) :=
  Carries.bind (h.prepare p event) fun prepared =>
    act_carries (h.onCase prepared.1 prepared.2.1) prepared.2.2

end RecoveryPipeline

end PaymentRecovery.Recovery
