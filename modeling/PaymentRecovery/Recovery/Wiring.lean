import PaymentRecovery.Recovery.Pipeline
import PaymentRecovery.Agent.Trace

/-!
# How a case is wired

The registry, the executor and the loop that are built for one case, which
actions its tools build and what its handlers do to the environment. Building
them never fails, and an action's name decides its idempotency key.
-/

namespace PaymentRecovery.Recovery

open PaymentRecovery.Python PaymentRecovery.Guardrails PaymentRecovery.Providers
open PaymentRecovery.Agent PaymentRecovery.Lib Program

variable {S τ : Type}

/-! ## The registry -/

/-- The tools of a case under their names. -/
def caseRegistry (case : RecoveryCase) (provider : PaymentProvider τ) : ToolRegistry (Env τ) :=
  (tools case provider).foldl (fun registry spec => registry.set spec.name spec) .empty

theorem caseRegistry_get? (case : RecoveryCase) (provider : PaymentProvider τ) (name : String) :
    (caseRegistry case provider).get? name =
      if name = "escalate_to_human" then some (escalateTool case)
      else if name = "refund_payment" then some (refundTool case provider)
      else if name = "create_payment_link" then some (linkTool case)
      else if name = "fetch_customer_history" then some (fetchHistoryTool provider)
      else if name = "fetch_order" then some (fetchOrderTool provider)
      else if name = "fetch_payment" then some (fetchPaymentTool provider)
      else none := by
  simp only [caseRegistry, tools, List.foldl_cons, List.foldl_nil, Dict.get?_set, Dict.get?_empty]
  rfl

/-- No two tools share a name, so all of them are added. -/
theorem buildTools_eq (case : RecoveryCase) (provider : PaymentProvider τ) :
    buildTools case provider = .ok (caseRegistry case provider, handlers case provider) := by
  have hadd : ∀ (registry : ToolRegistry (Env τ)) (spec : ToolSpec (Env τ)),
      registry.get? spec.name = none → registry.add spec = .ok (registry.set spec.name spec) := by
    intro registry spec hnone
    unfold ToolRegistry.add
    rw [hnone]
  have hfold : (tools case provider).foldlM ToolRegistry.add Dict.empty =
      .ok (caseRegistry case provider) := by
    simp only [tools, List.foldlM_cons, List.foldlM_nil]
    rw [hadd _ (fetchPaymentTool provider) rfl]
    dsimp only [Bind.bind, Except.bind]
    rw [hadd _ (fetchOrderTool provider) (by simp only [Dict.get?_set]; rfl)]
    dsimp only [Bind.bind, Except.bind]
    rw [hadd _ (fetchHistoryTool provider) (by simp only [Dict.get?_set]; rfl)]
    dsimp only [Bind.bind, Except.bind]
    rw [hadd _ (linkTool case) (by simp only [Dict.get?_set]; rfl)]
    dsimp only [Bind.bind, Except.bind]
    rw [hadd _ (refundTool case provider) (by simp only [Dict.get?_set]; rfl)]
    dsimp only [Bind.bind, Except.bind]
    rw [hadd _ (escalateTool case) (by simp only [Dict.get?_set]; rfl)]
    rfl
  unfold buildTools
  rw [hfold]
  rfl

/-- A registry filled from a list answers tools of the list. -/
theorem mem_of_get?_foldl {specs : List (ToolSpec (Env τ))} {registry : ToolRegistry (Env τ)}
    {name : String} {spec : ToolSpec (Env τ)}
    (h : (specs.foldl (fun registry spec => registry.set spec.name spec) registry).get? name =
      some spec) : spec ∈ specs ∨ registry.get? name = some spec := by
  induction specs generalizing registry with
  | nil => exact .inr h
  | cons first rest ih =>
    rcases ih h with hmem | hget
    · exact .inl (List.mem_cons_of_mem _ hmem)
    · rw [Dict.get?_set] at hget
      split at hget
      · injection hget with hget
        exact .inl (hget ▸ List.mem_cons_self)
      · exact .inr hget

theorem mem_tools_of_get? {case : RecoveryCase} {provider : PaymentProvider τ} {name : String}
    {spec : ToolSpec (Env τ)} (h : (caseRegistry case provider).get? name = some spec) :
    spec ∈ tools case provider := by
  rcases mem_of_get?_foldl h with hmem | hget
  · exact hmem
  · cases hget

/-! ## The executor and the loop -/

namespace RecoveryPipeline

variable (p : RecoveryPipeline τ) (case : RecoveryCase) (provider : PaymentProvider τ)

/-- The guarded executor of a case. -/
def caseExecutor : GuardedExecutor (Env τ) :=
  (handlers case provider).foldl (fun ex (name, handler) => ex.register name handler)
    (GuardedExecutor.new case.paymentId (guardPolicy p.settings) fun env => env.tick p.now)

/-- The agent loop of a case. -/
def caseLoop : AgentLoop (Env τ) where
  llm messages env := env.ask .llm (p.llm messages)
  registry := caseRegistry case provider
  executor := p.caseExecutor case provider
  systemPrompt := p.prompt.text
  systemPromptId := p.prompt.id
  maxIterations := p.settings.agentMaxIterations
  timeoutSeconds := p.settings.agentTimeoutSeconds
  clock env := env.tick p.monotonic
  now env := env.tick p.isoNow

theorem buildExecutor_eq : p.buildExecutor case provider =
    .ok (p.caseExecutor case provider, caseRegistry case provider) := by
  unfold buildExecutor
  rw [buildTools_eq]
  rfl

theorem buildAgent_eq : p.buildAgent case provider = .ok (p.caseLoop case provider) := by
  unfold buildAgent
  rw [buildExecutor_eq]
  rfl

theorem caseExecutor_handler (name : String) :
    (p.caseExecutor case provider).handlers.get? name =
      if name = "escalate_to_human" then some (doEscalate case)
      else if name = "refund" then some (doRefund case provider)
      else if name = "send_payment_link" then some (doLink case provider)
      else none := by
  simp only [caseExecutor, handlers, List.foldl_cons, List.foldl_nil, GuardedExecutor.register,
    GuardedExecutor.new, Dict.get?_set, Dict.get?_empty]

end RecoveryPipeline

/-! ## What the tools build -/

/-- The actions of a case: the name decides the idempotency key. -/
inductive BuiltFor (case : RecoveryCase) (action : Action) : Prop
  | link (hname : action.name = "send_payment_link") (hkey : action.idempotencyKey = linkKey case)
  | refund (hname : action.name = "refund") (hkey : action.idempotencyKey = refundKey case)
  | escalate (hname : action.name = "escalate_to_human")
    (hkey : action.idempotencyKey = escalateKey case)

/-- What the key of an action starts with, and its name. -/
def actionKinds : List (String × String) :=
  [("link:", "send_payment_link"), ("refund:", "refund"), ("escalate:", "escalate_to_human")]

theorem BuiltFor.kind {case : RecoveryCase} {action : Action} (h : BuiltFor case action) :
    ∃ kind, (kind, action.name) ∈ actionKinds ∧ action.idempotencyKey = kind ++ case.paymentId := by
  cases h with
  | link hname hkey => exact ⟨"link:", by rw [hname]; decide, hkey⟩
  | refund hname hkey => exact ⟨"refund:", by rw [hname]; decide, hkey⟩
  | escalate hname hkey => exact ⟨"escalate:", by rw [hname]; decide, hkey⟩

/-- Under one payment and key there is one name. -/
theorem BuiltFor.name_eq {case case' : RecoveryCase} {action action' : Action}
    (h : BuiltFor case action) (h' : BuiltFor case' action')
    (hpayment : case.paymentId = case'.paymentId)
    (hkey : action.idempotencyKey = action'.idempotencyKey) : action.name = action'.name := by
  obtain ⟨kind, hmem, hown⟩ := h.kind
  obtain ⟨kind', hmem', hown'⟩ := h'.kind
  rw [hown, hown', hpayment] at hkey
  have hkind : kind = kind' := (String.append_left_inj _).mp hkey
  -- no two kinds start alike
  have hsame := List.inj_on_of_nodup_map (f := Prod.fst) (l := actionKinds) (by decide) hmem hmem'
    hkind
  exact congrArg Prod.snd hsame

theorem buildLinkAction_ok {case : RecoveryCase} {args : Args} {env : Env τ} {action : Action}
    (h : (buildLinkAction case args env).1 = .ok action) :
    action.name = "send_payment_link" ∧ BuiltFor case action := by
  unfold buildLinkAction at h
  dsimp only at h
  cases hget : args.get "amount_inr" with
  | error exc =>
    rw [hget] at h
    cases h
  | ok value =>
    cases hfloat : toFloat value with
    | error exc =>
      rw [hget] at h
      simp only [Bind.bind, Except.bind, hfloat] at h
      cases h
    | ok amount =>
      rw [hget] at h
      simp only [Bind.bind, Except.bind, hfloat] at h
      injection h with h
      rw [← h]
      exact ⟨rfl, .link rfl rfl⟩

theorem buildRefundAction_ok {case : RecoveryCase} {provider : PaymentProvider τ} {args : Args}
    {env : Env τ} {action : Action}
    (h : (buildRefundAction case provider args env).1 = .ok action) :
    action.name = "refund" ∧ BuiltFor case action := by
  unfold buildRefundAction at h
  split at h
  · injection h with h
    rw [← h]
    exact ⟨rfl, .refund rfl rfl⟩
  · cases h

theorem buildEscalateAction_ok {case : RecoveryCase} {args : Args} {env : Env τ} {action : Action}
    (h : (buildEscalateAction case args env).1 = .ok action) :
    action.name = "escalate_to_human" ∧ BuiltFor case action := by
  injection h with h
  rw [← h]
  exact ⟨rfl, .escalate rfl rfl⟩

/-- What holds of the three reads holds of every read tool of a case, and what holds of the three
builders of every effect tool. -/
theorem tools_all {case : RecoveryCase} {provider : PaymentProvider τ}
    {A : (Args → Env τ → Except PyExc PyVal × Env τ) → Prop}
    {B : (Args → Env τ → Except PyExc Action × Env τ) → Prop}
    (hpayment : A (fetchPayment provider)) (horder : A (fetchOrder provider))
    (hhistory : A (fetchCustomerHistory provider)) (hlink : B (buildLinkAction case))
    (hrefund : B (buildRefundAction case provider)) (hescalate : B (buildEscalateAction case))
    {spec : ToolSpec (Env τ)} (hmem : spec ∈ tools case provider) :
    (∀ handler, spec.body = .read handler → A handler) ∧
    (∀ build, spec.body = .effect build → B build) := by
  have hread : ∀ {handler}, A handler → (∀ handler', .read handler = ToolBody.read handler' →
      A handler') ∧ ∀ build, .read handler = ToolBody.effect build → B build := by
    intro handler hA
    refine ⟨fun handler' h => ?_, fun build h => (by cases h)⟩
    injection h with h
    exact h ▸ hA
  have heffect : ∀ {build}, B build → (∀ handler, .effect build = ToolBody.read handler →
      A handler) ∧ ∀ build', .effect build = ToolBody.effect build' → B build' := by
    intro build hB
    refine ⟨fun handler h => (by cases h), fun build' h => ?_⟩
    injection h with h
    exact h ▸ hB
  simp only [tools, List.mem_cons, List.not_mem_nil, or_false] at hmem
  rcases hmem with rfl | rfl | rfl | rfl | rfl | rfl
  · exact hread hpayment
  · exact hread horder
  · exact hread hhistory
  · exact heffect hlink
  · exact heffect hrefund
  · exact heffect hescalate

/-- Every effect tool of the case builds actions of the case. -/
theorem builtFor_of_mem {case : RecoveryCase} {provider : PaymentProvider τ}
    {spec : ToolSpec (Env τ)} (hmem : spec ∈ tools case provider)
    {build : Args → Env τ → Except PyExc Action × Env τ} (hbody : spec.body = .effect build)
    {args : Args} {env : Env τ} {action : Action} (h : (build args env).1 = .ok action) :
    BuiltFor case action := by
  have hall := tools_all (A := fun _ => True)
    (B := fun build : Args → Env τ → Except PyExc Action × Env τ =>
      ∀ args env action, (build args env).1 = .ok action → BuiltFor case action)
    trivial trivial trivial (fun _ _ _ h => (buildLinkAction_ok h).2)
    (fun _ _ _ h => (buildRefundAction_ok h).2) (fun _ _ _ h => (buildEscalateAction_ok h).2) hmem
  exact hall.2 build hbody args env action h

theorem builtFor_of_builds {p : RecoveryPipeline τ} {case : RecoveryCase}
    {provider : PaymentProvider τ} {action : Action}
    (h : (p.caseLoop case provider).Builds action) : BuiltFor case action := by
  obtain ⟨name, spec, build, args, env, hspec, hbody, hbuild⟩ := h
  exact builtFor_of_mem (mem_tools_of_get? hspec) hbody hbuild

/-- A rule's action has a tool, and the tool builds actions under the rule's own name. -/
theorem rule_tool (case : RecoveryCase) (provider : PaymentProvider τ) {action toolName : String}
    (h : RecoveryPipeline.ruleActionToTool action = some toolName) :
    ∃ spec build, (caseRegistry case provider).get? toolName = some spec ∧
      spec.body = .effect build ∧ ∀ args env built, (build args env).1 = .ok built →
        built.name = action ∧ BuiltFor case built := by
  unfold RecoveryPipeline.ruleActionToTool at h
  split at h
  · rename_i haction
    injection h with h
    -- the tool `create_payment_link` builds `send_payment_link`
    refine ⟨linkTool case, _, by rw [← h, caseRegistry_get?]; rfl, rfl, fun args env built hb => ?_⟩
    rw [haction]
    exact buildLinkAction_ok hb
  · split at h
    · rename_i haction
      injection h with h
      refine ⟨refundTool case provider, _, by rw [← h, caseRegistry_get?]; rfl, rfl,
        fun args env built hb => ?_⟩
      rw [haction]
      exact buildRefundAction_ok hb
    · split at h
      · rename_i haction
        injection h with h
        refine ⟨escalateTool case, _, by rw [← h, caseRegistry_get?]; rfl, rfl,
          fun args env built hb => ?_⟩
        rw [haction]
        exact buildEscalateAction_ok hb
      · cases h

/-! ## What a case does to the environment -/

/-- The step leaves the database and the applied effects alone. -/
def Quiet {α : Type} (f : Env τ → α × Env τ) : Prop :=
  ∀ env, (f env).2.db = env.db ∧ (f env).2.applied = env.applied

theorem quiet_ask {α : Type} (call : OuterCall) (f : τ → α × τ) : Quiet fun env => env.ask call f :=
  fun _ => ⟨rfl, rfl⟩

theorem quiet_tick {α : Type} (f : τ → α × τ) : Quiet fun env => env.tick f :=
  fun _ => ⟨rfl, rfl⟩

theorem quiet_fetch {α : Type} (provider : PaymentProvider τ) (argName : String)
    (get : String → τ → Except PyExc α × τ) (bounded : α → PyVal) (args : Args) :
    Quiet (fetch provider argName get bounded args) := by
  intro env
  unfold fetch
  split
  · split
    · rename_i heq
      rw [← congrArg Prod.snd heq]
      exact ⟨rfl, rfl⟩
    · rename_i heq
      have henv := congrArg Prod.snd heq
      dsimp only at henv
      split
      · rw [← henv]
        exact ⟨rfl, rfl⟩
      · rw [← henv]
        exact ⟨rfl, rfl⟩
  · exact ⟨rfl, rfl⟩
  · exact ⟨rfl, rfl⟩

theorem quiet_buildRefundAction (case : RecoveryCase) (provider : PaymentProvider τ) (args : Args) :
    Quiet (buildRefundAction case provider args) := by
  intro env
  unfold buildRefundAction
  split
  · rename_i heq
    rw [← congrArg Prod.snd heq]
    exact ⟨rfl, rfl⟩
  · rename_i heq
    rw [← congrArg Prod.snd heq]
    exact ⟨rfl, rfl⟩

/-- Reading and building are quiet: only a handler makes the provider apply anything. -/
theorem quiet_tools {case : RecoveryCase} {provider : PaymentProvider τ} {spec : ToolSpec (Env τ)}
    (hmem : spec ∈ tools case provider) :
    (∀ handler, spec.body = .read handler → ∀ args, Quiet (handler args)) ∧
    (∀ build, spec.body = .effect build → ∀ args, Quiet (build args)) :=
  tools_all (fun _ => quiet_fetch _ _ _ _ _) (fun _ => quiet_fetch _ _ _ _ _)
    (fun _ => quiet_fetch _ _ _ _ _) (fun _ _ => ⟨rfl, rfl⟩)
    (fun args => quiet_buildRefundAction case provider args) (fun _ _ => ⟨rfl, rfl⟩) hmem

/-- What a call with an effect logs: nothing, or itself and whether it returned. -/
theorem effect_env {α : Type} (name paymentId key : String) (f : τ → EffectReply α × τ)
    (env : Env τ) :
    (env.effect name paymentId key f).2.db = env.db ∧
    ((env.effect name paymentId key f).2.applied = env.applied ∨
      ∃ e : AppliedEffect, (env.effect name paymentId key f).2.applied = env.applied ++ [e] ∧
        e.paymentId = paymentId ∧ e.key = key ∧
        e.returned = (env.effect name paymentId key f).1.toOption.isSome) := by
  unfold Env.effect
  cases f env.outer with
  | mk reply outer =>
    dsimp only
    refine ⟨rfl, ?_⟩
    split
    · exact .inr ⟨_, rfl, rfl, rfl, rfl⟩
    · exact .inl rfl

/-- The executor of the case knows the action. -/
theorem BuiltFor.handled {case : RecoveryCase} {action : Action} (h : BuiltFor case action)
    (p : RecoveryPipeline τ) (provider : PaymentProvider τ) : ∃ handler,
      (p.caseExecutor case provider).handlers.get? action.name = some handler := by
  rw [p.caseExecutor_handler]
  cases h with
  | link hname =>
    rw [hname]
    exact ⟨_, rfl⟩
  | refund hname =>
    rw [hname]
    exact ⟨_, rfl⟩
  | escalate hname =>
    rw [hname]
    exact ⟨_, rfl⟩

/-- What one handler run does to the environment. -/
structure HandlerRun (case : RecoveryCase) (action : Action) (env : Env τ)
    (outcome : Except PyExc PyVal × Env τ) : Prop where
  db : outcome.2.db = env.db
  applied : outcome.2.applied = env.applied ∨
    ∃ e : AppliedEffect, outcome.2.applied = env.applied ++ [e] ∧
      e.paymentId = case.paymentId ∧ e.key = action.idempotencyKey ∧
      e.returned = outcome.1.toOption.isSome
  encodable : ∀ value, outcome.1 = .ok value → value.Encodable

/-- A handler that failed before it asked the provider. -/
theorem HandlerRun.refused (case : RecoveryCase) (action : Action) (env : Env τ) (exc : PyExc) :
    HandlerRun case action env (.error exc, env) :=
  ⟨rfl, .inl rfl, fun value h => by cases h⟩

/-- A handler that asked the provider for one effect under the action's key. -/
theorem HandlerRun.asked {α : Type} {case : RecoveryCase} {action : Action} {env : Env τ}
    {name key : String} {f : τ → EffectReply α × τ} {bounded : α → PyVal}
    {outcome : Except PyExc PyVal × Env τ}
    (hkey : action.idempotencyKey = key) (hbounded : ∀ a, (bounded a).Encodable)
    (hok : ∀ a env', env.effect name case.paymentId key f = (.ok a, env') →
      outcome = (.ok (bounded a), env'))
    (herror : ∀ exc env', env.effect name case.paymentId key f = (.error exc, env') →
      outcome = (.error exc, env')) : HandlerRun case action env outcome := by
  obtain ⟨hdb, happlied⟩ := effect_env name case.paymentId key f env
  rw [← hkey] at hdb happlied hok herror
  cases heffect : env.effect name case.paymentId action.idempotencyKey f with
  | mk reply env' =>
    rw [heffect] at hdb happlied
    cases reply with
    | ok a =>
      rw [hok a env' heffect]
      refine ⟨hdb, happlied, fun value hvalue => ?_⟩
      injection hvalue with hvalue
      exact hvalue ▸ hbounded a
    | error exc =>
      rw [herror exc env' heffect]
      exact ⟨hdb, happlied, fun value h => by cases h⟩

theorem boundedLink_encodable (link : PaymentLink) : (boundedLink link).Encodable :=
  .record (by simp [PyVal.Encodable.str])

theorem boundedRefund_encodable (refund : Refund) : (boundedRefund refund).Encodable :=
  .record (by simp [PyVal.Encodable.str, PyVal.Encodable.float])

/-- Every handler of the case applies one effect at most, under the action's own key. -/
theorem handler_run {p : RecoveryPipeline τ} {case : RecoveryCase} {provider : PaymentProvider τ}
    {action : Action} (hbuilt : BuiltFor case action) {handler : EffectHandler (Env τ)}
    (hhandler : (p.caseExecutor case provider).handlers.get? action.name = some handler)
    (env : Env τ) : HandlerRun case action env (handler action env) := by
  rw [RecoveryPipeline.caseExecutor_handler] at hhandler
  cases hbuilt with
  | link hname hkey =>
    rw [hname] at hhandler
    have hh : doLink case provider = handler := Option.some.inj hhandler
    rw [← hh]
    unfold doLink
    split
    · exact .refused case action env _
    · exact .asked hkey boundedLink_encodable (fun link env' h => by rw [h])
        fun exc env' h => by rw [h]
  | refund hname hkey =>
    rw [hname] at hhandler
    have hh : doRefund case provider = handler := Option.some.inj hhandler
    rw [← hh]
    unfold doRefund
    -- the params hold both values, or the handler fails before it asks
    split
    · exact .asked hkey boundedRefund_encodable (fun refund env' h => by rw [h])
        fun exc env' h => by rw [h]
    · exact .refused case action env _
    · exact .refused case action env _
    · exact .refused case action env _
  | escalate hname hkey =>
    rw [hname] at hhandler
    have hh : doEscalate case = handler := Option.some.inj hhandler
    rw [← hh]
    -- an escalation reaches no provider
    refine ⟨rfl, .inl rfl, fun value hvalue => ?_⟩
    injection hvalue with hvalue
    exact hvalue ▸ .record (by simp [PyVal.Encodable.str])

end PaymentRecovery.Recovery
