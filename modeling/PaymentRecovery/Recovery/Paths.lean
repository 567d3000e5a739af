import PaymentRecovery.Agent.Presented
import PaymentRecovery.Agent.Scripted
import PaymentRecovery.Recovery.Built
import PaymentRecovery.Recovery.Effects
import PaymentRecovery.Recovery.Outside
import PaymentRecovery.Recovery.Pending

/-!
# The rule path beside the agent path

One action, once presented by a rule and once by an agent that calls the
corresponding tool and then finishes. Both make the same call to the executor,
so the guard store and the providers end alike. The rows are two readings of one
answer, and the agent's reading knows neither duplicates nor which approval it
was given.
-/

namespace PaymentRecovery.Recovery

open PaymentRecovery.Python PaymentRecovery.Guardrails PaymentRecovery.Providers
open PaymentRecovery.Agent PaymentRecovery.Lib Program RecoveryPipeline

variable {S τ ρ : Type}

/-! ## The action of a rule and of a tool call -/

/-- The call of a tool that corresponds to the action of a rule. -/
inductive Corresponds (case : RecoveryCase) : String → String → List (PyKey × PyVal) → Prop where
  | link (amount : PyVal) (htype : HasType .number amount)
    (hamount : toFloat amount = .ok case.amountInr) :
    Corresponds case "send_payment_link" "create_payment_link" [(.str "amount_inr", amount)]
  | refund : Corresponds case "refund" "refund_payment" []
  | escalate : Corresponds case "escalate_to_human" "escalate_to_human" []

/-- What the tool of a rule's action builds, and what it leaves. -/
def ruleAction (case : RecoveryCase) (provider : PaymentProvider τ) (name : String) (env : Env τ) :
    Except PyExc Action × Env τ :=
  if name = "send_payment_link" then (.ok (linkAction case case.amountInr), env)
  else if name = "refund" then buildRefundAction case provider [] env
  else buildEscalateAction case [] env

theorem buildRefundAction_snd (case : RecoveryCase) (provider : PaymentProvider τ) (args : Args)
    (env : Env τ) : (buildRefundAction case provider args env).2 =
      (env.ask (.provider provider.name) (provider.getPayment case.paymentId)).2 := by
  unfold buildRefundAction
  cases env.ask (.provider provider.name) (provider.getPayment case.paymentId) with
  | mk answer env => cases answer <;> rfl

theorem ruleAction_same {R : τ → τ → Prop} {seen : OuterCall → Bool} {provider : PaymentProvider τ}
    (hsteady : Steady R provider) (case : RecoveryCase) (name : String) {a b : Env τ}
    (h : SameOutside R seen a b) :
    (ruleAction case provider name a).1 = (ruleAction case provider name b).1 ∧
      SameOutside R seen (ruleAction case provider name a).2
        (ruleAction case provider name b).2 := by
  unfold ruleAction
  split
  · exact ⟨rfl, h⟩
  · split
    · exact buildRefundAction_same hsteady case [] h
    · exact ⟨rfl, h⟩

/-- What a rule's action looks like. -/
theorem ruleAction_spec {case : RecoveryCase} {provider : PaymentProvider τ} {name tool : String}
    {raw : List (PyKey × PyVal)} (hcall : Corresponds case name tool raw) {env : Env τ}
    {action : Action} (h : (ruleAction case provider name env).1 = .ok action) :
    action.name = name ∧ name ≠ "" ∧ action.params.Encodable ∧ BuiltFor case action := by
  cases hcall with
  | link amount =>
    injection h with h
    subst h
    exact ⟨rfl, by decide, .record (by simp [PyVal.Encodable.float]), .link rfl rfl⟩
  | refund =>
    have hfst := (buildRefundAction_fst case provider [] env).symm.trans h
    cases hasked : paymentOf case provider env with
    | error exc =>
      rw [hasked] at hfst
      cases hfst
    | ok payment =>
      rw [hasked] at hfst
      injection hfst with hfst
      subst hfst
      refine ⟨rfl, by decide, .record ?_, .refund rfl rfl⟩
      simp [PyVal.Encodable.float, PyVal.Encodable.str]
  | escalate =>
    injection h with h
    subst h
    exact ⟨rfl, by decide, .record (by simp), .escalate rfl rfl⟩

section Presents

variable [GuardStore S] {p : RecoveryPipeline τ} {case : RecoveryCase}
  {provider : PaymentProvider τ}

/-- The rule presents it. -/
theorem runRule_presents {name tool : String} {raw : List (PyKey × PyVal)}
    (hcall : Corresponds case name tool raw) {decision : RoutingDecision}
    (hdecision : decision.action = some name) {w : World S (Env τ)} {action : Action}
    (hbuilt : (ruleAction case provider name w.env).1 = .ok action) :
    (p.runRule case provider decision).run w =
      (ruleRow decision name <$> (p.caseExecutor case provider).execute action).run
        { w with env := (ruleAction case provider name w.env).2 } := by
  cases hcall with
  | link amount =>
    injection hbuilt with hbuilt
    rw [p.runRule_link case provider hdecision, ← hbuilt]
    rfl
  | refund =>
    have hfst := (buildRefundAction_fst case provider [] w.env).symm.trans hbuilt
    have hsnd := buildRefundAction_snd case provider [] w.env
    cases hasked : paymentOf case provider w.env with
    | error exc =>
      rw [hasked] at hfst
      cases hfst
    | ok payment =>
      rw [hasked] at hfst
      injection hfst with hfst
      rw [p.runRule_refund case provider hdecision hasked, ← hfst,
        show (ruleAction case provider "refund" w.env).2 = _ from hsnd]
      rfl
  | escalate =>
    injection hbuilt with hbuilt
    rw [p.runRule_escalate case provider hdecision, ← hbuilt]
    rfl

/-- The turn with the corresponding tool call presents it too. -/
theorem turn_presents {name tool : String} {raw : List (PyKey × PyVal)}
    (hcall : Corresponds case name tool raw) {w : World S (Env τ)} {action : Action}
    (hbuilt : (ruleAction case provider name w.env).1 = .ok action) :
    ∃ args, (PyVal.record args).Encodable ∧ ∀ thought response,
      ((p.caseLoop case provider).turn (some (.call thought tool raw)) .init 1 response).run w =
        ((fun result => Turn.next (effected .init 1 thought tool args response action result)) <$>
          (p.caseExecutor case provider).execute action).run
            { w with env := (ruleAction case provider name w.env).2 } := by
  cases hcall with
  | link amount htype hamount =>
    have hspec : (p.caseLoop case provider).registry.get? "create_payment_link" =
        some (linkTool case) := (caseRegistry_get? case provider _).trans rfl
    have hargs : validateArgs (linkTool case : ToolSpec (Env τ))
        (.dict [(.str "amount_inr", amount)]) = .ok [("amount_inr", amount)] := by
      cases htype <;> rfl
    have hbody : (linkTool case : ToolSpec (Env τ)).body = .effect (buildLinkAction case) := rfl
    have hbuilt' : (buildLinkAction case [("amount_inr", amount)] w.env).1 = .ok action := by
      rw [← hbuilt]
      show (do
        let amount ← toFloat amount
        return linkAction case amount : Except PyExc Action) = .ok (linkAction case case.amountInr)
      rw [hamount]
      rfl
    exact ⟨_, encodable_of_isJson (validateArgs_isJson hargs), fun thought response =>
      turn_effect hspec hargs hbody hbuilt'⟩
  | refund =>
    have hspec : (p.caseLoop case provider).registry.get? "refund_payment" =
        some (refundTool case provider) := (caseRegistry_get? case provider _).trans rfl
    have hargs : validateArgs (refundTool case provider) (.dict []) = .ok [] := rfl
    have hbody : (refundTool case provider).body = .effect (buildRefundAction case provider) := rfl
    exact ⟨_, encodable_of_isJson (validateArgs_isJson hargs), fun thought response =>
      turn_effect hspec hargs hbody hbuilt⟩
  | escalate =>
    have hspec : (p.caseLoop case provider).registry.get? "escalate_to_human" =
        some (escalateTool case) := (caseRegistry_get? case provider _).trans rfl
    have hargs : validateArgs (escalateTool case : ToolSpec (Env τ)) (.dict []) = .ok [] := rfl
    have hbody : (escalateTool case : ToolSpec (Env τ)).body = .effect (buildEscalateAction case) :=
      rfl
    exact ⟨_, encodable_of_isJson (validateArgs_isJson hargs), fun thought response =>
      turn_effect hspec hargs hbody hbuilt⟩

end Presents

/-! ## The two rows -/

/-- The same action, execution status and outcome, and no approval or the same one. -/
structure SameRow (g h : GuardState) (rule agent : LedgerFields) : Prop where
  action : rule.action = agent.action
  executionStatus : rule.executionStatus = agent.executionStatus
  outcome : rule.outcome = agent.outcome
  approvalId : SameRef g h rule.approvalId agent.approvalId

theorem sameRef_iff {g h : GuardState} (hwf : h.Wf) {x y z : Option ApprovalId}
    (hxy : SameRef g h x y) : SameRef g h x z ↔ z = y := by
  constructor
  · intro hxz
    cases hxy with
    | none =>
      cases hxz
      rfl
    | some hab =>
      cases hxz with
      | some hac =>
        obtain ⟨rk, ha, hb⟩ := hab
        obtain ⟨rk', ha', hc⟩ := hac
        rw [ha] at ha'
        injection ha' with ha'
        exact congrArg some (hwf.approvalKey_injective (ha' ▸ hc) hb)
  · intro hzy
    exact hzy ▸ hxy

/-- The agent loop has one word for an executed action and for a duplicate. -/
theorem finalOutcome_acted {progress : Progress} {name : String}
    (hstatus : progress.resolutionStatus = some .executed ∨
      progress.resolutionStatus = some .duplicate)
    (haction : progress.resolutionAction = some name) (hname : name ≠ "")
    (resolution : Option String) : (AgentLoop.finalOutcome resolution progress).value =
      if name = "escalate_to_human" then "escalated" else "resolved" := by
  unfold AgentLoop.finalOutcome
  rcases hstatus with hstatus | hstatus
  all_goals
    simp only [hstatus, haction, if_neg hname, Option.some.injEq]
    split <;> rfl

/-- Its words for an executor status are the pipeline's, but for `duplicate`. -/
theorem outcome_eq_iff {progress : Progress} {status : ExecutionStatus} {name : String}
    (hstatus : progress.resolutionStatus = some status)
    (haction : progress.resolutionAction = some name) (hname : name ≠ "")
    (resolution : Option String) :
    outcomeFor status name = (AgentLoop.finalOutcome resolution progress).value ↔
      status ≠ .duplicate := by
  cases status with
  | executed =>
    rw [finalOutcome_acted (.inl hstatus) haction hname]
    exact ⟨fun _ => by decide, fun _ => rfl⟩
  | duplicate =>
    rw [finalOutcome_acted (.inr hstatus) haction hname]
    refine ⟨fun h => absurd h ?_, fun h => absurd rfl h⟩
    show ¬ "duplicate" = if name = "escalate_to_human" then "escalated" else "resolved"
    split <;> decide
  | _ =>
    unfold AgentLoop.finalOutcome
    rw [hstatus]
    exact ⟨fun _ => by decide, fun _ => rfl⟩

/-! ## The agent's run -/

/-- The provider answers from its own data, which the LLM and the clocks leave alone. -/
structure Separate (data : τ → ρ) (p : RecoveryPipeline τ) (provider : PaymentProvider τ) :
    Prop where
  steady : Steady (fun o o' => data o = data o') provider
  llm : ∀ messages o, data (p.llm messages o).2 = data o
  monotonic : ∀ o, data (p.monotonic o).2 = data o
  now : ∀ o, data (p.now o).2 = data o
  isoNow : ∀ o, data (p.isoNow o).2 = data o

/-- The provider has the same data, and got the same calls. -/
def SameCalls (data : τ → ρ) : Env τ → Env τ → Prop :=
  SameOutside (fun o o' => data o = data o') fun call => call ≠ OuterCall.llm

section Aside

variable {data : τ → ρ} {a b : Env τ}

theorem SameCalls.refl (data : τ → ρ) (a : Env τ) : SameCalls data a a := ⟨rfl, rfl, rfl⟩

theorem SameCalls.ticked {α : Type} (h : SameCalls data a b) {f : τ → α × τ}
    (hf : ∀ o, data (f o).2 = data o) : SameCalls data a (b.tick f).2 :=
  h.ticked_aside hf

theorem SameCalls.asked {α : Type} (h : SameCalls data a b) {f : τ → α × τ}
    (hf : ∀ o, data (f o).2 = data o) : SameCalls data a (b.ask .llm f).2 :=
  h.asked_aside hf (by simp)

end Aside

theorem caseView_encodable (case : RecoveryCase) : ∀ item ∈ caseView case, item.2.Encodable := by
  unfold caseView
  simp only [List.forall_mem_cons, List.not_mem_nil, false_imp_iff, implies_true, and_true]
  exact ⟨.str _, .float _, .str _, .ofOption .str _, .ofOption .str _⟩

section Agent

variable [GuardStore S] {p : RecoveryPipeline τ} {case : RecoveryCase}
  {provider : PaymentProvider τ} {data : τ → ρ} {name tool : String} {raw : List (PyKey × PyVal)}
  {w : World S (Env τ)} {env' : Env τ}

omit [GuardStore S] in
/-- Up to its first answer the LLM does nothing that the provider sees. -/
theorem callsFirst_aside (hsep : Separate data p provider)
    (hfirst : (p.caseLoop case provider).CallsFirst (caseView case) tool raw w.env env') :
    SameCalls data w.env env' := by
  obtain ⟨messages, response, thought, _, _, _, rfl⟩ := hfirst.asked
  exact ((((SameCalls.refl data w.env).ticked hsep.isoNow).ticked hsep.monotonic).ticked
    hsep.monotonic).asked (hsep.llm messages)

variable [LawfulGuardStore S]

/-- What the row of a finished run tells of the one turn that went on. -/
structure RowOf (progress : Progress) (resolution : Option String) (pending : List ApprovalRecord)
    (fields : LedgerFields) : Prop where
  action : fields.action = progress.resolutionAction
  executionStatus : fields.executionStatus = lastEffectStatus progress.steps
  outcome : fields.outcome = (AgentLoop.finalOutcome resolution progress).value
  approvalId : fields.approvalId = if progress.resolutionStatus = some .pendingApproval then
    (newest pending).map (·.approvalId) else none

/-- An agent that calls one tool and finishes leaves what the turn left, and a row of it. -/
theorem runAgent_finishes (hsep : Separate data p provider)
    (hscript : (p.caseLoop case provider).CallsOnce (caseView case) tool raw w env')
    {progress : String → LLMResponse → Progress} {v : World S (Env τ)}
    (hturn : ∀ thought response, ((p.caseLoop case provider).turn (some (.call thought tool raw))
      .init 1 response).run { w with env := env' } = (.ok (.next (progress thought response)), v))
    (hentry : ∀ thought response, ∃ entry,
      (progress thought response).history = [entry] ∧ entry.Encodable) :
    ∃ fields v' thought response resolution,
      (p.runAgent case provider).run w = (.ok fields, v') ∧ v'.store = v.store ∧
      (∀ a, SameCalls data a v.env → SameCalls data a v'.env) ∧
      RowOf (progress thought response) resolution (GuardStore.listPending v.store case.paymentId)
        fields := by
  obtain ⟨trajectory, messages, thought, response, resolution, last, hloop, houtcome, haction,
    hsteps, hlast⟩ := run_finishes hscript case.subject (caseView_encodable case) hturn hentry
  rw [← p.runRecovery_run] at hloop
  -- what the run recorded can be saved
  obtain ⟨_, _, _, _, hend⟩ := p.runRecovery_traces case provider w
  rw [hloop] at hend
  obtain ⟨id, db, hagent⟩ := p.runAgent_run hloop hend.2.saves
  refine ⟨_, _, thought, response, resolution, hagent, rfl, fun a h => ?_, haction, ?_,
    congrArg AgentOutcome.value houtcome, ?_⟩
  · have haside := ((h.ticked hsep.monotonic).asked (hsep.llm messages)).ticked hsep.isoNow
    exact ⟨haside.outer, haside.calls, haside.applied⟩
  · show lastEffectStatus trajectory.steps = _
    unfold lastEffectStatus
    rw [hsteps, List.reverse_append, List.reverse_singleton, List.singleton_append,
      List.findSome?_cons, hlast]
    rfl
  · show approvalOf case trajectory v.store = _
    unfold approvalOf
    rw [houtcome]
    exact if_congr AgentLoop.finalOutcome_pending rfl rfl

end Agent

/-! ## When the paths agree -/

section Agree

theorem approvalId_none {σ : Type} {ex : GuardedExecutor σ} {action : Action} {s s' : Snapshot}
    {result : ExecutionResult} (h : ExecuteStep ex action s (.ok result) s')
    (hstatus : result.status ≠ .pendingApproval) : result.approvalId = none := by
  cases h with
  | enqueued => exact absurd rfl hstatus
  | undecided => exact absurd rfl hstatus
  | _ => rfl

/-- The rule's row and the agent's, of one answer. -/
theorem sameRow_iff {g h : GuardState} (hwf : h.Wf) {r r' : ExecutionResult}
    (hsame : SameResult g h r r') (hnone : r'.status ≠ .pendingApproval → r'.approvalId = none)
    {decision : RoutingDecision} {action : Action} (hdecision : decision.action = some action.name)
    (hname : action.name ≠ "") {thought tool : String} {args : Args} {response : LLMResponse}
    {resolution : Option String} {pending : List ApprovalRecord} {fields : LedgerFields}
    (hrow : RowOf (effected .init 1 thought tool args response action r') resolution pending
      fields) :
    SameRow g h (ruleRow decision action.name r) fields ↔ r'.status ≠ .duplicate ∧
      (r'.status = .pendingApproval →
        (newest pending).map (·.approvalId) = r'.approvalId) := by
  have houtcome : outcomeFor r'.status action.name = (AgentLoop.finalOutcome resolution
      (effected .init 1 thought tool args response action r')).value ↔ r'.status ≠ .duplicate :=
    outcome_eq_iff rfl rfl hname resolution
  have hstatus : fields.executionStatus = some r'.status.value := by
    rw [hrow.executionStatus]
    show lastEffectStatus [_] = _
    simp [lastEffectStatus, afterPrefix_append]
  have happroval : fields.approvalId = if r'.status = .pendingApproval then
      (newest pending).map (·.approvalId) else none :=
    hrow.approvalId.trans (if_congr (by exact Option.some_inj) rfl rfl)
  rw [← houtcome, ← hrow.outcome]
  constructor
  · intro hrows
    refine ⟨(congrArg (outcomeFor · action.name) hsame.status).symm.trans hrows.outcome,
      fun hpending => ?_⟩
    rw [if_pos hpending] at happroval
    exact (sameRef_iff hwf hsame.approvalId).mp (happroval ▸ hrows.approvalId)
  · rintro ⟨hsettled, hnewest⟩
    refine ⟨hdecision.trans hrow.action.symm, ?_, ?_, ?_⟩
    · rw [hstatus, ← hsame.status]
      rfl
    · exact (congrArg (outcomeFor · action.name) hsame.status).trans hsettled
    · refine (sameRef_iff hwf hsame.approvalId).mpr ?_
      rw [happroval]
      by_cases hpending : r'.status = .pendingApproval
      · rw [if_pos hpending, hnewest hpending]
      · rw [if_neg hpending, hnone hpending]

variable [GuardStore S] [LawfulGuardStore S]

/-- The guard store and the providers end alike, and the rows tell the same; a path that raises
is met by the same exception on the other. -/
structure PathsAgree (data : τ → ρ) (rule agent : Except PyExc LedgerFields × World S (Env τ)) :
    Prop where
  world : Parallel EveryRun (SameCalls data) rule.2 agent.2
  row : Answers (SameRow rule.2.view agent.2.view) rule.1 agent.1

variable [OrderedGuardStore S] {p : RecoveryPipeline τ} {case : RecoveryCase}
  {provider : PaymentProvider τ} {data : τ → ρ} {name tool : String} {raw : List (PyKey × PyVal)}
  {w : World S (Env τ)} {env' : Env τ} {decision : RoutingDecision}

/-- An action that is built on both paths. -/
theorem paths_agree_presented (hsep : Separate data p provider)
    (hcall : Corresponds case name tool raw) (hdecision : decision.action = some name)
    (hscript : (p.caseLoop case provider).CallsOnce (caseView case) tool raw w env')
    {action : Action} (hbuilt : (ruleAction case provider name w.env).1 = .ok action) :
    PathsAgree data ((p.runRule case provider decision).run w) ((p.runAgent case provider).run w) ↔
      Indistinct (p.caseExecutor case provider) action w.store
        (p.now (ruleAction case provider name env').2.outer).1 := by
  obtain ⟨hfst, henv⟩ := ruleAction_same hsep.steady case name
    (callsFirst_aside hsep hscript.first)
  have hbuilt' : (ruleAction case provider name env').1 = .ok action := hfst.symm.trans hbuilt
  obtain ⟨hname, hne, hparams, hfor⟩ := ruleAction_spec hcall hbuilt
  obtain ⟨handler, hhandler⟩ := hfor.handled p provider
  -- one call to the executor, from worlds that differ on the agent's side of the environment
  have hex : SameExecutor (SameCalls data) (p.caseExecutor case provider)
      (p.caseExecutor case provider) := caseExecutor_same hsep.steady
    (fun o o' h => (hsep.now o).trans (h.trans (hsep.now o').symm)) case
  obtain ⟨hpar, hanswers⟩ := execute_coupled hex (everyRun _) action
    { w with env := (ruleAction case provider name w.env).2 }
    { w with env := (ruleAction case provider name env').2 } ⟨.refl _, henv⟩
  have hrule := runRule_presents (p := p) hcall hdecision hbuilt
  obtain ⟨args, hargs, hturn⟩ := turn_presents (p := p) hcall (w := { w with env := env' }) hbuilt'
  have hstep := execute_step (p.caseExecutor case provider) action
    { w with env := (ruleAction case provider name env').2 }
  subst hname
  rw [hrule, run_map]
  cases hv : ((p.caseExecutor case provider).execute action).run
      { w with env := (ruleAction case provider action.name w.env).2 } with
  | mk x v =>
    cases hu : ((p.caseExecutor case provider).execute action).run
        { w with env := (ruleAction case provider action.name env').2 } with
    | mk y u =>
      rw [hv, hu] at hpar hanswers
      cases hanswers with
      | error exc =>
        have hagent : (p.runAgent case provider).run w = (.error exc, u) := by
          refine p.runAgent_raises ?_
          rw [p.runRecovery_run]
          exact run_raises hscript.first _ fun thought response => by
            rw [hturn, run_map, hu]
            rfl
        rw [hagent]
        exact ⟨fun _ => raised_indistinct hhandler hparams (congrArg Prod.fst hu),
          fun _ => ⟨hpar, .error exc⟩⟩
      | @ok r r' hsame =>
        obtain ⟨fields, u', thought, response, resolution, hagent, hstore, haside, hrow⟩ :=
          runAgent_finishes hsep hscript
            (fun thought response => by
              rw [hturn, run_map, hu]
              rfl)
            (fun thought response =>
              effected_entry rfl 1 thought tool hargs response action r')
        have hview : u'.view = u.view := congrArg LawfulGuardStore.view hstore
        rw [hu] at hstep
        have hwf : u.view.Wf := LawfulGuardStore.view_wf u.store
        have hrows := sameRow_iff hwf hsame (approvalId_none hstep) hdecision hne hrow
        rw [← hview] at hrows
        have hanswered := answered_indistinct hhandler hparams (congrArg Prod.fst hu)
        rw [hu] at hanswered
        rw [hagent]
        refine Iff.trans ?_ hanswered
        constructor
        · intro hagree
          cases hagree.row with
          | ok h => exact hrows.mp h
        · intro h
          exact ⟨⟨hview ▸ hpar.agree, haside _ hpar.env⟩, .ok (hrows.mpr h)⟩

omit [OrderedGuardStore S] in
/-- A refund whose payment the provider does not tell: the rule fails, the agent reports a run
without an action. -/
theorem paths_differ_unbuilt (hsep : Separate data p provider)
    (hcall : Corresponds case name tool raw) (hdecision : decision.action = some name)
    (hscript : (p.caseLoop case provider).CallsOnce (caseView case) tool raw w env')
    {exc : PyExc} (hbuilt : (ruleAction case provider name w.env).1 = .error exc) :
    ¬ PathsAgree data ((p.runRule case provider decision).run w)
      ((p.runAgent case provider).run w) := by
  obtain ⟨hfst, _⟩ := ruleAction_same hsep.steady case name (callsFirst_aside hsep hscript.first)
  have hbuilt' := hfst.symm.trans hbuilt
  cases hcall with
  | link => cases hbuilt
  | escalate => cases hbuilt
  | refund =>
    have hasked : paymentOf case provider w.env = .error exc := by
      have h := (buildRefundAction_fst case provider [] w.env).symm.trans hbuilt
      cases hpayment : paymentOf case provider w.env with
      | error exc' =>
        rw [hpayment] at h
        injection h with h
        rw [h]
      | ok payment =>
        rw [hpayment] at h
        cases h
    have hspec : (p.caseLoop case provider).registry.get? "refund_payment" =
        some (refundTool case provider) := (caseRegistry_get? case provider _).trans rfl
    have hargs : validateArgs (refundTool case provider) (.dict []) = .ok [] := rfl
    have hbody : (refundTool case provider).body = .effect (buildRefundAction case provider) := rfl
    obtain ⟨fields, v, thought, response, resolution, hagent, _, _, hrow⟩ :=
      runAgent_finishes hsep hscript
        (fun thought response => turn_unbuilt hspec hargs hbody hbuilt')
        (fun thought response => by
          refine ⟨_, rfl, .record ?_⟩
          simp only [List.forall_mem_cons, List.not_mem_nil, false_imp_iff, implies_true, and_true]
          exact ⟨.str _, .record (by simp), .record (by simp [PyVal.Encodable.str])⟩)
    intro hagree
    have hrows := hagree.row
    rw [hagent, p.runRule_refund_error case provider hdecision hasked] at hrows
    dsimp only at hrows
    split at hrows
    · cases hrows with
      | ok hsame =>
        have haction := hsame.action.trans hrow.action
        rw [show (ruleFields decision).action = _ from hdecision] at haction
        cases haction
    · cases hrows

/-- **When the paths agree.** Whatever the case, the provider, the settings, the guard store and
the action of the rule: an agent that calls the corresponding tool and then finishes leaves the
same guard store and providers and the same row as the rule, if and only if the provider tells
the payment that a refund asks for and the guard store does not tell the two apart. -/
theorem paths_agree_iff (hsep : Separate data p provider) (hcall : Corresponds case name tool raw)
    (hdecision : decision.action = some name)
    (hscript : (p.caseLoop case provider).CallsOnce (caseView case) tool raw w env') :
    PathsAgree data ((p.runRule case provider decision).run w) ((p.runAgent case provider).run w) ↔
      ∃ action, (ruleAction case provider name w.env).1 = .ok action ∧
        Indistinct (p.caseExecutor case provider) action w.store
          (p.now (ruleAction case provider name env').2.outer).1 := by
  cases hbuilt : (ruleAction case provider name w.env).1 with
  | ok action =>
    rw [paths_agree_presented hsep hcall hdecision hscript hbuilt]
    constructor
    · exact fun h => ⟨action, rfl, h⟩
    · rintro ⟨action', heq, h⟩
      injection heq with heq
      exact heq ▸ h
  | error exc =>
    refine ⟨fun h => absurd h (paths_differ_unbuilt hsep hcall hdecision hscript hbuilt), ?_⟩
    rintro ⟨action, heq, _⟩
    cases heq

end Agree

namespace Sample

/-- An LLM that finishes when its script is at an end. -/
def finishing : RecoveryPipeline Outside :=
  { pipeline with
    llm := fun _ o => match o.script with
      | [] => (.ok ⟨"", .ok finish, 1, 1, 0, false⟩, o)
      | answer :: rest => (.ok ⟨"", .ok answer, 1, 1, 0, false⟩, { o with script := rest }) }

/-- The LLM asks for a link over the amount of the payment. -/
def askLink : Json :=
  .obj [("action", .obj [("tool", .str "create_payment_link"),
    ("args", .obj [("amount_inr", .float 900)])])]

/-- A payment of 900 rupees. -/
def payment900 : RecoveryCase := ⟨"pay_1", 900, "unknown", none, none, none⟩

def linkRule : RoutingDecision :=
  { route := .deterministic, action := some "send_payment_link" }

/-- Nothing happened yet; the LLM will ask for a link. -/
def unsent : World SqlGuardStore (Env Outside) :=
  World.opened GuardStore.empty ⟨[askLink], false⟩ []

/-- The rule has sent the link, and the LLM will ask for another. -/
def sent : World SqlGuardStore (Env Outside) :=
  let w := ((finishing.runRule payment900 provider linkRule).run unsent).2
  { w with env := { w.env with outer := ⟨[askLink], false⟩ } }

/-- The environment after the LLM's first answer. -/
def answered (env : Env Outside) : Env Outside :=
  { env with outer := { env.outer with script := [] }, calls := env.calls ++ [.llm] }

/-- The provider sees of the outside only whether answers get lost. -/
theorem separate : Separate Outside.lossy finishing provider where
  steady := by
    refine ⟨fun id o o' h => ⟨rfl, h⟩, fun id o o' h => ⟨rfl, h⟩, fun id o o' h => ⟨rfl, h⟩,
      fun amount reference o o' h => ⟨?_, h⟩, fun id amount key o o' h => ⟨?_, h⟩⟩
    · show EffectReply.mk _ (if o.lossy then _ else _) = ⟨_, if o'.lossy then _ else _⟩
      rw [h]
    · show EffectReply.mk _ (if o.lossy then _ else _) = ⟨_, if o'.lossy then _ else _⟩
      rw [h]
  llm messages o := by
    show (match o.script with | [] => _ | _ :: _ => _ : _ × Outside).2.lossy = o.lossy
    split <;> rfl
  monotonic _ := rfl
  now _ := rfl
  isoNow _ := rfl

theorem corresponds : Corresponds payment900 "send_payment_link" "create_payment_link"
    [(.str "amount_inr", .float 900)] :=
  .link (.float 900) (.float 900) rfl

/-- What is left of the script after the turn that asks for the link. -/
def scriptAfter (w : World SqlGuardStore (Env Outside)) : List Json :=
  (((finishing.caseExecutor payment900 provider).execute (linkAction payment900 900)).run
    { w with env := answered w.env }).2.env.outer.script

theorem callsOnce {w : World SqlGuardStore (Env Outside)} (hscript : w.env.outer.script = [askLink])
    (hafter : scriptAfter w = []) :
    (finishing.caseLoop payment900 provider).CallsOnce (caseView payment900) "create_payment_link"
      [(.str "amount_inr", .float 900)] w (answered w.env) where
  first := by
    obtain ⟨messages, hmessages⟩ := messages_ok (finishing.caseLoop payment900 provider)
      (caseView_encodable payment900) (show ∀ entry ∈ [], PyVal.Encodable entry by simp)
    have hasked : (finishing.caseLoop payment900 provider).llm messages
        ((finishing.caseLoop payment900 provider).askedFrom w.env) =
          (.ok ⟨"", .ok askLink, 1, 1, 0, false⟩, answered w.env) := by
      show (w.env.ask .llm (finishing.llm messages)) = _
      unfold Env.ask answered
      rw [show finishing.llm messages w.env.outer = (.ok ⟨"", .ok askLink, 1, 1, 0, false⟩,
        { w.env.outer with script := [] }) by
          show (match w.env.outer.script with | [] => _ | _ :: _ => _ : _ × Outside) = _
          rw [hscript]]
    refine ⟨by decide, by show (0 : ℚ) - 0 ≤ 30; decide +kernel, messages,
      ⟨"", .ok askLink, 1, 1, 0, false⟩, "", hmessages, by rw [hasked], rfl, by rw [hasked]⟩
  last thought response := by
    have hbuilt : (ruleAction payment900 provider "send_payment_link" (answered w.env)).1 =
        .ok (linkAction payment900 900) := rfl
    obtain ⟨args, _, hturn⟩ := turn_presents (p := finishing) corresponds
      (w := { w with env := answered w.env }) hbuilt
    rw [hturn, run_map]
    refine ⟨by show (0 : ℚ) - 0 ≤ 30; decide +kernel, fun entry messages _ => ?_⟩
    refine ⟨⟨"", .ok finish, 1, 1, 0, false⟩, "", some "send_payment_link", ?_, rfl⟩
    show (match scriptAfter w with | [] => _ | _ :: _ => _ : _ × Outside).1 = _
    rw [hafter]

end Sample

open Sample

/-- Before anything was sent they agree. -/
theorem unsent_link_agrees : PathsAgree Outside.lossy
    ((finishing.runRule payment900 provider linkRule).run unsent)
    ((finishing.runAgent payment900 provider).run unsent) :=
  (paths_agree_iff separate corresponds rfl
    (callsOnce rfl (List.isEmpty_iff.mp (by decide +kernel)))).mpr
      ⟨_, rfl, .passed rfl fun h => absurd h (by decide +kernel)⟩

/-- Once the rule has sent a link, another one is a duplicate to the rule, and resolves the case
once more for the agent. -/
theorem resent_link_told_apart : ¬ ∀ (p : RecoveryPipeline Outside)
    (provider : PaymentProvider Outside) (case : RecoveryCase) (name tool : String)
    (raw : List (PyKey × PyVal)) (decision : RoutingDecision)
    (w : World SqlGuardStore (Env Outside)) (env' : Env Outside),
    Separate Outside.lossy p provider → Corresponds case name tool raw →
    decision.action = some name →
    (p.caseLoop case provider).CallsOnce (caseView case) tool raw w env' →
    PathsAgree Outside.lossy ((p.runRule case provider decision).run w)
      ((p.runAgent case provider).run w) := by
  intro hall
  have hagree := hall finishing provider payment900 _ _ _ linkRule sent (answered sent.env) separate
    corresponds rfl (callsOnce rfl (List.isEmpty_iff.mp (by decide +kernel)))
  have hrule : ((finishing.runRule payment900 provider linkRule).run sent).1.toOption.map
      (·.outcome) = some "duplicate" := by decide +kernel
  have hagent : ((finishing.runAgent payment900 provider).run sent).1.toOption.map
      (·.outcome) = some "resolved" := by decide +kernel
  have hsame : ∀ {g h : GuardState} {x y : Except PyExc LedgerFields}, Answers (SameRow g h) x y →
      x.toOption.map (·.outcome) = y.toOption.map (·.outcome) := by
    intro g h x y hxy
    cases hxy with
    | ok hrow => exact congrArg some hrow.outcome
    | error exc => rfl
  have hboth := hsame hagree.row
  rw [hrule, hagent] at hboth
  exact absurd hboth (by decide)

end PaymentRecovery.Recovery
