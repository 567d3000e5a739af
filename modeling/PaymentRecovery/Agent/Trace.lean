import PaymentRecovery.Agent.Values
import PaymentRecovery.Guardrails.Sequence
import PaymentRecovery.Lib.Triple

/-!
# What a run of the agent loop tells

Whatever the LLM and the tools do, the loop touches the guard store only by
presenting actions its registry built, one after another, and the trajectory
it returns tells their answers: one `effect_` step for each, and the last of
them as its resolution. Every trajectory can be saved.
-/

namespace PaymentRecovery.Agent

open PaymentRecovery.Python PaymentRecovery.Lib PaymentRecovery.Guardrails Program

variable {S σ : Type}

/-- A tool of the registry builds this action. -/
def AgentLoop.Builds (loop : AgentLoop σ) (action : Action) : Prop :=
  ∃ name spec build args env, loop.registry.get? name = some spec ∧ spec.body = .effect build ∧
    (build args env).1 = .ok action

/-- The executor status an `effect_` step tells. -/
def TrajectoryStep.effect (step : TrajectoryStep) : Option String :=
  afterPrefix "effect_" step.decision

/-- The status and action of the last answer, or of what came before all of them. -/
def lastAnswer (done : List (Action × ExecutionResult))
    (before : Option ExecutionStatus × Option String) : Option ExecutionStatus × Option String :=
  done.foldl (fun _ call => (some call.2.status, some call.1.name)) before

/-- The part of a run from one progress to a later one, with the answers got on the way. -/
structure Reports (before : Progress) (done : List (Action × ExecutionResult))
    (after : Progress) : Prop where
  resolution : (after.resolutionStatus, after.resolutionAction) =
    lastAnswer done (before.resolutionStatus, before.resolutionAction)
  steps : ∃ new : List TrajectoryStep, after.steps = before.steps ++ new ∧
    new.filterMap TrajectoryStep.effect = done.map (fun call => call.2.status.value) ∧
    ∀ step ∈ new, step.toDict.Encodable

namespace Reports

variable {a b c : Progress} {done done' : List (Action × ExecutionResult)}

theorem trans (h : Reports a done b) (h' : Reports b done' c) : Reports a (done ++ done') c := by
  obtain ⟨new, hnew, heffects, hsaves⟩ := h.steps
  obtain ⟨new', hnew', heffects', hsaves'⟩ := h'.steps
  refine ⟨?_, new ++ new', ?_, ?_, ?_⟩
  · rw [h'.resolution, h.resolution]
    exact (List.foldl_append ..).symm
  · rw [hnew', hnew, List.append_assoc]
  · rw [List.filterMap_append, heffects, heffects', List.map_append]
  · intro step hstep
    rcases List.mem_append.mp hstep with hmem | hmem
    · exact hsaves step hmem
    · exact hsaves' step hmem

theorem refl (a : Progress) : Reports a [] a :=
  ⟨rfl, [], (List.append_nil _).symm, rfl, by simp⟩

/-- One recorded step that presented nothing. -/
theorem recorded (progress : Progress) {index : Nat} {thought : String} {tool : Option String}
    {args : Option PyVal} {decision : String} {observation : PyVal} {response : LLMResponse}
    (hnone : afterPrefix "effect_" decision = none)
    (hargs : ∀ value, args = some value → value.Encodable) (hobs : observation.Encodable) :
    Reports progress []
      (progress.record index thought tool args decision observation response) := by
  refine ⟨rfl, _, rfl, ?_, ?_⟩
  · simp [TrajectoryStep.effect, hnone]
  · intro step hstep
    rw [List.mem_singleton.mp hstep]
    refine .record ?_
    simp only [List.forall_mem_cons, List.not_mem_nil, false_imp_iff, implies_true, and_true]
    refine ⟨.int _, .str _, .ofOption .str _, ?_, .str _, hobs, .int _, .int _, .float _, .bool _⟩
    cases args with
    | none => exact .none
    | some value => exact hargs value rfl

/-- The step of one answer of the executor. -/
theorem answered (progress : Progress) {action : Action} {result : ExecutionResult} {index : Nat}
    {thought : String} {tool : Option String} {args observation : PyVal} {response : LLMResponse}
    (hargs : args.Encodable) (hobs : observation.Encodable) :
    Reports progress [(action, result)]
      ({ progress with resolutionStatus := some result.status,
                       resolutionAction := some action.name }.record index thought tool
        (some args) ("effect_" ++ result.status.value) observation response) := by
  refine ⟨rfl, _, rfl, ?_, ?_⟩
  · simp [TrajectoryStep.effect, afterPrefix_append]
  · intro step hstep
    rw [List.mem_singleton.mp hstep]
    refine .record ?_
    simp only [List.forall_mem_cons, List.not_mem_nil, false_imp_iff, implies_true, and_true]
    exact ⟨.int _, .str _, .ofOption .str _, hargs, .str _, hobs, .int _, .int _, .float _,
      .bool _⟩

/-- Remembering touches the history alone. -/
theorem remember (h : Reports a done b) (tool : String) (args observation : PyVal) :
    Reports a done (b.remember tool args observation) :=
  ⟨h.resolution, h.steps⟩

end Reports

/-- How the loop can end, given the progress it ends with. -/
inductive Ends (progress : Progress) : AgentOutcome → Prop
  | maxIterations : Ends progress .maxIterations
  | failedTimeout : Ends progress .failedTimeout
  | failedMalformed : Ends progress .failedMalformed
  | final (resolution : Option String) :
    Ends progress (AgentLoop.finalOutcome resolution progress)

/-- A finished run is resolved or escalated if and only if its last answer was `executed` or
`duplicate`, or there was none. -/
theorem AgentLoop.finalOutcome_settled {resolution : Option String} {progress : Progress} :
    (AgentLoop.finalOutcome resolution progress = .resolved ∨
      AgentLoop.finalOutcome resolution progress = .escalated) ↔
    progress.resolutionStatus = none ∨ progress.resolutionStatus = some .executed ∨
      progress.resolutionStatus = some .duplicate := by
  unfold AgentLoop.finalOutcome
  cases progress.resolutionStatus with
  | none => exact ⟨fun _ => .inl rfl, fun _ => (ite_eq_or_eq _ _ _).symm⟩
  | some status =>
    cases status with
    | executed => exact ⟨fun _ => .inr (.inl rfl), fun _ => (ite_eq_or_eq _ _ _).symm⟩
    | duplicate => exact ⟨fun _ => .inr (.inr rfl), fun _ => (ite_eq_or_eq _ _ _).symm⟩
    | _ => simp

/-- It is held if and only if its last answer was `pending_approval`. -/
theorem AgentLoop.finalOutcome_pending {resolution : Option String} {progress : Progress} :
    AgentLoop.finalOutcome resolution progress = .pendingApproval ↔
      progress.resolutionStatus = some .pendingApproval := by
  have hsettled := @AgentLoop.finalOutcome_settled resolution progress
  constructor
  · intro hpending
    rw [hpending] at hsettled
    unfold AgentLoop.finalOutcome at hpending
    cases hstatus : progress.resolutionStatus with
    | none => simp [hstatus] at hsettled
    | some status =>
      rw [hstatus] at hpending hsettled
      cases status with
      | pendingApproval => rfl
      | executed => simp at hsettled
      | duplicate => simp at hsettled
      | _ => cases hpending
  · intro hstatus
    unfold AgentLoop.finalOutcome
    rw [hstatus]

/-! ## The loop -/

section Loop

variable [GuardStore S] [LawfulGuardStore S] {α : Type} {ok : Action → Prop}
  {ex : GuardedExecutor σ}

theorem traces_onEnv (f : σ → α × σ) {R : List (Action × ExecutionResult) → α → Prop}
    (hR : ∀ env, R [] (f env).1) :
    Traces ex ok (onEnv f : Program (World S σ) PyExc α) R :=
  .quiet (fun _ => rfl) fun w a ha => by
    injection ha with ha
    exact ha ▸ hR w.env

theorem traces_attemptEnv (f : σ → Except PyExc α × σ)
    {R : List (Action × ExecutionResult) → α → Prop} (hR : ∀ env a, (f env).1 = .ok a → R [] a) :
    Traces ex ok (attemptEnv f : Program (World S σ) PyExc α) R := by
  refine .quiet (fun w => ?_) fun w a ha => ?_
  · rw [attemptEnv, run_attempt]
    rfl
  · rw [attemptEnv, run_attempt] at ha
    exact hR w.env a ha

variable (loop : AgentLoop σ)

/-- What one turn reports. -/
def TurnReports (progress : Progress) (done : List (Action × ExecutionResult)) : Turn → Prop
  | .stop outcome progress' => Reports progress done progress' ∧ Ends progress' outcome
  | .next progress' => Reports progress done progress'

theorem refuse_reports (progress : Progress) {index : Nat} {thought tool : String}
    {args observation : PyVal} {decision : String} {response : LLMResponse}
    (hnone : afterPrefix "effect_" decision = none) (hargs : args.Encodable)
    (hobs : observation.Encodable) :
    TurnReports progress []
      (AgentLoop.refuse progress index thought tool args decision observation response) :=
  (Reports.recorded progress hnone (fun _ h => Option.some.inj h ▸ hargs) hobs).remember
    tool args observation

/-- An effect tool presents the action it built, and its step tells the answer. -/
theorem effectTurn_traces {name : String} {spec : ToolSpec σ}
    {build : Args → σ → Except PyExc Action × σ} (hspec : loop.registry.get? name = some spec)
    (hbody : spec.body = .effect build) {args : Args} (hargs : (PyVal.record args).Encodable)
    (progress : Progress) (index : Nat) (thought tool : String) (response : LLMResponse) :
    Traces loop.executor loop.Builds
      (loop.effectTurn build args progress index thought tool response :
        Program (World S σ) PyExc Turn) (TurnReports progress) := by
  refine Traces.bind_quiet (A := fun built => ∃ env, (build args env).1 = built)
    (traces_onEnv _ fun env => ⟨rfl, env, rfl⟩) ?_
  rintro built ⟨env, henv⟩
  cases built with
  | error exc =>
    exact .pure (refuse_reports progress rfl hargs (.record (by simp [PyVal.Encodable.str])))
  | ok action =>
    have hbuilds : loop.Builds action := ⟨name, spec, build, args, env, hspec, hbody, henv⟩
    refine (Traces.execute hbuilds).bind fun done result hdone => .pure ?_
    rw [hdone]
    exact (Reports.answered progress hargs
      (encodable_of_isJson (boundObservation_isJson _))).remember _ _ _

/-- A read tool presents nothing. -/
theorem readTurn_traces (handler : Args → σ → Except PyExc PyVal × σ) {args : Args}
    (hargs : (PyVal.record args).Encodable) (progress : Progress) (index : Nat)
    (thought tool : String) (response : LLMResponse) :
    Traces loop.executor loop.Builds
      (AgentLoop.readTurn handler args progress index thought tool response :
        Program (World S σ) PyExc Turn) (TurnReports progress) := by
  refine Traces.bind_quiet (A := fun _ => True)
    (traces_attemptEnv _ fun env a _ => ⟨rfl, trivial⟩) fun _ _ => .pure ?_
  exact (Reports.recorded progress rfl (fun _ h => Option.some.inj h ▸ hargs)
    (encodable_of_isJson (boundObservation_isJson _))).remember _ _ _

/-- Every decision of the LLM, well formed or not. -/
theorem turn_traces {decision : Option Decision}
    (hdecision : ∀ thought tool args, decision = some (.call thought tool args) →
      (PyVal.dict args).Encodable)
    (progress : Progress) (index : Nat) (response : LLMResponse) :
    Traces loop.executor loop.Builds
      (loop.turn decision progress index response : Program (World S σ) PyExc Turn)
      (TurnReports progress) := by
  unfold AgentLoop.turn
  -- malformed, final, or a call: of an unknown tool, with bad arguments, or let through
  split
  · exact .pure ⟨.recorded progress rfl (fun v h => by cases h)
      (.record (by simp [PyVal.Encodable.str])), .failedMalformed⟩
  · rename_i thought resolution
    refine .pure ⟨.recorded progress rfl (fun v h => by cases h) (.record ?_), .final resolution⟩
    simpa using PyVal.Encodable.ofOption .str resolution
  · rename_i thought tool raw
    have hraw := hdecision thought tool raw rfl
    split
    · exact .pure (refuse_reports progress rfl hraw (.record (by simp [PyVal.Encodable.str])))
    · rename_i spec hspec
      split
      · exact .pure (refuse_reports progress rfl hraw (.record (by simp [PyVal.Encodable.str])))
      · rename_i args hargs
        have hsaves := encodable_of_isJson (validateArgs_isJson hargs)
        split
        · rename_i build hbody
          exact effectTurn_traces loop hspec hbody hsaves progress index thought tool response
        · exact readTurn_traces loop _ hsaves progress index thought tool response

/-- The iterations, by induction on how many are left. -/
theorem iterate_traces (case : List (String × PyVal)) (start : ℚ) (remaining index : Nat)
    (progress : Progress) :
    Traces loop.executor loop.Builds
      (loop.iterate case start remaining index progress :
        Program (World S σ) PyExc (AgentOutcome × Progress))
      fun done answer => Reports progress done answer.2 ∧ Ends answer.2 answer.1 := by
  induction remaining generalizing index progress with
  | zero => exact .pure ⟨.refl progress, .maxIterations⟩
  | succ remaining ih =>
    refine Traces.bind_quiet (A := fun _ => True) (traces_onEnv _ fun _ => ⟨rfl, trivial⟩)
      fun t _ => ?_
    split
    · exact .pure ⟨.refl progress, .failedTimeout⟩
    · -- the messages, the answer and its parsing present nothing; the turn may
      refine Traces.bind_quiet (A := fun _ => True) (.orRaise fun _ _ => ⟨rfl, trivial⟩)
        fun messages _ => ?_
      refine Traces.bind_quiet (A := fun _ => True)
        (traces_attemptEnv _ fun _ _ _ => ⟨rfl, trivial⟩) fun response _ => ?_
      refine Traces.bind_quiet (A := fun decision => parseDecision response = .ok decision)
        (.orRaise fun decision h => ⟨rfl, h⟩) fun decision hparse => ?_
      refine (turn_traces loop (fun thought tool args h =>
          encodable_of_isJson (parseDecision_isJson (h ▸ hparse)))
        progress index response).bind fun done turn hturn => ?_
      cases turn with
      | stop outcome progress' =>
        refine .pure ?_
        rw [List.append_nil]
        exact hturn
      | next progress' =>
        exact (ih (index + 1) progress').weaken fun done' answer h => ⟨hturn.trans h.1, h.2⟩

/-- What a returned trajectory tells about the calls made for it. -/
structure Tells (done : List (Action × ExecutionResult)) (trajectory : Trajectory) : Prop where
  effects : trajectory.steps.filterMap TrajectoryStep.effect =
    done.map fun call => call.2.status.value
  action : trajectory.resolutionAction = (lastAnswer done (none, none)).2
  outcome : trajectory.outcome = .maxIterations ∨ trajectory.outcome = .failedTimeout ∨
    trajectory.outcome = .failedMalformed ∨
    ∃ resolution progress, trajectory.outcome = AgentLoop.finalOutcome resolution progress ∧
      (progress.resolutionStatus, progress.resolutionAction) = lastAnswer done (none, none)
  saves : trajectory.toDict.Encodable

/-- **The loop and its trajectory.** Whatever the LLM, the tools and the clocks do, a run
only presents actions of its registry, and the trajectory it returns tells every answer. -/
theorem run_traces (subjectId : String) (case : List (String × PyVal)) :
    Traces loop.executor loop.Builds
      (loop.run subjectId case : Program (World S σ) PyExc Trajectory) Tells := by
  refine Traces.bind_quiet (A := fun _ => True) (traces_onEnv _ fun _ => ⟨rfl, trivial⟩)
    fun startedAt _ => ?_
  refine Traces.bind_quiet (A := fun _ => True) (traces_onEnv _ fun _ => ⟨rfl, trivial⟩)
    fun start _ => ?_
  refine (iterate_traces loop case start _ 1 .init).bind fun done answer hanswer => ?_
  obtain ⟨outcome, progress⟩ := answer
  obtain ⟨hreports, hends⟩ := hanswer
  obtain ⟨new, hnew, heffects, hsaves⟩ := hreports.steps
  dsimp only at hnew hends hreports
  rw [Progress.init, List.nil_append] at hnew
  have htells : ∀ endedAt, Tells done ⟨loop.executor.runId, subjectId, loop.systemPromptId,
      startedAt, some endedAt, outcome, progress.resolutionAction, progress.steps⟩ := by
    intro endedAt
    refine ⟨by rw [hnew]; exact heffects, congrArg Prod.snd hreports.resolution, ?_, ?_⟩
    · cases hends with
      | maxIterations => exact .inl rfl
      | failedTimeout => exact .inr (.inl rfl)
      | failedMalformed => exact .inr (.inr (.inl rfl))
      | final resolution =>
        exact .inr (.inr (.inr ⟨resolution, progress, rfl, hreports.resolution⟩))
    · -- every field has a text, and every recorded step
      refine .record ?_
      simp only [List.forall_mem_cons, List.not_mem_nil, false_imp_iff, implies_true, and_true]
      refine ⟨.str _, .str _, .str _, .str _, .str _, .str _, .ofOption .str _, .int _, .int _,
        .int _, .int _, .float _, .list fun value hvalue => ?_⟩
      obtain ⟨step, hstep, rfl⟩ := List.mem_map.mp hvalue
      exact hsaves step (hnew ▸ hstep)
  refine Traces.bind (R := fun done' _ => done' = []) (traces_onEnv _ fun _ => rfl)
    fun done' endedAt hdone' => .pure ?_
  rw [hdone', List.append_nil, List.append_nil]
  exact htells endedAt

end Loop

/-! ## What the loop keeps -/

section Keeps

variable [GuardStore S] {C I : World S σ → Prop} {loop : AgentLoop σ}

/-- Every part of the loop keeps `I`, passing only through `C`. -/
structure AgentLoop.Keeps (C I : World S σ → Prop) (loop : AgentLoop σ) : Prop where
  clock : Carries C I (onEnv loop.clock)
  now : Carries C I (onEnv loop.now)
  llm : ∀ messages, Carries C I (attemptEnv (loop.llm messages))
  build : ∀ {name spec build}, loop.registry.get? name = some spec → spec.body = .effect build →
    ∀ args, Carries C I (onEnv (build args))
  handler : ∀ {name spec handler}, loop.registry.get? name = some spec →
    spec.body = .read handler → ∀ args, Carries C I (attemptEnv (handler args))
  execute : ∀ {action}, loop.Builds action → Carries C I (loop.executor.execute action)

theorem effectTurn_carries (h : loop.Keeps C I) {name : String} {spec : ToolSpec σ}
    {build : Args → σ → Except PyExc Action × σ} (hspec : loop.registry.get? name = some spec)
    (hbody : spec.body = .effect build) (args : Args) (progress : Progress) (index : Nat)
    (thought tool : String) (response : LLMResponse) :
    Carries C I (loop.effectTurn build args progress index thought tool response) := by
  -- what was built is what the tool of the registry builds
  have hbuilt : Triple C I (onEnv (build args)) fun answer w =>
      I w ∧ ∃ env, answer = .ok (build args env).1 :=
    fun w hw => ⟨(h.build hspec hbody args w hw).1, (h.build hspec hbody args w hw).2, w.env, rfl⟩
  refine Triple.bind hbuilt (fun built => ?_) fun e w hw => hw.1
  cases built with
  | error exc => exact Triple.pure fun w hw => hw.1
  | ok action =>
    intro w hw
    obtain ⟨hI, env, henv⟩ := hw
    injection henv with henv
    have hexec := h.execute ⟨name, spec, build, args, env, hspec, hbody, henv.symm⟩
    exact Carries.bind hexec (fun result => .pure _) w hI

theorem turn_carries (h : loop.Keeps C I) (decision : Option Decision) (progress : Progress)
    (index : Nat) (response : LLMResponse) :
    Carries C I (loop.turn decision progress index response) := by
  unfold AgentLoop.turn
  split
  · exact .pure _
  · exact .pure _
  · split
    · exact .pure _
    · rename_i spec hspec
      split
      · exact .pure _
      · split
        · rename_i build hbody
          exact effectTurn_carries h hspec hbody _ _ _ _ _ _
        · rename_i handler hbody
          exact Carries.bind (h.handler hspec hbody _) fun _ => .pure _

theorem iterate_carries (h : loop.Keeps C I) (case : List (String × PyVal)) (start : ℚ)
    (remaining index : Nat) (progress : Progress) :
    Carries C I (loop.iterate case start remaining index progress) := by
  induction remaining generalizing index progress with
  | zero => exact .pure _
  | succ remaining ih =>
    refine Carries.bind h.clock fun t => ?_
    split
    · exact .pure _
    · refine Carries.bind (.orRaise _) fun messages => Carries.bind (h.llm messages) fun _ => ?_
      refine Carries.bind (.orRaise _) fun _ => Carries.bind (turn_carries h _ _ _ _) fun turn => ?_
      cases turn with
      | stop outcome progress => exact .pure _
      | next progress => exact ih (index + 1) progress

/-- What every part of the loop keeps, the loop keeps. -/
theorem run_carries (h : loop.Keeps C I) (subjectId : String) (case : List (String × PyVal)) :
    Carries C I (loop.run subjectId case) := by
  refine Carries.bind h.now fun _ => Carries.bind h.clock fun _ => ?_
  refine Carries.bind (iterate_carries h _ _ _ _ _) fun _ => ?_
  exact Carries.bind h.now fun _ => .pure _

end Keeps

end PaymentRecovery.Agent
