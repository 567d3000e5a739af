import PaymentRecovery.Agent.Values
import PaymentRecovery.Lib.Triple

/-!
# Trajectories are JSON

Everything the loop records is a JSON value with texts as keys: raw arguments come
out of a JSON document, validated ones are scalars under the names of the tool's
parameters, and an observation is either built by the loop or bounded by
`bound_observation`, whatever the tool answered. So the dict of a trajectory is read
back as it was written, and the trajectory with it.
-/

namespace PaymentRecovery.Agent

open PaymentRecovery.Python PaymentRecovery.Lib PaymentRecovery.Guardrails
open PaymentRecovery.Rules Program

variable {S σ : Type}

/-! ## Steps -/

/-- What the step holds of foreign values is JSON. -/
structure JsonStep (step : TrajectoryStep) : Prop where
  args : ∀ args, step.args = some args → IsJson args
  observation : IsJson step.observation

/-- Every step recorded so far. -/
def JsonSteps (progress : Progress) : Prop := ∀ step ∈ progress.steps, JsonStep step

theorem JsonSteps.record {progress : Progress} (h : JsonSteps progress) {index : Nat}
    {thought : String} {tool : Option String} {args : Option PyVal} {decision : String}
    {observation : PyVal} {response : LLMResponse} (hargs : ∀ v, args = some v → IsJson v)
    (hobservation : IsJson observation) :
    JsonSteps (progress.record index thought tool args decision observation response) := by
  intro step hstep
  rcases List.mem_append.mp hstep with hold | hnew
  · exact h step hold
  · rw [List.mem_singleton.mp hnew]
    exact ⟨hargs, hobservation⟩

/-- What a turn leaves recorded. -/
def JsonTurn : Turn → Prop
  | .stop _ progress => JsonSteps progress
  | .next progress => JsonSteps progress

section Loop

variable [GuardStore S] {loop : AgentLoop σ}

theorem refuse_json {progress : Progress} (h : JsonSteps progress) {index : Nat}
    {thought tool : String} {args observation : PyVal} {decision : String}
    {response : LLMResponse} (hargs : IsJson args) (hobservation : IsJson observation) :
    JsonTurn (AgentLoop.refuse progress index thought tool args decision observation response) :=
  h.record (fun _ hv => Option.some.inj hv ▸ hargs) hobservation

theorem effectTurn_json (build : Args → σ → Except PyExc Action × σ) {args : Args}
    (hargs : IsJson (.record args)) {progress : Progress} (h : JsonSteps progress) (index : Nat)
    (thought tool : String) (response : LLMResponse) :
    Yields (loop.effectTurn build args progress index thought tool response :
      Program (World S σ) PyExc Turn) JsonTurn := by
  refine .bind (R := fun _ => True) (.step fun _ => trivial) fun built _ => ?_
  cases built with
  | error exc =>
    exact .pure (refuse_json h hargs (isJson_record (by simp) (by simp [IsJson])))
  | ok action =>
    refine .bind (R := fun _ => True) (fun _ _ _ _ => trivial) fun result _ => .pure ?_
    have hstep : JsonSteps { progress with
        resolutionStatus := some result.status, resolutionAction := some action.name } := h
    exact hstep.record (fun _ hv => Option.some.inj hv ▸ hargs) (boundObservation_isJson _)

omit [GuardStore S] in
theorem readTurn_json (handler : Args → σ → Except PyExc PyVal × σ) {args : Args}
    (hargs : IsJson (.record args)) {progress : Progress} (h : JsonSteps progress) (index : Nat)
    (thought tool : String) (response : LLMResponse) :
    Yields (AgentLoop.readTurn handler args progress index thought tool response :
      Program (World S σ) PyExc Turn) JsonTurn :=
  .bind (R := fun _ => True) (.attempt fun _ _ _ => trivial) fun _ _ =>
    .pure (h.record (fun _ hv => Option.some.inj hv ▸ hargs) (boundObservation_isJson _))

/-- Every branch of the loop records JSON. -/
theorem turn_json {decision : Option Decision}
    (hdecision : ∀ thought tool args, decision = some (.call thought tool args) →
      IsJson (.dict args))
    {progress : Progress} (h : JsonSteps progress) (index : Nat) (response : LLMResponse) :
    Yields (loop.turn decision progress index response : Program (World S σ) PyExc Turn)
      JsonTurn := by
  unfold AgentLoop.turn
  -- malformed, final, or a call: of an unknown tool, with bad arguments, or let through
  split
  · exact .pure (h.record (fun v hv => by cases hv) (isJson_record (by simp) (by simp [IsJson])))
  · rename_i thought resolution
    refine .pure (h.record (fun v hv => by cases hv) (isJson_record (by simp) ?_))
    have hresolution : IsJson (.ofOption .str resolution) := isJson_ofOption fun s _ => by trivial
    simpa using hresolution
  · rename_i thought tool raw
    have hraw := hdecision thought tool raw rfl
    split
    · exact .pure (refuse_json h hraw (isJson_record (by simp) (by simp [IsJson])))
    · rename_i spec _
      split
      · exact .pure (refuse_json h hraw (isJson_record (by simp) (by simp [IsJson])))
      · rename_i args hvalid
        have hargs := validateArgs_isJson hvalid
        split
        · exact effectTurn_json _ hargs h index thought tool response
        · exact readTurn_json _ hargs h index thought tool response

/-- The iterations, by induction on how many are left. -/
theorem iterate_json (case : List (String × PyVal)) (start : ℚ) (remaining index : Nat)
    {progress : Progress} (h : JsonSteps progress) :
    Yields (loop.iterate case start remaining index progress :
      Program (World S σ) PyExc (AgentOutcome × Progress)) fun answer => JsonSteps answer.2 := by
  induction remaining generalizing index progress with
  | zero => exact .pure h
  | succ remaining ih =>
    refine .bind (R := fun _ => True) (.step fun _ => trivial) fun t _ => ?_
    split
    · exact .pure h
    · refine .bind (R := fun _ => True) (.orRaise fun _ _ => trivial) fun messages _ => ?_
      refine .bind (R := fun _ => True) (.attempt fun _ _ _ => trivial) fun response _ => ?_
      refine .bind (R := fun decision => parseDecision response = .ok decision)
        (.orRaise fun _ hparse => hparse) fun decision hparse => ?_
      refine .bind (turn_json (fun thought tool args heq => parseDecision_isJson (heq ▸ hparse)) h
        index response) fun turn hturn => ?_
      cases turn with
      | stop outcome progress => exact .pure hturn
      | next progress => exact ih (index + 1) hturn

variable (loop) in
/-- Every step of a trajectory the loop returns is JSON. -/
theorem run_json (subjectId : String) (case : List (String × PyVal)) :
    Yields (loop.run subjectId case : Program (World S σ) PyExc Trajectory)
      fun t => ∀ step ∈ t.steps, JsonStep step := by
  refine .bind (R := fun _ => True) (.step fun _ => trivial) fun startedAt _ => ?_
  refine .bind (R := fun _ => True) (.step fun _ => trivial) fun start _ => ?_
  refine .bind (iterate_json case start _ 1 (fun step hstep => by cases hstep)) fun answer hanswer => ?_
  exact .bind (R := fun _ => True) (.step fun _ => trivial) fun endedAt _ => .pure hanswer

end Loop

/-! ## Read back -/

/-- The step as a call with these very fields builds it. -/
def TrajectoryStep.loaded (step : TrajectoryStep) : LoadedStep where
  index := .int step.index
  thought := .str step.thought
  tool := .ofOption .str step.tool
  args := .ofOption id step.args
  decision := .str step.decision
  observation := step.observation
  promptTokens := .int step.promptTokens
  completionTokens := .int step.completionTokens
  latencyMs := .float step.latencyMs
  cached := .bool step.cached

/-- The trajectory as a call with these very fields builds it. -/
def Trajectory.loaded (t : Trajectory) : LoadedTrajectory where
  runId := .str t.runId
  subjectId := .str t.subjectId
  systemPromptId := .str t.systemPromptId
  startedAt := .str t.startedAt
  endedAt := .ofOption .str t.endedAt
  outcome := t.outcome
  resolutionAction := .ofOption .str t.resolutionAction
  steps := t.steps.map TrajectoryStep.loaded

theorem TrajectoryStep.isJson_toDict {step : TrajectoryStep} (h : JsonStep step) :
    IsJson step.toDict := by
  refine isJson_record (by simp) ?_
  simp only [List.forall_mem_cons, List.not_mem_nil, false_imp_iff, implies_true, and_true]
  exact ⟨trivial, trivial, isJson_ofOption fun _ _ => trivial, isJson_ofOption h.args, trivial,
    h.observation, trivial, trivial, trivial, trivial⟩

theorem TrajectoryStep.fromDict_toDict (step : TrajectoryStep) :
    TrajectoryStep.fromDict step.toDict = .ok step.loaded := rfl

theorem Trajectory.isJson_toDict {t : Trajectory} (h : ∀ step ∈ t.steps, JsonStep step) :
    IsJson t.toDict := by
  refine isJson_record (by simp) ?_
  simp only [List.forall_mem_cons, List.not_mem_nil, false_imp_iff, implies_true, and_true]
  refine ⟨trivial, trivial, trivial, trivial, isJson_ofOption fun _ _ => trivial, trivial,
    isJson_ofOption fun _ _ => trivial, trivial, trivial, trivial, trivial, trivial, ?_⟩
  refine isJsonAll_iff.mpr fun value hvalue => ?_
  obtain ⟨step, hstep, rfl⟩ := List.mem_map.mp hvalue
  exact TrajectoryStep.isJson_toDict (h step hstep)

theorem sumNumbers_int {α : Type} (f : α → Int) (items : List α) :
    LoadedTrajectory.sumNumbers (items.map fun item => .int (f item)) =
      some ((items.map f).sum : ℚ) := by
  induction items with
  | nil => rfl
  | cons item rest ih =>
    rw [List.map_cons, LoadedTrajectory.sumNumbers, ih, List.map_cons, List.sum_cons, Int.cast_add]
    rfl

theorem sumNumbers_float {α : Type} (f : α → ℚ) (items : List α) :
    LoadedTrajectory.sumNumbers (items.map fun item => .float (f item)) =
      some (items.map f).sum := by
  induction items with
  | nil => rfl
  | cons item rest ih =>
    rw [List.map_cons, LoadedTrajectory.sumNumbers, ih, List.map_cons, List.sum_cons]
    rfl

/-- The trajectory that was read back is the one that was written. -/
structure SameTrajectory (t : Trajectory) (loaded : LoadedTrajectory) : Prop where
  equal : loaded = t.loaded
  outcome : loaded.outcome = t.outcome
  resolutionAction : loaded.resolutionAction = .ofOption .str t.resolutionAction
  steps : List.Forall₂ (fun step loadedStep => loadedStep = step.loaded) t.steps loaded.steps
  iterations : loaded.iterations = t.iterations
  promptTokens : loaded.totalPromptTokens = some (t.totalPromptTokens : ℚ)
  completionTokens : loaded.totalCompletionTokens = some (t.totalCompletionTokens : ℚ)
  tokens : loaded.totalTokens = some (t.totalTokens : ℚ)
  latencyMs : loaded.totalLatencyMs = some t.totalLatencyMs

theorem Trajectory.same_loaded (t : Trajectory) : SameTrajectory t t.loaded := by
  have hprompt : t.loaded.totalPromptTokens = some (t.totalPromptTokens : ℚ) := by
    have hsum := sumNumbers_int (·.promptTokens) t.steps
    unfold LoadedTrajectory.totalPromptTokens Trajectory.loaded
    rw [List.map_map]
    exact hsum
  have hcompletion : t.loaded.totalCompletionTokens = some (t.totalCompletionTokens : ℚ) := by
    have hsum := sumNumbers_int (·.completionTokens) t.steps
    unfold LoadedTrajectory.totalCompletionTokens Trajectory.loaded
    rw [List.map_map]
    exact hsum
  refine ⟨rfl, rfl, rfl, ?_, List.length_map _, hprompt, hcompletion, ?_, ?_⟩
  · exact List.forall₂_map_right_iff.mpr (List.forall₂_same.mpr fun _ _ => rfl)
  · unfold LoadedTrajectory.totalTokens Trajectory.totalTokens
    rw [hprompt, hcompletion, Int.cast_add]
    rfl
  · have hsum := sumNumbers_float (·.latencyMs) t.steps
    unfold LoadedTrajectory.totalLatencyMs Trajectory.loaded
    rw [List.map_map]
    exact hsum

/-- `from_dict` undoes `to_dict`. -/
theorem Trajectory.fromDict_toDict (t : Trajectory) :
    Trajectory.fromDict t.toDict = .ok t.loaded := by
  have hsteps : ∀ steps : List TrajectoryStep,
      (steps.map TrajectoryStep.toDict).mapM TrajectoryStep.fromDict =
        .ok (steps.map TrajectoryStep.loaded) := by
    intro steps
    induction steps with
    | nil => rfl
    | cons step rest ih =>
      rw [List.map_cons, List.mapM_cons, TrajectoryStep.fromDict_toDict, ih]
      rfl
  -- every key is found, and the totals are not looked at
  have hread : Trajectory.fromDict t.toDict = (do
      let outcome ← AgentOutcome.ofValue (.str t.outcome.value)
      let steps ← (t.steps.map TrajectoryStep.toDict).mapM TrajectoryStep.fromDict
      return { t.loaded with outcome := outcome, steps := steps }) := rfl
  rw [hread, AgentOutcome.ofValue_value, hsteps]
  rfl

end PaymentRecovery.Agent
