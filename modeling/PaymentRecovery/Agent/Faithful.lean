import PaymentRecovery.Agent.Presented
import PaymentRecovery.Agent.Trace

/-!
# Trajectories are faithful

Two logs are kept of a run: its trajectory, and the audit entries of the executor. `calls`
is what really happened. The trajectory has one step for each completion, numbered in
order; its last step and its length decide how the run ended; and its `effect_` steps,
the executions among the calls and the new audit entries are three lists that go
together entry by entry.
-/

namespace PaymentRecovery.Agent

open PaymentRecovery.Python PaymentRecovery.Lib PaymentRecovery.Guardrails Program

variable {S σ : Type}

/-! ## Executions, steps and entries -/

/-- An execution that returned: the environment its action was built in, the action, and the
answer of the executor. -/
structure Execution (σ : Type) where
  builtIn : σ
  action : Action
  result : ExecutionResult

/-- The execution, if the call is one that returned. -/
def LoopCall.execution? : LoopCall σ → Option (Execution σ)
  | .execute builtIn action (.ok result) => some ⟨builtIn, action, result⟩
  | _ => none

/-- The call asks the LLM. -/
def LoopCall.isCompletion : LoopCall σ → Bool
  | .complete _ => true
  | _ => false

/-- The executions among the calls. -/
def executions (calls : List (LoopCall σ)) : List (Execution σ) :=
  calls.filterMap LoopCall.execution?

/-- How often the LLM was asked. -/
def completions (calls : List (LoopCall σ)) : Nat := calls.countP LoopCall.isCompletion

/-- The step tells of this execution: its tool built the action from its arguments, and its
decision spells the status. -/
structure StepTells (loop : AgentLoop σ) (step : TrajectoryStep) (execution : Execution σ) :
    Prop where
  built : ∃ name spec build args, step.tool = some name ∧ loop.registry.get? name = some spec ∧
    spec.body = .effect build ∧ step.args = some (.record args) ∧
    (build args execution.builtIn).1 = .ok execution.action
  decision : step.decision = "effect_" ++ execution.result.status.value

/-- The audit entry tells of this execution. -/
structure EntryTells (execution : Execution σ) (entry : AuditEntry) : Prop where
  about : entry.about = execution.action.about
  decision : entry.decision = execution.result.status.value

/-- Steps whose decision is `effect_<s>`. -/
def effectSteps (steps : List TrajectoryStep) : List TrajectoryStep :=
  steps.filter fun step => step.effect.isSome

/-- Neither a final step nor a malformed one: the loop goes on after it. -/
def Ongoing (step : TrajectoryStep) : Prop :=
  step.decision ≠ "final" ∧ step.decision ≠ "malformed_output"

/-- Every execution has its step and its audit entry, in this order and no other. -/
structure Aligned [GuardStore S] (loop : AgentLoop σ) (steps : List TrajectoryStep)
    (calls : List (LoopCall σ)) (w w' : World S σ) : Prop where
  steps : List.Forall₂ (StepTells loop) (effectSteps steps) (executions calls)
  entries : ∃ entries, List.Forall₂ EntryTells (executions calls) entries ∧
    ∀ r, GuardStore.readAudit w'.store r = if r = loop.executor.runId
      then GuardStore.readAudit w.store r ++ entries else GuardStore.readAudit w.store r

/-- What a trajectory says is what happened, in a run of at most `bound` iterations. -/
structure Faithful [GuardStore S] (loop : AgentLoop σ) (bound : Int) (calls : List (LoopCall σ))
    (w w' : World S σ) (t : Trajectory) : Prop where
  completions : completions calls = t.steps.length
  bounded : (t.steps.length : Int) ≤ bound
  indices : t.steps.map (fun step => step.index) = List.range' 1 t.steps.length
  responses : List.Forall₂ StepOf (responses calls) t.steps
  onlyLast : ∀ step ∈ t.steps.dropLast, Ongoing step
  failedMalformed : t.outcome = .failedMalformed ↔
    ∃ step, t.steps.getLast? = some step ∧ step.decision = "malformed_output"
  maxIterations : t.outcome = .maxIterations ↔
    t.steps.length = bound ∧ ∀ step, t.steps.getLast? = some step → Ongoing step
  failedTimeout : t.outcome = .failedTimeout ↔
    t.steps.length < bound ∧ ∀ step, t.steps.getLast? = some step → Ongoing step
  effects : Aligned loop t.steps calls w w'

/-! ## How the steps end -/

/-- The steps of at most `bound` iterations, and the outcome they end in. -/
inductive Closes : Nat → List TrajectoryStep → AgentOutcome → Prop
  | exhausted : Closes 0 [] .maxIterations
  | timeout (bound : Nat) : Closes (bound + 1) [] .failedTimeout
  | malformed (bound : Nat) {step : TrajectoryStep} (h : step.decision = "malformed_output") :
    Closes (bound + 1) [step] .failedMalformed
  | final (bound : Nat) {step : TrajectoryStep} (h : step.decision = "final")
    (resolution : Option String) (progress : Progress) :
    Closes (bound + 1) [step] (AgentLoop.finalOutcome resolution progress)
  | next {bound : Nat} {step : TrajectoryStep} {rest : List TrajectoryStep}
    {outcome : AgentOutcome} (h : Ongoing step) (hrest : Closes bound rest outcome) :
    Closes (bound + 1) (step :: rest) outcome

/-- A finished run is one of these four. -/
theorem finalOutcome_cases (resolution : Option String) (progress : Progress) :
    AgentLoop.finalOutcome resolution progress ∈
      [AgentOutcome.resolved, .escalated, .pendingApproval, .rejected] := by
  unfold AgentLoop.finalOutcome
  split
  · decide
  · decide
  · decide
  · decide
  · dsimp only
    split_ifs <;> decide

namespace Closes

variable {bound : Nat} {steps : List TrajectoryStep} {outcome : AgentOutcome}

theorem length_le (h : Closes bound steps outcome) : steps.length ≤ bound := by
  induction h with
  | exhausted => exact Nat.le_refl 0
  | timeout bound => exact Nat.zero_le _
  | malformed bound => exact Nat.succ_le_succ (Nat.zero_le bound)
  | final bound => exact Nat.succ_le_succ (Nat.zero_le bound)
  | next _ _ ih => exact Nat.succ_le_succ ih

theorem dropLast_ongoing (h : Closes bound steps outcome) : ∀ step ∈ steps.dropLast, Ongoing step := by
  induction h with
  | exhausted | timeout | malformed | final => simp
  | @next bound first rest outcome hfirst _ ih =>
    intro step hstep
    cases rest with
    | nil => simp at hstep
    | cons second rest =>
      rw [List.dropLast_cons_cons] at hstep
      rcases List.mem_cons.mp hstep with rfl | hmem
      · exact hfirst
      · exact ih step hmem

/-- The last step and the length decide the outcome: four ways to end, one for each. -/
theorem cases_outcome (h : Closes bound steps outcome) :
    (outcome = .maxIterations ∧ steps.length = bound ∧
      ∀ step, steps.getLast? = some step → Ongoing step) ∨
    (outcome = .failedTimeout ∧ steps.length < bound ∧
      ∀ step, steps.getLast? = some step → Ongoing step) ∨
    (outcome = .failedMalformed ∧
      ∃ step, steps.getLast? = some step ∧ step.decision = "malformed_output") ∨
    (outcome ∈ [AgentOutcome.resolved, .escalated, .pendingApproval, .rejected] ∧
      ∃ step, steps.getLast? = some step ∧ step.decision = "final") := by
  induction h with
  | exhausted => exact .inl ⟨rfl, rfl, by simp⟩
  | timeout bound => exact .inr (.inl ⟨rfl, Nat.succ_pos bound, by simp⟩)
  | malformed bound h => exact .inr (.inr (.inl ⟨rfl, _, rfl, h⟩))
  | final bound h resolution progress =>
    exact .inr (.inr (.inr ⟨finalOutcome_cases resolution progress, _, rfl, h⟩))
  | @next bound first rest outcome hfirst _ ih =>
    -- the last step of the rest is the last step, unless the rest is empty
    have hlast : (first :: rest).getLast? = some (rest.getLast?.getD first) := by
      rw [List.getLast?_cons]
    have hongoing : (∀ step, rest.getLast? = some step → Ongoing step) →
        ∀ step, (first :: rest).getLast? = some step → Ongoing step := by
      intro hrest step hstep
      rw [hlast] at hstep
      injection hstep with hstep
      cases hempty : rest.getLast? with
      | none =>
        rw [hempty] at hstep
        exact hstep ▸ hfirst
      | some last =>
        rw [hempty] at hstep
        exact hstep ▸ hrest last hempty
    have hsome : ∀ {decision : String}, (∃ step, rest.getLast? = some step ∧
        step.decision = decision) → ∃ step, (first :: rest).getLast? = some step ∧
          step.decision = decision := by
      rintro decision ⟨step, hstep, hdecision⟩
      exact ⟨step, by rw [hlast, hstep]; rfl, hdecision⟩
    rcases ih with ⟨hout, hlength, hrest⟩ | ⟨hout, hlength, hrest⟩ | ⟨hout, hrest⟩ | ⟨hout, hrest⟩
    · exact .inl ⟨hout, congrArg (· + 1) hlength, hongoing hrest⟩
    · exact .inr (.inl ⟨hout, Nat.succ_lt_succ hlength, hongoing hrest⟩)
    · exact .inr (.inr (.inl ⟨hout, hsome hrest⟩))
    · exact .inr (.inr (.inr ⟨hout, hsome hrest⟩))

theorem failedMalformed_iff (h : Closes bound steps outcome) :
    outcome = .failedMalformed ↔
      ∃ step, steps.getLast? = some step ∧ step.decision = "malformed_output" := by
  rcases h.cases_outcome with ⟨rfl, _, hongoing⟩ | ⟨rfl, _, hongoing⟩ | ⟨rfl, hlast⟩ |
    ⟨hout, last, hlast, hfinal⟩
  · exact ⟨fun heq => (by cases heq), fun ⟨step, hstep, hdec⟩ => absurd hdec (hongoing step hstep).2⟩
  · exact ⟨fun heq => (by cases heq), fun ⟨step, hstep, hdec⟩ => absurd hdec (hongoing step hstep).2⟩
  · exact ⟨fun _ => hlast, fun _ => rfl⟩
  · refine ⟨fun heq => ?_, fun ⟨step, hstep, hdec⟩ => ?_⟩
    · rw [heq] at hout
      simp at hout
    · rw [hlast] at hstep
      injection hstep with hstep
      rw [← hstep, hfinal] at hdec
      exact absurd hdec (by decide)

/-- Where the last step ends the run, the run did not end for lack of time or iterations. -/
theorem not_ongoing_of_last {decision : String} (hends : decision = "final" ∨
    decision = "malformed_output") {step : TrajectoryStep} (hlast : steps.getLast? = some step)
    (hdec : step.decision = decision) :
    ¬ ∀ step, steps.getLast? = some step → Ongoing step := by
  intro hongoing
  obtain ⟨hfinal, hmalformed⟩ := hongoing step hlast
  rcases hends with rfl | rfl
  · exact hfinal hdec
  · exact hmalformed hdec

theorem maxIterations_iff (h : Closes bound steps outcome) :
    outcome = .maxIterations ↔
      steps.length = bound ∧ ∀ step, steps.getLast? = some step → Ongoing step := by
  rcases h.cases_outcome with ⟨rfl, hlength, hongoing⟩ | ⟨rfl, hlength, _⟩ |
    ⟨rfl, last, hlast, hdec⟩ | ⟨hout, last, hlast, hdec⟩
  · exact ⟨fun _ => ⟨hlength, hongoing⟩, fun _ => rfl⟩
  · exact ⟨fun heq => (by cases heq), fun hfull => absurd hfull.1 (Nat.ne_of_lt hlength)⟩
  · exact ⟨fun heq => (by cases heq),
      fun hfull => absurd hfull.2 (not_ongoing_of_last (.inr rfl) hlast hdec)⟩
  · refine ⟨fun heq => ?_, fun hfull => absurd hfull.2 (not_ongoing_of_last (.inl rfl) hlast hdec)⟩
    rw [heq] at hout
    simp at hout

theorem failedTimeout_iff (h : Closes bound steps outcome) :
    outcome = .failedTimeout ↔
      steps.length < bound ∧ ∀ step, steps.getLast? = some step → Ongoing step := by
  rcases h.cases_outcome with ⟨rfl, hlength, _⟩ | ⟨rfl, hlength, hongoing⟩ |
    ⟨rfl, last, hlast, hdec⟩ | ⟨hout, last, hlast, hdec⟩
  · exact ⟨fun heq => (by cases heq), fun hshort => absurd hlength (Nat.ne_of_lt hshort.1)⟩
  · exact ⟨fun _ => ⟨hlength, hongoing⟩, fun _ => rfl⟩
  · exact ⟨fun heq => (by cases heq),
      fun hshort => absurd hshort.2 (not_ongoing_of_last (.inr rfl) hlast hdec)⟩
  · refine ⟨fun heq => ?_, fun hshort => absurd hshort.2 (not_ongoing_of_last (.inl rfl) hlast hdec)⟩
    rw [heq] at hout
    simp at hout

end Closes

/-! ## How the logs grow -/

section Loop

variable [GuardStore S] {loop : AgentLoop σ} {steps steps' : List TrajectoryStep}
  {calls calls' : List (LoopCall σ)} {w v w' : World S σ}

/-- Nothing was executed, told or logged. -/
theorem Aligned.quiet (hsteps : effectSteps steps = []) (hcalls : executions calls = [])
    (hstore : w'.store = w.store) : Aligned loop steps calls w w' := by
  refine ⟨by rw [hsteps, hcalls]; exact .nil, [], by rw [hcalls]; exact .nil, fun r => ?_⟩
  rw [hstore]
  split
  · rw [List.append_nil]
  · rfl

theorem Aligned.append (h : Aligned loop steps calls w v) (h' : Aligned loop steps' calls' v w') :
    Aligned loop (steps ++ steps') (calls ++ calls') w w' := by
  obtain ⟨entries, hentries, haudit⟩ := h.entries
  obtain ⟨entries', hentries', haudit'⟩ := h'.entries
  have hcalls : executions (calls ++ calls') = executions calls ++ executions calls' :=
    List.filterMap_append
  have hsteps : effectSteps (steps ++ steps') = effectSteps steps ++ effectSteps steps' :=
    List.filter_append _ _
  refine ⟨?_, entries ++ entries', ?_, fun r => ?_⟩
  · rw [hsteps, hcalls]
    exact List.rel_append h.steps h'.steps
  · rw [hcalls]
    exact List.rel_append hentries hentries'
  · rw [haudit' r, haudit r]
    split
    · rw [List.append_assoc]
    · rfl

/-- Only the store matters. -/
theorem Aligned.since (h : Aligned loop steps calls v w') (hstore : v.store = w.store) :
    Aligned loop steps calls w w' :=
  ⟨h.steps, hstore ▸ h.entries⟩

/-- The step a turn records, and whether the loop goes on after it. -/
def Turn.MarkedBy (step : TrajectoryStep) : Turn → Prop
  | .stop outcome _ => (step.decision = "malformed_output" ∧ outcome = .failedMalformed) ∨
      (step.decision = "final" ∧ ∃ resolution progress,
        outcome = AgentLoop.finalOutcome resolution progress)
  | .next _ => Ongoing step

/-- What one turn adds to the trajectory and to the log. -/
structure TurnTold (loop : AgentLoop σ) (progress : Progress) (index : Nat)
    (response : LLMResponse) (calls : List (LoopCall σ)) (w w' : World S σ) (turn : Turn)
    (step : TrajectoryStep) : Prop where
  steps : turn.progress.steps = progress.steps ++ [step]
  index : step.index = index
  response : StepOf response step
  marked : turn.MarkedBy step
  quiet : responses calls = [] ∧ completions calls = 0
  aligned : Aligned loop [step] calls w w'

/-- A step that is not an effect adds nothing to the log. -/
theorem Aligned.step (decision : String) {step : TrajectoryStep} (hstep : step.decision = decision)
    (hnone : afterPrefix "effect_" decision = none) (hcalls : executions calls = [])
    (hstore : w'.store = w.store) : Aligned loop [step] calls w w' :=
  .quiet (by simp [effectSteps, TrajectoryStep.effect, hstep, hnone]) hcalls hstore

theorem Ongoing.of (decision : String) {step : TrajectoryStep} (hstep : step.decision = decision)
    (h : decision ≠ "final" ∧ decision ≠ "malformed_output") : Ongoing step := by
  unfold Ongoing
  rw [hstep]
  exact h

theorem ongoing_effect {step : TrajectoryStep} {status : ExecutionStatus}
    (h : step.decision = "effect_" ++ status.value) : Ongoing step := by
  unfold Ongoing
  rw [h]
  cases status <;> decide

variable [LawfulGuardStore S]

/-- One execution that returned: one step, one call, one entry. -/
theorem Aligned.executed {step : TrajectoryStep} {builtIn : σ} {action : Action}
    {result : ExecutionResult} (hstep : StepTells loop step ⟨builtIn, action, result⟩)
    (hrun : (loop.executor.execute action).run w = (.ok result, w')) :
    Aligned loop [step] [.build (.ok action), .execute builtIn action (.ok result)] w w' := by
  have hexecute := execute_step loop.executor action w
  rw [hrun] at hexecute
  obtain ⟨entry, habout, hdecision, haudit⟩ := hexecute.audit_returned
  refine ⟨?_, [entry], .cons ⟨habout, hdecision⟩ .nil, fun r => ?_⟩
  · have heffect : step.effect = some result.status.value := by
      unfold TrajectoryStep.effect
      rw [hstep.decision, afterPrefix_append]
    have hsteps : effectSteps [step] = [step] := by
      unfold effectSteps
      rw [List.filter_cons_of_pos (by rw [heffect]; rfl), List.filter_nil]
    rw [hsteps]
    exact .cons hstep .nil
  · rw [LawfulGuardStore.readAudit_eq, LawfulGuardStore.readAudit_eq]
    exact haudit r

variable (loop) in
/-- A turn that returns tells what it did. -/
theorem turn_told {decision : Option Decision} {progress : Progress} {index : Nat}
    {response : LLMResponse} {turn : Turn}
    (hrun : (loop.turn decision progress index response).run w = (.ok turn, w')) :
    ∃ step, TurnTold loop progress index response (loop.turnCalls decision w) w w' turn step := by
  obtain ⟨calls, answer, v, htakes⟩ := loop.takes decision progress index response w
  rw [htakes.turn] at hrun
  rw [htakes.turnCalls]
  cases hrun
  cases htakes with
  | malformed =>
    exact ⟨_, rfl, rfl, ⟨rfl, rfl, rfl, rfl⟩, .inl ⟨rfl, rfl⟩, ⟨rfl, rfl⟩,
      .step "malformed_output" rfl rfl rfl rfl⟩
  | final thought resolution finished hfinished =>
    subst hfinished
    exact ⟨_, rfl, rfl, ⟨rfl, rfl, rfl, rfl⟩, .inr ⟨rfl, _, _, rfl⟩, ⟨rfl, rfl⟩,
      .step "final" rfl rfl rfl rfl⟩
  | unknownTool =>
    exact ⟨_, rfl, rfl, ⟨rfl, rfl, rfl, rfl⟩, .of "rejected_unknown_tool" rfl (by decide),
      ⟨rfl, rfl⟩, .step "rejected_unknown_tool" rfl rfl rfl rfl⟩
  | invalidArgs =>
    exact ⟨_, rfl, rfl, ⟨rfl, rfl, rfl, rfl⟩, .of "rejected_invalid_args" rfl (by decide),
      ⟨rfl, rfl⟩, .step "rejected_invalid_args" rfl rfl rfl rfl⟩
  | read =>
    exact ⟨_, rfl, rfl, ⟨rfl, rfl, rfl, rfl⟩, .of "tool_call" rfl (by decide), ⟨rfl, rfl⟩,
      .step "tool_call" rfl rfl rfl rfl⟩
  | unbuilt =>
    exact ⟨_, rfl, rfl, ⟨rfl, rfl, rfl, rfl⟩, .of "rejected_effect_error" rfl (by decide),
      ⟨rfl, rfl⟩, .step "rejected_effect_error" rfl rfl rfl rfl⟩
  | executed thought name raw spec args build action result _ hspec hargs hbody hbuilt hexecute =>
    refine ⟨_, rfl, rfl, ⟨rfl, rfl, rfl, rfl⟩, ongoing_effect rfl, ⟨rfl, rfl⟩, ?_⟩
    exact (Aligned.executed ⟨⟨name, spec, build, args, rfl, hspec, hbody, rfl, hbuilt⟩, rfl⟩
      hexecute).since rfl

/-- What at most `bound` iterations from `index` on add to the trajectory and to the log. -/
structure IterationsTold (loop : AgentLoop σ) (bound index : Nat) (progress : Progress)
    (calls : List (LoopCall σ)) (w w' : World S σ) (answer : AgentOutcome × Progress)
    (new : List TrajectoryStep) : Prop where
  steps : answer.2.steps = progress.steps ++ new
  closes : Closes bound new answer.1
  indices : new.map (fun step => step.index) = List.range' index new.length
  responses : List.Forall₂ StepOf (responses calls) new
  completions : completions calls = new.length
  aligned : Aligned loop new calls w w'

omit [LawfulGuardStore S] in
/-- No iteration was begun. -/
theorem IterationsTold.none {bound index : Nat} {progress : Progress} {outcome : AgentOutcome}
    (hcloses : Closes bound [] outcome) (hstore : w'.store = w.store) :
    IterationsTold loop bound index progress [] w w' (outcome, progress) [] :=
  ⟨(List.append_nil _).symm, hcloses, rfl, .nil, rfl, .quiet rfl rfl hstore⟩

/-- The calls of one iteration, and those of the iterations after it. -/
def iterationCalls (messages : List LLMMessage) (response : LLMResponse)
    (decision : Option Decision) (calls rest : List (LoopCall σ)) : List (LoopCall σ) :=
  .encode (.ok messages) :: .complete (.ok response) :: .parse (.ok decision) :: (calls ++ rest)

theorem responses_iterationCalls {messages : List LLMMessage} {response : LLMResponse}
    {decision : Option Decision} {calls : List (LoopCall σ)} (h : responses calls = [])
    (rest : List (LoopCall σ)) :
    responses (iterationCalls messages response decision calls rest) = response :: responses rest := by
  have hrest : responses (calls ++ rest) = responses rest := by
    unfold responses at *
    rw [List.filterMap_append, h, List.nil_append]
  exact congrArg (response :: ·) hrest

theorem completions_iterationCalls {messages : List LLMMessage} {response : LLMResponse}
    {decision : Option Decision} {calls : List (LoopCall σ)} (h : completions calls = 0)
    (rest : List (LoopCall σ)) :
    completions (iterationCalls messages response decision calls rest) = completions rest + 1 := by
  unfold completions at *
  unfold iterationCalls
  rw [List.countP_cons_of_neg Bool.false_ne_true, List.countP_cons_of_pos rfl,
    List.countP_cons_of_neg Bool.false_ne_true, List.countP_append, h, Nat.zero_add]

omit [LawfulGuardStore S] in
/-- One turn, after the LLM was asked for it. -/
theorem TurnTold.asked {index : Nat} {progress : Progress} {response : LLMResponse} {turn : Turn}
    {step : TrajectoryStep} {messages : List LLMMessage} {decision : Option Decision}
    {new : List TrajectoryStep} {rest : List (LoopCall σ)} {w'' : World S σ}
    (h : TurnTold loop progress index response calls v w' turn step) (hstore : v.store = w.store)
    (hrest : Aligned loop new rest w' w'') :
    Aligned loop (step :: new) (iterationCalls messages response decision calls rest) w w'' := by
  have hboth := (h.aligned.since hstore).append hrest
  exact ⟨hboth.steps, hboth.entries⟩

variable (loop) in
/-- The iterations tell what they did, by induction on how many are left. -/
theorem iterate_told {case : List (String × PyVal)} {start : ℚ} {remaining index : Nat}
    {progress : Progress} {answer : AgentOutcome × Progress}
    (hrun : (loop.iterate case start remaining index progress).run w = (.ok answer, w')) :
    ∃ new, IterationsTold loop remaining index progress
      (loop.callsFrom case start remaining index progress w) w w' answer new := by
  induction remaining generalizing index progress w with
  | zero =>
    cases hrun
    exact ⟨[], .none .exhausted rfl⟩
  | succ remaining ih =>
    obtain ⟨calls, heard, env', hhears⟩ := loop.hears case start progress w.env
    rw [hhears.iterate remaining index] at hrun
    rw [hhears.callsFrom remaining index]
    cases hhears with
    | late =>
      cases hrun
      exact ⟨[], .none (.timeout remaining) rfl⟩
    | unencoded | down | unreadable => cases hrun
    | heard messages response decision env' =>
      obtain ⟨turn, v, hturn, hrun⟩ := run_bind_ok hrun
      dsimp only
      rw [hturn]
      obtain ⟨step, htold⟩ := turn_told loop hturn
      obtain ⟨hquiet, hnone⟩ := htold.quiet
      cases turn with
      | stop outcome progress' =>
        cases hrun
        refine ⟨[step], htold.steps, ?_, by rw [List.map_singleton, htold.index]; rfl, ?_, ?_,
          htold.asked rfl (.quiet rfl rfl rfl)⟩
        · rcases htold.marked with ⟨hdec, rfl⟩ | ⟨hdec, resolution, final, rfl⟩
          · exact .malformed remaining hdec
          · exact .final remaining hdec resolution final
        · exact responses_iterationCalls hquiet [] ▸ .cons htold.response .nil
        · exact completions_iterationCalls hnone []
      | next progress' =>
        obtain ⟨new, hnew⟩ := ih hrun
        have hsteps := htold.steps
        unfold Turn.progress at hsteps
        refine ⟨step :: new, ?_, .next htold.marked hnew.closes, ?_, ?_, ?_,
          htold.asked rfl hnew.aligned⟩
        · rw [hnew.steps, hsteps, List.append_assoc]
          rfl
        · rw [List.map_cons, htold.index, hnew.indices]
          rfl
        · exact responses_iterationCalls hquiet _ ▸ .cons htold.response hnew.responses
        · exact (completions_iterationCalls hnone _).trans (congrArg (· + 1) hnew.completions)

/-- **Faithful trajectories.** For every LLM, clock, registry, store and bound, a bound below
zero counting as zero: the trajectory of a run that returns has one step for each completion,
its last step and its length decide its outcome, and its `effect_` steps go together with the
executions of the run and with the audit entries these appended. -/
theorem run_faithful (loop : AgentLoop σ) (subjectId : String) (case : List (String × PyVal))
    (w w' : World S σ) (t : Trajectory)
    (hrun : (loop.run subjectId case).run w = (.ok t, w')) :
    Faithful loop (max 0 loop.maxIterations) (loop.calls case w) w w' t := by
  obtain ⟨answer, v, hiterate, hend⟩ := run_returned hrun
  cases hend
  obtain ⟨new, htold⟩ := iterate_told loop hiterate
  have hsteps : answer.2.steps = new := htold.steps
  have hbound : max 0 loop.maxIterations = (loop.maxIterations.toNat : Int) := by omega
  have hcloses := htold.closes
  subst hsteps
  rw [hbound]
  refine ⟨htold.completions, Int.ofNat_le.mpr hcloses.length_le, htold.indices, htold.responses,
    hcloses.dropLast_ongoing, hcloses.failedMalformed_iff, ?_, ?_,
    -- the clocks leave the store alone
    ⟨htold.aligned.steps, htold.aligned.entries⟩⟩
  · rw [Int.ofNat_inj]
    exact hcloses.maxIterations_iff
  · rw [Int.ofNat_lt]
    exact hcloses.failedTimeout_iff

end Loop

/-- An LLM that escalates and then finishes; the environment counts its answers. -/
def Sample.escalating : AgentLoop Nat where
  llm := fun _ env =>
    if env = 0 then
      (.ok ⟨"", .ok (.obj [("action", .obj [("tool", .str "escalate")])]), 100, 20, 5, false⟩, 1)
    else (.ok ⟨"", .ok (.obj [("final", .obj [])]), 90, 10, 4, true⟩, 2)
  registry := Dict.empty.set "escalate" ⟨"escalate", "Ask a human.", [],
    .effect fun _ env =>
      (.ok ⟨"escalate_to_human", "cust_1", "escalate:pay_1", 0, .dict []⟩, env), List.nodup_nil⟩
  executor := (GuardedExecutor.new "pay_1" ⟨2000, 3, 5000⟩ fun env => (0, env)).register
    "escalate_to_human" fun _ env => (.ok .none, env)
  systemPrompt := .malformed "Recover the payment."
  systemPromptId := "recovery_agent/v1"
  maxIterations := 5
  timeoutSeconds := 30
  clock := fun env => (0, env)
  now := fun env => ("2026-01-01T00:00:00+00:00", env)

/-- A new in-memory store, and an LLM that has not answered yet. -/
def Sample.unasked : World InMemoryGuardStore Nat :=
  ⟨⟨.empty, InMemoryTables.empty_wf⟩, 0, []⟩

theorem run_faithful_escalating :
    ∃ t w', (Sample.escalating.run "pay_1" []).run Sample.unasked = (.ok t, w') ∧
      t.outcome = .escalated ∧ t.steps.length = 2 ∧
      (GuardStore.readAudit w'.store "pay_1").length = 1 ∧
      Faithful Sample.escalating (max 0 Sample.escalating.maxIterations)
        (Sample.escalating.calls [] Sample.unasked) Sample.unasked w' t := by
  have hreturns : (match (Sample.escalating.run "pay_1" []).run Sample.unasked with
    | (.ok t, w') => decide (t.outcome = .escalated ∧ t.steps.length = 2 ∧
        (GuardStore.readAudit w'.store "pay_1").length = 1)
    | (.error _, _) => false) = true := by decide +kernel
  cases hrun : (Sample.escalating.run "pay_1" []).run Sample.unasked with
  | mk answer w' =>
    rw [hrun] at hreturns
    cases answer with
    | error exc => cases hreturns
    | ok t =>
      obtain ⟨houtcome, hsteps, haudit⟩ := of_decide_eq_true hreturns
      exact ⟨t, w', rfl, houtcome, hsteps, haudit,
        run_faithful Sample.escalating "pay_1" [] Sample.unasked w' t hrun⟩

/-- The same loop with a bound below zero. -/
def Sample.bounded : AgentLoop Nat := { Sample.escalating with maxIterations := -1 }

/-- No completion is more than minus one. -/
theorem negative_bound_unfaithful :
    ∃ t w', (Sample.bounded.run "pay_1" []).run Sample.unasked = (.ok t, w') ∧
      ¬ Faithful Sample.bounded Sample.bounded.maxIterations
        (Sample.bounded.calls [] Sample.unasked) Sample.unasked w' t :=
  ⟨_, _, rfl, fun h => absurd h.bounded (by decide)⟩

end PaymentRecovery.Agent
