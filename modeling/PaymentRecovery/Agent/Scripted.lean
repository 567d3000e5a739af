import PaymentRecovery.Agent.Steps
import PaymentRecovery.Agent.Trace

/-!
# One effect, and done

A run whose LLM calls one effect tool and then finishes: the loop presents the
one action the tool builds, and its trajectory tells the answer to it. The
state handed to the LLM can always be encoded.
-/

namespace PaymentRecovery.Agent

open PaymentRecovery.Python PaymentRecovery.Lib PaymentRecovery.Guardrails Program

variable {S σ : Type}

/-! ## The messages -/

theorem catalog_encodable (registry : ToolRegistry σ) : registry.catalog.Encodable := by
  unfold ToolRegistry.catalog
  refine .list fun value hvalue => ?_
  obtain ⟨spec, _, rfl⟩ := List.mem_map.mp hvalue
  refine .record ?_
  simp only [List.forall_mem_cons, List.not_mem_nil, false_imp_iff, implies_true, and_true]
  refine ⟨.str _, .str _, .bool _, .record fun param hparam => ?_⟩
  obtain ⟨p, _, rfl⟩ := List.mem_map.mp hparam
  refine .record ?_
  simp only [List.forall_mem_cons, List.not_mem_nil, false_imp_iff, implies_true, and_true]
  exact ⟨.str _, .bool _⟩

theorem messages_ok (loop : AgentLoop σ) {case : List (String × PyVal)}
    {history : List PyVal} (hcase : ∀ item ∈ case, item.2.Encodable)
    (hhistory : ∀ entry ∈ history, entry.Encodable) :
    ∃ messages, loop.messages case history = .ok messages := by
  have hstate : (PyVal.record [("case", .record case), ("tools", loop.registry.catalog),
      ("history", .list history)]).Encodable := by
    refine .record ?_
    simp only [List.forall_mem_cons, List.not_mem_nil, false_imp_iff, implies_true, and_true]
    exact ⟨.record hcase, catalog_encodable _, .list hhistory⟩
  obtain ⟨content, hcontent⟩ := hstate.dumps
  unfold AgentLoop.messages
  dsimp only
  rw [hcontent]
  exact ⟨_, rfl⟩

/-! ## One iteration -/

section Iteration

variable [GuardStore S] {loop : AgentLoop σ} {case : List (String × PyVal)}

/-- An iteration in time, with an answer of the LLM that can be read. -/
theorem iterate_turn (start : ℚ) (remaining index : Nat) (progress : Progress) (w : World S σ)
    {messages : List LLMMessage} {response : LLMResponse} {decision : Option Decision}
    (htime : (loop.clock w.env).1 - start ≤ loop.timeoutSeconds)
    (hmessages : loop.messages case progress.history = .ok messages)
    (hresponse : (loop.llm messages (loop.clock w.env).2).1 = .ok response)
    (hdecision : parseDecision response = .ok decision) :
    (loop.iterate case start (remaining + 1) index progress).run w =
      (loop.turn decision progress index response >>=
        loop.proceed case start remaining (index + 1)).run
        { w with env := (loop.llm messages (loop.clock w.env).2).2 } := by
  have hllm : loop.llm messages (loop.clock w.env).2 =
      (.ok response, (loop.llm messages (loop.clock w.env).2).2) := Prod.ext hresponse rfl
  exact (AgentLoop.Hears.heard messages response decision _ (Rat.not_lt.mpr htime) hmessages hllm
    hdecision).iterate remaining index

/-- An effect tool presents the action it builds. -/
theorem turn_effect {progress : Progress} {index : Nat} {response : LLMResponse}
    {thought tool : String} {raw : List (PyKey × PyVal)} {spec : ToolSpec σ} {args : Args}
    {build : Args → σ → Except PyExc Action × σ} {action : Action} {w : World S σ}
    (hspec : loop.registry.get? tool = some spec) (hargs : validateArgs spec (.dict raw) = .ok args)
    (hbody : spec.body = .effect build) (hbuilt : (build args w.env).1 = .ok action) :
    (loop.turn (some (.call thought tool raw)) progress index response).run w =
      ((fun result => Turn.next (effected progress index thought tool args response action result))
        <$> loop.executor.execute action).run { w with env := (build args w.env).2 } := by
  rw [run_map]
  rcases hexecute : (loop.executor.execute action).run { w with env := (build args w.env).2 } with
    ⟨exc | result, w'⟩
  · exact (AgentLoop.Takes.raised thought tool raw spec args build action exc w' hspec hargs hbody
      hbuilt hexecute).turn
  · exact (AgentLoop.Takes.executed thought tool raw spec args build action result w' hspec hargs
      hbody hbuilt hexecute).turn

/-- What the LLM is told of an effect can be encoded. -/
theorem effected_entry {progress : Progress} (hhistory : progress.history = []) (index : Nat)
    (thought tool : String) {args : Args} (hargs : (PyVal.record args).Encodable)
    (response : LLMResponse) (action : Action) (result : ExecutionResult) : ∃ entry,
      (effected progress index thought tool args response action result).history = [entry] ∧
      entry.Encodable := by
  refine ⟨_, congrArg (· ++ _) hhistory, .record ?_⟩
  simp only [List.forall_mem_cons, List.not_mem_nil, false_imp_iff, implies_true, and_true]
  exact ⟨.str _, hargs, encodable_of_isJson (boundObservation_isJson _)⟩

/-- An action that cannot be built is an observation. -/
theorem turn_unbuilt {progress : Progress} {index : Nat} {response : LLMResponse}
    {thought tool : String} {raw : List (PyKey × PyVal)} {spec : ToolSpec σ} {args : Args}
    {build : Args → σ → Except PyExc Action × σ} {exc : PyExc} {w : World S σ}
    (hspec : loop.registry.get? tool = some spec) (hargs : validateArgs spec (.dict raw) = .ok args)
    (hbody : spec.body = .effect build) (hbuilt : (build args w.env).1 = .error exc) :
    (loop.turn (some (.call thought tool raw)) progress index response).run w =
      (.ok (AgentLoop.refuse progress index thought tool (.record args) "rejected_effect_error"
        (.record [("error", .str "effect_unavailable"), ("detail", .str exc.message)]) response),
        { w with env := (build args w.env).2 }) :=
  (AgentLoop.Takes.unbuilt thought tool raw spec args build exc hspec hargs hbody hbuilt).turn

end Iteration

/-! ## Two iterations -/

section Script

namespace AgentLoop

variable (loop : AgentLoop σ) (case : List (String × PyVal))

/-- The environment in which the LLM is first asked. -/
def askedFrom (env : σ) : σ := (loop.clock (loop.clock (loop.now env).2).2).2

/-- The LLM's first answer is a call of this tool; it comes in time, it leaves the environment
`env'`, and it need not be the last. -/
structure CallsFirst (tool : String) (raw : List (PyKey × PyVal)) (env env' : σ) : Prop where
  bound : 2 ≤ loop.maxIterations
  inTime : (loop.clock (loop.clock (loop.now env).2).2).1 - loop.startTime env ≤ loop.timeoutSeconds
  asked : ∃ messages response thought, loop.messages case [] = .ok messages ∧
    (loop.llm messages (loop.askedFrom env)).1 = .ok response ∧
    parseDecision response = .ok (some (.call thought tool raw)) ∧
    (loop.llm messages (loop.askedFrom env)).2 = env'

/-- Asked again in this environment, in time, the LLM is done. -/
structure Finishes (start : ℚ) (env : σ) : Prop where
  inTime : (loop.clock env).1 - start ≤ loop.timeoutSeconds
  asked : ∀ entry messages, loop.messages case [entry] = .ok messages →
    ∃ response thought resolution, (loop.llm messages (loop.clock env).2).1 = .ok response ∧
      parseDecision response = .ok (some (.final thought resolution))

/-- The LLM calls this tool, which finds the environment `env'`, and is done when it is asked
again. -/
structure CallsOnce [GuardStore S] (tool : String) (raw : List (PyKey × PyVal)) (w : World S σ)
    (env' : σ) : Prop where
  first : loop.CallsFirst case tool raw w.env env'
  last : ∀ thought response, loop.Finishes case (loop.startTime w.env)
    ((loop.turn (some (.call thought tool raw)) .init 1 response).run { w with env := env' }).2.env

end AgentLoop

variable [GuardStore S] {loop : AgentLoop σ} {case : List (String × PyVal)}

/-- The run up to the first answer. -/
theorem run_first {tool : String} {raw : List (PyKey × PyVal)} {w : World S σ} {env' : σ}
    (h : loop.CallsFirst case tool raw w.env env') (subjectId : String) :
    ∃ response thought startedAt remaining, (loop.run subjectId case).run w =
      ((loop.turn (some (.call thought tool raw)) .init 1 response >>=
        loop.proceed case (loop.startTime w.env) (remaining + 1) 2) >>=
          loop.conclude subjectId startedAt).run { w with env := env' } := by
  obtain ⟨hbound, htime, messages, response, thought, hmessages, hresponse, hdecision, henv⟩ := h
  obtain ⟨remaining, hremaining⟩ : ∃ remaining, loop.maxIterations.toNat = remaining + 1 + 1 :=
    ⟨loop.maxIterations.toNat - 2, by omega⟩
  refine ⟨response, thought, (loop.now w.env).1, remaining, ?_⟩
  have hturn := iterate_turn (loop.startTime w.env) (remaining + 1) 1 .init
    { w with env := (loop.clock (loop.now w.env).2).2 } htime hmessages hresponse hdecision
  unfold AgentLoop.askedFrom at henv
  dsimp only at hturn
  rw [henv] at hturn
  rw [run_iterates, hremaining]
  unfold atEnv
  rw [run_bind, hturn, run_bind _ (loop.conclude _ _)]

/-- The run from the second answer on. -/
theorem proceed_finishes {start : ℚ} {w : World S σ} (h : loop.Finishes case start w.env)
    {entry : PyVal} (hentry : entry.Encodable) (hcase : ∀ item ∈ case, item.2.Encodable)
    (remaining index : Nat) {progress : Progress} (hhistory : progress.history = [entry]) :
    ∃ messages response thought resolution,
      (loop.proceed case start (remaining + 1) index (.next progress)).run w =
        (.ok (AgentLoop.finalOutcome resolution progress, progress.record index thought none none
            "final" (.record [("resolution", .ofOption .str resolution)]) response),
          { w with env := (loop.llm messages (loop.clock w.env).2).2 }) := by
  obtain ⟨messages, hmessages⟩ := messages_ok loop hcase
    (show ∀ e ∈ [entry], e.Encodable by simpa using hentry)
  obtain ⟨response, thought, resolution, hresponse, hdecision⟩ := h.asked entry messages hmessages
  refine ⟨messages, response, thought, resolution, ?_⟩
  show (loop.iterate case start (remaining + 1) index progress).run w = _
  rw [iterate_turn start remaining index progress w h.inTime (hhistory ▸ hmessages) hresponse
    hdecision]
  rfl

/-- A turn that raises ends the run. -/
theorem run_raises {tool : String} {raw : List (PyKey × PyVal)} {w w' : World S σ} {env' : σ}
    (h : loop.CallsFirst case tool raw w.env env') (subjectId : String) {exc : PyExc}
    (hturn : ∀ thought response,
      (loop.turn (some (.call thought tool raw)) .init 1 response).run { w with env := env' } =
        (.error exc, w')) :
    (loop.run subjectId case).run w = (.error exc, w') := by
  obtain ⟨response, thought, startedAt, remaining, hrun⟩ := run_first h subjectId
  rw [hrun, run_bind, run_bind, hturn]

/-- A finished run after one turn that went on. -/
theorem run_finishes {tool : String} {raw : List (PyKey × PyVal)} {w w' : World S σ} {env' : σ}
    (hscript : loop.CallsOnce case tool raw w env') (subjectId : String)
    (hcase : ∀ item ∈ case, item.2.Encodable) {progress : String → LLMResponse → Progress}
    (hturn : ∀ thought response,
      (loop.turn (some (.call thought tool raw)) .init 1 response).run { w with env := env' } =
        (.ok (.next (progress thought response)), w'))
    (hentry : ∀ thought response, ∃ entry,
      (progress thought response).history = [entry] ∧ entry.Encodable) :
    ∃ trajectory messages thought response resolution last,
      (loop.run subjectId case).run w = (.ok trajectory,
        { w' with env := (loop.now (loop.llm messages (loop.clock w'.env).2).2).2 }) ∧
      trajectory.outcome = AgentLoop.finalOutcome resolution (progress thought response) ∧
      trajectory.resolutionAction = (progress thought response).resolutionAction ∧
      trajectory.steps = (progress thought response).steps ++ [last] ∧ last.decision = "final" := by
  obtain ⟨response, thought, startedAt, remaining, hrun⟩ := run_first hscript.first subjectId
  obtain ⟨entry, hhistory, hencodable⟩ := hentry thought response
  have hfinishes := hscript.last thought response
  rw [hturn] at hfinishes
  obtain ⟨messages, response', thought', resolution, hproceed⟩ :=
    proceed_finishes hfinishes hencodable hcase remaining 2 hhistory
  refine ⟨⟨loop.executor.runId, subjectId, loop.systemPromptId, startedAt,
    some (loop.now (loop.llm messages (loop.clock w'.env).2).2).1,
    AgentLoop.finalOutcome resolution (progress thought response),
    (progress thought response).resolutionAction, (progress thought response).steps ++
      [⟨2, thought', none, none, "final", .record [("resolution", .ofOption .str resolution)],
        response'.promptTokens, response'.completionTokens, response'.latencyMs,
        response'.cached⟩]⟩,
    messages, thought, response, resolution,
    ⟨2, thought', none, none, "final", .record [("resolution", .ofOption .str resolution)],
      response'.promptTokens, response'.completionTokens, response'.latencyMs, response'.cached⟩,
    ?_, rfl, rfl, rfl, rfl⟩
  rw [hrun, run_bind, run_bind, hturn]
  dsimp only
  rw [hproceed]
  rfl

end Script

end PaymentRecovery.Agent
