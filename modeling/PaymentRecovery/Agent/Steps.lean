import PaymentRecovery.Agent.Loop

/-!
# The steps of the loop

`Takes` lists what a turn may make of a decision, and `Hears` what an iteration may
hear before it acts, each with the calls it makes to the outside. Proofs about what a
turn or an iteration leaves go by these cases.
-/

namespace PaymentRecovery.Agent

open PaymentRecovery.Python PaymentRecovery.Lib PaymentRecovery.Guardrails Program

/-- A call the loop makes that may raise, with its answer. An action is presented with the
environment it was built in. -/
inductive LoopCall (σ : Type) where
  | encode (answer : Except PyExc (List LLMMessage))
  | complete (answer : Except PyExc LLMResponse)
  | parse (answer : Except PyExc (Option Decision))
  | build (answer : Except PyExc Action)
  | execute (builtIn : σ) (action : Action) (answer : Except PyExc ExecutionResult)
  | read (answer : Except PyExc PyVal)

namespace LoopCall

variable {σ : Type}

/-- The exception of the call that no branch of the loop catches. -/
def escaping : LoopCall σ → Option PyExc
  | .encode (.error exc) | .complete (.error exc) | .parse (.error exc)
  | .execute _ _ (.error exc) | .read (.error exc) => some exc
  -- an action that cannot be built is an observation
  | .build _ => none
  | _ => none

/-- The response of the LLM, if the call is a completion that returned. -/
def response? : LoopCall σ → Option LLMResponse
  | .complete (.ok response) => some response
  | _ => none

/-- The action, if the call presents one. -/
def presented? : LoopCall σ → Option Action
  | .execute _ action _ => some action
  | _ => none

end LoopCall

variable {S σ : Type} [GuardStore S]

/-- The world with another environment. -/
def atEnv (w : World S σ) (env : σ) : World S σ := { w with env := env }

namespace AgentLoop

variable (loop : AgentLoop σ)

/-- The calls one decision of the LLM leads to. -/
def turnCalls (decision : Option Decision) (w : World S σ) : List (LoopCall σ) :=
  match decision with
  | none | some (.final _ _) => []
  | some (.call _ name raw) =>
    match loop.registry.get? name with
    | none => []
    | some tool =>
      match validateArgs tool (.dict raw) with
      | .error _ => []
      | .ok args =>
        match tool.body with
        | .read handler => [.read (handler args w.env).1]
        | .effect buildAction =>
          match buildAction args w.env with
          | (.error exc, _) => [.build (.error exc)]
          | (.ok action, env) =>
            [.build (.ok action),
              .execute w.env action ((loop.executor.execute action).run (atEnv w env)).1]

/-- The calls of the iterations from `index` on. -/
def callsFrom (case : List (String × PyVal)) (start : ℚ) :
    (remaining index : Nat) → Progress → World S σ → List (LoopCall σ)
  | 0, _, _, _ => []
  | remaining + 1, index, progress, w =>
    let (t, env) := loop.clock w.env
    if loop.timeoutSeconds < t - start then []
    else match loop.messages case progress.history with
    | .error exc => [.encode (.error exc)]
    | .ok messages =>
      .encode (.ok messages) :: match loop.llm messages env with
      | (.error exc, _) => [.complete (.error exc)]
      | (.ok response, env) =>
        .complete (.ok response) :: match parseDecision response with
        | .error exc => [.parse (.error exc)]
        | .ok decision =>
          .parse (.ok decision) :: (loop.turnCalls decision (atEnv w env) ++
            match (loop.turn decision progress index response).run (atEnv w env) with
            | (.ok (.next progress), w) => callsFrom case start remaining (index + 1) progress w
            | _ => [])

/-- The calls of a run. -/
def calls (case : List (String × PyVal)) (w : World S σ) : List (LoopCall σ) :=
  let (_, env) := loop.now w.env
  let (start, env) := loop.clock env
  loop.callsFrom case start loop.maxIterations.toNat 1 .init (atEnv w env)

end AgentLoop

/-! ## One turn -/

/-- The progress after the executor's answer. -/
def effected (progress : Progress) (index : Nat) (thought tool : String) (args : Args)
    (response : LLMResponse) (action : Action) (result : ExecutionResult) : Progress :=
  let observation := boundObservation (.record [("status", .str result.status.value),
    ("result", result.result), ("detail", .str result.detail)])
  ({ progress with
      resolutionStatus := some result.status, resolutionAction := some action.name }.record index
    thought (some tool) (some (.record args)) ("effect_" ++ result.status.value) observation
    response).remember tool (.record args) observation

namespace AgentLoop

/-- What a turn makes of a decision: the calls made for it, what it returns or raises, and the
world it leaves. -/
inductive Takes (loop : AgentLoop σ) (progress : Progress) (index : Nat) (response : LLMResponse)
    (w : World S σ) :
    Option Decision → List (LoopCall σ) → Except PyExc Turn → World S σ → Prop
  | malformed : Takes loop progress index response w none []
    (.ok (.stop .failedMalformed (progress.record index "" none none "malformed_output"
      (.record [("raw", .str response.text)]) response))) w
  | final (thought : String) (resolution : Option String) (finished : Progress)
    (hfinished : finished = progress.record index thought none none "final"
      (.record [("resolution", .ofOption .str resolution)]) response) :
    Takes loop progress index response w (some (.final thought resolution)) []
      (.ok (.stop (finalOutcome resolution finished) finished)) w
  | unknownTool (thought name : String) (raw : List (PyKey × PyVal))
    (hspec : loop.registry.get? name = none) :
    Takes loop progress index response w (some (.call thought name raw)) []
      (.ok (refuse progress index thought name (.dict raw) "rejected_unknown_tool"
        (.record [("error", .str "unknown_tool"), ("tool", .str name)]) response)) w
  | invalidArgs (thought name : String) (raw : List (PyKey × PyVal)) (spec : ToolSpec σ)
    (exc : PyExc) (hspec : loop.registry.get? name = some spec)
    (hargs : validateArgs spec (.dict raw) = .error exc) :
    Takes loop progress index response w (some (.call thought name raw)) []
      (.ok (refuse progress index thought name (.dict raw) "rejected_invalid_args"
        (.record [("error", .str "invalid_arguments"), ("detail", .str exc.message)]) response)) w
  | read (thought name : String) (raw : List (PyKey × PyVal)) (spec : ToolSpec σ) (args : Args)
    (handler : Args → σ → Except PyExc PyVal × σ) (value : PyVal)
    (hspec : loop.registry.get? name = some spec)
    (hargs : validateArgs spec (.dict raw) = .ok args) (hbody : spec.body = .read handler)
    (hread : (handler args w.env).1 = .ok value) :
    Takes loop progress index response w (some (.call thought name raw)) [.read (.ok value)]
      (.ok (.next ((progress.record index thought (some name) (some (.record args)) "tool_call"
        (boundObservation value) response).remember name (.record args) (boundObservation value))))
      (atEnv w (handler args w.env).2)
  | unread (thought name : String) (raw : List (PyKey × PyVal)) (spec : ToolSpec σ) (args : Args)
    (handler : Args → σ → Except PyExc PyVal × σ) (exc : PyExc)
    (hspec : loop.registry.get? name = some spec)
    (hargs : validateArgs spec (.dict raw) = .ok args) (hbody : spec.body = .read handler)
    (hread : (handler args w.env).1 = .error exc) :
    Takes loop progress index response w (some (.call thought name raw)) [.read (.error exc)]
      (.error exc) (atEnv w (handler args w.env).2)
  | unbuilt (thought name : String) (raw : List (PyKey × PyVal)) (spec : ToolSpec σ) (args : Args)
    (build : Args → σ → Except PyExc Action × σ) (exc : PyExc)
    (hspec : loop.registry.get? name = some spec)
    (hargs : validateArgs spec (.dict raw) = .ok args) (hbody : spec.body = .effect build)
    (hbuilt : (build args w.env).1 = .error exc) :
    Takes loop progress index response w (some (.call thought name raw)) [.build (.error exc)]
      (.ok (refuse progress index thought name (.record args) "rejected_effect_error"
        (.record [("error", .str "effect_unavailable"), ("detail", .str exc.message)]) response))
      (atEnv w (build args w.env).2)
  | executed (thought name : String) (raw : List (PyKey × PyVal)) (spec : ToolSpec σ) (args : Args)
    (build : Args → σ → Except PyExc Action × σ) (action : Action) (result : ExecutionResult)
    (w' : World S σ) (hspec : loop.registry.get? name = some spec)
    (hargs : validateArgs spec (.dict raw) = .ok args) (hbody : spec.body = .effect build)
    (hbuilt : (build args w.env).1 = .ok action)
    (hexecute : (loop.executor.execute action).run (atEnv w (build args w.env).2) =
      (.ok result, w')) :
    Takes loop progress index response w (some (.call thought name raw))
      [.build (.ok action), .execute w.env action (.ok result)]
      (.ok (.next (effected progress index thought name args response action result))) w'
  | raised (thought name : String) (raw : List (PyKey × PyVal)) (spec : ToolSpec σ) (args : Args)
    (build : Args → σ → Except PyExc Action × σ) (action : Action) (exc : PyExc)
    (w' : World S σ) (hspec : loop.registry.get? name = some spec)
    (hargs : validateArgs spec (.dict raw) = .ok args) (hbody : spec.body = .effect build)
    (hbuilt : (build args w.env).1 = .ok action)
    (hexecute : (loop.executor.execute action).run (atEnv w (build args w.env).2) =
      (.error exc, w')) :
    Takes loop progress index response w (some (.call thought name raw))
      [.build (.ok action), .execute w.env action (.error exc)] (.error exc) w'

section Takes

variable (loop : AgentLoop σ) (decision : Option Decision) (progress : Progress) (index : Nat)
  (response : LLMResponse) (w : World S σ)

theorem takes : ∃ calls answer w',
    loop.Takes progress index response w decision calls answer w' := by
  rcases decision with _ | ⟨thought, resolution⟩ | ⟨thought, name, raw⟩
  · exact ⟨_, _, _, .malformed⟩
  · exact ⟨_, _, _, .final thought resolution _ rfl⟩
  cases hspec : loop.registry.get? name with
  | none => exact ⟨_, _, _, .unknownTool thought name raw hspec⟩
  | some spec =>
    cases hargs : validateArgs spec (.dict raw) with
    | error exc => exact ⟨_, _, _, .invalidArgs thought name raw spec exc hspec hargs⟩
    | ok args =>
      cases hbody : spec.body with
      | read handler =>
        cases hread : (handler args w.env).1 with
        | ok value =>
          exact ⟨_, _, _, .read thought name raw spec args handler value hspec hargs hbody hread⟩
        | error exc =>
          exact ⟨_, _, _, .unread thought name raw spec args handler exc hspec hargs hbody hread⟩
      | effect build =>
        cases hbuilt : (build args w.env).1 with
        | error exc =>
          exact ⟨_, _, _, .unbuilt thought name raw spec args build exc hspec hargs hbody hbuilt⟩
        | ok action =>
          rcases hexecute : (loop.executor.execute action).run (atEnv w (build args w.env).2) with
            ⟨exc | result, w'⟩
          · exact ⟨_, _, _, .raised thought name raw spec args build action exc w' hspec hargs
              hbody hbuilt hexecute⟩
          · exact ⟨_, _, _, .executed thought name raw spec args build action result w' hspec hargs
              hbody hbuilt hexecute⟩

variable {loop decision progress index response w} {calls : List (LoopCall σ)}
  {answer : Except PyExc Turn} {w' : World S σ}

theorem Takes.turn (h : loop.Takes progress index response w decision calls answer w') :
    (loop.turn decision progress index response).run w = (answer, w') := by
  cases h with
  | malformed => rfl
  | final thought resolution finished hfinished => rw [hfinished]; rfl
  | unknownTool thought name raw hspec => simp only [AgentLoop.turn, hspec, run_pure]
  | invalidArgs thought name raw spec exc hspec hargs =>
    simp only [AgentLoop.turn, hspec, hargs, run_pure]
  | read thought name raw spec args handler value hspec hargs hbody hread =>
    simp only [AgentLoop.turn, hspec, hargs, hbody]
    unfold AgentLoop.readTurn
    rw [run_bind, attemptEnv, run_attempt, hread]
    rfl
  | unread thought name raw spec args handler exc hspec hargs hbody hread =>
    simp only [AgentLoop.turn, hspec, hargs, hbody]
    unfold AgentLoop.readTurn
    rw [run_bind, attemptEnv, run_attempt, hread]
    rfl
  | unbuilt thought name raw spec args build exc hspec hargs hbody hbuilt =>
    simp only [AgentLoop.turn, hspec, hargs, hbody]
    unfold AgentLoop.effectTurn
    rw [run_bind, onEnv, run_step, hbuilt]
    rfl
  | executed thought name raw spec args build action result w' hspec hargs hbody hbuilt hexecute =>
    unfold atEnv at hexecute
    simp only [AgentLoop.turn, hspec, hargs, hbody]
    unfold AgentLoop.effectTurn
    rw [run_bind, onEnv, run_step, hbuilt]
    dsimp only
    rw [run_bind, hexecute]
    rfl
  | raised thought name raw spec args build action exc w' hspec hargs hbody hbuilt hexecute =>
    unfold atEnv at hexecute
    simp only [AgentLoop.turn, hspec, hargs, hbody]
    unfold AgentLoop.effectTurn
    rw [run_bind, onEnv, run_step, hbuilt]
    dsimp only
    rw [run_bind, hexecute]

theorem Takes.turnCalls (h : loop.Takes progress index response w decision calls answer w') :
    loop.turnCalls decision w = calls := by
  have hpair : ∀ {build : Args → σ → Except PyExc Action × σ} {args : Args} {built},
      (build args w.env).1 = built → build args w.env = (built, (build args w.env).2) :=
    fun hbuilt => Prod.ext hbuilt rfl
  cases h with
  | malformed => rfl
  | final => rfl
  | unknownTool thought name raw hspec => simp only [AgentLoop.turnCalls, hspec]
  | invalidArgs thought name raw spec exc hspec hargs =>
    simp only [AgentLoop.turnCalls, hspec, hargs]
  | read thought name raw spec args handler value hspec hargs hbody hread =>
    simp only [AgentLoop.turnCalls, hspec, hargs, hbody, hread]
  | unread thought name raw spec args handler exc hspec hargs hbody hread =>
    simp only [AgentLoop.turnCalls, hspec, hargs, hbody, hread]
  | unbuilt thought name raw spec args build exc hspec hargs hbody hbuilt =>
    simp only [AgentLoop.turnCalls, hspec, hargs, hbody]
    rw [hpair hbuilt]
  | executed thought name raw spec args build action result w' hspec hargs hbody hbuilt hexecute =>
    simp only [AgentLoop.turnCalls, hspec, hargs, hbody]
    rw [hpair hbuilt]
    dsimp only
    rw [hexecute]
  | raised thought name raw spec args build action exc w' hspec hargs hbody hbuilt hexecute =>
    simp only [AgentLoop.turnCalls, hspec, hargs, hbody]
    rw [hpair hbuilt]
    dsimp only
    rw [hexecute]

end Takes

end AgentLoop

/-! ## One iteration -/

namespace AgentLoop

/-- Stop with the turn's outcome, or go on from its progress. -/
def proceed (loop : AgentLoop σ) (case : List (String × PyVal)) (start : ℚ)
    (remaining index : Nat) : Turn → Program (World S σ) PyExc (AgentOutcome × Progress)
  | .stop outcome progress => return (outcome, progress)
  | .next progress => loop.iterate case start remaining index progress

/-- What an iteration hears before it acts: nothing when the time is over, an exception, or a
response with the decision read of it. With it go the calls it makes and the environment they
leave. -/
inductive Hears (loop : AgentLoop σ) (case : List (String × PyVal)) (start : ℚ)
    (progress : Progress) (env : σ) :
    List (LoopCall σ) → Except PyExc (Option (LLMResponse × Option Decision)) → σ → Prop
  | late (htime : loop.timeoutSeconds < (loop.clock env).1 - start) :
    Hears loop case start progress env [] (.ok none) (loop.clock env).2
  | unencoded (exc : PyExc) (htime : ¬ loop.timeoutSeconds < (loop.clock env).1 - start)
    (hmessages : loop.messages case progress.history = .error exc) :
    Hears loop case start progress env [.encode (.error exc)] (.error exc) (loop.clock env).2
  | down (messages : List LLMMessage) (exc : PyExc) (env' : σ)
    (htime : ¬ loop.timeoutSeconds < (loop.clock env).1 - start)
    (hmessages : loop.messages case progress.history = .ok messages)
    (hllm : loop.llm messages (loop.clock env).2 = (.error exc, env')) :
    Hears loop case start progress env [.encode (.ok messages), .complete (.error exc)]
      (.error exc) env'
  | unreadable (messages : List LLMMessage) (response : LLMResponse) (exc : PyExc) (env' : σ)
    (htime : ¬ loop.timeoutSeconds < (loop.clock env).1 - start)
    (hmessages : loop.messages case progress.history = .ok messages)
    (hllm : loop.llm messages (loop.clock env).2 = (.ok response, env'))
    (hparse : parseDecision response = .error exc) :
    Hears loop case start progress env
      [.encode (.ok messages), .complete (.ok response), .parse (.error exc)] (.error exc) env'
  | heard (messages : List LLMMessage) (response : LLMResponse) (decision : Option Decision)
    (env' : σ) (htime : ¬ loop.timeoutSeconds < (loop.clock env).1 - start)
    (hmessages : loop.messages case progress.history = .ok messages)
    (hllm : loop.llm messages (loop.clock env).2 = (.ok response, env'))
    (hparse : parseDecision response = .ok decision) :
    Hears loop case start progress env
      [.encode (.ok messages), .complete (.ok response), .parse (.ok decision)]
      (.ok (some (response, decision))) env'

variable (loop : AgentLoop σ) (case : List (String × PyVal)) (start : ℚ) (progress : Progress)

theorem hears (env : σ) : ∃ calls answer env',
    loop.Hears case start progress env calls answer env' := by
  by_cases htime : loop.timeoutSeconds < (loop.clock env).1 - start
  · exact ⟨_, _, _, .late htime⟩
  cases hmessages : loop.messages case progress.history with
  | error exc => exact ⟨_, _, _, .unencoded exc htime hmessages⟩
  | ok messages =>
    rcases hllm : loop.llm messages (loop.clock env).2 with ⟨_ | response, env'⟩
    · exact ⟨_, _, _, .down messages _ env' htime hmessages hllm⟩
    · cases hparse : parseDecision response with
      | error exc =>
        exact ⟨_, _, _, .unreadable messages response exc env' htime hmessages hllm hparse⟩
      | ok decision =>
        exact ⟨_, _, _, .heard messages response decision env' htime hmessages hllm hparse⟩

variable {loop case start progress} {w : World S σ} {calls : List (LoopCall σ)}
  {answer : Except PyExc (Option (LLMResponse × Option Decision))} {env' : σ}

/-- What an iteration comes to, given what it hears. -/
theorem Hears.iterate (remaining index : Nat) :
    loop.Hears case start progress w.env calls answer env' →
    (loop.iterate case start (remaining + 1) index progress).run w =
      match answer with
      | .error exc => (.error exc, atEnv w env')
      | .ok none => (.ok (.failedTimeout, progress), atEnv w env')
      | .ok (some (response, decision)) => (loop.turn decision progress index response >>=
          loop.proceed case start remaining (index + 1)).run (atEnv w env') := by
  intro h
  rw [AgentLoop.iterate, run_bind, onEnv, run_step]
  dsimp only
  cases h with
  | late htime =>
    rw [if_pos htime]
    rfl
  | unencoded exc htime hmessages =>
    rw [if_neg htime, run_bind, run_orRaise, hmessages]
    rfl
  | down messages exc env' htime hmessages hllm =>
    rw [if_neg htime, run_bind, run_orRaise, hmessages]
    dsimp only
    rw [run_bind, attemptEnv, run_attempt, hllm]
    rfl
  | unreadable messages response exc env' htime hmessages hllm hparse =>
    rw [if_neg htime, run_bind, run_orRaise, hmessages]
    dsimp only
    rw [run_bind, attemptEnv, run_attempt, hllm]
    dsimp only
    rw [run_bind, run_orRaise, hparse]
    rfl
  | heard messages response decision env' htime hmessages hllm hparse =>
    rw [if_neg htime, run_bind, run_orRaise, hmessages]
    dsimp only
    rw [run_bind, attemptEnv, run_attempt, hllm]
    dsimp only
    rw [run_bind, run_orRaise, hparse]
    dsimp only
    rw [run_bind, run_bind]
    unfold atEnv
    rcases (loop.turn decision progress index response).run { w with env := env' } with
      ⟨_ | turn, w'⟩
    · rfl
    · cases turn <;> rfl

/-- The calls from an iteration on, given what it hears. -/
theorem Hears.callsFrom (remaining index : Nat) :
    loop.Hears case start progress w.env calls answer env' →
    loop.callsFrom case start (remaining + 1) index progress w = calls ++
      match answer with
      | .ok (some (response, decision)) => loop.turnCalls decision (atEnv w env') ++
          match (loop.turn decision progress index response).run (atEnv w env') with
          | (.ok (.next progress), w) => loop.callsFrom case start remaining (index + 1) progress w
          | _ => []
      | _ => [] := by
  intro h
  rw [AgentLoop.callsFrom]
  cases h with
  | late htime => exact if_pos htime
  | unencoded exc htime hmessages => simp only [if_neg htime, hmessages, List.append_nil]
  | down messages exc env' htime hmessages hllm =>
    simp only [if_neg htime, hmessages, hllm, List.append_nil]
  | unreadable messages response exc env' htime hmessages hllm hparse =>
    simp only [if_neg htime, hmessages, hllm, hparse, List.append_nil]
  | heard messages response decision env' htime hmessages hllm hparse =>
    simp only [if_neg htime, hmessages, hllm, hparse]
    rfl

/-! ## From the iterations to the run -/

variable (loop)

/-- The reading the timeout counts from. -/
def startTime (env : σ) : ℚ := (loop.clock (loop.now env).2).1

/-- The trajectory of what the iterations came to. -/
def conclude (subjectId startedAt : String) (answer : AgentOutcome × Progress) :
    Program (World S σ) PyExc Trajectory := do
  let endedAt ← onEnv loop.now
  return ⟨loop.executor.runId, subjectId, loop.systemPromptId, startedAt, some endedAt, answer.1,
    answer.2.resolutionAction, answer.2.steps⟩

end AgentLoop

/-- A run is its iterations, from the second reading of the clocks on. -/
theorem run_iterates (loop : AgentLoop σ) (case : List (String × PyVal)) (subjectId : String)
    (w : World S σ) : (loop.run subjectId case).run w =
      (loop.iterate case (loop.startTime w.env) loop.maxIterations.toNat 1 .init >>=
        loop.conclude subjectId (loop.now w.env).1).run
          (atEnv w (loop.clock (loop.now w.env).2).2) := by
  unfold AgentLoop.run
  rw [run_bind, onEnv, run_step]
  dsimp only
  rw [run_bind, onEnv, run_step]
  rfl

/-- What a run that returned its trajectory came to. -/
theorem run_returned {loop : AgentLoop σ} {case : List (String × PyVal)} {subjectId : String}
    {w w' : World S σ} {t : Trajectory} (h : (loop.run subjectId case).run w = (.ok t, w')) :
    ∃ answer v, (loop.iterate case (loop.startTime w.env) loop.maxIterations.toNat 1 .init).run
        (atEnv w (loop.clock (loop.now w.env).2).2) = (.ok answer, v) ∧
      (loop.conclude subjectId (loop.now w.env).1 answer).run v = (.ok t, w') := by
  rw [run_iterates] at h
  exact run_bind_ok h

end PaymentRecovery.Agent
