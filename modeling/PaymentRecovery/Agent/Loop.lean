import PaymentRecovery.Agent.Tools
import PaymentRecovery.Agent.Trajectory

/-!
# The agent loop

Each iteration asks the LLM for one JSON decision and then calls a read tool,
routes an effect through the guarded executor, or finishes. The LLM client, the
clocks and the tools are functions on the environment; all of them but the
clocks may raise, and an exception that no branch of the source catches leaves
`run` without a trajectory.
-/

namespace PaymentRecovery.Agent

open PaymentRecovery.Python PaymentRecovery.Lib PaymentRecovery.Guardrails Program

/-- A chat message handed to an LLM client. -/
structure LLMMessage where
  role : String
  content : JsonText

/-- One completion. `parsed` is what `json.loads(text)` returns or raises. -/
structure LLMResponse where
  text : String
  parsed : Except PyExc Json
  promptTokens : Int
  completionTokens : Int
  latencyMs : ℚ
  cached : Bool

/-- `llm.complete`. -/
abbrev LLMClient (σ : Type) := List LLMMessage → σ → Except PyExc LLMResponse × σ

/-- A parsed answer of the LLM: finish, or call a tool. -/
inductive Decision where
  | final (thought : String) (resolution : Option String)
  | call (thought tool : String) (args : List (PyKey × PyVal))

/-- The classes that `except (ValueError, TypeError)` catches. -/
def ExcClass.isValueOrTypeError : ExcClass → Bool
  | .valueError | .jsonDecodeError | .toolArgError | .ruleValidationError | .typeError => true
  | _ => false

/-- The decision a JSON value spells, if any. -/
def decisionOf (data : PyVal) : Option Decision :=
  match data with
  | .dict items =>
    let thought := match itemGet? items "thought" with
      | some (.str s) => s
      | _ => ""
    match itemGet? items "final", itemGet? items "action" with
    | some final, none =>
      let resolution := match final with
        | .dict fields => match itemGet? fields "resolution" with
          | some (.str s) => some s
          | _ => none
        | _ => none
      some (.final thought resolution)
    | none, some (.dict fields) =>
      match itemGet? fields "tool", (itemGet? fields "args").getD (.dict []) with
      | some (.str tool), .dict args => some (.call thought tool args)
      | _, _ => none
    | _, _ => none
  | _ => none

/-- `_parse_decision`. -/
def parseDecision (response : LLMResponse) : Except PyExc (Option Decision) :=
  match response.parsed with
  | .ok doc => .ok (decisionOf doc.toPyVal)
  | .error exc => if ExcClass.isValueOrTypeError exc.cls then .ok none else .error exc

/-- What one run needs. -/
structure AgentLoop (σ : Type) where
  llm : LLMClient σ
  registry : ToolRegistry σ
  executor : GuardedExecutor σ
  systemPrompt : JsonText
  systemPromptId : String
  maxIterations : Int
  timeoutSeconds : ℚ
  clock : σ → ℚ × σ
  now : σ → String × σ

/-- What the loop carries from one iteration to the next. -/
structure Progress where
  steps : List TrajectoryStep
  history : List PyVal
  resolutionStatus : Option ExecutionStatus
  resolutionAction : Option String

/-- One iteration ends the loop or goes on. -/
inductive Turn where
  | stop (outcome : AgentOutcome) (progress : Progress)
  | next (progress : Progress)

def Progress.init : Progress := ⟨[], [], none, none⟩

/-- `_record`. -/
def Progress.record (progress : Progress) (index : Nat) (thought : String) (tool : Option String)
    (args : Option PyVal) (decision : String) (observation : PyVal) (response : LLMResponse) :
    Progress :=
  { progress with steps := (progress.steps ++ [⟨index, thought, tool, args, decision, observation,
      response.promptTokens, response.completionTokens, response.latencyMs, response.cached⟩]) }

/-- `history.append(...)`. -/
def Progress.remember (progress : Progress) (tool : String) (args observation : PyVal) : Progress :=
  { progress with history := progress.history ++
      [.record [("tool", .str tool), ("args", args), ("observation", observation)]] }

section Env

variable {S σ α : Type}

/-- Something done to the environment alone. -/
def onEnv (f : σ → α × σ) : Program (World S σ) PyExc α :=
  step fun w => ((f w.env).1, { w with env := (f w.env).2 })

/-- Something done to the environment alone that may raise. -/
def attemptEnv (f : σ → Except PyExc α × σ) : Program (World S σ) PyExc α :=
  attempt fun w => ((f w.env).1, { w with env := (f w.env).2 })

end Env

namespace AgentLoop

variable {S σ : Type} [GuardStore S]

/-- `_messages`. -/
def messages (loop : AgentLoop σ) (case : List (String × PyVal)) (history : List PyVal) :
    Except PyExc (List LLMMessage) := do
  let state : PyVal := .record [("case", .record case), ("tools", loop.registry.catalog),
    ("history", .list history)]
  let content ← jsonDumps state
  return [⟨"system", loop.systemPrompt⟩, ⟨"user", content⟩]

/-- `_final_outcome`. -/
def finalOutcome (resolution : Option String) (progress : Progress) : AgentOutcome :=
  match progress.resolutionStatus with
  | some .pendingApproval => .pendingApproval
  | some .rejectedActionBudget | some .rejectedSpendCap | some .rejectedBreakerOpen => .rejected
  | _ =>
    -- an empty action name is falsy
    let action := match progress.resolutionAction with
      | some name => if name = "" then resolution else some name
      | none => resolution
    if action = some "escalate_to_human" then .escalated else .resolved

/-- A tool call that was refused: recorded, remembered, and the loop goes on. -/
def refuse (progress : Progress) (index : Nat) (thought tool : String) (args : PyVal)
    (decision : String) (observation : PyVal) (response : LLMResponse) : Turn :=
  .next ((progress.record index thought (some tool) (some args) decision observation
    response).remember tool args observation)

/-- An effect tool: build the action, hand it to the executor, note its status. -/
def effectTurn (loop : AgentLoop σ) (buildAction : Args → σ → Except PyExc Action × σ)
    (args : Args) (progress : Progress) (index : Nat) (thought tool : String)
    (response : LLMResponse) : Program (World S σ) PyExc Turn := do
  let built ← onEnv (buildAction args)
  match built with
  | .error exc =>
    -- fail safe, keep the trajectory
    return refuse progress index thought tool (.record args) "rejected_effect_error"
      (.record [("error", .str "effect_unavailable"), ("detail", .str exc.message)]) response
  | .ok action => do
    let result ← loop.executor.execute action
    -- only the last status and action survive
    let observation := boundObservation (.record [("status", .str result.status.value),
      ("result", result.result), ("detail", .str result.detail)])
    let progress := { progress with
      resolutionStatus := some result.status, resolutionAction := some action.name }
    return .next ((progress.record index thought (some tool) (some (.record args))
      ("effect_" ++ result.status.value) observation response).remember tool (.record args)
        observation)

/-- A read tool: its answer, bounded, is the observation. -/
def readTurn (handler : Args → σ → Except PyExc PyVal × σ) (args : Args) (progress : Progress)
    (index : Nat) (thought tool : String) (response : LLMResponse) :
    Program (World S σ) PyExc Turn := do
  let value ← attemptEnv (handler args)
  let observation := boundObservation value
  return .next ((progress.record index thought (some tool) (some (.record args)) "tool_call"
    observation response).remember tool (.record args) observation)

/-- What one decision of the LLM leads to. -/
def turn (loop : AgentLoop σ) (decision : Option Decision) (progress : Progress) (index : Nat)
    (response : LLMResponse) : Program (World S σ) PyExc Turn :=
  match decision with
  | none =>
    return .stop .failedMalformed (progress.record index "" none none "malformed_output"
      (.record [("raw", .str response.text)]) response)
  | some (.final thought resolution) =>
    let progress := progress.record index thought none none "final"
      (.record [("resolution", .ofOption .str resolution)]) response
    return .stop (finalOutcome resolution progress) progress
  | some (.call thought name raw) =>
    match loop.registry.get? name with
    | none =>
      return refuse progress index thought name (.dict raw) "rejected_unknown_tool"
        (.record [("error", .str "unknown_tool"), ("tool", .str name)]) response
    | some tool =>
      match validateArgs tool (.dict raw) with
      | .error exc =>
        return refuse progress index thought name (.dict raw) "rejected_invalid_args"
          (.record [("error", .str "invalid_arguments"), ("detail", .str exc.message)]) response
      | .ok args =>
        match tool.body with
        | .effect buildAction => loop.effectTurn buildAction args progress index thought name response
        | .read handler => readTurn handler args progress index thought name response

/-- The iterations from `index` on, at most `remaining` of them. -/
def iterate (loop : AgentLoop σ) (case : List (String × PyVal)) (start : ℚ) :
    (remaining index : Nat) → Progress → Program (World S σ) PyExc (AgentOutcome × Progress)
  | 0, _, progress => return (.maxIterations, progress)
  | remaining + 1, index, progress => do
    let t ← onEnv loop.clock
    if loop.timeoutSeconds < t - start then
      -- checked between iterations only
      return (.failedTimeout, progress)
    else
      let messages ← orRaise (loop.messages case progress.history)
      let response ← attemptEnv (loop.llm messages)
      let decision ← orRaise (parseDecision response)
      let turn ← loop.turn decision progress index response
      match turn with
      | .stop outcome progress => return (outcome, progress)
      | .next progress => loop.iterate case start remaining (index + 1) progress

/-- Drive one recovery decision to a bounded, recorded conclusion. -/
def run (loop : AgentLoop σ) (subjectId : String) (case : List (String × PyVal)) :
    Program (World S σ) PyExc Trajectory := do
  let startedAt ← onEnv loop.now
  let start ← onEnv loop.clock
  -- `range(1, max_iterations + 1)` is empty for a bound below one
  let (outcome, progress) ← loop.iterate case start loop.maxIterations.toNat 1 .init
  let endedAt ← onEnv loop.now
  return ⟨loop.executor.runId, subjectId, loop.systemPromptId, startedAt, some endedAt, outcome,
    progress.resolutionAction, progress.steps⟩

end AgentLoop

end PaymentRecovery.Agent
