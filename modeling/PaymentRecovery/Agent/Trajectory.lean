import PaymentRecovery.Python.Builtins
import Mathlib.Algebra.BigOperators.Group.List.Basic
import Mathlib.Algebra.Ring.Rat

/-!
# Agent trajectories

Everything about one agent run, and the dict it is persisted as.
-/

namespace PaymentRecovery.Agent

open PaymentRecovery.Python

inductive AgentOutcome where
  | resolved
  | escalated
  | pendingApproval
  | maxIterations
  | failedTimeout
  | failedMalformed
  | rejected
  | running
  deriving DecidableEq

/-- `outcome.value`. -/
def AgentOutcome.value : AgentOutcome → String
  | .resolved => "resolved"
  | .escalated => "escalated"
  | .pendingApproval => "pending_approval"
  | .maxIterations => "max_iterations"
  | .failedTimeout => "failed_timeout"
  | .failedMalformed => "failed_malformed_output"
  | .rejected => "rejected"
  | .running => "running"

def AgentOutcome.all : List AgentOutcome :=
  [.resolved, .escalated, .pendingApproval, .maxIterations, .failedTimeout, .failedMalformed,
    .rejected, .running]

/-- `AgentOutcome(value)`. -/
def AgentOutcome.ofValue (value : PyVal) : Except PyExc AgentOutcome :=
  let refused : Except PyExc AgentOutcome :=
    .error ⟨.valueError, value.repr ++ " is not a valid AgentOutcome"⟩
  match value with
  | .str s =>
    match AgentOutcome.all.find? fun outcome => outcome.value = s with
    | some outcome => .ok outcome
    | none => refused
  | _ => refused

theorem AgentOutcome.ofValue_value (outcome : AgentOutcome) :
    AgentOutcome.ofValue (.str outcome.value) = .ok outcome := by
  cases outcome <;> rfl

theorem AgentOutcome.value_injective : Function.Injective AgentOutcome.value := by
  intro a b h
  cases a <;> cases b <;> first | rfl | (simp [AgentOutcome.value] at h)

/-- One iteration of the agent loop. -/
structure TrajectoryStep where
  index : Nat
  thought : String
  tool : Option String
  args : Option PyVal
  decision : String
  observation : PyVal
  promptTokens : Int
  completionTokens : Int
  latencyMs : ℚ
  cached : Bool

def TrajectoryStep.toDict (step : TrajectoryStep) : PyVal :=
  .record [("index", .int step.index), ("thought", .str step.thought),
    ("tool", .ofOption .str step.tool), ("args", .ofOption id step.args),
    ("decision", .str step.decision), ("observation", step.observation),
    ("prompt_tokens", .int step.promptTokens),
    ("completion_tokens", .int step.completionTokens),
    ("latency_ms", .float step.latencyMs), ("cached", .bool step.cached)]

/-- The full record of one agent run. -/
structure Trajectory where
  runId : String
  subjectId : String
  systemPromptId : String
  startedAt : String
  endedAt : Option String
  outcome : AgentOutcome
  resolutionAction : Option String
  steps : List TrajectoryStep

namespace Trajectory

def iterations (t : Trajectory) : Nat := t.steps.length

def totalPromptTokens (t : Trajectory) : Int := (t.steps.map (·.promptTokens)).sum

def totalCompletionTokens (t : Trajectory) : Int := (t.steps.map (·.completionTokens)).sum

def totalTokens (t : Trajectory) : Int := t.totalPromptTokens + t.totalCompletionTokens

def totalLatencyMs (t : Trajectory) : ℚ := (t.steps.map (·.latencyMs)).sum

def toDict (t : Trajectory) : PyVal :=
  .record [("run_id", .str t.runId), ("subject_id", .str t.subjectId),
    ("system_prompt_id", .str t.systemPromptId), ("started_at", .str t.startedAt),
    ("ended_at", .ofOption .str t.endedAt), ("outcome", .str t.outcome.value),
    ("resolution_action", .ofOption .str t.resolutionAction),
    ("iterations", .int t.iterations), ("total_prompt_tokens", .int t.totalPromptTokens),
    ("total_completion_tokens", .int t.totalCompletionTokens),
    ("total_tokens", .int t.totalTokens), ("total_latency_ms", .float t.totalLatencyMs),
    ("steps", .list (t.steps.map TrajectoryStep.toDict))]

end Trajectory

/-! ## Read back -/

/-- A `TrajectoryStep` as a call builds it: the fields hold what the arguments were, of
whatever type. -/
structure LoadedStep where
  index : PyVal
  thought : PyVal
  tool : PyVal
  args : PyVal
  decision : PyVal
  observation : PyVal
  promptTokens : PyVal
  completionTokens : PyVal
  latencyMs : PyVal
  cached : PyVal

/-- A `Trajectory` as `from_dict` builds it. -/
structure LoadedTrajectory where
  runId : PyVal
  subjectId : PyVal
  systemPromptId : PyVal
  startedAt : PyVal
  endedAt : PyVal
  outcome : AgentOutcome
  resolutionAction : PyVal
  steps : List LoadedStep

namespace LoadedTrajectory

def iterations (t : LoadedTrajectory) : Nat := t.steps.length

/-- `sum(values)`; `none` is a `TypeError`. -/
def sumNumbers : List PyVal → Option ℚ
  | [] => some 0
  | value :: rest => do return (← value.number?) + (← sumNumbers rest)

def totalPromptTokens (t : LoadedTrajectory) : Option ℚ := sumNumbers (t.steps.map (·.promptTokens))

def totalCompletionTokens (t : LoadedTrajectory) : Option ℚ :=
  sumNumbers (t.steps.map (·.completionTokens))

def totalTokens (t : LoadedTrajectory) : Option ℚ := do
  return (← t.totalPromptTokens) + (← t.totalCompletionTokens)

def totalLatencyMs (t : LoadedTrajectory) : Option ℚ := sumNumbers (t.steps.map (·.latencyMs))

end LoadedTrajectory

/-- The parameters of `TrajectoryStep.__init__`, with their defaults. -/
def stepParams : List (String × Option PyVal) :=
  [("index", none), ("thought", none), ("tool", none), ("args", none), ("decision", none),
    ("observation", none), ("prompt_tokens", some (.int 0)),
    ("completion_tokens", some (.int 0)), ("latency_ms", some (.float 0)),
    ("cached", some (.bool false))]

/-- What `**items` passes: the names of the keywords. -/
def keywordNames : List (PyKey × PyVal) → Except PyExc (List String)
  | [] => .ok []
  | (.str name, _) :: rest => do return name :: (← keywordNames rest)
  | _ :: _ => .error ⟨.typeError, "keywords must be strings"⟩

/-- Names in the message of a call: `'a'`, `'a' and 'b'`, `'a', 'b', and 'c'`. -/
def listedNames (names : List String) : String :=
  match names.map strRepr with
  | [a, b] => a ++ " and " ++ b
  | a :: b :: rest => ", ".intercalate (a :: (b :: rest).dropLast) ++ ", and " ++
      (b :: rest).getLastD ""
  | items => ", ".intercalate items

/-- `TrajectoryStep.from_dict`: the call `cls(**data)`. -/
def TrajectoryStep.fromDict (data : PyVal) : Except PyExc LoadedStep :=
  match data with
  | .dict items => do
    let names ← keywordNames items
    let params := stepParams.map Prod.fst
    match names.find? fun name => name ∉ params with
    | some name => .error ⟨.typeError,
        "TrajectoryStep.__init__() got an unexpected keyword argument " ++ strRepr name⟩
    | none =>
      let missing := (stepParams.filter fun param =>
        param.2.isNone ∧ param.1 ∉ names).map Prod.fst
      if missing = [] then
        let value (name : String) : PyVal :=
          ((itemGet? items name).orElse fun _ => stepParams.lookup name |>.join).getD .none
        return ⟨value "index", value "thought", value "tool", value "args", value "decision",
          value "observation", value "prompt_tokens", value "completion_tokens",
          value "latency_ms", value "cached"⟩
      else .error ⟨.typeError, "TrajectoryStep.__init__() missing " ++ toString missing.length ++
          " required positional argument" ++ (if missing.length = 1 then "" else "s") ++ ": " ++
          listedNames missing⟩
  | other => .error ⟨.typeError, "agentcore.trajectory.TrajectoryStep() argument after ** must " ++
      "be a mapping, not " ++ other.typeName⟩

/-- What `for item in value` goes through; the keys of a JSON object are texts. -/
def iterItems : PyVal → Except PyExc (List PyVal)
  | .list items | .tuple items => .ok items
  | .dict items => .ok (items.map fun item => .str item.1.text)
  | .str s => .ok (s.toList.map fun c => .str (String.singleton c))
  | other => .error ⟨.typeError, "'" ++ other.typeName ++ "' object is not iterable"⟩

/-- `Trajectory.from_dict`: the totals are not read. -/
def Trajectory.fromDict (data : PyVal) : Except PyExc LoadedTrajectory := do
  let runId ← getItem data "run_id"
  let subjectId ← getItem data "subject_id"
  let systemPromptId ← getItem data "system_prompt_id"
  let startedAt ← getItem data "started_at"
  let endedAt ← getKey data "ended_at" .none
  let outcome ← AgentOutcome.ofValue (← getItem data "outcome")
  let resolutionAction ← getKey data "resolution_action" .none
  let steps ← (← iterItems (← getKey data "steps" (.list []))).mapM TrajectoryStep.fromDict
  return ⟨runId, subjectId, systemPromptId, startedAt, endedAt, outcome, resolutionAction, steps⟩

end PaymentRecovery.Agent
