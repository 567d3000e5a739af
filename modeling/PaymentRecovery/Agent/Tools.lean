import PaymentRecovery.Guardrails.Executor
import PaymentRecovery.Python.Builtins

/-!
# Tool registry, typed argument validation, observation bounding

A tool either reads, through a handler, or builds an `Action` for the guarded
executor: the sum type leaves no third way. Both work on the environment `σ`
alone and may raise.
-/

namespace PaymentRecovery.Agent

open PaymentRecovery.Python PaymentRecovery.Lib PaymentRecovery.Guardrails

def maxString : Nat := 500
def maxItems : Nat := 50
def maxArgString : Nat := 256

inductive ToolParamType where
  | string
  | number
  | bool
  deriving DecidableEq

/-- `param_type.value`. -/
def ToolParamType.value : ToolParamType → String
  | .string => "string"
  | .number => "number"
  | .bool => "bool"

structure ToolParam where
  type : ToolParamType
  required : Bool

/-- Validated arguments, in the order of the tool's parameters. -/
abbrev Args := List (String × PyVal)

/-- `args[name]`. -/
def Args.get (args : Args) (name : String) : Except PyExc PyVal :=
  match args with
  | [] => .error ⟨.keyError, strRepr name⟩
  | (k, v) :: rest => if k = name then .ok v else Args.get rest name

/-- What a tool does: exactly one of `read_handler` and `build_action`. -/
inductive ToolBody (σ : Type) where
  | read (handler : Args → σ → Except PyExc PyVal × σ)
  | effect (buildAction : Args → σ → Except PyExc Action × σ)

/-- A tool the agent may call. Its parameters are a mapping: each name occurs once. -/
structure ToolSpec (σ : Type) where
  name : String
  description : String
  params : List (String × ToolParam)
  body : ToolBody σ
  distinct : (params.map Prod.fst).Nodup

variable {σ : Type}

/-- `is_effect`. -/
def ToolSpec.isEffect (spec : ToolSpec σ) : Bool :=
  match spec.body with
  | .read _ => false
  | .effect _ => true

/-- The closed set of tools available to one agent run. -/
abbrev ToolRegistry (σ : Type) := Dict String (ToolSpec σ)

namespace ToolRegistry

def add (registry : ToolRegistry σ) (spec : ToolSpec σ) : Except PyExc (ToolRegistry σ) :=
  match registry.get? spec.name with
  | some _ => .error ⟨.valueError, "duplicate tool: " ++ spec.name⟩
  | none => .ok (registry.set spec.name spec)

/-- A description of every tool for the LLM. -/
def catalog (registry : ToolRegistry σ) : PyVal :=
  .list ((registry.values.insertionSort fun a b => a.name ≤ b.name).map fun spec =>
    .record [("name", .str spec.name), ("description", .str spec.description),
      ("effect", .bool spec.isEffect),
      ("params", .record (spec.params.map fun (name, p) =>
        (name, .record [("type", .str p.type.value), ("required", .bool p.required)])))])

end ToolRegistry

/-! ## Argument validation -/

def toolArgError (message : String) : PyExc := ⟨.toolArgError, message⟩

/-- `_check_scalar`. -/
def checkScalar (value : PyVal) (paramType : ToolParamType) (name : String) :
    Except PyExc PyVal :=
  match paramType, value with
  | .number, .int i => .ok (.int i)
  | .number, .float x => .ok (.float x)
  | .number, _ => .error (toolArgError ("argument " ++ name ++ " must be a number"))
  | .string, .str s =>
    if maxArgString < s.length then
      .error (toolArgError ("argument " ++ name ++ " exceeds " ++ toString maxArgString ++ " chars"))
    else .ok (.str s)
  | .string, _ => .error (toolArgError ("argument " ++ name ++ " must be a string"))
  | .bool, .bool b => .ok (.bool b)
  | .bool, _ => .error (toolArgError ("argument " ++ name ++ " must be a bool"))

/-- The loop over the tool's parameters. -/
def checkParams (items : List (PyKey × PyVal)) : List (String × ToolParam) → Except PyExc Args
  | [] => .ok []
  | (name, param) :: rest =>
    match itemGet? items name with
    | none =>
      -- an optional parameter is left out
      if param.required then .error (toolArgError ("missing required argument: " ++ name))
      else checkParams items rest
    | some value => do
      let checked ← checkScalar value param.type name
      return (name, checked) :: (← checkParams items rest)

/-- Validate `raw` against `spec`; return typed arguments or raise. -/
def validateArgs (spec : ToolSpec σ) (raw : PyVal) : Except PyExc Args :=
  match raw with
  | .dict items =>
    let extra := (items.map Prod.fst).filter fun key =>
      key ∉ spec.params.map fun (name, _) => PyKey.str name
    if extra = [] then checkParams items spec.params
    else .error (toolArgError
      ("unexpected arguments: " ++ strListRepr (sortedTexts (extra.map PyKey.text))))
  | _ => .error (toolArgError "arguments must be an object")

/-! ## Observation bounding -/

/-- A bounded copy of `value`, `fuel` levels deep. -/
def boundTo : (fuel : Nat) → PyVal → PyVal
  | 0, _ => .str "…"
  | fuel + 1, value =>
    match value with
    | .none => .none
    | .bool b => .bool b
    | .int i => .int i
    | .float x => .float x
    | .str s => if s.length ≤ maxString then .str s else .str (takeChars maxString s ++ "…")
    -- shortened keys can meet, and then the later item wins
    | .dict items => .dict ((items.take maxItems).foldl
        (fun out (k, v) => itemSet out (takeChars maxArgString k.text) (boundTo fuel v)) [])
    | .list items => .list ((items.take maxItems).map (boundTo fuel))
    | .tuple items => .list ((items.take maxItems).map (boundTo fuel))
    | .object _ text => .str (takeChars maxString text)

/-- A bounded, JSON-safe copy of `value` for the LLM and the trajectory. -/
def boundObservation (value : PyVal) : PyVal := boundTo 5 value

end PaymentRecovery.Agent
