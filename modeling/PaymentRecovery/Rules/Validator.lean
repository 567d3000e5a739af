import PaymentRecovery.Rules.Grammar

/-!
# Parsing a proposed rule

The proposal is untrusted data. Any violation raises for the whole proposal, in
the order the source checks.
-/

namespace PaymentRecovery.Rules

open PaymentRecovery.Python PaymentRecovery.Lib

def ruleError (message : String) : PyExc := ⟨.ruleValidationError, message⟩

/-- `set(items.keys()) == set(names)`. -/
def hasExactKeys (items : List (PyKey × PyVal)) (names : List String) : Bool :=
  (items.map Prod.fst).all (fun key => key ∈ names.map PyKey.str) &&
    names.all fun name => PyKey.str name ∈ items.map Prod.fst

/-- `sorted(items.keys())` in a message. -/
def keysText (items : List (PyKey × PyVal)) : String :=
  strListRepr (sortedTexts (items.map fun (key, _) => key.text))

/-- `_scalar`. -/
def scalar (value : PyVal) (spec : FieldSpec) : Except PyExc PyVal :=
  match spec.type, value with
  | .number, .int i => .ok (.int i)
  | .number, .float x => .ok (.float x)
  | .number, _ => .error (ruleError ("expected a number literal, got " ++ value.repr))
  | .string, .str s => .ok (.str s)
  | .string, _ => .error (ruleError ("expected a string literal, got " ++ value.repr))
  | .bool, .bool b => .ok (.bool b)
  | .bool, _ => .error (ruleError ("expected a bool literal, got " ++ value.repr))
  | .enum, .str s =>
    if s ∈ spec.allowedValues then .ok (.str s)
    else .error (ruleError ("value " ++ value.repr ++ " is not an allowed enum member"))
  | .enum, _ => .error (ruleError ("value " ++ value.repr ++ " is not an allowed enum member"))

/-- The items of a sequence that is no string. -/
def sequence? : PyVal → Option (List PyVal)
  | .list items => some items
  | .tuple items => some items
  | _ => none

/-- `_parse_operator`. -/
def parseOperator (raw : PyVal) (fieldType : FieldType) : Except PyExc Operator :=
  match raw with
  | .str text =>
    match Operator.ofValue? text with
    | none => .error (ruleError ("unknown operator: " ++ strRepr text))
    | some op =>
      if op ∈ allowedOperators fieldType then .ok op
      else .error (ruleError
        ("operator " ++ strRepr text ++ " not allowed for " ++ fieldType.value ++ " field"))
  | _ => .error (ruleError ("operator must be a string, got " ++ raw.typeName))

/-- `_parse_literal`. -/
def parseLiteral (value : PyVal) (spec : FieldSpec) (op : Operator) (schema : Schema) :
    Except PyExc PyVal :=
  if op = .isIn then
    match sequence? value with
    | none => .error (ruleError "'in' operand must be a list")
    | some items =>
      if 1 ≤ items.length ∧ items.length ≤ schema.maxInList then do
        return .tuple (← items.mapM fun item => scalar item spec)
      else .error (ruleError
        ("'in' list must have between 1 and " ++ toString schema.maxInList ++ " items"))
  else scalar value spec

/-- `node[name]`, once the keys have been checked. -/
def member (items : List (PyKey × PyVal)) (name : String) : PyVal :=
  (itemGet? items name).getD .none

/-- `_parse_predicate`. -/
def parsePredicate (node : PyVal) (schema : Schema) : Except PyExc Predicate :=
  match node with
  | .dict items =>
    if hasExactKeys items ["field", "op", "value"] then
      match member items "field" with
      | .str fieldName =>
        match schema.fields.get? fieldName with
        | none => .error (ruleError ("unknown or invalid field: " ++ strRepr fieldName))
        | some spec => do
          let op ← parseOperator (member items "op") spec.type
          let value ← parseLiteral (member items "value") spec op schema
          return ⟨fieldName, op, value⟩
      | other => .error (ruleError ("unknown or invalid field: " ++ other.repr))
    else .error (ruleError ("predicate must have exactly keys " ++
      strListRepr ["field", "op", "value"] ++ ", got " ++ keysText items))
  | _ => .error (ruleError "predicate must be an object")

/-- `_parse_precondition`. -/
def parsePrecondition (node : PyVal) (schema : Schema) : Except PyExc (List Predicate) :=
  match node with
  | .dict items =>
    if hasExactKeys items ["all"] then
      match sequence? (member items "all") with
      | none => .error (ruleError "precondition 'all' must be a list of predicates")
      | some predicates =>
        if 1 ≤ predicates.length ∧ predicates.length ≤ schema.maxPredicates then
          predicates.mapM fun p => parsePredicate p schema
        else .error (ruleError
          ("precondition must have between 1 and " ++ toString schema.maxPredicates ++
            " predicates"))
    else .error (ruleError "precondition must have exactly the key 'all'")
  | _ => .error (ruleError "precondition must be an object with an 'all' list")

/-- `_parse_action`. -/
def parseAction (node : PyVal) (schema : Schema) : Except PyExc RuleAction :=
  match node with
  | .dict items =>
    if hasExactKeys items ["name"] || hasExactKeys items ["name", "params"] then
      match member items "name" with
      | .str name =>
        match schema.actions.get? name with
        | none => .error (ruleError ("unknown or invalid action: " ++ strRepr name))
        | some spec =>
          -- `node.get("params", {})`
          match (itemGet? items "params").getD (.dict []) with
          | .dict params =>
            let names := spec.params.entries.map Prod.fst
            if hasExactKeys params names then do
              let parsed ← spec.params.entries.mapM fun (paramName, paramSpec) => do
                return (paramName, ← scalar (member params paramName) paramSpec)
              return ⟨name, parsed⟩
            else .error (ruleError ("action " ++ strRepr name ++ " params must be exactly " ++
              strListRepr (sortedTexts names) ++ ", got " ++ keysText params))
          | _ => .error (ruleError "action params must be an object")
      | other => .error (ruleError ("unknown or invalid action: " ++ other.repr))
    else .error (ruleError "action must have 'name' and optionally 'params'")
  | _ => .error (ruleError "action must be an object")

/-- Validate `proposal` against `schema` and return a typed rule. -/
def parseRule (proposal : PyVal) (schema : Schema) : Except PyExc Rule :=
  match proposal with
  | .dict items =>
    if hasExactKeys items ["precondition", "action"] then do
      let precondition ← parsePrecondition (member items "precondition") schema
      let action ← parseAction (member items "action") schema
      return ⟨precondition, action⟩
    else .error (ruleError ("rule must have exactly keys " ++
      strListRepr ["action", "precondition"] ++ ", got " ++ keysText items))
  | _ => .error (ruleError "rule must be an object")

end PaymentRecovery.Rules
