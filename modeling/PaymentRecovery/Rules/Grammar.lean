import PaymentRecovery.Lib.Dict
import PaymentRecovery.Python.Builtins

/-!
# The rule grammar

The vocabulary a caller injects, and the typed rules that `parse_rule` produces.
An enum spec without allowed values cannot be built.
-/

namespace PaymentRecovery.Rules

open PaymentRecovery.Python PaymentRecovery.Lib

inductive FieldType where
  | number
  | string
  | bool
  | enum
  deriving DecidableEq

/-- `field_type.value`. -/
def FieldType.value : FieldType → String
  | .number => "number"
  | .string => "string"
  | .bool => "bool"
  | .enum => "enum"

/-- Type of a context field. ENUM fields list their allowed values. -/
structure FieldSpec where
  type : FieldType
  allowedValues : List String
  enum_allows : type = .enum → allowedValues ≠ []

/-- Type of an action parameter: the same primitive types. -/
abbrev ParamSpec := FieldSpec

/-- A spec without allowed values. -/
def FieldSpec.plain (type : FieldType) (h : type ≠ .enum) : FieldSpec :=
  ⟨type, [], fun he => absurd he h⟩

/-- A permitted action: a name and a fixed set of typed parameters. -/
structure ActionSpec where
  name : String
  params : Dict String ParamSpec

/-- The closed vocabulary a rule may use. -/
structure Schema where
  fields : Dict String FieldSpec
  actions : Dict String ActionSpec
  maxPredicates : Nat := 8
  maxInList : Nat := 32

inductive Operator where
  | eq
  | ne
  | lt
  | le
  | gt
  | ge
  | isIn
  deriving DecidableEq

/-- `Operator(raw)`. -/
def Operator.ofValue? (raw : String) : Option Operator :=
  if raw = "eq" then some .eq
  else if raw = "ne" then some .ne
  else if raw = "lt" then some .lt
  else if raw = "le" then some .le
  else if raw = "gt" then some .gt
  else if raw = "ge" then some .ge
  else if raw = "in" then some .isIn
  else none

/-- Which operators are permitted for each field type. -/
def allowedOperators : FieldType → List Operator
  | .number => [.eq, .ne, .lt, .le, .gt, .ge, .isIn]
  | .string => [.eq, .ne, .isIn]
  | .bool => [.eq, .ne]
  | .enum => [.eq, .ne, .isIn]

/-- `field <op> value`; `value` is a scalar, or a tuple for `in`. -/
structure Predicate where
  field : String
  op : Operator
  value : PyVal

/-- One action with its validated parameters. -/
structure RuleAction where
  name : String
  params : List (String × PyVal)

/-- A validated rule: a conjunction of predicates and a single action. -/
structure Rule where
  precondition : List Predicate
  action : RuleAction

end PaymentRecovery.Rules
