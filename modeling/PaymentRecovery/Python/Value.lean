import Mathlib.Data.Rat.Defs
import PaymentRecovery.Python.Texts

/-!
# Python values, exceptions and JSON

The values that handlers return, tools answer and trajectories record, and the
JSON text they are stored as. Numbers of type `float` are exact rationals. A
text is kept as what `json.loads` makes of it: the document it denotes, or a
text the parser refuses.
-/

namespace PaymentRecovery.Python

/-- A key of a Python mapping. Only its `str()` and, for the scalars
`json.dumps` accepts as keys, its JSON spelling are ever looked at. -/
inductive PyKey where
  | str (s : String)
  | scalar (strText jsonText : String)
  | other (typeName strText : String)
  deriving DecidableEq

/-- A Python value. `object` is anything `json.dumps` has no encoding for. -/
inductive PyVal where
  | none
  | bool (b : Bool)
  | int (i : Int)
  | float (x : ℚ)
  | str (s : String)
  | list (items : List PyVal)
  | tuple (items : List PyVal)
  | dict (items : List (PyKey × PyVal))
  | object (typeName strText : String)

/-- A dictionary display with string keys. -/
def PyVal.record (items : List (String × PyVal)) : PyVal :=
  .dict (items.map fun (k, v) => (.str k, v))

/-- `None` or the wrapped value. -/
def PyVal.ofOption {α : Type} (f : α → PyVal) : Option α → PyVal
  | Option.none => .none
  | some a => f a

/-- `items[key]`, for a string key. -/
def itemGet? (items : List (PyKey × PyVal)) (key : String) : Option PyVal :=
  match items with
  | [] => Option.none
  | (k, v) :: rest => if k = .str key then some v else itemGet? rest key

/-- `items[key] = value`, for a string key. -/
def itemSet (items : List (PyKey × PyVal)) (key : String) (value : PyVal) :
    List (PyKey × PyVal) :=
  match items with
  | [] => [(.str key, value)]
  | (k, v) :: rest => if k = .str key then (k, value) :: rest else (k, v) :: itemSet rest key value

/-- The exception classes the code raises or tells apart. -/
inductive ExcClass where
  | unknownActionError
  | approvalError
  | toolArgError
  | resourceNotFound
  | providerError
  | providerAPIError
  | ruleValidationError
  | jsonDecodeError
  | typeError
  | valueError
  | keyError
  | assertionError
  | integrityError
  | other (name : String)
  deriving DecidableEq

def ExcClass.name : ExcClass → String
  | .unknownActionError => "UnknownActionError"
  | .approvalError => "ApprovalError"
  | .toolArgError => "ToolArgError"
  | .resourceNotFound => "ResourceNotFound"
  | .providerError => "ProviderError"
  | .providerAPIError => "ProviderAPIError"
  | .ruleValidationError => "RuleValidationError"
  | .jsonDecodeError => "JSONDecodeError"
  | .typeError => "TypeError"
  | .valueError => "ValueError"
  | .keyError => "KeyError"
  | .assertionError => "AssertionError"
  | .integrityError => "IntegrityError"
  | .other name => name

/-- A raised exception: its class and its message. -/
structure PyExc where
  cls : ExcClass
  message : String
  deriving DecidableEq

/-- `repr(exc)`. The message of a `KeyError` is the `repr` of its key already. -/
def PyExc.repr (exc : PyExc) : String :=
  exc.cls.name ++ "(" ++ (if exc.cls = .keyError then exc.message else strRepr exc.message) ++ ")"

/-! ## JSON -/

/-- A JSON document. Objects keep every member the text spells out. -/
inductive Json where
  | null
  | bool (b : Bool)
  | int (i : Int)
  | float (x : ℚ)
  | str (s : String)
  | arr (items : List Json)
  | obj (members : List (String × Json))

/-- A text, up to what `json.loads` can tell about it. -/
inductive JsonText where
  | doc (value : Json)
  | malformed (raw : String)

/-- The spelling of a key in JSON text; `json.dumps` refuses other keys. -/
def PyKey.toJson : PyKey → Except PyExc String
  | .str s => .ok s
  | .scalar _ jsonText => .ok jsonText
  | .other typeName _ =>
    .error ⟨.typeError, "keys must be str, int, float, bool or None, not " ++ typeName⟩

mutual

/-- The document `json.dumps` writes for a value. -/
def PyVal.toJson : PyVal → Except PyExc Json
  | .none => .ok .null
  | .bool b => .ok (.bool b)
  | .int i => .ok (.int i)
  | .float x => .ok (.float x)
  | .str s => .ok (.str s)
  | .list items => do return .arr (← listToJson items)
  | .tuple items => do return .arr (← listToJson items)
  | .dict items => do return .obj (← itemsToJson items)
  | .object typeName _ =>
    .error ⟨.typeError, "Object of type " ++ typeName ++ " is not JSON serializable"⟩

def listToJson : List PyVal → Except PyExc (List Json)
  | [] => .ok []
  | v :: rest => do return (← v.toJson) :: (← listToJson rest)

def itemsToJson : List (PyKey × PyVal) → Except PyExc (List (String × Json))
  | [] => .ok []
  | (k, v) :: rest => do return (← k.toJson, ← v.toJson) :: (← itemsToJson rest)

end

mutual

/-- The value `json.loads` builds from a document: for a repeated member the
last one counts. -/
def Json.toPyVal : Json → PyVal
  | .null => .none
  | .bool b => .bool b
  | .int i => .int i
  | .float x => .float x
  | .str s => .str s
  | .arr items => .list (listToPyVal items)
  | .obj members => .dict (membersToPyVal members [])

def listToPyVal : List Json → List PyVal
  | [] => []
  | v :: rest => v.toPyVal :: listToPyVal rest

def membersToPyVal : List (String × Json) → List (PyKey × PyVal) → List (PyKey × PyVal)
  | [], items => items
  | (k, v) :: rest, items => membersToPyVal rest (itemSet items k v.toPyVal)

end

/-- `json.dumps(value)`. -/
def jsonDumps (value : PyVal) : Except PyExc JsonText := do
  return .doc (← value.toJson)

/-- `json.loads(text)`. -/
def jsonLoads : JsonText → Except PyExc PyVal
  | .doc value => .ok value.toPyVal
  | .malformed _ => .error ⟨.jsonDecodeError, "Expecting value"⟩

/-- The value comes back unchanged from `json.loads(json.dumps(value))`. -/
def JsonPreserved (value : PyVal) : Prop :=
  ∃ text, jsonDumps value = .ok text ∧ jsonLoads text = .ok value

end PaymentRecovery.Python
