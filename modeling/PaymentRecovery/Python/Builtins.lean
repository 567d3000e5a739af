import PaymentRecovery.Python.Floats
import PaymentRecovery.Python.Value
import Mathlib.Algebra.Order.Field.Rat
import Mathlib.Data.List.Sort

/-!
# Built-ins the code leans on

Slicing, `str`, `repr`, sorting of strings, conversion to `float` and `int`, and
the comparison of scalars.
-/

namespace PaymentRecovery.Python

/-- `s[:n]`. -/
def takeChars (n : Nat) (s : String) : String :=
  String.ofList (s.toList.take n)

/-- What follows `start`, if `s.startswith(start)`. -/
def afterPrefix (start s : String) : Option String :=
  if start.toList <+: s.toList then some (String.ofList (s.toList.drop start.toList.length)) else none

theorem afterPrefix_append (start rest : String) :
    afterPrefix start (start ++ rest) = some rest := by
  unfold afterPrefix
  rw [String.toList_append, if_pos (List.prefix_append _ _)]
  simp

/-- `sorted(texts)`. -/
def sortedTexts (texts : List String) : List String :=
  texts.insertionSort (· ≤ ·)

/-- `str(key)`. -/
def PyKey.text : PyKey → String
  | .str s => s
  | .scalar strText _ => strText
  | .other _ strText => strText

/-- `type(value).__name__`. -/
def PyVal.typeName : PyVal → String
  | .none => "NoneType"
  | .bool _ => "bool"
  | .int _ => "int"
  | .float _ => "float"
  | .str _ => "str"
  | .list _ => "list"
  | .tuple _ => "tuple"
  | .dict _ => "dict"
  | .object typeName _ => typeName

/-- The largest integer that rounds to a finite double, plus one. -/
def floatOverflow : Nat := 2 ^ 1024 - 2 ^ 970

/-- `float(value)`, for a number. -/
def toFloat : PyVal → Except PyExc ℚ
  | .float x => .ok x
  | .int i =>
    if i.natAbs < floatOverflow then .ok i
    else .error ⟨.other "OverflowError", "int too large to convert to float"⟩
  | v => .error ⟨.typeError, "float() argument must be a string or a real number, not '" ++
      v.typeName ++ "'"⟩

/-- `repr(key)`. -/
def PyKey.repr : PyKey → String
  | .str s => strRepr s
  | .scalar strText _ => strText
  | .other _ strText => strText

mutual

/-- `repr(value)`. -/
def PyVal.repr : PyVal → String
  | .none => "None"
  | .bool b => if b then "True" else "False"
  | .int i => toString i
  | .float x => floatRepr x
  | .str s => strRepr s
  | .list items => "[" ++ ", ".intercalate (reprItems items) ++ "]"
  | .tuple [item] => "(" ++ item.repr ++ ",)"
  | .tuple items => "(" ++ ", ".intercalate (reprItems items) ++ ")"
  | .dict items => "\x7b" ++ ", ".intercalate (reprMembers items) ++ "\x7d"
  | .object _ strText => strText

def reprItems : List PyVal → List String
  | [] => []
  | v :: rest => v.repr :: reprItems rest

def reprMembers : List (PyKey × PyVal) → List String
  | [] => []
  | (k, v) :: rest => (k.repr ++ ": " ++ v.repr) :: reprMembers rest

end

/-- `str(value)`. -/
def PyVal.text : PyVal → String
  | .str s => s
  | v => v.repr

mutual

/-- The value with every mapping sorted by its keys, as `sort_keys=True` writes it. -/
def PyVal.sortKeys : PyVal → PyVal
  | .list items => .list (sortKeysItems items)
  | .tuple items => .tuple (sortKeysItems items)
  | .dict items => .dict ((sortKeysMembers items).insertionSort fun a b => a.1.text ≤ b.1.text)
  | v => v

def sortKeysItems : List PyVal → List PyVal
  | [] => []
  | v :: rest => v.sortKeys :: sortKeysItems rest

def sortKeysMembers : List (PyKey × PyVal) → List (PyKey × PyVal)
  | [] => []
  | (k, v) :: rest => (k, v.sortKeys) :: sortKeysMembers rest

end

/-! ## Numbers -/

/-- `float(value)`; `ofText` reads a text. -/
def floatOf (ofText : String → Except PyExc ℚ) : PyVal → Except PyExc ℚ
  | .bool b => .ok (if b then 1 else 0)
  | .str s => ofText s
  | v => toFloat v

/-- `int(value)`; `ofText` reads a text. -/
def intOf (ofText : String → Except PyExc Int) : PyVal → Except PyExc Int
  | .bool b => .ok (if b then 1 else 0)
  | .int i => .ok i
  | .float x => .ok (x.num.tdiv x.den)
  | .str s => ofText s
  | v => .error ⟨.typeError, "int() argument must be a string, a bytes-like object or a real " ++
      "number, not '" ++ v.typeName ++ "'"⟩

/-! ## Mappings -/

/-- `value.get(key, fallback)`. -/
def getKey (value : PyVal) (key : String) (fallback : PyVal) : Except PyExc PyVal :=
  match value with
  | .dict items => .ok ((itemGet? items key).getD fallback)
  | other => .error ⟨.other "AttributeError",
      "'" ++ other.typeName ++ "' object has no attribute 'get'"⟩

/-- `value[key]`. -/
def getItem (value : PyVal) (key : String) : Except PyExc PyVal :=
  match value with
  | .dict items =>
    match itemGet? items key with
    | some item => .ok item
    | none => .error ⟨.keyError, strRepr key⟩
  | .str _ => .error ⟨.typeError, "string indices must be integers, not 'str'"⟩
  | .list _ => .error ⟨.typeError, "list indices must be integers or slices, not str"⟩
  | .tuple _ => .error ⟨.typeError, "tuple indices must be integers or slices, not str"⟩
  | other => .error ⟨.typeError, "'" ++ other.typeName ++ "' object is not subscriptable"⟩

/-! ## Comparing scalars -/

/-- The number a value is in comparisons: `True` is 1 and `False` is 0. -/
def PyVal.number? : PyVal → Option ℚ
  | .bool b => some (if b then 1 else 0)
  | .int i => some i
  | .float x => some x
  | _ => Option.none

/-- `a == b`, for scalars. -/
def scalarEq (a b : PyVal) : Bool :=
  match a.number?, b.number? with
  | some x, some y => x = y
  | some _, Option.none | Option.none, some _ => false
  | Option.none, Option.none =>
    match a, b with
    | .str s, .str t => s = t
    | .none, .none => true
    | _, _ => false

/-- `a < b`, for scalars; `none` is a `TypeError`. -/
def scalarLt (a b : PyVal) : Option Bool :=
  match a.number?, b.number? with
  | some x, some y => some (x < y)
  | some _, Option.none | Option.none, some _ => Option.none
  | Option.none, Option.none =>
    match a, b with
    | .str s, .str t => some (s < t)
    | _, _ => Option.none

end PaymentRecovery.Python
