import PaymentRecovery.Rules.Grammar

/-!
# Evaluating a rule

Comparisons go through a fixed table. A missing context field or incomparable
types make the predicate false.
-/

namespace PaymentRecovery.Rules

open PaymentRecovery.Python

/-- The dispatch table; `none` is a `TypeError`. -/
def compare (op : Operator) (actual value : PyVal) : Option Bool :=
  match op with
  | .eq => some (scalarEq actual value)
  | .ne => some (!scalarEq actual value)
  | .lt => scalarLt actual value
  | .le => (scalarLt value actual).map (!·)
  | .gt => scalarLt value actual
  | .ge => (scalarLt actual value).map (!·)
  | .isIn =>
    match value with
    | .tuple allowed => some (allowed.any fun item => scalarEq actual item)
    | _ => none

/-- The value of a context field. -/
def contextGet? (context : List (String × PyVal)) (field : String) : Option PyVal :=
  (context.find? fun entry => entry.1 = field).map Prod.snd

/-- Does the predicate hold for `context`? -/
def holds (context : List (String × PyVal)) (predicate : Predicate) : Bool :=
  match contextGet? context predicate.field with
  | none => false
  | some actual => (compare predicate.op actual predicate.value).getD false

/-- `True` iff every predicate holds for `context`. -/
def evaluate (rule : Rule) (context : List (String × PyVal)) : Bool :=
  rule.precondition.all (holds context)

end PaymentRecovery.Rules
