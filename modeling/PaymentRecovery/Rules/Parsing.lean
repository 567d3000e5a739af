import PaymentRecovery.Rules.Validator

/-!
# What the parsers have read

For each parser of the validator, what it has read of a value when it returns. A parser returns
exactly then, so these lemmas are all that proofs need to know of its body.
-/

namespace PaymentRecovery.Rules

open PaymentRecovery.Python

theorem bind_ok {α β : Type} {x : Except PyExc α} {f : α → Except PyExc β} {b : β}
    (h : (x >>= f) = .ok b) : ∃ a, x = .ok a ∧ f a = .ok b := by
  cases x with
  | error exc => cases h
  | ok a => exact ⟨a, rfl, h⟩

/-- Mapping succeeds if each element does, and gives what each of them gives. -/
theorem mapM_ok_iff {α β : Type} {f : α → Except PyExc β} {as : List α} {bs : List β} :
    as.mapM f = .ok bs ↔ List.Forall₂ (fun a b => f a = .ok b) as bs := by
  induction as generalizing bs with
  | nil =>
    refine ⟨fun h => ?_, fun h => ?_⟩
    · injection h with h
      rw [← h]
      exact .nil
    · cases h
      rfl
  | cons a rest ih =>
    rw [List.mapM_cons]
    refine ⟨fun h => ?_, fun h => ?_⟩
    · obtain ⟨b, hb, h⟩ := bind_ok h
      obtain ⟨others, hothers, h⟩ := bind_ok h
      injection h with h
      rw [← h]
      exact .cons hb (ih.mp hothers)
    · cases h with
      | cons hb hothers =>
        rw [hb, ih.mpr hothers]
        rfl

variable {schema : Schema}

/-- What `_parse_predicate` has read of its members. -/
structure PredicateRead (schema : Schema) (items : List (PyKey × PyVal)) (spec : FieldSpec)
    (predicate : Predicate) : Prop where
  keys : hasExactKeys items ["field", "op", "value"] = true
  field : member items "field" = .str predicate.field
  known : schema.fields.get? predicate.field = some spec
  op : parseOperator (member items "op") spec.type = .ok predicate.op
  value : parseLiteral (member items "value") spec predicate.op schema = .ok predicate.value

theorem parsePredicate_ok_iff {node : PyVal} {predicate : Predicate} :
    parsePredicate node schema = .ok predicate ↔
      ∃ items spec, node = .dict items ∧ PredicateRead schema items spec predicate := by
  refine ⟨fun h => ?_, ?_⟩
  · unfold parsePredicate at h
    split at h
    case h_2 => cases h
    rename_i items
    split at h
    case isFalse => cases h
    rename_i hkeys
    split at h
    case h_2 => cases h
    rename_i field hfield
    split at h
    case h_1 => cases h
    rename_i spec hspec
    obtain ⟨op, hop, h⟩ := bind_ok h
    obtain ⟨value, hvalue, h⟩ := bind_ok h
    injection h with h
    subst h
    exact ⟨items, spec, rfl, hkeys, hfield, hspec, hop, hvalue⟩
  · rintro ⟨items, spec, rfl, hread⟩
    unfold parsePredicate
    simp only [hread.keys, if_true, hread.field, hread.known, hread.op, Bind.bind, Except.bind,
      hread.value]
    rfl

/-- What `_parse_precondition` has read. -/
structure PreconditionRead (schema : Schema) (items : List (PyKey × PyVal)) (nodes : List PyVal)
    (predicates : List Predicate) : Prop where
  keys : hasExactKeys items ["all"] = true
  all : sequence? (member items "all") = some nodes
  bounds : 1 ≤ nodes.length ∧ nodes.length ≤ schema.maxPredicates
  each : nodes.mapM (fun node => parsePredicate node schema) = .ok predicates

theorem parsePrecondition_ok_iff {node : PyVal} {predicates : List Predicate} :
    parsePrecondition node schema = .ok predicates ↔
      ∃ items nodes, node = .dict items ∧ PreconditionRead schema items nodes predicates := by
  refine ⟨fun h => ?_, ?_⟩
  · unfold parsePrecondition at h
    split at h
    case h_2 => cases h
    rename_i items
    split at h
    case isFalse => cases h
    rename_i hkeys
    split at h
    case h_1 => cases h
    rename_i nodes hnodes
    split at h
    case isFalse => cases h
    rename_i hbounds
    exact ⟨items, nodes, rfl, hkeys, hnodes, hbounds, h⟩
  · rintro ⟨items, nodes, rfl, hread⟩
    unfold parsePrecondition
    simp only [hread.keys, if_true, hread.all, if_pos hread.bounds]
    exact hread.each

/-- The arguments of an action, looked up under the names of its parameters. -/
def argumentsOf (params : List (PyKey × PyVal)) (declared : List (String × ParamSpec)) :
    Except PyExc (List (String × PyVal)) :=
  declared.mapM fun spec => do return (spec.1, ← scalar (member params spec.1) spec.2)

/-- What `_parse_action` has read. -/
structure ActionRead (schema : Schema) (items : List (PyKey × PyVal)) (spec : ActionSpec)
    (params : List (PyKey × PyVal)) (action : RuleAction) : Prop where
  keys : hasExactKeys items ["name"] = true ∨ hasExactKeys items ["name", "params"] = true
  name : member items "name" = .str action.name
  known : schema.actions.get? action.name = some spec
  given : (itemGet? items "params").getD (.dict []) = .dict params
  declared : hasExactKeys params (spec.params.entries.map Prod.fst) = true
  arguments : argumentsOf params spec.params.entries = .ok action.params

theorem parseAction_ok_iff {node : PyVal} {action : RuleAction} :
    parseAction node schema = .ok action ↔
      ∃ items spec params, node = .dict items ∧ ActionRead schema items spec params action := by
  refine ⟨fun h => ?_, ?_⟩
  · unfold parseAction at h
    split at h
    case h_2 => cases h
    rename_i items
    split at h
    case isFalse => cases h
    rename_i hkeys
    split at h
    case h_2 => cases h
    rename_i name hname
    split at h
    case h_1 => cases h
    rename_i spec hspec
    split at h
    case h_2 => cases h
    rename_i params hparams
    dsimp only at h
    split at h
    case isFalse => cases h
    rename_i hdeclared
    obtain ⟨arguments, harguments, h⟩ := bind_ok h
    injection h with h
    subst h
    exact ⟨items, spec, params, rfl, Bool.or_eq_true_iff.mp hkeys, hname, hspec, hparams, hdeclared,
      harguments⟩
  · rintro ⟨items, spec, params, rfl, hread⟩
    unfold parseAction
    simp only [Bool.or_eq_true_iff.mpr hread.keys, if_true, hread.name, hread.known, hread.given,
      hread.declared]
    show (argumentsOf params spec.params.entries >>= fun parsed => pure _) = _
    rw [hread.arguments]
    rfl

/-- What `parse_rule` has read. -/
structure RuleRead (schema : Schema) (items : List (PyKey × PyVal)) (rule : Rule) : Prop where
  keys : hasExactKeys items ["precondition", "action"] = true
  precondition : parsePrecondition (member items "precondition") schema = .ok rule.precondition
  action : parseAction (member items "action") schema = .ok rule.action

theorem parseRule_ok_iff {value : PyVal} {rule : Rule} :
    parseRule value schema = .ok rule ↔ ∃ items, value = .dict items ∧ RuleRead schema items rule := by
  refine ⟨fun h => ?_, ?_⟩
  · unfold parseRule at h
    split at h
    case h_2 => cases h
    rename_i items
    split at h
    case isFalse => cases h
    rename_i hkeys
    obtain ⟨precondition, hprecondition, h⟩ := bind_ok h
    obtain ⟨action, haction, h⟩ := bind_ok h
    injection h with h
    subst h
    exact ⟨items, rfl, hkeys, hprecondition, haction⟩
  · rintro ⟨items, rfl, hread⟩
    unfold parseRule
    simp only [hread.keys, if_true, hread.precondition, Bind.bind, Except.bind, hread.action]
    rfl

end PaymentRecovery.Rules
