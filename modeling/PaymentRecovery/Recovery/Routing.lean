import PaymentRecovery.Recovery.RulesRepo
import PaymentRecovery.Rules.Language
import PaymentRecovery.Rules.Matching

/-!
# Which rule decides

The query orders rows by priority alone, so rows of equal priority come in any
order. Whatever the order, the first matching rule decides, and rows that are
not ACTIVE or hold no rule have no say.
-/

namespace PaymentRecovery.Recovery

open PaymentRecovery.Python PaymentRecovery.Rules PaymentRecovery.Lib

/-- What the query may return: the rows of the status by priority, equal ones in any order. -/
structure Returned (status : RuleStatus) (rows returned : List RuleRow) : Prop where
  perm : returned.Perm (rows.filter fun row => row.status = status.value)
  sorted : returned.Pairwise fun a b => a.priority ≤ b.priority

/-- The query the model makes is one of them. -/
theorem returned_rowsOf (status : RuleStatus) (rows : List RuleRow) :
    Returned status rows (rowsOf status rows) := by
  have : Std.Total fun a b : RuleRow => a.priority ≤ b.priority := ⟨fun a b => le_total _ _⟩
  have : IsTrans RuleRow fun a b => a.priority ≤ b.priority := ⟨fun _ _ _ => le_trans⟩
  exact ⟨List.perm_insertionSort _ _, List.pairwise_insertionSort _ _⟩

/-- Rows that a query returned are returned as they are. -/
theorem rowsOf_returned {status : RuleStatus} {rows returned : List RuleRow}
    (h : Returned status rows returned) : rowsOf status returned = returned := by
  unfold rowsOf
  have hall : returned.filter (fun row => row.status = status.value) = returned := by
    refine List.filter_eq_self.mpr fun row hrow => ?_
    exact (List.mem_filter.mp (h.perm.mem_iff.mp hrow)).2
  rw [hall]
  exact h.sorted.insertionSort_eq

/-- The text of the row is a rule of the schema. -/
def HoldsRule (row : RuleRow) (rule : Rule) : Prop :=
  ∃ json, row.definitionJson = .doc json ∧ RuleForm paymentRuleSchema json.toPyVal rule

theorem acceptedRule_iff {row : RuleRow} {rule : Rule} :
    acceptedRule paymentRuleSchema row = some rule ↔ HoldsRule row rule := by
  unfold acceptedRule HoldsRule
  cases row.definitionJson with
  | malformed raw =>
    refine ⟨fun h => ?_, fun ⟨_, h, _⟩ => ?_⟩
    · cases h
    · cases h
  | doc json =>
    show (parseRule json.toPyVal paymentRuleSchema).toOption = some rule ↔ _
    have hparse : parseRule json.toPyVal paymentRuleSchema = .ok rule ↔
        RuleForm paymentRuleSchema json.toPyVal rule := parseRule_iff json.isJson_toPyVal
    cases hresult : parseRule json.toPyVal paymentRuleSchema with
    | error exc =>
      rw [hresult] at hparse
      refine ⟨fun h => ?_, fun ⟨json', hjson, hform⟩ => ?_⟩
      · cases h
      · injection hjson with hjson
        exact absurd (hparse.mpr (hjson ▸ hform)) (by simp)
    | ok parsed =>
      rw [hresult] at hparse
      refine ⟨fun h => ⟨json, rfl, hparse.mp ?_⟩, fun ⟨json', hjson, hform⟩ => ?_⟩
      · injection h with h
        rw [h]
      · injection hjson with hjson
        have hok := hparse.mpr (hjson ▸ hform)
        injection hok with hok
        rw [hok]
        rfl

/-- The row is ACTIVE, and holds a rule that matches. -/
def Applies (context : List (String × PyVal)) (row : RuleRow) (rule : Rule) : Prop :=
  row.status = RuleStatus.active.value ∧ HoldsRule row rule ∧ Matches rule context

/-- What routing by the row's rule says. -/
def decisionOf (row : RuleRow) (rule : Rule) : RoutingDecision :=
  ⟨.deterministic, some rule.action.name, some rule.action.params, some row.ruleKey,
    some row.version⟩

/-- The decision is that of a rule that applies and has the least priority number of those that
do, or there is none. -/
structure RoutedBy (rows : List RuleRow) (context : List (String × PyVal))
    (decision : RoutingDecision) : Prop where
  chosen : decision.route = .deterministic → ∃ row ∈ rows, ∃ rule, Applies context row rule ∧
    (∀ other ∈ rows, ∀ rule', Applies context other rule' → row.priority ≤ other.priority) ∧
    decision = decisionOf row rule
  escalated : decision.route = .escalateToAgent ↔ ∀ row ∈ rows, ∀ rule, ¬ Applies context row rule
  bare : decision.route = .escalateToAgent → decision = { route := .escalateToAgent }

/-- The row's decision, if its rule is accepted and matches. -/
def offer (context : List (String × PyVal)) (row : RuleRow) : Option RoutingDecision :=
  match acceptedRule paymentRuleSchema row with
  | some rule => if evaluate rule context then some (decisionOf row rule) else none
  | none => none

theorem offer_eq_some {context : List (String × PyVal)} {row : RuleRow} {decision : RoutingDecision} :
    offer context row = some decision ↔
      ∃ rule, HoldsRule row rule ∧ Matches rule context ∧ decision = decisionOf row rule := by
  unfold offer
  cases haccepted : acceptedRule paymentRuleSchema row with
  | none =>
    refine ⟨fun h => ?_, fun ⟨rule, hrule, _⟩ => ?_⟩
    · cases h
    · rw [acceptedRule_iff.mpr hrule] at haccepted
      cases haccepted
  | some rule =>
    refine ⟨fun h => ?_, fun ⟨rule', hrule, hmatches, hdecision⟩ => ?_⟩
    · dsimp only at h
      split at h
      · rename_i hevaluate
        injection h with h
        exact ⟨rule, acceptedRule_iff.mp haccepted, evaluate_iff.mp hevaluate, h.symm⟩
      · cases h
    · rw [acceptedRule_iff.mpr hrule] at haccepted
      injection haccepted with haccepted
      subst haccepted
      dsimp only
      rw [if_pos (evaluate_iff.mpr hmatches), hdecision]

/-- The decision for a loaded rule. -/
def decisionFor (loaded : LoadedRule) : RoutingDecision :=
  ⟨.deterministic, some loaded.rule.action.name, some loaded.rule.action.params,
    some loaded.ruleKey, some loaded.version⟩

/-- The first loaded rule that matches is the one of the first row with an offer. -/
theorem find_offer {context : List (String × PyVal)} {returned : List RuleRow}
    {loaded : List LoadedRule}
    (h : List.Forall₂ (LoadedFrom paymentRuleSchema)
      (returned.filter fun row => (acceptedRule paymentRuleSchema row).isSome) loaded) :
    (loaded.find? fun l => evaluate l.rule context).map decisionFor =
      returned.findSome? (offer context) := by
  induction returned generalizing loaded with
  | nil =>
    cases h
    rfl
  | cons row rest ih =>
    cases haccepted : acceptedRule paymentRuleSchema row with
    | none =>
      rw [List.filter_cons_of_neg (by simp [haccepted])] at h
      have hoffer : offer context row = none := by
        unfold offer
        rw [haccepted]
      rw [List.findSome?_cons, hoffer]
      exact ih h
    | some rule =>
      rw [List.filter_cons_of_pos (by simp [haccepted])] at h
      cases h with
      | @cons _ l _ others hfirst hrest =>
        have hrule : rule = l.rule := Option.some.inj (haccepted.symm.trans hfirst.rule)
        subst hrule
        have hoffer : offer context row =
            if evaluate l.rule context then some (decisionFor l) else none := by
          unfold offer decisionOf decisionFor
          rw [haccepted, hfirst.ruleKey, hfirst.version]
        rw [List.findSome?_cons, hoffer, List.find?_cons]
        cases hevaluate : evaluate l.rule context with
        | true => rfl
        | false => exact ih hrest

/-- Routing over the rows a query returned takes the first offer. -/
theorem route_returned {rows returned : List RuleRow} {context : List (String × PyVal)}
    (hreturned : Returned .active rows returned)
    (hlegible : ∀ row ∈ rows, row.status = RuleStatus.active.value → Legible paymentRuleSchema row) :
    route returned context =
      .ok ((returned.findSome? (offer context)).getD { route := .escalateToAgent }) := by
  have hrows : ∀ row ∈ returned, Legible paymentRuleSchema row := by
    intro row hrow
    obtain ⟨hmem, hstatus⟩ := List.mem_filter.mp (hreturned.perm.mem_iff.mp hrow)
    exact hlegible row hmem (of_decide_eq_true hstatus)
  obtain ⟨loaded, hloaded⟩ := (mapM_loadRow returned).1.mpr hrows
  have hactive : activeRules returned = .ok (loaded.filterMap id) := by
    have h := listByStatus_eq paymentRuleSchema .active returned
    rw [rowsOf_returned hreturned, hloaded] at h
    exact h
  rw [← find_offer ((mapM_loadRow returned).2 loaded hloaded)]
  unfold route
  rw [hactive]
  simp only [Bind.bind, Except.bind]
  cases (loaded.filterMap id).find? fun l => evaluate l.rule context with
  | none => rfl
  | some l => rfl

theorem mem_returned {rows returned : List RuleRow} (h : Returned .active rows returned)
    {row : RuleRow} : row ∈ returned ↔ row ∈ rows ∧ row.status = RuleStatus.active.value := by
  rw [h.perm.mem_iff, List.mem_filter, decide_eq_true_iff]

/-- The first offer is the one that counts. -/
theorem routedBy_offers {rows returned : List RuleRow} {context : List (String × PyVal)}
    (h : Returned .active rows returned) :
    RoutedBy rows context
      ((returned.findSome? (offer context)).getD { route := .escalateToAgent }) := by
  cases hfind : returned.findSome? (offer context) with
  | none =>
    refine ⟨fun hroute => (by cases hroute), ⟨fun _ row hrow rule happlies => ?_, fun _ => rfl⟩,
      fun _ => rfl⟩
    obtain ⟨hactive, hrule, hmatches⟩ := happlies
    have hnone := List.findSome?_eq_none_iff.mp hfind row ((mem_returned h).mpr ⟨hrow, hactive⟩)
    rw [offer_eq_some.mpr ⟨rule, hrule, hmatches, rfl⟩] at hnone
    cases hnone
  | some decision =>
    obtain ⟨before, row, after, hsplit, hoffer, hbefore⟩ := List.findSome?_eq_some_iff.mp hfind
    obtain ⟨rule, hrule, hmatches, rfl⟩ := offer_eq_some.mp hoffer
    have hmem : row ∈ returned := hsplit ▸ List.mem_append_right _ List.mem_cons_self
    obtain ⟨hrow, hactive⟩ := (mem_returned h).mp hmem
    refine ⟨fun _ => ⟨row, hrow, rule, ⟨hactive, hrule, hmatches⟩, ?_, rfl⟩, ⟨?_, ?_⟩, ?_⟩
    · -- whoever applies stands at the row or after it
      rintro other hother rule' ⟨hactive', hrule', hmatches'⟩
      have hin := (mem_returned h).mpr ⟨hother, hactive'⟩
      have hsorted := h.sorted
      rw [hsplit] at hin hsorted
      rcases List.mem_append.mp hin with hearly | hlate
      · have hnone := hbefore other hearly
        rw [offer_eq_some.mpr ⟨rule', hrule', hmatches', rfl⟩] at hnone
        cases hnone
      · rcases List.mem_cons.mp hlate with rfl | hlate
        · exact le_refl _
        · exact (List.pairwise_cons.mp (List.pairwise_append.mp hsorted).2.1).1 other hlate
    · intro hroute
      cases hroute
    · exact fun hnone => absurd ⟨hactive, hrule, hmatches⟩ (hnone row hrow rule)
    · intro hroute
      cases hroute

/-! ## Rows that have no say -/

/-- The rows that do: ACTIVE ones that hold a rule, in their order. -/
def live (rows : List RuleRow) : List RuleRow :=
  rows.filter fun row =>
    row.status = RuleStatus.active.value ∧ (acceptedRule paymentRuleSchema row).isSome = true

/-- Only live rows make offers. -/
theorem findSome?_live {context : List (String × PyVal)} {returned : List RuleRow}
    (h : ∀ row ∈ returned, row.status = RuleStatus.active.value) :
    (live returned).findSome? (offer context) = returned.findSome? (offer context) := by
  induction returned with
  | nil => rfl
  | cons row rest ih =>
    obtain ⟨hactive, hrest⟩ := List.forall_mem_cons.mp h
    unfold live at ih ⊢
    cases haccepted : acceptedRule paymentRuleSchema row with
    | none =>
      have hoffer : offer context row = none := by
        unfold offer
        rw [haccepted]
      rw [List.filter_cons_of_neg (by simp [haccepted]), List.findSome?_cons, hoffer]
      exact ih hrest
    | some rule =>
      rw [List.filter_cons_of_pos (by simp [haccepted, hactive]), List.findSome?_cons,
        List.findSome?_cons, ih hrest]

/-- The rows of a table can be read: the JSON of each is JSON. -/
def Decodes (rows : List RuleRow) : Prop :=
  ∀ row ∈ rows, (∃ definition, jsonLoads row.definitionJson = .ok definition) ∧
    ∃ provenance, jsonLoads row.provenanceJson = .ok provenance

theorem Decodes.legible {rows : List RuleRow} (h : Decodes rows) :
    ∀ row ∈ rows, row.status = RuleStatus.active.value → Legible paymentRuleSchema row :=
  fun row hrow _ => ⟨(h row hrow).1, fun _ => (h row hrow).2⟩

/-- The decision is made, by a rule of the least priority number among those that apply. -/
def RoutesExactly (rows returned : List RuleRow) (context : List (String × PyVal)) : Prop :=
  ∃ decision, route returned context = .ok decision ∧ RoutedBy rows context decision

/-- **Routing.** Over a table whose JSON decodes, in whatever order the query returns rows of equal
priority: the decision is that of an ACTIVE rule that matches, with the least priority number, or
escalation if there is none; another table with the same live rows in the same order gives the
same decision; and a field that the context lacks meets no predicate. -/
theorem routing_exact (rows returned : List RuleRow) (context : List (String × PyVal))
    (hdecodes : Decodes rows) (hreturned : Returned .active rows returned) :
    RoutesExactly rows returned context ∧
    (∀ rows' returned', Decodes rows' → Returned .active rows' returned' →
      live returned' = live returned → route returned' context = route returned context) ∧
    ∀ rule, ∀ p ∈ rule.precondition, contextGet? context p.field = none →
      evaluate rule context = false := by
  refine ⟨⟨_, route_returned hreturned hdecodes.legible, routedBy_offers hreturned⟩, ?_, ?_⟩
  · intro rows' returned' hdecodes' hreturned' hlive
    have hactive : ∀ {rows returned : List RuleRow}, Returned .active rows returned →
        ∀ row ∈ returned, row.status = RuleStatus.active.value :=
      fun h row hrow => ((mem_returned h).mp hrow).2
    rw [route_returned hreturned hdecodes.legible, route_returned hreturned' hdecodes'.legible,
      ← findSome?_live (hactive hreturned), ← findSome?_live (hactive hreturned'), hlive]
  · intro rule p hp hmissing
    by_contra h
    obtain ⟨actual, hactual, _⟩ := evaluate_iff.mp (Bool.of_not_eq_false h) p hp
    rw [hmissing] at hactual
    cases hactual

/-- A rule on small amounts. -/
def Sample.smallAmount (ruleKey action : String) : RuleRow :=
  ⟨ruleKey, 1, "active", 10, .doc (.obj [("precondition", .obj [("all", .arr [.obj
      [("field", .str "amount_inr"), ("op", .str "lt"), ("value", .int 100)]])]),
    ("action", .obj [("name", .str action)])]), .doc (.obj [])⟩

/-- Two rules of equal priority, returned the other way round. -/
theorem routing_exact_tied : RoutesExactly
    [Sample.smallAmount "a" "no_action", Sample.smallAmount "b" "escalate_to_human"]
    [Sample.smallAmount "b" "escalate_to_human", Sample.smallAmount "a" "no_action"]
    [("amount_inr", .float 50)] := by
  refine (routing_exact _ _ _ ?_ ⟨?_, ?_⟩).1
  · intro row hrow
    rcases List.mem_cons.mp hrow with rfl | hrow
    · exact ⟨⟨_, rfl⟩, ⟨_, rfl⟩⟩
    · rw [List.mem_singleton.mp hrow]
      exact ⟨⟨_, rfl⟩, ⟨_, rfl⟩⟩
  · exact List.Perm.swap _ _ []
  · exact List.pairwise_pair.mpr (le_refl _)

end PaymentRecovery.Recovery
