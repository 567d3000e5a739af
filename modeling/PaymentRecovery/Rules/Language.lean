import PaymentRecovery.Python.JsonValues
import PaymentRecovery.Rules.RoundTrip

/-!
# The closed language of rules

Which JSON values are rules, said without a parser: what each part of a rule
looks like, and what it means. `parse_rule` accepts exactly these values.
-/

namespace PaymentRecovery.Rules

open PaymentRecovery.Python PaymentRecovery.Lib

/-- An object with exactly these members, in any order. -/
def ObjectOf (value : PyVal) (members : List (String × PyVal)) : Prop :=
  ∃ items, value = .dict items ∧ items.Perm (members.map fun (name, v) => (.str name, v))

/-- A literal of the type. A bool is no number. -/
inductive Literal (spec : FieldSpec) : PyVal → Prop
  | int (i : Int) : spec.type = .number → Literal spec (.int i)
  | float (x : ℚ) : spec.type = .number → Literal spec (.float x)
  | string (s : String) : spec.type = .string → Literal spec (.str s)
  | bool (b : Bool) : spec.type = .bool → Literal spec (.bool b)
  | member (s : String) : spec.type = .enum → s ∈ spec.allowedValues → Literal spec (.str s)

/-- How an operator is spelled. -/
def Operator.value : Operator → String
  | .eq => "eq"
  | .ne => "ne"
  | .lt => "lt"
  | .le => "le"
  | .gt => "gt"
  | .ge => "ge"
  | .isIn => "in"

/-- What may stand right of an operator, and what it is read as: literals, in a list for `in`. -/
inductive Operand (schema : Schema) (spec : FieldSpec) : Operator → PyVal → PyVal → Prop
  | one {op value} : op ≠ .isIn → Literal spec value → Operand schema spec op value value
  | many {items} : 1 ≤ items.length → items.length ≤ schema.maxInList →
      (∀ item ∈ items, Literal spec item) → Operand schema spec .isIn (.list items) (.tuple items)

/-- `{"field", "op", "value"}`. -/
inductive PredicateForm (schema : Schema) : PyVal → Predicate → Prop
  | mk {node field op raw value spec} :
      ObjectOf node [("field", .str field), ("op", .str op.value), ("value", raw)] →
      schema.fields.get? field = some spec → op ∈ allowedOperators spec.type →
      Operand schema spec op raw value → PredicateForm schema node ⟨field, op, value⟩

/-- `{"all": [..]}`. -/
inductive PreconditionForm (schema : Schema) : PyVal → List Predicate → Prop
  | mk {node nodes predicates} : ObjectOf node [("all", .list nodes)] →
      1 ≤ nodes.length → nodes.length ≤ schema.maxPredicates →
      List.Forall₂ (PredicateForm schema) nodes predicates → PreconditionForm schema node predicates

/-- The argument of a declared parameter. -/
def ArgumentOf (declared : String × ParamSpec) (argument : String × PyVal) : Prop :=
  argument.1 = declared.1 ∧ Literal declared.2 argument.2

/-- `{"name", "params"}`; the params may be left out where none are declared. -/
inductive ActionForm (schema : Schema) : PyVal → RuleAction → Prop
  | full {node name spec params arguments} :
      ObjectOf node [("name", .str name), ("params", params)] →
      schema.actions.get? name = some spec → ObjectOf params arguments →
      List.Forall₂ ArgumentOf spec.params.entries arguments → ActionForm schema node ⟨name, arguments⟩
  | bare {node name spec} : ObjectOf node [("name", .str name)] →
      schema.actions.get? name = some spec → spec.params.entries = [] →
      ActionForm schema node ⟨name, []⟩

/-- `{"precondition", "action"}`. -/
inductive RuleForm (schema : Schema) : PyVal → Rule → Prop
  | mk {value precondition action predicates act} :
      ObjectOf value [("precondition", precondition), ("action", action)] →
      PreconditionForm schema precondition predicates → ActionForm schema action act →
      RuleForm schema value ⟨predicates, act⟩

/-! ## Objects -/

theorem hasExactKeys_iff {items : List (PyKey × PyVal)} {names : List String} :
    hasExactKeys items names = true ↔ ∀ key, key ∈ items.map Prod.fst ↔ key ∈ names.map PyKey.str := by
  unfold hasExactKeys
  simp only [Bool.and_eq_true, List.all_eq_true, decide_eq_true_eq]
  refine ⟨fun ⟨hin, hall⟩ key => ⟨hin key, fun hkey => ?_⟩,
    fun h => ⟨fun key hkey => (h key).mp hkey, fun name hname => ?_⟩⟩
  · obtain ⟨name, hname, rfl⟩ := List.mem_map.mp hkey
    exact hall name hname
  · exact (h _).mpr (List.mem_map_of_mem hname)

theorem itemGet?_mem {items : List (PyKey × PyVal)} {name : String} {value : PyVal}
    (h : itemGet? items name = some value) : (PyKey.str name, value) ∈ items := by
  induction items with
  | nil => cases h
  | cons item rest ih =>
    obtain ⟨k, v⟩ := item
    unfold itemGet? at h
    by_cases hk : k = .str name
    · rw [if_pos hk] at h
      injection h with h
      rw [hk, h]
      exact List.mem_cons_self
    · rw [if_neg hk] at h
      exact List.mem_cons_of_mem _ (ih h)

theorem itemGet?_none {items : List (PyKey × PyVal)} {name : String} :
    itemGet? items name = none ↔ PyKey.str name ∉ items.map Prod.fst := by
  induction items with
  | nil => simp [itemGet?]
  | cons item rest ih =>
    obtain ⟨k, v⟩ := item
    unfold itemGet?
    by_cases hk : k = .str name
    · simp [hk]
    · rw [if_neg hk, ih, List.map_cons, List.mem_cons, not_or]
      exact ⟨fun h => ⟨fun heq => hk heq.symm, h⟩, fun h => h.2⟩

/-- The members of an object are found under their names, and there are no others. -/
theorem ObjectOf.members {items : List (PyKey × PyVal)} {members : List (String × PyVal)}
    (hnodup : (items.map Prod.fst).Nodup) (h : ObjectOf (.dict items) members) :
    hasExactKeys items (members.map Prod.fst) = true ∧
    ∀ entry ∈ members, itemGet? items entry.1 = some entry.2 := by
  obtain ⟨items', hitems, hperm⟩ := h
  injection hitems with hitems
  subst hitems
  refine ⟨hasExactKeys_iff.mpr fun key => ?_, fun entry hentry => ?_⟩
  · rw [(hperm.map Prod.fst).mem_iff, List.map_map, List.map_map]
    rfl
  · refine itemGet?_of_mem hnodup (hperm.mem_iff.mpr ?_)
    exact List.mem_map.mpr ⟨entry, hentry, rfl⟩

/-- An object with exactly these keys, member by member. -/
theorem ObjectOf.of_keys {items : List (PyKey × PyVal)} {names : List String}
    (hnodup : (items.map Prod.fst).Nodup) (hnames : names.Nodup)
    (hkeys : hasExactKeys items names = true) :
    ObjectOf (.dict items) (names.map fun name => (name, member items name)) := by
  refine ⟨items, rfl, ?_⟩
  rw [List.map_map]
  have hlisted : (names.map ((fun (name, v) => (PyKey.str name, v)) ∘
      fun name => (name, member items name))).Nodup := by
    refine hnames.map fun a b hab => ?_
    injection hab with hkey _
    injection hkey
  refine (List.perm_ext_iff_of_nodup (List.Nodup.of_map _ hnodup) hlisted).mpr fun item => ?_
  obtain ⟨key, value⟩ := item
  rw [List.mem_map]
  refine ⟨fun hitem => ?_, ?_⟩
  · obtain ⟨name, hname, rfl⟩ :=
      List.mem_map.mp ((hasExactKeys_iff.mp hkeys key).mp (List.mem_map_of_mem hitem))
    refine ⟨name, hname, ?_⟩
    show (PyKey.str name, member items name) = _
    unfold member
    rw [itemGet?_of_mem hnodup hitem]
    rfl
  · rintro ⟨name, hname, hpair⟩
    injection hpair with hkey hvalue
    rw [← hkey, ← hvalue]
    refine itemGet?_mem ?_
    unfold member
    cases hget : itemGet? items name with
    | some v => rfl
    | none =>
      exact absurd ((hasExactKeys_iff.mp hkeys _).mpr (List.mem_map_of_mem hname))
        (itemGet?_none.mp hget)

theorem ObjectOf.member {items : List (PyKey × PyVal)} {members : List (String × PyVal)}
    (hnodup : (items.map Prod.fst).Nodup) (h : ObjectOf (.dict items) members) {name : String}
    {value : PyVal} (hmem : (name, value) ∈ members) : member items name = value := by
  unfold Rules.member
  rw [(h.members hnodup).2 (name, value) hmem]
  rfl

theorem isJson_member {items : List (PyKey × PyVal)} (h : IsJsonItems items) (name : String) :
    IsJson (member items name) := by
  unfold member
  cases hget : itemGet? items name with
  | none => trivial
  | some value => exact (isJsonItems_iff.mp h _ (itemGet?_mem hget)).2

/-! ## What each function accepts -/

theorem ofValue?_eq_some {text : String} {op : Operator} :
    Operator.ofValue? text = some op ↔ text = op.value := by
  refine ⟨fun h => ?_, fun h => ?_⟩
  · unfold Operator.ofValue? at h
    split_ifs at h <;> injection h with h <;> rw [← h] <;> assumption
  · rw [h]
    cases op <;> rfl

theorem scalar_iff {value result : PyVal} {spec : FieldSpec} :
    scalar value spec = .ok result ↔ result = value ∧ Literal spec value := by
  refine ⟨fun h => ?_, ?_⟩
  · refine ⟨(scalar_reads h).1, ?_⟩
    unfold scalar at h
    split at h
    case h_1 htype => exact .int _ htype
    case h_2 htype => exact .float _ htype
    case h_4 htype => exact .string _ htype
    case h_6 htype => exact .bool _ htype
    case h_8 htype =>
      split at h
      case isTrue hin => exact .member _ htype hin
      case isFalse => cases h
    all_goals cases h
  · rintro ⟨rfl, hliteral⟩
    unfold scalar
    cases hliteral with
    | int i htype => rw [htype]
    | float x htype => rw [htype]
    | string s htype => rw [htype]
    | bool b htype => rw [htype]
    | member s htype hin =>
      rw [htype]
      dsimp only
      rw [if_pos hin]

theorem mapM_scalar_iff {items results : List PyVal} {spec : FieldSpec} :
    items.mapM (fun item => scalar item spec) = .ok results ↔
      results = items ∧ ∀ item ∈ items, Literal spec item := by
  rw [mapM_ok_iff]
  refine ⟨fun h => ?_, ?_⟩
  · induction h with
    | nil => exact ⟨rfl, fun _ hitem => absurd hitem List.not_mem_nil⟩
    | cons hfirst _ ih =>
      obtain ⟨rfl, hliteral⟩ := scalar_iff.mp hfirst
      exact ⟨by rw [ih.1], List.forall_mem_cons.mpr ⟨hliteral, ih.2⟩⟩
  · rintro ⟨rfl, hall⟩
    exact List.forall₂_same.mpr fun item hitem => scalar_iff.mpr ⟨rfl, hall item hitem⟩

theorem parseOperator_iff {raw : PyVal} {type : FieldType} {op : Operator} :
    parseOperator raw type = .ok op ↔ raw = .str op.value ∧ op ∈ allowedOperators type := by
  unfold parseOperator
  refine ⟨fun h => ?_, ?_⟩
  · split at h
    case h_2 => cases h
    rename_i text
    split at h
    case h_1 => cases h
    rename_i op' hop
    split at h
    case isFalse => cases h
    rename_i hallowed
    injection h with h
    subst h
    rw [ofValue?_eq_some.mp hop]
    exact ⟨rfl, hallowed⟩
  · rintro ⟨rfl, hallowed⟩
    simp only [ofValue?_eq_some.mpr (rfl : op.value = op.value), if_pos hallowed]

theorem sequence?_iff {value : PyVal} {items : List PyVal} (hjson : IsJson value) :
    sequence? value = some items ↔ value = .list items := by
  refine ⟨fun h => ?_, fun h => by rw [h]; rfl⟩
  unfold sequence? at h
  split at h
  · injection h with h
    rw [h]
  · exact hjson.elim
  · cases h

theorem parseLiteral_iff {value result : PyVal} {spec : FieldSpec} {op : Operator}
    {schema : Schema} (hjson : IsJson value) :
    parseLiteral value spec op schema = .ok result ↔ Operand schema spec op value result := by
  unfold parseLiteral
  by_cases hop : op = .isIn
  · subst hop
    rw [if_pos rfl]
    refine ⟨fun h => ?_, fun h => ?_⟩
    · split at h
      case h_1 => cases h
      rename_i items hitems
      split at h
      case isFalse => cases h
      rename_i hlength
      obtain ⟨results, hresults, hresult⟩ := bind_ok h
      injection hresult with hresult
      obtain ⟨rfl, hall⟩ := mapM_scalar_iff.mp hresults
      rw [← hresult, (sequence?_iff hjson).mp hitems]
      exact .many hlength.1 hlength.2 hall
    · cases h with
      | one hne => exact absurd rfl hne
      | many hleast hmost hall =>
        simp only [sequence?, if_pos (And.intro hleast hmost), mapM_scalar_iff.mpr ⟨rfl, hall⟩]
        rfl
  · rw [if_neg hop, scalar_iff]
    refine ⟨?_, fun h => ?_⟩
    · rintro ⟨rfl, hliteral⟩
      exact .one hop hliteral
    · cases h with
      | one _ hliteral => exact ⟨rfl, hliteral⟩
      | many => exact absurd rfl hop

/-- A value with the members of an object is a dictionary. -/
theorem ObjectOf.dict {value : PyVal} {members : List (String × PyVal)} (h : ObjectOf value members) :
    ∃ items, value = .dict items := by
  obtain ⟨items, hitems, _⟩ := h
  exact ⟨items, hitems⟩

theorem parsePredicate_iff {node : PyVal} {schema : Schema} {predicate : Predicate}
    (hjson : IsJson node) :
    parsePredicate node schema = .ok predicate ↔ PredicateForm schema node predicate := by
  refine ⟨fun h => ?_, fun h => ?_⟩
  · obtain ⟨items, spec, rfl, hread⟩ := parsePredicate_ok_iff.mp h
    obtain ⟨hop, hallowed⟩ := parseOperator_iff.mp hread.op
    have hform := ObjectOf.of_keys hjson.1 (by decide) hread.keys
    rw [List.map_cons, List.map_cons, List.map_singleton, hread.field, hop] at hform
    exact .mk hform hread.known hallowed
      ((parseLiteral_iff (isJson_member hjson.2 _)).mp hread.value)
  · obtain ⟨hform, hspec, hallowed, hoperand⟩ := h
    obtain ⟨items, rfl⟩ := hform.dict
    have hfield := hform.member hjson.1 List.mem_cons_self
    have hop := hform.member hjson.1 (List.mem_cons_of_mem _ List.mem_cons_self)
    have hraw := hform.member hjson.1
      (List.mem_cons_of_mem _ (List.mem_cons_of_mem _ List.mem_cons_self))
    refine parsePredicate_ok_iff.mpr
      ⟨items, _, rfl, (hform.members hjson.1).1, hfield, hspec, ?_, ?_⟩
    · rw [hop]
      exact parseOperator_iff.mpr ⟨rfl, hallowed⟩
    · exact (parseLiteral_iff (isJson_member hjson.2 _)).mpr (hraw.symm ▸ hoperand)

theorem parsePrecondition_iff {node : PyVal} {schema : Schema} {predicates : List Predicate}
    (hjson : IsJson node) :
    parsePrecondition node schema = .ok predicates ↔ PreconditionForm schema node predicates := by
  have hall : ∀ {nodes : List PyVal} {predicates : List Predicate}, IsJson (.list nodes) →
      (nodes.mapM (fun p => parsePredicate p schema) = .ok predicates ↔
        List.Forall₂ (PredicateForm schema) nodes predicates) := by
    intro nodes predicates hnodes
    rw [mapM_ok_iff, List.forall₂_iff_get, List.forall₂_iff_get]
    refine and_congr_right fun _ => forall₃_congr fun i hi _ => ?_
    exact parsePredicate_iff (isJsonAll_iff.mp hnodes _ (List.get_mem _ _))
  refine ⟨fun h => ?_, fun h => ?_⟩
  · obtain ⟨items, nodes, rfl, hread⟩ := parsePrecondition_ok_iff.mp h
    have hform := ObjectOf.of_keys hjson.1 (by decide) hread.keys
    have hmember := isJson_member hjson.2 "all"
    have hlist := (sequence?_iff hmember).mp hread.all
    rw [hlist] at hmember
    rw [List.map_singleton, hlist] at hform
    exact .mk hform hread.bounds.1 hread.bounds.2 ((hall hmember).mp hread.each)
  · obtain ⟨hform, hleast, hmost, hnodes⟩ := h
    obtain ⟨items, rfl⟩ := hform.dict
    have hlist := hform.member hjson.1 List.mem_cons_self
    have hmember := isJson_member hjson.2 "all"
    refine parsePrecondition_ok_iff.mpr ⟨items, _, rfl, (hform.members hjson.1).1,
      (sequence?_iff hmember).mpr hlist, ⟨hleast, hmost⟩, ?_⟩
    rw [hlist] at hmember
    exact (hall hmember).mpr hnodes

/-- The arguments are looked up under the names of the parameters. -/
theorem argumentsOf_iff {params : List (PyKey × PyVal)} {declared : List (String × ParamSpec)}
    {arguments : List (String × PyVal)} :
    argumentsOf params declared = .ok arguments ↔
      List.Forall₂ ArgumentOf declared arguments ∧
        arguments = (declared.map Prod.fst).map fun name => (name, member params name) := by
  unfold argumentsOf
  rw [mapM_ok_iff]
  refine ⟨fun h => ?_, ?_⟩
  · induction h with
    | nil => exact ⟨.nil, rfl⟩
    | cons hfirst _ ih =>
      obtain ⟨value, hvalue, hfirst⟩ := bind_ok hfirst
      injection hfirst with hfirst
      obtain ⟨rfl, hliteral⟩ := scalar_iff.mp hvalue
      rw [← hfirst]
      exact ⟨.cons ⟨rfl, hliteral⟩ ih.1, by rw [ih.2]; rfl⟩
  · rintro ⟨hall, rfl⟩
    rw [List.map_map, List.forall₂_map_right_iff] at hall ⊢
    refine hall.imp fun d d' hargument => ?_
    obtain ⟨hname, hliteral⟩ := hargument
    dsimp only [Function.comp] at hname hliteral ⊢
    rw [hname] at hliteral ⊢
    rw [scalar_iff.mpr ⟨rfl, hliteral⟩]
    rfl

theorem names_of_arguments {declared : List (String × ParamSpec)} {arguments : List (String × PyVal)}
    (h : List.Forall₂ ArgumentOf declared arguments) :
    arguments.map Prod.fst = declared.map Prod.fst := by
  induction h with
  | nil => rfl
  | cons hfirst _ ih => rw [List.map_cons, List.map_cons, hfirst.1, ih]

/-- Without the member, the empty object stands for it, so that no parameter is declared. -/
theorem ActionRead.bare {items params : List (PyKey × PyVal)} {schema : Schema} {spec : ActionSpec}
    {action : RuleAction} (h : ActionRead schema items spec params action)
    (hkeys : hasExactKeys items ["name"] = true) : spec.params.entries = [] := by
  have hnone : itemGet? items "params" = none := by
    rw [itemGet?_none, hasExactKeys_iff.mp hkeys]
    decide
  have hgiven := h.given
  rw [hnone, Option.getD_none] at hgiven
  injection hgiven with hgiven
  cases hcase : spec.params.entries with
  | nil => rfl
  | cons d rest =>
    have hdeclared := h.declared
    rw [hcase, ← hgiven] at hdeclared
    cases (hasExactKeys_iff.mp hdeclared (.str d.1)).mpr List.mem_cons_self

theorem ActionRead.form {items params : List (PyKey × PyVal)} {schema : Schema} {spec : ActionSpec}
    {action : RuleAction} (h : ActionRead schema items spec params action)
    (hjson : IsJson (.dict items)) : ActionForm schema (.dict items) action := by
  obtain ⟨hall, heach⟩ := argumentsOf_iff.mp h.arguments
  obtain ⟨name, arguments⟩ := action
  rcases h.keys with hbare | hfull
  · have hform := ObjectOf.of_keys hjson.1 (by decide) hbare
    rw [List.map_singleton, h.name] at hform
    rw [h.bare hbare] at hall
    cases hall
    exact .bare hform h.known (h.bare hbare)
  · have hgiven : member items "params" = .dict params := by
      have hgiven := h.given
      unfold member
      cases hget : itemGet? items "params" with
      | none =>
        refine absurd ((hasExactKeys_iff.mp hfull (.str "params")).mpr ?_) (itemGet?_none.mp hget)
        decide
      | some value =>
        rw [hget] at hgiven
        exact hgiven
    have hform := ObjectOf.of_keys hjson.1 (by decide) hfull
    rw [List.map_cons, List.map_singleton, h.name, hgiven] at hform
    have hobject := hgiven ▸ isJson_member hjson.2 "params"
    refine .full hform h.known ?_ hall
    rw [show arguments = _ from heach]
    exact ObjectOf.of_keys hobject.1 spec.params.nodup h.declared

theorem parseAction_iff {node : PyVal} {schema : Schema} {action : RuleAction}
    (hjson : IsJson node) :
    parseAction node schema = .ok action ↔ ActionForm schema node action := by
  refine ⟨fun h => ?_, fun h => ?_⟩
  · obtain ⟨items, spec, params, rfl, hread⟩ := parseAction_ok_iff.mp h
    exact hread.form hjson
  cases h with
  | @full name spec params arguments hform hspec hparams hall =>
    obtain ⟨items, rfl⟩ := hform.dict
    obtain ⟨given, rfl⟩ := hparams.dict
    have hget := (hform.members hjson.1).2 _ (List.mem_cons_of_mem _ List.mem_cons_self)
    have hgiven := hform.member hjson.1 (List.mem_cons_of_mem _ List.mem_cons_self)
    have hobject := (hgiven ▸ isJson_member hjson.2 "params" : IsJson (.dict given))
    have hdeclared := (hparams.members hobject.1).1
    rw [names_of_arguments hall] at hdeclared
    have heach : arguments = (spec.params.entries.map Prod.fst).map
        fun name => (name, member given name) := by
      rw [← names_of_arguments hall, List.map_map]
      refine (List.map_id' _).symm.trans (List.map_congr_left fun argument hmem => ?_)
      show argument = (argument.1, member given argument.1)
      rw [hparams.member hobject.1 hmem]
    exact parseAction_ok_iff.mpr ⟨items, spec, given, rfl, .inr (hform.members hjson.1).1,
      hform.member hjson.1 List.mem_cons_self, hspec, by rw [hget]; rfl, hdeclared,
      argumentsOf_iff.mpr ⟨hall, heach⟩⟩
  | @bare name spec hform hspec hentries =>
    obtain ⟨items, rfl⟩ := hform.dict
    have hkeys : hasExactKeys items ["name"] = true := (hform.members hjson.1).1
    have hnone : itemGet? items "params" = none := by
      rw [itemGet?_none, hasExactKeys_iff.mp hkeys]
      decide
    exact parseAction_ok_iff.mpr ⟨items, spec, [], rfl, .inl hkeys,
      hform.member hjson.1 List.mem_cons_self, hspec, by rw [hnone]; rfl, by rw [hentries]; rfl,
      by rw [hentries]; rfl⟩

theorem parseRule_iff {value : PyVal} {schema : Schema} {rule : Rule} (hjson : IsJson value) :
    parseRule value schema = .ok rule ↔ RuleForm schema value rule := by
  refine ⟨fun h => ?_, fun h => ?_⟩
  · obtain ⟨items, rfl, hread⟩ := parseRule_ok_iff.mp h
    exact .mk (ObjectOf.of_keys hjson.1 (by decide) hread.keys)
      ((parsePrecondition_iff (isJson_member hjson.2 _)).mp hread.precondition)
      ((parseAction_iff (isJson_member hjson.2 _)).mp hread.action)
  · obtain ⟨hform, hprecondition, haction⟩ := h
    obtain ⟨items, rfl⟩ := hform.dict
    have hfirst := hform.member hjson.1 List.mem_cons_self
    have hsecond := hform.member hjson.1 (List.mem_cons_of_mem _ List.mem_cons_self)
    refine parseRule_ok_iff.mpr ⟨items, rfl, (hform.members hjson.1).1, ?_, ?_⟩
    · exact (parsePrecondition_iff (isJson_member hjson.2 _)).mpr (hfirst.symm ▸ hprecondition)
    · exact (parseAction_iff (isJson_member hjson.2 _)).mpr (hsecond.symm ▸ haction)

/-! ## What a refused value raises -/

/-- If it raises, it raises `RuleValidationError`. -/
def OnlyRefuses {α : Type} (x : Except PyExc α) : Prop :=
  ∀ exc, x = .error exc → exc.cls = .ruleValidationError

theorem OnlyRefuses.ok {α : Type} (a : α) : OnlyRefuses (.ok a) := by
  intro exc h
  cases h

theorem OnlyRefuses.refused {α : Type} (message : String) :
    OnlyRefuses (.error (ruleError message) : Except PyExc α) := by
  intro exc h
  injection h with h
  rw [← h]
  rfl

theorem OnlyRefuses.bind {α β : Type} {x : Except PyExc α} {f : α → Except PyExc β}
    (hx : OnlyRefuses x) (hf : ∀ a, OnlyRefuses (f a)) : OnlyRefuses (x >>= f) := by
  cases x with
  | error exc =>
    intro exc' h
    injection h with h
    exact h ▸ hx exc rfl
  | ok a => exact hf a

theorem OnlyRefuses.mapM {α β : Type} {f : α → Except PyExc β} (hf : ∀ a, OnlyRefuses (f a))
    (as : List α) : OnlyRefuses (as.mapM f) := by
  induction as with
  | nil => exact .ok []
  | cons a rest ih =>
    rw [List.mapM_cons]
    exact (hf a).bind fun b => ih.bind fun bs => .ok _

theorem scalar_refuses (value : PyVal) (spec : FieldSpec) : OnlyRefuses (scalar value spec) := by
  unfold scalar
  split
  case h_8 =>
    split
    · exact .ok _
    · exact .refused _
  all_goals first | exact .ok _ | exact .refused _

theorem parseOperator_refuses (raw : PyVal) (type : FieldType) :
    OnlyRefuses (parseOperator raw type) := by
  unfold parseOperator
  split
  · split
    · exact .refused _
    · split
      · exact .ok _
      · exact .refused _
  · exact .refused _

theorem parseLiteral_refuses (value : PyVal) (spec : FieldSpec) (op : Operator) (schema : Schema) :
    OnlyRefuses (parseLiteral value spec op schema) := by
  unfold parseLiteral
  split
  · split
    · exact .refused _
    · split
      · exact (OnlyRefuses.mapM (fun item => scalar_refuses item spec) _).bind fun _ => .ok _
      · exact .refused _
  · exact scalar_refuses value spec

theorem parsePredicate_refuses (node : PyVal) (schema : Schema) :
    OnlyRefuses (parsePredicate node schema) := by
  unfold parsePredicate
  split
  · split
    · split
      · split
        · exact .refused _
        · exact (parseOperator_refuses _ _).bind fun op =>
            (parseLiteral_refuses _ _ _ _).bind fun _ => .ok _
      · exact .refused _
    · exact .refused _
  · exact .refused _

theorem parsePrecondition_refuses (node : PyVal) (schema : Schema) :
    OnlyRefuses (parsePrecondition node schema) := by
  unfold parsePrecondition
  split
  · split
    · split
      · exact .refused _
      · split
        · exact OnlyRefuses.mapM (fun p => parsePredicate_refuses p schema) _
        · exact .refused _
    · exact .refused _
  · exact .refused _

theorem parseAction_refuses (node : PyVal) (schema : Schema) :
    OnlyRefuses (parseAction node schema) := by
  unfold parseAction
  split
  · split
    · split
      · split
        · exact .refused _
        · split
          · dsimp only
            split
            · refine (OnlyRefuses.mapM (fun declared => ?_) _).bind fun _ => .ok _
              exact (scalar_refuses _ _).bind fun _ => .ok _
            · exact .refused _
          · exact .refused _
      · exact .refused _
    · exact .refused _
  · exact .refused _

theorem parseRule_refuses (value : PyVal) (schema : Schema) :
    OnlyRefuses (parseRule value schema) := by
  unfold parseRule
  split
  · split
    · exact (parsePrecondition_refuses _ _).bind fun _ =>
        (parseAction_refuses _ _).bind fun _ => .ok _
    · exact .refused _
  · exact .refused _

/-- **The closed language.** Of all JSON values `parse_rule` accepts those that have the form of
a rule, and returns the rule they are the form of; any other raises `RuleValidationError`. -/
theorem parse_rule_exact (schema : Schema) (json : Json) :
    (∀ rule, parseRule json.toPyVal schema = .ok rule ↔ RuleForm schema json.toPyVal rule) ∧
    ((¬ ∃ rule, RuleForm schema json.toPyVal rule) →
      ∃ exc, parseRule json.toPyVal schema = .error exc) ∧
    ∀ exc, parseRule json.toPyVal schema = .error exc → exc.cls = .ruleValidationError := by
  have hiff : ∀ rule, parseRule json.toPyVal schema = .ok rule ↔
      RuleForm schema json.toPyVal rule := fun rule => parseRule_iff json.isJson_toPyVal
  refine ⟨hiff, fun hnone => ?_, parseRule_refuses _ _⟩
  cases hparse : parseRule json.toPyVal schema with
  | error exc => exact ⟨exc, rfl⟩
  | ok rule => exact absurd ⟨rule, (hiff rule).mp hparse⟩ hnone

end PaymentRecovery.Rules
