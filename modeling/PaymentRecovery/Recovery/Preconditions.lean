import PaymentRecovery.Recovery.Lifecycle
import PaymentRecovery.Rules.Language
import PaymentRecovery.Rules.Matching
import Mathlib.Tactic.Linarith

/-!
# Preconditions mean their clusters

A cluster is a key of discretised features, and the distiller suggests predicates for
the key. The two are written apart: the bands of `situation_features` and the bounds
of `_band_predicates` have to agree on every amount, at the edges of a band as well.
-/

namespace PaymentRecovery.Recovery

open PaymentRecovery.Python PaymentRecovery.Lib PaymentRecovery.Rules PaymentRecovery.Distill
open PaymentRecovery.Providers PaymentRecovery.Agent

/-- A context as the payment schema describes it, with an amount and a failure reason. -/
structure PaymentContext (context : List (String × PyVal)) : Prop where
  typed : ∀ field spec value, paymentRuleSchema.fields.get? field = some spec →
    contextGet? context field = some value → Literal spec value
  /-- `float` takes the numbers it is applied to. -/
  finite : ∀ field ∈ ["amount_inr", "hours_since_last_attempt"], ∀ value,
    contextGet? context field = some value → ∃ x, toFloat value = .ok x
  amount : ∃ value, contextGet? context "amount_inr" = some value
  reason : ∃ value, contextGet? context "failure_reason" = some value

/-! ## The suggestion is a rule -/

/-- The predicate of a suggestion, as the language spells it. -/
def predicateNode (predicate : Predicate) : PyVal :=
  predicateDict predicate.field predicate.op.value predicate.value

/-- The predicate compares a declared field with one literal. -/
structure Declared (schema : Schema) (predicate : Predicate) : Prop where
  known : ∃ spec, schema.fields.get? predicate.field = some spec ∧
    predicate.op ∈ allowedOperators spec.type ∧ Literal spec predicate.value
  single : predicate.op ≠ .isIn

theorem Declared.form {schema : Schema} {predicate : Predicate} (h : Declared schema predicate) :
    PredicateForm schema (predicateNode predicate) predicate := by
  obtain ⟨spec, hspec, hop, hvalue⟩ := h.known
  exact .mk ⟨_, rfl, .refl _⟩ hspec hop (.one h.single hvalue)

theorem literal_isJson {spec : FieldSpec} {value : PyVal} (h : Literal spec value) :
    IsJson value := by
  cases h <;> trivial

theorem predicateNode_isJson {schema : Schema} {predicate : Predicate}
    (h : Declared schema predicate) : IsJson (predicateNode predicate) := by
  obtain ⟨spec, _, _, hvalue⟩ := h.known
  refine isJson_record (by simp) ?_
  simp [IsJson, literal_isJson hvalue]

/-- The literal suggested for a parameter. -/
def defaultParam (spec : ParamSpec) : PyVal :=
  match spec.type with
  | .number => .int 24
  | .bool => .bool false
  | .string => .str ""
  | .enum => .int 0

/-- Every default but that of an enum passes the check of its parameter. -/
theorem defaultParam_literal {spec : ParamSpec} (h : spec.type ≠ .enum) :
    Literal spec (defaultParam spec) := by
  unfold defaultParam
  cases htype : spec.type with
  | number => exact .int 24 htype
  | bool => exact .bool false htype
  | string => exact .string "" htype
  | enum => exact absurd htype h

theorem defaultParams_eq {σ : Type} {D : PaymentDistiller σ} {action : String} {spec : ActionSpec}
    (hspec : D.schema.actions.get? action = some spec) :
    D.defaultParams action =
      .record (spec.params.entries.map fun param => (param.1, defaultParam param.2)) := by
  unfold PaymentDistiller.defaultParams
  rw [hspec]
  rfl

/-- A suggestion with declared predicates and an action without enum parameters is a rule. -/
theorem suggestion_accepted {σ : Type} {D : PaymentDistiller σ} {predicates : List Predicate}
    (hdeclared : ∀ predicate ∈ predicates, Declared D.schema predicate)
    (hsize : 1 ≤ predicates.length ∧ predicates.length ≤ D.schema.maxPredicates)
    {action : String} {spec : ActionSpec} (hspec : D.schema.actions.get? action = some spec)
    (hplain : ∀ param ∈ spec.params.entries, param.2.type ≠ .enum) :
    parseRule (.record [
      ("precondition", .record [("all", .list (predicates.map predicateNode))]),
      ("action", .record [("name", .str action), ("params", D.defaultParams action)])]) D.schema =
    .ok ⟨predicates, action, spec.params.entries.map fun param => (param.1, defaultParam param.2)⟩ := by
  rw [defaultParams_eq hspec]
  have hjson : ∀ param ∈ spec.params.entries, IsJson (defaultParam param.2) :=
    fun param hparam => literal_isJson (defaultParam_literal (hplain param hparam))
  rw [parseRule_iff]
  · refine .mk ⟨_, rfl, .refl _⟩ (.mk ⟨_, rfl, .refl _⟩ ?_ ?_ ?_)
      (.full ⟨_, rfl, .refl _⟩ hspec ⟨_, rfl, .refl _⟩ ?_)
    · simpa using hsize.1
    · simpa using hsize.2
    · rw [List.forall₂_map_left_iff]
      exact List.forall₂_same.mpr fun predicate hmem => (hdeclared predicate hmem).form
    · rw [List.forall₂_map_right_iff]
      exact List.forall₂_same.mpr fun param hparam =>
        ⟨rfl, defaultParam_literal (hplain param hparam)⟩
  · have hnodes : IsJson (.list (predicates.map predicateNode)) := by
      refine isJsonAll_iff.mpr fun node hnode => ?_
      obtain ⟨predicate, hmem, rfl⟩ := List.mem_map.mp hnode
      exact predicateNode_isJson (hdeclared predicate hmem)
    have hparams : IsJson (.record
        (spec.params.entries.map fun param => (param.1, defaultParam param.2))) := by
      refine isJson_record ?_ (List.forall_mem_map.mpr hjson)
      rw [List.map_map]
      exact spec.params.nodup
    have hprecondition : IsJson (.record [("all", .list (predicates.map predicateNode))]) :=
      isJson_record (by simp) (List.forall_mem_singleton.mpr hnodes)
    have haction : IsJson (.record [("name", .str action), ("params", .record
        (spec.params.entries.map fun param => (param.1, defaultParam param.2)))]) :=
      isJson_record (by simp) (List.forall_mem_cons.mpr ⟨trivial,
        List.forall_mem_singleton.mpr hparams⟩)
    exact isJson_record (by simp) (List.forall_mem_cons.mpr ⟨hprecondition,
      List.forall_mem_singleton.mpr haction⟩)

/-! ## Features and predicates -/

/-- The amount bands of `situation_features`. -/
def amountBand (amount : ℚ) : String :=
  if amount < 2000 then "lt_2000" else if amount < 10000 then "2000_10000" else "gte_10000"

def amountBands : List String := ["lt_2000", "2000_10000", "gte_10000"]

theorem amountBand_mem (amount : ℚ) : amountBand amount ∈ amountBands := by
  unfold amountBand
  split_ifs <;> decide

def reasonPredicate (reason : String) : Predicate := ⟨"failure_reason", .eq, .str reason⟩

/-- The predicates that `_band_predicates` spells. -/
def bandChecks (band : String) : List Predicate :=
  if band = "lt_2000" then [⟨"amount_inr", .lt, .int 2000⟩]
  else if band = "2000_10000" then [⟨"amount_inr", .ge, .int 2000⟩, ⟨"amount_inr", .lt, .int 10000⟩]
  else [⟨"amount_inr", .ge, .int 10000⟩]

theorem bandPredicates_eq (band : String) :
    bandPredicates band = (bandChecks band).map predicateNode := by
  unfold bandPredicates bandChecks
  split_ifs <;> rfl

/-- The key of a reason, alone or with a band of amounts. -/
def keyOf (reason : String) (band : Option String) : Situation :=
  match band with
  | none => [("failure_reason", reason)]
  | some band => [("amount_band", band), ("failure_reason", reason)]

/-- The predicates of a key. -/
def keyChecks (reason : String) (band : Option String) : List Predicate :=
  reasonPredicate reason :: match band with
    | none => []
    | some band => bandChecks band

theorem predicatesForKey_eq (reason : String) (band : Option String) :
    predicatesForKey (keyOf reason band) = .ok ((keyChecks reason band).map predicateNode) := by
  cases band with
  | none => rfl
  | some band =>
    have hkey : predicatesForKey (keyOf reason (some band)) =
        .ok ([predicateNode (reasonPredicate reason)] ++ bandPredicates band ++ [] ++ [] ++ []) :=
      rfl
    rw [hkey, bandPredicates_eq]
    simp [keyChecks]

section Holds

variable {context : List (String × PyVal)} {value : PyVal} {amount : ℚ}

/-- The reason predicate holds exactly of that reason. -/
theorem holds_reason {actual : String}
    (h : contextGet? context "failure_reason" = some (.str actual)) (reason : String) :
    holds context (reasonPredicate reason) = true ↔ actual = reason := by
  rw [holds_iff]
  simp [reasonPredicate, h, Rules.compare, scalarEq, PyVal.number?]

theorem holds_below (h : contextGet? context "amount_inr" = some value)
    (hamount : value.number? = some amount) (bound : Int) :
    holds context ⟨"amount_inr", .lt, .int bound⟩ = true ↔ amount < bound := by
  have hbound : (PyVal.int bound).number? = some (bound : ℚ) := rfl
  rw [holds_iff]
  simp [h, Rules.compare, scalarLt, hamount, hbound]

theorem holds_from (h : contextGet? context "amount_inr" = some value)
    (hamount : value.number? = some amount) (bound : Int) :
    holds context ⟨"amount_inr", .ge, .int bound⟩ = true ↔ (bound : ℚ) ≤ amount := by
  have hbound : (PyVal.int bound).number? = some (bound : ℚ) := rfl
  rw [holds_iff]
  simp [h, Rules.compare, scalarLt, hamount, hbound]

/-- The band predicates hold exactly of the amounts in the band. -/
theorem holds_band (h : contextGet? context "amount_inr" = some value)
    (hamount : value.number? = some amount) {band : String} (hband : band ∈ amountBands) :
    (bandChecks band).all (holds context) = true ↔ amountBand amount = band := by
  have hbelow := holds_below h hamount
  have hfrom := holds_from h hamount
  have hedges : amount < 2000 → amount < 10000 := fun hlow => by linarith only [hlow]
  unfold amountBand
  simp only [amountBands, List.mem_cons, List.not_mem_nil, or_false] at hband
  rcases hband with rfl | rfl | rfl
  · show ([⟨"amount_inr", .lt, .int 2000⟩] : List Predicate).all (holds context) = true ↔ _
    rw [List.all_cons, List.all_nil, Bool.and_true, hbelow]
    split_ifs with hlow hmiddle <;> simp [hlow]
  · show ([⟨"amount_inr", .ge, .int 2000⟩, ⟨"amount_inr", .lt, .int 10000⟩] : List Predicate).all
      (holds context) = true ↔ _
    rw [List.all_cons, List.all_cons, List.all_nil, Bool.and_true, Bool.and_eq_true, hfrom, hbelow]
    split_ifs with hlow hmiddle
    · simp [hlow]
    · simp [hmiddle, not_lt.mp hlow]
    · simp [hmiddle]
  · show ([⟨"amount_inr", .ge, .int 10000⟩] : List Predicate).all (holds context) = true ↔ _
    rw [List.all_cons, List.all_nil, Bool.and_true, hfrom]
    split_ifs with hlow hmiddle
    · simp [hedges hlow]
    · simp [hmiddle]
    · simp [not_lt.mp hmiddle]

end Holds

/-! ## Contexts -/

theorem schema_reason : paymentRuleSchema.fields.get? "failure_reason" =
    some ⟨.enum, FailureReason.all.map FailureReason.value, by decide⟩ := by
  rfl

theorem schema_amount : paymentRuleSchema.fields.get? "amount_inr" =
    some (.plain .number (by decide)) := by
  rfl

theorem schema_failed : paymentRuleSchema.fields.get? "customer_failed_payments" =
    some (.plain .number (by decide)) := by
  rfl

theorem number_of_toFloat {value : PyVal} {x : ℚ} (h : toFloat value = .ok x) :
    value.number? = some x := by
  unfold toFloat at h
  split at h
  · injection h with h
    rw [← h]
    rfl
  · split at h
    · injection h with h
      rw [← h]
      rfl
    · cases h
  · cases h

/-- On a number both conversions agree. -/
theorem floatOf_of_toFloat {value : PyVal} {x : ℚ} (h : toFloat value = .ok x)
    (ofText : String → Except PyExc ℚ) : floatOf ofText value = .ok x := by
  cases value <;> first | exact h | cases h

/-- A numeric literal has an integer part. -/
theorem intOf_literal {spec : FieldSpec} (hnumber : spec.type = .number) {value : PyVal}
    (h : Literal spec value) (ofText : String → Except PyExc Int) :
    ∃ n, intOf ofText value = .ok n := by
  cases h with
  | int i => exact ⟨i, rfl⟩
  | float x => exact ⟨_, rfl⟩
  | string s htype => exact absurd (hnumber.symm.trans htype) (by decide)
  | bool b htype => exact absurd (hnumber.symm.trans htype) (by decide)
  | member s htype => exact absurd (hnumber.symm.trans htype) (by decide)

/-- A payment context has a reason of the schema and an amount, and its features name both. -/
theorem PaymentContext.features {context : List (String × PyVal)} (h : PaymentContext context)
    {σ : Type} (D : PaymentDistiller σ) :
    ∃ reason value amount history recency channel,
      contextGet? context "failure_reason" = some (.str reason) ∧
      reason ∈ FailureReason.all.map FailureReason.value ∧
      contextGet? context "amount_inr" = some value ∧ value.number? = some amount ∧
      D.situationFeatures context = .ok [("failure_reason", reason),
        ("amount_band", amountBand amount), ("failure_history", history), ("recency", recency),
        ("channel", channel)] := by
  obtain ⟨reasonValue, hreason⟩ := h.reason
  obtain ⟨value, hvalue⟩ := h.amount
  obtain ⟨amount, hamount⟩ := h.finite "amount_inr" List.mem_cons_self value hvalue
  obtain ⟨failed, hfailed⟩ : ∃ n, intOf D.intOfText
      ((contextGet? context "customer_failed_payments").getD (.int 0)) = .ok n := by
    cases hget : contextGet? context "customer_failed_payments" with
    | none => exact ⟨0, rfl⟩
    | some count => exact intOf_literal rfl (h.typed _ _ _ schema_failed hget) _
  obtain ⟨hours, hhours⟩ : ∃ x, floatOf D.floatOfText
      ((contextGet? context "hours_since_last_attempt").getD (.float 999)) = .ok x := by
    cases hget : contextGet? context "hours_since_last_attempt" with
    | none => exact ⟨999, rfl⟩
    | some count =>
      obtain ⟨x, hx⟩ := h.finite _ (List.mem_cons_of_mem _ List.mem_cons_self) count hget
      exact ⟨x, floatOf_of_toFloat hx _⟩
  cases h.typed _ _ _ schema_reason hreason with
  | int _ htype => cases htype
  | float _ htype => cases htype
  | string _ htype => cases htype
  | bool _ htype => cases htype
  | member reason _ hknown =>
    have hfeatures : D.situationFeatures context = .ok [("failure_reason", reason),
        ("amount_band", amountBand amount),
        ("failure_history", if 3 ≤ failed then "many" else if 1 ≤ failed then "some" else "none"),
        ("recency", if hours < 1 then "recent" else "normal"),
        ("channel", ((contextGet? context "method").getD (.str "unknown")).text)] := by
      unfold PaymentDistiller.situationFeatures
      rw [hvalue, Option.getD_some, floatOf_of_toFloat hamount, hfailed, hhours, hreason]
      rfl
    exact ⟨reason, value, amount, _, _, _, hreason, hknown, hvalue, number_of_toFloat hamount,
      hfeatures⟩

/-! ## Projections -/

/-- A pair with the smaller name comes first. -/
theorem orderedInsert_before {name next : String} (h : name < next) (value other : String)
    (rest : Situation) :
    List.orderedInsert pairLe (name, value) ((next, other) :: rest) =
      (name, value) :: (next, other) :: rest :=
  if_pos (.inl h)

theorem orderedInsert_after {name next : String} (h : next < name) (value other : String)
    (rest : Situation) :
    List.orderedInsert pairLe (name, value) ((next, other) :: rest) =
      (next, other) :: List.orderedInsert pairLe (name, value) rest := by
  refine if_neg ?_
  rintro (hlt | ⟨heq, _⟩)
  · exact String.lt_asymm h hlt
  · rw [show name = next from heq] at h
    exact String.lt_irrefl next h

/-- The features of a context in the order of their names. -/
theorem fromMapping_features (reason band history recency channel : String) :
    Situation.fromMapping [("failure_reason", reason), ("amount_band", band),
      ("failure_history", history), ("recency", recency), ("channel", channel)] =
      [("amount_band", band), ("channel", channel), ("failure_history", history),
        ("failure_reason", reason), ("recency", recency)] := by
  show List.orderedInsert pairLe _ (List.orderedInsert pairLe _ (List.orderedInsert pairLe _
    (List.orderedInsert pairLe _ [("channel", channel)]))) = _
  simp (disch := decide) only [orderedInsert_before, orderedInsert_after, List.orderedInsert_nil]

/-- The projections of a situation onto the reason, and onto the reason and the band. -/
theorem project_features (reason band history recency channel : String) :
    let situation := Situation.fromMapping [("failure_reason", reason), ("amount_band", band),
      ("failure_history", history), ("recency", recency), ("channel", channel)]
    situation.project ["failure_reason"] = keyOf reason none ∧
    situation.project ["failure_reason", "amount_band"] = keyOf reason (some band) := by
  dsimp only
  rw [fromMapping_features]
  exact ⟨rfl, rfl⟩

/-! ## Suggested rules -/

/-- The suggestion for the key and the action is accepted, as this rule. -/
def Suggests {σ : Type} (D : PaymentDistiller σ) (keyFeatures : Situation) (action : String)
    (rule : Rule) : Prop :=
  ∃ definition, D.suggestedDefinition keyFeatures action = .ok definition ∧
    parseRule definition D.schema = .ok rule

theorem reasonPredicate_declared {reason : String}
    (h : reason ∈ FailureReason.all.map FailureReason.value) :
    Declared paymentRuleSchema (reasonPredicate reason) :=
  ⟨⟨_, schema_reason, (by decide : Operator.eq ∈ allowedOperators .enum), .member reason rfl h⟩,
    (by decide : Operator.eq ≠ .isIn)⟩

theorem bandChecks_declared (band : String) :
    ∀ predicate ∈ bandChecks band, Declared paymentRuleSchema predicate := by
  have hamount : ∀ op, op ∈ allowedOperators .number → op ≠ .isIn → ∀ bound : Int,
      Declared paymentRuleSchema ⟨"amount_inr", op, .int bound⟩ :=
    fun op hop hsingle bound => ⟨⟨_, schema_amount, hop, .int bound rfl⟩, hsingle⟩
  unfold bandChecks
  split_ifs
  · exact List.forall_mem_singleton.mpr (hamount _ (by decide) (by decide) _)
  · exact List.forall_mem_cons.mpr ⟨hamount _ (by decide) (by decide) _,
      List.forall_mem_singleton.mpr (hamount _ (by decide) (by decide) _)⟩
  · exact List.forall_mem_singleton.mpr (hamount _ (by decide) (by decide) _)

theorem length_bandChecks (band : String) : (bandChecks band).length ≤ 2 := by
  unfold bandChecks
  split_ifs <;> simp

/-- No action of the schema has an enum parameter. -/
theorem action_plain {action : String} {spec : ActionSpec}
    (h : paymentRuleSchema.actions.get? action = some spec) :
    ∀ param ∈ spec.params.entries, param.2.type ≠ .enum := by
  have hall : ∀ entry ∈ paymentRuleSchema.actions.entries, ∀ param ∈ entry.2.params.entries,
      param.2.type ≠ .enum := by
    decide
  exact hall _ (Dict.findEntry_mem h)

/-- The suggestion for a key is accepted, with the predicates of the key. -/
theorem suggests_key {σ : Type} {D : PaymentDistiller σ} (hschema : D.schema = paymentRuleSchema)
    {reason : String} (hreason : reason ∈ FailureReason.all.map FailureReason.value)
    (band : Option String) {action : String}
    (haction : (paymentRuleSchema.actions.get? action).isSome = true) :
    ∃ arguments, Suggests D (keyOf reason band) action
      ⟨keyChecks reason band, action, arguments⟩ := by
  obtain ⟨spec, hspec⟩ := Option.isSome_iff_exists.mp haction
  have hdeclared : ∀ predicate ∈ keyChecks reason band, Declared D.schema predicate := by
    rw [hschema]
    refine List.forall_mem_cons.mpr ⟨reasonPredicate_declared hreason, ?_⟩
    cases band with
    | none => simp
    | some band => exact bandChecks_declared band
  have hsize : 1 ≤ (keyChecks reason band).length ∧
      (keyChecks reason band).length ≤ D.schema.maxPredicates := by
    have hmax : D.schema.maxPredicates = 8 := by rw [hschema]; rfl
    unfold keyChecks
    rw [List.length_cons, hmax]
    refine ⟨by omega, ?_⟩
    cases band with
    | none => simp
    | some band =>
      have hband := length_bandChecks band
      dsimp only
      omega
  refine ⟨_, _, ?_, suggestion_accepted hdeclared hsize (hschema ▸ hspec) (action_plain hspec)⟩
  unfold PaymentDistiller.suggestedDefinition
  rw [predicatesForKey_eq]
  rfl

/-- A rule with the predicates of a key matches the contexts of that reason and band. -/
theorem evaluate_key {context : List (String × PyVal)} {actual : String} {value : PyVal}
    {amount : ℚ} (hreason : contextGet? context "failure_reason" = some (.str actual))
    (hvalue : contextGet? context "amount_inr" = some value)
    (hamount : value.number? = some amount) {band : Option String}
    (hband : ∀ b, band = some b → b ∈ amountBands) (reason : String) (action : RuleAction) :
    evaluate ⟨keyChecks reason band, action⟩ context = true ↔
      actual = reason ∧ ∀ b, band = some b → amountBand amount = b := by
  unfold evaluate keyChecks
  rw [List.all_cons, Bool.and_eq_true, holds_reason hreason]
  refine and_congr_right fun _ => ?_
  cases band with
  | none => simp
  | some band =>
    dsimp only
    rw [holds_band hvalue hamount (hband band rfl)]
    simp

/-- **Distilled preconditions mean their clusters.** For every two payment contexts, either way of
projecting the features and every action of the schema: the suggestion for the key of one is
accepted, and the rule matches the other exactly if it has the same key. So for each reason the
rules of the three bands are disjoint and cover the rule of the reason. -/
theorem preconditions_mean_clusters {σ : Type} (D : PaymentDistiller σ)
    (hschema : D.schema = paymentRuleSchema) {action : String}
    (haction : (paymentRuleSchema.actions.get? action).isSome = true) :
    (∀ c c', PaymentContext c → PaymentContext c' →
      ∀ names ∈ [["failure_reason"], ["failure_reason", "amount_band"]],
      ∃ features features' rule, D.situationFeatures c = .ok features ∧
        D.situationFeatures c' = .ok features' ∧
        Suggests D ((Situation.fromMapping features').project names) action rule ∧
        (evaluate rule c = true ↔ (Situation.fromMapping features).project names =
          (Situation.fromMapping features').project names)) ∧
    ∀ reason ∈ FailureReason.all.map FailureReason.value, ∃ (whole : Rule) (refined : String → Rule),
      Suggests D [("failure_reason", reason)] action whole ∧
      (∀ band ∈ amountBands,
        Suggests D [("amount_band", band), ("failure_reason", reason)] action (refined band)) ∧
      ∀ c, PaymentContext c →
        (evaluate whole c = true ↔ ∃ band ∈ amountBands, evaluate (refined band) c = true) ∧
        ∀ band ∈ amountBands, ∀ band' ∈ amountBands, evaluate (refined band) c = true →
          evaluate (refined band') c = true → band = band' := by
  refine ⟨fun c c' hc hc' names hnames => ?_, fun reason hreason => ?_⟩
  · obtain ⟨reason, value, amount, _, _, _, hget, _, hvalue, hamount, hfeatures⟩ := hc.features D
    obtain ⟨reason', _, amount', _, _, _, _, hknown, _, _, hfeatures'⟩ := hc'.features D
    simp only [List.mem_cons, List.not_mem_nil, or_false] at hnames
    rcases hnames with rfl | rfl
    · -- the reason alone
      obtain ⟨arguments, hsuggests⟩ := suggests_key hschema hknown none haction
      refine ⟨_, _, _, hfeatures, hfeatures', (project_features ..).1 ▸ hsuggests, ?_⟩
      rw [(project_features ..).1, (project_features ..).1,
        evaluate_key hget hvalue hamount (by simp)]
      simp [keyOf]
    · obtain ⟨arguments, hsuggests⟩ := suggests_key hschema hknown (some (amountBand amount')) haction
      refine ⟨_, _, _, hfeatures, hfeatures', (project_features ..).2 ▸ hsuggests, ?_⟩
      rw [(project_features ..).2, (project_features ..).2,
        evaluate_key hget hvalue hamount (by simp [amountBand_mem])]
      simp [keyOf, and_comm]
  · obtain ⟨arguments, hwhole⟩ := suggests_key hschema hreason none haction
    choose rest hrefined using fun band => suggests_key hschema hreason (some band) haction
    refine ⟨_, fun band => ⟨keyChecks reason (some band), action, rest band⟩, hwhole,
      fun band _ => hrefined band, fun c hc => ?_⟩
    obtain ⟨actual, value, amount, _, _, _, hget, _, hvalue, hamount, _⟩ := hc.features D
    have hmatch : ∀ band ∈ amountBands,
        (evaluate ⟨keyChecks reason (some band), action, rest band⟩ c = true ↔
          actual = reason ∧ amountBand amount = band) := by
      intro band hband
      rw [evaluate_key hget hvalue hamount (by simp [hband])]
      simp
    refine ⟨?_, fun band hband band' hband' hmatches hmatches' => ?_⟩
    · rw [evaluate_key hget hvalue hamount (by simp)]
      refine ⟨fun h => ⟨amountBand amount, amountBand_mem amount, ?_⟩, ?_⟩
      · exact (hmatch _ (amountBand_mem amount)).mpr ⟨h.1, rfl⟩
      · rintro ⟨band, hband, hmatches⟩
        exact ⟨((hmatch band hband).mp hmatches).1, by simp⟩
    · exact ((hmatch band hband).mp hmatches).2.symm.trans ((hmatch band' hband').mp hmatches').2

/-- An expired card over this amount. -/
def Sample.expired (amount : ℚ) : List (String × PyVal) :=
  [("failure_reason", .str "expired_card"), ("amount_inr", .float amount)]

theorem Sample.expired_context (amount : ℚ) : PaymentContext (Sample.expired amount) where
  typed := by
    intro field spec value hspec hvalue
    by_cases hreason : field = "failure_reason"
    · subst hreason
      rw [schema_reason] at hspec
      cases hspec
      cases hvalue
      exact .member _ rfl (by decide)
    · by_cases hamount : field = "amount_inr"
      · subst hamount
        rw [schema_amount] at hspec
        cases hspec
        cases hvalue
        exact .float _ rfl
      · simp [Sample.expired, contextGet?, Ne.symm hreason, Ne.symm hamount] at hvalue
  finite := by
    intro field hfield value hvalue
    simp only [List.mem_cons, List.not_mem_nil, or_false] at hfield
    rcases hfield with rfl | rfl
    · cases hvalue
      exact ⟨amount, rfl⟩
    · cases hvalue
  amount := ⟨_, rfl⟩
  reason := ⟨_, rfl⟩

/-- The suggestion for the middle band matches its lower edge. -/
theorem preconditions_mean_clusters_edge :
    ∃ rule, Suggests Sample.distiller [("amount_band", "2000_10000"),
        ("failure_reason", "expired_card")] "send_payment_link" rule ∧
      evaluate rule (Sample.expired 2000) = true := by
  obtain ⟨features, features', rule, hfeatures, hfeatures', hsuggests, hmatches⟩ :=
    (preconditions_mean_clusters Sample.distiller rfl
      (show (paymentRuleSchema.actions.get? "send_payment_link").isSome = true from rfl)).1
      (Sample.expired 2000)
      (Sample.expired 5000) (Sample.expired_context 2000) (Sample.expired_context 5000)
      ["failure_reason", "amount_band"] (by decide)
  have hedge : Sample.distiller.situationFeatures (Sample.expired 2000) = .ok [
      ("failure_reason", "expired_card"), ("amount_band", "2000_10000"),
      ("failure_history", "none"), ("recency", "normal"), ("channel", "unknown")] := by
    decide +kernel
  have hmiddle : Sample.distiller.situationFeatures (Sample.expired 5000) = .ok [
      ("failure_reason", "expired_card"), ("amount_band", "2000_10000"),
      ("failure_history", "none"), ("recency", "normal"), ("channel", "unknown")] := by
    decide +kernel
  rw [hedge] at hfeatures
  rw [hmiddle] at hfeatures'
  injection hfeatures with hfeatures
  injection hfeatures' with hfeatures'
  subst hfeatures hfeatures'
  rw [(project_features ..).2] at hsuggests
  exact ⟨rule, hsuggests, hmatches.mpr rfl⟩

end PaymentRecovery.Recovery
