import PaymentRecovery.Recovery.Router
import PaymentRecovery.Rules.RoundTrip

/-!
# The rule store

Rules are rows of text, validated when they are stored and again when they are
loaded. A row whose definition no longer fits the schema is skipped; a row whose
text is no JSON at all makes the whole load raise.
-/

namespace PaymentRecovery.Recovery

open PaymentRecovery.Python PaymentRecovery.Rules PaymentRecovery.Lib PaymentRecovery.Lib.Table

/-- Lifecycle states. Seed rules start ACTIVE; distilled rules start SHADOW. -/
inductive RuleStatus where
  | shadow
  | active
  | demoted
  | disabled
  deriving DecidableEq

/-- `status.value`. -/
def RuleStatus.value : RuleStatus → String
  | .shadow => "shadow"
  | .active => "active"
  | .demoted => "demoted"
  | .disabled => "disabled"

theorem RuleStatus.value_injective : Function.Injective RuleStatus.value := by
  intro a b h
  cases a <;> cases b <;> first | rfl | (simp [RuleStatus.value] at h)

/-- Provenance for a hand-written seed rule. -/
def seedProvenance (now : String) : PyVal :=
  .record [("origin", .str "seed"), ("trajectory_ids", .list []), ("created_at", .str now),
    ("promoted_at", .str now), ("demoted_at", .none), ("demotion_history", .list []),
    ("performance", .record [])]

/-- The unique columns of the rules table. -/
def ruleId (row : RuleRow) : String × Int := (row.ruleKey, row.version)

/-- `max(versions, default=0) + 1`. -/
def nextVersion (ruleKey : String) (rows : List RuleRow) : Int :=
  ((rows.filter fun row => row.ruleKey = ruleKey).map (·.version)).max?.getD 0 + 1

/-- `add_rule`: validate and insert a rule; the assigned version. -/
def addRule (schema : Schema) (ruleKey : String) (definition : PyVal) (status : RuleStatus)
    (provenance : Option PyVal) (priority : Int) (version : Option Int) (now : String)
    (rows : List RuleRow) : Except PyExc Int × List RuleRow :=
  let inserted : Except PyExc (Int × RuleRow) := do
    -- validate on ingest
    let _ ← parseRule definition schema
    let version := version.getD (nextVersion ruleKey rows)
    let definitionJson ← jsonDumps definition
    let provenanceJson ← jsonDumps (provenance.getD (seedProvenance now))
    return (version, ⟨ruleKey, version, status.value, priority, definitionJson, provenanceJson⟩)
  match inserted with
  | .error exc => (.error exc, rows)
  | .ok (version, row) =>
    match selectBy ruleId (ruleKey, version) rows with
    | some _ => (.error ⟨.integrityError,
        "UNIQUE constraint failed: rules.rule_key, rules.version"⟩, rows)
    | none => (.ok version, rows ++ [row])

/-- `list_by_status`. -/
def listByStatus (schema : Schema) (status : RuleStatus) (rows : List RuleRow) :
    Except PyExc (List LoadedRule) :=
  loadRules schema status.value rows

/-- `provenance[key] = value`. -/
def provenanceSet (provenance : PyVal) (key : String) (value : PyVal) : Except PyExc PyVal :=
  match provenance with
  | .dict items => .ok (.dict (itemSet items key value))
  | other => .error ⟨.typeError,
      "'" ++ other.typeName ++ "' object does not support item assignment"⟩

/-- `provenance.setdefault("demotion_history", []).append(entry)`. -/
def appendHistory (provenance : PyVal) (entry : PyVal) : Except PyExc PyVal :=
  match provenance with
  | .dict items =>
    match (itemGet? items "demotion_history").getD (.list []) with
    | .list history => .ok (.dict (itemSet items "demotion_history" (.list (history ++ [entry]))))
    | other => .error ⟨.other "AttributeError",
        "'" ++ other.typeName ++ "' object has no attribute 'append'"⟩
  | other => .error ⟨.other "AttributeError",
      "'" ++ other.typeName ++ "' object has no attribute 'setdefault'"⟩

/-- What a transition writes into the provenance. -/
def transitioned (status : RuleStatus) (reason now : String) (provenance : PyVal) :
    Except PyExc PyVal :=
  match status with
  | .active => provenanceSet provenance "promoted_at" (.str now)
  | .demoted => do
    let provenance ← provenanceSet provenance "demoted_at" (.str now)
    appendHistory provenance (.record [("at", .str now), ("reason", .str reason)])
  | .shadow | .disabled => .ok provenance

/-- `set_status`: transition a rule's status, recording promotion and demotion. -/
def setStatus (ruleKey : String) (version : Int) (status : RuleStatus) (reason now : String)
    (rows : List RuleRow) : Except PyExc Unit × List RuleRow :=
  match selectBy ruleId (ruleKey, version) rows with
  | none => (.error ⟨.other "NoResultFound", "No row was found when one was required"⟩, rows)
  | some row =>
    let written : Except PyExc JsonText := do
      let provenance ← jsonLoads row.provenanceJson
      jsonDumps (← transitioned status reason now provenance)
    match written with
    | .error exc => (.error exc, rows)
    | .ok provenanceJson =>
      (.ok (), updateBy ruleId (ruleKey, version)
        (fun row => { row with status := status.value, provenanceJson := provenanceJson }) rows)

/-! ## What a load returns -/

/-- The rule a row's definition is parsed to, if it is JSON and fits the schema. -/
def acceptedRule (schema : Schema) (row : RuleRow) : Option Rule :=
  match jsonLoads row.definitionJson with
  | .error _ => none
  | .ok definition => (parseRule definition schema).toOption

/-- The rule is what the row holds. -/
structure LoadedFrom (schema : Schema) (row : RuleRow) (loaded : LoadedRule) : Prop where
  ruleKey : loaded.ruleKey = row.ruleKey
  version : loaded.version = row.version
  status : loaded.status = row.status
  priority : loaded.priority = row.priority
  rule : acceptedRule schema row = some loaded.rule
  provenance : jsonLoads row.provenanceJson = .ok loaded.provenance

/-- The rows of the status, by priority. -/
def rowsOf (status : RuleStatus) (rows : List RuleRow) : List RuleRow :=
  (rows.filter fun row => row.status = status.value).insertionSort fun a b => a.priority ≤ b.priority

/-- The load returns the accepted rows of the status, each with its rule. -/
def LoadsExactly (schema : Schema) (status : RuleStatus) (rows : List RuleRow) : Prop :=
  ∃ loaded, listByStatus schema status rows = .ok loaded ∧
    List.Forall₂ (LoadedFrom schema)
      ((rowsOf status rows).filter fun row => (acceptedRule schema row).isSome) loaded

/-- The row's definition is JSON, and so is its provenance if the definition is accepted. -/
def Legible (schema : Schema) (row : RuleRow) : Prop :=
  (∃ definition, jsonLoads row.definitionJson = .ok definition) ∧
  ((acceptedRule schema row).isSome = true →
    ∃ provenance, jsonLoads row.provenanceJson = .ok provenance)

/-- A row that loads is skipped, or its rule is what it holds. -/
theorem loadRow_spec {schema : Schema} {row : RuleRow} {loaded : Option LoadedRule}
    (h : loadRow schema row = .ok loaded) :
    (acceptedRule schema row = none ∧ loaded = none) ∨
    ∃ l, loaded = some l ∧ LoadedFrom schema row l := by
  unfold loadRow at h
  obtain ⟨definition, hdefinition, h⟩ := bind_ok h
  cases hparse : parseRule definition schema with
  | error exc =>
    rw [hparse] at h
    injection h with h
    exact .inl ⟨by simp [acceptedRule, hdefinition, hparse, Except.toOption], h.symm⟩
  | ok rule =>
    rw [hparse] at h
    obtain ⟨provenance, hprovenance, h⟩ := bind_ok h
    injection h with h
    exact .inr ⟨_, h.symm, rfl, rfl, rfl, rfl,
      by simp [acceptedRule, hdefinition, hparse, Except.toOption], hprovenance⟩

/-- Exactly the legible rows load. -/
theorem loadRow_iff (schema : Schema) (row : RuleRow) :
    (∃ loaded, loadRow schema row = .ok loaded) ↔ Legible schema row := by
  unfold Legible acceptedRule loadRow
  cases hdefinition : jsonLoads row.definitionJson with
  | error exc =>
    refine ⟨?_, ?_⟩
    · rintro ⟨loaded, h⟩
      cases h
    · rintro ⟨⟨definition, h⟩, _⟩
      cases h
  | ok definition =>
    simp only [Bind.bind, Except.bind]
    cases hparse : parseRule definition schema with
    | error exc =>
      refine ⟨fun _ => ⟨⟨definition, rfl⟩, fun h => ?_⟩, fun _ => ⟨none, rfl⟩⟩
      simp [Except.toOption] at h
    | ok rule =>
      cases hprovenance : jsonLoads row.provenanceJson with
      | error exc =>
        refine ⟨?_, ?_⟩
        · rintro ⟨loaded, h⟩
          cases h
        · rintro ⟨_, h⟩
          obtain ⟨provenance, h⟩ := h (by simp [Except.toOption])
          cases h
      | ok provenance =>
        exact ⟨fun _ => ⟨⟨definition, rfl⟩, fun _ => ⟨provenance, rfl⟩⟩, fun _ => ⟨_, rfl⟩⟩

/-- Rows load together if and only if each of them does, and then the accepted ones remain. -/
theorem mapM_loadRow {schema : Schema} (rows : List RuleRow) :
    ((∃ loaded, rows.mapM (loadRow schema) = .ok loaded) ↔ ∀ row ∈ rows, Legible schema row) ∧
    ∀ loaded, rows.mapM (loadRow schema) = .ok loaded →
      List.Forall₂ (LoadedFrom schema) (rows.filter fun row => (acceptedRule schema row).isSome)
        (loaded.filterMap id) := by
  induction rows with
  | nil =>
    refine ⟨⟨fun _ row hrow => absurd hrow List.not_mem_nil, fun _ => ⟨[], rfl⟩⟩, ?_⟩
    intro loaded h
    injection h with h
    rw [← h]
    exact .nil
  | cons row rest ih =>
    refine ⟨⟨?_, ?_⟩, ?_⟩
    · rintro ⟨loaded, h⟩
      rw [List.mapM_cons] at h
      obtain ⟨first, hfirst, h⟩ := bind_ok h
      obtain ⟨others, hothers, _⟩ := bind_ok h
      exact List.forall_mem_cons.mpr ⟨(loadRow_iff schema row).mp ⟨first, hfirst⟩,
        ih.1.mp ⟨others, hothers⟩⟩
    · intro h
      obtain ⟨hrow, hrest⟩ := List.forall_mem_cons.mp h
      obtain ⟨first, hfirst⟩ := (loadRow_iff schema row).mpr hrow
      obtain ⟨others, hothers⟩ := ih.1.mpr hrest
      refine ⟨first :: others, ?_⟩
      rw [List.mapM_cons, hfirst, hothers]
      rfl
    · intro loaded h
      rw [List.mapM_cons] at h
      obtain ⟨first, hfirst, h⟩ := bind_ok h
      obtain ⟨others, hothers, h⟩ := bind_ok h
      injection h with h
      rw [← h]
      rcases loadRow_spec hfirst with ⟨hskipped, rfl⟩ | ⟨l, rfl, hl⟩
      · rw [List.filter_cons_of_neg (by simp [hskipped])]
        exact ih.2 others hothers
      · rw [List.filter_cons_of_pos (by simp [hl.rule])]
        exact .cons hl (ih.2 others hothers)

theorem mem_rowsOf {status : RuleStatus} {rows : List RuleRow} {row : RuleRow} :
    row ∈ rowsOf status rows ↔ row ∈ rows ∧ row.status = status.value := by
  unfold rowsOf
  rw [List.mem_insertionSort, List.mem_filter, decide_eq_true_iff]

/-- The rows come by priority, so the last sort leaves the loaded rules as they are. -/
theorem listByStatus_eq (schema : Schema) (status : RuleStatus) (rows : List RuleRow) :
    listByStatus schema status rows =
      ((rowsOf status rows).mapM (loadRow schema)).map (List.filterMap id) := by
  unfold listByStatus loadRules
  dsimp only
  cases hmap : (rowsOf status rows).mapM (loadRow schema) with
  | error exc =>
    unfold rowsOf at hmap
    rw [hmap]
    rfl
  | ok loaded =>
    have hloaded := (mapM_loadRow (rowsOf status rows)).2 loaded hmap
    unfold rowsOf at hmap
    rw [hmap]
    show Except.ok _ = Except.ok _
    congr 1
    refine List.Pairwise.insertionSort_eq ?_
    have hsorted : (rowsOf status rows).Pairwise fun a b => a.priority ≤ b.priority := by
      have : Std.Total fun a b : RuleRow => a.priority ≤ b.priority := ⟨fun a b => le_total _ _⟩
      have : IsTrans RuleRow fun a b => a.priority ≤ b.priority := ⟨fun _ _ _ => le_trans⟩
      exact List.pairwise_insertionSort _ _
    -- the loaded rules have the priorities of their rows
    have hprior : ∀ {kept : List RuleRow} {ls : List LoadedRule},
        List.Forall₂ (LoadedFrom schema) kept ls → ls.map (·.priority) = kept.map (·.priority) := by
      intro kept ls h
      induction h with
      | nil => rfl
      | cons hfirst _ ih => rw [List.map_cons, List.map_cons, hfirst.priority, ih]
    have hkept : (((rowsOf status rows).filter fun row => (acceptedRule schema row).isSome).map
        (·.priority)).Pairwise (· ≤ ·) :=
      List.pairwise_map.mpr (hsorted.sublist List.filter_sublist)
    rw [← hprior hloaded] at hkept
    exact List.pairwise_map.mp hkept

/-- A load returns if and only if all rows of the status are legible. -/
theorem listByStatus_returns (schema : Schema) (status : RuleStatus) (rows : List RuleRow) :
    (∃ loaded, listByStatus schema status rows = .ok loaded) ↔
      ∀ row ∈ rows, row.status = status.value → Legible schema row := by
  have hrows : (∀ row ∈ rowsOf status rows, Legible schema row) ↔
      ∀ row ∈ rows, row.status = status.value → Legible schema row := by
    simp only [mem_rowsOf, and_imp]
  rw [← hrows, ← (mapM_loadRow _).1, listByStatus_eq]
  cases (rowsOf status rows).mapM (loadRow schema) with
  | error exc =>
    refine ⟨?_, ?_⟩ <;> rintro ⟨_, h⟩ <;> cases h
  | ok all => exact ⟨fun _ => ⟨all, rfl⟩, fun _ => ⟨_, rfl⟩⟩

/-- A load that returns does so with exactly the accepted rows. -/
theorem loaded_exact {schema : Schema} {status : RuleStatus} {rows : List RuleRow}
    {loaded : List LoadedRule} (h : listByStatus schema status rows = .ok loaded) :
    List.Forall₂ (LoadedFrom schema)
      ((rowsOf status rows).filter fun row => (acceptedRule schema row).isSome) loaded := by
  rw [listByStatus_eq] at h
  cases hmap : (rowsOf status rows).mapM (loadRow schema) with
  | error exc =>
    rw [hmap] at h
    cases h
  | ok all =>
    rw [hmap] at h
    injection h with h
    rw [← h]
    exact (mapM_loadRow (rowsOf status rows)).2 all hmap

/-- What `add_rule` stores is legible, and holds the rule it was validated as. -/
theorem addRule_row {schema : Schema} {ruleKey : String} {definition : PyVal} {status : RuleStatus}
    {provenance : Option PyVal} {priority : Int} {version : Option Int} {now : String}
    {rows rows' : List RuleRow} {v : Int} {rule : Rule} (hdistinct : distinctKeys definition)
    (hrule : parseRule definition schema = .ok rule)
    (h : addRule schema ruleKey definition status provenance priority version now rows =
      (.ok v, rows')) :
    ∃ row, rows' = rows ++ [row] ∧ row.ruleKey = ruleKey ∧ row.version = v ∧
      row.status = status.value ∧ Legible schema row ∧ acceptedRule schema row = some rule := by
  unfold addRule at h
  dsimp only at h
  split at h
  · injection h with h
    cases h
  · rename_i assigned row hinserted
    split at h
    · injection h with h
      cases h
    · injection h with hv hrows
      injection hv with hv
      obtain ⟨_, _, hinserted⟩ := bind_ok hinserted
      obtain ⟨definitionJson, hdumped, hinserted⟩ := bind_ok hinserted
      obtain ⟨provenanceJson, hprovenance, hinserted⟩ := bind_ok hinserted
      injection hinserted with hinserted
      injection hinserted with hassigned hrow
      -- the text of the definition reads back as the same rule
      obtain ⟨read, ⟨json, hjson, hread⟩, hparsed⟩ := parseRule_reads hdistinct hrule
      have htext : definitionJson = .doc json := by
        unfold jsonDumps at hdumped
        rw [hjson] at hdumped
        injection hdumped with hdumped
        exact hdumped.symm
      have haccepted : acceptedRule schema row = some rule := by
        unfold acceptedRule
        rw [← hrow]
        dsimp only
        rw [htext]
        show (parseRule json.toPyVal schema).toOption = some rule
        rw [hread, hparsed]
        rfl
      obtain ⟨provenance', hread'⟩ := jsonLoads_of_jsonDumps hprovenance
      refine ⟨row, hrows.symm, by rw [← hrow], ?_, by rw [← hrow], ⟨⟨json.toPyVal, ?_⟩, fun _ =>
        ⟨provenance', by rw [← hrow]; exact hread'⟩⟩, haccepted⟩
      · rw [← hrow]
        exact hassigned.trans hv
      · rw [← hrow]
        dsimp only
        rw [htext]
        rfl

/-- **Loading rules.** Whatever texts the table holds: a load returns exactly the accepted rows
of its status, and a stored rule is among them as the rule it was validated as, if and only
if every row of the status has a definition that is JSON, and a provenance that is JSON where
the definition is accepted. -/
theorem rules_load_iff (schema : Schema) (status : RuleStatus) (rows : List RuleRow) :
    (LoadsExactly schema status rows ↔
      ∀ row ∈ rows, row.status = status.value → Legible schema row) ∧
    ∀ ruleKey definition provenance priority version now v rows' rule, distinctKeys definition →
      parseRule definition schema = .ok rule →
      addRule schema ruleKey definition status provenance priority version now rows =
        (.ok v, rows') →
      ((∃ loaded, listByStatus schema status rows' = .ok loaded ∧
          ∃ l ∈ loaded, l.ruleKey = ruleKey ∧ l.version = v ∧ l.rule = rule) ↔
        ∀ row ∈ rows, row.status = status.value → Legible schema row) := by
  refine ⟨?_, ?_⟩
  · rw [← listByStatus_returns]
    exact ⟨fun ⟨loaded, h, _⟩ => ⟨loaded, h⟩, fun ⟨loaded, h⟩ => ⟨loaded, h, loaded_exact h⟩⟩
  intro ruleKey definition provenance priority version now v rows' rule hdistinct hrule hadd
  obtain ⟨row, rfl, hkey, hversion, hstatus, hlegible, haccepted⟩ := addRule_row hdistinct hrule hadd
  -- the new row never stands in the way
  have hall : (∀ other ∈ rows ++ [row], other.status = status.value → Legible schema other) ↔
      ∀ other ∈ rows, other.status = status.value → Legible schema other := by
    simp only [List.forall_mem_append, List.forall_mem_singleton, and_iff_left_iff_imp]
    exact fun _ _ => hlegible
  rw [← hall, ← listByStatus_returns]
  refine ⟨fun ⟨loaded, hloaded, _⟩ => ⟨loaded, hloaded⟩, ?_⟩
  rintro ⟨loaded, hloaded⟩
  have hmem : row ∈ (rowsOf status (rows ++ [row])).filter fun row =>
      (acceptedRule schema row).isSome := by
    rw [List.mem_filter, mem_rowsOf]
    exact ⟨⟨List.mem_append_right _ List.mem_cons_self, hstatus⟩, by rw [haccepted]; rfl⟩
  obtain ⟨l, hl, hfrom⟩ := forall₂_mem (loaded_exact hloaded) hmem
  refine ⟨loaded, hloaded, l, hl, hfrom.ruleKey.trans hkey, hfrom.version.trans hversion, ?_⟩
  have hrule' := hfrom.rule
  rw [haccepted] at hrule'
  exact (Option.some.inj hrule').symm

/-- A good rule beside a row whose definition is no JSON. -/
def Sample.corrupt : List RuleRow :=
  [⟨"seed", 1, "active", 10, .doc (.obj [("precondition", .obj [("all", .arr [.obj
      [("field", .str "amount_inr"), ("op", .str "lt"), ("value", .int 100)]])]),
      ("action", .obj [("name", .str "no_action")])]), .doc (.obj [])⟩,
    ⟨"broken", 1, "active", 20, .malformed "\x7b", .doc (.obj [])⟩]

/-- Both rules are lost to the router. -/
theorem rules_not_loaded : ¬ LoadsExactly paymentRuleSchema .active Sample.corrupt := by
  rintro ⟨loaded, hloaded, _⟩
  have hlegible := (listByStatus_returns _ _ _).mp ⟨loaded, hloaded⟩ ⟨"broken", 1, "active", 20,
    .malformed "\x7b", .doc (.obj [])⟩ (List.mem_cons_of_mem _ List.mem_cons_self) rfl
  obtain ⟨⟨definition, h⟩, _⟩ := hlegible
  cases h

end PaymentRecovery.Recovery
