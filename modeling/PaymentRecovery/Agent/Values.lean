import PaymentRecovery.Agent.Loop
import PaymentRecovery.Python.Encoding
import PaymentRecovery.Rules.RoundTrip

/-!
# What the loop records is JSON

An observation is a bounded copy with texts as keys, validated arguments are
scalars under the names of the tool's parameters, and raw ones came out of a JSON
document. So each of them is read back as it was written, and has a text.
-/

namespace PaymentRecovery.Agent

open PaymentRecovery.Python PaymentRecovery.Rules

variable {σ : Type}

/-! ## Values -/

/-- A JSON value has a text. -/
theorem encodable_of_isJson {value : PyVal} (h : IsJson value) : value.Encodable := by
  obtain ⟨json, hjson, _⟩ := isJson_reads h
  exact ⟨json, hjson⟩

theorem isJson_ofOption {α : Type} {f : α → PyVal} {o : Option α}
    (h : ∀ a, o = some a → IsJson (f a)) : IsJson (.ofOption f o) := by
  cases o with
  | none => trivial
  | some a => exact h a rfl

/-- A member of a JSON object is a JSON value. -/
theorem isJson_member {items : List (PyKey × PyVal)} (h : IsJson (.dict items)) {key : String}
    {value : PyVal} (hget : itemGet? items key = some value) : IsJson value := by
  obtain ⟨k, hmem⟩ := mem_of_itemGet? hget
  exact (isJsonItems_iff.mp h.2 _ hmem).2

/-- **Observations are bounded JSON.** `bound_observation` makes a JSON value of anything. -/
theorem boundTo_isJson (fuel : Nat) (value : PyVal) : IsJson (boundTo fuel value) := by
  induction fuel generalizing value with
  | zero => trivial
  | succ fuel ih =>
    have hitems : ∀ items : List PyVal,
        IsJson (.list ((items.take maxItems).map (boundTo fuel))) := by
      intro items
      refine isJsonAll_iff.mpr fun v hv => ?_
      obtain ⟨item, _, rfl⟩ := List.mem_map.mp hv
      exact ih item
    unfold boundTo
    cases value with
    | none | bool | int | float | object => trivial
    | str s =>
      dsimp only
      split <;> trivial
    | list items => exact hitems items
    | tuple items => exact hitems items
    | dict items =>
      -- each item is set under its shortened text, in a dictionary of JSON values so far
      have hfold : ∀ (items out : List (PyKey × PyVal)), IsJson (.dict out) →
          IsJson (.dict (items.foldl (fun out item =>
            itemSet out (takeChars maxArgString item.1.text) (boundTo fuel item.2)) out)) := by
        intro items
        induction items with
        | nil => exact fun out hout => hout
        | cons item rest ihrest =>
          intro out hout
          exact ihrest _ ⟨nodup_itemSet hout.1 _ _, isJsonItems_itemSet hout.2 (ih item.2)⟩
      exact hfold _ [] ⟨List.nodup_nil, trivial⟩

theorem boundObservation_isJson (value : PyVal) : IsJson (boundObservation value) :=
  boundTo_isJson 5 value

/-! ## Arguments -/

theorem checkScalar_isJson {value checked : PyVal} {paramType : ToolParamType} {name : String}
    (h : checkScalar value paramType name = .ok checked) : IsJson checked := by
  unfold checkScalar at h
  split at h
  · cases h
    trivial
  · cases h
    trivial
  · cases h
  · split at h
    · cases h
    · cases h
      trivial
  · cases h
  · cases h
    trivial
  · cases h

/-- Checked arguments are JSON scalars, under some of the parameters' names in their order. -/
theorem checkParams_isJson {items : List (PyKey × PyVal)} {params : List (String × ToolParam)}
    {args : Args} (h : checkParams items params = .ok args) :
    (args.map Prod.fst).Sublist (params.map Prod.fst) ∧ ∀ arg ∈ args, IsJson arg.2 := by
  induction params generalizing args with
  | nil =>
    cases h
    exact ⟨.slnil, by simp⟩
  | cons param rest ih =>
    obtain ⟨name, param⟩ := param
    unfold checkParams at h
    split at h
    · split at h
      · cases h
      · -- an optional parameter without an argument
        obtain ⟨hnames, hargs⟩ := ih h
        exact ⟨hnames.cons _, hargs⟩
    · rename_i value _
      cases hcheck : checkScalar value param.type name with
      | error exc =>
        rw [hcheck] at h
        cases h
      | ok checked =>
        cases hrest : checkParams items rest with
        | error exc =>
          rw [hcheck, hrest] at h
          cases h
        | ok args' =>
          rw [hcheck, hrest] at h
          injection h with h
          obtain ⟨hnames, hargs⟩ := ih hrest
          subst h
          exact ⟨hnames.cons_cons _, List.forall_mem_cons.mpr ⟨checkScalar_isJson hcheck, hargs⟩⟩

/-- Validated arguments are a JSON object. -/
theorem validateArgs_isJson {spec : ToolSpec σ} {raw : PyVal} {args : Args}
    (h : validateArgs spec raw = .ok args) : IsJson (.record args) := by
  unfold validateArgs at h
  split at h
  · dsimp only at h
    split at h
    · obtain ⟨hnames, hargs⟩ := checkParams_isJson h
      exact isJson_record (hnames.nodup spec.distinct) hargs
    · cases h
  · cases h

/-- The arguments of a decision came out of a JSON document. -/
theorem parseDecision_isJson {response : LLMResponse} {thought tool : String}
    {args : List (PyKey × PyVal)}
    (h : parseDecision response = .ok (some (.call thought tool args))) :
    IsJson (.dict args) := by
  unfold parseDecision at h
  split at h
  · rename_i doc _
    injection h with h
    have hdoc := Json.isJson_toPyVal doc
    unfold decisionOf at h
    split at h
    · rename_i items heq
      rw [heq] at hdoc
      dsimp only at h
      split at h
      · cases h
      · rename_i fields _ haction
        have hfields := isJson_member hdoc haction
        split at h
        · rename_i args' _ hargs
          injection h with h
          injection h with _ _ h
          rw [← h]
          cases hget : itemGet? fields "args" with
          | none =>
            -- missing arguments are an empty object
            rw [hget] at hargs
            injection hargs with hargs
            exact hargs ▸ ⟨List.nodup_nil, trivial⟩
          | some value =>
            rw [hget] at hargs
            rw [← hargs]
            exact isJson_member hfields hget
        · cases h
      · cases h
    · cases h
  · split at h
    · injection h with h
      cases h
    · cases h

end PaymentRecovery.Agent
