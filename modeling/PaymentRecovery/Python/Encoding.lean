import PaymentRecovery.Python.Value

/-!
# Values with a JSON text

Which values `json.dumps` encodes: everything built from scalars, lists, tuples
and mappings with scalar keys. What it wrote can be read again.
-/

namespace PaymentRecovery.Python

/-- `json.dumps` has a text for the value. -/
def PyVal.Encodable (value : PyVal) : Prop :=
  ∃ json, value.toJson = .ok json

theorem PyVal.Encodable.dumps {value : PyVal} (h : value.Encodable) :
    ∃ text, jsonDumps value = .ok text := by
  obtain ⟨json, hjson⟩ := h
  exact ⟨.doc json, by simp [jsonDumps, hjson, Bind.bind, Except.bind, Pure.pure, Except.pure]⟩

/-- An entry of a mapping that `json.dumps` encodes. -/
def EncodableItem (item : PyKey × PyVal) : Prop :=
  (∃ text, item.1.toJson = .ok text) ∧ item.2.Encodable

theorem listToJson_ok {items : List PyVal} (h : ∀ value ∈ items, value.Encodable) :
    ∃ jsons, listToJson items = .ok jsons := by
  induction items with
  | nil => exact ⟨[], rfl⟩
  | cons value rest ih =>
    obtain ⟨json, hjson⟩ := h value List.mem_cons_self
    obtain ⟨jsons, hjsons⟩ := ih fun v hv => h v (List.mem_cons_of_mem _ hv)
    refine ⟨json :: jsons, ?_⟩
    rw [listToJson, hjson, hjsons]
    rfl

theorem itemsToJson_ok {items : List (PyKey × PyVal)} (h : ∀ item ∈ items, EncodableItem item) :
    ∃ members, itemsToJson items = .ok members := by
  induction items with
  | nil => exact ⟨[], rfl⟩
  | cons item rest ih =>
    obtain ⟨key, value⟩ := item
    obtain ⟨⟨text, htext⟩, json, hjson⟩ := h (key, value) List.mem_cons_self
    obtain ⟨members, hmembers⟩ := ih fun i hi => h i (List.mem_cons_of_mem _ hi)
    refine ⟨(text, json) :: members, ?_⟩
    dsimp only at htext hjson
    rw [itemsToJson, htext, hjson, hmembers]
    rfl

namespace PyVal.Encodable

theorem none : PyVal.none.Encodable := ⟨_, rfl⟩
theorem bool (b : Bool) : (PyVal.bool b).Encodable := ⟨_, rfl⟩
theorem int (i : Int) : (PyVal.int i).Encodable := ⟨_, rfl⟩
theorem float (x : ℚ) : (PyVal.float x).Encodable := ⟨_, rfl⟩
theorem str (s : String) : (PyVal.str s).Encodable := ⟨_, rfl⟩

theorem list {items : List PyVal} (h : ∀ value ∈ items, value.Encodable) :
    (PyVal.list items).Encodable := by
  obtain ⟨jsons, hjsons⟩ := listToJson_ok h
  exact ⟨.arr jsons, by rw [PyVal.toJson, hjsons]; rfl⟩

theorem dict {items : List (PyKey × PyVal)} (h : ∀ item ∈ items, EncodableItem item) :
    (PyVal.dict items).Encodable := by
  obtain ⟨members, hmembers⟩ := itemsToJson_ok h
  exact ⟨.obj members, by rw [PyVal.toJson, hmembers]; rfl⟩

theorem record {items : List (String × PyVal)} (h : ∀ item ∈ items, item.2.Encodable) :
    (PyVal.record items).Encodable := by
  refine dict fun item hitem => ?_
  obtain ⟨⟨key, value⟩, hmem, rfl⟩ := List.mem_map.mp hitem
  exact ⟨⟨key, rfl⟩, h _ hmem⟩

theorem ofOption {α : Type} {f : α → PyVal} (h : ∀ a, (f a).Encodable) (o : Option α) :
    (PyVal.ofOption f o).Encodable := by
  cases o with
  | none => exact .none
  | some a => exact h a

end PyVal.Encodable

/-- A mapping that has a text has one for every entry. -/
theorem PyVal.Encodable.items {items : List (PyKey × PyVal)}
    (h : (PyVal.dict items).Encodable) : ∀ item ∈ items, EncodableItem item := by
  obtain ⟨json, hjson⟩ := h
  have hitems : ∃ members, itemsToJson items = .ok members := by
    rw [PyVal.toJson] at hjson
    cases hm : itemsToJson items with
    | ok members => exact ⟨members, rfl⟩
    | error exc =>
      rw [hm] at hjson
      cases hjson
  clear hjson
  induction items with
  | nil => simp
  | cons item rest ih =>
    obtain ⟨key, value⟩ := item
    obtain ⟨members, hmembers⟩ := hitems
    rw [itemsToJson] at hmembers
    cases hkey : key.toJson with
    | error exc =>
      rw [hkey] at hmembers
      cases hmembers
    | ok text =>
      cases hvalue : value.toJson with
      | error exc =>
        rw [hkey, hvalue] at hmembers
        cases hmembers
      | ok json =>
        cases hrest : itemsToJson rest with
        | error exc =>
          rw [hkey, hvalue, hrest] at hmembers
          cases hmembers
        | ok members' =>
          intro item hitem
          rcases List.mem_cons.mp hitem with rfl | hmem
          · exact ⟨⟨text, hkey⟩, json, hvalue⟩
          · exact ih ⟨members', hrest⟩ item hmem

theorem mem_of_itemGet? {items : List (PyKey × PyVal)} {key : String} {value : PyVal}
    (h : itemGet? items key = some value) : ∃ k, (k, value) ∈ items := by
  induction items with
  | nil => cases h
  | cons item rest ih =>
    obtain ⟨k, v⟩ := item
    unfold itemGet? at h
    split at h
    · injection h with h
      exact ⟨k, h ▸ List.mem_cons_self⟩
    · obtain ⟨k', hmem⟩ := ih h
      exact ⟨k', List.mem_cons_of_mem _ hmem⟩

/-- What `json.dumps` wrote can be read again. -/
theorem jsonLoads_of_jsonDumps {value : PyVal} {text : JsonText} (h : jsonDumps value = .ok text) :
    ∃ value', jsonLoads text = .ok value' := by
  unfold jsonDumps at h
  cases hjson : value.toJson with
  | error exc =>
    rw [hjson] at h
    cases h
  | ok json =>
    rw [hjson] at h
    injection h with h
    exact ⟨json.toPyVal, by rw [← h]; rfl⟩

end PaymentRecovery.Python
