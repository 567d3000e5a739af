import PaymentRecovery.Python.Encoding

/-!
# JSON values

The values a JSON text denotes: scalars, lists, and dictionaries that have texts
as keys, each of them once.
-/

namespace PaymentRecovery.Python

mutual

/-- A value that `json.loads` can build. -/
def IsJson : PyVal → Prop
  | .list items => IsJsonAll items
  | .dict items => (items.map Prod.fst).Nodup ∧ IsJsonItems items
  | .tuple _ => False
  | .object _ _ => False
  | _ => True

def IsJsonAll : List PyVal → Prop
  | [] => True
  | value :: rest => IsJson value ∧ IsJsonAll rest

def IsJsonItems : List (PyKey × PyVal) → Prop
  | [] => True
  | (key, value) :: rest => (∃ name, key = .str name) ∧ IsJson value ∧ IsJsonItems rest

end

theorem isJsonAll_iff {items : List PyVal} : IsJsonAll items ↔ ∀ value ∈ items, IsJson value := by
  induction items with
  | nil => simp [IsJsonAll]
  | cons value rest ih => rw [IsJsonAll, ih, List.forall_mem_cons]

theorem isJsonItems_iff {items : List (PyKey × PyVal)} :
    IsJsonItems items ↔ ∀ item ∈ items, (∃ name, item.1 = .str name) ∧ IsJson item.2 := by
  induction items with
  | nil => simp [IsJsonItems]
  | cons item rest ih =>
    obtain ⟨key, value⟩ := item
    rw [IsJsonItems, ih, List.forall_mem_cons, and_assoc]

/-- A mapping of distinct names to JSON values. -/
theorem isJson_record {items : List (String × PyVal)} (hnames : (items.map Prod.fst).Nodup)
    (h : ∀ item ∈ items, IsJson item.2) : IsJson (.record items) := by
  refine ⟨?_, isJsonItems_iff.mpr fun item hitem => ?_⟩
  · have hkeys : (items.map fun item => (PyKey.str item.1, item.2)).map Prod.fst =
        (items.map Prod.fst).map PyKey.str := by
      rw [List.map_map, List.map_map]
      rfl
    rw [hkeys]
    exact List.Pairwise.map PyKey.str (fun a b hne heq => hne (PyKey.str.inj heq)) hnames
  · obtain ⟨⟨name, value⟩, hmem, rfl⟩ := List.mem_map.mp hitem
    exact ⟨⟨name, rfl⟩, h _ hmem⟩

/-- The keys after an assignment: the new one stands last. -/
theorem keys_itemSet (items : List (PyKey × PyVal)) (key : String) (value : PyVal) :
    (itemSet items key value).map Prod.fst = items.map Prod.fst ∨
    (PyKey.str key ∉ items.map Prod.fst ∧
      (itemSet items key value).map Prod.fst = items.map Prod.fst ++ [.str key]) := by
  induction items with
  | nil => exact .inr ⟨List.not_mem_nil, rfl⟩
  | cons item rest ih =>
    obtain ⟨k, v⟩ := item
    unfold itemSet
    by_cases hk : k = .str key
    · rw [if_pos hk]
      exact .inl rfl
    · rw [if_neg hk]
      rcases ih with hsame | ⟨hnew, hlast⟩
      · exact .inl (by rw [List.map_cons, hsame, List.map_cons])
      · refine .inr ⟨?_, by rw [List.map_cons, hlast]; rfl⟩
        rw [List.map_cons, List.mem_cons]
        rintro (h | h)
        · exact hk h.symm
        · exact hnew h

theorem nodup_itemSet {items : List (PyKey × PyVal)} (h : (items.map Prod.fst).Nodup) (key : String)
    (value : PyVal) : ((itemSet items key value).map Prod.fst).Nodup := by
  rcases keys_itemSet items key value with hsame | ⟨hnew, hlast⟩
  · rw [hsame]
    exact h
  · rw [hlast, (List.perm_append_singleton _ _).nodup_iff]
    exact List.nodup_cons.mpr ⟨hnew, h⟩

theorem isJsonItems_itemSet {items : List (PyKey × PyVal)} {key : String} {value : PyVal}
    (h : IsJsonItems items) (hvalue : IsJson value) : IsJsonItems (itemSet items key value) := by
  induction items with
  | nil => exact ⟨⟨key, rfl⟩, hvalue, trivial⟩
  | cons item rest ih =>
    obtain ⟨k, v⟩ := item
    obtain ⟨hkey, hv, hrest⟩ := h
    unfold itemSet
    split
    · exact ⟨hkey, hvalue, hrest⟩
    · exact ⟨hkey, hv, ih hrest⟩

mutual

/-- What `json.loads` builds is a JSON value. -/
theorem Json.isJson_toPyVal : ∀ json : Json, IsJson json.toPyVal
  | .null | .bool _ | .int _ | .float _ | .str _ => by
    rw [Json.toPyVal]
    trivial
  | .arr items => by
    rw [Json.toPyVal]
    exact isJsonAll_listToPyVal items
  | .obj members => by
    rw [Json.toPyVal]
    exact isJsonItems_membersToPyVal members [] List.nodup_nil trivial

theorem isJsonAll_listToPyVal : ∀ items : List Json, IsJsonAll (listToPyVal items)
  | [] => by
    rw [listToPyVal]
    trivial
  | json :: rest => by
    rw [listToPyVal]
    exact ⟨Json.isJson_toPyVal json, isJsonAll_listToPyVal rest⟩

theorem isJsonItems_membersToPyVal :
    ∀ (members : List (String × Json)) (items : List (PyKey × PyVal)),
      (items.map Prod.fst).Nodup → IsJsonItems items →
      ((membersToPyVal members items).map Prod.fst).Nodup ∧
        IsJsonItems (membersToPyVal members items)
  | [], items, hnodup, h => by
    rw [membersToPyVal]
    exact ⟨hnodup, h⟩
  | (key, json) :: rest, items, hnodup, h => by
    rw [membersToPyVal]
    exact isJsonItems_membersToPyVal rest _ (nodup_itemSet hnodup key _)
      (isJsonItems_itemSet h (Json.isJson_toPyVal json))

end

end PaymentRecovery.Python
