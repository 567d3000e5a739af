import PaymentRecovery.Python.Builtins
import PaymentRecovery.Python.JsonValues

/-!
# How large a value is

The nodes of a value with their levels, and what limits on texts, containers, keys
and nesting say of it.
-/

namespace PaymentRecovery.Python

/-- How long texts and keys, how large containers and how deep values may be. -/
structure Limits where
  string : Nat
  items : Nat
  key : Nat
  level : Nat

mutual

/-- The nodes of a value with their levels; the value itself is at `level`. -/
def PyVal.nodesFrom (level : Nat) : PyVal → List (Nat × PyVal)
  | .list items => (level, .list items) :: nodesOfList (level + 1) items
  | .tuple items => (level, .tuple items) :: nodesOfList (level + 1) items
  | .dict items => (level, .dict items) :: nodesOfItems (level + 1) items
  | value => [(level, value)]

def nodesOfList (level : Nat) : List PyVal → List (Nat × PyVal)
  | [] => []
  | value :: rest => value.nodesFrom level ++ nodesOfList level rest

def nodesOfItems (level : Nat) : List (PyKey × PyVal) → List (Nat × PyVal)
  | [] => []
  | (_, value) :: rest => value.nodesFrom level ++ nodesOfItems level rest

end

/-- The node by itself is not too large. -/
def Limits.Allows (limits : Limits) : PyVal → Prop
  | .str s => s.length ≤ limits.string
  | .list items => items.length ≤ limits.items
  | .tuple items => items.length ≤ limits.items
  | .dict items => items.length ≤ limits.items ∧
      ∀ item ∈ items, item.1.text.length ≤ limits.key
  | _ => True

instance (limits : Limits) : DecidablePred limits.Allows
  | .str _ | .list _ | .tuple _ => inferInstanceAs (Decidable (_ ≤ _))
  | .dict _ => inferInstanceAs (Decidable (_ ∧ _))
  | .none | .bool _ | .int _ | .float _ | .object _ _ => .isTrue trivial

/-- No node of the value is too large or too deep, if the value is at `level`. -/
def WithinFrom (limits : Limits) (level : Nat) (value : PyVal) : Prop :=
  ∀ node ∈ value.nodesFrom level, node.1 ≤ limits.level ∧ limits.Allows node.2

instance (limits : Limits) (level : Nat) : DecidablePred (WithinFrom limits level) :=
  fun _ => inferInstanceAs (Decidable (∀ node ∈ _, _))

/-- A JSON value within the limits. -/
structure Bounded (limits : Limits) (value : PyVal) : Prop where
  json : IsJson value
  within : WithinFrom limits 0 value

variable {limits : Limits} {level : Nat}

theorem mem_nodesOfList {items : List PyVal} {node : Nat × PyVal} :
    node ∈ nodesOfList level items ↔ ∃ item ∈ items, node ∈ item.nodesFrom level := by
  induction items with
  | nil => simp [nodesOfList]
  | cons item rest ih => rw [nodesOfList, List.mem_append, ih, List.exists_mem_cons_iff]

theorem mem_nodesOfItems {items : List (PyKey × PyVal)} {node : Nat × PyVal} :
    node ∈ nodesOfItems level items ↔ ∃ item ∈ items, node ∈ item.2.nodesFrom level := by
  induction items with
  | nil => simp [nodesOfItems]
  | cons item rest ih => rw [nodesOfItems, List.mem_append, ih, List.exists_mem_cons_iff]

/-- Every value is one of its nodes. -/
theorem mem_nodesFrom_self (value : PyVal) : (level, value) ∈ value.nodesFrom level := by
  cases value <;> exact List.mem_cons_self

/-- A list is within the limits if it and its items are. -/
theorem withinFrom_list {items : List PyVal} :
    WithinFrom limits level (.list items) ↔ level ≤ limits.level ∧ items.length ≤ limits.items ∧
      ∀ item ∈ items, WithinFrom limits (level + 1) item := by
  unfold WithinFrom
  rw [PyVal.nodesFrom, List.forall_mem_cons, and_assoc]
  refine and_congr_right fun _ => and_congr_right fun _ => ?_
  refine ⟨fun h item hitem node hnode => ?_, fun h node hnode => ?_⟩
  · exact h node (mem_nodesOfList.mpr ⟨item, hitem, hnode⟩)
  · obtain ⟨item, hitem, hnode⟩ := mem_nodesOfList.mp hnode
    exact h item hitem node hnode

/-- A mapping is within the limits if it, its keys and its values are. -/
theorem withinFrom_dict {items : List (PyKey × PyVal)} :
    WithinFrom limits level (.dict items) ↔ level ≤ limits.level ∧ items.length ≤ limits.items ∧
      ∀ item ∈ items, item.1.text.length ≤ limits.key ∧
        WithinFrom limits (level + 1) item.2 := by
  unfold WithinFrom
  rw [PyVal.nodesFrom, List.forall_mem_cons, and_assoc]
  refine and_congr_right fun _ => ?_
  unfold Limits.Allows
  rw [and_assoc]
  refine and_congr_right fun _ => ?_
  refine ⟨fun h item hitem => ⟨h.1 item hitem, fun node hnode => ?_⟩,
    fun h => ⟨fun item hitem => (h item hitem).1, fun node hnode => ?_⟩⟩
  · exact h.2 node (mem_nodesOfItems.mpr ⟨item, hitem, hnode⟩)
  · obtain ⟨item, hitem, hnode⟩ := mem_nodesOfItems.mp hnode
    exact (h item hitem).2 node hnode

/-- A value that is its only node. -/
theorem withinFrom_leaf {value : PyVal} (hnodes : value.nodesFrom level = [(level, value)]) :
    WithinFrom limits level value ↔ level ≤ limits.level ∧ limits.Allows value := by
  unfold WithinFrom
  rw [hnodes, List.forall_mem_singleton]

theorem withinFrom_str {s : String} :
    WithinFrom limits level (.str s) ↔ level ≤ limits.level ∧ s.length ≤ limits.string :=
  withinFrom_leaf rfl

/-! ## Texts cut off -/

theorem length_takeChars_le (n : Nat) (s : String) : (takeChars n s).length ≤ n := by
  unfold takeChars
  rw [String.length_ofList]
  exact List.length_take_le n _

theorem takeChars_of_length_le {n : Nat} {s : String} (h : s.length ≤ n) : takeChars n s = s := by
  unfold takeChars
  rw [List.take_of_length_le (by rw [String.length_toList]; exact h), String.ofList_toList]

/-- What was cut off and continued is cut off at the same place. -/
theorem takeChars_append {n : Nat} {s : String} (h : n ≤ s.length) (rest : String) :
    takeChars n (takeChars n s ++ rest) = takeChars n s := by
  unfold takeChars
  rw [String.toList_append, String.toList_ofList, List.take_append_of_le_length, List.take_take,
    Nat.min_self]
  rw [List.length_take, String.length_toList, Nat.min_eq_left h]

end PaymentRecovery.Python
