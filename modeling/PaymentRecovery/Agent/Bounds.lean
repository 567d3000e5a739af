import PaymentRecovery.Agent.Values
import PaymentRecovery.Python.Sizes

/-!
# Observations are bounded

`bound_observation` is a projection onto bounded JSON values: what it returns is within the
limits, it leaves its own results alone, and it leaves a JSON value alone that is a little
smaller still, since a text that is cut off gets one character longer than the cut.
-/

namespace PaymentRecovery.Agent

open PaymentRecovery.Python PaymentRecovery.Rules

/-- The limits of an observation. -/
def observationLimits : Limits := ⟨501, 50, 256, 5⟩

/-- The limits under which nothing is cut off. -/
def unchangedLimits : Limits := ⟨500, 50, 256, 4⟩

/-- The items of a bounded mapping, each set under its shortened text. -/
def boundItems (fuel : Nat) (items out : List (PyKey × PyVal)) : List (PyKey × PyVal) :=
  items.foldl (fun out item => itemSet out (takeChars maxArgString item.1.text)
    (boundTo fuel item.2)) out

theorem boundTo_dict (fuel : Nat) (items : List (PyKey × PyVal)) :
    boundTo (fuel + 1) (.dict items) = .dict (boundItems fuel (items.take maxItems) []) := rfl

theorem boundTo_list (fuel : Nat) (items : List PyVal) :
    boundTo (fuel + 1) (.list items) = .list ((items.take maxItems).map (boundTo fuel)) := rfl

/-! ## Within the limits -/

theorem mem_itemSet {items : List (PyKey × PyVal)} {key : String} {value : PyVal}
    {item : PyKey × PyVal} (h : item ∈ itemSet items key value) :
    item = (.str key, value) ∨ item ∈ items := by
  induction items with
  | nil => exact .inl (List.mem_singleton.mp h)
  | cons first rest ih =>
    obtain ⟨k, v⟩ := first
    unfold itemSet at h
    split at h
    · rename_i hk
      rcases List.mem_cons.mp h with rfl | hmem
      · exact .inl (by rw [hk])
      · exact .inr (List.mem_cons_of_mem _ hmem)
    · rcases List.mem_cons.mp h with rfl | hmem
      · exact .inr List.mem_cons_self
      · exact (ih hmem).imp_right (List.mem_cons_of_mem _)

theorem length_itemSet_le (items : List (PyKey × PyVal)) (key : String) (value : PyVal) :
    (itemSet items key value).length ≤ items.length + 1 := by
  rcases keys_itemSet items key value with hsame | ⟨_, hlast⟩
  · have hlength := congrArg List.length hsame
    rw [List.length_map, List.length_map] at hlength
    omega
  · have hlength := congrArg List.length hlast
    rw [List.length_map, List.length_append, List.length_map, List.length_singleton] at hlength
    omega

/-- Each item of the bounded mapping is one that was there before, or a bounded value under a
shortened text. -/
theorem mem_boundItems {fuel : Nat} {items out : List (PyKey × PyVal)} {item : PyKey × PyVal}
    (h : item ∈ boundItems fuel items out) :
    item ∈ out ∨ ∃ source ∈ items,
      item = (.str (takeChars maxArgString source.1.text), boundTo fuel source.2) := by
  induction items generalizing out with
  | nil => exact .inl h
  | cons first rest ih =>
    rcases ih h with hmem | ⟨source, hsource, hitem⟩
    · rcases mem_itemSet hmem with hset | hold
      · exact .inr ⟨first, List.mem_cons_self, hset⟩
      · exact .inl hold
    · exact .inr ⟨source, List.mem_cons_of_mem _ hsource, hitem⟩

theorem length_boundItems_le (fuel : Nat) (items out : List (PyKey × PyVal)) :
    (boundItems fuel items out).length ≤ out.length + items.length := by
  induction items generalizing out with
  | nil => exact Nat.le_refl _
  | cons first rest ih =>
    have hset := length_itemSet_le out (takeChars maxArgString first.1.text) (boundTo fuel first.2)
    have hrest := ih (itemSet out (takeChars maxArgString first.1.text) (boundTo fuel first.2))
    unfold boundItems at hrest ⊢
    rw [List.foldl_cons, List.length_cons]
    omega

/-- Cut off or not, a bounded text is at most one character over the cut. -/
theorem boundTo_str_within {fuel level : Nat} (hlevel : level ≤ 5) (s : String) :
    WithinFrom observationLimits level (boundTo (fuel + 1) (.str s)) := by
  unfold boundTo
  dsimp only
  split
  · rename_i hshort
    exact withinFrom_str.mpr ⟨hlevel, Nat.le_succ_of_le hshort⟩
  · refine withinFrom_str.mpr ⟨hlevel, ?_⟩
    have hcut := length_takeChars_le maxString s
    rw [String.length_append]
    exact Nat.add_le_add_right hcut 1

/-- What is bounded `fuel` levels deep is within the limits, `fuel` levels above the lowest. -/
theorem boundTo_within (fuel level : Nat) (hlevel : level + fuel ≤ 5) (value : PyVal) :
    WithinFrom observationLimits level (boundTo fuel value) := by
  induction fuel generalizing level value with
  | zero => exact withinFrom_str.mpr ⟨hlevel, by decide⟩
  | succ fuel ih =>
    have hhere : level ≤ observationLimits.level := Nat.le_trans (Nat.le_add_right _ _) hlevel
    have hitems : ∀ items : List PyVal,
        WithinFrom observationLimits level (.list ((items.take maxItems).map (boundTo fuel))) := by
      intro items
      refine withinFrom_list.mpr ⟨hhere, ?_, fun item hitem => ?_⟩
      · rw [List.length_map]
        exact List.length_take_le _ _
      · obtain ⟨source, _, rfl⟩ := List.mem_map.mp hitem
        exact ih (level + 1) (by omega) source
    cases value with
    | str s => exact boundTo_str_within hhere s
    | list items => exact hitems items
    | tuple items => exact hitems items
    | dict items =>
      rw [boundTo_dict]
      refine withinFrom_dict.mpr ⟨hhere, ?_, fun item hitem => ?_⟩
      · refine (length_boundItems_le fuel _ []).trans ?_
        rw [List.length_nil, Nat.zero_add]
        exact List.length_take_le _ _
      · rcases mem_boundItems hitem with hnone | ⟨source, _, rfl⟩
        · cases hnone
        · exact ⟨length_takeChars_le _ _, ih (level + 1) (by omega) source.2⟩
    | object typeName text =>
      exact withinFrom_str.mpr ⟨hhere, Nat.le_succ_of_le (length_takeChars_le _ _)⟩
    | none | bool | int | float => exact (withinFrom_leaf rfl).mpr ⟨hhere, trivial⟩

/-! ## What is left alone -/

/-- Bounding leaves the value alone. -/
def Unchanged (fuel : Nat) (value : PyVal) : Prop := boundTo fuel value = value

theorem unchanged_str {fuel : Nat} {s : String} (h : s.length ≤ maxString) :
    Unchanged (fuel + 1) (.str s) := by
  unfold Unchanged boundTo
  dsimp only
  rw [if_pos h]

/-- A text that was cut off is cut off at the same place again. -/
theorem unchanged_cut {fuel : Nat} {s : String} (h : maxString < s.length) :
    Unchanged (fuel + 1) (.str (takeChars maxString s ++ "…")) := by
  have hsame := takeChars_append h.le "…"
  unfold Unchanged boundTo
  dsimp only
  split
  · rfl
  · rw [hsame]

theorem unchanged_list {fuel : Nat} {items : List PyVal} (hlength : items.length ≤ maxItems)
    (hitems : ∀ item ∈ items, Unchanged fuel item) : Unchanged (fuel + 1) (.list items) := by
  unfold Unchanged
  rw [boundTo_list, List.take_of_length_le hlength]
  exact congrArg PyVal.list ((List.map_congr_left hitems).trans (List.map_id _))

/-- Short keys that are all different stay, in their order. -/
theorem boundItems_unchanged {fuel : Nat} {items : List (PyKey × PyVal)}
    (out : List (PyKey × PyVal)) (hnodup : ((out ++ items).map Prod.fst).Nodup)
    (hitems : ∀ item ∈ items, ∃ name : String, item.1 = .str name ∧
      name.length ≤ maxArgString ∧ Unchanged fuel item.2) :
    boundItems fuel items out = out ++ items := by
  induction items generalizing out with
  | nil => exact (List.append_nil out).symm
  | cons first rest ih =>
    obtain ⟨key, value⟩ := first
    obtain ⟨⟨name, rfl, hname, hvalue⟩, hrest⟩ := List.forall_mem_cons.mp hitems
    have hfirst : itemSet out (takeChars maxArgString (PyKey.str name).text) (boundTo fuel value) =
        out ++ [(.str name, value)] := by
      rw [show (PyKey.str name).text = name from rfl, takeChars_of_length_le hname,
        show boundTo fuel value = value from hvalue]
      rw [List.map_append, List.map_cons, List.nodup_middle, List.nodup_cons, List.mem_append,
        not_or] at hnodup
      exact itemSet_new hnodup.1.1
    show boundItems fuel rest (itemSet out _ _) = _
    rw [hfirst, ih _ (by simpa using hnodup) hrest, List.append_assoc]
    rfl

theorem unchanged_dict {fuel : Nat} {items : List (PyKey × PyVal)}
    (hlength : items.length ≤ maxItems) (hnodup : (items.map Prod.fst).Nodup)
    (hitems : ∀ item ∈ items, ∃ name : String, item.1 = .str name ∧
      name.length ≤ maxArgString ∧ Unchanged fuel item.2) :
    Unchanged (fuel + 1) (.dict items) := by
  unfold Unchanged
  rw [boundTo_dict, List.take_of_length_le hlength,
    boundItems_unchanged [] (by simpa using hnodup) hitems, List.nil_append]

/-- What was bounded is left alone. -/
theorem boundTo_unchanged (fuel : Nat) (value : PyVal) : Unchanged fuel (boundTo fuel value) := by
  induction fuel generalizing value with
  | zero => rfl
  | succ fuel ih =>
    have hitems : ∀ items : List PyVal,
        Unchanged (fuel + 1) (.list ((items.take maxItems).map (boundTo fuel))) := by
      intro items
      refine unchanged_list ?_ fun item hitem => ?_
      · rw [List.length_map]
        exact List.length_take_le _ _
      · obtain ⟨source, _, rfl⟩ := List.mem_map.mp hitem
        exact ih source
    cases value with
    | none | bool | int | float => rfl
    | str s =>
      by_cases hshort : s.length ≤ maxString
      · rw [show boundTo (fuel + 1) (.str s) = .str s from unchanged_str hshort]
        exact unchanged_str hshort
      · have hcut : boundTo (fuel + 1) (.str s) = .str (takeChars maxString s ++ "…") := by
          unfold boundTo
          dsimp only
          rw [if_neg hshort]
        rw [hcut]
        exact unchanged_cut (Nat.not_le.mp hshort)
    | list items => exact hitems items
    | tuple items => exact hitems items
    | object typeName text => exact unchanged_str (length_takeChars_le _ _)
    | dict items =>
      have hjson : IsJson (boundTo (fuel + 1) (.dict items)) := boundTo_isJson _ _
      rw [boundTo_dict] at hjson ⊢
      refine unchanged_dict ?_ hjson.1 fun item hitem => ?_
      · refine (length_boundItems_le fuel _ []).trans ?_
        rw [List.length_nil, Nat.zero_add]
        exact List.length_take_le _ _
      · rcases mem_boundItems hitem with hnone | ⟨source, _, rfl⟩
        · cases hnone
        · exact ⟨_, rfl, length_takeChars_le _ _, ih source.2⟩

/-- A JSON value within the smaller limits is left alone. -/
theorem unchanged_of_within (fuel level : Nat) (hlevel : level + fuel = 5) {value : PyVal}
    (hjson : IsJson value) (hwithin : WithinFrom unchangedLimits level value) :
    Unchanged fuel value := by
  induction fuel generalizing level value with
  | zero =>
    have hlow : level ≤ 4 := (hwithin _ (mem_nodesFrom_self value)).1
    omega
  | succ fuel ih =>
    cases value with
    | none | bool | int | float => rfl
    | str s => exact unchanged_str (withinFrom_str.mp hwithin).2
    | tuple | object => exact hjson.elim
    | list items =>
      obtain ⟨_, hlength, hitems⟩ := withinFrom_list.mp hwithin
      exact unchanged_list hlength fun item hitem => ih (level + 1) (by omega)
        (isJsonAll_iff.mp hjson item hitem) (hitems item hitem)
    | dict items =>
      obtain ⟨_, hlength, hitems⟩ := withinFrom_dict.mp hwithin
      refine unchanged_dict hlength hjson.1 fun item hitem => ?_
      obtain ⟨⟨name, hname⟩, hvalue⟩ := isJsonItems_iff.mp hjson.2 item hitem
      obtain ⟨hkey, hbelow⟩ := hitems item hitem
      rw [hname] at hkey
      exact ⟨name, hname, hkey, ih (level + 1) (by omega) hvalue hbelow⟩

/-- Whatever is observed is bounded. -/
theorem boundObservation_bounded (value : PyVal) :
    Bounded observationLimits (boundObservation value) :=
  ⟨boundObservation_isJson value, boundTo_within 5 0 (Nat.le_refl 5) value⟩

/-- **A bounded projection.** Whatever the value: the result of `bound_observation` is a JSON value
within the limits, bounding it again changes nothing, and a JSON value within the smaller limits
is its own result. -/
theorem bound_observation_projects (value : PyVal) :
    Bounded observationLimits (boundObservation value) ∧
    boundObservation (boundObservation value) = boundObservation value ∧
    (Bounded unchangedLimits value → boundObservation value = value) :=
  ⟨boundObservation_bounded value, boundTo_unchanged 5 value,
    fun h => unchanged_of_within 5 0 rfl h.json h.within⟩

end PaymentRecovery.Agent
