import PaymentRecovery.Lib.Dict
import Mathlib.Data.List.Count
import Mathlib.Data.List.Induction

/-!
# Grouping by a key

One pass over a list keeps an accumulator for each key in a dictionary. The pass is
a partition: what it keeps under a key is the fold over the elements with that key,
and the keys it has are those of the elements.
-/

namespace PaymentRecovery.Lib

section GroupFold

variable {α κ γ : Type} [DecidableEq κ]

/-- Fold the elements of each key into the accumulator kept under it. -/
def groupFold (key : α → κ) (start : κ → γ) (step : γ → α → γ) (xs : List α) : Dict κ γ :=
  xs.foldl (fun groups x =>
    groups.set (key x) (step ((groups.get? (key x)).getD (start (key x))) x)) .empty

variable (key : α → κ) (start : κ → γ) (step : γ → α → γ)

theorem groupFold_snoc (xs : List α) (x : α) :
    groupFold key start step (xs ++ [x]) =
      (groupFold key start step xs).set (key x)
        (step (((groupFold key start step xs).get? (key x)).getD (start (key x))) x) := by
  unfold groupFold
  rw [List.foldl_append]
  rfl

/-- Under a key there is the fold over the elements with that key, if there are any. -/
theorem get?_groupFold (xs : List α) (k : κ) :
    (groupFold key start step xs).get? k =
      if k ∈ xs.map key then some ((xs.filter fun x => key x = k).foldl step (start k))
      else none := by
  -- the pass takes its elements from the left, so the induction adds one at the right
  induction xs using List.reverseRecOn with
  | nil => rfl
  | append_singleton xs x ih =>
    rw [groupFold_snoc, Dict.get?_set, List.filter_append]
    by_cases hx : key x = k
    · subst hx
      have hmem : key x ∈ (xs ++ [x]).map key :=
        List.mem_map_of_mem (List.mem_append_right xs List.mem_cons_self)
      have hkept : ((groupFold key start step xs).get? (key x)).getD (start (key x)) =
          (xs.filter fun y => key y = key x).foldl step (start (key x)) := by
        rw [ih]
        split_ifs with hbefore
        · rfl
        · have hnone : (xs.filter fun y => key y = key x) = [] := by
            rw [List.filter_eq_nil_iff]
            intro y hy
            have hne : key y ≠ key x := fun h => hbefore (h ▸ List.mem_map_of_mem hy)
            simpa using hne
          rw [hnone]
          rfl
      rw [if_pos rfl, if_pos hmem, hkept, List.filter_cons_of_pos (by simp),
        List.filter_nil, List.foldl_append]
      rfl
    · have hsame : k ∈ (xs ++ [x]).map key ↔ k ∈ xs.map key := by
        simp [Ne.symm hx]
      rw [if_neg (Ne.symm hx), ih, List.filter_cons_of_neg (by simpa using hx), List.filter_nil,
        List.append_nil]
      simp only [hsame]

/-- The accumulators are the folds over the groups of the keys that occur. -/
theorem mem_values_groupFold {xs : List α} {c : γ} :
    c ∈ (groupFold key start step xs).values ↔
      ∃ k ∈ xs.map key, c = (xs.filter fun x => key x = k).foldl step (start k) := by
  rw [Dict.mem_values]
  refine exists_congr fun k => ?_
  rw [get?_groupFold]
  split_ifs with hk
  · rw [Option.some.injEq]
    exact ⟨fun h => ⟨hk, h.symm⟩, fun h => h.2.symm⟩
  · exact ⟨nofun, fun h => absurd h.1 hk⟩

/-- An accumulator that says which key it is for occurs once for each key. -/
theorem nodup_values_groupFold {keyOf : γ → κ} (xs : List α)
    (hkey : ∀ k ys, keyOf (List.foldl step (start k) ys) = k) :
    ((groupFold key start step xs).values.map keyOf).Nodup := by
  have hentries : ∀ entry ∈ (groupFold key start step xs).entries, keyOf entry.2 = entry.1 := by
    intro entry hentry
    have hget : (groupFold key start step xs).get? entry.1 = some entry.2 :=
      Dict.findEntry_of_mem (groupFold key start step xs).nodup hentry
    rw [get?_groupFold] at hget
    split_ifs at hget with hk
    rw [← Option.some.inj hget]
    exact hkey entry.1 _
  have hkeys : (groupFold key start step xs).values.map keyOf =
      (groupFold key start step xs).entries.map Prod.fst := by
    unfold Dict.values
    rw [List.map_map]
    exact List.map_congr_left hentries
  rw [hkeys]
  exact (groupFold key start step xs).nodup

end GroupFold

/-! ## Tallies and majorities -/

/-- A tally by value: one more for each element met. -/
theorem get?_tally {α κ : Type} [DecidableEq κ] (value : α → κ) (xs : List α) (k : κ) :
    (groupFold value (fun _ => 0) (fun n _ => n + 1) xs).get? k =
      if k ∈ xs.map value then some ((xs.map value).count k) else none := by
  have hfold : ∀ (ys : List α) (n : Nat), ys.foldl (fun n _ => n + 1) n = n + ys.length := by
    intro ys
    induction ys with
    | nil => intro n; rfl
    | cons y rest ih =>
      intro n
      rw [List.foldl_cons, ih, List.length_cons]
      omega
  have hcount : (xs.map value).count k = (xs.filter fun x => value x = k).length := by
    rw [List.count_eq_countP, List.countP_map, List.countP_eq_length_filter]
    congr 1
  rw [get?_groupFold, hfold, Nat.zero_add, hcount]

/-- Two values take no more places than there are. -/
theorem count_add_count_le {α : Type} [DecidableEq α] {a b : α} (h : a ≠ b) (xs : List α) :
    xs.count a + xs.count b ≤ xs.length := by
  induction xs with
  | nil => exact Nat.le_refl 0
  | cons x rest ih =>
    rw [List.count_cons, List.count_cons, List.length_cons]
    by_cases ha : x = a
    · have hb : x ≠ b := fun hb => h (ha.symm.trans hb)
      rw [if_pos (by simpa using ha), if_neg (by simpa using hb)]
      omega
    · rw [if_neg (by simpa using ha)]
      split_ifs <;> omega

/-- Of two values that each take more than half of the places, one is the other. -/
theorem majority_unique {α : Type} [DecidableEq α] {a b : α} (xs : List α)
    (ha : xs.length < 2 * xs.count a) (hb : xs.length < 2 * xs.count b) : a = b := by
  by_contra hne
  have hle := count_add_count_le hne xs
  omega

end PaymentRecovery.Lib
