import Mathlib.Data.List.Nodup
import Mathlib.Data.List.Basic

/-!
# Insertion-ordered dictionaries

A finite map that remembers the order in which its keys first arrived:
overwriting a key keeps its place, a new key goes to the end. Distinctness of
the keys is part of the type.
-/

namespace PaymentRecovery.Lib

/-- A finite map with its entries in insertion order. -/
structure Dict (κ ν : Type) where
  entries : List (κ × ν)
  nodup : (entries.map Prod.fst).Nodup

namespace Dict

variable {κ ν : Type} [DecidableEq κ]

/-- Overwrite the entry of `k` in place, or add one at the end. -/
def insertEntry (k : κ) (v : ν) : List (κ × ν) → List (κ × ν)
  | [] => [(k, v)]
  | (k', v') :: rest => if k' = k then (k, v) :: rest else (k', v') :: insertEntry k v rest

/-- The value of the first entry with key `k`. -/
def findEntry (k : κ) : List (κ × ν) → Option ν
  | [] => none
  | (k', v') :: rest => if k' = k then some v' else findEntry k rest

theorem mem_keys_insertEntry {k k' : κ} {v : ν} {l : List (κ × ν)} :
    k' ∈ (insertEntry k v l).map Prod.fst ↔ k' = k ∨ k' ∈ l.map Prod.fst := by
  induction l with
  | nil => simp [insertEntry]
  | cons e rest ih =>
    obtain ⟨k₀, v₀⟩ := e
    unfold insertEntry
    split
    · rename_i h
      simp [h]
    · simp only [List.map_cons, List.mem_cons, ih]
      tauto

theorem nodup_insertEntry {k : κ} {v : ν} {l : List (κ × ν)}
    (h : (l.map Prod.fst).Nodup) : ((insertEntry k v l).map Prod.fst).Nodup := by
  induction l with
  | nil => simp [insertEntry]
  | cons e rest ih =>
    obtain ⟨k₀, v₀⟩ := e
    rw [List.map_cons, List.nodup_cons] at h
    unfold insertEntry
    split
    · rename_i hk
      subst hk
      rw [List.map_cons, List.nodup_cons]
      exact h
    · rename_i hk
      rw [List.map_cons, List.nodup_cons]
      refine ⟨fun hmem => ?_, ih h.2⟩
      rcases mem_keys_insertEntry.mp hmem with h' | h'
      · exact hk h'
      · exact h.1 h'

theorem findEntry_insertEntry (k k' : κ) (v : ν) (l : List (κ × ν)) :
    findEntry k' (insertEntry k v l) = if k' = k then some v else findEntry k' l := by
  induction l with
  | nil =>
    simp only [insertEntry, findEntry]
    by_cases h : k = k'
    · simp [h]
    · simp [h, Ne.symm h]
  | cons e rest ih =>
    obtain ⟨k₀, v₀⟩ := e
    unfold insertEntry
    by_cases hk : k₀ = k
    · subst hk
      by_cases h : k₀ = k'
      · simp [findEntry, h]
      · simp [findEntry, h, Ne.symm h]
    · simp only [hk, if_false, findEntry, ih]
      by_cases h : k₀ = k'
      · subst h
        simp [hk]
      · simp [h]

/-- A new key goes to the end. -/
theorem insertEntry_new {k : κ} (v : ν) {l : List (κ × ν)} (h : findEntry k l = none) :
    insertEntry k v l = l ++ [(k, v)] := by
  induction l with
  | nil => rfl
  | cons e rest ih =>
    obtain ⟨k₀, v₀⟩ := e
    unfold findEntry at h
    unfold insertEntry
    split at h
    · cases h
    · rename_i hk
      rw [if_neg hk, ih h]
      rfl

theorem findEntry_mem {k : κ} {v : ν} {l : List (κ × ν)} (h : findEntry k l = some v) :
    (k, v) ∈ l := by
  induction l with
  | nil => simp [findEntry] at h
  | cons e rest ih =>
    obtain ⟨k₀, v₀⟩ := e
    unfold findEntry at h
    split at h
    · rename_i hk
      injection h with hv
      rw [hk, hv]
      exact List.mem_cons_self
    · exact List.mem_cons_of_mem _ (ih h)

theorem findEntry_of_mem {k : κ} {v : ν} {l : List (κ × ν)}
    (hnd : (l.map Prod.fst).Nodup) (h : (k, v) ∈ l) : findEntry k l = some v := by
  induction l with
  | nil => exact absurd h List.not_mem_nil
  | cons e rest ih =>
    obtain ⟨k₀, v₀⟩ := e
    rw [List.map_cons, List.nodup_cons] at hnd
    unfold findEntry
    rcases List.mem_cons.mp h with h' | h'
    · injection h' with hk hv
      rw [if_pos hk.symm, hv]
    · have hne : k₀ ≠ k := fun he => hnd.1 (List.mem_map.mpr ⟨_, h', he.symm⟩)
      rw [if_neg hne]
      exact ih hnd.2 h'

/-- The dictionary without entries. -/
def empty : Dict κ ν := ⟨[], List.nodup_nil⟩

/-- `d.get(k)`. -/
def get? (d : Dict κ ν) (k : κ) : Option ν := findEntry k d.entries

/-- `d[k] = v`. -/
def set (d : Dict κ ν) (k : κ) (v : ν) : Dict κ ν :=
  ⟨insertEntry k v d.entries, nodup_insertEntry d.nodup⟩

/-- The same keys with other values. -/
def map {μ : Type} (f : ν → μ) (d : Dict κ ν) : Dict κ μ :=
  ⟨d.entries.map fun entry => (entry.1, f entry.2), by
    rw [List.map_map]
    exact d.nodup⟩

/-- `d.values()`. -/
def values (d : Dict κ ν) : List ν := d.entries.map Prod.snd

@[simp] theorem get?_empty (k : κ) : (empty : Dict κ ν).get? k = none := rfl

theorem get?_set (d : Dict κ ν) (k k' : κ) (v : ν) :
    (d.set k v).get? k' = if k' = k then some v else d.get? k' :=
  findEntry_insertEntry k k' v d.entries

@[simp] theorem get?_set_self (d : Dict κ ν) (k : κ) (v : ν) :
    (d.set k v).get? k = some v := by
  rw [get?_set, if_pos rfl]

/-- Of the values set under a key one after another, the last counts. -/
theorem get?_foldl_set (items : List (κ × ν)) (d : Dict κ ν) (k : κ) :
    (items.foldl (fun d item => d.set item.1 item.2) d).get? k =
      ((items.filter fun item => item.1 = k).map Prod.snd).getLast?.or (d.get? k) := by
  induction items generalizing d with
  | nil => rfl
  | cons item rest ih =>
    obtain ⟨k', v⟩ := item
    rw [List.foldl_cons, ih, get?_set]
    by_cases hk : k' = k
    · rw [List.filter_cons_of_pos (by simpa using hk), if_pos hk.symm, List.map_cons,
        List.getLast?_cons]
      cases ((rest.filter fun item => item.1 = k).map Prod.snd).getLast? <;> rfl
    · rw [List.filter_cons_of_neg (by simpa using hk), if_neg (Ne.symm hk)]

theorem values_set_new {d : Dict κ ν} {k : κ} (h : d.get? k = none) (v : ν) :
    (d.set k v).values = d.values ++ [v] := by
  show (insertEntry k v d.entries).map Prod.snd = d.entries.map Prod.snd ++ [v]
  rw [insertEntry_new v h, List.map_append]
  rfl

theorem mem_values {d : Dict κ ν} {v : ν} : v ∈ d.values ↔ ∃ k, d.get? k = some v := by
  constructor
  · intro h
    obtain ⟨⟨k, v'⟩, hmem, rfl⟩ := List.mem_map.mp h
    exact ⟨k, findEntry_of_mem d.nodup hmem⟩
  · rintro ⟨k, hk⟩
    exact List.mem_map_of_mem (findEntry_mem hk)

end Dict

end PaymentRecovery.Lib
