import PaymentRecovery.Lib.Dict
import PaymentRecovery.Lib.Run

/-!
# Remembered answers

A table in front of something that is asked: a request whose key has an entry is
answered from the table, any other is passed on, and what comes back is entered
unless it is an exception. What is asked may answer as it likes and keep a state
of its own; requests may share a key.
-/

namespace PaymentRecovery.Lib

/-- The table, and the state of what is asked. -/
structure Memo (κ γ σ : Type) where
  entries : Dict κ γ
  outer : σ

/-- How requests are keyed and answers are entered and read back. -/
structure Memoised (α β κ γ ε : Type) where
  key : α → κ
  encode : β → γ
  decode : γ → Except ε β

namespace Memoised

variable {α β κ γ ε σ : Type} [DecidableEq κ] (M : Memoised α β κ γ ε)
  (ask : α → σ → Except ε β × σ)

/-- Look the key up, or ask and remember. -/
def answer (a : α) (m : Memo κ γ σ) : Except ε β × Memo κ γ σ :=
  match m.entries.get? (M.key a) with
  | some entry => (M.decode entry, m)
  | none =>
    match ask a m.outer with
    | (.ok b, outer) => (.ok b, ⟨m.entries.set (M.key a) (M.encode b), outer⟩)
    | (.error e, outer) => (.error e, ⟨m.entries, outer⟩)

/-- What was asked in a run of requests, with the key it was asked for and the answer it got. -/
def log : List α → Memo κ γ σ → List (κ × Except ε β)
  | [], _ => []
  | a :: rest, m =>
    (match m.entries.get? (M.key a) with
      | some _ => []
      | none => [(M.key a, (ask a m.outer).1)]) ++ log rest (M.answer ask a m).2

/-- The state after a run of requests. -/
abbrev after (requests : List α) (m : Memo κ γ σ) : Memo κ γ σ :=
  Run.exec (M.answer ask) requests m

/-- The answers got under one key, exceptions aside. -/
def got (k : κ) (log : List (κ × Except ε β)) : List β :=
  log.filterMap fun asked => if asked.1 = k then asked.2.toOption else none

variable {M ask} {a : α} {m : Memo κ γ σ}

theorem answer_hit {entry : γ} (h : m.entries.get? (M.key a) = some entry) :
    M.answer ask a m = (M.decode entry, m) := by
  unfold answer
  rw [h]

theorem answer_ok {b : β} (h : m.entries.get? (M.key a) = none) (hask : (ask a m.outer).1 = .ok b) :
    M.answer ask a m =
      (.ok b, ⟨m.entries.set (M.key a) (M.encode b), (ask a m.outer).2⟩) := by
  unfold answer
  rw [h]
  generalize ask a m.outer = asked at hask
  obtain ⟨_, outer⟩ := asked
  subst hask
  rfl

theorem answer_error {e : ε} (h : m.entries.get? (M.key a) = none)
    (hask : (ask a m.outer).1 = .error e) :
    M.answer ask a m = (.error e, ⟨m.entries, (ask a m.outer).2⟩) := by
  unfold answer
  rw [h]
  generalize ask a m.outer = asked at hask
  obtain ⟨_, outer⟩ := asked
  subst hask
  rfl

theorem log_append (before rest : List α) (m : Memo κ γ σ) :
    M.log ask (before ++ rest) m = M.log ask before m ++ M.log ask rest (M.after ask before m) := by
  induction before generalizing m with
  | nil => rfl
  | cons a before ih =>
    rw [List.cons_append, log, log, ih, List.append_assoc]
    rfl

/-- One request adds to the entry of a key what it got under it. -/
theorem get?_answer (k : κ) : (M.answer ask a m).2.entries.get? k =
    (m.entries.get? k).or ((got k (M.log ask [a] m)).head?.map M.encode) := by
  unfold log log got
  cases h : m.entries.get? (M.key a) with
  | some entry =>
    rw [answer_hit h]
    simp
  | none =>
    cases hask : (ask a m.outer).1 with
    | error e =>
      rw [answer_error h hask]
      simp [Except.toOption]
    | ok b =>
      rw [answer_ok h hask, Dict.get?_set]
      by_cases hk : M.key a = k
      · subst hk
        simp [Except.toOption, h]
      · simp [hk, Ne.symm hk]

/-- **What the table holds of a key.** The entry it had, or else that of the first answer got. -/
theorem get?_after (requests : List α) (m : Memo κ γ σ) (k : κ) :
    (M.after ask requests m).entries.get? k =
      (m.entries.get? k).or ((got k (M.log ask requests m)).head?.map M.encode) := by
  induction requests generalizing m with
  | nil => simp [log, got]
  | cons a rest ih =>
    show (M.after ask rest (M.answer ask a m).2).entries.get? k = _
    rw [ih, get?_answer, show a :: rest = [a] ++ rest from rfl, log_append]
    show _ = (m.entries.get? k).or ((got k (M.log ask [a] m ++
      M.log ask rest (M.answer ask a m).2)).head?.map M.encode)
    unfold got
    rw [List.filterMap_append, List.head?_append, Option.map_or, Option.or_assoc]

/-- Where a key has an entry nothing is got under it any more. -/
theorem got_of_entry {k : κ} {entry : γ} (requests : List α) (h : m.entries.get? k = some entry) :
    got k (M.log ask requests m) = [] := by
  induction requests generalizing m with
  | nil => rfl
  | cons a rest ih =>
    have hkept : (M.answer ask a m).2.entries.get? k = some entry := by
      rw [get?_answer, h]
      rfl
    unfold log got
    rw [List.filterMap_append]
    refine List.append_eq_nil_iff.mpr ⟨?_, ih hkept⟩
    by_cases hk : M.key a = k
    · rw [hk, h]
      rfl
    · split <;> simp [hk]

/-- **Each key is got once at most.** -/
theorem got_length_le_one (requests : List α) (m : Memo κ γ σ) (k : κ) :
    (got k (M.log ask requests m)).length ≤ 1 := by
  induction requests generalizing m with
  | nil => exact Nat.zero_le _
  | cons a rest ih =>
    rw [show a :: rest = [a] ++ rest from rfl, log_append]
    unfold got
    rw [List.filterMap_append, List.length_append]
    show (got k (M.log ask [a] m)).length + (got k (M.log ask rest (M.answer ask a m).2)).length ≤ 1
    cases hfirst : got k (M.log ask [a] m) with
    | nil =>
      rw [List.length_nil, Nat.zero_add]
      exact ih _
    | cons b more =>
      -- what was got has been entered
      have hone : (got k (M.log ask [a] m)).length ≤ 1 := by
        refine Nat.le_trans (List.length_filterMap_le _ _) ?_
        unfold log log
        split <;> simp
      have hentered : ∃ entry, (M.answer ask a m).2.entries.get? k = some entry := by
        rw [get?_answer, hfirst]
        cases m.entries.get? k with
        | some entry => exact ⟨entry, rfl⟩
        | none => exact ⟨M.encode b, rfl⟩
      obtain ⟨entry, hentry⟩ := hentered
      rw [got_of_entry rest hentry, ← hfirst]
      exact hone

/-- What was got under a key is its entry. -/
theorem entry_of_got {k : κ} {b : β} (requests : List α)
    (h : b ∈ got k (M.log ask requests m)) :
    (M.after ask requests m).entries.get? k = some (M.encode b) := by
  have hnone : m.entries.get? k = none := by
    cases hk : m.entries.get? k with
    | none => rfl
    | some entry =>
      rw [got_of_entry requests hk] at h
      exact absurd h List.not_mem_nil
  have hone : (got k (M.log ask requests m)).length ≤ 1 := got_length_le_one requests m k
  rw [get?_after, hnone]
  cases hgot : got k (M.log ask requests m) with
  | nil =>
    rw [hgot] at h
    exact absurd h List.not_mem_nil
  | cons b' more =>
    rw [hgot, List.length_cons] at hone
    have hmore : more = [] := List.eq_nil_of_length_eq_zero (by omega)
    rw [hgot, hmore, List.mem_singleton] at h
    rw [h]
    rfl

/-- What was got was asked for. -/
theorem asked_of_got {k : κ} {b : β} (requests : List α)
    (h : b ∈ got k (M.log ask requests m)) : ∃ a outer, (ask a outer).1 = .ok b := by
  induction requests generalizing m with
  | nil => exact absurd h List.not_mem_nil
  | cons a rest ih =>
    unfold log got at h
    rw [List.filterMap_append, List.mem_append] at h
    rcases h with hnow | hlater
    · split at hnow
      · exact absurd hnow List.not_mem_nil
      · obtain ⟨⟨_, x⟩, hmem, hx⟩ := List.mem_filterMap.mp hnow
        injection List.mem_singleton.mp hmem with _ hasked
        dsimp only at hx
        split at hx
        · rw [hasked] at hx
          cases hanswer : (ask a m.outer).1 with
          | error e =>
            rw [hanswer] at hx
            cases hx
          | ok b' =>
            rw [hanswer] at hx
            injection hx with hx
            exact ⟨a, m.outer, hx ▸ hanswer⟩
        · cases hx
    · exact ih hlater

/-- An entry stays as it is. -/
theorem get?_after_of_entry {k : κ} {entry : γ} (requests : List α)
    (h : m.entries.get? k = some entry) :
    (M.after ask requests m).entries.get? k = some entry := by
  rw [get?_after, h]
  rfl

end Memoised

end PaymentRecovery.Lib
