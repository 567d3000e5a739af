import Mathlib.Algebra.Order.Group.Basic
import Mathlib.Data.List.Basic
import Mathlib.Tactic.Abel

/-!
# Logs that are sparse in every window

A log of readings of a clock. It is sparse if no closed window of a given length,
wherever it starts, holds more than a bound. It is enough to look at the window
that ends now whenever something is logged, and a queue in order finds that window
by dropping its stale readings from the front.
-/

namespace PaymentRecovery.Lib.SlidingWindow

variable {T : Type} [LinearOrder T] {log : List T}

/-- In a queue in order the stale readings come first. -/
theorem dropWhile_stale (hsorted : log.Pairwise (· ≤ ·)) (start : T) :
    log.dropWhile (fun x => decide (x < start)) = log.filter fun x => start ≤ x := by
  induction log with
  | nil => rfl
  | cons x rest ih =>
    obtain ⟨hleast, hrest⟩ := List.pairwise_cons.mp hsorted
    by_cases hx : x < start
    · rw [List.dropWhile_cons_of_pos (by simpa using hx),
        List.filter_cons_of_neg (by simpa using hx)]
      exact ih hrest
    · -- from the first fresh reading on, all are fresh
      rw [List.dropWhile_cons_of_neg (by simpa using hx), eq_comm, List.filter_eq_self]
      intro y hy
      rcases List.mem_cons.mp hy with rfl | hy
      · simpa using hx
      · simpa using (not_lt.mp hx).trans (hleast y hy)

variable [AddCommGroup T]

/-- The readings in the closed window of this length that starts at `a`. -/
def window (length a : T) (log : List T) : List T :=
  log.filter fun t => a ≤ t ∧ t ≤ a + length

/-- No window of this length holds more than `bound` readings. -/
def Sparse (bound : Nat) (length : T) (log : List T) : Prop :=
  ∀ a, (window length a log).length ≤ bound

variable {length a t : T} {bound : Nat}

theorem sparse_nil : Sparse bound length [] := fun _ => Nat.zero_le _

theorem window_append (log' : List T) :
    window length a (log ++ log') = window length a log ++ window length a log' :=
  List.filter_append ..

theorem window_cons_of_not (h : ¬ (a ≤ t ∧ t ≤ a + length)) : window length a [t] = [] :=
  List.filter_cons_of_neg (by simpa using h)

/-- Of readings up to `t`, the window that ends at `t` holds the ones that are not stale. -/
theorem window_eq_filter (hpast : ∀ x ∈ log, x ≤ t) :
    window length (t - length) log = log.filter fun x => t - length ≤ x := by
  refine List.filter_congr fun x hx => ?_
  rw [sub_add_cancel]
  simp [hpast x hx]

variable [IsOrderedAddMonoid T]

/-- Any window that reaches `t` holds no more of the past than the one that ends at `t`. -/
theorem window_sublist (hpast : ∀ x ∈ log, x ≤ t) (hreach : t ≤ a + length) :
    (window length a log).Sublist (window length (t - length) log) := by
  rw [window_eq_filter hpast]
  refine List.monotone_filter_right log fun x hx => ?_
  have hstart : t - length ≤ a := sub_le_iff_le_add.mpr hreach
  simp only [decide_eq_true_eq] at hx ⊢
  exact hstart.trans hx.1

/-- A log stays sparse if it has room in the window that ends at the new reading. -/
theorem Sparse.snoc (h : Sparse bound length log) (hpast : ∀ x ∈ log, x ≤ t)
    (hroom : (window length (t - length) log).length < bound) :
    Sparse bound length (log ++ [t]) := by
  intro a
  rw [window_append, List.length_append]
  by_cases hin : a ≤ t ∧ t ≤ a + length
  · have hbefore := (window_sublist hpast hin.2).length_le
    have hnew : (window length a [t]).length ≤ 1 := List.length_filter_le ..
    omega
  · rw [window_cons_of_not hin]
    exact h a

end PaymentRecovery.Lib.SlidingWindow
