import PaymentRecovery.Lib.Program
import Mathlib.Logic.Function.Basic
import Mathlib.Data.List.Induction
import Mathlib.Algebra.Order.BigOperators.Group.Finset
import Mathlib.Data.Fintype.Card
import Mathlib.Tactic.Abel

/-!
# Threads over one state

Any number of threads, each with a list of programs to run one after another,
share one state. A schedule says which thread takes the next transaction; a
thread that dies is one the schedule never names again.

A program is described by a protocol: control points, and a relation `T` that
says how one transaction may move a thread from point to point and change the
state. `Follows` is checked once for a program, alone; `exec_keeps` then turns
what every move of the protocol preserves into an invariant of every schedule.
-/

namespace PaymentRecovery.Lib

open Program

/-! ## Pools -/

/-- What each thread still has to run, and the state they share. -/
structure Pool (ι W ε α : Type) where
  jobs : ι → List (Program W ε α)
  state : W

/-- The next transaction of a list of jobs; a job that has ended gives way to the next one. -/
def advance {W ε α : Type} : List (Program W ε α) → W → List (Program W ε α) × W
  | [], w => ([], w)
  | .ret _ :: rest, w => (rest, w)
  | .raise _ :: rest, w => (rest, w)
  | .atomic f next :: rest, w => (next (f w).1 :: rest, (f w).2)

namespace Pool

variable {ι W ε α : Type} [DecidableEq ι]

/-- Thread `i` goes on. -/
def step (pool : Pool ι W ε α) (i : ι) : Pool ι W ε α where
  jobs := Function.update pool.jobs i (advance (pool.jobs i) pool.state).1
  state := (advance (pool.jobs i) pool.state).2

/-- The threads go on in the order of the schedule. -/
def exec (schedule : List ι) (pool : Pool ι W ε α) : Pool ι W ε α :=
  schedule.foldl step pool

@[simp] theorem exec_nil (pool : Pool ι W ε α) : exec [] pool = pool := rfl

theorem exec_append (before after : List ι) (pool : Pool ι W ε α) :
    exec (before ++ after) pool = exec after (exec before pool) :=
  List.foldl_append

theorem exec_snoc (schedule : List ι) (i : ι) (pool : Pool ι W ε α) :
    exec (schedule ++ [i]) pool = (exec schedule pool).step i :=
  exec_append schedule [i] pool

/-- Nobody has anything left to run. -/
def Done (pool : Pool ι W ε α) : Prop := ∀ i, pool.jobs i = []

end Pool

/-! ## Protocols -/

section Protocol

variable {W ε α β L : Type} (J : L → W → Prop) (T : L → W → L → W → Prop)

/-- Each transaction, in a state where `J` holds of the control point, is a move of `T` to the
point the program goes on from; it ends at a point that `Q` allows. -/
def Follows (Q : Except ε α → L → Prop) : Program W ε α → L → Prop
  | .ret a, c => Q (.ok a) c
  | .raise e, c => Q (.error e) c
  | .atomic f next, c => ∀ w, J c w → ∃ c', T c w c' (f w).2 ∧ Follows Q (next (f w).1) c'

variable {J T} {Q : Except ε α → L → Prop} {c : L}

namespace Follows

theorem mono {Q' : Except ε α → L → Prop} {p : Program W ε α} (hp : Follows J T Q p c)
    (h : ∀ answer c, Q answer c → Q' answer c) : Follows J T Q' p c := by
  induction p generalizing c with
  | ret a => exact h _ _ hp
  | raise e => exact h _ _ hp
  | atomic f next ih =>
    intro w hw
    obtain ⟨c', hmove, hrest⟩ := hp w hw
    exact ⟨c', hmove, ih _ hrest⟩

theorem pure {a : α} (h : Q (.ok a) c) : Follows J T Q (Pure.pure a : Program W ε α) c := h

theorem throw {e : ε} (h : Q (.error e) c) :
    Follows J T Q (MonadExcept.throw e : Program W ε α) c := h

theorem orRaise {x : Except ε α} (h : Q x c) :
    Follows J T Q (Program.orRaise x : Program W ε α) c := by
  cases x with
  | ok a => exact h
  | error e => exact h

theorem step {f : W → α × W} (h : ∀ w, J c w → ∃ c', T c w c' (f w).2 ∧ Q (.ok (f w).1) c') :
    Follows J T Q (Program.step f : Program W ε α) c := h

theorem read {f : W → α} (h : ∀ w, J c w → ∃ c', T c w c' w ∧ Q (.ok (f w)) c') :
    Follows J T Q (Program.read f : Program W ε α) c := h

theorem write {f : W → W} {Q : Except ε Unit → L → Prop}
    (h : ∀ w, J c w → ∃ c', T c w c' (f w) ∧ Q (.ok ()) c') :
    Follows J T Q (Program.write f : Program W ε Unit) c := h

theorem attempt {f : W → Except ε α × W}
    (h : ∀ w, J c w → ∃ c', T c w c' (f w).2 ∧ Q (f w).1 c') :
    Follows J T Q (Program.attempt f) c := by
  intro w hw
  obtain ⟨c', hmove, hend⟩ := h w hw
  exact ⟨c', hmove, .orRaise hend⟩

/-- One transaction, and what follows its answer. -/
theorem step_bind {f : W → β × W} {g : β → Program W ε α}
    (h : ∀ w, J c w → ∃ c', T c w c' (f w).2 ∧ Follows J T Q (g (f w).1) c') :
    Follows J T Q (Program.step f >>= g) c := h

theorem read_bind {f : W → β} {g : β → Program W ε α}
    (h : ∀ w, J c w → ∃ c', T c w c' w ∧ Follows J T Q (g (f w)) c') :
    Follows J T Q (Program.read f >>= g) c := h

theorem write_bind {f : W → W} {g : Unit → Program W ε α}
    (h : ∀ w, J c w → ∃ c', T c w c' (f w) ∧ Follows J T Q (g ()) c') :
    Follows J T Q (Program.write f >>= g) c := h

theorem orRaise_bind {x : Except ε β} {g : β → Program W ε α}
    (hok : ∀ b, x = .ok b → Follows J T Q (g b) c) (herror : ∀ e, x = .error e → Q (.error e) c) :
    Follows J T Q (Program.orRaise x >>= g) c := by
  cases x with
  | ok b => exact hok b rfl
  | error e => exact herror e rfl

/-- Sequencing: the second part goes on from the point where the first one returned. -/
theorem bind {p : Program W ε α} {g : α → Program W ε β} {R : Except ε β → L → Prop}
    (hp : Follows J T Q p c) (hg : ∀ a c, Q (.ok a) c → Follows J T R (g a) c)
    (hraise : ∀ e c, Q (.error e) c → R (.error e) c) : Follows J T R (p >>= g) c := by
  induction p generalizing c with
  | ret a => exact hg a c hp
  | raise e => exact hraise e c hp
  | atomic f next ih =>
    intro w hw
    obtain ⟨c', hmove, hrest⟩ := hp w hw
    exact ⟨c', hmove, ih _ hrest⟩

/-- Handling: the handler goes on from the point where the exception was raised. -/
theorem tryCatch {p : Program W ε α} {h : ε → Program W ε α} {R : Except ε α → L → Prop}
    (hp : Follows J T Q p c) (hreturn : ∀ a c, Q (.ok a) c → R (.ok a) c)
    (hh : ∀ e c, Q (.error e) c → Follows J T R (h e) c) :
    Follows J T R (tryCatch p h) c := by
  induction p generalizing c with
  | ret a => exact hreturn a c hp
  | raise e => exact hh e c hp
  | atomic f next ih =>
    intro w hw
    obtain ⟨c', hmove, hrest⟩ := hp w hw
    exact ⟨c', hmove, ih _ hrest⟩

theorem map {f : α → β} {p : Program W ε α} {R : Except ε β → L → Prop}
    (hp : Follows J T Q p c) (h : ∀ answer c, Q answer c → R (f <$> answer) c) :
    Follows J T R (f <$> p) c :=
  bind hp (fun a c ha => h (.ok a) c ha) fun e c he => h (.error e) c he

end Follows

end Protocol

/-! ## Invariants of every schedule -/

section Invariants

variable {ι W ε α L : Type} {J : L → W → Prop} {T : L → W → L → W → Prop}
  {idle : L}

/-- Every job brings its thread back to `idle`. -/
def ComesHome (J : L → W → Prop) (T : L → W → L → W → Prop) (idle : L) (job : Program W ε α)
    (c : L) : Prop :=
  Follows J T (fun _ c' => c' = idle) job c

/-- Each thread is at a point that its current job follows the protocol from, and between jobs
it is at `idle`. -/
def Tracked (J : L → W → Prop) (T : L → W → L → W → Prop) (idle : L) (points : ι → L)
    (jobs : ι → List (Program W ε α)) : Prop :=
  ∀ i, match jobs i with
    | [] => points i = idle
    | job :: rest => ComesHome J T idle job (points i) ∧ ∀ later ∈ rest, ComesHome J T idle later idle

theorem tracked_start {jobs : ι → List (Program W ε α)}
    (h : ∀ i, ∀ job ∈ jobs i, ComesHome J T idle job idle) :
    Tracked J T idle (fun _ => idle) jobs := by
  intro i
  have hi := h i
  cases hjobs : jobs i with
  | nil => rfl
  | cons job rest =>
    rw [hjobs] at hi
    exact ⟨hi job List.mem_cons_self, fun later hmem => hi later (List.mem_cons_of_mem _ hmem)⟩

/-- Where nothing is left to run everybody is at `idle`. -/
theorem Tracked.done {points : ι → L} {pool : Pool ι W ε α}
    (h : Tracked J T idle points pool.jobs) (hdone : pool.Done) (i : ι) : points i = idle := by
  have hi := h i
  rw [hdone i] at hi
  exact hi

variable [DecidableEq ι]

/-- One step of one thread: its point moves by the protocol, or nothing happened. -/
theorem Tracked.step {points : ι → L} {pool : Pool ι W ε α}
    (h : Tracked J T idle points pool.jobs) (i : ι) (hJ : J (points i) pool.state) :
    ∃ c', Tracked J T idle (Function.update points i c') (pool.step i).jobs ∧
      ((c' = points i ∧ (pool.step i).state = pool.state) ∨
        T (points i) pool.state c' (pool.step i).state) := by
  -- the other threads are where they were
  have hothers : ∀ c' jobs', (match jobs' with
      | [] => c' = idle
      | job :: rest => ComesHome J T idle job c' ∧ ∀ later ∈ rest, ComesHome J T idle later idle) →
      Tracked J T idle (Function.update points i c') (Function.update pool.jobs i jobs') := by
    intro c' jobs' hown k
    by_cases hk : k = i
    · subst hk
      rw [Function.update_self, Function.update_self]
      exact hown
    · rw [Function.update_of_ne hk, Function.update_of_ne hk]
      exact h k
  have hi := h i
  unfold Pool.step
  cases hjobs : pool.jobs i with
  | nil =>
    rw [hjobs] at hi
    exact ⟨points i, hothers _ _ hi, .inl ⟨rfl, rfl⟩⟩
  | cons job rest =>
    rw [hjobs] at hi
    obtain ⟨hjob, hrest⟩ := hi
    -- a job that has ended is at `idle`, where the next one starts
    have hended : points i = idle → ∃ c', Tracked J T idle (Function.update points i c')
        (Function.update pool.jobs i rest) ∧ c' = points i := by
      intro hidle
      refine ⟨points i, hothers _ _ ?_, rfl⟩
      cases rest with
      | nil => exact hidle
      | cons next later =>
        rw [hidle]
        exact ⟨hrest next List.mem_cons_self, fun l hl => hrest l (List.mem_cons_of_mem _ hl)⟩
    cases job with
    | ret a =>
      obtain ⟨c', htracked, hc⟩ := hended hjob
      exact ⟨c', htracked, .inl ⟨hc, rfl⟩⟩
    | raise e =>
      obtain ⟨c', htracked, hc⟩ := hended hjob
      exact ⟨c', htracked, .inl ⟨hc, rfl⟩⟩
    | atomic f next =>
      obtain ⟨c', hmove, hnext⟩ := hjob pool.state hJ
      exact ⟨c', hothers _ _ ⟨hnext, hrest⟩, .inr hmove⟩

/-- **What every move of the protocol preserves holds after every schedule.** `I` may speak of
the schedule so far, and with it of every state that has been passed. -/
theorem exec_keeps {I : List ι → (ι → L) → W → Prop} {pool : Pool ι W ε α} {points : ι → L}
    (htracked : Tracked J T idle points pool.jobs) (hI : I [] points pool.state)
    (hJ : ∀ past points w i, I past points w → J (points i) w)
    (hstay : ∀ past points i, I past points (pool.exec past).state →
      (pool.exec (past ++ [i])).state = (pool.exec past).state →
      I (past ++ [i]) points (pool.exec past).state)
    (hmove : ∀ past points i c', I past points (pool.exec past).state →
      T (points i) (pool.exec past).state c' (pool.exec (past ++ [i])).state →
      I (past ++ [i]) (Function.update points i c') (pool.exec (past ++ [i])).state)
    (schedule : List ι) :
    ∃ points', Tracked J T idle points' (pool.exec schedule).jobs ∧
      I schedule points' (pool.exec schedule).state := by
  induction schedule using List.reverseRecOn with
  | nil => exact ⟨points, htracked, hI⟩
  | append_singleton past i ih =>
    obtain ⟨points', htracked', hI'⟩ := ih
    obtain ⟨c', hnext, hcase⟩ := htracked'.step i (hJ _ _ _ i hI')
    rw [← Pool.exec_snoc] at hnext hcase
    refine ⟨Function.update points' i c', hnext, ?_⟩
    rcases hcase with ⟨hc, hstate⟩ | hT
    · rw [hc, Function.update_eq_self, hstate]
      exact hstay past points' i hI' hstate
    · exact hmove past points' i c' hI' hT

end Invariants

/-! ## Sums over the threads -/

/-- When one thread moves, a sum over all of them changes by what that thread adds. -/
theorem sum_update {ι L M : Type} [Fintype ι] [DecidableEq ι] [AddCommMonoid M] (f : L → M)
    (points : ι → L) (i : ι) (c' : L) :
    ∑ j, f (Function.update points i c' j) + f (points i) = ∑ j, f (points j) + f c' := by
  have hrest : ∑ j ∈ Finset.univ.erase i, f (Function.update points i c' j) =
      ∑ j ∈ Finset.univ.erase i, f (points j) := by
    refine Finset.sum_congr rfl fun j hj => ?_
    rw [Function.update_of_ne (Finset.ne_of_mem_erase hj)]
  rw [← Finset.sum_erase_add _ _ (Finset.mem_univ i), hrest, Function.update_self,
    ← Finset.sum_erase_add Finset.univ (fun j => f (points j)) (Finset.mem_univ i)]
  exact add_right_comm _ _ _

/-- A check of a total against `cap` misses what the other threads have in flight. If each has
at most `c`, and every move adds no more than it had in flight or than was checked, the total and
all in flight stay within `cap` and `c` for each thread but one. -/
theorem total_in_flight {ι L M : Type} [Fintype ι] [DecidableEq ι] [AddCommGroup M]
    [PartialOrder M] [IsOrderedAddMonoid M] {f : L → M} {points : ι → L} {i : ι} {c' : L}
    {cap c total total' : M} (hbound : ∀ j, f (points j) ≤ c)
    (h : total + ∑ j, f (points j) ≤ cap + (Fintype.card ι - 1) • c)
    (hmove : total' + f c' ≤ total + f (points i) ∨ total' + f c' ≤ cap) :
    total' + ∑ j, f (Function.update points i c' j) ≤ cap + (Fintype.card ι - 1) • c := by
  rcases hmove with hkept | hchecked
  · have hsum := sum_update f points i c'
    have hbalance : total' + ∑ j, f (Function.update points i c' j) + (total + f (points i)) =
        total + ∑ j, f (points j) + (total' + f c') := by
      calc _ = total + total' + (∑ j, f (Function.update points i c' j) + f (points i)) := by abel
        _ = total + total' + (∑ j, f (points j) + f c') := by rw [hsum]
        _ = _ := by abel
    refine le_of_add_le_add_right (a := total + f (points i)) ?_
    rw [hbalance]
    exact add_le_add h hkept
  · have hothers : ∑ j ∈ Finset.univ.erase i, f (Function.update points i c' j) ≤
        (Fintype.card ι - 1) • c := by
      rw [← Finset.card_univ, ← Finset.card_erase_of_mem (Finset.mem_univ i)]
      refine Finset.sum_le_card_nsmul _ _ _ fun j hj => ?_
      rw [Function.update_of_ne (Finset.ne_of_mem_erase hj)]
      exact hbound j
    rw [← Finset.sum_erase_add _ _ (Finset.mem_univ i), Function.update_self, add_comm _ (f c'),
      ← add_assoc]
    exact add_le_add hchecked hothers

end PaymentRecovery.Lib
