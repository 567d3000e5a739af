import Mathlib.Data.List.Basic

/-!
# Runs of a machine

A machine takes an input and a state to an answer and a new state. `exec` feeds
it a list of inputs. An invariant is proved for one input and holds of whole
runs; `Along` states a condition on every input of a run, in the state the
input meets.
-/

namespace PaymentRecovery.Lib.Run

variable {W ι ρ : Type} (step : ι → W → ρ × W)

/-- The state after a list of inputs. -/
def exec : List ι → W → W
  | [], w => w
  | i :: rest, w => exec rest (step i w).2

/-- Every input of the run meets `C` in the state it arrives in. -/
def Along (C : W → ι → Prop) : List ι → W → Prop
  | [], _ => True
  | i :: rest, w => C w i ∧ Along C rest (step i w).2

/-- A condition that can be computed can be computed along a run. -/
instance decidableAlong {C : W → ι → Prop} [∀ w i, Decidable (C w i)] :
    ∀ is w, Decidable (Along step C is w)
  | [], _ => .isTrue trivial
  | i :: rest, w => @instDecidableAnd _ _ _ (decidableAlong rest (step i w).2)

@[simp] theorem exec_nil (w : W) : exec step [] w = w := rfl

@[simp] theorem exec_cons (i : ι) (rest : List ι) (w : W) :
    exec step (i :: rest) w = exec step rest (step i w).2 := rfl

theorem exec_append (before after : List ι) (w : W) :
    exec step (before ++ after) w = exec step after (exec step before w) := by
  induction before generalizing w with
  | nil => rfl
  | cons i rest ih => exact ih _

variable {step}

/-- A condition on the inputs alone holds along any run over such inputs. -/
theorem along_of_forall {D : ι → Prop} {is : List ι} (h : ∀ i ∈ is, D i) (w : W) :
    Along step (fun _ i => D i) is w := by
  induction is generalizing w with
  | nil => trivial
  | cons i rest ih =>
    exact ⟨h i List.mem_cons_self, ih (fun j hj => h j (List.mem_cons_of_mem _ hj)) _⟩

/-- What every conditioned step preserves, every conditioned run preserves. -/
theorem exec_inv_along {P : W → Prop} {C : W → ι → Prop}
    (hstep : ∀ w i, P w → C w i → P (step i w).2) {is : List ι} {w : W}
    (hP : P w) (hC : Along step C is w) : P (exec step is w) := by
  induction is generalizing w with
  | nil => exact hP
  | cons i rest ih => exact ih (hstep w i hP hC.1) hC.2

/-- What every step preserves, every run preserves. -/
theorem exec_inv {P : W → Prop} (hstep : ∀ w i, P w → P (step i w).2) {is : List ι} {w : W}
    (hP : P w) : P (exec step is w) :=
  exec_inv_along (C := fun _ _ => True) (fun w i h _ => hstep w i h) hP
    (along_of_forall (fun _ _ => trivial) w)

/-- A property that a step adds to exactly when the condition holds at it: the run
keeps the property if and only if the condition holds all along. -/
theorem exec_iff_along {P : W → Prop} {C : W → ι → Prop}
    (hstep : ∀ w i, P (step i w).2 ↔ P w ∧ C w i) (is : List ι) (w : W) :
    P (exec step is w) ↔ P w ∧ Along step C is w := by
  induction is generalizing w with
  | nil => simp [Along]
  | cons i rest ih =>
    rw [exec_cons, ih, hstep w i, and_assoc]
    rfl

/-! ## Two runs -/

/-- Two runs over the same inputs as far as these pass `q`, with any others in between: what
holds of the two states, and is kept by a step of either on another input and by a common step
of both, holds at the end. -/
theorem exec_pair {q : ι → Bool} {P : W → W → Prop} {C : W → ι → Prop}
    (hleft : ∀ w v i, P w v → C w i → q i = false → P (step i w).2 v)
    (hright : ∀ w v i, P w v → C v i → q i = false → P w (step i v).2)
    (hboth : ∀ w v i, P w v → C w i → C v i → q i = true → P (step i w).2 (step i v).2)
    {is js : List ι} (hsame : is.filter q = js.filter q) {w v : W} (hP : P w v)
    (hw : Along step C is w) (hv : Along step C js v) : P (exec step is w) (exec step js v) := by
  induction is generalizing js w v with
  | nil =>
    -- what is left on the right does not pass
    have hnone := List.filter_eq_nil_iff.mp hsame.symm
    clear hsame
    induction js generalizing v with
    | nil => exact hP
    | cons j js ih =>
      have hj : q j = false := by simpa using hnone j List.mem_cons_self
      exact ih (hright w v j hP hv.1 hj) hv.2 fun k hk => hnone k (List.mem_cons_of_mem _ hk)
  | cons i is ih =>
    cases hi : q i with
    | false =>
      rw [List.filter_cons_of_neg (by simp [hi])] at hsame
      exact ih hsame (hleft w v i hP hw.1 hi) hw.2 hv
    | true =>
      rw [List.filter_cons_of_pos hi] at hsame
      -- up to its next input that passes, the right goes on alone
      induction js generalizing v with
      | nil => cases hsame
      | cons j js ihj =>
        cases hj : q j with
        | false =>
          rw [List.filter_cons_of_neg (by simp [hj])] at hsame
          exact ihj hsame (hright w v j hP hv.1 hj) hv.2
        | true =>
          rw [List.filter_cons_of_pos hj] at hsame
          injection hsame with hhead htail
          subst hhead
          exact ih htail (hboth w v i hP hw.1 hv.1 hi) hw.2 hv.2

end PaymentRecovery.Lib.Run
