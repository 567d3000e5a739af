import Mathlib.Analysis.Real.Sqrt
import Mathlib.Tactic.Linarith
import Mathlib.Tactic.FieldSimp
import Mathlib.Tactic.Positivity
import Mathlib.Tactic.Ring

/-!
# Score intervals of a rate

A rate `p` between zero and one, pulled towards one half by a weight `h` on either side
and spread around there. The two ends enclose the rate, change places when the rate is
turned over, and grow with it: the spread never changes faster than the rate.
-/

namespace PaymentRecovery.Lib.ScoreInterval

/-- How far the ends are from the middle, before scaling. -/
noncomputable def spread (h p : ℝ) : ℝ := √((h + h) * (p * (1 - p)) + h * h)

noncomputable def low (h p : ℝ) : ℝ := (p + h - spread h p) / (1 + (h + h))

noncomputable def high (h p : ℝ) : ℝ := (p + h + spread h p) / (1 + (h + h))

variable {h p q : ℝ}

/-- A rate. -/
structure Rate (p : ℝ) : Prop where
  nonneg : 0 ≤ p
  le_one : p ≤ 1

theorem Rate.compl (hp : Rate p) : Rate (1 - p) :=
  ⟨sub_nonneg.mpr hp.le_one, sub_le_self 1 hp.nonneg⟩

theorem Rate.variance_nonneg (hp : Rate p) : 0 ≤ p * (1 - p) :=
  mul_nonneg hp.nonneg hp.compl.nonneg

theorem spread_nonneg (h p : ℝ) : 0 ≤ spread h p := Real.sqrt_nonneg _

theorem spread_sq (hh : 0 ≤ h) (hp : Rate p) :
    spread h p ^ 2 = (h + h) * (p * (1 - p)) + h * h :=
  Real.sq_sqrt (add_nonneg (mul_nonneg (add_nonneg hh hh) hp.variance_nonneg) (mul_self_nonneg h))

theorem spread_compl (h p : ℝ) : spread h (1 - p) = spread h p := by
  unfold spread
  congr 1
  ring

/-- The spread reaches at least from the pulled rate back to the rate. -/
theorem abs_pull_le_spread (hh : 0 ≤ h) (hp : Rate p) : |h - (h + h) * p| ≤ spread h p := by
  refine Real.abs_le_sqrt ?_
  have hvariance := mul_nonneg hh hp.variance_nonneg
  have hscaled := mul_nonneg hh hvariance
  have hsquare : (h - (h + h) * p) ^ 2 = h * h - 4 * (h * (h * (p * (1 - p)))) := by ring
  rw [hsquare]
  linarith only [hvariance, hscaled]

/-- From the smaller rate to the larger, the spread grows no faster than the rate. -/
theorem spread_le_add (hh : 0 ≤ h) (hp : Rate p) (hq : Rate q) (hpq : p ≤ q) :
    spread h q ≤ spread h p + (q - p) := by
  have hstep : 0 ≤ q - p := sub_nonneg.mpr hpq
  refine (abs_le_of_sq_le_sq' ?_ (add_nonneg (spread_nonneg h p) hstep)).2
  have hpull : h - (h + h) * p ≤ spread h p := le_of_abs_le (abs_pull_le_spread hh hp)
  have hslope : (h + h) * (1 - p - q) ≤ 2 * spread h p + (q - p) := by
    linarith only [hpull, mul_nonneg hh hstep, hstep]
  have hgrowth := mul_le_mul_of_nonneg_left hslope hstep
  have hsquare : spread h q ^ 2 = spread h p ^ 2 + (q - p) * ((h + h) * (1 - p - q)) := by
    rw [spread_sq hh hp, spread_sq hh hq]
    ring
  rw [hsquare]
  linarith only [hgrowth]

theorem low_le (hh : 0 ≤ h) (hp : Rate p) : low h p ≤ p := by
  unfold low
  rw [div_le_iff₀ (by positivity)]
  linarith only [le_of_abs_le (abs_pull_le_spread hh hp)]

/-- Turning the rate over turns the ends over. -/
theorem low_compl (hh : 0 ≤ h) (p : ℝ) : low h p = 1 - high h (1 - p) := by
  unfold low high
  rw [spread_compl]
  field_simp
  ring

theorem le_high (hh : 0 ≤ h) (hp : Rate p) : p ≤ high h p := by
  have hturned := low_le hh hp.compl
  rw [low_compl hh, sub_sub_cancel] at hturned
  linarith only [hturned]

theorem low_mono (hh : 0 ≤ h) (hp : Rate p) (hq : Rate q) (hpq : p ≤ q) :
    low h p ≤ low h q := by
  unfold low
  refine div_le_div_of_nonneg_right ?_ (by positivity)
  linarith only [spread_le_add hh hp hq hpq]

theorem high_mono (hh : 0 ≤ h) (hp : Rate p) (hq : Rate q) (hpq : p ≤ q) :
    high h p ≤ high h q := by
  have hturned := low_mono hh hq.compl hp.compl (sub_le_sub_left hpq 1)
  rw [low_compl hh, low_compl hh, sub_sub_cancel, sub_sub_cancel] at hturned
  linarith only [hturned]

end PaymentRecovery.Lib.ScoreInterval
