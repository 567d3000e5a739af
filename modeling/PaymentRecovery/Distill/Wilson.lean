import PaymentRecovery.Distill.Lifecycle
import PaymentRecovery.Lib.ScoreInterval

/-!
# The laws of the gates

`wilson_interval` over the real numbers is a score interval of the success rate. Its
bounds enclose the rate and grow with the successes, so both gates do, and the gap
between them is a hysteresis band.
-/

namespace PaymentRecovery.Distill

open PaymentRecovery.Lib.ScoreInterval

/-- `wilson_interval`, with exact arithmetic. -/
noncomputable abbrev wilson (successes n : Nat) (z : ℝ) : ℝ × ℝ :=
  wilsonInterval Real.sqrt successes n z

/-- What the bounds for `successes` of `n` satisfy. -/
structure WilsonLaws (successes n : Nat) (z : ℝ) : Prop where
  nonneg : 0 ≤ (wilson successes n z).1
  low_le : (wilson successes n z).1 ≤ successes / n
  le_high : successes / n ≤ (wilson successes n z).2
  le_one : (wilson successes n z).2 ≤ 1
  symmetric : (wilson successes n z).1 = 1 - (wilson (n - successes) n z).2
  low_mono : ∀ more, successes ≤ more → more ≤ n → (wilson successes n z).1 ≤ (wilson more n z).1
  high_mono : ∀ more, successes ≤ more → more ≤ n → (wilson successes n z).2 ≤ (wilson more n z).2

variable {successes more n : Nat} {z : ℝ}

/-! ## The interval of a rate -/

/-- The weight of one half against the sample, on either side of it. -/
noncomputable def weight (n : Nat) (z : ℝ) : ℝ := z * z / (n + n)

theorem weight_nonneg (n : Nat) (z : ℝ) : 0 ≤ weight n z :=
  div_nonneg (mul_self_nonneg z) (add_nonneg n.cast_nonneg n.cast_nonneg)

theorem rate_of_le (hle : successes ≤ n) : Rate ((successes : ℝ) / n) :=
  ⟨by positivity, div_le_one_of_le₀ (Nat.cast_le.mpr hle) n.cast_nonneg⟩

theorem rate_mono (h : successes ≤ more) : (successes : ℝ) / n ≤ more / n :=
  div_le_div_of_nonneg_right (Nat.cast_le.mpr h) n.cast_nonneg

/-- The margin is the spread, up to the sign of `z`. -/
theorem abs_mul_sqrt_eq_spread (hn : 0 < n) (p : ℝ) :
    |z| * √(p * (1 - p) / n + z * z / (4 * n * n)) = spread (weight n z) p := by
  have hn' : (n : ℝ) ≠ 0 := Nat.cast_ne_zero.mpr hn.ne'
  rw [← Real.sqrt_mul_self_eq_abs, ← Real.sqrt_mul (mul_self_nonneg z)]
  unfold spread weight
  congr 1
  field_simp
  ring

theorem wilson_eq (hn : 0 < n) (successes : Nat) (z : ℝ) :
    wilson successes n z =
      if 0 ≤ z then
        (max 0 (low (weight n z) (successes / n)), min 1 (high (weight n z) (successes / n)))
      else
        (max 0 (high (weight n z) (successes / n)), min 1 (low (weight n z) (successes / n))) := by
  have hmargin := abs_mul_sqrt_eq_spread (z := z) hn (successes / n)
  have hcenter : z * z / (2 * n) = weight n z := by
    rw [two_mul]
    rfl
  have hdenom : z * z / n = weight n z + weight n z := by
    rw [← hcenter, ← add_div, ← two_mul, mul_div_mul_left _ _ two_ne_zero]
  unfold wilson wilsonInterval low high
  rw [if_neg hn.ne']
  dsimp only
  rw [hcenter, hdenom, ← sub_div, ← add_div]
  by_cases hz : 0 ≤ z
  · rw [if_pos hz, ← hmargin, abs_of_nonneg hz]
  · rw [if_neg hz, ← hmargin, abs_of_neg (not_le.mp hz), neg_mul, sub_neg_eq_add,
      ← sub_eq_add_neg]

/-- Both bounds grow with the successes, whatever the sign of `z` and the size of the sample. -/
theorem wilson_mono (z : ℝ) (hmore : successes ≤ more) (hle : more ≤ n) :
    (wilson successes n z).1 ≤ (wilson more n z).1 ∧
      (wilson successes n z).2 ≤ (wilson more n z).2 := by
  rcases Nat.eq_zero_or_pos n with rfl | hn
  · obtain rfl := Nat.le_zero.mp hle
    obtain rfl := Nat.le_zero.mp hmore
    exact ⟨le_refl _, le_refl _⟩
  · have hlow := low_mono (weight_nonneg n z) (rate_of_le (hmore.trans hle)) (rate_of_le hle)
      (rate_mono hmore)
    have hhigh := high_mono (weight_nonneg n z) (rate_of_le (hmore.trans hle)) (rate_of_le hle)
      (rate_mono hmore)
    rw [wilson_eq hn, wilson_eq hn]
    split
    · exact ⟨max_le_max_left 0 hlow, min_le_min_left 1 hhigh⟩
    · exact ⟨max_le_max_left 0 hhigh, min_le_min_left 1 hlow⟩

theorem wilson_laws (hn : 1 ≤ n) (hle : successes ≤ n) (hz : 0 ≤ z) :
    WilsonLaws successes n z := by
  have hrate := rate_of_le hle
  have hweight := weight_nonneg n z
  have hwilson := fun k => (wilson_eq hn k z).trans (if_pos hz)
  refine ⟨?_, ?_, ?_, ?_, ?_, fun more hmore hlast => (wilson_mono z hmore hlast).1,
    fun more hmore hlast => (wilson_mono z hmore hlast).2⟩
  · rw [hwilson]
    exact le_max_left _ _
  · rw [hwilson]
    exact max_le hrate.nonneg (low_le hweight hrate)
  · rw [hwilson]
    exact le_min hrate.le_one (le_high hweight hrate)
  · rw [hwilson]
    exact min_le_left _ _
  · have hother : ((n - successes : ℕ) : ℝ) / n = 1 - successes / n := by
      rw [Nat.cast_sub hle, sub_div, div_self (Nat.cast_ne_zero.mpr (Nat.pos_iff_ne_zero.mp hn))]
    rw [hwilson, hwilson, hother, low_compl hweight]
    dsimp only
    rw [← sub_self (1 : ℝ), max_sub_sub_left]

/-- Without a sample as well, the lower bound does not pass the upper one. -/
theorem wilson_ordered (hle : successes ≤ n) (hz : 0 ≤ z) :
    (wilson successes n z).1 ≤ (wilson successes n z).2 := by
  rcases Nat.eq_zero_or_pos n with rfl | hn
  · exact le_refl _
  · have hlaws := wilson_laws hn hle hz
    exact hlaws.low_le.trans hlaws.le_high

/-! ## The gates -/

/-- More agreement and more recovery do not close the gate to promotion. -/
theorem promotion_mono {policy : PromotionPolicy ℝ} {stats better : ShadowStats}
    (hmatched : better.matched = stats.matched) (hagreed : stats.agreed ≤ better.agreed)
    (hrecovered : stats.recovered ≤ better.recovered) (hagreedLe : better.agreed ≤ better.matched)
    (hrecoveredLe : better.recovered ≤ better.matched)
    (h : qualifiesForPromotion Real.sqrt stats policy = true) :
    qualifiesForPromotion Real.sqrt better policy = true := by
  rw [qualifiesForPromotion_iff] at h ⊢
  refine ⟨hmatched ▸ h.support, h.agreement.trans ?_, h.agreementLb.trans ?_,
    h.recoveryLb.trans ?_⟩
  · unfold ShadowStats.agreementRate
    rw [hmatched]
    split
    · exact le_refl _
    · exact rate_mono hagreed
  · rw [← hmatched]
    exact (wilson_mono policy.z hagreed hagreedLe).1
  · rw [← hmatched]
    exact (wilson_mono policy.z hrecovered hrecoveredLe).1

/-- More recovery does not trigger a demotion. -/
theorem demotion_mono {policy : DemotionPolicy ℝ} {total recovered more : Nat}
    (hmore : recovered ≤ more) (hle : more ≤ total)
    (h : shouldDemote Real.sqrt recovered total policy = false) :
    shouldDemote Real.sqrt more total policy = false := by
  unfold shouldDemote at h ⊢
  split at h
  · rename_i hsupport
    rw [if_pos hsupport]
  · rename_i hsupport
    rw [if_neg hsupport]
    rw [decide_eq_false_iff_not, not_lt] at h ⊢
    exact h.trans (wilson_mono policy.z hmore hle).2

/-- A window that recovers enough for a promotion does not trigger a demotion. -/
theorem no_flapping {policy : PromotionPolicy ℝ} {demotion : DemotionPolicy ℝ}
    (hfloor : policy.minRecoveryLb = demotion.recoveryUbFloor) (hsame : policy.z = demotion.z)
    (hz : 0 ≤ policy.z) {recovered total : Nat} (hle : recovered ≤ total)
    (h : policy.minRecoveryLb ≤ (wilson recovered total policy.z).1) :
    shouldDemote Real.sqrt recovered total demotion = false := by
  unfold shouldDemote
  split
  · rfl
  · rw [decide_eq_false_iff_not, not_lt, ← hfloor, ← hsame]
    exact h.trans (wilson_ordered hle hz)

/-- **The Wilson gate laws.** Over the real numbers: the bounds enclose the success rate between
zero and one, are symmetric and grow with the successes; so more agreement or recovery at the same
number of matches never undoes a qualification, more recovery in a window never triggers a
demotion, and with one floor and one `z` no window of outcomes both passes the recovery condition
of the promotion and triggers the demotion. -/
theorem wilson_gate_laws :
    (∀ n successes (z : ℝ), 1 ≤ n → successes ≤ n → 0 ≤ z → WilsonLaws successes n z) ∧
    (∀ (policy : PromotionPolicy ℝ) (stats better : ShadowStats),
      better.matched = stats.matched → stats.agreed ≤ better.agreed →
      stats.recovered ≤ better.recovered → better.agreed ≤ better.matched →
      better.recovered ≤ better.matched → qualifiesForPromotion Real.sqrt stats policy = true →
      qualifiesForPromotion Real.sqrt better policy = true) ∧
    (∀ (policy : DemotionPolicy ℝ) (total recovered more : Nat), recovered ≤ more → more ≤ total →
      shouldDemote Real.sqrt recovered total policy = false →
      shouldDemote Real.sqrt more total policy = false) ∧
    ∀ (policy : PromotionPolicy ℝ) (demotion : DemotionPolicy ℝ) (outcomes : List Bool),
      policy.minRecoveryLb = demotion.recoveryUbFloor → policy.z = demotion.z → 0 ≤ policy.z →
      ¬ (policy.minRecoveryLb ≤ (wilson (outcomes.count true) outcomes.length policy.z).1 ∧
        shouldDemote Real.sqrt (outcomes.count true) outcomes.length demotion = true) := by
  refine ⟨fun n successes z => wilson_laws, fun policy stats better => promotion_mono,
    fun policy total recovered more => demotion_mono, ?_⟩
  rintro policy demotion outcomes hfloor hsame hz ⟨hpromotes, hdemotes⟩
  rw [no_flapping hfloor hsame hz List.count_le_length hpromotes] at hdemotes
  cases hdemotes

end PaymentRecovery.Distill
