import PaymentRecovery.Python.Builtins
import PaymentRecovery.Python.Bytes
import Mathlib.Algebra.Order.Ring.Pow
import Mathlib.Tactic.Linarith

/-!
# The customer simulator

The hidden outcome model of the evaluation and the simulated customer over it. The
retry budget changes the probability of a recovery and never the draw, so a larger
budget recovers every case that a smaller one recovers.
-/

namespace PaymentRecovery.Evals

open PaymentRecovery.Python

def sendLink : String := "send_payment_link"
def escalateAction : String := "escalate_to_human"
def refundAction : String := "refund"
def noAction : String := "no_action"

def contextAmountBand : ℚ := 5000
def contextFailedHistory : Int := 2
def recentAttemptHours : ℚ := 1
def noiseRate : ℚ := 8 / 100
def naturalRecoveryProb : ℚ := 12 / 100

/-- The observable features the correct action may depend on, and the drift flag. -/
structure GroundTruthFeatures where
  caseId : String
  failureReason : String
  amountInr : ℚ
  customerFailedPayments : Int
  hoursSinceLastAttempt : ℚ
  postDrift : Bool

/-- The hidden traits that the simulated response depends on. -/
structure Persona where
  priceSensitivity : ℚ
  patience : ℚ
  abandonmentThreshold : Int

/-- A synthetic case, as the simulator reads it. -/
structure SimulatedCase where
  features : GroundTruthFeatures
  persona : Persona

/-! ## Ground truth -/

def hexValue (c : Char) : Nat :=
  if c.toNat < 58 then c.toNat - 48 else c.toNat - 87

/-- `int(text, 16)`, for lower-case hex digits. -/
def intOfHex (text : String) : Nat :=
  text.toList.foldl (fun n c => 16 * n + hexValue c) 0

variable (sha256 : ByteArray → List UInt8)

/-- `_unit`, the same in both modules. -/
def unitDraw (caseId salt : String) : ℚ :=
  intOfHex (takeChars 8 (hexdigest (sha256 (encodeUtf8 (caseId ++ ":" ++ salt))))) / 0xFFFFFFFF

/-- Deterministic per-case label noise flag. -/
def isNoisy (features : GroundTruthFeatures) : Bool :=
  unitDraw sha256 features.caseId "noise" < noiseRate

/-- The statistically correct recovery action for a case. -/
def correctAction (features : GroundTruthFeatures) : String :=
  let reason := features.failureReason
  if reason = "card_declined" then
    if features.postDrift then escalateAction else sendLink
  else if reason = "insufficient_funds" then
    let highValue := contextAmountBand < features.amountInr
    let repeatFailer := contextFailedHistory ≤ features.customerFailedPayments
    if highValue ∧ repeatFailer then escalateAction else sendLink
  else if reason = "processing_error" then
    if recentAttemptHours ≤ features.hoursSinceLastAttempt then sendLink else escalateAction
  else if reason ∈ ["risk_blocked", "unknown"] then escalateAction
  else sendLink

/-- The base probability that an action recovers the payment. -/
def baseRecoveryProb (features : GroundTruthFeatures) (action : String) : ℚ :=
  if action = noAction then naturalRecoveryProb
  else if action = correctAction features then
    if isNoisy sha256 features then 15 / 100 else 85 / 100
  -- the wrong action
  else if action = escalateAction then 45 / 100
  else if action = sendLink then 30 / 100
  else if action = refundAction then 3 / 100
  else 10 / 100

/-! ## The simulated customer -/

/-- `_clamp`. -/
def clamp (x : ℚ) : ℚ := max 0 (min 1 x)

/-- `recovery_probability`. -/
def recoveryProbability (case : SimulatedCase) (action : String) (retryBudget : Int) : ℚ :=
  let base := baseRecoveryProb sha256 case.features action
  let persona := case.persona
  if action = sendLink then
    let single := clamp (base * (7 / 10 + 3 / 10 * persona.patience) *
      (1 - 3 / 10 * persona.priceSensitivity))
    let attempts := max 1 (min retryBudget persona.abandonmentThreshold)
    clamp (1 - (1 - single) ^ attempts.toNat)
  else if action = escalateAction then clamp (base * (85 / 100 + 15 / 100 * persona.patience))
  else clamp base

/-- `recovered`. -/
def simulatedRecovery (case : SimulatedCase) (action : String) (retryBudget : Int) : Bool :=
  unitDraw sha256 case.features.caseId action < recoveryProbability sha256 case action retryBudget

theorem clamp_nonneg (x : ℚ) : 0 ≤ clamp x := le_max_left _ _

theorem clamp_le_one (x : ℚ) : clamp x ≤ 1 := max_le zero_le_one (min_le_left _ _)

theorem clamp_mono {x y : ℚ} (h : x ≤ y) : clamp x ≤ clamp y :=
  max_le_max_left 0 (min_le_min_left 1 h)

variable {sha256}
variable (case : SimulatedCase) (action : String)

theorem recoveryProbability_nonneg (budget : Int) :
    0 ≤ recoveryProbability sha256 case action budget := by
  unfold recoveryProbability
  dsimp only
  split_ifs <;> exact clamp_nonneg _

theorem recoveryProbability_le_one (budget : Int) :
    recoveryProbability sha256 case action budget ≤ 1 := by
  unfold recoveryProbability
  dsimp only
  split_ifs <;> exact clamp_le_one _

/-- More attempts leave less room for a failure of each of them. -/
theorem recoveryProbability_mono {budget budget' : Int} (h : budget ≤ budget') :
    recoveryProbability sha256 case action budget ≤
      recoveryProbability sha256 case action budget' := by
  unfold recoveryProbability
  dsimp only
  split_ifs
  · -- a link
    refine clamp_mono (sub_le_sub_left ?_ 1)
    refine pow_le_pow_of_le_one (sub_nonneg.mpr (clamp_le_one _))
      (sub_le_self 1 (clamp_nonneg _)) (Int.toNat_le_toNat ?_)
    exact max_le_max_left 1 (min_le_min_right _ h)
  · exact le_refl _
  · exact le_refl _

/-- Attempts past the abandonment threshold are not made. -/
theorem recoveryProbability_abandoned {budget : Int}
    (h : case.persona.abandonmentThreshold ≤ budget) :
    recoveryProbability sha256 case action budget =
      recoveryProbability sha256 case action case.persona.abandonmentThreshold := by
  unfold recoveryProbability
  dsimp only
  rw [min_eq_right h, min_self]

variable {case action} in
/-- The draw is the same under every budget. -/
theorem simulatedRecovery_mono {budget budget' : Int} (h : budget ≤ budget')
    (hrecovered : simulatedRecovery sha256 case action budget = true) :
    simulatedRecovery sha256 case action budget' = true := by
  unfold simulatedRecovery at hrecovered ⊢
  rw [decide_eq_true_eq] at hrecovered ⊢
  exact hrecovered.trans_le (recoveryProbability_mono case action h)

end PaymentRecovery.Evals
