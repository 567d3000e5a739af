import Mathlib.Algebra.Order.Field.Basic

/-!
# Promotion and demotion policies

What a rule has shown in shadow, and the two gates on it. Rates are exact
numbers of an ordered field and `sqrt` is the square root used on them.
-/

namespace PaymentRecovery.Distill

/-- Cumulative shadow observations for one candidate rule. -/
structure ShadowStats where
  matched : Nat := 0
  agreed : Nat := 0
  recovered : Nat := 0
  deriving DecidableEq

/-- One more observation. -/
def ShadowStats.record (stats : ShadowStats) (agreed recovered : Bool) : ShadowStats :=
  ⟨stats.matched + 1, stats.agreed + agreed.toNat, stats.recovered + recovered.toNat⟩

variable {K : Type} [Field K]

structure PromotionPolicy (K : Type) [Field K] where
  minSupport : Int := 30
  minAgreement : K := 90 / 100
  minAgreementLb : K := 80 / 100
  minRecoveryLb : K := 50 / 100
  z : K := 196 / 100

structure DemotionPolicy (K : Type) [Field K] where
  minRecent : Int := 30
  recoveryUbFloor : K := 50 / 100
  z : K := 196 / 100

def ShadowStats.agreementRate (stats : ShadowStats) : K :=
  if stats.matched = 0 then 0 else stats.agreed / stats.matched

def ShadowStats.recoveryRate (stats : ShadowStats) : K :=
  if stats.matched = 0 then 0 else stats.recovered / stats.matched

variable [LinearOrder K]

/-- The Wilson score confidence interval for `successes` of `n`; `(0, 0)` for an empty sample. -/
def wilsonInterval (sqrt : K → K) (successes n : Nat) (z : K) : K × K :=
  if n = 0 then (0, 0)
  else
    let phat : K := successes / n
    let denom := 1 + z * z / n
    let center := (phat + z * z / (2 * n)) / denom
    let margin := (z * sqrt (phat * (1 - phat) / n + z * z / (4 * n * n))) / denom
    (max 0 (center - margin), min 1 (center + margin))

/-- `True` iff `stats` satisfy every promotion criterion. -/
def qualifiesForPromotion (sqrt : K → K) (stats : ShadowStats) (policy : PromotionPolicy K) : Bool :=
  if (stats.matched : Int) < policy.minSupport then false
  else if (stats.agreementRate : K) < policy.minAgreement then false
  else if (wilsonInterval sqrt stats.agreed stats.matched policy.z).1 < policy.minAgreementLb then
    false
  else if (wilsonInterval sqrt stats.recovered stats.matched policy.z).1 < policy.minRecoveryLb then
    false
  else true

/-- `True` iff a recent-window recovery is confidently below the majority floor. -/
def shouldDemote (sqrt : K → K) (recentRecovered recentTotal : Nat) (policy : DemotionPolicy K) :
    Bool :=
  if (recentTotal : Int) < policy.minRecent then false
  else (wilsonInterval sqrt recentRecovered recentTotal policy.z).2 < policy.recoveryUbFloor

/-- What promotion is meant to rest on. -/
structure Supported (sqrt : K → K) (policy : PromotionPolicy K) (stats : ShadowStats) : Prop where
  support : policy.minSupport ≤ stats.matched
  agreement : policy.minAgreement ≤ stats.agreementRate
  agreementLb : policy.minAgreementLb ≤ (wilsonInterval sqrt stats.agreed stats.matched policy.z).1
  recoveryLb : policy.minRecoveryLb ≤ (wilsonInterval sqrt stats.recovered stats.matched policy.z).1

/-- The gate opens exactly on that. -/
theorem qualifiesForPromotion_iff {sqrt : K → K} {stats : ShadowStats}
    {policy : PromotionPolicy K} :
    qualifiesForPromotion sqrt stats policy = true ↔ Supported sqrt policy stats := by
  unfold qualifiesForPromotion
  refine ⟨fun h => ?_, fun h => ?_⟩
  · split at h
    · cases h
    split at h
    · cases h
    split at h
    · cases h
    split at h
    · cases h
    rename_i hsupport hagreement hagreementLb hrecoveryLb
    exact ⟨not_lt.mp hsupport, not_lt.mp hagreement, not_lt.mp hagreementLb,
      not_lt.mp hrecoveryLb⟩
  · rw [if_neg (not_lt.mpr h.support), if_neg (not_lt.mpr h.agreement),
      if_neg (not_lt.mpr h.agreementLb), if_neg (not_lt.mpr h.recoveryLb)]

/-! ## Tallies -/

/-- The statistics of a list of cases, each with the action taken and its outcome. -/
def tally (action : String) (cases : List (Option String × Bool)) : ShadowStats where
  matched := cases.length
  agreed := cases.countP fun seen => seen.1 = some action
  recovered := cases.countP fun seen => seen.2

@[simp] theorem tally_nil (action : String) : tally action [] = {} := rfl

/-- One more case is one more observation. -/
theorem tally_snoc (action : String) (cases : List (Option String × Bool))
    (taken : Option String) (recovered : Bool) :
    tally action (cases ++ [(taken, recovered)]) =
      (tally action cases).record (some action = taken) recovered := by
  unfold tally ShadowStats.record
  simp only [List.length_append, List.length_singleton, List.countP_append, List.countP_singleton]
  congr 2
  · by_cases h : taken = some action <;> simp [h, eq_comm]
  · cases recovered <;> rfl

end PaymentRecovery.Distill
