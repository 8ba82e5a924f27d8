import Evmos.Library.DecOrder
import Evmos.Proofs.Inflation.Provision

/-! Provisions decline from period to period and with the bonded ratio, despite all roundings. -/

namespace Evmos.Inflation

open Library

section Valid

variable {v : ExponentialCalculation}

theorem cappedRatio_mono {bondedRatio larger : Dec} (order : bondedRatio ≤ larger) :
    v.cappedRatio bondedRatio ≤ v.cappedRatio larger := by
  unfold ExponentialCalculation.cappedRatio
  split_ifs with above aboveToo aboveToo
  · exact le_rfl
  · -- A ratio that reaches the target is not left behind by a larger one.
    exact absurd (above.trans order) aboveToo
  · exact (not_le.mp above).le
  · exact order

theorem decayed_antitone (valid : v.Valid) : Antitone v.decayed := by
  intro period later order
  have fraction : 1 - v.r ≤ 1 := sub_le_self 1 valid.r
  -- The powers of the decay factor decline, and rounding the product keeps the order.
  have powers := Dec.power_antitone valid.decay fraction order
  refine add_le_add ?_ le_rfl
  exact Dec.mul_le_mul valid.a le_rfl (Dec.power_nonneg valid.decay later) powers

theorem bondingIncentive_antitone (valid : v.Valid) {bondedRatio larger : Dec}
    (sign : 0 ≤ bondedRatio) (order : bondedRatio ≤ larger) :
    v.bondingIncentive larger ≤ v.bondingIncentive bondedRatio := by
  -- The ratio enters with a minus sign, times a factor that is not negative.
  refine sub_le_sub_left ?_ (1 + v.maxVariance)
  exact Dec.mul_le_mul (cappedRatio_nonneg valid sign) (cappedRatio_mono order)
    (Dec.quo_nonneg valid.maxVariance valid.target.le) le_rfl

end Valid

/--
Provisions only ever go down.

A later period and a larger bonded ratio never give a larger provision, however the products of
the calculation are rounded, and beyond the bonding target the ratio plays no part.
-/
theorem calculateEpochMintProvision_declines (params : Params)
    (accepted : validateExponentialCalculation params.exponentialCalculation = .ok ())
    (epochsPerPeriod : ℤ) (positive : 0 < epochsPerPeriod) :
    (∀ x y b b', x ≤ y → 0 ≤ b → b ≤ b' →
      ∃ provision later, calculateEpochMintProvision params x epochsPerPeriod b = .ok provision ∧
        calculateEpochMintProvision params y epochsPerPeriod b' = .ok later ∧
        later ≤ provision) ∧
      ∀ x b b', params.exponentialCalculation.bondingTarget ≤ b →
        params.exponentialCalculation.bondingTarget ≤ b' →
        calculateEpochMintProvision params x epochsPerPeriod b =
          calculateEpochMintProvision params x epochsPerPeriod b' := by
  have valid := validateExponentialCalculation_ok accepted
  have epochs : 0 ≤ Dec.ofInt epochsPerPeriod := Int.mul_nonneg positive.le Dec.precision_pos.le
  constructor
  · intro x y b b' periods sign ratios
    refine ⟨_, _, calculateEpochMintProvision_eq valid x positive b,
      calculateEpochMintProvision_eq valid y positive b', ?_⟩
    have decay := decayed_antitone valid periods
    have incentive := bondingIncentive_antitone valid sign ratios
    have decaySign := decayed_nonneg valid y
    have incentiveSign := bondingIncentive_nonneg valid (sign.trans ratios)
    -- From here on every step rounds a product or a quotient of nonnegative numbers.
    have period := Dec.mul_le_mul decaySign decay incentiveSign incentive
    have periodSign := Dec.mul_nonneg decaySign incentiveSign
    have epoch := Dec.quo_le_quo periodSign period epochs
    exact Dec.mul_le_mul (Dec.quo_nonneg periodSign epochs) epoch (by decide) le_rfl
  · intro x b b' above aboveToo
    rw [calculateEpochMintProvision_eq valid x positive,
      calculateEpochMintProvision_eq valid x positive,
      ExponentialCalculation.bondingIncentive, ExponentialCalculation.bondingIncentive,
      ExponentialCalculation.cappedRatio, ExponentialCalculation.cappedRatio, if_pos above,
      if_pos aboveToo]

/-- Half of what is left is minted in every period, and up to half more while nothing is bonded. -/
def halving : Params where
  mintDenom := "aevmos"
  exponentialCalculation :=
    { a := Dec.ofInt 100
      r := Dec.ofIntWithPrec 5 1
      c := Dec.ofInt 1
      bondingTarget := Dec.ofIntWithPrec 5 1
      maxVariance := Dec.ofIntWithPrec 5 1 }
  inflationDistribution := ⟨1, 0, 0⟩
  enableInflation := true

/-- With half of the stake bonded, the third period mints less than the first. -/
theorem halving_declines :
    ∃ provision later, calculateEpochMintProvision halving 0 10 (Dec.ofIntWithPrec 1 1) = .ok provision ∧
      calculateEpochMintProvision halving 2 10 (Dec.ofIntWithPrec 5 1) = .ok later ∧
      later ≤ provision :=
  (calculateEpochMintProvision_declines halving (by decide) 10 (by decide)).1 0 2
    (Dec.ofIntWithPrec 1 1) (Dec.ofIntWithPrec 5 1) (by decide) (by decide) (by decide)

end Evmos.Inflation
