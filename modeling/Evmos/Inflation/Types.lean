import Evmos.Library.Dec
import Evmos.Sdk.Types

/-! Inflation: parameters, and how much an epoch of a period mints. -/

namespace Evmos.Inflation

open Library

/-- `ExponentialCalculation`. -/
structure ExponentialCalculation where
  -- The initial value.
  a : Dec
  -- The reduction factor.
  r : Dec
  -- The long term inflation.
  c : Dec
  bondingTarget : Dec
  -- How much inflation can be increased at most.
  maxVariance : Dec

/-- `InflationDistribution`. -/
structure InflationDistribution where
  stakingRewards : Dec
  usageIncentives : Dec
  communityPool : Dec

/-- `Params` of the inflation module. -/
structure Params where
  mintDenom : Denom
  exponentialCalculation : ExponentialCalculation
  inflationDistribution : InflationDistribution
  enableInflation : Bool

/-- `ethermint.PowerReduction`. -/
def powerReduction : ℤ := 10 ^ 18

/-- `Dec.Quo`, which panics on a zero divisor. -/
def quoOrPanic (dividend divisor : Dec) : Result Dec :=
  if divisor = 0 then .error ⟨.panic, "division by zero"⟩ else .ok (dividend.quo divisor)

/-- `CalculateEpochMintProvision`. -/
def calculateEpochMintProvision (params : Params) (period : ℕ) (epochsPerPeriod : ℤ)
    (bondedRatio : Dec) : Result Dec := do
  let x := period
  let a := params.exponentialCalculation.a
  let r := params.exponentialCalculation.r
  let c := params.exponentialCalculation.c
  let bTarget := params.exponentialCalculation.bondingTarget
  let maxVariance := params.exponentialCalculation.maxVariance
  -- The exponential decay is `a * (1 - r) ^ x + c`.
  let decay := 1 - r
  let exponentialDecay := a.mul (decay.power x) + c
  -- The bonding incentive does not increase beyond the bonding target.
  let bondedRatio := if bTarget ≤ bondedRatio then bTarget else bondedRatio
  let slope ← quoOrPanic maxVariance bTarget
  let bondingIncentive := 1 + maxVariance - bondedRatio.mul slope
  let periodProvision := exponentialDecay.mul bondingIncentive
  let epochProvision ← quoOrPanic periodProvision (Dec.ofInt epochsPerPeriod)
  -- The calculation is based on `evmos`, and tokens are issued in `aevmos`.
  .ok (epochProvision.mul (Dec.ofInt powerReduction))

/-- `GenesisState` of the inflation module. -/
structure GenesisState where
  params : Params
  period : ℕ
  epochIdentifier : String
  epochsPerPeriod : ℤ
  skippedEpochs : ℕ

end Evmos.Inflation
