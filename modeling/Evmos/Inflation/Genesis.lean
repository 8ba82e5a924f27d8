import Evmos.Inflation.Keeper
import Evmos.Library.Run

/-! The genesis of the inflation module, its validation, and calls between two exports. -/

namespace Evmos.Inflation

open Library Epochs

/-- Fails with a plain error when a condition holds. -/
def refuseIf (condition : Bool) (text : String) : Result Unit :=
  if condition then .error ⟨.external, text⟩ else .ok ()

/-- `validateMintDenom`, for what `sdk.ValidateDenom` accepts. -/
def validateMintDenom (validDenom : Denom → Bool) (denom : Denom) : Result Unit := do
  refuseIf (isBlank denom) "mint denom cannot be blank"
  refuseIf (!validDenom denom) ("invalid denom: " ++ denom)

/-- `validateExponentialCalculation`. -/
def validateExponentialCalculation (v : ExponentialCalculation) : Result Unit := do
  refuseIf (v.a < 0) "initial value cannot be negative"
  refuseIf (1 < v.r) "reduction factor cannot be greater than 1"
  refuseIf (v.r < 0) "reduction factor cannot be negative"
  refuseIf (v.c < 0) "long term inflation cannot be negative"
  refuseIf (1 < v.bondingTarget) "bonded target cannot be greater than 1"
  refuseIf (v.bondingTarget ≤ 0) "bonded target cannot be zero or negative"
  refuseIf (v.maxVariance < 0) "max variance cannot be negative"

/-- `validateInflationDistribution`. -/
def validateInflationDistribution (v : InflationDistribution) : Result Unit := do
  refuseIf (v.stakingRewards < 0) "staking distribution ratio must not be negative"
  refuseIf (v.usageIncentives < 0) "pool incentives distribution ratio must not be negative"
  refuseIf (v.communityPool < 0) "community pool distribution ratio must not be negative"
  let totalProportions := v.stakingRewards + v.usageIncentives + v.communityPool
  refuseIf (totalProportions ≠ 1) "total distributions ratio should be 1"

/-- `Params.Validate`. Either value of `EnableInflation` is valid. -/
def Params.validate (validDenom : Denom → Bool) (p : Params) : Result Unit := do
  validateMintDenom validDenom p.mintDenom
  validateExponentialCalculation p.exponentialCalculation
  validateInflationDistribution p.inflationDistribution

/-- `ValidateEpochIdentifierString`. The text of the error is what is left, which is blank. -/
def validateEpochIdentifier (identifier : String) : Result Unit :=
  refuseIf (isBlank identifier) "blank epoch identifier: "

/-- `validateEpochsPerPeriod`. -/
def validateEpochsPerPeriod (epochsPerPeriod : ℤ) : Result Unit :=
  refuseIf (epochsPerPeriod ≤ 0)
    ("epochs per period must be positive: " ++ toString epochsPerPeriod)

/-- `GenesisState.Validate`. Any number of skipped epochs is valid. -/
def GenesisState.validate (validDenom : Denom → Bool) (gs : GenesisState) : Result Unit := do
  validateEpochIdentifier gs.epochIdentifier
  validateEpochsPerPeriod gs.epochsPerPeriod
  gs.params.validate validDenom

/-- `ExportGenesis`, which leaves the stored provision out. -/
def exportGenesis (s : State) : GenesisState where
  params := s.params
  period := s.period
  epochIdentifier := s.epochIdentifier
  epochsPerPeriod := s.epochsPerPeriod
  skippedEpochs := s.skippedEpochs

/-- `InitGenesis(ExportGenesis(state))`, with the state of the other modules as it was. -/
def restart (k : Keeper) (s : State) : Result State := initGenesis k (exportGenesis s) s

/-- What happens to the module between genesis and export. -/
inductive Call where
  /-- The hook at the end of an epoch, of any identifier. -/
  | epochEnd (epochIdentifier : String) (epochNumber : ℤ)
  /-- A change of parameters, each checked by its own validator. -/
  | setParams (params : Params)
  /-- What other modules do to balances, supply, and bonded tokens. -/
  | outside (bank : Bank) (communityPool : Coins) (totalBondedTokens : ℕ)

/-- Performs one call. -/
def Call.perform (validDenom : Denom → Bool) (k : Keeper) (s : State) : Call → Result State
  | .epochEnd epochIdentifier epochNumber => afterEpochEnd k epochIdentifier epochNumber s
  | .setParams params => do
    params.validate validDenom
    .ok { s with params := params }
  | .outside bank communityPool totalBondedTokens =>
    .ok { s with
      bank := bank
      communityPool := communityPool
      totalBondedTokens := totalBondedTokens }

/-- A call that does not panic and is not refused. -/
def CallStep (validDenom : Denom → Bool) (k : Keeper) (before : State) (call : Call)
    (after : State) : Prop :=
  call.perform validDenom k before = .ok after

/-- Performs calls one after the other, up to the first that panics or is refused. -/
def performAll (validDenom : Denom → Bool) (k : Keeper) : State → List Call → Result State
  | s, [] => .ok s
  | s, call :: calls => do
    let s ← call.perform validDenom k s
    performAll validDenom k s calls

/-- The mints made so far, as the epoch number and the amount of each. -/
def State.mintedAmounts (s : State) : List (ℤ × ℤ) :=
  s.mints.map fun mint => (mint.epochNumber, mint.amount)

end Evmos.Inflation
