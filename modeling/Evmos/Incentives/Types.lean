import Evmos.Library.Dec
import Evmos.Library.Store
import Evmos.Sdk.Bank

/-! Incentives: allocations, incentives, gas meters, parameters, and the registration proposal. -/

namespace Evmos.Incentives

open Library

/-- `sdk.DecCoin`: here a denomination and the share of the escrow that is allocated. -/
structure DecCoin where
  denom : Denom
  amount : Dec
  deriving DecidableEq

/-- `Params` of the incentives module. -/
structure Params where
  enableIncentives : Bool
  allocationLimit : Dec
  incentivesEpochIdentifier : String
  rewardScaler : Dec
  -- `validateUncappedPercentage` refuses a negative scaler.
  rewardScaler_nonneg : 0 ≤ rewardScaler

/-- `Incentive`. -/
structure Incentive where
  contract : Address
  allocations : List DecCoin
  -- The number of remaining epochs.
  epochs : UInt32
  startTime : Time
  -- The gas spent on the contract in this epoch, by all participants.
  totalGas : ℕ

/-- `NewIncentive`, with the start time the caller sets. -/
def newIncentive (contract : Address) (allocations : List DecCoin) (epochs : UInt32)
    (startTime : Time) : Incentive :=
  ⟨contract, allocations, epochs, startTime, 0⟩

/-- `IsActive`. -/
def Incentive.isActive (i : Incentive) : Bool := 0 < i.epochs

/-- `GasMeter`: the gas a participant spent on a contract in this epoch. -/
structure GasMeter where
  contract : Address
  participant : Address
  cumulativeGas : ℕ

/-- `validateAmount`: an allocation is a positive share of at most one. -/
def validateAmount (amount : Dec) : Result Unit :=
  if 1 < amount ∨ amount ≤ 0 then
    .error ⟨.external, "invalid amount for allocation: " ++ amount.toString⟩
  else .ok ()

/-- The loop of `DecCoins.Validate` over the coins after the first, which increase strictly. -/
def validateSorted (validDenom : Denom → Bool) : Denom → List DecCoin → Result Unit
  | _, [] => .ok ()
  | lowDenom, coin :: rest =>
    if !validDenom coin.denom then .error ⟨.external, "invalid denom: " ++ coin.denom⟩
    else if coin.denom ≤ lowDenom then
      .error ⟨.external, "denomination " ++ coin.denom ++ " is not sorted"⟩
    else if ¬0 < coin.amount then
      .error ⟨.external, "coin " ++ coin.denom ++ " amount is not positive"⟩
    else validateSorted validDenom coin.denom rest

/-- `DecCoins.Validate`. -/
def validateDecCoins (validDenom : Denom → Bool) : List DecCoin → Result Unit
  | [] => .ok ()
  | coin :: rest =>
    if !validDenom coin.denom then .error ⟨.external, "invalid denom: " ++ coin.denom⟩
    else if ¬0 < coin.amount then
      .error ⟨.external, "coin " ++ coin.denom ++ " amount is not positive"⟩
    else validateSorted validDenom coin.denom rest

/-- `validateAllocations`. -/
def validateAllocations (validDenom : Denom → Bool) (allocations : List DecCoin) : Result Unit :=
  if allocations.isEmpty then .error ⟨.external, "incentive allocations cannot be empty"⟩
  else do
    allocations.forM fun al => validateAmount al.amount
    validateDecCoins validDenom allocations

/-- `validateEpochs`. -/
def validateEpochs (epochs : UInt32) : Result Unit :=
  if epochs = 0 then
    .error ⟨.external, "epochs value (" ++ toString epochs.toNat ++ ") cannot be 0"⟩
  else .ok ()

/-- `RegisterIncentiveProposal`. -/
structure RegisterIncentiveProposal where
  title : String
  description : String
  contract : String
  allocations : List DecCoin
  epochs : UInt32

/-- What the checks of a proposal take from other libraries. -/
structure Validators where
  -- `ethermint.ValidateAddress`.
  validateAddress : String → Bool
  -- `sdk.ValidateDenom`.
  validDenom : Denom → Bool
  -- `govtypes.ValidateAbstract`, of the title and the description.
  validateAbstract : String → String → Result Unit

/-- `RegisterIncentiveProposal.ValidateBasic`. -/
def RegisterIncentiveProposal.validateBasic (v : Validators) (rip : RegisterIncentiveProposal) :
    Result Unit :=
  if !v.validateAddress rip.contract then
    .error ⟨.errInvalidAddress, "address '" ++ rip.contract ++ "' is not a valid ethereum hex address"⟩
  else do
    validateAllocations v.validDenom rip.allocations
    validateEpochs rip.epochs
    v.validateAbstract rip.title rip.description

end Evmos.Incentives
