import Evmos.Epochs.Keeper
import Evmos.Inflation.Types
import Evmos.Sdk.Bank

/-! The inflation keeper: minting at the end of an epoch, and moving to the next period. -/

namespace Evmos.Inflation

open Library Epochs

/-- What the keeper knows of the chain and of the other modules. -/
structure Keeper where
  chainID : String
  -- The inflation module account.
  moduleAddress : Address
  feeCollectorAddress : Address
  incentivesAddress : Address
  distributionAddress : Address
  -- The bond denomination of the staking module.
  bondDenom : Denom
  -- What `AfterEpochEnd` of the incentives module does to the bank, for an identifier and a number.
  distributeIncentives : String → ℤ → Bank → Result Bank

/-- `MainnetChainID`. -/
def mainnetChainID : String := "evmos_9001"

/-- `IsMainnet`. -/
def isMainnet (chainID : String) : Bool := mainnetChainID.toList.isPrefixOf chainID.toList

/-- A mint event, together with the period and the provision in the store when it was made. -/
structure Mint where
  epochNumber : ℤ
  epochProvisions : Dec
  amount : ℤ
  period : ℕ
  epochMintProvision : Dec

/-- The state the inflation module works on. -/
structure State where
  params : Params
  period : ℕ
  epochIdentifier : String
  epochsPerPeriod : ℤ
  skippedEpochs : ℕ
  -- Absent until it is set for the first time.
  epochMintProvision : Option Dec
  bank : Bank
  -- The coins the distribution module records for the community pool.
  communityPool : Coins
  -- `TotalBondedTokens` of the staking module.
  totalBondedTokens : ℕ
  -- The mint events emitted so far.
  mints : List Mint

/-- `GetProportions`. -/
def getProportions (denom : Denom) (amount : ℤ) (distribution : Dec) : Result Coins :=
  newCoin denom ((Dec.ofInt amount).mul distribution).truncateInt

/-- The coins `MintAndAllocateInflation` returns. -/
structure Allocation where
  staking : Coins
  incentives : Coins
  communityPool : Coins

/-- `MintCoins`. -/
def mintCoins (k : Keeper) (s : State) (coins : Coins) : State :=
  if coins.isZero then s else { s with bank := s.bank.mintCoins k.moduleAddress coins }

/-- `FundCommunityPool` from the inflation account. -/
def State.fundCommunityPool (k : Keeper) (s : State) (coins : Coins) : Result State := do
  let bank ← s.bank.sendCoins k.moduleAddress k.distributionAddress coins
  .ok { s with bank := bank, communityPool := s.communityPool + coins }

/-- `AllocateExponentialInflation`. -/
def allocateExponentialInflation (k : Keeper) (s : State) (amount : ℤ) :
    Result (Allocation × State) := do
  let denom := s.params.mintDenom
  let proportions := s.params.inflationDistribution
  let staking ← getProportions denom amount proportions.stakingRewards
  let bank ← s.bank.sendCoins k.moduleAddress k.feeCollectorAddress staking
  let incentives ← getProportions denom amount proportions.usageIncentives
  let bank ← bank.sendCoins k.moduleAddress k.incentivesAddress incentives
  -- The community pool is given all that is left on the account.
  let communityPool := bank.balances k.moduleAddress
  let s ← State.fundCommunityPool k { s with bank := bank } communityPool
  .ok (⟨staking, incentives, communityPool⟩, s)

/-- `MintAndAllocateInflation`. -/
def mintAndAllocateInflation (k : Keeper) (s : State) (amount : ℤ) :
    Result (Allocation × State) := do
  let coins ← newCoin s.params.mintDenom amount
  allocateExponentialInflation k (mintCoins k s coins) amount

/-- The tokens allocated to the team at year four. -/
def teamAlloc : ℤ := 200000000 * powerReduction

/-- `BondedRatio`, which leaves the team allocation out on mainnet. -/
def bondedRatio (k : Keeper) (s : State) : Dec :=
  let stakeSupply : ℤ := s.bank.supply k.bondDenom
  if !decide (0 < stakeSupply) || (isMainnet k.chainID && decide (stakeSupply ≤ teamAlloc)) then 0
  else
    let stakeSupply := if isMainnet k.chainID then stakeSupply - teamAlloc else stakeSupply
    (Dec.ofInt s.totalBondedTokens).quoInt stakeSupply

/-- The last part of `AfterEpochEnd`: moves to the next period when this one has passed. -/
def passPeriod (k : Keeper) (epochNumber : ℤ) (s : State) (epochMintProvision : Dec) :
    Result (Dec × State) :=
  -- Skipped epochs are subtracted, to only account for epochs that minted.
  if epochNumber - s.epochsPerPeriod * s.period - s.skippedEpochs > s.epochsPerPeriod then do
    let period := s.period + 1
    let newProvision ← calculateEpochMintProvision s.params period s.epochsPerPeriod (bondedRatio k s)
    .ok (newProvision, { s with period := period, epochMintProvision := some newProvision })
  else .ok (epochMintProvision, s)

/-- `AfterEpochEnd`. -/
def afterEpochEnd (k : Keeper) (epochIdentifier : String) (epochNumber : ℤ) (s : State) :
    Result State :=
  if !s.params.enableInflation then
    -- Only day epochs are counted as skipped.
    if epochIdentifier ≠ dayEpochID then .ok s
    else .ok { s with skippedEpochs := s.skippedEpochs + 1 }
  else if epochIdentifier ≠ s.epochIdentifier then .ok s
  else do
    let epochMintProvision ←
      orPanic "the epochMintProvision was not found" s.epochMintProvision
    let amount := epochMintProvision.truncateInt
    let (_, minted) ← mintAndAllocateInflation k s amount
    let (newProvision, passed) ← passPeriod k epochNumber minted epochMintProvision
    let mint : Mint :=
      { epochNumber := epochNumber
        epochProvisions := newProvision
        amount := amount
        period := s.period
        epochMintProvision := epochMintProvision }
    .ok { passed with mints := passed.mints ++ [mint] }

/-- The hooks of the inflation module, which does nothing at the start of an epoch. -/
def hooks (k : Keeper) : EpochHooks State where
  afterEpochEnd := afterEpochEnd k
  beforeEpochStart _ _ s := .ok s

/-- The hooks of the incentives module, of which only the effect on the bank matters here. -/
def incentivesHooks (k : Keeper) : EpochHooks State where
  afterEpochEnd epochIdentifier epochNumber s := do
    let bank ← k.distributeIncentives epochIdentifier epochNumber s.bank
    .ok { s with bank := bank }
  beforeEpochStart _ _ s := .ok s

/-- `InitGenesis`. -/
def initGenesis (k : Keeper) (data : GenesisState) (s : State) : Result State := do
  let s :=
    { s with
      params := data.params
      period := data.period
      epochIdentifier := data.epochIdentifier
      epochsPerPeriod := data.epochsPerPeriod
      skippedEpochs := data.skippedEpochs }
  let epochMintProvision ← calculateEpochMintProvision data.params data.period data.epochsPerPeriod
    (bondedRatio k s)
  .ok { s with epochMintProvision := some epochMintProvision }

end Evmos.Inflation
