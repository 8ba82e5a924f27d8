import Evmos.Incentives.Types

/-! The incentives keeper: registering and cancelling, metering gas, and distributing rewards. -/

namespace Evmos.Incentives

open Library

/-- What the keeper knows of the other modules. -/
structure Keeper where
  -- The incentives module account, which holds the escrow.
  moduleAddress : Address
  -- `EvmDenom` of the EVM parameters.
  evmDenom : Denom
  -- `BankKeeper.BlockedAddr`.
  blockedAddr : Address → Bool
  bech32 : Bech32
  -- `common.HexToAddress`.
  hexToAddress : String → Address
  -- `Address.String`.
  addressToHex : Address → String

/-- An account of the account keeper, as far as it is read. -/
inductive Account where
  /-- An `EthAccountI`, which may be a contract. -/
  | eth (isContract : Bool)
  | other

/-- The block a call is made in, and the accounts at that time. -/
structure Context where
  blockTime : Time
  -- Whether the EVM has a contract at an address.
  isContract : Address → Bool
  getAccount : Address → Option Account

/-- The state the incentives module works on. -/
structure State where
  params : Params
  -- The incentives, by contract.
  incentives : Store Address Incentive
  -- The gas of each participant, by contract and participant.
  gasMeters : Store (Address ×ₗ Address) ℕ
  -- The share of the escrow that is allocated, by denomination.
  allocationMeters : Store Denom Dec
  bank : Bank

namespace State

/-- `SetIncentive`. -/
def setIncentive (s : State) (incentive : Incentive) : State :=
  { s with incentives := s.incentives.set incentive.contract incentive }

/-- `SetIncentiveTotalGas`. -/
def setIncentiveTotalGas (s : State) (incentive : Incentive) (gas : ℕ) : State :=
  s.setIncentive { incentive with totalGas := gas }

/-- `IsIncentiveRegistered`. -/
def isIncentiveRegistered (s : State) (contract : Address) : Bool :=
  (s.incentives.get? contract).isSome

/-- `GetAllocationMeter`: a meter that is not stored reads as zero. -/
def getAllocationMeter (s : State) (denom : Denom) : DecCoin × Bool :=
  match s.allocationMeters.get? denom with
  | none => (⟨denom, 0⟩, false)
  | some amount => (⟨denom, amount⟩, true)

/-- `SetAllocationMeter`: a zero meter is removed. -/
def setAllocationMeter (s : State) (am : DecCoin) : State :=
  if am.amount = 0 then { s with allocationMeters := s.allocationMeters.delete am.denom }
  else { s with allocationMeters := s.allocationMeters.set am.denom am.amount }

/-- One round of the loop of `DeleteIncentiveAndUpdateAllocationMeters`. -/
def subtractAllocation (s : State) (al : DecCoin) : State :=
  let (am, _) := s.getAllocationMeter al.denom
  s.setAllocationMeter ⟨al.denom, am.amount - al.amount⟩

/-- `DeleteIncentiveAndUpdateAllocationMeters`. -/
def deleteIncentiveAndUpdateAllocationMeters (s : State) (incentive : Incentive) : State :=
  incentive.allocations.foldl subtractAllocation
    { s with incentives := s.incentives.delete incentive.contract }

/-- `GetGasMeter`. -/
def getGasMeter (s : State) (contract participant : Address) : Option ℕ :=
  s.gasMeters.get? (toLex (contract, participant))

/-- `SetGasMeter`. -/
def setGasMeter (s : State) (gm : GasMeter) : State :=
  { s with gasMeters := s.gasMeters.set (toLex (gm.contract, gm.participant)) gm.cumulativeGas }

/-- `DeleteGasMeter`. -/
def deleteGasMeter (s : State) (gm : GasMeter) : State :=
  { s with gasMeters := s.gasMeters.delete (toLex (gm.contract, gm.participant)) }

/-- `GetIncentiveGasMeters`: the meters of a contract, in the order of an iteration. -/
def getIncentiveGasMeters (s : State) (contract : Address) : List GasMeter :=
  (s.gasMeters.entries.filter fun entry => (ofLex entry.1).1 = contract).map fun entry =>
    ⟨(ofLex entry.1).1, (ofLex entry.1).2, entry.2⟩

end State

/-- The first loop of `RegisterIncentive`: each denomination is held, and within the limit. -/
def checkAllocation (k : Keeper) (s : State) (al : DecCoin) : Result Unit :=
  if al.denom ≠ k.evmDenom ∧ s.bank.balances k.moduleAddress al.denom = 0 then
    .error ⟨.errInvalidCoins,
      "base denomination '" ++ al.denom ++ "' cannot have a supply of 0"⟩
  else if s.params.allocationLimit < al.amount then
    .error ⟨.errInternalIncentive, "allocation for denom '" ++ al.denom ++ "' (" ++
      al.amount.toString ++ ") cannot be above allocation limit (" ++
      s.params.allocationLimit.toString ++ ")"⟩
  else .ok ()

/-- The second loop of `RegisterIncentive`: the new meters, none of which is above 100%. -/
def newAllocationMeters (s : State) : List DecCoin → Result (List DecCoin)
  | [] => .ok []
  | al :: rest =>
    let (allocationMeter, _) := s.getAllocationMeter al.denom
    let allocationSum := allocationMeter.amount + al.amount
    if 1 < allocationSum then
      .error ⟨.errInternalIncentive, "allocation for denom " ++ al.denom ++
        " is larger than 100 percent: " ++ allocationSum.toString⟩
    else do
      let allocationMeters ← newAllocationMeters s rest
      .ok (⟨al.denom, allocationSum⟩ :: allocationMeters)

/-- `RegisterIncentive`. -/
def registerIncentive (k : Keeper) (ctx : Context) (s : State) (contract : Address)
    (allocations : List DecCoin) (epochs : UInt32) : Result (Incentive × State) :=
  if !s.params.enableIncentives then
    .error ⟨.errInternalIncentive, "incentives are currently disabled by governance"⟩
  else if !ctx.isContract contract then
    .error ⟨.errInternalIncentive, "contract doesn't exist: " ++ k.addressToHex contract⟩
  else if s.isIncentiveRegistered contract then
    .error ⟨.errInternalIncentive, "incentive already registered: " ++ k.addressToHex contract⟩
  else do
    allocations.forM (checkAllocation k s)
    let allocationMeters ← newAllocationMeters s allocations
    let incentive := newIncentive contract allocations epochs ctx.blockTime
    .ok (incentive, allocationMeters.foldl State.setAllocationMeter (s.setIncentive incentive))

/-- `CancelIncentive`. -/
def cancelIncentive (k : Keeper) (s : State) (contract : Address) : Result State :=
  if !s.params.enableIncentives then
    .error ⟨.errInternalIncentive, "incentives are currently disabled by governance"⟩
  else
    match s.incentives.get? contract with
    | none =>
      .error ⟨.errInvalidAddress, "unmatching contract '" ++ k.addressToHex contract ++ "' "⟩
    | some incentive =>
      let s := s.deleteIncentiveAndUpdateAllocationMeters incentive
      .ok ((s.getIncentiveGasMeters contract).foldl State.deleteGasMeter s)

/-- `addGasToIncentive`, for an incentive that exists. -/
def addGasToIncentive (s : State) (incentive : Incentive) (gasUsed : ℕ) : State :=
  s.setIncentive { incentive with totalGas := incentive.totalGas + gasUsed }

/-- `addGasToParticipant`. -/
def addGasToParticipant (s : State) (contract participant : Address) (gasUsed : ℕ) : State :=
  let gasUsed :=
    match s.getGasMeter contract participant with
    | some previousGas => gasUsed + previousGas
    | none => gasUsed
  s.setGasMeter ⟨contract, participant, gasUsed⟩

/-- A processed EVM message and the gas it used. -/
structure Message where
  -- Absent when the message creates a contract.
  toAddr : Option Address
  fromAddr : Address
  gasUsed : ℕ

/-- `PostTxProcessing`, which never returns an error. -/
def postTxProcessing (ctx : Context) (s : State) (msg : Message) : State :=
  if !s.params.enableIncentives then s
  else
    match msg.toAddr with
    | none => s
    | some contract =>
      match s.incentives.get? contract with
      | none => s
      | some incentive =>
        -- Only accounts that are no contracts take part.
        match ctx.getAccount msg.fromAddr with
        | none => s
        | some (.eth true) => s
        | some _ =>
          addGasToParticipant (addGasToIncentive s incentive msg.gasUsed) contract msg.fromAddr
            msg.gasUsed

/-- `Coins.IsAnyGT`, which does not look at coins the other side does not have. -/
def isAnyGT (coins other : Coins) : Bool :=
  decide (∃ denom ∈ coins.support, other denom < coins denom ∧ other denom ≠ 0)

/-- The coins `rewardAllocations` allocates to a contract, out of an escrow. -/
def contractAllocation (escrow : Coins) (incentive : Incentive) : Coins :=
  incentive.allocations.foldl
    (fun coins al =>
      if escrow al.denom = 0 then coins
      else
        let amount := ((Dec.ofInt (escrow al.denom)).mul al.amount).truncateInt
        if ¬0 < amount then coins else coins + Coins.ofCoin al.denom amount.toNat)
    0

/-- `rewardAllocations`: the coins for each contract, and all of them together. -/
def rewardAllocations (k : Keeper) (s : State) : Result (Store Address Coins × Coins) :=
  let escrow := s.bank.balances k.moduleAddress
  let (allocations, rewards) := s.incentives.entries.foldl
    (fun (acc : Store Address Coins × Coins) entry =>
      let coins := contractAllocation escrow entry.2
      (acc.1.set entry.2.contract coins, acc.2 + coins))
    (.empty, 0)
  if isAnyGT rewards escrow then
    .error ⟨.errInsufficientFunds, "escrowed balance < total coins allocated (" ++ escrow.toString ++
      " < " ++ rewards.toString ++ ")"⟩
  else .ok (allocations, rewards)

/-- The coins a participant is rewarded with, given what its contract was allocated. -/
def participantReward (k : Keeper) (params : Params) (incentive : Incentive) (allocated : Coins)
    (gm : GasMeter) : Coins :=
  let cumulativeGas := Dec.ofInt gm.cumulativeGas
  let gasRatio := cumulativeGas.quo (Dec.ofInt incentive.totalGas)
  incentive.allocations.foldl
    (fun coins allocation =>
      let reward := gasRatio.mulInt (allocated allocation.denom)
      if ¬0 < reward then coins
      else
        -- In the EVM denomination no more than the gas spent is paid, times a factor.
        let reward :=
          if k.evmDenom = allocation.denom then min reward (cumulativeGas.mul params.rewardScaler)
          else reward
        coins + Coins.ofCoin allocation.denom reward.truncateInt.toNat)
    0

/-- The loop of `rewardParticipants`, which ends at the first transfer that fails. -/
def rewardLoop (k : Keeper) (incentive : Incentive) (allocated : Coins) :
    List GasMeter → State → Coins → ℕ → (Coins × ℕ) × State
  | [], s, rewards, count => ((rewards, count), s)
  | gm :: rest, s, rewards, count =>
    let coins := participantReward k s.params incentive allocated gm
    let rewards := rewards + coins
    match s.bank.sendCoinsFromModuleToAccount k.bech32 k.blockedAddr k.moduleAddress gm.participant
        coins with
    | .error _ =>
      -- The error is only logged, and no transaction undoes what was debited before it.
      let bank := s.bank.afterFailedSend k.blockedAddr k.moduleAddress gm.participant coins
      ((rewards, count), { s with bank := bank })
    | .ok bank =>
      rewardLoop k incentive allocated rest (State.deleteGasMeter { s with bank := bank } gm) rewards
        (count + 1)

/-- `rewardParticipants`: what was paid, to how many, and the state after it. -/
def rewardParticipants (k : Keeper) (s : State) (incentive : Incentive)
    (coinsAllocated : Store Address Coins) : (Coins × ℕ) × State :=
  match coinsAllocated.get? incentive.contract with
  | none => ((0, 0), s)
  | some allocated =>
    if incentive.totalGas = 0 then ((0, 0), s)
    else rewardLoop k incentive allocated (s.getIncentiveGasMeters incentive.contract) s 0 0

/-- The loop body of `DistributeRewards`. -/
def distributeIncentive (k : Keeper) (allocations : Store Address Coins) (s : State)
    (incentive : Incentive) : State :=
  let (_, s) := rewardParticipants k s incentive allocations
  let incentive := { incentive with epochs := incentive.epochs - 1 }
  if incentive.isActive then (s.setIncentive incentive).setIncentiveTotalGas incentive 0
  else s.deleteIncentiveAndUpdateAllocationMeters incentive

/-- `DistributeRewards`, over the incentives that are stored when it begins. -/
def distributeRewards (k : Keeper) (s : State) : Result State := do
  let (allocations, _) ← rewardAllocations k s
  s.incentives.entries.foldlM (fun s entry => .ok (distributeIncentive k allocations s entry.2)) s

/-- `AfterEpochEnd`: distributes the rewards at the end of the epochs the parameters name. -/
def afterEpochEnd (k : Keeper) (epochIdentifier : String) (_epochNumber : ℤ) (s : State) :
    Result State :=
  if epochIdentifier ≠ s.params.incentivesEpochIdentifier then .ok s
  else if !s.params.enableIncentives then .ok s
  else
    match distributeRewards k s with
    | .ok after => .ok after
    -- The error is not returned: the block fails, and with it the chain.
    | .error err => .error ⟨.panic, err.text⟩

end Evmos.Incentives
