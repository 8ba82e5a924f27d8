import Evmos.Feesplit.Types
import Evmos.Library.Index
import Evmos.Sdk.Bank

/-! The fee split keeper: its store, the message server, the hook after a transaction, and genesis. -/

namespace Evmos.Feesplit

open Library

/-- What the keeper takes from other modules and libraries. -/
structure Keeper where
  bech32 : Bech32
  -- An empty text is not an address.
  decode_empty : bech32.decode "" = none
  format : AddressString
  addressBytes : AddressBytes
  -- `crypto.CreateAddress`: the contract that an account creates with a nonce.
  createAddress : EthAddress → ℕ → EthAddress
  feeCollectorAddress : Address
  blockedAddr : Address → Bool

/-- A codec that counts letters, all of one case, for evaluating the model. -/
def letters : Bech32 where
  decode text :=
    if text ≠ "" ∧ (text.toList.all (· = 'q') ∨ text.toList.all (· = 'Q')) then
      some (text.toList.length - 1)
    else none
  encode address := String.ofList (List.replicate (address + 1) 'q')
  decode_encode address := by
    have filled : String.ofList (List.replicate (address + 1) 'q') ≠ "" := by
      intro blank
      simpa using congrArg String.length blank
    simp [filled]

/-- A keeper for evaluating the model, whose contracts follow their creators. -/
def Keeper.plain : Keeper where
  bech32 := letters
  decode_empty := rfl
  format := .lower
  addressBytes := .plain
  createAddress creator nonce := creator + Fin.ofNat (2 ^ 160) (nonce + 1)
  feeCollectorAddress := 100
  blockedAddr _ := false

/-- An account of the EVM, as far as messages look at it. -/
inductive EvmAccount where
  /-- An account without code. -/
  | external
  /-- An account with code. -/
  | contract
  deriving DecidableEq

/-- A `DistributeDevFeeSplit` event. -/
structure Distribution where
  contract : EthAddress
  withdrawer : Address
  amount : ℤ
  deriving DecidableEq

/-- The state the fee split module works on. -/
structure State where
  params : Params
  -- The fee splits, by the bytes of their contracts.
  feeSplits : Store EthAddress FeeSplit
  -- The contracts of each deployer, by the bytes of both.
  deployerMap : Store (List Byte) Unit
  -- The contracts of each withdrawer, by the bytes of both.
  withdrawerMap : Store (List Byte) Unit
  bank : Bank
  -- The events emitted so far.
  distributions : List Distribution

/-- `GetFeeSplit`. -/
def State.getFeeSplit (s : State) (contract : EthAddress) : Option FeeSplit :=
  s.feeSplits.get? contract

/-- `IsFeeSplitRegistered`. -/
def State.isFeeSplitRegistered (s : State) (contract : EthAddress) : Bool :=
  (s.feeSplits.get? contract).isSome

/-- `SetFeeSplit`, at the contract that the fee split names. -/
def State.setFeeSplit (s : State) (feeSplit : FeeSplit) : State :=
  { s with feeSplits := s.feeSplits.set feeSplit.getContractAddr feeSplit }

/-- `DeleteFeeSplit`. -/
def State.deleteFeeSplit (s : State) (feeSplit : FeeSplit) : State :=
  { s with feeSplits := s.feeSplits.delete feeSplit.getContractAddr }

/-- The key of a contract in one of the maps: the bytes of the account, then those of the contract. -/
def mapKey (k : Keeper) (account : Address) (contract : EthAddress) : List Byte :=
  k.addressBytes.bytes account ++ contract.toBytes

/-- `SetDeployerMap`. -/
def State.setDeployerMap (k : Keeper) (s : State) (deployer : Address) (contract : EthAddress) :
    State :=
  { s with deployerMap := s.deployerMap.set (mapKey k deployer contract) () }

/-- `DeleteDeployerMap`. -/
def State.deleteDeployerMap (k : Keeper) (s : State) (deployer : Address) (contract : EthAddress) :
    State :=
  { s with deployerMap := s.deployerMap.delete (mapKey k deployer contract) }

/-- `SetWithdrawerMap`. -/
def State.setWithdrawerMap (k : Keeper) (s : State) (withdrawer : Address) (contract : EthAddress) :
    State :=
  { s with withdrawerMap := s.withdrawerMap.set (mapKey k withdrawer contract) () }

/-- `DeleteWithdrawerMap`. -/
def State.deleteWithdrawerMap (k : Keeper) (s : State) (withdrawer : Address)
    (contract : EthAddress) : State :=
  { s with withdrawerMap := s.withdrawerMap.delete (mapKey k withdrawer contract) }

/-- `IsDeployerMapSet`. -/
def State.isDeployerMapSet (k : Keeper) (s : State) (deployer : Address) (contract : EthAddress) :
    Bool :=
  (s.deployerMap.get? (mapKey k deployer contract)).isSome

/-- `IsWithdrawerMapSet`. -/
def State.isWithdrawerMapSet (k : Keeper) (s : State) (withdrawer : Address)
    (contract : EthAddress) : Bool :=
  (s.withdrawerMap.get? (mapKey k withdrawer contract)).isSome

/-- Sets the withdrawer map for a withdrawer that is not the default one. -/
def State.addWithdrawer (k : Keeper) (s : State) (contract : EthAddress) : Option Address → State
  | some withdrawer => s.setWithdrawerMap k withdrawer contract
  | none => s

/-- Clears the withdrawer map of a withdrawer that is not the default one. -/
def State.removeWithdrawer (k : Keeper) (s : State) (contract : EthAddress) :
    Option Address → State
  | some withdrawer => s.deleteWithdrawerMap k withdrawer contract
  | none => s

/-- The contract that a deployer reaches with nonces: its own, and those of the factories after it. -/
def deriveContract (k : Keeper) (deployer : EthAddress) (nonces : List ℕ) : EthAddress :=
  nonces.foldl k.createAddress deployer

/-- The withdrawer of a registration, if one is named and is not spelled as the deployer. -/
def otherWithdrawer (k : Keeper) (msg : MsgRegisterFeeSplit) : Result (Option Address) :=
  if msg.withdrawerAddress ≠ "" ∧ msg.withdrawerAddress ≠ msg.deployerAddress then
    (mustAccAddress k.bech32 msg.withdrawerAddress).map some
  else .ok none

/-- `RegisterFeeSplit`, for the accounts of the EVM. The gas of the derivation is left out. -/
def registerFeeSplit (k : Keeper) (account : EthAddress → Option EvmAccount) (s : State)
    (msg : MsgRegisterFeeSplit) : Result State :=
  if !s.params.enableFeeSplit then .error ⟨.errFeeSplitDisabled, ""⟩
  else
    let contract := hexToAddress msg.contractAddress
    if s.isFeeSplitRegistered contract then
      .error ⟨.errFeeSplitAlreadyRegistered,
        "contract is already registered " ++ k.format.spell contract⟩
    else do
      let deployer ← mustAccAddress k.bech32 msg.deployerAddress
      let deployerEth := bytesToAddress (k.addressBytes.bytes deployer)
      match account deployerEth with
      | none => .error ⟨.errNotFound, "deployer account not found " ++ msg.deployerAddress⟩
      | some .contract =>
        .error ⟨.errFeeSplitDeployerIsNotEOA,
          "deployer cannot be a contract " ++ msg.deployerAddress⟩
      | some .external =>
        -- The contract must already be deployed, to avoid spam registrations.
        if account contract ≠ some .contract then
          .error ⟨.errFeeSplitNoContractDeployed,
            "no contract code found at address " ++ msg.contractAddress⟩
        else do
          let withdrawer ← otherWithdrawer k msg
          let derivedContract := deriveContract k deployerEth msg.nonces
          if contract ≠ derivedContract then
            .error ⟨.errorInvalidSigner, "not contract deployer or wrong nonce: expected " ++
              k.format.spell derivedContract ++ " instead of " ++ msg.contractAddress⟩
          else
            let s := s.setFeeSplit (newFeeSplit k.bech32 k.format contract deployer withdrawer)
            let s := s.setDeployerMap k deployer contract
            .ok (s.addWithdrawer k contract withdrawer)

/-- `UpdateFeeSplit`. -/
def updateFeeSplit (k : Keeper) (s : State) (msg : MsgUpdateFeeSplit) : Result State :=
  if !s.params.enableFeeSplit then .error ⟨.errFeeSplitDisabled, ""⟩
  else
    let contract := hexToAddress msg.contractAddress
    match s.getFeeSplit contract with
    | none =>
      .error ⟨.errFeeSplitContractNotRegistered,
        "contract " ++ msg.contractAddress ++ " is not registered"⟩
    | some feeSplit =>
      -- The deployer must be spelled as it is stored.
      if msg.deployerAddress ≠ feeSplit.deployerAddress then
        .error ⟨.errUnauthorized, msg.deployerAddress ++ " is not the contract deployer"⟩
      else
        -- The deployer as a withdrawer is the default.
        let withdrawerAddress :=
          if msg.withdrawerAddress = feeSplit.deployerAddress then "" else msg.withdrawerAddress
        if withdrawerAddress = feeSplit.withdrawerAddress then
          .error ⟨.errFeeSplitAlreadyRegistered,
            "fee split with withdraw address " ++ withdrawerAddress⟩
        else do
          let old ← namedWithdrawer k.bech32 feeSplit.withdrawerAddress
          let s := s.removeWithdrawer k contract old
          let new ← namedWithdrawer k.bech32 withdrawerAddress
          let s := s.addWithdrawer k contract new
          .ok (s.setFeeSplit { feeSplit with withdrawerAddress := withdrawerAddress })

/-- `CancelFeeSplit`. -/
def cancelFeeSplit (k : Keeper) (s : State) (msg : MsgCancelFeeSplit) : Result State :=
  if !s.params.enableFeeSplit then .error ⟨.errFeeSplitDisabled, ""⟩
  else
    let contract := hexToAddress msg.contractAddress
    match s.getFeeSplit contract with
    | none =>
      .error ⟨.errFeeSplitContractNotRegistered,
        "contract " ++ msg.contractAddress ++ " is not registered"⟩
    | some fee =>
      if msg.deployerAddress ≠ fee.deployerAddress then
        .error ⟨.errUnauthorized, msg.deployerAddress ++ " is not the contract deployer"⟩
      else do
        let s := s.deleteFeeSplit fee
        let deployer ← fee.getDeployerAddr k.bech32
        let s := s.deleteDeployerMap k deployer contract
        let withdrawer ← fee.getWithdrawerAddr k.bech32
        .ok (s.removeWithdrawer k contract withdrawer)

/-- An Ethereum transaction that was executed, as far as the hook looks at it. -/
structure Transaction where
  -- Absent for the creation of a contract.
  toContract : Option EthAddress
  gasPrice : ℕ
  -- From the receipt.
  gasUsed : ℕ

/--
`SendCoinsFromModuleToAccount` of the coin that the hook builds.

The coin is not normalised, so a zero amount makes it invalid once the recipient is not blocked.
-/
def sendDeveloperFee (k : Keeper) (bank : Bank) (recipient : Address) (denom : Denom)
    (amount : ℤ) : Result Bank :=
  if !k.blockedAddr recipient && amount ≤ 0 then
    .error ⟨.errInvalidCoins, toString amount ++ denom⟩
  else
    bank.sendCoinsFromModuleToAccount k.bech32 k.blockedAddr k.feeCollectorAddress recipient
      (Coins.ofCoin denom amount.toNat)

/-- The share of a fee that goes to the developer. -/
def developerFee (params : Params) (tx : Transaction) : ℤ :=
  let txFee : ℤ := tx.gasUsed * tx.gasPrice
  ((Dec.ofInt txFee).mul params.developerShares).truncateInt

/-- Who is paid for a fee split: the withdrawer, or the deployer if there is none. -/
def effectiveWithdrawer (k : Keeper) (feeSplit : FeeSplit) : Result Address := do
  match ← feeSplit.getWithdrawerAddr k.bech32 with
  | some withdrawer => .ok withdrawer
  | none => feeSplit.getDeployerAddr k.bech32

/-- `PostTxProcessing`, with the denomination that fees are paid in. -/
def postTxProcessing (k : Keeper) (evmDenom : Denom) (s : State) (tx : Transaction) :
    Result State :=
  if !s.params.enableFeeSplit then .ok s
  else
    match tx.toContract with
    | none => .ok s
    | some contract =>
      match s.getFeeSplit contract with
      | none => .ok s
      | some feeSplit => do
        let withdrawer ← effectiveWithdrawer k feeSplit
        let fee := developerFee s.params tx
        let bank ← wrap ("fee collector account failed to distribute developer fees (" ++
            toString fee ++ evmDenom ++ ") to withdraw address " ++ k.bech32.encode withdrawer ++
            ". contract " ++ k.format.spell contract)
          (sendDeveloperFee k s.bank withdrawer evmDenom fee)
        .ok { s with
          bank := bank
          distributions := s.distributions ++ [⟨contract, withdrawer, fee⟩] }

/-- The body of the loop of `InitGenesis`. -/
def State.addFeeSplit (k : Keeper) (s : State) (feeSplit : FeeSplit) : Result State := do
  let contract := feeSplit.getContractAddr
  let deployer ← feeSplit.getDeployerAddr k.bech32
  let withdrawer ← feeSplit.getWithdrawerAddr k.bech32
  let s := s.setFeeSplit feeSplit
  let s := s.setDeployerMap k deployer contract
  .ok (s.addWithdrawer k contract withdrawer)

/-- `InitGenesis`. -/
def initGenesis (k : Keeper) (s : State) (data : GenesisState) : Result State :=
  data.feeSplits.foldlM (State.addFeeSplit k) { s with params := data.params }

/-- `ExportGenesis`. -/
def exportGenesis (s : State) : GenesisState where
  params := s.params
  feeSplits := s.feeSplits.entries.map Prod.snd

end Evmos.Feesplit
