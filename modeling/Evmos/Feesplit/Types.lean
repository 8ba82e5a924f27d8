import Evmos.Evm.Bytes
import Evmos.Library.Dec

/-! Fee splits: records, messages, parameters, and genesis, with their stateless checks. -/

namespace Evmos.Feesplit

open Library

/-- `ethermint.ValidateNonZeroAddress`. -/
def validateNonZeroAddress (address : String) : Result Unit :=
  if hexToAddress address = 0 then
    .error ⟨.errInvalidAddress, "address '" ++ address ++ "' must not be zero"⟩
  else if !isHexAddress address then
    .error ⟨.errInvalidAddress, "address '" ++ address ++ "' is not a valid ethereum hex address"⟩
  else .ok ()

/-- `sdk.AccAddressFromBech32`, as a check. -/
def validateAccAddress (bech32 : Bech32) (address : String) : Result Unit :=
  if (bech32.decode address).isNone then .error ⟨.external, "decoding bech32 failed"⟩ else .ok ()

/-- `sdk.MustAccAddressFromBech32`. -/
def mustAccAddress (bech32 : Bech32) (address : String) : Result Address :=
  orPanic "decoding bech32 failed" (bech32.decode address)

/-- Decodes the withdrawer that a text names, none if the text is empty. -/
def namedWithdrawer (bech32 : Bech32) (withdrawerAddress : String) : Result (Option Address) :=
  if withdrawerAddress = "" then .ok none
  else (mustAccAddress bech32 withdrawerAddress).map some

/-- `FeeSplit`: where the share of the fees of a contract goes. -/
structure FeeSplit where
  -- A hexadecimal address.
  contractAddress : String
  -- A bech32 address.
  deployerAddress : String
  -- A bech32 address, or empty if the deployer is paid.
  withdrawerAddress : String
  deriving DecidableEq

/-- `NewFeeSplit`. An address has at least one byte, so only an absent one is empty. -/
def newFeeSplit (bech32 : Bech32) (format : AddressString) (contract : EthAddress)
    (deployer : Address) (withdrawer : Option Address) : FeeSplit where
  contractAddress := format.spell contract
  deployerAddress := bech32.encode deployer
  withdrawerAddress := (withdrawer.map bech32.encode).getD ""

namespace FeeSplit

/-- `GetContractAddr`. -/
def getContractAddr (fs : FeeSplit) : EthAddress := hexToAddress fs.contractAddress

/-- `GetDeployerAddr`. -/
def getDeployerAddr (bech32 : Bech32) (fs : FeeSplit) : Result Address :=
  mustAccAddress bech32 fs.deployerAddress

/-- `GetWithdrawerAddr`, absent if the deployer is paid. -/
def getWithdrawerAddr (bech32 : Bech32) (fs : FeeSplit) : Result (Option Address) :=
  namedWithdrawer bech32 fs.withdrawerAddress

/-- `FeeSplit.Validate`. -/
def validate (bech32 : Bech32) (fs : FeeSplit) : Result Unit := do
  validateNonZeroAddress fs.contractAddress
  validateAccAddress bech32 fs.deployerAddress
  if fs.withdrawerAddress ≠ "" then validateAccAddress bech32 fs.withdrawerAddress

end FeeSplit

/-- `MsgRegisterFeeSplit`. -/
structure MsgRegisterFeeSplit where
  contractAddress : String
  deployerAddress : String
  withdrawerAddress : String
  -- The nonces of the deployer and of the factories on the way to the contract.
  nonces : List ℕ

/-- `MsgUpdateFeeSplit`. -/
structure MsgUpdateFeeSplit where
  contractAddress : String
  deployerAddress : String
  withdrawerAddress : String

/-- `MsgCancelFeeSplit`. -/
structure MsgCancelFeeSplit where
  contractAddress : String
  deployerAddress : String

/-- The checks that all three messages begin with. -/
def validateParties (bech32 : Bech32) (deployerAddress contractAddress : String) :
    Result Unit := do
  wrap ("invalid deployer address " ++ deployerAddress) (validateAccAddress bech32 deployerAddress)
  wrap ("invalid contract address " ++ contractAddress) (validateNonZeroAddress contractAddress)

/-- The check on the number of nonces, which allows twenty of them. -/
def validateNonces (nonces : List ℕ) : Result Unit :=
  if nonces.length < 1 then .error ⟨.errInvalidRequest, "invalid nonces - empty array"⟩
  else if 20 < nonces.length then
    .error ⟨.errInvalidRequest, "invalid nonces - array length must be less than 20"⟩
  else .ok ()

/-- `MsgRegisterFeeSplit.ValidateBasic`. -/
def MsgRegisterFeeSplit.validateBasic (bech32 : Bech32) (msg : MsgRegisterFeeSplit) :
    Result Unit := do
  validateParties bech32 msg.deployerAddress msg.contractAddress
  if msg.withdrawerAddress ≠ "" then
    wrap ("invalid withdraw address " ++ msg.withdrawerAddress)
      (validateAccAddress bech32 msg.withdrawerAddress)
  validateNonces msg.nonces

/-- `MsgUpdateFeeSplit.ValidateBasic`, which does not accept an absent withdrawer. -/
def MsgUpdateFeeSplit.validateBasic (bech32 : Bech32) (msg : MsgUpdateFeeSplit) :
    Result Unit := do
  validateParties bech32 msg.deployerAddress msg.contractAddress
  wrap ("invalid withdraw address " ++ msg.withdrawerAddress)
    (validateAccAddress bech32 msg.withdrawerAddress)

/-- `MsgCancelFeeSplit.ValidateBasic`. -/
def MsgCancelFeeSplit.validateBasic (bech32 : Bech32) (msg : MsgCancelFeeSplit) : Result Unit :=
  validateParties bech32 msg.deployerAddress msg.contractAddress

/-- `Params` of the fee split module, without the gas that a derivation costs. -/
structure Params where
  enableFeeSplit : Bool
  developerShares : Dec

/-- `Params.Validate`. Either value of `EnableFeeSplit` is valid. -/
def Params.validate (params : Params) : Result Unit :=
  if params.developerShares < 0 then
    .error ⟨.external, "value cannot be negative: types.Dec"⟩
  else if 1 < params.developerShares then
    .error ⟨.external, "value cannot be greater than 1: types.Dec"⟩
  else .ok ()

/-- `GenesisState` of the fee split module. -/
structure GenesisState where
  params : Params
  feeSplits : List FeeSplit

/-- The loop of `GenesisState.Validate` over the fee splits, with the contracts seen before. -/
def validateFeeSplits (bech32 : Bech32) : List String → List FeeSplit → Result Unit
  | _, [] => .ok ()
  | seenContract, fs :: rest =>
    -- Only one fee split a contract, compared as it is spelled.
    if fs.contractAddress ∈ seenContract then
      .error ⟨.external, "contract duplicated on genesis '" ++ fs.contractAddress ++ "'"⟩
    else do
      fs.validate bech32
      validateFeeSplits bech32 (fs.contractAddress :: seenContract) rest

/-- `GenesisState.Validate`. -/
def GenesisState.validate (bech32 : Bech32) (gs : GenesisState) : Result Unit := do
  validateFeeSplits bech32 [] gs.feeSplits
  gs.params.validate

end Evmos.Feesplit
