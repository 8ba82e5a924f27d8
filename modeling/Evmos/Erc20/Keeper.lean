import Evmos.Erc20.Types

/-! The erc20 keeper: the registry of pairs, conversions in both directions, and the EVM hook. -/

namespace Evmos.Erc20

open Library

/-- What the keeper knows of the other modules and of the libraries. -/
structure Keeper where
  -- `ModuleAddress`, the account that holds the escrow and owns the module's contracts.
  moduleAddress : EthAddress
  moduleAddress_ne_zero : moduleAddress ≠ 0
  format : AddressString
  bech32 : Bech32
  -- `tmhash.Sum`, taken to be free of collisions.
  sum : String → ℕ
  sum_injective : Function.Injective sum
  -- `crypto.CreateAddress`, of the account and its nonce.
  createAddress : EthAddress → ℕ → EthAddress
  -- `BankKeeper.BlockedAddr`.
  blockedAddr : Address → Bool
  -- `banktypes.Metadata.Validate`.
  validateMetadata : Metadata → Result Unit
  -- The code of the hostile contracts.
  program : Program

/-- What a call reads of the rest of the chain. -/
structure Context where
  -- `BankKeeper.LockedCoins`, at the time of the block.
  lockedCoins : Address → Coins
  -- `BankKeeper.IsSendEnabledCoin`.
  isSendEnabled : Denom → Bool

/-- The state the erc20 module works on. -/
structure State where
  params : Params
  -- The pairs, by identifier.
  tokenPairs : Store ℕ TokenPair
  -- The identifiers, by contract.
  erc20Map : Store EthAddress ℕ
  -- The identifiers, by denomination.
  denomMap : Store Denom ℕ
  bank : Bank
  -- The metadata of the bank, by base denomination.
  denomMetadata : Store Denom Metadata
  evm : Evm

namespace State

/-- `GetTokenPairID`: a token is an address if it can be read as one, and a denomination if not. -/
def getTokenPairID (s : State) (token : String) : Option ℕ :=
  if isHexAddress token then s.erc20Map.get? (hexToAddress token) else s.denomMap.get? token

/-- `SetTokenPair`. -/
def setTokenPair (s : State) (sum : String → ℕ) (tokenPair : TokenPair) : State :=
  { s with tokenPairs := s.tokenPairs.set (tokenPair.getID sum) tokenPair }

/-- `DeleteTokenPair`. -/
def deleteTokenPair (s : State) (sum : String → ℕ) (tokenPair : TokenPair) : State :=
  { s with
    tokenPairs := s.tokenPairs.delete (tokenPair.getID sum)
    erc20Map := s.erc20Map.delete tokenPair.getERC20Contract
    denomMap := s.denomMap.delete tokenPair.denom }

/-- The end of both registrations: the pair and its two indices are stored. -/
def registerPair (s : State) (sum : String → ℕ) (pair : TokenPair) : State :=
  let s := s.setTokenPair sum pair
  { s with
    denomMap := s.denomMap.set pair.denom (pair.getID sum)
    erc20Map := s.erc20Map.set pair.getERC20Contract (pair.getID sum) }

end State

/-- `CallEVMWithData`, for a method of a contract. -/
def callEVMWithData (k : Keeper) (evm : Evm) (fromAddr contract : EthAddress) (commit : Bool)
    (method : Method) : Result (Response × Evm) :=
  match evm.applyMessage k.moduleAddress k.program fromAddr contract method with
  | .error vmError => .error ⟨.errVMExecution, vmError⟩
  | .ok (res, after) => .ok (res, if commit then after else evm)

/-- `CallEVM`. -/
def callEVM (k : Keeper) (evm : Evm) (fromAddr contract : EthAddress) (commit : Bool)
    (method : Method) : Result (Response × Evm) :=
  wrap ("contract call failed: method '" ++ method.abiName ++ "', contract '" ++
    k.format.spell contract ++ "'") (callEVMWithData k evm fromAddr contract commit method)

/-- `BalanceOf`, undefined where it returns nil. -/
def balanceOf (k : Keeper) (evm : Evm) (contract account : EthAddress) : Option ℕ :=
  match callEVM k evm k.moduleAddress contract false (.balanceOf account) with
  | .error _ => none
  | .ok (res, _) => res.ret.uint

/-- The balance, or the error of the conversions when there is none. -/
def retrieveBalance (k : Keeper) (evm : Evm) (contract account : EthAddress) : Result ℕ :=
  orError ⟨.errEVMCall, "failed to retrieve balance"⟩ (balanceOf k evm contract account)

/-- `QueryERC20`. -/
def queryERC20 (k : Keeper) (evm : Evm) (contract : EthAddress) : Result ERC20Data := do
  let (res, _) ← callEVM k evm k.moduleAddress contract false .name
  let name ← orError ⟨.errABIUnpack, "failed to unpack name"⟩ res.ret.string
  let (res, _) ← callEVM k evm k.moduleAddress contract false .symbol
  let symbol ← orError ⟨.errABIUnpack, "failed to unpack symbol"⟩ res.ret.string
  let (res, _) ← callEVM k evm k.moduleAddress contract false .decimals
  let decimals ← orError ⟨.errABIUnpack, "failed to unpack decimals"⟩ res.ret.uint
  .ok ⟨name, symbol, decimals⟩

/-- `monitorApprovalEvent`, which panics on a log without topics. -/
def monitorApprovalEvent (res : Response) : Result Unit :=
  res.logs.forM fun log =>
    match log.topics with
    | [] => .error ⟨.panic, "index out of range [0] with length 0"⟩
    | topic :: _ =>
      if topic = Erc20Event.approval.id then
        .error ⟨.errUnexpectedEvent, "unexpected Approval event"⟩
      else .ok ()

/-- `DeployERC20Contract`, which fails if there already is a contract at the new address. -/
def deployERC20Contract (k : Keeper) (evm : Evm) (coinMetadata : Metadata) :
    Result (EthAddress × Evm) :=
  -- The decimals are those of the last unit, as one byte.
  let decimals := (coinMetadata.denomUnits.getLast?.elim 0 DenomUnit.exponent) % 256
  let contractAddr := k.createAddress k.moduleAddress evm.sequence
  match evm.contracts contractAddr with
  | some _ =>
    .error ⟨.errVMExecution, "failed to deploy contract for " ++ coinMetadata.name ++
      ": contract address collision"⟩
  | none =>
    let contract := .minterBurner ⟨coinMetadata.name, coinMetadata.symbol, decimals⟩ .empty
    .ok (contractAddr, { evm.setContract contractAddr contract with sequence := evm.sequence + 1 })

/-- `verifyMetadata`: the metadata becomes that of the denomination, or is equal to it. -/
def verifyMetadata (s : State) (coinMetadata : Metadata) : Result State :=
  match s.denomMetadata.get? coinMetadata.base with
  | none => .ok { s with denomMetadata := s.denomMetadata.set coinMetadata.base coinMetadata }
  | some found => do
    equalMetadata found coinMetadata
    .ok s

/-- `RegisterCoin`. -/
def registerCoin (k : Keeper) (s : State) (coinMetadata : Metadata) : Result (TokenPair × State) :=
  if !s.params.enableErc20 then
    .error ⟨.errERC20Disabled, "registration is currently disabled by governance"⟩
  else if coinMetadata.base.toList.tails.any ("evm".toList.isPrefixOf ·) then
    .error ⟨.errEVMDenom, "cannot register the EVM denomination " ++ coinMetadata.base⟩
  -- The name is looked up here, and the base denomination is what is registered.
  else if (s.denomMap.get? coinMetadata.name).isSome then
    .error ⟨.errTokenPairAlreadyExists,
      "coin denomination already registered: " ++ coinMetadata.name⟩
  else if !s.bank.hasSupply coinMetadata.base then
    .error ⟨.errInvalidCoins,
      "base denomination '" ++ coinMetadata.base ++ "' cannot have a supply of 0"⟩
  else
    match verifyMetadata s coinMetadata with
    | .error _ =>
      .error ⟨.errInternalTokenPair, "coin metadata is invalid " ++ coinMetadata.name⟩
    | .ok s => do
      let (addr, evm) ← wrap "failed to create wrapped coin denom metadata for ERC20"
        (deployERC20Contract k s.evm coinMetadata)
      let pair := newTokenPair k.format addr coinMetadata.base true .module
      .ok (pair, State.registerPair { s with evm := evm } k.sum pair)

/-- The metadata that `CreateCoinMetadata` builds, named after the contract. -/
def contractMetadata (strContract : String) (erc20Data : ERC20Data) : Metadata :=
  let base := createDenom strContract
  let metadata : Metadata :=
    ⟨createDenomDescription strContract, [⟨base, 0, []⟩], base, base, base, erc20Data.symbol⟩
  -- Without decimals the second unit would not be valid.
  if 0 < erc20Data.decimals then
    let nameSanitized := sanitizeERC20Name erc20Data.name
    { metadata with
      denomUnits := metadata.denomUnits ++ [⟨nameSanitized, erc20Data.decimals, []⟩]
      display := nameSanitized }
  else metadata

/-- `CreateCoinMetadata`. -/
def createCoinMetadata (k : Keeper) (s : State) (contract : EthAddress) :
    Result (Metadata × State) := do
  let strContract := k.format.spell contract
  let erc20Data ← queryERC20 k s.evm contract
  if (s.denomMetadata.get? (createDenom strContract)).isSome then
    .error ⟨.errInternalTokenPair, "denom metadata already registered"⟩
  else if (s.denomMap.get? (createDenom strContract)).isSome then
    .error ⟨.errInternalTokenPair, "coin denomination already registered: " ++ erc20Data.name⟩
  else do
    let metadata := contractMetadata strContract erc20Data
    wrap ("ERC20 token data is invalid for contract " ++ strContract) (k.validateMetadata metadata)
    .ok (metadata, { s with denomMetadata := s.denomMetadata.set metadata.base metadata })

/-- `RegisterERC20`. -/
def registerERC20 (k : Keeper) (s : State) (contract : EthAddress) : Result (TokenPair × State) :=
  if !s.params.enableErc20 then
    .error ⟨.errERC20Disabled, "registration is currently disabled by governance"⟩
  else if (s.erc20Map.get? contract).isSome then
    .error ⟨.errTokenPairAlreadyExists,
      "token ERC20 contract already registered: " ++ k.format.spell contract⟩
  else do
    let (metadata, s) ← wrap "failed to create wrapped coin denom metadata for ERC20"
      (createCoinMetadata k s contract)
    let pair := newTokenPair k.format contract metadata.name true .external
    .ok (pair, s.registerPair k.sum pair)

/-- The pair of a token, or the errors of `ToggleConversion` and `MintingEnabled`. -/
def findTokenPair (s : State) (token : String) : Result TokenPair := do
  let id ← orError ⟨.errTokenPairNotFound, "token '" ++ token ++ "' not registered by id"⟩
    (s.getTokenPairID token)
  orError ⟨.errTokenPairNotFound, "token '" ++ token ++ "' not registered"⟩ (s.tokenPairs.get? id)

/-- `ToggleConversion`. -/
def toggleConversion (k : Keeper) (s : State) (token : String) : Result (TokenPair × State) := do
  let pair ← findTokenPair s token
  let pair := { pair with enabled := !pair.enabled }
  .ok (pair, s.setTokenPair k.sum pair)

/-- `MintingEnabled`. -/
def mintingEnabled (k : Keeper) (ctx : Context) (s : State) (sender receiver : Address)
    (token : String) : Result TokenPair :=
  if !s.params.enableErc20 then
    .error ⟨.errERC20Disabled, "module is currently disabled by governance"⟩
  else do
    let pair ← findTokenPair s token
    if !pair.enabled then
      .error ⟨.errERC20TokenPairDisabled,
        "minting token '" ++ token ++ "' is not enabled by governance"⟩
    else if k.blockedAddr receiver then
      .error ⟨.errUnauthorized,
        k.bech32.encode receiver ++ " is not allowed to receive transactions"⟩
    else if sender ≠ receiver ∧ !ctx.isSendEnabled pair.denom then
      .error ⟨.errSendDisabled,
        "minting '" ++ token ++ "' coins to an external address is currently disabled"⟩
    else .ok pair

/-- The comparison that ends the conversions: what was expected is what there is. -/
def checkBalance (what : String) (expected actual : ℕ) : Result Unit :=
  if actual = expected then .ok ()
  else .error ⟨.errBalanceInvariance, "invalid " ++ what ++ " balance - expected: " ++
    toString expected ++ ", actual: " ++ toString actual⟩

/-- `convertCoinNativeCoin`: the coin is escrowed, and tokens are minted. -/
def convertCoinNativeCoin (k : Keeper) (ctx : Context) (s : State) (pair : TokenPair)
    (msg : MsgConvertCoin) (receiver : EthAddress) (sender : Address) : Result State := do
  let contract := pair.getERC20Contract
  let tokens := msg.coin.amount.toNat
  let balanceToken ← retrieveBalance k s.evm contract receiver
  -- The coin of the message is escrowed, whatever the denomination of the pair is.
  let bank ← wrap "failed to escrow coins" (s.bank.sendCoinsFromAccountToModule
    (ctx.lockedCoins sender) sender k.moduleAddress.bytes msg.coin.toCoins)
  let (_, evm) ← callEVM k s.evm k.moduleAddress contract true (.mint receiver tokens)
  let balanceTokenAfter ← retrieveBalance k evm contract receiver
  checkBalance "token" (balanceToken + tokens) balanceTokenAfter
  .ok { s with bank := bank, evm := evm }

/-- `convertERC20NativeCoin`: tokens are burned, and the escrowed coins are returned. -/
def convertERC20NativeCoin (k : Keeper) (s : State) (pair : TokenPair) (msg : MsgConvertERC20)
    (receiver : Address) (sender : EthAddress) : Result State := do
  let contract := pair.getERC20Contract
  let tokens := msg.amount.toNat
  let balanceCoin := s.bank.balances receiver pair.denom
  let balanceToken ← retrieveBalance k s.evm contract sender
  let (_, evm) ← callEVM k s.evm k.moduleAddress contract true (.burnCoins sender tokens)
  let bank ← s.bank.sendCoinsFromModuleToAccount k.bech32 k.blockedAddr k.moduleAddress.bytes
    receiver (Coins.ofCoin pair.denom tokens)
  checkBalance "coin" (balanceCoin + tokens) (bank.balances receiver pair.denom)
  let balanceTokenAfter ← retrieveBalance k evm contract sender
  -- The expected balance may be negative, and then nothing is equal to it.
  if balanceToken < tokens then
    .error ⟨.errBalanceInvariance, "invalid token balance - expected: -" ++
      toString (tokens - balanceToken) ++ ", actual: " ++ toString balanceTokenAfter⟩
  else do
    checkBalance "token" (balanceToken - tokens) balanceTokenAfter
    .ok { s with bank := bank, evm := evm }

/-- `convertERC20NativeToken`: tokens are escrowed, and coins are minted. -/
def convertERC20NativeToken (k : Keeper) (s : State) (pair : TokenPair) (msg : MsgConvertERC20)
    (receiver : Address) (sender : EthAddress) : Result State := do
  let contract := pair.getERC20Contract
  let tokens := msg.amount.toNat
  let coins := Coins.ofCoin pair.denom tokens
  let balanceCoin := s.bank.balances receiver pair.denom
  let balanceToken ← retrieveBalance k s.evm contract k.moduleAddress
  let (res, evm) ← callEVMWithData k s.evm sender contract true
    (.token (.transfer k.moduleAddress tokens))
  let transferred ← orError ⟨.external, "abi: cannot unmarshal the result of transfer"⟩ res.ret.bool
  if !transferred then .error ⟨.errLogic, "failed to execute transfer"⟩
  else do
    let balanceTokenAfter ← retrieveBalance k evm contract k.moduleAddress
    checkBalance "token" (balanceToken + tokens) balanceTokenAfter
    let bank := s.bank.mintCoins k.moduleAddress.bytes coins
    let bank ← bank.sendCoinsFromModuleToAccount k.bech32 k.blockedAddr k.moduleAddress.bytes
      receiver coins
    checkBalance "coin" (balanceCoin + tokens) (bank.balances receiver pair.denom)
    monitorApprovalEvent res
    .ok { s with bank := bank, evm := evm }

/-- `convertCoinNativeERC20`: escrowed tokens are returned, and the coins are burned. -/
def convertCoinNativeERC20 (k : Keeper) (ctx : Context) (s : State) (pair : TokenPair)
    (msg : MsgConvertCoin) (receiver : EthAddress) (sender : Address) : Result State := do
  let contract := pair.getERC20Contract
  let tokens := msg.coin.amount.toNat
  let balanceToken ← retrieveBalance k s.evm contract receiver
  let bank ← wrap "failed to escrow coins" (s.bank.sendCoinsFromAccountToModule
    (ctx.lockedCoins sender) sender k.moduleAddress.bytes msg.coin.toCoins)
  let (res, evm) ← callEVM k s.evm k.moduleAddress contract true
    (.token (.transfer receiver tokens))
  let transferred ← orError ⟨.external, "abi: cannot unmarshal the result of transfer"⟩ res.ret.bool
  if !transferred then .error ⟨.errLogic, "failed to execute unescrow tokens from user"⟩
  else do
    let balanceTokenAfter ← retrieveBalance k evm contract receiver
    checkBalance "token" (balanceToken + tokens) balanceTokenAfter
    let bank ← wrap "failed to burn coins" (bank.burnCoins k.moduleAddress.bytes msg.coin.toCoins)
    monitorApprovalEvent res
    .ok { s with bank := bank, evm := evm }

/-- `ConvertCoin`. -/
def convertCoin (k : Keeper) (ctx : Context) (s : State) (msg : MsgConvertCoin) : Result State := do
  let receiver := hexToAddress msg.receiver
  let sender ← orPanic "invalid sender address" (k.bech32.decode msg.sender)
  let pair ← mintingEnabled k ctx s sender receiver.bytes msg.coin.denom
  -- The pair of a contract that has destroyed itself is removed, and nothing else happens.
  if !s.evm.isContract pair.getERC20Contract then .ok (s.deleteTokenPair k.sum pair)
  else
    match pair.contractOwner with
    | .module => convertCoinNativeCoin k ctx s pair msg receiver sender
    | .external => convertCoinNativeERC20 k ctx s pair msg receiver sender
    | .unspecified => .error ⟨.errUndefinedOwner, ""⟩

/-- `ConvertERC20`. -/
def convertERC20 (k : Keeper) (ctx : Context) (s : State) (msg : MsgConvertERC20) :
    Result State := do
  let receiver ← orPanic "invalid receiver address" (k.bech32.decode msg.receiver)
  let sender := hexToAddress msg.sender
  let pair ← mintingEnabled k ctx s sender.bytes receiver msg.contractAddress
  if !s.evm.isContract pair.getERC20Contract then .ok (s.deleteTokenPair k.sum pair)
  else
    match pair.contractOwner with
    | .module => convertERC20NativeCoin k s pair msg receiver sender
    | .external => convertERC20NativeToken k s pair msg receiver sender
    | .unspecified => .error ⟨.errUndefinedOwner, ""⟩

/-- The first half of a conversion by the hook: tokens are burned, or coins are minted. -/
def hookMint (k : Keeper) (s : State) (pair : TokenPair) (contract : EthAddress) (tokens : ℕ) :
    Result State :=
  match pair.contractOwner with
  | .module => do
    let (_, evm) ← callEVM k s.evm k.moduleAddress contract true (.token (.burn tokens))
    .ok { s with evm := evm }
  | .external =>
    let coins := Coins.ofCoin pair.denom tokens
    .ok { s with bank := s.bank.mintCoins k.moduleAddress.bytes coins }
  | .unspecified => .error ⟨.errUndefinedOwner, ""⟩

/-- A conversion by the hook, each half of which may fail on its own. -/
def hookConvert (k : Keeper) (s : State) (pair : TokenPair) (contract fromAddr : EthAddress)
    (tokens : ℕ) : State :=
  match hookMint k s pair contract tokens with
  | .error _ => s
  | .ok s =>
    let coins := Coins.ofCoin pair.denom tokens
    match s.bank.sendCoinsFromModuleToAccount k.bech32 k.blockedAddr k.moduleAddress.bytes
        fromAddr.bytes coins with
    -- The failure is logged, and what was burned or minted stays so.
    | .error _ => s
    | .ok bank => { s with bank := bank }

/-- The loop body of `PostTxProcessing`. -/
def processLog (k : Keeper) (s : State) (log : Log) : State :=
  match log.topics with
  | [eventID, fromTopic, toTopic] =>
    match eventByID eventID, log.data with
    | some .transfer, some tokens =>
      if tokens = 0 then s
      else
        match s.erc20Map.get? log.address with
        | none => s
        | some id =>
          match s.tokenPairs.get? id with
          | none => s
          | some pair =>
            if EthAddress.ofTopic toTopic ≠ k.moduleAddress then s
            else if !pair.enabled then s
            else hookConvert k s pair log.address (EthAddress.ofTopic fromTopic) tokens
    | _, _ => s
  | _ => s

/-- `PostTxProcessing`, which returns no error. -/
def postTxProcessing (k : Keeper) (s : State) (logs : List Log) : State :=
  if !s.params.enableErc20 || !s.params.enableEVMHook then s else logs.foldl (processLog k) s

end Evmos.Erc20
