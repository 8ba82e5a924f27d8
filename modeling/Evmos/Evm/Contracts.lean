import Evmos.Evm.Address
import Evmos.Library.Token

/-! The contracts of the EVM as the modules see them: tokens, hostile code, calls, and logs. -/

namespace Evmos

open Library

/-- The events of the ABI of `ERC20MinterBurnerDecimals`. -/
inductive Erc20Event where
  | approval
  | paused
  | roleAdminChanged
  | roleGranted
  | roleRevoked
  | transfer
  | unpaused
  deriving DecidableEq

/-- The topic of an event: the hash of its signature. -/
def Erc20Event.id : Erc20Event → ℕ
  | .approval => 0x8c5be1e5ebec7d5bd14f71427d1e84f3dd0314c0f7b2291e5b200ac8c7c3b925
  | .paused => 0x62e78cea01bee320cd4e420270b5ea74000d11b0c9f74754ebdbfc544b05a258
  | .roleAdminChanged => 0xbd79b86ffe0ab8e8776151514217cd7cacd52c909f66475c3af44e129f0b00ff
  | .roleGranted => 0x2f8788117e7eff1d82e926ec794901d17c78024a50270940304540a733656f0d
  | .roleRevoked => 0xf6391f5c32d9c69d2a47ea670b442974b53935d1edc7fd64eb21e047a839171b
  | .transfer => 0xddf252ad1be2c89b69c2b068fc378daa952ba7f163c4a11628f55a4df523b3ef
  | .unpaused => 0x5db9ee0a495bf2e6ff9c91a7834c1ba4fdd244a5e8aa4e537bd38aeae4b073aa

/-- `abi.EventByID`: the event of the ABI with the topic, if there is one. -/
def eventByID (topic : ℕ) : Option Erc20Event :=
  [.approval, .paused, .roleAdminChanged, .roleGranted, .roleRevoked, .transfer, .unpaused].find?
    fun event => event.id = topic

/-- A log of a receipt. -/
structure Log where
  -- The contract that emitted it.
  address : EthAddress
  topics : List ℕ
  -- The data as the ABI unpacks it for a `Transfer`, unless that fails.
  data : Option ℕ

/-- The log of a token's event, with the accounts as indexed arguments. -/
def Log.ofEvent (address : EthAddress) : Token.Event EthAddress → Log
  | .transfer source target amount =>
    ⟨address, [Erc20Event.transfer.id, source.bytes, target.bytes], some amount⟩
  | .approval owner spender amount =>
    ⟨address, [Erc20Event.approval.id, owner.bytes, spender.bytes], some amount⟩

/-- What a contract answers to the queries of `QueryERC20`. -/
structure ERC20Data where
  name : String
  symbol : String
  decimals : ℕ

/-- The methods that the modules or users call. -/
inductive Method where
  | name
  | symbol
  | decimals
  | balanceOf (account : EthAddress)
  | mint (target : EthAddress) (amount : ℕ)
  | burnCoins (source : EthAddress) (amount : ℕ)
  /-- What a token lets everyone do. -/
  | token (call : Token.Call EthAddress)

/-- The name of a method in the ABI. -/
def Method.abiName : Method → String
  | .name => "name"
  | .symbol => "symbol"
  | .decimals => "decimals"
  | .balanceOf _ => "balanceOf"
  | .mint _ _ => "mint"
  | .burnCoins _ _ => "burnCoins"
  | .token (.transfer _ _) => "transfer"
  | .token (.approve _ _) => "approve"
  | .token (.transferFrom _ _ _) => "transferFrom"
  | .token (.burn _) => "burn"
  | .token (.burnFrom _ _) => "burnFrom"

/-- The data a call returns. -/
inductive Ret where
  | word (value : ℕ)
  | text (value : String)
  /-- Data that no return type unpacks, such as none at all. -/
  | malformed

namespace Ret

/-- `abi.Unpack` of an unsigned integer. -/
def uint : Ret → Option ℕ
  | word value => some value
  | _ => none

/-- `abi.Unpack` of a boolean, which is the word zero or one. -/
def bool : Ret → Option Bool
  | word 0 => some false
  | word 1 => some true
  | _ => none

/-- `abi.Unpack` of a string. -/
def string : Ret → Option String
  | text value => some value
  | _ => none

end Ret

/-- What a committed call leaves in the response. -/
structure Response where
  ret : Ret
  logs : List Log

/-- The code at an address. -/
inductive Contract where
  /-- `ERC20MinterBurnerDecimals`, of which the module account alone is minter and burner. -/
  | minterBurner (data : ERC20Data) (token : Token EthAddress)
  /-- A standard token, whose issuer may mint. -/
  | standard (issuer : EthAddress) (data : ERC20Data) (token : Token EthAddress)
  /-- Any other code, with what it stores, and whether it has not been destroyed. -/
  | hostile (alive : Bool) (storage : ℕ)

/-- The state of the EVM. -/
structure Evm where
  contracts : EthAddress → Option Contract
  -- The nonce of the module account, which counts the contracts it has created.
  sequence : ℕ

/-- The largest supply a token can have is below this number. -/
def uint256 : ℕ := 2 ^ 256

namespace Contract

/-- `statedb.Account.IsContract`: there is code at the address. -/
def isContract : Contract → Bool
  | hostile alive _ => alive
  | _ => true

/--
A method of a token contract: what it returns, how the ledger changes, and the events.

The caller is a minter or a burner, or neither, and without the role these methods revert.
-/
def execToken (isMinter isBurner : Bool) (data : ERC20Data) (token : Token EthAddress)
    (caller : EthAddress) : Method → Option (Ret × Token EthAddress × List (Token.Event EthAddress))
  | .name => some (.text data.name, token, [])
  | .symbol => some (.text data.symbol, token, [])
  | .decimals => some (.word data.decimals, token, [])
  | .balanceOf account => some (.word (token.balances account), token, [])
  | .mint target amount =>
    if !isMinter then none
    else do
      let token ← token.mint uint256 target amount
      some (.malformed, token, [.transfer 0 target amount])
  | .burnCoins source amount =>
    if !isBurner then none
    else do
      let token ← token.destroy source amount
      some (.malformed, token, [.transfer source 0 amount])
  | .token call => do
    let (token, events) ← token.exec caller call
    let ret : Ret :=
      match call with
      -- The methods that burn return nothing, and the others return true.
      | .burn _ => .malformed
      | .burnFrom _ _ => .malformed
      | _ => .word 1
    some (ret, token, events)

/--
What a token contract returns and how it changes, unless it reverts.

The module account holds both roles of its contracts, and a standard token has no burner.
-/
def exec (moduleAddress caller : EthAddress) :
    Contract → Method → Option (Ret × Contract × List (Token.Event EthAddress))
  | minterBurner data token, method => do
    let owner : Bool := caller = moduleAddress
    let (ret, token, events) ← execToken owner owner data token caller method
    some (ret, minterBurner data token, events)
  | standard issuer data token, method => do
    let (ret, token, events) ← execToken (caller = issuer) false data token caller method
    some (ret, standard issuer data token, events)
  -- What hostile code does is not determined by its method.
  | hostile _ _, _ => none

end Contract

/-- One thing that happens in a transaction. -/
inductive Op where
  /-- An account calls a contract. -/
  | call (caller contract : EthAddress) (method : Method)
  /-- Hostile code runs: it changes its storage, may end or be created again, and emits logs. -/
  | run (contract : EthAddress) (alive : Bool) (storage : ℕ) (logs : List (List ℕ × Option ℕ))
  /-- A standard token is deployed. -/
  | createStandard (address issuer : EthAddress) (data : ERC20Data)
  /-- Hostile code is deployed. -/
  | createHostile (address : EthAddress) (storage : ℕ)

namespace Evm

/-- `EVMKeeper.GetAccountWithoutBalance` and `IsContract`: an account with code. -/
def isContract (evm : Evm) (address : EthAddress) : Bool :=
  (evm.contracts address).any Contract.isContract

/-- Replaces the contract at an address. -/
def setContract (evm : Evm) (address : EthAddress) (contract : Contract) : Evm :=
  { evm with contracts := Function.update evm.contracts address (some contract) }

/-- Runs one operation, by anyone but the module account, unless it reverts. -/
def apply (moduleAddress : EthAddress) (evm : Evm) : Op → Option (Evm × List Log)
  | .call caller address method =>
    -- Nobody else signs for the module account.
    if caller = moduleAddress then none
    else
      match evm.contracts address with
      | none => some (evm, [])
      | some (.hostile _ _) => some (evm, [])
      | some contract => do
        let (_, contract, events) ← contract.exec moduleAddress caller method
        some (evm.setContract address contract, events.map (Log.ofEvent address))
  | .run address alive storage logs =>
    match evm.contracts address with
    | some (.hostile _ _) =>
      some (evm.setContract address (.hostile alive storage),
        logs.map fun log => ⟨address, log.1, log.2⟩)
    | _ => none
  | .createStandard address issuer data =>
    match evm.contracts address with
    | none => some (evm.setContract address (.standard issuer data .empty), [])
    | some _ => none
  | .createHostile address storage =>
    match evm.contracts address with
    | none => some (evm.setContract address (.hostile true storage), [])
    | some _ => none

/-- Runs a transaction: its operations one after the other, and all or none of them. -/
def run (moduleAddress : EthAddress) (evm : Evm) : List Op → Option (Evm × List Log)
  | [] => some (evm, [])
  | op :: ops => do
    let (evm, logs) ← evm.apply moduleAddress op
    let (evm, rest) ← evm.run moduleAddress ops
    some (evm, logs ++ rest)

end Evm

/-- What hostile code does when a keeper calls it. -/
inductive Reply where
  | reverted (vmError : String)
  /-- It returns anything, and in between any account but that of the module may act. -/
  | returned (ret : Ret) (ops : List Op)

/-- The hostile code: the reply to a call, in the state it is made in. -/
abbrev Program := (contract : EthAddress) → Evm → (caller : EthAddress) → Method → Reply

/-- `EVMKeeper.ApplyMessage`: the response and the state of a call that does not fail. -/
def Evm.applyMessage (moduleAddress : EthAddress) (program : Program) (evm : Evm)
    (caller address : EthAddress) (method : Method) : Except String (Response × Evm) :=
  match evm.contracts address with
  -- Without code, a call succeeds and returns nothing.
  | none => .ok (⟨.malformed, []⟩, evm)
  | some (.hostile false _) => .ok (⟨.malformed, []⟩, evm)
  | some (.hostile true _) =>
    match program address evm caller method with
    | .reverted vmError => .error vmError
    | .returned ret ops =>
      match evm.run moduleAddress ops with
      | none => .error "execution reverted"
      | some (evm, logs) => .ok (⟨ret, logs⟩, evm)
  | some contract =>
    match contract.exec moduleAddress caller method with
    | none => .error "execution reverted"
    | some (ret, contract, events) =>
      .ok (⟨ret, events.map (Log.ofEvent address)⟩, evm.setContract address contract)

end Evmos
