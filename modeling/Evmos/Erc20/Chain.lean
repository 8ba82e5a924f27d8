import Evmos.Erc20.Keeper
import Evmos.Library.Run

/-! The erc20 module over time: proposals, conversions, EVM transactions, and what others change. -/

namespace Evmos.Erc20

/-- What calls into the erc20 module, or changes what it reads. -/
inductive Action where
  | registerCoin (coinMetadata : Metadata)
  | registerERC20 (contract : EthAddress)
  | toggleConversion (token : String)
  | convertCoin (msg : MsgConvertCoin)
  | convertERC20 (msg : MsgConvertERC20)
  /-- A transaction of users, such as transfers or burns of tokens, and its hook. -/
  | transaction (ops : List Op)
  /-- Governance changes the parameters, and other modules move coins. -/
  | others (params : Params) (bank : Bank)

/-- An action in a block. -/
structure Call where
  ctx : Context
  action : Action

/--
What a successful call does.

A call that returns an error is rolled back, so it is no step.
The module account has no key, so it signs no message.
-/
inductive Step (k : Keeper) (s : State) : Call → State → Prop where
  | registerCoin {ctx : Context} {coinMetadata : Metadata} {pair : TokenPair} {after : State}
      (registered : registerCoin k s coinMetadata = .ok (pair, after)) :
      Step k s ⟨ctx, .registerCoin coinMetadata⟩ after
  | registerERC20 {ctx : Context} {contract : EthAddress} {pair : TokenPair} {after : State}
      (registered : registerERC20 k s contract = .ok (pair, after)) :
      Step k s ⟨ctx, .registerERC20 contract⟩ after
  | toggleConversion {ctx : Context} {token : String} {pair : TokenPair} {after : State}
      (toggled : toggleConversion k s token = .ok (pair, after)) :
      Step k s ⟨ctx, .toggleConversion token⟩ after
  | convertCoin {ctx : Context} {msg : MsgConvertCoin} {after : State}
      (valid : msg.validateBasic k.bech32 = .ok ())
      (signed : k.bech32.decode msg.sender ≠ some k.moduleAddress.bytes)
      (converted : convertCoin k ctx s msg = .ok after) :
      Step k s ⟨ctx, .convertCoin msg⟩ after
  | convertERC20 {ctx : Context} {msg : MsgConvertERC20} {after : State}
      (valid : msg.validateBasic k.bech32 = .ok ())
      (signed : hexToAddress msg.sender ≠ k.moduleAddress)
      (converted : convertERC20 k ctx s msg = .ok after) :
      Step k s ⟨ctx, .convertERC20 msg⟩ after
  | transaction {ctx : Context} {ops : List Op} {evm : Evm} {logs : List Log}
      (ran : s.evm.run k.moduleAddress ops = some (evm, logs)) :
      Step k s ⟨ctx, .transaction ops⟩ (postTxProcessing k { s with evm := evm } logs)
  -- Others take no coins from the module account, and do not mint the module's coins.
  | others {ctx : Context} {params : Params} {bank : Bank}
      (escrow : s.bank.balances k.moduleAddress.bytes ≤ bank.balances k.moduleAddress.bytes)
      (supply : ∀ address, bank.supply (createDenom (k.format.spell address)) ≤
        s.bank.supply (createDenom (k.format.spell address))) :
      Step k s ⟨ctx, .others params bank⟩ { s with params := params, bank := bank }

/-- The total supply of a token contract. -/
def totalSupply (evm : Evm) (contract : EthAddress) : ℕ :=
  match evm.contracts contract with
  | some (.minterBurner _ token) => token.totalSupply
  | some (.standard _ _ token) => token.totalSupply
  | _ => 0

/-- The supplies of all contracts paired with a denomination. -/
def State.pairedSupply (s : State) (denom : Denom) : ℕ :=
  s.tokenPairs.total fun _ pair =>
    if pair.denom = denom then totalSupply s.evm pair.getERC20Contract else 0

/-- A state before the first registration. -/
structure Start (k : Keeper) (s : State) : Prop where
  tokenPairs : s.tokenPairs = .empty
  erc20Map : s.erc20Map = .empty
  denomMap : s.denomMap = .empty
  -- There are no coins of contracts that are still to be registered.
  unminted : ∀ address, s.bank.supply (createDenom (k.format.spell address)) = 0
  -- The module account has approved nobody.
  unapproved : ∀ address issuer data token,
    s.evm.contracts address = some (.standard issuer data token) →
      token.Unapproved k.moduleAddress

end Evmos.Erc20
