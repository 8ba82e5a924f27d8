import Evmos.Feesplit.Keeper
import Evmos.Library.Run

/-! The fee split module over time: messages, transactions, and what others change. -/

namespace Evmos.Feesplit

open Library

/-- What calls into the fee split module, or changes what it reads. -/
inductive Call where
  /-- A registration, with the accounts of the EVM at that time. -/
  | register (account : EthAddress → Option EvmAccount) (msg : MsgRegisterFeeSplit)
  | update (msg : MsgUpdateFeeSplit)
  | cancel (msg : MsgCancelFeeSplit)
  /-- A transaction was executed, with the denomination that fees are paid in. -/
  | postTx (evmDenom : Denom) (tx : Transaction)
  /-- Governance changes the parameters, and other modules move coins. -/
  | others (params : Params) (bank : Bank)

/-- What a successful call does. One that fails is rolled back, so it is no step. -/
inductive Step (k : Keeper) (s : State) : Call → State → Prop where
  | register {account : EthAddress → Option EvmAccount} {msg : MsgRegisterFeeSplit} {after : State}
      (valid : msg.validateBasic k.bech32 = .ok ())
      (registered : registerFeeSplit k account s msg = .ok after) :
      Step k s (.register account msg) after
  | update {msg : MsgUpdateFeeSplit} {after : State}
      (valid : msg.validateBasic k.bech32 = .ok ())
      (updated : updateFeeSplit k s msg = .ok after) :
      Step k s (.update msg) after
  | cancel {msg : MsgCancelFeeSplit} {after : State}
      (valid : msg.validateBasic k.bech32 = .ok ())
      (cancelled : cancelFeeSplit k s msg = .ok after) :
      Step k s (.cancel msg) after
  | postTx {evmDenom : Denom} {tx : Transaction} {after : State}
      (processed : postTxProcessing k evmDenom s tx = .ok after) :
      Step k s (.postTx evmDenom tx) after
  | others {params : Params} {bank : Bank} :
      Step k s (.others params bank) { s with params := params, bank := bank }

/-- The state of an empty fee split store. -/
def State.empty (params : Params) (bank : Bank) : State := ⟨params, .empty, .empty, .empty, bank, []⟩

/-- `GetSigners`: the address that signs a message, none for what is not a message. -/
def Call.signer (k : Keeper) : Call → Option Address
  | .register _ msg => k.bech32.decode msg.deployerAddress
  | .update msg => k.bech32.decode msg.deployerAddress
  | .cancel msg => k.bech32.decode msg.deployerAddress
  | .postTx _ _ => none
  | .others _ _ => none

/-- Who a call tells the fees of a contract to go to, if its signer is the given one. -/
def Call.directive (k : Keeper) (contract : EthAddress) (signer : Address) : Call → Option Address
  | .register _ msg => directed msg.contractAddress msg.deployerAddress msg.withdrawerAddress
  | .update msg => directed msg.contractAddress msg.deployerAddress msg.withdrawerAddress
  | _ => none
where
  -- The withdrawer that is named, or the signer.
  directed (contractAddress deployerAddress withdrawerAddress : String) : Option Address :=
    if hexToAddress contractAddress = contract ∧ k.bech32.decode deployerAddress = some signer then
      some ((k.bech32.decode withdrawerAddress).getD signer)
    else none

/-- What the last of the calls that direct the fees of a contract says. -/
def lastDirective (k : Keeper) (contract : EthAddress) (signer : Address) (calls : List Call) :
    Option Address :=
  (calls.filterMap (Call.directive k contract signer)).getLast?

/-- Who receives the fees of a contract, if it is registered. -/
def State.payee (k : Keeper) (s : State) (contract : EthAddress) : Option Address :=
  (s.getFeeSplit contract).bind fun feeSplit =>
    (k.bech32.decode feeSplit.withdrawerAddress).or (k.bech32.decode feeSplit.deployerAddress)

end Evmos.Feesplit
