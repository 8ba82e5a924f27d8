import Evmos.Ante.Vesting
import Evmos.Library.Run

/-! The chain as vesting accounts see it: blocks, grants, clawbacks, delegations, and sends. -/

namespace Evmos.Vesting

open Library Ante

/-- `BankKeeper.DelegateCoins`: debits the delegator, and lets a vesting account record it. -/
def State.delegateCoins (s : State) (blockTime : Time) (delegator : Address) (amount : Coins) :
    Result State :=
  -- Locked coins may be delegated, so the whole balance counts.
  if amount.isAllLTE (s.balances delegator) then
    let debited :=
      { s with
        balances := Function.update s.balances delegator (s.balances delegator - amount) }
    match s.accounts delegator with
    | some (.clawback va) => do
      let tracked ← orPanic "negative coin amount" (va.trackDelegation blockTime amount)
      .ok (debited.setAccount tracked.address (.clawback tracked))
    | _ => .ok debited
  else .error ⟨.errInsufficientFunds, "failed to delegate"⟩

/-- The state between two transactions, with the time of the current block. -/
structure Chain where
  /-- Accounts and balances. -/
  state : State
  /-- The time of the current block. -/
  blockTime : Time

/-- What can happen to the chain. -/
inductive Action where
  /-- A block begins. -/
  | beginBlock (blockTime : Time)
  /-- A grant. -/
  | create (ctx : Context) (msg : MsgCreateClawbackVestingAccount)
  /-- A clawback. -/
  | clawback (ctx : Context) (msg : MsgClawback)
  /-- A transaction that delegates an amount of the bond denomination. -/
  | delegate (bondDenom : Denom) (delegator : Address) (amount : ℕ)
  /-- A transfer of spendable coins. -/
  | send (fromAddr toAddr : Address) (amt : Coins)

/-- A block that begins no earlier than the last one, or a transaction that succeeds in its block. -/
inductive Step (bech32 : Bech32) : Chain → Action → Chain → Prop where
  /-- Time never runs backwards. -/
  | beginBlock {chain : Chain} {blockTime : Time} (order : chain.blockTime ≤ blockTime) :
      Step bech32 chain (.beginBlock blockTime) { chain with blockTime := blockTime }
  /-- A grant that passes `ValidateBasic` is delivered. -/
  | create {chain : Chain} {ctx : Context} {msg : MsgCreateClawbackVestingAccount} {s : State}
      (now : ctx.blockTime = chain.blockTime) (accepted : msg.validateBasic bech32 = .ok ())
      (delivered : createClawbackVestingAccount bech32 ctx chain.state msg = .ok s) :
      Step bech32 chain (.create ctx msg) { chain with state := s }
  /-- A clawback that passes `ValidateBasic` is delivered. -/
  | clawback {chain : Chain} {ctx : Context} {msg : MsgClawback} {s : State}
      (now : ctx.blockTime = chain.blockTime) (accepted : msg.validateBasic bech32 = .ok ())
      (delivered : Vesting.clawback bech32 ctx chain.state msg = .ok s) :
      Step bech32 chain (.clawback ctx msg) { chain with state := s }
  /-- A delegation that the decorator lets through is executed. -/
  | delegate {chain : Chain} {bondDenom : Denom} {delegator : Address} {amount : ℕ} {s : State}
      (accepted : VestingDelegation.anteHandle bech32 chain.state.accounts bondDenom
        chain.blockTime [.delegate delegator bondDenom amount] = .ok ())
      (delivered : chain.state.delegateCoins chain.blockTime delegator
        (Coins.ofCoin bondDenom amount) = .ok s) :
      Step bech32 chain (.delegate bondDenom delegator amount) { chain with state := s }
  /-- A transfer that spendable coins cover is executed. -/
  | send {chain : Chain} {fromAddr toAddr : Address} {amt : Coins} {s : State}
      (delivered : chain.state.sendCoins chain.blockTime fromAddr toAddr amt = .ok s) :
      Step bech32 chain (.send fromAddr toAddr amt) { chain with state := s }

end Evmos.Vesting
