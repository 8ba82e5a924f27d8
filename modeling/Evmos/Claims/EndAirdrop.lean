import Evmos.App.ModuleAccounts
import Evmos.Claims.Chain

/-! The end of the airdrop: the clawback of the escrow and of accounts that were never used. -/

namespace Evmos.Claims

open Library

/-- An account, as the clawback looks at it. -/
structure Account where
  isVesting : Bool
  sequence : ℕ

/-- The claims state with the accounts of the chain. -/
structure Ledger where
  state : State
  accounts : Address → Option Account

/-- `FundCommunityPool`, of coins that are not locked in the account. -/
def State.fundCommunityPoolFrom (k : Keeper) (s : State) (sender : Address) (amount : Coins) :
    Result State := do
  let balances ← sendCoins s.balances sender k.distributionAddress amount
  .ok { s with balances := balances, communityPool := s.communityPool + amount }

/-- `ClawbackEscrowedTokens`. -/
def clawbackEscrowedTokens (k : Keeper) (s : State) : Result State :=
  let balances := s.balances k.moduleAddress
  if balances.isZero then .ok s
  else wrap "failed to transfer escrowed airdrop tokens"
    (s.fundCommunityPoolFrom k k.moduleAddress balances)

/-- What `ClawbackEmptyAccounts` does for the account of one record. -/
def clawbackEmptyAccount (k : Keeper) (claimsDenom : Denom) (l : Ledger) (addr : Address) :
    Ledger :=
  match l.accounts addr with
  | none => l
  | some acc =>
    -- Some of the funds of a vesting account might be locked.
    if acc.isVesting then l
    else if acc.sequence ≠ 0 then l
    else
      let clawbackCoin := l.state.balances addr claimsDenom
      if clawbackCoin = 0 then { l with accounts := Function.update l.accounts addr none }
      else
        match l.state.fundCommunityPoolFrom k addr (Coins.ofCoin claimsDenom clawbackCoin) with
        | .error _ => l
        | .ok s => { l with state := s }

/-- `ClawbackEmptyAccounts`: the records are deleted once all accounts have been visited. -/
def clawbackEmptyAccounts (k : Keeper) (claimsDenom : Denom) (l : Ledger) : Ledger :=
  let addresses := l.state.records.entries.map Prod.fst
  let swept := addresses.foldl (clawbackEmptyAccount k claimsDenom) l
  let records := addresses.foldl Store.delete swept.state.records
  { swept with state := { swept.state with records := records } }

/-- `EndAirdrop`. -/
def endAirdrop (k : Keeper) (l : Ledger) (params : Params) : Result Ledger := do
  let s ← clawbackEscrowedTokens k l.state
  let l := clawbackEmptyAccounts k params.claimsDenom { l with state := s }
  .ok { l with state := { l.state with params := { params with enableClaims := false } } }

/-- `EndBlocker`, which panics if the airdrop cannot be ended. -/
def endBlocker (k : Keeper) (blockTime : Time) (l : Ledger) : Result Ledger :=
  let params := l.state.params
  if !params.enableClaims then .ok l
  else
    let elapsedAirdropTime := blockTime - params.airdropStartTime
    if elapsedAirdropTime ≤ params.durationUntilDecay + params.durationOfDecay then .ok l
    else
      match endAirdrop k l params with
      | .error err => .error ⟨.panic, err.text⟩
      | .ok l => .ok l

/-- The application, as far as the claims keeper is built from it. -/
structure App where
  modules : ModuleAddresses
  bech32 : Bech32
  evmosAddress : String → Option Address
  isInteger : String → Bool

/-- The claims keeper of the application, with the blocked addresses of the bank. -/
def App.keeper (app : App) : Keeper where
  moduleAddress := app.modules.address .claims
  distributionAddress := app.modules.address .distribution
  blockedAddr := app.modules.blockedAddr
  bech32 := app.bech32
  evmosAddress := app.evmosAddress
  isInteger := app.isInteger
  moduleBlocked := app.modules.blockedAddr_address .claims
  moduleDistinct same := ModuleAccount.noConfusion (app.modules.injective same)

/-- What happens to the claims state before the airdrop ends. -/
inductive Happening where
  | event (blockTime : Time) (call : Event)
  /-- Governance changes the parameters, and other modules move coins. -/
  | others (params : Params) (balances : Balances) (communityPool : Coins)

/-- The state after something has happened. -/
def Happening.perform (k : Keeper) (s : State) : Happening → State
  | .event blockTime call => call.deliver k blockTime s
  | .others params balances communityPool =>
    { s with params := params, balances := balances, communityPool := communityPool }

/-- One thing happens after the other. -/
def Happens (k : Keeper) (before : State) (happening : Happening) (after : State) : Prop :=
  after = happening.perform k before

end Evmos.Claims
