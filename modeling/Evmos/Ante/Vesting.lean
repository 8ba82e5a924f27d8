import Evmos.Ante.Messages
import Evmos.Vesting.MsgServer

/-! The two vesting decorators: Ethereum transactions and delegations of clawback accounts. -/

namespace Evmos.Ante

open Vesting

namespace EthVesting

/-- The checks `AnteHandle` makes on a clawback account that sends an Ethereum transaction. -/
def checkAccount (va : ClawbackVestingAccount) (blockTime : Time) : Result Unit := do
  -- Error if the vesting cliff has not passed, which leaves no vested coins.
  let vested := va.getVestedCoins blockTime
  if vested.isZero then
    .error ⟨.errInsufficientVestedCoins, "cannot perform Ethereum tx with clawback vesting " ++
      "account, that has no vested coins: " ++ vested.toString⟩
  else
    -- Error if the account has locked coins.
    let islocked ← orPanic "negative coin amount" (va.hasLockedCoins blockTime)
    if islocked then
      .error ⟨.errVestingLockup, "cannot perform Ethereum tx with clawback vesting account, " ++
        "that has locked coins: " ++ vested.toString⟩
    else .ok ()

/--
`EthVestingTransactionDecorator.AnteHandle`, which succeeds where the source calls the next
decorator.
-/
def anteHandle (accounts : Address → Option Account) (blockTime : Time) : List Msg → Result Unit
  | [] => .ok ()
  | .ethereumTx sender :: rest =>
    match accounts sender with
    | none => .error ⟨.errUnknownAddress, "account %!s(<nil>) does not exist"⟩
    -- The loop is left here: the source returns the next decorator's result.
    | some (.other _) => .ok ()
    | some (.clawback va) => do
      checkAccount va blockTime
      anteHandle accounts blockTime rest
  | msg :: _ =>
    .error ⟨.errUnknownRequest, "invalid message type " ++ msg.typeName ++
      ", expected *types.MsgEthereumTx"⟩

end EthVesting

namespace VestingDelegation

/-- The check of one delegation against the vested coins of its signer. -/
def checkDelegation (bech32 : Bech32) (accounts : Address → Option Account) (bondDenom : Denom)
    (blockTime : Time) (signer : Address) (amount : ℕ) : Result Unit :=
  match accounts signer with
  | none =>
    .error ⟨.errUnknownAddress, "account " ++ bech32.encode signer ++ " does not exist"⟩
  -- The logic only applies to clawback vesting accounts.
  | some (.other _) => .ok ()
  | some (.clawback va) =>
    let coins := va.getVestedOnly blockTime
    if coins.isZero then
      .error ⟨.errInsufficientVestedCoins, "account has no vested coins"⟩
    else
      let vested := coins.amountOf bondDenom
      if vested < amount then
        .error ⟨.errInsufficientVestedCoins, "cannot delegate unvested coins. " ++
          "coins vested < delegation amount (" ++ toString vested ++ " < " ++
          toString amount ++ ")"⟩
      else .ok ()

/-- `validateMsg`: checks that only vested coins are delegated. -/
def validateMsg (bech32 : Bech32) (accounts : Address → Option Account) (bondDenom : Denom)
    (blockTime : Time) : Msg → Result Unit
  | .delegate delegator _ amount =>
    checkDelegation bech32 accounts bondDenom blockTime delegator amount
  | _ => .ok ()

/-- `validateAuthz`: checks the messages an authorization carries. -/
def validateAuthz (bech32 : Bech32) (accounts : Address → Option Account) (bondDenom : Denom)
    (blockTime : Time) (msgs : List Msg) : Result Unit :=
  Ante.validateAuthz (validateMsg bech32 accounts bondDenom blockTime) msgs

/--
`VestingDelegationDecorator.AnteHandle`, which succeeds where the source calls the next
decorator.
-/
def anteHandle (bech32 : Bech32) (accounts : Address → Option Account) (bondDenom : Denom)
    (blockTime : Time) (msgs : List Msg) : Result Unit :=
  validateTx (validateMsg bech32 accounts bondDenom blockTime) msgs

end VestingDelegation

end Evmos.Ante
