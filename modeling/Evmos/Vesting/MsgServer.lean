import Evmos.Sdk.Bank
import Evmos.Vesting.Account

/-! The vesting message server: grants, merged grants, and clawback, over accounts and balances. -/

namespace Evmos.Vesting

open Library

/-- An account of the auth store. -/
inductive Account where
  /-- A clawback vesting account. -/
  | clawback (va : ClawbackVestingAccount)
  /-- Any other account type, with the coins it keeps from being spent. -/
  | other (lockedCoins : Time → Coins)

/-- An account that locks nothing, as the bank creates it for a new recipient. -/
def baseAccount : Account := .other fun _ => 0

/-- The accounts and the balances the vesting module works on. -/
structure State where
  /-- The auth store. -/
  accounts : Address → Option Account
  /-- The bank store. -/
  balances : Balances

/-- What a message reads of the block it runs in and of the other modules. -/
structure Context where
  /-- The block time. -/
  blockTime : Time
  /-- `BankKeeper.BlockedAddr`. -/
  blockedAddr : Address → Bool
  /-- `StakingKeeper.BondDenom`. -/
  bondDenom : Denom
  /-- `StakingKeeper.GetDelegatorBonded`. -/
  delegatorBonded : Address → ℕ
  /-- `StakingKeeper.GetDelegatorUnbonding`. -/
  delegatorUnbonding : Address → ℕ

/-- `MsgCreateClawbackVestingAccount`. -/
structure MsgCreateClawbackVestingAccount where
  /-- The funder. -/
  fromAddress : String
  /-- The grantee. -/
  toAddress : String
  /-- The start of both schedules. -/
  startTime : Time
  /-- The unlocking schedule. -/
  lockupPeriods : Periods
  /-- The vesting schedule. -/
  vestingPeriods : Periods
  /-- Whether the grant may be merged into an existing account. -/
  merge : Bool

/-- `MsgClawback`. -/
structure MsgClawback where
  /-- The funder of the account. -/
  funderAddress : String
  /-- The account to claw back from. -/
  accountAddress : String
  /-- The destination, the funder when empty. -/
  destAddress : String

/-- The check of one schedule in `ValidateBasic`: every period must take at least one second. -/
def validatePeriods : ℕ → Periods → Result Unit
  | _, [] => .ok ()
  | i, period :: rest =>
    if period.length < 1 then
      .error ⟨.errInvalidRequest, "invalid period length of " ++ toString period.length ++
        " in period " ++ toString i ++ ", length must be greater than 0"⟩
    else validatePeriods (i + 1) rest

/-- The address checks of the two `ValidateBasic` methods. -/
def validateAddress (bech32 : Bech32) (address text : String) : Result Unit :=
  if (bech32.decode address).isNone then .error ⟨.errInvalidAddress, text⟩ else .ok ()

/-- `MsgCreateClawbackVestingAccount.ValidateBasic`. -/
def MsgCreateClawbackVestingAccount.validateBasic (bech32 : Bech32)
    (msg : MsgCreateClawbackVestingAccount) : Result Unit := do
  validateAddress bech32 msg.fromAddress "invalid from address"
  validateAddress bech32 msg.toAddress "invalid to address"
  validatePeriods 0 msg.lockupPeriods
  validatePeriods 0 msg.vestingPeriods
  let lockupCoins := totalAmount msg.lockupPeriods
  let vestingCoins := totalAmount msg.vestingPeriods
  -- If both schedules are present, they must describe the same total amount.
  if !msg.lockupPeriods.isEmpty && !msg.vestingPeriods.isEmpty &&
      !(lockupCoins.isAllLTE vestingCoins && vestingCoins.isAllLTE lockupCoins) then
    .error ⟨.errInvalidRequest, "vesting and lockup schedules must have same total coins"⟩
  else .ok ()

/-- `MsgClawback.ValidateBasic`. -/
def MsgClawback.validateBasic (bech32 : Bech32) (msg : MsgClawback) : Result Unit := do
  validateAddress bech32 msg.funderAddress "invalid funder address"
  validateAddress bech32 msg.accountAddress "invalid account address"
  if msg.destAddress != "" then
    validateAddress bech32 msg.destAddress "invalid dest address"

/-- Replaces the account at one address. -/
def State.setAccount (s : State) (address : Address) (account : Account) : State :=
  { s with accounts := Function.update s.accounts address (some account) }

/-- The locked coins the bank asks the account for, none for an account that does not exist. -/
def State.lockedCoins (s : State) (address : Address) (blockTime : Time) : Option Coins :=
  match s.accounts address with
  | some (.clawback va) => va.lockedCoins blockTime
  | some (.other locked) => some (locked blockTime)
  | none => some 0

/-- Whether the spendable part of a balance covers the amount in each denomination it names. -/
def covers (balance locked amt : Coins) : Bool :=
  ∀ denom ∈ amt.support, locked denom + amt denom ≤ balance denom

/-- Creates an account that locks nothing at an address that has none. -/
def State.ensureAccount (s : State) (address : Address) : State :=
  match s.accounts address with
  | some _ => s
  | none => s.setAccount address baseAccount

/-- `BankKeeper.SendCoins`: fails when spendable coins are short, and creates a new recipient. -/
def State.sendCoins (s : State) (blockTime : Time) (fromAddr toAddr : Address) (amt : Coins) :
    Result State := do
  let locked ← orPanic "negative coin amount" (s.lockedCoins fromAddr blockTime)
  if covers (s.balances fromAddr) locked amt then
    .ok ({ s with balances := moveCoins s.balances fromAddr toAddr amt }.ensureAccount toAddr)
  else .error (insufficientFunds (s.balances fromAddr - locked) amt)

/-- `addGrant`: merges a grant into an existing clawback vesting account. -/
def addGrant (ctx : Context) (va : ClawbackVestingAccount) (grantStartTime : ℤ)
    (grantLockupPeriods grantVestingPeriods : Periods) (grantCoins : Coins) :
    Result ClawbackVestingAccount := do
  -- How much is really delegated?
  let delegatedAmt := ctx.delegatorBonded va.address + ctx.delegatorUnbonding va.address
  let delegated := Coins.ofCoin ctx.bondDenom delegatedAmt
  -- Modify schedules for the new grant.
  let (newLockupStart, newLockupEnd, newLockupPeriods) :=
    disjunctPeriods va.getStartTime grantStartTime va.lockupPeriods grantLockupPeriods
  let (newVestingStart, newVestingEnd, newVestingPeriods) :=
    disjunctPeriods va.getStartTime grantStartTime va.vestingPeriods grantVestingPeriods
  if newLockupStart ≠ newVestingStart then
    .error ⟨.errVestingLockup, "vesting start time calculation should match lockup start (" ++
      toString newVestingStart ++ " ≠ " ++ toString newLockupStart ++ ")"⟩
  else
    let merged := { va with
      startTime := ofUnix newLockupStart
      endTime := max newLockupEnd newVestingEnd
      lockupPeriods := newLockupPeriods
      vestingPeriods := newVestingPeriods
      originalVesting := va.originalVesting + grantCoins }
    -- Cap DV at the current unvested amount, DF rounds out to current delegated.
    let unvested ← orPanic "negative coin amount" (merged.getVestingCoins ctx.blockTime)
    let delegatedVesting := delegated.min unvested
    .ok { merged with
      delegatedVesting := delegatedVesting
      delegatedFree := delegated - delegatedVesting }

/-- A message whose absent schedule has been replaced by an instant one. -/
def MsgCreateClawbackVestingAccount.withDefaults (msg : MsgCreateClawbackVestingAccount) :
    MsgCreateClawbackVestingAccount :=
  let vestingCoins := totalAmount msg.vestingPeriods
  -- If lockup is absent, default to an instant unlock schedule.
  let lockupPeriods :=
    if !vestingCoins.isZero && msg.lockupPeriods.isEmpty then [⟨0, vestingCoins⟩]
    else msg.lockupPeriods
  let lockupCoins := totalAmount lockupPeriods
  -- If vesting is absent, default to an instant vesting schedule.
  let vestingPeriods :=
    if !lockupCoins.isZero && msg.vestingPeriods.isEmpty then [⟨0, lockupCoins⟩]
    else msg.vestingPeriods
  { msg with lockupPeriods := lockupPeriods, vestingPeriods := vestingPeriods }

/-- The account part of `CreateClawbackVestingAccount`: the new or the merged account. -/
def grantAccount (bech32 : Bech32) (ctx : Context) (s : State) (fromAddr toAddr : Address)
    (msg : MsgCreateClawbackVestingAccount) (vestingCoins : Coins) :
    Result ClawbackVestingAccount :=
  match s.accounts toAddr with
  | some (.clawback va) =>
    if !msg.merge then
      .error ⟨.errInvalidRequest,
        "account " ++ msg.toAddress ++ " already exists; consider using --merge"⟩
    else if msg.fromAddress != va.funderAddress then
      .error ⟨.errInvalidRequest, "account " ++ msg.toAddress ++
        " can only accept grants from account " ++ va.funderAddress⟩
    else
      addGrant ctx va (unix msg.startTime) msg.lockupPeriods msg.vestingPeriods vestingCoins
  | some (.other _) =>
    if !msg.merge then
      .error ⟨.errInvalidRequest, "account " ++ msg.toAddress ++ " already exists"⟩
    else
      .error ⟨.errNotSupported,
        "account " ++ msg.toAddress ++ " must be a clawback vesting account"⟩
  | none =>
    .ok (newClawbackVestingAccount toAddr (bech32.encode fromAddr) vestingCoins msg.startTime
      msg.lockupPeriods msg.vestingPeriods)

/-- `CreateClawbackVestingAccount`: creates an account, or merges a grant into an existing one. -/
def createClawbackVestingAccount (bech32 : Bech32) (ctx : Context) (s : State)
    (msg : MsgCreateClawbackVestingAccount) : Result State := do
  let fromAddr ← orPanic "invalid from address" (bech32.decode msg.fromAddress)
  let toAddr ← orPanic "invalid to address" (bech32.decode msg.toAddress)
  if ctx.blockedAddr toAddr then
    .error ⟨.errUnauthorized, msg.toAddress ++ " is not allowed to receive funds"⟩
  else
    let msg := msg.withDefaults
    let vestingCoins := totalAmount msg.vestingPeriods
    let lockupCoins := totalAmount msg.lockupPeriods
    -- The vesting and lockup schedules must describe the same total amount.
    if !(vestingCoins.isAllLTE lockupCoins && lockupCoins.isAllLTE vestingCoins) then
      .error ⟨.errInvalidRequest, "lockup and vesting amounts must be equal"⟩
    else
      let va ← grantAccount bech32 ctx s fromAddr toAddr msg vestingCoins
      -- Send coins from the funder to the vesting account.
      (s.setAccount va.address (.clawback va)).sendCoins ctx.blockTime fromAddr toAddr
        vestingCoins

/-- `transferClawback`: takes the unvested coins and the future vesting events away. -/
def transferClawback (ctx : Context) (s : State) (va : ClawbackVestingAccount)
    (dest : Address) : Result State := do
  let (updatedAcc, toClawBack) ←
    orPanic "negative coin amount" (va.computeClawback (unix ctx.blockTime))
  -- With nothing to transfer, the account is left as it is.
  if toClawBack.isZero then .ok s
  else
    (s.setAccount updatedAcc.address (.clawback updatedAcc)).sendCoins ctx.blockTime
      updatedAcc.address dest toClawBack

/-- `Clawback`: removes the unvested amount from a clawback vesting account. -/
def clawback (bech32 : Bech32) (ctx : Context) (s : State) (msg : MsgClawback) :
    Result State := do
  -- The destination defaults to the funder. Both were decoded during validation.
  let dest ← orPanic "invalid dest address"
    (bech32.decode (if msg.destAddress = "" then msg.funderAddress else msg.destAddress))
  let addr ← orPanic "invalid account address" (bech32.decode msg.accountAddress)
  if ctx.blockedAddr dest then
    .error ⟨.errUnauthorized, msg.destAddress ++ " is not allowed to receive funds"⟩
  else
    match s.accounts addr with
    | none => .error ⟨.errNotFound, "account " ++ msg.accountAddress ++ " does not exist"⟩
    | some (.other _) =>
      .error ⟨.errInvalidRequest, "account not subject to clawback: " ++ msg.accountAddress⟩
    | some (.clawback va) =>
      if va.funderAddress ≠ msg.funderAddress then
        .error ⟨.errInvalidRequest,
          "clawback can only be requested by original funder " ++ va.funderAddress⟩
      else if ctx.blockTime < va.startTime then
        .error ⟨.errInvalidRequest,
          "clawback can only be executed after vesting begins: " ++ va.funderAddress⟩
      else transferClawback ctx s va dest

end Evmos.Vesting
