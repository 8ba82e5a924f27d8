import Evmos.Vesting.MsgServer

/-!
Grants as they are decoded: period lengths of any `int64`, and amounts of either sign.

Only a new account is followed here. Times are the Unix seconds that the schedule code reads, in
arithmetic that wraps around.
-/

namespace Evmos.Vesting.Decoded

/--
A decoded `sdk.Coins` value, sorted by denomination.

Nothing has checked the signs. Zero amounts are left out, as every sum of coins leaves them out.
-/
abbrev SignedCoins := Π₀ _ : Denom, ℤ

namespace SignedCoins

/-- `Coins.IsZero`. -/
def isZero (coins : SignedCoins) : Bool := coins = 0

/-- `Coins.IsAnyNegative`. -/
def isAnyNegative (coins : SignedCoins) : Bool := ∃ denom ∈ coins.support, coins denom < 0

/-- `Coins.IsValid`: every amount that is present is positive. -/
def isValid (coins : SignedCoins) : Bool := !coins.isAnyNegative

/-- `Coins.IsAllLTE`, which looks only at the denominations on the left. -/
def isAllLTE (coins other : SignedCoins) : Bool :=
  if coins.isZero then true
  else if other.isZero then false
  else ∀ denom ∈ coins.support, coins denom ≤ other denom

/-- The smaller amount of each denomination that is present on both sides. -/
def least (coins other : SignedCoins) : SignedCoins :=
  DFinsupp.zipWith
    (fun _ amount another => if amount = 0 ∨ another = 0 then 0 else Min.min amount another)
    (fun _ => by simp) coins other

/-- `Coins.Min`, whose result goes through `NewCoins`, which panics on a negative amount. -/
def min (coins other : SignedCoins) : Option SignedCoins :=
  if (coins.least other).isValid then some (coins.least other) else none

/-- `Coins.Sub`, which panics when an amount of the result is negative. -/
def sub (coins other : SignedCoins) : Option SignedCoins :=
  let diff := coins - other
  if diff.isAnyNegative then none else some diff

/-- Valid coins, without the negative amounts that they do not have. -/
def toCoins (coins : SignedCoins) : Coins :=
  DFinsupp.mapRange (fun _ => Int.toNat) (fun _ => rfl) coins

end SignedCoins

/-- `sdkvesting.Period`. -/
structure Period where
  length : Int64
  amount : SignedCoins

/-- `sdkvesting.Periods`. -/
abbrev Periods := List Period

/-- `Periods.TotalLength`. -/
def totalLength (periods : Periods) : Int64 :=
  periods.foldl (fun total period => total + period.length) 0

/-- `Periods.TotalAmount`. -/
def totalAmount (periods : Periods) : SignedCoins :=
  (periods.map Period.amount).sum

/-- `Min64`. -/
def min64 (i j : Int64) : Int64 := if i < j then i else j

/-- `Max64`. -/
def max64 (i j : Int64) : Int64 := if i > j then i else j

/-- The loop of `ReadSchedule`. -/
def readPeriods (readTime : Int64) : SignedCoins → Int64 → Periods → SignedCoins
  | coins, _, [] => coins
  | coins, elapsedTime, period :: rest =>
    -- An end that has wrapped around lies in the past, and its period counts.
    if readTime < elapsedTime + period.length then coins
    else readPeriods readTime (coins + period.amount) (elapsedTime + period.length) rest

/-- `ReadSchedule`: the value of a schedule at the read time. -/
def readSchedule (startTime endTime : Int64) (periods : Periods) (totalCoins : SignedCoins)
    (readTime : Int64) : SignedCoins :=
  if readTime ≤ startTime then 0
  else if readTime ≥ endTime then totalCoins
  else readPeriods readTime 0 startTime periods

/-- Extends the first period, if there is one. -/
def extendFirst (extension : Int64) : Periods → Periods
  | [] => []
  | period :: rest => { period with length := period.length + extension } :: rest

/-- `AlignSchedules`, with the two slices that it changes in place after the start and end. -/
def alignSchedules (startTimePeriodA startTimePeriodB : Int64) (periodsA periodsB : Periods) :
    Int64 × Int64 × Periods × Periods :=
  let startTime := min64 startTimePeriodA startTimePeriodB
  let alignedA := extendFirst (startTimePeriodA - startTime) periodsA
  let alignedB := extendFirst (startTimePeriodB - startTime) periodsB
  let endPeriodsA := startTime + totalLength alignedA
  let endPeriodsB := startTime + totalLength alignedB
  (startTime, max64 endPeriodsA endPeriodsB, alignedA, alignedB)

/-- The fields of a new `ClawbackVestingAccount` that its schedules are read from. -/
structure ClawbackVestingAccount where
  originalVesting : SignedCoins
  endTime : Int64
  startTime : Int64
  lockupPeriods : Periods
  vestingPeriods : Periods

/-- `NewClawbackVestingAccount`. -/
def newClawbackVestingAccount (originalVesting : SignedCoins) (startTime : Int64)
    (lockupPeriods vestingPeriods : Periods) : ClawbackVestingAccount :=
  let aligned := alignSchedules startTime startTime lockupPeriods vestingPeriods
  { originalVesting := originalVesting
    endTime := aligned.2.1
    startTime := startTime
    lockupPeriods := aligned.2.2.1
    vestingPeriods := aligned.2.2.2 }

namespace ClawbackVestingAccount

/-- `GetUnlockedOnly`: the unlocking schedule at the block time. -/
def getUnlockedOnly (va : ClawbackVestingAccount) (blockTime : Int64) : SignedCoins :=
  readSchedule va.startTime va.endTime va.lockupPeriods va.originalVesting blockTime

/-- `GetVestedOnly`: the vesting schedule at the block time. -/
def getVestedOnly (va : ClawbackVestingAccount) (blockTime : Int64) : SignedCoins :=
  readSchedule va.startTime va.endTime va.vestingPeriods va.originalVesting blockTime

/-- `GetVestedCoins`: the coins that are both unlocked and vested. -/
def getVestedCoins (va : ClawbackVestingAccount) (blockTime : Int64) : Option SignedCoins :=
  (va.getUnlockedOnly blockTime).min (va.getVestedOnly blockTime)

/-- `GetVestingCoins`: the coins that are still locked or still vesting. -/
def getVestingCoins (va : ClawbackVestingAccount) (blockTime : Int64) : Option SignedCoins :=
  (va.getVestedCoins blockTime).bind va.originalVesting.sub

end ClawbackVestingAccount

/-- `MsgCreateClawbackVestingAccount`, whose `Merge` matters to an existing account only. -/
structure MsgCreateClawbackVestingAccount where
  fromAddress : String
  toAddress : String
  -- The Unix second of the start, the only part of it that a schedule reads.
  startTime : Int64
  lockupPeriods : Periods
  vestingPeriods : Periods

/-- The check of one schedule in `ValidateBasic`. -/
def validatePeriods : ℕ → Periods → Result Unit
  | _, [] => .ok ()
  | i, period :: rest =>
    if period.length < 1 then
      .error ⟨.errInvalidRequest, "invalid period length of " ++ toString period.length ++
        " in period " ++ toString i ++ ", length must be greater than 0"⟩
    else validatePeriods (i + 1) rest

namespace MsgCreateClawbackVestingAccount

/-- `MsgCreateClawbackVestingAccount.ValidateBasic`. -/
def validateBasic (bech32 : Bech32) (msg : MsgCreateClawbackVestingAccount) : Result Unit := do
  validateAddress bech32 msg.fromAddress "invalid from address"
  validateAddress bech32 msg.toAddress "invalid to address"
  validatePeriods 0 msg.lockupPeriods
  validatePeriods 0 msg.vestingPeriods
  let lockupCoins := totalAmount msg.lockupPeriods
  let vestingCoins := totalAmount msg.vestingPeriods
  if !msg.lockupPeriods.isEmpty && !msg.vestingPeriods.isEmpty &&
      !(lockupCoins.isAllLTE vestingCoins && vestingCoins.isAllLTE lockupCoins) then
    .error ⟨.errInvalidRequest, "vesting and lockup schedules must have same total coins"⟩
  else .ok ()

/-- A message whose absent schedule has been replaced by an instant one. -/
def withDefaults (msg : MsgCreateClawbackVestingAccount) : MsgCreateClawbackVestingAccount :=
  let vestingCoins := totalAmount msg.vestingPeriods
  -- If lockup is absent, default to an instant unlock schedule.
  let lockupPeriods :=
    if !vestingCoins.isZero && msg.lockupPeriods.isEmpty then [⟨0, vestingCoins⟩]
    else msg.lockupPeriods
  let lockupCoins := totalAmount lockupPeriods
  -- If vesting is absent, default to an instant vesting schedule.
  let vestingPeriods :=
    if !lockupCoins.isZero && msg.vestingPeriods.isEmpty then [⟨0, lockupCoins⟩]
    else msg.vestingPeriods
  { msg with lockupPeriods := lockupPeriods, vestingPeriods := vestingPeriods }

end MsgCreateClawbackVestingAccount

/--
`BankKeeper.SendCoins` to the new account, which refuses coins that are not valid.

The new account is stored by then, so it is asked for its locked coins if it is also the sender.
-/
def sendCoins (ctx : Context) (s : State) (va : ClawbackVestingAccount)
    (fromAddr toAddr : Address) (amt : SignedCoins) : Result Balances := do
  if amt.isValid then
    let locked ← orPanic "negative coin amount" (
      -- Nothing is delegated by a new account, so all its vesting coins are locked.
      if fromAddr = toAddr then
        (va.getVestingCoins (Int64.ofInt (unix ctx.blockTime))).map SignedCoins.toCoins
      else s.lockedCoins fromAddr ctx.blockTime)
    if covers (s.balances fromAddr) locked amt.toCoins then
      .ok (moveCoins s.balances fromAddr toAddr amt.toCoins)
    else .error (insufficientFunds (s.balances fromAddr - locked) amt.toCoins)
  else .error ⟨.errInvalidCoins, "negative coin amount"⟩

/-- `CreateClawbackVestingAccount` for an address without an account: the account, and the bank. -/
def createClawbackVestingAccount (bech32 : Bech32) (ctx : Context) (s : State)
    (msg : MsgCreateClawbackVestingAccount) : Result (ClawbackVestingAccount × Balances) := do
  let fromAddr ← orPanic "invalid from address" (bech32.decode msg.fromAddress)
  let toAddr ← orPanic "invalid to address" (bech32.decode msg.toAddress)
  if ctx.blockedAddr toAddr then
    .error ⟨.errUnauthorized, msg.toAddress ++ " is not allowed to receive funds"⟩
  else
    let msg := msg.withDefaults
    let vestingCoins := totalAmount msg.vestingPeriods
    let lockupCoins := totalAmount msg.lockupPeriods
    -- The vesting and lockup schedules must describe the same total amount.
    if !(vestingCoins.isAllLTE lockupCoins && lockupCoins.isAllLTE vestingCoins) then
      .error ⟨.errInvalidRequest, "lockup and vesting amounts must be equal"⟩
    else
      let va := newClawbackVestingAccount vestingCoins msg.startTime msg.lockupPeriods
        msg.vestingPeriods
      let balances ← sendCoins ctx s va fromAddr toAddr vestingCoins
      .ok (va, balances)

end Evmos.Vesting.Decoded
