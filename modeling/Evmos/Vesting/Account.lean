import Evmos.Vesting.Schedule

/-! The clawback vesting account: what it holds, what it reads from its schedules, and clawback. -/

namespace Evmos.Vesting

open Library

/-- `ClawbackVestingAccount`, with the fields of the embedded `BaseVestingAccount` in place. -/
structure ClawbackVestingAccount where
  /-- The address of the base account. -/
  address : Address
  /-- The coins of all grants together. -/
  originalVesting : Coins
  /-- The delegated coins that were not vesting when delegated. -/
  delegatedFree : Coins
  /-- The delegated coins that were vesting when delegated. -/
  delegatedVesting : Coins
  /-- The Unix second at which both schedules are over. -/
  endTime : ℤ
  /-- The bech32 spelling of the account that may add grants and claw back. -/
  funderAddress : String
  /-- The instant at which both schedules start. -/
  startTime : Time
  /-- The unlocking schedule. -/
  lockupPeriods : Periods
  /-- The vesting schedule. -/
  vestingPeriods : Periods
  deriving DecidableEq

/-- `NewClawbackVestingAccount`. -/
def newClawbackVestingAccount (address : Address) (funder : String) (originalVesting : Coins)
    (startTime : Time) (lockupPeriods vestingPeriods : Periods) : ClawbackVestingAccount :=
  -- Both schedules already start at the same time, so aligning only computes the end time.
  let aligned := alignSchedules (unix startTime) (unix startTime) lockupPeriods vestingPeriods
  { address := address
    originalVesting := originalVesting
    delegatedFree := 0
    delegatedVesting := 0
    endTime := aligned.2.1
    funderAddress := funder
    startTime := startTime
    lockupPeriods := aligned.2.2.1
    vestingPeriods := aligned.2.2.2 }

namespace ClawbackVestingAccount

/-- `GetStartTime`: the start in Unix seconds. -/
def getStartTime (va : ClawbackVestingAccount) : ℤ := unix va.startTime

/-- `GetUnlockedOnly`: the unlocking schedule at the block time. -/
def getUnlockedOnly (va : ClawbackVestingAccount) (blockTime : Time) : Coins :=
  readSchedule va.getStartTime va.endTime va.lockupPeriods va.originalVesting (unix blockTime)

/-- `GetLockedOnly`: the locking schedule at the block time. -/
def getLockedOnly (va : ClawbackVestingAccount) (blockTime : Time) : Option Coins :=
  va.originalVesting.sub (va.getUnlockedOnly blockTime)

/-- `GetVestedOnly`: the vesting schedule at the block time. -/
def getVestedOnly (va : ClawbackVestingAccount) (blockTime : Time) : Coins :=
  readSchedule va.getStartTime va.endTime va.vestingPeriods va.originalVesting (unix blockTime)

/-- `GetUnvestedOnly`: the unvesting schedule at the block time. -/
def getUnvestedOnly (va : ClawbackVestingAccount) (blockTime : Time) : Option Coins :=
  va.originalVesting.sub (va.getVestedOnly blockTime)

/-- `GetPassedPeriodCount`: the vesting periods passed at the block time. -/
def getPassedPeriodCount (va : ClawbackVestingAccount) (blockTime : Time) : ℕ :=
  readPastPeriodCount va.getStartTime va.endTime va.vestingPeriods (unix blockTime)

/-- `GetVestedCoins`: the coins that are both unlocked and vested. -/
def getVestedCoins (va : ClawbackVestingAccount) (blockTime : Time) : Coins :=
  (va.getUnlockedOnly blockTime).min (va.getVestedOnly blockTime)

/-- `GetVestingCoins`: the coins that are still locked or still vesting. -/
def getVestingCoins (va : ClawbackVestingAccount) (blockTime : Time) : Option Coins :=
  va.originalVesting.sub (va.getVestedCoins blockTime)

/-- `HasLockedCoins`: whether some lockup period has not passed. -/
def hasLockedCoins (va : ClawbackVestingAccount) (blockTime : Time) : Option Bool :=
  (va.getLockedOnly blockTime).map fun locked => !locked.isZero

/-- `BaseVestingAccount.LockedCoinsFromVesting`: the vesting coins that are not delegated. -/
def lockedCoinsFromVesting (va : ClawbackVestingAccount) (vestingCoins : Coins) : Coins :=
  vestingCoins - vestingCoins.min va.delegatedVesting

/-- `LockedCoins`: the coins that are not spendable. -/
def lockedCoins (va : ClawbackVestingAccount) (blockTime : Time) : Option Coins :=
  (va.getVestingCoins blockTime).map va.lockedCoinsFromVesting

/--
`BaseVestingAccount.TrackDelegation`.

Vesting coins that are not delegated yet are taken first, and free coins make up the rest.
-/
def trackDelegationFromVesting (va : ClawbackVestingAccount) (vestingCoins amount : Coins) :
    ClawbackVestingAccount :=
  let x := (vestingCoins - va.delegatedVesting).min amount
  { va with
    delegatedVesting := va.delegatedVesting + x
    delegatedFree := va.delegatedFree + (amount - x) }

/-- `TrackDelegation`: records a delegation made at the block time. -/
def trackDelegation (va : ClawbackVestingAccount) (blockTime : Time) (amount : Coins) :
    Option ClawbackVestingAccount :=
  (va.getVestingCoins blockTime).map fun vesting => va.trackDelegationFromVesting vesting amount

/-- The account `ComputeClawback` constructs, without its future vesting events. -/
def clawedBack (va : ClawbackVestingAccount) (clawbackTime : ℤ) : ClawbackVestingAccount :=
  let totalVested := va.getVestedOnly (ofUnix clawbackTime)
  -- Remove all unvested periods from the schedule.
  let passedPeriodID := va.getPassedPeriodCount (ofUnix clawbackTime)
  let newVestingPeriods := va.vestingPeriods.take passedPeriodID
  let newVestingEnd := va.getStartTime + totalLength newVestingPeriods
  -- Cap the unlocking schedule to the new total vested.
  let capPeriods : Periods := [⟨0, totalVested⟩]
  let capped := conjunctPeriods va.getStartTime va.getStartTime va.lockupPeriods capPeriods
  { va with
    originalVesting := totalVested
    endTime := max newVestingEnd capped.2.1
    lockupPeriods := capped.2.2
    vestingPeriods := newVestingPeriods }

/-- `ComputeClawback`: the account without its future vesting events, and the coins taken back. -/
def computeClawback (va : ClawbackVestingAccount) (clawbackTime : ℤ) :
    Option (ClawbackVestingAccount × Coins) :=
  -- Before the vesting start there is nothing to claw back.
  if clawbackTime < va.getStartTime then some (va, 0)
  else
    (va.getUnvestedOnly (ofUnix clawbackTime)).map fun totalUnvested =>
      (va.clawedBack clawbackTime, totalUnvested)

/-- `coinEq`, which compares in both directions since `IsEqual` can panic. -/
def coinEq (a b : Coins) : Bool := a.isAllLTE b && b.isAllLTE a

/-- `BaseVestingAccount.Validate`, for the validation of the base account. -/
def validateBaseVesting (validateBaseAccount : Address → Result Unit)
    (va : ClawbackVestingAccount) : Result Unit :=
  if !va.delegatedVesting.isAllLTE va.originalVesting then
    .error ⟨.external, "delegated vesting amount cannot be greater than original vesting amount"⟩
  else validateBaseAccount va.address

/-- `Validate`: checks for errors on the account fields. -/
def validate (validateBaseAccount : Address → Result Unit) (va : ClawbackVestingAccount) :
    Result Unit :=
  if va.getStartTime ≥ va.endTime then
    .error ⟨.external, "vesting start-time must be before end-time"⟩
  else if va.getStartTime + totalLength va.lockupPeriods > va.endTime then
    .error ⟨.external, "lockup schedule extends beyond account end time"⟩
  else if !coinEq (totalAmount va.lockupPeriods) va.originalVesting then
    .error ⟨.external,
      "original vesting coins does not match the sum of all coins in lockup periods"⟩
  else if va.getStartTime + totalLength va.vestingPeriods > va.endTime then
    .error ⟨.external, "vesting schedule exteds beyond account end time"⟩
  else if !coinEq (totalAmount va.vestingPeriods) va.originalVesting then
    .error ⟨.external,
      "original vesting coins does not match the sum of all coins in vesting periods"⟩
  else va.validateBaseVesting validateBaseAccount

end ClawbackVestingAccount

end Evmos.Vesting
