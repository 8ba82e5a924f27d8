import Evmos.Proofs.Vesting.Schedule
import Evmos.Vesting.Account

/-! A well-formed clawback vesting account reads its schedules as plain step functions. -/

namespace Evmos.Vesting

open Library

namespace ClawbackVestingAccount

/-- Both schedules add up to the original vesting coins, and the account ends with the later one. -/
structure WellFormed (va : ClawbackVestingAccount) : Prop where
  /-- No lockup period has a negative length. -/
  lockupForward : Forward va.lockupPeriods
  /-- No vesting period has a negative length. -/
  vestingForward : Forward va.vestingPeriods
  /-- The lockup periods add up to the original vesting coins. -/
  lockupTotal : totalAmount va.lockupPeriods = va.originalVesting
  /-- The vesting periods add up to the original vesting coins. -/
  vestingTotal : totalAmount va.vestingPeriods = va.originalVesting
  /-- The account ends when the later schedule does. -/
  ends : va.endTime = max (va.getStartTime + totalLength va.lockupPeriods)
    (va.getStartTime + totalLength va.vestingPeriods)

/-- The coins of the lockup periods that have ended by a second. -/
def unlockedBy (va : ClawbackVestingAccount) (time : ℤ) : Coins :=
  readAt (eventsFrom va.getStartTime va.lockupPeriods) time

/-- The coins of the vesting periods that have ended by a second. -/
def vestedBy (va : ClawbackVestingAccount) (time : ℤ) : Coins :=
  readAt (eventsFrom va.getStartTime va.vestingPeriods) time

variable {va : ClawbackVestingAccount}

/-- Outside the start second, the unlocked coins are those of the ended lockup periods. -/
theorem WellFormed.getUnlockedOnly_eq (wf : va.WellFormed) {time : Time}
    (notStart : unix time ≠ unix va.startTime) :
    va.getUnlockedOnly time = va.unlockedBy (unix time) :=
  readSchedule_eq wf.lockupForward (wf.ends ▸ le_max_left _ _) wf.lockupTotal notStart

/-- Outside the start second, the vested coins are those of the ended vesting periods. -/
theorem WellFormed.getVestedOnly_eq (wf : va.WellFormed) {time : Time}
    (notStart : unix time ≠ unix va.startTime) :
    va.getVestedOnly time = va.vestedBy (unix time) :=
  readSchedule_eq wf.vestingForward (wf.ends ▸ le_max_right _ _) wf.vestingTotal notStart

theorem getUnlockedOnly_of_le (va : ClawbackVestingAccount) {time : Time}
    (early : unix time ≤ unix va.startTime) :
    va.getUnlockedOnly time = 0 :=
  if_pos early

theorem getVestedOnly_of_le (va : ClawbackVestingAccount) {time : Time}
    (early : unix time ≤ unix va.startTime) :
    va.getVestedOnly time = 0 :=
  if_pos early

theorem WellFormed.getUnlockedOnly_mono (wf : va.WellFormed) {earlier later : Time}
    (order : earlier ≤ later) : va.getUnlockedOnly earlier ≤ va.getUnlockedOnly later := by
  have seconds := unix_mono order
  by_cases early : unix earlier ≤ unix va.startTime
  · rw [getUnlockedOnly_of_le va early]
    exact zero_le
  · -- After the start second both readings are those of the plain step function.
    rw [wf.getUnlockedOnly_eq (by omega), wf.getUnlockedOnly_eq (by omega)]
    exact readAt_mono _ seconds

theorem WellFormed.getVestedOnly_mono (wf : va.WellFormed) {earlier later : Time}
    (order : earlier ≤ later) : va.getVestedOnly earlier ≤ va.getVestedOnly later := by
  have seconds := unix_mono order
  -- Up to the start second nothing is vested, and after it the events are read.
  by_cases early : unix earlier ≤ unix va.startTime
  · rw [getVestedOnly_of_le va early]
    exact zero_le
  · rw [wf.getVestedOnly_eq (by omega), wf.getVestedOnly_eq (by omega)]
    exact readAt_mono _ seconds

theorem WellFormed.getUnlockedOnly_le (wf : va.WellFormed) (time : Time) :
    va.getUnlockedOnly time ≤ va.originalVesting := by
  by_cases early : unix time ≤ unix va.startTime
  · rw [getUnlockedOnly_of_le va early]
    exact zero_le
  · -- A reading is part of the total, which is the grant.
    rw [wf.getUnlockedOnly_eq (by omega), ← wf.lockupTotal, ← totalOf_eventsFrom va.getStartTime]
    exact readAt_le_totalOf _ _

theorem WellFormed.getVestedOnly_le (wf : va.WellFormed) (time : Time) :
    va.getVestedOnly time ≤ va.originalVesting := by
  by_cases early : unix time ≤ unix va.startTime
  · rw [getVestedOnly_of_le va early]
    exact zero_le
  · -- A reading is part of the total, which is the grant.
    rw [wf.getVestedOnly_eq (by omega), ← wf.vestingTotal, ← totalOf_eventsFrom va.getStartTime]
    exact readAt_le_totalOf _ _

theorem WellFormed.getLockedOnly_eq (wf : va.WellFormed) (time : Time) :
    va.getLockedOnly time = some (va.originalVesting - va.getUnlockedOnly time) :=
  Coins.sub_of_le (wf.getUnlockedOnly_le time)

theorem WellFormed.getUnvestedOnly_eq (wf : va.WellFormed) (time : Time) :
    va.getUnvestedOnly time = some (va.originalVesting - va.getVestedOnly time) :=
  Coins.sub_of_le (wf.getVestedOnly_le time)

theorem WellFormed.getVestingCoins_eq (wf : va.WellFormed) (time : Time) :
    va.getVestingCoins time =
      some (va.originalVesting - va.getUnlockedOnly time ⊓ va.getVestedOnly time) :=
  Coins.sub_of_le (inf_le_left.trans (wf.getUnlockedOnly_le time))

theorem newClawbackVestingAccount_eq (address : Address) (funder : String) (originalVesting : Coins)
    (startTime : Time) (lockupPeriods vestingPeriods : Periods) :
    newClawbackVestingAccount address funder originalVesting startTime lockupPeriods
        vestingPeriods =
      { address := address
        originalVesting := originalVesting
        delegatedFree := 0
        delegatedVesting := 0
        endTime := max (unix startTime + totalLength lockupPeriods)
          (unix startTime + totalLength vestingPeriods)
        funderAddress := funder
        startTime := startTime
        lockupPeriods := lockupPeriods
        vestingPeriods := vestingPeriods } := by
  -- The first period is extended by the difference of the starts.
  have unextended : ∀ periods : Periods, extendFirst (unix startTime - unix startTime) periods =
      periods := by
    intro periods
    cases periods <;> simp [extendFirst]
  simp only [newClawbackVestingAccount, alignSchedules, min_self, unextended]

theorem wellFormed_new {address : Address} {funder : String} {originalVesting : Coins}
    {startTime : Time} {lockupPeriods vestingPeriods : Periods}
    (lockupForward : Forward lockupPeriods) (vestingForward : Forward vestingPeriods)
    (lockupTotal : totalAmount lockupPeriods = originalVesting)
    (vestingTotal : totalAmount vestingPeriods = originalVesting) :
    (newClawbackVestingAccount address funder originalVesting startTime lockupPeriods
      vestingPeriods).WellFormed := by
  rw [newClawbackVestingAccount_eq]
  exact ⟨lockupForward, vestingForward, lockupTotal, vestingTotal, rfl⟩

/-- The coins that had vested by the clawback, due from the start on, cap the unlocking schedule. -/
private theorem forward_cap (coins : Coins) : Forward ([⟨0, coins⟩] : Periods) := by
  simp

/-- Clawing back leaves a well-formed account behind. -/
theorem WellFormed.clawedBack (wf : va.WellFormed) (clawbackTime : ℤ) :
    (va.clawedBack clawbackTime).WellFormed := by
  have bounded := wf.getVestedOnly_le (ofUnix clawbackTime)
  -- The kept vesting periods hold the vested coins.
  have kept := totalAmount_passed wf.vestingForward wf.vestingTotal va.getStartTime va.endTime
    (unix (ofUnix clawbackTime))
  -- The capped lockup periods hold the smaller of the grant and the vested coins.
  have capped := conjunctPeriods_spec va.getStartTime va.getStartTime wf.lockupForward
    (forward_cap (va.getVestedOnly (ofUnix clawbackTime)))
  rw [min_self, wf.lockupTotal, totalAmount_cons, totalAmount_nil, add_zero,
    inf_eq_right.mpr bounded] at capped
  exact ⟨capped.forward, wf.vestingForward.take _, capped.total, kept,
    (max_comm _ _).trans (congrArg (max · _) capped.ends)⟩

/-- After a clawback the vesting schedule is held at what had vested by then. -/
theorem WellFormed.clawedBack_getVestedOnly (wf : va.WellFormed) (clawbackTime : ℤ) (time : Time) :
    (va.clawedBack clawbackTime).getVestedOnly time =
      va.getVestedOnly time ⊓ va.getVestedOnly (ofUnix clawbackTime) := by
  by_cases early : unix time ≤ unix va.startTime
  · rw [getVestedOnly_of_le va early, getVestedOnly_of_le (va.clawedBack clawbackTime) early]
    exact (inf_eq_left.mpr zero_le).symm
  · -- Both accounts start together, so both read as plain step functions from here on.
    have notStart : unix time ≠ unix va.startTime := by omega
    rw [wf.getVestedOnly_eq notStart, (wf.clawedBack clawbackTime).getVestedOnly_eq notStart]
    exact readAt_passed wf.vestingForward (wf.ends ▸ le_max_right _ _) wf.vestingTotal _

/-- After a clawback the unlocking schedule is held at what had vested by then. -/
theorem WellFormed.clawedBack_getUnlockedOnly (wf : va.WellFormed) (clawbackTime : ℤ)
    (time : Time) :
    (va.clawedBack clawbackTime).getUnlockedOnly time =
      va.getUnlockedOnly time ⊓ va.getVestedOnly (ofUnix clawbackTime) := by
  by_cases early : unix time ≤ unix va.startTime
  · rw [getUnlockedOnly_of_le va early, getUnlockedOnly_of_le (va.clawedBack clawbackTime) early]
    exact (inf_eq_left.mpr zero_le).symm
  · have notStart : unix time ≠ unix va.startTime := by omega
    rw [wf.getUnlockedOnly_eq notStart, (wf.clawedBack clawbackTime).getUnlockedOnly_eq notStart]
    -- The cap falls due at the start, which has passed.
    have capped := conjunctPeriods_readAt va.getStartTime va.getStartTime wf.lockupForward
      (forward_cap (va.getVestedOnly (ofUnix clawbackTime))) (unix time)
    have due : va.getStartTime ≤ unix time := (not_le.mp early).le
    simp only [min_self, eventsFrom, readAt_cons, readAt_nil, add_zero, if_pos due] at capped
    exact capped

/-- From the start on, a clawback takes what is unvested, without a panic. -/
theorem WellFormed.computeClawback_eq (wf : va.WellFormed) {clawbackTime : ℤ}
    (begun : va.getStartTime ≤ clawbackTime) :
    va.computeClawback clawbackTime = some (va.clawedBack clawbackTime,
      va.originalVesting - va.getVestedOnly (ofUnix clawbackTime)) := by
  rw [ClawbackVestingAccount.computeClawback, if_neg (not_lt.mpr begun), wf.getUnvestedOnly_eq,
    Option.map_some]

/-- Whatever the clawback time, the account computed is well formed. -/
theorem WellFormed.computeClawback (wf : va.WellFormed) {clawbackTime : ℤ}
    {updated : ClawbackVestingAccount} {taken : Coins}
    (computed : va.computeClawback clawbackTime = some (updated, taken)) :
    updated.WellFormed ∧ updated.address = va.address := by
  -- Before the start the account is returned as it is.
  rcases lt_or_ge clawbackTime va.getStartTime with early | begun
  · rw [ClawbackVestingAccount.computeClawback, if_pos early] at computed
    obtain ⟨rfl, -⟩ := Prod.mk.inj (Option.some.inj computed)
    exact ⟨wf, rfl⟩
  · rw [wf.computeClawback_eq begun] at computed
    obtain ⟨rfl, -⟩ := Prod.mk.inj (Option.some.inj computed)
    exact ⟨wf.clawedBack clawbackTime, rfl⟩

theorem WellFormed.trackDelegation (wf : va.WellFormed) {blockTime : Time} {amount : Coins}
    {tracked : ClawbackVestingAccount}
    (recorded : va.trackDelegation blockTime amount = some tracked) : tracked.WellFormed := by
  rw [ClawbackVestingAccount.trackDelegation, wf.getVestingCoins_eq, Option.map_some,
    Option.some.injEq] at recorded
  subst recorded
  exact ⟨wf.lockupForward, wf.vestingForward, wf.lockupTotal, wf.vestingTotal, wf.ends⟩

end ClawbackVestingAccount

end Evmos.Vesting
