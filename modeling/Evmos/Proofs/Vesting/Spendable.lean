import Evmos.Proofs.Vesting.Genesis
import Evmos.Proofs.Vesting.Pointwise

/-! Neither a clawback nor a merged grant changes what an account can already spend. -/

namespace Evmos.Vesting

open Library

variable {periods : Periods}

theorem countPeriods_of_due {readTime elapsed : ℤ}
    (due : ∀ event ∈ eventsFrom elapsed periods, event.1 ≤ readTime) (passed : ℕ) :
    countPeriods readTime passed elapsed periods = passed + periods.length := by
  induction periods generalizing elapsed passed with
  | nil => rfl
  | cons period rest ih =>
    -- The loop does not end early.
    obtain ⟨first, others⟩ := List.forall_mem_cons.mp due
    rw [countPeriods, if_neg (not_lt.mpr first), ih others, List.length_cons]
    omega

/-- The periods that count as passed at a time have ended by then. -/
theorem passed_due (forward : Forward periods) {startTime endTime readTime : ℤ}
    (ended : startTime + totalLength periods ≤ endTime) :
    ∀ event ∈ eventsFrom startTime
        (periods.take (readPastPeriodCount startTime endTime periods readTime)),
      event.1 ≤ readTime := by
  intro event member
  rw [readPastPeriodCount] at member
  split_ifs at member with early late
  · -- Up to the start nothing has passed.
    cases member
  · rw [List.take_length] at member
    exact ((forward.event_bounds member).2.trans ended).trans late
  · rw [eventsFrom_take_countPeriods forward] at member
    simpa using (List.mem_filter.mp member).2

/-- Periods that have passed stay passed, whatever end time cuts the later count short. -/
theorem take_passed_again (forward : Forward periods) {startTime endTime readTime newEnd later : ℤ}
    (order : readTime ≤ later) (ended : startTime + totalLength periods ≤ endTime) :
    let passed := periods.take (readPastPeriodCount startTime endTime periods readTime)
    passed.take (readPastPeriodCount startTime newEnd passed later) = passed := by
  intro passed
  by_cases early : readTime ≤ startTime
  · -- Nothing had passed, and nothing can be taken from nothing.
    have nothing : passed = [] := by
      show periods.take (readPastPeriodCount startTime endTime periods readTime) = []
      rw [readPastPeriodCount, if_pos early, List.take_zero]
    rw [nothing, List.take_nil]
  · have due : ∀ event ∈ eventsFrom startTime passed, event.1 ≤ later := fun event member =>
      (passed_due forward ended event member).trans order
    rw [readPastPeriodCount, if_neg (by omega)]
    split_ifs
    · exact List.take_length
    · rw [countPeriods_of_due due, zero_add, List.take_length]

/-- An event that the other side has room for is emitted as it is. -/
theorem Conjunction.consume_of_covered {c : Conjunction} (current : c.amount = c.totalAmountPeriodsA)
    {amountA amountB : Coins} (some : amountA ≠ 0)
    (covered : c.totalAmountPeriodsA + amountA ≤ c.totalAmountPeriodsB + amountB) (nextTime : ℤ) :
    c.consume nextTime amountA amountB =
      { time := nextTime
        amount := c.totalAmountPeriodsA + amountA
        totalAmountPeriodsA := c.totalAmountPeriodsA + amountA
        totalAmountPeriodsB := c.totalAmountPeriodsB + amountB
        conjunctionPeriods := c.conjunctionPeriods ++ [⟨nextTime - c.time, amountA⟩] } := by
  -- The minimum is the first side, and it grows by the event.
  have least := inf_eq_left.mpr covered
  have more : ¬c.totalAmountPeriodsA + amountA ≤ c.totalAmountPeriodsA := by
    intro same
    exact some (le_antisymm ((add_le_iff_nonpos_right _).mp same) zero_le)
  rw [c.consume_of_lt (by rw [least, current]; exact le_add_of_nonneg_right zero_le)
    (by rwa [least, current]), least, current, Conjunction.emit, add_tsub_cancel_left]

/-- Events that the other side has room for are all emitted as they are. -/
theorem conjunctLoop_of_covered {c : Conjunction} {timeA : ℤ} (timeB : ℤ) {as : Periods}
    (time : c.time = timeA) (current : c.amount = c.totalAmountPeriodsA)
    (some : ∀ period ∈ as, period.amount ≠ 0)
    (covered : c.totalAmountPeriodsA + totalAmount as ≤ c.totalAmountPeriodsB) :
    (conjunctLoop c timeA timeB as []).time = timeA + totalLength as ∧
      (conjunctLoop c timeA timeB as []).conjunctionPeriods = c.conjunctionPeriods ++ as := by
  induction as generalizing c timeA with
  | nil => simp [conjunctLoop, time]
  | cons a as ih =>
    obtain ⟨first, others⟩ := List.forall_mem_cons.mp some
    rw [totalAmount_cons, ← add_assoc] at covered
    have room : c.totalAmountPeriodsA + a.amount ≤ c.totalAmountPeriodsB + 0 := by
      rw [add_zero]
      exact (le_add_of_nonneg_right zero_le).trans covered
    rw [conjunctLoop, Conjunction.consumeA, Conjunction.consume_of_covered current first room]
    obtain ⟨ends, periods⟩ := ih (c := ⟨_, _, _, _, _⟩) rfl rfl others
      (covered.trans (add_zero _).symm.le)
    refine ⟨ends.trans ?_, periods.trans ?_⟩
    · rw [totalLength_cons, add_assoc]
    · -- The emitted period starts where the last one ended.
      rw [time, add_sub_cancel_left, List.append_assoc, List.singleton_append]

/-- A schedule that a cap from the start on covers goes through `ConjunctPeriods` unchanged. -/
theorem conjunctPeriods_of_cap (startTime : ℤ) {cap : Coins} (forward : Forward periods)
    (some : ∀ period ∈ periods, period.amount ≠ 0) (covered : totalAmount periods ≤ cap) :
    conjunctPeriods startTime startTime periods [⟨0, cap⟩] =
      (startTime, startTime + totalLength periods, periods) := by
  -- Without events of the first side the cap changes nothing.
  have capOnly : Conjunction.consumeB ⟨startTime, 0, 0, 0, []⟩ (startTime + 0) cap =
      ⟨startTime, 0, 0, cap, []⟩ := by
    rw [Conjunction.consumeB, Conjunction.consume_of_same]
    · simp only [zero_add]
    · simp
  cases periods with
  | nil =>
    simp only [conjunctPeriods, min_self, totalLength_nil, add_zero]
    rw [conjunctLoop, conjunctLoop, capOnly]
  | cons a as =>
    obtain ⟨head, tail⟩ := (forward_cons a as).mp forward
    obtain ⟨first, others⟩ := List.forall_mem_cons.mp some
    simp only [conjunctPeriods, min_self]
    rcases head.lt_or_eq with takes | instant
    · -- The cap comes first, and from then on it covers everything.
      rw [conjunctLoop, if_neg (by simp only; omega), if_pos (by simp only; omega), capOnly]
      obtain ⟨ends, emitted⟩ := conjunctLoop_of_covered (c := ⟨startTime, 0, 0, cap, []⟩)
        (startTime + 0) rfl rfl some (by simpa using covered)
      rw [ends, emitted, List.nil_append]
    · -- The first event comes with the cap.
      rw [totalAmount_cons] at covered
      rw [conjunctLoop, if_neg (by simp only; omega), if_neg (by simp only; omega),
        Conjunction.consumeBoth, Conjunction.consume_of_covered rfl first
          (by simpa using (le_add_of_nonneg_right zero_le).trans covered)]
      obtain ⟨ends, emitted⟩ := conjunctLoop_of_covered
        (c := ⟨startTime + a.length, 0 + a.amount, 0 + a.amount, 0 + cap,
          [] ++ [⟨startTime + a.length - startTime, a.amount⟩]⟩)
        (startTime + a.length) rfl rfl others (by simpa using covered)
      rw [ends, emitted, totalLength_cons, add_sub_cancel_left, add_assoc, List.nil_append,
        List.singleton_append]

namespace ClawbackVestingAccount

variable {va : ClawbackVestingAccount}

theorem WellFormed.clawedBack_vested (wf : va.WellFormed) {clawbackTime later : ℤ}
    (order : clawbackTime ≤ later) :
    (va.clawedBack clawbackTime).getVestedOnly (ofUnix later) =
      va.getVestedOnly (ofUnix clawbackTime) := by
  -- The vested coins are held at what had vested by the clawback, and more had not.
  rw [wf.clawedBack_getVestedOnly]
  exact inf_eq_right.mpr (wf.getVestedOnly_mono (ofUnix_mono order))

/-- Clawing back again, at the same time or later, finds nothing to change. -/
theorem WellFormed.clawedBack_again (wf : va.WellFormed) {clawbackTime later : ℤ}
    (order : clawbackTime ≤ later) :
    (va.clawedBack clawbackTime).clawedBack later = va.clawedBack clawbackTime := by
  have again := wf.clawedBack clawbackTime
  have vested : (va.clawedBack clawbackTime).getVestedOnly (ofUnix later) =
      (va.clawedBack clawbackTime).originalVesting := wf.clawedBack_vested order
  have passed : (va.clawedBack clawbackTime).vestingPeriods.take
      ((va.clawedBack clawbackTime).getPassedPeriodCount (ofUnix later)) =
        (va.clawedBack clawbackTime).vestingPeriods := by
    refine take_passed_again wf.vestingForward ?_ (wf.ends ▸ le_max_right _ _)
    simpa using order
  -- The lockup periods were capped already, and none of them is empty.
  have capped := conjunctPeriods_of_cap (va.clawedBack clawbackTime).getStartTime
    again.lockupForward (conjunctPeriods_nonzero _ _ _ _) again.lockupTotal.le
  rw [ClawbackVestingAccount.clawedBack, vested, passed, capped, max_comm, ← again.ends]

/--
A clawback takes the unvested coins and nothing else.

What was vested and unlocked stays so, and a second clawback finds nothing to take.
-/
theorem computeClawback_takes_unvested (wf : va.WellFormed) {clawbackTime : ℤ}
    (begun : va.getStartTime ≤ clawbackTime) :
    ∃ updated taken, va.computeClawback clawbackTime = some (updated, taken) ∧
      taken + updated.originalVesting = va.originalVesting ∧
      updated.originalVesting = va.getVestedOnly (ofUnix clawbackTime) ∧
      totalAmount updated.vestingPeriods = va.getVestedOnly (ofUnix clawbackTime) ∧
      totalAmount updated.lockupPeriods = va.getVestedOnly (ofUnix clawbackTime) ∧
      (∀ time denom,
        updated.getVestedOnly time denom =
            min (va.getVestedOnly time denom) (va.getVestedOnly (ofUnix clawbackTime) denom) ∧
          updated.getUnlockedOnly time denom =
            min (va.getUnlockedOnly time denom) (va.getVestedOnly (ofUnix clawbackTime) denom)) ∧
      updated.getVestedCoins (ofUnix clawbackTime) = va.getVestedCoins (ofUnix clawbackTime) ∧
      ∀ later, clawbackTime ≤ later → updated.computeClawback later = some (updated, 0) := by
  have updated := wf.clawedBack clawbackTime
  refine ⟨_, _, wf.computeClawback_eq begun, ?_, rfl, updated.vestingTotal, updated.lockupTotal,
    ?_, ?_, ?_⟩
  · exact tsub_add_cancel_of_le (wf.getVestedOnly_le _)
  · intro time denom
    rw [wf.clawedBack_getVestedOnly, wf.clawedBack_getUnlockedOnly]
    exact ⟨DFinsupp.inf_apply _ _ denom, DFinsupp.inf_apply _ _ denom⟩
  · -- The cap is at the vested coins of this very time, which cap the spendable coins anyway.
    rw [getVestedCoins, getVestedCoins, wf.clawedBack_getVestedOnly, wf.clawedBack_getUnlockedOnly,
      inf_idem]
    exact inf_eq_left.mpr inf_le_right
  · intro later order
    rw [updated.computeClawback_eq (begun.trans order), wf.clawedBack_again order,
      wf.clawedBack_vested order]
    exact congrArg (fun taken => some (va.clawedBack clawbackTime, taken)) (tsub_self _)

end ClawbackVestingAccount

theorem wellFormed_halvesAccount : halvesAccount.WellFormed :=
  ClawbackVestingAccount.wellFormed_new
    (MsgCreateClawbackVestingAccount.withDefaults_forward (by simp [halvesGrant])
      (by simp [halvesGrant])).1
    (by simp [halvesGrant]) (by decide +kernel) (by decide +kernel)

/-- After fifteen seconds one half is taken back, and a second later nothing more. -/
theorem halvesAccount_clawed_back :
    halvesAccount.WellFormed ∧ halvesAccount.getStartTime ≤ 15 ∧
      ∃ updated taken, halvesAccount.computeClawback 15 = some (updated, taken) ∧
        taken + updated.originalVesting = Coins.ofCoin "aevmos" 100 ∧
        updated.originalVesting = Coins.ofCoin "aevmos" 50 ∧
        updated.computeClawback 16 = some (updated, 0) := by
  have begun : halvesAccount.getStartTime ≤ 15 := by decide
  obtain ⟨updated, taken, computed, sum, kept, -, -, -, -, again⟩ :=
    ClawbackVestingAccount.computeClawback_takes_unvested wellFormed_halvesAccount begun
  -- The amounts are those of the account, which is read twice.
  exact ⟨wellFormed_halvesAccount, begun, updated, taken, computed, sum.trans (by decide +kernel),
    kept.trans (by decide +kernel), again 16 (by decide)⟩

namespace ClawbackVestingAccount

variable {va : ClawbackVestingAccount} {lockupPeriods vestingPeriods : Periods} {coins : Coins}

/-- With a grant merged, no less is vested and unlocked at any time. -/
theorem WellFormed.getVestedCoins_le_withGrant (wf : va.WellFormed) (startTime : ℤ)
    (lockupForward : Forward lockupPeriods) (vestingForward : Forward vestingPeriods)
    (lockupTotal : totalAmount lockupPeriods = coins)
    (vestingTotal : totalAmount vestingPeriods = coins) (time : Time) :
    va.getVestedCoins time ≤
      (va.withGrant startTime lockupPeriods vestingPeriods coins).getVestedCoins time := by
  have merged := wf.withGrant startTime lockupForward vestingForward lockupTotal vestingTotal
  by_cases early : unix time ≤ unix va.startTime
  · -- Up to its start the account had nothing to spend.
    rw [getVestedCoins, getUnlockedOnly_of_le va early]
    exact inf_le_left.trans zero_le
  · -- The merged account starts no later, so both are past their starts.
    have begun : unix time ≠
        unix (va.withGrant startTime lockupPeriods vestingPeriods coins).startTime := by
      have earlier := min_le_left va.getStartTime startTime
      simp only [ClawbackVestingAccount.withGrant, unix_ofUnix, ClawbackVestingAccount.getStartTime]
        at earlier ⊢
      omega
    have notStart : unix time ≠ unix va.startTime := by omega
    rw [getVestedCoins, getVestedCoins, wf.getUnlockedOnly_eq notStart,
      wf.getVestedOnly_eq notStart, merged.getUnlockedOnly_eq begun, merged.getVestedOnly_eq begun]
    -- Each merged schedule reads as the old one plus the grant's.
    simp only [unlockedBy, vestedBy, ClawbackVestingAccount.withGrant,
      ClawbackVestingAccount.getStartTime, unix_ofUnix, disjunctPeriods_readAt]
    exact inf_le_inf (le_add_of_nonneg_right zero_le) (le_add_of_nonneg_right zero_le)

/-- `addGrant` takes no spendable coins away and accounts for everything that is delegated. -/
theorem WellFormed.addGrant_spendable {ctx : Context} {merged : ClawbackVestingAccount}
    (wf : va.WellFormed) {startTime : ℤ} (lockupForward : Forward lockupPeriods)
    (vestingForward : Forward vestingPeriods) (lockupTotal : totalAmount lockupPeriods = coins)
    (vestingTotal : totalAmount vestingPeriods = coins)
    (granted : Vesting.addGrant ctx va startTime lockupPeriods vestingPeriods coins = .ok merged) :
    (∀ time, va.getVestedCoins time ≤ merged.getVestedCoins time) ∧
      merged.delegatedVesting + merged.delegatedFree = ctx.delegated va.address ∧
      ∃ vesting, merged.getVestingCoins ctx.blockTime = some vesting ∧
        merged.delegatedVesting ≤ vesting := by
  obtain ⟨vesting, computed, -, equation⟩ := wf.addGrant_eq ctx startTime lockupForward
    vestingForward lockupTotal vestingTotal
  obtain rfl := Except.ok.inj (equation.symm.trans granted)
  refine ⟨fun time => ?_, add_tsub_cancel_of_le inf_le_left, vesting, computed, inf_le_right⟩
  -- The delegations play no part in what has vested.
  exact wf.getVestedCoins_le_withGrant startTime lockupForward vestingForward lockupTotal
    vestingTotal time

end ClawbackVestingAccount

theorem grantAccount_of_clawback {bech32 : Bech32} {ctx : Context} {s : State}
    {fromAddr toAddr : Address} {msg : MsgCreateClawbackVestingAccount} {coins : Coins}
    {va merged : ClawbackVestingAccount} (found : s.accounts toAddr = some (.clawback va))
    (granted : grantAccount bech32 ctx s fromAddr toAddr msg coins = .ok merged) :
    addGrant ctx va (unix msg.startTime) msg.lockupPeriods msg.vestingPeriods coins = .ok merged := by
  rw [grantAccount, found] at granted
  dsimp only at granted
  split_ifs at granted
  exact granted

/--
Merging a grant never takes spendable coins away.

The delegations are then split anew, and no more than the vesting coins count as vesting.
-/
theorem merged_grant_keeps_spendable (bech32 : Bech32) {ctx : Context} {s after : State}
    {msg : MsgCreateClawbackVestingAccount} {toAddr : Address} {va : ClawbackVestingAccount}
    (wf : va.WellFormed) (recipient : bech32.decode msg.toAddress = some toAddr)
    (found : s.accounts toAddr = some (.clawback va))
    (accepted : msg.validateBasic bech32 = .ok ())
    (delivered : createClawbackVestingAccount bech32 ctx s msg = .ok after) :
    ∃ merged, after.accounts va.address = some (.clawback merged) ∧
      addGrant ctx va (unix msg.startTime) msg.withDefaults.lockupPeriods
        msg.withDefaults.vestingPeriods (totalAmount msg.withDefaults.vestingPeriods) =
          .ok merged ∧
      (∀ time denom, va.getVestedCoins time denom ≤ merged.getVestedCoins time denom) ∧
      merged.delegatedVesting + merged.delegatedFree = Coins.ofCoin ctx.bondDenom
        (ctx.delegatorBonded va.address + ctx.delegatorUnbonding va.address) ∧
      ∃ vesting, merged.getVestingCoins ctx.blockTime = some vesting ∧
        merged.delegatedVesting ≤ vesting := by
  obtain ⟨fromAddr, decoded, merged, -, same, totals, granted, sent⟩ :=
    createClawbackVestingAccount_ok delivered
  obtain rfl := Option.some.inj (recipient.symm.trans same)
  obtain ⟨lockup, vesting⟩ := MsgCreateClawbackVestingAccount.validateBasic_forward accepted
  obtain ⟨lockup, vesting⟩ := MsgCreateClawbackVestingAccount.withDefaults_forward lockup vesting
  have added := grantAccount_of_clawback found granted
  obtain ⟨spendable, delegated, capped⟩ := wf.addGrant_spendable lockup vesting totals rfl added
  refine ⟨merged, ?_, added, fun time denom => spendable time denom, delegated, capped⟩
  -- The merged account is stored before the coins are sent, which only creates accounts.
  obtain ⟨-, -, -, rfl⟩ := State.sendCoins_ok sent
  have address := (wf.addGrant lockup vesting totals rfl added).2
  refine State.ensureAccount_accounts ?_ _
  show (s.setAccount merged.address (.clawback merged)).accounts va.address = _
  rw [address]
  exact Function.update_self ..

/-- A state in which the halved grant can be joined by thirty coins more. -/
def halvesState : State where
  accounts address := if address = 2 then some (.clawback halvesAccount) else none
  balances address := if address = 1 then Coins.ofCoin "aevmos" 30 else 0

/-- The thirty coins of a later grant leave the first half spendable. -/
theorem lockedGrant_keeps_half :
    ∃ after merged, createClawbackVestingAccount .unary (quietContext (12 * second)) halvesState
        lockedGrant = .ok after ∧
      after.accounts 2 = some (.clawback merged) ∧
      50 ≤ merged.getVestedCoins (12 * second) "aevmos" ∧
      merged.delegatedVesting + merged.delegatedFree = 0 := by
  obtain ⟨after, -, delivered, -, -⟩ := exists_of_leaves (show leaves (createClawbackVestingAccount
    .unary (quietContext (12 * second)) halvesState lockedGrant) 2 (fun _ => true) = true by
      decide +kernel)
  obtain ⟨merged, stored, -, spendable, delegated, -⟩ := merged_grant_keeps_spendable .unary
    wellFormed_halvesAccount (show Bech32.decode .unary lockedGrant.toAddress = some 2 by decide) rfl
    (by decide) delivered
  -- Half of the first grant has vested at that time.
  have half : halvesAccount.getVestedCoins (12 * second) "aevmos" = 50 := by decide +kernel
  exact ⟨after, merged, delivered, stored, half ▸ spendable (12 * second) "aevmos",
    delegated.trans (by decide)⟩

end Evmos.Vesting
