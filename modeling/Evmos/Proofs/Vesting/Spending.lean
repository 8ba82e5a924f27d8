import Evmos.Proofs.Vesting.MsgServer
import Evmos.Sdk.Accounting

/-! Who pays in the vesting module: the funder of a grant, and the account of a clawback. -/

namespace Evmos.Vesting

variable {bech32 : Bech32} {ctx : Context} {s after : State}

/-- A transfer of spendable coins is paid by its sender. -/
theorem sendCoins_changed {blockTime : Time} {fromAddr toAddr : Address} {amt : Coins}
    (sent : s.sendCoins blockTime fromAddr toAddr amt = .ok after) :
    BalancesChanged {fromAddr} s.balances after.balances := by
  obtain ⟨locked, -, spendable, rfl⟩ := State.sendCoins_ok sent
  have covered : amt ≤ s.balances fromAddr := by
    intro denom
    by_cases named : denom ∈ amt.support
    · have enough := of_decide_eq_true spendable denom named
      exact (Nat.le_add_left _ _).trans enough
    · rw [DFinsupp.notMem_support_iff.mp named]
      exact Nat.zero_le _
  -- Creating the recipient's account moves no coins.
  have same : ∀ moved : State, (moved.ensureAccount toAddr).balances = moved.balances := by
    intro moved
    unfold State.ensureAccount
    split
    · rfl
    · rfl
  rw [same]
  exact .of_moveCoins rfl covered

theorem createClawbackVestingAccount_changed {msg : MsgCreateClawbackVestingAccount}
    (delivered : createClawbackVestingAccount bech32 ctx s msg = .ok after) :
    BalancesChanged {addr | bech32.decode msg.fromAddress = some addr} s.balances
      after.balances := by
  obtain ⟨fromAddr, toAddr, va, sender, -, -, -, sent⟩ := createClawbackVestingAccount_ok delivered
  have paid := sendCoins_changed sent
  refine paid.mono ?_
  rintro _ rfl
  exact sender

theorem addGrant_address {va merged : ClawbackVestingAccount} {grantStartTime : ℤ}
    {grantLockupPeriods grantVestingPeriods : Periods} {grantCoins : Coins}
    (granted : addGrant ctx va grantStartTime grantLockupPeriods grantVestingPeriods grantCoins =
      .ok merged) : merged.address = va.address := by
  unfold addGrant at granted
  dsimp only at granted
  -- Both merged schedules have to start together.
  split_ifs at granted
  obtain ⟨unvested, -, granted⟩ := bind_eq_ok.mp granted
  obtain rfl := Except.ok.inj granted
  rfl

theorem computeClawback_address {va updated : ClawbackVestingAccount} {clawbackTime : ℤ}
    {taken : Coins} (computed : va.computeClawback clawbackTime = some (updated, taken)) :
    updated.address = va.address := by
  unfold ClawbackVestingAccount.computeClawback at computed
  -- Nothing is computed before the start.
  split at computed
  · obtain ⟨rfl, -⟩ := Prod.mk.inj (Option.some.inj computed)
    rfl
  · obtain ⟨unvested, -, same⟩ := Option.map_eq_some_iff.mp computed
    obtain ⟨rfl, -⟩ := Prod.mk.inj same
    rfl

/-- A clawback is paid by the account that it names, if that is stored at its address. -/
theorem clawback_changed {msg : MsgClawback}
    (placed : ∀ addr va, s.accounts addr = some (.clawback va) → va.address = addr)
    (delivered : clawback bech32 ctx s msg = .ok after) :
    BalancesChanged {addr | bech32.decode msg.accountAddress = some addr} s.balances
      after.balances := by
  obtain ⟨addr, dest, va, account, stored, -, -, transferred⟩ := clawback_ok delivered
  -- Nothing is taken, or the account pays what is computed.
  obtain ⟨updated, taken, computed, ⟨-, rfl⟩ | ⟨-, sent⟩⟩ := transferClawback_ok transferred
  · exact .refl _
  · have paid := sendCoins_changed sent
    refine paid.mono ?_
    rintro _ rfl
    rw [computeClawback_address computed, placed addr va stored]
    exact account

end Evmos.Vesting
