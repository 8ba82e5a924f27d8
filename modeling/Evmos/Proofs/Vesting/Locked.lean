import Evmos.Proofs.Vesting.Clawback
import Evmos.Proofs.Vesting.Spendable
import Evmos.Sdk.Accounting

/-! Vesting accounts hold the coins that they lock, as long as delegations are on record. -/

namespace Evmos.Vesting

open Library

/-- More coins lock at most as many, if no less has vested and no less is delegated. -/
theorem locked_add_le {original coins vested more recorded delegated : Coins}
    (vests : vested ≤ more) (delegates : recorded ≤ delegated) :
    original + coins - more - delegated ⊓ (original + coins - more) ≤
      original - vested - recorded + coins := by
  intro denom
  have vests := vests denom
  have delegates := delegates denom
  simp only [DFinsupp.tsub_apply, DFinsupp.inf_apply, DFinsupp.add_apply] at vests delegates ⊢
  omega

namespace ClawbackVestingAccount

variable {va : ClawbackVestingAccount}

/-- What is locked: the vesting coins that are not delegated. -/
theorem WellFormed.lockedCoins_eq (wf : va.WellFormed) (time : Time) :
    va.lockedCoins time =
      some (va.originalVesting - va.getVestedCoins time - va.delegatedVesting) := by
  rw [lockedCoins, wf.getVestingCoins_eq]
  refine congrArg some ?_
  -- Delegations beyond the vesting coins make no difference.
  ext denom
  simp only [lockedCoinsFromVesting, Coins.min, getVestedCoins, DFinsupp.tsub_apply,
    DFinsupp.inf_apply]
  omega

theorem WellFormed.lockedCoins_antitone (wf : va.WellFormed) {earlier later : Time}
    (order : earlier ≤ later) {locked rest : Coins} (before : va.lockedCoins earlier = some locked)
    (after : va.lockedCoins later = some rest) : rest ≤ locked := by
  rw [wf.lockedCoins_eq] at before after
  obtain rfl := Option.some.inj before
  obtain rfl := Option.some.inj after
  -- Both schedules only grow, and so does their minimum.
  have vested : va.getVestedCoins earlier ≤ va.getVestedCoins later :=
    inf_le_inf (wf.getUnlockedOnly_mono order) (wf.getVestedOnly_mono order)
  exact tsub_le_tsub_right (tsub_le_tsub_left vested _) _

/-- A merged grant locks at most its own coins in addition, if no delegation was slashed. -/
theorem WellFormed.addGrant_locked {ctx : Context} {merged : ClawbackVestingAccount}
    {lockupPeriods vestingPeriods : Periods} {coins : Coins} (wf : va.WellFormed) {startTime : ℤ}
    (lockupForward : Forward lockupPeriods) (vestingForward : Forward vestingPeriods)
    (lockupTotal : totalAmount lockupPeriods = coins)
    (vestingTotal : totalAmount vestingPeriods = coins)
    (granted : Vesting.addGrant ctx va startTime lockupPeriods vestingPeriods coins = .ok merged)
    (recorded : va.delegatedVesting ≤ ctx.delegated va.address) :
    merged.originalVesting - merged.getVestedCoins ctx.blockTime - merged.delegatedVesting ≤
        va.originalVesting - va.getVestedCoins ctx.blockTime - va.delegatedVesting + coins ∧
      merged.delegatedVesting ≤ ctx.delegated va.address := by
  obtain ⟨vesting, computed, -, equation⟩ := wf.addGrant_eq ctx startTime lockupForward
    vestingForward lockupTotal vestingTotal
  have vested := wf.getVestedCoins_le_withGrant startTime lockupForward vestingForward lockupTotal
    vestingTotal ctx.blockTime
  -- The source caps the delegations at what is vesting.
  obtain rfl := Except.ok.inj (equation.symm.trans granted)
  have schedules := wf.withGrant startTime lockupForward vestingForward lockupTotal vestingTotal
  rw [schedules.getVestingCoins_eq] at computed
  obtain rfl := Option.some.inj computed
  exact ⟨locked_add_le vested recorded, inf_le_left⟩

theorem WellFormed.clawedBack_locked (wf : va.WellFormed) {time : Time} {locked rest : Coins}
    (before : va.lockedCoins time = some locked)
    (after : (va.clawedBack (unix time)).lockedCoins time = some rest) : rest ≤ locked := by
  rw [wf.clawedBack_lockedCoins] at after
  rw [wf.lockedCoins_eq] at before
  obtain rfl := Option.some.inj before
  obtain rfl := Option.some.inj after
  intro denom
  -- Less was granted, of which as much is vested.
  have bounded := wf.getVestedOnly_le time denom
  simp only [Coins.min, getVestedCoins, DFinsupp.tsub_apply, DFinsupp.inf_apply] at bounded ⊢
  omega

end ClawbackVestingAccount

/-- An account has what it locks, and its vesting delegations are delegated. -/
structure Held (ctx : Context) (balance : Coins) (va : ClawbackVestingAccount) : Prop where
  covered : ∀ locked, va.lockedCoins ctx.blockTime = some locked → locked ≤ balance
  delegated : va.delegatedVesting ≤ ctx.delegated va.address

/-- The vesting accounts of users have what they lock. -/
def Funded (users : Set Address) (ctx : Context) (s : State) : Prop :=
  ∀ addr ∈ users, ∀ va, s.accounts addr = some (.clawback va) → Held ctx (s.balances addr) va

section Messages

variable {users : Set Address} {bech32 : Bech32} {ctx : Context} {s after : State}

theorem State.clawback_of_ensureAccount {toAddr addr : Address} {va : ClawbackVestingAccount}
    (stored : (s.ensureAccount toAddr).accounts addr = some (.clawback va)) :
    s.accounts addr = some (.clawback va) := by
  unfold State.ensureAccount at stored
  -- The account was there, or it is a base account.
  split at stored
  · exact stored
  · simp only [State.setAccount, Function.update_apply] at stored
    split_ifs at stored
    · simp [baseAccount] at stored
    · exact stored

/-- A transfer takes no locked coins, and may bring the coins that are locked. -/
theorem Funded.sendCoins {fromAddr toAddr : Address} {amt : Coins}
    (funds : ∀ addr ∈ users, ∀ va, s.accounts addr = some (.clawback va) →
      Held ctx (s.balances addr + if addr = toAddr then amt else 0) va)
    (sent : s.sendCoins ctx.blockTime fromAddr toAddr amt = .ok after) : Funded users ctx after := by
  obtain ⟨paid, found, covered, rfl⟩ := State.sendCoins_ok sent
  intro addr user va stored
  have before : s.accounts addr = some (.clawback va) := by
    have unmoved := State.clawback_of_ensureAccount stored
    exact unmoved
  have held := funds addr user va before
  have moved := Bank.moveCoins_add (le_of_covers covered) toAddr addr
  refine ⟨?_, held.delegated⟩
  intro locked locks
  have enough := held.covered locked locks
  rw [State.ensureAccount_balances]
  show locked ≤ moveCoins s.balances fromAddr toAddr amt addr
  by_cases payer : addr = fromAddr
  · -- The sender pays with what it does not lock.
    subst payer
    rw [State.lockedCoins, before] at found
    obtain rfl := Option.some.inj (found.symm.trans locks)
    rw [if_pos rfl] at moved
    intro denom
    have spends := covers_iff.mp covered denom
    have moved := DFunLike.congr_fun moved denom
    have enough := enough denom
    simp only [DFinsupp.add_apply] at moved enough
    show paid denom ≤ _
    omega
  · rw [if_neg payer, add_zero] at moved
    rw [moved]
    exact enough

/-- The account of a grant is held once the coins of the grant have arrived. -/
theorem Funded.grantAccount {fromAddr toAddr : Address} {msg : MsgCreateClawbackVestingAccount}
    {coins : Coins} {va : ClawbackVestingAccount} (funded : Funded users ctx s) (wf : s.WellFormed)
    (lockup : Forward msg.lockupPeriods) (vesting : Forward msg.vestingPeriods)
    (lockupTotal : totalAmount msg.lockupPeriods = coins)
    (vestingTotal : totalAmount msg.vestingPeriods = coins)
    (granted : Vesting.grantAccount bech32 ctx s fromAddr toAddr msg coins = .ok va) :
    va.address = toAddr ∧ (toAddr ∈ users → Held ctx (s.balances toAddr + coins) va) := by
  have account := wf.grantAccount lockup vesting lockupTotal vestingTotal granted
  unfold Vesting.grantAccount at granted
  split at granted
  · -- The grant is merged into an account that had what it locked.
    next existing found =>
    split_ifs at granted
    obtain ⟨old, own⟩ := wf toAddr existing found
    have address := (old.addGrant lockup vesting lockupTotal vestingTotal granted).2
    refine ⟨address.trans own, ?_⟩
    intro user
    have held := funded toAddr user existing found
    obtain ⟨bound, recorded⟩ := old.addGrant_locked lockup vesting lockupTotal vestingTotal granted
      held.delegated
    refine ⟨?_, by rwa [address]⟩
    intro locked locks
    rw [account.lockedCoins_eq] at locks
    obtain rfl := Option.some.inj locks
    exact bound.trans (add_le_add_left (held.covered _ (old.lockedCoins_eq _)) _)
  · split_ifs at granted
  · -- A new account locks no more than its coins, and has delegated nothing.
    obtain rfl := Except.ok.inj granted
    refine ⟨rfl, fun _ => ⟨?_, zero_le⟩⟩
    intro locked locks
    rw [account.lockedCoins_eq] at locks
    obtain rfl := Option.some.inj locks
    exact (tsub_le_self.trans tsub_le_self).trans le_add_self

theorem Funded.create {msg : MsgCreateClawbackVestingAccount} (funded : Funded users ctx s)
    (wf : s.WellFormed) (accepted : msg.validateBasic bech32 = .ok ())
    (delivered : createClawbackVestingAccount bech32 ctx s msg = .ok after) :
    Funded users ctx after := by
  obtain ⟨fromAddr, toAddr, va, -, -, totals, granted, sent⟩ :=
    createClawbackVestingAccount_ok delivered
  obtain ⟨lockup, vesting⟩ := MsgCreateClawbackVestingAccount.validateBasic_forward accepted
  obtain ⟨lockup, vesting⟩ := MsgCreateClawbackVestingAccount.withDefaults_forward lockup vesting
  obtain ⟨own, held⟩ := funded.grantAccount wf lockup vesting totals rfl granted
  refine .sendCoins ?_ sent
  intro addr user stored found
  simp only [State.setAccount, Function.update_apply] at found
  split_ifs at found with here
  · obtain rfl := Account.clawback.inj (Option.some.inj found)
    rw [here, own] at user ⊢
    rw [if_pos rfl]
    exact held user
  · -- Other accounts have what they had.
    have held := funded addr user stored found
    refine ⟨?_, held.delegated⟩
    intro locked locks
    exact (held.covered locked locks).trans le_self_add

theorem Funded.clawback {msg : MsgClawback} (funded : Funded users ctx s) (wf : s.WellFormed)
    (delivered : clawback bech32 ctx s msg = .ok after) : Funded users ctx after := by
  obtain ⟨owner, dest, va, -, found, -, -, transferred⟩ := clawback_ok delivered
  obtain ⟨updated, taken, computed, ⟨-, rfl⟩ | ⟨some, sent⟩⟩ := transferClawback_ok transferred
  · exact funded
  refine .sendCoins ?_ sent
  intro addr user other stored
  simp only [State.setAccount, Function.update_apply] at stored
  split_ifs at stored with here
  · obtain rfl := Account.clawback.inj (Option.some.inj stored)
    obtain ⟨old, own⟩ := wf owner va found
    have address := (old.computeClawback computed).2
    rw [here, address, own] at user ⊢
    have held := funded owner user va found
    -- Something is taken, so the vesting has begun.
    have begun : ¬unix ctx.blockTime < va.getStartTime := by
      intro early
      rw [ClawbackVestingAccount.computeClawback, if_pos early] at computed
      exact some (Prod.mk.inj (Option.some.inj computed)).2.symm
    rw [old.computeClawback_eq (not_lt.mp begun)] at computed
    obtain ⟨rfl, -⟩ := Prod.mk.inj (Option.some.inj computed)
    refine ⟨?_, held.delegated⟩
    intro locked locks
    have before := old.lockedCoins_eq ctx.blockTime
    exact ((old.clawedBack_locked before locks).trans (held.covered _ before)).trans le_self_add
  · have held := funded addr user other stored
    refine ⟨?_, held.delegated⟩
    intro locked locks
    exact (held.covered locked locks).trans le_self_add

end Messages

end Evmos.Vesting
