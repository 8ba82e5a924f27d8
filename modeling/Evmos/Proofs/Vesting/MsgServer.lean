import Evmos.Proofs.Vesting.Account
import Evmos.Vesting.Chain

/-! Every vesting account of the chain is well formed, whatever grants and clawbacks it went through. -/

namespace Evmos.Vesting

open Library

theorem validatePeriods_positive {index : ℕ} {periods : Periods}
    (accepted : validatePeriods index periods = .ok ()) : ∀ period ∈ periods, 1 ≤ period.length := by
  induction periods generalizing index with
  | nil => simp
  | cons period rest ih =>
    rw [validatePeriods] at accepted
    -- A period shorter than a second is refused.
    split_ifs at accepted with short
    exact List.forall_mem_cons.mpr ⟨by omega, ih accepted⟩

variable {s after : State} {bech32 : Bech32} {msg : MsgCreateClawbackVestingAccount} {ctx : Context}
  {blockTime : Time}

theorem MsgCreateClawbackVestingAccount.validateBasic_positive
    (accepted : msg.validateBasic bech32 = .ok ()) :
    (∀ period ∈ msg.lockupPeriods, 1 ≤ period.length) ∧
      ∀ period ∈ msg.vestingPeriods, 1 ≤ period.length := by
  unfold MsgCreateClawbackVestingAccount.validateBasic at accepted
  obtain ⟨_, _, accepted⟩ := bind_eq_ok.mp accepted
  obtain ⟨_, _, accepted⟩ := bind_eq_ok.mp accepted
  -- The two addresses are checked before the schedules.
  obtain ⟨_, lockup, accepted⟩ := bind_eq_ok.mp accepted
  obtain ⟨_, vesting, -⟩ := bind_eq_ok.mp accepted
  exact ⟨validatePeriods_positive lockup, validatePeriods_positive vesting⟩

theorem MsgCreateClawbackVestingAccount.validateBasic_forward
    (accepted : msg.validateBasic bech32 = .ok ()) :
    Forward msg.lockupPeriods ∧ Forward msg.vestingPeriods := by
  obtain ⟨lockup, vesting⟩ := validateBasic_positive accepted
  exact ⟨fun period member => (lockup period member).trans' (by decide),
    fun period member => (vesting period member).trans' (by decide)⟩

theorem MsgCreateClawbackVestingAccount.withDefaults_forward
    (lockupForward : Forward msg.lockupPeriods) (vestingForward : Forward msg.vestingPeriods) :
    Forward msg.withDefaults.lockupPeriods ∧ Forward msg.withDefaults.vestingPeriods := by
  simp only [withDefaults]
  constructor <;> split_ifs <;> simp [lockupForward, vestingForward]

/-- The account that `addGrant` puts together before it looks at the delegations. -/
def ClawbackVestingAccount.withGrant (va : ClawbackVestingAccount) (startTime : ℤ)
    (lockupPeriods vestingPeriods : Periods) (coins : Coins) : ClawbackVestingAccount :=
  let lockup := disjunctPeriods va.getStartTime startTime va.lockupPeriods lockupPeriods
  let vesting := disjunctPeriods va.getStartTime startTime va.vestingPeriods vestingPeriods
  { va with
    startTime := ofUnix (min va.getStartTime startTime)
    endTime := max lockup.2.1 vesting.2.1
    lockupPeriods := lockup.2.2
    vestingPeriods := vesting.2.2
    originalVesting := va.originalVesting + coins }

/-- What the grantee really has delegated, as `addGrant` asks for it. -/
def Context.delegated (ctx : Context) (address : Address) : Coins :=
  Coins.ofCoin ctx.bondDenom (ctx.delegatorBonded address + ctx.delegatorUnbonding address)

section Grants

variable {va : ClawbackVestingAccount} {lockupPeriods vestingPeriods : Periods} {coins : Coins}

/-- Both schedules of a well-formed account can take up a grant. -/
theorem ClawbackVestingAccount.WellFormed.withGrant (wf : va.WellFormed) (startTime : ℤ)
    (lockupForward : Forward lockupPeriods) (vestingForward : Forward vestingPeriods)
    (lockupTotal : totalAmount lockupPeriods = coins)
    (vestingTotal : totalAmount vestingPeriods = coins) :
    (va.withGrant startTime lockupPeriods vestingPeriods coins).WellFormed := by
  have lockup := disjunctPeriods_spec va.getStartTime startTime wf.lockupForward lockupForward
  have vesting := disjunctPeriods_spec va.getStartTime startTime wf.vestingForward vestingForward
  -- Each schedule is merged with that of the grant, and ends with it.
  refine ⟨lockup.forward, vesting.forward, ?_, ?_, ?_⟩
  · exact lockup.total.trans (by rw [wf.lockupTotal, lockupTotal]; rfl)
  · exact vesting.total.trans (by rw [wf.vestingTotal, vestingTotal]; rfl)
  · simp only [ClawbackVestingAccount.withGrant, ClawbackVestingAccount.getStartTime, unix_ofUnix]
    exact congrArg₂ max lockup.ends vesting.ends

/-- Merging a grant caps the vesting delegations at what is then vesting, and does not panic. -/
theorem ClawbackVestingAccount.WellFormed.addGrant_eq (wf : va.WellFormed) (ctx : Context)
    (startTime : ℤ) (lockupForward : Forward lockupPeriods) (vestingForward : Forward vestingPeriods)
    (lockupTotal : totalAmount lockupPeriods = coins)
    (vestingTotal : totalAmount vestingPeriods = coins) :
    ∃ vesting, (va.withGrant startTime lockupPeriods vestingPeriods coins).getVestingCoins
        ctx.blockTime = some vesting ∧
      vesting ≤ va.originalVesting + coins ∧
      Vesting.addGrant ctx va startTime lockupPeriods vestingPeriods coins =
        .ok { va.withGrant startTime lockupPeriods vestingPeriods coins with
          delegatedVesting := Coins.min (ctx.delegated va.address) vesting
          delegatedFree := ctx.delegated va.address -
            Coins.min (ctx.delegated va.address) vesting } := by
  have merged := wf.withGrant startTime lockupForward vestingForward lockupTotal vestingTotal
  have computed := merged.getVestingCoins_eq ctx.blockTime
  refine ⟨_, computed, tsub_le_self, ?_⟩
  -- Both schedules start at the earlier of the two starts, so they cannot disagree.
  simp only [Vesting.addGrant, disjunctPeriods, ne_eq, not_true_eq_false, if_false]
  exact bind_eq_ok.mpr ⟨_, orPanic_eq_ok.mpr computed, rfl⟩

theorem ClawbackVestingAccount.WellFormed.addGrant {ctx : Context} {merged : ClawbackVestingAccount}
    (wf : va.WellFormed) {startTime : ℤ} (lockupForward : Forward lockupPeriods)
    (vestingForward : Forward vestingPeriods) (lockupTotal : totalAmount lockupPeriods = coins)
    (vestingTotal : totalAmount vestingPeriods = coins)
    (granted : Vesting.addGrant ctx va startTime lockupPeriods vestingPeriods coins = .ok merged) :
    merged.WellFormed ∧ merged.address = va.address := by
  obtain ⟨vesting, -, -, computed⟩ := wf.addGrant_eq ctx startTime lockupForward vestingForward
    lockupTotal vestingTotal
  obtain rfl := Except.ok.inj (computed.symm.trans granted)
  -- The delegations that are recorded again are no part of the schedules.
  have schedules := wf.withGrant startTime lockupForward vestingForward lockupTotal vestingTotal
  exact ⟨⟨schedules.lockupForward, schedules.vestingForward, schedules.lockupTotal,
    schedules.vestingTotal, schedules.ends⟩, rfl⟩

end Grants

/-- Everything that follows from a grant that was delivered. -/
theorem createClawbackVestingAccount_ok
    (delivered : createClawbackVestingAccount bech32 ctx s msg = .ok after) :
    ∃ fromAddr toAddr va, bech32.decode msg.fromAddress = some fromAddr ∧
      bech32.decode msg.toAddress = some toAddr ∧
      totalAmount msg.withDefaults.lockupPeriods = totalAmount msg.withDefaults.vestingPeriods ∧
      grantAccount bech32 ctx s fromAddr toAddr msg.withDefaults
        (totalAmount msg.withDefaults.vestingPeriods) = .ok va ∧
      (s.setAccount va.address (.clawback va)).sendCoins ctx.blockTime fromAddr toAddr
        (totalAmount msg.withDefaults.vestingPeriods) = .ok after := by
  unfold createClawbackVestingAccount at delivered
  obtain ⟨fromAddr, sender, delivered⟩ := bind_eq_ok.mp delivered
  obtain ⟨toAddr, recipient, delivered⟩ := bind_eq_ok.mp delivered
  split at delivered
  · cases delivered
  simp only at delivered
  split at delivered
  · cases delivered
  · rename_i equal
    obtain ⟨va, granted, sent⟩ := bind_eq_ok.mp delivered
    refine ⟨fromAddr, toAddr, va, orPanic_eq_ok.mp sender, orPanic_eq_ok.mp recipient, ?_, granted,
      sent⟩
    -- Neither total exceeds the other.
    simp only [Bool.not_eq_true', Bool.not_eq_false, Bool.and_eq_true, Coins.isAllLTE_iff] at equal
    exact le_antisymm equal.2 equal.1

theorem State.sendCoins_ok {fromAddr toAddr : Address} {amt : Coins}
    (sent : s.sendCoins blockTime fromAddr toAddr amt = .ok after) :
    ∃ locked, s.lockedCoins fromAddr blockTime = some locked ∧
      covers (s.balances fromAddr) locked amt = true ∧
      after = { s with balances := moveCoins s.balances fromAddr toAddr amt }.ensureAccount toAddr := by
  unfold State.sendCoins at sent
  obtain ⟨locked, found, sent⟩ := bind_eq_ok.mp sent
  -- A transfer of more than is spendable is refused.
  split_ifs at sent with covered
  exact ⟨locked, orPanic_eq_ok.mp found, covered, (Except.ok.inj sent).symm⟩

/-- Everything that follows from a clawback that was delivered. -/
theorem clawback_ok {msg : MsgClawback} (delivered : clawback bech32 ctx s msg = .ok after) :
    ∃ addr dest va, bech32.decode msg.accountAddress = some addr ∧
      s.accounts addr = some (.clawback va) ∧ va.funderAddress = msg.funderAddress ∧
      va.startTime ≤ ctx.blockTime ∧ transferClawback ctx s va dest = .ok after := by
  unfold clawback at delivered
  obtain ⟨dest, -, delivered⟩ := bind_eq_ok.mp delivered
  obtain ⟨addr, account, delivered⟩ := bind_eq_ok.mp delivered
  split_ifs at delivered with blocked
  -- There is no account, or one of another kind.
  split at delivered
  · simp at delivered
  · simp at delivered
  · rename_i va found
    split_ifs at delivered with otherFunder early
    exact ⟨addr, dest, va, orPanic_eq_ok.mp account, found, not_not.mp otherFunder,
      not_lt.mp early, delivered⟩

/-- A transfer of clawed back coins stores the account it computed, or changes nothing. -/
theorem transferClawback_ok {va : ClawbackVestingAccount} {dest : Address}
    (delivered : transferClawback ctx s va dest = .ok after) :
    ∃ updated taken, va.computeClawback (unix ctx.blockTime) = some (updated, taken) ∧
      (taken = 0 ∧ after = s ∨
        taken ≠ 0 ∧ (s.setAccount updated.address (.clawback updated)).sendCoins ctx.blockTime
          updated.address dest taken = .ok after) := by
  unfold transferClawback at delivered
  obtain ⟨⟨updated, taken⟩, computed, delivered⟩ := bind_eq_ok.mp delivered
  refine ⟨updated, taken, orPanic_eq_ok.mp computed, ?_⟩
  simp only at delivered
  -- Nothing is written if there is nothing to take.
  split_ifs at delivered with nothing
  · exact .inl ⟨(Coins.isZero_iff _).mp nothing, (Except.ok.inj delivered).symm⟩
  · exact .inr ⟨fun zero => nothing ((Coins.isZero_iff _).mpr zero), delivered⟩

theorem State.delegateCoins_ok {delegator : Address} {amount : Coins}
    (delivered : s.delegateCoins blockTime delegator amount = .ok after) :
    amount ≤ s.balances delegator ∧
      after.balances = Function.update s.balances delegator (s.balances delegator - amount) ∧
      ((∃ va tracked, s.accounts delegator = some (.clawback va) ∧
          va.trackDelegation blockTime amount = some tracked ∧
          after.accounts = Function.update s.accounts tracked.address (some (.clawback tracked))) ∨
        ((∀ va, s.accounts delegator ≠ some (.clawback va)) ∧ after.accounts = s.accounts)) := by
  unfold State.delegateCoins at delivered
  split_ifs at delivered with covered
  refine ⟨(Coins.isAllLTE_iff _ _).mp covered, ?_⟩
  -- Only a vesting account records the delegation.
  split at delivered
  · rename_i va found
    obtain ⟨tracked, recorded, delivered⟩ := bind_eq_ok.mp delivered
    obtain rfl := Except.ok.inj delivered
    exact ⟨rfl, .inl ⟨va, tracked, found, orPanic_eq_ok.mp recorded, rfl⟩⟩
  · rename_i other
    obtain rfl := Except.ok.inj delivered
    exact ⟨rfl, .inr ⟨other, rfl⟩⟩

/-- Every vesting account of the auth store is well formed and stored at its own address. -/
def State.WellFormed (s : State) : Prop :=
  ∀ address va, s.accounts address = some (.clawback va) → va.WellFormed ∧ va.address = address

theorem State.WellFormed.of_accounts (wf : s.WellFormed) (same : after.accounts = s.accounts) :
    after.WellFormed :=
  fun address va found => wf address va (same ▸ found)

theorem State.WellFormed.setAccount (wf : s.WellFormed) {va : ClawbackVestingAccount}
    (account : va.WellFormed) : (s.setAccount va.address (.clawback va)).WellFormed := by
  intro address other found
  simp only [State.setAccount, Function.update_apply] at found
  -- The account found is the new one, or another.
  split_ifs at found with here
  · obtain rfl := Account.clawback.inj (Option.some.inj found)
    exact ⟨account, here.symm⟩
  · exact wf address other found

theorem State.WellFormed.ensureAccount (wf : s.WellFormed) (toAddr : Address) :
    (s.ensureAccount toAddr).WellFormed := by
  unfold State.ensureAccount
  -- The account is there, or a base account is created.
  split
  · exact wf
  · intro address va found
    simp only [State.setAccount, Function.update_apply] at found
    split_ifs at found with here
    · simp [baseAccount] at found
    · exact wf address va found

theorem State.WellFormed.sendCoins (wf : s.WellFormed) {fromAddr toAddr : Address} {amt : Coins}
    (sent : s.sendCoins blockTime fromAddr toAddr amt = .ok after) : after.WellFormed := by
  obtain ⟨_, -, -, rfl⟩ := State.sendCoins_ok sent
  have moved : State.WellFormed { s with balances := moveCoins s.balances fromAddr toAddr amt } :=
    wf.of_accounts rfl
  exact moved.ensureAccount toAddr

/-- The account a grant creates or merges into is well formed. -/
theorem State.WellFormed.grantAccount (wf : s.WellFormed) {fromAddr toAddr : Address}
    {coins : Coins} {va : ClawbackVestingAccount} (lockupForward : Forward msg.lockupPeriods)
    (vestingForward : Forward msg.vestingPeriods)
    (lockupTotal : totalAmount msg.lockupPeriods = coins)
    (vestingTotal : totalAmount msg.vestingPeriods = coins)
    (granted : Vesting.grantAccount bech32 ctx s fromAddr toAddr msg coins = .ok va) :
    va.WellFormed := by
  unfold Vesting.grantAccount at granted
  -- A vesting account takes the grant up, another one is refused, and a new one is made.
  split at granted
  · rename_i existing found
    split_ifs at granted
    exact ((wf toAddr existing found).1.addGrant lockupForward vestingForward lockupTotal
      vestingTotal granted).1
  · split_ifs at granted
  · obtain rfl := Except.ok.inj granted
    exact ClawbackVestingAccount.wellFormed_new lockupForward vestingForward lockupTotal vestingTotal

theorem State.WellFormed.create (wf : s.WellFormed) (accepted : msg.validateBasic bech32 = .ok ())
    (delivered : createClawbackVestingAccount bech32 ctx s msg = .ok after) : after.WellFormed := by
  obtain ⟨fromAddr, toAddr, va, -, -, totals, granted, sent⟩ :=
    createClawbackVestingAccount_ok delivered
  obtain ⟨lockup, vesting⟩ := MsgCreateClawbackVestingAccount.validateBasic_forward accepted
  obtain ⟨lockup, vesting⟩ := MsgCreateClawbackVestingAccount.withDefaults_forward lockup vesting
  exact (wf.setAccount (wf.grantAccount lockup vesting totals rfl granted)).sendCoins sent

theorem State.WellFormed.clawback (wf : s.WellFormed) {msg : MsgClawback}
    (delivered : Vesting.clawback bech32 ctx s msg = .ok after) : after.WellFormed := by
  obtain ⟨addr, dest, va, -, found, -, -, transferred⟩ := clawback_ok delivered
  -- The computed account is stored before it pays.
  obtain ⟨updated, taken, computed, ⟨-, unchanged⟩ | ⟨-, sent⟩⟩ := transferClawback_ok transferred
  · exact unchanged ▸ wf
  · exact (wf.setAccount ((wf addr va found).1.computeClawback computed).1).sendCoins sent

theorem State.WellFormed.delegateCoins (wf : s.WellFormed) {delegator : Address} {amount : Coins}
    (delivered : s.delegateCoins blockTime delegator amount = .ok after) : after.WellFormed := by
  obtain ⟨-, -, ⟨va, tracked, found, recorded, stored⟩ | ⟨-, same⟩⟩ :=
    State.delegateCoins_ok delivered
  · -- The record is made in the account alone.
    have account := (wf delegator va found).1.trackDelegation recorded
    exact (wf.setAccount account).of_accounts stored
  · exact wf.of_accounts same

/-- Whatever happens to the chain, every vesting account stays well formed. -/
theorem Step.wellFormed {before after : Chain} {action : Action} (wf : before.state.WellFormed)
    (taken : Step bech32 before action after) : after.state.WellFormed := by
  -- One lemma for each message and the bank.
  cases taken with
  | beginBlock _ => exact wf
  | create _ accepted delivered => exact wf.create accepted delivered
  | clawback _ _ delivered => exact wf.clawback delivered
  | delegate _ delivered => exact wf.delegateCoins delivered
  | send delivered => exact wf.sendCoins delivered

theorem Chain.wellFormed_of_run {origin reached : Chain} {actions : List Action}
    (fresh : ∀ address va, origin.state.accounts address ≠ some (.clawback va))
    (run : Run (Step bech32) origin actions reached) : reached.state.WellFormed :=
  run.invariant (·.state.WellFormed) Step.wellFormed fun address va found =>
    absurd found (fresh address va)

/--
Every vesting account the chain reaches is well formed, and reads its schedules as plain steps.

Schedules run in Unix seconds, so the start stands for the whole second it falls in.
-/
theorem reachable_account_reads_steps (bech32 : Bech32) {origin reached : Chain}
    {actions : List Action}
    (fresh : ∀ address va, origin.state.accounts address ≠ some (.clawback va))
    (run : Run (Step bech32) origin actions reached) {address : Address}
    {va : ClawbackVestingAccount} (found : reached.state.accounts address = some (.clawback va)) :
    totalAmount va.lockupPeriods = va.originalVesting ∧
      totalAmount va.vestingPeriods = va.originalVesting ∧
      va.endTime = max (va.getStartTime + totalLength va.lockupPeriods)
        (va.getStartTime + totalLength va.vestingPeriods) ∧
      (∀ time, unix time ≠ va.getStartTime →
        va.getUnlockedOnly time =
            readAt (eventsFrom va.getStartTime va.lockupPeriods) (unix time) ∧
          va.getVestedOnly time =
            readAt (eventsFrom va.getStartTime va.vestingPeriods) (unix time)) ∧
      (∀ earlier later, earlier ≤ later →
        va.getUnlockedOnly earlier ≤ va.getUnlockedOnly later ∧
          va.getVestedOnly earlier ≤ va.getVestedOnly later) ∧
      (∀ time, va.getUnlockedOnly time ≤ va.originalVesting ∧
        va.getVestedOnly time ≤ va.originalVesting) ∧
      ∀ time, (va.getVestingCoins time).isSome ∧ (va.getLockedOnly time).isSome ∧
        (va.getUnvestedOnly time).isSome := by
  -- All of it is known of well-formed accounts.
  have wf := (Chain.wellFormed_of_run fresh run address va found).1
  refine ⟨wf.lockupTotal, wf.vestingTotal, wf.ends, fun time notStart => ?_,
    fun earlier later order => ?_, fun time => ?_, fun time => ?_⟩
  · exact ⟨wf.getUnlockedOnly_eq notStart, wf.getVestedOnly_eq notStart⟩
  · exact ⟨wf.getUnlockedOnly_mono order, wf.getVestedOnly_mono order⟩
  · exact ⟨wf.getUnlockedOnly_le time, wf.getVestedOnly_le time⟩
  · rw [wf.getVestingCoins_eq, wf.getLockedOnly_eq, wf.getUnvestedOnly_eq]
    exact ⟨rfl, rfl, rfl⟩

/-- A block in which nobody is blocked and nothing is staked. -/
def quietContext (blockTime : Time) : Context where
  blockTime := blockTime
  blockedAddr _ := false
  bondDenom := "aevmos"
  delegatorBonded _ := 0
  delegatorUnbonding _ := 0

/-- A chain on which one account holds a hundred coins. -/
def fundedChain : Chain where
  state :=
    { accounts := fun address => if address = 1 then some baseAccount else none
      balances := fun address => if address = 1 then Coins.ofCoin "aevmos" 100 else 0 }
  blockTime := 0

/-- A grant of a hundred coins in two vesting periods, unlocked at once. -/
def halvesGrant : MsgCreateClawbackVestingAccount where
  fromAddress := "1"
  toAddress := "11"
  startTime := 0
  lockupPeriods := []
  vestingPeriods := [⟨10, Coins.ofCoin "aevmos" 50⟩, ⟨10, Coins.ofCoin "aevmos" 50⟩]
  merge := false

/-- The account that grant creates reads its schedules as plain steps. -/
theorem halvesGrant_account_reads_steps :
    ∃ s va, createClawbackVestingAccount .unary (quietContext 0) fundedChain.state halvesGrant =
        .ok s ∧ s.accounts 2 = some (.clawback va) ∧
      va.getVestedOnly (15 * second) =
        readAt (eventsFrom va.getStartTime va.vestingPeriods) (unix (15 * second)) := by
  -- The only accounts are base accounts.
  have fresh : ∀ address va, fundedChain.state.accounts address ≠ some (.clawback va) := by
    intro address va
    simp only [fundedChain]
    split_ifs <;> simp [baseAccount]
  have accepted : halvesGrant.validateBasic .unary = .ok () := by decide
  have created : ∃ s va, createClawbackVestingAccount .unary (quietContext 0) fundedChain.state
      halvesGrant = .ok s ∧ s.accounts 2 = some (.clawback va) ∧ va.startTime = 0 :=
    ⟨_, _, rfl, rfl, rfl⟩
  obtain ⟨s, va, delivered, found, start⟩ := created
  have notStart : unix (15 * second) ≠ va.getStartTime := by
    rw [ClawbackVestingAccount.getStartTime, start]
    decide
  have reads := (reachable_account_reads_steps .unary fresh
    (.extend .start (.create rfl accepted delivered)) found).2.2.2.1
  exact ⟨s, va, delivered, found, (reads _ notStart).2⟩

end Evmos.Vesting
