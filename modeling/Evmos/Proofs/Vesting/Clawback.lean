import Evmos.Proofs.Vesting.MsgServer

/-!
When unvested coins can be clawed back.

The decorator compares each delegation with all coins vested so far, and tracking a delegation
counts vesting coins as delegated first. Neither keeps the unvested coins in the balance, so the
clawback of a grantee who delegates twice, or who delegates and then sends, can fail.
-/

namespace Evmos.Vesting

open Library

@[simp] theorem ClawbackVestingAccount.getVestedOnly_ofUnix (va : ClawbackVestingAccount)
    (time : Time) : va.getVestedOnly (ofUnix (unix time)) = va.getVestedOnly time := by
  simp [getVestedOnly]

@[simp] theorem ClawbackVestingAccount.clawedBack_address (va : ClawbackVestingAccount)
    (clawbackTime : ℤ) : (va.clawedBack clawbackTime).address = va.address := rfl

theorem ClawbackVestingAccount.WellFormed.clawedBack_lockedCoins {va : ClawbackVestingAccount}
    (wf : va.WellFormed) (time : Time) :
    (va.clawedBack (unix time)).lockedCoins time =
      some (va.getVestedOnly time - va.getUnlockedOnly time ⊓ va.getVestedOnly time -
        (va.getVestedOnly time - va.getUnlockedOnly time ⊓ va.getVestedOnly time) ⊓
          va.delegatedVesting) := by
  have original : (va.clawedBack (unix time)).originalVesting = va.getVestedOnly time :=
    va.getVestedOnly_ofUnix time
  rw [lockedCoins, (wf.clawedBack (unix time)).getVestingCoins_eq, original,
    wf.clawedBack_getUnlockedOnly, wf.clawedBack_getVestedOnly, va.getVestedOnly_ofUnix, inf_idem,
    inf_assoc, inf_idem]
  rfl

@[simp] theorem State.ensureAccount_balances (s : State) (address : Address) :
    (s.ensureAccount address).balances = s.balances := by
  unfold State.ensureAccount
  split <;> rfl

theorem State.ensureAccount_accounts {s : State} {address : Address} {account : Account}
    (found : s.accounts address = some account) (recipient : Address) :
    (s.ensureAccount recipient).accounts address = some account := by
  unfold State.ensureAccount
  split
  · exact found
  · rename_i absent
    -- An account is created only where there is none.
    have elsewhere : address ≠ recipient := fun same => by simp [same, absent] at found
    simpa [State.setAccount, elsewhere] using found

variable {balance : Coins} {bech32 : Bech32}

/-- Spendable coins cover an amount when they do so in every denomination it names. -/
theorem covers_iff {locked amt : Coins} :
    covers balance locked amt = true ↔
      ∀ denom, amt denom ≠ 0 → locked denom + amt denom ≤ balance denom := by
  simp [covers]

theorem le_of_covers {locked amt : Coins} (covered : covers balance locked amt = true) :
    amt ≤ balance := by
  intro denom
  have covered := covers_iff.mp covered denom
  show amt denom ≤ balance denom
  omega

theorem vesting_le_delegated {vesting delegated amount : Coins}
    (backed : vesting ≤ balance + delegated) (enough : amount ≤ balance) :
    vesting ≤ balance - amount + (delegated + (vesting - delegated) ⊓ amount) := by
  -- One denomination at a time this is about natural numbers.
  intro denom
  have backed := backed denom
  have enough := enough denom
  simp only [DFinsupp.add_apply, DFinsupp.tsub_apply, DFinsupp.inf_apply]
    at backed enough ⊢
  omega

theorem vesting_le_sent {vesting delegated amount : Coins} (backed : vesting ≤ balance + delegated)
    (covered : covers balance (vesting - vesting ⊓ delegated) amount = true) :
    vesting ≤ balance - amount + delegated := by
  intro denom
  have backed := backed denom
  -- The check of the bank is made for each denomination of the payment.
  have covered := covers_iff.mp covered denom
  simp only [DFinsupp.add_apply, DFinsupp.tsub_apply, DFinsupp.inf_apply]
    at backed covered ⊢
  omega

theorem covers_clawback {original unlocked vested delegated : Coins} (bounded : vested ≤ original)
    (backed : original - unlocked ⊓ vested ≤ balance + delegated)
    (enough : original - vested ≤ balance) :
    covers balance (vested - unlocked ⊓ vested - (vested - unlocked ⊓ vested) ⊓ delegated)
      (original - vested) = true := by
  refine covers_iff.mpr fun denom _ => ?_
  have bounded : vested denom ≤ original denom := bounded denom
  -- What was locked before covers what is taken and what stays locked.
  have backed := backed denom
  have enough := enough denom
  simp only [DFinsupp.add_apply, DFinsupp.tsub_apply, DFinsupp.inf_apply]
    at backed enough ⊢
  omega

theorem State.sendCoins_of_covers {s : State} {blockTime : Time} {fromAddr : Address}
    {locked amt : Coins} (found : s.lockedCoins fromAddr blockTime = some locked)
    (covered : covers (s.balances fromAddr) locked amt = true) (toAddr : Address) :
    s.sendCoins blockTime fromAddr toAddr amt =
      .ok ({ s with balances := moveCoins s.balances fromAddr toAddr amt }.ensureAccount toAddr) := by
  simp [State.sendCoins, found, orPanic, covered, Bind.bind, Except.bind]

/-- The unvested coins of an account at the block time. -/
def Chain.unvested (chain : Chain) (grantee : Address) : Coins :=
  match chain.state.accounts grantee with
  | some (.clawback va) => (va.getUnvestedOnly chain.blockTime).getD 0
  | _ => 0

/-- The actions of a grantee: time passes, and the grantee delegates or sends. -/
def Action.byGrantee (grantee : Address) : Action → Prop
  | .beginBlock _ => True
  | .delegate _ delegator _ => delegator = grantee
  | .send fromAddr _ _ => fromAddr = grantee
  | _ => False

/-- What the grantee gives away leaves the unvested coins in the balance. -/
def LeavesUnvested (grantee : Address) (chain : Chain) : Action → Prop
  | .delegate bondDenom _ amount =>
    chain.unvested grantee + Coins.ofCoin bondDenom amount ≤ chain.state.balances grantee
  -- Coins sent to oneself do not leave the balance.
  | .send _ toAddr amt =>
    toAddr = grantee ∨ chain.unvested grantee + amt ≤ chain.state.balances grantee
  | _ => True

/-- Steps of a chain on which only the grantee acts. -/
def GranteeStep (bech32 : Bech32) (grantee : Address) : Chain → Action → Chain → Prop :=
  Guarded (fun _ action => action.byGrantee grantee) (Step bech32)

/-- A clawback succeeds and moves exactly the unvested coins to the destination. -/
def Reclaims (bech32 : Bech32) (ctx : Context) (chain : Chain) (msg : MsgClawback)
    (grantee dest : Address) : Prop :=
  ∃ va unvested after, chain.state.accounts grantee = some (.clawback va) ∧
    va.getUnvestedOnly chain.blockTime = some unvested ∧
    clawback bech32 ctx chain.state msg = .ok after ∧
    after.balances = moveCoins chain.state.balances grantee dest unvested

/-- The grantee's account, with a balance that a clawback can draw on. -/
structure Backed (grantee : Address) (funder : String) (startTime : Time) (chain : Chain)
    (va : ClawbackVestingAccount) : Prop where
  /-- The account is stored. -/
  found : chain.state.accounts grantee = some (.clawback va)
  /-- The account is well formed. -/
  wf : va.WellFormed
  /-- The account knows its address. -/
  address : va.address = grantee
  /-- The account keeps its funder. -/
  funded : va.funderAddress = funder
  /-- The account keeps its start. -/
  starts : va.startTime = startTime
  /-- Balance and delegated vesting coins together hold the coins locked or vesting. -/
  vesting : va.originalVesting - va.getUnlockedOnly chain.blockTime ⊓
    va.getVestedOnly chain.blockTime ≤ chain.state.balances grantee + va.delegatedVesting
  /-- The balance alone holds the unvested coins. -/
  unvested : va.originalVesting - va.getVestedOnly chain.blockTime ≤ chain.state.balances grantee

variable {grantee : Address} {funder : String} {startTime : Time} {chain : Chain}
  {va : ClawbackVestingAccount}

theorem Backed.unvested_eq (backed : Backed grantee funder startTime chain va) :
    chain.unvested grantee = va.originalVesting - va.getVestedOnly chain.blockTime := by
  simp [Chain.unvested, backed.found, backed.wf.getUnvestedOnly_eq]

theorem Backed.beginBlock (backed : Backed grantee funder startTime chain va) {blockTime : Time}
    (order : chain.blockTime ≤ blockTime) :
    Backed grantee funder startTime { chain with blockTime := blockTime } va where
  found := backed.found
  wf := backed.wf
  address := backed.address
  funded := backed.funded
  starts := backed.starts
  vesting := (tsub_le_tsub_left (inf_le_inf (backed.wf.getUnlockedOnly_mono order)
    (backed.wf.getVestedOnly_mono order)) _).trans backed.vesting
  unvested := (tsub_le_tsub_left (backed.wf.getVestedOnly_mono order) _).trans backed.unvested

/-- A delegation that leaves the unvested coins keeps the account backed. -/
theorem Backed.delegate (backed : Backed grantee funder startTime chain va) {amount : Coins}
    {s : State} (leaves : chain.unvested grantee + amount ≤ chain.state.balances grantee)
    (delivered : chain.state.delegateCoins chain.blockTime grantee amount = .ok s) :
    ∃ tracked, Backed grantee funder startTime { chain with state := s } tracked := by
  obtain ⟨covered, balances, ⟨account, tracked, found, recorded, stored⟩ | ⟨other, -⟩⟩ :=
    State.delegateCoins_ok delivered
  · obtain rfl : account = va := by simpa [backed.found] using found.symm
    have wf := backed.wf.trackDelegation recorded
    -- Vesting coins are recorded first, so the sum does not fall.
    rw [ClawbackVestingAccount.trackDelegation, backed.wf.getVestingCoins_eq, Option.map_some,
      Option.some.injEq] at recorded
    subst recorded
    have balance : s.balances grantee = chain.state.balances grantee - amount := by simp [balances]
    refine ⟨_, by simp [stored, ClawbackVestingAccount.trackDelegationFromVesting, backed.address],
      wf, backed.address, backed.funded, backed.starts, ?_, ?_⟩
    · exact balance ▸ vesting_le_delegated backed.vesting covered
    · exact balance ▸ le_tsub_of_add_le_right (backed.unvested_eq ▸ leaves)
  · exact absurd backed.found (other va)

theorem Backed.lockedCoins (backed : Backed grantee funder startTime chain va) :
    chain.state.lockedCoins grantee chain.blockTime = some (va.lockedCoinsFromVesting
      (va.originalVesting - va.getUnlockedOnly chain.blockTime ⊓
        va.getVestedOnly chain.blockTime)) := by
  simp only [State.lockedCoins, backed.found, ClawbackVestingAccount.lockedCoins,
    backed.wf.getVestingCoins_eq, Option.map_some]

/-- A transfer that leaves the unvested coins keeps the account backed. -/
theorem Backed.send (backed : Backed grantee funder startTime chain va) {toAddr : Address}
    {amt : Coins} {s : State}
    (leaves : toAddr = grantee ∨ chain.unvested grantee + amt ≤ chain.state.balances grantee)
    (delivered : chain.state.sendCoins chain.blockTime grantee toAddr amt = .ok s) :
    Backed grantee funder startTime { chain with state := s } va := by
  obtain ⟨locked, found, covered, rfl⟩ := State.sendCoins_ok delivered
  obtain rfl := Option.some.inj (backed.lockedCoins.symm.trans found)
  have stored := State.ensureAccount_accounts
    (s := { chain.state with balances := moveCoins chain.state.balances grantee toAddr amt })
    backed.found toAddr
  rcases eq_or_ne toAddr grantee with rfl | elsewhere
  · -- Coins sent to oneself come back, since the whole amount was in the balance.
    have balance : moveCoins chain.state.balances toAddr toAddr amt toAddr =
        chain.state.balances toAddr := by
      simp [moveCoins, tsub_add_cancel_of_le (le_of_covers covered)]
    refine ⟨stored, backed.wf, backed.address, backed.funded, backed.starts, ?_, ?_⟩
    · simpa only [State.ensureAccount_balances, balance] using backed.vesting
    · simpa only [State.ensureAccount_balances, balance] using backed.unvested
  · have balance : moveCoins chain.state.balances grantee toAddr amt grantee =
        chain.state.balances grantee - amt := by
      simp [moveCoins, elsewhere.symm]
    have kept := leaves.resolve_left elsewhere
    rw [backed.unvested_eq] at kept
    refine ⟨stored, backed.wf, backed.address, backed.funded, backed.starts, ?_, ?_⟩
    · simpa only [State.ensureAccount_balances, balance] using
        vesting_le_sent backed.vesting covered
    · simpa only [State.ensureAccount_balances, balance] using le_tsub_of_add_le_right kept

theorem Backed.step {action : Action} {after : Chain}
    (backed : Backed grantee funder startTime chain va)
    (taken : Guarded (LeavesUnvested grantee) (GranteeStep bech32 grantee) chain action after) :
    ∃ updated, Backed grantee funder startTime after updated := by
  obtain ⟨leaves, by_grantee, taken⟩ := taken
  -- Grants and clawbacks are not up to the grantee.
  cases taken with
  | beginBlock order => exact ⟨va, backed.beginBlock order⟩
  | create _ _ _ => exact by_grantee.elim
  | clawback _ _ _ => exact by_grantee.elim
  | delegate _ delivered =>
    obtain rfl := by_grantee
    exact backed.delegate leaves delivered
  | send delivered =>
    obtain rfl := by_grantee
    exact ⟨va, backed.send leaves delivered⟩

/-- A new account is backed by the coins it receives. -/
theorem Backed.of_create {ctx : Context} {origin : Chain} {s : State}
    {grant : MsgCreateClawbackVestingAccount} {funder : Address}
    (accepted : grant.validateBasic bech32 = .ok ())
    (sender : bech32.decode grant.fromAddress = some funder)
    (recipient : bech32.decode grant.toAddress = some grantee)
    (absent : origin.state.accounts grantee = none)
    (delivered : createClawbackVestingAccount bech32 ctx origin.state grant = .ok s) :
    ∃ va, Backed grantee (bech32.encode funder) grant.startTime { origin with state := s } va := by
  obtain ⟨fromAddr, toAddr, va, isSender, isRecipient, totals, granted, sent⟩ :=
    createClawbackVestingAccount_ok delivered
  obtain rfl := Option.some.inj (sender.symm.trans isSender)
  obtain rfl := Option.some.inj (recipient.symm.trans isRecipient)
  obtain ⟨lockup, vesting⟩ := MsgCreateClawbackVestingAccount.validateBasic_forward accepted
  obtain ⟨lockup, vesting⟩ := MsgCreateClawbackVestingAccount.withDefaults_forward lockup vesting
  simp only [grantAccount, absent] at granted
  obtain rfl := Except.ok.inj granted
  have wf : (newClawbackVestingAccount grantee (bech32.encode funder) _ grant.startTime _
      _).WellFormed := ClawbackVestingAccount.wellFormed_new lockup vesting totals rfl
  obtain ⟨locked, -, -, rfl⟩ := State.sendCoins_ok sent
  -- The recipient holds at least what was just sent.
  have enough : totalAmount grant.withDefaults.vestingPeriods ≤
      moveCoins origin.state.balances funder grantee
        (totalAmount grant.withDefaults.vestingPeriods) grantee := by
    simp [moveCoins]
  refine ⟨_, ?_, wf, rfl, rfl, rfl, ?_, ?_⟩
  · exact State.ensureAccount_accounts (Function.update_self ..) _
  · rw [State.ensureAccount_balances]
    exact tsub_le_self.trans (enough.trans le_self_add)
  · rw [State.ensureAccount_balances]
    exact tsub_le_self.trans enough

/-- The bank lets the unvested coins of a backed account go once the account is clawed back. -/
theorem Backed.transfers (backed : Backed grantee funder startTime chain va) {ctx : Context}
    (now : ctx.blockTime = chain.blockTime) (started : va.getStartTime ≤ unix chain.blockTime)
    (dest : Address) :
    ∃ after, transferClawback ctx chain.state va dest = .ok after ∧
      after.balances = moveCoins chain.state.balances grantee dest
        (va.originalVesting - va.getVestedOnly chain.blockTime) := by
  have computed := backed.wf.computeClawback_eq started
  rw [ClawbackVestingAccount.getVestedOnly_ofUnix] at computed
  by_cases nothing : va.originalVesting - va.getVestedOnly chain.blockTime = 0
  · refine ⟨chain.state, ?_, by rw [nothing, moveCoins_zero]⟩
    simp [transferClawback, now, computed, orPanic, nothing, Bind.bind, Except.bind]
  · -- The account is replaced first, so the bank asks the clawed back one for its locked coins.
    have locked : (chain.state.setAccount grantee
        (.clawback (va.clawedBack (unix chain.blockTime)))).lockedCoins grantee chain.blockTime =
          (va.clawedBack (unix chain.blockTime)).lockedCoins chain.blockTime := by
      simp [State.lockedCoins, State.setAccount]
    rw [backed.wf.clawedBack_lockedCoins] at locked
    have sent := State.sendCoins_of_covers locked
      (covers_clawback (backed.wf.getVestedOnly_le _) backed.vesting backed.unvested) dest
    refine ⟨_, Eq.trans ?_ sent, by rw [State.ensureAccount_balances]; rfl⟩
    simp [transferClawback, now, computed, orPanic, nothing, Bind.bind, Except.bind,
      backed.address]

/-- The funder of a backed account can claw its unvested coins back from the start on. -/
theorem Backed.reclaims {ctx : Context} {msg : MsgClawback} {dest : Address}
    (backed : Backed grantee msg.funderAddress startTime chain va)
    (now : ctx.blockTime = chain.blockTime) (begun : startTime ≤ chain.blockTime)
    (account : bech32.decode msg.accountAddress = some grantee)
    (destination : bech32.decode (if msg.destAddress = "" then msg.funderAddress
      else msg.destAddress) = some dest)
    (unblocked : ctx.blockedAddr dest = false) :
    Reclaims bech32 ctx chain msg grantee dest := by
  have started : va.getStartTime ≤ unix ctx.blockTime := by
    rw [now, ClawbackVestingAccount.getStartTime, backed.starts]
    exact unix_mono begun
  have notEarly : ¬ctx.blockTime < va.startTime := by
    rw [now, backed.starts]
    exact not_lt.mpr begun
  -- All the checks pass, and what remains is the transfer.
  have checked : clawback bech32 ctx chain.state msg =
      transferClawback ctx chain.state va dest := by
    simp [clawback, destination, account, orPanic, unblocked, backed.found, backed.funded,
      notEarly, Bind.bind, Except.bind]
  obtain ⟨after, transferred, balances⟩ := backed.transfers now (now ▸ started) dest
  exact ⟨va, _, after, backed.found, backed.wf.getUnvestedOnly_eq _, checked.trans transferred,
    balances⟩

/--
After a grant, and while the grantee always leaves the unvested coins in the balance, the funder
can claw exactly the unvested coins back.
-/
theorem clawback_reclaims_unvested (bech32 : Bech32) {ctx : Context} {origin granted chain : Chain}
    {grantCtx : Context} {grant : MsgCreateClawbackVestingAccount} {actions : List Action}
    {msg : MsgClawback} {funder grantee dest : Address}
    (sender : bech32.decode grant.fromAddress = some funder)
    (recipient : bech32.decode grant.toAddress = some grantee)
    (absent : origin.state.accounts grantee = none)
    (created : Step bech32 origin (.create grantCtx grant) granted)
    (run : Run (Guarded (LeavesUnvested grantee) (GranteeStep bech32 grantee)) granted actions
      chain)
    (now : ctx.blockTime = chain.blockTime) (begun : grant.startTime ≤ chain.blockTime)
    (byFunder : msg.funderAddress = bech32.encode funder)
    (account : bech32.decode msg.accountAddress = some grantee)
    (destination : bech32.decode (if msg.destAddress = "" then msg.funderAddress
      else msg.destAddress) = some dest)
    (unblocked : ctx.blockedAddr dest = false) :
    Reclaims bech32 ctx chain msg grantee dest := by
  cases created with
  | create _ accepted delivered =>
    -- The grant backs the account, and every step keeps it backed.
    obtain ⟨va, backed⟩ := run.invariant
      (fun chain => ∃ va, Backed grantee (bech32.encode funder) grant.startTime chain va)
      (fun ⟨_, backed⟩ taken => backed.step taken)
      (Backed.of_create accepted sender recipient absent delivered)
    rw [← byFunder] at backed
    exact backed.reclaims now begun account destination unblocked

/-- The funder of the halved grant claws back what a first delegation has left. -/
theorem halvesGrant_reclaims_after_delegation :
    ∃ granted chain, Step .unary fundedChain (.create (quietContext 0) halvesGrant) granted ∧
      Run (Guarded (LeavesUnvested 2) (GranteeStep .unary 2)) granted
        [.beginBlock (10 * second), .delegate "aevmos" 2 50] chain ∧
      Reclaims .unary (quietContext (10 * second)) chain ⟨"1", "11", ""⟩ 2 1 := by
  -- The delegation leaves the unvested half.
  have ran : ∃ granted chain,
      Step .unary fundedChain (.create (quietContext 0) halvesGrant) granted ∧
        Run (Guarded (LeavesUnvested 2) (GranteeStep .unary 2)) granted
          [.beginBlock (10 * second), .delegate "aevmos" 2 50] chain ∧
        chain.blockTime = 10 * second :=
    ⟨_, _, .create rfl (by decide) rfl,
      .extend (.extend .start ⟨trivial, trivial, .beginBlock (by decide)⟩)
        ⟨by show _ ≤ _; decide, rfl, .delegate rfl rfl⟩, rfl⟩
  obtain ⟨granted, chain, created, run, time⟩ := ran
  exact ⟨granted, chain, created, run, clawback_reclaims_unvested .unary rfl rfl rfl created run
    time.symm (by rw [time]; decide) rfl rfl rfl rfl⟩

/--
A grantee who delegates the vested half twice leaves nothing to claw back.

Each delegation is compared with all the coins vested so far, so the second one passes too.
-/
theorem halvesGrant_not_reclaims_after_two_delegations :
    ∃ granted chain, Step .unary fundedChain (.create (quietContext 0) halvesGrant) granted ∧
      Run (GranteeStep .unary 2) granted [.beginBlock (10 * second), .delegate "aevmos" 2 50,
        .delegate "aevmos" 2 50] chain ∧
      chain.blockTime = 10 * second ∧ halvesGrant.startTime ≤ chain.blockTime ∧
      ¬Reclaims .unary (quietContext (10 * second)) chain ⟨"1", "11", ""⟩ 2 1 := by
  -- The second delegation takes the unvested half.
  have ran : ∃ granted chain,
      Step .unary fundedChain (.create (quietContext 0) halvesGrant) granted ∧
        Run (GranteeStep .unary 2) granted [.beginBlock (10 * second), .delegate "aevmos" 2 50,
          .delegate "aevmos" 2 50] chain ∧
        chain.blockTime = 10 * second ∧
        (clawback .unary (quietContext (10 * second)) chain.state
          ⟨"1", "11", ""⟩).toOption.isNone = true :=
    ⟨_, _, .create rfl (by decide) rfl,
      .extend (.extend (.extend .start ⟨trivial, .beginBlock (by decide)⟩)
        ⟨rfl, .delegate rfl rfl⟩) ⟨rfl, .delegate rfl rfl⟩, rfl, by decide +kernel⟩
  obtain ⟨granted, chain, created, run, time, fails⟩ := ran
  refine ⟨granted, chain, created, run, time, by rw [time]; decide, ?_⟩
  rintro ⟨_, _, after, _, _, delivered, _⟩
  simp [delivered, Except.toOption] at fails

/-- A clawback needs the unvested coins in the balance, so the condition cannot be weakened. -/
theorem Reclaims.unvested_le {ctx : Context} {msg : MsgClawback} {dest : Address}
    (wf : chain.state.WellFormed) (now : ctx.blockTime = chain.blockTime)
    (account : bech32.decode msg.accountAddress = some grantee)
    (reclaims : Reclaims bech32 ctx chain msg grantee dest) :
    chain.unvested grantee ≤ chain.state.balances grantee := by
  obtain ⟨va, _, after, found, -, delivered, -⟩ := reclaims
  obtain ⟨addr, _, other, decoded, stored, -, begun, transferred⟩ := clawback_ok delivered
  obtain rfl := Option.some.inj (account.symm.trans decoded)
  obtain rfl : va = other := by simpa [found] using stored
  obtain ⟨vaWf, address⟩ := wf grantee va found
  have started : va.getStartTime ≤ unix chain.blockTime := unix_mono (now ▸ begun)
  obtain ⟨updated, taken, computed, paid⟩ := transferClawback_ok transferred
  rw [now, vaWf.computeClawback_eq started, va.getVestedOnly_ofUnix] at computed
  obtain ⟨rfl, rfl⟩ := Prod.mk.inj (Option.some.inj computed)
  simp only [Chain.unvested, found, vaWf.getUnvestedOnly_eq, Option.getD_some]
  -- Nothing was unvested, or the bank has checked that it is there.
  rcases paid with ⟨nothing, -⟩ | ⟨-, sent⟩
  · exact nothing ▸ zero_le
  · obtain ⟨locked, -, covered, -⟩ := State.sendCoins_ok sent
    rw [va.clawedBack_address, address] at covered
    exact le_of_covers covered

end Evmos.Vesting
