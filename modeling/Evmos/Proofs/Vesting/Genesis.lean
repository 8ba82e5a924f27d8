import Evmos.Proofs.Vesting.Clawback
import Evmos.Proofs.Vesting.Grants

/-! Which steps of the chain leave vesting accounts that pass the validation of a genesis file. -/

namespace Evmos.Vesting

open Library

namespace ClawbackVestingAccount

/-- What validation asks of an account beyond its schedules adding up. -/
structure Sane (va : ClawbackVestingAccount) : Prop where
  ordered : va.getStartTime < va.endTime
  delegated : va.delegatedVesting ≤ va.originalVesting

theorem coinEq_iff {a b : Coins} : coinEq a b = true ↔ a = b := by
  simp only [coinEq, Bool.and_eq_true, Coins.isAllLTE_iff]
  exact ⟨fun both => le_antisymm both.1 both.2, fun same => ⟨same.le, same.ge⟩⟩

variable {va : ClawbackVestingAccount}

/-- A well-formed account passes validation exactly when it is sane. -/
theorem WellFormed.validate_iff (wf : va.WellFormed) {validateBaseAccount : Address → Result Unit}
    (baseValid : ∀ address, validateBaseAccount address = .ok ()) :
    va.validate validateBaseAccount = .ok () ↔ va.Sane := by
  -- The checks of the ends and of the totals hold for every well-formed account.
  have lockupEnd : ¬va.getStartTime + totalLength va.lockupPeriods > va.endTime := by
    rw [wf.ends]
    exact not_lt.mpr (le_max_left _ _)
  have vestingEnd : ¬va.getStartTime + totalLength va.vestingPeriods > va.endTime := by
    rw [wf.ends]
    exact not_lt.mpr (le_max_right _ _)
  have lockupCoins := coinEq_iff.mpr wf.lockupTotal
  have vestingCoins := coinEq_iff.mpr wf.vestingTotal
  simp only [validate, validateBaseVesting, lockupEnd, vestingEnd, lockupCoins, vestingCoins,
    baseValid, if_false, Bool.not_true, Bool.false_eq_true]
  constructor
  · intro accepted
    split_ifs at accepted with early more
    exact ⟨not_le.mp early, (Coins.isAllLTE_iff _ _).mp (by simpa using more)⟩
  · intro sane
    rw [if_neg (not_le.mpr sane.ordered), (Coins.isAllLTE_iff _ _).mpr sane.delegated]
    rfl

theorem sane_new_iff {address : Address} {funder : String} {startTime : Time}
    {lockupPeriods vestingPeriods : Periods} {coins : Coins} :
    (newClawbackVestingAccount address funder coins startTime lockupPeriods vestingPeriods).Sane ↔
      0 < totalLength lockupPeriods ∨ 0 < totalLength vestingPeriods := by
  rw [newClawbackVestingAccount_eq]
  -- A new account has delegated nothing.
  constructor
  · rintro ⟨ordered, -⟩
    simp only [getStartTime, lt_max_iff] at ordered
    omega
  · intro takes
    refine ⟨?_, zero_le⟩
    simp only [getStartTime, lt_max_iff]
    omega

theorem WellFormed.ordered_iff (wf : va.WellFormed) :
    va.getStartTime < va.endTime ↔
      0 < totalLength va.lockupPeriods ∨ 0 < totalLength va.vestingPeriods := by
  rw [wf.ends, lt_max_iff]
  omega

/-- The union of two schedules takes time if the first one does. -/
theorem disjunctPeriods_takes {startA : ℤ} (startB : ℤ) {periodsA periodsB : Periods}
    (forwardA : Forward periodsA) (forwardB : Forward periodsB)
    (takes : 0 < totalLength periodsA) :
    0 < totalLength (disjunctPeriods startA startB periodsA periodsB).2.2 := by
  -- What falls due after the start of the first schedule falls due in the union as well.
  obtain ⟨event, member, later⟩ := (forwardA.totalLength_pos_iff startA).mp takes
  have visited : event.1 ∈ (interleave startA startB periodsA periodsB).map Joint.time :=
    (mem_times_interleave _ _ _ _ _).mpr (.inl (List.mem_map_of_mem member))
  obtain ⟨joint, inside, instant⟩ := List.mem_map.mp visited
  have schedule := disjunctPeriods_spec startA startB forwardA forwardB
  refine (schedule.forward.totalLength_pos_iff (min startA startB)).mpr
    ⟨(joint.time, joint.left + joint.right), ?_, ?_⟩
  · rw [eventsFrom_disjunctPeriods]
    exact List.mem_map_of_mem inside
  · change min startA startB < joint.time
    rw [instant]
    exact (min_le_left _ _).trans_lt later

theorem Sane.addGrant {ctx : Context} {merged : ClawbackVestingAccount} (sane : va.Sane)
    (wf : va.WellFormed) {startTime : ℤ} {lockupPeriods vestingPeriods : Periods} {coins : Coins}
    (lockupForward : Forward lockupPeriods) (vestingForward : Forward vestingPeriods)
    (lockupTotal : totalAmount lockupPeriods = coins)
    (vestingTotal : totalAmount vestingPeriods = coins)
    (granted : Vesting.addGrant ctx va startTime lockupPeriods vestingPeriods coins = .ok merged) :
    merged.Sane := by
  have mergedWf := (wf.addGrant lockupForward vestingForward lockupTotal vestingTotal granted).1
  obtain ⟨vesting, -, bounded, computed⟩ := wf.addGrant_eq ctx startTime lockupForward
    vestingForward lockupTotal vestingTotal
  obtain rfl := Except.ok.inj (computed.symm.trans granted)
  refine ⟨mergedWf.ordered_iff.mpr ?_, inf_le_right.trans bounded⟩
  -- A schedule that took time takes time after the merge.
  rcases wf.ordered_iff.mp sane.ordered with takes | takes
  · exact .inl (disjunctPeriods_takes startTime wf.lockupForward lockupForward takes)
  · exact .inr (disjunctPeriods_takes startTime wf.vestingForward vestingForward takes)

/-- Recording a delegation keeps an account sane, as only vesting coins are recorded as such. -/
theorem Sane.trackDelegation {blockTime : Time} {amount : Coins} {tracked : ClawbackVestingAccount}
    (sane : va.Sane) (wf : va.WellFormed)
    (recorded : va.trackDelegation blockTime amount = some tracked) : tracked.Sane := by
  rw [ClawbackVestingAccount.trackDelegation, wf.getVestingCoins_eq, Option.map_some,
    Option.some.injEq] at recorded
  subst recorded
  refine ⟨sane.ordered, ?_⟩
  -- The recorded coins fill up to the vesting coins at most.
  have vesting : va.originalVesting - va.getUnlockedOnly blockTime ⊓ va.getVestedOnly blockTime ≤
      va.originalVesting := tsub_le_self
  generalize va.originalVesting - va.getUnlockedOnly blockTime ⊓ va.getVestedOnly blockTime =
    remaining at vesting
  intro denom
  have within : remaining denom ≤ va.originalVesting denom := vesting denom
  have before : va.delegatedVesting denom ≤ va.originalVesting denom := sane.delegated denom
  simp only [trackDelegationFromVesting, Coins.min, DFinsupp.add_apply, DFinsupp.inf_apply,
    DFinsupp.tsub_apply]
  omega

/--
A clawback at this time leaves the account sane, or has nothing to take.

Otherwise the vested coins must cover the vesting delegations, and something must still fall due
after the start: a vesting event that has come, or coins that were not unlocked at the start.
-/
def Survives (va : ClawbackVestingAccount) (blockTime : Time) : Prop :=
  va.originalVesting ≤ va.getVestedOnly blockTime ∨
    va.delegatedVesting ≤ va.getVestedOnly blockTime ∧
      ((∃ event ∈ eventsFrom va.getStartTime va.vestingPeriods,
          va.getStartTime < event.1 ∧ event.1 ≤ unix blockTime) ∨
        ¬va.getVestedOnly blockTime ≤ va.unlockedBy va.getStartTime)

/-- The vesting periods that a clawback keeps take time if an event after the start has come. -/
theorem WellFormed.passed_takes_iff (wf : va.WellFormed) (clawbackTime : ℤ)
    (unvested : ¬va.originalVesting ≤ va.getVestedOnly (ofUnix clawbackTime)) :
    0 < totalLength (va.clawedBack clawbackTime).vestingPeriods ↔
      ∃ event ∈ eventsFrom va.getStartTime va.vestingPeriods,
        va.getStartTime < event.1 ∧ event.1 ≤ clawbackTime := by
  have kept : (va.clawedBack clawbackTime).vestingPeriods = va.vestingPeriods.take
      (readPastPeriodCount va.getStartTime va.endTime va.vestingPeriods clawbackTime) := by
    simp only [ClawbackVestingAccount.clawedBack, getPassedPeriodCount, unix_ofUnix]
  rw [kept, readPastPeriodCount]
  split_ifs with early late
  · -- Up to the start nothing has passed.
    simp only [List.take_zero, totalLength_nil, lt_self_iff_false, false_iff, not_exists]
    rintro event ⟨-, after, before⟩
    omega
  · -- From the end on everything has vested.
    refine absurd (le_of_eq ?_) unvested
    simp only [getVestedOnly, readSchedule, unix_ofUnix, if_neg early, if_pos late]
  · rw [(wf.vestingForward.take _).totalLength_pos_iff va.getStartTime,
      eventsFrom_take_countPeriods wf.vestingForward]
    simp only [List.mem_filter, decide_eq_true_eq, and_assoc]
    exact exists_congr fun event => and_congr_right fun _ => and_comm

/-- The lockup periods that a clawback keeps take time unless the start unlocks all vested coins. -/
theorem WellFormed.capped_takes_iff (wf : va.WellFormed) (clawbackTime : ℤ) :
    0 < totalLength (va.clawedBack clawbackTime).lockupPeriods ↔
      ¬va.getVestedOnly (ofUnix clawbackTime) ≤ va.unlockedBy va.getStartTime := by
  have cap : Forward ([⟨0, va.getVestedOnly (ofUnix clawbackTime)⟩] : Periods) := by simp
  have clawed := wf.clawedBack clawbackTime
  -- At the start the capped schedule reads as the smaller of both.
  have reads := conjunctPeriods_readAt va.getStartTime va.getStartTime wf.lockupForward cap
    va.getStartTime
  simp only [min_self, eventsFrom, readAt_cons, readAt_nil, add_zero, le_refl, if_true] at reads
  change readAt (eventsFrom va.getStartTime (va.clawedBack clawbackTime).lockupPeriods)
    va.getStartTime = va.unlockedBy va.getStartTime ⊓ va.getVestedOnly (ofUnix clawbackTime) at reads
  have total : totalOf (eventsFrom va.getStartTime (va.clawedBack clawbackTime).lockupPeriods) =
      va.getVestedOnly (ofUnix clawbackTime) := by
    rw [totalOf_eventsFrom]
    exact clawed.lockupTotal
  constructor
  · intro takes covered
    -- Then all coins fall due at the start, and no later event can have been emitted.
    obtain ⟨event, member, later⟩ :=
      (clawed.lockupForward.totalLength_pos_iff va.getStartTime).mp takes
    have missing := readAt_add_le_totalOf member later
    rw [reads, inf_eq_right.mpr covered, total] at missing
    obtain ⟨period, inside, amount⟩ := exists_span_of_event member
    have nonzero := conjunctPeriods_nonzero va.getStartTime va.getStartTime va.lockupPeriods
      [⟨0, va.getVestedOnly (ofUnix clawbackTime)⟩] period inside
    refine nonzero (amount.trans (le_antisymm ?_ zero_le))
    exact le_of_add_le_add_left (missing.trans_eq (add_zero _).symm)
  · intro locked
    by_contra instant
    -- Without any time, everything falls due at the start.
    have due : ∀ event ∈ eventsFrom va.getStartTime (va.clawedBack clawbackTime).lockupPeriods,
        event.1 ≤ va.getStartTime := by
      intro event member
      have bound := (clawed.lockupForward.event_bounds member).2
      omega
    rw [readAt_after due, total] at reads
    exact locked (inf_eq_right.mp reads.symm)

/-- A clawback that takes something leaves a sane account exactly when the account survives it. -/
theorem WellFormed.clawedBack_sane_iff (wf : va.WellFormed) {blockTime : Time}
    (unvested : ¬va.originalVesting ≤ va.getVestedOnly blockTime) :
    (va.clawedBack (unix blockTime)).Sane ↔ va.Survives blockTime := by
  have passed := wf.passed_takes_iff (unix blockTime)
    (by rwa [getVestedOnly_ofUnix])
  have capped := wf.capped_takes_iff (unix blockTime)
  have ordered := (wf.clawedBack (unix blockTime)).ordered_iff
  rw [getVestedOnly_ofUnix] at capped
  have original : (va.clawedBack (unix blockTime)).originalVesting = va.getVestedOnly blockTime :=
    va.getVestedOnly_ofUnix blockTime
  -- The delegations have to fit, and one of the schedules has to take time.
  constructor
  · intro sane
    refine .inr ⟨original ▸ sane.delegated, ?_⟩
    rcases ordered.mp sane.ordered with locks | vests
    · exact .inr (capped.mp locks)
    · exact .inl (passed.mp vests)
  · rintro (nothing | ⟨delegated, vests | locks⟩)
    · exact absurd nothing unvested
    · exact ⟨ordered.mpr (.inr (passed.mpr vests)), original.symm ▸ delegated⟩
    · exact ⟨ordered.mpr (.inl (capped.mpr locks)), original.symm ▸ delegated⟩

end ClawbackVestingAccount

/-- Every vesting account of the auth store is sane. -/
def State.Sane (s : State) : Prop :=
  ∀ address va, s.accounts address = some (.clawback va) → va.Sane

/-- Every vesting account of the auth store passes validation. -/
def State.Validates (validateBaseAccount : Address → Result Unit) (s : State) : Prop :=
  ∀ address va, s.accounts address = some (.clawback va) → va.validate validateBaseAccount = .ok ()

theorem State.WellFormed.validates_iff {s : State} (wf : s.WellFormed)
    {validateBaseAccount : Address → Result Unit}
    (baseValid : ∀ address, validateBaseAccount address = .ok ()) :
    s.Validates validateBaseAccount ↔ s.Sane :=
  forall_congr' fun address => forall_congr' fun va => forall_congr' fun found =>
    (wf address va found).1.validate_iff baseValid

/-- A transfer leaves the vesting accounts as they are. -/
theorem State.sendCoins_sane_iff {s after : State} {blockTime : Time} {fromAddr toAddr : Address}
    {amt : Coins} (sent : s.sendCoins blockTime fromAddr toAddr amt = .ok after) :
    after.Sane ↔ s.Sane := by
  obtain ⟨-, -, -, rfl⟩ := State.sendCoins_ok sent
  -- The bank may create the recipient, but not as a vesting account.
  have same : ∀ address va, (State.ensureAccount
      { s with balances := moveCoins s.balances fromAddr toAddr amt } toAddr).accounts address =
        some (.clawback va) ↔ s.accounts address = some (.clawback va) := by
    intro address va
    unfold State.ensureAccount
    split
    · exact Iff.rfl
    · rename_i absent
      simp only [State.setAccount, Function.update_apply]
      split_ifs with here
      · subst here
        simp only at absent
        simp [baseAccount, absent]
      · exact Iff.rfl
  exact forall_congr' fun address => forall_congr' fun va => by rw [same]

theorem State.Sane.setAccount_iff {s : State} (sane : s.Sane) (va : ClawbackVestingAccount) :
    (s.setAccount va.address (.clawback va)).Sane ↔ va.Sane := by
  -- The other accounts are sane already.
  constructor
  · intro stored
    exact stored va.address va (by simp [State.setAccount])
  · intro account address other found
    simp only [State.setAccount, Function.update_apply] at found
    split_ifs at found with here
    · obtain rfl := Account.clawback.inj (Option.some.inj found)
      exact account
    · exact sane address other found

/-- The steps that keep every vesting account valid, given that all of them are before. -/
def KeepsValid (bech32 : Bech32) (chain : Chain) : Action → Prop
  -- A new account needs a schedule.
  | .create _ msg => ∀ toAddr, bech32.decode msg.toAddress = some toAddr →
      chain.state.accounts toAddr = none → msg.lockupPeriods ≠ [] ∨ msg.vestingPeriods ≠ []
  | .clawback ctx msg => ∀ addr va, bech32.decode msg.accountAddress = some addr →
      chain.state.accounts addr = some (.clawback va) → va.Survives ctx.blockTime
  | _ => True

/-- The schedules of an accepted message take time exactly when one of them is present. -/
theorem MsgCreateClawbackVestingAccount.withDefaults_takes_iff {bech32 : Bech32}
    {msg : MsgCreateClawbackVestingAccount} (accepted : msg.validateBasic bech32 = .ok ()) :
    0 < totalLength msg.withDefaults.lockupPeriods ∨
        0 < totalLength msg.withDefaults.vestingPeriods ↔
      msg.lockupPeriods ≠ [] ∨ msg.vestingPeriods ≠ [] := by
  obtain ⟨lockup, vesting⟩ := validateBasic_positive accepted
  obtain ⟨lockupForward, vestingForward⟩ := validateBasic_forward accepted
  -- A schedule that is present takes at least the time of its first period.
  have present : ∀ {periods : Periods}, periods ≠ [] → Forward periods →
      (∀ period ∈ periods, 1 ≤ period.length) → 0 < totalLength periods := by
    intro periods nonempty forward positive
    cases periods with
    | nil => exact absurd rfl nonempty
    | cons period rest =>
      have tail := ((forward_cons period rest).mp forward).2.totalLength_nonneg
      have head := positive period List.mem_cons_self
      rw [totalLength_cons]
      omega
  constructor
  · intro takes
    by_contra absent
    push Not at absent
    have zero : Coins.isZero 0 = true := (Coins.isZero_iff 0).mpr rfl
    simp [withDefaults, absent.1, absent.2, zero] at takes
  · rintro (some | some)
    · refine .inl ?_
      have kept : msg.withDefaults.lockupPeriods = msg.lockupPeriods := by
        simp [withDefaults, some]
      rw [kept]
      exact present some lockupForward lockup
    · refine .inr ?_
      have kept : msg.withDefaults.vestingPeriods = msg.vestingPeriods := by
        simp [withDefaults, some]
      rw [kept]
      exact present some vestingForward vesting

section Steps

variable {bech32 : Bech32} {chain after : Chain}

/-- A grant keeps the accounts sane exactly when it merges or brings a schedule. -/
theorem State.Sane.create_iff {ctx : Context} {msg : MsgCreateClawbackVestingAccount} {s : State}
    (sane : chain.state.Sane) (wf : chain.state.WellFormed)
    (accepted : msg.validateBasic bech32 = .ok ())
    (delivered : createClawbackVestingAccount bech32 ctx chain.state msg = .ok s) :
    s.Sane ↔ KeepsValid bech32 chain (.create ctx msg) := by
  obtain ⟨fromAddr, toAddr, va, -, recipient, totals, granted, sent⟩ :=
    createClawbackVestingAccount_ok delivered
  obtain ⟨lockup, vesting⟩ := MsgCreateClawbackVestingAccount.validateBasic_forward accepted
  obtain ⟨lockup, vesting⟩ := MsgCreateClawbackVestingAccount.withDefaults_forward lockup vesting
  rw [State.sendCoins_sane_iff sent, sane.setAccount_iff]
  unfold grantAccount at granted
  split at granted
  · -- A merged grant is always fine.
    rename_i existing found
    split_ifs at granted
    have merged := (sane toAddr existing found).addGrant (wf toAddr existing found).1 lockup vesting
      totals rfl granted
    refine ⟨fun _ address decoded absent => ?_, fun _ => merged⟩
    obtain rfl := Option.some.inj (recipient.symm.trans decoded)
    rw [found] at absent
    cases absent
  · split_ifs at granted
  · rename_i absent
    obtain rfl := Except.ok.inj granted
    rw [ClawbackVestingAccount.sane_new_iff,
      MsgCreateClawbackVestingAccount.withDefaults_takes_iff accepted]
    refine ⟨fun takes _ _ _ => takes, fun keeps => keeps toAddr recipient absent⟩

/-- A clawback keeps the accounts sane exactly when the account survives it. -/
theorem State.Sane.clawback_iff {ctx : Context} {msg : MsgClawback} {s : State}
    (sane : chain.state.Sane) (wf : chain.state.WellFormed)
    (delivered : Vesting.clawback bech32 ctx chain.state msg = .ok s) :
    s.Sane ↔ KeepsValid bech32 chain (.clawback ctx msg) := by
  obtain ⟨addr, dest, va, decoded, found, -, begun, transferred⟩ := clawback_ok delivered
  have account := (wf addr va found).1
  have started : va.getStartTime ≤ unix ctx.blockTime := unix_mono begun
  have guard : KeepsValid bech32 chain (.clawback ctx msg) ↔ va.Survives ctx.blockTime := by
    refine ⟨fun keeps => keeps addr va decoded found, fun survives other another same stored => ?_⟩
    obtain rfl := Option.some.inj (decoded.symm.trans same)
    obtain rfl : va = another := by simpa [found] using stored
    exact survives
  rw [guard]
  obtain ⟨updated, taken, computed, paid⟩ := transferClawback_ok transferred
  rw [account.computeClawback_eq started, va.getVestedOnly_ofUnix] at computed
  obtain ⟨rfl, rfl⟩ := Prod.mk.inj (Option.some.inj computed)
  rcases paid with ⟨nothing, rfl⟩ | ⟨something, sent⟩
  · -- With nothing to take the account is left as it is.
    exact ⟨fun _ => .inl (tsub_eq_zero_iff_le.mp nothing), fun _ => sane⟩
  · have unvested : ¬va.originalVesting ≤ va.getVestedOnly ctx.blockTime := fun all =>
      something (tsub_eq_zero_iff_le.mpr all)
    rw [State.sendCoins_sane_iff sent, sane.setAccount_iff, account.clawedBack_sane_iff unvested]

theorem Step.sane_iff {action : Action} (sane : chain.state.Sane) (wf : chain.state.WellFormed)
    (taken : Step bech32 chain action after) :
    after.state.Sane ↔ KeepsValid bech32 chain action := by
  -- Blocks, delegations and transfers change no schedule.
  cases taken with
  | beginBlock => exact ⟨fun _ => trivial, fun _ => sane⟩
  | create _ accepted delivered => exact sane.create_iff wf accepted delivered
  | clawback _ _ delivered => exact sane.clawback_iff wf delivered
  | delegate _ delivered =>
    refine ⟨fun _ => trivial, fun _ => ?_⟩
    obtain ⟨-, -, ⟨va, tracked, found, recorded, stored⟩ | ⟨-, same⟩⟩ :=
      State.delegateCoins_ok delivered
    · have account := (sane _ va found).trackDelegation (wf _ va found).1 recorded
      intro address other there
      exact (sane.setAccount_iff tracked).mpr account address other
        (by simpa only [State.setAccount, stored] using there)
    · intro address other there
      exact sane address other (same ▸ there)
  | send delivered =>
    exact ⟨fun _ => trivial, fun _ => (State.sendCoins_sane_iff delivered).mpr sane⟩

end Steps

/--
While every step meets the condition, every vesting account passes validation.

The condition is exact: from a reached state whose accounts are valid, any other step breaks one.
-/
theorem accounts_validate_under_condition (bech32 : Bech32)
    {validateBaseAccount : Address → Result Unit}
    (baseValid : ∀ address, validateBaseAccount address = .ok ()) {origin : Chain}
    (fresh : ∀ address va, origin.state.accounts address ≠ some (.clawback va)) :
    (∀ {actions : List Action} {reached : Chain},
      Run (Guarded (KeepsValid bech32) (Step bech32)) origin actions reached →
      reached.state.Validates validateBaseAccount) ∧
    ∀ {actions : List Action} {reached after : Chain} {action : Action},
      Run (Step bech32) origin actions reached → reached.state.Validates validateBaseAccount →
      Step bech32 reached action after →
      (after.state.Validates validateBaseAccount ↔ KeepsValid bech32 reached action) := by
  constructor
  · intro actions reached run
    -- Accounts stay well formed without the condition, and sane under it.
    have both : reached.state.WellFormed ∧ reached.state.Sane := by
      refine run.invariant (fun chain => chain.state.WellFormed ∧ chain.state.Sane) ?_
        ⟨fun address va found => absurd found (fresh address va),
          fun address va found => absurd found (fresh address va)⟩
      rintro before action after ⟨wf, sane⟩ ⟨keeps, taken⟩
      exact ⟨taken.wellFormed wf, (taken.sane_iff sane wf).mpr keeps⟩
    exact (both.1.validates_iff baseValid).mpr both.2
  · intro actions reached after action run valid taken
    have wf := Chain.wellFormed_of_run fresh run
    have sane := (wf.validates_iff baseValid).mp valid
    rw [(taken.wellFormed wf).validates_iff baseValid]
    exact taken.sane_iff sane wf

/-- Whether a message is delivered and leaves a vesting account that passes a check. -/
def leaves (delivered : Result State) (address : Address) (check : ClawbackVestingAccount → Bool) :
    Bool :=
  match delivered with
  | .error _ => false
  | .ok s =>
    match s.accounts address with
    | some (.clawback va) => check va
    | _ => false

theorem exists_of_leaves {delivered : Result State} {address : Address}
    {check : ClawbackVestingAccount → Bool} (holds : leaves delivered address check = true) :
    ∃ s va, delivered = .ok s ∧ s.accounts address = some (.clawback va) ∧ check va = true := by
  rcases delivered with err | s
  · cases holds
  · simp only [leaves] at holds
    -- There is no other account to check.
    split at holds
    · rename_i va found
      exact ⟨s, va, rfl, found, holds⟩
    · cases holds

theorem eq_ok_of_leaves {delivered : Result State} {address : Address}
    {check : ClawbackVestingAccount → Bool} (fallback : State)
    (holds : leaves delivered address check = true) :
    delivered = .ok (delivered.toOption.getD fallback) := by
  obtain ⟨s, -, rfl, -, -⟩ := exists_of_leaves holds
  rfl

/-- The funder of the halved grant claws back. -/
def clawbackMsg : MsgClawback := ⟨"1", "11", ""⟩

/-- The chain after the halved grant, at a later block. -/
def halvesChain (blockTime : Time) : Chain where
  state := (createClawbackVestingAccount .unary (quietContext 0) fundedChain.state
    halvesGrant).toOption.getD fundedChain.state
  blockTime := blockTime

theorem halvesChain_run {blockTime : Time} (later : 0 ≤ blockTime) :
    Run (Guarded (KeepsValid .unary) (Step .unary)) fundedChain
      [.create (quietContext 0) halvesGrant, .beginBlock blockTime] (halvesChain blockTime) := by
  -- The grant takes time, and a block changes no account.
  have created : Run (Guarded (KeepsValid .unary) (Step .unary)) fundedChain
      [.create (quietContext 0) halvesGrant] (halvesChain 0) :=
    Run.extend Run.start ⟨fun _ _ _ => .inr (by simp [halvesGrant]),
      .create rfl (by decide) rfl⟩
  exact .extend created ⟨trivial, .beginBlock later⟩

/-- The account of the halved grant. -/
def halvesAccount : ClawbackVestingAccount :=
  newClawbackVestingAccount 2 "1" (Coins.ofCoin "aevmos" 50 + (Coins.ofCoin "aevmos" 50 + 0)) 0
    halvesGrant.withDefaults.lockupPeriods halvesGrant.vestingPeriods

theorem keepsValid_halves_iff (blockTime : Time) :
    KeepsValid .unary (halvesChain blockTime) (.clawback (quietContext blockTime) clawbackMsg) ↔
      halvesAccount.Survives blockTime := by
  have stored : (halvesChain blockTime).state.accounts 2 = some (.clawback halvesAccount) := rfl
  constructor
  · exact fun keeps => keeps 2 halvesAccount rfl stored
  · intro survives addr va decoded found
    obtain rfl : 2 = addr := Option.some.inj decoded
    obtain rfl : halvesAccount = va := by simpa [stored] using found
    exact survives

/--
A clawback after the first half has vested leaves a valid account.

One that comes before it does not, although the account was valid until then.
-/
theorem halvesGrant_validates_after_half :
    (∃ s, Run (Guarded (KeepsValid .unary) (Step .unary)) fundedChain
        [.create (quietContext 0) halvesGrant, .beginBlock (10 * second),
          .clawback (quietContext (10 * second)) clawbackMsg] ⟨s, 10 * second⟩ ∧
      s.Validates fun _ => .ok ()) ∧
    ∃ s, Step .unary (halvesChain (5 * second))
        (.clawback (quietContext (5 * second)) clawbackMsg) ⟨s, 5 * second⟩ ∧
      ¬s.Validates fun _ => .ok () := by
  have fresh : ∀ address va, fundedChain.state.accounts address ≠ some (.clawback va) := by
    intro address va
    simp only [fundedChain]
    split_ifs <;> simp [baseAccount]
  obtain ⟨valid, exactly⟩ := accounts_validate_under_condition .unary
    (fun _ : Address => (rfl : (.ok () : Result Unit) = .ok ())) fresh
  constructor
  · -- The first half has vested, ten seconds after the start.
    obtain ⟨s, -, delivered, -, -⟩ := exists_of_leaves (show leaves (clawback .unary
      (quietContext (10 * second)) (halvesChain (10 * second)).state clawbackMsg) 2
        (fun _ => true) = true by decide +kernel)
    have survives : halvesAccount.Survives (10 * second) :=
      .inr ⟨zero_le, .inl ⟨_, .head _, by decide, by decide⟩⟩
    have run : Run (Guarded (KeepsValid .unary) (Step .unary)) fundedChain
        [.create (quietContext 0) halvesGrant, .beginBlock (10 * second),
          .clawback (quietContext (10 * second)) clawbackMsg] ⟨s, 10 * second⟩ :=
      Run.extend (halvesChain_run (by decide))
        ⟨(keepsValid_halves_iff _).mpr survives, .clawback rfl (by decide) delivered⟩
    exact ⟨s, run, valid run⟩
  · -- After five seconds nothing has vested, and the clawback leaves empty schedules.
    obtain ⟨s, -, delivered, -, -⟩ := exists_of_leaves (show leaves (clawback .unary
      (quietContext (5 * second)) (halvesChain (5 * second)).state clawbackMsg) 2
        (fun _ => true) = true by decide +kernel)
    have run := halvesChain_run (show (0 : Time) ≤ 5 * second by decide)
    have taken : Step .unary (halvesChain (5 * second))
        (.clawback (quietContext (5 * second)) clawbackMsg) ⟨s, 5 * second⟩ :=
      .clawback rfl (by decide) delivered
    refine ⟨s, taken, fun validates => ?_⟩
    have keeps := (exactly run.unguarded (valid run) taken).mp validates
    have nothing : halvesAccount.getVestedOnly (5 * second) = 0 := by decide +kernel
    rcases (keepsValid_halves_iff _).mp keeps with all | ⟨-, ⟨event, member, -, due⟩ | locked⟩
    · rw [nothing] at all
      exact absurd (all "aevmos") (by decide)
    · fin_cases member <;> exact absurd due (by decide)
    · rw [nothing] at locked
      exact locked zero_le

/-- A merged grant without coins, which only takes the delegations of the account into account. -/
def emptyGrant : MsgCreateClawbackVestingAccount where
  fromAddress := "1"
  toAddress := "11"
  startTime := 0
  lockupPeriods := []
  vestingPeriods := []
  merge := true

/-- A block in which every account has sixty coins bonded. -/
def bondedContext : Context := { quietContext 0 with delegatorBonded := fun _ => 60 }

/-- The chain after both grants, at a later block. -/
def bondedChain (blockTime : Time) : Chain where
  state := (createClawbackVestingAccount .unary bondedContext (halvesChain 0).state
    emptyGrant).toOption.getD fundedChain.state
  blockTime := blockTime

/--
Two clawbacks that leave invalid accounts.

The first one comes before anything has vested and leaves a schedule without any time. The second
one lowers the original vesting coins below the vesting delegations.
-/
theorem clawback_leaves_invalid_accounts :
    (∃ s va, Run (Step .unary) fundedChain
        [.create (quietContext 0) halvesGrant, .beginBlock (5 * second),
          .clawback (quietContext (5 * second)) clawbackMsg] ⟨s, 5 * second⟩ ∧
      s.accounts 2 = some (.clawback va) ∧ va.validate (fun _ => .ok ()) =
        .error ⟨.external, "vesting start-time must be before end-time"⟩) ∧
    ∃ s va, Run (Step .unary) fundedChain
        [.create (quietContext 0) halvesGrant, .beginBlock 0, .create bondedContext emptyGrant,
          .beginBlock (10 * second), .clawback (quietContext (10 * second)) clawbackMsg]
          ⟨s, 10 * second⟩ ∧
      s.accounts 2 = some (.clawback va) ∧ va.validate (fun _ => .ok ()) =
        .error ⟨.external,
          "delegated vesting amount cannot be greater than original vesting amount"⟩ := by
  constructor
  · -- After five seconds nothing has vested.
    obtain ⟨s, va, delivered, found, invalid⟩ := exists_of_leaves (show leaves (clawback .unary
      (quietContext (5 * second)) (halvesChain (5 * second)).state clawbackMsg) 2
        (fun va => va.validate (fun _ => .ok ()) =
          .error ⟨.external, "vesting start-time must be before end-time"⟩) = true by
            decide +kernel)
    refine ⟨s, va, ?_, found, of_decide_eq_true invalid⟩
    exact Run.extend (halvesChain_run (by decide)).unguarded (.clawback rfl (by decide) delivered)
  · -- Sixty coins count as vesting delegations, more than the fifty that the clawback leaves.
    have merged := eq_ok_of_leaves fundedChain.state (show leaves (createClawbackVestingAccount
      .unary bondedContext (halvesChain 0).state emptyGrant) 2 (fun _ => true) = true by
        decide +kernel)
    obtain ⟨s, va, delivered, found, invalid⟩ := exists_of_leaves (show leaves (clawback .unary
      (quietContext (10 * second)) (bondedChain (10 * second)).state clawbackMsg) 2
        (fun va => va.validate (fun _ => .ok ()) = .error ⟨.external,
          "delegated vesting amount cannot be greater than original vesting amount"⟩) =
            true by decide +kernel)
    have granted : Run (Step .unary) fundedChain
        [.create (quietContext 0) halvesGrant, .beginBlock 0, .create bondedContext emptyGrant]
          (bondedChain 0) :=
      Run.extend (halvesChain_run le_rfl).unguarded (.create rfl (by decide) merged)
    have waited : Run (Step .unary) fundedChain
        [.create (quietContext 0) halvesGrant, .beginBlock 0, .create bondedContext emptyGrant,
          .beginBlock (10 * second)] (bondedChain (10 * second)) :=
      Run.extend granted (.beginBlock (by decide))
    refine ⟨s, va, ?_, found, of_decide_eq_true invalid⟩
    exact Run.extend waited (.clawback rfl (by decide) delivered)

end Evmos.Vesting
