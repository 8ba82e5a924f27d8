import Evmos.Proofs.Claims.EndAirdrop

/-! The end of the airdrop account by account: what is taken from whom, and what is left behind. -/

namespace Evmos.Claims

open Library

variable {k : Keeper} {denom : Denom} {l after : Ledger} {addr : Address}

/-- Whether an account exists, is not vesting, and has never signed a transaction. -/
def Ledger.isUnused (l : Ledger) (addr : Address) : Bool :=
  (l.accounts addr).any fun acc => !acc.isVesting && acc.sequence = 0

/-- What the clawback takes from an account with a record. -/
def Ledger.clawback (l : Ledger) (denom : Denom) (addr : Address) : Coins :=
  if l.isUnused addr then Coins.ofCoin denom (l.state.balances addr denom) else 0

/-- What a sweep over accounts takes from each of them, and what it leaves to all others. -/
structure Sweeps (k : Keeper) (denom : Denom) (l : Ledger) (addresses : List Address)
    (after : Ledger) : Prop where
  records : after.state.records = l.state.records
  taken : ∀ addr ∈ addresses,
    after.state.balances addr = l.state.balances addr - l.clawback denom addr
  -- An account that is not visited neither pays nor is removed.
  others : ∀ addr, addr ∉ addresses → addr ≠ k.distributionAddress →
    after.state.balances addr = l.state.balances addr
  kept : ∀ addr, addr ∉ addresses → after.accounts addr = l.accounts addr
  received : after.state.balances k.distributionAddress =
    l.state.balances k.distributionAddress + (addresses.map (l.clawback denom)).sum
  pool : after.state.communityPool =
    l.state.communityPool + (addresses.map (l.clawback denom)).sum

theorem Sweeps.refl (l : Ledger) : Sweeps k denom l [] l where
  records := rfl
  taken _ none := by cases none
  others _ _ _ := rfl
  kept _ _ := rfl
  received := by simp
  pool := by simp

/-- The clawback of one account takes its coins if it is unused, and none otherwise. -/
theorem sweeps_clawbackEmptyAccount (l : Ledger) (outside : addr ≠ k.distributionAddress) :
    Sweeps k denom l [addr] (clawbackEmptyAccount k denom l addr) := by
  -- Whenever nothing is taken, no balance has changed.
  have idle : ∀ {visited : Ledger}, visited.state = l.state → l.clawback denom addr = 0 →
      (∀ other, other ≠ addr → visited.accounts other = l.accounts other) →
      Sweeps k denom l [addr] visited := by
    intro visited same nothing kept
    refine ⟨by rw [same], ?_, fun _ _ _ => by rw [same], ?_, ?_, ?_⟩
    · intro other member
      obtain rfl := List.mem_singleton.mp member
      rw [same, nothing, tsub_zero]
    · intro other absent
      exact kept other (fun here => absent (List.mem_singleton.mpr here))
    · simp [same, nothing]
    · simp [same, nothing]
  unfold clawbackEmptyAccount
  cases found : l.accounts addr with
  | none => exact idle rfl (by simp [Ledger.clawback, Ledger.isUnused, found]) fun _ _ => rfl
  | some acc =>
    dsimp only
    split
    · next vesting =>
      exact idle rfl (by simp [Ledger.clawback, Ledger.isUnused, found, vesting]) fun _ _ => rfl
    next open_ =>
    split
    · next signed =>
      exact idle rfl (by simp [Ledger.clawback, Ledger.isUnused, found, signed]) fun _ _ => rfl
    next unsigned =>
    have unused : l.isUnused addr = true := by
      simp only [Ledger.isUnused, found, Option.any_some, Bool.and_eq_true, Bool.not_eq_true',
        decide_eq_true_eq]
      exact ⟨by simpa using open_, by simpa using unsigned⟩
    have due : l.clawback denom addr = Coins.ofCoin denom (l.state.balances addr denom) :=
      if_pos unused
    split
    · -- An account without coins is removed, which takes nothing.
      next empty =>
      refine idle rfl ?_ fun other elsewhere => Function.update_of_ne elsewhere ..
      rw [due, empty, Coins.ofCoin_zero]
    · rw [fundCommunityPoolFrom_ok (Coins.ofCoin_le_iff.mpr le_rfl)]
      refine ⟨rfl, ?_, ?_, fun _ _ => rfl, ?_, ?_⟩
      · intro other member
        obtain rfl := List.mem_singleton.mp member
        rw [due]
        exact moveCoins_from _ outside _
      · intro other absent elsewhere
        exact moveCoins_of_ne _ (fun here => absent (List.mem_singleton.mpr here)) elsewhere _
      · rw [List.map_singleton, List.sum_singleton, due]
        exact moveCoins_to _ outside _
      · rw [List.map_singleton, List.sum_singleton, due]
        rfl

/-- A sweep goes on with accounts that have not been visited, whose clawback is still the same. -/
theorem Sweeps.cons {visited : Ledger} {addresses : List Address}
    (first : Sweeps k denom l [addr] visited) (rest : Sweeps k denom visited addresses after)
    (fresh : addr ∉ addresses)
    (outside : ∀ other ∈ addr :: addresses, other ≠ k.distributionAddress) :
    Sweeps k denom l (addr :: addresses) after := by
  have elsewhere : ∀ {other}, other ∈ addresses → other ∉ [addr] := by
    intro other member here
    exact fresh (List.mem_singleton.mp here ▸ member)
  have unvisited : ∀ {other}, other ∈ addresses →
      visited.state.balances other = l.state.balances other := fun member =>
    first.others _ (elsewhere member) (outside _ (List.mem_cons_of_mem _ member))
  have same : ∀ other ∈ addresses, visited.clawback denom other = l.clawback denom other := by
    intro other member
    rw [Ledger.clawback, Ledger.clawback, Ledger.isUnused, Ledger.isUnused,
      first.kept other (elsewhere member), unvisited member]
  have total : (addresses.map (visited.clawback denom)).sum =
      (addresses.map (l.clawback denom)).sum := congrArg List.sum (List.map_congr_left same)
  refine ⟨rest.records.trans first.records, ?_, ?_, ?_, ?_, ?_⟩
  · intro other member
    rcases List.mem_cons.mp member with rfl | later
    · -- The first account is not visited again.
      rw [rest.others other fresh (outside other member)]
      exact first.taken other (List.mem_singleton_self other)
    · rw [rest.taken other later, unvisited later, same other later]
  · intro other absent apart
    obtain ⟨notFirst, notLater⟩ := not_or.mp (fun seen => absent (List.mem_cons.mpr seen))
    rw [rest.others other notLater apart]
    exact first.others other (fun here => notFirst (List.mem_singleton.mp here)) apart
  · intro other absent
    obtain ⟨notFirst, notLater⟩ := not_or.mp (fun seen => absent (List.mem_cons.mpr seen))
    rw [rest.kept other notLater]
    exact first.kept other (fun here => notFirst (List.mem_singleton.mp here))
  · have received := first.received
    rw [List.map_singleton, List.sum_singleton] at received
    rw [rest.received, received, total, List.map_cons, List.sum_cons, add_assoc]
  · have pool := first.pool
    rw [List.map_singleton, List.sum_singleton] at pool
    rw [rest.pool, pool, total, List.map_cons, List.sum_cons, add_assoc]

theorem sweeps_foldl {addresses : List Address} (distinct : addresses.Nodup)
    (outside : ∀ addr ∈ addresses, addr ≠ k.distributionAddress) (l : Ledger) :
    Sweeps k denom l addresses (addresses.foldl (clawbackEmptyAccount k denom) l) := by
  -- The induction is on the accounts, from any ledger that the ones before have left.
  induction addresses generalizing l with
  | nil => exact .refl l
  | cons addr addresses ih =>
    obtain ⟨fresh, distinct⟩ := List.nodup_cons.mp distinct
    obtain ⟨head, tail⟩ := List.forall_mem_cons.mp outside
    exact (sweeps_clawbackEmptyAccount l head).cons (ih distinct tail _) fresh outside

/-- What `EndBlocker` leaves behind once the airdrop is over. -/
structure CleanedUp (k : Keeper) (before after : Ledger) : Prop where
  disabled : after.state.params = { before.state.params with enableClaims := false }
  records : ∀ addr, after.state.records.get? addr = none
  escrow : after.state.balances k.moduleAddress = 0
  -- The community pool grows by all that was taken, and its account receives it.
  pool : after.state.communityPool = before.state.communityPool +
    (before.state.balances k.moduleAddress + ((before.state.records.entries.map Prod.fst).map
      (before.clawback before.state.params.claimsDenom)).sum)
  received : after.state.balances k.distributionAddress =
    before.state.balances k.distributionAddress +
      (before.state.balances k.moduleAddress + ((before.state.records.entries.map Prod.fst).map
        (before.clawback before.state.params.claimsDenom)).sum)
  -- An unused account with a record loses its coins of one denomination, and no others.
  clawed : ∀ addr, before.state.records.get? addr ≠ none → before.isUnused addr = true →
    after.state.balances addr before.state.params.claimsDenom = 0 ∧
      ∀ other, other ≠ before.state.params.claimsDenom →
        after.state.balances addr other = before.state.balances addr other
  others : ∀ addr, addr ≠ k.moduleAddress → addr ≠ k.distributionAddress →
    ¬(before.state.records.get? addr ≠ none ∧ before.isUnused addr = true) →
    after.state.balances addr = before.state.balances addr

/-- Without records of module accounts the sweep after the airdrop takes exactly what is due. -/
theorem NoModuleRecord.swept {app : App} (clean : NoModuleRecord app l.state) (denom : Denom) :
    Sweeps app.keeper denom
      (l.fund app.keeper app.keeper.moduleAddress (l.state.balances app.keeper.moduleAddress))
      (l.state.records.entries.map Prod.fst) (l.swept app.keeper denom) := by
  -- The keys of a store are distinct, and the pool has no record.
  refine sweeps_foldl (Store.nodup_keys _) ?_ _
  rintro addr listed rfl
  obtain ⟨⟨addr, record⟩, member, rfl⟩ := List.mem_map.mp listed
  exact Store.get?_eq_none.mp (clean .distribution) record member

theorem fund_escrow_of_ne (notEscrow : addr ≠ k.moduleAddress)
    (notPool : addr ≠ k.distributionAddress) (denom : Denom) (amount : Coins) :
    (l.fund k k.moduleAddress amount).state.balances addr = l.state.balances addr ∧
      (l.fund k k.moduleAddress amount).clawback denom addr = l.clawback denom addr := by
  have same : (l.fund k k.moduleAddress amount).state.balances addr = l.state.balances addr :=
    moveCoins_of_ne _ notEscrow notPool _
  -- What is due depends on the account and its balance, which are both the same.
  refine ⟨same, ?_⟩
  rw [Ledger.clawback, Ledger.clawback, same]
  rfl

theorem sub_clawback_apply (unused : l.isUnused addr = true) (other : Denom) :
    (l.state.balances addr - l.clawback denom addr) other =
      if other = denom then 0 else l.state.balances addr other := by
  rw [Ledger.clawback, if_pos unused, DFinsupp.tsub_apply, Coins.ofCoin_apply]
  split_ifs with same
  · rw [same, Nat.sub_self]
  · exact Nat.sub_zero _

theorem mem_records_iff {records : Store Address ClaimsRecord} :
    addr ∈ records.entries.map Prod.fst ↔ records.get? addr ≠ none := by
  -- The sweep visits the records of the store.
  constructor
  · intro listed absent
    obtain ⟨⟨addr, record⟩, member, rfl⟩ := List.mem_map.mp listed
    exact Store.get?_eq_none.mp absent record member
  · intro held
    obtain ⟨record, stored⟩ := Option.ne_none_iff_exists'.mp held
    exact List.mem_map_of_mem (Store.get?_eq_some.mp stored)

section Swept

variable {app : App}

theorem NoModuleRecord.apart (clean : NoModuleRecord app l.state) {addr : Address}
    (held : l.state.records.get? addr ≠ none) :
    addr ≠ app.keeper.moduleAddress ∧ addr ≠ app.keeper.distributionAddress :=
  ⟨fun same => held (same ▸ clean .claims), fun same => held (same ▸ clean .distribution)⟩

theorem NoModuleRecord.due (clean : NoModuleRecord app l.state) (denom : Denom) (amount : Coins) :
    ((l.state.records.entries.map Prod.fst).map
        ((l.fund app.keeper app.keeper.moduleAddress amount).clawback denom)).sum =
      ((l.state.records.entries.map Prod.fst).map (l.clawback denom)).sum := by
  -- Every term of the sum is about an account that the payment does not touch.
  refine congrArg List.sum (List.map_congr_left ?_)
  intro addr listed
  obtain ⟨notEscrow, notPool⟩ := clean.apart (mem_records_iff.mp listed)
  exact (fund_escrow_of_ne notEscrow notPool _ _).2

/-- After the sweep an account with a record has lost what was due, and any other one nothing. -/
theorem NoModuleRecord.balance_swept (clean : NoModuleRecord app l.state) (denom : Denom)
    {addr : Address} (notEscrow : addr ≠ app.keeper.moduleAddress)
    (notPool : addr ≠ app.keeper.distributionAddress) :
    (l.swept app.keeper denom).state.balances addr =
      if l.state.records.get? addr = none then l.state.balances addr
      else l.state.balances addr - l.clawback denom addr := by
  have sweeps := clean.swept denom
  obtain ⟨same, sameDue⟩ := fund_escrow_of_ne (l := l) notEscrow notPool denom
    (l.state.balances app.keeper.moduleAddress)
  -- The sweep visits the account exactly if it has a record.
  split_ifs with absent
  · exact (sweeps.others addr (fun listed => mem_records_iff.mp listed absent) notPool).trans same
  · rw [sweeps.taken addr (mem_records_iff.mpr absent), same, sameDue]

end Swept

/-- The end of the airdrop cleans up, if no module account has a record. -/
theorem endAirdrop_cleans_up {app : App} (clean : NoModuleRecord app l.state)
    (ended : endAirdrop app.keeper l l.state.params = .ok after) :
    CleanedUp app.keeper l after := by
  rw [endAirdrop_eq] at ended
  obtain rfl := Except.ok.inj ended
  have sweeps := clean.swept l.state.params.claimsDenom
  refine ⟨rfl, ?_, ?_, ?_, ?_, ?_, ?_⟩
  · intro addr
    show ((l.state.records.entries.map Prod.fst).foldl Store.delete _).get? addr = none
    rw [Store.get?_foldl_delete, sweeps.records]
    split_ifs with listed
    · rfl
    · exact not_not.mp (fun held => listed (mem_records_iff.mpr held))
  · -- The escrow has paid everything before the sweep, and is not visited by it.
    have notVisited : app.keeper.moduleAddress ∉ l.state.records.entries.map Prod.fst :=
      fun listed => mem_records_iff.mp listed (clean .claims)
    refine (sweeps.others _ notVisited app.keeper.moduleDistinct).trans ?_
    exact (moveCoins_from _ app.keeper.moduleDistinct _).trans (tsub_self _)
  · refine sweeps.pool.trans ?_
    rw [clean.due, ← add_assoc]
    rfl
  · refine sweeps.received.trans ?_
    rw [clean.due, ← add_assoc]
    exact congrArg (· + _) (moveCoins_to _ app.keeper.moduleDistinct _)
  · intro addr held unused
    obtain ⟨notEscrow, notPool⟩ := clean.apart held
    have balance := clean.balance_swept l.state.params.claimsDenom notEscrow notPool
    rw [if_neg held] at balance
    constructor
    · exact (DFunLike.congr_fun balance _).trans ((sub_clawback_apply unused _).trans (if_pos rfl))
    · intro other elsewhere
      exact (DFunLike.congr_fun balance _).trans
        ((sub_clawback_apply unused _).trans (if_neg elsewhere))
  · intro addr notEscrow notPool spared
    refine (clean.balance_swept l.state.params.claimsDenom notEscrow notPool).trans ?_
    split_ifs with absent
    · rfl
    · -- An account with a record that is not unused owes nothing.
      have used : ¬l.isUnused addr = true := fun unused => spared ⟨absent, unused⟩
      rw [Ledger.clawback, if_neg used, tsub_zero]

/--
Ending the airdrop conserves tokens and cleans up completely.

After the end of the claim window the end blocker pays the escrow and the coins of all unused
accounts with records into the community pool, leaves every other balance as it was, deletes all
records, and has nothing to do when it is called again.
-/
theorem endBlocker_cleans_up (app : App) (blockTime : Time) (l : Ledger)
    (clean : NoModuleRecord app l.state) (enabled : l.state.params.enableClaims = true)
    (passed : l.state.params.airdropStartTime + l.state.params.durationUntilDecay +
      l.state.params.durationOfDecay < blockTime) :
    ∃ after, endBlocker app.keeper blockTime l = .ok after ∧ CleanedUp app.keeper l after ∧
      ∀ later, endBlocker app.keeper later after = .ok after := by
  have elapsed : ¬blockTime - l.state.params.airdropStartTime ≤
      l.state.params.durationUntilDecay + l.state.params.durationOfDecay := by
    rw [not_le]
    linarith
  obtain ⟨after, ended⟩ : ∃ after, endAirdrop app.keeper l l.state.params = .ok after :=
    ⟨_, endAirdrop_eq app.keeper l l.state.params⟩
  have cleaned := endAirdrop_cleans_up clean ended
  refine ⟨after, ?_, cleaned, ?_⟩
  · unfold endBlocker
    dsimp only
    rw [enabled, if_neg (by decide), if_neg elapsed, ended]
  · -- Claims are disabled by now, so the second call returns at once.
    intro later
    unfold endBlocker
    rw [cleaned.disabled]
    rfl

/-- Account twelve has a record and holds five coins of the airdrop and three others. -/
def twelveHolds : Ledger where
  state :=
    { oneRecord with
      balances := fun addr =>
        if addr = 12 then Coins.ofCoin "aevmos" 5 + Coins.ofCoin "atom" 3
        else oneRecord.balances addr }
  accounts := unusedAccounts

/-- One time unit after the end, the pool has the five coins and the eight of the escrow. -/
theorem twelve_is_cleaned_up : ∃ after,
    endBlocker unaryApp.keeper 21 twelveHolds = .ok after ∧
      CleanedUp unaryApp.keeper twelveHolds after ∧
      after.state.balances 12 "aevmos" = 0 ∧ after.state.balances 12 "atom" = 3 ∧
      ∀ later, endBlocker unaryApp.keeper later after = .ok after := by
  -- The window ends at twenty, and no module account has a record.
  obtain ⟨after, ended, cleaned, idle⟩ := endBlocker_cleans_up unaryApp 21 twelveHolds
    (fun acc => by cases acc <;> rfl) rfl (by decide)
  obtain ⟨gone, others⟩ := cleaned.clawed 12 (by decide) (by decide)
  exact ⟨after, ended, cleaned, gone, (others "atom" (by decide)).trans (by decide), idle⟩

end Evmos.Claims
