import Evmos.Inflation.Chain
import Evmos.Proofs.Epochs.BeginBlocker

/-! How many mints a period has, over any run of blocks. -/

namespace Evmos.Inflation

open Library Epochs

theorem mintCoins_eq (k : Keeper) (s : State) (coins : Coins) :
    mintCoins k s coins = { s with bank := s.bank.mintCoins k.moduleAddress coins } := by
  unfold mintCoins
  -- Without coins the shortcut mints nothing, which is the same.
  split_ifs with nothing
  · obtain rfl := (Coins.isZero_iff coins).mp nothing
    simp [Bank.mintCoins]
  · rfl

theorem newCoin_ok {denom : Denom} {amount : ℤ} {coins : Coins}
    (made : newCoin denom amount = .ok coins) : coins = Coins.ofCoin denom amount.toNat := by
  unfold newCoin at made
  -- A coin that was made has an amount that is not negative.
  split_ifs at made
  exact (Except.ok.inj made).symm

variable {s after : State} {epochs : ℕ} {k : Keeper} {epochNumber : ℤ} {mint : Mint}
  {epochIdentifier : String} {before : Chain} {block : Block}

/-- Minting and allocating adds the amount to the supply, and leaves the records of the module. -/
theorem mintAndAllocateInflation_ok {amount : ℤ} {allocation : Allocation}
    (done : mintAndAllocateInflation k s amount = .ok (allocation, after)) :
    ∃ bank pool, after = { s with bank := bank, communityPool := pool } ∧
      bank.supply = s.bank.supply + Coins.ofCoin s.params.mintDenom amount.toNat := by
  obtain ⟨coins, minting, done⟩ := bind_eq_ok.mp done
  obtain rfl := newCoin_ok minting
  rw [mintCoins_eq] at done
  -- Three transfers follow, none of which changes the supply.
  obtain ⟨staking, -, done⟩ := bind_eq_ok.mp done
  obtain ⟨afterStaking, stakingSent, done⟩ := bind_eq_ok.mp done
  obtain ⟨-, rfl⟩ := Bank.sendCoins_eq_ok.mp stakingSent
  obtain ⟨incentives, -, done⟩ := bind_eq_ok.mp done
  obtain ⟨afterIncentives, incentivesSent, done⟩ := bind_eq_ok.mp done
  obtain ⟨-, rfl⟩ := Bank.sendCoins_eq_ok.mp incentivesSent
  obtain ⟨funded, funding, done⟩ := bind_eq_ok.mp done
  obtain ⟨afterFunding, poolSent, funding⟩ := bind_eq_ok.mp funding
  obtain ⟨-, rfl⟩ := Bank.sendCoins_eq_ok.mp poolSent
  obtain ⟨-, rfl⟩ := Prod.mk.inj (Except.ok.inj done)
  obtain rfl := Except.ok.inj funding
  exact ⟨_, _, rfl, rfl⟩

/-- A mint was made and recorded, and the other records stay, except for the period and provision. -/
structure Minted (s after : State) (mint : Mint) : Prop where
  enabled : s.params.enableInflation = true
  params : after.params = s.params
  -- The supply has grown by the provision.
  supply : after.bank.supply =
    s.bank.supply + Coins.ofCoin s.params.mintDenom mint.epochMintProvision.truncateInt.toNat
  -- The mint is recorded with the stored period, and uses the stored provision.
  period : mint.period = s.period
  provision : s.epochMintProvision = some mint.epochMintProvision
  mints : after.mints = s.mints ++ [mint]
  epochIdentifier : after.epochIdentifier = s.epochIdentifier
  epochsPerPeriod : after.epochsPerPeriod = s.epochsPerPeriod
  skippedEpochs : after.skippedEpochs = s.skippedEpochs

/-- The ways in which `AfterEpochEnd` can end. -/
inductive EpochEnd (epochIdentifier : String) (epochNumber : ℤ) (s : State) : State → Prop where
  /-- The epoch is of no concern to the module. -/
  | ignored (other : s.params.enableInflation = false ∧ epochIdentifier ≠ dayEpochID ∨
      s.params.enableInflation = true ∧ epochIdentifier ≠ s.epochIdentifier) :
      EpochEnd epochIdentifier epochNumber s s
  /-- A day epoch is skipped while inflation is disabled. -/
  | skipped (disabled : s.params.enableInflation = false) (day : epochIdentifier = dayEpochID) :
      EpochEnd epochIdentifier epochNumber s { s with skippedEpochs := s.skippedEpochs + 1 }
  /-- A mint inside the period. -/
  | minted {after : State} {mint : Mint} (own : epochIdentifier = s.epochIdentifier)
      (minted : Minted s after mint)
      (within : epochNumber - s.epochsPerPeriod * s.period - s.skippedEpochs ≤ s.epochsPerPeriod)
      (period : after.period = s.period)
      (provision : after.epochMintProvision = s.epochMintProvision) :
      EpochEnd epochIdentifier epochNumber s after
  /-- The last mint of the period. -/
  | passed {after : State} {mint : Mint} {newProvision : Dec}
      (own : epochIdentifier = s.epochIdentifier) (minted : Minted s after mint)
      (beyond : s.epochsPerPeriod < epochNumber - s.epochsPerPeriod * s.period - s.skippedEpochs)
      (period : after.period = s.period + 1)
      (provision : after.epochMintProvision = some newProvision) :
      EpochEnd epochIdentifier epochNumber s after

/-- An epoch end without a panic ends in one of these ways. -/
theorem afterEpochEnd_ok (done : afterEpochEnd k epochIdentifier epochNumber s = .ok after) :
    EpochEnd epochIdentifier epochNumber s after := by
  unfold afterEpochEnd at done
  split_ifs at done with disabled other foreign
  · obtain rfl := Except.ok.inj done
    exact .ignored (.inl ⟨by simpa using disabled, other⟩)
  · obtain rfl := Except.ok.inj done
    exact .skipped (by simpa using disabled) (not_not.mp other)
  · obtain rfl := Except.ok.inj done
    exact .ignored (.inr ⟨by simpa using disabled, foreign⟩)
  · have enabled : s.params.enableInflation = true := by simpa using disabled
    obtain ⟨provision, found, done⟩ := bind_eq_ok.mp done
    rw [orPanic_eq_ok] at found
    obtain ⟨⟨allocation, minted⟩, minting, done⟩ := bind_eq_ok.mp done
    obtain ⟨bank, pool, rfl, supply⟩ := mintAndAllocateInflation_ok minting
    obtain ⟨⟨newProvision, passed⟩, passing, done⟩ := bind_eq_ok.mp done
    unfold passPeriod at passing
    split_ifs at passing with beyond
    · -- The period has passed, so the next one starts with a new provision.
      obtain ⟨calculated, -, passing⟩ := bind_eq_ok.mp passing
      obtain ⟨rfl, rfl⟩ := Prod.mk.inj (Except.ok.inj passing)
      obtain rfl := Except.ok.inj done
      exact .passed (not_not.mp foreign) ⟨enabled, rfl, supply, rfl, found, rfl, rfl, rfl, rfl⟩
        beyond rfl rfl
    · obtain ⟨rfl, rfl⟩ := Prod.mk.inj (Except.ok.inj passing)
      obtain rfl := Except.ok.inj done
      exact .minted (not_not.mp foreign) ⟨enabled, rfl, supply, rfl, found, rfl, rfl, rfl, rfl⟩
        (not_lt.mp beyond) rfl rfl

/-- The number of mints made while a period was stored. -/
def State.mintsIn (s : State) (period : ℕ) : ℕ := s.mints.countP fun mint => mint.period = period

/-- Every past period has the given number of mints, and the current one has fewer. -/
structure Counts (epochs : ℕ) (s : State) : Prop where
  length : s.mints.length = epochs * s.period + s.mintsIn s.period
  current : s.mintsIn s.period < epochs
  past : ∀ period < s.period, s.mintsIn period = epochs
  reached : ∀ mint ∈ s.mints, mint.period ≤ s.period
  -- The mints of one period were made at one provision, in the current period at the stored one.
  constant : ∀ mint ∈ s.mints, ∀ other ∈ s.mints, mint.period = other.period →
    mint.epochMintProvision = other.epochMintProvision
  stored : ∀ mint ∈ s.mints, mint.period = s.period →
    s.epochMintProvision = some mint.epochMintProvision

/-- One mint more for the period it was made in. -/
theorem Minted.mintsIn (minted : Minted s after mint) (period : ℕ) :
    after.mintsIn period = s.mintsIn period + if period = s.period then 1 else 0 := by
  unfold State.mintsIn
  rw [minted.mints, List.countP_append, List.countP_singleton, minted.period]
  -- The new mint is counted for the period that was stored before it.
  by_cases here : period = s.period
  · simp [here]
  · simp [here, Ne.symm here]

/-- The new mint is among the mints, and uses the stored provision like the others. -/
theorem Counts.constant_minted (counts : Counts epochs s) (minted : Minted s after mint) :
    ∀ first ∈ after.mints, ∀ second ∈ after.mints, first.period = second.period →
      first.epochMintProvision = second.epochMintProvision := by
  -- Mints of the current period use the stored provision, and so does the new one.
  have fresh : ∀ other ∈ s.mints, other.period = mint.period →
      other.epochMintProvision = mint.epochMintProvision := by
    intro other member same
    have used := counts.stored other member (same.trans minted.period)
    exact Option.some.inj (used.symm.trans minted.provision)
  intro first memberFirst second memberSecond same
  rw [minted.mints, List.mem_append, List.mem_singleton] at memberFirst memberSecond
  rcases memberFirst with old | rfl <;> rcases memberSecond with also | rfl
  · exact counts.constant first old second also same
  · exact fresh first old same
  · exact (fresh second also same.symm).symm
  · rfl

theorem Counts.minted (counts : Counts epochs s) (minted : Minted s after mint)
    (period : after.period = s.period) (provision : after.epochMintProvision = s.epochMintProvision)
    (within : s.mintsIn s.period + 1 < epochs) : Counts epochs after where
  -- One mint more is made for the current period, which stays the current one.
  length := by
    have before := counts.length
    rw [minted.mintsIn, period, if_pos rfl, minted.mints, List.length_append, List.length_singleton]
    omega
  current := by
    rw [minted.mintsIn, period, if_pos rfl]
    exact within
  past earlier less := by
    rw [period] at less
    rw [minted.mintsIn, if_neg less.ne, counts.past earlier less, add_zero]
  reached other member := by
    rw [minted.mints, List.mem_append, List.mem_singleton] at member
    rw [period]
    rcases member with old | rfl
    · exact counts.reached other old
    · exact minted.period.le
  constant := counts.constant_minted minted
  stored other member same := by
    rw [minted.mints, List.mem_append, List.mem_singleton] at member
    rw [period] at same
    rw [provision]
    rcases member with old | rfl
    · exact counts.stored other old same
    · exact minted.provision

/-- The last mint of a period starts the next one, which has no mints yet. -/
theorem Counts.passed (counts : Counts epochs s) (minted : Minted s after mint)
    (period : after.period = s.period + 1) (full : s.mintsIn s.period + 1 = epochs) :
    Counts epochs after := by
  -- No mint so far was made in the new period.
  have earlier : ∀ other ∈ after.mints, other.period ≤ s.period := by
    intro other member
    rw [minted.mints, List.mem_append, List.mem_singleton] at member
    rcases member with old | rfl
    · exact counts.reached other old
    · exact minted.period.le
  have none : after.mintsIn after.period = 0 := by
    rw [State.mintsIn, List.countP_eq_zero]
    intro other member
    have bound := earlier other member
    rw [period]
    simp only [decide_eq_true_eq]
    omega
  refine ⟨?_, ?_, ?_, ?_, counts.constant_minted minted, ?_⟩
  · have before := counts.length
    rw [none, period, minted.mints, List.length_append, List.length_singleton, before, ← full]
    ring
  · rw [none]
    omega
  · intro p less
    rw [minted.mintsIn]
    split_ifs with here
    · rw [here]
      exact full
    · exact counts.past p (by omega)
  · intro other member
    have bound := earlier other member
    omega
  · intro other member same
    have bound := earlier other member
    omega

theorem Counts.congr {other : State} (counts : Counts epochs s)
    (mints : other.mints = s.mints) (period : other.period = s.period)
    (provision : other.epochMintProvision = s.epochMintProvision) : Counts epochs other := by
  obtain ⟨length, current, past, reached, constant, stored⟩ := counts
  unfold State.mintsIn at length current past
  -- The counts depend on the mints, the period and the provision only.
  constructor <;> simp only [State.mintsIn, mints, period, provision] <;> assumption

/-- The module is set up for day epochs, and its counts are right. -/
structure Daily (epochs : ℕ) (s : State) : Prop where
  identifier : s.epochIdentifier = dayEpochID
  epochsPerPeriod : s.epochsPerPeriod = epochs
  counts : Counts epochs s

theorem Daily.withBank (daily : Daily epochs s) (bank : Bank) :
    Daily epochs { s with bank := bank } :=
  ⟨daily.identifier, daily.epochsPerPeriod, daily.counts.congr rfl rfl rfl⟩

theorem Daily.atBlock (daily : Daily epochs s) (block : Block) : Daily epochs (s.atBlock block) :=
  ⟨daily.identifier, daily.epochsPerPeriod, daily.counts.congr rfl rfl rfl⟩

/-- The end of a day epoch counts as one mint or one skipped epoch. -/
theorem Daily.dayEnd (daily : Daily epochs s)
    (number : epochNumber = s.mints.length + s.skippedEpochs + 2)
    (ended : EpochEnd dayEpochID epochNumber s after) :
    Daily epochs after ∧
      after.mints.length + after.skippedEpochs = s.mints.length + s.skippedEpochs + 1 := by
  obtain ⟨identifier, perPeriod, counts⟩ := daily
  have total := counts.length
  have room := counts.current
  -- The code compares the mints of this period, the new one included, with the epochs of a period.
  have test : epochNumber - s.epochsPerPeriod * s.period - s.skippedEpochs =
      s.mintsIn s.period + 2 := by
    rw [number, perPeriod, total]
    push_cast
    ring
  cases ended with
  | ignored other =>
    rcases other with ⟨-, foreign⟩ | ⟨-, foreign⟩
    · exact absurd rfl foreign
    · exact absurd identifier.symm foreign
  | skipped => exact ⟨⟨identifier, perPeriod, counts.congr rfl rfl rfl⟩, by simp only; omega⟩
  | minted own minted within period provision =>
    rw [test, perPeriod] at within
    refine ⟨⟨minted.epochIdentifier.trans identifier, minted.epochsPerPeriod.trans perPeriod,
      counts.minted minted period provision (by omega)⟩, ?_⟩
    rw [minted.mints, minted.skippedEpochs, List.length_append, List.length_singleton]
    omega
  | passed own minted beyond period =>
    rw [test, perPeriod] at beyond
    refine ⟨⟨minted.epochIdentifier.trans identifier, minted.epochsPerPeriod.trans perPeriod,
      counts.passed minted period (by omega)⟩, ?_⟩
    rw [minted.mints, minted.skippedEpochs, List.length_append, List.length_singleton]
    omega

theorem Daily.otherEnd (daily : Daily epochs s) (other : epochIdentifier ≠ dayEpochID)
    (ended : EpochEnd epochIdentifier epochNumber s after) : after = s := by
  -- The days are the own epochs, so another epoch is neither counted nor minted for.
  have foreign := daily.identifier ▸ other
  cases ended with
  | ignored => rfl
  | skipped _ day => exact absurd day other
  | minted own => exact absurd own foreign
  | passed own => exact absurd own foreign

/-- The incentives module moves coins, and issues or burns none. -/
def Keeper.KeepsSupply (k : Keeper) : Prop :=
  ∀ epochIdentifier epochNumber bank after,
    k.distributeIncentives epochIdentifier epochNumber bank = .ok after →
      after.supply = bank.supply

/-- The hooks at the end of an epoch: the incentives move coins, then the inflation runs. -/
theorem hooks_afterEpochEnd_ok
    (done : (multiEpochHooks [incentivesHooks k, hooks k]).afterEpochEnd epochIdentifier epochNumber
      s = .ok after) :
    ∃ bank, (k.KeepsSupply → bank.supply = s.bank.supply) ∧
      EpochEnd epochIdentifier epochNumber { s with bank := bank } after := by
  simp only [multiEpochHooks, List.foldlM_cons, List.foldlM_nil] at done
  obtain ⟨distributed, incentives, done⟩ := bind_eq_ok.mp done
  -- The incentives module comes first and can only move coins.
  obtain ⟨bank, moved, incentives⟩ := bind_eq_ok.mp incentives
  obtain rfl := Except.ok.inj incentives
  obtain ⟨ended, inflation, done⟩ := bind_eq_ok.mp done
  obtain rfl := Except.ok.inj done
  exact ⟨bank, fun keeps => keeps _ _ _ _ moved, afterEpochEnd_ok inflation⟩

theorem hooks_beforeEpochStart (k : Keeper) (epochIdentifier : String) (epochNumber : ℤ)
    (s : State) :
    (multiEpochHooks [incentivesHooks k, hooks k]).beforeEpochStart epochIdentifier epochNumber s =
      .ok s := rfl

/-- The epochs and the inflation module agree on how many day epochs have ended. -/
structure Counted (epochs : ℕ) (s : Epochs.State State) (day : EpochInfo) : Prop where
  daily : Daily epochs s.hooked
  found : s.epochInfos.get? dayEpochID = some day
  -- Before the day epoch is started nothing has been minted or skipped.
  unstarted : day.epochCountingStarted = false →
    s.hooked.mints = [] ∧ s.hooked.skippedEpochs = 0
  started : day.epochCountingStarted = true →
    day.currentEpoch = s.hooked.mints.length + s.hooked.skippedEpochs + 1

/-- A visit of the loop keeps the two modules in agreement. -/
theorem Counted.visited {ctx : Context} {s after : Epochs.State State} {day info : EpochInfo}
    (counted : Counted epochs s day) (found : s.epochInfos.get? info.identifier = some info)
    (visit : Visit (multiEpochHooks [incentivesHooks k, hooks k]) ctx s info after) :
    ∃ next, Counted epochs after next := by
  by_cases here : info.identifier = dayEpochID
  · obtain rfl : info = day := by
      rw [here, counted.found] at found
      exact (Option.some.inj found).symm
    cases visit with
    | idle => exact ⟨info, counted⟩
    | @started hooked next unstarted same counting first before =>
      obtain rfl := Except.ok.inj ((hooks_beforeEpochStart k _ _ _).symm.trans before)
      obtain ⟨none, zero⟩ := counted.unstarted unstarted
      refine ⟨next, counted.daily, ?_, ?_, ?_⟩
      · rw [← here, ← same]
        exact Store.get?_set_self _ _ _
      · intro stopped
        rw [counting] at stopped
        cases stopped
      · intro _
        rw [first, none, zero]
        rfl
    | @ended between hooked next running same counting number ended before =>
      obtain rfl := Except.ok.inj ((hooks_beforeEpochStart k _ _ _).symm.trans before)
      obtain ⟨bank, -, ended⟩ := hooks_afterEpochEnd_ok ended
      rw [same, here] at ended
      have before := counted.started running
      obtain ⟨daily, total⟩ := (counted.daily.withBank bank).dayEnd (by simp only; omega) ended
      refine ⟨next, daily, ?_, ?_, ?_⟩
      · rw [← here, ← same]
        exact Store.get?_set_self _ _ _
      · intro stopped
        rw [counting] at stopped
        cases stopped
      · intro _
        simp only at total ⊢
        omega
  · -- Another record is visited: the day record stays, and the hooks change the bank at most.
    have kept := visit.get?_of_ne (Ne.symm here)
    rw [counted.found] at kept
    cases visit with
    | idle => exact ⟨day, counted⟩
    | started _ _ _ _ before =>
      obtain rfl := Except.ok.inj ((hooks_beforeEpochStart k _ _ _).symm.trans before)
      exact ⟨day, counted.daily, kept, counted.unstarted, counted.started⟩
    | ended _ same _ _ ended before =>
      obtain rfl := Except.ok.inj ((hooks_beforeEpochStart k _ _ _).symm.trans before)
      obtain ⟨bank, -, ended⟩ := hooks_afterEpochEnd_ok ended
      have daily := counted.daily.withBank bank
      obtain rfl := daily.otherEnd (same ▸ here) ended
      exact ⟨day, daily, kept, counted.unstarted, counted.started⟩

/--
Mints and skipped epochs only grow, and a disabled module neither mints nor changes the period.

The new mints are all that was issued, and the first of them is made for the stored period at the
stored provision.
-/
structure Grows (k : Keeper) (s after : State) (new : List Mint) : Prop where
  params : after.params = s.params
  mints : after.mints = s.mints ++ new
  supply : k.KeepsSupply → after.bank.supply = s.bank.supply +
    Coins.ofCoin s.params.mintDenom
      (new.map fun mint => mint.epochMintProvision.truncateInt.toNat).sum
  first : ∀ mint ∈ new.head?, mint.period = s.period ∧
    s.epochMintProvision = some mint.epochMintProvision
  idle : new = [] → after.period = s.period ∧ after.epochMintProvision = s.epochMintProvision
  skippedEpochs : s.skippedEpochs ≤ after.skippedEpochs
  disabled : s.params.enableInflation = false → new = []

theorem Grows.refl (k : Keeper) (s : State) : Grows k s s [] where
  params := rfl
  mints := (List.append_nil _).symm
  supply _ := by simp
  first _ none := by simp at none
  idle _ := ⟨rfl, rfl⟩
  skippedEpochs := le_rfl
  disabled _ := rfl

theorem Grows.trans {first second third : State} {new more : List Mint}
    (grows : Grows k first second new) (again : Grows k second third more) :
    Grows k first third (new ++ more) where
  params := again.params.trans grows.params
  mints := by rw [again.mints, grows.mints, List.append_assoc]
  supply keeps := by
    rw [again.supply keeps, grows.supply keeps, grows.params, List.map_append, List.sum_append,
      add_assoc]
    congr 1
    exact (DFinsupp.single_add _ _ _).symm
  first mint member := by
    -- If the first part made no mint, it left the period and the provision.
    cases new with
    | nil =>
      obtain ⟨period, provision⟩ := grows.idle rfl
      rw [← period, ← provision]
      exact again.first mint member
    | cons head rest => exact grows.first mint member
  idle none := by
    obtain ⟨rfl, rfl⟩ := List.append_eq_nil_iff.mp none
    obtain ⟨period, provision⟩ := grows.idle rfl
    obtain ⟨later, newer⟩ := again.idle rfl
    exact ⟨later.trans period, newer.trans provision⟩
  skippedEpochs := grows.skippedEpochs.trans again.skippedEpochs
  disabled off := by
    rw [grows.disabled off, again.disabled (grows.params ▸ off)]
    rfl

theorem Minted.grows (minted : Minted s after mint) (k : Keeper) :
    Grows k s after [mint] where
  params := minted.params
  mints := minted.mints
  supply _ := by simpa using minted.supply
  first other member := by
    obtain rfl := Option.some.inj member
    exact ⟨minted.period, minted.provision⟩
  idle none := by cases none
  skippedEpochs := minted.skippedEpochs.ge
  disabled off := by
    -- Only an enabled module mints.
    rw [minted.enabled] at off
    cases off

theorem EpochEnd.grows (ended : EpochEnd epochIdentifier epochNumber s after) (k : Keeper) :
    ∃ new, Grows k s after new := by
  cases ended with
  | ignored => exact ⟨[], .refl k s⟩
  | skipped =>
    -- A skipped epoch is growth of its counter alone.
    have same := Grows.refl k s
    exact ⟨[], same.params, same.mints, same.supply, same.first, same.idle, Nat.le_succ _,
      same.disabled⟩
  | minted _ minted => exact ⟨_, minted.grows k⟩
  | passed _ minted => exact ⟨_, minted.grows k⟩

theorem visit_grows {ctx : Context} {s after : Epochs.State State} {info : EpochInfo}
    (visit : Visit (multiEpochHooks [incentivesHooks k, hooks k]) ctx s info after) :
    ∃ new, Grows k s.hooked after.hooked new := by
  cases visit with
  | idle => exact ⟨[], .refl k _⟩
  | started _ _ _ _ before =>
    obtain rfl := Except.ok.inj ((hooks_beforeEpochStart k _ _ _).symm.trans before)
    exact ⟨[], .refl k _⟩
  | ended _ _ _ _ ended before =>
    obtain rfl := Except.ok.inj ((hooks_beforeEpochStart k _ _ _).symm.trans before)
    obtain ⟨bank, kept, ended⟩ := hooks_afterEpochEnd_ok ended
    obtain ⟨new, grows⟩ := ended.grows k
    -- The incentives have changed the bank at most, and not its supply.
    refine ⟨new, grows.params, grows.mints, ?_, grows.first, grows.idle, grows.skippedEpochs,
      grows.disabled⟩
    intro keeps
    rw [grows.supply keeps, kept keeps]

/-- The chain between blocks, with the day record. -/
structure Reached (epochs : ℕ) (chain : Chain) : Prop where
  keyed : Keyed chain.state.epochInfos
  counted : ∃ day, Counted epochs chain.state day

/-- What one block does to the inflation module. -/
structure Advanced (k : Keeper) (before : Chain) (block : Block) (after : Chain) : Prop where
  grows : ∃ new, Grows k (before.state.hooked.atBlock block) after.state.hooked new
  day : ∀ day, before.state.epochInfos.get? dayEpochID = some day →
    ∃ next, after.state.epochInfos.get? dayEpochID = some next ∧ Advance day next

theorem Reached.step {after : Chain} (reached : Reached epochs before)
    (taken : Step k before block after) : Reached epochs after ∧ Advanced k before block after := by
  obtain ⟨-, state, done, rfl⟩ := taken
  obtain ⟨keyed, day, counted⟩ := reached
  have initially : Counted epochs
      ⟨before.state.epochInfos, before.state.hooked.atBlock block⟩ day :=
    ⟨counted.daily.atBlock block, counted.found, counted.unstarted, counted.started⟩
  -- Every visit of a record keeps both facts, and so does the whole block.
  obtain ⟨⟨found, grows⟩, keyedAfter⟩ := beginBlocker_invariant
    (s := ⟨before.state.epochInfos, before.state.hooked.atBlock block⟩)
    (fun current => (∃ day, Counted epochs current day) ∧
      ∃ new, Grows k (before.state.hooked.atBlock block) current.hooked new)
    (fun ⟨⟨_, counted⟩, _, grows⟩ _ found visit =>
      ⟨counted.visited found visit, _, grows.trans (visit_grows visit).choose_spec⟩)
    keyed ⟨⟨day, initially⟩, [], .refl k _⟩ done
  refine ⟨⟨keyedAfter, found⟩, grows, ?_⟩
  intro day stored
  exact beginBlocker_advance
    (s := ⟨before.state.epochInfos, before.state.hooked.atBlock block⟩) keyed done stored

theorem Reached.mints_le {after : Chain} (reached : Reached epochs before)
    (taken : Step k before block after) :
    after.state.hooked.mints.length ≤ before.state.hooked.mints.length + 1 := by
  obtain ⟨⟨-, next, counted⟩, ⟨new, grows⟩, advances⟩ := reached.step taken
  obtain ⟨-, day, earlier⟩ := reached
  obtain ⟨found, stored, advance⟩ := advances day earlier.found
  obtain rfl : found = next := Option.some.inj (stored.symm.trans counted.found)
  have skipped := grows.skippedEpochs
  change before.state.hooked.skippedEpochs ≤ _ at skipped
  -- A block raises the epoch by at most one, which counts the mints and the skipped days.
  rcases running : found.epochCountingStarted with _ | _
  · rw [(counted.unstarted running).1]
    exact Nat.zero_le _
  have later := counted.started running
  cases advance with
  | idle =>
    have same := earlier.started running
    omega
  | started _ _ first => omega
  | ended running _ number =>
    have same := earlier.started running
    omega

/-- The period is the number of full periods among the mints. -/
theorem Counts.period_eq (counts : Counts epochs s) : s.period = s.mints.length / epochs := by
  rw [counts.length, Nat.mul_add_div (Nat.zero_lt_of_lt counts.current),
    Nat.div_eq_of_lt counts.current, add_zero]

theorem Reached.period_step {after : Chain} (reached : Reached epochs before)
    (taken : Step k before block after) :
    after.state.hooked.period = before.state.hooked.period ∨
      after.state.hooked.period = before.state.hooked.period + 1 := by
  have once := reached.mints_le taken
  obtain ⟨⟨-, next, later⟩, ⟨new, grows⟩, -⟩ := reached.step taken
  obtain ⟨-, day, earlier⟩ := reached
  have more : before.state.hooked.mints.length ≤ after.state.hooked.mints.length := by
    rw [grows.mints, List.length_append]
    exact Nat.le_add_right _ _
  have positive := Nat.zero_lt_of_lt earlier.daily.counts.current
  have low := Nat.div_le_div_right (c := epochs) more
  have high := Nat.div_le_div_right (c := epochs) once
  -- One more mint completes at most one more period.
  have step : (before.state.hooked.mints.length + 1) / epochs ≤
      before.state.hooked.mints.length / epochs + 1 := by
    rw [← Nat.add_div_right _ positive]
    exact Nat.div_le_div_right (by omega)
  rw [earlier.daily.counts.period_eq, later.daily.counts.period_eq]
  omega

/-- What one block mints: nothing, or the stored provision for the stored period. -/
inductive BlockMints (before : State) (block : Block) (after : State) : Prop where
  | nothing (mints : after.mints = before.mints) (supply : after.bank.supply = block.bank.supply)
  | once {mint : Mint} (mints : after.mints = before.mints ++ [mint])
      (period : mint.period = before.period)
      (provision : before.epochMintProvision = some mint.epochMintProvision)
      (supply : after.bank.supply = block.bank.supply +
        Coins.ofCoin block.params.mintDenom mint.epochMintProvision.truncateInt.toNat)

/-- Every mint that a block records has been added to the supply, and nothing else has. -/
theorem Reached.blockMints {after : Chain} (reached : Reached epochs before) (keeps : k.KeepsSupply)
    (taken : Step k before block after) :
    BlockMints before.state.hooked block after.state.hooked := by
  have once := reached.mints_le taken
  obtain ⟨-, ⟨new, grows⟩, -⟩ := reached.step taken
  have supply := grows.supply keeps
  rw [grows.mints, List.length_append] at once
  -- At most one mint is new.
  match new with
  | [] =>
    refine .nothing (grows.mints.trans (List.append_nil _)) (supply.trans ?_)
    rw [List.map_nil, List.sum_nil, Coins.ofCoin_zero, add_zero]
    rfl
  | [mint] =>
    obtain ⟨period, provision⟩ := grows.first mint rfl
    refine .once grows.mints period provision (supply.trans ?_)
    rw [List.map_singleton, List.sum_singleton]
    rfl
  | first :: second :: rest =>
    simp only [State.atBlock, List.length_cons] at once
    omega

theorem initGenesis_daily {data : GenesisState} {start : State} (unminted : s.mints = [])
    (genesis : initGenesis k data s = .ok start) (period : data.period = 0)
    (identifier : data.epochIdentifier = dayEpochID) (positive : 0 < data.epochsPerPeriod) :
    Daily data.epochsPerPeriod.toNat start ∧ start.mints = [] ∧
      start.skippedEpochs = data.skippedEpochs := by
  obtain ⟨provision, -, genesis⟩ := bind_eq_ok.mp genesis
  obtain rfl := Except.ok.inj genesis
  refine ⟨⟨identifier, (Int.toNat_of_nonneg positive.le).symm, ?_⟩, unminted, rfl⟩
  -- Without mints and in the first period, all counts are zero.
  constructor <;> simp [State.mintsIn, unminted, period, positive]

/-- With an unstarted day epoch this is where runs start. -/
theorem Daily.reached {perPeriod : ℕ} {start : State} {ctx : Context} {epochs : List EpochInfo}
    {day : EpochInfo} (daily : Daily perPeriod start) (unminted : start.mints = [])
    (skipped : start.skippedEpochs = 0)
    (found : (Epochs.initGenesis ctx epochs ⟨.empty, start⟩).epochInfos.get? dayEpochID = some day)
    (unstarted : day.epochCountingStarted = false) :
    Reached perPeriod ⟨Epochs.initGenesis ctx epochs ⟨.empty, start⟩, ctx.blockTime⟩ := by
  have hooked := initGenesis_hooked ctx epochs ⟨.empty, start⟩
  -- The genesis stores the epochs into an empty store.
  have keyed : Keyed (Epochs.initGenesis ctx epochs ⟨.empty, start⟩).epochInfos := by
    apply initGenesis_keyed
    intro identifier info absent
    cases absent
  refine ⟨keyed, day, ?_, found, ?_, ?_⟩
  · exact hooked ▸ daily
  · intro _
    simp only [hooked]
    exact ⟨unminted, skipped⟩
  · intro started
    rw [unstarted] at started
    cases started

/--
Every period has exactly as many mints as it has epochs.

A past period has that many, all at one provision, and the current one has fewer.
A block passes at most one period, and neither mints nor passes one while inflation is disabled.
It adds at most one mint, and the supply grows by exactly that.
-/
theorem period_mints_epochsPerPeriod (k : Keeper) (ctx : Context) {epochs : List EpochInfo}
    {data : GenesisState} {s start : State} {day : EpochInfo} {blocks : List Block} {last : Chain}
    (unminted : s.mints = []) (genesis : initGenesis k data s = .ok start)
    (found : (Epochs.initGenesis ctx epochs ⟨.empty, start⟩).epochInfos.get? dayEpochID = some day)
    (unstarted : day.epochCountingStarted = false) (period : data.period = 0)
    (skipped : data.skippedEpochs = 0) (identifier : data.epochIdentifier = dayEpochID)
    (positive : 0 < data.epochsPerPeriod)
    (run : Run (Step k) ⟨Epochs.initGenesis ctx epochs ⟨.empty, start⟩, ctx.blockTime⟩ blocks last) :
    (∀ p < last.state.hooked.period, last.state.hooked.mintsIn p = data.epochsPerPeriod) ∧
      (last.state.hooked.mintsIn last.state.hooked.period : ℤ) < data.epochsPerPeriod ∧
      (∀ p, last.state.hooked.period < p → last.state.hooked.mintsIn p = 0) ∧
      (∀ mint ∈ last.state.hooked.mints, ∀ other ∈ last.state.hooked.mints,
        mint.period = other.period → mint.epochMintProvision = other.epochMintProvision) ∧
      (∃ now, last.state.epochInfos.get? dayEpochID = some now ∧
        (now.epochCountingStarted = true → now.currentEpoch - 1 =
          last.state.hooked.mints.length + last.state.hooked.skippedEpochs)) ∧
      ∀ block after, Step k last block after →
        (after.state.hooked.period = last.state.hooked.period ∨
          after.state.hooked.period = last.state.hooked.period + 1) ∧
        (block.params.enableInflation = false →
          after.state.hooked.mints = last.state.hooked.mints ∧
            after.state.hooked.period = last.state.hooked.period) ∧
        (k.KeepsSupply → BlockMints last.state.hooked block after.state.hooked) := by
  obtain ⟨daily, noMints, counter⟩ := initGenesis_daily unminted genesis period identifier positive
  have initially := daily.reached noMints (counter.trans skipped) found unstarted
  -- The invariant of a run: the counts agree with the clock of the day epoch.
  have reached : Reached data.epochsPerPeriod.toNat last :=
    run.invariant (Reached data.epochsPerPeriod.toNat) (fun reached taken => (reached.step taken).1)
      initially
  obtain ⟨keyed, now, counted⟩ := reached
  have counts := counted.daily.counts
  refine ⟨?_, ?_, ?_, counts.constant, ⟨now, counted.found, ?_⟩, ?_⟩
  · intro p less
    rw [counts.past p less]
    exact Int.toNat_of_nonneg positive.le
  · have room := counts.current
    omega
  · intro p later
    rw [State.mintsIn, List.countP_eq_zero]
    intro mint member
    have bound := counts.reached mint member
    simp only [decide_eq_true_eq]
    omega
  · intro running
    have number := counted.started running
    omega
  · intro block after taken
    have reached : Reached data.epochsPerPeriod.toNat last := ⟨keyed, now, counted⟩
    refine ⟨reached.period_step taken, ?_, fun keeps => reached.blockMints keeps taken⟩
    intro off
    obtain ⟨new, grows⟩ := (reached.step taken).2.grows
    obtain rfl := grows.disabled off
    exact ⟨grows.mints.trans (List.append_nil _), (grows.idle rfl).1⟩

/-- A keeper for evaluation, with an incentives module that pays nothing. -/
def testnetKeeper : Keeper where
  chainID := "evmos_9000-1"
  moduleAddress := 1
  feeCollectorAddress := 2
  incentivesAddress := 3
  distributionAddress := 4
  bondDenom := "aevmos"
  distributeIncentives _ _ bank := .ok bank

/-- Parameters that mint one token in the first period. -/
def oneToken (enableInflation : Bool) : Params where
  mintDenom := "aevmos"
  exponentialCalculation := ⟨1, Dec.ofIntWithPrec 50 2, 0, Dec.ofIntWithPrec 66 2, 0⟩
  inflationDistribution :=
    ⟨Dec.ofIntWithPrec 50 2, Dec.ofIntWithPrec 30 2, Dec.ofIntWithPrec 20 2⟩
  enableInflation := enableInflation

/-- A genesis with two epochs in a period. -/
def twoEpochs : GenesisState := ⟨oneToken true, 0, dayEpochID, 2, 0⟩

/-- A day epoch of ten time units, not yet started. -/
def tenUnits : EpochInfo := ⟨dayEpochID, 0, 10, 0, zeroTime, false, 0⟩

/-- The state before the genesis. -/
def emptyState : State := ⟨oneToken true, 0, "", 0, 0, none, ⟨fun _ => 0, 0⟩, 0, 0, []⟩

/-- A block at a time, with inflation enabled or not. -/
def blockAt (blockTime : Time) (enableInflation : Bool) : Block :=
  ⟨blockTime, 1, oneToken enableInflation, ⟨fun _ => 0, 0⟩, 0, 0⟩

/-- Two mints and a skipped day pass the first period, which then has two mints of half a token. -/
theorem twoEpochs_pass_after_two_mints :
    ∃ start third last, initGenesis testnetKeeper twoEpochs emptyState = .ok start ∧
      Run (Step testnetKeeper) ⟨Epochs.initGenesis ⟨0, 0⟩ [tenUnits] ⟨.empty, start⟩, 0⟩
        [blockAt 0 true, blockAt 11 true, blockAt 21 false] third ∧
      Step testnetKeeper third (blockAt 31 true) last ∧
      last.state.hooked.period = 1 ∧ last.state.hooked.skippedEpochs = 1 ∧
      last.state.hooked.mintsIn 0 = 2 ∧
      BlockMints third.state.hooked (blockAt 31 true) last.state.hooked ∧
      (blockAt 31 true).bank.supply "aevmos" = 0 ∧
      last.state.hooked.bank.supply "aevmos" = 500000000000000000 := by
  -- The blocks are evaluated, the last one apart from the others.
  have ran : ∃ start third last, initGenesis testnetKeeper twoEpochs emptyState = .ok start ∧
      Run (Step testnetKeeper) ⟨Epochs.initGenesis ⟨0, 0⟩ [tenUnits] ⟨.empty, start⟩, 0⟩
        [blockAt 0 true, blockAt 11 true, blockAt 21 false] third ∧
      Step testnetKeeper third (blockAt 31 true) last ∧
      last.state.hooked.period = 1 ∧ last.state.hooked.skippedEpochs = 1 ∧
      last.state.hooked.bank.supply "aevmos" = 500000000000000000 :=
    ⟨_, _, _, rfl, .extend (.extend (.extend .start ⟨by decide, _, rfl, rfl⟩)
      ⟨by decide, _, rfl, rfl⟩) ⟨by decide, _, rfl, rfl⟩, ⟨by decide, _, rfl, rfl⟩, rfl, rfl, rfl⟩
  obtain ⟨start, third, last, genesis, run, taken, period, skipped, supply⟩ := ran
  have facts := fun {blocks chain} => @period_mints_epochsPerPeriod testnetKeeper ⟨0, 0⟩ [tenUnits]
    twoEpochs emptyState start tenUnits blocks chain rfl genesis rfl rfl rfl rfl rfl (by decide)
  have two : (last.state.hooked.mintsIn 0 : ℤ) = 2 :=
    (facts (run.extend taken)).1 0 (by rw [period]; decide)
  have keeps : testnetKeeper.KeepsSupply := by
    intro _ _ _ _ moved
    obtain rfl := Except.ok.inj moved
    rfl
  exact ⟨start, third, last, genesis, run, taken, period, skipped, by exact_mod_cast two,
    ((facts run).2.2.2.2.2 _ last taken).2.2 keeps, rfl, supply⟩

end Evmos.Inflation
