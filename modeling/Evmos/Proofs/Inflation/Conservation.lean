import Evmos.App.ModuleAccounts
import Evmos.Proofs.Inflation.Restart

/-! The end of an epoch does not panic, and what it mints goes to three accounts and no other. -/

namespace Evmos.Inflation

open Library

/-- The keeper works on the module accounts of the application. -/
structure Keeper.OnChain (k : Keeper) (modules : ModuleAddresses) : Prop where
  inflation : k.moduleAddress = modules.address .inflation
  feeCollector : k.feeCollectorAddress = modules.address .feeCollector
  incentives : k.incentivesAddress = modules.address .incentives
  distribution : k.distributionAddress = modules.address .distribution

/-- The whole part of a share of what is minted. -/
def shareOf (amount : ℤ) (ratio : Dec) : ℕ := (amount * ratio.atomics / Dec.precision).toNat

/-- What is left for the community pool, with the coins that were on the account before. -/
def State.leftForPool (k : Keeper) (s : State) (amount : ℤ) : Coins :=
  s.bank.balances k.moduleAddress + Coins.ofCoin s.params.mintDenom (amount.toNat -
    (shareOf amount s.params.inflationDistribution.stakingRewards +
      shareOf amount s.params.inflationDistribution.usageIncentives))

/-- An amount was minted and is on the accounts it is meant for, and nothing else has moved. -/
structure Conserved (k : Keeper) (s after : State) (amount : ℤ) : Prop where
  sign : 0 ≤ amount
  covered : shareOf amount s.params.inflationDistribution.stakingRewards +
    shareOf amount s.params.inflationDistribution.usageIncentives ≤ amount.toNat
  feeCollector : after.bank.balances k.feeCollectorAddress =
    s.bank.balances k.feeCollectorAddress + Coins.ofCoin s.params.mintDenom
      (shareOf amount s.params.inflationDistribution.stakingRewards)
  incentives : after.bank.balances k.incentivesAddress =
    s.bank.balances k.incentivesAddress + Coins.ofCoin s.params.mintDenom
      (shareOf amount s.params.inflationDistribution.usageIncentives)
  -- The community pool is a record of the distribution module, which holds the coins.
  distribution : after.bank.balances k.distributionAddress =
    s.bank.balances k.distributionAddress + s.leftForPool k amount
  communityPool : after.communityPool = s.communityPool + s.leftForPool k amount
  emptied : after.bank.balances k.moduleAddress = 0
  others : ∀ addr, addr ≠ k.moduleAddress → addr ≠ k.feeCollectorAddress →
    addr ≠ k.incentivesAddress → addr ≠ k.distributionAddress →
    after.bank.balances addr = s.bank.balances addr
  supply : after.bank.supply = s.bank.supply + Coins.ofCoin s.params.mintDenom amount.toNat

section Allocation

variable {k : Keeper} {s after : State} {amount : ℤ}

theorem getProportions_ok {denom : Denom} {ratio : Dec} {coins : Coins} (sign : 0 ≤ amount)
    (low : 0 ≤ ratio) (done : getProportions denom amount ratio = .ok coins) :
    coins = Coins.ofCoin denom (shareOf amount ratio) := by
  unfold getProportions newCoin at done
  -- A negative amount would be refused.
  split_ifs at done
  rw [Dec.truncateInt_ofInt_mul sign low] at done
  exact (Except.ok.inj done).symm

/-- Both shares together are at most what is minted. -/
theorem shareOf_add_le {v : InflationDistribution} (valid : v.Valid) (sign : 0 ≤ amount) :
    shareOf amount v.stakingRewards + shareOf amount v.usageIncentives ≤ amount.toNat := by
  -- Both shares are floors, of fractions that add up to at most one.
  obtain ⟨staking, incentives, sum⟩ := shares_le valid sign
  rw [Dec.truncateInt_ofInt_mul sign valid.staking] at staking sum
  rw [Dec.truncateInt_ofInt_mul sign valid.incentives] at incentives sum
  unfold shareOf
  omega

/-- What is on the account after both shares have been paid out of it. -/
theorem held_sub_shares (held : Coins) (denom : Denom) {whole first second : ℕ}
    (covered : first + second ≤ whole) :
    held + Coins.ofCoin denom whole - Coins.ofCoin denom first - Coins.ofCoin denom second =
      held + Coins.ofCoin denom (whole - (first + second)) := by
  -- Only the minted denomination is paid, so the others cancel.
  ext other
  simp only [DFinsupp.tsub_apply, DFinsupp.add_apply, Coins.ofCoin_apply]
  split_ifs
  · omega
  · omega

theorem Keeper.OnChain.nodup {modules : ModuleAddresses} (accounts : k.OnChain modules) :
    [k.moduleAddress, k.feeCollectorAddress, k.incentivesAddress, k.distributionAddress].Nodup := by
  -- Module accounts with different names have different addresses.
  rw [accounts.inflation, accounts.feeCollector, accounts.incentives, accounts.distribution]
  exact List.Nodup.map modules.injective
    (show [ModuleAccount.inflation, .feeCollector, .incentives, .distribution].Nodup by decide)

section Payments

variable {payer first second third : Address}

theorem moveCoins_twice (nodup : [payer, first, second, third].Nodup) (balances : Balances)
    (paid paidToo : Coins) :
    moveCoins (moveCoins balances payer first paid) payer second paidToo payer =
      balances payer - paid - paidToo := by
  simp only [List.nodup_cons, List.mem_cons, not_or] at nodup
  rw [moveCoins_from _ nodup.1.2.1, moveCoins_from _ nodup.1.1]

/-- A payer who pays two accounts, and a third one with all that is left, has nothing after it. -/
theorem moveCoins_thrice (nodup : [payer, first, second, third].Nodup) {balances after : Balances}
    (paid paidToo : Coins)
    (moved : after = moveCoins (moveCoins (moveCoins balances payer first paid) payer second paidToo)
      payer third (balances payer - paid - paidToo)) :
    after payer = 0 ∧ after first = balances first + paid ∧
      after second = balances second + paidToo ∧
      after third = balances third + (balances payer - paid - paidToo) ∧
      ∀ addr, addr ≠ payer → addr ≠ first → addr ≠ second → addr ≠ third →
        after addr = balances addr := by
  have twice := moveCoins_twice nodup balances paid paidToo
  simp only [List.nodup_cons, List.mem_cons, not_or, List.not_mem_nil, not_false_eq_true,
    and_true] at nodup
  obtain ⟨⟨payerFirst, payerSecond, payerThird⟩, ⟨firstSecond, firstThird⟩, secondThird, -⟩ := nodup
  subst moved
  -- Each account is touched by one payment, and the payer by all three.
  refine ⟨?_, ?_, ?_, ?_, ?_⟩
  · rw [moveCoins_from _ payerThird, twice, tsub_self]
  · rw [moveCoins_of_ne _ (Ne.symm payerFirst) firstThird,
      moveCoins_of_ne _ (Ne.symm payerFirst) firstSecond, moveCoins_to _ payerFirst]
  · rw [moveCoins_of_ne _ (Ne.symm payerSecond) secondThird, moveCoins_to _ payerSecond,
      moveCoins_of_ne _ (Ne.symm payerSecond) (Ne.symm firstSecond)]
  · rw [moveCoins_to _ payerThird, moveCoins_of_ne _ (Ne.symm payerThird) (Ne.symm secondThird),
      moveCoins_of_ne _ (Ne.symm payerThird) (Ne.symm firstThird)]
  · intro addr notPayer notFirst notSecond notThird
    rw [moveCoins_of_ne _ notPayer notThird, moveCoins_of_ne _ notPayer notSecond,
      moveCoins_of_ne _ notPayer notFirst]

end Payments

theorem Conserved.congr (conserved : Conserved k s after amount) {other : State}
    (bank : other.bank = after.bank) (pool : other.communityPool = after.communityPool) :
    Conserved k s other amount := by
  obtain ⟨sign, covered, collector, incentives, distribution, record, emptied, others, supply⟩ :=
    conserved
  -- Only the coins and the record of the pool matter for what is conserved.
  rw [← bank] at collector incentives distribution emptied others supply
  rw [← pool] at record
  exact ⟨sign, covered, collector, incentives, distribution, record, emptied, others, supply⟩

/-- What is on all accounts once an amount is minted and its two shares are sent. -/
def State.afterShares (k : Keeper) (s : State) (amount : ℤ) : Balances :=
  let minted := (s.bank.mintCoins k.moduleAddress
    (Coins.ofCoin s.params.mintDenom amount.toNat)).balances
  moveCoins (moveCoins minted k.moduleAddress k.feeCollectorAddress
      (Coins.ofCoin s.params.mintDenom
        (shareOf amount s.params.inflationDistribution.stakingRewards)))
    k.moduleAddress k.incentivesAddress (Coins.ofCoin s.params.mintDenom
      (shareOf amount s.params.inflationDistribution.usageIncentives))

/-- The coins are minted, two shares are sent, and the rest funds the pool. -/
theorem mintAndAllocateInflation_moves {allocation : Allocation}
    (valid : s.params.inflationDistribution.Valid) (sign : 0 ≤ amount)
    (done : mintAndAllocateInflation k s amount = .ok (allocation, after)) :
    after.bank.balances = moveCoins (s.afterShares k amount) k.moduleAddress
        k.distributionAddress (s.afterShares k amount k.moduleAddress) ∧
      after.communityPool = s.communityPool + s.afterShares k amount k.moduleAddress ∧
      after.bank.supply = s.bank.supply + Coins.ofCoin s.params.mintDenom amount.toNat := by
  -- Every call of the function succeeded, so each can be replaced by what it does.
  obtain ⟨coins, minting, done⟩ := bind_eq_ok.mp done
  obtain rfl := newCoin_ok minting
  rw [mintCoins_eq] at done
  obtain ⟨staking, stakingShare, done⟩ := bind_eq_ok.mp done
  obtain rfl := getProportions_ok sign valid.staking stakingShare
  obtain ⟨afterStaking, stakingSent, done⟩ := bind_eq_ok.mp done
  obtain ⟨-, rfl⟩ := Bank.sendCoins_eq_ok.mp stakingSent
  obtain ⟨incentives, incentivesShare, done⟩ := bind_eq_ok.mp done
  obtain rfl := getProportions_ok sign valid.incentives incentivesShare
  obtain ⟨afterIncentives, incentivesSent, done⟩ := bind_eq_ok.mp done
  obtain ⟨-, rfl⟩ := Bank.sendCoins_eq_ok.mp incentivesSent
  obtain ⟨funded, funding, done⟩ := bind_eq_ok.mp done
  obtain ⟨-, rfl⟩ := Prod.mk.inj (Except.ok.inj done)
  obtain ⟨afterFunding, poolSent, funding⟩ := bind_eq_ok.mp funding
  obtain rfl := Except.ok.inj funding
  obtain ⟨-, rfl⟩ := Bank.sendCoins_eq_ok.mp poolSent
  exact ⟨rfl, rfl, rfl⟩

/-- The allocation of what is minted, balance by balance. -/
theorem mintAndAllocateInflation_conserved {modules : ModuleAddresses} {allocation : Allocation}
    (accounts : k.OnChain modules) (valid : s.params.inflationDistribution.Valid)
    (sign : 0 ≤ amount) (done : mintAndAllocateInflation k s amount = .ok (allocation, after)) :
    Conserved k s after amount := by
  have nodup := accounts.nodup
  have covered := shareOf_add_le valid sign
  obtain ⟨moves, record, supply⟩ := mintAndAllocateInflation_moves valid sign done
  -- Minting puts the coins on the account of the module, and changes no other balance.
  have minted : ∀ addr, addr ≠ k.moduleAddress →
      (s.bank.mintCoins k.moduleAddress (Coins.ofCoin s.params.mintDenom amount.toNat)).balances
        addr = s.bank.balances addr :=
    fun addr elsewhere => Function.update_of_ne elsewhere _ _
  have held : (s.bank.mintCoins k.moduleAddress
      (Coins.ofCoin s.params.mintDenom amount.toNat)).balances k.moduleAddress =
        s.bank.balances k.moduleAddress + Coins.ofCoin s.params.mintDenom amount.toNat :=
    Function.update_self _ _ _
  have left : s.afterShares k amount k.moduleAddress = s.leftForPool k amount := by
    rw [State.afterShares, moveCoins_twice nodup, held, held_sub_shares _ _ covered]
    rfl
  rw [State.afterShares, moveCoins_twice nodup] at moves
  obtain ⟨emptied, collector, incentives, pool, others⟩ := moveCoins_thrice nodup _ _ moves
  rw [held, held_sub_shares _ _ covered] at pool
  rw [left] at record
  simp only [List.nodup_cons, List.mem_cons, not_or] at nodup
  obtain ⟨⟨notCollector, notIncentives, notPool, -⟩, -⟩ := nodup
  refine ⟨sign, covered, ?_, ?_, ?_, record, emptied, ?_, supply⟩
  · exact collector.trans (congrArg (· + _) (minted _ (Ne.symm notCollector)))
  · exact incentives.trans (congrArg (· + _) (minted _ (Ne.symm notIncentives)))
  · exact pool.trans (congrArg (· + _) (minted _ (Ne.symm notPool)))
  · intro addr elsewhere apart apartToo apartAgain
    exact (others addr elsewhere apart apartToo apartAgain).trans (minted addr elsewhere)

end Allocation

variable {validDenom : Denom → Bool}

theorem Sound.validDenom_mintDenom {s : State} (sound : Sound validDenom s) :
    validDenom s.params.mintDenom = true := by
  -- The denomination is the first thing that the parameters are checked for.
  obtain ⟨_, checked, -⟩ := bind_eq_ok.mp sound.params
  rw [validateMintDenom, refuseIf_bind_eq_ok, refuseIf_eq_ok] at checked
  simpa using checked.2

theorem initGenesis_succeeds (k : Keeper) {data : GenesisState}
    (valid : data.validate validDenom = .ok ()) (s : State) :
    ∃ start, initGenesis k data s = .ok start := by
  -- The only call that could fail calculates the first provision.
  obtain ⟨params, positive⟩ := GenesisState.validate_ok valid
  obtain ⟨provision, calculated, -⟩ := calculateEpochMintProvision_nonneg
    (Params.validate_ok params).1 data.period positive (bondedRatio_nonneg k s)
  exact ⟨_, bind_eq_ok.mpr ⟨provision, calculated, rfl⟩⟩

theorem Sound.passPeriod_succeeds {s : State} (sound : Sound validDenom s) (k : Keeper)
    (epochNumber : ℤ) (provision : Dec) :
    ∃ passed, passPeriod k epochNumber s provision = .ok passed := by
  unfold passPeriod
  -- A new provision is calculated only when the period has passed.
  split_ifs
  · obtain ⟨newProvision, calculated, -⟩ := calculateEpochMintProvision_nonneg
      (Params.validate_ok sound.params).1 (s.period + 1) sound.epochs (bondedRatio_nonneg k s)
    exact ⟨_, bind_eq_ok.mpr ⟨newProvision, calculated, rfl⟩⟩
  · exact ⟨_, rfl⟩

/-- What the end of an own epoch does while inflation is enabled. -/
theorem Sound.mints {modules : ModuleAddresses} {k : Keeper} {s : State}
    (sound : Sound validDenom s) (accounts : k.OnChain modules)
    (enabled : s.params.enableInflation = true) (epochNumber : ℤ) :
    ∃ after mint, afterEpochEnd k s.epochIdentifier epochNumber s = .ok after ∧
      after.mints = s.mints ++ [mint] ∧
      s.epochMintProvision = some mint.epochMintProvision ∧
      mint.amount = mint.epochMintProvision.truncateInt ∧ Conserved k s after mint.amount := by
  obtain ⟨provision, stored, nonneg⟩ := sound.provision
  have sign : 0 ≤ provision.truncateInt := Int.tdiv_nonneg nonneg Dec.precision_pos.le
  have valid := (Params.validate_ok sound.params).2
  obtain ⟨⟨allocation, minted⟩, minting⟩ := mintAndAllocateInflation_succeeds k valid sign
  have conserved := mintAndAllocateInflation_conserved accounts valid sign minting
  obtain ⟨bank, pool, rfl, -⟩ := mintAndAllocateInflation_ok minting
  -- Minting leaves the parameters, the period and the provision as they are.
  have still : Sound validDenom { s with bank := bank, communityPool := pool } :=
    ⟨sound.params, sound.epochs, sound.provision⟩
  obtain ⟨passed, passing⟩ := still.passPeriod_succeeds k epochNumber provision
  refine ⟨recordMint epochNumber provision.truncateInt s.period provision passed,
    ⟨epochNumber, passed.1, provision.truncateInt, s.period, provision⟩, ?_, ?_, stored, rfl, ?_⟩
  · rw [afterEpochEnd_own enabled]
    exact bind_eq_ok.mpr ⟨provision, orPanic_eq_ok.mpr stored,
      bind_eq_ok.mpr ⟨_, minting, map_eq_ok.mpr ⟨passed, passing, rfl⟩⟩⟩
  · rcases passPeriod_ok passing with rfl | ⟨newProvision, -, rfl⟩
    · rfl
    · rfl
  · -- A new period moves no coins.
    rcases passPeriod_ok passing with rfl | ⟨newProvision, -, rfl⟩
    · exact conserved.congr rfl rfl
    · exact conserved.congr rfl rfl

/--
The hook of the inflation module never halts the chain, and conserves what it mints.

After a valid genesis and any calls, the end of an epoch does not panic. It mints exactly at the end
of an own epoch while inflation is enabled, and then the minted amount goes to the fee collector, the
incentives and the community pool, together with all that was on the account before.
-/
theorem afterEpochEnd_conserves (validDenom : Denom → Bool) (modules : ModuleAddresses)
    {k : Keeper} (accounts : k.OnChain modules) (data : GenesisState)
    (valid : data.validate validDenom = .ok ()) (s : State) :
    ∃ start, initGenesis k data s = .ok start ∧
      ∀ calls reached, Run (CallStep validDenom k) start calls reached →
        validDenom reached.params.mintDenom = true ∧
        ∀ epochIdentifier epochNumber, ∃ after,
          afterEpochEnd k epochIdentifier epochNumber reached = .ok after ∧
          if reached.params.enableInflation = true ∧ epochIdentifier = reached.epochIdentifier then
            ∃ mint, after.mints = reached.mints ++ [mint] ∧
              reached.epochMintProvision = some mint.epochMintProvision ∧
              mint.amount = mint.epochMintProvision.truncateInt ∧
              Conserved k reached after mint.amount
          else after.mints = reached.mints ∧ after.bank = reached.bank ∧
            after.communityPool = reached.communityPool := by
  obtain ⟨start, genesis⟩ := initGenesis_succeeds k valid s
  refine ⟨start, genesis, ?_⟩
  intro calls reached run
  -- Every reached state has valid parameters and a stored provision that is not negative.
  have sound : Sound validDenom reached :=
    run.invariant (Sound validDenom) Sound.step (sound_genesis valid genesis)
  refine ⟨sound.validDenom_mintDenom, ?_⟩
  intro epochIdentifier epochNumber
  by_cases own : reached.params.enableInflation = true ∧
      epochIdentifier = reached.epochIdentifier
  · obtain ⟨enabled, rfl⟩ := own
    obtain ⟨after, mint, done, minted⟩ := sound.mints accounts enabled epochNumber
    refine ⟨after, done, ?_⟩
    rw [if_pos ⟨enabled, rfl⟩]
    exact ⟨mint, minted⟩
  · refine ⟨_, afterEpochEnd_other own epochNumber, ?_⟩
    rw [if_neg own]
    split_ifs
    · exact ⟨rfl, rfl, rfl⟩
    · exact ⟨rfl, rfl, rfl⟩

/-- Module accounts for evaluation, which agree with the keeper for evaluation. -/
def numberedModules : ModuleAddresses where
  address
    | .inflation => 1
    | .feeCollector => 2
    | .incentives => 3
    | .distribution => 4
    | .bondedPool => 5
    | .notBondedPool => 6
    | .gov => 7
    | .ibcTransfer => 8
    | .evm => 9
    | .erc20 => 10
    | .claims => 11
  injective := by
    intro acc other same
    cases acc <;> cases other <;> first | rfl | cases same

/-- Seven units that were sent to the inflation account, and all tokens bonded. -/
def sevenSent : Call :=
  .outside ⟨fun addr => if addr = 1 then Coins.ofCoin "aevmos" 7 else 0, Coins.ofCoin "aevmos" 7⟩ 0 7

/-- The pool receives a fifth of half a token, and the units that were on the account before. -/
theorem half_token_is_conserved :
    ∃ start reached after, initGenesis testnetKeeper twoEpochs emptyState = .ok start ∧
      Run (CallStep (fun _ => true) testnetKeeper) start [sevenSent] reached ∧
      afterEpochEnd testnetKeeper Epochs.dayEpochID 1 reached = .ok after ∧
      after.communityPool "aevmos" = 100000000000000007 ∧
      Conserved testnetKeeper reached after 500000000000000000 := by
  obtain ⟨start, genesis, conserves⟩ := afterEpochEnd_conserves (fun _ => true) numberedModules
    (k := testnetKeeper) ⟨rfl, rfl, rfl, rfl⟩ twoEpochs rfl emptyState
  -- The seven units that were sent to the account go to the pool as well.
  obtain ⟨reached, run, enabled, own, provision, pool⟩ : ∃ reached,
      Run (CallStep (fun _ => true) testnetKeeper) start [sevenSent] reached ∧
      reached.params.enableInflation = true ∧ Epochs.dayEpochID = reached.epochIdentifier ∧
      reached.epochMintProvision.map Dec.truncateInt = some 500000000000000000 ∧
      (reached.communityPool + reached.leftForPool testnetKeeper 500000000000000000) "aevmos" =
        100000000000000007 := by
    obtain rfl := Except.ok.inj genesis
    exact ⟨_, .extend .start rfl, rfl, rfl, by decide +kernel, by decide +kernel⟩
  obtain ⟨after, done, minted⟩ := (conserves _ reached run).2 Epochs.dayEpochID 1
  rw [if_pos ⟨enabled, own⟩] at minted
  obtain ⟨mint, -, stored, amount, conserved⟩ := minted
  rw [stored, Option.map_some, ← amount] at provision
  rw [Option.some.inj provision] at conserved
  refine ⟨start, reached, after, genesis, run, done, ?_, conserved⟩
  rw [conserved.communityPool]
  exact pool

end Evmos.Inflation
