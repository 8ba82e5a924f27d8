import Evmos.Proofs.Incentives.Allocation

/-! What is allocated to all contracts never exceeds the escrow, so the epoch hook cannot fail. -/

namespace Evmos.Incentives

open Library

/-- The whole part of an allocated share of a balance. -/
def shareOf (balance : ℕ) (allocation : Dec) : ℤ := ((Dec.ofInt balance).mul allocation).truncateInt

section Shares

variable {escrow : Coins}

theorem shareOf_nonneg (balance : ℕ) {allocation : Dec} (low : 0 ≤ allocation) :
    0 ≤ shareOf balance allocation := by
  rw [shareOf, Dec.truncateInt_ofInt_mul (Int.natCast_nonneg balance) low]
  exact Int.ediv_nonneg (Int.mul_nonneg (Int.natCast_nonneg balance) low) Dec.precision_pos.le

@[simp] theorem shareOf_zero (balance : ℕ) : shareOf balance 0 = 0 := by
  rw [shareOf, Dec.truncateInt_ofInt_mul (Int.natCast_nonneg balance) le_rfl]
  simp

@[simp] theorem shareOf_nothing (allocation : Dec) : shareOf 0 allocation = 0 := by
  simp [shareOf, Dec.ofInt_mul, Dec.truncateInt]

theorem allocationOf_eq_zero {allocations : List DecCoin} {denom : Denom}
    (absent : ∀ al ∈ allocations, al.denom ≠ denom) : allocationOf allocations denom = 0 := by
  refine List.sum_eq_zero ?_
  intro amount member
  obtain ⟨al, inside, rfl⟩ := List.mem_map.mp member
  -- Denominations that are not listed are allocated nothing.
  exact if_neg (absent al inside)

/-- The loop body of `rewardAllocations` over the allocations of an incentive. -/
private def addShare (escrow coins : Coins) (al : DecCoin) : Coins :=
  if escrow al.denom = 0 then coins
  else
    let amount := shareOf (escrow al.denom) al.amount
    if ¬0 < amount then coins else coins + Coins.ofCoin al.denom amount.toNat

/-- One round adds the share of its denomination, also where the loop skips it. -/
private theorem addShare_apply (coins : Coins) {al : DecCoin} (positive : 0 < al.amount)
    (denom : Denom) :
    (addShare escrow coins al denom : ℤ) =
      coins denom + if al.denom = denom then shareOf (escrow denom) al.amount else 0 := by
  have share := shareOf_nonneg (escrow al.denom) positive.le
  unfold addShare
  by_cases here : al.denom = denom
  · subst here
    simp only [if_true]
    split_ifs with empty small
    · -- Nothing is held, so the share is nothing.
      simp [empty]
    · rw [DFinsupp.add_apply, Coins.amountOf_ofCoin_self, Nat.cast_add, Int.toNat_of_nonneg share]
    · omega
  · simp only [if_neg here]
    split_ifs
    · simp
    · simp [Coins.ofCoin_apply, Ne.symm here]
    · simp

/-- The loop over the allocations of an incentive. -/
private theorem foldl_addShare (escrow : Coins) (allocations : List DecCoin)
    (distinct : allocations.Pairwise fun al other => al.denom ≠ other.denom)
    (positive : ∀ al ∈ allocations, 0 < al.amount) (coins : Coins) (denom : Denom) :
    (allocations.foldl (addShare escrow) coins denom : ℤ) =
      coins denom + shareOf (escrow denom) (allocationOf allocations denom) := by
  induction allocations generalizing coins with
  | nil => simp [allocationOf]
  | cons al allocations ih =>
    obtain ⟨apart, distinct⟩ := List.pairwise_cons.mp distinct
    obtain ⟨first, positive⟩ := List.forall_mem_cons.mp positive
    have split : allocationOf (al :: allocations) denom =
        (if al.denom = denom then al.amount else 0) + allocationOf allocations denom := by
      rw [allocationOf, List.map_cons, List.sum_cons, ← allocationOf]
    rw [List.foldl_cons, ih distinct positive, addShare_apply coins first, split]
    by_cases here : al.denom = denom
    · -- No later allocation is of the same denomination.
      have absent : allocationOf allocations denom = 0 :=
        allocationOf_eq_zero fun other member => here ▸ (apart other member).symm
      simp [here, absent]
    · simp [here]

theorem Registered.contractAllocation_apply {contract : Address} {incentive : Incentive}
    (registered : Registered contract incentive) (escrow : Coins) (denom : Denom) :
    (contractAllocation escrow incentive denom : ℤ) =
      shareOf (escrow denom) (allocationOf incentive.allocations denom) := by
  -- No denomination is listed twice, so each share is added once.
  have loop := foldl_addShare escrow incentive.allocations registered.distinct
    registered.positive 0 denom
  rw [DFinsupp.zero_apply, Nat.cast_zero, zero_add] at loop
  exact loop

end Shares

/-- The shares of all incentives together are covered by the balance. -/
theorem Metered.total_shareOf_le {s : State} (metered : Metered s) (balance : ℕ) (denom : Denom) :
    s.incentives.total (fun _ incentive =>
      shareOf balance (allocationOf incentive.allocations denom)) ≤ balance := by
  have sign := Int.natCast_nonneg balance
  have allocated : s.allocated denom ≤ 1 := metered.exact denom ▸ metered.bounded denom
  have nonneg : ∀ ratio ∈ s.incentives.entries.map
      (fun entry => allocationOf entry.2.allocations denom), 0 ≤ ratio := by
    intro ratio member
    obtain ⟨entry, inside, rfl⟩ := List.mem_map.mp member
    exact (metered.registered _ _ (Store.get?_eq_some.mpr inside)).allocationOf_nonneg denom
  -- Each share is truncated on its own, which loses at least as much as truncating the sum.
  have shares := Dec.sum_truncateInt_le sign _ nonneg
  rw [List.map_map] at shares
  exact shares.trans (Dec.truncateInt_le sign (metered.allocated_nonneg denom) allocated)

theorem foldl_rewards (escrow : Coins) (entries : List (Address × Incentive))
    (acc : Store Address Coins × Coins) :
    (entries.foldl (fun (acc : Store Address Coins × Coins) entry =>
        (acc.1.set entry.2.contract (contractAllocation escrow entry.2),
          acc.2 + contractAllocation escrow entry.2)) acc).2 =
      acc.2 + (entries.map fun entry => contractAllocation escrow entry.2).sum := by
  induction entries generalizing acc with
  | nil => simp
  | cons entry entries ih => rw [List.foldl_cons, ih, List.map_cons, List.sum_cons, add_assoc]

theorem isAnyGT_eq_false {coins other : Coins} (covered : ∀ denom, coins denom ≤ other denom) :
    isAnyGT coins other = false := by
  refine decide_eq_false ?_
  rintro ⟨denom, -, exceeds, -⟩
  exact absurd exceeds (not_lt.mpr (covered denom))

/-- The rewards of all contracts are covered by the escrow, in every denomination. -/
theorem Metered.rewards_le {s : State} (metered : Metered s) (escrow : Coins) (denom : Denom) :
    (s.incentives.entries.map fun entry => contractAllocation escrow entry.2).sum denom ≤
      escrow denom := by
  -- The sum is taken in one denomination, where each share is a whole part.
  have amounts : ((s.incentives.entries.map fun entry =>
      contractAllocation escrow entry.2).sum denom : ℤ) =
        s.incentives.total fun _ incentive =>
          shareOf (escrow denom) (allocationOf incentive.allocations denom) := by
    have inside := map_list_sum (DFinsupp.evalAddMonoidHom denom : Coins →+ ℕ)
      (s.incentives.entries.map fun entry => contractAllocation escrow entry.2)
    rw [List.map_map] at inside
    refine (congrArg Nat.cast inside).trans ?_
    rw [Nat.cast_list_sum, List.map_map]
    refine congrArg List.sum (List.map_congr_left ?_)
    intro entry member
    exact (metered.registered _ _ (Store.get?_eq_some.mpr member)).contractAllocation_apply escrow denom
  have bound := metered.total_shareOf_le (escrow denom) denom
  rw [← amounts] at bound
  exact Int.ofNat_le.mp bound

/-- An allocation of rewards does not fail while the meters are exact. -/
theorem Metered.rewardAllocations {s : State} (metered : Metered s) (k : Keeper) :
    ∃ result, rewardAllocations k s = .ok result := by
  -- The source compares only denominations that the escrow holds.
  have covered : isAnyGT (s.incentives.entries.foldl
      (fun (acc : Store Address Coins × Coins) entry =>
        (acc.1.set entry.2.contract
            (contractAllocation (s.bank.balances k.moduleAddress) entry.2),
          acc.2 + contractAllocation (s.bank.balances k.moduleAddress) entry.2))
      (.empty, 0)).2 (s.bank.balances k.moduleAddress) = false := by
    refine isAnyGT_eq_false ?_
    intro denom
    rw [foldl_rewards, zero_add]
    exact metered.rewards_le _ denom
  simp only [Incentives.rewardAllocations, covered]
  exact ⟨_, rfl⟩

/-- The state after the loop of a distribution has visited the given incentives. -/
def distributed (k : Keeper) (allocations : Store Address Coins) (s : State)
    (entries : List (Address × Incentive)) : State :=
  entries.foldl (fun s entry => distributeIncentive k allocations s entry.2) s

/-- The loop of a distribution does not fail, whatever its transfers do. -/
theorem distributeRewards_of_allocated {k : Keeper} {s : State} {result : Store Address Coins × Coins}
    (allocated : rewardAllocations k s = .ok result) :
    distributeRewards k s = .ok (distributed k result.1 s s.incentives.entries) := by
  -- No round of the loop returns an error.
  have loop : ∀ (entries : List (Address × Incentive)) (s : State), entries.foldlM
      (fun s entry => (.ok (distributeIncentive k result.1 s entry.2) : Result State)) s =
        .ok (distributed k result.1 s entries) := by
    intro entries
    induction entries with
    | nil => exact fun s => rfl
    | cons entry entries ih => exact fun s => ih (distributeIncentive k result.1 s entry.2)
  exact bind_eq_ok.mpr ⟨result, allocated, loop s.incentives.entries s⟩

/--
The epoch hook never halts the chain, whatever the module account holds.

In every reachable state the whole parts of the shares of all incentives add up to at most the
balance, in every denomination, so neither the allocation of rewards nor the hook fails.
-/
theorem afterEpochEnd_never_panics (k : Keeper) (v : Validators) (params : Params) (bank : Bank)
    {calls : List Call} {s : State} (run : Run (Step k v) (.empty params bank) calls s) :
    (∃ allocations rewards, rewardAllocations k s = .ok (allocations, rewards)) ∧
      (∀ denom, (s.incentives.total fun _ incentive =>
          ((Dec.ofInt (s.bank.balances k.moduleAddress denom)).mul
            (allocationOf incentive.allocations denom)).truncateInt) ≤
        s.bank.balances k.moduleAddress denom) ∧
      ∀ epochIdentifier epochNumber, ∃ after,
        afterEpochEnd k epochIdentifier epochNumber s = .ok after := by
  have metered := Metered.reachable run
  obtain ⟨⟨allocations, rewards⟩, allocated⟩ := metered.rewardAllocations k
  refine ⟨⟨allocations, rewards, allocated⟩, fun denom => metered.total_shareOf_le _ denom, ?_⟩
  intro epochIdentifier epochNumber
  -- Of the three ways through the hook, only the last one distributes.
  unfold afterEpochEnd
  split_ifs
  · exact ⟨s, rfl⟩
  · exact ⟨s, rfl⟩
  · exact ⟨_, by rw [distributeRewards_of_allocated allocated]⟩

/-- Two incentives with 60% and 40% of seven atoms are allocated four and two of them. -/
theorem seven_atoms_are_allocated :
    ∃ s, Run (Step lengthKeeper acceptAll) (.empty unlimited (holdingAtoms 10))
        [⟨anyContract, .registerIncentive (atomProposal "xx" (Dec.ofIntWithPrec 60 2) 1)⟩,
          ⟨anyContract, .registerIncentive (atomProposal "xxx" (Dec.ofIntWithPrec 40 2) 2)⟩,
          ⟨anyContract, .others unlimited (holdingAtoms 7)⟩] s ∧
      (s.incentives.total fun _ incentive =>
        shareOf 7 (allocationOf incentive.allocations "atom")) = 6 ∧
      ∃ after, afterEpochEnd lengthKeeper "week" 1 s = .ok after := by
  -- Other modules take three atoms away after the registrations.
  have ran : ∃ s, Run (Step lengthKeeper acceptAll) (.empty unlimited (holdingAtoms 10))
        [⟨anyContract, .registerIncentive (atomProposal "xx" (Dec.ofIntWithPrec 60 2) 1)⟩,
          ⟨anyContract, .registerIncentive (atomProposal "xxx" (Dec.ofIntWithPrec 40 2) 2)⟩,
          ⟨anyContract, .others unlimited (holdingAtoms 7)⟩] s ∧
      (s.incentives.total fun _ incentive =>
        shareOf 7 (allocationOf incentive.allocations "atom")) = 6 :=
    ⟨_, .extend (.extend (.extend .start (.registerIncentive rfl rfl)) (.registerIncentive rfl rfl))
      .others, by decide⟩
  obtain ⟨s, run, shares⟩ := ran
  exact ⟨s, run, shares,
    (afterEpochEnd_never_panics lengthKeeper acceptAll unlimited (holdingAtoms 10) run).2.2 _ _⟩

end Evmos.Incentives
