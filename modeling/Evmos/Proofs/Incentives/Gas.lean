import Evmos.Proofs.Incentives.Allocation

/-! When the total gas of an incentive is the sum of its gas meters, over any run. -/

namespace Evmos.Incentives

open Library

/-- The gas on all meters of a contract. -/
def State.meteredGas (s : State) (contract : Address) : ℕ :=
  ((s.getIncentiveGasMeters contract).map GasMeter.cumulativeGas).sum

/-- The total gas of the incentive of a contract, or nothing when it has none. -/
def State.totalGas (s : State) (contract : Address) : ℕ :=
  (s.incentives.get? contract).elim 0 Incentive.totalGas

/-- Totals match the meters, and incentives are stored under their contract. -/
structure GasMatches (s : State) : Prop where
  keyed : ∀ contract incentive, s.incentives.get? contract = some incentive →
    incentive.contract = contract
  -- A contract without an incentive has no metered gas, as it may be registered later.
  equal : ∀ contract, s.meteredGas contract = s.totalGas contract

variable {s after : State} {k : Keeper} {incentive : Incentive} {reserve : Coins}
  {allocations : Store Address Coins}

theorem meteredGas_congr (same : after.gasMeters = s.gasMeters) (contract : Address) :
    after.meteredGas contract = s.meteredGas contract := by
  unfold State.meteredGas State.getIncentiveGasMeters
  rw [same]

theorem GasMatches.change (matches_ : GasMatches s) (contract : Address)
    (incentives : ∀ other, other ≠ contract →
      after.incentives.get? other = s.incentives.get? other)
    (meters : ∀ other, other ≠ contract → after.meteredGas other = s.meteredGas other)
    (keyed : ∀ found, after.incentives.get? contract = some found → found.contract = contract)
    (equal : after.meteredGas contract = after.totalGas contract) : GasMatches after := by
  refine ⟨?_, ?_⟩
  · intro other found stored
    -- When one contract changes, totals and meters are compared for it alone.
    by_cases here : other = contract
    · subst here
      exact keyed found stored
    · exact matches_.keyed other found (incentives other here ▸ stored)
  · intro other
    by_cases here : other = contract
    · subst here
      exact equal
    · rw [meters other here, matches_.equal other, State.totalGas, State.totalGas,
        incentives other here]

section Meters

variable (s : State)

/-- The meters of a contract, added up as a total over the store. -/
theorem meteredGas_eq_total (contract : Address) :
    s.meteredGas contract =
      s.gasMeters.total fun key gas => if (ofLex key).1 = contract then gas else 0 := by
  unfold State.meteredGas State.getIncentiveGasMeters Store.total
  -- The meters of a contract are filtered, and in the total the others count as zero.
  induction s.gasMeters.entries with
  | nil => rfl
  | cons entry entries ih =>
    simp only [List.map_map] at ih ⊢
    by_cases here : (ofLex entry.1).1 = contract
    · simp only [List.filter_cons, here, decide_true, if_true, List.map_cons, List.sum_cons, ← ih]
      rfl
    · simp only [List.filter_cons, here, decide_false, List.map_cons, List.sum_cons, if_false, ← ih]
      simp

theorem entries_foldl_deleteGasMeter (gms : List GasMeter) :
    (gms.foldl State.deleteGasMeter s).gasMeters.entries =
      s.gasMeters.entries.filter fun entry =>
        gms.all fun gm => entry.1 ≠ toLex (gm.contract, gm.participant) := by
  induction gms generalizing s with
  | nil => simp
  | cons gm gms ih =>
    -- An entry is left if no deleted meter has its key.
    rw [List.foldl_cons, ih]
    simp only [State.deleteGasMeter, Store.delete, List.filter_filter, List.all_cons, Bool.and_comm]

/-- Deleting meters of one contract leaves those of another. -/
theorem getIncentiveGasMeters_foldl_of_ne {contract other : Address} (elsewhere : other ≠ contract)
    (gms : List GasMeter) (own : ∀ gm ∈ gms, gm.contract = contract) :
    (gms.foldl State.deleteGasMeter s).getIncentiveGasMeters other =
      s.getIncentiveGasMeters other := by
  unfold State.getIncentiveGasMeters
  rw [entries_foldl_deleteGasMeter, List.filter_filter]
  congr 1
  refine List.filter_congr fun entry _ => ?_
  by_cases its : (ofLex entry.1).1 = other
  · -- A meter of the other contract is at another key.
    have kept : (gms.all fun gm => decide (entry.1 ≠ toLex (gm.contract, gm.participant))) = true := by
      rw [List.all_eq_true]
      intro gm member
      rw [decide_eq_true_eq]
      intro same
      rw [same] at its
      exact elsewhere (its.symm.trans (own gm member))
    simp only [its, kept, decide_true, Bool.and_self]
  · simp [its]

/-- Deleting all meters of a contract leaves none. -/
theorem getIncentiveGasMeters_foldl_self (contract : Address) :
    ((s.getIncentiveGasMeters contract).foldl State.deleteGasMeter s).getIncentiveGasMeters contract =
      [] := by
  rw [State.getIncentiveGasMeters, entries_foldl_deleteGasMeter, List.filter_filter,
    List.map_eq_nil_iff, List.filter_eq_nil_iff]
  intro entry member
  by_cases its : (ofLex entry.1).1 = contract
  · -- The meter is among those that were deleted.
    have listed : (⟨(ofLex entry.1).1, (ofLex entry.1).2, entry.2⟩ : GasMeter) ∈
        s.getIncentiveGasMeters contract :=
      List.mem_map.mpr ⟨entry, List.mem_filter.mpr ⟨member, by simp [its]⟩, rfl⟩
    intro left
    rw [Bool.and_eq_true, List.all_eq_true] at left
    simpa using left.2 _ listed
  · simp [its]

theorem contract_of_mem_getIncentiveGasMeters {contract : Address} {gm : GasMeter}
    (member : gm ∈ s.getIncentiveGasMeters contract) : gm.contract = contract := by
  obtain ⟨entry, selected, rfl⟩ := List.mem_map.mp member
  simpa using (List.mem_filter.mp selected).2

theorem foldl_deleteGasMeter_bank (gms : List GasMeter) (bank : Bank) :
    gms.foldl State.deleteGasMeter { s with bank := bank } =
      { gms.foldl State.deleteGasMeter s with bank := bank } := by
  induction gms generalizing s with
  | nil => rfl
  | cons gm gms ih =>
    -- Deleting gas meters does not touch the bank.
    rw [List.foldl_cons, List.foldl_cons, ← ih]
    rfl

end Meters

theorem sendCoinsFromModuleToAccount_covered {bank : Bank} {recipient : Address} {coins : Coins}
    (unblocked : k.blockedAddr recipient = false)
    (covered : coins + reserve ≤ bank.balances k.moduleAddress) :
    ∃ after, bank.sendCoinsFromModuleToAccount k.bech32 k.blockedAddr k.moduleAddress recipient coins =
        .ok after ∧ reserve ≤ after.balances k.moduleAddress := by
  refine ⟨_, Bank.sendCoinsFromModuleToAccount_eq_ok.mpr
    ⟨unblocked, le_self_add.trans covered, rfl⟩, ?_⟩
  exact le_moveCoins_from covered recipient

/-- The loop over the participants deletes all meters, when every transfer is covered. -/
theorem rewardLoop_paid {allocated : Coins}
    (gms : List GasMeter) (s : State) (rewards : Coins) (count : ℕ)
    (unblocked : ∀ gm ∈ gms, k.blockedAddr gm.participant = false)
    (covered : (gms.map (participantReward k s.params incentive allocated)).sum + reserve ≤
      s.bank.balances k.moduleAddress) :
    ∃ bank, (rewardLoop k incentive allocated gms s rewards count).2 =
        { gms.foldl State.deleteGasMeter s with bank := bank } ∧
      reserve ≤ bank.balances k.moduleAddress := by
  induction gms generalizing s rewards count with
  | nil => exact ⟨s.bank, rfl, by simpa using covered⟩
  | cons gm gms ih =>
    obtain ⟨first, others⟩ := List.forall_mem_cons.mp unblocked
    rw [List.map_cons, List.sum_cons, add_assoc] at covered
    -- The first reward is covered, and leaves enough for the others and the reserve.
    obtain ⟨paid, sent, left⟩ := sendCoinsFromModuleToAccount_covered first covered
    simp only [rewardLoop, sent]
    obtain ⟨bank, done, reserved⟩ := ih (State.deleteGasMeter { s with bank := paid } gm)
      (rewards + participantReward k s.params incentive allocated gm) (count + 1) others left
    refine ⟨bank, ?_, reserved⟩
    rw [done, List.foldl_cons]
    exact congrArg (fun s : State => { s with bank := bank })
      (foldl_deleteGasMeter_bank (s.deleteGasMeter gm) gms paid)

/-- The coins due to the participants of an incentive, out of what the escrow held at first. -/
def State.rewardsDue (k : Keeper) (escrow : Coins) (s : State) (incentive : Incentive) : Coins :=
  if incentive.totalGas = 0 then 0
  else ((s.getIncentiveGasMeters incentive.contract).map
    (participantReward k s.params incentive (contractAllocation escrow incentive))).sum

/-- No reward of a distribution can fail: the escrow covers them, and no participant is blocked. -/
structure Payable (k : Keeper) (s : State) : Prop where
  unblocked : ∀ contract incentive, s.incentives.get? contract = some incentive →
    incentive.totalGas ≠ 0 → ∀ gm ∈ s.getIncentiveGasMeters contract,
      k.blockedAddr gm.participant = false
  covered : (s.incentives.entries.map fun entry =>
      s.rewardsDue k (s.bank.balances k.moduleAddress) entry.2).sum ≤
    s.bank.balances k.moduleAddress

/-- The rewards of one incentive have been paid, and its meters are gone. -/
structure Rewarded (k : Keeper) (s after : State) (contract : Address) (reserve : Coins) : Prop where
  params : after.params = s.params
  incentives : after.incentives = s.incentives
  cleared : after.meteredGas contract = 0
  others : ∀ other, other ≠ contract →
    after.getIncentiveGasMeters other = s.getIncentiveGasMeters other
  reserved : reserve ≤ after.bank.balances k.moduleAddress

/-- Rewarding the participants of an incentive, when its rewards are covered. -/
theorem rewardParticipants_rewarded {escrow : Coins} (matches_ : GasMatches s)
    (stored : s.incentives.get? incentive.contract = some incentive)
    (allocated : allocations.get? incentive.contract = some (contractAllocation escrow incentive))
    (unblocked : incentive.totalGas ≠ 0 → ∀ gm ∈ s.getIncentiveGasMeters incentive.contract,
      k.blockedAddr gm.participant = false)
    (covered : s.rewardsDue k escrow incentive + reserve ≤ s.bank.balances k.moduleAddress) :
    Rewarded k s (rewardParticipants k s incentive allocations).2 incentive.contract reserve := by
  simp only [rewardParticipants, allocated]
  unfold State.rewardsDue at covered
  split_ifs at covered ⊢ with none
  · -- Without gas there is nothing to pay, and nothing on the meters.
    refine ⟨rfl, rfl, ?_, fun _ _ => rfl, by simpa using covered⟩
    rw [matches_.equal, State.totalGas, stored, Option.elim_some, none]
  · obtain ⟨bank, done, reserved⟩ := rewardLoop_paid _ s 0 0 (unblocked none) covered
    have own : ∀ gm ∈ s.getIncentiveGasMeters incentive.contract,
        gm.contract = incentive.contract := fun _ => contract_of_mem_getIncentiveGasMeters s
    obtain ⟨meters, frame⟩ := foldl_deleteGasMeter_frame
      (s.getIncentiveGasMeters incentive.contract) s
    rw [done]
    refine ⟨by rw [frame], by rw [frame], ?_, ?_, reserved⟩
    · have gone := getIncentiveGasMeters_foldl_self s incentive.contract
      exact (congrArg (fun gms => (List.map GasMeter.cumulativeGas gms).sum) gone).trans rfl
    · intro other elsewhere
      exact getIncentiveGasMeters_foldl_of_ne s elsewhere _ own

/-- One incentive of a distribution is stored anew without gas, or deleted. -/
theorem distributeIncentive_eq (k : Keeper) (allocations : Store Address Coins) (s : State)
    (incentive : Incentive) :
    (distributeIncentive k allocations s incentive).gasMeters =
        (rewardParticipants k s incentive allocations).2.gasMeters ∧
      (distributeIncentive k allocations s incentive).params =
        (rewardParticipants k s incentive allocations).2.params ∧
      (distributeIncentive k allocations s incentive).bank =
        (rewardParticipants k s incentive allocations).2.bank ∧
      ∀ found, (distributeIncentive k allocations s incentive).incentives.get? incentive.contract =
        some found → found.contract = incentive.contract ∧ found.totalGas = 0 ∧
          found.allocations = incentive.allocations := by
  simp only [distributeIncentive]
  -- More epochs are left, or the incentive expires.
  split_ifs
  · refine ⟨rfl, rfl, rfl, ?_⟩
    intro found stored
    simp only [State.setIncentiveTotalGas, State.setIncentive, Store.get?_set_self] at stored
    obtain rfl := Option.some.inj stored
    exact ⟨rfl, rfl, rfl⟩
  · obtain ⟨meters, frame⟩ := deleteIncentive_frame
      (rewardParticipants k s incentive allocations).2
      { incentive with epochs := incentive.epochs - 1 }
    rw [frame]
    refine ⟨rfl, rfl, rfl, ?_⟩
    intro found stored
    rw [Store.get?_delete_self] at stored
    cases stored

/-- A distribution to one incentive keeps totals and meters equal, when its rewards are paid. -/
theorem GasMatches.incentive_distributed (matches_ : GasMatches s)
    (rewarded : Rewarded k s (rewardParticipants k s incentive allocations).2 incentive.contract
      reserve) :
    GasMatches (distributeIncentive k allocations s incentive) := by
  obtain ⟨gas, -, -, own⟩ := distributeIncentive_eq k allocations s incentive
  have elsewhere := fun other (apart : other ≠ incentive.contract) =>
    Metered.get?_distributeIncentive k allocations s incentive apart
  have meters := meteredGas_congr gas
  refine matches_.change incentive.contract elsewhere ?_ (fun found stored => (own found stored).1) ?_
  · intro other apart
    rw [meters, State.meteredGas, rewarded.others other apart]
    rfl
  · -- What is stored for the contract now has no gas, like its meters.
    rw [meters, rewarded.cleared, State.totalGas]
    rcases stored : (distributeIncentive k allocations s incentive).incentives.get?
      incentive.contract with _ | found
    · rfl
    · exact (own found stored).2.1.symm

/-- The map of allocations has the coins of every incentive that was iterated over. -/
theorem foldl_contractAllocation (escrow : Coins) (entries : List (Address × Incentive))
    (distinct : entries.Pairwise fun entry other => entry.1 ≠ other.1)
    (keyed : ∀ entry ∈ entries, entry.2.contract = entry.1) (acc : Store Address Coins × Coins) :
    (∀ entry ∈ entries, (entries.foldl (fun (acc : Store Address Coins × Coins) entry =>
        (acc.1.set entry.2.contract (contractAllocation escrow entry.2),
          acc.2 + contractAllocation escrow entry.2)) acc).1.get? entry.1 =
      some (contractAllocation escrow entry.2)) ∧
    ∀ contract, (∀ entry ∈ entries, entry.1 ≠ contract) →
      (entries.foldl (fun (acc : Store Address Coins × Coins) entry =>
        (acc.1.set entry.2.contract (contractAllocation escrow entry.2),
          acc.2 + contractAllocation escrow entry.2)) acc).1.get? contract = acc.1.get? contract := by
  induction entries generalizing acc with
  | nil => simp
  | cons entry entries ih =>
    obtain ⟨fresh, distinct⟩ := List.pairwise_cons.mp distinct
    obtain ⟨key, keyed⟩ := List.forall_mem_cons.mp keyed
    obtain ⟨listed, others⟩ := ih distinct keyed
      (acc.1.set entry.2.contract (contractAllocation escrow entry.2),
        acc.2 + contractAllocation escrow entry.2)
    constructor
    · refine List.forall_mem_cons.mpr ⟨?_, listed⟩
      -- Later incentives have other contracts, so they do not replace this one.
      rw [List.foldl_cons, others entry.1 fun other member => (fresh other member).symm, ← key]
      exact Store.get?_set_self _ _ _
    · intro contract apart
      obtain ⟨here, later⟩ := List.forall_mem_cons.mp apart
      rw [List.foldl_cons, others contract later]
      exact Store.get?_set_of_ne _ (key ▸ here.symm) _

theorem rewardAllocations_ok
    {rewards : Coins}
    (keyed : ∀ contract incentive, s.incentives.get? contract = some incentive →
      incentive.contract = contract)
    (done : rewardAllocations k s = .ok (allocations, rewards)) :
    ∀ entry ∈ s.incentives.entries, allocations.get? entry.1 =
      some (contractAllocation (s.bank.balances k.moduleAddress) entry.2) := by
  simp only [rewardAllocations] at done
  split_ifs at done
  obtain ⟨rfl, -⟩ := Prod.mk.inj (Except.ok.inj done)
  -- No contract is listed twice, so no allocation is overwritten.
  refine (foldl_contractAllocation _ s.incentives.entries ?_ ?_ _).1
  · exact s.incentives.sorted.imp fun less => less.ne
  · intro entry member
    exact keyed entry.1 entry.2 (Store.get?_eq_some.mpr member)

/-- The state of a distribution before the given incentives are visited. -/
structure Distributing (k : Keeper) (params : Params) (escrow : Coins)
    (allocations : Store Address Coins) (rest : List (Address × Incentive)) (s : State) : Prop where
  gas : GasMatches s
  params : s.params = params
  distinct : rest.Pairwise fun entry other => entry.1 ≠ other.1
  keyed : ∀ entry ∈ rest, entry.2.contract = entry.1
  allocated : ∀ entry ∈ rest, allocations.get? entry.1 = some (contractAllocation escrow entry.2)
  unblocked : ∀ entry ∈ rest, entry.2.totalGas ≠ 0 →
    ∀ gm ∈ s.getIncentiveGasMeters entry.1, k.blockedAddr gm.participant = false
  -- The escrow still covers the rewards to come.
  covered : (rest.map fun entry => s.rewardsDue k escrow entry.2).sum ≤
    s.bank.balances k.moduleAddress

/-- A visit pays the rewards of its incentive and leaves enough for the others. -/
theorem Distributing.visit {params : Params} {escrow : Coins} {entry : Address × Incentive}
    {rest : List (Address × Incentive)}
    (distributing : Distributing k params escrow allocations (entry :: rest) s)
    (stored : s.incentives.get? entry.1 = some entry.2) :
    Distributing k params escrow allocations rest (distributeIncentive k allocations s entry.2) := by
  obtain ⟨matches_, sameParams, distinct, keyed, allocated, unblocked, covered⟩ := distributing
  obtain ⟨fresh, distinct⟩ := List.pairwise_cons.mp distinct
  obtain ⟨key, keyed⟩ := List.forall_mem_cons.mp keyed
  obtain ⟨coins, allocated⟩ := List.forall_mem_cons.mp allocated
  obtain ⟨free, unblocked⟩ := List.forall_mem_cons.mp unblocked
  rw [List.map_cons, List.sum_cons] at covered
  rw [← key] at stored coins free
  have rewarded := rewardParticipants_rewarded matches_ stored coins free covered
  obtain ⟨gas, params, bank, -⟩ := distributeIncentive_eq k allocations s entry.2
  -- The meters of the incentives to come are still the same.
  have meters : ∀ later ∈ rest,
      (distributeIncentive k allocations s entry.2).getIncentiveGasMeters later.1 =
        s.getIncentiveGasMeters later.1 := by
    intro later member
    rw [← rewarded.others later.1 (key ▸ (fresh later member).symm)]
    simp only [State.getIncentiveGasMeters, gas]
  refine ⟨matches_.incentive_distributed rewarded, ?_, distinct, keyed, allocated, ?_, ?_⟩
  · rw [params, rewarded.params, sameParams]
  · intro later member gasSpent
    rw [meters later member]
    exact unblocked later member gasSpent
  · have due : rest.map (fun later =>
          (distributeIncentive k allocations s entry.2).rewardsDue k escrow later.2) =
        rest.map fun later => s.rewardsDue k escrow later.2 := by
      refine List.map_congr_left fun later member => ?_
      rw [State.rewardsDue, State.rewardsDue, params, rewarded.params, keyed later member,
        meters later member]
    rw [due, bank]
    exact rewarded.reserved

/-- A distribution keeps totals and meters equal, when none of its rewards fails. -/
theorem GasMatches.distributeRewards_ok (matches_ : GasMatches s) (payable : Payable k s)
    (done : distributeRewards k s = .ok after) : GasMatches after := by
  obtain ⟨⟨allocations, rewards⟩, allocating, done⟩ := bind_eq_ok.mp done
  -- The invariant of the loop also says that what is still due is covered.
  have initially : Distributing k s.params (s.bank.balances k.moduleAddress) allocations
      s.incentives.entries s := by
    refine ⟨matches_, rfl, s.incentives.sorted.imp fun less => less.ne, ?_,
      rewardAllocations_ok matches_.keyed allocating, ?_, payable.covered⟩
    · intro entry member
      exact matches_.keyed entry.1 entry.2 (Store.get?_eq_some.mpr member)
    · intro entry member
      exact payable.unblocked entry.1 entry.2 (Store.get?_eq_some.mpr member)
  refine (Store.iterate_induction State.incentives
    (Distributing k s.params (s.bank.balances k.moduleAddress) allocations) ?_ initially done).gas
  intro current entry rest next distributing stored visited
  obtain rfl := Except.ok.inj visited
  refine ⟨distributing.visit stored, ?_⟩
  intro other elsewhere
  have key := distributing.keyed entry List.mem_cons_self
  exact Metered.get?_distributeIncentive k allocations current entry.2 (key ▸ elsewhere)

/-- A new incentive has no gas, and its contract has none on the meters. -/
theorem GasMatches.register {ctx : Context} {contract : Address} {allocations : List DecCoin}
    {epochs : UInt32} (matches_ : GasMatches s)
    (done : registerIncentive k ctx s contract allocations epochs = .ok (incentive, after)) :
    GasMatches after := by
  obtain ⟨absent, new, meters, -, rfl⟩ := registerIncentive_ok done
  have key : incentive.contract = contract := by rw [new]; rfl
  have unused : incentive.totalGas = 0 := by rw [new]; rfl
  -- The allocation meters play no part here.
  obtain ⟨stored, frame⟩ := foldl_setAllocationMeter_frame meters (s.setIncentive incentive)
  rw [frame]
  have here : (s.setIncentive incentive).incentives.get? contract = some incentive := by
    rw [← key]
    exact Store.get?_set_self _ _ _
  refine matches_.change contract ?_ (fun _ _ => rfl) ?_ ?_
  · intro other apart
    exact Store.get?_set_of_ne _ (key ▸ apart) _
  · intro found stored
    rw [← Option.some.inj (here.symm.trans stored)]
    exact key
  · have equal := matches_.equal contract
    rw [State.totalGas, absent] at equal
    rw [State.totalGas, here]
    exact equal.trans unused.symm

/-- A cancellation deletes the meters together with the incentive. -/
theorem GasMatches.cancel {contract : Address} (matches_ : GasMatches s)
    (done : cancelIncentive k s contract = .ok after) : GasMatches after := by
  obtain ⟨incentive, stored, rfl⟩ := cancelIncentive_ok done
  have key := matches_.keyed contract incentive stored
  obtain ⟨meters, frame⟩ := deleteIncentive_frame s incentive
  have gas := congrArg State.gasMeters frame
  have deleted := congrArg State.incentives frame
  generalize s.deleteIncentiveAndUpdateAllocationMeters incentive = removed at gas deleted ⊢
  -- The meters of the contract are deleted, and those of the others stay.
  have own : ∀ gm ∈ removed.getIncentiveGasMeters contract, gm.contract = contract :=
    fun _ => contract_of_mem_getIncentiveGasMeters removed
  obtain ⟨gasMeters, rest⟩ := foldl_deleteGasMeter_frame
    (removed.getIncentiveGasMeters contract) removed
  have incentives := congrArg State.incentives rest
  have gone : ((removed.getIncentiveGasMeters contract).foldl State.deleteGasMeter
      removed).incentives.get? contract = none := by
    rw [incentives, deleted, ← key]
    exact Store.get?_delete_self _ _
  refine matches_.change contract ?_ ?_ ?_ ?_
  · intro other apart
    rw [incentives, deleted]
    exact Store.get?_delete_of_ne _ (key ▸ apart)
  · intro other apart
    rw [State.meteredGas, getIncentiveGasMeters_foldl_of_ne removed apart _ own]
    exact meteredGas_congr gas other
  · intro found stored
    rw [gone] at stored
    cases stored
  · rw [State.meteredGas, getIncentiveGasMeters_foldl_self, State.totalGas, gone]
    rfl

/-- A transaction adds the same gas to the total and to the meter of its sender. -/
theorem GasMatches.addGas (matches_ : GasMatches s) {contract : Address}
    (stored : s.incentives.get? contract = some incentive) (participant : Address) (gasUsed : ℕ) :
    GasMatches (addGasToParticipant (addGasToIncentive s incentive gasUsed) contract participant
      gasUsed) := by
  have key := matches_.keyed contract incentive stored
  -- The meter of the sender is set to what it was and the gas.
  obtain ⟨gas, written, sum⟩ : ∃ gas,
      (addGasToParticipant (addGasToIncentive s incentive gasUsed) contract participant
        gasUsed).gasMeters = s.gasMeters.set (toLex (contract, participant)) gas ∧
      gas = gasUsed + (s.gasMeters.get? (toLex (contract, participant))).elim 0 id := by
    refine ⟨_, rfl, ?_⟩
    simp only [State.getGasMeter, addGasToIncentive, State.setIncentive]
    rcases s.gasMeters.get? (toLex (contract, participant)) with _ | previous
    · rfl
    · rfl
  have total := fun weight : Address ×ₗ Address → ℕ → ℕ =>
    s.gasMeters.total_set weight (toLex (contract, participant)) gas
  have now : (addGasToParticipant (addGasToIncentive s incentive gasUsed) contract participant
      gasUsed).incentives.get? contract =
        some { incentive with totalGas := incentive.totalGas + gasUsed } := by
    simp only [addGasToParticipant, addGasToIncentive, State.setGasMeter, State.setIncentive]
    rw [← key]
    exact Store.get?_set_self _ _ _
  refine matches_.change contract ?_ ?_ ?_ ?_
  · intro other apart
    exact Store.get?_set_of_ne _ (key ▸ apart) _
  · intro other apart
    have same := total fun key gas => if (ofLex key).1 = other then gas else 0
    rw [meteredGas_eq_total, meteredGas_eq_total, written]
    simp only [ofLex_toLex, apart.symm, if_false, add_zero] at same
    rcases read : s.gasMeters.get? (toLex (contract, participant)) with _ | previous
    all_goals
      rw [read] at same
      simpa using same
  · intro found stored
    rw [← Option.some.inj (now.symm.trans stored)]
    exact key
  · have more := total fun key gas => if (ofLex key).1 = contract then gas else 0
    have before := matches_.equal contract
    rw [meteredGas_eq_total, State.totalGas, stored, Option.elim_some] at before
    rw [meteredGas_eq_total, written, State.totalGas, now]
    change _ = incentive.totalGas + gasUsed
    simp only [ofLex_toLex, if_true] at more
    rcases read : s.gasMeters.get? (toLex (contract, participant)) with _ | previous
    all_goals
      rw [read] at sum more
      simp only [Option.elim_none, Option.elim_some, id_eq] at sum more
      omega

theorem GasMatches.postTxProcessing_ok (matches_ : GasMatches s) (ctx : Context) (msg : Message) :
    GasMatches (postTxProcessing ctx s msg) := by
  -- The gas is ignored, or added on both sides.
  rcases postTxProcessing_cases ctx s msg with same | ⟨contract, incentive, stored, added⟩
  · rw [same]
    exact matches_
  · rw [added]
    exact matches_.addGas stored msg.fromAddr msg.gasUsed

/-- A distribution is only made when none of its rewards can fail. -/
def NoneFails (k : Keeper) (s : State) (call : Call) : Prop :=
  call.action = .distributeRewards → Payable k s

theorem GasMatches.step {v : Validators} {call : Call} (matches_ : GasMatches s)
    (taken : Guarded (NoneFails k) (Step k v) s call after) : GasMatches after := by
  obtain ⟨payable, taken⟩ := taken
  -- Only a distribution needs the guard.
  cases taken with
  | registerIncentive _ registered => exact matches_.register registered
  | cancelIncentive cancelled => exact matches_.cancel cancelled
  | postTx => exact matches_.postTxProcessing_ok _ _
  | distributeRewards distributed => exact matches_.distributeRewards_ok (payable rfl) distributed
  | others => exact ⟨matches_.keyed, matches_.equal⟩

/--
The total gas of every registered incentive is the sum of its gas meters.

This holds for every run in which no reward of a distribution can fail.
-/
theorem totalGas_eq_meteredGas (k : Keeper) (v : Validators) (params : Params) (bank : Bank)
    {calls : List Call} {s : State}
    (run : Run (Guarded (NoneFails k) (Step k v)) (.empty params bank) calls s) :
    ∀ contract incentive, s.incentives.get? contract = some incentive →
      incentive.totalGas = ((s.getIncentiveGasMeters contract).map GasMeter.cumulativeGas).sum := by
  have initially : GasMatches (.empty params bank) := by
    refine ⟨?_, fun _ => rfl⟩
    intro contract incentive absent
    cases absent
  -- Along a run the invariant relates all contracts, registered or not.
  have matches_ : GasMatches s := run.invariant GasMatches GasMatches.step initially
  intro contract incentive stored
  have equal := matches_.equal contract
  rw [State.totalGas, stored] at equal
  exact equal.symm

/-- A transaction to the contract with address two. -/
def useContract (participant : Address) (gasUsed : ℕ) : Call :=
  ⟨anyContract, .postTx ⟨some 2, participant, gasUsed⟩⟩

/-- An incentive for the contract with address two that may take all atoms. -/
def allAtoms : Call := ⟨anyContract, .registerIncentive (atomProposal "xx" 1 2)⟩

/-- With a small escrow all rewards are paid, and the next epoch starts without gas. -/
theorem smallEscrow_totalGas_matches :
    ∃ s incentive, Run (Guarded (NoneFails lengthKeeper) (Step lengthKeeper acceptAll))
        (.empty unlimited (holdingAtoms 10))
        [allAtoms, useContract 11 1, useContract 12 3, ⟨anyContract, .distributeRewards⟩,
          useContract 13 5] s ∧
      s.incentives.get? 2 = some incentive ∧ incentive.totalGas = 5 ∧
      incentive.totalGas = ((s.getIncentiveGasMeters 2).map GasMeter.cumulativeGas).sum := by
  -- Everything is paid in the epoch, and the gas after it is counted from zero.
  have ran : ∃ s incentive, Run (Guarded (NoneFails lengthKeeper) (Step lengthKeeper acceptAll))
        (.empty unlimited (holdingAtoms 10))
        [allAtoms, useContract 11 1, useContract 12 3, ⟨anyContract, .distributeRewards⟩,
          useContract 13 5] s ∧
      s.incentives.get? 2 = some incentive ∧ incentive.totalGas = 5 :=
    ⟨_, _, .extend (.extend (.extend (.extend (.extend .start
      ⟨nofun, .registerIncentive rfl rfl⟩) ⟨nofun, .postTx⟩) ⟨nofun, .postTx⟩)
      ⟨fun _ => ⟨fun _ _ _ _ _ _ => rfl, by decide⟩, .distributeRewards rfl⟩) ⟨nofun, .postTx⟩,
      rfl, rfl⟩
  obtain ⟨s, incentive, run, stored, total⟩ := ran
  exact ⟨s, incentive, run, stored, total,
    totalGas_eq_meteredGas lengthKeeper acceptAll unlimited (holdingAtoms 10) run 2 incentive stored⟩

/-- Rounded ratios add up to more than one, so the last of four transfers fails. -/
theorem exhaustedEscrow_totalGas_differs :
    ∃ s incentive, Run (Step lengthKeeper acceptAll)
        (.empty unlimited (holdingAtoms 2000000000000000000))
        [allAtoms, useContract 11 1, useContract 12 1, useContract 13 1, useContract 14 3,
          ⟨anyContract, .distributeRewards⟩] s ∧
      s.incentives.get? 2 = some incentive ∧ incentive.totalGas = 0 ∧
      ((s.getIncentiveGasMeters 2).map GasMeter.cumulativeGas).sum = 3 :=
  ⟨_, _, .extend (.extend (.extend (.extend (.extend (.extend .start (.registerIncentive rfl rfl))
    .postTx) .postTx) .postTx) .postTx) (.distributeRewards rfl), rfl, rfl, by decide⟩

end Evmos.Incentives
