import Evmos.Library.Simulation
import Evmos.Proofs.Incentives.Rewards
import Evmos.Sdk.Accounting

/-! Who pays in the incentives module: the escrow, which may lose coins that nobody receives. -/

namespace Evmos.Incentives

open Library

variable {k : Keeper} {s after : State}

/-- The coins that an incentive pays before other coins. -/
def Incentive.paidBefore (incentive : Incentive) : Set Denom :=
  {denom | ∃ al ∈ incentive.allocations, ∃ later ∈ incentive.allocations,
    al.denom = denom ∧ denom < later.denom}

/-- The coins that some incentive pays before other coins. -/
def State.paidBefore (s : State) : Set Denom :=
  {denom | ∃ contract incentive, s.incentives.get? contract = some incentive ∧
    denom ∈ incentive.paidBefore}

/-- The escrow alone has paid, and no coins but the given ones are lost. -/
abbrev EscrowPays (k : Keeper) (lost : Set Denom) (before after : State) : Prop :=
  before.bank.Altered {k.moduleAddress} ∅ lost after.bank

theorem registerIncentive_bank {ctx : Context} {contract : Address} {allocations : List DecCoin}
    {epochs : UInt32} {incentive : Incentive}
    (registered : registerIncentive k ctx s contract allocations epochs = .ok (incentive, after)) :
    after.bank = s.bank := by
  obtain ⟨-, -, meters, -, rfl⟩ := registerIncentive_ok registered
  -- Only the incentive and its meters are stored.
  obtain ⟨stored, frame⟩ := foldl_setAllocationMeter_frame meters (s.setIncentive incentive)
  rw [frame]
  rfl

theorem cancelIncentive_bank {contract : Address}
    (cancelled : cancelIncentive k s contract = .ok after) : after.bank = s.bank := by
  obtain ⟨incentive, -, rfl⟩ := cancelIncentive_ok cancelled
  obtain ⟨gasMeters, rest⟩ := foldl_deleteGasMeter_frame
    ((s.deleteIncentiveAndUpdateAllocationMeters incentive).getIncentiveGasMeters contract)
    (s.deleteIncentiveAndUpdateAllocationMeters incentive)
  obtain ⟨meters, frame⟩ := deleteIncentive_frame s incentive
  rw [rest, frame]

theorem postTxProcessing_bank (ctx : Context) (s : State) (msg : Message) :
    (postTxProcessing ctx s msg).bank = s.bank := by
  unfold postTxProcessing
  repeat' split
  all_goals rfl

theorem allocated_of_participantReward {params : Params} {incentive : Incentive} {allocated : Coins}
    {gm : GasMeter} {denom : Denom}
    (rewarded : participantReward k params incentive allocated gm denom ≠ 0) :
    ∃ al ∈ incentive.allocations, al.denom = denom := by
  -- Each listing adds a payout, and without one there is nothing.
  rw [participantReward_apply] at rewarded
  obtain ⟨al, member, here⟩ := List.countP_pos_iff.mp
    (Nat.pos_of_ne_zero (left_ne_zero_of_mul rewarded))
  exact ⟨al, member, of_decide_eq_true here⟩

/-- Paying participants is paid by the escrow, and may lose what comes before a missing coin. -/
theorem escrowPays_rewardLoop (k : Keeper) (incentive : Incentive) (allocated : Coins)
    (gms : List GasMeter) (s : State) (rewards : Coins) (count : ℕ) :
    EscrowPays k incentive.paidBefore s
      (rewardLoop k incentive allocated gms s rewards count).2 := by
  -- The loop ends at the first transfer that fails.
  induction gms generalizing s rewards count with
  | nil => exact .refl _
  | cons gm gms ih =>
    unfold rewardLoop
    dsimp only
    split
    · next refused =>
      refine Bank.Altered.of_failedSend k.blockedAddr (Set.mem_singleton _) ?_
      intro unblocked denom taken
      -- The transfer fails for want of coins, since the recipient is not blocked.
      have missing : ¬participantReward k s.params incentive allocated gm ≤
          s.bank.balances k.moduleAddress := by
        intro covered
        rw [Bank.sendCoinsFromModuleToAccount_eq_ok.mpr
          ⟨unblocked, covered, rfl⟩] at refused
        cases refused
      obtain ⟨rewarded, later, more, order⟩ := Coins.lt_of_beforeMissing missing taken
      obtain ⟨al, member, here⟩ := allocated_of_participantReward rewarded
      obtain ⟨other, among, there⟩ := allocated_of_participantReward more
      exact ⟨al, member, other, among, here, there ▸ order⟩
    · next bank sent =>
      have paid : s.bank.Altered {k.moduleAddress} ∅ incentive.paidBefore bank :=
        .of_sendCoinsFromModuleToAccount rfl sent
      have rest := ih (State.deleteGasMeter { s with bank := bank } gm)
        (rewards + participantReward k s.params incentive allocated gm) (count + 1)
      exact paid.trans rest

/-- Distributing the rewards of one incentive is paid by the escrow. -/
theorem escrowPays_distributeIncentive (k : Keeper) (allocations : Store Address Coins)
    (s : State) (incentive : Incentive) :
    EscrowPays k incentive.paidBefore s (distributeIncentive k allocations s incentive) := by
  -- What happens to the incentive itself moves no coins.
  unfold EscrowPays
  rw [(distributeIncentive_eq k allocations s incentive).2.2.1]
  unfold rewardParticipants
  split
  · exact .refl _
  split
  · exact .refl _
  · exact escrowPays_rewardLoop ..

/-- Distributing all rewards is paid by the escrow. -/
theorem escrowPays_distributeRewards (distributed : distributeRewards k s = .ok after) :
    EscrowPays k s.paidBefore s after := by
  obtain ⟨⟨allocations, rewards⟩, -, loop⟩ := bind_eq_ok.mp distributed
  -- Each round of the loop pays out of the escrow, for an incentive that was stored.
  refine (Run.of_foldlM loop).invariant (EscrowPays k s.paidBefore s) ?_ (.refl _)
  intro before entry next paid ⟨listed, visited⟩
  obtain rfl := Except.ok.inj visited
  have round := escrowPays_distributeIncentive k allocations before entry.2
  refine paid.trans (round.widen subset_rfl subset_rfl ?_)
  intro denom lost
  exact ⟨entry.1, entry.2, Store.get?_eq_some.mpr listed, lost⟩

/-- A distribution stores no incentive with other allocations than before. -/
theorem paidBefore_distributeRewards (distributed : distributeRewards k s = .ok after) :
    after.paidBefore ⊆ s.paidBefore := by
  obtain ⟨⟨allocations, rewards⟩, -, loop⟩ := bind_eq_ok.mp distributed
  refine (Run.of_foldlM loop).invariant (fun current => current.paidBefore ⊆ s.paidBefore) ?_
    subset_rfl
  intro before entry next earlier ⟨listed, visited⟩
  obtain rfl := Except.ok.inj visited
  rintro denom ⟨contract, incentive, stored, paid⟩
  by_cases here : contract = entry.2.contract
  · -- The incentive of this round is stored again with its allocations.
    subst here
    obtain ⟨-, -, -, own⟩ := distributeIncentive_eq k allocations before entry.2
    obtain ⟨-, -, same⟩ := own incentive stored
    refine ⟨entry.1, entry.2, Store.get?_eq_some.mpr listed, ?_⟩
    unfold Incentive.paidBefore at paid ⊢
    rwa [same] at paid
  · rw [Metered.get?_distributeIncentive k allocations before entry.2 here] at stored
    exact earlier ⟨contract, incentive, stored, paid⟩

theorem afterEpochEnd_ok {epochIdentifier : String} {epochNumber : ℤ}
    (ended : afterEpochEnd k epochIdentifier epochNumber s = .ok after) :
    after = s ∨ distributeRewards k s = .ok after := by
  unfold afterEpochEnd at ended
  -- Incentives are disabled, the epoch is another one, or rewards are distributed.
  split at ended
  · exact .inl (Except.ok.inj ended).symm
  split at ended
  · exact .inl (Except.ok.inj ended).symm
  split at ended
  · next distributed =>
    obtain rfl := Except.ok.inj ended
    exact .inr distributed
  · cases ended

/-- The accounts that a call takes coins from, unless others have acted. -/
def Call.payers (k : Keeper) (call : Call) : Set Address :=
  match call.action with
  | .distributeRewards => {k.moduleAddress}
  | _ => ∅

/-- The denominations of which a call may lose coins, unless others have acted. -/
def Call.loses (s : State) (call : Call) : Set Denom :=
  match call.action with
  | .distributeRewards => s.paidBefore
  | _ => ∅

theorem Step.altered {v : Validators} {call : Call}
    (own : ∀ params bank, call.action ≠ .others params bank) (taken : Step k v s call after) :
    s.bank.Altered (call.payers k) ∅ (call.loses s) after.bank := by
  -- Only the distribution of rewards moves coins.
  cases taken with
  | registerIncentive valid registered =>
    rw [registerIncentive_bank registered]
    exact .refl _
  | cancelIncentive cancelled =>
    rw [cancelIncentive_bank cancelled]
    exact .refl _
  | postTx =>
    rw [postTxProcessing_bank]
    exact .refl _
  | distributeRewards distributed => exact escrowPays_distributeRewards distributed
  | others => exact absurd rfl (own _ _)

end Evmos.Incentives
