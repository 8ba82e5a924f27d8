import Evmos.Claims.Chain

/-! What claiming and merging pay out of the escrow, and what they leave unclaimed. -/

namespace Evmos.Claims

open Library

namespace ClaimsRecord

/-- What one action of a record pays in total, to the user and to the community pool. -/
def share (cr : ClaimsRecord) : ℕ := cr.initialClaimableAmount / 4

/-- The number of actions that have not been claimed. -/
def unclaimed (cr : ClaimsRecord) : ℕ := ∑ i, if cr.actionsCompleted i then 0 else 1

/-- What the escrow has to hold for a record. -/
def need (cr : ClaimsRecord) : ℕ := cr.unclaimed * cr.share

@[simp] theorem share_markClaimed (cr : ClaimsRecord) (action : Action) :
    (cr.markClaimed action).share = cr.share := by
  unfold markClaimed
  split <;> rfl

theorem unclaimed_markClaimed {cr : ClaimsRecord} {action : Action}
    (specified : action ≠ .unspecified) (open_ : cr.hasClaimedAction action = false) :
    (cr.markClaimed action).unclaimed + 1 = cr.unclaimed := by
  -- Only the flag of the action changes, from false to true.
  have counts : ∀ i, cr.actionsCompleted i = false →
      (∑ j, if Function.update cr.actionsCompleted i true j then 0 else 1) + 1 = cr.unclaimed := by
    intro i flag
    have others : (∑ j ∈ Finset.univ.erase i,
          if Function.update cr.actionsCompleted i true j then 0 else 1) =
        ∑ j ∈ Finset.univ.erase i, if cr.actionsCompleted j then 0 else 1 := by
      refine Finset.sum_congr rfl fun j member => ?_
      rw [Function.update_of_ne (Finset.ne_of_mem_erase member)]
    rw [unclaimed, ← Finset.add_sum_erase _ _ (Finset.mem_univ i), others,
      ← Finset.add_sum_erase Finset.univ (fun j => if cr.actionsCompleted j then 0 else 1)
        (Finset.mem_univ i)]
    simp [flag, add_comm]
  cases action with
  | unspecified => exact absurd rfl specified
  | vote => exact counts 0 open_
  | delegate => exact counts 1 open_
  | evm => exact counts 2 open_
  | ibcTransfer => exact counts 3 open_

theorem need_markClaimed {cr : ClaimsRecord} {action : Action}
    (specified : action ≠ .unspecified) (open_ : cr.hasClaimedAction action = false) :
    (cr.markClaimed action).need + cr.share = cr.need := by
  have fewer := unclaimed_markClaimed specified open_
  rw [need, need, share_markClaimed, ← fewer]
  ring

theorem share_le_need {cr : ClaimsRecord} {action : Action} (specified : action ≠ .unspecified)
    (open_ : cr.hasClaimedAction action = false) : cr.share ≤ cr.need := by
  have removed := need_markClaimed specified open_
  omega

end ClaimsRecord

/-- In the claim window an unclaimed action pays its share, in two nonnegative parts. -/
theorem getClaimableAmountForAction_spec {params : Params} {blockTime : Time}
    (active : params.isClaimsActive blockTime = true)
    {cr : ClaimsRecord} {action : Action} (open_ : cr.hasClaimedAction action = false) :
    0 ≤ (getClaimableAmountForAction params blockTime cr action).1 ∧
      0 ≤ (getClaimableAmountForAction params blockTime cr action).2 ∧
      (getClaimableAmountForAction params blockTime cr action).1 +
        (getClaimableAmountForAction params blockTime cr action).2 = cr.share := by
  simp only [getClaimableAmountForAction, active, Bool.not_true, Bool.false_eq_true, if_false,
    claimableAmountForAction, open_]
  split_ifs with nothing early
  · simp [ClaimsRecord.share, nothing]
  · -- Before the decay everything is paid to the user.
    refine ⟨?_, le_rfl, ?_⟩
    · positivity
    · simp [ClaimsRecord.share]
  · -- During the decay the ratio lies between zero and one.
    have begun : params.decayStartTime < blockTime := by simpa using early
    have ends : blockTime ≤ params.airdropEndTime := by
      simp only [Params.isClaimsActive, Bool.not_eq_true', Bool.or_eq_false_iff,
        decide_eq_false_iff_not, not_lt] at active
      exact active.2
    have elapsed : blockTime - params.decayStartTime ≤ params.durationOfDecay := by
      simp only [Params.airdropEndTime, Params.decayStartTime] at ends ⊢
      linarith
    have decays : 0 < params.durationOfDecay := by linarith
    obtain ⟨low, high⟩ := Dec.quoInt_bounds (sub_nonneg.mpr begun.le) elapsed decays
    obtain ⟨low, high⟩ := Dec.one_sub_bounds low high
    have sign : (0 : ℤ) ≤ cr.initialClaimableAmount / 4 := by positivity
    obtain ⟨paid, rest⟩ := Dec.roundInt_bounds sign low high
    refine ⟨paid, by omega, ?_⟩
    simp [ClaimsRecord.share]

/-- An amount has left the escrow, and nothing else the module keeps has changed. -/
structure Pays (k : Keeper) (before after : State) (amount : ℤ) : Prop where
  params : after.params = before.params
  records : after.records = before.records
  escrow : (after.escrow k : ℤ) + amount = before.escrow k

variable {k : Keeper} {amount : ℤ} {s after : State} {recipient : Address}

theorem Pays.trans {first second third : State} {more : ℤ} (paid : Pays k first second amount)
    (again : Pays k second third more) :
    Pays k first third (amount + more) where
  params := again.params.trans paid.params
  records := again.records.trans paid.records
  escrow := by
    have firstly := paid.escrow
    have secondly := again.escrow
    omega

theorem escrow_moveCoins {toAddr : Address} (positive : 0 < amount)
    (elsewhere : k.moduleAddress ≠ toAddr)
    (covered : Coins.ofCoin s.params.claimsDenom amount.toNat ≤ s.balances k.moduleAddress) :
    (moveCoins s.balances k.moduleAddress toAddr (Coins.ofCoin s.params.claimsDenom amount.toNat)
        k.moduleAddress s.params.claimsDenom : ℤ) + amount = s.escrow k := by
  -- The coin is covered, so the subtraction does not truncate.
  have enough := covered s.params.claimsDenom
  rw [moveCoins_from _ elsewhere]
  simp only [Coins.amountOf_ofCoin_self, DFinsupp.tsub_apply, State.escrow] at enough ⊢
  omega

/-- One coin leaves the escrow exactly when it is positive and the escrow covers it. -/
theorem sendSingleCoin_eq_ok {α : Type} {toAddr : Address} {record : Coins → Balances → α}
    {value : α} :
    (do
      let coins ← singleCoin s.params.claimsDenom amount
      let balances ← sendCoins s.balances k.moduleAddress toAddr coins
      .ok (record coins balances) : Result α) = .ok value ↔
    0 < amount ∧ Coins.ofCoin s.params.claimsDenom amount.toNat ≤ s.balances k.moduleAddress ∧
      value = record (Coins.ofCoin s.params.claimsDenom amount.toNat)
        (moveCoins s.balances k.moduleAddress toAddr
          (Coins.ofCoin s.params.claimsDenom amount.toNat)) := by
  -- Both steps have to succeed, and the second one returns the balances.
  constructor
  · intro sent
    obtain ⟨coins, single, sent⟩ := bind_eq_ok.mp sent
    obtain ⟨balances, moved, sent⟩ := bind_eq_ok.mp sent
    unfold singleCoin at single
    split_ifs at single with positive
    obtain rfl := Except.ok.inj single
    obtain ⟨covered, rfl⟩ := sendCoins_eq_ok.mp moved
    exact ⟨positive, covered, (Except.ok.inj sent).symm⟩
  · rintro ⟨positive, covered, rfl⟩
    exact bind_eq_ok.mpr ⟨_, if_pos positive, bind_eq_ok.mpr
      ⟨_, sendCoins_eq_ok.mpr ⟨covered, rfl⟩, rfl⟩⟩

theorem State.sendCoinsFromModuleToAccount_eq_ok :
    s.sendCoinsFromModuleToAccount k recipient amount = .ok after ↔
      k.blockedAddr recipient = false ∧ 0 < amount ∧
        Coins.ofCoin s.params.claimsDenom amount.toNat ≤ s.balances k.moduleAddress ∧
        after = { s with
          balances := moveCoins s.balances k.moduleAddress recipient
            (Coins.ofCoin s.params.claimsDenom amount.toNat) } := by
  unfold State.sendCoinsFromModuleToAccount
  -- A blocked recipient is refused before the coin is made.
  cases blocked : k.blockedAddr recipient with
  | true => simp
  | false =>
    rw [if_neg (by decide), sendSingleCoin_eq_ok]
    exact (and_iff_right rfl).symm

theorem State.fundCommunityPool_eq_ok :
    s.fundCommunityPool k amount = .ok after ↔
      0 < amount ∧ Coins.ofCoin s.params.claimsDenom amount.toNat ≤ s.balances k.moduleAddress ∧
        after = { s with
          balances := moveCoins s.balances k.moduleAddress k.distributionAddress
            (Coins.ofCoin s.params.claimsDenom amount.toNat)
          communityPool := s.communityPool + Coins.ofCoin s.params.claimsDenom amount.toNat } :=
  sendSingleCoin_eq_ok

theorem ofCoin_le_escrow (enough : amount ≤ s.escrow k) :
    Coins.ofCoin s.params.claimsDenom amount.toNat ≤ s.balances k.moduleAddress :=
  Coins.ofCoin_le_iff.mpr (Int.toNat_le.mpr enough)

/-- An account that is not blocked is not the escrow, since the application blocks that. -/
theorem module_ne_of_unblocked {addr : Address} (unblocked : k.blockedAddr addr = false) :
    k.moduleAddress ≠ addr := by
  rintro rfl
  rw [k.moduleBlocked] at unblocked
  cases unblocked

theorem sendCoinsFromModuleToAccount_ok
    (sent : s.sendCoinsFromModuleToAccount k recipient amount = .ok after) :
    0 < amount ∧ k.blockedAddr recipient = false ∧ Pays k s after amount := by
  obtain ⟨unblocked, positive, covered, rfl⟩ := State.sendCoinsFromModuleToAccount_eq_ok.mp sent
  -- The coins really leave the escrow.
  have elsewhere := module_ne_of_unblocked unblocked
  exact ⟨positive, unblocked, rfl, rfl, escrow_moveCoins positive elsewhere covered⟩

theorem sendCoinsFromModuleToAccount_error {err : Err} (positive : 0 < amount)
    (failed : s.sendCoinsFromModuleToAccount k recipient amount = .error err) :
    k.blockedAddr recipient = true ∨ s.escrow k < amount := by
  -- There is no other reason to fail.
  by_contra fine
  push Not at fine
  obtain ⟨unblocked, enough⟩ := fine
  have sent := State.sendCoinsFromModuleToAccount_eq_ok.mpr
    ⟨Bool.eq_false_iff.mpr unblocked, positive, ofCoin_le_escrow enough, rfl⟩
  rw [sent] at failed
  cases failed

theorem fundCommunityPool_ok (funded : s.fundCommunityPool k amount = .ok after) :
    0 < amount ∧ Pays k s after amount := by
  obtain ⟨positive, covered, rfl⟩ := State.fundCommunityPool_eq_ok.mp funded
  exact ⟨positive, rfl, rfl, escrow_moveCoins positive k.moduleDistinct covered⟩

theorem fundCommunityPool_error {err : Err} (positive : 0 < amount)
    (failed : s.fundCommunityPool k amount = .error err) : s.escrow k < amount := by
  by_contra enough
  have funded := State.fundCommunityPool_eq_ok.mpr
    ⟨positive, ofCoin_le_escrow (not_lt.mp enough), rfl⟩
  rw [funded] at failed
  cases failed

/-- A claim has been paid and the action marked, for the record stored at an address. -/
structure Claimed (k : Keeper) (before after : State) (addr : Address) (cr : ClaimsRecord)
    (action : Action) : Prop where
  specified : action ≠ .unspecified
  unclaimed : cr.hasClaimedAction action = false
  params : after.params = before.params
  records : after.records = before.records.set addr (cr.markClaimed action)
  -- The payout and the part for the community pool make up one share.
  escrow : after.escrow k + cr.share = before.escrow k

/-- The ways in which `ClaimCoinsForAction` can end. -/
inductive ClaimOutcome (k : Keeper) (s : State) (addr : Address) (cr : ClaimsRecord)
    (action : Action) : Result ℤ × State → Prop where
  /-- The action or the account is refused, before anything is paid. -/
  | refused {err : Err} (reason : action = .unspecified ∨ k.blockedAddr addr = true) :
      ClaimOutcome k s addr cr action (.error err, s)
  /-- The escrow does not hold the share, and part of it may have been paid. -/
  | short {err : Err} {after : State} (specified : action ≠ .unspecified)
      (unclaimed : cr.hasClaimedAction action = false) (less : s.escrow k < cr.share) :
      ClaimOutcome k s addr cr action (.error err, after)
  /-- There is nothing to claim. -/
  | nothing : ClaimOutcome k s addr cr action (.ok 0, s)
  /-- The share is paid. -/
  | claimed {amount : ℤ} {after : State} (positive : 0 < amount)
      (claimed : Claimed k s after addr cr action) :
      ClaimOutcome k s addr cr action (.ok amount, after)

/-- Inside the claim window a claim ends in one of these ways. -/
theorem claimCoinsForAction_outcome {blockTime : Time}
    (active : s.params.isClaimsActive blockTime = true) (addr : Address) (cr : ClaimsRecord)
    (action : Action) :
    ClaimOutcome k s addr cr action (claimCoinsForAction k blockTime s addr cr action) := by
  unfold claimCoinsForAction
  split_ifs with unspecified inactive done
  · exact .refused (.inl unspecified)
  · exact .nothing
  · exact .nothing
  have open_ : cr.hasClaimedAction action = false := by simpa using done
  obtain ⟨payout, rest, sum⟩ := getClaimableAmountForAction_spec active open_
  generalize getClaimableAmountForAction s.params blockTime cr action = shares at *
  obtain ⟨claimable, remainder⟩ := shares
  simp only at payout rest sum ⊢
  by_cases zero : claimable = 0
  · rw [if_pos zero]
    exact .nothing
  rw [if_neg zero]
  have positive : 0 < claimable := by omega
  rcases sent : s.sendCoinsFromModuleToAccount k addr claimable with err | paid
  · -- The first transfer fails, so the state is the old one.
    rcases sendCoinsFromModuleToAccount_error positive sent with blocked | less
    · exact .refused (.inr blocked)
    · exact .short unspecified open_ (by omega)
  obtain ⟨-, -, pays⟩ := sendCoinsFromModuleToAccount_ok sent
  have claims : ∀ funded : State, Pays k paid funded remainder →
      Claimed k s { funded with records := funded.records.set addr (cr.markClaimed action) } addr cr
        action := by
    intro funded again
    have both := pays.trans again
    refine ⟨unspecified, open_, both.params, by rw [both.records], ?_⟩
    have balance := both.escrow
    rw [sum] at balance
    simp only [State.escrow] at balance ⊢
    omega
  rcases eq_or_ne remainder 0 with none | some
  · -- Without a remainder there is no second transfer.
    simp only [none, if_true]
    exact .claimed positive (claims paid ⟨rfl, rfl, by omega⟩)
  · simp only [some, if_false]
    rcases funding : paid.fundCommunityPool k remainder with err | funded
    · have less := fundCommunityPool_error (by omega) funding
      have balance := pays.escrow
      exact .short unspecified open_ (by omega)
    · obtain ⟨-, again⟩ := fundCommunityPool_ok funding
      exact .claimed positive (claims funded again)

end Evmos.Claims
