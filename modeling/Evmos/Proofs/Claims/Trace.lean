import Evmos.Proofs.Claims.Order

/-! A claim that fails on a hook leaves a trace if the escrow covers only its first payment. -/

namespace Evmos.Claims

open Library

/-- The claim a hook makes for an action of an account returns an error. -/
def ClaimFails (k : Keeper) (blockTime : Time) (s : State) (addr : Address) (action : Action) :
    Prop :=
  ∃ cr err, s.records.get? addr = some cr ∧
    (claimCoinsForAction k blockTime s addr cr action).1 = .error err

/-- The escrow covers what an open action pays to the account, but not the whole share. -/
def CoversPayoutOnly (k : Keeper) (blockTime : Time) (s : State) (addr : Address)
    (action : Action) : Prop :=
  ∃ cr, s.records.get? addr = some cr ∧ s.params.isClaimsActive blockTime = true ∧
    cr.hasClaimedAction action = false ∧ k.blockedAddr addr = false ∧
    0 < (getClaimableAmountForAction s.params blockTime cr action).1 ∧
    (getClaimableAmountForAction s.params blockTime cr action).1 ≤ s.escrow k ∧
    (s.escrow k : ℤ) < cr.initialClaimableAmount / 4

section Claim

variable {k : Keeper} {blockTime : Time} {s : State} {addr : Address} {cr : ClaimsRecord}
  {action : Action}

/-- With an escrow that covers the payout only, the payout is made and the claim fails. -/
theorem claimCoinsForAction_torn (specified : action ≠ .unspecified)
    (active : s.params.isClaimsActive blockTime = true)
    (open_ : cr.hasClaimedAction action = false) (unblocked : k.blockedAddr addr = false)
    (positive : 0 < (getClaimableAmountForAction s.params blockTime cr action).1)
    (covered : (getClaimableAmountForAction s.params blockTime cr action).1 ≤ s.escrow k)
    (less : s.escrow k < cr.share) :
    ∃ err paid, claimCoinsForAction k blockTime s addr cr action = (.error err, paid) ∧
      Pays k s paid (getClaimableAmountForAction s.params blockTime cr action).1 := by
  obtain ⟨-, -, sum⟩ := getClaimableAmountForAction_spec active open_
  unfold claimCoinsForAction
  rw [if_neg specified, active, open_]
  generalize getClaimableAmountForAction s.params blockTime cr action = shares at *
  obtain ⟨claimable, remainder⟩ := shares
  dsimp only at positive covered sum ⊢
  rw [if_neg (by decide), if_neg (by decide), if_neg positive.ne']
  rcases sent : s.sendCoinsFromModuleToAccount k addr claimable with err | paid
  · -- The account is not blocked and the escrow covers the payout.
    rcases sendCoinsFromModuleToAccount_error positive sent with blocked | short
    · rw [unblocked] at blocked
      cases blocked
    · omega
  obtain ⟨-, -, pays⟩ := sendCoinsFromModuleToAccount_ok sent
  have balance := pays.escrow
  have more : remainder ≠ 0 := by omega
  simp only [if_neg more]
  rcases funding : paid.fundCommunityPool k remainder with err | funded
  · exact ⟨err, paid, rfl, pays⟩
  · -- What is left in escrow does not cover the remainder.
    obtain ⟨-, again⟩ := fundCommunityPool_ok funding
    have rest := again.escrow
    omega

/-- A claim that fails in any other way has changed nothing. -/
theorem claimCoinsForAction_failed {err : Err}
    (failed : (claimCoinsForAction k blockTime s addr cr action).1 = .error err) :
    (claimCoinsForAction k blockTime s addr cr action).2 = s ∨
      s.params.isClaimsActive blockTime = true ∧ cr.hasClaimedAction action = false ∧
        k.blockedAddr addr = false ∧
        0 < (getClaimableAmountForAction s.params blockTime cr action).1 ∧
        (getClaimableAmountForAction s.params blockTime cr action).1 ≤ s.escrow k ∧
        s.escrow k < cr.share := by
  unfold claimCoinsForAction at failed ⊢
  by_cases unspecified : action = .unspecified
  · rw [if_pos unspecified]
    exact .inl rfl
  rw [if_neg unspecified] at failed ⊢
  rcases active : s.params.isClaimsActive blockTime with _ | _
  · exact .inl rfl
  rcases open_ : cr.hasClaimedAction action with _ | _
  swap
  · exact .inl rfl
  obtain ⟨low, rest, sum⟩ := getClaimableAmountForAction_spec active open_
  rw [active, open_] at failed
  generalize getClaimableAmountForAction s.params blockTime cr action = shares at *
  obtain ⟨claimable, remainder⟩ := shares
  dsimp only at low rest sum failed ⊢
  rw [if_neg (by decide), if_neg (by decide)] at failed ⊢
  by_cases zero : claimable = 0
  · rw [if_pos zero]
    exact .inl rfl
  rw [if_neg zero] at failed ⊢
  rcases sent : s.sendCoinsFromModuleToAccount k addr claimable with err | paid
  · -- The first payment fails, and nothing has been done before it.
    exact .inl rfl
  obtain ⟨positive, unblocked, pays⟩ := sendCoinsFromModuleToAccount_ok sent
  have balance := pays.escrow
  rw [sent] at failed
  dsimp only at failed
  refine .inr ⟨rfl, rfl, unblocked, positive, by omega, ?_⟩
  -- Only the second payment is left to fail, for want of the remainder.
  by_cases none : remainder = 0
  · simp [none] at failed
  · simp only [if_neg none] at failed
    rcases funding : paid.fundCommunityPool k remainder with err | funded
    · have short := fundCommunityPool_error (by omega) funding
      omega
    · simp [funding] at failed

/-- On every hook, a failed claim leaves no trace exactly when the escrow does not stop half way. -/
theorem claimOnHook_no_trace_iff (specified : action ≠ .unspecified) :
    (ClaimFails k blockTime s addr action → claimOnHook k blockTime s addr action = s) ↔
      ¬CoversPayoutOnly k blockTime s addr action := by
  constructor
  · rintro untouched ⟨cr, stored, active, open_, unblocked, positive, covered, less⟩
    have less : s.escrow k < cr.share := by
      simp only [ClaimsRecord.share]
      omega
    obtain ⟨err, paid, outcome, pays⟩ :=
      claimCoinsForAction_torn specified active open_ unblocked positive covered less
    have same := untouched ⟨cr, err, stored, by rw [outcome]⟩
    simp only [claimOnHook, stored, outcome] at same
    -- The escrow has paid a positive amount, so the state is another one.
    have balance := pays.escrow
    rw [same] at balance
    omega
  · rintro enough ⟨cr, err, stored, failed⟩
    simp only [claimOnHook, stored]
    rcases claimCoinsForAction_failed failed with
      same | ⟨active, open_, unblocked, positive, covered, less⟩
    · exact same
    · refine absurd ⟨cr, stored, active, open_, unblocked, positive, covered, ?_⟩ enough
      simp only [ClaimsRecord.share] at less
      omega

end Claim

/--
A failed claim leaves no trace on a hook exactly when the escrow does not stop half way.

The claim pays the account first and the community pool second. An escrow that covers the first
payment but not the whole share keeps the first, although the claim fails and the action stays open.
-/
theorem failed_claim_leaves_no_trace_iff (k : Keeper) (blockTime : Time) (s : State)
    (addr : Address) :
    ((ClaimFails k blockTime s addr .vote → afterProposalVote k blockTime s addr = s) ↔
        ¬CoversPayoutOnly k blockTime s addr .vote) ∧
      ((ClaimFails k blockTime s addr .delegate → afterDelegationModified k blockTime s addr = s) ↔
        ¬CoversPayoutOnly k blockTime s addr .delegate) ∧
      ((ClaimFails k blockTime s addr .evm → postTxProcessing k blockTime s addr = s) ↔
        ¬CoversPayoutOnly k blockTime s addr .evm) :=
  ⟨claimOnHook_no_trace_iff (by decide), claimOnHook_no_trace_iff (by decide),
    claimOnHook_no_trace_iff (by decide)⟩

/-- A fresh record of forty, and an escrow of seven. -/
def sevenInEscrow : State :=
  { escrowing 7 with records := Store.empty.set 4 (newClaimsRecord 40) }

/-- Half into the decay the vote pays five of seven coins, fails, and can be claimed again. -/
theorem failed_vote_keeps_payout :
    ClaimFails unaryKeeper 15 sevenInEscrow 4 .vote ∧
      (afterProposalVote unaryKeeper 15 sevenInEscrow 4).balances 4 "aevmos" = 5 ∧
      (afterProposalVote unaryKeeper 15 sevenInEscrow 4).escrow unaryKeeper = 2 ∧
      sevenInEscrow.balances 4 "aevmos" = 0 ∧
      ((afterProposalVote unaryKeeper 15 sevenInEscrow 4).records.get? 4).map
        (·.hasClaimedAction .vote) = some false ∧
      afterProposalVote unaryKeeper 15 sevenInEscrow 4 ≠ sevenInEscrow := by
  have fails : ClaimFails unaryKeeper 15 sevenInEscrow 4 .vote := ⟨_, _, rfl, rfl⟩
  have paid : (afterProposalVote unaryKeeper 15 sevenInEscrow 4).balances 4 "aevmos" = 5 := by
    decide
  refine ⟨fails, paid, by decide, by decide, by decide, ?_⟩
  -- A balance has changed, so the state has.
  intro same
  rw [same] at paid
  exact absurd paid (by decide)

end Evmos.Claims
