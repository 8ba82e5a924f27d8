import Evmos.Proofs.Claims.Claim

/-! What merging two records pays out of the escrow, and what the merged record still needs. -/

namespace Evmos.Claims

open Library

/-- The number of actions that have been claimed. -/
def ClaimsRecord.completed (cr : ClaimsRecord) : ℕ := ∑ i, if cr.actionsCompleted i then 1 else 0

/-- The record a merge leaves: both amounts, and the IBC action on top of what was claimed. -/
def mergedRecord (sender recipient : ClaimsRecord) : ClaimsRecord where
  initialClaimableAmount := sender.initialClaimableAmount + recipient.initialClaimableAmount
  actionsCompleted i := recipient.actionsCompleted i || i = 3

/-- Whether the merge claims the IBC action for the recipient as well. -/
def openIbc (recipient : ClaimsRecord) : ℕ := if recipient.actionsCompleted 3 then 0 else 1

/-- What a merge takes out of the escrow: a share of the sender for every action it marks. -/
def mergePayout (sender recipient : ClaimsRecord) : ℕ :=
  (mergedRecord sender recipient).completed * sender.share + openIbc recipient * recipient.share

variable {params : Params} {blockTime : Time} {sender recipient : ClaimsRecord}

theorem getClaimableAmountForAction_congr (params : Params) (blockTime : Time) {cr : ClaimsRecord}
    {action other : Action} (same : cr.hasClaimedAction action = cr.hasClaimedAction other) :
    getClaimableAmountForAction params blockTime cr action =
      getClaimableAmountForAction params blockTime cr other := by
  simp only [getClaimableAmountForAction, claimableAmountForAction, same]

theorem Merge.visit_ok {m after : Merge} {action : Action}
    (visited : m.visit params blockTime sender recipient action = .ok after) :
    sender.hasClaimedAction action = false := by
  unfold Merge.visit at visited
  split_ifs at visited with claimed
  all_goals simpa using claimed

/-- A merge that goes through has a sender without any claimed action. -/
theorem mergeLoop_fresh {m after : Merge}
    (visited : [Action.vote, .delegate, .evm, .ibcTransfer].foldlM
      (Merge.visit params blockTime sender recipient) m = .ok after) :
    ∀ i, sender.actionsCompleted i = false := by
  simp only [List.foldlM_cons] at visited
  -- The loop visits the four actions in turn, and each visit checks the sender.
  obtain ⟨first, vote, visited⟩ := bind_eq_ok.mp visited
  obtain ⟨second, delegate, visited⟩ := bind_eq_ok.mp visited
  obtain ⟨third, evm, visited⟩ := bind_eq_ok.mp visited
  obtain ⟨fourth, ibc, -⟩ := bind_eq_ok.mp visited
  intro i
  fin_cases i
  · exact Merge.visit_ok vote
  · exact Merge.visit_ok delegate
  · exact Merge.visit_ok evm
  · exact Merge.visit_ok ibc

/-- Whether a merge marks an action: the recipient has claimed it, or it is the IBC action. -/
def marks (recipient : ClaimsRecord) (action : Action) : Bool :=
  recipient.hasClaimedAction action || action = .ibcTransfer

/-- One round of the loop for a sender without claimed actions, given what both sides are paid. -/
def Merge.add (recipient : ClaimsRecord) (senderShare recipientShare : ℤ × ℤ) (m : Merge)
    (action : Action) : Merge :=
  let forSender : ℤ := if marks recipient action then 1 else 0
  let forRecipient : ℤ := if action = .ibcTransfer then openIbc recipient else 0
  { claimedAmt := m.claimedAmt + forSender * senderShare.1 + forRecipient * recipientShare.1
    remainderAmt := m.remainderAmt + forSender * senderShare.2 + forRecipient * recipientShare.2
    mergedRecord :=
      if marks recipient action then m.mergedRecord.markClaimed action else m.mergedRecord }

theorem Merge.visit_eq (fresh : ∀ action, sender.hasClaimedAction action = false) (m : Merge)
    (action : Action) :
    m.visit params blockTime sender recipient action =
      .ok (m.add recipient (getClaimableAmountForAction params blockTime sender .ibcTransfer)
        (getClaimableAmountForAction params blockTime recipient .ibcTransfer) action) := by
  have same := getClaimableAmountForAction_congr params blockTime
    ((fresh action).trans (fresh .ibcTransfer).symm)
  rw [Merge.visit, fresh, same]
  by_cases claimed : recipient.hasClaimedAction action = true
  · -- The recipient is paid nothing for an action claimed before.
    by_cases ibc : action = .ibcTransfer
    · subst ibc
      have closed : openIbc recipient = 0 := if_pos claimed
      simp [claimed, Merge.add, marks, closed]
    · simp [claimed, Merge.add, marks, ibc]
  · by_cases ibc : action = .ibcTransfer
    · subst ibc
      have opened : openIbc recipient = 1 := if_neg claimed
      simp only [claimed, Merge.add, marks, opened]
      simp [add_right_comm]
    · simp [claimed, Merge.add, marks, ibc]

/-- The flags of a record in which an action may have been marked. -/
theorem actionsCompleted_markIf (cr : ClaimsRecord) (action : Action) (mark : Bool) (i : Fin 4) :
    (if mark then cr.markClaimed action else cr).actionsCompleted i =
      (cr.actionsCompleted i || mark && action.index = some i) := by
  cases mark with
  | false => simp
  | true =>
    simp only [if_true, ClaimsRecord.markClaimed, Bool.true_and]
    -- The unspecified action has no flag.
    rcases place : action.index with _ | j
    · simp
    · rcases eq_or_ne i j with rfl | elsewhere
      · simp
      · simp [Function.update_of_ne elsewhere, elsewhere.symm]

theorem initialClaimableAmount_markIf (cr : ClaimsRecord) (action : Action) (mark : Bool) :
    (if mark then cr.markClaimed action else cr).initialClaimableAmount =
      cr.initialClaimableAmount := by
  cases mark with
  | false => rfl
  | true =>
    simp only [if_true, ClaimsRecord.markClaimed]
    split <;> rfl

theorem mergeLoop_eq (fresh : ∀ i, sender.actionsCompleted i = false) :
    [Action.vote, .delegate, .evm, .ibcTransfer].foldlM
        (Merge.visit params blockTime sender recipient)
        ⟨0, 0, newClaimsRecord
          (sender.initialClaimableAmount + recipient.initialClaimableAmount)⟩ =
      .ok
        { claimedAmt := (mergedRecord sender recipient).completed *
              (getClaimableAmountForAction params blockTime sender .ibcTransfer).1 +
            openIbc recipient *
              (getClaimableAmountForAction params blockTime recipient .ibcTransfer).1
          remainderAmt := (mergedRecord sender recipient).completed *
              (getClaimableAmountForAction params blockTime sender .ibcTransfer).2 +
            openIbc recipient *
              (getClaimableAmountForAction params blockTime recipient .ibcTransfer).2
          mergedRecord := mergedRecord sender recipient } := by
  have unclaimed : ∀ action, sender.hasClaimedAction action = false := by
    intro action
    cases action <;> simp [ClaimsRecord.hasClaimedAction, Action.index, fresh]
  simp only [List.foldlM_cons, List.foldlM_nil, Merge.visit_eq unclaimed, Bind.bind, Except.bind,
    Pure.pure, Except.pure]
  -- Each flag of the merged record stands for one round that paid the sender.
  have count : ((mergedRecord sender recipient).completed : ℤ) =
      (if marks recipient .vote then 1 else 0) + (if marks recipient .delegate then 1 else 0) +
        (if marks recipient .evm then 1 else 0) +
        (if marks recipient .ibcTransfer then 1 else 0) := by
    rw [ClaimsRecord.completed, Fin.sum_univ_four]
    push_cast
    simp [mergedRecord, marks, ClaimsRecord.hasClaimedAction, Action.index]
  rw [count]
  simp only [Except.ok.injEq, Merge.add, Merge.mk.injEq]
  refine ⟨by simp only [reduceCtorEq, if_false, if_true]; ring,
    by simp only [reduceCtorEq, if_false, if_true]; ring, ?_⟩
  refine ClaimsRecord.ext (by simp only [initialClaimableAmount_markIf]; rfl) (funext fun i => ?_)
  rw [actionsCompleted_markIf, actionsCompleted_markIf, actionsCompleted_markIf,
    actionsCompleted_markIf]
  fin_cases i <;> simp [marks, mergedRecord, newClaimsRecord, ClaimsRecord.hasClaimedAction,
    Action.index]

theorem ClaimsRecord.completed_add_unclaimed (cr : ClaimsRecord) :
    cr.completed + cr.unclaimed = 4 := by
  -- Each flag is counted once.
  have each : ∀ i, ((if cr.actionsCompleted i then 1 else 0) +
      (if cr.actionsCompleted i then 0 else 1) : ℕ) = 1 := by
    intro i
    split <;> rfl
  rw [completed, unclaimed, ← Finset.sum_add_distrib, Finset.sum_congr rfl fun i _ => each i]
  rfl

theorem completed_mergedRecord_pos (sender recipient : ClaimsRecord) :
    0 < (mergedRecord sender recipient).completed := by
  refine Finset.sum_pos' (fun _ _ => Nat.zero_le _) ⟨3, Finset.mem_univ 3, ?_⟩
  simp [mergedRecord]

/-- The recipient has the open actions of the merged record, and the IBC action if it was open. -/
theorem unclaimed_mergedRecord (sender recipient : ClaimsRecord) :
    (mergedRecord sender recipient).unclaimed + openIbc recipient = recipient.unclaimed := by
  simp only [ClaimsRecord.unclaimed, Fin.sum_univ_four, mergedRecord, openIbc]
  simp

/-- What a merge pays, together with both shares of what stays open, is what was needed before. -/
theorem need_add_need {sender : ClaimsRecord} (recipient : ClaimsRecord)
    (fresh : ∀ i, sender.actionsCompleted i = false) :
    sender.need + recipient.need = mergePayout sender recipient +
      (mergedRecord sender recipient).unclaimed * (sender.share + recipient.share) := by
  -- The sender has claimed nothing, so all four shares are still needed.
  have all : sender.unclaimed = 4 := by simp [ClaimsRecord.unclaimed, fresh]
  have counts := (mergedRecord sender recipient).completed_add_unclaimed
  have opens := unclaimed_mergedRecord sender recipient
  rw [ClaimsRecord.need, ClaimsRecord.need, mergePayout, all, ← opens, ← counts]
  ring

/-- Something is paid to the user in a merge, so that the rest of the shares is paid as well. -/
def PaysUser (params : Params) (blockTime : Time) (sender recipient : ClaimsRecord) : Prop :=
  (getClaimableAmountForAction params blockTime sender .ibcTransfer).1 ≠ 0 ∨
    recipient.hasClaimedAction .ibcTransfer = false ∧
      (getClaimableAmountForAction params blockTime recipient .ibcTransfer).1 ≠ 0

/-- The two sums of a merge are nonnegative, make up its payout, and the first may be zero. -/
theorem mergeAmounts_spec (active : params.isClaimsActive blockTime = true)
    (fresh : ∀ i, sender.actionsCompleted i = false)
    {claimed remainder : ℤ}
    (isClaimed : claimed = (mergedRecord sender recipient).completed *
        (getClaimableAmountForAction params blockTime sender .ibcTransfer).1 +
      openIbc recipient * (getClaimableAmountForAction params blockTime recipient .ibcTransfer).1)
    (isRemainder : remainder = (mergedRecord sender recipient).completed *
        (getClaimableAmountForAction params blockTime sender .ibcTransfer).2 +
      openIbc recipient * (getClaimableAmountForAction params blockTime recipient .ibcTransfer).2) :
    0 ≤ claimed ∧ 0 ≤ remainder ∧ claimed + remainder = mergePayout sender recipient ∧
      (claimed = 0 ↔ ¬PaysUser params blockTime sender recipient) := by
  obtain ⟨payS, restS, sumS⟩ := getClaimableAmountForAction_spec active
    (show sender.hasClaimedAction .ibcTransfer = false from fresh 3)
  have marked : (0 : ℤ) < (mergedRecord sender recipient).completed := by
    exact_mod_cast completed_mergedRecord_pos sender recipient
  have someS := mul_nonneg marked.le payS
  have otherS := mul_nonneg marked.le restS
  rcases ibc : recipient.hasClaimedAction .ibcTransfer with _ | _
  · -- The IBC action is open, so the recipient is paid too.
    obtain ⟨payR, restR, sumR⟩ := getClaimableAmountForAction_spec active ibc
    have opened : openIbc recipient = 1 := if_neg (ibc.trans_ne Bool.false_ne_true)
    rw [opened, Nat.cast_one, one_mul] at isClaimed isRemainder
    refine ⟨by omega, by omega, ?_, ?_⟩
    · rw [isClaimed, isRemainder, mergePayout, opened]
      push_cast
      rw [← sumS, ← sumR]
      ring
    · rw [isClaimed, add_eq_zero_iff_of_nonneg someS payR, mul_eq_zero, PaysUser, ibc]
      simp [(completed_mergedRecord_pos sender recipient).ne']
  · have closed : openIbc recipient = 0 := if_pos ibc
    rw [closed, Nat.cast_zero, zero_mul, add_zero] at isClaimed isRemainder
    refine ⟨by omega, by omega, ?_, ?_⟩
    · rw [isClaimed, isRemainder, mergePayout, closed]
      push_cast
      rw [← sumS]
      ring
    · rw [isClaimed, mul_eq_zero, PaysUser, ibc]
      simp [(completed_mergedRecord_pos sender recipient).ne']

/-- A merge that goes through, and what it has paid. -/
structure Merged (k : Keeper) (blockTime : Time) (before after : State)
    (sender recipient merged : ClaimsRecord) : Prop where
  fresh : ∀ i, sender.actionsCompleted i = false
  record : merged = mergedRecord sender recipient
  paid : PaysUser before.params blockTime sender recipient →
    Pays k before after (mergePayout sender recipient)
  -- When nothing is left for the user, the community pool is not paid either.
  unpaid : ¬PaysUser before.params blockTime sender recipient → after = before

/-- What follows from a merge that returned a record. -/
theorem mergeClaimsRecords_ok {k : Keeper} {s after : State} {blockTime : Time} {addr : Address}
    {sender recipient merged : ClaimsRecord}
    (active : s.params.isClaimsActive blockTime = true)
    (done : mergeClaimsRecords k blockTime s addr sender recipient = (.ok merged, after)) :
    Merged k blockTime s after sender recipient merged := by
  simp only [mergeClaimsRecords] at done
  rcases visited : [Action.vote, .delegate, .evm, .ibcTransfer].foldlM
      (Merge.visit s.params blockTime sender recipient)
      ⟨0, 0, newClaimsRecord (sender.initialClaimableAmount + recipient.initialClaimableAmount)⟩
    with err | m
  · simp [visited] at done
  rw [visited] at done
  have fresh := mergeLoop_fresh visited
  have sums := Except.ok.inj ((mergeLoop_eq fresh).symm.trans visited)
  obtain ⟨pay, rest, sum, zero⟩ := mergeAmounts_spec active fresh
    (congrArg Merge.claimedAmt sums).symm (congrArg Merge.remainderAmt sums).symm
  have record := (congrArg Merge.mergedRecord sums).symm
  simp only at done
  by_cases nothing : m.claimedAmt = 0
  · -- Nothing is claimed, so the function returns before any transfer.
    rw [if_pos nothing] at done
    obtain ⟨returned, rfl⟩ := Prod.mk.inj done
    obtain rfl := Except.ok.inj returned
    exact ⟨fresh, record, fun pays => absurd pays (zero.mp nothing), fun _ => rfl⟩
  rw [if_neg nothing] at done
  have user : PaysUser s.params blockTime sender recipient := by
    by_contra without
    exact nothing (zero.mpr without)
  -- From here on both parts are paid, or the merge fails.
  have merges : ∀ funded, Pays k s funded (m.claimedAmt + m.remainderAmt) →
      ((.ok m.mergedRecord, funded) : Result ClaimsRecord × State) = (.ok merged, after) →
      Merged k blockTime s after sender recipient merged := by
    intro funded pays returns
    obtain ⟨returned, rfl⟩ := Prod.mk.inj returns
    obtain rfl := Except.ok.inj returned
    exact ⟨fresh, record, fun _ => sum ▸ pays, fun without => absurd user without⟩
  rcases sent : s.sendCoinsFromModuleToAccount k addr m.claimedAmt with err | paid
  · simp [sent] at done
  obtain ⟨-, -, pays⟩ := sendCoinsFromModuleToAccount_ok sent
  simp only [sent] at done
  by_cases exactly : m.remainderAmt = 0
  · rw [if_pos exactly] at done
    exact merges paid (by rwa [exactly, add_zero]) done
  rw [if_neg exactly] at done
  rcases funding : paid.fundCommunityPool k m.remainderAmt with err | funded
  · simp [funding] at done
  · rw [funding] at done
    exact merges funded (pays.trans (fundCommunityPool_ok funding).2) done

end Evmos.Claims
