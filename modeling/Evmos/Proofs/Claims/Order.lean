import Evmos.Proofs.Claims.Entitlement

/-! Before the decay, what a user receives does not depend on the order of claims and merges. -/

namespace Evmos.Claims

open Library

/-- A block time inside the claim window and not after the decay start. -/
def Early (params : Params) (blockTime : Time) : Prop :=
  params.isClaimsActive blockTime = true ∧ blockTime ≤ params.decayStartTime

/-- The state after the escrow has paid an account. -/
def State.paying (k : Keeper) (s : State) (addr : Address) (amount : ℕ) : State :=
  { s with
    balances := moveCoins s.balances k.moduleAddress addr (Coins.ofCoin s.params.claimsDenom amount) }

/-- The coins of an account in the denomination of the claims. -/
def State.balanceOf (s : State) (addr : Address) : ℕ := s.balances addr s.params.claimsDenom

section Payment

variable {k : Keeper} {s : State} {addr : Address} {amount : ℕ}

@[simp] theorem State.paying_params : (s.paying k addr amount).params = s.params := rfl

@[simp] theorem State.paying_records : (s.paying k addr amount).records = s.records := rfl

theorem State.paying_balanceOf (unblocked : k.blockedAddr addr = false) :
    (s.paying k addr amount).balanceOf addr = s.balanceOf addr + amount := by
  have elsewhere := module_ne_of_unblocked unblocked
  simp [balanceOf, paying, moveCoins, Function.update_of_ne elsewhere.symm]

theorem State.paying_escrow (unblocked : k.blockedAddr addr = false)
    (covered : amount ≤ s.escrow k) :
    (s.paying k addr amount).escrow k + amount = s.escrow k := by
  -- The escrow account is blocked, so it does not pay itself.
  have elsewhere := module_ne_of_unblocked unblocked
  simp only [escrow] at covered
  simp only [escrow, paying, moveCoins_from _ elsewhere, DFinsupp.tsub_apply,
    Coins.amountOf_ofCoin_self]
  omega

theorem State.sendCoinsFromModuleToAccount_paying (unblocked : k.blockedAddr addr = false)
    (positive : 0 < amount) (covered : amount ≤ s.escrow k) :
    s.sendCoinsFromModuleToAccount k addr amount = .ok (s.paying k addr amount) := by
  refine State.sendCoinsFromModuleToAccount_eq_ok.mpr
    ⟨unblocked, Int.natCast_pos.mpr positive, ofCoin_le_escrow (Int.ofNat_le.mpr covered), ?_⟩
  rw [paying, Int.toNat_natCast]

end Payment

section Calls

variable {k : Keeper} {s : State} {blockTime : Time} {addr sender recipient : Address}
  {cr senderRecord recipientRecord : ClaimsRecord} {action : Action}

/-- Before the decay an open action pays its whole share to the user. -/
theorem getClaimableAmountForAction_early {params : Params} (early : Early params blockTime)
    (positive : 0 < cr.initialClaimableAmount) (open_ : cr.hasClaimedAction action = false) :
    getClaimableAmountForAction params blockTime cr action = ((cr.share : ℤ), 0) := by
  obtain ⟨active, before⟩ := early
  simp [getClaimableAmountForAction, claimableAmountForAction, active, positive.ne', open_,
    not_lt.mpr before, ClaimsRecord.share]

theorem claimCoinsForAction_early (early : Early s.params blockTime)
    (unblocked : k.blockedAddr addr = false) (specified : action ≠ .unspecified)
    (open_ : cr.hasClaimedAction action = false) (positive : 0 < cr.share)
    (covered : cr.share ≤ s.escrow k) :
    claimCoinsForAction k blockTime s addr cr action =
      (.ok cr.share,
        { s.paying k addr cr.share with
          records := s.records.set addr (cr.markClaimed action) }) := by
  have amount : 0 < cr.initialClaimableAmount := by
    simp only [ClaimsRecord.share] at positive
    omega
  -- Before the decay the share is paid whole, and nothing goes to the pool.
  have sent := State.sendCoinsFromModuleToAccount_paying unblocked positive covered
  simp [claimCoinsForAction, specified, early.1, open_,
    getClaimableAmountForAction_early early amount open_, positive.ne', sent]

theorem mergeClaimsRecords_early (early : Early s.params blockTime)
    (unblocked : k.blockedAddr recipient = false)
    (fresh : ∀ i, senderRecord.actionsCompleted i = false) (senderPositive : 0 < senderRecord.share)
    (recipientPositive : 0 < recipientRecord.initialClaimableAmount)
    (covered : mergePayout senderRecord recipientRecord ≤ s.escrow k) :
    mergeClaimsRecords k blockTime s recipient senderRecord recipientRecord =
      (.ok (mergedRecord senderRecord recipientRecord),
        s.paying k recipient (mergePayout senderRecord recipientRecord)) := by
  have amount : 0 < senderRecord.initialClaimableAmount := by
    simp only [ClaimsRecord.share] at senderPositive
    omega
  have senderShare : getClaimableAmountForAction s.params blockTime senderRecord .ibcTransfer =
      ((senderRecord.share : ℤ), 0) :=
    getClaimableAmountForAction_early early amount
      (show senderRecord.hasClaimedAction .ibcTransfer = false from fresh 3)
  -- The recipient is paid for the IBC action only if it is open.
  have recipientShare : (openIbc recipientRecord : ℤ) *
        (getClaimableAmountForAction s.params blockTime recipientRecord .ibcTransfer).1 =
      openIbc recipientRecord * recipientRecord.share ∧ (openIbc recipientRecord : ℤ) *
        (getClaimableAmountForAction s.params blockTime recipientRecord .ibcTransfer).2 = 0 := by
    rcases ibc : recipientRecord.actionsCompleted 3 with _ | _
    · rw [getClaimableAmountForAction_early early recipientPositive
        (show recipientRecord.hasClaimedAction .ibcTransfer = false from ibc)]
      simp
    · simp [openIbc, ibc]
  have payout : 0 < mergePayout senderRecord recipientRecord := by
    have marked := completed_mergedRecord_pos senderRecord recipientRecord
    exact Nat.add_pos_left (Nat.mul_pos marked senderPositive) _
  have sent := State.sendCoinsFromModuleToAccount_paying (k := k) unblocked payout covered
  simp only [mergeClaimsRecords, mergeLoop_eq fresh, senderShare, recipientShare.1,
    recipientShare.2, mul_zero, add_zero]
  have total : ((mergedRecord senderRecord recipientRecord).completed : ℤ) * senderRecord.share +
      openIbc recipientRecord * recipientRecord.share =
      (mergePayout senderRecord recipientRecord : ℕ) := by
    simp [mergePayout]
  rw [total]
  simp [payout.ne', sent]

/-- A packet that brings a sender's record to the recipient, before the decay. -/
structure Brings (k : Keeper) (params : Params) (blockTime : Time) (packet : Packet)
    (sender recipient : Address) : Prop where
  early : Early params blockTime
  decoded : ∃ spellings, getTransferSenderRecipient k packet = .ok (sender, recipient, spellings)
  authorized : params.isAuthorizedChannel packet.destinationChannel = true
  trigger : getTransferAmount k packet = .ok ibcTriggerAmt

theorem onRecvPacket_early {packet : Packet}
    (brings : Brings k s.params blockTime packet sender recipient)
    (allowed : k.blockedAddr sender = false ∧ k.blockedAddr recipient = false)
    (elsewhere : sender ≠ recipient)
    (senderStored : s.records.get? sender = some senderRecord)
    (recipientStored : s.records.get? recipient = some recipientRecord)
    (fresh : ∀ i, senderRecord.actionsCompleted i = false) (senderPositive : 0 < senderRecord.share)
    (recipientPositive : 0 < recipientRecord.initialClaimableAmount)
    (covered : mergePayout senderRecord recipientRecord ≤ s.escrow k) :
    onRecvPacket k blockTime s packet =
      (.ok (),
        { s.paying k recipient (mergePayout senderRecord recipientRecord) with
          records :=
            (s.records.set recipient (mergedRecord senderRecord recipientRecord)).delete sender }) := by
  obtain ⟨spellings, decoded⟩ := brings.decoded
  have merged := mergeClaimsRecords_early brings.early allowed.2 fresh senderPositive
    recipientPositive covered
  -- Every check of the callback passes, and both records are found.
  have ibc : senderRecord.hasClaimedAction .ibcTransfer = false := fresh 3
  simp [onRecvPacket, brings.early.1, decoded, allowed.1, allowed.2, senderStored, ibc, elsewhere,
    brings.authorized, brings.trigger, settlePacket, recipientStored, merged]

end Calls

/-- What happens to a recipient: a claim of its own, or a packet with a sender's record. -/
inductive Visit where
  | claim (blockTime : Time) (action : Action)
  | merge (blockTime : Time) (packet : Packet)

namespace Visit

/-- The call into the claims module. -/
def call (k : Keeper) (recipient : Address) (s : State) : Visit → Result Unit × State
  | .claim blockTime action =>
    match s.records.get? recipient with
    | none => (.ok (), s)
    | some claimsRecord =>
      let claimed := claimCoinsForAction k blockTime s recipient claimsRecord action
      (claimed.1.map fun _ => (), claimed.2)
  | .merge blockTime packet => onRecvPacket k blockTime s packet

/-- The sender whose record a packet brings. -/
def sender? (k : Keeper) : Visit → Option Address
  | .claim _ _ => none
  | .merge _ packet =>
    match getTransferSenderRecipient k packet with
    | .error _ => none
    | .ok (sender, _) => some sender

/-- Whether a visit claims the action of a flag. -/
def claims (i : Fin 4) : Visit → Bool
  | .claim _ action => action.index = some i
  | .merge _ _ => false

/-- A visit before the decay: a claim of some action, or a packet that brings a record. -/
def Fits (k : Keeper) (params : Params) (recipient : Address) : Visit → Prop
  | .claim blockTime action => Early params blockTime ∧ action ≠ .unspecified
  | .merge blockTime packet => ∃ sender, Brings k params blockTime packet sender recipient

end Visit

/-- The visits one after the other, as long as none of them fails. -/
def visitAll (k : Keeper) (recipient : Address) : State → List Visit → Result State
  | s, [] => .ok s
  | s, visit :: rest =>
    match visit.call k recipient s with
    | (.error err, _) => .error err
    | (.ok (), after) => visitAll k recipient after rest

/-- The actions that a list of visits claims for the recipient itself. -/
def performed (visits : List Visit) (i : Fin 4) : Bool := visits.any (Visit.claims i)

/-- The record after all visits: every amount, and every action performed. -/
def finalRecord (own : ClaimsRecord) (brought : ℕ) (merges : Bool) (actions : Fin 4 → Bool) :
    ClaimsRecord where
  initialClaimableAmount := own.initialClaimableAmount + brought
  -- A merge completes the IBC action.
  actionsCompleted i := own.actionsCompleted i || actions i || (merges && i = 3)

/-- What is paid for it: new actions pay the recipient's share, and all actions the senders'. -/
def totalPaid (own : ClaimsRecord) (brought completed : ℕ) : ℕ :=
  (completed - own.completed) * (own.initialClaimableAmount / 4) + completed * (brought / 4)

/-- A recipient with a record, and senders whose fresh records are to be merged into it. -/
structure Setting (k : Keeper) (s : State) (recipient : Address) (own : ClaimsRecord)
    (senders : List Address) : Prop where
  unblocked : k.blockedAddr recipient = false
  stored : s.records.get? recipient = some own
  positive : 0 < own.initialClaimableAmount
  multiple : 4 ∣ own.initialClaimableAmount
  distinct : (recipient :: senders).Nodup
  fresh : ∀ sender ∈ senders, k.blockedAddr sender = false ∧
    ∃ cr, s.records.get? sender = some cr ∧ 0 < cr.initialClaimableAmount ∧
      4 ∣ cr.initialClaimableAmount ∧ ∀ i, cr.actionsCompleted i = false

/-- The initial amounts of the senders' records together. -/
def State.broughtBy (s : State) (senders : List Address) : ℕ := (senders.map s.initialAt).sum

section Counting

variable {own sender : ClaimsRecord} {action : Action}

theorem completed_le_of_flags {cr other : ClaimsRecord}
    (flags : ∀ i, cr.actionsCompleted i = true → other.actionsCompleted i = true) :
    cr.completed ≤ other.completed := by
  refine Finset.sum_le_sum fun i _ => ?_
  -- Flag by flag.
  rcases set : cr.actionsCompleted i with _ | _
  · simp
  · simp [flags i set]

theorem completed_markClaimed (specified : action ≠ .unspecified)
    (open_ : own.hasClaimedAction action = false) :
    (own.markClaimed action).completed = own.completed + 1 := by
  -- What is claimed is what is no longer open.
  have fewer := ClaimsRecord.unclaimed_markClaimed specified open_
  have before := own.completed_add_unclaimed
  have after := (own.markClaimed action).completed_add_unclaimed
  omega

theorem completed_mergedRecord (sender own : ClaimsRecord) :
    (mergedRecord sender own).completed = own.completed + openIbc own := by
  have fewer := unclaimed_mergedRecord sender own
  have before := own.completed_add_unclaimed
  have after := (mergedRecord sender own).completed_add_unclaimed
  omega

theorem totalPaid_markClaimed (brought : ℕ) {completed : ℕ} (specified : action ≠ .unspecified)
    (open_ : own.hasClaimedAction action = false)
    (more : (own.markClaimed action).completed ≤ completed) :
    totalPaid own brought completed =
      own.share + totalPaid (own.markClaimed action) brought completed := by
  have count := completed_markClaimed specified open_
  have amount : (own.markClaimed action).initialClaimableAmount = own.initialClaimableAmount :=
    initialClaimableAmount_markIf own action true
  rw [count] at more
  -- The visits after this one complete the rest.
  obtain ⟨rest, rfl⟩ := Nat.exists_eq_add_of_le more
  have here : own.completed + 1 + rest - own.completed = rest + 1 := by omega
  have later : own.completed + 1 + rest - (own.completed + 1) = rest := by omega
  simp only [totalPaid, count, amount, ClaimsRecord.share, here, later]
  ring

/-- A merge pays what both records have completed by now, and leaves the rest of the total. -/
theorem totalPaid_mergedRecord (brought : ℕ) {completed : ℕ} (own : ClaimsRecord)
    (senderMultiple : 4 ∣ sender.initialClaimableAmount)
    (ownMultiple : 4 ∣ own.initialClaimableAmount)
    (more : (mergedRecord sender own).completed ≤ completed) :
    totalPaid own (sender.initialClaimableAmount + brought) completed =
      mergePayout sender own + totalPaid (mergedRecord sender own) brought completed := by
  have count := completed_mergedRecord sender own
  obtain ⟨share, shares⟩ := senderMultiple
  obtain ⟨quarter, quarters⟩ := ownMultiple
  obtain ⟨rest, rfl⟩ := Nat.exists_eq_add_of_le more
  have here : (mergedRecord sender own).completed + rest - own.completed =
      rest + openIbc own := by omega
  have later : (mergedRecord sender own).completed + rest - (mergedRecord sender own).completed =
      rest := by omega
  -- Amounts that are multiples of four are divided without a remainder.
  have divided : (sender.initialClaimableAmount + brought) / 4 = share + brought / 4 := by omega
  have together : (mergedRecord sender own).initialClaimableAmount / 4 = share + quarter := by
    simp only [mergedRecord]
    omega
  have own4 : own.initialClaimableAmount / 4 = quarter := by omega
  have sender4 : sender.initialClaimableAmount / 4 = share := by omega
  simp only [totalPaid, mergePayout, ClaimsRecord.share, here, later, divided, together, own4,
    sender4]
  ring

end Counting

/-- What the visits have led to: the recipient's record, and what the escrow has paid for it. -/
structure Receives (k : Keeper) (recipient : Address) (s last : State) (record : ClaimsRecord)
    (amount : ℕ) : Prop where
  record : last.records.get? recipient = some record
  balance : last.balanceOf recipient = s.balanceOf recipient + amount
  escrow : last.escrow k + amount = s.escrow k

section Steps

variable {k : Keeper} {s after last : State} {recipient : Address} {own grown record : ClaimsRecord}
  {senders : List Address} {amount later : ℕ}

theorem Receives.paying {records : Store Address ClaimsRecord}
    (unblocked : k.blockedAddr recipient = false) (covered : amount ≤ s.escrow k)
    (rest : Receives k recipient { s.paying k recipient amount with records := records } last record
      later) :
    Receives k recipient s last record (amount + later) := by
  -- The first payment is added to what the later ones lead to.
  have received : State.balanceOf { s.paying k recipient amount with records := records } recipient =
      s.balanceOf recipient + amount := State.paying_balanceOf unblocked
  have lost : State.escrow k { s.paying k recipient amount with records := records } + amount =
      s.escrow k := State.paying_escrow unblocked covered
  have balance := rest.balance
  have escrow := rest.escrow
  exact ⟨rest.record, by omega, by omega⟩

theorem Setting.next {rest : List Address} (setting : Setting k s recipient own senders)
    (fewer : rest.Sublist senders) (stored : after.records.get? recipient = some grown)
    (positive : 0 < grown.initialClaimableAmount) (multiple : 4 ∣ grown.initialClaimableAmount)
    (same : ∀ sender ∈ rest, after.records.get? sender = s.records.get? sender) :
    Setting k after recipient grown rest ∧ after.broughtBy rest = s.broughtBy rest := by
  -- Only the recipient's record has changed, and no sender is the recipient.
  refine ⟨⟨setting.unblocked, stored, positive, multiple,
    setting.distinct.sublist (fewer.cons_cons recipient), ?_⟩, ?_⟩
  · intro sender member
    rw [same sender member]
    exact setting.fresh sender (fewer.subset member)
  · refine congrArg List.sum (List.map_congr_left fun sender member => ?_)
    simp only [State.initialAt, same sender member]

theorem Setting.perm {others : List Address} (setting : Setting k s recipient own senders)
    (permuted : others.Perm senders) : Setting k s recipient own others := by
  refine ⟨setting.unblocked, setting.stored, setting.positive, setting.multiple,
    (permuted.cons recipient).nodup_iff.mpr setting.distinct, ?_⟩
  intro sender member
  exact setting.fresh sender (permuted.mem_iff.mp member)

theorem share_pos {cr : ClaimsRecord} (positive : 0 < cr.initialClaimableAmount)
    (multiple : 4 ∣ cr.initialClaimableAmount) : 0 < cr.share :=
  Nat.div_pos (Nat.le_of_dvd positive multiple) (by decide)

/-- A claim of an open action pays a share and keeps the setting. -/
theorem Setting.claim {blockTime : Time} {action : Action}
    (setting : Setting k s recipient own senders) (early : Early s.params blockTime)
    (specified : action ≠ .unspecified) (open_ : own.hasClaimedAction action = false)
    (covered : own.share ≤ s.escrow k) :
    ∃ records, (Visit.claim blockTime action).call k recipient s =
        (.ok (), { s.paying k recipient own.share with records := records }) ∧
      Setting k { s.paying k recipient own.share with records := records } recipient
        (own.markClaimed action) senders ∧
      State.broughtBy { s.paying k recipient own.share with records := records } senders =
        s.broughtBy senders := by
  -- Claiming sets a flag and leaves the amount.
  have amount : (own.markClaimed action).initialClaimableAmount = own.initialClaimableAmount :=
    initialClaimableAmount_markIf own action true
  refine ⟨s.records.set recipient (own.markClaimed action), ?_, ?_⟩
  · simp only [Visit.call, setting.stored]
    rw [claimCoinsForAction_early early setting.unblocked specified open_
      (share_pos setting.positive setting.multiple) covered]
    rfl
  · refine setting.next (List.Sublist.refl _) (Store.get?_set_self _ _ _) ?_ ?_ ?_
    · rw [amount]
      exact setting.positive
    · rw [amount]
      exact setting.multiple
    · -- The recipient is none of the senders.
      intro sender member
      refine Store.get?_set_of_ne _ ?_ _
      rintro rfl
      exact (List.nodup_cons.mp setting.distinct).1 member

/-- A packet with the record of the first sender merges it and keeps the setting for the others. -/
theorem Setting.merge {blockTime : Time} {packet : Packet} {sender : Address} {cr : ClaimsRecord}
    (setting : Setting k s recipient own (sender :: senders))
    (brings : Brings k s.params blockTime packet sender recipient)
    (stored : s.records.get? sender = some cr)
    (covered : mergePayout cr own ≤ s.escrow k) :
    ∃ records, (Visit.merge blockTime packet).call k recipient s =
        (.ok (), { s.paying k recipient (mergePayout cr own) with records := records }) ∧
      Setting k { s.paying k recipient (mergePayout cr own) with records := records } recipient
        (mergedRecord cr own) senders ∧
      State.broughtBy { s.paying k recipient (mergePayout cr own) with records := records }
        senders = s.broughtBy senders := by
  obtain ⟨allowed, found, isStored, positive, multiple, fresh⟩ :=
    setting.fresh sender List.mem_cons_self
  obtain rfl : cr = found := Option.some.inj (stored.symm.trans isStored)
  obtain ⟨notRecipient, distinct⟩ := List.nodup_cons.mp setting.distinct
  have elsewhere : sender ≠ recipient := fun same => notRecipient (same ▸ List.mem_cons_self)
  -- The merged record replaces both.
  refine ⟨(s.records.set recipient (mergedRecord cr own)).delete sender, ?_, ?_⟩
  · exact onRecvPacket_early brings ⟨allowed, setting.unblocked⟩ elsewhere stored setting.stored
      fresh (share_pos positive multiple) setting.positive covered
  · refine setting.next (List.sublist_cons_self _ _) ?_ ?_ ?_ ?_
    · change ((s.records.set recipient (mergedRecord cr own)).delete sender).get? recipient = _
      rw [Store.get?_delete_of_ne _ elsewhere.symm, Store.get?_set_self]
    · exact Nat.add_pos_left positive _
    · exact Nat.dvd_add multiple setting.multiple
    · -- The senders that are still to come keep their records.
      intro other member
      have notSender : other ≠ sender := by
        rintro rfl
        exact (List.nodup_cons.mp distinct).1 member
      have notThere : other ≠ recipient := by
        rintro rfl
        exact notRecipient (List.mem_cons_of_mem _ member)
      change ((s.records.set recipient (mergedRecord cr own)).delete sender).get? other = _
      rw [Store.get?_delete_of_ne _ notSender, Store.get?_set_of_ne _ notThere]

end Steps

section Records

variable {own sender : ClaimsRecord} {action : Action} {brought : ℕ} {merges : Bool}
  {actions : Fin 4 → Bool}

theorem completed_le_finalRecord :
    own.completed ≤ (finalRecord own brought merges actions).completed := by
  refine completed_le_of_flags fun i set => ?_
  simp [finalRecord, set]

theorem actionsCompleted_markClaimed (own : ClaimsRecord) (action : Action) (i : Fin 4) :
    (own.markClaimed action).actionsCompleted i =
      (own.actionsCompleted i || action.index = some i) := by
  simpa using actionsCompleted_markIf own action true i

theorem finalRecord_claim (blockTime : Time) (visits : List Visit) :
    finalRecord own brought merges (performed (.claim blockTime action :: visits)) =
      finalRecord (own.markClaimed action) brought merges (performed visits) := by
  refine ClaimsRecord.ext ?_ (funext fun i => ?_)
  · exact congrArg (· + brought) (initialClaimableAmount_markIf own action true).symm
  · simp only [finalRecord, actionsCompleted_markClaimed, performed, List.any_cons, Visit.claims]
    simp only [Bool.or_assoc]

theorem markClaimed_of_claimed (claimed : own.hasClaimedAction action = true) :
    own.markClaimed action = own := by
  refine ClaimsRecord.ext (initialClaimableAmount_markIf own action true) (funext fun i => ?_)
  rw [actionsCompleted_markClaimed]
  -- The flag that is set was set.
  rcases place : action.index with _ | j
  · simp
  · simp only [ClaimsRecord.hasClaimedAction, place] at claimed
    rcases eq_or_ne j i with rfl | elsewhere
    · simp [claimed]
    · simp [elsewhere]

theorem finalRecord_merge (merges : Bool) (blockTime : Time) (packet : Packet)
    (visits : List Visit) :
    finalRecord own (sender.initialClaimableAmount + brought) true
        (performed (.merge blockTime packet :: visits)) =
      finalRecord (mergedRecord sender own) brought merges (performed visits) := by
  refine ClaimsRecord.ext ?_ (funext fun i => ?_)
  · simp only [finalRecord, mergedRecord]
    omega
  · simp only [finalRecord, mergedRecord, performed, List.any_cons, Visit.claims, Bool.false_or,
      Bool.true_and]
    -- The merge completes the IBC action, whatever was completed before.
    rcases own.actionsCompleted i with _ | _ <;> rcases eq_or_ne i 3 with rfl | elsewhere <;> simp [*]

end Records

/-- The record that a list of visits leads to. -/
def State.recordAfter (s : State) (own : ClaimsRecord) (senders : List Address)
    (visits : List Visit) : ClaimsRecord :=
  finalRecord own (s.broughtBy senders) (!senders.isEmpty) (performed visits)

/-- A visit that pays, and what the visits after it lead to. -/
theorem visitAll_cons {k : Keeper} {recipient : Address} {s : State} {visit : Visit}
    {visits : List Visit} {amount later : ℕ} {records : Store Address ClaimsRecord}
    {final : ClaimsRecord} (unblocked : k.blockedAddr recipient = false)
    (covered : amount ≤ s.escrow k)
    (called : visit.call k recipient s =
      (.ok (), { s.paying k recipient amount with records := records }))
    (rest : ∃ last, visitAll k recipient { s.paying k recipient amount with records := records }
        visits = .ok last ∧
      Receives k recipient { s.paying k recipient amount with records := records } last final
        later) :
    ∃ last, visitAll k recipient s (visit :: visits) = .ok last ∧
      Receives k recipient s last final (amount + later) := by
  -- The first payment is in the past of the other visits.
  obtain ⟨last, ran, receives⟩ := rest
  refine ⟨last, ?_, receives.paying unblocked covered⟩
  rw [visitAll, called]
  exact ran

/-- One visit after the other pays the total and completes the record. -/
theorem visitAll_receives {k : Keeper} {recipient : Address} (visits : List Visit) {s : State}
    {own final : ClaimsRecord} {senders : List Address}
    (inOrder : visits.filterMap (Visit.sender? k) = senders)
    (setting : Setting k s recipient own senders)
    (fits : ∀ visit ∈ visits, visit.Fits k s.params recipient)
    (isFinal : final = s.recordAfter own senders visits)
    (enough : totalPaid own (s.broughtBy senders) final.completed ≤ s.escrow k) :
    ∃ last, visitAll k recipient s visits = .ok last ∧
      Receives k recipient s last final (totalPaid own (s.broughtBy senders) final.completed) := by
  -- The induction is on the visits, from any state and record in such a setting.
  induction visits generalizing s own senders with
  | nil =>
    subst inOrder
    have unchanged : final = own := by
      rw [isFinal]
      refine ClaimsRecord.ext ?_ (funext fun i => ?_)
      · simp [State.recordAfter, finalRecord, State.broughtBy]
      · simp [State.recordAfter, finalRecord, performed]
    have nothing : totalPaid own 0 own.completed = 0 := by simp [totalPaid]
    subst unchanged
    refine ⟨s, rfl, ?_⟩
    simp only [List.filterMap_nil, State.broughtBy, List.map_nil, List.sum_nil, nothing]
    exact ⟨setting.stored, rfl, rfl⟩
  | cons visit visits ih =>
    have fitsLater := fun visit member => fits visit (List.mem_cons_of_mem _ member)
    have fitsNow := fits visit List.mem_cons_self
    cases visit with
    | claim blockTime action =>
      obtain ⟨early, specified⟩ := fitsNow
      have later : visits.filterMap (Visit.sender? k) = senders := inOrder
      rw [State.recordAfter, finalRecord_claim] at isFinal
      rcases open_ : own.hasClaimedAction action with _ | _
      · -- An open action pays a share, and the rest of the total follows.
        have more : (own.markClaimed action).completed ≤ final.completed := by
          rw [isFinal]
          exact completed_le_finalRecord
        have total := totalPaid_markClaimed (s.broughtBy senders) specified open_ more
        have covered : own.share ≤ s.escrow k := by omega
        obtain ⟨records, called, kept, brought⟩ := setting.claim early specified open_ covered
        have lost : State.escrow k { s.paying k recipient own.share with records := records } +
            own.share = s.escrow k := State.paying_escrow setting.unblocked covered
        rw [← brought] at isFinal total
        rw [← brought, total]
        exact visitAll_cons setting.unblocked covered called
          (ih later kept fitsLater isFinal (by rw [brought] at total ⊢; omega))
      · -- An action that was completed before pays nothing.
        rw [markClaimed_of_claimed open_] at isFinal
        have called : (Visit.claim blockTime action).call k recipient s = (.ok (), s) := by
          simp [Visit.call, setting.stored, claimCoinsForAction, specified, early.1, open_, Except.map]
        obtain ⟨last, ran, receives⟩ := ih later setting fitsLater isFinal enough
        refine ⟨last, ?_, receives⟩
        rw [visitAll, called]
        exact ran
    | merge blockTime packet =>
      obtain ⟨sender, brings⟩ := fitsNow
      obtain ⟨spellings, decoded⟩ := brings.decoded
      obtain rfl : sender :: visits.filterMap (Visit.sender? k) = senders := by
        rw [← inOrder]
        simp [Visit.sender?, decoded]
      obtain ⟨-, cr, stored, positive, multiple, fresh⟩ := setting.fresh sender List.mem_cons_self
      have sum : s.broughtBy (sender :: visits.filterMap (Visit.sender? k)) =
          cr.initialClaimableAmount + s.broughtBy (visits.filterMap (Visit.sender? k)) := by
        simp [State.broughtBy, State.initialAt, stored]
      rw [State.recordAfter, sum, List.isEmpty_cons, Bool.not_false,
        finalRecord_merge (!(visits.filterMap (Visit.sender? k)).isEmpty)] at isFinal
      have more : (mergedRecord cr own).completed ≤ final.completed := by
        rw [isFinal]
        exact completed_le_finalRecord
      have total := totalPaid_mergedRecord (s.broughtBy (visits.filterMap (Visit.sender? k))) own
        multiple setting.multiple more
      rw [sum] at enough ⊢
      have covered : mergePayout cr own ≤ s.escrow k := by omega
      obtain ⟨records, called, kept, brought⟩ := setting.merge brings stored covered
      have lost : State.escrow k
          { s.paying k recipient (mergePayout cr own) with records := records } +
            mergePayout cr own = s.escrow k := State.paying_escrow setting.unblocked covered
      rw [← brought] at isFinal total
      rw [← brought, total]
      exact visitAll_cons setting.unblocked covered called
        (ih rfl kept fitsLater isFinal (by rw [brought] at total ⊢; omega))

/-- Visits that bring the senders in whatever order succeed, and pay for what they perform. -/
theorem Setting.receives (setting : Setting k s recipient own senders) {visits : List Visit}
    (fits : ∀ visit ∈ visits, visit.Fits k s.params recipient)
    (permuted : (visits.filterMap (Visit.sender? k)).Perm senders)
    (enough : totalPaid own (s.broughtBy senders) (s.recordAfter own senders visits).completed ≤
      s.escrow k) :
    ∃ last, visitAll k recipient s visits = .ok last ∧
      Receives k recipient s last (s.recordAfter own senders visits)
        (totalPaid own (s.broughtBy senders) (s.recordAfter own senders visits).completed) := by
  -- Neither the sum of the amounts nor the flags depend on the order of the senders.
  have sum : s.broughtBy (visits.filterMap (Visit.sender? k)) = s.broughtBy senders :=
    (permuted.map s.initialAt).sum_eq
  have none : (visits.filterMap (Visit.sender? k)).isEmpty = senders.isEmpty := permuted.isEmpty_eq
  have record : s.recordAfter own senders visits =
      s.recordAfter own (visits.filterMap (Visit.sender? k)) visits := by
    simp only [State.recordAfter, sum, none]
  have receives := visitAll_receives visits rfl (setting.perm permuted) fits record
  rw [sum] at receives
  exact receives enough

/--
The order of a recipient's claims and of the merges into its record does not matter.

Every interleaving succeeds and pays the same total, which depends on the actions performed only.
-/
theorem order_of_visits_is_irrelevant (k : Keeper) {s : State} {recipient : Address}
    {own : ClaimsRecord} {senders : List Address} (setting : Setting k s recipient own senders) :
    (∀ visits, (∀ visit ∈ visits, visit.Fits k s.params recipient) →
      (visits.filterMap (Visit.sender? k)).Perm senders →
      totalPaid own (s.broughtBy senders) (s.recordAfter own senders visits).completed ≤
        s.escrow k →
      ∃ last, visitAll k recipient s visits = .ok last ∧
        Receives k recipient s last (s.recordAfter own senders visits)
          (totalPaid own (s.broughtBy senders) (s.recordAfter own senders visits).completed)) ∧
    ∀ visits others, (∀ visit ∈ visits ++ others, visit.Fits k s.params recipient) →
      (visits.filterMap (Visit.sender? k)).Perm senders →
      (others.filterMap (Visit.sender? k)).Perm senders →
      (∀ i, performed visits i = performed others i) →
      totalPaid own (s.broughtBy senders) (s.recordAfter own senders visits).completed ≤
        s.escrow k →
      ∃ last other, visitAll k recipient s visits = .ok last ∧
        visitAll k recipient s others = .ok other ∧
        last.balanceOf recipient = other.balanceOf recipient ∧
        last.records.get? recipient = other.records.get? recipient := by
  refine ⟨fun visits fits permuted enough => setting.receives fits permuted enough, ?_⟩
  -- Two orders of the same visits leave the same record, which determines what was paid.
  intro visits others fits permuted permutedToo same enough
  have record : s.recordAfter own senders others = s.recordAfter own senders visits := by
    simp only [State.recordAfter, funext same]
  obtain ⟨last, ran, receives⟩ := setting.receives
    (fun visit member => fits visit (List.mem_append_left _ member)) permuted enough
  obtain ⟨other, ranToo, receivesToo⟩ := setting.receives
    (fun visit member => fits visit (List.mem_append_right _ member)) permutedToo
    (by rwa [record])
  refine ⟨last, other, ran, ranToo, ?_, ?_⟩
  · rw [receives.balance, receivesToo.balance, record]
  · rw [receives.record, receivesToo.record, record]

/-- Two accounts with fresh records of eight and an escrow for both. -/
def twoEights : State :=
  { escrowing 16 with
    records := ((Store.empty.set 3 (newClaimsRecord 8)).set 4 (newClaimsRecord 8)) }

/-- The vote before the merge or after it, with a second vote: the recipient gets eight. -/
theorem vote_and_merge_commute :
    ∃ last other,
      visitAll unaryKeeper 4 twoEights [.claim 1 .vote, .merge 2 mergingPacket, .claim 3 .vote] =
        .ok last ∧
      visitAll unaryKeeper 4 twoEights [.merge 5 mergingPacket, .claim 10 .vote] = .ok other ∧
      last.balanceOf 4 = 8 ∧ last.balanceOf 4 = other.balanceOf 4 ∧
      last.records.get? 4 = other.records.get? 4 := by
  -- There is one sender, whose record is new, and the recipient's is new as well.
  have setting : Setting unaryKeeper twoEights 4 (newClaimsRecord 8) [3] :=
    ⟨by decide, by decide, by decide, by decide, by decide, by
      intro sender member
      obtain rfl := List.mem_singleton.mp member
      exact ⟨by decide, newClaimsRecord 8, by decide, by decide, by decide, fun _ => rfl⟩⟩
  have fits : ∀ visit ∈ [Visit.claim 1 .vote, .merge 2 mergingPacket, .claim 3 .vote] ++
      [.merge 5 mergingPacket, .claim 10 .vote], visit.Fits unaryKeeper twoEights.params 4 := by
    intro visit member
    simp only [List.cons_append, List.nil_append, List.mem_cons, List.not_mem_nil, or_false] at member
    rcases member with rfl | rfl | rfl | rfl | rfl
    · exact ⟨⟨by decide, by decide⟩, by decide⟩
    · exact ⟨3, ⟨by decide, by decide⟩, ⟨_, rfl⟩, by decide, rfl⟩
    · exact ⟨⟨by decide, by decide⟩, by decide⟩
    · exact ⟨3, ⟨by decide, by decide⟩, ⟨_, rfl⟩, by decide, rfl⟩
    · exact ⟨⟨by decide, by decide⟩, by decide⟩
  obtain ⟨every, same⟩ := order_of_visits_is_irrelevant unaryKeeper setting
  obtain ⟨last, ran, receives⟩ := every _
    (fun visit member => fits visit (List.mem_append_left _ member)) (.refl _) (by decide)
  obtain ⟨again, other, ranAgain, ranToo, balance, record⟩ :=
    same _ _ fits (.refl _) (.refl _) (by decide) (by decide)
  obtain rfl : last = again := Except.ok.inj (ran.symm.trans ranAgain)
  exact ⟨last, other, ran, ranToo, receives.balance.trans (by decide), balance, record⟩

end Evmos.Claims
