import Evmos.Proofs.Claims.Solvency

/-! No share of the airdrop is paid twice, however claims records migrate and merge. -/

namespace Evmos.Claims

open Library

/-- What the open actions of a record are worth, before any rounding. -/
def ClaimsRecord.entitlement (cr : ClaimsRecord) : ℚ :=
  cr.unclaimed * (cr.initialClaimableAmount / 4)

/-- What the open actions of all records are worth. -/
def State.entitlement (s : State) : ℚ := s.records.total fun _ cr => cr.entitlement

/-- The initial amounts of all records together. -/
def State.initialTotal (s : State) : ℕ := s.records.total fun _ cr => cr.initialClaimableAmount

/-- What the record at an address is worth, and nothing without a record. -/
def State.entitlementAt (s : State) (addr : Address) : ℚ :=
  (s.records.get? addr).elim 0 fun cr => cr.entitlement

/-- The initial amount of the record at an address, and nothing without a record. -/
def State.initialAt (s : State) (addr : Address) : ℕ :=
  (s.records.get? addr).elim 0 fun cr => cr.initialClaimableAmount

/-- What has left the escrow between two states. -/
def spent (k : Keeper) (before after : State) : ℤ := before.escrow k - after.escrow k

section Records

variable {cr sender : ClaimsRecord} {action : Action}

theorem ClaimsRecord.entitlement_nonneg (cr : ClaimsRecord) : 0 ≤ cr.entitlement := by
  unfold entitlement
  positivity

theorem ClaimsRecord.share_le_quarter (cr : ClaimsRecord) :
    (cr.share : ℚ) ≤ cr.initialClaimableAmount / 4 := by
  have rounded := Nat.cast_div_le (α := ℚ) (m := cr.initialClaimableAmount) (n := 4)
  simpa [share] using rounded

theorem ClaimsRecord.entitlement_markClaimed (specified : action ≠ .unspecified)
    (open_ : cr.hasClaimedAction action = false) :
    (cr.share : ℚ) + (cr.markClaimed action).entitlement ≤ cr.entitlement := by
  have fewer : (cr.unclaimed : ℚ) = (cr.markClaimed action).unclaimed + 1 := by
    exact_mod_cast (unclaimed_markClaimed specified open_).symm
  have same : (cr.markClaimed action).initialClaimableAmount = cr.initialClaimableAmount :=
    initialClaimableAmount_markIf cr action true
  -- A share is a quarter rounded down, and the entitlement loses a whole one.
  have rounded := cr.share_le_quarter
  simp only [entitlement, fewer, same]
  linarith

/-- A merge pays at most what it takes off the entitlements of both records. -/
theorem entitlement_mergedRecord (recipient : ClaimsRecord)
    (fresh : ∀ i, sender.actionsCompleted i = false) :
    (mergePayout sender recipient : ℚ) + (mergedRecord sender recipient).entitlement ≤
      sender.entitlement + recipient.entitlement := by
  have all : sender.unclaimed = 4 := by simp [ClaimsRecord.unclaimed, fresh]
  have counts : ((mergedRecord sender recipient).completed : ℚ) +
      (mergedRecord sender recipient).unclaimed = 4 := by
    exact_mod_cast (mergedRecord sender recipient).completed_add_unclaimed
  have opens : (recipient.unclaimed : ℚ) =
      (mergedRecord sender recipient).unclaimed + openIbc recipient := by
    exact_mod_cast (unclaimed_mergedRecord sender recipient).symm
  have amounts : ((mergedRecord sender recipient).initialClaimableAmount : ℚ) =
      sender.initialClaimableAmount + recipient.initialClaimableAmount := by
    simp [mergedRecord]
  -- Every marked action pays a share of the sender, and an open IBC action one of the recipient.
  have senderPaid : ((mergedRecord sender recipient).completed : ℚ) * sender.share ≤
      (mergedRecord sender recipient).completed * (sender.initialClaimableAmount / 4) :=
    mul_le_mul_of_nonneg_left sender.share_le_quarter (Nat.cast_nonneg _)
  have recipientPaid : (openIbc recipient : ℚ) * recipient.share ≤
      openIbc recipient * (recipient.initialClaimableAmount / 4) :=
    mul_le_mul_of_nonneg_left recipient.share_le_quarter (Nat.cast_nonneg _)
  have marked : ((mergedRecord sender recipient).completed : ℚ) =
      4 - (mergedRecord sender recipient).unclaimed := by linarith
  simp only [ClaimsRecord.entitlement, mergePayout, all, opens, amounts]
  push_cast
  rw [marked] at senderPaid ⊢
  linarith

end Records

/--
What a successful call does to the records of two accounts, and to no other record.

Either the recipient's record pays and stays, or the sender's record is added to it.
-/
inductive Settlement (k : Keeper) (s : State) (sender recipient : Address) (after : State) :
    Prop where
  | kept (payout : 0 ≤ spent k s after)
      (others : ∀ addr, addr ≠ recipient → after.records.get? addr = s.records.get? addr)
      (held : (after.records.get? recipient).isSome = (s.records.get? recipient).isSome)
      (amount : after.initialAt recipient = s.initialAt recipient)
      (worth : (spent k s after : ℚ) + after.entitlementAt recipient ≤ s.entitlementAt recipient)
  | moved {cr : ClaimsRecord} (payout : 0 ≤ spent k s after) (elsewhere : sender ≠ recipient)
      (stored : s.records.get? sender = some cr) (gone : after.records.get? sender = none)
      (others : ∀ addr, addr ≠ sender → addr ≠ recipient →
        after.records.get? addr = s.records.get? addr)
      (held : (after.records.get? recipient).isSome = true)
      (amount : after.initialAt recipient = s.initialAt recipient + cr.initialClaimableAmount)
      (worth : (spent k s after : ℚ) + after.entitlementAt recipient ≤
        s.entitlementAt recipient + cr.entitlement)

section Calls

variable {k : Keeper} {blockTime : Time} {s after : State} {packet : Packet}
  {sender recipient addr : Address} {cr : ClaimsRecord} {action : Action}

theorem Settlement.same : Settlement k s sender recipient s :=
  .kept (by simp [spent]) (fun _ _ => rfl) rfl rfl (by simp [spent])

theorem Claimed.spent_eq (claimed : Claimed k s after addr cr action) :
    spent k s after = cr.share := by
  have escrow := claimed.escrow
  unfold spent
  omega

/-- A claim for the record stored at the recipient's address. -/
theorem Claimed.settlement (stored : s.records.get? recipient = some cr)
    (claimed : Claimed k s after recipient cr action) :
    Settlement k s sender recipient after := by
  have written : after.records.get? recipient = some (cr.markClaimed action) := by
    rw [claimed.records, Store.get?_set_self]
  have amount : (cr.markClaimed action).initialClaimableAmount = cr.initialClaimableAmount :=
    initialClaimableAmount_markIf cr action true
  -- The record stays where it is, with one action more.
  refine .kept ?_ ?_ ?_ ?_ ?_
  · rw [claimed.spent_eq]
    exact Int.natCast_nonneg _
  · intro other elsewhere
    rw [claimed.records, Store.get?_set_of_ne _ elsewhere]
  · rw [written, stored]
    rfl
  · simp only [State.initialAt, written, stored, Option.elim_some, amount]
  · simp only [State.entitlementAt, written, stored, Option.elim_some, claimed.spent_eq]
    exact_mod_cast ClaimsRecord.entitlement_markClaimed claimed.specified claimed.unclaimed

/-- A record that migrates to an account without one. -/
theorem Claimed.migration {paid : State} (stored : s.records.get? sender = some cr)
    (absent : s.records.get? recipient = none)
    (claimed : Claimed k s paid recipient cr .ibcTransfer) :
    Settlement k s sender recipient { paid with records := paid.records.delete sender } := by
  -- The sender has a record and the recipient has none.
  have elsewhere : sender ≠ recipient := by
    rintro rfl
    rw [stored] at absent
    cases absent
  -- What the recipient holds afterwards is the sender's record with one more action claimed.
  have written : (paid.records.delete sender).get? recipient =
      some (cr.markClaimed .ibcTransfer) := by
    rw [Store.get?_delete_of_ne _ elsewhere.symm, claimed.records, Store.get?_set_self]
  have amount : (cr.markClaimed .ibcTransfer).initialClaimableAmount = cr.initialClaimableAmount :=
    initialClaimableAmount_markIf cr .ibcTransfer true
  have pays : spent k s { paid with records := paid.records.delete sender } = cr.share :=
    claimed.spent_eq
  refine .moved ?_ elsewhere stored ?_ ?_ ?_ ?_ ?_
  · rw [pays]
    exact Int.natCast_nonneg _
  · exact Store.get?_delete_self _ _
  · intro other notSender notRecipient
    change (paid.records.delete sender).get? other = s.records.get? other
    rw [Store.get?_delete_of_ne _ notSender, claimed.records, Store.get?_set_of_ne _ notRecipient]
  · exact congrArg Option.isSome written
  · simp only [State.initialAt, written, absent, Option.elim_some, Option.elim_none, amount,
      zero_add]
  · -- The share that is paid is what claiming the action takes from the entitlement.
    rw [pays]
    simp only [State.entitlementAt, written, absent, Option.elim_some, Option.elim_none, zero_add]
    exact_mod_cast ClaimsRecord.entitlement_markClaimed claimed.specified claimed.unclaimed

/-- A merge takes at most its payout out of the escrow, and leaves the records to its caller. -/
theorem Merged.spent_le {senderRecord recipientRecord merged : ClaimsRecord}
    (result : Merged k blockTime s after senderRecord recipientRecord merged) :
    after.records = s.records ∧ 0 ≤ spent k s after ∧
      spent k s after ≤ mergePayout senderRecord recipientRecord := by
  by_cases pays : PaysUser s.params blockTime senderRecord recipientRecord
  · have payment := result.paid pays
    have escrow := payment.escrow
    unfold spent
    exact ⟨payment.records, by omega, by omega⟩
  · -- Late in the decay nothing may be left to pay.
    obtain rfl := result.unpaid pays
    unfold spent
    exact ⟨rfl, by omega, by omega⟩

theorem Merged.settlement {paid : State} {senderRecord recipientRecord merged : ClaimsRecord}
    (merging : Merging k s packet sender recipient senderRecord recipientRecord)
    (result : Merged k blockTime s paid senderRecord recipientRecord merged) :
    Settlement k s sender recipient
      { paid with records := (paid.records.set recipient merged).delete sender } := by
  obtain ⟨records, payout, bound⟩ := result.spent_le
  -- The recipient holds the merged record, and the record of the sender is gone.
  have written : ((paid.records.set recipient merged).delete sender).get? recipient =
      some (mergedRecord senderRecord recipientRecord) := by
    rw [Store.get?_delete_of_ne _ merging.elsewhere.symm, Store.get?_set_self, result.record]
  refine .moved payout merging.elsewhere merging.senderStored ?_ ?_ ?_ ?_ ?_
  · exact Store.get?_delete_self _ _
  · intro other notSender notRecipient
    change ((paid.records.set recipient merged).delete sender).get? other = s.records.get? other
    rw [Store.get?_delete_of_ne _ notSender, Store.get?_set_of_ne _ notRecipient, records]
  · exact congrArg Option.isSome written
  · simp only [State.initialAt, written, merging.recipientStored, Option.elim_some, mergedRecord]
    exact add_comm _ _
  · -- What the merged record is still worth and what was paid come out of both records.
    have worth := entitlement_mergedRecord recipientRecord result.fresh
    have paidOut : (spent k s paid : ℚ) ≤ mergePayout senderRecord recipientRecord := by
      exact_mod_cast bound
    change (spent k s paid : ℚ) + _ ≤ _
    simp only [State.entitlementAt, written, merging.recipientStored, Option.elim_some]
    linarith

theorem Settled.settlement (settled : Settled k blockTime s packet sender recipient after) :
    Settlement k s sender recipient after := by
  cases settled with
  | same => exact .same
  | claimed stored claimed => exact claimed.settlement stored
  | migrated stored absent claimed => exact claimed.migration stored absent
  | merged merging merged => exact merged.settlement merging

theorem claimCoinsForAction_settlement {amount : ℤ}
    (active : s.params.isClaimsActive blockTime = true)
    (stored : s.records.get? addr = some cr)
    (done : claimCoinsForAction k blockTime s addr cr action = (.ok amount, after)) :
    Settlement k s addr addr after := by
  have outcome := claimCoinsForAction_outcome (k := k) active addr cr action
  rw [done] at outcome
  -- The claims that fail are excluded by the result.
  cases outcome with
  | nothing => exact .same
  | claimed positive claimed => exact claimed.settlement stored

theorem onRecvPacket_settlement {spellings : String × String}
    (active : s.params.isClaimsActive blockTime = true)
    (decoded : getTransferSenderRecipient k packet = .ok (sender, recipient, spellings))
    (done : onRecvPacket k blockTime s packet = (.ok (), after)) :
    Settlement k s sender recipient after := by
  obtain ⟨first, second, others, names, settled⟩ := onRecvPacket_settled active done
  rw [decoded] at names
  obtain ⟨rfl, rfl, -⟩ : sender = first ∧ recipient = second ∧ spellings = others := by
    simpa using names
  exact settled.settlement

end Calls

namespace Settlement

variable {k : Keeper} {s after : State} {sender recipient : Address}
  (settlement : Settlement k s sender recipient after)

include settlement

theorem others {addr : Address} (notSender : addr ≠ sender) (notRecipient : addr ≠ recipient) :
    after.records.get? addr = s.records.get? addr := by
  cases settlement with
  | kept payout others => exact others addr notRecipient
  | moved payout elsewhere stored gone others => exact others addr notSender notRecipient

/-- A record that disappears has been added to the recipient's in full. -/
theorem added {cr : ClaimsRecord} (stored : s.records.get? sender = some cr)
    (gone : after.records.get? sender = none) :
    (after.records.get? recipient).isSome = true ∧
      after.initialAt recipient = s.initialAt recipient + cr.initialClaimableAmount := by
  cases settlement with
  | kept payout others held =>
    -- Here no record disappears.
    by_cases self : sender = recipient
    · subst self
      rw [gone, stored] at held
      cases held
    · rw [others sender self, stored] at gone
      cases gone
  | moved payout elsewhere found gone others held amount =>
    rw [stored] at found
    obtain rfl := Option.some.inj found
    exact ⟨held, amount⟩

theorem initialTotal_eq : after.initialTotal = s.initialTotal := by
  unfold State.initialTotal
  -- A record changes in place, or its amount is added to another one.
  cases settlement with
  | kept payout others held amount =>
    have totals := Store.total_of_others (fun _ (cr : ClaimsRecord) => cr.initialClaimableAmount)
      others
    simp only [State.initialAt] at amount
    omega
  | moved payout elsewhere stored gone others held amount =>
    have totals := Store.total_of_moved (fun _ (cr : ClaimsRecord) => cr.initialClaimableAmount)
      elsewhere stored gone others
    simp only [State.initialAt] at amount
    omega

theorem spent_le_entitlement : (spent k s after : ℚ) ≤ s.entitlement - after.entitlement := by
  unfold State.entitlement
  -- The sum changes at the two accounts alone.
  cases settlement with
  | kept payout others held amount worth =>
    have totals := Store.total_of_others (fun _ (cr : ClaimsRecord) => cr.entitlement) others
    simp only [State.entitlementAt] at worth
    linarith
  | moved payout elsewhere stored gone others held amount worth =>
    have totals := Store.total_of_moved (fun _ (cr : ClaimsRecord) => cr.entitlement)
      elsewhere stored gone others
    simp only [State.entitlementAt] at worth
    linarith

end Settlement

/-- The claims state of a run, with what has become of the records it started from. -/
structure Book where
  state : State
  -- The address at which each original record is kept by now, alone or merged with others.
  holder : Address → Address
  -- What has left the escrow for the original records that are kept at an address.
  paid : Address → ℤ

namespace Book

/-- Before any call every record is kept at its own address and nothing has been paid. -/
def opening (origin : State) : Book where
  state := origin
  holder := id
  paid _ := 0

/-- Where the original records are kept once the sender's record has been added to the recipient's. -/
def regroup (holder : Address → Address) (sender recipient : Address) : Address → Address :=
  fun original => if holder original = sender then recipient else holder original

/-- Books a call between two accounts: a record that is gone from the sender is now the recipient's. -/
def settle (k : Keeper) (book : Book) (sender recipient : Address) (after : State) : Book :=
  if (book.state.records.get? sender).isSome && (after.records.get? sender).isNone then
    { state := after
      holder := regroup book.holder sender recipient
      -- What was paid for the sender's records comes along.
      paid := fun addr =>
        if addr = sender then 0
        else if addr = recipient then
          book.paid recipient + book.paid sender + spent k book.state after
        else book.paid addr }
  else
    { state := after
      holder := book.holder
      paid := fun addr =>
        if addr = recipient then book.paid recipient + spent k book.state after
        else book.paid addr }

@[simp] theorem settle_state (k : Keeper) (book : Book) (sender recipient : Address)
    (after : State) : (book.settle k sender recipient after).state = after := by
  unfold settle
  split <;> rfl

end Book

/-- What the original records that are kept at an address were worth. -/
def lineage (origin : State) (holder : Address → Address) (addr : Address) : ℚ :=
  origin.records.total fun original cr => if holder original = addr then cr.entitlement else 0

section Lineage

variable {origin : State} {holder : Address → Address} {sender recipient addr : Address}

theorem lineage_id (origin : State) (addr : Address) :
    lineage origin id addr = origin.entitlementAt addr :=
  Store.total_at (fun _ (cr : ClaimsRecord) => cr.entitlement) origin.records addr

theorem lineage_nonneg (origin : State) (holder : Address → Address) (addr : Address) :
    0 ≤ lineage origin holder addr := by
  refine List.sum_nonneg ?_
  intro worth member
  obtain ⟨entry, -, rfl⟩ := List.mem_map.mp member
  simp only
  split
  · exact entry.2.entitlement_nonneg
  · exact le_rfl

theorem lineage_regroup_recipient (elsewhere : sender ≠ recipient) :
    lineage origin (Book.regroup holder sender recipient) recipient =
      lineage origin holder sender + lineage origin holder recipient := by
  unfold lineage
  rw [← Store.total_add]
  refine Store.total_congr _ ?_
  intro original cr _
  -- An original record belongs to the sender or it does not.
  by_cases fromSender : holder original = sender
  · simp [Book.regroup, fromSender, elsewhere]
  · simp [Book.regroup, fromSender]

theorem lineage_regroup_other (notSender : addr ≠ sender) (notRecipient : addr ≠ recipient) :
    lineage origin (Book.regroup holder sender recipient) addr = lineage origin holder addr := by
  refine Store.total_congr _ ?_
  intro original cr _
  by_cases fromSender : holder original = sender
  · simp [Book.regroup, fromSender, notSender.symm, notRecipient.symm]
  · simp [Book.regroup, fromSender]

end Lineage

/-- The calls that pay out of the escrow. -/
inductive PayingCall where
  | claim (blockTime : Time) (addr : Address) (action : Action)
  | receive (blockTime : Time) (packet : Packet)

/-- A call that pays out of the escrow and returns without an error, inside the claim window. -/
inductive Pay (k : Keeper) (book : Book) : PayingCall → Book → Prop where
  | claim {blockTime : Time} {addr : Address} {cr : ClaimsRecord} {action : Action} {amount : ℤ}
      {after : State} (active : book.state.params.isClaimsActive blockTime = true)
      (stored : book.state.records.get? addr = some cr)
      (done : claimCoinsForAction k blockTime book.state addr cr action = (.ok amount, after)) :
      Pay k book (.claim blockTime addr action) (book.settle k addr addr after)
  | receive {blockTime : Time} {packet : Packet} {sender recipient : Address}
      {spellings : String × String} {after : State}
      (active : book.state.params.isClaimsActive blockTime = true)
      (decoded : getTransferSenderRecipient k packet = .ok (sender, recipient, spellings))
      (done : onRecvPacket k blockTime book.state packet = (.ok (), after)) :
      Pay k book (.receive blockTime packet) (book.settle k sender recipient after)

/-- What has been paid for the records kept at an address fits into what they were worth. -/
structure Booked (k : Keeper) (origin : State) (book : Book) : Prop where
  nonneg : ∀ addr, 0 ≤ book.paid addr
  covered : ∀ addr, (book.paid addr : ℚ) + book.state.entitlementAt addr ≤
    lineage origin book.holder addr
  total : (spent k origin book.state : ℚ) ≤ origin.entitlement - book.state.entitlement

section Runs

variable {k : Keeper} {origin : State} {book : Book}

theorem Booked.opening : Booked k origin (.opening origin) := by
  refine ⟨fun _ => le_rfl, ?_, by simp [spent, Book.opening]⟩
  intro addr
  simp [Book.opening, lineage_id]

theorem State.entitlementAt_nonneg (s : State) (addr : Address) : 0 ≤ s.entitlementAt addr := by
  unfold State.entitlementAt
  rcases s.records.get? addr with _ | cr
  · exact le_rfl
  · exact cr.entitlement_nonneg

theorem spent_trans (k : Keeper) (first second third : State) :
    spent k first third = spent k first second + spent k second third := by
  unfold spent
  ring

theorem Booked.total_settle {sender recipient : Address} {after : State}
    (booked : Booked k origin book) (settlement : Settlement k book.state sender recipient after) :
    (spent k origin after : ℚ) ≤ origin.entitlement - after.entitlement := by
  have before := booked.total
  have step := settlement.spent_le_entitlement
  rw [spent_trans k origin book.state after]
  push_cast
  linarith

theorem Booked.settle {sender recipient : Address} {after : State} (booked : Booked k origin book)
    (settlement : Settlement k book.state sender recipient after) :
    Booked k origin (book.settle k sender recipient after) := by
  have total := booked.total_settle settlement
  cases settlement with
  | kept payout others held amount worth =>
    -- The sender's record has not disappeared, so only the recipient's account changes.
    have stays : ((book.state.records.get? sender).isSome &&
        (after.records.get? sender).isNone) = false := by
      by_cases self : sender = recipient
      · subst self
        rw [← held]
        cases after.records.get? sender <;> rfl
      · rw [others sender self]
        cases book.state.records.get? sender <;> rfl
    simp only [Book.settle, stays, Bool.false_eq_true, if_false]
    refine ⟨?_, ?_, total⟩
    · intro addr
      have before := booked.nonneg addr
      have there := booked.nonneg recipient
      simp only
      split_ifs <;> omega
    · intro addr
      have before := booked.covered addr
      by_cases here : addr = recipient
      · subst here
        simp only [if_true]
        push_cast
        linarith
      · simpa only [here, if_false, State.entitlementAt, others addr here] using before
  | @moved cr payout elsewhere stored gone others held amount worth =>
    -- The payments of both lineages are booked on the recipient's account.
    have leaves : ((book.state.records.get? sender).isSome &&
        (after.records.get? sender).isNone) = true := by
      rw [stored, gone]
      rfl
    simp only [Book.settle, leaves, if_true]
    refine ⟨?_, ?_, total⟩
    · intro addr
      have before := booked.nonneg addr
      have there := booked.nonneg recipient
      have here := booked.nonneg sender
      simp only
      split_ifs <;> omega
    · intro addr
      simp only
      rcases eq_or_ne addr sender with rfl | notSender
      · -- No record is kept at the sender's address any more.
        have nothing : after.entitlementAt addr = 0 := by simp [State.entitlementAt, gone]
        rw [if_pos rfl, nothing, Int.cast_zero, zero_add]
        exact lineage_nonneg _ _ _
      rw [if_neg notSender]
      rcases eq_or_ne addr recipient with rfl | notRecipient
      · have here := booked.covered addr
        have there := booked.covered sender
        have worthSender : book.state.entitlementAt sender = cr.entitlement := by
          simp [State.entitlementAt, stored]
        rw [worthSender] at there
        rw [if_pos rfl, lineage_regroup_recipient elsewhere]
        push_cast
        linarith
      · have before := booked.covered addr
        rw [if_neg notRecipient, lineage_regroup_other notSender notRecipient]
        simpa only [State.entitlementAt, others addr notSender notRecipient] using before

theorem Booked.step {call : PayingCall} {next : Book} (booked : Booked k origin book)
    (taken : Pay k book call next) : Booked k origin next := by
  -- Both calls are settlements.
  cases taken with
  | claim active stored done =>
    exact booked.settle (claimCoinsForAction_settlement active stored done)
  | receive active decoded done =>
    exact booked.settle (onRecvPacket_settlement active decoded done)

/-- What was paid for a lineage can be split so that no record exceeds its own worth. -/
theorem Booked.split (booked : Booked k origin book) :
    ∃ part : Address → ℚ,
      (∀ original cr, origin.records.get? original = some cr →
        0 ≤ part original ∧ part original ≤ cr.entitlement) ∧
      ∀ addr, origin.records.total (fun original _ =>
        if book.holder original = addr then part original else 0) = book.paid addr := by
  have within : ∀ addr, (book.paid addr : ℚ) ≤ lineage origin book.holder addr := by
    intro addr
    have covered := booked.covered addr
    have sign := book.state.entitlementAt_nonneg addr
    linarith
  have sign : ∀ addr, (0 : ℚ) ≤ book.paid addr := fun addr => by exact_mod_cast booked.nonneg addr
  -- Each record bears the payments in proportion to what it was worth.
  let rate : Address → ℚ := fun addr => book.paid addr / lineage origin book.holder addr
  have rateLow : ∀ addr, 0 ≤ rate addr := fun addr =>
    div_nonneg (sign addr) ((sign addr).trans (within addr))
  have rateHigh : ∀ addr, rate addr ≤ 1 := fun addr =>
    div_le_one_of_le₀ (within addr) ((sign addr).trans (within addr))
  refine ⟨fun original => origin.entitlementAt original * rate (book.holder original), ?_, ?_⟩
  · intro original cr stored
    have worth : origin.entitlementAt original = cr.entitlement := by
      simp [State.entitlementAt, stored]
    simp only [worth]
    exact ⟨mul_nonneg cr.entitlement_nonneg (rateLow _),
      mul_le_of_le_one_right cr.entitlement_nonneg (rateHigh _)⟩
  · intro addr
    have scaled : origin.records.total (fun original _ => if book.holder original = addr then
          origin.entitlementAt original * rate (book.holder original) else 0) =
        origin.records.total (fun original cr =>
          (if book.holder original = addr then cr.entitlement else 0) * rate addr) := by
      refine Store.total_congr _ ?_
      intro original cr stored
      by_cases here : book.holder original = addr
      · simp [here, State.entitlementAt, stored]
      · simp [here]
    have factored : origin.records.total (fun original cr =>
          (if book.holder original = addr then cr.entitlement else 0) * rate addr) =
        lineage origin book.holder addr * rate addr := List.sum_map_mul_right _ _ _
    rw [scaled, factored]
    by_cases worthless : lineage origin book.holder addr = 0
    · -- Nothing can have been paid for records that were worth nothing.
      have bound := within addr
      rw [worthless] at bound ⊢
      rw [zero_mul]
      exact (le_antisymm bound (sign addr)).symm
    · exact mul_div_cancel₀ _ worthless

end Runs

/--
No share of the airdrop is paid twice.

Each successful call takes at most the decrease of the entitlement out of the escrow, and a packet
only moves records between its accounts. Over a run, what was paid for the original records kept at
an address splits into parts, none of them above what its record was worth.
-/
theorem no_share_is_paid_twice (k : Keeper) :
    (∀ {blockTime : Time} {s after : State} {addr : Address} {cr : ClaimsRecord} {action : Action}
        {amount : ℤ}, s.params.isClaimsActive blockTime = true → s.records.get? addr = some cr →
      claimCoinsForAction k blockTime s addr cr action = (.ok amount, after) →
      (spent k s after : ℚ) ≤ s.entitlement - after.entitlement) ∧
    (∀ {blockTime : Time} {s after : State} {packet : Packet} {sender recipient : Address}
        {spellings : String × String}, s.params.isClaimsActive blockTime = true →
      getTransferSenderRecipient k packet = .ok (sender, recipient, spellings) →
      onRecvPacket k blockTime s packet = (.ok (), after) →
      (spent k s after : ℚ) ≤ s.entitlement - after.entitlement ∧
        after.initialTotal = s.initialTotal ∧
        (∀ addr, addr ≠ sender → addr ≠ recipient →
          after.records.get? addr = s.records.get? addr) ∧
        ∀ cr, s.records.get? sender = some cr → after.records.get? sender = none →
          (after.records.get? recipient).isSome = true ∧
            after.initialAt recipient = s.initialAt recipient + cr.initialClaimableAmount) ∧
    ∀ {origin : State} {calls : List PayingCall} {book : Book},
      Run (Pay k) (.opening origin) calls book →
      (spent k origin book.state : ℚ) ≤ origin.entitlement - book.state.entitlement ∧
        ∃ part : Address → ℚ,
          (∀ original cr, origin.records.get? original = some cr →
            0 ≤ part original ∧ part original ≤ cr.entitlement) ∧
          ∀ addr, origin.records.total (fun original _ =>
            if book.holder original = addr then part original else 0) = book.paid addr := by
  refine ⟨?_, ?_, ?_⟩
  · -- A single claim is a settlement in place.
    intro blockTime s after addr cr action amount active stored done
    exact (claimCoinsForAction_settlement active stored done).spent_le_entitlement
  · -- A packet is a settlement in place, or one that moves the sender's record.
    intro blockTime s after packet sender recipient spellings active decoded done
    have settlement := onRecvPacket_settlement active decoded done
    exact ⟨settlement.spent_le_entitlement, settlement.initialTotal_eq,
      fun addr notSender notRecipient => settlement.others notSender notRecipient,
      fun cr stored gone => settlement.added stored gone⟩
  · -- Over a run, the book attributes every payment to the original records.
    intro origin calls book run
    have booked : Booked k origin book :=
      run.invariant (Booked k origin) Booked.step Booked.opening
    exact ⟨booked.total, booked.split⟩

/-- Two records of eight are merged and the vote is claimed, which pays eight of their sixteen. -/
theorem merged_eights_pay_eight :
    ∃ start merged voted book, initGenesis unaryKeeper 0 (escrowing 16) (twoRecords 8) = .ok start ∧
      onRecvPacket unaryKeeper 1 start mergingPacket = (.ok (), merged) ∧
      (spent unaryKeeper start merged : ℚ) ≤ start.entitlement - merged.entitlement ∧
      merged.initialTotal = start.initialTotal ∧ merged.records.get? 3 = none ∧
      merged.initialAt 4 = start.initialAt 4 + 8 ∧
      (spent unaryKeeper merged voted : ℚ) ≤ merged.entitlement - voted.entitlement ∧
      Run (Pay unaryKeeper) (.opening start) [.receive 1 mergingPacket, .claim 2 4 .vote] book ∧
      book.paid 4 = 8 ∧ book.holder 3 = 4 ∧ book.holder 4 = 4 ∧
      ∃ part : Address → ℚ,
        (∀ original cr, start.records.get? original = some cr →
          0 ≤ part original ∧ part original ≤ cr.entitlement) ∧
        ∀ addr, start.records.total (fun original _ =>
          if book.holder original = addr then part original else 0) = book.paid addr := by
  obtain ⟨claims, packets, runs⟩ := no_share_is_paid_twice unaryKeeper
  -- The merge pays both shares of the transfer, and the vote then pays for both records.
  have ran : ∃ start merged voted, initGenesis unaryKeeper 0 (escrowing 16) (twoRecords 8) = .ok start ∧
      start.params.isClaimsActive 1 = true ∧
      onRecvPacket unaryKeeper 1 start mergingPacket = (.ok (), merged) ∧
      (∃ first, start.records.get? 3 = some first ∧ first.initialClaimableAmount = 8) ∧
      merged.records.get? 3 = none ∧
      merged.params.isClaimsActive 2 = true ∧
      ∃ cr, merged.records.get? 4 = some cr ∧
        claimCoinsForAction unaryKeeper 2 merged 4 cr .vote = (.ok 4, voted) ∧
        ∃ book, book = Book.settle unaryKeeper
            (Book.settle unaryKeeper (.opening start) 3 4 merged) 4 4 voted ∧
          book.paid 4 = 8 ∧ book.holder 3 = 4 ∧ book.holder 4 = 4 :=
    ⟨_, _, _, rfl, rfl, rfl, ⟨_, rfl, rfl⟩, rfl, rfl, _, rfl, rfl, _, rfl, by decide, by decide,
      by decide⟩
  obtain ⟨start, merged, voted, genesis, active, received, ⟨first, stored, eight⟩, gone, later, cr,
    kept, claimed, book, rfl, paid, moved, stayed⟩ := ran
  obtain ⟨bounded, total, -, added⟩ := packets active
    (show getTransferSenderRecipient unaryKeeper mergingPacket = .ok (3, 4, "111", "1111") from rfl)
    received
  have run : Run (Pay unaryKeeper) (.opening start) [.receive 1 mergingPacket, .claim 2 4 .vote]
      (Book.settle unaryKeeper (Book.settle unaryKeeper (.opening start) 3 4 merged) 4 4 voted) :=
    .extend (.extend .start (.receive active rfl received))
      (.claim (by rwa [Book.settle_state]) (by rwa [Book.settle_state])
        (by rwa [Book.settle_state]))
  have amount := (added first stored gone).2
  rw [eight] at amount
  exact ⟨start, merged, voted, _, genesis, received, bounded, total, gone, amount,
    claims later kept claimed, run, paid, moved, stayed, (runs run).2⟩

end Evmos.Claims
