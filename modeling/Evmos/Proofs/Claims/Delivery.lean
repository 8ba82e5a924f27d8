import Evmos.Proofs.Claims.Merge

/-! What an event can do to the claims state, stated once for every invariant. -/

namespace Evmos.Claims

open Library

/-- A packet that makes `OnRecvPacket` merge the sender's record into the recipient's. -/
structure Merging (k : Keeper) (s : State) (packet : Packet) (sender recipient : Address)
    (senderRecord recipientRecord : ClaimsRecord) : Prop where
  decoded : ∃ spellings, getTransferSenderRecipient k packet = .ok (sender, recipient, spellings)
  allowed : k.blockedAddr sender = false ∧ k.blockedAddr recipient = false
  elsewhere : sender ≠ recipient
  authorized : s.params.isAuthorizedChannel packet.destinationChannel = true
  trigger : getTransferAmount k packet = .ok ibcTriggerAmt
  senderStored : s.records.get? sender = some senderRecord
  recipientStored : s.records.get? recipient = some recipientRecord
  -- The loop of the merge refuses a sender that has claimed an action.
  fresh : ∀ i, senderRecord.actionsCompleted i = false

/-- What an event inside the claim window can lead to. -/
inductive Delivery (k : Keeper) (blockTime : Time) (s : State) : Event → State → Prop where
  /-- Nothing changes. -/
  | same {event : Event} : Delivery k blockTime s event s
  /-- A hook finds that the escrow does not cover the share of a stored record. -/
  | short {event : Event} {after : State} {addr : Address} {cr : ClaimsRecord} {action : Action}
      (stored : s.records.get? addr = some cr) (specified : action ≠ .unspecified)
      (unclaimed : cr.hasClaimedAction action = false) (less : s.escrow k < cr.share) :
      Delivery k blockTime s event after
  /-- An action of a stored record is claimed. -/
  | claimed {event : Event} {after : State} {addr : Address} {cr : ClaimsRecord} {action : Action}
      (stored : s.records.get? addr = some cr) (claimed : Claimed k s after addr cr action) :
      Delivery k blockTime s event after
  /-- A record moves to a recipient without one, and the IBC action is claimed. -/
  | migrated {event : Event} {paid : State} {sender recipient : Address} {cr : ClaimsRecord}
      (stored : s.records.get? sender = some cr) (absent : s.records.get? recipient = none)
      (claimed : Claimed k s paid recipient cr .ibcTransfer) :
      Delivery k blockTime s event { paid with records := paid.records.delete sender }
  /-- Two records become one. -/
  | merged {packet : Packet} {paid : State} {sender recipient : Address}
      {senderRecord recipientRecord mergedCr : ClaimsRecord}
      (merging : Merging k s packet sender recipient senderRecord recipientRecord)
      (merged : Merged k blockTime s paid senderRecord recipientRecord mergedCr) :
      Delivery k blockTime s (.receive packet)
        { paid with records := (paid.records.set recipient mergedCr).delete sender }

/-- What a packet that is received without an error can lead to, for the accounts it names. -/
inductive Settled (k : Keeper) (blockTime : Time) (s : State) (packet : Packet)
    (sender recipient : Address) : State → Prop where
  /-- Nothing changes. -/
  | same : Settled k blockTime s packet sender recipient s
  /-- The recipient claims the IBC action of its record. -/
  | claimed {after : State} {cr : ClaimsRecord} (stored : s.records.get? recipient = some cr)
      (claimed : Claimed k s after recipient cr .ibcTransfer) :
      Settled k blockTime s packet sender recipient after
  /-- The sender's record moves to the recipient, and its IBC action is claimed. -/
  | migrated {paid : State} {cr : ClaimsRecord} (stored : s.records.get? sender = some cr)
      (absent : s.records.get? recipient = none)
      (claimed : Claimed k s paid recipient cr .ibcTransfer) :
      Settled k blockTime s packet sender recipient
        { paid with records := paid.records.delete sender }
  /-- The sender's record is merged into the recipient's. -/
  | merged {paid : State} {senderRecord recipientRecord mergedCr : ClaimsRecord}
      (merging : Merging k s packet sender recipient senderRecord recipientRecord)
      (merged : Merged k blockTime s paid senderRecord recipientRecord mergedCr) :
      Settled k blockTime s packet sender recipient
        { paid with records := (paid.records.set recipient mergedCr).delete sender }

theorem Settled.of_unchanged {k : Keeper} {blockTime : Time} {s after : State} {packet : Packet}
    {sender recipient : Address}
    (unchanged : ((.ok (), s) : Result Unit × State) = (.ok (), after)) :
    Settled k blockTime s packet sender recipient after := by
  obtain ⟨-, rfl⟩ := Prod.mk.inj unchanged
  exact .same

theorem Settled.delivery {k : Keeper} {blockTime : Time} {s after : State} {packet : Packet}
    {sender recipient : Address} (settled : Settled k blockTime s packet sender recipient after) :
    Delivery k blockTime s (.receive packet) after := by
  cases settled with
  | same => exact .same
  | claimed stored claimed => exact .claimed stored claimed
  | migrated stored absent claimed => exact .migrated stored absent claimed
  | merged merging merged => exact .merged merging merged

section Window

variable {k : Keeper} {blockTime : Time} {s : State}
  (active : s.params.isClaimsActive blockTime = true)

include active

/-- A hook claims for a stored record, and keeps what a failed claim has done. -/
theorem claimOnHook_delivery (event : Event) (addr : Address) (action : Action) :
    Delivery k blockTime s event (claimOnHook k blockTime s addr action) := by
  unfold claimOnHook
  rcases stored : s.records.get? addr with _ | cr
  · exact .same
  have outcome := claimCoinsForAction_outcome (k := k) active addr cr action
  simp only
  generalize claimCoinsForAction k blockTime s addr cr action = result at outcome ⊢
  -- A claim without funds has changed the state already, and the hook keeps it.
  cases outcome with
  | refused => exact .same
  | short specified unclaimed less => exact .short stored specified unclaimed less
  | nothing => exact .same
  | claimed positive claimed => exact .claimed stored claimed

/-- An IBC callback claims for a stored record, and a failed claim is taken back. -/
theorem keepClaim_delivery (event : Event) {addr : Address} {cr : ClaimsRecord}
    (stored : s.records.get? addr = some cr) (action : Action) :
    Delivery k blockTime s event
      (keepOnSuccess s
        ((claimCoinsForAction k blockTime s addr cr action).1.map fun _ => (),
          (claimCoinsForAction k blockTime s addr cr action).2)) := by
  have outcome := claimCoinsForAction_outcome (k := k) active addr cr action
  generalize claimCoinsForAction k blockTime s addr cr action = result at outcome ⊢
  -- Here every claim that fails is taken back.
  cases outcome with
  | refused => exact .same
  | short => exact .same
  | nothing => exact .same
  | claimed positive claimed => exact .claimed stored claimed

theorem onAcknowledgementPacket_delivery (packet : Packet) (ack : Ack) :
    Delivery k blockTime s (.acknowledge packet ack)
      (keepOnSuccess s (onAcknowledgementPacket k blockTime s packet ack)) := by
  simp only [onAcknowledgementPacket, active, Bool.not_true, Bool.false_eq_true, if_false]
  -- Only a success claims, and only for a sender with a record.
  cases ack with
  | undecodable => exact .same
  | error => exact .same
  | success =>
    rcases getTransferSenderRecipient k packet with err | ⟨sender, rest⟩
    · exact .same
    simp only
    rcases stored : s.records.get? sender with _ | cr
    · exact .same
    · exact keepClaim_delivery active _ stored .ibcTransfer

theorem settled_of_claim {packet : Packet} {sender recipient : Address} {cr : ClaimsRecord}
    {after : State} (stored : s.records.get? recipient = some cr)
    (done : ((claimCoinsForAction k blockTime s recipient cr .ibcTransfer).1.map fun _ => (),
      (claimCoinsForAction k blockTime s recipient cr .ibcTransfer).2) = (.ok (), after)) :
    Settled k blockTime s packet sender recipient after := by
  have outcome := claimCoinsForAction_outcome (k := k) active recipient cr .ibcTransfer
  generalize claimCoinsForAction k blockTime s recipient cr .ibcTransfer = result at outcome done
  obtain ⟨returned, rfl⟩ := Prod.mk.inj done
  -- The claims that fail return an error.
  cases outcome with
  | refused => cases returned
  | short => cases returned
  | nothing => exact .same
  | claimed positive claimed => exact .claimed stored claimed

/-- The last part of `OnRecvPacket` merges, migrates, claims, or changes nothing. -/
theorem settlePacket_settled {packet : Packet} {sender recipient : Address} {amount : String}
    {fromEVMChain : Bool} {after : State}
    (decoded : ∃ spellings, getTransferSenderRecipient k packet = .ok (sender, recipient, spellings))
    (allowed : k.blockedAddr sender = false ∧ k.blockedAddr recipient = false)
    (authorized : s.params.isAuthorizedChannel packet.destinationChannel = true)
    (amt : getTransferAmount k packet = .ok amount)
    (done : settlePacket k blockTime s sender recipient fromEVMChain (amount = ibcTriggerAmt) =
      (.ok (), after)) :
    Settled k blockTime s packet sender recipient after := by
  unfold settlePacket at done
  rcases senderStored : s.records.get? sender with _ | senderRecord <;>
    rcases recipientStored : s.records.get? recipient with _ | recipientRecord <;>
    simp only [senderStored, recipientStored] at done
  · exact .of_unchanged done
  · exact settled_of_claim active recipientStored done
  · -- Only the sender has a record, which migrates if something is paid for it.
    split_ifs at done with trigger
    · have outcome := claimCoinsForAction_outcome (k := k) active recipient senderRecord
        .ibcTransfer
      generalize claimCoinsForAction k blockTime s recipient senderRecord .ibcTransfer = result
        at outcome done
      cases outcome with
      | refused => cases done
      | short => cases done
      | nothing =>
        exact .of_unchanged done
      | claimed positive claimed =>
        simp only [positive.ne', if_false] at done
        obtain ⟨-, rfl⟩ := Prod.mk.inj done
        exact .migrated senderStored recipientStored claimed
    · exact .of_unchanged done
  · -- Both have a record, which are merged if the accounts differ.
    split_ifs at done with merge same
    · simp only [Bool.and_eq_true, Bool.not_eq_true', decide_eq_false_iff_not,
        decide_eq_true_eq] at merge
      obtain ⟨elsewhere, rfl⟩ := merge
      rcases merges : mergeClaimsRecords k blockTime s recipient senderRecord recipientRecord
        with ⟨err | merged, paid⟩
      · rw [merges] at done
        cases done
      · rw [merges] at done
        obtain ⟨-, rfl⟩ := Prod.mk.inj done
        have result := mergeClaimsRecords_ok active merges
        exact .merged ⟨decoded, allowed, elsewhere, authorized, amt, senderStored, recipientStored,
          result.fresh⟩ result
    · exact settled_of_claim active recipientStored done
    · exact .of_unchanged done

/-- A packet that is received without an error has been settled. -/
theorem onRecvPacket_settled {packet : Packet} {after : State}
    (done : onRecvPacket k blockTime s packet = (.ok (), after)) :
    ∃ sender recipient spellings,
      getTransferSenderRecipient k packet = .ok (sender, recipient, spellings) ∧
        Settled k blockTime s packet sender recipient after := by
  simp only [onRecvPacket, active, Bool.not_true, Bool.false_eq_true, if_false] at done
  rcases decoded : getTransferSenderRecipient k packet with err | ⟨sender, recipient, spellings⟩
  · rw [decoded] at done
    cases done
  refine ⟨sender, recipient, spellings, rfl, ?_⟩
  simp only [decoded] at done
  split_ifs at done with blocked completed stuck unclaimed unauthorized
  -- The checks before the settlement fail or return the state as it was.
  · cases done
  · exact .of_unchanged done
  · cases done
  · exact .of_unchanged done
  · exact .of_unchanged done
  · rcases amt : getTransferAmount k packet with err | amount
    · rw [amt] at done
      cases done
    · simp only [amt] at done
      refine settlePacket_settled active ⟨spellings, decoded⟩ ?_ ?_ amt done
      · simpa using blocked
      · simpa using unauthorized

theorem onRecvPacket_delivery (packet : Packet) :
    Delivery k blockTime s (.receive packet)
      (keepOnSuccess s (onRecvPacket k blockTime s packet)) := by
  -- An error takes the whole packet back.
  rcases received : onRecvPacket k blockTime s packet with ⟨err | done, after⟩
  · exact .same
  · obtain ⟨sender, recipient, spellings, -, settled⟩ := onRecvPacket_settled active received
    exact settled.delivery

/-- Every event inside the claim window does one of these things. -/
theorem Event.deliver_delivery (event : Event) :
    Delivery k blockTime s event (event.deliver k blockTime s) := by
  cases event with
  | vote voterAddr => exact claimOnHook_delivery active _ voterAddr .vote
  | delegation delAddr => exact claimOnHook_delivery active _ delAddr .delegate
  | evmTx fromAddr => exact claimOnHook_delivery active _ fromAddr .evm
  | acknowledge packet ack => exact onAcknowledgementPacket_delivery active packet ack
  | receive packet => exact onRecvPacket_delivery active packet

end Window

/-- What all records still need from the escrow. -/
def State.unclaimedTotal (s : State) : ℕ := s.records.total fun _ cr => cr.need

section Totals

variable {k : Keeper} {blockTime : Time} {s after paid : State} {addr sender recipient : Address}
  {cr : ClaimsRecord} {action : Action}

theorem need_le_unclaimedTotal (stored : s.records.get? addr = some cr) :
    cr.need ≤ s.unclaimedTotal := by
  -- Without the record the total is smaller by what it needs.
  have removed := s.records.total_delete (fun _ (cr : ClaimsRecord) => cr.need) addr
  rw [stored] at removed
  simp only [Option.elim_some] at removed
  rw [State.unclaimedTotal]
  omega

theorem unclaimedTotal_claimed (stored : s.records.get? addr = some cr)
    (claimed : Claimed k s after addr cr action) :
    after.unclaimedTotal + cr.share = s.unclaimedTotal := by
  -- The record is replaced by one with an action less to be paid.
  have replaced := s.records.total_set (fun _ (cr : ClaimsRecord) => cr.need) addr
    (cr.markClaimed action)
  have fewer := ClaimsRecord.need_markClaimed claimed.specified claimed.unclaimed
  rw [stored] at replaced
  simp only [Option.elim_some] at replaced
  rw [State.unclaimedTotal, State.unclaimedTotal, claimed.records]
  omega

theorem unclaimedTotal_migrated (stored : s.records.get? sender = some cr)
    (absent : s.records.get? recipient = none)
    (claimed : Claimed k s paid recipient cr .ibcTransfer) :
    State.unclaimedTotal { paid with records := paid.records.delete sender } + cr.share =
      s.unclaimedTotal := by
  -- The recipient has no record and the sender has one, so they differ.
  have elsewhere : sender ≠ recipient := by
    rintro rfl
    rw [stored] at absent
    cases absent
  have moved := s.records.total_set_delete (fun _ cr => cr.need) (cr.markClaimed .ibcTransfer)
    elsewhere stored
  have fewer := ClaimsRecord.need_markClaimed claimed.specified claimed.unclaimed
  rw [absent] at moved
  simp only [Option.elim_none] at moved
  simp only [State.unclaimedTotal, claimed.records]
  omega

theorem unclaimedTotal_merged {packet : Packet} {senderRecord recipientRecord : ClaimsRecord}
    (merged : ClaimsRecord)
    (merging : Merging k s packet sender recipient senderRecord recipientRecord)
    (kept : paid.records = s.records) :
    State.unclaimedTotal { paid with records := (paid.records.set recipient merged).delete sender } +
        (senderRecord.need + recipientRecord.need) =
      s.unclaimedTotal + merged.need := by
  -- One record is written and the other one deleted.
  have moved := s.records.total_set_delete (fun _ cr => cr.need) merged merging.elsewhere
    merging.senderStored
  rw [merging.recipientStored] at moved
  simp only [Option.elim_some] at moved
  simp only [State.unclaimedTotal, kept]
  omega

end Totals

end Evmos.Claims
