import Evmos.Proofs.Claims.Solvency

/-! When the registered invariant keeps holding: the escrow equals what is unclaimed. -/

namespace Evmos.Claims

open Library

/-- A record whose four shares are whole and positive. -/
def ClaimsRecord.Whole (cr : ClaimsRecord) : Prop :=
  0 < cr.initialClaimableAmount ∧ 4 ∣ cr.initialClaimableAmount

/-- Every record is whole and the escrow holds exactly what is unclaimed. -/
structure Balanced (k : Keeper) (s : State) : Prop where
  whole : ∀ entry ∈ s.records.entries, entry.2.Whole
  exact : s.unclaimedTotal = s.escrow k

/-- A merge in the call pays something to the user. -/
def MergePays (k : Keeper) (before : Chain) (call : Call) : Prop :=
  ∀ packet, call.event = .receive packet → ∀ sender recipient senderRecord recipientRecord,
    Merging k before.state packet sender recipient senderRecord recipientRecord →
      PaysUser before.state.params call.blockTime senderRecord recipientRecord

variable {k : Keeper} {s : State} {cr : ClaimsRecord} {blockTime : Time}

theorem ClaimsRecord.Whole.markClaimed (whole : cr.Whole) (action : Action) :
    (cr.markClaimed action).Whole := by
  unfold ClaimsRecord.markClaimed
  split
  · exact whole
  · exact whole

theorem ClaimsRecord.Whole.merged {sender recipient : ClaimsRecord} (whole : sender.Whole)
    (other : recipient.Whole) :
    (mergedRecord sender recipient).Whole ∧
      (mergedRecord sender recipient).share = sender.share + recipient.share := by
  obtain ⟨positive, divides⟩ := whole
  obtain ⟨-, otherDivides⟩ := other
  simp only [ClaimsRecord.Whole, ClaimsRecord.share, mergedRecord]
  omega

theorem whole_set {records : Store Address ClaimsRecord} {addr : Address}
    (whole : ∀ entry ∈ records.entries, entry.2.Whole) (added : cr.Whole) :
    ∀ entry ∈ (records.set addr cr).entries, entry.2.Whole := by
  intro entry member
  -- The entry is the new one, or was there before.
  rcases Store.mem_set.mp member with ⟨-, same⟩ | ⟨-, before⟩
  · rw [same]
    exact added
  · exact whole entry before

theorem whole_delete {records : Store Address ClaimsRecord} {addr : Address}
    (whole : ∀ entry ∈ records.entries, entry.2.Whole) :
    ∀ entry ∈ (records.delete addr).entries, entry.2.Whole := by
  intro entry member
  exact whole entry (Store.mem_delete.mp member).2

theorem Balanced.whole_of_get? (balanced : Balanced k s) {addr : Address}
    (stored : s.records.get? addr = some cr) : cr.Whole :=
  balanced.whole (addr, cr) (Store.get?_eq_some.mp stored)

/-- A merge that pays the user keeps the state balanced. -/
theorem Balanced.merged {paid : State} {packet : Packet} {sender recipient : Address}
    {senderRecord recipientRecord merged : ClaimsRecord} (balanced : Balanced k s)
    (merging : Merging k s packet sender recipient senderRecord recipientRecord)
    (result : Merged k blockTime s paid senderRecord recipientRecord merged)
    (pays : PaysUser s.params blockTime senderRecord recipientRecord) :
    Balanced k { paid with records := (paid.records.set recipient merged).delete sender } := by
  have payment := result.paid pays
  obtain ⟨whole, share⟩ := (balanced.whole_of_get? merging.senderStored).merged
    (balanced.whole_of_get? merging.recipientStored)
  refine ⟨?_, ?_⟩
  · rw [payment.records, result.record]
    exact whole_delete (whole_set balanced.whole whole)
  · -- The merged record needs the open actions of both, and the rest has been paid.
    have needs := need_add_need recipientRecord result.fresh
    rw [← share, ← ClaimsRecord.need, ← result.record] at needs
    have totals := unclaimedTotal_merged merged merging payment.records
    have escrow := payment.escrow
    have before := balanced.exact
    change _ = paid.escrow k
    omega

/-- One event keeps the state balanced, if the merge it makes pays the user. -/
theorem Balanced.delivered {after : State} {event : Event}
    (balanced : Balanced k s) (delivery : Delivery k blockTime s event after)
    (pays : ∀ packet, event = .receive packet → ∀ sender recipient senderRecord recipientRecord,
      Merging k s packet sender recipient senderRecord recipientRecord →
        PaysUser s.params blockTime senderRecord recipientRecord) :
    Balanced k after := by
  have before := balanced.exact
  cases delivery with
  | same => exact balanced
  | short stored specified unclaimed less =>
    -- A balanced escrow is never short.
    have enough := Solvent.share_le (k := k) balanced.exact.le stored specified unclaimed
    omega
  | @claimed _ _ _ _ action stored claimed =>
    -- The share leaves the escrow and the total alike.
    have totals := unclaimedTotal_claimed stored claimed
    have escrow := claimed.escrow
    refine ⟨?_, by omega⟩
    rw [claimed.records]
    exact whole_set balanced.whole ((balanced.whole_of_get? stored).markClaimed action)
  | migrated stored absent claimed =>
    have totals := unclaimedTotal_migrated stored absent claimed
    have escrow := claimed.escrow
    refine ⟨?_, ?_⟩
    · rw [claimed.records]
      exact whole_delete (whole_set balanced.whole
        ((balanced.whole_of_get? stored).markClaimed .ibcTransfer))
    · simp only [State.escrow] at escrow before ⊢
      omega
  | merged merging merged =>
    exact balanced.merged merging merged (pays _ rfl _ _ _ _ merging)

theorem Balanced.step {before after : Chain} {call : Call} (balanced : Balanced k before.state)
    (taken : Guarded (MergePays k) (Step k) before call after) : Balanced k after.state := by
  obtain ⟨pays, -, active, rfl⟩ := taken
  exact balanced.delivered (Event.deliver_delivery active call.event) pays

/-- Four times what a record leaves unclaimed, which is a whole number for every amount. -/
def ClaimsRecord.openAmount (cr : ClaimsRecord) : ℕ := cr.unclaimed * cr.initialClaimableAmount

theorem ClaimsRecord.Whole.openAmount (whole : cr.Whole) : cr.openAmount = 4 * cr.need := by
  obtain ⟨-, share, amount⟩ := whole
  rw [ClaimsRecord.openAmount, ClaimsRecord.need, ClaimsRecord.share, amount,
    Nat.mul_div_cancel_left _ (by decide)]
  ring

theorem quarter_eq (amount : ℕ) :
    (Dec.ofInt amount).quo (Dec.ofInt 4) = ⟨amount * (Dec.precision / 4)⟩ := by
  refine Dec.quo_ofInt (by decide) ?_
  have places : Dec.precision / 4 * 4 = Dec.precision := by decide
  rw [mul_assoc, places]

theorem foldl_share (flags : Fin 4 → Bool) (share : Dec) (actions : List (Fin 4)) (sum : Dec) :
    (actions.foldl (fun sum i => if flags i then sum else sum + share) sum).atomics =
      sum.atomics + (actions.map fun i => if flags i then (0 : ℤ) else 1).sum * share.atomics := by
  -- A claimed action adds nothing, and an open one the share.
  induction actions generalizing sum with
  | nil => simp
  | cons action actions ih =>
    rw [List.foldl_cons, ih, List.map_cons, List.sum_cons]
    split_ifs
    · ring
    · rw [Dec.atomics_add]
      ring

theorem atomics_addUnclaimed (cr : ClaimsRecord) (sum : Dec) :
    (addUnclaimed sum cr).atomics = sum.atomics + cr.openAmount * (Dec.precision / 4) := by
  simp only [addUnclaimed]
  rw [quarter_eq, foldl_share, ← Fin.sum_univ_def, ClaimsRecord.openAmount, ClaimsRecord.unclaimed]
  push_cast
  ring

/-- The sum of the invariant is a quarter of the open amounts. -/
theorem foldl_addUnclaimed (entries : List (Address × ClaimsRecord)) (sum : Dec) :
    (entries.foldl (fun sum entry => addUnclaimed sum entry.2) sum).atomics =
      sum.atomics +
        ((entries.map fun entry => entry.2.openAmount).sum : ℕ) * (Dec.precision / 4) := by
  induction entries generalizing sum with
  | nil => simp
  | cons entry entries ih =>
    rw [List.foldl_cons, ih, atomics_addUnclaimed, List.map_cons, List.sum_cons]
    push_cast
    ring

theorem claimsInvariant_of_inactive (inactive : s.params.isClaimsActive blockTime = false) :
    (claimsInvariant k blockTime s).2 = false := by
  rw [claimsInvariant, inactive]
  rfl

/-- Inside it, the invariant holds when the escrow is a quarter of the open amounts. -/
theorem claimsInvariant_unbroken_iff (active : s.params.isClaimsActive blockTime = true) :
    (claimsInvariant k blockTime s).2 = false ↔
      (s.records.total fun _ cr => cr.openAmount) = 4 * s.escrow k := by
  have sum := foldl_addUnclaimed s.records.entries 0
  rw [Dec.atomics_zero, zero_add] at sum
  simp only [claimsInvariant, active, Bool.not_true, Bool.false_eq_true, if_false,
    decide_eq_false_iff_not, ne_eq, not_not, Dec.ext_iff, sum, Dec.atomics_ofInt, Store.total]
  -- Both sides are counted in quarters of the last place.
  have places : Dec.precision = 4 * (Dec.precision / 4) := by decide
  have positive : Dec.precision / 4 ≠ 0 := by decide
  rw [places, Int.mul_ediv_cancel_left _ (by decide), ← mul_assoc, mul_left_inj' positive]
  omega

/-- The invariant is not broken in a balanced state. -/
theorem Balanced.claimsInvariant (balanced : Balanced k s) (blockTime : Time) :
    (claimsInvariant k blockTime s).2 = false := by
  cases active : s.params.isClaimsActive blockTime with
  | false => exact claimsInvariant_of_inactive active
  | true =>
    -- The open amounts of whole records are four times what they need.
    have quarters : (s.records.total fun _ cr => cr.openAmount) =
        s.records.total fun _ cr => 4 * cr.need :=
      s.records.total_congr fun addr cr found => (balanced.whole_of_get? found).openAmount
    rw [claimsInvariant_unbroken_iff active, quarters, ← balanced.exact, State.unclaimedTotal,
      Store.total, Store.total, List.sum_map_mul_left]

/--
The registered invariant is not broken by any run from a balanced state.

This holds for every run in which each merge of two records pays something to the user.
-/
theorem claimsInvariant_holds_over_run (k : Keeper) {start last : Chain} {calls : List Call}
    (whole : ∀ entry ∈ start.state.records.entries,
      0 < entry.2.initialClaimableAmount ∧ 4 ∣ entry.2.initialClaimableAmount)
    (escrowed : start.state.escrow k = start.state.records.total fun _ cr =>
      cr.unclaimed * (cr.initialClaimableAmount / 4))
    (run : Run (Guarded (MergePays k) (Step k)) start calls last) :
    ∀ blockTime, (claimsInvariant k blockTime last.state).2 = false := by
  have initially : Balanced k start.state := ⟨whole, escrowed.symm⟩
  -- The escrow equals the shares of all open actions along the run.
  have balanced : Balanced k last.state :=
    run.invariant (fun chain => Balanced k chain.state) Balanced.step initially
  intro blockTime
  exact balanced.claimsInvariant blockTime

/-- A balanced state with two records of four, where the decay ends at twenty. -/
def twoFours : State where
  params := (twoRecords 4).params
  records := (Store.empty.set 3 (newClaimsRecord 4)).set 4 (newClaimsRecord 4)
  balances addr := if addr = 1 then Coins.ofCoin "aevmos" 8 else 0
  communityPool := 0

/-- Before the decay the merge pays both users, and the invariant holds after it. -/
theorem twoFours_invariant_after_early_merge :
    ∃ last, Run (Guarded (MergePays unaryKeeper) (Step unaryKeeper)) ⟨twoFours, 1⟩
        [⟨1, .receive mergingPacket⟩] last ∧
      last.state.escrow unaryKeeper = 6 ∧ (claimsInvariant unaryKeeper 12 last.state).2 = false := by
  have pays : MergePays unaryKeeper ⟨twoFours, 1⟩ ⟨1, .receive mergingPacket⟩ := by
    intro packet _ sender recipient senderRecord recipientRecord merging
    have member := Store.get?_eq_some.mp merging.senderStored
    -- Both records are new, so the merge has actions to pay for.
    have same : senderRecord = newClaimsRecord 4 := by
      have all : ∀ entry ∈ twoFours.records.entries, entry.2 = newClaimsRecord 4 := by decide
      exact all _ member
    rw [same]
    exact .inl (by decide)
  have ran : ∃ last, Run (Guarded (MergePays unaryKeeper) (Step unaryKeeper)) ⟨twoFours, 1⟩
      [⟨1, .receive mergingPacket⟩] last ∧ last.state.escrow unaryKeeper = 6 :=
    ⟨_, .extend .start ⟨pays, by decide, by decide, rfl⟩, by decide⟩
  obtain ⟨last, run, escrow⟩ := ran
  exact ⟨last, run, escrow,
    claimsInvariant_holds_over_run unaryKeeper (by decide) (by decide) run 12⟩

/-- Late in the decay the same merge marks the action without paying, and breaks the invariant. -/
theorem twoFours_late_merge_breaks_invariant :
    (∀ entry ∈ twoFours.records.entries,
        0 < entry.2.initialClaimableAmount ∧ 4 ∣ entry.2.initialClaimableAmount) ∧
      (twoFours.escrow unaryKeeper = twoFours.records.total fun _ cr =>
        cr.unclaimed * (cr.initialClaimableAmount / 4)) ∧
      (onRecvPacket unaryKeeper 19 twoFours mergingPacket).1 = .ok () ∧
      ∃ last, Run (Step unaryKeeper) ⟨twoFours, 19⟩ [⟨19, .receive mergingPacket⟩] last ∧
        (claimsInvariant unaryKeeper 19 last.state).2 = true :=
  ⟨by decide, by decide, rfl, _, .extend .start ⟨by decide, by decide, rfl⟩, by decide⟩

end Evmos.Claims
