import Evmos.Proofs.Claims.Delivery

/-! When the escrow covers every claim that is still open, over any run of the claims module. -/

namespace Evmos.Claims

open Library

/-- The escrow covers the unclaimed actions of all records. -/
def Solvent (k : Keeper) (s : State) : Prop := s.unclaimedTotal ≤ s.escrow k

/--
Two records whose merged shares round down to the sum of their own shares.

Nothing has to fit when the recipient has claimed every other action, as the merge leaves none open.
-/
def Fits (sender recipient : ClaimsRecord) : Prop :=
  sender.initialClaimableAmount % 4 + recipient.initialClaimableAmount % 4 < 4 ∨
    (recipient.hasClaimedAction .vote = true ∧ recipient.hasClaimedAction .delegate = true ∧
      recipient.hasClaimedAction .evm = true)

/-- The call does not merge two records that do not fit. -/
def MergeFits (k : Keeper) (before : Chain) (call : Call) : Prop :=
  ∀ packet, call.event = .receive packet → ∀ sender recipient senderRecord recipientRecord,
    Merging k before.state packet sender recipient senderRecord recipientRecord →
      Fits senderRecord recipientRecord

variable {k : Keeper}

theorem mergeFits_of_multiples {before : Chain} {call : Call}
    (multiples : ∀ entry ∈ before.state.records.entries, 4 ∣ entry.2.initialClaimableAmount) :
    MergeFits k before call := by
  intro packet _ sender recipient senderRecord recipientRecord merging
  -- The remainders are zero, and so is their sum.
  have first := multiples _ (Store.get?_eq_some.mp merging.senderStored)
  have second := multiples _ (Store.get?_eq_some.mp merging.recipientStored)
  exact .inl (by simp only at first second; omega)

/-- A merge of records that fit needs no more than both shares for each open action. -/
theorem need_mergedRecord_le {sender recipient : ClaimsRecord} (fits : Fits sender recipient) :
    (mergedRecord sender recipient).need ≤
      (mergedRecord sender recipient).unclaimed * (sender.share + recipient.share) := by
  rcases fits with small | ⟨vote, delegate, evm⟩
  · -- No carry: the quotient of the sum is the sum of the quotients.
    have share : (mergedRecord sender recipient).share = sender.share + recipient.share := by
      simp only [ClaimsRecord.share, mergedRecord]
      omega
    rw [ClaimsRecord.need, share]
  · have none : (mergedRecord sender recipient).unclaimed = 0 := by
      simp only [ClaimsRecord.hasClaimedAction, Action.index] at vote delegate evm
      simp [ClaimsRecord.unclaimed, Fin.sum_univ_four, mergedRecord, vote, delegate, evm]
    rw [ClaimsRecord.need, none, zero_mul]
    exact Nat.zero_le _

theorem Solvent.share_le {s : State} (solvent : Solvent k s) {addr : Address} {cr : ClaimsRecord}
    {action : Action} (stored : s.records.get? addr = some cr) (specified : action ≠ .unspecified)
    (open_ : cr.hasClaimedAction action = false) : cr.share ≤ s.escrow k :=
  (ClaimsRecord.share_le_need specified open_).trans
    ((need_le_unclaimedTotal stored).trans solvent)

/-- A merge of records that fit keeps the escrow solvent, whether it pays or not. -/
theorem Solvent.merged {blockTime : Time} {s paid : State} {packet : Packet}
    {sender recipient : Address} {senderRecord recipientRecord merged : ClaimsRecord}
    (solvent : Solvent k s)
    (merging : Merging k s packet sender recipient senderRecord recipientRecord)
    (result : Merged k blockTime s paid senderRecord recipientRecord merged)
    (fits : Fits senderRecord recipientRecord) :
    Solvent k { paid with records := (paid.records.set recipient merged).delete sender } := by
  unfold Solvent at solvent ⊢
  have needs := need_add_need recipientRecord result.fresh
  have bound := need_mergedRecord_le fits
  rw [← result.record] at needs bound
  by_cases pays : PaysUser s.params blockTime senderRecord recipientRecord
  · -- The payout leaves the escrow and both needs shrink by it.
    have payment := result.paid pays
    have totals := unclaimedTotal_merged merged merging payment.records
    have escrow := payment.escrow
    change _ ≤ paid.escrow k
    omega
  · -- Without a payout the escrow keeps what the marked actions were worth.
    obtain rfl := result.unpaid pays
    have totals := unclaimedTotal_merged merged merging rfl
    change _ ≤ paid.escrow k
    omega

theorem Solvent.delivered {blockTime : Time} {s after : State} {event : Event}
    (solvent : Solvent k s) (delivery : Delivery k blockTime s event after)
    (fits : ∀ packet, event = .receive packet → ∀ sender recipient senderRecord recipientRecord,
      Merging k s packet sender recipient senderRecord recipientRecord →
        Fits senderRecord recipientRecord) :
    Solvent k after := by
  -- Only a merge can leave more to pay than before.
  cases delivery with
  | same => exact solvent
  | short stored specified unclaimed less =>
    have enough := solvent.share_le stored specified unclaimed
    omega
  | claimed stored claimed =>
    have totals := unclaimedTotal_claimed stored claimed
    have escrow := claimed.escrow
    unfold Solvent at solvent ⊢
    omega
  | migrated stored absent claimed =>
    have totals := unclaimedTotal_migrated stored absent claimed
    have escrow := claimed.escrow
    simp only [Solvent, State.escrow] at escrow solvent ⊢
    omega
  | merged merging merged =>
    exact solvent.merged merging merged (fits _ rfl _ _ _ _ merging)

theorem Solvent.step {before after : Chain} {call : Call} (solvent : Solvent k before.state)
    (taken : Guarded (MergeFits k) (Step k) before call after) : Solvent k after.state := by
  obtain ⟨fits, -, active, rfl⟩ := taken
  exact solvent.delivered (Event.deliver_delivery active call.event) fits

/-- The sum the genesis takes over the flags of one record. -/
theorem foldl_unclaimed (per : ℕ) (flags : List Bool) (sum : ℕ) :
    flags.foldl (fun sum completed => if completed then sum else sum + per) sum =
      sum + flags.count false * per := by
  induction flags generalizing sum with
  | nil => simp
  | cons flag flags ih =>
    rw [List.foldl_cons, ih]
    cases flag with
    | true => simp
    | false =>
      simp only [Bool.false_eq_true, if_false, List.count_cons_self]
      ring

theorem count_flagsOf {flags : List Bool} (four : flags.length = 4) :
    flags.count false = ∑ i, if flagsOf flags i then 0 else 1 := by
  -- There are sixteen lists of four flags.
  have each : ∀ vote delegate evm ibc : Bool, [vote, delegate, evm, ibc].count false =
      ∑ i, if flagsOf [vote, delegate, evm, ibc] i then 0 else 1 := by decide
  match flags, four with
  | [vote, delegate, evm, ibc], _ => exact each vote delegate evm ibc

/-- Loading the genesis records adds at least what the stored records need to the sum. -/
theorem initRecords_total {bech32 : Bech32} (genesis : List ClaimsRecordAddress) {sum : ℕ}
    {records : Store Address ClaimsRecord} {result : ℕ × Store Address ClaimsRecord}
    (loaded : initRecords bech32 sum records genesis = .ok result) :
    result.2.total (fun _ cr => cr.need) + sum ≤ records.total (fun _ cr => cr.need) + result.1 := by
  induction genesis generalizing sum records with
  | nil =>
    obtain rfl := Except.ok.inj loaded
    simp
  | cons claimsRecord rest ih =>
    rw [initRecords] at loaded
    obtain ⟨addr, decoded, loaded⟩ := bind_eq_ok.mp loaded
    split_ifs at loaded with length
    have rest := ih loaded
    -- An address spelled twice replaces its record, and the sum still counts both.
    have written := records.total_set (fun _ (cr : ClaimsRecord) => cr.need) addr
      ⟨claimsRecord.initialClaimableAmount, flagsOf claimsRecord.actionsCompleted⟩
    rw [foldl_unclaimed, count_flagsOf (not_not.mp length)] at rest
    simp only [ClaimsRecord.need, ClaimsRecord.unclaimed, ClaimsRecord.share] at written rest ⊢
    omega

/-- A genesis that is accepted starts with a solvent escrow. -/
theorem initGenesis_solvent {genesisTime : Time} {s start : State} {data : GenesisState}
    (unset : s.records = .empty) (genesis : initGenesis k genesisTime s data = .ok start) :
    Solvent k start := by
  simp only [initGenesis] at genesis
  obtain ⟨loaded, initialized, genesis⟩ := bind_eq_ok.mp genesis
  generalize (if data.params.airdropStartTime = zeroTime then
    { data.params with airdropStartTime := genesisTime } else data.params) = params at genesis
  split_ifs at genesis with differs
  obtain rfl := Except.ok.inj genesis
  -- The genesis compares the escrow with the same sum.
  have total := initRecords_total _ initialized
  rw [unset, Store.total_empty] at total
  simp only [Solvent, State.unclaimedTotal, State.escrow]
  omega

/-- An escrow that is solvent pays for every open action. -/
theorem Solvent.claims {s : State} (solvent : Solvent k s) {blockTime : Time} {addr : Address}
    {cr : ClaimsRecord} {action : Action} (active : s.params.isClaimsActive blockTime = true)
    (stored : s.records.get? addr = some cr) (specified : action ≠ .unspecified)
    (unblocked : k.blockedAddr addr = false) :
    ∃ amount, (claimCoinsForAction k blockTime s addr cr action).1 = .ok amount := by
  have outcome := claimCoinsForAction_outcome (k := k) active addr cr action
  generalize claimCoinsForAction k blockTime s addr cr action = result at outcome ⊢
  -- Of the errors a claim can have, only the lack of funds is left to exclude.
  cases outcome with
  | refused reason =>
    rcases reason with unspecified | blocked
    · exact absurd unspecified specified
    · rw [unblocked] at blocked
      cases blocked
  | short _ unclaimed less =>
    have enough := solvent.share_le stored specified unclaimed
    omega
  | nothing => exact ⟨0, rfl⟩
  | @claimed amount _ _ _ => exact ⟨amount, rfl⟩

/--
The escrow stays solvent, and no open action can fail for lack of funds.

This holds for every run in which the records that a packet merges fit together.
-/
theorem escrow_covers_claims (k : Keeper) {genesisTime : Time} {s start : State}
    {data : GenesisState} {calls : List Call} {last : Chain}
    (unset : s.records = .empty) (genesis : initGenesis k genesisTime s data = .ok start)
    (run : Run (Guarded (MergeFits k) (Step k)) ⟨start, genesisTime⟩ calls last) :
    last.state.unclaimedTotal ≤ last.state.escrow k ∧
      ∀ blockTime addr cr action, last.state.params.isClaimsActive blockTime = true →
        last.state.records.get? addr = some cr → action ≠ .unspecified →
        k.blockedAddr addr = false →
        ∃ amount, (claimCoinsForAction k blockTime last.state addr cr action).1 = .ok amount := by
  have solvent : Solvent k last.state :=
    run.invariant (fun chain => Solvent k chain.state) Solvent.step
      (initGenesis_solvent unset genesis)
  refine ⟨solvent, ?_⟩
  -- What is open is covered, as the invariant holds along the run.
  intro blockTime addr cr action active stored specified unblocked
  exact solvent.claims active stored specified unblocked

/-- A keeper for evaluation, which spells addresses in unary and blocks the claims account. -/
def unaryKeeper : Keeper where
  moduleAddress := 1
  distributionAddress := 2
  blockedAddr addr := addr = 1
  bech32 := .unary
  evmosAddress := Bech32.unary.decode
  isInteger _ := true
  moduleBlocked := by decide
  moduleDistinct := by decide

/-- Two accounts with fresh records of one amount, ten time units before and ten during the decay. -/
def twoRecords (amount : ℕ) : GenesisState where
  params :=
    { enableClaims := true
      airdropStartTime := 0
      durationUntilDecay := 10
      durationOfDecay := 10
      claimsDenom := "aevmos"
      authorizedChannels := ["channel-0"]
      evmChannels := [] }
  claimsRecords :=
    [⟨"111", amount, [false, false, false, false]⟩, ⟨"1111", amount, [false, false, false, false]⟩]

/-- The state before the genesis, with an escrow for those records. -/
def escrowing (amount : ℕ) : State where
  params := (twoRecords 0).params
  records := .empty
  balances addr := if addr = 1 then Coins.ofCoin "aevmos" amount else 0
  communityPool := 0

/-- A packet that merges the first record into the second. -/
def mergingPacket : Packet where
  destinationChannel := "channel-0"
  data := some ⟨"111", "1111", "63743"⟩

/-- Records of eight fit, and after their merge every open action can be claimed. -/
theorem eights_merge_covers_claims :
    ∃ start last, initGenesis unaryKeeper 0 (escrowing 16) (twoRecords 8) = .ok start ∧
      Run (Guarded (MergeFits unaryKeeper) (Step unaryKeeper)) ⟨start, 0⟩
        [⟨1, .receive mergingPacket⟩, ⟨2, .vote 4⟩] last ∧
      last.state.unclaimedTotal = 8 ∧ last.state.unclaimedTotal ≤ last.state.escrow unaryKeeper ∧
      ∃ cr amount, last.state.records.get? 4 = some cr ∧
        (claimCoinsForAction unaryKeeper 15 last.state 4 cr .evm).1 = .ok amount := by
  -- The amounts are multiples of four, so the records fit.
  have ran : ∃ start last, initGenesis unaryKeeper 0 (escrowing 16) (twoRecords 8) = .ok start ∧
      Run (Guarded (MergeFits unaryKeeper) (Step unaryKeeper)) ⟨start, 0⟩
        [⟨1, .receive mergingPacket⟩, ⟨2, .vote 4⟩] last ∧ last.state.unclaimedTotal = 8 ∧
      last.state.params.isClaimsActive 15 = true ∧ ∃ cr, last.state.records.get? 4 = some cr :=
    ⟨_, _, rfl, .extend
      (.extend .start ⟨mergeFits_of_multiples (by decide), by decide, by decide, rfl⟩)
      ⟨mergeFits_of_multiples (by decide), by decide, by decide, rfl⟩, rfl, rfl, _, rfl⟩
  obtain ⟨start, last, genesis, run, total, active, cr, stored⟩ := ran
  obtain ⟨covered, claims⟩ := escrow_covers_claims unaryKeeper rfl genesis run
  obtain ⟨amount, paid⟩ := claims 15 4 cr .evm active stored (by decide) (by decide)
  exact ⟨start, last, genesis, run, total, covered, cr, amount, stored, paid⟩

/-- Records of six do not fit: after their merge the last open action cannot be paid. -/
theorem sixes_merge_breaks_escrow :
    ∃ start last, (twoRecords 6).validate unaryKeeper.bech32 (fun _ => true) (fun _ => true) = .ok () ∧
      initGenesis unaryKeeper 0 (escrowing 8) (twoRecords 6) = .ok start ∧
      Run (Step unaryKeeper) ⟨start, 0⟩
        [⟨1, .receive mergingPacket⟩, ⟨2, .vote 4⟩, ⟨3, .delegation 4⟩] last ∧
      last.state.escrow unaryKeeper < last.state.unclaimedTotal ∧
      ∃ cr err, last.state.records.get? 4 = some cr ∧
        (claimCoinsForAction unaryKeeper 4 last.state 4 cr .evm).1 = .error err := by
  refine ⟨_, _, rfl, rfl, .extend (.extend (.extend .start ⟨by decide, by decide, rfl⟩)
    ⟨by decide, by decide, rfl⟩) ⟨by decide, by decide, rfl⟩, by decide, _, _, rfl, rfl⟩

end Evmos.Claims
