import Evmos.Feesplit.Keeper
import Evmos.Proofs.Claims.Invariant

/-! When the check of the genesis agrees with the registered invariant. -/

namespace Evmos.Claims

open Library

/-- The record that a genesis entry stores. -/
def ClaimsRecordAddress.record (cra : ClaimsRecordAddress) : ClaimsRecord :=
  ⟨cra.initialClaimableAmount, flagsOf cra.actionsCompleted⟩

/-- The records of a genesis, each with the address that it is stored at. -/
def listedRecords (bech32 : Bech32) (genesis : List ClaimsRecordAddress) :
    List (Address × ClaimsRecord) :=
  genesis.filterMap fun cra => (bech32.decode cra.address).map fun addr => (addr, cra.record)

/-- The parameters that the genesis stores, whose start defaults to the block time. -/
def GenesisState.startParams (blockTime : Time) (data : GenesisState) : Params :=
  if data.params.airdropStartTime = zeroTime then
    { data.params with airdropStartTime := blockTime }
  else data.params

/-- The state that the genesis has written by the time it compares the two sums. -/
def State.written (bech32 : Bech32) (blockTime : Time) (s : State) (data : GenesisState) : State :=
  { s with
    params := data.startParams blockTime
    records := s.records.setAll (listedRecords bech32 data.claimsRecords) }

/-- What the genesis adds up: the truncated shares of the open actions it lists. -/
def listedNeed (bech32 : Bech32) (data : GenesisState) : ℕ :=
  ((listedRecords bech32 data.claimsRecords).map fun entry => entry.2.need).sum

/-- What truncation drops of the open amounts that are listed, in quarters. -/
def listedResidue (bech32 : Bech32) (data : GenesisState) : ℕ :=
  ((listedRecords bech32 data.claimsRecords).map fun entry =>
    entry.2.unclaimed * (entry.2.initialClaimableAmount % 4)).sum

/-- The open amounts of records that a later spelling of their address replaces, in quarters. -/
def shadowedAmount (bech32 : Bech32) (data : GenesisState) : ℕ :=
  ((Store.shadowed (listedRecords bech32 data.claimsRecords)).map fun entry =>
    entry.2.openAmount).sum

section Records

variable {bech32 : Bech32}

theorem ClaimsRecordAddress.of_validate {cra : ClaimsRecordAddress}
    (valid : cra.validate bech32 = .ok ()) :
    (∃ addr, bech32.decode cra.address = some addr) ∧ cra.actionsCompleted.length = 4 := by
  unfold ClaimsRecordAddress.validate at valid
  split_ifs at valid with undecoded nothing length
  refine ⟨?_, not_not.mp length⟩
  exact Option.ne_none_iff_exists'.mp (undecoded ∘ Option.isNone_iff_eq_none.mpr)

theorem validate_of_validateRecords (genesis : List ClaimsRecordAddress) {seen : List String}
    (valid : validateRecords bech32 seen genesis = .ok ()) :
    ∀ cra ∈ genesis, cra.validate bech32 = .ok () := by
  induction genesis generalizing seen with
  | nil => simp
  | cons cra rest ih =>
    rw [validateRecords] at valid
    -- The check for duplicates compares texts, and says nothing about the record.
    split_ifs at valid
    obtain ⟨⟨⟩, checked, others⟩ := bind_eq_ok.mp valid
    exact List.forall_mem_cons.mpr ⟨checked, ih others⟩

/-- Valid records are stored one after the other, and the sum counts all of them. -/
theorem initRecords_eq (genesis : List ClaimsRecordAddress)
    (valid : ∀ cra ∈ genesis, cra.validate bech32 = .ok ()) (sum : ℕ)
    (records : Store Address ClaimsRecord) :
    initRecords bech32 sum records genesis =
      .ok (sum + ((listedRecords bech32 genesis).map fun entry => entry.2.need).sum,
        records.setAll (listedRecords bech32 genesis)) := by
  induction genesis generalizing sum records with
  | nil => simp [initRecords, listedRecords]
  | cons cra rest ih =>
    obtain ⟨first, others⟩ := List.forall_mem_cons.mp valid
    obtain ⟨⟨addr, decoded⟩, four⟩ := ClaimsRecordAddress.of_validate first
    have listed : listedRecords bech32 (cra :: rest) =
        (addr, cra.record) :: listedRecords bech32 rest := by
      simp [listedRecords, decoded]
    -- The loop over the flags adds what the record needs.
    have added : cra.actionsCompleted.foldl (fun sum completed => if completed then sum else
        sum + cra.initialClaimableAmount / 4) sum = sum + cra.record.need := by
      rw [foldl_unclaimed, count_flagsOf four]
      rfl
    rw [initRecords, decoded]
    simp only [orPanic, Bind.bind, Except.bind, four, ne_eq, not_true_eq_false, if_false, added]
    rw [← ClaimsRecordAddress.record, ih others, listed, Store.setAll_cons, List.map_cons,
      List.sum_cons, add_assoc]

theorem openAmount_eq (cr : ClaimsRecord) :
    cr.openAmount = 4 * cr.need + cr.unclaimed * (cr.initialClaimableAmount % 4) := by
  -- The amount is its quarter four times, and the remainder.
  have whole := Nat.div_add_mod cr.initialClaimableAmount 4
  rw [ClaimsRecord.openAmount, ClaimsRecord.need, ClaimsRecord.share]
  nth_rewrite 1 [← whole]
  ring

theorem sum_openAmount (entries : List (Address × ClaimsRecord)) :
    (entries.map fun entry => entry.2.openAmount).sum =
      4 * (entries.map fun entry => entry.2.need).sum +
        (entries.map fun entry =>
          entry.2.unclaimed * (entry.2.initialClaimableAmount % 4)).sum := by
  rw [← List.sum_map_mul_left, ← List.sum_map_add]
  exact congrArg List.sum (List.map_congr_left fun entry _ => openAmount_eq entry.2)

end Records

theorem shadowedAmount_eq_zero {bech32 : Bech32} {data : GenesisState}
    (distinct : ((listedRecords bech32 data.claimsRecords).map Prod.fst).Nodup) :
    shadowedAmount bech32 data = 0 := by
  rw [shadowedAmount, Store.shadowed_of_nodup distinct]
  rfl

section Genesis

variable {k : Keeper} {blockTime : Time} {s : State} {data : GenesisState}

/-- A valid genesis is stored when the sum is what the escrow holds, and refused otherwise. -/
theorem initGenesis_eq_ok_iff
    (valid : ∀ cra ∈ data.claimsRecords, cra.validate k.bech32 = .ok ()) {after : State} :
    initGenesis k blockTime s data = .ok after ↔
      listedNeed k.bech32 data = (s.written k.bech32 blockTime data).escrow k ∧
        after = s.written k.bech32 blockTime data := by
  simp only [initGenesis, initRecords_eq _ valid, Bind.bind, Except.bind, zero_add]
  rw [← GenesisState.startParams]
  -- The comparison comes last, when everything is written already.
  split_ifs with differs
  · constructor
    · rintro ⟨⟩
    · rintro ⟨same, -⟩
      exact absurd same differs
  · constructor
    · intro stored
      exact ⟨not_not.mp differs, (Except.ok.inj stored).symm⟩
    · rintro ⟨-, rfl⟩
      rfl

/-- The written records leave four times the sum open, up to residues and replaced records. -/
theorem total_written (fresh : s.records = .empty) :
    ((s.written k.bech32 blockTime data).records.total fun _ cr => cr.openAmount) +
        shadowedAmount k.bech32 data =
      4 * listedNeed k.bech32 data + listedResidue k.bech32 data := by
  -- What a later entry stores over is the shadowed amount.
  have stored := Store.total_setAll_empty (fun _ (cr : ClaimsRecord) => cr.openAmount)
    (listedRecords k.bech32 data.claimsRecords)
  rw [State.written, fresh, shadowedAmount, stored, sum_openAmount]
  rfl

/-- A state without records, whose escrow holds an amount of a denomination. -/
def holding (k : Keeper) (params : Params) (amount : ℕ) : State where
  params := params
  records := .empty
  balances addr := if addr = k.moduleAddress then Coins.ofCoin params.claimsDenom amount else 0
  communityPool := 0

theorem escrow_written_holding (k : Keeper) (blockTime : Time) (data : GenesisState) (amount : ℕ) :
    ((holding k data.params amount).written k.bech32 blockTime data).escrow k = amount := by
  -- A start time that is filled in leaves the denomination as it is.
  have denom : (data.startParams blockTime).claimsDenom = data.params.claimsDenom := by
    unfold GenesisState.startParams
    split_ifs <;> rfl
  simp [State.escrow, State.written, holding, denom]

end Genesis

/--
The genesis is accepted exactly when the invariant holds, if residues and replaced records balance.

The genesis sums up truncated shares over the records it lists, and the invariant exact quarters
over those it stores. For one escrow they agree if both sums are the same, or if it is neither. For
every escrow they agree exactly when what truncation drops is what records replace that are listed
under another spelling; without such records, when every amount with an open action divides by four.
-/
theorem genesis_agrees_with_invariant_iff (k : Keeper) (validDenom : Denom → Bool)
    (channelIdentifierValidator : String → Bool) (blockTime : Time) (data : GenesisState)
    (valid : data.validate k.bech32 validDenom channelIdentifierValidator = .ok ())
    (window : (data.startParams blockTime).isClaimsActive blockTime = true) :
    (∀ s : State, s.records = .empty →
      (∀ after, initGenesis k blockTime s data = .ok after →
        after = s.written k.bech32 blockTime data) ∧
      (((∃ after, initGenesis k blockTime s data = .ok after) ↔
          (claimsInvariant k blockTime (s.written k.bech32 blockTime data)).2 = false) ↔
        listedResidue k.bech32 data = shadowedAmount k.bech32 data ∨
          (s.written k.bech32 blockTime data).escrow k ≠ listedNeed k.bech32 data ∧
            4 * (s.written k.bech32 blockTime data).escrow k + shadowedAmount k.bech32 data ≠
              4 * listedNeed k.bech32 data + listedResidue k.bech32 data)) ∧
    ((∀ s : State, s.records = .empty →
        ((∃ after, initGenesis k blockTime s data = .ok after) ↔
          (claimsInvariant k blockTime (s.written k.bech32 blockTime data)).2 = false)) ↔
      listedResidue k.bech32 data = shadowedAmount k.bech32 data) := by
  obtain ⟨⟨⟩, checked, -⟩ := bind_eq_ok.mp valid
  have records := validate_of_validateRecords data.claimsRecords checked
  -- Both sides as equations between the same four numbers.
  have accepted : ∀ s, (∃ after, initGenesis k blockTime s data = .ok after) ↔
      listedNeed k.bech32 data = (s.written k.bech32 blockTime data).escrow k := by
    intro s
    simp only [initGenesis_eq_ok_iff records, exists_and_left, exists_eq, and_true]
  have unbroken : ∀ s : State, s.records = .empty →
      ((claimsInvariant k blockTime (s.written k.bech32 blockTime data)).2 = false ↔
        4 * (s.written k.bech32 blockTime data).escrow k + shadowedAmount k.bech32 data =
          4 * listedNeed k.bech32 data + listedResidue k.bech32 data) := by
    intro s fresh
    rw [claimsInvariant_unbroken_iff window, ← total_written fresh, Nat.add_right_cancel_iff]
    exact eq_comm
  have agrees : ∀ s : State, s.records = .empty →
      (((∃ after, initGenesis k blockTime s data = .ok after) ↔
          (claimsInvariant k blockTime (s.written k.bech32 blockTime data)).2 = false) ↔
        listedResidue k.bech32 data = shadowedAmount k.bech32 data ∨
          (s.written k.bech32 blockTime data).escrow k ≠ listedNeed k.bech32 data ∧
            4 * (s.written k.bech32 blockTime data).escrow k + shadowedAmount k.bech32 data ≠
              4 * listedNeed k.bech32 data + listedResidue k.bech32 data) := by
    intro s fresh
    rw [accepted s, unbroken s fresh]
    omega
  refine ⟨fun s fresh => ⟨fun after stored => ((initGenesis_eq_ok_iff records).mp stored).2,
    agrees s fresh⟩, fun always => ?_, fun balanced s fresh => (agrees s fresh).mpr (.inl balanced)⟩
  -- An escrow of exactly the sum is accepted, and then both sums must be the same.
  have escrow := escrow_written_holding k blockTime data (listedNeed k.bech32 data)
  rcases (agrees _ rfl).mp (always (holding k data.params (listedNeed k.bech32 data)) rfl) with
    balanced | ⟨other, -⟩
  · exact balanced
  · exact absurd escrow other

/-- For amounts of eight the two agree: sixteen start the chain, and seventeen do not. -/
theorem eights_start_unbroken :
    (∃ after, initGenesis unaryKeeper 0 (escrowing 16) (twoRecords 8) = .ok after ∧
      (claimsInvariant unaryKeeper 0 after).2 = false) ∧
    ∀ after, initGenesis unaryKeeper 0 (escrowing 17) (twoRecords 8) ≠ .ok after := by
  -- Eight is a multiple of four, and the two texts are of different accounts.
  have balanced := (genesis_agrees_with_invariant_iff unaryKeeper (fun _ => true) (fun _ => true) 0
    (twoRecords 8) (by decide) (by decide)).2.mpr
      (by rw [shadowedAmount_eq_zero (by decide)]; decide)
  refine ⟨⟨_, rfl, (balanced (escrowing 16) rfl).mp ⟨_, rfl⟩⟩, fun after stored => ?_⟩
  have broken : (claimsInvariant unaryKeeper 0
      ((escrowing 17).written unaryKeeper.bech32 0 (twoRecords 8))).2 = true := by decide
  rw [(balanced (escrowing 17) rfl).mp ⟨after, stored⟩] at broken
  cases broken

/-- A keeper for evaluation, whose addresses have a spelling of each case. -/
def casedKeeper : Keeper :=
  { unaryKeeper with bech32 := Feesplit.letters, evmosAddress := Feesplit.letters.decode }

/-- One account with a record under each spelling of its address. -/
def spelledTwice : GenesisState :=
  { twoRecords 4 with
    claimsRecords :=
      [⟨"qqqq", 4, [false, false, false, false]⟩, ⟨"QQQQ", 4, [false, false, false, false]⟩] }

/--
Amounts of six start with a broken invariant, or are refused with an unbroken one.

An escrow of eight is what the truncated shares add up to, and one of twelve what the exact
quarters do. An address under two spellings counts twice for the genesis, and once in the store.
-/
theorem genesis_disagrees_with_invariant :
    (twoRecords 6).validate unaryKeeper.bech32 (fun _ => true) (fun _ => true) = .ok () ∧
    ((twoRecords 6).startParams 0).isClaimsActive 0 = true ∧
    (∃ after, initGenesis unaryKeeper 0 (escrowing 8) (twoRecords 6) = .ok after ∧
      (claimsInvariant unaryKeeper 0 after).2 = true) ∧
    initGenesis unaryKeeper 0 (escrowing 12) (twoRecords 6) = .error ⟨.panic,
      "sum of unclaimed amount ≠ escrowed module account amount (8 ≠ 12)"⟩ ∧
    (claimsInvariant unaryKeeper 0
      ((escrowing 12).written unaryKeeper.bech32 0 (twoRecords 6))).2 = false ∧
    spelledTwice.validate casedKeeper.bech32 (fun _ => true) (fun _ => true) = .ok () ∧
    (∃ after, initGenesis casedKeeper 0 (escrowing 8) spelledTwice = .ok after ∧
      (claimsInvariant casedKeeper 0 after).2 = true) ∧
    initGenesis casedKeeper 0 (escrowing 4) spelledTwice = .error ⟨.panic,
      "sum of unclaimed amount ≠ escrowed module account amount (8 ≠ 4)"⟩ ∧
    (claimsInvariant casedKeeper 0
      ((escrowing 4).written casedKeeper.bech32 0 spelledTwice)).2 = false :=
  ⟨by decide, by decide, ⟨_, rfl, by decide⟩, rfl, by decide, by decide, ⟨_, rfl, by decide⟩, rfl,
    by decide⟩

end Evmos.Claims
