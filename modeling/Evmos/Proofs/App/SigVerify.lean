import Evmos.App.SigVerify

/-! Verifying a multisignature costs the same for each leaf that signs, and no index is missed. -/

namespace Evmos.App

/-- A signature tree that fits a key tree: bits for its keys at most, and a signature for each bit. -/
inductive Matches : PubKey → SignatureData → Prop where
  | ethSecp256k1 {data : SignatureData} : Matches .ethSecp256k1 data
  | ed25519 {data : SignatureData} : Matches .ed25519 data
  | other {type : String} {data : SignatureData} : Matches (.other type) data
  /-- The signature of a key that signs is at the number of keys that sign before it. -/
  | multisig {pubKeys : List PubKey} {bitArray : List Bool} {signatures : List SignatureData}
      (short : bitArray.length ≤ pubKeys.length)
      (enough : bitArray.count true ≤ signatures.length)
      (each : ∀ i pubkey data, bitArray[i]? = some true → pubKeys[i]? = some pubkey →
        signatures[(bitArray.take i).count true]? = some data → Matches pubkey data) :
      Matches (.multisig pubKeys) (.multi bitArray signatures)

mutual

/-- The leaves that the bits of a signature tree select. -/
def selectedLeaves : PubKey → SignatureData → List PubKey
  | .multisig pubKeys, .multi bitArray signatures => selectedAmong pubKeys bitArray signatures
  | .multisig _, _ => []
  | pubkey, _ => [pubkey]

/-- The leaves below some keys, of which those with a set bit take the next signature each. -/
def selectedAmong : List PubKey → List Bool → List SignatureData → List PubKey
  | pubkey :: pubKeys, true :: bits, data :: signatures =>
    selectedLeaves pubkey data ++ selectedAmong pubKeys bits signatures
  | _ :: pubKeys, false :: bits, signatures => selectedAmong pubKeys bits signatures
  | _, _, _ => []

end

namespace GasMeter

/-- The meter after an amount was consumed. -/
def charge (meter : GasMeter) (amount : ℕ) : GasMeter :=
  { meter with consumed := meter.consumed + amount }

/-- An amount neither reaches the limit nor overflows. -/
def HasRoom (meter : GasMeter) (amount : ℕ) : Prop :=
  meter.consumed + amount < 2 ^ 64 ∧
    ∀ limit, meter.limit = some limit → meter.consumed + amount ≤ limit

variable {meter after : GasMeter} {amount more : ℕ} {descriptor text : String}

theorem consumeGas_of_hasRoom (room : meter.HasRoom amount) :
    meter.consumeGas amount descriptor = (.ok (), meter.charge amount) := by
  -- A meter without a limit is never past it.
  have below : meter.limit.any (· < meter.consumed + amount) = false := by
    cases limited : meter.limit with
    | none => rfl
    | some limit => simpa using room.2 limit limited
  simp only [consumeGas, if_neg (not_le.mpr room.1), below, Bool.false_eq_true, if_false, charge]

theorem consumeGas_ok (consumed : meter.consumeGas amount descriptor = (.ok (), after)) :
    after = meter.charge amount := by
  -- Both panics, on overflow and past the limit, give an error.
  simp only [consumeGas] at consumed
  split_ifs at consumed
  · cases consumed
  · cases consumed
  · exact (Prod.mk.inj consumed).2.symm

theorem consumeGas_ne_panic :
    (meter.consumeGas amount descriptor).1 ≠ .error ⟨.panic, text⟩ := by
  -- A meter panics with its own two errors only.
  simp only [consumeGas]
  split_ifs
  · simp
  · simp
  · simp

/-- Room for two amounts is room for the first, and then for the second. -/
theorem HasRoom.split (room : meter.HasRoom (amount + more)) :
    meter.HasRoom amount ∧ (meter.charge amount).HasRoom more := by
  -- Neither the overflow bound nor the limit moves with what is consumed.
  obtain ⟨fits, limited⟩ := room
  refine ⟨⟨by omega, fun limit is => ?_⟩, ?_, fun limit is => ?_⟩
  · have := limited limit is
    omega
  · simp only [charge]
    omega
  · have := limited limit is
    simp only [charge]
    omega

@[simp] theorem charge_charge (meter : GasMeter) (amount more : ℕ) :
    (meter.charge amount).charge more = meter.charge (amount + more) := by
  simp [charge, add_assoc]

end GasMeter

/-- The leaves are all keys whose signatures can be verified. -/
def AllEth (leaves : List PubKey) : Prop := ∀ leaf ∈ leaves, leaf = .ethSecp256k1

/-- A consumer of gas charges for exactly the given leaves. -/
structure Charges (consumer : GasMeter → Result Unit × GasMeter) (leaves : List PubKey) :
    Prop where
  inRange : ∀ meter text, (consumer meter).1 ≠ .error ⟨.panic, text⟩
  charged : ∀ meter after, consumer meter = (.ok (), after) →
    AllEth leaves ∧ after = meter.charge (secp256k1VerifyCost * leaves.length)
  succeeds : ∀ meter, AllEth leaves →
    meter.HasRoom (secp256k1VerifyCost * leaves.length) →
    consumer meter = (.ok (), meter.charge (secp256k1VerifyCost * leaves.length))

namespace Charges

theorem nothing : Charges (fun meter => (.ok (), meter)) [] where
  inRange meter text := by simp
  charged meter after done := by
    -- Neither the leaves nor the meter change.
    refine ⟨by simp [AllEth], ?_⟩
    exact (Prod.mk.inj done).2.symm
  succeeds meter _ _ := rfl

/-- A consumer that always fails charges for a leaf that is not verified. -/
theorem refused {consumer : GasMeter → Result Unit × GasMeter} {leaf : PubKey}
    (unsupported : leaf ≠ .ethSecp256k1)
    (fails : ∀ meter, ∃ err, (consumer meter).1 = .error err ∧ err.kind ≠ .panic) :
    Charges consumer [leaf] where
  -- A refusal is returned as an error, never raised as a panic.
  inRange meter text same := by
    obtain ⟨err, failed, kind⟩ := fails meter
    rw [failed] at same
    rw [Except.error.inj same] at kind
    exact kind rfl
  charged meter after done := by
    obtain ⟨err, failed, -⟩ := fails meter
    rw [done] at failed
    cases failed
  succeeds meter all _ := absurd (all leaf (List.mem_singleton_self leaf)) unsupported

/-- One consumer after another charges for the leaves of both. -/
theorem andThen {first second : GasMeter → Result Unit × GasMeter} {leaves others : List PubKey}
    (one : Charges first leaves) (two : Charges second others) :
    Charges (fun meter => match first meter with
      | (.error err, meter) => (.error err, meter)
      | (.ok (), meter) => second meter) (leaves ++ others) where
  inRange meter text := by
    have safe := one.inRange meter text
    -- The second consumer runs only after the first succeeded.
    rcases done : first meter with ⟨err | ⟨⟨⟩⟩, after⟩
    · rw [done] at safe
      exact safe
    · exact two.inRange after text
  charged meter after done := by
    rcases consumed : first meter with ⟨err | ⟨⟨⟩⟩, between⟩
    · simp [consumed] at done
    · simp only [consumed] at done
      obtain ⟨eth, rfl⟩ := one.charged meter between consumed
      obtain ⟨otherEth, rfl⟩ := two.charged _ after done
      refine ⟨List.forall_mem_append.mpr ⟨eth, otherEth⟩, ?_⟩
      rw [GasMeter.charge_charge, List.length_append, mul_add]
  succeeds meter all room := by
    -- The room for all the leaves is shared out between the two.
    obtain ⟨eth, otherEth⟩ := List.forall_mem_append.mp all
    rw [List.length_append, mul_add] at room ⊢
    obtain ⟨firstRoom, secondRoom⟩ := room.split
    rw [one.succeeds meter eth firstRoom]
    dsimp only
    rw [two.succeeds _ otherEth secondRoom, GasMeter.charge_charge]

end Charges

/-- The loop charges for the leaves below the keys that are left, if each key that signs does. -/
theorem consumeMultisignatureVerificationGas_charges {cost : ℕ} {pubKeys : List PubKey}
    {signatures : List SignatureData} (bits : List Bool) {i sigIndex : ℕ}
    (short : i + bits.length ≤ pubKeys.length)
    (enough : sigIndex + bits.count true ≤ signatures.length)
    (each : ∀ j pubkey data, bits[j]? = some true → pubKeys[i + j]? = some pubkey →
      signatures[sigIndex + (bits.take j).count true]? = some data →
      Charges (fun meter => sigVerificationGasConsumer cost meter pubkey data)
        (selectedLeaves pubkey data)) :
    Charges (fun meter => consumeMultisignatureVerificationGas cost meter signatures pubKeys i
        sigIndex bits)
      (selectedAmong (pubKeys.drop i) bits (signatures.drop sigIndex)) := by
  induction bits generalizing i sigIndex with
  | nil =>
    have none : selectedAmong (pubKeys.drop i) [] (signatures.drop sigIndex) = [] := by
      cases pubKeys.drop i <;> rfl
    simp only [none, consumeMultisignatureVerificationGas]
    exact .nothing
  | cons bit bits ih =>
    rw [List.length_cons] at short
    have inside : i < pubKeys.length := by omega
    rw [List.drop_eq_getElem_cons inside]
    cases bit with
    | false =>
      -- The key is passed over, and the signature is kept for the next one.
      simp only [consumeMultisignatureVerificationGas, selectedAmong]
      refine ih (by omega) (by simpa using enough) fun j pubkey data set key signature => ?_
      refine each (j + 1) pubkey data set ?_ ?_
      · rw [← key]
        congr 1
        omega
      · simpa using signature
    | true =>
      rw [List.count_cons_self] at enough
      have signed : sigIndex < signatures.length := by omega
      rw [List.drop_eq_getElem_cons signed, selectedAmong]
      simp only [consumeMultisignatureVerificationGas, dif_pos inside,
        List.getElem?_eq_getElem signed]
      refine Charges.andThen (each 0 _ _ rfl ?_ ?_) (ih (by omega) (by omega) ?_)
      · exact List.getElem?_eq_getElem inside
      · exact List.getElem?_eq_getElem signed
      · -- Later keys find their signatures one place further on.
        intro j pubkey data set key signature
        refine each (j + 1) pubkey data set ?_ ?_
        · rw [← key]
          congr 1
          omega
        · rw [← signature, List.take_succ_cons, List.count_cons_self]
          congr 1
          omega

/-- For a matching tree, the gas is that of the leaves which are selected. -/
theorem Matches.charges {pubkey : PubKey} {data : SignatureData} (matching : Matches pubkey data)
    (cost : ℕ) :
    Charges (fun meter => sigVerificationGasConsumer cost meter pubkey data)
      (selectedLeaves pubkey data) := by
  induction matching with
  | ethSecp256k1 =>
    unfold sigVerificationGasConsumer
    simp only [selectedLeaves]
    exact
      { inRange := fun meter text => GasMeter.consumeGas_ne_panic
        charged := fun meter after done => ⟨by simp [AllEth], GasMeter.consumeGas_ok done⟩
        succeeds := fun meter _ room => GasMeter.consumeGas_of_hasRoom room }
  | ed25519 =>
    unfold sigVerificationGasConsumer
    simp only [selectedLeaves]
    refine .refused (by simp) fun meter => ?_
    -- Either the meter panics, or the key is refused after it was paid for.
    rcases consumed : meter.consumeGas cost "ante verify: ed25519" with ⟨err | ⟨⟨⟩⟩, after⟩
    · refine ⟨err, rfl, fun kind => ?_⟩
      have same : (meter.consumeGas cost "ante verify: ed25519").1 = .error ⟨.panic, err.text⟩ := by
        rw [consumed, ← kind]
      exact GasMeter.consumeGas_ne_panic same
    · exact ⟨_, rfl, by simp⟩
  | other =>
    unfold sigVerificationGasConsumer
    simp only [selectedLeaves]
    exact .refused (by simp) fun meter => ⟨_, rfl, by simp⟩
  | multisig short enough each ih =>
    unfold sigVerificationGasConsumer
    simp only [selectedLeaves]
    refine consumeMultisignatureVerificationGas_charges _ (by simpa using short)
      (by simpa using enough) ?_
    simpa using ih

/--
Verifying a signature that matches its key never misses an index, and costs 21000 for each leaf.

It succeeds exactly when every selected leaf is an Ethereum key, if the meter has room for them.
-/
theorem multisig_gas_per_signing_leaf (sigVerifyCostED25519 : ℕ) {pubkey : PubKey}
    {data : SignatureData} (matching : Matches pubkey data) (meter : GasMeter) :
    (∀ text, (sigVerificationGasConsumer sigVerifyCostED25519 meter pubkey data).1 ≠
      .error ⟨.panic, text⟩) ∧
    (meter.HasRoom (21000 * (selectedLeaves pubkey data).length) →
      ((sigVerificationGasConsumer sigVerifyCostED25519 meter pubkey data).1 = .ok () ↔
        ∀ leaf ∈ selectedLeaves pubkey data, leaf = .ethSecp256k1)) ∧
    ((sigVerificationGasConsumer sigVerifyCostED25519 meter pubkey data).1 = .ok () →
      (sigVerificationGasConsumer sigVerifyCostED25519 meter pubkey data).2.consumed =
        meter.consumed + 21000 * (selectedLeaves pubkey data).length) := by
  -- All three parts are read off what the consumer charges for.
  have charges := matching.charges sigVerifyCostED25519
  have charged : (sigVerificationGasConsumer sigVerifyCostED25519 meter pubkey data).1 = .ok () →
      AllEth (selectedLeaves pubkey data) ∧
        (sigVerificationGasConsumer sigVerifyCostED25519 meter pubkey data).2 =
          meter.charge (21000 * (selectedLeaves pubkey data).length) :=
    fun done => charges.charged meter _ (Prod.ext done rfl)
  refine ⟨charges.inRange meter, fun room => ⟨fun done => (charged done).1, fun all => ?_⟩,
    fun done => ?_⟩
  · rw [charges.succeeds meter all room]
  · rw [(charged done).2]
    rfl

/-- An Ethereum key, and a multisignature key of a validator key and another Ethereum key. -/
def nestedKey : PubKey := .multisig [.ethSecp256k1, .multisig [.ed25519, .ethSecp256k1]]

/-- Signatures of both, where the validator key does not sign. -/
def nestedSignature : SignatureData := .multi [true, true] [.single, .multi [false, true] [.single]]

/-- The nested signature matches, and costs as much as the two Ethereum keys that sign. -/
theorem nested_signature_costs_two_leaves :
    Matches nestedKey nestedSignature ∧
    (sigVerificationGasConsumer 590 ⟨some 50000, 7⟩ nestedKey nestedSignature).1 = .ok () ∧
    (sigVerificationGasConsumer 590 ⟨some 50000, 7⟩ nestedKey nestedSignature).2.consumed =
      42007 := by
  have inner : Matches (.multisig [.ed25519, .ethSecp256k1]) (.multi [false, true] [.single]) := by
    refine .multisig (by decide) (by decide) fun i pubkey data set key _ => ?_
    match i with
    -- The ed25519 key does not sign, so it asks for nothing.
    | 0 => cases set
    | 1 =>
      obtain rfl := Option.some.inj key
      exact .ethSecp256k1
    | i + 2 => cases set
  have matching : Matches nestedKey nestedSignature := by
    refine .multisig (by decide) (by decide) fun i pubkey data set key signature => ?_
    match i with
    | 0 =>
      obtain rfl := Option.some.inj key
      exact .ethSecp256k1
    | 1 =>
      obtain rfl := Option.some.inj key
      obtain rfl := Option.some.inj signature
      exact inner
    | i + 2 => cases set
  have leaves : selectedLeaves nestedKey nestedSignature = [.ethSecp256k1, .ethSecp256k1] := rfl
  obtain ⟨-, succeeds, consumes⟩ := multisig_gas_per_signing_leaf 590 matching ⟨some 50000, 7⟩
  rw [leaves] at succeeds consumes
  have done := (succeeds ⟨by decide, by rintro limit ⟨⟩; decide⟩).mpr (by simp)
  exact ⟨matching, done, consumes done⟩

end Evmos.App
