import Evmos.Sdk.Types

/-! The gas that verifying a signature costs, over trees of multisignature keys. -/

namespace Evmos.App

/-- `GasMeter`, with its limit unless it is an infinite one. -/
structure GasMeter where
  limit : Option ℕ
  consumed : ℕ
  deriving DecidableEq

/-- `ConsumeGas`, whose panics are errors of their own kinds. -/
def GasMeter.consumeGas (meter : GasMeter) (amount : ℕ) (descriptor : String) :
    Result Unit × GasMeter :=
  if 2 ^ 64 ≤ meter.consumed + amount then
    (.error ⟨.errorGasOverflow, descriptor⟩, { meter with consumed := 2 ^ 64 - 1 })
  else
    let meter := { meter with consumed := meter.consumed + amount }
    if meter.limit.any (· < meter.consumed) then (.error ⟨.errorOutOfGas, descriptor⟩, meter)
    else (.ok (), meter)

/-- A public key, as far as its type matters. -/
inductive PubKey where
  | ethSecp256k1
  | ed25519
  | multisig (pubKeys : List PubKey)
  /-- A key of another type, which errors name. -/
  | other (type : String)

/-- `SignatureData`, as far as the gas depends on it. -/
inductive SignatureData where
  | absent
  | single
  | multi (bitArray : List Bool) (signatures : List SignatureData)

/-- The type of signature data, as errors name it. -/
def SignatureData.type : SignatureData → String
  | absent => "<nil>"
  | single => "*signing.SingleSignatureData"
  | multi _ _ => "*signing.MultiSignatureData"

/-- `secp256k1VerifyCost`. -/
def secp256k1VerifyCost : ℕ := 21000

/-- The panic of an index that is not below the length. -/
def indexOutOfRange (position length : ℕ) : Err :=
  ⟨.panic, "runtime error: index out of range [" ++ toString position ++ "] with length " ++
    toString length⟩

mutual

/-- `SigVerificationGasConsumer`, with the parameter for the cost of ed25519. -/
def sigVerificationGasConsumer (sigVerifyCostED25519 : ℕ) (meter : GasMeter) (pubkey : PubKey)
    (data : SignatureData) : Result Unit × GasMeter :=
  match pubkey with
  | .ethSecp256k1 => meter.consumeGas secp256k1VerifyCost "ante verify: eth_secp256k1"
  | .ed25519 =>
    match meter.consumeGas sigVerifyCostED25519 "ante verify: ed25519" with
    | (.error err, meter) => (.error err, meter)
    | (.ok (), meter) =>
      (.error ⟨.errInvalidPubKey, "ED25519 public keys are unsupported"⟩, meter)
  | .multisig pubKeys =>
    match data with
    | .multi bitArray signatures =>
      consumeMultisignatureVerificationGas sigVerifyCostED25519 meter signatures pubKeys 0 0 bitArray
    | data =>
      (.error ⟨.external, "expected *signing.MultiSignatureData, got, " ++ data.type⟩, meter)
  | .other type =>
    (.error ⟨.errInvalidPubKey, "unrecognized/unsupported public key type: " ++ type⟩, meter)
termination_by (sizeOf pubkey, 0)

/--
The loop of `ConsumeMultisignatureVerificationGas` over the bits that are left.

It stands at position `i` of the bits and keys, and at position `sigIndex` of the signatures.
-/
def consumeMultisignatureVerificationGas (sigVerifyCostED25519 : ℕ) (meter : GasMeter)
    (signatures : List SignatureData) (pubKeys : List PubKey) (i sigIndex : ℕ) :
    List Bool → Result Unit × GasMeter
  | [] => (.ok (), meter)
  | false :: bits =>
    consumeMultisignatureVerificationGas sigVerifyCostED25519 meter signatures pubKeys (i + 1)
      sigIndex bits
  | true :: bits =>
    if inside : i < pubKeys.length then
      match signatures[sigIndex]? with
      | none => (.error (indexOutOfRange sigIndex signatures.length), meter)
      | some data =>
        match sigVerificationGasConsumer sigVerifyCostED25519 meter (pubKeys.get ⟨i, inside⟩)
          data with
        | (.error err, meter) => (.error err, meter)
        | (.ok (), meter) =>
          consumeMultisignatureVerificationGas sigVerifyCostED25519 meter signatures pubKeys (i + 1)
            (sigIndex + 1) bits
    else (.error (indexOutOfRange i pubKeys.length), meter)
termination_by bits => (sizeOf pubKeys, bits.length)
decreasing_by
  · exact Prod.Lex.right _ (by simp)
  · exact Prod.Lex.left _ _ (List.sizeOf_lt_of_mem (List.get_mem _ _))
  · exact Prod.Lex.right _ (by simp)

end

end Evmos.App
