import Evmos.Proto.Records

/-! The stored records read back as they were written. -/

namespace Evmos.Proto

open Library
open Library.Wire (Codec encodeAll)

section Numbers

@[simp] theorem ofInt64Bits_int64Bits (value : Int64) : ofInt64Bits (int64Bits value) = value := by
  -- Both conversions keep the sixty-four bits.
  simp [ofInt64Bits, int64Bits]

@[simp] theorem ofInt32Bits_int32Bits (value : Int32) : ofInt32Bits (int32Bits value) = value := by
  -- Losing the extension of the sign leaves the bits that there were before it.
  have bits : BitVec.setWidth 32 (BitVec.signExtend 64 value.toBitVec) = value.toBitVec := by
    ext position inside
    have wide : position < 64 := by omega
    rw [BitVec.getElem_setWidth, BitVec.getLsbD_signExtend]
    simp [inside, wide, BitVec.getLsbD_eq_getElem]
  apply Int32.toBitVec_inj.mp
  simpa [ofInt32Bits, int32Bits] using bits

theorem int64Bits_lt (value : Int64) : int64Bits value < 2 ^ 64 := UInt64.toNat_lt _

theorem int32Bits_lt (value : Int32) : int32Bits value < 2 ^ 64 := UInt64.toNat_lt _

theorem eq_zero_of_int64Bits {value : Int64} (none : int64Bits value = 0) : value = 0 := by
  -- Only zero has no bits, so a number that is not written is zero.
  rw [← ofInt64Bits_int64Bits value, none]
  rfl

theorem eq_zero_of_int32Bits {value : Int32} (none : int32Bits value = 0) : value = 0 := by
  -- The extension of the sign is undone, so the bits were those of zero.
  rw [← ofInt32Bits_int32Bits value, none]
  rfl

theorem unmarshalNumber_marshalNumber (big : BigText) {maxBits : ℕ} {value : ℤ}
    (range : value.natAbs < 2 ^ maxBits) :
    unmarshalNumber big maxBits (marshalNumber big (some value)) = .ok value := by
  rw [marshalNumber, Option.getD_some, unmarshalNumber, big.unmarshalText_marshalText]
  -- The limit is checked after the text is read.
  exact if_neg (not_le.mpr range)

end Numbers

section Kinds

variable {σ α : Type} {message : Wire.Message σ} (numbered : message.Numbered) {m after : σ}
  {name : String} {number : ℕ}

include numbered

theorem reads_text {content : Text} {keep : Text → σ → σ}
    (known : message.field? number = some (text name number keep)) (stored : keep content m = after)
    (unchanged : content = [] → after = m) :
    message.Reads (Wire.optionalBytes number content) m after :=
  .optionalBytes numbered known (congrArg Except.ok stored) unchanged

/-- A value with an encoding of its own is stored if it reads back. -/
theorem reads_custom {content : List Wire.Byte} {value : α}
    {unmarshal : List Wire.Byte → Except Wire.Error α} {keep : α → σ → σ}
    (known : message.field? number = some (custom name number unmarshal keep))
    (back : unmarshal content = .ok value) (stored : keep value m = after) :
    message.Reads [.bytes number content] m after := by
  refine .single (numbered.of_known known) known rfl ?_
  -- The field stores whatever its own reader returns.
  change (unmarshal content).map (keep · m) = _
  rw [back]
  exact congrArg Except.ok stored

theorem reads_bool {value : Bool} {keep : ℕ → σ → σ}
    (known : message.field? number = some (varint name number keep))
    (stored : keep value.toNat m = after) (unchanged : value = false → after = m) :
    message.Reads (Wire.optionalVarint number value.toNat) m after := by
  refine .optionalVarint numbered known ?_ stored ?_
  · cases value <;> decide
  · -- Zero stands for false alone, the value that is not written.
    intro zero
    cases value with
    | false => exact unchanged rfl
    | true => cases zero

theorem reads_int64 {value : Int64} {keep : ℕ → σ → σ}
    (known : message.field? number = some (varint name number keep))
    (stored : keep (int64Bits value) m = after) (unchanged : value = 0 → after = m) :
    message.Reads (Wire.optionalVarint number (int64Bits value)) m after :=
  .optionalVarint numbered known (int64Bits_lt value) stored fun none =>
    unchanged (eq_zero_of_int64Bits none)

theorem reads_int32 {value : Int32} {keep : ℕ → σ → σ}
    (known : message.field? number = some (varint name number keep))
    (stored : keep (int32Bits value) m = after) (unchanged : value = 0 → after = m) :
    message.Reads (Wire.optionalVarint number (int32Bits value)) m after :=
  .optionalVarint numbered known (int32Bits_lt value) stored fun none =>
    unchanged (eq_zero_of_int32Bits none)

theorem reads_numberText {big : BigText} {maxBits : ℕ} {value : ℤ} {keep : ℤ → σ → σ}
    (known : message.field? number = some (numberText big name number maxBits keep))
    (range : value.natAbs < 2 ^ maxBits) (stored : keep value m = after) :
    message.Reads [.bytes number (marshalNumber big (some value))] m after := by
  refine .single (numbered.of_known known) known rfl ?_
  change (if marshalNumber big (some value) = [] then Except.ok m
    else (unmarshalNumber big maxBits (marshalNumber big (some value))).map (keep · m)) = _
  -- The text of a number has a digit, so the field is not skipped as empty.
  have present : marshalNumber big (some value) ≠ [] := big.marshalText_ne_nil _
  rw [if_neg present, unmarshalNumber_marshalNumber big range]
  exact congrArg Except.ok stored

end Kinds

section Time

theorem secondsCodec_restores (name : String) (m : Seconds) : (secondsCodec name).Restores m := by
  obtain ⟨seconds, nanos⟩ := m
  have numbered : (secondsCodec name).message.Numbered := by
    simp [Wire.Message.Numbered, secondsCodec, varint]
  -- Each field is read into the value that the fields before it have left.
  have first : (secondsCodec name).message.Reads (Wire.optionalVarint 1 (int64Bits seconds))
      ⟨0, 0⟩ ⟨seconds, 0⟩ :=
    reads_int64 numbered rfl (by rw [ofInt64Bits_int64Bits]) fun none => by rw [none]
  have second : (secondsCodec name).message.Reads (Wire.optionalVarint 2 (int32Bits nanos))
      ⟨seconds, 0⟩ ⟨seconds, nanos⟩ :=
    reads_int32 numbered rfl (by rw [ofInt32Bits_int32Bits]) fun none => by rw [none]
  exact first.append second

/-- What was written of seconds and nanoseconds, in a few bytes only, is read as them. -/
theorem secondsCodec_unmarshal (name : String) (m : Seconds) :
    (secondsCodec name).unmarshal (encodeAll ((secondsCodec name).entries m)) = .ok m := by
  have seconds : Wire.sizeAll (Wire.optionalVarint 1 (int64Bits m.seconds)) ≤ 11 :=
    Wire.sizeAll_optionalVarint (int64Bits_lt m.seconds)
  have nanos : Wire.sizeAll (Wire.optionalVarint 2 (int32Bits m.nanos)) ≤ 11 :=
    Wire.sizeAll_optionalVarint (int32Bits_lt m.nanos)
  -- Two numbers of at most ten bytes and their tags are far below the limit.
  apply (secondsCodec_restores name m).unmarshal_own
  change Wire.sizeAll (Wire.optionalVarint 1 _ ++ Wire.optionalVarint 2 _) < 2 ^ 63
  rw [Wire.sizeAll_append]
  omega

theorem stdTimeUnmarshal_stdTimeMarshal (time : Instant) :
    stdTimeUnmarshal (stdTimeMarshal time) = .ok time := by
  rw [stdTimeUnmarshal, stdTimeMarshal, secondsCodec_unmarshal]
  -- An instant is within the range that the reader checks.
  exact dif_pos time.property

/-- Division towards zero leaves a rest of the same sign. -/
private theorem tdiv_add_tmod (duration : ℤ) :
    1000000000 * duration.tdiv 1000000000 + duration.tmod 1000000000 = duration ∧
      -1000000000 < duration.tmod 1000000000 ∧ duration.tmod 1000000000 < 1000000000 ∧
      ¬(duration.tdiv 1000000000 < 0 ∧ 0 < duration.tmod 1000000000) ∧
      ¬(0 < duration.tdiv 1000000000 ∧ duration.tmod 1000000000 < 0) := by
  rcases le_total 0 duration with positive | negative
  · rw [Int.tdiv_eq_ediv_of_nonneg positive, Int.tmod_eq_emod_of_nonneg positive]
    omega
  · -- A negative duration is divided as the positive one.
    obtain ⟨opposite, rfl⟩ : ∃ opposite, duration = -opposite := ⟨-duration, by omega⟩
    rw [Int.neg_tdiv, Int.neg_tmod, Int.tdiv_eq_ediv_of_nonneg (by omega),
      Int.tmod_eq_emod_of_nonneg (by omega)]
    omega

theorem durationFromProto_durationProto (duration : Int64) :
    durationFromProto (durationProto duration) = .ok duration := by
  have low := Int64.le_toInt duration
  have high := Int64.toInt_lt duration
  obtain ⟨parts, least, most, noneUp, noneDown⟩ := tdiv_add_tmod duration.toInt
  have seconds : (Int64.ofInt (duration.toInt.tdiv 1000000000)).toInt =
      duration.toInt.tdiv 1000000000 := by
    apply Int64.toInt_ofInt_of_le <;> omega
  have nanos : (Int32.ofInt (duration.toInt.tmod 1000000000)).toInt =
      duration.toInt.tmod 1000000000 := by
    apply Int32.toInt_ofInt_of_le <;> omega
  -- Neither half is out of range, and together they are the duration again.
  simp only [durationFromProto, durationProto, seconds, nanos]
  rw [if_neg (by omega), if_neg (by omega)]
  congr 1
  rw [show duration.toInt.tdiv 1000000000 * 1000000000 + duration.toInt.tmod 1000000000 =
    duration.toInt by omega]
  exact Int64.ofInt_toInt duration

theorem stdDurationUnmarshal_stdDurationMarshal (duration : Int64) :
    stdDurationUnmarshal (stdDurationMarshal duration) = .ok duration := by
  -- Seconds and nanoseconds come back first, and the duration from them.
  rw [stdDurationUnmarshal, stdDurationMarshal, secondsCodec_unmarshal]
  exact durationFromProto_durationProto duration

end Time

section Records

variable {big : BigText}

/-- A number that is present and within its limit. -/
def WithinLimit (maxBits : ℕ) (number : Option ℤ) : Prop :=
  ∃ value, number = some value ∧ value.natAbs < 2 ^ maxBits

theorem feeSplitCodec_restores (m : FeeSplit) : feeSplitCodec.Restores m := by
  obtain ⟨contract, deployer, withdrawer⟩ := m
  have numbered : feeSplitCodec.message.Numbered := by
    simp [Wire.Message.Numbered, feeSplitCodec, text]
  -- The fields are read in their order, each beside those that are still empty.
  have first : feeSplitCodec.message.Reads (Wire.optionalBytes 1 contract) ⟨[], [], []⟩
      ⟨contract, [], []⟩ :=
    reads_text numbered rfl rfl fun empty => by rw [empty]
  have second : feeSplitCodec.message.Reads (Wire.optionalBytes 2 deployer) ⟨contract, [], []⟩
      ⟨contract, deployer, []⟩ :=
    reads_text numbered rfl rfl fun empty => by rw [empty]
  have third : feeSplitCodec.message.Reads (Wire.optionalBytes 3 withdrawer)
      ⟨contract, deployer, []⟩ ⟨contract, deployer, withdrawer⟩ :=
    reads_text numbered rfl rfl fun empty => by rw [empty]
  exact (first.append second).append third

theorem tokenPairCodec_restores (m : TokenPair) : tokenPairCodec.Restores m := by
  obtain ⟨erc20Address, denom, enabled, owner⟩ := m
  have numbered : tokenPairCodec.message.Numbered := by
    simp [Wire.Message.Numbered, tokenPairCodec, text, varint]
  -- An absent switch is false, and an absent owner is the unspecified one.
  have first : tokenPairCodec.message.Reads (Wire.optionalBytes 1 erc20Address) ⟨[], [], false, 0⟩
      ⟨erc20Address, [], false, 0⟩ :=
    reads_text numbered rfl rfl fun empty => by rw [empty]
  have second : tokenPairCodec.message.Reads (Wire.optionalBytes 2 denom)
      ⟨erc20Address, [], false, 0⟩ ⟨erc20Address, denom, false, 0⟩ :=
    reads_text numbered rfl rfl fun empty => by rw [empty]
  have third : tokenPairCodec.message.Reads (Wire.optionalVarint 3 enabled.toNat)
      ⟨erc20Address, denom, false, 0⟩ ⟨erc20Address, denom, enabled, 0⟩ :=
    reads_bool numbered rfl (by cases enabled <;> rfl) fun unset => by rw [unset]
  have fourth : tokenPairCodec.message.Reads (Wire.optionalVarint 4 (int32Bits owner))
      ⟨erc20Address, denom, enabled, 0⟩ ⟨erc20Address, denom, enabled, owner⟩ :=
    reads_int32 numbered rfl (by rw [ofInt32Bits_int32Bits]) fun none => by rw [none]
  exact ((first.append second).append third).append fourth

theorem epochInfoCodec_restores (m : EpochInfo) : epochInfoCodec.Restores m := by
  obtain ⟨identifier, start, duration, epoch, epochStart, started, height⟩ := m
  have numbered : epochInfoCodec.message.Numbered := by
    simp [Wire.Message.Numbered, epochInfoCodec, text, custom, varint]
  -- Times and the duration are always written, and the rest unless it is zero.
  have first : epochInfoCodec.message.Reads (Wire.optionalBytes 1 identifier)
      ⟨[], zeroInstant, 0, 0, zeroInstant, false, 0⟩
      ⟨identifier, zeroInstant, 0, 0, zeroInstant, false, 0⟩ :=
    reads_text numbered rfl rfl fun empty => by rw [empty]
  have second : epochInfoCodec.message.Reads [.bytes 2 (stdTimeMarshal start)]
      ⟨identifier, zeroInstant, 0, 0, zeroInstant, false, 0⟩
      ⟨identifier, start, 0, 0, zeroInstant, false, 0⟩ :=
    reads_custom numbered rfl (stdTimeUnmarshal_stdTimeMarshal start) rfl
  have third : epochInfoCodec.message.Reads [.bytes 3 (stdDurationMarshal duration)]
      ⟨identifier, start, 0, 0, zeroInstant, false, 0⟩
      ⟨identifier, start, duration, 0, zeroInstant, false, 0⟩ :=
    reads_custom numbered rfl (stdDurationUnmarshal_stdDurationMarshal duration) rfl
  have fourth : epochInfoCodec.message.Reads (Wire.optionalVarint 4 (int64Bits epoch))
      ⟨identifier, start, duration, 0, zeroInstant, false, 0⟩
      ⟨identifier, start, duration, epoch, zeroInstant, false, 0⟩ :=
    reads_int64 numbered rfl (by rw [ofInt64Bits_int64Bits]) fun none => by rw [none]
  have fifth : epochInfoCodec.message.Reads [.bytes 5 (stdTimeMarshal epochStart)]
      ⟨identifier, start, duration, epoch, zeroInstant, false, 0⟩
      ⟨identifier, start, duration, epoch, epochStart, false, 0⟩ :=
    reads_custom numbered rfl (stdTimeUnmarshal_stdTimeMarshal epochStart) rfl
  have sixth : epochInfoCodec.message.Reads (Wire.optionalVarint 6 started.toNat)
      ⟨identifier, start, duration, epoch, epochStart, false, 0⟩
      ⟨identifier, start, duration, epoch, epochStart, started, 0⟩ :=
    reads_bool numbered rfl (by cases started <;> rfl) fun unset => by rw [unset]
  have seventh : epochInfoCodec.message.Reads (Wire.optionalVarint 7 (int64Bits height))
      ⟨identifier, start, duration, epoch, epochStart, started, 0⟩
      ⟨identifier, start, duration, epoch, epochStart, started, height⟩ :=
    reads_int64 numbered rfl (by rw [ofInt64Bits_int64Bits]) fun none => by rw [none]
  exact (((((first.append second).append third).append fourth).append fifth).append sixth).append
    seventh

private theorem foldl_actionsCompleted (amount : Option ℤ) (flags before : List Bool) :
    flags.foldl (fun (m : ClaimsRecord) value =>
        { m with actionsCompleted := m.actionsCompleted ++ [decide ((Wire.flag value).val ≠ 0)] })
      ⟨amount, before⟩ = ⟨amount, before ++ flags⟩ := by
  induction flags generalizing before with
  | nil => rw [List.foldl_nil, List.append_nil]
  | cons value flags ih =>
    -- A flag is read as a number, and every number but zero is true.
    have same : decide ((Wire.flag value).val ≠ 0) = value := by cases value <;> rfl
    rw [List.foldl_cons, same, ih, List.append_assoc, List.singleton_append]

theorem claimsRecordCodec_restores {m : ClaimsRecord}
    (within : WithinLimit big.maxBitLen m.initialClaimableAmount) :
    (claimsRecordCodec big).Restores m := by
  obtain ⟨amount, flags⟩ := m
  obtain ⟨value, rfl, range⟩ := within
  have numbered : (claimsRecordCodec big).message.Numbered := by
    simp [Wire.Message.Numbered, claimsRecordCodec, numberText]
  have first : (claimsRecordCodec big).message.Reads [.bytes 1 (marshalNumber big (some value))]
      ⟨none, []⟩ ⟨some value, []⟩ := reads_numberText numbered rfl range rfl
  -- Without flags the packed field is not written at all.
  have second : (claimsRecordCodec big).message.Reads
      (if flags = [] then [] else [.bools 2 flags]) ⟨some value, []⟩ ⟨some value, flags⟩ := by
    split_ifs with empty
    · rw [empty]
      exact .nil
    · refine .single ⟨by decide, by decide⟩ rfl rfl ?_
      exact congrArg Except.ok (foldl_actionsCompleted (some value) flags [])
  exact first.append second

theorem decCoinCodec_restores {m : DecCoin} (within : WithinLimit big.maxDecBitLen m.amount) :
    (decCoinCodec big).Restores m := by
  obtain ⟨denom, amount⟩ := m
  obtain ⟨value, rfl, range⟩ := within
  have numbered : (decCoinCodec big).message.Numbered := by
    simp [Wire.Message.Numbered, decCoinCodec, text, numberText]
  -- The amount has a text even if it is zero, so it is always written.
  have first : (decCoinCodec big).message.Reads (Wire.optionalBytes 1 denom) ⟨[], none⟩
      ⟨denom, none⟩ := reads_text numbered rfl rfl fun empty => by rw [empty]
  have second : (decCoinCodec big).message.Reads [.bytes 2 (marshalNumber big (some value))]
      ⟨denom, none⟩ ⟨denom, some value⟩ := reads_numberText numbered rfl range rfl
  exact first.append second

private theorem reads_allocations {coins : List DecCoin}
    (within : ∀ coin ∈ coins, WithinLimit big.maxDecBitLen coin.amount)
    (short : ∀ coin ∈ coins, (decCoinCodec big).size coin < 2 ^ 63) (m : Incentive) :
    (incentiveCodec big).message.Reads
      (coins.map fun coin => .message 2 ((decCoinCodec big).entries coin)) m
      { m with allocations := m.allocations ++ coins } := by
  induction coins generalizing m with
  | nil =>
    rw [List.append_nil]
    exact .nil
  | cons coin coins ih =>
    -- Each allocation is a message of its own, read from its own bytes.
    have restores := decCoinCodec_restores (within coin List.mem_cons_self)
    have back := restores.unmarshal_own (short coin List.mem_cons_self)
    have first : (incentiveCodec big).message.Reads [.message 2 ((decCoinCodec big).entries coin)] m
        { m with allocations := m.allocations ++ [coin] } := by
      refine .single ⟨by decide, by decide, restores.shaped⟩ rfl rfl ?_
      change ((decCoinCodec big).unmarshal _).map _ = _
      rw [back]
      rfl
    have others := ih (fun other member => within other (List.mem_cons_of_mem _ member))
      (fun other member => short other (List.mem_cons_of_mem _ member))
      { m with allocations := m.allocations ++ [coin] }
    simpa using first.append others

theorem incentiveCodec_restores {m : Incentive}
    (within : ∀ coin ∈ m.allocations, WithinLimit big.maxDecBitLen coin.amount)
    (short : (incentiveCodec big).size m < 2 ^ 63) : (incentiveCodec big).Restores m := by
  -- An allocation is not larger than the incentive.
  have coinShort : ∀ coin ∈ m.allocations, (decCoinCodec big).size coin < 2 ^ 63 := by
    intro coin member
    have inside : Wire.Entry.message 2 ((decCoinCodec big).entries coin) ∈
        (incentiveCodec big).entries m := by
      simp only [incentiveCodec, List.mem_append, List.mem_map]
      exact .inl (.inl (.inl (.inr ⟨coin, member, rfl⟩)))
    have bound := Wire.size_le_sizeAll inside
    rw [Wire.Entry.size, Wire.delimitedSize] at bound
    rw [Codec.size] at short ⊢
    omega
  obtain ⟨contract, allocations, epochs, start, totalGas⟩ := m
  have numbered : (incentiveCodec big).message.Numbered := by
    simp [Wire.Message.Numbered, incentiveCodec, text, custom, varint]
  have first : (incentiveCodec big).message.Reads (Wire.optionalBytes 1 contract)
      ⟨[], [], 0, zeroInstant, 0⟩ ⟨contract, [], 0, zeroInstant, 0⟩ :=
    reads_text numbered rfl rfl fun empty => by rw [empty]
  have second := reads_allocations within coinShort ⟨contract, [], 0, zeroInstant, 0⟩
  have third : (incentiveCodec big).message.Reads (Wire.optionalVarint 3 epochs.toNat)
      ⟨contract, allocations, 0, zeroInstant, 0⟩
      ⟨contract, allocations, epochs, zeroInstant, 0⟩ := by
    refine .optionalVarint numbered rfl ?_ ?_ ?_
    · exact epochs.toNat_lt.trans (by decide)
    · rw [UInt32.ofNat_toNat]
    · intro none
      rw [← UInt32.ofNat_toNat (x := epochs), none]
      rfl
  have fourth : (incentiveCodec big).message.Reads [.bytes 4 (stdTimeMarshal start)]
      ⟨contract, allocations, epochs, zeroInstant, 0⟩ ⟨contract, allocations, epochs, start, 0⟩ :=
    reads_custom numbered rfl (stdTimeUnmarshal_stdTimeMarshal start) rfl
  have fifth : (incentiveCodec big).message.Reads (Wire.optionalVarint 5 totalGas.toNat)
      ⟨contract, allocations, epochs, start, 0⟩
      ⟨contract, allocations, epochs, start, totalGas⟩ := by
    refine .optionalVarint numbered rfl totalGas.toNat_lt ?_ ?_
    · rw [UInt64.ofNat_toNat]
    · intro none
      rw [← UInt64.ofNat_toNat (x := totalGas), none]
      rfl
  exact (((first.append second).append third).append fourth).append fifth

end Records

/-- A value is written within its buffer in the computed size, and is read back. -/
structure RoundTrips {σ : Type} (codec : Codec σ) (m : σ) : Prop where
  written : ∃ dAtA, codec.marshal m = some dAtA ∧ dAtA.length = codec.size m ∧
    codec.unmarshal dAtA = .ok m
  -- Fields that a later version has added are skipped, wherever they stand.
  extended : ∀ entries, Wire.ValidAll entries →
    (entries.filter fun entry => (codec.message.field? entry.number).isSome) = codec.entries m →
      (encodeAll entries).length < 2 ^ 63 → codec.unmarshal (encodeAll entries) = .ok m

/-- What is restored field by field makes the round trip. -/
theorem roundTrips_of_restores {σ : Type} {codec : Codec σ} {m : σ} (restores : codec.Restores m)
    (short : codec.size m < 2 ^ 63) : RoundTrips codec m where
  written := by
    -- The writer never leaves its buffer, since the size was computed with the fields.
    obtain ⟨written, exact⟩ := restores.marshal short
    exact ⟨_, written, exact, restores.unmarshal_own short⟩
  extended entries valid own bound := restores.unmarshal valid own bound

/--
The stored records make the round trip through their encoding.

Writing backwards into a buffer of the size that is computed before never leaves the buffer and
fills it, and reading the bytes gives the record back. So it does with unknown fields in between,
which have a number below sixteen and hold a number or content with its length.
-/
theorem records_round_trip (big : BigText) :
    (∀ m, feeSplitCodec.size m < 2 ^ 63 → RoundTrips feeSplitCodec m) ∧
    (∀ m, tokenPairCodec.size m < 2 ^ 63 → RoundTrips tokenPairCodec m) ∧
    (∀ m, epochInfoCodec.size m < 2 ^ 63 → RoundTrips epochInfoCodec m) ∧
    (∀ m, WithinLimit big.maxBitLen m.initialClaimableAmount →
      (claimsRecordCodec big).size m < 2 ^ 63 → RoundTrips (claimsRecordCodec big) m) ∧
    (∀ m : Incentive, (∀ coin ∈ m.allocations, WithinLimit big.maxDecBitLen coin.amount) →
      (incentiveCodec big).size m < 2 ^ 63 → RoundTrips (incentiveCodec big) m) := by
  -- Each record is restored field by field.
  refine ⟨?_, ?_, ?_, ?_, ?_⟩
  · exact fun m short => roundTrips_of_restores (feeSplitCodec_restores m) short
  · exact fun m short => roundTrips_of_restores (tokenPairCodec_restores m) short
  · exact fun m short => roundTrips_of_restores (epochInfoCodec_restores m) short
  · exact fun m within short => roundTrips_of_restores (claimsRecordCodec_restores within) short
  · exact fun m within short =>
      roundTrips_of_restores (incentiveCodec_restores within short) short

section Evaluation

/-- The digits of a number as characters, the highest first. -/
def digitBytes (value : ℕ) : List Wire.Byte :=
  if value = 0 then [Wire.byte 48]
  else ((Nat.digits 10 value).map fun digit => Wire.byte (48 + digit)).reverse

/-- The number that digits spell. -/
def ofDigitBytes (dAtA : List Wire.Byte) : ℕ :=
  Nat.ofDigits 10 (dAtA.reverse.map fun digit => digit.val - 48)

theorem ofDigitBytes_digitBytes (value : ℕ) : ofDigitBytes (digitBytes value) = value := by
  unfold digitBytes
  split_ifs with zero
  · rw [zero]
    rfl
  · -- A digit is written as its character, and read by taking that offset off.
    have same : ((Nat.digits 10 value).map fun digit => (Wire.byte (48 + digit)).val - 48) =
        Nat.digits 10 value := by
      conv_rhs => rw [← List.map_id (Nat.digits 10 value)]
      apply List.map_congr_left
      intro digit member
      have small : digit < 10 := Nat.digits_lt_base (by decide) member
      change (48 + digit) % 256 - 48 = digit
      omega
    rw [ofDigitBytes, List.reverse_reverse, List.map_map]
    exact (congrArg (Nat.ofDigits 10) same).trans (Nat.ofDigits_digits 10 value)

theorem digitBytes_eq_cons (value : ℕ) :
    ∃ first rest, digitBytes value = first :: rest ∧ first ≠ Wire.byte 45 := by
  -- The characters of digits come after the sign.
  have digit {byte : Wire.Byte} (member : byte ∈ digitBytes value) : byte ≠ Wire.byte 45 := by
    rintro rfl
    unfold digitBytes at member
    split_ifs at member with zero
    · exact absurd (List.mem_singleton.mp member) (by decide)
    · obtain ⟨other, digits, same⟩ := List.mem_map.mp (List.mem_reverse.mp member)
      have small : other < 10 := Nat.digits_lt_base (by decide) digits
      have equal : (48 + other) % 256 = 45 % 256 := congrArg Fin.val same
      omega
  have nonempty : digitBytes value ≠ [] := by
    unfold digitBytes
    split_ifs with zero
    · exact List.cons_ne_nil _ _
    · simpa [Nat.digits_eq_nil_iff_eq_zero] using zero
  obtain ⟨first, rest, shape⟩ := List.exists_cons_of_ne_nil nonempty
  exact ⟨first, rest, shape, digit (by rw [shape]; exact List.mem_cons_self)⟩

/-- Decimal texts. -/
def decimalText (value : ℤ) : List Wire.Byte :=
  if value < 0 then Wire.byte 45 :: digitBytes value.natAbs else digitBytes value.natAbs

/-- The number of a decimal text. -/
def ofDecimalText : List Wire.Byte → Option ℤ
  | [] => none
  | first :: rest =>
    if first = Wire.byte 45 then some (-ofDigitBytes rest) else some (ofDigitBytes (first :: rest))

theorem decimalText_ne_nil (value : ℤ) : decimalText value ≠ [] := by
  obtain ⟨first, rest, shape, -⟩ := digitBytes_eq_cons value.natAbs
  unfold decimalText
  -- A sign or a digit comes first.
  split_ifs
  · exact List.cons_ne_nil _ _
  · rw [shape]
    exact List.cons_ne_nil _ _

theorem ofDecimalText_decimalText (value : ℤ) : ofDecimalText (decimalText value) = some value := by
  unfold decimalText
  -- Only a negative number begins with the sign.
  split_ifs with negative
  · rw [ofDecimalText, if_pos rfl, ofDigitBytes_digitBytes]
    exact congrArg some (by omega)
  · obtain ⟨first, rest, shape, unsigned⟩ := digitBytes_eq_cons value.natAbs
    rw [shape, ofDecimalText, if_neg unsigned, ← shape, ofDigitBytes_digitBytes]
    exact congrArg some (by omega)

/-- Numbers with decimal texts. -/
def decimal : BigText where
  marshalText := decimalText
  unmarshalText := ofDecimalText
  marshalText_ne_nil := decimalText_ne_nil
  unmarshalText_marshalText := ofDecimalText_decimalText
  maxBitLen := 256
  maxDecBitLen := 316

/-- The daily epoch before it starts, whose identifier is `day`. -/
def dayEpoch : EpochInfo :=
  ⟨[Wire.byte 100, Wire.byte 97, Wire.byte 121], zeroInstant, 86400000000000, 0, zeroInstant,
    false, 0⟩

/-- The daily epoch is written in thirty-seven bytes, and read back. -/
theorem dayEpoch_round_trips :
    epochInfoCodec.size dayEpoch = 37 ∧ RoundTrips epochInfoCodec dayEpoch :=
  ⟨by decide, (records_round_trip decimal).2.2.1 dayEpoch (by decide)⟩

/-- A pair with its bytes: the fields in their order, an owner of one, and no default values. -/
example : tokenPairCodec.marshal ⟨[Wire.byte 48], [], true, 1⟩ =
    some [Wire.byte 10, Wire.byte 1, Wire.byte 48, Wire.byte 24, Wire.byte 1, Wire.byte 32,
      Wire.byte 1] := by decide

end Evaluation

end Evmos.Proto
