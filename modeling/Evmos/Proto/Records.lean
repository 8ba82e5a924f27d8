import Evmos.Library.WireReader

/-! The records that the modules store, as the generated code writes and reads them. -/

namespace Evmos.Proto

open Library
open Library.Wire (Codec optionalVarint optionalBytes encodeAll)

/-- The bytes of a Go string. -/
abbrev Text := List Wire.Byte

section Kinds

variable {σ α : Type}

/-- A string, of which the last one counts. -/
def text (name : String) (number : ℕ) (keep : Text → σ → σ) : Wire.Field σ :=
  ⟨name, number, .delimited fun content m => .ok (keep content m)⟩

/-- A number, of which the last one counts. -/
def varint (name : String) (number : ℕ) (keep : ℕ → σ → σ) : Wire.Field σ :=
  ⟨name, number, .varint keep⟩

/-- A value with an encoding of its own. -/
def custom (name : String) (number : ℕ) (unmarshal : List Wire.Byte → Except Wire.Error α)
    (keep : α → σ → σ) : Wire.Field σ :=
  ⟨name, number, .delimited fun content m => (unmarshal content).map (keep · m)⟩

/-- `uint64(v)` of an `int64`. -/
def int64Bits (value : Int64) : ℕ := value.toUInt64.toNat

/-- The `int64` that the groups of a number add up to. -/
def ofInt64Bits (bits : ℕ) : Int64 := (UInt64.ofNat bits).toInt64

/-- `uint64(v)` of an `int32`, whose sign is extended. -/
def int32Bits (value : Int32) : ℕ := value.toInt64.toUInt64.toNat

/-- The `int32` that the groups of a number add up to; higher ones are lost. -/
def ofInt32Bits (bits : ℕ) : Int32 := (UInt64.ofNat bits).toUInt32.toInt32

end Kinds

section Time

/-- `Timestamp` and `Duration` of the protobuf library. -/
structure Seconds where
  seconds : Int64
  nanos : Int32
  deriving DecidableEq

/-- The encoding of `Timestamp` and of `Duration`. -/
def secondsCodec (name : String) : Codec Seconds where
  message := ⟨name,
    [varint "Seconds" 1 fun value m => { m with seconds := ofInt64Bits value },
      varint "Nanos" 2 fun value m => { m with nanos := ofInt32Bits value }]⟩
  zero := ⟨0, 0⟩
  entries m := optionalVarint 1 (int64Bits m.seconds) ++ optionalVarint 2 (int32Bits m.nanos)

/-- An instant from the year 1 to the year 9999, as `time.Time` keeps it. -/
def Seconds.IsInstant (time : Seconds) : Prop :=
  (-62135596800 : ℤ) ≤ time.seconds.toInt ∧ time.seconds.toInt < 253402300800 ∧
    0 ≤ time.nanos.toInt ∧ time.nanos.toInt < 1000000000

instance (time : Seconds) : Decidable time.IsInstant := instDecidableAnd

/-- `time.Time`, as far as it can be marshalled. -/
abbrev Instant := { time : Seconds // time.IsInstant }

/-- The zero value of `time.Time`, the first instant of the year one. -/
theorem zeroInstant_isInstant : Seconds.IsInstant ⟨-62135596800, 0⟩ := by decide

/-- `time.Time{}`. -/
def zeroInstant : Instant := ⟨⟨-62135596800, 0⟩, zeroInstant_isInstant⟩

/-- `StdTimeMarshalTo`. -/
def stdTimeMarshal (time : Instant) : List Wire.Byte :=
  encodeAll ((secondsCodec "Timestamp").entries time.val)

/-- `StdTimeUnmarshal`. -/
def stdTimeUnmarshal (dAtA : List Wire.Byte) : Except Wire.Error Instant := do
  let time ← (secondsCodec "Timestamp").unmarshal dAtA
  if instant : time.IsInstant then .ok ⟨time, instant⟩
  else .error (.content "timestamp out of range")

/-- `durationProto`: whole seconds towards zero, and the rest with the same sign. -/
def durationProto (duration : Int64) : Seconds :=
  ⟨Int64.ofInt (duration.toInt.tdiv 1000000000), Int32.ofInt (duration.toInt.tmod 1000000000)⟩

/-- `StdDurationMarshalTo`. -/
def stdDurationMarshal (duration : Int64) : List Wire.Byte :=
  encodeAll ((secondsCodec "Duration").entries (durationProto duration))

/-- `DurationFromProto`. -/
def durationFromProto (duration : Seconds) : Except Wire.Error Int64 :=
  let seconds := duration.seconds.toInt
  let nanos := duration.nanos.toInt
  if seconds < -315576000000 ∨ 315576000000 < seconds ∨ nanos ≤ -1000000000 ∨ 1000000000 ≤ nanos ∨
      (seconds < 0 ∧ 0 < nanos) ∨ (0 < seconds ∧ nanos < 0) then
    .error (.content "duration out of range")
  -- The product or the sum overflows.
  else if seconds * 1000000000 + nanos < -2 ^ 63 ∨ 2 ^ 63 ≤ seconds * 1000000000 + nanos then
    .error (.content "duration out of range for time.Duration")
  else .ok (Int64.ofInt (seconds * 1000000000 + nanos))

/-- `StdDurationUnmarshal`. -/
def stdDurationUnmarshal (dAtA : List Wire.Byte) : Except Wire.Error Int64 := do
  durationFromProto (← (secondsCodec "Duration").unmarshal dAtA)

end Time

section Numbers

/-- The texts of `big.Int`, and the limits of `sdk.Int` and `sdk.Dec`. -/
structure BigText where
  marshalText : ℤ → List Wire.Byte
  unmarshalText : List Wire.Byte → Option ℤ
  -- A number has a text, from which it is read back.
  marshalText_ne_nil : ∀ value, marshalText value ≠ []
  unmarshalText_marshalText : ∀ value, unmarshalText (marshalText value) = some value
  maxBitLen : ℕ
  maxDecBitLen : ℕ

variable (big : BigText)

/-- `Int.Unmarshal` and `Dec.Unmarshal` of some bytes. -/
def unmarshalNumber (maxBits : ℕ) (dAtA : List Wire.Byte) : Except Wire.Error ℤ :=
  match big.unmarshalText dAtA with
  | none => .error (.content "cannot unmarshal into a big.Int")
  | some value =>
    if 2 ^ maxBits ≤ value.natAbs then .error (.content "number out of range") else .ok value

/-- A number as a text; without bytes it stays as it is. -/
def numberText {σ : Type} (name : String) (number maxBits : ℕ) (keep : ℤ → σ → σ) : Wire.Field σ :=
  ⟨name, number, .delimited fun content m =>
    if content = [] then .ok m else (unmarshalNumber big maxBits content).map (keep · m)⟩

/-- `Int.MarshalTo` and `Dec.MarshalTo`, for which an absent number is zero. -/
def marshalNumber (value : Option ℤ) : List Wire.Byte := big.marshalText (value.getD 0)

/-- `DecCoin` of the SDK. -/
structure DecCoin where
  denom : Text
  -- The amount in units of the last decimal.
  amount : Option ℤ
  deriving DecidableEq

/-- The encoding of `DecCoin`. -/
def decCoinCodec : Codec DecCoin where
  message := ⟨"DecCoin",
    [text "Denom" 1 fun content m => { m with denom := content },
      numberText big "Amount" 2 big.maxDecBitLen fun amount m => { m with amount := some amount }]⟩
  zero := ⟨[], none⟩
  entries m := optionalBytes 1 m.denom ++ [.bytes 2 (marshalNumber big m.amount)]

end Numbers

section Records

/-- `FeeSplit`. -/
structure FeeSplit where
  contractAddress : Text
  deployerAddress : Text
  withdrawerAddress : Text
  deriving DecidableEq

/-- The encoding of `FeeSplit`. -/
def feeSplitCodec : Codec FeeSplit where
  message := ⟨"FeeSplit",
    [text "ContractAddress" 1 fun content m => { m with contractAddress := content },
      text "DeployerAddress" 2 fun content m => { m with deployerAddress := content },
      text "WithdrawerAddress" 3 fun content m => { m with withdrawerAddress := content }]⟩
  zero := ⟨[], [], []⟩
  entries m := optionalBytes 1 m.contractAddress ++ optionalBytes 2 m.deployerAddress ++
    optionalBytes 3 m.withdrawerAddress

/-- `TokenPair`. -/
structure TokenPair where
  erc20Address : Text
  denom : Text
  enabled : Bool
  -- The enumeration `Owner`, of which the format allows other values too.
  contractOwner : Int32
  deriving DecidableEq

/-- The encoding of `TokenPair`. -/
def tokenPairCodec : Codec TokenPair where
  message := ⟨"TokenPair",
    [text "Erc20Address" 1 fun content m => { m with erc20Address := content },
      text "Denom" 2 fun content m => { m with denom := content },
      varint "Enabled" 3 fun value m => { m with enabled := value ≠ 0 },
      varint "ContractOwner" 4 fun value m => { m with contractOwner := ofInt32Bits value }]⟩
  zero := ⟨[], [], false, 0⟩
  entries m := optionalBytes 1 m.erc20Address ++ optionalBytes 2 m.denom ++
    optionalVarint 3 m.enabled.toNat ++ optionalVarint 4 (int32Bits m.contractOwner)

/-- `EpochInfo`. -/
structure EpochInfo where
  identifier : Text
  startTime : Instant
  duration : Int64
  currentEpoch : Int64
  currentEpochStartTime : Instant
  epochCountingStarted : Bool
  currentEpochStartHeight : Int64
  deriving DecidableEq

/-- The encoding of `EpochInfo`. -/
def epochInfoCodec : Codec EpochInfo where
  message := ⟨"EpochInfo",
    [text "Identifier" 1 fun content m => { m with identifier := content },
      custom "StartTime" 2 stdTimeUnmarshal fun time m => { m with startTime := time },
      custom "Duration" 3 stdDurationUnmarshal fun duration m => { m with duration := duration },
      varint "CurrentEpoch" 4 fun value m => { m with currentEpoch := ofInt64Bits value },
      custom "CurrentEpochStartTime" 5 stdTimeUnmarshal fun time m =>
        { m with currentEpochStartTime := time },
      varint "EpochCountingStarted" 6 fun value m => { m with epochCountingStarted := value ≠ 0 },
      varint "CurrentEpochStartHeight" 7 fun value m =>
        { m with currentEpochStartHeight := ofInt64Bits value }]⟩
  zero := ⟨[], zeroInstant, 0, 0, zeroInstant, false, 0⟩
  entries m := optionalBytes 1 m.identifier ++ [.bytes 2 (stdTimeMarshal m.startTime)] ++
    [.bytes 3 (stdDurationMarshal m.duration)] ++ optionalVarint 4 (int64Bits m.currentEpoch) ++
    [.bytes 5 (stdTimeMarshal m.currentEpochStartTime)] ++
    optionalVarint 6 m.epochCountingStarted.toNat ++
    optionalVarint 7 (int64Bits m.currentEpochStartHeight)

/-- `ClaimsRecord`. -/
structure ClaimsRecord where
  initialClaimableAmount : Option ℤ
  actionsCompleted : List Bool
  deriving DecidableEq

variable (big : BigText)

/-- The encoding of `ClaimsRecord`. -/
def claimsRecordCodec : Codec ClaimsRecord where
  message := ⟨"ClaimsRecord",
    [numberText big "InitialClaimableAmount" 1 big.maxBitLen fun amount m =>
        { m with initialClaimableAmount := some amount },
      ⟨"ActionsCompleted", 2, .packed fun value m =>
        { m with actionsCompleted := m.actionsCompleted ++ [decide (value ≠ 0)] }⟩]⟩
  zero := ⟨none, []⟩
  entries m := [.bytes 1 (marshalNumber big m.initialClaimableAmount)] ++
    if m.actionsCompleted = [] then [] else [.bools 2 m.actionsCompleted]

/-- `Incentive`. -/
structure Incentive where
  contract : Text
  allocations : List DecCoin
  epochs : UInt32
  startTime : Instant
  totalGas : UInt64
  deriving DecidableEq

/-- The encoding of `Incentive`. -/
def incentiveCodec : Codec Incentive where
  message := ⟨"Incentive",
    [text "Contract" 1 fun content m => { m with contract := content },
      custom "Allocations" 2 (decCoinCodec big).unmarshal fun coin m =>
        { m with allocations := m.allocations ++ [coin] },
      varint "Epochs" 3 fun value m => { m with epochs := UInt32.ofNat value },
      custom "StartTime" 4 stdTimeUnmarshal fun time m => { m with startTime := time },
      varint "TotalGas" 5 fun value m => { m with totalGas := UInt64.ofNat value }]⟩
  zero := ⟨[], [], 0, zeroInstant, 0⟩
  entries m := optionalBytes 1 m.contract ++
    m.allocations.map (fun coin => .message 2 ((decCoinCodec big).entries coin)) ++
    optionalVarint 3 m.epochs.toNat ++ [.bytes 4 (stdTimeMarshal m.startTime)] ++
    optionalVarint 5 m.totalGas.toNat

end Records

end Evmos.Proto
