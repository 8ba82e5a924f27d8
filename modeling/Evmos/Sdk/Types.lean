import Mathlib

/-! Values shared by every module: denominations, coins, addresses, instants, and errors. -/

namespace Evmos

/-- A coin denomination. -/
abbrev Denom := String

/-- An account address, compared for identity and ordered as a store key. -/
abbrev Address := ℕ

/--
A valid `sdk.Coins` value.

The slice is sorted by denomination and holds positive amounts only, so it is determined by
the amount of each denomination, of which finitely many are nonzero.
-/
abbrev Coins := Π₀ _ : Denom, ℕ

namespace Coins

/-- `Coins.AmountOf`: the amount of one denomination, zero when it is absent. -/
def amountOf (coins : Coins) (denom : Denom) : ℕ := coins denom

/-- `sdk.NewCoins(sdk.NewCoin(denom, amount))`: one denomination, or nothing for a zero amount. -/
def ofCoin (denom : Denom) (amount : ℕ) : Coins := DFinsupp.single denom amount

/-- `Coins.Min`: the smaller amount in each denomination. -/
def min (coins other : Coins) : Coins := coins ⊓ other

/-- `Coins.IsZero`, which for valid coins is the same as `Coins.Empty`. -/
def isZero (coins : Coins) : Bool := coins = 0

/-- `Coins.IsAllLTE`: no denomination exceeds the other side. -/
def isAllLTE (coins other : Coins) : Bool := coins ≤ other

/-- `Coins.Sub`, which panics when a denomination would become negative. -/
def sub (coins other : Coins) : Option Coins :=
  if other ≤ coins then some (coins - other) else none

/-- `Coins.String`: the amounts with their denominations, sorted by denomination. -/
def toString (coins : Coins) : String :=
  ",".intercalate ((coins.support.sort (· ≤ ·)).map fun denom => s!"{coins denom}{denom}")

/-- The slice itself: each denomination held with its amount, sorted by denomination. -/
def toList (coins : Coins) : List (Denom × ℕ) :=
  (coins.support.sort (· ≤ ·)).map fun denom => (denom, coins denom)

/-- The coins of a slice that come before the first one that is not covered. -/
def beforeMissing (coins spendable : Coins) : Coins :=
  coins.filter fun denom => ∀ other ∈ coins.support, other ≤ denom → coins other ≤ spendable other

@[simp] theorem isZero_iff (coins : Coins) : coins.isZero = true ↔ coins = 0 := by
  simp [isZero]

@[simp] theorem isAllLTE_iff (coins other : Coins) :
    coins.isAllLTE other = true ↔ coins ≤ other := by
  simp [isAllLTE]

variable {coins : Coins} {denom : Denom}

theorem mem_toList {amount : ℕ} :
    (denom, amount) ∈ coins.toList ↔ coins denom = amount ∧ amount ≠ 0 := by
  simp only [toList, List.mem_map, Finset.mem_sort, DFinsupp.mem_support_toFun, Prod.mk.injEq]
  -- The support of the coins is sorted, and each amount is read beside it.
  constructor
  · rintro ⟨other, nonzero, rfl, rfl⟩
    exact ⟨rfl, nonzero⟩
  · rintro ⟨rfl, nonzero⟩
    exact ⟨denom, nonzero, rfl, rfl⟩

/-- What comes before the missing coin is covered. -/
theorem beforeMissing_le (coins spendable : Coins) : coins.beforeMissing spendable ≤ spendable := by
  intro denom
  rw [beforeMissing, DFinsupp.filter_apply]
  -- A coin is kept only if it is covered itself.
  split_ifs with taken
  · by_cases none : coins denom = 0
    · rw [none]
      exact Nat.zero_le _
    · exact taken denom (DFinsupp.mem_support_toFun _ _ |>.mpr none) le_rfl
  · exact Nat.zero_le _

/-- A coin that comes before the missing one is followed by another one. -/
theorem lt_of_beforeMissing {spendable : Coins} (missing : ¬coins ≤ spendable)
    (taken : coins.beforeMissing spendable denom ≠ 0) :
    coins denom ≠ 0 ∧ ∃ other, coins other ≠ 0 ∧ denom < other := by
  rw [beforeMissing, DFinsupp.filter_apply] at taken
  obtain ⟨covered, taken⟩ := ite_ne_right_iff.mp taken
  obtain ⟨other, exceeds⟩ := not_forall.mp missing
  have held : coins other ≠ 0 := by
    intro none
    rw [none] at exceeds
    exact exceeds (Nat.zero_le _)
  -- Every coin up to the one that is taken is covered, so the missing one comes later.
  refine ⟨taken, other, held, not_le.mp ?_⟩
  intro earlier
  exact exceeds (covered other (DFinsupp.mem_support_toFun _ _ |>.mpr held) earlier)

theorem nodup_toList (coins : Coins) : (coins.toList.map Prod.fst).Nodup := by
  rw [toList, List.map_map]
  exact (List.map_id _).symm ▸ Finset.sort_nodup _ _

/-- Subtraction succeeds exactly when the subtrahend is covered. -/
theorem sub_of_le {other : Coins} (covered : other ≤ coins) :
    coins.sub other = some (coins - other) :=
  if_pos covered

@[simp] theorem amountOf_ofCoin_self (denom : Denom) (amount : ℕ) :
    (ofCoin denom amount) denom = amount := by
  simp [ofCoin]

theorem ofCoin_apply (denom other : Denom) (amount : ℕ) :
    (ofCoin denom amount) other = if other = denom then amount else 0 := by
  -- Coins of one denomination hold nothing of the others.
  by_cases same : other = denom
  · subst same
    simp
  · simp [ofCoin, same, Ne.symm same]

theorem eq_of_ofCoin_ne_zero {other : Denom} {amount : ℕ} (some : ofCoin denom amount other ≠ 0) :
    other = denom := by
  -- Any other amount would be zero.
  by_contra apart
  rw [ofCoin_apply, if_neg apart] at some
  exact some rfl

@[simp] theorem ofCoin_zero (denom : Denom) : ofCoin denom 0 = 0 :=
  DFinsupp.single_zero denom

/-- One coin is covered when the balance of its denomination covers it. -/
theorem ofCoin_le_iff {amount : ℕ} : ofCoin denom amount ≤ coins ↔ amount ≤ coins denom := by
  constructor
  · intro covered
    simpa using covered denom
  · -- Nothing is asked of the other denominations.
    intro enough other
    rw [ofCoin_apply]
    split_ifs with same
    · rw [same]
      exact enough
    · exact Nat.zero_le _

end Coins

/-- `unicode.IsSpace`. -/
def isSpace (char : Char) : Bool :=
  let code := char.toNat
  (9 ≤ code && code ≤ 13) || (0x2000 ≤ code && code ≤ 0x200a) ||
    [0x20, 0x85, 0xa0, 0x1680, 0x2028, 0x2029, 0x202f, 0x205f, 0x3000].contains code

/-- Whether `strings.TrimSpace` leaves nothing of a text. -/
def isBlank (text : String) : Bool := text.toList.all isSpace

/-- `sdk.Coin`, whose amount messages check to be positive. -/
structure Coin where
  denom : Denom
  amount : ℤ

/-- `sdk.Coins{coin}`, of a coin whose amount is positive. -/
def Coin.toCoins (coin : Coin) : Coins := Coins.ofCoin coin.denom coin.amount.toNat

/-- An instant or a duration of `time.Time`, in nanoseconds, instants counted from the Unix epoch. -/
abbrev Time := ℤ

/-- `time.Second`. -/
def second : Time := 1000000000

/-- `Time.Unix`: whole seconds, rounded down also before the epoch. -/
def unix (time : Time) : ℤ := time / second

/-- `time.Unix(seconds, 0)`. -/
def ofUnix (seconds : ℤ) : Time := seconds * second

/-- The zero value of `time.Time`, the first instant of the year one. -/
def zeroTime : Time := -62135596800 * second

@[simp] theorem unix_ofUnix (seconds : ℤ) : unix (ofUnix seconds) = seconds := by
  simp [unix, ofUnix, second]

theorem ofUnix_mono {earlier later : ℤ} (order : earlier ≤ later) : ofUnix earlier ≤ ofUnix later :=
  Int.mul_le_mul_of_nonneg_right order (by decide)

theorem unix_mono {earlier later : Time} (order : earlier ≤ later) : unix earlier ≤ unix later :=
  Int.ediv_le_ediv (by decide) order

/-- The registered errors the modelled functions wrap, and the Go panic that aborts a message. -/
inductive ErrKind where
  | errUnauthorized
  | errInvalidRequest
  | errNotSupported
  | errNotFound
  | errInsufficientFunds
  | errUnknownRequest
  | errUnknownAddress
  | errInvalidAddress
  | errInsufficientVestedCoins
  | errVestingLockup
  | errInvalidCoins
  | errInvalidAction
  | errKeyTypeNotSupported
  | errInternalIncentive
  | errERC20Disabled
  | errInternalTokenPair
  | errTokenPairNotFound
  | errTokenPairAlreadyExists
  | errUndefinedOwner
  | errBalanceInvariance
  | errUnexpectedEvent
  | errABIUnpack
  | errEVMDenom
  | errEVMCall
  | errERC20TokenPairDisabled
  | errSendDisabled
  | errLogic
  | errVMExecution
  | errFeeSplitDisabled
  | errFeeSplitAlreadyRegistered
  | errFeeSplitNoContractDeployed
  | errFeeSplitContractNotRegistered
  | errFeeSplitDeployerIsNotEOA
  | errorInvalidSigner
  | errBlockedAddress
  | errInvalidDenomForTransfer
  | errTraceNotFound
  | errChannelNotFound
  | errInvalidID
  | errInvalidChannelIdentifier
  | errInvalidPubKey
  | errorOutOfGas
  | errorGasOverflow
  /-- A status code of a query. -/
  | invalidArgument
  | notFound
  /-- An error of a library that the source passes on. -/
  | external
  /-- A Go panic. -/
  | panic
  deriving DecidableEq, Repr

/-- An error as the source builds it: the wrapped kind and the formatted text. -/
structure Err where
  /-- The registered error that is wrapped. -/
  kind : ErrKind
  /-- The text the wrapping adds. -/
  text : String
  deriving DecidableEq, Repr

/-- A computation of the source that returns an `error`. -/
abbrev Result (α : Type) := Except Err α

/-- The value of a computation that panics instead of returning an error. -/
def orPanic {α : Type} (text : String) : Option α → Result α
  | some value => .ok value
  | none => .error ⟨.panic, text⟩

/-- `sdkerrors.Wrap`: the text is put before that of the error. -/
def wrap {α : Type} (text : String) : Result α → Result α
  | .ok value => .ok value
  | .error err => .error ⟨err.kind, text ++ ": " ++ err.text⟩

/-- The value of a computation that returns an error when there is none. -/
def orError {α : Type} (err : Err) : Option α → Result α
  | some value => .ok value
  | none => .error err

variable {α : Type}

/-- A computation in two parts succeeds exactly when both parts do. -/
theorem bind_eq_ok {β : Type} {first : Result α} {second : α → Result β} {value : β} :
    (first >>= second) = .ok value ↔ ∃ middle, first = .ok middle ∧ second middle = .ok value := by
  cases first <;> simp [Bind.bind, Except.bind]

theorem map_eq_ok {β : Type} {result : Result α} {change : α → β} {value : β} :
    result.map change = .ok value ↔ ∃ middle, result = .ok middle ∧ change middle = value := by
  cases result <;> simp [Except.map]

theorem orPanic_eq_ok {text : String} {option : Option α} {value : α} :
    orPanic text option = .ok value ↔ option = some value := by
  cases option <;> simp [orPanic]

theorem wrap_eq_ok {text : String} {result : Result α} {value : α} :
    wrap text result = .ok value ↔ result = .ok value := by
  cases result <;> simp [wrap]

theorem orError_eq_ok {err : Err} {option : Option α} {value : α} :
    orError err option = .ok value ↔ option = some value := by
  cases option <;> simp [orError]

theorem forM_eq_ok {check : α → Result Unit} {items : List α} :
    items.forM check = .ok () ↔ ∀ item ∈ items, check item = .ok () := by
  induction items with
  | nil => simp [Pure.pure, Except.pure]
  | cons item items ih =>
    -- The loop goes on with the rest only after the first check.
    have unrolled : (item :: items).forM check = (check item >>= fun _ => items.forM check) := rfl
    rw [unrolled, bind_eq_ok, List.forall_mem_cons, ← ih]
    exact ⟨fun ⟨_, checked, rest⟩ => ⟨checked, rest⟩, fun ⟨checked, rest⟩ => ⟨(), checked, rest⟩⟩

/--
The bech32 codec of `sdk.AccAddress`.

Decoding accepts more spellings than encoding writes, such as an all upper case one.
-/
structure Bech32 where
  /-- `sdk.AccAddressFromBech32`, undefined where it returns an error. -/
  decode : String → Option Address
  /-- `AccAddress.String`. -/
  encode : Address → String
  /-- What is written reads back. -/
  decode_encode : ∀ address, decode (encode address) = some address

/-- A codec that spells addresses in unary, for evaluating the model. -/
def Bech32.unary : Bech32 where
  decode text := if text.toList.all (· = '1') then some text.toList.length else none
  encode address := String.ofList (List.replicate address '1')
  decode_encode := by simp

end Evmos
