import Evmos.Sdk.Types

/-! Ethereum addresses and their hexadecimal spellings. -/

namespace Evmos

/-- `common.Address`: twenty bytes, read as a number. -/
abbrev EthAddress := Fin (2 ^ 160)

namespace EthAddress

/-- There are addresses, so every numeral is one. -/
instance size_neZero : NeZero (2 ^ 160) := ⟨pow_ne_zero _ two_ne_zero⟩

/-- `Address.Bytes`, as the address of an account. -/
def bytes (address : EthAddress) : Address := address.val

/-- `common.BytesToAddress` of a topic, which keeps its last twenty bytes. -/
def ofTopic (topic : ℕ) : EthAddress := Fin.ofNat (2 ^ 160) topic

@[simp] theorem ofTopic_bytes (address : EthAddress) : ofTopic address.bytes = address := by
  simp [ofTopic, bytes]

end EthAddress

/-- The value of a hexadecimal digit. -/
def hexDigit? (digit : Char) : Option ℕ :=
  if '0' ≤ digit ∧ digit ≤ '9' then some (digit.toNat - '0'.toNat)
  else if 'a' ≤ digit ∧ digit ≤ 'f' then some (digit.toNat - 'a'.toNat + 10)
  else if 'A' ≤ digit ∧ digit ≤ 'F' then some (digit.toNat - 'A'.toNat + 10)
  else none

/-- The digits of a text, without the prefix `0x` or `0X`. -/
def strip0x : List Char → List Char
  | '0' :: 'x' :: digits => digits
  | '0' :: 'X' :: digits => digits
  | digits => digits

/-- `common.IsHexAddress`: forty digits, with or without the prefix. -/
def isHexAddress (text : String) : Bool :=
  let digits := strip0x text.toList
  digits.length = 40 && digits.all fun digit => (hexDigit? digit).isSome

/-- The bytes of a text, read as a number, up to the first that is not hexadecimal. -/
def decodeHex (value : ℕ) : List Char → ℕ
  | high :: low :: rest =>
    match hexDigit? high, hexDigit? low with
    | some high, some low => decodeHex (value * 256 + high * 16 + low) rest
    | _, _ => value
  | _ => value

/-- `common.HexToAddress`, which ignores the case of digits and keeps the last twenty bytes. -/
def hexToAddress (text : String) : EthAddress :=
  let digits := strip0x text.toList
  let digits := if digits.length % 2 = 1 then '0' :: digits else digits
  Fin.ofNat (2 ^ 160) (decodeHex 0 digits)

/--
How `Address.String` spells addresses.

The case of its letters is a checksum, which nothing here depends on.
-/
structure AddressString where
  spell : EthAddress → String
  -- What is written reads back.
  hexToAddress_spell : ∀ address, hexToAddress (spell address) = address
  -- The prefix and forty digits.
  length_spell : ∀ address, (spell address).length = 42

namespace AddressString

/-- A lower case digit. -/
def digit (value : ℕ) : Char :=
  if value < 10 then Char.ofNat ('0'.toNat + value) else Char.ofNat ('a'.toNat + (value - 10))

/-- The last bytes of a number, two digits each, the most significant one first. -/
def digits : ℕ → ℕ → List Char
  | 0, _ => []
  | bytes + 1, value =>
    digit (value / 256 ^ bytes / 16 % 16) :: digit (value / 256 ^ bytes % 16) :: digits bytes value

theorem hexDigit?_digit (value : ℕ) : hexDigit? (digit (value % 16)) = some (value % 16) := by
  have range : ∀ small : Fin 16, hexDigit? (digit small) = some small.val := by decide
  exact range ⟨value % 16, Nat.mod_lt _ (by decide)⟩

theorem length_digits (bytes value : ℕ) : (digits bytes value).length = 2 * bytes := by
  induction bytes with
  | zero => rfl
  | succ bytes ih => simp [digits, ih]; omega

theorem decodeHex_digits (bytes value : ℕ) :
    ∀ start, decodeHex start (digits bytes value) = start * 256 ^ bytes + value % 256 ^ bytes := by
  induction bytes with
  | zero => intro start; simp [digits, decodeHex, Nat.mod_one]
  | succ bytes ih =>
    intro start
    simp only [digits, decodeHex, hexDigit?_digit, ih]
    -- The two digits are those of the leading byte.
    have byte : value / 256 ^ bytes / 16 % 16 * 16 + value / 256 ^ bytes % 16 =
        value / 256 ^ bytes % 256 := by omega
    calc (start * 256 + value / 256 ^ bytes / 16 % 16 * 16 + value / 256 ^ bytes % 16) *
            256 ^ bytes + value % 256 ^ bytes
        = (start * 256 + value / 256 ^ bytes % 256) * 256 ^ bytes + value % 256 ^ bytes := by
          rw [add_assoc (start * 256), byte]
      _ = start * 256 ^ (bytes + 1) + value % 256 ^ (bytes + 1) := by
          rw [Nat.mod_pow_succ]; ring

/-- Lower case digits throughout. -/
def lower : AddressString where
  spell address := String.ofList ('0' :: 'x' :: digits 20 address.val)
  hexToAddress_spell address := by
    have even : (digits 20 address.val).length % 2 ≠ 1 := by simp [length_digits]
    have small : address.val % 256 ^ 20 = address.val := Nat.mod_eq_of_lt (by
      have bound := address.isLt
      norm_num at bound ⊢
      exact bound)
    simp only [hexToAddress, String.toList_ofList, strip0x, if_neg even, decodeHex_digits, small]
    simp
  length_spell address := by
    rw [String.length_ofList]
    simp only [List.length_cons, length_digits]

theorem spell_injective (format : AddressString) : Function.Injective format.spell :=
  Function.LeftInverse.injective format.hexToAddress_spell

end AddressString

end Evmos
