import Evmos.Evm.Address

/-! Addresses as the bytes that store keys are made of. -/

namespace Evmos

/-- A byte. -/
abbrev Byte := Fin 256

/-- The last bytes of a number, the most significant one first. -/
def bigEndian : ℕ → ℕ → List Byte
  | 0, _ => []
  | count + 1, value => Fin.ofNat 256 (value / 256 ^ count) :: bigEndian count value

/-- The number that bytes spell after a number spelled before. -/
def ofBigEndian (start : ℕ) (bytes : List Byte) : ℕ :=
  bytes.foldl (fun value byte => value * 256 + byte) start

@[simp] theorem length_bigEndian (count value : ℕ) : (bigEndian count value).length = count := by
  induction count with
  | zero => rfl
  | succ count ih => rw [bigEndian, List.length_cons, ih]

/-- Bytes read back as the number they were taken from, as far as they go. -/
theorem ofBigEndian_bigEndian (count value : ℕ) :
    ∀ start, ofBigEndian start (bigEndian count value) =
      start * 256 ^ count + value % 256 ^ count := by
  induction count with
  | zero =>
    intro start
    simp [bigEndian, ofBigEndian, Nat.mod_one]
  | succ count ih =>
    intro start
    -- The leading byte comes on top of what the others spell.
    have split := Nat.mod_pow_succ (x := value) (b := 256) (k := count)
    show ofBigEndian (start * 256 + value / 256 ^ count % 256) (bigEndian count value) = _
    rw [ih, split]
    ring

/-- `Address.Bytes`. -/
def EthAddress.toBytes (address : EthAddress) : List Byte := bigEndian 20 address.val

/-- `common.BytesToAddress`, which keeps the last twenty bytes. -/
def bytesToAddress (bytes : List Byte) : EthAddress := Fin.ofNat (2 ^ 160) (ofBigEndian 0 bytes)

@[simp] theorem EthAddress.length_toBytes (address : EthAddress) : address.toBytes.length = 20 :=
  length_bigEndian 20 address.val

@[simp] theorem bytesToAddress_toBytes (address : EthAddress) :
    bytesToAddress address.toBytes = address := by
  have small : address.val % 256 ^ 20 = address.val := Nat.mod_eq_of_lt (by
    have bound := address.isLt
    norm_num at bound ⊢
    exact bound)
  rw [bytesToAddress, EthAddress.toBytes, ofBigEndian_bigEndian, small]
  simp

theorem EthAddress.toBytes_injective : Function.Injective EthAddress.toBytes :=
  Function.LeftInverse.injective bytesToAddress_toBytes

/-- The bytes of account addresses, of whatever length. -/
structure AddressBytes where
  bytes : Address → List Byte
  -- An address is its bytes.
  injective : Function.Injective bytes
  -- An Ethereum account is found at its own twenty bytes.
  bytes_eth : ∀ address : EthAddress, bytes address.bytes = address.toBytes

namespace AddressBytes

/-- The bytes a number needs, at least twenty. -/
def width (address : ℕ) : ℕ := if address < 2 ^ 160 then 20 else address.log2 / 8 + 1

theorem lt_width (address : ℕ) : address < 256 ^ width address := by
  unfold width
  split_ifs with small
  · norm_num at small ⊢
    exact small
  · -- The bits of the number fill up the bytes.
    calc address < 2 ^ (address.log2 + 1) := Nat.lt_log2_self
      _ ≤ 2 ^ (8 * (address.log2 / 8 + 1)) := Nat.pow_le_pow_right (by decide) (by omega)
      _ = 256 ^ (address.log2 / 8 + 1) := by rw [Nat.pow_mul]

/-- Numbers as addresses, in as few bytes as they need but at least twenty. -/
def plain : AddressBytes where
  bytes address := bigEndian (width address) address
  injective := by
    refine Function.LeftInverse.injective (g := ofBigEndian 0) fun address => ?_
    rw [ofBigEndian_bigEndian, Nat.mod_eq_of_lt (lt_width address), zero_mul, zero_add]
  bytes_eth address := by
    rw [width, EthAddress.bytes, if_pos address.isLt, EthAddress.toBytes]

end AddressBytes

end Evmos
