import Evmos.Claims.Types
import Evmos.Sdk.Bank

/-! Recovery: packets, keys and accounts, and how texts are split and addresses are read. -/

namespace Evmos.Recovery

/-- `strings.SplitN` with the limit two: what stands before the first separator, and after it. -/
def splitOnce (separator : Char) (text : String) : List String :=
  match text.toList.dropWhile (· ≠ separator) with
  | [] => [text]
  | _ :: rest => [String.ofList (text.toList.takeWhile (· ≠ separator)), String.ofList rest]

/-- `strings.Split`: the parts between the separators, of which there is at least one. -/
def splitAll (separator : Char) (text : String) : List String :=
  (text.toList.splitOn separator).map String.ofList

/-- An element of a slice, which panics beyond its end. -/
def index {α : Type} (items : List α) (position : ℕ) : Result α :=
  orPanic ("index out of range [" ++ toString position ++ "] with length " ++
    toString items.length) items[position]?

/-- The public keys that are told apart. -/
inductive PubKey where
  | ethsecp256k1
  | ed25519
  | secp256k1
  | multisig (pubKeys : List PubKey)
  | other

/-- A key that may be part of a supported multisig, which is no multisig itself. -/
def PubKey.isSingle : PubKey → Bool
  | .ethsecp256k1 => true
  | .ed25519 => true
  | _ => false

/-- `IsSupportedKey`, of a key that may be absent. -/
def isSupportedKey : Option PubKey → Bool
  | some .ethsecp256k1 => true
  | some .ed25519 => true
  | some (.multisig pubKeys) =>
    if pubKeys.length = 0 then false else pubKeys.all PubKey.isSingle
  | _ => false

/-- An account of the account keeper, as far as it is read. -/
structure Account where
  -- It is a `VestingAccount`.
  isVesting : Bool
  -- It is a `ModuleAccountI`.
  isModule : Bool
  pubKey : Option PubKey

/-- `Params` of the recovery module. -/
structure Params where
  enableRecovery : Bool
  packetTimeoutDuration : Time

/-- `FungibleTokenPacketData`, as far as it is read. -/
structure PacketData where
  sender : String
  receiver : String

/-- An IBC packet, whose data may fail to unmarshal. -/
structure Packet where
  sourcePort : String
  sourceChannel : String
  destinationPort : String
  destinationChannel : String
  data : Option PacketData

/-- `DenomTrace`. -/
structure DenomTrace where
  path : String
  baseDenom : String

/-- What `SendTransfer` is called with. Its timeout height is always zero. -/
structure Transfer where
  sourcePort : String
  sourceChannel : String
  denom : Denom
  amount : ℕ
  sender : Address
  receiver : String
  timeoutTimestamp : Time

/-- The bech32 functions of the SDK. -/
structure Bech32Codec where
  -- `GetFromBech32`, of a text and the prefix it must have, or the text of its error.
  getFromBech32 : String → String → Except String Address
  -- `VerifyAddressFormat`.
  verifyAddressFormat : Address → Result Unit

/-- `GetEvmosAddressFromBech32`. -/
def getEvmosAddressFromBech32 (codec : Bech32Codec) (address : String) : Result Address := do
  let bech32Prefix ← index (splitOnce '1' address) 0
  if bech32Prefix = address then
    .error ⟨.errInvalidAddress, "invalid bech32 address: " ++ address⟩
  else
    match codec.getFromBech32 address bech32Prefix with
    | .error text => .error ⟨.errInvalidAddress, "invalid address " ++ address ++ ", " ++ text⟩
    | .ok addressBz => do
      codec.verifyAddressFormat addressBz
      .ok addressBz

/-- `GetTransferSenderRecipient`: the two addresses, and how the packet spells them. -/
def getTransferSenderRecipient (codec : Bech32Codec) (packet : Packet) :
    Result (Address × Address × String × String) :=
  match packet.data with
  | none => .error ⟨.errUnknownRequest, "cannot unmarshal ICS-20 transfer packet data"⟩
  | some data => do
    let sender ← wrap "invalid sender" (getEvmosAddressFromBech32 codec data.sender)
    let recipient ← wrap "invalid recipient" (getEvmosAddressFromBech32 codec data.receiver)
    .ok (sender, recipient, data.sender, data.receiver)

end Evmos.Recovery
