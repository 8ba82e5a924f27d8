import Evmos.Evm.Contracts
import Evmos.Library.Store
import Evmos.Sdk.Bank

/-! Token pairs: their denominations and metadata, and the messages that convert them. -/

namespace Evmos.Erc20

/-- `ModuleName`. -/
def moduleName : String := "erc20"

/-- `Owner`: who owns the contract of a pair. -/
inductive Owner where
  | unspecified
  /-- The module account, which has deployed the contract for a coin. -/
  | module
  /-- Someone else, and the module has created the coin. -/
  | external
  deriving DecidableEq

/-- `TokenPair`. -/
structure TokenPair where
  erc20Address : String
  denom : Denom
  enabled : Bool
  contractOwner : Owner
  deriving DecidableEq

/-- `NewTokenPair`, which enables the pair whatever its argument says. -/
def newTokenPair (format : AddressString) (erc20Address : EthAddress) (denom : Denom)
    (_enabled : Bool) (contractOwner : Owner) : TokenPair :=
  ⟨format.spell erc20Address, denom, true, contractOwner⟩

/-- `TokenPair.GetID`: the hash of the address and the denomination. -/
def TokenPair.getID (sum : String → ℕ) (tp : TokenPair) : ℕ :=
  sum (tp.erc20Address ++ "|" ++ tp.denom)

/-- `TokenPair.GetERC20Contract`. -/
def TokenPair.getERC20Contract (tp : TokenPair) : EthAddress := hexToAddress tp.erc20Address

/-- `Params` of the erc20 module. -/
structure Params where
  enableErc20 : Bool
  enableEVMHook : Bool

/-- `banktypes.DenomUnit`. -/
structure DenomUnit where
  denom : Denom
  exponent : ℕ
  aliases : List String
  deriving DecidableEq

/-- `DenomUnit.String`, which leaves out what is empty. -/
def DenomUnit.toString (unit : DenomUnit) : String :=
  (if unit.denom = "" then "" else "denom:\"" ++ unit.denom ++ "\" ") ++
    (if unit.exponent = 0 then "" else "exponent:" ++ ToString.toString unit.exponent ++ " ") ++
    String.join (unit.aliases.map fun name => "aliases:\"" ++ name ++ "\" ")

/-- `banktypes.Metadata`. -/
structure Metadata where
  description : String
  denomUnits : List DenomUnit
  base : Denom
  display : String
  name : String
  symbol : String
  deriving DecidableEq

/-- The loop of `EqualMetadata` over the units of both sides. -/
def equalDenomUnits : List DenomUnit → List DenomUnit → Result Unit
  | first :: rest, second :: others =>
    if first.exponent ≠ second.exponent ∨ first.denom ≠ second.denom ∨
        first.aliases ≠ second.aliases then
      .error ⟨.external, "metadata provided has different denom unit from stored, " ++
        first.toString ++ " ≠ " ++ second.toString⟩
    else equalDenomUnits rest others
  | _, _ => .ok ()

/-- `EqualMetadata`. -/
def equalMetadata (a b : Metadata) : Result Unit :=
  if a.base = b.base ∧ a.description = b.description ∧ a.display = b.display ∧ a.name = b.name ∧
      a.symbol = b.symbol then
    if a.denomUnits.length ≠ b.denomUnits.length then
      .error ⟨.external, "metadata provided has different denom units from stored, " ++
        toString a.denomUnits.length ++ " ≠ " ++ toString b.denomUnits.length⟩
    else equalDenomUnits a.denomUnits b.denomUnits
  else .error ⟨.external, "metadata provided is different from stored"⟩

/-- `CreateDenomDescription`. -/
def createDenomDescription (address : String) : String :=
  "Cosmos coin token representation of " ++ address

/-- `CreateDenom`. -/
def createDenom (address : String) : Denom := moduleName ++ "/" ++ address

/-- `removeLeadingNumbers`: the digits that begin a line are removed. -/
def removeLeadingNumbers (atLineStart : Bool) : List Char → List Char
  | [] => []
  | c :: rest =>
    if atLineStart && c.isDigit then removeLeadingNumbers true rest
    else c :: removeLeadingNumbers (c = '\n') rest

/-- The characters that `removeSpecialChars` keeps after the first one. -/
def isDenomChar (c : Char) : Bool := c.isAlphanum || c = '/' || c = '-'

/-- `removeSpecialChars`: one pass, in which only the first character must be a letter. -/
def removeSpecialChars : List Char → List Char
  | [] => []
  | c :: rest => (if c.isAlpha then [c] else []) ++ rest.filter isDenomChar

/-- `removeInvalidPrefixes`. -/
def removeInvalidPrefixes : List Char → List Char
  | 'i' :: 'b' :: 'c' :: '/' :: rest => removeInvalidPrefixes rest
  | 'e' :: 'r' :: 'c' :: '2' :: '0' :: '/' :: rest => removeInvalidPrefixes rest
  | text => text

/-- `SanitizeERC20Name`. -/
def sanitizeERC20Name (name : String) : String :=
  let name := removeLeadingNumbers true name.toList
  let name := removeSpecialChars name
  -- What is left has one byte a character.
  let name := if 128 < name.length then name.take 128 else name
  String.ofList (removeInvalidPrefixes name)

/-- `strings.SplitN(text, "/", 2)`: what stands before the first slash, and after it. -/
def splitSlash (text : String) : List Char × Option (List Char) :=
  let chars := text.toList
  (chars.takeWhile (· ≠ '/'), (chars.dropWhile (· ≠ '/')).tail?)

/-- `sdk.ValidateDenom`: a letter, and two to 127 letters, digits, slashes or hyphens. -/
def validDenom (denom : Denom) : Bool :=
  match denom.toList with
  | [] => false
  | c :: rest => c.isAlpha && 2 ≤ rest.length && rest.length ≤ 127 && rest.all isDenomChar

/-- `ibctransfertypes.ValidateIBCDenom`: without a slash, or `ibc/` and a hash of 32 bytes. -/
def validateIBCDenom (denom : Denom) : Result Unit :=
  if !validDenom denom then .error ⟨.external, "invalid denom: " ++ denom⟩
  else
    match splitSlash denom with
    | (whole, none) =>
      if whole = "ibc".toList then
        .error ⟨.external, "denomination should be prefixed with the format 'ibc/"⟩
      else .ok ()
    | (first, some hash) =>
      if first ≠ "ibc".toList ∨ hash = [] then
        .error ⟨.external, "denomination should be prefixed with the format 'ibc/"⟩
      else if hash.length = 64 ∧ hash.all fun digit => (hexDigit? digit).isSome then .ok ()
      else .error ⟨.external, "invalid denom trace hash " ++ String.ofList hash⟩

/-- `ethermint.ValidateAddress`. -/
def validateAddress (address : String) : Result Unit :=
  if !isHexAddress address then
    .error ⟨.errInvalidAddress, "address '" ++ address ++ "' is not a valid ethereum hex address"⟩
  else .ok ()

/-- `ValidateErc20Denom`. -/
def validateErc20Denom (denom : Denom) : Result Unit :=
  match splitSlash denom with
  | (first, some address) =>
    if first ≠ moduleName.toList then
      .error ⟨.external, "invalid denom. " ++ denom ++
        " denomination should be prefixed with the format 'erc20/"⟩
    else validateAddress (String.ofList address)
  | (_, none) =>
    .error ⟨.external, "invalid denom. " ++ denom ++
      " denomination should be prefixed with the format 'erc20/"⟩

/-- `validateIBCVoucherMetadata`: a base denomination with a slash begins with `ibc/`. -/
def validateIBCVoucherMetadata (metadata : Metadata) : Result Unit :=
  let invalid : Result Unit := .error ⟨.external, "invalid metadata. " ++ metadata.base ++
    " denomination should be prefixed with the format 'ibc/"⟩
  match splitSlash metadata.base with
  | (whole, none) => if whole.all isSpace then invalid else .ok ()
  | (first, some _) => if first ≠ "ibc".toList then invalid else .ok ()

/-- `RegisterCoinProposal`. -/
structure RegisterCoinProposal where
  title : String
  description : String
  metadata : Metadata

/--
`RegisterCoinProposal.ValidateBasic`.

The checks of the metadata are those of the bank, and the last one is that of the governance.
-/
def RegisterCoinProposal.validateBasic (validateMetadata : Metadata → Result Unit)
    (validateAbstract : String → String → Result Unit) (rtbp : RegisterCoinProposal) :
    Result Unit := do
  validateMetadata rtbp.metadata
  validateIBCDenom rtbp.metadata.base
  validateIBCVoucherMetadata rtbp.metadata
  validateAbstract rtbp.title rtbp.description

/-- `MsgConvertCoin`. -/
structure MsgConvertCoin where
  coin : Coin
  -- A hexadecimal address.
  receiver : String
  -- A bech32 address.
  sender : String

/-- `MsgConvertCoin.ValidateBasic`. -/
def MsgConvertCoin.validateBasic (bech32 : Bech32) (msg : MsgConvertCoin) : Result Unit := do
  -- A denomination of the module, or one that could be transferred.
  match validateErc20Denom msg.coin.denom with
  | .ok () => .ok ()
  | .error _ => validateIBCDenom msg.coin.denom
  if msg.coin.amount ≤ 0 then
    .error ⟨.errInvalidCoins, "cannot mint a non-positive amount"⟩
  else do
    let _ ← orError ⟨.external, "invalid sender address"⟩ (bech32.decode msg.sender)
    if !isHexAddress msg.receiver then
      .error ⟨.errInvalidAddress, "invalid receiver hex address " ++ msg.receiver⟩
    else .ok ()

/-- `MsgConvertERC20`. -/
structure MsgConvertERC20 where
  contractAddress : String
  amount : ℤ
  -- A bech32 address.
  receiver : String
  -- A hexadecimal address.
  sender : String

/-- `MsgConvertERC20.ValidateBasic`. -/
def MsgConvertERC20.validateBasic (bech32 : Bech32) (msg : MsgConvertERC20) : Result Unit :=
  if !isHexAddress msg.contractAddress then
    .error ⟨.errInvalidAddress, "invalid contract hex address '" ++ msg.contractAddress ++ "'"⟩
  else if msg.amount ≤ 0 then
    .error ⟨.errInvalidCoins, "cannot mint a non-positive amount"⟩
  else do
    let _ ← orError ⟨.external, "invalid receiver address"⟩ (bech32.decode msg.receiver)
    if !isHexAddress msg.sender then
      .error ⟨.errInvalidAddress, "invalid sender hex address " ++ msg.sender⟩
    else .ok ()

end Evmos.Erc20
