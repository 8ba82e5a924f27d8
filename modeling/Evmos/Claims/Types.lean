import Evmos.Library.Dec
import Evmos.Library.Store
import Evmos.Sdk.Bank

/-! Airdrop claims: actions, claims records, parameters, and the amount an action pays. -/

namespace Evmos.Claims

open Library

/-- `Action`: what a user does to claim a share of the airdrop. -/
inductive Action where
  | unspecified
  | vote
  | delegate
  | evm
  | ibcTransfer
  deriving DecidableEq

namespace Action

/-- The value of the enumeration. -/
def number : Action → ℕ
  | unspecified => 0
  | vote => 1
  | delegate => 2
  | evm => 3
  | ibcTransfer => 4

/-- `Action.String`. -/
def toString : Action → String
  | unspecified => "ACTION_UNSPECIFIED"
  | vote => "ACTION_VOTE"
  | delegate => "ACTION_DELEGATE"
  | evm => "ACTION_EVM"
  | ibcTransfer => "ACTION_IBC_TRANSFER"

/-- There are places for the flags of a record, so a numeral is one. -/
instance places_neZero : NeZero 4 := ⟨four_ne_zero⟩

/-- The place of an action among the flags of a record, `action - 1` in the source. -/
def index : Action → Option (Fin 4)
  | unspecified => none
  | vote => some 0
  | delegate => some 1
  | evm => some 2
  | ibcTransfer => some 3

end Action

/--
`ClaimsRecord`.

Validation refuses a record without exactly four flags, so the flags are a function on four places.
-/
@[ext] structure ClaimsRecord where
  -- The amount all four actions pay together.
  initialClaimableAmount : ℕ
  -- Whether each action has been claimed.
  actionsCompleted : Fin 4 → Bool
  deriving DecidableEq

/-- `NewClaimsRecord`: a record with nothing claimed. -/
def newClaimsRecord (initialClaimableAmt : ℕ) : ClaimsRecord where
  initialClaimableAmount := initialClaimableAmt
  actionsCompleted _ := false

namespace ClaimsRecord

/-- `MarkClaimed`. -/
def markClaimed (cr : ClaimsRecord) (action : Action) : ClaimsRecord :=
  match action.index with
  | none => cr
  | some i => { cr with actionsCompleted := Function.update cr.actionsCompleted i true }

/-- `HasClaimedAction`. -/
def hasClaimedAction (cr : ClaimsRecord) (action : Action) : Bool :=
  match action.index with
  | none => false
  | some i => cr.actionsCompleted i

/-- `HasClaimedAny`. -/
def hasClaimedAny (cr : ClaimsRecord) : Bool :=
  (List.finRange 4).any cr.actionsCompleted

end ClaimsRecord

/-- `Params` of the claims module. -/
structure Params where
  enableClaims : Bool
  airdropStartTime : Time
  durationUntilDecay : Time
  durationOfDecay : Time
  claimsDenom : Denom
  authorizedChannels : List String
  evmChannels : List String

namespace Params

/-- `ValidateChannels`, for the identifier check of the IBC host. -/
def validateChannels (channelIdentifierValidator : String → Bool) (channels : List String) :
    Result Unit :=
  channels.forM fun channel =>
    if channelIdentifierValidator channel then .ok ()
    else .error ⟨.external, "invalid channel identifier"⟩

/-- `Params.Validate`, for the denomination check of the SDK. -/
def validate (validDenom : Denom → Bool) (channelIdentifierValidator : String → Bool) (p : Params) :
    Result Unit := do
  if p.durationOfDecay ≤ 0 then
    .error ⟨.external, "duration of decay must be positive: " ++ toString p.durationOfDecay⟩
  else if p.durationUntilDecay ≤ 0 then
    -- The source prints the other duration here.
    .error ⟨.external, "duration until decay must be positive: " ++ toString p.durationOfDecay⟩
  else if !validDenom p.claimsDenom then
    .error ⟨.external, "invalid denom: " ++ p.claimsDenom⟩
  else
    validateChannels channelIdentifierValidator p.authorizedChannels
    validateChannels channelIdentifierValidator p.evmChannels

/-- `DecayStartTime`. -/
def decayStartTime (p : Params) : Time := p.airdropStartTime + p.durationUntilDecay

/-- `AirdropEndTime`. -/
def airdropEndTime (p : Params) : Time :=
  p.airdropStartTime + p.durationUntilDecay + p.durationOfDecay

/-- `IsClaimsActive`: claims are enabled and the block time is in the claim window. -/
def isClaimsActive (p : Params) (blockTime : Time) : Bool :=
  -- Both ends belong to the window.
  !(!p.enableClaims || decide (blockTime < p.airdropStartTime) ||
    decide (p.airdropEndTime < blockTime))

/-- `IsAuthorizedChannel`. -/
def isAuthorizedChannel (p : Params) (channel : String) : Bool :=
  p.authorizedChannels.contains channel

/-- `IsEVMChannel`. -/
def isEVMChannel (p : Params) (channel : String) : Bool :=
  p.evmChannels.contains channel

end Params

/--
`ClaimableAmountForAction` in the claim window: the amount an action pays now, and the rest.

The elapsed time has no bound here. It fits a duration up to the end of the window, and
`StoredParams.claimableAmountForAction` is the function at any time.
-/
def claimableAmountForAction (params : Params) (blockTime : Time) (claimsRecord : ClaimsRecord)
    (action : Action) : ℤ × ℤ :=
  if claimsRecord.initialClaimableAmount = 0 then (0, 0)
  else if claimsRecord.hasClaimedAction action then (0, 0)
  else
    let initialClaimablePerAction : ℤ := claimsRecord.initialClaimableAmount / 4
    -- Up to the decay start the whole share is paid.
    if !decide (params.decayStartTime < blockTime) then (initialClaimablePerAction, 0)
    else
      let elapsedDecay := blockTime - params.decayStartTime
      let elapsedDecayRatio := (Dec.ofInt elapsedDecay).quoInt params.durationOfDecay
      let claimableRatio := 1 - elapsedDecayRatio
      let claimableCoins := ((Dec.ofInt initialClaimablePerAction).mul claimableRatio).roundInt
      (claimableCoins, initialClaimablePerAction - claimableCoins)

/-- `GetClaimableAmountForAction`: the same, and nothing outside the claim window. -/
def getClaimableAmountForAction (params : Params) (blockTime : Time) (claimsRecord : ClaimsRecord)
    (action : Action) : ℤ × ℤ :=
  if !params.isClaimsActive blockTime then (0, 0)
  else claimableAmountForAction params blockTime claimsRecord action

/-- `ClaimsRecordAddress`: a claims record of the genesis file. -/
structure ClaimsRecordAddress where
  address : String
  initialClaimableAmount : ℕ
  actionsCompleted : List Bool

/-- `ClaimsRecordAddress.Validate`. -/
def ClaimsRecordAddress.validate (bech32 : Bech32) (cra : ClaimsRecordAddress) : Result Unit :=
  if (bech32.decode cra.address).isNone then .error ⟨.external, "decoding bech32 failed"⟩
  else if cra.initialClaimableAmount = 0 then
    .error ⟨.external, "initial claimable amount is not positive, " ++
      toString cra.initialClaimableAmount⟩
  else if cra.actionsCompleted.length ≠ 4 then
    .error ⟨.external, "action length mismatch, expected 4, got " ++
      toString cra.actionsCompleted.length⟩
  else .ok ()

/-- `GenesisState` of the claims module. -/
structure GenesisState where
  params : Params
  claimsRecords : List ClaimsRecordAddress

/-- The loop of `GenesisState.Validate`: no address is spelled twice, and every record is valid. -/
def validateRecords (bech32 : Bech32) : List String → List ClaimsRecordAddress → Result Unit
  | _, [] => .ok ()
  | seenClaims, claimsRecord :: rest =>
    if seenClaims.contains claimsRecord.address then
      .error ⟨.external, "duplicated claims record entry " ++ claimsRecord.address⟩
    else do
      claimsRecord.validate bech32
      validateRecords bech32 (claimsRecord.address :: seenClaims) rest

/-- `GenesisState.Validate`. -/
def GenesisState.validate (bech32 : Bech32) (validDenom : Denom → Bool)
    (channelIdentifierValidator : String → Bool) (gs : GenesisState) : Result Unit := do
  validateRecords bech32 [] gs.claimsRecords
  gs.params.validate validDenom channelIdentifierValidator

end Evmos.Claims
