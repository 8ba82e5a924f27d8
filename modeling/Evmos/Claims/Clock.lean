import Evmos.Claims.EndAirdrop
import Evmos.Sdk.Duration

/-! What a claim pays and when the airdrop ends, as computed with durations of sixty-four bits. -/

namespace Evmos.Claims

open Library

/-- `Params` as they are stored, with the durations that the source computes with. -/
structure StoredParams where
  enableClaims : Bool
  airdropStartTime : Time
  durationUntilDecay : Duration
  durationOfDecay : Duration
  claimsDenom : Denom
  authorizedChannels : List String
  evmChannels : List String

namespace StoredParams

/-- The same parameters with durations that have no bound. -/
def exact (p : StoredParams) : Params where
  enableClaims := p.enableClaims
  airdropStartTime := p.airdropStartTime
  durationUntilDecay := p.durationUntilDecay.toInt
  durationOfDecay := p.durationOfDecay.toInt
  claimsDenom := p.claimsDenom
  authorizedChannels := p.authorizedChannels
  evmChannels := p.evmChannels

/-- `Params.Validate`, which compares and prints durations but adds none. -/
def validate (validDenom : Denom → Bool) (channelIdentifierValidator : String → Bool)
    (p : StoredParams) : Result Unit :=
  p.exact.validate validDenom channelIdentifierValidator

/-- `DecayStartTime`. -/
def decayStartTime (p : StoredParams) : Time := timeAdd p.airdropStartTime p.durationUntilDecay

/-- `AirdropEndTime`, which adds one duration after the other to an instant. -/
def airdropEndTime (p : StoredParams) : Time :=
  timeAdd (timeAdd p.airdropStartTime p.durationUntilDecay) p.durationOfDecay

/-- `IsClaimsActive`. -/
def isClaimsActive (p : StoredParams) (blockTime : Time) : Bool :=
  !(!p.enableClaims || decide (blockTime < p.airdropStartTime) ||
    decide (p.airdropEndTime < blockTime))

/-- The part of a share that `ClaimableAmountForAction` leaves after the decay start. -/
def claimableRatio (params : StoredParams) (blockTime : Time) : Dec :=
  let elapsedDecay := timeSub blockTime params.decayStartTime
  1 - (Dec.ofInt elapsedDecay.toInt).quoInt params.durationOfDecay.toInt

/-- `ClaimableAmountForAction`: the amount an action pays now, and the rest of its share. -/
def claimableAmountForAction (params : StoredParams) (blockTime : Time)
    (claimsRecord : ClaimsRecord) (action : Action) : ℤ × ℤ :=
  if claimsRecord.initialClaimableAmount = 0 then (0, 0)
  else if claimsRecord.hasClaimedAction action then (0, 0)
  else
    let initialClaimablePerAction : ℤ := claimsRecord.initialClaimableAmount / 4
    if !decide (params.decayStartTime < blockTime) then (initialClaimablePerAction, 0)
    else
      let claimableCoins :=
        ((Dec.ofInt initialClaimablePerAction).mul (params.claimableRatio blockTime)).roundInt
      (claimableCoins, initialClaimablePerAction - claimableCoins)

/-- `GetClaimableAmountForAction`: the same, and nothing outside the claim window. -/
def getClaimableAmountForAction (params : StoredParams) (blockTime : Time)
    (claimsRecord : ClaimsRecord) (action : Action) : ℤ × ℤ :=
  if !params.isClaimsActive blockTime then (0, 0)
  else params.claimableAmountForAction blockTime claimsRecord action

/-- `EndBlocker`, for the parameters that it reads from the store. -/
def endBlocker (k : Keeper) (blockTime : Time) (params : StoredParams) (l : Ledger) :
    Result Ledger :=
  if !params.enableClaims then .ok l
  else
    let elapsedAirdropTime := timeSub blockTime params.airdropStartTime
    -- The two durations are added to each other here.
    if elapsedAirdropTime ≤ params.durationUntilDecay + params.durationOfDecay then .ok l
    else
      match endAirdrop k l params.exact with
      | .error err => .error ⟨.panic, err.text⟩
      | .ok l => .ok l

end StoredParams

end Evmos.Claims
