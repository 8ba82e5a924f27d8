import Evmos.Claims.Clock

/-! The query for a claims record, with what it says about each action. -/

namespace Evmos.Claims

open Library

/-- `Claim`: what the query says about one action. -/
structure Claim where
  action : Action
  completed : Bool
  claimableAmount : ℤ
  deriving DecidableEq

/-- `QueryClaimsRecordResponse`. -/
structure ClaimsRecordResponse where
  initialClaimableAmount : ℕ
  claims : List Claim
  deriving DecidableEq

/-- The actions that the query lists, in its order. -/
def listedActions : List Action := [.vote, .delegate, .evm, .ibcTransfer]

/-- `ClaimsRecord` of the query server, for the stored parameters and records. -/
def claimsRecord (k : Keeper) (blockTime : Time) (params : StoredParams)
    (records : Store Address ClaimsRecord) (req : Option String) : Result ClaimsRecordResponse :=
  match req with
  | none => .error ⟨.invalidArgument, "empty request"⟩
  | some address =>
    match k.bech32.decode address with
    | none => .error ⟨.invalidArgument, "decoding bech32 failed"⟩
    | some addr =>
      match records.get? addr with
      | none => .error ⟨.notFound, "claims record for address '" ++ address ++ "'"⟩
      | some claimsRecord =>
        .ok
          { initialClaimableAmount := claimsRecord.initialClaimableAmount
            -- The amount is worked out without asking whether claims are active.
            claims := listedActions.map fun action =>
              { action := action
                completed := claimsRecord.hasClaimedAction action
                claimableAmount :=
                  (params.claimableAmountForAction blockTime claimsRecord action).1 } }

end Evmos.Claims
