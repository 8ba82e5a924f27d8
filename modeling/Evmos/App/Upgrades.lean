import Evmos.Claims.Keeper

/-! What the upgrade to v5 does to the claims records. On the main network it is part of v6. -/

namespace Evmos.App

open Library Claims

/-- `ContributorAddrFrom`, the lost address of an early contributor. -/
def contributorAddrFrom : String := "evmos13cf9npvns2vhh3097909mkhfxngmw6d6eppfm4"

/-- `ContributorAddrTo`, the new address of that contributor. -/
def contributorAddrTo : String := "evmos1hmntpkn623y3vl0nvzrazvq4rqzv3xa74l40gl"

/-- Writes one flag of a record in place, at `action - 1` in the source. -/
def setActionCompleted (cr : ClaimsRecord) (action : Action) (completed : Bool) :
    Result ClaimsRecord :=
  match action.index with
  | none => .error ⟨.panic, "runtime error: index out of range [-1]"⟩
  | some i => .ok { cr with actionsCompleted := Function.update cr.actionsCompleted i completed }

/-- `swapUnclaimedAction`: whether it has swapped, and the record with its flags as they are then. -/
def swapUnclaimedAction (cr : ClaimsRecord) (unclaimed claimed : Action) :
    Result (Bool × ClaimsRecord) :=
  if !cr.hasClaimedAction unclaimed && cr.hasClaimedAction claimed then do
    let cr ← setActionCompleted cr unclaimed true
    let cr ← setActionCompleted cr claimed false
    .ok (true, cr)
  else .ok (false, cr)

/-- The swaps of `ResolveAirdrop` by priority, each an unclaimed action and a claimed one. -/
def airdropSwaps : List (Action × Action) :=
  [(.evm, .ibcTransfer), (.evm, .vote), (.evm, .delegate), (.vote, .ibcTransfer),
    (.delegate, .ibcTransfer)]

/-- A chain of swaps, of which those after the first that succeeds are not evaluated. -/
def swapFirst (cr : ClaimsRecord) : List (Action × Action) → Result (Bool × ClaimsRecord)
  | [] => .ok (false, cr)
  | (unclaimed, claimed) :: rest => do
    let (swapped, cr) ← swapUnclaimedAction cr unclaimed claimed
    if swapped then .ok (true, cr) else swapFirst cr rest

/-- The first loop of `ResolveAirdrop`, which collects the records that have changed. -/
def collectOverrides (bech32 : Bech32) :
    List (Address × ClaimsRecord) → Result (List ClaimsRecordAddress)
  | [] => .ok []
  | (addr, cr) :: rest => do
    let (override, cr) ← swapFirst cr airdropSwaps
    let claimsRecords ← collectOverrides bech32 rest
    if override then
      .ok (⟨bech32.encode addr, cr.initialClaimableAmount, List.ofFn cr.actionsCompleted⟩ ::
        claimsRecords)
    else .ok claimsRecords

/-- The second loop of `ResolveAirdrop`, which stores what was collected. -/
def storeOverrides (bech32 : Bech32) (records : Store Address ClaimsRecord) :
    List ClaimsRecordAddress → Result (Store Address ClaimsRecord)
  | [] => .ok records
  | claim :: rest => do
    let addr ← orPanic "decoding bech32 failed" (bech32.decode claim.address)
    let cr : ClaimsRecord := ⟨claim.initialClaimableAmount, flagsOf claim.actionsCompleted⟩
    storeOverrides bech32 (records.set addr cr) rest

/-- `ResolveAirdrop`. -/
def resolveAirdrop (bech32 : Bech32) (records : Store Address ClaimsRecord) :
    Result (Store Address ClaimsRecord) := do
  let claimsRecords ← collectOverrides bech32 records.entries
  storeOverrides bech32 records claimsRecords

/-- `MigrateContributorClaim`. -/
def migrateContributorClaim (bech32 : Bech32) (records : Store Address ClaimsRecord) :
    Result (Store Address ClaimsRecord) := do
  let fromAddr ← orPanic "decoding bech32 failed" (bech32.decode contributorAddrFrom)
  let toAddr ← orPanic "decoding bech32 failed" (bech32.decode contributorAddrTo)
  match records.get? fromAddr with
  | none => .ok records
  | some cr => .ok ((records.delete fromAddr).set toAddr cr)

end Evmos.App
