import Evmos.Incentives.Keeper

/-! Exporting the incentives module to a genesis state, and importing it again. -/

namespace Evmos.Incentives

open Library

/-- `GenesisState`, which has no allocation meters. -/
structure GenesisState where
  params : Params
  incentives : List Incentive
  gasMeters : List GasMeter

namespace State

/-- `GetAllIncentives`. -/
def getAllIncentives (s : State) : List Incentive := s.incentives.entries.map Prod.snd

/-- `GetIncentivesGasMeters`: each key is split into the contract and the participant. -/
def getIncentivesGasMeters (s : State) : List GasMeter :=
  s.gasMeters.entries.map fun entry => ⟨(ofLex entry.1).1, (ofLex entry.1).2, entry.2⟩

end State

/-- `ExportGenesis`. -/
def exportGenesis (s : State) : GenesisState :=
  ⟨s.params, s.getAllIncentives, s.getIncentivesGasMeters⟩

/-- `Dec.Add` to what a Go map holds: an absent entry reads as a decimal without an integer. -/
def addToEntry (entry : Option Dec) (amount : Dec) : Result Dec :=
  match entry with
  | none => .error ⟨.panic, "runtime error: invalid memory address or nil pointer dereference"⟩
  | some sum => .ok (sum + amount)

/-- The inner loop of `InitGenesis`, which builds the map of allocation meters. -/
def addAllocations (allocationMeters : Store Denom Dec) (allocations : List DecCoin) :
    Result (Store Denom Dec) :=
  allocations.foldlM
    (fun allocationMeters al => do
      let amount ← addToEntry (allocationMeters.get? al.denom) al.amount
      .ok (allocationMeters.set al.denom amount))
    allocationMeters

/-- The loop of `InitGenesis` over the incentives. -/
def importIncentives (s : State) (incentives : List Incentive) : Result (State × Store Denom Dec) :=
  incentives.foldlM
    (fun (acc : State × Store Denom Dec) incentive => do
      let allocationMeters ← addAllocations acc.2 incentive.allocations
      .ok (acc.1.setIncentive incentive, allocationMeters))
    (s, .empty)

/--
`InitGenesis`, where the account keeper may or may not have a module account.

A Go map is iterated in no fixed order, but each denomination is visited once.
-/
def initGenesis (moduleAccount : Bool) (s : State) (data : GenesisState) : Result State :=
  let s := { s with params := data.params }
  if !moduleAccount then .error ⟨.panic, "the incentives module account has not been set"⟩
  else do
    let (s, allocationMeters) ← importIncentives s data.incentives
    let s := allocationMeters.entries.foldl
      (fun s entry => s.setAllocationMeter ⟨entry.1, entry.2⟩) s
    .ok (data.gasMeters.foldl State.setGasMeter s)

end Evmos.Incentives
