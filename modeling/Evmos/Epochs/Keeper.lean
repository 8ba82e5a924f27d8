import Evmos.Library.Store
import Evmos.Sdk.Types

/-! Epochs: records that count periods of time, and the block hook that advances them. -/

namespace Evmos.Epochs

open Library

/-- `DayEpochID`. -/
def dayEpochID : String := "day"

/-- `EpochInfo`. -/
structure EpochInfo where
  identifier : String
  startTime : Time
  duration : Time
  currentEpoch : ℤ
  currentEpochStartTime : Time
  epochCountingStarted : Bool
  currentEpochStartHeight : ℤ

namespace EpochInfo

/-- `StartInitialEpoch`. -/
def startInitialEpoch (ei : EpochInfo) : EpochInfo :=
  { ei with
    epochCountingStarted := true
    currentEpoch := 1
    currentEpochStartTime := ei.startTime }

/-- `EndEpoch`: counts one more epoch, which starts where the last one ended. -/
def endEpoch (ei : EpochInfo) : EpochInfo :=
  { ei with
    currentEpoch := ei.currentEpoch + 1
    currentEpochStartTime := ei.currentEpochStartTime + ei.duration }

end EpochInfo

/-- `EpochHooks`: what another module does at the end and at the start of an epoch. -/
structure EpochHooks (σ : Type) where
  afterEpochEnd : String → ℤ → σ → Result σ
  beforeEpochStart : String → ℤ → σ → Result σ

/-- `MultiEpochHooks`: several hooks, run one after the other. -/
def multiEpochHooks {σ : Type} (hooks : List (EpochHooks σ)) : EpochHooks σ where
  afterEpochEnd identifier epochNumber s :=
    hooks.foldlM (fun s hook => hook.afterEpochEnd identifier epochNumber s) s
  beforeEpochStart identifier epochNumber s :=
    hooks.foldlM (fun s hook => hook.beforeEpochStart identifier epochNumber s) s

/-- The block a call is made in. -/
structure Context where
  blockTime : Time
  blockHeight : ℤ

/-- The epoch records, and the state of the modules behind the hooks. -/
structure State (σ : Type) where
  epochInfos : Store String EpochInfo
  hooked : σ

variable {σ : Type}

/-- `SetEpochInfo`. -/
def State.setEpochInfo (s : State σ) (epoch : EpochInfo) : State σ :=
  { s with epochInfos := s.epochInfos.set epoch.identifier epoch }

/-- The end of the loop body of `BeginBlocker`: stores the record and announces the new epoch. -/
def startEpoch (hooks : EpochHooks σ) (s : State σ) (epochInfo : EpochInfo) : Result (State σ) := do
  let s := s.setEpochInfo epochInfo
  let hooked ← hooks.beforeEpochStart epochInfo.identifier epochInfo.currentEpoch s.hooked
  .ok { s with hooked := hooked }

/-- The loop body of `BeginBlocker`. -/
def visitEpochInfo (hooks : EpochHooks σ) (ctx : Context) (s : State σ) (epochInfo : EpochInfo) :
    Result (State σ) :=
  let shouldInitialEpochStart : Bool :=
    !epochInfo.epochCountingStarted && !decide (ctx.blockTime < epochInfo.startTime)
  let epochEndTime := epochInfo.currentEpochStartTime + epochInfo.duration
  let shouldEpochEnd : Bool :=
    decide (epochEndTime < ctx.blockTime) && !shouldInitialEpochStart &&
      !decide (ctx.blockTime < epochInfo.startTime)
  let epochInfo := { epochInfo with currentEpochStartHeight := ctx.blockHeight }
  if shouldInitialEpochStart then startEpoch hooks s epochInfo.startInitialEpoch
  else if shouldEpochEnd then do
    -- The hook is given the number of the epoch that starts.
    let epochInfo := epochInfo.endEpoch
    let hooked ← hooks.afterEpochEnd epochInfo.identifier epochInfo.currentEpoch s.hooked
    startEpoch hooks { s with hooked := hooked } epochInfo
  else .ok s

/-- `BeginBlocker`, over the records that are stored when the block begins. -/
def beginBlocker (hooks : EpochHooks σ) (ctx : Context) (s : State σ) : Result (State σ) :=
  s.epochInfos.entries.foldlM (fun s entry => visitEpochInfo hooks ctx s entry.2) s

/-- `InitGenesis` for a list of records. -/
def initGenesis (ctx : Context) (epochs : List EpochInfo) (s : State σ) : State σ :=
  epochs.foldl
    (fun s epoch =>
      -- A record without a start time starts with the chain.
      let startTime := if epoch.startTime = zeroTime then ctx.blockTime else epoch.startTime
      s.setEpochInfo
        { epoch with startTime := startTime, currentEpochStartHeight := ctx.blockHeight })
    s

end Evmos.Epochs
