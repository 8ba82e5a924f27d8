import Evmos.Library.Run
import Mathlib

/-! The counter of transactions per second, whose reports are made while transactions are counted. -/

namespace Evmos.App.TpsCounter

/-- `status`, the tag of what is recorded. -/
inductive Status where
  | success
  | failure
  deriving DecidableEq

/-- Where the loop of `start` stands, with what it has read in this round. -/
inductive Loop where
  /-- At its `select`. -/
  | waiting
  | loadedSuccessful (latestNSuccessful : UInt64)
  | loadedFailed (latestNSuccessful latestNFailed : UInt64)
  | recordedSuccess (latestNSuccessful latestNFailed : UInt64) (nTxn : Int64)
  | recordedFailure (latestNSuccessful latestNFailed : UInt64) (nTxn : Int64)
  | logged (latestNSuccessful latestNFailed : UInt64)
  /-- The context is done. -/
  | returned
  deriving DecidableEq

/-- `tpsCounter`, with the variables of its loop and what it has given to others. -/
structure State where
  nSuccessful : UInt64
  nFailed : UInt64
  lastNSuccessful : UInt64
  lastNFailed : UInt64
  loop : Loop
  /-- What `stats.Record` was called with. -/
  records : List (Status × Int64)
  /-- The numbers of transactions whose rate was logged. -/
  logs : List Int64
  deriving DecidableEq

/-- `newTPSCounter`, with its loop started. -/
def newTPSCounter : State := ⟨0, 0, 0, 0, .waiting, [], []⟩

/-- `recordValue`, whose second result is what it recorded. -/
def recordValue (latest previous : UInt64) (status : Status) : Int64 × List (Status × Int64) :=
  if latest < previous then (0, [])
  else
    let n := (latest - previous).toInt64
    if n < 0 then (0, []) else (n, [(status, n)])

/-- The atomic actions of the two sides. -/
inductive Action where
  /-- `DeliverTx` counts a transaction. -/
  | deliverTx (isErr : Bool)
  /-- The loop reads a counter; the ticker makes it read the first one. -/
  | load (status : Status)
  /-- `recordValue` is called. -/
  | record (status : Status)
  | log
  /-- The round ends. -/
  | keep
  /-- The context is done. -/
  | done
  deriving DecidableEq

/-- One atomic action, if it is what its side does next. -/
def step (tpc : State) : Action → Option State
  -- `incrementFailure` and `incrementSuccess`.
  | .deliverTx true => some { tpc with nFailed := tpc.nFailed + 1 }
  | .deliverTx false => some { tpc with nSuccessful := tpc.nSuccessful + 1 }
  | .load .success =>
    match tpc.loop with
    | .waiting => some { tpc with loop := .loadedSuccessful tpc.nSuccessful }
    | _ => none
  | .load .failure =>
    match tpc.loop with
    | .loadedSuccessful latestS => some { tpc with loop := .loadedFailed latestS tpc.nFailed }
    | _ => none
  | .record .success =>
    match tpc.loop with
    | .loadedFailed latestS latestF =>
      let nSuccess := recordValue latestS tpc.lastNSuccessful .success
      some { tpc with
        loop := .recordedSuccess latestS latestF nSuccess.1
        records := tpc.records ++ nSuccess.2 }
    | _ => none
  | .record .failure =>
    match tpc.loop with
    | .recordedSuccess latestS latestF nTxn =>
      let nFailed := recordValue latestF tpc.lastNFailed .failure
      some { tpc with
        loop := .recordedFailure latestS latestF (nTxn + nFailed.1)
        records := tpc.records ++ nFailed.2 }
    | _ => none
  | .log =>
    match tpc.loop with
    | .recordedFailure latestS latestF nTxn =>
      some { tpc with
        loop := .logged latestS latestF
        logs := if nTxn ≠ 0 then tpc.logs ++ [nTxn] else tpc.logs }
    | _ => none
  | .keep =>
    match tpc.loop with
    | .logged latestS latestF =>
      some { tpc with loop := .waiting, lastNSuccessful := latestS, lastNFailed := latestF }
    | _ => none
  | .done =>
    match tpc.loop with
    | .waiting => some { tpc with loop := .returned }
    | _ => none

/-- A step of either side, in any order. -/
def Step (before : State) (action : Action) (after : State) : Prop :=
  step before action = some after

/-- What some records say about a status. -/
def recordedFor (status : Status) (records : List (Status × Int64)) : ℤ :=
  ((records.filter fun made => made.1 = status).map fun made => made.2.toInt).sum

/-- What was recorded for a status. -/
def State.recorded (tpc : State) (status : Status) : ℤ := recordedFor status tpc.records

/-- What was logged. -/
def State.logged (tpc : State) : ℤ :=
  (tpc.logs.map Int64.toInt).sum

/-- The action that counts a transaction for a status. -/
def Status.counted : Status → Action
  | success => .deliverTx false
  | failure => .deliverTx true

end Evmos.App.TpsCounter
