import Evmos.Library.Timeline
import Evmos.Sdk.Types

/-!
Vesting schedules: increasing step functions of coins over time.

A schedule is an absolute start time and a sequence of relative periods, with one step at the
end of each period. Times are Unix seconds, taken as unbounded integers.
-/

namespace Evmos.Vesting

open Library

/-- `sdkvesting.Period`: a length in seconds and the coins released at its end. -/
abbrev Period := Span Coins

/-- `sdkvesting.Periods`. -/
abbrev Periods := List Period

/-- The loop of `ReadSchedule`: periods are added up until one ends after the read time. -/
def readPeriods (readTime : ℤ) : Coins → ℤ → Periods → Coins
  | coins, _, [] => coins
  | coins, elapsedTime, period :: rest =>
    -- The first event in the future ends the loop, whatever follows it.
    if readTime < elapsedTime + period.length then coins
    else readPeriods readTime (coins + period.amount) (elapsedTime + period.length) rest

/-- `ReadSchedule`: the value of a schedule at the read time. -/
def readSchedule (startTime endTime : ℤ) (periods : Periods) (totalCoins : Coins)
    (readTime : ℤ) : Coins :=
  -- The start itself still reads as empty, and the end already reads as complete.
  if readTime ≤ startTime then 0
  else if readTime ≥ endTime then totalCoins
  else readPeriods readTime 0 startTime periods

/-- The loop of `ReadPastPeriodCount`. -/
def countPeriods (readTime : ℤ) : ℕ → ℤ → Periods → ℕ
  | passedPeriods, _, [] => passedPeriods
  | passedPeriods, elapsedTime, period :: rest =>
    if readTime < elapsedTime + period.length then passedPeriods
    else countPeriods readTime (passedPeriods + 1) (elapsedTime + period.length) rest

/-- `ReadPastPeriodCount`: the number of periods passed at the read time. -/
def readPastPeriodCount (startTime endTime : ℤ) (periods : Periods) (readTime : ℤ) : ℕ :=
  if readTime ≤ startTime then 0
  else if readTime ≥ endTime then periods.length
  else countPeriods readTime 0 startTime periods

/-- The result of `DisjunctPeriods` under construction. -/
structure Disjunction where
  /-- The time of the last merged event, or the start time. -/
  endTime : ℤ
  /-- The merged periods. -/
  periods : Periods

/-- `emit` of `DisjunctPeriods`: adds an output period and updates the last event time. -/
def Disjunction.emit (d : Disjunction) (nextTime : ℤ) (amount : Coins) : Disjunction where
  endTime := nextTime
  periods := d.periods ++ [⟨nextTime - d.endTime, amount⟩]

/-- The three loops of `DisjunctPeriods`, with the times of the last merged events of each side. -/
def disjunctLoop : Disjunction → ℤ → ℤ → Periods → Periods → Disjunction
  -- While there are more events in both schedules, handle the next one, merged if concurrent.
  | d, timeA, timeB, a :: as, b :: bs =>
    if timeA + a.length < timeB + b.length then
      disjunctLoop (d.emit (timeA + a.length) a.amount) (timeA + a.length) timeB as (b :: bs)
    else if timeA + a.length > timeB + b.length then
      disjunctLoop (d.emit (timeB + b.length) b.amount) timeA (timeB + b.length) (a :: as) bs
    else
      disjunctLoop (d.emit (timeA + a.length) (a.amount + b.amount))
        (timeA + a.length) (timeA + a.length) as bs
  -- Consume the remaining events of schedule A.
  | d, timeA, timeB, a :: as, [] =>
    disjunctLoop (d.emit (timeA + a.length) a.amount) (timeA + a.length) timeB as []
  -- Consume the remaining events of schedule B.
  | d, timeA, timeB, [], b :: bs =>
    disjunctLoop (d.emit (timeB + b.length) b.amount) timeA (timeB + b.length) [] bs
  | d, _, _, [], [] => d
termination_by _ _ _ as bs => as.length + bs.length

/-- `DisjunctPeriods`: the union of two schedules, as start time, end time, and periods. -/
def disjunctPeriods (startTimePeriodsA startTimePeriodsB : ℤ) (periodsA periodsB : Periods) :
    ℤ × ℤ × Periods :=
  let startTime := min startTimePeriodsA startTimePeriodsB
  let d := disjunctLoop ⟨startTime, []⟩ startTimePeriodsA startTimePeriodsB periodsA periodsB
  (startTime, d.endTime, d.periods)

/-- The result of `ConjunctPeriods` under construction. -/
structure Conjunction where
  /-- The time of the last emitted event, or the start time. -/
  time : ℤ
  /-- The coins emitted so far. -/
  amount : Coins
  /-- The coins of schedule A seen so far. -/
  totalAmountPeriodsA : Coins
  /-- The coins of schedule B seen so far. -/
  totalAmountPeriodsB : Coins
  /-- The emitted periods. -/
  conjunctionPeriods : Periods

/-- `emit` of `ConjunctPeriods`: adds an output period and updates the last event time. -/
def Conjunction.emit (c : Conjunction) (nextTime : ℤ) (coins : Coins) : Conjunction :=
  { c with
    time := nextTime
    amount := c.amount + coins
    conjunctionPeriods := c.conjunctionPeriods ++ [⟨nextTime - c.time, coins⟩] }

/-- The common part of the consume closures: emits an event if the minimum changes. -/
def Conjunction.consume (c : Conjunction) (nextTime : ℤ) (amountA amountB : Coins) :
    Conjunction :=
  let totalA := c.totalAmountPeriodsA + amountA
  let totalB := c.totalAmountPeriodsB + amountB
  let updated := { c with totalAmountPeriodsA := totalA, totalAmountPeriodsB := totalB }
  let least := totalA.min totalB
  if c.amount.isAllLTE least then
    -- Under this guard the subtraction of the source cannot panic.
    let diff := least - c.amount
    if diff.isZero then updated else updated.emit nextTime diff
  else updated

/-- `consumeA` of `ConjunctPeriods`. -/
def Conjunction.consumeA (c : Conjunction) (nextTime : ℤ) (amount : Coins) : Conjunction :=
  c.consume nextTime amount 0

/-- `consumeB` of `ConjunctPeriods`. -/
def Conjunction.consumeB (c : Conjunction) (nextTime : ℤ) (amount : Coins) : Conjunction :=
  c.consume nextTime 0 amount

/-- `consumeBoth` of `ConjunctPeriods`. -/
def Conjunction.consumeBoth (c : Conjunction) (nextTime : ℤ) (amountA amountB : Coins) :
    Conjunction :=
  c.consume nextTime amountA amountB

/-- The three loops of `ConjunctPeriods`, with the times of the last processed events. -/
def conjunctLoop : Conjunction → ℤ → ℤ → Periods → Periods → Conjunction
  -- While there are events left in both schedules, process the next one.
  | c, timeA, timeB, a :: as, b :: bs =>
    if timeA + a.length < timeB + b.length then
      conjunctLoop (c.consumeA (timeA + a.length) a.amount) (timeA + a.length) timeB as (b :: bs)
    else if timeA + a.length > timeB + b.length then
      conjunctLoop (c.consumeB (timeB + b.length) b.amount) timeA (timeB + b.length) (a :: as) bs
    else
      conjunctLoop (c.consumeBoth (timeA + a.length) a.amount b.amount)
        (timeA + a.length) (timeA + a.length) as bs
  -- Consume the remaining events of schedule A.
  | c, timeA, timeB, a :: as, [] =>
    conjunctLoop (c.consumeA (timeA + a.length) a.amount) (timeA + a.length) timeB as []
  -- Consume the remaining events of schedule B.
  | c, timeA, timeB, [], b :: bs =>
    conjunctLoop (c.consumeB (timeB + b.length) b.amount) timeA (timeB + b.length) [] bs
  | c, _, _, [], [] => c
termination_by _ _ _ as bs => as.length + bs.length

/-- `ConjunctPeriods`: the minimum of two schedules, as start time, end time, and periods. -/
def conjunctPeriods (startTimePeriodA startTimePeriodB : ℤ) (periodsA periodsB : Periods) :
    ℤ × ℤ × Periods :=
  let startTime := min startTimePeriodA startTimePeriodB
  let c := conjunctLoop ⟨startTime, 0, 0, 0, []⟩ startTimePeriodA startTimePeriodB
    periodsA periodsB
  (startTime, c.time, c.conjunctionPeriods)

/-- Extends the first period, if there is one. -/
def extendFirst (extension : ℤ) : Periods → Periods
  | [] => []
  | period :: rest => { period with length := period.length + extension } :: rest

/--
`AlignSchedules`: extends the first periods so that both schedules start at the earlier time.

The source changes the two slices in place, so the model returns them after the start and end.
-/
def alignSchedules (startTimePeriodA startTimePeriodB : ℤ) (periodsA periodsB : Periods) :
    ℤ × ℤ × Periods × Periods :=
  let startTime := min startTimePeriodA startTimePeriodB
  let alignedA := extendFirst (startTimePeriodA - startTime) periodsA
  let alignedB := extendFirst (startTimePeriodB - startTime) periodsB
  let endPeriodsA := startTime + totalLength alignedA
  let endPeriodsB := startTime + totalLength alignedB
  (startTime, max endPeriodsA endPeriodsB, alignedA, alignedB)

end Evmos.Vesting
