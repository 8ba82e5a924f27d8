import Evmos.Sdk.Types

/-! Durations of sixty-four bits, whose sums wrap and which differences of instants saturate. -/

namespace Evmos

/-- `time.Duration`: a number of nanoseconds. -/
abbrev Duration := Int64

/-- `Time.Add`. Instants are wide enough for every sum. -/
def timeAdd (time : Time) (duration : Duration) : Time := time + duration.toInt

/-- `Time.Sub`: the longest duration, or the shortest one, if the difference does not fit. -/
def timeSub (time start : Time) : Duration := Int64.ofIntClamp (time - start)

/-- A difference that is not negative is exact, up to the longest duration. -/
theorem toInt_timeSub {time start : Time} (order : start ≤ time) :
    (timeSub time start).toInt = min (time - start) (2 ^ 63 - 1) := by
  have elapsed := Int.sub_nonneg.mpr order
  -- Only the upper end of the range can be in the way.
  have low : Int64.minValue.toInt ≤ time - start := by
    have least : Int64.minValue.toInt = -2 ^ 63 := by decide
    omega
  have greatest : Int64.maxValue.toInt = 2 ^ 63 - 1 := by decide
  rw [timeSub, ← greatest]
  by_cases fits : time - start ≤ Int64.maxValue.toInt
  · rw [Int64.toInt_ofIntClamp low fits, min_eq_left fits]
  · rw [Int64.ofIntClamp, dif_pos low, dif_neg fits, min_eq_right (not_le.mp fits).le]

/-- A sum of positive durations is exact if it fits, and negative otherwise. -/
theorem toInt_add_of_pos {first second : Duration} (positive : 0 < first.toInt)
    (more : 0 < second.toInt) :
    (first + second).toInt = if first.toInt + second.toInt < 2 ^ 63 then
      first.toInt + second.toInt else first.toInt + second.toInt - 2 ^ 64 := by
  -- Neither is longer than the range, so the sum wraps at most once.
  have short := first.toInt_lt
  have shortToo := second.toInt_lt
  rw [Int64.toInt_add, Int.bmod_def]
  split_ifs <;> omega

end Evmos
