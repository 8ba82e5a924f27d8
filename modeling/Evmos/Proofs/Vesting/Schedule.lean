import Evmos.Library.Interleave
import Evmos.Vesting.Schedule

/-! What reading, merging, and capping a schedule compute, in terms of its events. -/

namespace Evmos.Vesting

open Library

variable {startTime nextTime : ℤ} {c : Conjunction} {periods : Periods}
  {joints : List (Joint Coins)} {totalCoins : Coins}

/-- The reading loop adds up exactly the events that have come. -/
theorem readPeriods_eq (forward : Forward periods) (readTime elapsed : ℤ) (coins : Coins) :
    readPeriods readTime coins elapsed periods =
      coins + readAt (eventsFrom elapsed periods) readTime := by
  induction periods generalizing coins elapsed with
  | nil => simp [readPeriods, eventsFrom]
  | cons period rest ih =>
    obtain ⟨head, tail⟩ := (forward_cons period rest).mp forward
    rw [readPeriods]
    split_ifs with future
    · -- Every later period ends no earlier than the one in the future, so none of them counts.
      have nothing : readAt (eventsFrom elapsed (period :: rest)) readTime = 0 := by
        refine readAt_before fun event member => ?_
        simp only [eventsFrom, List.mem_cons] at member
        rcases member with rfl | member
        · exact future
        · exact future.trans_le (tail.event_bounds member).1
      rw [nothing, add_zero]
    · rw [ih tail, eventsFrom, readAt_cons, if_pos (not_lt.mp future), add_assoc]

private theorem countPeriods_add (readTime elapsed : ℤ) (passed : ℕ) (periods : Periods) :
    countPeriods readTime passed elapsed periods =
      passed + countPeriods readTime 0 elapsed periods := by
  induction periods generalizing elapsed passed with
  | nil => simp [countPeriods]
  | cons period rest ih =>
    simp only [countPeriods]
    -- The loop ends, or counts one period more on both sides.
    split_ifs
    · simp
    · rw [ih _ (passed + 1), ih _ (0 + 1)]
      omega

/-- The periods counted as passed are those whose events have come. -/
theorem eventsFrom_take_countPeriods (forward : Forward periods) (readTime elapsed : ℤ) :
    eventsFrom elapsed (periods.take (countPeriods readTime 0 elapsed periods)) =
      (eventsFrom elapsed periods).filter fun event => event.1 ≤ readTime := by
  induction periods generalizing elapsed with
  | nil => rfl
  | cons period rest ih =>
    obtain ⟨head, tail⟩ := (forward_cons period rest).mp forward
    rw [countPeriods]
    split_ifs with future
    · -- The count stops at the first event in the future, and all later ones are there too.
      refine (List.filter_eq_nil_iff.mpr fun event member => ?_).symm
      simp only [eventsFrom, List.mem_cons] at member
      simp only [decide_eq_true_eq, not_le]
      rcases member with rfl | member
      · exact future
      · exact future.trans_le (tail.event_bounds member).1
    · rw [countPeriods_add, zero_add, Nat.add_comm, List.take_succ_cons, eventsFrom, ih tail,
        eventsFrom, List.filter_cons_of_pos (by simpa using future)]

/--
The two shortcuts of `ReadSchedule` agree with its loop.

The end time must not come before the last event, and the total must be the sum of all events.
At the start itself a period of length zero has ended, so the start has to be left out.
-/
theorem readSchedule_eq (forward : Forward periods) {endTime readTime : ℤ}
    (ended : startTime + totalLength periods ≤ endTime)
    (complete : totalAmount periods = totalCoins) (notStart : readTime ≠ startTime) :
    readSchedule startTime endTime periods totalCoins readTime =
      readAt (eventsFrom startTime periods) readTime := by
  rw [readSchedule]
  split_ifs with early late
  · -- Forward periods end no earlier than the start.
    refine (readAt_before fun event member => ?_).symm
    have := (forward.event_bounds member).1
    omega
  · -- All events have come by the end time.
    have due : ∀ event ∈ eventsFrom startTime periods, event.1 ≤ readTime := fun event member =>
      ((forward.event_bounds member).2.trans ended).trans late
    rw [readAt_after due, totalOf_eventsFrom, complete]
  · rw [readPeriods_eq forward, zero_add]

/-- The passed periods hold exactly the coins the schedule reads. -/
theorem totalAmount_passed (forward : Forward periods) (complete : totalAmount periods = totalCoins)
    (startTime endTime readTime : ℤ) :
    totalAmount (periods.take (readPastPeriodCount startTime endTime periods readTime)) =
      readSchedule startTime endTime periods totalCoins readTime := by
  -- Both functions take the same shortcuts, and otherwise stop at the same period.
  rw [readPastPeriodCount, readSchedule]
  split_ifs with early late
  · simp
  · rw [List.take_length, complete]
  · rw [← totalOf_eventsFrom startTime, eventsFrom_take_countPeriods forward,
      readPeriods_eq forward, zero_add]
    rfl

/-- The passed periods alone read as the whole schedule, held at its value at the read time. -/
theorem readAt_passed (forward : Forward periods) {endTime readTime : ℤ}
    (ended : startTime + totalLength periods ≤ endTime)
    (complete : totalAmount periods = totalCoins) (time : ℤ) :
    readAt (eventsFrom startTime
        (periods.take (readPastPeriodCount startTime endTime periods readTime))) time =
      readAt (eventsFrom startTime periods) time ⊓
        readSchedule startTime endTime periods totalCoins readTime := by
  by_cases early : readTime ≤ startTime
  · simp [readPastPeriodCount, readSchedule, early, eventsFrom]
  rw [readSchedule_eq forward ended complete (by omega), readPastPeriodCount, if_neg early]
  split_ifs with late
  · -- Everything has passed, so nothing is cut off.
    have due : ∀ event ∈ eventsFrom startTime periods, event.1 ≤ readTime := fun event member =>
      ((forward.event_bounds member).2.trans ended).trans late
    rw [List.take_length, readAt_after due]
    exact (inf_eq_left.mpr (readAt_le_totalOf _ _)).symm
  · rw [eventsFrom_take_countPeriods forward, readAt_filter, readAt_min, inf_comm]

/-- A returned schedule starts where it should, ends with its last period, and holds a total. -/
structure IsSchedule (schedule : ℤ × ℤ × Periods) (startTime : ℤ) (total : Coins) : Prop where
  /-- The start time. -/
  starts : schedule.1 = startTime
  /-- The end time is that of the last period. -/
  ends : schedule.2.1 = startTime + totalLength schedule.2.2
  /-- No period has a negative length. -/
  forward : Forward schedule.2.2
  /-- The coins of all periods. -/
  total : totalAmount schedule.2.2 = total

theorem disjunctLoop_eq (d : Disjunction) (timeA timeB : ℤ) (as bs : Periods) :
    disjunctLoop d timeA timeB as bs =
      (interleave timeA timeB as bs).foldl
        (fun d joint => d.emit joint.time (joint.left + joint.right)) d := by
  -- One case for each branch of the three loops of the source.
  fun_induction disjunctLoop d timeA timeB as bs with
  | case1 d timeA timeB a as b bs earlier ih =>
    rw [ih, interleave, if_pos earlier, List.foldl_cons, add_zero]
  | case2 d timeA timeB a as b bs notLess earlier ih =>
    rw [ih, interleave, if_neg notLess, if_pos earlier, List.foldl_cons, zero_add]
  | case3 d timeA timeB a as b bs notLess notMore ih =>
    rw [ih, interleave, if_neg notLess, if_neg notMore, List.foldl_cons]
  | case4 d timeA timeB a as ih => rw [ih, interleave, List.foldl_cons, add_zero]
  | case5 d timeA timeB b bs ih => rw [ih, interleave, List.foldl_cons, zero_add]
  | case6 d timeA timeB => rw [interleave, List.foldl_nil]

/-- A disjunction under construction ends where its periods end, and never steps back. -/
structure Disjunction.Valid (startTime : ℤ) (d : Disjunction) : Prop where
  /-- The last event time is the end of the emitted periods. -/
  ends : d.endTime = startTime + totalLength d.periods
  /-- No emitted period has a negative length. -/
  forward : Forward d.periods

theorem Disjunction.Valid.emit {d : Disjunction} (valid : d.Valid startTime)
    (order : d.endTime ≤ nextTime) (amount : Coins) :
    (d.emit nextTime amount).Valid startTime where
  ends := by
    -- The new period is as long as the time since the last event.
    have := valid.ends
    simp only [Disjunction.emit, totalLength_append, totalLength_cons, totalLength_nil]
    omega
  forward := by
    simp only [Disjunction.emit, forward_append, forward_cons, forward_nil, and_true]
    exact ⟨valid.forward, by omega⟩

/-- Emitting a whole ordered visit keeps a disjunction valid and adds both sides' amounts. -/
theorem Disjunction.Valid.foldl {d : Disjunction} (valid : d.Valid startTime)
    (ordered : OrderedFrom d.endTime joints) :
    let result := joints.foldl (fun d joint => d.emit joint.time (joint.left + joint.right)) d
    result.Valid startTime ∧
      totalAmount result.periods =
        totalAmount d.periods + totalOf (lefts joints) + totalOf (rights joints) := by
  induction joints generalizing d with
  | nil => simpa [lefts, rights] using valid
  | cons joint joints ih =>
    -- Each event is not before the last one, which is the end so far.
    obtain ⟨order, rest⟩ := ordered
    obtain ⟨stillValid, amounts⟩ :=
      ih (valid.emit order (joint.left + joint.right)) rest
    refine ⟨stillValid, amounts.trans ?_⟩
    simp only [Disjunction.emit, totalAmount_append, totalAmount_cons, totalAmount_nil, lefts,
      rights, List.map_cons, totalOf_cons]
    abel

theorem disjunctPeriods_spec (startA startB : ℤ) {periodsA periodsB : Periods}
    (forwardA : Forward periodsA) (forwardB : Forward periodsB) :
    IsSchedule (disjunctPeriods startA startB periodsA periodsB) (min startA startB)
      (totalAmount periodsA + totalAmount periodsB) := by
  have initial : Disjunction.Valid (min startA startB) ⟨min startA startB, []⟩ :=
    ⟨by simp, by simp⟩
  obtain ⟨valid, amounts⟩ := initial.foldl
    (interleave_ordered_min startA startB forwardA forwardB)
  rw [← disjunctLoop_eq] at valid amounts
  refine ⟨rfl, valid.ends, valid.forward, ?_⟩
  -- The visit loses no event of either side.
  rw [totalOf_lefts, totalOf_rights, totalAmount_nil, zero_add] at amounts
  exact amounts

theorem conjunctLoop_eq (c : Conjunction) (timeA timeB : ℤ) (as bs : Periods) :
    conjunctLoop c timeA timeB as bs =
      (interleave timeA timeB as bs).foldl
        (fun c joint => c.consume joint.time joint.left joint.right) c := by
  -- One case for each branch of the three loops of the source.
  fun_induction conjunctLoop c timeA timeB as bs with
  | case1 c timeA timeB a as b bs earlier ih =>
    rw [ih, interleave, if_pos earlier, List.foldl_cons, Conjunction.consumeA]
  | case2 c timeA timeB a as b bs notLess earlier ih =>
    rw [ih, interleave, if_neg notLess, if_pos earlier, List.foldl_cons, Conjunction.consumeB]
  | case3 c timeA timeB a as b bs notLess notMore ih =>
    rw [ih, interleave, if_neg notLess, if_neg notMore, List.foldl_cons, Conjunction.consumeBoth]
  | case4 c timeA timeB a as ih => rw [ih, interleave, List.foldl_cons, Conjunction.consumeA]
  | case5 c timeA timeB b bs ih => rw [ih, interleave, List.foldl_cons, Conjunction.consumeB]
  | case6 c timeA timeB => rw [interleave, List.foldl_nil]

/-- A conjunction under construction has emitted the minimum of what it has seen. -/
structure Conjunction.Valid (startTime : ℤ) (c : Conjunction) : Prop where
  /-- The last event time is the end of the emitted periods. -/
  ends : c.time = startTime + totalLength c.conjunctionPeriods
  /-- No emitted period has a negative length. -/
  forward : Forward c.conjunctionPeriods
  /-- The emitted periods add up to the recorded amount. -/
  emitted : totalAmount c.conjunctionPeriods = c.amount
  /-- The recorded amount is the minimum of both sides. -/
  least : c.amount = c.totalAmountPeriodsA ⊓ c.totalAmountPeriodsB

theorem Conjunction.valid_initial (startTime : ℤ) :
    Conjunction.Valid startTime ⟨startTime, 0, 0, 0, []⟩ :=
  ⟨by simp, by simp, by simp, by simp⟩

/-- Consuming an event that leaves the minimum as it is only adds to the totals. -/
theorem Conjunction.consume_of_same (c : Conjunction) {amountA amountB : Coins}
    (same : c.amount = (c.totalAmountPeriodsA + amountA) ⊓ (c.totalAmountPeriodsB + amountB)) :
    c.consume nextTime amountA amountB =
      { c with
        totalAmountPeriodsA := c.totalAmountPeriodsA + amountA
        totalAmountPeriodsB := c.totalAmountPeriodsB + amountB } := by
  simp [Conjunction.consume, Coins.min, ← same]

/-- Consuming an event that raises the minimum emits what it was raised by. -/
theorem Conjunction.consume_of_lt (c : Conjunction) {amountA amountB : Coins}
    (grows : c.amount ≤ (c.totalAmountPeriodsA + amountA) ⊓ (c.totalAmountPeriodsB + amountB))
    (more : ¬(c.totalAmountPeriodsA + amountA) ⊓ (c.totalAmountPeriodsB + amountB) ≤ c.amount) :
    c.consume nextTime amountA amountB =
      Conjunction.emit
        { c with
          totalAmountPeriodsA := c.totalAmountPeriodsA + amountA
          totalAmountPeriodsB := c.totalAmountPeriodsB + amountB }
        nextTime
        ((c.totalAmountPeriodsA + amountA) ⊓ (c.totalAmountPeriodsB + amountB) - c.amount) := by
  -- The guard holds, and the difference is not zero.
  have raised : ¬((c.totalAmountPeriodsA + amountA) ⊓ (c.totalAmountPeriodsB + amountB)
      - c.amount).isZero = true := by
    rwa [Coins.isZero_iff, tsub_eq_zero_iff_le]
  simp only [Conjunction.consume, Coins.min, (Coins.isAllLTE_iff _ _).mpr grows, if_true]
  exact if_neg raised

/-- Both totals only grow, so the minimum never falls below what was already emitted. -/
theorem Conjunction.Valid.grows (valid : c.Valid startTime) (amountA amountB : Coins) :
    c.amount ≤ (c.totalAmountPeriodsA + amountA) ⊓ (c.totalAmountPeriodsB + amountB) := by
  rw [valid.least]
  exact inf_le_inf (le_add_of_nonneg_right zero_le) (le_add_of_nonneg_right zero_le)

/-- Consuming an event that is not in the past keeps a conjunction valid and adds to its totals. -/
theorem Conjunction.Valid.consume (valid : c.Valid startTime) (order : c.time ≤ nextTime)
    (amountA amountB : Coins) :
    (c.consume nextTime amountA amountB).Valid startTime ∧
      (c.consume nextTime amountA amountB).time ≤ nextTime ∧
      (c.consume nextTime amountA amountB).totalAmountPeriodsA = c.totalAmountPeriodsA + amountA ∧
      (c.consume nextTime amountA amountB).totalAmountPeriodsB =
        c.totalAmountPeriodsB + amountB := by
  have grows := valid.grows amountA amountB
  have ends := valid.ends
  by_cases same : (c.totalAmountPeriodsA + amountA) ⊓ (c.totalAmountPeriodsB + amountB) ≤ c.amount
  · -- Nothing is emitted when the minimum has not changed.
    rw [c.consume_of_same (le_antisymm grows same)]
    exact ⟨⟨ends, valid.forward, valid.emitted, le_antisymm grows same⟩, order, rfl, rfl⟩
  · rw [c.consume_of_lt grows same]
    refine ⟨⟨?_, ?_, ?_, ?_⟩, le_rfl, rfl, rfl⟩
    · simp only [Conjunction.emit, totalLength_append, totalLength_cons, totalLength_nil]
      omega
    · simp only [Conjunction.emit, forward_append, forward_cons, forward_nil, and_true]
      exact ⟨valid.forward, by omega⟩
    · simp only [Conjunction.emit, totalAmount_append, totalAmount_cons, totalAmount_nil,
        add_zero, valid.emitted]
    · exact add_tsub_cancel_of_le grows

/-- An event counts at the times from its own on, with what it raises the minimum by. -/
theorem Conjunction.Valid.readAt_consume (valid : c.Valid startTime) (nextTime time : ℤ)
    (amountA amountB : Coins) :
    readAt (eventsFrom startTime (c.consume nextTime amountA amountB).conjunctionPeriods) time =
      readAt (eventsFrom startTime c.conjunctionPeriods) time +
        if nextTime ≤ time then (c.consume nextTime amountA amountB).amount - c.amount else 0 := by
  have grows := valid.grows amountA amountB
  by_cases same : (c.totalAmountPeriodsA + amountA) ⊓ (c.totalAmountPeriodsB + amountB) ≤ c.amount
  · rw [c.consume_of_same (le_antisymm grows same)]
    simp
  · -- The emitted period ends at the event, since the last one ended at the recorded time.
    have instant : startTime + totalLength c.conjunctionPeriods + (nextTime - c.time) = nextTime := by
      rw [← valid.ends]
      omega
    rw [c.consume_of_lt grows same]
    simp only [Conjunction.emit, eventsFrom_append, eventsFrom, instant, readAt_append, readAt_cons,
      readAt_nil, add_zero, add_tsub_cancel_left]

/-- Consuming a whole ordered visit keeps a conjunction valid and adds both sides' amounts. -/
theorem Conjunction.Valid.foldl {bound : ℤ} (valid : c.Valid startTime) (before : c.time ≤ bound)
    (ordered : OrderedFrom bound joints) :
    let result := joints.foldl (fun c joint => c.consume joint.time joint.left joint.right) c
    result.Valid startTime ∧
      result.totalAmountPeriodsA = c.totalAmountPeriodsA + totalOf (lefts joints) ∧
      result.totalAmountPeriodsB = c.totalAmountPeriodsB + totalOf (rights joints) := by
  induction joints generalizing c bound with
  | nil => simpa [lefts, rights] using valid
  | cons joint joints ih =>
    obtain ⟨order, rest⟩ := ordered
    -- The times grow along the visit, so each step is in order.
    obtain ⟨stillValid, inPast, totalA, totalB⟩ :=
      valid.consume (before.trans order) joint.left joint.right
    obtain ⟨result, resultA, resultB⟩ := ih stillValid inPast rest
    refine ⟨result, resultA.trans ?_, resultB.trans ?_⟩
    · simp only [totalA, lefts, List.map_cons, totalOf_cons, add_assoc]
    · simp only [totalB, rights, List.map_cons, totalOf_cons, add_assoc]

theorem Conjunction.Valid.readAt_foldl_later {time : ℤ} {bound : ℤ} (valid : c.Valid startTime)
    (before : c.time ≤ bound) (ordered : OrderedFrom bound joints)
    (later : ∀ joint ∈ joints, time < joint.time) :
    let result := joints.foldl (fun c joint => c.consume joint.time joint.left joint.right) c
    readAt (eventsFrom startTime result.conjunctionPeriods) time =
      readAt (eventsFrom startTime c.conjunctionPeriods) time := by
  induction joints generalizing c bound with
  | nil => rfl
  | cons joint joints ih =>
    obtain ⟨order, rest⟩ := ordered
    obtain ⟨first, others⟩ := List.forall_mem_cons.mp later
    obtain ⟨stillValid, inPast, -⟩ := valid.consume (before.trans order) joint.left joint.right
    refine (ih stillValid inPast rest others).trans ?_
    -- A step emits at its own time, which is after the reading.
    rw [valid.readAt_consume, if_neg (not_le.mpr first), add_zero]

/--
A conjunction that has emitted everything it read so far goes on to read the minimum of both sides.
-/
theorem Conjunction.Valid.readAt_foldl {time : ℤ} {bound : ℤ} (valid : c.Valid startTime)
    (before : c.time ≤ bound) (ordered : OrderedFrom bound joints)
    (current : readAt (eventsFrom startTime c.conjunctionPeriods) time = c.amount) :
    let result := joints.foldl (fun c joint => c.consume joint.time joint.left joint.right) c
    readAt (eventsFrom startTime result.conjunctionPeriods) time =
      (c.totalAmountPeriodsA + readAt (lefts joints) time) ⊓
        (c.totalAmountPeriodsB + readAt (rights joints) time) := by
  induction joints generalizing c bound with
  | nil => simpa [lefts, rights, ← valid.least] using current
  | cons joint joints ih =>
    by_cases due : joint.time ≤ time
    · -- An event that has come is read in full, so the conjunction stays current.
      obtain ⟨order, rest⟩ := ordered
      obtain ⟨stillValid, inPast, totalA, totalB⟩ :=
        valid.consume (before.trans order) joint.left joint.right
      have grown : c.amount ≤ (c.consume joint.time joint.left joint.right).amount := by
        rw [stillValid.least, totalA, totalB]
        exact valid.grows _ _
      have stillCurrent := valid.readAt_consume joint.time time joint.left joint.right
      rw [if_pos due, current, add_tsub_cancel_of_le grown] at stillCurrent
      refine (ih stillValid inPast rest stillCurrent).trans ?_
      rw [totalA, totalB]
      simp only [lefts, rights, List.map_cons, readAt_cons, if_pos due, add_assoc]
    · -- From here on nothing has come on either side.
      have onwards : OrderedFrom joint.time (joint :: joints) := ⟨le_rfl, ordered.2⟩
      have later : ∀ other ∈ joint :: joints, time < other.time := fun other member =>
        (not_le.mp due).trans_le (onwards.bound_le member)
      have nothing : readAt (lefts (joint :: joints)) time = 0 ∧
          readAt (rights (joint :: joints)) time = 0 := by
        constructor <;> refine readAt_before fun event member => ?_ <;>
          obtain ⟨other, otherMember, rfl⟩ := List.mem_map.mp member <;>
          exact later other otherMember
      refine (valid.readAt_foldl_later before ordered later).trans ?_
      rw [nothing.1, nothing.2, add_zero, add_zero, current, valid.least]

/-- The schedule `ConjunctPeriods` returns holds the smaller total, from the earlier start on. -/
theorem conjunctPeriods_spec (startA startB : ℤ) {periodsA periodsB : Periods}
    (forwardA : Forward periodsA) (forwardB : Forward periodsB) :
    IsSchedule (conjunctPeriods startA startB periodsA periodsB) (min startA startB)
      (totalAmount periodsA ⊓ totalAmount periodsB) := by
  obtain ⟨valid, totalA, totalB⟩ := (Conjunction.valid_initial _).foldl le_rfl
    (interleave_ordered_min startA startB forwardA forwardB)
  rw [← conjunctLoop_eq] at valid totalA totalB
  refine ⟨rfl, valid.ends, valid.forward, ?_⟩
  rw [totalOf_lefts, zero_add] at totalA
  rw [totalOf_rights, zero_add] at totalB
  -- What was emitted is the minimum of what both sides have released.
  have emitted := valid.emitted.trans valid.least
  rwa [totalA, totalB] at emitted

/-- `ConjunctPeriods` emits an event only when the minimum changes. -/
theorem conjunctPeriods_nonzero (startA startB : ℤ) (periodsA periodsB : Periods) :
    ∀ period ∈ (conjunctPeriods startA startB periodsA periodsB).2.2, period.amount ≠ 0 := by
  have emitted : ∀ (joints : List (Joint Coins)) (c : Conjunction),
      (∀ period ∈ c.conjunctionPeriods, period.amount ≠ 0) →
        ∀ period ∈ (joints.foldl (fun c joint => c.consume joint.time joint.left joint.right)
          c).conjunctionPeriods, period.amount ≠ 0 := by
    intro joints
    induction joints with
    | nil => exact fun c before => before
    | cons joint joints ih =>
      intro c before
      refine ih _ ?_
      intro period member
      simp only [Conjunction.consume] at member
      split_ifs at member with grows same
      · exact before period member
      · rcases List.mem_append.mp member with member | member
        · exact before period member
        · -- The emitted difference has just been compared with zero.
          obtain rfl := List.mem_singleton.mp member
          exact fun zero => same ((Coins.isZero_iff _).mpr zero)
      · exact before period member
  have all := emitted (interleave startA startB periodsA periodsB)
    ⟨min startA startB, 0, 0, 0, []⟩ (by simp)
  rwa [← conjunctLoop_eq] at all

theorem conjunctPeriods_readAt (startA startB : ℤ) {periodsA periodsB : Periods}
    (forwardA : Forward periodsA) (forwardB : Forward periodsB) (time : ℤ) :
    readAt (eventsFrom (min startA startB)
        (conjunctPeriods startA startB periodsA periodsB).2.2) time =
      readAt (eventsFrom startA periodsA) time ⊓ readAt (eventsFrom startB periodsB) time := by
  -- Before the visit nothing is read on either side.
  have reading := (Conjunction.valid_initial _).readAt_foldl le_rfl
    (interleave_ordered_min startA startB forwardA forwardB) (readAt_nil time)
  simp only [← conjunctLoop_eq, readAt_lefts, readAt_rights, zero_add] at reading
  exact reading

end Evmos.Vesting
