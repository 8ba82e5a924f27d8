import Evmos.Library.Union
import Evmos.Proofs.Vesting.Schedule

/-! Read at any time, a conjunction is the minimum of two schedules and a disjunction their sum. -/

namespace Evmos.Vesting

open Library

/-- `ReadSchedule` of a schedule with its own end and its own total. -/
def readOwn (startTime : ℤ) (periods : Periods) (readTime : ℤ) : Coins :=
  readSchedule startTime (startTime + totalLength periods) periods (totalAmount periods) readTime

/-- Up to its start a schedule reads as empty, and afterwards as its events. -/
theorem readOwn_eq {periods : Periods} (forward : Forward periods) (startTime readTime : ℤ) :
    readOwn startTime periods readTime =
      if readTime ≤ startTime then 0 else readAt (eventsFrom startTime periods) readTime := by
  split_ifs with early
  · exact if_pos early
  · exact readSchedule_eq forward le_rfl rfl (by omega)

/-- Before its start a schedule has no events, so that its own reading is that of its events. -/
theorem readOwn_of_ne {periods : Periods} (forward : Forward periods) {startTime readTime : ℤ}
    (notStart : readTime ≠ startTime) :
    readOwn startTime periods readTime = readAt (eventsFrom startTime periods) readTime :=
  readSchedule_eq forward le_rfl rfl notStart

theorem IsSchedule.readSchedule_eq {schedule : ℤ × ℤ × Periods} {startTime : ℤ} {total : Coins}
    (merged : IsSchedule schedule startTime total) (readTime : ℤ) :
    readSchedule schedule.1 schedule.2.1 schedule.2.2 (totalAmount schedule.2.2) readTime =
      readOwn startTime schedule.2.2 readTime := by
  rw [merged.ends, merged.starts, readOwn]

private theorem readOwn_at_min {startA startB readTime : ℤ} (periodsA periodsB : Periods)
    (start : readTime = min startA startB) :
    readOwn startA periodsA readTime = 0 ∧ readOwn startB periodsB readTime = 0 :=
  ⟨if_pos (start ▸ min_le_left _ _), if_pos (start ▸ min_le_right _ _)⟩

private theorem ne_starts {startA startB time : ℤ} (notLater : time ≠ max startA startB)
    (notEarlier : time ≠ min startA startB) : time ≠ startA ∧ time ≠ startB := by
  omega

/-- The guard `amount.IsAllLTE(min)` that a consume closure tests at an event. -/
def Conjunction.guard (c : Conjunction) (amountA amountB : Coins) : Bool :=
  c.amount.isAllLTE ((c.totalAmountPeriodsA + amountA).min (c.totalAmountPeriodsB + amountB))

/-- The guards that the three loops of `ConjunctPeriods` test, one for each event they consume. -/
def conjunctGuards : Conjunction → ℤ → ℤ → Periods → Periods → List Bool
  | c, timeA, timeB, a :: as, b :: bs =>
    if timeA + a.length < timeB + b.length then
      c.guard a.amount 0 ::
        conjunctGuards (c.consumeA (timeA + a.length) a.amount) (timeA + a.length) timeB as (b :: bs)
    else if timeA + a.length > timeB + b.length then
      c.guard 0 b.amount ::
        conjunctGuards (c.consumeB (timeB + b.length) b.amount) timeA (timeB + b.length) (a :: as) bs
    else
      c.guard a.amount b.amount ::
        conjunctGuards (c.consumeBoth (timeA + a.length) a.amount b.amount)
          (timeA + a.length) (timeA + a.length) as bs
  | c, timeA, timeB, a :: as, [] =>
    c.guard a.amount 0 ::
      conjunctGuards (c.consumeA (timeA + a.length) a.amount) (timeA + a.length) timeB as []
  | c, timeA, timeB, [], b :: bs =>
    c.guard 0 b.amount ::
      conjunctGuards (c.consumeB (timeB + b.length) b.amount) timeA (timeB + b.length) [] bs
  | _, _, _, [], [] => []
termination_by _ _ _ as bs => as.length + bs.length

/-- Both totals only grow, so their minimum covers what it was before. -/
theorem Conjunction.guard_of_least {c : Conjunction}
    (least : c.amount = c.totalAmountPeriodsA ⊓ c.totalAmountPeriodsB) (amountA amountB : Coins) :
    c.guard amountA amountB = true := by
  rw [Conjunction.guard, Coins.isAllLTE_iff, least]
  exact inf_le_inf (le_add_of_nonneg_right zero_le) (le_add_of_nonneg_right zero_le)

/-- Whenever the events come, consuming one keeps the recorded amount at the minimum. -/
theorem Conjunction.consume_least {c : Conjunction}
    (least : c.amount = c.totalAmountPeriodsA ⊓ c.totalAmountPeriodsB) (nextTime : ℤ)
    (amountA amountB : Coins) :
    (c.consume nextTime amountA amountB).amount =
      (c.consume nextTime amountA amountB).totalAmountPeriodsA ⊓
        (c.consume nextTime amountA amountB).totalAmountPeriodsB := by
  have grows := (Coins.isAllLTE_iff _ _).mp (c.guard_of_least least amountA amountB)
  by_cases same : (c.totalAmountPeriodsA + amountA) ⊓ (c.totalAmountPeriodsB + amountB) ≤ c.amount
  · rw [c.consume_of_same (le_antisymm grows same)]
    exact le_antisymm grows same
  · -- What is emitted is exactly what the minimum was raised by.
    rw [c.consume_of_lt grows same]
    exact add_tsub_cancel_of_le grows

theorem conjunctGuards_hold {c : Conjunction} (timeA timeB : ℤ) (as bs : Periods)
    (least : c.amount = c.totalAmountPeriodsA ⊓ c.totalAmountPeriodsB) :
    ∀ guard ∈ conjunctGuards c timeA timeB as bs, guard = true := by
  -- Every consumed event leaves the minimum recorded for the next guard.
  fun_induction conjunctGuards c timeA timeB as bs with
  | case1 c timeA timeB a as b bs earlier ih =>
    exact List.forall_mem_cons.mpr ⟨c.guard_of_least least _ _, ih (c.consume_least least _ _ _)⟩
  | case2 c timeA timeB a as b bs notLess earlier ih =>
    exact List.forall_mem_cons.mpr ⟨c.guard_of_least least _ _, ih (c.consume_least least _ _ _)⟩
  | case3 c timeA timeB a as b bs notLess notMore ih =>
    exact List.forall_mem_cons.mpr ⟨c.guard_of_least least _ _, ih (c.consume_least least _ _ _)⟩
  | case4 c timeA timeB a as ih =>
    exact List.forall_mem_cons.mpr ⟨c.guard_of_least least _ _, ih (c.consume_least least _ _ _)⟩
  | case5 c timeA timeB b bs ih =>
    exact List.forall_mem_cons.mpr ⟨c.guard_of_least least _ _, ih (c.consume_least least _ _ _)⟩
  | case6 => simp

/-- The conjunction of the two schedules with their roles exchanged. -/
def Conjunction.swap (c : Conjunction) : Conjunction :=
  { c with
    totalAmountPeriodsA := c.totalAmountPeriodsB
    totalAmountPeriodsB := c.totalAmountPeriodsA }

theorem Conjunction.swap_consume (c : Conjunction) (nextTime : ℤ) (amountA amountB : Coins) :
    (c.consume nextTime amountA amountB).swap = c.swap.consume nextTime amountB amountA := by
  -- The minimum is symmetric, and the branches only differ in which total is which.
  have least : Coins.min (c.totalAmountPeriodsB + amountB) (c.totalAmountPeriodsA + amountA) =
      Coins.min (c.totalAmountPeriodsA + amountA) (c.totalAmountPeriodsB + amountB) := inf_comm _ _
  rw [Conjunction.consume, Conjunction.consume]
  simp only [Conjunction.swap, least]
  split_ifs <;> rfl

/-- The loops of `ConjunctPeriods` do not tell the two schedules apart. -/
theorem conjunctLoop_swap (c : Conjunction) (timeA timeB : ℤ) (as bs : Periods) :
    (conjunctLoop c timeA timeB as bs).swap = conjunctLoop c.swap timeB timeA bs as := by
  fun_induction conjunctLoop c timeA timeB as bs with
  | case1 c timeA timeB a as b bs earlier ih =>
    rw [ih, Conjunction.consumeA, c.swap_consume, conjunctLoop, if_neg (by omega), if_pos earlier,
      Conjunction.consumeB]
  | case2 c timeA timeB a as b bs notLess earlier ih =>
    rw [ih, Conjunction.consumeB, c.swap_consume, conjunctLoop, if_pos earlier,
      Conjunction.consumeA]
  | case3 c timeA timeB a as b bs notLess notMore ih =>
    -- Simultaneous events have one instant, whichever schedule names it.
    have same : timeB + b.length = timeA + a.length := by omega
    rw [ih, Conjunction.consumeBoth, c.swap_consume, conjunctLoop, if_neg (by omega),
      if_neg (by omega), Conjunction.consumeBoth, same]
  | case4 c timeA timeB a as ih =>
    rw [ih, Conjunction.consumeA, c.swap_consume, conjunctLoop, Conjunction.consumeB]
  | case5 c timeA timeB b bs ih =>
    rw [ih, Conjunction.consumeB, c.swap_consume, conjunctLoop, Conjunction.consumeA]
  | case6 c timeA timeB => rw [conjunctLoop]

theorem conjunctPeriods_comm (startA startB : ℤ) (periodsA periodsB : Periods) :
    conjunctPeriods startA startB periodsA periodsB =
      conjunctPeriods startB startA periodsB periodsA := by
  have swapped := conjunctLoop_swap ⟨min startA startB, 0, 0, 0, []⟩ startA startB periodsA periodsB
  simp only [conjunctPeriods, min_comm startB startA]
  -- Exchanging the roles touches neither the times nor the periods.
  have times := congrArg Conjunction.time swapped
  have periods := congrArg Conjunction.conjunctionPeriods swapped
  exact congrArg (Prod.mk _) (Prod.ext times periods)

variable {periodsA periodsB : Periods}

/-- `ConjunctPeriods` reads as the smaller of both readings at every time but the later start. -/
theorem readOwn_conjunctPeriods (startA startB : ℤ) (forwardA : Forward periodsA)
    (forwardB : Forward periodsB) {time : ℤ} (notLater : time ≠ max startA startB) :
    readOwn (min startA startB) (conjunctPeriods startA startB periodsA periodsB).2.2 time =
      readOwn startA periodsA time ⊓ readOwn startB periodsB time := by
  by_cases start : time = min startA startB
  · obtain ⟨emptyA, emptyB⟩ := readOwn_at_min periodsA periodsB start
    rw [emptyA, emptyB, inf_idem]
    exact if_pos start.le
  · -- Away from both starts all three readings are those of the events.
    obtain ⟨notA, notB⟩ := ne_starts notLater start
    rw [readOwn_of_ne (conjunctPeriods_spec startA startB forwardA forwardB).forward start,
      readOwn_of_ne forwardA notA, readOwn_of_ne forwardB notB]
    exact conjunctPeriods_readAt startA startB forwardA forwardB time

/-- `ConjunctPeriods` is the pointwise minimum of two schedules, and its guard never fails. -/
theorem conjunctPeriods_pointwise_min (startA startB : ℤ) {periodsA periodsB : Periods}
    (forwardA : Forward periodsA) (forwardB : Forward periodsB) :
    let result := conjunctPeriods startA startB periodsA periodsB
    result.1 = min startA startB ∧
      result.2.1 = result.1 + totalLength result.2.2 ∧
      (∀ period ∈ result.2.2, 0 ≤ period.length ∧ period.amount ≠ 0) ∧
      (∀ guard ∈ conjunctGuards ⟨min startA startB, 0, 0, 0, []⟩ startA startB periodsA periodsB,
        guard = true) ∧
      (∀ time, time ≠ max startA startB → ∀ denom,
        readSchedule result.1 result.2.1 result.2.2 (totalAmount result.2.2) time denom =
          min (readOwn startA periodsA time denom) (readOwn startB periodsB time denom)) ∧
      result = conjunctPeriods startB startA periodsB periodsA := by
  intro result
  have merged := conjunctPeriods_spec startA startB forwardA forwardB
  refine ⟨merged.starts, ?_, fun period member => ⟨merged.forward period member, ?_⟩, ?_, ?_, ?_⟩
  · rw [merged.ends, merged.starts]
  · exact conjunctPeriods_nonzero startA startB periodsA periodsB period member
  · exact conjunctGuards_hold startA startB periodsA periodsB (inf_idem 0).symm
  · -- At its own start a schedule reads as empty, so the later start is excepted.
    intro time notLater denom
    rw [merged.readSchedule_eq, readOwn_conjunctPeriods startA startB forwardA forwardB notLater]
    exact DFinsupp.inf_apply _ _ denom
  · exact conjunctPeriods_comm startA startB periodsA periodsB

/-- Two halves of a hundred coins, one after the other. -/
def twoHalves : Periods := [⟨10, Coins.ofCoin "aevmos" 50⟩, ⟨10, Coins.ofCoin "aevmos" 50⟩]

/-- Two halves that start later, with a second denomination at once. -/
def twoDenoms : Periods := [⟨0, Coins.ofCoin "uatom" 7⟩, ⟨15, Coins.ofCoin "aevmos" 60⟩]

/-- At the end of both schedules sixty of the hundred coins are left, and none of the other kind. -/
theorem twoHalves_capped_by_twoDenoms :
    let result := conjunctPeriods 0 5 twoHalves twoDenoms
    Forward twoHalves ∧ Forward twoDenoms ∧
      readSchedule result.1 result.2.1 result.2.2 (totalAmount result.2.2) 20 "aevmos" = 60 ∧
      readSchedule result.1 result.2.1 result.2.2 (totalAmount result.2.2) 20 "uatom" = 0 := by
  have forward : Forward twoHalves ∧ Forward twoDenoms := by simp [twoHalves, twoDenoms]
  -- Only the readings of the two arguments are computed.
  obtain ⟨-, -, -, -, reads, -⟩ := conjunctPeriods_pointwise_min 0 5 forward.1 forward.2
  exact ⟨forward.1, forward.2, (reads 20 (by decide) "aevmos").trans (by decide +kernel),
    (reads 20 (by decide) "uatom").trans (by decide +kernel)⟩

theorem eventsFrom_foldl_emit (startTime : ℤ) (joints : List (Joint Coins)) {d : Disjunction}
    (ends : d.endTime = startTime + totalLength d.periods) :
    eventsFrom startTime
        (joints.foldl (fun d joint => d.emit joint.time (joint.left + joint.right)) d).periods =
      eventsFrom startTime d.periods ++ joined joints := by
  induction joints generalizing d with
  | nil => simp [joined]
  | cons joint joints ih =>
    have next : (d.emit joint.time (joint.left + joint.right)).endTime =
        startTime + totalLength (d.emit joint.time (joint.left + joint.right)).periods := by
      simp only [Disjunction.emit, totalLength_append, totalLength_cons, totalLength_nil]
      omega
    -- The new period ends at the instant of the joint event.
    have instant : startTime + totalLength d.periods + (joint.time - d.endTime) = joint.time := by
      omega
    rw [List.foldl_cons, ih next]
    simp only [Disjunction.emit, eventsFrom_append, eventsFrom, instant, joined, List.map_cons,
      List.append_assoc, List.singleton_append]

theorem eventsFrom_disjunctPeriods (startA startB : ℤ) (periodsA periodsB : Periods) :
    eventsFrom (min startA startB) (disjunctPeriods startA startB periodsA periodsB).2.2 =
      joined (interleave startA startB periodsA periodsB) := by
  -- The loops emit what the common visit finds.
  have emitted := eventsFrom_foldl_emit (min startA startB)
    (interleave startA startB periodsA periodsB) (d := ⟨min startA startB, []⟩) (by simp)
  rw [← disjunctLoop_eq] at emitted
  exact emitted

theorem disjunctPeriods_readAt (startA startB : ℤ) (periodsA periodsB : Periods) (time : ℤ) :
    readAt (eventsFrom (min startA startB)
        (disjunctPeriods startA startB periodsA periodsB).2.2) time =
      readAt (eventsFrom startA periodsA) time + readAt (eventsFrom startB periodsB) time := by
  rw [eventsFrom_disjunctPeriods]
  exact readAt_joined startA startB time periodsA periodsB

/-- `DisjunctPeriods` reads as the sum of both readings at every time but the later start. -/
theorem readOwn_disjunctPeriods (startA startB : ℤ) (forwardA : Forward periodsA)
    (forwardB : Forward periodsB) {time : ℤ} (notLater : time ≠ max startA startB) :
    readOwn (min startA startB) (disjunctPeriods startA startB periodsA periodsB).2.2 time =
      readOwn startA periodsA time + readOwn startB periodsB time := by
  -- At the earlier start everything reads as empty.
  by_cases start : time = min startA startB
  · obtain ⟨emptyA, emptyB⟩ := readOwn_at_min periodsA periodsB start
    rw [emptyA, emptyB, add_zero]
    exact if_pos start.le
  · obtain ⟨notA, notB⟩ := ne_starts notLater start
    rw [readOwn_of_ne (disjunctPeriods_spec startA startB forwardA forwardB).forward start,
      readOwn_of_ne forwardA notA, readOwn_of_ne forwardB notB]
    exact disjunctPeriods_readAt startA startB periodsA periodsB time

/-- A schedule whose periods all take time has no event at its start. -/
theorem readOwn_of_positive {periods : Periods} (positive : ∀ period ∈ periods, 0 < period.length)
    (startTime readTime : ℤ) :
    readOwn startTime periods readTime = readAt (eventsFrom startTime periods) readTime := by
  have forward : Forward periods := fun period member => (positive period member).le
  rw [readOwn_eq forward]
  split_ifs with early
  · -- The first event comes strictly after the start, and every other one no earlier than it.
    refine (readAt_before fun event member => ?_).symm
    cases periods with
    | nil => cases member
    | cons first rest =>
      have takes := positive first List.mem_cons_self
      rcases List.mem_cons.mp member with rfl | member
      · show readTime < startTime + first.length
        omega
      · have later := (((forward_cons first rest).mp forward).2.event_bounds member).1
        omega
  · rfl

theorem readOwn_disjunctPeriods_of_positive (startA startB : ℤ)
    (positiveA : ∀ period ∈ periodsA, 0 < period.length)
    (positiveB : ∀ period ∈ periodsB, 0 < period.length) (time : ℤ) :
    readOwn (min startA startB) (disjunctPeriods startA startB periodsA periodsB).2.2 time =
      readOwn startA periodsA time + readOwn startB periodsB time := by
  have forward := (disjunctPeriods_spec startA startB
    (fun period member => (positiveA period member).le)
    fun period member => (positiveB period member).le).forward
  -- No event falls on a start, so each reading is that of the events.
  by_cases start : time = min startA startB
  · obtain ⟨emptyA, emptyB⟩ := readOwn_at_min periodsA periodsB start
    rw [emptyA, emptyB, add_zero]
    exact if_pos start.le
  · rw [readOwn_of_ne forward start, readOwn_of_positive positiveA, readOwn_of_positive positiveB]
    exact disjunctPeriods_readAt startA startB periodsA periodsB time

theorem mem_times_disjunctPeriods (time startA startB : ℤ) (periodsA periodsB : Periods) :
    (∃ event ∈ eventsFrom (min startA startB)
        (disjunctPeriods startA startB periodsA periodsB).2.2, event.1 = time) ↔
      ∃ event ∈ eventsFrom startA periodsA ++ eventsFrom startB periodsB, event.1 = time := by
  have instants := mem_times_joined time startA startB periodsA periodsB
  rw [← eventsFrom_disjunctPeriods, ← List.mem_append, ← List.map_append] at instants
  simpa only [List.mem_map] using instants

/-- The merged schedule ends with the latest event of either schedule, if there is one. -/
theorem disjunctPeriods_end (startA startB : ℤ) (forwardA : Forward periodsA)
    (forwardB : Forward periodsB) (nonempty : periodsA ≠ [] ∨ periodsB ≠ []) :
    IsGreatest
      {time | ∃ event ∈ eventsFrom startA periodsA ++ eventsFrom startB periodsB, event.1 = time}
      (disjunctPeriods startA startB periodsA periodsB).2.1 := by
  have merged := disjunctPeriods_spec startA startB forwardA forwardB
  rw [merged.ends]
  constructor
  · -- A schedule with events ends with one of them.
    obtain ⟨time, present⟩ : ∃ time, ∃ event ∈ eventsFrom startA periodsA ++
        eventsFrom startB periodsB, event.1 = time := by
      rcases nonempty with some | some
      · obtain ⟨event, member, -⟩ := exists_event_at_end startA some
        exact ⟨_, event, List.mem_append_left _ member, rfl⟩
      · obtain ⟨event, member, -⟩ := exists_event_at_end startB some
        exact ⟨_, event, List.mem_append_right _ member, rfl⟩
    obtain ⟨event, member, -⟩ := (mem_times_disjunctPeriods time startA startB _ _).mpr present
    have nonempty : (disjunctPeriods startA startB periodsA periodsB).2.2 ≠ [] := by
      intro empty
      rw [empty] at member
      cases member
    exact (mem_times_disjunctPeriods _ startA startB _ _).mp (exists_event_at_end _ nonempty)
  · rintro time present
    obtain ⟨event, member, rfl⟩ := (mem_times_disjunctPeriods time startA startB _ _).mpr present
    exact (merged.forward.event_bounds member).2

/-- `DisjunctPeriods` is the pointwise sum of two schedules, and ends with the latest event. -/
theorem disjunctPeriods_pointwise_sum (startA startB : ℤ) {periodsA periodsB : Periods}
    (forwardA : Forward periodsA) (forwardB : Forward periodsB) :
    let result := disjunctPeriods startA startB periodsA periodsB
    result.1 = min startA startB ∧
      result.2.1 = result.1 + totalLength result.2.2 ∧
      (periodsA = [] ∧ periodsB = [] → result.2.1 = result.1) ∧
      (¬(periodsA = [] ∧ periodsB = []) → IsGreatest
        {time | ∃ event ∈ eventsFrom startA periodsA ++ eventsFrom startB periodsB, event.1 = time}
        result.2.1) ∧
      (∀ period ∈ result.2.2, 0 ≤ period.length) ∧
      (∀ time, time ≠ max startA startB →
        readSchedule result.1 result.2.1 result.2.2 (totalAmount result.2.2) time =
          readOwn startA periodsA time + readOwn startB periodsB time) ∧
      ((∀ period ∈ periodsA, 0 < period.length) → (∀ period ∈ periodsB, 0 < period.length) →
        readSchedule result.1 result.2.1 result.2.2 (totalAmount result.2.2) (max startA startB) =
          readOwn startA periodsA (max startA startB) +
            readOwn startB periodsB (max startA startB)) := by
  intro result
  have merged := disjunctPeriods_spec startA startB forwardA forwardB
  refine ⟨merged.starts, ?_, ?_, ?_, merged.forward, ?_, ?_⟩
  · rw [merged.ends, merged.starts]
  · -- Without periods the loops do not run.
    rintro ⟨rfl, rfl⟩
    show (disjunctLoop _ _ _ [] []).endTime = _
    rw [disjunctLoop]
    rfl
  · exact fun some => disjunctPeriods_end startA startB forwardA forwardB
      (not_and_or.mp some)
  · intro time notLater
    rw [merged.readSchedule_eq]
    exact readOwn_disjunctPeriods startA startB forwardA forwardB notLater
  · intro positiveA positiveB
    rw [merged.readSchedule_eq]
    exact readOwn_disjunctPeriods_of_positive startA startB positiveA positiveB _

/-- Five seconds into the second schedule only its instant coins have fallen due. -/
theorem twoHalves_joined_with_twoDenoms :
    let result := disjunctPeriods 0 5 twoHalves twoDenoms
    Forward twoHalves ∧ Forward twoDenoms ∧ result.2.1 = 0 + totalLength result.2.2 ∧
      readSchedule result.1 result.2.1 result.2.2 (totalAmount result.2.2) 10 =
        Coins.ofCoin "aevmos" 50 + Coins.ofCoin "uatom" 7 := by
  have forward : Forward twoHalves ∧ Forward twoDenoms := by simp [twoHalves, twoDenoms]
  obtain ⟨-, ends, -, -, -, reads, -⟩ := disjunctPeriods_pointwise_sum 0 5 forward.1 forward.2
  exact ⟨forward.1, forward.2, ends, (reads 10 (by decide)).trans (by decide +kernel)⟩

end Evmos.Vesting
