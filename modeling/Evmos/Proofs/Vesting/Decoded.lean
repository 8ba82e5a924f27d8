import Evmos.Library.Steps
import Evmos.Proofs.Vesting.MsgServer
import Evmos.Vesting.Decoded

/-! When the schedules of a decoded grant read as they should, whatever signs and lengths it has. -/

namespace Evmos.Vesting.Decoded

open Library

theorem SignedCoins.isAnyNegative_eq_false_iff (coins : SignedCoins) :
    coins.isAnyNegative = false ↔ 0 ≤ coins := by
  rw [isAnyNegative, decide_eq_false_iff_not]
  -- The search covers the support, outside of which amounts are zero.
  constructor
  · intro none denom
    by_contra negative
    have below : coins denom < 0 := not_le.mp negative
    exact none ⟨denom, DFinsupp.mem_support_iff.mpr below.ne, below⟩
  · rintro nonneg ⟨denom, -, below⟩
    exact absurd (nonneg denom) (not_le.mpr below)

variable {periods : Periods} {startTime : Int64} {coins totalCoins : SignedCoins}
  {release : ℤ × SignedCoins}

theorem SignedCoins.sub_of_le {other : SignedCoins} (covered : other ≤ coins) :
    coins.sub other = some (coins - other) := by
  have nonneg : (coins - other).isAnyNegative = false :=
    (isAnyNegative_eq_false_iff _).mpr (sub_nonneg.mpr covered)
  simp only [sub, nonneg, Bool.false_eq_true, if_false]

theorem SignedCoins.least_apply (coins other : SignedCoins) (denom : Denom) :
    (coins.least other) denom =
      if coins denom = 0 ∨ other denom = 0 then 0 else Min.min (coins denom) (other denom) :=
  DFinsupp.zipWith_apply _ _ _ _ _

/-- Coins that are not negative have a minimum, which neither side exceeds. -/
theorem SignedCoins.min_of_nonneg {other : SignedCoins} (nonneg : 0 ≤ coins)
    (otherNonneg : 0 ≤ other) :
    coins.min other = some (coins.least other) ∧ coins.least other ≤ coins := by
  -- A denomination that is missing on one side counts as zero.
  have bounds : ∀ denom, (0 : ℤ) ≤ coins.least other denom ∧
      coins.least other denom ≤ coins denom := by
    intro denom
    have left : (0 : ℤ) ≤ coins denom := nonneg denom
    have right : (0 : ℤ) ≤ other denom := otherNonneg denom
    rw [least_apply]
    split_ifs
    · exact ⟨le_rfl, left⟩
    · exact ⟨le_min left right, min_le_left _ _⟩
  refine ⟨if_pos ?_, fun denom => (bounds denom).2⟩
  rw [isValid, Bool.not_eq_true', isAnyNegative_eq_false_iff]
  exact fun denom => (bounds denom).1

/-- Against coins that are not negative, the comparison covers every denomination. -/
theorem SignedCoins.le_of_isAllLTE {other : SignedCoins} (below : coins.isAllLTE other = true)
    (nonneg : 0 ≤ other) : coins ≤ other := by
  intro denom
  change coins denom ≤ other denom
  -- The source compares the denominations of the smaller coins only.
  by_cases present : denom ∈ coins.support
  · have some : coins.isZero = false := by
      refine decide_eq_false ?_
      rintro rfl
      simp at present
    rw [isAllLTE, some] at below
    cases empty : other.isZero with
    | true => simp [empty] at below
    | false =>
      rw [empty] at below
      exact of_decide_eq_true below denom present
  · rw [DFinsupp.notMem_support_iff.mp present]
    exact nonneg denom

/--
The seconds from which the periods of a schedule count, each with its amount.

A period counts once its own end and the ends of all periods before it have come. These ends wrap
around, so they need not come in order.
-/
def releasesFrom (last : ℤ) : ℤ → Int64 → Periods → List (ℤ × SignedCoins)
  | _, _, [] => []
  | due, elapsedTime, period :: rest =>
    (min last (max due (elapsedTime + period.length).toInt), period.amount) ::
      releasesFrom last (max due (elapsedTime + period.length).toInt)
        (elapsedTime + period.length) rest

/--
What a schedule releases, and when.

Nothing comes before the second after the start. At the end of the account, or in that second if
the end has wrapped around to an earlier one, the schedule is made up to the total.
-/
def releases (startTime endTime : Int64) (periods : Periods) (totalCoins : SignedCoins) :
    List (ℤ × SignedCoins) :=
  let first := startTime.toInt + 1
  let last := max first endTime.toInt
  releasesFrom last first startTime periods ++ [(last, totalCoins - totalAmount periods)]

theorem releasesFrom_bounds {last due : ℤ} {elapsedTime : Int64}
    (member : release ∈ releasesFrom last due elapsedTime periods) :
    min last due ≤ release.1 ∧ release.1 ≤ last := by
  induction periods generalizing due elapsedTime with
  | nil => cases member
  | cons period rest ih =>
    -- The time that is due only grows along the periods.
    rcases List.mem_cons.mp member with rfl | member
    · constructor
      · exact min_le_min_left last (le_max_left _ _)
      · exact min_le_left _ _
    · obtain ⟨lower, upper⟩ := ih member
      exact ⟨(min_le_min_left last (le_max_left _ _)).trans lower, upper⟩

theorem exists_period_of_release {last due : ℤ} {elapsedTime : Int64}
    (member : release ∈ releasesFrom last due elapsedTime periods) :
    ∃ period ∈ periods, period.amount = release.2 := by
  induction periods generalizing due elapsedTime with
  | nil => cases member
  | cons period rest ih =>
    rcases List.mem_cons.mp member with rfl | member
    · exact ⟨period, List.mem_cons_self, rfl⟩
    · obtain ⟨found, inside, amount⟩ := ih member
      exact ⟨found, List.mem_cons_of_mem _ inside, amount⟩

theorem totalOf_releasesFrom (last due : ℤ) (elapsedTime : Int64) (periods : Periods) :
    totalOf (releasesFrom last due elapsedTime periods) = totalAmount periods := by
  induction periods generalizing due elapsedTime with
  | nil => rfl
  | cons period rest ih =>
    rw [releasesFrom, totalOf_cons, ih]
    simp [totalAmount]

/-- Before the end of the account the loop adds up the releases that have come. -/
theorem readPeriods_eq {readTime : Int64} {last due : ℤ} (come : due ≤ readTime.toInt)
    (running : readTime.toInt < last) (coins : SignedCoins) (elapsedTime : Int64)
    (periods : Periods) :
    readPeriods readTime coins elapsedTime periods =
      coins + readAt (releasesFrom last due elapsedTime periods) readTime.toInt := by
  -- The latest end so far has come as long as the loop runs.
  induction periods generalizing coins due elapsedTime with
  | nil => simp [readPeriods, releasesFrom]
  | cons period rest ih =>
    rw [readPeriods]
    split
    · -- The loop stops, and whatever is left counts from a later second.
      rename_i future
      have after : readTime.toInt < (elapsedTime + period.length).toInt :=
        Int64.lt_iff_toInt_lt.mp future
      rw [readAt_before, add_zero]
      intro release member
      rw [releasesFrom] at member
      rcases List.mem_cons.mp member with rfl | member
      · exact lt_min running (after.trans_le (le_max_right _ _))
      · refine lt_of_lt_of_le ?_ (releasesFrom_bounds member).1
        exact lt_min running (after.trans_le (le_max_right _ _))
    · -- The period counts, in the loop and as a release.
      rename_i past
      have ended : (elapsedTime + period.length).toInt ≤ readTime.toInt :=
        not_lt.mp fun later => past (Int64.lt_iff_toInt_lt.mpr later)
      have now := max_le come ended
      rw [ih now, releasesFrom, readAt_cons, if_pos ((min_le_right _ _).trans now), add_assoc]

theorem lt_of_mem_releases {endTime : Int64}
    (member : release ∈ releases startTime endTime periods totalCoins) :
    startTime.toInt < release.1 := by
  -- The final release is put a second after the start at the earliest.
  rcases List.mem_append.mp member with inside | final
  · have := (releasesFrom_bounds inside).1
    omega
  · obtain rfl := List.mem_singleton.mp final
    exact (Int.lt_succ _).trans_le (le_max_left _ _)

/-- A schedule is read as the sum of what it has released. -/
theorem readSchedule_eq (startTime endTime : Int64) (periods : Periods)
    (totalCoins : SignedCoins) (readTime : Int64) :
    readSchedule startTime endTime periods totalCoins readTime =
      readAt (releases startTime endTime periods totalCoins) readTime.toInt := by
  rw [readSchedule]
  split
  · rename_i early
    have early := Int64.le_iff_toInt_le.mp early
    exact (readAt_before fun release member => early.trans_lt (lt_of_mem_releases member)).symm
  · rename_i started
    have started : startTime.toInt < readTime.toInt :=
      not_le.mp fun early => started (Int64.le_iff_toInt_le.mpr early)
    split
    · -- From the end on everything has been released.
      rename_i complete
      have complete : endTime.toInt ≤ readTime.toInt := Int64.le_iff_toInt_le.mp complete
      rw [readAt_after]
      · simp [releases, totalOf, ← totalOf_releasesFrom (max (startTime.toInt + 1) endTime.toInt)
          (startTime.toInt + 1) startTime periods]
      · intro release member
        rcases List.mem_append.mp member with inside | final
        · have := (releasesFrom_bounds inside).2
          omega
        · obtain rfl := List.mem_singleton.mp final
          exact max_le started complete
    · rename_i running
      have running : readTime.toInt < endTime.toInt :=
        not_le.mp fun complete => running (Int64.le_iff_toInt_le.mpr complete)
      have last := running.trans_le (le_max_right (startTime.toInt + 1) endTime.toInt)
      -- The last release is still to come.
      have pending : readAt [(max (startTime.toInt + 1) endTime.toInt,
          totalCoins - totalAmount periods)] readTime.toInt = 0 := by
        refine readAt_before fun release member => ?_
        obtain rfl := List.mem_singleton.mp member
        exact last
      rw [readPeriods_eq (Int.add_one_le_of_lt started) last, zero_add, releases, readAt_append,
        pending, add_zero]

theorem forall_toInt_iff {h : ℤ → Prop} :
    (∀ time : Int64, h time.toInt) ↔ ∀ time, -2 ^ 63 ≤ time → time < 2 ^ 63 → h time := by
  -- Every second of the range is the value of an integer.
  constructor
  · intro always time lower upper
    have there := always (.ofInt time)
    rwa [Int64.toInt_ofInt_of_le lower upper] at there
  · exact fun always time => always time.toInt time.le_toInt time.toInt_lt

/-- What is expected of the readings of one schedule. -/
structure ReadsSoundly (read : Int64 → SignedCoins) (totalCoins : SignedCoins)
    (startTime : Int64) (periods : Periods) : Prop where
  mono : ∀ earlier later : Int64, earlier ≤ later → read earlier ≤ read later
  bounded : ∀ time, read time ≤ totalCoins
  -- The first period ends at this second, even if no `int64` can hold it.
  zero : ∀ first ∈ periods.head?, ∀ time : Int64,
    time.toInt < startTime.toInt + first.length.toInt → read time = 0

/-- A new account whose schedules can be relied on. -/
structure ClawbackVestingAccount.Sound (va : ClawbackVestingAccount) : Prop where
  unlocked : ReadsSoundly va.getUnlockedOnly va.originalVesting va.startTime va.lockupPeriods
  vested : ReadsSoundly va.getVestedOnly va.originalVesting va.startTime va.vestingPeriods
  vesting : ∀ time, va.getVestingCoins time ≠ none

/--
The releases of a schedule are in order.

Together, the releases of one second are not negative in any denomination, and those that come
before the end of the first period cancel out. Only seconds that fit into an `int64` matter.
-/
structure Steady (startTime endTime : Int64) (periods : Periods) (totalCoins : SignedCoins) :
    Prop where
  nonneg : ∀ release ∈ releases startTime endTime periods totalCoins, release.1 < 2 ^ 63 →
    (amountAt (releases startTime endTime periods totalCoins) release.1).isAnyNegative = false
  nothing : ∀ first ∈ periods.head?, ∀ release ∈ releases startTime endTime periods totalCoins,
    release.1 < 2 ^ 63 ∧ release.1 < startTime.toInt + first.length.toInt →
      amountAt (releases startTime endTime periods totalCoins) release.1 = 0

/-- Readings never go down exactly when no second releases a negative amount. -/
theorem mono_readSchedule_iff (startTime endTime : Int64) (periods : Periods)
    (totalCoins : SignedCoins) :
    (∀ earlier later : Int64, earlier ≤ later →
      readSchedule startTime endTime periods totalCoins earlier ≤
        readSchedule startTime endTime periods totalCoins later) ↔
    ∀ release ∈ releases startTime endTime periods totalCoins, release.1 < 2 ^ 63 →
      (amountAt (releases startTime endTime periods totalCoins) release.1).isAnyNegative =
        false := by
  simp only [readSchedule_eq, Int64.le_iff_toInt_le, SignedCoins.isAnyNegative_eq_false_iff]
  -- Over the integers, the readings never go down between the smallest and the largest second.
  have everywhere := (monotoneOn_readAt_iff (releases startTime endTime periods totalCoins)
    (-2 ^ 63) (2 ^ 63 - 1)).trans (forall_amountAt_iff le_rfl _)
  constructor
  · -- Seconds between the smallest and the largest are those of some `int64`.
    intro mono release member fits
    refine everywhere.mp ?_ release member ⟨?_, by omega⟩
    · intro earlier early later late order
      have first := Int64.toInt_ofInt_of_le early.1 (by have := early.2; omega)
      have second := Int64.toInt_ofInt_of_le late.1 (by have := late.2; omega)
      have rises := mono (.ofInt earlier) (.ofInt later)
      rw [first, second] at rises
      exact rises order
    · exact startTime.le_toInt.trans_lt (lt_of_mem_releases member)
  · intro gives earlier later order
    have rises := everywhere.mpr fun release member inside =>
      gives release member (by have := inside.2; omega)
    exact rises ⟨earlier.le_toInt, by have := earlier.toInt_lt; omega⟩
      ⟨later.le_toInt, by have := later.toInt_lt; omega⟩ order

/-- Readings stay empty up to a second exactly when the releases before it cancel out. -/
theorem readSchedule_eq_zero_iff (startTime endTime : Int64) (periods : Periods)
    (totalCoins : SignedCoins) (deadline : ℤ) :
    (∀ time : Int64, time.toInt < deadline →
      readSchedule startTime endTime periods totalCoins time = 0) ↔
    ∀ release ∈ releases startTime endTime periods totalCoins,
      release.1 < 2 ^ 63 ∧ release.1 < deadline →
        amountAt (releases startTime endTime periods totalCoins) release.1 = 0 := by
  -- All releases are later than the smallest second, at which nothing is read.
  have later : ∀ release ∈ releases startTime endTime periods totalCoins,
      -2 ^ 63 < release.1 := fun release member =>
    startTime.le_toInt.trans_lt (lt_of_mem_releases member)
  have everywhere := (readAt_eq_zero_iff later (fun time => time < 2 ^ 63 ∧ time < deadline)
    (by intros; omega)).trans (forall_amountAt_iff (P := fun amount : SignedCoins => amount = 0) rfl _)
  simp only [readSchedule_eq]
  rw [← everywhere, forall_toInt_iff (h := fun time => time < deadline →
    readAt (releases startTime endTime periods totalCoins) time = 0)]
  exact forall₂_congr fun time lower => ⟨fun empty inside => empty inside.1 inside.2,
    fun empty fits before => empty ⟨fits, before⟩⟩

theorem readSchedule_maxValue_le (startTime endTime : Int64) (periods : Periods)
    (valid : 0 ≤ totalCoins) :
    readSchedule startTime endTime periods totalCoins Int64.maxValue ≤ totalCoins := by
  rw [readSchedule]
  -- After the end the schedule returns the total as it is.
  split
  · exact valid
  · rw [if_pos (Int64.le_maxValue endTime)]

/-- A schedule reads soundly exactly when its releases are in order. -/
theorem readsSoundly_iff (startTime endTime : Int64) (periods : Periods) (valid : 0 ≤ totalCoins) :
    ReadsSoundly (readSchedule startTime endTime periods totalCoins) totalCoins startTime periods ↔
      Steady startTime endTime periods totalCoins := by
  constructor
  · intro sound
    exact ⟨(mono_readSchedule_iff _ _ _ _).mp sound.mono, fun first member =>
      (readSchedule_eq_zero_iff _ _ _ _ _).mp (sound.zero first member)⟩
  · intro steady
    have mono := (mono_readSchedule_iff _ _ _ _).mpr steady.nonneg
    refine ⟨mono, fun time => ?_, fun first member =>
      (readSchedule_eq_zero_iff _ _ _ _ _).mpr (steady.nothing first member)⟩
    -- No reading exceeds the one at the largest second.
    exact (mono _ _ (Int64.le_maxValue time)).trans (readSchedule_maxValue_le _ _ _ valid)

theorem alignSchedules_self (startTime : Int64) (periodsA periodsB : Periods) :
    alignSchedules startTime startTime periodsA periodsB =
      (startTime, max64 (startTime + totalLength periodsA) (startTime + totalLength periodsB),
        periodsA, periodsB) := by
  have start : min64 startTime startTime = startTime := ite_self _
  -- The extension is by the difference of the starts.
  have unchanged : ∀ periods, extendFirst (startTime - startTime) periods = periods := by
    intro periods
    cases periods with
    | nil => rfl
    | cons period rest => simp [extendFirst]
  simp only [alignSchedules, start, unchanged]

/-- The end of the account that a message creates. -/
def MsgCreateClawbackVestingAccount.endTime (msg : MsgCreateClawbackVestingAccount) : Int64 :=
  max64 (msg.startTime + totalLength msg.withDefaults.lockupPeriods)
    (msg.startTime + totalLength msg.withDefaults.vestingPeriods)

/-- The releases of both schedules of a message are in order. -/
structure MsgCreateClawbackVestingAccount.Steady (msg : MsgCreateClawbackVestingAccount) :
    Prop where
  lockup : Decoded.Steady msg.startTime msg.endTime msg.withDefaults.lockupPeriods
    (totalAmount msg.withDefaults.vestingPeriods)
  vesting : Decoded.Steady msg.startTime msg.endTime msg.withDefaults.vestingPeriods
    (totalAmount msg.withDefaults.vestingPeriods)

theorem createClawbackVestingAccount_ok {bech32 : Bech32} {ctx : Context} {s : State}
    {msg : MsgCreateClawbackVestingAccount} {va : ClawbackVestingAccount} {balances : Balances}
    (created : createClawbackVestingAccount bech32 ctx s msg = .ok (va, balances)) :
    va = ⟨totalAmount msg.withDefaults.vestingPeriods, msg.endTime, msg.startTime,
        msg.withDefaults.lockupPeriods, msg.withDefaults.vestingPeriods⟩ ∧
      0 ≤ totalAmount msg.withDefaults.vestingPeriods ∧
      (totalAmount msg.withDefaults.lockupPeriods).isAllLTE
        (totalAmount msg.withDefaults.vestingPeriods) = true := by
  obtain ⟨fromAddr, -, created⟩ := bind_eq_ok.mp created
  obtain ⟨toAddr, -, created⟩ := bind_eq_ok.mp created
  split at created
  · cases created
  dsimp only at created
  split at created
  · cases created
  rename_i equal
  obtain ⟨sent, paid, created⟩ := bind_eq_ok.mp created
  obtain ⟨rfl, -⟩ := Prod.mk.inj (Except.ok.inj created)
  refine ⟨?_, ?_, ?_⟩
  · -- Both schedules start together, so aligning only computes the end.
    rw [newClawbackVestingAccount, alignSchedules_self]
    rfl
  · -- The bank refuses coins with a negative amount.
    rw [sendCoins] at paid
    split at paid
    · rename_i valid
      rw [SignedCoins.isValid, Bool.not_eq_true'] at valid
      exact (SignedCoins.isAnyNegative_eq_false_iff _).mp valid
    · cases paid
  · simp only [Bool.not_eq_true', Bool.not_eq_false, Bool.and_eq_true] at equal
    exact equal.2

/-- Times that fit into an `int64` add up without wrapping around. -/
theorem toInt_add_of_fits {a b : Int64} (lower : -2 ^ 63 ≤ a.toInt + b.toInt)
    (upper : a.toInt + b.toInt < 2 ^ 63) : (a + b).toInt = a.toInt + b.toInt := by
  rw [Int64.toInt_add]
  exact Int.bmod_eq_of_le (by omega) (by omega)

/-- The length of a schedule, before any wrapping around. -/
def fullLength (periods : Periods) : ℤ := (periods.map fun period => period.length.toInt).sum

@[simp] theorem fullLength_nil : fullLength [] = 0 := rfl

@[simp] theorem fullLength_cons (period : Period) (rest : Periods) :
    fullLength (period :: rest) = period.length.toInt + fullLength rest := by
  simp [fullLength]

theorem fullLength_nonneg (forward : ∀ period ∈ periods, 0 ≤ period.length.toInt) :
    0 ≤ fullLength periods := by
  refine List.sum_nonneg fun length member => ?_
  obtain ⟨period, inside, rfl⟩ := List.mem_map.mp member
  exact forward period inside

theorem toInt_foldl (forward : ∀ period ∈ periods, 0 ≤ period.length.toInt)
    (fits : startTime.toInt + fullLength periods < 2 ^ 63) :
    (periods.foldl (fun total period => total + period.length) startTime).toInt =
      startTime.toInt + fullLength periods := by
  induction periods generalizing startTime with
  | nil => simp
  | cons period rest ih =>
    have head := forward period List.mem_cons_self
    have tail := fun later member => forward later (List.mem_cons_of_mem period member)
    have remaining := fullLength_nonneg tail
    have lower := startTime.le_toInt
    rw [fullLength_cons] at fits ⊢
    -- The lengths that follow are not negative, so no partial sum overflows.
    have sum := toInt_add_of_fits (a := startTime) (b := period.length) (by omega) (by omega)
    rw [List.foldl_cons, ih tail (by omega), sum]
    omega

/-- A schedule that does not leave the `int64` range ends where its lengths say. -/
theorem toInt_add_totalLength (forward : ∀ period ∈ periods, 0 ≤ period.length.toInt)
    (fits : startTime.toInt + fullLength periods < 2 ^ 63) :
    (startTime + totalLength periods).toInt = startTime.toInt + fullLength periods := by
  -- Adding the sum to the start is starting the sum there.
  have shifted : ∀ total, startTime + periods.foldl (fun sum period => sum + period.length) total =
      periods.foldl (fun sum period => sum + period.length) (startTime + total) := by
    clear forward fits
    induction periods with
    | nil => exact fun _ => rfl
    | cons period rest ih =>
      intro total
      rw [List.foldl_cons, List.foldl_cons, ih, Int64.add_assoc]
  rw [totalLength, shifted, Int64.add_zero, toInt_foldl forward fits]

theorem toInt_max64 (i j : Int64) : (max64 i j).toInt = max i.toInt j.toInt := by
  rw [max64]
  split
  · rename_i more
    exact (max_eq_left (Int64.lt_iff_toInt_lt.mp more).le).symm
  · rename_i notMore
    exact (max_eq_right (not_lt.mp fun more => notMore (Int64.lt_iff_toInt_lt.mpr more))).symm

/-- Amounts that are not negative, with a first end that has not wrapped around, are in order. -/
theorem Steady.of_nonneg {endTime : Int64} (nonneg : ∀ period ∈ periods, 0 ≤ period.amount)
    (covered : totalAmount periods ≤ totalCoins)
    (inTime : ∀ first ∈ periods.head?,
      (startTime + first.length).toInt = startTime.toInt + first.length.toInt ∧
        startTime.toInt + first.length.toInt ≤ endTime.toInt) :
    Steady startTime endTime periods totalCoins := by
  constructor
  · -- Each release is an amount of the schedule, or what is missing from the total.
    intro release _ _
    rw [SignedCoins.isAnyNegative_eq_false_iff]
    refine amountAt_nonneg (fun event member => ?_) _
    rcases List.mem_append.mp member with inside | final
    · obtain ⟨period, found, same⟩ := exists_period_of_release inside
      rw [← same]
      exact nonneg period found
    · obtain rfl := List.mem_singleton.mp final
      exact sub_nonneg.mpr covered
  · -- No release comes before the end of the first period.
    intro first head release member early
    obtain ⟨unwrapped, before⟩ := inTime first head
    cases periods with
    | nil => cases head
    | cons period rest =>
      obtain rfl : period = first := by simpa using head
      refine absurd early.2 (not_lt.mpr ?_)
      rcases List.mem_append.mp member with inside | final
      · rw [releasesFrom] at inside
        rcases List.mem_cons.mp inside with rfl | inside
        · change _ ≤ min _ _
          omega
        · have := (releasesFrom_bounds inside).1
          omega
      · obtain rfl := List.mem_singleton.mp final
        change _ ≤ max _ _
        omega

theorem readSchedule_minValue (startTime endTime : Int64) (periods : Periods)
    (totalCoins : SignedCoins) :
    readSchedule startTime endTime periods totalCoins Int64.minValue = 0 :=
  if_pos (Int64.minValue_le startTime)

/-- An account is sound exactly when the releases of both schedules are in order. -/
theorem ClawbackVestingAccount.sound_iff (va : ClawbackVestingAccount)
    (valid : 0 ≤ va.originalVesting) :
    va.Sound ↔
      Steady va.startTime va.endTime va.lockupPeriods va.originalVesting ∧
        Steady va.startTime va.endTime va.vestingPeriods va.originalVesting := by
  rw [← readsSoundly_iff _ _ _ valid, ← readsSoundly_iff _ _ _ valid]
  constructor
  · exact fun sound => ⟨sound.unlocked, sound.vested⟩
  · rintro ⟨unlocked, vested⟩
    refine ⟨unlocked, vested, fun time => ?_⟩
    -- Both readings lie between nothing and the original vesting coins.
    have unlockedNonneg : 0 ≤ va.getUnlockedOnly time := by
      have rises := unlocked.mono _ _ (Int64.minValue_le time)
      rwa [readSchedule_minValue] at rises
    have vestedNonneg : 0 ≤ va.getVestedOnly time := by
      have rises := vested.mono _ _ (Int64.minValue_le time)
      rwa [readSchedule_minValue] at rises
    obtain ⟨least, below⟩ := SignedCoins.min_of_nonneg unlockedNonneg vestedNonneg
    have covered := below.trans (unlocked.bounded time)
    rw [getVestingCoins, getVestedCoins, least, Option.bind_some, SignedCoins.sub_of_le covered]
    exact Option.some_ne_none _

/-- A schedule without negative amounts or lengths, which ends within the `int64` range. -/
structure Tame (startTime : Int64) (periods : Periods) : Prop where
  amounts : ∀ period ∈ periods, 0 ≤ period.amount
  lengths : ∀ period ∈ periods, 0 ≤ period.length.toInt
  fits : startTime.toInt + fullLength periods < 2 ^ 63

theorem Tame.instant (startTime : Int64) (nonneg : 0 ≤ coins) :
    Tame startTime [⟨0, coins⟩] where
  amounts := by simpa using nonneg
  lengths := by simp
  fits := by simpa using startTime.toInt_lt

theorem Tame.totalAmount_nonneg (tame : Tame startTime periods) : 0 ≤ totalAmount periods := by
  refine List.sum_nonneg fun amount member => ?_
  obtain ⟨period, inside, rfl⟩ := List.mem_map.mp member
  exact tame.amounts period inside

/-- The first period of such a schedule ends no later than the schedule. -/
theorem Tame.first_le (tame : Tame startTime periods) {first : Period}
    (head : first ∈ periods.head?) :
    (startTime + first.length).toInt = startTime.toInt + first.length.toInt ∧
      startTime.toInt + first.length.toInt ≤ (startTime + totalLength periods).toInt := by
  rw [toInt_add_totalLength tame.lengths tame.fits]
  cases periods with
  | nil => cases head
  | cons period rest =>
    obtain rfl : period = first := by simpa using head
    have positive := tame.lengths period List.mem_cons_self
    have remaining := fullLength_nonneg fun later member =>
      tame.lengths later (List.mem_cons_of_mem period member)
    have fits := tame.fits
    have lower := startTime.le_toInt
    -- The first length is at most the sum of all.
    rw [fullLength_cons] at fits ⊢
    exact ⟨toInt_add_of_fits (by omega) (by omega), by omega⟩

theorem validatePeriods_nonneg {i : ℕ} (accepted : validatePeriods i periods = .ok ()) :
    ∀ period ∈ periods, 0 ≤ period.length.toInt := by
  induction periods generalizing i with
  | nil => simp
  | cons period rest ih =>
    rw [validatePeriods] at accepted
    -- A period shorter than a second is refused.
    split at accepted
    · cases accepted
    · rename_i long
      rw [Int64.lt_iff_toInt_lt] at long
      have one : (1 : Int64).toInt = 1 := rfl
      refine List.forall_mem_cons.mpr ⟨by omega, ih accepted⟩

namespace MsgCreateClawbackVestingAccount

/-- A message without negative amounts, whose schedules end within the `int64` range. -/
structure Plain (msg : MsgCreateClawbackVestingAccount) : Prop where
  lockupAmounts : ∀ period ∈ msg.lockupPeriods, period.amount.isAnyNegative = false
  vestingAmounts : ∀ period ∈ msg.vestingPeriods, period.amount.isAnyNegative = false
  lockupFits : msg.startTime.toInt + fullLength msg.lockupPeriods < 2 ^ 63
  vestingFits : msg.startTime.toInt + fullLength msg.vestingPeriods < 2 ^ 63

/-- Both schedules of an accepted plain message are tame, the default ones included. -/
theorem Plain.tame {bech32 : Bech32} {msg : MsgCreateClawbackVestingAccount} (plain : msg.Plain)
    (accepted : msg.validateBasic bech32 = .ok ()) :
    Tame msg.startTime msg.withDefaults.lockupPeriods ∧
      Tame msg.startTime msg.withDefaults.vestingPeriods := by
  obtain ⟨_, -, accepted⟩ := bind_eq_ok.mp accepted
  obtain ⟨_, -, accepted⟩ := bind_eq_ok.mp accepted
  obtain ⟨_, lockupLengths, accepted⟩ := bind_eq_ok.mp accepted
  obtain ⟨_, vestingLengths, -⟩ := bind_eq_ok.mp accepted
  have lockup : Tame msg.startTime msg.lockupPeriods :=
    ⟨fun period member => (SignedCoins.isAnyNegative_eq_false_iff _).mp
      (plain.lockupAmounts period member), validatePeriods_nonneg lockupLengths, plain.lockupFits⟩
  have vesting : Tame msg.startTime msg.vestingPeriods :=
    ⟨fun period member => (SignedCoins.isAnyNegative_eq_false_iff _).mp
      (plain.vestingAmounts period member), validatePeriods_nonneg vestingLengths,
        plain.vestingFits⟩
  -- An absent schedule becomes an instant one with the total of the other.
  have lockupWith : Tame msg.startTime msg.withDefaults.lockupPeriods := by
    simp only [withDefaults]
    split
    · exact .instant _ vesting.totalAmount_nonneg
    · exact lockup
  refine ⟨lockupWith, ?_⟩
  -- The total of the unlocking schedule, with its default, stands in for an absent vesting one.
  have chosen : msg.withDefaults.vestingPeriods =
      if !(totalAmount msg.withDefaults.lockupPeriods).isZero && msg.vestingPeriods.isEmpty then
        [⟨0, totalAmount msg.withDefaults.lockupPeriods⟩]
      else msg.vestingPeriods := rfl
  rw [chosen]
  split
  · exact .instant _ lockupWith.totalAmount_nonneg
  · exact vesting

/-- Plain messages are in order, whatever their lengths and amounts. -/
theorem Plain.steady {bech32 : Bech32} {msg : MsgCreateClawbackVestingAccount} (plain : msg.Plain)
    (accepted : msg.validateBasic bech32 = .ok ())
    (valid : 0 ≤ totalAmount msg.withDefaults.vestingPeriods)
    (equal : (totalAmount msg.withDefaults.lockupPeriods).isAllLTE
      (totalAmount msg.withDefaults.vestingPeriods) = true) : msg.Steady := by
  obtain ⟨lockup, vesting⟩ := plain.tame accepted
  -- Without overflow the first period ends within the schedule, for both of them.
  constructor
  · refine .of_nonneg lockup.amounts (SignedCoins.le_of_isAllLTE equal valid) fun first head => ?_
    obtain ⟨unwrapped, ends⟩ := lockup.first_le head
    exact ⟨unwrapped, ends.trans ((le_max_left _ _).trans_eq (toInt_max64 _ _).symm)⟩
  · refine .of_nonneg vesting.amounts le_rfl fun first head => ?_
    obtain ⟨unwrapped, ends⟩ := vesting.first_le head
    exact ⟨unwrapped, ends.trans ((le_max_right _ _).trans_eq (toInt_max64 _ _).symm)⟩

end MsgCreateClawbackVestingAccount

/--
The account of an accepted message is sound exactly when the releases of both schedules are in
order, and plain messages are.
-/
theorem accepted_account_sound_iff {bech32 : Bech32} {ctx : Context} {s : State}
    {msg : MsgCreateClawbackVestingAccount} {va : ClawbackVestingAccount} {balances : Balances}
    (accepted : msg.validateBasic bech32 = .ok ())
    (created : createClawbackVestingAccount bech32 ctx s msg = .ok (va, balances)) :
    (va.Sound ↔ msg.Steady) ∧ (msg.Plain → va.Sound) := by
  obtain ⟨account, valid, equal⟩ := createClawbackVestingAccount_ok created
  -- Both conditions are about the releases of the two schedules.
  have exactly : va.Sound ↔ msg.Steady := by
    have nonneg : 0 ≤ va.originalVesting := account ▸ valid
    rw [va.sound_iff nonneg, account]
    exact ⟨fun steady => ⟨steady.1, steady.2⟩, fun steady => ⟨steady.lockup, steady.vesting⟩⟩
  exact ⟨exactly, fun plain => exactly.mpr (plain.steady accepted valid equal)⟩

/-- A grant from the funded account to a new one. -/
def grantOf (startTime : Int64) (lockupPeriods vestingPeriods : Periods) :
    MsgCreateClawbackVestingAccount where
  fromAddress := "1"
  toAddress := "11"
  startTime := startTime
  lockupPeriods := lockupPeriods
  vestingPeriods := vestingPeriods

/-- A period of some length that ends with an amount of one coin. -/
def periodOf (length : Int64) (amount : ℤ) : Period := ⟨length, DFinsupp.single "aevmos" amount⟩

theorem exists_created (msg : MsgCreateClawbackVestingAccount)
    (succeeds : (createClawbackVestingAccount .unary (quietContext 0) fundedChain.state
      msg).toOption.isSome = true) :
    ∃ va balances, createClawbackVestingAccount .unary (quietContext 0) fundedChain.state msg =
      .ok (va, balances) := by
  cases created : createClawbackVestingAccount .unary (quietContext 0) fundedChain.state msg with
  | error err => simp [created, Except.toOption] at succeeds
  | ok account => exact ⟨account.1, account.2, rfl⟩

/-- Two halves of a hundred coins make a sound account. -/
theorem decoded_halves_sound :
    ∃ va balances, createClawbackVestingAccount .unary (quietContext 0) fundedChain.state
        (grantOf 0 [] [periodOf 10 50, periodOf 10 50]) = .ok (va, balances) ∧ va.Sound ∧
      (grantOf 0 [] [periodOf 10 50, periodOf 10 50]).Steady := by
  obtain ⟨va, balances, created⟩ := exists_created
    (grantOf 0 [] [periodOf 10 50, periodOf 10 50]) (by decide +kernel)
  obtain ⟨exactly, sound⟩ := accepted_account_sound_iff (by decide +kernel) created
  have plain : (grantOf 0 [] [periodOf 10 50, periodOf 10 50]).Plain :=
    ⟨by decide +kernel, by decide +kernel, by decide +kernel, by decide +kernel⟩
  exact ⟨va, balances, created, sound plain, exactly.mp (sound plain)⟩

/--
Two grants that are accepted, and whose accounts are not sound.

The first one vests and unlocks more than its total before it takes the excess back. The second one
vests after one second instead of after its only period.
-/
theorem accepted_accounts_unsound :
    (∃ va balances,
      (grantOf 0 [periodOf 10 200, periodOf 10 (-100)]
        [periodOf 10 200, periodOf 10 (-100)]).validateBasic .unary = .ok () ∧
      createClawbackVestingAccount .unary (quietContext 0) fundedChain.state
        (grantOf 0 [periodOf 10 200, periodOf 10 (-100)]
          [periodOf 10 200, periodOf 10 (-100)]) = .ok (va, balances) ∧
      va.originalVesting "aevmos" = 100 ∧ va.getVestedOnly 10 "aevmos" = 200 ∧
      va.getVestedOnly 20 "aevmos" = 100 ∧ va.getVestingCoins 10 = none ∧ ¬va.Sound) ∧
    ∃ va balances,
      (grantOf 1 [] [periodOf 9223372036854775807 100]).validateBasic .unary = .ok () ∧
      createClawbackVestingAccount .unary (quietContext 0) fundedChain.state
        (grantOf 1 [] [periodOf 9223372036854775807 100]) = .ok (va, balances) ∧
      va.endTime = 1 ∧ va.getVestedOnly 2 "aevmos" = 100 ∧ ¬va.Sound := by
  constructor
  · obtain ⟨va, balances, created⟩ := exists_created (grantOf 0
      [periodOf 10 200, periodOf 10 (-100)] [periodOf 10 200, periodOf 10 (-100)])
        (by decide +kernel)
    obtain ⟨rfl, -⟩ := createClawbackVestingAccount_ok created
    refine ⟨_, balances, by decide +kernel, created, by decide +kernel, by decide +kernel,
      by decide +kernel, by decide +kernel, fun sound => ?_⟩
    -- Two hundred coins are read as vested and unlocked, out of a hundred.
    exact sound.vesting 10 (by decide +kernel)
  · obtain ⟨va, balances, created⟩ := exists_created
      (grantOf 1 [] [periodOf 9223372036854775807 100]) (by decide +kernel)
    obtain ⟨rfl, -⟩ := createClawbackVestingAccount_ok created
    refine ⟨_, balances, by decide +kernel, created, by decide +kernel, by decide +kernel,
      fun sound => ?_⟩
    -- The first period ends long after the second at which the coins are read as vested.
    have empty := sound.vested.zero (periodOf 9223372036854775807 100) rfl 2 (by decide +kernel)
    exact absurd (congrArg (fun coins : SignedCoins => coins "aevmos") empty) (by decide +kernel)

end Evmos.Vesting.Decoded
