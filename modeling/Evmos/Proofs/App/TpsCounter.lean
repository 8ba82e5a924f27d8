import Evmos.App.TpsCounter

/-! Every transaction is recorded once, however counting and reporting interleave. -/

namespace Evmos.App.TpsCounter

open Library

section Record

theorem toInt_toInt64 {number : UInt64} (small : number.toNat < 2 ^ 63) :
    number.toInt64.toInt = number.toNat := by
  change number.toBitVec.toInt = number.toBitVec.toNat
  -- Below half of the range, the bit of the sign is not set.
  apply BitVec.toInt_eq_toNat_of_lt
  change 2 * number.toNat < 2 ^ 64
  omega

/-- A counter that has not gone back is recorded by its growth. -/
theorem recordValue_of_le {latest previous : UInt64} (status : Status)
    (grown : previous.toNat ≤ latest.toNat) (few : latest.toNat < 2 ^ 63) :
    (recordValue latest previous status).1.toInt = latest.toNat - previous.toNat := by
  have exact : (latest - previous).toNat = latest.toNat - previous.toNat :=
    UInt64.toNat_sub_of_le latest previous (UInt64.le_iff_toNat_le.mpr grown)
  have value : (latest - previous).toInt64.toInt = latest.toNat - previous.toNat := by
    rw [toInt_toInt64 (by omega), exact]
    omega
  -- The two checks for a counter that has gone back do not apply.
  have forward : ¬latest < previous := by
    rw [UInt64.lt_iff_toNat_lt]
    omega
  have positive : ¬(latest - previous).toInt64 < 0 := by
    rw [Int64.lt_iff_toInt_lt, value]
    simp only [Int64.toInt_zero]
    omega
  rw [recordValue, if_neg forward]
  dsimp only
  rw [if_neg positive]
  exact value

end Record

section View

/-- What the two sides know of one status. -/
structure View where
  counter : UInt64
  /-- What was read in this round and is not recorded yet. -/
  latest : Option UInt64
  /-- The value of the counter up to which it is recorded. -/
  reported : UInt64
  recorded : ℤ

/-- What was read in this round and is not recorded yet. -/
def Loop.latest : Loop → Status → Option UInt64
  | loadedSuccessful latestS, .success => some latestS
  | loadedFailed latestS _, .success => some latestS
  | loadedFailed _ latestF, .failure => some latestF
  | recordedSuccess _ latestF _, .failure => some latestF
  | _, _ => none

/-- What was recorded in this round, unless the round is over. -/
def Loop.settled : Loop → Status → Option UInt64
  | recordedSuccess latestS _ _, .success => some latestS
  | recordedFailure latestS _ _, .success => some latestS
  | recordedFailure _ latestF _, .failure => some latestF
  | logged latestS _, .success => some latestS
  | logged _ latestF, .failure => some latestF
  | _, _ => none

/-- The state as one status sees it. -/
def State.view (tpc : State) : Status → View
  | .success => ⟨tpc.nSuccessful, tpc.loop.latest .success,
      (tpc.loop.settled .success).getD tpc.lastNSuccessful, tpc.recorded .success⟩
  | .failure => ⟨tpc.nFailed, tpc.loop.latest .failure,
      (tpc.loop.settled .failure).getD tpc.lastNFailed, tpc.recorded .failure⟩

/-- What an action does to the view of a status. -/
inductive Change (status : Status) : View → Action → View → Prop where
  | count (view : View) :
      Change status view status.counted { view with counter := view.counter + 1 }
  | read (view : View) (idle : view.latest = none) :
      Change status view (.load status) { view with latest := some view.counter }
  | report (view : View) (latest : UInt64) (read : view.latest = some latest) :
      Change status view (.record status)
        { view with
          latest := none
          reported := latest
          recorded := view.recorded + (recordValue latest view.reported status).1.toInt }
  | other (view : View) (action : Action) (counts : action ≠ status.counted)
      (reads : action ≠ .load status) (reports : action ≠ .record status) :
      Change status view action view

/-- What `recordValue` returns is what it adds to the records of its status. -/
theorem recordedFor_append_recordValue (records : List (Status × Int64)) (latest previous : UInt64)
    (status other : Status) :
    recordedFor other (records ++ (recordValue latest previous status).2) =
      recordedFor other records +
        if status = other then (recordValue latest previous status).1.toInt else 0 := by
  unfold recordValue recordedFor
  -- Nothing is recorded for a counter that has gone back or that stands still.
  split
  · simp
  · dsimp only
    split
    · simp
    · by_cases same : status = other <;> simp [same]

/-- Every step is a change for each of the two statuses. -/
theorem Step.change {before after : State} {action : Action} (taken : Step before action after)
    (status : Status) : Change status (before.view status) action (after.view status) := by
  unfold Step at taken
  obtain ⟨nS, nF, lastS, lastF, loop, records, logs⟩ := before
  cases action with
  | deliverTx isErr =>
    -- The other status does not see the transaction.
    cases isErr <;> obtain rfl := Option.some.inj taken <;> cases status
    · exact .count _
    · exact .other _ _ (by decide) (by decide) (by decide)
    · exact .other _ _ (by decide) (by decide) (by decide)
    · exact .count _
  | load read =>
    cases read <;> cases loop <;> cases taken <;> cases status
    · exact .read _ rfl
    · exact .other _ _ (by decide) (by decide) (by decide)
    · exact .other _ _ (by decide) (by decide) (by decide)
    · exact .read _ rfl
  | record recorded =>
    -- Its own status has read the counter, and the other one has its records as they were.
    cases recorded <;> cases loop <;> cases taken <;> cases status
    · simp only [State.view, State.recorded, recordedFor_append_recordValue]
      exact .report _ _ rfl
    · simp only [State.view, State.recorded, recordedFor_append_recordValue, reduceCtorEq,
        if_false, add_zero]
      exact .other _ _ (by decide) (by decide) (by decide)
    · simp only [State.view, State.recorded, recordedFor_append_recordValue, reduceCtorEq,
        if_false, add_zero]
      exact .other _ _ (by decide) (by decide) (by decide)
    · simp only [State.view, State.recorded, recordedFor_append_recordValue]
      exact .report _ _ rfl
  | log =>
    cases loop <;> cases taken
    cases status <;> exact .other _ _ (by decide) (by decide) (by decide)
  | keep =>
    cases loop <;> cases taken
    cases status <;> exact .other _ _ (by decide) (by decide) (by decide)
  | done =>
    cases loop <;> cases taken
    cases status <;> exact .other _ _ (by decide) (by decide) (by decide)

end View

section Once

/-- A value of the counter after some of the actions; if it is the last one, none was read since. -/
def Seen (status : Status) (actions : List Action) (value : UInt64) (last : Prop) : Prop :=
  ∃ earlier later, actions = earlier ++ later ∧ value.toNat = earlier.count status.counted ∧
    (last → Action.load status ∉ later)

variable {actions : List Action} {status : Status} {action : Action}

/-- A value of the counter is one after the same actions when another action follows. -/
theorem Seen.append {value : UInt64} {last : Prop} (seen : Seen status actions value last)
    {still : Prop} (unread : still → last ∧ action ≠ .load status) :
    Seen status (actions ++ [action]) value still := by
  obtain ⟨earlier, later, rfl, exact, before⟩ := seen
  refine ⟨earlier, later ++ [action], List.append_assoc .., exact, ?_⟩
  intro holds member
  obtain ⟨last, other⟩ := unread holds
  -- The value stays the last one if neither these actions nor the next one load it.
  rcases List.mem_append.mp member with inLater | here
  · exact before last inLater
  · exact other (List.mem_singleton.mp here).symm

theorem Seen.le {value : UInt64} {last : Prop} (seen : Seen status actions value last) :
    value.toNat ≤ actions.count status.counted := by
  obtain ⟨earlier, later, rfl, exact, -⟩ := seen
  -- The actions after the reading can only count more.
  rw [List.count_append]
  omega

/-- What a status knows of the actions so far. -/
structure View.Tracks (status : Status) (actions : List Action) (view : View) : Prop where
  counter : view.counter.toNat = actions.count status.counted
  recorded : view.recorded = view.reported.toNat
  reported : Seen status actions view.reported (view.latest = none)
  latest : ∀ latest, view.latest = some latest →
    view.reported.toNat ≤ latest.toNat ∧ Seen status actions latest True

/-- What is recorded of a value that was read is the growth since the last one. -/
theorem View.Tracks.recordValue_toInt {view : View} (tracks : view.Tracks status actions)
    (few : actions.length < 2 ^ 63) {latest : UInt64} (read : view.latest = some latest) :
    (recordValue latest view.reported status).1.toInt = latest.toNat - view.reported.toNat ∧
      view.reported.toNat ≤ latest.toNat ∧ latest.toNat ≤ actions.count status.counted := by
  obtain ⟨forward, seen⟩ := tracks.latest latest read
  -- No counter exceeds the number of actions, so none reaches the sign.
  have bound : actions.count status.counted ≤ actions.length := List.count_le_length
  have most := seen.le
  exact ⟨recordValue_of_le status forward (by omega), forward, most⟩

theorem View.Tracks.latest_append {view : View} (tracks : view.Tracks status actions)
    (reads : action ≠ .load status) {latest : UInt64} (same : view.latest = some latest) :
    view.reported.toNat ≤ latest.toNat ∧ Seen status (actions ++ [action]) latest True := by
  obtain ⟨forward, seen⟩ := tracks.latest latest same
  exact ⟨forward, seen.append fun _ => ⟨trivial, reads⟩⟩

theorem count_append_other (counts : action ≠ status.counted) :
    (actions ++ [action]).count status.counted = actions.count status.counted := by
  rw [List.count_append, List.count_singleton]
  simp [counts]

/-- Each change keeps a status on track, as long as the counter does not overflow. -/
theorem Change.tracks {before after : View} (changed : Change status before action after)
    (tracks : before.Tracks status actions) (few : actions.length + 1 < 2 ^ 63) :
    after.Tracks status (actions ++ [action]) := by
  have bound : actions.count status.counted ≤ actions.length := List.count_le_length
  cases changed with
  | count =>
    have unread : status.counted ≠ .load status := by cases status <;> decide
    refine ⟨?_, tracks.recorded, tracks.reported.append fun none => ⟨none, unread⟩, ?_⟩
    · rw [List.count_append, List.count_singleton_self, UInt64.toNat_add, tracks.counter]
      simp only [UInt64.toNat_one]
      omega
    · exact fun latest same => tracks.latest_append unread same
  | read idle =>
    have uncounted : Action.load status ≠ status.counted := by cases status <;> decide
    have counter : before.counter.toNat =
        (actions ++ [Action.load status]).count status.counted := by
      rw [count_append_other uncounted]
      exact tracks.counter
    refine ⟨counter, tracks.recorded, tracks.reported.append nofun, ?_⟩
    -- What is read now is behind nothing that was seen before.
    intro latest same
    obtain rfl := Option.some.inj same
    refine ⟨?_, actions ++ [.load status], [], (List.append_nil _).symm, counter, by simp⟩
    rw [tracks.counter]
    exact tracks.reported.le
  | report latest read =>
    obtain ⟨-, seen⟩ := tracks.latest latest read
    obtain ⟨growth, -, -⟩ := tracks.recordValue_toInt (by omega) read
    refine ⟨?_, ?_, seen.append fun _ => ⟨trivial, nofun⟩, nofun⟩
    · rw [count_append_other (by cases status <;> decide)]
      exact tracks.counter
    · -- What was recorded before is what the growth is counted from.
      change before.recorded + _ = (latest.toNat : ℤ)
      rw [growth, tracks.recorded]
      omega
  | other action counts reads reports =>
    refine ⟨?_, tracks.recorded, tracks.reported.append fun none => ⟨none, reads⟩, ?_⟩
    · rw [count_append_other counts]
      exact tracks.counter
    · exact fun latest same => tracks.latest_append reads same

/-- As long as there are fewer steps than the counters can count, each status is on track. -/
theorem tracks_of_run {tpc : State} (run : Run Step newTPSCounter actions tpc)
    (few : actions.length < 2 ^ 63) (status : Status) :
    (tpc.view status).Tracks status actions := by
  -- The invariant is what each status has seen of its own counter.
  induction run with
  | start => cases status <;> exact ⟨rfl, rfl, ⟨[], [], rfl, rfl, nofun⟩, nofun⟩
  | extend earlier taken ih =>
    rw [List.length_append, List.length_singleton] at few
    exact (taken.change status).tracks (ih (by omega)) few

end Once

section Logs

/-- What is recorded in this round and not logged yet. -/
def Loop.unlogged : Loop → ℤ
  | recordedSuccess _ _ nTxn => nTxn.toInt
  | recordedFailure _ _ nTxn => nTxn.toInt
  | _ => 0

/-- What is logged is what is recorded, up to the round under way. -/
structure State.Logs (tpc : State) (actions : List Action) : Prop where
  total : tpc.logged + tpc.loop.unlogged = tpc.recorded .success + tpc.recorded .failure
  -- So that the sum of the round does not overflow.
  small : ∀ latestS latestF nTxn, tpc.loop = .recordedSuccess latestS latestF nTxn →
    0 ≤ nTxn.toInt ∧ nTxn.toInt ≤ actions.count Status.success.counted

theorem count_add_count_le (actions : List Action) :
    actions.count Status.success.counted + actions.count Status.failure.counted ≤
      actions.length := by
  induction actions with
  | nil => simp
  | cons action actions ih =>
    -- No action counts for both statuses.
    have one : ¬(action = Status.success.counted ∧ action = Status.failure.counted) := by
      rintro ⟨rfl, other⟩
      cases other
    simp only [List.count_cons, List.length_cons, beq_iff_eq]
    split <;> split <;> first | omega | exact absurd ⟨‹_›, ‹_›⟩ one

/-- Each step keeps the logs in line with the records. -/
theorem Step.logs {before after : State} {action : Action} {actions : List Action}
    (taken : Step before action after) (logs : before.Logs actions)
    (tracks : ∀ status, (before.view status).Tracks status actions)
    (few : actions.length + 1 < 2 ^ 63) : after.Logs (actions ++ [action]) := by
  unfold Step at taken
  obtain ⟨total, small⟩ := logs
  have bounds := count_add_count_le actions
  -- Counting may go on between the two records of a round.
  have later {number : ℤ} (before : number ≤ actions.count Status.success.counted) :
      number ≤ (actions ++ [action]).count Status.success.counted := by
    rw [List.count_append]
    omega
  obtain ⟨nS, nF, lastS, lastF, loop, records, logged⟩ := before
  cases action with
  | deliverTx isErr =>
    have kept (latestS latestF : UInt64) (nTxn : Int64)
        (stage : loop = .recordedSuccess latestS latestF nTxn) := small latestS latestF nTxn stage
    cases isErr <;> obtain rfl := Option.some.inj taken <;>
      exact ⟨total, fun latestS latestF nTxn stage =>
        ⟨(kept latestS latestF nTxn stage).1, later (kept latestS latestF nTxn stage).2⟩⟩
  | load read => cases read <;> cases loop <;> cases taken <;> exact ⟨total, nofun⟩
  | record recorded =>
    cases recorded with
    | success =>
      cases loop <;> cases taken
      next latestS latestF =>
      obtain ⟨growth, forward, most⟩ :
          (recordValue latestS lastS .success).1.toInt = latestS.toNat - lastS.toNat ∧
            lastS.toNat ≤ latestS.toNat ∧ _ := (tracks .success).recordValue_toInt (by omega) rfl
      refine ⟨?_, ?_⟩
      · simp only [State.recorded, State.logged, Loop.unlogged, recordedFor_append_recordValue,
          reduceCtorEq, if_true, if_false, add_zero] at total ⊢
        omega
      · intro _ _ nTxn stage
        obtain ⟨-, -, rfl⟩ := Loop.recordedSuccess.inj stage
        rw [growth]
        exact ⟨by omega, later (by omega)⟩
    | failure =>
      cases loop <;> cases taken
      next latestS latestF nTxn =>
      obtain ⟨growth, forward, most⟩ :
          (recordValue latestF lastF .failure).1.toInt = latestF.toNat - lastF.toNat ∧
            lastF.toNat ≤ latestF.toNat ∧ _ := (tracks .failure).recordValue_toInt (by omega) rfl
      obtain ⟨positive, bounded⟩ := small latestS latestF nTxn rfl
      refine ⟨?_, nofun⟩
      -- There are not more transactions than steps, so the sum is exact.
      have sum : (nTxn + (recordValue latestF lastF .failure).1).toInt =
          nTxn.toInt + (recordValue latestF lastF .failure).1.toInt := by
        rw [Int64.toInt_add, Int.bmod_eq_of_le] <;> omega
      simp only [State.recorded, State.logged, Loop.unlogged, recordedFor_append_recordValue,
        reduceCtorEq, if_true, if_false, add_zero, sum] at total ⊢
      omega
  | log =>
    cases loop <;> cases taken
    next latestS latestF nTxn =>
    refine ⟨?_, nofun⟩
    -- Only a round without transactions is not logged.
    by_cases none : nTxn = 0
    · simp only [none, State.recorded, State.logged, Loop.unlogged, ne_eq, not_true, if_false,
        Int64.toInt_zero] at total ⊢
      exact total
    · simp only [State.recorded, State.logged, Loop.unlogged, ne_eq, none, not_false_eq_true,
        if_true, List.map_append, List.sum_append, List.map_cons, List.map_nil, List.sum_singleton,
        add_zero] at total ⊢
      exact total
  | keep =>
    cases loop <;> cases taken
    exact ⟨total, nofun⟩
  | done =>
    cases loop <;> cases taken
    exact ⟨total, nofun⟩

theorem logs_of_run {actions : List Action} {tpc : State}
    (run : Run Step newTPSCounter actions tpc) (few : actions.length < 2 ^ 63) :
    tpc.Logs actions := by
  induction run with
  | start => exact ⟨rfl, nofun⟩
  | extend earlier taken ih =>
    rw [List.length_append, List.length_singleton] at few
    -- What is logged depends on both statuses being on track.
    exact taken.logs (ih (by omega)) (tracks_of_run earlier (by omega)) few

end Logs

/--
However counting and reporting interleave, every transaction is recorded once.

What is recorded for a status are the transactions before some moment. After a complete round, the
counter was not read since, so these are all that were counted before the last round read it. What
is logged is what is recorded.
-/
theorem transactions_are_recorded_once {actions : List Action} {tpc : State}
    (run : Run Step newTPSCounter actions tpc) (few : actions.length < 2 ^ 63) :
    (∀ status, ∃ earlier later, actions = earlier ++ later ∧
      tpc.recorded status = earlier.count status.counted ∧
        (tpc.loop = .waiting → Action.load status ∉ later)) ∧
      (tpc.loop = .waiting → tpc.logged = tpc.recorded .success + tpc.recorded .failure) := by
  refine ⟨?_, ?_⟩
  · intro status
    have track := tracks_of_run run few status
    obtain ⟨earlier, later, split, exact, last⟩ := track.reported
    have recorded : tpc.recorded status = (tpc.view status).recorded := by cases status <;> rfl
    refine ⟨earlier, later, split, ?_, ?_⟩
    · rw [recorded, track.recorded, exact]
    · intro waiting
      apply last
      -- A loop that waits has recorded all that it has read.
      cases status <;> simp only [State.view, waiting, Loop.latest]
  · intro waiting
    have total := (logs_of_run run few).total
    rw [waiting] at total
    exact (add_zero _).symm.trans total

section Evaluation

/-- A round in which transactions are counted between the reads of the two counters. -/
def racingRound : List Action :=
  [.deliverTx false, .load .success, .deliverTx false, .deliverTx true, .load .failure,
    .record .success, .deliverTx true, .record .failure, .log, .keep]

/-- Actions that are possible one after the other are a run. -/
theorem run_of_foldlM {actions : List Action} {tpc last : State}
    (possible : actions.foldlM step tpc = some last) : Run Step tpc actions last := by
  -- A run grows at its end, and so does the fold.
  induction actions using List.reverseRecOn generalizing last with
  | nil =>
    obtain rfl := Option.some.inj possible
    exact .start
  | append_singleton actions action ih =>
    rw [List.foldlM_append] at possible
    obtain ⟨between, earlier, taken⟩ := Option.bind_eq_some_iff.mp possible
    refine .extend (ih earlier) ?_
    simpa [Step] using taken

/-- The counter after the round, with two transactions left for the next one. -/
def racedCounter : State := ⟨2, 2, 1, 1, .waiting, [(.success, 1), (.failure, 1)], [2]⟩

/-- The round records and logs one transaction of each status. -/
theorem racingRound_recorded :
    Run Step newTPSCounter racingRound racedCounter ∧
      (∀ status, ∃ earlier later, racingRound = earlier ++ later ∧
        racedCounter.recorded status = earlier.count status.counted ∧
          (racedCounter.loop = .waiting → Action.load status ∉ later)) ∧
      racedCounter.loop = .waiting ∧ racedCounter.logged = 2 ∧
      racedCounter.logged = racedCounter.recorded .success + racedCounter.recorded .failure := by
  have run : Run Step newTPSCounter racingRound racedCounter := run_of_foldlM (by decide)
  -- One complete round ends after a transaction was counted behind its reading.
  obtain ⟨recorded, logged⟩ := transactions_are_recorded_once run (by decide)
  exact ⟨run, recorded, rfl, by decide, logged rfl⟩

end Evaluation

end Evmos.App.TpsCounter
