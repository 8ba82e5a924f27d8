import Evmos.Epochs.Chain
import Evmos.Proofs.Epochs.BeginBlocker

/-! The clock of one epoch record: what every block makes of it, and the hook calls of a run. -/

namespace Evmos.Epochs

open Library

variable {σ : Type} {hooks : EpochHooks σ} {identifier : String}

/-- What one block makes of a record, and which hooks it calls. -/
def tick (ctx : Context) (info : EpochInfo) : EpochInfo × List HookCall :=
  let now := { info with currentEpochStartHeight := ctx.blockHeight }
  if info.epochCountingStarted = false ∧ info.startTime ≤ ctx.blockTime then
    (now.startInitialEpoch, [.beforeEpochStart info.identifier 1])
  else if info.epochCountingStarted = true ∧ info.startTime ≤ ctx.blockTime ∧
      info.currentEpochStartTime + info.duration < ctx.blockTime then
    (now.endEpoch, [.afterEpochEnd info.identifier (info.currentEpoch + 1),
      .beforeEpochStart info.identifier (info.currentEpoch + 1)])
  else (info, [])

section Visits

variable {ctx : Context} {s after : State (σ × List HookCall)} {info : EpochInfo}

theorem startEpoch_traced (done : startEpoch (traced hooks) s info = .ok after) :
    after.epochInfos = s.epochInfos.set info.identifier info ∧
      after.hooked.2 = s.hooked.2 ++ [.beforeEpochStart info.identifier info.currentEpoch] := by
  obtain ⟨hooked, before, rfl⟩ := startEpoch_ok done
  -- The traced hooks run the others and then note the call.
  obtain ⟨inner, -, same⟩ := bind_eq_ok.mp before
  obtain rfl := Except.ok.inj same
  exact ⟨rfl, rfl⟩

/-- A visit does to its record what the clock says, and leaves the store alone if that is nothing. -/
theorem visitEpochInfo_tick (done : visitEpochInfo (traced hooks) ctx s info = .ok after) :
    (after.epochInfos = s.epochInfos ∧ (tick ctx info).1 = info ∨
      after.epochInfos = s.epochInfos.set info.identifier (tick ctx info).1) ∧
      after.hooked.2 = s.hooked.2 ++ (tick ctx info).2 := by
  simp only [visitEpochInfo] at done
  split_ifs at done with start ends
  · -- Counting starts.
    have due : info.epochCountingStarted = false ∧ info.startTime ≤ ctx.blockTime := by
      simpa using start
    obtain ⟨stored, noted⟩ := startEpoch_traced done
    rw [tick, if_pos due]
    exact ⟨.inr stored, noted⟩
  · -- An epoch ends, and the hook gets the number of the next one.
    have later : ¬(info.epochCountingStarted = false ∧ info.startTime ≤ ctx.blockTime) := by
      simpa using start
    have due : info.epochCountingStarted = true ∧ info.startTime ≤ ctx.blockTime ∧
        info.currentEpochStartTime + info.duration < ctx.blockTime := by
      simp only [Bool.and_eq_true, decide_eq_true_eq, Bool.not_eq_true', decide_eq_false_iff_not,
        not_lt] at ends
      refine ⟨?_, ends.2, ends.1.1⟩
      by_contra unstarted
      exact later ⟨by simpa using unstarted, ends.2⟩
    obtain ⟨between, ended, done⟩ := bind_eq_ok.mp done
    obtain ⟨inner, -, same⟩ := bind_eq_ok.mp ended
    obtain rfl := Except.ok.inj same
    obtain ⟨stored, noted⟩ := startEpoch_traced done
    rw [tick, if_neg later, if_pos due]
    refine ⟨.inr stored, ?_⟩
    rw [noted]
    exact List.append_assoc _ _ _
  · -- The record is not due.
    obtain rfl := Except.ok.inj done
    have later : ¬(info.epochCountingStarted = false ∧ info.startTime ≤ ctx.blockTime) := by
      simpa using start
    have early : ¬(info.epochCountingStarted = true ∧ info.startTime ≤ ctx.blockTime ∧
        info.currentEpochStartTime + info.duration < ctx.blockTime) := by
      rintro ⟨counted, begun, past⟩
      refine ends ?_
      simp [counted, past, begun]
    rw [tick, if_neg later, if_neg early]
    exact ⟨.inl ⟨rfl, rfl⟩, (List.append_nil _).symm⟩

/-- The clock calls the hooks for its own record only. -/
theorem identifier_of_mem_tick {call : HookCall} (member : call ∈ (tick ctx info).2) :
    call.identifier = info.identifier := by
  unfold tick at member
  -- The calls of a start, of an end with the next start, and of no change.
  split_ifs at member
  · obtain rfl := List.mem_singleton.mp member
    rfl
  · rcases List.mem_cons.mp member with rfl | member
    · rfl
    · obtain rfl := List.mem_singleton.mp member
      rfl
  · cases member

/-- The calls of a visit, seen from one identifier. -/
theorem callsFor_visit (noted : after.hooked.2 = s.hooked.2 ++ (tick ctx info).2)
    (identifier : String) :
    after.callsFor identifier = s.callsFor identifier ++
      if info.identifier = identifier then (tick ctx info).2 else [] := by
  rw [State.callsFor, noted, List.filter_append, ← State.callsFor]
  congr 1
  -- All calls of the visit have the identifier of the record, or none has.
  split_ifs with here
  · refine List.filter_eq_self.mpr ?_
    intro call member
    simpa [identifier_of_mem_tick member] using here
  · refine List.filter_eq_nil_iff.mpr ?_
    intro call member
    simpa [identifier_of_mem_tick member] using here

/-- Visits of other records leave a record and its calls alone. -/
theorem visits_elsewhere {identifier : String} (entries : List (String × EpochInfo))
    (others : ∀ entry ∈ entries, entry.2.identifier ≠ identifier) :
    ∀ {s last : State (σ × List HookCall)},
      entries.foldlM (fun s entry => visitEpochInfo (traced hooks) ctx s entry.2) s = .ok last →
      last.epochInfos.get? identifier = s.epochInfos.get? identifier ∧
        last.callsFor identifier = s.callsFor identifier := by
  induction entries with
  | nil =>
    intro s last done
    obtain rfl := Except.ok.inj done
    exact ⟨rfl, rfl⟩
  | cons entry entries ih =>
    intro s last done
    obtain ⟨here, later⟩ := List.forall_mem_cons.mp others
    rw [List.foldlM_cons] at done
    obtain ⟨middle, visited, done⟩ := bind_eq_ok.mp done
    obtain ⟨stored, noted⟩ := visitEpochInfo_tick visited
    obtain ⟨rest, calls⟩ := ih later done
    -- Another epoch is stored under its own identifier, if it is stored at all.
    have first : middle.epochInfos.get? identifier = s.epochInfos.get? identifier := by
      rcases stored with ⟨same, -⟩ | set
      · rw [same]
      · rw [set, Store.get?_set_of_ne _ here.symm]
    refine ⟨rest.trans first, calls.trans ?_⟩
    rw [callsFor_visit noted, if_neg here, List.append_nil]

end Visits

/-- Whatever the hooks do, a block advances every record by one tick of its clock. -/
theorem beginBlocker_tick {ctx : Context} {s last : State (σ × List HookCall)}
    (keyed : Keyed s.epochInfos) (done : beginBlocker (traced hooks) ctx s = .ok last)
    {info : EpochInfo} (stored : s.epochInfos.get? identifier = some info) :
    last.epochInfos.get? identifier = some (tick ctx info).1 ∧
      last.callsFor identifier = s.callsFor identifier ++ (tick ctx info).2 := by
  have named := keyed identifier info stored
  -- The record is visited once, after some of the others and before the rest of them.
  obtain ⟨front, back, split⟩ := List.append_of_mem (Store.get?_eq_some.mp stored)
  have sorted := s.epochInfos.sorted
  rw [split] at sorted
  have own : ∀ entry ∈ s.epochInfos.entries, entry.2.identifier = entry.1 := fun entry member =>
    keyed entry.1 entry.2 (Store.get?_eq_some.mpr member)
  have before : ∀ entry ∈ front, entry.2.identifier ≠ identifier := by
    intro entry member
    rw [own entry (split ▸ List.mem_append_left _ member)]
    exact ((List.pairwise_append.mp sorted).2.2 entry member _ List.mem_cons_self).ne
  have behind : ∀ entry ∈ back, entry.2.identifier ≠ identifier := by
    intro entry member
    rw [own entry (split ▸ List.mem_append_right _ (List.mem_cons_of_mem _ member))]
    exact ((List.pairwise_cons.mp (List.pairwise_append.mp sorted).2.1).1 entry member).ne'
  rw [beginBlocker, split, List.foldlM_append] at done
  obtain ⟨first, visitedFront, done⟩ := bind_eq_ok.mp done
  rw [List.foldlM_cons] at done
  obtain ⟨second, visited, visitedBack⟩ := bind_eq_ok.mp done
  obtain ⟨found, calls⟩ := visits_elsewhere front before visitedFront
  obtain ⟨kept, rest⟩ := visits_elsewhere back behind visitedBack
  obtain ⟨ticked, noted⟩ := visitEpochInfo_tick visited
  rw [kept, rest, callsFor_visit noted, if_pos named, calls]
  refine ⟨?_, rfl⟩
  rcases ticked with ⟨same, idle⟩ | set
  · rw [same, found, stored, idle]
  · rw [set, named, Store.get?_set_self]

/-- The same for a block of a run, between which the modules behind the hooks may change. -/
theorem Step.tick {before after : State (σ × List HookCall)} {block : Block σ}
    (taken : Step hooks before block after) (keyed : Keyed before.epochInfos) {info : EpochInfo}
    (stored : before.epochInfos.get? identifier = some info) :
    Keyed after.epochInfos ∧
      after.epochInfos.get? identifier = some (Epochs.tick block.context info).1 ∧
      after.callsFor identifier =
        before.callsFor identifier ++ (Epochs.tick block.context info).2 := by
  -- The calls noted down so far are those of the state before the block.
  let begun : State (σ × List HookCall) := ⟨before.epochInfos, (block.hooked, before.hooked.2)⟩
  have keyed : Keyed begun.epochInfos := keyed
  refine ⟨?_, beginBlocker_tick keyed taken stored⟩
  exact (beginBlocker_invariant (fun _ => True) (fun _ _ _ _ => trivial) keyed trivial taken).2

/-- The number of epochs of a record that have started. -/
def EpochInfo.epochsStarted (info : EpochInfo) : ℕ :=
  if info.epochCountingStarted then info.currentEpoch.toNat else 0

/--
The hook calls of a number of epochs that have started.

Between the starts of two epochs, the hook for the end is called once, with the number of the
epoch that starts.
-/
def hookCalls (identifier : String) : ℕ → List HookCall
  | 0 => []
  | 1 => [.beforeEpochStart identifier 1]
  | n + 2 => hookCalls identifier (n + 1) ++
      [.afterEpochEnd identifier (n + 2), .beforeEpochStart identifier (n + 2)]

/-- The block times from the first one on that is not before the start time. -/
def due (startTime : Time) (times : List Time) : List Time := times.dropWhile (· < startTime)

section Due

variable {startTime : Time} {times : List Time}

theorem due_eq_nil_iff : due startTime times = [] ↔ ∀ time ∈ times, time < startTime := by
  simp [due]

theorem due_append (now : Time) :
    due startTime (times ++ [now]) =
      if due startTime times = [] then due startTime [now] else due startTime times ++ [now] := by
  unfold due
  rw [List.dropWhile_append]
  -- Either no block was due before, or everything after the first one is kept.
  by_cases none : times.dropWhile (· < startTime) = []
  · simp [none]
  · simp [none]

end Due

/-- A record that has seen some blocks since it was set, unstarted, by the genesis. -/
structure Clock (info : EpochInfo) (times : List Time) (current : EpochInfo) : Prop where
  identifier : current.identifier = info.identifier
  startTime : current.startTime = info.startTime
  duration : current.duration = info.duration
  -- Counting starts in the first block that is not before the start time.
  counting : current.epochCountingStarted = true ↔ ∃ time ∈ times, info.startTime ≤ time
  counted : current.epochCountingStarted = true → 1 ≤ current.currentEpoch
  onTime : current.epochCountingStarted = true →
    current.currentEpochStartTime = info.startTime + (current.currentEpoch - 1) * info.duration
  -- The first epoch lasts until a block after the one that started it lies beyond its end.
  first : current.epochsStarted ≤ 1 ↔ ∀ time ∈ (due info.startTime times).tail,
    time < info.startTime ∨ time ≤ info.startTime + info.duration

/-- A block leaves a record as it is, or starts one more epoch, which begins before the block. -/
inductive Ticked (time : Time) (info next : EpochInfo) : Prop where
  | idle (same : next = info)
  | advanced (counting : next.epochCountingStarted = true)
      (number : next.epochsStarted = info.epochsStarted + 1)
      (begun : next.currentEpochStartTime ≤ time)

namespace Clock

variable {info current : EpochInfo} {times : List Time}

theorem initially (unstarted : info.epochCountingStarted = false) : Clock info [] info where
  identifier := rfl
  startTime := rfl
  duration := rfl
  counting := by simp [unstarted]
  counted started := by simp [unstarted] at started
  onTime started := by simp [unstarted] at started
  first := by simp [EpochInfo.epochsStarted, unstarted, due]

theorem due_eq_nil (clock : Clock info times current)
    (unstarted : current.epochCountingStarted = false) : due info.startTime times = [] := by
  rw [due_eq_nil_iff]
  intro time member
  -- A block that was due would have started the counting.
  by_contra begun
  have counting := clock.counting.mpr ⟨time, member, not_lt.mp begun⟩
  simp [unstarted] at counting

theorem tail_due (clock : Clock info times current) (counted : current.epochCountingStarted = true)
    (now : Time) :
    (due info.startTime (times ++ [now])).tail = (due info.startTime times).tail ++ [now] := by
  obtain ⟨time, member, begun⟩ := clock.counting.mp counted
  -- The block that started the counting was due.
  have some : due info.startTime times ≠ [] := by
    rw [ne_eq, due_eq_nil_iff]
    intro none
    exact absurd begun (not_le.mpr (none time member))
  rw [due_append, if_neg some, List.tail_append_of_ne_nil some]

/-- The first epoch starts at the start time, by this block. -/
theorem start (clock : Clock info times current) {ctx : Context}
    (unstarted : current.epochCountingStarted = false) (begun : current.startTime ≤ ctx.blockTime) :
    Clock info (times ++ [ctx.blockTime]) (EpochInfo.startInitialEpoch
      { current with currentEpochStartHeight := ctx.blockHeight }) where
  identifier := clock.identifier
  startTime := clock.startTime
  duration := clock.duration
  counting := ⟨fun _ => ⟨ctx.blockTime, by simp, clock.startTime ▸ begun⟩, fun _ => rfl⟩
  counted _ := le_rfl
  onTime _ := by simp [EpochInfo.startInitialEpoch, clock.startTime]
  first := by
    -- This block is the only one that was due.
    have alone : (due info.startTime (times ++ [ctx.blockTime])).tail = [] := by
      rw [due_append, if_pos (clock.due_eq_nil unstarted), due, List.dropWhile_cons]
      split_ifs <;> rfl
    simp [alone, EpochInfo.epochsStarted, EpochInfo.startInitialEpoch]

/-- The next epoch starts where the last one has ended. -/
theorem endEpoch (clock : Clock info times current) {ctx : Context}
    (counted : current.epochCountingStarted = true) (begun : current.startTime ≤ ctx.blockTime)
    (past : current.currentEpochStartTime + current.duration < ctx.blockTime) :
    Clock info (times ++ [ctx.blockTime]) (EpochInfo.endEpoch
      { current with currentEpochStartHeight := ctx.blockHeight }) where
  identifier := clock.identifier
  startTime := clock.startTime
  duration := clock.duration
  counting := ⟨fun _ => ⟨ctx.blockTime, by simp, clock.startTime ▸ begun⟩, fun _ => counted⟩
  counted _ := (clock.counted counted).trans (Int.le_add_one le_rfl)
  onTime _ := by
    change current.currentEpochStartTime + current.duration =
      info.startTime + (current.currentEpoch + 1 - 1) * info.duration
    rw [clock.onTime counted, clock.duration]
    ring
  first := by
    have least := clock.counted counted
    -- The second epoch has started, so one of the blocks was beyond the end of the first one.
    have more : ¬(EpochInfo.endEpoch
        { current with currentEpochStartHeight := ctx.blockHeight }).epochsStarted ≤ 1 := by
      simp only [EpochInfo.epochsStarted, EpochInfo.endEpoch, counted, if_true]
      omega
    refine iff_of_false more ?_
    intro within
    rw [clock.tail_due counted] at within
    have single : current.epochsStarted ≤ 1 :=
      clock.first.mpr fun time member => within time (List.mem_append_left _ member)
    simp only [EpochInfo.epochsStarted, counted, if_true] at single
    have one : current.currentEpoch = 1 := by omega
    rw [clock.onTime counted, clock.duration, one] at past
    rw [clock.startTime] at begun
    rcases within ctx.blockTime (by simp) with early | inside
    · exact absurd begun (not_le.mpr early)
    · simp only [sub_self, zero_mul, add_zero] at past
      exact absurd past (not_lt.mpr inside)

/-- A block that changes nothing comes before the start time or before the end of the epoch. -/
theorem idle (clock : Clock info times current) {ctx : Context}
    (later : ¬(current.epochCountingStarted = false ∧ current.startTime ≤ ctx.blockTime))
    (early : ¬(current.epochCountingStarted = true ∧ current.startTime ≤ ctx.blockTime ∧
      current.currentEpochStartTime + current.duration < ctx.blockTime)) :
    Clock info (times ++ [ctx.blockTime]) current := by
  refine ⟨clock.identifier, clock.startTime, clock.duration, ?_, clock.counted, clock.onTime, ?_⟩
  · rw [clock.counting]
    constructor
    · rintro ⟨time, member, begun⟩
      exact ⟨time, List.mem_append_left _ member, begun⟩
    · rintro ⟨time, member, begun⟩
      rcases List.mem_append.mp member with earlier | now
      · exact ⟨time, earlier, begun⟩
      · rw [List.mem_singleton.mp now, ← clock.startTime] at begun
        rw [← clock.counting]
        by_contra unstarted
        exact later ⟨by simpa using unstarted, begun⟩
  · rw [clock.first]
    by_cases counted : current.epochCountingStarted = true
    · rw [clock.tail_due counted, List.forall_mem_append]
      refine ⟨fun within => ⟨within, ?_⟩, fun within => within.1⟩
      -- Only the first epoch is of interest, and it begins at the start time.
      have single := clock.first.mpr within
      have least := clock.counted counted
      simp only [EpochInfo.epochsStarted, counted, if_true] at single
      have one : current.currentEpoch = 1 := by omega
      intro time member
      rw [List.mem_singleton.mp member]
      by_contra beyond
      rw [not_or, not_lt, not_le] at beyond
      refine early ⟨counted, clock.startTime ▸ beyond.1, ?_⟩
      rw [clock.onTime counted, clock.duration, one]
      simpa using beyond.2
    · -- Nothing was due before, and nothing is now.
      have unstarted : current.epochCountingStarted = false := by simpa using counted
      have before : ctx.blockTime < info.startTime := by
        rw [← clock.startTime]
        exact not_le.mp fun begun => later ⟨unstarted, begun⟩
      have none := clock.due_eq_nil unstarted
      rw [due_append, if_pos none, none]
      simp [due, before]

theorem tick (clock : Clock info times current) (ctx : Context) :
    Clock info (times ++ [ctx.blockTime]) (tick ctx current).1 := by
  unfold Epochs.tick
  -- The first epoch starts, an epoch ends, or nothing is due.
  split_ifs with start ends
  · exact clock.start start.1 start.2
  · exact clock.endEpoch ends.1 ends.2.1 ends.2.2
  · exact clock.idle start ends

/-- What one block does to a clock that is on time. -/
theorem ticked (clock : Clock info times current) (ctx : Context) :
    Ticked ctx.blockTime current (Epochs.tick ctx current).1 := by
  unfold Epochs.tick
  split_ifs with start ends
  · refine .advanced rfl ?_ start.2
    simp [EpochInfo.epochsStarted, EpochInfo.startInitialEpoch, start.1]
  · refine .advanced ends.1 ?_ ends.2.2.le
    -- Counting has started, so the number is at least one before it grows.
    have least := clock.counted ends.1
    simp only [EpochInfo.epochsStarted, EpochInfo.endEpoch, ends.1, if_true]
    omega
  · exact .idle rfl

/-- One tick appends the hook calls of the epoch that starts, if one does. -/
theorem calls_tick (clock : Clock info times current) (ctx : Context) :
    hookCalls info.identifier current.epochsStarted ++ (Epochs.tick ctx current).2 =
      hookCalls info.identifier (Epochs.tick ctx current).1.epochsStarted := by
  unfold Epochs.tick
  split_ifs with start ends
  · simp [EpochInfo.epochsStarted, EpochInfo.startInitialEpoch, start.1, hookCalls,
      clock.identifier]
  · -- At least one epoch has started, and the new number is one more.
    obtain ⟨n, number⟩ : ∃ n : ℕ, current.currentEpoch = n + 1 :=
      ⟨(current.currentEpoch - 1).toNat, by have := clock.counted ends.1; omega⟩
    have before : current.epochsStarted = n + 1 := by
      simp only [EpochInfo.epochsStarted, ends.1, if_true, number]
      omega
    have after : (EpochInfo.endEpoch { current with
        currentEpochStartHeight := ctx.blockHeight }).epochsStarted = n + 2 := by
      simp only [EpochInfo.epochsStarted, EpochInfo.endEpoch, ends.1, if_true, number]
      omega
    have next : current.currentEpoch + 1 = (n : ℤ) + 2 := by omega
    rw [before, after, hookCalls, clock.identifier, next]
  · exact List.append_nil _

end Clock

/-- Over every run the record follows its clock, and the hook calls are those of its epochs. -/
theorem run_clock {ctx : Context} {epochs : List EpochInfo} {hooked : σ} {info : EpochInfo}
    (stored : (genesis ctx epochs hooked).epochInfos.get? identifier = some info)
    (unstarted : info.epochCountingStarted = false) {blocks : List (Block σ)}
    {reached : State (σ × List HookCall)}
    (run : Run (Step hooks) (genesis ctx epochs hooked) blocks reached) :
    Keyed reached.epochInfos ∧ ∃ current, reached.epochInfos.get? identifier = some current ∧
      Clock info (blocks.map Block.blockTime) current ∧
      reached.callsFor identifier = hookCalls identifier current.epochsStarted := by
  have keyed : Keyed (genesis ctx epochs hooked).epochInfos :=
    initGenesis_keyed ctx epochs _ (by intro identifier info absent; cases absent)
  have named : info.identifier = identifier := keyed identifier info stored
  -- One block after the other, each tick of the clock adds its hook calls.
  induction run with
  | start =>
    refine ⟨keyed, info, stored, .initially unstarted, ?_⟩
    rw [EpochInfo.epochsStarted, unstarted, State.callsFor, genesis, initGenesis_hooked]
    rfl
  | @extend blocks block before after earlier taken ih =>
    obtain ⟨keyed, current, found, clock, calls⟩ := ih
    obtain ⟨keyed, next, noted⟩ := taken.tick keyed found
    refine ⟨keyed, _, next, ?_, ?_⟩
    · rw [List.map_append]
      exact clock.tick block.context
    · rw [noted, calls, ← named]
      exact clock.calls_tick block.context

/--
The clock of an epoch record that the genesis has set and that has not started.

The record keeps its start time and its duration, and once counting has started its epochs begin
one duration after the other.
Counting has started exactly when there was a block that is not before the start time.
The hooks are called for the epochs one, two, three and so on, with one end between two starts.
Each block leaves the record as it is, or starts one more epoch, which begins no later.
-/
theorem epoch_clock_runs_on_time (hooks : EpochHooks σ) {ctx : Context} {epochs : List EpochInfo}
    {hooked : σ} {identifier : String} {info : EpochInfo}
    (stored : (genesis ctx epochs hooked).epochInfos.get? identifier = some info)
    (unstarted : info.epochCountingStarted = false) {blocks : List (Block σ)}
    {reached : State (σ × List HookCall)}
    (run : Run (Step hooks) (genesis ctx epochs hooked) blocks reached) :
    ∃ current, reached.epochInfos.get? identifier = some current ∧
      current.startTime = info.startTime ∧ current.duration = info.duration ∧
      (current.epochCountingStarted = true → 1 ≤ current.currentEpoch ∧
        current.currentEpochStartTime =
          current.startTime + (current.currentEpoch - 1) * current.duration) ∧
      (current.epochCountingStarted = true ↔ ∃ block ∈ blocks, info.startTime ≤ block.blockTime) ∧
      reached.callsFor identifier = hookCalls identifier current.epochsStarted ∧
      ∀ block after, Step hooks reached block after →
        ∃ next, after.epochInfos.get? identifier = some next ∧
          Ticked block.blockTime current next := by
  obtain ⟨keyed, current, found, clock, calls⟩ := run_clock stored unstarted run
  refine ⟨current, found, clock.startTime, clock.duration, ?_, ?_, calls, ?_⟩
  · -- The clock is kept in terms of the genesis values, which never change.
    intro started
    rw [clock.startTime, clock.duration]
    exact ⟨clock.counted started, clock.onTime started⟩
  · rw [clock.counting]
    simp
  · intro block after taken
    exact ⟨_, (taken.tick keyed found).2.1, clock.ticked block.context⟩

theorem Step.of_eq {before after : State (σ × List HookCall)} {block : Block σ}
    (done : beginBlocker (traced hooks) block.context
      ⟨before.epochInfos, (block.hooked, before.hooked.2)⟩ = .ok after) :
    Step hooks before block after := done

/-- Hooks that do nothing, for evaluation. -/
def idleHooks : EpochHooks Unit := ⟨fun _ _ _ => .ok (), fun _ _ _ => .ok ()⟩

/-- A record that starts at ten and has epochs of five. -/
def fives : EpochInfo := ⟨"five", 10, 5, 0, 0, false, 0⟩

/-- A block at a time. -/
def blockAt (time : Time) : Block Unit := ⟨time, 7, ()⟩

/-- A chain that was halted catches up one epoch in each block. -/
theorem halted_clock_catches_up :
    ∃ reached, Run (Step idleHooks) (genesis ⟨1, 1⟩ [fives] ())
        [blockAt 3, blockAt 12, blockAt 90, blockAt 91] reached ∧
      reached.callsFor "five" = hookCalls "five" 3 ∧
      ∃ current, reached.epochInfos.get? "five" = some current ∧
        current.currentEpochStartTime =
          current.startTime + (current.currentEpoch - 1) * current.duration := by
  -- The run is evaluated, and the theorem gives the start of the current epoch.
  have ran : ∃ reached, Run (Step idleHooks) (genesis ⟨1, 1⟩ [fives] ())
        [blockAt 3, blockAt 12, blockAt 90, blockAt 91] reached ∧
      reached.callsFor "five" = hookCalls "five" 3 ∧
      (reached.epochInfos.get? "five").any EpochInfo.epochCountingStarted = true :=
    ⟨_, .extend (.extend (.extend (.extend .start (.of_eq rfl)) (.of_eq rfl)) (.of_eq rfl)) (.of_eq rfl),
      rfl, rfl⟩
  obtain ⟨reached, run, calls, started⟩ := ran
  have stored : (genesis ⟨1, 1⟩ [fives] ()).epochInfos.get? "five" =
      some { fives with currentEpochStartHeight := 1 } := rfl
  obtain ⟨current, found, -, -, onTime, -⟩ := epoch_clock_runs_on_time idleHooks stored rfl run
  rw [found] at started
  exact ⟨reached, run, calls, current, found, (onTime started).2⟩

/-- The hook calls as documented: an epoch starts, and ends with the same number. -/
def documentedCall (identifier : String) (position : ℕ) : HookCall :=
  if position % 2 = 0 then .beforeEpochStart identifier (position / 2 + 1)
  else .afterEpochEnd identifier (position / 2 + 1)

/-- The calls are the first ones of those documented. -/
def Documented (identifier : String) (calls : List HookCall) : Prop :=
  calls = (List.range calls.length).map (documentedCall identifier)

instance (identifier : String) (calls : List HookCall) : Decidable (Documented identifier calls) :=
  inferInstanceAs (Decidable (_ = _))

theorem hookCalls_second (identifier : String) (n : ℕ) :
    (hookCalls identifier (n + 2))[1]? = some (.afterEpochEnd identifier 2) := by
  induction n with
  | zero => rfl
  | succ n ih =>
    -- Later epochs append to the calls, so the second call stays where it is.
    have inside := (List.getElem?_eq_some_iff.mp ih).1
    rw [hookCalls, List.getElem?_append_left inside]
    exact ih

/-- The hook calls are as documented until an epoch ends. -/
theorem hookCalls_documented_iff (identifier : String) (n : ℕ) :
    Documented identifier (hookCalls identifier n) ↔ n ≤ 1 := by
  rcases n with _ | _ | n
  · exact iff_of_true rfl (Nat.zero_le 1)
  · exact iff_of_true rfl le_rfl
  · -- The second call should have the number one.
    refine iff_of_false ?_ (by omega)
    intro documented
    have second := hookCalls_second identifier n
    rw [documented, List.getElem?_map] at second
    obtain ⟨position, found, same⟩ := Option.map_eq_some_iff.mp second
    obtain ⟨inside, rfl⟩ := List.getElem?_eq_some_iff.mp found
    rw [List.getElem_range] at same
    simp [documentedCall] at same

/--
The hook calls of an identifier are as documented exactly when no epoch of it has ended.

That is, when no block after the first one that is not before the start time lies beyond the end of
the first epoch.
-/
theorem hooks_documented_iff (hooks : EpochHooks σ) {ctx : Context} {epochs : List EpochInfo}
    {hooked : σ} {identifier : String} {info : EpochInfo}
    (stored : (genesis ctx epochs hooked).epochInfos.get? identifier = some info)
    (unstarted : info.epochCountingStarted = false) {blocks : List (Block σ)}
    {reached : State (σ × List HookCall)}
    (run : Run (Step hooks) (genesis ctx epochs hooked) blocks reached) :
    Documented identifier (reached.callsFor identifier) ↔
      ∀ time ∈ (due info.startTime (blocks.map Block.blockTime)).tail,
        time < info.startTime ∨ time ≤ info.startTime + info.duration := by
  -- The second call has the wrong number, so there must be no second call.
  obtain ⟨-, current, -, clock, calls⟩ := run_clock stored unstarted run
  rw [calls, hookCalls_documented_iff]
  exact clock.first

/-- While the first epoch lasts, only its start has been announced. -/
theorem first_epoch_is_documented :
    ∃ reached, Run (Step idleHooks) (genesis ⟨1, 1⟩ [fives] ())
        [blockAt 3, blockAt 12, blockAt 14] reached ∧
      Documented "five" (reached.callsFor "five") := by
  have ran : ∃ reached, Run (Step idleHooks) (genesis ⟨1, 1⟩ [fives] ())
      [blockAt 3, blockAt 12, blockAt 14] reached :=
    ⟨_, .extend (.extend (.extend .start (.of_eq rfl)) (.of_eq rfl)) (.of_eq rfl)⟩
  obtain ⟨reached, run⟩ := ran
  -- The second block that is due falls into the first epoch.
  exact ⟨reached, run, (hooks_documented_iff idleHooks rfl rfl run).mpr (by decide)⟩

/-- The end of the first epoch is announced with the number two. -/
theorem first_epoch_ends_as_second :
    ∃ reached, Run (Step idleHooks) (genesis ⟨1, 1⟩ [fives] ()) [blockAt 12, blockAt 16] reached ∧
      reached.callsFor "five" = [.beforeEpochStart "five" 1, .afterEpochEnd "five" 2,
        .beforeEpochStart "five" 2] ∧
      ¬Documented "five" (reached.callsFor "five") :=
  ⟨_, .extend (.extend .start (.of_eq rfl)) (.of_eq rfl), rfl, by decide⟩

end Evmos.Epochs
