import Evmos.Inflation.Genesis
import Evmos.Proofs.Inflation.Period

/-! Which epochs the inflation module counts as skipped. -/

namespace Evmos.Inflation

open Library Epochs

/--
What a bystander who knows the configured identifier notes down at a call.

The note says whether inflation is enabled, and how many epochs of the identifier ended while it
was not.
-/
def noteCall (identifier : String) (note : Bool × ℕ) : Call → Bool × ℕ
  | .epochEnd epochIdentifier _ =>
    if !note.1 && epochIdentifier = identifier then (note.1, note.2 + 1) else note
  | .setParams params => (params.enableInflation, note.2)
  | .outside _ _ _ => note

/-- The note after a whole list of calls. -/
def noteCalls (identifier : String) (enabled : Bool) (calls : List Call) : Bool × ℕ :=
  calls.foldl (noteCall identifier) (enabled, 0)

/-- A call in which the module counts as the bystander does. -/
def CountsOwn (s : State) : Call → Prop
  | .epochEnd epochIdentifier _ =>
    s.params.enableInflation = true ∨ (epochIdentifier = dayEpochID ↔ epochIdentifier = s.epochIdentifier)
  | .setParams _ => True
  | .outside _ _ _ => True

/-- A state with the switch of the note and with the configured identifier. -/
structure Followed (identifier : String) (note : Bool × ℕ) (s : State) : Prop where
  enabled : s.params.enableInflation = note.1
  identifier : s.epochIdentifier = identifier

section Calls

variable {validDenom : Denom → Bool} {k : Keeper} {identifier : String} {note : Bool × ℕ}
  {before after : State} {call : Call}

theorem afterEpochEnd_followed {epochIdentifier : String} {epochNumber : ℤ}
    (done : afterEpochEnd k epochIdentifier epochNumber before = .ok after) :
    after.params = before.params ∧ after.epochIdentifier = before.epochIdentifier := by
  -- The end of an epoch changes neither the switch nor the configured identifier.
  cases afterEpochEnd_ok done with
  | ignored _ => exact ⟨rfl, rfl⟩
  | skipped _ _ => exact ⟨rfl, rfl⟩
  | minted _ minted _ _ _ => exact ⟨minted.params, minted.epochIdentifier⟩
  | passed _ minted _ _ _ => exact ⟨minted.params, minted.epochIdentifier⟩

theorem Followed.step (followed : Followed identifier note before)
    (taken : CallStep validDenom k before call after) :
    Followed identifier (noteCall identifier note call) after := by
  -- Only new parameters can turn the switch, and they name its position.
  cases call with
  | epochEnd epochIdentifier epochNumber =>
    obtain ⟨params, own⟩ := afterEpochEnd_followed taken
    have enabled : (noteCall identifier note (.epochEnd epochIdentifier epochNumber)).1 = note.1 := by
      simp only [noteCall]
      split_ifs <;> rfl
    exact ⟨by rw [params, enabled, followed.enabled], own.trans followed.identifier⟩
  | setParams params =>
    obtain ⟨-, -, taken⟩ := bind_eq_ok.mp taken
    obtain rfl := Except.ok.inj taken
    exact ⟨rfl, followed.identifier⟩
  | outside bank communityPool totalBondedTokens =>
    obtain rfl := Except.ok.inj taken
    exact ⟨followed.enabled, followed.identifier⟩

theorem afterEpochEnd_skippedEpochs {epochIdentifier : String} {epochNumber : ℤ}
    (done : afterEpochEnd k epochIdentifier epochNumber before = .ok after) :
    after.skippedEpochs = before.skippedEpochs +
      if before.params.enableInflation = false ∧ epochIdentifier = dayEpochID then 1 else 0 := by
  cases afterEpochEnd_ok done with
  | ignored other =>
    -- An ignored epoch is no day, or inflation is enabled.
    rcases other with ⟨-, otherDay⟩ | ⟨enabled, -⟩
    · simp [otherDay]
    · simp [enabled]
  | skipped disabled day => simp [disabled, day]
  | minted _ minted _ _ _ => simp [minted.skippedEpochs, minted.enabled]
  | passed _ minted _ _ _ => simp [minted.skippedEpochs, minted.enabled]

/-- The bystander counts exactly the ends of own epochs while inflation is disabled. -/
theorem Followed.noteCall_epochEnd (followed : Followed identifier note before)
    (epochIdentifier : String) (epochNumber : ℤ) :
    (noteCall identifier note (.epochEnd epochIdentifier epochNumber)).2 = note.2 +
      if before.params.enableInflation = false ∧ epochIdentifier = before.epochIdentifier then 1
      else 0 := by
  rw [noteCall, followed.enabled, followed.identifier]
  cases note.1 <;> by_cases own : epochIdentifier = identifier <;> simp [own]

/-- From agreeing counts, a call keeps them in agreement exactly when it counts own epochs. -/
theorem Followed.count_iff (followed : Followed identifier note before)
    (agree : before.skippedEpochs = note.2) (taken : CallStep validDenom k before call after) :
    after.skippedEpochs = (noteCall identifier note call).2 ↔ CountsOwn before call := by
  cases call with
  | epochEnd epochIdentifier epochNumber =>
    rw [afterEpochEnd_skippedEpochs taken, followed.noteCall_epochEnd, agree, CountsOwn]
    -- Only a disabled module counts, and then the day and the own identifier have to coincide.
    cases before.params.enableInflation <;> by_cases day : epochIdentifier = dayEpochID <;>
      by_cases own : epochIdentifier = before.epochIdentifier <;> simp [day, own]
  | setParams params =>
    obtain ⟨-, -, taken⟩ := bind_eq_ok.mp taken
    obtain rfl := Except.ok.inj taken
    exact ⟨fun _ => trivial, fun _ => agree⟩
  | outside bank communityPool totalBondedTokens =>
    obtain rfl := Except.ok.inj taken
    exact ⟨fun _ => trivial, fun _ => agree⟩

end Calls

theorem noteCalls_append (identifier : String) (enabled : Bool) (calls : List Call) (call : Call) :
    noteCalls identifier enabled (calls ++ [call]) =
      noteCall identifier (noteCalls identifier enabled calls) call := by
  simp [noteCalls]

theorem followed_of_run {validDenom : Denom → Bool} {k : Keeper} {start reached : State}
    {calls : List Call} (run : Run (CallStep validDenom k) start calls reached) :
    Followed start.epochIdentifier
      (noteCalls start.epochIdentifier start.params.enableInflation calls) reached := by
  -- The note is taken call by call, as the run is extended.
  induction run with
  | start => exact ⟨rfl, rfl⟩
  | extend _ taken ih =>
    rw [noteCalls_append]
    exact ih.step taken

theorem initGenesis_ok {k : Keeper} {data : GenesisState} {s start : State}
    (genesis : initGenesis k data s = .ok start) :
    ∃ provision, calculateEpochMintProvision data.params data.period data.epochsPerPeriod
        (bondedRatio k s) = .ok provision ∧
      start = { s with
        params := data.params
        period := data.period
        epochIdentifier := data.epochIdentifier
        epochsPerPeriod := data.epochsPerPeriod
        skippedEpochs := data.skippedEpochs
        epochMintProvision := some provision } := by
  obtain ⟨provision, calculated, genesis⟩ := bind_eq_ok.mp genesis
  exact ⟨provision, calculated, (Except.ok.inj genesis).symm⟩

/--
The skipped epochs are those of the module itself, as long as every call counts own epochs.

A call that does not, because a disabled module sees a day that is not its own epoch or an own
epoch that is not a day, breaks the count.
-/
theorem skippedEpochs_counts_own_epochs (validDenom : Denom → Bool) (k : Keeper)
    {data : GenesisState} {s start : State} (fresh : data.skippedEpochs = 0)
    (genesis : initGenesis k data s = .ok start) :
    (∀ {calls : List Call} {reached : State},
      Run (Guarded CountsOwn (CallStep validDenom k)) start calls reached →
        reached.skippedEpochs =
          (noteCalls data.epochIdentifier data.params.enableInflation calls).2) ∧
    ∀ {calls : List Call} {call : Call} {reached after : State},
      Run (CallStep validDenom k) start calls reached →
      reached.skippedEpochs =
        (noteCalls data.epochIdentifier data.params.enableInflation calls).2 →
      CallStep validDenom k reached call after →
        (after.skippedEpochs =
            (noteCalls data.epochIdentifier data.params.enableInflation (calls ++ [call])).2 ↔
          CountsOwn reached call) := by
  obtain ⟨provision, -, rfl⟩ := initGenesis_ok genesis
  constructor
  · intro calls reached run
    induction run with
    | start => exact fresh
    | extend earlier taken ih =>
      -- The guard is exactly what keeps the counts in agreement.
      rw [noteCalls_append]
      exact ((followed_of_run earlier.unguarded).count_iff ih taken.2).mpr taken.1
  · intro calls call reached after run agree taken
    rw [noteCalls_append]
    exact (followed_of_run run).count_iff agree taken

/-- Parameters of a chain without inflation, and a genesis with the given own epoch. -/
def disabledGenesis (epochIdentifier : String) : GenesisState :=
  ⟨oneToken false, 0, epochIdentifier, 2, 0⟩

/-- Days are counted where they are the own epochs: an hour and a day leave one skipped epoch. -/
theorem day_is_skipped_once :
    ∃ start reached, initGenesis testnetKeeper (disabledGenesis dayEpochID) emptyState = .ok start ∧
      Run (Guarded CountsOwn (CallStep (fun _ => true) testnetKeeper)) start
        [.epochEnd "hour" 1, .epochEnd dayEpochID 1] reached ∧
      reached.skippedEpochs = (noteCalls dayEpochID false
        [.epochEnd "hour" 1, .epochEnd dayEpochID 1]).2 := by
  have ran : ∃ start reached,
      initGenesis testnetKeeper (disabledGenesis dayEpochID) emptyState = .ok start ∧
      Run (Guarded CountsOwn (CallStep (fun _ => true) testnetKeeper)) start
        [.epochEnd "hour" 1, .epochEnd dayEpochID 1] reached :=
    ⟨_, _, rfl, Run.extend (Run.extend .start (by exact ⟨.inr (by decide), rfl⟩))
      (by exact ⟨.inr (by decide), rfl⟩)⟩
  obtain ⟨start, reached, genesis, run⟩ := ran
  -- The hour is no own epoch and is not counted, and the day is both.
  exact ⟨start, reached, genesis, run,
    (skippedEpochs_counts_own_epochs (fun _ => true) testnetKeeper rfl genesis).1 run⟩

/-- With weeks as own epochs, a skipped week is not counted, and a day is counted instead. -/
theorem weeks_are_not_skipped :
    (disabledGenesis "week").validate (fun _ => true) = .ok () ∧
      ∃ start skipped counted,
        initGenesis testnetKeeper (disabledGenesis "week") emptyState = .ok start ∧
        Run (CallStep (fun _ => true) testnetKeeper) start [.epochEnd "week" 1] skipped ∧
        skipped.skippedEpochs = 0 ∧ (noteCalls "week" false [.epochEnd "week" 1]).2 = 1 ∧
        Run (CallStep (fun _ => true) testnetKeeper) start [.epochEnd dayEpochID 1] counted ∧
        counted.skippedEpochs = 1 ∧ (noteCalls "week" false [.epochEnd dayEpochID 1]).2 = 0 :=
  ⟨by decide +kernel, _, _, _, rfl, Run.extend .start rfl, rfl, by decide, Run.extend .start rfl,
    rfl, by decide⟩

end Evmos.Inflation
