import Evmos.Epochs.Keeper

/-! What one block does to the epoch records, whatever the hooks do. -/

namespace Evmos.Epochs

open Library

variable {σ : Type} {hooks : EpochHooks σ} {ctx : Context} {s after : State σ} {info : EpochInfo}

/-- The ways in which the loop body of `BeginBlocker` can end. -/
inductive Visit (hooks : EpochHooks σ) (ctx : Context) (s : State σ) (info : EpochInfo) :
    State σ → Prop where
  /-- The record is not due. -/
  | idle : Visit hooks ctx s info s
  /-- Counting starts. -/
  | started {hooked : σ} {next : EpochInfo} (unstarted : info.epochCountingStarted = false)
      (same : next.identifier = info.identifier) (counting : next.epochCountingStarted = true)
      (first : next.currentEpoch = 1)
      (before : hooks.beforeEpochStart next.identifier next.currentEpoch s.hooked = .ok hooked) :
      Visit hooks ctx s info ⟨s.epochInfos.set next.identifier next, hooked⟩
  /-- An epoch ends and the next one starts. -/
  | ended {between hooked : σ} {next : EpochInfo} (counted : info.epochCountingStarted = true)
      (same : next.identifier = info.identifier) (counting : next.epochCountingStarted = true)
      (number : next.currentEpoch = info.currentEpoch + 1)
      (after : hooks.afterEpochEnd next.identifier next.currentEpoch s.hooked = .ok between)
      (before : hooks.beforeEpochStart next.identifier next.currentEpoch between = .ok hooked) :
      Visit hooks ctx s info ⟨s.epochInfos.set next.identifier next, hooked⟩

theorem startEpoch_ok (done : startEpoch hooks s info = .ok after) :
    ∃ hooked, hooks.beforeEpochStart info.identifier info.currentEpoch s.hooked = .ok hooked ∧
      after = ⟨s.epochInfos.set info.identifier info, hooked⟩ := by
  obtain ⟨hooked, before, done⟩ := bind_eq_ok.mp done
  exact ⟨hooked, before, (Except.ok.inj done).symm⟩

/-- A visit without a panic ends in one of these ways. -/
theorem visitEpochInfo_ok (done : visitEpochInfo hooks ctx s info = .ok after) :
    Visit hooks ctx s info after := by
  simp only [visitEpochInfo] at done
  split_ifs at done with start ends
  · have unstarted : info.epochCountingStarted = false := by
      simp only [Bool.and_eq_true, Bool.not_eq_true'] at start
      exact start.1
    obtain ⟨hooked, before, rfl⟩ := startEpoch_ok done
    exact .started unstarted rfl rfl rfl before
  · -- A record that is due and does not start now has been started before.
    have counted : info.epochCountingStarted = true := by
      by_contra unstarted
      simp only [Bool.and_eq_true, Bool.not_eq_true'] at start ends
      exact start ⟨by simpa using unstarted, ends.2⟩
    obtain ⟨between, ended, done⟩ := bind_eq_ok.mp done
    obtain ⟨hooked, before, rfl⟩ := startEpoch_ok done
    exact .ended counted rfl counted rfl ended before
  · obtain rfl := Except.ok.inj done
    exact .idle

/-- Every record is stored under its own identifier. -/
def Keyed (infos : Store String EpochInfo) : Prop :=
  ∀ identifier info, infos.get? identifier = some info → info.identifier = identifier

theorem Keyed.set {infos : Store String EpochInfo} (keyed : Keyed infos) (info : EpochInfo) :
    Keyed (infos.set info.identifier info) := by
  intro identifier other found
  -- The record that was set is stored under its own identifier.
  rcases Store.get?_set_eq_some.mp found with ⟨rfl, rfl⟩ | ⟨-, before⟩
  · rfl
  · exact keyed identifier other before

theorem initGenesis_keyed (ctx : Context) (epochs : List EpochInfo) (s : State σ)
    (keyed : Keyed s.epochInfos) : Keyed (initGenesis ctx epochs s).epochInfos := by
  unfold initGenesis
  -- Each record of the genesis is set under its identifier in turn.
  induction epochs generalizing s with
  | nil => exact keyed
  | cons epoch epochs ih =>
    rw [List.foldl_cons]
    exact ih _ (keyed.set _)

theorem initGenesis_hooked (ctx : Context) (epochs : List EpochInfo) (s : State σ) :
    (initGenesis ctx epochs s).hooked = s.hooked := by
  unfold initGenesis
  -- The genesis sets records and never runs the hooks.
  induction epochs generalizing s with
  | nil => rfl
  | cons epoch epochs ih =>
    rw [List.foldl_cons, ih]
    rfl

theorem Visit.get?_of_ne (visit : Visit hooks ctx s info after) {identifier : String}
    (elsewhere : identifier ≠ info.identifier) :
    after.epochInfos.get? identifier = s.epochInfos.get? identifier := by
  -- A visit sets at most its own record.
  cases visit with
  | idle => rfl
  | started _ same => exact Store.get?_set_of_ne _ (same ▸ elsewhere) _
  | ended _ same => exact Store.get?_set_of_ne _ (same ▸ elsewhere) _

theorem Visit.keyed (visit : Visit hooks ctx s info after) (keyed : Keyed s.epochInfos) :
    Keyed after.epochInfos := by
  -- A visit sets its record under the identifier that the record had.
  cases visit with
  | idle => exact keyed
  | started => exact keyed.set _
  | ended => exact keyed.set _

/-- The rule for one block: what every visit of a stored record keeps, the block keeps. -/
theorem beginBlocker_invariant {last : State σ} (inv : State σ → Prop)
    (keeps : ∀ {current after info}, inv current → s.epochInfos.get? info.identifier = some info →
      current.epochInfos.get? info.identifier = some info →
      Visit hooks ctx current info after → inv after)
    (keyed : Keyed s.epochInfos) (initially : inv s)
    (done : beginBlocker hooks ctx s = .ok last) : inv last ∧ Keyed last.epochInfos := by
  refine Store.iterate_invariant State.epochInfos
    (fun s => inv s ∧ Keyed s.epochInfos) ?_ ⟨initially, keyed⟩ done
  rintro current ⟨identifier, info⟩ after member ⟨holds, keyed⟩ found visited
  -- A record that is found when its turn comes is still the one that was stored.
  have visit := visitEpochInfo_ok visited
  obtain rfl := keyed identifier info found
  refine ⟨⟨keeps holds (Store.get?_eq_some.mpr member) found visit, visit.keyed keyed⟩, ?_⟩
  intro other elsewhere
  exact visit.get?_of_ne elsewhere

/-- A record after a block: unchanged, started, or one epoch further. -/
inductive Advance (info : EpochInfo) : EpochInfo → Prop where
  | idle : Advance info info
  | started {next : EpochInfo} (unstarted : info.epochCountingStarted = false)
      (counting : next.epochCountingStarted = true) (first : next.currentEpoch = 1) :
      Advance info next
  | ended {next : EpochInfo} (counted : info.epochCountingStarted = true)
      (counting : next.epochCountingStarted = true)
      (number : next.currentEpoch = info.currentEpoch + 1) : Advance info next

theorem Visit.advance (visit : Visit hooks ctx s info after)
    (found : s.epochInfos.get? info.identifier = some info) :
    ∃ next, after.epochInfos.get? info.identifier = some next ∧ Advance info next := by
  cases visit with
  | idle => exact ⟨info, found, .idle⟩
  | @started _ next unstarted same counting first =>
    refine ⟨next, ?_, .started unstarted counting first⟩
    -- The new record has the old identifier.
    rw [← same]
    exact Store.get?_set_self _ _ _
  | @ended _ _ next counted same counting number =>
    refine ⟨next, ?_, .ended counted counting number⟩
    rw [← same]
    exact Store.get?_set_self _ _ _

/-- One block advances a record by at most one epoch. -/
theorem beginBlocker_advance {last : State σ} (keyed : Keyed s.epochInfos)
    (done : beginBlocker hooks ctx s = .ok last) {identifier : String}
    (stored : s.epochInfos.get? identifier = some info) :
    ∃ next, last.epochInfos.get? identifier = some next ∧ Advance info next := by
  refine (beginBlocker_invariant (fun current => ∃ next,
    current.epochInfos.get? identifier = some next ∧ Advance info next) ?_ keyed
    ⟨info, stored, .idle⟩ done).1
  rintro current after visited ⟨next, found, advance⟩ read unvisited visit
  by_cases here : visited.identifier = identifier
  · -- The record is visited once, so it is still the one the block began with.
    subst here
    obtain rfl : info = visited := Option.some.inj (stored.symm.trans read)
    exact visit.advance unvisited
  · rw [← visit.get?_of_ne (Ne.symm here)] at found
    exact ⟨next, found, advance⟩

end Evmos.Epochs
