import Evmos.Claims.Clock
import Evmos.Proofs.Claims.Decay
import Evmos.Proofs.Claims.Solvency

/-! The airdrop is ended when claiming is over, unless the two durations overflow. -/

namespace Evmos.Claims

open Library

theorem Params.validate_durations {validDenom : Denom → Bool}
    {channelIdentifierValidator : String → Bool} {params : Params}
    (valid : params.validate validDenom channelIdentifierValidator = .ok ()) :
    0 < params.durationUntilDecay ∧ 0 < params.durationOfDecay := by
  refine ⟨?_, Params.validate_durationOfDecay valid⟩
  -- The second check refuses every other duration.
  unfold Params.validate at valid
  split_ifs at valid with _ none
  all_goals exact not_le.mp none

theorem endAirdrop_disables {k : Keeper} {l after : Ledger} {params : Params}
    (ended : endAirdrop k l params = .ok after) : after.state.params.enableClaims = false := by
  obtain ⟨s, -, ended⟩ := bind_eq_ok.mp ended
  rw [← Except.ok.inj ended]

namespace StoredParams

variable {k : Keeper} {blockTime : Time} {params : StoredParams} {l : Ledger}

/-- How long claiming lasts, without any bound. -/
def duration (params : StoredParams) : ℤ :=
  params.durationUntilDecay.toInt + params.durationOfDecay.toInt

theorem airdropEndTime_lt : params.airdropEndTime < blockTime ↔
    params.duration < blockTime - params.airdropStartTime := by
  rw [airdropEndTime, timeAdd, timeAdd, add_assoc]
  exact lt_sub_iff_add_lt'.symm

theorem isClaimsActive_eq_false_iff (enabled : params.enableClaims = true)
    (started : params.airdropStartTime ≤ blockTime) :
    params.isClaimsActive blockTime = false ↔ params.airdropEndTime < blockTime := by
  simp [isClaimsActive, enabled, not_lt.mpr started]

/-- The check of the end blocker is passed when the elapsed time is above the sum of durations. -/
theorem endBlocker_ne_iff (enabled : params.enableClaims = true)
    (stored : l.state.params = params.exact) :
    params.endBlocker k blockTime l ≠ .ok l ↔
      (params.durationUntilDecay + params.durationOfDecay).toInt <
        (timeSub blockTime params.airdropStartTime).toInt := by
  unfold endBlocker
  rw [enabled]
  dsimp only
  rw [if_neg (by decide), ← not_le, ← Int64.le_iff_toInt_le]
  split_ifs with waiting
  · exact iff_of_false (fun changed => changed rfl) (not_not.mpr waiting)
  · refine iff_of_true ?_ waiting
    -- The airdrop ends in a panic, or with claims disabled that were enabled before.
    cases ended : endAirdrop k l params.exact with
    | error err =>
      rintro ⟨⟩
    | ok after =>
      intro same
      have disabled := endAirdrop_disables ended
      rw [Except.ok.inj same, stored] at disabled
      exact absurd (enabled.symm.trans disabled) (by decide)

/-- When the check is passed, as a condition on exact numbers. -/
theorem overdue_iff (untilDecay : 0 < params.durationUntilDecay.toInt)
    (ofDecay : 0 < params.durationOfDecay.toInt) (started : params.airdropStartTime ≤ blockTime) :
    (params.durationUntilDecay + params.durationOfDecay).toInt <
        (timeSub blockTime params.airdropStartTime).toInt ↔
      2 ^ 63 ≤ params.duration ∨
        params.duration < 2 ^ 63 - 1 ∧ params.duration < blockTime - params.airdropStartTime := by
  have elapsed := Int.sub_nonneg.mpr started
  rw [toInt_add_of_pos untilDecay ofDecay, toInt_timeSub started, duration]
  -- A sum that wraps is negative, and a difference that saturates is the longest duration.
  have low := params.durationUntilDecay.toInt_lt
  have lowToo := params.durationOfDecay.toInt_lt
  split_ifs with fits
  · omega
  · omega

end StoredParams

/--
The airdrop is ended exactly when claiming is over, if the two durations fit together.

The end blocker adds the durations to each other, where they wrap from `2 ^ 63` on, and compares
with a difference that stops at `2 ^ 63 - 1`. It agrees with `IsClaimsActive` at a block time unless
one of these is in the way, and at all block times exactly when the sum is below both.
-/
theorem airdrop_ends_with_claiming_iff (k : Keeper) (validDenom : Denom → Bool)
    (channelIdentifierValidator : String → Bool) (params : StoredParams) (l : Ledger)
    (stored : l.state.params = params.exact)
    (valid : params.validate validDenom channelIdentifierValidator = .ok ())
    (enabled : params.enableClaims = true) :
    (∀ blockTime, params.airdropStartTime ≤ blockTime →
      ((params.endBlocker k blockTime l ≠ .ok l ↔ params.isClaimsActive blockTime = false) ↔
        params.duration < 2 ^ 63 - 1 ∨
          params.duration = 2 ^ 63 - 1 ∧ blockTime ≤ params.airdropEndTime ∨
          2 ^ 63 ≤ params.duration ∧ params.airdropEndTime < blockTime)) ∧
      ((∀ blockTime, params.airdropStartTime ≤ blockTime →
          (params.endBlocker k blockTime l ≠ .ok l ↔ params.isClaimsActive blockTime = false)) ↔
        params.duration < 2 ^ 63 - 1) := by
  obtain ⟨untilDecay, ofDecay⟩ := Params.validate_durations valid
  have positive : 0 < params.duration := Int.add_pos untilDecay ofDecay
  have agrees : ∀ blockTime, params.airdropStartTime ≤ blockTime →
      ((params.endBlocker k blockTime l ≠ .ok l ↔ params.isClaimsActive blockTime = false) ↔
        params.duration < 2 ^ 63 - 1 ∨
          params.duration = 2 ^ 63 - 1 ∧ blockTime ≤ params.airdropEndTime ∨
          2 ^ 63 ≤ params.duration ∧ params.airdropEndTime < blockTime) := by
    intro blockTime started
    rw [StoredParams.endBlocker_ne_iff enabled stored,
      StoredParams.overdue_iff untilDecay ofDecay started,
      StoredParams.isClaimsActive_eq_false_iff enabled started, ← not_lt (b := blockTime),
      StoredParams.airdropEndTime_lt]
    omega
  refine ⟨agrees, fun always => ?_, fun fits blockTime started =>
    (agrees blockTime started).mpr (.inl fits)⟩
  -- A sum that is too large shows at the start, or just after the end.
  rcases (agrees _ le_rfl).mp (always _ le_rfl) with fits | ⟨greatest, -⟩ | ⟨-, ended⟩
  · exact fits
  · have started : params.airdropStartTime ≤ params.airdropStartTime + params.duration + 1 := by
      linarith
    have passed : params.airdropEndTime < params.airdropStartTime + params.duration + 1 := by
      rw [StoredParams.airdropEndTime_lt]
      linarith
    rcases (agrees _ started).mp (always _ started) with fits | ⟨-, early⟩ | ⟨wrapped, -⟩
    · exact fits
    · exact absurd passed (not_lt.mpr early)
    · omega
  · rw [StoredParams.airdropEndTime_lt, sub_self] at ended
    omega

/-- Parameters that start at zero, with two durations. -/
def fromZero (durationUntilDecay durationOfDecay : Duration) : StoredParams where
  enableClaims := true
  airdropStartTime := 0
  durationUntilDecay := durationUntilDecay
  durationOfDecay := durationOfDecay
  claimsDenom := "aevmos"
  authorizedChannels := []
  evmChannels := []

/-- A ledger without records or accounts, under the given parameters. -/
def withoutRecords (params : StoredParams) : Ledger where
  state := ⟨params.exact, Store.empty, fun _ => 0, 0⟩
  accounts _ := none

/-- Thirty days before the decay and sixty days of it. -/
def ninetyDays : StoredParams := fromZero 2592000000000000 5184000000000000

/-- Two durations of `2 ^ 62`, whose sum wraps. -/
def wrapping : StoredParams := fromZero 4611686018427387904 4611686018427387904

/-- Two durations whose sum is the longest one. -/
def longest : StoredParams := fromZero 4611686018427387904 4611686018427387903

/-- Thirty days and sixty days fit together, and the airdrop ends after ninety. -/
theorem ninety_days_end :
    ninetyDays.endBlocker unaryKeeper 7776000000000001 (withoutRecords ninetyDays) ≠
      .ok (withoutRecords ninetyDays) := by
  have agrees := (airdrop_ends_with_claiming_iff unaryKeeper (fun _ => true) (fun _ => true)
    ninetyDays (withoutRecords ninetyDays) rfl (by decide) rfl).2.mpr (by decide)
  exact (agrees 7776000000000001 (by decide)).mpr (by decide)

/-- Durations that wrap end the airdrop at its start, and the longest sum is never passed. -/
theorem overflowing_durations_disagree :
    (wrapping.validate (fun _ => true) (fun _ => true) = .ok () ∧
      wrapping.isClaimsActive 0 = true ∧
      wrapping.endBlocker unaryKeeper 0 (withoutRecords wrapping) ≠
        .ok (withoutRecords wrapping)) ∧
    longest.validate (fun _ => true) (fun _ => true) = .ok () ∧
    ∀ blockTime : ℤ, 2 ^ 63 ≤ blockTime →
      longest.isClaimsActive blockTime = false ∧
      longest.endBlocker unaryKeeper blockTime (withoutRecords longest) =
        .ok (withoutRecords longest) := by
  refine ⟨⟨by decide, by decide, ?_⟩, by decide, ?_⟩
  · rw [StoredParams.endBlocker_ne_iff rfl rfl]
    decide
  · intro blockTime late
    have sum : longest.duration = 2 ^ 63 - 1 := by decide
    have started : longest.airdropStartTime ≤ blockTime := le_trans (by decide) late
    refine ⟨(StoredParams.isClaimsActive_eq_false_iff rfl started).mpr ?_, ?_⟩
    · rw [StoredParams.airdropEndTime_lt, sum]
      show 2 ^ 63 - 1 < blockTime - 0
      omega
    · -- The elapsed time stops at the longest duration, which is not above the sum.
      by_contra ends
      have overdue := (StoredParams.endBlocker_ne_iff rfl rfl).mp ends
      rw [StoredParams.overdue_iff (by decide) (by decide) started, sum] at overdue
      omega

end Evmos.Claims
