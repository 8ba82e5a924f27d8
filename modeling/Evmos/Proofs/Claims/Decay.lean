import Evmos.Library.DecOrder
import Evmos.Proofs.Claims.Claim

/-! How the claimable amount decays over the claim window, and how far rounding takes it off. -/

namespace Evmos.Claims

open Library

theorem isClaimsActive_iff {params : Params} {blockTime : Time} :
    params.isClaimsActive blockTime = true ↔ params.enableClaims = true ∧
      params.airdropStartTime ≤ blockTime ∧ blockTime ≤ params.airdropEndTime := by
  simp only [Params.isClaimsActive, Bool.not_eq_true', Bool.or_eq_false_iff,
    decide_eq_false_iff_not, not_lt, Bool.not_eq_false', and_assoc]

theorem Params.validate_durationOfDecay {validDenom : Denom → Bool}
    {channelIdentifierValidator : String → Bool} {params : Params}
    (valid : params.validate validDenom channelIdentifierValidator = .ok ()) :
    0 < params.durationOfDecay := by
  -- The first check refuses every other duration.
  unfold Params.validate at valid
  split_ifs at valid with none
  all_goals exact not_le.mp none

/-- The ratio that is left of a share at a time of the decay. -/
def Params.claimableRatio (params : Params) (blockTime : Time) : Dec :=
  1 - (Dec.ofInt (blockTime - params.decayStartTime)).quoInt params.durationOfDecay

section Window

variable {params : Params} {blockTime later : Time} {cr : ClaimsRecord} {action : Action}

theorem getClaimableAmountForAction_beforeDecay (active : params.isClaimsActive blockTime = true)
    (open_ : cr.hasClaimedAction action = false) (early : blockTime ≤ params.decayStartTime) :
    (getClaimableAmountForAction params blockTime cr action).1 = cr.share := by
  simp only [getClaimableAmountForAction, active, Bool.not_true, Bool.false_eq_true, if_false,
    claimableAmountForAction, open_, not_lt.mpr early, decide_false, Bool.not_false, if_true]
  -- An amount of zero returns early, with the share it would have had anyway.
  split_ifs with nothing
  · simp [ClaimsRecord.share, nothing]
  · simp [ClaimsRecord.share]

theorem getClaimableAmountForAction_inDecay (active : params.isClaimsActive blockTime = true)
    (open_ : cr.hasClaimedAction action = false) (late : params.decayStartTime < blockTime) :
    (getClaimableAmountForAction params blockTime cr action).1 =
      ((Dec.ofInt cr.share).mul (params.claimableRatio blockTime)).roundInt := by
  simp only [getClaimableAmountForAction, active, Bool.not_true, Bool.false_eq_true, if_false,
    claimableAmountForAction, open_, late, decide_true]
  split_ifs with nothing
  · -- Without anything to claim the share is zero, and so is every part of it.
    simp [ClaimsRecord.share, nothing, Dec.ofInt_mul, Dec.roundInt, Dec.chopPrecisionAndRound,
      roundDiv, Dec.precision_pos]
  · simp [ClaimsRecord.share, Params.claimableRatio]

/-- The time that has passed since the decay start, at a time of the window, is part of the decay. -/
theorem elapsed_le (ends : blockTime ≤ params.airdropEndTime) :
    blockTime - params.decayStartTime ≤ params.durationOfDecay := by
  simp only [Params.airdropEndTime, Params.decayStartTime] at ends ⊢
  linarith

theorem claimableRatio_bounds (decays : 0 < params.durationOfDecay)
    (late : params.decayStartTime ≤ blockTime) (ends : blockTime ≤ params.airdropEndTime) :
    0 ≤ params.claimableRatio blockTime ∧ params.claimableRatio blockTime ≤ 1 := by
  obtain ⟨low, high⟩ := Dec.quoInt_bounds (sub_nonneg.mpr late) (elapsed_le ends) decays
  exact Dec.one_sub_bounds low high

/-- The claimable amount does not grow over the window. -/
theorem getClaimableAmountForAction_antitone (decays : 0 < params.durationOfDecay)
    (open_ : cr.hasClaimedAction action = false)
    (active : params.isClaimsActive blockTime = true) (order : blockTime ≤ later)
    (activeLater : params.isClaimsActive later = true) :
    (getClaimableAmountForAction params later cr action).1 ≤
      (getClaimableAmountForAction params blockTime cr action).1 := by
  obtain ⟨-, -, ends⟩ := isClaimsActive_iff.mp activeLater
  have sign : (0 : ℤ) ≤ cr.share := Int.natCast_nonneg _
  rcases le_or_gt blockTime params.decayStartTime with early | late
  · -- The earlier time pays the whole share, and no time pays more.
    obtain ⟨-, rest, sum⟩ := getClaimableAmountForAction_spec activeLater open_
    rw [getClaimableAmountForAction_beforeDecay active open_ early]
    omega
  · -- Both times lie in the decay, of which more has passed at the later one.
    have lateToo := late.trans_le order
    obtain ⟨low, -⟩ := claimableRatio_bounds decays lateToo.le ends
    rw [getClaimableAmountForAction_inDecay active open_ late,
      getClaimableAmountForAction_inDecay activeLater open_ lateToo]
    refine Dec.roundInt_ofInt_mul_le sign low ?_
    refine sub_le_sub_left ?_ 1
    exact Dec.quoInt_le_quoInt (sub_nonneg.mpr late.le) (sub_le_sub_right order _) decays

/-- At the end of the window nothing is left to claim. -/
theorem getClaimableAmountForAction_atEnd (decays : 0 < params.durationOfDecay)
    (active : params.isClaimsActive params.airdropEndTime = true)
    (open_ : cr.hasClaimedAction action = false) :
    (getClaimableAmountForAction params params.airdropEndTime cr action).1 = 0 := by
  have elapsed : params.airdropEndTime - params.decayStartTime = params.durationOfDecay := by
    simp only [Params.airdropEndTime, Params.decayStartTime]
    ring
  have late : params.decayStartTime < params.airdropEndTime := by linarith
  -- The whole decay has passed, so the ratio that is left is exactly zero.
  have ratio : params.claimableRatio params.airdropEndTime = 0 := by
    have quotient : (Dec.ofInt params.durationOfDecay).quoInt params.durationOfDecay = 1 := by
      refine Dec.ext ?_
      show (params.durationOfDecay * Dec.precision).tdiv params.durationOfDecay = Dec.precision
      rw [Int.mul_comm]
      exact Int.mul_tdiv_cancel _ decays.ne'
    rw [Params.claimableRatio, elapsed, quotient, sub_self]
  rw [getClaimableAmountForAction_inDecay active open_ late, ratio, Dec.mul_zero]
  rfl

/-- Cross-multiplied, the ratio that is left is at most one unit of the last place too large. -/
theorem claimableRatio_error (decays : 0 < params.durationOfDecay)
    (late : params.decayStartTime ≤ blockTime) :
    (params.durationOfDecay - (blockTime - params.decayStartTime)) * Dec.precision ≤
        params.durationOfDecay * (params.claimableRatio blockTime).atomics ∧
      params.durationOfDecay * (params.claimableRatio blockTime).atomics ≤
        (params.durationOfDecay - (blockTime - params.decayStartTime)) * Dec.precision +
          params.durationOfDecay := by
  -- The elapsed part is rounded down, so what is left of one is rounded up.
  obtain ⟨low, high⟩ := Dec.quoInt_atomics_bounds (sub_nonneg.mpr late) decays
  have atomics : (params.claimableRatio blockTime).atomics = Dec.precision -
      ((Dec.ofInt (blockTime - params.decayStartTime)).quoInt params.durationOfDecay).atomics := rfl
  rw [atomics]
  constructor <;> linarith

end Window

/-- Bounds on twice a scaled number bound how far the number is off a share. -/
theorem abs_sub_le_of_scaled {amount share left whole ratio : ℤ} (sign : 0 ≤ share)
    (positive : 0 < whole)
    (rounded : 2 * (share * ratio) ≤ 2 * (Dec.precision * amount) + Dec.precision ∧
      2 * (Dec.precision * amount) ≤ 2 * (share * ratio) + Dec.precision)
    (truncated : left * Dec.precision ≤ whole * ratio ∧
      whole * ratio ≤ left * Dec.precision + whole) :
    |(amount : ℚ) - share * (left / whole)| ≤ 1 / 2 + share * (1 / 10 ^ 18) := by
  have scale : (0 : ℚ) < whole := by exact_mod_cast positive
  have place : (Dec.precision : ℚ) = 10 ^ 18 := by norm_num [Dec.precision]
  have shareSign : (0 : ℚ) ≤ share := by exact_mod_cast sign
  obtain ⟨above, below⟩ := rounded
  obtain ⟨low, high⟩ := truncated
  have above : 2 * ((share : ℚ) * ratio) ≤ 2 * (10 ^ 18 * amount) + 10 ^ 18 := by
    rw [← place]
    exact_mod_cast above
  have below : 2 * (10 ^ 18 * (amount : ℚ)) ≤ 2 * (share * ratio) + 10 ^ 18 := by
    rw [← place]
    exact_mod_cast below
  -- The exact ratio is what truncation leaves, up to one unit of the last place.
  have low : (left : ℚ) / whole * 10 ^ 18 ≤ ratio := by
    rw [div_mul_eq_mul_div, div_le_iff₀ scale, ← place, mul_comm (ratio : ℚ)]
    exact_mod_cast low
  have high : (ratio : ℚ) ≤ left / whole * 10 ^ 18 + 1 := by
    have scaled : (ratio : ℚ) * whole ≤ left * 10 ^ 18 + whole := by
      rw [← place, mul_comm (ratio : ℚ)]
      exact_mod_cast high
    have exact_ : (left : ℚ) / whole * whole = left := div_mul_cancel₀ _ scale.ne'
    refine le_of_mul_le_mul_right ?_ scale
    calc (ratio : ℚ) * whole ≤ left * 10 ^ 18 + whole := scaled
      _ = left / whole * whole * 10 ^ 18 + whole := by rw [exact_]
      _ = (left / whole * 10 ^ 18 + 1) * whole := by ring
  have lowShare := mul_le_mul_of_nonneg_left low shareSign
  have highShare := mul_le_mul_of_nonneg_left high shareSign
  rw [abs_le]
  constructor <;> linarith

/--
The arithmetic of the decay.

An unclaimed action pays its share in two parts at every time of the claim window: all of it up to
the decay start, nothing at the end, never more at a later time, and during the decay the exact
share of the time that is left up to the rounding of one product and one ratio.
-/
theorem decay_arithmetic (validDenom : Denom → Bool) (channelIdentifierValidator : String → Bool)
    (params : Params) (valid : params.validate validDenom channelIdentifierValidator = .ok ())
    (cr : ClaimsRecord) (action : Action) (open_ : cr.hasClaimedAction action = false) :
    (∀ blockTime c r, params.isClaimsActive blockTime = true →
      getClaimableAmountForAction params blockTime cr action = (c, r) →
      let q : ℤ := cr.initialClaimableAmount / 4
      0 ≤ c ∧ c ≤ q ∧ c + r = q ∧
        (blockTime ≤ params.decayStartTime → c = q) ∧
        (blockTime = params.airdropEndTime → c = 0) ∧
        (params.decayStartTime ≤ blockTime →
          |(c : ℚ) - q * (1 - (blockTime - params.decayStartTime) / params.durationOfDecay)| ≤
            1 / 2 + q * (1 / 10 ^ 18))) ∧
      ∀ blockTime later, blockTime ≤ later →
        params.isClaimsActive blockTime = true → params.isClaimsActive later = true →
        (getClaimableAmountForAction params later cr action).1 ≤
          (getClaimableAmountForAction params blockTime cr action).1 := by
  have decays := Params.validate_durationOfDecay valid
  have quarter : ((cr.initialClaimableAmount : ℤ) / 4) = cr.share := by simp [ClaimsRecord.share]
  refine ⟨?_, fun blockTime later order active activeLater =>
    getClaimableAmountForAction_antitone decays open_ active order activeLater⟩
  intro blockTime c r active amounts
  obtain ⟨low, rest, sum⟩ := getClaimableAmountForAction_spec active open_
  obtain ⟨-, -, ends⟩ := isClaimsActive_iff.mp active
  obtain rfl : (getClaimableAmountForAction params blockTime cr action).1 = c := by rw [amounts]
  obtain rfl : (getClaimableAmountForAction params blockTime cr action).2 = r := by rw [amounts]
  dsimp only
  rw [quarter]
  refine ⟨low, by omega, sum, ?_, ?_, ?_⟩
  · intro early
    exact getClaimableAmountForAction_beforeDecay active open_ early
  · rintro rfl
    exact getClaimableAmountForAction_atEnd decays active open_
  · intro late
    have sign : (0 : ℤ) ≤ cr.share := Int.natCast_nonneg _
    have positive : (0 : ℚ) < params.durationOfDecay := by exact_mod_cast decays
    have left : (1 : ℚ) - (blockTime - params.decayStartTime) / params.durationOfDecay =
        ((params.durationOfDecay - (blockTime - params.decayStartTime) : ℤ) : ℚ) /
          params.durationOfDecay := by
      push_cast
      field_simp
    rw [left]
    rcases late.eq_or_lt with start | late
    · -- At the start itself the share is paid without any rounding.
      subst start
      rw [getClaimableAmountForAction_beforeDecay active open_ le_rfl, sub_self, sub_zero,
        div_self positive.ne', mul_one, sub_self, abs_zero]
      positivity
    · rw [getClaimableAmountForAction_inDecay active open_ late]
      obtain ⟨nonneg, -⟩ := claimableRatio_bounds decays late.le ends
      exact abs_sub_le_of_scaled sign decays (Dec.roundInt_ofInt_mul_bounds sign nonneg)
        (claimableRatio_error decays late.le)

/-- A window that decays in three nanoseconds, from the second on. -/
def threeNanoseconds : Params where
  enableClaims := true
  airdropStartTime := 0
  durationUntilDecay := 1
  durationOfDecay := 3
  claimsDenom := "aevmos"
  authorizedChannels := []
  evmChannels := []

/-- One third into the decay a share of ten pays seven, which is a third of a coin off. -/
theorem decay_arithmetic_one_third :
    getClaimableAmountForAction threeNanoseconds 2 (newClaimsRecord 40) .vote = (7, 3) ∧
      |((7 : ℤ) : ℚ) - (((40 : ℕ) : ℤ) / 4 : ℤ) * (1 - (((2 : ℤ) : ℚ) - (1 : ℤ)) / (3 : ℤ))| ≤
        1 / 2 + (((40 : ℕ) : ℤ) / 4 : ℤ) * (1 / 10 ^ 18) := by
  -- The amount is computed, and the bound of the theorem read at it.
  have paid : getClaimableAmountForAction threeNanoseconds 2 (newClaimsRecord 40) .vote = (7, 3) :=
    by decide
  have bounds := (decay_arithmetic (fun _ => true) (fun _ => true) threeNanoseconds (by decide)
    (newClaimsRecord 40) .vote (by decide)).1 2 7 3 (by decide) paid
  exact ⟨paid, bounds.2.2.2.2.2 (by decide)⟩

end Evmos.Claims
