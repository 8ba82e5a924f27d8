import Evmos.Library.DecOrder
import Evmos.Proofs.Incentives.Gas

/-! The rewards of an incentive's participants, against what its contract was allocated. -/

namespace Evmos.Incentives

open Library

/-- The part of the gas that a participant spent, rounded to eighteen places. -/
def gasRatio (totalGas : ℕ) (gm : GasMeter) : Dec :=
  (Dec.ofInt gm.cumulativeGas).quo (Dec.ofInt totalGas)

/-- How often the allocations of an incentive list a denomination. -/
def Incentive.listings (incentive : Incentive) (denom : Denom) : ℕ :=
  incentive.allocations.countP fun al => al.denom = denom

/-- The reward of a participant for one listing of a denomination of which an amount is allocated. -/
def payout (k : Keeper) (params : Params) (totalGas amount : ℕ) (denom : Denom) (gm : GasMeter) : ℕ :=
  let share : ℕ := amount * (gasRatio totalGas gm).atomics.toNat
  if k.evmDenom = denom then
    min (share / Dec.precision.toNat)
      (gm.cumulativeGas * params.rewardScaler.atomics.toNat / Dec.precision.toNat)
  else share / Dec.precision.toNat

/-- What truncation, and in the EVM denomination the cap, keep back of a share. -/
def keptBack (k : Keeper) (params : Params) (totalGas amount : ℕ) (denom : Denom) (gm : GasMeter) :
    ℕ :=
  let share : ℕ := amount * (gasRatio totalGas gm).atomics.toNat
  if k.evmDenom = denom then
    share - Dec.precision.toNat * min (share / Dec.precision.toNat)
      (gm.cumulativeGas * params.rewardScaler.atomics.toNat / Dec.precision.toNat)
  else share % Dec.precision.toNat

section Reward

variable {k : Keeper} {params : Params} {incentive : Incentive} {allocated : Coins}

theorem gasRatio_nonneg (totalGas : ℕ) (gm : GasMeter) : 0 ≤ gasRatio totalGas gm :=
  Dec.quo_nonneg (Int.mul_nonneg (Int.natCast_nonneg _) Dec.precision_pos.le)
    (Int.mul_nonneg (Int.natCast_nonneg _) Dec.precision_pos.le)

theorem toNat_truncateInt {atomics : ℕ} :
    (Dec.truncateInt ⟨atomics⟩).toNat = atomics / Dec.precision.toNat := by
  rfl

theorem min_atomics (d e : ℕ) :
    min (⟨(d : ℤ)⟩ : Dec) ⟨(e : ℤ)⟩ = ⟨((min d e : ℕ) : ℤ)⟩ := by
  -- The smaller of two decimals has the smaller number of units.
  rcases le_total d e with order | order
  · have decimals : (⟨(d : ℤ)⟩ : Dec) ≤ ⟨(e : ℤ)⟩ := Int.ofNat_le.mpr order
    rw [min_eq_left decimals, min_eq_left order]
  · have decimals : (⟨(e : ℤ)⟩ : Dec) ≤ ⟨(d : ℤ)⟩ := Int.ofNat_le.mpr order
    rw [min_eq_right decimals, min_eq_right order]

theorem min_div (d e divisor : ℕ) : min d e / divisor = min (d / divisor) (e / divisor) :=
  Monotone.map_min fun _ _ order => Nat.div_le_div_right order

/-- The loop body of `rewardParticipants` adds one payout for the denomination it visits. -/
theorem reward_step (gm : GasMeter) (coins : Coins) (al : DecCoin) :
    (let reward := (gasRatio incentive.totalGas gm).mulInt (allocated al.denom)
      if ¬0 < reward then coins
      else
        let reward :=
          if k.evmDenom = al.denom then
            min reward ((Dec.ofInt gm.cumulativeGas).mul params.rewardScaler)
          else reward
        coins + Coins.ofCoin al.denom reward.truncateInt.toNat) =
      coins + Coins.ofCoin al.denom
        (payout k params incentive.totalGas (allocated al.denom) al.denom gm) := by
  obtain ⟨ratio, ratioEq⟩ := Int.eq_ofNat_of_zero_le (gasRatio_nonneg incentive.totalGas gm)
  obtain ⟨scaler, scalerEq⟩ := Int.eq_ofNat_of_zero_le params.rewardScaler_nonneg
  have share : (gasRatio incentive.totalGas gm).mulInt (allocated al.denom) =
      ⟨((allocated al.denom * ratio : ℕ) : ℤ)⟩ := by
    refine Dec.ext ?_
    show (gasRatio incentive.totalGas gm).atomics * _ = _
    rw [ratioEq, Nat.cast_mul, Int.mul_comm]
  have cap : (Dec.ofInt gm.cumulativeGas).mul params.rewardScaler =
      ⟨((gm.cumulativeGas * scaler : ℕ) : ℤ)⟩ := by
    rw [Dec.ofInt_mul, scalerEq, Nat.cast_mul]
  simp only [share, cap, payout, ratioEq, scalerEq, Int.toNat_natCast]
  by_cases positive : (0 : Dec) < ⟨((allocated al.denom * ratio : ℕ) : ℤ)⟩
  · rw [if_neg (not_not.mpr positive)]
    split_ifs with evm
    · rw [min_atomics, toNat_truncateInt, min_div]
    · rw [toNat_truncateInt]
  · -- Nothing is owed, so nothing is added.
    rw [if_pos positive]
    have nothing : allocated al.denom * ratio = 0 := by
      have sign : ((allocated al.denom * ratio : ℕ) : ℤ) ≤ 0 := not_lt.mp positive
      omega
    rw [nothing, Nat.zero_div, Nat.zero_min, ite_self, Coins.ofCoin_zero, add_zero]

/-- Coins that are added up listing by listing hold one payout for each listing. -/
theorem foldl_payout_apply (gm : GasMeter) (denom : Denom) (allocations : List DecCoin)
    (coins : Coins) :
    (allocations.foldl (fun coins al => coins + Coins.ofCoin al.denom
      (payout k params incentive.totalGas (allocated al.denom) al.denom gm)) coins) denom =
    coins denom + allocations.countP (fun al => al.denom = denom) *
      payout k params incentive.totalGas (allocated denom) denom gm := by
  induction allocations generalizing coins with
  | nil => simp
  | cons al allocations ih =>
    rw [List.foldl_cons, ih, DFinsupp.add_apply, Coins.ofCoin_apply, List.countP_cons]
    -- A listing of another denomination adds nothing to this one.
    by_cases here : al.denom = denom
    · subst here
      simp only [if_true, decide_true]
      ring
    · simp [here, Ne.symm here]

theorem participantReward_apply (gm : GasMeter) (denom : Denom) :
    participantReward k params incentive allocated gm denom =
      incentive.listings denom *
        payout k params incentive.totalGas (allocated denom) denom gm := by
  -- Each round of the loop adds one payout, to nothing at first.
  have rounds : participantReward k params incentive allocated gm =
      incentive.allocations.foldl (fun coins al => coins + Coins.ofCoin al.denom
        (payout k params incentive.totalGas (allocated al.denom) al.denom gm)) 0 :=
    List.foldl_ext _ _ _ fun coins al _ => reward_step gm coins al
  rw [rounds, foldl_payout_apply, DFinsupp.zero_apply, Nat.zero_add, Incentive.listings]

/-- A share is what is paid of it, and what is kept back. -/
theorem payout_add_keptBack (totalGas amount : ℕ) (denom : Denom) (gm : GasMeter) :
    Dec.precision.toNat * payout k params totalGas amount denom gm +
        keptBack k params totalGas amount denom gm =
      amount * (gasRatio totalGas gm).atomics.toNat := by
  unfold payout keptBack
  dsimp only
  split_ifs with evm
  · -- The cap lies below the whole part, so it keeps back the rest.
    refine Nat.add_sub_of_le ?_
    exact (Nat.mul_le_mul_left _ (min_le_left _ _)).trans (Nat.mul_div_le _ _)
  · exact Nat.div_add_mod _ _

theorem sum_participantReward_apply (gms : List GasMeter) (denom : Denom) :
    (gms.map (participantReward k params incentive allocated)).sum denom =
      incentive.listings denom *
        (gms.map (payout k params incentive.totalGas (allocated denom) denom)).sum := by
  -- Each participant is paid by the same number of listings, so the factor stands before the sum.
  induction gms with
  | nil => simp
  | cons gm gms ih =>
    rw [List.map_cons, List.sum_cons, DFinsupp.add_apply, ih, participantReward_apply, List.map_cons,
      List.sum_cons, Nat.mul_add]

theorem sum_payout_add_keptBack (totalGas amount : ℕ) (denom : Denom) (gms : List GasMeter) :
    Dec.precision.toNat * (gms.map (payout k params totalGas amount denom)).sum +
        (gms.map (keptBack k params totalGas amount denom)).sum =
      amount * (gms.map fun gm => (gasRatio totalGas gm).atomics.toNat).sum := by
  induction gms with
  | nil => simp
  | cons gm gms ih =>
    -- What is paid of a share and what is kept back are the share.
    have head := @payout_add_keptBack k params totalGas amount denom gm
    simp only [List.map_cons, List.sum_cons, Nat.mul_add]
    omega

theorem sum_gasRatio_atomics (totalGas : ℕ) (gms : List GasMeter) :
    ((gms.map (gasRatio totalGas)).sum).atomics =
      ((gms.map fun gm => (gasRatio totalGas gm).atomics.toNat).sum : ℕ) := by
  -- No ratio is negative, so nothing is cut off when its units are counted.
  induction gms with
  | nil => rfl
  | cons gm gms ih =>
    have sign : 0 ≤ (gasRatio totalGas gm).atomics := gasRatio_nonneg totalGas gm
    rw [List.map_cons, List.sum_cons, Dec.atomics_add, ih, List.map_cons, List.sum_cons, Nat.cast_add,
      Int.toNat_of_nonneg sign]

/-- In one denomination the rewards are within the amount if what is kept back covers the rest. -/
theorem sum_participantReward_le_iff (gms : List GasMeter) (denom : Denom) :
    (gms.map (participantReward k params incentive allocated)).sum denom ≤ allocated denom ↔
      incentive.listings denom * (allocated denom *
          (gms.map fun gm => (gasRatio incentive.totalGas gm).atomics.toNat).sum) ≤
        Dec.precision.toNat * allocated denom + incentive.listings denom *
          (gms.map (keptBack k params incentive.totalGas (allocated denom) denom)).sum := by
  have positive : 0 < Dec.precision.toNat := by decide
  -- Both sides are measured in units of the last place, where shares split without a remainder.
  rw [sum_participantReward_apply, ← sum_payout_add_keptBack, Nat.mul_add,
    Nat.add_le_add_iff_right, Nat.mul_left_comm, Nat.mul_le_mul_left_iff positive]

/-- Ratios that add up to at most one keep the rewards within any amount. -/
theorem sum_participantReward_le {gms : List GasMeter} {denom : Denom}
    (once : incentive.listings denom ≤ 1)
    (ratios : (gms.map (gasRatio incentive.totalGas)).sum ≤ 1) :
    (gms.map (participantReward k params incentive allocated)).sum denom ≤ allocated denom := by
  -- In units of the last place, the ratios add up to at most one whole.
  have units : (gms.map fun gm => (gasRatio incentive.totalGas gm).atomics.toNat).sum ≤
      Dec.precision.toNat := by
    have bound := Dec.le_iff.mp ratios
    rw [sum_gasRatio_atomics, Dec.atomics_one] at bound
    omega
  rw [sum_participantReward_le_iff]
  calc incentive.listings denom * (allocated denom * _)
      ≤ 1 * (allocated denom * Dec.precision.toNat) :=
        Nat.mul_le_mul once (Nat.mul_le_mul_left _ units)
    _ = Dec.precision.toNat * allocated denom := by rw [Nat.one_mul, Nat.mul_comm]
    _ ≤ _ := Nat.le_add_right _ _

/-- A denomination is listed at most once if the allocations are of different denominations. -/
theorem listings_le_one
    (distinct : incentive.allocations.Pairwise fun al other => al.denom ≠ other.denom)
    (denom : Denom) : incentive.listings denom ≤ 1 := by
  unfold Incentive.listings
  generalize incentive.allocations = allocations at distinct
  induction allocations with
  | nil => simp
  | cons al allocations ih =>
    obtain ⟨apart, distinct⟩ := List.pairwise_cons.mp distinct
    rw [List.countP_cons]
    by_cases here : al.denom = denom
    · -- No later allocation is of the same denomination.
      have absent : allocations.countP (fun al => al.denom = denom) = 0 := by
        refine List.countP_eq_zero.mpr ?_
        intro other member
        simpa using fun same : other.denom = denom => apart other member (here.trans same.symm)
      simp [absent, here]
    · simpa [here] using ih distinct

end Reward

/-- An incentive of the given gas that lists one denomination outside of the EVM. -/
def listingOnce (denom : Denom) (totalGas : ℕ) : Incentive := ⟨0, [⟨denom, 1⟩], 1, 0, totalGas⟩

/--
When the rewards of the participants stay within the allocation of their contract.

No amount at all is exceeded exactly when the rounded ratios of the participants, which may add up
to more than one, add up to at most one. For one amount, the ratios must not owe more than the
amount and what truncation and the cap keep back.
-/
theorem rewards_within_allocation_iff (k : Keeper) (params : Params) (gms : List GasMeter) :
    (∀ totalGas : ℕ,
      (∀ (incentive : Incentive) (allocated : Coins) (denom : Denom),
        incentive.totalGas = totalGas →
        incentive.allocations.Pairwise (fun al other => al.denom ≠ other.denom) →
        (gms.map (participantReward k params incentive allocated)).sum denom ≤ allocated denom) ↔
      (gms.map (gasRatio totalGas)).sum ≤ 1) ∧
      ∀ (incentive : Incentive) (allocated : Coins) (denom : Denom),
        (gms.map (participantReward k params incentive allocated)).sum denom ≤ allocated denom ↔
          incentive.listings denom * (allocated denom *
              (gms.map fun gm => (gasRatio incentive.totalGas gm).atomics.toNat).sum) ≤
            Dec.precision.toNat * allocated denom + incentive.listings denom *
              (gms.map (keptBack k params incentive.totalGas (allocated denom) denom)).sum := by
  refine ⟨?_, fun incentive allocated denom => sum_participantReward_le_iff gms denom⟩
  intro totalGas
  constructor
  · intro within
    -- An amount of one unit for each place turns the ratios themselves into rewards.
    let denom : Denom := k.evmDenom ++ "x"
    have foreign : k.evmDenom ≠ denom := by
      intro same
      have lengths := congrArg String.length same
      simp [denom] at lengths
    have bound := within (listingOnce denom totalGas)
      (Coins.ofCoin denom Dec.precision.toNat) denom rfl (by simp [listingOnce])
    rw [sum_participantReward_apply, Coins.amountOf_ofCoin_self] at bound
    have rewards : gms.map (payout k params totalGas Dec.precision.toNat denom) =
        gms.map fun gm => (gasRatio totalGas gm).atomics.toNat := by
      refine List.map_congr_left ?_
      intro gm _
      rw [payout, if_neg foreign]
      exact Nat.mul_div_cancel_left _ (by decide)
    have single : (listingOnce denom totalGas).listings denom = 1 := by
      simp [listingOnce, Incentive.listings]
    rw [single, Nat.one_mul, show (listingOnce denom totalGas).totalGas = totalGas from rfl,
      rewards] at bound
    rw [Dec.le_iff, sum_gasRatio_atomics, Dec.atomics_one]
    have places : ((Dec.precision.toNat : ℕ) : ℤ) = Dec.precision := rfl
    omega
  · rintro ratios incentive allocated denom rfl distinct
    exact sum_participantReward_le (listings_le_one distinct denom) ratios

/-- An incentive for atoms, on whose contract six participants spent one gas each. -/
def sixUsers : Incentive := ⟨2, [⟨"atom", 1⟩], 1, 0, 6⟩

/-- The state with their gas meters, and atoms for two such incentives in escrow. -/
def sixMeters : State where
  params := unlimited
  incentives := Store.empty.set 2 sixUsers
  gasMeters := [11, 12, 13, 14, 15, 16].foldl
    (fun meters participant => meters.set (toLex (2, participant)) 1) Store.empty
  allocationMeters := .empty
  bank := holdingAtoms 12000000000000000000

/-- Six sixths, each rounded up, reward twelve atoms more than were allocated. -/
theorem six_sixths_exceed_allocation :
    sixUsers.totalGas = ((sixMeters.getIncentiveGasMeters 2).map GasMeter.cumulativeGas).sum ∧
      (rewardParticipants lengthKeeper sixMeters sixUsers
        (Store.empty.set 2 (Coins.ofCoin "atom" 6000000000000000000))).1.1 "atom" =
          6000000000000000012 ∧
      ((sixMeters.getIncentiveGasMeters 2).map (participantReward lengthKeeper unlimited sixUsers
        (Coins.ofCoin "atom" 6000000000000000000))).sum "atom" = 6000000000000000012 ∧
      ¬((sixMeters.getIncentiveGasMeters 2).map (participantReward lengthKeeper unlimited sixUsers
        (Coins.ofCoin "atom" 6000000000000000000))).sum "atom" ≤
          Coins.ofCoin "atom" 6000000000000000000 "atom" := by
  refine ⟨by decide, by decide +kernel, by decide +kernel, by decide +kernel⟩

end Evmos.Incentives
