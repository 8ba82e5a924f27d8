import Evmos.Inflation.Genesis

/-! Valid parameters give a provision that can be minted and allocated without a panic. -/

namespace Evmos.Inflation

open Library

theorem refuseIf_eq_ok {condition : Bool} {text : String} :
    refuseIf condition text = .ok () ↔ condition = false := by
  cases condition <;> simp [refuseIf]

theorem refuseIf_bind_eq_ok {condition : Bool} {text : String} {rest : Result Unit} :
    (refuseIf condition text >>= fun _ => rest) = .ok () ↔ condition = false ∧ rest = .ok () := by
  rw [bind_eq_ok]
  -- A check that comes first passes, and so do those after it.
  constructor
  · rintro ⟨⟨⟩, first, second⟩
    exact ⟨refuseIf_eq_ok.mp first, second⟩
  · rintro ⟨first, second⟩
    exact ⟨(), refuseIf_eq_ok.mpr first, second⟩

/-- What `validateExponentialCalculation` accepts. -/
structure ExponentialCalculation.Valid (v : ExponentialCalculation) : Prop where
  a : 0 ≤ v.a
  decay : 0 ≤ 1 - v.r
  r : 0 ≤ v.r
  c : 0 ≤ v.c
  fraction : v.bondingTarget ≤ 1
  target : 0 < v.bondingTarget
  maxVariance : 0 ≤ v.maxVariance

theorem validateExponentialCalculation_ok {v : ExponentialCalculation}
    (accepted : validateExponentialCalculation v = .ok ()) : v.Valid := by
  -- The checks are a chain, and each one refuses the negation of a bound.
  simp only [validateExponentialCalculation, refuseIf_bind_eq_ok, refuseIf_eq_ok,
    decide_eq_false_iff_not, not_lt, not_le] at accepted
  obtain ⟨a, decay, r, c, fraction, target, maxVariance⟩ := accepted
  exact ⟨a, sub_nonneg.mpr decay, r, c, fraction, target, maxVariance⟩

/-- What `validateInflationDistribution` accepts. -/
structure InflationDistribution.Valid (v : InflationDistribution) : Prop where
  staking : 0 ≤ v.stakingRewards
  incentives : 0 ≤ v.usageIncentives
  pool : 0 ≤ v.communityPool
  total : v.stakingRewards + v.usageIncentives + v.communityPool = 1

theorem validateInflationDistribution_ok {v : InflationDistribution}
    (accepted : validateInflationDistribution v = .ok ()) : v.Valid := by
  -- The validator of the distribution checks every ratio and their sum.
  simp only [validateInflationDistribution, refuseIf_bind_eq_ok, refuseIf_eq_ok,
    decide_eq_false_iff_not, not_lt, not_not] at accepted
  obtain ⟨staking, incentives, pool, total⟩ := accepted
  exact ⟨staking, incentives, pool, total⟩

theorem Params.validate_ok {validDenom : Denom → Bool} {p : Params}
    (accepted : p.validate validDenom = .ok ()) :
    p.exponentialCalculation.Valid ∧ p.inflationDistribution.Valid := by
  -- The denomination is checked before the two.
  obtain ⟨-, -, accepted⟩ := bind_eq_ok.mp accepted
  obtain ⟨_, calculation, distribution⟩ := bind_eq_ok.mp accepted
  exact ⟨validateExponentialCalculation_ok calculation,
    validateInflationDistribution_ok distribution⟩

theorem GenesisState.validate_ok {validDenom : Denom → Bool} {data : GenesisState}
    (accepted : data.validate validDenom = .ok ()) :
    data.params.validate validDenom = .ok () ∧ 0 < data.epochsPerPeriod := by
  -- The identifier is checked first, then the epochs, then the parameters.
  obtain ⟨-, -, accepted⟩ := bind_eq_ok.mp accepted
  obtain ⟨_, epochs, params⟩ := bind_eq_ok.mp accepted
  exact ⟨params, by simpa using refuseIf_eq_ok.mp epochs⟩

theorem quoOrPanic_of_pos {dividend divisor : Dec} (positive : 0 < divisor) :
    quoOrPanic dividend divisor = .ok (dividend.quo divisor) :=
  if_neg positive.ne'

/-- The bonded ratio as far as it counts. -/
def ExponentialCalculation.cappedRatio (v : ExponentialCalculation) (bondedRatio : Dec) : Dec :=
  if v.bondingTarget ≤ bondedRatio then v.bondingTarget else bondedRatio

/-- The exponential decay `a * (1 - r) ^ x + c`. -/
def ExponentialCalculation.decayed (v : ExponentialCalculation) (period : ℕ) : Dec :=
  v.a.mul ((1 - v.r).power period) + v.c

/-- The factor by which a bonded ratio below the target raises the provision. -/
def ExponentialCalculation.bondingIncentive (v : ExponentialCalculation) (bondedRatio : Dec) : Dec :=
  1 + v.maxVariance - (v.cappedRatio bondedRatio).mul (v.maxVariance.quo v.bondingTarget)

/-- A valid calculation does not panic, and is the product of the decay and the incentive. -/
theorem calculateEpochMintProvision_eq {params : Params}
    (valid : params.exponentialCalculation.Valid) (period : ℕ) {epochsPerPeriod : ℤ}
    (positive : 0 < epochsPerPeriod) (bondedRatio : Dec) :
    calculateEpochMintProvision params period epochsPerPeriod bondedRatio =
      .ok (((((params.exponentialCalculation.decayed period).mul
        (params.exponentialCalculation.bondingIncentive bondedRatio)).quo
          (Dec.ofInt epochsPerPeriod)).mul (Dec.ofInt powerReduction))) := by
  -- Both divisors are positive, so neither division panics.
  have epochs : 0 < Dec.ofInt epochsPerPeriod := Int.mul_pos positive Dec.precision_pos
  simp only [calculateEpochMintProvision, quoOrPanic_of_pos valid.target, quoOrPanic_of_pos epochs]
  rfl

section Valid

variable {v : ExponentialCalculation}

theorem cappedRatio_nonneg (valid : v.Valid) {bondedRatio : Dec} (sign : 0 ≤ bondedRatio) :
    0 ≤ v.cappedRatio bondedRatio := by
  unfold ExponentialCalculation.cappedRatio
  -- The ratio counts as it is, or is replaced by the target.
  split_ifs
  · exact valid.target.le
  · exact sign

theorem cappedRatio_le (v : ExponentialCalculation) (bondedRatio : Dec) :
    v.cappedRatio bondedRatio ≤ v.bondingTarget := by
  unfold ExponentialCalculation.cappedRatio
  -- A ratio beyond the target is replaced by the target.
  split_ifs with above
  · exact le_rfl
  · exact (not_le.mp above).le

theorem decayed_nonneg (valid : v.Valid) (period : ℕ) : 0 ≤ v.decayed period :=
  add_nonneg (Dec.mul_nonneg valid.a (Dec.power_nonneg valid.decay period)) valid.c

/-- However the bonded ratio is rounded, the bonding incentive does not become negative. -/
theorem bondingIncentive_nonneg (valid : v.Valid) {bondedRatio : Dec} (sign : 0 ≤ bondedRatio) :
    0 ≤ v.bondingIncentive bondedRatio := by
  have bounded := Dec.mul_quo_le (cappedRatio_nonneg valid sign) (cappedRatio_le v bondedRatio)
    valid.target valid.fraction valid.maxVariance
  -- The last place that rounding may add is less than the one.
  have place : (⟨1⟩ : Dec) ≤ 1 := by decide
  rw [ExponentialCalculation.bondingIncentive, sub_nonneg, add_comm]
  exact bounded.trans (add_le_add le_rfl place)

end Valid

theorem calculateEpochMintProvision_nonneg {params : Params}
    (valid : params.exponentialCalculation.Valid) (period : ℕ) {epochsPerPeriod : ℤ}
    (positive : 0 < epochsPerPeriod) {bondedRatio : Dec} (sign : 0 ≤ bondedRatio) :
    ∃ provision, calculateEpochMintProvision params period epochsPerPeriod bondedRatio =
      .ok provision ∧ 0 ≤ provision := by
  refine ⟨_, calculateEpochMintProvision_eq valid period positive bondedRatio, ?_⟩
  have epochs : 0 ≤ Dec.ofInt epochsPerPeriod := Int.mul_nonneg positive.le Dec.precision_pos.le
  -- No factor is negative, and rounding does not change that.
  have provision := Dec.mul_nonneg (decayed_nonneg valid period)
    (bondingIncentive_nonneg valid sign)
  exact Dec.mul_nonneg (Dec.quo_nonneg provision epochs) (by decide)

theorem calculateEpochMintProvision_congr {params : Params}
    (steady : params.exponentialCalculation.maxVariance = 0)
    (target : 0 < params.exponentialCalculation.bondingTarget) (period : ℕ) (epochsPerPeriod : ℤ)
    (bondedRatio other : Dec) :
    calculateEpochMintProvision params period epochsPerPeriod bondedRatio =
      calculateEpochMintProvision params period epochsPerPeriod other := by
  simp only [calculateEpochMintProvision, quoOrPanic_of_pos target, steady, Dec.zero_quo]
  simp only [bind, Except.bind, Dec.mul_zero]

theorem bondedRatio_nonneg (k : Keeper) (s : State) : 0 ≤ bondedRatio k s := by
  simp only [bondedRatio]
  split_ifs with none mainnet
  · exact le_rfl
  · -- On mainnet more is staked than the team was allocated.
    simp only [Bool.or_eq_true, Bool.and_eq_true, Bool.not_eq_true', decide_eq_false_iff_not,
      decide_eq_true_eq, not_or, not_and, not_not, not_le, mainnet, true_implies] at none
    exact Int.tdiv_nonneg (Int.mul_nonneg (Int.natCast_nonneg _) Dec.precision_pos.le) (by omega)
  · exact Int.tdiv_nonneg (Int.mul_nonneg (Int.natCast_nonneg _) Dec.precision_pos.le)
      (Int.natCast_nonneg _)

theorem sendCoins_leaves {bank : Bank} {fromAddr toAddr : Address} {amt rest : Coins}
    (covered : amt + rest ≤ bank.balances fromAddr) :
    ∃ after, bank.sendCoins fromAddr toAddr amt = .ok after ∧ rest ≤ after.balances fromAddr := by
  refine ⟨_, Bank.sendCoins_eq_ok.mpr ⟨le_self_add.trans covered, rfl⟩, ?_⟩
  exact le_moveCoins_from covered toAddr

/-- The shares of a valid distribution are covered by what is minted. -/
theorem shares_le {v : InflationDistribution} (valid : v.Valid) {amount : ℤ} (sign : 0 ≤ amount) :
    0 ≤ ((Dec.ofInt amount).mul v.stakingRewards).truncateInt ∧
      0 ≤ ((Dec.ofInt amount).mul v.usageIncentives).truncateInt ∧
      ((Dec.ofInt amount).mul v.stakingRewards).truncateInt +
        ((Dec.ofInt amount).mul v.usageIncentives).truncateInt ≤ amount := by
  have parts := Dec.sum_truncateInt_le sign [v.stakingRewards, v.usageIncentives]
    (by simp [valid.staking, valid.incentives])
  -- The third ratio makes up the rest, so the first two are at most one together.
  have fraction : [v.stakingRewards, v.usageIncentives].sum ≤ 1 := by
    rw [← valid.total]
    simpa using valid.pool
  have whole := Dec.truncateInt_le sign
    (List.sum_nonneg (by simp [valid.staking, valid.incentives])) fraction
  simp only [List.map_cons, List.map_nil, List.sum_cons, List.sum_nil, add_zero] at parts whole
  refine ⟨?_, ?_, parts.trans whole⟩
  · rw [Dec.truncateInt_ofInt_mul sign valid.staking]
    exact Int.ediv_nonneg (Int.mul_nonneg sign valid.staking) Dec.precision_pos.le
  · rw [Dec.truncateInt_ofInt_mul sign valid.incentives]
    exact Int.ediv_nonneg (Int.mul_nonneg sign valid.incentives) Dec.precision_pos.le

/-- With a valid distribution, coins that the account of the module holds can be allocated. -/
theorem allocateExponentialInflation_succeeds (k : Keeper) {s : State}
    (valid : s.params.inflationDistribution.Valid) {amount : ℤ} (sign : 0 ≤ amount)
    (held : Coins.ofCoin s.params.mintDenom amount.toNat ≤ s.bank.balances k.moduleAddress) :
    ∃ result, allocateExponentialInflation k s amount = .ok result := by
  obtain ⟨staking, incentives, sum⟩ := shares_le valid sign
  have positive : ∀ {part : ℤ}, 0 ≤ part →
      newCoin s.params.mintDenom part = .ok (Coins.ofCoin s.params.mintDenom part.toNat) :=
    fun part => if_neg (not_lt.mpr part)
  -- Both shares together are covered by the coins, and the pool takes no more than is left.
  have covered : Coins.ofCoin s.params.mintDenom
        ((Dec.ofInt amount).mul s.params.inflationDistribution.stakingRewards).truncateInt.toNat +
      Coins.ofCoin s.params.mintDenom
        ((Dec.ofInt amount).mul s.params.inflationDistribution.usageIncentives).truncateInt.toNat ≤
      s.bank.balances k.moduleAddress := by
    refine le_trans ?_ held
    rw [Coins.ofCoin, Coins.ofCoin, Coins.ofCoin, ← DFinsupp.single_add]
    exact DFinsupp.single_le_single.mpr (by omega)
  obtain ⟨afterStaking, paid, left⟩ := sendCoins_leaves covered
  obtain ⟨afterIncentives, paidToo, -⟩ := sendCoins_leaves ((add_zero _).le.trans left)
  obtain ⟨afterPool, funded, -⟩ := sendCoins_leaves
    (add_zero (afterIncentives.balances k.moduleAddress)).le
  exact ⟨_, bind_eq_ok.mpr ⟨_, positive staking, bind_eq_ok.mpr ⟨_, paid, bind_eq_ok.mpr
    ⟨_, positive incentives, bind_eq_ok.mpr ⟨_, paidToo, bind_eq_ok.mpr
      ⟨_, bind_eq_ok.mpr ⟨_, funded, rfl⟩, rfl⟩⟩⟩⟩⟩⟩

/-- With a valid distribution, every amount that is not negative is minted and allocated. -/
theorem mintAndAllocateInflation_succeeds (k : Keeper) {s : State}
    (valid : s.params.inflationDistribution.Valid) {amount : ℤ} (sign : 0 ≤ amount) :
    ∃ result, mintAndAllocateInflation k s amount = .ok result := by
  have positive : newCoin s.params.mintDenom amount =
      .ok (Coins.ofCoin s.params.mintDenom amount.toNat) := if_neg (not_lt.mpr sign)
  have allocated : ∃ result, allocateExponentialInflation k
      (mintCoins k s (Coins.ofCoin s.params.mintDenom amount.toNat)) amount = .ok result := by
    unfold mintCoins
    split_ifs with nothing
    · -- Without coins to mint, the shares are covered by any balance.
      refine allocateExponentialInflation_succeeds k valid sign ?_
      rw [(Coins.isZero_iff _).mp nothing]
      exact zero_le
    · refine allocateExponentialInflation_succeeds k (s := { s with
          bank := s.bank.mintCoins k.moduleAddress (Coins.ofCoin s.params.mintDenom amount.toNat) })
        valid sign fun denom => ?_
      rw [Bank.mintCoins_balances]
      exact Nat.le_add_left _ _
  obtain ⟨result, allocated⟩ := allocated
  exact ⟨result, bind_eq_ok.mpr ⟨_, positive, allocated⟩⟩

end Evmos.Inflation
