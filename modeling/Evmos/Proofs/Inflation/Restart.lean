import Evmos.Proofs.Inflation.Provision
import Evmos.Proofs.Inflation.Skipped

/-! Whether a chain that restarts from its exported genesis goes on minting as it would have. -/

namespace Evmos.Inflation

open Library Epochs

/-- The same state with another provision and another record of mints. -/
def State.withRecord (s : State) (provision : Option Dec) (mints : List Mint) : State :=
  { s with epochMintProvision := provision, mints := mints }

/-- Minting and allocating read neither the provision nor the record of mints. -/
theorem mintAndAllocateInflation_withRecord (k : Keeper) (s : State) (amount : ℤ)
    (provision : Option Dec) (mints : List Mint) :
    mintAndAllocateInflation k (s.withRecord provision mints) amount =
      (mintAndAllocateInflation k s amount).map fun result =>
        (result.1, result.2.withRecord provision mints) := by
  have minted : ∀ coins, mintCoins k (s.withRecord provision mints) coins =
      (mintCoins k s coins).withRecord provision mints := by
    intro coins
    unfold mintCoins
    split_ifs <;> rfl
  have allocated : ∀ s : State, allocateExponentialInflation k (s.withRecord provision mints) amount =
      (allocateExponentialInflation k s amount).map fun result =>
        (result.1, result.2.withRecord provision mints) := by
    intro s
    simp only [allocateExponentialInflation, State.fundCommunityPool, State.withRecord]
    -- Each part of the allocation is the same on both sides, whether it fails or not.
    cases getProportions s.params.mintDenom amount s.params.inflationDistribution.stakingRewards with
    | error err => rfl
    | ok staking =>
      simp only [bind, Except.bind]
      cases s.bank.sendCoins k.moduleAddress k.feeCollectorAddress staking with
      | error err => rfl
      | ok afterStaking =>
        dsimp only
        cases getProportions s.params.mintDenom amount
          s.params.inflationDistribution.usageIncentives with
        | error err => rfl
        | ok incentives =>
          dsimp only
          cases afterStaking.sendCoins k.moduleAddress k.incentivesAddress incentives with
          | error err => rfl
          | ok afterIncentives =>
            dsimp only
            cases afterIncentives.sendCoins k.moduleAddress k.distributionAddress
              (afterIncentives.balances k.moduleAddress) <;> rfl
  simp only [mintAndAllocateInflation, minted, allocated]
  show (newCoin s.params.mintDenom amount >>= _) = _
  cases newCoin s.params.mintDenom amount <;> rfl

/-- Two states that differ in the provision at most below a whole unit, and have minted alike. -/
structure Alike (s t : State) : Prop where
  same : t = s.withRecord t.epochMintProvision t.mints
  provision : s.epochMintProvision.map Dec.truncateInt = t.epochMintProvision.map Dec.truncateInt
  minted : s.mintedAmounts = t.mintedAmounts

/-- Two outcomes that fail alike or leave states that are alike. -/
def AlikeResults : Result State → Result State → Prop
  | .ok s, .ok t => Alike s t
  | .error err, .error other => err = other
  | _, _ => False

theorem AlikeResults.mintedAmounts {first second : Result State}
    (alike : AlikeResults first second) :
    first.map State.mintedAmounts = second.map State.mintedAmounts := by
  -- Alike outcomes are two states, or two equal errors.
  cases first with
  | error err =>
    cases second with
    | error other => exact congrArg Except.error alike
    | ok t => exact alike.elim
  | ok s =>
    cases second with
    | error other => exact alike.elim
    | ok t => exact congrArg Except.ok alike.minted

theorem AlikeResults.bind {first second : Result State} {rest : State → Result State}
    (alike : AlikeResults first second)
    (onwards : ∀ {s t : State}, Alike s t → AlikeResults (rest s) (rest t)) :
    AlikeResults (first >>= rest) (second >>= rest) := by
  -- Two errors stay as they are, and two states go on.
  cases first with
  | error err =>
    cases second with
    | error other => exact alike
    | ok t => exact alike.elim
  | ok s =>
    cases second with
    | error other => exact alike.elim
    | ok t => exact onwards alike

/-- Moving on to the next period reads neither the stored provision nor the record of mints. -/
theorem passPeriod_withRecord (k : Keeper) (epochNumber : ℤ) (s : State) (provision : Dec)
    (mints : List Mint) :
    passPeriod k epochNumber (s.withRecord (some provision) mints) provision =
      if epochNumber - s.epochsPerPeriod * s.period - s.skippedEpochs > s.epochsPerPeriod then
        (calculateEpochMintProvision s.params (s.period + 1) s.epochsPerPeriod
          (bondedRatio k s)).map fun newProvision =>
            (newProvision, { s with period := s.period + 1 }.withRecord (some newProvision) mints)
      else .ok (provision, s.withRecord (some provision) mints) := by
  -- The condition reads the counters only.
  show (if epochNumber - s.epochsPerPeriod * s.period - s.skippedEpochs > s.epochsPerPeriod then
      calculateEpochMintProvision s.params (s.period + 1) s.epochsPerPeriod (bondedRatio k s) >>=
        fun newProvision => .ok (newProvision, { s with
          period := s.period + 1, epochMintProvision := some newProvision, mints := mints })
    else .ok (provision, s.withRecord (some provision) mints)) = _
  cases calculateEpochMintProvision s.params (s.period + 1) s.epochsPerPeriod (bondedRatio k s) <;>
    rfl

/-- The mint event of an epoch, recorded after the provision for the next one is known. -/
def recordMint (epochNumber amount : ℤ) (period : ℕ) (provision : Dec) (passed : Dec × State) :
    State :=
  { passed.2 with
    mints := passed.2.mints ++ [⟨epochNumber, passed.1, amount, period, provision⟩] }

variable {k : Keeper} {s : State} {validDenom : Denom → Bool}

/-- What an enabled module does at the end of an own epoch. -/
theorem afterEpochEnd_own (enabled : s.params.enableInflation = true) (epochNumber : ℤ) :
    afterEpochEnd k s.epochIdentifier epochNumber s =
      orPanic "the epochMintProvision was not found" s.epochMintProvision >>= fun provision =>
        mintAndAllocateInflation k s provision.truncateInt >>= fun minted =>
          (passPeriod k epochNumber minted.2 provision).map
            (recordMint epochNumber provision.truncateInt s.period provision) := by
  simp only [afterEpochEnd, enabled, Bool.not_true, Bool.false_eq_true, if_false, ne_eq,
    not_true_eq_false]
  -- Neither check sends the hook away, so the provision is looked up.
  cases s.epochMintProvision with
  | none => rfl
  | some provision =>
    show (mintAndAllocateInflation k s provision.truncateInt >>= _) =
      (mintAndAllocateInflation k s provision.truncateInt >>= _)
    cases mintAndAllocateInflation k s provision.truncateInt with
    | error err => rfl
    | ok minted =>
      show (passPeriod k epochNumber minted.2 provision >>= _) =
        (passPeriod k epochNumber minted.2 provision).map _
      cases passPeriod k epochNumber minted.2 provision <;> rfl

/-- States that are alike stay so when both mint. -/
theorem alike_recordMint {stored other : Dec} {mints others : List Mint}
    (epochNumber amount : ℤ) (period : ℕ) (whole : stored.truncateInt = other.truncateInt)
    (minted : (mints.map fun mint => (mint.epochNumber, mint.amount)) =
      others.map fun mint => (mint.epochNumber, mint.amount)) :
    AlikeResults
      ((passPeriod k epochNumber (s.withRecord (some stored) mints) stored).map
        (recordMint epochNumber amount period stored))
      ((passPeriod k epochNumber (s.withRecord (some other) others) other).map
        (recordMint epochNumber amount period other)) := by
  have appended : ∀ first second : Mint, first.epochNumber = second.epochNumber →
      first.amount = second.amount →
      (((mints ++ [first]).map fun mint => (mint.epochNumber, mint.amount)) =
        (others ++ [second]).map fun mint => (mint.epochNumber, mint.amount)) := by
    intro first second number same
    simp only [List.map_append, minted, List.map_cons, List.map_nil, number, same]
  rw [passPeriod_withRecord, passPeriod_withRecord]
  split_ifs with beyond
  · -- The new provision is calculated from the same values on both sides.
    cases calculateEpochMintProvision s.params (s.period + 1) s.epochsPerPeriod
      (bondedRatio k s) with
    | error err => rfl
    | ok newProvision => exact ⟨rfl, rfl, appended _ _ rfl rfl⟩
  · exact ⟨rfl, congrArg some whole, appended _ _ rfl rfl⟩

/-- What the module does at any other end of an epoch. -/
theorem afterEpochEnd_other {epochIdentifier : String}
    (other : ¬(s.params.enableInflation = true ∧ epochIdentifier = s.epochIdentifier))
    (epochNumber : ℤ) :
    afterEpochEnd k epochIdentifier epochNumber s =
      .ok (if s.params.enableInflation = false ∧ epochIdentifier = dayEpochID then
        { s with skippedEpochs := s.skippedEpochs + 1 } else s) := by
  unfold afterEpochEnd
  -- A disabled module counts days, and an enabled one ignores foreign epochs.
  cases enabled : s.params.enableInflation with
  | false =>
    by_cases day : epochIdentifier = dayEpochID
    · simp [day]
    · simp [day]
  | true =>
    have foreign : epochIdentifier ≠ s.epochIdentifier := fun own => other ⟨enabled, own⟩
    simp [foreign]

/-- States that are alike stay so at the end of an epoch. -/
theorem Alike.epochEnd {t : State} (alike : Alike s t) (epochIdentifier : String)
    (epochNumber : ℤ) :
    AlikeResults (afterEpochEnd k epochIdentifier epochNumber s)
      (afterEpochEnd k epochIdentifier epochNumber t) := by
  obtain ⟨same, provision, minted⟩ := alike
  have params : t.params = s.params := by
    rw [same]
    rfl
  have identifier : t.epochIdentifier = s.epochIdentifier := by
    rw [same]
    rfl
  by_cases own : s.params.enableInflation = true ∧ epochIdentifier = s.epochIdentifier
  · obtain ⟨enabled, rfl⟩ := own
    rw [afterEpochEnd_own enabled, ← identifier, afterEpochEnd_own (by rw [params, enabled])]
    cases stored : s.epochMintProvision with
    | none =>
      -- Both panic without a provision.
      rw [stored] at provision
      rw [Option.map_eq_none_iff.mp provision.symm]
      rfl
    | some value =>
      rw [stored] at provision
      obtain ⟨other, found, whole⟩ := Option.map_eq_some_iff.mp provision.symm
      rw [found] at same ⊢
      -- Both mint the same amount, and are left with the same balances.
      show AlikeResults (mintAndAllocateInflation k s value.truncateInt >>= _)
        (mintAndAllocateInflation k t other.truncateInt >>= _)
      rw [whole, same, mintAndAllocateInflation_withRecord]
      cases done : mintAndAllocateInflation k s value.truncateInt with
      | error err => rfl
      | ok result =>
        obtain ⟨bank, pool, equation, -⟩ := mintAndAllocateInflation_ok (Eq.trans done rfl)
        have kept : result.2 = result.2.withRecord (some value) s.mints := by
          rw [equation, ← stored]
          rfl
        have passing : passPeriod k epochNumber result.2 value =
            passPeriod k epochNumber (result.2.withRecord (some value) s.mints) value :=
          congrArg (passPeriod k epochNumber · value) kept
        show AlikeResults ((passPeriod k epochNumber result.2 value).map _)
          ((passPeriod k epochNumber (result.2.withRecord (some other) t.mints) other).map _)
        rw [passing]
        exact alike_recordMint epochNumber _ s.period whole.symm minted
  · rw [afterEpochEnd_other own, afterEpochEnd_other (by rw [params, identifier]; exact own), params]
    split_ifs
    · rw [same]
      exact ⟨rfl, provision, minted⟩
    · exact ⟨same, provision, minted⟩

theorem Alike.perform {t : State} (alike : Alike s t) (call : Call) :
    AlikeResults (call.perform validDenom k s) (call.perform validDenom k t) := by
  -- The parameters and what others own are overwritten on both sides.
  cases call with
  | epochEnd epochIdentifier epochNumber => exact alike.epochEnd epochIdentifier epochNumber
  | setParams params =>
    simp only [Call.perform]
    cases params.validate validDenom with
    | error err => rfl
    | ok accepted =>
      refine ⟨?_, alike.provision, alike.minted⟩
      exact congrArg (fun t : State => { t with params := params }) alike.same
  | outside bank communityPool totalBondedTokens =>
    refine ⟨?_, alike.provision, alike.minted⟩
    exact congrArg (fun t : State => { t with
      bank := bank
      communityPool := communityPool
      totalBondedTokens := totalBondedTokens }) alike.same

theorem Alike.performAll {t : State} (alike : Alike s t) (calls : List Call) :
    AlikeResults (Inflation.performAll validDenom k s calls)
      (Inflation.performAll validDenom k t calls) := by
  -- The two states are generalised, since they change along the calls.
  induction calls generalizing s t with
  | nil => exact alike
  | cons call calls ih =>
    exact (alike.perform call).bind fun alike => ih alike

theorem passPeriod_ok {epochNumber : ℤ} {provision : Dec} {passed : Dec × State}
    (done : passPeriod k epochNumber s provision = .ok passed) :
    passed = (provision, s) ∨ ∃ newProvision,
      calculateEpochMintProvision s.params (s.period + 1) s.epochsPerPeriod (bondedRatio k s) =
        .ok newProvision ∧
      passed = (newProvision,
        { s with period := s.period + 1, epochMintProvision := some newProvision }) := by
  unfold passPeriod at done
  -- Either the period goes on, or the next one starts with a new provision.
  split_ifs at done with beyond
  · obtain ⟨newProvision, calculated, done⟩ := bind_eq_ok.mp done
    exact .inr ⟨newProvision, calculated, (Except.ok.inj done).symm⟩
  · exact .inl (Except.ok.inj done).symm

/-- The provision stays for the whole period, and is calculated anew for the next one. -/
theorem afterEpochEnd_provision {epochIdentifier : String} {epochNumber : ℤ} {after : State}
    (done : afterEpochEnd k epochIdentifier epochNumber s = .ok after) :
    (after.period = s.period ∧ after.epochMintProvision = s.epochMintProvision) ∨
      ∃ bondedRatio provision, 0 ≤ bondedRatio ∧
        calculateEpochMintProvision s.params (s.period + 1) s.epochsPerPeriod bondedRatio =
          .ok provision ∧
        after.period = s.period + 1 ∧ after.epochMintProvision = some provision := by
  by_cases own : s.params.enableInflation = true ∧ epochIdentifier = s.epochIdentifier
  · obtain ⟨enabled, rfl⟩ := own
    rw [afterEpochEnd_own enabled] at done
    obtain ⟨provision, found, done⟩ := bind_eq_ok.mp done
    obtain ⟨⟨allocation, minted⟩, minting, done⟩ := bind_eq_ok.mp done
    obtain ⟨bank, pool, rfl, -⟩ := mintAndAllocateInflation_ok minting
    obtain ⟨passed, passing, rfl⟩ := map_eq_ok.mp done
    rcases passPeriod_ok passing with rfl | ⟨newProvision, calculated, rfl⟩
    · exact .inl ⟨rfl, rfl⟩
    · -- The last mint of the period.
      exact .inr ⟨_, newProvision, bondedRatio_nonneg k _, calculated, rfl, rfl⟩
  · rw [afterEpochEnd_other own] at done
    obtain rfl := Except.ok.inj done
    split_ifs
    · exact .inl ⟨rfl, rfl⟩
    · exact .inl ⟨rfl, rfl⟩

/-- Valid parameters, and a provision that can be minted. -/
structure Sound (validDenom : Denom → Bool) (s : State) : Prop where
  params : s.params.validate validDenom = .ok ()
  epochs : 0 < s.epochsPerPeriod
  provision : ∃ provision, s.epochMintProvision = some provision ∧ 0 ≤ provision

section Reachable

variable {validDenom : Denom → Bool} {k : Keeper}

theorem sound_genesis {data : GenesisState} {s start : State}
    (valid : data.validate validDenom = .ok ()) (genesis : initGenesis k data s = .ok start) :
    Sound validDenom start := by
  obtain ⟨params, positive⟩ := GenesisState.validate_ok valid
  obtain ⟨provision, calculated, rfl⟩ := initGenesis_ok genesis
  -- The provision that the genesis stores was calculated from valid parameters.
  obtain ⟨other, same, sign⟩ := calculateEpochMintProvision_nonneg (Params.validate_ok params).1
    data.period positive (bondedRatio_nonneg k s)
  obtain rfl := Except.ok.inj (same.symm.trans calculated)
  exact ⟨params, positive, other, rfl, sign⟩

theorem afterEpochEnd_epochsPerPeriod {epochIdentifier : String} {epochNumber : ℤ}
    {before after : State} (done : afterEpochEnd k epochIdentifier epochNumber before = .ok after) :
    after.epochsPerPeriod = before.epochsPerPeriod := by
  -- No end of an epoch sets the length of periods.
  cases afterEpochEnd_ok done with
  | ignored _ => rfl
  | skipped _ _ => rfl
  | minted _ minted _ _ _ => exact minted.epochsPerPeriod
  | passed _ minted _ _ _ => exact minted.epochsPerPeriod

theorem Sound.step {before after : State} {call : Call} (sound : Sound validDenom before)
    (taken : CallStep validDenom k before call after) : Sound validDenom after := by
  cases call with
  | epochEnd epochIdentifier epochNumber =>
    obtain ⟨params, -⟩ := afterEpochEnd_followed taken
    have epochs := afterEpochEnd_epochsPerPeriod taken
    refine ⟨params ▸ sound.params, epochs ▸ sound.epochs, ?_⟩
    -- The provision stays, or is calculated anew from parameters that are valid.
    rcases afterEpochEnd_provision taken with ⟨-, same⟩ | ⟨ratio, provision, sign, calculated, -, set⟩
    · exact same ▸ sound.provision
    · obtain ⟨other, same, nonneg⟩ := calculateEpochMintProvision_nonneg
        (Params.validate_ok sound.params).1 (before.period + 1) sound.epochs sign
      obtain rfl := Except.ok.inj (same.symm.trans calculated)
      exact ⟨other, set, nonneg⟩
  | setParams params =>
    obtain ⟨_, accepted, taken⟩ := bind_eq_ok.mp taken
    obtain rfl := Except.ok.inj taken
    exact ⟨accepted, sound.epochs, sound.provision⟩
  | outside bank communityPool totalBondedTokens =>
    obtain rfl := Except.ok.inj taken
    exact ⟨sound.params, sound.epochs, sound.provision⟩

/-- Two states that mint the same amounts at the same epochs, whatever calls follow. -/
def MintsAlike (validDenom : Denom → Bool) (k : Keeper) (s t : State) : Prop :=
  ∀ calls, (performAll validDenom k s calls).map State.mintedAmounts =
    (performAll validDenom k t calls).map State.mintedAmounts

/-- The parameters with inflation enabled. -/
def Params.enabled (params : Params) : Params := { params with enableInflation := true }

/-- Once inflation is enabled, the next own epoch mints the whole units of the provision. -/
theorem Sound.performAll_mint {s : State} (sound : Sound validDenom s) {provision : Dec}
    (stored : s.epochMintProvision = some provision) :
    (performAll validDenom k s [.setParams s.params.enabled, .epochEnd s.epochIdentifier 0]).map
        State.mintedAmounts =
      .ok (s.mintedAmounts ++ [(0, provision.truncateInt)]) := by
  have sign : 0 ≤ provision := by
    obtain ⟨other, found, sign⟩ := sound.provision
    obtain rfl := Option.some.inj (found.symm.trans stored)
    exact sign
  have enabled : Call.perform validDenom k s (.setParams s.params.enabled) =
      .ok { s with params := s.params.enabled } :=
    bind_eq_ok.mpr ⟨(), sound.params, rfl⟩
  obtain ⟨⟨allocation, minted⟩, minting⟩ := mintAndAllocateInflation_succeeds k
    (s := { s with params := s.params.enabled }) (Params.validate_ok sound.params).2
    (Int.tdiv_nonneg sign Dec.precision_pos.le)
  obtain ⟨bank, pool, rfl, -⟩ := mintAndAllocateInflation_ok minting
  -- Epoch zero does not pass a period.
  have within : ¬(0 - s.epochsPerPeriod * s.period - s.skippedEpochs > s.epochsPerPeriod) := by
    have positive := sound.epochs
    have product : 0 ≤ s.epochsPerPeriod * s.period := by positivity
    omega
  have ended : Call.perform validDenom k { s with params := s.params.enabled }
      (.epochEnd s.epochIdentifier 0) =
        .ok (recordMint 0 provision.truncateInt s.period provision
          (provision, { s with params := s.params.enabled, bank := bank, communityPool := pool })) := by
    refine (afterEpochEnd_own (s := { s with params := s.params.enabled }) rfl 0).trans ?_
    refine bind_eq_ok.mpr ⟨provision, orPanic_eq_ok.mpr stored, bind_eq_ok.mpr ⟨_, minting, ?_⟩⟩
    rw [passPeriod, if_neg within]
    rfl
  simp only [performAll, enabled]
  show Except.map _ (Call.perform validDenom k _ _ >>= _) = _
  rw [ended]
  simp [State.mintedAmounts, recordMint, bind, Except.bind, Except.map]

/-- A chain restarts with the provision that its current parameters and bonded ratio give. -/
theorem restart_eq {s : State} {current : Dec}
    (calculated : calculateEpochMintProvision s.params s.period s.epochsPerPeriod
      (bondedRatio k s) = .ok current) :
    restart k s = .ok (s.withRecord (some current) s.mints) :=
  bind_eq_ok.mpr ⟨current, calculated, rfl⟩

end Reachable

/-- A call that leaves the calculation of provisions as it is. -/
def KeepsCalculation (s : State) : Call → Prop
  | .setParams params => params.exponentialCalculation = s.params.exponentialCalculation
  | _ => True

/-- A provision that does not depend on the bonded ratio and is up to date. -/
structure Steady (validDenom : Denom → Bool) (s : State) : Prop where
  sound : Sound validDenom s
  variance : s.params.exponentialCalculation.maxVariance = 0
  current : ∃ provision, s.epochMintProvision = some provision ∧ ∀ bondedRatio,
    calculateEpochMintProvision s.params s.period s.epochsPerPeriod bondedRatio = .ok provision

section Steadiness

variable {validDenom : Denom → Bool} {k : Keeper}

theorem steady_genesis {data : GenesisState} {s start : State}
    (valid : data.validate validDenom = .ok ()) (genesis : initGenesis k data s = .ok start)
    (variance : data.params.exponentialCalculation.maxVariance = 0) : Steady validDenom start := by
  have sound := sound_genesis valid genesis
  obtain ⟨provision, calculated, rfl⟩ := initGenesis_ok genesis
  -- Without a variance the bonded ratio plays no part in the provision.
  refine ⟨sound, variance, provision, rfl, fun bondedRatio => ?_⟩
  exact (calculateEpochMintProvision_congr variance (Params.validate_ok sound.params).1.target
    _ _ _ _).trans calculated

/-- Calls that keep the calculation keep the provision up to date. -/
theorem Steady.step {before after : State} {call : Call} (steady : Steady validDenom before)
    (keeps : KeepsCalculation before call) (taken : CallStep validDenom k before call after) :
    Steady validDenom after := by
  have sound := steady.sound.step taken
  obtain ⟨provision, stored, current⟩ := steady.current
  cases call with
  | epochEnd epochIdentifier epochNumber =>
    obtain ⟨params, -⟩ := afterEpochEnd_followed taken
    have epochs := afterEpochEnd_epochsPerPeriod taken
    refine ⟨sound, params ▸ steady.variance, ?_⟩
    rw [params, epochs]
    rcases afterEpochEnd_provision taken with ⟨period, same⟩ | ⟨ratio, other, -, calculated, period, set⟩
    · exact ⟨provision, same.trans stored, period ▸ current⟩
    · -- The new provision would be the same at any other ratio.
      rw [period]
      refine ⟨other, set, fun bondedRatio => ?_⟩
      exact (calculateEpochMintProvision_congr steady.variance
        (Params.validate_ok steady.sound.params).1.target _ _ _ _).trans calculated
  | setParams params =>
    obtain ⟨_, -, taken⟩ := bind_eq_ok.mp taken
    obtain rfl := Except.ok.inj taken
    have same : params.exponentialCalculation = before.params.exponentialCalculation := keeps
    refine ⟨sound, (congrArg _ same).trans steady.variance, provision, stored, fun bondedRatio => ?_⟩
    rw [← current bondedRatio]
    simp only [calculateEpochMintProvision, same]
  | outside bank communityPool totalBondedTokens =>
    obtain rfl := Except.ok.inj taken
    exact ⟨sound, steady.variance, provision, stored, current⟩

end Steadiness

/-- A restart that finds the stored provision in whole units goes on as before, and no other. -/
theorem Sound.mintsAlike_iff
    (sound : Sound validDenom s) {stored current : Dec} (found : s.epochMintProvision = some stored)
    (calculated : calculateEpochMintProvision s.params s.period s.epochsPerPeriod
      (bondedRatio k s) = .ok current) :
    MintsAlike validDenom k s (s.withRecord (some current) s.mints) ↔
      stored.truncateInt = current.truncateInt := by
  constructor
  · -- The next own epoch shows the whole units of either provision.
    intro alike
    have restarted : Sound validDenom (s.withRecord (some current) s.mints) := by
      obtain ⟨other, same, sign⟩ := calculateEpochMintProvision_nonneg
        (Params.validate_ok sound.params).1 s.period sound.epochs (bondedRatio_nonneg k s)
      obtain rfl := Except.ok.inj (same.symm.trans calculated)
      exact ⟨sound.params, sound.epochs, other, rfl, sign⟩
    have original := sound.performAll_mint (k := k) found
    have again := restarted.performAll_mint (k := k) rfl
    have minted := Except.ok.inj ((original.symm.trans (alike _)).trans again)
    have last := List.append_cancel_left minted
    simpa using last
  · intro whole calls
    have alike : Alike s (s.withRecord (some current) s.mints) := by
      refine ⟨rfl, ?_, rfl⟩
      rw [found]
      exact congrArg some whole
    exact (alike.performAll calls).mintedAmounts

/--
A chain that restarts from its export mints as it would have, exactly when the whole units of the
stored provision are those that the current parameters and the current bonded ratio give.

Without a variance, and as long as the calculation is not changed, that is always so.
-/
theorem restart_mints_alike_iff (validDenom : Denom → Bool) (k : Keeper) {data : GenesisState}
    {s start : State} (valid : data.validate validDenom = .ok ())
    (genesis : initGenesis k data s = .ok start) :
    (∀ {calls : List Call} {reached : State}, Run (CallStep validDenom k) start calls reached →
      ∃ stored current restarted, reached.epochMintProvision = some stored ∧
        calculateEpochMintProvision reached.params reached.period reached.epochsPerPeriod
          (bondedRatio k reached) = .ok current ∧
        restart k reached = .ok restarted ∧
        (MintsAlike validDenom k reached restarted ↔ stored.truncateInt = current.truncateInt)) ∧
    (data.params.exponentialCalculation.maxVariance = 0 →
      ∀ {calls : List Call} {reached : State},
        Run (Guarded KeepsCalculation (CallStep validDenom k)) start calls reached →
          ∃ restarted, restart k reached = .ok restarted ∧
            MintsAlike validDenom k reached restarted) := by
  -- The import calculates the provision, where the chain goes on with the stored one.
  constructor
  · intro calls reached run
    have sound : Sound validDenom reached :=
      run.invariant (Sound validDenom) Sound.step (sound_genesis valid genesis)
    obtain ⟨stored, found, -⟩ := sound.provision
    obtain ⟨current, calculated, -⟩ := calculateEpochMintProvision_nonneg
      (Params.validate_ok sound.params).1 reached.period sound.epochs (bondedRatio_nonneg k reached)
    exact ⟨stored, current, _, found, calculated, restart_eq calculated,
      sound.mintsAlike_iff found calculated⟩
  · intro variance calls reached run
    have steady : Steady validDenom reached :=
      run.invariant (Steady validDenom) (fun steady taken => steady.step taken.1 taken.2)
        (steady_genesis valid genesis variance)
    obtain ⟨provision, stored, current⟩ := steady.current
    exact ⟨_, restart_eq (current (bondedRatio k reached)),
      (steady.sound.mintsAlike_iff stored (current (bondedRatio k reached))).mpr rfl⟩

/-- A chain that has passed its first period can be restarted. -/
theorem twoEpochs_restart_alike :
    ∃ start reached restarted, twoEpochs.validate (fun _ => true) = .ok () ∧
      initGenesis testnetKeeper twoEpochs emptyState = .ok start ∧
      Run (Guarded KeepsCalculation (CallStep (fun _ => true) testnetKeeper)) start
        [.epochEnd dayEpochID 2, .epochEnd dayEpochID 3] reached ∧
      reached.period = 1 ∧ reached.mintedAmounts =
        [(2, 500000000000000000), (3, 500000000000000000)] ∧
      restart testnetKeeper reached = .ok restarted ∧
      MintsAlike (fun _ => true) testnetKeeper reached restarted := by
  have valid : twoEpochs.validate (fun _ => true) = .ok () := by decide +kernel
  -- Two days end, and the second one passes the period.
  have ran : (initGenesis testnetKeeper twoEpochs emptyState >>= fun start =>
      afterEpochEnd testnetKeeper dayEpochID 2 start >>= fun first =>
        (afterEpochEnd testnetKeeper dayEpochID 3 first).map fun reached =>
          (reached.period, reached.mintedAmounts)) =
      .ok (1, [(2, 500000000000000000), (3, 500000000000000000)]) := by
    decide +kernel
  obtain ⟨start, genesis, ran⟩ := bind_eq_ok.mp ran
  obtain ⟨first, ended, ran⟩ := bind_eq_ok.mp ran
  obtain ⟨reached, passed, facts⟩ := map_eq_ok.mp ran
  obtain ⟨period, minted⟩ := Prod.mk.inj facts
  have run : Run (Guarded KeepsCalculation (CallStep (fun _ => true) testnetKeeper)) start
      [.epochEnd dayEpochID 2, .epochEnd dayEpochID 3] reached :=
    (Run.start.extend ⟨trivial, ended⟩).extend ⟨trivial, passed⟩
  obtain ⟨restarted, done, alike⟩ := (restart_mints_alike_iff (fun _ => true) testnetKeeper valid
    genesis).2 rfl run
  exact ⟨start, reached, restarted, valid, genesis, run, period, minted, done, alike⟩

/-- Parameters under which a chain without bonded tokens mints half as much again. -/
def variedGenesis : GenesisState :=
  { twoEpochs with params := { oneToken true with
      exponentialCalculation := { (oneToken true).exponentialCalculation with
        maxVariance := Dec.ofIntWithPrec 50 2 } } }

/-- Parameters that mint two tokens in the first period. -/
def twoTokens : Params :=
  { oneToken true with
    exponentialCalculation := { (oneToken true).exponentialCalculation with a := Dec.ofInt 2 } }

/-- All tokens are bonded. -/
def allBonded : Call := .outside ⟨fun _ => 0, Coins.ofCoin "aevmos" 100⟩ 0 100

/--
Two restarts within a period that change what the next day mints.

In the first chain only tokens were bonded since its genesis, and in the second one the initial
value of the calculation was changed.
-/
theorem restart_changes_mints :
    (variedGenesis.validate (fun _ => true) = .ok () ∧
      ∃ start reached restarted, initGenesis testnetKeeper variedGenesis emptyState = .ok start ∧
        Run (CallStep (fun _ => true) testnetKeeper) start [allBonded] reached ∧
        restart testnetKeeper reached = .ok restarted ∧
        (performAll (fun _ => true) testnetKeeper reached [.epochEnd dayEpochID 1]).map
          State.mintedAmounts = .ok [(1, 750000000000000000)] ∧
        (performAll (fun _ => true) testnetKeeper restarted [.epochEnd dayEpochID 1]).map
          State.mintedAmounts = .ok [(1, 500000000000000000)]) ∧
    (twoEpochs.validate (fun _ => true) = .ok () ∧
      ∃ start reached restarted, initGenesis testnetKeeper twoEpochs emptyState = .ok start ∧
        Run (CallStep (fun _ => true) testnetKeeper) start [.setParams twoTokens] reached ∧
        restart testnetKeeper reached = .ok restarted ∧
        (performAll (fun _ => true) testnetKeeper reached [.epochEnd dayEpochID 1]).map
          State.mintedAmounts = .ok [(1, 500000000000000000)] ∧
        (performAll (fun _ => true) testnetKeeper restarted [.epochEnd dayEpochID 1]).map
          State.mintedAmounts = .ok [(1, 1000000000000000000)]) :=
  ⟨⟨by decide +kernel, _, _, _, rfl, Run.extend .start rfl, rfl, rfl, rfl⟩,
    ⟨by decide +kernel, _, _, _, rfl, Run.extend .start rfl, rfl, rfl, rfl⟩⟩

end Evmos.Inflation
