import Evmos.Incentives.Chain

/-! The allocation meters add up the allocations of all incentives, over any run. -/

namespace Evmos.Incentives

open Library

/-- What a list of allocations gives to a denomination. -/
def allocationOf (allocations : List DecCoin) (denom : Denom) : Dec :=
  (allocations.map fun al => if al.denom = denom then al.amount else 0).sum

/-- The stored allocation meter of a denomination, where an absent one is zero. -/
def State.meter (s : State) (denom : Denom) : Dec := (s.allocationMeters.get? denom).getD 0

/-- What all incentives together give to a denomination. -/
def State.allocated (s : State) (denom : Denom) : Dec :=
  s.incentives.total fun _ incentive => allocationOf incentive.allocations denom

/-- An incentive as registration accepts it, stored under its contract. -/
structure Registered (contract : Address) (incentive : Incentive) : Prop where
  keyed : incentive.contract = contract
  nonempty : incentive.allocations ≠ []
  distinct : incentive.allocations.Pairwise fun al other => al.denom ≠ other.denom
  positive : ∀ al ∈ incentive.allocations, 0 < al.amount
  remaining : 0 < incentive.epochs

/-- The meters are exact, at most one, and never stored when they are zero. -/
structure Metered (s : State) : Prop where
  registered : ∀ contract incentive, s.incentives.get? contract = some incentive →
    Registered contract incentive
  exact : ∀ denom, s.meter denom = s.allocated denom
  bounded : ∀ denom, s.meter denom ≤ 1
  nonzero : ∀ denom, s.allocationMeters.get? denom ≠ some 0

section Meters

variable {s : State}

@[simp] theorem getAllocationMeter_amount (s : State) (denom : Denom) :
    (s.getAllocationMeter denom).1.amount = s.meter denom := by
  unfold State.getAllocationMeter State.meter
  -- A meter that is not stored reads as zero.
  rcases s.allocationMeters.get? denom with _ | amount
  · rfl
  · rfl

theorem setAllocationMeter_frame (s : State) (am : DecCoin) :
    ∃ meters, s.setAllocationMeter am = { s with allocationMeters := meters } := by
  unfold State.setAllocationMeter
  split_ifs
  · exact ⟨_, rfl⟩
  · exact ⟨_, rfl⟩

/-- A loop changes the allocation meters only if its body does. -/
theorem foldl_frame {body : State → DecCoin → State}
    (once : ∀ s coin, ∃ meters, body s coin = { s with allocationMeters := meters })
    (coins : List DecCoin) (s : State) :
    ∃ meters, coins.foldl body s = { s with allocationMeters := meters } := by
  induction coins generalizing s with
  | nil => exact ⟨s.allocationMeters, rfl⟩
  | cons coin coins ih =>
    -- What the first round has set is set again by the others.
    obtain ⟨first, one⟩ := once s coin
    obtain ⟨meters, rest⟩ := ih (body s coin)
    exact ⟨meters, by rw [List.foldl_cons, rest, one]⟩

theorem foldl_setAllocationMeter_frame (meters : List DecCoin) (s : State) :
    ∃ stored, meters.foldl State.setAllocationMeter s = { s with allocationMeters := stored } :=
  foldl_frame setAllocationMeter_frame meters s

theorem foldl_subtractAllocation_frame (allocations : List DecCoin) (s : State) :
    ∃ stored, allocations.foldl State.subtractAllocation s = { s with allocationMeters := stored } :=
  foldl_frame (fun s _ => setAllocationMeter_frame s _) allocations s

theorem foldl_deleteGasMeter_frame (gms : List GasMeter) (s : State) :
    ∃ meters, gms.foldl State.deleteGasMeter s = { s with gasMeters := meters } := by
  induction gms generalizing s with
  | nil => exact ⟨s.gasMeters, rfl⟩
  | cons gm gms ih => exact ih (s.deleteGasMeter gm)

theorem meter_setAllocationMeter (s : State) (am : DecCoin) (denom : Denom) :
    (s.setAllocationMeter am).meter denom = if denom = am.denom then am.amount else s.meter denom := by
  unfold State.setAllocationMeter State.meter
  -- A meter of zero is removed, and then reads as zero again.
  by_cases here : denom = am.denom
  · subst here
    by_cases zero : am.amount = 0
    · simp [zero]
    · simp [zero]
  · split_ifs
    · rw [Store.get?_delete_of_ne _ here]
    · rw [Store.get?_set_of_ne _ here]

theorem nonzero_setAllocationMeter (nonzero : ∀ denom, s.allocationMeters.get? denom ≠ some 0)
    (am : DecCoin) : ∀ denom, (s.setAllocationMeter am).allocationMeters.get? denom ≠ some 0 := by
  intro denom
  unfold State.setAllocationMeter
  -- Setting a meter never stores a zero, and leaves the others.
  by_cases here : denom = am.denom
  · subst here
    split_ifs with zero
    · simp
    · simpa using zero
  · split_ifs
    · rw [Store.get?_delete_of_ne _ here]
      exact nonzero denom
    · rw [Store.get?_set_of_ne _ here]
      exact nonzero denom

theorem meter_subtractAllocation (s : State) (al : DecCoin) (denom : Denom) :
    (s.subtractAllocation al).meter denom =
      s.meter denom - if al.denom = denom then al.amount else 0 := by
  simp only [State.subtractAllocation, getAllocationMeter_amount, meter_setAllocationMeter]
  -- One allocation is taken off its own meter.
  by_cases here : denom = al.denom
  · simp [here]
  · simp [here, Ne.symm here]

/-- What the loop over the allocations of a deleted incentive does. -/
theorem foldl_subtractAllocation (allocations : List DecCoin) (s : State) :
    (∀ denom, (allocations.foldl State.subtractAllocation s).meter denom =
        s.meter denom - allocationOf allocations denom) ∧
      ((∀ denom, s.allocationMeters.get? denom ≠ some 0) → ∀ denom,
        (allocations.foldl State.subtractAllocation s).allocationMeters.get? denom ≠ some 0) := by
  -- The meters change along the loop, so the state is generalised.
  induction allocations generalizing s with
  | nil => exact ⟨fun denom => by simp [allocationOf], fun nonzero => nonzero⟩
  | cons al allocations ih =>
    obtain ⟨meters, stored⟩ := ih (s.subtractAllocation al)
    constructor
    · intro denom
      rw [List.foldl_cons, meters, meter_subtractAllocation, allocationOf, allocationOf,
        List.map_cons, List.sum_cons, sub_sub]
    · intro nonzero
      exact stored (nonzero_setAllocationMeter nonzero _)

/-- The new meters of a registration, none of which exceeds one. -/
theorem newAllocationMeters_ok {allocations meters : List DecCoin}
    (built : newAllocationMeters s allocations = .ok meters) :
    meters = allocations.map (fun al => ⟨al.denom, s.meter al.denom + al.amount⟩) ∧
      ∀ am ∈ meters, am.amount ≤ 1 := by
  induction allocations generalizing meters with
  | nil =>
    obtain rfl := Except.ok.inj built
    simp
  | cons al allocations ih =>
    simp only [newAllocationMeters, getAllocationMeter_amount] at built
    -- The source refuses a meter above one.
    split_ifs at built with above
    obtain ⟨rest, more, built⟩ := bind_eq_ok.mp built
    obtain rfl := Except.ok.inj built
    obtain ⟨rfl, bounded⟩ := ih more
    exact ⟨rfl, List.forall_mem_cons.mpr ⟨not_lt.mp above, bounded⟩⟩

/-- Setting the new meters one after the other adds every allocation to its meter. -/
theorem meter_foldl_set (allocations : List DecCoin)
    (distinct : allocations.Pairwise fun al other => al.denom ≠ other.denom) (origin : State) :
    ∀ s : State, (∀ al ∈ allocations, s.meter al.denom = origin.meter al.denom) → ∀ denom,
      ((allocations.map fun al => (⟨al.denom, origin.meter al.denom + al.amount⟩ : DecCoin)).foldl
        State.setAllocationMeter s).meter denom = s.meter denom + allocationOf allocations denom := by
  induction allocations with
  | nil =>
    intro s _ denom
    simp [allocationOf]
  | cons al allocations ih =>
    intro s unread denom
    obtain ⟨apart, distinct⟩ := List.pairwise_cons.mp distinct
    obtain ⟨here, later⟩ := List.forall_mem_cons.mp unread
    rw [List.map_cons, List.foldl_cons, ih distinct]
    · rw [meter_setAllocationMeter, allocationOf, allocationOf, List.map_cons, List.sum_cons]
      by_cases same : denom = al.denom
      · subst same
        simp [here, add_assoc]
      · simp [same, Ne.symm same]
    · -- The other meters are still as they were when the sums were built.
      intro other member
      rw [meter_setAllocationMeter, if_neg (apart other member).symm]
      exact later other member

theorem foldl_setAllocationMeter (meters : List DecCoin) (s : State) :
    ((∀ denom, s.meter denom ≤ 1) → (∀ am ∈ meters, am.amount ≤ 1) →
        ∀ denom, (meters.foldl State.setAllocationMeter s).meter denom ≤ 1) ∧
      ((∀ denom, s.allocationMeters.get? denom ≠ some 0) → ∀ denom,
        (meters.foldl State.setAllocationMeter s).allocationMeters.get? denom ≠ some 0) := by
  induction meters generalizing s with
  | nil => exact ⟨fun bounded _ => bounded, fun nonzero => nonzero⟩
  | cons am meters ih =>
    obtain ⟨bounds, stored⟩ := ih (s.setAllocationMeter am)
    constructor
    · intro bounded small
      obtain ⟨first, rest⟩ := List.forall_mem_cons.mp small
      -- The first meter is bounded by itself, and the others by the state.
      refine bounds (fun denom => ?_) rest
      rw [meter_setAllocationMeter]
      split_ifs
      · exact first
      · exact bounded denom
    · intro nonzero
      exact stored (nonzero_setAllocationMeter nonzero am)

theorem deleteIncentive_frame (s : State) (incentive : Incentive) :
    ∃ meters, s.deleteIncentiveAndUpdateAllocationMeters incentive = { s with
      incentives := s.incentives.delete incentive.contract
      allocationMeters := meters } :=
  foldl_subtractAllocation_frame incentive.allocations
    { s with incentives := s.incentives.delete incentive.contract }

theorem deleteIncentive_incentives (s : State) (incentive : Incentive) :
    (s.deleteIncentiveAndUpdateAllocationMeters incentive).incentives =
      s.incentives.delete incentive.contract := by
  obtain ⟨meters, frame⟩ := deleteIncentive_frame s incentive
  rw [frame]

theorem registerIncentive_ok {k : Keeper} {ctx : Context} {contract : Address}
    {allocations : List DecCoin} {epochs : UInt32} {incentive : Incentive} {after : State}
    (done : registerIncentive k ctx s contract allocations epochs = .ok (incentive, after)) :
    s.incentives.get? contract = none ∧
      incentive = newIncentive contract allocations epochs ctx.blockTime ∧
      ∃ meters, newAllocationMeters s allocations = .ok meters ∧
        after = meters.foldl State.setAllocationMeter (s.setIncentive incentive) := by
  unfold registerIncentive at done
  split_ifs at done with disabled missing existing
  obtain ⟨_, -, done⟩ := bind_eq_ok.mp done
  obtain ⟨meters, built, done⟩ := bind_eq_ok.mp done
  obtain ⟨rfl, rfl⟩ := Prod.mk.inj (Except.ok.inj done)
  exact ⟨by simpa [State.isIncentiveRegistered] using existing, rfl, meters, built, rfl⟩

theorem cancelIncentive_ok {k : Keeper} {contract : Address} {after : State}
    (done : cancelIncentive k s contract = .ok after) :
    ∃ incentive, s.incentives.get? contract = some incentive ∧
      after = ((s.deleteIncentiveAndUpdateAllocationMeters incentive).getIncentiveGasMeters
        contract).foldl State.deleteGasMeter
          (s.deleteIncentiveAndUpdateAllocationMeters incentive) := by
  unfold cancelIncentive at done
  split_ifs at done with disabled
  rcases stored : s.incentives.get? contract with _ | incentive
  · simp [stored] at done
  · simp only [stored] at done
    exact ⟨incentive, rfl, (Except.ok.inj done).symm⟩

/-- A transaction is ignored, or adds its gas to an incentive and to the meter of its sender. -/
theorem postTxProcessing_cases (ctx : Context) (s : State) (msg : Message) :
    postTxProcessing ctx s msg = s ∨
      ∃ contract incentive, s.incentives.get? contract = some incentive ∧
        postTxProcessing ctx s msg = addGasToParticipant (addGasToIncentive s incentive msg.gasUsed)
          contract msg.fromAddr msg.gasUsed := by
  unfold postTxProcessing
  split_ifs
  · exact .inl rfl
  rcases msg.toAddr with _ | contract
  · exact .inl rfl
  rcases stored : s.incentives.get? contract with _ | incentive
  · exact .inl (by simp only [stored])
  simp only [stored]
  -- Senders that are contracts, or not known at all, do not take part.
  split
  · exact .inl rfl
  · exact .inl rfl
  · exact .inr ⟨contract, incentive, stored, rfl⟩

end Meters

theorem Registered.allocationOf_nonneg {contract : Address} {incentive : Incentive}
    (registered : Registered contract incentive) (denom : Denom) :
    0 ≤ allocationOf incentive.allocations denom := by
  refine List.sum_nonneg ?_
  intro amount member
  obtain ⟨al, inside, rfl⟩ := List.mem_map.mp member
  -- Every listed amount is positive.
  split_ifs
  · exact (registered.positive al inside).le
  · exact le_rfl

/-- Coins that pass the sorting check increase strictly, and are positive. -/
theorem validateSorted_ok {validDenom : Denom → Bool} {low : Denom} {coins : List DecCoin}
    (valid : validateSorted validDenom low coins = .ok ()) :
    (∀ coin ∈ coins, low < coin.denom ∧ 0 < coin.amount) ∧
      coins.Pairwise fun coin other => coin.denom ≠ other.denom := by
  induction coins generalizing low with
  | nil => simp
  | cons coin coins ih =>
    rw [validateSorted] at valid
    split_ifs at valid with invalid unsorted positive
    obtain ⟨above, distinct⟩ := ih valid
    -- Each denomination is above the one before it, and so above all before it.
    have higher : low < coin.denom := not_le.mp unsorted
    refine ⟨List.forall_mem_cons.mpr ⟨⟨higher, positive⟩, ?_⟩, List.pairwise_cons.mpr ⟨?_, distinct⟩⟩
    · intro other member
      exact ⟨higher.trans (above other member).1, (above other member).2⟩
    · intro other member
      exact (above other member).1.ne

theorem validateDecCoins_ok {validDenom : Denom → Bool} {coins : List DecCoin}
    (valid : validateDecCoins validDenom coins = .ok ()) :
    (∀ coin ∈ coins, 0 < coin.amount) ∧
      coins.Pairwise fun coin other => coin.denom ≠ other.denom := by
  cases coins with
  | nil => simp
  | cons coin coins =>
    rw [validateDecCoins] at valid
    split_ifs at valid with invalid positive
    -- The first coin has no bound, and the others are checked against it.
    obtain ⟨above, distinct⟩ := validateSorted_ok valid
    refine ⟨List.forall_mem_cons.mpr ⟨positive, fun other member => (above other member).2⟩,
      List.pairwise_cons.mpr ⟨fun other member => (above other member).1.ne, distinct⟩⟩

/-- A proposal that passes its check makes a well-formed incentive. -/
theorem validateBasic_registered {v : Validators} {proposal : RegisterIncentiveProposal}
    (valid : proposal.validateBasic v = .ok ()) (contract : Address) (startTime : Time) :
    Registered contract (newIncentive contract proposal.allocations proposal.epochs startTime) := by
  unfold RegisterIncentiveProposal.validateBasic at valid
  split_ifs at valid
  obtain ⟨_, allocations, valid⟩ := bind_eq_ok.mp valid
  obtain ⟨_, epochs, -⟩ := bind_eq_ok.mp valid
  unfold validateAllocations at allocations
  split_ifs at allocations with empty
  obtain ⟨_, -, coins⟩ := bind_eq_ok.mp allocations
  -- The checks of the proposal are the conditions on an incentive.
  obtain ⟨positive, distinct⟩ := validateDecCoins_ok coins
  unfold validateEpochs at epochs
  split_ifs at epochs with zero
  exact ⟨rfl, fun none => empty (List.isEmpty_iff.mpr none), distinct, positive,
    UInt32.pos_iff_ne_zero.mpr zero⟩

namespace Metered

variable {s : State} {k : Keeper} {after : State} {incentive : Incentive}

theorem allocated_nonneg (metered : Metered s) (denom : Denom) : 0 ≤ s.allocated denom := by
  refine List.sum_nonneg ?_
  intro amount member
  obtain ⟨⟨contract, incentive⟩, inside, rfl⟩ := List.mem_map.mp member
  -- No incentive gives a negative share.
  exact (metered.registered contract incentive (Store.get?_eq_some.mpr inside)).allocationOf_nonneg
    denom

theorem setIncentive (metered : Metered s) (before incentive : Incentive)
    (stored : s.incentives.get? incentive.contract = some before)
    (same : incentive.allocations = before.allocations) (remaining : 0 < incentive.epochs) :
    Metered (s.setIncentive incentive) where
  registered contract other found := by
    rcases Store.get?_set_eq_some.mp found with ⟨rfl, rfl⟩ | ⟨-, before⟩
    · have old := metered.registered _ _ stored
      exact ⟨rfl, same ▸ old.nonempty, same ▸ old.distinct, same ▸ old.positive, remaining⟩
    · exact metered.registered contract other before
  exact denom := by
    -- The incentive counts as much as the one that it replaces.
    have totals := s.incentives.total_set
      (fun _ (i : Incentive) => allocationOf i.allocations denom) incentive.contract incentive
    rw [stored, Option.elim_some, same, add_left_inj] at totals
    exact (metered.exact denom).trans totals.symm
  bounded := metered.bounded
  nonzero := metered.nonzero

/-- Deleting an incentive takes its allocations off the meters. -/
theorem deleteIncentive (metered : Metered s) {before : Incentive}
    (stored : s.incentives.get? incentive.contract = some before)
    (same : incentive.allocations = before.allocations) :
    Metered (s.deleteIncentiveAndUpdateAllocationMeters incentive) := by
  obtain ⟨meters, nonzero⟩ := foldl_subtractAllocation incentive.allocations
    { s with incentives := s.incentives.delete incentive.contract }
  have incentives := deleteIncentive_incentives s incentive
  unfold State.deleteIncentiveAndUpdateAllocationMeters at incentives
  have old := metered.registered _ _ stored
  -- The sum over the remaining incentives lacks exactly what the loop subtracts.
  have totals : ∀ denom,
      (s.incentives.delete incentive.contract).total
          (fun _ (i : Incentive) => allocationOf i.allocations denom) =
        s.meter denom - allocationOf incentive.allocations denom := by
    intro denom
    have total := s.incentives.total_delete
      (fun _ (i : Incentive) => allocationOf i.allocations denom) incentive.contract
    rw [stored, Option.elim_some, ← same] at total
    rw [metered.exact denom, State.allocated, ← total, add_sub_cancel_right]
  unfold State.deleteIncentiveAndUpdateAllocationMeters
  refine ⟨?_, ?_, ?_, nonzero metered.nonzero⟩
  · intro contract other found
    rw [incentives] at found
    exact metered.registered contract other (Store.get?_delete_eq_some.mp found).2
  · intro denom
    rw [meters, State.allocated, incentives]
    exact (totals denom).symm
  · intro denom
    have share : 0 ≤ allocationOf incentive.allocations denom := same ▸ old.allocationOf_nonneg denom
    rw [meters]
    exact (sub_le_self _ share).trans (metered.bounded denom)

theorem congr (metered : Metered s) {other : State} (incentives : other.incentives = s.incentives)
    (meters : other.allocationMeters = s.allocationMeters) : Metered other := by
  obtain ⟨registered, exact_, bounded, nonzero⟩ := metered
  unfold State.meter State.allocated at exact_
  unfold State.meter at bounded
  -- The meters and the incentives are all that matters.
  constructor <;> simp only [State.meter, State.allocated, incentives, meters] <;> assumption

/-- A registration adds its allocations to the meters. -/
theorem registerIncentive (metered : Metered s) {ctx : Context} {contract : Address}
    {allocations : List DecCoin} {epochs : UInt32}
    (valid : Registered contract (newIncentive contract allocations epochs ctx.blockTime))
    (done : registerIncentive k ctx s contract allocations epochs = .ok (incentive, after)) :
    Metered after := by
  obtain ⟨absent, new, meters, built, rfl⟩ := registerIncentive_ok done
  obtain ⟨rfl, bounded⟩ := newAllocationMeters_ok built
  rw [← new] at valid
  have same : incentive.allocations = allocations := by rw [new]; rfl
  have key : incentive.contract = contract := valid.keyed
  obtain ⟨stored, frame⟩ := foldl_setAllocationMeter_frame
    (allocations.map fun al => ⟨al.denom, s.meter al.denom + al.amount⟩) (s.setIncentive incentive)
  have incentives := congrArg State.incentives frame
  obtain ⟨bounds, nonzero⟩ := foldl_setAllocationMeter
    (allocations.map fun al => ⟨al.denom, s.meter al.denom + al.amount⟩) (s.setIncentive incentive)
  -- The sum over the incentives and the meters both gain the allocations.
  refine ⟨?_, ?_, bounds metered.bounded bounded, nonzero metered.nonzero⟩
  · intro other found stored
    rw [incentives] at stored
    rcases Store.get?_set_eq_some.mp stored with ⟨rfl, rfl⟩ | ⟨-, before⟩
    · rw [key]
      exact valid
    · exact metered.registered other found before
  · intro denom
    have total := s.incentives.total_set
      (fun _ (i : Incentive) => allocationOf i.allocations denom) incentive.contract incentive
    rw [key, absent, Option.elim_none, add_zero, same] at total
    have meters := meter_foldl_set allocations (same ▸ valid.distinct) s (s.setIncentive incentive)
      (fun _ _ => rfl) denom
    rw [meters, State.allocated, incentives, State.setIncentive, key, total]
    exact congrArg (· + _) (metered.exact denom)

/-- A cancellation takes the allocations of its incentive off the meters. -/
theorem cancelIncentive (metered : Metered s) {contract : Address}
    (done : cancelIncentive k s contract = .ok after) : Metered after := by
  obtain ⟨incentive, stored, rfl⟩ := cancelIncentive_ok done
  rw [← (metered.registered contract incentive stored).keyed] at stored
  -- The gas meters that go with the incentive are not looked at here.
  obtain ⟨meters, frame⟩ := foldl_deleteGasMeter_frame
    ((s.deleteIncentiveAndUpdateAllocationMeters incentive).getIncentiveGasMeters contract)
    (s.deleteIncentiveAndUpdateAllocationMeters incentive)
  rw [frame]
  exact (metered.deleteIncentive stored rfl).congr rfl rfl

/-- Counting gas does not change what is allocated. -/
theorem postTxProcessing (metered : Metered s) (ctx : Context) (msg : Message) :
    Metered (postTxProcessing ctx s msg) := by
  rcases postTxProcessing_cases ctx s msg with same | ⟨contract, incentive, stored, added⟩
  · rw [same]
    exact metered
  · -- The incentive is stored again with the same allocations.
    have old := metered.registered contract incentive stored
    rw [← old.keyed] at stored
    have counted : Metered (addGasToIncentive s incentive msg.gasUsed) :=
      metered.setIncentive incentive _ stored rfl old.remaining
    rw [added]
    exact counted.congr rfl rfl

theorem rewardLoop_frame (k : Keeper) (incentive : Incentive) (allocated : Coins)
    (gms : List GasMeter) (s : State) (rewards : Coins) (count : ℕ) :
    (rewardLoop k incentive allocated gms s rewards count).2.incentives = s.incentives ∧
      (rewardLoop k incentive allocated gms s rewards count).2.allocationMeters =
        s.allocationMeters := by
  induction gms generalizing s rewards count with
  | nil => exact ⟨rfl, rfl⟩
  | cons gm gms ih =>
    simp only [rewardLoop]
    -- A failed transfer ends the loop and leaves the meters that are left.
    split
    · exact ⟨rfl, rfl⟩
    · exact ih _ _ _

theorem rewardParticipants_frame (k : Keeper) (s : State) (incentive : Incentive)
    (allocations : Store Address Coins) :
    (rewardParticipants k s incentive allocations).2.incentives = s.incentives ∧
      (rewardParticipants k s incentive allocations).2.allocationMeters = s.allocationMeters := by
  unfold rewardParticipants
  -- Without an allocation, or without gas, nothing is paid.
  split
  · exact ⟨rfl, rfl⟩
  · split_ifs
    · exact ⟨rfl, rfl⟩
    · exact rewardLoop_frame ..

theorem get?_distributeIncentive (k : Keeper) (allocations : Store Address Coins) (s : State)
    (incentive : Incentive) {other : Address} (elsewhere : other ≠ incentive.contract) :
    (distributeIncentive k allocations s incentive).incentives.get? other =
      s.incentives.get? other := by
  obtain ⟨incentives, -⟩ := rewardParticipants_frame k s incentive allocations
  simp only [Incentives.distributeIncentive]
  -- The incentive is stored again, or deleted with its allocations.
  split_ifs
  · simp only [State.setIncentiveTotalGas, State.setIncentive]
    rw [Store.get?_set_of_ne _ elsewhere, Store.get?_set_of_ne _ elsewhere, incentives]
  · rw [deleteIncentive_incentives, Store.get?_delete_of_ne _ elsewhere, incentives]

/-- One incentive of a distribution: it is stored with one epoch less, or it expires. -/
theorem distributeIncentive (metered : Metered s) (k : Keeper) (allocations : Store Address Coins)
    (stored : s.incentives.get? incentive.contract = some incentive) :
    Metered (distributeIncentive k allocations s incentive) := by
  obtain ⟨incentives, meters⟩ := rewardParticipants_frame k s incentive allocations
  have paid := metered.congr incentives meters
  rw [← incentives] at stored
  simp only [Incentives.distributeIncentive]
  -- It is stored twice with one epoch less, or it expires.
  split_ifs with active
  · have remaining : 0 < incentive.epochs - 1 := by simpa [Incentive.isActive] using active
    have first := paid.setIncentive _ { incentive with epochs := incentive.epochs - 1 }
      stored rfl remaining
    exact first.setIncentive _ _ (Store.get?_set_self _ _ _) rfl remaining
  · exact paid.deleteIncentive stored rfl

/-- A distribution keeps the meters exact, whether its transfers succeed or not. -/
theorem distributeRewards (metered : Metered s) (done : distributeRewards k s = .ok after) :
    Metered after := by
  obtain ⟨⟨allocations, rewards⟩, -, done⟩ := bind_eq_ok.mp done
  -- The loop changes the store only at the incentive that it visits.
  refine Store.iterate_invariant State.incentives Metered ?_ metered done
  intro current entry next _ metered stored visited
  obtain ⟨contract, incentive⟩ := entry
  obtain rfl := Except.ok.inj visited
  obtain rfl : incentive.contract = contract := (metered.registered _ _ stored).keyed
  exact ⟨metered.distributeIncentive k allocations stored,
    fun other elsewhere => get?_distributeIncentive k allocations current incentive elsewhere⟩

theorem step (metered : Metered s) {v : Validators} {call : Call} (taken : Step k v s call after) :
    Metered after := by
  -- Every call keeps the meters exact.
  cases taken with
  | registerIncentive valid registered =>
    exact metered.registerIncentive (validateBasic_registered valid _ _) registered
  | cancelIncentive cancelled => exact metered.cancelIncentive cancelled
  | postTx => exact metered.postTxProcessing _ _
  | distributeRewards distributed => exact metered.distributeRewards distributed
  | others => exact metered.congr rfl rfl

theorem empty (params : Params) (bank : Bank) : Metered (.empty params bank) where
  registered contract incentive absent := by cases absent
  exact _ := rfl
  bounded _ := by
    change (0 : Dec) ≤ 1
    decide
  nonzero denom := by simp [State.empty]

theorem reachable {v : Validators} {params : Params} {bank : Bank} {calls : List Call}
    (run : Run (Step k v) (.empty params bank) calls s) : Metered s :=
  run.invariant Metered (fun metered taken => metered.step taken) (empty params bank)

end Metered

/--
In every reachable state the meters are exact and at most one, and no incentive has run out.

The meter of a denomination is the sum of its allocations over all incentives.
-/
theorem allocationMeters_exact (k : Keeper) (v : Validators) (params : Params) (bank : Bank)
    {calls : List Call} {s : State} (run : Run (Step k v) (.empty params bank) calls s) :
    (∀ denom, (s.getAllocationMeter denom).1.amount =
        s.incentives.total fun _ incentive => allocationOf incentive.allocations denom) ∧
      (∀ denom, 0 ≤ (s.getAllocationMeter denom).1.amount ∧
        (s.getAllocationMeter denom).1.amount ≤ 1) ∧
      (∀ denom, s.allocationMeters.get? denom ≠ some 0) ∧
      ∀ contract incentive, s.incentives.get? contract = some incentive →
        1 ≤ incentive.epochs ∧ (incentive.epochs - 1).toNat + 1 = incentive.epochs.toNat := by
  have metered := Metered.reachable run
  refine ⟨?_, ?_, metered.nonzero, ?_⟩
  · intro denom
    rw [getAllocationMeter_amount]
    exact metered.exact denom
  · intro denom
    rw [getAllocationMeter_amount]
    exact ⟨metered.exact denom ▸ metered.allocated_nonneg denom, metered.bounded denom⟩
  · intro contract incentive stored
    -- At least one epoch remains, so the subtraction does not wrap.
    have remaining := UInt32.lt_iff_toNat_lt.mp (metered.registered contract incentive stored).remaining
    have least : 1 ≤ incentive.epochs := UInt32.le_iff_toNat_le.mpr remaining
    refine ⟨least, ?_⟩
    rw [UInt32.toNat_sub_of_le _ _ least]
    exact Nat.sub_add_cancel remaining

/-- A keeper for evaluation, for which the address of a text is its length. -/
def lengthKeeper : Keeper where
  moduleAddress := 1
  evmDenom := "aevmos"
  blockedAddr _ := false
  bech32 := .unary
  hexToAddress text := text.toList.length
  addressToHex address := String.ofList (List.replicate address 'x')

/-- Checks for evaluation, which accept every name. -/
def acceptAll : Validators := ⟨fun _ => true, fun _ => true, fun _ _ => .ok ()⟩

/-- Parameters that allow a contract to be allocated everything. -/
def unlimited : Params := ⟨true, 1, "week", Dec.ofIntWithPrec 12 1, by decide⟩

/-- A block in which every address is a contract and has an ordinary account. -/
def anyContract : Context := ⟨0, fun _ => true, fun _ => some .other⟩

/-- A bank in which the module account holds atoms. -/
def holdingAtoms (amount : ℕ) : Bank :=
  ⟨fun addr => if addr = 1 then Coins.ofCoin "atom" amount else 0, Coins.ofCoin "atom" amount⟩

/-- A proposal to allocate atoms to a contract, for a number of epochs. -/
def atomProposal (contract : String) (amount : Dec) (epochs : UInt32) : RegisterIncentiveProposal :=
  ⟨"title", "description", contract, [⟨"atom", amount⟩], epochs⟩

/-- Two incentives with 60% and 40% of the atoms, of which the first expires. -/
theorem expired_allocation_leaves_meter :
    ∃ s, Run (Step lengthKeeper acceptAll) (.empty unlimited (holdingAtoms 10))
        [⟨anyContract, .registerIncentive (atomProposal "xx" (Dec.ofIntWithPrec 60 2) 1)⟩,
          ⟨anyContract, .registerIncentive (atomProposal "xxx" (Dec.ofIntWithPrec 40 2) 2)⟩,
          ⟨anyContract, .distributeRewards⟩] s ∧
      (s.incentives.get? 2).isNone ∧
      (s.getAllocationMeter "atom").1.amount = Dec.ofIntWithPrec 40 2 ∧
      (s.getAllocationMeter "atom").1.amount ≤ 1 := by
  -- The run is evaluated, and the bound comes from the theorem.
  have ran : ∃ s, Run (Step lengthKeeper acceptAll) (.empty unlimited (holdingAtoms 10))
        [⟨anyContract, .registerIncentive (atomProposal "xx" (Dec.ofIntWithPrec 60 2) 1)⟩,
          ⟨anyContract, .registerIncentive (atomProposal "xxx" (Dec.ofIntWithPrec 40 2) 2)⟩,
          ⟨anyContract, .distributeRewards⟩] s ∧
      (s.incentives.get? 2).isNone ∧
      (s.getAllocationMeter "atom").1.amount = Dec.ofIntWithPrec 40 2 :=
    ⟨_, .extend (.extend (.extend .start (.registerIncentive rfl rfl)) (.registerIncentive rfl rfl))
      (.distributeRewards rfl), by decide, by decide⟩
  obtain ⟨s, run, expired, meter⟩ := ran
  exact ⟨s, run, expired, meter,
    ((allocationMeters_exact lengthKeeper acceptAll unlimited (holdingAtoms 10) run).2.1 "atom").2⟩

end Evmos.Incentives
