import Evmos.Proofs.Incentives.Distribution
import Evmos.Proofs.Incentives.Rewards
import Evmos.Sdk.Payments

/-! A distribution does one epoch of work: it pays, clears the meters, and ages the incentives. -/

namespace Evmos.Incentives

open Library

variable {k : Keeper} {s : State} {allocations : Store Address Coins} {incentive : Incentive}
  {entry : Address × Incentive}

/-- The rewards an incentive pays to its participants, out of what the escrow held at first. -/
def State.incentivePayments (k : Keeper) (s : State) (incentive : Incentive) :
    List (Address × Coins) :=
  (s.getIncentiveGasMeters incentive.contract).map fun gm =>
    (gm.participant, participantReward k s.params incentive
      (contractAllocation (s.bank.balances k.moduleAddress) incentive) gm)

/-- The rewards of all incentives, in the order in which they are paid. -/
def State.payments (k : Keeper) (s : State) : List (Address × Coins) :=
  s.incentives.entries.flatMap fun entry => s.incentivePayments k entry.2

/-- What is stored for an incentive after an epoch: one epoch less, or nothing. -/
def Incentive.aged (incentive : Incentive) : Option Incentive :=
  if 0 < incentive.epochs - 1 then
    some { incentive with epochs := incentive.epochs - 1, totalGas := 0 }
  else none

/-- No reward transfer of a distribution fails: each visit counts all participants as paid. -/
def PaysAll (k : Keeper) (allocations : Store Address Coins) :
    List (Address × Incentive) → State → Prop
  | [], _ => True
  | entry :: rest, s =>
    (rewardParticipants k s entry.2 allocations).1.2 =
        (s.getIncentiveGasMeters entry.2.contract).length ∧
      PaysAll k allocations rest (distributeIncentive k allocations s entry.2)

/-- A state at the end of an epoch, as the calls of the module leave it. -/
structure EpochReady (k : Keeper) (s : State) : Prop where
  keyed : ∀ contract incentive, s.incentives.get? contract = some incentive →
    incentive.contract = contract
  totals : ∀ contract incentive, s.incentives.get? contract = some incentive →
    incentive.totalGas = ((s.getIncentiveGasMeters contract).map GasMeter.cumulativeGas).sum
  positive : ∀ contract incentive, s.incentives.get? contract = some incentive →
    ∀ gm ∈ s.getIncentiveGasMeters contract, 0 < gm.cumulativeGas
  epochs : ∀ contract incentive, s.incentives.get? contract = some incentive →
    1 ≤ incentive.epochs
  -- No denomination is allocated twice.
  distinct : ∀ contract incentive, s.incentives.get? contract = some incentive →
    incentive.allocations.Pairwise fun al other => al.denom ≠ other.denom
  -- The module account takes no part itself.
  outside : ∀ contract incentive, s.incentives.get? contract = some incentive →
    ∀ gm ∈ s.getIncentiveGasMeters contract, gm.participant ≠ k.moduleAddress

/-- A loop that counts all its participants has paid them all, and has deleted their meters. -/
theorem rewardLoop_of_count {allocated : Coins} (gms : List GasMeter) (s : State) (rewards : Coins)
    (count : ℕ) (outside : ∀ gm ∈ gms, gm.participant ≠ k.moduleAddress)
    (all : (rewardLoop k incentive allocated gms s rewards count).1.2 = count + gms.length) :
    ∃ bank, (rewardLoop k incentive allocated gms s rewards count).2 =
        { gms.foldl State.deleteGasMeter s with bank := bank } ∧
      PaidOut k.moduleAddress (gms.map fun gm =>
        (gm.participant, participantReward k s.params incentive allocated gm)) s.bank bank := by
  induction gms generalizing s rewards count with
  | nil => exact ⟨s.bank, rfl, .refl s.bank⟩
  | cons gm gms ih =>
    obtain ⟨first, others⟩ := List.forall_mem_cons.mp outside
    rw [List.length_cons] at all
    cases sent : s.bank.sendCoinsFromModuleToAccount k.bech32 k.blockedAddr k.moduleAddress
      gm.participant (participantReward k s.params incentive allocated gm) with
    | error err =>
      -- A failed transfer ends the loop, and the participants after it are not counted.
      simp only [rewardLoop, sent] at all
      omega
    | ok paid =>
      simp only [rewardLoop, sent] at all ⊢
      obtain ⟨bank, done, rest⟩ := ih (State.deleteGasMeter { s with bank := paid } gm)
        (rewards + participantReward k s.params incentive allocated gm) (count + 1) others
        (by omega)
      refine ⟨bank, ?_, (PaidOut.of_sendCoinsFromModuleToAccount first sent).trans rest⟩
      rw [done, List.foldl_cons]
      exact congrArg (fun s : State => { s with bank := bank })
        (foldl_deleteGasMeter_bank (s.deleteGasMeter gm) gms paid)

theorem get?_distributeIncentive_self (allocations : Store Address Coins) (s : State)
    (incentive : Incentive) :
    (distributeIncentive k allocations s incentive).incentives.get? incentive.contract =
      incentive.aged := by
  simp only [distributeIncentive, Incentive.isActive, Incentive.aged]
  -- The visit stores the incentive again, or deletes it with its meters of allocations.
  by_cases active : 0 < incentive.epochs - 1
  · simp only [decide_eq_true_eq, if_pos active]
    exact Store.get?_set_self _ _ _
  · simp only [decide_eq_true_eq, if_neg active]
    rw [deleteIncentive_incentives, Store.get?_delete_self]

/-- The state of a distribution after the given incentives have been visited. -/
structure Visited (k : Keeper) (s : State) (visited : List (Address × Incentive)) (now : State) :
    Prop where
  params : now.params = s.params
  cleared : ∀ entry ∈ visited, now.getIncentiveGasMeters entry.1 = []
  meters : ∀ contract, (∀ entry ∈ visited, entry.1 ≠ contract) →
    now.getIncentiveGasMeters contract = s.getIncentiveGasMeters contract
  stored : ∀ entry ∈ visited, now.incentives.get? entry.1 = entry.2.aged
  others : ∀ contract, (∀ entry ∈ visited, entry.1 ≠ contract) →
    now.incentives.get? contract = s.incentives.get? contract
  paid : PaidOut k.moduleAddress
    (visited.flatMap fun entry => s.incentivePayments k entry.2) s.bank now.bank

/-- The participants of one incentive are paid in full and lose their meters. -/
theorem rewardParticipants_of_count {now : State} (ready : EpochReady k s)
    (stored : s.incentives.get? incentive.contract = some incentive)
    (allocated : allocations.get? incentive.contract =
      some (contractAllocation (s.bank.balances k.moduleAddress) incentive))
    (params : now.params = s.params)
    (meters : now.getIncentiveGasMeters incentive.contract =
      s.getIncentiveGasMeters incentive.contract)
    (all : (rewardParticipants k now incentive allocations).1.2 =
      (now.getIncentiveGasMeters incentive.contract).length) :
    ∃ bank, (rewardParticipants k now incentive allocations).2 =
        { (now.getIncentiveGasMeters incentive.contract).foldl State.deleteGasMeter now with
          bank := bank } ∧
      PaidOut k.moduleAddress (s.incentivePayments k incentive) now.bank bank := by
  simp only [rewardParticipants, allocated] at all ⊢
  split_ifs at all ⊢ with idle
  · -- Without gas there is no meter, so there is nothing to pay.
    have none : s.getIncentiveGasMeters incentive.contract = [] := by
      rw [← meters]
      exact List.length_eq_zero_iff.mp all.symm
    rw [meters, State.incentivePayments, none]
    exact ⟨now.bank, rfl, .refl now.bank⟩
  · have outside : ∀ gm ∈ now.getIncentiveGasMeters incentive.contract,
        gm.participant ≠ k.moduleAddress := by
      rw [meters]
      exact ready.outside _ _ stored
    obtain ⟨bank, done, paid⟩ :=
      rewardLoop_of_count _ now 0 0 outside (all.trans (Nat.zero_add _).symm)
    refine ⟨bank, done, ?_⟩
    rw [meters, params] at paid
    exact paid

/-- A visit whose rewards are all paid deletes the meters of the contract, and no others. -/
theorem getIncentiveGasMeters_distributeIncentive {now : State} {bank : Bank}
    (done : (rewardParticipants k now incentive allocations).2 =
      { (now.getIncentiveGasMeters incentive.contract).foldl State.deleteGasMeter now with
        bank := bank }) :
    (distributeIncentive k allocations now incentive).getIncentiveGasMeters
        incentive.contract = [] ∧
      ∀ contract, contract ≠ incentive.contract →
        (distributeIncentive k allocations now incentive).getIncentiveGasMeters contract =
          now.getIncentiveGasMeters contract := by
  -- Only the rewards touch gas meters; aging the incentive does not.
  obtain ⟨gas, -⟩ := distributeIncentive_eq k allocations now incentive
  rw [done] at gas
  constructor
  · have gone := getIncentiveGasMeters_foldl_self now incentive.contract
    simp only [State.getIncentiveGasMeters, gas] at gone ⊢
    exact gone
  · intro contract apart
    have own : ∀ gm ∈ now.getIncentiveGasMeters incentive.contract,
        gm.contract = incentive.contract := fun _ => contract_of_mem_getIncentiveGasMeters now
    have kept := getIncentiveGasMeters_foldl_of_ne now apart _ own
    simp only [State.getIncentiveGasMeters, gas] at kept ⊢
    exact kept

/-- A visit pays one incentive, clears its meters, and ages it. -/
theorem Visited.visit {now : State} {visited : List (Address × Incentive)} (ready : EpochReady k s)
    (before : Visited k s visited now)
    (stored : s.incentives.get? entry.1 = some entry.2)
    (fresh : ∀ earlier ∈ visited, earlier.1 ≠ entry.1)
    (allocated : allocations.get? entry.1 =
      some (contractAllocation (s.bank.balances k.moduleAddress) entry.2))
    (all : (rewardParticipants k now entry.2 allocations).1.2 =
      (now.getIncentiveGasMeters entry.2.contract).length) :
    Visited k s (visited ++ [entry]) (distributeIncentive k allocations now entry.2) := by
  obtain ⟨contract, incentive⟩ := entry
  obtain rfl : incentive.contract = contract := ready.keyed _ _ stored
  obtain ⟨bank, done, paid⟩ := rewardParticipants_of_count ready stored allocated before.params
    (before.meters _ fresh) all
  obtain ⟨cleared, elsewhere⟩ := getIncentiveGasMeters_distributeIncentive done
  obtain ⟨-, params, sameBank, -⟩ := distributeIncentive_eq k allocations now incentive
  rw [done] at params sameBank
  -- Each fact holds for the visited incentive by this visit, and for the earlier ones as before.
  refine ⟨?_, ?_, ?_, ?_, ?_, ?_⟩
  · obtain ⟨meters, frame⟩ := foldl_deleteGasMeter_frame
      (now.getIncentiveGasMeters incentive.contract) now
    rw [params, frame]
    exact before.params
  · refine List.forall_mem_append.mpr
      ⟨fun earlier member => ?_, List.forall_mem_singleton.mpr cleared⟩
    rw [elsewhere _ (fresh _ member)]
    exact before.cleared _ member
  · intro contract unvisited
    obtain ⟨earlier, last⟩ := List.forall_mem_append.mp unvisited
    rw [elsewhere contract (List.forall_mem_singleton.mp last).symm]
    exact before.meters contract earlier
  · refine List.forall_mem_append.mpr ⟨fun earlier member => ?_, List.forall_mem_singleton.mpr
      (get?_distributeIncentive_self allocations now incentive)⟩
    rw [Metered.get?_distributeIncentive k allocations now incentive (fresh _ member)]
    exact before.stored _ member
  · intro contract unvisited
    obtain ⟨earlier, last⟩ := List.forall_mem_append.mp unvisited
    rw [Metered.get?_distributeIncentive k allocations now incentive
      (List.forall_mem_singleton.mp last).symm]
    exact before.others contract earlier
  · rw [List.flatMap_append, List.flatMap_singleton, sameBank]
    exact before.paid.trans paid

theorem paysAll_append (entries more : List (Address × Incentive)) (s : State) :
    PaysAll k allocations (entries ++ more) s ↔
      PaysAll k allocations entries s ∧
        PaysAll k allocations more (distributed k allocations s entries) := by
  -- The induction is on the first part, from any state it starts in.
  induction entries generalizing s with
  | nil => exact (iff_of_eq (true_and _)).symm
  | cons entry entries ih =>
    rw [List.cons_append, PaysAll, PaysAll, ih, and_assoc]
    rfl

/-- The loop has visited every incentive it was given. -/
theorem visited_distributed
    (ready : EpochReady k s) (rest visited : List (Address × Incentive)) (now : State)
    (before : Visited k s visited now)
    (stored : ∀ entry ∈ rest, s.incentives.get? entry.1 = some entry.2)
    (allocated : ∀ entry ∈ rest, allocations.get? entry.1 =
      some (contractAllocation (s.bank.balances k.moduleAddress) entry.2))
    (distinct : (visited ++ rest).Pairwise fun entry other => entry.1 ≠ other.1)
    (paid : PaysAll k allocations rest now) :
    Visited k s (visited ++ rest) (distributed k allocations now rest) := by
  induction rest generalizing visited now with
  | nil =>
    rw [List.append_nil]
    exact before
  | cons entry rest ih =>
    obtain ⟨all, paid⟩ := paid
    obtain ⟨first, stored⟩ := List.forall_mem_cons.mp stored
    obtain ⟨coins, allocated⟩ := List.forall_mem_cons.mp allocated
    have fresh : ∀ earlier ∈ visited, earlier.1 ≠ entry.1 := fun earlier member =>
      (List.pairwise_append.mp distinct).2.2 earlier member entry List.mem_cons_self
    -- The visited incentive moves from the rest to the visited ones.
    have order : visited ++ entry :: rest = (visited ++ [entry]) ++ rest := by simp
    rw [order] at distinct ⊢
    exact ih (visited ++ [entry]) _ (before.visit ready first fresh coins all) stored allocated
      distinct paid

/-- The first part of the stored incentives has been visited by the same part of the loop. -/
theorem visited_of_paysAll {rewards : Coins} {entries more : List (Address × Incentive)}
    (ready : EpochReady k s) (allocating : rewardAllocations k s = .ok (allocations, rewards))
    (split : s.incentives.entries = entries ++ more) (paid : PaysAll k allocations entries s) :
    Visited k s entries (distributed k allocations s entries) := by
  have among : ∀ entry ∈ entries, entry ∈ s.incentives.entries := by
    intro entry member
    rw [split]
    exact List.mem_append_left _ member
  -- The loop starts with nothing visited.
  refine visited_distributed ready entries [] s ?_ ?_ ?_ ?_ paid
  · exact ⟨rfl, by simp, fun _ _ => rfl, by simp, fun _ _ => rfl, .refl s.bank⟩
  · exact fun entry member => Store.get?_eq_some.mpr (among entry member)
  · exact fun entry member =>
      rewardAllocations_ok ready.keyed allocating entry (among entry member)
  · have apart : s.incentives.entries.Pairwise fun entry other => entry.1 ≠ other.1 :=
      s.incentives.sorted.imp fun less => less.ne
    rw [split] at apart
    exact (List.pairwise_append.mp apart).1

/-- The accounts that have spent gas on the contract of a stored incentive. -/
def State.participants (s : State) : Finset Address :=
  (s.incentives.entries.flatMap fun entry =>
    (s.getIncentiveGasMeters entry.2.contract).map GasMeter.participant).toFinset

theorem recipients_payments (s : State) :
    ((s.payments k).map Prod.fst).toFinset = s.participants := by
  rw [State.payments, State.participants, List.map_flatMap]
  -- The participants are the recipients of the payments, incentive by incentive.
  congr 2
  funext entry
  rw [State.incentivePayments, List.map_map]
  rfl

theorem nodup_participants (s : State) (contract : Address) :
    ((s.getIncentiveGasMeters contract).map GasMeter.participant).Nodup := by
  unfold State.getIncentiveGasMeters
  rw [List.map_map]
  -- Two entries of one contract with one participant have one key.
  refine List.Nodup.map_on ?_ ?_
  · intro entry member other also same
    obtain ⟨listed, here⟩ := List.mem_filter.mp member
    obtain ⟨listedToo, hereToo⟩ := List.mem_filter.mp also
    have key : entry.1 = other.1 := by
      refine Prod.ext ?_ same
      exact (of_decide_eq_true here).trans (of_decide_eq_true hereToo).symm
    refine Prod.ext key (s.gasMeters.unique listed ?_)
    rw [key]
    exact listedToo
  · exact (List.Nodup.of_map _ s.gasMeters.nodup_keys).filter _

/-- A list that pays an account once pays it just that payment. -/
theorem receivedBy_map_of_nodup {gms : List GasMeter} (reward : GasMeter → Coins)
    (nodup : (gms.map GasMeter.participant).Nodup) {gm : GasMeter} (member : gm ∈ gms) :
    receivedBy (gms.map fun gm => (gm.participant, reward gm)) gm.participant = reward gm := by
  induction gms with
  | nil => cases member
  | cons first gms ih =>
    obtain ⟨fresh, nodup⟩ := List.nodup_cons.mp nodup
    rw [List.map_cons, receivedBy_cons]
    rcases List.mem_cons.mp member with rfl | later
    · -- The account occurs in no later payment.
      rw [if_pos rfl, receivedBy_of_notMem, add_zero]
      rw [List.map_map]
      exact fresh
    · rw [ih nodup later, if_neg, zero_add]
      intro same
      exact fresh (List.mem_map.mpr ⟨gm, later, same.symm⟩)

/-- In the EVM denomination no reward is above the gas spent, times the factor. -/
theorem participantReward_evmDenom_le {params : Params} {allocated : Coins}
    (distinct : incentive.allocations.Pairwise fun al other => al.denom ≠ other.denom)
    (gm : GasMeter) :
    (participantReward k params incentive allocated gm k.evmDenom : ℤ) ≤
      gm.cumulativeGas * params.rewardScaler.atomics / Dec.precision := by
  obtain ⟨scaler, scalerEq⟩ := Int.eq_ofNat_of_zero_le params.rewardScaler_nonneg
  -- The denomination is listed at most once, and each listing is capped.
  have bound : participantReward k params incentive allocated gm k.evmDenom ≤
      gm.cumulativeGas * scaler / Dec.precision.toNat := by
    rw [participantReward_apply]
    calc _ ≤ 1 * payout k params incentive.totalGas (allocated k.evmDenom) k.evmDenom gm :=
          Nat.mul_le_mul_right _ (listings_le_one distinct _)
      _ = payout k params incentive.totalGas (allocated k.evmDenom) k.evmDenom gm := Nat.one_mul _
      _ ≤ gm.cumulativeGas * scaler / Dec.precision.toNat := by
          rw [payout, if_pos rfl, scalerEq, Int.toNat_natCast]
          exact min_le_right _ _
  rw [scalerEq]
  exact Int.ofNat_le.mpr bound

/-- What one epoch of work makes of a state. -/
structure OneEpoch (k : Keeper) (allocations : Store Address Coins) (s after : State) : Prop where
  cleared : ∀ contract incentive, s.incentives.get? contract = some incentive →
    after.getIncentiveGasMeters contract = []
  continued : ∀ contract incentive, s.incentives.get? contract = some incentive →
    1 < incentive.epochs → after.incentives.get? contract =
      some { incentive with epochs := incentive.epochs - 1, totalGas := 0 }
  finished : ∀ contract incentive, s.incentives.get? contract = some incentive →
    incentive.epochs = 1 → after.incentives.get? contract = none
  absent : ∀ contract, s.incentives.get? contract = none →
    after.incentives.get? contract = none
  -- The escrow loses exactly what the participants gain.
  escrow : ∀ denom, after.bank.balances k.moduleAddress denom + ∑ addr ∈ s.participants,
      (after.bank.balances addr denom - s.bank.balances addr denom) =
    s.bank.balances k.moduleAddress denom
  gains : ∀ addr ∈ s.participants, s.bank.balances addr ≤ after.bank.balances addr
  others : ∀ addr, addr ≠ k.moduleAddress → addr ∉ s.participants →
    after.bank.balances addr = s.bank.balances addr
  supply : after.bank.supply = s.bank.supply
  -- No visit of an incentive pays a participant more than its gas, times the factor.
  capped : ∀ earlier entry later, s.incentives.entries = earlier ++ entry :: later →
    ∀ gm ∈ s.getIncentiveGasMeters entry.1,
      ((distributed k allocations s (earlier ++ [entry])).bank.balances gm.participant
          k.evmDenom : ℤ) -
        (distributed k allocations s earlier).bank.balances gm.participant k.evmDenom ≤
      gm.cumulativeGas * s.params.rewardScaler.atomics / Dec.precision

/-- One more visit pays a participant of the visited incentive exactly its reward. -/
theorem visit_pays {now next : State} {earlier : List (Address × Incentive)}
    (ready : EpochReady k s) (stored : s.incentives.get? entry.1 = some entry.2)
    (before : Visited k s earlier now) (after : Visited k s (earlier ++ [entry]) next)
    {gm : GasMeter} (member : gm ∈ s.getIncentiveGasMeters entry.1) :
    next.bank.balances gm.participant = now.bank.balances gm.participant +
      participantReward k s.params entry.2
        (contractAllocation (s.bank.balances k.moduleAddress) entry.2) gm := by
  -- The two lists of payments differ by those of this visit, one of which is for the participant.
  have outside := ready.outside _ _ stored gm member
  rw [after.paid.accounts _ outside, before.paid.accounts _ outside, List.flatMap_append,
    List.flatMap_singleton, receivedBy_append, ← add_assoc, State.incentivePayments,
    ready.keyed _ _ stored, receivedBy_map_of_nodup _ (nodup_participants s entry.1) member]

/-- No visit of an incentive pays a participant more than its gas, times the factor. -/
theorem visit_capped {rewards : Coins} {earlier later : List (Address × Incentive)}
    (ready : EpochReady k s) (allocating : rewardAllocations k s = .ok (allocations, rewards))
    (paid : PaysAll k allocations s.incentives.entries s)
    (split : s.incentives.entries = earlier ++ entry :: later) {gm : GasMeter}
    (member : gm ∈ s.getIncentiveGasMeters entry.1) :
    ((distributed k allocations s (earlier ++ [entry])).bank.balances gm.participant
          k.evmDenom : ℤ) -
        (distributed k allocations s earlier).bank.balances gm.participant k.evmDenom ≤
      gm.cumulativeGas * s.params.rewardScaler.atomics / Dec.precision := by
  have stored : s.incentives.get? entry.1 = some entry.2 := by
    refine Store.get?_eq_some.mpr ?_
    rw [split]
    exact List.mem_append_right _ List.mem_cons_self
  have further : s.incentives.entries = (earlier ++ [entry]) ++ later := by
    rw [split]
    simp
  -- Both parts of the loop have paid all their participants.
  rw [further, paysAll_append, paysAll_append] at paid
  have pays := visit_pays ready stored (visited_of_paysAll ready allocating split paid.1.1)
    (visited_of_paysAll ready allocating further ((paysAll_append _ _ _).mpr paid.1)) member
  have cap := @participantReward_evmDenom_le k entry.2 s.params
    (contractAllocation (s.bank.balances k.moduleAddress) entry.2)
    (ready.distinct _ _ stored) gm
  have paidInEvmDenom := DFunLike.congr_fun pays k.evmDenom
  rw [DFinsupp.add_apply] at paidInEvmDenom
  omega

theorem EpochReady.outside_payments (ready : EpochReady k s) :
    ∀ payment ∈ s.payments k, payment.1 ≠ k.moduleAddress := by
  intro payment member
  obtain ⟨entry, listed, paying⟩ := List.mem_flatMap.mp member
  obtain ⟨gm, metered, rfl⟩ := List.mem_map.mp paying
  -- Payments go to those who have a meter of a stored incentive.
  have stored := Store.get?_eq_some.mpr listed
  exact ready.outside _ _ stored gm (ready.keyed _ _ stored ▸ metered)

theorem Incentive.aged_of_more (more : 1 < incentive.epochs) :
    incentive.aged = some { incentive with epochs := incentive.epochs - 1, totalGas := 0 } := by
  refine if_pos ?_
  -- The subtraction does not wrap, as more than one epoch is left.
  rw [UInt32.lt_iff_toNat_lt] at more ⊢
  rw [UInt32.toNat_sub_of_le _ _ (UInt32.le_iff_toNat_le.mpr more.le)]
  exact Nat.sub_pos_of_lt more

theorem Incentive.aged_of_last (last : incentive.epochs = 1) : incentive.aged = none := by
  refine if_neg ?_
  rw [last]
  decide

/--
A distribution does exactly one epoch of work.

It is taken from a state whose totals agree with its meters, and none of its transfers fails.
-/
theorem distributeRewards_one_epoch (k : Keeper) {s after : State}
    {allocations : Store Address Coins} {rewards : Coins} (ready : EpochReady k s)
    (allocating : rewardAllocations k s = .ok (allocations, rewards))
    (paid : PaysAll k allocations s.incentives.entries s)
    (done : distributeRewards k s = .ok after) : OneEpoch k allocations s after := by
  rw [distributeRewards_of_allocated allocating] at done
  obtain rfl := Except.ok.inj done
  -- The loop visits all stored incentives, so what a visit does is known for each of them.
  have whole := visited_of_paysAll ready allocating (List.append_nil _).symm paid
  refine ⟨?_, ?_, ?_, ?_, ?_, ?_, ?_, whole.paid.supply, ?_⟩
  · intro contract incentive stored
    exact whole.cleared (contract, incentive) (Store.get?_eq_some.mp stored)
  · intro contract incentive stored more
    exact (whole.stored (contract, incentive) (Store.get?_eq_some.mp stored)).trans
      (Incentive.aged_of_more more)
  · intro contract incentive stored last
    exact (whole.stored (contract, incentive) (Store.get?_eq_some.mp stored)).trans
      (Incentive.aged_of_last last)
  · intro contract absent
    rw [whole.others contract, absent]
    -- What was not stored was not visited.
    rintro ⟨key, incentive⟩ member rfl
    rw [Store.get?_eq_some.mpr member] at absent
    cases absent
  · intro denom
    rw [← recipients_payments (k := k)]
    exact whole.paid.escrow_add_sum ready.outside_payments denom
  · intro addr member
    rw [← recipients_payments (k := k)] at member
    obtain ⟨payment, listed, rfl⟩ := List.mem_map.mp (List.mem_toFinset.mp member)
    rw [whole.paid.accounts _ (ready.outside_payments payment listed)]
    exact le_self_add
  · intro addr elsewhere absent
    rw [← recipients_payments (k := k), List.mem_toFinset] at absent
    rw [whole.paid.accounts _ elsewhere]
    exact (congrArg _ (receivedBy_of_notMem absent)).trans (add_zero _)
  · intro earlier entry later split gm member
    exact visit_capped ready allocating paid split member

/-- A state with an incentive for two more epochs, and one that ends with this epoch. -/
def twoIncentives : State where
  params := unlimited
  incentives := (Store.empty.set 2 ⟨2, [⟨"atom", 1⟩], 2, 0, 4⟩).set 3 ⟨3, [⟨"aevmos", 1⟩], 1, 0, 5⟩
  gasMeters := ((Store.empty.set (toLex (2, 11)) 1).set (toLex (2, 12)) 3).set (toLex (3, 11)) 5
  allocationMeters := .empty
  bank := holdingAtoms 10

/-- Ten atoms are paid out, three of four parts to one participant, and one incentive is left. -/
theorem ten_atoms_one_epoch :
    ∃ allocations rewards after,
      rewardAllocations lengthKeeper twoIncentives = .ok (allocations, rewards) ∧
      distributeRewards lengthKeeper twoIncentives = .ok after ∧
      after.bank.balances 12 "atom" = 7 ∧
      OneEpoch lengthKeeper allocations twoIncentives after := by
  have stored : ∀ contract incentive, twoIncentives.incentives.get? contract = some incentive →
      (contract, incentive) = (2, ⟨2, [⟨"atom", 1⟩], 2, 0, 4⟩) ∨
        (contract, incentive) = (3, ⟨3, [⟨"aevmos", 1⟩], 1, 0, 5⟩) := by
    intro contract incentive present
    have member := Store.get?_eq_some.mp present
    exact (List.mem_cons.mp member).imp_right fun last => List.mem_singleton.mp last
  -- There are two incentives, for which the conditions are decided.
  have ready : EpochReady lengthKeeper twoIncentives := by
    refine ⟨?_, ?_, ?_, ?_, ?_, ?_⟩ <;> intro contract incentive present <;>
      rcases stored contract incentive present with same | same <;>
      obtain ⟨rfl, rfl⟩ := Prod.mk.inj same <;> decide
  obtain ⟨allocations, rewards, allocating, paid⟩ : ∃ allocations rewards,
      rewardAllocations lengthKeeper twoIncentives = .ok (allocations, rewards) ∧
      PaysAll lengthKeeper allocations twoIncentives.incentives.entries twoIncentives :=
    ⟨_, _, rfl, by decide, by decide, trivial⟩
  obtain ⟨after, done, received⟩ : ∃ after,
      distributeRewards lengthKeeper twoIncentives = .ok after ∧
      after.bank.balances 12 "atom" = 7 := ⟨_, rfl, by decide⟩
  exact ⟨allocations, rewards, after, allocating, done, received,
    distributeRewards_one_epoch lengthKeeper ready allocating paid done⟩

end Evmos.Incentives
