import Evmos.Claims.Query
import Evmos.Proofs.Claims.Decay
import Evmos.Proofs.Claims.Solvency

/-! When the query for a claims record reports what a claim would pay. -/

namespace Evmos.Claims

open Library

/--
What a claim has transferred to the user.

A remainder is booked for the community pool, which does not count if the account is the one that
holds the pool.
-/
def received (k : Keeper) (before after : State) (addr : Address) : ℤ :=
  let denom := before.params.claimsDenom
  let funded : ℤ := after.communityPool denom - before.communityPool denom
  after.balances addr denom - before.balances addr denom -
    if addr = k.distributionAddress then funded else 0

section Payment

variable {k : Keeper} {s : State} {addr : Address} {amount : ℤ}

theorem received_of_sent {paid : State}
    (sent : s.sendCoinsFromModuleToAccount k addr amount = .ok paid) :
    received k s paid addr = amount := by
  obtain ⟨unblocked, positive, -, rfl⟩ := State.sendCoinsFromModuleToAccount_eq_ok.mp sent
  -- The escrow itself is a blocked account, so the two balances are not one.
  have elsewhere := module_ne_of_unblocked unblocked
  simp only [received, moveCoins_to _ elsewhere, DFinsupp.add_apply, Coins.amountOf_ofCoin_self]
  split_ifs <;> omega

/-- What is booked for the community pool is not received by anyone else. -/
theorem received_of_funded {paid funded : State} (outside : k.moduleAddress ≠ addr)
    (params : paid.params = s.params)
    (funding : paid.fundCommunityPool k amount = .ok funded) :
    received k s funded addr = received k s paid addr := by
  obtain ⟨positive, -, rfl⟩ := State.fundCommunityPool_eq_ok.mp funding
  simp only [received, params, DFinsupp.add_apply, Coins.amountOf_ofCoin_self]
  by_cases pool : addr = k.distributionAddress
  · -- The account that holds the pool gains as much as is booked.
    subst pool
    rw [moveCoins_to _ outside, if_pos rfl, if_pos rfl, DFinsupp.add_apply,
      Coins.amountOf_ofCoin_self]
    omega
  · rw [moveCoins_of_ne _ outside.symm pool, if_neg pool, if_neg pool]

end Payment

section Claim

variable {k : Keeper} {blockTime : Time} {s : State} {addr : Address} {cr : ClaimsRecord}
  {action : Action}

@[simp] theorem received_self : received k s s addr = 0 := by
  simp [received]

/-- A claim pays the claimable amount to an account that is not blocked. -/
theorem received_claimCoinsForAction (specified : action ≠ .unspecified)
    (covered : cr.share ≤ s.escrow k) :
    received k s (claimCoinsForAction k blockTime s addr cr action).2 addr =
      if k.blockedAddr addr = false then
        (getClaimableAmountForAction s.params blockTime cr action).1
      else 0 := by
  unfold claimCoinsForAction
  rw [if_neg specified]
  cases active : s.params.isClaimsActive blockTime with
  | false => simp [getClaimableAmountForAction, active]
  | true =>
    rw [if_neg (by decide)]
    cases open_ : cr.hasClaimedAction action with
    | true => simp [getClaimableAmountForAction, claimableAmountForAction, open_]
    | false =>
      obtain ⟨low, rest, sum⟩ := getClaimableAmountForAction_spec active open_
      generalize getClaimableAmountForAction s.params blockTime cr action = shares at *
      obtain ⟨claimable, remainder⟩ := shares
      dsimp only at low rest sum ⊢
      rw [if_neg (by decide)]
      by_cases zero : claimable = 0
      · simp [zero]
      rw [if_neg zero]
      rcases sent : s.sendCoinsFromModuleToAccount k addr claimable with err | paid
      · -- The escrow covers the payout, so the account must be blocked.
        have blocked := (sendCoinsFromModuleToAccount_error (by omega) sent).resolve_right
          (by omega)
        simp [blocked]
      · obtain ⟨-, unblocked, pays⟩ := sendCoinsFromModuleToAccount_ok sent
        have elsewhere := module_ne_of_unblocked unblocked
        rw [if_pos unblocked, ← received_of_sent sent]
        dsimp only
        by_cases none : remainder = 0
        · rw [if_pos none]
          rfl
        · -- Whether or not the pool is funded, the payout has been made.
          rw [if_neg none]
          rcases funding : paid.fundCommunityPool k remainder with err | funded
          · rfl
          · have booked := received_of_funded (s := s) elsewhere pays.params funding
            exact booked

end Claim

namespace StoredParams

variable {params : StoredParams} {blockTime : Time} {cr : ClaimsRecord} {action : Action}

theorem le_airdropEndTime (active : params.isClaimsActive blockTime = true) :
    blockTime ≤ params.airdropEndTime := by
  have same : params.exact.isClaimsActive blockTime = true := active
  exact (isClaimsActive_iff.mp same).2.2

/-- Up to the end of the airdrop, the time that has elapsed is a duration. -/
theorem claimableAmountForAction_eq (ends : blockTime ≤ params.airdropEndTime) :
    params.claimableAmountForAction blockTime cr action =
      Claims.claimableAmountForAction params.exact blockTime cr action := by
  by_cases late : params.decayStartTime < blockTime
  · -- It is no longer than the decay, so the difference does not saturate.
    have short : params.durationOfDecay.toInt ≤ 2 ^ 63 - 1 := Int.le_sub_one_of_lt (Int64.toInt_lt _)
    have decay : blockTime - params.decayStartTime ≤ params.durationOfDecay.toInt :=
      Int.sub_left_le_of_le_add ends
    have elapsed : (timeSub blockTime params.decayStartTime).toInt =
        blockTime - params.exact.decayStartTime := by
      rw [toInt_timeSub late.le]
      exact min_eq_left (decay.trans short)
    have ratio : params.claimableRatio blockTime = params.exact.claimableRatio blockTime := by
      dsimp only [claimableRatio, Params.claimableRatio]
      rw [elapsed]
      rfl
    unfold StoredParams.claimableAmountForAction
    rw [ratio]
    rfl
  · have early : ¬params.exact.decayStartTime < blockTime := late
    simp only [StoredParams.claimableAmountForAction, Claims.claimableAmountForAction, late, early,
      decide_false, Bool.not_false, if_true]

theorem getClaimableAmountForAction_eq :
    params.getClaimableAmountForAction blockTime cr action =
      Claims.getClaimableAmountForAction params.exact blockTime cr action := by
  have same : params.exact.isClaimsActive blockTime = params.isClaimsActive blockTime := rfl
  unfold StoredParams.getClaimableAmountForAction Claims.getClaimableAmountForAction
  rw [same]
  -- Outside the window nothing is paid, and inside it no duration is out of bounds.
  cases active : params.isClaimsActive blockTime with
  | false => rfl
  | true =>
    rw [claimableAmountForAction_eq (le_airdropEndTime active)]

/-- Nothing is left of a share: it is claimed, empty, or decayed to within half a coin of zero. -/
def NothingLeft (params : StoredParams) (blockTime : Time) (cr : ClaimsRecord) (action : Action) :
    Prop :=
  cr.hasClaimedAction action = true ∨ cr.initialClaimableAmount < 4 ∨
    params.decayStartTime < blockTime ∧
      2 * |(cr.initialClaimableAmount / 4 : ℕ) * (params.claimableRatio blockTime).atomics| ≤
        Dec.precision

/-- The query reports zero exactly when nothing is left. -/
theorem claimableAmountForAction_eq_zero_iff :
    (params.claimableAmountForAction blockTime cr action).1 = 0 ↔
      params.NothingLeft blockTime cr action := by
  unfold StoredParams.claimableAmountForAction NothingLeft
  cases claimed : cr.hasClaimedAction action with
  | true => simp
  | false =>
    by_cases empty : cr.initialClaimableAmount = 0
    · simp [empty]
    rw [if_neg empty, if_neg (by decide)]
    by_cases late : params.decayStartTime < blockTime
    · -- During the decay, and after it, the rounded part of the share is reported.
      have share : ((cr.initialClaimableAmount : ℤ) / 4) = (cr.initialClaimableAmount / 4 : ℕ) := by
        omega
      simp only [late, decide_true, Bool.not_true, Bool.false_eq_true, if_false, false_or, true_and,
        Dec.roundInt_eq_zero_iff, Dec.ofInt_mul, share]
      constructor
      · exact .inr
      · rintro (small | within)
        · have none : cr.initialClaimableAmount / 4 = 0 := by omega
          rw [none]
          simp [Dec.precision_pos.le]
        · exact within
    · -- Before it, the whole share is.
      simp only [late, decide_false, Bool.not_false, if_true, Bool.false_eq_true, false_or,
        false_and, or_false]
      omega

end StoredParams

/--
The query reports what a claim would pay exactly in the claim window, or if nothing is left.

It answers for every stored record and lists the four actions. A reported amount is what the claim
transfers at the same time if claims are active and the account is not blocked, and otherwise only
if the reported amount is zero.
-/
theorem query_reports_payout_iff (k : Keeper) (blockTime : Time) (params : StoredParams) (s : State)
    (address : String) (addr : Address) (cr : ClaimsRecord) (current : s.params = params.exact)
    (decoded : k.bech32.decode address = some addr) (stored : s.records.get? addr = some cr)
    (covered : cr.initialClaimableAmount / 4 ≤ s.escrow k) :
    ∃ response, claimsRecord k blockTime params s.records (some address) = .ok response ∧
      response.claims.map Claim.action = [.vote, .delegate, .evm, .ibcTransfer] ∧
      ∀ claim ∈ response.claims,
        (claim.claimableAmount =
            received k s (claimCoinsForAction k blockTime s addr cr claim.action).2 addr ↔
          (params.isClaimsActive blockTime = true ∧ k.blockedAddr addr = false) ∨
            params.NothingLeft blockTime cr claim.action) := by
  refine ⟨_, by simp only [claimsRecord, decoded, stored]; rfl, rfl, ?_⟩
  intro claim listed
  obtain ⟨action, member, rfl⟩ := List.mem_map.mp listed
  -- The query asks for the four actions that can be claimed.
  have specified : action ≠ .unspecified := by
    rintro rfl
    exact absurd member (by decide)
  dsimp only
  rw [received_claimCoinsForAction specified covered, current,
    ← StoredParams.getClaimableAmountForAction_eq, StoredParams.getClaimableAmountForAction,
    ← StoredParams.claimableAmountForAction_eq_zero_iff]
  -- When nothing is paid, the report is right exactly if it is zero.
  cases params.isClaimsActive blockTime with
  | false => simp
  | true =>
    cases k.blockedAddr addr with
    | false => simp
    | true => simp

/-- Parameters that start at ten, with ten time units before and ten during the decay. -/
def fromTen (enableClaims : Bool) : StoredParams where
  enableClaims := enableClaims
  airdropStartTime := 10
  durationUntilDecay := 10
  durationOfDecay := 10
  claimsDenom := "aevmos"
  authorizedChannels := []
  evmChannels := []

/-- A record of forty, in escrow. -/
def fortyFromTen (enableClaims : Bool) : State where
  params := (fromTen enableClaims).exact
  records := Store.empty.set 4 (newClaimsRecord 40)
  balances addr := if addr = 1 then Coins.ofCoin "aevmos" 40 else 0
  communityPool := 0

/-- Half into the decay the query reports five for a vote, and five are paid. -/
theorem five_reported_and_paid :
    ∃ response claim, claimsRecord unaryKeeper 25 (fromTen true) (fortyFromTen true).records
        (some "1111") = .ok response ∧
      claim ∈ response.claims ∧ claim.action = .vote ∧ claim.claimableAmount = 5 ∧
      received unaryKeeper (fortyFromTen true)
        (claimCoinsForAction unaryKeeper 25 (fortyFromTen true) 4 (newClaimsRecord 40) .vote).2 4 =
          5 := by
  obtain ⟨response, answered, listed, paid⟩ := query_reports_payout_iff unaryKeeper 25
    (fromTen true) (fortyFromTen true) "1111" 4 (newClaimsRecord 40) rfl (by decide) (by decide)
    (by decide)
  -- The response is computed, and the theorem gives the payment.
  have reported : claimsRecord unaryKeeper 25 (fromTen true) (fortyFromTen true).records
      (some "1111") = .ok ⟨40,
      [⟨.vote, false, 5⟩, ⟨.delegate, false, 5⟩, ⟨.evm, false, 5⟩, ⟨.ibcTransfer, false, 5⟩]⟩ := by
    decide +kernel
  obtain rfl := Except.ok.inj (reported.symm.trans answered)
  have same := (paid ⟨.vote, false, 5⟩ (by decide)).mpr (.inl (by decide))
  exact ⟨_, ⟨.vote, false, 5⟩, reported, by decide, rfl, rfl, same.symm⟩

/-- Disabled, too early, and too late, when it is negative, the query reports what is not paid. -/
theorem query_reports_outside_window :
    (fromTen false).validate (fun _ => true) (fun _ => true) = .ok () ∧
    (fromTen true).validate (fun _ => true) (fun _ => true) = .ok () ∧
    (fromTen true).airdropEndTime = 30 ∧
    (∀ enableClaims blockTime reported,
      (enableClaims, blockTime, reported) ∈ [(false, 15, 10), (true, 5, 10), (true, 40, -10)] →
      (claimsRecord unaryKeeper blockTime (fromTen enableClaims) (fortyFromTen enableClaims).records
          (some "1111")).map (fun response => response.claims.map Claim.claimableAmount) =
        .ok [reported, reported, reported, reported] ∧
      received unaryKeeper (fortyFromTen enableClaims) (claimCoinsForAction unaryKeeper blockTime
        (fortyFromTen enableClaims) 4 (newClaimsRecord 40) .vote).2 4 = 0) := by
  refine ⟨by decide, by decide, by decide, ?_⟩
  intro enableClaims blockTime reported listed
  simp only [List.mem_cons, Prod.mk.injEq, List.not_mem_nil, or_false] at listed
  -- The three cases are disabled, too early and too late.
  rcases listed with ⟨rfl, rfl, rfl⟩ | ⟨rfl, rfl, rfl⟩ | ⟨rfl, rfl, rfl⟩
  all_goals exact ⟨by decide +kernel, by decide +kernel⟩

end Evmos.Claims
