import Evmos.Proofs.Vesting.MsgServer
import Evmos.Proofs.Vesting.Pointwise

/-! The order in which grants are merged into one account does not matter. -/

namespace Evmos.Vesting

open Library

/-- A schedule as a grant builds it: every period takes time, or everything falls due at once. -/
def Built (periods : Periods) : Prop :=
  (∀ period ∈ periods, 1 ≤ period.length) ∨ ∃ coins, periods = [⟨0, coins⟩]

theorem Built.forward {periods : Periods} (built : Built periods) : Forward periods := by
  rcases built with positive | ⟨coins, rfl⟩
  · exact fun period member => (positive period member).trans' (by decide)
  · simp

theorem Built.sorted {periods : Periods} (built : Built periods) (start : ℤ) :
    Sorted (eventsFrom start periods) := by
  rcases built with positive | ⟨coins, rfl⟩
  · exact sorted_eventsFrom start positive
  · exact List.pairwise_singleton _ _

theorem Built.orInstant {periods : Periods} (built : Built periods) (absent : Bool)
    (coins : Coins) : Built (if absent then [⟨0, coins⟩] else periods) := by
  cases absent with
  | false => exact built
  | true => exact .inr ⟨coins, rfl⟩

theorem MsgCreateClawbackVestingAccount.withDefaults_built {bech32 : Bech32}
    {msg : MsgCreateClawbackVestingAccount} (accepted : msg.validateBasic bech32 = .ok ()) :
    Built msg.withDefaults.lockupPeriods ∧ Built msg.withDefaults.vestingPeriods := by
  obtain ⟨lockup, vesting⟩ := validateBasic_positive accepted
  exact ⟨Built.orInstant (.inl lockup) _ _, Built.orInstant (.inl vesting) _ _⟩

/-- A grant to one address, with schedules that describe the same total. -/
structure Grant where
  startTime : Time
  lockupPeriods : Periods
  vestingPeriods : Periods
  lockupBuilt : Built lockupPeriods
  vestingBuilt : Built vestingPeriods
  sameTotal : totalAmount lockupPeriods = totalAmount vestingPeriods

/-- The grant of an accepted message, whose totals `CreateClawbackVestingAccount` compares. -/
def MsgCreateClawbackVestingAccount.grant {bech32 : Bech32} (msg : MsgCreateClawbackVestingAccount)
    (accepted : msg.validateBasic bech32 = .ok ())
    (sameTotal : totalAmount msg.withDefaults.lockupPeriods =
      totalAmount msg.withDefaults.vestingPeriods) : Grant where
  startTime := msg.startTime
  lockupPeriods := msg.withDefaults.lockupPeriods
  vestingPeriods := msg.withDefaults.vestingPeriods
  lockupBuilt := (MsgCreateClawbackVestingAccount.withDefaults_built accepted).1
  vestingBuilt := (MsgCreateClawbackVestingAccount.withDefaults_built accepted).2
  sameTotal := sameTotal

namespace Grant

/-- The start of a grant in Unix seconds. -/
def start (grant : Grant) : ℤ := unix grant.startTime

/-- The coins of a grant. -/
def coins (grant : Grant) : Coins := totalAmount grant.vestingPeriods

/-- The instants at which coins of a grant unlock. -/
def lockupEvents (grant : Grant) : List (ℤ × Coins) := eventsFrom grant.start grant.lockupPeriods

/-- The instants at which coins of a grant vest. -/
def vestingEvents (grant : Grant) : List (ℤ × Coins) := eventsFrom grant.start grant.vestingPeriods

/-- The account that a grant creates. -/
def create (grant : Grant) (address : Address) (funder : String) : ClawbackVestingAccount :=
  newClawbackVestingAccount address funder grant.coins grant.startTime grant.lockupPeriods
    grant.vestingPeriods

end Grant

/-- The other grants, merged one after the other, each in a block of its own. -/
def addGrants (va : ClawbackVestingAccount) : List (Context × Grant) →
    Result ClawbackVestingAccount
  | [] => .ok va
  | (ctx, grant) :: rest => do
    let merged ← addGrant ctx va grant.start grant.lockupPeriods grant.vestingPeriods grant.coins
    addGrants merged rest

/-- The account of a list of grants: created with the first, and the others merged into it. -/
def accountOf (address : Address) (funder : String) (first : Grant) (others : List (Context × Grant)) :
    Result ClawbackVestingAccount :=
  addGrants (first.create address funder) others

/-- What an account holds once it has been given certain grants. -/
structure Collects (va : ClawbackVestingAccount) (grants : List Grant) : Prop where
  wellFormed : va.WellFormed
  -- The account starts with the earliest grant.
  starts : ∃ grant ∈ grants, grant.start = va.getStartTime
  first : ∀ grant ∈ grants, va.getStartTime ≤ grant.start
  lockup : IsUnion (eventsFrom va.getStartTime va.lockupPeriods) (grants.map Grant.lockupEvents)
  vesting : IsUnion (eventsFrom va.getStartTime va.vestingPeriods) (grants.map Grant.vestingEvents)
  original : va.originalVesting = (grants.map Grant.coins).sum

theorem Collects.create (grant : Grant) (address : Address) (funder : String) :
    Collects (grant.create address funder) [grant] := by
  have wellFormed : (grant.create address funder).WellFormed :=
    ClawbackVestingAccount.wellFormed_new grant.lockupBuilt.forward grant.vestingBuilt.forward
      grant.sameTotal rfl
  -- The only grant is the earliest one.
  refine ⟨wellFormed, ⟨grant, List.mem_singleton_self _, rfl⟩, ?_, ?_, ?_, ?_⟩
  · intro other member
    obtain rfl := List.mem_singleton.mp member
    exact le_rfl
  all_goals
    rw [Grant.create, ClawbackVestingAccount.newClawbackVestingAccount_eq]
  · exact .single (grant.lockupBuilt.sorted _)
  · exact .single (grant.vestingBuilt.sorted _)
  · simp

/-- Merging one more grant succeeds, and the account then holds it as well. -/
theorem Collects.add {va : ClawbackVestingAccount} {grants : List Grant}
    (collects : Collects va grants) (ctx : Context) (grant : Grant) :
    ∃ merged, addGrant ctx va grant.start grant.lockupPeriods grant.vestingPeriods grant.coins =
        .ok merged ∧ Collects merged (grant :: grants) := by
  obtain ⟨vesting, -, -, granted⟩ := collects.wellFormed.addGrant_eq ctx grant.start
    grant.lockupBuilt.forward grant.vestingBuilt.forward grant.sameTotal rfl
  obtain ⟨wellFormed, -⟩ := collects.wellFormed.addGrant grant.lockupBuilt.forward
    grant.vestingBuilt.forward grant.sameTotal rfl granted
  refine ⟨_, granted, wellFormed, ?_, ?_, ?_, ?_, ?_⟩
  all_goals
    simp only [ClawbackVestingAccount.withGrant, ClawbackVestingAccount.getStartTime, unix_ofUnix]
  · -- The earlier of two starts is one of them.
    obtain ⟨earliest, member, start⟩ := collects.starts
    rcases le_total (unix va.startTime) grant.start with before | after
    · exact ⟨earliest, List.mem_cons_of_mem _ member, start.trans (min_eq_left before).symm⟩
    · exact ⟨grant, List.mem_cons_self, (min_eq_right after).symm⟩
  · intro other member
    rcases List.mem_cons.mp member with rfl | member
    · exact min_le_right _ _
    · exact (min_le_left _ _).trans (collects.first other member)
  · -- Merging two schedules joins their events, for either of the two kinds.
    rw [eventsFrom_disjunctPeriods]
    exact collects.lockup.join (grant.lockupBuilt.sorted _)
  · rw [eventsFrom_disjunctPeriods]
    exact collects.vesting.join (grant.vestingBuilt.sorted _)
  · rw [collects.original, List.map_cons, List.sum_cons, add_comm]
    rfl

theorem Collects.addAll (others : List (Context × Grant)) {va : ClawbackVestingAccount}
    {grants : List Grant} (collects : Collects va grants) :
    ∃ merged, addGrants va others = .ok merged ∧
      Collects merged ((others.map Prod.snd).reverse ++ grants) := by
  induction others generalizing va grants with
  | nil => exact ⟨va, rfl, collects⟩
  | cons other others ih =>
    obtain ⟨ctx, grant⟩ := other
    -- One grant after the other, each of which can be merged.
    obtain ⟨merged, granted, collected⟩ := collects.add ctx grant
    obtain ⟨last, rest, all⟩ := ih collected
    refine ⟨last, bind_eq_ok.mpr ⟨merged, granted, rest⟩, ?_⟩
    simpa [List.append_assoc] using all

theorem accountOf_collects (address : Address) (funder : String) (first : Grant)
    (others : List (Context × Grant)) :
    ∃ va, accountOf address funder first others = .ok va ∧
      ∃ grants, grants.Perm (first :: others.map Prod.snd) ∧ Collects va grants := by
  obtain ⟨va, built, collects⟩ := (Collects.create first address funder).addAll others
  refine ⟨va, built, _, ?_, collects⟩
  exact (List.perm_append_singleton _ _).trans ((List.reverse_perm _).cons first)

/-- Accounts that hold the same grants agree in all but their delegations. -/
theorem Collects.unique {va other : ClawbackVestingAccount} {grants reordered : List Grant}
    (collects : Collects va grants) (collectsToo : Collects other reordered)
    (permuted : grants.Perm reordered) :
    va.getStartTime = other.getStartTime ∧ va.endTime = other.endTime ∧
      va.lockupPeriods = other.lockupPeriods ∧ va.vestingPeriods = other.vestingPeriods ∧
      va.originalVesting = other.originalVesting := by
  -- Both accounts start with the earliest of the same grants.
  have start : va.getStartTime = other.getStartTime := by
    obtain ⟨grant, member, starts⟩ := collects.starts
    obtain ⟨grantToo, memberToo, startsToo⟩ := collectsToo.starts
    have low := collects.first grantToo (permuted.mem_iff.mpr memberToo)
    have high := collectsToo.first grant (permuted.mem_iff.mp member)
    omega
  -- A union is determined by its sources, and the periods by their events.
  have lockup : va.lockupPeriods = other.lockupPeriods := by
    have events := collects.lockup.unique collectsToo.lockup (permuted.map _)
    rw [start] at events
    exact eventsFrom_injective events
  have vesting : va.vestingPeriods = other.vestingPeriods := by
    have events := collects.vesting.unique collectsToo.vesting (permuted.map _)
    rw [start] at events
    exact eventsFrom_injective events
  refine ⟨start, ?_, lockup, vesting, ?_⟩
  · rw [collects.wellFormed.ends, collectsToo.wellFormed.ends, start, lockup, vesting]
  · -- The coins of the grants add up in any order.
    rw [collects.original, collectsToo.original]
    exact (permuted.map Grant.coins).sum_eq

/--
Grants may be merged in any order, in whatever blocks.

Both orders succeed, and the accounts agree in their start second, end, schedules, and coins.
-/
theorem grants_merge_in_any_order (address : Address) (funder : String) (first firstToo : Grant)
    (others othersToo : List (Context × Grant))
    (reordered : (first :: others.map Prod.snd).Perm (firstToo :: othersToo.map Prod.snd)) :
    ∃ va other, accountOf address funder first others = .ok va ∧
      accountOf address funder firstToo othersToo = .ok other ∧
      va.getStartTime = other.getStartTime ∧ va.endTime = other.endTime ∧
      va.lockupPeriods = other.lockupPeriods ∧ va.vestingPeriods = other.vestingPeriods ∧
      va.originalVesting = other.originalVesting := by
  obtain ⟨va, built, grants, permuted, collects⟩ := accountOf_collects address funder first others
  obtain ⟨other, builtToo, grantsToo, permutedToo, collectsToo⟩ :=
    accountOf_collects address funder firstToo othersToo
  -- An account is determined by the collection of its grants.
  exact ⟨va, other, built, builtToo,
    collects.unique collectsToo (permuted.trans (reordered.trans permutedToo.symm))⟩

/-- A later grant of thirty coins, unlocked after a while and vested at once. -/
def lockedGrant : MsgCreateClawbackVestingAccount where
  fromAddress := "1"
  toAddress := "11"
  startTime := 5 * second
  lockupPeriods := [⟨5, Coins.ofCoin "aevmos" 30⟩]
  vestingPeriods := []
  merge := true

/-- Whichever of the two grants creates the account, it ends up the same. -/
theorem two_grants_merge_either_way :
    ∃ early late va other,
      early = halvesGrant.grant (show halvesGrant.validateBasic .unary = .ok () by decide)
        (by decide) ∧
      late = lockedGrant.grant (show lockedGrant.validateBasic .unary = .ok () by decide)
        (by decide) ∧
      accountOf 2 "1" early [(quietContext (6 * second), late)] = .ok va ∧
      accountOf 2 "1" late [(quietContext (9 * second), early)] = .ok other ∧
      va.getStartTime = other.getStartTime ∧ va.endTime = other.endTime ∧
      va.lockupPeriods = other.lockupPeriods ∧ va.vestingPeriods = other.vestingPeriods ∧
      va.originalVesting = other.originalVesting := by
  -- The grants are accepted, and the two lists are a swap of each other.
  obtain ⟨va, other, merged⟩ := grants_merge_in_any_order 2 "1"
    (halvesGrant.grant (show halvesGrant.validateBasic .unary = .ok () by decide) (by decide))
    (lockedGrant.grant (show lockedGrant.validateBasic .unary = .ok () by decide) (by decide))
    [(quietContext (6 * second), _)] [(quietContext (9 * second), _)] (.swap _ _ [])
  exact ⟨_, _, va, other, rfl, rfl, merged⟩

end Evmos.Vesting
