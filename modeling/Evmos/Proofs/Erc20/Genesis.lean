import Evmos.Erc20.Genesis

/-! When a valid genesis gives a consistent registry of token pairs. -/

namespace Evmos.Erc20

open Library

variable {k : Keeper}

/-- The three stores agree about every pair that is stored. -/
def Consistent (k : Keeper) (s : State) : Prop :=
  ∀ id pair, s.tokenPairs.get? id = some pair →
    s.denomMap.get? pair.denom = some (pair.getID k.sum) ∧
      s.erc20Map.get? pair.getERC20Contract = some (pair.getID k.sum)

section Separator

theorem separator_notMem {text : String} (valid : isHexAddress text = true) :
    '|' ∉ text.toList := by
  -- The separator is not a digit, so it could only stand in the two characters before the digits.
  simp only [isHexAddress, Bool.and_eq_true, List.all_eq_true] at valid
  have digits : '|' ∉ strip0x text.toList := fun member => absurd (valid.2 _ member) (by decide)
  intro member
  apply digits
  generalize text.toList = chars at member
  -- What is stripped are digits and letters.
  fun_cases strip0x chars with
  | case1 rest => simpa using member
  | case2 rest => simpa using member
  | case3 => exact member

theorem address_eq {address other : String} {denom second : Denom}
    (valid : '|' ∉ address.toList) (otherValid : '|' ∉ other.toList)
    (same : address ++ "|" ++ denom = other ++ "|" ++ second) : address = other := by
  -- The address is what stands before the first separator.
  have before : ∀ (text : String) (rest : Denom), '|' ∉ text.toList →
      (text ++ "|" ++ rest).toList.takeWhile (· ≠ '|') = text.toList := by
    intro text rest absent
    have all : ∀ c ∈ text.toList, decide (c ≠ '|') = true := by
      intro c member
      exact decide_eq_true fun equal => absent (equal ▸ member)
    rw [String.toList_append, String.toList_append, List.append_assoc,
      List.takeWhile_append_of_pos all]
    simp
  apply String.toList_injective
  rw [← before address denom valid, same, before other second otherValid]

end Separator

/-- What an accepted genesis has checked. -/
structure Accepted (pairs : List TokenPair) : Prop where
  addresses : (pairs.map TokenPair.erc20Address).Nodup
  denoms : (pairs.map TokenPair.denom).Nodup
  hex : ∀ pair ∈ pairs, isHexAddress pair.erc20Address = true

theorem isHexAddress_of_validate {pair : TokenPair} (valid : pair.validate = .ok ()) :
    isHexAddress pair.erc20Address = true := by
  unfold TokenPair.validate at valid
  split at valid
  · cases valid
  split at valid
  · cases valid
  next hex => simpa using hex

/-- The loop refuses what it has seen, so the texts it lets through are all different. -/
theorem accepted_of_validateTokenPairs {pairs : List TokenPair} :
    ∀ {seenErc20 : List String} {seenDenom : List Denom},
      validateTokenPairs seenErc20 seenDenom pairs = .ok () →
      Accepted pairs ∧ (∀ pair ∈ pairs, pair.erc20Address ∉ seenErc20 ∧ pair.denom ∉ seenDenom) := by
  induction pairs with
  | nil =>
    intro _ _ _
    exact ⟨⟨List.nodup_nil, List.nodup_nil, nofun⟩, nofun⟩
  | cons pair pairs ih =>
    intro seenErc20 seenDenom valid
    rw [validateTokenPairs] at valid
    split at valid
    · cases valid
    next newAddress =>
    split at valid
    · cases valid
    next newDenom =>
    obtain ⟨⟨⟩, checked, rest⟩ := bind_eq_ok.mp valid
    obtain ⟨accepted, fresh⟩ := ih rest
    -- Later pairs were compared with this one, and with all that came before it.
    have later : ∀ other ∈ pairs, other.erc20Address ≠ pair.erc20Address ∧
        other.erc20Address ∉ seenErc20 ∧ other.denom ≠ pair.denom ∧ other.denom ∉ seenDenom := by
      intro other member
      obtain ⟨address, denom⟩ := fresh other member
      rw [List.mem_cons, not_or] at address denom
      exact ⟨address.1, address.2, denom.1, denom.2⟩
    refine ⟨⟨?_, ?_, ?_⟩, ?_⟩
    · refine List.nodup_cons.mpr ⟨fun repeated => ?_, accepted.addresses⟩
      obtain ⟨other, member, same⟩ := List.mem_map.mp repeated
      exact (later other member).1 same
    · refine List.nodup_cons.mpr ⟨fun repeated => ?_, accepted.denoms⟩
      obtain ⟨other, member, same⟩ := List.mem_map.mp repeated
      exact (later other member).2.2.1 same
    · exact List.forall_mem_cons.mpr ⟨isHexAddress_of_validate checked, accepted.hex⟩
    · refine List.forall_mem_cons.mpr ⟨⟨newAddress, newDenom⟩, fun other member => ?_⟩
      exact ⟨(later other member).2.1, (later other member).2.2.2⟩

theorem Accepted.getID_injective {pairs : List TokenPair} (accepted : Accepted pairs)
    {pair other : TokenPair} (member : pair ∈ pairs) (second : other ∈ pairs)
    (same : pair.getID k.sum = other.getID k.sum) : pair = other :=
  List.inj_on_of_nodup_map accepted.addresses member second
    (address_eq (separator_notMem (accepted.hex _ member))
      (separator_notMem (accepted.hex _ second)) (k.sum_injective same))

theorem Accepted.nodup_ids {pairs : List TokenPair} (accepted : Accepted pairs) :
    (pairs.map fun pair => pair.getID k.sum).Nodup :=
  (List.nodup_map_iff_inj_on (List.Nodup.of_map _ accepted.addresses)).mpr
    fun _ member _ second same => accepted.getID_injective member second same

theorem registerPairs_stores (pairs : List TokenPair) (s : State) :
    (pairs.foldl (fun s pair => s.registerPair k.sum pair) s).tokenPairs =
        s.tokenPairs.setAll (pairs.map fun pair => (pair.getID k.sum, pair)) ∧
      (pairs.foldl (fun s pair => s.registerPair k.sum pair) s).denomMap =
        s.denomMap.setAll (pairs.map fun pair => (pair.denom, pair.getID k.sum)) ∧
      (pairs.foldl (fun s pair => s.registerPair k.sum pair) s).erc20Map =
        s.erc20Map.setAll (pairs.map fun pair => (pair.getERC20Contract, pair.getID k.sum)) := by
  induction pairs generalizing s with
  | nil => exact ⟨rfl, rfl, rfl⟩
  | cons pair pairs ih => exact ih (s.registerPair k.sum pair)

/-- The stores of a registry that was filled from a list of pairs. -/
structure Filled (k : Keeper) (pairs : List TokenPair) (s : State) : Prop where
  tokenPairs : s.tokenPairs =
    Store.empty.setAll (pairs.map fun pair => (pair.getID k.sum, pair))
  denoms : s.denomMap = Store.empty.setAll (pairs.map fun pair => (pair.denom, pair.getID k.sum))
  contracts : s.erc20Map =
    Store.empty.setAll (pairs.map fun pair => (pair.getERC20Contract, pair.getID k.sum))

theorem initGenesis_filled {s : State} (data : GenesisState) (noPairs : s.tokenPairs = .empty)
    (noDenoms : s.denomMap = .empty) (noContracts : s.erc20Map = .empty) :
    ∃ after, initGenesis k true s data = .ok after ∧ Filled k data.tokenPairs after := by
  -- The parameters are set before the pairs, and keep the registry.
  obtain ⟨pairs, denoms, contracts⟩ :=
    registerPairs_stores (k := k) data.tokenPairs { s with params := data.params }
  refine ⟨_, rfl, ?_, ?_, ?_⟩
  · exact pairs.trans (by rw [noPairs])
  · exact denoms.trans (by rw [noDenoms])
  · exact contracts.trans (by rw [noContracts])

section Filled

variable {pairs : List TokenPair} {s : State}

theorem Filled.stored (filled : Filled k pairs s) (accepted : Accepted pairs) {pair : TokenPair}
    (member : pair ∈ pairs) : s.tokenPairs.get? (pair.getID k.sum) = some pair := by
  rw [filled.tokenPairs]
  exact Store.get?_setAll_map id accepted.nodup_ids member _

theorem Filled.mem (filled : Filled k pairs s) {id : ℕ} {pair : TokenPair}
    (found : s.tokenPairs.get? id = some pair) : pair ∈ pairs := by
  rw [filled.tokenPairs] at found
  -- The store is filled from the list alone.
  have listed := Store.mem_of_get?_setAll found
  rw [Store.get?_empty, or_iff_left (by nofun)] at listed
  obtain ⟨entry, member, same⟩ := List.mem_map.mp listed
  exact (Prod.mk.inj same).2 ▸ member

theorem Filled.exported (filled : Filled k pairs s) (accepted : Accepted pairs) :
    (exportGenesis s).tokenPairs.length = pairs.length := by
  rw [exportGenesis, State.getTokenPairs, List.length_map, filled.tokenPairs]
  exact (Store.length_setAll_map_iff _ id pairs).mpr accepted.nodup_ids

/-- Accepted pairs are consistent exactly when their contracts are different. -/
theorem Filled.consistent_iff (filled : Filled k pairs s) (accepted : Accepted pairs) :
    Consistent k s ↔ (pairs.map TokenPair.getERC20Contract).Nodup := by
  constructor
  · intro consistent
    -- Pairs with one contract would both be found under it.
    refine (List.nodup_map_iff_inj_on (List.Nodup.of_map _ accepted.addresses)).mpr ?_
    intro pair member other second same
    have first := (consistent _ pair (filled.stored accepted member)).2
    have again := (consistent _ other (filled.stored accepted second)).2
    rw [same, again] at first
    exact accepted.getID_injective member second (Option.some.inj first).symm
  · intro distinct id pair found
    have member := filled.mem found
    rw [filled.denoms, filled.contracts]
    exact ⟨Store.get?_setAll_map _ accepted.denoms member _,
      Store.get?_setAll_map _ distinct member _⟩

end Filled

/-- A valid genesis is consistent and keeps all of its pairs if its contracts are different. -/
theorem initGenesis_consistent_iff {s : State} {data : GenesisState}
    (noPairs : s.tokenPairs = .empty) (noDenoms : s.denomMap = .empty)
    (noContracts : s.erc20Map = .empty) (valid : data.validate = .ok ()) :
    ∃ after, initGenesis k true s data = .ok after ∧
      (Consistent k after ∧ (exportGenesis after).tokenPairs.length = data.tokenPairs.length ↔
        (data.tokenPairs.map TokenPair.getERC20Contract).Nodup) := by
  -- The export is always complete, so only the indices decide.
  obtain ⟨accepted, -⟩ := accepted_of_validateTokenPairs valid
  obtain ⟨after, imported, filled⟩ := initGenesis_filled (k := k) data noPairs noDenoms noContracts
  refine ⟨after, imported, ?_⟩
  rw [filled.consistent_iff accepted]
  exact and_iff_left (filled.exported accepted)

end Evmos.Erc20
