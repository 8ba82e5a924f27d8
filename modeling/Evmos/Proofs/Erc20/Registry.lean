import Evmos.Erc20.Chain
import Evmos.Proofs.Evm.Contracts

/-! The registry of token pairs: what its three stores know of each other. -/

namespace Evmos.Erc20

open Library

/-- The contract of a pair is as its owner has it. -/
def OwnedAs (k : Keeper) (s : State) (pair : TokenPair) : Prop :=
  match pair.contractOwner with
  | .unspecified => False
  | .module => ∃ supply, Owns supply (s.evm.contracts pair.getERC20Contract)
  | .external =>
    s.evm.contracts pair.getERC20Contract ≠ none ∧
      pair.denom = createDenom (k.format.spell pair.getERC20Contract) ∧
      ∃ metadata, s.denomMetadata.get? pair.denom = some metadata ∧ metadata.name = pair.denom

/-- A stored pair, under its identifier and in both indices. -/
structure Registered (k : Keeper) (s : State) (id : ℕ) (pair : TokenPair) : Prop where
  keyed : id = pair.getID k.sum
  spelled : pair.erc20Address = k.format.spell pair.getERC20Contract
  indexed : s.erc20Map.get? pair.getERC20Contract = some id
  -- Another pair with the denomination may have taken its place in the index.
  listed : s.denomMap.get? pair.denom ≠ none
  owned : OwnedAs k s pair

/-- The registry as the module keeps it. -/
structure Registry (k : Keeper) (s : State) : Prop where
  registered : ∀ id pair, s.tokenPairs.get? id = some pair → Registered k s id pair
  located : ∀ contract id, s.erc20Map.get? contract = some id →
    ∃ pair, s.tokenPairs.get? id = some pair ∧ pair.getERC20Contract = contract
  named : ∀ denom id, s.denomMap.get? denom = some id →
    ∃ pair, s.tokenPairs.get? id = some pair ∧ pair.denom = denom
  -- A coin that the module has created belongs to one pair.
  separate : ∀ id pair other otherPair, s.tokenPairs.get? id = some pair →
    s.tokenPairs.get? other = some otherPair → pair.denom = otherPair.denom →
    pair.contractOwner = .external → other = id

section Identifiers

variable {k : Keeper}

@[simp] theorem getERC20Contract_newTokenPair (format : AddressString) (contract : EthAddress)
    (denom : Denom) (enabled : Bool) (owner : Owner) :
    (newTokenPair format contract denom enabled owner).getERC20Contract = contract :=
  format.hexToAddress_spell contract

/-- Pairs with the same identifier have the same contract and denomination. -/
theorem getID_inj {pair other : TokenPair}
    (spelled : pair.erc20Address = k.format.spell pair.getERC20Contract)
    (otherSpelled : other.erc20Address = k.format.spell other.getERC20Contract)
    (same : pair.getID k.sum = other.getID k.sum) :
    pair.getERC20Contract = other.getERC20Contract ∧ pair.denom = other.denom := by
  have texts : pair.erc20Address ++ "|" ++ pair.denom = other.erc20Address ++ "|" ++ other.denom :=
    k.sum_injective same
  -- Addresses are spelled with equally many characters, so the texts split at the same place.
  have lengths : pair.erc20Address.toList.length = other.erc20Address.toList.length := by
    rw [spelled, otherSpelled, String.length_toList, String.length_toList, k.format.length_spell,
      k.format.length_spell]
  have lists := congrArg String.toList texts
  simp only [String.toList_append, List.append_assoc] at lists
  obtain ⟨addresses, rest⟩ := List.append_inj lists lengths
  have denoms := List.append_cancel_left rest
  constructor
  · exact congrArg hexToAddress (String.toList_injective addresses)
  · exact String.toList_injective denoms

theorem createDenom_spell_injective (format : AddressString) :
    Function.Injective fun contract => createDenom (format.spell contract) := by
  intro contract other same
  -- The module name and the slash cancel.
  have lists := congrArg String.toList same
  simp only [createDenom, String.toList_append] at lists
  exact format.spell_injective (String.toList_injective (List.append_cancel_left lists))

end Identifiers

namespace Registry

variable {k : Keeper} {s : State} {pair : TokenPair}

theorem unique (registry : Registry k s) {id other : ℕ} {otherPair : TokenPair}
    (stored : s.tokenPairs.get? id = some pair)
    (otherStored : s.tokenPairs.get? other = some otherPair)
    (same : pair.getERC20Contract = otherPair.getERC20Contract) : id = other := by
  have first := (registry.registered id pair stored).indexed
  have second := (registry.registered other otherPair otherStored).indexed
  -- Both identifiers are listed for the contract.
  rw [same, second] at first
  exact (Option.some.inj first).symm

/-- The registry depends on the contracts and the metadata only in what they keep. -/
theorem congr (registry : Registry k s) {after : State} (pairs : after.tokenPairs = s.tokenPairs)
    (contracts : after.erc20Map = s.erc20Map) (denoms : after.denomMap = s.denomMap)
    (metadata : ∀ denom found, s.denomMetadata.get? denom = some found →
      after.denomMetadata.get? denom = some found)
    (owns : ∀ address supply, Owns supply (s.evm.contracts address) →
      ∃ supply, Owns supply (after.evm.contracts address))
    (present : ∀ address, s.evm.contracts address ≠ none → after.evm.contracts address ≠ none) :
    Registry k after where
  registered id pair stored := by
    rw [pairs] at stored
    have before := registry.registered id pair stored
    refine ⟨before.keyed, before.spelled, ?_, ?_, ?_⟩
    · rw [contracts]
      exact before.indexed
    · rw [denoms]
      exact before.listed
    · have owned := before.owned
      unfold OwnedAs at owned ⊢
      -- An owned contract may change its supply, and an external one has to stay.
      cases owner : pair.contractOwner with
      | unspecified => simp [owner] at owned
      | module =>
        simp only [owner] at owned ⊢
        obtain ⟨supply, owned⟩ := owned
        exact owns _ supply owned
      | external =>
        simp only [owner] at owned ⊢
        obtain ⟨there, denom, found, stored, name⟩ := owned
        exact ⟨present _ there, denom, found, metadata _ _ stored, name⟩
  located contract id found := by
    rw [contracts] at found
    rw [pairs]
    exact registry.located contract id found
  named denom id found := by
    rw [denoms] at found
    rw [pairs]
    exact registry.named denom id found
  separate id pair other otherPair stored otherStored := by
    rw [pairs] at stored otherStored
    exact registry.separate id pair other otherPair stored otherStored

theorem evolve (registry : Registry k s) {receives : EthAddress → ℕ} {evm : Evm}
    (evolves : Evolves k.moduleAddress receives s.evm evm) : Registry k { s with evm := evm } :=
  registry.congr rfl rfl rfl (fun _ _ found => found)
    (fun address supply owns => ⟨supply, evolves.owns address supply owns⟩) evolves.present

section Register

variable {pair : TokenPair}

theorem fresh (registry : Registry k s)
    (spelled : pair.erc20Address = k.format.spell pair.getERC20Contract)
    (new : s.erc20Map.get? pair.getERC20Contract = none) :
    s.tokenPairs.get? (pair.getID k.sum) = none := by
  rcases stored : s.tokenPairs.get? (pair.getID k.sum) with _ | other
  · rfl
  · have registered := registry.registered _ other stored
    -- A pair under the same identifier has the same contract.
    have same := (getID_inj spelled registered.spelled registered.keyed).1
    have indexed := registered.indexed
    rw [← same, new] at indexed
    cases indexed

/-- Registering the pair of a new contract, whose coin is not shared with an external pair. -/
theorem registerPair (registry : Registry k s)
    (spelled : pair.erc20Address = k.format.spell pair.getERC20Contract)
    (new : s.erc20Map.get? pair.getERC20Contract = none) (owned : OwnedAs k s pair)
    (apart : ∀ id other, s.tokenPairs.get? id = some other → other.denom = pair.denom →
      other.contractOwner ≠ .external ∧ pair.contractOwner ≠ .external) :
    Registry k (s.registerPair k.sum pair) := by
  have unused := registry.fresh spelled new
  -- A pair that was there before has another identifier and another contract.
  have old : ∀ id other, s.tokenPairs.get? id = some other →
      id ≠ pair.getID k.sum ∧ other.getERC20Contract ≠ pair.getERC20Contract := by
    intro id other stored
    constructor
    · intro same
      rw [same, unused] at stored
      cases stored
    · intro same
      have indexed := (registry.registered id other stored).indexed
      rw [same, new] at indexed
      cases indexed
  have stays : ∀ id other, s.tokenPairs.get? id = some other →
      (s.tokenPairs.set (pair.getID k.sum) pair).get? id = some other := fun id other stored =>
    Store.get?_set_eq_some.mpr (.inr ⟨(old id other stored).1, stored⟩)
  refine ⟨?_, ?_, ?_, ?_⟩
  · intro id other stored
    simp only [State.registerPair, State.setTokenPair] at stored ⊢
    rcases Store.get?_set_eq_some.mp stored with ⟨rfl, rfl⟩ | ⟨-, stored⟩
    · exact ⟨rfl, spelled, Store.get?_set_self _ _ _, by simp, owned⟩
    · have before := registry.registered id other stored
      refine ⟨before.keyed, before.spelled, ?_, ?_, before.owned⟩
      · exact Store.get?_set_eq_some.mpr (.inr ⟨(old id other stored).2, before.indexed⟩)
      · dsimp only
        by_cases same : other.denom = pair.denom
        · simp [same]
        · rw [Store.get?_set_of_ne _ same]
          exact before.listed
  · intro contract id found
    simp only [State.registerPair, State.setTokenPair] at found ⊢
    rcases Store.get?_set_eq_some.mp found with ⟨rfl, rfl⟩ | ⟨-, found⟩
    · exact ⟨pair, Store.get?_set_self _ _ _, rfl⟩
    · obtain ⟨other, stored, location⟩ := registry.located contract id found
      exact ⟨other, stays id other stored, location⟩
  · intro denom id found
    simp only [State.registerPair, State.setTokenPair] at found ⊢
    rcases Store.get?_set_eq_some.mp found with ⟨rfl, rfl⟩ | ⟨-, found⟩
    · exact ⟨pair, Store.get?_set_self _ _ _, rfl⟩
    · obtain ⟨other, stored, name⟩ := registry.named denom id found
      exact ⟨other, stays id other stored, name⟩
  · intro id first other second stored otherStored same external
    simp only [State.registerPair, State.setTokenPair] at stored otherStored
    -- A new pair shares its coin with no old one, if one of them is external.
    rcases Store.get?_set_eq_some.mp stored with ⟨rfl, rfl⟩ | ⟨-, before⟩
    · rcases Store.get?_set_eq_some.mp otherStored with ⟨rfl, -⟩ | ⟨-, otherBefore⟩
      · rfl
      · exact absurd external (apart other second otherBefore same.symm).2
    · rcases Store.get?_set_eq_some.mp otherStored with ⟨rfl, rfl⟩ | ⟨-, otherBefore⟩
      · exact absurd external (apart id first before same).1
      · exact registry.separate id first other second before otherBefore same external

end Register

/-- Switching a pair on or off keeps the registry. -/
theorem toggle (registry : Registry k s) {id : ℕ} (stored : s.tokenPairs.get? id = some pair)
    (enabled : Bool) : Registry k (s.setTokenPair k.sum { pair with enabled := enabled }) := by
  have before := registry.registered id pair stored
  have key : ({ pair with enabled := enabled } : TokenPair).getID k.sum = id := before.keyed.symm
  -- Every stored pair is an old one, up to the switch.
  have old : ∀ other found,
      (s.setTokenPair k.sum { pair with enabled := enabled }).tokenPairs.get? other = some found →
      ∃ earlier, s.tokenPairs.get? other = some earlier ∧
        found = { earlier with enabled := found.enabled } := by
    intro other found now
    simp only [State.setTokenPair, key] at now
    rcases Store.get?_set_eq_some.mp now with ⟨rfl, rfl⟩ | ⟨-, was⟩
    · exact ⟨pair, stored, rfl⟩
    · exact ⟨found, was, rfl⟩
  have new : ∀ other earlier, s.tokenPairs.get? other = some earlier →
      ∃ found, (s.setTokenPair k.sum { pair with enabled := enabled }).tokenPairs.get? other =
        some found ∧ found = { earlier with enabled := found.enabled } := by
    intro other earlier was
    simp only [State.setTokenPair, key]
    by_cases here : other = id
    · rw [here] at was ⊢
      rw [stored] at was
      obtain rfl := Option.some.inj was
      exact ⟨_, Store.get?_set_self _ _ _, rfl⟩
    · exact ⟨earlier, by rw [Store.get?_set_of_ne _ here]; exact was, rfl⟩
  refine ⟨?_, ?_, ?_, ?_⟩
  · intro other found now
    obtain ⟨earlier, was, same⟩ := old other found now
    have facts := registry.registered other earlier was
    rw [same]
    exact ⟨facts.keyed, facts.spelled, facts.indexed, facts.listed, facts.owned⟩
  · intro contract other found
    obtain ⟨earlier, was, location⟩ := registry.located contract other found
    obtain ⟨later, now, same⟩ := new other earlier was
    exact ⟨later, now, by rw [same]; exact location⟩
  · intro denom other found
    obtain ⟨earlier, was, name⟩ := registry.named denom other found
    obtain ⟨later, now, same⟩ := new other earlier was
    exact ⟨later, now, by rw [same]; exact name⟩
  · intro first one second two nowOne nowTwo denoms external
    obtain ⟨earlierOne, wasOne, sameOne⟩ := old first one nowOne
    obtain ⟨earlierTwo, wasTwo, sameTwo⟩ := old second two nowTwo
    rw [sameOne, sameTwo] at denoms
    rw [sameOne] at external
    exact registry.separate first earlierOne second earlierTwo wasOne wasTwo denoms external

theorem deleteTokenPair (registry : Registry k s) {id : ℕ}
    (stored : s.tokenPairs.get? id = some pair) (external : pair.contractOwner = .external) :
    Registry k (s.deleteTokenPair k.sum pair) := by
  have key : pair.getID k.sum = id := (registry.registered id pair stored).keyed.symm
  -- Every pair that is left differs in its identifier, contract and denomination.
  have left : ∀ other found, (s.deleteTokenPair k.sum pair).tokenPairs.get? other = some found →
      s.tokenPairs.get? other = some found ∧ found.getERC20Contract ≠ pair.getERC20Contract ∧
        found.denom ≠ pair.denom := by
    intro other found now
    simp only [State.deleteTokenPair, key] at now
    obtain ⟨here, was⟩ := Store.get?_delete_eq_some.mp now
    refine ⟨was, ?_, ?_⟩
    · intro same
      exact here (registry.unique was stored same)
    · intro same
      exact here (registry.separate id pair other found stored was same.symm external)
  -- A pair that differs from the deleted one is still stored.
  have stays : ∀ other found, s.tokenPairs.get? other = some found → found ≠ pair →
      (s.tokenPairs.delete id).get? other = some found := by
    intro other found was apart
    refine Store.get?_delete_eq_some.mpr ⟨?_, was⟩
    rintro rfl
    exact apart (Option.some.inj (was.symm.trans stored))
  refine ⟨?_, ?_, ?_, ?_⟩
  · intro other found now
    obtain ⟨was, contract, denom⟩ := left other found now
    have facts := registry.registered other found was
    refine ⟨facts.keyed, facts.spelled, ?_, ?_, facts.owned⟩
    · simp only [State.deleteTokenPair]
      rw [Store.get?_delete_of_ne _ contract]
      exact facts.indexed
    · simp only [State.deleteTokenPair]
      rw [Store.get?_delete_of_ne _ denom]
      exact facts.listed
  · intro contract other found
    simp only [State.deleteTokenPair, key] at found ⊢
    obtain ⟨here, found⟩ := Store.get?_delete_eq_some.mp found
    obtain ⟨there, was, location⟩ := registry.located contract other found
    refine ⟨there, stays other there was ?_, location⟩
    rintro rfl
    exact here location.symm
  · intro denom other found
    simp only [State.deleteTokenPair, key] at found ⊢
    obtain ⟨here, found⟩ := Store.get?_delete_eq_some.mp found
    obtain ⟨there, was, name⟩ := registry.named denom other found
    refine ⟨there, stays other there was ?_, name⟩
    rintro rfl
    exact here name.symm
  · intro first one second two nowOne nowTwo
    exact registry.separate first one second two (left first one nowOne).1 (left second two nowTwo).1

/-- The pair that a token is looked up to is stored, and a denomination finds its own pair. -/
theorem findTokenPair (registry : Registry k s) {token : String}
    (found : findTokenPair s token = .ok pair) :
    ∃ id, s.tokenPairs.get? id = some pair ∧ (isHexAddress token = false → pair.denom = token) := by
  obtain ⟨id, looked, stored⟩ := bind_eq_ok.mp found
  rw [orError_eq_ok] at looked stored
  refine ⟨id, stored, ?_⟩
  intro plain
  -- A token that is no address is looked up among the denominations.
  rw [State.getTokenPairID, plain] at looked
  obtain ⟨other, otherStored, name⟩ := registry.named token id looked
  rw [stored] at otherStored
  obtain rfl := Option.some.inj otherStored
  exact name

end Registry

end Evmos.Erc20
