import Evmos.Proofs.Feesplit.Payment

/-! When a valid genesis gives exact deployer and withdrawer maps. -/

namespace Evmos.Feesplit

open Library

variable {k : Keeper} {feeSplits : List FeeSplit}

/-- A fee split that passes its check is stored without a panic. -/
theorem addFeeSplit_of_validate {feeSplit : FeeSplit} (valid : feeSplit.validate k.bech32 = .ok ())
    (s : State) : s.addFeeSplit k feeSplit = .ok (s.withFeeSplit k feeSplit) := by
  unfold FeeSplit.validate at valid
  obtain ⟨⟨⟩, -, valid⟩ := bind_eq_ok.mp valid
  obtain ⟨⟨⟩, deployerValid, valid⟩ := bind_eq_ok.mp valid
  obtain ⟨deployer, decoded⟩ := validateAccAddress_ok deployerValid
  -- The withdrawer is absent, or decodes as well.
  have named : feeSplit.getWithdrawerAddr k.bech32 =
      .ok (k.bech32.decode feeSplit.withdrawerAddress) := by
    unfold FeeSplit.getWithdrawerAddr namedWithdrawer
    split
    · next blank => rw [blank, k.decode_empty]
    · next filled =>
      rw [if_pos filled] at valid
      obtain ⟨withdrawer, decoded⟩ := validateAccAddress_ok valid
      rw [mustAccAddress, decoded]
      rfl
  have signed : feeSplit.getDeployerAddr k.bech32 = .ok deployer :=
    mustAccAddress_eq_ok.mpr decoded
  unfold State.addFeeSplit
  rw [signed, named]
  show Except.ok (State.addWithdrawer k _ _ _) = _
  rw [addWithdrawer_eq, State.withFeeSplit, deployerKey, decoded]
  rfl

theorem valid_of_validateFeeSplits {bech32 : Bech32} :
    ∀ {seenContract : List String}, validateFeeSplits bech32 seenContract feeSplits = .ok () →
      ∀ feeSplit ∈ feeSplits, feeSplit.validate bech32 = .ok () := by
  -- The list of contracts seen so far grows along the loop.
  induction feeSplits with
  | nil =>
    intro _ _
    nofun
  | cons feeSplit feeSplits ih =>
    intro seenContract valid
    rw [validateFeeSplits] at valid
    split at valid
    · cases valid
    obtain ⟨⟨⟩, checked, rest⟩ := bind_eq_ok.mp valid
    exact List.forall_mem_cons.mpr ⟨checked, ih rest⟩

theorem foldlM_addFeeSplit (valid : ∀ feeSplit ∈ feeSplits, feeSplit.validate k.bech32 = .ok ())
    (s : State) :
    feeSplits.foldlM (State.addFeeSplit k) s = .ok (feeSplits.foldl (State.withFeeSplit k) s) := by
  induction feeSplits generalizing s with
  | nil => rfl
  | cons feeSplit feeSplits ih =>
    obtain ⟨head, tail⟩ := List.forall_mem_cons.mp valid
    -- A fee split that passes its check is stored without an error.
    rw [List.foldlM_cons, addFeeSplit_of_validate head, List.foldl_cons]
    exact ih tail _

/-- Different contracts that are not registered yet are all entered. -/
theorem Indexed.foldl_withFeeSplit :
    ∀ {s : State}, Indexed k s → (feeSplits.map FeeSplit.getContractAddr).Nodup →
      (∀ feeSplit ∈ feeSplits, s.getFeeSplit feeSplit.getContractAddr = none) →
      Indexed k (feeSplits.foldl (State.withFeeSplit k) s) := by
  induction feeSplits with
  | nil =>
    intro s indexed _ _
    exact indexed
  | cons feeSplit feeSplits ih =>
    intro s indexed distinct absent
    rw [List.map_cons, List.nodup_cons] at distinct
    obtain ⟨head, tail⟩ := List.forall_mem_cons.mp absent
    refine ih (indexed.withFeeSplit head) distinct.2 ?_
    -- What is still to come is stored elsewhere.
    intro other member
    have elsewhere : other.getContractAddr ≠ feeSplit.getContractAddr := fun same =>
      distinct.1 (List.mem_map.mpr ⟨other, member, same⟩)
    rw [getFeeSplit_withFeeSplit_of_ne s elsewhere]
    exact tail other member

theorem feeSplits_foldl (feeSplits : List FeeSplit) (s : State) :
    (feeSplits.foldl (State.withFeeSplit k) s).feeSplits =
      s.feeSplits.setAll (feeSplits.map fun feeSplit => (feeSplit.getContractAddr, feeSplit)) := by
  -- Only the store of fee splits is looked at, not the two maps.
  induction feeSplits generalizing s with
  | nil => rfl
  | cons feeSplit feeSplits ih => exact ih (s.withFeeSplit k feeSplit)

/-- A valid genesis has exact maps and keeps all of its fee splits if its contracts are different. -/
theorem initGenesis_exact_iff {params : Params} {bank : Bank} {data : GenesisState}
    (valid : data.validate k.bech32 = .ok ()) :
    ∃ after, initGenesis k (State.empty params bank) data = .ok after ∧
      (ExactMaps k after ∧ (exportGenesis after).feeSplits.length = data.feeSplits.length ↔
        (data.feeSplits.map FeeSplit.getContractAddr).Nodup) := by
  obtain ⟨⟨⟩, splitsValid, -⟩ := bind_eq_ok.mp valid
  refine ⟨_, foldlM_addFeeSplit (valid_of_validateFeeSplits splitsValid) _, ?_⟩
  -- The number of fee splits that are kept alone tells whether the contracts are different.
  have kept : (exportGenesis (data.feeSplits.foldl (State.withFeeSplit k)
      (State.empty data.params bank))).feeSplits.length = data.feeSplits.length ↔
      (data.feeSplits.map FeeSplit.getContractAddr).Nodup := by
    rw [exportGenesis, List.length_map, feeSplits_foldl]
    exact Store.length_setAll_map_iff _ id data.feeSplits
  constructor
  · rintro ⟨-, same⟩
    exact kept.mp same
  · intro distinct
    refine ⟨?_, kept.mpr distinct⟩
    exact ((Indexed.empty data.params bank).foldl_withFeeSplit distinct fun _ _ => rfl).exactMaps

end Evmos.Feesplit
