import Evmos.Proofs.Feesplit.MsgServer

/-! The deployer and withdrawer maps hold exactly what the stored fee splits say. -/

namespace Evmos.Feesplit

open Library

variable {k : Keeper} {s after : State} {contract : EthAddress}

/-- A key ends in the twenty bytes of its contract, so it tells both of its parts. -/
theorem mapKey_injective {account other : Address} {second : EthAddress}
    (same : mapKey k account contract = mapKey k other second) :
    account = other ∧ contract = second := by
  -- Both keys end in equally many bytes, so they split at the same place.
  have lengths : contract.toBytes.length = second.toBytes.length := by simp
  obtain ⟨accounts, contracts⟩ := List.append_inj' same lengths
  exact ⟨k.addressBytes.injective accounts, EthAddress.toBytes_injective contracts⟩

theorem mapKey?_eq_some {account : Option Address} {key : List Byte} :
    mapKey? k contract account = some key ↔
      ∃ address, account = some address ∧ mapKey k address contract = key :=
  Option.map_eq_some_iff

theorem leadsBack_mapKey (account : FeeSplit → Option Address) :
    LeadsBack fun contract feeSplit => mapKey? k contract (account feeSplit) := by
  -- One key tells one contract.
  intro contract second feeSplit other key first again
  obtain ⟨address, -, rfl⟩ := mapKey?_eq_some.mp first
  obtain ⟨same, -, equal⟩ := mapKey?_eq_some.mp again
  exact (mapKey_injective equal).2.symm

theorem leadsBack_deployerKey : LeadsBack (deployerKey k) :=
  leadsBack_mapKey fun feeSplit => k.bech32.decode feeSplit.deployerAddress

theorem leadsBack_withdrawerKey : LeadsBack (withdrawerKey k) :=
  leadsBack_mapKey fun feeSplit => k.bech32.decode feeSplit.withdrawerAddress

/-- Fee splits stand at the contracts they name, and both maps index them. -/
structure Indexed (k : Keeper) (s : State) : Prop where
  placed : ∀ contract feeSplit, s.getFeeSplit contract = some feeSplit →
    feeSplit.getContractAddr = contract
  deployers : Indexes (deployerKey k) s.deployerMap s.feeSplits
  withdrawers : Indexes (withdrawerKey k) s.withdrawerMap s.feeSplits

theorem Indexed.empty (params : Params) (bank : Bank) : Indexed k (State.empty params bank) where
  placed := forall_empty params bank
  deployers := Indexes.empty
  withdrawers := Indexes.empty

theorem indexKeyAt_of_found {indexKey : EthAddress → FeeSplit → Option (List Byte)}
    {feeSplit : FeeSplit} (found : s.getFeeSplit contract = some feeSplit) :
    indexKeyAt indexKey s.feeSplits contract = indexKey contract feeSplit := by
  rw [State.getFeeSplit] at found
  rw [indexKeyAt, found, Option.bind_some]

theorem indexKeyAt_of_absent {indexKey : EthAddress → FeeSplit → Option (List Byte)}
    (absent : s.getFeeSplit contract = none) : indexKeyAt indexKey s.feeSplits contract = none := by
  rw [State.getFeeSplit] at absent
  rw [indexKeyAt, absent, Option.bind_none]

theorem Indexed.withFeeSplit {feeSplit : FeeSplit} (indexed : Indexed k s)
    (absent : s.getFeeSplit feeSplit.getContractAddr = none) :
    Indexed k (s.withFeeSplit k feeSplit) := by
  -- Nothing was stored there, so there is no old key to give way.
  have entered := indexed.deployers.set leadsBack_deployerKey feeSplit.getContractAddr feeSplit
  have named := indexed.withdrawers.set leadsBack_withdrawerKey feeSplit.getContractAddr feeSplit
  rw [indexKeyAt_of_absent absent, Store.clear_none] at entered named
  exact ⟨(forall_written_iff _ rfl indexed.placed).mpr rfl, entered, named⟩

theorem Indexed.register {account : EthAddress → Option EvmAccount} {msg : MsgRegisterFeeSplit}
    (indexed : Indexed k s) (registered : registerFeeSplit k account s msg = .ok after) :
    Indexed k after := by
  obtain ⟨deployer, withdrawer, step⟩ := registerFeeSplit_ok registered
  rw [step.result]
  -- The contract was not registered, so it has no entries that could be stale.
  apply indexed.withFeeSplit
  rw [getContractAddr_newFeeSplit]
  exact step.absent

/-- An update moves the fee split in the withdrawer map only. -/
theorem Indexed.update {msg : MsgUpdateFeeSplit} (indexed : Indexed k s)
    (updated : updateFeeSplit k s msg = .ok after) : Indexed k after := by
  obtain ⟨feeSplit, withdrawerAddress, step⟩ := updateFeeSplit_ok updated
  have own := indexed.placed _ _ step.found
  -- The old withdrawer gives way to the new one, also if both are the same account.
  have moved := indexed.withdrawers.set leadsBack_withdrawerKey
    (hexToAddress msg.contractAddress) { feeSplit with withdrawerAddress := withdrawerAddress }
  rw [indexKeyAt_of_found step.found] at moved
  rw [step.result, own]
  have placed : { feeSplit with withdrawerAddress := withdrawerAddress }.getContractAddr =
      hexToAddress msg.contractAddress := own
  exact
    { placed := (forall_written_iff _ rfl indexed.placed).mpr placed
      deployers := indexed.deployers.set_same (by rw [indexKeyAt_of_found step.found]; rfl)
      withdrawers := moved }

/-- A cancellation removes the fee split from both maps. -/
theorem Indexed.cancel {msg : MsgCancelFeeSplit} (indexed : Indexed k s)
    (cancelled : cancelFeeSplit k s msg = .ok after) : Indexed k after := by
  obtain ⟨feeSplit, deployer, step⟩ := cancelFeeSplit_ok cancelled
  -- Both maps lose exactly the keys of what is deleted.
  have removed := indexed.deployers.delete leadsBack_deployerKey (hexToAddress msg.contractAddress)
  have unnamed := indexed.withdrawers.delete leadsBack_withdrawerKey
    (hexToAddress msg.contractAddress)
  rw [indexKeyAt_of_found step.found, deployerKey, step.decoded] at removed
  rw [indexKeyAt_of_found step.found] at unnamed
  rw [step.result, indexed.placed _ _ step.found]
  exact ⟨forall_deleted rfl indexed.placed, removed, unnamed⟩

theorem Indexed.of_stores (indexed : Indexed k s)
    (same : after.feeSplits = s.feeSplits ∧ after.deployerMap = s.deployerMap ∧
      after.withdrawerMap = s.withdrawerMap) : Indexed k after := by
  obtain ⟨feeSplits, deployers, withdrawers⟩ := same
  -- The invariant depends on the stores only.
  refine ⟨forall_same feeSplits indexed.placed, ?_, ?_⟩
  · rw [deployers, feeSplits]
    exact indexed.deployers
  · rw [withdrawers, feeSplits]
    exact indexed.withdrawers

theorem Indexed.step {call : Call} (indexed : Indexed k s) (taken : Step k s call after) :
    Indexed k after := by
  -- The messages keep the maps exact, and nothing else writes them.
  cases taken with
  | register _ registered => exact indexed.register registered
  | update _ updated => exact indexed.update updated
  | cancel _ cancelled => exact indexed.cancel cancelled
  | postTx processed => exact indexed.of_stores (postTxProcessing_keeps processed)
  | others => exact indexed.of_stores ⟨rfl, rfl, rfl⟩

theorem Indexed.run {params : Params} {bank : Bank} {calls : List Call} {reached : State}
    (run : Run (Step k) (State.empty params bank) calls reached) : Indexed k reached :=
  Run.invariant (Indexed k) Indexed.step (Indexed.empty params bank) run

/-- The account of an entry is the one that the fee split of its contract decodes to. -/
theorem indexes_pair {index : Store (List Byte) Unit} {account : FeeSplit → Option Address}
    (exact : Indexes (fun contract feeSplit => mapKey? k contract (account feeSplit)) index
      s.feeSplits) (address : Address) (contract : EthAddress) :
    (index.get? (mapKey k address contract)).isSome = true ↔
      ∃ feeSplit, s.getFeeSplit contract = some feeSplit ∧ account feeSplit = some address := by
  have held : (index.get? (mapKey k address contract)).isSome = true ↔
      index.get? (mapKey k address contract) = some () := by
    cases index.get? (mapKey k address contract) <;> simp
  rw [held, exact]
  constructor
  · -- The key that is held is that of a fee split with the same account and contract.
    rintro ⟨other, key⟩
    obtain ⟨feeSplit, found, key⟩ := Option.bind_eq_some_iff.mp key
    obtain ⟨same, decoded, equal⟩ := mapKey?_eq_some.mp key
    obtain ⟨rfl, rfl⟩ := mapKey_injective equal
    exact ⟨feeSplit, found, decoded⟩
  · rintro ⟨feeSplit, found, decoded⟩
    refine ⟨contract, ?_⟩
    rw [indexKeyAt_of_found found, decoded]
    rfl

theorem indexes_only {index : Store (List Byte) Unit} {account : FeeSplit → Option Address}
    (exact : Indexes (fun contract feeSplit => mapKey? k contract (account feeSplit)) index
      s.feeSplits) {key : List Byte} (held : (index.get? key).isSome = true) :
    ∃ address contract, key = mapKey k address contract := by
  obtain ⟨⟨⟩, found⟩ := Option.isSome_iff_exists.mp held
  -- An exact index holds the keys of stored fee splits alone.
  obtain ⟨contract, key⟩ := (exact key).mp found
  obtain ⟨feeSplit, -, key⟩ := Option.bind_eq_some_iff.mp key
  obtain ⟨address, -, equal⟩ := mapKey?_eq_some.mp key
  exact ⟨address, contract, equal.symm⟩

/-- What it means that a state's maps are exact, in terms of accounts and contracts. -/
structure ExactMaps (k : Keeper) (s : State) : Prop where
  -- A deployer entry stands for a fee split with that deployer.
  deployers : ∀ deployer contract, s.isDeployerMapSet k deployer contract = true ↔
    ∃ feeSplit, s.getFeeSplit contract = some feeSplit ∧
      k.bech32.decode feeSplit.deployerAddress = some deployer
  -- A withdrawer entry stands for a fee split that names that withdrawer.
  withdrawers : ∀ withdrawer contract, s.isWithdrawerMapSet k withdrawer contract = true ↔
    ∃ feeSplit, s.getFeeSplit contract = some feeSplit ∧ feeSplit.withdrawerAddress ≠ "" ∧
      k.bech32.decode feeSplit.withdrawerAddress = some withdrawer
  -- Neither map holds anything else.
  only : ∀ key, (s.deployerMap.get? key).isSome = true ∨ (s.withdrawerMap.get? key).isSome = true →
    ∃ account contract, key = mapKey k account contract

theorem Indexed.exactMaps (indexed : Indexed k s) : ExactMaps k s where
  deployers deployer contract := indexes_pair indexed.deployers deployer contract
  withdrawers withdrawer contract := by
    refine (indexes_pair indexed.withdrawers withdrawer contract).trans ?_
    constructor
    · rintro ⟨feeSplit, found, decoded⟩
      -- An empty text names nobody.
      exact ⟨feeSplit, found, ne_empty_of_decode decoded, decoded⟩
    · rintro ⟨feeSplit, found, -, decoded⟩
      exact ⟨feeSplit, found, decoded⟩
  only key held := by
    rcases held with held | held
    · exact indexes_only indexed.deployers held
    · exact indexes_only indexed.withdrawers held

/-- After any messages, the maps hold exactly the deployers and withdrawers of the fee splits. -/
theorem maps_exact_in_every_run {params : Params} {bank : Bank} {calls : List Call}
    {reached : State} (run : Run (Step k) (State.empty params bank) calls reached) :
    ExactMaps k reached :=
  (Indexed.run run).exactMaps

/-- A registration in upper case letters, of a contract that the first account created. -/
def loudRegistration : MsgRegisterFeeSplit where
  contractAddress := "0x0000000000000000000000000000000000000003"
  deployerAddress := "QQ"
  withdrawerAddress := "qqq"
  nonces := [1]

/-- An update that only spells the withdrawer of the registration differently. -/
def respelling : MsgUpdateFeeSplit where
  contractAddress := "0x0000000000000000000000000000000000000003"
  deployerAddress := "qq"
  withdrawerAddress := "QQQ"

/-- Accounts of the EVM of which only the third has code. -/
def thirdDeployed (address : EthAddress) : Option EvmAccount :=
  some (if address = 3 then .contract else .external)

/-- A store without fee splits, with half of the fees for developers. -/
def unregistered : State :=
  State.empty ⟨true, ⟨500000000000000000⟩⟩ ⟨fun _ => Coins.ofCoin "aevmos" 1000, 0⟩

/-- A withdrawer that is spelled differently is entered once. -/
theorem respelled_maps_exact : ∃ reached,
    Run (Step Keeper.plain) unregistered
      [.register thirdDeployed loudRegistration, .update respelling] reached ∧
    reached.isWithdrawerMapSet Keeper.plain 2 3 = true ∧ ExactMaps Keeper.plain reached := by
  -- The update names the stored withdrawer again, which removes and adds one key.
  have ran : (registerFeeSplit Keeper.plain thirdDeployed unregistered loudRegistration >>=
      fun first => updateFeeSplit Keeper.plain first respelling).map
        (fun reached => reached.isWithdrawerMapSet Keeper.plain 2 3) = .ok true := by
    decide +kernel
  obtain ⟨reached, ran, entered⟩ := map_eq_ok.mp ran
  obtain ⟨first, registered, updated⟩ := bind_eq_ok.mp ran
  have run : Run (Step Keeper.plain) unregistered
      [.register thirdDeployed loudRegistration, .update respelling] reached :=
    (Run.start.extend (.register (by decide +kernel) registered)).extend
      (.update (by decide +kernel) updated)
  exact ⟨reached, run, entered, maps_exact_in_every_run run⟩

end Evmos.Feesplit
