import Evmos.Feesplit.Chain

/-! What the messages and the hook of the fee split module do when they succeed. -/

namespace Evmos.Feesplit

open Library

variable {k : Keeper} {s after : State}

theorem mustAccAddress_eq_ok {bech32 : Bech32} {text : String} {address : Address} :
    mustAccAddress bech32 text = .ok address ↔ bech32.decode text = some address :=
  orPanic_eq_ok

theorem namedWithdrawer_ok {text : String} {withdrawer : Option Address}
    (named : namedWithdrawer k.bech32 text = .ok withdrawer) :
    k.bech32.decode text = withdrawer := by
  unfold namedWithdrawer at named
  -- An empty text stands for the default, and does not decode either.
  split at named
  · next blank =>
    rw [blank, k.decode_empty]
    exact Except.ok.inj named
  · obtain ⟨address, decoded, rfl⟩ := map_eq_ok.mp named
    exact mustAccAddress_eq_ok.mp decoded

theorem ne_empty_of_decode {text : String} {address : Address}
    (decoded : k.bech32.decode text = some address) : text ≠ "" := by
  -- The empty text does not decode.
  intro blank
  rw [blank, k.decode_empty] at decoded
  cases decoded

section Stored

variable {contract : EthAddress} {feeSplit : FeeSplit} {property : EthAddress → FeeSplit → Prop}

theorem forall_empty (params : Params) (bank : Bank) :
    ∀ other content, (State.empty params bank).getFeeSplit other = some content →
      property other content := by
  -- The store is empty, so nothing is found.
  intro other content found
  rw [State.getFeeSplit, State.empty, Store.get?_empty] at found
  cases found

/-- Writing one fee split keeps a property of all of them, if the new one has it, and only then. -/
theorem forall_written_iff (property : EthAddress → FeeSplit → Prop)
    (stores : after.feeSplits = s.feeSplits.set contract feeSplit)
    (before : ∀ other content, s.getFeeSplit other = some content → property other content) :
    (∀ other content, after.getFeeSplit other = some content → property other content) ↔
      property contract feeSplit := by
  simp only [State.getFeeSplit, stores] at before ⊢
  constructor
  · intro all
    exact all contract feeSplit (Store.get?_set_self _ _ _)
  · intro new other content found
    -- What is found is the new fee split, or was stored before.
    rcases Store.get?_set_eq_some.mp found with ⟨rfl, rfl⟩ | ⟨-, found⟩
    · exact new
    · exact before other content found

theorem forall_deleted (stores : after.feeSplits = s.feeSplits.delete contract)
    (before : ∀ other content, s.getFeeSplit other = some content → property other content) :
    ∀ other content, after.getFeeSplit other = some content → property other content := by
  intro other content found
  rw [State.getFeeSplit, stores] at found
  -- What is left was stored before.
  exact before other content (Store.get?_delete_eq_some.mp found).2

theorem forall_same (stores : after.feeSplits = s.feeSplits)
    (before : ∀ other content, s.getFeeSplit other = some content → property other content) :
    ∀ other content, after.getFeeSplit other = some content → property other content := by
  intro other content found
  rw [State.getFeeSplit, stores] at found
  -- The same fee splits are found.
  exact before other content found

end Stored

/-- The key of a contract in one of the maps, if there is an account to enter it for. -/
def mapKey? (k : Keeper) (contract : EthAddress) (account : Option Address) : Option (List Byte) :=
  account.map fun address => mapKey k address contract

theorem addWithdrawer_eq (s : State) (contract : EthAddress) (withdrawer : Option Address) :
    s.addWithdrawer k contract withdrawer =
      { s with withdrawerMap := s.withdrawerMap.mark (mapKey? k contract withdrawer) } := by
  cases withdrawer <;> rfl

theorem removeWithdrawer_eq (s : State) (contract : EthAddress) (withdrawer : Option Address) :
    s.removeWithdrawer k contract withdrawer =
      { s with withdrawerMap := s.withdrawerMap.clear (mapKey? k contract withdrawer) } := by
  cases withdrawer <;> rfl

/-- The key under which a fee split stands in the deployer map. -/
def deployerKey (k : Keeper) (contract : EthAddress) (feeSplit : FeeSplit) : Option (List Byte) :=
  mapKey? k contract (k.bech32.decode feeSplit.deployerAddress)

/-- The key under which a fee split stands in the withdrawer map, if it names a withdrawer. -/
def withdrawerKey (k : Keeper) (contract : EthAddress) (feeSplit : FeeSplit) : Option (List Byte) :=
  mapKey? k contract (k.bech32.decode feeSplit.withdrawerAddress)

/-- The state with a new fee split in the store and in both maps. -/
def State.withFeeSplit (k : Keeper) (s : State) (feeSplit : FeeSplit) : State :=
  { s with
    feeSplits := s.feeSplits.set feeSplit.getContractAddr feeSplit
    deployerMap := s.deployerMap.mark (deployerKey k feeSplit.getContractAddr feeSplit)
    withdrawerMap := s.withdrawerMap.mark (withdrawerKey k feeSplit.getContractAddr feeSplit) }

theorem getFeeSplit_withFeeSplit_self (s : State) (feeSplit : FeeSplit) :
    (s.withFeeSplit k feeSplit).getFeeSplit feeSplit.getContractAddr = some feeSplit :=
  Store.get?_set_self _ _ _

theorem getFeeSplit_withFeeSplit_of_ne (s : State) {feeSplit : FeeSplit} {contract : EthAddress}
    (elsewhere : contract ≠ feeSplit.getContractAddr) :
    (s.withFeeSplit k feeSplit).getFeeSplit contract = s.getFeeSplit contract :=
  Store.get?_set_of_ne _ elsewhere _

@[simp] theorem getContractAddr_newFeeSplit (contract : EthAddress) (deployer : Address)
    (withdrawer : Option Address) :
    (newFeeSplit k.bech32 k.format contract deployer withdrawer).getContractAddr = contract :=
  k.format.hexToAddress_spell contract

@[simp] theorem decode_deployer_newFeeSplit (contract : EthAddress) (deployer : Address)
    (withdrawer : Option Address) :
    k.bech32.decode (newFeeSplit k.bech32 k.format contract deployer withdrawer).deployerAddress =
      some deployer :=
  k.bech32.decode_encode deployer

@[simp] theorem decode_withdrawer_newFeeSplit (contract : EthAddress) (deployer : Address)
    (withdrawer : Option Address) :
    k.bech32.decode (newFeeSplit k.bech32 k.format contract deployer withdrawer).withdrawerAddress =
      withdrawer := by
  -- An absent withdrawer is spelled as an empty text, which does not decode.
  cases withdrawer with
  | none => exact k.decode_empty
  | some address => exact k.bech32.decode_encode address

/-- What a successful registration found, and what it leaves. -/
structure Registered (k : Keeper) (account : EthAddress → Option EvmAccount) (s : State)
    (msg : MsgRegisterFeeSplit) (after : State) (deployer : Address)
    (withdrawer : Option Address) : Prop where
  enabled : s.params.enableFeeSplit = true
  -- The contract was not registered.
  absent : s.getFeeSplit (hexToAddress msg.contractAddress) = none
  decoded : k.bech32.decode msg.deployerAddress = some deployer
  -- The deployer is an account without code, and the contract has code.
  external : account (bytesToAddress (k.addressBytes.bytes deployer)) = some .external
  deployed : account (hexToAddress msg.contractAddress) = some .contract
  -- The withdrawer is the one that is named, unless it is spelled as the deployer.
  named : withdrawer = if msg.withdrawerAddress = msg.deployerAddress then none
    else k.bech32.decode msg.withdrawerAddress
  derived : hexToAddress msg.contractAddress =
    deriveContract k (bytesToAddress (k.addressBytes.bytes deployer)) msg.nonces
  result : after = s.withFeeSplit k
    (newFeeSplit k.bech32 k.format (hexToAddress msg.contractAddress) deployer withdrawer)

/-- The withdrawer of a registration is what its text decodes to, unless that is the deployer's. -/
theorem otherWithdrawer_ok {msg : MsgRegisterFeeSplit} {withdrawer : Option Address}
    (found : otherWithdrawer k msg = .ok withdrawer) :
    withdrawer = if msg.withdrawerAddress = msg.deployerAddress then none
      else k.bech32.decode msg.withdrawerAddress := by
  unfold otherWithdrawer at found
  split at found
  · next other =>
    obtain ⟨address, decoded, rfl⟩ := map_eq_ok.mp found
    rw [if_neg other.2, mustAccAddress_eq_ok.mp decoded]
  · next default =>
    obtain rfl := Except.ok.inj found
    split
    · rfl
    · -- A text that is not the deployer's is not decoded because it is empty.
      next other =>
      have blank : msg.withdrawerAddress = "" := by
        by_contra filled
        exact default ⟨filled, other⟩
      rw [blank, k.decode_empty]

theorem registerFeeSplit_ok {account : EthAddress → Option EvmAccount} {msg : MsgRegisterFeeSplit}
    (registered : registerFeeSplit k account s msg = .ok after) :
    ∃ deployer withdrawer, Registered k account s msg after deployer withdrawer := by
  -- Each refusal leaves one fact behind when it is passed.
  unfold registerFeeSplit at registered
  dsimp only at registered
  split at registered
  · cases registered
  next enabled =>
  split at registered
  · cases registered
  next absent =>
  obtain ⟨deployer, decoded, registered⟩ := bind_eq_ok.mp registered
  split at registered
  · cases registered
  · cases registered
  next external =>
  split at registered
  · cases registered
  next deployed =>
  obtain ⟨withdrawer, named, registered⟩ := bind_eq_ok.mp registered
  split at registered
  · cases registered
  next derived =>
  refine ⟨deployer, withdrawer, ?_⟩
  exact
    { enabled := by simpa using enabled
      absent := by simpa [State.isFeeSplitRegistered, State.getFeeSplit] using absent
      decoded := mustAccAddress_eq_ok.mp decoded
      external := external
      deployed := not_not.mp deployed
      named := otherWithdrawer_ok named
      derived := not_not.mp derived
      result := by
        rw [← Except.ok.inj registered, addWithdrawer_eq]
        simp [State.withFeeSplit, State.setFeeSplit, State.setDeployerMap, deployerKey,
          withdrawerKey, mapKey?] }

/-- What a successful update found, and what it leaves. -/
structure Updated (k : Keeper) (s : State) (msg : MsgUpdateFeeSplit) (after : State)
    (feeSplit : FeeSplit) (withdrawerAddress : String) : Prop where
  enabled : s.params.enableFeeSplit = true
  found : s.getFeeSplit (hexToAddress msg.contractAddress) = some feeSplit
  signed : msg.deployerAddress = feeSplit.deployerAddress
  -- The deployer as a withdrawer is the default.
  named : withdrawerAddress =
    if msg.withdrawerAddress = feeSplit.deployerAddress then "" else msg.withdrawerAddress
  result : after = { s with
    feeSplits := s.feeSplits.set feeSplit.getContractAddr
      { feeSplit with withdrawerAddress := withdrawerAddress }
    withdrawerMap := (s.withdrawerMap.clear (mapKey? k (hexToAddress msg.contractAddress)
        (k.bech32.decode feeSplit.withdrawerAddress))).mark
      (mapKey? k (hexToAddress msg.contractAddress) (k.bech32.decode withdrawerAddress)) }

theorem updateFeeSplit_ok {msg : MsgUpdateFeeSplit}
    (updated : updateFeeSplit k s msg = .ok after) :
    ∃ feeSplit withdrawerAddress, Updated k s msg after feeSplit withdrawerAddress := by
  unfold updateFeeSplit at updated
  dsimp only at updated
  split at updated
  · cases updated
  next enabled =>
  cases found : s.getFeeSplit (hexToAddress msg.contractAddress) with
  | none => simp [found] at updated
  | some feeSplit =>
    simp only [found] at updated
    split at updated
    · cases updated
    next signed =>
    -- The deployer as a withdrawer is stored as the empty text.
    generalize named : (if msg.withdrawerAddress = feeSplit.deployerAddress then ""
      else msg.withdrawerAddress) = withdrawerAddress at updated
    split at updated
    · cases updated
    obtain ⟨old, oldNamed, updated⟩ := bind_eq_ok.mp updated
    obtain ⟨new, newNamed, updated⟩ := bind_eq_ok.mp updated
    refine ⟨feeSplit, withdrawerAddress, by simpa using enabled, found, not_not.mp signed,
      named.symm, ?_⟩
    rw [← Except.ok.inj updated, addWithdrawer_eq, removeWithdrawer_eq,
      namedWithdrawer_ok oldNamed, namedWithdrawer_ok newNamed]
    rfl

/-- What a successful cancellation found, and what it leaves. -/
structure Cancelled (k : Keeper) (s : State) (msg : MsgCancelFeeSplit) (after : State)
    (feeSplit : FeeSplit) (deployer : Address) : Prop where
  enabled : s.params.enableFeeSplit = true
  found : s.getFeeSplit (hexToAddress msg.contractAddress) = some feeSplit
  signed : msg.deployerAddress = feeSplit.deployerAddress
  decoded : k.bech32.decode feeSplit.deployerAddress = some deployer
  result : after = { s with
    feeSplits := s.feeSplits.delete feeSplit.getContractAddr
    deployerMap := s.deployerMap.delete (mapKey k deployer (hexToAddress msg.contractAddress))
    withdrawerMap := s.withdrawerMap.clear (mapKey? k (hexToAddress msg.contractAddress)
      (k.bech32.decode feeSplit.withdrawerAddress)) }

theorem cancelFeeSplit_ok {msg : MsgCancelFeeSplit}
    (cancelled : cancelFeeSplit k s msg = .ok after) :
    ∃ feeSplit deployer, Cancelled k s msg after feeSplit deployer := by
  -- Past the three refusals, both addresses have decoded.
  unfold cancelFeeSplit at cancelled
  dsimp only at cancelled
  split at cancelled
  · cases cancelled
  next enabled =>
  cases found : s.getFeeSplit (hexToAddress msg.contractAddress) with
  | none => simp [found] at cancelled
  | some feeSplit =>
    simp only [found] at cancelled
    split at cancelled
    · cases cancelled
    next signed =>
    obtain ⟨deployer, decoded, cancelled⟩ := bind_eq_ok.mp cancelled
    obtain ⟨withdrawer, named, cancelled⟩ := bind_eq_ok.mp cancelled
    refine ⟨feeSplit, deployer, by simpa using enabled, found, not_not.mp signed,
      mustAccAddress_eq_ok.mp decoded, ?_⟩
    rw [← Except.ok.inj cancelled, removeWithdrawer_eq, namedWithdrawer_ok named]
    rfl

/-- What the hook does when it pays a share of a fee. -/
structure Paid (k : Keeper) (evmDenom : Denom) (s : State) (tx : Transaction) (after : State)
    (contract : EthAddress) (withdrawer : Address) : Prop where
  called : tx.toContract = some contract
  payee : s.payee k contract = some withdrawer
  sent : sendDeveloperFee k s.bank withdrawer evmDenom (developerFee s.params tx) = .ok after.bank
  result : after = { s with
    bank := after.bank
    distributions := s.distributions ++ [⟨contract, withdrawer, developerFee s.params tx⟩] }

theorem payee_eq {contract : EthAddress} {feeSplit : FeeSplit} {withdrawer : Address}
    (found : s.getFeeSplit contract = some feeSplit)
    (effective : effectiveWithdrawer k feeSplit = .ok withdrawer) :
    s.payee k contract = some withdrawer := by
  obtain ⟨named, decoded, chosen⟩ := bind_eq_ok.mp effective
  simp only [State.payee, found, Option.bind_some, namedWithdrawer_ok decoded]
  -- Without a withdrawer the deployer is paid.
  cases named with
  | none => simpa using mustAccAddress_eq_ok.mp chosen
  | some address => simpa using chosen

/-- The inversion of `PostTxProcessing`: it changes nothing, or pays one share. -/
theorem postTxProcessing_ok {evmDenom : Denom} {tx : Transaction}
    (processed : postTxProcessing k evmDenom s tx = .ok after) :
    after = s ∨ ∃ contract withdrawer, Paid k evmDenom s tx after contract withdrawer := by
  -- The hook returns early if it is disabled, or if no registered contract was called.
  unfold postTxProcessing at processed
  split at processed
  · exact .inl (Except.ok.inj processed).symm
  split at processed
  · exact .inl (Except.ok.inj processed).symm
  next contract called =>
  cases found : s.getFeeSplit contract with
  | none =>
    simp only [found] at processed
    exact .inl (Except.ok.inj processed).symm
  | some feeSplit =>
    simp only [found] at processed
    obtain ⟨withdrawer, effective, processed⟩ := bind_eq_ok.mp processed
    obtain ⟨bank, sent, processed⟩ := bind_eq_ok.mp processed
    obtain rfl := Except.ok.inj processed
    exact .inr ⟨contract, withdrawer, called, payee_eq found effective, wrap_eq_ok.mp sent, rfl⟩

theorem postTxProcessing_keeps {evmDenom : Denom} {tx : Transaction}
    (processed : postTxProcessing k evmDenom s tx = .ok after) :
    after.feeSplits = s.feeSplits ∧ after.deployerMap = s.deployerMap ∧
      after.withdrawerMap = s.withdrawerMap := by
  -- The hook does nothing, or changes the bank.
  rcases postTxProcessing_ok processed with rfl | ⟨contract, withdrawer, paid⟩
  · exact ⟨rfl, rfl, rfl⟩
  · rw [paid.result]
    exact ⟨rfl, rfl, rfl⟩

end Evmos.Feesplit
