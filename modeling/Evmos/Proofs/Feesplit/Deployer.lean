import Evmos.Proofs.Feesplit.Index

/-! The fees of a contract go where the account that deployed it directs them. -/

namespace Evmos.Feesplit

open Library

variable {k : Keeper} {s after : State} {calls : List Call} {call : Call} {contract : EthAddress}

/-- Signers whose addresses have twenty bytes, as those of Ethereum accounts. -/
def TwentyBytes (k : Keeper) (_ : State) (call : Call) : Prop :=
  ∀ signer, call.signer k = some signer → ∃ account : EthAddress, signer = account.bytes

/-- A registered contract was created by its deployer, who said last who is paid. -/
structure Authorized (k : Keeper) (calls : List Call) (s : State) (contract : EthAddress)
    (feeSplit : FeeSplit) (deployer : EthAddress) (nonces : List ℕ) : Prop where
  nonempty : 1 ≤ nonces.length
  bounded : nonces.length ≤ 20
  derived : contract = deriveContract k deployer nonces
  decoded : k.bech32.decode feeSplit.deployerAddress = some deployer.bytes
  directed : lastDirective k contract deployer.bytes calls = s.payee k contract

/-- Every registered contract was created by the one who directs its fees. -/
def AllAuthorized (k : Keeper) (calls : List Call) (s : State) : Prop :=
  ∀ contract feeSplit, s.getFeeSplit contract = some feeSplit →
    ∃ deployer nonces, Authorized k calls s contract feeSplit deployer nonces

theorem lastDirective_of_some {signer payee : Address}
    (directs : call.directive k contract signer = some payee) :
    lastDirective k contract signer (calls ++ [call]) = some payee := by
  simp [lastDirective, List.filterMap_append, directs]

theorem lastDirective_of_none {signer : Address}
    (silent : call.directive k contract signer = none) :
    lastDirective k contract signer (calls ++ [call]) = lastDirective k contract signer calls := by
  simp [lastDirective, List.filterMap_append, silent]

theorem payee_congr (same : after.getFeeSplit contract = s.getFeeSplit contract) :
    after.payee k contract = s.payee k contract := by
  rw [State.payee, same, State.payee]

theorem AllAuthorized.kept (authorized : AllAuthorized k calls s) {feeSplit : FeeSplit}
    (same : after.getFeeSplit contract = s.getFeeSplit contract)
    (silent : ∀ signer, call.directive k contract signer = none)
    (found : after.getFeeSplit contract = some feeSplit) :
    ∃ deployer nonces, Authorized k (calls ++ [call]) after contract feeSplit deployer nonces := by
  -- The deployer and the nonces are those from before, and so is the last directive.
  obtain ⟨deployer, nonces, before⟩ := authorized contract feeSplit (same ▸ found)
  refine ⟨deployer, nonces, { before with directed := ?_ }⟩
  rw [lastDirective_of_none (silent deployer.bytes), payee_congr same, before.directed]

theorem bytesToAddress_bytes (account : EthAddress) :
    bytesToAddress (k.addressBytes.bytes account.bytes) = account := by
  rw [k.addressBytes.bytes_eth, bytesToAddress_toBytes]

/-- The nonces of a registration are between one and twenty. -/
theorem nonces_bounds {msg : MsgRegisterFeeSplit} (valid : msg.validateBasic k.bech32 = .ok ()) :
    1 ≤ msg.nonces.length ∧ msg.nonces.length ≤ 20 := by
  unfold MsgRegisterFeeSplit.validateBasic at valid
  obtain ⟨-, -, valid⟩ := bind_eq_ok.mp valid
  -- Whether or not a withdrawer is checked, the nonces are counted after it.
  have counted : validateNonces msg.nonces = .ok () := by
    dsimp only at valid
    split at valid
    · obtain ⟨-, -, valid⟩ := bind_eq_ok.mp valid
      exact valid
    · exact valid
  unfold validateNonces at counted
  split at counted
  · cases counted
  split at counted
  · cases counted
  omega

theorem payee_of_found {feeSplit : FeeSplit} {deployer : Address}
    (found : s.getFeeSplit contract = some feeSplit)
    (decoded : k.bech32.decode feeSplit.deployerAddress = some deployer) :
    s.payee k contract = some ((k.bech32.decode feeSplit.withdrawerAddress).getD deployer) := by
  -- Without a withdrawer that decodes, the deployer is paid.
  simp only [State.payee, found, decoded, Option.bind_some]
  cases k.bech32.decode feeSplit.withdrawerAddress <;> rfl

/-- A registration makes the deployer of the contract the one who directs its fees. -/
theorem AllAuthorized.register {account : EthAddress → Option EvmAccount}
    {msg : MsgRegisterFeeSplit} (authorized : AllAuthorized k calls s)
    (guarded : TwentyBytes k s (.register account msg))
    (valid : msg.validateBasic k.bech32 = .ok ())
    (registered : registerFeeSplit k account s msg = .ok after) :
    AllAuthorized k (calls ++ [.register account msg]) after := by
  obtain ⟨deployer, withdrawer, step⟩ := registerFeeSplit_ok registered
  -- The signer has twenty bytes, so the derivation starts from its own address.
  obtain ⟨creator, rfl⟩ := guarded deployer step.decoded
  have derived := step.derived
  rw [bytesToAddress_bytes] at derived
  intro contract feeSplit found
  by_cases same : hexToAddress msg.contractAddress = contract
  · subst same
    obtain ⟨nonempty, bounded⟩ := nonces_bounds valid
    have stored : after.getFeeSplit (hexToAddress msg.contractAddress) = some
        (newFeeSplit k.bech32 k.format (hexToAddress msg.contractAddress) creator.bytes
          withdrawer) := by
      rw [step.result]
      simpa using getFeeSplit_withFeeSplit_self (k := k) s (newFeeSplit k.bech32 k.format
        (hexToAddress msg.contractAddress) creator.bytes withdrawer)
    obtain rfl := Option.some.inj (stored.symm.trans found)
    refine ⟨creator, msg.nonces, nonempty, bounded, derived, decode_deployer_newFeeSplit .., ?_⟩
    rw [payee_of_found stored (decode_deployer_newFeeSplit ..), decode_withdrawer_newFeeSplit]
    -- The message itself is the last directive of the creator.
    apply lastDirective_of_some
    show Call.directive.directed k _ _ _ _ _ = _
    rw [Call.directive.directed, if_pos ⟨rfl, step.decoded⟩, step.named]
    split
    · -- A withdrawer that is spelled as the deployer is the deployer.
      next spelled => rw [spelled, step.decoded]; rfl
    · rfl
  · refine authorized.kept ?_ ?_ found
    · rw [step.result]
      apply getFeeSplit_withFeeSplit_of_ne
      rw [getContractAddr_newFeeSplit]
      exact Ne.symm same
    · intro signer
      exact if_neg fun directs => same directs.1

theorem AllAuthorized.update {msg : MsgUpdateFeeSplit} (indexed : Indexed k s)
    (authorized : AllAuthorized k calls s) (updated : updateFeeSplit k s msg = .ok after) :
    AllAuthorized k (calls ++ [.update msg]) after := by
  obtain ⟨stored, withdrawerAddress, step⟩ := updateFeeSplit_ok updated
  -- The fee split is written back to the contract of the message.
  have result := step.result
  rw [indexed.placed _ _ step.found] at result
  intro contract feeSplit found
  by_cases same : hexToAddress msg.contractAddress = contract
  · subst same
    obtain ⟨deployer, nonces, before⟩ := authorized _ stored step.found
    have replaced : after.getFeeSplit (hexToAddress msg.contractAddress) =
        some { stored with withdrawerAddress := withdrawerAddress } := by
      rw [result, State.getFeeSplit, Store.get?_set_self]
    obtain rfl := Option.some.inj (replaced.symm.trans found)
    refine ⟨deployer, nonces, before.nonempty, before.bounded, before.derived, before.decoded, ?_⟩
    rw [payee_of_found replaced before.decoded]
    apply lastDirective_of_some
    show Call.directive.directed k _ _ _ _ _ = _
    rw [Call.directive.directed, if_pos ⟨rfl, by rw [step.signed, before.decoded]⟩, step.named]
    split
    · -- The deployer as a withdrawer is stored as an empty text.
      next own => rw [own, before.decoded, k.decode_empty]; rfl
    · rfl
  · refine authorized.kept ?_ ?_ found
    · rw [result, State.getFeeSplit, Store.get?_set_of_ne _ (Ne.symm same)]
      rfl
    · intro signer
      exact if_neg fun directs => same directs.1

/-- A cancellation leaves the other contracts as they were. -/
theorem AllAuthorized.cancel {msg : MsgCancelFeeSplit} (indexed : Indexed k s)
    (authorized : AllAuthorized k calls s) (cancelled : cancelFeeSplit k s msg = .ok after) :
    AllAuthorized k (calls ++ [.cancel msg]) after := by
  obtain ⟨stored, deployer, step⟩ := cancelFeeSplit_ok cancelled
  have result := step.result
  rw [indexed.placed _ _ step.found] at result
  intro contract feeSplit found
  -- The cancelled contract is not registered any more.
  refine authorized.kept ?_ (fun _ => rfl) found
  rw [found]
  rw [result] at found
  exact (Store.get?_delete_eq_some.mp found).2.symm

theorem AllAuthorized.of_same (authorized : AllAuthorized k calls s)
    (same : after.feeSplits = s.feeSplits)
    (silent : ∀ contract signer, call.directive k contract signer = none) :
    AllAuthorized k (calls ++ [call]) after := by
  intro contract feeSplit found
  -- Calls that are no messages leave the fee splits and direct nothing.
  refine authorized.kept ?_ (silent contract) found
  rw [State.getFeeSplit, same, State.getFeeSplit]

theorem AllAuthorized.step (indexed : Indexed k s) (authorized : AllAuthorized k calls s)
    (taken : Guarded (TwentyBytes k) (Step k) s call after) :
    AllAuthorized k (calls ++ [call]) after := by
  obtain ⟨guarded, taken⟩ := taken
  -- Only the messages write fee splits, and each one is checked against its deployer.
  cases taken with
  | register valid registered => exact authorized.register guarded valid registered
  | update _ updated => exact authorized.update indexed updated
  | cancel _ cancelled => exact authorized.cancel indexed cancelled
  | postTx processed => exact authorized.of_same (postTxProcessing_keeps processed).1 fun _ _ => rfl
  | others => exact authorized.of_same rfl fun _ _ => rfl

theorem AllAuthorized.run {params : Params} {bank : Bank} {reached : State}
    (run : Run (Guarded (TwentyBytes k) (Step k)) (State.empty params bank) calls reached) :
    AllAuthorized k calls reached := by
  -- The calls so far belong to the invariant, so the induction is on the run itself.
  induction run with
  | start => exact forall_empty params bank
  | extend earlier taken ih => exact ih.step (Indexed.run earlier.unguarded) taken

/-- A message of anyone but the deployer leaves the fee split of a contract. -/
theorem getFeeSplit_of_other {feeSplit : FeeSplit} {deployer signer : Address}
    (indexed : Indexed k s) (found : s.getFeeSplit contract = some feeSplit)
    (decoded : k.bech32.decode feeSplit.deployerAddress = some deployer)
    (signed : call.signer k = some signer) (other : signer ≠ deployer)
    (taken : Step k s call after) : after.getFeeSplit contract = some feeSplit := by
  -- Updates and cancellations carry the spelling of the deployer they are about.
  have elsewhere : ∀ {text contractAddress : String} {stored : FeeSplit},
      s.getFeeSplit (hexToAddress contractAddress) = some stored →
      k.bech32.decode text = some signer → text = stored.deployerAddress →
      contract ≠ hexToAddress contractAddress := by
    rintro text contractAddress stored held spelled rfl rfl
    rw [found] at held
    obtain rfl := Option.some.inj held
    exact other (Option.some.inj (spelled.symm.trans decoded))
  cases taken with
  | register _ registered =>
    -- A registered contract cannot be registered again.
    obtain ⟨_, _, step⟩ := registerFeeSplit_ok registered
    have new : contract ≠ hexToAddress _ := fun same => by
      have absent := step.absent
      rw [← same, found] at absent
      cases absent
    rw [step.result, getFeeSplit_withFeeSplit_of_ne s (by simpa using new)]
    exact found
  | update _ updated =>
    obtain ⟨stored, _, step⟩ := updateFeeSplit_ok updated
    rw [step.result, indexed.placed _ _ step.found, State.getFeeSplit,
      Store.get?_set_of_ne _ (elsewhere step.found signed step.signed)]
    exact found
  | cancel _ cancelled =>
    obtain ⟨stored, _, step⟩ := cancelFeeSplit_ok cancelled
    rw [step.result, indexed.placed _ _ step.found, State.getFeeSplit,
      Store.get?_delete_of_ne _ (elsewhere step.found signed step.signed)]
    exact found
  | postTx _ => cases signed
  | others => cases signed

/-- What a registered contract's deployer controls. -/
structure Controlled (k : Keeper) (calls : List Call) (s : State) (contract : EthAddress)
    (deployer : EthAddress) (nonces : List ℕ) : Prop where
  nonempty : 1 ≤ nonces.length
  bounded : nonces.length ≤ 20
  derived : contract = nonces.foldl k.createAddress deployer
  -- Whatever is paid goes to whom the deployer named last.
  paid : ∀ evmDenom tx after, postTxProcessing k evmDenom s tx = .ok after →
    ∀ amount payee, after.distributions = s.distributions ++ [⟨contract, payee, amount⟩] →
      lastDirective k contract deployer.bytes calls = some payee ∧
        sendDeveloperFee k s.bank payee evmDenom amount = .ok after.bank
  -- Messages of others change nothing about that.
  others : ∀ call signer after, call.signer k = some signer → signer ≠ deployer.bytes →
    Step k s call after → after.payee k contract = s.payee k contract

/-- The hook pays for registered contracts only, and pays their payee. -/
theorem paid_of_distribution {evmDenom : Denom} {tx : Transaction} {payee : Address} {amount : ℤ}
    (processed : postTxProcessing k evmDenom s tx = .ok after)
    (grown : after.distributions = s.distributions ++ [⟨contract, payee, amount⟩]) :
    s.payee k contract = some payee ∧
      sendDeveloperFee k s.bank payee evmDenom amount = .ok after.bank := by
  rcases postTxProcessing_ok processed with rfl | ⟨called, withdrawer, paid⟩
  · -- A hook that does nothing emits nothing.
    have lengths := congrArg List.length grown
    simp at lengths
  · have emitted := grown
    rw [paid.result] at emitted
    have event := List.append_cancel_left emitted
    simp only [List.cons.injEq, Distribution.mk.injEq, and_true] at event
    obtain ⟨rfl, rfl, rfl⟩ := event
    exact ⟨paid.payee, paid.sent⟩

/-- Developer fees only go where the deployer of the contract directs them. -/
theorem developer_fees_follow_deployer {params : Params} {bank : Bank} {reached : State}
    (run : Run (Guarded (TwentyBytes k) (Step k)) (State.empty params bank) calls reached) :
    (∀ evmDenom tx after, postTxProcessing k evmDenom reached tx = .ok after →
      after.bank ≠ reached.bank →
      ∃ distribution, after.distributions = reached.distributions ++ [distribution]) ∧
    (∀ evmDenom tx after contract payee amount, postTxProcessing k evmDenom reached tx = .ok after →
      after.distributions = reached.distributions ++ [⟨contract, payee, amount⟩] →
      reached.isFeeSplitRegistered contract = true) ∧
    ∀ contract, reached.isFeeSplitRegistered contract = true →
      ∃ deployer nonces, Controlled k calls reached contract deployer nonces := by
  have indexed := Indexed.run run.unguarded
  refine ⟨?_, ?_, ?_⟩
  · -- Coins move only together with the event that says so.
    intro evmDenom tx after processed changed
    rcases postTxProcessing_ok processed with rfl | ⟨contract, withdrawer, paid⟩
    · exact absurd rfl changed
    · rw [paid.result]
      exact ⟨_, rfl⟩
  · intro evmDenom tx after contract payee amount processed grown
    obtain ⟨feeSplit, found, -⟩ :=
      Option.bind_eq_some_iff.mp (paid_of_distribution processed grown).1
    rw [State.isFeeSplitRegistered]
    exact Option.isSome_iff_exists.mpr ⟨feeSplit, found⟩
  · intro contract registered
    obtain ⟨feeSplit, found⟩ := Option.isSome_iff_exists.mp registered
    obtain ⟨deployer, nonces, authorized⟩ := AllAuthorized.run run contract feeSplit found
    refine ⟨deployer, nonces, authorized.nonempty, authorized.bounded, authorized.derived, ?_, ?_⟩
    · intro evmDenom tx after processed amount payee grown
      obtain ⟨due, sent⟩ := paid_of_distribution processed grown
      exact ⟨authorized.directed.trans due, sent⟩
    · intro call signer after signed other taken
      have kept := getFeeSplit_of_other indexed found authorized.decoded signed other taken
      exact payee_congr (kept.trans found.symm)

/-- A transaction to the third account, with a fee of a hundred. -/
def hundredFee : Transaction := ⟨some 3, 10, 10⟩

/-- A respelled withdrawer is paid half of a fee, as its deployer said. -/
theorem respelled_withdrawer_paid : ∃ reached after,
    Run (Guarded (TwentyBytes Keeper.plain) (Step Keeper.plain)) unregistered
      [.register thirdDeployed loudRegistration, .update respelling] reached ∧
    postTxProcessing Keeper.plain "aevmos" reached hundredFee = .ok after ∧
    after.distributions = reached.distributions ++ [⟨3, 2, 50⟩] ∧
    ∃ deployer nonces, Controlled Keeper.plain
      [.register thirdDeployed loudRegistration, .update respelling] reached 3 deployer nonces := by
  have ran : (registerFeeSplit Keeper.plain thirdDeployed unregistered loudRegistration >>=
      fun first => updateFeeSplit Keeper.plain first respelling >>= fun reached =>
        (postTxProcessing Keeper.plain "aevmos" reached hundredFee).map fun after =>
          (reached.distributions, after.distributions)) = .ok ([], [⟨3, 2, 50⟩]) := by
    decide +kernel
  obtain ⟨first, registered, ran⟩ := bind_eq_ok.mp ran
  obtain ⟨reached, updated, ran⟩ := bind_eq_ok.mp ran
  obtain ⟨after, processed, events⟩ := map_eq_ok.mp ran
  have emitted : after.distributions = reached.distributions ++ [⟨3, 2, 50⟩] := by
    rw [(Prod.mk.inj events).1, (Prod.mk.inj events).2]
    rfl
  -- Both messages are signed by the account at address one.
  have decoded : ∀ text signer, text = "QQ" ∨ text = "qq" →
      letters.decode text = some signer → ∃ account : EthAddress, signer = account.bytes := by
    rintro text signer (rfl | rfl) signed
    · exact ⟨1, (Option.some.inj signed).symm⟩
    · exact ⟨1, (Option.some.inj signed).symm⟩
  have run : Run (Guarded (TwentyBytes Keeper.plain) (Step Keeper.plain)) unregistered
      [.register thirdDeployed loudRegistration, .update respelling] reached :=
    (Run.start.extend ⟨fun signer signed => decoded _ signer (.inl rfl) signed,
      .register (by decide +kernel) registered⟩).extend
      ⟨fun signer signed => decoded _ signer (.inr rfl) signed,
        .update (by decide +kernel) updated⟩
  obtain ⟨-, paysRegistered, controlled⟩ := developer_fees_follow_deployer run
  have registered := paysRegistered "aevmos" hundredFee after 3 2 50 processed emitted
  exact ⟨reached, after, run, processed, emitted, controlled 3 registered⟩

end Evmos.Feesplit
