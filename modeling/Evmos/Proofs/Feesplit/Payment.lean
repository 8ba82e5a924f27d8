import Evmos.Proofs.Feesplit.Deployer

/-! When the hook of the fee split module pays a share of a fee, and when it fails a transaction. -/

namespace Evmos.Feesplit

open Library

variable {k : Keeper} {s after : State} {call : Call} {params : Params} {tx : Transaction}
  {payee : Address}

/-- Both addresses of a fee split decode, except for a withdrawer that is absent. -/
structure Spelled (k : Keeper) (feeSplit : FeeSplit) : Prop where
  deployer : ∃ address, k.bech32.decode feeSplit.deployerAddress = some address
  withdrawer : feeSplit.withdrawerAddress = "" ∨
    ∃ address, k.bech32.decode feeSplit.withdrawerAddress = some address

/-- The addresses of every registered fee split decode. -/
def AllSpelled (k : Keeper) (s : State) : Prop :=
  ∀ contract feeSplit, s.getFeeSplit contract = some feeSplit → Spelled k feeSplit

theorem validateAccAddress_ok {text : String} (checked : validateAccAddress k.bech32 text = .ok ()) :
    ∃ address, k.bech32.decode text = some address := by
  unfold validateAccAddress at checked
  -- An address that was checked decodes.
  split_ifs at checked with absent
  exact Option.ne_none_iff_exists'.mp (by simpa using absent)

/-- Every step keeps the addresses decodable, since messages are checked before they are run. -/
theorem AllSpelled.step (spelled : AllSpelled k s) (taken : Step k s call after) :
    AllSpelled k after := by
  cases taken with
  | register valid registered =>
    -- A new fee split spells the two addresses itself.
    obtain ⟨deployer, withdrawer, step⟩ := registerFeeSplit_ok registered
    have stored := congrArg State.feeSplits step.result
    refine (forall_written_iff _ stored spelled).mpr ⟨⟨deployer, decode_deployer_newFeeSplit ..⟩, ?_⟩
    cases withdrawer with
    | none => exact .inl rfl
    | some address => exact .inr ⟨address, decode_withdrawer_newFeeSplit ..⟩
  | update valid updated =>
    obtain ⟨feeSplit, withdrawerAddress, step⟩ := updateFeeSplit_ok updated
    have stored := congrArg State.feeSplits step.result
    have decodes : Spelled k { feeSplit with withdrawerAddress := withdrawerAddress } := by
      refine ⟨(spelled _ _ step.found).deployer, ?_⟩
      -- The message names a withdrawer, which becomes the default if it is the deployer.
      have named := step.named
      obtain ⟨⟨⟩, -, checked⟩ := bind_eq_ok.mp valid
      split at named
      · exact .inl named
      · exact .inr (named ▸ validateAccAddress_ok (wrap_eq_ok.mp checked))
    exact (forall_written_iff _ stored spelled).mpr decodes
  | cancel valid cancelled =>
    obtain ⟨feeSplit, deployer, step⟩ := cancelFeeSplit_ok cancelled
    exact forall_deleted (congrArg State.feeSplits step.result) spelled
  | postTx processed => exact forall_same (postTxProcessing_keeps processed).1 spelled
  | others => exact spelled

theorem AllSpelled.run {bank : Bank} {calls : List Call} {reached : State}
    (run : Run (Step k) (State.empty params bank) calls reached) : AllSpelled k reached := by
  -- An empty store has no fee split to check.
  exact Run.invariant (AllSpelled k) AllSpelled.step (forall_empty params bank) run

/-- The hook finds a payee for a fee split whose addresses decode. -/
theorem Spelled.effectiveWithdrawer {feeSplit : FeeSplit} (spelled : Spelled k feeSplit) :
    ∃ payee, effectiveWithdrawer k feeSplit = .ok payee := by
  obtain ⟨deployer, decoded⟩ := spelled.deployer
  by_cases blank : feeSplit.withdrawerAddress = ""
  · -- Without a withdrawer the deployer is paid.
    refine ⟨deployer, bind_eq_ok.mpr ⟨none, ?_, mustAccAddress_eq_ok.mpr decoded⟩⟩
    exact if_pos blank
  · rcases spelled.withdrawer with empty | ⟨withdrawer, named⟩
    · exact absurd empty blank
    · refine ⟨withdrawer, bind_eq_ok.mpr ⟨some withdrawer, ?_, rfl⟩⟩
      exact (if_neg blank).trans (map_eq_ok.mpr ⟨withdrawer, mustAccAddress_eq_ok.mpr named, rfl⟩)

/-- A call of a registered contract ends with the transfer of the share, if the hook is enabled. -/
theorem postTxProcessing_eq {evmDenom : Denom} {contract : EthAddress} {feeSplit : FeeSplit}
    (enabled : s.params.enableFeeSplit = true) (called : tx.toContract = some contract)
    (found : s.getFeeSplit contract = some feeSplit)
    (effective : effectiveWithdrawer k feeSplit = .ok payee) :
    postTxProcessing k evmDenom s tx = .ok after ↔
      ∃ bank, sendDeveloperFee k s.bank payee evmDenom (developerFee s.params tx) = .ok bank ∧
        after = { s with
          bank := bank
          distributions := s.distributions ++ [⟨contract, payee, developerFee s.params tx⟩] } := by
  unfold postTxProcessing
  rw [enabled, called, if_neg (by decide)]
  dsimp only
  rw [found]
  dsimp only
  -- The payee and the transfer are the only calls left that can fail.
  constructor
  · intro processed
    obtain ⟨chosen, same, processed⟩ := bind_eq_ok.mp processed
    obtain rfl := Except.ok.inj (same.symm.trans effective)
    obtain ⟨bank, sent, processed⟩ := bind_eq_ok.mp processed
    exact ⟨bank, wrap_eq_ok.mp sent, (Except.ok.inj processed).symm⟩
  · rintro ⟨bank, sent, rfl⟩
    exact bind_eq_ok.mpr ⟨payee, effective, bind_eq_ok.mpr ⟨bank, wrap_eq_ok.mpr sent, rfl⟩⟩

/-- The transfer of a share succeeds exactly for a positive one that is held, to an open account. -/
theorem sendDeveloperFee_eq_ok {bank result : Bank} {denom : Denom} {amount : ℤ} :
    sendDeveloperFee k bank payee denom amount = .ok result ↔
      k.blockedAddr payee = false ∧ 0 < amount ∧
        Coins.ofCoin denom amount.toNat ≤ bank.balances k.feeCollectorAddress ∧
        result = ⟨moveCoins bank.balances k.feeCollectorAddress payee
          (Coins.ofCoin denom amount.toNat), bank.supply⟩ := by
  unfold sendDeveloperFee
  by_cases invalid : (!k.blockedAddr payee && amount ≤ 0) = true
  · -- An open account is sent no coin of zero.
    rw [if_pos invalid]
    simp only [Bool.and_eq_true, Bool.not_eq_true', decide_eq_true_eq] at invalid
    constructor
    · intro sent
      cases sent
    · rintro ⟨-, positive, -⟩
      exact absurd invalid.2 (not_le.mpr positive)
  · rw [if_neg invalid, Bank.sendCoinsFromModuleToAccount_eq_ok]
    simp only [Bool.and_eq_true, Bool.not_eq_true', decide_eq_true_eq, not_and, not_le] at invalid
    constructor
    · rintro ⟨unblocked, sent⟩
      exact ⟨unblocked, invalid unblocked, sent⟩
    · rintro ⟨unblocked, -, sent⟩
      exact ⟨unblocked, sent⟩

theorem Params.validate_ok (valid : params.validate = .ok ()) :
    0 ≤ params.developerShares ∧ params.developerShares ≤ 1 := by
  unfold Params.validate at valid
  -- The two checks are the two bounds.
  split_ifs at valid with negative large
  exact ⟨not_lt.mp negative, not_lt.mp large⟩

/-- The share of a fee is its whole part, which is at most the fee. -/
theorem developerFee_eq (valid : params.validate = .ok ()) (tx : Transaction) :
    developerFee params tx =
        tx.gasUsed * tx.gasPrice * params.developerShares.atomics / Dec.precision ∧
      0 ≤ developerFee params tx ∧ developerFee params tx ≤ tx.gasUsed * tx.gasPrice := by
  obtain ⟨low, high⟩ := Params.validate_ok valid
  have sign : (0 : ℤ) ≤ tx.gasUsed * tx.gasPrice := by positivity
  -- The product is exact, since a fee has no decimals, and is cut off once.
  have whole : developerFee params tx =
      tx.gasUsed * tx.gasPrice * params.developerShares.atomics / Dec.precision :=
    Dec.truncateInt_ofInt_mul sign low
  refine ⟨whole, ?_, Dec.truncateInt_le sign low high⟩
  rw [whole]
  exact Int.ediv_nonneg (Int.mul_nonneg sign low) Dec.precision_pos.le

/-- The share is at least one coin exactly when the exact product is. -/
theorem developerFee_pos_iff (valid : params.validate = .ok ()) :
    0 < developerFee params tx ↔
      Dec.precision ≤ tx.gasUsed * tx.gasPrice * params.developerShares.atomics := by
  rw [(developerFee_eq valid tx).1, ← Int.add_one_le_iff, zero_add,
    Int.le_ediv_iff_mul_le Dec.precision_pos, one_mul]

/-- The hook succeeds, pays a share of the fee to an account, and does nothing else to the bank. -/
structure PaysShare (k : Keeper) (evmDenom : Denom) (s : State) (tx : Transaction)
    (payee : Address) (amount : ℕ) (after : State) : Prop where
  processed : postTxProcessing k evmDenom s tx = .ok after
  within : amount ≤ tx.gasUsed * tx.gasPrice
  credited : after.bank.balances payee = s.bank.balances payee + Coins.ofCoin evmDenom amount
  debited : after.bank.balances k.feeCollectorAddress + Coins.ofCoin evmDenom amount =
    s.bank.balances k.feeCollectorAddress
  others : ∀ account, account ≠ payee → account ≠ k.feeCollectorAddress →
    after.bank.balances account = s.bank.balances account

/-- An enabled hook pays a share of at least one coin to a payee that is not blocked. -/
theorem paysShare_of_enabled {evmDenom : Denom} {contract : EthAddress} {feeSplit : FeeSplit}
    (collectorBlocked : k.blockedAddr k.feeCollectorAddress = true)
    (enabled : s.params.enableFeeSplit = true) (valid : s.params.validate = .ok ())
    (called : tx.toContract = some contract) (found : s.getFeeSplit contract = some feeSplit)
    (effective : effectiveWithdrawer k feeSplit = .ok payee)
    (held : tx.gasUsed * tx.gasPrice ≤ s.bank.balances k.feeCollectorAddress evmDenom)
    (unblocked : k.blockedAddr payee = false) (positive : 0 < developerFee s.params tx) :
    ∃ after, PaysShare k evmDenom s tx payee (developerFee s.params tx).toNat after := by
  have within : (developerFee s.params tx).toNat ≤ tx.gasUsed * tx.gasPrice :=
    Int.toNat_le.mpr (by exact_mod_cast (developerFee_eq valid tx).2.2)
  have covered : Coins.ofCoin evmDenom (developerFee s.params tx).toNat ≤
      s.bank.balances k.feeCollectorAddress := Coins.ofCoin_le_iff.mpr (within.trans held)
  -- The fee collector is blocked, so the payee is another account.
  have elsewhere : k.feeCollectorAddress ≠ payee := by
    rintro rfl
    rw [collectorBlocked] at unblocked
    cases unblocked
  have sent := sendDeveloperFee_eq_ok.mpr ⟨unblocked, positive, covered, rfl⟩
  refine ⟨_, (postTxProcessing_eq enabled called found effective).mpr ⟨_, sent, rfl⟩, within,
    ?_, ?_, ?_⟩
  · exact moveCoins_to _ elsewhere _
  · show moveCoins _ _ _ _ _ + _ = _
    rw [moveCoins_from _ elsewhere, tsub_add_cancel_of_le covered]
  · intro account notPayee notCollector
    exact moveCoins_of_ne _ notCollector notPayee _

/-- A disabled hook does nothing, which pays a share of nothing and no other. -/
theorem paysShare_of_disabled {evmDenom : Denom} {amount : ℕ}
    (disabled : ¬s.params.enableFeeSplit = true) :
    (∃ after, PaysShare k evmDenom s tx payee amount after) ↔ amount = 0 := by
  have ignored : postTxProcessing k evmDenom s tx = .ok s := by
    unfold postTxProcessing
    rw [if_pos (by simpa using disabled)]
  -- The bank is unchanged, so a credit to the payee can only be of nothing.
  constructor
  · rintro ⟨after, pays⟩
    obtain rfl := Except.ok.inj (ignored.symm.trans pays.processed)
    have same := DFunLike.congr_fun pays.credited evmDenom
    rw [DFinsupp.add_apply, Coins.amountOf_ofCoin_self] at same
    omega
  · rintro rfl
    refine ⟨s, ignored, Nat.zero_le _, ?_, ?_, fun _ _ _ => rfl⟩
    · rw [Coins.ofCoin_zero, add_zero]
    · rw [Coins.ofCoin_zero, add_zero]

/--
When the hook does not make a transaction fail.

For a transaction to a registered contract whose fee is held, an enabled hook pays the share exactly
when the payee may receive coins and the share is at least one coin. Otherwise the transfer is
refused, and the transaction fails with it. A disabled hook pays nothing, which is the share exactly
when that is less than one coin.
-/
theorem hook_pays_share_iff {params : Params} {bank : Bank} {calls : List Call} {reached : State}
    (collectorBlocked : k.blockedAddr k.feeCollectorAddress = true)
    (run : Run (Step k) (State.empty params bank) calls reached)
    (valid : reached.params.validate = .ok ()) (evmDenom : Denom) (tx : Transaction)
    {contract : EthAddress} (called : tx.toContract = some contract)
    (registered : reached.isFeeSplitRegistered contract = true)
    (held : tx.gasUsed * tx.gasPrice ≤ reached.bank.balances k.feeCollectorAddress evmDenom) :
    ∃ payee, reached.payee k contract = some payee ∧
      ((∃ after, ∃ amount : ℕ, (amount : ℤ) =
          tx.gasUsed * tx.gasPrice * reached.params.developerShares.atomics / Dec.precision ∧
          PaysShare k evmDenom reached tx payee amount after) ↔
        if reached.params.enableFeeSplit = true then
          k.blockedAddr payee = false ∧
            Dec.precision ≤ tx.gasUsed * tx.gasPrice * reached.params.developerShares.atomics
        else tx.gasUsed * tx.gasPrice * reached.params.developerShares.atomics < Dec.precision) := by
  obtain ⟨feeSplit, found⟩ := Option.isSome_iff_exists.mp registered
  obtain ⟨payee, effective⟩ := (AllSpelled.run run contract feeSplit found).effectiveWithdrawer
  obtain ⟨whole, sign, -⟩ := developerFee_eq valid tx
  refine ⟨payee, payee_eq found effective, ?_⟩
  rw [← whole]
  by_cases enabled : reached.params.enableFeeSplit = true
  · rw [if_pos enabled, ← developerFee_pos_iff valid]
    constructor
    · rintro ⟨after, amount, -, pays⟩
      -- Success means that the transfer went through, which needs a positive amount.
      obtain ⟨result, sent, -⟩ :=
        (postTxProcessing_eq enabled called found effective).mp pays.processed
      obtain ⟨unblocked, positive, -⟩ := sendDeveloperFee_eq_ok.mp sent
      exact ⟨unblocked, positive⟩
    · rintro ⟨unblocked, positive⟩
      obtain ⟨after, pays⟩ := paysShare_of_enabled collectorBlocked enabled valid called found
        effective held unblocked positive
      exact ⟨after, _, Int.toNat_of_nonneg sign, pays⟩
  · -- Nothing is paid, which is the share exactly when it is not positive.
    rw [if_neg enabled, ← not_le, ← developerFee_pos_iff valid]
    constructor
    · rintro ⟨after, amount, floor, pays⟩
      obtain rfl := (paysShare_of_disabled enabled).mp ⟨after, pays⟩
      omega
    · intro small
      obtain ⟨after, pays⟩ := (paysShare_of_disabled enabled).mpr rfl
      exact ⟨after, 0, by omega, pays⟩

/-- A keeper for evaluating the model, which blocks the fee collector. -/
def Keeper.guarded : Keeper := { Keeper.plain with blockedAddr := fun addr => addr = 100 }

/-- The withdrawer of a registered contract is paid half of a fee of a hundred. -/
theorem hundred_fee_pays_fifty : ∃ reached after, ∃ amount : ℕ,
    Run (Step Keeper.guarded) unregistered [.register thirdDeployed loudRegistration] reached ∧
      (amount : ℤ) = 10 * 10 * reached.params.developerShares.atomics / Dec.precision ∧
      PaysShare Keeper.guarded "aevmos" reached hundredFee 2 amount after := by
  -- What the theorem asks for is evaluated at the state after the registration.
  have ran : (registerFeeSplit Keeper.guarded thirdDeployed unregistered loudRegistration).map
      (fun reached => (reached.payee Keeper.guarded 3, reached.isFeeSplitRegistered 3,
        reached.params.enableFeeSplit, reached.params.developerShares.atomics,
        reached.bank.balances 100 "aevmos")) =
      .ok (some 2, true, true, 500000000000000000, 1000) := by
    decide +kernel
  obtain ⟨reached, stored, facts⟩ := map_eq_ok.mp ran
  simp only [Prod.mk.injEq] at facts
  obtain ⟨named, registered, enabled, shares, held⟩ := facts
  have run : Run (Step Keeper.guarded) unregistered [.register thirdDeployed loudRegistration]
      reached := Run.start.extend (.register (by decide +kernel) stored)
  have valid : reached.params.validate = .ok () := by
    unfold Params.validate
    rw [if_neg (by rw [not_lt, Dec.le_iff, shares]; decide),
      if_neg (by rw [not_lt, Dec.le_iff, shares]; decide)]
  obtain ⟨payee, payable, pays⟩ := hook_pays_share_iff (by decide) run valid "aevmos" hundredFee rfl
    registered (by rw [show Keeper.guarded.feeCollectorAddress = 100 from rfl, held]; decide)
  obtain rfl := Option.some.inj (payable.symm.trans named)
  obtain ⟨after, amount, floor, paid⟩ := pays.mpr (by
    rw [if_pos enabled, shares]
    decide)
  exact ⟨reached, after, amount, run, floor, paid⟩

/-- A registration that names the fee collector as its withdrawer. -/
def collectorRegistration : MsgRegisterFeeSplit :=
  { loudRegistration with withdrawerAddress := Keeper.plain.bech32.encode 100 }

/-- A fee of one coin, or a withdrawer that is blocked, makes the transaction fail. -/
theorem hook_fails_transactions :
    (∃ reached err,
      Run (Step Keeper.guarded) unregistered [.register thirdDeployed loudRegistration] reached ∧
        reached.params.validate = .ok () ∧ reached.isFeeSplitRegistered 3 = true ∧
        1 * 1 ≤ reached.bank.balances Keeper.guarded.feeCollectorAddress "aevmos" ∧
        postTxProcessing Keeper.guarded "aevmos" reached ⟨some 3, 1, 1⟩ = .error err) ∧
      ∃ reached err,
        Run (Step Keeper.guarded) unregistered [.register thirdDeployed collectorRegistration]
            reached ∧
          reached.params.validate = .ok () ∧ reached.isFeeSplitRegistered 3 = true ∧
          10 * 10 ≤ reached.bank.balances Keeper.guarded.feeCollectorAddress "aevmos" ∧
          postTxProcessing Keeper.guarded "aevmos" reached hundredFee = .error err := by
  -- Both messages are accepted, so each state is reached by one step.
  have fails : ∀ (msg : MsgRegisterFeeSplit) (tx : Transaction),
      msg.validateBasic Keeper.guarded.bech32 = .ok () →
      (registerFeeSplit Keeper.guarded thirdDeployed unregistered msg).map (fun reached =>
        (reached.params.validate, reached.isFeeSplitRegistered 3,
          decide (tx.gasUsed * tx.gasPrice ≤ reached.bank.balances 100 "aevmos"),
          (postTxProcessing Keeper.guarded "aevmos" reached tx).isOk)) =
        .ok (.ok (), true, true, false) →
      ∃ reached err, Run (Step Keeper.guarded) unregistered [.register thirdDeployed msg] reached ∧
        reached.params.validate = .ok () ∧ reached.isFeeSplitRegistered 3 = true ∧
        tx.gasUsed * tx.gasPrice ≤
          reached.bank.balances Keeper.guarded.feeCollectorAddress "aevmos" ∧
        postTxProcessing Keeper.guarded "aevmos" reached tx = .error err := by
    intro msg tx accepted ran
    obtain ⟨reached, stored, facts⟩ := map_eq_ok.mp ran
    simp only [Prod.mk.injEq, decide_eq_true_eq] at facts
    obtain ⟨valid, registered, held, failed⟩ := facts
    have run : Run (Step Keeper.guarded) unregistered [.register thirdDeployed msg] reached :=
      Run.start.extend (.register accepted stored)
    cases processed : postTxProcessing Keeper.guarded "aevmos" reached tx with
    | error err => exact ⟨reached, err, run, valid, registered, held, processed⟩
    | ok after =>
      rw [processed] at failed
      cases failed
  exact ⟨fails loudRegistration ⟨some 3, 1, 1⟩ (by decide +kernel) (by decide +kernel),
    fails collectorRegistration hundredFee (by decide +kernel) (by decide +kernel)⟩

end Evmos.Feesplit
