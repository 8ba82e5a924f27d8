import Evmos.Proofs.Erc20.Backing
import Evmos.Sdk.Accounting

/-! Who pays in the erc20 module: its account and the senders of coins, with coins of contracts. -/

namespace Evmos.Erc20

variable {k : Keeper} {ctx : Context} {s after : State} {pair : TokenPair}

/-- The coins that the module issues for the tokens of contracts that it does not own. -/
def State.externalDenoms (s : State) : Set Denom :=
  {denom | ∃ id pair, s.tokenPairs.get? id = some pair ∧ pair.contractOwner = .external ∧
    pair.denom = denom}

theorem findTokenPair_stored {token : String} (found : findTokenPair s token = .ok pair) :
    ∃ id, s.tokenPairs.get? id = some pair := by
  obtain ⟨id, -, stored⟩ := bind_eq_ok.mp found
  exact ⟨id, orError_eq_ok.mp stored⟩

/-- The coins that a conversion of coins may burn: those of a contract, or named like one. -/
def MsgConvertCoin.burns (k : Keeper) (msg : MsgConvertCoin) : Set Denom :=
  {denom | denom = msg.coin.denom ∧
    (isHexAddress denom = true ∨ ∃ contract, denom = createDenom (k.format.spell contract))}

/-- A conversion of coins is paid by its sender, and burns only the coins of contracts. -/
theorem convertCoin_changed {msg : MsgConvertCoin} (registry : Registry k s)
    (converted : convertCoin k ctx s msg = .ok after) :
    s.bank.Changed {addr | addr = k.moduleAddress.bytes ∨ k.bech32.decode msg.sender = some addr}
      (msg.burns k) after.bank := by
  cases convertCoin_converts converted with
  | removed => exact .refl _
  | escrowed decoded _ _ sent => exact .of_sendCoinsFromAccountToModule (.inr decoded) sent
  | @burned sender pair bank burnt res evm decoded found owner sent called burns =>
    refine .trans (.of_sendCoinsFromAccountToModule (.inr decoded) sent)
      (.of_burnCoins (.inl rfl) ?_ burns)
    intro _ some
    obtain rfl := Coins.eq_of_ofCoin_ne_zero some
    refine ⟨rfl, ?_⟩
    -- A pair that was found by its denomination is named after its contract.
    obtain ⟨id, stored, named⟩ := registry.findTokenPair found
    cases hex : isHexAddress msg.coin.denom with
    | true => exact .inl rfl
    | false =>
      rw [← named hex]
      exact .inr ⟨pair.getERC20Contract, (registry.denom stored owner).2⟩

/-- A conversion of tokens is paid by the module account, with coins that it may have minted. -/
theorem convertERC20_changed {msg : MsgConvertERC20}
    (converted : convertERC20 k ctx s msg = .ok after) :
    s.bank.Changed {k.moduleAddress.bytes} s.externalDenoms after.bank := by
  cases convertERC20_converts converted with
  | removed => exact .refl _
  | returned _ _ _ sent => exact .of_sendCoinsFromModuleToAccount rfl sent
  | @minted receiver pair bank res evm found owner called sent =>
    -- The coins are minted for the receiver.
    obtain ⟨id, stored⟩ := findTokenPair_stored found
    refine .trans (.of_mintCoins _ _ ?_) (.of_sendCoinsFromModuleToAccount rfl sent)
    intro denom some
    exact ⟨id, pair, stored, owner, (Coins.eq_of_ofCoin_ne_zero some).symm⟩

/-- A conversion by the hook is paid by the module account, with coins that it may have minted. -/
theorem hookConvert_changed {id : ℕ} (stored : s.tokenPairs.get? id = some pair)
    (contract fromAddr : EthAddress) (tokens : ℕ) :
    s.bank.Changed {k.moduleAddress.bytes} s.externalDenoms
      (hookConvert k s pair contract fromAddr tokens).bank := by
  unfold hookConvert
  split
  · exact .refl _
  next middle minted =>
  have first : s.bank.Changed {k.moduleAddress.bytes} s.externalDenoms middle.bank := by
    unfold hookMint at minted
    cases owner : pair.contractOwner with
    | unspecified => simp [owner] at minted
    | module =>
      simp only [owner] at minted
      obtain ⟨⟨res, evm⟩, -, same⟩ := bind_eq_ok.mp minted
      obtain rfl := Except.ok.inj same
      exact .refl _
    | external =>
      simp only [owner] at minted
      obtain rfl := Except.ok.inj minted
      refine .of_mintCoins _ _ ?_
      intro denom some
      exact ⟨id, pair, stored, owner, (Coins.eq_of_ofCoin_ne_zero some).symm⟩
  -- The second half may fail, and then the first one stays.
  dsimp only
  split
  · exact first
  · next bank sent => exact first.trans (.of_sendCoinsFromModuleToAccount rfl sent)

theorem processLog_changed (k : Keeper) (s : State) (log : Log) :
    s.bank.Changed {k.moduleAddress.bytes} s.externalDenoms (processLog k s log).bank := by
  unfold processLog
  -- Only a transfer to the module of a registered pair is converted.
  split
  · split
    · split
      · exact .refl _
      split
      · exact .refl _
      split
      · exact .refl _
      next stored =>
      split_ifs
      · exact .refl _
      · exact .refl _
      · exact hookConvert_changed stored _ _ _
    · exact .refl _
  · exact .refl _

/-- All logs are converted at the cost of the module account. -/
theorem processLogs_changed (k : Keeper) (logs : List Log) (s : State) :
    s.bank.Changed {k.moduleAddress.bytes} s.externalDenoms
      (logs.foldl (processLog k) s).bank := by
  induction logs generalizing s with
  | nil => exact .refl _
  | cons log logs ih =>
    -- No log changes the pairs, so the coins that may be issued stay the same.
    have pairs := (processLog_untouched (k := k) s log).tokenPairs
    have denoms : (processLog k s log).externalDenoms = s.externalDenoms := by
      unfold State.externalDenoms
      rw [pairs]
    have first := processLog_changed k s log
    have rest := ih (processLog k s log)
    rw [denoms] at rest
    exact first.trans rest

/-- The hook is paid for by the module account, with coins that it may have minted. -/
theorem postTxProcessing_changed (k : Keeper) (s : State) (logs : List Log) :
    s.bank.Changed {k.moduleAddress.bytes} s.externalDenoms (postTxProcessing k s logs).bank := by
  unfold postTxProcessing
  split
  · exact .refl _
  · exact processLogs_changed k logs s

theorem registerCoin_bank {coinMetadata : Metadata}
    (registered : registerCoin k s coinMetadata = .ok (pair, after)) : after.bank = s.bank := by
  obtain ⟨-, noted, addr, evm, verified, -, -, rfl⟩ := registerCoin_ok registered
  -- The metadata is looked at, or stored beside the bank.
  show noted.bank = s.bank
  unfold verifyMetadata at verified
  split at verified
  · obtain rfl := Except.ok.inj verified
    rfl
  · obtain ⟨_, -, verified⟩ := bind_eq_ok.mp verified
    obtain rfl := Except.ok.inj verified
    rfl

theorem registerERC20_bank {contract : EthAddress}
    (registered : registerERC20 k s contract = .ok (pair, after)) : after.bank = s.bank := by
  obtain ⟨-, -, -, -, -, metadata, -, rfl⟩ := registerERC20_ok registered
  rfl

/-- The accounts that a call takes coins from, unless others have acted. -/
def Call.payers (k : Keeper) (call : Call) : Set Address :=
  match call.action with
  | .convertCoin msg =>
    {addr | addr = k.moduleAddress.bytes ∨ k.bech32.decode msg.sender = some addr}
  | .convertERC20 _ => {k.moduleAddress.bytes}
  | .transaction _ => {k.moduleAddress.bytes}
  | _ => ∅

/-- The denominations that a call mints or burns, unless others have acted. -/
def Call.issues (k : Keeper) (call : Call) : Set Denom :=
  match call.action with
  | .convertCoin msg => msg.burns k
  | .convertERC20 _ => {denom | ∃ contract, denom = createDenom (k.format.spell contract)}
  | .transaction _ => {denom | ∃ contract, denom = createDenom (k.format.spell contract)}
  | _ => ∅

theorem Registry.externalDenoms_subset (registry : Registry k s) :
    s.externalDenoms ⊆ {denom | ∃ contract, denom = createDenom (k.format.spell contract)} := by
  rintro _ ⟨id, pair, stored, owner, rfl⟩
  exact ⟨pair.getERC20Contract, (registry.denom stored owner).2⟩

/-- Only conversions move coins, and coins of contracts alone are minted. -/
theorem Step.changed {call : Call} (registry : Registry k s)
    (own : ∀ params bank, call.action ≠ .others params bank) (taken : Step k s call after) :
    s.bank.Changed (call.payers k) (call.issues k) after.bank := by
  -- Registering and switching leave the bank alone.
  cases taken with
  | registerCoin registered =>
    rw [registerCoin_bank registered]
    exact .refl _
  | registerERC20 registered =>
    rw [registerERC20_bank registered]
    exact .refl _
  | toggleConversion toggled =>
    obtain ⟨found, -, -, rfl⟩ := toggleConversion_ok toggled
    exact .refl _
  | convertCoin _ _ converted => exact convertCoin_changed registry converted
  | convertERC20 _ _ converted =>
    exact (convertERC20_changed converted).mono subset_rfl registry.externalDenoms_subset
  | @transaction _ ops evm logs ran =>
    have processed := postTxProcessing_changed k { s with evm := evm } logs
    exact processed.mono subset_rfl registry.externalDenoms_subset
  | others => exact absurd rfl (own _ _)

end Evmos.Erc20
