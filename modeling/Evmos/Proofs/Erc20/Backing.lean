import Evmos.Proofs.Erc20.Outcome

/-! Every conversion keeps the escrow above what was issued against it, on both ledgers. -/

namespace Evmos.Erc20

open Library

/-- The supply of a pair's contract, if the module has deployed it for the denomination. -/
def mintedBy (evm : Evm) (denom : Denom) (pair : TokenPair) : ℕ :=
  if pair.contractOwner = .module ∧ pair.denom = denom then totalSupply evm pair.getERC20Contract
  else 0

/-- The supply of all contracts that the module has deployed for a denomination. -/
def State.minted (s : State) (denom : Denom) : ℕ :=
  s.tokenPairs.total fun _ pair => mintedBy s.evm denom pair

/-- The coins that stand for the tokens of a contract. -/
def State.issued (k : Keeper) (s : State) (contract : EthAddress) : ℕ :=
  s.bank.supply (createDenom (k.format.spell contract))

/--
Both ledgers are covered.

Transfers that the hook has not yet processed are pending: the tokens have arrived, and no coins
were minted for them.
-/
structure Backed (k : Keeper) (pending : EthAddress → ℕ) (s : State) : Prop where
  registry : Registry k s
  unapproved : s.evm.Unapproved k.moduleAddress
  coins : ∀ denom, s.minted denom ≤ s.bank.balances k.moduleAddress.bytes denom
  tokens : ∀ contract,
    Backs k.moduleAddress (s.issued k contract + pending contract) (s.evm.contracts contract)

section Contracts

variable {k : Keeper} {s : State} {id : ℕ} {pair : TokenPair}

theorem Registry.contract (registry : Registry k s) (stored : s.tokenPairs.get? id = some pair)
    (owner : pair.contractOwner = .module) :
    ∃ data token, s.evm.contracts pair.getERC20Contract = some (.minterBurner data token) := by
  have owned := (registry.registered id pair stored).owned
  simp only [OwnedAs, owner] at owned
  obtain ⟨supply, owns⟩ := owned
  -- Only a contract of the module has an owned supply.
  rcases found : s.evm.contracts pair.getERC20Contract with _ | _ | _ | _
  · simp [found, Owns] at owns
  · exact ⟨_, _, rfl⟩
  · simp [found, Owns] at owns
  · simp [found, Owns] at owns

theorem Registry.denom (registry : Registry k s) (stored : s.tokenPairs.get? id = some pair)
    (owner : pair.contractOwner = .external) :
    s.evm.contracts pair.getERC20Contract ≠ none ∧
      pair.denom = createDenom (k.format.spell pair.getERC20Contract) := by
  have owned := (registry.registered id pair stored).owned
  simp only [OwnedAs, owner] at owned
  exact ⟨owned.1, owned.2.1⟩

theorem minted_le (registry : Registry k s) {evm : Evm}
    (owns : ∀ address supply, Owns supply (s.evm.contracts address) →
      Owns supply (evm.contracts address)) (denom : Denom) :
    State.minted { s with evm := evm } denom ≤ s.minted denom := by
  refine Store.total_le_total _ ?_
  intro id pair stored
  -- Pair by pair: only those of the module count towards the coin.
  unfold mintedBy
  split_ifs with counted
  · obtain ⟨data, token, found⟩ := registry.contract stored counted.1
    have bounded : Owns token.totalSupply (s.evm.contracts pair.getERC20Contract) := by
      rw [found]
      exact le_rfl
    have after := owns _ _ bounded
    rcases now : evm.contracts pair.getERC20Contract with _ | _ | _ | _
    · simp [now, Owns] at after
    · simp only [now, Owns] at after
      simpa [totalSupply, now, found] using after
    · simp [now, Owns] at after
    · simp [now, Owns] at after
  · exact le_rfl

/-- When the ledger of one contract changes, so does what is minted for its denomination. -/
theorem minted_setContract (registry : Registry k s) (stored : s.tokenPairs.get? id = some pair)
    (owner : pair.contractOwner = .module) {data : ERC20Data} {token : Token EthAddress}
    (found : s.evm.contracts pair.getERC20Contract = some (.minterBurner data token))
    (changed : Token EthAddress) (denom : Denom) :
    State.minted
        { s with evm := s.evm.setContract pair.getERC20Contract (.minterBurner data changed) } denom +
        (if pair.denom = denom then token.totalSupply else 0) =
      s.minted denom + if pair.denom = denom then changed.totalSupply else 0 := by
  have change := s.tokenPairs.total_change (fun _ pair => mintedBy s.evm denom pair)
    (fun _ other => mintedBy
      (s.evm.setContract pair.getERC20Contract (.minterBurner data changed)) denom other) stored
  have before : mintedBy s.evm denom pair = if pair.denom = denom then token.totalSupply else 0 := by
    simp [mintedBy, owner, totalSupply, found]
  have after : mintedBy (s.evm.setContract pair.getERC20Contract (.minterBurner data changed)) denom
      pair = if pair.denom = denom then changed.totalSupply else 0 := by
    simp [mintedBy, owner, totalSupply, Evm.setContract]
  rw [before, after] at change
  refine change ?_
  -- The other pairs have other contracts.
  intro rest other otherStored apart
  have elsewhere : other.getERC20Contract ≠ pair.getERC20Contract := by
    intro same
    exact apart (registry.unique otherStored stored same)
  simp [mintedBy, totalSupply, Evm.setContract, elsewhere]

end Contracts

namespace Backed

variable {k : Keeper} {s : State} {pending : EthAddress → ℕ}

theorem evolve (backed : Backed k pending s) {receives : EthAddress → ℕ} {evm : Evm}
    (unapproved : evm.Unapproved k.moduleAddress)
    (evolves : Evolves k.moduleAddress receives s.evm evm) :
    Backed k (pending + receives) { s with evm := evm } where
  registry := backed.registry.evolve evolves
  unapproved := unapproved
  coins denom := (minted_le backed.registry evolves.owns denom).trans (backed.coins denom)
  tokens contract := by
    -- What is transferred to the module account is added to what is pending.
    have covered := evolves.backs contract _ (backed.tokens contract)
    rw [add_assoc] at covered
    exact covered

/-- Coins move so that the escrow does not shrink, and are minted for what is pending only. -/
theorem setBank (backed : Backed k pending s) {bank : Bank} {rest : EthAddress → ℕ}
    (escrow : ∀ denom, s.bank.balances k.moduleAddress.bytes denom ≤
      bank.balances k.moduleAddress.bytes denom)
    (supply : ∀ contract, State.issued k { s with bank := bank } contract + rest contract ≤
      s.issued k contract + pending contract) :
    Backed k rest { s with bank := bank } where
  registry := backed.registry.untouched (.ofPersists (.refl _) _ _)
  unapproved := backed.unapproved
  coins denom := (backed.coins denom).trans (escrow denom)
  tokens contract := (backed.tokens contract).mono (supply contract)

/-- The ledger of a module's contract changes no more than the escrow of its coin. -/
theorem setLedger (backed : Backed k pending s) {id : ℕ} {pair : TokenPair}
    (stored : s.tokenPairs.get? id = some pair) (owner : pair.contractOwner = .module)
    {data : ERC20Data} {token changed : Token EthAddress}
    (found : s.evm.contracts pair.getERC20Contract = some (.minterBurner data token)) {bank : Bank}
    (supply : bank.supply = s.bank.supply)
    (escrow : ∀ denom,
      s.bank.balances k.moduleAddress.bytes denom +
          (if pair.denom = denom then changed.totalSupply else 0) ≤
        bank.balances k.moduleAddress.bytes denom +
          if pair.denom = denom then token.totalSupply else 0) :
    Backed k pending { s with
      bank := bank
      evm := s.evm.setContract pair.getERC20Contract (.minterBurner data changed) } where
  registry := by
    refine backed.registry.untouched (.ofPersists (.setContract ?_) _ _)
    exact fun _ _ => ⟨changed.totalSupply, le_rfl⟩
  unapproved := backed.unapproved.setContract nofun
  coins denom := by
    have change := minted_setContract backed.registry stored owner found changed denom
    have before := backed.coins denom
    have paid := escrow denom
    change State.minted { s with
      evm := s.evm.setContract pair.getERC20Contract (.minterBurner data changed) } denom ≤
        bank.balances k.moduleAddress.bytes denom
    omega
  tokens contract := by
    -- The contract is the module's, so it backs no coin, and the others are unchanged.
    by_cases here : contract = pair.getERC20Contract
    · simp [here, Evm.setContract, Backs]
    · have same : State.issued k { s with
          bank := bank
          evm := s.evm.setContract pair.getERC20Contract (.minterBurner data changed) } contract =
          s.issued k contract := by
        simp [State.issued, supply]
      rw [same]
      simpa [Evm.setContract, here] using backed.tokens contract

end Backed

namespace Backed

variable {k : Keeper} {s : State} {pending : EthAddress → ℕ} {id : ℕ} {pair : TokenPair}
  {bank : Bank} {res : Response} {evm : Evm}

/-- Escrowing coins and minting as many tokens, for a message in the pair's own coin. -/
theorem convertCoinNativeCoin (backed : Backed k 0 s) (stored : s.tokenPairs.get? id = some pair)
    (owner : pair.contractOwner = .module) {coin : Coin} (own : pair.denom = coin.denom)
    {sender : Address} (signed : sender ≠ k.moduleAddress.bytes) {locked : Coins}
    (sent : s.bank.sendCoinsFromAccountToModule locked sender k.moduleAddress.bytes
      coin.toCoins = .ok bank) {receiver : EthAddress}
    (called : s.evm.applyMessage k.moduleAddress k.program k.moduleAddress pair.getERC20Contract
      (.mint receiver coin.amount.toNat) = .ok (res, evm)) :
    Backed k 0 { s with bank := bank, evm := evm } := by
  obtain ⟨supply, balance⟩ := Bank.sendCoinsFromAccountToModule_ok signed sent
  obtain ⟨data, token, found⟩ := backed.registry.contract stored owner
  obtain ⟨changed, events, ran, rfl⟩ := applyMessage_minterBurner found called
  have total := execToken_mint ran
  -- Both the escrow and the supply of the contract grow by the amount.
  refine backed.setLedger stored owner found supply ?_
  intro denom
  rw [balance denom, Coin.toCoins, Coins.ofCoin_apply, ← own, total]
  by_cases here : pair.denom = denom
  · simp only [here, if_true]
    omega
  · simp [here, Ne.symm here]

theorem convertERC20NativeCoin (backed : Backed k 0 s) (stored : s.tokenPairs.get? id = some pair)
    (owner : pair.contractOwner = .module) {sender : EthAddress} {amount : ℕ}
    (called : s.evm.applyMessage k.moduleAddress k.program k.moduleAddress pair.getERC20Contract
      (.burnCoins sender amount) = .ok (res, evm)) {receiver : Address}
    (sent : s.bank.sendCoinsFromModuleToAccount k.bech32 k.blockedAddr k.moduleAddress.bytes
      receiver (Coins.ofCoin pair.denom amount) = .ok bank) :
    Backed k 0 { s with bank := bank, evm := evm } := by
  obtain ⟨supply, balance⟩ := Bank.sendCoinsFromModuleToAccount_ok sent
  obtain ⟨data, token, found⟩ := backed.registry.contract stored owner
  obtain ⟨changed, events, ran, rfl⟩ := applyMessage_minterBurner found called
  have total := execToken_burnCoins ran
  -- The escrow loses at most what the supply of the contract loses.
  refine backed.setLedger stored owner found supply ?_
  intro denom
  have paid := balance denom
  rw [Coins.ofCoin_apply] at paid
  by_cases here : pair.denom = denom
  · simp only [here, if_true] at paid ⊢
    omega
  · simp only [here, Ne.symm here, if_false] at paid ⊢
    omega

theorem issued_mint (backed : Backed k pending s) (stored : s.tokenPairs.get? id = some pair)
    (owner : pair.contractOwner = .external) (amount : ℕ) (contract : EthAddress) :
    (Coins.ofCoin pair.denom amount) (createDenom (k.format.spell contract)) =
      (Pi.single pair.getERC20Contract amount : EthAddress → ℕ) contract := by
  rw [Coins.ofCoin_apply, (backed.registry.denom stored owner).2, Pi.single_apply]
  congr 1
  exact propext ((createDenom_spell_injective k.format).eq_iff)

theorem convertERC20NativeToken (backed : Backed k 0 s) (stored : s.tokenPairs.get? id = some pair)
    (owner : pair.contractOwner = .external) {sender : EthAddress}
    (signed : sender ≠ k.moduleAddress) {amount : ℕ}
    (called : s.evm.applyMessage k.moduleAddress k.program sender pair.getERC20Contract
      (.token (.transfer k.moduleAddress amount)) = .ok (res, evm)) {receiver : Address}
    (sent : (s.bank.mintCoins k.moduleAddress.bytes
      (Coins.ofCoin pair.denom amount)).sendCoinsFromModuleToAccount k.bech32 k.blockedAddr
        k.moduleAddress.bytes receiver (Coins.ofCoin pair.denom amount) = .ok bank) :
    Backed k 0 { s with bank := bank, evm := evm } := by
  -- The tokens arrive first, and the coins are minted for them.
  obtain ⟨unapproved, evolves⟩ := applyMessage_deposit k.moduleAddress_ne_zero signed
    backed.unapproved (backed.registry.denom stored owner).1 called
  have arrived := backed.evolve unapproved evolves
  obtain ⟨supply, balance⟩ := Bank.sendCoinsFromModuleToAccount_ok sent
  refine arrived.setBank ?_ ?_
  · intro denom
    have paid := balance denom
    rw [Bank.mintCoins_balances] at paid
    exact Nat.le_of_add_le_add_right paid
  · intro contract
    simp only [State.issued, supply, Bank.mintCoins_supply, Pi.add_apply, Pi.zero_apply]
    rw [backed.issued_mint stored owner]
    omega

/-- Returning tokens and burning as many coins, for a message in the pair's own coin. -/
theorem convertCoinNativeERC20 (backed : Backed k 0 s) (stored : s.tokenPairs.get? id = some pair)
    (owner : pair.contractOwner = .external) {coin : Coin} (own : pair.denom = coin.denom)
    {sender : Address} (signed : sender ≠ k.moduleAddress.bytes) {locked : Coins} {burnt : Bank}
    (sent : s.bank.sendCoinsFromAccountToModule locked sender k.moduleAddress.bytes
      coin.toCoins = .ok bank) {receiver : EthAddress}
    (called : s.evm.applyMessage k.moduleAddress k.program k.moduleAddress pair.getERC20Contract
      (.token (.transfer receiver coin.amount.toNat)) = .ok (res, evm))
    (burns : bank.burnCoins k.moduleAddress.bytes coin.toCoins = .ok burnt) :
    Backed k 0 { s with bank := burnt, evm := evm } := by
  obtain ⟨sameSupply, balance⟩ := Bank.sendCoinsFromAccountToModule_ok signed sent
  have burn := Bank.burnCoins_ok burns
  obtain ⟨unapproved, covers, owns, present⟩ := applyMessage_withdraw k.moduleAddress_ne_zero
    backed.unapproved called
  refine ⟨?_, unapproved, ?_, ?_⟩
  · exact backed.registry.untouched (.ofPersists (applyMessage_persists called) _ _)
  · -- The coins that came in are the ones that are burned.
    intro denom
    have kept := (minted_le backed.registry owns denom).trans (backed.coins denom)
    have gone := (burn denom).2
    rw [balance denom] at gone
    rw [Nat.add_right_cancel gone]
    exact kept
  · intro contract
    refine covers contract _ ?_
    have gone := (burn (createDenom (k.format.spell contract))).1
    rw [sameSupply, Coin.toCoins, ← own, backed.issued_mint stored owner] at gone
    have before := backed.tokens contract
    simp only [State.issued, Pi.zero_apply, add_zero] at before ⊢
    rwa [gone]

theorem deleteTokenPair (backed : Backed k 0 s) (stored : s.tokenPairs.get? id = some pair)
    (gone : s.evm.isContract pair.getERC20Contract = false) :
    Backed k 0 (s.deleteTokenPair k.sum pair) := by
  have external := backed.registry.external_of_gone stored gone
  refine ⟨backed.registry.deleteTokenPair stored external, backed.unapproved, ?_, backed.tokens⟩
  intro denom
  refine le_trans ?_ (backed.coins denom)
  -- The sum over the pairs loses a summand.
  have split := s.tokenPairs.total_delete (fun _ pair => mintedBy s.evm denom pair)
    (pair.getID k.sum)
  exact (Nat.le_add_right _ _).trans split.le

end Backed

end Evmos.Erc20
