import Evmos.Proofs.Erc20.Registry

/-! What each call can do to the registry: register a pair, switch or remove one, or nothing. -/

namespace Evmos.Erc20

open Library

/-- The registry is as it was, and what it relies on is still there. -/
structure Untouched (s after : State) : Prop where
  tokenPairs : after.tokenPairs = s.tokenPairs
  erc20Map : after.erc20Map = s.erc20Map
  denomMap : after.denomMap = s.denomMap
  metadata : ∀ denom found, s.denomMetadata.get? denom = some found →
    after.denomMetadata.get? denom = some found
  persists : Persists s.evm after.evm

namespace Untouched

variable {s : State}

theorem refl (s : State) : Untouched s s := ⟨rfl, rfl, rfl, fun _ _ found => found, .refl _⟩

theorem trans {middle after : State} (earlier : Untouched s middle)
    (later : Untouched middle after) : Untouched s after where
  tokenPairs := later.tokenPairs.trans earlier.tokenPairs
  erc20Map := later.erc20Map.trans earlier.erc20Map
  denomMap := later.denomMap.trans earlier.denomMap
  metadata denom found stored := later.metadata denom found (earlier.metadata denom found stored)
  persists := earlier.persists.trans later.persists

theorem ofPersists {evm : Evm} (persists : Persists s.evm evm) (params : Params) (bank : Bank) :
    Untouched s { s with params := params, bank := bank, evm := evm } :=
  ⟨rfl, rfl, rfl, fun _ _ found => found, persists⟩

theorem setMetadata {denom : Denom} (absent : s.denomMetadata.get? denom = none)
    (metadata : Metadata) :
    Untouched s { s with denomMetadata := s.denomMetadata.set denom metadata } where
  tokenPairs := rfl
  erc20Map := rfl
  denomMap := rfl
  metadata other found stored := by
    -- Metadata that was found is not that of the denomination.
    have apart : other ≠ denom := by
      intro same
      rw [same, absent] at stored
      cases stored
    rw [Store.get?_set_of_ne _ apart]
    exact stored
  persists := .refl _

end Untouched

theorem Registry.untouched {k : Keeper} {s after : State} (registry : Registry k s)
    (untouched : Untouched s after) : Registry k after :=
  registry.congr untouched.tokenPairs untouched.erc20Map untouched.denomMap untouched.metadata
    untouched.persists.owns untouched.persists.present

section Calls

variable {k : Keeper} {evm after : Evm} {fromAddr contract : EthAddress} {method : Method}
  {res : Response}

theorem callEVMWithData_ok
    (called : callEVMWithData k evm fromAddr contract true method = .ok (res, after)) :
    evm.applyMessage k.moduleAddress k.program fromAddr contract method = .ok (res, after) := by
  unfold callEVMWithData at called
  split at called
  · cases called
  · rename_i applied
    rw [applied]
    exact congrArg _ (Except.ok.inj called)

theorem callEVM_ok (called : callEVM k evm fromAddr contract true method = .ok (res, after)) :
    evm.applyMessage k.moduleAddress k.program fromAddr contract method = .ok (res, after) :=
  callEVMWithData_ok (wrap_eq_ok.mp called)

end Calls

section Conversion

variable {k : Keeper} {ctx : Context} {s after : State} {pair : TokenPair}

theorem mintingEnabled_ok {sender receiver : Address} {token : String}
    (enabled : mintingEnabled k ctx s sender receiver token = .ok pair) :
    findTokenPair s token = .ok pair := by
  unfold mintingEnabled at enabled
  split at enabled
  · cases enabled
  -- The other checks return no pair.
  obtain ⟨found, looked, same⟩ := bind_eq_ok.mp enabled
  split_ifs at same
  obtain rfl := Except.ok.inj same
  exact looked

/-- What a conversion of coins has done. -/
inductive ConvertsCoin (k : Keeper) (ctx : Context) (s : State) (msg : MsgConvertCoin) :
    State → Prop where
  /-- The pair of a contract that is no more is removed, and no coins move. -/
  | removed {pair : TokenPair} (found : findTokenPair s msg.coin.denom = .ok pair)
      (gone : s.evm.isContract pair.getERC20Contract = false) :
      ConvertsCoin k ctx s msg (s.deleteTokenPair k.sum pair)
  /-- The coins are escrowed, and tokens are minted. -/
  | escrowed {sender : Address} {pair : TokenPair} {bank : Bank} {res : Response} {evm : Evm}
      (decoded : k.bech32.decode msg.sender = some sender)
      (found : findTokenPair s msg.coin.denom = .ok pair) (owner : pair.contractOwner = .module)
      (sent : s.bank.sendCoinsFromAccountToModule (ctx.lockedCoins sender) sender
        k.moduleAddress.bytes msg.coin.toCoins = .ok bank)
      (called : s.evm.applyMessage k.moduleAddress k.program k.moduleAddress pair.getERC20Contract
        (.mint (hexToAddress msg.receiver) msg.coin.amount.toNat) = .ok (res, evm)) :
      ConvertsCoin k ctx s msg { s with bank := bank, evm := evm }
  /-- The coins are escrowed and then burned, and tokens are returned. -/
  | burned {sender : Address} {pair : TokenPair} {bank burnt : Bank} {res : Response} {evm : Evm}
      (decoded : k.bech32.decode msg.sender = some sender)
      (found : findTokenPair s msg.coin.denom = .ok pair) (owner : pair.contractOwner = .external)
      (sent : s.bank.sendCoinsFromAccountToModule (ctx.lockedCoins sender) sender
        k.moduleAddress.bytes msg.coin.toCoins = .ok bank)
      (called : s.evm.applyMessage k.moduleAddress k.program k.moduleAddress pair.getERC20Contract
        (.token (.transfer (hexToAddress msg.receiver) msg.coin.amount.toNat)) = .ok (res, evm))
      (burns : bank.burnCoins k.moduleAddress.bytes msg.coin.toCoins = .ok burnt) :
      ConvertsCoin k ctx s msg { s with bank := burnt, evm := evm }

/-- What a conversion of tokens has done. -/
inductive ConvertsERC20 (k : Keeper) (s : State) (msg : MsgConvertERC20) : State → Prop where
  /-- The pair of a contract that is no more is removed, and no tokens move. -/
  | removed {pair : TokenPair} (found : findTokenPair s msg.contractAddress = .ok pair)
      (gone : s.evm.isContract pair.getERC20Contract = false) :
      ConvertsERC20 k s msg (s.deleteTokenPair k.sum pair)
  /-- Tokens are burned, and escrowed coins are returned. -/
  | returned {receiver : Address} {pair : TokenPair} {bank : Bank} {res : Response} {evm : Evm}
      (found : findTokenPair s msg.contractAddress = .ok pair)
      (owner : pair.contractOwner = .module)
      (called : s.evm.applyMessage k.moduleAddress k.program k.moduleAddress pair.getERC20Contract
        (.burnCoins (hexToAddress msg.sender) msg.amount.toNat) = .ok (res, evm))
      (sent : s.bank.sendCoinsFromModuleToAccount k.bech32 k.blockedAddr k.moduleAddress.bytes
        receiver (Coins.ofCoin pair.denom msg.amount.toNat) = .ok bank) :
      ConvertsERC20 k s msg { s with bank := bank, evm := evm }
  /-- Tokens are escrowed, and coins are minted. -/
  | minted {receiver : Address} {pair : TokenPair} {bank : Bank} {res : Response} {evm : Evm}
      (found : findTokenPair s msg.contractAddress = .ok pair)
      (owner : pair.contractOwner = .external)
      (called : s.evm.applyMessage k.moduleAddress k.program (hexToAddress msg.sender)
        pair.getERC20Contract (.token (.transfer k.moduleAddress msg.amount.toNat)) =
          .ok (res, evm))
      (sent : (s.bank.mintCoins k.moduleAddress.bytes
        (Coins.ofCoin pair.denom msg.amount.toNat)).sendCoinsFromModuleToAccount k.bech32
          k.blockedAddr k.moduleAddress.bytes receiver
          (Coins.ofCoin pair.denom msg.amount.toNat) = .ok bank) :
      ConvertsERC20 k s msg { s with bank := bank, evm := evm }

/-- A conversion of coins does one of these things. -/
theorem convertCoin_converts {msg : MsgConvertCoin}
    (converted : convertCoin k ctx s msg = .ok after) : ConvertsCoin k ctx s msg after := by
  obtain ⟨sender, decoded, converted⟩ := bind_eq_ok.mp converted
  rw [orPanic_eq_ok] at decoded
  obtain ⟨pair, enabled, converted⟩ := bind_eq_ok.mp converted
  have found := mintingEnabled_ok enabled
  split_ifs at converted with gone
  · obtain rfl := Except.ok.inj converted
    exact .removed found (by simpa using gone)
  -- The balances of tokens before and after are only compared.
  cases owner : pair.contractOwner with
  | unspecified => simp [owner] at converted
  | module =>
    simp only [owner] at converted
    obtain ⟨balanceToken, -, converted⟩ := bind_eq_ok.mp converted
    obtain ⟨bank, escrowed, converted⟩ := bind_eq_ok.mp converted
    obtain ⟨⟨res, evm⟩, called, converted⟩ := bind_eq_ok.mp converted
    obtain ⟨balanceTokenAfter, -, converted⟩ := bind_eq_ok.mp converted
    obtain ⟨-, -, same⟩ := bind_eq_ok.mp converted
    obtain rfl := Except.ok.inj same
    exact .escrowed decoded found owner (wrap_eq_ok.mp escrowed) (callEVM_ok called)
  | external =>
    simp only [owner] at converted
    obtain ⟨balanceToken, -, converted⟩ := bind_eq_ok.mp converted
    obtain ⟨bank, escrowed, converted⟩ := bind_eq_ok.mp converted
    obtain ⟨⟨res, evm⟩, called, converted⟩ := bind_eq_ok.mp converted
    obtain ⟨transferred, -, converted⟩ := bind_eq_ok.mp converted
    split_ifs at converted
    obtain ⟨balanceTokenAfter, -, converted⟩ := bind_eq_ok.mp converted
    obtain ⟨-, -, converted⟩ := bind_eq_ok.mp converted
    obtain ⟨burnt, burned, converted⟩ := bind_eq_ok.mp converted
    obtain ⟨-, -, same⟩ := bind_eq_ok.mp converted
    obtain rfl := Except.ok.inj same
    exact .burned decoded found owner (wrap_eq_ok.mp escrowed) (callEVM_ok called)
      (wrap_eq_ok.mp burned)

/-- A conversion of tokens does one of these things. -/
theorem convertERC20_converts {msg : MsgConvertERC20}
    (converted : convertERC20 k ctx s msg = .ok after) : ConvertsERC20 k s msg after := by
  obtain ⟨receiver, -, converted⟩ := bind_eq_ok.mp converted
  obtain ⟨pair, enabled, converted⟩ := bind_eq_ok.mp converted
  have found := mintingEnabled_ok enabled
  split_ifs at converted with gone
  · obtain rfl := Except.ok.inj converted
    exact .removed found (by simpa using gone)
  -- The balances on both sides are only compared.
  cases owner : pair.contractOwner with
  | unspecified => simp [owner] at converted
  | module =>
    simp only [owner] at converted
    obtain ⟨balanceToken, -, converted⟩ := bind_eq_ok.mp converted
    obtain ⟨⟨res, evm⟩, called, converted⟩ := bind_eq_ok.mp converted
    obtain ⟨bank, sent, converted⟩ := bind_eq_ok.mp converted
    obtain ⟨-, -, converted⟩ := bind_eq_ok.mp converted
    obtain ⟨balanceTokenAfter, -, converted⟩ := bind_eq_ok.mp converted
    split_ifs at converted
    obtain ⟨-, -, same⟩ := bind_eq_ok.mp converted
    obtain rfl := Except.ok.inj same
    exact .returned found owner (callEVM_ok called) sent
  | external =>
    simp only [owner] at converted
    obtain ⟨balanceToken, -, converted⟩ := bind_eq_ok.mp converted
    obtain ⟨⟨res, evm⟩, called, converted⟩ := bind_eq_ok.mp converted
    obtain ⟨transferred, -, converted⟩ := bind_eq_ok.mp converted
    split_ifs at converted
    obtain ⟨balanceTokenAfter, -, converted⟩ := bind_eq_ok.mp converted
    obtain ⟨-, -, converted⟩ := bind_eq_ok.mp converted
    obtain ⟨bank, sent, converted⟩ := bind_eq_ok.mp converted
    obtain ⟨-, -, converted⟩ := bind_eq_ok.mp converted
    obtain ⟨-, -, same⟩ := bind_eq_ok.mp converted
    obtain rfl := Except.ok.inj same
    exact .minted found owner (callEVMWithData_ok called) sent

/-- A conversion leaves the registry alone, or removes the pair of a contract that is no more. -/
inductive Converted (k : Keeper) (s : State) : State → Prop where
  | untouched {after : State} (kept : Untouched s after) : Converted k s after
  | removed {token : String} {pair : TokenPair} (found : findTokenPair s token = .ok pair)
      (gone : s.evm.isContract pair.getERC20Contract = false) :
      Converted k s (s.deleteTokenPair k.sum pair)

theorem convertCoin_converted {msg : MsgConvertCoin}
    (converted : convertCoin k ctx s msg = .ok after) : Converted k s after := by
  cases convertCoin_converts converted with
  | removed found gone => exact .removed found gone
  | escrowed _ _ _ _ called => exact .untouched (.ofPersists (applyMessage_persists called) _ _)
  | burned _ _ _ _ called => exact .untouched (.ofPersists (applyMessage_persists called) _ _)

theorem convertERC20_converted {msg : MsgConvertERC20}
    (converted : convertERC20 k ctx s msg = .ok after) : Converted k s after := by
  cases convertERC20_converts converted with
  | removed found gone => exact .removed found gone
  | returned _ _ called => exact .untouched (.ofPersists (applyMessage_persists called) _ _)
  | minted _ _ called => exact .untouched (.ofPersists (applyMessage_persists called) _ _)

end Conversion

section Hook

variable {k : Keeper} {s : State}

theorem hookMint_untouched {pair : TokenPair} {contract : EthAddress} {tokens : ℕ} {after : State}
    (minted : hookMint k s pair contract tokens = .ok after) : Untouched s after := by
  unfold hookMint at minted
  -- A pair of the module burns tokens, and an external one mints coins.
  cases owner : pair.contractOwner with
  | unspecified => simp [owner] at minted
  | module =>
    simp only [owner] at minted
    obtain ⟨⟨res, evm⟩, called, same⟩ := bind_eq_ok.mp minted
    obtain rfl := Except.ok.inj same
    exact .ofPersists (applyMessage_persists (callEVM_ok called)) _ _
  | external =>
    simp only [owner] at minted
    obtain rfl := Except.ok.inj minted
    exact .ofPersists (.refl _) _ _

theorem hookConvert_untouched (pair : TokenPair) (contract fromAddr : EthAddress) (tokens : ℕ) :
    Untouched s (hookConvert k s pair contract fromAddr tokens) := by
  unfold hookConvert
  -- Either half may fail, and a failure of the second keeps the first.
  split
  · exact .refl s
  · rename_i middle minted
    have first := hookMint_untouched minted
    simp only
    split
    · exact first
    · exact first.trans (.ofPersists (.refl _) _ _)

theorem processLog_untouched (s : State) (log : Log) : Untouched s (processLog k s log) := by
  unfold processLog
  -- All branches but the last ignore the log.
  split
  · split
    · split
      · exact .refl s
      split
      · exact .refl s
      split
      · exact .refl s
      split_ifs
      · exact .refl s
      · exact .refl s
      · exact hookConvert_untouched _ _ _ _
    · exact .refl s
  · exact .refl s

theorem processLogs_untouched (logs : List Log) (s : State) :
    Untouched s (logs.foldl (processLog k) s) := by
  induction logs generalizing s with
  | nil => exact .refl s
  | cons log logs ih => exact (processLog_untouched s log).trans (ih (processLog k s log))

theorem postTxProcessing_untouched (s : State) (logs : List Log) :
    Untouched s (postTxProcessing k s logs) := by
  unfold postTxProcessing
  split_ifs
  · exact .refl s
  · exact processLogs_untouched logs s

end Hook

section Registration

variable {k : Keeper} {s after : State} {pair : TokenPair} {coinMetadata : Metadata}

theorem equalMetadata_name {a b : Metadata} (equal : equalMetadata a b = .ok ()) :
    a.name = b.name := by
  unfold equalMetadata at equal
  split_ifs at equal with fields
  exact fields.2.2.2.1

/-- The metadata of a coin that is registered is noted, or has the name of what was noted. -/
theorem verifyMetadata_ok (verified : verifyMetadata s coinMetadata = .ok after) :
    (∃ metadata, after = { s with denomMetadata := metadata }) ∧ Untouched s after ∧
      ∀ found, s.denomMetadata.get? coinMetadata.base = some found →
        found.name = coinMetadata.name := by
  unfold verifyMetadata at verified
  -- The denomination has no metadata, or some that must be equal.
  split at verified
  · rename_i absent
    obtain rfl := Except.ok.inj verified
    refine ⟨⟨_, rfl⟩, .setMetadata absent _, ?_⟩
    intro found stored
    rw [absent] at stored
    cases stored
  · rename_i known stored
    obtain ⟨checked, equal, same⟩ := bind_eq_ok.mp verified
    obtain rfl := Except.ok.inj same
    refine ⟨⟨_, rfl⟩, .refl _, ?_⟩
    intro found again
    rw [stored] at again
    obtain rfl := Option.some.inj again
    exact equalMetadata_name equal

theorem deployERC20Contract_ok {evm deployed : Evm} {addr : EthAddress}
    (done : deployERC20Contract k evm coinMetadata = .ok (addr, deployed)) :
    evm.contracts addr = none ∧ ∃ data, deployed =
      { evm.setContract addr (.minterBurner data .empty) with sequence := evm.sequence + 1 } := by
  unfold deployERC20Contract at done
  simp only at done
  -- The deployment fails where a contract is found.
  split at done
  · cases done
  · rename_i free
    obtain ⟨rfl, rfl⟩ := Prod.mk.inj (Except.ok.inj done)
    exact ⟨free, _, rfl⟩

theorem registerCoin_ok (registered : registerCoin k s coinMetadata = .ok (pair, after)) :
    s.denomMap.get? coinMetadata.name = none ∧ ∃ noted addr evm,
      verifyMetadata s coinMetadata = .ok noted ∧
      deployERC20Contract k noted.evm coinMetadata = .ok (addr, evm) ∧
      pair = newTokenPair k.format addr coinMetadata.base true .module ∧
      after = State.registerPair { noted with evm := evm } k.sum pair := by
  unfold registerCoin at registered
  split_ifs at registered with disabled evm named supply
  -- The source looks up the name here, where pairs are listed by their base.
  have unnamed : s.denomMap.get? coinMetadata.name = none := by simpa using named
  rcases verified : verifyMetadata s coinMetadata with err | noted
  · simp [verified] at registered
  simp only [verified] at registered
  obtain ⟨⟨addr, evm⟩, deployed, same⟩ := bind_eq_ok.mp registered
  obtain ⟨rfl, rfl⟩ := Prod.mk.inj (Except.ok.inj same)
  exact ⟨unnamed, noted, addr, evm, rfl, wrap_eq_ok.mp deployed, rfl, rfl⟩

/-- A query that is answered is answered by a contract. -/
theorem queryERC20_present {evm : Evm} {contract : EthAddress} {data : ERC20Data}
    (answered : queryERC20 k evm contract = .ok data) : evm.contracts contract ≠ none := by
  intro absent
  obtain ⟨⟨res, same⟩, called, rest⟩ := bind_eq_ok.mp answered
  obtain ⟨name, unpacked, -⟩ := bind_eq_ok.mp rest
  rw [orError_eq_ok] at unpacked
  -- An address without code answers nothing, which does not unpack.
  simp only [callEVM, callEVMWithData, Evm.applyMessage, absent, wrap_eq_ok] at called
  obtain ⟨rfl, -⟩ := Prod.mk.inj (Except.ok.inj called)
  simp [Ret.string] at unpacked

theorem contractMetadata_base (strContract : String) (data : ERC20Data) :
    (contractMetadata strContract data).base = createDenom strContract := by
  unfold contractMetadata
  simp only
  split_ifs <;> rfl

theorem contractMetadata_name (strContract : String) (data : ERC20Data) :
    (contractMetadata strContract data).name = createDenom strContract := by
  unfold contractMetadata
  simp only
  split_ifs <;> rfl

theorem registerERC20_ok {contract : EthAddress}
    (registered : registerERC20 k s contract = .ok (pair, after)) :
    s.erc20Map.get? contract = none ∧
      s.denomMetadata.get? (createDenom (k.format.spell contract)) = none ∧
      s.denomMap.get? (createDenom (k.format.spell contract)) = none ∧
      s.evm.contracts contract ≠ none ∧
      pair = newTokenPair k.format contract (createDenom (k.format.spell contract)) true .external ∧
      ∃ metadata, metadata.name = createDenom (k.format.spell contract) ∧
        after = State.registerPair { s with
          denomMetadata := s.denomMetadata.set (createDenom (k.format.spell contract)) metadata }
          k.sum pair := by
  unfold registerERC20 at registered
  -- Past the two checks the metadata is created and the pair is stored.
  split_ifs at registered with disabled known
  obtain ⟨⟨metadata, noted⟩, creating, same⟩ := bind_eq_ok.mp registered
  obtain ⟨rfl, rfl⟩ := Prod.mk.inj (Except.ok.inj same)
  rw [wrap_eq_ok] at creating
  obtain ⟨erc20Data, answered, creating⟩ := bind_eq_ok.mp creating
  split_ifs at creating with noticed listed
  obtain ⟨-, -, same⟩ := bind_eq_ok.mp creating
  obtain ⟨rfl, rfl⟩ := Prod.mk.inj (Except.ok.inj same)
  rw [contractMetadata_base, contractMetadata_name]
  exact ⟨by simpa using known, by simpa using noticed, by simpa using listed,
    queryERC20_present answered, rfl, _, contractMetadata_name _ _, rfl⟩

theorem toggleConversion_ok {token : String}
    (toggled : toggleConversion k s token = .ok (pair, after)) :
    ∃ found, findTokenPair s token = .ok found ∧ pair = { found with enabled := !found.enabled } ∧
      after = s.setTokenPair k.sum pair := by
  obtain ⟨found, looked, same⟩ := bind_eq_ok.mp toggled
  obtain ⟨rfl, rfl⟩ := Prod.mk.inj (Except.ok.inj same)
  exact ⟨found, looked, rfl, rfl⟩

end Registration

namespace Registry

variable {k : Keeper} {s after : State} {pair : TokenPair}

theorem not_indexed (registry : Registry k s) {addr : EthAddress}
    (free : s.evm.contracts addr = none) : s.erc20Map.get? addr = none := by
  rcases stored : s.erc20Map.get? addr with _ | id
  · rfl
  · obtain ⟨other, there, location⟩ := registry.located addr id stored
    have owned := (registry.registered id other there).owned
    unfold OwnedAs at owned
    rw [location, free] at owned
    -- A pair of either owner is backed by a contract.
    cases owner : other.contractOwner <;> simp [owner, Owns] at owned

theorem registerCoin (registry : Registry k s) {coinMetadata : Metadata}
    (registered : registerCoin k s coinMetadata = .ok (pair, after)) : Registry k after := by
  obtain ⟨unnamed, noted, addr, evm, verified, deployed, rfl, rfl⟩ := registerCoin_ok registered
  obtain ⟨-, untouched, names⟩ := verifyMetadata_ok verified
  obtain ⟨free, data, rfl⟩ := deployERC20Contract_ok deployed
  have noting := registry.untouched untouched
  -- The new contract takes an address that had none.
  have persists : Persists noted.evm
      { noted.evm.setContract addr (.minterBurner data .empty) with
        sequence := noted.evm.sequence + 1 } := by
    have replaced : Persists noted.evm (noted.evm.setContract addr (.minterBurner data .empty)) :=
      .replace fun supply owns => by simp [free, Owns] at owns
    exact ⟨replaced.owns, replaced.present⟩
  refine (noting.untouched (.ofPersists persists noted.params noted.bank)).registerPair ?_ ?_ ?_ ?_
  · rw [getERC20Contract_newTokenPair]
    rfl
  · rw [getERC20Contract_newTokenPair]
    exact noting.not_indexed free
  · simp only [OwnedAs, newTokenPair]
    exact ⟨0, by
      rw [show (TokenPair.mk (k.format.spell addr) coinMetadata.base true
        Owner.module).getERC20Contract = addr from k.format.hexToAddress_spell addr]
      simp [Evm.setContract, Owns, Token.empty]⟩
  · -- An external pair's metadata has its denomination as name, which would be registered.
    intro id other stored denom
    refine ⟨?_, by simp [newTokenPair]⟩
    intro external
    have stored : s.tokenPairs.get? id = some other := by
      rw [← untouched.tokenPairs]
      exact stored
    have facts := registry.registered id other stored
    have owned := facts.owned
    simp only [OwnedAs, external] at owned
    obtain ⟨-, -, known, metadata, name⟩ := owned
    have base : other.denom = coinMetadata.base := denom
    rw [base] at metadata name
    apply facts.listed
    rw [base, ← name, names known metadata]
    exact unnamed

theorem registerERC20 (registry : Registry k s) {contract : EthAddress}
    (registered : registerERC20 k s contract = .ok (pair, after)) : Registry k after := by
  obtain ⟨new, absent, unlisted, there, rfl, metadata, name, rfl⟩ := registerERC20_ok registered
  refine (registry.untouched (.setMetadata absent metadata)).registerPair ?_ ?_ ?_ ?_
  · rw [getERC20Contract_newTokenPair]
    rfl
  · rw [getERC20Contract_newTokenPair]
    exact new
  · have location : (newTokenPair k.format contract (createDenom (k.format.spell contract)) true
        .external).getERC20Contract = contract := getERC20Contract_newTokenPair _ _ _ _ _
    simp only [OwnedAs, location]
    exact ⟨there, rfl, _, Store.get?_set_self _ _ _, name⟩
  · -- No pair has the denomination, which is not in the index.
    intro id other stored denom
    have taken := (registry.registered id other stored).listed
    rw [denom] at taken
    exact absurd unlisted taken

theorem toggleConversion (registry : Registry k s) {token : String}
    (toggled : toggleConversion k s token = .ok (pair, after)) : Registry k after := by
  obtain ⟨found, looked, rfl, rfl⟩ := toggleConversion_ok toggled
  obtain ⟨id, stored, -⟩ := registry.findTokenPair looked
  exact registry.toggle stored _

theorem external_of_gone (registry : Registry k s) {id : ℕ}
    (stored : s.tokenPairs.get? id = some pair)
    (gone : s.evm.isContract pair.getERC20Contract = false) : pair.contractOwner = .external := by
  have owned := (registry.registered id pair stored).owned
  cases owner : pair.contractOwner with
  | unspecified => simp [OwnedAs, owner] at owned
  | module =>
    -- The module's contracts cannot destroy themselves.
    simp only [OwnedAs, owner] at owned
    obtain ⟨supply, owns⟩ := owned
    rcases found : s.evm.contracts pair.getERC20Contract with _ | _ | _ | _
    · simp [found, Owns] at owns
    · simp [Evm.isContract, found, Contract.isContract] at gone
    · simp [found, Owns] at owns
    · simp [found, Owns] at owns
  | external => rfl

theorem converted (registry : Registry k s) (converted : Converted k s after) :
    Registry k after := by
  cases converted with
  | untouched kept => exact registry.untouched kept
  | removed found gone =>
    obtain ⟨id, stored, -⟩ := registry.findTokenPair found
    exact registry.deleteTokenPair stored (registry.external_of_gone stored gone)

theorem step (registry : Registry k s) {call : Call} (taken : Step k s call after) :
    Registry k after := by
  -- Each step keeps the stores, registers a pair, switches one or removes one.
  cases taken with
  | registerCoin registered => exact registry.registerCoin registered
  | registerERC20 registered => exact registry.registerERC20 registered
  | toggleConversion toggled => exact registry.toggleConversion toggled
  | convertCoin valid signed converted => exact registry.converted (convertCoin_converted converted)
  | convertERC20 valid signed converted =>
    exact registry.converted (convertERC20_converted converted)
  | transaction ran =>
    have acted := Untouched.ofPersists (run_persists ran) s.params s.bank
    exact registry.untouched (acted.trans (postTxProcessing_untouched _ _))
  | others escrow supply => exact registry.untouched (.ofPersists (.refl _) _ _)

/-- Without pairs there is nothing to keep in step. -/
theorem empty (tokenPairs : s.tokenPairs = .empty) (erc20Map : s.erc20Map = .empty)
    (denomMap : s.denomMap = .empty) : Registry k s := by
  -- Every condition is about what is found.
  refine ⟨?_, ?_, ?_, ?_⟩
  · intro id pair stored
    rw [tokenPairs, Store.get?_empty] at stored
    cases stored
  · intro contract id found
    rw [erc20Map, Store.get?_empty] at found
    cases found
  · intro denom id found
    rw [denomMap, Store.get?_empty] at found
    cases found
  · intro id pair other otherPair stored
    rw [tokenPairs, Store.get?_empty] at stored
    cases stored

end Registry

end Evmos.Erc20
