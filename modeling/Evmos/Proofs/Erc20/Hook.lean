import Evmos.Proofs.Erc20.Solvency

/-! When the hook converts the transfers of a receipt completely or not at all, log by log. -/

namespace Evmos

open Library

/-- The ledger of a contract, where the code keeps one that is known. -/
def Contract.ledger? : Contract → Option (Token EthAddress)
  | .minterBurner _ token => some token
  | .standard _ _ token => some token
  | .hostile _ _ => none

/-- The same code with another ledger. -/
def Contract.setLedger (code : Contract) (changed : Token EthAddress) : Contract :=
  match code with
  | .minterBurner data _ => .minterBurner data changed
  | .standard issuer data _ => .standard issuer data changed
  | .hostile alive storage => .hostile alive storage

namespace Erc20

/-- A log that the hook converts: a positive `Transfer` to the module account, of an enabled pair. -/
structure Asks (k : Keeper) (s : State) (log : Log) (pair : TokenPair) (fromAddr : EthAddress)
    (tokens : ℕ) : Prop where
  shape : ∃ fromTopic toTopic, log.topics = [Erc20Event.transfer.id, fromTopic, toTopic] ∧
    EthAddress.ofTopic fromTopic = fromAddr ∧ EthAddress.ofTopic toTopic = k.moduleAddress
  data : log.data = some tokens
  positive : 0 < tokens
  registered : ∃ id, s.erc20Map.get? log.address = some id ∧ s.tokenPairs.get? id = some pair
  enabled : pair.enabled = true

/-- Tokens of the module account have been burned, and no other contract has changed. -/
structure Burned (k : Keeper) (evm after : Evm) (contract : EthAddress) (tokens : ℕ) : Prop where
  ledger : ∃ code changed token ledger, evm.contracts contract = some code ∧
    code.ledger? = some token ∧ after.contracts contract = some changed ∧
    changed.ledger? = some ledger ∧ ledger.totalSupply + tokens = token.totalSupply ∧
    ledger.balances k.moduleAddress + tokens = token.balances k.moduleAddress ∧
    ∀ holder, holder ≠ k.moduleAddress → ledger.balances holder = token.balances holder
  others : ∀ other, other ≠ contract → after.contracts other = evm.contracts other

/-- The full effect of a conversion. -/
inductive FullEffect (k : Keeper) (s : State) (pair : TokenPair) (contract fromAddr : EthAddress)
    (tokens : ℕ) (after : State) : Prop where
  /-- Tokens are burned, and escrowed coins are paid for them. -/
  | burned (owner : pair.contractOwner = .module)
      (burned : Burned k s.evm after.evm contract tokens)
      (covered : Coins.ofCoin pair.denom tokens ≤ s.bank.balances k.moduleAddress.bytes)
      (paid : after.bank.balances = moveCoins s.bank.balances k.moduleAddress.bytes fromAddr.bytes
        (Coins.ofCoin pair.denom tokens))
      (supply : after.bank.supply = s.bank.supply)
  /-- Tokens stay with the module account, and coins are minted for them. -/
  | minted (owner : pair.contractOwner = .external) (evm : after.evm = s.evm)
      (supply : after.bank.supply = s.bank.supply + Coins.ofCoin pair.denom tokens)
      (credited : after.bank.balances fromAddr.bytes =
        s.bank.balances fromAddr.bytes + Coins.ofCoin pair.denom tokens)
      (others : ∀ addr, addr ≠ fromAddr.bytes → after.bank.balances addr = s.bank.balances addr)

/-- What a log should do: its full effect if it asks for a conversion, or nothing. -/
def CompleteOrNothing (k : Keeper) (s : State) (log : Log) (after : State) : Prop :=
  (∃ pair fromAddr tokens, Asks k s log pair fromAddr tokens ∧
      FullEffect k s pair log.address fromAddr tokens after) ∨
    (after.bank = s.bank ∧ after.evm = s.evm)

/-- Coins can be credited to an account: it is not blocked, or it is the one that holds them. -/
def Creditable (k : Keeper) (addr : EthAddress) : Prop :=
  k.blockedAddr addr.bytes = false ∨ addr = k.moduleAddress

/-- The call with which the hook burns tokens, as the EVM answers it. -/
def burnCall (k : Keeper) (evm : Evm) (contract : EthAddress) (tokens : ℕ) :
    Except String (Response × Evm) :=
  evm.applyMessage k.moduleAddress k.program k.moduleAddress contract (.token (.burn tokens))

/--
What a conversion by burning needs.

If the contract is a token whose ledger covers the burn, the escrow must cover the coins and the
account must be creditable. Any other code must revert, unless it changes nothing and no coins can
be paid either.
-/
def Redeemable (k : Keeper) (s : State) (pair : TokenPair) (contract fromAddr : EthAddress)
    (tokens : ℕ) : Prop :=
  match (s.evm.contracts contract).bind Contract.ledger? with
  | some token =>
    tokens ≤ token.balances k.moduleAddress → tokens ≤ token.totalSupply →
      Coins.ofCoin pair.denom tokens ≤ s.bank.balances k.moduleAddress.bytes ∧
        Creditable k fromAddr
  | none =>
    (∃ vmError, burnCall k s.evm contract tokens = .error vmError) ∨
      (∃ res, burnCall k s.evm contract tokens = .ok (res, s.evm)) ∧
        ¬(Coins.ofCoin pair.denom tokens ≤ s.bank.balances k.moduleAddress.bytes ∧
          k.blockedAddr fromAddr.bytes = false ∧ fromAddr ≠ k.moduleAddress)

/-- A log that does not ask for a conversion, or for one that is not torn. -/
def Convertible (k : Keeper) (s : State) (log : Log) : Prop :=
  ∀ pair fromAddr tokens, Asks k s log pair fromAddr tokens →
    match pair.contractOwner with
    | .unspecified => True
    | .external => Creditable k fromAddr
    | .module => Redeemable k s pair log.address fromAddr tokens

section Log

variable {k : Keeper} {s : State} {log : Log} {pair : TokenPair} {fromAddr : EthAddress}
  {tokens : ℕ}

theorem eventByID_eq_transfer {topic : ℕ} :
    eventByID topic = some .transfer ↔ topic = Erc20Event.transfer.id := by
  -- The lookup compares the topic with the identifiers of the events.
  constructor
  · intro found
    have same := List.find?_some found
    exact (of_decide_eq_true same).symm
  · rintro rfl
    decide

theorem processLog_of_asks (asks : Asks k s log pair fromAddr tokens) :
    processLog k s log = hookConvert k s pair log.address fromAddr tokens := by
  obtain ⟨⟨fromTopic, toTopic, topics, source, target⟩, data, positive, ⟨id, indexed, stored⟩,
    enabled⟩ := asks
  -- Each check of the loop body is passed by one of these facts.
  simp only [processLog, topics, eventByID_eq_transfer.mpr rfl, data, positive.ne', indexed, stored,
    target, enabled, source, ne_eq, not_true_eq_false, if_false, Bool.not_true, Bool.false_eq_true]

/-- A log that asks for no conversion does nothing. -/
theorem processLog_of_not_asks (idle : ∀ pair fromAddr tokens, ¬Asks k s log pair fromAddr tokens) :
    processLog k s log = s := by
  unfold processLog
  -- Every branch but the last returns the state, and the last one passes all checks.
  split
  next eventID fromTopic toTopic topics =>
    split
    next tokens transfer data =>
      split
      · rfl
      next nothing =>
        split
        · rfl
        next id indexed =>
          split
          · rfl
          next pair stored =>
            split_ifs with elsewhere disabled
            · rfl
            · rfl
            · refine absurd ?_ (idle pair (EthAddress.ofTopic fromTopic) tokens)
              obtain rfl := eventByID_eq_transfer.mp transfer
              exact ⟨⟨fromTopic, toTopic, topics, rfl, not_not.mp elsewhere⟩, data,
                Nat.pos_of_ne_zero nothing, ⟨id, indexed, stored⟩, by simpa using disabled⟩
    · rfl
  · rfl

theorem Asks.unique {other : TokenPair} {otherFrom : EthAddress} {otherTokens : ℕ}
    (asks : Asks k s log pair fromAddr tokens) (also : Asks k s log other otherFrom otherTokens) :
    pair = other ∧ fromAddr = otherFrom ∧ tokens = otherTokens := by
  obtain ⟨⟨fromTopic, toTopic, topics, rfl, -⟩, data, -, ⟨id, indexed, stored⟩, -⟩ := asks
  obtain ⟨⟨otherTopic, otherTo, otherTopics, rfl, -⟩, otherData, -,
    ⟨otherId, otherIndexed, otherStored⟩, -⟩ := also
  -- The topics, the data and the index are functions of the log and the state.
  rw [topics] at otherTopics
  rw [data] at otherData
  rw [indexed] at otherIndexed
  obtain rfl := Option.some.inj otherIndexed
  rw [stored] at otherStored
  simp only [List.cons.injEq, true_and] at otherTopics
  exact ⟨Option.some.inj otherStored, congrArg EthAddress.ofTopic otherTopics.1,
    Option.some.inj otherData⟩

end Log

section Payment

variable {k : Keeper} {bank : Bank} {fromAddr : EthAddress} {coins : Coins}

/-- What the second half of a conversion makes of the bank, whether it succeeds or not. -/
def paid (k : Keeper) (bank : Bank) (fromAddr : EthAddress) (coins : Coins) : Bank :=
  if k.blockedAddr fromAddr.bytes = false ∧ coins ≤ bank.balances k.moduleAddress.bytes then
    ⟨moveCoins bank.balances k.moduleAddress.bytes fromAddr.bytes coins, bank.supply⟩
  else bank

theorem paid_supply : (paid k bank fromAddr coins).supply = bank.supply := by
  unfold paid
  split_ifs
  · rfl
  · rfl

theorem bytes_ne {addr other : EthAddress} (apart : addr ≠ other) : addr.bytes ≠ other.bytes :=
  fun same => apart (Fin.ext same)

theorem moveCoins_ne (apart : fromAddr ≠ k.moduleAddress) (nonzero : coins ≠ 0) :
    moveCoins bank.balances k.moduleAddress.bytes fromAddr.bytes coins ≠ bank.balances := by
  -- The receiving account would have the coins on top of what it has.
  intro same
  have received := congrFun same fromAddr.bytes
  rw [moveCoins_to _ (bytes_ne apart.symm)] at received
  exact nonzero (add_eq_left.mp received)

/-- Escrowed coins are moved exactly if the account is creditable. -/
theorem paid_balances_iff (nonzero : coins ≠ 0)
    (covered : coins ≤ bank.balances k.moduleAddress.bytes) :
    (paid k bank fromAddr coins).balances =
        moveCoins bank.balances k.moduleAddress.bytes fromAddr.bytes coins ↔
      Creditable k fromAddr := by
  unfold paid Creditable
  split_ifs with sent
  · exact iff_of_true rfl (.inl sent.1)
  · -- Nothing was sent, which is as good as a payment only if the module account pays itself.
    have blocked : k.blockedAddr fromAddr.bytes ≠ false := fun free => sent ⟨free, covered⟩
    constructor
    · intro same
      by_contra refused
      exact moveCoins_ne (fun self => refused (.inr self)) nonzero same.symm
    · rintro (free | rfl)
      · exact absurd free blocked
      · exact (moveCoins_self covered).symm

/-- Nothing is paid exactly if the coins are not there or may not be sent to another account. -/
theorem paid_eq_self_iff (nonzero : coins ≠ 0) :
    paid k bank fromAddr coins = bank ↔
      ¬(coins ≤ bank.balances k.moduleAddress.bytes ∧ k.blockedAddr fromAddr.bytes = false ∧
        fromAddr ≠ k.moduleAddress) := by
  unfold paid
  split_ifs with sent
  · -- A payment that was made leaves no change only if the module account pays itself.
    constructor
    · rintro same ⟨-, -, apart⟩
      exact moveCoins_ne apart nonzero (congrArg Bank.balances same)
    · intro refused
      obtain rfl : fromAddr = k.moduleAddress := by
        by_contra apart
        exact refused ⟨sent.2, sent.1, apart⟩
      rw [moveCoins_self sent.2]
  · exact iff_of_true rfl fun pays => sent ⟨pays.2.1, pays.1⟩

/-- Coins that are minted and credited only pass through the module account. -/
theorem paid_minted_of_creditable (bank : Bank) (nonzero : coins ≠ 0)
    (creditable : Creditable k fromAddr) :
    let after := paid k (bank.mintCoins k.moduleAddress.bytes coins) fromAddr coins
    after.balances fromAddr.bytes = bank.balances fromAddr.bytes + coins ∧
      ∀ addr, addr ≠ fromAddr.bytes → after.balances addr = bank.balances addr := by
  have held : (bank.mintCoins k.moduleAddress.bytes coins).balances k.moduleAddress.bytes =
      bank.balances k.moduleAddress.bytes + coins := Function.update_self _ _ _
  have elsewhere : ∀ addr, addr ≠ k.moduleAddress.bytes →
      (bank.mintCoins k.moduleAddress.bytes coins).balances addr = bank.balances addr :=
    fun addr other => Function.update_of_ne other _ _
  have covered : coins ≤ (bank.mintCoins k.moduleAddress.bytes coins).balances
      k.moduleAddress.bytes := le_add_self.trans_eq held.symm
  -- What was minted covers the payment, so it is made.
  dsimp only
  rw [(paid_balances_iff nonzero covered).mpr creditable]
  constructor
  · by_cases self : fromAddr = k.moduleAddress
    · rw [self, moveCoins_self covered, held]
    · rw [moveCoins_to _ (bytes_ne (Ne.symm self)), elsewhere _ (bytes_ne self)]
  · intro addr other
    by_cases own : addr = k.moduleAddress.bytes
    · subst own
      rw [moveCoins_from _ other, held, add_tsub_cancel_right]
    · rw [moveCoins_of_ne _ own other, elsewhere _ own]

/-- Coins that are minted for an account that is not creditable do not reach it. -/
theorem paid_minted_of_refused (bank : Bank) (nonzero : coins ≠ 0)
    (refused : ¬Creditable k fromAddr) :
    (paid k (bank.mintCoins k.moduleAddress.bytes coins) fromAddr coins).balances fromAddr.bytes =
      bank.balances fromAddr.bytes := by
  obtain ⟨blocked, apart⟩ := not_or.mp refused
  rw [(paid_eq_self_iff nonzero).mpr fun pays => blocked pays.2.1]
  exact Function.update_of_ne (bytes_ne apart) _ _

end Payment

section Conversion

variable {k : Keeper} {s middle : State} {pair : TokenPair} {contract fromAddr : EthAddress}
  {tokens : ℕ} {evm : Evm} {code : Contract} {token : Token EthAddress}

/-- The second half of a conversion pays out of what the first half has left. -/
theorem hookConvert_of_minted (minted : hookMint k s pair contract tokens = .ok middle) :
    hookConvert k s pair contract fromAddr tokens =
      { middle with bank := paid k middle.bank fromAddr (Coins.ofCoin pair.denom tokens) } := by
  simp only [hookConvert, minted, paid]
  -- The transfer succeeds exactly under the condition of the payment.
  split
  next err failed =>
    rw [if_neg]
    rintro ⟨free, covered⟩
    rw [Bank.sendCoinsFromModuleToAccount_eq_ok.mpr ⟨free, covered, rfl⟩] at failed
    cases failed
  next bank sent =>
    obtain ⟨free, covered, rfl⟩ := Bank.sendCoinsFromModuleToAccount_eq_ok.mp sent
    rw [if_pos ⟨free, covered⟩]

/-- A conversion that has its full effect, or none. -/
def ConvertsWhole (k : Keeper) (s : State) (pair : TokenPair) (contract fromAddr : EthAddress)
    (tokens : ℕ) : Prop :=
  FullEffect k s pair contract fromAddr tokens (hookConvert k s pair contract fromAddr tokens) ∨
    ((hookConvert k s pair contract fromAddr tokens).bank = s.bank ∧
      (hookConvert k s pair contract fromAddr tokens).evm = s.evm)

theorem convertsWhole_of_eq (idle : hookConvert k s pair contract fromAddr tokens = s) :
    ConvertsWhole k s pair contract fromAddr tokens :=
  .inr ⟨congrArg State.bank idle, congrArg State.evm idle⟩

theorem hookConvert_of_failed {err : Err} (failed : hookMint k s pair contract tokens = .error err) :
    hookConvert k s pair contract fromAddr tokens = s := by
  simp only [hookConvert, failed]

theorem hookConvert_of_called {res : Response} (owner : pair.contractOwner = .module)
    (called : burnCall k s.evm contract tokens = .ok (res, evm)) :
    hookConvert k s pair contract fromAddr tokens =
      { s with evm := evm, bank := paid k s.bank fromAddr (Coins.ofCoin pair.denom tokens) } := by
  -- The first half succeeds, whatever the contract answers.
  have burned : hookMint k s pair contract tokens = .ok { s with evm := evm } := by
    unfold burnCall at called
    simp only [hookMint, owner, callEVM, callEVMWithData, called]
    rfl
  exact hookConvert_of_minted burned

theorem hookConvert_of_reverted {vmError : String} (owner : pair.contractOwner = .module)
    (reverted : burnCall k s.evm contract tokens = .error vmError) :
    hookConvert k s pair contract fromAddr tokens = s := by
  -- The first half fails, so nothing is written.
  have failed : ∃ err, hookMint k s pair contract tokens = .error err := by
    unfold burnCall at reverted
    simp only [hookMint, owner, callEVM, callEVMWithData, reverted]
    exact ⟨_, rfl⟩
  exact hookConvert_of_failed failed.choose_spec

/-- The call of a token burns if the ledger covers it, and reverts if not. -/
theorem burnCall_of_ledger (found : evm.contracts contract = some code)
    (ledger : code.ledger? = some token) :
    burnCall k evm contract tokens =
      match token.destroy k.moduleAddress tokens with
      | none => .error "execution reverted"
      | some changed =>
        .ok (⟨.malformed, [Log.ofEvent contract (.transfer k.moduleAddress 0 tokens)]⟩,
          evm.setContract contract (code.setLedger changed)) := by
  -- Both kinds of tokens run the same code for a burn, on ledgers of their own.
  cases code with
  | hostile alive storage => cases ledger
  | minterBurner data own =>
    obtain rfl := Option.some.inj ledger
    simp only [burnCall, Evm.applyMessage, found, Contract.exec, Contract.execToken, Token.exec]
    cases own.destroy k.moduleAddress tokens <;> rfl
  | standard issuer data own =>
    obtain rfl := Option.some.inj ledger
    simp only [burnCall, Evm.applyMessage, found, Contract.exec, Contract.execToken, Token.exec]
    cases own.destroy k.moduleAddress tokens <;> rfl

/-- The module account can destroy what it has, as far as there is so much at all. -/
theorem destroy_cases (k : Keeper) (token : Token EthAddress) (tokens : ℕ) :
    (tokens ≤ token.balances k.moduleAddress ∧ tokens ≤ token.totalSupply ∧
      ∃ changed, token.destroy k.moduleAddress tokens = some changed ∧
        changed.totalSupply + tokens = token.totalSupply ∧
        changed.balances k.moduleAddress + tokens = token.balances k.moduleAddress ∧
        ∀ holder, holder ≠ k.moduleAddress → changed.balances holder = token.balances holder) ∨
    (¬(tokens ≤ token.balances k.moduleAddress ∧ tokens ≤ token.totalSupply) ∧
      token.destroy k.moduleAddress tokens = none) := by
  unfold Token.destroy
  split_ifs with refused
  · -- The module account is not the zero address, so it must lack the tokens.
    refine .inr ⟨?_, rfl⟩
    rintro ⟨balance, supply⟩
    rcases refused with zero | short | short
    · exact k.moduleAddress_ne_zero zero
    · omega
    · omega
  · simp only [not_or, not_lt] at refused
    obtain ⟨-, balance, supply⟩ := refused
    refine .inl ⟨balance, supply, _, rfl, Nat.sub_add_cancel supply, ?_, ?_⟩
    · dsimp only
      rw [Function.update_self]
      exact Nat.sub_add_cancel balance
    · intro holder elsewhere
      exact Function.update_of_ne elsewhere _ _

theorem ledger?_setLedger (ledger : code.ledger? = some token) (changed : Token EthAddress) :
    (code.setLedger changed).ledger? = some changed := by
  cases code with
  | hostile alive storage => cases ledger
  | minterBurner data own => rfl
  | standard issuer data own => rfl

theorem burnCall_burned {changed : Token EthAddress}
    (found : evm.contracts contract = some code) (ledger : code.ledger? = some token)
    (supply : changed.totalSupply + tokens = token.totalSupply)
    (balance : changed.balances k.moduleAddress + tokens = token.balances k.moduleAddress)
    (others : ∀ holder, holder ≠ k.moduleAddress →
      changed.balances holder = token.balances holder) :
    Burned k evm (evm.setContract contract (code.setLedger changed)) contract tokens where
  ledger := ⟨code, code.setLedger changed, token, changed, found, ledger, Function.update_self _ _ _,
    ledger?_setLedger ledger changed, supply, balance, others⟩
  others _ elsewhere := Function.update_of_ne elsewhere _ _

theorem Burned.ne {after : Evm} (burned : Burned k evm after contract tokens)
    (positive : 0 < tokens) : after ≠ evm := by
  rintro rfl
  -- The same ledger would have a smaller supply than itself.
  obtain ⟨code, changed, token, ledger, found, own, again, ownAgain, supply, -⟩ := burned.ledger
  rw [found] at again
  obtain rfl := Option.some.inj again
  rw [own] at ownAgain
  obtain rfl := Option.some.inj ownAgain
  omega

theorem Burned.ledger_ne_none {after : Evm} (burned : Burned k evm after contract tokens) :
    (evm.contracts contract).bind Contract.ledger? ≠ none := by
  obtain ⟨code, -, token, -, found, own, -⟩ := burned.ledger
  rw [found, Option.bind_some, own]
  exact Option.some_ne_none token

theorem ofCoin_ne_zero (denom : Denom) (positive : 0 < tokens) : Coins.ofCoin denom tokens ≠ 0 := by
  intro nothing
  -- The amounts differ at the denomination itself.
  have amount := DFunLike.congr_fun nothing denom
  rw [Coins.ofCoin_apply, if_pos rfl, DFinsupp.zero_apply] at amount
  omega

/-- Coins are minted for an account and credited to it exactly if it is creditable. -/
theorem minted_iff (owner : pair.contractOwner = .external) (positive : 0 < tokens) :
    ConvertsWhole k s pair contract fromAddr tokens ↔ Creditable k fromAddr := by
  have nonzero := ofCoin_ne_zero pair.denom positive
  have minted : hookMint k s pair contract tokens = .ok { s with
      bank := s.bank.mintCoins k.moduleAddress.bytes (Coins.ofCoin pair.denom tokens) } := by
    simp only [hookMint, owner]
  unfold ConvertsWhole
  rw [hookConvert_of_minted minted]
  constructor
  · -- The supply has grown, so this is the full effect, and the account has the coins.
    rintro (full | ⟨same, -⟩)
    · cases full with
      | burned other =>
        rw [owner] at other
        cases other
      | minted _ _ _ credited _ =>
        by_contra refused
        have kept := paid_minted_of_refused s.bank nonzero refused
        exact nonzero (left_eq_add.mp (kept.symm.trans credited))
    · have supply := congrArg Bank.supply same
      rw [paid_supply] at supply
      exact absurd (add_eq_left.mp supply) nonzero
  · intro creditable
    obtain ⟨credited, others⟩ := paid_minted_of_creditable s.bank nonzero creditable
    exact .inl (.minted owner rfl paid_supply credited others)

/-- Tokens of a known ledger are burned exactly if it covers them, and then have to be paid for. -/
theorem burned_iff_of_ledger (owner : pair.contractOwner = .module) (positive : 0 < tokens)
    (found : s.evm.contracts contract = some code) (ledger : code.ledger? = some token) :
    ConvertsWhole k s pair contract fromAddr tokens ↔
      (tokens ≤ token.balances k.moduleAddress → tokens ≤ token.totalSupply →
        Coins.ofCoin pair.denom tokens ≤ s.bank.balances k.moduleAddress.bytes ∧
          Creditable k fromAddr) := by
  have nonzero := ofCoin_ne_zero pair.denom positive
  have called : burnCall k s.evm contract tokens = _ := burnCall_of_ledger found ledger
  rcases destroy_cases k token tokens with
    ⟨balance, supply, changed, destroyed, less, lessOwn, others⟩ | ⟨short, refused⟩
  · rw [destroyed] at called
    have burned := burnCall_burned found ledger less lessOwn others
    unfold ConvertsWhole
    rw [hookConvert_of_called owner called]
    constructor
    · -- The ledger has changed, so this is the full effect.
      rintro (full | ⟨-, same⟩) _ _
      · cases full with
        | burned _ _ covered moved _ =>
          exact ⟨covered, (paid_balances_iff nonzero covered).mp moved⟩
        | minted other =>
          rw [owner] at other
          cases other
      · exact absurd same (burned.ne positive)
    · intro redeemable
      obtain ⟨covered, creditable⟩ := redeemable balance supply
      exact .inl (.burned owner burned covered
        ((paid_balances_iff nonzero covered).mpr creditable) paid_supply)
  · rw [refused] at called
    exact iff_of_true (convertsWhole_of_eq (hookConvert_of_reverted owner called))
      fun balance supply => absurd ⟨balance, supply⟩ short

/-- Code without a known ledger burns nothing, so it must not be answered with a payment. -/
theorem burned_iff_of_no_ledger (owner : pair.contractOwner = .module) (positive : 0 < tokens)
    (unknown : (s.evm.contracts contract).bind Contract.ledger? = none) :
    ConvertsWhole k s pair contract fromAddr tokens ↔
      (∃ vmError, burnCall k s.evm contract tokens = .error vmError) ∨
        (∃ res, burnCall k s.evm contract tokens = .ok (res, s.evm)) ∧
          ¬(Coins.ofCoin pair.denom tokens ≤ s.bank.balances k.moduleAddress.bytes ∧
            k.blockedAddr fromAddr.bytes = false ∧ fromAddr ≠ k.moduleAddress) := by
  -- Without a ledger there is nothing that could be burned.
  have notFull : ∀ after, ¬FullEffect k s pair contract fromAddr tokens after := by
    intro after full
    cases full with
    | burned _ burned => exact burned.ledger_ne_none unknown
    | minted other =>
      rw [owner] at other
      cases other
  cases called : burnCall k s.evm contract tokens with
  | error vmError =>
    exact iff_of_true (convertsWhole_of_eq (hookConvert_of_reverted owner called))
      (.inl ⟨vmError, rfl⟩)
  | ok answer =>
    obtain ⟨res, evm⟩ := answer
    unfold ConvertsWhole
    rw [hookConvert_of_called owner called, or_iff_right (notFull _)]
    -- Any answer is followed by the attempt to pay, which must fail as well.
    dsimp only
    rw [paid_eq_self_iff (ofCoin_ne_zero pair.denom positive)]
    constructor
    · rintro ⟨unpaid, rfl⟩
      exact .inr ⟨⟨res, rfl⟩, unpaid⟩
    · rintro (⟨vmError, other⟩ | ⟨⟨other, same⟩, unpaid⟩)
      · cases other
      · exact ⟨unpaid, (Prod.mk.inj (Except.ok.inj same)).2⟩

/-- A conversion by burning is complete or does nothing exactly if it is redeemable. -/
theorem burned_iff (owner : pair.contractOwner = .module) (positive : 0 < tokens) :
    ConvertsWhole k s pair contract fromAddr tokens ↔
      Redeemable k s pair contract fromAddr tokens := by
  unfold Redeemable
  -- The contract has a ledger, or is one that the interface does not bind.
  split
  next token bound =>
    obtain ⟨code, found, ledger⟩ := Option.bind_eq_some_iff.mp bound
    exact burned_iff_of_ledger owner positive found ledger
  next unknown => exact burned_iff_of_no_ledger owner positive unknown

/-- One log is processed completely or not at all exactly if it is convertible. -/
theorem processLog_completeOrNothing_iff (k : Keeper) (s : State) (log : Log) :
    CompleteOrNothing k s log (processLog k s log) ↔ Convertible k s log := by
  by_cases asking : ∃ pair fromAddr tokens, Asks k s log pair fromAddr tokens
  · obtain ⟨pair, fromAddr, tokens, asks⟩ := asking
    rw [processLog_of_asks asks]
    -- The log asks for this conversion and for no other.
    have complete : CompleteOrNothing k s log
          (hookConvert k s pair log.address fromAddr tokens) ↔
        ConvertsWhole k s pair log.address fromAddr tokens := by
      refine or_congr_left ⟨?_, fun full => ⟨pair, fromAddr, tokens, asks, full⟩⟩
      rintro ⟨other, otherFrom, otherTokens, also, full⟩
      obtain ⟨rfl, rfl, rfl⟩ := asks.unique also
      exact full
    have convertible : Convertible k s log ↔
        match pair.contractOwner with
        | .unspecified => True
        | .external => Creditable k fromAddr
        | .module => Redeemable k s pair log.address fromAddr tokens := by
      refine ⟨fun all => all pair fromAddr tokens asks, ?_⟩
      intro holds other otherFrom otherTokens also
      obtain ⟨rfl, rfl, rfl⟩ := asks.unique also
      exact holds
    rw [complete, convertible]
    cases owner : pair.contractOwner with
    | unspecified =>
      have failed : hookMint k s pair log.address tokens = .error ⟨.errUndefinedOwner, ""⟩ := by
        simp only [hookMint, owner]
      exact iff_of_true (convertsWhole_of_eq (hookConvert_of_failed failed)) trivial
    | external => exact minted_iff owner asks.positive
    | module => exact burned_iff owner asks.positive
  · have idle : ∀ pair fromAddr tokens, ¬Asks k s log pair fromAddr tokens :=
      fun pair fromAddr tokens asks => asking ⟨pair, fromAddr, tokens, asks⟩
    rw [processLog_of_not_asks idle]
    exact iff_of_true (.inr ⟨rfl, rfl⟩)
      fun pair fromAddr tokens asks => absurd asks (idle pair fromAddr tokens)

end Conversion

theorem postTxProcessing_of_disabled {k : Keeper} {s : State} (logs : List Log)
    (disabled : ¬(s.params.enableErc20 = true ∧ s.params.enableEVMHook = true)) :
    postTxProcessing k s logs = s := by
  unfold postTxProcessing
  rw [if_pos]
  -- One of the two switches is off.
  cases enableErc20 : s.params.enableErc20 with
  | false => rfl
  | true =>
    cases enableEVMHook : s.params.enableEVMHook with
    | false => rfl
    | true => exact absurd ⟨enableErc20, enableEVMHook⟩ disabled

/-- An enabled hook processes the logs one after the other. -/
theorem postTxProcessing_append {k : Keeper} {s : State} (logs : List Log) (log : Log)
    (enabled : s.params.enableErc20 = true ∧ s.params.enableEVMHook = true) :
    postTxProcessing k s (logs ++ [log]) = processLog k (postTxProcessing k s logs) log := by
  simp [postTxProcessing, enabled.1, enabled.2, List.foldl_append]

/--
When the hook converts the transfers of a receipt completely or not at all.

The state before a log is the one that the logs before it have left. Every log has its full effect
or none exactly if each one that asks for a conversion is convertible in that state. Logs that ask
for no conversion never have an effect.
-/
theorem hook_complete_or_nothing_iff (k : Keeper) (s : State) (logs : List Log) :
    ((∀ earlier log later, logs = earlier ++ log :: later →
        CompleteOrNothing k (postTxProcessing k s earlier) log
          (postTxProcessing k s (earlier ++ [log]))) ↔
      (s.params.enableErc20 = true ∧ s.params.enableEVMHook = true →
        ∀ earlier log later, logs = earlier ++ log :: later →
          Convertible k (postTxProcessing k s earlier) log)) ∧
    ∀ earlier log, (∀ pair fromAddr tokens,
        ¬Asks k (postTxProcessing k s earlier) log pair fromAddr tokens) →
      postTxProcessing k s (earlier ++ [log]) = postTxProcessing k s earlier := by
  by_cases enabled : s.params.enableErc20 = true ∧ s.params.enableEVMHook = true
  · -- One log after the other is processed in the state the ones before have left.
    constructor
    · constructor
      · intro complete _ earlier log later split
        have one := complete earlier log later split
        rw [postTxProcessing_append earlier log enabled] at one
        exact (processLog_completeOrNothing_iff k _ log).mp one
      · intro convertible earlier log later split
        rw [postTxProcessing_append earlier log enabled]
        exact (processLog_completeOrNothing_iff k _ log).mpr
          (convertible enabled earlier log later split)
    · intro earlier log idle
      rw [postTxProcessing_append earlier log enabled]
      exact processLog_of_not_asks idle
  · simp only [postTxProcessing_of_disabled _ enabled]
    refine ⟨iff_of_true ?_ fun on => absurd on enabled, fun _ _ _ => trivial⟩
    intro _ _ _ _
    exact .inr ⟨rfl, rfl⟩

/-- A keeper for evaluation, on a chain where account seven is blocked too. -/
def sevenBlocked : Keeper :=
  { plainKeeper with blockedAddr := fun address => address = 1 || address = 7 }

/-- The pair of a contract that the module does not own. -/
def ninePair : TokenPair :=
  ⟨"0x0000000000000000000000000000000000000009", "erc20/0x0000000000000000000000000000000000000009",
    true, .external⟩

/-- The pair is registered, and its contract may emit any logs. -/
def nineRegistered : State :=
  { fiveEach with evm := ⟨fun addr => if addr = 9 then some (.hostile true 0) else none, 0⟩
    }.registerPair textSum ninePair

/-- A log of the contract, which reports three tokens of account seven for the module account. -/
def sevenToModule : Log := ⟨9, [Erc20Event.transfer.id, 7, 1], some 3⟩

/-- Three coins are minted for the blocked account, and stay with the module account. -/
theorem blocked_transfer_mints_uncredited :
    Asks sevenBlocked nineRegistered sevenToModule ninePair 7 3 ∧
      nineRegistered.bank.supply ninePair.denom = 0 ∧
      (postTxProcessing sevenBlocked nineRegistered [sevenToModule]).bank.supply ninePair.denom = 3 ∧
      (postTxProcessing sevenBlocked nineRegistered [sevenToModule]).bank.balances 1
        ninePair.denom = 3 ∧
      (postTxProcessing sevenBlocked nineRegistered [sevenToModule]).bank.balances 7
        ninePair.denom = 0 ∧
      ¬CompleteOrNothing sevenBlocked nineRegistered sevenToModule
        (postTxProcessing sevenBlocked nineRegistered [sevenToModule]) := by
  have asks : Asks sevenBlocked nineRegistered sevenToModule ninePair 7 3 :=
    ⟨⟨7, 1, rfl, by decide, by decide⟩, rfl, by decide,
      ⟨ninePair.getID textSum, by decide +kernel, by decide +kernel⟩, rfl⟩
  refine ⟨asks, by decide +kernel, by decide +kernel, by decide +kernel, by decide +kernel, ?_⟩
  have single : postTxProcessing sevenBlocked nineRegistered [sevenToModule] =
      processLog sevenBlocked nineRegistered sevenToModule := by
    unfold postTxProcessing
    rw [if_neg (by decide), List.foldl_cons, List.foldl_nil]
  rw [single]
  -- The conversion would need an account that can be credited, which seven is not.
  intro complete
  have convertible := (processLog_completeOrNothing_iff _ _ _).mp complete
  rcases convertible ninePair 7 3 asks with free | own
  · revert free
    decide
  · revert own
    decide

end Erc20

end Evmos
