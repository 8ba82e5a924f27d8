import Evmos.Proofs.Erc20.Backing

/-! Over any run, the escrow of the module account covers what was issued against it. -/

namespace Evmos.Erc20

open Library

/-- The second half of a conversion by the hook, whether it fails or not, pays at most the coins. -/
theorem hookConvert_pays {k : Keeper} {s middle : State} {pair : TokenPair}
    {contract : EthAddress} {tokens : ℕ}
    (minted : hookMint k s pair contract tokens = .ok middle) (fromAddr : EthAddress) :
    ∃ bank, hookConvert k s pair contract fromAddr tokens = { middle with bank := bank } ∧
      bank.supply = middle.bank.supply ∧
      ∀ denom, middle.bank.balances k.moduleAddress.bytes denom ≤
        bank.balances k.moduleAddress.bytes denom + Coins.ofCoin pair.denom tokens denom := by
  simp only [hookConvert, minted]
  -- A payment that fails leaves the coins in the module account.
  split
  · exact ⟨middle.bank, rfl, rfl, fun _ => Nat.le_add_right _ _⟩
  next bank sent => exact ⟨bank, rfl, Bank.sendCoinsFromModuleToAccount_ok sent⟩

namespace Backed

variable {k : Keeper} {ctx : Context} {s after : State} {id : ℕ} {pair : TokenPair}

section Registration

theorem setMetadata (backed : Backed k 0 s) {metadata : Store Denom Metadata}
    (untouched : Untouched s { s with denomMetadata := metadata }) :
    Backed k 0 { s with denomMetadata := metadata } :=
  ⟨backed.registry.untouched untouched, backed.unapproved, backed.coins, backed.tokens⟩

theorem registerPair (backed : Backed k 0 s) (registry : Registry k (s.registerPair k.sum pair))
    (nothing : ∀ denom, mintedBy s.evm denom pair = 0) :
    Backed k 0 (s.registerPair k.sum pair) := by
  refine ⟨registry, backed.unapproved, ?_, backed.tokens⟩
  intro denom
  -- The sum over the pairs grows by what the new one has minted.
  have total := s.tokenPairs.total_set (fun _ pair => mintedBy s.evm denom pair)
    (pair.getID k.sum) pair
  rw [nothing denom] at total
  refine le_trans ?_ (backed.coins denom)
  exact (Nat.le_add_right _ _).trans total.le

/-- A new contract of the module, at an address where there was none. -/
theorem deploy (backed : Backed k 0 s) {addr : EthAddress} (free : s.evm.contracts addr = none)
    (data : ERC20Data) (sequence : ℕ) :
    Backed k 0 { s with evm := { s.evm.setContract addr (.minterBurner data .empty) with
      sequence := sequence } } := by
  have evolves : Evolves k.moduleAddress 0 s.evm
      (s.evm.setContract addr (.minterBurner data .empty)) := by
    refine .setContract (fun _ _ => rfl) (fun _ _ => trivial) ?_
    intro supply owns
    rw [free] at owns
    exact owns.elim
  have grown := backed.evolve (backed.unapproved.setContract (by intro _ _ _ same; cases same))
    evolves
  rw [add_zero] at grown
  -- Counting the contract created changes nothing else.
  have counted : Persists (s.evm.setContract addr (.minterBurner data .empty))
      { s.evm.setContract addr (.minterBurner data .empty) with sequence := sequence } :=
    ⟨fun _ supply owns => ⟨supply, owns⟩, fun _ there => there⟩
  exact ⟨grown.registry.untouched (.ofPersists counted _ _), grown.unapproved, grown.coins,
    grown.tokens⟩

theorem registerCoin (backed : Backed k 0 s) {coinMetadata : Metadata}
    (registered : registerCoin k s coinMetadata = .ok (pair, after)) : Backed k 0 after := by
  have registry := backed.registry.registerCoin registered
  obtain ⟨-, noted, addr, evm, verified, deployed, rfl, rfl⟩ := registerCoin_ok registered
  obtain ⟨⟨metadata, rfl⟩, untouched, -⟩ := verifyMetadata_ok verified
  obtain ⟨free, data, rfl⟩ := deployERC20Contract_ok deployed
  refine ((backed.setMetadata untouched).deploy free data _).registerPair registry ?_
  -- The ledger of the new contract is empty.
  intro denom
  simp [mintedBy, totalSupply, Evm.setContract, Token.empty]

theorem registerERC20 (backed : Backed k 0 s) {contract : EthAddress}
    (registered : registerERC20 k s contract = .ok (pair, after)) : Backed k 0 after := by
  have registry := backed.registry.registerERC20 registered
  obtain ⟨-, absent, -, -, rfl, metadata, -, rfl⟩ := registerERC20_ok registered
  refine (backed.setMetadata (.setMetadata absent metadata)).registerPair registry ?_
  -- The pair is external, and counts towards no coin.
  intro denom
  simp [mintedBy, newTokenPair]

theorem toggleConversion (backed : Backed k 0 s) {token : String}
    (toggled : toggleConversion k s token = .ok (pair, after)) : Backed k 0 after := by
  have registry := backed.registry.toggleConversion toggled
  obtain ⟨found, looked, rfl, rfl⟩ := toggleConversion_ok toggled
  obtain ⟨id, stored, -⟩ := backed.registry.findTokenPair looked
  refine ⟨registry, backed.unapproved, ?_, backed.tokens⟩
  intro denom
  refine le_trans (le_of_eq ?_) (backed.coins denom)
  have key := (backed.registry.registered id found stored).keyed
  have total := s.tokenPairs.total_set (fun _ pair => mintedBy s.evm denom pair) id
    { found with enabled := !found.enabled }
  rw [stored] at total
  -- The pair counts as much as it did before.
  have weight : mintedBy s.evm denom { found with enabled := !found.enabled } =
      mintedBy s.evm denom found := rfl
  rw [Option.elim_some, weight] at total
  rw [key] at total
  exact Nat.add_right_cancel total

end Registration

section Conversion

theorem convertCoin (backed : Backed k 0 s) {msg : MsgConvertCoin}
    (signed : k.bech32.decode msg.sender ≠ some k.moduleAddress.bytes)
    (plain : isHexAddress msg.coin.denom = false)
    (converted : convertCoin k ctx s msg = .ok after) : Backed k 0 after := by
  -- The module account does not sign.
  have other : ∀ sender, k.bech32.decode msg.sender = some sender →
      sender ≠ k.moduleAddress.bytes := by
    rintro sender decoded rfl
    exact signed decoded
  cases convertCoin_converts converted with
  | removed found gone =>
    obtain ⟨id, stored, -⟩ := backed.registry.findTokenPair found
    exact backed.deleteTokenPair stored gone
  | escrowed decoded found owner sent called =>
    obtain ⟨id, stored, own⟩ := backed.registry.findTokenPair found
    exact backed.convertCoinNativeCoin stored owner (own plain) (other _ decoded) sent called
  | burned decoded found owner sent called burns =>
    obtain ⟨id, stored, own⟩ := backed.registry.findTokenPair found
    exact backed.convertCoinNativeERC20 stored owner (own plain) (other _ decoded) sent called burns

theorem convertERC20 (backed : Backed k 0 s) {msg : MsgConvertERC20}
    (signed : hexToAddress msg.sender ≠ k.moduleAddress)
    (converted : convertERC20 k ctx s msg = .ok after) : Backed k 0 after := by
  -- The pair is removed, or it is one of the module or an external one.
  cases convertERC20_converts converted with
  | removed found gone =>
    obtain ⟨id, stored, -⟩ := backed.registry.findTokenPair found
    exact backed.deleteTokenPair stored gone
  | returned found owner called sent =>
    obtain ⟨id, stored, -⟩ := backed.registry.findTokenPair found
    exact backed.convertERC20NativeCoin stored owner called sent
  | minted found owner called sent =>
    obtain ⟨id, stored, -⟩ := backed.registry.findTokenPair found
    exact backed.convertERC20NativeToken stored owner signed called sent

end Conversion

section Hook

variable {pending : EthAddress → ℕ}

theorem mono (backed : Backed k pending s) {rest : EthAddress → ℕ} (below : rest ≤ pending) :
    Backed k rest s :=
  backed.setBank (fun _ => le_rfl) fun contract => Nat.add_le_add_left (below contract) _

/-- A transfer that the hook converts is no longer pending, whichever half of it fails. -/
theorem hookConvert {contract fromAddr : EthAddress} {tokens : ℕ}
    (backed : Backed k (Pi.single contract tokens + pending) s)
    (stored : s.tokenPairs.get? id = some pair) (location : pair.getERC20Contract = contract) :
    Backed k pending (hookConvert k s pair contract fromAddr tokens) := by
  subst location
  have ignored : Backed k pending s := backed.mono le_add_self
  cases minting : hookMint k s pair pair.getERC20Contract tokens with
  | error err =>
    simp only [Erc20.hookConvert, minting]
    exact ignored
  | ok middle =>
    obtain ⟨bank, outcome, supply, balance⟩ := hookConvert_pays minting fromAddr
    rw [outcome]
    cases owner : pair.contractOwner with
    | unspecified => simp [hookMint, owner] at minting
    | module =>
      -- The tokens are burned, and at most as many coins leave the escrow.
      simp only [hookMint, owner] at minting
      obtain ⟨⟨res, evm⟩, called, same⟩ := bind_eq_ok.mp minting
      obtain rfl := Except.ok.inj same
      obtain ⟨data, token, found⟩ := ignored.registry.contract stored owner
      obtain ⟨changed, events, ran, rfl⟩ := applyMessage_minterBurner found (callEVM_ok called)
      have total := execToken_burn ran
      refine ignored.setLedger stored owner found supply ?_
      intro denom
      have paid := balance denom
      rw [Coins.ofCoin_apply] at paid
      by_cases here : pair.denom = denom
      · simp only [here, if_true] at paid ⊢
        omega
      · simp only [here, Ne.symm here, if_false] at paid ⊢
        omega
    | external =>
      -- The coins are minted for the tokens that have arrived.
      simp only [hookMint, owner] at minting
      obtain rfl := Except.ok.inj minting
      refine backed.setBank ?_ ?_
      · intro denom
        have paid := balance denom
        rw [Bank.mintCoins_balances] at paid
        exact Nat.le_of_add_le_add_right paid
      · intro address
        simp only [State.issued, supply, Bank.mintCoins_supply]
        rw [backed.issued_mint stored owner, Pi.add_apply]
        omega

/-- Processing a log uses up what it reports to have reached the module account. -/
theorem processLog {log : Log}
    (backed : Backed k (log.received k.moduleAddress + pending) s) :
    Backed k pending (processLog k s log) := by
  have ignored : Backed k pending s := backed.mono le_add_self
  unfold Erc20.processLog
  split
  · rename_i eventID fromTopic toTopic topics
    split
    · rename_i tokens event data
      split
      · exact ignored
      split
      · exact ignored
      · rename_i id indexed
        split
        · exact ignored
        · rename_i pair stored
          split_ifs with elsewhere disabled
          · exact ignored
          · exact ignored
          · -- The log is a transfer to the module account, of the pair's contract.
            obtain ⟨other, otherStored, location⟩ :=
              ignored.registry.located log.address id indexed
            rw [stored] at otherStored
            obtain rfl := Option.some.inj otherStored
            have arrived : EthAddress.ofTopic toTopic = k.moduleAddress := by simpa using elsewhere
            have amount : log.received k.moduleAddress = Pi.single log.address tokens := by
              funext contract
              simp only [Log.received, topics, data, event, arrived, Pi.single_apply, and_self,
                if_true, Option.getD_some, eq_comm]
            rw [amount] at backed
            exact backed.hookConvert stored location
    · exact ignored
  · exact ignored

/-- Processing all logs uses up everything that they report. -/
theorem processLogs {logs : List Log} :
    ∀ {s}, Backed k (received k.moduleAddress logs) s →
      Backed k 0 (logs.foldl (Erc20.processLog k) s) := by
  -- Each log takes its part, and nothing is left after the last one.
  induction logs with
  | nil =>
    intro s backed
    exact backed.mono fun _ => Nat.zero_le _
  | cons log logs ih =>
    intro s backed
    have parts : received k.moduleAddress (log :: logs) =
        log.received k.moduleAddress + received k.moduleAddress logs := by
      funext contract
      simp
    rw [parts] at backed
    exact ih backed.processLog

theorem postTxProcessing {logs : List Log}
    (backed : Backed k (received k.moduleAddress logs) s) :
    Backed k 0 (postTxProcessing k s logs) := by
  unfold Erc20.postTxProcessing
  -- What was received stays where it is, if the hook is off.
  split_ifs
  · exact backed.mono fun _ => Nat.zero_le _
  · exact backed.processLogs

end Hook

end Backed

section Runs

variable {k : Keeper} {s origin reached after : State}

/-- The denomination of a coin that is converted does not read as an address. -/
def PlainDenom (_ : State) (call : Call) : Prop :=
  ∀ msg, call.action = .convertCoin msg → isHexAddress msg.coin.denom = false

theorem Backed.step {call : Call} (backed : Backed k 0 s)
    (taken : Guarded PlainDenom (Step k) s call after) : Backed k 0 after := by
  obtain ⟨plain, taken⟩ := taken
  cases taken with
  | registerCoin registered => exact backed.registerCoin registered
  | registerERC20 registered => exact backed.registerERC20 registered
  | toggleConversion toggled => exact backed.toggleConversion toggled
  | convertCoin valid signed converted =>
    exact backed.convertCoin signed (plain _ rfl) converted
  | convertERC20 valid signed converted => exact backed.convertERC20 signed converted
  | transaction ran =>
    -- What the logs report is pending until the hook has run.
    obtain ⟨unapproved, evolves⟩ := run_evolves k.moduleAddress_ne_zero backed.unapproved ran
    have arrived := backed.evolve unapproved evolves
    rw [zero_add] at arrived
    exact arrived.postTxProcessing
  | others escrow supply =>
    -- The others take nothing out of the escrow and issue no coin of a contract.
    have moved := backed.setBank (fun denom => escrow denom)
      (fun contract => Nat.add_le_add_right (supply contract) _)
    exact ⟨moved.registry.untouched (.ofPersists (.refl _) _ _), moved.unapproved, moved.coins,
      moved.tokens⟩

/-- Before the first registration nothing has to be covered. -/
theorem Start.backed (start : Start k origin) : Backed k 0 origin where
  registry := .empty start.tokenPairs start.erc20Map start.denomMap
  unapproved := start.unapproved
  coins denom := by
    rw [State.minted, start.tokenPairs, Store.total_empty]
    exact Nat.zero_le _
  tokens contract := by
    have nothing : origin.issued k contract + (0 : EthAddress → ℕ) contract = 0 :=
      start.unminted contract
    rw [nothing]
    -- Whatever the contract is, there is no coin that it has to back.
    rcases origin.evm.contracts contract with _ | _ | _ | _
    · rfl
    · trivial
    · exact Nat.zero_le _
    · trivial

/-- The contracts paired with a coin of the module's pairs are all the module's. -/
theorem Registry.pairedSupply_eq (registry : Registry k s) {id : ℕ} {pair : TokenPair}
    (stored : s.tokenPairs.get? id = some pair) (owner : pair.contractOwner = .module) :
    s.pairedSupply pair.denom = s.minted pair.denom := by
  refine Store.total_congr _ ?_
  intro other otherPair otherStored
  by_cases same : otherPair.denom = pair.denom
  · -- An external pair would be the only one with the denomination.
    have otherOwner : otherPair.contractOwner = .module := by
      cases owned : otherPair.contractOwner with
      | unspecified =>
        have facts := (registry.registered other otherPair otherStored).owned
        simp [OwnedAs, owned] at facts
      | module => rfl
      | external =>
        have ids := registry.separate other otherPair id pair otherStored stored same owned
        rw [ids, otherStored] at stored
        obtain rfl := Option.some.inj stored
        rw [owned] at owner
        cases owner
    simp [mintedBy, same, otherOwner]
  · simp [mintedBy, same]

/--
In every state that is reached, the module account holds as many coins as there are tokens of all
contracts paired with them, and of a standard token as many as there are coins for it.
-/
theorem pairs_stay_backed (k : Keeper) {calls : List Call} (start : Start k origin)
    (run : Run (Guarded PlainDenom (Step k)) origin calls reached) :
    (∀ denom, (∃ id pair, reached.tokenPairs.get? id = some pair ∧ pair.contractOwner = .module ∧
        pair.denom = denom) →
      reached.pairedSupply denom ≤ reached.bank.balances k.moduleAddress.bytes denom) ∧
    ∀ id pair issuer data token, reached.tokenPairs.get? id = some pair →
      pair.contractOwner = .external →
      reached.evm.contracts pair.getERC20Contract = some (.standard issuer data token) →
      reached.bank.supply pair.denom ≤ token.balances k.moduleAddress := by
  -- The invariant is stated over stores, and read for one coin and one contract.
  have backed : Backed k 0 reached := run.invariant (Backed k 0) Backed.step start.backed
  constructor
  · rintro denom ⟨id, pair, stored, owner, rfl⟩
    rw [backed.registry.pairedSupply_eq stored owner]
    exact backed.coins pair.denom
  · intro id pair issuer data token stored owner found
    have covered := backed.tokens pair.getERC20Contract
    rw [found] at covered
    rw [(backed.registry.denom stored owner).2]
    exact covered

end Runs

section Evaluation

/-- A number for every text, different for different texts. -/
def textSum (text : String) : ℕ :=
  text.toList.foldr (fun c rest => c.toNat + 1 + 1114113 * rest) 0

theorem textSum_injective : Function.Injective textSum := by
  intro first second same
  refine String.toList_injective ?_
  unfold textSum at same
  generalize first.toList = left at same ⊢
  generalize second.toList = right at same ⊢
  -- A character is the last digit of the number, which is zero for the empty text only.
  have small : ∀ c : Char, c.toNat < 1114112 := by
    intro c
    have valid := c.valid
    simp only [Char.toNat, UInt32.isValidChar, Nat.isValidChar] at *
    omega
  induction left generalizing right with
  | nil =>
    cases right with
    | nil => rfl
    | cons d others =>
      simp only [List.foldr_nil, List.foldr_cons] at same
      omega
  | cons c rest ih =>
    cases right with
    | nil =>
      simp only [List.foldr_nil, List.foldr_cons] at same
      omega
    | cons d others =>
      simp only [List.foldr_cons] at same
      have first := small c
      have second := small d
      have heads : c.toNat = d.toNat := by omega
      have tails := ih others (by omega)
      rw [tails, Char.toNat_inj.mp heads]

/-- A keeper for evaluating the model: its module account is the account one. -/
def plainKeeper : Keeper where
  moduleAddress := 1
  moduleAddress_ne_zero := by decide
  format := .lower
  bech32 := .unary
  sum := textSum
  sum_injective := textSum_injective
  createAddress _ _ := 0xaaaaaaaaaaaaaaaaaaaaaaaaaaaaaaaaaaaaaaaa
  blockedAddr address := address = 1
  validateMetadata _ := .ok ()
  program _ _ _ _ := .reverted "execution reverted"

/-- Nothing is locked, and every coin may be sent. -/
def unlocked : Context := ⟨fun _ => 0, fun _ => true⟩

/-- A coin to be registered. -/
def atomMetadata : Metadata := ⟨"", [⟨"atom", 0, []⟩], "atom", "atom", "Atom", "ATOM"⟩

/-- A denomination that reads as the address of the first contract that is deployed. -/
def hexDenom : Denom := "aaaaaaaaaaaaaaaaaaaaaaaaaaaaaaaaaaaaaaaa"

/-- Account two holds five such coins, and account three five atoms. -/
def fiveEach : State where
  params := ⟨true, true⟩
  tokenPairs := .empty
  erc20Map := .empty
  denomMap := .empty
  bank :=
    { balances := fun address =>
        if address = 2 then Coins.ofCoin hexDenom 5
        else if address = 3 then Coins.ofCoin "atom" 5 else 0
      supply := Coins.ofCoin hexDenom 5 + Coins.ofCoin "atom" 5 }
  denomMetadata := .empty
  evm := ⟨fun _ => none, 0⟩

/-- Account two receives tokens for five coins. -/
def convertFive (denom : Denom) (sender : String) : MsgConvertCoin :=
  ⟨⟨denom, 5⟩, "0x0000000000000000000000000000000000000002", sender⟩

theorem createDenom_ne {text : Denom} (other : text.toList.head? ≠ some 'e') (address : String) :
    createDenom address ≠ text := by
  intro same
  apply other
  -- They begin with the name of the module.
  rw [← same, createDenom, moduleName, String.toList_append, String.toList_append]
  rfl

theorem fiveEach_start : Start plainKeeper fiveEach where
  tokenPairs := rfl
  erc20Map := rfl
  denomMap := rfl
  unminted address := by
    change (Coins.ofCoin hexDenom 5 + Coins.ofCoin "atom" 5) _ = 0
    rw [DFinsupp.add_apply, Coins.ofCoin_apply, Coins.ofCoin_apply,
      if_neg (createDenom_ne (by decide) _), if_neg (createDenom_ne (by decide) _)]
  unapproved _ _ _ _ found := by cases found

set_option maxRecDepth 4000 in
/-- Atoms are converted, and tokens are sent to the hook, which mints coins for them. -/
theorem fiveEach_stays_backed :
    ∃ reached, Start plainKeeper fiveEach ∧
      Run (Guarded PlainDenom (Step plainKeeper)) fiveEach
        [⟨unlocked, .transaction [.createStandard 9 2 ⟨"Nine", "NINE", 0⟩, .call 2 9 (.mint 2 7)]⟩,
          ⟨unlocked, .registerERC20 9⟩, ⟨unlocked, .registerCoin atomMetadata⟩,
          ⟨unlocked, .convertCoin (convertFive "atom" "111")⟩,
          ⟨unlocked, .transaction [.call 2 9 (.token (.transfer 1 3))]⟩] reached ∧
      reached.pairedSupply "atom" = 5 ∧
      reached.pairedSupply "atom" ≤ reached.bank.balances plainKeeper.moduleAddress.bytes "atom" ∧
      ∃ (pair : TokenPair) (issuer : EthAddress) (data : ERC20Data) (token : Token EthAddress),
        reached.evm.contracts pair.getERC20Contract = some (.standard issuer data token) ∧
        reached.bank.supply pair.denom = 3 ∧
        reached.bank.supply pair.denom ≤ token.balances plainKeeper.moduleAddress := by
  -- The run is computed first, so that the bounds are not evaluated.
  have ran : ∃ reached, Run (Guarded PlainDenom (Step plainKeeper)) fiveEach
        [⟨unlocked, .transaction [.createStandard 9 2 ⟨"Nine", "NINE", 0⟩, .call 2 9 (.mint 2 7)]⟩,
          ⟨unlocked, .registerERC20 9⟩, ⟨unlocked, .registerCoin atomMetadata⟩,
          ⟨unlocked, .convertCoin (convertFive "atom" "111")⟩,
          ⟨unlocked, .transaction [.call 2 9 (.token (.transfer 1 3))]⟩] reached ∧
      reached.pairedSupply "atom" = 5 ∧
      (∃ id pair, reached.tokenPairs.get? id = some pair ∧ pair.contractOwner = .module ∧
        pair.denom = "atom") ∧
      ∃ id pair issuer data token, reached.tokenPairs.get? id = some pair ∧
        pair.contractOwner = .external ∧
        reached.evm.contracts pair.getERC20Contract = some (.standard issuer data token) ∧
        reached.bank.supply pair.denom = 3 := by
    refine ⟨_, .extend (.extend (.extend (.extend (.extend .start
      ⟨nofun, .transaction rfl⟩) ⟨nofun, .registerERC20 rfl⟩) ⟨nofun, .registerCoin rfl⟩)
      ⟨?_, .convertCoin rfl (by decide) rfl⟩) ⟨nofun, .transaction rfl⟩, rfl, ?_, ?_⟩
    · rintro _ ⟨⟩
      rfl
    · exact ⟨textSum "0xaaaaaaaaaaaaaaaaaaaaaaaaaaaaaaaaaaaaaaaa|atom", _, rfl, rfl, rfl⟩
    · exact ⟨textSum ("0x0000000000000000000000000000000000000009|" ++
        "erc20/0x0000000000000000000000000000000000000009"), _, _, _, _, rfl, rfl, rfl, rfl⟩
  obtain ⟨reached, run, five, atoms, id, pair, issuer, data, token, stored, owner, found, three⟩ := ran
  obtain ⟨coins, tokens⟩ := pairs_stay_backed plainKeeper fiveEach_start run
  exact ⟨reached, fiveEach_start, run, five, coins "atom" atoms, pair, issuer, data, token, found,
    three, tokens id pair issuer data token stored owner found⟩

/-- Coins named after a contract mint its tokens, while no atom is escrowed for them. -/
theorem hexDenom_mints_unbacked :
    ∃ reached, Start plainKeeper fiveEach ∧
      Run (Step plainKeeper) fiveEach
        [⟨unlocked, .registerCoin atomMetadata⟩,
          ⟨unlocked, .convertCoin (convertFive hexDenom "11")⟩] reached ∧
      (∃ id pair, reached.tokenPairs.get? id = some pair ∧ pair.contractOwner = .module ∧
        pair.denom = "atom") ∧
      reached.bank.balances plainKeeper.moduleAddress.bytes "atom" <
        reached.pairedSupply "atom" := by
  -- The conversion finds the pair by the address that the coin is named after.
  refine ⟨_, fiveEach_start, .extend (.extend .start (.registerCoin rfl))
    (.convertCoin rfl (by decide) rfl), ⟨textSum
      "0xaaaaaaaaaaaaaaaaaaaaaaaaaaaaaaaaaaaaaaaa|atom", _, rfl, rfl, rfl⟩, ?_⟩
  decide

end Evaluation

end Evmos.Erc20
