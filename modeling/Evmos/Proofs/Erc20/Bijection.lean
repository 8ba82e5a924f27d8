import Evmos.Proofs.Erc20.Solvency

/-! The registry is a bijection of denominations and contracts while no coin is registered twice. -/

namespace Evmos.Erc20

open Library

/-- Every stored pair is the one its denomination leads to. -/
def Listed (s : State) : Prop :=
  ∀ id pair, s.tokenPairs.get? id = some pair → s.denomMap.get? pair.denom = some id

namespace Listed

variable {k : Keeper} {s after : State} {pair : TokenPair}

theorem untouched (listed : Listed s) (untouched : Untouched s after) : Listed after := by
  intro id pair stored
  rw [untouched.tokenPairs] at stored
  rw [untouched.denomMap]
  exact listed id pair stored

theorem registerPair (listed : Listed s) (new : s.denomMap.get? pair.denom = none) :
    Listed (s.registerPair k.sum pair) := by
  intro id other stored
  simp only [State.registerPair, State.setTokenPair] at stored ⊢
  -- The entry found is the new one, or one of before with another denomination.
  rcases Store.get?_set_eq_some.mp stored with ⟨rfl, rfl⟩ | ⟨-, before⟩
  · rw [Store.get?_set_self]
  · have there := listed id other before
    have apart : other.denom ≠ pair.denom := by
      intro same
      rw [same, new] at there
      cases there
    rw [Store.get?_set_of_ne _ apart]
    exact there

/-- Switching a pair on or off changes no denomination. -/
theorem toggle (listed : Listed s) (registry : Registry k s) {id : ℕ}
    (found : s.tokenPairs.get? id = some pair) (enabled : Bool) :
    Listed (s.setTokenPair k.sum { pair with enabled := enabled }) := by
  intro other switched stored
  -- The identifier is made of what stays as it is.
  have key : ({ pair with enabled := enabled } : TokenPair).getID k.sum = id :=
    (registry.registered id pair found).keyed.symm
  simp only [State.setTokenPair, key] at stored ⊢
  rcases Store.get?_set_eq_some.mp stored with ⟨rfl, rfl⟩ | ⟨-, before⟩
  · exact listed other pair found
  · exact listed other switched before

/-- Removing a pair leaves the denominations of the others in the index. -/
theorem deleteTokenPair (listed : Listed s) (registry : Registry k s) {id : ℕ}
    (found : s.tokenPairs.get? id = some pair) : Listed (s.deleteTokenPair k.sum pair) := by
  intro other left stored
  have key : pair.getID k.sum = id := (registry.registered id pair found).keyed.symm
  simp only [State.deleteTokenPair, key] at stored ⊢
  obtain ⟨here, before⟩ := Store.get?_delete_eq_some.mp stored
  -- The denomination leads to one pair only, and that is the removed one.
  have apart : left.denom ≠ pair.denom := by
    intro same
    have first := listed other left before
    rw [same, listed id pair found] at first
    exact here (Option.some.inj first).symm
  rw [Store.get?_delete_of_ne _ apart]
  exact listed other left before

theorem converted (listed : Listed s) (registry : Registry k s) (converted : Converted k s after) :
    Listed after := by
  cases converted with
  | untouched kept => exact listed.untouched kept
  | removed found gone =>
    obtain ⟨id, stored, -⟩ := registry.findTokenPair found
    exact listed.deleteTokenPair registry stored

end Listed

/-- The base denomination of a coin that is registered is not registered yet. -/
def NewBase (s : State) (call : Call) : Prop :=
  ∀ coinMetadata, call.action = .registerCoin coinMetadata →
    s.denomMap.get? coinMetadata.base = none

/-- Every step that registers new coins only keeps every pair listed. -/
theorem Listed.step {k : Keeper} {s after : State} {call : Call} (listed : Listed s)
    (registry : Registry k s) (taken : Guarded NewBase (Step k) s call after) : Listed after := by
  obtain ⟨new, taken⟩ := taken
  cases taken with
  | registerCoin registered =>
    -- The condition is that the base denomination has no pair yet.
    have unlisted := new _ rfl
    obtain ⟨-, noted, addr, evm, verified, deployed, rfl, rfl⟩ := registerCoin_ok registered
    obtain ⟨-, untouched, -⟩ := verifyMetadata_ok verified
    rw [← untouched.denomMap] at unlisted
    have noting := listed.untouched untouched
    have acting : Listed { noted with evm := evm } := noting
    exact acting.registerPair unlisted
  | registerERC20 registered =>
    -- The code itself checks the denomination of a new contract.
    obtain ⟨-, absent, unlisted, -, rfl, metadata, -, rfl⟩ := registerERC20_ok registered
    exact (listed.untouched (.setMetadata absent metadata)).registerPair unlisted
  | toggleConversion toggled =>
    obtain ⟨found, looked, rfl, rfl⟩ := toggleConversion_ok toggled
    obtain ⟨id, stored, -⟩ := registry.findTokenPair looked
    exact listed.toggle registry stored _
  | convertCoin valid signed converted =>
    exact listed.converted registry (convertCoin_converted converted)
  | convertERC20 valid signed converted =>
    exact listed.converted registry (convertERC20_converted converted)
  | transaction ran =>
    have acted := Untouched.ofPersists (run_persists ran) s.params s.bank
    exact listed.untouched (acted.trans (postTxProcessing_untouched _ _))
  | others escrow supply => exact listed.untouched (.ofPersists (.refl _) _ _)

/--
From an empty registry, every stored pair is found by its denomination and by its contract, and
both indices lead to stored pairs only, so neither belongs to two pairs.
-/
theorem registry_is_bijective (k : Keeper) {origin reached : State} {calls : List Call}
    (tokenPairs : origin.tokenPairs = .empty) (erc20Map : origin.erc20Map = .empty)
    (denomMap : origin.denomMap = .empty)
    (run : Run (Guarded NewBase (Step k)) origin calls reached) :
    (∀ id pair, reached.tokenPairs.get? id = some pair →
      id = pair.getID k.sum ∧ reached.denomMap.get? pair.denom = some (pair.getID k.sum) ∧
        reached.erc20Map.get? pair.getERC20Contract = some (pair.getID k.sum)) ∧
      (∀ denom id, reached.denomMap.get? denom = some id →
        ∃ pair, reached.tokenPairs.get? id = some pair ∧ pair.denom = denom) ∧
      (∀ contract id, reached.erc20Map.get? contract = some id →
        ∃ pair, reached.tokenPairs.get? id = some pair ∧ pair.getERC20Contract = contract) ∧
      ∀ id pair other otherPair, reached.tokenPairs.get? id = some pair →
        reached.tokenPairs.get? other = some otherPair →
        pair.denom = otherPair.denom ∨ pair.getERC20Contract = otherPair.getERC20Contract →
        id = other := by
  -- Without pairs there is nothing to keep.
  have initially : Registry k origin ∧ Listed origin := by
    refine ⟨.empty tokenPairs erc20Map denomMap, ?_⟩
    intro id pair stored
    rw [tokenPairs, Store.get?_empty] at stored
    cases stored
  -- Every step keeps the registry, and the guarded ones keep every pair listed.
  obtain ⟨registry, listed⟩ : Registry k reached ∧ Listed reached :=
    run.invariant (fun s => Registry k s ∧ Listed s)
      (fun both taken => ⟨both.1.step taken.2, both.2.step both.1 taken⟩) initially
  refine ⟨?_, registry.named, registry.located, ?_⟩
  · intro id pair stored
    have facts := registry.registered id pair stored
    exact ⟨facts.keyed, facts.keyed ▸ listed id pair stored, facts.keyed ▸ facts.indexed⟩
  · rintro id pair other otherPair stored otherStored (denoms | contracts)
    · -- One denomination is listed once.
      have first := listed id pair stored
      rw [denoms, listed other otherPair otherStored] at first
      exact (Option.some.inj first).symm
    · exact registry.unique stored otherStored contracts

section Evaluation

/-- The units of `banktypes.Metadata.Validate`: increasing, distinct, and valid denominations. -/
def validUnits : List DenomUnit → Bool
  | [] => true
  | unit :: rest =>
    validDenom unit.denom && unit.aliases.Nodup && unit.aliases.all (fun name => name ≠ "") &&
      rest.all (fun other => unit.exponent < other.exponent && unit.denom ≠ other.denom) &&
      validUnits rest

/-- `banktypes.Metadata.Validate`, for evaluation. -/
def bankValidate (metadata : Metadata) : Result Unit :=
  if isBlank metadata.name || isBlank metadata.symbol ||
      !validDenom metadata.base || !validDenom metadata.display ||
      metadata.denomUnits.head?.any (fun unit => unit.denom ≠ metadata.base || unit.exponent ≠ 0) ||
      !metadata.denomUnits.any (fun unit => unit.denom = metadata.display) ||
      !validUnits metadata.denomUnits then
    .error ⟨.external, "invalid metadata"⟩
  else .ok ()

/--
A keeper for evaluation that deploys each contract at an address of its own.

Hostile contracts answer the queries of a registration.
-/
def bankKeeper : Keeper :=
  { plainKeeper with
    createAddress := fun _ nonce =>
      if nonce = 0 then 0xaaaaaaaaaaaaaaaaaaaaaaaaaaaaaaaaaaaaaaaa
      else 0xbbbbbbbbbbbbbbbbbbbbbbbbbbbbbbbbbbbbbbbb
    validateMetadata := bankValidate
    program := fun _ _ _ method =>
      match method with
      | .name => .returned (.text "Nine") []
      | .symbol => .returned (.text "NINE") []
      | .decimals => .returned (.word 0) []
      | _ => .reverted "execution reverted" }

/-- Account two converts one token of the contract nine. -/
def convertNine : MsgConvertERC20 :=
  ⟨"0x0000000000000000000000000000000000000009", 1, "11",
    "0x0000000000000000000000000000000000000002"⟩

/-- The calls that register a coin and a contract, of which the contract destroys itself. -/
def destroyNine : List Call :=
  [⟨unlocked, .registerCoin atomMetadata⟩, ⟨unlocked, .transaction [.createHostile 9 0]⟩,
    ⟨unlocked, .registerERC20 9⟩, ⟨unlocked, .toggleConversion "atom"⟩,
    ⟨unlocked, .transaction [.run 9 false 0 []]⟩, ⟨unlocked, .convertERC20 convertNine⟩]

set_option maxRecDepth 4000 in
/-- The conversion removes the contract's pair, and the coin's pair is still found. -/
theorem destroyed_contract_leaves_bijection :
    ∃ reached, Run (Guarded NewBase (Step bankKeeper)) fiveEach destroyNine reached ∧
      reached.erc20Map.get? 9 = none ∧
      ∃ id pair, reached.tokenPairs.get? id = some pair ∧ pair.denom = "atom" ∧
        reached.denomMap.get? pair.denom = some (pair.getID textSum) := by
  -- Each step is computed, and the base of the coin is new.
  have ran : ∃ reached, Run (Guarded NewBase (Step bankKeeper)) fiveEach destroyNine reached ∧
      reached.erc20Map.get? 9 = none ∧
      ∃ id pair, reached.tokenPairs.get? id = some pair ∧ pair.denom = "atom" := by
    refine ⟨_, .extend (.extend (.extend (.extend (.extend (.extend .start ⟨?_, .registerCoin rfl⟩)
      ⟨nofun, .transaction rfl⟩) ⟨nofun, .registerERC20 rfl⟩) ⟨nofun, .toggleConversion rfl⟩)
      ⟨nofun, .transaction rfl⟩) ⟨nofun, .convertERC20 rfl (by decide) rfl⟩, rfl, ?_⟩
    · rintro _ ⟨⟩
      rfl
    · exact ⟨textSum "0xaaaaaaaaaaaaaaaaaaaaaaaaaaaaaaaaaaaaaaaa|atom", _, rfl, rfl⟩
  obtain ⟨reached, run, gone, id, pair, stored, denom⟩ := ran
  exact ⟨reached, run, gone, id, pair, stored, denom,
    ((registry_is_bijective bankKeeper rfl rfl rfl run).1 id pair stored).2.1⟩

set_option maxRecDepth 4000 in
/-- The same valid coin is registered twice, and then has two pairs but one entry. -/
theorem coin_is_registered_twice :
    (RegisterCoinProposal.mk "title" "description" atomMetadata).validateBasic
        bankKeeper.validateMetadata (fun _ _ => .ok ()) = .ok () ∧
      ∃ reached, Run (Step bankKeeper) fiveEach
          [⟨unlocked, .registerCoin atomMetadata⟩, ⟨unlocked, .registerCoin atomMetadata⟩] reached ∧
        ∃ id pair, reached.tokenPairs.get? id = some pair ∧
          reached.denomMap.get? pair.denom ≠ some (pair.getID textSum) ∧
          ∃ other otherPair, reached.tokenPairs.get? other = some otherPair ∧ other ≠ id ∧
            otherPair.denom = pair.denom := by
  -- The second contract has another address, and its pair another identifier.
  refine ⟨rfl, _, .extend (.extend .start (.registerCoin rfl)) (.registerCoin rfl),
    textSum "0xaaaaaaaaaaaaaaaaaaaaaaaaaaaaaaaaaaaaaaaa|atom",
    ⟨"0xaaaaaaaaaaaaaaaaaaaaaaaaaaaaaaaaaaaaaaaa", "atom", true, .module⟩, rfl, ?_,
    textSum "0xbbbbbbbbbbbbbbbbbbbbbbbbbbbbbbbbbbbbbbbb|atom",
    ⟨"0xbbbbbbbbbbbbbbbbbbbbbbbbbbbbbbbbbbbbbbbb", "atom", true, .module⟩, rfl, ?_, rfl⟩
  · decide
  · decide

end Evaluation

end Evmos.Erc20
