import Evmos.Proofs.Erc20.Genesis
import Evmos.Proofs.Erc20.Solvency
import Evmos.Proofs.Feesplit.Genesis

/-! Registries that are keyed by addresses and validated by their spellings. -/

namespace Evmos

open Library

/-- In both modules, a valid genesis is kept whole exactly when no contract occurs twice in it. -/
theorem genesis_registries_iff (k : Erc20.Keeper) (f : Feesplit.Keeper) :
    (∀ (s : Erc20.State) (data : Erc20.GenesisState), s.tokenPairs = .empty → s.denomMap = .empty →
      s.erc20Map = .empty → data.validate = .ok () →
      ∃ after, Erc20.initGenesis k true s data = .ok after ∧
        (Erc20.Consistent k after ∧
            (Erc20.exportGenesis after).tokenPairs.length = data.tokenPairs.length ↔
          (data.tokenPairs.map Erc20.TokenPair.getERC20Contract).Nodup)) ∧
    ∀ (params : Feesplit.Params) (bank : Bank) (data : Feesplit.GenesisState),
      data.validate f.bech32 = .ok () →
      ∃ after, Feesplit.initGenesis f (.empty params bank) data = .ok after ∧
        (Feesplit.ExactMaps f after ∧
            (Feesplit.exportGenesis after).feeSplits.length = data.feeSplits.length ↔
          (data.feeSplits.map Feesplit.FeeSplit.getContractAddr).Nodup) := by
  -- Both modules store by contract, and check for repeated texts only.
  constructor
  · intro s data noPairs noDenoms noContracts valid
    exact Erc20.initGenesis_consistent_iff noPairs noDenoms noContracts valid
  · intro params bank data valid
    exact Feesplit.initGenesis_exact_iff valid

/-- The address ten, in lower case. -/
def lowerTen : String := "0x000000000000000000000000000000000000000a"

/-- The address ten, in upper case. -/
def upperTen : String := "0x000000000000000000000000000000000000000A"

/-- The address eleven. -/
def lowerEleven : String := "0x000000000000000000000000000000000000000b"

/-- Two token pairs, for contracts that are given as texts. -/
def twoPairs (contract other : String) : Erc20.GenesisState :=
  ⟨⟨true, true⟩, [⟨contract, "acoin", true, .module⟩, ⟨other, "bcoin", true, .module⟩]⟩

/-- Two fee splits of different deployers, for contracts that are given as texts. -/
def twoFeeSplits (contract other : String) : Feesplit.GenesisState :=
  ⟨⟨true, 0⟩, [⟨contract, "qq", ""⟩, ⟨other, "qqq", "q"⟩]⟩

/-- Two contracts are kept by both modules. -/
theorem two_contracts_kept :
    (∃ after, Erc20.initGenesis Erc20.plainKeeper true Erc20.fiveEach
        (twoPairs lowerTen lowerEleven) = .ok after ∧
      Erc20.Consistent Erc20.plainKeeper after ∧
      (Erc20.exportGenesis after).tokenPairs.length = 2) ∧
    ∃ after, Feesplit.initGenesis .plain Feesplit.unregistered (twoFeeSplits lowerTen lowerEleven) =
        .ok after ∧
      Feesplit.ExactMaps .plain after ∧ (Feesplit.exportGenesis after).feeSplits.length = 2 := by
  obtain ⟨pairs, feeSplits⟩ := genesis_registries_iff Erc20.plainKeeper .plain
  obtain ⟨erc20, imported, iff⟩ := pairs Erc20.fiveEach (twoPairs lowerTen lowerEleven) rfl rfl rfl
    (by decide +kernel)
  -- The two spellings are of different contracts.
  obtain ⟨feesplit, filled, exactIff⟩ := feeSplits _ _ (twoFeeSplits lowerTen lowerEleven)
    (by decide +kernel)
  exact ⟨⟨erc20, imported, iff.mpr (by decide +kernel)⟩,
    feesplit, filled, exactIff.mpr (by decide +kernel)⟩

/-- One contract in two spellings is accepted, and leaves both registries inconsistent. -/
theorem respelled_contract_accepted :
    ((twoPairs lowerTen upperTen).validate = .ok () ∧
      ∃ after, Erc20.initGenesis Erc20.plainKeeper true Erc20.fiveEach
          (twoPairs lowerTen upperTen) = .ok after ∧ ¬ Erc20.Consistent Erc20.plainKeeper after) ∧
    (twoFeeSplits lowerTen upperTen).validate Feesplit.letters = .ok () ∧
      ∃ after, Feesplit.initGenesis .plain Feesplit.unregistered (twoFeeSplits lowerTen upperTen) =
          .ok after ∧
        ¬ Feesplit.ExactMaps .plain after ∧ (Feesplit.exportGenesis after).feeSplits.length = 1 := by
  refine ⟨⟨by decide +kernel, ?_⟩, by decide +kernel, ?_⟩
  · -- The first pair is stored, but its contract leads to the second one.
    have ran : (Erc20.initGenesis Erc20.plainKeeper true Erc20.fiveEach
        (twoPairs lowerTen upperTen)).map (fun after =>
          (after.tokenPairs.get? (Erc20.textSum (lowerTen ++ "|acoin")), after.erc20Map.get? 10)) =
        .ok (some ⟨lowerTen, "acoin", true, .module⟩,
          some (Erc20.textSum (upperTen ++ "|bcoin"))) := by
      decide +kernel
    obtain ⟨after, imported, values⟩ := map_eq_ok.mp ran
    obtain ⟨stored, indexed⟩ := Prod.mk.inj values
    refine ⟨after, imported, fun consistent => ?_⟩
    have own := (consistent _ _ stored).2
    have ten : Erc20.TokenPair.getERC20Contract ⟨lowerTen, "acoin", true, .module⟩ = 10 := by
      decide +kernel
    rw [ten, indexed] at own
    exact absurd own (by decide +kernel)
  · -- The first deployer is still entered, for a fee split of the second one.
    have ran : (Feesplit.initGenesis .plain Feesplit.unregistered
        (twoFeeSplits lowerTen upperTen)).map (fun after =>
          (after.isDeployerMapSet .plain 1 10, after.getFeeSplit 10,
            (Feesplit.exportGenesis after).feeSplits.length)) =
        .ok (true, some ⟨upperTen, "qqq", "q"⟩, 1) := by
      decide +kernel
    obtain ⟨after, imported, values⟩ := map_eq_ok.mp ran
    obtain ⟨entered, rest⟩ := Prod.mk.inj values
    obtain ⟨stored, exported⟩ := Prod.mk.inj rest
    refine ⟨after, imported, fun exact => ?_, exported⟩
    obtain ⟨feeSplit, found, decoded⟩ := (exact.deployers 1 10).mp entered
    rw [stored] at found
    obtain rfl := Option.some.inj found
    exact absurd decoded (by decide +kernel)

end Evmos
