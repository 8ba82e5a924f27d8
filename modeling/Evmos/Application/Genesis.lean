import Evmos.Application.Chain
import Evmos.Erc20.Chain
import Evmos.Erc20.Genesis
import Evmos.Incentives.Genesis

/-! The genesis of the application: the modules are initialised one after the other. -/

namespace Evmos.Application

open Library

/-- The genesis states of the modules. -/
structure GenesisState where
  claims : Claims.GenesisState
  inflation : Inflation.GenesisState
  erc20 : Erc20.GenesisState
  incentives : Incentives.GenesisState
  epochs : List Epochs.EpochInfo
  recovery : Recovery.Params
  feesplit : Feesplit.GenesisState

/--
`InitGenesis` of the modules, in the order of `SetOrderInitGenesis`.

The modules of the SDK and of the EVM have set up their part of the state before.
The account keeper has permissions for every module account, so it finds or creates them.
-/
def initGenesis (app : App) (blockHeight : ℤ) (data : GenesisState) (s : State) :
    Result Chain := do
  let s ← claimsView.modifyM (Claims.initGenesis app.claimsKeeper s.blockTime · data.claims) s
  let s ← inflationView.modifyM (Inflation.initGenesis app.inflationKeeper data.inflation) s
  let s ← erc20View.modifyM (Erc20.initGenesis app.erc20Keeper true · data.erc20) s
  let s ← incentivesView.modifyM (Incentives.initGenesis true · data.incentives) s
  let chain : Chain := Epochs.initGenesis ⟨s.blockTime, blockHeight⟩ data.epochs ⟨.empty, s⟩
  let s := { chain.hooked with recovery := { chain.hooked.recovery with params := data.recovery } }
  let s ← feesplitView.modifyM (Feesplit.initGenesis app.feesplitKeeper · data.feesplit) s
  .ok { chain with hooked := s }

/-- A chain that starts: no module has stored anything, and nothing is registered at genesis. -/
structure Fresh (app : App) (data : GenesisState) (s : State) : Prop where
  claims : s.claims.records = .empty
  erc20 : Erc20.Start app.erc20Keeper (erc20View.get s)
  incentives : s.incentives.incentives = .empty
  gasMeters : s.incentives.gasMeters = .empty
  allocationMeters : s.incentives.allocationMeters = .empty
  feeSplits : s.feesplit.feeSplits = .empty
  deployerMap : s.feesplit.deployerMap = .empty
  withdrawerMap : s.feesplit.withdrawerMap = .empty
  noPairs : data.erc20.tokenPairs = []
  noIncentives : data.incentives.incentives = []
  noGasMeters : data.incentives.gasMeters = []
  noFeeSplits : data.feesplit.feeSplits = []
  -- The genesis of the inflation module is valid, and mints coins that are not of a contract.
  inflation : data.inflation.validate app.validators.validDenom = .ok ()
  mintDenom : ¬isErc20Denom app.format data.inflation.params.mintDenom
  -- The airdrop is for users, and so are grants.
  claimants : ∀ claimsRecord ∈ data.claims.claimsRecords, ∀ addr,
    app.bech32.decode claimsRecord.address = some addr → app.modules.blockedAddr addr = false
  placed : Placed app (vestingView.get s)

end Evmos.Application
