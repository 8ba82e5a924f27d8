import Evmos.Application.TransferStack
import Evmos.Epochs.Keeper
import Evmos.Inflation.Genesis

/-! The application over time: blocks, transactions, proposals, packets, and what others change. -/

namespace Evmos.Application

open Library

variable (app : App)

section Hooks

/-- The epoch hooks of the incentives module. -/
def incentivesEpochHooks : Epochs.EpochHooks State where
  afterEpochEnd identifier epochNumber :=
    incentivesView.modifyM (Incentives.afterEpochEnd app.incentivesKeeper identifier epochNumber)
  beforeEpochStart _ _ s := .ok s

/-- The epoch hooks of the inflation module. -/
def inflationEpochHooks : Epochs.EpochHooks State where
  afterEpochEnd identifier epochNumber :=
    inflationView.modifyM (Inflation.afterEpochEnd app.inflationKeeper identifier epochNumber)
  beforeEpochStart _ _ s := .ok s

/-- The hooks of `EpochsKeeper`, in their order. -/
def epochHooks : Epochs.EpochHooks State :=
  Epochs.multiEpochHooks [incentivesEpochHooks app, inflationEpochHooks app]

/-- A transaction of the EVM that does not revert. -/
structure EthereumTx where
  fromAddr : EthAddress
  -- Absent for the creation of a contract.
  toAddr : Option EthAddress
  ops : List Op
  gasPrice : ℕ
  gasUsed : ℕ

/-- The hooks of `EvmKeeper`, in their order. An error of one of them reverts the transaction. -/
def postTxProcessing (s : State) (tx : EthereumTx) (logs : List Log) : Result State := do
  let s := erc20View.modify (Erc20.postTxProcessing app.erc20Keeper · logs) s
  let s := incentivesView.modify
    (Incentives.postTxProcessing s.incentivesContext ·
      ⟨tx.toAddr.map EthAddress.bytes, tx.fromAddr.bytes, tx.gasUsed⟩) s
  let s ← feesplitView.modifyM
    (Feesplit.postTxProcessing app.feesplitKeeper app.evmDenom ·
      ⟨tx.toAddr, tx.gasPrice, tx.gasUsed⟩) s
  .ok (claimsView.modify
    (Claims.postTxProcessing app.claimsKeeper s.blockTime · tx.fromAddr.bytes) s)

/-- `ApplyTransaction`. Values and fees are moved before. -/
def applyTransaction (s : State) (tx : EthereumTx) : Result State :=
  match s.evm.run app.erc20Address tx.ops with
  | none => .error ⟨.errVMExecution, "execution reverted"⟩
  | some (evm, logs) => postTxProcessing app { s with evm := evm } tx logs

end Hooks

section Messages

/-- The messages of the modules. -/
inductive Msg where
  | convertCoin (msg : Erc20.MsgConvertCoin)
  | convertERC20 (msg : Erc20.MsgConvertERC20)
  | registerFeeSplit (msg : Feesplit.MsgRegisterFeeSplit)
  | updateFeeSplit (msg : Feesplit.MsgUpdateFeeSplit)
  | cancelFeeSplit (msg : Feesplit.MsgCancelFeeSplit)
  | createClawbackVestingAccount (msg : Vesting.MsgCreateClawbackVestingAccount)
  | clawback (msg : Vesting.MsgClawback)

namespace Msg

/-- `ValidateBasic`. -/
def validateBasic : Msg → Result Unit
  | convertCoin msg => msg.validateBasic app.bech32
  | convertERC20 msg => msg.validateBasic app.bech32
  | registerFeeSplit msg => msg.validateBasic app.bech32
  | updateFeeSplit msg => msg.validateBasic app.bech32
  | cancelFeeSplit msg => msg.validateBasic app.bech32
  | createClawbackVestingAccount msg => msg.validateBasic app.bech32
  | clawback msg => msg.validateBasic app.bech32

/-- `GetSigners`. -/
def signer : Msg → Option Address
  | convertCoin msg => app.bech32.decode msg.sender
  | convertERC20 msg => some (hexToAddress msg.sender).bytes
  | registerFeeSplit msg => app.bech32.decode msg.deployerAddress
  | updateFeeSplit msg => app.bech32.decode msg.deployerAddress
  | cancelFeeSplit msg => app.bech32.decode msg.deployerAddress
  | createClawbackVestingAccount msg => app.bech32.decode msg.fromAddress
  | clawback msg => app.bech32.decode msg.funderAddress

/-- The message server of its module. -/
def handle (s : State) : Msg → Result State
  | convertCoin msg =>
    erc20View.modifyM (Erc20.convertCoin app.erc20Keeper s.erc20Context · msg) s
  | convertERC20 msg =>
    erc20View.modifyM (Erc20.convertERC20 app.erc20Keeper s.erc20Context · msg) s
  | registerFeeSplit msg =>
    feesplitView.modifyM (Feesplit.registerFeeSplit app.feesplitKeeper s.evmAccount · msg) s
  | updateFeeSplit msg =>
    feesplitView.modifyM (Feesplit.updateFeeSplit app.feesplitKeeper · msg) s
  | cancelFeeSplit msg =>
    feesplitView.modifyM (Feesplit.cancelFeeSplit app.feesplitKeeper · msg) s
  | createClawbackVestingAccount msg =>
    vestingView.modifyM
      (Vesting.createClawbackVestingAccount app.bech32 (app.vestingContext s) · msg) s
  | clawback msg =>
    vestingView.modifyM (Vesting.clawback app.bech32 (app.vestingContext s) · msg) s

end Msg

/-- A transaction: all of its messages are valid and are handled, or nothing happens. -/
def deliverTx (s : State) (msgs : List Msg) : Result State := do
  msgs.forM (Msg.validateBasic app)
  msgs.foldlM (Msg.handle app) s

/-- The proposals of the modules. -/
inductive Proposal where
  | registerCoin (coinMetadata : Erc20.Metadata)
  | registerERC20 (contract : EthAddress)
  | toggleTokenConversion (token : String)
  | registerIncentive (proposal : Incentives.RegisterIncentiveProposal)
  | cancelIncentive (contract : Address)

/-- The proposal handler of its module. -/
def Proposal.handle (s : State) : Proposal → Result State
  | registerCoin coinMetadata =>
    erc20View.modifyM (fun part => (Erc20.registerCoin app.erc20Keeper part coinMetadata).map
      Prod.snd) s
  | registerERC20 contract =>
    erc20View.modifyM (fun part => (Erc20.registerERC20 app.erc20Keeper part contract).map
      Prod.snd) s
  | toggleTokenConversion token =>
    erc20View.modifyM (fun part => (Erc20.toggleConversion app.erc20Keeper part token).map
      Prod.snd) s
  | registerIncentive proposal => do
    -- The checks are made when the proposal is submitted.
    proposal.validateBasic app.validators
    incentivesView.modifyM (fun part =>
      (Incentives.registerIncentive app.incentivesKeeper s.incentivesContext part
        (app.incentivesKeeper.hexToAddress proposal.contract) proposal.allocations
        proposal.epochs).map Prod.snd) s
  | cancelIncentive contract =>
    incentivesView.modifyM (Incentives.cancelIncentive app.incentivesKeeper · contract) s

end Messages

/-- What the modules of the SDK and of the EVM, and changes of parameters, leave behind. -/
structure Outside where
  accounts : Address → Option Account
  bank : Bank
  isSendEnabled : Denom → Bool
  communityPool : Coins
  totalBondedTokens : ℕ
  delegatorBonded : Address → ℕ
  delegatorUnbonding : Address → ℕ
  denomTraces : ℕ → Option Recovery.DenomTrace
  hasChannel : String → String → Bool
  claimsParams : Claims.Params
  erc20Params : Erc20.Params
  incentivesParams : Incentives.Params
  feesplitParams : Feesplit.Params
  inflationParams : Inflation.Params
  recoveryParams : Recovery.Params
  -- The accounts that have paid, and the coins that were issued or burned.
  payers : Set Address
  issued : Set Denom

/-- The state after others have acted: the stores of the modules are their own. -/
def Outside.apply (outside : Outside) (s : State) : State :=
  { s with
    accounts := outside.accounts
    bank := outside.bank
    isSendEnabled := outside.isSendEnabled
    communityPool := outside.communityPool
    totalBondedTokens := outside.totalBondedTokens
    delegatorBonded := outside.delegatorBonded
    delegatorUnbonding := outside.delegatorUnbonding
    denomTraces := outside.denomTraces
    hasChannel := outside.hasChannel
    claims := { s.claims with params := outside.claimsParams }
    erc20 := { s.erc20 with params := outside.erc20Params }
    incentives := { s.incentives with params := outside.incentivesParams }
    feesplit := { s.feesplit with params := outside.feesplitParams }
    inflation := { s.inflation with params := outside.inflationParams }
    recovery := { s.recovery with params := outside.recoveryParams } }

/-- What happens in a block. -/
inductive Event where
  | tx (msgs : List Msg)
  | ethereumTx (ethTx : EthereumTx)
  | proposal (content : Proposal)
  | recvPacket (packet : Packet)
  | acknowledgePacket (packet : Packet) (ack : Claims.Ack)
  /-- `AfterProposalVote`. -/
  | vote (voterAddr : Address)
  /-- `AfterDelegationModified`. -/
  | delegation (delAddr : Address)
  | endBlock
  | others (outside : Outside)

/-- `EndBlocker`, as far as the modules take part in it. -/
def endBlock (s : State) : Result State :=
  (Claims.endBlocker app.claimsKeeper s.blockTime s.ledger).map s.setLedger

/-- What an event does to the state. -/
def Event.deliver (s : State) : Event → Result State
  | tx msgs => deliverTx app s msgs
  | ethereumTx ethTx => applyTransaction app s ethTx
  | proposal content => content.handle app s
  | recvPacket packet => .ok (Application.recvPacket app s packet)
  | acknowledgePacket packet ack => Application.acknowledgePacket app s packet ack
  | vote voterAddr =>
    .ok (claimsView.modify (Claims.afterProposalVote app.claimsKeeper s.blockTime · voterAddr) s)
  | delegation delAddr =>
    .ok (claimsView.modify (Claims.afterDelegationModified app.claimsKeeper s.blockTime · delAddr) s)
  | endBlock => Application.endBlock app s
  | others outside => .ok (outside.apply s)

/-- The state of the application with its epochs. -/
abbrev Chain := Epochs.State State

/-- `BeginBlocker`, as far as the modules take part in it. -/
def beginBlock (chain : Chain) (blockTime : Time) (blockHeight : ℤ) : Result Chain :=
  Epochs.beginBlocker (epochHooks app) ⟨blockTime, blockHeight⟩
    { chain with hooked := { chain.hooked with blockTime := blockTime } }

/-- What happens to the chain: a block begins, or something happens in the block. -/
inductive Action where
  | beginBlock (blockTime : Time) (blockHeight : ℤ)
  | inBlock (event : Event)

/-- What an action does to the chain. -/
def Action.perform (chain : Chain) : Action → Result Chain
  | beginBlock blockTime blockHeight => Application.beginBlock app chain blockTime blockHeight
  | inBlock event => (event.deliver app chain.hooked).map fun s => { chain with hooked := s }

/-- Vesting accounts are at their own addresses, and those are not blocked. -/
def Placed (part : Vesting.State) : Prop :=
  ∀ addr va, part.accounts addr = some (.clawback va) →
    va.address = addr ∧ app.modules.blockedAddr addr = false

/-- What others may do: they hold no keys of these module accounts, and check what they set. -/
structure Outside.Lawful (outside : Outside) (s : State) : Prop where
  bank : s.bank.Changed outside.payers outside.issued outside.bank
  -- Only the module itself takes coins from these accounts.
  custody : ∀ acc ∈ [ModuleAccount.claims, .erc20, .incentives, .inflation],
    app.modules.address acc ∉ outside.payers
  -- The coins of contracts are issued by the erc20 module alone, but others may burn them.
  issued : ∀ denom, isErc20Denom app.format denom → outside.bank.supply denom ≤ s.bank.supply denom
  -- A change of parameters is checked by the module.
  inflation : outside.inflationParams.validate app.validators.validDenom = .ok ()
  mintDenom : ¬isErc20Denom app.format outside.inflationParams.mintDenom
  vesting : Placed app (vestingView.get (outside.apply s))

/-- Who may act: module accounts sign nothing, and others keep to the rules. -/
def Event.Authentic (s : State) : Event → Prop
  | tx msgs => ∀ msg ∈ msgs, ∀ acc, msg.signer app ≠ some (app.modules.address acc)
  | others outside => outside.Lawful app s
  | _ => True

/-- Time does not go back, and events are authentic. -/
def Action.Authentic (chain : Chain) : Action → Prop
  | beginBlock blockTime _ => chain.hooked.blockTime ≤ blockTime
  | inBlock event => event.Authentic app chain.hooked

/-- An action that succeeds. One that fails leaves the chain as it was, so it is no step. -/
def Step (before : Chain) (action : Action) (after : Chain) : Prop :=
  action.Authentic app before ∧ action.perform app before = .ok after

end Evmos.Application
