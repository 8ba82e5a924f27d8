import Evmos.App.ModuleAccounts
import Evmos.Claims.EndAirdrop
import Evmos.Erc20.Keeper
import Evmos.Feesplit.Keeper
import Evmos.Incentives.Keeper
import Evmos.Inflation.Keeper
import Evmos.Library.Lens
import Evmos.Recovery.Keeper
import Evmos.Sdk.Accounting
import Evmos.Vesting.MsgServer

/-! The state of the whole application, what each module sees of it, and the keepers of `NewEvmos`. -/

namespace Evmos.Application

open Library

/-- The types of accounts that are not clawback vesting accounts. -/
inductive AccountKind where
  /-- An `EthAccount`, which the account keeper creates for new addresses. -/
  | eth
  | base
  /-- A vesting account of the SDK. -/
  | vesting
  | moduleAccount
  deriving DecidableEq

/-- An account of the auth store. -/
structure Account where
  -- Whether it is a clawback vesting account, or else what it locks.
  vesting : Vesting.Account
  -- Which type it has otherwise.
  kind : AccountKind
  sequence : ℕ
  pubKey : Option Recovery.PubKey

namespace Account

/-- The account that the account keeper creates for a new address. -/
def new : Account := ⟨Vesting.baseAccount, .eth, 0, none⟩

/-- Whether it is a `VestingAccount`. -/
def isVesting (acc : Account) : Bool :=
  match acc.vesting with
  | .clawback _ => true
  | .other _ => acc.kind = .vesting

/-- The account as the end of the airdrop looks at it. -/
def claims (acc : Account) : Claims.Account := ⟨acc.isVesting, acc.sequence⟩

/-- The account as the recovery looks at it. -/
def recovery (acc : Account) : Recovery.Account :=
  ⟨acc.isVesting, acc.kind = .moduleAccount, acc.pubKey⟩

/-- The account as the incentives look at it, with or without code at its address. -/
def incentives (acc : Account) (isContract : Bool) : Incentives.Account :=
  match acc.vesting, acc.kind with
  | .other _, .eth => .eth isContract
  | _, _ => .other

end Account

/-- What the claims module stores. -/
structure ClaimsStore where
  params : Claims.Params
  records : Store Address Claims.ClaimsRecord

/-- What the erc20 module stores. -/
structure Erc20Store where
  params : Erc20.Params
  tokenPairs : Store ℕ Erc20.TokenPair
  erc20Map : Store EthAddress ℕ
  denomMap : Store Denom ℕ

/-- What the incentives module stores. -/
structure IncentivesStore where
  params : Incentives.Params
  incentives : Store Address Incentives.Incentive
  gasMeters : Store (Address ×ₗ Address) ℕ
  allocationMeters : Store Denom Dec

/-- What the fee split module stores, and the events it has emitted. -/
structure FeesplitStore where
  params : Feesplit.Params
  feeSplits : Store EthAddress Feesplit.FeeSplit
  deployerMap : Store (List Byte) Unit
  withdrawerMap : Store (List Byte) Unit
  distributions : List Feesplit.Distribution

/-- What the inflation module stores, and the events it has emitted. -/
structure InflationStore where
  params : Inflation.Params
  period : ℕ
  epochIdentifier : String
  epochsPerPeriod : ℤ
  skippedEpochs : ℕ
  epochMintProvision : Option Dec
  mints : List Inflation.Mint

/-- The parameters of the recovery module, and what it has sent and reported. -/
structure RecoveryStore where
  params : Recovery.Params
  transfers : List Recovery.Transfer
  events : List Recovery.RecoveryEvent

/-- The state of the application, but for the epochs. -/
structure State where
  -- The time of the current block.
  blockTime : Time
  -- The stores of the SDK that several modules work on.
  accounts : Address → Option Account
  bank : Bank
  denomMetadata : Store Denom Erc20.Metadata
  isSendEnabled : Denom → Bool
  communityPool : Coins
  totalBondedTokens : ℕ
  delegatorBonded : Address → ℕ
  delegatorUnbonding : Address → ℕ
  -- The EVM.
  evm : Evm
  -- The IBC stores that the recovery looks at.
  denomTraces : ℕ → Option Recovery.DenomTrace
  hasChannel : String → String → Bool
  -- The stores of the modules.
  claims : ClaimsStore
  erc20 : Erc20Store
  incentives : IncentivesStore
  feesplit : FeesplitStore
  inflation : InflationStore
  recovery : RecoveryStore

/-- What the claims module works on. -/
def claimsView : Lens State Claims.State where
  get s := ⟨s.claims.params, s.claims.records, s.bank.balances, s.communityPool⟩
  set part s :=
    { s with
      claims := ⟨part.params, part.records⟩
      bank := { s.bank with balances := part.balances }
      communityPool := part.communityPool }
  get_set _ _ := rfl

/-- What the erc20 module works on. -/
def erc20View : Lens State Erc20.State where
  get s := ⟨s.erc20.params, s.erc20.tokenPairs, s.erc20.erc20Map, s.erc20.denomMap, s.bank,
    s.denomMetadata, s.evm⟩
  set part s :=
    { s with
      erc20 := ⟨part.params, part.tokenPairs, part.erc20Map, part.denomMap⟩
      bank := part.bank
      denomMetadata := part.denomMetadata
      evm := part.evm }
  get_set _ _ := rfl

/-- What the incentives module works on. -/
def incentivesView : Lens State Incentives.State where
  get s := ⟨s.incentives.params, s.incentives.incentives, s.incentives.gasMeters,
    s.incentives.allocationMeters, s.bank⟩
  set part s :=
    { s with
      incentives := ⟨part.params, part.incentives, part.gasMeters, part.allocationMeters⟩
      bank := part.bank }
  get_set _ _ := rfl

/-- What the fee split module works on. -/
def feesplitView : Lens State Feesplit.State where
  get s := ⟨s.feesplit.params, s.feesplit.feeSplits, s.feesplit.deployerMap,
    s.feesplit.withdrawerMap, s.bank, s.feesplit.distributions⟩
  set part s :=
    { s with
      feesplit := ⟨part.params, part.feeSplits, part.deployerMap, part.withdrawerMap,
        part.distributions⟩
      bank := part.bank }
  get_set _ _ := rfl

/-- What the inflation module works on. -/
def inflationView : Lens State Inflation.State where
  get s :=
    { params := s.inflation.params
      period := s.inflation.period
      epochIdentifier := s.inflation.epochIdentifier
      epochsPerPeriod := s.inflation.epochsPerPeriod
      skippedEpochs := s.inflation.skippedEpochs
      epochMintProvision := s.inflation.epochMintProvision
      bank := s.bank
      communityPool := s.communityPool
      totalBondedTokens := s.totalBondedTokens
      mints := s.inflation.mints }
  set part s :=
    { s with
      inflation := ⟨part.params, part.period, part.epochIdentifier, part.epochsPerPeriod,
        part.skippedEpochs, part.epochMintProvision, part.mints⟩
      bank := part.bank
      communityPool := part.communityPool
      totalBondedTokens := part.totalBondedTokens }
  get_set _ _ := rfl

/-- What the vesting module works on. -/
def vestingView : Lens State Vesting.State where
  get s := ⟨fun addr => (s.accounts addr).map Account.vesting, s.bank.balances⟩
  set part s :=
    { s with
      accounts := fun addr => (part.accounts addr).map fun acc =>
        { (s.accounts addr).getD .new with vesting := acc }
      bank := { s.bank with balances := part.balances } }
  get_set part s := by
    obtain ⟨accounts, balances⟩ := part
    simp [Option.map_map, Function.comp_def]

/-- What the recovery module works on, of which it writes the bank and its own store. -/
def State.recoveryView (s : State) : Recovery.State where
  params := s.recovery.params
  claimsParams := s.claims.params
  bank := s.bank
  getAccount addr := (s.accounts addr).map Account.recovery
  denomTraces := s.denomTraces
  hasChannel := s.hasChannel
  transfers := s.recovery.transfers
  events := s.recovery.events

/-- The state after the recovery module has worked on it. -/
def State.setRecovery (s : State) (part : Recovery.State) : State :=
  { s with
    bank := part.bank
    recovery := ⟨part.params, part.transfers, part.events⟩ }

/-- What the end of the airdrop works on, of which it removes accounts. -/
def State.ledger (s : State) : Claims.Ledger :=
  ⟨claimsView.get s, fun addr => (s.accounts addr).map Account.claims⟩

/-- The state after the end of the airdrop. -/
def State.setLedger (s : State) (l : Claims.Ledger) : State :=
  { claimsView.set l.state s with
    accounts := fun addr => if (l.accounts addr).isSome then s.accounts addr else none }

/-- Whether there is code at the address of an account. -/
def State.isContract (s : State) (addr : Address) : Bool :=
  if addr < 2 ^ 160 then s.evm.isContract (.ofTopic addr) else false

/-- `EVMKeeper.GetAccountWithoutBalance`. -/
def State.evmAccount (s : State) (addr : EthAddress) : Option Feesplit.EvmAccount :=
  if s.evm.isContract addr then some .contract
  else (s.accounts addr.bytes).map fun _ => .external

/-- `BankKeeper.LockedCoins`, for an account whose schedule can be read. -/
def State.lockedCoins (s : State) (addr : Address) : Coins :=
  ((vestingView.get s).lockedCoins addr s.blockTime).getD 0

/-- `FungibleTokenPacketData`. -/
structure PacketData where
  denom : String
  amount : String
  sender : String
  receiver : String

/-- An IBC packet, whose data may fail to unmarshal. -/
structure Packet where
  sourcePort : String
  sourceChannel : String
  destinationPort : String
  destinationChannel : String
  data : Option PacketData

/-- What the claims module reads of a packet. -/
def Packet.claims (packet : Packet) : Claims.Packet :=
  ⟨packet.destinationChannel, packet.data.map fun data => ⟨data.sender, data.receiver, data.amount⟩⟩

/-- What the recovery module reads of a packet. -/
def Packet.recovery (packet : Packet) : Recovery.Packet :=
  ⟨packet.sourcePort, packet.sourceChannel, packet.destinationPort, packet.destinationChannel,
    packet.data.map fun data => ⟨data.sender, data.receiver⟩⟩

/-- The coins that were issued for the tokens of a contract. -/
def isErc20Denom (format : AddressString) (denom : Denom) : Prop :=
  ∃ contract, denom = Erc20.createDenom (format.spell contract)

/-- What `NewEvmos` builds the keepers from. -/
structure App where
  modules : ModuleAddresses
  chainID : String
  bondDenom : Denom
  evmDenom : Denom
  bech32 : Bech32
  decode_empty : bech32.decode "" = none
  codec : Recovery.Bech32Codec
  format : AddressString
  addressBytes : AddressBytes
  -- The account of the erc20 module, as the EVM addresses it.
  erc20Address : EthAddress
  erc20Address_bytes : erc20Address.bytes = modules.address .erc20
  erc20Address_ne_zero : erc20Address ≠ 0
  -- `tmhash.Sum`, taken to be free of collisions.
  sum : String → ℕ
  sum_injective : Function.Injective sum
  -- `crypto.CreateAddress`.
  createAddress : EthAddress → ℕ → EthAddress
  -- The code of the hostile contracts.
  program : Program
  -- Whether `sdk.NewIntFromString` accepts a string.
  isInteger : String → Bool
  -- `banktypes.Metadata.Validate`.
  validateMetadata : Erc20.Metadata → Result Unit
  validators : Incentives.Validators
  -- `ParseHexHash`, and the validators of identifiers.
  parseHexHash : String → Except String ℕ
  portIdentifierValidator : String → Except String Unit
  channelIdentifierValidator : String → Except String Unit
  -- The accounts that escrow the coins that were sent through channels.
  escrowAddresses : Set Address
  escrow_not_module : ∀ acc, modules.address acc ∉ escrowAddresses
  -- `TransferKeeper.SendTransfer`, which escrows coins or burns vouchers.
  sendTransfer : Recovery.State → Recovery.Transfer → Result Bank
  sendTransfer_debited : ∀ {s transfer after},
    sendTransfer s transfer = .ok after → Recovery.Debited transfer s.bank after
  sendTransfer_changed : ∀ {s transfer after}, sendTransfer s transfer = .ok after →
    s.bank.Changed {transfer.sender} {denom | Recovery.isVoucher denom} after
  -- `OnRecvPacket` and `OnAcknowledgementPacket` of the transfer module, which release escrowed
  -- coins or mint vouchers.
  receiveTransfer : Bank → Packet → Result Bank
  receiveTransfer_changed : ∀ {bank packet after}, receiveTransfer bank packet = .ok after →
    bank.Changed escrowAddresses {denom | Recovery.isVoucher denom} after
  acknowledgeTransfer : Bank → Packet → Claims.Ack → Result Bank
  acknowledgeTransfer_changed : ∀ {bank packet ack after},
    acknowledgeTransfer bank packet ack = .ok after →
      bank.Changed escrowAddresses {denom | Recovery.isVoucher denom} after

namespace App

variable (app : App)

/-- `ClaimsKeeper`. -/
def claimsKeeper : Claims.Keeper where
  moduleAddress := app.modules.address .claims
  distributionAddress := app.modules.address .distribution
  blockedAddr := app.modules.blockedAddr
  bech32 := app.bech32
  evmosAddress text := (Recovery.getEvmosAddressFromBech32 app.codec text).toOption
  isInteger := app.isInteger
  moduleBlocked := app.modules.blockedAddr_address .claims
  moduleDistinct same := ModuleAccount.noConfusion (app.modules.injective same)

/-- `Erc20Keeper`. -/
def erc20Keeper : Erc20.Keeper where
  moduleAddress := app.erc20Address
  moduleAddress_ne_zero := app.erc20Address_ne_zero
  format := app.format
  bech32 := app.bech32
  sum := app.sum
  sum_injective := app.sum_injective
  createAddress := app.createAddress
  blockedAddr := app.modules.blockedAddr
  validateMetadata := app.validateMetadata
  program := app.program

/-- `IncentivesKeeper`. -/
def incentivesKeeper : Incentives.Keeper where
  moduleAddress := app.modules.address .incentives
  evmDenom := app.evmDenom
  blockedAddr := app.modules.blockedAddr
  bech32 := app.bech32
  hexToAddress text := (hexToAddress text).bytes
  addressToHex addr := app.format.spell (.ofTopic addr)

/-- `FeesplitKeeper`. -/
def feesplitKeeper : Feesplit.Keeper where
  bech32 := app.bech32
  decode_empty := app.decode_empty
  format := app.format
  addressBytes := app.addressBytes
  createAddress := app.createAddress
  feeCollectorAddress := app.modules.address .feeCollector
  blockedAddr := app.modules.blockedAddr

/-- `InflationKeeper`. The hooks of the incentives module run on their own. -/
def inflationKeeper : Inflation.Keeper where
  chainID := app.chainID
  moduleAddress := app.modules.address .inflation
  feeCollectorAddress := app.modules.address .feeCollector
  incentivesAddress := app.modules.address .incentives
  distributionAddress := app.modules.address .distribution
  bondDenom := app.bondDenom
  distributeIncentives _ _ bank := .ok bank

/-- `RecoveryKeeper`. -/
def recoveryKeeper : Recovery.Keeper where
  blockedAddr := app.modules.blockedAddr
  codec := app.codec
  parseHexHash := app.parseHexHash
  portIdentifierValidator := app.portIdentifierValidator
  channelIdentifierValidator := app.channelIdentifierValidator
  sendTransfer := app.sendTransfer
  sendTransfer_debited := app.sendTransfer_debited

/-- What the messages of the vesting module read of the other modules. -/
def vestingContext (s : State) : Vesting.Context where
  blockTime := s.blockTime
  blockedAddr := app.modules.blockedAddr
  bondDenom := app.bondDenom
  delegatorBonded := s.delegatorBonded
  delegatorUnbonding := s.delegatorUnbonding

end App

/-- What the erc20 module reads of the rest of the chain. -/
def State.erc20Context (s : State) : Erc20.Context := ⟨s.lockedCoins, s.isSendEnabled⟩

/-- What the incentives module reads of the rest of the chain. -/
def State.incentivesContext (s : State) : Incentives.Context where
  blockTime := s.blockTime
  isContract := s.isContract
  getAccount addr := (s.accounts addr).map fun acc => acc.incentives (s.isContract addr)

end Evmos.Application
