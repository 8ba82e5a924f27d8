import Evmos.Application.Chain
import Evmos.Proofs.Claims.Spending
import Evmos.Proofs.Epochs.BeginBlocker
import Evmos.Proofs.Erc20.Spending
import Evmos.Proofs.Feesplit.Spending
import Evmos.Proofs.Incentives.Spending
import Evmos.Proofs.Inflation.Spending
import Evmos.Proofs.Recovery.Spending
import Evmos.Proofs.Vesting.Spending

/-! Every action of the application is a sequence of calls, each into one module. -/

namespace Evmos.Application

open Library

/-- The coins that are received through IBC channels. -/
def vouchers : Set Denom := {denom | Recovery.isVoucher denom}

/-- A call into one module, or what happens outside of the modules. -/
inductive Call where
  | claims (event : Claims.Event)
  | endAirdrop
  | erc20 (call : Erc20.Call)
  | incentives (call : Incentives.Call)
  | feesplit (call : Feesplit.Call)
  | epochEnd (epochIdentifier : String) (epochNumber : ℤ)
  | grant (msg : Vesting.MsgCreateClawbackVestingAccount)
  | clawback (msg : Vesting.MsgClawback)
  | recovery (packet : Packet)
  | transfer (bank : Bank)
  | others (outside : Outside)
  | time (blockTime : Time)

/-- What a call that succeeds does to the state of the application. -/
inductive Move (app : App) (s : State) : Call → State → Prop where
  | claims (event : Claims.Event) :
      Move app s (.claims event)
        (claimsView.modify (event.deliver app.claimsKeeper s.blockTime ·) s)
  | endAirdrop {last : Claims.Ledger}
      (ended : Claims.endBlocker app.claimsKeeper s.blockTime s.ledger = .ok last) :
      Move app s .endAirdrop (s.setLedger last)
  | erc20 {call : Erc20.Call} {part : Erc20.State} (now : call.ctx = s.erc20Context)
      (own : ∀ params bank, call.action ≠ .others params bank)
      (signed : ∀ msg, call.action = .convertCoin msg →
        ∀ acc, app.bech32.decode msg.sender ≠ some (app.modules.address acc))
      (taken : Erc20.Step app.erc20Keeper (erc20View.get s) call part) :
      Move app s (.erc20 call) (erc20View.set part s)
  | incentives {call : Incentives.Call} {part : Incentives.State}
      (own : ∀ params bank, call.action ≠ .others params bank)
      (taken : Incentives.Step app.incentivesKeeper app.validators (incentivesView.get s) call
        part) :
      Move app s (.incentives call) (incentivesView.set part s)
  | feesplit {call : Feesplit.Call} {part : Feesplit.State}
      (own : ∀ params bank, call ≠ .others params bank)
      (taken : Feesplit.Step app.feesplitKeeper (feesplitView.get s) call part) :
      Move app s (.feesplit call) (feesplitView.set part s)
  | epochEnd {epochIdentifier : String} {epochNumber : ℤ} {part : Inflation.State}
      (ended : Inflation.afterEpochEnd app.inflationKeeper epochIdentifier epochNumber
        (inflationView.get s) = .ok part) :
      Move app s (.epochEnd epochIdentifier epochNumber) (inflationView.set part s)
  | grant {msg : Vesting.MsgCreateClawbackVestingAccount} {part : Vesting.State}
      (valid : msg.validateBasic app.bech32 = .ok ())
      (signed : ∀ acc, app.bech32.decode msg.fromAddress ≠ some (app.modules.address acc))
      (granted : Vesting.createClawbackVestingAccount app.bech32 (app.vestingContext s)
        (vestingView.get s) msg = .ok part) :
      Move app s (.grant msg) (vestingView.set part s)
  | clawback {msg : Vesting.MsgClawback} {part : Vesting.State}
      (taken : Vesting.clawback app.bech32 (app.vestingContext s) (vestingView.get s) msg =
        .ok part) :
      Move app s (.clawback msg) (vestingView.set part s)
  | recovery {packet : Packet} {part : Recovery.State}
      (received : Recovery.onRecvPacket app.recoveryKeeper s.blockTime s.recoveryView
        packet.recovery = (.ok (), part)) :
      Move app s (.recovery packet) (s.setRecovery part)
  | transfer {bank : Bank} (transferred : s.bank.Changed app.escrowAddresses vouchers bank) :
      Move app s (.transfer bank) { s with bank := bank }
  | others {outside : Outside} (lawful : outside.Lawful app s) :
      Move app s (.others outside) (outside.apply s)
  | time {blockTime : Time} (order : s.blockTime ≤ blockTime) :
      Move app s (.time blockTime) { s with blockTime := blockTime }

/-- The module account that a call spends from as it pleases. -/
def Call.owner : Call → Option ModuleAccount
  | claims _ => some .claims
  | endAirdrop => some .claims
  | erc20 _ => some .erc20
  | incentives _ => some .incentives
  | feesplit _ => some .feeCollector
  | epochEnd _ _ => some .inflation
  | _ => none

section Payers

variable (app : App)

/-- The accounts that a call may take coins from. -/
def Call.payers (s : State) : Call → Set Address
  | claims _ => {app.modules.address .claims}
  | endAirdrop => s.ledger.clawedBack app.claimsKeeper
  | erc20 call => call.payers app.erc20Keeper
  | incentives call => call.payers app.incentivesKeeper
  | feesplit call => call.payers app.feesplitKeeper
  | epochEnd _ _ => {app.modules.address .inflation}
  | grant msg => {addr | app.bech32.decode msg.fromAddress = some addr}
  | clawback msg => {addr | app.bech32.decode msg.accountAddress = some addr}
  | recovery packet => Recovery.recovers app.recoveryKeeper s.recoveryView packet.recovery
  | transfer _ => app.escrowAddresses
  | others outside => outside.payers
  | time _ => ∅

/-- The denominations that a call may mint or burn. -/
def Call.issues (s : State) : Call → Set Denom
  | erc20 call => call.issues app.erc20Keeper
  | epochEnd _ _ => {s.inflation.params.mintDenom}
  | recovery _ => vouchers
  | transfer _ => vouchers
  | others outside => outside.issued
  | _ => ∅

/-- The accounts that a message may take coins from. -/
def Msg.payers : Msg → Set Address
  | convertCoin msg =>
    {addr | addr = app.modules.address .erc20 ∨ app.bech32.decode msg.sender = some addr}
  | convertERC20 _ => {app.modules.address .erc20}
  | createClawbackVestingAccount msg => {addr | app.bech32.decode msg.fromAddress = some addr}
  | clawback msg => {addr | app.bech32.decode msg.accountAddress = some addr}
  | _ => ∅

/-- The denominations that a message may mint or burn. -/
def Msg.issues : Msg → Set Denom
  | convertCoin msg => msg.burns app.erc20Keeper
  | convertERC20 _ => {denom | isErc20Denom app.format denom}
  | _ => ∅

/-- The accounts that something in a block may take coins from. -/
def Event.payers (s : State) : Event → Set Address
  | tx msgs => {addr | ∃ msg ∈ msgs, addr ∈ msg.payers app}
  | ethereumTx _ =>
    {addr | ∃ acc ∈ [ModuleAccount.erc20, .feeCollector, .claims], addr = app.modules.address acc}
  | proposal _ => ∅
  | recvPacket packet =>
    {addr | addr ∈ app.escrowAddresses ∨ addr = app.modules.address .claims ∨
      addr ∈ Recovery.recovers app.recoveryKeeper s.recoveryView packet.recovery}
  | acknowledgePacket _ _ =>
    {addr | addr ∈ app.escrowAddresses ∨ addr = app.modules.address .claims}
  | vote _ => {app.modules.address .claims}
  | delegation _ => {app.modules.address .claims}
  | endBlock => s.ledger.clawedBack app.claimsKeeper
  | others outside => outside.payers

/-- The denominations that something in a block may mint or burn. -/
def Event.issues : Event → Set Denom
  | tx msgs => {denom | ∃ msg ∈ msgs, denom ∈ msg.issues app}
  | ethereumTx _ => {denom | isErc20Denom app.format denom}
  | recvPacket _ => vouchers
  | acknowledgePacket _ _ => vouchers
  | others outside => outside.issued
  | _ => ∅

/-- The accounts that the ends of epochs may take coins from. -/
def epochPayers : Set Address :=
  {addr | ∃ acc ∈ [ModuleAccount.incentives, .inflation], addr = app.modules.address acc}

/-- The accounts that an action may take coins from. -/
def Action.payers (s : State) : Action → Set Address
  | beginBlock _ _ => epochPayers app
  | inBlock event => event.payers app s

/-- The denominations that an action may mint or burn. -/
def Action.issues (s : State) : Action → Set Denom
  | beginBlock _ _ => {s.inflation.params.mintDenom}
  | inBlock event => event.issues app

end Payers

section Calls

/-- The call that a message makes. -/
def Msg.calls : Msg → Set Call
  | convertCoin msg => {call | ∃ ctx, call = .erc20 ⟨ctx, .convertCoin msg⟩}
  | convertERC20 msg => {call | ∃ ctx, call = .erc20 ⟨ctx, .convertERC20 msg⟩}
  | createClawbackVestingAccount msg => {.grant msg}
  | clawback msg => {.clawback msg}
  | _ => {call | ∃ own, call = .feesplit own}

/-- The calls that something in a block may make. -/
def Event.calls : Event → Set Call
  | tx msgs => {call | ∃ msg ∈ msgs, call ∈ msg.calls}
  | ethereumTx ethTx =>
    {call | (∃ ctx, call = .erc20 ⟨ctx, .transaction ethTx.ops⟩) ∨
      (∃ ctx txn, call = .incentives ⟨ctx, .postTx txn⟩) ∨ (∃ own, call = .feesplit own) ∨
      call = .claims (.evmTx ethTx.fromAddr.bytes)}
  | proposal _ =>
    {call | (∃ own : Erc20.Call, (∀ msg, own.action ≠ .convertCoin msg) ∧ call = .erc20 own) ∨
      ∃ own : Incentives.Call, own.action ≠ .distributeRewards ∧ call = .incentives own}
  | recvPacket packet =>
    {call | (∃ bank, call = .transfer bank) ∨ call = .claims (.receive packet.claims) ∨
      call = .recovery packet}
  | acknowledgePacket packet ack =>
    {call | (∃ bank, call = .transfer bank) ∨ call = .claims (.acknowledge packet.claims ack)}
  | vote voterAddr => {.claims (.vote voterAddr)}
  | delegation delAddr => {.claims (.delegation delAddr)}
  | endBlock => {.endAirdrop}
  | others outside => {.others outside}

/-- The calls that an action may make. -/
def Action.calls : Action → Set Call
  | beginBlock blockTime _ =>
    {call | call = .time blockTime ∨ (∃ ctx, call = .incentives ⟨ctx, .distributeRewards⟩) ∨
      ∃ epochIdentifier epochNumber, call = .epochEnd epochIdentifier epochNumber}
  | inBlock event => event.calls

theorem others_mem_calls {action : Action} {outside : Outside}
    (made : Call.others outside ∈ action.calls) : action = .inBlock (.others outside) := by
  cases action with
  | beginBlock blockTime blockHeight => simp [Action.calls] at made
  | inBlock event =>
    -- The messages and the other events name a module.
    cases event with
    | others other =>
      cases made
      rfl
    | tx msgs =>
      obtain ⟨msg, -, made⟩ := made
      cases msg <;> simp [Msg.calls] at made
    | _ => simp [Action.calls, Event.calls] at made

/-- A conversion that is called for is one of the messages. -/
theorem convertCoin_mem_calls {action : Action} {ctx : Erc20.Context} {msg : Erc20.MsgConvertCoin}
    (made : Call.erc20 ⟨ctx, .convertCoin msg⟩ ∈ action.calls) :
    ∃ msgs, action = .inBlock (.tx msgs) ∧ Msg.convertCoin msg ∈ msgs := by
  cases action with
  | beginBlock blockTime blockHeight => simp [Action.calls] at made
  | inBlock event =>
    cases event with
    | tx msgs =>
      obtain ⟨sent, member, made⟩ := made
      refine ⟨msgs, rfl, ?_⟩
      -- No other message makes such a call.
      cases sent with
      | convertCoin other =>
        obtain ⟨_, same⟩ := made
        cases same
        exact member
      | _ => simp [Msg.calls] at made
    | proposal content =>
      rcases made with ⟨own, other, same⟩ | ⟨own, -, same⟩
      · cases same
        exact absurd rfl (other msg)
      · cases same
    | _ => simp [Action.calls, Event.calls] at made

end Calls

/-- What an action may take, issue and call. -/
structure Bounds where
  payers : Set Address
  issued : Set Denom
  calls : Set Call

section Bounds

variable (app : App)

/-- What a message may do. -/
def Msg.bounds (msg : Msg) : Bounds := ⟨msg.payers app, msg.issues app, msg.calls⟩

/-- What something in a block may do. -/
def Event.bounds (s : State) (event : Event) : Bounds :=
  ⟨event.payers app s, event.issues app, event.calls⟩

/-- What an action may do. -/
def Action.bounds (s : State) (action : Action) : Bounds :=
  ⟨action.payers app s, action.issues app s, action.calls⟩

/-- A call that takes and issues no more than it may, and that may be made. -/
structure Within (bounds : Bounds) (s : State) (call : Call) : Prop where
  pays : call.payers app s ⊆ bounds.payers
  issues : call.issues app s ⊆ bounds.issued
  made : call ∈ bounds.calls

/-- A state that is reached by such calls. -/
abbrev Moves (bounds : Bounds) : State → State → Prop :=
  Reaches (Guarded (Within app bounds) (Move app))

end Bounds

namespace Moves

variable {app : App} {bounds : Bounds} {s after : State}

theorem call {called : Call} (move : Move app s called after)
    (pays : called.payers app s ⊆ bounds.payers) (issues : called.issues app s ⊆ bounds.issued)
    (made : called ∈ bounds.calls) : Moves app bounds s after :=
  .single ⟨⟨pays, issues, made⟩, move⟩

theorem mono {wider : Bounds} (moves : Moves app bounds s after)
    (pays : bounds.payers ⊆ wider.payers) (issues : bounds.issued ⊆ wider.issued)
    (made : bounds.calls ⊆ wider.calls) : Moves app wider s after :=
  Reaches.mono moves fun ⟨within, move⟩ =>
    ⟨⟨within.pays.trans pays, within.issues.trans issues, made within.made⟩, move⟩

end Moves

section Messages

variable {app : App} {s after : State}

theorem Msg.moves {msg : Msg} (valid : msg.validateBasic app = .ok ())
    (signed : ∀ acc, msg.signer app ≠ some (app.modules.address acc))
    (handled : msg.handle app s = .ok after) :
    Moves app (msg.bounds app) s after := by
  have erc20Bytes : app.erc20Keeper.moduleAddress.bytes = app.modules.address .erc20 :=
    app.erc20Address_bytes
  -- Each message is delivered to one module, through its part of the state.
  cases msg with
  | convertCoin msg =>
    rw [Msg.handle] at handled
    obtain ⟨part, converted, rfl⟩ := Lens.modifyM_eq_ok.mp handled
    refine .call (.erc20 rfl (by nofun) ?_ (.convertCoin valid ?_ converted)) ?_ subset_rfl ⟨_, rfl⟩
    · rintro _ ⟨rfl⟩
      exact signed
    · rw [erc20Bytes]
      exact signed .erc20
    · simp only [Msg.bounds, Call.payers, Erc20.Call.payers, Msg.payers, erc20Bytes]
      exact subset_rfl
  | convertERC20 msg =>
    rw [Msg.handle] at handled
    obtain ⟨part, converted, rfl⟩ := Lens.modifyM_eq_ok.mp handled
    refine .call (.erc20 rfl (by nofun) (by nofun) (.convertERC20 valid ?_ converted)) ?_ subset_rfl ⟨_, rfl⟩
    · intro same
      apply signed .erc20
      rw [← erc20Bytes, ← same]
      rfl
    · simp only [Msg.bounds, Call.payers, Erc20.Call.payers, Msg.payers, erc20Bytes]
      exact subset_rfl
  | registerFeeSplit msg =>
    rw [Msg.handle] at handled
    obtain ⟨part, registered, rfl⟩ := Lens.modifyM_eq_ok.mp handled
    exact .call (.feesplit (by nofun) (.register valid registered)) subset_rfl subset_rfl ⟨_, rfl⟩
  | updateFeeSplit msg =>
    rw [Msg.handle] at handled
    obtain ⟨part, updated, rfl⟩ := Lens.modifyM_eq_ok.mp handled
    exact .call (.feesplit (by nofun) (.update valid updated)) subset_rfl subset_rfl ⟨_, rfl⟩
  | cancelFeeSplit msg =>
    rw [Msg.handle] at handled
    obtain ⟨part, cancelled, rfl⟩ := Lens.modifyM_eq_ok.mp handled
    exact .call (.feesplit (by nofun) (.cancel valid cancelled)) subset_rfl subset_rfl ⟨_, rfl⟩
  | createClawbackVestingAccount msg =>
    rw [Msg.handle] at handled
    obtain ⟨part, granted, rfl⟩ := Lens.modifyM_eq_ok.mp handled
    exact .call (.grant valid signed granted) subset_rfl subset_rfl rfl
  | clawback msg =>
    rw [Msg.handle] at handled
    obtain ⟨part, taken, rfl⟩ := Lens.modifyM_eq_ok.mp handled
    exact .call (.clawback taken) subset_rfl subset_rfl rfl

theorem validateBasic_of_forM {msgs : List Msg} {msg : Msg}
    (checked : msgs.forM (Msg.validateBasic app) = .ok ()) (member : msg ∈ msgs) :
    msg.validateBasic app = .ok () := by
  induction msgs with
  | nil => cases member
  | cons first msgs ih =>
    obtain ⟨_, valid, checked⟩ := bind_eq_ok.mp checked
    rcases List.mem_cons.mp member with rfl | later
    · exact valid
    · exact ih checked later

theorem deliverTx_moves {msgs : List Msg} (authentic : (Event.tx msgs).Authentic app s)
    (delivered : deliverTx app s msgs = .ok after) :
    Moves app ((Event.tx msgs).bounds app s) s after := by
  obtain ⟨_, checked, delivered⟩ := bind_eq_ok.mp delivered
  refine (Run.of_foldlM delivered).invariant
    (Moves app ((Event.tx msgs).bounds app s) s) ?_ (.refl s)
  intro before msg next earlier ⟨member, handled⟩
  -- The messages were checked before the first of them ran.
  have moved := Msg.moves (validateBasic_of_forM checked member) (authentic msg member) handled
  exact earlier.trans (moved.mono (fun _ pays => ⟨msg, member, pays⟩)
    (fun _ issues => ⟨msg, member, issues⟩) fun _ made => ⟨msg, member, made⟩)

/-- A proposal is a call into its module, which moves no coins. -/
theorem Proposal.moves {content : Proposal} (handled : content.handle app s = .ok after) :
    Moves app ((Event.proposal content).bounds app s) s after := by
  -- Handlers return what they registered, which the state does not need.
  cases content with
  | registerCoin coinMetadata =>
    rw [Proposal.handle] at handled
    obtain ⟨part, registered, rfl⟩ := Lens.modifyM_eq_ok.mp handled
    obtain ⟨⟨pair, _⟩, paired, rfl⟩ := map_eq_ok.mp registered
    have step : Erc20.Step app.erc20Keeper (erc20View.get s) ⟨s.erc20Context, .registerCoin coinMetadata⟩ _ :=
      .registerCoin paired
    exact .call (.erc20 rfl (by nofun) (by nofun) step) subset_rfl subset_rfl (.inl ⟨_, by nofun, rfl⟩)
  | registerERC20 contract =>
    rw [Proposal.handle] at handled
    obtain ⟨part, registered, rfl⟩ := Lens.modifyM_eq_ok.mp handled
    obtain ⟨⟨pair, _⟩, paired, rfl⟩ := map_eq_ok.mp registered
    have step : Erc20.Step app.erc20Keeper (erc20View.get s) ⟨s.erc20Context, .registerERC20 contract⟩ _ :=
      .registerERC20 paired
    exact .call (.erc20 rfl (by nofun) (by nofun) step) subset_rfl subset_rfl (.inl ⟨_, by nofun, rfl⟩)
  | toggleTokenConversion token =>
    rw [Proposal.handle] at handled
    obtain ⟨part, toggled, rfl⟩ := Lens.modifyM_eq_ok.mp handled
    obtain ⟨⟨pair, _⟩, paired, rfl⟩ := map_eq_ok.mp toggled
    have step : Erc20.Step app.erc20Keeper (erc20View.get s) ⟨s.erc20Context, .toggleConversion token⟩ _ :=
      .toggleConversion paired
    exact .call (.erc20 rfl (by nofun) (by nofun) step) subset_rfl subset_rfl (.inl ⟨_, by nofun, rfl⟩)
  | registerIncentive proposal =>
    obtain ⟨_, valid, handled⟩ := bind_eq_ok.mp handled
    obtain ⟨part, registered, rfl⟩ := Lens.modifyM_eq_ok.mp handled
    obtain ⟨⟨incentive, _⟩, paired, rfl⟩ := map_eq_ok.mp registered
    have step : Incentives.Step app.incentivesKeeper app.validators (incentivesView.get s)
        ⟨s.incentivesContext, .registerIncentive proposal⟩ _ := .registerIncentive valid paired
    exact .call (.incentives (by nofun) step) subset_rfl subset_rfl (.inr ⟨_, by nofun, rfl⟩)
  | cancelIncentive contract =>
    rw [Proposal.handle] at handled
    obtain ⟨part, cancelled, rfl⟩ := Lens.modifyM_eq_ok.mp handled
    have step : Incentives.Step app.incentivesKeeper app.validators (incentivesView.get s)
        ⟨s.incentivesContext, .cancelIncentive contract⟩ part := .cancelIncentive cancelled
    exact .call (.incentives (by nofun) step) subset_rfl subset_rfl (.inr ⟨_, by nofun, rfl⟩)

end Messages

section Hooks

variable {app : App} {s after : State}

/-- A transaction of the EVM is one call for each of the hooks. -/
theorem applyTransaction_moves {tx : EthereumTx} (applied : applyTransaction app s tx = .ok after) :
    Moves app ((Event.ethereumTx tx).bounds app s) s after := by
  unfold applyTransaction at applied
  split at applied
  · cases applied
  next evm logs ran =>
  unfold postTxProcessing at applied
  -- The tokens that were moved are converted.
  generalize first : erc20View.modify _ _ = converted at applied
  have conversion : Moves app ((Event.ethereumTx tx).bounds app s) s converted := by
    subst first
    have step : Erc20.Step app.erc20Keeper (erc20View.get s) ⟨s.erc20Context, .transaction tx.ops⟩
      (Erc20.postTxProcessing app.erc20Keeper { erc20View.get s with evm := evm } logs) :=
      .transaction ran
    refine .call (.erc20 rfl (by nofun) (by nofun) step) ?_ subset_rfl (.inl ⟨_, rfl⟩)
    rintro _ rfl
    exact ⟨.erc20, by simp, app.erc20Address_bytes⟩
  -- The gas is metered, which takes nothing from anyone.
  dsimp only at applied
  generalize second : incentivesView.modify _ _ = metered at applied
  have metering : Moves app ((Event.ethereumTx tx).bounds app s) converted metered := by
    subst second
    have step : Incentives.Step app.incentivesKeeper app.validators (incentivesView.get converted)
        ⟨converted.incentivesContext, .postTx ⟨tx.toAddr.map EthAddress.bytes, tx.fromAddr.bytes,
          tx.gasUsed⟩⟩ _ := .postTx
    exact .call (.incentives (by nofun) step) (Set.empty_subset _) (Set.empty_subset _)
      (.inr (.inl ⟨_, _, rfl⟩))
  obtain ⟨shared, third, applied⟩ := bind_eq_ok.mp applied
  -- The developer receives a share of the fees, and the sender may claim.
  have sharing : Moves app ((Event.ethereumTx tx).bounds app s) metered shared := by
    obtain ⟨part, processed, rfl⟩ := Lens.modifyM_eq_ok.mp third
    refine .call (.feesplit (by nofun) (.postTx processed)) ?_ (Set.empty_subset _)
      (.inr (.inr (.inl ⟨_, rfl⟩)))
    rintro _ rfl
    exact ⟨.feeCollector, by simp, rfl⟩
  have claiming : Moves app ((Event.ethereumTx tx).bounds app s) shared after := by
    obtain rfl := Except.ok.inj applied
    refine .call (.claims (.evmTx tx.fromAddr.bytes)) ?_ (Set.empty_subset _)
      (.inr (.inr (.inr rfl)))
    rintro _ rfl
    exact ⟨.claims, by simp, rfl⟩
  exact ((conversion.trans metering).trans sharing).trans claiming

/-- A middleware succeeds exactly when the module it wraps and its own keeper do. -/
theorem middleware_eq_ok {keeper inner : Callback} {packet : Packet} :
    middleware keeper inner s packet = (.ok (), after) ↔
      ∃ between, inner s packet = (.ok (), between) ∧ keeper between packet = (.ok (), after) := by
  unfold middleware
  -- An error of the wrapped module is returned as it is.
  rcases inner s packet with ⟨err | done, between⟩
  · simp
  · simp

/-- What the stack has done: each part of it worked on what the one below had left. -/
structure Received (app : App) (s : State) (packet : Packet) (bank : Bank) (claimed : Claims.State)
    (recovered : Recovery.State) : Prop where
  transferred : app.receiveTransfer s.bank packet = .ok bank
  claims : Claims.onRecvPacket app.claimsKeeper s.blockTime (claimsView.get { s with bank := bank })
    packet.claims = (.ok (), claimed)
  recovery : Recovery.onRecvPacket app.recoveryKeeper s.blockTime
    (claimsView.set claimed { s with bank := bank }).recoveryView packet.recovery =
      (.ok (), recovered)

/-- A packet is received by the whole stack, or nothing happens. -/
theorem recvPacket_cases (app : App) (s : State) (packet : Packet) :
    recvPacket app s packet = s ∨ ∃ bank claimed recovered,
      Received app s packet bank claimed recovered ∧
      recvPacket app s packet =
        (claimsView.set claimed { s with bank := bank }).setRecovery recovered := by
  unfold recvPacket
  split
  · next after done =>
    obtain ⟨claimed, below, recovery⟩ := middleware_eq_ok.mp done
    obtain ⟨transferred, transfer, claims⟩ := middleware_eq_ok.mp below
    -- What each callback returns is what it writes back.
    unfold transferOnRecvPacket at transfer
    split at transfer
    · cases transfer
    next bank moved =>
    obtain ⟨-, rfl⟩ := Prod.mk.inj transfer
    obtain ⟨accepted, rfl⟩ := Prod.mk.inj claims
    obtain ⟨returned, rfl⟩ := Prod.mk.inj recovery
    exact .inr ⟨bank, _, _, ⟨moved, Prod.ext accepted rfl, Prod.ext returned rfl⟩, rfl⟩
  · exact .inl rfl

/-- A packet is a transfer, a call of the claims module, and one of the recovery. -/
theorem recvPacket_moves (app : App) (s : State) (packet : Packet) :
    Moves app ((Event.recvPacket packet).bounds app s) s (recvPacket app s packet) := by
  rcases recvPacket_cases app s packet with same | ⟨bank, claimed, recovered, received, result⟩
  · rw [same]
    exact .refl _
  rw [result]
  have transfer : Moves app ((Event.recvPacket packet).bounds app s) s { s with bank := bank } :=
    .call (.transfer (app.receiveTransfer_changed received.transferred)) (fun _ pays => .inl pays)
      subset_rfl (.inl ⟨bank, rfl⟩)
  -- The claims module keeps its parameters, which the recovery looks at.
  have kept := (Claims.escrowPays_recv app.claimsKeeper s.blockTime
    (claimsView.get { s with bank := bank }) packet.claims).params
  rw [received.claims] at kept
  have claiming : Moves app ((Event.recvPacket packet).bounds app s) { s with bank := bank }
      (claimsView.set claimed { s with bank := bank }) := by
    have delivered : (Claims.Event.receive packet.claims).deliver app.claimsKeeper s.blockTime
        (claimsView.get { s with bank := bank }) = claimed := by
      simp only [Claims.Event.deliver, received.claims, Claims.keepOnSuccess]
    have move : Move app { s with bank := bank } (.claims (.receive packet.claims)) _ := .claims _
    rw [Lens.modify, delivered] at move
    refine .call move ?_ (Set.empty_subset _) (.inr (.inl rfl))
    rintro _ rfl
    exact .inr (.inl rfl)
  refine (transfer.trans claiming).trans
    (Moves.call (.recovery received.recovery) ?_ subset_rfl (.inr (.inr rfl)))
  rintro addr ⟨decoded, unblocked, enabled, authorized, cosmos, unsupported⟩
  have params : (claimsView.set claimed { s with bank := bank }).recoveryView.claimsParams =
      s.recoveryView.claimsParams := kept
  rw [params] at authorized cosmos
  exact .inr (.inr ⟨decoded, unblocked, enabled, authorized, cosmos, unsupported⟩)

/-- An acknowledgement is a transfer and a call of the claims module. -/
theorem acknowledgePacket_moves {packet : Packet} {ack : Claims.Ack}
    (acknowledged : acknowledgePacket app s packet ack = .ok after) :
    Moves app ((Event.acknowledgePacket packet ack).bounds app s) s after := by
  obtain ⟨bank, transferred, acknowledged⟩ := bind_eq_ok.mp acknowledged
  have transfer : Moves app ((Event.acknowledgePacket packet ack).bounds app s) s
      { s with bank := bank } :=
    .call (.transfer (app.acknowledgeTransfer_changed transferred)) (fun _ pays => .inl pays)
      subset_rfl (.inl ⟨bank, rfl⟩)
  refine transfer.trans ?_
  -- The callback has succeeded, so what it did is kept.
  dsimp only at acknowledged
  rcases returned : Claims.onAcknowledgementPacket app.claimsKeeper s.blockTime
    (claimsView.get { s with bank := bank }) packet.claims ack with ⟨err | done, part⟩
  · rw [returned] at acknowledged
    cases acknowledged
  rw [returned] at acknowledged
  obtain rfl := Except.ok.inj acknowledged
  have delivered : (Claims.Event.acknowledge packet.claims ack).deliver app.claimsKeeper s.blockTime
      (claimsView.get { s with bank := bank }) = part := by
    simp only [Claims.Event.deliver, returned, Claims.keepOnSuccess]
  have move : Move app { s with bank := bank } (.claims (.acknowledge packet.claims ack)) _ :=
    .claims _
  rw [Lens.modify, delivered] at move
  refine Moves.call move ?_ (Set.empty_subset _) (.inr rfl)
  rintro _ rfl
  exact .inr rfl

end Hooks

section Blocks

variable {app : App} {s after : State}

/-- What the beginning of a block may do. -/
def blockBounds (app : App) (blockTime : Time) (denom : Denom) : Bounds :=
  ⟨epochPayers app, {denom}, (Action.beginBlock blockTime 0).calls⟩

/-- The hook of the incentives module distributes rewards, or changes nothing. -/
theorem incentives_moves {epochIdentifier : String} {epochNumber : ℤ} {part : Incentives.State}
    (ended : Incentives.afterEpochEnd app.incentivesKeeper epochIdentifier epochNumber
      (incentivesView.get s) = .ok part) (blockTime : Time) (denom : Denom) :
    Moves app (blockBounds app blockTime denom) s (incentivesView.set part s) := by
  rcases Incentives.afterEpochEnd_ok ended with rfl | distributed
  · -- The module has nothing to do with this epoch.
    exact .refl _
  · have step : Incentives.Step app.incentivesKeeper app.validators (incentivesView.get s)
        ⟨s.incentivesContext, .distributeRewards⟩ part := .distributeRewards distributed
    refine .call (.incentives (by nofun) step) ?_ (Set.empty_subset _) (.inr (.inl ⟨_, rfl⟩))
    rintro _ rfl
    exact ⟨.incentives, by simp, rfl⟩

theorem afterEpochEnd_moves {epochIdentifier : String} {epochNumber : ℤ}
    (ended : (epochHooks app).afterEpochEnd epochIdentifier epochNumber s = .ok after)
    (blockTime : Time) :
    Moves app (blockBounds app blockTime s.inflation.params.mintDenom) s after ∧
      after.inflation.params = s.inflation.params := by
  -- The hooks run in the order in which the application registers them.
  obtain ⟨rewarded, first, ended⟩ := bind_eq_ok.mp ended
  obtain ⟨minted, second, ended⟩ := bind_eq_ok.mp ended
  obtain rfl := Except.ok.inj ended
  obtain ⟨part, distributed, rfl⟩ := Lens.modifyM_eq_ok.mp first
  obtain ⟨minting, done, rfl⟩ := Lens.modifyM_eq_ok.mp second
  refine ⟨(incentives_moves distributed blockTime _).trans
    (Moves.call (.epochEnd done) ?_ subset_rfl (.inr (.inr ⟨_, _, rfl⟩))),
    (Inflation.afterEpochEnd_followed done).1⟩
  rintro _ rfl
  exact ⟨.inflation, by simp, rfl⟩

theorem beforeEpochStart_eq (app : App) (epochIdentifier : String) (epochNumber : ℤ) (s : State) :
    (epochHooks app).beforeEpochStart epochIdentifier epochNumber s = .ok s :=
  rfl

/-- A block begins with a new time, and goes on with the ends of epochs. -/
theorem beginBlock_moves {before last : Chain} {blockTime : Time} {blockHeight : ℤ}
    (keyed : Epochs.Keyed before.epochInfos) (order : before.hooked.blockTime ≤ blockTime)
    (begun : beginBlock app before blockTime blockHeight = .ok last) :
    Moves app (blockBounds app blockTime before.hooked.inflation.params.mintDenom) before.hooked
        last.hooked ∧
      Epochs.Keyed last.epochInfos := by
  unfold beginBlock at begun
  -- No hook changes what is minted, so all of them mint the same coins.
  have visited := Epochs.beginBlocker_invariant
    (fun current : Chain =>
      Moves app (blockBounds app blockTime before.hooked.inflation.params.mintDenom) before.hooked
          current.hooked ∧
        current.hooked.inflation.params = before.hooked.inflation.params)
    ?_ ?_ ?_ begun
  · exact ⟨visited.1.1, visited.2⟩
  · intro current next info earlier _ _ visit
    obtain ⟨moves, params⟩ := earlier
    cases visit with
    | idle => exact ⟨moves, params⟩
    | started _ _ _ _ started =>
      rw [beforeEpochStart_eq] at started
      obtain rfl := Except.ok.inj started
      exact ⟨moves, params⟩
    | ended _ _ _ _ ended started =>
      rw [beforeEpochStart_eq] at started
      obtain rfl := Except.ok.inj started
      obtain ⟨more, same⟩ := afterEpochEnd_moves ended blockTime
      rw [params] at more
      exact ⟨moves.trans more, same.trans params⟩
  · exact keyed
  · exact ⟨.call (.time order) (Set.empty_subset _) (Set.empty_subset _) (.inl rfl), rfl⟩

theorem Event.moves {event : Event} (authentic : event.Authentic app s)
    (delivered : event.deliver app s = .ok after) :
    Moves app (event.bounds app s) s after := by
  -- A claim of a hook never fails the event.
  cases event with
  | tx msgs => exact deliverTx_moves authentic delivered
  | ethereumTx ethTx => exact applyTransaction_moves delivered
  | proposal content => exact Proposal.moves delivered
  | recvPacket packet =>
    obtain rfl := Except.ok.inj delivered
    exact recvPacket_moves app s packet
  | acknowledgePacket packet ack => exact acknowledgePacket_moves delivered
  | vote voterAddr =>
    obtain rfl := Except.ok.inj delivered
    exact .call (.claims (.vote voterAddr)) subset_rfl subset_rfl rfl
  | delegation delAddr =>
    obtain rfl := Except.ok.inj delivered
    exact .call (.claims (.delegation delAddr)) subset_rfl subset_rfl rfl
  | endBlock =>
    obtain ⟨last, ended, rfl⟩ := map_eq_ok.mp delivered
    exact .call (.endAirdrop ended) subset_rfl subset_rfl rfl
  | others outside =>
    obtain rfl := Except.ok.inj delivered
    exact .call (.others authentic) subset_rfl subset_rfl rfl

/-- Every action is a sequence of calls that take and issue no more than the action may. -/
theorem Step.moves {before last : Chain} {action : Action} (keyed : Epochs.Keyed before.epochInfos)
    (taken : Step app before action last) :
    Moves app (action.bounds app before.hooked) before.hooked last.hooked ∧
      Epochs.Keyed last.epochInfos := by
  obtain ⟨authentic, performed⟩ := taken
  cases action with
  | beginBlock blockTime blockHeight => exact beginBlock_moves keyed authentic performed
  | inBlock event =>
    obtain ⟨after, delivered, rfl⟩ := map_eq_ok.mp performed
    exact ⟨event.moves authentic delivered, keyed⟩

end Blocks

end Evmos.Application
