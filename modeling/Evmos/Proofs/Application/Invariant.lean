import Evmos.Proofs.Application.Moves
import Evmos.Proofs.Feesplit.Index

/-! What every call keeps, and what each module sees of the calls into the others. -/

namespace Evmos.Application

open Library

namespace Placed

variable {app : App} {part after : Vesting.State}

theorem setAccount (placed : Placed app part) {va : Vesting.ClawbackVestingAccount}
    (unblocked : app.modules.blockedAddr va.address = false) :
    Placed app (part.setAccount va.address (.clawback va)) := by
  intro addr other found
  simp only [Vesting.State.setAccount, Function.update_apply] at found
  -- The account found is the new one, or another.
  split_ifs at found with here
  · obtain rfl := Vesting.Account.clawback.inj (Option.some.inj found)
    exact ⟨here.symm, here ▸ unblocked⟩
  · exact placed addr other found

theorem sendCoins (placed : Placed app part) {blockTime : Time} {fromAddr toAddr : Address}
    {amt : Coins} (sent : part.sendCoins blockTime fromAddr toAddr amt = .ok after) :
    Placed app after := by
  obtain ⟨_, -, -, rfl⟩ := Vesting.State.sendCoins_ok sent
  intro addr va found
  unfold Vesting.State.ensureAccount at found
  -- The recipient was there, or becomes a base account.
  split at found
  · exact placed addr va found
  · simp only [Vesting.State.setAccount, Function.update_apply] at found
    split_ifs at found with here
    · simp [Vesting.baseAccount] at found
    · exact placed addr va found

/-- A grant goes to an account at its own address, which is not blocked. -/
theorem create {s : State} (placed : Placed app part)
    {msg : Vesting.MsgCreateClawbackVestingAccount}
    (delivered : Vesting.createClawbackVestingAccount app.bech32 (app.vestingContext s) part msg =
      .ok after) : Placed app after := by
  have unblocked : ∀ toAddr, app.bech32.decode msg.toAddress = some toAddr →
      app.modules.blockedAddr toAddr = false := by
    intro toAddr decoded
    obtain ⟨_, -, delivered⟩ := bind_eq_ok.mp delivered
    obtain ⟨other, found, delivered⟩ := bind_eq_ok.mp delivered
    obtain rfl := Option.some.inj (decoded.symm.trans (orPanic_eq_ok.mp found))
    split at delivered
    · cases delivered
    · next free => exact eq_false_of_ne_true free
  obtain ⟨fromAddr, toAddr, va, -, recipient, -, granted, sent⟩ :=
    Vesting.createClawbackVestingAccount_ok delivered
  -- The account is new, or it was there before.
  have address : va.address = toAddr := by
    unfold Vesting.grantAccount at granted
    split at granted
    · next existing found =>
      split_ifs at granted
      rw [Vesting.addGrant_address granted]
      exact (placed toAddr existing found).1
    · split_ifs at granted
    · obtain rfl := Except.ok.inj granted
      rfl
  refine (placed.setAccount ?_).sendCoins sent
  rw [address]
  exact unblocked toAddr recipient

theorem clawback {s : State} (placed : Placed app part) {msg : Vesting.MsgClawback}
    (delivered : Vesting.clawback app.bech32 (app.vestingContext s) part msg = .ok after) :
    Placed app after := by
  obtain ⟨addr, dest, va, -, found, -, -, transferred⟩ := Vesting.clawback_ok delivered
  -- The computed account is stored at the address it was found at.
  obtain ⟨updated, taken, computed, ⟨-, rfl⟩ | ⟨-, sent⟩⟩ := Vesting.transferClawback_ok transferred
  · exact placed
  · refine (placed.setAccount ?_).sendCoins sent
    obtain ⟨own, unblocked⟩ := placed addr va found
    rw [Vesting.computeClawback_address computed, own]
    exact unblocked

end Placed

/-- What holds between two calls. -/
structure Inv (app : App) (s : State) : Prop where
  registry : Erc20.Registry app.erc20Keeper (erc20View.get s)
  metered : Incentives.Metered (incentivesView.get s)
  indexed : Feesplit.Indexed app.feesplitKeeper (feesplitView.get s)
  sound : Inflation.Sound app.validators.validDenom (inflationView.get s)
  -- The coins that are minted are not those of a contract.
  mintDenom : ¬isErc20Denom app.format s.inflation.params.mintDenom
  -- No module account that is blocked has something to claim, or coins that vest.
  records : ∀ addr, s.claims.records.get? addr ≠ none → app.modules.blockedAddr addr = false
  placed : Placed app (vestingView.get s)

section Banking

variable {app : App} {s after : State} {call : Call}

/-- The denominations of which a call may lose coins. -/
def Call.loses (s : State) : Call → Set Denom
  | incentives call => call.loses (incentivesView.get s)
  | _ => ∅

/-- Every call keeps to its payers, and to the denominations that it issues and loses. -/
theorem Move.altered (inv : Inv app s) (move : Move app s call after) :
    s.bank.Altered (call.payers app s) (call.issues app s) (call.loses s) after.bank := by
  -- Each module bounds its own calls, with the invariant where it needs one.
  cases move with
  | claims event =>
    exact (Claims.escrowPays_deliver app.claimsKeeper s.blockTime (claimsView.get s) event).paid
      s.bank.supply
  | endAirdrop ended => exact Claims.endBlocker_changed ended s.bank.supply
  | erc20 _ own _ taken => exact taken.changed inv.registry own
  | incentives own taken => exact taken.altered own
  | feesplit own taken => exact taken.changed own
  | epochEnd ended => exact Inflation.afterEpochEnd_changed ended
  | grant _ _ granted => exact Vesting.createClawbackVestingAccount_changed granted s.bank.supply
  | clawback taken =>
    refine Vesting.clawback_changed ?_ taken s.bank.supply
    intro addr va found
    exact (inv.placed addr va found).1
  | @recovery packet part received =>
    have transfers : Recovery.TransfersVouchers app.recoveryKeeper := app.sendTransfer_changed
    have changed := Recovery.onRecvPacket_changed transfers s.blockTime s.recoveryView
      packet.recovery
    rw [received] at changed
    exact changed
  | transfer transferred => exact transferred
  | others lawful => exact lawful.bank
  | time _ => exact .refl _

theorem blocked_of_not_receiving (app : App) {acc : ModuleAccount}
    (refused : acc.allowedReceivingModAcc = false) :
    app.modules.blockedAddr (app.modules.address acc) = true := by
  rw [app.modules.blockedAddr_address, refused]
  rfl

/-- The account of a module that may not receive coins pays in calls of that module only. -/
theorem Move.spares (inv : Inv app s) (move : Move app s call after) {acc : ModuleAccount}
    (refused : acc.allowedReceivingModAcc = false) (other : call.owner ≠ some acc)
    (custody : acc ∈ [ModuleAccount.claims, .erc20, .incentives, .inflation]) :
    app.modules.address acc ∉ call.payers app s := by
  -- Accounts that are not blocked are others, and so are those of other modules.
  have spared : ∀ {addr}, app.modules.blockedAddr addr = false → app.modules.address acc ≠ addr := by
    rintro _ free rfl
    rw [blocked_of_not_receiving app refused] at free
    cases free
  have apart : ∀ {owner}, some owner ≠ some acc →
      app.modules.address acc ≠ app.modules.address owner :=
    fun differs same => differs (congrArg some (app.modules.injective same).symm)
  cases move with
  | claims event => exact apart other
  | endAirdrop ended =>
    rintro (same | ⟨held, -⟩)
    · exact apart other same
    · exact spared (inv.records _ held) rfl
  | erc20 _ own signed taken =>
    cases taken with
    | convertCoin _ _ _ =>
      rintro (same | sender)
      · exact apart other (same.trans app.erc20Address_bytes)
      · exact signed _ rfl acc sender
    | convertERC20 _ _ _ => exact fun same => apart other (same.trans app.erc20Address_bytes)
    | transaction _ => exact fun same => apart other (same.trans app.erc20Address_bytes)
    | _ => exact Set.notMem_empty _
  | incentives own taken =>
    cases taken with
    | distributeRewards _ => exact apart other
    | _ => exact Set.notMem_empty _
  | feesplit own taken =>
    cases taken with
    | postTx _ => exact apart other
    | _ => exact Set.notMem_empty _
  | epochEnd ended => exact apart other
  | grant _ signed granted => exact signed acc
  | clawback taken =>
    intro named
    obtain ⟨addr, dest, va, account, stored, -⟩ := Vesting.clawback_ok taken
    obtain rfl := Option.some.inj (account.symm.trans named)
    exact spared (inv.placed _ va stored).2 rfl
  | recovery received =>
    rintro ⟨-, unblocked, -⟩
    exact spared unblocked rfl
  | transfer transferred => exact app.escrow_not_module acc
  | others lawful => exact lawful.custody acc custody
  | time _ => exact Set.notMem_empty _

theorem not_isErc20Denom_of_voucher {denom : Denom} (voucher : denom ∈ vouchers) :
    ¬isErc20Denom app.format denom := by
  rintro ⟨contract, rfl⟩
  -- The first letters differ.
  have starts : Recovery.isVoucher (Erc20.createDenom (app.format.spell contract)) = true := voucher
  simp [Recovery.isVoucher, Erc20.createDenom, Erc20.moduleName, String.toList_append] at starts

/-- The coins of contracts are issued in calls of the erc20 module only. -/
theorem Move.supply_le (inv : Inv app s) (move : Move app s call after)
    (other : ∀ own, call ≠ .erc20 own) {denom : Denom} (erc20 : isErc20Denom app.format denom) :
    after.bank.supply denom ≤ s.bank.supply denom := by
  -- Others may burn such coins, and what else is issued is not one of them.
  by_cases outside : ∃ others, call = .others others
  · obtain ⟨others, rfl⟩ := outside
    cases move with
    | others lawful => exact lawful.issued denom erc20
  apply le_of_eq
  apply (move.altered inv).supply
  intro issued
  cases move with
  | erc20 _ own _ taken => exact other _ rfl
  | epochEnd ended =>
    obtain rfl := issued
    exact inv.mintDenom erc20
  | recovery received => exact not_isErc20Denom_of_voucher issued erc20
  | transfer transferred => exact not_isErc20Denom_of_voucher issued erc20
  | others lawful => exact outside ⟨_, rfl⟩
  | _ => cases issued

end Banking

section Projections

variable {app : App} {s after : State} {call : Call}

theorem not_owner_erc20 (other : ∀ taken, call ≠ .erc20 taken) : call.owner ≠ some .erc20 := by
  intro owner
  cases call with
  | erc20 taken => exact other taken rfl
  | _ => cases owner

/-- A call that the erc20 module makes for a call of the application. -/
def Converts (call : Call) (_ : Erc20.State) (own : Erc20.Call) : Prop :=
  ∀ msg, own.action = .convertCoin msg → call = .erc20 own

/-- To the erc20 module, calls into other modules are what others may do. -/
theorem Move.erc20_view (inv : Inv app s) (move : Move app s call after) :
    Reaches (Guarded (Converts call) (Erc20.Step app.erc20Keeper)) (erc20View.get s)
      (erc20View.get after) := by
  by_cases own : ∃ taken, call = .erc20 taken
  · obtain ⟨taken, rfl⟩ := own
    cases move with
    | erc20 _ _ _ taken => exact .single ⟨fun _ _ => rfl, taken⟩
  -- Its stores are left alone, its escrow grows, and its coins are not issued.
  have other : ∀ taken, call ≠ .erc20 taken := fun taken same => own ⟨taken, same⟩
  have frame : erc20View.get after =
      { erc20View.get s with params := after.erc20.params, bank := after.bank } := by
    cases move with
    | erc20 _ _ _ _ => exact absurd rfl (other _)
    | _ => rfl
  have step : Erc20.Step app.erc20Keeper (erc20View.get s)
      ⟨s.erc20Context, .others after.erc20.params after.bank⟩ (erc20View.get after) := by
    rw [frame]
    refine .others ?_ ?_
    · apply (move.altered inv).kept
      rw [show app.erc20Keeper.moduleAddress.bytes = app.modules.address .erc20 from
        app.erc20Address_bytes]
      exact move.spares inv rfl (not_owner_erc20 other) (by simp)
    · intro address
      exact move.supply_le inv other ⟨address, rfl⟩
  exact .single ⟨by nofun, step⟩

/-- To the incentives module, calls into other modules are what others may do. -/
theorem Move.incentives_view (move : Move app s call after) :
    Reaches (Incentives.Step app.incentivesKeeper app.validators) (incentivesView.get s)
      (incentivesView.get after) := by
  cases move with
  | incentives own taken => exact .single taken
  | _ => exact ⟨[⟨s.incentivesContext, .others _ _⟩], .single .others⟩

theorem Move.feesplit_view (move : Move app s call after) :
    Reaches (Feesplit.Step app.feesplitKeeper) (feesplitView.get s) (feesplitView.get after) := by
  cases move with
  | feesplit own taken => exact .single taken
  | _ => exact .single .others

/-- To the inflation module, calls into other modules are what others may do. -/
theorem Move.inflation_view (move : Move app s call after) :
    Reaches (Inflation.CallStep app.validators.validDenom app.inflationKeeper)
      (inflationView.get s) (inflationView.get after) := by
  cases move with
  | epochEnd ended =>
    have step : Inflation.CallStep app.validators.validDenom app.inflationKeeper
      (inflationView.get s) (.epochEnd _ _) _ := ended
    exact .single step
  | @others outside lawful =>
    -- The parameters are set, and then coins are moved.
    have first : Inflation.CallStep app.validators.validDenom app.inflationKeeper
        (inflationView.get s) (.setParams outside.inflationParams) _ :=
      bind_eq_ok.mpr ⟨(), lawful.inflation, rfl⟩
    have second : Inflation.CallStep app.validators.validDenom app.inflationKeeper
        { inflationView.get s with params := outside.inflationParams }
        (.outside outside.bank outside.communityPool outside.totalBondedTokens) _ := rfl
    exact (Reaches.single first).trans (.single second)
  | _ => exact ⟨[.outside _ _ _], .single rfl⟩

end Projections

namespace Inv

variable {app : App} {s after : State} {call : Call}

/-- A record that is stored after a call was there before, or its account is not blocked. -/
theorem records_move (inv : Inv app s) (move : Move app s call after) (addr : Address)
    (held : after.claims.records.get? addr ≠ none) : app.modules.blockedAddr addr = false := by
  -- Only claims and the end of the airdrop write records.
  cases move with
  | claims event =>
    rcases Claims.held_of_deliver (k := app.claimsKeeper) held with
      before | ⟨_, _, _, -, -, -, unblocked⟩
    · exact inv.records addr before
    · exact unblocked
  | @endAirdrop last ended =>
    apply inv.records
    exact Claims.held_of_endBlocker ended held
  | _ => exact inv.records addr held

theorem mintDenom_move (inv : Inv app s) (move : Move app s call after) :
    ¬isErc20Denom app.format after.inflation.params.mintDenom := by
  -- Epochs keep the parameters, and others are lawful.
  cases move with
  | @epochEnd _ _ part ended =>
    have params : part.params = s.inflation.params := (Inflation.afterEpochEnd_followed ended).1
    show ¬isErc20Denom app.format part.params.mintDenom
    rw [params]
    exact inv.mintDenom
  | others lawful => exact lawful.mintDenom
  | _ => exact inv.mintDenom

theorem placed_move (inv : Inv app s) (move : Move app s call after) :
    Placed app (vestingView.get after) := by
  cases move with
  | grant _ _ granted =>
    rw [vestingView.get_set]
    exact inv.placed.create granted
  | clawback taken =>
    rw [vestingView.get_set]
    exact inv.placed.clawback taken
  | @endAirdrop last ended =>
    -- The end of the airdrop only removes accounts.
    intro addr va found
    apply inv.placed addr va
    simp only [vestingView, State.setLedger, Option.map_eq_some_iff] at found ⊢
    obtain ⟨acc, stored, vesting⟩ := found
    split_ifs at stored
    exact ⟨acc, stored, vesting⟩
  | others lawful => exact lawful.vesting
  | _ => exact inv.placed

theorem move (inv : Inv app s) (move : Move app s call after) : Inv app after where
  registry := (move.erc20_view inv).invariant (Erc20.Registry app.erc20Keeper)
    (fun registry taken => registry.step taken.2) inv.registry
  metered := move.incentives_view.invariant Incentives.Metered
    (fun metered taken => metered.step taken) inv.metered
  indexed := move.feesplit_view.invariant (Feesplit.Indexed app.feesplitKeeper)
    (fun indexed taken => indexed.step taken) inv.indexed
  sound := move.inflation_view.invariant (Inflation.Sound app.validators.validDenom)
    (fun sound taken => sound.step taken) inv.sound
  mintDenom := inv.mintDenom_move move
  records := inv.records_move move
  placed := inv.placed_move move

theorem moves {bounds : Bounds} (inv : Inv app s) (moves : Moves app bounds s after) :
    Inv app after :=
  moves.invariant (Inv app) (fun inv taken => inv.move taken.2) inv

end Inv

/-- What holds between two actions: also, every epoch is stored under its identifier. -/
structure ChainInv (app : App) (chain : Chain) : Prop where
  state : Inv app chain.hooked
  keyed : Epochs.Keyed chain.epochInfos

namespace ChainInv

variable {app : App} {before after : Chain} {action : Action}

theorem step (inv : ChainInv app before) (taken : Step app before action after) :
    ChainInv app after := by
  obtain ⟨moves, keyed⟩ := taken.moves inv.keyed
  exact ⟨inv.state.moves moves, keyed⟩

theorem run {actions : List Action} (inv : ChainInv app before)
    (run : Run (Step app) before actions after) : ChainInv app after :=
  run.invariant (ChainInv app) (fun inv taken => inv.step taken) inv

/-- What every call of an action keeps, from states with the invariant, the action keeps. -/
theorem keeps {P : State → Prop} (inv : ChainInv app before) (taken : Step app before action after)
    (each : ∀ {s call next}, call ∈ action.calls → Inv app s → P s → Move app s call next → P next)
    (initially : P before.hooked) : P after.hooked := by
  have both := (taken.moves inv.keyed).1.invariant (fun s => Inv app s ∧ P s)
    (fun ⟨inv, holds⟩ ⟨within, move⟩ => ⟨inv.move move, each within.made inv holds move⟩)
    ⟨inv.state, initially⟩
  exact both.2

/-- What every guarded action keeps, from chains with the invariant, a run keeps. -/
theorem run_keeps {guard : Chain → Action → Prop} {P : Chain → Prop} {actions : List Action}
    (inv : ChainInv app before) (run : Run (Guarded guard (Step app)) before actions after)
    (each : ∀ {chain action next}, ChainInv app chain → P chain →
      Guarded guard (Step app) chain action next → P next)
    (initially : P before) : ChainInv app after ∧ P after :=
  run.invariant (fun chain => ChainInv app chain ∧ P chain)
    (fun ⟨inv, holds⟩ taken => ⟨inv.step taken.2, each inv holds taken⟩) ⟨inv, initially⟩

end ChainInv

end Evmos.Application
