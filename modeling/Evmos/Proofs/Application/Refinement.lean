import Evmos.Proofs.Application.Blocks

/-! To each module, a run of the whole application is a run of the module on its own. -/

namespace Evmos.Application

open Library

section Views

variable {app : App} {before after : Chain} {action : Action}

theorem ChainInv.view {τ β : Type*} {abstract : τ → β → τ → Prop} (view : State → τ)
    (inv : ChainInv app before) (taken : Step app before action after)
    (matched : ∀ {s after call}, call ∈ action.calls → Inv app s → Move app s call after →
      Reaches abstract (view s) (view after)) :
    Reaches abstract (view before.hooked) (view after.hooked) := by
  obtain ⟨calls, run⟩ := (taken.moves inv.keyed).1
  -- Each call keeps the invariant that the next one may use.
  refine Run.simulate view (Inv app) ?_ ?_ inv.state run
  · intro s call after inv taken
    exact inv.move taken.2
  · intro s call after inv taken
    exact matched taken.1.made inv taken.2

/-- A run of the application is one of the module, if every action is. -/
theorem ChainInv.simulate {τ β : Type*} {abstract : τ → β → τ → Prop} (view : State → τ)
    {guard : Chain → Action → Prop} {origin reached : Chain} {actions : List Action}
    (matched : ∀ {before action after}, ChainInv app before →
      Guarded guard (Step app) before action after →
      Reaches abstract (view before.hooked) (view after.hooked))
    (inv : ChainInv app origin) (run : Run (Guarded guard (Step app)) origin actions reached) :
    Reaches abstract (view origin.hooked) (view reached.hooked) :=
  Run.simulate (fun chain : Chain => view chain.hooked) (ChainInv app)
    (fun inv taken => inv.step taken.2) matched inv run

end Views

/--
Every run of the application is a run of each of its modules.

The erc20 module counts on others to leave its escrow and its coins alone, and the inflation module
on parameters that are checked. The rest of the application keeps to that.
-/
theorem modules_run_on_their_own {app : App} {data : GenesisState} {s : State} {blockHeight : ℤ}
    {origin reached : Chain} {actions : List Action} (fresh : Fresh app data s)
    (genesis : initGenesis app blockHeight data s = .ok origin)
    (run : Run (Step app) origin actions reached) :
    Reaches (Erc20.Step app.erc20Keeper) (erc20View.get origin.hooked)
        (erc20View.get reached.hooked) ∧
      Reaches (Incentives.Step app.incentivesKeeper app.validators)
        (incentivesView.get origin.hooked) (incentivesView.get reached.hooked) ∧
      Reaches (Feesplit.Step app.feesplitKeeper) (feesplitView.get origin.hooked)
        (feesplitView.get reached.hooked) ∧
      Reaches (Inflation.CallStep app.validators.validDenom app.inflationKeeper)
        (inflationView.get origin.hooked) (inflationView.get reached.hooked) := by
  have inv := fresh.inv genesis
  have free : Run (Guarded (fun _ _ => True) (Step app)) origin actions reached :=
    run.mono fun taken => ⟨trivial, taken⟩
  -- Each module sees only its own calls, and others as its own kind of step.
  refine ⟨?_, ?_, ?_, ?_⟩
  · apply inv.simulate erc20View.get ?_ free
    intro before action after inv taken
    apply inv.view erc20View.get taken.2
    intro s after call _ inv move
    exact (move.erc20_view inv).mono fun taken => taken.2
  · apply inv.simulate incentivesView.get ?_ free
    intro before action after inv taken
    apply inv.view incentivesView.get taken.2
    intro s after call _ _ move
    exact move.incentives_view
  · apply inv.simulate feesplitView.get ?_ free
    intro before action after inv taken
    apply inv.view feesplitView.get taken.2
    intro s after call _ _ move
    exact move.feesplit_view
  · apply inv.simulate inflationView.get ?_ free
    intro before action after inv taken
    apply inv.view inflationView.get taken.2
    intro s after call _ _ move
    exact move.inflation_view

/-- The erc20 module sees the first two days as a run of its own. -/
theorem firstDays_run_alone :
    ∃ origin reached, initGenesis plainApp 0 plainGenesis plainState = .ok origin ∧
      Run (Step plainApp) origin firstDays reached ∧
      Reaches (Erc20.Step plainApp.erc20Keeper) (erc20View.get origin.hooked)
        (erc20View.get reached.hooked) := by
  obtain ⟨origin, reached, genesis, run, -⟩ := firstDays_run
  exact ⟨origin, reached, genesis, run, (modules_run_on_their_own plainState_fresh genesis run).1⟩

section Backing

variable {app : App}

/-- No message converts a coin that is named like an address. -/
def PlainCoins (_ : Chain) (action : Action) : Prop :=
  ∀ msgs, action = .inBlock (.tx msgs) → ∀ msg, Msg.convertCoin msg ∈ msgs →
    isHexAddress msg.coin.denom = false

/-- Every action keeps the ledgers of coins and tokens covered. -/
theorem ChainInv.backed {before after : Chain} {action : Action} (inv : ChainInv app before)
    (taken : Guarded PlainCoins (Step app) before action after)
    (backed : Erc20.Backed app.erc20Keeper 0 (erc20View.get before.hooked)) :
    Erc20.Backed app.erc20Keeper 0 (erc20View.get after.hooked) := by
  have seen : Reaches (Guarded Erc20.PlainDenom (Erc20.Step app.erc20Keeper))
      (erc20View.get before.hooked) (erc20View.get after.hooked) := by
    apply inv.view erc20View.get taken.2
    intro s after call made inv move
    refine (move.erc20_view inv).mono ?_
    -- A conversion of coins is a message of the action, and those are plain.
    intro part own next ⟨converts, step⟩
    refine ⟨?_, step⟩
    intro msg converted
    rw [converts msg converted] at made
    obtain ⟨ctx, performed⟩ := own
    obtain rfl : performed = .convertCoin msg := converted
    obtain ⟨msgs, rfl, member⟩ := convertCoin_mem_calls made
    exact taken.1 msgs rfl msg member
  exact seen.invariant (Erc20.Backed app.erc20Keeper 0) (fun backed step => backed.step step) backed

end Backing

/--
On the whole chain, coins and tokens of the pairs stay backed.

Whatever the other modules, the EVM and IBC do, the erc20 account holds at least as many coins as
there are tokens of the contracts paired with them, and at least as many of a standard token as there
are coins for it. Others may burn the coins of contracts, but neither issue them nor have them minted.
-/
theorem pairs_backed_on_chain {app : App} {data : GenesisState} {s : State} {blockHeight : ℤ}
    {origin reached : Chain} {actions : List Action} (fresh : Fresh app data s)
    (genesis : initGenesis app blockHeight data s = .ok origin)
    (run : Run (Guarded PlainCoins (Step app)) origin actions reached) :
    (∀ id pair, reached.hooked.erc20.tokenPairs.get? id = some pair →
      pair.contractOwner = .module →
      (erc20View.get reached.hooked).pairedSupply pair.denom ≤
        reached.hooked.bank.balances (app.modules.address .erc20) pair.denom) ∧
    ∀ id pair issuer data token, reached.hooked.erc20.tokenPairs.get? id = some pair →
      pair.contractOwner = .external →
      reached.hooked.evm.contracts pair.getERC20Contract = some (.standard issuer data token) →
      reached.hooked.bank.supply pair.denom ≤ token.balances app.erc20Address := by
  -- Both the invariant of the chain and the covering hold along the run.
  have start : Erc20.Backed app.erc20Keeper 0 (erc20View.get origin.hooked) := by
    obtain ⟨claimsParams, records, provision, init⟩ := fresh.initialised genesis
    rw [init.hooked]
    have started : Erc20.Start app.erc20Keeper
        { erc20View.get s with params := data.erc20.params } :=
      ⟨fresh.erc20.tokenPairs, fresh.erc20.erc20Map, fresh.erc20.denomMap, fresh.erc20.unminted,
        fresh.erc20.unapproved⟩
    exact started.backed
  obtain ⟨-, backed⟩ := (fresh.inv genesis).run_keeps run
    (fun inv backed taken => inv.backed taken backed) start
  constructor
  · intro id pair stored owner
    rw [backed.registry.pairedSupply_eq stored owner, ← app.erc20Address_bytes]
    exact backed.coins pair.denom
  · intro id pair issuer data token stored owner found
    have covered := backed.tokens pair.getERC20Contract
    rw [show (erc20View.get reached.hooked).evm.contracts pair.getERC20Contract = _ from found]
      at covered
    rw [(backed.registry.denom stored owner).2]
    exact covered

/-- After the first two days, two tokens or more back the two coins of contract nine. -/
theorem firstDays_backed :
    ∃ origin reached, initGenesis plainApp 0 plainGenesis plainState = .ok origin ∧
      Run (Guarded PlainCoins (Step plainApp)) origin firstDays reached ∧
      ∀ id pair issuer data token, reached.hooked.erc20.tokenPairs.get? id = some pair →
        pair.contractOwner = .external →
        reached.hooked.evm.contracts pair.getERC20Contract = some (.standard issuer data token) →
        reached.hooked.bank.supply pair.denom ≤ token.balances plainApp.erc20Address := by
  obtain ⟨origin, reached, genesis, run, -⟩ := firstDays_run
  -- The only conversion is of a coin that does not read as an address.
  have plain : Run (Guarded PlainCoins (Step plainApp)) origin firstDays reached := by
    apply run.guarded
    intro action member _ msgs same msg converted
    subst same
    simp only [firstDays, firstDay, List.cons_append, List.nil_append, List.mem_cons,
      List.not_mem_nil, or_false, reduceCtorEq, false_or, Action.inBlock.injEq,
      Event.tx.injEq] at member
    obtain rfl := member
    obtain rfl := Msg.convertCoin.inj (List.mem_singleton.mp converted)
    decide
  exact ⟨origin, reached, genesis, plain,
    (pairs_backed_on_chain plainState_fresh genesis plain).2⟩

end Evmos.Application
