import Evmos.Proofs.Application.Blocks

/-! What whole runs of the application do to coins: none is lost, and none is minted unrecorded. -/

namespace Evmos.Application

open Library

section Bank

variable {app : App} {s after : State} {call : Call} {action : Action}

/-- The denominations of which an action may lose coins: those that incentives pay before others. -/
def Action.loses (s : State) : Action → Set Denom
  | beginBlock _ _ => (incentivesView.get s).paidBefore
  | inBlock _ => ∅

theorem loses_of_made (made : call ∈ action.calls) :
    call.loses s = ∅ ∨ ∃ blockTime blockHeight, action = .beginBlock blockTime blockHeight := by
  cases action with
  | beginBlock blockTime blockHeight => exact .inr ⟨blockTime, blockHeight, rfl⟩
  | inBlock event =>
    left
    cases call with
    | incentives own =>
      obtain ⟨ctx, ownAction⟩ := own
      cases ownAction with
      | distributeRewards =>
        -- No message and nothing else in a block makes the call.
        cases event with
        | tx msgs =>
          obtain ⟨msg, -, made⟩ := made
          cases msg <;> simp [Msg.calls] at made
        | _ => simp [Action.calls, Event.calls] at made
      | _ => rfl
    | _ => rfl

theorem Move.paidBefore {blockTime : Time} (blockHeight : ℤ) (move : Move app s call after)
    (made : call ∈ (Action.beginBlock blockTime blockHeight).calls) :
    (incentivesView.get after).paidBefore ⊆ (incentivesView.get s).paidBefore := by
  -- The calls of the beginning of a block are the time and the two epoch hooks.
  rcases made with rfl | ⟨ctx, rfl⟩ | ⟨epochIdentifier, epochNumber, rfl⟩
  · cases move with
    | time order => exact subset_rfl
  · cases move with
    | incentives own taken =>
      cases taken with
      | distributeRewards distributed =>
        exact Incentives.paidBefore_distributeRewards distributed
  · cases move with
    | epochEnd ended => exact subset_rfl

/-- The calls of an action change the bank within its bounds. -/
theorem Inv.altered (inv : Inv app s) (moves : Moves app (action.bounds app s) s after) :
    s.bank.Altered (action.payers app s) (action.issues app s) (action.loses s) after.bank := by
  -- Each call starts in the invariant, and loses no more than the first one may.
  have all := moves.invariant
    (fun current => Inv app current ∧
      s.bank.Altered (action.payers app s) (action.issues app s) (action.loses s) current.bank ∧
      ∀ blockTime blockHeight, action = .beginBlock blockTime blockHeight →
        (incentivesView.get current).paidBefore ⊆ (incentivesView.get s).paidBefore)
    ?_ ⟨inv, .refl _, fun _ _ _ => subset_rfl⟩
  · exact all.2.1
  intro before called next ⟨inv, altered, shrunk⟩ ⟨within, move⟩
  refine ⟨inv.move move, altered.trans ((move.altered inv).widen within.pays within.issues ?_), ?_⟩
  · rcases loses_of_made within.made with none | ⟨blockTime, blockHeight, rfl⟩
    · rw [none]
      exact Set.empty_subset _
    · refine Set.Subset.trans ?_ (shrunk _ _ rfl)
      cases called with
      | incentives own =>
        obtain ⟨ctx, ownAction⟩ := own
        cases ownAction <;> first | exact subset_rfl | exact Set.empty_subset _
      | _ => exact Set.empty_subset _
  · rintro blockTime blockHeight rfl
    exact (move.paidBefore blockHeight within.made).trans (shrunk _ _ rfl)

/-- Every action changes the bank within its bounds. -/
theorem ChainInv.altered {before after : Chain} (inv : ChainInv app before)
    (taken : Step app before action after) :
    before.hooked.bank.Altered (action.payers app before.hooked)
      (action.issues app before.hooked) (action.loses before.hooked) after.hooked.bank :=
  inv.state.altered (taken.moves inv.keyed).1

/-- An action that takes coins from the given accounts, issues these coins, and loses no others. -/
structure Action.Spends (app : App) (payers : Set Address) (issued lost : Set Denom) (chain : Chain)
    (action : Action) : Prop where
  pays : action.payers app chain.hooked ⊆ payers
  issues : action.issues app chain.hooked ⊆ issued
  loses : action.loses chain.hooked ⊆ lost

end Bank

/--
No coin is taken from a bystander or issued out of turn, and few can be lost.

Over any run, all accounts together hold no more than the supply of a coin. They hold all of it
unless an incentive paid the coin before another one, whose lack then lost the first. An account from
which no action takes coins has at least what it had, and a coin that no action issues has the supply
that it had.
-/
theorem coins_are_accounted_for {app : App} {data : GenesisState} {s : State} {blockHeight : ℤ}
    {origin reached : Chain} {actions : List Action} {payers : Set Address} {issued lost : Set Denom}
    (fresh : Fresh app data s) (genesis : initGenesis app blockHeight data s = .ok origin)
    (run : Run (Guarded (Action.Spends app payers issued lost) (Step app)) origin actions reached) :
    (∀ denom, s.bank.Covered denom → reached.hooked.bank.Covered denom) ∧
      (∀ denom ∉ lost, s.bank.Balanced denom → reached.hooked.bank.Balanced denom) ∧
      (∀ addr ∉ payers, s.bank.balances addr ≤ reached.hooked.bank.balances addr) ∧
      ∀ denom ∉ issued, reached.hooked.bank.supply denom = s.bank.supply denom := by
  have inv := fresh.inv genesis
  -- The genesis of the modules moves no coins.
  have started : origin.hooked.bank = s.bank := by
    obtain ⟨claimsParams, records, provision, init⟩ := fresh.initialised genesis
    rw [init.hooked]
  obtain ⟨-, altered⟩ := inv.run_keeps run
    (fun inv (altered : s.bank.Altered payers issued lost _) ⟨spends, taken⟩ =>
      altered.trans ((inv.altered taken).widen spends.pays spends.issues spends.loses))
    (started ▸ .refl _)
  exact ⟨altered.covered, altered.balanced, altered.kept, altered.supply⟩

/-- On the first day, modules and account two pay, and coins of contracts are issued. -/
theorem firstDay_is_accounted_for :
    ∃ origin reached, initGenesis plainApp 0 plainGenesis plainState = .ok origin ∧
      Run (Guarded (Action.Spends plainApp {2, 100, 108, 109}
        {denom | isErc20Denom plainApp.format denom} ∅) (Step plainApp)) origin firstDay reached ∧
      (∀ denom, reached.hooked.bank.Balanced denom) ∧
      plainState.bank.balances 1 ≤ reached.hooked.bank.balances 1 := by
  obtain ⟨origin, reached, genesis, run⟩ := firstDay_run
  have spends : Run (Guarded (Action.Spends plainApp {2, 100, 108, 109}
      {denom | isErc20Denom plainApp.format denom} ∅) (Step plainApp)) origin firstDay reached := by
    apply run.guarded
    intro action member chain
    simp only [firstDay, List.mem_cons, List.not_mem_nil, or_false] at member
    -- Contracts are called, registered and called, account twelve votes, and coins are converted.
    rcases member with rfl | rfl | rfl | rfl | rfl
    · refine ⟨?_, subset_rfl, subset_rfl⟩
      rintro _ ⟨acc, among, rfl⟩
      cases acc <;> first | decide | simp at among
    · exact ⟨Set.empty_subset _, Set.empty_subset _, subset_rfl⟩
    · refine ⟨?_, subset_rfl, subset_rfl⟩
      rintro _ ⟨acc, among, rfl⟩
      cases acc <;> first | decide | simp at among
    · refine ⟨?_, Set.empty_subset _, subset_rfl⟩
      rintro _ rfl
      decide
    · refine ⟨?_, ?_, subset_rfl⟩
      · rintro addr ⟨msg, among, pays⟩
        obtain rfl := List.mem_singleton.mp among
        rcases pays with rfl | decoded
        · decide
        · obtain rfl := Option.some.inj decoded
          decide
      · rintro denom ⟨msg, among, issues⟩
        obtain rfl := List.mem_singleton.mp among
        exact ⟨9, issues.1⟩
  have accounted := coins_are_accounted_for plainState_fresh genesis spends
  refine ⟨origin, reached, genesis, spends, ?_, accounted.2.2.1 1 (by decide)⟩
  intro denom
  exact accounted.2.1 denom (Set.notMem_empty denom) (plainState_balanced denom)

section Mints

/-- What all mints together have issued. -/
def mintedTotal (mints : List Inflation.Mint) : ℕ := (mints.map fun mint => mint.amount.toNat).sum

/-- The coin that is minted is known, and its supply has grown by the recorded mints. -/
structure Minting (denom : Denom) (genesis : Bank) (s : State) : Prop where
  mintDenom : s.inflation.params.mintDenom = denom
  supply : s.bank.supply denom = genesis.supply denom + mintedTotal s.inflation.mints

/-- A coin that neither contracts nor IBC issue. -/
structure Native (app : App) (denom : Denom) : Prop where
  contract : ¬isErc20Denom app.format denom
  address : isHexAddress denom = false
  voucher : denom ∉ vouchers

variable {app : App} {denom : Denom} {bank : Bank}

/-- Others may not issue the coin, or have another one minted. -/
def Outside.Respects (denom : Denom) (outside : Outside) : Prop :=
  outside.inflationParams.mintDenom = denom ∧ denom ∉ outside.issued

/-- Only the end of an epoch issues such a coin, unless others do. -/
theorem Native.not_issued (native : Native app denom) {s : State} {call : Call}
    (epoch : ∀ epochIdentifier epochNumber, call ≠ .epochEnd epochIdentifier epochNumber)
    (own : ∀ outside, call = .others outside → outside.Respects denom) :
    denom ∉ call.issues app s := by
  intro issued
  cases call with
  | erc20 called =>
    obtain ⟨ctx, action⟩ := called
    cases action with
    | convertCoin msg =>
      -- What is burned is named after a contract, or like one.
      rcases issued.2 with hex | contract
      · rw [native.address] at hex
        cases hex
      · exact native.contract contract
    | convertERC20 msg => exact native.contract issued
    | transaction ops => exact native.contract issued
    | _ => exact issued
  | epochEnd epochIdentifier epochNumber => exact epoch _ _ rfl
  | recovery packet => exact native.voucher issued
  | transfer bank => exact native.voucher issued
  | others outside => exact (own outside rfl).2 issued
  | _ => exact issued

theorem Minting.epochEnd {s : State} {epochIdentifier : String} {epochNumber : ℤ}
    {part : Inflation.State} (minting : Minting denom bank s) (inv : Inv app s)
    (ended : Inflation.afterEpochEnd app.inflationKeeper epochIdentifier epochNumber
      (inflationView.get s) = .ok part) :
    Minting denom bank (inflationView.set part s) := by
  have params : part.params = s.inflation.params := (Inflation.afterEpochEnd_followed ended).1
  refine ⟨(congrArg _ params).trans minting.mintDenom, ?_⟩
  show part.bank.supply denom = bank.supply denom + mintedTotal part.mints
  by_cases own : (inflationView.get s).params.enableInflation = true ∧
      epochIdentifier = (inflationView.get s).epochIdentifier
  · -- An amount is minted, and appended to the mints.
    obtain ⟨enabled, rfl⟩ := own
    obtain ⟨after, mint, done, mints, -, -, conserved⟩ :=
      inv.sound.mints (inflationKeeper_onChain app) enabled epochNumber
    obtain rfl := Except.ok.inj (ended.symm.trans done)
    have minted : (inflationView.get s).params.mintDenom = denom := minting.mintDenom
    rw [conserved.supply, mints, minted, DFinsupp.add_apply, Coins.ofCoin_apply, if_pos rfl]
    have before : (inflationView.get s).bank.supply denom = _ := minting.supply
    rw [before]
    simp only [mintedTotal, List.map_append, List.sum_append, List.map_cons, List.map_nil,
      List.sum_cons, List.sum_nil]
    show _ = bank.supply denom + (mintedTotal s.inflation.mints + _)
    simp only [mintedTotal]
    omega
  · -- Nothing is minted, but a day may be skipped.
    rw [Inflation.afterEpochEnd_other own] at ended
    obtain rfl := Except.ok.inj ended
    split_ifs
    · exact minting.supply
    · exact minting.supply

/-- Every call keeps the supply in step with the mints. -/
theorem Minting.move {s after : State} {call : Call} (minting : Minting denom bank s)
    (native : Native app denom) (inv : Inv app s) (move : Move app s call after)
    (own : ∀ outside, call = .others outside → outside.Respects denom) :
    Minting denom bank after := by
  by_cases epoch : ∃ epochIdentifier epochNumber, call = .epochEnd epochIdentifier epochNumber
  · obtain ⟨epochIdentifier, epochNumber, rfl⟩ := epoch
    cases move with
    | epochEnd ended => exact minting.epochEnd inv ended
  -- The supply stays, and nothing is recorded.
  have other : ∀ epochIdentifier epochNumber, call ≠ .epochEnd epochIdentifier epochNumber :=
    fun epochIdentifier epochNumber same => epoch ⟨epochIdentifier, epochNumber, same⟩
  have supply := (move.altered inv).supply denom (native.not_issued other own)
  have frame : after.inflation.mints = s.inflation.mints ∧
      after.inflation.params.mintDenom = denom := by
    cases move with
    | epochEnd ended => exact absurd rfl (other _ _)
    | others lawful => exact ⟨rfl, (own _ rfl).1⟩
    | _ => exact ⟨rfl, minting.mintDenom⟩
  refine ⟨frame.2, ?_⟩
  rw [supply, frame.1]
  exact minting.supply

/-- Others leave the minted coin alone. -/
def MintsAlone (denom : Denom) (_ : Chain) (action : Action) : Prop :=
  ∀ outside, action = .inBlock (.others outside) → outside.Respects denom

/-- Every action keeps the supply in step with the mints. -/
theorem Minting.step {before after : Chain} {action : Action}
    (minting : Minting denom bank before.hooked) (native : Native app denom)
    (inv : ChainInv app before)
    (taken : Guarded (MintsAlone denom) (Step app) before action after) :
    Minting denom bank after.hooked := by
  obtain ⟨alone, taken⟩ := taken
  have respects : ∀ call ∈ action.calls, ∀ outside, call = .others outside →
      outside.Respects denom := by
    rintro _ made outside rfl
    exact alone outside (others_mem_calls made)
  -- The calls of the action keep both, and only others have to be asked to.
  exact inv.keeps taken
    (fun made inv minting move => minting.move native inv move (respects _ made)) minting

end Mints

/--
The inflation mints all there is of its coin, beside what there was at genesis.

In every state of a run in which others leave the coin alone, its supply is that of the genesis and
the sum of all recorded mints. No conversion, packet, claim, clawback or reward changes it.
-/
theorem supply_grows_by_mints {app : App} {data : GenesisState} {s : State} {blockHeight : ℤ}
    {origin reached : Chain} {actions : List Action} (fresh : Fresh app data s)
    (native : Native app data.inflation.params.mintDenom) (unminted : s.inflation.mints = [])
    (genesis : initGenesis app blockHeight data s = .ok origin)
    (run : Run (Guarded (MintsAlone data.inflation.params.mintDenom) (Step app)) origin actions
      reached) :
    reached.hooked.bank.supply data.inflation.params.mintDenom =
      s.bank.supply data.inflation.params.mintDenom +
        mintedTotal reached.hooked.inflation.mints := by
  -- The genesis moves no coins and records no mint.
  have started : Minting data.inflation.params.mintDenom s.bank origin.hooked := by
    obtain ⟨claimsParams, records, provision, init⟩ := fresh.initialised genesis
    rw [init.hooked]
    refine ⟨rfl, ?_⟩
    simp [unminted, mintedTotal]
  obtain ⟨-, minting⟩ := (fresh.inv genesis).run_keeps run
    (fun inv minting taken => Minting.step minting native inv taken) started
  exact minting.supply

/-- In the first two days, half a token is minted beside the eight coins of the airdrop. -/
theorem firstDays_supply :
    ∃ origin reached, initGenesis plainApp 0 plainGenesis plainState = .ok origin ∧
      Run (Guarded (MintsAlone "aevmos") (Step plainApp)) origin firstDays reached ∧
      500000000000000008 = 8 + mintedTotal reached.hooked.inflation.mints := by
  obtain ⟨origin, reached, genesis, run, supply, -⟩ := firstDays_run
  have alone : Run (Guarded (MintsAlone "aevmos") (Step plainApp)) origin firstDays reached := by
    apply run.guarded
    intro action member _ outside same
    exact absurd (firstDays_own action member) (by rw [same]; exact id)
  -- The coin has no contract, is no address and no voucher.
  have native : Native plainApp "aevmos" :=
    ⟨plainState_fresh.mintDenom, by decide, by simp [vouchers, Recovery.isVoucher]⟩
  have grown := supply_grows_by_mints plainState_fresh native rfl genesis alone
  refine ⟨origin, reached, genesis, alone, ?_⟩
  rw [← supply]
  exact grown

end Evmos.Application
