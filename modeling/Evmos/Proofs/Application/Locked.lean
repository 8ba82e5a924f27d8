import Evmos.Proofs.Application.Blocks
import Evmos.Proofs.Vesting.Locked

/-! On the whole chain, no module takes the coins that a vesting account locks. -/

namespace Evmos

open Library

namespace Erc20

theorem convertCoin_locked {k : Keeper} {ctx : Context} {s after : State} {msg : MsgConvertCoin}
    (converted : convertCoin k ctx s msg = .ok after) {sender : Address}
    (decoded : k.bech32.decode msg.sender = some sender) (other : sender ≠ k.moduleAddress.bytes)
    (enough : ctx.lockedCoins sender ≤ s.bank.balances sender) :
    ctx.lockedCoins sender ≤ after.bank.balances sender := by
  have escrow : ∀ {payer bank}, k.bech32.decode msg.sender = some payer →
      s.bank.sendCoinsFromAccountToModule (ctx.lockedCoins payer) payer k.moduleAddress.bytes
        msg.coin.toCoins = .ok bank → ctx.lockedCoins sender ≤ bank.balances sender := by
    intro payer bank paid sent
    obtain rfl := Option.some.inj (decoded.symm.trans paid)
    simp only [Bank.sendCoinsFromAccountToModule] at sent
    split_ifs at sent with spendable
    obtain rfl := Except.ok.inj sent
    -- What is spent is not locked.
    show _ ≤ moveCoins s.bank.balances sender k.moduleAddress.bytes _ sender
    rw [moveCoins_from _ other]
    intro denom
    have spendable := (Coins.isAllLTE_iff _ _).mp spendable denom
    have enough : ctx.lockedCoins sender denom ≤ s.bank.balances sender denom := enough denom
    simp only [DFinsupp.tsub_apply] at spendable ⊢
    omega
  cases convertCoin_converts converted with
  | removed => exact enough
  | escrowed paid _ _ sent => exact escrow paid sent
  | @burned _ pair bank burnt _ _ paid found owner sent called burns =>
    refine (escrow paid sent).trans ?_
    -- Only the module account loses what is burned.
    have burning : bank.Changed {k.moduleAddress.bytes} Set.univ burnt :=
      .of_burnCoins rfl (fun _ _ => trivial) burns
    exact burning.kept sender other

end Erc20

namespace Application

variable {app : App}

/-- An account that no module and no channel spends from. -/
def App.users (app : App) : Set Address :=
  {addr | (∀ acc, addr ≠ app.modules.address acc) ∧ addr ∉ app.escrowAddresses}

/-- Vesting accounts are well formed, and those of users have what they lock. -/
structure Secured (app : App) (s : State) : Prop where
  wellFormed : (vestingView.get s).WellFormed
  funded : Vesting.Funded app.users (app.vestingContext s) (vestingView.get s)

section Calls

variable {s after : State} {call : Call} {addr : Address} {va : Vesting.ClawbackVestingAccount}

theorem Secured.lockedCoins_eq (secured : Secured app s)
    (stored : (vestingView.get s).accounts addr = some (.clawback va)) :
    va.lockedCoins s.blockTime = some (s.lockedCoins addr) := by
  obtain ⟨wf, -⟩ := secured.wellFormed addr va stored
  have locks := wf.lockedCoins_eq s.blockTime
  rw [State.lockedCoins, Vesting.State.lockedCoins, stored]
  simp only
  -- A well-formed account never panics when it is asked.
  rw [locks, Option.getD_some]

theorem isVesting_of_stored (stored : (vestingView.get s).accounts addr = some (.clawback va)) :
    ∃ acc, s.accounts addr = some acc ∧ acc.isVesting = true := by
  obtain ⟨acc, found, vesting⟩ := Option.map_eq_some_iff.mp stored
  refine ⟨acc, found, ?_⟩
  rw [Account.isVesting, vesting]

/-- No call but a grant, a clawback or what others do takes locked coins. -/
theorem Secured.enough (secured : Secured app s) (inv : Inv app s) (move : Move app s call after)
    (grant : ∀ msg, call ≠ .grant msg) (clawback : ∀ msg, call ≠ .clawback msg)
    (own : ∀ outside, call ≠ .others outside) (user : addr ∈ app.users)
    (stored : (vestingView.get s).accounts addr = some (.clawback va)) :
    s.lockedCoins addr ≤ after.bank.balances addr := by
  have before : s.lockedCoins addr ≤ s.bank.balances addr :=
    (secured.funded addr user va stored).covered _ (secured.lockedCoins_eq stored)
  have changed := move.altered inv
  by_cases pays : addr ∈ call.payers app s
  swap
  · exact before.trans (changed.kept addr pays)
  obtain ⟨acc, found, vesting⟩ := isVesting_of_stored stored
  cases move with
  | claims event => exact absurd pays (user.1 .claims)
  | endAirdrop ended =>
    rcases pays with same | ⟨-, other, found', unused, -⟩
    · exact absurd same (user.1 .claims)
    · -- A vesting account is never swept.
      simp only [State.ledger, found, Option.map_some, Option.some.injEq] at found'
      rw [← found', Account.claims, vesting] at unused
      cases unused
  | @erc20 called part now own signed taken =>
    cases taken with
    | convertCoin valid signed converted =>
      rcases pays with same | sender
      · exact absurd (same.trans app.erc20Address_bytes) (user.1 .erc20)
      · obtain rfl := now
        have other : addr ≠ app.erc20Keeper.moduleAddress.bytes := by
          intro same
          exact user.1 .erc20 (same.trans app.erc20Address_bytes)
        exact Erc20.convertCoin_locked converted sender other before
    | convertERC20 _ _ _ => exact absurd (pays.trans app.erc20Address_bytes) (user.1 .erc20)
    | transaction _ => exact absurd (pays.trans app.erc20Address_bytes) (user.1 .erc20)
    | _ => exact absurd pays (Set.notMem_empty _)
  | incentives own taken =>
    cases taken with
    | distributeRewards _ => exact absurd pays (user.1 .incentives)
    | _ => exact absurd pays (Set.notMem_empty _)
  | feesplit own taken =>
    cases taken with
    | postTx _ => exact absurd pays (user.1 .feeCollector)
    | _ => exact absurd pays (Set.notMem_empty _)
  | epochEnd ended => exact absurd pays (user.1 .inflation)
  | grant _ _ _ => exact absurd rfl (grant _)
  | clawback _ => exact absurd rfl (clawback _)
  | recovery received =>
    -- Vesting accounts are not recovered.
    obtain ⟨-, -, -, -, -, unserved⟩ := pays
    simp [State.recoveryView, found, Account.recovery, vesting] at unserved
  | transfer transferred => exact absurd pays user.2
  | others lawful => exact absurd rfl (own _)
  | time _ => exact absurd pays (Set.notMem_empty _)

/-- Every call but those of others leaves vesting accounts what they lock. -/
theorem Secured.move (secured : Secured app s) (inv : Inv app s) (move : Move app s call after)
    (own : ∀ outside, call ≠ .others outside) : Secured app after := by
  by_cases vests : (∃ msg, call = .grant msg) ∨ (∃ msg, call = .clawback msg) ∨
      ∃ blockTime, call = .time blockTime
  · cases move with
    | @grant msg part valid signed granted =>
      have view : vestingView.get (vestingView.set part s) = part := vestingView.get_set part s
      refine ⟨?_, ?_⟩
      · rw [view]
        exact secured.wellFormed.create valid granted
      · rw [view]
        exact secured.funded.create secured.wellFormed valid granted
    | @clawback msg part taken =>
      have view : vestingView.get (vestingView.set part s) = part := vestingView.get_set part s
      refine ⟨?_, ?_⟩
      · rw [view]
        exact secured.wellFormed.clawback taken
      · rw [view]
        exact secured.funded.clawback secured.wellFormed taken
    | time order =>
      -- Less is locked later on.
      refine ⟨secured.wellFormed, ?_⟩
      intro addr user va stored
      have held := secured.funded addr user va stored
      obtain ⟨wf, -⟩ := secured.wellFormed addr va stored
      refine ⟨?_, held.delegated⟩
      intro locked locks
      exact (wf.lockedCoins_antitone order (wf.lockedCoins_eq s.blockTime) locks).trans
        (held.covered _ (wf.lockedCoins_eq s.blockTime))
    | _ => simp at vests
  · push Not at vests
    obtain ⟨grant, clawback, time⟩ := vests
    -- No account becomes a vesting account, and what the accounts lock stays the same.
    have kept : ∀ addr va, (vestingView.get after).accounts addr = some (.clawback va) →
        (vestingView.get s).accounts addr = some (.clawback va) := by
      intro addr va stored
      cases move with
      | grant _ _ _ => exact absurd rfl (grant _)
      | clawback _ => exact absurd rfl (clawback _)
      | others _ => exact absurd rfl (own _)
      | endAirdrop ended =>
        simp only [vestingView, State.setLedger, Option.map_eq_some_iff] at stored ⊢
        obtain ⟨acc, found, vesting⟩ := stored
        split_ifs at found
        exact ⟨acc, found, vesting⟩
      | _ => exact stored
    have context : app.vestingContext after = app.vestingContext s := by
      cases move with
      | time _ => exact absurd rfl (time _)
      | others _ => exact absurd rfl (own _)
      | _ => rfl
    refine ⟨fun addr va stored => secured.wellFormed addr va (kept addr va stored), ?_⟩
    intro addr user va stored
    have before := kept addr va stored
    rw [context]
    refine ⟨?_, (secured.funded addr user va before).delegated⟩
    intro locked locks
    obtain rfl := Option.some.inj (locks.symm.trans (secured.lockedCoins_eq before))
    exact secured.enough inv move grant clawback own user before

end Calls

/-- Others leave vesting accounts what they lock, and keep delegations on record. -/
def KeepsLocks (app : App) (chain : Chain) (action : Action) : Prop :=
  ∀ outside, action = .inBlock (.others outside) → Secured app (outside.apply chain.hooked)

/-- Every action leaves vesting accounts what they lock. -/
theorem Secured.step {before after : Chain} {action : Action} (secured : Secured app before.hooked)
    (inv : ChainInv app before) (taken : Guarded (KeepsLocks app) (Step app) before action after) :
    Secured app after.hooked := by
  obtain ⟨keeps, taken⟩ := taken
  -- What others do is asked to keep the locks, and every call of a module does.
  by_cases foreign : ∃ outside, action = .inBlock (.others outside)
  · obtain ⟨outside, rfl⟩ := foreign
    obtain ⟨-, performed⟩ := taken
    obtain rfl := Except.ok.inj performed
    exact keeps outside rfl
  · refine inv.keeps taken ?_ secured
    intro current call next made inv secured move
    refine secured.move inv move ?_
    rintro outside rfl
    exact foreign ⟨outside, others_mem_calls made⟩

/--
Locked coins stay where they are.

If the SDK respects locks and slashes nobody, then in every state of every run, each vesting account
of a user holds at least what it locks. Conversions, packets, claims, the end of the airdrop, grants
and clawbacks leave it that much. Times and lengths have no bound here, and coins are not negative.
-/
theorem locked_coins_stay {data : GenesisState} {s : State} {blockHeight : ℤ}
    {origin reached : Chain} {actions : List Action} (fresh : Fresh app data s)
    (secured : Secured app s) (genesis : initGenesis app blockHeight data s = .ok origin)
    (run : Run (Guarded (KeepsLocks app) (Step app)) origin actions reached)
    {addr : Address} (user : addr ∈ app.users) {acc : Account}
    (found : reached.hooked.accounts addr = some acc) {va : Vesting.ClawbackVestingAccount}
    (vesting : acc.vesting = .clawback va) :
    ∃ locked, va.lockedCoins reached.hooked.blockTime = some locked ∧
      locked ≤ reached.hooked.bank.balances addr := by
  -- The genesis changes neither accounts nor balances.
  have started : Secured app origin.hooked := by
    obtain ⟨claimsParams, records, provision, init⟩ := fresh.initialised genesis
    rw [init.hooked]
    exact ⟨secured.wellFormed, secured.funded⟩
  obtain ⟨-, last⟩ := (fresh.inv genesis).run_keeps run
    (fun inv secured taken => Secured.step secured inv taken) started
  have stored : (vestingView.get reached.hooked).accounts addr = some (.clawback va) :=
    Option.map_eq_some_iff.mpr ⟨acc, found, vesting⟩
  have locks := last.lockedCoins_eq stored
  exact ⟨_, locks, (last.funded addr user va stored).covered _ locks⟩

section Evaluation

/-- Account two grants one of its coins to account twenty, for ten seconds. -/
def grantDay : List Action :=
  firstDay ++
    [.inBlock (.tx [.createClawbackVestingAccount ⟨"qqq", "qqqqqqqqqqqqqqqqqqqqq", 0, [],
      [⟨10, Coins.ofCoin (Erc20.createDenom (AddressString.lower.spell 9)) 1⟩], false⟩])]

theorem grantDay_own : ∀ action ∈ grantDay, action.Own plainApp := by
  intro action member
  rcases List.mem_append.mp member with among | last
  · exact firstDay_own action among
  · obtain rfl := List.mem_singleton.mp last
    intro msg named acc
    obtain rfl := List.mem_singleton.mp named
    cases acc <;> decide

/-- The clawback vesting account at an address. -/
def State.clawbackAt (s : State) (addr : Address) : Option Vesting.ClawbackVestingAccount :=
  match (s.accounts addr).map Account.vesting with
  | some (.clawback va) => some va
  | _ => none

/-- Account twenty holds the coin of its grant, which is locked. -/
theorem grantDay_locks :
    ∃ origin reached acc va locked, initGenesis plainApp 0 plainGenesis plainState = .ok origin ∧
      Run (Guarded (KeepsLocks plainApp) (Step plainApp)) origin grantDay reached ∧
      reached.hooked.accounts 20 = some acc ∧ acc.vesting = .clawback va ∧
      va.lockedCoins reached.hooked.blockTime = some locked ∧
      locked ≤ reached.hooked.bank.balances 20 := by
  have ran : (do
      let origin ← initGenesis plainApp 0 plainGenesis plainState
      let reached ← grantDay.foldlM (Action.attempt plainApp) origin
      .ok (reached.hooked.clawbackAt 20).isSome) = (.ok true : Result Bool) := by
    decide +kernel
  obtain ⟨origin, genesis, ran⟩ := bind_eq_ok.mp ran
  obtain ⟨reached, performed, ran⟩ := bind_eq_ok.mp ran
  have keeps : Run (Guarded (KeepsLocks plainApp) (Step plainApp)) origin grantDay reached := by
    apply (run_of_attempts grantDay_own performed).guarded
    intro action member _ outside same
    exact absurd (grantDay_own action member) (by rw [same]; exact id)
  obtain ⟨acc, found, va, vesting⟩ : ∃ acc, reached.hooked.accounts 20 = some acc ∧
      ∃ va, acc.vesting = .clawback va := by
    have held := Except.ok.inj ran
    unfold State.clawbackAt at held
    split at held
    · next va stored =>
      obtain ⟨acc, found, vesting⟩ := Option.map_eq_some_iff.mp stored
      exact ⟨acc, found, va, vesting⟩
    · cases held
  -- At genesis there is no vesting account.
  have secured : Secured plainApp plainState := by
    refine ⟨?_, ?_⟩
    · intro addr va stored
      cases stored
    · intro addr _ va stored
      cases stored
  have user : 20 ∈ plainApp.users := by
    refine ⟨?_, by simp [plainApp]⟩
    intro acc
    cases acc <;> decide
  obtain ⟨locked, locks, enough⟩ :=
    locked_coins_stay plainState_fresh secured genesis keeps user found vesting
  exact ⟨origin, reached, acc, va, locked, genesis, keeps, found, vesting, locks, enough⟩

end Evaluation

end Application

end Evmos
