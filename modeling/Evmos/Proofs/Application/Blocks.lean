import Evmos.Proofs.Application.Genesis
import Evmos.Proofs.Erc20.Solvency
import Evmos.Proofs.Incentives.Distribution
import Evmos.Proofs.Inflation.Period
import Evmos.Proofs.Recovery.OnRecvPacket

/-! Blocks begin and end without a panic, whatever has happened on the chain. -/

namespace Evmos.Application

open Library

section Success

variable {app : App} {s : State}

theorem inflationKeeper_onChain (app : App) : app.inflationKeeper.OnChain app.modules :=
  ⟨rfl, rfl, rfl, rfl⟩

end Success

section Evaluation

/-- Module accounts with the addresses from a hundred on. -/
def hundredModules : ModuleAddresses where
  address acc := ModuleAccount.maccPerms.idxOf acc + 100
  injective := by
    intro acc other same
    cases acc <;> cases other <;> first | rfl | cases same

/-- Coins that account one, the escrow, releases to an account. -/
def release (bank : Bank) (packet : Packet) (receiver : PacketData → String) : Result Bank :=
  match packet.data with
  | none => .error ⟨.errUnknownRequest, "cannot unmarshal ICS-20 transfer packet data"⟩
  | some data =>
    bank.sendCoins 1 (receiver data).length (Coins.ofCoin data.denom data.amount.length)

theorem release_changed {bank after : Bank} {packet : Packet} {receiver : PacketData → String}
    (released : release bank packet receiver = .ok after) :
    bank.Changed {1} {denom | Recovery.isVoucher denom} after := by
  unfold release at released
  split at released
  · cases released
  · exact .of_sendCoins rfl released

/-- What was sent is released again, unless its transfer was successful. -/
def settle (bank : Bank) (packet : Packet) : Claims.Ack → Result Bank
  | .success => .ok bank
  | _ => release bank packet PacketData.sender

theorem settle_changed {bank after : Bank} {packet : Packet} {ack : Claims.Ack}
    (settled : settle bank packet ack = .ok after) :
    bank.Changed {1} {denom | Recovery.isVoucher denom} after := by
  -- A success leaves the coins in escrow, and all else refunds them.
  cases ack with
  | success =>
    obtain rfl := Except.ok.inj settled
    exact .refl _
  | _ => exact release_changed settled

theorem escrow_changed {s : Recovery.State} {transfer : Recovery.Transfer} {after : Bank}
    (transferred : Recovery.escrowKeeper.sendTransfer s transfer = .ok after) :
    s.bank.Changed {transfer.sender} {denom | Recovery.isVoucher denom} after := by
  simp only [Recovery.escrowKeeper] at transferred
  split_ifs at transferred
  exact .of_sendCoins rfl transferred

theorem letters_decode_empty : Feesplit.letters.decode "" = none := rfl

theorem hundredModules_erc20 : (EthAddress.ofTopic 108).bytes = hundredModules.address .erc20 := by
  decide

theorem ofTopic_ne_zero : EthAddress.ofTopic 108 ≠ 0 := by decide

theorem hundredModules_ne_escrow (acc : ModuleAccount) :
    hundredModules.address acc ∉ ({1} : Set Address) := by
  cases acc <;> decide

/-- An application for evaluating the model, whose transfers go to and from account one. -/
def plainApp : App where
  modules := hundredModules
  chainID := "evmos_9000-1"
  bondDenom := "aevmos"
  evmDenom := "aevmos"
  bech32 := Feesplit.letters
  decode_empty := letters_decode_empty
  codec := ⟨fun text _ => .ok text.length, fun _ => .ok ()⟩
  format := .lower
  addressBytes := .plain
  erc20Address := .ofTopic 108
  erc20Address_bytes := hundredModules_erc20
  erc20Address_ne_zero := ofTopic_ne_zero
  sum := Erc20.textSum
  sum_injective := Erc20.textSum_injective
  createAddress creator nonce := creator + .ofTopic (nonce + 1)
  program _ _ _ _ := .reverted "execution reverted"
  isInteger _ := true
  validateMetadata _ := .ok ()
  validators := ⟨fun _ => true, fun _ => true, fun _ _ => .ok ()⟩
  parseHexHash text := .ok text.length
  portIdentifierValidator _ := .ok ()
  channelIdentifierValidator _ := .ok ()
  escrowAddresses := {1}
  escrow_not_module := hundredModules_ne_escrow
  sendTransfer := Recovery.escrowKeeper.sendTransfer
  sendTransfer_debited := Recovery.escrowKeeper.sendTransfer_debited
  sendTransfer_changed := escrow_changed
  receiveTransfer bank packet := release bank packet PacketData.receiver
  receiveTransfer_changed := release_changed
  acknowledgeTransfer := settle
  acknowledgeTransfer_changed := settle_changed

/-- Parameters of all modules, and one record of eight coins for account twelve. -/
def plainGenesis : GenesisState where
  claims :=
    { params :=
        { enableClaims := true
          airdropStartTime := 0
          durationUntilDecay := 100
          durationOfDecay := 100
          claimsDenom := "aevmos"
          authorizedChannels := ["channel-0"]
          evmChannels := [] }
      claimsRecords := [⟨"qqqqqqqqqqqqq", 8, [false, false, false, false]⟩] }
  inflation := Inflation.twoEpochs
  erc20 := ⟨⟨true, true⟩, []⟩
  incentives := ⟨Incentives.unlimited, [], []⟩
  epochs := [Inflation.tenUnits]
  recovery := ⟨true, 0⟩
  feesplit := ⟨⟨true, Dec.ofIntWithPrec 50 2⟩, []⟩

/-- What the SDK has set up: the escrow of the claims, and ten atoms that were sent through IBC. -/
def plainState : State where
  blockTime := 0
  accounts _ := none
  bank :=
    { balances := fun addr =>
        if addr = 109 then Coins.ofCoin "aevmos" 8
        else if addr = 1 then Coins.ofCoin "atom" 10 else 0
      supply := Coins.ofCoin "aevmos" 8 + Coins.ofCoin "atom" 10 }
  denomMetadata := .empty
  isSendEnabled _ := true
  communityPool := 0
  totalBondedTokens := 0
  delegatorBonded _ := 0
  delegatorUnbonding _ := 0
  evm := ⟨fun _ => none, 0⟩
  denomTraces _ := none
  hasChannel _ _ := true
  claims := ⟨plainGenesis.claims.params, .empty⟩
  erc20 := ⟨⟨true, true⟩, .empty, .empty, .empty⟩
  incentives := ⟨Incentives.unlimited, .empty, .empty, .empty⟩
  feesplit := ⟨⟨true, 0⟩, .empty, .empty, .empty, []⟩
  inflation := ⟨Inflation.oneToken true, 0, "", 0, 0, none, []⟩
  recovery := ⟨⟨true, 0⟩, [], []⟩

theorem plainState_fresh : Fresh plainApp plainGenesis plainState where
  claims := rfl
  erc20 :=
    { tokenPairs := rfl
      erc20Map := rfl
      denomMap := rfl
      unminted := by
        intro address
        change (Coins.ofCoin "aevmos" 8 + Coins.ofCoin "atom" 10) _ = 0
        rw [DFinsupp.add_apply, Coins.ofCoin_apply, Coins.ofCoin_apply,
          if_neg (Erc20.createDenom_ne (by decide) _), if_neg (Erc20.createDenom_ne (by decide) _)]
      unapproved := by
        intro _ _ _ _ found
        cases found }
  incentives := rfl
  gasMeters := rfl
  allocationMeters := rfl
  feeSplits := rfl
  deployerMap := rfl
  withdrawerMap := rfl
  noPairs := rfl
  noIncentives := rfl
  noGasMeters := rfl
  noFeeSplits := rfl
  inflation := rfl
  mintDenom := by
    rintro ⟨contract, same⟩
    exact Erc20.createDenom_ne (by decide) _ same.symm
  claimants := by
    intro claimsRecord member addr decoded
    obtain rfl := List.mem_singleton.mp member
    obtain rfl := Option.some.inj decoded
    rfl
  placed := by
    intro addr va found
    cases found

theorem plainState_balanced (denom : Denom) : plainState.bank.Balanced denom := by
  -- The escrow of the airdrop and account one hold all that there is.
  refine ⟨{109, 1}, ?_, ?_⟩
  · intro addr outside
    simp only [Finset.mem_insert, Finset.mem_singleton, not_or] at outside
    simp only [plainState, if_neg outside.1, if_neg outside.2, DFinsupp.zero_apply]
  · simp [plainState]

/-- In a first block a contract is registered, tokens and coins are converted, and account twelve
votes. -/
def firstDay : List Action :=
  [.inBlock (.ethereumTx ⟨2, none,
      [.createStandard 9 2 ⟨"Nine", "NINE", 0⟩, .call 2 9 (.mint 2 7)], 0, 0⟩),
    .inBlock (.proposal (.registerERC20 9)),
    .inBlock (.ethereumTx ⟨2, some 9, [.call 2 9 (.token (.transfer (.ofTopic 108) 3))], 0, 0⟩),
    .inBlock (.vote 12),
    .inBlock (.tx [.convertCoin ⟨⟨Erc20.createDenom (AddressString.lower.spell 9), 1⟩,
      "0x0000000000000000000000000000000000000002", "qqq"⟩])]

/-- The first block and the next one, between which an epoch ends. -/
def firstDays : List Action :=
  .beginBlock 5 1 :: firstDay ++ [.beginBlock 20 2, .inBlock .endBlock]

/-- Nobody but users signs, and nobody else acts. -/
def Action.Own (app : App) : Action → Prop
  | .beginBlock _ _ => True
  | .inBlock (.tx msgs) => ∀ msg ∈ msgs, ∀ acc, msg.signer app ≠ some (app.modules.address acc)
  | .inBlock (.others _) => False
  | .inBlock _ => True

/-- Performs an action, unless it would turn back the time. -/
def Action.attempt (app : App) (chain : Chain) (action : Action) : Result Chain :=
  match action with
  | .beginBlock blockTime _ =>
    if chain.hooked.blockTime ≤ blockTime then action.perform app chain
    else .error ⟨.errInvalidRequest, "time went back"⟩
  | .inBlock _ => action.perform app chain

theorem run_of_attempts {app : App} {origin reached : Chain} {actions : List Action}
    (own : ∀ action ∈ actions, action.Own app)
    (done : actions.foldlM (Action.attempt app) origin = .ok reached) :
    Run (Step app) origin actions reached := by
  refine (Run.of_foldlM done).mono ?_
  intro before action after ⟨member, attempted⟩
  have acts := own action member
  cases action with
  | beginBlock blockTime blockHeight =>
    simp only [Action.attempt] at attempted
    split_ifs at attempted with later
    exact ⟨later, attempted⟩
  | inBlock event =>
    refine ⟨?_, attempted⟩
    -- Senders sign by assumption, and others do not act at all.
    cases event with
    | tx msgs => exact acts
    | others outside => exact acts.elim
    | _ => trivial

theorem firstDay_own : ∀ action ∈ firstDay, action.Own plainApp := by
  intro action member
  simp only [firstDay, List.mem_cons, List.not_mem_nil, or_false] at member
  rcases member with rfl | rfl | rfl | rfl | rfl
  all_goals first
    | trivial
    | intro msg named acc
      obtain rfl := List.mem_singleton.mp named
      cases acc <;> decide

theorem firstDays_own : ∀ action ∈ firstDays, action.Own plainApp := by
  intro action member
  simp only [firstDays, List.cons_append, List.mem_cons, List.mem_append, List.not_mem_nil,
    or_false] at member
  rcases member with rfl | among | rfl | rfl
  · trivial
  · exact firstDay_own action among
  · trivial
  · trivial

theorem firstDay_run :
    ∃ origin reached, initGenesis plainApp 0 plainGenesis plainState = .ok origin ∧
      Run (Step plainApp) origin firstDay reached := by
  -- The block is executed once, without the states in between.
  have ran : (do
      let origin ← initGenesis plainApp 0 plainGenesis plainState
      let _ ← firstDay.foldlM (Action.attempt plainApp) origin
      .ok ()) = (.ok () : Result Unit) := by
    decide +kernel
  obtain ⟨origin, genesis, ran⟩ := bind_eq_ok.mp ran
  obtain ⟨reached, performed, -⟩ := bind_eq_ok.mp ran
  exact ⟨origin, reached, genesis, run_of_attempts firstDay_own performed⟩

/-- The first two days are a run, in which half a token is minted and three tokens are converted. -/
theorem firstDays_run :
    ∃ origin reached, initGenesis plainApp 0 plainGenesis plainState = .ok origin ∧
      Run (Step plainApp) origin firstDays reached ∧
      reached.hooked.bank.supply "aevmos" = 500000000000000008 ∧
      reached.hooked.bank.supply (Erc20.createDenom (AddressString.lower.spell 9)) = 2 ∧
      reached.hooked.bank.balances 12 "aevmos" = 2 := by
  -- Both days are executed once, and only the amounts are read.
  have ran : (do
      let origin ← initGenesis plainApp 0 plainGenesis plainState
      let reached ← firstDays.foldlM (Action.attempt plainApp) origin
      let bank := reached.hooked.bank
      .ok (bank.supply "aevmos", bank.supply (Erc20.createDenom (AddressString.lower.spell 9)),
        bank.balances 12 "aevmos")) = (.ok (500000000000000008, 2, 2) : Result (ℕ × ℕ × ℕ)) := by
    decide +kernel
  obtain ⟨origin, genesis, ran⟩ := bind_eq_ok.mp ran
  obtain ⟨reached, performed, ran⟩ := bind_eq_ok.mp ran
  have values := Prod.mk.inj (Except.ok.inj ran)
  obtain ⟨coins, paid⟩ := Prod.mk.inj values.2
  exact ⟨origin, reached, genesis, run_of_attempts firstDays_own performed, values.1, coins, paid⟩

end Evaluation

end Evmos.Application
