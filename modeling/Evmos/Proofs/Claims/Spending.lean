import Evmos.Proofs.Claims.Cleanup
import Evmos.Sdk.Accounting

/-! Who pays in the claims module: the escrow, and at the end of the airdrop unused accounts. -/

namespace Evmos.Claims

open Library

variable {k : Keeper} {blockTime : Time} {s after : State} {l : Ledger}

/-- The escrow alone has paid, by the same parameters. -/
structure EscrowPays (k : Keeper) (before after : State) : Prop where
  params : after.params = before.params
  paid : BalancesChanged {k.moduleAddress} before.balances after.balances

theorem EscrowPays.refl (s : State) : EscrowPays k s s := ⟨rfl, .refl _⟩

theorem EscrowPays.trans {between : State} (first : EscrowPays k s between)
    (second : EscrowPays k between after) : EscrowPays k s after :=
  ⟨second.params.trans first.params, first.paid.trans second.paid⟩

theorem EscrowPays.setRecords (pays : EscrowPays k s after)
    (records : Store Address ClaimsRecord) : EscrowPays k s { after with records := records } :=
  ⟨pays.params, pays.paid⟩

theorem escrowPays_payout {recipient : Address} {amount : ℤ}
    (sent : s.sendCoinsFromModuleToAccount k recipient amount = .ok after) :
    EscrowPays k s after := by
  obtain ⟨-, -, covered, rfl⟩ := State.sendCoinsFromModuleToAccount_eq_ok.mp sent
  exact ⟨rfl, .of_moveCoins rfl covered⟩

theorem escrowPays_fund {amount : ℤ} (funded : s.fundCommunityPool k amount = .ok after) :
    EscrowPays k s after := by
  obtain ⟨-, covered, rfl⟩ := State.fundCommunityPool_eq_ok.mp funded
  exact ⟨rfl, .of_moveCoins rfl covered⟩

/-- A claim is paid by the escrow, also one that fails after its payout. -/
theorem escrowPays_claim (k : Keeper) (blockTime : Time) (s : State) (addr : Address)
    (cr : ClaimsRecord) (action : Action) :
    EscrowPays k s (claimCoinsForAction k blockTime s addr cr action).2 := by
  unfold claimCoinsForAction
  -- Every way out before the payment returns the state as it was.
  split
  · exact .refl _
  split
  · exact .refl _
  split
  · exact .refl _
  dsimp only
  split
  · exact .refl _
  split
  · exact .refl _
  next paid sent =>
  split
  · exact escrowPays_payout sent
  next funded done =>
  -- The remainder follows, unless there is none.
  split at done
  · obtain rfl := Except.ok.inj done
    exact (escrowPays_payout sent).setRecords _
  · exact ((escrowPays_payout sent).trans (escrowPays_fund done)).setRecords _

theorem escrowPays_hook (k : Keeper) (blockTime : Time) (s : State) (addr : Address)
    (action : Action) : EscrowPays k s (claimOnHook k blockTime s addr action) := by
  unfold claimOnHook
  cases s.records.get? addr with
  | none => exact .refl _
  | some cr => exact escrowPays_claim k blockTime s addr cr action

theorem escrowPays_merge (k : Keeper) (blockTime : Time) (s : State) (recipient : Address)
    (senderRecord recipientRecord : ClaimsRecord) :
    EscrowPays k s
      (mergeClaimsRecords k blockTime s recipient senderRecord recipientRecord).2 := by
  unfold mergeClaimsRecords
  dsimp only
  -- The merge fails before it pays, pays the user, or also pays the pool.
  split
  · exact .refl _
  split
  · exact .refl _
  split
  · exact .refl _
  next paid sent =>
  split
  · exact escrowPays_payout sent
  split
  · exact escrowPays_payout sent
  · next funded done => exact (escrowPays_payout sent).trans (escrowPays_fund done)

/-- The last part of a packet is paid for by the escrow. -/
theorem escrowPays_settle (k : Keeper) (blockTime : Time) (s : State) (sender recipient : Address)
    (fromEVMChain isTriggerAmt : Bool) :
    EscrowPays k s (settlePacket k blockTime s sender recipient fromEVMChain isTriggerAmt).2 := by
  unfold settlePacket
  dsimp only
  split
  · next senderRecord recipientRecord _ _ =>
    split
    · -- Both records become one.
      have paid := escrowPays_merge k blockTime s recipient senderRecord recipientRecord
      split
      · next merged => rwa [merged] at paid
      · next merged =>
        rw [merged] at paid
        exact paid.setRecords _
    split
    · exact escrowPays_claim k blockTime s recipient recipientRecord .ibcTransfer
    · exact .refl _
  · next senderRecord _ _ =>
    split
    · -- The record moves if something was paid for it.
      have paid := escrowPays_claim k blockTime s recipient senderRecord .ibcTransfer
      split
      · next claimed => rwa [claimed] at paid
      · next claimed =>
        rw [claimed] at paid
        split
        · exact paid
        · exact paid.setRecords _
    · exact .refl _
  · next recipientRecord _ _ =>
    exact escrowPays_claim k blockTime s recipient recipientRecord .ibcTransfer
  · exact .refl _

theorem escrowPays_recv (k : Keeper) (blockTime : Time) (s : State) (packet : Packet) :
    EscrowPays k s (onRecvPacket k blockTime s packet).2 := by
  unfold onRecvPacket
  dsimp only
  -- All but the last branch answer without writing.
  split
  · exact .refl _
  split
  · exact .refl _
  split
  · exact .refl _
  split
  · exact .refl _
  split
  · split
    · exact .refl _
    · exact .refl _
  split
  · exact .refl _
  split
  · exact .refl _
  · exact escrowPays_settle k blockTime s _ _ _ _

theorem escrowPays_acknowledge (k : Keeper) (blockTime : Time) (s : State) (packet : Packet)
    (ack : Ack) : EscrowPays k s (onAcknowledgementPacket k blockTime s packet ack).2 := by
  unfold onAcknowledgementPacket
  split
  · exact .refl _
  -- Only a success claims.
  cases ack with
  | undecodable => exact .refl _
  | error => exact .refl _
  | success =>
    dsimp only
    split
    · exact .refl _
    split
    · exact .refl _
    · exact escrowPays_claim k blockTime s _ _ _

theorem escrowPays_deliver (k : Keeper) (blockTime : Time) (s : State) (event : Event) :
    EscrowPays k s (event.deliver k blockTime s) := by
  -- What a callback did is kept if it succeeds.
  have kept : ∀ result : Result Unit × State, EscrowPays k s result.2 →
      EscrowPays k s (keepOnSuccess s result) := by
    rintro ⟨err | done, after⟩ pays
    · exact .refl _
    · exact pays
  cases event with
  | vote voterAddr => exact escrowPays_hook k blockTime s voterAddr _
  | delegation delAddr => exact escrowPays_hook k blockTime s delAddr _
  | evmTx fromAddr => exact escrowPays_hook k blockTime s fromAddr _
  | acknowledge packet ack => exact kept _ (escrowPays_acknowledge k blockTime s packet ack)
  | receive packet => exact kept _ (escrowPays_recv k blockTime s packet)

/-- An account that was never used, and locks nothing. -/
def Unused (l : Ledger) (addr : Address) : Prop :=
  ∃ acc, l.accounts addr = some acc ∧ acc.isVesting = false ∧ acc.sequence = 0

/-- The clawback of an account takes coins only from it, and only if it was never used. -/
theorem clawbackEmptyAccount_changed (k : Keeper) (denom : Denom) (l : Ledger) (addr : Address)
    {payers : Set Address} (payer : Unused l addr → addr ∈ payers) :
    BalancesChanged payers l.state.balances
      (clawbackEmptyAccount k denom l addr).state.balances := by
  unfold clawbackEmptyAccount
  cases found : l.accounts addr with
  | none => exact .refl _
  | some acc =>
    dsimp only
    split
    · exact .refl _
    next liquid =>
    split
    · exact .refl _
    next fresh =>
    split
    · exact .refl _
    · -- The account exists, is not vesting, and has never signed anything.
      have unused : Unused l addr := ⟨acc, found, by simpa using liquid, by simpa using fresh⟩
      have covered : Coins.ofCoin denom (l.state.balances addr denom) ≤ l.state.balances addr :=
        Coins.ofCoin_le_iff.mpr le_rfl
      rw [fundCommunityPoolFrom_ok covered]
      exact .of_moveCoins (payer unused) covered

/-- A clawback removes accounts, and creates or changes none. -/
theorem Unused.of_clawback {k : Keeper} {denom : Denom} {addr other : Address}
    (unused : Unused (clawbackEmptyAccount k denom l addr) other) : Unused l other := by
  obtain ⟨acc, found, facts⟩ := unused
  have drained := (clawbackEmptyAccount_clawed k denom l addr).drains.accounts other
  rcases drained with same | gone
  · exact ⟨acc, same ▸ found, facts⟩
  · rw [gone] at found
    cases found

/-- The sweep takes coins only from accounts on the list that were never used. -/
theorem sweep_changed (k : Keeper) (denom : Denom) {addresses : List Address} {payers : Set Address}
    (pays : ∀ addr ∈ addresses, Unused l addr → addr ∈ payers) :
    BalancesChanged payers l.state.balances
      (addresses.foldl (clawbackEmptyAccount k denom) l).state.balances := by
  -- An account that is unused after some clawbacks was so before them.
  induction addresses generalizing l with
  | nil => exact .refl _
  | cons addr addresses ih =>
    obtain ⟨first, rest⟩ := List.forall_mem_cons.mp pays
    have visited := clawbackEmptyAccount_changed k denom l addr first
    refine visited.trans (ih ?_)
    intro other listed unused
    exact rest other listed unused.of_clawback

/-- Who pays at the end of the airdrop: the escrow, and unused accounts with a record. -/
def Ledger.clawedBack (k : Keeper) (l : Ledger) : Set Address :=
  {addr | addr = k.moduleAddress ∨ l.state.records.get? addr ≠ none ∧ Unused l addr}

/-- The end of a block takes coins only from the escrow and from unused accounts with a record. -/
theorem endBlocker_changed {last : Ledger} (done : endBlocker k blockTime l = .ok last) :
    BalancesChanged (l.clawedBack k) l.state.balances last.state.balances := by
  unfold endBlocker at done
  dsimp only at done
  split at done
  · obtain rfl := Except.ok.inj done
    exact .refl _
  split at done
  · obtain rfl := Except.ok.inj done
    exact .refl _
  rw [endAirdrop_eq] at done
  obtain rfl := Except.ok.inj done
  -- The escrow pays first, which changes no account and no record.
  have escrow : BalancesChanged (l.clawedBack k) l.state.balances
      (l.fund k k.moduleAddress (l.state.balances k.moduleAddress)).state.balances :=
    .of_moveCoins (.inl rfl) le_rfl
  refine escrow.trans (sweep_changed k _ ?_)
  intro addr listed unused
  obtain ⟨entry, member, rfl⟩ := List.mem_map.mp listed
  refine .inr ⟨?_, unused⟩
  rw [Store.get?_eq_some.mpr member]
  exact Option.some_ne_none _

theorem sweep_records (k : Keeper) (denom : Denom) (addresses : List Address) (l : Ledger) :
    (addresses.foldl (clawbackEmptyAccount k denom) l).state.records = l.state.records := by
  induction addresses generalizing l with
  | nil => rfl
  | cons addr addresses ih =>
    rw [List.foldl_cons, ih]
    unfold clawbackEmptyAccount
    split
    · rfl
    dsimp only
    -- An account is ignored, pruned, empty of the coin, or pays it to the pool.
    split_ifs
    · rfl
    · rfl
    · rfl
    · have covered : Coins.ofCoin denom (l.state.balances addr denom) ≤ l.state.balances addr :=
        Coins.ofCoin_le_iff.mpr le_rfl
      rw [fundCommunityPoolFrom_ok covered]
      rfl

/-- The end of a block leaves everything as it is, or no record. -/
theorem endBlocker_cases {last : Ledger} (done : endBlocker k blockTime l = .ok last) :
    last = l ∨ last.state.records = .empty ∧
      last.state.params = { l.state.params with enableClaims := false } := by
  unfold endBlocker at done
  dsimp only at done
  split at done
  · exact .inl (Except.ok.inj done).symm
  split at done
  · exact .inl (Except.ok.inj done).symm
  rw [endAirdrop_eq] at done
  obtain rfl := Except.ok.inj done
  refine .inr ⟨Store.ext_get? ?_, rfl⟩
  intro addr
  -- An address that is not among the keys has no record to delete.
  show ((l.state.records.entries.map Prod.fst).foldl Store.delete _).get? addr = none
  rw [Store.get?_foldl_delete, Ledger.swept, sweep_records]
  split_ifs with listed
  · rfl
  · exact not_not.mp fun held => listed (mem_records_iff.mpr held)

theorem held_of_endBlocker {last : Ledger} {addr : Address}
    (done : endBlocker k blockTime l = .ok last) (held : last.state.records.get? addr ≠ none) :
    l.state.records.get? addr ≠ none := by
  rcases endBlocker_cases done with rfl | ⟨none, -⟩
  · exact held
  · rw [none] at held
    simp at held

end Evmos.Claims
