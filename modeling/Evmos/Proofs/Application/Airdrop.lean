import Evmos.Proofs.Application.Blocks
import Evmos.Proofs.Claims.Solvency

/-! The escrow of the airdrop, on the whole chain and until the airdrop ends. -/

namespace Evmos

open Library

namespace Claims

variable {k : Keeper} {blockTime : Time} {s after : State}

/-- Every record has a whole amount for each of the four actions. -/
def Divisible (s : State) : Prop :=
  ∀ addr cr, s.records.get? addr = some cr → 4 ∣ cr.initialClaimableAmount

theorem Divisible.of_set (divisible : Divisible s) {addr other : Address} {cr found : ClaimsRecord}
    (whole : 4 ∣ cr.initialClaimableAmount)
    (stored : (s.records.set addr cr).get? other = some found) :
    4 ∣ found.initialClaimableAmount := by
  rcases Store.get?_set_eq_some.mp stored with ⟨-, rfl⟩ | ⟨-, before⟩
  · exact whole
  · exact divisible other found before

/-- Amounts are only added, so records stay divisible. -/
theorem Divisible.delivered {event : Event} (divisible : Divisible s) (solvent : Solvent k s)
    (delivery : Delivery k blockTime s event after) : Divisible after := by
  cases delivery with
  | same => exact divisible
  | short stored specified unclaimed less =>
    have enough := solvent.share_le stored specified unclaimed
    omega
  | @claimed _ _ owner marked action stored claimed =>
    intro addr cr found
    rw [claimed.records] at found
    refine divisible.of_set ?_ found
    rw [show (marked.markClaimed action).initialClaimableAmount = _ from
      initialClaimableAmount_markIf marked action true]
    exact divisible _ _ stored
  | @migrated _ paid sender recipient moved stored absent claimed =>
    intro addr cr found
    obtain ⟨-, found⟩ := Store.get?_delete_eq_some.mp found
    rw [claimed.records] at found
    refine divisible.of_set ?_ found
    rw [show (moved.markClaimed .ibcTransfer).initialClaimableAmount = _ from
      initialClaimableAmount_markIf moved .ibcTransfer true]
    exact divisible _ _ stored
  | @merged packet paid sender recipient senderRecord recipientRecord mergedCr merging merged =>
    intro addr cr found
    obtain ⟨-, found⟩ := Store.get?_delete_eq_some.mp found
    -- The payment, if there is one, leaves the records alone.
    have records : paid.records = s.records := by
      by_cases pays : PaysUser s.params blockTime senderRecord recipientRecord
      · exact (merged.paid pays).records
      · rw [merged.unpaid pays]
    rw [records] at found
    refine divisible.of_set ?_ found
    rw [merged.record]
    exact dvd_add (divisible _ _ merging.senderStored) (divisible _ _ merging.recipientStored)

theorem Divisible.fits (divisible : Divisible s) {packet : Packet} {sender recipient : Address}
    {senderRecord recipientRecord : ClaimsRecord}
    (merging : Merging k s packet sender recipient senderRecord recipientRecord) :
    Fits senderRecord recipientRecord := by
  have first := divisible _ _ merging.senderStored
  have second := divisible _ _ merging.recipientStored
  -- The amounts have no remainders that could add up.
  left
  omega

theorem Event.deliver_of_inactive (inactive : s.params.isClaimsActive blockTime = false)
    (event : Event) : event.deliver k blockTime s = s := by
  have hook : ∀ addr action, action ≠ .unspecified → claimOnHook k blockTime s addr action = s := by
    intro addr action specified
    unfold claimOnHook
    split
    · rfl
    · rw [claimCoinsForAction, if_neg specified, inactive]
      rfl
  -- All callbacks look at the window first.
  cases event with
  | vote voterAddr => exact hook _ _ (by decide)
  | delegation delAddr => exact hook _ _ (by decide)
  | evmTx fromAddr => exact hook _ _ (by decide)
  | acknowledge packet ack => simp [Event.deliver, onAcknowledgementPacket, inactive, keepOnSuccess]
  | receive packet => simp [Event.deliver, onRecvPacket, inactive, keepOnSuccess]

/-- What the escrow needs to cover the records for good. -/
structure Covered (k : Keeper) (s : State) : Prop where
  solvent : Solvent k s
  divisible : Divisible s

theorem Covered.deliver (covered : Covered k s) (event : Event) :
    Covered k (event.deliver k blockTime s) := by
  -- Outside of the window nothing happens.
  cases active : s.params.isClaimsActive blockTime with
  | false =>
    rw [Event.deliver_of_inactive active]
    exact covered
  | true =>
    have delivery := Event.deliver_delivery (k := k) active event
    refine ⟨covered.solvent.delivered delivery ?_, covered.divisible.delivered covered.solvent delivery⟩
    intro packet _ sender recipient senderRecord recipientRecord merging
    exact covered.divisible.fits merging

theorem Covered.congr (covered : Covered k s) {other : State} (records : other.records = s.records)
    (escrow : s.escrow k ≤ other.escrow k) : Covered k other := by
  refine ⟨?_, ?_⟩
  · unfold Solvent State.unclaimedTotal
    rw [records]
    exact le_trans covered.solvent escrow
  · unfold Divisible
    rw [records]
    exact covered.divisible

theorem Covered.of_empty (empty : s.records = .empty) : Covered k s := by
  refine ⟨?_, ?_⟩
  · unfold Solvent State.unclaimedTotal
    rw [empty, Store.total_empty]
    exact Nat.zero_le _
  · intro addr cr stored
    rw [empty] at stored
    cases stored

theorem initGenesis_claimsDenom {data : GenesisState} {start : State}
    (done : initGenesis k blockTime s data = .ok start) :
    start.params.claimsDenom = data.params.claimsDenom := by
  obtain ⟨⟨sum, records⟩, -, done⟩ := bind_eq_ok.mp done
  dsimp only at done
  -- Only the start of the airdrop may be replaced.
  split_ifs at done
  · obtain rfl := Except.ok.inj done
    rfl
  · obtain rfl := Except.ok.inj done
    rfl

theorem divisible_initRecords {bech32 : Bech32} {genesis : List ClaimsRecordAddress}
    {sum total : ℕ} {records loaded : Store Address ClaimsRecord}
    (done : initRecords bech32 sum records genesis = .ok (total, loaded))
    (whole : ∀ claimsRecord ∈ genesis, 4 ∣ claimsRecord.initialClaimableAmount)
    (before : ∀ addr cr, records.get? addr = some cr → 4 ∣ cr.initialClaimableAmount)
    (addr : Address) (cr : ClaimsRecord) (stored : loaded.get? addr = some cr) :
    4 ∣ cr.initialClaimableAmount := by
  induction genesis generalizing sum records with
  | nil =>
    obtain ⟨-, rfl⟩ := Prod.mk.inj (Except.ok.inj done)
    exact before addr cr stored
  | cons claimsRecord rest ih =>
    obtain ⟨owner, decoded, done⟩ := bind_eq_ok.mp done
    split_ifs at done
    refine ih done (fun other member => whole other (List.mem_cons_of_mem _ member)) ?_
    intro other found kept
    -- A stored record is that of the entry, or one of before.
    rcases Store.get?_set_eq_some.mp kept with ⟨-, rfl⟩ | ⟨-, kept⟩
    · exact whole claimsRecord List.mem_cons_self
    · exact before other found kept

end Claims

namespace Application

/-- What the escrow of the airdrop needs on the whole chain. -/
structure Escrowed (app : App) (denom : Denom) (s : State) : Prop where
  claimsDenom : s.claims.params.claimsDenom = denom
  covered : Claims.Covered app.claimsKeeper (claimsView.get s)

/-- Others do not change the coin of the airdrop. -/
def SameAirdrop (denom : Denom) (_ : Chain) (action : Action) : Prop :=
  ∀ outside, action = .inBlock (.others outside) → outside.claimsParams.claimsDenom = denom

section Calls

variable {app : App} {denom : Denom} {s after : State} {call : Call}

theorem claims_of_owner (owner : call.owner = some .claims) :
    (∃ event, call = .claims event) ∨ call = .endAirdrop := by
  cases call with
  | claims event => exact .inl ⟨event, rfl⟩
  | endAirdrop => exact .inr rfl
  | _ => cases owner

/-- A call of the claims module leaves the records covered. -/
theorem Escrowed.own (escrowed : Escrowed app denom s) (owner : call.owner = some .claims)
    (move : Move app s call after) : Escrowed app denom after := by
  rcases claims_of_owner owner with ⟨event, rfl⟩ | rfl
  · cases move with
    | claims event =>
      have params :=
        (Claims.escrowPays_deliver app.claimsKeeper s.blockTime (claimsView.get s) event).params
      refine ⟨(congrArg Claims.Params.claimsDenom params).trans escrowed.claimsDenom, ?_⟩
      rw [claimsView.get_modify]
      exact escrowed.covered.deliver event
  · cases move with
    | @endAirdrop last ended =>
      rcases Claims.endBlocker_cases ended with rfl | ⟨empty, params⟩
      · exact ⟨escrowed.claimsDenom, escrowed.covered⟩
      · -- All records are gone, and with them the escrow.
        refine ⟨?_, .of_empty empty⟩
        show last.state.params.claimsDenom = denom
        rw [params]
        exact escrowed.claimsDenom

/-- A call of another module leaves the records, and does not take from the escrow. -/
theorem Escrowed.other (escrowed : Escrowed app denom s) (owner : call.owner ≠ some .claims)
    (inv : Inv app s) (move : Move app s call after)
    (same : ∀ outside, call = .others outside → outside.claimsParams.claimsDenom = denom) :
    Escrowed app denom after := by
  have kept := (move.altered inv).kept _ (move.spares inv rfl owner (by simp))
  -- Only the claims module writes records, and others may set its parameters.
  have frame : after.claims.records = s.claims.records ∧
      after.claims.params.claimsDenom = denom := by
    cases move with
    | claims event => exact absurd rfl owner
    | endAirdrop ended => exact absurd rfl owner
    | others lawful => exact ⟨rfl, same _ rfl⟩
    | _ => exact ⟨rfl, escrowed.claimsDenom⟩
  refine ⟨frame.2, escrowed.covered.congr frame.1 ?_⟩
  show s.bank.balances (app.modules.address .claims) s.claims.params.claimsDenom ≤
    after.bank.balances (app.modules.address .claims) after.claims.params.claimsDenom
  rw [frame.2, escrowed.claimsDenom]
  exact kept denom

theorem Escrowed.step {before last : Chain} {action : Action}
    (escrowed : Escrowed app denom before.hooked) (inv : ChainInv app before)
    (taken : Guarded (SameAirdrop denom) (Step app) before action last) :
    Escrowed app denom last.hooked := by
  obtain ⟨same, taken⟩ := taken
  refine inv.keeps taken ?_ escrowed
  intro current call next made inv escrowed move
  -- A call of the claims module pays from the escrow, and any other one does not.
  by_cases owner : call.owner = some .claims
  · exact escrowed.own owner move
  · apply escrowed.other owner inv move
    rintro outside rfl
    exact same outside (others_mem_calls made)

end Calls

/--
The escrow of the airdrop covers every claim, on the whole chain.

If all amounts of the genesis are multiples of four, and others do not change the coin of the
airdrop, then whatever happens on the chain, the escrow holds what the open actions of all records
are worth, and each of them can be claimed.
-/
theorem airdrop_is_covered_on_chain {app : App} {data : GenesisState} {s : State} {blockHeight : ℤ}
    {origin reached : Chain} {actions : List Action} (fresh : Fresh app data s)
    (whole : ∀ claimsRecord ∈ data.claims.claimsRecords, 4 ∣ claimsRecord.initialClaimableAmount)
    (genesis : initGenesis app blockHeight data s = .ok origin)
    (run : Run (Guarded (SameAirdrop data.claims.params.claimsDenom) (Step app)) origin actions
      reached) :
    (claimsView.get reached.hooked).unclaimedTotal ≤
        reached.hooked.bank.balances (app.modules.address .claims)
          data.claims.params.claimsDenom ∧
      ∀ blockTime addr cr action, reached.hooked.claims.params.isClaimsActive blockTime = true →
        reached.hooked.claims.records.get? addr = some cr → action ≠ .unspecified →
        ∃ amount, (Claims.claimCoinsForAction app.claimsKeeper blockTime
          (claimsView.get reached.hooked) addr cr action).1 = .ok amount := by
  -- The genesis checks the escrow against the records.
  have started : Escrowed app data.claims.params.claimsDenom origin.hooked := by
    obtain ⟨claimsParams, records, provision, init⟩ := fresh.initialised genesis
    obtain ⟨sum, loaded⟩ := init.loaded
    refine ⟨?_, ?_, ?_⟩
    · exact Claims.initGenesis_claimsDenom init.claims
    · exact Claims.initGenesis_solvent fresh.claims init.claims
    · rw [init.hooked]
      exact Claims.divisible_initRecords loaded whole (by simp)
  obtain ⟨inv, escrowed⟩ := (fresh.inv genesis).run_keeps run
    (fun inv escrowed taken => Escrowed.step escrowed inv taken) started
  have solvent := escrowed.covered.solvent
  refine ⟨?_, ?_⟩
  · rw [← escrowed.claimsDenom]
    exact solvent
  · intro blockTime addr cr action active stored specified
    exact solvent.claims active stored specified (inv.state.records addr (by rw [stored]; simp))

/-- In the first two days account twelve claims two coins, and the escrow covers the other six. -/
theorem firstDays_covered :
    ∃ origin reached, initGenesis plainApp 0 plainGenesis plainState = .ok origin ∧
      Run (Guarded (SameAirdrop "aevmos") (Step plainApp)) origin firstDays reached ∧
      (claimsView.get reached.hooked).unclaimedTotal ≤
        reached.hooked.bank.balances (plainApp.modules.address .claims) "aevmos" := by
  obtain ⟨origin, reached, genesis, run, -⟩ := firstDays_run
  have same : Run (Guarded (SameAirdrop "aevmos") (Step plainApp)) origin firstDays reached := by
    apply run.guarded
    intro action member _ outside same
    exact absurd (firstDays_own action member) (by rw [same]; exact id)
  -- The airdrop of the genesis is eight coins.
  have whole : ∀ claimsRecord ∈ plainGenesis.claims.claimsRecords,
      4 ∣ claimsRecord.initialClaimableAmount := by
    intro claimsRecord member
    obtain rfl := List.mem_singleton.mp member
    decide
  exact ⟨origin, reached, genesis, same,
    (airdrop_is_covered_on_chain plainState_fresh whole genesis same).1⟩

end Application

end Evmos
