import Evmos.Proofs.Application.Moves
import Evmos.Proofs.Recovery.OnRecvPacket

/-! What the transfer stack does with a packet: its middlewares do not interfere with each other. -/

namespace Evmos

open Library

namespace Claims

/-- A packet of an account to itself claims nothing, unless it comes from an EVM chain. -/
theorem onRecvPacket_same {k : Keeper} {blockTime : Time} {s after : State} {packet : Packet}
    {addr : Address} {spellings : String × String}
    (decoded : getTransferSenderRecipient k packet = .ok (addr, addr, spellings))
    (cosmos : s.params.isEVMChannel packet.destinationChannel = false)
    (done : onRecvPacket k blockTime s packet = (.ok (), after)) : after = s := by
  unfold onRecvPacket at done
  obtain ⟨senderBech32, recipientBech32⟩ := spellings
  simp only [decoded, cosmos, decide_true, Bool.not_false, Bool.and_self, if_true] at done
  -- Every way to the end returns the state as it was.
  split_ifs at done <;> exact (Prod.mk.inj done).2.symm

end Claims

namespace Application

variable (app : App)

/-- Both middlewares read the same accounts from a packet. -/
theorem getTransferSenderRecipient_claims {packet : Packet}
    {parties : Address × Address × String × String}
    (decoded : Recovery.getTransferSenderRecipient app.codec packet.recovery = .ok parties) :
    Claims.getTransferSenderRecipient app.claimsKeeper packet.claims = .ok parties := by
  unfold Recovery.getTransferSenderRecipient at decoded
  unfold Claims.getTransferSenderRecipient
  cases found : packet.data with
  | none => simp [Packet.recovery, found] at decoded
  | some data =>
    simp only [Packet.recovery, Packet.claims, found, Option.map_some] at decoded ⊢
    obtain ⟨sender, sends, decoded⟩ := bind_eq_ok.mp decoded
    obtain ⟨recipient, receives, decoded⟩ := bind_eq_ok.mp decoded
    -- What the one reads without an error is what the other one reads at all.
    have sender_eq : app.claimsKeeper.evmosAddress data.sender = some sender := by
      simp only [App.claimsKeeper, wrap_eq_ok.mp sends, Except.toOption]
    have recipient_eq : app.claimsKeeper.evmosAddress data.receiver = some recipient := by
      simp only [App.claimsKeeper, wrap_eq_ok.mp receives, Except.toOption]
    rw [sender_eq, recipient_eq]
    exact decoded

/--
A packet has at most one effect beside the transfer.

If the stack accepts a packet, the transfer was received. Then all that is left to see is what the
claims module did, if anything, or the recovery of the coins of an account that sent to itself.
Otherwise nothing remains.
-/
theorem packet_claims_or_recovers (s : State) (packet : Packet) :
    recvPacket app s packet = s ∨
      ∃ bank, app.receiveTransfer s.bank packet = .ok bank ∧
        ((∃ claimed, Claims.onRecvPacket app.claimsKeeper s.blockTime
              (claimsView.get { s with bank := bank }) packet.claims = (.ok (), claimed) ∧
            recvPacket app s packet = claimsView.set claimed { s with bank := bank }) ∨
          ∃ addr senderBech32 recovered,
            addr ∈ Recovery.recovers app.recoveryKeeper s.recoveryView packet.recovery ∧
            Recovery.Recovered app.recoveryKeeper s.blockTime
              ({ s with bank := bank } : State).recoveryView packet.recovery addr senderBech32
              recovered ∧
            recvPacket app s packet = ({ s with bank := bank } : State).setRecovery recovered) := by
  rcases recvPacket_cases app s packet with same | ⟨bank, claimed, recovered, received, result⟩
  · exact .inl same
  refine .inr ⟨bank, received.transferred, ?_⟩
  have kept := (Claims.escrowPays_recv app.claimsKeeper s.blockTime
    (claimsView.get { s with bank := bank }) packet.claims).params
  rw [received.claims] at kept
  rcases Recovery.onRecvPacket_recovers app.recoveryKeeper s.blockTime
    (claimsView.set claimed { s with bank := bank }).recoveryView packet.recovery with
    idle | ⟨addr, recovers, senderBech32, recipientBech32, performed⟩
  · -- The recovery has nothing to do, so what the claims module left is left.
    rw [received.recovery] at idle
    obtain rfl : recovered = _ := idle
    exact .inl ⟨claimed, received.claims, result⟩
  · -- An account has sent to itself, with which the claims module has nothing to do.
    have same : claimed = claimsView.get { s with bank := bank } := by
      obtain ⟨⟨spellings, decoded⟩, -, -, -, cosmos, -⟩ := recovers
      refine Claims.onRecvPacket_same (getTransferSenderRecipient_claims app decoded) ?_
        received.claims
      rw [← kept]
      exact cosmos
    subst same
    rw [received.recovery] at performed
    obtain ⟨done, -⟩ := Recovery.performRecovery_recovered performed.symm
    exact .inr ⟨addr, senderBech32, recovered, recovers, done, result⟩

end Application

end Evmos
