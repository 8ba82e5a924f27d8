import Evmos.Recovery.Keeper
import Evmos.Sdk.Accounting

/-! Who pays in the recovery module: the account that a packet recovers. -/

namespace Evmos.Recovery

variable {k : Keeper}

/-- What transfers do to the bank, beside the debit. -/
def TransfersVouchers (k : Keeper) : Prop :=
  ∀ {s transfer after}, k.sendTransfer s transfer = .ok after →
    s.bank.Changed {transfer.sender} {denom | isVoucher denom} after

theorem recoverBalances_changed (transfers : TransfersVouchers k) (blockTime : Time)
    (packet : Packet) (recipient : Address) (senderBech32 : String) (coins : List (Denom × ℕ))
    (s : State) (balances : Coins) :
    s.bank.Changed {recipient} {denom | isVoucher denom}
      (recoverBalances k blockTime packet recipient senderBech32 coins s balances).2.1.bank := by
  induction coins generalizing s balances with
  | nil => exact .refl _
  | cons coin coins ih =>
    obtain ⟨denom, amount⟩ := coin
    unfold recoverBalances
    split
    · exact ih s balances
    split
    · exact .refl _
    · exact ih s balances
    · -- The coin is sent, and the iteration goes on unless the transfer fails.
      dsimp only
      split
      · exact .refl _
      · next bank sent =>
        have first : s.bank.Changed {recipient} {denom | isVoucher denom} bank := transfers sent
        have rest := ih { s with
          bank := bank
          transfers := s.transfers ++
            [recoveryTransfer blockTime s packet recipient senderBech32 denom amount] }
          (balances + Coins.ofCoin denom amount)
        exact first.trans rest

/-- The account that a packet recovers: its sender is its recipient, and it has no supported key. -/
def recovers (k : Keeper) (s : State) (packet : Packet) : Set Address :=
  {addr | (∃ spellings, getTransferSenderRecipient k.codec packet = .ok (addr, addr, spellings)) ∧
    k.blockedAddr addr = false ∧
    s.params.enableRecovery = true ∧
    s.claimsParams.isAuthorizedChannel packet.destinationChannel = true ∧
    s.claimsParams.isEVMChannel packet.destinationChannel = false ∧
    (s.getAccount addr).any (fun acc =>
      acc.isVesting || acc.isModule || isSupportedKey acc.pubKey) = false}

/-- A packet that is not recovered changes nothing. -/
theorem onRecvPacket_recovers (k : Keeper) (blockTime : Time) (s : State) (packet : Packet) :
    (onRecvPacket k blockTime s packet).2 = s ∨
      ∃ addr ∈ recovers k s packet, ∃ senderBech32 recipientBech32,
        onRecvPacket k blockTime s packet =
          performRecovery k blockTime s packet addr senderBech32 recipientBech32 := by
  unfold onRecvPacket
  split
  · exact .inl rfl
  next active =>
  split
  · exact .inl rfl
  next sender recipient senderBech32 recipientBech32 decoded =>
  split
  · exact .inl rfl
  next unblocked =>
  split
  · exact .inl rfl
  next same =>
  dsimp only
  split
  · exact .inl rfl
  next notVesting =>
  split
  · exact .inl rfl
  next notModule =>
  split
  · exact .inl rfl
  next unsupported =>
  obtain rfl := not_not.mp same
  simp only [Bool.or_eq_true, Bool.not_eq_true', not_or, Bool.not_eq_true, Bool.not_eq_false]
    at active unblocked
  refine .inr ⟨sender, ⟨⟨_, decoded⟩, unblocked.1, active.1.1, active.1.2, active.2, ?_⟩, _, _, rfl⟩
  -- None of the three exceptions holds for the account, if there is one.
  cases found : s.getAccount sender with
  | none => rfl
  | some acc =>
    rw [found] at notVesting notModule unsupported
    simp only [Option.any_some, Bool.not_eq_true] at notVesting notModule unsupported
    simp only [Option.any_some, notVesting, notModule, unsupported, Bool.or_self]

/-- A packet is paid for by the account that it recovers. -/
theorem onRecvPacket_changed (transfers : TransfersVouchers k) (blockTime : Time) (s : State)
    (packet : Packet) :
    s.bank.Changed (recovers k s packet) {denom | isVoucher denom}
      (onRecvPacket k blockTime s packet).2.bank := by
  rcases onRecvPacket_recovers k blockTime s packet with same | ⟨addr, recovered, sender, recipient,
    performed⟩
  · rw [same]
    exact .refl _
  · rw [performed]
    have iterated := recoverBalances_changed transfers blockTime packet addr sender
      (accountBalances s.bank addr) s 0
    have paid := iterated.mono (Set.singleton_subset_iff.mpr recovered) subset_rfl
    -- The acknowledgement depends on the loop, and the coins are those it has left.
    unfold performRecovery
    split
    · next failed =>
      rw [failed] at paid
      exact paid
    · next done =>
      rw [done] at paid
      split
      · exact paid
      · exact paid

end Evmos.Recovery
