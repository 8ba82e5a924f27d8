import Evmos.Recovery.Keeper

/-! A recovery sends back exactly the right coins, and a second one sends nothing more. -/

namespace Evmos.Recovery

/-- A voucher whose stored trace begins with the hop through which the packet came. -/
def CameThrough (k : Keeper) (s : State) (packet : Packet) (denom : Denom) : Prop :=
  ∃ hexHash hash denomTrace rest, denom.toList = "ibc/".toList ++ hexHash ∧
    k.parseHexHash (String.ofList hexHash) = .ok hash ∧ s.denomTraces hash = some denomTrace ∧
    splitAll '/' denomTrace.path = packet.destinationPort :: packet.destinationChannel :: rest

/-- The coins to be sent back: native ones, and vouchers of the source chain. -/
def GoesBack (k : Keeper) (s : State) (packet : Packet) (denom : Denom) : Prop :=
  isVoucher denom = false ∨ CameThrough k s packet denom

section Denom

variable {k : Keeper} {s : State} {packet : Packet} {denom : Denom} {sender : String}

theorem index_of_lt {α : Type} {items : List α} {position : ℕ} (within : position < items.length) :
    index items position = .ok items[position] := by
  simp [index, List.getElem?_eq_getElem within, orPanic]

theorem index_eq_ok {α : Type} {items : List α} {position : ℕ} {item : α} :
    index items position = .ok item ↔ items[position]? = some item := by
  rw [index, orPanic_eq_ok]

theorem splitAll_ne_nil (separator : Char) (text : String) : splitAll separator text ≠ [] := by
  simp [splitAll, List.splitOn]

theorem eq_cons_cons {α : Type} {items : List α} {first second : α}
    (atFirst : items[0]? = some first) (atSecond : items[1]? = some second) :
    items = first :: second :: items.drop 2 := by
  -- A slice with elements at the first two positions begins with them.
  match items with
  | [] => cases atFirst
  | [_] => cases atSecond
  | _ :: _ :: _ =>
    obtain rfl := Option.some.inj atFirst
    obtain rfl := Option.some.inj atSecond
    rfl

theorem kind_ne_panic {α : Type} {kind : ErrKind} {text : String} {err : Err}
    (failed : (.error ⟨kind, text⟩ : Result α) = .error err) (other : kind ≠ .panic) :
    err.kind ≠ .panic := by
  obtain rfl := Except.error.inj failed
  exact other

/-- Neither the denomination nor the trace is indexed out of range. -/
theorem getIBCDenomDestinationIdentifiers_ne_panic {err : Err}
    (failed : getIBCDenomDestinationIdentifiers k s denom sender = .error err) :
    err.kind ≠ .panic := by
  unfold getIBCDenomDestinationIdentifiers at failed
  dsimp only at failed
  split_ifs at failed with short
  · exact kind_ne_panic failed nofun
  · rw [index_of_lt (show 1 < (splitOnce '/' denom).length by omega)] at failed
    dsimp only [bind, Except.bind] at failed
    split at failed
    · exact kind_ne_panic failed nofun
    next hash _ =>
      split at failed
      · exact kind_ne_panic failed nofun
      next denomTrace _ =>
        split_ifs at failed with odd
        · exact kind_ne_panic failed nofun
        · -- An even number of parts that is not zero is at least two.
          have some := List.length_pos_iff.mpr (splitAll_ne_nil '/' denomTrace.path)
          have two : 1 < (splitAll '/' denomTrace.path).length := by omega
          rw [index_of_lt some, index_of_lt two] at failed
          dsimp only at failed
          split_ifs at failed
          · exact kind_ne_panic failed nofun
          · split at failed
            · exact kind_ne_panic failed nofun
            · split at failed
              · exact kind_ne_panic failed nofun
              · cases failed

/-- The identifiers of a denomination are the first two parts of its stored trace. -/
theorem getIBCDenomDestinationIdentifiers_ok {port channel : String}
    (found : getIBCDenomDestinationIdentifiers k s denom sender = .ok (port, channel)) :
    ∃ hexHash hash denomTrace rest, (splitOnce '/' denom)[1]? = some hexHash ∧
      k.parseHexHash hexHash = .ok hash ∧ s.denomTraces hash = some denomTrace ∧
      splitAll '/' denomTrace.path = port :: channel :: rest := by
  -- Every other branch returns an error, so all lookups have found something.
  unfold getIBCDenomDestinationIdentifiers at found
  dsimp only at found
  split_ifs at found
  obtain ⟨hexHash, second, found⟩ := bind_eq_ok.mp found
  split at found
  · cases found
  next hash parsed =>
    split at found
    · cases found
    next denomTrace stored =>
      split_ifs at found
      obtain ⟨destinationPort, first, found⟩ := bind_eq_ok.mp found
      obtain ⟨destinationChannel, next, found⟩ := bind_eq_ok.mp found
      split_ifs at found
      split at found
      · cases found
      split at found
      · cases found
      obtain ⟨rfl, rfl⟩ := Prod.mk.inj (Except.ok.inj found)
      refine ⟨hexHash, hash, denomTrace, (splitAll '/' denomTrace.path).drop 2,
        index_eq_ok.mp second, parsed, stored, ?_⟩
      exact eq_cons_cons (index_eq_ok.mp first) (index_eq_ok.mp next)

theorem splitOnce_voucher {hexHash : List Char}
    (voucher : denom.toList = "ibc/".toList ++ hexHash) :
    (splitOnce '/' denom)[1]? = some (String.ofList hexHash) := by
  simp [splitOnce, voucher]

theorem isVoucher_iff :
    isVoucher denom = true ↔ ∃ hexHash, denom.toList = "ibc/".toList ++ hexHash := by
  rw [isVoucher, List.isPrefixOf_iff_prefix]
  exact ⟨fun ⟨rest, same⟩ => ⟨rest, same.symm⟩, fun ⟨rest, same⟩ => ⟨rest, same.symm⟩⟩

theorem isRecovered_ok {sent : Bool} (decided : isRecovered k s packet sender denom = .ok sent) :
    sent = true ↔ GoesBack k s packet denom := by
  unfold isRecovered at decided
  cases voucher : isVoucher denom with
  | false =>
    rw [voucher] at decided
    obtain rfl := Except.ok.inj decided
    exact iff_of_true rfl (.inl voucher)
  | true =>
    rw [voucher] at decided
    obtain ⟨⟨destPort, destChannel⟩, found, decided⟩ := bind_eq_ok.mp decided
    obtain rfl := Except.ok.inj decided
    obtain ⟨hexHash, hash, denomTrace, rest, second, parsed, stored, path⟩ :=
      getIBCDenomDestinationIdentifiers_ok found
    obtain ⟨digits, spelled⟩ := isVoucher_iff.mp voucher
    obtain rfl := Option.some.inj (second.symm.trans (splitOnce_voucher spelled))
    simp only [Bool.and_eq_true, decide_eq_true_eq]
    constructor
    · rintro ⟨rfl, rfl⟩
      exact .inr ⟨digits, hash, denomTrace, rest, spelled, parsed, stored, path⟩
    · rintro (native | ⟨others, otherHash, otherTrace, otherRest, spelledToo, parsedToo, storedToo,
        pathToo⟩)
      · rw [voucher] at native
        cases native
      · -- The hash and the trace of a denomination are the only ones.
        obtain rfl : digits = others := List.append_cancel_left (spelled.symm.trans spelledToo)
        obtain rfl := Except.ok.inj (parsed.symm.trans parsedToo)
        obtain rfl := Option.some.inj (stored.symm.trans storedToo)
        rw [path] at pathToo
        simp only [List.cons.injEq] at pathToo
        exact ⟨pathToo.1.symm, pathToo.2.1.symm⟩

end Denom

section Iteration

variable {k : Keeper} {blockTime : Time} {packet : Packet} {recipient : Address} {sender : String}
  {s after : State} {balances total : Coins}

/-- The coins of a list that are sent back. -/
def sentBack (k : Keeper) (s : State) (packet : Packet) (sender : String)
    (coins : List (Denom × ℕ)) : List (Denom × ℕ) :=
  coins.filter fun coin => isRecovered k s packet sender coin.1 = .ok true

/-- What an iteration over coins has done that was not stopped by an error. -/
structure Iterated (k : Keeper) (blockTime : Time) (packet : Packet) (recipient : Address)
    (sender : String) (coins : List (Denom × ℕ)) (s after : State) : Prop where
  frame : after = { s with
    bank := after.bank
    transfers := s.transfers ++ (sentBack k s packet sender coins).map fun coin =>
      recoveryTransfer blockTime s packet recipient sender coin.1 coin.2 }
  decided : ∀ coin ∈ coins, ∃ sent, isRecovered k s packet sender coin.1 = .ok sent
  spent : ∀ coin ∈ sentBack k s packet sender coins,
    after.bank.balances recipient coin.1 = 0
  kept : ∀ denom, (∀ coin ∈ sentBack k s packet sender coins, coin.1 ≠ denom) →
    after.bank.balances recipient denom = s.bank.balances recipient denom
  others : ∀ addr, addr ≠ recipient → s.bank.balances addr ≤ after.bank.balances addr

theorem Iterated.skip {coin : Denom × ℕ} {coins : List (Denom × ℕ)}
    (decided : isRecovered k s packet sender coin.1 = .ok false)
    (rest : Iterated k blockTime packet recipient sender coins s after) :
    Iterated k blockTime packet recipient sender (coin :: coins) s after := by
  -- The coin is not in the list of those sent back, which stays the same.
  have same : sentBack k s packet sender (coin :: coins) = sentBack k s packet sender coins := by
    refine List.filter_cons_of_neg ?_
    rw [decided]
    decide
  refine ⟨?_, ?_, ?_, ?_, rest.others⟩
  · rw [same]
    exact rest.frame
  · exact List.forall_mem_cons.mpr ⟨⟨false, decided⟩, rest.decided⟩
  · rw [same]
    exact rest.spent
  · rw [same]
    exact rest.kept

/-- A coin that is sent back is debited in full, and the iteration goes on without it. -/
theorem Iterated.send {coin : Denom × ℕ} {coins : List (Denom × ℕ)} {bank : Bank}
    (decided : isRecovered k s packet sender coin.1 = .ok true)
    (held : s.bank.balances recipient coin.1 = coin.2)
    (fresh : coin.1 ∉ coins.map Prod.fst)
    (debited : Debited (recoveryTransfer blockTime s packet recipient sender coin.1 coin.2)
      s.bank bank)
    (rest : Iterated k blockTime packet recipient sender coins
      { s with
        bank := bank
        transfers := s.transfers ++
          [recoveryTransfer blockTime s packet recipient sender coin.1 coin.2] } after) :
    Iterated k blockTime packet recipient sender (coin :: coins) s after := by
  have more : sentBack k s packet sender (coin :: coins) =
      coin :: sentBack k s packet sender coins := by
    refine List.filter_cons_of_pos ?_
    rw [decided]
    decide
  -- No later coin is of the same denomination.
  have later : ∀ other ∈ sentBack k s packet sender coins, other.1 ≠ coin.1 := by
    intro other member same
    exact fresh (List.mem_map.mpr ⟨other, List.mem_of_mem_filter member, same⟩)
  have debit : ∀ denom, bank.balances recipient denom =
      s.bank.balances recipient denom - Coins.ofCoin coin.1 coin.2 denom := by
    intro denom
    have taken := DFunLike.congr_fun debited.sender denom
    rwa [DFinsupp.tsub_apply] at taken
  refine ⟨?_, ?_, ?_, ?_, ?_⟩
  · rw [more]
    refine rest.frame.trans ?_
    simp only [List.map_cons, List.append_assoc, List.singleton_append]
    rfl
  · exact List.forall_mem_cons.mpr ⟨⟨true, decided⟩, rest.decided⟩
  · rw [more]
    refine List.forall_mem_cons.mpr ⟨?_, rest.spent⟩
    rw [rest.kept coin.1 later]
    show bank.balances recipient coin.1 = 0
    rw [debit, held, Coins.amountOf_ofCoin_self, Nat.sub_self]
  · intro denom unsent
    rw [more] at unsent
    obtain ⟨apart, unsent⟩ := List.forall_mem_cons.mp unsent
    rw [rest.kept denom unsent]
    show bank.balances recipient denom = _
    rw [debit, Coins.ofCoin_apply, if_neg (Ne.symm apart), Nat.sub_zero]
  · intro addr elsewhere
    exact (debited.others addr elsewhere).trans (rest.others addr elsewhere)

/-- An iteration that no error ends has sent back every coin that goes back. -/
theorem recoverBalances_iterated (coins : List (Denom × ℕ))
    (nodup : (coins.map Prod.fst).Nodup) (positive : ∀ coin ∈ coins, coin.2 ≠ 0)
    (held : ∀ coin ∈ coins, s.bank.balances recipient coin.1 = coin.2)
    (done : recoverBalances k blockTime packet recipient sender coins s balances =
      (none, after, total)) :
    Iterated k blockTime packet recipient sender coins s after := by
  induction coins generalizing s balances with
  | nil =>
    obtain ⟨-, rest⟩ := Prod.mk.inj done
    obtain ⟨rfl, -⟩ := Prod.mk.inj rest
    exact ⟨by simp [sentBack], by simp, by simp [sentBack], by simp, fun _ _ => le_rfl⟩
  | cons coin coins ih =>
    obtain ⟨denom, amount⟩ := coin
    obtain ⟨fresh, nodup⟩ := List.nodup_cons.mp nodup
    obtain ⟨nonzero, positive⟩ := List.forall_mem_cons.mp positive
    obtain ⟨own, held⟩ := List.forall_mem_cons.mp held
    rw [recoverBalances, if_neg nonzero] at done
    cases decided : isRecovered k s packet sender denom with
    | error err =>
      rw [decided] at done
      cases done
    | ok sent =>
      rw [decided] at done
      cases sent with
      | false => exact (ih nodup positive held done).skip decided
      | true =>
        dsimp only at done
        cases transferred : k.sendTransfer s
            (recoveryTransfer blockTime s packet recipient sender denom amount) with
        | error err =>
          rw [transferred] at done
          cases done
        | ok bank =>
          rw [transferred] at done
          have debited := k.sendTransfer_debited transferred
          refine (ih nodup positive ?_ done).send decided own fresh debited
          -- The debit leaves the coins of all other denominations.
          intro other member
          have apart : other.1 ≠ denom := fun same =>
            fresh (List.mem_map.mpr ⟨other, member, same⟩)
          have taken := DFunLike.congr_fun debited.sender other.1
          rw [DFinsupp.tsub_apply] at taken
          refine taken.trans ?_
          show s.bank.balances recipient other.1 - Coins.ofCoin denom amount other.1 = other.2
          rw [Coins.ofCoin_apply, if_neg apart, Nat.sub_zero, held other member]

/-- An iteration over coins that are not sent back does nothing. -/
theorem recoverBalances_idle (coins : List (Denom × ℕ))
    (idle : ∀ coin ∈ coins, isRecovered k s packet sender coin.1 = .ok false) :
    recoverBalances k blockTime packet recipient sender coins s balances = (none, s, balances) := by
  induction coins with
  | nil => rfl
  | cons coin coins ih =>
    obtain ⟨first, idle⟩ := List.forall_mem_cons.mp idle
    -- The coin is passed over, whether its amount is zero or not.
    rw [recoverBalances, first]
    dsimp only
    rw [ih idle, ite_self]

end Iteration

section Balances

variable {bank : Bank} {addr : Address} {denom : Denom} {amount : ℕ}

theorem mem_accountBalances : (denom, amount) ∈ accountBalances bank addr ↔
    bank.balances addr denom = amount ∧ amount ≠ 0 :=
  Coins.mem_toList

theorem nodup_accountBalances (bank : Bank) (addr : Address) :
    ((accountBalances bank addr).map Prod.fst).Nodup :=
  Coins.nodup_toList (bank.balances addr)

end Balances

/-- The cases in which nothing is to be recovered. -/
inductive Excluded (k : Keeper) (s : State) (packet : Packet) : Prop where
  | disabled (off : s.params.enableRecovery = false)
  | unauthorized (off : s.claimsParams.isAuthorizedChannel packet.destinationChannel = false)
  | evmChannel (evm : s.claimsParams.isEVMChannel packet.destinationChannel = true)
  /-- The sender and the recipient are different accounts. -/
  | different {sender recipient : Address} {names : String × String}
      (decoded : getTransferSenderRecipient k.codec packet = .ok (sender, recipient, names))
      (apart : sender ≠ recipient)
  /-- The account is not one whose funds are stuck. -/
  | account {sender recipient : Address} {names : String × String} {acc : Account}
      (decoded : getTransferSenderRecipient k.codec packet = .ok (sender, recipient, names))
      (stored : s.getAccount recipient = some acc)
      (served : acc.isVesting = true ∨ acc.isModule = true ∨ isSupportedKey acc.pubKey = true)

/-- The right coins of an account have been sent back to the sender of a packet. -/
structure Recovered (k : Keeper) (blockTime : Time) (s : State) (packet : Packet)
    (recipient : Address) (senderBech32 : String) (after : State) : Prop where
  -- One transfer for each balance that goes back, of all of it.
  sent : ∃ sent, after.transfers = s.transfers ++ sent ∧ (sent.map Transfer.denom).Nodup ∧
    ∀ transfer, transfer ∈ sent ↔ ∃ denom, GoesBack k s packet denom ∧
      0 < s.bank.balances recipient denom ∧
      transfer = recoveryTransfer blockTime s packet recipient senderBech32 denom
        (s.bank.balances recipient denom)
  returned : ∀ denom, GoesBack k s packet denom → after.bank.balances recipient denom = 0
  untouched : ∀ denom, ¬GoesBack k s packet denom →
    after.bank.balances recipient denom = s.bank.balances recipient denom
  others : ∀ addr, addr ≠ recipient → s.bank.balances addr ≤ after.bank.balances addr

section Packet

variable {k : Keeper} {blockTime : Time} {packet : Packet} {s after : State} {recipient : Address}
  {senderBech32 recipientBech32 : String}

theorem account_of_served {account : Option Account}
    (served : account.any Account.isVesting = true ∨ account.any Account.isModule = true ∨
      account.any (fun acc => isSupportedKey acc.pubKey) = true) :
    ∃ acc, account = some acc ∧
      (acc.isVesting = true ∨ acc.isModule = true ∨ isSupportedKey acc.pubKey = true) := by
  -- Without an account all three checks answer no.
  cases account with
  | none => rcases served with absent | absent | absent <;> cases absent
  | some acc => exact ⟨acc, rfl, served⟩

/-- Either the packet is not to be recovered, or the recovery is performed, at any time. -/
theorem onRecvPacket_cases (done : onRecvPacket k blockTime s packet = (.ok (), after)) :
    (after = s ∧ Excluded k s packet ∧
      ∀ later, onRecvPacket k later s packet = (.ok (), s)) ∨
    ∃ recipient senderBech32 recipientBech32,
      getTransferSenderRecipient k.codec packet =
        .ok (recipient, recipient, senderBech32, recipientBech32) ∧
      performRecovery k blockTime s packet recipient senderBech32 recipientBech32 =
        (.ok (), after) ∧
      ∀ later other, other.params = s.params → other.claimsParams = s.claimsParams →
        other.getAccount = s.getAccount →
        onRecvPacket k later other packet =
          performRecovery k later other packet recipient senderBech32 recipientBech32 := by
  unfold onRecvPacket at done ⊢
  -- The checks come in the order of the source, and none of them reads the bank.
  split at done
  next refused =>
    obtain ⟨-, rfl⟩ := Prod.mk.inj done
    refine .inl ⟨rfl, ?_, fun later => if_pos refused⟩
    simp only [Bool.or_eq_true, Bool.not_eq_true'] at refused
    rcases refused with (off | off) | evm
    · exact .disabled off
    · exact .unauthorized off
    · exact .evmChannel evm
  next opened =>
    cases decoded : getTransferSenderRecipient k.codec packet with
    | error err =>
      rw [decoded] at done
      cases done
    | ok parties =>
      obtain ⟨sender, recipient, senderBech32, recipientBech32⟩ := parties
      simp only [decoded] at done
      split at done
      · cases done
      next free =>
        split at done
        next apart =>
          obtain ⟨-, rfl⟩ := Prod.mk.inj done
          refine .inl ⟨rfl, .different decoded apart, fun later => ?_⟩
          simp only [if_neg opened, if_neg free, if_pos apart]
        next same =>
          obtain rfl := not_not.mp same
          simp only [← ite_or] at done
          split at done
          next served =>
            obtain ⟨-, rfl⟩ := Prod.mk.inj done
            obtain ⟨acc, stored, kind⟩ := account_of_served served
            refine .inl ⟨rfl, .account decoded stored kind, fun later => ?_⟩
            simp only [if_neg opened, if_neg free, if_neg same, ← ite_or, if_pos served]
          next unserved =>
            refine .inr ⟨sender, senderBech32, recipientBech32, rfl, done, ?_⟩
            intro later other sameParams sameClaims sameAccounts
            simp only [sameParams, sameClaims, sameAccounts, if_neg opened, if_neg free,
              if_neg same, ← ite_or, if_neg unserved]

/-- The texts that are decoded are those of the packet. -/
theorem data_of_getTransferSenderRecipient {codec : Bech32Codec} {sender : Address}
    (decoded : getTransferSenderRecipient codec packet =
      .ok (sender, recipient, senderBech32, recipientBech32)) :
    packet.data = some ⟨senderBech32, recipientBech32⟩ := by
  unfold getTransferSenderRecipient at decoded
  split at decoded
  · cases decoded
  next data unmarshalled =>
    -- The texts are returned next to the addresses they decode to.
    obtain ⟨_, -, decoded⟩ := bind_eq_ok.mp decoded
    obtain ⟨_, -, decoded⟩ := bind_eq_ok.mp decoded
    cases decoded
    exact unmarshalled

theorem isRecovered_congr {other : State} (sameTraces : other.denomTraces = s.denomTraces)
    (sameChannels : other.hasChannel = s.hasChannel) (sender : String) (denom : Denom) :
    isRecovered k other packet sender denom = isRecovered k s packet sender denom := by
  simp only [isRecovered, getIBCDenomDestinationIdentifiers, sameTraces, sameChannels]

/-- A recovery without an error is an uninterrupted iteration, and perhaps an event. -/
theorem performRecovery_eq_ok
    (done : performRecovery k blockTime s packet recipient senderBech32 recipientBech32 =
      (.ok (), after)) :
    ∃ iterated, Iterated k blockTime packet recipient senderBech32
        (accountBalances s.bank recipient) s iterated ∧
      after = { iterated with events := after.events } := by
  unfold performRecovery at done
  split at done
  · cases done
  next iterated balances run =>
    refine ⟨iterated, recoverBalances_iterated _ (nodup_accountBalances _ _) ?_ ?_ run, ?_⟩
    · rintro ⟨denom, amount⟩ listed
      exact (mem_accountBalances.mp listed).2
    · rintro ⟨denom, amount⟩ listed
      exact (mem_accountBalances.mp listed).1
    · -- The event changes no other part of the state.
      split at done
      all_goals
        obtain ⟨-, rfl⟩ := Prod.mk.inj done
        rfl

/-- A recovery that finds nothing to be sent back changes nothing. -/
theorem performRecovery_idle
    (idle : ∀ coin ∈ accountBalances s.bank recipient,
      isRecovered k s packet senderBech32 coin.1 = .ok false) :
    performRecovery k blockTime s packet recipient senderBech32 recipientBech32 = (.ok (), s) := by
  unfold performRecovery
  -- Nothing is added to the balances to be reported, so there is no event either.
  rw [recoverBalances_idle _ idle]
  exact if_pos ((Coins.isZero_iff 0).mpr rfl)

section Whole

variable {recipient : Address} {sender : String}

/-- Of all balances those are sent back that go back. -/
theorem Iterated.mem_sentBack (run : Iterated k blockTime packet recipient sender
    (accountBalances s.bank recipient) s after) {denom : Denom} {amount : ℕ} :
    (denom, amount) ∈ sentBack k s packet sender (accountBalances s.bank recipient) ↔
      GoesBack k s packet denom ∧ s.bank.balances recipient denom = amount ∧ amount ≠ 0 := by
  rw [sentBack, List.mem_filter, mem_accountBalances, decide_eq_true_eq, and_comm]
  refine and_congr_left fun held => ?_
  -- The iteration was not interrupted, so a decision was made for each balance.
  obtain ⟨sent, decided⟩ := run.decided _ (mem_accountBalances.mpr held)
  rw [← isRecovered_ok decided, decided, Except.ok.injEq]

/-- An iteration over all balances of the recipient sends back the right coins. -/
theorem Iterated.recovered (run : Iterated k blockTime packet recipient sender
    (accountBalances s.bank recipient) s after) :
    Recovered k blockTime s packet recipient sender after := by
  refine ⟨⟨_, congrArg State.transfers run.frame, ?_, ?_⟩, ?_, ?_, run.others⟩
  · -- The denominations of the transfers are some of those of the balances.
    rw [List.map_map]
    exact (nodup_accountBalances s.bank recipient).sublist (List.filter_sublist.map Prod.fst)
  · intro transfer
    rw [List.mem_map]
    constructor
    · rintro ⟨⟨denom, amount⟩, member, rfl⟩
      obtain ⟨back, rfl, nonzero⟩ := run.mem_sentBack.mp member
      exact ⟨denom, back, Nat.pos_of_ne_zero nonzero, rfl⟩
    · rintro ⟨denom, back, positive, rfl⟩
      exact ⟨(denom, _), run.mem_sentBack.mpr ⟨back, rfl, positive.ne'⟩, rfl⟩
  · intro denom back
    by_cases held : s.bank.balances recipient denom = 0
    · -- Nothing was there to be sent.
      rw [run.kept denom, held]
      rintro ⟨other, amount⟩ member rfl
      obtain ⟨-, rfl, nonzero⟩ := run.mem_sentBack.mp member
      exact nonzero held
    · exact run.spent (denom, _) (run.mem_sentBack.mpr ⟨back, rfl, held⟩)
  · intro denom stays
    refine run.kept denom ?_
    rintro ⟨other, amount⟩ member rfl
    exact stays (run.mem_sentBack.mp member).1

/-- None of the balances an iteration leaves goes back. -/
theorem Iterated.idle (run : Iterated k blockTime packet recipient sender
    (accountBalances s.bank recipient) s after) :
    ∀ coin ∈ accountBalances after.bank recipient,
      isRecovered k after packet sender coin.1 = .ok false := by
  rintro ⟨denom, amount⟩ listed
  obtain ⟨left, nonzero⟩ := mem_accountBalances.mp listed
  have stays : ¬GoesBack k s packet denom := by
    intro back
    rw [run.recovered.returned denom back] at left
    exact nonzero left.symm
  -- What is left was there before, so that its trace was looked up without an error.
  have held : (denom, amount) ∈ accountBalances s.bank recipient := by
    rw [mem_accountBalances, ← run.recovered.untouched denom stays]
    exact ⟨left, nonzero⟩
  obtain ⟨sent, decided⟩ := run.decided _ held
  rw [← isRecovered_ok decided, Bool.not_eq_true] at stays
  have sameTraces : after.denomTraces = s.denomTraces := by rw [run.frame]
  have sameChannels : after.hasChannel = s.hasChannel := by rw [run.frame]
  rw [isRecovered_congr sameTraces sameChannels, decided, stays]

end Whole

/-- A recovery without an error sends the right coins back, and a second one sends no more. -/
theorem performRecovery_recovered
    (done : performRecovery k blockTime s packet recipient senderBech32 recipientBech32 =
      (.ok (), after)) :
    Recovered k blockTime s packet recipient senderBech32 after ∧
      after.params = s.params ∧ after.claimsParams = s.claimsParams ∧
      after.getAccount = s.getAccount ∧
      ∀ later, performRecovery k later after packet recipient senderBech32 recipientBech32 =
        (.ok (), after) := by
  obtain ⟨iterated, run, reported⟩ := performRecovery_eq_ok done
  have sameParams : iterated.params = s.params := by rw [run.frame]
  have sameClaims : iterated.claimsParams = s.claimsParams := by rw [run.frame]
  have sameAccounts : iterated.getAccount = s.getAccount := by rw [run.frame]
  rw [reported]
  refine ⟨⟨run.recovered.sent, run.recovered.returned, run.recovered.untouched,
    run.recovered.others⟩, sameParams, sameClaims, sameAccounts, fun later => ?_⟩
  -- The event is not read, so that the second iteration decides as after the first.
  refine performRecovery_idle fun coin listed => ?_
  exact (isRecovered_congr rfl rfl senderBech32 coin.1).trans (run.idle coin listed)

end Packet

/--
A recovery sends back exactly the right coins.

If a packet is answered with the original acknowledgement, it was either not to be recovered and
has changed nothing, or the native coins of its recipient and the vouchers that came through the
channel were sent back in full. The same packet then finds nothing more to send. The lookup of a
voucher never panics.
-/
theorem recovery_sends_back (k : Keeper) (blockTime : Time) (s : State) (packet : Packet) :
    (∀ after, onRecvPacket k blockTime s packet = (.ok (), after) →
      ((after = s ∧ Excluded k s packet) ∨
        ∃ recipient senderBech32 recipientBech32,
          getTransferSenderRecipient k.codec packet =
            .ok (recipient, recipient, senderBech32, recipientBech32) ∧
          packet.data = some ⟨senderBech32, recipientBech32⟩ ∧
          Recovered k blockTime s packet recipient senderBech32 after) ∧
      ∀ later, onRecvPacket k later after packet = (.ok (), after)) ∧
    ∀ denom sender err, getIBCDenomDestinationIdentifiers k s denom sender = .error err →
      err.kind ≠ .panic := by
  refine ⟨fun after done => ?_, fun denom sender err => getIBCDenomDestinationIdentifiers_ne_panic⟩
  -- In both cases the second run takes the same path as the first.
  rcases onRecvPacket_cases done with ⟨rfl, excluded, again⟩ |
    ⟨recipient, senderBech32, recipientBech32, decoded, performed, guarded⟩
  · exact ⟨.inl ⟨rfl, excluded⟩, again⟩
  · obtain ⟨recovered, sameParams, sameClaims, sameAccounts, again⟩ :=
      performRecovery_recovered performed
    refine ⟨.inr ⟨recipient, senderBech32, recipientBech32, decoded,
      data_of_getTransferSenderRecipient decoded, recovered⟩, fun later => ?_⟩
    rw [guarded later after sameParams sameClaims sameAccounts]
    exact again later

/-- A keeper for evaluation, which escrows with account one and reads texts by their length. -/
def escrowKeeper : Keeper where
  blockedAddr := fun addr => addr = 1
  codec := ⟨fun text _ => .ok text.length, fun _ => .ok ()⟩
  parseHexHash := fun text => .ok text.length
  portIdentifierValidator := fun _ => .ok ()
  channelIdentifierValidator := fun _ => .ok ()
  sendTransfer := fun s transfer =>
    if transfer.sender = 1 then .error ⟨.errUnauthorized, "the escrow account"⟩
    else s.bank.sendCoins transfer.sender 1 (Coins.ofCoin transfer.denom transfer.amount)
  sendTransfer_debited := by
    intro s transfer after transferred
    split_ifs at transferred with escrow
    obtain ⟨covered, rfl⟩ := Bank.sendCoins_eq_ok.mp transferred
    refine ⟨covered, moveCoins_from _ escrow _, fun addr elsewhere => ?_⟩
    by_cases escrowed : addr = 1
    · subst escrowed
      exact le_self_add.trans_eq (moveCoins_to _ escrow _).symm
    · exact (moveCoins_of_ne _ elsewhere escrowed _).ge

/-- Account ten holds a native coin and two vouchers, and there is no account of its own. -/
def threeCoins : State where
  params := ⟨true, 4⟩
  claimsParams := ⟨true, 0, 0, 0, "aevmos", ["channel-0"], []⟩
  bank := ⟨fun addr => if addr = 10 then
    Coins.ofCoin "aevmos" 5 + Coins.ofCoin "ibc/AA" 3 + Coins.ofCoin "ibc/AAA" 2 else 0, 0⟩
  getAccount := fun _ => none
  -- The hash is the number of digits, and the number of a channel is by two less.
  denomTraces := fun hash => some ⟨"transfer/channel-" ++ toString (hash - 2), "atom"⟩
  hasChannel := fun _ _ => true
  transfers := []
  events := []

/-- A packet of an account to itself, which came through the channel of the first voucher. -/
def toItself : Packet :=
  ⟨"transfer", "channel-5", "transfer", "channel-0", some ⟨"cosmos1abc", "evmos1abcd"⟩⟩

theorem accountBalances_threeCoins : accountBalances threeCoins.bank 10 =
    [("aevmos", 5), ("ibc/AA", 3), ("ibc/AAA", 2)] := by
  -- Sorting does not evaluate, so the support is given as a sorted list.
  have support : (threeCoins.bank.balances 10).support =
      ["aevmos", "ibc/AA", "ibc/AAA"].toFinset := by decide +kernel
  rw [accountBalances, Coins.toList, support, (List.toFinset_sort (· ≤ ·) (by decide)).mpr (by decide)]
  decide +kernel

theorem onRecvPacket_threeCoins : onRecvPacket escrowKeeper 0 threeCoins toItself =
    performRecovery escrowKeeper 0 threeCoins toItself 10 "cosmos1abc" "evmos1abcd" := by
  -- The channel is open, and the packet comes from the account itself.
  have decoded : getTransferSenderRecipient escrowKeeper.codec toItself =
      .ok (10, 10, "cosmos1abc", "evmos1abcd") := by decide +kernel
  unfold onRecvPacket
  rw [if_neg (by decide), decoded]
  rfl

/-- The native coin and the voucher of the channel are sent back, once. -/
theorem three_coins_two_sent :
    (onRecvPacket escrowKeeper 0 threeCoins toItself).1 = .ok () ∧
      (onRecvPacket escrowKeeper 0 threeCoins toItself).2.transfers.map Transfer.denom =
        ["aevmos", "ibc/AA"] ∧
      ∀ later, onRecvPacket escrowKeeper later
        (onRecvPacket escrowKeeper 0 threeCoins toItself).2 toItself =
          (.ok (), (onRecvPacket escrowKeeper 0 threeCoins toItself).2) := by
  have done : (onRecvPacket escrowKeeper 0 threeCoins toItself).1 = .ok () := by
    rw [onRecvPacket_threeCoins, performRecovery, accountBalances_threeCoins]
    decide +kernel
  -- The recovery succeeds, so the theorem speaks about the state it leaves.
  refine ⟨done, ?_, ?_⟩
  · rw [onRecvPacket_threeCoins, performRecovery, accountBalances_threeCoins]
    decide +kernel
  · exact ((recovery_sends_back escrowKeeper 0 threeCoins toItself).1 _ (Prod.ext done rfl)).2

end Evmos.Recovery
