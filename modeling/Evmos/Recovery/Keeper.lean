import Evmos.Recovery.Types

/-! The recovery keeper: sending back what was transferred to an account without a supported key. -/

namespace Evmos.Recovery

/-- A transfer has debited exactly its coin from its sender, and nobody else. -/
structure Debited (transfer : Transfer) (bank after : Bank) : Prop where
  covered : Coins.ofCoin transfer.denom transfer.amount ≤ bank.balances transfer.sender
  sender : after.balances transfer.sender =
    bank.balances transfer.sender - Coins.ofCoin transfer.denom transfer.amount
  others : ∀ addr, addr ≠ transfer.sender → bank.balances addr ≤ after.balances addr

/-- The event of a recovery. -/
structure RecoveryEvent where
  sender : String
  receiver : String
  amount : String
  sourceChannel : String
  sourcePort : String
  destinationPort : String
  destinationChannel : String

/-- The state the recovery module works on. -/
structure State where
  params : Params
  claimsParams : Claims.Params
  bank : Bank
  getAccount : Address → Option Account
  -- `TransferKeeper.GetDenomTrace`, by hash.
  denomTraces : ℕ → Option DenomTrace
  -- Whether `ChannelKeeper.GetChannel` finds a channel of a port.
  hasChannel : String → String → Bool
  -- The transfers sent and the events emitted so far.
  transfers : List Transfer
  events : List RecoveryEvent

/-- What the keeper knows of the other modules and of the libraries. -/
structure Keeper where
  -- `BankKeeper.BlockedAddr`.
  blockedAddr : Address → Bool
  codec : Bech32Codec
  -- `ParseHexHash`, with the hash read as a number, or the text of its error.
  parseHexHash : String → Except String ℕ
  -- `PortIdentifierValidator` and `ChannelIdentifierValidator`.
  portIdentifierValidator : String → Except String Unit
  channelIdentifierValidator : String → Except String Unit
  -- `TransferKeeper.SendTransfer`, as far as balances are concerned.
  sendTransfer : State → Transfer → Result Bank
  sendTransfer_debited : ∀ {s transfer after},
    sendTransfer s transfer = .ok after → Debited transfer s.bank after

/-- The text that names the account whose tokens were to be recovered. -/
def failedToRecover (sender : String) : String :=
  "failed to recover IBC vouchers back to sender '" ++ sender ++
    "' in the corresponding IBC chain"

/-- `GetIBCDenomDestinationIdentifiers`. -/
def getIBCDenomDestinationIdentifiers (k : Keeper) (s : State) (denom : Denom) (sender : String) :
    Result (String × String) :=
  let ibcDenom := splitOnce '/' denom
  if ibcDenom.length < 2 then .error ⟨.errInvalidDenomForTransfer, denom⟩
  else do
    let hexHash ← index ibcDenom 1
    match k.parseHexHash hexHash with
    | .error text => .error ⟨.external, failedToRecover sender ++ ": " ++ text⟩
    | .ok hash =>
      match s.denomTraces hash with
      | none => .error ⟨.errTraceNotFound, failedToRecover sender⟩
      | some denomTrace =>
        let path := splitAll '/' denomTrace.path
        if path.length % 2 ≠ 0 then
          .error ⟨.errInvalidDenomForTransfer, "invalid denom (" ++ denomTrace.baseDenom ++
            ") trace path " ++ denomTrace.path⟩
        else do
          let destinationPort ← index path 0
          let destinationChannel ← index path 1
          if !s.hasChannel destinationPort destinationChannel then
            .error ⟨.errChannelNotFound, "port ID " ++ destinationPort ++ ", channel ID " ++
              destinationChannel⟩
          else
            match k.portIdentifierValidator destinationPort with
            | .error text =>
              .error ⟨.errInvalidID, "invalid port ID '" ++ destinationPort ++ "': " ++ text⟩
            | .ok () =>
              match k.channelIdentifierValidator destinationChannel with
              | .error text =>
                .error ⟨.errInvalidChannelIdentifier, "channel ID '" ++ destinationChannel ++
                  "': " ++ text⟩
              | .ok () => .ok (destinationPort, destinationChannel)

/-- `strings.HasPrefix(denom, "ibc/")`. -/
def isVoucher (denom : Denom) : Bool := "ibc/".toList.isPrefixOf denom.toList

/-- Whether a coin is sent back: every native one, and a voucher that came through the channel. -/
def isRecovered (k : Keeper) (s : State) (packet : Packet) (senderBech32 : String) (denom : Denom) :
    Result Bool :=
  if isVoucher denom then do
    let (destPort, destChannel) ← getIBCDenomDestinationIdentifiers k s denom senderBech32
    .ok (packet.destinationPort = destPort && packet.destinationChannel = destChannel)
  else .ok true

/-- `IterateAccountBalances`: the coins an account holds, in the order of their denominations. -/
def accountBalances (bank : Bank) (addr : Address) : List (Denom × ℕ) :=
  (bank.balances addr).toList

/-- The transfer that sends a coin back through the channel it came from. -/
def recoveryTransfer (blockTime : Time) (s : State) (packet : Packet) (recipient : Address)
    (senderBech32 : String) (denom : Denom) (amount : ℕ) : Transfer where
  sourcePort := packet.destinationPort
  sourceChannel := packet.destinationChannel
  denom := denom
  amount := amount
  sender := recipient
  receiver := senderBech32
  timeoutTimestamp := blockTime + s.params.packetTimeoutDuration

/-- The iteration of `OnRecvPacket`: the error that ended it, the state, and what was sent. -/
def recoverBalances (k : Keeper) (blockTime : Time) (packet : Packet) (recipient : Address)
    (senderBech32 : String) : List (Denom × ℕ) → State → Coins → Option Err × State × Coins
  | [], s, balances => (none, s, balances)
  | (denom, amount) :: rest, s, balances =>
    if amount = 0 then recoverBalances k blockTime packet recipient senderBech32 rest s balances
    else
      match isRecovered k s packet senderBech32 denom with
      | .error err => (some err, s, balances)
      | .ok false => recoverBalances k blockTime packet recipient senderBech32 rest s balances
      | .ok true =>
        let transfer := recoveryTransfer blockTime s packet recipient senderBech32 denom amount
        match k.sendTransfer s transfer with
        | .error err => (some err, s, balances)
        | .ok bank =>
          recoverBalances k blockTime packet recipient senderBech32 rest
            { s with bank := bank, transfers := s.transfers ++ [transfer] }
            (balances + Coins.ofCoin denom amount)

/-- The last part of `OnRecvPacket`: recovers the balance, and reports it. -/
def performRecovery (k : Keeper) (blockTime : Time) (s : State) (packet : Packet)
    (recipient : Address) (senderBech32 recipientBech32 : String) : Result Unit × State :=
  match recoverBalances k blockTime packet recipient senderBech32
      (accountBalances s.bank recipient) s 0 with
  | (some err, s, _) => (.error ⟨err.kind, failedToRecover senderBech32 ++ ": " ++ err.text⟩, s)
  | (none, s, balances) =>
    if balances.isZero then (.ok (), s)
    else
      (.ok (), { s with
        events := s.events ++ [⟨senderBech32, recipientBech32, balances.toString,
          packet.sourceChannel, packet.sourcePort, packet.destinationPort,
          packet.destinationChannel⟩] })

/--
`OnRecvPacket`.

Without an error it returns the original acknowledgement, and its error is the error
acknowledgement it returns.
-/
def onRecvPacket (k : Keeper) (blockTime : Time) (s : State) (packet : Packet) :
    Result Unit × State :=
  if !s.params.enableRecovery ||
      !s.claimsParams.isAuthorizedChannel packet.destinationChannel ||
      s.claimsParams.isEVMChannel packet.destinationChannel then (.ok (), s)
  else
    match getTransferSenderRecipient k.codec packet with
    | .error err => (.error err, s)
    | .ok (sender, recipient, senderBech32, recipientBech32) =>
      if k.blockedAddr sender || k.blockedAddr recipient then
        (.error ⟨.errBlockedAddress, "sender (" ++ senderBech32 ++ ") or recipient (" ++
          recipientBech32 ++
          ") address are in the deny list for sending and receiving transfers"⟩, s)
      else if sender ≠ recipient then (.ok (), s)
      else
        let account := s.getAccount recipient
        if account.any Account.isVesting then (.ok (), s)
        else if account.any Account.isModule then (.ok (), s)
        else if account.any fun acc => isSupportedKey acc.pubKey then (.ok (), s)
        else performRecovery k blockTime s packet recipient senderBech32 recipientBech32

end Evmos.Recovery
