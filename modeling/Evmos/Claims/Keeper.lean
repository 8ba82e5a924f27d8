import Evmos.Claims.Types

/-! The claims keeper: paying for actions, merging records, hooks, IBC callbacks, and genesis. -/

namespace Evmos.Claims

open Library

/-- What the keeper knows of the other modules. -/
structure Keeper where
  -- The claims module account, which holds the escrow.
  moduleAddress : Address
  -- The distribution module account, which holds the community pool.
  distributionAddress : Address
  -- `BankKeeper.BlockedAddr`.
  blockedAddr : Address → Bool
  bech32 : Bech32
  -- `GetEvmosAddressFromBech32`, undefined where it returns an error.
  evmosAddress : String → Option Address
  -- Whether `sdk.NewIntFromString` accepts a string.
  isInteger : String → Bool
  -- The application blocks the claims module account.
  moduleBlocked : blockedAddr moduleAddress = true
  moduleDistinct : moduleAddress ≠ distributionAddress

/-- The state the claims module works on. -/
structure State where
  params : Params
  -- The claims records, by address.
  records : Store Address ClaimsRecord
  balances : Balances
  -- The coins the distribution module records for the community pool.
  communityPool : Coins

/-- The coins in escrow, in the denomination of the claims. -/
def State.escrow (k : Keeper) (s : State) : ℕ :=
  s.balances k.moduleAddress s.params.claimsDenom

/-- A single coin as transfers take it, which must be positive. -/
def singleCoin (denom : Denom) (amount : ℤ) : Result Coins :=
  if 0 < amount then .ok (Coins.ofCoin denom amount.toNat)
  else .error ⟨.errInvalidCoins, toString amount ++ denom⟩

/-- `SendCoinsFromModuleToAccount` of one coin out of the escrow. -/
def State.sendCoinsFromModuleToAccount (k : Keeper) (s : State) (recipient : Address)
    (amount : ℤ) : Result State :=
  if k.blockedAddr recipient then
    .error ⟨.errUnauthorized, k.bech32.encode recipient ++ " is not allowed to receive funds"⟩
  else do
    let coins ← singleCoin s.params.claimsDenom amount
    let balances ← sendCoins s.balances k.moduleAddress recipient coins
    .ok { s with balances := balances }

/-- `FundCommunityPool` with one coin out of the escrow. -/
def State.fundCommunityPool (k : Keeper) (s : State) (amount : ℤ) : Result State := do
  let coins ← singleCoin s.params.claimsDenom amount
  let balances ← sendCoins s.balances k.moduleAddress k.distributionAddress coins
  .ok { s with balances := balances, communityPool := s.communityPool + coins }

/--
`ClaimCoinsForAction`: pays for an action and marks it as claimed.

The state is returned on an error too, since a hook goes on after one and keeps what was done.
-/
def claimCoinsForAction (k : Keeper) (blockTime : Time) (s : State) (addr : Address)
    (claimsRecord : ClaimsRecord) (action : Action) : Result ℤ × State :=
  if action = .unspecified then
    (.error ⟨.errInvalidAction, toString action.number⟩, s)
  -- Before the start time, after the end time, or with claims disabled, do nothing.
  else if !s.params.isClaimsActive blockTime then (.ok 0, s)
  else if claimsRecord.hasClaimedAction action then (.ok 0, s)
  else
    let (claimableAmount, remainderAmount) :=
      getClaimableAmountForAction s.params blockTime claimsRecord action
    if claimableAmount = 0 then (.ok 0, s)
    else
      match s.sendCoinsFromModuleToAccount k addr claimableAmount with
      | .error err => (.error err, s)
      | .ok paid =>
        let funded :=
          if remainderAmount = 0 then .ok paid else paid.fundCommunityPool k remainderAmount
        match funded with
        -- The payout has been made by now and is not taken back.
        | .error err => (.error err, paid)
        | .ok funded =>
          (.ok claimableAmount,
            { funded with records := funded.records.set addr (claimsRecord.markClaimed action) })

/-- The sums and the record `MergeClaimsRecords` builds up. -/
structure Merge where
  claimedAmt : ℤ
  remainderAmt : ℤ
  mergedRecord : ClaimsRecord

/-- One round of the loop of `MergeClaimsRecords`. -/
def Merge.visit (params : Params) (blockTime : Time) (sender recipient : ClaimsRecord) (m : Merge)
    (action : Action) : Result Merge :=
  if sender.hasClaimedAction action then
    .error ⟨.errNotSupported, "non-evmos sender must not have claimed action: " ++
      action.toString⟩
  else
    let senderShare := getClaimableAmountForAction params blockTime sender action
    if recipient.hasClaimedAction action then
      -- Claim the action for the sender, since the recipient completed it.
      .ok
        { claimedAmt := m.claimedAmt + senderShare.1
          remainderAmt := m.remainderAmt + senderShare.2
          mergedRecord := m.mergedRecord.markClaimed action }
    else if action ≠ .ibcTransfer then .ok m
    else
      -- Claim the IBC action for both.
      let recipientShare := getClaimableAmountForAction params blockTime recipient action
      .ok
        { claimedAmt := m.claimedAmt + recipientShare.1 + senderShare.1
          remainderAmt := m.remainderAmt + recipientShare.2 + senderShare.2
          mergedRecord := m.mergedRecord.markClaimed action }

/-- `MergeClaimsRecords`: one record for both amounts, and the payout for what one side claimed. -/
def mergeClaimsRecords (k : Keeper) (blockTime : Time) (s : State) (recipient : Address)
    (senderClaimsRecord recipientClaimsRecord : ClaimsRecord) : Result ClaimsRecord × State :=
  let merge : Merge :=
    { claimedAmt := 0
      remainderAmt := 0
      mergedRecord := newClaimsRecord
        (senderClaimsRecord.initialClaimableAmount +
          recipientClaimsRecord.initialClaimableAmount) }
  let visited := [Action.vote, .delegate, .evm, .ibcTransfer].foldlM
    (Merge.visit s.params blockTime senderClaimsRecord recipientClaimsRecord) merge
  match visited with
  | .error err => (.error err, s)
  | .ok m =>
    -- Nothing is sent when nothing is claimed, and then nothing goes to the community pool.
    if m.claimedAmt = 0 then (.ok m.mergedRecord, s)
    else
      match s.sendCoinsFromModuleToAccount k recipient m.claimedAmt with
      | .error err => (.error err, s)
      | .ok paid =>
        if m.remainderAmt = 0 then (.ok m.mergedRecord, paid)
        else
          match paid.fundCommunityPool k m.remainderAmt with
          | .error err => (.error err, paid)
          | .ok funded => (.ok m.mergedRecord, funded)

/-- The hooks claim for a record that exists, and only log an error. -/
def claimOnHook (k : Keeper) (blockTime : Time) (s : State) (addr : Address) (action : Action) :
    State :=
  match s.records.get? addr with
  | none => s
  | some claimsRecord => (claimCoinsForAction k blockTime s addr claimsRecord action).2

/-- `AfterProposalVote`. -/
def afterProposalVote (k : Keeper) (blockTime : Time) (s : State) (voterAddr : Address) : State :=
  claimOnHook k blockTime s voterAddr .vote

/-- `AfterDelegationModified`. -/
def afterDelegationModified (k : Keeper) (blockTime : Time) (s : State) (delAddr : Address) :
    State :=
  claimOnHook k blockTime s delAddr .delegate

/-- `PostTxProcessing`. -/
def postTxProcessing (k : Keeper) (blockTime : Time) (s : State) (fromAddr : Address) : State :=
  claimOnHook k blockTime s fromAddr .evm

/-- `FungibleTokenPacketData`, as far as it is read. -/
structure PacketData where
  sender : String
  receiver : String
  amount : String

/-- An IBC packet, whose data may fail to unmarshal. -/
structure Packet where
  destinationChannel : String
  data : Option PacketData

/-- `GetTransferSenderRecipient`: the two addresses, and how the packet spells them. -/
def getTransferSenderRecipient (k : Keeper) (packet : Packet) :
    Result (Address × Address × String × String) :=
  match packet.data with
  | none => .error ⟨.errUnknownRequest, "cannot unmarshal ICS-20 transfer packet data"⟩
  | some data =>
    match k.evmosAddress data.sender, k.evmosAddress data.receiver with
    | none, _ => .error ⟨.errInvalidAddress, "invalid sender"⟩
    | some _, none => .error ⟨.errInvalidAddress, "invalid recipient"⟩
    | some sender, some recipient => .ok (sender, recipient, data.sender, data.receiver)

/-- `GetTransferAmount`. -/
def getTransferAmount (k : Keeper) (packet : Packet) : Result String :=
  match packet.data with
  | none => .error ⟨.errUnknownRequest, "cannot unmarshal ICS-20 transfer packet data"⟩
  | some data =>
    if data.amount = "" then .error ⟨.errInvalidCoins, "empty amount"⟩
    else if !k.isInteger data.amount then .error ⟨.errInvalidCoins, "invalid amount"⟩
    else .ok data.amount

/-- An acknowledgement as the relayer delivers it. -/
inductive Ack where
  | undecodable
  | error
  | success

/-- `OnAcknowledgementPacket`: claims the IBC action of the sender. -/
def onAcknowledgementPacket (k : Keeper) (blockTime : Time) (s : State) (packet : Packet) (ack : Ack) :
    Result Unit × State :=
  if !s.params.isClaimsActive blockTime then (.ok (), s)
  else
    match ack with
    | .undecodable =>
      (.error ⟨.errUnknownRequest,
        "cannot unmarshal ICS-20 transfer packet acknowledgement"⟩, s)
    | .error => (.ok (), s)
    | .success =>
      match getTransferSenderRecipient k packet with
      | .error err => (.error err, s)
      | .ok (sender, _) =>
        match s.records.get? sender with
        | none => (.ok (), s)
        | some claimsRecord =>
          let claimed := claimCoinsForAction k blockTime s sender claimsRecord .ibcTransfer
          (claimed.1.map fun _ => (), claimed.2)

/-- `IBCTriggerAmt`. -/
def ibcTriggerAmt : String := "63743"

/-- The last part of `OnRecvPacket`: merges, migrates, or claims, depending on who has a record. -/
def settlePacket (k : Keeper) (blockTime : Time) (s : State) (sender recipient : Address)
    (fromEVMChain isTriggerAmt : Bool) : Result Unit × State :=
  let sameAddress : Bool := sender = recipient
  match s.records.get? sender, s.records.get? recipient with
  | some senderRecord, some recipientRecord =>
    if !sameAddress && isTriggerAmt then
      -- Case 1: merge the sender's record into the recipient's, and delete it.
      match mergeClaimsRecords k blockTime s recipient senderRecord recipientRecord with
      | (.error err, after) => (.error err, after)
      | (.ok merged, after) =>
        (.ok (), { after with records := (after.records.set recipient merged).delete sender })
    else if sameAddress && fromEVMChain then
      -- Case 3, for the same account on an EVM chain.
      let claimed := claimCoinsForAction k blockTime s recipient recipientRecord .ibcTransfer
      (claimed.1.map fun _ => (), claimed.2)
    else (.ok (), s)
  | some senderRecord, none =>
    if isTriggerAmt then
      -- Case 2: migrate the sender's record to the recipient.
      match claimCoinsForAction k blockTime s recipient senderRecord .ibcTransfer with
      | (.error err, after) => (.error err, after)
      | (.ok claimedAmt, after) =>
        if claimedAmt = 0 then (.ok (), after)
        else (.ok (), { after with records := after.records.delete sender })
    else (.ok (), s)
  | none, some recipientRecord =>
    -- Case 3: only the recipient has a record, and claims the IBC action.
    let claimed := claimCoinsForAction k blockTime s recipient recipientRecord .ibcTransfer
    (claimed.1.map fun _ => (), claimed.2)
  -- Case 4: neither has a record.
  | none, none => (.ok (), s)

/-- `OnRecvPacket`, whose error is the error acknowledgement it returns. -/
def onRecvPacket (k : Keeper) (blockTime : Time) (s : State) (packet : Packet) :
    Result Unit × State :=
  if !s.params.isClaimsActive blockTime then (.ok (), s)
  else
    match getTransferSenderRecipient k packet with
    | .error err => (.error err, s)
    | .ok (sender, recipient, senderBech32, recipientBech32) =>
      if k.blockedAddr sender || k.blockedAddr recipient then
        (.error ⟨.errUnauthorized, "sender (" ++ senderBech32 ++ ") or recipient (" ++
          recipientBech32 ++
          ") address are in the deny list for sending and receiving transfers"⟩, s)
      -- Perform a no-op if the IBC action of the sender has been completed.
      else if (s.records.get? sender).any (·.hasClaimedAction .ibcTransfer) then (.ok (), s)
      else
        let sameAddress : Bool := sender = recipient
        let fromEVMChain := s.params.isEVMChannel packet.destinationChannel
        if sameAddress && !fromEVMChain then
          -- Funds would get stuck on an address that is no Ethereum key.
          if (s.records.get? sender).any (!·.hasClaimedAny) then
            (.error ⟨.errKeyTypeNotSupported, "receiver address " ++ recipientBech32 ++
              " is not a valid ethereum address"⟩, s)
          else (.ok (), s)
        else if !s.params.isAuthorizedChannel packet.destinationChannel then (.ok (), s)
        else
          match getTransferAmount k packet with
          | .error err => (.error err, s)
          | .ok amt =>
            settlePacket k blockTime s sender recipient fromEVMChain (amt = ibcTriggerAmt)

/-- One record's part of the sum in `ClaimsInvariant`. -/
def addUnclaimed (expectedUnclaimed : Dec) (cr : ClaimsRecord) : Dec :=
  let initialClaimablePerAction := (Dec.ofInt cr.initialClaimableAmount).quo (Dec.ofInt 4)
  (List.finRange 4).foldl
    (fun sum i => if cr.actionsCompleted i then sum else sum + initialClaimablePerAction)
    expectedUnclaimed

/-- `ClaimsInvariant`: its message, and whether it is broken. -/
def claimsInvariant (k : Keeper) (blockTime : Time) (s : State) : String × Bool :=
  if !s.params.isClaimsActive blockTime then ("", false)
  else
    let expectedUnclaimed := s.records.entries.foldl (fun sum entry => addUnclaimed sum entry.2) 0
    let balance := Dec.ofInt (s.escrow k)
    ("claims: claims invariant\n\tsum of unclaimed amount: " ++ expectedUnclaimed.toString ++
      "\n\tescrowed balance amount: " ++ balance.toString ++ "\n\n",
      expectedUnclaimed ≠ balance)

/-- The flags of a genesis record that has passed the length check. -/
def flagsOf (actionsCompleted : List Bool) : Fin 4 → Bool :=
  fun i => actionsCompleted.getD i false

/-- The loop of `InitGenesis`: stores each record and adds up what it leaves unclaimed. -/
def initRecords (bech32 : Bech32) (sumUnclaimed : ℕ) (records : Store Address ClaimsRecord) :
    List ClaimsRecordAddress → Result (ℕ × Store Address ClaimsRecord)
  | [] => .ok (sumUnclaimed, records)
  | claimsRecord :: rest => do
    let addr ← orPanic "invalid address" (bech32.decode claimsRecord.address)
    if claimsRecord.actionsCompleted.length ≠ 4 then
      .error ⟨.panic, "invalid actions completed length for address " ++ claimsRecord.address⟩
    else
      let initialClaimablePerAction := claimsRecord.initialClaimableAmount / 4
      let sumUnclaimed := claimsRecord.actionsCompleted.foldl
        (fun sum completed => if completed then sum else sum + initialClaimablePerAction)
        sumUnclaimed
      initRecords bech32 sumUnclaimed
        (records.set addr
          ⟨claimsRecord.initialClaimableAmount, flagsOf claimsRecord.actionsCompleted⟩)
        rest

/-- `InitGenesis`, which panics unless the escrow holds exactly the unclaimed amounts. -/
def initGenesis (k : Keeper) (blockTime : Time) (s : State) (data : GenesisState) :
    Result State := do
  -- The start time defaults to the current block time.
  let params :=
    if data.params.airdropStartTime = zeroTime then
      { data.params with airdropStartTime := blockTime }
    else data.params
  let totalEscrowed := s.balances k.moduleAddress params.claimsDenom
  let (sumUnclaimed, records) ← initRecords k.bech32 0 s.records data.claimsRecords
  if sumUnclaimed ≠ totalEscrowed then
    .error ⟨.panic, "sum of unclaimed amount ≠ escrowed module account amount (" ++
      toString sumUnclaimed ++ " ≠ " ++ toString totalEscrowed ++ ")"⟩
  else .ok { s with params := params, records := records }

end Evmos.Claims
