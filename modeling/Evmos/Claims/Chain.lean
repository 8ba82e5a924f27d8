import Evmos.Claims.Keeper
import Evmos.Library.Run

/-! The claims module over time: claims by hooks and IBC callbacks, block after block. -/

namespace Evmos.Claims

/-- What calls into the claims module. -/
inductive Event where
  | vote (voterAddr : Address)
  | delegation (delAddr : Address)
  | evmTx (fromAddr : Address)
  | acknowledge (packet : Packet) (ack : Ack)
  | receive (packet : Packet)

/-- IBC keeps what a callback did only when the callback succeeds. -/
def keepOnSuccess (before : State) : Result Unit × State → State
  | (.ok _, after) => after
  | (.error _, _) => before

/-- The state after an event at a block time. -/
def Event.deliver (k : Keeper) (blockTime : Time) (s : State) : Event → State
  | .vote voterAddr => afterProposalVote k blockTime s voterAddr
  | .delegation delAddr => afterDelegationModified k blockTime s delAddr
  | .evmTx fromAddr => postTxProcessing k blockTime s fromAddr
  | .acknowledge packet ack => keepOnSuccess s (onAcknowledgementPacket k blockTime s packet ack)
  | .receive packet => keepOnSuccess s (onRecvPacket k blockTime s packet)

/-- The state between two events, with the time of the last block. -/
structure Chain where
  state : State
  blockTime : Time

/-- An event in a block. -/
structure Call where
  blockTime : Time
  event : Event

/-- A call in a block no earlier than the last one and inside the claim window. -/
def Step (k : Keeper) (before : Chain) (call : Call) (after : Chain) : Prop :=
  before.blockTime ≤ call.blockTime ∧ before.state.params.isClaimsActive call.blockTime = true ∧
    after = ⟨call.event.deliver k call.blockTime before.state, call.blockTime⟩

end Evmos.Claims
