import Evmos.Incentives.Keeper
import Evmos.Library.Run

/-! The incentives module over time: proposals, transactions, epochs, and what others change. -/

namespace Evmos.Incentives

/-- What calls into the incentives module, or changes what it reads. -/
inductive Action where
  | registerIncentive (proposal : RegisterIncentiveProposal)
  | cancelIncentive (contract : Address)
  | postTx (msg : Message)
  | distributeRewards
  /-- Governance changes the parameters, and other modules move coins. -/
  | others (params : Params) (bank : Bank)

/-- An action in a block. -/
structure Call where
  ctx : Context
  action : Action

/-- What a successful call does. -/
inductive Step (k : Keeper) (v : Validators) (s : State) : Call → State → Prop where
  | registerIncentive {ctx : Context} {proposal : RegisterIncentiveProposal} {incentive : Incentive}
      {after : State} (valid : proposal.validateBasic v = .ok ())
      (registered : registerIncentive k ctx s (k.hexToAddress proposal.contract)
        proposal.allocations proposal.epochs = .ok (incentive, after)) :
      Step k v s ⟨ctx, .registerIncentive proposal⟩ after
  | cancelIncentive {ctx : Context} {contract : Address} {after : State}
      (cancelled : cancelIncentive k s contract = .ok after) :
      Step k v s ⟨ctx, .cancelIncentive contract⟩ after
  | postTx {ctx : Context} {msg : Message} :
      Step k v s ⟨ctx, .postTx msg⟩ (postTxProcessing ctx s msg)
  | distributeRewards {ctx : Context} {after : State}
      (distributed : distributeRewards k s = .ok after) :
      Step k v s ⟨ctx, .distributeRewards⟩ after
  | others {ctx : Context} {params : Params} {bank : Bank} :
      Step k v s ⟨ctx, .others params bank⟩ { s with params := params, bank := bank }

/-- The state of an empty incentives store. -/
def State.empty (params : Params) (bank : Bank) : State := ⟨params, .empty, .empty, .empty, bank⟩

end Evmos.Incentives
