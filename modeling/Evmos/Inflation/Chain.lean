import Evmos.Inflation.Keeper
import Evmos.Library.Run

/-! The epochs and the inflation module over time, block after block. -/

namespace Evmos.Inflation

open Library Epochs

/-- The state between two blocks, with the time of the last one. -/
structure Chain where
  state : Epochs.State State
  blockTime : Time

/-- A block, and what has changed outside of the two modules since the last one. -/
structure Block where
  blockTime : Time
  blockHeight : ℤ
  params : Params
  bank : Bank
  communityPool : Coins
  totalBondedTokens : ℕ

/-- The inflation state at the beginning of a block: its own records stay, the rest is given. -/
def State.atBlock (s : State) (block : Block) : State :=
  { s with
    params := block.params
    bank := block.bank
    communityPool := block.communityPool
    totalBondedTokens := block.totalBondedTokens }

/-- A block no earlier than the last one, in which `BeginBlocker` does not panic. -/
def Step (k : Keeper) (before : Chain) (block : Block) (after : Chain) : Prop :=
  before.blockTime ≤ block.blockTime ∧
    ∃ state, beginBlocker (multiEpochHooks [incentivesHooks k, hooks k])
        ⟨block.blockTime, block.blockHeight⟩
        ⟨before.state.epochInfos, before.state.hooked.atBlock block⟩ = .ok state ∧
      after = ⟨state, block.blockTime⟩

end Evmos.Inflation
