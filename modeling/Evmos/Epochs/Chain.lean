import Evmos.Epochs.Keeper
import Evmos.Library.Run

/-! The epochs module over time: blocks, and the hook calls they make. -/

namespace Evmos.Epochs

open Library

variable {σ : Type}

/-- A call of a hook. -/
inductive HookCall where
  | beforeEpochStart (identifier : String) (epochNumber : ℤ)
  | afterEpochEnd (identifier : String) (epochNumber : ℤ)
  deriving DecidableEq

/-- The epoch a hook was called for. -/
def HookCall.identifier : HookCall → String
  | beforeEpochStart identifier _ => identifier
  | afterEpochEnd identifier _ => identifier

/-- Hooks that do what the given ones do, and note down each call. -/
def traced (hooks : EpochHooks σ) : EpochHooks (σ × List HookCall) where
  afterEpochEnd identifier epochNumber s := do
    let hooked ← hooks.afterEpochEnd identifier epochNumber s.1
    .ok (hooked, s.2 ++ [.afterEpochEnd identifier epochNumber])
  beforeEpochStart identifier epochNumber s := do
    let hooked ← hooks.beforeEpochStart identifier epochNumber s.1
    .ok (hooked, s.2 ++ [.beforeEpochStart identifier epochNumber])

/-- The calls noted down for one identifier. -/
def State.callsFor (s : State (σ × List HookCall)) (identifier : String) : List HookCall :=
  s.hooked.2.filter fun call => call.identifier = identifier

/-- A block, and what the modules behind the hooks have become since the last one. -/
structure Block (σ : Type) where
  blockTime : Time
  blockHeight : ℤ
  hooked : σ

/-- The context in which the block is processed. -/
def Block.context (block : Block σ) : Context := ⟨block.blockTime, block.blockHeight⟩

/-- A block in which `BeginBlocker` does not panic. -/
def Step (hooks : EpochHooks σ) (before : State (σ × List HookCall)) (block : Block σ)
    (after : State (σ × List HookCall)) : Prop :=
  beginBlocker (traced hooks) block.context
    ⟨before.epochInfos, (block.hooked, before.hooked.2)⟩ = .ok after

/-- The state in which a genesis with these records leaves an empty store. -/
def genesis (ctx : Context) (epochs : List EpochInfo) (hooked : σ) : State (σ × List HookCall) :=
  initGenesis ctx epochs ⟨.empty, (hooked, [])⟩

end Evmos.Epochs
