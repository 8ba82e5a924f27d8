import Evmos.Sdk.Types

/-! The module accounts of the application, and which of them may receive coins from outside. -/

namespace Evmos

/-- The names in `maccPerms`. -/
inductive ModuleAccount where
  | feeCollector
  | distribution
  | bondedPool
  | notBondedPool
  | gov
  | ibcTransfer
  | evm
  | inflation
  | erc20
  | claims
  | incentives
  deriving DecidableEq

namespace ModuleAccount

/-- The keys of `maccPerms`. -/
def maccPerms : List ModuleAccount :=
  [feeCollector, distribution, bondedPool, notBondedPool, gov, ibcTransfer, evm, inflation, erc20,
    claims, incentives]

/-- `allowedReceivingModAcc`. -/
def allowedReceivingModAcc : ModuleAccount → Bool
  | distribution => true
  | incentives => true
  | _ => false

theorem mem_maccPerms (acc : ModuleAccount) : acc ∈ maccPerms := by
  cases acc <;> decide

end ModuleAccount

/-- `authtypes.NewModuleAddress`, a hash of the name that is taken to be free of collisions. -/
structure ModuleAddresses where
  address : ModuleAccount → Address
  injective : Function.Injective address

namespace ModuleAddresses

variable (modules : ModuleAddresses)

/-- `BlockedAddrs`, as the bank keeper looks an address up. -/
def blockedAddr (addr : Address) : Bool :=
  ModuleAccount.maccPerms.any fun acc =>
    modules.address acc = addr && !acc.allowedReceivingModAcc

/-- A module account is blocked unless it may receive coins. -/
theorem blockedAddr_address (acc : ModuleAccount) :
    modules.blockedAddr (modules.address acc) = !acc.allowedReceivingModAcc := by
  -- Only the account itself has its address.
  rw [Bool.eq_iff_iff, blockedAddr, List.any_eq_true]
  simp only [Bool.and_eq_true, decide_eq_true_eq]
  constructor
  · rintro ⟨other, -, same, refused⟩
    rwa [modules.injective same] at refused
  · intro refused
    exact ⟨acc, acc.mem_maccPerms, rfl, refused⟩

end ModuleAddresses

end Evmos
