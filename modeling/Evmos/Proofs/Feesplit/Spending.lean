import Evmos.Proofs.Feesplit.MsgServer
import Evmos.Sdk.Accounting

/-! Who pays in the fee split module: the fee collector, and only in the hook. -/

namespace Evmos.Feesplit

variable {k : Keeper} {s after : State}

theorem registerFeeSplit_bank {account : EthAddress → Option EvmAccount} {msg : MsgRegisterFeeSplit}
    (registered : registerFeeSplit k account s msg = .ok after) : after.bank = s.bank := by
  -- A registration writes the fee split and its maps.
  obtain ⟨deployer, withdrawer, facts⟩ := registerFeeSplit_ok registered
  rw [facts.result]
  rfl

theorem updateFeeSplit_bank {msg : MsgUpdateFeeSplit}
    (updated : updateFeeSplit k s msg = .ok after) : after.bank = s.bank := by
  obtain ⟨feeSplit, withdrawerAddress, facts⟩ := updateFeeSplit_ok updated
  rw [facts.result]

theorem cancelFeeSplit_bank {msg : MsgCancelFeeSplit}
    (cancelled : cancelFeeSplit k s msg = .ok after) : after.bank = s.bank := by
  obtain ⟨feeSplit, deployer, facts⟩ := cancelFeeSplit_ok cancelled
  rw [facts.result]

/-- The hook takes the share of the developer from the fee collector. -/
theorem postTxProcessing_changed {evmDenom : Denom} {tx : Transaction}
    (done : postTxProcessing k evmDenom s tx = .ok after) :
    s.bank.Changed {k.feeCollectorAddress} ∅ after.bank := by
  rcases postTxProcessing_ok done with rfl | ⟨contract, withdrawer, paid⟩
  · exact .refl _
  · have sent := paid.sent
    -- The transfer is refused for an invalid coin, and made otherwise.
    unfold sendDeveloperFee at sent
    split at sent
    · cases sent
    · exact .of_sendCoinsFromModuleToAccount rfl sent

/-- The accounts that a call takes coins from, unless others have acted. -/
def Call.payers (k : Keeper) : Call → Set Address
  | .postTx _ _ => {k.feeCollectorAddress}
  | _ => ∅

theorem Step.changed {call : Call} (own : ∀ params bank, call ≠ .others params bank)
    (taken : Step k s call after) : s.bank.Changed (call.payers k) ∅ after.bank := by
  -- The messages leave the bank alone, so only the hook moves coins.
  cases taken with
  | register _ registered =>
    rw [registerFeeSplit_bank registered]
    exact .refl _
  | update _ updated =>
    rw [updateFeeSplit_bank updated]
    exact .refl _
  | cancel _ cancelled =>
    rw [cancelFeeSplit_bank cancelled]
    exact .refl _
  | postTx processed => exact postTxProcessing_changed processed
  | others => exact absurd rfl (own _ _)

end Evmos.Feesplit
