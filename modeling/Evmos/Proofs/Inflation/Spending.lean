import Evmos.Proofs.Inflation.Conservation
import Evmos.Sdk.Accounting

/-! Who pays in the inflation module: its account, with coins of the denomination that it mints. -/

namespace Evmos.Inflation

variable {k : Keeper} {s after : State}

/-- Minting and allocating is paid by the module account, with coins that are minted. -/
theorem mintAndAllocateInflation_changed {amount : ℤ} {allocation : Allocation}
    (done : mintAndAllocateInflation k s amount = .ok (allocation, after)) :
    s.bank.Changed {k.moduleAddress} {s.params.mintDenom} after.bank := by
  obtain ⟨coins, minting, done⟩ := bind_eq_ok.mp done
  obtain rfl := newCoin_ok minting
  rw [mintCoins_eq] at done
  have minted : s.bank.Changed {k.moduleAddress} {s.params.mintDenom}
      (s.bank.mintCoins k.moduleAddress (Coins.ofCoin s.params.mintDenom amount.toNat)) :=
    .of_mintCoins _ _ fun _ some => Coins.eq_of_ofCoin_ne_zero some
  -- Three transfers follow, to the fee collector, the incentives and the community pool.
  obtain ⟨staking, -, done⟩ := bind_eq_ok.mp done
  obtain ⟨afterStaking, stakingSent, done⟩ := bind_eq_ok.mp done
  obtain ⟨incentives, -, done⟩ := bind_eq_ok.mp done
  obtain ⟨afterIncentives, incentivesSent, done⟩ := bind_eq_ok.mp done
  obtain ⟨funded, funding, done⟩ := bind_eq_ok.mp done
  obtain ⟨-, rfl⟩ := Prod.mk.inj (Except.ok.inj done)
  obtain ⟨afterFunding, poolSent, funding⟩ := bind_eq_ok.mp funding
  obtain rfl := Except.ok.inj funding
  exact ((minted.trans (.of_sendCoins rfl stakingSent)).trans
    (.of_sendCoins rfl incentivesSent)).trans (.of_sendCoins rfl poolSent)

/-- The end of an epoch takes coins from the module account, and mints its denomination. -/
theorem afterEpochEnd_changed {identifier : String} {epochNumber : ℤ}
    (done : afterEpochEnd k identifier epochNumber s = .ok after) :
    s.bank.Changed {k.moduleAddress} {s.params.mintDenom} after.bank := by
  unfold afterEpochEnd at done
  split at done
  · split at done
    · obtain rfl := Except.ok.inj done
      exact .refl _
    · obtain rfl := Except.ok.inj done
      exact .refl _
  split at done
  · obtain rfl := Except.ok.inj done
    exact .refl _
  obtain ⟨provision, -, done⟩ := bind_eq_ok.mp done
  obtain ⟨⟨allocation, minted⟩, minting, done⟩ := bind_eq_ok.mp done
  obtain ⟨passed, passing, done⟩ := bind_eq_ok.mp done
  obtain rfl := Except.ok.inj done
  -- A new period moves no coins.
  have same : passed.2.bank = minted.bank := by
    rcases passPeriod_ok passing with rfl | ⟨newProvision, -, rfl⟩
    · rfl
    · rfl
  show s.bank.Changed _ _ passed.2.bank
  rw [same]
  exact mintAndAllocateInflation_changed minting

end Evmos.Inflation
