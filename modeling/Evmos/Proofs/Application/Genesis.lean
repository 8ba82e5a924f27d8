import Evmos.Application.Genesis
import Evmos.Proofs.Application.Invariant

/-! A fresh genesis leaves the application in its invariant. -/

namespace Evmos

open Library

namespace Claims

/-- The genesis stores records only for the accounts it names. -/
theorem held_of_initRecords {bech32 : Bech32} {genesis : List ClaimsRecordAddress} {sum total : ℕ}
    {records loaded : Store Address ClaimsRecord} {addr : Address}
    (done : initRecords bech32 sum records genesis = .ok (total, loaded))
    (held : loaded.get? addr ≠ none) :
    records.get? addr ≠ none ∨
      ∃ claimsRecord ∈ genesis, bech32.decode claimsRecord.address = some addr := by
  induction genesis generalizing sum records with
  | nil =>
    obtain ⟨-, rfl⟩ := Prod.mk.inj (Except.ok.inj done)
    exact .inl held
  | cons claimsRecord rest ih =>
    obtain ⟨owner, decoded, done⟩ := bind_eq_ok.mp done
    split_ifs at done
    rcases ih done with before | ⟨other, member, named⟩
    · -- The record was stored for the account that comes first, or before.
      rcases held_of_set before with rfl | before
      · exact .inr ⟨claimsRecord, List.mem_cons_self, orPanic_eq_ok.mp decoded⟩
      · exact .inl before
    · exact .inr ⟨other, List.mem_cons_of_mem _ member, named⟩

theorem initGenesis_ok {k : Keeper} {blockTime : Time} {data : GenesisState} {s start : State}
    (done : initGenesis k blockTime s data = .ok start) :
    ∃ params sum records, initRecords k.bech32 0 s.records data.claimsRecords = .ok (sum, records) ∧
      start = { s with params := params, records := records } := by
  obtain ⟨⟨sum, records⟩, loaded, done⟩ := bind_eq_ok.mp done
  dsimp only at done
  -- Either the start time was given, or it is that of the block.
  split_ifs at done
  · exact ⟨_, sum, records, loaded, (Except.ok.inj done).symm⟩
  · exact ⟨_, sum, records, loaded, (Except.ok.inj done).symm⟩

end Claims

namespace Application

variable {app : App} {blockHeight : ℤ} {data : GenesisState} {s : State} {chain : Chain}

/-- What `InitGenesis` makes of a fresh state. -/
structure Initialised (app : App) (data : GenesisState) (s : State) (chain : Chain)
    (claimsParams : Claims.Params) (records : Store Address Claims.ClaimsRecord)
    (provision : Dec) : Prop where
  loaded : ∃ sum, Claims.initRecords app.bech32 0 .empty data.claims.claimsRecords =
    .ok (sum, records)
  claims : Claims.initGenesis app.claimsKeeper s.blockTime (claimsView.get s) data.claims =
    .ok (claimsView.get chain.hooked)
  inflation : Inflation.initGenesis app.inflationKeeper data.inflation (inflationView.get s) =
    .ok (inflationView.get chain.hooked)
  keyed : Epochs.Keyed chain.epochInfos
  -- Nothing but parameters, records and the provision is stored.
  hooked : chain.hooked =
    { s with
      claims := ⟨claimsParams, records⟩
      inflation := ⟨data.inflation.params, data.inflation.period, data.inflation.epochIdentifier,
        data.inflation.epochsPerPeriod, data.inflation.skippedEpochs, some provision,
        s.inflation.mints⟩
      erc20 := { s.erc20 with params := data.erc20.params }
      incentives := { s.incentives with params := data.incentives.params }
      recovery := { s.recovery with params := data.recovery }
      feesplit := { s.feesplit with params := data.feesplit.params } }

namespace Fresh

/-- A genesis that does not panic stores what it names. -/
theorem initialised (fresh : Fresh app data s)
    (done : initGenesis app blockHeight data s = .ok chain) :
    ∃ claimsParams records provision,
      Initialised app data s chain claimsParams records provision := by
  obtain ⟨_, first, done⟩ := bind_eq_ok.mp done
  obtain ⟨claims, claimed, rfl⟩ := Lens.modifyM_eq_ok.mp first
  obtain ⟨claimsParams, sum, records, loaded, rfl⟩ := Claims.initGenesis_ok claimed
  obtain ⟨_, second, done⟩ := bind_eq_ok.mp done
  obtain ⟨inflation, minting, rfl⟩ := Lens.modifyM_eq_ok.mp second
  obtain ⟨provision, calculated, rfl⟩ := Inflation.initGenesis_ok minting
  -- The other modules have only parameters to store.
  obtain ⟨_, third, done⟩ := bind_eq_ok.mp done
  obtain ⟨erc20, paired, rfl⟩ := Lens.modifyM_eq_ok.mp third
  rw [Erc20.initGenesis, fresh.noPairs] at paired
  obtain rfl := Except.ok.inj paired
  obtain ⟨_, fourth, done⟩ := bind_eq_ok.mp done
  obtain ⟨incentives, incentivised, rfl⟩ := Lens.modifyM_eq_ok.mp fourth
  rw [Incentives.initGenesis, fresh.noIncentives, fresh.noGasMeters] at incentivised
  obtain rfl := Except.ok.inj incentivised
  obtain ⟨_, last, done⟩ := bind_eq_ok.mp done
  obtain ⟨feesplit, shared, rfl⟩ := Lens.modifyM_eq_ok.mp last
  rw [Feesplit.initGenesis, fresh.noFeeSplits] at shared
  obtain rfl := Except.ok.inj shared
  obtain rfl := Except.ok.inj done
  rw [show (claimsView.get s).records = .empty from fresh.claims] at loaded
  refine ⟨claimsParams, records, provision, ⟨sum, loaded⟩, ?_, ?_, ?_, ?_⟩
  · simp only [Epochs.initGenesis_hooked]
    exact claimed
  · simp only [Epochs.initGenesis_hooked]
    exact minting
  · exact Epochs.initGenesis_keyed _ _ _ (by intro identifier info absent; cases absent)
  · simp only [Epochs.initGenesis_hooked]
    rfl

/-- A fresh genesis that does not panic leaves the invariant. -/
theorem inv (fresh : Fresh app data s) (done : initGenesis app blockHeight data s = .ok chain) :
    ChainInv app chain := by
  obtain ⟨claimsParams, records, provision, init⟩ := fresh.initialised done
  obtain ⟨sum, loaded⟩ := init.loaded
  have sound := Inflation.sound_genesis fresh.inflation init.inflation
  refine ⟨?_, init.keyed⟩
  rw [init.hooked] at sound ⊢
  -- The stores are empty but for the records of the airdrop.
  refine ⟨?_, ?_, ?_, ?_, fresh.mintDenom, ?_, fresh.placed⟩
  · exact .empty fresh.erc20.tokenPairs fresh.erc20.erc20Map fresh.erc20.denomMap
  · exact (Incentives.Metered.empty s.incentives.params s.bank).congr fresh.incentives
      fresh.allocationMeters
  · exact (Feesplit.Indexed.empty s.feesplit.params s.bank).of_stores
      ⟨fresh.feeSplits, fresh.deployerMap, fresh.withdrawerMap⟩
  · exact sound
  · intro addr held
    rcases Claims.held_of_initRecords loaded held with before | ⟨claimsRecord, member, decoded⟩
    · simp at before
    · exact fresh.claimants claimsRecord member addr decoded

end Fresh

end Application

end Evmos
