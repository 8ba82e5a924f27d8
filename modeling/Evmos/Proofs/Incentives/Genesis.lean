import Evmos.Incentives.Genesis
import Evmos.Proofs.Incentives.Allocation

/-! A genesis export is restored by the import exactly when no incentive is registered. -/

namespace Evmos.Incentives

open Library

/-- An import that brings back everything the module stores. -/
structure Restored (s restored : State) : Prop where
  params : restored.params = s.params
  incentives : restored.incentives = s.incentives
  allocationMeters : restored.allocationMeters = s.allocationMeters
  gasMeters : restored.gasMeters = s.gasMeters

theorem foldl_setGasMeter (gms : List GasMeter) (s : State) :
    gms.foldl State.setGasMeter s =
      { s with
        gasMeters := gms.foldl
          (fun store gm => store.set (toLex (gm.contract, gm.participant)) gm.cumulativeGas)
          s.gasMeters } := by
  induction gms generalizing s with
  | nil => rfl
  | cons gm gms ih => exact ih (s.setGasMeter gm)

theorem foldl_getIncentivesGasMeters (s : State) :
    s.getIncentivesGasMeters.foldl
        (fun store gm => store.set (toLex (gm.contract, gm.participant)) gm.cumulativeGas)
        (.empty : Store (Address ×ₗ Address) ℕ) = s.gasMeters := by
  rw [State.getIncentivesGasMeters, List.foldl_map]
  exact s.gasMeters.foldl_set_entries

/-- The first allocation of the first incentive is added to a decimal without an integer. -/
theorem importIncentives_panics (s : State) {incentive : Incentive} (rest : List Incentive)
    (nonempty : incentive.allocations ≠ []) :
    importIncentives s (incentive :: rest) =
      .error ⟨.panic, "runtime error: invalid memory address or nil pointer dereference"⟩ := by
  obtain ⟨al, more, split⟩ := List.exists_cons_of_ne_nil nonempty
  -- The map of meters is still empty, so its entry is absent.
  have first : addAllocations .empty incentive.allocations =
      .error ⟨.panic, "runtime error: invalid memory address or nil pointer dereference"⟩ := by
    rw [split]
    rfl
  rw [importIncentives, List.foldlM_cons, first]
  rfl

/-- Where nothing is allocated, no allocation meter is stored. -/
theorem Metered.allocationMeters_eq_empty {s : State} (metered : Metered s)
    (none : s.incentives = .empty) : s.allocationMeters = .empty := by
  refine Store.eq_empty ?_
  intro denom
  have zero : s.meter denom = 0 := by
    rw [metered.exact denom, State.allocated, none]
    rfl
  rcases stored : s.allocationMeters.get? denom with _ | amount
  · rfl
  · -- A meter that is stored is not zero.
    rw [State.meter, stored, Option.getD_some] at zero
    exact absurd (zero ▸ stored) (metered.nonzero denom)

/-- Without incentives, everything is restored: only gas meters can be left. -/
theorem Metered.initGenesis_restores {s : State} (metered : Metered s) (none : s.incentives = .empty)
    (params : Params) (bank : Bank) :
    ∃ restored, initGenesis true (.empty params bank) (exportGenesis s) = .ok restored ∧
      Restored s restored := by
  have exported : (exportGenesis s).incentives = [] := by
    rw [exportGenesis, State.getAllIncentives, none]
    rfl
  -- No incentive is imported, so the map is never asked for an entry.
  refine ⟨(exportGenesis s).gasMeters.foldl State.setGasMeter (.empty s.params bank), ?_, ?_⟩
  · simp only [initGenesis, exported]
    rfl
  · rw [foldl_setGasMeter]
    exact ⟨rfl, none.symm, (metered.allocationMeters_eq_empty none).symm,
      foldl_getIncentivesGasMeters s⟩

theorem Metered.initGenesis_panics {s : State} (metered : Metered s)
    {entry : Address × Incentive} {rest : List (Address × Incentive)}
    (entries : s.incentives.entries = entry :: rest) (params : Params) (bank : Bank) :
    initGenesis true (.empty params bank) (exportGenesis s) =
      .error ⟨.panic, "runtime error: invalid memory address or nil pointer dereference"⟩ := by
  have member : entry ∈ s.incentives.entries := entries ▸ List.mem_cons_self
  have registered := metered.registered _ _ (Store.get?_eq_some.mpr member)
  -- The first incentive is enough for the panic.
  have exported : (exportGenesis s).incentives = entry.2 :: rest.map Prod.snd := by
    rw [exportGenesis, State.getAllIncentives, entries, List.map_cons]
  simp only [initGenesis, exported]
  rw [importIncentives_panics _ _ registered.nonempty]
  rfl

/--
A reachable state survives an export and an import exactly when no incentive is registered.

Otherwise the import adds the first allocation to an entry its map does not have.
-/
theorem genesis_restores_iff (k : Keeper) (v : Validators) (params : Params) (bank : Bank)
    {calls : List Call} {s : State} (run : Run (Step k v) (.empty params bank) calls s)
    (fresh : Params) (held : Bank) :
    (∃ restored, initGenesis true (.empty fresh held) (exportGenesis s) = .ok restored ∧
      restored.params = s.params ∧ restored.incentives = s.incentives ∧
      restored.allocationMeters = s.allocationMeters ∧ restored.gasMeters = s.gasMeters) ↔
        s.getAllIncentives = [] := by
  have metered := Metered.reachable run
  -- A registered incentive has an allocation, with which the import panics.
  constructor
  · rintro ⟨restored, done, -⟩
    rcases entries : s.incentives.entries with _ | ⟨entry, rest⟩
    · rw [State.getAllIncentives, entries, List.map_nil]
    · rw [metered.initGenesis_panics entries] at done
      cases done
  · intro none
    have none : s.incentives = .empty := Store.ext (List.map_eq_nil_iff.mp none)
    obtain ⟨restored, done, same⟩ := metered.initGenesis_restores none fresh held
    exact ⟨restored, done, same.params, same.incentives, same.allocationMeters, same.gasMeters⟩

/-- An incentive that was cancelled leaves a state that survives. -/
theorem cancelled_incentive_is_restored :
    ∃ s, Run (Step lengthKeeper acceptAll) (.empty unlimited (holdingAtoms 10))
        [⟨anyContract, .registerIncentive (atomProposal "xx" (Dec.ofIntWithPrec 60 2) 1)⟩,
          ⟨anyContract, .postTx ⟨some 2, 5, 100⟩⟩, ⟨anyContract, .cancelIncentive 2⟩] s ∧
      ∃ restored, initGenesis true (.empty unlimited (holdingAtoms 10)) (exportGenesis s) =
          .ok restored ∧
        restored.params = s.params ∧ restored.incentives = s.incentives ∧
        restored.allocationMeters = s.allocationMeters ∧ restored.gasMeters = s.gasMeters := by
  -- The cancellation deletes the only incentive and its gas meter.
  have ran : ∃ s, Run (Step lengthKeeper acceptAll) (.empty unlimited (holdingAtoms 10))
        [⟨anyContract, .registerIncentive (atomProposal "xx" (Dec.ofIntWithPrec 60 2) 1)⟩,
          ⟨anyContract, .postTx ⟨some 2, 5, 100⟩⟩, ⟨anyContract, .cancelIncentive 2⟩] s ∧
      s.getAllIncentives = [] :=
    ⟨_, .extend (.extend (.extend .start (.registerIncentive rfl rfl)) .postTx)
      (.cancelIncentive rfl), rfl⟩
  obtain ⟨s, run, none⟩ := ran
  exact ⟨s, run, (genesis_restores_iff lengthKeeper acceptAll unlimited (holdingAtoms 10) run
    unlimited (holdingAtoms 10)).mpr none⟩

/-- One registered incentive is enough for the import of the export to panic. -/
theorem registered_incentive_is_not_restored :
    ∃ s, Run (Step lengthKeeper acceptAll) (.empty unlimited (holdingAtoms 10))
        [⟨anyContract, .registerIncentive (atomProposal "xx" (Dec.ofIntWithPrec 60 2) 1)⟩] s ∧
      initGenesis true (.empty unlimited (holdingAtoms 10)) (exportGenesis s) =
        .error ⟨.panic, "runtime error: invalid memory address or nil pointer dereference"⟩ :=
  ⟨_, .extend .start (.registerIncentive rfl rfl), rfl⟩

end Evmos.Incentives
