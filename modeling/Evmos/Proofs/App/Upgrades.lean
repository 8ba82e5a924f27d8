import Evmos.App.Upgrades
import Evmos.Proofs.Claims.Invariant

/-! The upgrade keeps the accounting of the airdrop, unless it moves one record onto another. -/

namespace Evmos.App

open Library Claims

/-- A record with the same amount, and the same flags in another order. -/
def Reordered (cr after : ClaimsRecord) : Prop :=
  ∃ order : Equiv.Perm (Fin 4), after = { cr with actionsCompleted := cr.actionsCompleted ∘ order }

theorem Reordered.refl (cr : ClaimsRecord) : Reordered cr cr := ⟨1, rfl⟩

section Reordered

variable {cr after : ClaimsRecord}

theorem Reordered.amount (reordered : Reordered cr after) :
    after.initialClaimableAmount = cr.initialClaimableAmount := by
  obtain ⟨order, rfl⟩ := reordered
  rfl

theorem Reordered.completed (reordered : Reordered cr after) : after.completed = cr.completed := by
  obtain ⟨order, rfl⟩ := reordered
  exact Equiv.sum_comp order fun i => if cr.actionsCompleted i then 1 else 0

theorem Reordered.openAmount (reordered : Reordered cr after) :
    after.openAmount = cr.openAmount := by
  -- The number of unclaimed actions is a sum over all four of them.
  obtain ⟨order, rfl⟩ := reordered
  have unclaimed := Equiv.sum_comp order fun i => if cr.actionsCompleted i then 0 else 1
  rw [ClaimsRecord.openAmount, ClaimsRecord.openAmount]
  exact congrArg (· * cr.initialClaimableAmount) unclaimed

end Reordered

/-- A swap exchanges two flags that differ, and otherwise does nothing. -/
theorem swapUnclaimedAction_ok (cr : ClaimsRecord) {unclaimed claimed : Action}
    (specified : unclaimed ≠ .unspecified ∧ claimed ≠ .unspecified) :
    ∃ swapped after, swapUnclaimedAction cr unclaimed claimed = .ok (swapped, after) ∧
      Reordered cr after ∧ (swapped = false → after = cr) := by
  have indexed : ∀ action : Action, action ≠ .unspecified → ∃ i, action.index = some i := by
    intro action
    cases action <;> simp [Action.index]
  obtain ⟨i, first⟩ := indexed unclaimed specified.1
  obtain ⟨j, second⟩ := indexed claimed specified.2
  simp only [swapUnclaimedAction, setActionCompleted, ClaimsRecord.hasClaimedAction, first, second]
  split_ifs with differ
  · -- Writing the two flags is exchanging them.
    simp only [Bool.and_eq_true, Bool.not_eq_true'] at differ
    refine ⟨true, _, rfl, ⟨Equiv.swap j i, ?_⟩, by simp⟩
    rw [Equiv.comp_swap_eq_update, differ.1, differ.2]
  · exact ⟨false, cr, rfl, .refl cr, fun _ => rfl⟩

theorem swapFirst_ok (cr : ClaimsRecord) (swaps : List (Action × Action))
    (specified : ∀ swap ∈ swaps, swap.1 ≠ .unspecified ∧ swap.2 ≠ .unspecified) :
    ∃ swapped after, swapFirst cr swaps = .ok (swapped, after) ∧
      Reordered cr after ∧ (swapped = false → after = cr) := by
  induction swaps with
  | nil => exact ⟨false, cr, rfl, .refl cr, fun _ => rfl⟩
  | cons swap swaps ih =>
    obtain ⟨first, others⟩ := List.forall_mem_cons.mp specified
    obtain ⟨swapped, after, done, reordered, same⟩ := swapUnclaimedAction_ok cr first
    rw [swapFirst, done]
    cases swapped with
    | true => exact ⟨true, after, rfl, reordered, by simp⟩
    | false =>
      -- A swap that was not made leaves the record to the rest of the chain.
      obtain rfl := same rfl
      exact ih others

/-- The record that the chain of `ResolveAirdrop` leaves. -/
def resolvedRecord (cr : ClaimsRecord) : ClaimsRecord :=
  ((swapFirst cr airdropSwaps).toOption.map Prod.snd).getD cr

/-- Whether the chain has swapped two actions of a record. -/
def overrides (cr : ClaimsRecord) : Bool := (swapFirst cr airdropSwaps).toOption.any Prod.fst

/-- The chain gives the resolved record, and says so if that is another one. -/
theorem swapFirst_airdropSwaps (cr : ClaimsRecord) :
    swapFirst cr airdropSwaps = .ok (overrides cr, resolvedRecord cr) ∧
      Reordered cr (resolvedRecord cr) ∧ (overrides cr = false → resolvedRecord cr = cr) := by
  -- No swap of the chain names the unspecified action, so no branch panics.
  obtain ⟨override, after, done, reordered, same⟩ := swapFirst_ok cr airdropSwaps (by decide)
  have resolved : resolvedRecord cr = after := by
    rw [resolvedRecord, done]
    rfl
  have told : overrides cr = override := by
    rw [overrides, done]
    rfl
  rw [resolved, told]
  exact ⟨done, reordered, same⟩

/-- The entries that the upgrade writes: the resolved records of those it changes. -/
def changedEntries (entries : List (Address × ClaimsRecord)) : List (Address × ClaimsRecord) :=
  (entries.filter fun entry => overrides entry.2).map fun entry => (entry.1, resolvedRecord entry.2)

/-- An entry as it is collected between the two loops. -/
def spelledEntry (bech32 : Bech32) (entry : Address × ClaimsRecord) : ClaimsRecordAddress :=
  ⟨bech32.encode entry.1, entry.2.initialClaimableAmount, List.ofFn entry.2.actionsCompleted⟩

theorem collectOverrides_eq (bech32 : Bech32) (entries : List (Address × ClaimsRecord)) :
    collectOverrides bech32 entries =
      .ok ((changedEntries entries).map (spelledEntry bech32)) := by
  induction entries with
  | nil => rfl
  | cons entry entries ih =>
    obtain ⟨addr, cr⟩ := entry
    rw [collectOverrides, (swapFirst_airdropSwaps cr).1, ih]
    -- A record that no swap touched is not collected.
    cases told : overrides cr with
    | true => simp [changedEntries, told, spelledEntry, Bind.bind, Except.bind]
    | false => simp [changedEntries, told, Bind.bind, Except.bind]

theorem flagsOf_ofFn (flags : Fin 4 → Bool) : flagsOf (List.ofFn flags) = flags := by
  funext i
  rw [flagsOf, List.getD_eq_getElem _ _ (by simp), List.getElem_ofFn]

theorem storeOverrides_eq (bech32 : Bech32) (entries : List (Address × ClaimsRecord))
    (records : Store Address ClaimsRecord) :
    storeOverrides bech32 records (entries.map (spelledEntry bech32)) =
      .ok (records.setAll entries) := by
  -- The spelling of an address decodes to it again, so the loop never panics.
  induction entries generalizing records with
  | nil => rfl
  | cons entry entries ih =>
    rw [List.map_cons, storeOverrides, spelledEntry, bech32.decode_encode]
    simp only [orPanic, Bind.bind, Except.bind, flagsOf_ofFn]
    exact ih _

theorem nodup_changedEntries (records : Store Address ClaimsRecord) :
    ((changedEntries records.entries).map Prod.fst).Nodup := by
  rw [changedEntries, List.map_map]
  exact records.nodup_keys.sublist (List.filter_sublist.map Prod.fst)

/-- `ResolveAirdrop` replaces every record by its resolved one. -/
theorem resolveAirdrop_eq (bech32 : Bech32) (records : Store Address ClaimsRecord) :
    resolveAirdrop bech32 records = .ok (records.mapValues resolvedRecord) := by
  have same : records.setAll (changedEntries records.entries) =
      records.mapValues resolvedRecord := by
    refine Store.ext_get? fun addr => ?_
    rw [Store.get?_mapValues]
    by_cases written : addr ∈ (changedEntries records.entries).map Prod.fst
    · -- The entry that is written is the resolved one of the record that is stored.
      obtain ⟨entry, member, rfl⟩ := List.mem_map.mp written
      rw [Store.get?_setAll_of_mem (nodup_changedEntries records) member]
      obtain ⟨before, listed, rfl⟩ := List.mem_map.mp member
      rw [Store.get?_eq_some.mpr (List.mem_filter.mp listed).1]
      rfl
    · rw [Store.get?_setAll_of_notMem written]
      rcases stored : records.get? addr with _ | cr
      · rfl
      · -- A record that is not written is its own resolved one.
        have kept : overrides cr = false := by
          by_contra told
          refine written (List.mem_map.mpr ⟨(addr, resolvedRecord cr), List.mem_map.mpr
            ⟨(addr, cr), List.mem_filter.mpr ⟨Store.get?_eq_some.mp stored, ?_⟩, rfl⟩, rfl⟩)
          simpa using told
        rw [Option.map_some, (swapFirst_airdropSwaps cr).2.2 kept]
  rw [resolveAirdrop, collectOverrides_eq, ← same]
  exact storeOverrides_eq bech32 _ records

/-- Resolving keeps the total of whatever does not depend on the order of the flags. -/
theorem total_resolved {weight : ClaimsRecord → ℕ}
    (insensitive : ∀ cr after, Reordered cr after → weight after = weight cr)
    (records : Store Address ClaimsRecord) :
    ((records.mapValues resolvedRecord).total fun _ cr => weight cr) =
      records.total fun _ cr => weight cr := by
  rw [Store.total_mapValues]
  exact records.total_congr fun _ cr _ => insensitive cr _ (swapFirst_airdropSwaps cr).2.1

/-- The record that the contributor's record is stored over. -/
def overwrittenRecord (records : Store Address ClaimsRecord) (fromAddr toAddr : Address) :
    Option ClaimsRecord :=
  if fromAddr = toAddr ∨ records.get? fromAddr = none then none else records.get? toAddr

section Migration

variable {bech32 : Bech32} {fromAddr toAddr : Address} (records : Store Address ClaimsRecord)

/-- Moving the contributor's record loses the record that it is stored over, and nothing else. -/
theorem migrateContributorClaim_total (lost : bech32.decode contributorAddrFrom = some fromAddr)
    (new : bech32.decode contributorAddrTo = some toAddr) :
    ∃ after, migrateContributorClaim bech32 records = .ok after ∧ ∀ weight : ClaimsRecord → ℕ,
      (after.total fun _ cr => weight cr) +
          (overwrittenRecord records fromAddr toAddr).elim 0 weight =
        records.total fun _ cr => weight cr := by
  simp only [migrateContributorClaim, lost, new, orPanic, Bind.bind, Except.bind]
  rcases stored : records.get? fromAddr with _ | cr
  · exact ⟨records, rfl, fun weight => by simp [overwrittenRecord, stored]⟩
  · refine ⟨_, rfl, fun weight => ?_⟩
    have deleted := records.total_delete (fun _ cr => weight cr) fromAddr
    have written := (records.delete fromAddr).total_set (fun _ cr => weight cr) toAddr cr
    rw [stored, Option.elim_some] at deleted
    rw [deleted] at written
    -- What is stored over is what was at the new address, once the old one is cleared.
    have covered : (records.delete fromAddr).get? toAddr =
        overwrittenRecord records fromAddr toAddr := by
      by_cases same : fromAddr = toAddr
      · rw [overwrittenRecord, if_pos (.inl same), same, Store.get?_delete_self]
      · rw [overwrittenRecord, if_neg (by simp [same, stored]),
          Store.get?_delete_of_ne _ (Ne.symm same)]
    rw [← covered]
    exact written

/-- Resolving does not change which record is stored over, up to the order of its flags. -/
theorem overwrittenRecord_resolved :
    overwrittenRecord (records.mapValues resolvedRecord) fromAddr toAddr =
      (overwrittenRecord records fromAddr toAddr).map resolvedRecord := by
  simp only [overwrittenRecord, Store.get?_mapValues, Option.map_eq_none_iff]
  split_ifs <;> rfl

/-- Both migrations together lose the record that is stored over, and nothing else. -/
theorem migrations_total (lost : bech32.decode contributorAddrFrom = some fromAddr)
    (new : bech32.decode contributorAddrTo = some toAddr) :
    ∃ after, migrateContributorClaim bech32 (records.mapValues resolvedRecord) = .ok after ∧
      ∀ weight : ClaimsRecord → ℕ, (∀ cr after, Reordered cr after → weight after = weight cr) →
        (after.total fun _ cr => weight cr) +
            (overwrittenRecord records fromAddr toAddr).elim 0 weight =
          records.total fun _ cr => weight cr := by
  obtain ⟨after, migrated, totals⟩ :=
    migrateContributorClaim_total (records.mapValues resolvedRecord) lost new
  refine ⟨after, migrated, fun weight insensitive => ?_⟩
  have total := totals weight
  rw [total_resolved insensitive, overwrittenRecord_resolved] at total
  rw [← total]
  -- The lost record was resolved first, which its weight does not see.
  cases overwrittenRecord records fromAddr toAddr with
  | none => rfl
  | some cr =>
    simp only [Option.map_some, Option.elim_some]
    rw [insensitive cr _ (swapFirst_airdropSwaps cr).2.1]

end Migration

/--
The upgrade keeps the sums and the number of records, unless it stores one record over another.

`ResolveAirdrop` keeps the amount and the number of completed actions of each record. Moving the
contributor's record to an address that has one already loses that one, and the invariant breaks
in the claim window if the lost record has an open amount.
-/
theorem upgrade_keeps_accounting_iff (bech32 : Bech32) (fromAddr toAddr : Address)
    (lost : bech32.decode contributorAddrFrom = some fromAddr)
    (new : bech32.decode contributorAddrTo = some toAddr) (records : Store Address ClaimsRecord) :
    ∃ resolved after, resolveAirdrop bech32 records = .ok resolved ∧
      migrateContributorClaim bech32 resolved = .ok after ∧
      (∀ addr, (resolved.get? addr).map
          (fun cr => (cr.initialClaimableAmount, cr.completed)) =
        (records.get? addr).map fun cr => (cr.initialClaimableAmount, cr.completed)) ∧
      ((after.total (fun _ cr => cr.unclaimed * cr.initialClaimableAmount) =
            records.total (fun _ cr => cr.unclaimed * cr.initialClaimableAmount) ∧
          after.total (fun _ cr => cr.initialClaimableAmount) =
            records.total (fun _ cr => cr.initialClaimableAmount) ∧
          after.entries.length = records.entries.length) ↔
        overwrittenRecord records fromAddr toAddr = none) ∧
      ∀ k blockTime (s : State), s.records = records → (claimsInvariant k blockTime s).2 = false →
        ((claimsInvariant k blockTime { s with records := after }).2 = false ↔
          s.params.isClaimsActive blockTime = false ∨
            (overwrittenRecord records fromAddr toAddr).elim 0 ClaimsRecord.openAmount = 0) := by
  obtain ⟨after, migrated, totals⟩ := migrations_total records lost new
  have open_ := totals ClaimsRecord.openAmount fun _ _ reordered => reordered.openAmount
  refine ⟨_, after, resolveAirdrop_eq bech32 records, migrated, ?_, ?_, ?_⟩
  · intro addr
    rw [Store.get?_mapValues, Option.map_map]
    refine Option.map_congr fun cr _ => ?_
    have reordered := (swapFirst_airdropSwaps cr).2.1
    exact Prod.ext reordered.amount reordered.completed
  · -- The number of records tells whether one is lost, and then nothing else is.
    have amounts := totals ClaimsRecord.initialClaimableAmount fun _ _ reordered => reordered.amount
    have number := totals (fun _ => 1) fun _ _ _ => rfl
    rw [Store.total_one, Store.total_one] at number
    cases overwritten : overwrittenRecord records fromAddr toAddr with
    | none =>
      rw [overwritten] at open_ amounts number
      exact ⟨fun _ => rfl, fun _ => ⟨open_, amounts, number⟩⟩
    | some cr =>
      rw [overwritten, Option.elim_some] at number
      constructor
      · rintro ⟨-, -, same⟩
        omega
      · rintro ⟨⟩
  · rintro k blockTime s rfl unbroken
    cases active : s.params.isClaimsActive blockTime with
    | false => exact ⟨fun _ => .inl rfl, fun _ => claimsInvariant_of_inactive active⟩
    | true =>
      -- The escrow is not touched, so the open amounts must be the same.
      rw [claimsInvariant_unbroken_iff active] at unbroken
      rw [claimsInvariant_unbroken_iff (s := { s with records := after }) active]
      change _ = 4 * s.escrow k ↔ _
      simp only [Bool.true_eq_false, false_or]
      omega

/-- A codec for evaluation, in which the two addresses of the contributor are zero and one. -/
def contributorCodec : Bech32 where
  decode text :=
    if text = contributorAddrFrom then some 0
    else if text = contributorAddrTo then some 1
    else (Bech32.unary.decode text).map (· + 2)
  encode
    | 0 => contributorAddrFrom
    | 1 => contributorAddrTo
    | address + 2 => Bech32.unary.encode address
  decode_encode address := by
    match address with
    | 0 => decide
    | 1 => decide
    | address + 2 =>
      -- A text in unary has no other character.
      have ones : (Bech32.unary.encode address).toList.all (· = '1') = true := by
        simp [Bech32.unary]
      have notFrom : Bech32.unary.encode address ≠ contributorAddrFrom := by
        intro same
        rw [same] at ones
        exact absurd ones (by decide)
      have notTo : Bech32.unary.encode address ≠ contributorAddrTo := by
        intro same
        rw [same] at ones
        exact absurd ones (by decide)
      simp only [if_neg notFrom, if_neg notTo, Bech32.unary.decode_encode, Option.map_some]

/-- The contributor has a record, of which one action is completed, and another account one. -/
def contributorRecords (other : Address) : Store Address ClaimsRecord :=
  (Store.empty.set 0 ⟨4, ![true, false, false, false]⟩).set other (newClaimsRecord 8)

/-- A claims state with those records and an escrow for them. -/
def contributorState (other : Address) : State :=
  { escrowing 11 with records := contributorRecords other }

/-- If the other account is not the contributor's new one, the invariant survives the upgrade. -/
theorem contributor_moves_to_unused :
    ∃ after, (resolveAirdrop contributorCodec (contributorRecords 5) >>=
        migrateContributorClaim contributorCodec) = .ok after ∧
      (claimsInvariant unaryKeeper 0 { contributorState 5 with records := after }).2 = false := by
  obtain ⟨resolved, after, first, second, -, -, invariant⟩ :=
    upgrade_keeps_accounting_iff contributorCodec 0 1 (by decide) (by decide) (contributorRecords 5)
  -- No record lies at the new address, so none is lost.
  refine ⟨after, ?_, (invariant unaryKeeper 0 (contributorState 5) rfl (by decide)).mpr
    (.inr (by decide))⟩
  rw [first]
  exact second

/-- If the new address has a record of eight, that is lost, and the invariant breaks. -/
theorem contributor_overwrites_record :
    (claimsInvariant unaryKeeper 0 (contributorState 1)).2 = false ∧
    ∃ after, (resolveAirdrop contributorCodec (contributorRecords 1) >>=
        migrateContributorClaim contributorCodec) = .ok after ∧
      (contributorRecords 1).entries.length = 2 ∧ after.entries.length = 1 ∧
      (contributorRecords 1).total (fun _ cr => cr.initialClaimableAmount) = 12 ∧
      after.total (fun _ cr => cr.initialClaimableAmount) = 4 ∧
      (contributorRecords 1).total (fun _ cr => cr.unclaimed * cr.initialClaimableAmount) = 44 ∧
      after.total (fun _ cr => cr.unclaimed * cr.initialClaimableAmount) = 12 ∧
      (claimsInvariant unaryKeeper 0 { contributorState 1 with records := after }).2 = true :=
  ⟨by decide, _, rfl, rfl, rfl, rfl, rfl, rfl, rfl, by decide⟩

end Evmos.App
