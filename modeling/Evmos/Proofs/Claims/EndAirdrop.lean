import Evmos.Claims.EndAirdrop
import Evmos.Proofs.Claims.Delivery

/-! What the end of the airdrop takes from the accounts of the protocol. -/

namespace Evmos.Claims

open Library

variable {k : Keeper}

section Clawback

/-- The ledger after an account has paid coins into the community pool. -/
def Ledger.fund (k : Keeper) (l : Ledger) (sender : Address) (amount : Coins) : Ledger :=
  { l with
    state :=
      { l.state with
        balances := moveCoins l.state.balances sender k.distributionAddress amount
        communityPool := l.state.communityPool + amount } }

/-- The ways in which the clawback of one account can end. -/
inductive Clawed (k : Keeper) (denom : Denom) (l : Ledger) (addr : Address) : Ledger → Prop where
  /-- The account does not exist, is vesting, or was used. -/
  | ignored (used : ∀ acc, l.accounts addr = some acc → acc.isVesting = true ∨ acc.sequence ≠ 0) :
      Clawed k denom l addr l
  /-- An account without coins is removed. -/
  | pruned (empty : l.state.balances addr denom = 0) :
      Clawed k denom l addr { l with accounts := Function.update l.accounts addr none }
  /-- The coins of the account go to the community pool. -/
  | funded (holds : l.state.balances addr denom ≠ 0) :
      Clawed k denom l addr
        (l.fund k addr (Coins.ofCoin denom (l.state.balances addr denom)))

theorem fundCommunityPoolFrom_ok {l : Ledger} {sender : Address} {amount : Coins}
    (covered : amount ≤ l.state.balances sender) :
    l.state.fundCommunityPoolFrom k sender amount = .ok (l.fund k sender amount).state := by
  have sent := sendCoins_eq_ok.mpr
    ⟨covered, (rfl : _ = moveCoins l.state.balances sender k.distributionAddress amount)⟩
  rw [State.fundCommunityPoolFrom, sent]
  rfl

/-- The clawback of one account ends in one of these ways. -/
theorem clawbackEmptyAccount_clawed (k : Keeper) (denom : Denom) (l : Ledger) (addr : Address) :
    Clawed k denom l addr (clawbackEmptyAccount k denom l addr) := by
  -- Only an account that exists, is not vesting, and was never used is touched.
  unfold clawbackEmptyAccount
  cases found : l.accounts addr with
  | none => exact .ignored fun acc stored => by rw [found] at stored; cases stored
  | some acc =>
    dsimp only
    have same : ∀ other, l.accounts addr = some other → other = acc := fun other stored =>
      Option.some.inj (stored.symm.trans found)
    split
    · next vesting => exact .ignored fun other stored => .inl (by rw [same other stored, vesting])
    split
    · next used => exact .ignored fun other stored => .inr (by rw [same other stored]; exact used)
    split
    · next empty => exact .pruned empty
    · next holds =>
      rw [fundCommunityPoolFrom_ok (Coins.ofCoin_le_iff.mpr le_rfl)]
      exact .funded holds

/-- The escrow goes to the community pool, which changes nothing if it is empty. -/
theorem clawbackEscrowedTokens_eq (k : Keeper) (l : Ledger) :
    clawbackEscrowedTokens k l.state =
      .ok (l.fund k k.moduleAddress (l.state.balances k.moduleAddress)).state := by
  unfold clawbackEscrowedTokens
  dsimp only
  -- The source pays nothing for an empty escrow, and moving nothing is the same.
  split
  · next zero =>
    rw [Coins.isZero_iff] at zero
    rw [zero, Ledger.fund, moveCoins_zero, add_zero]
  · rw [fundCommunityPoolFrom_ok le_rfl]
    rfl

/-- The ledger after all accounts with records have been visited. -/
def Ledger.swept (k : Keeper) (denom : Denom) (l : Ledger) : Ledger :=
  (l.state.records.entries.map Prod.fst).foldl (clawbackEmptyAccount k denom)
    (l.fund k k.moduleAddress (l.state.balances k.moduleAddress))

/-- The end of the airdrop always succeeds: it sweeps, deletes the records, and disables claims. -/
theorem endAirdrop_eq (k : Keeper) (l : Ledger) (params : Params) :
    endAirdrop k l params = .ok
      { l.swept k params.claimsDenom with
        state :=
          { (l.swept k params.claimsDenom).state with
            params := { params with enableClaims := false }
            records := (l.state.records.entries.map Prod.fst).foldl Store.delete
              (l.swept k params.claimsDenom).state.records } } := by
  -- The escrow always covers itself, and the sweep returns no error.
  rw [endAirdrop, clawbackEscrowedTokens_eq]
  rfl

end Clawback

section Drains

/-- What the end of the airdrop can only do in one direction. -/
structure Drains (k : Keeper) (before after : Ledger) : Prop where
  -- Accounts are removed, never created.
  accounts : ∀ addr, after.accounts addr = before.accounts addr ∨ after.accounts addr = none
  -- Coins leave all accounts but one.
  balances : ∀ addr, addr ≠ k.distributionAddress →
    after.state.balances addr ≤ before.state.balances addr
  -- The recorded pool grows by at least what the distribution account receives.
  pool : before.state.communityPool + after.state.balances k.distributionAddress ≤
    after.state.communityPool + before.state.balances k.distributionAddress

theorem Drains.refl (l : Ledger) : Drains k l l :=
  ⟨fun _ => .inl rfl, fun _ _ => le_rfl, le_rfl⟩

theorem Drains.trans {first second third : Ledger} (drains : Drains k first second)
    (again : Drains k second third) : Drains k first third where
  accounts addr := by
    -- What is gone after the first part stays gone in the second.
    rcases again.accounts addr with same | gone
    · rw [same]
      exact drains.accounts addr
    · exact .inr gone
  balances addr elsewhere := (again.balances addr elsewhere).trans (drains.balances addr elsewhere)
  pool := by
    intro denom
    have first := drains.pool denom
    have second := again.pool denom
    simp only [DFinsupp.add_apply] at first second ⊢
    omega

/-- Paying into the community pool drains the payer. -/
theorem drains_fund {l : Ledger} {sender : Address} {amount : Coins}
    (covered : amount ≤ l.state.balances sender) : Drains k l (l.fund k sender amount) where
  accounts _ := .inl rfl
  balances addr elsewhere := by
    show moveCoins l.state.balances sender k.distributionAddress amount addr ≤ _
    by_cases own : addr = sender
    · subst own
      rw [moveCoins_from _ elsewhere]
      exact tsub_le_self
    · rw [moveCoins_of_ne _ own elsewhere]
  pool := by
    show l.state.communityPool + moveCoins l.state.balances sender k.distributionAddress amount
        k.distributionAddress ≤ l.state.communityPool + amount + _
    by_cases own : sender = k.distributionAddress
    · -- The distribution account pays itself, so only the record grows.
      subst own
      rw [moveCoins_self covered, add_right_comm]
      exact le_add_of_nonneg_right zero_le
    · rw [moveCoins_to _ own, add_right_comm, add_assoc]

theorem Clawed.drains {denom : Denom} {l after : Ledger} {addr : Address}
    (clawed : Clawed k denom l addr after) : Drains k l after := by
  -- The account is ignored, is pruned as empty, or pays its coins.
  cases clawed with
  | ignored => exact .refl l
  | pruned =>
    refine ⟨fun other => ?_, fun _ _ => le_rfl, le_rfl⟩
    by_cases own : other = addr
    · exact .inr (by rw [own]; exact Function.update_self ..)
    · exact .inl (Function.update_of_ne own ..)
  | funded => exact drains_fund (Coins.ofCoin_le_iff.mpr le_rfl)

theorem drains_foldl (denom : Denom) (addresses : List Address) (l : Ledger) :
    Drains k l (addresses.foldl (clawbackEmptyAccount k denom) l) := by
  induction addresses generalizing l with
  | nil => exact .refl l
  | cons addr addresses ih =>
    exact (clawbackEmptyAccount_clawed k denom l addr).drains.trans (ih _)

end Drains

section Spares

variable {app : App} {l last : Ledger} {denom : Denom} {acc : ModuleAccount}

/-- Module accounts are spared, and the community pool records what it receives. -/
structure Spares (app : App) (before after : Ledger) : Prop where
  -- The claims escrow and the distribution account apart, no module account pays or receives.
  unchanged : ∀ acc, acc ≠ .claims → acc ≠ .distribution →
    after.state.balances (app.modules.address acc) =
      before.state.balances (app.modules.address acc)
  -- No module account is removed.
  kept : ∀ acc, after.accounts (app.modules.address acc) =
    before.accounts (app.modules.address acc)
  -- The recorded pool grows by exactly what the distribution account receives.
  pool : after.state.communityPool + before.state.balances (app.modules.address .distribution) =
    before.state.communityPool + after.state.balances (app.modules.address .distribution)

theorem Spares.refl (l : Ledger) : Spares app l l :=
  ⟨fun _ _ _ => rfl, fun _ => rfl, rfl⟩

theorem Spares.trans {first second third : Ledger} (spares : Spares app first second)
    (again : Spares app second third) : Spares app first third where
  unchanged acc notClaims notDistribution :=
    (again.unchanged acc notClaims notDistribution).trans
      (spares.unchanged acc notClaims notDistribution)
  kept acc := (again.kept acc).trans (spares.kept acc)
  pool := by
    -- The pool and its account grow by the same amount in both steps.
    ext denom
    have first := DFunLike.congr_fun spares.pool denom
    have second := DFunLike.congr_fun again.pool denom
    simp only [DFinsupp.add_apply] at first second ⊢
    omega

/-- Payments of the claims escrow and of accounts that are no module accounts are in order. -/
theorem spares_fund {sender : Address} {amount : Coins}
    (outside : ∀ acc, acc ≠ .claims → app.modules.address acc ≠ sender) :
    Spares app l (l.fund app.keeper sender amount) where
  unchanged acc notClaims notDistribution :=
    moveCoins_of_ne _ (outside acc notClaims)
      (fun same => notDistribution (app.modules.injective same)) amount
  kept _ := rfl
  pool := by
    -- The payer is not the distribution account, which is credited as the pool is.
    have other : sender ≠ app.modules.address .distribution := (outside _ (by decide)).symm
    show l.state.communityPool + amount + _ = l.state.communityPool +
      moveCoins l.state.balances sender (app.modules.address .distribution) amount _
    rw [moveCoins_to _ other, add_right_comm, add_assoc]

theorem Clawed.spares {after : Ledger} {addr : Address}
    (clawed : Clawed app.keeper denom l addr after)
    (outside : ∀ acc, app.modules.address acc ≠ addr) : Spares app l after := by
  cases clawed with
  | ignored => exact .refl l
  | pruned => exact ⟨fun _ _ _ => rfl, fun acc => Function.update_of_ne (outside acc) .., rfl⟩
  | funded => exact spares_fund fun acc _ => outside acc

theorem spares_foldl (denom : Denom) {addresses : List Address}
    (outside : ∀ addr ∈ addresses, ∀ acc, app.modules.address acc ≠ addr) (l : Ledger) :
    Spares app l (addresses.foldl (clawbackEmptyAccount app.keeper denom) l) := by
  induction addresses generalizing l with
  | nil => exact .refl l
  | cons addr addresses ih =>
    -- One account after the other, and each of them is no module account.
    obtain ⟨head, tail⟩ := List.forall_mem_cons.mp outside
    exact ((clawbackEmptyAccount_clawed app.keeper denom l addr).spares head).trans (ih tail _)

/-- No module account has a claims record. -/
def NoModuleRecord (app : App) (s : State) : Prop :=
  ∀ acc, s.records.get? (app.modules.address acc) = none

/-- Without records of module accounts the end of the airdrop spares them. -/
theorem NoModuleRecord.spares (clean : NoModuleRecord app l.state) (denom : Denom) :
    Spares app l (l.swept app.keeper denom) := by
  -- The escrow is the only module account that pays before the sweep.
  have escrow : Spares app l (l.fund app.keeper app.keeper.moduleAddress
      (l.state.balances app.keeper.moduleAddress)) :=
    spares_fund fun acc notClaims same => notClaims (app.modules.injective same)
  refine escrow.trans (spares_foldl denom ?_ _)
  rintro addr listed acc rfl
  obtain ⟨entry, member, same⟩ := List.mem_map.mp listed
  exact Store.get?_eq_none.mp (clean acc) entry.2 (same ▸ member)

/-- Module accounts exist, are not vesting, and have never signed anything. -/
def ModulesUnused (app : App) (l : Ledger) : Prop :=
  ∀ acc, ∃ account, l.accounts (app.modules.address acc) = some account ∧
    account.isVesting = false ∧ account.sequence = 0

/-- An account that is gone at any time of the sweep is gone at the end. -/
theorem not_spares_of_removed {visited : Ledger} {account : Account}
    (present : l.accounts (app.modules.address acc) = some account)
    (gone : visited.accounts (app.modules.address acc) = none)
    (after : Drains app.keeper visited last) : ¬ Spares app l last := by
  intro spares
  -- No later step creates an account.
  have final : last.accounts (app.modules.address acc) = none := by
    rcases after.accounts (app.modules.address acc) with same | gone'
    · rw [same, gone]
    · exact gone'
  rw [spares.kept acc, present] at final
  cases final

/-- What the distribution account pays itself is recorded on top of its coins. -/
theorem not_spares_of_selfPaid {reached : Ledger}
    (before : Drains app.keeper l reached)
    (holds : reached.state.balances (app.modules.address .distribution) denom ≠ 0)
    (after : Drains app.keeper (reached.fund app.keeper (app.modules.address .distribution)
      (Coins.ofCoin denom (reached.state.balances (app.modules.address .distribution) denom)))
      last) : ¬ Spares app l last := by
  intro spares
  -- The surplus of the record never shrinks, and this payment adds to it.
  have earlierPool := before.pool denom
  have laterPool := after.pool denom
  have finalPool := DFunLike.congr_fun spares.pool denom
  have self : moveCoins reached.state.balances (app.modules.address .distribution)
      (app.modules.address .distribution) (Coins.ofCoin denom
        (reached.state.balances (app.modules.address .distribution) denom)) =
      reached.state.balances := moveCoins_self (Coins.ofCoin_le_iff.mpr le_rfl)
  simp only [Ledger.fund, App.keeper, self, DFinsupp.add_apply, Coins.amountOf_ofCoin_self]
    at earlierPool laterPool finalPool
  omega

/-- A module account that has paid into the pool has lost its coins for good. -/
theorem not_spares_of_paid {reached : Ledger}
    (notClaims : acc ≠ .claims) (notDistribution : acc ≠ .distribution)
    (before : Drains app.keeper l reached)
    (holds : reached.state.balances (app.modules.address acc) denom ≠ 0)
    (after : Drains app.keeper (reached.fund app.keeper (app.modules.address acc)
      (Coins.ofCoin denom (reached.state.balances (app.modules.address acc) denom))) last) :
    ¬ Spares app l last := by
  intro spares
  have elsewhere : app.modules.address acc ≠ app.keeper.distributionAddress := fun same =>
    notDistribution (app.modules.injective same)
  -- Nothing else credits the account, so it holds less at the end.
  have bound := before.balances _ elsewhere denom
  have lost := after.balances _ elsewhere denom
  have paid : (reached.fund app.keeper (app.modules.address acc) (Coins.ofCoin denom
      (reached.state.balances (app.modules.address acc) denom))).state.balances
        (app.modules.address acc) denom = 0 := by
    show moveCoins _ _ _ _ _ denom = 0
    rw [moveCoins_from _ elsewhere, DFinsupp.tsub_apply, Coins.amountOf_ofCoin_self]
    exact Nat.sub_self _
  rw [spares.unchanged acc notClaims notDistribution, paid] at lost
  exact holds (Nat.le_zero.mp (bound.trans lost))

/-- A module account that the sweep visits is not spared, the emptied escrow included. -/
theorem not_spares_of_visited {reached visited : Ledger} (unused : ModulesUnused app l)
    (before : Drains app.keeper l reached)
    (escrow : reached.state.balances (app.modules.address .claims) denom = 0)
    (clawed : Clawed app.keeper denom reached (app.modules.address acc) visited)
    (after : Drains app.keeper visited last) : ¬ Spares app l last := by
  obtain ⟨account, present, notVesting, unsigned⟩ := unused acc
  cases clawed with
  | ignored used =>
    -- The account is only ignored if it is gone already.
    rcases before.accounts (app.modules.address acc) with same | gone
    · rcases used account (same.trans present) with vesting | signed
      · rw [notVesting] at vesting
        cases vesting
      · exact absurd unsigned signed
    · exact not_spares_of_removed present gone after
  | pruned => exact not_spares_of_removed present (Function.update_self ..) after
  | funded holds =>
    by_cases escrowed : acc = .claims
    · subst escrowed
      exact absurd escrow holds
    by_cases own : acc = .distribution
    · subst own
      exact not_spares_of_selfPaid before holds after
    · exact not_spares_of_paid escrowed own before holds after

theorem not_spares_of_record (unused : ModulesUnused app l)
    (held : l.state.records.get? (app.modules.address acc) ≠ none) (denom : Denom) :
    ¬ Spares app l (l.swept app.keeper denom) := by
  obtain ⟨record, stored⟩ := Option.ne_none_iff_exists'.mp held
  have listed : app.modules.address acc ∈ l.state.records.entries.map Prod.fst :=
    List.mem_map_of_mem (Store.get?_eq_some.mp stored)
  -- The sweep reaches the account after some others, and goes on with the rest.
  obtain ⟨earlier, later, order⟩ := List.append_of_mem listed
  rw [Ledger.swept, order, List.foldl_append, List.foldl_cons]
  have paid : Drains app.keeper l (l.fund app.keeper app.keeper.moduleAddress
      (l.state.balances app.keeper.moduleAddress)) := drains_fund le_rfl
  have before := drains_foldl (k := app.keeper) denom earlier
    (l.fund app.keeper app.keeper.moduleAddress (l.state.balances app.keeper.moduleAddress))
  refine not_spares_of_visited unused (paid.trans before) ?_
    (clawbackEmptyAccount_clawed app.keeper denom _ (app.modules.address acc))
    (drains_foldl denom later _)
  -- The escrow was emptied before the sweep, and nothing is paid into it.
  have emptied := before.balances app.keeper.moduleAddress app.keeper.moduleDistinct denom
  have all : (l.fund app.keeper app.keeper.moduleAddress
      (l.state.balances app.keeper.moduleAddress)).state.balances app.keeper.moduleAddress = 0 :=
    (moveCoins_from _ app.keeper.moduleDistinct _).trans (tsub_self _)
  rw [all] at emptied
  exact Nat.le_zero.mp emptied

/-- The end of the airdrop spares the module accounts exactly when none has a record. -/
theorem endAirdrop_spares_iff (unused : ModulesUnused app l) (params : Params) :
    ∃ after, endAirdrop app.keeper l params = .ok after ∧
      (Spares app l after ↔ NoModuleRecord app l.state) := by
  refine ⟨_, endAirdrop_eq app.keeper l params, ?_⟩
  constructor
  · intro spares acc
    -- A module account with a record is unused, and so it is swept.
    by_contra held
    exact not_spares_of_record unused held params.claimsDenom
      ⟨spares.unchanged, spares.kept, spares.pool⟩
  · intro clean
    have spares := clean.spares params.claimsDenom
    exact ⟨spares.unchanged, spares.kept, spares.pool⟩

end Spares

section Records

variable {blockTime : Time} {s : State} {other addr : Address}

theorem held_of_set {records : Store Address ClaimsRecord} {cr : ClaimsRecord}
    (held : (records.set addr cr).get? other ≠ none) :
    other = addr ∨ records.get? other ≠ none := by
  by_cases same : other = addr
  · exact .inl same
  · rw [Store.get?_set_of_ne records same] at held
    exact .inr held

theorem held_of_delete {records : Store Address ClaimsRecord}
    (held : (records.delete addr).get? other ≠ none) : records.get? other ≠ none := by
  -- The deleted key is not found at all.
  by_cases same : other = addr
  · subst same
    exact absurd (Store.get?_delete_self records other) held
  · rwa [Store.get?_delete_of_ne records same] at held

/-- A claim stores a record for its account, or none. -/
theorem held_of_claim {cr : ClaimsRecord} {action : Action}
    (held : (claimCoinsForAction k blockTime s addr cr action).2.records.get? other ≠ none) :
    other = addr ∨ s.records.get? other ≠ none := by
  -- Every way out before the payment returns the state as it was.
  unfold claimCoinsForAction at held
  split at held
  · exact .inr held
  split at held
  · exact .inr held
  split at held
  · exact .inr held
  dsimp only at held
  split at held
  · exact .inr held
  split at held
  · exact .inr held
  next paid sent =>
  obtain ⟨-, -, pays⟩ := sendCoinsFromModuleToAccount_ok sent
  split at held
  · -- The payment stands, but no record is stored.
    exact .inr (pays.records ▸ held)
  · next funded done =>
    have records : funded.records = paid.records := by
      split at done
      · rw [Except.ok.inj done]
      · exact (fundCommunityPool_ok done).2.records
    rw [records, pays.records] at held
    exact held_of_set held

theorem held_of_hook {action : Action}
    (held : (claimOnHook k blockTime s addr action).records.get? other ≠ none) :
    s.records.get? other ≠ none := by
  unfold claimOnHook at held
  -- Without a record there is no claim.
  cases stored : s.records.get? addr with
  | none =>
    rw [stored] at held
    exact held
  | some cr =>
    rw [stored] at held
    rcases held_of_claim held with rfl | before
    · rw [stored]
      exact Option.some_ne_none cr
    · exact before

/-- A callback that claims for a stored record stores one only where there was one. -/
theorem held_of_keptClaim {cr : ClaimsRecord} {action : Action}
    (stored : s.records.get? addr = some cr)
    (held : (keepOnSuccess s
      ((claimCoinsForAction k blockTime s addr cr action).1.map fun _ => (),
        (claimCoinsForAction k blockTime s addr cr action).2)).records.get? other ≠ none) :
    s.records.get? other ≠ none := by
  have claims := @held_of_claim k blockTime s other addr cr action
  generalize claimCoinsForAction k blockTime s addr cr action = result at held claims
  obtain ⟨err | amount, after⟩ := result
  · exact held
  · -- The record that is written is the one that was found.
    rcases claims held with rfl | before
    · rw [stored]
      exact Option.some_ne_none cr
    · exact before

/-- An acknowledgement stores a record only where there was one. -/
theorem held_of_acknowledge {packet : Packet} {ack : Ack}
    (held : (keepOnSuccess s
      (onAcknowledgementPacket k blockTime s packet ack)).records.get? other ≠ none) :
    s.records.get? other ≠ none := by
  unfold onAcknowledgementPacket at held
  -- Only a successful acknowledgement for a stored record claims.
  split at held
  · exact held
  cases ack with
  | undecodable => exact held
  | error => exact held
  | success =>
    dsimp only at held
    split at held
    · exact held
    split at held
    · exact held
    next stored => exact held_of_keptClaim stored held

theorem onRecvPacket_unblocked {packet : Packet} {after : State} {sender recipient : Address}
    {spellings : String × String} (active : s.params.isClaimsActive blockTime = true)
    (decoded : getTransferSenderRecipient k packet = .ok (sender, recipient, spellings))
    (done : onRecvPacket k blockTime s packet = (.ok (), after)) :
    k.blockedAddr recipient = false := by
  simp only [onRecvPacket, active, decoded, Bool.not_true, Bool.false_eq_true, if_false] at done
  -- A blocked sender or recipient is refused first.
  split at done
  · cases done
  next open_ => exact (by simpa using open_ : _ ∧ k.blockedAddr recipient = false).2

/-- A settled packet stores a record where there was one, or moves the sender's to the recipient. -/
theorem Settled.held {packet : Packet} {sender recipient : Address} {after : State}
    (settled : Settled k blockTime s packet sender recipient after)
    (held : after.records.get? other ≠ none) :
    s.records.get? other ≠ none ∨ other = recipient ∧ s.records.get? sender ≠ none := by
  cases settled with
  | same => exact .inl held
  | claimed stored claimed =>
    rw [claimed.records] at held
    rcases held_of_set held with rfl | before
    · exact .inl (by rw [stored]; exact Option.some_ne_none _)
    · exact .inl before
  | migrated stored absent claimed =>
    have moved := held_of_delete held
    rw [claimed.records] at moved
    rcases held_of_set moved with rfl | before
    · exact .inr ⟨rfl, by rw [stored]; exact Option.some_ne_none _⟩
    · exact .inl before
  | @merged paid senderRecord recipientRecord _ merging merged =>
    rcases held_of_set (held_of_delete held) with rfl | before
    · exact .inl (by rw [merging.recipientStored]; exact Option.some_ne_none _)
    · -- The payment of a merge leaves the records.
      refine .inl ?_
      by_cases pays : PaysUser s.params blockTime senderRecord recipientRecord
      · rwa [(merged.paid pays).records] at before
      · rwa [merged.unpaid pays] at before

/-- A record is new at an address only if a packet from a holder names it, and it is not blocked. -/
theorem held_of_deliver {call : Event}
    (held : (call.deliver k blockTime s).records.get? other ≠ none) :
    s.records.get? other ≠ none ∨ ∃ packet sender spellings, call = .receive packet ∧
      getTransferSenderRecipient k packet = .ok (sender, other, spellings) ∧
      s.records.get? sender ≠ none ∧ k.blockedAddr other = false := by
  cases call with
  | vote voterAddr => exact .inl (held_of_hook held)
  | delegation delAddr => exact .inl (held_of_hook held)
  | evmTx fromAddr => exact .inl (held_of_hook held)
  | acknowledge packet ack => exact .inl (held_of_acknowledge held)
  | receive packet =>
    change (keepOnSuccess s (onRecvPacket k blockTime s packet)).records.get? other ≠ none at held
    cases active : s.params.isClaimsActive blockTime with
    | false => exact .inl (by simpa [onRecvPacket, active, keepOnSuccess] using held)
    | true =>
      rcases received : onRecvPacket k blockTime s packet with ⟨err | done, after⟩
      · rw [received] at held
        exact .inl held
      · rw [received] at held
        obtain ⟨sender, recipient, spellings, decoded, settled⟩ :=
          onRecvPacket_settled active received
        -- A merge or a migration writes at the recipient of the packet.
        rcases settled.held held with before | ⟨rfl, holder⟩
        · exact .inl before
        · exact .inr ⟨packet, sender, spellings, rfl, decoded, holder,
            onRecvPacket_unblocked active decoded received⟩

end Records

section Runs

variable {app : App}

/-- No packet from an account with a record names a module account that may receive coins. -/
def AvoidsModules (app : App) (s : State) (happening : Happening) : Prop :=
  ∀ blockTime packet sender recipient spellings, happening = .event blockTime (.receive packet) →
    getTransferSenderRecipient app.keeper packet = .ok (sender, recipient, spellings) →
    s.records.get? sender ≠ none →
    recipient ≠ app.modules.address .distribution ∧ recipient ≠ app.modules.address .incentives

theorem receiving_of_unblocked {acc : ModuleAccount}
    (unblocked : app.keeper.blockedAddr (app.modules.address acc) = false) :
    acc = .distribution ∨ acc = .incentives := by
  -- What is not blocked is on the list of those that may receive.
  have allowed : acc.allowedReceivingModAcc = true := by
    have blocked := app.modules.blockedAddr_address acc
    rw [show app.modules.blockedAddr (app.modules.address acc) = false from unblocked] at blocked
    simpa using blocked.symm
  cases acc with
  | distribution => exact .inl rfl
  | incentives => exact .inr rfl
  | _ => cases allowed

/-- Records do not reach module accounts that packets avoid. -/
theorem NoModuleRecord.step {before after : State} {happening : Happening}
    (clean : NoModuleRecord app before)
    (taken : Guarded (AvoidsModules app) (Happens app.keeper) before happening after) :
    NoModuleRecord app after := by
  -- A new record at a module account came by a packet, to one of the two that may receive.
  obtain ⟨avoids, rfl⟩ := taken
  cases happening with
  | others params balances communityPool => exact clean
  | event blockTime call =>
    intro acc
    by_contra held
    rcases held_of_deliver held with earlier | ⟨packet, sender, spellings, rfl, decoded, holder,
      unblocked⟩
    · exact earlier (clean acc)
    · obtain ⟨notDistribution, notIncentives⟩ :=
        avoids blockTime packet sender _ spellings rfl decoded holder
      rcases receiving_of_unblocked unblocked with rfl | rfl
      · exact notDistribution rfl
      · exact notIncentives rfl

/-- If packets avoid the module accounts, the end of the airdrop spares them. -/
theorem endAirdrop_spares_modules (app : App) {origin reached : State}
    {happenings : List Happening} (clean : NoModuleRecord app origin)
    (run : Run (Guarded (AvoidsModules app) (Happens app.keeper)) origin happenings reached)
    (accounts : Address → Option Account) (params : Params) :
    ∃ after, endAirdrop app.keeper ⟨reached, accounts⟩ params = .ok after ∧
      Spares app ⟨reached, accounts⟩ after := by
  -- No packet has moved a record to a module account.
  have last : NoModuleRecord app reached :=
    Run.invariant (NoModuleRecord app) NoModuleRecord.step clean run
  have spares := NoModuleRecord.spares (l := ⟨reached, accounts⟩) last params.claimsDenom
  exact ⟨_, endAirdrop_eq app.keeper ⟨reached, accounts⟩ params, spares.unchanged, spares.kept,
    spares.pool⟩

end Runs

section Evaluation

/-- An application whose module accounts have the first addresses, spelled in unary. -/
def unaryApp : App where
  modules :=
    { address := fun acc => ModuleAccount.maccPerms.idxOf acc + 1
      injective := by
        intro acc other same
        cases acc <;> cases other <;> first | rfl | cases same }
  bech32 := .unary
  evmosAddress := Bech32.unary.decode
  isInteger _ := true

/-- Account twelve has a record of eight, which the escrow covers, and a module holds a hundred. -/
def oneRecord : State where
  params :=
    { enableClaims := true
      airdropStartTime := 0
      durationUntilDecay := 10
      durationOfDecay := 10
      claimsDenom := "aevmos"
      authorizedChannels := ["channel-0"]
      evmChannels := [] }
  records := Store.empty.set 12 (newClaimsRecord 8)
  balances addr :=
    if addr = 10 then Coins.ofCoin "aevmos" 8
    else if addr = 11 then Coins.ofCoin "aevmos" 100 else 0
  communityPool := 0

/-- A packet of account twelve that moves its record. -/
def movingPacket (receiver : String) : Packet where
  destinationChannel := "channel-0"
  data := some ⟨"111111111111", receiver, "63743"⟩

/-- Every address has an account that was never used. -/
def unusedAccounts (_ : Address) : Option Account := some ⟨false, 0⟩

/-- A record that moves to another user is swept there. -/
theorem moved_record_spares_modules : ∃ reached after,
    Run (Guarded (AvoidsModules unaryApp) (Happens unaryApp.keeper)) oneRecord
      [.event 1 (.receive (movingPacket "1111111111111"))] reached ∧
    endAirdrop unaryApp.keeper ⟨reached, unusedAccounts⟩ oneRecord.params = .ok after ∧
    Spares unaryApp ⟨reached, unusedAccounts⟩ after := by
  have run : Run (Guarded (AvoidsModules unaryApp) (Happens unaryApp.keeper)) oneRecord
      [.event 1 (.receive (movingPacket "1111111111111"))]
      (Happening.perform unaryApp.keeper oneRecord
        (.event 1 (.receive (movingPacket "1111111111111")))) := by
    refine .extend .start ⟨?_, rfl⟩
    rintro blockTime packet sender recipient spellings ⟨⟩ decoded -
    -- The packet names one recipient, who is a user.
    have named : recipient = 13 := (Prod.mk.inj (Prod.mk.inj (Except.ok.inj decoded)).2).1.symm
    subst named
    decide
  obtain ⟨after, ended, spares⟩ := endAirdrop_spares_modules unaryApp
    (fun acc => by cases acc <;> rfl) run unusedAccounts oneRecord.params
  exact ⟨_, after, run, ended, spares⟩

/-- A record that moves to the incentives account costs it everything it holds. -/
theorem incentives_account_is_swept : ∃ reached after,
    Run (Happens unaryApp.keeper) oneRecord
      [.event 1 (.receive (movingPacket "11111111111"))] reached ∧
    unaryApp.keeper.blockedAddr 12 = false ∧ unaryApp.keeper.blockedAddr 11 = false ∧
    ModulesUnused unaryApp ⟨reached, unusedAccounts⟩ ∧
    endAirdrop unaryApp.keeper ⟨reached, unusedAccounts⟩ oneRecord.params = .ok after ∧
    reached.balances (unaryApp.modules.address .incentives) "aevmos" = 102 ∧
    after.state.balances (unaryApp.modules.address .incentives) "aevmos" = 0 := by
  -- The account may receive packets, and has never signed.
  refine ⟨_, _, .extend .start rfl, by decide, by decide, fun acc => ⟨_, rfl, rfl, rfl⟩, rfl,
    ?_, ?_⟩
  · decide +kernel
  · decide +kernel

end Evaluation

end Evmos.Claims
