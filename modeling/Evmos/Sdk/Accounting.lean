import Evmos.Sdk.Bank

/-! What may happen to the bank: who pays, which coins are issued, and which may be lost. -/

namespace Evmos

namespace Bank

/-- All accounts together hold so much of a coin. -/
def Held (bank : Bank) (denom : Denom) (total : ℕ) : Prop :=
  ∃ holders : Finset Address, (∀ addr ∉ holders, bank.balances addr denom = 0) ∧
    ∑ addr ∈ holders, bank.balances addr denom = total

/-- All accounts together hold the supply of a coin. -/
def Balanced (bank : Bank) (denom : Denom) : Prop := bank.Held denom (bank.supply denom)

/-- All accounts together hold no more than the supply of a coin. -/
def Covered (bank : Bank) (denom : Denom) : Prop :=
  ∃ total ≤ bank.supply denom, bank.Held denom total

/--
What has happened to the bank.

Only payers have lost coins, only issued denominations have another supply, and only lost ones may
have left the accounts while they stay in the supply.
-/
structure Altered (payers : Set Address) (issued lost : Set Denom) (before after : Bank) : Prop where
  kept : ∀ addr ∉ payers, before.balances addr ≤ after.balances addr
  supply : ∀ denom ∉ issued, after.supply denom = before.supply denom
  covered : ∀ denom, before.Covered denom → after.Covered denom
  balanced : ∀ denom ∉ lost, before.Balanced denom → after.Balanced denom

/-- A change in which no coin is lost. -/
abbrev Changed (payers : Set Address) (issued : Set Denom) : Bank → Bank → Prop :=
  Altered payers issued ∅

section Balance

variable {bank : Bank} {denom : Denom} {total : ℕ} {holders others : Finset Address}

theorem sum_balances_of_subset (among : holders ⊆ others)
    (empty : ∀ addr ∉ holders, bank.balances addr denom = 0) :
    ∑ addr ∈ others, bank.balances addr denom = ∑ addr ∈ holders, bank.balances addr denom := by
  symm
  apply Finset.sum_subset among
  -- An account that is counted only now holds nothing.
  intro addr _ outside
  exact empty addr outside

/-- A transfer takes the coins from one account and gives them to one account. -/
theorem moveCoins_add {balances : Balances} {fromAddr : Address} {amt : Coins}
    (covered : amt ≤ balances fromAddr) (toAddr addr : Address) :
    moveCoins balances fromAddr toAddr amt addr + (if addr = fromAddr then amt else 0) =
      balances addr + (if addr = toAddr then amt else 0) := by
  by_cases self : fromAddr = toAddr
  · -- A payment to itself changes nothing.
    subst self
    rw [moveCoins_self covered]
  by_cases payer : addr = fromAddr
  · subst payer
    rw [moveCoins_from _ self, if_pos rfl, if_neg self, add_zero, tsub_add_cancel_of_le covered]
  by_cases payee : addr = toAddr
  · subst payee
    rw [moveCoins_to _ self, if_neg payer, if_pos rfl, add_zero]
  · rw [moveCoins_of_ne _ payer payee, if_neg payer, if_neg payee]

/-- A transfer that is covered leaves all accounts together what they had. -/
theorem Held.moveCoins {fromAddr toAddr : Address} {amt : Coins} (held : bank.Held denom total)
    (covered : amt ≤ bank.balances fromAddr) :
    Held ⟨Evmos.moveCoins bank.balances fromAddr toAddr amt, bank.supply⟩ denom total := by
  obtain ⟨holders, empty, total⟩ := held
  refine ⟨insert fromAddr (insert toAddr holders), ?_, ?_⟩
  · intro addr outside
    simp only [Finset.mem_insert, not_or] at outside
    obtain ⟨notFrom, notTo, notHolder⟩ := outside
    show Evmos.moveCoins bank.balances fromAddr toAddr amt addr denom = 0
    rw [moveCoins_of_ne _ notFrom notTo, empty addr notHolder]
  · -- Both sides of the transfer are among the accounts that are counted.
    have among : holders ⊆ insert fromAddr (insert toAddr holders) := by
      intro addr member
      simp [member]
    have moved := Finset.sum_congr (rfl : insert fromAddr (insert toAddr holders) = _)
      fun addr _ => moveCoins_add covered toAddr addr
    rw [Finset.sum_add_distrib, Finset.sum_add_distrib, Finset.sum_ite_eq', Finset.sum_ite_eq',
      if_pos (Finset.mem_insert_self _ _),
      if_pos (Finset.mem_insert_of_mem (Finset.mem_insert_self _ _))] at moved
    have amounts := congrArg (fun coins : Coins => coins denom) (add_right_cancel moved)
    simp only [DFinsupp.finsetSum_apply] at amounts
    rw [sum_balances_of_subset among empty, total] at amounts
    exact amounts

theorem sum_update_add (balances : Balances) (addr : Address) (coins : Coins)
    (member : addr ∈ holders) :
    ∑ other ∈ holders, Function.update balances addr coins other + balances addr =
      ∑ other ∈ holders, balances other + coins := by
  -- The account is split off both sums, which agree on all others.
  rw [Finset.sum_update_of_mem member, ← Finset.add_sum_erase holders balances member,
    Finset.sdiff_singleton_eq_erase]
  abel

/-- Another balance of one account changes the total by as much. -/
theorem Held.update {addr : Address} {coins supply : Coins} {sum : ℕ} (held : bank.Held denom total)
    (alike : sum + bank.balances addr denom = total + coins denom) :
    Held ⟨Function.update bank.balances addr coins, supply⟩ denom sum := by
  obtain ⟨holders, empty, total⟩ := held
  -- The account is counted too, whether or not it was before.
  refine ⟨insert addr holders, ?_, ?_⟩
  · intro other outside
    simp only [Finset.mem_insert, not_or] at outside
    show Function.update bank.balances addr coins other denom = 0
    rw [Function.update_of_ne outside.1, empty other outside.2]
  · have changed := congrArg (fun sum : Coins => sum denom)
      (sum_update_add bank.balances addr coins (Finset.mem_insert_self addr holders))
    simp only [DFinsupp.add_apply, DFinsupp.finsetSum_apply] at changed
    rw [sum_balances_of_subset (Finset.subset_insert addr holders) empty, total, ← alike] at changed
    exact Nat.add_right_cancel changed

theorem Held.balance_le (held : bank.Held denom total) (addr : Address) :
    bank.balances addr denom ≤ total := by
  obtain ⟨holders, empty, rfl⟩ := held
  -- An account that is not counted holds nothing.
  by_cases member : addr ∈ holders
  · exact Finset.single_le_sum (f := fun addr => bank.balances addr denom)
      (fun _ _ => Nat.zero_le _) member
  · rw [empty addr member]
    exact Nat.zero_le _

end Balance

namespace Altered

variable {payers others : Set Address} {issued more lost gone : Set Denom}
  {bank before between after : Bank} {amt : Coins} {moduleAddr : Address}

theorem refl (bank : Bank) : Altered payers issued lost bank bank where
  kept _ _ := le_rfl
  supply _ _ := rfl
  covered _ := id
  balanced _ _ := id

theorem trans (first : Altered payers issued lost before between)
    (second : Altered payers issued lost between after) :
    Altered payers issued lost before after where
  kept addr outside := (first.kept addr outside).trans (second.kept addr outside)
  supply denom outside := (second.supply denom outside).trans (first.supply denom outside)
  covered denom held := second.covered denom (first.covered denom held)
  balanced denom outside held := second.balanced denom outside (first.balanced denom outside held)

/-- More accounts may have paid, and more denominations may have been issued or lost. -/
theorem widen (altered : Altered payers issued lost before after) (pays : payers ⊆ others)
    (issues : issued ⊆ more) (loses : lost ⊆ gone) : Altered others more gone before after where
  kept addr outside := altered.kept addr fun payer => outside (pays payer)
  supply denom outside := altered.supply denom fun issue => outside (issues issue)
  covered := altered.covered
  balanced denom outside := altered.balanced denom fun lost => outside (loses lost)

theorem mono (altered : Altered payers issued lost before after) (pays : payers ⊆ others)
    (issues : issued ⊆ more) : Altered others more lost before after :=
  altered.widen pays issues subset_rfl

theorem of_moveCoins {fromAddr toAddr : Address} (covered : amt ≤ bank.balances fromAddr)
    (payer : fromAddr ∈ payers) :
    Altered payers issued lost bank ⟨moveCoins bank.balances fromAddr toAddr amt, bank.supply⟩ where
  kept addr outside := by
    -- Whoever is no payer can only receive.
    have notFrom : addr ≠ fromAddr := fun same => outside (same ▸ payer)
    have moved := moveCoins_add covered toAddr addr
    rw [if_neg notFrom, add_zero] at moved
    show bank.balances addr ≤ moveCoins bank.balances fromAddr toAddr amt addr
    rw [moved]
    exact le_self_add
  supply _ _ := rfl
  covered _ := fun ⟨total, within, held⟩ => ⟨total, within, held.moveCoins covered⟩
  balanced _ _ held := held.moveCoins covered

theorem of_sendCoins {fromAddr toAddr : Address} (payer : fromAddr ∈ payers)
    (sent : bank.sendCoins fromAddr toAddr amt = .ok after) :
    Altered payers issued lost bank after := by
  obtain ⟨covered, rfl⟩ := sendCoins_eq_ok.mp sent
  exact of_moveCoins covered payer

theorem of_sendCoinsFromModuleToAccount {bech32 : Bech32} {blockedAddr : Address → Bool}
    {recipient : Address} (payer : moduleAddr ∈ payers)
    (sent : bank.sendCoinsFromModuleToAccount bech32 blockedAddr moduleAddr recipient amt =
      .ok after) : Altered payers issued lost bank after := by
  obtain ⟨-, covered, rfl⟩ := sendCoinsFromModuleToAccount_eq_ok.mp sent
  exact of_moveCoins covered payer

theorem of_sendCoinsFromAccountToModule {locked : Coins} {sender : Address}
    (payer : sender ∈ payers)
    (sent : bank.sendCoinsFromAccountToModule locked sender moduleAddr amt = .ok after) :
    Altered payers issued lost bank after := by
  simp only [sendCoinsFromAccountToModule] at sent
  split_ifs at sent with spendable
  obtain rfl := Except.ok.inj sent
  -- What can be spent is part of the balance.
  have covered := ((Coins.isAllLTE_iff _ _).mp spendable).trans tsub_le_self
  exact of_moveCoins covered payer

theorem of_mintCoins (bank : Bank) (moduleAddr : Address)
    (issues : ∀ denom, amt denom ≠ 0 → denom ∈ issued) :
    Altered payers issued lost bank (bank.mintCoins moduleAddr amt) where
  kept addr _ := by
    -- The module account gains what the supply gains.
    by_cases here : addr = moduleAddr
    · subst here
      simp [mintCoins]
    · simp [mintCoins, here]
  supply denom outside := by
    have none : amt denom = 0 := by
      by_contra some
      exact outside (issues denom some)
    simp [none]
  covered denom := fun ⟨total, within, held⟩ => by
    refine ⟨total + amt denom, ?_, held.update ?_⟩
    · rw [mintCoins_supply]
      omega
    · simp only [DFinsupp.add_apply]
      omega
  balanced denom _ held := by
    unfold Balanced
    rw [mintCoins_supply]
    apply held.update
    simp only [DFinsupp.add_apply]
    omega

/-- Burning takes the coins from the module account. -/
theorem of_burnCoins (payer : moduleAddr ∈ payers)
    (issues : ∀ denom, amt denom ≠ 0 → denom ∈ issued)
    (burned : bank.burnCoins moduleAddr amt = .ok after) :
    Altered payers issued lost bank after := by
  have amounts := burnCoins_ok burned
  simp only [burnCoins] at burned
  split_ifs at burned with held
  obtain ⟨supply, -, same⟩ := bind_eq_ok.mp burned
  obtain rfl := Except.ok.inj same
  have covered := (Coins.isAllLTE_iff _ _).mp held
  refine ⟨?_, ?_, ?_, ?_⟩
  · intro addr outside
    have other : addr ≠ moduleAddr := fun same => outside (same ▸ payer)
    show bank.balances addr ≤ Function.update bank.balances moduleAddr _ addr
    rw [Function.update_of_ne other]
  · intro denom outside
    have none : amt denom = 0 := by
      by_contra some
      exact outside (issues denom some)
    have supplied := (amounts denom).1
    rw [none, add_zero] at supplied
    exact supplied
  -- The account and the supply lose the same coins.
  all_goals
    intro denom
    have supplied := (amounts denom).1
    have enough : amt denom ≤ bank.balances moduleAddr denom := covered denom
    simp only at supplied
  · rintro ⟨total, within, held⟩
    have part := held.balance_le moduleAddr
    refine ⟨total - amt denom, ?_, held.update ?_⟩
    · show total - amt denom ≤ supply denom
      omega
    · simp only [DFinsupp.tsub_apply]
      omega
  · intro _ held
    apply Held.update held
    simp only [DFinsupp.tsub_apply]
    omega

/-- What a failed payment of a module account has debited stays in the supply. -/
theorem of_failedSend (blockedAddr : Address → Bool) {recipient : Address}
    (payer : moduleAddr ∈ payers)
    (loses : blockedAddr recipient = false → ∀ denom,
      amt.beforeMissing (bank.balances moduleAddr) denom ≠ 0 → denom ∈ lost) :
    Altered payers issued lost bank
      (bank.afterFailedSend blockedAddr moduleAddr recipient amt) := by
  unfold afterFailedSend
  split_ifs with blocked
  · -- A blocked recipient is refused before anything is debited.
    exact refl bank
  have covered := Coins.beforeMissing_le amt (bank.balances moduleAddr)
  refine ⟨?_, fun _ _ => rfl, ?_, ?_⟩
  · intro addr outside
    have other : addr ≠ moduleAddr := fun same => outside (same ▸ payer)
    show bank.balances addr ≤ Function.update bank.balances moduleAddr _ addr
    rw [Function.update_of_ne other]
  · rintro denom ⟨total, within, held⟩
    have part := held.balance_le moduleAddr
    have enough : amt.beforeMissing _ denom ≤ bank.balances moduleAddr denom := covered denom
    refine ⟨total - amt.beforeMissing (bank.balances moduleAddr) denom,
      (Nat.sub_le _ _).trans within, held.update ?_⟩
    simp only [DFinsupp.tsub_apply]
    omega
  · intro denom outside held
    have none : amt.beforeMissing (bank.balances moduleAddr) denom = 0 := by
      by_contra some
      exact outside (loses (Bool.eq_false_iff.mpr blocked) denom some)
    apply Held.update held
    simp only [DFinsupp.tsub_apply, none]
    omega

end Altered

end Bank

/-- What has happened to the balances of a bank whose supply stays as it is. -/
def BalancesChanged (payers : Set Address) (before after : Balances) : Prop :=
  ∀ supply, Bank.Changed payers ∅ ⟨before, supply⟩ ⟨after, supply⟩

namespace BalancesChanged

variable {payers others : Set Address} {before between after : Balances}

theorem refl (balances : Balances) : BalancesChanged payers balances balances :=
  fun _ => .refl _

theorem trans (first : BalancesChanged payers before between)
    (second : BalancesChanged payers between after) : BalancesChanged payers before after :=
  fun supply => (first supply).trans (second supply)

theorem mono (changed : BalancesChanged payers before after) (pays : payers ⊆ others) :
    BalancesChanged others before after :=
  fun supply => (changed supply).mono pays (Set.empty_subset ∅)

theorem of_moveCoins {fromAddr toAddr : Address} {amt : Coins} (payer : fromAddr ∈ payers)
    (covered : amt ≤ before fromAddr) :
    BalancesChanged payers before (moveCoins before fromAddr toAddr amt) := by
  intro supply
  have paid : Bank.Changed payers ∅ ⟨before, supply⟩ ⟨moveCoins before fromAddr toAddr amt, supply⟩ :=
    .of_moveCoins covered payer
  exact paid

end BalancesChanged

end Evmos
