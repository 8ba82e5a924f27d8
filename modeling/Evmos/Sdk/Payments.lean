import Evmos.Sdk.Bank

/-! What a list of payments out of one account does to the balances of all accounts. -/

namespace Evmos

/-- What an account receives out of a list of payments. -/
def receivedBy (payments : List (Address × Coins)) (addr : Address) : Coins :=
  ((payments.filter fun payment => payment.1 = addr).map Prod.snd).sum

section Received

variable {payments more : List (Address × Coins)} {addr : Address} {coins : Coins}

@[simp] theorem receivedBy_nil (addr : Address) : receivedBy [] addr = 0 := rfl

theorem receivedBy_cons (recipient : Address) (coins : Coins) (payments : List (Address × Coins))
    (addr : Address) :
    receivedBy ((recipient, coins) :: payments) addr =
      (if recipient = addr then coins else 0) + receivedBy payments addr := by
  unfold receivedBy
  -- The first payment counts for its recipient only.
  by_cases here : recipient = addr
  · simp [here]
  · simp [here]

theorem receivedBy_append (payments more : List (Address × Coins)) (addr : Address) :
    receivedBy (payments ++ more) addr = receivedBy payments addr + receivedBy more addr := by
  unfold receivedBy
  rw [List.filter_append, List.map_append, List.sum_append]

theorem receivedBy_of_notMem (absent : addr ∉ payments.map Prod.fst) :
    receivedBy payments addr = 0 := by
  -- The filter finds no payment at all.
  have none : (payments.filter fun payment => payment.1 = addr) = [] := by
    refine List.filter_eq_nil_iff.mpr ?_
    intro payment member here
    exact absent (List.mem_map.mpr ⟨payment, member, by simpa using here⟩)
  rw [receivedBy, none, List.map_nil, List.sum_nil]

/-- All payments together are what their recipients receive. -/
theorem sum_receivedBy {recipients : Finset Address}
    (among : ∀ payment ∈ payments, payment.1 ∈ recipients) :
    ∑ addr ∈ recipients, receivedBy payments addr = (payments.map Prod.snd).sum := by
  induction payments with
  | nil => simp
  | cons payment payments ih =>
    obtain ⟨recipient, coins⟩ := payment
    obtain ⟨first, rest⟩ := List.forall_mem_cons.mp among
    -- Exactly one recipient receives the first payment.
    simp only [receivedBy_cons, Finset.sum_add_distrib, ih rest, List.map_cons, List.sum_cons,
      Finset.sum_ite_eq, if_pos first]

end Received

/-- Payments have been made out of a module account, and nothing else has happened to the bank. -/
structure PaidOut (moduleAddr : Address) (payments : List (Address × Coins))
    (before after : Bank) : Prop where
  supply : after.supply = before.supply
  escrow : after.balances moduleAddr + (payments.map Prod.snd).sum = before.balances moduleAddr
  accounts : ∀ addr, addr ≠ moduleAddr →
    after.balances addr = before.balances addr + receivedBy payments addr

namespace PaidOut

variable {moduleAddr : Address} {payments more : List (Address × Coins)} {first second third : Bank}

theorem refl (bank : Bank) : PaidOut moduleAddr [] bank bank where
  supply := rfl
  escrow := by simp
  accounts addr _ := by simp

theorem trans (paid : PaidOut moduleAddr payments first second)
    (again : PaidOut moduleAddr more second third) :
    PaidOut moduleAddr (payments ++ more) first third where
  supply := again.supply.trans paid.supply
  escrow := by
    -- What is left, and both sums that were paid, are what there was at first.
    rw [List.map_append, List.sum_append, add_comm (payments.map Prod.snd).sum, ← add_assoc,
      again.escrow, paid.escrow]
  accounts addr elsewhere := by
    rw [again.accounts addr elsewhere, paid.accounts addr elsewhere, receivedBy_append, add_assoc]

/-- A transfer of a module account to another one is one payment. -/
theorem of_sendCoinsFromModuleToAccount {bech32 : Bech32} {blockedAddr : Address → Bool}
    {recipient : Address} {amt : Coins} (elsewhere : recipient ≠ moduleAddr)
    (sent : first.sendCoinsFromModuleToAccount bech32 blockedAddr moduleAddr recipient amt =
      .ok second) : PaidOut moduleAddr [(recipient, amt)] first second := by
  -- The recipient is another account, so the transfer debits one balance and credits one.
  obtain ⟨-, covered, rfl⟩ := Bank.sendCoinsFromModuleToAccount_eq_ok.mp sent
  refine ⟨rfl, ?_, ?_⟩
  · show moveCoins first.balances moduleAddr recipient amt moduleAddr + _ = _
    rw [moveCoins_from _ elsewhere.symm, List.map_singleton, List.sum_singleton,
      tsub_add_cancel_of_le covered]
  · intro addr other
    show moveCoins first.balances moduleAddr recipient amt addr = _
    rw [receivedBy_cons, receivedBy_nil, add_zero]
    by_cases here : recipient = addr
    · subst here
      rw [if_pos rfl, moveCoins_to _ elsewhere.symm]
    · rw [if_neg here, add_zero, moveCoins_of_ne _ other (Ne.symm here)]

/-- The module account loses exactly what the recipients gain. -/
theorem escrow_add_sum (paid : PaidOut moduleAddr payments first second)
    (outside : ∀ payment ∈ payments, payment.1 ≠ moduleAddr) (denom : Denom) :
    second.balances moduleAddr denom + ∑ addr ∈ (payments.map Prod.fst).toFinset,
        (second.balances addr denom - first.balances addr denom) =
      first.balances moduleAddr denom := by
  -- A recipient may be paid several times; its gain is the sum of its payments.
  have among : ∀ payment ∈ payments, payment.1 ∈ (payments.map Prod.fst).toFinset :=
    fun payment member => List.mem_toFinset.mpr (List.mem_map_of_mem member)
  have gains : ∀ addr ∈ (payments.map Prod.fst).toFinset,
      second.balances addr denom - first.balances addr denom = receivedBy payments addr denom := by
    intro addr member
    obtain ⟨payment, listed, rfl⟩ := List.mem_map.mp (List.mem_toFinset.mp member)
    rw [paid.accounts _ (outside payment listed), DFinsupp.add_apply, Nat.add_sub_cancel_left]
  -- Summed over the recipients, every payment is counted once.
  have total := DFunLike.congr_fun (sum_receivedBy among) denom
  rw [DFinsupp.finsetSum_apply] at total
  rw [Finset.sum_congr rfl gains, total, ← DFinsupp.add_apply, paid.escrow]

end PaidOut

end Evmos
