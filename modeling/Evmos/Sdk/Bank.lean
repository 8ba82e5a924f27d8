import Evmos.Sdk.Types

/-! The bank as the modules use it: balances, supply, and transfers of coins that are not locked. -/

namespace Evmos

/-- The balances of the bank store. -/
abbrev Balances := Address → Coins

/-- Moves coins between two balances, which may be the same one. -/
def moveCoins (balances : Balances) (fromAddr toAddr : Address) (amt : Coins) : Balances :=
  let debited := Function.update balances fromAddr (balances fromAddr - amt)
  Function.update debited toAddr (debited toAddr + amt)

/-- The error of `subUnlockedCoins`, which names the first coin that is not covered. -/
def insufficientFunds (spendable amt : Coins) : Err :=
  let missing := amt.toList.find? fun coin => spendable coin.1 < coin.2
  ⟨.errInsufficientFunds, missing.elim "" fun (denom, amount) =>
    s!"{spendable denom}{denom} is smaller than {amount}{denom}"⟩

/--
`BankKeeper.SendCoins` from an account that locks nothing, such as a module account.

It debits one coin after the other. A transaction drops what was debited before the error, and
`Bank.afterFailedSend` is what is left where there is no transaction.
-/
def sendCoins (balances : Balances) (fromAddr toAddr : Address) (amt : Coins) : Result Balances :=
  if amt.isAllLTE (balances fromAddr) then .ok (moveCoins balances fromAddr toAddr amt)
  else .error (insufficientFunds (balances fromAddr) amt)

/-- The bank store: what every account holds, and how much of each coin there is. -/
structure Bank where
  balances : Balances
  supply : Coins

namespace Bank

/-- `BankKeeper.MintCoins`, to a module account that may mint. -/
def mintCoins (bank : Bank) (moduleAddr : Address) (amt : Coins) : Bank where
  balances := Function.update bank.balances moduleAddr (bank.balances moduleAddr + amt)
  supply := bank.supply + amt

/-- `BankKeeper.SendCoins` and its variants between module accounts. -/
def sendCoins (bank : Bank) (fromAddr toAddr : Address) (amt : Coins) : Result Bank := do
  let balances ← Evmos.sendCoins bank.balances fromAddr toAddr amt
  .ok { bank with balances := balances }

/-- `BankKeeper.SendCoinsFromModuleToAccount`, which refuses blocked recipients. -/
def sendCoinsFromModuleToAccount (bech32 : Bech32) (blockedAddr : Address → Bool) (bank : Bank)
    (moduleAddr recipient : Address) (amt : Coins) : Result Bank :=
  if blockedAddr recipient then
    .error ⟨.errUnauthorized, bech32.encode recipient ++ " is not allowed to receive funds"⟩
  else bank.sendCoins moduleAddr recipient amt

/--
The bank after `SendCoinsFromModuleToAccount` has returned an error that its caller ignores.

The coins before the missing one are debited, and nobody receives them.
-/
def afterFailedSend (blockedAddr : Address → Bool) (bank : Bank) (moduleAddr recipient : Address)
    (amt : Coins) : Bank :=
  if blockedAddr recipient then bank
  else
    let balance := bank.balances moduleAddr
    { bank with
      balances := Function.update bank.balances moduleAddr (balance - amt.beforeMissing balance) }

/-- `BankKeeper.SendCoinsFromAccountToModule`, of coins that are not locked in the account. -/
def sendCoinsFromAccountToModule (bank : Bank) (locked : Coins) (sender moduleAddr : Address)
    (amt : Coins) : Result Bank :=
  let spendable := bank.balances sender - locked
  if amt.isAllLTE spendable then
    .ok { bank with balances := moveCoins bank.balances sender moduleAddr amt }
  else .error (insufficientFunds spendable amt)

/-- `BankKeeper.BurnCoins`, from a module account that may burn. -/
def burnCoins (bank : Bank) (moduleAddr : Address) (amt : Coins) : Result Bank :=
  let balance := bank.balances moduleAddr
  if amt.isAllLTE balance then do
    let supply ← orPanic "negative coin amount" (bank.supply.sub amt)
    .ok ⟨Function.update bank.balances moduleAddr (balance - amt), supply⟩
  else .error (insufficientFunds balance amt)

/-- `BankKeeper.HasSupply`. -/
def hasSupply (bank : Bank) (denom : Denom) : Bool := bank.supply denom ≠ 0

end Bank

/-- `sdk.NewCoin`, which panics on a negative amount. -/
def newCoin (denom : Denom) (amount : ℤ) : Result Coins :=
  if amount < 0 then .error ⟨.panic, "negative coin amount: " ++ toString amount⟩
  else .ok (Coins.ofCoin denom amount.toNat)

@[simp] theorem moveCoins_zero (balances : Balances) (fromAddr toAddr : Address) :
    moveCoins balances fromAddr toAddr 0 = balances := by
  simp [moveCoins]

variable {fromAddr toAddr : Address}

theorem moveCoins_from (balances : Balances) (distinct : fromAddr ≠ toAddr) (amt : Coins) :
    moveCoins balances fromAddr toAddr amt fromAddr = balances fromAddr - amt := by
  simp [moveCoins, distinct]

theorem moveCoins_to (balances : Balances) (distinct : fromAddr ≠ toAddr) (amt : Coins) :
    moveCoins balances fromAddr toAddr amt toAddr = balances toAddr + amt := by
  simp [moveCoins, distinct.symm]

theorem moveCoins_self {balances : Balances} {addr : Address} {amt : Coins}
    (covered : amt ≤ balances addr) : moveCoins balances addr addr amt = balances := by
  simp [moveCoins, tsub_add_cancel_of_le covered]

theorem moveCoins_of_ne (balances : Balances) {addr : Address} (notFrom : addr ≠ fromAddr)
    (notTo : addr ≠ toAddr) (amt : Coins) :
    moveCoins balances fromAddr toAddr amt addr = balances addr := by
  simp [moveCoins, notFrom, notTo]

theorem le_moveCoins_from {balances : Balances} {amt rest : Coins}
    (covered : amt + rest ≤ balances fromAddr) (toAddr : Address) :
    rest ≤ moveCoins balances fromAddr toAddr amt fromAddr := by
  by_cases self : fromAddr = toAddr
  · -- A payment to itself takes nothing away.
    subst self
    rw [moveCoins_self (le_self_add.trans covered)]
    exact le_add_self.trans covered
  · rw [moveCoins_from _ self]
    exact le_tsub_of_add_le_left covered

/-- A transfer succeeds exactly when the payer holds the coins. -/
theorem sendCoins_eq_ok {balances after : Balances} {amt : Coins} :
    sendCoins balances fromAddr toAddr amt = .ok after ↔
      amt ≤ balances fromAddr ∧ after = moveCoins balances fromAddr toAddr amt := by
  unfold sendCoins
  -- The source compares coin by coin, which is the order of amounts.
  split_ifs with covered
  · rw [Coins.isAllLTE_iff] at covered
    constructor
    · intro sent
      exact ⟨covered, (Except.ok.inj sent).symm⟩
    · rintro ⟨-, rfl⟩
      rfl
  · rw [Coins.isAllLTE_iff] at covered
    constructor
    · intro sent
      cases sent
    · rintro ⟨enough, -⟩
      exact absurd enough covered

namespace Bank

variable {bank after : Bank} {moduleAddr : Address} {amt : Coins}

@[simp] theorem mintCoins_balances (bank : Bank) (moduleAddr : Address) (amt : Coins)
    (denom : Denom) :
    (bank.mintCoins moduleAddr amt).balances moduleAddr denom =
      bank.balances moduleAddr denom + amt denom := by
  simp [mintCoins]

@[simp] theorem mintCoins_supply (bank : Bank) (moduleAddr : Address) (amt : Coins)
    (denom : Denom) :
    (bank.mintCoins moduleAddr amt).supply denom = bank.supply denom + amt denom := by
  simp [mintCoins]

theorem sendCoins_eq_ok {fromAddr toAddr : Address} :
    bank.sendCoins fromAddr toAddr amt = .ok after ↔
      amt ≤ bank.balances fromAddr ∧
        after = ⟨moveCoins bank.balances fromAddr toAddr amt, bank.supply⟩ := by
  unfold sendCoins
  -- Only the balances change.
  rw [bind_eq_ok]
  constructor
  · rintro ⟨balances, moved, same⟩
    obtain ⟨covered, rfl⟩ := Evmos.sendCoins_eq_ok.mp moved
    exact ⟨covered, (Except.ok.inj same).symm⟩
  · rintro ⟨covered, rfl⟩
    exact ⟨_, Evmos.sendCoins_eq_ok.mpr ⟨covered, rfl⟩, rfl⟩

/-- A module account pays exactly if the recipient is not blocked and it holds the coins. -/
theorem sendCoinsFromModuleToAccount_eq_ok {bech32 : Bech32} {blockedAddr : Address → Bool}
    {recipient : Address} :
    bank.sendCoinsFromModuleToAccount bech32 blockedAddr moduleAddr recipient amt = .ok after ↔
      blockedAddr recipient = false ∧ amt ≤ bank.balances moduleAddr ∧
        after = ⟨moveCoins bank.balances moduleAddr recipient amt, bank.supply⟩ := by
  unfold sendCoinsFromModuleToAccount
  -- A blocked recipient is refused before any coin is looked at.
  cases blocked : blockedAddr recipient with
  | true => simp
  | false => simp [sendCoins_eq_ok]

/-- A payment of a module account takes no more than the coins from it. -/
theorem sendCoinsFromModuleToAccount_ok {bech32 : Bech32} {blockedAddr : Address → Bool}
    {recipient : Address}
    (sent : bank.sendCoinsFromModuleToAccount bech32 blockedAddr moduleAddr recipient amt =
      .ok after) :
    after.supply = bank.supply ∧ ∀ denom,
      bank.balances moduleAddr denom ≤ after.balances moduleAddr denom + amt denom := by
  obtain ⟨-, covered, rfl⟩ := sendCoinsFromModuleToAccount_eq_ok.mp sent
  refine ⟨rfl, ?_⟩
  intro denom
  have enough := covered denom
  by_cases self : moduleAddr = recipient
  · -- A payment to itself changes nothing.
    subst self
    simp [moveCoins]
    omega
  · change bank.balances moduleAddr denom ≤
      moveCoins bank.balances moduleAddr recipient amt moduleAddr denom + amt denom
    rw [moveCoins_from _ self, DFinsupp.tsub_apply]
    omega

/-- A payment to a module account by someone else arrives in full. -/
theorem sendCoinsFromAccountToModule_ok {locked : Coins} {sender : Address}
    (distinct : sender ≠ moduleAddr)
    (sent : bank.sendCoinsFromAccountToModule locked sender moduleAddr amt = .ok after) :
    after.supply = bank.supply ∧ ∀ denom,
      after.balances moduleAddr denom = bank.balances moduleAddr denom + amt denom := by
  unfold sendCoinsFromAccountToModule at sent
  simp only at sent
  -- The coins must be unlocked, which plays no part in where they go.
  split_ifs at sent
  obtain rfl := Except.ok.inj sent
  refine ⟨rfl, ?_⟩
  intro denom
  simp [moveCoins, distinct.symm]

/-- Burning takes the coins from the account and from the supply. -/
theorem burnCoins_ok (burned : bank.burnCoins moduleAddr amt = .ok after) (denom : Denom) :
    after.supply denom + amt denom = bank.supply denom ∧
      after.balances moduleAddr denom + amt denom = bank.balances moduleAddr denom := by
  unfold burnCoins at burned
  simp only at burned
  split_ifs at burned with held
  obtain ⟨supply, subtracted, same⟩ := bind_eq_ok.mp burned
  obtain rfl := Except.ok.inj same
  rw [orPanic_eq_ok, Coins.sub] at subtracted
  split_ifs at subtracted with covered
  obtain rfl := Option.some.inj subtracted
  -- Both the account and the supply held the coins.
  have enough := (Coins.isAllLTE_iff _ _).mp held denom
  constructor
  · rw [DFinsupp.tsub_apply]
    exact Nat.sub_add_cancel (covered denom)
  · simp only [Function.update_self, DFinsupp.tsub_apply]
    exact Nat.sub_add_cancel enough

end Bank

end Evmos
