import Mathlib

/-! A fungible token with allowances, and what it guarantees to a holder that approves nobody. -/

namespace Library

/-- The ledger of a token: balances, allowances by owner and spender, and the supply. -/
structure Token (A : Type*) where
  balances : A → ℕ
  allowances : A → A → ℕ
  totalSupply : ℕ

namespace Token

variable {A : Type*}

/-- What any account may ask of a token. -/
inductive Call (A : Type*) where
  | transfer (target : A) (amount : ℕ)
  | approve (spender : A) (amount : ℕ)
  | transferFrom (owner target : A) (amount : ℕ)
  | burn (amount : ℕ)
  | burnFrom (owner : A) (amount : ℕ)

/-- What a token reports. -/
inductive Event (A : Type*) where
  | transfer (source target : A) (amount : ℕ)
  | approval (owner spender : A) (amount : ℕ)

/-- The ledger before anything was minted. -/
def empty : Token A := ⟨fun _ => 0, fun _ _ => 0, 0⟩

variable [DecidableEq A] [Zero A]

/-- Moves tokens between two accounts, neither of which is the zero account. -/
def move (token : Token A) (source target : A) (amount : ℕ) : Option (Token A) :=
  if source = 0 ∨ target = 0 ∨ token.balances source < amount then none
  else
    let debited := Function.update token.balances source (token.balances source - amount)
    some { token with balances := Function.update debited target (debited target + amount) }

/-- Creates tokens, as long as the supply stays below a cap. -/
def mint (cap : ℕ) (token : Token A) (target : A) (amount : ℕ) : Option (Token A) :=
  if target = 0 ∨ cap ≤ token.totalSupply + amount then none
  else some { token with
    balances := Function.update token.balances target (token.balances target + amount)
    totalSupply := token.totalSupply + amount }

/-- Destroys tokens of an account. -/
def destroy (token : Token A) (source : A) (amount : ℕ) : Option (Token A) :=
  if source = 0 ∨ token.balances source < amount ∨ token.totalSupply < amount then none
  else some { token with
    balances := Function.update token.balances source (token.balances source - amount)
    totalSupply := token.totalSupply - amount }

/-- Sets what a spender may take from an owner. -/
def allow (token : Token A) (owner spender : A) (amount : ℕ) : Option (Token A) :=
  if owner = 0 ∨ spender = 0 then none
  else
    let ofOwner := Function.update (token.allowances owner) spender amount
    some { token with allowances := Function.update token.allowances owner ofOwner }

/-- Takes an amount off an allowance. -/
def spend (token : Token A) (owner spender : A) (amount : ℕ) : Option (Token A) :=
  if token.allowances owner spender < amount then none
  else token.allow owner spender (token.allowances owner spender - amount)

/-- What a call does and reports, unless it reverts. -/
def exec (token : Token A) (caller : A) : Call A → Option (Token A × List (Event A))
  | .transfer target amount => do
    let token ← token.move caller target amount
    some (token, [.transfer caller target amount])
  | .approve spender amount => do
    let token ← token.allow caller spender amount
    some (token, [.approval caller spender amount])
  | .transferFrom owner target amount => do
    let moved ← token.move owner target amount
    let spent ← moved.spend owner caller amount
    some (spent, [.transfer owner target amount,
      .approval owner caller (spent.allowances owner caller)])
  | .burn amount => do
    let token ← token.destroy caller amount
    some (token, [.transfer caller 0 amount])
  | .burnFrom owner amount => do
    let spent ← token.spend owner caller amount
    let token ← spent.destroy owner amount
    some (token, [.approval owner caller (spent.allowances owner caller), .transfer owner 0 amount])

/-- The account has approved nobody. -/
def Unapproved (token : Token A) (holder : A) : Prop :=
  ∀ spender, token.allowances holder spender = 0

/-- What an event reports to have reached an account. -/
def Event.received (holder : A) : Event A → ℕ
  | .transfer _ target amount => if target = holder then amount else 0
  | .approval _ _ _ => 0

omit [Zero A] [DecidableEq A] in
theorem empty_unapproved (holder : A) : (empty : Token A).Unapproved holder := fun _ => rfl

section Inversion

variable {token after : Token A} {source target holder : A} {amount cap : ℕ}

/-- A successful move takes the amount from one account and gives it to the other. -/
theorem move_eq_some (moved : token.move source target amount = some after) :
    amount ≤ token.balances source ∧ after.allowances = token.allowances ∧
      after.totalSupply = token.totalSupply ∧
      (∀ other, other ≠ source → after.balances other =
        token.balances other + if target = other then amount else 0) ∧
      token.balances source ≤ after.balances source + amount := by
  unfold move at moved
  split_ifs at moved with refused
  obtain rfl := Option.some.inj moved
  have enough : amount ≤ token.balances source := by
    by_contra short
    exact refused (.inr (.inr (by omega)))
  refine ⟨enough, rfl, rfl, ?_, ?_⟩
  · intro other elsewhere
    by_cases hit : target = other
    · subst hit
      simp [elsewhere]
    · simp [Function.update_of_ne (Ne.symm hit), elsewhere, hit]
  · -- A move to the account itself gives back what it took.
    by_cases same : target = source
    · subst same
      simp only [Function.update_self]
      omega
    · simp only [Function.update_of_ne (Ne.symm same), Function.update_self]
      omega

theorem mint_eq_some (minted : token.mint cap target amount = some after) :
    after.allowances = token.allowances ∧ after.totalSupply = token.totalSupply + amount ∧
      ∀ other, after.balances other =
        token.balances other + if target = other then amount else 0 := by
  unfold mint at minted
  split_ifs at minted
  obtain rfl := Option.some.inj minted
  refine ⟨rfl, rfl, ?_⟩
  intro other
  -- Only the balance of the target changes.
  by_cases hit : target = other
  · subst hit
    simp
  · simp [Function.update_of_ne (Ne.symm hit), hit]

/-- Destroying takes from one balance and from the supply, both of which cover the amount. -/
theorem destroy_eq_some (destroyed : token.destroy source amount = some after) :
    amount ≤ token.balances source ∧ after.allowances = token.allowances ∧
      after.totalSupply + amount = token.totalSupply ∧
      ∀ other, other ≠ source → after.balances other = token.balances other := by
  unfold destroy at destroyed
  split_ifs at destroyed with refused
  obtain rfl := Option.some.inj destroyed
  -- The call reverts unless both subtractions are exact.
  have enough : amount ≤ token.balances source := by
    by_contra short
    exact refused (.inr (.inl (by omega)))
  have covered : amount ≤ token.totalSupply := by
    by_contra short
    exact refused (.inr (.inr (by omega)))
  refine ⟨enough, rfl, Nat.sub_add_cancel covered, ?_⟩
  intro other elsewhere
  simp [elsewhere]

theorem allow_eq_some {owner spender : A} (allowed : token.allow owner spender amount = some after) :
    after.balances = token.balances ∧ after.totalSupply = token.totalSupply ∧
      ∀ other, other ≠ owner → after.allowances other = token.allowances other := by
  unfold allow at allowed
  split_ifs at allowed
  obtain rfl := Option.some.inj allowed
  refine ⟨rfl, rfl, ?_⟩
  intro other elsewhere
  simp [elsewhere]

theorem spend_eq_some {owner spender : A} (spent : token.spend owner spender amount = some after) :
    after.balances = token.balances ∧ after.totalSupply = token.totalSupply := by
  unfold spend at spent
  split_ifs at spent
  obtain ⟨balances, supply, -⟩ := allow_eq_some spent
  exact ⟨balances, supply⟩

/-- Of an account that approved nobody, only nothing can be spent. -/
theorem spend_unapproved {owner spender : A} (unapproved : token.Unapproved holder)
    (spent : token.spend owner spender amount = some after) :
    after.Unapproved holder ∧ (owner = holder → amount = 0) := by
  unfold spend at spent
  split_ifs at spent with refused
  constructor
  · intro other
    by_cases own : holder = owner
    · -- The allowance was zero, so it is set to zero again.
      subst own
      unfold allow at spent
      split_ifs at spent
      obtain rfl := Option.some.inj spent
      by_cases hit : other = spender
      · subst hit
        simp [unapproved other]
      · simp [hit, unapproved other]
    · rw [(allow_eq_some spent).2.2 holder own]
      exact unapproved other
  · intro own
    subst own
    rw [unapproved spender] at refused
    omega

omit [DecidableEq A] [Zero A] in
theorem Unapproved.congr (unapproved : token.Unapproved holder)
    (allowances : after.allowances = token.allowances) : after.Unapproved holder := by
  intro spender
  rw [allowances]
  exact unapproved spender

end Inversion

section Execution

variable {token after : Token A} {caller holder : A} {call : Call A} {events : List (Event A)}

theorem exec_totalSupply_le (done : token.exec caller call = some (after, events)) :
    after.totalSupply ≤ token.totalSupply := by
  -- Transfers and approvals keep the supply, and burns lower it.
  cases call with
  | transfer target amount =>
    obtain ⟨moved, ran, same⟩ := Option.bind_eq_some_iff.mp done
    obtain ⟨rfl, -⟩ := Prod.mk.inj (Option.some.inj same)
    exact (move_eq_some ran).2.2.1.le
  | approve spender amount =>
    obtain ⟨allowed, ran, same⟩ := Option.bind_eq_some_iff.mp done
    obtain ⟨rfl, -⟩ := Prod.mk.inj (Option.some.inj same)
    exact (allow_eq_some ran).2.1.le
  | transferFrom owner target amount =>
    obtain ⟨moved, ran, rest⟩ := Option.bind_eq_some_iff.mp done
    obtain ⟨spent, used, same⟩ := Option.bind_eq_some_iff.mp rest
    obtain ⟨rfl, -⟩ := Prod.mk.inj (Option.some.inj same)
    exact ((spend_eq_some used).2.trans (move_eq_some ran).2.2.1).le
  | burn amount =>
    obtain ⟨destroyed, ran, same⟩ := Option.bind_eq_some_iff.mp done
    obtain ⟨rfl, -⟩ := Prod.mk.inj (Option.some.inj same)
    have supply := (destroy_eq_some ran).2.2.1
    omega
  | burnFrom owner amount =>
    obtain ⟨spent, used, rest⟩ := Option.bind_eq_some_iff.mp done
    obtain ⟨destroyed, ran, same⟩ := Option.bind_eq_some_iff.mp rest
    obtain ⟨rfl, -⟩ := Prod.mk.inj (Option.some.inj same)
    have supply := (destroy_eq_some ran).2.2.1
    rw [(spend_eq_some used).2] at supply
    omega

/--
Calls of others leave a holder that approved nobody with all it had, plus what was reported as
sent to it.
-/
theorem exec_protects (unapproved : token.Unapproved holder) (other : caller ≠ holder)
    (nonzero : holder ≠ 0) (done : token.exec caller call = some (after, events)) :
    after.balances holder = token.balances holder + (events.map (Event.received holder)).sum ∧
      after.Unapproved holder := by
  cases call with
  | transfer target amount =>
    obtain ⟨moved, ran, same⟩ := Option.bind_eq_some_iff.mp done
    obtain ⟨rfl, rfl⟩ := Prod.mk.inj (Option.some.inj same)
    obtain ⟨-, allowances, -, balances, -⟩ := move_eq_some ran
    refine ⟨?_, unapproved.congr allowances⟩
    rw [balances holder other.symm]
    simp [Event.received]
  | approve spender amount =>
    obtain ⟨allowed, ran, same⟩ := Option.bind_eq_some_iff.mp done
    obtain ⟨rfl, rfl⟩ := Prod.mk.inj (Option.some.inj same)
    obtain ⟨balances, -, allowances⟩ := allow_eq_some ran
    constructor
    · rw [balances]
      simp [Event.received]
    · intro spender
      rw [allowances holder other.symm]
      exact unapproved spender
  | transferFrom owner target amount =>
    obtain ⟨moved, ran, rest⟩ := Option.bind_eq_some_iff.mp done
    obtain ⟨spent, used, same⟩ := Option.bind_eq_some_iff.mp rest
    obtain ⟨rfl, rfl⟩ := Prod.mk.inj (Option.some.inj same)
    obtain ⟨-, allowances, -, balances, -⟩ := move_eq_some ran
    obtain ⟨still, nothing⟩ := spend_unapproved (unapproved.congr allowances) used
    refine ⟨?_, still⟩
    rw [(spend_eq_some used).1]
    by_cases own : owner = holder
    · -- Without an allowance the transfer is one of nothing.
      obtain rfl := nothing own
      subst own
      unfold move at ran
      split_ifs at ran
      obtain rfl := Option.some.inj ran
      by_cases back : target = owner
      · subst back
        simp [Event.received]
      · simp [Event.received, Function.update_of_ne (Ne.symm back)]
    · rw [balances holder (Ne.symm own)]
      simp [Event.received]
  | burn amount =>
    obtain ⟨destroyed, ran, same⟩ := Option.bind_eq_some_iff.mp done
    obtain ⟨rfl, rfl⟩ := Prod.mk.inj (Option.some.inj same)
    obtain ⟨-, allowances, -, balances⟩ := destroy_eq_some ran
    refine ⟨?_, unapproved.congr allowances⟩
    rw [balances holder other.symm]
    simp [Event.received, nonzero.symm]
  | burnFrom owner amount =>
    obtain ⟨spent, used, rest⟩ := Option.bind_eq_some_iff.mp done
    obtain ⟨destroyed, ran, same⟩ := Option.bind_eq_some_iff.mp rest
    obtain ⟨rfl, rfl⟩ := Prod.mk.inj (Option.some.inj same)
    obtain ⟨still, nothing⟩ := spend_unapproved unapproved used
    obtain ⟨-, allowances, -, balances⟩ := destroy_eq_some ran
    refine ⟨?_, still.congr allowances⟩
    have sameBalances := (spend_eq_some used).1
    by_cases own : owner = holder
    · -- Without an allowance nothing is burned.
      obtain rfl := nothing own
      subst own
      unfold destroy at ran
      split_ifs at ran
      obtain rfl := Option.some.inj ran
      simp [Event.received, nonzero.symm, sameBalances]
    · rw [balances holder (Ne.symm own), sameBalances]
      simp [Event.received, nonzero.symm]

end Execution

end Token

end Library
