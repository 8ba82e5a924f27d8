import Evmos.Ante.Vesting

/-!
Which senders of an Ethereum transaction are checked for vesting.

The loop over the messages ends at the first sender that is no clawback account, since the source
calls the next decorator there. Senders after that one are not looked at.
-/

namespace Evmos.Ante.EthVesting

open Vesting

variable {accounts : Address → Option Account} {blockTime : Time}

/-- The account has vested coins and no locked ones. -/
def Spendable (va : ClawbackVestingAccount) (blockTime : Time) : Prop :=
  va.getVestedCoins blockTime ≠ 0 ∧ va.hasLockedCoins blockTime = some false

/-- A sender that is a clawback account has vested coins and no locked ones. -/
def Meets (accounts : Address → Option Account) (blockTime : Time) (sender : Address) : Prop :=
  ∀ va, accounts sender = some (.clawback va) → Spendable va blockTime

/-- A sender exists and is no clawback account. -/
def isOrdinary (accounts : Address → Option Account) (sender : Address) : Bool :=
  match accounts sender with
  | some (.other _) => true
  | _ => false

/-- The senders the loop looks at, up to the first ordinary one. -/
def checkedSenders (accounts : Address → Option Account) (senders : List Address) : List Address :=
  senders.takeWhile fun sender => !isOrdinary accounts sender

/-- The senders from the first ordinary one on. -/
def skippedSenders (accounts : Address → Option Account) (senders : List Address) : List Address :=
  senders.dropWhile fun sender => !isOrdinary accounts sender

/-- The check of a clawback account asks for vested coins and no locked ones. -/
theorem checkAccount_eq_ok (va : ClawbackVestingAccount) (blockTime : Time) :
    checkAccount va blockTime = .ok () ↔ Spendable va blockTime := by
  simp only [checkAccount, Spendable]
  split_ifs with nothing
  · simpa using fun more => absurd ((Coins.isZero_iff _).mp nothing) more
  · -- Something has vested, so it remains to compute what is locked.
    rw [bind_eq_ok]
    rw [Coins.isZero_iff] at nothing
    constructor
    · rintro ⟨locked, computed, unlocked⟩
      cases locked with
      | true => simp at unlocked
      | false => exact ⟨nothing, orPanic_eq_ok.mp computed⟩
    · rintro ⟨-, unlocked⟩
      exact ⟨false, orPanic_eq_ok.mpr unlocked, rfl⟩

/-- The decorator passes when every sender it looks at is a clawback account it lets through. -/
theorem anteHandle_eq_ok (senders : List Address) :
    anteHandle accounts blockTime (senders.map .ethereumTx) = .ok () ↔
      ∀ sender ∈ checkedSenders accounts senders,
        (accounts sender).isSome ∧ Meets accounts blockTime sender := by
  -- The loop and `takeWhile` stop at the same sender.
  induction senders with
  | nil => simp [anteHandle, checkedSenders]
  | cons sender senders ih =>
    rw [List.map_cons, anteHandle]
    split
    · rename_i absent
      simp [checkedSenders, isOrdinary, absent]
    · rename_i ordinary
      simp [checkedSenders, isOrdinary, ordinary]
    · rename_i va found
      have first : checkedSenders accounts (sender :: senders) =
          sender :: checkedSenders accounts senders := by
        simp [checkedSenders, isOrdinary, found]
      have met : Meets accounts blockTime sender ↔ Spendable va blockTime := by
        simp [Meets, found]
      rw [bind_eq_ok, first, List.forall_mem_cons, ← ih, met, found, ← checkAccount_eq_ok]
      exact ⟨fun ⟨_, checked, rest⟩ => ⟨⟨rfl, checked⟩, rest⟩,
        fun ⟨⟨_, checked⟩, rest⟩ => ⟨(), checked, rest⟩⟩

/--
When passing the decorator means that every clawback sender has been checked.

Either a sender up to the first ordinary one is refused, so the transaction does not pass, or the
clawback senders after it happen to have vested coins and no locked ones.
-/
theorem anteHandle_checks_senders_iff (accounts : Address → Option Account) (blockTime : Time)
    (senders : List Address) :
    (anteHandle accounts blockTime (senders.map .ethereumTx) = .ok () →
        ∀ sender ∈ senders, Meets accounts blockTime sender) ↔
      (∃ sender ∈ checkedSenders accounts senders,
          accounts sender = none ∨ ¬Meets accounts blockTime sender) ∨
        ∀ sender ∈ skippedSenders accounts senders, Meets accounts blockTime sender := by
  -- The loop ends at the first sender that is no clawback account.
  have split : senders = checkedSenders accounts senders ++ skippedSenders accounts senders :=
    List.takeWhile_append_dropWhile.symm
  rw [anteHandle_eq_ok]
  constructor
  · intro holds
    by_cases refused : ∃ sender ∈ checkedSenders accounts senders,
        accounts sender = none ∨ ¬Meets accounts blockTime sender
    · exact .inl refused
    · push Not at refused
      refine .inr fun sender skipped => holds (fun other checked => ?_) sender ?_
      · exact ⟨Option.isSome_iff_ne_none.mpr (refused other checked).1, (refused other checked).2⟩
      · rw [split]
        exact List.mem_append_right _ skipped
  · rintro (⟨refused, checked, reason⟩ | rest) passed sender member
    · obtain ⟨exists_, met⟩ := passed refused checked
      rcases reason with absent | unmet
      · simp [absent] at exists_
      · exact absurd met unmet
    · rw [split, List.mem_append] at member
      rcases member with checked | skipped
      · exact (passed sender checked).2
      · exact rest sender skipped

/-- An ordinary account, and a clawback account whose grant has not begun to vest. -/
def mixedAccounts : Address → Option Account
  | 1 => some baseAccount
  | _ => some (.clawback (newClawbackVestingAccount 2 "1" (Coins.ofCoin "aevmos" 100) 0
      [⟨10, Coins.ofCoin "aevmos" 100⟩] [⟨10, Coins.ofCoin "aevmos" 100⟩]))

/-- After a message of an ordinary account, one of an unvested account is not checked. -/
theorem ordinary_sender_hides_unvested :
    ¬(anteHandle mixedAccounts 0 ([1, 2].map .ethereumTx) = .ok () →
        ∀ sender ∈ [1, 2], Meets mixedAccounts 0 sender) := by
  -- The first sender ends the loop, so the transaction passes.
  intro checks
  obtain ⟨vested, -⟩ := checks rfl 2 (by simp) _ rfl
  exact vested (by decide)

end Evmos.Ante.EthVesting
