import Evmos.Ante.Commission
import Evmos.Ante.Vesting

/-!
How far the ante decorators look into authorizations.

A decorator checks the messages of a transaction and those directly inside an authorization. An
authorization inside an authorization passes as a message of no interest, with all it carries.
-/

namespace Evmos.Ante

open Library Vesting

/-- A message the decorators look at: of the transaction, or of an authorization in it. -/
def Msg.Seen (msg : Msg) (msgs : List Msg) : Prop :=
  msg ∈ msgs ∨ ∃ nested, .exec nested ∈ msgs ∧ msg ∈ nested

/-- A message inside an authorization that is itself inside an authorization. -/
def Msg.Deep (msg : Msg) (msgs : List Msg) : Prop :=
  ∃ outer inner, .exec outer ∈ msgs ∧ .exec inner ∈ outer ∧ msg.Within inner

/-- Some authorization of the transaction carries a message that cannot be decoded. -/
def Undecodable (msgs : List Msg) : Prop :=
  ∃ nested, .exec nested ∈ msgs ∧ .undecodable ∈ nested

/-- Every message of the tree is seen or lies deep. -/
theorem Msg.within_iff {msg : Msg} {msgs : List Msg} :
    msg.Within msgs ↔ msg.Seen msgs ∨ msg.Deep msgs := by
  -- An authorization inside an authorization is where the decorators stop.
  constructor
  · rintro (member | ⟨member, within⟩)
    · exact .inl (.inl member)
    · cases within with
      | top inside => exact .inl (.inr ⟨_, member, inside⟩)
      | inner nested deeper => exact .inr ⟨_, _, member, nested, deeper⟩
  · rintro ((member | ⟨nested, member, inside⟩) | ⟨outer, inner, member, nested, within⟩)
    · exact .top member
    · exact .inner member (.top inside)
    · exact .inner member (.inner nested within)

section Walk

variable {validateMsg : Msg → Result Unit} {Accepts : Msg → Prop}

/-- An authorization passes when all it carries can be decoded and is accepted. -/
theorem validateAuthz_eq_ok (decides : ∀ msg, validateMsg msg = .ok () ↔ Accepts msg)
    (msgs : List Msg) :
    validateAuthz validateMsg msgs = .ok () ↔
      (∀ msg ∈ msgs, Accepts msg) ∧ .undecodable ∉ msgs := by
  rw [validateAuthz, forM_eq_ok]
  constructor
  · intro checked
    refine ⟨fun msg member => ?_, fun member => by simpa using checked _ member⟩
    -- The loop tries to decode each message before it checks it.
    have checkedMsg := checked msg member
    split at checkedMsg
    · cases checkedMsg
    · exact (decides _).mp checkedMsg
  · rintro ⟨accepted, decodable⟩ msg member
    split
    · exact absurd member decodable
    · exact (decides _).mpr (accepted _ member)

/-- A transaction passes when every message that is seen is accepted and can be decoded. -/
theorem validateTx_eq_ok (decides : ∀ msg, validateMsg msg = .ok () ↔ Accepts msg)
    (ignores : ∀ nested, Accepts (.exec nested)) (msgs : List Msg) :
    validateTx validateMsg msgs = .ok () ↔
      (∀ msg : Msg, msg.Seen msgs → Accepts msg) ∧ ¬Undecodable msgs := by
  rw [validateTx, forM_eq_ok]
  constructor
  · intro checked
    -- An authorization is checked one level deep, any other message by itself.
    have inside : ∀ nested, .exec nested ∈ msgs →
        (∀ msg ∈ nested, Accepts msg) ∧ .undecodable ∉ nested := fun nested member =>
      (validateAuthz_eq_ok decides nested).mp (checked (.exec nested) member)
    refine ⟨?_, fun ⟨nested, member, packed⟩ => (inside nested member).2 packed⟩
    rintro msg (member | ⟨nested, member, packed⟩)
    · have checkedMsg := checked msg member
      split at checkedMsg
      · exact ignores _
      · exact (decides _).mp checkedMsg
    · exact (inside nested member).1 msg packed
  · rintro ⟨accepted, decodable⟩ msg member
    split
    · rename_i nested
      exact (validateAuthz_eq_ok decides nested).mpr
        ⟨fun inner packed => accepted inner (.inr ⟨nested, member, packed⟩),
          fun packed => decodable ⟨nested, member, packed⟩⟩
    · exact (decides _).mpr (accepted _ (.inl member))

/--
When a passing transaction has a property in its whole tree.

Either something seen is refused, so the transaction does not pass, or the messages that lie deep
happen to have the property.
-/
theorem validateTx_tree_iff (decides : ∀ msg, validateMsg msg = .ok () ↔ Accepts msg)
    (ignores : ∀ nested, Accepts (.exec nested)) {Good : Msg → Prop}
    (sound : ∀ msg, Accepts msg → Good msg) (msgs : List Msg) :
    (validateTx validateMsg msgs = .ok () → ∀ msg : Msg, msg.Within msgs → Good msg) ↔
      (∃ msg : Msg, msg.Seen msgs ∧ ¬Accepts msg) ∨ Undecodable msgs ∨
        ∀ msg : Msg, msg.Deep msgs → Good msg := by
  rw [validateTx_eq_ok decides ignores]
  constructor
  · intro holds
    by_cases refused : ∃ msg : Msg, msg.Seen msgs ∧ ¬Accepts msg
    · exact .inl refused
    by_cases packed : Undecodable msgs
    · exact .inr (.inl packed)
    -- All that is seen passes, so only what lies deep can break the property.
    push Not at refused
    exact .inr (.inr fun msg deep => holds ⟨refused, packed⟩ msg (Msg.within_iff.mpr (.inr deep)))
  · rintro (⟨msg, seen, refused⟩ | packed | deep) ⟨accepted, decodable⟩ other within
    · exact absurd (accepted msg seen) refused
    · exact absurd packed decodable
    · rcases Msg.within_iff.mp within with seen | lies
      · exact sound other (accepted other seen)
      · exact deep other lies

end Walk

namespace Commission

/-- A validator is created or edited with at least the minimum commission rate. -/
def MeetsMinimum : Msg → Prop
  | .createValidator commissionRate => minCommission ≤ commissionRate
  | .editValidator (some commissionRate) => minCommission ≤ commissionRate
  | _ => True

theorem checkRate_eq_ok (rate : Dec) : checkRate rate = .ok () ↔ minCommission ≤ rate := by
  -- The source asks whether the rate is below the minimum.
  unfold checkRate
  split_ifs with low
  · simpa using low
  · simpa using low

theorem validateMsg_eq_ok (msg : Msg) : validateMsg msg = .ok () ↔ MeetsMinimum msg := by
  -- Only a new validator, and a change that names one, come with a rate.
  rcases msg with _ | _ | rate | (_ | rate) | _ | _ | _
  case createValidator => exact checkRate_eq_ok rate
  case editValidator.some => exact checkRate_eq_ok rate
  all_goals simp [validateMsg, MeetsMinimum]

end Commission

namespace VestingDelegation

variable {bech32 : Bech32} {accounts : Address → Option Account} {bondDenom : Denom}
  {blockTime : Time}

/-- A delegation of a clawback account stays within the coins that have vested. -/
def WithinVested (accounts : Address → Option Account) (bondDenom : Denom) (blockTime : Time) :
    Msg → Prop
  | .delegate delegator _ amount =>
    ∀ va, accounts delegator = some (.clawback va) →
      amount ≤ (va.getVestedOnly blockTime).amountOf bondDenom
  | _ => True

/-- A delegation is accepted from an account that exists, and within its vested coins if any. -/
def Accepts (accounts : Address → Option Account) (bondDenom : Denom) (blockTime : Time) :
    Msg → Prop
  | .delegate delegator _ amount =>
    (accounts delegator).isSome ∧ ∀ va, accounts delegator = some (.clawback va) →
      va.getVestedOnly blockTime ≠ 0 ∧ amount ≤ (va.getVestedOnly blockTime).amountOf bondDenom
  | _ => True

theorem checkDelegation_eq_ok (delegator : Address) (denom : Denom) (amount : ℕ) :
    checkDelegation bech32 accounts bondDenom blockTime delegator amount = .ok () ↔
      Accepts accounts bondDenom blockTime (.delegate delegator denom amount) := by
  simp only [checkDelegation, Accepts]
  -- The account is absent, no clawback account, or a clawback account.
  split
  · rename_i absent
    simp [absent]
  · rename_i other
    simp [other]
  · rename_i va found
    split_ifs with nothing short
    · simpa [found] using fun more => absurd ((Coins.isZero_iff _).mp nothing) more
    · simpa [found] using fun _ => short
    · rw [Coins.isZero_iff] at nothing
      simpa [found] using ⟨nothing, not_lt.mp short⟩

theorem validateMsg_eq_ok (msg : Msg) :
    validateMsg bech32 accounts bondDenom blockTime msg = .ok () ↔
      Accepts accounts bondDenom blockTime msg := by
  -- Every other message passes.
  cases msg with
  | delegate delegator denom amount => exact checkDelegation_eq_ok delegator denom amount
  | _ => simp [validateMsg, Accepts]

theorem Accepts.withinVested {msg : Msg} (accepted : Accepts accounts bondDenom blockTime msg) :
    WithinVested accounts bondDenom blockTime msg := by
  -- Acceptance also asks that something has vested, which is not needed here.
  cases msg with
  | delegate delegator denom amount => exact fun va found => (accepted.2 va found).2
  | _ => trivial

end VestingDelegation

/--
What the two decorators guarantee for the whole message tree, however deep authorizations nest.

The guarantee of a decorator fails exactly when it refuses nothing it sees while an authorization
inside an authorization carries a message it would have refused.
-/
theorem anteHandle_guards_tree_iff (bech32 : Bech32) (accounts : Address → Option Account)
    (bondDenom : Denom) (blockTime : Time) (msgs : List Msg) :
    ((Commission.anteHandle msgs = .ok () →
          ∀ msg : Msg, msg.Within msgs → Commission.MeetsMinimum msg) ∧
        (VestingDelegation.anteHandle bech32 accounts bondDenom blockTime msgs = .ok () →
          ∀ msg : Msg, msg.Within msgs →
            VestingDelegation.WithinVested accounts bondDenom blockTime msg)) ↔
      ((∃ msg : Msg, msg.Seen msgs ∧ ¬Commission.MeetsMinimum msg) ∨ Undecodable msgs ∨
          ∀ msg : Msg, msg.Deep msgs → Commission.MeetsMinimum msg) ∧
        ((∃ msg : Msg, msg.Seen msgs ∧
            ¬VestingDelegation.Accepts accounts bondDenom blockTime msg) ∨ Undecodable msgs ∨
          ∀ msg : Msg, msg.Deep msgs →
            VestingDelegation.WithinVested accounts bondDenom blockTime msg) :=
  and_congr
    (validateTx_tree_iff Commission.validateMsg_eq_ok (fun _ => trivial) (fun _ => id) msgs)
    (validateTx_tree_iff VestingDelegation.validateMsg_eq_ok (fun _ => trivial)
      (fun _ => VestingDelegation.Accepts.withinVested) msgs)

/-- A transaction whose only messages of interest lie two authorizations deep. -/
def twiceWrapped : List Msg := [.exec [.exec [.createValidator 0, .delegate 2 "aevmos" 1]]]

/-- An account whose grant has not begun to vest. -/
def unvestedAccounts : Address → Option Account := fun _ =>
  some (.clawback (newClawbackVestingAccount 2 "1" (Coins.ofCoin "aevmos" 100) 0
    [⟨10, Coins.ofCoin "aevmos" 100⟩] [⟨10, Coins.ofCoin "aevmos" 100⟩]))

/-- Both decorators let a zero commission and an unvested delegation through when wrapped twice. -/
theorem twiceWrapped_bypasses_checks :
    ¬((Commission.anteHandle twiceWrapped = .ok () →
          ∀ msg : Msg, msg.Within twiceWrapped → Commission.MeetsMinimum msg) ∨
        (VestingDelegation.anteHandle .unary unvestedAccounts "aevmos" 0 twiceWrapped = .ok () →
          ∀ msg : Msg, msg.Within twiceWrapped →
            VestingDelegation.WithinVested unvestedAccounts "aevmos" 0 msg)) := by
  -- The messages lie in an authorization inside an authorization.
  have inside : ∀ msg : Msg, msg ∈ [Msg.createValidator 0, .delegate 2 "aevmos" 1] →
      msg.Within twiceWrapped := fun msg member =>
    .inner List.mem_cons_self (.inner List.mem_cons_self (.top member))
  rintro (guards | guards)
  · have rate : Commission.minCommission ≤ 0 :=
      guards rfl (.createValidator 0) (inside _ List.mem_cons_self)
    exact absurd rate (by decide)
  · have vested := guards rfl (.delegate 2 "aevmos" 1) (inside _ (by simp)) _ rfl
    exact absurd vested (by decide)

end Evmos.Ante
