import Mathlib.Logic.Basic

/-! A component's view of a larger state: what it reads of it, and what it writes back. -/

namespace Library

variable {σ α ε : Type*}

/-- A part of a state, which can be read and replaced. -/
structure Lens (σ α : Type*) where
  get : σ → α
  set : α → σ → σ
  -- What is written reads back.
  get_set : ∀ part whole, get (set part whole) = part

namespace Lens

/-- A component changes its part. -/
def modify (lens : Lens σ α) (change : α → α) (whole : σ) : σ :=
  lens.set (change (lens.get whole)) whole

/-- A component changes its part, or fails. -/
def modifyM (lens : Lens σ α) (change : α → Except ε α) (whole : σ) : Except ε σ :=
  (change (lens.get whole)).map (lens.set · whole)

@[simp] theorem get_modify (lens : Lens σ α) (change : α → α) (whole : σ) :
    lens.get (lens.modify change whole) = change (lens.get whole) :=
  lens.get_set _ _

/-- A change of the whole succeeds exactly when that of the part does. -/
theorem modifyM_eq_ok {lens : Lens σ α} {change : α → Except ε α} {whole after : σ} :
    lens.modifyM change whole = .ok after ↔
      ∃ part, change (lens.get whole) = .ok part ∧ lens.set part whole = after := by
  unfold modifyM
  cases change (lens.get whole) <;> simp [Except.map]

end Lens

end Library
