import Mathlib.Data.List.Basic

/-! Runs of a labelled transition relation, and the invariant rule they obey. -/

namespace Library

variable {σ α : Type*}

/-- Executions of a labelled transition relation, each extended by one step at its end. -/
inductive Run (step : σ → α → σ → Prop) (origin : σ) : List α → σ → Prop where
  /-- Before any step, the run stands at its origin. -/
  | start : Run step origin [] origin
  /-- A step taken from the state reached so far extends the run. -/
  | extend {actions : List α} {action : α} {before after : σ}
      (earlier : Run step origin actions before) (taken : step before action after) :
      Run step origin (actions ++ [action]) after

/-- Steps restricted to those whose label meets a condition in the state before the step. -/
def Guarded (guard : σ → α → Prop) (step : σ → α → σ → Prop) : σ → α → σ → Prop :=
  fun before action after => guard before action ∧ step before action after

/-- A property kept by every step holds at the end of every run that starts in it. -/
theorem Run.invariant {step : σ → α → σ → Prop} (inv : σ → Prop)
    (keeps : ∀ {before action after}, inv before → step before action after → inv after)
    {origin reached : σ} {actions : List α} (initially : inv origin)
    (run : Run step origin actions reached) : inv reached := by
  -- The run grows at its end, so the last step starts in a state that has the property.
  induction run with
  | start => exact initially
  | extend _ taken ih => exact keeps ih taken

theorem Run.unguarded {guard : σ → α → Prop} {step : σ → α → σ → Prop}
    {origin reached : σ} {actions : List α}
    (run : Run (Guarded guard step) origin actions reached) : Run step origin actions reached := by
  induction run with
  | start => exact .start
  | extend _ taken ih => exact .extend ih taken.2

end Library
