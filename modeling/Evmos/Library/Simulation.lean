import Evmos.Library.Run
import Mathlib.Data.List.Induction

/-! Forward simulation: a system whose every step is a run of another one, seen through a view. -/

namespace Library

variable {σ τ α β : Type*} {step : σ → α → σ → Prop} {origin reached : σ}

theorem Run.single {before after : σ} {action : α} (taken : step before action after) :
    Run step before [action] after :=
  .extend .start taken

theorem Run.append {between : σ} {first second : List α} (run : Run step origin first between)
    (more : Run step between second reached) : Run step origin (first ++ second) reached := by
  -- Runs grow at their end.
  induction more with
  | start =>
    rw [List.append_nil]
    exact run
  | extend _ taken ih =>
    rw [← List.append_assoc]
    exact .extend ih taken

theorem Run.mono {weaker : σ → α → σ → Prop} {actions : List α}
    (run : Run step origin actions reached)
    (implied : ∀ {before action after}, step before action after → weaker before action after) :
    Run weaker origin actions reached := by
  induction run with
  | start => exact .start
  | extend _ taken ih => exact .extend ih (implied taken)

theorem Run.guarded {guard : σ → α → Prop} {actions : List α}
    (run : Run step origin actions reached)
    (met : ∀ action ∈ actions, ∀ before, guard before action) :
    Run (Guarded guard step) origin actions reached := by
  induction run with
  | start => exact .start
  | extend _ taken ih =>
    refine .extend (ih ?_) ⟨met _ (by simp) _, taken⟩
    intro action member
    exact met action (List.mem_append_left _ member)

/-- A loop that no item ends is a run of its body. -/
theorem Run.of_foldlM {ε : Type*} {body : σ → α → Except ε σ} {items : List α} {last : σ}
    (done : items.foldlM body origin = .ok last) :
    Run (fun before item after => item ∈ items ∧ body before item = .ok after) origin items last := by
  suffices runs : ∀ all : List α, items ⊆ all → Run (fun before item after =>
      item ∈ all ∧ body before item = .ok after) origin items last from runs items fun _ => id
  intro all among
  -- A run grows at its end, and so does the loop.
  induction items using List.reverseRecOn generalizing last with
  | nil =>
    obtain rfl := Except.ok.inj done
    exact .start
  | append_singleton items item ih =>
    rw [List.foldlM_append] at done
    cases earlier : items.foldlM body origin with
    | error err =>
      rw [earlier] at done
      cases done
    | ok between =>
      have taken : body between item = .ok last := by
        rw [earlier] at done
        change (body between item >>= pure) = .ok last at done
        rwa [bind_pure] at done
      refine .extend (ih earlier ?_) ⟨among (by simp), taken⟩
      intro other member
      exact among (List.mem_append_left _ member)

/-- A state is reached by some run. -/
def Reaches (step : σ → α → σ → Prop) (origin reached : σ) : Prop :=
  ∃ actions, Run step origin actions reached

namespace Reaches

theorem refl (origin : σ) : Reaches step origin origin := ⟨[], .start⟩

theorem single {before after : σ} {action : α} (taken : step before action after) :
    Reaches step before after :=
  ⟨[action], .single taken⟩

theorem trans {origin between reached : σ} (first : Reaches step origin between)
    (second : Reaches step between reached) : Reaches step origin reached := by
  obtain ⟨actions, run⟩ := first
  obtain ⟨others, more⟩ := second
  exact ⟨actions ++ others, run.append more⟩

theorem mono {weaker : σ → α → σ → Prop} {origin reached : σ} (reaches : Reaches step origin reached)
    (implied : ∀ {before action after}, step before action after → weaker before action after) :
    Reaches weaker origin reached := by
  obtain ⟨actions, run⟩ := reaches
  exact ⟨actions, run.mono implied⟩

theorem invariant (inv : σ → Prop)
    (keeps : ∀ {before action after}, inv before → step before action after → inv after)
    {origin reached : σ} (reaches : Reaches step origin reached) (initially : inv origin) :
    inv reached := by
  obtain ⟨actions, run⟩ := reaches
  exact run.invariant inv keeps initially

end Reaches

/--
The rule of simulation.

If every step from a state with the invariant is matched by a run of the other system, so is every
run that starts in the invariant.
-/
theorem Run.simulate {abstract : τ → β → τ → Prop} (view : σ → τ) (inv : σ → Prop)
    (keeps : ∀ {before action after}, inv before → step before action after → inv after)
    (matched : ∀ {before action after}, inv before → step before action after →
      Reaches abstract (view before) (view after)) {actions : List α} (initially : inv origin)
    (run : Run step origin actions reached) : Reaches abstract (view origin) (view reached) := by
  -- The invariant holds where the last step begins, so that step is matched too.
  induction run with
  | start => exact .refl _
  | extend earlier taken ih =>
    exact ih.trans (matched (earlier.invariant inv keeps initially) taken)

end Library
