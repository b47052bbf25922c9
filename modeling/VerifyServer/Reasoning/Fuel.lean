import Mathlib.Tactic.Common
import Mathlib.Tactic.ByContra

/-!
# Fuel — recursions that a measure bounds

A recursive function with fuel has no result when the fuel runs out.  Where each activation either
returns without calling itself, or calls itself once at an argument of smaller measure and wraps up
what it gets back, the measure of the argument is enough fuel.
-/

namespace VerifyServer.Reasoning

variable {σ ρ : Type*}

/-- What one activation of `f` does at `s`, whatever the fuel that is left. -/
def Activation (f : Nat → σ → Option ρ) (μ : σ → Nat) (s : σ) : Prop :=
  (∃ r, ∀ fuel, f (fuel + 1) s = some r) ∨
    ∃ t wrap, μ t < μ s ∧ ∀ fuel, f (fuel + 1) s = (f fuel t).map wrap

theorem fuel_enough {f : Nat → σ → Option ρ} {μ : σ → Nat} (h : ∀ s, Activation f μ s) (s : σ) :
    ∃ r, ∀ fuel, μ s < fuel → f fuel s = some r := by
  induction hn : μ s using Nat.strongRecOn generalizing s with
  | ind n ih =>
    rcases h s with ⟨r, hr⟩ | ⟨t, wrap, hlt, ht⟩
    · apply Exists.intro r
      intro fuel hfuel
      cases fuel with
      | zero => exact absurd hfuel (Nat.not_lt_zero n)
      | succ fuel => exact hr fuel
    · have ⟨r, hr⟩ := ih (μ t) (hn ▸ hlt) t rfl
      apply Exists.intro (wrap r)
      intro fuel hfuel
      cases fuel with
      | zero => exact absurd hfuel (Nat.not_lt_zero n)
      | succ fuel => rw [ht, hr fuel (by omega), Option.map_some]

end VerifyServer.Reasoning
