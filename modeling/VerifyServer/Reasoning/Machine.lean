import Mathlib.Logic.Basic

/-!
# Machine — a step function without labels

A program that runs by itself is a partial function from a state to the next one.  It reaches a
property when some number of steps leads to a state that has it; a state without a next one is where
it stops or where a step has no meaning.
-/

namespace VerifyServer.Reasoning

variable {σ : Type*} (step : σ → Option σ)

/-- The state after `n` steps, when all of them can be taken. -/
def steps : Nat → σ → Option σ
  | 0, s => some s
  | n + 1, s => (step s).bind (steps n)

def Reaches (s : σ) (Q : σ → Prop) : Prop := ∃ n t, steps step n s = some t ∧ Q t

variable {step} {s t : σ} {Q : σ → Prop}

theorem reaches_self (h : Q s) : Reaches step s Q := ⟨0, s, rfl, h⟩

theorem reaches_of_step (hstep : step s = some t) (h : Reaches step t Q) : Reaches step s Q := by
  have ⟨n, u, hu, hQ⟩ := h
  refine ⟨n + 1, u, ?_, hQ⟩
  rw [steps, hstep, Option.bind_some, hu]

/-- What a state does not have, a next one must reach. -/
theorem reaches_step_iff (h : ¬Q s) :
    Reaches step s Q ↔ ∃ t, step s = some t ∧ Reaches step t Q := by
  constructor
  · rintro ⟨n, u, hu, hQ⟩
    cases n with
    | zero => exact absurd (Option.some.inj hu ▸ hQ) h
    | succ n =>
      have ⟨t, hstep, hrest⟩ := Option.bind_eq_some_iff.mp hu
      exact ⟨t, hstep, n, u, hrest, hQ⟩
  · rintro ⟨t, hstep, ht⟩
    exact reaches_of_step hstep ht

theorem reaches_iff_of_step (h : ¬Q s) (hstep : step s = some t) :
    Reaches step s Q ↔ Reaches step t Q := by
  rw [reaches_step_iff h, hstep]
  constructor
  · rintro ⟨u, hu, hreach⟩
    exact Option.some.inj hu ▸ hreach
  · exact fun hreach => ⟨t, rfl, hreach⟩

theorem not_reaches_of_stuck (h : ¬Q s) (hstep : step s = none) : ¬Reaches step s Q := by
  rw [reaches_step_iff h]
  rintro ⟨t, ht, _⟩
  cases hstep.symm.trans ht

/-- A loop that takes one element after the other from the front of a list gets through it just when
what it does with them, taken together, has a result. -/
theorem reaches_loop_iff {α β : Type*} {f : β → α → Option β} {loop : List α → β → σ} {next : β → σ}
    (hnil : ∀ b, step (loop [] b) = some (next b))
    (hcons : ∀ a l b, step (loop (a :: l) b) = (f b a).map (loop l))
    (hQ : ∀ l b, ¬Q (loop l b)) (l : List α) (b : β) :
    Reaches step (loop l b) Q ↔ ∃ c, l.foldlM f b = some c ∧ Reaches step (next c) Q := by
  induction l generalizing b with
  | nil =>
    rw [reaches_iff_of_step (hQ [] b) (hnil b)]
    constructor
    · exact fun hreach => ⟨b, rfl, hreach⟩
    · rintro ⟨c, hc, hreach⟩
      exact Option.some.inj hc ▸ hreach
  | cons a l ih =>
    rw [reaches_step_iff (hQ (a :: l) b), hcons, List.foldlM_cons]
    constructor
    · rintro ⟨t, ht, hreach⟩
      have ⟨d, hd, heq⟩ := Option.map_eq_some_iff.mp ht
      have ⟨c, hc, hnext⟩ := (ih d).mp (heq ▸ hreach)
      exact ⟨c, Option.bind_eq_some_iff.mpr ⟨d, hd, hc⟩, hnext⟩
    · rintro ⟨c, hc, hreach⟩
      have ⟨d, hd, hrest⟩ := Option.bind_eq_some_iff.mp hc
      exact ⟨loop l d, Option.map_eq_some_iff.mpr ⟨d, hd, rfl⟩, (ih d).mpr ⟨c, hrest, hreach⟩⟩

end VerifyServer.Reasoning
