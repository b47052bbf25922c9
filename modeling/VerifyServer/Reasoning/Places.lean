import Mathlib

/-!
# Places — resources that are in one place at a time

A component hands a resource (a pointer, a handle) from one place to another: a list, a table, the
hands of a thread.  A placement says what is in each place.  No resource is in two places when it
starts so and every step moves a resource, adds a fresh one, drops one, or renumbers places.
-/

namespace VerifyServer.Reasoning

variable {ι κ ρ : Type*} {place place' : ι → Option ρ}

/-- No resource is in two places. -/
def Unshared (place : ι → Option ρ) : Prop :=
  ∀ x y p, place x = some p → place y = some p → x = y

theorem Unshared.drop (h : Unshared place) (hsub : ∀ x p, place' x = some p → place x = some p) :
    Unshared place' :=
  fun x y p hx hy => h x y p (hsub x p hx) (hsub y p hy)

theorem Unshared.renumber {place' : κ → Option ρ} (h : Unshared place) {f : κ → ι}
    (hf : Function.Injective f) (hsub : ∀ x p, place' x = some p → place (f x) = some p) :
    Unshared place' :=
  fun x y p hx hy => hf (h (f x) (f y) p (hsub x p hx) (hsub y p hy))

/-- What was in `y` is in `x` now. -/
theorem Unshared.move (h : Unshared place) {x y : ι}
    (hx : ∀ p, place' x = some p → place y = some p) (hy : place' y = none)
    (hsub : ∀ z p, z ≠ x → z ≠ y → place' z = some p → place z = some p) : Unshared place' := by
  classical
  apply h.renumber (Equiv.swap x y).injective
  intro z p hz
  by_cases hzx : z = x
  · rw [hzx, Equiv.swap_apply_left]
    exact hx p (hzx ▸ hz)
  · have hzy : z ≠ y := by
      rintro rfl
      cases hy.symm.trans hz
    rw [Equiv.swap_apply_of_ne_of_ne hzx hzy]
    exact hsub z p hzx hzy hz

/-- A resource that was nowhere is in `x` now. -/
theorem Unshared.add (h : Unshared place) {x : ι} {p : ρ} (hx : place' x = some p)
    (hfresh : ∀ y, place y ≠ some p)
    (hsub : ∀ y q, y ≠ x → place' y = some q → place y = some q) : Unshared place' := by
  intro y z q hy hz
  by_cases hyx : y = x
  · by_cases hzx : z = x
    · rw [hyx, hzx]
    · obtain rfl : p = q := Option.some.inj (hx.symm.trans (hyx ▸ hy))
      exact absurd (hsub z p hzx hz) (hfresh z)
  · by_cases hzx : z = x
    · obtain rfl : p = q := Option.some.inj (hx.symm.trans (hzx ▸ hz))
      exact absurd (hsub y p hyx hy) (hfresh y)
    · exact h y z q (hsub y q hyx hy) (hsub z q hzx hz)

/-- A list whose positions are places has no duplicates. -/
theorem Unshared.nodup (h : Unshared place) {l : List ρ} {f : Nat → ι} (hf : Function.Injective f)
    (hl : ∀ k, place (f k) = l[k]?) : l.Nodup := by
  rw [List.nodup_iff_injective_get]
  intro a b hab
  have hat : l[a.val]? = some (l.get a) := List.getElem?_eq_getElem a.isLt
  have hbt : l[b.val]? = some (l.get a) := hab ▸ List.getElem?_eq_getElem b.isLt
  exact Fin.ext (hf (h _ _ _ ((hl a).trans hat) ((hl b).trans hbt)))

/-- What is in another place is not in such a list. -/
theorem Unshared.notMem (h : Unshared place) {l : List ρ} {f : Nat → ι}
    (hl : ∀ k, place (f k) = l[k]?) {x : ι} {p : ρ} (hx : place x = some p) (hne : ∀ k, x ≠ f k) :
    p ∉ l := by
  intro hp
  have ⟨k, hk⟩ := List.mem_iff_getElem?.mp hp
  exact hne k (h x (f k) p hx ((hl k).trans hk))

end VerifyServer.Reasoning
