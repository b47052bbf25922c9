import Mathlib

/-!
# Run — finite runs of a labelled step function

A component is a partial function from a state and a label to the next state; a label names the
party that moves and the choices the environment makes in that move, so an interleaving is a list
of labels.  A property of every run is proved from one step; a step may be known to meet a
condition on the state before it.
-/

namespace VerifyServer.Reasoning

variable {σ α : Type*} (step : σ → α → Option σ)

/-- The state after a list of labels, when every step of it can be taken. -/
def run : σ → List α → Option σ
  | s, [] => some s
  | s, a :: as => (step s a).bind fun t => run t as

/-- Every step the labels take from `s` meets `P` on the state before it. -/
def RunMeets (P : σ → α → Prop) : σ → List α → Prop
  | _, [] => True
  | s, a :: as => P s a ∧ ∀ t, step s a = some t → RunMeets P t as

/-- Runs can be tested on concrete labels. -/
instance RunMeets.decidable {P : σ → α → Prop} [∀ s a, Decidable (P s a)] :
    ∀ s as, Decidable (RunMeets step P s as)
  | _, [] => isTrue trivial
  | s, a :: as =>
    have : Decidable (∀ t, step s a = some t → RunMeets step P t as) :=
      match h : step s a with
      | none => isTrue fun t ht => by cases ht
      | some t =>
        have := RunMeets.decidable (P := P) t as
        decidable_of_iff (RunMeets step P t as)
          ⟨fun hm u hu => Option.some.inj hu ▸ hm, fun hm => hm t rfl⟩
    inferInstanceAs (Decidable (_ ∧ _))

variable {step}

theorem run_cons_eq_some {s u : σ} {a : α} {as : List α} :
    run step s (a :: as) = some u ↔ ∃ t, step s a = some t ∧ run step t as = some u := by
  rw [run, Option.bind_eq_some_iff]

theorem run_append {s t : σ} {as bs : List α} (h : run step s as = some t) :
    run step s (as ++ bs) = run step t bs := by
  induction as generalizing s with
  | nil => rw [← Option.some.inj h, List.nil_append]
  | cons a as ih =>
    obtain ⟨u, hu, hrun⟩ := run_cons_eq_some.mp h
    rw [List.cons_append, run, hu, Option.bind_some, ih hrun]

/-- What a step that meets the condition preserves, a run whose steps all meet it preserves. -/
theorem run_invariant {P : σ → α → Prop} {I : σ → Prop}
    (hstep : ∀ s a t, I s → P s a → step s a = some t → I t) {s t : σ} {as : List α}
    (hs : I s) (hP : RunMeets step P s as) (h : run step s as = some t) : I t := by
  induction as generalizing s with
  | nil => exact Option.some.inj h ▸ hs
  | cons a as ih =>
    obtain ⟨u, hu, hrun⟩ := run_cons_eq_some.mp h
    exact ih (hstep s a u hs hP.1 hu) (hP.2 u hu) hrun

theorem runMeets_of_forall {P : σ → α → Prop} {as : List α} (hP : ∀ s, ∀ a ∈ as, P s a) (s : σ) :
    RunMeets step P s as := by
  induction as generalizing s with
  | nil => trivial
  | cons a as ih =>
    exact ⟨hP s a (List.mem_cons_self ..),
      fun t _ => ih (fun s b hb => hP s b (List.mem_cons_of_mem _ hb)) t⟩

/-- Two conditions that agree on the states an invariant allows agree on every run, when the steps
that meet the first keep the invariant. -/
theorem runMeets_congr_of_invariant {P Q : σ → α → Prop} {I : σ → Prop}
    (hstep : ∀ s a t, I s → P s a → step s a = some t → I t)
    (hPQ : ∀ s a, I s → (P s a ↔ Q s a)) {s : σ} (hs : I s) (as : List α) :
    RunMeets step P s as ↔ RunMeets step Q s as := by
  induction as generalizing s with
  | nil => exact Iff.rfl
  | cons a as ih =>
    rw [RunMeets, RunMeets, ← hPQ s a hs]
    exact and_congr_right fun hP => forall₂_congr fun t ht => ih (hstep s a t hs hP ht)

theorem runMeets_congr {P Q : σ → α → Prop} (hPQ : ∀ s a, P s a ↔ Q s a) (s : σ) (as : List α) :
    RunMeets step P s as ↔ RunMeets step Q s as :=
  runMeets_congr_of_invariant (I := fun _ => True) (fun _ _ _ _ _ _ => trivial)
    (fun s a _ => hPQ s a) trivial as

/-- Where every step that meets the condition can be taken and keeps an invariant, the run goes
through, and a property of such steps holds of each of them. -/
theorem runMeets_of_invariant {P Q : σ → α → Prop} {I : σ → Prop}
    (hstep : ∀ s a, I s → P s a → ∃ t, step s a = some t ∧ I t)
    (hPQ : ∀ s a, I s → P s a → Q s a) {s : σ} (hs : I s) {as : List α}
    (hP : RunMeets step P s as) :
    RunMeets step Q s as ∧ ∃ t, run step s as = some t ∧ I t := by
  induction as generalizing s with
  | nil => exact ⟨trivial, s, rfl, hs⟩
  | cons a as ih =>
    have ⟨t, hst, ht⟩ := hstep s a hs hP.1
    have ⟨hmeets, u, hrun, hu⟩ := ih ht (hP.2 t hst)
    refine ⟨⟨hPQ s a hs hP.1, fun t' ht' => ?_⟩, u, run_cons_eq_some.mpr ⟨t, hst, hrun⟩, hu⟩
    rw [hst, Option.some.injEq] at ht'
    exact ht' ▸ hmeets

theorem RunMeets.and {P Q : σ → α → Prop} {s : σ} {as : List α} (hP : RunMeets step P s as)
    (hQ : RunMeets step Q s as) : RunMeets step (fun s a => P s a ∧ Q s a) s as := by
  induction as generalizing s with
  | nil => trivial
  | cons a as ih => exact ⟨⟨hP.1, hQ.1⟩, fun t ht => ih (hP.2 t ht) (hQ.2 t ht)⟩

/-- What every step preserves, every run preserves. -/
theorem run_preserves {I : σ → Prop} (hstep : ∀ s a t, I s → step s a = some t → I t) {s t : σ}
    {as : List α} (hs : I s) (h : run step s as = some t) : I t :=
  run_invariant (P := fun _ _ => True) (fun s a t hi _ hst => hstep s a t hi hst) hs
    (runMeets_of_forall (fun _ _ _ => trivial) s) h

/-- Either every step of a run met the condition, which keeps the invariant, or one did not and led
into a set of states that no step leaves. -/
theorem run_meets_or_trapped {P : σ → α → Prop} {I T : σ → Prop}
    (hstep : ∀ s a t, I s → P s a → step s a = some t → I t)
    (htrap : ∀ s a t, I s → ¬P s a → step s a = some t → T t)
    (hkeep : ∀ s a t, T s → step s a = some t → T t) {s t : σ} {as : List α} (hs : I s)
    (h : run step s as = some t) : RunMeets step P s as ∧ I t ∨ T t := by
  induction as generalizing s with
  | nil => exact .inl ⟨trivial, Option.some.inj h ▸ hs⟩
  | cons a as ih =>
    have ⟨u, hu, hrun⟩ := run_cons_eq_some.mp h
    by_cases hP : P s a
    · refine (ih (hstep s a u hs hP hu) hrun).imp_left fun ⟨hmeets, ht⟩ => ⟨⟨hP, ?_⟩, ht⟩
      intro v hv
      exact Option.some.inj (hu.symm.trans hv) ▸ hmeets
    · exact .inr (run_preserves hkeep (htrap s a u hs hP hu) hrun)

/-- A step function with more state takes the runs of the one it extends. -/
theorem run_map {τ : Type*} {step' : τ → α → Option τ} {g : τ → σ}
    (hg : ∀ s a, (step' s a).map g = step (g s) a) (s : τ) (as : List α) :
    (run step' s as).map g = run step (g s) as := by
  induction as generalizing s with
  | nil => rfl
  | cons a as ih =>
    rw [run, run, ← hg, Option.map_bind, Option.bind_map]
    exact Option.bind_congr fun t _ => ih t

theorem runMeets_map {τ : Type*} {step' : τ → α → Option τ} {g : τ → σ}
    (hg : ∀ s a, (step' s a).map g = step (g s) a) {P : σ → α → Prop} (s : τ) (as : List α) :
    RunMeets step' (fun s a => P (g s) a) s as ↔ RunMeets step P (g s) as := by
  induction as generalizing s with
  | nil => exact Iff.rfl
  | cons a as ih =>
    rw [RunMeets, RunMeets, ← hg]
    refine and_congr_right fun _ => ⟨fun h t ht => ?_, fun h t ht => ?_⟩
    · have ⟨u, hu, heq⟩ := Option.map_eq_some_iff.mp ht
      exact heq ▸ (ih u).mp (h u hu)
    · exact (ih t).mpr (h (g t) (Option.map_eq_some_iff.mpr ⟨t, ht, rfl⟩))

/-- What a run meets, it meets in the state that a first part of it leads to. -/
theorem RunMeets.after {P : σ → α → Prop} {s t : σ} {as bs : List α}
    (h : RunMeets step P s (as ++ bs)) (hrun : run step s as = some t) : RunMeets step P t bs := by
  induction as generalizing s with
  | nil => exact Option.some.inj hrun ▸ h
  | cons a as ih =>
    have ⟨u, hu, hrest⟩ := run_cons_eq_some.mp hrun
    exact ih (h.2 u hu) hrest

/-- A measure that no step raises, and that a step leaves alone just when it meets the condition, has
its old value after a run just when every step of the run met the condition. -/
theorem run_measure {P : σ → α → Prop} {I : σ → Prop} {f : σ → Nat}
    (hstep : ∀ s a t, I s → step s a = some t → I t ∧ f t ≤ f s ∧ (f t = f s ↔ P s a))
    {s t : σ} {as : List α} (hs : I s) (h : run step s as = some t) :
    I t ∧ f t ≤ f s ∧ (f t = f s ↔ RunMeets step P s as) := by
  induction as generalizing s with
  | nil =>
    obtain rfl := Option.some.inj h
    exact ⟨hs, le_refl _, iff_of_true rfl trivial⟩
  | cons a as ih =>
    have ⟨u, hu, hrun⟩ := run_cons_eq_some.mp h
    have ⟨hiu, hle, hiff⟩ := hstep s a u hs hu
    have ⟨hit, hle', hiff'⟩ := ih hiu hrun
    refine ⟨hit, hle'.trans hle, fun heq => ?_, fun ⟨hP, hrest⟩ => ?_⟩
    · refine ⟨hiff.mp (by omega), fun v hv => ?_⟩
      obtain rfl : u = v := Option.some.inj (hu ▸ hv)
      exact hiff'.mp (by omega)
    · rw [hiff'.mpr (hrest u hu), hiff.mpr hP]

end VerifyServer.Reasoning
