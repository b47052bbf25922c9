import Mathlib

/-!
# Chain — a message handed along a chain of handlers

Handlers are linked by a partial function.  A message goes to the first one and on to the next as
long as the handlers answer yes.
-/

namespace VerifyServer.Reasoning

variable {H : Type*} (next : H → Option H) (answer : H → Bool)

/-- The handlers a message given to `first` goes to, in order. -/
inductive Propagates : Option H → List H → Prop where
  | nobody : Propagates none []
  | stop {h : H} : answer h = false → Propagates (some h) [h]
  | pass {h : H} {hs : List H} :
      answer h = true → Propagates (next h) hs → Propagates (some h) (h :: hs)

variable {next answer}

theorem Propagates.unique {first : Option H} {hs hs' : List H}
    (h : Propagates next answer first hs) (h' : Propagates next answer first hs') : hs = hs' := by
  induction h generalizing hs' with
  | nobody => cases h'; rfl
  | stop hno =>
    cases h' with
    | stop _ => rfl
    | pass hyes _ => rw [hno] at hyes; contradiction
  | pass hyes _ ih =>
    cases h' with
    | stop hno => rw [hno] at hyes; contradiction
    | pass _ hrest => rw [ih hrest]

/-- The message stays with the first handler when that answers no or is the last. -/
theorem propagates_single {h : H} :
    Propagates next answer (some h) [h] ↔ next h = none ∨ answer h = false := by
  constructor
  · intro hp
    cases hp with
    | stop hno => exact .inr hno
    | pass hyes hrest =>
      cases hnext : next h with
      | none => exact .inl rfl
      | some n => rw [hnext] at hrest; cases hrest
  · intro hor
    by_cases hno : answer h = false
    · exact .stop hno
    · have hlast : next h = none := hor.resolve_right hno
      apply Propagates.pass (Bool.of_not_eq_false hno)
      rw [hlast]
      exact .nobody

/-- Behind every handler of the chain the message goes on as if it had been given to that one. -/
theorem Propagates.suffix {first : Option H} {hs : List H} (h : Propagates next answer first hs)
    {k : H} (hk : k ∈ hs) : ∃ ks, Propagates next answer (some k) ks ∧ ks <:+ hs := by
  induction h with
  | nobody => cases hk
  | stop hno =>
    rw [List.mem_singleton.mp hk]
    exact ⟨_, .stop hno, List.suffix_refl _⟩
  | pass hyes hrest ih =>
    rcases List.mem_cons.mp hk with rfl | hk
    · exact ⟨_, .pass hyes hrest, List.suffix_refl _⟩
    · obtain ⟨ks, hks, hsuf⟩ := ih hk
      exact ⟨ks, hks, hsuf.trans (List.suffix_cons ..)⟩

/-- No handler gets the message twice. -/
theorem Propagates.nodup {first : Option H} {hs : List H} (h : Propagates next answer first hs) :
    hs.Nodup := by
  induction h with
  | nobody => exact List.nodup_nil
  | stop _ => exact List.nodup_singleton _
  | @pass h hs hyes hrest ih =>
    refine List.nodup_cons.mpr ⟨fun hmem => ?_, ih⟩
    -- the chain behind `h` would hold itself and `h`
    obtain ⟨ks, hks, hsuf⟩ := hrest.suffix hmem
    have hlen := hsuf.length_le
    rw [hks.unique (.pass hyes hrest), List.length_cons] at hlen
    omega

/-! ## The whole chain -/

/-- All the handlers from `first` on: where a message goes that every one passes on. -/
abbrev Linked (next : H → Option H) (first : Option H) (hs : List H) : Prop :=
  Propagates next (fun _ => true) first hs

/-- The handlers up to the first that answers no, that one included. -/
def heard (answer : H → Bool) (hs : List H) : List H :=
  hs.takeWhile answer ++ (hs.dropWhile answer).take 1

theorem prefix_of_heard (answer : H → Bool) (hs : List H) : heard answer hs <+: hs := by
  refine ⟨(hs.dropWhile answer).drop 1, ?_⟩
  rw [heard, List.append_assoc, List.take_append_drop, List.takeWhile_append_dropWhile]

theorem Linked.propagates {first : Option H} {hs : List H} (h : Linked next first hs) :
    Propagates next answer first (heard answer hs) := by
  induction h with
  | nobody => exact .nobody
  | stop hno => cases hno
  | @pass k ks _ hrest ih =>
    rw [heard]
    by_cases hyes : answer k = true
    · rw [List.takeWhile_cons_of_pos hyes, List.dropWhile_cons_of_pos hyes]
      exact .pass hyes ih
    · rw [List.takeWhile_cons_of_neg hyes, List.dropWhile_cons_of_neg hyes]
      exact .stop (Bool.of_not_eq_true hyes)

/-- A chain depends on the links of its own handlers only. -/
theorem Linked.congr {next' : H → Option H} {first : Option H} {hs : List H}
    (h : Linked next first hs) (hsame : ∀ k ∈ hs, next' k = next k) : Linked next' first hs := by
  induction h with
  | nobody => exact .nobody
  | stop hno => cases hno
  | pass _ _ ih =>
    apply Propagates.pass rfl
    rw [hsame _ List.mem_cons_self]
    exact ih fun k hk => hsame k (List.mem_cons_of_mem _ hk)

section Relinking

variable [DecidableEq H]

/-- `x` behind `v`, before what was there. -/
def insertBehind (v x : H) : List H → List H
  | [] => []
  | h :: hs => if h = v then h :: x :: hs else h :: insertBehind v x hs

/-- `x` behind `v`, in the place of the handler that was there, if any was. -/
def replaceBehind (v x : H) : List H → List H
  | [] => []
  | h :: hs => if h = v then h :: x :: hs.tail else h :: replaceBehind v x hs

variable {v x : H} {first : Option H} {hs : List H}

/-- Links that lead from `v` to `x`, and from there to what followed `v`. -/
theorem Linked.insert {next' : H → Option H} (h : Linked next first hs) (hx : x ∉ hs)
    (hv : next' v = some x) (hx' : next' x = next v)
    (hsame : ∀ k, k ≠ v → k ≠ x → next' k = next k) :
    Linked next' first (insertBehind v x hs) := by
  have hnodup := h.nodup
  induction h with
  | nobody => exact .nobody
  | stop hno => cases hno
  | @pass k ks _ hrest ih =>
    have ⟨hk, hks⟩ := List.nodup_cons.mp hnodup
    have ⟨hxk, hxks⟩ := not_or.mp (fun hor => hx (List.mem_cons.mpr hor))
    rw [insertBehind]
    by_cases hkv : k = v
    · rw [if_pos hkv, hkv]
      apply Propagates.pass rfl
      rw [hv]
      apply Propagates.pass rfl
      rw [hx', ← hkv]
      apply Linked.congr hrest
      intro j hj
      apply hsame
      · rintro rfl
        exact hk (hkv ▸ hj)
      · rintro rfl
        exact hxks hj
    · rw [if_neg hkv]
      apply Propagates.pass rfl
      rw [hsame k hkv (Ne.symm hxk)]
      exact ih hxks hks

/-- Links that lead from `v` to `x`, and from there to what followed the one behind `v`. -/
theorem Linked.replace {next' : H → Option H} (h : Linked next first hs) (hx : x ∉ hs)
    (hv : next' v = some x) (hx' : next' x = (next v).bind next)
    (hsame : ∀ k, k ≠ v → k ≠ x → next' k = next k) :
    Linked next' first (replaceBehind v x hs) := by
  have hnodup := h.nodup
  induction h with
  | nobody => exact .nobody
  | stop hno => cases hno
  | @pass k ks _ hrest ih =>
    have ⟨hk, hks⟩ := List.nodup_cons.mp hnodup
    have ⟨hxk, hxks⟩ := not_or.mp (fun hor => hx (List.mem_cons.mpr hor))
    rw [replaceBehind]
    by_cases hkv : k = v
    · rw [if_pos hkv, hkv]
      apply Propagates.pass rfl
      rw [hv]
      apply Propagates.pass rfl
      rw [hx', ← hkv]
      have htail : Linked next ((next k).bind next) ks.tail := by
        generalize next k = second at hrest ⊢
        cases hrest with
        | nobody => exact .nobody
        | stop hno => cases hno
        | pass _ hrest => exact hrest
      apply Linked.congr htail
      intro j hj
      apply hsame
      · rintro rfl
        exact hk (hkv ▸ List.mem_of_mem_tail hj)
      · rintro rfl
        exact hxks (List.mem_of_mem_tail hj)
    · rw [if_neg hkv]
      apply Propagates.pass rfl
      rw [hsame k hkv (Ne.symm hxk)]
      exact ih hxks hks

end Relinking

end VerifyServer.Reasoning
