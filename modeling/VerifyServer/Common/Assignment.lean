import VerifyServer.Common.UseCount

/-!
# Assignment — `operator=` of `CUseCount` beside `Reattach`

Both give a handle the counter of another.  The assignment raises and lowers the counter of the
other handle and leaves its own as it is.
-/

namespace VerifyServer.Common

/-! ## 1. The two calls -/

/-- An owner of `p` becomes one of `q`. -/
def Counters.move (heap : Counters) (p q : Nat) : Counters :=
  fun x => (heap x).map fun v => v + (if x = q then 1 else 0) - if x = p then 1 else 0

variable {H : Type} [DecidableEq H]

/-- `operator=(const CUseCount &u)`. -/
def assign (s : UseCounts H) (h u : H) : Option (UseCounts H) := do
  let heap ← atomicInc s.heap (s.m_pCount u)
  -- lowered again, not the counter of `h`
  let heap ← atomicDec heap (s.m_pCount u)
  let count ← heap (s.m_pCount h)
  let heap ← if count ≤ 0 then freeCount heap (s.m_pCount h) else some heap
  some { s with heap := heap, m_pCount := Function.update s.m_pCount h (s.m_pCount u) }

/-- `h` gives up its counter, which is freed when that leaves zero, and joins the owners of the
counter of `u`. -/
def transferred (s : UseCounts H) (h u : H) : UseCounts H :=
  let heap := s.heap.move (s.m_pCount h) (s.m_pCount u)
  { s with
    heap := fun x => if x = s.m_pCount h ∧ heap x = some 0 then none else heap x
    m_pCount := Function.update s.m_pCount h (s.m_pCount u) }

/-! ## 2. What they leave -/

section Results

variable {heap : Counters} {p q : Nat} {v w : Int}

theorem move_self (x : Nat) : heap.move p p x = heap x := by
  unfold Counters.move
  simp only [Int.add_sub_cancel, Option.map_id']

theorem move_left (hp : heap p = some v) (hpq : p ≠ q) : heap.move p q p = some (v - 1) := by
  unfold Counters.move
  rw [hp, Option.map_some, if_neg hpq, if_pos rfl, Int.add_zero]

theorem move_right (hq : heap q = some w) (hpq : p ≠ q) : heap.move p q q = some (w + 1) := by
  unfold Counters.move
  rw [hq, Option.map_some, if_pos rfl, if_neg hpq.symm, Int.sub_zero]

theorem move_other {x : Nat} (hp : x ≠ p) (hq : x ≠ q) : heap.move p q x = heap x := by
  unfold Counters.move
  simp only [hp, hq, if_false, Int.add_zero, Int.sub_zero, Option.map_id']

/-- Raising one counter and lowering another moves an owner. -/
theorem atomicDec_atomicInc (hp : heap p = some v) (hq : heap q = some w) :
    (atomicInc heap q).bind (atomicDec · p) = some (heap.move p q) := by
  unfold atomicInc atomicDec
  rw [hq, Option.map_some, Option.bind_some]
  by_cases hpq : p = q
  · subst hpq
    rw [Function.update_self, Option.map_some, Function.update_idem, Int.add_sub_cancel, ← hq,
      Function.update_eq_self, Option.some.injEq]
    exact funext fun x => (move_self x).symm
  · rw [Function.update_of_ne hpq, hp, Option.map_some, Option.some.injEq]
    funext x
    by_cases hxp : x = p
    · rw [hxp, Function.update_self, move_left hp hpq]
    · rw [Function.update_of_ne hxp]
      by_cases hxq : x = q
      · rw [hxq, Function.update_self, move_right hq hpq]
      · rw [Function.update_of_ne hxq, move_other hxp hxq]

theorem exists_move (hp : heap p = some v) : ∃ n, heap.move p q p = some n :=
  ⟨_, Option.map_eq_some_iff.mpr ⟨v, hp, rfl⟩⟩

variable {s : UseCounts H} {h u : H}

theorem assign_eq (hh : s.heap (s.m_pCount h) = some v) (hu : s.heap (s.m_pCount u) = some w) :
    assign s h u = some { s with
      heap := if v ≤ 0 then Function.update s.heap (s.m_pCount h) none else s.heap
      m_pCount := Function.update s.m_pCount h (s.m_pCount u) } := by
  have hsame : s.heap.move (s.m_pCount u) (s.m_pCount u) = s.heap := funext move_self
  have hcounter := atomicDec_atomicInc hu hu
  rw [hsame] at hcounter
  unfold assign
  simp only [Option.bind_eq_bind]
  rw [← Option.bind_assoc, hcounter, Option.bind_some, hh, Option.bind_some]
  by_cases hv : v ≤ 0
  · rw [if_pos hv, if_pos hv, freeCount, hh]
    rfl
  · rw [if_neg hv, if_neg hv]
    rfl

theorem reattach_eq (hh : s.heap (s.m_pCount h) = some v) (hu : s.heap (s.m_pCount u) = some w) :
    (reattach s h u).map (·.2) = some (transferred s h u) := by
  have ⟨n, hn⟩ := exists_move (q := s.m_pCount u) hh
  unfold reattach transferred
  simp only [Option.bind_eq_bind]
  rw [← Option.bind_assoc, atomicDec_atomicInc hh hu, Option.bind_some, hn, Option.bind_some]
  by_cases hzero : n = 0
  · rw [if_pos hzero, freeCount, hn, Option.map_some, Option.bind_some, Option.map_some,
      Option.some.injEq, UseCounts.mk.injEq]
    refine ⟨funext fun x => ?_, rfl, rfl, rfl⟩
    by_cases hx : x = s.m_pCount h
    · rw [hx, Function.update_self, if_pos ⟨rfl, hzero ▸ hn⟩]
    · rw [Function.update_of_ne hx, if_neg fun hlast => hx hlast.1]
  · rw [if_neg hzero, Option.map_some, Option.some.injEq, UseCounts.mk.injEq]
    refine ⟨funext fun x => (if_neg ?_).symm, rfl, rfl, rfl⟩
    rintro ⟨rfl, hlast⟩
    exact hzero (Option.some.inj (hn.symm.trans hlast))

end Results

/-! ## 3. When they agree -/

theorem assign_eq_transferred_iff {s : UseCounts H} {h u : H} {v w : Int}
    (hh : s.heap (s.m_pCount h) = some v) (hu : s.heap (s.m_pCount u) = some w) :
    assign s h u = some (transferred s h u) ↔ s.m_pCount h = s.m_pCount u ∧ 0 ≤ v := by
  rw [assign_eq hh hu, transferred, Option.some.injEq, UseCounts.mk.injEq]
  constructor
  · rintro ⟨hheap, -⟩
    have hshared : s.m_pCount h = s.m_pCount u := by
      by_contra hne
      have hleft : (if v ≤ 0 then Function.update s.heap (s.m_pCount h) none else s.heap)
          (s.m_pCount u) = some w := by
        split
        · rw [Function.update_of_ne (Ne.symm hne), hu]
        · exact hu
      have hat := congrFun hheap (s.m_pCount u)
      rw [hleft, move_right hu hne, if_neg fun hlast => hne hlast.1.symm] at hat
      have hcount := Option.some.inj hat
      omega
    refine ⟨hshared, Int.not_lt.mp fun hneg => ?_⟩
    have hat := congrFun hheap (s.m_pCount h)
    rw [if_pos (by omega), Function.update_self, ← hshared, move_self, hh, if_neg] at hat
    · cases hat
    · rintro ⟨-, hzero⟩
      have := Option.some.inj hzero
      omega
  · rintro ⟨hshared, hv⟩
    refine ⟨funext fun x => ?_, rfl, rfl, rfl⟩
    rw [← hshared, move_self]
    by_cases hx : x = s.m_pCount h ∧ s.heap x = some 0
    · have hzero : v = 0 := Option.some.inj (hh.symm.trans (hx.1 ▸ hx.2))
      rw [if_pos hx, if_pos hzero.le, hx.1, Function.update_self]
    · rw [if_neg hx]
      split
      · next hle =>
        refine Function.update_of_ne (fun heq => hx ⟨heq, ?_⟩) ..
        rw [heq, hh]
        congr 1
        omega
      · rfl

/-- Where every counter holds the number of its owners, a shared counter alone is left right. -/
theorem Counted.assign_eq_iff {s : UseCounts H} (hs : Counted s) {h u : H} (hh : h ∈ s.live)
    (hu : u ∈ s.live) :
    assign s h u = some (transferred s h u) ↔ s.m_pCount h = s.m_pCount u := by
  have ⟨v, hv⟩ := Option.ne_none_iff_exists'.mp (hs.counter h hh)
  have ⟨w, hw⟩ := Option.ne_none_iff_exists'.mp (hs.counter u hu)
  have hvalue := hs.value _ v hv
  rw [assign_eq_transferred_iff hv hw]
  exact and_iff_left (by omega)

/-- The assignment leaves what `Reattach` leaves just when the two handles share a counter, which is
not negative. -/
theorem assign_reattach_iff {s : UseCounts H} {h u : H} {v w : Int}
    (hh : s.heap (s.m_pCount h) = some v) (hu : s.heap (s.m_pCount u) = some w) :
    (assign s h u = (reattach s h u).map (·.2) ∧ assign s h u = some (transferred s h u)) ↔
      s.m_pCount h = s.m_pCount u ∧ 0 ≤ v := by
  rw [reattach_eq hh hu, and_self]
  exact assign_eq_transferred_iff hh hu

/-- A handle and its copy. -/
theorem assign_reattach_iff_copy :
    ∃ s, copyConstruct (construct noCounts false) true false = some s ∧
      (assign s false true = (reattach s false true).map (·.2) ∧
        assign s false true = some (transferred s false true)) := by
  have ⟨s, hs⟩ : ∃ s, copyConstruct (construct noCounts false) true false = some s := ⟨_, rfl⟩
  obtain rfl := Option.some.inj hs
  exact ⟨_, rfl, (assign_reattach_iff (v := 2) (w := 2) rfl rfl).mpr ⟨rfl, by decide⟩⟩

/-- Two handles of one counter each: the counter given up stays, and the other has two owners and
the value one. -/
theorem assign_leaves_counter :
    let s := construct (construct noCounts false) true
    (assign s false true).map (fun t => (t.heap 0, t.heap 1)) = some (some 1, some 1) ∧
    (reattach s false true).map (fun t => (t.2.heap 0, t.2.heap 1)) = some (none, some 2) ∧
    assign s false true ≠ (reattach s false true).map (·.2) := by
  refine ⟨rfl, rfl, fun heq => ?_⟩
  have hheap := congrArg (Option.map fun t => t.heap 0) heq
  revert hheap
  decide

end VerifyServer.Common
