import VerifyServer.Reasoning.Run

/-!
# UseCount — handles that share a counter

A counter is one `new atomic_t(1)`; counters are numbered in that order, so a number stands for a
pointer and never comes back after its `delete`.  A read, a write or a second `delete` of a freed
counter has no result.  `atomic_t` is a `long` and the library is built for 32-bit addresses only:
handles of four bytes each cannot make a counter overflow, and it is an integer here.
-/

open VerifyServer.Reasoning

namespace VerifyServer.Common

/-! ## 1. Counters -/

abbrev Counters := Nat → Option Int

def atomicInc (heap : Counters) (p : Nat) : Option Counters :=
  (heap p).map fun v => Function.update heap p (some (v + 1))

def atomicDec (heap : Counters) (p : Nat) : Option Counters :=
  (heap p).map fun v => Function.update heap p (some (v - 1))

/-- `delete m_pCount`. -/
def freeCount (heap : Counters) (p : Nat) : Option Counters :=
  (heap p).map fun _ => Function.update heap p none

/-! ## 2. Handles and the number of owners -/

variable {H : Type}

/-- The counters, and the handles that are constructed and not destroyed. -/
structure UseCounts (H : Type) where
  heap : Counters
  made : Nat
  live : Finset H
  m_pCount : H → Nat

def noCounts : UseCounts H := ⟨fun _ => none, 0, ∅, fun _ => 0⟩

/-- The live handles that point to a counter. -/
def owners (s : UseCounts H) (p : Nat) : Finset H := s.live.filter (s.m_pCount · = p)

/-- Every live counter's value is the number of its owners, and every handle's counter is live. -/
structure Counted (s : UseCounts H) : Prop where
  value : ∀ p v, s.heap p = some v → v = (owners s p).card
  counter : ∀ h ∈ s.live, s.heap (s.m_pCount h) ≠ none

def countOf : Nat → Option Int
  | 0 => none
  | n + 1 => some (n + 1)

/-- Each counter holds the number of its owners and is freed when there is none. -/
structure Tallied (s : UseCounts H) : Prop where
  heap : ∀ p, s.heap p = countOf (owners s p).card
  made : ∀ p, s.made ≤ p → s.heap p = none

theorem countOf_of_pos {n : Nat} (h : 0 < n) : countOf n = some (n : Int) := by
  cases n with
  | zero => omega
  | succ n => rfl

theorem countOf_eq_none {n : Nat} : countOf n = none ↔ n = 0 := by
  cases n with
  | zero => exact iff_of_true rfl rfl
  | succ n => exact iff_of_false nofun nofun

theorem Tallied.counted {s : UseCounts H} (hs : Tallied s) : Counted s where
  value p v hv := by
    rw [hs.heap] at hv
    cases hn : (owners s p).card with
    | zero =>
      rw [hn] at hv
      cases hv
    | succ n =>
      rw [hn] at hv
      exact (Option.some.inj hv).symm
  counter h hh := by
    rw [hs.heap, Ne, countOf_eq_none, Finset.card_eq_zero]
    exact Finset.ne_empty_of_mem (Finset.mem_filter.mpr ⟨hh, rfl⟩)

theorem Tallied.freed {s t : UseCounts H} (hs : Tallied s) (ht : Tallied t) (p : Nat) :
    (s.heap p ≠ none ∧ t.heap p = none) ↔ ((owners s p).Nonempty ∧ owners t p = ∅) := by
  rw [hs.heap, ht.heap, Ne, countOf_eq_none, countOf_eq_none, Finset.card_eq_zero,
    Finset.card_eq_zero, Finset.nonempty_iff_ne_empty]

/-- The counter of a live handle. -/
theorem Tallied.own {s : UseCounts H} (hs : Tallied s) {h : H} (hh : h ∈ s.live) :
    0 < (owners s (s.m_pCount h)).card ∧
      s.heap (s.m_pCount h) = some ((owners s (s.m_pCount h)).card : Int) := by
  have hpos : 0 < (owners s (s.m_pCount h)).card :=
    Finset.card_pos.mpr ⟨h, Finset.mem_filter.mpr ⟨hh, rfl⟩⟩
  exact ⟨hpos, by rw [hs.heap, countOf_of_pos hpos]⟩

/-! ## 3. The operations -/

variable [DecidableEq H]

/-- `new atomic_t(1)` with its pointer stored in `h`. -/
def newCount (s : UseCounts H) (h : H) : UseCounts H :=
  { s with
    heap := Function.update s.heap s.made (some 1)
    made := s.made + 1
    m_pCount := Function.update s.m_pCount h s.made }

/-- `CUseCount()`. -/
def construct (s : UseCounts H) (h : H) : UseCounts H :=
  { newCount s h with live := insert h s.live }

/-- `CUseCount(const CUseCount &u)`. -/
def copyConstruct (s : UseCounts H) (h u : H) : Option (UseCounts H) := do
  let heap ← atomicInc s.heap (s.m_pCount u)
  some { s with
    heap := heap
    live := insert h s.live
    m_pCount := Function.update s.m_pCount h (s.m_pCount u) }

/-- `~CUseCount()`. -/
def destroy (s : UseCounts H) (h : H) : Option (UseCounts H) := do
  let heap ← atomicDec s.heap (s.m_pCount h)
  let count ← heap (s.m_pCount h)
  let heap ← if count ≤ 0 then freeCount heap (s.m_pCount h) else some heap
  some { s with heap := heap, live := s.live.erase h }

def only (s : UseCounts H) (h : H) : Option Bool := do
  let count ← s.heap (s.m_pCount h)
  some (count == 1)

def reattach (s : UseCounts H) (h u : H) : Option (Bool × UseCounts H) := do
  let heap ← atomicInc s.heap (s.m_pCount u)
  let heap ← atomicDec heap (s.m_pCount h)
  let count ← heap (s.m_pCount h)
  let m_pCount := Function.update s.m_pCount h (s.m_pCount u)
  if count = 0 then
    let heap ← freeCount heap (s.m_pCount h)
    some (true, { s with heap := heap, m_pCount := m_pCount })
  else some (false, { s with heap := heap, m_pCount := m_pCount })

def makeonly (s : UseCounts H) (h : H) : Option (Bool × UseCounts H) := do
  let count ← s.heap (s.m_pCount h)
  if count = 1 then some (false, s)
  else
    let heap ← atomicDec s.heap (s.m_pCount h)
    some (true, newCount { s with heap := heap } h)

inductive UseCall (H : Type) where
  | construct (h : H)
  | copyConstruct (h u : H)
  | reattach (h u : H)
  | makeonly (h : H)
  | only (h : H)
  | destroy (h : H)

/-- A handle is constructed where there is none, and used while it is there. -/
def UseCall.wellFormed (s : UseCounts H) : UseCall H → Prop
  | .construct h => h ∉ s.live
  | .copyConstruct h u => h ∉ s.live ∧ u ∈ s.live
  | .reattach h u => h ∈ s.live ∧ u ∈ s.live
  | .makeonly h | .only h | .destroy h => h ∈ s.live

instance (s : UseCounts H) : DecidablePred (UseCall.wellFormed s)
  | .construct _ | .copyConstruct _ _ | .reattach _ _ | .makeonly _ | .only _ | .destroy _ => by
    unfold UseCall.wellFormed
    infer_instance

/-- The state a call leaves. -/
def perform (s : UseCounts H) : UseCall H → Option (UseCounts H)
  | .construct h => some (construct s h)
  | .copyConstruct h u => copyConstruct s h u
  | .reattach h u => (reattach s h u).map (·.2)
  | .makeonly h => (makeonly s h).map (·.2)
  | .only h => (only s h).map fun _ => s
  | .destroy h => destroy s h

def stepUse (s : UseCounts H) (call : UseCall H) : Option (UseCounts H) :=
  if call.wellFormed s then perform s call else none

/-- The call touches no freed counter, leaves every value right, and frees a counter just when its
last owner leaves it; `Only` is true for a sole owner alone. -/
structure UsedRight (s : UseCounts H) (call : UseCall H) (t : UseCounts H) : Prop where
  performed : perform s call = some t
  counted : Counted t
  freed : ∀ p, (s.heap p ≠ none ∧ t.heap p = none) ↔ ((owners s p).Nonempty ∧ owners t p = ∅)
  only : ∀ h, call = .only h → only s h = some (decide (owners s (s.m_pCount h) = {h}))

/-! ## 4. Owners that come and go -/

theorem card_attach {live : Finset H} {m : H → Nat} {h : H} (hh : h ∉ live) (q p : Nat) :
    ((insert h live).filter (Function.update m h q · = p)).card =
      (live.filter (m · = p)).card + if q = p then 1 else 0 := by
  have hrest : live.filter (Function.update m h q · = p) = live.filter (m · = p) :=
    Finset.filter_congr fun x hx => by
      have hne : x ≠ h := fun heq => hh (heq ▸ hx)
      rw [Function.update_of_ne hne]
  rw [Finset.filter_insert, Function.update_self, hrest]
  by_cases hq : q = p
  · rw [if_pos hq, if_pos hq]
    exact Finset.card_insert_of_notMem fun hmem => hh (Finset.mem_filter.mp hmem).1
  · rw [if_neg hq, if_neg hq, Nat.add_zero]

theorem card_detach {live : Finset H} {m : H → Nat} {h : H} (hh : h ∈ live) (p : Nat) :
    ((live.erase h).filter (m · = p)).card + (if m h = p then 1 else 0) =
      (live.filter (m · = p)).card := by
  have hattach := card_attach (m := m) (Finset.notMem_erase h live) (m h) p
  rw [Function.update_eq_self, Finset.insert_erase hh] at hattach
  exact hattach.symm

theorem card_move {live : Finset H} {m : H → Nat} {h : H} (hh : h ∈ live) (q p : Nat) :
    (live.filter (Function.update m h q · = p)).card + (if m h = p then 1 else 0) =
      (live.filter (m · = p)).card + if q = p then 1 else 0 := by
  have hattach := card_attach (m := m) (Finset.notMem_erase h live) q p
  rw [Finset.insert_erase hh] at hattach
  have hdetach := card_detach (m := m) hh p
  omega

/-! ## 5. The calls -/

omit [DecidableEq H] in
theorem tallied_of {heap : Counters} {made : Nat} {live : Finset H} {m_pCount : H → Nat}
    (hheap : ∀ p, heap p = countOf (live.filter (m_pCount · = p)).card)
    (hmade : ∀ p, made ≤ p → heap p = none) : Tallied ⟨heap, made, live, m_pCount⟩ :=
  ⟨hheap, hmade⟩

omit [DecidableEq H] in
theorem Tallied.ne_of_made_le {s : UseCounts H} (hs : Tallied s) {h : H} (hh : h ∈ s.live) {p : Nat}
    (hp : s.made ≤ p) : p ≠ s.m_pCount h := by
  rintro rfl
  cases (hs.own hh).2.symm.trans (hs.made _ hp)

omit [DecidableEq H] in
theorem Tallied.unmade {s : UseCounts H} (hs : Tallied s) :
    (s.live.filter (s.m_pCount · = s.made)).card = 0 :=
  countOf_eq_none.mp ((hs.heap s.made).symm.trans (hs.made s.made (Nat.le_refl _)))

theorem construct_tallied {s : UseCounts H} (hs : Tallied s) {h : H} (hh : h ∉ s.live) :
    Tallied (construct s h) := by
  unfold construct newCount
  apply tallied_of <;> dsimp only
  · intro p
    rw [card_attach hh]
    by_cases hp : p = s.made
    · subst hp
      rw [Function.update_self, hs.unmade, if_pos rfl]
      rfl
    · rw [Function.update_of_ne hp, if_neg (Ne.symm hp), hs.heap]
      rfl
  · intro p hp
    rw [Function.update_of_ne (by omega)]
    exact hs.made p (by omega)

theorem copyConstruct_tallied {s : UseCounts H} (hs : Tallied s) {h u : H} (hh : h ∉ s.live)
    (hu : u ∈ s.live) : ∃ t, copyConstruct s h u = some t ∧ Tallied t := by
  have ⟨hpos, hheap⟩ := hs.own hu
  unfold copyConstruct atomicInc
  simp only [hheap, Option.map_some, Option.bind_eq_bind, Option.bind_some]
  refine ⟨_, rfl, ?_⟩
  apply tallied_of
  · intro p
    rw [card_attach hh]
    by_cases hp : p = s.m_pCount u
    · subst hp
      rw [Function.update_self, if_pos rfl, countOf_of_pos (Nat.succ_pos _)]
      rfl
    · rw [Function.update_of_ne hp, if_neg (Ne.symm hp), hs.heap]
      rfl
  · intro p hp
    rw [Function.update_of_ne (hs.ne_of_made_le hu hp)]
    exact hs.made p hp

theorem destroy_tallied {s : UseCounts H} (hs : Tallied s) {h : H} (hh : h ∈ s.live) :
    ∃ t, destroy s h = some t ∧ Tallied t := by
  have ⟨hpos, hheap⟩ := hs.own hh
  have hmade : ∀ p, s.made ≤ p → ∀ v, Function.update s.heap (s.m_pCount h) v p = none :=
    fun p hp v => by rw [Function.update_of_ne (hs.ne_of_made_le hh hp), hs.made p hp]
  unfold destroy atomicDec
  simp only [hheap, Option.map_some, Option.bind_eq_bind, Option.bind_some, Function.update_self]
  split
  · next hlast =>
    simp only [freeCount, Function.update_self, Function.update_idem, Option.map_some,
      Option.bind_some]
    refine ⟨_, rfl, ?_⟩
    apply tallied_of
    · intro p
      have hcard := card_detach (m := s.m_pCount) hh p
      by_cases hp : p = s.m_pCount h
      · subst hp
        rw [if_pos rfl] at hcard
        rw [Function.update_self, eq_comm, countOf_eq_none]
        unfold owners at hlast
        omega
      · rw [if_neg (Ne.symm hp), Nat.add_zero] at hcard
        rw [Function.update_of_ne hp, hs.heap, hcard]
        rfl
    · exact fun p hp => hmade p hp none
  · next hmore =>
    refine ⟨_, rfl, ?_⟩
    apply tallied_of
    · intro p
      have hcard := card_detach (m := s.m_pCount) hh p
      by_cases hp : p = s.m_pCount h
      · subst hp
        rw [if_pos rfl] at hcard
        unfold owners at hmore ⊢
        rw [Function.update_self, countOf_of_pos (by omega), ← hcard]
        congr 1
        omega
      · rw [if_neg (Ne.symm hp), Nat.add_zero] at hcard
        rw [Function.update_of_ne hp, hs.heap, hcard]
        rfl
    · exact fun p hp => hmade p hp _

theorem only_tallied {s : UseCounts H} (hs : Tallied s) {h : H} (hh : h ∈ s.live) :
    only s h = some (decide (owners s (s.m_pCount h) = {h})) := by
  have ⟨hpos, hheap⟩ := hs.own hh
  have hmem : h ∈ owners s (s.m_pCount h) := Finset.mem_filter.mpr ⟨hh, rfl⟩
  have hsole : owners s (s.m_pCount h) = {h} ↔ (owners s (s.m_pCount h)).card = 1 := by
    constructor
    · intro heq
      rw [heq, Finset.card_singleton]
    · intro hone
      have ⟨x, hx⟩ := Finset.card_eq_one.mp hone
      rw [hx] at hmem ⊢
      rw [Finset.mem_singleton.mp hmem]
  unfold only
  rw [hheap]
  show some (((owners s (s.m_pCount h)).card : Int) == 1) = _
  congr 1
  rw [Bool.eq_iff_iff, beq_iff_eq, decide_eq_true_iff, hsole]
  omega

theorem reattach_tallied {s : UseCounts H} (hs : Tallied s) {h u : H} (hh : h ∈ s.live)
    (hu : u ∈ s.live) : ∃ b t, reattach s h u = some (b, t) ∧ Tallied t := by
  have ⟨hpos, hheap⟩ := hs.own hh
  have ⟨hposu, hheapu⟩ := hs.own hu
  unfold reattach atomicInc atomicDec
  by_cases hsame : s.m_pCount u = s.m_pCount h
  · -- the counter is raised, lowered and kept
    simp only [hsame, hheap, Option.map_some, Option.bind_eq_bind, Option.bind_some,
      Function.update_self, Function.update_idem, Function.update_eq_self]
    rw [if_neg (by omega)]
    refine ⟨_, _, rfl, ?_⟩
    apply tallied_of
    · intro p
      by_cases hp : p = s.m_pCount h
      · subst hp
        rw [Function.update_self, ← owners, countOf_of_pos hpos]
        congr 1
        omega
      · rw [Function.update_of_ne hp, hs.heap]
        rfl
    · intro p hp
      rw [Function.update_of_ne (hs.ne_of_made_le hh hp), hs.made p hp]
  · -- the counter of `u` is raised, then the own one lowered
    have hne : s.m_pCount h ≠ s.m_pCount u := Ne.symm hsame
    have hmade : ∀ v w p, s.made ≤ p → Function.update
        (Function.update s.heap (s.m_pCount u) v) (s.m_pCount h) w p = none := fun v w p hp => by
      rw [Function.update_of_ne (hs.ne_of_made_le hh hp),
        Function.update_of_ne (hs.ne_of_made_le hu hp), hs.made p hp]
    have htally : ∀ w, w = countOf ((owners s (s.m_pCount h)).card - 1) → ∀ p,
        Function.update (Function.update s.heap (s.m_pCount u)
          (some (((owners s (s.m_pCount u)).card : Int) + 1))) (s.m_pCount h) w p =
        countOf (s.live.filter (Function.update s.m_pCount h (s.m_pCount u) · = p)).card := by
      rintro w rfl p
      have hcard := card_move (m := s.m_pCount) hh (s.m_pCount u) p
      by_cases hp : p = s.m_pCount h
      · subst hp
        rw [if_pos rfl, if_neg hsame] at hcard
        rw [Function.update_self]
        congr 1
        unfold owners
        omega
      · rw [if_neg (Ne.symm hp)] at hcard
        rw [Function.update_of_ne hp]
        by_cases hpu : p = s.m_pCount u
        · subst hpu
          rw [if_pos rfl] at hcard
          unfold owners
          rw [Function.update_self, countOf_of_pos (by omega)]
          congr 1
          omega
        · rw [if_neg (Ne.symm hpu)] at hcard
          rw [Function.update_of_ne hpu, hs.heap]
          congr 1
          exact hcard.symm
    simp only [hheapu, hheap, Option.map_some, Option.bind_eq_bind, Option.bind_some,
      Function.update_self, Function.update_of_ne hne]
    split
    · next hlast =>
      simp only [freeCount, Function.update_self, Function.update_idem, Option.map_some,
        Option.bind_some]
      refine ⟨_, _, rfl, ?_⟩
      apply tallied_of
      · apply htally
        rw [eq_comm, countOf_eq_none]
        omega
      · exact hmade _ _
    · next hmore =>
      refine ⟨_, _, rfl, ?_⟩
      apply tallied_of
      · apply htally
        rw [countOf_of_pos (by omega)]
        congr 1
        omega
      · exact hmade _ _

theorem makeonly_tallied {s : UseCounts H} (hs : Tallied s) {h : H} (hh : h ∈ s.live) :
    ∃ b t, makeonly s h = some (b, t) ∧ Tallied t := by
  have ⟨hpos, hheap⟩ := hs.own hh
  have hne : s.made ≠ s.m_pCount h := hs.ne_of_made_le hh (Nat.le_refl _)
  unfold makeonly atomicDec
  simp only [hheap, Option.map_some, Option.bind_eq_bind, Option.bind_some]
  split
  · exact ⟨_, _, rfl, hs⟩
  · next hmore =>
    refine ⟨_, _, rfl, ?_⟩
    unfold newCount
    apply tallied_of <;> dsimp only
    · intro p
      have hcard := card_move (m := s.m_pCount) hh s.made p
      by_cases hp : p = s.made
      · subst hp
        rw [hs.unmade, if_neg (Ne.symm hne), if_pos rfl, Nat.add_zero] at hcard
        rw [hcard, Function.update_self]
        rfl
      · rw [if_neg (Ne.symm hp)] at hcard
        rw [Function.update_of_ne hp]
        by_cases hpu : p = s.m_pCount h
        · subst hpu
          rw [if_pos rfl] at hcard
          unfold owners at hmore ⊢
          rw [Function.update_self, countOf_of_pos (by omega)]
          congr 1
          omega
        · rw [if_neg (Ne.symm hpu)] at hcard
          rw [Function.update_of_ne hpu, hs.heap]
          congr 1
          exact hcard.symm
    · intro p hp
      have hlt : s.made ≤ p := by omega
      rw [Function.update_of_ne (by omega), Function.update_of_ne (hs.ne_of_made_le hh hlt)]
      exact hs.made p hlt

/-! ## 6. Runs -/

omit [DecidableEq H] in
theorem noCounts_tallied : Tallied (noCounts (H := H)) where
  heap _ := rfl
  made _ _ := rfl

theorem perform_tallied {s : UseCounts H} (hs : Tallied s) {call : UseCall H}
    (hcall : call.wellFormed s) : ∃ t, perform s call = some t ∧ Tallied t := by
  cases call with
  | construct h => exact ⟨_, rfl, construct_tallied hs hcall⟩
  | copyConstruct h u => exact copyConstruct_tallied hs hcall.1 hcall.2
  | reattach h u =>
    have ⟨b, t, heq, ht⟩ := reattach_tallied hs hcall.1 hcall.2
    exact ⟨t, by rw [perform, heq]; rfl, ht⟩
  | makeonly h =>
    have ⟨b, t, heq, ht⟩ := makeonly_tallied hs hcall
    exact ⟨t, by rw [perform, heq]; rfl, ht⟩
  | only h => exact ⟨s, by rw [perform, only_tallied hs hcall]; rfl, hs⟩
  | destroy h => exact destroy_tallied hs hcall

theorem usedRight_of_tallied {s : UseCounts H} (hs : Tallied s) {call : UseCall H}
    (hcall : call.wellFormed s) : ∃ t, UsedRight s call t := by
  have ⟨t, hperform, ht⟩ := perform_tallied hs hcall
  refine ⟨t, hperform, ht.counted, hs.freed ht, ?_⟩
  rintro h rfl
  exact only_tallied hs hcall

theorem stepUse_tallied {s t : UseCounts H} (hs : Tallied s) {call : UseCall H}
    (ht : stepUse s call = some t) : Tallied t := by
  unfold stepUse at ht
  split at ht
  · next hcall =>
    have ⟨u, hperform, hu⟩ := perform_tallied hs hcall
    rw [hperform] at ht
    exact Option.some.inj ht ▸ hu
  · cases ht

/-- Every call on handles that are there does what it must, in every sequence of calls. -/
theorem run_counts (calls : List (UseCall H)) :
    RunMeets stepUse (fun s call => call.wellFormed s → ∃ t, UsedRight s call t) noCounts calls :=
  (runMeets_congr_of_invariant (P := fun _ _ => True) (I := Tallied)
    (fun _ _ _ hs _ hst => stepUse_tallied hs hst)
    (fun _ _ hs => iff_of_true trivial (usedRight_of_tallied hs)) noCounts_tallied calls).mp
      (runMeets_of_forall (fun _ _ _ => trivial) _)

end VerifyServer.Common
