import VerifyServer.Reasoning.Run

/-!
# IOCompletePort — how `CIOCompletePort` ends its threads

A thread is named by its place in `m_hVecThread`.  A step is one call of `CreateCompletePort`, one
posted entry, one worker's turn with the entry at the front of the queue, or one statement of
`DestroyCompletePort`.  A `PostQueuedCompletionStatus` on the port succeeds.
-/

set_option linter.dupNamespace false

open VerifyServer.Reasoning

namespace VerifyServer.IOCompletePort

/-! ## 1. The port -/

def exitBytes : Nat := 0x0FFFFFFF
def maximumWaitObjects : Nat := 64

inductive Entry where
  -- what `DestroyCompletePort` posts, without a `pOverlapped`
  | exit
  -- `IOCompletePortPost` of an object with this `IsExit()`
  | post (dwbites : Nat) (isExit : Bool)
  deriving DecidableEq

/-- The worker leaves its loop with the entry. -/
def Entry.breaks : Entry → Bool
  | .exit => true
  | .post dwbites isExit => isExit || dwbites == exitBytes

/-- Where `DestroyCompletePort` is. -/
inductive Destroy where
  | idle
  -- `i` entries of the batch are posted
  | posting (remain index wait i : Nat)
  -- in `WaitForMultipleObjects`
  | waiting (remain index wait : Nat)
  | closed
  deriving DecidableEq

structure IOCompletePort where
  m_hCompletePort : Bool := false
  -- `m_hVecThread.size()`
  threads : Nat := 0
  finished : Nat → Bool := fun _ => false
  queue : List Entry := []
  destroy : Destroy := .idle

/-- `CreateCompletePort(nthreadcount)`; `port` is whether `CreateIoCompletionPort` makes a port
where there is none, and `begins` which calls of `_beginthreadex` begin a thread. -/
def createCompletePort (s : IOCompletePort) (nthreadcount : Int) (dwNumberOfProcessors : Nat)
    (port : Bool) (begins : Nat → Bool) : IOCompletePort :=
  if s.m_hCompletePort || port then
    let m_nThreadCount :=
      if nthreadcount ≤ 0 then dwNumberOfProcessors * 2 + 2 else nthreadcount.toNat
    { s with
      m_hCompletePort := true
      threads := s.threads + (List.range m_nThreadCount).countP begins }
  else s

/-- `CIOCompletePort()`. -/
def constructed (port : Bool) (begins : Nat → Bool) : IOCompletePort :=
  createCompletePort {} 20 0 port begins

def post (s : IOCompletePort) (e : Entry) : IOCompletePort :=
  if s.m_hCompletePort then { s with queue := s.queue ++ [e] } else s

/-- A worker's turn: the entry at the front of the queue. -/
def take (s : IOCompletePort) (i : Nat) : Option IOCompletePort :=
  match s.queue with
  | [] => none
  | e :: queue =>
    some { s with queue := queue, finished := Function.update s.finished i e.breaks }

/-- The head of the `while` of `DestroyCompletePort`, and what follows its last batch. -/
def nextBatch (s : IOCompletePort) (remain index : Nat) : IOCompletePort :=
  if remain > 0 then
    { s with destroy := .posting remain index (min remain maximumWaitObjects) 0 }
  else { s with m_hCompletePort := false, destroy := .closed }

def destroyCompletePort (s : IOCompletePort) : Option IOCompletePort :=
  match s.destroy with
  | .idle => some (nextBatch s s.threads 0)
  | .posting remain index wait i =>
    if i < wait then some { post s .exit with destroy := .posting remain index wait (i + 1) }
    else some { s with destroy := .waiting remain index wait }
  | .waiting remain index wait =>
    if ∀ i < wait, s.finished (index + i) = true then
      some (nextBatch s (remain - wait) (index + wait))
    else none
  | .closed => none

inductive PortStep where
  | create (nthreadcount : Int) (dwNumberOfProcessors : Nat) (port : Bool) (begins : Nat → Bool)
  | post (dwbites : Nat) (isExit : Bool)
  | take (i : Nat)
  -- `GetQueuedCompletionStatus` fails for this worker
  | fail (i : Nat)
  | destroy

def stepPort (s : IOCompletePort) : PortStep → Option IOCompletePort
  | .create nthreadcount dwNumberOfProcessors port begins =>
    if s.destroy = .idle then
      some (createCompletePort s nthreadcount dwNumberOfProcessors port begins)
    else none
  | .post dwbites isExit => some (post s (.post dwbites isExit))
  | .take i => if i < s.threads ∧ s.finished i = false then take s i else none
  | .fail i =>
    if i < s.threads ∧ s.finished i = false then
      some { s with finished := Function.update s.finished i true }
    else none
  | .destroy => destroyCompletePort s

/-- The batch waited for has a thread that runs, and there is no exit entry for it. -/
def Stuck (s : IOCompletePort) : Prop :=
  ∃ remain index wait, s.destroy = .waiting remain index wait ∧
    (∃ i < wait, s.finished (index + i) = false) ∧ .exit ∉ s.queue

/-! ## 2. Up to one batch -/

/-- The threads that run. -/
def running (s : IOCompletePort) : Finset Nat :=
  (Finset.range s.threads).filter (s.finished · = false)

/-- One batch holds all threads, and there are exit entries for all that run, posted or to come. -/
def SuppliedAt (destroy : Destroy) (port : Bool) (threads running exits : Nat) : Prop :=
  match destroy with
  | .idle => 0 < threads → port = true
  | .posting remain index wait i =>
    (0 < threads → port = true) ∧ remain = threads ∧ index = 0 ∧ wait = threads ∧ i ≤ wait ∧
      running ≤ exits + (wait - i)
  | .waiting remain index wait =>
    remain = threads ∧ index = 0 ∧ wait = threads ∧ running ≤ exits
  | .closed => True

def Supplied (s : IOCompletePort) : Prop :=
  SuppliedAt s.destroy s.m_hCompletePort s.threads (running s).card (s.queue.count .exit)

/-- Where no more exit entries go than threads end, there are still enough. -/
theorem SuppliedAt.mono {destroy : Destroy} {port : Bool} {threads r r' e e' : Nat}
    (h : SuppliedAt destroy port threads r e) (hle : r' + e ≤ r + e') :
    SuppliedAt destroy port threads r' e' := by
  cases destroy with
  | idle => exact h
  | posting remain index wait i =>
    have ⟨hport, hremain, hindex, hwait, hi, hr⟩ := h
    exact ⟨hport, hremain, hindex, hwait, hi, by omega⟩
  | waiting remain index wait =>
    have ⟨hremain, hindex, hwait, hr⟩ := h
    exact ⟨hremain, hindex, hwait, by omega⟩
  | closed => trivial

theorem card_running_le (s : IOCompletePort) : (running s).card ≤ s.threads := by
  have hle := Finset.card_filter_le (Finset.range s.threads) (s.finished · = false)
  rw [Finset.card_range] at hle
  exact hle

/-- A thread that ends is one fewer, and another entry changes nothing. -/
theorem card_running_update {s : IOCompletePort} {i : Nat} (hi : i ∈ running s) (b : Bool) :
    ((Finset.range s.threads).filter (Function.update s.finished i b · = false)).card +
      (if b then 1 else 0) = (running s).card := by
  cases b with
  | false =>
    have hi' : s.finished i = false := (Finset.mem_filter.mp hi).2
    rw [← hi', Function.update_eq_self, hi']
    rfl
  | true =>
    have herase : (Finset.range s.threads).filter (Function.update s.finished i true · = false) =
        (running s).erase i := by
      ext j
      rw [Finset.mem_erase, running, Finset.mem_filter, Finset.mem_filter]
      by_cases hj : j = i
      · rw [hj, Function.update_self]
        exact iff_of_false (fun h => nomatch h.2) (fun h => h.1 rfl)
      · rw [Function.update_of_ne hj]
        exact ⟨fun h => ⟨hj, h⟩, And.right⟩
    rw [herase, if_pos rfl, Finset.card_erase_of_mem hi]
    have hpos := Finset.card_pos.mpr ⟨i, hi⟩
    omega

theorem create_supplied {s : IOCompletePort} (hs : Supplied s) (hidle : s.destroy = .idle)
    (nthreadcount : Int) (dwNumberOfProcessors : Nat) (port : Bool) (begins : Nat → Bool) :
    Supplied (createCompletePort s nthreadcount dwNumberOfProcessors port begins) := by
  unfold createCompletePort
  split
  · show SuppliedAt s.destroy true _ _ _
    rw [hidle]
    exact fun _ => rfl
  · exact hs

theorem constructed_supplied (port : Bool) (begins : Nat → Bool) :
    Supplied (constructed port begins) :=
  create_supplied (s := {}) (fun h => nomatch h) rfl ..

theorem take_supplied {s t : IOCompletePort} (hs : Supplied s) {i : Nat} (hi : i ∈ running s)
    (ht : take s i = some t) : Supplied t := by
  unfold take at ht
  split at ht
  · cases ht
  · next e queue hqueue =>
    rw [← Option.some.inj ht]
    have hcard := card_running_update hi e.breaks
    unfold Supplied at hs
    rw [hqueue] at hs
    refine hs.mono (?_ : Finset.card (Finset.filter _ _) + _ ≤ _)
    cases e with
    | exit =>
      rw [List.count_cons_self]
      rw [if_pos (show Entry.exit.breaks = true from rfl)] at hcard
      dsimp only
      omega
    | post dwbites isExit =>
      have hne : Entry.post dwbites isExit ≠ .exit := nofun
      rw [List.count_cons_of_ne hne]
      dsimp only
      omega

theorem nextBatch_supplied {s : IOCompletePort} {remain index : Nat}
    (h : remain = 0 ∨ (remain = s.threads ∧ index = 0 ∧ remain ≤ maximumWaitObjects ∧
      (0 < s.threads → s.m_hCompletePort = true))) : Supplied (nextBatch s remain index) := by
  unfold nextBatch
  split
  · next hpos =>
    rcases h with h | ⟨rfl, rfl, hbatch, hport⟩
    · omega
    · have hcard := card_running_le s
      have hwait : min s.threads maximumWaitObjects = s.threads := Nat.min_eq_left hbatch
      refine ⟨hport, rfl, rfl, hwait, Nat.zero_le _, ?_⟩
      show (running s).card ≤ _
      omega
  · trivial

theorem destroy_supplied {s t : IOCompletePort} (hs : Supplied s)
    (ht : destroyCompletePort s = some t) (hthreads : s.threads ≤ maximumWaitObjects) :
    Supplied t := by
  unfold destroyCompletePort at ht
  unfold Supplied at hs
  split at ht
  · next hd =>
    rw [hd] at hs
    rw [← Option.some.inj ht]
    exact nextBatch_supplied (.inr ⟨rfl, rfl, hthreads, hs⟩)
  · next remain index wait i hd =>
    rw [hd] at hs
    have ⟨hport, hremain, hindex, hwait, hi, hr⟩ := hs
    split at ht
    · next hlt =>
      rw [← Option.some.inj ht]
      have hopen : s.m_hCompletePort = true := hport (by omega)
      unfold post
      rw [if_pos hopen]
      refine ⟨hport, hremain, hindex, hwait, hlt, ?_⟩
      show (running s).card ≤ List.count Entry.exit (s.queue ++ [Entry.exit]) + (wait - (i + 1))
      rw [List.count_append, List.count_singleton_self]
      omega
    · rw [← Option.some.inj ht]
      refine ⟨hremain, hindex, hwait, ?_⟩
      show (running s).card ≤ s.queue.count .exit
      omega
  · next remain index wait hd =>
    rw [hd] at hs
    have ⟨hremain, _, hwait, _⟩ := hs
    split at ht
    · rw [← Option.some.inj ht]
      exact nextBatch_supplied (.inl (by omega))
    · cases ht
  · cases ht

theorem nextBatch_threads (s : IOCompletePort) (remain index : Nat) :
    (nextBatch s remain index).threads = s.threads := by
  unfold nextBatch
  split <;> rfl

theorem post_threads (s : IOCompletePort) (e : Entry) : (post s e).threads = s.threads := by
  unfold post
  split <;> rfl

theorem destroy_threads {s t : IOCompletePort} (ht : destroyCompletePort s = some t) :
    t.threads = s.threads := by
  unfold destroyCompletePort at ht
  split at ht
  · exact Option.some.inj ht ▸ nextBatch_threads ..
  · split at ht
    · exact Option.some.inj ht ▸ post_threads ..
    · exact Option.some.inj ht ▸ rfl
  · split at ht
    · exact Option.some.inj ht ▸ nextBatch_threads ..
    · cases ht
  · cases ht

theorem stepPort_threads {s t : IOCompletePort} {step : PortStep} (ht : stepPort s step = some t) :
    s.threads ≤ t.threads := by
  cases step with
  | create nthreadcount dwNumberOfProcessors port begins =>
    rw [stepPort] at ht
    split at ht
    · rw [← Option.some.inj ht, createCompletePort]
      split
      · exact Nat.le_add_right ..
      · exact Nat.le_refl _
    · cases ht
  | post dwbites isExit => exact Option.some.inj ht ▸ Nat.le_of_eq (post_threads ..).symm
  | take i =>
    rw [stepPort, take] at ht
    split at ht
    · split at ht
      · cases ht
      · exact Option.some.inj ht ▸ Nat.le_refl _
    · cases ht
  | fail i =>
    rw [stepPort] at ht
    split at ht
    · exact Option.some.inj ht ▸ Nat.le_refl _
    · cases ht
  | destroy => exact Nat.le_of_eq (destroy_threads ht).symm

theorem stepPort_supplied {s t : IOCompletePort} {step : PortStep} (hs : Supplied s)
    (ht : stepPort s step = some t) (hthreads : s.threads ≤ maximumWaitObjects) : Supplied t := by
  cases step with
  | create nthreadcount dwNumberOfProcessors port begins =>
    rw [stepPort] at ht
    split at ht
    · next hidle => exact Option.some.inj ht ▸ create_supplied hs hidle ..
    · cases ht
  | post dwbites isExit =>
    rw [← Option.some.inj ht, post]
    split
    · refine hs.mono ?_
      show (running s).card + _ ≤ _ + List.count Entry.exit (s.queue ++ [_])
      rw [List.count_append]
      omega
    · exact hs
  | take i =>
    rw [stepPort] at ht
    split at ht
    · next hi =>
      exact take_supplied hs (Finset.mem_filter.mpr ⟨Finset.mem_range.mpr hi.1, hi.2⟩) ht
    · cases ht
  | fail i =>
    rw [stepPort] at ht
    split at ht
    · next hi =>
      rw [← Option.some.inj ht]
      have hcard := card_running_update
        (Finset.mem_filter.mpr ⟨Finset.mem_range.mpr hi.1, hi.2⟩) true
      refine hs.mono (?_ : Finset.card (Finset.filter _ _) + _ ≤ _)
      dsimp only
      omega
    · cases ht
  | destroy => exact destroy_supplied hs ht hthreads

theorem Supplied.not_stuck {s : IOCompletePort} (hs : Supplied s) : ¬Stuck s := by
  rintro ⟨remain, index, wait, hd, ⟨i, hi, hrun⟩, hnone⟩
  unfold Supplied at hs
  rw [hd] at hs
  have ⟨hremain, hindex, hwait, hcard⟩ := hs
  have hmem : i ∈ running s := by
    rw [hindex, Nat.zero_add] at hrun
    exact Finset.mem_filter.mpr ⟨Finset.mem_range.mpr (by omega), hrun⟩
  have hpos := Finset.card_pos.mpr ⟨i, hmem⟩
  rw [List.count_eq_zero.mpr hnone] at hcard
  omega

/-! ## 3. More than one batch -/

/-- The entries of a batch, one after the other. -/
theorem run_post {s : IOCompletePort} (hopen : s.m_hCompletePort = true)
    {remain index wait i n : Nat} (hd : s.destroy = .posting remain index wait i)
    (hn : i + n ≤ wait) :
    ∃ t, run stepPort s (List.replicate n .destroy) = some t ∧
      t.destroy = .posting remain index wait (i + n) ∧ t.threads = s.threads ∧
      t.finished = s.finished ∧ t.queue = s.queue ++ List.replicate n .exit := by
  induction n generalizing s i with
  | zero => exact ⟨s, rfl, hd, rfl, rfl, (List.append_nil _).symm⟩
  | succ n ih =>
    let u : IOCompletePort := { s with
      queue := s.queue ++ [.exit]
      destroy := .posting remain index wait (i + 1) }
    have hstep : stepPort s .destroy = some u := by
      rw [stepPort, destroyCompletePort, hd]
      dsimp only
      rw [if_pos (by omega), post, if_pos hopen]
    have hopen' : u.m_hCompletePort = true := hopen
    have ⟨t, ht, hdt, hthreads, hfinished, hqueue⟩ := ih hopen' rfl (by omega)
    have hcount : i + 1 + n = i + (n + 1) := by omega
    refine ⟨t, run_cons_eq_some.mpr ⟨u, hstep, ht⟩, hcount ▸ hdt, hthreads, hfinished, ?_⟩
    rw [hqueue]
    show (s.queue ++ [Entry.exit]) ++ List.replicate n Entry.exit = _
    rw [List.append_assoc, List.singleton_append, ← List.replicate_succ]

/-- Threads that run take an exit entry each, in any order. -/
theorem run_take {s : IOCompletePort} {l : List Nat} (hl : l.Nodup)
    (hrun : ∀ i ∈ l, i < s.threads ∧ s.finished i = false)
    (hqueue : s.queue = List.replicate l.length .exit) :
    ∃ t, run stepPort s (l.map .take) = some t ∧ t.destroy = s.destroy ∧ t.threads = s.threads ∧
      t.queue = [] ∧ ∀ i ∉ l, t.finished i = s.finished i := by
  induction l generalizing s with
  | nil => exact ⟨s, rfl, rfl, rfl, hqueue, fun _ _ => rfl⟩
  | cons i l ih =>
    have ⟨hi, hl⟩ := List.nodup_cons.mp hl
    let u : IOCompletePort := { s with
      queue := List.replicate l.length .exit
      finished := Function.update s.finished i true }
    have hstep : stepPort s (.take i) = some u := by
      rw [stepPort, if_pos (hrun i (List.mem_cons_self ..)), take, hqueue]
      rfl
    have hrest : ∀ j ∈ l, j < u.threads ∧ u.finished j = false := by
      intro j hj
      have ⟨hlt, hfalse⟩ := hrun j (List.mem_cons_of_mem _ hj)
      have hne : j ≠ i := fun heq => hi (heq ▸ hj)
      exact ⟨hlt, (Function.update_of_ne hne ..).trans hfalse⟩
    have ⟨t, ht, hd, hthreads, hnil, hkept⟩ := ih hl hrest rfl
    refine ⟨t, run_cons_eq_some.mpr ⟨u, hstep, ht⟩, hd, hthreads, hnil, fun j hj => ?_⟩
    have hne : j ≠ i := fun heq => hj (heq ▸ List.mem_cons_self ..)
    rw [hkept j fun hmem => hj (List.mem_cons_of_mem _ hmem)]
    exact Function.update_of_ne hne ..

/-- The thread behind the first batch takes one of its entries. -/
theorem run_stuck {n : Nat} (hn : maximumWaitObjects < n) :
    ∃ steps s, run stepPort (constructed true fun _ => true) steps = some s ∧ s.threads = n ∧
      Stuck s := by
  have hsize : 64 < n := hn
  let created : IOCompletePort := { m_hCompletePort := true, threads := n }
  let begun : IOCompletePort := { created with destroy := .posting n 0 64 0 }
  have hcreate : stepPort (constructed true fun _ => true)
      (.create (n - 20 : Nat) 0 true fun _ => true) = some created := by
    have hconstructed : constructed true (fun _ => true) =
        { m_hCompletePort := true, threads := 20 } := rfl
    have hcount : (List.range (n - 20)).countP (fun _ => true) = n - 20 := by
      rw [List.countP_true, List.length_range]
    rw [hconstructed, stepPort, if_pos rfl, createCompletePort]
    dsimp only
    rw [Bool.or_true, if_pos rfl, if_neg (by omega), Int.toNat_natCast, hcount,
      show 20 + (n - 20) = n by omega]
  have hbegin : stepPort created .destroy = some begun := by
    rw [stepPort, destroyCompletePort]
    show some (nextBatch created n 0) = _
    rw [nextBatch, if_pos (by omega), Nat.min_eq_right (Nat.le_of_lt hn)]
    rfl
  have ⟨p, hp, hdp, hthreadsp, hfinishedp, hqueuep⟩ :=
    run_post (s := begun) (n := 64) rfl rfl (Nat.le_refl 64)
  let w : IOCompletePort := { p with destroy := .waiting n 0 64 }
  have hwait : stepPort p .destroy = some w := by
    rw [stepPort, destroyCompletePort, hdp]
    rfl
  have hthief : (64 :: List.range 63).Nodup := by decide
  have hrun : ∀ i ∈ 64 :: List.range 63, i < w.threads ∧ w.finished i = false := by
    intro i hi
    have hlt : i ≤ 64 := by
      rcases List.mem_cons.mp hi with rfl | hi
      · exact Nat.le_refl _
      · have := List.mem_range.mp hi
        omega
    show i < p.threads ∧ p.finished i = false
    rw [hthreadsp, hfinishedp]
    exact ⟨by show i < n; omega, rfl⟩
  have hqueue : w.queue = List.replicate (64 :: List.range 63).length .exit := by
    show p.queue = _
    rw [hqueuep, List.length_cons, List.length_range]
    rfl
  have ⟨s, hs, hds, hthreads, hnil, hkept⟩ := run_take hthief hrun hqueue
  have hfirst : run stepPort created (.destroy :: List.replicate 64 .destroy) = some p :=
    run_cons_eq_some.mpr ⟨begun, hbegin, hp⟩
  have hlast : run stepPort p (.destroy :: (64 :: List.range 63).map .take) = some s :=
    run_cons_eq_some.mpr ⟨w, hwait, hs⟩
  refine ⟨_, s, run_cons_eq_some.mpr ⟨created, hcreate, (run_append hfirst).trans hlast⟩,
    hthreads.trans hthreadsp, n, 0, 64, hds, ⟨63, by decide, ?_⟩, ?_⟩
  · rw [Nat.zero_add, hkept 63 (by decide)]
    exact congrFun hfinishedp 63
  · rw [hnil]
    exact List.not_mem_nil

/-! ## 4. Runs -/

/-- With `n` worker threads a wait that cannot end is out of reach just when one batch holds them
all. -/
theorem never_stuck_iff (n : Nat) :
    (∀ port begins steps s, run stepPort (constructed port begins) steps = some s →
      s.threads = n → ¬Stuck s) ↔ n ≤ maximumWaitObjects := by
  constructor
  · intro h
    by_contra hn
    have ⟨steps, s, hrun, hthreads, hstuck⟩ := run_stuck (Nat.lt_of_not_le hn)
    exact h true _ steps s hrun hthreads hstuck
  · intro hn port begins steps s hrun hthreads
    have hinv : s.threads ≤ maximumWaitObjects → Supplied s := by
      apply run_preserves (I := fun s => s.threads ≤ maximumWaitObjects → Supplied s) _
        (fun _ => constructed_supplied port begins) hrun
      intro s step t hs ht hle
      have hle' := (stepPort_threads ht).trans hle
      exact stepPort_supplied (hs hle') ht hle'
    exact (hinv (hthreads ▸ hn)).not_stuck

theorem stuck_of_65 : ¬∀ port begins steps s,
    run stepPort (constructed port begins) steps = some s → ¬Stuck s := by
  intro h
  have ⟨steps, s, hrun, _, hstuck⟩ := run_stuck (n := 65) (by decide)
  exact h true _ steps s hrun hstuck

end VerifyServer.IOCompletePort
