import VerifyServer.DataBase.SqlManager

/-!
# SqlSignal — the signal and the emptiness of the statement queue

`_SqlexecThreadProc` reads and pops the queue after its `empty()` test or after one wait, and tests
nothing again under the lock.  It is safe as long as a signal, and a worker past its test, always
have a statement behind them; nothing in the code keeps that so.
-/

open VerifyServer.Reasoning

namespace VerifyServer.DataBase

variable {Sql : Type}

/-! ## 1. What keeps the worker off the empty queue -/

/-- A pending signal, and a worker about to read the queue, have a statement behind them. -/
structure Backed (s : SqlManager Sql) : Prop where
  signal : s.m_hEvent = true → s.m_sql_exec_queue ≠ []
  taking : .take ∈ s.workers → s.m_sql_exec_queue ≠ []
  noCrash : ∀ i, s.crashed ≠ some (.worker i)

/-- The step does not set the event while the queue is empty, and does not remove the last statement
while the event is signalled or another worker is about to read the queue. -/
def KeepsBacked (s : SqlManager Sql) : Label Sql → Prop
  | .poster i => s.posters[i]? = some .setEvent → s.m_sql_exec_queue ≠ []
  | .closer i _ =>
    (s.closers[i]? = some .setEvent → s.m_sql_exec_queue ≠ []) ∧
    (s.closers[i]? = some .pop → s.m_sql_exec_queue.length = 1 →
      s.m_hEvent = false ∧ .take ∉ s.workers)
  | .worker i =>
    s.workers[i]? = some .take → s.m_sql_exec_queue.length = 1 →
      s.m_hEvent = false ∧ .take ∉ s.workers.eraseIdx i
  | _ => True

instance (s : SqlManager Sql) (a : Label Sql) [DecidableEq Sql] : Decidable (KeepsBacked s a) :=
  match a with
  | .execSqlInStack _ | .openStack | .closeStack | .opener _ _ => isTrue trivial
  | .poster _ => inferInstanceAs (Decidable (_ → _))
  | .closer _ _ => inferInstanceAs (Decidable ((_ → _) ∧ (_ → _ → _)))
  | .worker _ => inferInstanceAs (Decidable (_ → _ → _))

theorem backed_fresh : Backed ({} : SqlManager Sql) :=
  ⟨by simp, by simp, by simp⟩

/-- A worker that moves to a point other than the locked section adds no reader of the queue. -/
theorem take_mem_eraseIdx {ws : List (Worker Sql)} {i : Nat} {w : Worker Sql} (hw : w ≠ .take)
    (h : .take ∈ ws.set i w) : .take ∈ ws.eraseIdx i := by
  obtain ⟨j, hj⟩ := List.mem_iff_getElem?.mp h
  rw [List.getElem?_set] at hj
  refine List.mem_eraseIdx_iff_getElem?.mpr ⟨j, ?_⟩
  split at hj
  · split at hj
    · exact absurd (Option.some.inj hj) hw
    · cases hj
  · next hne => exact ⟨fun he => hne he.symm, hj⟩

theorem stepPoster_backed {s t : SqlManager Sql} {i : Nat} (hs : Backed s)
    (hP : KeepsBacked s (.poster i)) (h : s.posters[i]?.bind (stepPoster s i) = some t) :
    Backed t := by
  obtain ⟨p, hp, h⟩ := Option.bind_eq_some_iff.mp h
  cases p with
  | push sql => cases h; exact ⟨by simp, by simp, hs.noCrash⟩
  | setEvent => cases h; exact ⟨fun _ => hP hp, hs.taking, hs.noCrash⟩
  | done => cases h

theorem stepOpener_backed {s t : SqlManager Sql} {i : Nat} {started : Bool} (hs : Backed s)
    (h : s.openers[i]?.bind (stepOpener s i started) = some t) : Backed t := by
  obtain ⟨p, -, h⟩ := Option.bind_eq_some_iff.mp h
  cases p with
  | setRunning => cases h; exact ⟨hs.signal, hs.taking, hs.noCrash⟩
  | beginThread =>
    cases started with
    | true =>
      cases h
      exact ⟨hs.signal, fun ht => hs.taking (by simpa using ht), hs.noCrash⟩
    | false => cases h; exact ⟨hs.signal, hs.taking, hs.noCrash⟩
  | storeThread thread => cases h; exact ⟨hs.signal, hs.taking, hs.noCrash⟩
  | storeRunning => cases h; exact ⟨hs.signal, hs.taking, hs.noCrash⟩
  | done => cases h

theorem stepCloser_backed {s t : SqlManager Sql} {i : Nat} {timeout : Bool} (hs : Backed s)
    (hP : KeepsBacked s (.closer i timeout))
    (h : s.closers[i]?.bind (stepCloser s i timeout) = some t) : Backed t := by
  obtain ⟨p, hp, h⟩ := Option.bind_eq_some_iff.mp h
  cases p with
  | setEvent => cases h; exact ⟨fun _ => hP.1 hp, hs.taking, hs.noCrash⟩
  | clearRunning => cases h; exact ⟨hs.signal, hs.taking, hs.noCrash⟩
  | waitThread =>
    rw [stepCloser] at h
    split at h
    · cases h; exact ⟨hs.signal, hs.taking, hs.noCrash⟩
    · cases h
  | closeHandle => cases h; exact ⟨hs.signal, hs.taking, hs.noCrash⟩
  | testEmpty => cases h; exact ⟨hs.signal, hs.taking, hs.noCrash⟩
  | pop =>
    rw [stepCloser] at h
    split at h
    · cases h; exact ⟨hs.signal, hs.taking, by simp⟩
    · next p q hq =>
      cases h
      -- the removal empties the queue only when it held one statement
      have hlast : q = [] → s.m_hEvent = false ∧ .take ∉ s.workers := fun hnil =>
        hP.2 hp (by subst hnil; rw [backPop_nil_iff hq, List.length_singleton])
      refine ⟨fun he hnil => ?_, fun ht hnil => (hlast hnil).2 ht, hs.noCrash⟩
      have he : s.m_hEvent = true := he
      rw [(hlast hnil).1] at he
      cases he
  | done => cases h

theorem stepWorker_backed {s t : SqlManager Sql} {i : Nat} (hs : Backed s)
    (hP : KeepsBacked s (.worker i)) (h : s.workers[i]?.bind (stepWorker s i) = some t) :
    Backed t := by
  obtain ⟨w, hw, h⟩ := Option.bind_eq_some_iff.mp h
  have htaking : ∀ w', w' ≠ Worker.take → .take ∈ s.workers.set i w' →
      s.m_sql_exec_queue ≠ [] := fun w' hne ht =>
    hs.taking (List.mem_of_mem_eraseIdx (take_mem_eraseIdx hne ht))
  cases w with
  | loop =>
    cases h
    exact ⟨hs.signal, htaking _ (by split <;> simp), hs.noCrash⟩
  | testEmpty =>
    cases h
    refine ⟨hs.signal, fun ht => ?_, hs.noCrash⟩
    cases hq : s.m_sql_exec_queue with
    | nil =>
      rw [hq, List.isEmpty_nil, if_pos rfl] at ht
      exact absurd hq (htaking _ (by simp) ht)
    | cons p q => exact List.cons_ne_nil p q
  | wait =>
    rw [stepWorker] at h
    split at h
    · next he => cases h; exact ⟨by simp, fun _ => hs.signal he, hs.noCrash⟩
    · cases h
  | take =>
    have hne := hs.taking (List.mem_of_getElem? hw)
    rw [stepWorker] at h
    split at h
    · next hq => exact absurd (backPop_eq_none.mp hq) hne
    · next p q hq =>
      cases h
      have hlast : q = [] → s.m_hEvent = false ∧ .take ∉ s.workers.eraseIdx i := fun hnil =>
        hP hw (by subst hnil; rw [backPop_nil_iff hq, List.length_singleton])
      refine ⟨fun he hnil => ?_, fun ht hnil => ?_, hs.noCrash⟩
      · have he : s.m_hEvent = true := he
        rw [(hlast hnil).1] at he
        cases he
      · exact (hlast hnil).2 (take_mem_eraseIdx (by simp) ht)
  | execSql p => cases h; exact ⟨hs.signal, htaking _ (by simp), hs.noCrash⟩
  | sleep => cases h; exact ⟨hs.signal, htaking _ (by simp), hs.noCrash⟩
  | done => cases h

/-- One step that keeps every signal backed. -/
theorem step_backed (s : SqlManager Sql) (a : Label Sql) (t : SqlManager Sql) (hs : Backed s)
    (hP : KeepsBacked s a) (h : step s a = some t) : Backed t := by
  unfold step at h
  split at h
  · cases h
  cases a with
  | execSqlInStack sql =>
    simp only at h
    split at h <;> cases h
    · exact ⟨hs.signal, hs.taking, hs.noCrash⟩
    · exact hs
  | openStack =>
    simp only at h
    split at h <;> cases h
    · exact hs
    · exact ⟨hs.signal, hs.taking, hs.noCrash⟩
  | closeStack =>
    simp only at h
    split at h <;> cases h <;> exact ⟨hs.signal, hs.taking, hs.noCrash⟩
  | poster i => exact stepPoster_backed hs hP h
  | opener i started => exact stepOpener_backed hs h
  | closer i timeout => exact stepCloser_backed hs hP h
  | worker i => exact stepWorker_backed hs hP h

/-! ## 2. Whole runs -/

/-- No worker reads or pops the empty queue in a run that never leaves a signal, or a worker past
its test, without a statement. -/
theorem run_worker_off_empty_queue {as : List (Label Sql)} {s : SqlManager Sql}
    (hP : RunMeets step KeepsBacked {} as) (hrun : run step {} as = some s) (i : Nat) :
    s.crashed ≠ some (.worker i) :=
  (run_invariant step_backed backed_fresh hP hrun).noCrash i

/-- The worker waits, is signalled and finds the one statement. -/
def waitedRun : List (Label String) :=
  [.openStack, .opener 0 true, .opener 0 true, .opener 0 true, .opener 0 true, .worker 0, .worker 0,
    .execSqlInStack "DELETE", .poster 0, .poster 0, .worker 0, .worker 0, .worker 0]

theorem run_worker_off_empty_queue_waited :
    ∃ s, run step {} waitedRun = some s ∧ s.executed = [⟨0, "DELETE"⟩] ∧
      s.crashed ≠ some (.worker 0) :=
  ⟨_, rfl, rfl, run_worker_off_empty_queue
    (by decide : RunMeets step KeepsBacked {} waitedRun) rfl 0⟩

/-- The worker finds the statement by its test, so that the signal that follows the statement is
still there when the queue is empty: the next wait does not wait. -/
def staleRun : List (Label String) :=
  [.openStack, .opener 0 true, .opener 0 true, .opener 0 true, .opener 0 true,
    .execSqlInStack "DELETE", .poster 0, .worker 0, .worker 0, .worker 0, .poster 0,
    .worker 0, .worker 0, .worker 0, .worker 0, .worker 0, .worker 0]

theorem worker_takes_from_empty_queue :
    ¬ ∀ (as : List (Label String)) (s : SqlManager String), run step {} as = some s →
      ∀ i, s.crashed ≠ some (.worker i) :=
  fun h => h staleRun _ rfl 0 rfl

/-! ## 3. A stale signal is fatal -/

/-- A step that breaks the condition leaves the queue empty behind a signal or behind a worker past
its test. -/
theorem stale_of_not_keepsBacked {s t : SqlManager Sql} {a : Label Sql} (hP : ¬ KeepsBacked s a)
    (h : step s a = some t) : t.m_sql_exec_queue = [] ∧ (t.m_hEvent = true ∨ .take ∈ t.workers) := by
  unfold step at h
  split at h
  · cases h
  cases a with
  | execSqlInStack _ | openStack | closeStack | opener _ _ => exact absurd trivial hP
  | poster i =>
    obtain ⟨hp, hq⟩ := Classical.not_imp.mp hP
    simp only [hp, Option.bind_some, stepPoster, Option.some.injEq] at h
    subst h
    exact ⟨not_not.mp hq, .inl rfl⟩
  | closer i timeout =>
    rcases not_and_or.mp hP with hP | hP
    · obtain ⟨hp, hq⟩ := Classical.not_imp.mp hP
      simp only [hp, Option.bind_some, stepCloser, Option.some.injEq] at h
      subst h
      exact ⟨not_not.mp hq, .inl rfl⟩
    · simp only [Classical.not_imp, not_and_or, not_not, Bool.not_eq_false] at hP
      obtain ⟨hp, hlen, hlast⟩ := hP
      obtain ⟨p, hq⟩ := List.length_eq_one_iff.mp hlen
      simp only [hp, Option.bind_some, stepCloser, hq, backPop_singleton, Option.some.injEq] at h
      subst h
      exact ⟨rfl, hlast⟩
  | worker i =>
    simp only [KeepsBacked, Classical.not_imp, not_and_or, not_not, Bool.not_eq_false] at hP
    obtain ⟨hw, hlen, hlast⟩ := hP
    obtain ⟨p, hq⟩ := List.length_eq_one_iff.mp hlen
    simp only [hw, Option.bind_some, stepWorker, hq, backPop_singleton, Option.some.injEq] at h
    subst h
    refine ⟨rfl, hlast.imp_right fun ht => ?_⟩
    obtain ⟨j, hj, hget⟩ := List.mem_eraseIdx_iff_getElem?.mp ht
    exact List.mem_of_getElem? (i := j) (by rw [List.getElem?_set_ne hj.symm, hget])

/-- Worker `i`, running alone, reads the empty queue. -/
def Crashes (s : SqlManager Sql) (i : Nat) : Prop :=
  ∃ n t, run step s (List.replicate n (.worker i)) = some t ∧ t.crashed = some (.worker i)

theorem crashes_of_step {s t : SqlManager Sql} {i : Nat} {w : Worker Sql}
    (hcr : s.crashed = none) (hw : s.workers[i]? = some w) (h : stepWorker s i w = some t)
    (ht : Crashes t i) : Crashes s i := by
  obtain ⟨n, u, hrun, hu⟩ := ht
  refine ⟨n + 1, u, ?_, hu⟩
  rw [List.replicate_succ, run_cons_eq_some]
  refine ⟨t, ?_, hrun⟩
  simp only [step, hcr, Option.isSome_none, Bool.false_eq_true, if_false, hw, Option.bind_some, h]

theorem getElem?_set_of_some {α : Type} {xs : List α} {i : Nat} {x y : α} (h : xs[i]? = some x) :
    (xs.set i y)[i]? = some y := by
  have hlt : i < xs.length := (List.getElem?_eq_some_iff.mp h).1
  rw [List.getElem?_set_self hlt]

theorem crashes_take {s : SqlManager Sql} {i : Nat} (hcr : s.crashed = none)
    (hq : s.m_sql_exec_queue = []) (hw : s.workers[i]? = some .take) : Crashes s i := by
  refine ⟨1, { s with crashed := some (.worker i) }, ?_, rfl⟩
  rw [List.replicate_one, run_cons_eq_some]
  refine ⟨_, ?_, rfl⟩
  simp only [step, hcr, Option.isSome_none, Bool.false_eq_true, if_false, hw, Option.bind_some,
    stepWorker, hq, backPop_nil]

theorem crashes_wait {s : SqlManager Sql} {i : Nat} (hcr : s.crashed = none)
    (hq : s.m_sql_exec_queue = []) (he : s.m_hEvent = true) (hw : s.workers[i]? = some .wait) :
    Crashes s i := by
  let t := { s with m_hEvent := false, workers := s.workers.set i .take }
  have ht : Crashes t i := crashes_take hcr hq (getElem?_set_of_some hw)
  exact crashes_of_step hcr hw (if_pos he) ht

theorem crashes_testEmpty {s : SqlManager Sql} {i : Nat} (hcr : s.crashed = none)
    (hq : s.m_sql_exec_queue = []) (he : s.m_hEvent = true)
    (hw : s.workers[i]? = some .testEmpty) : Crashes s i := by
  let t := { s with workers := s.workers.set i .wait }
  have ht : Crashes t i := crashes_wait hcr hq he (getElem?_set_of_some hw)
  have hempty : s.m_sql_exec_queue.isEmpty = true := List.isEmpty_iff.mpr hq
  exact crashes_of_step hcr hw (by rw [stepWorker, if_pos hempty]) ht

theorem crashes_loop {s : SqlManager Sql} {i : Nat} (hcr : s.crashed = none)
    (hq : s.m_sql_exec_queue = []) (he : s.m_hEvent = true) (hr : s.m_bthreadRunning = true)
    (hw : s.workers[i]? = some .loop) : Crashes s i := by
  let t := { s with workers := s.workers.set i .testEmpty }
  have ht : Crashes t i := crashes_testEmpty hcr hq he (getElem?_set_of_some hw)
  exact crashes_of_step hcr hw (by rw [stepWorker, if_pos hr]) ht

theorem crashes_sleep {s : SqlManager Sql} {i : Nat} (hcr : s.crashed = none)
    (hq : s.m_sql_exec_queue = []) (he : s.m_hEvent = true) (hr : s.m_bthreadRunning = true)
    (hw : s.workers[i]? = some .sleep) : Crashes s i := by
  let t := { s with workers := s.workers.set i .loop }
  have ht : Crashes t i := crashes_loop hcr hq he hr (getElem?_set_of_some hw)
  exact crashes_of_step hcr hw rfl ht

/-- While the stack runs, a signal left on the empty queue makes every live worker crash. -/
theorem stale_signal_crashes {s : SqlManager Sql} {i : Nat} {w : Worker Sql}
    (hcr : s.crashed = none) (hq : s.m_sql_exec_queue = []) (he : s.m_hEvent = true)
    (hr : s.m_bthreadRunning = true) (hw : s.workers[i]? = some w) (hlive : w ≠ .done) :
    Crashes s i := by
  cases w with
  | loop => exact crashes_loop hcr hq he hr hw
  | testEmpty => exact crashes_testEmpty hcr hq he hw
  | wait => exact crashes_wait hcr hq he hw
  | take => exact crashes_take hcr hq hw
  | execSql p =>
    let t := { s with executed := s.executed ++ [p], workers := s.workers.set i .sleep }
    have ht : Crashes t i := crashes_sleep hcr hq he hr (getElem?_set_of_some hw)
    exact crashes_of_step hcr hw rfl ht
  | sleep => exact crashes_sleep hcr hq he hr hw
  | done => exact absurd rfl hlive

end VerifyServer.DataBase
