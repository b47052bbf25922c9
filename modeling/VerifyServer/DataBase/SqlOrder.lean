import VerifyServer.DataBase.SqlManager

/-!
# SqlOrder — the order in which the worker executes the statements

`_SqlexecThreadProc` reads `back()` and pops the front, which is the same node only when the queue
holds one.  The runs here are those of an open stack: they start with the one worker of `OpenStack`
at its loop test, and `CloseStack` is not called.
-/

open VerifyServer.Reasoning

namespace VerifyServer.DataBase

variable {Sql : Type}

/-! ## 1. The open stack -/

/-- The manager after `OpenStack` on a fresh one. -/
def opened : SqlManager Sql :=
  { m_bthreadRunning := true, m_stackThread := some 0, openers := [.done], workers := [.loop] }

example : run step ({} : SqlManager Sql)
    [.openStack, .opener 0 true, .opener 0 true, .opener 0 true, .opener 0 true] = some opened := rfl

/-- The statement the worker has taken and not yet executed. -/
def inHand : Worker Sql → List (SqlExecNode Sql)
  | .execSql p => [p]
  | _ => []

/-- Between `OpenStack` and `CloseStack` the one worker has executed what was posted first, in
order, and has not touched the empty queue. -/
structure InOrder (s : SqlManager Sql) : Prop where
  running : s.crashed = none
  stack : s.m_stackThread = some 0
  openers : s.openers = [.done]
  closers : s.closers = []
  serials : s.posted.map (·.serial) = List.range s.posted.length
  order : ∃ w, s.workers = [w] ∧ s.executed ++ inHand w ++ s.m_sql_exec_queue = s.posted

/-- The worker calls `back()` and `pop()` only while exactly one statement is queued: with none
the calls are undefined, with two or more they name different nodes. -/
def TakesSingle (s : SqlManager Sql) : Label Sql → Prop
  | .worker i => s.workers[i]? = some .take → s.m_sql_exec_queue.length = 1
  | _ => True

instance (s : SqlManager Sql) (a : Label Sql) [DecidableEq Sql] : Decidable (TakesSingle s a) :=
  match a with
  | .execSqlInStack _ | .openStack | .closeStack | .poster _ | .opener _ _ | .closer _ _ =>
    isTrue trivial
  | .worker _ => inferInstanceAs (Decidable (_ → _))

theorem InOrder.nodup {s : SqlManager Sql} (hs : InOrder s) : s.posted.Nodup :=
  List.Nodup.of_map (·.serial) (hs.serials ▸ List.nodup_range)

theorem inOrder_opened : InOrder (opened : SqlManager Sql) :=
  ⟨rfl, rfl, rfl, rfl, rfl, .loop, rfl, rfl⟩

theorem stepPoster_inOrder {s t : SqlManager Sql} {i : Nat} {p : Poster Sql} (hs : InOrder s)
    (h : stepPoster s i p = some t) : InOrder t := by
  obtain ⟨w, hw, horder⟩ := hs.order
  cases p with
  | push sql =>
    cases h
    refine ⟨hs.running, hs.stack, hs.openers, hs.closers, ?_, w, hw, ?_⟩
    · rw [List.map_append, hs.serials, List.length_append, List.length_singleton,
        List.range_succ]
      rfl
    · simp only [← List.append_assoc, horder]
  | setEvent =>
    cases h
    exact ⟨hs.running, hs.stack, hs.openers, hs.closers, hs.serials, w, hw, horder⟩
  | done => cases h

theorem stepWorker_inOrder {s t : SqlManager Sql} {i : Nat} {w : Worker Sql} (hs : InOrder s)
    (hP : TakesSingle s (.worker i)) (hi : s.workers[i]? = some w)
    (h : stepWorker s i w = some t) : InOrder t := by
  obtain ⟨w', hw', horder⟩ := hs.order
  rw [hw', List.getElem?_singleton] at hi
  split at hi
  · next hzero =>
    obtain rfl := Option.some.inj hi
    subst hzero
    have hset : ∀ v, s.workers.set 0 v = [v] := fun v => by rw [hw', List.set_cons_zero]
    cases w' with
    | loop =>
      cases h
      refine ⟨hs.running, hs.stack, hs.openers, hs.closers, hs.serials, _, hset _, ?_⟩
      split <;> exact horder
    | testEmpty =>
      cases h
      refine ⟨hs.running, hs.stack, hs.openers, hs.closers, hs.serials, _, hset _, ?_⟩
      split <;> exact horder
    | wait =>
      rw [stepWorker] at h
      split at h
      · cases h; exact ⟨hs.running, hs.stack, hs.openers, hs.closers, hs.serials, _, hset _, horder⟩
      · cases h
    | take =>
      rw [stepWorker] at h
      -- with one node queued, the node read is the node removed
      have hlen := hP (by rw [hw', List.getElem?_cons_zero])
      split at h
      · next hq =>
        rw [backPop_eq_none.mp hq] at hlen
        cases hlen
      · next p q hq =>
        cases h
        obtain ⟨hlast, rfl⟩ := backPop_eq_some hq
        match hqueue : s.m_sql_exec_queue, hlen, hlast with
        | [a], _, hlast =>
          obtain rfl := Option.some.inj hlast
          rw [hqueue] at horder
          refine ⟨hs.running, hs.stack, hs.openers, hs.closers, hs.serials, _, hset _, ?_⟩
          simpa [inHand] using horder
    | execSql p =>
      cases h
      refine ⟨hs.running, hs.stack, hs.openers, hs.closers, hs.serials, _, hset _, ?_⟩
      simpa [inHand] using horder
    | sleep =>
      cases h
      exact ⟨hs.running, hs.stack, hs.openers, hs.closers, hs.serials, _, hset _, horder⟩
    | done => cases h
  · cases hi

/-- One step of an open stack that takes no statement ahead of another. -/
theorem step_inOrder (s : SqlManager Sql) (a : Label Sql) (t : SqlManager Sql) (hs : InOrder s)
    (hP : a ≠ .closeStack ∧ TakesSingle s a) (h : step s a = some t) : InOrder t := by
  unfold step at h
  split at h
  · cases h
  cases a with
  | execSqlInStack sql =>
    simp only at h
    split at h <;> cases h
    · exact ⟨hs.running, hs.stack, hs.openers, hs.closers, hs.serials, hs.order⟩
    · exact hs
  | openStack =>
    simp only [hs.stack, Option.isSome_some, if_true, Option.some.injEq] at h
    exact h ▸ hs
  | closeStack => exact absurd rfl hP.1
  | poster i =>
    obtain ⟨p, -, h⟩ := Option.bind_eq_some_iff.mp h
    exact stepPoster_inOrder hs h
  | opener i started =>
    obtain ⟨p, hp, h⟩ := Option.bind_eq_some_iff.mp h
    rw [hs.openers, List.getElem?_singleton] at hp
    split at hp
    · obtain rfl := Option.some.inj hp
      cases h
    · cases hp
  | closer i timeout =>
    obtain ⟨p, hp, -⟩ := Option.bind_eq_some_iff.mp h
    rw [hs.closers] at hp
    cases hp
  | worker i =>
    obtain ⟨w, hw, h⟩ := Option.bind_eq_some_iff.mp h
    exact stepWorker_inOrder hs hP.2 hw h

/-! ## 2. Whole runs -/

theorem run_inOrder {as : List (Label Sql)} {s : SqlManager Sql} (hopen : .closeStack ∉ as)
    (hP : RunMeets step TakesSingle opened as) (hrun : run step opened as = some s) :
    InOrder s := by
  have hne : RunMeets step (fun _ a => a ≠ .closeStack) (opened : SqlManager Sql) as :=
    runMeets_of_forall (fun _ _ ha => ne_of_mem_of_not_mem ha hopen) _
  exact run_invariant step_inOrder inOrder_opened (hne.and hP) hrun

/-- In a run whose worker takes a statement only when exactly one is queued, the executed statements
are the first ones posted, in posting order and each once, and no take was undefined. -/
theorem run_executed_prefix {as : List (Label Sql)} {s : SqlManager Sql}
    (hopen : .closeStack ∉ as) (hP : RunMeets step TakesSingle opened as)
    (hrun : run step opened as = some s) :
    s.executed <+: s.posted ∧ s.executed.Nodup ∧ s.crashed = none := by
  have hs := run_inOrder hopen hP hrun
  obtain ⟨w, -, horder⟩ := hs.order
  have hpre : s.executed <+: s.posted := by
    rw [← horder, List.append_assoc]
    exact List.prefix_append ..
  exact ⟨hpre, hpre.sublist.nodup hs.nodup, hs.running⟩

/-- The second statement is posted after the first has been taken. -/
def alternatingRun : List (Label String) :=
  [.execSqlInStack "DELETE", .poster 0, .worker 0, .worker 0, .worker 0,
    .execSqlInStack "INSERT", .poster 1, .worker 0, .worker 0, .worker 0, .worker 0, .worker 0,
    .worker 0]

theorem run_executed_prefix_alternating :
    ∃ s, run step opened alternatingRun = some s ∧ s.executed = [⟨0, "DELETE"⟩, ⟨1, "INSERT"⟩] ∧
      s.executed <+: s.posted ∧ s.executed.Nodup ∧ s.crashed = none :=
  ⟨_, rfl, rfl, run_executed_prefix (by decide)
    (by decide : RunMeets step TakesSingle opened alternatingRun) rfl⟩

/-- Both statements are queued before the worker takes one. -/
def burstRun : List (Label String) :=
  [.execSqlInStack "DELETE", .execSqlInStack "INSERT", .poster 0, .poster 1,
    .worker 0, .worker 0, .worker 0, .worker 0]

theorem executed_not_prefix :
    ¬ ∀ (as : List (Label String)) (s : SqlManager String), .closeStack ∉ as →
      run step opened as = some s → s.executed <+: s.posted ∧ s.executed.Nodup :=
  fun h => absurd (h burstRun _ (by decide) rfl).1 (by decide)

/-- Taking from a queue of two or more always breaks the order: the last statement is executed
where the first one was due. -/
theorem take_overtakes {s t : SqlManager Sql} {a b : SqlExecNode Sql} {q : List (SqlExecNode Sql)}
    (hs : InOrder s) (hw : s.workers = [.take]) (hq : s.m_sql_exec_queue = a :: b :: q)
    (hrun : run step s [.worker 0, .worker 0] = some t) : ¬ t.executed <+: t.posted := by
  obtain ⟨w, hw', horder⟩ := hs.order
  rw [hw] at hw'
  obtain rfl := (List.singleton_inj.mp hw').symm
  have horder : s.executed ++ [] ++ s.m_sql_exec_queue = s.posted := horder
  rw [List.append_nil, hq] at horder
  have hnodup := horder ▸ hs.nodup
  -- the node read is the last of the queue, and not the first
  have hnil : b :: q ≠ [] := List.cons_ne_nil b q
  have hne : (b :: q).getLast hnil ≠ a := fun he =>
    have hmem : a ∈ b :: q := he ▸ List.getLast_mem hnil
    (List.nodup_cons.mp (List.nodup_append.mp hnodup).2.1).1 hmem
  have hback : backPop (a :: b :: q) = some ((b :: q).getLast hnil, b :: q) := by
    rw [backPop, List.getLast?_cons_cons, List.getLast?_eq_some_getLast hnil]
    rfl
  obtain ⟨u, hu, hrun⟩ := run_cons_eq_some.mp hrun
  obtain ⟨v, hv, hrun⟩ := run_cons_eq_some.mp hrun
  obtain rfl := Option.some.inj hrun
  unfold step at hu hv
  split at hu
  · cases hu
  simp only [hw, List.getElem?_cons_zero, Option.bind_some, stepWorker, hq, hback,
    Option.some.injEq] at hu
  subst hu
  split at hv
  · cases hv
  simp only [List.set_cons_zero, List.getElem?_cons_zero, Option.bind_some, stepWorker,
    Option.some.injEq] at hv
  subst hv
  intro hpre
  have hpre : s.executed ++ [(b :: q).getLast hnil] <+: s.executed ++ a :: b :: q :=
    horder ▸ hpre
  exact hne (List.cons_prefix_cons.mp ((List.prefix_append_right_inj _).mp hpre)).1

end VerifyServer.DataBase
