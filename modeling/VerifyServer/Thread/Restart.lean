import VerifyServer.Thread.WakeThread

/-!
# Restart — logging in again

The users who share a `MyBaseDataProxy` start it when they log in and stop it when they log out.
`start` opens the database, which succeeds, and starts the one worker thread the proxy was made
with; `stop` interrupts that thread and waits for its end, and closes the database.  What the thread
has not executed when it ends is never executed.
-/

open VerifyServer.Reasoning

namespace VerifyServer.Thread

variable {Op : Type}

/-! ## 1. A thread that is let run -/

/-- The operations added to `s` have all been executed in `t`. -/
structure Drained (s t : WakeThread Op) : Prop where
  executed : t.executed = s.added
  added : t.added = s.added

/-- It empties the list that `myRun` finds. -/
theorem myRun_empties {s : WakeThread Op} (horder : s.executed ++ s.listOperate = s.added)
    (hw : s.worker = .myRun) : ∃ k t, run step s (alone k) = some t ∧ Drained s t :=
  ⟨_, _, myRun_drains hw, horder, rfl⟩

theorem step_drains {s t : WakeThread Op} (hstep : stepWorker s none = some t)
    (hadded : t.added = s.added) (h : ∃ k u, run step t (alone k) = some u ∧ Drained t u) :
    ∃ k u, run step s (alone k) = some u ∧ Drained s u := by
  have ⟨k, u, hu, hdrained⟩ := h
  refine ⟨k + 1, u, by rw [run_alone_succ _ hstep, hu], ?_, ?_⟩
  · exact hdrained.executed.trans hadded
  · exact hdrained.added.trans hadded

/-- On its way to `wait()` the thread comes to `myRun` if there is something in the list. -/
theorem wake_drains {s : WakeThread Op} (hs : Announced s) (hposters : s.posters = 0)
    (hw : s.worker = .wake) : ∃ k t, run step s (alone k) = some t ∧ Drained s t := by
  by_cases hlist : s.listOperate = []
  · refine ⟨0, s, rfl, ?_, rfl⟩
    rw [← hs.order, hlist, List.append_nil]
  · have hflag : s.bwakeup = true := by
      have hpending := hs.pending (by rw [hw]; trivial) hlist
      exact hpending.resolve_right (by omega)
    have hstep : stepWorker s none = some s.wakeTrue := by
      rw [stepWorker, hw]
      exact if_pos hflag
    exact step_drains hstep rfl (myRun_empties hs.order rfl)

/-- Wherever the thread is, when no poster has a wake-up to make. -/
theorem worker_drains {s : WakeThread Op} (hs : Announced s) (hposters : s.posters = 0)
    (hnew : s.worker ≠ .new) : ∃ k t, run step s (alone k) = some t ∧ Drained s t := by
  cases hw : s.worker with
  | new => exact absurd hw hnew
  | run =>
    have hstep : stepWorker s none = some { s with worker := .wake } := by rw [stepWorker, hw]
    exact step_drains hstep rfl
      (wake_drains (stepWorker_announced hs hstep) hposters rfl)
  | wake => exact wake_drains hs hposters hw
  | waiting =>
    refine ⟨0, s, rfl, ?_, rfl⟩
    have hlist : s.listOperate = [] := by
      by_contra hne
      have hpending := hs.pending (by rw [hw]; trivial) hne
      rw [hs.flag hw, hposters] at hpending
      simp at hpending
    rw [← hs.order, hlist, List.append_nil]
  | notified =>
    have hstep : stepWorker s none = some s.wakeDown.wakeTrue := by rw [stepWorker, hw]
    exact step_drains hstep rfl (myRun_empties hs.order rfl)
  | myRun => exact myRun_empties hs.order hw
  | toDoOperate operate =>
    have hstep : stepWorker s none = some { s with worker := .myRun } := by rw [stepWorker, hw]
    exact step_drains hstep rfl (myRun_empties hs.order rfl)
  | posting operate =>
    have hstep : stepWorker s none = some { s.wakeUp with worker := .toDoOperate operate } := by
      rw [stepWorker, hw]
    have hstep' : stepWorker { s.wakeUp with worker := .toDoOperate operate } none =
      some { s.wakeUp with worker := .myRun } := rfl
    exact step_drains hstep rfl (step_drains hstep' rfl (myRun_empties hs.order rfl))

/-- The posters make their wake-ups. -/
theorem posters_wakeUp (n : Nat) {s : WakeThread Op} (hs : Announced s) (hposters : s.posters = n)
    (hnew : s.worker ≠ .new) : ∃ t, run step s (List.replicate n .postWakeUp) = some t ∧
      Announced t ∧ t.posters = 0 ∧ t.worker ≠ .new ∧ t.added = s.added := by
  induction n generalizing s with
  | zero => exact ⟨s, rfl, hs, hposters, hnew, rfl⟩
  | succ n ih =>
    have hstep : step s .postWakeUp = some { s.wakeUp with posters := s.posters - 1 } :=
      if_neg (by omega)
    have hnew' : s.wakeUp.worker ≠ .new := by
      unfold WakeThread.wakeUp
      split
      · exact nofun
      · exact hnew
    have ⟨t, ht, hrest⟩ := ih (s := { s.wakeUp with posters := s.posters - 1 })
      (WakeThread.wakeUp_announced hs _) (by show s.posters - 1 = n; omega) hnew'
    exact ⟨t, run_cons_eq_some.mpr ⟨_, hstep, ht⟩, hrest⟩

/-- Every operation added is executed, if the posters go on and the thread is let run. -/
theorem thread_drains {s : WakeThread Op} (hs : Announced s) (hnew : s.worker ≠ .new) :
    ∃ k t, run step s (List.replicate s.posters .postWakeUp ++ alone k) = some t ∧
      Drained s t := by
  have ⟨u, hu, hannounced, hposters, hnew', hadded⟩ := posters_wakeUp s.posters hs rfl hnew
  have ⟨k, t, ht, hdrained⟩ := worker_drains hannounced hposters hnew'
  refine ⟨k, t, by rw [run_append hu, ht], ?_, ?_⟩
  · exact hdrained.executed.trans hadded
  · exact hdrained.added.trans hadded

/-! ## 2. `start` and `stop` -/

structure Proxy (Op : Type) where
  thread : WakeThread Op := sqlExecOperateWakeThread
  -- whether `mdb` is open, none for null
  mdb : Option Bool := none
  interrupted : Bool := false
  -- `run` has returned
  ended : Bool := false
  -- the calls of `stop` that are in `join`
  stopping : Nat := 0
  -- a call of `start` has thrown
  thrown : Bool := false
  -- how many operations had been posted when one was last posted with the database open
  due : Nat := 0
  deriving DecidableEq, Repr

inductive Act (Op : Type) where
  | start
  -- `stop`, up to `join()`
  | stop
  -- `join()` returns, and the rest of `stop`
  | joined
  | postOperate (operate : Op)
  | postWakeUp
  -- `wait()` is about to return without a `notify`
  | spurious
  -- the worker moves, and `wait()` throws if it may
  | worker (post : Option Op) (throws : Bool)
  deriving DecidableEq, Repr

/-- The thread has not been started, or is over. -/
def Proxy.idle (s : Proxy Op) : Bool :=
  s.ended || match s.thread.worker with
    | .new => true
    | _ => false

/-- `wakeUp()`: an interrupted thread does not wait any more. -/
def Proxy.wakeUp (s : Proxy Op) : WakeThread Op :=
  match s.thread.worker with
  | .waiting =>
    if s.interrupted then
      { s.thread with bwakeup := true, events := s.thread.events ++ [.wakeUp] }
    else s.thread.wakeUp
  | _ => s.thread.wakeUp

/-- An interrupted thread leaves `run` here: at the loop test, or because `wait()` throws.  Notified
and interrupted, `wait()` may throw or return. -/
def Proxy.leaves (s : Proxy Op) (throws : Bool) : Bool :=
  s.interrupted && match s.thread.worker with
    | .run | .waiting => true
    | .wake => !s.thread.bwakeup
    | .notified => throws
    | _ => false

/-- The thread has moved on; what is posted with the database open is to be executed. -/
def Proxy.withThread (s : Proxy Op) (thread : WakeThread Op) : Proxy Op :=
  { s with
    thread := thread
    due := if s.mdb = some true ∧ s.thread.added.length < thread.added.length
      then thread.added.length else s.due }

def Proxy.stepWorker (s : Proxy Op) (post : Option Op) (throws : Bool) : Option (Proxy Op) :=
  if s.ended then none
  else if s.leaves throws then
    -- an exception clears the interrupt, the loop test does not
    some { s with
      interrupted := match s.thread.worker with
        | .run => true
        | _ => false
      ended := true }
  else (Thread.stepWorker s.thread post).map s.withThread

def stepProxy (s : Proxy Op) : Act Op → Option (Proxy Op)
  | .start =>
    -- `IllegalThreadStateException` unless the thread is new
    match s.thread.worker with
    | .new => some { s with mdb := some true, thread.worker := .run }
    | _ => some { s with mdb := some true, thrown := true }
  | .stop =>
    -- to interrupt a thread that does not run has no effect
    some { s with interrupted := s.interrupted || !s.idle, stopping := s.stopping + 1 }
  | .joined =>
    if s.stopping = 0 ∨ s.idle = false then none
    else some { s with stopping := s.stopping - 1, mdb := s.mdb.map fun _ => false }
  | .postOperate operate =>
    some (s.withThread { s.thread.add operate with posters := s.thread.posters + 1 })
  | .postWakeUp =>
    if s.thread.posters = 0 then none
    else some { s with thread := { s.wakeUp with posters := s.thread.posters - 1 } }
  | .spurious =>
    match s.thread.worker with
    | .waiting => some { s with thread.worker := .notified }
    | _ => none
  | .worker post throws => s.stepWorker post throws

/-! ## 3. What is kept -/

/-- A thread that runs and is not interrupted. -/
def Proxy.Live (s : Proxy Op) : Prop := s.idle = false ∧ s.interrupted = false

/-- The posters make their wake-ups, and the thread moves `k` times. -/
def goOnFor (posters k : Nat) : List (Act Op) :=
  List.replicate posters .postWakeUp ++ List.replicate k (.worker none false)

/-- When the thread has ended, it has executed what was posted with the database open. -/
def Served (s : Proxy Op) : Prop := s.ended = true → s.due ≤ s.thread.executed.length

/-- No `start` has thrown; the operations have left the list in the order in which they were posted,
each of them once, and the others are in it; a thread that is let run executes them all; and when it
has ended, it has executed all that were posted while the database was open. -/
structure Kept (s : Proxy Op) : Prop where
  no_throw : s.thrown = false
  order : s.thread.executed ++ s.thread.listOperate = s.thread.added
  executes : s.Live → ∃ k t, run stepProxy s (goOnFor s.thread.posters k) = some t ∧
    t.thread.executed = s.thread.added
  served : Served s

/-- `start` finds a thread that has never been started; the thread does not leave while something
that was posted with the database open is in the list; and nothing is posted between its end and the
closing of the database. -/
def KeepsPosted (s : Proxy Op) : Act Op → Prop
  | .start => s.thread.worker = .new
  | .worker _ throws => s.leaves throws = true → s.due ≤ s.thread.executed.length
  | .postOperate _ => ¬(s.ended = true ∧ s.mdb = some true)
  | _ => True

instance [DecidableEq Op] (s : Proxy Op) (a : Act Op) : Decidable (KeepsPosted s a) :=
  match a with
  | .start => inferInstanceAs (Decidable (_ = _))
  | .worker _ _ => inferInstanceAs (Decidable (_ → _))
  | .postOperate _ => inferInstanceAs (Decidable (¬_))
  | .stop | .joined | .postWakeUp | .spurious => isTrue trivial

structure Ordered (s : Proxy Op) : Prop where
  order : s.thread.executed ++ s.thread.listOperate = s.thread.added
  announced : s.ended = false → s.interrupted = false → Announced s.thread

theorem stepWorker_order {s t : WakeThread Op} {post : Option Op}
    (hs : s.executed ++ s.listOperate = s.added) (h : stepWorker s post = some t) :
    t.executed ++ t.listOperate = t.added := by
  unfold stepWorker at h
  split at h
  case h_1 | h_4 => cases h
  case h_2 | h_5 | h_8 =>
    cases h
    exact hs
  case h_3 =>
    split at h <;> cases h <;> exact hs
  case h_6 =>
    split at h <;> cases h
    · exact hs
    · next operate rest hlist =>
      rw [← hs, hlist, List.append_assoc, List.singleton_append]
  case h_7 =>
    split at h <;> cases h
    · exact hs
    · next operate => exact WakeThread.add_order operate hs

section Steps

variable {s t : Proxy Op}

theorem Ordered.leave (hs : Ordered s) (interrupted : Bool) :
    Ordered { s with interrupted := interrupted, ended := true } :=
  ⟨hs.order, fun hended => by cases hended⟩

theorem Ordered.worker {post : Option Op} {throws : Bool} (hs : Ordered s)
    (h : s.stepWorker post throws = some t) : Ordered t := by
  unfold Proxy.stepWorker at h
  split at h
  · cases h
  · split at h
    · cases h
      exact hs.leave _
    · have ⟨thread, hthread, heq⟩ := Option.map_eq_some_iff.mp h
      cases heq
      exact ⟨stepWorker_order hs.order hthread,
        fun hended hclear => stepWorker_announced (hs.announced hended hclear) hthread⟩

/-- The worker serves what is due just when it does not leave too early; and it does not throw. -/
theorem stepWorker_served {post : Option Op} {throws : Bool}
    (h : s.stepWorker post throws = some t) : t.thrown = s.thrown ∧
      (Served t ↔ Served s ∧ KeepsPosted s (.worker post throws)) := by
  unfold Proxy.stepWorker at h
  split at h
  · cases h
  · next hended =>
    split at h
    · next hleaves =>
      cases h
      exact ⟨rfl, fun ht => ⟨fun hs => absurd hs hended, fun _ => ht rfl⟩,
        fun hs _ => hs.2 hleaves⟩
    · next hstays =>
      have ⟨thread, hthread, heq⟩ := Option.map_eq_some_iff.mp h
      cases heq
      exact ⟨rfl, iff_of_true (fun ht => absurd ht hended)
        ⟨fun hs => absurd hs hended, fun hleaves => absurd hleaves hstays⟩⟩

theorem Proxy.wakeUp_eq (hclear : s.interrupted = false) : s.wakeUp = s.thread.wakeUp := by
  unfold Proxy.wakeUp
  split
  · rw [hclear]
    rfl
  · rfl

theorem Proxy.wakeUp_order (s : Proxy Op) :
    s.wakeUp.executed = s.thread.executed ∧ s.wakeUp.listOperate = s.thread.listOperate ∧
      s.wakeUp.added = s.thread.added := by
  unfold Proxy.wakeUp
  split
  · split
    · exact ⟨rfl, rfl, rfl⟩
    · exact ⟨rfl, rfl, rfl⟩
  · exact ⟨rfl, rfl, rfl⟩

/-- A step keeps the order. -/
theorem stepProxy_ordered {a : Act Op} (hs : Ordered s) (h : stepProxy s a = some t) :
    Ordered t := by
  cases a with
  | start =>
    rw [stepProxy] at h
    split at h
    · next hw =>
      cases h
      refine ⟨hs.order, fun hended hclear => ?_⟩
      -- the thread itself takes this step, which keeps its announcements
      have hstart : step s.thread .start = some { s.thread with worker := .run } := by
        rw [step, hw]
      exact step_announced _ _ _ (hs.announced hended hclear) hstart
    · cases h
      exact ⟨hs.order, hs.announced⟩
  | stop =>
    cases h
    exact ⟨hs.order, fun hended hclear => hs.announced hended (Bool.or_eq_false_iff.mp hclear).1⟩
  | joined =>
    rw [stepProxy] at h
    split at h
    · cases h
    · cases h
      exact ⟨hs.order, hs.announced⟩
  | postOperate operate =>
    cases h
    refine ⟨WakeThread.add_order operate hs.order, fun hended hclear => ?_⟩
    exact step_announced _ (.postOperate operate) _ (hs.announced hended hclear) rfl
  | postWakeUp =>
    rw [stepProxy] at h
    split at h
    · cases h
    · cases h
      -- a wake-up of either kind leaves the list and what was executed
      obtain ⟨hexecuted, hlist, hadded⟩ := s.wakeUp_order
      refine ⟨?_, fun hended hclear => ?_⟩
      · show s.wakeUp.executed ++ s.wakeUp.listOperate = s.wakeUp.added
        rw [hexecuted, hlist, hadded]
        exact hs.order
      · show Announced { s.wakeUp with posters := s.thread.posters - 1 }
        rw [Proxy.wakeUp_eq (s := s) hclear]
        exact WakeThread.wakeUp_announced (hs.announced hended hclear) _
  | spurious =>
    rw [stepProxy] at h
    split at h
    · next hw =>
      cases h
      refine ⟨hs.order, fun hended hclear => ?_⟩
      have hreturn : step s.thread .spurious = some { s.thread with worker := .notified } := by
        rw [step, hw]
      exact step_announced _ _ _ (hs.announced hended hclear) hreturn
    · cases h
  | worker post throws => exact hs.worker h

/-- With the thread ended nothing more is executed: what is posted while the database is still open
is lost, and what is posted later is not due. -/
theorem postOperate_served (hs : Ordered s) (operate : Op) (posters : Nat) :
    Served (s.withThread { s.thread.add operate with posters := posters }) ↔
      Served s ∧ ¬(s.ended = true ∧ s.mdb = some true) := by
  have hlength : s.thread.executed.length ≤ s.thread.added.length := by
    rw [← hs.order, List.length_append]
    exact Nat.le_add_right _ _
  have hadded : (s.thread.added ++ [operate]).length = s.thread.added.length + 1 :=
    List.length_append
  by_cases hopen : s.mdb = some true
  · have hdue : (s.withThread { s.thread.add operate with posters := posters }).due =
        s.thread.added.length + 1 := by
      rw [← hadded]
      exact if_pos ⟨hopen, by rw [WakeThread.add, hadded]; exact Nat.lt_succ_self _⟩
    by_cases hended : s.ended = true
    · refine iff_of_false (fun hserved => ?_) fun h => h.2 ⟨hended, hopen⟩
      have hle := hserved hended
      rw [hdue] at hle
      have hle : s.thread.added.length + 1 ≤ s.thread.executed.length := hle
      omega
    · exact iff_of_true (fun h => absurd h hended) ⟨fun h => absurd h hended, fun h => hended h.1⟩
  · have hdue : (s.withThread { s.thread.add operate with posters := posters }).due = s.due :=
      if_neg fun h => hopen h.1
    unfold Served
    rw [hdue]
    exact ⟨fun h => ⟨h, fun h => hopen h.2⟩, And.left⟩

/-- Nothing throws and everything due is served after a step just when that was so before it and the
step meets the condition. -/
theorem stepProxy_served {a : Act Op} (hs : Ordered s) (h : stepProxy s a = some t) :
    t.thrown = false ∧ Served t ↔ (s.thrown = false ∧ Served s) ∧ KeepsPosted s a := by
  cases a with
  | start =>
    rw [stepProxy] at h
    split at h
    · next hw =>
      cases h
      exact ⟨fun ht => ⟨ht, hw⟩, And.left⟩
    · next hw =>
      cases h
      -- the thread was started before, so `start` throws and the condition fails
      exact iff_of_false (fun ht => by cases ht.1) fun h => hw h.2
  | stop =>
    cases h
    exact (and_iff_left trivial).symm
  | joined =>
    rw [stepProxy] at h
    split at h
    · cases h
    · cases h
      exact (and_iff_left trivial).symm
  | postOperate operate =>
    cases h
    rw [postOperate_served hs, and_assoc]
    exact Iff.rfl
  | postWakeUp =>
    rw [stepProxy] at h
    split at h
    · cases h
    · cases h
      -- what is due was counted when the operation was added
      have hserved : Served { s with thread := { s.wakeUp with posters := s.thread.posters - 1 } } ↔
          Served s := by
        show (s.ended = true → s.due ≤ s.wakeUp.executed.length) ↔ _
        rw [s.wakeUp_order.1]
        exact Iff.rfl
      rw [hserved]
      exact (and_iff_left trivial).symm
  | spurious =>
    rw [stepProxy] at h
    split at h
    · cases h
      exact (and_iff_left trivial).symm
    · cases h
  | worker post throws =>
    have ⟨hthrown, hserved⟩ := stepWorker_served h
    rw [hthrown, hserved, and_assoc]

theorem run_served {as : List (Act Op)} (hs : Ordered s) (h : run stepProxy s as = some t) :
    Ordered t ∧ (t.thrown = false ∧ Served t ↔
      (s.thrown = false ∧ Served s) ∧ RunMeets stepProxy KeepsPosted s as) := by
  induction as generalizing s with
  | nil =>
    rw [← Option.some.inj h]
    exact ⟨hs, (and_iff_left trivial).symm⟩
  | cons a as ih =>
    have ⟨u, hu, hrun⟩ := run_cons_eq_some.mp h
    have ⟨hend, hiff⟩ := ih (stepProxy_ordered hs hu) hrun
    refine ⟨hend, hiff.trans ?_⟩
    rw [stepProxy_served hs hu, and_assoc]
    refine and_congr_right fun _ => and_congr_right fun _ => ⟨fun h v hv => ?_, fun h => h u hu⟩
    rw [← Option.some.inj (hu.symm.trans hv)]
    exact h

/-- While it is not interrupted, the proxy takes the steps of its thread. -/
theorem run_uninterrupted {posters k : Nat} {thread : WakeThread Op} (hended : s.ended = false)
    (hclear : s.interrupted = false)
    (h : run step s.thread (List.replicate posters .postWakeUp ++ alone k) = some thread) :
    ∃ t, run stepProxy s (goOnFor posters k) = some t ∧ t.thread = thread := by
  induction posters generalizing s with
  | zero =>
    induction k generalizing s with
    | zero => exact ⟨s, rfl, Option.some.inj h⟩
    | succ k ih =>
      obtain ⟨u, hu, hrun⟩ := run_cons_eq_some.mp h
      have hstays : s.leaves false = false := by rw [Proxy.leaves, hclear, Bool.false_and]
      have hstep : stepProxy s (.worker none false) = some (s.withThread u) := by
        rw [stepProxy, Proxy.stepWorker, hended, hstays]
        exact congrArg (Option.map s.withThread) hu
      obtain ⟨t, ht, hthread⟩ := ih (s := s.withThread u) hended hclear hrun
      exact ⟨t, run_cons_eq_some.mpr ⟨_, hstep, ht⟩, hthread⟩
  | succ posters ih =>
    obtain ⟨u, hu, hrun⟩ := run_cons_eq_some.mp h
    have hstep : stepProxy s .postWakeUp = some { s with thread := u } := by
      rw [step] at hu
      split at hu
      · cases hu
      · next hposters =>
        rw [stepProxy, if_neg hposters, Proxy.wakeUp_eq hclear]
        cases hu
        rfl
    obtain ⟨t, ht, hthread⟩ := ih (s := { s with thread := u }) hended hclear hrun
    exact ⟨t, run_cons_eq_some.mpr ⟨_, hstep, ht⟩, hthread⟩

theorem Ordered.executes (hs : Ordered s) (hlive : s.Live) :
    ∃ k t, run stepProxy s (goOnFor s.thread.posters k) = some t ∧
      t.thread.executed = s.thread.added := by
  have ⟨hidle, hclear⟩ := hlive
  have ⟨hended, hstarted⟩ := Bool.or_eq_false_iff.mp hidle
  have hnew : s.thread.worker ≠ .new := fun hw => by
    rw [hw] at hstarted
    cases hstarted
  have ⟨k, thread, hrun, hdrained⟩ := thread_drains (hs.announced hended hclear) hnew
  have ⟨t, ht, hthread⟩ := run_uninterrupted hended hclear hrun
  exact ⟨k, t, ht, by rw [hthread, hdrained.executed]⟩

end Steps

/-- Every step of a run meets the condition just when no `start` throws and the operations are
kept. -/
theorem run_kept_iff {as : List (Act Op)} {t : Proxy Op} (h : run stepProxy {} as = some t) :
    Kept t ↔ RunMeets stepProxy KeepsPosted {} as := by
  have hfirst : Ordered ({} : Proxy Op) := ⟨rfl, fun _ _ => announced_new⟩
  have hnone : Served ({} : Proxy Op) := fun h => by cases h
  have ⟨hordered, hiff⟩ := run_served hfirst h
  have hserved : t.thrown = false ∧ Served t ↔ RunMeets stepProxy KeepsPosted {} as :=
    hiff.trans (and_iff_right ⟨rfl, hnone⟩)
  exact ⟨fun hkept => hserved.mp ⟨hkept.no_throw, hkept.served⟩, fun hmeets =>
    have hend := hserved.mpr hmeets
    ⟨hend.1, hordered.order, hordered.executes, hend.2⟩⟩

/-- A user logs in, posts an insert that is executed, and logs out. -/
def loggedInOnce : List (Act String) :=
  [.start, .worker none false, .worker none false, .postOperate "insert", .postWakeUp,
    .worker none false, .worker none false, .worker none false, .worker none false, .stop,
    .worker none false, .joined]

theorem run_kept_once : ∃ t, run stepProxy {} loggedInOnce = some t ∧
    t.thread.executed = ["insert"] ∧ t.mdb = some false ∧ Kept t := by
  refine ⟨_, rfl, rfl, rfl, (run_kept_iff (rfl : run stepProxy {} loggedInOnce = some _)).mpr ?_⟩
  decide

-- the insert is in the list when the thread leaves
example : ¬RunMeets stepProxy KeepsPosted {} [.start, .postOperate "insert", .stop,
    .worker none false] := by decide

/-- A user logs in and out, and the next one logs in. -/
theorem start_throws : ¬∀ (as : List (Act String)) (t : Proxy String),
    run stepProxy {} as = some t → Kept t := by
  intro h
  have hkept := h [.start, .stop, .worker none false, .joined, .start] _ rfl
  cases hkept.no_throw

end VerifyServer.Thread
