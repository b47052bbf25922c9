import VerifyServer.Reasoning.Run

/-!
# WakeThread — the worker threads of the client

`WakeThread.run` calls `wake()` and then `myRun()` for ever; `OperateWakeThread` and
`SqlExecOperateWakeThread` keep a list of operations, which `myRun` empties and `postOperate` adds
to.  The flag `bwakeup` is guarded by the thread's monitor, the list by its own.  A label is one
atomic step: a synchronized block, or for `wake()` the part of the block before `wait()` and the
part after it.  `wait()` may also return with nobody having called `notify`.  `exit()` is not called,
so it is never interrupted.
-/

open VerifyServer.Reasoning

namespace VerifyServer.Thread

/-! ## 1. State -/

/-- The program points of the thread: not started, the loop test of `run`, before the block of
`wake`, in `wait()`, notified and not yet back in the monitor, the loop test of `myRun`, inside
`ToDoOperate`, inside a `postOperate` that `ToDoOperate` calls, after its list add. -/
inductive Worker (Op : Type) where
  | new
  | run
  | wake
  | waiting
  | notified
  | myRun
  | toDoOperate (operate : Op)
  | posting (operate : Op)
  deriving DecidableEq, Repr

inductive Event where
  /-- A call of `wakeUp()`. -/
  | wakeUp
  /-- A return of `wake()` with `true`. -/
  | wakeTrue
  deriving DecidableEq, Repr

structure WakeThread (Op : Type) where
  bwakeup : Bool := false
  listOperate : List Op := []
  worker : Worker Op := .new
  /-- The number of other threads between the list add and the `wakeUp` of a `postOperate`. -/
  posters : Nat := 0
  /-- Every operation added and every operation whose `ToDoOperate` was called so far, in order. -/
  added : List Op := []
  executed : List Op := []
  events : List Event := []
  deriving DecidableEq, Repr

variable {Op : Type}

/-- `new OperateWakeThread()`. -/
def operateWakeThread : WakeThread Op := {}

/-- `new SqlExecOperateWakeThread()`: the same methods, run at `MIN_PRIORITY`. -/
def sqlExecOperateWakeThread : WakeThread Op := {}

/-! ## 2. Steps -/

inductive Label (Op : Type) where
  | start
  /-- Another thread calls `postOperate`: its list add. -/
  | postOperate (operate : Op)
  /-- The `wakeUp` of a `postOperate` that another thread is in. -/
  | postWakeUp
  /-- `wakeUp` is called by itself. -/
  | wakeUp
  /-- `wait()` is about to return without a `notify`. -/
  | spurious
  /-- The thread moves; inside `ToDoOperate`, `post` says which operation it posts next, `none` that
  it returns. -/
  | worker (post : Option Op)
  deriving DecidableEq, Repr

/-- The flag is set and the thread, if it waits, is notified. -/
def WakeThread.wakeUp (s : WakeThread Op) : WakeThread Op :=
  { s with
    bwakeup := true
    worker := if let .waiting := s.worker then .notified else s.worker
    events := s.events ++ [.wakeUp] }

def WakeThread.wakeDown (s : WakeThread Op) : WakeThread Op :=
  { s with bwakeup := false }

/-- `wake()` returns `true` and `run` calls `myRun()`. -/
def WakeThread.wakeTrue (s : WakeThread Op) : WakeThread Op :=
  { s with worker := .myRun, events := s.events ++ [.wakeTrue] }

/-- `listOperate.add(operate)`. -/
def WakeThread.add (s : WakeThread Op) (operate : Op) : WakeThread Op :=
  { s with listOperate := s.listOperate ++ [operate], added := s.added ++ [operate] }

def stepWorker (s : WakeThread Op) (post : Option Op) : Option (WakeThread Op) :=
  match s.worker with
  | .new => none
  | .run => some { s with worker := .wake }
  | .wake =>
    -- only the way through `wait()` clears the flag
    if s.bwakeup then some s.wakeTrue else some { s with worker := .waiting }
  | .waiting => none
  | .notified => some s.wakeDown.wakeTrue
  | .myRun =>
    match s.listOperate with
    | [] => some { s with worker := .run }
    | operate :: rest =>
      some { s with
        listOperate := rest
        worker := .toDoOperate operate
        executed := s.executed ++ [operate] }
  | .toDoOperate operate =>
    match post with
    | none => some { s with worker := .myRun }
    | some next => some { s.add next with worker := .posting operate }
  | .posting operate => some { s.wakeUp with worker := .toDoOperate operate }

def step (s : WakeThread Op) : Label Op → Option (WakeThread Op)
  | .start =>
    match s.worker with
    | .new => some { s with worker := .run }
    | _ => none
  | .postOperate operate => some { s.add operate with posters := s.posters + 1 }
  | .postWakeUp =>
    if s.posters = 0 then none else some { s.wakeUp with posters := s.posters - 1 }
  | .wakeUp => some s.wakeUp
  | .spurious =>
    match s.worker with
    | .waiting => some { s with worker := .notified }
    | _ => none
  | .worker post => stepWorker s post

/-! ## 3. No operation is lost -/

/-- The thread is on its way to `wait()` or in it, and will not look at the list before. -/
def Worker.Resting : Worker Op → Prop
  | .new | .run | .wake | .waiting => True
  | _ => False

/-- The operations leave the list in the order they came in, and while the thread rests, what is in
the list has a wake-up on its way: set in the flag, or still to be made by a poster. -/
structure Announced (s : WakeThread Op) : Prop where
  order : s.executed ++ s.listOperate = s.added
  flag : s.worker = .waiting → s.bwakeup = false
  pending : s.worker.Resting → s.listOperate ≠ [] → s.bwakeup = true ∨ 0 < s.posters

theorem announced_new : Announced ({} : WakeThread Op) :=
  ⟨rfl, by simp, by simp⟩

theorem WakeThread.add_order {s : WakeThread Op} (operate : Op)
    (h : s.executed ++ s.listOperate = s.added) :
    s.executed ++ (s.listOperate ++ [operate]) = s.added ++ [operate] := by
  rw [← List.append_assoc, h]

theorem WakeThread.wakeUp_not_waiting (s : WakeThread Op) : s.wakeUp.worker ≠ .waiting := by
  unfold wakeUp
  split
  · simp
  · next hw => exact hw

theorem WakeThread.wakeUp_announced {s : WakeThread Op} (hs : Announced s) (n : Nat) :
    Announced { s.wakeUp with posters := n } :=
  ⟨hs.order, fun hw => absurd hw s.wakeUp_not_waiting, fun _ _ => .inl rfl⟩

theorem stepWorker_announced {s t : WakeThread Op} {post : Option Op} (hs : Announced s)
    (h : stepWorker s post = some t) : Announced t := by
  unfold stepWorker at h
  split at h
  case h_1 | h_4 => cases h
  case h_2 hw =>
    cases h
    exact ⟨hs.order, by simp, fun _ => hs.pending (by rw [hw]; trivial)⟩
  case h_3 hw =>
    split at h <;> cases h
    · exact ⟨hs.order, by simp [WakeThread.wakeTrue], False.elim⟩
    · next hflag =>
      exact ⟨hs.order, fun _ => by simpa using hflag, fun _ => hs.pending (by rw [hw]; trivial)⟩
  case h_5 hw =>
    cases h
    exact ⟨hs.order, by simp [WakeThread.wakeTrue], False.elim⟩
  case h_6 hw =>
    split at h <;> cases h
    · next hlist => exact ⟨hs.order, by simp, fun _ hne => absurd hlist hne⟩
    · next operate rest hlist =>
      refine ⟨?_, by simp, False.elim⟩
      rw [← hs.order, hlist, List.append_assoc, List.singleton_append]
  case h_7 hw =>
    split at h <;> cases h
    · exact ⟨hs.order, by simp, False.elim⟩
    · next operate => exact ⟨WakeThread.add_order operate hs.order, by simp, False.elim⟩
  case h_8 hw =>
    cases h
    exact ⟨hs.order, by simp, False.elim⟩

theorem step_announced (s : WakeThread Op) (a : Label Op) (t : WakeThread Op) (hs : Announced s)
    (h : step s a = some t) : Announced t := by
  cases a with
  | start =>
    rw [step] at h
    split at h
    · next hw =>
      cases h
      exact ⟨hs.order, by simp, fun _ => hs.pending (by rw [hw]; trivial)⟩
    · cases h
  | postOperate operate =>
    cases h
    exact ⟨WakeThread.add_order operate hs.order, hs.flag, fun _ _ => .inr (Nat.succ_pos _)⟩
  | postWakeUp =>
    rw [step] at h
    split at h <;> cases h
    exact WakeThread.wakeUp_announced hs _
  | wakeUp => cases h; exact WakeThread.wakeUp_announced hs s.posters
  | spurious =>
    rw [step] at h
    split at h
    · cases h
      exact ⟨hs.order, by simp, False.elim⟩
    · cases h
  | worker post => exact stepWorker_announced hs h

/-- The operations executed are the first ones added, in order and each once; and when the thread
waits with the flag clear while no poster has still to call `wakeUp`, they are all that were
added. -/
theorem run_executes_added {s₀ s : WakeThread Op} {as : List (Label Op)}
    (hnew : s₀ = operateWakeThread ∨ s₀ = sqlExecOperateWakeThread) (hrun : run step s₀ as = some s) :
    s.executed <+: s.added ∧
      (s.worker = .waiting → s.bwakeup = false → s.posters = 0 → s.executed = s.added) := by
  have hs₀ : Announced s₀ := by
    rcases hnew with rfl | rfl <;> exact announced_new
  have hs := run_preserves step_announced hs₀ hrun
  refine ⟨hs.order ▸ List.prefix_append .., fun hw hflag hposters => ?_⟩
  have hlist : s.listOperate = [] := by
    by_contra hne
    rcases hs.pending (by rw [hw]; trivial) hne with hset | hpos
    · rw [hflag] at hset
      cases hset
    · omega
  rw [← hs.order, hlist, List.append_nil]

/-- The thread waits, is woken by a post and, the list empty again, waits. -/
def postedRun : List (Label String) :=
  [.start, .worker none, .worker none, .postOperate "sync", .postWakeUp, .worker none, .worker none,
    .worker none, .worker none, .worker none, .worker none]

theorem run_executes_added_posted :
    ∃ s, run step operateWakeThread postedRun = some s ∧ s.worker = .waiting ∧
      s.executed = ["sync"] ∧ s.executed = s.added :=
  ⟨_, rfl, rfl, rfl,
    (run_executes_added (.inl rfl) (rfl : run step operateWakeThread postedRun = _)).2 rfl rfl rfl⟩

/-- The moves of the thread alone. -/
def alone (n : Nat) : List (Label Op) :=
  List.replicate n (.worker none)

theorem run_alone_succ {s t : WakeThread Op} (k : Nat) (h : stepWorker s none = some t) :
    run step s (alone (k + 1)) = run step t (alone k) := by
  rw [alone, List.replicate_succ, run]
  show (stepWorker s none).bind _ = _
  rw [h]
  rfl

/-- `myRun` empties the list; it neither touches the flag nor returns to `wake`. -/
theorem myRun_drains {s : WakeThread Op} (hw : s.worker = .myRun) :
    run step s (alone (2 * s.listOperate.length + 1)) =
      some { s with
        worker := .run
        listOperate := []
        executed := s.executed ++ s.listOperate } := by
  obtain ⟨bwakeup, listOperate, worker, posters, added, executed, events⟩ := s
  obtain rfl : worker = .myRun := hw
  induction listOperate generalizing executed with
  | nil => simp [alone, run, step, stepWorker]
  | cons operate rest ih =>
    have hlen : 2 * (operate :: rest).length + 1 = 2 * rest.length + 1 + 1 + 1 := by
      rw [List.length_cons]
      omega
    have hpop : stepWorker (⟨bwakeup, operate :: rest, .myRun, posters, added, executed,
        events⟩ : WakeThread Op) none = some ⟨bwakeup, rest, .toDoOperate operate, posters, added,
          executed ++ [operate], events⟩ := rfl
    rw [hlen, run_alone_succ _ hpop, run_alone_succ _ rfl, ih (executed ++ [operate]),
      List.append_assoc, List.singleton_append]

end VerifyServer.Thread
