import VerifyServer.Reasoning.Run

/-!
# SqlManager — the statement queue of `CDBSqlManager`

`ExecSqlInStack` puts a statement into `m_sql_exec_queue` under the lock and then signals `m_hEvent`;
a worker thread takes statements out and executes them; `OpenStack` and `CloseStack` start and end
the worker.  A label is one atomic step of one party: a locked section, a queue or event operation,
a read or a write of a shared variable.  A call in progress and a worker are named by their position
in the list of their kind.
-/

open VerifyServer.Reasoning

namespace VerifyServer.DataBase

/-! ## 1. State -/

/-- `CSqlExecNode`: the statement with its callback and data, and a serial number that tells two
allocations apart. -/
structure SqlExecNode (Sql : Type) where
  serial : Nat
  sql : Sql
  deriving DecidableEq, Repr

/-- A call of `ExecSqlInStack` that has read `m_bthreadRunning == true`. -/
inductive Poster (Sql : Type) where
  | push (sql : Sql)
  | setEvent
  | done
  deriving DecidableEq, Repr

/-- A call of `OpenStack` that has found no thread. -/
inductive Opener where
  | setRunning
  | beginThread
  | storeThread (thread : Option Nat)
  | storeRunning
  | done
  deriving DecidableEq, Repr

/-- A call of `CloseStack`. -/
inductive Closer where
  | setEvent
  | clearRunning
  | waitThread
  | closeHandle
  | testEmpty
  | pop
  | done
  deriving DecidableEq, Repr

/-- The program points of `_SqlexecThreadProc`: the loop test, the `empty()` test, the wait, the
locked section, `ExecSql`, `Sleep(100)`, the end. -/
inductive Worker (Sql : Type) where
  | loop
  | testEmpty
  | wait
  | take
  | execSql (p : SqlExecNode Sql)
  | sleep
  | done
  deriving DecidableEq, Repr

/-- Who called `back()` and `pop()` on the empty queue. -/
inductive Party where
  | worker (i : Nat)
  | closer (i : Nat)
  deriving DecidableEq, Repr

structure SqlManager (Sql : Type) where
  m_bthreadRunning : Bool := false
  /-- The worker whose handle is in `m_stackThread`; `none` for `NULL` and `INVALID_HANDLE_VALUE`. -/
  m_stackThread : Option Nat := none
  m_sql_exec_queue : List (SqlExecNode Sql) := []
  /-- `m_hEvent`, an auto-reset event, is signalled. -/
  m_hEvent : Bool := false
  posters : List (Poster Sql) := []
  openers : List Opener := []
  closers : List Closer := []
  workers : List (Worker Sql) := []
  /-- Every node pushed and every node passed to `ExecSql` so far, in order. -/
  posted : List (SqlExecNode Sql) := []
  executed : List (SqlExecNode Sql) := []
  /-- `back()` or `pop()` was called on the empty queue: the behaviour is undefined from here. -/
  crashed : Option Party := none
  deriving DecidableEq, Repr

/-! ## 2. Steps -/

inductive Label (Sql : Type) where
  /-- `ExecSqlInStack` is called and reads the flag. -/
  | execSqlInStack (sql : Sql)
  /-- `OpenStack` is called and reads `m_stackThread`. -/
  | openStack
  /-- `CloseStack` is called and reads `m_stackThread` and the flag. -/
  | closeStack
  | poster (i : Nat)
  /-- `started` says whether `_beginthreadex`, when this step calls it, returns a thread. -/
  | opener (i : Nat) (started : Bool)
  /-- `timeout` says whether the five seconds of the wait, when this step is its end, are over. -/
  | closer (i : Nat) (timeout : Bool)
  | worker (i : Nat)
  deriving DecidableEq, Repr

variable {Sql : Type}

/-- `p = m_sql_exec_queue.back(); m_sql_exec_queue.pop();`: the newest node is read, the oldest is
removed. -/
def backPop (q : List (SqlExecNode Sql)) : Option (SqlExecNode Sql × List (SqlExecNode Sql)) :=
  q.getLast?.map fun p => (p, q.tail)

def stepPoster (s : SqlManager Sql) (i : Nat) : Poster Sql → Option (SqlManager Sql)
  | .push sql =>
    let pnode : SqlExecNode Sql := ⟨s.posted.length, sql⟩
    some { s with
      m_sql_exec_queue := s.m_sql_exec_queue ++ [pnode]
      posted := s.posted ++ [pnode]
      posters := s.posters.set i .setEvent }
  | .setEvent => some { s with m_hEvent := true, posters := s.posters.set i .done }
  | .done => none

def stepOpener (s : SqlManager Sql) (i : Nat) (started : Bool) : Opener → Option (SqlManager Sql)
  | .setRunning => some { s with m_bthreadRunning := true, openers := s.openers.set i .beginThread }
  | .beginThread =>
    if started then
      some { s with
        workers := s.workers ++ [.loop]
        openers := s.openers.set i (.storeThread (some s.workers.length)) }
    else some { s with openers := s.openers.set i (.storeThread none) }
  | .storeThread thread =>
    some { s with m_stackThread := thread, openers := s.openers.set i .storeRunning }
  | .storeRunning =>
    some { s with m_bthreadRunning := s.m_stackThread.isSome, openers := s.openers.set i .done }
  | .done => none

/-- `WaitForSingleObject` on the handle of a worker returns at once when the worker has ended; on no
handle it fails at once. -/
def threadEnded (s : SqlManager Sql) : Bool :=
  match s.m_stackThread with
  | none => true
  | some j =>
    match s.workers[j]? with
    | some .done => true
    | _ => false

def stepCloser (s : SqlManager Sql) (i : Nat) (timeout : Bool) : Closer → Option (SqlManager Sql)
  | .setEvent => some { s with m_hEvent := true, closers := s.closers.set i .clearRunning }
  | .clearRunning =>
    some { s with m_bthreadRunning := false, closers := s.closers.set i .waitThread }
  | .waitThread =>
    if timeout || threadEnded s then some { s with closers := s.closers.set i .closeHandle }
    else none
  | .closeHandle => some { s with m_stackThread := none, closers := s.closers.set i .testEmpty }
  | .testEmpty =>
    some { s with closers := s.closers.set i (if s.m_sql_exec_queue.isEmpty then .done else .pop) }
  | .pop =>
    match backPop s.m_sql_exec_queue with
    | none => some { s with crashed := some (.closer i) }
    | some (_, q) => some { s with m_sql_exec_queue := q, closers := s.closers.set i .testEmpty }
  | .done => none

def stepWorker (s : SqlManager Sql) (i : Nat) : Worker Sql → Option (SqlManager Sql)
  | .loop =>
    some { s with workers := s.workers.set i (if s.m_bthreadRunning then .testEmpty else .done) }
  | .testEmpty =>
    some { s with workers := s.workers.set i (if s.m_sql_exec_queue.isEmpty then .wait else .take) }
  | .wait =>
    -- the wait consumes the signal; without one the worker stays blocked
    if s.m_hEvent then some { s with m_hEvent := false, workers := s.workers.set i .take } else none
  | .take =>
    match backPop s.m_sql_exec_queue with
    | none => some { s with crashed := some (.worker i) }
    | some (p, q) => some { s with m_sql_exec_queue := q, workers := s.workers.set i (.execSql p) }
  | .execSql p =>
    some { s with executed := s.executed ++ [p], workers := s.workers.set i .sleep }
  | .sleep => some { s with workers := s.workers.set i .loop }
  | .done => none

/-- One atomic step of `CDBSqlManager`. -/
def step (s : SqlManager Sql) (a : Label Sql) : Option (SqlManager Sql) :=
  if s.crashed.isSome then none
  else
    match a with
    | .execSqlInStack sql =>
      if s.m_bthreadRunning then some { s with posters := s.posters ++ [.push sql] } else some s
    | .openStack =>
      if s.m_stackThread.isSome then some s else some { s with openers := s.openers ++ [.setRunning] }
    | .closeStack =>
      if s.m_stackThread.isSome && s.m_bthreadRunning then
        some { s with closers := s.closers ++ [.setEvent] }
      else some { s with closers := s.closers ++ [.closeHandle] }
    | .poster i => s.posters[i]?.bind (stepPoster s i)
    | .opener i started => s.openers[i]?.bind (stepOpener s i started)
    | .closer i timeout => s.closers[i]?.bind (stepCloser s i timeout)
    | .worker i => s.workers[i]?.bind (stepWorker s i)

/-! ## 3. The two ends of the queue -/

@[simp] theorem backPop_nil : backPop ([] : List (SqlExecNode Sql)) = none := rfl

@[simp] theorem backPop_singleton (p : SqlExecNode Sql) : backPop [p] = some (p, []) := rfl

theorem backPop_eq_none {q : List (SqlExecNode Sql)} : backPop q = none ↔ q = [] := by
  rw [backPop, Option.map_eq_none_iff, List.getLast?_eq_none_iff]

theorem backPop_eq_some {q t : List (SqlExecNode Sql)} {p : SqlExecNode Sql}
    (h : backPop q = some (p, t)) : q.getLast? = some p ∧ t = q.tail := by
  obtain ⟨p', hp, heq⟩ := Option.map_eq_some_iff.mp h
  rw [Prod.mk.injEq] at heq
  exact ⟨heq.1 ▸ hp, heq.2.symm⟩

/-- Removing from the front leaves the queue empty only when it held one node. -/
theorem backPop_nil_iff {q : List (SqlExecNode Sql)} {p : SqlExecNode Sql}
    (h : backPop q = some (p, [])) : q = [p] := by
  obtain ⟨hlast, htail⟩ := backPop_eq_some h
  cases q with
  | nil => simp at hlast
  | cons a q =>
    obtain rfl : q = [] := by simpa using htail.symm
    rw [List.getLast?_singleton] at hlast
    rw [Option.some.inj hlast]

end VerifyServer.DataBase
