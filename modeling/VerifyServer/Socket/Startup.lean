import VerifyServer.Socket.Shutdown

/-!
# Startup — what `CTcpServer::Start` takes and what it gives back

`Start` takes the socket library, a socket, a completion port and the worker threads, in this order;
each of the calls can fail.  A server is the fields `Start` and `Stop` use, the system what they
take from it.  The connections and the pools of contexts are not part of this model; `Stop` gets
past them when the connections are gone in time.
-/

open VerifyServer.Reasoning

namespace VerifyServer.Socket.Startup

open Shutdown (Handle WorkThreads)

/-! ## 1. The server and the system -/

/-- `CTcpServer`; a handle that is none is `NULL`, a socket that is none `INVALID_SOCKET`. -/
structure Server where
  m_bRuning : Bool
  m_pRecevier : Nat
  m_sockListen : Option Handle
  m_hCompletionPort : Option Handle
  m_vecWorkThread : List Handle
  m_dwWorkerCount : UInt32
  m_dwAcceptSocketCount : UInt32
  m_dwConnID : UInt32
  m_pfnAcceptEx : Nat
  m_pfnGetAcceptExSockaddrs : Nat
  m_pfnDisconnectEx : Nat
  deriving DecidableEq, Repr

/-- `CTcpServer()`, which leaves `m_sockListen` as it finds it. -/
def newServer (m_sockListen : Option Handle) : Server where
  m_bRuning := false
  m_pRecevier := 0
  m_sockListen := m_sockListen
  m_hCompletionPort := none
  m_vecWorkThread := []
  m_dwWorkerCount := 32
  m_dwAcceptSocketCount := 256
  m_dwConnID := 0
  m_pfnAcceptEx := 0
  m_pfnGetAcceptExSockaddrs := 0
  m_pfnDisconnectEx := 0

/-- What is open in the system: uses of the socket library, sockets, completion ports, threads with
the port each takes its entries from, and the accept entries posted.  Handles are numbered in the
order in which they are given out. -/
structure Sys where
  wsaStarts : Nat := 0
  sockets : List Handle := []
  ports : List Handle := []
  threads : List (Handle × Option Handle) := []
  accepts : List (Option Handle × UInt32) := []
  next : Handle := 1
  deriving DecidableEq, Repr

structure World where
  server : Server
  sys : Sys
  deriving DecidableEq, Repr

/-! ## 2. `CTcpServer::Start` -/

/-- The argument of a call and what the system answers in it: whether `WSAStartup`, `WSASocket`,
`bind`, `listen`, `CreateIoCompletionPort` and the `i`-th `_beginthreadex` succeed, the addresses of
the three extension functions, the number of processors. -/
structure StartEnv where
  pReciver : Nat
  wsaStartup : Bool
  wsaSocket : Bool
  bind : Bool
  listen : Bool
  pfnAcceptEx : Nat
  pfnGetAcceptExSockaddrs : Nat
  pfnDisconnectEx : Nat
  createPort : Bool
  dwNumberOfProcessors : UInt32
  beginThread : Nat → Bool
  associate : Bool

/-- `closesocket(m_sockListen)`. -/
def closeListen (w : World) : World :=
  match w.server.m_sockListen with
  | none => w
  | some s => { w with sys.sockets := w.sys.sockets.erase s }

/-- `m_sockListen = WSASocket(..)`. -/
def openListen (w : World) : World :=
  { w with
    server.m_sockListen := some w.sys.next
    sys.sockets := w.sys.next :: w.sys.sockets
    sys.next := w.sys.next + 1 }

def getExtensions (env : StartEnv) (w : World) : World :=
  { w with
    server.m_pfnAcceptEx := env.pfnAcceptEx
    server.m_pfnGetAcceptExSockaddrs := env.pfnGetAcceptExSockaddrs
    server.m_pfnDisconnectEx := env.pfnDisconnectEx }

/-- `m_hCompletionPort = CreateIoCompletionPort(..)`. -/
def openPort (w : World) : World :=
  { w with
    server.m_hCompletionPort := some w.sys.next
    sys.ports := w.sys.next :: w.sys.ports
    sys.next := w.sys.next + 1 }

/-- A new thread, which goes to `GetQueuedCompletionStatus` on `m_hCompletionPort`. -/
def addThread (w : World) : World :=
  { w with
    server.m_vecWorkThread := w.server.m_vecWorkThread ++ [w.sys.next]
    sys.threads := w.sys.threads ++ [(w.sys.next, w.server.m_hCompletionPort)]
    sys.next := w.sys.next + 1 }

/-- The loop that creates `count` threads, from the `i`-th on. -/
def createThreads (env : StartEnv) : Nat → Nat → World → Bool × World
  | 0, _, w => (true, w)
  | count + 1, i, w =>
    if env.beginThread i then createThreads env count (i + 1) (addThread w) else (false, w)

/-- The listening socket joins the port, which gets an accept entry for each socket to come. -/
def postAccepts (w : World) : World :=
  { w with
    sys.accepts := w.sys.accepts ++ [(w.server.m_hCompletionPort, w.server.m_dwAcceptSocketCount)] }

/-- `CTcpServer::Start` from `m_dwWorkerCount` on. -/
def startThreads (env : StartEnv) (w : World) : Bool × World :=
  let w := { w with server.m_dwWorkerCount := env.dwNumberOfProcessors * 2 + 2 }
  let created := createThreads env w.server.m_dwWorkerCount.toNat 0 w
  if created.1 then
    let w := if env.associate then postAccepts created.2 else created.2
    (true, { w with server.m_bRuning := true })
  else created

/-- `CTcpServer::Start`. -/
def start (env : StartEnv) (w : World) : Bool × World :=
  if w.server.m_bRuning then (true, w)
  else
    let w := { w with server.m_pRecevier := env.pReciver }
    if env.wsaStartup then
      let w := { w with sys.wsaStarts := w.sys.wsaStarts + 1 }
      if env.wsaSocket then
        let w := openListen w
        if env.bind then
          if env.listen then
            let w := getExtensions env w
            if env.createPort then startThreads env (openPort w)
            else (false, closeListen { w with server.m_hCompletionPort := none })
          else (false, closeListen w)
        else (false, closeListen w)
      else (false, { w with server.m_sockListen := none })
    else (false, { w with sys.wsaStarts := w.sys.wsaStarts - 1 })

/-! ## 3. `CTcpServer::Stop` -/

/-- `CTcpServer::Stop`.  It does not return when the connections are not gone in time, since the
loop over them does not advance, nor when a thread of the vector takes its entries from another port
than the one the exit entries are posted to. -/
def stop (clientsGone : Bool) (w : World) : Option (Bool × World) :=
  if w.server.m_bRuning then
    let w := closeListen w
    if clientsGone ∧ ∀ h ∈ w.server.m_vecWorkThread, (h, w.server.m_hCompletionPort) ∈ w.sys.threads
    then
      some (true, {
        server := { w.server with
          m_bRuning := false
          m_sockListen := none
          m_hCompletionPort := none
          m_vecWorkThread := []
          m_dwConnID := 0
          m_pfnAcceptEx := 0
          m_pfnGetAcceptExSockaddrs := 0
          m_pfnDisconnectEx := 0 }
        sys := { w.sys with
          ports := w.sys.ports.filter fun port => some port ≠ w.server.m_hCompletionPort
          threads := w.sys.threads.filter fun t => t.1 ∉ w.server.m_vecWorkThread } })
    else none
  else some (true, w)

inductive Call where
  | start (env : StartEnv)
  | stop (clientsGone : Bool)

/-- A call and its result. -/
def answer (w : World) : Call → Option (Bool × World)
  | .start env => some (start env w)
  | .stop clientsGone => stop clientsGone w

def step (w : World) (c : Call) : Option World := (answer w c).map Prod.snd

/-- What calls one after another return and leave in the system; none when one does not return. -/
def answers : World → List Call → Option (List (Bool × Sys))
  | _, [] => some []
  | w, c :: cs =>
    (answer w c).bind fun r => (answers r.2 cs).map ((r.1, r.2.sys) :: ·)

/-! ## 4. What a failed start must leave -/

/-- The world after a call of `Start` that returned `FALSE` is the one before it: nothing is open
that was not, and later calls find a server like a new one. -/
structure AsBefore (before after : World) : Prop where
  sockets : after.sys.sockets = before.sys.sockets
  ports : after.sys.ports = before.sys.ports
  threads : after.sys.threads = before.sys.threads
  m_vecWorkThread : after.server.m_vecWorkThread = before.server.m_vecWorkThread
  later : ∀ m_sockListen calls,
    answers after calls = answers ⟨newServer m_sockListen, after.sys⟩ calls

/-- `Start` gets to the worker threads, and the creation of one of them fails. -/
def WorkerFails (env : StartEnv) (w : World) : Prop :=
  w.server.m_bRuning = false ∧ env.wsaStartup = true ∧ env.wsaSocket = true ∧ env.bind = true ∧
    env.listen = true ∧ env.createPort = true ∧
      ∃ i < (env.dwNumberOfProcessors * 2 + 2).toNat, env.beginThread i = false

/-- A call that is not a start failing at a worker thread. -/
def Call.Clean (w : World) : Call → Prop
  | .start env => ¬ WorkerFails env w
  | .stop _ => True

/-! ## 5. Servers that later calls cannot tell apart -/

/-- A server that does not run is given its other fields by the next start. -/
structure Same (s t : Server) : Prop where
  m_bRuning : s.m_bRuning = t.m_bRuning
  m_vecWorkThread : s.m_vecWorkThread = t.m_vecWorkThread
  m_dwAcceptSocketCount : s.m_dwAcceptSocketCount = t.m_dwAcceptSocketCount
  m_dwConnID : s.m_dwConnID = t.m_dwConnID
  running : s.m_bRuning = true → s = t

theorem same_refl (s : Server) : Same s s := ⟨rfl, rfl, rfl, rfl, fun _ => rfl⟩

/-- Two results that agree but for fields that do not matter. -/
def SameAnswer (r r' : Bool × World) : Prop :=
  r.1 = r'.1 ∧ r.2.sys = r'.2.sys ∧ Same r.2.server r'.2.server

theorem sameAnswer_refl (r : Bool × World) : SameAnswer r r := ⟨rfl, rfl, same_refl _⟩

theorem start_same (env : StartEnv) {s t : Server} (h : Same s t) (sys : Sys) :
    SameAnswer (start env ⟨s, sys⟩) (start env ⟨t, sys⟩) := by
  by_cases hrun : s.m_bRuning = true
  · rw [h.running hrun]
    exact sameAnswer_refl _
  · obtain ⟨_, _, _, _, _, _, _, _, _, _, _⟩ := s
    obtain ⟨_, _, _, _, _, _, _, _, _, _, _⟩ := t
    obtain ⟨rfl, rfl, rfl, rfl, _⟩ := h
    have hidle := Bool.eq_false_iff.mpr hrun
    cases hidle
    unfold start
    cases env.wsaStartup with
    | false => exact ⟨rfl, rfl, rfl, rfl, rfl, rfl, nofun⟩
    | true =>
      cases env.wsaSocket with
      | false => exact ⟨rfl, rfl, rfl, rfl, rfl, rfl, nofun⟩
      | true =>
        cases env.bind with
        | false => exact ⟨rfl, rfl, rfl, rfl, rfl, rfl, nofun⟩
        | true =>
          cases env.listen with
          | false => exact ⟨rfl, rfl, rfl, rfl, rfl, rfl, nofun⟩
          | true =>
            cases env.createPort with
            | false => exact ⟨rfl, rfl, rfl, rfl, rfl, rfl, nofun⟩
            | true => exact sameAnswer_refl _

theorem answers_same {s t : Server} (h : Same s t) (sys : Sys) (calls : List Call) :
    answers ⟨s, sys⟩ calls = answers ⟨t, sys⟩ calls := by
  induction calls generalizing s t sys with
  | nil => rfl
  | cons c cs ih =>
    cases c with
    | start env =>
      have ⟨hret, hsys, hserver⟩ := start_same env h sys
      have hrest := ih hserver (start env ⟨s, sys⟩).2.sys
      simp only [answers, answer, Option.bind_some]
      rw [← hret, ← hsys]
      exact congrArg _ (hrest.trans (by rw [hsys]))
    | stop clientsGone =>
      by_cases hrun : s.m_bRuning = true
      · rw [h.running hrun]
      · have hrun' : ¬ t.m_bRuning = true := h.m_bRuning ▸ hrun
        simp only [answers, answer, stop, if_neg hrun, if_neg hrun', Option.bind_some]
        rw [ih h sys]

/-! ## 6. The threads -/

theorem addThread_iterate (n : Nat) (w : World) :
    (addThread^[n] w).server = { w.server with
      m_vecWorkThread := w.server.m_vecWorkThread ++ List.range' w.sys.next n } ∧
    (addThread^[n] w).sys = { w.sys with
      threads := w.sys.threads ++
        (List.range' w.sys.next n).map fun h => (h, w.server.m_hCompletionPort)
      next := w.sys.next + n } := by
  induction n generalizing w with
  | zero =>
    simp only [Function.iterate_zero, id, List.range'_zero, List.append_nil, List.map_nil,
      Nat.add_zero, and_self]
  | succ n ih =>
    have ⟨hserver, hsys⟩ := ih (addThread w)
    rw [Function.iterate_succ_apply, hserver, hsys]
    simp only [addThread, List.range'_succ, List.append_assoc, List.singleton_append,
      List.map_cons, Nat.add_assoc, Nat.add_comm 1 n, and_self]

theorem createThreads_all {env : StartEnv} {count i : Nat}
    (h : ∀ j < count, env.beginThread (i + j) = true) (w : World) :
    createThreads env count i w = (true, addThread^[count] w) := by
  induction count generalizing i w with
  | zero => rfl
  | succ count ih =>
    have hrest (j : Nat) (hj : j < count) : env.beginThread (i + 1 + j) = true := by
      rw [Nat.add_assoc, Nat.add_comm 1 j]
      exact h (j + 1) (by omega)
    have hfirst : env.beginThread i = true := h 0 (by omega)
    rw [createThreads, if_pos hfirst, ih hrest, Function.iterate_succ_apply]

/-- A thread that cannot be created ends the loop, whatever was created before it. -/
theorem createThreads_fails {env : StartEnv} {count i : Nat}
    (h : ∃ j < count, env.beginThread (i + j) = false) (w : World) :
    (createThreads env count i w).1 = false := by
  induction count generalizing i w with
  | zero =>
    have ⟨j, hj, _⟩ := h
    exact absurd hj (Nat.not_lt_zero j)
  | succ count ih =>
    by_cases hfirst : env.beginThread i = true
    · rw [createThreads, if_pos hfirst]
      apply ih
      have ⟨j, hj, hfalse⟩ := h
      cases j with
      | zero => exact absurd hfirst (by rw [Nat.add_zero] at hfalse; rw [hfalse]; decide)
      | succ j => exact ⟨j, by omega, by rw [← hfalse, Nat.add_assoc, Nat.add_comm 1 j]⟩
    · rw [createThreads, if_neg hfirst]

theorem createThreads_ports (env : StartEnv) (count i : Nat) (w : World) :
    (createThreads env count i w).2.sys.ports = w.sys.ports := by
  induction count generalizing i w with
  | zero => rfl
  | succ count ih =>
    rw [createThreads]
    split
    · rw [ih]
      rfl
    · rfl

/-! ## 7. One call of `Start` -/

/-- All calls before the first thread succeed. -/
def GetsToThreads (env : StartEnv) : Prop :=
  env.wsaStartup = true ∧ env.wsaSocket = true ∧ env.bind = true ∧ env.listen = true ∧
    env.createPort = true

/-- The world in which the threads are created. -/
def readyForThreads (env : StartEnv) (w : World) : World :=
  openPort (getExtensions env (openListen
    { server := { w.server with m_pRecevier := env.pReciver }
      sys := { w.sys with wsaStarts := w.sys.wsaStarts + 1 } }))

/-- Nothing is open that was not, and the server does not run. -/
structure GivesBack (w w' : World) : Prop where
  sockets : w'.sys.sockets = w.sys.sockets
  ports : w'.sys.ports = w.sys.ports
  threads : w'.sys.threads = w.sys.threads
  m_bRuning : w'.server.m_bRuning = false
  m_vecWorkThread : w'.server.m_vecWorkThread = w.server.m_vecWorkThread
  m_dwAcceptSocketCount : w'.server.m_dwAcceptSocketCount = w.server.m_dwAcceptSocketCount
  m_dwConnID : w'.server.m_dwConnID = w.server.m_dwConnID

variable {env : StartEnv} {w w' : World}

theorem start_gives_back (hrun : w.server.m_bRuning = false) (h : ¬ GetsToThreads env) :
    (start env w).1 = false ∧ GivesBack w (start env w).2 := by
  have hfalse : ¬ w.server.m_bRuning = true := by rw [hrun]; decide
  have hclose (l : List Handle) (n : Handle) : (n :: l).erase n = l := List.erase_cons_head ..
  unfold GetsToThreads at h
  unfold start
  rw [if_neg hfalse]
  cases hwsa : env.wsaStartup with
  | false => exact ⟨rfl, rfl, rfl, rfl, hrun, rfl, rfl, rfl⟩
  | true =>
    cases hsocket : env.wsaSocket with
    | false => exact ⟨rfl, rfl, rfl, rfl, hrun, rfl, rfl, rfl⟩
    | true =>
      cases hbind : env.bind with
      | false => exact ⟨rfl, hclose _ _, rfl, rfl, hrun, rfl, rfl, rfl⟩
      | true =>
        cases hlisten : env.listen with
        | false => exact ⟨rfl, hclose _ _, rfl, rfl, hrun, rfl, rfl, rfl⟩
        | true =>
          cases hport : env.createPort with
          | false => exact ⟨rfl, hclose _ _, rfl, rfl, hrun, rfl, rfl, rfl⟩
          | true => exact absurd ⟨hwsa, hsocket, hbind, hlisten, hport⟩ h

theorem start_late (hrun : w.server.m_bRuning = false) (h : GetsToThreads env) :
    start env w = startThreads env (readyForThreads env w) := by
  have hfalse : ¬ w.server.m_bRuning = true := by rw [hrun]; decide
  have ⟨hwsa, hsocket, hbind, hlisten, hport⟩ := h
  unfold start
  rw [if_neg hfalse]
  simp only [hwsa, hsocket, hbind, hlisten, hport, if_true]
  rfl

theorem startThreads_fails
    (h : ∃ i < (env.dwNumberOfProcessors * 2 + 2).toNat, env.beginThread i = false) (w : World) :
    (startThreads env w).1 = false ∧ (startThreads env w).2.sys.ports = w.sys.ports := by
  have ⟨i, hi, hfalse⟩ := h
  have hcreated := createThreads_fails (i := 0) ⟨i, hi, by rw [Nat.zero_add]; exact hfalse⟩
    { w with server.m_dwWorkerCount := env.dwNumberOfProcessors * 2 + 2 }
  unfold startThreads
  simp only [hcreated]
  exact ⟨hcreated, createThreads_ports ..⟩

theorem startThreads_all
    (h : ∀ i < (env.dwNumberOfProcessors * 2 + 2).toNat, env.beginThread i = true) (w : World) :
    (startThreads env w).1 = true ∧
      (startThreads env w).2.server.m_bRuning = true ∧
      (startThreads env w).2.server.m_hCompletionPort = w.server.m_hCompletionPort ∧
      (startThreads env w).2.server.m_dwAcceptSocketCount = w.server.m_dwAcceptSocketCount ∧
      (startThreads env w).2.server.m_vecWorkThread = w.server.m_vecWorkThread ++
        List.range' w.sys.next (env.dwNumberOfProcessors * 2 + 2).toNat ∧
      (startThreads env w).2.sys.threads = w.sys.threads ++
        (List.range' w.sys.next (env.dwNumberOfProcessors * 2 + 2).toNat).map
          fun h => (h, w.server.m_hCompletionPort) := by
  have hcreated := createThreads_all (i := 0) (fun j hj => by rw [Nat.zero_add]; exact h j hj)
    { w with server.m_dwWorkerCount := env.dwNumberOfProcessors * 2 + 2 }
  have ⟨hserver, hsys⟩ := addThread_iterate (env.dwNumberOfProcessors * 2 + 2).toNat
    { w with server.m_dwWorkerCount := env.dwNumberOfProcessors * 2 + 2 }
  unfold startThreads
  simp only [hcreated, if_true]
  cases env.associate with
  | false =>
    simp only [Bool.false_eq_true, if_false, hserver, hsys, and_self]
  | true =>
    simp only [if_true, postAccepts, hserver, hsys, and_self]

/-! ## 8. Every server of a run -/

/-- A server that does not run holds no thread; one that runs holds handles of different threads,
and all of them take their entries from its port. -/
structure Ready (w : World) : Prop where
  m_dwAcceptSocketCount : w.server.m_dwAcceptSocketCount = 256
  idle : w.server.m_bRuning = false → w.server.m_vecWorkThread = [] ∧ w.server.m_dwConnID = 0
  nodup : w.server.m_vecWorkThread.Nodup
  count_lt : w.server.m_vecWorkThread.length < 2 ^ 32
  serves : ∀ h ∈ w.server.m_vecWorkThread, (h, w.server.m_hCompletionPort) ∈ w.sys.threads

theorem ready_idle (hcount : w.server.m_dwAcceptSocketCount = 256)
    (hvec : w.server.m_vecWorkThread = []) (hid : w.server.m_dwConnID = 0) : Ready w where
  m_dwAcceptSocketCount := hcount
  idle _ := ⟨hvec, hid⟩
  nodup := by rw [hvec]; exact List.nodup_nil
  count_lt := by rw [hvec]; decide
  serves := by
    intro h hh
    rw [hvec] at hh
    cases hh

theorem all_begin (hclean : ¬ WorkerFails env w) (hrun : w.server.m_bRuning = false)
    (hthreads : GetsToThreads env) :
    ∀ i < (env.dwNumberOfProcessors * 2 + 2).toNat, env.beginThread i = true := by
  intro i hi
  by_contra hbegin
  have ⟨hwsa, hsocket, hbind, hlisten, hport⟩ := hthreads
  exact hclean ⟨hrun, hwsa, hsocket, hbind, hlisten, hport, i, hi, Bool.eq_false_iff.mpr hbegin⟩

theorem ready_start (hr : Ready w) (hclean : ¬ WorkerFails env w) : Ready (start env w).2 := by
  by_cases hrun : w.server.m_bRuning = true
  · rw [start, if_pos hrun]
    exact hr
  · have hfalse := Bool.eq_false_iff.mpr hrun
    have ⟨hvec, hid⟩ := hr.idle hfalse
    by_cases hthreads : GetsToThreads env
    · have hall := all_begin hclean hfalse hthreads
      have ⟨_, hruns, hport, hcount, hnew, hsys⟩ := startThreads_all hall (readyForThreads env w)
      have hempty : (readyForThreads env w).server.m_vecWorkThread = [] := hvec
      rw [hempty, List.nil_append] at hnew
      rw [start_late hfalse hthreads]
      constructor
      · rw [hcount]
        exact hr.m_dwAcceptSocketCount
      · intro hidle
        rw [hruns] at hidle
        cases hidle
      · rw [hnew]
        exact List.nodup_range'
      · rw [hnew, List.length_range']
        exact (env.dwNumberOfProcessors * 2 + 2).toNat_lt
      · intro h hh
        rw [hnew] at hh
        rw [hsys, hport]
        exact List.mem_append_right _ (List.mem_map_of_mem hh)
    · have ⟨_, hback⟩ := start_gives_back hfalse hthreads
      exact ready_idle (hback.m_dwAcceptSocketCount.trans hr.m_dwAcceptSocketCount)
        (hback.m_vecWorkThread.trans hvec) (hback.m_dwConnID.trans hid)

theorem ready_stop {clientsGone : Bool} {r : Bool × World} (hr : Ready w)
    (h : stop clientsGone w = some r) : Ready r.2 := by
  unfold stop at h
  split at h
  · simp only at h
    split at h
    · cases h
      apply ready_idle _ rfl rfl
      have hcount := hr.m_dwAcceptSocketCount
      unfold closeListen
      split
      · exact hcount
      · exact hcount
    · cases h
  · cases h
    exact hr

theorem ready_step {c : Call} (hr : Ready w) (hclean : c.Clean w) (h : step w c = some w') :
    Ready w' := by
  have ⟨r, hanswer, hw⟩ := Option.map_eq_some_iff.mp h
  cases c with
  | start env =>
    cases hanswer
    exact hw ▸ ready_start hr hclean
  | stop clientsGone => exact hw ▸ ready_stop hr hanswer

theorem ready_run {m_sockListen : Option Handle} {sys : Sys} {calls : List Call}
    (hclean : RunMeets step Call.Clean ⟨newServer m_sockListen, sys⟩ calls)
    (h : run step ⟨newServer m_sockListen, sys⟩ calls = some w) : Ready w :=
  run_invariant (fun _ _ _ hr hc hst => ready_step hr hc hst) (ready_idle rfl rfl rfl) hclean h

/-- With the connections gone, `Stop` returns on every server of such a run. -/
theorem stop_returns (hr : Ready w) : ∃ r, stop true w = some r := by
  have hlisten : (closeListen w).server = w.server ∧
      (closeListen w).sys.threads = w.sys.threads := by
    unfold closeListen
    split
    · exact ⟨rfl, rfl⟩
    · exact ⟨rfl, rfl⟩
  unfold stop
  split
  · simp only
    rw [hlisten.1, hlisten.2, if_pos ⟨trivial, hr.serves⟩]
    exact ⟨_, rfl⟩
  · exact ⟨_, rfl⟩

theorem asBefore_of_givesBack (hr : Ready w) (hrun : w.server.m_bRuning = false)
    (h : GivesBack w w') : AsBefore w w' where
  sockets := h.sockets
  ports := h.ports
  threads := h.threads
  m_vecWorkThread := h.m_vecWorkThread
  later := by
    intro m_sockListen calls
    have ⟨hvec, hid⟩ := hr.idle hrun
    have hsame : Same w'.server (newServer m_sockListen) :=
      ⟨h.m_bRuning, h.m_vecWorkThread.trans hvec,
        h.m_dwAcceptSocketCount.trans hr.m_dwAcceptSocketCount, h.m_dwConnID.trans hid,
        fun hruns => absurd hruns (by rw [h.m_bRuning]; decide)⟩
    exact answers_same hsame w'.sys calls

/-- In a run in which no start has failed at a worker thread, a start that fails leaves the server
as it was exactly if it does not fail there either. -/
theorem start_as_before_iff {m_sockListen : Option Handle} {sys : Sys} {calls : List Call}
    (hclean : RunMeets step Call.Clean ⟨newServer m_sockListen, sys⟩ calls)
    (h : run step ⟨newServer m_sockListen, sys⟩ calls = some w) (env : StartEnv) :
    ((start env w).1 = false → AsBefore w (start env w).2) ↔ ¬ WorkerFails env w := by
  have hr := ready_run hclean h
  constructor
  · intro hbefore hfails
    have ⟨hrun, hwsa, hsocket, hbind, hlisten, hport, hthread⟩ := hfails
    have hlate := start_late hrun ⟨hwsa, hsocket, hbind, hlisten, hport⟩
    have ⟨hret, hports⟩ := startThreads_fails hthread (readyForThreads env w)
    rw [hlate] at hbefore
    -- the completion port stays open
    have hopen := congrArg List.length ((hbefore hret).ports.symm.trans hports)
    change w.sys.ports.length = w.sys.ports.length + 1 at hopen
    omega
  · intro hclean' hret
    by_cases hrun : w.server.m_bRuning = true
    · rw [start, if_pos hrun] at hret
      cases hret
    · have hfalse := Bool.eq_false_iff.mpr hrun
      by_cases hthreads : GetsToThreads env
      · have hall := all_begin hclean' hfalse hthreads
        rw [start_late hfalse hthreads, (startThreads_all hall _).1] at hret
        cases hret
      · exact asBefore_of_givesBack hr hfalse (start_gives_back hfalse hthreads).2

/-- A system in which everything succeeds, with one processor. -/
def goodEnv : StartEnv where
  pReciver := 16
  wsaStartup := true
  wsaSocket := true
  bind := true
  listen := true
  pfnAcceptEx := 32
  pfnGetAcceptExSockaddrs := 48
  pfnDisconnectEx := 64
  createPort := true
  dwNumberOfProcessors := 1
  beginThread _ := true
  associate := true

theorem start_as_before_bind :
    ((start { goodEnv with bind := false } ⟨newServer none, {}⟩).1 = false →
      AsBefore ⟨newServer none, {}⟩ (start { goodEnv with bind := false } ⟨newServer none, {}⟩).2) ↔
      ¬ WorkerFails { goodEnv with bind := false } ⟨newServer none, {}⟩ :=
  have hclean : RunMeets step Call.Clean ⟨newServer none, {}⟩ [] := trivial
  start_as_before_iff hclean rfl _

/-- The third of four threads cannot be created: the socket, the port and two threads stay, and a
later start and stop do not return. -/
theorem third_thread_fails :
    let before : World := ⟨newServer none, {}⟩
    let result := start { goodEnv with beginThread := fun i => i < 2 } before
    result.1 = false ∧ result.2.sys.sockets = [1] ∧ result.2.sys.ports = [2] ∧
      result.2.sys.threads = [(3, some 2), (4, some 2)] ∧
      result.2.server.m_vecWorkThread = [3, 4] ∧
      answers result.2 [.start goodEnv, .stop true] = none ∧
      ¬ AsBefore before result.2 := by
  apply And.intro rfl
  apply And.intro rfl
  apply And.intro rfl
  apply And.intro rfl
  apply And.intro rfl
  apply And.intro (by decide)
  intro h
  cases h.ports

end VerifyServer.Socket.Startup
