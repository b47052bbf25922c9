import VerifyServer.Reasoning.Run
import VerifyServer.Socket.SaveData

/-!
# TcpServer — the completion queue, the worker threads and the two pools

A label is one atomic step: a critical section, a queue operation, a call of the system, or an access
to a `SOCKET_CONTEXT` outside any lock.  The system chooses handles, addresses, results and the time
of a completion.

A `SOCKET_CONTEXT` is reached through several pointers and lives on a heap; a deleted one must not be
touched.  An `IO_CONTEXT` is always in one place only: in the free list, with the code that took it
from there, or with the operation it was posted with; the model hands on the context itself.

A connection is a socket of the system, counted in order of creation.  The code does not see this
number.  It tells two connections apart that had the same handle, context or id one after the other.
-/

open VerifyServer.Reasoning

namespace VerifyServer.Socket

/-! ## 1. Data -/

abbrev Conn := Nat

/-- The address of a `SOCKET_CONTEXT`. -/
abbrev Addr := Nat

structure SocketContext where
  connID : UInt32 := 0
  sock : Sock := invalidSocket
  deriving DecidableEq, Repr

/-- An overlapped operation: its context, and the connection whose socket it was posted on.  That of
an `AcceptEx` is the socket it accepts into. -/
structure Operation where
  pIo : IoContext
  conn : Conn
  deriving DecidableEq, Repr

/-- An entry of `m_mpClientSocket`, with the connection `AddClientSocket` was called for. -/
structure Client where
  pSock : Addr
  conn : Conn
  deriving DecidableEq, Repr

/-- What is in the completion queue. -/
inductive Entry where
  -- `IOCP_SI_ACCEPT`
  | accept
  -- `IOCP_SI_DISCONNECT`
  | disconnect (dwConnID : UInt32)
  | completion (pSock : Addr) (op : Operation) (result : Bool) (dwBytes : Nat)
  deriving DecidableEq, Repr

/-- The program points of `WorkerThreadProc` and of what it calls, named after the step to come. -/
inductive Worker where
  -- `GetQueuedCompletionStatus`
  | dequeue
  -- an accept is to be posted: `WSASocket`, `GetFreeIOContext`, `PostAccept`
  | openSocket
  | noSocket
  | getIo (sockClient : Sock) (conn : Conn)
  | postAccept (sockClient : Sock) (op : Operation)
  | closeClient (sockClient : Sock) (op : Operation)
  -- `FindSocketContext` for `IOCP_SI_DISCONNECT`
  | findDisconnect (dwConnID : UInt32)
  -- a completion: `pSock->connID` is read, then the result examined
  | readId (pSock : Addr) (op : Operation) (result : Bool) (dwBytes : Nat)
  | examine (pSock : Addr) (connID : UInt32) (op : Operation) (result : Bool) (dwBytes : Nat)
  -- a failed accept: `ManualCloseSocket`, then `PostQueuedCompletionStatus`
  | closeAccept (op : Operation)
  | postAgain (pIo : IoContext)
  -- `ProcessAccept`
  | postNext (op : Operation)
  | increment (op : Operation) (again : Bool)
  | getSocket (op : Operation) (connID : UInt32)
  | fillSocket (op : Operation) (connID : UInt32) (pSock : Addr)
  | addClient (op : Operation) (connID : UInt32) (pSock : Addr)
  | associate (op : Operation) (connID : UInt32) (pSock : Addr)
  | firstReceive (op : Operation)
  -- `ProcessReceive`
  | saveData (pSock : Addr) (connID : UInt32) (op : Operation) (dwBytes : Nat)
  | nextReceive (connID : UInt32) (op : Operation)
  -- `AddFreeSocketContext`: `FindSocketContext`, the section on `m_csMapSocket`, that on `m_csFreeOl`;
  -- called for an operation of a connection, or for a request to disconnect
  | find (cause : Option Conn) (dwConnID : UInt32) (pIo : Option IoContext)
  | close (cause : Option Conn) (dwConnID : UInt32) (pSock : Addr) (pIo : Option IoContext)
  | pool (cause : Option Conn) (pSock : Addr) (pIo : Option IoContext)
  -- `AddFreeIOContext`
  | addIo (pIo : IoContext)
  deriving DecidableEq, Repr

/-- A call of `_send`.  With at most `MAX_BUFFER` bytes its loop makes one round; with more the first
`memcpy` runs over `szBuf` and into the fields behind it. -/
inductive Sender where
  | find (nID : UInt32) (pBuf : List UInt8)
  | getIo (pSock : Addr) (pBuf : List UInt8)
  | readSocket (pSock : Addr) (pIo : IoContext)
  | postSend (pIo : IoContext)
  | addIo (pIo : IoContext)
  | done
  deriving DecidableEq, Repr

/-- How far `ProcessAccept` has come with a connection. -/
inductive Stage where
  | opened
  | named (connID : UInt32)
  | given (connID : UInt32) (pSock : Addr)
  | filled (connID : UInt32) (pSock : Addr)
  | listed (connID : UInt32) (pSock : Addr)
  deriving DecidableEq, Repr

def Stage.connID? : Stage → Option UInt32
  | .opened => none
  | .named connID | .given connID _ | .filled connID _ | .listed connID _ => some connID

def Stage.pSock? : Stage → Option Addr
  | .opened | .named _ => none
  | .given _ pSock | .filled _ pSock | .listed _ pSock => some pSock

/-- One pass of `AddFreeSocketContext` through the section on `m_csMapSocket`: what it was called
for, the connection whose socket it closed, and the connection it removed from the map. -/
structure Closing where
  cause : Option Conn
  closed : Option Conn
  removed : Option Conn
  deriving DecidableEq, Repr

/-- One call of `Recevie`: the connection whose bytes it hands over, and the connection its id was
last given to. -/
structure Delivery where
  conn : Conn
  rev : Rev
  addressee : Option Conn
  deriving DecidableEq, Repr

inductive Crash where
  -- a deleted `SOCKET_CONTEXT` is used, for an operation of a connection or for something else
  | deleted (cause : Option Conn)
  -- `SaveData` has left the defined behaviour
  | saveData (conn : Conn) (fault : Fault)
  -- `_send` has written over the end of a context's `szBuf`
  | overrun
  deriving DecidableEq, Repr

structure Server where
  -- the heap of `SOCKET_CONTEXT`s; `none` where there is none
  context : Addr → Option SocketContext := fun _ => none
  m_lsFreeSocketContext : List Addr := []
  m_lsFreeIOContext : List IoContext := []
  m_mpClientSocket : UInt32 → Option Client := fun _ => none
  m_dwConnID : UInt32 := 0
  -- the system: open handles, completion keys, operations under way, the completion queue
  handles : Sock → Option Conn := fun _ => none
  key : Conn → Option Addr := fun _ => none
  posted : List Operation := []
  queue : List Entry := []
  workers : List Worker := []
  senders : List Sender := []
  -- calls of `Disconnect` that have found their id
  callers : List UInt32 := []
  -- what the code does not see
  count : Conn := 0
  sockOf : Conn → Sock := fun _ => invalidSocket
  stage : Conn → Stage := fun _ => .opened
  holder : UInt32 → Option Conn := fun _ => none
  chunks : Conn → List (List UInt8) := fun _ => []
  closings : List Closing := []
  deliveries : List Delivery := []
  crashed : Option Crash := none

/-- The server after `Start`: `n` workers, and the `m` requests for an accept that `Start` has
queued. -/
def started (n m : Nat) : Server where
  workers := List.replicate n .dequeue
  queue := List.replicate m .accept

/-- How many `Start` queues: none when the listening socket cannot be associated with the port, and
`Start` returns `TRUE` all the same. -/
def requestsQueued (associate : Bool) (m_dwAcceptSocketCount : Nat) : Nat :=
  if associate then m_dwAcceptSocketCount else 0

/-! ## 2. The two pools -/

def freeSocketPool : Nat := 150
def freeSocketHold : Nat := 450
def freeIOPool : Nat := 300
def freeIOHold : Nat := 900

/-- `AddFreeIOContext(pIO)`. -/
def addFreeIOContext (free : List IoContext) (pIo : IoContext) : List IoContext :=
  let free := free ++ [pIo]
  if freeIOHold < free.length then free.drop (free.length - freeIOPool) else free

/-- The context `GetFreeIOContext` returns and the list it leaves. -/
def getFreeIOContext : List IoContext → IoContext × List IoContext
  | [] => ({}, [])
  | pIo :: free => (pIo, free)

/-- The `SOCKET_CONTEXT`s `AddFreeSocketContext` deletes when it has put one more into the list. -/
def purged (free : List Addr) : List Addr :=
  if freeSocketHold < free.length then free.take (free.length - freeSocketPool) else []

/-- The context `GetFreeSocketContext` returns, when `new` would return `fresh`. -/
def socketHandedOut (s : Server) (fresh : Addr) : Addr := s.m_lsFreeSocketContext.headD fresh

/-! ## 3. Steps -/

def errorIoPending : UInt32 := 997
def errorOperationAborted : UInt32 := 995
def wsaENotSock : UInt32 := 10038

/-- What the system answers in a step that asks it: the handle of a new socket, the address of a new
`SOCKET_CONTEXT`, whether the call succeeds, and the error code or the number of bytes. -/
structure Answer where
  handle : Sock := 0
  addr : Addr := 0
  success : Bool := true
  error : UInt32 := 0
  dwBytes : Nat := 0
  deriving DecidableEq, Repr

inductive Label where
  | worker (i : Nat) (a : Answer)
  | send (nID : UInt32) (pBuf : List UInt8)
  | sender (i : Nat) (a : Answer)
  -- `Disconnect(nID)` finds the id, and later posts its request
  | disconnect (nID : UInt32)
  | postDisconnect (i : Nat)
  -- an operation completes: `bytes` were received, or that many sent
  | complete (i : Nat) (result : Bool) (bytes : List UInt8)
  deriving DecidableEq, Repr

/-- What a worker does after `AddFreeSocketContext`. -/
def Worker.resume : Option IoContext → Worker
  | none => .dequeue
  | some pIo => .addIo pIo

/-- `PostReceive(pIO)` when the call succeeds: the operation is posted on the socket that has the
handle now. -/
def postReceive (s : Server) (op : Operation) : Option Server :=
  (s.handles op.pIo.sockAccept).map fun conn =>
    { s with posted := s.posted ++ [⟨{ op.pIo with so := .read }, conn⟩] }

/-- The entry a worker has taken out of the queue. -/
def Entry.dispatch : Entry → Worker
  | .accept => .openSocket
  | .disconnect dwConnID => .findDisconnect dwConnID
  | .completion pSock op result dwBytes => .readId pSock op result dwBytes

/-- `WorkerThreadProc` from the result of a completion to its `switch`, with the error code that
`WSAGetOverlappedResult` left, 0 for none. -/
def examine (pSock : Addr) (connID : UInt32) (op : Operation) (dwErrorCode : UInt32)
    (dwBytes : Nat) : Worker :=
  if dwErrorCode ≠ 0 then
    if dwErrorCode = errorIoPending then .dequeue
    else if op.pIo.so ≠ .accept then
      if dwErrorCode ≠ wsaENotSock ∧ dwErrorCode ≠ errorOperationAborted then
        .find (some op.conn) connID (some op.pIo)
      else .addIo op.pIo
    else .closeAccept op
  else if dwBytes = 0 ∧ op.pIo.so ≠ .accept then .find (some op.conn) connID (some op.pIo)
  else
    match op.pIo.so with
    | .accept => .postNext op
    | .read => .saveData pSock connID op dwBytes
    | .write => .addIo op.pIo
    | _ => .dequeue

variable (save : IoContext → List UInt8 → Saved)

/-- `SaveData` in `ProcessReceive`, and what becomes of the bytes. -/
def receive (s : Server) (connID : UInt32) (op : Operation) (dwBytes : Nat) (w : Worker) :
    Server × Worker :=
  let chunk := op.pIo.wsaBuf.take dwBytes
  let r := save op.pIo chunk
  let s := { s with
    chunks := Function.update s.chunks op.conn (s.chunks op.conn ++ [chunk])
    deliveries := s.deliveries ++ r.revs.map fun rev => ⟨op.conn, rev, s.holder rev.uSokcetID⟩ }
  match r.fault with
  | none => (s, .nextReceive connID ⟨r.ctx, op.conn⟩)
  | some fault => ({ s with crashed := some (.saveData op.conn fault) }, w)

/-- The step of a worker: the rest of the server, and where the worker is next. -/
def stepWorker (s : Server) (a : Answer) (w : Worker) : Option (Server × Worker) :=
  match w with
  | .dequeue =>
    match s.queue with
    | [] => none
    | e :: queue => some ({ s with queue := queue }, e.dispatch)
  | .openSocket =>
    if a.success then
      if a.handle ≠ invalidSocket ∧ s.handles a.handle = none then
        some ({ s with
          handles := Function.update s.handles a.handle (some s.count)
          sockOf := Function.update s.sockOf s.count a.handle
          count := s.count + 1 }, .getIo a.handle s.count)
      else none
    else some (s, .noSocket)
  | .noSocket =>
    -- `AcceptEx` fails on `INVALID_SOCKET`, and so does closing it
    let (pIo, free) := getFreeIOContext s.m_lsFreeIOContext
    some ({ s with m_lsFreeIOContext := free },
      .addIo { pIo with so := .accept, sockAccept := invalidSocket })
  | .getIo sockClient conn =>
    let (pIo, free) := getFreeIOContext s.m_lsFreeIOContext
    some ({ s with m_lsFreeIOContext := free }, .postAccept sockClient
      ⟨{ pIo with so := .accept, sockAccept := sockClient }, conn⟩)
  | .postAccept sockClient op =>
    if a.success then some ({ s with posted := s.posted ++ [op] }, .dequeue)
    else some (s, .closeClient sockClient op)
  | .closeClient sockClient op =>
    some ({ s with handles := Function.update s.handles sockClient none }, .addIo op.pIo)
  | .findDisconnect dwConnID =>
    match s.m_mpClientSocket dwConnID with
    | none => some (s, .dequeue)
    | some _ => some (s, .find none dwConnID none)
  | .readId pSock op result dwBytes =>
    if op.pIo.so = .accept then some (s, .examine pSock 0 op result dwBytes)
    else
      match s.context pSock with
      | none => some ({ s with crashed := some (.deleted (some op.conn)) }, w)
      | some context => some (s, .examine pSock context.connID op result dwBytes)
  | .examine pSock connID op result dwBytes =>
    if result then some (s, Socket.examine pSock connID op 0 dwBytes)
    -- `WSAGetOverlappedResult`
    else if a.success then some (s, Socket.examine pSock connID op 0 a.dwBytes)
    else some (s, Socket.examine pSock connID op a.error dwBytes)
  | .closeAccept op =>
    some ({ s with handles := Function.update s.handles op.pIo.sockAccept none },
      .postAgain op.pIo)
  | .postAgain pIo => some ({ s with queue := s.queue ++ [.accept] }, .addIo pIo)
  | .postNext op => some ({ s with queue := s.queue ++ [.accept] }, .increment op false)
  | .increment op again =>
    let connID := s.m_dwConnID + 1
    if connID = 0 ∧ again = false then some ({ s with m_dwConnID := connID }, .increment op true)
    else
      some ({ s with
        m_dwConnID := connID
        stage := Function.update s.stage op.conn (.named connID)
        holder := Function.update s.holder connID (some op.conn) }, .getSocket op connID)
  | .getSocket op connID =>
    let stage := Function.update s.stage op.conn (.given connID (socketHandedOut s a.addr))
    match s.m_lsFreeSocketContext with
    | pSock :: free =>
      some ({ s with m_lsFreeSocketContext := free, stage := stage }, .fillSocket op connID pSock)
    | [] =>
      -- `new SOCKET_CONTEXT`
      if s.context a.addr = none then
        some ({ s with context := Function.update s.context a.addr (some {}), stage := stage },
          .fillSocket op connID a.addr)
      else none
  | .fillSocket op connID pSock =>
    match s.context pSock with
    | none => some ({ s with crashed := some (.deleted none) }, w)
    | some _ =>
      some ({ s with
        context := Function.update s.context pSock (some ⟨connID, op.pIo.sockAccept⟩)
        stage := Function.update s.stage op.conn (.filled connID pSock) },
        .addClient op connID pSock)
  | .addClient op connID pSock =>
    some ({ s with
      m_mpClientSocket := Function.update s.m_mpClientSocket connID (some ⟨pSock, op.conn⟩)
      stage := Function.update s.stage op.conn (.listed connID pSock) }, .associate op connID pSock)
  | .associate op connID pSock =>
    if a.success then
      match s.handles op.pIo.sockAccept with
      | none => none
      | some conn =>
        if s.key conn = none then
          some ({ s with key := Function.update s.key conn (some pSock) }, .firstReceive op)
        else none
    else some (s, .find (some op.conn) connID (some op.pIo))
  | .firstReceive op =>
    if a.success then (postReceive s op).map fun s => (s, .dequeue)
    else some (s, .addIo op.pIo)
  | .saveData pSock connID op dwBytes =>
    match s.context pSock with
    | none => some ({ s with crashed := some (.deleted (some op.conn)) }, w)
    | some context =>
      some (receive save s connID { op with pIo.connID := context.connID } dwBytes w)
  | .nextReceive connID op =>
    if a.success then (postReceive s op).map fun s => (s, .dequeue)
    else some (s, .find (some op.conn) connID (some op.pIo))
  | .find cause dwConnID pIo =>
    match s.m_mpClientSocket dwConnID with
    | none => some (s, .resume pIo)
    | some client => some (s, .close cause dwConnID client.pSock pIo)
  | .close cause dwConnID pSock pIo =>
    match s.context pSock with
    | none => some ({ s with crashed := some (.deleted cause) }, w)
    | some context =>
      some ({ s with
        handles := Function.update s.handles context.sock none
        m_mpClientSocket := Function.update s.m_mpClientSocket dwConnID none
        closings := s.closings ++ [⟨cause, s.handles context.sock,
          (s.m_mpClientSocket dwConnID).map Client.conn⟩] }, .pool cause pSock pIo)
  | .pool _ pSock pIo =>
    let free := s.m_lsFreeSocketContext ++ [pSock]
    if (purged free).Nodup ∧ ∀ p ∈ purged free, s.context p ≠ none then
      some ({ s with
        context := fun p => if p ∈ purged free then none else s.context p
        m_lsFreeSocketContext := free.drop (purged free).length }, .resume pIo)
    else some ({ s with crashed := some (.deleted none) }, w)
  | .addIo pIo =>
    some ({ s with m_lsFreeIOContext := addFreeIOContext s.m_lsFreeIOContext pIo }, .dequeue)

def stepSender (s : Server) (a : Answer) : Sender → Option (Server × Sender)
  | .find nID pBuf =>
    match s.m_mpClientSocket nID with
    | none => some (s, .done)
    | some client => some (s, .getIo client.pSock pBuf)
  | .getIo pSock pBuf =>
    let (pIo, free) := getFreeIOContext s.m_lsFreeIOContext
    -- `memcpy(pIO->wsaBuf.buf, pBuf, nLen)`, all of the message
    if pBuf.length ≤ maxBuffer then
      some ({ s with m_lsFreeIOContext := free },
        .readSocket pSock { pIo with wsaBuf := pBuf, so := .write })
    else some ({ s with m_lsFreeIOContext := free, crashed := some .overrun }, .getIo pSock pBuf)
  | .readSocket pSock pIo =>
    match s.context pSock with
    | none => some ({ s with crashed := some (.deleted none) }, .readSocket pSock pIo)
    | some context => some (s, .postSend { pIo with sockAccept := context.sock })
  | .postSend pIo =>
    if a.success then
      (s.handles pIo.sockAccept).map fun conn =>
        ({ s with posted := s.posted ++ [⟨{ pIo with so := .write }, conn⟩] }, .done)
    else some (s, .addIo pIo)
  | .addIo pIo =>
    some ({ s with m_lsFreeIOContext := addFreeIOContext s.m_lsFreeIOContext pIo }, .done)
  | .done => none

/-- The entry of an operation that completes; the socket of an `AcceptEx` is the listening one, and
an operation on a socket without a completion key leaves no entry. -/
def completed? (s : Server) (op : Operation) (result : Bool) (bytes : List UInt8) :
    Option Entry :=
  if op.pIo.so = .accept then some (.completion 0 op result bytes.length)
  else (s.key op.conn).map fun pSock =>
    .completion pSock (if op.pIo.so = .read then { op with pIo.wsaBuf := bytes } else op) result
      bytes.length

/-- One step; there is none after a crash. -/
def step (s : Server) (l : Label) : Option Server :=
  if s.crashed ≠ none then none
  else
    match l with
    | .worker i a => do
      let w ← s.workers[i]?
      let (t, w) ← stepWorker save s a w
      some { t with workers := s.workers.set i w }
    | .send nID pBuf =>
      if pBuf ≠ [] then some { s with senders := s.senders ++ [.find nID pBuf] } else none
    | .sender i a => do
      let w ← s.senders[i]?
      let (t, w) ← stepSender s a w
      some { t with senders := s.senders.set i w }
    | .disconnect nID =>
      match s.m_mpClientSocket nID with
      | none => none
      | some _ => some { s with callers := s.callers ++ [nID] }
    | .postDisconnect i => do
      let nID ← s.callers[i]?
      some { s with callers := s.callers.eraseIdx i, queue := s.queue ++ [.disconnect nID] }
    | .complete i result bytes => do
      let op ← s.posted[i]?
      if bytes.length ≤ maxBuffer then
        some { s with
          posted := s.posted.eraseIdx i
          queue := s.queue ++ (completed? s op result bytes).toList }
      else none

end VerifyServer.Socket
