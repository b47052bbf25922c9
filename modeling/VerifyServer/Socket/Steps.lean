import VerifyServer.Socket.TcpServer

/-!
# Steps — what a step of the server can do

The inversion of `step`, one constructor for each branch.  The invariants of the later modules are
proved over these constructors and unfold no step function.
-/

namespace VerifyServer.Socket

/-! ## 1. The branches -/

/-- The error code a worker examines: `WSAGetOverlappedResult` is asked after a failure only. -/
def Answer.errorCode (a : Answer) (result : Bool) : UInt32 :=
  if result || a.success then 0 else a.error

/-- The number of bytes it goes by. -/
def Answer.transferred (a : Answer) (result : Bool) (dwBytes : Nat) : Nat :=
  if !result && a.success then a.dwBytes else dwBytes

variable (save : IoContext → List UInt8 → Saved)

inductive WorkerStep (s : Server) (a : Answer) : Worker → Server → Worker → Prop where
  | dequeue {e : Entry} {queue : List Entry} (hqueue : s.queue = e :: queue) :
    WorkerStep s a .dequeue { s with queue := queue } e.dispatch
  | openSocket (hok : a.success = true) (hvalid : a.handle ≠ invalidSocket)
      (hfree : s.handles a.handle = none) :
    WorkerStep s a .openSocket { s with
      handles := Function.update s.handles a.handle (some s.count)
      sockOf := Function.update s.sockOf s.count a.handle
      count := s.count + 1 } (.getIo a.handle s.count)
  | openFails (hfail : a.success = false) : WorkerStep s a .openSocket s .noSocket
  | noSocket :
    WorkerStep s a .noSocket
      { s with m_lsFreeIOContext := (getFreeIOContext s.m_lsFreeIOContext).2 }
      (.addIo { (getFreeIOContext s.m_lsFreeIOContext).1 with
        so := .accept, sockAccept := invalidSocket })
  | getIo {sockClient : Sock} {conn : Conn} :
    WorkerStep s a (.getIo sockClient conn)
      { s with m_lsFreeIOContext := (getFreeIOContext s.m_lsFreeIOContext).2 }
      (.postAccept sockClient ⟨{ (getFreeIOContext s.m_lsFreeIOContext).1 with
        so := .accept, sockAccept := sockClient }, conn⟩)
  | postAccept {sockClient : Sock} {op : Operation} (hok : a.success = true) :
    WorkerStep s a (.postAccept sockClient op) { s with posted := s.posted ++ [op] } .dequeue
  | acceptFails {sockClient : Sock} {op : Operation} (hfail : a.success = false) :
    WorkerStep s a (.postAccept sockClient op) s (.closeClient sockClient op)
  | closeClient {sockClient : Sock} {op : Operation} :
    WorkerStep s a (.closeClient sockClient op)
      { s with handles := Function.update s.handles sockClient none } (.addIo op.pIo)
  | disconnectUnknown {dwConnID : UInt32} (hnone : s.m_mpClientSocket dwConnID = none) :
    WorkerStep s a (.findDisconnect dwConnID) s .dequeue
  | findDisconnect {dwConnID : UInt32} {client : Client}
      (hclient : s.m_mpClientSocket dwConnID = some client) :
    WorkerStep s a (.findDisconnect dwConnID) s (.find none dwConnID none)
  | readAccept {pSock : Addr} {op : Operation} {result : Bool} {dwBytes : Nat}
      (hso : op.pIo.so = .accept) :
    WorkerStep s a (.readId pSock op result dwBytes) s (.examine pSock 0 op result dwBytes)
  | readId {pSock : Addr} {op : Operation} {result : Bool} {dwBytes : Nat}
      {context : SocketContext} (hso : op.pIo.so ≠ .accept)
      (hcontext : s.context pSock = some context) :
    WorkerStep s a (.readId pSock op result dwBytes) s
      (.examine pSock context.connID op result dwBytes)
  | readDeleted {pSock : Addr} {op : Operation} {result : Bool} {dwBytes : Nat}
      (hso : op.pIo.so ≠ .accept) (hcontext : s.context pSock = none) :
    WorkerStep s a (.readId pSock op result dwBytes)
      { s with crashed := some (.deleted (some op.conn)) } (.readId pSock op result dwBytes)
  | examine {pSock : Addr} {connID : UInt32} {op : Operation} {result : Bool} {dwBytes : Nat} :
    WorkerStep s a (.examine pSock connID op result dwBytes) s
      (Socket.examine pSock connID op (a.errorCode result) (a.transferred result dwBytes))
  | closeAccept {op : Operation} :
    WorkerStep s a (.closeAccept op)
      { s with handles := Function.update s.handles op.pIo.sockAccept none } (.postAgain op.pIo)
  | postAgain {pIo : IoContext} :
    WorkerStep s a (.postAgain pIo) { s with queue := s.queue ++ [.accept] } (.addIo pIo)
  | postNext {op : Operation} :
    WorkerStep s a (.postNext op) { s with queue := s.queue ++ [.accept] } (.increment op false)
  | incrementAgain {op : Operation} (hzero : s.m_dwConnID + 1 = 0) :
    WorkerStep s a (.increment op false) { s with m_dwConnID := s.m_dwConnID + 1 }
      (.increment op true)
  | increment {op : Operation} {again : Bool} (hid : ¬(s.m_dwConnID + 1 = 0 ∧ again = false)) :
    WorkerStep s a (.increment op again) { s with
      m_dwConnID := s.m_dwConnID + 1
      stage := Function.update s.stage op.conn (.named (s.m_dwConnID + 1))
      holder := Function.update s.holder (s.m_dwConnID + 1) (some op.conn) }
      (.getSocket op (s.m_dwConnID + 1))
  | getSocket {op : Operation} {connID : UInt32} {pSock : Addr} {free : List Addr}
      (hfree : s.m_lsFreeSocketContext = pSock :: free) :
    WorkerStep s a (.getSocket op connID) { s with
      m_lsFreeSocketContext := free
      stage := Function.update s.stage op.conn (.given connID pSock) }
      (.fillSocket op connID pSock)
  | newSocket {op : Operation} {connID : UInt32} (hempty : s.m_lsFreeSocketContext = [])
      (hnew : s.context a.addr = none) :
    WorkerStep s a (.getSocket op connID) { s with
      context := Function.update s.context a.addr (some {})
      stage := Function.update s.stage op.conn (.given connID a.addr) }
      (.fillSocket op connID a.addr)
  | fillDeleted {op : Operation} {connID : UInt32} {pSock : Addr}
      (hcontext : s.context pSock = none) :
    WorkerStep s a (.fillSocket op connID pSock) { s with crashed := some (.deleted none) }
      (.fillSocket op connID pSock)
  | fillSocket {op : Operation} {connID : UInt32} {pSock : Addr} {context : SocketContext}
      (hcontext : s.context pSock = some context) :
    WorkerStep s a (.fillSocket op connID pSock) { s with
      context := Function.update s.context pSock (some ⟨connID, op.pIo.sockAccept⟩)
      stage := Function.update s.stage op.conn (.filled connID pSock) } (.addClient op connID pSock)
  | addClient {op : Operation} {connID : UInt32} {pSock : Addr} :
    WorkerStep s a (.addClient op connID pSock) { s with
      m_mpClientSocket := Function.update s.m_mpClientSocket connID (some ⟨pSock, op.conn⟩)
      stage := Function.update s.stage op.conn (.listed connID pSock) } (.associate op connID pSock)
  | associate {op : Operation} {connID : UInt32} {pSock : Addr} {conn : Conn}
      (hok : a.success = true) (hopen : s.handles op.pIo.sockAccept = some conn)
      (hkey : s.key conn = none) :
    WorkerStep s a (.associate op connID pSock)
      { s with key := Function.update s.key conn (some pSock) } (.firstReceive op)
  | associateFails {op : Operation} {connID : UInt32} {pSock : Addr} (hfail : a.success = false) :
    WorkerStep s a (.associate op connID pSock) s (.find (some op.conn) connID (some op.pIo))
  | firstReceive {op : Operation} {conn : Conn} (hok : a.success = true)
      (hopen : s.handles op.pIo.sockAccept = some conn) :
    WorkerStep s a (.firstReceive op)
      { s with posted := s.posted ++ [⟨{ op.pIo with so := .read }, conn⟩] } .dequeue
  | firstFails {op : Operation} (hfail : a.success = false) :
    WorkerStep s a (.firstReceive op) s (.addIo op.pIo)
  | saveDeleted {pSock : Addr} {connID : UInt32} {op : Operation} {dwBytes : Nat}
      (hcontext : s.context pSock = none) :
    WorkerStep s a (.saveData pSock connID op dwBytes)
      { s with crashed := some (.deleted (some op.conn)) } (.saveData pSock connID op dwBytes)
  | saveData {pSock : Addr} {connID : UInt32} {op : Operation} {dwBytes : Nat}
      {context : SocketContext} (hcontext : s.context pSock = some context) :
    WorkerStep s a (.saveData pSock connID op dwBytes)
      (receive save s connID { op with pIo.connID := context.connID } dwBytes
        (.saveData pSock connID op dwBytes)).1
      (receive save s connID { op with pIo.connID := context.connID } dwBytes
        (.saveData pSock connID op dwBytes)).2
  | nextReceive {connID : UInt32} {op : Operation} {conn : Conn} (hok : a.success = true)
      (hopen : s.handles op.pIo.sockAccept = some conn) :
    WorkerStep s a (.nextReceive connID op)
      { s with posted := s.posted ++ [⟨{ op.pIo with so := .read }, conn⟩] } .dequeue
  | nextFails {connID : UInt32} {op : Operation} (hfail : a.success = false) :
    WorkerStep s a (.nextReceive connID op) s (.find (some op.conn) connID (some op.pIo))
  | findNone {cause : Option Conn} {dwConnID : UInt32} {pIo : Option IoContext}
      (hnone : s.m_mpClientSocket dwConnID = none) :
    WorkerStep s a (.find cause dwConnID pIo) s (.resume pIo)
  | find {cause : Option Conn} {dwConnID : UInt32} {pIo : Option IoContext} {client : Client}
      (hclient : s.m_mpClientSocket dwConnID = some client) :
    WorkerStep s a (.find cause dwConnID pIo) s (.close cause dwConnID client.pSock pIo)
  | closeDeleted {cause : Option Conn} {dwConnID : UInt32} {pSock : Addr} {pIo : Option IoContext}
      (hcontext : s.context pSock = none) :
    WorkerStep s a (.close cause dwConnID pSock pIo) { s with crashed := some (.deleted cause) }
      (.close cause dwConnID pSock pIo)
  | close {cause : Option Conn} {dwConnID : UInt32} {pSock : Addr} {pIo : Option IoContext}
      {context : SocketContext} (hcontext : s.context pSock = some context) :
    WorkerStep s a (.close cause dwConnID pSock pIo) { s with
      handles := Function.update s.handles context.sock none
      m_mpClientSocket := Function.update s.m_mpClientSocket dwConnID none
      closings := s.closings ++ [⟨cause, s.handles context.sock,
        (s.m_mpClientSocket dwConnID).map Client.conn⟩] } (.pool cause pSock pIo)
  | pool {cause : Option Conn} {pSock : Addr} {pIo : Option IoContext}
      (hnodup : (purged (s.m_lsFreeSocketContext ++ [pSock])).Nodup)
      (hlive : ∀ p ∈ purged (s.m_lsFreeSocketContext ++ [pSock]), s.context p ≠ none) :
    WorkerStep s a (.pool cause pSock pIo) { s with
      context := fun p =>
        if p ∈ purged (s.m_lsFreeSocketContext ++ [pSock]) then none else s.context p
      m_lsFreeSocketContext := (s.m_lsFreeSocketContext ++ [pSock]).drop
        (purged (s.m_lsFreeSocketContext ++ [pSock])).length } (.resume pIo)
  | poolDeleted {cause : Option Conn} {pSock : Addr} {pIo : Option IoContext}
      (hdeleted : ¬((purged (s.m_lsFreeSocketContext ++ [pSock])).Nodup ∧
        ∀ p ∈ purged (s.m_lsFreeSocketContext ++ [pSock]), s.context p ≠ none)) :
    WorkerStep s a (.pool cause pSock pIo) { s with crashed := some (.deleted none) }
      (.pool cause pSock pIo)
  | addIo {pIo : IoContext} :
    WorkerStep s a (.addIo pIo)
      { s with m_lsFreeIOContext := addFreeIOContext s.m_lsFreeIOContext pIo } .dequeue

inductive SenderStep (s : Server) (a : Answer) : Sender → Server → Sender → Prop where
  | findNone {nID : UInt32} {pBuf : List UInt8} (hnone : s.m_mpClientSocket nID = none) :
    SenderStep s a (.find nID pBuf) s .done
  | find {nID : UInt32} {pBuf : List UInt8} {client : Client}
      (hclient : s.m_mpClientSocket nID = some client) :
    SenderStep s a (.find nID pBuf) s (.getIo client.pSock pBuf)
  | getIo {pSock : Addr} {pBuf : List UInt8} (hfits : pBuf.length ≤ maxBuffer) :
    SenderStep s a (.getIo pSock pBuf)
      { s with m_lsFreeIOContext := (getFreeIOContext s.m_lsFreeIOContext).2 }
      (.readSocket pSock { (getFreeIOContext s.m_lsFreeIOContext).1 with
        wsaBuf := pBuf, so := .write })
  | overrun {pSock : Addr} {pBuf : List UInt8} (hlong : maxBuffer < pBuf.length) :
    SenderStep s a (.getIo pSock pBuf)
      { s with
        m_lsFreeIOContext := (getFreeIOContext s.m_lsFreeIOContext).2
        crashed := some .overrun } (.getIo pSock pBuf)
  | readDeleted {pSock : Addr} {pIo : IoContext} (hcontext : s.context pSock = none) :
    SenderStep s a (.readSocket pSock pIo) { s with crashed := some (.deleted none) }
      (.readSocket pSock pIo)
  | readSocket {pSock : Addr} {pIo : IoContext} {context : SocketContext}
      (hcontext : s.context pSock = some context) :
    SenderStep s a (.readSocket pSock pIo) s (.postSend { pIo with sockAccept := context.sock })
  | postSend {pIo : IoContext} {conn : Conn} (hok : a.success = true)
      (hopen : s.handles pIo.sockAccept = some conn) :
    SenderStep s a (.postSend pIo)
      { s with posted := s.posted ++ [⟨{ pIo with so := .write }, conn⟩] } .done
  | sendFails {pIo : IoContext} (hfail : a.success = false) :
    SenderStep s a (.postSend pIo) s (.addIo pIo)
  | addIo {pIo : IoContext} :
    SenderStep s a (.addIo pIo)
      { s with m_lsFreeIOContext := addFreeIOContext s.m_lsFreeIOContext pIo } .done

inductive Step (s : Server) : Label → Server → Prop where
  | worker {i : Nat} {a : Answer} {w w' : Worker} {t : Server} (hw : s.workers[i]? = some w)
      (hstep : WorkerStep save s a w t w') :
    Step s (.worker i a) { t with workers := s.workers.set i w' }
  | send {nID : UInt32} {pBuf : List UInt8} :
    Step s (.send nID pBuf) { s with senders := s.senders ++ [.find nID pBuf] }
  | sender {i : Nat} {a : Answer} {w w' : Sender} {t : Server} (hw : s.senders[i]? = some w)
      (hstep : SenderStep s a w t w') :
    Step s (.sender i a) { t with senders := s.senders.set i w' }
  | disconnect {nID : UInt32} {client : Client} (hclient : s.m_mpClientSocket nID = some client) :
    Step s (.disconnect nID) { s with callers := s.callers ++ [nID] }
  | postDisconnect {i : Nat} {nID : UInt32} (hcaller : s.callers[i]? = some nID) :
    Step s (.postDisconnect i)
      { s with callers := s.callers.eraseIdx i, queue := s.queue ++ [.disconnect nID] }
  | complete {i : Nat} {result : Bool} {bytes : List UInt8} {op : Operation}
      (hop : s.posted[i]? = some op) :
    Step s (.complete i result bytes) { s with
      posted := s.posted.eraseIdx i
      queue := s.queue ++ (completed? s op result bytes).toList }

/-- What the worker does after it has examined a completion. -/
inductive Examined (pSock : Addr) (connID : UInt32) (op : Operation) (dwErrorCode : UInt32)
    (dwBytes : Nat) : Worker → Prop where
  | pending (herror : dwErrorCode = errorIoPending) :
    Examined pSock connID op dwErrorCode dwBytes .dequeue
  | failed (herror : dwErrorCode ≠ 0) (hso : op.pIo.so ≠ .accept)
      (hcode : dwErrorCode ≠ errorIoPending ∧ dwErrorCode ≠ wsaENotSock ∧
        dwErrorCode ≠ errorOperationAborted) :
    Examined pSock connID op dwErrorCode dwBytes (.find (some op.conn) connID (some op.pIo))
  | dropped (hso : op.pIo.so ≠ .accept)
      (hcode : dwErrorCode = wsaENotSock ∨ dwErrorCode = errorOperationAborted) :
    Examined pSock connID op dwErrorCode dwBytes (.addIo op.pIo)
  | acceptFailed (herror : dwErrorCode ≠ 0) (hpending : dwErrorCode ≠ errorIoPending)
      (hso : op.pIo.so = .accept) :
    Examined pSock connID op dwErrorCode dwBytes (.closeAccept op)
  | closed (herror : dwErrorCode = 0) (hbytes : dwBytes = 0) (hso : op.pIo.so ≠ .accept) :
    Examined pSock connID op dwErrorCode dwBytes (.find (some op.conn) connID (some op.pIo))
  | accepted (herror : dwErrorCode = 0) (hso : op.pIo.so = .accept) :
    Examined pSock connID op dwErrorCode dwBytes (.postNext op)
  | received (herror : dwErrorCode = 0) (hso : op.pIo.so = .read) :
    Examined pSock connID op dwErrorCode dwBytes (.saveData pSock connID op dwBytes)
  | sent (herror : dwErrorCode = 0) (hso : op.pIo.so = .write) :
    Examined pSock connID op dwErrorCode dwBytes (.addIo op.pIo)
  | other (herror : dwErrorCode = 0) (haccept : op.pIo.so ≠ .accept) (hread : op.pIo.so ≠ .read)
      (hwrite : op.pIo.so ≠ .write) :
    Examined pSock connID op dwErrorCode dwBytes .dequeue

theorem examine_cases (pSock : Addr) (connID : UInt32) (op : Operation) (dwErrorCode : UInt32)
    (dwBytes : Nat) : Examined pSock connID op dwErrorCode dwBytes
      (examine pSock connID op dwErrorCode dwBytes) := by
  unfold examine
  split
  · next herror =>
    split
    · next hpending => exact .pending hpending
    · next hpending =>
      split
      · next hso =>
        split
        · next hcode => exact .failed herror hso ⟨hpending, hcode⟩
        · next hcode => exact .dropped hso (by tauto)
      · next hso => exact .acceptFailed herror hpending (not_not.mp hso)
  · next herror =>
    have herror := not_not.mp herror
    split
    · next hclosed => exact .closed herror hclosed.1 hclosed.2
    · split
      · next hso => exact .accepted herror hso
      · next hso => exact .received herror hso
      · next hso => exact .sent herror hso
      · next haccept hread hwrite => exact .other herror haccept hread hwrite

/-! ## 2. Every step is one of them -/

theorem getElem?_set_cases {α : Type*} {l : List α} {i j : Nat} {b x : α}
    (h : (l.set i b)[j]? = some x) : j = i ∧ x = b ∨ j ≠ i ∧ l[j]? = some x := by
  rw [List.getElem?_set] at h
  split at h
  · next hij =>
    split at h
    · exact .inl ⟨hij.symm, (Option.some.inj h).symm⟩
    · cases h
  · next hij => exact .inr ⟨fun heq => hij heq.symm, h⟩

variable {save} {s t : Server} {a : Answer}

theorem postReceive_eq_some {op : Operation} (h : postReceive s op = some t) :
    ∃ conn, s.handles op.pIo.sockAccept = some conn ∧
      t = { s with posted := s.posted ++ [⟨{ op.pIo with so := .read }, conn⟩] } := by
  have ⟨conn, hopen, ht⟩ := Option.map_eq_some_iff.mp h
  exact ⟨conn, hopen, ht.symm⟩

theorem stepWorker_examine {pSock : Addr} {connID : UInt32} {op : Operation} {result : Bool}
    {dwBytes : Nat} : stepWorker save s a (.examine pSock connID op result dwBytes) =
      some (s, examine pSock connID op (a.errorCode result) (a.transferred result dwBytes)) := by
  rw [stepWorker, Answer.errorCode, Answer.transferred]
  cases result <;> cases a.success <;> rfl

theorem stepWorker_cases {w w' : Worker} (h : stepWorker save s a w = some (t, w')) :
    WorkerStep save s a w t w' := by
  cases w with
  | dequeue =>
    rw [stepWorker] at h
    split at h
    · cases h
    · next e queue hqueue =>
      cases h
      exact .dequeue hqueue
  | openSocket =>
    rw [stepWorker] at h
    split at h
    · next hok =>
      split at h
      · next hfree =>
        cases h
        exact .openSocket hok hfree.1 hfree.2
      · cases h
    · next hfail =>
      cases h
      exact .openFails (Bool.eq_false_of_not_eq_true hfail)
  | noSocket =>
    cases h
    exact .noSocket
  | getIo sockClient conn =>
    cases h
    exact .getIo
  | postAccept sockClient op =>
    rw [stepWorker] at h
    split at h
    · next hok =>
      cases h
      exact .postAccept hok
    · next hfail =>
      cases h
      exact .acceptFails (Bool.eq_false_of_not_eq_true hfail)
  | closeClient sockClient op =>
    cases h
    exact .closeClient
  | findDisconnect dwConnID =>
    rw [stepWorker] at h
    split at h
    · next hnone =>
      cases h
      exact .disconnectUnknown hnone
    · next client hclient =>
      cases h
      exact .findDisconnect hclient
  | readId pSock op result dwBytes =>
    rw [stepWorker] at h
    split at h
    · next hso =>
      cases h
      exact .readAccept hso
    · next hso =>
      split at h
      · next hcontext =>
        cases h
        exact .readDeleted hso hcontext
      · next context hcontext =>
        cases h
        exact .readId hso hcontext
  | examine pSock connID op result dwBytes =>
    rw [stepWorker_examine] at h
    cases h
    exact .examine
  | closeAccept op =>
    cases h
    exact .closeAccept
  | postAgain pIo =>
    cases h
    exact .postAgain
  | postNext op =>
    cases h
    exact .postNext
  | increment op again =>
    simp only [stepWorker] at h
    split at h
    · next hid =>
      cases h
      rw [hid.2]
      exact .incrementAgain hid.1
    · next hid =>
      cases h
      exact .increment hid
  | getSocket op connID =>
    simp only [stepWorker] at h
    split at h
    · next pSock free hfree =>
      cases h
      rw [socketHandedOut, hfree, List.headD_cons]
      exact .getSocket hfree
    · next hempty =>
      split at h
      · next hnew =>
        cases h
        rw [show socketHandedOut s a.addr = a.addr by rw [socketHandedOut, hempty]; rfl]
        exact .newSocket hempty hnew
      · cases h
  | fillSocket op connID pSock =>
    rw [stepWorker] at h
    split at h
    · next hcontext =>
      cases h
      exact .fillDeleted hcontext
    · next context hcontext =>
      cases h
      exact .fillSocket hcontext
  | addClient op connID pSock =>
    cases h
    exact .addClient
  | associate op connID pSock =>
    rw [stepWorker] at h
    split at h
    · next hok =>
      split at h
      · cases h
      · next conn hopen =>
        split at h
        · next hkey =>
          cases h
          exact .associate hok hopen hkey
        · cases h
    · next hfail =>
      cases h
      exact .associateFails (Bool.eq_false_of_not_eq_true hfail)
  | firstReceive op =>
    rw [stepWorker] at h
    split at h
    · next hok =>
      have ⟨u, hu, heq⟩ := Option.map_eq_some_iff.mp h
      have ⟨conn, hopen, hpost⟩ := postReceive_eq_some hu
      cases heq
      rw [hpost]
      exact .firstReceive hok hopen
    · next hfail =>
      cases h
      exact .firstFails (Bool.eq_false_of_not_eq_true hfail)
  | saveData pSock connID op dwBytes =>
    rw [stepWorker] at h
    split at h
    · next hcontext =>
      cases h
      exact .saveDeleted hcontext
    · next context hcontext =>
      have heq := Option.some.inj h
      rw [show t = (t, w').1 from rfl, show w' = (t, w').2 from rfl, ← heq]
      exact .saveData hcontext
  | nextReceive connID op =>
    rw [stepWorker] at h
    split at h
    · next hok =>
      have ⟨u, hu, heq⟩ := Option.map_eq_some_iff.mp h
      have ⟨conn, hopen, hpost⟩ := postReceive_eq_some hu
      cases heq
      rw [hpost]
      exact .nextReceive hok hopen
    · next hfail =>
      cases h
      exact .nextFails (Bool.eq_false_of_not_eq_true hfail)
  | find cause dwConnID pIo =>
    rw [stepWorker] at h
    split at h
    · next hnone =>
      cases h
      exact .findNone hnone
    · next client hclient =>
      cases h
      exact .find hclient
  | close cause dwConnID pSock pIo =>
    rw [stepWorker] at h
    split at h
    · next hcontext =>
      cases h
      exact .closeDeleted hcontext
    · next context hcontext =>
      cases h
      exact .close hcontext
  | pool cause pSock pIo =>
    simp only [stepWorker] at h
    split at h
    · next hpurge =>
      cases h
      exact .pool hpurge.1 hpurge.2
    · next hdeleted =>
      cases h
      exact .poolDeleted hdeleted
  | addIo pIo =>
    cases h
    exact .addIo

/-- And each of them is a step. -/
theorem WorkerStep.taken {w w' : Worker} (h : WorkerStep save s a w t w') :
    stepWorker save s a w = some (t, w') := by
  cases h with
  | dequeue hqueue => rw [stepWorker, hqueue]
  | openSocket hok hvalid hfree => rw [stepWorker, if_pos hok, if_pos ⟨hvalid, hfree⟩]
  | openFails hfail => rw [stepWorker, hfail]; rfl
  | postAccept hok => rw [stepWorker, if_pos hok]
  | acceptFails hfail => rw [stepWorker, hfail]; rfl
  | disconnectUnknown hnone => rw [stepWorker, hnone]
  | findDisconnect hclient => rw [stepWorker, hclient]
  | readAccept hso => rw [stepWorker, if_pos hso]
  | readId hso hcontext => rw [stepWorker, if_neg hso, hcontext]
  | readDeleted hso hcontext => rw [stepWorker, if_neg hso, hcontext]
  | examine => rw [stepWorker_examine]
  | incrementAgain hzero => exact if_pos ⟨hzero, rfl⟩
  | increment hid => exact if_neg hid
  | getSocket hfree => simp only [stepWorker, socketHandedOut, hfree, List.headD_cons]
  | newSocket hempty hnew =>
    simp only [stepWorker, socketHandedOut, hempty, List.headD_nil]
    exact if_pos hnew
  | fillDeleted hcontext => rw [stepWorker, hcontext]
  | fillSocket hcontext => rw [stepWorker, hcontext]
  | associate hok hopen hkey => simp only [stepWorker, hok, hopen, hkey, if_true]
  | associateFails hfail => rw [stepWorker, hfail]; rfl
  | firstReceive hok hopen => rw [stepWorker, if_pos hok, postReceive, hopen]; rfl
  | firstFails hfail => rw [stepWorker, hfail]; rfl
  | saveDeleted hcontext => rw [stepWorker, hcontext]
  | saveData hcontext => rw [stepWorker, hcontext]
  | nextReceive hok hopen => rw [stepWorker, if_pos hok, postReceive, hopen]; rfl
  | nextFails hfail => rw [stepWorker, hfail]; rfl
  | findNone hnone => rw [stepWorker, hnone]
  | find hclient => rw [stepWorker, hclient]
  | closeDeleted hcontext => rw [stepWorker, hcontext]
  | close hcontext => rw [stepWorker, hcontext]
  | pool hnodup hlive => exact if_pos ⟨hnodup, hlive⟩
  | poolDeleted hdeleted => exact if_neg hdeleted
  | _ => rfl

theorem stepSender_cases {w w' : Sender} (h : stepSender s a w = some (t, w')) :
    SenderStep s a w t w' := by
  cases w with
  | find nID pBuf =>
    rw [stepSender] at h
    split at h
    · next hnone =>
      cases h
      exact .findNone hnone
    · next client hclient =>
      cases h
      exact .find hclient
  | getIo pSock pBuf =>
    simp only [stepSender] at h
    split at h
    · next hfits =>
      cases h
      exact .getIo hfits
    · next hlong =>
      cases h
      exact .overrun (Nat.lt_of_not_le hlong)
  | readSocket pSock pIo =>
    rw [stepSender] at h
    split at h
    · next hcontext =>
      cases h
      exact .readDeleted hcontext
    · next context hcontext =>
      cases h
      exact .readSocket hcontext
  | postSend pIo =>
    rw [stepSender] at h
    split at h
    · next hok =>
      have ⟨conn, hopen, heq⟩ := Option.map_eq_some_iff.mp h
      cases heq
      exact .postSend hok hopen
    · next hfail =>
      cases h
      exact .sendFails (Bool.eq_false_of_not_eq_true hfail)
  | addIo pIo =>
    cases h
    exact .addIo
  | done => cases h

theorem step_cases {l : Label} (h : step save s l = some t) : Step save s l t := by
  unfold step at h
  split at h
  · cases h
  cases l with
  | worker i a =>
    have ⟨w, hw, hi⟩ := Option.bind_eq_some_iff.mp h
    have ⟨⟨u, w'⟩, hu, heq⟩ := Option.bind_eq_some_iff.mp hi
    cases heq
    exact .worker hw (stepWorker_cases hu)
  | send nID pBuf =>
    simp only at h
    split at h
    · cases h
      exact .send
    · cases h
  | sender i a =>
    have ⟨w, hw, hi⟩ := Option.bind_eq_some_iff.mp h
    have ⟨⟨u, w'⟩, hu, heq⟩ := Option.bind_eq_some_iff.mp hi
    cases heq
    exact .sender hw (stepSender_cases hu)
  | disconnect nID =>
    simp only at h
    split at h
    · cases h
    · next client hclient =>
      cases h
      exact .disconnect hclient
  | postDisconnect i =>
    have ⟨nID, hcaller, heq⟩ := Option.bind_eq_some_iff.mp h
    cases heq
    exact .postDisconnect hcaller
  | complete i result bytes =>
    have ⟨op, hop, hi⟩ := Option.bind_eq_some_iff.mp h
    split at hi
    · cases hi
      exact .complete hop
    · cases hi

theorem step_running {l : Label} (h : step save s l = some t) : s.crashed = none := by
  unfold step at h
  split at h
  · cases h
  · next hcrash => exact not_not.mp hcrash

end VerifyServer.Socket
