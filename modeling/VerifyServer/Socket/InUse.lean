import VerifyServer.Socket.TcpServer
import VerifyServer.Socket.Buffers

/-!
# InUse — connections that something still refers to

A connection is in use while its socket is open, or an operation posted on it is under way, queued or
being handled.  While the server keeps the handle, the id and the `SOCKET_CONTEXT` of a connection in
use from being handed out again, what the code finds under them is that connection's.
-/

open VerifyServer.Reasoning

namespace VerifyServer.Socket

/-! ## 1. Who refers to a connection -/

def Entry.conn? : Entry → Option Conn
  | .completion _ op _ _ => some op.conn
  | _ => none

def Worker.conn? : Worker → Option Conn
  | .getIo _ conn => some conn
  | .postAccept _ op | .closeClient _ op | .readId _ op _ _ | .examine _ _ op _ _ | .closeAccept op
  | .postNext op | .increment op _ | .getSocket op _ | .fillSocket op _ _ | .addClient op _ _
  | .associate op _ _ | .firstReceive op | .saveData _ _ op _ | .nextReceive _ op => some op.conn
  | .find cause _ _ | .close cause _ _ _ | .pool cause _ _ => cause
  | _ => none

def inUse (s : Server) : List Conn :=
  (List.range s.count).filter (fun conn => s.handles (s.sockOf conn) = some conn) ++
    s.posted.map Operation.conn ++ s.queue.filterMap Entry.conn? ++
      s.workers.filterMap Worker.conn?

/-- The step hands out no handle, id or `SOCKET_CONTEXT` of a connection in use, and deletes no such
context. -/
def sparesInUse (s : Server) : Label → Bool
  | .worker i a =>
    match s.workers[i]? with
    | some .openSocket => !a.success || (inUse s).all fun conn => s.sockOf conn ≠ a.handle
    | some (.increment _ again) => s.m_dwConnID + 1 = 0 && !again ||
      (inUse s).all fun conn => (s.stage conn).connID? ≠ some (s.m_dwConnID + 1)
    | some (.getSocket _ _) =>
      (inUse s).all fun conn => (s.stage conn).pSock? ≠ some (socketHandedOut s a.addr)
    | some (.pool _ pSock _) =>
      (purged (s.m_lsFreeSocketContext ++ [pSock])).all fun p =>
        (inUse s).all fun conn => (s.stage conn).pSock? ≠ some p
    | _ => true
  | _ => true

def InUse (s : Server) (conn : Conn) : Prop :=
  s.handles (s.sockOf conn) = some conn ∨ (∃ op ∈ s.posted, op.conn = conn) ∨
    (∃ e ∈ s.queue, e.conn? = some conn) ∨ ∃ w ∈ s.workers, w.conn? = some conn

/-! ## 2. The chain of a connection's accept and receives -/

/-- The operation is the connection's accept or a receive. -/
def Operation.chain? (op : Operation) : Option Conn :=
  if op.pIo.so = .write then none else some op.conn

def Entry.chain? : Entry → Option Conn
  | .completion _ op _ _ => op.chain?
  | _ => none

def Worker.chain? : Worker → Option Conn
  | .getIo _ conn => some conn
  | .readId _ op _ _ | .examine _ _ op _ _ => op.chain?
  | .postAccept _ op | .postNext op | .increment op _ | .getSocket op _ | .fillSocket op _ _
  | .addClient op _ _ | .associate op _ _ | .firstReceive op | .saveData _ _ op _
  | .nextReceive _ op => some op.conn
  | _ => none

theorem conn_of_chain {op : Operation} {c : Conn} (h : op.chain? = some c) : op.conn = c := by
  rw [Operation.chain?] at h
  split at h
  · cases h
  · exact Option.some.inj h

theorem Entry.conn_of_chain {e : Entry} {c : Conn} (h : e.chain? = some c) : e.conn? = some c := by
  cases e with
  | completion pSock op result dwBytes => exact congrArg some (Socket.conn_of_chain h)
  | _ => cases h

theorem Worker.conn_of_chain {w : Worker} {c : Conn} (h : w.chain? = some c) :
    w.conn? = some c := by
  cases w with
  | readId pSock op result dwBytes => exact congrArg some (Socket.conn_of_chain h)
  | examine pSock connID op result dwBytes => exact congrArg some (Socket.conn_of_chain h)
  | getIo sockClient conn => exact h
  | postAccept sockClient op => exact h
  | postNext op => exact h
  | increment op again => exact h
  | getSocket op connID => exact h
  | fillSocket op connID pSock => exact h
  | addClient op connID pSock => exact h
  | associate op connID pSock => exact h
  | firstReceive op => exact h
  | saveData pSock connID op dwBytes => exact h
  | nextReceive connID op => exact h
  | _ => cases h

/-- In how many places the chain of a connection goes on. -/
def chainCount (s : Server) (conn : Conn) : Nat :=
  s.posted.countP (fun op => op.chain? = some conn) +
    s.queue.countP (fun e => e.chain? = some conn) +
      s.workers.countP (fun w => w.chain? = some conn)

/-! ## 3. The invariant -/

section Facts

variable (stage : Conn → Stage) (sockOf : Conn → Sock)

/-- The context of an accept or a receive names the connection's handle. -/
def Operation.Fits (op : Operation) : Prop :=
  (op.pIo.so ≠ .write → op.pIo.sockAccept = sockOf op.conn) ∧
    (op.pIo.so = .accept → stage op.conn = .opened)

def Entry.Fits : Entry → Prop
  | .completion pSock op _ _ => op.Fits stage sockOf ∧
      (op.pIo.so ≠ .accept → ∃ connID, stage op.conn = .listed connID pSock)
  | _ => True

/-- `ProcessAccept` has come that far with the connection of `op`. -/
def Operation.At (op : Operation) (at_ : Stage) : Prop :=
  op.pIo.sockAccept = sockOf op.conn ∧ stage op.conn = at_

/-- What a worker found under the connection it acts for is the connection's own. -/
def Worker.Fits : Worker → Prop
  | .getIo sockClient conn => sockOf conn = sockClient ∧ stage conn = .opened
  | .postAccept _ op => op.pIo.so = .accept ∧ op.At stage sockOf .opened
  | .readId pSock op _ _ => op.Fits stage sockOf ∧
      (op.pIo.so ≠ .accept → ∃ connID, stage op.conn = .listed connID pSock)
  | .examine pSock connID op _ _ => op.Fits stage sockOf ∧
      (op.pIo.so ≠ .accept → stage op.conn = .listed connID pSock)
  | .postNext op | .increment op _ => op.At stage sockOf .opened
  | .getSocket op connID => op.At stage sockOf (.named connID)
  | .fillSocket op connID pSock => op.At stage sockOf (.given connID pSock)
  | .addClient op connID pSock => op.At stage sockOf (.filled connID pSock)
  | .associate op connID pSock | .saveData pSock connID op _ =>
    op.At stage sockOf (.listed connID pSock)
  | .firstReceive op => ∃ connID pSock, op.At stage sockOf (.listed connID pSock)
  | .nextReceive connID op => ∃ pSock, op.At stage sockOf (.listed connID pSock)
  | .find (some conn) connID _ => ∃ pSock, stage conn = .listed connID pSock
  | .close (some conn) connID pSock _ => stage conn = .listed connID pSock
  | _ => True

end Facts

/-- Only the handle of the connection itself matters. -/
theorem Entry.Fits.congr {stage : Conn → Stage} {sockOf sockOf' : Conn → Sock} {e : Entry}
    (h : e.Fits stage sockOf) (hsock : ∀ c, e.conn? = some c → sockOf' c = sockOf c) :
    e.Fits stage sockOf' := by
  cases e with
  | completion pSock op result dwBytes =>
    exact ⟨⟨fun hso => (h.1.1 hso).trans (hsock _ rfl).symm, h.1.2⟩, h.2⟩
  | _ => trivial

theorem Worker.Fits.congr {stage : Conn → Stage} {sockOf sockOf' : Conn → Sock} {w : Worker}
    (h : w.Fits stage sockOf) (hsock : ∀ c, w.conn? = some c → sockOf' c = sockOf c) :
    w.Fits stage sockOf' := by
  have hat {op : Operation} {at_ : Stage} (hop : sockOf' op.conn = sockOf op.conn)
      (h : op.At stage sockOf at_) : op.At stage sockOf' at_ := ⟨h.1.trans hop.symm, h.2⟩
  have hfits {op : Operation} (hop : sockOf' op.conn = sockOf op.conn)
      (h : op.Fits stage sockOf) : op.Fits stage sockOf' :=
    ⟨fun hso => (h.1 hso).trans hop.symm, h.2⟩
  cases w with
  | getIo sockClient conn => exact ⟨(hsock _ rfl).trans h.1, h.2⟩
  | postAccept sockClient op => exact ⟨h.1, hat (hsock _ rfl) h.2⟩
  | readId pSock op result dwBytes => exact ⟨hfits (hsock _ rfl) h.1, h.2⟩
  | examine pSock connID op result dwBytes => exact ⟨hfits (hsock _ rfl) h.1, h.2⟩
  | postNext op => exact hat (hsock _ rfl) h
  | increment op again => exact hat (hsock _ rfl) h
  | getSocket op connID => exact hat (hsock _ rfl) h
  | fillSocket op connID pSock => exact hat (hsock _ rfl) h
  | addClient op connID pSock => exact hat (hsock _ rfl) h
  | associate op connID pSock => exact hat (hsock _ rfl) h
  | saveData pSock connID op dwBytes => exact hat (hsock _ rfl) h
  | firstReceive op =>
    obtain ⟨connID, pSock, h⟩ := h
    exact ⟨connID, pSock, hat (hsock _ rfl) h⟩
  | nextReceive connID op =>
    obtain ⟨pSock, h⟩ := h
    exact ⟨pSock, hat (hsock _ rfl) h⟩
  | find cause connID pIo => cases cause <;> exact h
  | close cause connID pSock pIo => cases cause <;> exact h
  | _ => trivial

/-- What the system and the code have under a connection in use. -/
structure Sound (s : Server) (conn : Conn) : Prop where
  handle : ∀ other, s.handles (s.sockOf conn) = some other → other = conn
  holder : ∀ connID, (s.stage conn).connID? = some connID → s.holder connID = some conn
  filled : ∀ connID pSock, s.stage conn = .filled connID pSock ∨ s.stage conn = .listed connID pSock →
    s.context pSock = some ⟨connID, s.sockOf conn⟩
  listed : ∀ connID pSock, s.stage conn = .listed connID pSock →
    ∀ client, s.m_mpClientSocket connID = some client → client = ⟨pSock, conn⟩
  key : ∀ pSock, s.key conn = some pSock → ∃ connID, s.stage conn = .listed connID pSock

/-- Two connections have no handle, id or context in common. -/
structure Apart (s : Server) (c d : Conn) : Prop where
  sock : s.sockOf c ≠ s.sockOf d
  connID : ∀ connID, (s.stage c).connID? = some connID → (s.stage d).connID? ≠ some connID
  pSock : ∀ pSock, (s.stage c).pSock? = some pSock → (s.stage d).pSock? ≠ some pSock

structure Inv (s : Server) : Prop where
  sound : ∀ c, InUse s c → Sound s c
  apart : ∀ c d, InUse s c → InUse s d → c ≠ d → Apart s c d
  handles : ∀ h c, s.handles h = some c → s.sockOf c = h
  below : ∀ c, InUse s c → c < s.count
  fresh : ∀ c, s.count ≤ c → s.stage c = .opened ∧ s.key c = none
  chain : ∀ c, chainCount s c ≤ 1
  posted : ∀ op ∈ s.posted, op.Fits s.stage s.sockOf
  queue : ∀ e ∈ s.queue, e.Fits s.stage s.sockOf
  workers : ∀ w ∈ s.workers, w.Fits s.stage s.sockOf

/-! ## 4. The condition in terms of the invariant -/

theorem mem_inUse {s : Server} (h : ∀ c, InUse s c → c < s.count) {conn : Conn} :
    conn ∈ inUse s ↔ InUse s conn := by
  simp only [inUse, List.mem_append, List.mem_filter, List.mem_range, decide_eq_true_eq,
    List.mem_map, List.mem_filterMap, InUse]
  constructor
  · rintro (((⟨-, hopen⟩ | hposted) | hqueue) | hworkers)
    · exact .inl hopen
    · exact .inr (.inl hposted)
    · exact .inr (.inr (.inl hqueue))
    · exact .inr (.inr (.inr hworkers))
  · intro huse
    have hcount := h conn huse
    rcases huse with hopen | hposted | hqueue | hworkers
    · exact .inl (.inl (.inl ⟨hcount, hopen⟩))
    · exact .inl (.inl (.inr hposted))
    · exact .inl (.inr hqueue)
    · exact .inr hworkers

theorem all_inUse {s : Server} (h : Inv s) {p : Conn → Bool} (hall : (inUse s).all p = true)
    {conn : Conn} (huse : InUse s conn) : p conn = true :=
  List.all_eq_true.mp hall conn ((mem_inUse h.below).mpr huse)

/-! ## 5. Steps that leave what is in use alone -/

/-- Sockets may have been closed and entries of the map removed.  Nothing else that a connection in
use has was changed. -/
structure Kept (s t : Server) : Prop where
  handles : ∀ h c, t.handles h = some c → s.handles h = some c
  clients : ∀ connID client, t.m_mpClientSocket connID = some client →
    s.m_mpClientSocket connID = some client
  context : ∀ c, InUse s c → ∀ pSock, (s.stage c).pSock? = some pSock →
    t.context pSock = s.context pSock
  sockOf : t.sockOf = s.sockOf
  stage : t.stage = s.stage
  key : ∀ c pSock, t.key c = some pSock →
    s.key c = some pSock ∨ ∃ connID, s.stage c = .listed connID pSock
  holder : t.holder = s.holder
  count : t.count = s.count

theorem Kept.inUse {s t : Server} (h : Kept s t) (hposted : ∀ op ∈ t.posted, InUse s op.conn)
    (hqueue : ∀ e ∈ t.queue, ∀ c, e.conn? = some c → InUse s c)
    (hworkers : ∀ w ∈ t.workers, ∀ c, w.conn? = some c → InUse s c) {c : Conn} (hc : InUse t c) :
    InUse s c := by
  rcases hc with hopen | ⟨op, hop, rfl⟩ | ⟨e, he, hec⟩ | ⟨w, hw, hwc⟩
  · exact .inl (h.sockOf ▸ h.handles _ _ hopen)
  · exact hposted op hop
  · exact hqueue e he c hec
  · exact hworkers w hw c hwc

/-- A step that leaves what one connection has alone. -/
theorem Sound.keep {s t : Server} {c : Conn} (hc : Sound s c)
    (hsock : t.sockOf c = s.sockOf c) (hstage : t.stage c = s.stage c)
    (hkey : ∀ pSock, t.key c = some pSock →
      s.key c = some pSock ∨ ∃ connID, s.stage c = .listed connID pSock)
    (hhandles : ∀ d, t.handles (s.sockOf c) = some d → s.handles (s.sockOf c) = some d)
    (hholder : ∀ connID, (s.stage c).connID? = some connID → t.holder connID = s.holder connID)
    (hcontext : ∀ pSock, (s.stage c).pSock? = some pSock → t.context pSock = s.context pSock)
    (hclients : ∀ connID, (s.stage c).connID? = some connID → ∀ client,
      t.m_mpClientSocket connID = some client → s.m_mpClientSocket connID = some client) :
    Sound t c where
  handle other hother := hc.handle other (hhandles other (hsock ▸ hother))
  holder connID hid := by
    rw [hstage] at hid
    rw [hholder connID hid]
    exact hc.holder connID hid
  filled connID pSock hf := by
    rw [hstage] at hf
    have hp : (s.stage c).pSock? = some pSock := by rcases hf with hf | hf <;> rw [hf] <;> rfl
    rw [hcontext pSock hp, hsock]
    exact hc.filled connID pSock hf
  listed connID pSock hl client hclient := by
    rw [hstage] at hl
    exact hc.listed connID pSock hl client (hclients connID (by rw [hl]; rfl) client hclient)
  key pSock hk := by
    rw [hstage]
    exact (hkey pSock hk).elim (hc.key pSock) id

theorem Kept.sound {s t : Server} (h : Kept s t) {c : Conn} (huse : InUse s c) (hc : Sound s c) :
    Sound t c :=
  hc.keep (congrFun h.sockOf c) (congrFun h.stage c) (h.key c) (h.handles _)
    (fun connID _ => congrFun h.holder connID) (h.context c huse) (fun connID _ => h.clients connID)

theorem Inv.of_kept {s t : Server} (h : Inv s) (hk : Kept s t)
    (huse : ∀ c, InUse t c → InUse s c) (hchain : ∀ c, chainCount t c ≤ chainCount s c)
    (hposted : ∀ op ∈ t.posted, op.Fits s.stage s.sockOf)
    (hqueue : ∀ e ∈ t.queue, e.Fits s.stage s.sockOf)
    (hworkers : ∀ w ∈ t.workers, w.Fits s.stage s.sockOf) : Inv t where
  sound c hc := hk.sound (huse c hc) (h.sound c (huse c hc))
  apart c d hc hd hne := by
    have := h.apart c d (huse c hc) (huse d hd) hne
    exact ⟨hk.sockOf ▸ this.sock, hk.stage ▸ this.connID, hk.stage ▸ this.pSock⟩
  handles hd c hc := hk.sockOf ▸ h.handles hd c (hk.handles _ _ hc)
  below c hc := hk.count ▸ h.below c (huse c hc)
  fresh c hc := by
    obtain ⟨hstage, hkey⟩ := h.fresh c (hk.count ▸ hc)
    refine ⟨hk.stage ▸ hstage, Option.eq_none_iff_forall_ne_some.mpr fun pSock hp => ?_⟩
    rcases hk.key c pSock hp with hp | ⟨connID, hl⟩
    · cases hkey.symm.trans hp
    · cases hstage.symm.trans hl
  chain c := (hchain c).trans (h.chain c)
  posted := hk.stage ▸ hk.sockOf ▸ hposted
  queue := hk.stage ▸ hk.sockOf ▸ hqueue
  workers := hk.stage ▸ hk.sockOf ▸ hworkers

/-! ## 6. The list of workers -/

theorem countP_set {α : Type*} {l : List α} {i : Nat} {a : α} (h : l[i]? = some a) (b : α)
    (p : α → Bool) :
    (l.set i b).countP p + (if p a then 1 else 0) = l.countP p + if p b then 1 else 0 := by
  obtain ⟨hi, rfl⟩ := List.getElem?_eq_some_iff.mp h
  obtain ⟨l₁, l₂, hl, -, hset⟩ := @List.exists_of_set _ _ b _ hi
  rw [hset]
  conv_rhs => rw [hl]
  rw [List.countP_append, List.countP_append, List.countP_cons, List.countP_cons]
  omega

theorem countP_eraseIdx {α : Type*} {l : List α} {i : Nat} {a : α} (h : l[i]? = some a)
    (p : α → Bool) : (l.eraseIdx i).countP p + (if p a then 1 else 0) = l.countP p := by
  obtain ⟨hi, rfl⟩ := List.getElem?_eq_some_iff.mp h
  rw [← (List.getElem_cons_eraseIdx_perm hi).countP_eq, List.countP_cons]

/-- What another worker refers to, it referred to before. -/
theorem inUse_of_mem_set {s : Server} {i : Nat} {w w' : Worker} (hw : s.workers[i]? = some w)
    (hconn : ∀ c, w'.conn? = some c → w.conn? = some c) {x : Worker}
    (hx : x ∈ s.workers.set i w') {c : Conn} (hc : x.conn? = some c) : InUse s c := by
  rcases List.mem_or_eq_of_mem_set hx with hx | rfl
  · exact .inr (.inr (.inr ⟨x, hx, hc⟩))
  · exact .inr (.inr (.inr ⟨w, List.mem_of_getElem? hw, hconn c hc⟩))

/-- A worker goes on, for the same connection or none, and the queue may have grown by requests. -/
theorem Inv.goto {s t : Server} (h : Inv s) {i : Nat} {w w' : Worker}
    (hw : s.workers[i]? = some w) (hk : Kept s t) (hworkers : t.workers = s.workers.set i w')
    (hposted : t.posted = s.posted) {more : List Entry} (hqueue : t.queue = s.queue ++ more)
    (hmore : ∀ e ∈ more, e.conn? = none) (hconn : ∀ c, w'.conn? = some c → w.conn? = some c)
    (hchain : ∀ c, w'.chain? = some c → w.chain? = some c)
    (hfits : w'.Fits s.stage s.sockOf) : Inv t := by
  have hnone : ∀ e ∈ more, e.chain? = none ∧ e.Fits s.stage s.sockOf := by
    intro e he
    have := hmore e he
    cases e with
    | accept => exact ⟨rfl, trivial⟩
    | disconnect dwConnID => exact ⟨rfl, trivial⟩
    | completion pSock op result dwBytes => cases this
  refine h.of_kept hk (fun c => hk.inUse ?_ ?_ ?_) ?_ ?_ ?_ ?_
  · intro op hop
    exact .inr (.inl ⟨op, hposted ▸ hop, rfl⟩)
  · intro e he c hc
    rcases List.mem_append.mp (hqueue ▸ he) with he | he
    · exact .inr (.inr (.inl ⟨e, he, hc⟩))
    · rw [hmore e he] at hc
      cases hc
  · intro x hx c hc
    exact inUse_of_mem_set hw hconn (hworkers ▸ hx) hc
  · intro c
    have hset := countP_set hw w' (fun w => w.chain? = some c)
    have hadded : more.countP (fun e => e.chain? = some c) = 0 := by
      refine List.countP_eq_zero.mpr fun e he => ?_
      rw [(hnone e he).1]
      simp
    rw [chainCount, chainCount, hworkers, hposted, hqueue, List.countP_append, hadded]
    by_cases hc : w'.chain? = some c
    · simp only [hc, hchain c hc, decide_true, if_true] at hset
      omega
    · simp only [hc, decide_false] at hset
      split at hset <;> simp only [Bool.false_eq_true, if_false] at hset <;> omega
  · rw [hposted]
    exact h.posted
  · intro e he
    rcases List.mem_append.mp (hqueue ▸ he) with he | he
    · exact h.queue e he
    · exact (hnone e he).2
  · intro x hx
    rcases List.mem_or_eq_of_mem_set (hworkers ▸ hx) with hx | rfl
    · exact h.workers x hx
    · exact hfits

/-- A worker posts the connection's accept or receive. -/
theorem Inv.post {s t : Server} (h : Inv s) {i : Nat} {w w' : Worker} {op : Operation}
    (hw : s.workers[i]? = some w) (hk : Kept s t) (hworkers : t.workers = s.workers.set i w')
    (hposted : t.posted = s.posted ++ [op]) (hqueue : t.queue = s.queue)
    (hconn : w.conn? = some op.conn) (hchain : w.chain? = some op.conn) (hconn' : w'.conn? = none)
    (hchain' : w'.chain? = none) (hfits : op.Fits s.stage s.sockOf)
    (hfits' : w'.Fits s.stage s.sockOf) : Inv t := by
  refine h.of_kept hk (fun c => hk.inUse ?_ ?_ ?_) ?_ ?_ ?_ ?_
  · intro op' hop'
    rw [hposted, List.mem_append, List.mem_singleton] at hop'
    rcases hop' with hop' | rfl
    · exact .inr (.inl ⟨op', hop', rfl⟩)
    · exact .inr (.inr (.inr ⟨w, List.mem_of_getElem? hw, hconn⟩))
  · intro e he c hc
    exact .inr (.inr (.inl ⟨e, hqueue ▸ he, hc⟩))
  · intro x hx c hc
    refine inUse_of_mem_set hw (fun c hc => ?_) (hworkers ▸ hx) hc
    rw [hconn'] at hc
    cases hc
  · intro c
    have hset := countP_set hw w' (fun w => w.chain? = some c)
    simp only [hchain, hchain', reduceCtorEq, decide_false, Bool.false_eq_true, if_false] at hset
    rw [chainCount, chainCount, hworkers, hposted, hqueue, List.countP_append,
      List.countP_singleton]
    by_cases hc : op.conn = c
    · simp only [hc, decide_true, if_true] at hset
      split <;> omega
    · have hne : op.chain? ≠ some c := by
        rw [Operation.chain?]
        split
        · exact nofun
        · exact fun heq => hc (Option.some.inj heq)
      simp only [Option.some.injEq, hc, decide_false, Bool.false_eq_true, if_false] at hset
      simp only [hne, decide_false, Bool.false_eq_true, if_false]
      omega
  · intro op' hop'
    rw [hposted, List.mem_append, List.mem_singleton] at hop'
    rcases hop' with hop' | rfl
    · exact h.posted op' hop'
    · exact hfits
  · rw [hqueue]
    exact h.queue
  · intro x hx
    rcases List.mem_or_eq_of_mem_set (hworkers ▸ hx) with hx | rfl
    · exact h.workers x hx
    · exact hfits'

/-! ## 7. Steps of `ProcessAccept` -/

section Advance

variable {stage : Conn → Stage} {sockOf : Conn → Sock} {c : Conn} {y : Stage}

theorem Operation.At.advance {op : Operation} {at_ : Stage} (h : op.At stage sockOf at_)
    (hc : op.conn ≠ c) : op.At (Function.update stage c y) sockOf at_ :=
  ⟨h.1, by rw [Function.update_of_ne hc]; exact h.2⟩

theorem Operation.Fits.advance {op : Operation} (h : op.Fits stage sockOf)
    (hc : op.chain? ≠ some c) : op.Fits (Function.update stage c y) sockOf := by
  refine ⟨h.1, fun haccept => ?_⟩
  rw [Operation.chain?, haccept, if_neg (by decide)] at hc
  rw [Function.update_of_ne fun heq => hc (congrArg some heq)]
  exact h.2 haccept

-- a connection that is listed is not the one that advances
theorem listed_advance (hl : ∀ connID pSock, stage c ≠ .listed connID pSock) {d : Conn}
    {connID : UInt32} {pSock : Addr} (h : stage d = .listed connID pSock) :
    Function.update stage c y d = .listed connID pSock := by
  by_cases hdc : d = c
  · exact absurd (hdc ▸ h) (hl connID pSock)
  · rw [Function.update_of_ne hdc, h]

theorem Entry.Fits.advance {e : Entry} (h : e.Fits stage sockOf) (hc : e.chain? ≠ some c)
    (hl : ∀ connID pSock, stage c ≠ .listed connID pSock) :
    e.Fits (Function.update stage c y) sockOf := by
  cases e with
  | accept => trivial
  | disconnect dwConnID => trivial
  | completion pSock op result dwBytes =>
    refine ⟨h.1.advance hc, fun hso => ?_⟩
    obtain ⟨connID, hlisted⟩ := h.2 hso
    exact ⟨connID, listed_advance hl hlisted⟩

theorem Worker.Fits.advance {w : Worker} (h : w.Fits stage sockOf) (hc : w.chain? ≠ some c)
    (hl : ∀ connID pSock, stage c ≠ .listed connID pSock) :
    w.Fits (Function.update stage c y) sockOf := by
  have hne {d : Conn} (hd : some d ≠ some c) : d ≠ c := fun heq => hd (congrArg some heq)
  cases w with
  | getIo sockClient conn =>
    refine ⟨h.1, ?_⟩
    rw [Function.update_of_ne (hne hc)]
    exact h.2
  | postAccept sockClient op => exact ⟨h.1, h.2.advance (hne hc)⟩
  | readId pSock op result dwBytes =>
    refine ⟨h.1.advance hc, fun hso => ?_⟩
    obtain ⟨connID, hlisted⟩ := h.2 hso
    exact ⟨connID, listed_advance hl hlisted⟩
  | examine pSock connID op result dwBytes =>
    exact ⟨h.1.advance hc, fun hso => listed_advance hl (h.2 hso)⟩
  | postNext op => exact Operation.At.advance h (hne hc)
  | increment op again => exact Operation.At.advance h (hne hc)
  | getSocket op connID => exact Operation.At.advance h (hne hc)
  | fillSocket op connID pSock => exact Operation.At.advance h (hne hc)
  | addClient op connID pSock => exact Operation.At.advance h (hne hc)
  | associate op connID pSock => exact Operation.At.advance h (hne hc)
  | saveData pSock connID op dwBytes => exact Operation.At.advance h (hne hc)
  | firstReceive op =>
    obtain ⟨connID, pSock, hat⟩ := h
    exact ⟨connID, pSock, hat.advance (hne hc)⟩
  | nextReceive connID op =>
    obtain ⟨pSock, hat⟩ := h
    exact ⟨pSock, hat.advance (hne hc)⟩
  | find cause connID pIo =>
    cases cause with
    | none => trivial
    | some conn =>
      obtain ⟨pSock, hlisted⟩ := h
      exact ⟨pSock, listed_advance hl hlisted⟩
  | close cause connID pSock pIo =>
    cases cause with
    | none => trivial
    | some conn => exact listed_advance hl h
  | _ => trivial

end Advance

/-- Where the chain of a connection goes on in a worker, it goes on nowhere else. -/
theorem Inv.others {s : Server} (h : Inv s) {i : Nat} {w : Worker} (hw : s.workers[i]? = some w)
    {c : Conn} (hc : w.chain? = some c) :
    (∀ op ∈ s.posted, op.chain? ≠ some c) ∧ (∀ e ∈ s.queue, e.chain? ≠ some c) ∧
      ∀ w', ∀ x ∈ s.workers.set i w', x = w' ∨ x ∈ s.workers ∧ x.chain? ≠ some c := by
  obtain ⟨hi, rfl⟩ := List.getElem?_eq_some_iff.mp hw
  have hcount := h.chain c
  have hsplit (w' : Worker) := @List.exists_of_set _ _ w' _ hi
  have hle : 1 ≤ s.workers.countP (fun w => w.chain? = some c) :=
    List.countP_pos_iff.mpr ⟨_, List.mem_of_getElem? hw, by simpa using hc⟩
  rw [chainCount] at hcount
  refine ⟨fun op hop hop' => ?_, fun e he he' => ?_, fun w' x hx => ?_⟩
  · have : 0 < s.posted.countP (fun op => op.chain? = some c) :=
      List.countP_pos_iff.mpr ⟨op, hop, by simpa using hop'⟩
    omega
  · have : 0 < s.queue.countP (fun e => e.chain? = some c) :=
      List.countP_pos_iff.mpr ⟨e, he, by simpa using he'⟩
    omega
  · obtain ⟨l₁, l₂, hl, -, hset⟩ := hsplit w'
    have hone : s.workers.countP (fun w => w.chain? = some c) =
        l₁.countP (fun w => w.chain? = some c) + l₂.countP (fun w => w.chain? = some c) + 1 := by
      conv_lhs => rw [hl]
      rw [List.countP_append, List.countP_cons]
      simp only [hc, decide_true, if_true]
      omega
    have hnot {l : List Worker} (hl : l.countP (fun w => w.chain? = some c) = 0) {x : Worker}
        (hx : x ∈ l) : x.chain? ≠ some c := by
      simpa using List.countP_eq_zero.mp hl x hx
    rw [hset] at hx
    rw [hl]
    simp only [List.mem_append, List.mem_cons] at hx ⊢
    rcases hx with hx | rfl | hx
    · exact .inr ⟨.inl hx, hnot (by omega) hx⟩
    · exact .inl rfl
    · exact .inr ⟨.inr (.inr hx), hnot (by omega) hx⟩

/-- `ProcessAccept` comes one stage further with its connection. -/
theorem Inv.advance {s t : Server} (h : Inv s) {i : Nat} {w w' : Worker} {c : Conn} {y : Stage}
    (hw : s.workers[i]? = some w) (hconn : w.conn? = some c) (hchain : w.chain? = some c)
    (hconn' : w'.conn? = some c) (hchain' : w'.chain? = some c)
    (hnot : ∀ connID pSock, s.stage c ≠ .listed connID pSock)
    (hstage : t.stage = Function.update s.stage c y) (hworkers : t.workers = s.workers.set i w')
    (hsame : t.posted = s.posted ∧ t.queue = s.queue ∧ t.handles = s.handles ∧
      t.sockOf = s.sockOf ∧ t.key = s.key ∧ t.count = s.count)
    (hself : Sound t c) (hsound : ∀ d, InUse s d → d ≠ c → Sound t d)
    (hapart : ∀ d, InUse s d → d ≠ c →
      (∀ connID, y.connID? = some connID → (s.stage d).connID? ≠ some connID) ∧
        ∀ pSock, y.pSock? = some pSock → (s.stage d).pSock? ≠ some pSock)
    (hfits : w'.Fits t.stage t.sockOf) : Inv t := by
  obtain ⟨hposted, hqueue, hhandles, hsockOf, hkey, hcount⟩ := hsame
  obtain ⟨hops, hentries, hothers⟩ := h.others hw hchain
  have hcuse : InUse s c := .inr (.inr (.inr ⟨w, List.mem_of_getElem? hw, hconn⟩))
  have huse : ∀ d, InUse t d → InUse s d := by
    rintro d (hopen | hop | he | ⟨x, hx, hxd⟩)
    · exact .inl (hhandles ▸ hsockOf ▸ hopen)
    · exact .inr (.inl (hposted ▸ hop))
    · exact .inr (.inr (.inl (hqueue ▸ he)))
    · exact inUse_of_mem_set hw (fun d hd => by rw [← hd, hconn', hconn]) (hworkers ▸ hx) hxd
  have hstaged {d : Conn} (hd : d ≠ c) : t.stage d = s.stage d := by
    rw [hstage, Function.update_of_ne hd]
  have hstagec : t.stage c = y := by rw [hstage, Function.update_self]
  constructor
  case sound =>
    intro d hd
    by_cases hdc : d = c
    · exact hdc ▸ hself
    · exact hsound d (huse d hd) hdc
  -- of two connections one may be `c`, whose id or context is new
  case apart =>
    intro d e hd he hne
    have := h.apart d e (huse d hd) (huse e he) hne
    by_cases hdc : d = c
    · subst hdc
      obtain ⟨hid, hp⟩ := hapart e (huse e he) hne.symm
      refine ⟨hsockOf ▸ this.sock, ?_, ?_⟩
      · rw [hstagec, hstaged hne.symm]
        exact hid
      · rw [hstagec, hstaged hne.symm]
        exact hp
    · by_cases hec : e = c
      · subst hec
        obtain ⟨hid, hp⟩ := hapart d (huse d hd) hne
        refine ⟨hsockOf ▸ this.sock, ?_, ?_⟩
        · rw [hstagec, hstaged hne]
          exact fun connID hd' hy => hid connID hy hd'
        · rw [hstagec, hstaged hne]
          exact fun pSock hd' hy => hp pSock hy hd'
      · refine ⟨hsockOf ▸ this.sock, ?_, ?_⟩
        · rw [hstaged hdc, hstaged hec]
          exact this.connID
        · rw [hstaged hdc, hstaged hec]
          exact this.pSock
  case handles =>
    rw [hhandles, hsockOf]
    exact h.handles
  case below => exact fun d hd => hcount ▸ h.below d (huse d hd)
  -- `c` was opened before, so no later one is `c`
  case fresh =>
    intro d hd
    rw [hcount] at hd
    have hdc : d ≠ c := fun heq => Nat.not_lt.mpr hd (heq ▸ h.below c hcuse)
    rw [hstaged hdc, hkey]
    exact h.fresh d hd
  case chain =>
    intro d
    have hset := countP_set hw w' (fun w => w.chain? = some d)
    rw [hchain, hchain'] at hset
    have := h.chain d
    rw [chainCount] at this ⊢
    rw [hposted, hqueue, hworkers]
    omega
  case posted =>
    rw [hposted, hstage, hsockOf]
    exact fun op hop => (h.posted op hop).advance (hops op hop)
  case queue =>
    rw [hqueue, hstage, hsockOf]
    exact fun e he => (h.queue e he).advance (hentries e he) hnot
  case workers =>
    rw [hworkers]
    intro x hx
    rcases hothers w' x hx with rfl | ⟨hx, hxc⟩
    · exact hfits
    · rw [hstage, hsockOf]
      exact (h.workers x hx).advance hxc hnot

end VerifyServer.Socket
