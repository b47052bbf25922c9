import VerifyServer.Socket.InUse
import VerifyServer.Socket.Steps

/-!
# Receives — the accept or receive that a connection has

A connection begins with its `AcceptEx`.  `ProcessAccept` turns that into the first receive, and
`ProcessReceive` each receive into the next, on whatever socket has the handle in the `IO_CONTEXT`
then.
-/

open VerifyServer.Reasoning

namespace VerifyServer.Socket

/-! ## 1. Where it is -/

/-- The operation accepts or receives for the connection. -/
def Operation.awaits (c : Conn) (op : Operation) : Bool := op.pIo.so ≠ .write && op.conn = c

def Entry.awaits (c : Conn) : Entry → Bool
  | .completion _ op _ _ => op.awaits c
  | _ => false

/-- The worker has it, or is to post it. -/
def Worker.awaits (c : Conn) : Worker → Bool
  | .getIo _ conn => conn = c
  | .postAccept _ op | .readId _ op _ _ | .examine _ _ op _ _ => op.awaits c
  | .postNext op | .increment op _ | .getSocket op _ | .fillSocket op _ _ | .addClient op _ _
  | .associate op _ _ | .firstReceive op | .saveData _ _ op _ | .nextReceive _ op => op.conn = c
  | _ => false

/-- Those of a connection that are outstanding or completed and not yet taken out. -/
def awaiting (s : Server) (c : Conn) : Nat :=
  s.posted.countP (Operation.awaits c) + s.queue.countP (Entry.awaits c)

def heldReceives (s : Server) (c : Conn) : Nat := s.workers.countP (Worker.awaits c)

/-- `PostReceive` is for the connection whose socket has the handle. -/
def postsOwn (s : Server) : Label → Bool
  | .worker i a =>
    match s.workers[i]? with
    | some (.firstReceive op) | some (.nextReceive _ op) =>
      !a.success || s.handles op.pIo.sockAccept = some op.conn
    | _ => true
  | _ => true

/-- A connection has one at most, and a connection to come has none. -/
structure OneEach (s : Server) : Prop where
  one : ∀ c, awaiting s c + heldReceives s c ≤ 1
  fresh : ∀ c, s.count ≤ c → awaiting s c + heldReceives s c = 0

theorem awaiting_post (s : Server) (op : Operation) (c : Conn) :
    awaiting { s with posted := s.posted ++ [op] } c =
      awaiting s c + if op.awaits c then 1 else 0 := by
  show (s.posted ++ [op]).countP _ + s.queue.countP _ = _
  rw [awaiting, List.countP_append, List.countP_singleton]
  omega

theorem awaiting_enqueue (s : Server) (e : Entry) (c : Conn) :
    awaiting { s with queue := s.queue ++ [e] } c =
      awaiting s c + if e.awaits c then 1 else 0 := by
  show s.posted.countP _ + (s.queue ++ [e]).countP _ = _
  rw [awaiting, List.countP_append, List.countP_singleton]
  omega

/-! ## 2. One step -/

theorem dispatch_awaits (e : Entry) (c : Conn) : e.dispatch.awaits c = e.awaits c := by
  cases e with
  | accept => rfl
  | disconnect dwConnID => rfl
  | completion pSock op result dwBytes => rfl

theorem resume_awaits (pIo : Option IoContext) (c : Conn) :
    (Worker.resume pIo).awaits c = false := by
  cases pIo <;> rfl

theorem awaits_conn {op : Operation} {c : Conn} (h : op.pIo.so ≠ .write) :
    op.awaits c = decide (op.conn = c) := by
  rw [Operation.awaits, decide_eq_true h, Bool.true_and]

/-- Examined, it is still there or it has been dropped. -/
theorem examine_awaits (pSock : Addr) (connID : UInt32) (op : Operation) (dwErrorCode : UInt32)
    (dwBytes : Nat) (c : Conn) (h : (examine pSock connID op dwErrorCode dwBytes).awaits c = true) :
    op.awaits c = true := by
  have hcases := examine_cases pSock connID op dwErrorCode dwBytes
  generalize examine pSock connID op dwErrorCode dwBytes = w at h hcases
  cases hcases with
  | accepted herror hso =>
    rw [awaits_conn (by rw [hso]; decide)]
    exact h
  | received herror hso =>
    rw [awaits_conn (by rw [hso]; decide)]
    exact h
  | _ => cases h

variable {save : IoContext → List UInt8 → Saved} {s t : Server} {a : Answer}

variable (save) in
theorem receive_awaits (connID : UInt32) (op : Operation) (dwBytes : Nat) {w : Worker} (c : Conn)
    (hw : w.awaits c = decide (op.conn = c)) :
    awaiting (receive save s connID op dwBytes w).1 c = awaiting s c ∧
      (receive save s connID op dwBytes w).1.count = s.count ∧
        (receive save s connID op dwBytes w).2.awaits c = decide (op.conn = c) := by
  unfold receive
  simp only
  split
  · exact ⟨rfl, rfl, rfl⟩
  · exact ⟨rfl, rfl, hw⟩

theorem handle_own {op : Operation} {conn : Conn} (hok : a.success = true)
    (hopen : s.handles op.pIo.sockAccept = some conn)
    (hown : (!a.success || s.handles op.pIo.sockAccept = some op.conn) = true) :
    conn = op.conn := by
  rw [hok, hopen] at hown
  exact Option.some.inj (of_decide_eq_true hown)

/-- A step makes none, except for the connection it opens. -/
theorem WorkerStep.awaits {i : Nat} {w w' : Worker} (hw : s.workers[i]? = some w)
    (h : WorkerStep save s a w t w') (hown : postsOwn s (.worker i a) = true) (c : Conn) :
    s.count ≤ t.count ∧ awaiting t c + (if w'.awaits c then 1 else 0) ≤
      awaiting s c + (if w.awaits c then 1 else 0) +
        if s.count ≤ c ∧ c < t.count then 1 else 0 := by
  cases h with
  | @dequeue e queue hqueue =>
    refine ⟨Nat.le_refl _, ?_⟩
    rw [dispatch_awaits, awaiting, awaiting, hqueue, List.countP_cons]
    show s.posted.countP _ + queue.countP _ + _ ≤ _
    omega
  -- the connection that is opened gets its one
  | openSocket hok hvalid hfree =>
    refine ⟨Nat.le_succ _, ?_⟩
    show awaiting s c + (if decide (s.count = c) then 1 else 0) ≤
      awaiting s c + 0 + if s.count ≤ c ∧ c < s.count + 1 then 1 else 0
    by_cases hc : s.count = c
    · have hnew : s.count ≤ c ∧ c < s.count + 1 := ⟨Nat.le_of_eq hc, hc ▸ Nat.lt_succ_self _⟩
      rw [if_pos (decide_eq_true hc), if_pos hnew]
    · rw [if_neg (by simpa using hc)]
      omega
  | @getIo sockClient conn =>
    refine ⟨Nat.le_refl _, ?_⟩
    rw [show Worker.awaits c (.getIo sockClient conn) =
      Worker.awaits c (.postAccept sockClient ⟨{ (getFreeIOContext s.m_lsFreeIOContext).1 with
        so := .accept, sockAccept := sockClient }, conn⟩) by simp [Worker.awaits, Operation.awaits]]
    exact Nat.le_add_right _ _
  | postAccept hok =>
    refine ⟨Nat.le_refl _, ?_⟩
    rw [awaiting_post]
    exact Nat.le_add_right _ _
  | @examine pSock connID op result dwBytes =>
    refine ⟨Nat.le_refl _, ?_⟩
    have hexamine := examine_awaits pSock connID op (a.errorCode result)
      (a.transferred result dwBytes) c
    show awaiting s c + _ ≤ awaiting s c + (if op.awaits c then 1 else 0) + _
    split
    · next hmore =>
      rw [if_pos (hexamine hmore)]
      exact Nat.le_add_right _ _
    · omega
  | postAgain =>
    refine ⟨Nat.le_refl _, ?_⟩
    rw [awaiting_enqueue]
    exact Nat.le_add_right _ _
  | postNext =>
    refine ⟨Nat.le_refl _, ?_⟩
    rw [awaiting_enqueue]
    exact Nat.le_add_right _ _
  -- the receive of the operation in hand is posted, on its own connection
  | @firstReceive op conn hok hopen =>
    rw [postsOwn, hw] at hown
    refine ⟨Nat.le_refl _, ?_⟩
    rw [awaiting_post, handle_own hok hopen hown]
    exact Nat.le_add_right _ _
  | @nextReceive connID op conn hok hopen =>
    rw [postsOwn, hw] at hown
    refine ⟨Nat.le_refl _, ?_⟩
    rw [awaiting_post, handle_own hok hopen hown]
    exact Nat.le_add_right _ _
  | @saveData pSock connID op dwBytes context hcontext =>
    have ⟨hawaiting, hcount, hheld⟩ := receive_awaits save (s := s) connID
      { op with pIo.connID := context.connID } dwBytes (w := .saveData pSock connID op dwBytes) c
      rfl
    rw [hcount, hawaiting, hheld]
    exact ⟨Nat.le_refl _, Nat.le_add_right _ _⟩
  | findNone => exact ⟨Nat.le_refl _, by rw [resume_awaits]; exact Nat.le_add_right _ _⟩
  | pool => exact ⟨Nat.le_refl _, by rw [resume_awaits]; exact Nat.le_add_right _ _⟩
  | acceptFails => exact ⟨Nat.le_refl _, by show awaiting s c + 0 ≤ _; omega⟩
  | associateFails => exact ⟨Nat.le_refl _, by show awaiting s c + 0 ≤ _; omega⟩
  | firstFails => exact ⟨Nat.le_refl _, by show awaiting s c + 0 ≤ _; omega⟩
  | nextFails => exact ⟨Nat.le_refl _, by show awaiting s c + 0 ≤ _; omega⟩
  | _ => exact ⟨Nat.le_refl _, Nat.le_add_right _ _⟩

theorem SenderStep.awaits {w w' : Sender} (h : SenderStep s a w t w') (c : Conn) :
    awaiting t c = awaiting s c ∧ t.workers = s.workers ∧ t.count = s.count := by
  cases h with
  | postSend hok hopen => exact ⟨by rw [awaiting_post]; rfl, rfl, rfl⟩
  | _ => exact ⟨rfl, rfl, rfl⟩

theorem completed_awaits (op : Operation) (result : Bool) (bytes : List UInt8) (c : Conn) :
    (completed? s op result bytes).toList.countP (Entry.awaits c) ≤
      if op.awaits c then 1 else 0 := by
  have hsame : Operation.awaits c
      (if op.pIo.so = .read then { op with pIo.wsaBuf := bytes } else op) = op.awaits c := by
    split <;> rfl
  rw [completed?]
  split
  · show [Entry.completion 0 op result bytes.length].countP _ ≤ _
    rw [List.countP_singleton]
    exact Nat.le_refl _
  · cases s.key op.conn with
    | none => exact Nat.zero_le _
    | some pSock =>
      show [Entry.completion pSock _ result bytes.length].countP _ ≤ _
      rw [List.countP_singleton, ← hsame]
      exact Nat.le_refl _

theorem step_oneEach {l : Label} (h : OneEach s) (hown : postsOwn s l = true)
    (ht : step save s l = some t) : OneEach t := by
  have hstep : ∀ c, s.count ≤ t.count ∧ awaiting t c + heldReceives t c ≤
      awaiting s c + heldReceives s c + if s.count ≤ c ∧ c < t.count then 1 else 0 := by
    intro c
    cases step_cases ht with
    | @worker i a w w' u hw hstep =>
      have ⟨hcount, hawaits⟩ := hstep.awaits hw hown c
      have hset := countP_set hw w' (Worker.awaits c)
      refine ⟨hcount, ?_⟩
      show awaiting u c + (s.workers.set i w').countP (Worker.awaits c) ≤
        awaiting s c + s.workers.countP (Worker.awaits c) +
          if s.count ≤ c ∧ c < u.count then 1 else 0
      omega
    | @sender i a w w' u hw hstep =>
      have ⟨hawaits, hworkers, hcount⟩ := hstep.awaits c
      refine ⟨Nat.le_of_eq hcount.symm, ?_⟩
      show awaiting u c + u.workers.countP _ ≤ awaiting s c + s.workers.countP _ + _
      rw [hawaits, hworkers]
      exact Nat.le_add_right _ _
    | @postDisconnect i nID hcaller =>
      refine ⟨Nat.le_refl _, ?_⟩
      show awaiting { s with queue := s.queue ++ [.disconnect nID] } c + heldReceives s c ≤ _
      rw [awaiting_enqueue]
      exact Nat.le_add_right _ _
    | @complete i result bytes op hop =>
      have herase := countP_eraseIdx hop (Operation.awaits c)
      have hcompleted := completed_awaits (s := s) op result bytes c
      refine ⟨Nat.le_refl _, ?_⟩
      show (s.posted.eraseIdx i).countP _ + (s.queue ++ _).countP _ + heldReceives s c ≤ _
      rw [awaiting, List.countP_append]
      omega
    | _ => exact ⟨Nat.le_refl _, Nat.le_add_right _ _⟩
  constructor
  · intro c
    have hone := h.one c
    have hfresh := h.fresh c
    have hc := (hstep c).2
    split at hc
    · next hnew =>
      have := hfresh hnew.1
      omega
    · omega
  · intro c hc
    have ⟨hcount, hle⟩ := hstep c
    have hfresh := h.fresh c (Nat.le_trans hcount hc)
    have hold : ¬(s.count ≤ c ∧ c < t.count) := fun hnew => Nat.not_lt.mpr hc hnew.2
    rw [if_neg hold] at hle
    omega

theorem started_oneEach (n m : Nat) : OneEach (started n m) := by
  have hnone : ∀ c, awaiting (started n m) c + heldReceives (started n m) c = 0 := by
    intro c
    show 0 + (List.replicate m Entry.accept).countP _ +
      (List.replicate n Worker.dequeue).countP _ = 0
    rw [List.countP_replicate, List.countP_replicate]
    rfl
  exact ⟨fun c => by rw [hnone c]; omega, fun c _ => hnone c⟩

end VerifyServer.Socket
