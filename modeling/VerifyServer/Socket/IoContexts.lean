import VerifyServer.Socket.Receives
import VerifyServer.Socket.Reuse

/-!
# IoContexts — which `IO_CONTEXT` is where

The server hands on the contents of an `IO_CONTEXT`.  Here each context has a number, and the numbers
move beside the server the way the pointers do: from the free list to a worker or to a call of
`_send`, with the operation that is posted, into the completion queue, and back.
-/

open VerifyServer.Reasoning

namespace VerifyServer.Socket

/-! ## 1. Where the contexts are -/

/-- An `IO_CONTEXT`.  They are counted in the order in which `new` made them. -/
abbrev Io := Nat

/-- Each list goes with the server's list of that name, and has `none` for what has no context. -/
structure IoContexts where
  made : Io := 0
  deleted : List Io := []
  m_lsFreeIOContext : List Io := []
  posted : List Io := []
  queue : List (Option Io) := []
  workers : List (Option Io) := []
  senders : List (Option Io) := []
  deriving DecidableEq, Repr

/-- The context an entry was posted with. -/
def Entry.pIo? : Entry → Option IoContext
  | .completion _ op _ _ => some op.pIo
  | .accept | .disconnect _ => none

/-- The context a worker still uses. -/
def Worker.pIo? : Worker → Option IoContext
  | .postAccept _ op | .closeClient _ op | .readId _ op _ _ | .examine _ _ op _ _ | .closeAccept op
  | .postNext op | .increment op _ | .getSocket op _ | .fillSocket op _ _ | .addClient op _ _
  | .associate op _ _ | .firstReceive op | .saveData _ _ op _ | .nextReceive _ op => some op.pIo
  | .postAgain pIo | .addIo pIo => some pIo
  | .find _ _ pIo | .close _ _ _ pIo | .pool _ _ pIo => pIo
  | .dequeue | .openSocket | .noSocket | .getIo _ _ | .findDisconnect _ => none

def Sender.pIo? : Sender → Option IoContext
  | .readSocket _ pIo | .postSend pIo | .addIo pIo => some pIo
  | .find _ _ | .getIo _ _ | .done => none

/-- The contexts after `Start`. -/
def startedContexts (n m : Nat) : IoContexts where
  queue := List.replicate m none
  workers := List.replicate n none

/-! ## 2. How they move -/

/-- `GetFreeIOContext`. -/
def IoContexts.getFreeIOContext (c : IoContexts) : Io × IoContexts :=
  match c.m_lsFreeIOContext with
  | [] => (c.made, { c with made := c.made + 1 })
  | io :: free => (io, { c with m_lsFreeIOContext := free })

/-- `AddFreeIOContext(pIO)`. -/
def IoContexts.addFreeIOContext (c : IoContexts) (io : Io) : IoContexts :=
  let free := c.m_lsFreeIOContext ++ [io]
  let surplus := if freeIOHold < free.length then free.length - freeIOPool else 0
  { c with m_lsFreeIOContext := free.drop surplus, deleted := c.deleted ++ free.take surplus }

/-- A step of a worker that has `io`, and what it has then. -/
def IoContexts.stepWorker (c : IoContexts) (a : Answer) (io : Option Io) :
    Worker → IoContexts × Option Io
  | .dequeue => ({ c with queue := c.queue.tail }, c.queue.head?.join)
  | .noSocket | .getIo _ _ => (c.getFreeIOContext.2, some c.getFreeIOContext.1)
  | .postAccept _ _ | .firstReceive _ | .nextReceive _ _ =>
    if a.success then ({ c with posted := c.posted ++ io.toList }, io) else (c, io)
  | .postAgain _ | .postNext _ => ({ c with queue := c.queue ++ [none] }, io)
  | .addIo _ => (io.elim c c.addFreeIOContext, io)
  | _ => (c, io)

def IoContexts.stepSender (c : IoContexts) (a : Answer) (io : Option Io) :
    Sender → IoContexts × Option Io
  | .getIo _ _ => (c.getFreeIOContext.2, some c.getFreeIOContext.1)
  | .postSend _ => if a.success then ({ c with posted := c.posted ++ io.toList }, io) else (c, io)
  | .addIo _ => (io.elim c c.addFreeIOContext, io)
  | _ => (c, io)

/-- A context nobody uses any more is not at hand. -/
def whileUsed (pIo : Option IoContext) (io : Option Io) : Option Io :=
  if pIo.isSome then io else none

/-- The contexts when the server goes from `s` to `t`. -/
def IoContexts.follow (c : IoContexts) (s t : Server) : Label → IoContexts
  | .worker i a =>
    let r := c.stepWorker a (c.workers[i]?.join) (s.workers[i]?.getD .dequeue)
    { r.1 with workers := c.workers.set i (whileUsed (t.workers[i]?.bind Worker.pIo?) r.2) }
  | .send _ _ => { c with senders := c.senders ++ [none] }
  | .sender i a =>
    let r := c.stepSender a (c.senders[i]?.join) (s.senders[i]?.getD .done)
    { r.1 with senders := c.senders.set i (whileUsed (t.senders[i]?.bind Sender.pIo?) r.2) }
  | .disconnect _ => c
  | .postDisconnect _ => { c with queue := c.queue ++ [none] }
  | .complete i result bytes =>
    let entry := s.posted[i]?.bind fun op => completed? s op result bytes
    { c with
      posted := c.posted.eraseIdx i
      queue := c.queue ++ entry.toList.map fun _ => c.posted[i]? }

/-- The server with its contexts. -/
def stepContexts (save : IoContext → List UInt8 → Saved) (x : Server × IoContexts) (l : Label) :
    Option (Server × IoContexts) :=
  (step save x.1 l).map fun t => (t, x.2.follow x.1 t l)

theorem stepContexts_server (save : IoContext → List UInt8 → Saved) (x : Server × IoContexts)
    (l : Label) : (stepContexts save x l).map Prod.fst = step save x.1 l := by
  rw [stepContexts, Option.map_map]
  exact Option.map_id'

/-! ## 3. Each context of the server has a number -/

/-- There is a number wherever the server has a context, and nowhere else. -/
structure IoContexts.InStep (c : IoContexts) (s : Server) : Prop where
  free : c.m_lsFreeIOContext.length = s.m_lsFreeIOContext.length
  posted : c.posted.length = s.posted.length
  queue : c.queue.map Option.isSome = s.queue.map fun e => e.pIo?.isSome
  workers : c.workers.map Option.isSome = s.workers.map fun w => w.pIo?.isSome
  senders : c.senders.map Option.isSome = s.senders.map fun w => w.pIo?.isSome

theorem dispatch_pIo (e : Entry) : e.dispatch.pIo? = e.pIo? := by
  cases e <;> rfl

theorem resume_pIo (pIo : Option IoContext) : (Worker.resume pIo).pIo? = pIo := by
  cases pIo <;> rfl

theorem completed_pIo {s : Server} {op : Operation} {result : Bool} {bytes : List UInt8} {e : Entry}
    (h : completed? s op result bytes = some e) : e.pIo?.isSome = true := by
  unfold completed? at h
  split at h
  · cases h
    rfl
  · have ⟨pSock, _, he⟩ := Option.map_eq_some_iff.mp h
    cases he
    rfl

theorem receive_inStep (save : IoContext → List UInt8 → Saved) (s : Server) (connID : UInt32)
    (op : Operation) (dwBytes : Nat) (w : Worker) {c : IoContexts} (h : c.InStep s) :
    c.InStep { (receive save s connID op dwBytes w).1 with workers := s.workers } := by
  unfold receive
  simp only
  split
  · exact ⟨h.free, h.posted, h.queue, h.workers, h.senders⟩
  · exact ⟨h.free, h.posted, h.queue, h.workers, h.senders⟩

theorem whileUsed_isSome {pIo : Option IoContext} {io : Option Io}
    (h : pIo.isSome = true → io.isSome = true) : (whileUsed pIo io).isSome = pIo.isSome := by
  rw [whileUsed]
  split
  · next hused => rw [h hused, hused]
  · next hunused => exact (Bool.eq_false_of_not_eq_true hunused).symm

section InStep

variable {c : IoContexts} {s t : Server} {a : Answer} {io : Option Io}

theorem IoContexts.InStep.getFree (h : c.InStep s) : c.getFreeIOContext.2.InStep
    { s with m_lsFreeIOContext := (Socket.getFreeIOContext s.m_lsFreeIOContext).2 } := by
  have hlength := h.free
  cases hc : c.m_lsFreeIOContext with
  | nil =>
    rw [hc] at hlength
    have hs : s.m_lsFreeIOContext = [] := List.eq_nil_of_length_eq_zero hlength.symm
    rw [IoContexts.getFreeIOContext, hc, hs]
    exact ⟨rfl, h.posted, h.queue, h.workers, h.senders⟩
  | cons first free =>
    cases hs : s.m_lsFreeIOContext with
    | nil =>
      rw [hc, hs] at hlength
      cases hlength
    | cons pIo rest =>
      rw [hc, hs] at hlength
      rw [IoContexts.getFreeIOContext, hc]
      exact ⟨Nat.succ.inj hlength, h.posted, h.queue, h.workers, h.senders⟩

theorem IoContexts.InStep.addFree (h : c.InStep s) (io : Io) (pIo : IoContext) :
    (c.addFreeIOContext io).InStep
      { s with m_lsFreeIOContext := Socket.addFreeIOContext s.m_lsFreeIOContext pIo } := by
  refine ⟨?_, h.posted, h.queue, h.workers, h.senders⟩
  have hlength : (c.m_lsFreeIOContext ++ [io]).length = (s.m_lsFreeIOContext ++ [pIo]).length := by
    rw [List.length_append, List.length_append, h.free]
    rfl
  show ((c.m_lsFreeIOContext ++ [io]).drop _).length =
    (Socket.addFreeIOContext s.m_lsFreeIOContext pIo).length
  rw [Socket.addFreeIOContext, hlength]
  by_cases hfull : freeIOHold < (s.m_lsFreeIOContext ++ [pIo]).length
  · rw [if_pos hfull, if_pos hfull, List.length_drop, List.length_drop, hlength]
  · rw [if_neg hfull, if_neg hfull, List.drop_zero, hlength]

theorem IoContexts.InStep.post (h : c.InStep s) (hio : io.isSome = true) (op : Operation) :
    ({ c with posted := c.posted ++ io.toList } : IoContexts).InStep
      { s with posted := s.posted ++ [op] } := by
  have ⟨number, hnumber⟩ := Option.isSome_iff_exists.mp hio
  refine ⟨h.free, ?_, h.queue, h.workers, h.senders⟩
  show (c.posted ++ io.toList).length = (s.posted ++ [op]).length
  rw [hnumber, List.length_append, List.length_append, h.posted]
  rfl

theorem IoContexts.InStep.enqueue (h : c.InStep s) (e : Entry) (hio : io.isSome = e.pIo?.isSome) :
    ({ c with queue := c.queue ++ [io] } : IoContexts).InStep
      { s with queue := s.queue ++ [e] } := by
  refine ⟨h.free, h.posted, ?_, h.workers, h.senders⟩
  show (c.queue ++ [io]).map _ = (s.queue ++ [e]).map _
  rw [List.map_append, List.map_append, h.queue, List.map_singleton, List.map_singleton, hio]

theorem WorkerStep.inStep {save : IoContext → List UInt8 → Saved} {w w' : Worker}
    (h : c.InStep s) (hstep : WorkerStep save s a w t w') (hio : io.isSome = w.pIo?.isSome) :
    (c.stepWorker a io w).1.InStep { t with workers := s.workers } ∧
      (w'.pIo?.isSome = true → (c.stepWorker a io w).2.isSome = true) := by
  cases hstep with
  | @dequeue e queue hqueue =>
    have hq := h.queue
    rw [hqueue] at hq
    cases hc : c.queue with
    | nil =>
      rw [hc] at hq
      cases hq
    | cons first rest =>
      rw [hc] at hq
      have ⟨hfirst, hrest⟩ := List.cons.inj hq
      rw [IoContexts.stepWorker, hc, dispatch_pIo]
      exact ⟨⟨h.free, h.posted, hrest, h.workers, h.senders⟩, fun he => hfirst.trans he⟩
  | noSocket => exact ⟨h.getFree, fun _ => rfl⟩
  | getIo => exact ⟨h.getFree, fun _ => rfl⟩
  | @postAccept sockClient op hok =>
    rw [IoContexts.stepWorker, if_pos hok]
    exact ⟨h.post hio op, nofun⟩
  | @firstReceive op conn hok hopen =>
    rw [IoContexts.stepWorker, if_pos hok]
    exact ⟨h.post hio _, nofun⟩
  | @nextReceive connID op conn hok hopen =>
    rw [IoContexts.stepWorker, if_pos hok]
    exact ⟨h.post hio _, nofun⟩
  -- a call that fails leaves the context with the worker
  | acceptFails hfail =>
    rw [IoContexts.stepWorker, hfail]
    exact ⟨h, fun _ => hio⟩
  | firstFails hfail =>
    rw [IoContexts.stepWorker, hfail]
    exact ⟨h, fun _ => hio⟩
  | nextFails hfail =>
    rw [IoContexts.stepWorker, hfail]
    exact ⟨h, fun _ => hio⟩
  | postAgain => exact ⟨h.enqueue .accept rfl, fun _ => hio⟩
  | postNext => exact ⟨h.enqueue .accept rfl, fun _ => hio⟩
  | @addIo pIo =>
    have ⟨number, hnumber⟩ := Option.isSome_iff_exists.mp hio
    rw [IoContexts.stepWorker, hnumber]
    exact ⟨h.addFree number pIo, fun _ => rfl⟩
  | examine => exact ⟨⟨h.free, h.posted, h.queue, h.workers, h.senders⟩, fun _ => hio⟩
  | findNone =>
    rw [resume_pIo]
    exact ⟨⟨h.free, h.posted, h.queue, h.workers, h.senders⟩, fun hsome => hio.trans hsome⟩
  | pool =>
    rw [resume_pIo]
    exact ⟨⟨h.free, h.posted, h.queue, h.workers, h.senders⟩, fun hsome => hio.trans hsome⟩
  | saveData => exact ⟨receive_inStep save s _ _ _ _ h, fun _ => hio⟩
  | _ => exact ⟨⟨h.free, h.posted, h.queue, h.workers, h.senders⟩, fun hsome => hio.trans hsome⟩

theorem SenderStep.inStep {w w' : Sender} (h : c.InStep s) (hstep : SenderStep s a w t w')
    (hio : io.isSome = w.pIo?.isSome) :
    (c.stepSender a io w).1.InStep { t with senders := s.senders } ∧
      (w'.pIo?.isSome = true → (c.stepSender a io w).2.isSome = true) := by
  cases hstep with
  | getIo hfits => exact ⟨h.getFree, fun _ => rfl⟩
  | overrun hlong =>
    have hfree := h.getFree
    exact ⟨⟨hfree.free, hfree.posted, hfree.queue, hfree.workers, hfree.senders⟩, fun _ => rfl⟩
  | @postSend pIo conn hok hopen =>
    rw [IoContexts.stepSender, if_pos hok]
    exact ⟨h.post hio _, nofun⟩
  | sendFails hfail =>
    rw [IoContexts.stepSender, hfail]
    exact ⟨h, fun _ => hio⟩
  | @addIo pIo =>
    have ⟨number, hnumber⟩ := Option.isSome_iff_exists.mp hio
    rw [IoContexts.stepSender, hnumber]
    exact ⟨h.addFree number pIo, fun _ => rfl⟩
  | _ => exact ⟨⟨h.free, h.posted, h.queue, h.workers, h.senders⟩, fun hsome => hio.trans hsome⟩

/-- What is at a position of one list has a number at that position of the other. -/
theorem exists_of_map_isSome {α : Type*} {f : α → Option IoContext} {l : List (Option Io)}
    {m : List α} (h : l.map Option.isSome = m.map fun x => (f x).isSome) {i : Nat} {x : α}
    (hx : m[i]? = some x) : ∃ io, l[i]? = some io ∧ io.isSome = (f x).isSome := by
  have hi := congrArg (·[i]?) h
  simp only [List.getElem?_map, hx, Option.map_some, Option.map_eq_some_iff] at hi
  exact hi

theorem map_set_isSome {α : Type*} {f : α → Option IoContext} {l : List (Option Io)} {m : List α}
    (h : l.map Option.isSome = m.map fun x => (f x).isSome) (i : Nat) {y : α}
    (hy : io.isSome = (f y).isSome) :
    (l.set i io).map Option.isSome = (m.set i y).map fun x => (f x).isSome := by
  rw [List.map_set, List.map_set, h, hy]

theorem IoContexts.InStep.withWorkers {d : IoContexts} {us : List Worker}
    (h : d.InStep { t with workers := us }) {ws : List (Option Io)} {ws' : List Worker}
    (hworkers : ws.map Option.isSome = ws'.map fun w => w.pIo?.isSome) :
    ({ d with workers := ws } : IoContexts).InStep { t with workers := ws' } :=
  ⟨h.free, h.posted, h.queue, hworkers, h.senders⟩

theorem IoContexts.InStep.withSenders {d : IoContexts} {us : List Sender}
    (h : d.InStep { t with senders := us }) {ws : List (Option Io)} {ws' : List Sender}
    (hsenders : ws.map Option.isSome = ws'.map fun w => w.pIo?.isSome) :
    ({ d with senders := ws } : IoContexts).InStep { t with senders := ws' } :=
  ⟨h.free, h.posted, h.queue, h.workers, hsenders⟩

theorem stepContexts_inStep {save : IoContext → List UInt8 → Saved} {x y : Server × IoContexts}
    {l : Label} (h : x.2.InStep x.1) (hy : stepContexts save x l = some y) : y.2.InStep y.1 := by
  have ⟨s, c⟩ := x
  have ⟨t, ht, heq⟩ := Option.map_eq_some_iff.mp hy
  cases heq
  cases step_cases ht with
  | @worker i a w w' u hw hstep =>
    have ⟨io, hio, hsome⟩ := exists_of_map_isSome h.workers hw
    have ⟨hu, hused⟩ := hstep.inStep h hsome
    have hset : (s.workers.set i w')[i]? = some w' :=
      List.getElem?_set_self (List.getElem?_eq_some_iff.mp hw).1
    show IoContexts.InStep (IoContexts.follow c s _ (.worker i a)) _
    simp only [IoContexts.follow, hw, hio, hset, Option.getD_some, Option.join_some,
      Option.bind_some]
    exact hu.withWorkers (map_set_isSome h.workers i (whileUsed_isSome hused))
  | @sender i a w w' u hw hstep =>
    have ⟨io, hio, hsome⟩ := exists_of_map_isSome h.senders hw
    have ⟨hu, hused⟩ := hstep.inStep h hsome
    have hset : (s.senders.set i w')[i]? = some w' :=
      List.getElem?_set_self (List.getElem?_eq_some_iff.mp hw).1
    show IoContexts.InStep (IoContexts.follow c s _ (.sender i a)) _
    simp only [IoContexts.follow, hw, hio, hset, Option.getD_some, Option.join_some,
      Option.bind_some]
    exact hu.withSenders (map_set_isSome h.senders i (whileUsed_isSome hused))
  | @send nID pBuf =>
    show ({ c with senders := c.senders ++ [none] } : IoContexts).InStep
      { s with senders := s.senders ++ [.find nID pBuf] }
    apply h.withSenders
    rw [List.map_append, List.map_append, h.senders]
    rfl
  | disconnect => exact ⟨h.free, h.posted, h.queue, h.workers, h.senders⟩
  | @postDisconnect i nID hcaller =>
    have henqueue : ({ c with queue := c.queue ++ [none] } : IoContexts).InStep _ :=
      h.enqueue (.disconnect nID) rfl
    exact ⟨henqueue.free, henqueue.posted, henqueue.queue, henqueue.workers, henqueue.senders⟩
  -- a completion takes the context from the posted ones to the queue
  | @complete i result bytes op hop =>
    have hlt : i < c.posted.length := h.posted ▸ (List.getElem?_eq_some_iff.mp hop).1
    show ({ c with
      posted := c.posted.eraseIdx i
      queue := c.queue ++ (s.posted[i]?.bind fun op => completed? s op result bytes).toList.map
        fun _ => c.posted[i]? } : IoContexts).InStep
      { s with
        posted := s.posted.eraseIdx i
        queue := s.queue ++ (completed? s op result bytes).toList }
    refine ⟨h.free, ?_, ?_, h.workers, h.senders⟩
    · show (c.posted.eraseIdx i).length = (s.posted.eraseIdx i).length
      rw [List.length_eraseIdx, List.length_eraseIdx, h.posted]
    · rw [hop, Option.bind_some, List.map_append, List.map_append, h.queue,
        List.getElem?_eq_getElem hlt]
      cases hentry : completed? s op result bytes with
      | none => rfl
      | some e =>
        show _ ++ [true] = _ ++ [e.pIo?.isSome]
        rw [completed_pIo hentry]

end InStep

/-! ## 4. No context is in two places -/

/-- The number of places where a context is: to be made, in a list, in somebody's hands, deleted. -/
def IoContexts.places (c : IoContexts) (io : Io) : Nat :=
  (if c.made ≤ io then 1 else 0) + c.m_lsFreeIOContext.count io + c.deleted.count io +
    c.posted.count io + c.queue.count (some io) + c.workers.count (some io) +
      c.senders.count (some io)

def IoContexts.Single (c : IoContexts) : Prop := ∀ io, c.places io ≤ 1

theorem count_toList (held : Option Io) (io : Io) :
    held.toList.count io = if held = some io then 1 else 0 := by
  cases held with
  | none => rfl
  | some number =>
    rw [Option.toList_some, List.count_singleton]
    by_cases hsame : number = io
    · rw [if_pos (beq_iff_eq.mpr hsame), if_pos (congrArg some hsame)]
    · rw [if_neg (fun h => hsame (beq_iff_eq.mp h)), if_neg (fun h => hsame (Option.some.inj h))]

theorem count_set {l : List (Option Io)} {i : Nat} {old : Option Io} (h : l[i]? = some old)
    (new : Option Io) (io : Io) : (l.set i new).count (some io) + (if old = some io then 1 else 0) =
      l.count (some io) + if new = some io then 1 else 0 := by
  have hset := countP_set h new (· == some io)
  simp only [beq_iff_eq] at hset
  exact hset

theorem whileUsed_places {d : IoContexts} {pIo : Option IoContext} {held : Option Io} {io : Io}
    {n : Nat} (h : d.places io + (if held = some io then 1 else 0) ≤ n) :
    d.places io + (if whileUsed pIo held = some io then 1 else 0) ≤ n := by
  rw [whileUsed]
  split
  · exact h
  · exact Nat.le_trans (Nat.le_add_right _ _) h

section Places

variable (c : IoContexts)

theorem getFreeIOContext_places (io : Io) : c.getFreeIOContext.2.places io +
    (if some c.getFreeIOContext.1 = some io then 1 else 0) = c.places io := by
  rw [IoContexts.getFreeIOContext]
  split
  · simp only [IoContexts.places, Option.some.injEq]
    by_cases hnew : c.made = io
    · have hmade : ¬c.made + 1 ≤ io := hnew ▸ Nat.not_succ_le_self _
      rw [if_pos hnew, if_pos (Nat.le_of_eq hnew), if_neg hmade]
      omega
    · rw [if_neg hnew, Nat.add_zero]
      by_cases hle : c.made ≤ io
      · have hmade : c.made + 1 ≤ io := Nat.lt_of_le_of_ne hle hnew
        rw [if_pos hle, if_pos hmade]
      · have hmade : ¬c.made + 1 ≤ io := fun h => hle (Nat.le_of_succ_le h)
        rw [if_neg hle, if_neg hmade]
  · next first free hfree =>
    simp only [IoContexts.places, hfree, List.count_cons, beq_iff_eq, Option.some.injEq]
    omega

theorem addFreeIOContext_places (held : Option Io) (io : Io) :
    (held.elim c c.addFreeIOContext).places io =
      c.places io + if held = some io then 1 else 0 := by
  cases held with
  | none => rfl
  | some number =>
    have hadded : (c.m_lsFreeIOContext ++ [number]).count io =
        c.m_lsFreeIOContext.count io + if some number = some io then 1 else 0 := by
      rw [List.count_append, List.count_singleton]
      simp only [beq_iff_eq, Option.some.injEq]
    dsimp only [Option.elim_some, IoContexts.places, IoContexts.addFreeIOContext]
    -- what is deleted is the part of the list that is cut off
    generalize c.m_lsFreeIOContext ++ [number] = free at hadded
    have hcut : ∀ n, (free.drop n).count io + (free.take n).count io = free.count io := by
      intro n
      rw [Nat.add_comm, ← List.count_append, List.take_append_drop]
    have hcut := hcut (if freeIOHold < free.length then free.length - freeIOPool else 0)
    rw [List.count_append]
    omega

theorem post_places (held : Option Io) (io : Io) :
    ({ c with posted := c.posted ++ held.toList } : IoContexts).places io =
      c.places io + if held = some io then 1 else 0 := by
  simp only [IoContexts.places, List.count_append, count_toList]
  omega

theorem enqueue_places (held : Option Io) (io : Io) :
    ({ c with queue := c.queue ++ [held] } : IoContexts).places io =
      c.places io + if held = some io then 1 else 0 := by
  simp only [IoContexts.places, List.count_append, List.count_singleton, beq_iff_eq]
  omega

theorem dequeue_places (io : Io) :
    ({ c with queue := c.queue.tail } : IoContexts).places io +
      (if c.queue.head?.join = some io then 1 else 0) = c.places io := by
  simp only [IoContexts.places]
  cases hqueue : c.queue with
  | nil => rfl
  | cons first rest =>
    rw [List.tail_cons, List.head?_cons, Option.join_some, List.count_cons]
    simp only [beq_iff_eq]
    omega

variable {c}
variable {save : IoContext → List UInt8 → Saved} {s t : Server} {a : Answer}

/-- A step of a worker only moves contexts. -/
theorem WorkerStep.places {w w' : Worker} (hstep : WorkerStep save s a w t w') (held : Option Io)
    (io : Io) : (c.stepWorker a held w).1.places io +
      (if whileUsed w'.pIo? (c.stepWorker a held w).2 = some io then 1 else 0) ≤
        c.places io + if held = some io then 1 else 0 := by
  cases hstep with
  | dequeue =>
    apply whileUsed_places
    exact Nat.le_trans (Nat.le_of_eq (dequeue_places c io)) (Nat.le_add_right _ _)
  | noSocket =>
    apply whileUsed_places
    exact Nat.le_trans (Nat.le_of_eq (getFreeIOContext_places c io)) (Nat.le_add_right _ _)
  | getIo =>
    apply whileUsed_places
    exact Nat.le_trans (Nat.le_of_eq (getFreeIOContext_places c io)) (Nat.le_add_right _ _)
  | postAccept hok =>
    rw [IoContexts.stepWorker, if_pos hok]
    exact Nat.le_of_eq (post_places c held io)
  | firstReceive hok =>
    rw [IoContexts.stepWorker, if_pos hok]
    exact Nat.le_of_eq (post_places c held io)
  | nextReceive hok =>
    rw [IoContexts.stepWorker, if_pos hok]
    exact Nat.le_of_eq (post_places c held io)
  | acceptFails hfail =>
    rw [IoContexts.stepWorker, hfail]
    exact whileUsed_places (Nat.le_refl _)
  | firstFails hfail =>
    rw [IoContexts.stepWorker, hfail]
    exact whileUsed_places (Nat.le_refl _)
  | nextFails hfail =>
    rw [IoContexts.stepWorker, hfail]
    exact whileUsed_places (Nat.le_refl _)
  | postAgain =>
    apply whileUsed_places
    exact Nat.add_le_add_right (Nat.le_of_eq (enqueue_places c none io)) _
  | postNext =>
    apply whileUsed_places
    exact Nat.add_le_add_right (Nat.le_of_eq (enqueue_places c none io)) _
  | addIo => exact Nat.le_of_eq (addFreeIOContext_places c held io)
  | _ => exact whileUsed_places (Nat.le_refl _)

theorem SenderStep.places {w w' : Sender} (hstep : SenderStep s a w t w') (held : Option Io)
    (io : Io) : (c.stepSender a held w).1.places io +
      (if whileUsed w'.pIo? (c.stepSender a held w).2 = some io then 1 else 0) ≤
        c.places io + if held = some io then 1 else 0 := by
  cases hstep with
  | getIo hfits =>
    apply whileUsed_places
    exact Nat.le_trans (Nat.le_of_eq (getFreeIOContext_places c io)) (Nat.le_add_right _ _)
  | overrun hlong =>
    apply whileUsed_places
    exact Nat.le_trans (Nat.le_of_eq (getFreeIOContext_places c io)) (Nat.le_add_right _ _)
  | postSend hok =>
    rw [IoContexts.stepSender, if_pos hok]
    exact Nat.le_of_eq (post_places c held io)
  | sendFails hfail =>
    rw [IoContexts.stepSender, hfail]
    exact whileUsed_places (Nat.le_refl _)
  | addIo => exact Nat.le_of_eq (addFreeIOContext_places c held io)
  | _ => exact whileUsed_places (Nat.le_refl _)

theorem workers_places {d : IoContexts} {ws : List (Option Io)} (hworkers : d.workers = ws)
    {i : Nat} {held : Option Io} (hold : ws[i]? = some held) (next : Option Io) (io : Io) :
    ({ d with workers := ws.set i next } : IoContexts).places io +
      (if held = some io then 1 else 0) = d.places io + if next = some io then 1 else 0 := by
  have hset := count_set hold next io
  dsimp only [IoContexts.places]
  rw [hworkers]
  omega

theorem senders_places {d : IoContexts} {ws : List (Option Io)} (hsenders : d.senders = ws)
    {i : Nat} {held : Option Io} (hold : ws[i]? = some held) (next : Option Io) (io : Io) :
    ({ d with senders := ws.set i next } : IoContexts).places io +
      (if held = some io then 1 else 0) = d.places io + if next = some io then 1 else 0 := by
  have hset := count_set hold next io
  dsimp only [IoContexts.places]
  rw [hsenders]
  omega

theorem complete_places {i : Nat} {number : Io} (hi : c.posted[i]? = some number)
    (entry : Option Entry) (io : Io) :
    ({ c with
      posted := c.posted.eraseIdx i
      queue := c.queue ++ entry.toList.map fun _ => c.posted[i]? } : IoContexts).places io ≤
        c.places io := by
  have herase : (c.posted.eraseIdx i).count io + (if number == io then 1 else 0) =
      c.posted.count io := countP_eraseIdx hi (· == io)
  have hqueued : (entry.toList.map fun _ => c.posted[i]?).count (some io) ≤
      if number == io then 1 else 0 := by
    cases entry with
    | none => exact Nat.zero_le _
    | some e =>
      rw [Option.toList_some, List.map_singleton, List.count_singleton, hi]
      simp only [beq_iff_eq, Option.some.injEq]
      exact Nat.le_refl _
  dsimp only [IoContexts.places]
  rw [List.count_append]
  omega

theorem getFreeIOContext_hands (c : IoContexts) : c.getFreeIOContext.2.workers = c.workers ∧
    c.getFreeIOContext.2.senders = c.senders := by
  rw [IoContexts.getFreeIOContext]
  split
  · exact ⟨rfl, rfl⟩
  · exact ⟨rfl, rfl⟩

theorem stepWorker_workers (a : Answer) (held : Option Io) (w : Worker) :
    (c.stepWorker a held w).1.workers = c.workers := by
  unfold IoContexts.stepWorker
  split
  · rfl
  · exact (getFreeIOContext_hands c).1
  · exact (getFreeIOContext_hands c).1
  · split <;> rfl
  · split <;> rfl
  · split <;> rfl
  · rfl
  · rfl
  · cases held <;> rfl
  · rfl

theorem stepSender_senders (a : Answer) (held : Option Io) (w : Sender) :
    (c.stepSender a held w).1.senders = c.senders := by
  unfold IoContexts.stepSender
  split
  · exact (getFreeIOContext_hands c).2
  · split <;> rfl
  · cases held <;> rfl
  · rfl

/-- In a step of the server no context gets a second place. -/
theorem stepContexts_places {x y : Server × IoContexts} {l : Label} (h : x.2.InStep x.1)
    (hy : stepContexts save x l = some y) (io : Io) : y.2.places io ≤ x.2.places io := by
  have ⟨s, c⟩ := x
  have ⟨t, ht, heq⟩ := Option.map_eq_some_iff.mp hy
  cases heq
  show (c.follow s t l).places io ≤ c.places io
  cases step_cases ht with
  | @worker i a w w' u hw hstep =>
    have ⟨held, hheld, hsome⟩ := exists_of_map_isSome h.workers hw
    have hset : (s.workers.set i w')[i]? = some w' :=
      List.getElem?_set_self (List.getElem?_eq_some_iff.mp hw).1
    have hmoved := hstep.places (c := c) held io
    have hhand := workers_places (stepWorker_workers (c := c) a held w) hheld
      (whileUsed w'.pIo? (c.stepWorker a held w).2) io
    simp only [IoContexts.follow, hw, hheld, hset, Option.getD_some, Option.join_some,
      Option.bind_some]
    omega
  | @sender i a w w' u hw hstep =>
    have ⟨held, hheld, hsome⟩ := exists_of_map_isSome h.senders hw
    have hset : (s.senders.set i w')[i]? = some w' :=
      List.getElem?_set_self (List.getElem?_eq_some_iff.mp hw).1
    have hmoved := hstep.places (c := c) held io
    have hhand := senders_places (stepSender_senders (c := c) a held w) hheld
      (whileUsed w'.pIo? (c.stepSender a held w).2) io
    simp only [IoContexts.follow, hw, hheld, hset, Option.getD_some, Option.join_some,
      Option.bind_some]
    omega
  | send =>
    dsimp only [IoContexts.follow, IoContexts.places]
    rw [List.count_append]
    exact Nat.le_refl _
  | disconnect => exact Nat.le_refl _
  | postDisconnect => exact Nat.le_of_eq (enqueue_places c none io)
  | @complete i result bytes op hop =>
    have hlt : i < c.posted.length := h.posted ▸ (List.getElem?_eq_some_iff.mp hop).1
    exact complete_places (List.getElem?_eq_getElem hlt) _ io

end Places

/-! ## 5. Runs -/

/-- An operation with the context is outstanding or its completion is not processed yet, or a worker
or a call of `_send` has taken the context for one. -/
def IoContexts.InUse (c : IoContexts) (io : Io) : Prop :=
  io ∈ c.posted ∨ some io ∈ c.queue ∨ some io ∈ c.workers ∨ some io ∈ c.senders

/-- The receives outstanding on the socket of a connection. -/
def outstandingReceives (s : Server) (conn : Conn) : Nat :=
  s.posted.countP fun op => op.pIo.so = .read && op.conn = conn

structure ContextsKept (s : Server) (c : IoContexts) : Prop where
  inStep : c.InStep s
  freeOnce : c.m_lsFreeIOContext.Nodup
  used : ∀ io, c.InUse io → io ∉ c.m_lsFreeIOContext ∧ io ∉ c.deleted
  handedOut : ¬c.InUse c.getFreeIOContext.1
  oneReceive : ∀ conn, outstandingReceives s conn ≤ 1

theorem IoContexts.Single.freeOnce {c : IoContexts} (h : c.Single) : c.m_lsFreeIOContext.Nodup := by
  apply List.nodup_iff_count_le_one.mpr
  intro io
  have hio := h io
  rw [IoContexts.places] at hio
  omega

theorem IoContexts.InUse.counted {c : IoContexts} {io : Io} (h : c.InUse io) :
    0 < c.posted.count io + c.queue.count (some io) + c.workers.count (some io) +
      c.senders.count (some io) := by
  rcases h with h | h | h | h
  · have := List.count_pos_iff.mpr h
    omega
  · have := List.count_pos_iff.mpr h
    omega
  · have := List.count_pos_iff.mpr h
    omega
  · have := List.count_pos_iff.mpr h
    omega

theorem IoContexts.Single.used {c : IoContexts} (h : c.Single) {io : Io} (hused : c.InUse io) :
    io ∉ c.m_lsFreeIOContext ∧ io ∉ c.deleted ∧ ¬c.made ≤ io := by
  have hio := h io
  have hcount := hused.counted
  rw [IoContexts.places] at hio
  refine ⟨fun hfree => ?_, fun hdeleted => ?_, fun hmade => ?_⟩
  · have := List.count_pos_iff.mpr hfree
    omega
  · have := List.count_pos_iff.mpr hdeleted
    omega
  · rw [if_pos hmade] at hio
    omega

theorem IoContexts.Single.handedOut {c : IoContexts} (h : c.Single) :
    ¬c.InUse c.getFreeIOContext.1 := by
  intro hused
  have ⟨hfree, _, hmade⟩ := h.used hused
  rw [IoContexts.getFreeIOContext] at hfree hmade
  split at hfree
  · next hnone =>
    rw [hnone] at hmade
    exact hmade (Nat.le_refl _)
  · next first free hfirst =>
    rw [hfirst] at hfree
    exact hfree (List.mem_cons_self ..)

theorem outstandingReceives_le (s : Server) (conn : Conn) :
    outstandingReceives s conn ≤ awaiting s conn := by
  apply Nat.le_trans _ (Nat.le_add_right _ _)
  apply List.countP_mono_left
  intro op _ hreceives
  have ⟨hread, hconn⟩ := (Bool.and_eq_true _ _).mp hreceives
  rw [awaits_conn (by rw [of_decide_eq_true hread]; decide)]
  exact hconn

theorem started_inStep (n m : Nat) : (startedContexts n m).InStep (started n m) := by
  refine ⟨rfl, rfl, ?_, ?_, rfl⟩
  · show (List.replicate m none).map _ = (List.replicate m Entry.accept).map _
    rw [List.map_replicate, List.map_replicate]
    rfl
  · show (List.replicate n none).map _ = (List.replicate n Worker.dequeue).map _
    rw [List.map_replicate, List.map_replicate]
    rfl

theorem started_single (n m : Nat) : (startedContexts n m).Single := by
  intro io
  have hnone : ∀ k, (List.replicate k (none : Option Io)).count (some io) = 0 := by
    intro k
    rw [List.count_replicate]
    rfl
  show (if 0 ≤ io then 1 else 0) + 0 + 0 + 0 + (List.replicate m none).count (some io) +
    (List.replicate n none).count (some io) + 0 ≤ 1
  rw [hnone, hnone, if_pos (Nat.zero_le io)]

/-- Whatever fails and however the workers and calls are interleaved, no context gets a second
place. -/
theorem run_single {env : SaveEnv} {n m : Nat} {labels : List Label} {x : Server × IoContexts}
    (hx : run (stepContexts (saveData env)) (started n m, startedContexts n m) labels = some x) :
    x.2.InStep x.1 ∧ x.2.Single := by
  apply run_preserves (I := fun x => x.2.InStep x.1 ∧ x.2.Single) _ _ hx
  · intro x l y h hy
    exact ⟨stepContexts_inStep h.1 hy,
      fun io => Nat.le_trans (stepContexts_places h.1 hy io) (h.2 io)⟩
  · exact ⟨started_inStep n m, started_single n m⟩

/-- What a call of `_send` copies fits a context. -/
def Label.sendFits : Label → Bool
  | .send _ pBuf => pBuf.length ≤ maxBuffer
  | _ => true

def Sender.Fits : Sender → Prop
  | .find _ pBuf | .getIo _ pBuf => pBuf.length ≤ maxBuffer
  | _ => True

/-- No context was written over, and no call is about to. -/
structure Within (s : Server) : Prop where
  senders : ∀ w ∈ s.senders, w.Fits
  crashed : s.crashed ≠ some .overrun

theorem receive_within (save : IoContext → List UInt8 → Saved) (s : Server) (connID : UInt32)
    (op : Operation) (dwBytes : Nat) (w : Worker) :
    (receive save s connID op dwBytes w).1.senders = s.senders ∧
      ((receive save s connID op dwBytes w).1.crashed = some .overrun →
        s.crashed = some .overrun) := by
  unfold receive
  simp only
  split
  · exact ⟨rfl, id⟩
  · exact ⟨rfl, fun h => by cases h⟩

theorem WorkerStep.within {save : IoContext → List UInt8 → Saved} {s t : Server} {a : Answer}
    {w w' : Worker} (hstep : WorkerStep save s a w t w') :
    t.senders = s.senders ∧ (t.crashed = some .overrun → s.crashed = some .overrun) := by
  cases hstep with
  | saveData hcontext => exact receive_within save s _ _ _ _
  | readDeleted hso hcontext => exact ⟨rfl, fun h => by cases h⟩
  | fillDeleted hcontext => exact ⟨rfl, fun h => by cases h⟩
  | saveDeleted hcontext => exact ⟨rfl, fun h => by cases h⟩
  | closeDeleted hcontext => exact ⟨rfl, fun h => by cases h⟩
  | poolDeleted hdeleted => exact ⟨rfl, fun h => by cases h⟩
  | _ => exact ⟨rfl, id⟩

theorem SenderStep.within {s t : Server} {a : Answer} {w w' : Sender}
    (hstep : SenderStep s a w t w') (hw : w.Fits) :
    w'.Fits ∧ (t.crashed = some .overrun → s.crashed = some .overrun) := by
  cases hstep with
  | find hclient => exact ⟨hw, id⟩
  | overrun hlong => exact absurd hw (Nat.not_le_of_lt hlong)
  | readDeleted hcontext => exact ⟨trivial, fun h => by cases h⟩
  | _ => exact ⟨trivial, id⟩

theorem step_within {save : IoContext → List UInt8 → Saved} {s t : Server} {l : Label}
    (h : Within s) (hl : l.sendFits = true) (ht : step save s l = some t) : Within t := by
  cases step_cases ht with
  | worker hw hstep =>
    have ⟨hsenders, hcrashed⟩ := hstep.within
    exact ⟨fun w hw => h.senders w (hsenders ▸ hw), fun hover => h.crashed (hcrashed hover)⟩
  | @send nID pBuf =>
    have hfits : pBuf.length ≤ maxBuffer := of_decide_eq_true hl
    refine ⟨fun w hw => ?_, h.crashed⟩
    rcases List.mem_append.mp hw with hw | hw
    · exact h.senders w hw
    · rw [List.mem_singleton.mp hw]
      exact hfits
  | sender hw hstep =>
    have ⟨hfits, hcrashed⟩ := hstep.within (h.senders _ (List.mem_of_getElem? hw))
    refine ⟨fun w hw => ?_, fun hover => h.crashed (hcrashed hover)⟩
    rcases List.mem_or_eq_of_mem_set hw with hw | rfl
    · exact h.senders w hw
    · exact hfits
  | _ => exact ⟨h.senders, h.crashed⟩

theorem started_within (n m : Nat) : Within (started n m) :=
  ⟨fun _ hw => absurd hw List.not_mem_nil, fun h => by cases h⟩

/-- Where each `PostReceive` is for its own connection and each `_send` fits a context, no socket
gets a second receive either, and no context is written over. -/
theorem run_contexts_kept {env : SaveEnv} {n m : Nat} {labels : List Label}
    {x : Server × IoContexts}
    (hown : RunMeets (step (saveData env)) (fun s l => postsOwn s l = true) (started n m) labels)
    (hfits : ∀ l ∈ labels, l.sendFits = true)
    (hx : run (stepContexts (saveData env)) (started n m, startedContexts n m) labels = some x) :
    ContextsKept x.1 x.2 ∧ x.1.crashed ≠ some .overrun := by
  have ⟨hinStep, hsingle⟩ := run_single hx
  have hserver := run_map (stepContexts_server (saveData env))
    (started n m, startedContexts n m) labels
  rw [hx, Option.map_some] at hserver
  have hone : OneEach x.1 :=
    run_invariant (fun _ _ _ h hl ht => step_oneEach h hl ht) (started_oneEach n m) hown
      hserver.symm
  have hwithin : Within x.1 :=
    run_invariant (fun _ _ _ h hl ht => step_within h hl ht) (started_within n m)
      (runMeets_of_forall (fun _ => hfits) _) hserver.symm
  refine ⟨?_, hwithin.crashed⟩
  exact {
    inStep := hinStep
    freeOnce := hsingle.freeOnce
    used := fun io hused => ⟨(hsingle.used hused).1, (hsingle.used hused).2.1⟩
    handedOut := hsingle.handedOut
    oneReceive := by
      intro conn
      have hle := outstandingReceives_le x.1 conn
      have hconn := hone.one conn
      omega }

/-- A longer message is written over the context as soon as it is copied. -/
theorem long_send_overruns {save : IoContext → List UInt8 → Saved} {s t : Server} {i : Nat}
    {a : Answer} {pSock : Addr} {pBuf : List UInt8} (hw : s.senders[i]? = some (.getIo pSock pBuf))
    (hlong : maxBuffer < pBuf.length) (ht : step save s (.sender i a) = some t) :
    t.crashed = some .overrun := by
  cases step_cases ht with
  | sender hw' hstep =>
    obtain rfl := Option.some.inj (hw.symm.trans hw')
    cases hstep with
    | getIo hfits => exact absurd hfits (Nat.not_le_of_lt hlong)
    | overrun hlong => rfl

/-- The first connection is closed, and the third has its context. -/
theorem run_contexts_kept_close :
    ∃ x, run (stepContexts (saveData ⟨true, fun _ => 0⟩)) (started 1 1, startedContexts 1 1)
      (acceptOn 0 7 ++ [.complete 0 true []] ++ takeAccept 0 3 ++ [.complete 0 true []] ++
        acceptOn 0 8 ++ List.replicate 7 (.worker 0 {}) ++ [.complete 0 true []] ++
        takeAccept 0 4 ++ acceptOn 0 9) = some x ∧
      x.2.made = 2 ∧ x.2.posted = [1, 0] ∧ ContextsKept x.1 x.2 ∧ x.1.crashed ≠ some .overrun := by
  have hrun : (run (stepContexts (saveData ⟨true, fun _ => 0⟩)) (started 1 1, startedContexts 1 1)
      (acceptOn 0 7 ++ [.complete 0 true []] ++ takeAccept 0 3 ++ [.complete 0 true []] ++
        acceptOn 0 8 ++ List.replicate 7 (.worker 0 {}) ++ [.complete 0 true []] ++
        takeAccept 0 4 ++ acceptOn 0 9)).map (fun x => (x.2.made, x.2.posted)) =
      some (2, [1, 0]) := by decide
  have ⟨x, hx, heq⟩ := Option.map_eq_some_iff.mp hrun
  have ⟨hmade, hposted⟩ := Prod.mk.inj heq
  exact ⟨x, hx, hmade, hposted, run_contexts_kept (by decide) (by decide) hx⟩

/-- Before the second worker posts the first receive of a connection, the first worker closes that
connection and accepts another on its handle. -/
theorem second_receive_posted : ¬∀ (env : SaveEnv) (n m : Nat) (labels : List Label)
    (x : Server × IoContexts),
    run (stepContexts (saveData env)) (started n m, startedContexts n m) labels = some x →
      ContextsKept x.1 x.2 := by
  intro h
  let labels := acceptOn 1 7 ++ [.complete 0 true []] ++ (takeAccept 1 3).dropLast ++
    acceptOn 0 8 ++ [.disconnect 1, .postDisconnect 0] ++ List.replicate 5 (.worker 0 {}) ++
    [.complete 0 true []] ++ takeAccept 0 4 ++ acceptOn 0 7 ++ [.complete 1 true []] ++
    takeAccept 0 5 ++ [.worker 1 {}]
  have hrun : (run (stepContexts (saveData ⟨true, fun _ => 0⟩)) (started 2 1, startedContexts 2 1)
      labels).map (fun x => outstandingReceives x.1 2) = some 2 := by decide
  have ⟨x, hx, htwo⟩ := Option.map_eq_some_iff.mp hrun
  have hone := (h _ _ _ _ x hx).oneReceive 2
  rw [htwo] at hone
  exact absurd hone (by decide)

end VerifyServer.Socket
