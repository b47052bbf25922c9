import VerifyServer.Reasoning.Run

/-!
# ThreadSocketRecevier — from the socket threads to the worker threads

`CThreadSocketRecevier::Recevie` puts a socket id and a text into a local
`CStringIOCompletePortOverlapped` and posts its address to one of two completion ports.  A worker
thread of the port calls `OverLappedOparete` through the address and then `delete`s it; the class
takes its memory from `CMemPool`, and `delete` gives it back there.

A label is one atomic step of one thread.  A pointer names the object it was made for; what an object
has besides its fields is where it lies and whether its lifetime has ended.
-/

open VerifyServer.Reasoning

namespace VerifyServer.Recevier

/-! ## 1. State -/

/-- UTF-16 code units, as `MyString` holds them in a Unicode build. -/
abbrev Text := List UInt16

/-- A pointer to an object, by its number in order of construction. -/
abbrev Ptr := Nat

inductive Storage where
  | stack
  -- the buffer of one `CMem` of the pool
  | mem (pMem : Nat)
  deriving DecidableEq, Repr

/-- `CStringIOCompletePortOverlapped`. -/
structure Overlapped where
  m_nsocket : UInt32
  m_string : Text
  storage : Storage
  alive : Bool := true
  deriving DecidableEq, Repr

/-- `CMemPool`. -/
structure MemPool where
  m_listFreeMem : List Nat := []
  m_listBusyMem : List Nat := []
  deriving DecidableEq, Repr

/-- `CMemPool::DeleteMem(p)`; no result when `p` does not lie in a `CMem`. -/
def MemPool.deleteMem (pool : MemPool) : Storage → Option MemPool
  | .stack => none
  | .mem pMem =>
    some ⟨pool.m_listFreeMem ++ [pMem], pool.m_listBusyMem.filter (· ≠ pMem)⟩

/-- The program points of `Recevie`: `IOCompletePortPost`, the section on `m_csLock`, the end of the
scope of `p`. -/
inductive Caller where
  | post (p : Ptr)
  | advance (p : Ptr)
  | scopeEnd (p : Ptr)
  | done
  deriving DecidableEq, Repr

/-- The program points of `WorkerThreadProc`: `GetQueuedCompletionStatus`, `OverLappedOparete`,
`delete`, the last with what `RecevieData` was called with. -/
inductive Worker where
  | dequeue
  | operate (pol : Ptr)
  | delete (pol : Ptr) (data : UInt32 × Text)
  deriving DecidableEq, Repr

/-- A worker uses or deletes an object whose lifetime has ended, or deletes one that the pool did not
give out. -/
inductive Violation where
  | dead (pol : Ptr)
  | notAllocated (pol : Ptr)
  deriving DecidableEq, Repr

def nPortCount : Nat := 2

structure ThreadSocketRecevier where
  objects : List Overlapped := []
  -- the queues of `m_pIoCompletePorts`
  queues : List (List Ptr) := List.replicate nPortCount []
  m_nCurPort : Nat := 0
  pool : MemPool := {}
  callers : List Caller := []
  -- every worker with the number of its port
  workers : List (Nat × Worker) := []
  -- the messages posted and the messages a worker is done with, in order
  posted : List (UInt32 × Text) := []
  processed : List (UInt32 × Text) := []
  violation : Option Violation := none
  deriving DecidableEq, Repr

def nInitMaxCount : Nat := 100

/-- `CIOCompletePort()` starts twenty workers, `CreateCompletePort()` two for each processor and
two more. -/
def workerCount (processors : Nat) : Nat := 20 + (processors * 2 + 2)

/-- After `CThreadSocketRecevier(pShareData)`. -/
def constructed (processors : Nat) : ThreadSocketRecevier where
  pool := { m_listFreeMem := List.range nInitMaxCount }
  workers := (List.range nPortCount).flatMap fun port =>
    List.replicate (workerCount processors) (port, .dequeue)

/-! ## 2. Steps -/

inductive Label where
  -- a call of `Recevie`, up to the post; the text is the one built from its buffer
  | recevie (uSokcetID : UInt32) (strData : Text)
  -- a call goes on; `success` is what `PostQueuedCompletionStatus` returns
  | caller (i : Nat) (success : Bool)
  | worker (j : Nat)
  deriving DecidableEq, Repr

def ThreadSocketRecevier.setCaller (s : ThreadSocketRecevier) (i : Nat) (c : Caller) :
    ThreadSocketRecevier :=
  { s with callers := s.callers.set i c }

def ThreadSocketRecevier.setWorker (s : ThreadSocketRecevier) (j : Nat) (port : Nat)
    (w : Worker) : ThreadSocketRecevier :=
  { s with workers := s.workers.set j (port, w) }

/-- The lifetime of an object ends. -/
def ThreadSocketRecevier.endLife (s : ThreadSocketRecevier) (p : Ptr) : ThreadSocketRecevier :=
  { s with objects := s.objects.modify p fun o => { o with alive := false } }

def stepCaller (s : ThreadSocketRecevier) (i : Nat) (success : Bool) :
    Option ThreadSocketRecevier :=
  match s.callers[i]? with
  | some (.post p) =>
    match s.objects[p]? with
    | none => none
    | some o =>
      let s := s.setCaller i (.advance p)
      if success then
        some { s with
          queues := s.queues.modify s.m_nCurPort (· ++ [p])
          posted := s.posted ++ [(o.m_nsocket, o.m_string)] }
      else
        some s
  | some (.advance p) =>
    let next := if s.m_nCurPort < nPortCount - 1 then s.m_nCurPort + 1 else 0
    some { s.setCaller i (.scopeEnd p) with m_nCurPort := next }
  | some (.scopeEnd p) => some ((s.endLife p).setCaller i .done)
  | some .done | none => none

def stepWorker (s : ThreadSocketRecevier) (j : Nat) : Option ThreadSocketRecevier :=
  match s.workers[j]? with
  | none => none
  | some (port, .dequeue) =>
    match s.queues[port]? with
    | some (pol :: rest) =>
      some { s.setWorker j port (.operate pol) with queues := s.queues.set port rest }
    | some [] | none => none
  | some (port, .operate pol) =>
    match s.objects[pol]? with
    | none => none
    | some o =>
      if o.alive then some (s.setWorker j port (.delete pol (o.m_nsocket, o.m_string)))
      else some { s with violation := some (.dead pol) }
  | some (port, .delete pol data) =>
    match s.objects[pol]? with
    | none => none
    | some o =>
      if o.alive then
        match s.pool.deleteMem o.storage with
        | none => some { s with violation := some (.notAllocated pol) }
        | some pool =>
          some { (s.endLife pol).setWorker j port .dequeue with
            pool := pool
            processed := s.processed ++ [data] }
      else
        some { s with violation := some (.dead pol) }

def step (s : ThreadSocketRecevier) (a : Label) : Option ThreadSocketRecevier :=
  -- nothing is said about what follows a violation
  if s.violation.isSome then none
  else
    match a with
    | .recevie uSokcetID strData =>
      some { s with
        objects := s.objects ++ [⟨uSokcetID, strData, .stack, true⟩]
        callers := s.callers ++ [.post s.objects.length] }
    | .caller i success => stepCaller s i success
    | .worker j => stepWorker s j

/-! ## 3. No message is served -/

/-- Every message posted was processed once, with the id and the text of its call, and no worker
used or deleted an object it must not. -/
def ThreadSocketRecevier.Served (s : ThreadSocketRecevier) : Prop :=
  s.violation = none ∧ s.processed.Perm s.posted

/-- All objects lie on a stack, so no worker ever comes back from `delete`; and before a message is
posted the workers have nothing to do. -/
structure Local (s : ThreadSocketRecevier) : Prop where
  stack : ∀ o ∈ s.objects, o.storage = .stack
  processed : s.processed = []
  idle : s.posted = [] →
    s.violation = none ∧ (∀ q ∈ s.queues, q = []) ∧ ∀ w ∈ s.workers, w.2 = .dequeue

theorem local_constructed (processors : Nat) : Local (constructed processors) := by
  refine ⟨by simp [constructed], rfl, fun _ => ⟨rfl, ?_, ?_⟩⟩
  · intro q hq
    exact List.eq_of_mem_replicate hq
  · intro w hw
    obtain ⟨port, -, hw⟩ := List.mem_flatMap.mp hw
    rw [List.eq_of_mem_replicate hw]

theorem endLife_stack {s : ThreadSocketRecevier} (h : ∀ o ∈ s.objects, o.storage = .stack)
    (p : Ptr) : ∀ o ∈ (s.endLife p).objects, o.storage = .stack := by
  intro o ho
  obtain ⟨k, hk, rfl⟩ := List.mem_iff_getElem.mp ho
  have hk' : k < s.objects.length := by simpa [ThreadSocketRecevier.endLife] using hk
  have hold := h _ (List.getElem_mem hk')
  simp only [ThreadSocketRecevier.endLife, List.getElem_modify]
  split <;> exact hold

theorem stepCaller_local {s t : ThreadSocketRecevier} {i : Nat} {success : Bool} (hs : Local s)
    (h : stepCaller s i success = some t) : Local t := by
  unfold stepCaller at h
  split at h
  case h_1 p _ =>
    split at h
    · cases h
    · next o ho =>
      by_cases hpost : success = true
      · rw [if_pos hpost] at h
        cases h
        exact ⟨hs.stack, hs.processed, fun hnil => absurd hnil (by simp)⟩
      · rw [if_neg hpost] at h
        cases h
        exact ⟨hs.stack, hs.processed, hs.idle⟩
  case h_2 p _ =>
    cases h
    exact ⟨hs.stack, hs.processed, hs.idle⟩
  case h_3 p _ =>
    cases h
    exact ⟨endLife_stack hs.stack p, hs.processed, hs.idle⟩
  all_goals cases h

theorem stepWorker_local {s t : ThreadSocketRecevier} {j : Nat} (hs : Local s)
    (h : stepWorker s j = some t) : Local t := by
  -- a worker that has something to do shows that a message was posted
  have hbusy {w : Nat × Worker} (hw : s.workers[j]? = some w) (hne : w.2 ≠ .dequeue) :
      s.posted ≠ [] := fun hnil =>
    hne ((hs.idle hnil).2.2 w (List.mem_of_getElem? hw))
  unfold stepWorker at h
  split at h
  case h_1 => cases h
  case h_2 port hw =>
    split at h
    · next pol rest hq =>
      cases h
      refine ⟨hs.stack, hs.processed, fun hnil => ?_⟩
      cases (hs.idle hnil).2.1 _ (List.mem_of_getElem? hq)
    all_goals cases h
  case h_3 port pol hw =>
    have hne := hbusy hw (by simp)
    split at h
    · cases h
    · split at h <;> cases h <;>
        exact ⟨hs.stack, hs.processed, fun hnil => absurd hnil hne⟩
  case h_4 port pol data hw =>
    have hne := hbusy hw (by simp)
    split at h
    · cases h
    · next o ho =>
      have hstack := hs.stack o (List.mem_of_getElem? ho)
      rw [hstack, MemPool.deleteMem] at h
      split at h <;> cases h <;>
        exact ⟨hs.stack, hs.processed, fun hnil => absurd hnil hne⟩

theorem step_local (s : ThreadSocketRecevier) (a : Label) (t : ThreadSocketRecevier) (hs : Local s)
    (h : step s a = some t) : Local t := by
  unfold step at h
  split at h
  · cases h
  · cases a with
    | recevie uSokcetID strData =>
      cases h
      refine ⟨fun o ho => ?_, hs.processed, hs.idle⟩
      rcases List.mem_append.mp ho with ho | ho
      · exact hs.stack o ho
      · rw [List.mem_singleton.mp ho]
    | caller i success => exact stepCaller_local hs h
    | worker j => exact stepWorker_local hs h

/-- However calls and workers are interleaved, the messages posted are served when there are
none, and never otherwise. -/
theorem run_served_iff {processors : Nat} {as : List Label} {s : ThreadSocketRecevier}
    (hrun : run step (constructed processors) as = some s) : s.Served ↔ s.posted = [] := by
  have hs := run_preserves step_local (local_constructed processors) hrun
  constructor
  · rintro ⟨-, hperm⟩
    rw [hs.processed] at hperm
    exact List.nil_perm.mp hperm
  · intro hnil
    refine ⟨(hs.idle hnil).1, ?_⟩
    rw [hs.processed, hnil]

/-- The post fails, and the call returns. -/
def unpostedRun : List Label :=
  [.recevie 7 [0x41], .caller 0 false, .caller 0 true, .caller 0 true]

theorem run_served_iff_unposted :
    ∃ s, run step (constructed 4) unpostedRun = some s ∧ s.Served :=
  ⟨_, rfl, (run_served_iff (rfl : run step (constructed 4) unpostedRun = _)).mpr rfl⟩

/-- The worker is done with the message before the call returns. -/
def quickRun : List Label :=
  [.recevie 7 [0x41], .caller 0 true, .worker 0, .worker 0, .worker 0]

/-- The worker comes when the call has returned. -/
def lateRun : List Label :=
  [.recevie 7 [0x41], .caller 0 true, .caller 0 true, .caller 0 true, .worker 0, .worker 0]

theorem run_violates :
    (∃ s, run step (constructed 4) quickRun = some s ∧ s.posted = [(7, [0x41])] ∧
        s.violation = some (.notAllocated 0)) ∧
      ∃ s, run step (constructed 4) lateRun = some s ∧ s.posted = [(7, [0x41])] ∧
        s.violation = some (.dead 0) :=
  ⟨⟨_, rfl, rfl, rfl⟩, ⟨_, rfl, rfl, rfl⟩⟩

end VerifyServer.Recevier
