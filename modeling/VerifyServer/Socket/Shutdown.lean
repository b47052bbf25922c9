import VerifyServer.Reasoning.Run

/-!
# Shutdown — `CTcpServer::Stop` and the worker threads

`Stop` posts as many exit entries as `m_vecWorkThread` has handles and then waits for the threads in
batches.  The workers go on taking entries meanwhile, in whatever order, and whatever else is posted
arrives in between.  A label is one step of `Stop`, one entry taken, or one entry posted by somebody
else.
-/

open VerifyServer.Reasoning

namespace VerifyServer.Socket.Shutdown

/-! ## 1. The queue -/

/-- An entry of the completion port as `GetQueuedCompletionStatus` returns it; a key or an
`OVERLAPPED` of zero is `NULL`. -/
structure Entry where
  dwBytes : UInt32
  key : Nat
  pOverlapped : Nat
  deriving DecidableEq, Repr

def iocpSiExit : UInt32 := 0x00000000
def iocpSiAccept : UInt32 := 0xFFFFFFF1
def iocpSiDisconnect : UInt32 := 0xFFFFFFF3

/-- What the loop of `WorkerThreadProc` does with an entry. -/
inductive Dispatch where
  | accept
  | disconnect
  | exit
  | context
  deriving DecidableEq, Repr

def Entry.dispatch (e : Entry) : Dispatch :=
  if e.pOverlapped = 0 then
    if e.dwBytes = iocpSiAccept then .accept
    else if e.dwBytes = iocpSiDisconnect then .disconnect
    else if e.dwBytes = iocpSiExit ∧ e.key = 0 then .exit
    else .context
  else .context

def Entry.isExit (e : Entry) : Bool := e.dispatch = .exit

/-- The entry `Stop` posts for each worker. -/
def exitEntry : Entry := ⟨iocpSiExit, 0, 0⟩

/-- What else reaches the port: an accept to be posted, a connection to be closed, an operation
that has ended or a context `_send` queued, which come with the address of an `OVERLAPPED`. -/
inductive Post where
  | accept
  | disconnect (nID : UInt32)
  | context (dwBytes : UInt32) (key ol : Nat)
  deriving DecidableEq, Repr

def Post.entry : Post → Entry
  | .accept => ⟨iocpSiAccept, 0, 0⟩
  | .disconnect nID => ⟨iocpSiDisconnect, nID.toNat, 0⟩
  | .context dwBytes key ol => ⟨dwBytes, key, ol + 1⟩

@[simp] theorem exitEntry_isExit : exitEntry.isExit = true := rfl

/-! ## 2. The step function -/

abbrev Handle := Nat

/-- `m_vecWorkThread` as `Start` leaves it: handles of different threads, as many as a `DWORD`
counted. -/
structure WorkThreads where
  handles : List Handle
  nodup : handles.Nodup
  count_lt : handles.length < 2 ^ 32

/-- `UINT nCount = m_vecWorkThread.size()`. -/
def WorkThreads.nCount (w : WorkThreads) : Nat := w.handles.length % 2 ^ 32

/-- `MAXIMUM_WAIT_OBJECTS`. -/
def maximumWaitObjects : Nat := 64

/-- Where `Stop` stands: in the loop that posts, at the head of `while (remain > 0)`, in
`WaitForMultipleObjects`, in the loop that closes, behind `m_vecWorkThread.clear()`. -/
inductive Pc where
  | post (i : Nat)
  | batch (remain index : Nat)
  | wait (remain index : Nat) (pHandles : List Handle)
  | close (remain index : Nat) (pHandles : List Handle) (i : Nat)
  | done
  deriving DecidableEq, Repr

/-- The loop that fills `pHandles[0 .. wait]` from `m_vecWorkThread[index ..]`; none outside the
vector. -/
def copyHandles (v : List Handle) (index : Nat) : Nat → Option (List Handle)
  | 0 => some []
  | wait + 1 => v[index]?.bind fun h => (copyHandles v (index + 1) wait).map (h :: ·)

/-- What `Stop` has done: the exit entries posted, the waits that found their threads ended, the
handles closed. -/
structure Log where
  exits : Nat := 0
  waited : List (List Handle) := []
  closed : List Handle := []
  deriving DecidableEq, Repr

structure State where
  queue : List Entry
  -- the threads that are still in their loop, and those that have taken an exit entry
  running : List Handle
  taken : List Handle := []
  pc : Pc := .post 0
  log : Log := {}
  deriving DecidableEq, Repr

/-- The state in which `Stop` gets to the workers, with what is in the queue by then. -/
def initial (w : WorkThreads) (posts : List Post) : State where
  queue := posts.map Post.entry
  running := w.handles

inductive Label where
  | stop
  | take (h : Handle) (k : Nat)
  -- `GetQueuedCompletionStatus` fails without an entry: everything is zero, as in an exit entry
  | fail (h : Handle)
  | post (p : Post)
  deriving DecidableEq, Repr

/-- `WaitForMultipleObjects` returns at once when its array is not a set of open handles of an
allowed size. -/
def waitFails (s : State) (pHandles : List Handle) : Prop :=
  pHandles = [] ∨ maximumWaitObjects < pHandles.length ∨ ¬ pHandles.Nodup ∨
    ∃ h ∈ pHandles, h ∈ s.log.closed

instance (s : State) (pHandles : List Handle) : Decidable (waitFails s pHandles) :=
  inferInstanceAs (Decidable (_ ∨ _ ∨ _ ∨ _))

/-- One step of `Stop`; none while it waits, and none outside the vector. -/
def stopStep (w : WorkThreads) (s : State) : Option State :=
  match s.pc with
  | .post i =>
    if i < w.nCount then
      some { s with
        queue := s.queue ++ [exitEntry], pc := .post (i + 1), log.exits := s.log.exits + 1 }
    else some { s with pc := .batch w.nCount 0 }
  | .batch remain index =>
    if 0 < remain then
      (copyHandles w.handles index (min remain maximumWaitObjects)).map fun pHandles =>
        { s with pc := .wait remain index pHandles }
    else some { s with pc := .done }
  | .wait remain index pHandles =>
    if waitFails s pHandles then some { s with pc := .close remain index pHandles 0 }
    else if ∀ h ∈ pHandles, h ∉ s.running then
      some { s with
        pc := .close remain index pHandles 0, log.waited := s.log.waited ++ [pHandles] }
    else none
  | .close remain index pHandles i =>
    let wait := min remain maximumWaitObjects
    if i < wait then
      pHandles[i]?.map fun h =>
        { s with pc := .close remain index pHandles (i + 1), log.closed := s.log.closed ++ [h] }
    else some { s with pc := .batch (remain - wait) (index + wait) }
  | .done => none

/-- The thread `h` takes the `k`-th entry of the queue. -/
def takeStep (s : State) (h : Handle) (k : Nat) : Option State :=
  if h ∈ s.running then
    s.queue[k]?.map fun e =>
      if e.isExit then
        { s with
          queue := s.queue.eraseIdx k, running := s.running.erase h, taken := s.taken ++ [h] }
      else { s with queue := s.queue.eraseIdx k }
  else none

def step (w : WorkThreads) (s : State) : Label → Option State
  | .stop => stopStep w s
  | .take h k => takeStep s h k
  | .fail h => if h ∈ s.running then some { s with running := s.running.erase h } else none
  | .post p => some { s with queue := s.queue ++ [p.entry] }

/-! ## 3. The invariant -/

def exitsLeft (s : State) : Nat := s.queue.countP Entry.isExit

/-- The exit entries `Stop` has still to post. -/
def toPost (w : WorkThreads) : Pc → Nat
  | .post i => w.nCount - i
  | _ => 0

/-- The handles of the batch that begins at `index`. -/
def batchAt (w : WorkThreads) (remain index : Nat) : List Handle :=
  (w.handles.drop index).take (min remain maximumWaitObjects)

/-- The handles before `upto` have been waited for, those before `shut` closed, and `remain` are
left from `index` on. -/
structure Covered (w : WorkThreads) (log : Log) (remain index upto shut : Nat) : Prop where
  exits : log.exits = w.handles.length
  sum : index + remain = w.handles.length
  waited : log.waited.flatten = w.handles.take upto
  closed : log.closed = w.handles.take shut

def Place (w : WorkThreads) (log : Log) : Pc → Prop
  | .post i => i ≤ w.handles.length ∧ log = { exits := i }
  | .batch remain index => Covered w log remain index index index
  | .wait remain index pHandles =>
    0 < remain ∧ pHandles = batchAt w remain index ∧ Covered w log remain index index index
  | .close remain index pHandles i =>
    0 < remain ∧ pHandles = batchAt w remain index ∧ i ≤ min remain maximumWaitObjects ∧
      Covered w log remain index (index + min remain maximumWaitObjects) (index + i)
  | .done => Covered w log 0 w.handles.length w.handles.length w.handles.length

structure Inv (w : WorkThreads) (s : State) : Prop where
  -- an exit entry is there, or will be, for every thread that runs
  served : s.running.length ≤ exitsLeft s + toPost w s.pc
  once : (s.taken ++ s.running).Nodup
  sizes : ∀ b ∈ s.log.waited, b ≠ [] ∧ b.length ≤ maximumWaitObjects
  ended : ∀ b ∈ s.log.waited, ∀ h ∈ b, h ∉ s.running
  place : Place w s.log s.pc

@[simp] theorem WorkThreads.nCount_eq (w : WorkThreads) : w.nCount = w.handles.length :=
  Nat.mod_eq_of_lt w.count_lt

theorem copyHandles_eq (v : List Handle) {index wait : Nat} (h : index + wait ≤ v.length) :
    copyHandles v index wait = some ((v.drop index).take wait) := by
  induction wait generalizing index with
  | zero => rw [copyHandles, List.take_zero]
  | succ wait ih =>
    have hlt : index < v.length := by omega
    rw [copyHandles, List.getElem?_eq_getElem hlt, Option.bind_some, ih (by omega), Option.map_some,
      List.drop_eq_getElem_cons hlt, List.take_succ_cons]

theorem batchAt_length {w : WorkThreads} {remain index : Nat}
    (h : index + remain = w.handles.length) :
    (batchAt w remain index).length = min remain maximumWaitObjects := by
  rw [batchAt, List.length_take, List.length_drop]
  omega

/-- A batch is always one that `WaitForMultipleObjects` accepts. -/
theorem batchAt_accepted {w : WorkThreads} {s : State} {remain index : Nat} (hpos : 0 < remain)
    (h : Covered w s.log remain index index index) : ¬ waitFails s (batchAt w remain index) := by
  have hlen := batchAt_length h.sum
  have hmax : 0 < maximumWaitObjects := by decide
  have hsub : (batchAt w remain index).Sublist (w.handles.drop index) := List.take_sublist _ _
  rintro (hnil | hlong | hdup | ⟨x, hx, hclosed⟩)
  · rw [hnil, List.length_nil] at hlen
    omega
  · omega
  · exact hdup (w.nodup.sublist (hsub.trans (List.drop_sublist _ _)))
  · rw [h.closed] at hclosed
    exact List.disjoint_take_drop w.nodup (Nat.le_refl index) hclosed (hsub.subset hx)

theorem inv_initial (w : WorkThreads) (posts : List Post) : Inv w (initial w posts) where
  served := by
    change w.handles.length ≤ _ + (w.nCount - 0)
    rw [w.nCount_eq]
    omega
  once := w.nodup
  sizes := by
    intro b hb
    cases hb
  ended := by
    intro b hb
    cases hb
  place := ⟨Nat.zero_le _, rfl⟩

variable {w : WorkThreads} {s t : State}

/-- A thread that leaves its loop leaves the others where they were. -/
theorem inv_leaves {h : Handle} {queue : List Entry} {taken : List Handle} (hinv : Inv w s)
    (hrun : h ∈ s.running) (hqueue : s.queue.countP Entry.isExit ≤ queue.countP Entry.isExit + 1)
    (hlist : taken = s.taken ++ [h] ∨ taken = s.taken) :
    Inv w { s with queue := queue, running := s.running.erase h, taken := taken } where
  served := by
    have hserved := hinv.served
    have hlen := List.length_erase_of_mem hrun
    have hpos := List.length_pos_of_mem hrun
    simp only [exitsLeft] at hserved ⊢
    omega
  once := by
    have hperm : (s.taken ++ [h] ++ s.running.erase h).Perm (s.taken ++ s.running) := by
      rw [List.append_assoc]
      exact (List.perm_cons_erase hrun).symm.append_left s.taken
    have hnodup := hperm.nodup_iff.mpr hinv.once
    rcases hlist with rfl | rfl
    · exact hnodup
    · exact hinv.once.sublist ((List.erase_sublist ..).append_left s.taken)
  sizes := hinv.sizes
  ended := by
    intro b hb x hx hmem
    exact hinv.ended b hb x hx (List.mem_of_mem_erase hmem)
  place := hinv.place

/-- An entry that is no exit entry may come and go. -/
theorem inv_queue {queue : List Entry} (hinv : Inv w s)
    (hqueue : s.queue.countP Entry.isExit ≤ queue.countP Entry.isExit) :
    Inv w { s with queue := queue } where
  served := hinv.served.trans (Nat.add_le_add_right hqueue _)
  once := hinv.once
  sizes := hinv.sizes
  ended := hinv.ended
  place := hinv.place

theorem countP_take {k : Nat} {e : Entry} {queue : List Entry} (he : queue[k]? = some e) :
    queue.countP Entry.isExit =
      (queue.eraseIdx k).countP Entry.isExit + if e.isExit then 1 else 0 := by
  have ⟨hlt, hget⟩ := List.getElem?_eq_some_iff.mp he
  rw [← (List.getElem_cons_eraseIdx_perm hlt).countP_eq, List.countP_cons, hget]

theorem inv_take {h : Handle} {k : Nat} (hinv : Inv w s) (hstep : takeStep s h k = some t) :
    Inv w t := by
  unfold takeStep at hstep
  split at hstep
  · next hrun =>
    have ⟨e, he, ht⟩ := Option.map_eq_some_iff.mp hstep
    have hcount := countP_take he
    split at ht
    · next hexit =>
      rw [if_pos hexit] at hcount
      exact ht ▸ inv_leaves hinv hrun (Nat.le_of_eq hcount) (.inl rfl)
    · next hother =>
      rw [if_neg hother] at hcount
      exact ht ▸ inv_queue hinv (Nat.le_of_eq hcount)
  · cases hstep

theorem inv_post {i : Nat} (hpc : s.pc = .post i) (hinv : Inv w s) (hstep : stopStep w s = some t) :
    Inv w t := by
  have hserved := hinv.served
  have hplace := hinv.place
  rw [hpc, toPost, w.nCount_eq] at hserved
  rw [hpc] at hplace
  unfold stopStep at hstep
  simp only [hpc, w.nCount_eq] at hstep
  split at hstep
  · next hlt =>
    cases hstep
    constructor
    · rw [toPost, w.nCount_eq]
      simp only [exitsLeft, List.countP_append, List.countP_singleton, exitEntry_isExit, if_true]
        at hserved ⊢
      omega
    · exact hinv.once
    · exact hinv.sizes
    · exact hinv.ended
    · exact ⟨hlt, by rw [hplace.2]⟩
  · next hge =>
    cases hstep
    have hi : i = w.handles.length := by
      have hle := hplace.1
      omega
    constructor
    · change s.running.length ≤ exitsLeft s + 0
      omega
    · exact hinv.once
    · exact hinv.sizes
    · exact hinv.ended
    · rw [hplace.2, hi]
      exact ⟨rfl, Nat.zero_add _, List.take_zero.symm, List.take_zero.symm⟩

/-- At the head of the batch loop the next batch is copied out of the vector, or all are done. -/
theorem inv_batch {remain index : Nat} (hpc : s.pc = .batch remain index) (hinv : Inv w s)
    (hstep : stopStep w s = some t) : Inv w t := by
  have hserved := hinv.served
  have hplace := hinv.place
  rw [hpc] at hserved hplace
  have hsum := hplace.sum
  unfold stopStep at hstep
  simp only [hpc] at hstep
  split at hstep
  · next hpos =>
    have hcopy : copyHandles w.handles index (min remain maximumWaitObjects) =
        some (batchAt w remain index) := copyHandles_eq w.handles (by omega)
    rw [hcopy, Option.map_some] at hstep
    cases hstep
    exact ⟨hserved, hinv.once, hinv.sizes, hinv.ended, hpos, rfl, hplace⟩
  · next hzero =>
    cases hstep
    have hend : index = w.handles.length := by omega
    rw [hend] at hplace
    exact ⟨hserved, hinv.once, hinv.sizes, hinv.ended,
      hplace.exits, rfl, hplace.waited, hplace.closed⟩

theorem inv_wait {remain index : Nat} {pHandles : List Handle}
    (hpc : s.pc = .wait remain index pHandles) (hinv : Inv w s) (hstep : stopStep w s = some t) :
    Inv w t := by
  have hserved := hinv.served
  have hplace := hinv.place
  rw [hpc] at hserved hplace
  have ⟨hpos, hbatch, hcovered⟩ := hplace
  have hmax : 0 < maximumWaitObjects := by decide
  have hlen := batchAt_length hcovered.sum
  unfold stopStep at hstep
  simp only [hpc, hbatch] at hstep
  rw [if_neg (batchAt_accepted hpos hcovered)] at hstep
  split at hstep
  · next hended =>
    cases hstep
    constructor
    · exact hserved
    · exact hinv.once
    · intro b hb
      rcases List.mem_append.mp hb with hold | hnew
      · exact hinv.sizes b hold
      · rw [List.mem_singleton.mp hnew]
        constructor
        · intro hnil
          rw [hnil, List.length_nil] at hlen
          omega
        · omega
    · intro b hb
      rcases List.mem_append.mp hb with hold | hnew
      · exact hinv.ended b hold
      · rw [List.mem_singleton.mp hnew]
        exact hended
    · apply And.intro hpos
      apply And.intro rfl
      apply And.intro (Nat.zero_le _)
      constructor
      · exact hcovered.exits
      · exact hcovered.sum
      · simp only [List.flatten_append, List.flatten_cons, List.flatten_nil, List.append_nil]
        rw [hcovered.waited, batchAt, List.take_add]
      · exact hcovered.closed
  · cases hstep

theorem inv_close {remain index i : Nat} {pHandles : List Handle}
    (hpc : s.pc = .close remain index pHandles i) (hinv : Inv w s)
    (hstep : stopStep w s = some t) : Inv w t := by
  have hserved := hinv.served
  have hplace := hinv.place
  rw [hpc] at hserved hplace
  have ⟨hpos, hbatch, hle, hcovered⟩ := hplace
  have hsum := hcovered.sum
  unfold stopStep at hstep
  simp only [hpc, hbatch] at hstep
  split at hstep
  · next hlt =>
    have hget : (batchAt w remain index)[i]? = w.handles[index + i]? := by
      rw [batchAt, List.getElem?_take, if_pos hlt, List.getElem?_drop]
    have hin : index + i < w.handles.length := by omega
    rw [hget, List.getElem?_eq_getElem hin, Option.map_some] at hstep
    cases hstep
    constructor
    · exact hserved
    · exact hinv.once
    · exact hinv.sizes
    · exact hinv.ended
    · apply And.intro hpos
      apply And.intro rfl
      apply And.intro hlt
      constructor
      · exact hcovered.exits
      · exact hsum
      · exact hcovered.waited
      · rw [hcovered.closed, ← Nat.add_assoc, List.take_add_one, List.getElem?_eq_getElem hin]
        rfl
  · next hge =>
    cases hstep
    have hi : i = min remain maximumWaitObjects := by omega
    rw [hi] at hcovered
    exact ⟨hserved, hinv.once, hinv.sizes, hinv.ended,
      hcovered.exits, by omega, hcovered.waited, hcovered.closed⟩

theorem inv_step {l : Label} (hinv : Inv w s) (hstep : step w s l = some t) : Inv w t := by
  cases l with
  | stop =>
    cases hpc : s.pc with
    | post i => exact inv_post hpc hinv hstep
    | batch remain index => exact inv_batch hpc hinv hstep
    | wait remain index pHandles => exact inv_wait hpc hinv hstep
    | close remain index pHandles i => exact inv_close hpc hinv hstep
    | done =>
      unfold step stopStep at hstep
      simp only [hpc] at hstep
      cases hstep
  | take h k => exact inv_take hinv hstep
  | fail h =>
    simp only [step] at hstep
    split at hstep
    · next hrun =>
      cases hstep
      exact inv_leaves hinv hrun (Nat.le_succ _) (.inr rfl)
    · cases hstep
  | post p =>
    cases hstep
    apply inv_queue hinv
    rw [List.countP_append]
    exact Nat.le_add_right _ _

theorem inv_run {posts : List Post} {labels : List Label}
    (h : run (step w) (initial w posts) labels = some s) : Inv w s :=
  run_preserves (fun _ _ _ hinv hst => inv_step hinv hst) (inv_initial w posts) h

/-! ## 4. The shutdown -/

/-- The steps `Stop` has still to make, at most. -/
def rank (w : WorkThreads) : Pc → Nat
  | .post i => (w.handles.length - i) + (4 * w.handles.length + 2)
  | .batch remain _ => 4 * remain + 1
  | .wait remain _ _ => 4 * remain
  | .close remain _ _ i => 4 * remain - 1 - i
  | .done => 0

theorem rank_stop (hinv : Inv w s) (hstep : stopStep w s = some t) :
    rank w t.pc < rank w s.pc := by
  have hplace := hinv.place
  have hmax : 0 < maximumWaitObjects := by decide
  unfold stopStep at hstep
  cases hpc : s.pc with
  | post i =>
    simp only [hpc, w.nCount_eq] at hstep
    split at hstep
    · next hlt =>
      cases hstep
      simp only [rank]
      omega
    · cases hstep
      simp only [rank]
      omega
  | batch remain index =>
    simp only [hpc] at hstep
    split at hstep
    · have ⟨_, _, ht⟩ := Option.map_eq_some_iff.mp hstep
      cases ht
      simp only [rank]
      omega
    · cases hstep
      simp only [rank]
      omega
  | wait remain index pHandles =>
    rw [hpc] at hplace
    have hpos := hplace.1
    simp only [hpc] at hstep
    split at hstep
    · cases hstep
      simp only [rank]
      omega
    · split at hstep
      · cases hstep
        simp only [rank]
        omega
      · cases hstep
  | close remain index pHandles i =>
    rw [hpc] at hplace
    have ⟨hpos, _, hle, _⟩ := hplace
    simp only [hpc] at hstep
    split at hstep
    · have ⟨_, _, ht⟩ := Option.map_eq_some_iff.mp hstep
      cases ht
      simp only [rank]
      omega
    · cases hstep
      simp only [rank]
      omega
  | done =>
    simp only [hpc] at hstep
    cases hstep

theorem pc_of_other {l : Label} (hl : l ≠ .stop) (hstep : step w s l = some t) : t.pc = s.pc := by
  cases l with
  | stop => exact absurd rfl hl
  | take h k =>
    simp only [step, takeStep] at hstep
    split at hstep
    · have ⟨e, _, ht⟩ := Option.map_eq_some_iff.mp hstep
      split at ht
      · exact ht ▸ rfl
      · exact ht ▸ rfl
    · cases hstep
  | fail h =>
    simp only [step] at hstep
    split at hstep
    · cases hstep
      rfl
    · cases hstep
  | post p =>
    cases hstep
    rfl

/-- `Stop` gets through in a bounded number of its own steps. -/
theorem stops_le {labels : List Label} (hinv : Inv w s) (h : run (step w) s labels = some t) :
    labels.count .stop + rank w t.pc ≤ rank w s.pc := by
  induction labels generalizing s with
  | nil =>
    rw [← Option.some.inj h, List.count_nil, Nat.zero_add]
  | cons l labels ih =>
    have ⟨u, hu, hrun⟩ := run_cons_eq_some.mp h
    have hrest := ih (inv_step hinv hu) hrun
    by_cases hl : l = .stop
    · subst hl
      have hlt : rank w u.pc < rank w s.pc := rank_stop hinv hu
      rw [List.count_cons_self]
      omega
    · rw [List.count_cons_of_ne hl, ← pc_of_other hl hu]
      exact hrest

/-- Where a thread runs and all exit entries are posted, it can take one, and then it has ended. -/
theorem exit_left {h : Handle} (hinv : Inv w s) (hposted : toPost w s.pc = 0)
    (hrun : h ∈ s.running) : ∃ k t, takeStep s h k = some t ∧ h ∉ t.running := by
  have hpos := List.length_pos_of_mem hrun
  have hserved := hinv.served
  have hcount : 0 < s.queue.countP Entry.isExit := by
    rw [hposted] at hserved
    exact Nat.lt_of_lt_of_le hpos hserved
  have ⟨e, hmem, hexit⟩ := List.countP_pos_iff.mp hcount
  have ⟨k, hk⟩ := List.mem_iff_getElem?.mp hmem
  have hnodup : s.running.Nodup := hinv.once.sublist (List.sublist_append_right ..)
  apply Exists.intro k
  unfold takeStep
  rw [if_pos hrun, hk, Option.map_some, if_pos hexit]
  exact ⟨_, rfl, hnodup.not_mem_erase⟩

/-- Where `Stop` makes no step it waits for a thread that runs. -/
theorem blocked {remain index : Nat} {pHandles : List Handle} (hinv : Inv w s)
    (hpc : s.pc = .wait remain index pHandles) (hstep : stopStep w s = none) :
    ∃ h ∈ pHandles, h ∈ s.running := by
  have hplace := hinv.place
  rw [hpc] at hplace
  have ⟨hpos, hbatch, hcovered⟩ := hplace
  unfold stopStep at hstep
  simp only [hpc, hbatch] at hstep
  rw [if_neg (batchAt_accepted hpos hcovered)] at hstep
  split at hstep
  · cases hstep
  · next hnot =>
    rw [hbatch]
    by_contra hnone
    apply hnot
    intro h hh hrun
    exact hnone ⟨h, hh, hrun⟩

/-- What the shutdown of the threads does, up to any state of it. -/
structure ShutsDown (w : WorkThreads) (labels : List Label) (s : State) : Prop where
  -- a thread takes at most one exit entry and has ended with it
  once : s.taken.Nodup ∧ ∀ h ∈ s.taken, h ∉ s.running
  -- at a wait all exit entries are posted, and as many are left as threads run
  posted : ∀ remain index pHandles, s.pc = .wait remain index pHandles →
    s.log.exits = w.handles.length ∧ s.running.length ≤ exitsLeft s
  -- where `Stop` stands still, a thread it waits for runs and can take one
  left : s.pc ≠ .done → stopStep w s = none → ∃ remain index pHandles h k t,
    s.pc = .wait remain index pHandles ∧ h ∈ pHandles ∧ h ∈ s.running ∧
      takeStep s h k = some t ∧ h ∉ t.running
  -- the batches follow one another along the vector, and so do the handles closed
  batches : s.log.waited.flatten <+: w.handles ∧
    ∀ b ∈ s.log.waited, b ≠ [] ∧ b.length ≤ maximumWaitObjects
  closed : s.log.closed <+: w.handles ∧ s.log.closed.Nodup
  ended : ∀ b ∈ s.log.waited, ∀ h ∈ b, h ∉ s.running
  done : s.pc = .done → s.log.waited.flatten = w.handles ∧ s.log.closed = w.handles
  bounded : labels.count .stop ≤ 5 * w.handles.length + 2

theorem Covered.prefixes {log : Log} {remain index upto shut : Nat}
    (h : Covered w log remain index upto shut) :
    log.waited.flatten <+: w.handles ∧ log.closed <+: w.handles := by
  rw [h.waited, h.closed]
  exact ⟨List.take_prefix .., List.take_prefix ..⟩

theorem place_prefixes {log : Log} {pc : Pc} (h : Place w log pc) :
    log.waited.flatten <+: w.handles ∧ log.closed <+: w.handles := by
  cases pc with
  | post i =>
    rw [h.2]
    exact ⟨List.nil_prefix, List.nil_prefix⟩
  | batch remain index => exact Covered.prefixes h
  | wait remain index pHandles => exact h.2.2.prefixes
  | close remain index pHandles i => exact h.2.2.2.prefixes
  | done => exact Covered.prefixes h

/-- Outside `WaitForMultipleObjects` `Stop` always goes on. -/
theorem stop_goes_on (hinv : Inv w s) (hdone : s.pc ≠ .done) (hstep : stopStep w s = none) :
    ∃ remain index pHandles, s.pc = .wait remain index pHandles := by
  have hplace := hinv.place
  unfold stopStep at hstep
  cases hpc : s.pc with
  | post i =>
    simp only [hpc] at hstep
    split at hstep
    · cases hstep
    · cases hstep
  | batch remain index =>
    rw [hpc] at hplace
    have hsum := hplace.sum
    simp only [hpc] at hstep
    rw [copyHandles_eq w.handles (by omega)] at hstep
    split at hstep
    · cases hstep
    · cases hstep
  | wait remain index pHandles => exact ⟨remain, index, pHandles, rfl⟩
  | close remain index pHandles i =>
    rw [hpc] at hplace
    have ⟨_, hbatch, _, hcovered⟩ := hplace
    have hlen := batchAt_length hcovered.sum
    simp only [hpc, hbatch] at hstep
    split at hstep
    · rw [List.getElem?_eq_getElem (by omega)] at hstep
      cases hstep
    · cases hstep
  | done => exact absurd hpc hdone

/-- The shutdown of any number of threads, for every order in which they take the entries. -/
theorem stop_shutsDown {posts : List Post} {labels : List Label}
    (h : run (step w) (initial w posts) labels = some s) : ShutsDown w labels s := by
  have hinv := inv_run h
  have hprefixes := place_prefixes hinv.place
  constructor
  · apply And.intro (hinv.once.sublist (List.sublist_append_left ..))
    intro x hx hrun
    exact List.disjoint_of_nodup_append hinv.once hx hrun
  · intro remain index pHandles hpc
    have hserved := hinv.served
    have hplace := hinv.place
    rw [hpc] at hserved hplace
    exact ⟨hplace.2.2.exits, hserved⟩
  · intro hdone hstep
    have ⟨remain, index, pHandles, hpc⟩ := stop_goes_on hinv hdone hstep
    have ⟨x, hx, hrun⟩ := blocked hinv hpc hstep
    have ⟨k, t, htake, hended⟩ := exit_left hinv (by rw [hpc, toPost]; nofun) hrun
    exact ⟨remain, index, pHandles, x, k, t, hpc, hx, hrun, htake, hended⟩
  · exact ⟨hprefixes.1, hinv.sizes⟩
  · exact ⟨hprefixes.2, w.nodup.sublist hprefixes.2.sublist⟩
  · exact hinv.ended
  · intro hpc
    have hplace := hinv.place
    rw [hpc] at hplace
    rw [hplace.waited, hplace.closed, List.take_length]
    exact ⟨rfl, rfl⟩
  · have hcount := stops_le (inv_initial w posts) h
    have hrank : rank w (initial w posts).pc = w.handles.length + (4 * w.handles.length + 2) := rfl
    omega

/-- Two workers, one of which takes an accept entry first. -/
def twoWorkers : WorkThreads := ⟨[7, 9], by decide, by decide⟩

theorem stop_shutsDown_two : ShutsDown twoWorkers
    [.stop, .stop, .stop, .stop, .take 9 2, .take 7 0, .take 7 0, .stop, .stop, .stop, .stop, .stop]
    ⟨[], [], [9, 7], .done, 2, [[7, 9]], [7, 9]⟩ :=
  stop_shutsDown (show run (step twoWorkers) (initial twoWorkers [.accept]) _ = some _ by decide)

end VerifyServer.Socket.Shutdown
