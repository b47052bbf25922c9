import VerifyServer.Socket.Reuse
import VerifyServer.Socket.Steps

/-!
# ConnIds — the connection ids `ProcessAccept` gives

An id is the value of `m_dwConnID` after an `InterlockedIncrement`, and comes again after `2 ^ 32`
of them.  The increments are counted here beside the server, without end.
-/

open VerifyServer.Reasoning

namespace VerifyServer.Socket

/-! ## 1. The increments -/

structure Issue where
  server : Server
  -- how many increments there were
  issued : Nat := 0
  -- the one that gave a worker the id it has at hand
  mine : Nat → Nat := fun _ => 0
  -- the one that gave the id of an entry of the map
  listed : UInt32 → Nat := fun _ => 0

def Issue.note (s : Issue) (i : Nat) : Worker → Issue
  | .increment _ _ =>
    { s with issued := s.issued + 1, mine := Function.update s.mine i (s.issued + 1) }
  | .addClient _ connID _ => { s with listed := Function.update s.listed connID (s.mine i) }
  | _ => s

def Issue.notes (s : Issue) : Label → Issue
  | .worker i _ => (s.server.workers[i]?).elim s (s.note i)
  | _ => s

variable (save : IoContext → List UInt8 → Saved)

def stepIssue (s : Issue) (l : Label) : Option Issue :=
  (step save s.server l).map fun t => { s.notes l with server := t }

/-! ## 2. What a step gives and replaces -/

/-- An id that is given is no entry's, and an entry that is added replaces none. -/
def givesNewId (s : Server) : Label → Prop
  | .worker i _ =>
    match s.workers[i]? with
    | some (.increment _ again) =>
      s.m_dwConnID + 1 = 0 ∧ again = false ∨ s.m_mpClientSocket (s.m_dwConnID + 1) = none
    | some (.addClient _ connID _) => s.m_mpClientSocket connID = none
    | _ => True
  | _ => True

/-- No entry of the map has its id from an increment a multiple of `2 ^ 32` away. -/
def Issue.Spaced (s : Issue) (k : Nat) : Prop :=
  ∀ connID, s.server.m_mpClientSocket connID ≠ none → ¬s.listed connID ≡ k [MOD 2 ^ 32]

def spacesIds (s : Issue) : Label → Prop
  | .worker i _ =>
    match s.server.workers[i]? with
    | some (.increment _ again) =>
      s.server.m_dwConnID + 1 = 0 ∧ again = false ∨ s.Spaced (s.issued + 1)
    | some (.addClient _ _ _) => s.Spaced (s.mine i)
    | _ => True
  | _ => True

/-! ## 3. An id and its increment -/

def Worker.connID? : Worker → Option UInt32
  | .getSocket _ connID | .fillSocket _ connID _ | .addClient _ connID _ => some connID
  | _ => none

structure Numbered (s : Issue) : Prop where
  counter : s.server.m_dwConnID.toNat ≡ s.issued [MOD 2 ^ 32]
  mine : ∀ i w, s.server.workers[i]? = some w → ∀ connID, w.connID? = some connID →
    connID.toNat ≡ s.mine i [MOD 2 ^ 32]
  listed : ∀ connID, s.server.m_mpClientSocket connID ≠ none →
    connID.toNat ≡ s.listed connID [MOD 2 ^ 32]

theorem toNat_modEq_iff {a b : UInt32} : a.toNat ≡ b.toNat [MOD 2 ^ 32] ↔ a = b := by
  rw [Nat.ModEq, Nat.mod_eq_of_lt a.toNat_lt, Nat.mod_eq_of_lt b.toNat_lt, UInt32.toNat_inj]

theorem Numbered.spaced_iff {s : Issue} (h : Numbered s) {connID : UInt32} {k : Nat}
    (hk : connID.toNat ≡ k [MOD 2 ^ 32]) :
    s.Spaced k ↔ s.server.m_mpClientSocket connID = none := by
  constructor
  · intro hspaced
    by_contra hentry
    exact hspaced connID hentry ((h.listed connID hentry).symm.trans hk)
  · intro hnone other hentry hother
    have hsame : other = connID :=
      toNat_modEq_iff.mp (((h.listed other hentry).trans hother).trans hk.symm)
    exact hentry (hsame ▸ hnone)

theorem Numbered.next {s : Issue} (h : Numbered s) :
    (s.server.m_dwConnID + 1).toNat ≡ s.issued + 1 [MOD 2 ^ 32] := by
  rw [UInt32.toNat_add]
  exact (Nat.mod_modEq _ _).trans (h.counter.add_right 1)

theorem givesNewId_iff {s : Issue} (h : Numbered s) (l : Label) :
    givesNewId s.server l ↔ spacesIds s l := by
  cases l with
  | worker i a =>
    rw [givesNewId, spacesIds]
    cases hw : s.server.workers[i]? with
    | none => exact Iff.rfl
    | some w =>
      cases w with
      | increment op again => exact or_congr_right (h.spaced_iff h.next).symm
      | addClient op connID pSock => exact (h.spaced_iff (h.mine i _ hw connID rfl)).symm
      | _ => exact Iff.rfl
  | _ => exact Iff.rfl

/-! ## 4. Steps -/

variable {save} {s : Issue} {t : Server}

theorem Numbered.goto (h : Numbered s) {i : Nat} {w w' : Worker}
    (hw : s.server.workers[i]? = some w) (hids : ∀ connID, w'.connID? = some connID →
      w.connID? = some connID) (hcounter : t.m_dwConnID = s.server.m_dwConnID)
    (hmap : ∀ connID, t.m_mpClientSocket connID ≠ none →
      s.server.m_mpClientSocket connID ≠ none) :
    Numbered { s with server := { t with workers := s.server.workers.set i w' } } where
  counter := hcounter ▸ h.counter
  mine j x hx connID hid := by
    rcases getElem?_set_cases hx with ⟨rfl, rfl⟩ | ⟨-, hx⟩
    · exact h.mine j w hw connID (hids connID hid)
    · exact h.mine j x hx connID hid
  listed connID hentry := h.listed connID (hmap connID hentry)

theorem Numbered.outside (h : Numbered s) (hcounter : t.m_dwConnID = s.server.m_dwConnID)
    (hworkers : t.workers = s.server.workers)
    (hmap : t.m_mpClientSocket = s.server.m_mpClientSocket) : Numbered { s with server := t } where
  counter := hcounter ▸ h.counter
  mine i w hw := h.mine i w (hworkers ▸ hw)
  listed := hmap ▸ h.listed

theorem dispatch_connID (e : Entry) : e.dispatch.connID? = none := by
  cases e with
  | accept => rfl
  | disconnect dwConnID => rfl
  | completion pSock op result dwBytes => rfl

theorem resume_connID (pIo : Option IoContext) : (Worker.resume pIo).connID? = none := by
  cases pIo <;> rfl

theorem examine_connID (pSock : Addr) (connID : UInt32) (op : Operation) (dwErrorCode : UInt32)
    (dwBytes : Nat) : (examine pSock connID op dwErrorCode dwBytes).connID? = none := by
  unfold examine
  repeat' split
  all_goals rfl

/-- An increment gives the worker the id it now has at hand. -/
theorem Numbered.increment (h : Numbered s) {i : Nat} {w' : Worker}
    (hids : ∀ connID, w'.connID? = some connID → connID = s.server.m_dwConnID + 1)
    (hcounter : t.m_dwConnID = s.server.m_dwConnID + 1)
    (hmap : t.m_mpClientSocket = s.server.m_mpClientSocket) :
    Numbered { s with
      server := { t with workers := s.server.workers.set i w' }
      issued := s.issued + 1
      mine := Function.update s.mine i (s.issued + 1) } where
  counter := hcounter ▸ h.next
  mine j x hx connID hid := by
    show connID.toNat ≡ Function.update s.mine i (s.issued + 1) j [MOD 2 ^ 32]
    rcases getElem?_set_cases hx with ⟨rfl, rfl⟩ | ⟨hne, hx⟩
    · rw [Function.update_self, hids connID hid]
      exact h.next
    · rw [Function.update_of_ne hne]
      exact h.mine j x hx connID hid
  listed := hmap ▸ h.listed

/-- The entry a worker adds has the id the worker has at hand. -/
theorem Numbered.addClient (h : Numbered s) {i : Nat} {op : Operation} {connID : UInt32}
    {pSock : Addr} (hw : s.server.workers[i]? = some (.addClient op connID pSock))
    (hcounter : t.m_dwConnID = s.server.m_dwConnID)
    (hmap : t.m_mpClientSocket =
      Function.update s.server.m_mpClientSocket connID (some ⟨pSock, op.conn⟩)) :
    Numbered { s with
      server := { t with workers := s.server.workers.set i (.associate op connID pSock) }
      listed := Function.update s.listed connID (s.mine i) } where
  counter := hcounter ▸ h.counter
  mine j x hx id hid := by
    rcases getElem?_set_cases hx with ⟨rfl, rfl⟩ | ⟨-, hx⟩
    · cases hid
    · exact h.mine j x hx id hid
  listed id hentry := by
    show id.toNat ≡ Function.update s.listed connID (s.mine i) id [MOD 2 ^ 32]
    have hentry : t.m_mpClientSocket id ≠ none := hentry
    by_cases hid : id = connID
    · rw [hid, Function.update_self]
      exact h.mine i _ hw connID rfl
    · rw [Function.update_of_ne hid]
      rw [hmap, Function.update_of_ne hid] at hentry
      exact h.listed id hentry

variable (save) in
theorem receive_ids {s : Server} (connID : UInt32) (op : Operation) (dwBytes : Nat) {w : Worker}
    (hw : w.connID? = none) :
    (receive save s connID op dwBytes w).2.connID? = none ∧
      (receive save s connID op dwBytes w).1.m_dwConnID = s.m_dwConnID ∧
        (receive save s connID op dwBytes w).1.m_mpClientSocket = s.m_mpClientSocket := by
  unfold receive
  simp only
  split
  · exact ⟨rfl, rfl, rfl⟩
  · exact ⟨hw, rfl, rfl⟩

-- an entry that is there after one was removed was there before
theorem update_none_ne {α β : Type*} [DecidableEq α] {f : α → Option β} {a x : α}
    (h : Function.update f a none x ≠ none) : f x ≠ none := by
  by_cases hx : x = a
  · rw [hx, Function.update_self] at h
    exact absurd rfl h
  · rwa [Function.update_of_ne hx] at h

theorem step_numbered {l : Label} {u : Issue} (h : Numbered s) (hu : stepIssue save s l = some u) :
    Numbered u := by
  have ⟨t, ht, heq⟩ := Option.map_eq_some_iff.mp hu
  subst heq
  cases step_cases ht with
  | @worker i a w w' t hw hstep =>
    rw [Issue.notes, hw, Option.elim]
    cases hstep with
    | @dequeue e queue hqueue =>
      refine h.goto hw (fun connID hid => ?_) rfl fun _ => id
      cases (dispatch_connID e).symm.trans hid
    | @examine pSock connID op result dwBytes =>
      refine h.goto hw (fun connID hid => ?_) rfl fun _ => id
      cases (examine_connID ..).symm.trans hid
    | incrementAgain hzero => exact h.increment nofun rfl rfl
    | increment hid => exact h.increment (fun _ hid => (Option.some.inj hid).symm) rfl rfl
    | @getSocket op connID pSock free hfree => exact h.goto hw (fun _ => id) rfl fun _ => id
    | @newSocket op connID hempty hnew => exact h.goto hw (fun _ => id) rfl fun _ => id
    | @fillSocket op connID pSock context hcontext => exact h.goto hw (fun _ => id) rfl fun _ => id
    | fillDeleted hcontext => exact h.goto hw (fun _ => id) rfl fun _ => id
    | @addClient op connID pSock => exact h.addClient hw rfl rfl
    | @saveData pSock connID op dwBytes context hcontext =>
      have ⟨hid, hcounter, hmap⟩ := receive_ids save (s := s.server) connID
        { op with pIo.connID := context.connID } dwBytes
        (w := .saveData pSock connID op dwBytes) rfl
      exact h.goto hw (fun _ hid' => nomatch hid.symm.trans hid') hcounter fun _ => hmap ▸ id
    | findNone hnone =>
      refine h.goto hw (fun connID hid => ?_) rfl fun _ => id
      cases (resume_connID _).symm.trans hid
    | pool hnodup hlive =>
      refine h.goto hw (fun connID hid => ?_) rfl fun _ => id
      cases (resume_connID _).symm.trans hid
    | close hcontext => exact h.goto hw nofun rfl fun _ => update_none_ne
    | _ => exact h.goto hw nofun rfl fun _ => id
  | send => exact h.outside rfl rfl rfl
  | @sender i a w w' t hw hstep =>
    cases hstep <;> exact h.outside rfl rfl rfl
  | disconnect hclient => exact h.outside rfl rfl rfl
  | postDisconnect hcaller => exact h.outside rfl rfl rfl
  | complete hop => exact h.outside rfl rfl rfl

/-! ## 5. Runs -/

theorem stepIssue_server (s : Issue) (l : Label) :
    (stepIssue save s l).map Issue.server = step save s.server l := by
  rw [stepIssue, Option.map_map]
  exact Option.map_id_fun' ▸ rfl

/-- The server has counted no increment yet. -/
def startedIssue (n m : Nat) : Issue where
  server := started n m

theorem started_numbered (n m : Nat) : Numbered (startedIssue n m) where
  counter := Nat.ModEq.refl 0
  mine i w hw connID hid := by
    rw [List.eq_of_mem_replicate (List.mem_of_getElem? hw)] at hid
    cases hid
  listed connID hentry := absurd rfl hentry

/-- In every run the ids given are new, and no entry replaces another, just when the increments that
gave the ids of the map are never a multiple of `2 ^ 32` from the one at hand. -/
theorem new_ids_iff (env : SaveEnv) (n m : Nat) (labels : List Label) :
    RunMeets (step (saveData env)) givesNewId (started n m) labels ↔
      RunMeets (stepIssue (saveData env)) spacesIds (startedIssue n m) labels := by
  rw [← runMeets_congr_of_invariant (P := fun s l => givesNewId s.server l) (Q := spacesIds)
    (fun _ _ _ h _ => step_numbered h) (fun _ l h => givesNewId_iff h l) (started_numbered n m)
    labels]
  exact (runMeets_map stepIssue_server (startedIssue n m) labels).symm

/-! ## 6. All ids used up -/

/-- The first connection is there and has an operation under way, the id of the next is `k + 1`, and
the only worker is at `w`. -/
structure Lone (k : UInt32) (w : Worker) (s : Server) : Prop where
  running : s.crashed = none
  workers : s.workers = [w]
  queue : s.queue = [.accept]
  posted : ∃ op, s.posted = [op]
  counter : s.m_dwConnID = k
  first : s.m_mpClientSocket 1 ≠ none
  free : ∃ pSock, s.m_lsFreeSocketContext = [pSock] ∧ s.context pSock ≠ none

section Cycle

variable {s t : Server} {labels : List Label} {Q : Server → Prop}

theorem reach_worker {a : Answer} {w w' : Worker} (hrun : s.crashed = none)
    (hw : s.workers = [w]) (hstep : WorkerStep save s a w t w')
    (hrest : ∃ u, run (step save) { t with workers := [w'] } labels = some u ∧ Q u) :
    ∃ u, run (step save) s (.worker 0 a :: labels) = some u ∧ Q u := by
  have ⟨u, hu, hq⟩ := hrest
  refine ⟨u, run_cons_eq_some.mpr ⟨_, ?_, hu⟩, hq⟩
  rw [step, if_neg (not_not.mpr hrun), hw]
  show (stepWorker save s a w).bind _ = _
  rw [hstep.taken]
  rfl

theorem reach_complete {i : Nat} {op : Operation} (hrun : s.crashed = none)
    (hop : s.posted[i]? = some op)
    (hrest : ∃ u, run (step save) { s with
      posted := s.posted.eraseIdx i
      queue := s.queue ++ (completed? s op true []).toList } labels = some u ∧ Q u) :
    ∃ u, run (step save) s (.complete i true [] :: labels) = some u ∧ Q u := by
  have ⟨u, hu, hq⟩ := hrest
  refine ⟨u, run_cons_eq_some.mpr ⟨_, ?_, hu⟩, hq⟩
  rw [step, if_neg (not_not.mpr hrun), hop]
  rfl

def arrive : List Label :=
  acceptOn 0 8 ++ [.complete 1 true []] ++ List.replicate 4 (.worker 0 {})

-- the connection cannot be associated with the port, and is closed
def leave : List Label :=
  List.replicate 4 (.worker 0 {}) ++ [.worker 0 { success := false }] ++
    List.replicate 4 (.worker 0 {})

variable (save) in
theorem run_arrive {k : UInt32} (h : Lone k .dequeue s) (hhandle : s.handles 8 = none) :
    ∃ t, run (step save) s arrive = some t ∧
      ∃ op, Lone k (.increment op false) t ∧ op.pIo.sockAccept = 8 := by
  obtain ⟨hrun, hw, hq, ⟨op, hp⟩, hk, hfirst, hfree⟩ := h
  cases s
  dsimp only at hrun hw hq hp hk hfirst hhandle hfree
  subst hrun hw hq hp hk
  apply reach_worker rfl rfl (.dequeue rfl)
  dsimp only
  apply reach_worker rfl rfl (.openSocket rfl (by decide) hhandle)
  dsimp only
  apply reach_worker rfl rfl .getIo
  dsimp only
  apply reach_worker rfl rfl (.postAccept rfl)
  dsimp only
  apply reach_complete rfl rfl
  dsimp only
  apply reach_worker rfl rfl (.dequeue rfl)
  dsimp only
  apply reach_worker rfl rfl (.readAccept rfl)
  dsimp only
  apply reach_worker rfl rfl .examine
  dsimp only
  apply reach_worker rfl rfl .postNext
  exact ⟨_, rfl, _, ⟨rfl, rfl, rfl, ⟨op, rfl⟩, rfl, hfirst, hfree⟩, rfl⟩

variable (save) in
theorem run_leave {k : UInt32} {op : Operation} (h : Lone k (.increment op false) s)
    (hhandle : op.pIo.sockAccept = 8) (hzero : k + 1 ≠ 0) (hone : k + 1 ≠ 1) :
    ∃ t, run (step save) s leave = some t ∧ Lone (k + 1) .dequeue t ∧ t.handles 8 = none := by
  obtain ⟨hrun, hw, hq, ⟨posted, hp⟩, hk, hfirst, pSock, hfree, hlive⟩ := h
  obtain ⟨context, hcontext⟩ := Option.ne_none_iff_exists'.mp hlive
  cases s
  dsimp only at hrun hw hq hp hk hfirst hfree hcontext
  subst hrun hw hq hp hk hfree
  apply reach_worker rfl rfl (.increment fun h => hzero h.1)
  dsimp only
  apply reach_worker rfl rfl (.getSocket rfl)
  dsimp only
  apply reach_worker rfl rfl (.fillSocket hcontext)
  dsimp only
  apply reach_worker rfl rfl .addClient
  dsimp only
  apply reach_worker rfl rfl (.associateFails rfl)
  dsimp only
  apply reach_worker rfl rfl (.find (Function.update_self ..))
  dsimp only
  apply reach_worker rfl rfl (.close (Function.update_self ..))
  dsimp only
  apply reach_worker rfl rfl (.pool (by exact List.nodup_nil) (by exact nofun))
  dsimp only
  apply reach_worker rfl rfl .addIo
  refine ⟨_, rfl, ⟨rfl, rfl, rfl, ⟨posted, rfl⟩, rfl, ?_, pSock, rfl, ?_⟩, ?_⟩
  · dsimp only
    rw [Function.update_of_ne hone.symm, Function.update_of_ne hone.symm]
    exact hfirst
  · dsimp only
    rw [if_neg (show pSock ∉ purged ([] ++ [pSock]) from List.not_mem_nil), Function.update_self]
    exact nofun
  · dsimp only
    rw [hhandle, Function.update_self]

end Cycle

theorem ofNat_succ_ne {j k : Nat} (hj : j + 1 < 2 ^ 32) (hk : k < 2 ^ 32) (h : j + 1 ≠ k) :
    UInt32.ofNat j + 1 ≠ UInt32.ofNat k := by
  intro heq
  have hnat : (UInt32.ofNat (j + 1)).toNat = (UInt32.ofNat k).toNat := by
    rw [UInt32.ofNat_add]
    exact congrArg UInt32.toNat heq
  rw [UInt32.toNat_ofNat_of_lt' hj, UInt32.toNat_ofNat_of_lt' hk] at hnat
  exact h hnat

/-- One connection stays, and after it `j + 1` others come and go. -/
theorem run_leaves (save : IoContext → List UInt8 → Saved) (j : Nat) (hj : j + 2 < 2 ^ 32) :
    ∃ labels t, run (step save) (started 1 1) labels = some t ∧
      Lone (UInt32.ofNat (j + 2)) .dequeue t ∧ t.handles 8 = none := by
  induction j with
  | zero =>
    refine ⟨acceptOn 0 7 ++ [.complete 0 true []] ++ takeAccept 0 3 ++ arrive ++ leave, _, rfl,
      ⟨rfl, rfl, rfl, ⟨_, rfl⟩, rfl, ?_, 0, rfl, ?_⟩, rfl⟩
    · exact nofun
    · exact nofun
  | succ j ih =>
    have ⟨labels, s, hs, hlone, hhandle⟩ := ih (by omega)
    have ⟨t, ht, op, hincrement, hsock⟩ := run_arrive save hlone hhandle
    have ⟨u, hu, hnext⟩ := run_leave save hincrement hsock
      (ofNat_succ_ne (k := 0) (by omega) (by omega) (by omega))
      (ofNat_succ_ne (k := 1) (by omega) (by omega) (by omega))
    refine ⟨labels ++ (arrive ++ leave), u, ?_, ?_⟩
    · rw [run_append hs, run_append ht, hu]
    · rw [show j + 1 + 2 = (j + 2) + 1 by omega, UInt32.ofNat_add]
      exact hnext

/-- After `2 ^ 32 - 2` other connections the id of the first, which is still there, is given
again. -/
theorem id_given_again : ¬∀ (env : SaveEnv) (n m : Nat) (labels : List Label),
    RunMeets (step (saveData env)) givesNewId (started n m) labels := by
  intro h
  let env : SaveEnv := ⟨true, fun _ => 0⟩
  have ⟨labels, s, hs, hlone, hhandle⟩ := run_leaves (saveData env) (2 ^ 32 - 3) (by omega)
  have ⟨t, ht, op, hincrement, _⟩ := run_arrive (saveData env) hlone hhandle
  have hmeets := h env 1 1 (labels ++ (arrive ++ [.worker 0 {}, .worker 0 {}]))
  have hmeets := (hmeets.after hs).after ht
  have hlast : t.m_dwConnID + 1 = 0 := by
    rw [hincrement.counter]
    decide
  have hstep : step (saveData env) t (.worker 0 {}) =
      some { t with m_dwConnID := t.m_dwConnID + 1, workers := [.increment op true] } := by
    rw [step, if_neg (not_not.mpr hincrement.running), hincrement.workers]
    show (stepWorker _ _ _ _).bind _ = _
    rw [(WorkerStep.incrementAgain hlast).taken]
    rfl
  have hgives : t.m_dwConnID + 1 + 1 = 0 ∧ true = false ∨
      t.m_mpClientSocket (t.m_dwConnID + 1 + 1) = none := (hmeets.2 _ hstep).1
  rw [hlast] at hgives
  rcases hgives with hagain | hnone
  · cases hagain.2
  · exact hincrement.first hnone

end VerifyServer.Socket
