import VerifyServer.Socket.Reuse
import VerifyServer.Socket.Steps

/-!
# AcceptBudget — the accepts a server keeps posted

`Start` puts `m_dwAcceptSocketCount` requests for an accept into the queue, or none when the listening
socket cannot be associated with it.  Each turns into an `AcceptEx` and, when that completes, into a
request again.  A socket that cannot be opened, or an `AcceptEx` that cannot be posted, is not followed
by a new request.
-/

open VerifyServer.Reasoning

namespace VerifyServer.Socket

/-! ## 1. Where the accepts are -/

def Operation.isAccept (op : Operation) : Bool := op.pIo.so = .accept

-- a request for an accept, or an `AcceptEx` that is completed
def Entry.isAccept : Entry → Bool
  | .accept => true
  | .disconnect _ => false
  | .completion _ op _ _ => op.isAccept

/-- The worker has taken such an entry and is yet to put another in its place. -/
def Worker.holdsAccept : Worker → Bool
  | .openSocket | .getIo _ _ | .closeAccept _ | .postAgain _ | .postNext _ => true
  | .postAccept _ op | .readId _ op _ _ | .examine _ _ op _ _ => op.isAccept
  | _ => false

/-- The `IOCP_SI_ACCEPT`s in the queue, and the `AcceptEx` operations that are outstanding or
completed and not yet taken out. -/
def acceptBudget (s : Server) : Nat :=
  s.queue.countP Entry.isAccept + s.posted.countP Operation.isAccept

def heldAccepts (s : Server) : Nat := s.workers.countP Worker.holdsAccept

/-- The calls that the server answers with no new request when they fail. -/
def Worker.keepsAccept (a : Answer) : Worker → Bool
  | .openSocket | .postAccept _ _ => a.success
  | .examine _ _ op result _ => !op.isAccept || a.errorCode result ≠ errorIoPending
  | _ => true

def keepsAccept (s : Server) : Label → Bool
  | .worker i a => (s.workers[i]?).all (Worker.keepsAccept a)
  | _ => true

theorem acceptBudget_enqueue (s : Server) (e : Entry) :
    acceptBudget { s with queue := s.queue ++ [e] } =
      acceptBudget s + if e.isAccept then 1 else 0 := by
  show (s.queue ++ [e]).countP _ + s.posted.countP _ = _
  rw [acceptBudget, List.countP_append, List.countP_singleton]
  omega

theorem acceptBudget_post (s : Server) (op : Operation) :
    acceptBudget { s with posted := s.posted ++ [op] } =
      acceptBudget s + if op.isAccept then 1 else 0 := by
  show s.queue.countP _ + (s.posted ++ [op]).countP _ = _
  rw [acceptBudget, List.countP_append, List.countP_singleton]
  omega

/-! ## 2. One step -/

-- what is posted as an accept is marked as one
def Worker.Marked : Worker → Prop
  | .postAccept _ op => op.isAccept = true
  | _ => True

theorem dispatch_holdsAccept (e : Entry) : e.dispatch.holdsAccept = e.isAccept := by
  cases e with
  | accept => rfl
  | disconnect dwConnID => rfl
  | completion pSock op result dwBytes => rfl

theorem dispatch_marked (e : Entry) : e.dispatch.Marked := by
  cases e <;> trivial

theorem resume_holdsAccept (pIo : Option IoContext) : (Worker.resume pIo).holdsAccept = false := by
  cases pIo <;> rfl

theorem resume_marked (pIo : Option IoContext) : (Worker.resume pIo).Marked := by
  cases pIo <;> trivial

theorem examine_marked (pSock : Addr) (connID : UInt32) (op : Operation) (dwErrorCode : UInt32)
    (dwBytes : Nat) : (examine pSock connID op dwErrorCode dwBytes).Marked := by
  unfold examine
  repeat' split
  all_goals trivial

/-- An accept whose result is still pending is dropped. -/
theorem examine_holdsAccept (pSock : Addr) (connID : UInt32) (op : Operation)
    (dwErrorCode : UInt32) (dwBytes : Nat) :
    (examine pSock connID op dwErrorCode dwBytes).holdsAccept =
      (op.isAccept && dwErrorCode ≠ errorIoPending) := by
  have hzero : (0 : UInt32) ≠ errorIoPending := by decide
  unfold examine Operation.isAccept
  by_cases herror : dwErrorCode = 0
  · rw [if_neg (not_not.mpr herror), herror]
    cases hso : op.pIo.so <;> split <;> simp_all [Worker.holdsAccept]
  · rw [if_pos herror]
    split
    · next hpending => simp [hpending, Worker.holdsAccept]
    · next hpending =>
      split
      · next hso => split <;> simp [hso, Worker.holdsAccept]
      · next hso => simp [not_not.mp hso, hpending, Worker.holdsAccept]

variable {save : IoContext → List UInt8 → Saved} {s t : Server} {a : Answer}

variable (save) in
theorem receive_budget (connID : UInt32) (op : Operation) (dwBytes : Nat) {w : Worker}
    (hw : w.holdsAccept = false) (hm : w.Marked) :
    acceptBudget (receive save s connID op dwBytes w).1 = acceptBudget s ∧
      (receive save s connID op dwBytes w).2.holdsAccept = false ∧
        (receive save s connID op dwBytes w).2.Marked := by
  unfold receive
  simp only
  split
  · exact ⟨rfl, rfl, trivial⟩
  · exact ⟨rfl, hw, hm⟩

/-- What one step of a worker does to the accepts in the system and in its hands. -/
theorem WorkerStep.budget {w w' : Worker} (h : WorkerStep save s a w t w') (hm : w.Marked) :
    w'.Marked ∧ acceptBudget t + (if w'.holdsAccept then 1 else 0) +
        (if w.keepsAccept a then 0 else 1) =
      acceptBudget s + if w.holdsAccept then 1 else 0 := by
  cases h with
  | @dequeue e queue hqueue =>
    refine ⟨dispatch_marked e, ?_⟩
    rw [dispatch_holdsAccept, acceptBudget, acceptBudget, hqueue, List.countP_cons]
    show queue.countP _ + s.posted.countP _ + _ + 0 = _ + 0
    omega
  | openSocket hok => exact ⟨trivial, by rw [Worker.keepsAccept, if_pos hok]; rfl⟩
  | openFails hfail => exact ⟨trivial, by rw [Worker.keepsAccept, hfail]; rfl⟩
  | getIo => exact ⟨rfl, rfl⟩
  | @postAccept sockClient op hok =>
    refine ⟨trivial, ?_⟩
    rw [acceptBudget_post, Worker.keepsAccept, if_pos hok]
    rfl
  | @acceptFails sockClient op hfail =>
    refine ⟨trivial, ?_⟩
    show acceptBudget s + 0 + (if a.success then 0 else 1) =
      acceptBudget s + if op.isAccept then 1 else 0
    rw [hfail, show op.isAccept = true from hm]
    rfl
  | @readAccept pSock op result dwBytes hso => exact ⟨trivial, rfl⟩
  | @readId pSock op result dwBytes context hso hcontext => exact ⟨trivial, rfl⟩
  | @readDeleted pSock op result dwBytes hso hcontext => exact ⟨trivial, rfl⟩
  | @examine pSock connID op result dwBytes =>
    refine ⟨examine_marked _ _ _ _ _, ?_⟩
    rw [examine_holdsAccept, Worker.keepsAccept, Worker.holdsAccept]
    cases op.isAccept <;> by_cases hp : a.errorCode result = errorIoPending <;> simp [hp]
  | postAgain => exact ⟨trivial, by rw [acceptBudget_enqueue]; rfl⟩
  | postNext => exact ⟨trivial, by rw [acceptBudget_enqueue]; rfl⟩
  | firstReceive hok hopen => exact ⟨trivial, by rw [acceptBudget_post]; rfl⟩
  | nextReceive hok hopen => exact ⟨trivial, by rw [acceptBudget_post]; rfl⟩
  | @saveData pSock connID op dwBytes context hcontext =>
    have ⟨hbudget, hholds, hmarked⟩ := receive_budget save (s := s) connID
      { op with pIo.connID := context.connID } dwBytes (w := .saveData pSock connID op dwBytes)
      rfl trivial
    exact ⟨hmarked, by rw [hbudget, hholds]; rfl⟩
  | findNone => exact ⟨resume_marked _, by rw [resume_holdsAccept]; rfl⟩
  | pool => exact ⟨resume_marked _, by rw [resume_holdsAccept]; rfl⟩
  | _ => exact ⟨trivial, rfl⟩

/-! ## 3. Runs -/

theorem SenderStep.budget {w w' : Sender} (h : SenderStep s a w t w') :
    acceptBudget t = acceptBudget s ∧ t.workers = s.workers := by
  cases h with
  | postSend hok hopen => exact ⟨by rw [acceptBudget_post]; rfl, rfl⟩
  | _ => exact ⟨rfl, rfl⟩

theorem completed_isAccept (op : Operation) (result : Bool) (bytes : List UInt8) :
    (completed? s op result bytes).toList.countP Entry.isAccept =
      if op.isAccept then 1 else 0 := by
  rw [completed?]
  split
  · next hso => simp [Operation.isAccept, hso, Entry.isAccept]
  · next hso =>
    cases s.key op.conn with
    | none => simp [Operation.isAccept, hso]
    | some pSock =>
      by_cases hread : op.pIo.so = .read <;>
        simp [Operation.isAccept, hso, hread, Entry.isAccept]

theorem step_budget {l : Label} (hm : ∀ w ∈ s.workers, w.Marked) (h : step save s l = some t) :
    (∀ w ∈ t.workers, w.Marked) ∧
      acceptBudget t + heldAccepts t + (if keepsAccept s l then 0 else 1) =
        acceptBudget s + heldAccepts s := by
  cases step_cases h with
  | @worker i a w w' u hw hstep =>
    have ⟨hmarked, hbudget⟩ := hstep.budget (hm w (List.mem_of_getElem? hw))
    refine ⟨fun x hx => ?_, ?_⟩
    · rcases List.mem_or_eq_of_mem_set hx with hx | rfl
      · exact hm x hx
      · exact hmarked
    · have hset := countP_set hw w' Worker.holdsAccept
      have hkeeps : keepsAccept s (.worker i a) = w.keepsAccept a := by
        rw [keepsAccept, hw, Option.all_some]
      rw [hkeeps]
      show acceptBudget u + (s.workers.set i w').countP Worker.holdsAccept + _ =
        acceptBudget s + s.workers.countP Worker.holdsAccept
      omega
  | send => exact ⟨hm, rfl⟩
  | @sender i a w w' u hw hstep =>
    have ⟨hbudget, hworkers⟩ := hstep.budget
    refine ⟨hworkers ▸ hm, ?_⟩
    show acceptBudget u + u.workers.countP _ + 0 = _
    rw [hbudget, hworkers]
    rfl
  | disconnect hclient => exact ⟨hm, rfl⟩
  | postDisconnect hcaller =>
    refine ⟨hm, ?_⟩
    show acceptBudget { s with queue := _ } + heldAccepts s + 0 = _
    rw [acceptBudget_enqueue]
    rfl
  | @complete i result bytes op hop =>
    have herase := countP_eraseIdx hop Operation.isAccept
    refine ⟨hm, ?_⟩
    show (s.queue ++ _).countP _ + (s.posted.eraseIdx i).countP _ + heldAccepts s + 0 = _
    rw [acceptBudget, List.countP_append, completed_isAccept]
    omega

theorem heldAccepts_idle {s : Server} (hidle : ∀ w ∈ s.workers, w = .dequeue) :
    heldAccepts s = 0 := by
  refine List.countP_eq_zero.mpr fun w hw => ?_
  rw [hidle w hw]
  decide

theorem started_marked (n m : Nat) : ∀ w ∈ (started n m).workers, w.Marked := by
  intro w hw
  rw [List.eq_of_mem_replicate hw]
  trivial

theorem started_budget (n m : Nat) :
    acceptBudget (started n m) + heldAccepts (started n m) = m := by
  rw [heldAccepts_idle fun w hw => List.eq_of_mem_replicate hw]
  show (List.replicate m Entry.accept).countP _ + 0 + 0 = m
  rw [List.countP_replicate]
  rfl

theorem run_budget {n m : Nat} {labels : List Label}
    (ht : run (step save) (started n m) labels = some t) :
    acceptBudget t + heldAccepts t ≤ m ∧ (acceptBudget t + heldAccepts t = m ↔
      RunMeets (step save) (fun s l => keepsAccept s l = true) (started n m) labels) := by
  have hrun := run_measure (f := fun s => acceptBudget s + heldAccepts s)
    (I := fun s => ∀ w ∈ s.workers, w.Marked) (P := fun s l => keepsAccept s l = true)
    (fun s l t hm hst => ?_) (started_marked n m) ht
  · rw [started_budget] at hrun
    exact hrun.2
  · have ⟨hmarked, hbudget⟩ := step_budget hm hst
    refine ⟨hmarked, by omega, ?_⟩
    show acceptBudget t + heldAccepts t = acceptBudget s + heldAccepts s ↔ _
    split at hbudget
    · next hkeeps => exact iff_of_true (by omega) hkeeps
    · next hloses => exact iff_of_false (by omega) hloses

/-- After every run the accepts are all there, in the system or with the workers, just when `Start`
has queued them and no call that is not followed by a new request has failed; between two entries the
workers have none. -/
theorem accepts_kept_iff {env : SaveEnv} {associate : Bool} {n m : Nat} {labels : List Label}
    {t : Server}
    (ht : run (step (saveData env)) (started n (requestsQueued associate m)) labels = some t) :
    (acceptBudget t + heldAccepts t = m ↔ (associate = true ∨ m = 0) ∧
      RunMeets (step (saveData env)) (fun s l => keepsAccept s l = true)
        (started n (requestsQueued associate m)) labels) ∧
      ((∀ w ∈ t.workers, w = .dequeue) → (acceptBudget t = m ↔ (associate = true ∨ m = 0) ∧
        RunMeets (step (saveData env)) (fun s l => keepsAccept s l = true)
          (started n (requestsQueued associate m)) labels)) := by
  have ⟨hle, hrun⟩ := run_budget ht
  have hbudget : acceptBudget t + heldAccepts t = m ↔ (associate = true ∨ m = 0) ∧
      RunMeets (step (saveData env)) (fun s l => keepsAccept s l = true)
        (started n (requestsQueued associate m)) labels := by
    rw [← hrun]
    cases associate with
    | true => exact (and_iff_right (.inl rfl)).symm
    | false =>
      -- nothing was queued, and nothing is there at any time
      have hnone : acceptBudget t + heldAccepts t = 0 := Nat.le_zero.mp hle
      rw [hnone]
      exact ⟨fun hm => ⟨.inr hm.symm, rfl⟩, fun h => (h.1.resolve_left Bool.false_ne_true).symm⟩
  refine ⟨hbudget, fun hidle => ?_⟩
  rw [heldAccepts_idle hidle, Nat.add_zero] at hbudget
  exact hbudget

/-- One accept is posted, its client served, and the next accept posted. -/
theorem accepts_kept_after_client :
    ∃ t, run (step (saveData ⟨true, fun _ => 0⟩)) (started 1 (requestsQueued true 1))
      (acceptOn 0 7 ++ [.complete 0 true []] ++ takeAccept 0 3 ++ acceptOn 0 8) = some t ∧
      acceptBudget t = 1 := by
  have hrun : (run (step (saveData ⟨true, fun _ => 0⟩)) (started 1 (requestsQueued true 1))
      (acceptOn 0 7 ++ [.complete 0 true []] ++ takeAccept 0 3 ++ acceptOn 0 8)).map
        Server.workers = some [.dequeue] := by decide
  have ⟨t, ht, hworkers⟩ := Option.map_eq_some_iff.mp hrun
  refine ⟨t, ht, ((accepts_kept_iff ht).2 fun w hw => ?_).mpr ⟨.inl rfl, by decide⟩⟩
  rw [hworkers] at hw
  exact List.mem_singleton.mp hw

/-- The only `AcceptEx` fails, and nothing accepts any more. -/
theorem accept_lost : ¬∀ (env : SaveEnv) (associate : Bool) (n m : Nat) (labels : List Label)
    (t : Server),
    run (step (saveData env)) (started n (requestsQueued associate m)) labels = some t →
      (∀ w ∈ t.workers, w = .dequeue) → acceptBudget t = m := by
  intro h
  let labels : List Label := [.worker 0 {}, .worker 0 { handle := 7 }, .worker 0 {},
    .worker 0 { success := false }, .worker 0 {}, .worker 0 {}]
  have hrun : (run (step (saveData ⟨true, fun _ => 0⟩)) (started 1 (requestsQueued true 1))
      labels).map (fun t => (t.workers, acceptBudget t)) = some ([.dequeue], 0) := by decide
  have ⟨t, ht, heq⟩ := Option.map_eq_some_iff.mp hrun
  have ⟨hworkers, hbudget⟩ := Prod.mk.inj heq
  have hm := h _ true _ 1 _ t ht fun w hw => List.mem_singleton.mp (hworkers ▸ hw)
  omega

end VerifyServer.Socket
