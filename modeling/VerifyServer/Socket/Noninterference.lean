import VerifyServer.Socket.Reuse

/-!
# Noninterference — what a connection is delivered depends on its own chunks

The reassembly buffers are in the `IO_CONTEXT` that goes from a connection's accept through all its
receives.  What is delivered for the connection is what its chunks make of empty buffers, when the
context taken for the accept had empty ones.
-/

open VerifyServer.Reasoning

namespace VerifyServer.Socket

/-- The context a worker takes for an accept has empty buffers. -/
def handsOutEmpty (s : Server) : Label → Bool
  | .worker i _ =>
    match s.workers[i]? with
    | some (.getIo _ _) =>
      (getFreeIOContext s.m_lsFreeIOContext).1.tmpBuf = {} ∧
        (getFreeIOContext s.m_lsFreeIOContext).1.tmpHeadBuf = {}
    | _ => true
  | _ => true

/-- The payloads handed to `Recevie` for a connection: under an id that was last given to it. -/
def payloadsTo (s : Server) (conn : Conn) : List (List UInt8) :=
  (s.deliveries.filter fun d => d.addressee = some conn).map fun d => d.rev.rev_buf

/-! ## 1. What a context carries -/

section Carries

variable (env : SaveEnv) (chunks : Conn → List (List UInt8))

/-- The buffers are what the chunks of the connection leave. -/
def Operation.Carries (op : Operation) : Prop :=
  (saveChunks env {} (chunks op.conn)).fault = none ∧
    op.pIo.tmpBuf = (saveChunks env {} (chunks op.conn)).ctx.tmpBuf ∧
      op.pIo.tmpHeadBuf = (saveChunks env {} (chunks op.conn)).ctx.tmpHeadBuf

def Entry.Carries : Entry → Prop
  | .completion _ op _ _ => op.pIo.so ≠ .write → op.Carries env chunks
  | _ => True

def Worker.Carries : Worker → Prop
  | .getIo _ conn => chunks conn = []
  | .readId _ op _ _ | .examine _ _ op _ _ => op.pIo.so ≠ .write → op.Carries env chunks
  | .postAccept _ op | .postNext op | .increment op _ | .getSocket op _ | .fillSocket op _ _
  | .addClient op _ _ | .associate op _ _ | .firstReceive op | .saveData _ _ op _
  | .nextReceive _ op => op.Carries env chunks
  | _ => True

/-- Only the chunks of the connection itself matter. -/
theorem Worker.Carries.congr {env : SaveEnv} {chunks chunks' : Conn → List (List UInt8)}
    {w : Worker} (h : w.Carries env chunks)
    (hsame : ∀ c, w.chain? = some c → chunks' c = chunks c) : w.Carries env chunks' := by
  have hop {op : Operation} (hchunks : chunks' op.conn = chunks op.conn)
      (h : op.Carries env chunks) : op.Carries env chunks' := by
    rw [Operation.Carries, hchunks]
    exact h
  cases w with
  | getIo sockClient conn => exact (hsame conn rfl).trans h
  | readId pSock op result dwBytes => exact fun hso => hop (hsame _ (if_neg hso)) (h hso)
  | examine pSock connID op result dwBytes => exact fun hso => hop (hsame _ (if_neg hso)) (h hso)
  | postAccept sockClient op => exact hop (hsame _ rfl) h
  | postNext op => exact hop (hsame _ rfl) h
  | increment op again => exact hop (hsame _ rfl) h
  | getSocket op connID => exact hop (hsame _ rfl) h
  | fillSocket op connID pSock => exact hop (hsame _ rfl) h
  | addClient op connID pSock => exact hop (hsame _ rfl) h
  | associate op connID pSock => exact hop (hsame _ rfl) h
  | firstReceive op => exact hop (hsame _ rfl) h
  | saveData pSock connID op dwBytes => exact hop (hsame _ rfl) h
  | nextReceive connID op => exact hop (hsame _ rfl) h
  | _ => trivial

end Carries

structure Carried (env : SaveEnv) (s : Server) : Prop where
  posted : ∀ op ∈ s.posted, op.pIo.so ≠ .write → op.Carries env s.chunks
  queue : ∀ e ∈ s.queue, e.Carries env s.chunks
  workers : ∀ w ∈ s.workers, w.Carries env s.chunks
  fresh : ∀ c, s.count ≤ c → s.chunks c = []

/-- What a connection was delivered is what its chunks make. -/
def Delivered (env : SaveEnv) (s : Server) : Prop :=
  ∀ c, payloadsTo s c = payloads env (s.chunks c)

/-! ## 2. Steps that receive nothing -/

/-- Nothing was received, and whatever is new carries what it should. -/
structure Hands (env : SaveEnv) (s t : Server) : Prop where
  chunks : t.chunks = s.chunks
  deliveries : t.deliveries = s.deliveries
  count : s.count ≤ t.count
  posted : ∀ op ∈ t.posted, op ∈ s.posted ∨ (op.pIo.so ≠ .write → op.Carries env s.chunks)
  queue : ∀ e ∈ t.queue, e ∈ s.queue ∨ e.Carries env s.chunks

theorem hands_refl (env : SaveEnv) (s : Server) : Hands env s s :=
  ⟨rfl, rfl, le_refl _, fun _ => .inl, fun _ => .inl⟩

theorem Carried.hands {env : SaveEnv} {s t : Server} (h : Carried env s) (ht : Hands env s t)
    (hworkers : ∀ w ∈ t.workers, w ∈ s.workers ∨ w.Carries env s.chunks) : Carried env t where
  posted op hop := ht.chunks ▸ (ht.posted op hop).elim (h.posted op) id
  queue e he := ht.chunks ▸ (ht.queue e he).elim (h.queue e) id
  workers w hw := ht.chunks ▸ (hworkers w hw).elim (h.workers w) id
  fresh c hc := ht.chunks ▸ h.fresh c (ht.count.trans hc)

theorem Delivered.hands {env : SaveEnv} {s t : Server} (h : Delivered env s)
    (ht : Hands env s t) : Delivered env t := by
  intro c
  rw [payloadsTo, ht.deliveries, ht.chunks]
  exact h c

theorem examine_carries {env : SaveEnv} {chunks : Conn → List (List UInt8)} {pSock : Addr}
    {connID : UInt32} {op : Operation} (h : op.pIo.so ≠ .write → op.Carries env chunks)
    (dwErrorCode : UInt32) (dwBytes : Nat) :
    (Socket.examine pSock connID op dwErrorCode dwBytes).Carries env chunks := by
  unfold Socket.examine
  split
  · split
    · trivial
    · split
      · split <;> trivial
      · trivial
  · split
    · trivial
    · cases hso : op.pIo.so with
      | accept => exact h (by rw [hso]; decide)
      | read => exact h (by rw [hso]; decide)
      | _ => trivial

theorem resume_carries {env : SaveEnv} {chunks : Conn → List (List UInt8)}
    (pIo : Option IoContext) : (Worker.resume pIo).Carries env chunks := by
  cases pIo <;> trivial

/-- An operation is posted that carries what it should. -/
theorem post_hands {env : SaveEnv} (s : Server) {op : Operation}
    (hop : op.pIo.so ≠ .write → op.Carries env s.chunks) :
    Hands env s { s with posted := s.posted ++ [op] } := by
  refine { hands_refl env s with posted := fun op' hop' => ?_ }
  rw [List.mem_append, List.mem_singleton] at hop'
  refine hop'.imp id ?_
  rintro rfl
  exact hop

/-- `PostReceive` posts on the connection's own socket. -/
theorem postReceive_hands {env : SaveEnv} {s : Server} (h : Inv s) {i : Nat} {w : Worker}
    (hw : s.workers[i]? = some w) {op : Operation} (hconn : w.conn? = some op.conn)
    (hop : op.Carries env s.chunks) (hsock : op.pIo.sockAccept = s.sockOf op.conn) {conn : Conn}
    (hopen : s.handles op.pIo.sockAccept = some conn) :
    Hands env s { s with posted := s.posted ++ [⟨{ op.pIo with so := .read }, conn⟩] } := by
  obtain rfl : conn = op.conn := (sound_worker h hw hconn).2.handle conn (hsock ▸ hopen)
  exact post_hands s fun _ => hop

/-- A request for an accept is queued. -/
theorem request_hands (env : SaveEnv) (s : Server) :
    Hands env s { s with queue := s.queue ++ [.accept] } := by
  refine { hands_refl env s with queue := fun e he => ?_ }
  rw [List.mem_append, List.mem_singleton] at he
  refine he.imp id ?_
  rintro rfl
  trivial

theorem dequeue_hands {env : SaveEnv} {s : Server} (hcarried : Carried env s) {e : Entry}
    {queue : List Entry} (hqueue : s.queue = e :: queue) :
    Hands env s { s with queue := queue } ∧ e.dispatch.Carries env s.chunks := by
  refine ⟨{ hands_refl env s with
    queue := fun e' he' => .inl (hqueue ▸ List.mem_cons_of_mem _ he') }, ?_⟩
  have he := hcarried.queue e (hqueue ▸ List.mem_cons_self ..)
  cases e with
  | completion pSock op result dwBytes => exact he
  | _ => trivial

/-- One step of a worker that is not at `SaveData`. -/
theorem WorkerStep.hands {env : SaveEnv} {s t : Server} {i : Nat} {a : Answer} {w w' : Worker}
    (hstep : WorkerStep (Socket.saveData env) s a w t w') (h : Inv s) (hcarried : Carried env s)
    (hw : s.workers[i]? = some w) (hempty : handsOutEmpty s (.worker i a) = true)
    (hnot : ∀ pSock connID op dwBytes, w ≠ .saveData pSock connID op dwBytes) :
    Hands env s t ∧ w'.Carries env s.chunks := by
  have hcarry := hcarried.workers w (List.mem_of_getElem? hw)
  have hfits := h.workers w (List.mem_of_getElem? hw)
  cases hstep with
  | dequeue hqueue => exact dequeue_hands hcarried hqueue
  | openSocket =>
    exact ⟨{ hands_refl env s with count := Nat.le_succ _ }, hcarried.fresh _ (le_refl _)⟩
  | @getIo sockClient conn =>
    simp only [handsOutEmpty, hw, decide_eq_true_eq] at hempty
    refine ⟨{ hands_refl env s with }, ?_⟩
    rw [Worker.Carries, Operation.Carries, show s.chunks conn = [] from hcarry]
    exact ⟨rfl, hempty⟩
  | postAccept hok => exact ⟨post_hands s fun _ => hcarry, trivial⟩
  | readAccept hso => exact ⟨hands_refl env s, hcarry⟩
  | readId hso hcontext => exact ⟨hands_refl env s, hcarry⟩
  | readDeleted hso hcontext => exact ⟨{ hands_refl env s with }, hcarry⟩
  | examine => exact ⟨hands_refl env s, examine_carries hcarry _ _⟩
  | postAgain => exact ⟨request_hands env s, trivial⟩
  | postNext => exact ⟨request_hands env s, hcarry⟩
  | incrementAgain hzero => exact ⟨{ hands_refl env s with }, hcarry⟩
  | increment hid => exact ⟨{ hands_refl env s with }, hcarry⟩
  | getSocket hfree => exact ⟨{ hands_refl env s with }, hcarry⟩
  | newSocket hempty hnew => exact ⟨{ hands_refl env s with }, hcarry⟩
  | fillDeleted hcontext => exact ⟨{ hands_refl env s with }, hcarry⟩
  | fillSocket hcontext => exact ⟨{ hands_refl env s with }, hcarry⟩
  | addClient => exact ⟨{ hands_refl env s with }, hcarry⟩
  | associate hok hopen hkey => exact ⟨{ hands_refl env s with }, hcarry⟩
  | firstReceive hok hopen =>
    obtain ⟨connID, pSock, hat⟩ := hfits
    exact ⟨postReceive_hands h hw rfl hcarry hat.1 hopen, trivial⟩
  | saveDeleted hcontext => exact absurd rfl (hnot _ _ _ _)
  | saveData hcontext => exact absurd rfl (hnot _ _ _ _)
  | nextReceive hok hopen =>
    obtain ⟨pSock, hat⟩ := hfits
    exact ⟨postReceive_hands h hw rfl hcarry hat.1 hopen, trivial⟩
  | findNone hnone => exact ⟨hands_refl env s, resume_carries _⟩
  | pool hnodup hlive => exact ⟨{ hands_refl env s with }, resume_carries _⟩
  | _ => exact ⟨{ hands_refl env s with }, trivial⟩

theorem SenderStep.hands (env : SaveEnv) {s t : Server} {a : Answer} {w w' : Sender}
    (hstep : SenderStep s a w t w') : Hands env s t ∧ t.workers = s.workers := by
  cases hstep with
  | postSend hok hopen => exact ⟨post_hands s fun hso => absurd rfl hso, rfl⟩
  | _ => exact ⟨{ hands_refl env s with }, rfl⟩

/-- The entry of an operation carries what the operation does. -/
theorem completed_carries {env : SaveEnv} {s : Server} {op : Operation}
    (hop : op.pIo.so ≠ .write → op.Carries env s.chunks) {result : Bool} {bytes : List UInt8}
    {e : Entry} (he : completed? s op result bytes = some e) : e.Carries env s.chunks := by
  rw [completed?] at he
  split at he
  · obtain rfl := Option.some.inj he
    exact hop
  · obtain ⟨pSock, -, rfl⟩ := Option.map_eq_some_iff.mp he
    split
    · exact hop
    · exact hop

/-! ## 3. The step that receives -/

theorem filter_addressee (revs : List Rev) (c d : Conn) (holder : UInt32 → Option Conn)
    (h : ∀ rev ∈ revs, holder rev.uSokcetID = some c) :
    ((revs.map fun rev => (⟨c, rev, holder rev.uSokcetID⟩ : Delivery)).filter
      fun x => x.addressee = some d).map (fun x => x.rev.rev_buf) =
        if c = d then revs.map Rev.rev_buf else [] := by
  induction revs with
  | nil => split <;> rfl
  | cons rev revs ih =>
    have hrev := h rev (List.mem_cons_self ..)
    have hrest := ih fun r hr => h r (List.mem_cons_of_mem _ hr)
    by_cases hcd : c = d
    · rw [if_pos hcd] at hrest ⊢
      rw [List.map_cons, List.filter_cons_of_pos (by simpa [hrev] using hcd), List.map_cons, hrest,
        List.map_cons]
    · rw [if_neg hcd] at hrest ⊢
      rw [List.map_cons, List.filter_cons_of_neg (by simpa [hrev] using hcd), hrest]

theorem receive_carried {env : SaveEnv} {s : Server} (h : Inv s) (hcarried : Carried env s)
    (hdelivered : Delivered env s) {i : Nat} {pSock : Addr} {connID : UInt32} {op : Operation}
    {dwBytes : Nat} (hw : s.workers[i]? = some (.saveData pSock connID op dwBytes)) {t : Server}
    {w' : Worker} (ht : receive (saveData env) s connID { op with pIo.connID := connID } dwBytes
      (.saveData pSock connID op dwBytes) = (t, w')) :
    Delivered env { t with workers := s.workers.set i w' } ∧
      (t.crashed = none → Carried env { t with workers := s.workers.set i w' }) := by
  obtain ⟨-, hlisted⟩ : op.At s.stage s.sockOf (.listed connID pSock) :=
    h.workers _ (List.mem_of_getElem? hw)
  obtain ⟨huse, hsound⟩ := sound_worker h hw rfl
  have hholder : s.holder connID = some op.conn := hsound.holder connID (by rw [hlisted]; rfl)
  obtain ⟨hfault, hbody, hhead⟩ : op.Carries env s.chunks :=
    hcarried.workers _ (List.mem_of_getElem? hw)
  obtain ⟨hops, hentries, hothers⟩ := h.others hw rfl
  let chunk := op.pIo.wsaBuf.take dwBytes
  let pIo : IoContext := { op.pIo with connID := connID }
  let r := saveData env pIo chunk
  let chunks := Function.update s.chunks op.conn (s.chunks op.conn ++ [chunk])
  have hbuf : pIo = pIo.withBuffers (saveChunks env {} (s.chunks op.conn)).ctx := by
    rw [IoContext.withBuffers, ← hbody, ← hhead]
  obtain ⟨hpayloads, hfault', hctx⟩ := saveData_after hfault hbuf chunk
  have hself : chunks op.conn = s.chunks op.conn ++ [chunk] := Function.update_self ..
  have hother {c : Conn} (hc : c ≠ op.conn) : chunks c = s.chunks c := Function.update_of_ne hc _ _
  have hdelivered' (c : Conn) : payloadsTo { s with
      deliveries := s.deliveries ++ r.revs.map fun rev =>
        ⟨op.conn, rev, s.holder rev.uSokcetID⟩ } c = payloads env (chunks c) := by
    have hids : ∀ rev ∈ r.revs, s.holder rev.uSokcetID = some op.conn := fun rev hrev => by
      rw [saveData_connID hrev]
      exact hholder
    have hold : (s.deliveries.filter fun d => d.addressee = some c).map (fun d => d.rev.rev_buf) =
        payloads env (s.chunks c) := hdelivered c
    rw [payloadsTo, List.filter_append, List.map_append,
      filter_addressee r.revs op.conn c s.holder hids,
      hold]
    by_cases hc : op.conn = c
    · subst hc
      rw [if_pos rfl, hself, hpayloads]
    · rw [if_neg hc, hother (Ne.symm hc), List.append_nil]
  -- the other operations that carry chunks belong to other connections
  have hcarry {op' : Operation} (hne : op'.conn ≠ op.conn) (h : op'.Carries env s.chunks) :
      op'.Carries env chunks := by
    rw [Operation.Carries, hother hne]
    exact h
  have hne {op' : Operation} (hc : op'.chain? ≠ some op.conn) (hso : op'.pIo.so ≠ .write) :
      op'.conn ≠ op.conn := fun heq => hc (by rw [Operation.chain?, if_neg hso, heq])
  unfold receive at ht
  simp only at ht
  cases hf : r.fault with
  | some fault =>
    simp only [r, chunk, pIo] at hf
    rw [hf] at ht
    obtain ⟨rfl, rfl⟩ := Prod.mk.inj ht
    exact ⟨hdelivered', fun hcrashed => by cases hcrashed⟩
  | none =>
    have hnew : Operation.Carries env chunks ⟨r.ctx, op.conn⟩ := by
      rw [Operation.Carries, hself]
      exact ⟨hfault'.symm.trans hf, by rw [hctx]; rfl, by rw [hctx]; rfl⟩
    simp only [r, chunk, pIo] at hf
    rw [hf] at ht
    obtain ⟨rfl, rfl⟩ := Prod.mk.inj ht
    refine ⟨hdelivered', fun _ => ⟨fun op' hop' hso => ?_, fun e he => ?_, fun x hx => ?_,
      fun c hc => ?_⟩⟩
    · exact hcarry (hne (hops op' hop') hso) (hcarried.posted op' hop' hso)
    · have hold := hcarried.queue e he
      cases e with
      | completion pSock op' result dwBytes =>
        exact fun hso => hcarry (hne (hentries _ he) hso) (hold hso)
      | _ => trivial
    · rcases hothers _ x hx with rfl | ⟨hx, hxc⟩
      · exact hnew
      · exact (hcarried.workers x hx).congr fun c hc => hother fun heq => hxc (heq ▸ hc)
    · have hne : c ≠ op.conn := fun heq => Nat.not_lt.mpr hc (by rw [heq]; exact h.below _ huse)
      exact (hother hne).trans (hcarried.fresh c hc)

/-! ## 4. Runs -/

/-- The condition on a step. -/
def keepsApart (s : Server) (l : Label) : Bool := sparesInUse s l && handsOutEmpty s l

structure Good (env : SaveEnv) (s : Server) : Prop where
  inv : Inv s
  isolated : Isolated s
  delivered : Delivered env s
  carried : s.crashed = none → Carried env s

theorem step_keeps_good {env : SaveEnv} {s t : Server} {l : Label} (h : Good env s)
    (hl : keepsApart s l = true) (ht : step (saveData env) s l = some t) : Good env t := by
  obtain ⟨hspare, hempty⟩ := Bool.and_eq_true_iff.mp hl
  obtain ⟨hinv, hisolated⟩ := step_good ⟨h.inv, h.isolated⟩ hspare ht
  suffices hkeep : Delivered env t ∧ (t.crashed = none → Carried env t) from
    ⟨hinv, hisolated, hkeep.1, hkeep.2⟩
  have hcarried := h.carried (step_running ht)
  have hands {u : Server} (hu : Hands env s u) (hworkers : u.workers = s.workers) :
      Delivered env u ∧ (u.crashed = none → Carried env u) :=
    ⟨h.delivered.hands hu, fun _ => hcarried.hands hu fun w hw => .inl (hworkers ▸ hw)⟩
  cases step_cases ht with
  | @worker i a w w' u hw hstep =>
    -- only `SaveData` delivers; every other step of a worker hands on what it has
    by_cases hsave : ∃ pSock connID op dwBytes, w = .saveData pSock connID op dwBytes
    · obtain ⟨pSock, connID, op, dwBytes, rfl⟩ := hsave
      have hlisted := (h.inv.workers _ (List.mem_of_getElem? hw)).2
      have htaken := hstep.taken
      rw [stepWorker, context_listed h.inv hw rfl hlisted] at htaken
      exact receive_carried h.inv hcarried h.delivered hw (Option.some.inj htaken)
    · obtain ⟨hu, hw'⟩ := hstep.hands h.inv hcarried hw hempty
        fun pSock connID op dwBytes heq => hsave ⟨pSock, connID, op, dwBytes, heq⟩
      have hu' : Hands env s { u with workers := s.workers.set i w' } := { hu with }
      refine ⟨h.delivered.hands hu', fun _ => hcarried.hands hu' fun x hx => ?_⟩
      refine (List.mem_or_eq_of_mem_set hx).imp id ?_
      rintro rfl
      exact hw'
  | send => exact hands { hands_refl env s with } rfl
  | sender hw hstep =>
    obtain ⟨hu, hworkers⟩ := hstep.hands env
    exact hands { hu with } hworkers
  | disconnect hclient => exact hands { hands_refl env s with } rfl
  | postDisconnect hcaller =>
    refine hands { hands_refl env s with queue := fun e he => ?_ } rfl
    rw [List.mem_append, List.mem_singleton] at he
    refine he.imp id ?_
    rintro rfl
    trivial
  | @complete i result bytes op hop =>
    have hmem := List.mem_of_getElem? hop
    refine hands { hands_refl env s with
      posted := fun op' hop' => .inl (List.mem_of_mem_eraseIdx hop')
      queue := fun e he => ?_ } rfl
    rw [List.mem_append] at he
    exact he.imp id fun he =>
      completed_carries (hcarried.posted op hmem) (Option.mem_toList.mp he)

theorem started_good' (env : SaveEnv) (n m : Nat) : Good env (started n m) := by
  obtain ⟨hinv, hisolated⟩ := started_good n m
  refine ⟨hinv, hisolated, fun _ => rfl, fun _ => ⟨nofun, fun e he => ?_, fun w hw => ?_,
    fun _ _ => rfl⟩⟩
  · rw [List.eq_of_mem_replicate he]
    trivial
  · rw [List.eq_of_mem_replicate hw]
    trivial

/-- In every run whose steps meet the condition, every connection is delivered what its chunks
make of empty buffers. -/
theorem run_delivered {env : SaveEnv} {n m : Nat} {labels : List Label} {t : Server}
    (hl : RunMeets (step (saveData env)) (fun s l => keepsApart s l = true) (started n m) labels)
    (ht : run (step (saveData env)) (started n m) labels = some t) : Delivered env t :=
  (run_invariant (I := Good env) (fun _ _ _ h hl hst => step_keeps_good h hl hst)
    (started_good' env n m) hl ht).delivered

/-- In two runs whose steps meet the condition, connections that receive the same chunks are
delivered the same payloads, whatever else is received. -/
theorem run_noninterference {env : SaveEnv} {n m n' m' : Nat} {labels labels' : List Label}
    {t t' : Server} {c c' : Conn}
    (hl : RunMeets (step (saveData env)) (fun s l => keepsApart s l = true) (started n m) labels)
    (ht : run (step (saveData env)) (started n m) labels = some t)
    (hl' : RunMeets (step (saveData env)) (fun s l => keepsApart s l = true) (started n' m') labels')
    (ht' : run (step (saveData env)) (started n' m') labels' = some t')
    (hchunks : t.chunks c = t'.chunks c') : payloadsTo t c = payloadsTo t' c' := by
  rw [run_delivered hl ht c, run_delivered hl' ht' c', hchunks]

/-! ## 5. Two connections, and a third -/

def recevier : SaveEnv := ⟨true, fun bs => bs.length⟩

/-- The frame of `{}`. -/
def bracesFrame : List UInt8 :=
  [0x53, 0x3A, 50, 0, 0, 0, 17, 0, 0, 0, 0x7B, 0x7D, 0xF8, 0, 0, 0, 0x45]

/-- `SaveData` with the answers to three calls written out, so that a run can be evaluated. -/
def quickSave (pIo : IoContext) (pBuf : List UInt8) : Saved :=
  if pIo.tmpBuf = {} ∧ pIo.tmpHeadBuf = {} ∧ pBuf = [0x58] then
    ⟨{ pIo with tmpHeadBuf := ⟨some [0x58], 1⟩ }, [], none⟩
  else if pIo.tmpBuf = {} ∧ pIo.tmpHeadBuf = {} ∧ pBuf = bracesFrame then
    ⟨pIo, [⟨pIo.connID, [0x7B, 0x7D, 0], 3⟩], none⟩
  else if pIo.tmpBuf = {} ∧ pIo.tmpHeadBuf = ⟨some [0x58], 1⟩ ∧ pBuf = bracesFrame then
    ⟨{ pIo with tmpHeadBuf := {} }, [], none⟩
  else saveData recevier pIo pBuf

theorem saveData_quick : saveData recevier = quickSave := by
  funext pIo pBuf
  obtain ⟨connID, sockAccept, wsaBuf, tmpBuf, tmpHeadBuf, so⟩ := pIo
  unfold quickSave
  split_ifs with hx hframe hrest
  · obtain ⟨rfl, rfl, rfl⟩ := hx
    rw [saveData]
    rfl
  · obtain ⟨rfl, rfl, rfl⟩ := hframe
    rw [saveData, if_neg (by exact Int.lt_irrefl 0)]
    simp only
    rw [if_pos (by exact rfl), if_pos (by decide), if_neg (by decide), if_neg (by decide), saveData,
      if_neg (by exact Int.lt_irrefl 0)]
    rfl
  · obtain ⟨rfl, rfl, rfl⟩ := hrest
    rw [saveData, if_pos (by exact Int.one_pos)]
    split
    · next h => cases h
    · next head h =>
      obtain rfl : [0x58] = head := Option.some.inj h
      rw [saveData, if_neg (by exact Int.lt_irrefl 0)]
      rfl
  · rfl

-- one worker takes a completed receive through `SaveData`
def takeReceive : List Label := List.replicate 5 (.worker 0 {})

/-- The first connection sends `chunk`, the second a frame. -/
def twoClients (chunk : List UInt8) : List Label :=
  acceptOn 0 7 ++ [.complete 0 true []] ++ takeAccept 0 3 ++ acceptOn 0 8 ++
    [.complete 0 true chunk] ++ takeReceive ++ [.complete 0 true []] ++ takeAccept 0 4 ++
      [.complete 1 true bracesFrame] ++ acceptOn 0 9 ++ takeReceive

theorem run_noninterference_two :
    ∃ t t', run (step (saveData recevier)) (started 1 1) (twoClients [0x58]) = some t ∧
      run (step (saveData recevier)) (started 1 1) (twoClients bracesFrame) = some t' ∧
        t.chunks 0 ≠ t'.chunks 0 ∧ payloadsTo t 1 = [[0x7B, 0x7D, 0]] ∧
          payloadsTo t 1 = payloadsTo t' 1 := by
  have hrun : (run (step (saveData recevier)) (started 1 1) (twoClients [0x58])).map
      (fun t => (t.chunks 0, t.chunks 1, payloadsTo t 1)) =
        some ([[0x58]], [bracesFrame], [[0x7B, 0x7D, 0]]) := by
    rw [saveData_quick]
    decide
  have hrun' : (run (step (saveData recevier)) (started 1 1) (twoClients bracesFrame)).map
      (fun t => (t.chunks 0, t.chunks 1)) = some ([bracesFrame], [bracesFrame]) := by
    rw [saveData_quick]
    decide
  obtain ⟨t, ht, heq⟩ := Option.map_eq_some_iff.mp hrun
  obtain ⟨t', ht', heq'⟩ := Option.map_eq_some_iff.mp hrun'
  simp only [Prod.mk.injEq] at heq heq'
  refine ⟨t, t', ht, ht', by rw [heq.1, heq'.1]; decide, heq.2.2, ?_⟩
  exact run_noninterference (by rw [saveData_quick]; decide +kernel) ht
    (by rw [saveData_quick]; decide +kernel) ht' (heq.2.1.trans heq'.2.symm)

/-- The first connection sends `chunk` and is closed by its peer.  Its context is taken for the third
connection, which sends a frame. -/
def thirdClient (chunk : List UInt8) : List Label :=
  acceptOn 0 7 ++ [.complete 0 true []] ++ takeAccept 0 3 ++ acceptOn 0 8 ++
    [.complete 0 true chunk] ++ takeReceive ++ [.complete 1 true []] ++
      List.replicate 7 (.worker 0 {}) ++ [.complete 0 true []] ++ takeAccept 0 4 ++ acceptOn 0 9 ++
        [.complete 1 true []] ++ takeAccept 0 5 ++ [.complete 1 true bracesFrame] ++
          acceptOn 0 10 ++ takeReceive

theorem leftover_interferes : ¬∀ (env : SaveEnv) (n m : Nat) (labels labels' : List Label)
    (t t' : Server) (c : Conn), run (step (saveData env)) (started n m) labels = some t →
      run (step (saveData env)) (started n m) labels' = some t' → t.chunks c = t'.chunks c →
        payloadsTo t c = payloadsTo t' c := by
  intro h
  have hrun : (run (step (saveData recevier)) (started 1 1) (thirdClient [0x58])).map
      (fun t => (t.chunks 2, payloadsTo t 2)) = some ([bracesFrame], []) := by
    rw [saveData_quick]
    decide
  have hrun' : (run (step (saveData recevier)) (started 1 1) (thirdClient bracesFrame)).map
      (fun t => (t.chunks 2, payloadsTo t 2)) = some ([bracesFrame], [[0x7B, 0x7D, 0]]) := by
    rw [saveData_quick]
    decide
  obtain ⟨t, ht, heq⟩ := Option.map_eq_some_iff.mp hrun
  obtain ⟨t', ht', heq'⟩ := Option.map_eq_some_iff.mp hrun'
  obtain ⟨hchunks, hpayloads⟩ := Prod.mk.inj heq
  obtain ⟨hchunks', hpayloads'⟩ := Prod.mk.inj heq'
  have hsame := h _ _ _ _ _ t t' 2 ht ht' (hchunks.trans hchunks'.symm)
  rw [hpayloads, hpayloads'] at hsame
  cases hsame

end VerifyServer.Socket
