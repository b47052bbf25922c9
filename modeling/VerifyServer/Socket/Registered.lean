import VerifyServer.Socket.Receives
import VerifyServer.Socket.SocketPool

/-!
# Registered — the connections that can still report their end

An entry of `m_mpClientSocket` is removed when a receive of its connection fails or ends.  The
entries are followed while one completion after the other is handled, with what the system answers.
-/

open VerifyServer.Reasoning

namespace VerifyServer.Socket

/-! ## 1. Receives -/

def Operation.receives (c : Conn) (op : Operation) : Bool := op.pIo.so = .read && op.conn = c

def Entry.receives (c : Conn) : Entry → Bool
  | .completion _ op _ _ => op.receives c
  | _ => false

/-- The receives of a connection that are outstanding or completed and not yet handled. -/
def receives (s : Server) (c : Conn) : Nat :=
  s.posted.countP (Operation.receives c) + s.queue.countP (Entry.receives c)

/-- Every registered connection has exactly one. -/
def Reported (s : Server) : Prop :=
  ∀ connID client, s.m_mpClientSocket connID = some client → receives s client.conn = 1

/-- A worker takes an entry out of the queue while every other waits for one. -/
def oneAtATime (s : Server) : Label → Bool
  | .worker i _ => s.workers[i]? ≠ some .dequeue || s.workers.all fun w => w = .dequeue
  | _ => true

/-- The error codes after which a receive is dropped and its connection is not closed. -/
def dropsReceive (dwErrorCode : UInt32) : Bool :=
  dwErrorCode = errorIoPending || dwErrorCode = wsaENotSock || dwErrorCode = errorOperationAborted

def Worker.keepsReceive (s : Server) (a : Answer) : Worker → Bool
  | .examine _ connID op result _ =>
    !(op.receives op.conn && (s.m_mpClientSocket connID).map Client.conn = some op.conn &&
      dropsReceive (a.errorCode result))
  | .associate op _ _ | .nextReceive _ op =>
    !a.success || s.handles op.pIo.sockAccept = some op.conn
  | .firstReceive op => a.success && s.handles op.pIo.sockAccept = some op.conn
  | _ => true

/-- The first `PostReceive` of a connection succeeds, none is made on a socket that has got the
handle of another, and no receive of a registered connection is dropped. -/
def keepsReceive (s : Server) : Label → Bool
  | .worker i a => (s.workers[i]?).all (Worker.keepsReceive s a)
  | _ => true

theorem keepsReceive_own {s : Server} {l : Label} (h : keepsReceive s l = true) :
    postsOwn s l = true := by
  cases l with
  | worker i a =>
    rw [keepsReceive] at h
    rw [postsOwn]
    cases hw : s.workers[i]? with
    | none => rfl
    | some w =>
      rw [hw] at h
      cases w with
      | firstReceive op =>
        have hboth := (Bool.and_eq_true _ _).mp h
        exact (Bool.or_eq_true _ _).mpr (.inr hboth.2)
      | nextReceive connID op => exact h
      | _ => rfl
  | _ => rfl

/-! ## 2. The contexts of the registered connections -/

/-- The context of an entry has its id. -/
def Named (s : Server) : Prop :=
  ∀ connID client, s.m_mpClientSocket connID = some client →
    ∃ sock, s.context client.pSock = some ⟨connID, sock⟩

/-- What `ProcessAccept` has filled in, and what `FindSocketContext` has found. -/
def Worker.Prepared (s : Server) : Worker → Prop
  | .addClient _ connID pSock => ∃ sock, s.context pSock = some ⟨connID, sock⟩
  | .close _ connID pSock _ => (s.m_mpClientSocket connID).map Client.pSock = some pSock
  | _ => True

theorem dispatch_prepared (s : Server) (e : Entry) : e.dispatch.Prepared s := by
  cases e <;> trivial

theorem resume_prepared (s : Server) (pIo : Option IoContext) : (Worker.resume pIo).Prepared s := by
  cases pIo <;> trivial

theorem examine_prepared (s : Server) (pSock : Addr) (connID : UInt32) (op : Operation)
    (dwErrorCode : UInt32) (dwBytes : Nat) :
    (examine pSock connID op dwErrorCode dwBytes).Prepared s := by
  have hcases := examine_cases pSock connID op dwErrorCode dwBytes
  generalize examine pSock connID op dwErrorCode dwBytes = w at hcases
  cases hcases <;> trivial

section Contexts

variable {save : IoContext → List UInt8 → Saved} {s t : Server} {i : Nat} {a : Answer}

variable (save) in
theorem receive_named (connID : UInt32) (op : Operation) (dwBytes : Nat) {w : Worker}
    (hw : ∀ s, w.Prepared s) :
    (receive save s connID op dwBytes w).1.m_mpClientSocket = s.m_mpClientSocket ∧
      (receive save s connID op dwBytes w).1.context = s.context ∧
        ∀ t, (receive save s connID op dwBytes w).2.Prepared t := by
  unfold receive
  simp only
  split
  · exact ⟨rfl, rfl, fun _ => trivial⟩
  · exact ⟨rfl, rfl, hw⟩

theorem Named.of_eq (h : Named s) (hmap : t.m_mpClientSocket = s.m_mpClientSocket)
    (hcontext : t.context = s.context) : Named t := by
  intro connID client hclient
  rw [hmap] at hclient
  rw [hcontext]
  exact h connID client hclient

/-- Contexts that no entry has may change. -/
theorem Named.of_context (h : Named s) (hmap : t.m_mpClientSocket = s.m_mpClientSocket)
    (hcontext : ∀ connID client, s.m_mpClientSocket connID = some client →
      t.context client.pSock = s.context client.pSock) : Named t := by
  intro connID client hclient
  rw [hmap] at hclient
  rw [hcontext connID client hclient]
  exact h connID client hclient

theorem WorkerStep.named {w w' : Worker} (h : Named s) (hown : Owned s)
    (hw : s.workers[i]? = some w) (hprepared : w.Prepared s) (hstep : WorkerStep save s a w t w') :
    Named t ∧ w'.Prepared t := by
  cases hstep with
  | @dequeue e queue hqueue => exact ⟨h.of_eq rfl rfl, dispatch_prepared _ e⟩
  | examine => exact ⟨h, examine_prepared ..⟩
  | newSocket hempty hnew =>
    refine ⟨h.of_context rfl fun connID client hclient => Function.update_of_ne ?_ _ _, trivial⟩
    intro heq
    have ⟨sock, hsock⟩ := h connID client hclient
    rw [heq, hnew] at hsock
    cases hsock
  | @fillSocket op connID pSock context hcontext =>
    refine ⟨h.of_context rfl fun id client hclient => Function.update_of_ne ?_ _ _,
      op.pIo.sockAccept, Function.update_self ..⟩
    intro heq
    cases hown.unshared (.entry id) (.hand i) pSock (heq ▸ place_entry hclient)
      (place_hand hw)
  | @addClient op connID pSock =>
    refine ⟨fun id client hclient => ?_, trivial⟩
    replace hclient : Function.update s.m_mpClientSocket connID (some ⟨pSock, op.conn⟩) id =
      some client := hclient
    by_cases hid : id = connID
    · rw [hid, Function.update_self] at hclient
      rw [hid, ← Option.some.inj hclient]
      exact hprepared
    · rw [Function.update_of_ne hid] at hclient
      exact h id client hclient
  | @saveData pSock connID op dwBytes context hcontext =>
    have ⟨hmap, hcontexts, hnext⟩ := receive_named save (s := s) connID
      { op with pIo.connID := context.connID } dwBytes
      (w := .saveData pSock connID op dwBytes) fun _ => trivial
    exact ⟨h.of_eq hmap hcontexts, hnext _⟩
  | findNone hnone => exact ⟨h, resume_prepared ..⟩
  | @find cause dwConnID pIo client hclient =>
    refine ⟨h, ?_⟩
    show (s.m_mpClientSocket dwConnID).map Client.pSock = some client.pSock
    rw [hclient]
    rfl
  | closeDeleted hcontext => exact ⟨h.of_eq rfl rfl, hprepared⟩
  | @close cause dwConnID pSock pIo context hcontext =>
    refine ⟨fun id client hclient => ?_, trivial⟩
    replace hclient : Function.update s.m_mpClientSocket dwConnID none id = some client := hclient
    by_cases hid : id = dwConnID
    · rw [hid, Function.update_self] at hclient
      cases hclient
    · rw [Function.update_of_ne hid] at hclient
      exact h id client hclient
  | @pool cause pSock pIo hnodup hlive =>
    refine ⟨h.of_context rfl fun connID client hclient => if_neg ?_, resume_prepared ..⟩
    intro hp
    have hentry : place s (.entry connID) = some client.pSock := place_entry hclient
    -- what is deleted was free or in the worker's hands
    rw [← purged_eq_take] at hp
    cases List.mem_append.mp (List.mem_of_mem_take hp) with
    | inl hfree =>
      exact hown.unshared.notMem (f := .free) (fun _ => rfl) hentry nofun hfree
    | inr hlast =>
      cases hown.unshared (.entry connID) (.hand i) pSock
        (hentry.trans (congrArg some (List.mem_singleton.mp hlast))) (place_hand hw)
  | _ => exact ⟨h.of_eq rfl rfl, trivial⟩

end Contexts

/-! ## 3. The receive of an entry -/

def Entry.Receives (client : Client) : Entry → Prop
  | .completion pSock op _ _ => op.receives client.conn = true ∧ pSock = client.pSock
  | _ => False

/-- The worker has the receive of the entry, or is to post it. -/
def Worker.Receives (connID : UInt32) (client : Client) : Worker → Prop
  | .readId pSock op _ _ => op.receives client.conn = true ∧ pSock = client.pSock
  | .examine _ id op _ _ => op.receives client.conn = true ∧ id = connID
  | .saveData _ id op _ | .nextReceive id op => op.conn = client.conn ∧ id = connID
  | .firstReceive op => op.conn = client.conn
  | _ => False

/-- The worker is to associate the socket of the entry, or to remove the entry. -/
def Worker.Settles (connID : UInt32) (client : Client) : Worker → Prop
  | .associate op id pSock => id = connID ∧ client = ⟨pSock, op.conn⟩
  | .find _ id _ | .close _ id _ _ => id = connID
  | _ => False

/-- Where the receive of an entry is, when `w` is the one worker that does anything. -/
inductive Accounted (s : Server) (w : Worker) (connID : UInt32) (client : Client) : Prop where
  | posted {op : Operation} (hkey : s.key client.conn = some client.pSock) (hop : op ∈ s.posted)
    (hreceives : op.receives client.conn = true) : Accounted s w connID client
  | queued {e : Entry} (hkey : s.key client.conn = some client.pSock) (he : e ∈ s.queue)
    (hreceives : e.Receives client) : Accounted s w connID client
  | held (hkey : s.key client.conn = some client.pSock) (hreceives : w.Receives connID client) :
    Accounted s w connID client
  | settled (h : w.Settles connID client) : Accounted s w connID client

theorem Operation.receives_conn {op : Operation} {c : Conn} (h : op.receives c = true) :
    op.pIo.so = .read ∧ op.conn = c := by
  rw [Operation.receives, Bool.and_eq_true] at h
  exact ⟨of_decide_eq_true h.1, of_decide_eq_true h.2⟩

theorem receives_read (pIo : IoContext) (c : Conn) :
    Operation.receives c ⟨{ pIo with so := .read }, c⟩ = true := by
  simp [Operation.receives]

section Receiving

variable {save : IoContext → List UInt8 → Saved} {s t : Server} {i : Nat} {a : Answer}
  {w w' : Worker} {connID : UInt32} {client : Client}

/-- What is posted or queued stays so. -/
theorem Accounted.goto (h : Accounted s w connID client)
    (hkey : ∀ c pSock, s.key c = some pSock → t.key c = some pSock)
    (hposted : ∀ op ∈ s.posted, op ∈ t.posted) (hqueue : ∀ e ∈ s.queue, e ∈ t.queue)
    (hheld : s.key client.conn = some client.pSock → w.Receives connID client →
      Accounted t w' connID client)
    (hsettled : w.Settles connID client → Accounted t w' connID client) :
    Accounted t w' connID client := by
  cases h with
  | posted hk hop hreceives => exact .posted (hkey _ _ hk) (hposted _ hop) hreceives
  | queued hk he hreceives => exact .queued (hkey _ _ hk) (hqueue _ he) hreceives
  | held hk hreceives => exact hheld hk hreceives
  | settled hends => exact hsettled hends

/-- A step that posts nothing, takes nothing from the queue and makes no key. -/
theorem Accounted.stay (h : Accounted s w connID client) (hkey : t.key = s.key)
    (hposted : t.posted = s.posted) (hqueue : t.queue = s.queue)
    (hheld : s.key client.conn = some client.pSock → w.Receives connID client →
      Accounted t w' connID client)
    (hsettled : w.Settles connID client → Accounted t w' connID client) :
    Accounted t w' connID client := by
  apply h.goto _ _ _ hheld hsettled
  · rw [hkey]
    exact fun _ _ hk => hk
  · rw [hposted]
    exact fun _ hop => hop
  · rw [hqueue]
    exact fun _ he => he

theorem Accounted.mono (h : Accounted s w connID client)
    (hkey : ∀ c pSock, s.key c = some pSock → t.key c = some pSock)
    (hposted : ∀ op ∈ s.posted, op ∈ t.posted) (hqueue : ∀ e ∈ s.queue, e ∈ t.queue) :
    Accounted t w connID client :=
  h.goto hkey hposted hqueue (fun hk hreceives => .held (hkey _ _ hk) hreceives)
    fun hsettles => .settled hsettles

/-- A receive that is kept is delivered, or its connection closed. -/
theorem examine_accounted {pSock : Addr} {op : Operation} {dwErrorCode : UInt32} {dwBytes : Nat}
    (hkey : s.key client.conn = some client.pSock) (hop : op.receives client.conn = true)
    (hkept : dropsReceive dwErrorCode = false) :
    Accounted s (examine pSock connID op dwErrorCode dwBytes) connID client := by
  have ⟨hread, hconn⟩ := Operation.receives_conn hop
  have hcases := examine_cases pSock connID op dwErrorCode dwBytes
  generalize examine pSock connID op dwErrorCode dwBytes = w at hcases
  cases hcases with
  | pending herror =>
    rw [herror] at hkept
    cases hkept
  | failed => exact .settled rfl
  | dropped hso hcode =>
    cases hcode with
    | inl hcode =>
      rw [hcode] at hkept
      cases hkept
    | inr hcode =>
      rw [hcode] at hkept
      cases hkept
  | closed => exact .settled rfl
  | received => exact .held hkey ⟨hconn, rfl⟩
  | acceptFailed _ _ hso => cases hread.symm.trans hso
  | accepted _ hso => cases hread.symm.trans hso
  | sent _ hso => cases hread.symm.trans hso
  | other _ _ hso => exact absurd hread hso

variable (save) in
theorem receive_accounted (id : UInt32) (op : Operation) (dwBytes : Nat)
    (hw : w.Receives connID client) (hop : op.conn = client.conn ∧ id = connID)
    (hkey : s.key client.conn = some client.pSock) :
    Accounted (receive save s id op dwBytes w).1 (receive save s id op dwBytes w).2 connID
      client := by
  unfold receive
  simp only
  split
  · exact .held hkey hop
  · exact .held hkey hw

variable (save) in
theorem receive_posted (id : UInt32) (op : Operation) (dwBytes : Nat) (w : Worker) :
    (receive save s id op dwBytes w).1.posted = s.posted ∧
      (receive save s id op dwBytes w).1.queue = s.queue ∧
        (receive save s id op dwBytes w).1.key = s.key := by
  unfold receive
  simp only
  split
  · exact ⟨rfl, rfl, rfl⟩
  · exact ⟨rfl, rfl, rfl⟩

theorem WorkerStep.accounted (hnamed : Named s)
    (hkept : w.keepsReceive s a = true) (hstep : WorkerStep save s a w t w')
    (h : ∀ connID client, s.m_mpClientSocket connID = some client → Accounted s w connID client)
    (hclient : t.m_mpClientSocket connID = some client) : Accounted t w' connID client := by
  cases hstep with
  | @dequeue e queue hqueue =>
    cases h connID client hclient with
    | posted hkey hop hreceives => exact .posted hkey hop hreceives
    | queued hkey he hreceives =>
      rw [hqueue] at he
      cases List.mem_cons.mp he with
      | inl heq =>
        rw [heq] at hreceives
        cases e with
        | completion pSock op result dwBytes => exact .held hkey hreceives
        | _ => cases hreceives
      | inr he => exact .queued hkey he hreceives
    | held hkey hreceives => cases hreceives
    | settled hends => cases hends
  | @readAccept pSock op result dwBytes hso =>
    apply (h connID client hclient).stay rfl rfl rfl
    · intro _ hreceives
      cases hso.symm.trans (Operation.receives_conn hreceives.1).1
    · exact nofun
  | @readId pSock op result dwBytes context hso hcontext =>
    apply (h connID client hclient).stay rfl rfl rfl
    · intro hkey hreceives
      have ⟨sock, hsock⟩ := hnamed connID client hclient
      rw [← hreceives.2, hcontext] at hsock
      exact .held hkey ⟨hreceives.1, congrArg SocketContext.connID (Option.some.inj hsock)⟩
    · exact nofun
  | @readDeleted pSock op result dwBytes hso hcontext =>
    exact (h connID client hclient).stay rfl rfl rfl
      (fun hkey hreceives => .held hkey hreceives) nofun
  | @examine pSock id op result dwBytes =>
    apply (h connID client hclient).stay rfl rfl rfl
    · intro hkey hreceives
      have ⟨hop, hid⟩ := hreceives
      have hconn := (Operation.receives_conn hop).2
      -- `keepsReceive` asks this of every receive of a registered client
      have hdrops : dropsReceive (a.errorCode result) = false := by
        rw [Worker.keepsReceive, hconn, hop, hid, hclient] at hkept
        simpa using hkept
      rw [hid]
      exact examine_accounted hkey hop hdrops
    · exact nofun
  | @addClient op id pSock =>
    -- the new client is settled: `ProcessAccept` posts its first receive next
    replace hclient : Function.update s.m_mpClientSocket id (some ⟨pSock, op.conn⟩) connID =
      some client := hclient
    by_cases hid : connID = id
    · rw [hid, Function.update_self] at hclient
      exact .settled ⟨hid.symm, (Option.some.inj hclient).symm⟩
    · rw [Function.update_of_ne hid] at hclient
      exact (h connID client hclient).stay rfl rfl rfl
        nofun nofun
  | @associate op id pSock conn hok hopen hnew =>
    have hown := handle_own hok hopen hkept
    -- the association makes a new key and leaves the older ones
    have hold : ∀ c p, s.key c = some p →
        Function.update s.key conn (some pSock) c = some p := by
      intro c p hc
      rw [Function.update_of_ne, hc]
      rintro rfl
      cases hnew.symm.trans hc
    refine (h connID client hclient).goto hold (fun _ hop => hop) (fun _ he => he) ?_ ?_
    · exact nofun
    · intro hends
      have ⟨hid, heq⟩ := hends
      rw [heq]
      refine .held ?_ rfl
      show Function.update s.key conn (some pSock) op.conn = some pSock
      rw [hown, Function.update_self]
  | @associateFails op id pSock hfail =>
    exact (h connID client hclient).stay rfl rfl rfl
      nofun fun hends => .settled hends.1
  | @firstReceive op conn hok hopen =>
    refine (h connID client hclient).goto (fun _ _ hk => hk)
      (fun _ hop => List.mem_append_left _ hop) (fun _ he => he) ?_ ?_
    · intro hkey hreceives
      -- the handle still belongs to the connection, so the receive is its own
      have hown := Option.some.inj (hopen.symm.trans
        (of_decide_eq_true ((Bool.and_eq_true _ _).mp hkept).2))
      refine .posted hkey (List.mem_append_right _ (List.mem_singleton_self _)) ?_
      rw [show client.conn = conn from (hown.trans hreceives).symm]
      exact receives_read ..
    · exact nofun
  | firstFails hfail =>
    have hok := ((Bool.and_eq_true _ _).mp hkept).1
    rw [hfail] at hok
    cases hok
  | @saveData pSock id op dwBytes context hcontext =>
    have ⟨hposted, hqueue, hkeys⟩ := receive_posted save (s := s) id
      { op with pIo.connID := context.connID } dwBytes (.saveData pSock id op dwBytes)
    have hmap := (receive_named save (s := s) id { op with pIo.connID := context.connID } dwBytes
      (w := .saveData pSock id op dwBytes) fun _ => trivial).1
    rw [hmap] at hclient
    apply (h connID client hclient).goto
    · intro c p hk
      rw [hkeys]
      exact hk
    · intro _ hop
      rw [hposted]
      exact hop
    · intro _ he
      rw [hqueue]
      exact he
    · intro hkey hreceives
      exact receive_accounted save id _ dwBytes hreceives hreceives hkey
    · exact nofun
  | saveDeleted hcontext =>
    exact (h connID client hclient).stay rfl rfl rfl
      (fun hkey hreceives => .held hkey hreceives) nofun
  | @nextReceive id op conn hok hopen =>
    refine (h connID client hclient).goto (fun _ _ hk => hk)
      (fun _ hop => List.mem_append_left _ hop) (fun _ he => he) ?_ ?_
    · intro hkey hreceives
      have hown := handle_own hok hopen hkept
      refine .posted hkey (List.mem_append_right _ (List.mem_singleton_self _)) ?_
      rw [show client.conn = conn from (hown.trans hreceives.1).symm]
      exact receives_read ..
    · exact nofun
  | nextFails hfail =>
    exact (h connID client hclient).stay rfl rfl rfl
      (fun _ hreceives => .settled hreceives.2) nofun
  | @findNone cause id pIo hnone =>
    apply (h connID client hclient).stay rfl rfl rfl
    · exact nofun
    · intro hid
      rw [show id = connID from hid, hclient] at hnone
      cases hnone
  | find hfound =>
    exact (h connID client hclient).stay rfl rfl rfl
      nofun fun hid => .settled hid
  | closeDeleted hcontext =>
    exact (h connID client hclient).stay rfl rfl rfl
      nofun fun hid => .settled hid
  | @close cause id pSock pIo context hcontext =>
    -- `_Disconnect` takes its client out, whose receive need not be found any more
    replace hclient : Function.update s.m_mpClientSocket id none connID = some client := hclient
    by_cases hid : connID = id
    · rw [hid, Function.update_self] at hclient
      cases hclient
    · rw [Function.update_of_ne hid] at hclient
      exact (h connID client hclient).stay rfl rfl rfl
        nofun fun heq => absurd heq.symm hid
  | postAccept hok =>
    exact (h connID client hclient).goto (fun _ _ hk => hk)
      (fun _ hop => List.mem_append_left _ hop) (fun _ he => he) nofun nofun
  | postAgain =>
    exact (h connID client hclient).goto (fun _ _ hk => hk) (fun _ hop => hop)
      (fun _ he => List.mem_append_left _ he) nofun nofun
  | postNext =>
    exact (h connID client hclient).goto (fun _ _ hk => hk) (fun _ hop => hop)
      (fun _ he => List.mem_append_left _ he) nofun nofun
  | _ =>
    exact (h connID client hclient).stay rfl rfl rfl
      nofun nofun

end Receiving

/-! ## 4. Runs -/

/-- Worker `i` is at `w`, and the others wait for an entry. -/
structure TrackedAt (s : Server) (i : Nat) (w : Worker) : Prop where
  waits : ∀ j w', j ≠ i → s.workers[j]? = some w' → w' = .dequeue
  owned : Owned s
  oneEach : OneEach s
  named : Named s
  prepared : w.Prepared s
  accounted : ∀ connID client, s.m_mpClientSocket connID = some client →
    Accounted s w connID client

def Tracked (s : Server) : Prop := ∃ i, TrackedAt s i (s.workers[i]?.getD .dequeue)

section Tracking

variable {save : IoContext → List UInt8 → Saved} {s t : Server} {i : Nat} {a : Answer}

/-- Another worker may be looked at when all of them wait. -/
theorem Tracked.at_worker (h : Tracked s) {w : Worker} (hw : s.workers[i]? = some w)
    (hone : oneAtATime s (.worker i a) = true) : TrackedAt s i w := by
  have ⟨j, htracked⟩ := h
  by_cases hij : i = j
  · rw [← hij, hw] at htracked
    exact htracked
  · have hwait := htracked.waits i w hij hw
    have hall : ∀ w' ∈ s.workers, w' = .dequeue := by
      rw [oneAtATime, hw, hwait] at hone
      simpa using hone
    have hj : s.workers[j]?.getD .dequeue = .dequeue := by
      cases hw' : s.workers[j]? with
      | none => rfl
      | some w' => exact hall w' (List.mem_of_getElem? hw')
    rw [hj] at htracked
    rw [hwait]
    exact { htracked with waits := fun k w' _ hw' => hall w' (List.mem_of_getElem? hw') }

theorem prepared_closesFound {w : Worker} (hw : s.workers[i]? = some w) (h : w.Prepared s) :
    closesFound s (.worker i a) = true := by
  rw [closesFound, hw]
  cases w with
  | close cause dwConnID pSock pIo => exact decide_eq_true h
  | _ => rfl

theorem Worker.Prepared.of_eq {w : Worker} (h : w.Prepared s)
    (hmap : t.m_mpClientSocket = s.m_mpClientSocket) (hcontext : t.context = s.context) :
    w.Prepared t := by
  cases w with
  | addClient op connID pSock =>
    show ∃ sock, t.context pSock = some ⟨connID, sock⟩
    rw [hcontext]
    exact h
  | close cause dwConnID pSock pIo =>
    show (t.m_mpClientSocket dwConnID).map Client.pSock = some pSock
    rw [hmap]
    exact h
  | _ => trivial

/-- What is outside the workers goes on. -/
theorem TrackedAt.outside {w : Worker} (h : TrackedAt s i w) (howned : Owned t)
    (honeEach : OneEach t) (hworkers : t.workers = s.workers)
    (hmap : t.m_mpClientSocket = s.m_mpClientSocket) (hcontext : t.context = s.context)
    (haccounted : ∀ connID client, Accounted s w connID client → Accounted t w connID client) :
    TrackedAt t i w where
  waits := by
    rw [hworkers]
    exact h.waits
  owned := howned
  oneEach := honeEach
  named := h.named.of_eq hmap hcontext
  prepared := h.prepared.of_eq hmap hcontext
  accounted := by
    intro connID client hclient
    rw [hmap] at hclient
    exact haccounted connID client (h.accounted connID client hclient)

theorem SenderStep.kept {w w' : Sender} (h : SenderStep s a w t w') :
    t.m_mpClientSocket = s.m_mpClientSocket ∧ t.context = s.context ∧ t.queue = s.queue ∧
      t.key = s.key ∧ t.workers = s.workers ∧ ∀ op ∈ s.posted, op ∈ t.posted := by
  cases h with
  | postSend hok hopen =>
    exact ⟨rfl, rfl, rfl, rfl, rfl, fun _ hop => List.mem_append_left _ hop⟩
  | _ => exact ⟨rfl, rfl, rfl, rfl, rfl, fun _ hop => hop⟩

/-- The receive of an entry completes with the key of the entry. -/
theorem complete_accounted {op : Operation} {k : Nat} {result : Bool} {bytes : List UInt8}
    {w : Worker} {connID : UInt32} {client : Client} (hop : s.posted[k]? = some op)
    (h : Accounted s w connID client) :
    Accounted { s with
      posted := s.posted.eraseIdx k
      queue := s.queue ++ (completed? s op result bytes).toList } w connID client := by
  cases h with
  | @posted op' hkey hop' hreceives =>
    have ⟨j, hj⟩ := List.mem_iff_getElem?.mp hop'
    by_cases hjk : j = k
    · have heq : op' = op := Option.some.inj (hj.symm.trans (hjk ▸ hop))
      rw [heq] at hreceives
      have ⟨hread, hconn⟩ := Operation.receives_conn hreceives
      have hentry : completed? s op result bytes =
          some (.completion client.pSock { op with pIo.wsaBuf := bytes } result bytes.length) := by
        rw [completed?, if_neg (by rw [hread]; decide), hconn, hkey, if_pos hread]
        rfl
      have hqueued : Entry.completion client.pSock { op with pIo.wsaBuf := bytes } result
          bytes.length ∈ s.queue ++ (completed? s op result bytes).toList := by
        rw [hentry]
        exact List.mem_append_right _ (List.mem_singleton_self _)
      exact .queued hkey hqueued ⟨hreceives, rfl⟩
    · exact .posted hkey (List.mem_eraseIdx_iff_getElem?.mpr ⟨j, hjk, hj⟩) hreceives
  | queued hkey he hreceives => exact .queued hkey (List.mem_append_left _ he) hreceives
  | held hkey hreceives => exact .held hkey hreceives
  | settled hsettles => exact .settled hsettles

theorem step_tracked {l : Label} (h : Tracked s) (hone : oneAtATime s l = true)
    (hkept : keepsReceive s l = true) (ht : step save s l = some t) : Tracked t := by
  have honeEach : OneEach t :=
    step_oneEach h.choose_spec.oneEach (keepsReceive_own hkept) ht
  cases step_cases ht with
  | @worker i a w w' u hw hstep =>
    have htracked := h.at_worker hw hone
    have howned := step_owned htracked.owned (prepared_closesFound hw htracked.prepared) ht
    have hkeeps : w.keepsReceive s a = true := by
      rw [keepsReceive, hw] at hkept
      exact hkept
    have ⟨hnamed, hprepared⟩ :=
      hstep.named htracked.named htracked.owned hw htracked.prepared
    have hi : (s.workers.set i w')[i]? = some w' :=
      List.getElem?_set_self (List.getElem?_eq_some_iff.mp hw).1
    refine ⟨i, ?_⟩
    show TrackedAt _ i ((s.workers.set i w')[i]?.getD .dequeue)
    rw [hi]
    exact {
      waits := by
        intro j w'' hj hw''
        exact htracked.waits j w'' hj ((List.getElem?_set_ne hj.symm).symm.trans hw'')
      owned := howned
      oneEach := honeEach
      named := hnamed.of_eq rfl rfl
      prepared := hprepared.of_eq rfl rfl
      accounted := by
        intro connID client hclient
        exact (hstep.accounted htracked.named hkeeps htracked.accounted hclient).mono
          (fun _ _ hk => hk) (fun _ hop => hop) (fun _ he => he) }
  | @sender i a w w' u hw hstep =>
    have ⟨hmap, hcontext, hqueue, hkey, hworkers, hposted⟩ := hstep.kept
    have ⟨j, htracked⟩ := h
    have howned := step_owned htracked.owned rfl ht
    refine ⟨j, ?_⟩
    show TrackedAt _ j (u.workers[j]?.getD .dequeue)
    rw [show u.workers[j]?.getD .dequeue = s.workers[j]?.getD .dequeue by rw [hworkers]]
    refine htracked.outside howned honeEach hworkers hmap hcontext fun connID client hacc => ?_
    refine hacc.mono (fun _ _ hk => ?_) hposted (fun _ he => ?_)
    · show u.key _ = _
      rw [hkey]
      exact hk
    · show _ ∈ u.queue
      rw [hqueue]
      exact he
  | @postDisconnect i nID hcaller =>
    have ⟨j, htracked⟩ := h
    have howned := step_owned htracked.owned rfl ht
    exact ⟨j, htracked.outside howned honeEach rfl rfl rfl fun connID client hacc =>
      hacc.mono (fun _ _ hk => hk) (fun _ hop => hop) (fun _ he => List.mem_append_left _ he)⟩
  | @complete i result bytes op hop =>
    have ⟨j, htracked⟩ := h
    have howned := step_owned htracked.owned rfl ht
    exact ⟨j, htracked.outside howned honeEach rfl rfl rfl fun connID client hacc =>
      complete_accounted hop hacc⟩
  | send =>
    have ⟨j, htracked⟩ := h
    have howned := step_owned htracked.owned rfl ht
    exact ⟨j, htracked.outside howned honeEach rfl rfl rfl fun connID client hacc =>
      hacc.mono (fun _ _ hk => hk) (fun _ hop => hop) (fun _ he => he)⟩
  | disconnect hclient =>
    have ⟨j, htracked⟩ := h
    have howned := step_owned htracked.owned rfl ht
    exact ⟨j, htracked.outside howned honeEach rfl rfl rfl fun connID client hacc =>
      hacc.mono (fun _ _ hk => hk) (fun _ hop => hop) (fun _ he => he)⟩

theorem started_tracked (n m : Nat) : Tracked (started n m) := by
  have hwaits : ∀ (j : Nat) w', (started n m).workers[j]? = some w' → w' = .dequeue := by
    intro j w' hw'
    exact List.eq_of_mem_replicate (List.mem_of_getElem? hw')
  have hzero : (started n m).workers[0]?.getD .dequeue = .dequeue := by
    cases hw : (started n m).workers[0]? with
    | none => rfl
    | some w => exact hwaits 0 w hw
  refine ⟨0, ?_⟩
  rw [hzero]
  exact ⟨fun j w' _ => hwaits j w', started_owned n m, started_oneEach n m, nofun, trivial, nofun⟩

theorem receives_le_awaiting (s : Server) (c : Conn) : receives s c ≤ awaiting s c := by
  apply Nat.add_le_add
  · apply List.countP_mono_left
    intro op _ hreceives
    have ⟨hread, hconn⟩ := Operation.receives_conn hreceives
    rw [awaits_conn (by rw [hread]; decide)]
    exact decide_eq_true hconn
  · apply List.countP_mono_left
    intro e _ hreceives
    cases e with
    | completion pSock op result dwBytes =>
      have ⟨hread, hconn⟩ := Operation.receives_conn hreceives
      exact (awaits_conn (by rw [hread]; decide)).trans (decide_eq_true hconn)
    | _ => cases hreceives

/-- Where no worker has an entry, the receives are all with the system. -/
theorem Tracked.reported (h : Tracked s) (hidle : ∀ w ∈ s.workers, w = .dequeue) : Reported s := by
  have ⟨i, htracked⟩ := h
  have hw : s.workers[i]?.getD .dequeue = .dequeue := by
    cases hi : s.workers[i]? with
    | none => rfl
    | some w => exact hidle w (List.mem_of_getElem? hi)
  rw [hw] at htracked
  intro connID client hclient
  have hatMost : receives s client.conn ≤ 1 := by
    have hone := htracked.oneEach.one client.conn
    have hle := receives_le_awaiting s client.conn
    omega
  have hatLeast : 0 < receives s client.conn := by
    cases htracked.accounted connID client hclient with
    | posted hkey hop hreceives =>
      exact Nat.add_pos_left (List.countP_pos_iff.mpr ⟨_, hop, hreceives⟩) _
    | @queued e hkey he hreceives =>
      apply Nat.add_pos_right
      apply List.countP_pos_iff.mpr
      refine ⟨e, he, ?_⟩
      cases e with
      | completion pSock op result dwBytes => exact hreceives.1
      | _ => cases hreceives
    | held hkey hreceives => cases hreceives
    | settled hsettles => cases hsettles
  omega

end Tracking

/-- Where completions are handled one at a time, and no receive is refused, misdirected or dropped
in a way that `keepsReceive` excludes, every entry can report its end. -/
theorem run_reported {env : SaveEnv} {n m : Nat} {labels : List Label} {t : Server}
    (hone : RunMeets (step (saveData env)) (fun s l => oneAtATime s l = true) (started n m) labels)
    (hkept : RunMeets (step (saveData env)) (fun s l => keepsReceive s l = true) (started n m)
      labels)
    (ht : run (step (saveData env)) (started n m) labels = some t)
    (hidle : ∀ w ∈ t.workers, w = .dequeue) : Reported t :=
  (run_invariant (I := Tracked) (fun _ _ _ h hc hst => step_tracked h hc.1 hc.2 hst)
    (started_tracked n m) (hone.and hkept) ht).reported hidle

/-- Two clients are accepted, and the second ends. -/
theorem run_reported_two :
    ∃ t, run (step (saveData ⟨true, fun _ => 0⟩)) (started 1 1)
      (acceptOn 0 7 ++ [.complete 0 true []] ++ takeAccept 0 3 ++ acceptOn 0 8 ++
        [.complete 1 true []] ++ takeAccept 0 4 ++ acceptOn 0 9 ++ [.complete 1 true []] ++
        List.replicate 7 (.worker 0 {})) = some t ∧
      t.m_mpClientSocket 1 = some ⟨3, 0⟩ ∧ t.m_mpClientSocket 2 = none ∧ Reported t := by
  have hrun : (run (step (saveData ⟨true, fun _ => 0⟩)) (started 1 1)
      (acceptOn 0 7 ++ [.complete 0 true []] ++ takeAccept 0 3 ++ acceptOn 0 8 ++
        [.complete 1 true []] ++ takeAccept 0 4 ++ acceptOn 0 9 ++ [.complete 1 true []] ++
        List.replicate 7 (.worker 0 {}))).map
        (fun t => (t.workers, t.m_mpClientSocket 1, t.m_mpClientSocket 2)) =
      some ([.dequeue], some ⟨3, 0⟩, none) := by decide
  have ⟨t, ht, heq⟩ := Option.map_eq_some_iff.mp hrun
  have ⟨hworkers, hclients⟩ := Prod.mk.inj heq
  have ⟨hfirst, hsecond⟩ := Prod.mk.inj hclients
  refine ⟨t, ht, hfirst, hsecond, run_reported (by decide) (by decide) ht fun w hw => ?_⟩
  rw [hworkers] at hw
  exact List.mem_singleton.mp hw

/-- The first receive of a client is refused: its entry stays, and there is no receive. -/
theorem entry_unreported : ¬∀ (env : SaveEnv) (n m : Nat) (labels : List Label) (t : Server),
    run (step (saveData env)) (started n m) labels = some t →
      RunMeets (step (saveData env)) (fun s l => oneAtATime s l = true) (started n m) labels →
        (∀ w ∈ t.workers, w = .dequeue) → Reported t := by
  intro h
  let labels := acceptOn 0 7 ++ [.complete 0 true []] ++ List.replicate 5 (.worker 0 {}) ++
    [.worker 0 { addr := 3 }] ++ List.replicate 3 (.worker 0 {}) ++
    [.worker 0 { success := false }, .worker 0 {}]
  have hrun : (run (step (saveData ⟨true, fun _ => 0⟩)) (started 1 1) labels).map
      (fun t => (t.workers, t.m_mpClientSocket 1, receives t 0)) =
        some ([.dequeue], some ⟨3, 0⟩, 0) := by decide
  have ⟨t, ht, heq⟩ := Option.map_eq_some_iff.mp hrun
  have ⟨hworkers, hrest⟩ := Prod.mk.inj heq
  have ⟨hclient, hnone⟩ := Prod.mk.inj hrest
  have hone := h _ _ _ _ t ht (by decide) (fun w hw => List.mem_singleton.mp (hworkers ▸ hw)) 1
    ⟨3, 0⟩ hclient
  exact absurd (hnone.symm.trans hone) (by decide)

end VerifyServer.Socket
