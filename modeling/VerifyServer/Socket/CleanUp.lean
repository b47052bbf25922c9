import Mathlib.Data.Finset.SDiff
import VerifyServer.Reasoning.Machine
import VerifyServer.Socket.TcpServer

/-!
# CleanUp — the end of `CTcpServer::Stop`

The worker threads have ended, so nothing else runs; one step is one turn of a loop, or its end.  A
context that is not there (any more) must not be used or deleted.  An iterator is its distance from
`begin()`.
-/

open VerifyServer.Reasoning

namespace VerifyServer.Socket

/-! ## 1. The loops -/

/-- The contexts of one kind: those that are there, and those that were deleted, in order. -/
structure Contexts where
  there : Finset Addr
  deleted : List Addr := []

def Contexts.delete (c : Contexts) (p : Addr) : Option Contexts :=
  if p ∈ c.there then some ⟨c.there.erase p, c.deleted ++ [p]⟩ else none

/-- The loop that runs, with its `iter`. -/
inductive CleanUpLoop where
  | clients (iter : Nat)
  | freeSockets (iter : Nat)
  | freeContexts (iter : Nat)
  | done
  deriving DecidableEq, Repr

structure CleanUp where
  loop : CleanUpLoop
  m_mpClientSocket : List (UInt32 × Addr)
  m_lsFreeSocketContext : List Addr
  m_lsFreeIOContext : List Addr
  sock : Addr → Sock
  socketContexts : Contexts
  ioContexts : Contexts
  -- the sockets given to `ManualCloseSocket`
  closed : List Sock

def CleanUp.step (s : CleanUp) : Option CleanUp :=
  match s.loop with
  | .clients iter =>
    match s.m_mpClientSocket[iter]? with
    -- `iter` is neither advanced nor erased
    | some (_, pSock) => (s.socketContexts.delete pSock).map fun socketContexts => { s with
        closed := s.closed ++ [s.sock pSock]
        socketContexts := socketContexts }
    | none => some { s with m_mpClientSocket := [], loop := .freeSockets 0 }
  | .freeSockets iter =>
    if iter = s.m_lsFreeSocketContext.length then some { s with loop := .freeContexts 0 }
    else do
      let pSock ← s.m_lsFreeSocketContext.head?
      let socketContexts ← s.socketContexts.delete pSock
      some { s with
        socketContexts := socketContexts
        m_lsFreeSocketContext := s.m_lsFreeSocketContext.eraseIdx iter }
  | .freeContexts iter =>
    if iter = s.m_lsFreeIOContext.length then some { s with loop := .done }
    else do
      let pIO ← s.m_lsFreeIOContext.head?
      let ioContexts ← s.ioContexts.delete pIO
      some { s with
        ioContexts := ioContexts
        m_lsFreeIOContext := s.m_lsFreeIOContext.eraseIdx iter }
  | .done => none

/-- Stop comes to the clean-up. -/
def cleanUp (m_mpClientSocket : List (UInt32 × Addr))
    (m_lsFreeSocketContext m_lsFreeIOContext : List Addr) (sock : Addr → Sock)
    (socketContexts ioContexts : Finset Addr) : CleanUp where
  loop := .clients 0
  m_mpClientSocket := m_mpClientSocket
  m_lsFreeSocketContext := m_lsFreeSocketContext
  m_lsFreeIOContext := m_lsFreeIOContext
  sock := sock
  socketContexts := { there := socketContexts }
  ioContexts := { there := ioContexts }
  closed := []

/-- All three loops are over and the containers empty; each client socket was closed once, and each
context deleted once. -/
structure CleanedUp (s t : CleanUp) : Prop where
  loop : t.loop = .done
  clients : t.m_mpClientSocket = []
  freeSockets : t.m_lsFreeSocketContext = []
  freeContexts : t.m_lsFreeIOContext = []
  closed : t.closed.Perm (s.m_mpClientSocket.map fun client => s.sock client.2)
  sockets : t.socketContexts.deleted.Perm
    (s.m_mpClientSocket.map (·.2) ++ s.m_lsFreeSocketContext)
  socketsOnce : t.socketContexts.deleted.Nodup
  contexts : t.ioContexts.deleted.Perm s.m_lsFreeIOContext
  contextsOnce : t.ioContexts.deleted.Nodup

/-! ## 2. The free lists -/

/-- A free list names contexts that are there, each once. -/
def Deletable (free : List Addr) (there : Finset Addr) : Prop :=
  free.Nodup ∧ ∀ p ∈ free, p ∈ there

theorem delete_of_mem {c : Contexts} {p : Addr} (h : p ∈ c.there) :
    c.delete p = some ⟨c.there.erase p, c.deleted ++ [p]⟩ := if_pos h

theorem delete_of_not_mem {c : Contexts} {p : Addr} (h : p ∉ c.there) : c.delete p = none :=
  if_neg h

/-- All of a list is deleted just when each is there and named once. -/
theorem foldlM_delete_iff {l : List Addr} {c d : Contexts} :
    l.foldlM Contexts.delete c = some d ↔
      Deletable l c.there ∧ d = ⟨c.there \ l.toFinset, c.deleted ++ l⟩ := by
  induction l generalizing c with
  | nil =>
    rw [List.foldlM_nil, List.toFinset_nil, Finset.sdiff_empty, List.append_nil]
    exact ⟨fun h => ⟨⟨List.nodup_nil, nofun⟩, (Option.some.inj h).symm⟩, fun h => h.2 ▸ rfl⟩
  | cons p l ih =>
    rw [List.foldlM_cons]
    by_cases hp : p ∈ c.there
    · have hdelete : Deletable l (c.there.erase p) ↔ Deletable (p :: l) c.there := by
        unfold Deletable
        rw [List.nodup_cons, List.forall_mem_cons]
        constructor
        · rintro ⟨hnodup, hall⟩
          exact ⟨⟨fun hmem => Finset.notMem_erase p _ (hall p hmem), hnodup⟩, hp,
            fun q hq => Finset.mem_of_mem_erase (hall q hq)⟩
        · rintro ⟨⟨hnot, hnodup⟩, -, hall⟩
          exact ⟨hnodup, fun q hq => Finset.mem_erase.mpr ⟨fun heq => hnot (heq ▸ hq), hall q hq⟩⟩
      have hrest : c.there.erase p \ l.toFinset = c.there \ (p :: l).toFinset := by
        rw [List.toFinset_cons, Finset.sdiff_insert, Finset.erase_sdiff_comm]
      rw [delete_of_mem hp, Option.bind_eq_bind, Option.bind_some, ih, hdelete, hrest,
        List.append_assoc, List.singleton_append]
    · rw [delete_of_not_mem hp]
      refine iff_of_false nofun fun h => hp ?_
      exact h.1.2 p List.mem_cons_self

/-! ## 3. The turns of the loops -/

section Turns

variable {t : CleanUp}

theorem step_clients {client : UInt32 × Addr} {clients : List (UInt32 × Addr)}
    (hloop : t.loop = .clients 0) (hclients : t.m_mpClientSocket = client :: clients) :
    t.step = (t.socketContexts.delete client.2).map fun socketContexts => { t with
      closed := t.closed ++ [t.sock client.2]
      socketContexts := socketContexts } := by
  unfold CleanUp.step
  simp only [hloop, hclients, List.getElem?_cons_zero]

theorem step_clients_end (hloop : t.loop = .clients 0) (hclients : t.m_mpClientSocket = []) :
    t.step = some { t with m_mpClientSocket := [], loop := .freeSockets 0 } := by
  unfold CleanUp.step
  simp only [hloop, hclients, List.getElem?_nil]

theorem step_freeSockets {p : Addr} {l : List Addr} (hloop : t.loop = .freeSockets 0)
    (hfree : t.m_lsFreeSocketContext = p :: l) :
    t.step = (t.socketContexts.delete p).map fun socketContexts => { t with
      socketContexts := socketContexts
      m_lsFreeSocketContext := l } := by
  unfold CleanUp.step
  simp only [hloop, hfree]
  have hturn : 0 ≠ (p :: l).length := (Nat.succ_ne_zero _).symm
  rw [if_neg hturn]
  exact Option.map_eq_bind.symm

theorem step_freeSockets_end (hloop : t.loop = .freeSockets 0)
    (hfree : t.m_lsFreeSocketContext = []) :
    t.step = some { t with loop := .freeContexts 0 } := by
  unfold CleanUp.step
  simp only [hloop, hfree]
  exact if_pos rfl

theorem step_freeContexts {p : Addr} {l : List Addr} (hloop : t.loop = .freeContexts 0)
    (hfree : t.m_lsFreeIOContext = p :: l) :
    t.step = (t.ioContexts.delete p).map fun ioContexts => { t with
      ioContexts := ioContexts
      m_lsFreeIOContext := l } := by
  unfold CleanUp.step
  simp only [hloop, hfree]
  have hturn : 0 ≠ (p :: l).length := (Nat.succ_ne_zero _).symm
  rw [if_neg hturn]
  exact Option.map_eq_bind.symm

theorem step_freeContexts_end (hloop : t.loop = .freeContexts 0)
    (hfree : t.m_lsFreeIOContext = []) : t.step = some { t with loop := .done } := by
  unfold CleanUp.step
  simp only [hloop, hfree]
  exact if_pos rfl

end Turns

/-! ## 4. The loops -/

section Loops

variable {s t : CleanUp}

theorem not_cleanedUp (h : t.loop ≠ .done) : ¬CleanedUp s t := fun hclean => h hclean.loop

/-- The loop over the clients does not come to its end when there is one. -/
theorem not_reaches_of_client (hloop : t.loop = .clients 0) (hclient : t.m_mpClientSocket ≠ []) :
    ¬Reaches CleanUp.step t (CleanedUp s) := by
  have hrunning : CleanUpLoop.clients 0 ≠ .done := nofun
  have ⟨client, clients, hclients⟩ := List.exists_cons_of_ne_nil hclient
  rw [reaches_step_iff (not_cleanedUp (hloop ▸ hrunning)), step_clients hloop hclients]
  rintro ⟨u, hu, hreach⟩
  have ⟨c, hc, heq⟩ := Option.map_eq_some_iff.mp hu
  -- in the second turn the context is not there
  have hgone : client.2 ∉ c.there := by
    unfold Contexts.delete at hc
    split at hc
    · rw [← Option.some.inj hc]
      exact Finset.notMem_erase _ _
    · cases hc
  have hloop' : u.loop = .clients 0 := heq ▸ hloop
  have hclients' : u.m_mpClientSocket = client :: clients := heq ▸ hclients
  have hthere : u.socketContexts = c := heq ▸ rfl
  refine not_reaches_of_stuck (not_cleanedUp (hloop' ▸ hrunning)) ?_ hreach
  rw [step_clients hloop' hclients', hthere, delete_of_not_mem hgone]
  rfl

/-- The loop over the free `SOCKET_CONTEXT`s gets through when they can all be deleted. -/
theorem reaches_freeSockets_iff (hloop : t.loop = .freeSockets 0) :
    Reaches CleanUp.step t (CleanedUp s) ↔
      Deletable t.m_lsFreeSocketContext t.socketContexts.there ∧
      Reaches CleanUp.step { t with
        loop := .freeContexts 0
        m_lsFreeSocketContext := []
        socketContexts :=
          ⟨t.socketContexts.there \ t.m_lsFreeSocketContext.toFinset,
            t.socketContexts.deleted ++ t.m_lsFreeSocketContext⟩ } (CleanedUp s) := by
  have hrunning : t.loop ≠ .done := by
    rw [hloop]
    exact nofun
  let loop (l : List Addr) (c : Contexts) : CleanUp :=
    { t with m_lsFreeSocketContext := l, socketContexts := c }
  have hend (c : Contexts) : (loop [] c).step = some { t with
      loop := .freeContexts 0, m_lsFreeSocketContext := [], socketContexts := c } :=
    step_freeSockets_end hloop rfl
  have hturn (p : Addr) (l : List Addr) (c : Contexts) :
      (loop (p :: l) c).step = (c.delete p).map (loop l) := step_freeSockets hloop rfl
  have hrun := reaches_loop_iff hend hturn (Q := CleanedUp s) (fun _ _ => not_cleanedUp hrunning)
    t.m_lsFreeSocketContext t.socketContexts
  refine hrun.trans ⟨?_, ?_⟩
  · rintro ⟨c, hc, hreach⟩
    have ⟨hdelete, heq⟩ := foldlM_delete_iff.mp hc
    exact ⟨hdelete, heq ▸ hreach⟩
  · rintro ⟨hdelete, hreach⟩
    exact ⟨_, foldlM_delete_iff.mpr ⟨hdelete, rfl⟩, hreach⟩

theorem reaches_freeContexts_iff (hloop : t.loop = .freeContexts 0) :
    Reaches CleanUp.step t (CleanedUp s) ↔
      Deletable t.m_lsFreeIOContext t.ioContexts.there ∧
      Reaches CleanUp.step { t with
        loop := .done
        m_lsFreeIOContext := []
        ioContexts :=
          ⟨t.ioContexts.there \ t.m_lsFreeIOContext.toFinset,
            t.ioContexts.deleted ++ t.m_lsFreeIOContext⟩ } (CleanedUp s) := by
  have hrunning : t.loop ≠ .done := by
    rw [hloop]
    exact nofun
  let loop (l : List Addr) (c : Contexts) : CleanUp :=
    { t with m_lsFreeIOContext := l, ioContexts := c }
  have hend (c : Contexts) : (loop [] c).step = some { t with
      loop := .done, m_lsFreeIOContext := [], ioContexts := c } := step_freeContexts_end hloop rfl
  have hturn (p : Addr) (l : List Addr) (c : Contexts) :
      (loop (p :: l) c).step = (c.delete p).map (loop l) := step_freeContexts hloop rfl
  have hrun := reaches_loop_iff hend hturn (Q := CleanedUp s) (fun _ _ => not_cleanedUp hrunning)
    t.m_lsFreeIOContext t.ioContexts
  refine hrun.trans ⟨?_, ?_⟩
  · rintro ⟨c, hc, hreach⟩
    have ⟨hdelete, heq⟩ := foldlM_delete_iff.mp hc
    exact ⟨hdelete, heq ▸ hreach⟩
  · rintro ⟨hdelete, hreach⟩
    exact ⟨_, foldlM_delete_iff.mpr ⟨hdelete, rfl⟩, hreach⟩

end Loops

/-! ## 5. The clean-up -/

/-- The clean-up ends as it must just when no client is left and every free context can be deleted
once. -/
theorem cleanUp_iff (clients : List (UInt32 × Addr)) (freeSockets freeContexts : List Addr)
    (sock : Addr → Sock) (socketContexts ioContexts : Finset Addr) :
    Reaches CleanUp.step
        (cleanUp clients freeSockets freeContexts sock socketContexts ioContexts)
        (CleanedUp (cleanUp clients freeSockets freeContexts sock socketContexts ioContexts)) ↔
      clients = [] ∧ Deletable freeSockets socketContexts ∧ Deletable freeContexts ioContexts := by
  by_cases hclients : clients = []
  · subst hclients
    have hrunning : CleanUpLoop.clients 0 ≠ .done := nofun
    rw [reaches_iff_of_step (not_cleanedUp hrunning) (step_clients_end rfl rfl),
      reaches_freeSockets_iff rfl, reaches_freeContexts_iff rfl]
    refine ⟨fun h => ⟨rfl, h.1, h.2.1⟩, fun h => ⟨h.2.1, h.2.2, reaches_self ?_⟩⟩
    exact {
      loop := rfl
      clients := rfl
      freeSockets := rfl
      freeContexts := rfl
      closed := List.Perm.refl _
      sockets := List.Perm.refl _
      socketsOnce := h.2.1.1
      contexts := List.Perm.refl _
      contextsOnce := h.2.2.1 }
  · exact iff_of_false (not_reaches_of_client rfl hclients) fun h => hclients h.1

/-- A client did not disconnect in time. -/
theorem cleanUp_with_client :
    ¬Reaches CleanUp.step (cleanUp [(1, 0)] [] [] (fun _ => 7) {0} ∅)
      (CleanedUp (cleanUp [(1, 0)] [] [] (fun _ => 7) {0} ∅)) :=
  not_reaches_of_client rfl (List.cons_ne_nil _ _)

end VerifyServer.Socket
