import VerifyServer.Socket.InUse
import VerifyServer.Socket.Steps

/-!
# Reuse — completions of one connection and the contexts of another

The completion key is the address of a `SOCKET_CONTEXT`, and `AddFreeSocketContext` makes that context
available while completions with this key are still to come.  What keeps connections apart is that
nothing of a connection in use is handed out again.
-/

open VerifyServer.Reasoning

namespace VerifyServer.Socket

/-- An operation closes and removes its own connection only, its bytes are handed over under the id
its own connection was given last, and it uses no deleted context. -/
structure Isolated (s : Server) : Prop where
  closings : ∀ x ∈ s.closings, ∀ c, x.cause = some c →
    (∀ d, x.closed = some d → d = c) ∧ ∀ d, x.removed = some d → d = c
  deliveries : ∀ x ∈ s.deliveries,
    (∃ pSock, s.stage x.conn = .listed x.rev.uSokcetID pSock) ∧ x.addressee = some x.conn
  crashed : ∀ c, s.crashed ≠ some (.deleted (some c))

/-! ## 1. Steps that log nothing -/

-- the logs are the same, and a connection that is listed stays so
structure Quiet (s t : Server) : Prop where
  closings : t.closings = s.closings
  deliveries : t.deliveries = s.deliveries
  crashed : t.crashed = s.crashed
  listed : ∀ c connID pSock, s.stage c = .listed connID pSock → t.stage c = .listed connID pSock

theorem Isolated.quiet {s t : Server} (h : Isolated s) (hq : Quiet s t) : Isolated t where
  closings := hq.closings ▸ h.closings
  deliveries x hx := by
    obtain ⟨⟨pSock, hl⟩, ha⟩ := h.deliveries x (hq.deliveries ▸ hx)
    exact ⟨⟨pSock, hq.listed _ _ _ hl⟩, ha⟩
  crashed := hq.crashed ▸ h.crashed

-- the step that changes neither what connections have nor the logs
theorem kept_refl (s : Server) : Kept s s :=
  ⟨fun _ _ => id, fun _ _ => id, fun _ _ _ _ => rfl, rfl, rfl, fun _ _ => .inl, rfl, rfl⟩

theorem of_update_none {α β : Type*} [DecidableEq α] {f : α → Option β} {a x : α} {y : β}
    (h : Function.update f a none x = some y) : f x = some y := by
  by_cases hx : x = a
  · subst hx
    rw [Function.update_self] at h
    cases h
  · rwa [Function.update_of_ne hx] at h

/-- A worker that names no connection. -/
theorem of_none {o : Option Nat} : ∀ c, none = some c → o = some c := by
  intro c h
  cases h

/-- A worker goes on, with no change to what connections have. -/
theorem goto_good {s : Server} (h : Inv s) (hi : Isolated s) {i : Nat} {w w' : Worker}
    (hw : s.workers[i]? = some w) (free : List IoContext)
    (hconn : ∀ c, w'.conn? = some c → w.conn? = some c)
    (hchain : ∀ c, w'.chain? = some c → w.chain? = some c)
    (hfits : w'.Fits s.stage s.sockOf) :
    Inv { s with m_lsFreeIOContext := free, workers := s.workers.set i w' } ∧
      Isolated { s with m_lsFreeIOContext := free, workers := s.workers.set i w' } :=
  ⟨h.goto hw { kept_refl s with } rfl rfl (List.append_nil _).symm (by simp) hconn hchain hfits,
    hi.quiet ⟨rfl, rfl, rfl, fun _ _ _ => id⟩⟩

/-- The same, with an accept to be posted. -/
theorem request_good {s : Server} (h : Inv s) (hi : Isolated s) {i : Nat} {w w' : Worker}
    (hw : s.workers[i]? = some w) (hconn : ∀ c, w'.conn? = some c → w.conn? = some c)
    (hchain : ∀ c, w'.chain? = some c → w.chain? = some c)
    (hfits : w'.Fits s.stage s.sockOf) :
    Inv { s with queue := s.queue ++ [.accept], workers := s.workers.set i w' } ∧
      Isolated { s with queue := s.queue ++ [.accept], workers := s.workers.set i w' } :=
  ⟨h.goto hw { kept_refl s with } rfl rfl rfl (by simp [Entry.conn?]) hconn hchain hfits,
    hi.quiet ⟨rfl, rfl, rfl, fun _ _ _ => id⟩⟩

/-- A worker that only closes a handle of its own. -/
theorem closeHandle_good {s : Server} (h : Inv s) (hi : Isolated s) {i : Nat} {w w' : Worker}
    (hw : s.workers[i]? = some w) (sock : Sock)
    (hconn : ∀ c, w'.conn? = some c → w.conn? = some c)
    (hchain : ∀ c, w'.chain? = some c → w.chain? = some c)
    (hfits : w'.Fits s.stage s.sockOf) :
    let t := { s with
      handles := Function.update s.handles sock none, workers := s.workers.set i w' }
    Inv t ∧ Isolated t := by
  have hk : Kept s { s with
      handles := Function.update s.handles sock none, workers := s.workers.set i w' } :=
    { kept_refl s with handles := fun _ _ => of_update_none }
  exact ⟨h.goto hw hk rfl rfl (List.append_nil _).symm (by simp) hconn hchain hfits,
    hi.quiet ⟨rfl, rfl, rfl, fun _ _ _ => id⟩⟩

/-! ## 2. Posting an accept -/

theorem openSocket_good {s : Server} (h : Inv s) (hi : Isolated s) {i : Nat}
    (hw : s.workers[i]? = some .openSocket) {handle : Sock} (hfree : s.handles handle = none)
    (hspare : ∀ c, InUse s c → s.sockOf c ≠ handle) :
    let t := { s with
      handles := Function.update s.handles handle (some s.count)
      sockOf := Function.update s.sockOf s.count handle
      count := s.count + 1
      workers := s.workers.set i (.getIo handle s.count) }
    Inv t ∧ Isolated t := by
  intro t
  have hnew : ∀ c, InUse s c → c ≠ s.count := fun c hc => Nat.ne_of_lt (h.below c hc)
  have hsock {c : Conn} (hc : c ≠ s.count) : t.sockOf c = s.sockOf c := Function.update_of_ne hc _ _
  have hnewsock : t.sockOf s.count = handle := Function.update_self ..
  have hnewstage : t.stage s.count = .opened := (h.fresh s.count (le_refl _)).1
  have hhandle {other : Sock} (hne : other ≠ handle) : t.handles other = s.handles other :=
    Function.update_of_ne hne _ _
  have hnewhandle : t.handles handle = some s.count := Function.update_self ..
  -- the new connection is in use; of the others only those that were
  have huse : ∀ c, InUse t c → c ≠ s.count → InUse s c := by
    rintro c (hopen | hop | he | ⟨x, hx, hxc⟩) hc
    · rw [hsock hc] at hopen
      by_cases heq : s.sockOf c = handle
      · rw [heq, hnewhandle] at hopen
        exact absurd (Option.some.inj hopen).symm hc
      · exact .inl (hhandle heq ▸ hopen)
    · exact .inr (.inl hop)
    · exact .inr (.inr (.inl he))
    · rcases List.mem_or_eq_of_mem_set hx with hx | rfl
      · exact .inr (.inr (.inr ⟨x, hx, hxc⟩))
      · exact absurd (Option.some.inj hxc).symm hc
  have hnone {conn? : Option Conn} (hin : ∀ c, conn? = some c → InUse s c) : conn? ≠ some s.count :=
    fun heq => hnew _ (hin _ heq) rfl
  have hops (op : Operation) (hop : op ∈ s.posted) : op.conn ≠ s.count :=
    hnew _ (.inr (.inl ⟨op, hop, rfl⟩))
  refine ⟨?_, hi.quiet ⟨rfl, rfl, rfl, fun _ _ _ => id⟩⟩
  constructor
  case sound =>
    intro c hc
    by_cases hcn : c = s.count
    · subst hcn
      refine ⟨fun other hother => ?_, ?_, ?_, ?_, ?_⟩
      · rw [hnewsock, hnewhandle] at hother
        exact (Option.some.inj hother).symm
      · rw [hnewstage]
        exact nofun
      · rw [hnewstage]
        rintro connID pSock (hf | hf) <;> cases hf
      · rw [hnewstage]
        exact nofun
      · intro pSock hp
        cases (h.fresh s.count (le_refl _)).2.symm.trans hp
    · have hin := huse c hc hcn
      refine (h.sound c hin).keep (hsock hcn) rfl (fun _ => .inl) (fun d hd => ?_)
        (fun _ _ => rfl) (fun _ _ => rfl) (fun _ _ _ => id)
      exact hhandle (hspare c hin) ▸ hd
  case apart =>
    intro c d hc hd hne
    by_cases hcn : c = s.count
    · subst hcn
      have hdn := hne.symm
      refine ⟨?_, ?_, ?_⟩
      · rw [hnewsock, hsock hdn]
        exact (hspare d (huse d hd hdn)).symm
      · rw [hnewstage]
        exact nofun
      · rw [hnewstage]
        exact nofun
    · by_cases hdn : d = s.count
      · subst hdn
        refine ⟨?_, ?_, ?_⟩
        · rw [hnewsock, hsock hcn]
          exact hspare c (huse c hc hcn)
        · rw [hnewstage]
          exact fun _ _ => nofun
        · rw [hnewstage]
          exact fun _ _ => nofun
      · have := h.apart c d (huse c hc hcn) (huse d hd hdn) hne
        exact ⟨by rw [hsock hcn, hsock hdn]; exact this.sock, this.connID, this.pSock⟩
  case handles =>
    intro other c hc
    by_cases heq : other = handle
    · subst heq
      rw [hnewhandle] at hc
      rw [← Option.some.inj hc, hnewsock]
    · rw [hhandle heq] at hc
      have hsockc := h.handles other c hc
      have hcn : c ≠ s.count := hnew c (.inl (hsockc ▸ hc))
      rw [hsock hcn, hsockc]
  case below =>
    intro c hc
    by_cases hcn : c = s.count
    · rw [hcn]
      exact Nat.lt_succ_self _
    · exact Nat.lt_succ_of_lt (h.below c (huse c hc hcn))
  case fresh => exact fun c hc => h.fresh c (Nat.le_of_succ_le hc)
  case chain =>
    intro c
    have hset := countP_set hw (.getIo handle s.count) (fun w => w.chain? = some c)
    have hchain := h.chain c
    unfold chainCount at hchain ⊢
    by_cases hcn : c = s.count
    · -- nothing was there for the new connection
      have hchain0 : s.posted.countP (fun op => op.chain? = some c) = 0 ∧
          s.queue.countP (fun e => e.chain? = some c) = 0 ∧
            s.workers.countP (fun w => w.chain? = some c) = 0 := by
        refine ⟨List.countP_eq_zero.mpr fun op hop => ?_, List.countP_eq_zero.mpr fun e he => ?_,
          List.countP_eq_zero.mpr fun w hw => ?_⟩
        · rw [hcn]
          simpa using fun heq => hops op hop (conn_of_chain heq)
        · rw [hcn]
          simpa using fun heq => hnone (fun d hd => .inr (.inr (.inl ⟨e, he, hd⟩)))
            (Entry.conn_of_chain heq)
        · rw [hcn]
          simpa using fun heq => hnone (fun d hd => .inr (.inr (.inr ⟨w, hw, hd⟩)))
            (Worker.conn_of_chain heq)
      simp only [t]
      split at hset <;> split at hset <;> omega
    · have hgetIo : (Worker.getIo handle s.count).chain? ≠ some c :=
        fun heq => hcn (Option.some.inj heq).symm
      have hopen : Worker.openSocket.chain? ≠ some c := nofun
      simp only [hgetIo, hopen, decide_false, Bool.false_eq_true, if_false] at hset
      simp only [t]
      omega
  case posted =>
    intro op hop
    obtain ⟨hsockop, haccept⟩ := h.posted op hop
    exact ⟨fun hso => (hsockop hso).trans (hsock (hops op hop)).symm, haccept⟩
  case queue =>
    intro e he
    exact (h.queue e he).congr fun c hc => hsock fun heq =>
      hnone (fun d hd => .inr (.inr (.inl ⟨e, he, hd⟩))) (heq ▸ hc)
  case workers =>
    intro x hx
    rcases List.mem_or_eq_of_mem_set hx with hx | rfl
    · exact (h.workers x hx).congr fun c hc => hsock fun heq =>
        hnone (fun d hd => .inr (.inr (.inr ⟨x, hx, hd⟩))) (heq ▸ hc)
    · exact ⟨hnewsock, hnewstage⟩

/-! ## 3. `ProcessAccept` -/

theorem sound_worker {s : Server} (h : Inv s) {i : Nat} {w : Worker} (hw : s.workers[i]? = some w)
    {c : Conn} (hc : w.conn? = some c) : InUse s c ∧ Sound s c := by
  have huse : InUse s c := .inr (.inr (.inr ⟨w, List.mem_of_getElem? hw, hc⟩))
  exact ⟨huse, h.sound c huse⟩

theorem increment_good {s : Server} (h : Inv s) (hi : Isolated s) {i : Nat} {op : Operation}
    {again : Bool} (hw : s.workers[i]? = some (.increment op again)) {connID : UInt32}
    (hspare : ∀ c, InUse s c → (s.stage c).connID? ≠ some connID) :
    let t := { s with
      m_dwConnID := connID
      stage := Function.update s.stage op.conn (.named connID)
      holder := Function.update s.holder connID (some op.conn)
      workers := s.workers.set i (.getSocket op connID) }
    Inv t ∧ Isolated t := by
  intro t
  obtain ⟨hsock, hopened⟩ : op.At s.stage s.sockOf .opened := h.workers _ (List.mem_of_getElem? hw)
  obtain ⟨huse, hc⟩ := sound_worker h hw rfl
  have hnot : ∀ connID pSock, s.stage op.conn ≠ .listed connID pSock := by
    rw [hopened]
    exact nofun
  have hstage : t.stage op.conn = .named connID := Function.update_self ..
  refine ⟨h.advance hw rfl rfl rfl rfl hnot rfl rfl ⟨rfl, rfl, rfl, rfl, rfl, rfl⟩ ?_ ?_ ?_ ?_,
    hi.quiet ⟨rfl, rfl, rfl, fun c id p hl => listed_advance hnot hl⟩⟩
  · refine ⟨hc.handle, fun id hid => ?_, ?_, ?_, fun p hp => ?_⟩
    · rw [hstage] at hid
      rw [← Option.some.inj hid]
      exact Function.update_self ..
    · rw [hstage]
      rintro id p (hf | hf) <;> cases hf
    · rw [hstage]
      exact nofun
    · obtain ⟨id, hl⟩ := hc.key p hp
      exact absurd hl (hnot id p)
  · intro d hd hdc
    refine (h.sound d hd).keep rfl (Function.update_of_ne hdc _ _) (fun _ => .inl) (fun _ => id)
      (fun id hid => ?_) (fun _ _ => rfl) (fun _ _ _ => id)
    have hne : id ≠ connID := fun heq => hspare d hd (heq ▸ hid)
    exact Function.update_of_ne hne _ _
  · intro d hd hdc
    refine ⟨fun id hid => ?_, nofun⟩
    rw [← Option.some.inj hid]
    exact hspare d hd
  · exact ⟨hsock, hstage⟩

theorem getSocket_good {s : Server} (h : Inv s) (hi : Isolated s) {i : Nat} {op : Operation}
    {connID : UInt32} (hw : s.workers[i]? = some (.getSocket op connID)) {pSock : Addr}
    {free : List Addr} {context : Addr → Option SocketContext}
    (hspare : ∀ c, InUse s c → (s.stage c).pSock? ≠ some pSock)
    (hcontext : ∀ p, p ≠ pSock → context p = s.context p) :
    let t := { s with
      context := context
      m_lsFreeSocketContext := free
      stage := Function.update s.stage op.conn (.given connID pSock)
      workers := s.workers.set i (.fillSocket op connID pSock) }
    Inv t ∧ Isolated t := by
  intro t
  obtain ⟨hsock, hnamed⟩ : op.At s.stage s.sockOf (.named connID) :=
    h.workers _ (List.mem_of_getElem? hw)
  obtain ⟨huse, hc⟩ := sound_worker h hw rfl
  have hnot : ∀ connID pSock, s.stage op.conn ≠ .listed connID pSock := by
    rw [hnamed]
    exact nofun
  have hstage : t.stage op.conn = .given connID pSock := Function.update_self ..
  have hname : (s.stage op.conn).connID? = some connID := by rw [hnamed]; rfl
  refine ⟨h.advance hw rfl rfl rfl rfl hnot rfl rfl ⟨rfl, rfl, rfl, rfl, rfl, rfl⟩ ?_ ?_ ?_ ?_,
    hi.quiet ⟨rfl, rfl, rfl, fun c id p hl => listed_advance hnot hl⟩⟩
  · refine ⟨hc.handle, fun id hid => ?_, ?_, ?_, fun p hp => ?_⟩
    · rw [hstage] at hid
      exact hc.holder id (hname.trans hid)
    · rw [hstage]
      rintro id p (hf | hf) <;> cases hf
    · rw [hstage]
      exact nofun
    · obtain ⟨id, hl⟩ := hc.key p hp
      exact absurd hl (hnot id p)
  · intro d hd hdc
    refine (h.sound d hd).keep rfl (Function.update_of_ne hdc _ _) (fun _ => .inl) (fun _ => id)
      (fun _ _ => rfl) (fun p hp => ?_) (fun _ _ _ => id)
    exact hcontext p fun heq => hspare d hd (heq ▸ hp)
  · intro d hd hdc
    refine ⟨fun id hid => ?_, fun p hp => ?_⟩
    · exact (h.apart op.conn d huse hd hdc.symm).connID id (hname.trans hid)
    · rw [← Option.some.inj hp]
      exact hspare d hd
  · exact ⟨hsock, hstage⟩

theorem fillSocket_good {s : Server} (h : Inv s) (hi : Isolated s) {i : Nat} {op : Operation}
    {connID : UInt32} {pSock : Addr} (hw : s.workers[i]? = some (.fillSocket op connID pSock)) :
    let t := { s with
      context := Function.update s.context pSock (some ⟨connID, op.pIo.sockAccept⟩)
      stage := Function.update s.stage op.conn (.filled connID pSock)
      workers := s.workers.set i (.addClient op connID pSock) }
    Inv t ∧ Isolated t := by
  intro t
  obtain ⟨hsock, hgiven⟩ : op.At s.stage s.sockOf (.given connID pSock) :=
    h.workers _ (List.mem_of_getElem? hw)
  obtain ⟨huse, hc⟩ := sound_worker h hw rfl
  have hnot : ∀ connID pSock, s.stage op.conn ≠ .listed connID pSock := by
    rw [hgiven]
    exact nofun
  have hstage : t.stage op.conn = .filled connID pSock := Function.update_self ..
  have hname : (s.stage op.conn).connID? = some connID := by rw [hgiven]; rfl
  have haddr : (s.stage op.conn).pSock? = some pSock := by rw [hgiven]; rfl
  have hcontext : t.context pSock = some ⟨connID, s.sockOf op.conn⟩ := by
    rw [← hsock]
    exact Function.update_self ..
  refine ⟨h.advance hw rfl rfl rfl rfl hnot rfl rfl ⟨rfl, rfl, rfl, rfl, rfl, rfl⟩ ?_ ?_ ?_ ?_,
    hi.quiet ⟨rfl, rfl, rfl, fun c id p hl => listed_advance hnot hl⟩⟩
  · refine ⟨hc.handle, fun id hid => ?_, fun id p hf => ?_, ?_, fun p hp => ?_⟩
    · rw [hstage] at hid
      exact hc.holder id (hname.trans hid)
    · rw [hstage] at hf
      rcases hf with hf | hf
      · obtain ⟨rfl, rfl⟩ := Stage.filled.inj hf
        exact hcontext
      · cases hf
    · rw [hstage]
      exact nofun
    · obtain ⟨id, hl⟩ := hc.key p hp
      exact absurd hl (hnot id p)
  · intro d hd hdc
    have hapart := h.apart op.conn d huse hd hdc.symm
    refine (h.sound d hd).keep rfl (Function.update_of_ne hdc _ _) (fun _ => .inl) (fun _ => id)
      (fun _ _ => rfl) (fun p hp => ?_) (fun _ _ _ => id)
    have hne : p ≠ pSock := fun heq => hapart.pSock pSock haddr (heq ▸ hp)
    exact Function.update_of_ne hne _ _
  · intro d hd hdc
    have hapart := h.apart op.conn d huse hd hdc.symm
    exact ⟨fun id hid => hapart.connID id (hname.trans hid),
      fun p hp => hapart.pSock p (haddr.trans hp)⟩
  · exact ⟨hsock, hstage⟩

theorem addClient_good {s : Server} (h : Inv s) (hi : Isolated s) {i : Nat} {op : Operation}
    {connID : UInt32} {pSock : Addr} (hw : s.workers[i]? = some (.addClient op connID pSock)) :
    let t := { s with
      m_mpClientSocket := Function.update s.m_mpClientSocket connID (some ⟨pSock, op.conn⟩)
      stage := Function.update s.stage op.conn (.listed connID pSock)
      workers := s.workers.set i (.associate op connID pSock) }
    Inv t ∧ Isolated t := by
  intro t
  obtain ⟨hsock, hfilled⟩ : op.At s.stage s.sockOf (.filled connID pSock) :=
    h.workers _ (List.mem_of_getElem? hw)
  obtain ⟨huse, hc⟩ := sound_worker h hw rfl
  have hnot : ∀ connID pSock, s.stage op.conn ≠ .listed connID pSock := by
    rw [hfilled]
    exact nofun
  have hstage : t.stage op.conn = .listed connID pSock := Function.update_self ..
  have hname : (s.stage op.conn).connID? = some connID := by rw [hfilled]; rfl
  have haddr : (s.stage op.conn).pSock? = some pSock := by rw [hfilled]; rfl
  refine ⟨h.advance hw rfl rfl rfl rfl hnot rfl rfl ⟨rfl, rfl, rfl, rfl, rfl, rfl⟩ ?_ ?_ ?_ ?_,
    hi.quiet ⟨rfl, rfl, rfl, fun c id p hl => listed_advance hnot hl⟩⟩
  · refine ⟨hc.handle, fun id hid => ?_, fun id p hf => ?_, fun id p hl => ?_, fun p hp => ?_⟩
    · rw [hstage] at hid
      exact hc.holder id (hname.trans hid)
    · rw [hstage] at hf
      rcases hf with hf | hf
      · cases hf
      · obtain ⟨rfl, rfl⟩ := Stage.listed.inj hf
        exact hc.filled _ _ (.inl hfilled)
    · rw [hstage] at hl
      obtain ⟨rfl, rfl⟩ := Stage.listed.inj hl
      intro client hclient
      have hadded : t.m_mpClientSocket connID = some ⟨pSock, op.conn⟩ := Function.update_self ..
      exact Option.some.inj (hclient.symm.trans hadded)
    · obtain ⟨id, hl⟩ := hc.key p hp
      exact absurd hl (hnot id p)
  · intro d hd hdc
    have hapart := h.apart op.conn d huse hd hdc.symm
    refine (h.sound d hd).keep rfl (Function.update_of_ne hdc _ _) (fun _ => .inl) (fun _ => id)
      (fun _ _ => rfl) (fun _ _ => rfl) (fun id hid client hclient => ?_)
    have hne : id ≠ connID := fun heq => hapart.connID connID hname (heq ▸ hid)
    exact (Function.update_of_ne hne _ _).symm.trans hclient
  · intro d hd hdc
    have hapart := h.apart op.conn d huse hd hdc.symm
    exact ⟨fun id hid => hapart.connID id (hname.trans hid),
      fun p hp => hapart.pSock p (haddr.trans hp)⟩
  · exact ⟨hsock, hstage⟩

/-- The completion key is the context the connection is listed with. -/
theorem associate_good {s : Server} (h : Inv s) (hi : Isolated s) {i : Nat} {op : Operation}
    {connID : UInt32} {pSock : Addr} (hw : s.workers[i]? = some (.associate op connID pSock))
    {conn : Conn} (hconn : s.handles op.pIo.sockAccept = some conn) :
    let t := { s with
      key := Function.update s.key conn (some pSock)
      workers := s.workers.set i (.firstReceive op) }
    Inv t ∧ Isolated t := by
  intro t
  obtain ⟨hsock, hlisted⟩ : op.At s.stage s.sockOf (.listed connID pSock) :=
    h.workers _ (List.mem_of_getElem? hw)
  obtain ⟨-, hc⟩ := sound_worker h hw rfl
  have heq : conn = op.conn := hc.handle conn (hsock ▸ hconn)
  have hk : Kept s t := { kept_refl s with key := fun c p hp => ?_ }
  · exact ⟨h.goto hw hk rfl rfl (List.append_nil _).symm (by simp) (fun _ => id) (fun _ => id)
      ⟨connID, pSock, hsock, hlisted⟩, hi.quiet ⟨rfl, rfl, rfl, fun _ _ _ => id⟩⟩
  · by_cases hcc : c = conn
    · subst hcc
      have hkey : t.key c = some pSock := Function.update_self ..
      obtain rfl := Option.some.inj (hkey.symm.trans hp)
      exact .inr ⟨connID, heq ▸ hlisted⟩
    · have hkey : t.key c = s.key c := Function.update_of_ne hcc _ _
      exact .inl (hkey ▸ hp)

/-- `PostReceive` posts on the connection's own socket. -/
theorem postReceive_good {s : Server} (h : Inv s) (hi : Isolated s) {i : Nat} {w : Worker}
    {op : Operation} (hw : s.workers[i]? = some w) (hconn : w.conn? = some op.conn)
    (hchain : w.chain? = some op.conn) {connID : UInt32} {pSock : Addr}
    (hat : op.At s.stage s.sockOf (.listed connID pSock)) {conn : Conn}
    (hopen : s.handles op.pIo.sockAccept = some conn) :
    let t := { s with
      posted := s.posted ++ [⟨{ op.pIo with so := .read }, conn⟩]
      workers := s.workers.set i .dequeue }
    Inv t ∧ Isolated t := by
  intro t
  obtain ⟨-, hc⟩ := sound_worker h hw hconn
  obtain rfl : conn = op.conn := hc.handle conn (hat.1 ▸ hopen)
  exact ⟨h.post hw { kept_refl s with } rfl rfl rfl hconn hchain rfl rfl
    ⟨fun _ => hat.1, nofun⟩ trivial, hi.quiet ⟨rfl, rfl, rfl, fun _ _ _ => id⟩⟩

/-! ## 4. Completions -/

theorem dequeue_good {s : Server} (h : Inv s) (hi : Isolated s) {i : Nat}
    (hw : s.workers[i]? = some .dequeue) {e : Entry} {queue : List Entry}
    (hqueue : s.queue = e :: queue) :
    let t := { s with queue := queue, workers := s.workers.set i e.dispatch }
    Inv t ∧ Isolated t := by
  intro t
  have hmem : e ∈ s.queue := hqueue ▸ List.mem_cons_self ..
  have hconn : e.dispatch.conn? = e.conn? := by cases e <;> rfl
  have hchain : e.dispatch.chain? = e.chain? := by cases e <;> rfl
  have hk : Kept s t := { kept_refl s with }
  refine ⟨h.of_kept hk (fun c => hk.inUse ?_ ?_ ?_) ?_ h.posted ?_ ?_,
    hi.quiet ⟨rfl, rfl, rfl, fun _ _ _ => id⟩⟩
  · exact fun op hop => .inr (.inl ⟨op, hop, rfl⟩)
  · intro e' he' c hc
    exact .inr (.inr (.inl ⟨e', hqueue ▸ List.mem_cons_of_mem _ he', hc⟩))
  · intro x hx c hc
    rcases List.mem_or_eq_of_mem_set hx with hx | rfl
    · exact .inr (.inr (.inr ⟨x, hx, hc⟩))
    · exact .inr (.inr (.inl ⟨e, hmem, hconn ▸ hc⟩))
  · intro c
    have hset := countP_set hw e.dispatch (fun w => w.chain? = some c)
    rw [hchain] at hset
    have hfree : Worker.dequeue.chain? ≠ some c := nofun
    simp only [hfree, decide_false, Bool.false_eq_true, if_false] at hset
    rw [chainCount, chainCount, hqueue, List.countP_cons]
    simp only [t]
    omega
  · exact fun e' he' => h.queue e' (hqueue ▸ List.mem_cons_of_mem _ he')
  · intro x hx
    rcases List.mem_or_eq_of_mem_set hx with hx | rfl
    · exact h.workers x hx
    · have hfits := h.queue e hmem
      cases e with
      | completion pSock op result dwBytes => exact hfits
      | _ => trivial

/-- Where `examine` sends a completion. -/
theorem examine_fits {stage : Conn → Stage} {sockOf : Conn → Sock} {pSock : Addr} {connID : UInt32}
    {op : Operation} (hfits : op.Fits stage sockOf)
    (hlisted : op.pIo.so ≠ .accept → stage op.conn = .listed connID pSock)
    (dwErrorCode : UInt32) (dwBytes : Nat) :
    (Socket.examine pSock connID op dwErrorCode dwBytes).Fits stage sockOf ∧
      (∀ c, (Socket.examine pSock connID op dwErrorCode dwBytes).conn? = some c → op.conn = c) ∧
        ∀ c, (Socket.examine pSock connID op dwErrorCode dwBytes).chain? = some c →
          op.chain? = some c := by
  unfold Socket.examine
  by_cases herror : dwErrorCode ≠ 0
  · rw [if_pos herror]
    by_cases hpending : dwErrorCode = errorIoPending
    · rw [if_pos hpending]
      exact ⟨trivial, nofun, nofun⟩
    rw [if_neg hpending]
    by_cases haccept : op.pIo.so ≠ .accept
    · rw [if_pos haccept]
      split
      · exact ⟨⟨pSock, hlisted haccept⟩, fun _ => Option.some.inj, nofun⟩
      · exact ⟨trivial, nofun, nofun⟩
    · rw [if_neg haccept]
      exact ⟨trivial, fun _ => Option.some.inj, nofun⟩
  · rw [if_neg herror]
    by_cases hzero : dwBytes = 0 ∧ op.pIo.so ≠ .accept
    · rw [if_pos hzero]
      exact ⟨⟨pSock, hlisted hzero.2⟩, fun _ => Option.some.inj, nofun⟩
    rw [if_neg hzero]
    cases hso : op.pIo.so with
    | accept =>
      have hchain : op.chain? = some op.conn := if_neg (by rw [hso]; decide)
      exact ⟨⟨hfits.1 (by rw [hso]; decide), hfits.2 hso⟩, fun _ => Option.some.inj,
        fun c hc => hchain.trans hc⟩
    | read =>
      have hchain : op.chain? = some op.conn := if_neg (by rw [hso]; decide)
      exact ⟨⟨hfits.1 (by rw [hso]; decide), hlisted (by rw [hso]; decide)⟩,
        fun _ => Option.some.inj, fun c hc => hchain.trans hc⟩
    | _ => exact ⟨trivial, nofun, nofun⟩

theorem examine_good {s : Server} (h : Inv s) (hi : Isolated s) {i : Nat} {pSock : Addr}
    {connID : UInt32} {op : Operation} {result : Bool} {n : Nat}
    (hw : s.workers[i]? = some (.examine pSock connID op result n)) (dwErrorCode : UInt32)
    (dwBytes : Nat) :
    let t := { s with
      workers := s.workers.set i (Socket.examine pSock connID op dwErrorCode dwBytes) }
    Inv t ∧ Isolated t := by
  obtain ⟨hfits, hlisted⟩ := h.workers _ (List.mem_of_getElem? hw)
  obtain ⟨hfits', hconn, hchain⟩ := examine_fits hfits hlisted dwErrorCode dwBytes
  exact goto_good h hi hw s.m_lsFreeIOContext (fun c hc => congrArg some (hconn c hc)) hchain hfits'

theorem crash_good {s : Server} (h : Inv s) (hi : Isolated s) {i : Nat} {w : Worker}
    (hw : s.workers[i]? = some w) {x : Crash} (hx : ∀ c, x ≠ .deleted (some c)) :
    let t := { s with crashed := some x, workers := s.workers.set i w }
    Inv t ∧ Isolated t :=
  ⟨h.goto hw { kept_refl s with } rfl rfl (List.append_nil _).symm (by simp) (fun _ => id)
    (fun _ => id) (h.workers w (List.mem_of_getElem? hw)),
    ⟨hi.closings, hi.deliveries, fun c heq => hx c (Option.some.inj heq)⟩⟩

/-- What is found under the key is the context the connection was listed with. -/
theorem context_listed {s : Server} (h : Inv s) {i : Nat} {w : Worker}
    (hw : s.workers[i]? = some w) {c : Conn} (hc : w.conn? = some c) {connID : UInt32}
    {pSock : Addr} (hl : s.stage c = .listed connID pSock) :
    s.context pSock = some ⟨connID, s.sockOf c⟩ :=
  (sound_worker h hw hc).2.filled _ _ (.inr hl)

/-- The bytes of a connection are handed over under its own id. -/
theorem receive_good {env : SaveEnv} {s : Server} (h : Inv s) (hi : Isolated s) {i : Nat}
    {pSock : Addr} {connID : UInt32} {op : Operation} {dwBytes : Nat}
    (hw : s.workers[i]? = some (.saveData pSock connID op dwBytes))
    {t : Server} {w' : Worker}
    (ht : receive (saveData env) s connID { op with pIo.connID := connID } dwBytes
      (.saveData pSock connID op dwBytes) = (t, w')) :
    Inv { t with workers := s.workers.set i w' } ∧
      Isolated { t with workers := s.workers.set i w' } := by
  obtain ⟨hsock, hlisted⟩ : op.At s.stage s.sockOf (.listed connID pSock) :=
    h.workers _ (List.mem_of_getElem? hw)
  obtain ⟨-, hc⟩ := sound_worker h hw rfl
  have hholder : s.holder connID = some op.conn := hc.holder connID (by rw [hlisted]; rfl)
  let chunk := op.pIo.wsaBuf.take dwBytes
  let r := saveData env { op.pIo with connID := connID } chunk
  have hctx : r.ctx.sockAccept = op.pIo.sockAccept := by
    rw [saveData_ctx]
    rfl
  have hnew : ∀ x ∈ s.deliveries ++ r.revs.map fun rev =>
      (⟨op.conn, rev, s.holder rev.uSokcetID⟩ : Delivery),
      (∃ pSock, s.stage x.conn = .listed x.rev.uSokcetID pSock) ∧ x.addressee = some x.conn := by
    intro x hx
    rcases List.mem_append.mp hx with hx | hx
    · exact hi.deliveries x hx
    · obtain ⟨rev, hrev, rfl⟩ := List.mem_map.mp hx
      have hid : rev.uSokcetID = connID := saveData_connID hrev
      simp only [hid]
      exact ⟨⟨pSock, hlisted⟩, hholder⟩
  unfold receive at ht
  simp only at ht
  cases hfault : r.fault with
  | none =>
    simp only [r, chunk] at hfault
    rw [hfault] at ht
    obtain ⟨rfl, rfl⟩ := Prod.mk.inj ht
    refine ⟨h.goto hw { kept_refl s with } rfl rfl (List.append_nil _).symm (by simp)
      (fun _ => id) (fun _ => id) ⟨pSock, hctx.trans hsock, hlisted⟩, hi.closings, hnew, hi.crashed⟩
  | some fault =>
    simp only [r, chunk] at hfault
    rw [hfault] at ht
    obtain ⟨rfl, rfl⟩ := Prod.mk.inj ht
    exact ⟨h.goto hw { kept_refl s with } rfl rfl (List.append_nil _).symm (by simp)
      (fun _ => id) (fun _ => id) ⟨hsock, hlisted⟩, hi.closings, hnew, nofun⟩

/-! ## 5. `AddFreeSocketContext` -/

theorem resume_fits (stage : Conn → Stage) (sockOf : Conn → Sock) (pIo : Option IoContext) :
    (Worker.resume pIo).Fits stage sockOf ∧ (Worker.resume pIo).conn? = none ∧
      (Worker.resume pIo).chain? = none := by
  cases pIo <;> exact ⟨trivial, rfl, rfl⟩

/-- What is found under the id of a connection that is listed is its own entry. -/
theorem find_good {s : Server} (h : Inv s) (hi : Isolated s) {i : Nat} {cause : Option Conn}
    {dwConnID : UInt32} {pIo : Option IoContext}
    (hw : s.workers[i]? = some (.find cause dwConnID pIo)) {client : Client}
    (hclient : s.m_mpClientSocket dwConnID = some client) :
    let t := { s with workers := s.workers.set i (.close cause dwConnID client.pSock pIo) }
    Inv t ∧ Isolated t := by
  refine goto_good h hi hw s.m_lsFreeIOContext (fun _ => id) (fun _ => id) ?_
  cases cause with
  | none => trivial
  | some c =>
    obtain ⟨pSock, hlisted⟩ := h.workers _ (List.mem_of_getElem? hw)
    rw [(sound_worker h hw rfl).2.listed dwConnID pSock hlisted client hclient]
    exact hlisted

theorem close_good {s : Server} (h : Inv s) (hi : Isolated s) {i : Nat} {cause : Option Conn}
    {dwConnID : UInt32} {pSock : Addr} {pIo : Option IoContext}
    (hw : s.workers[i]? = some (.close cause dwConnID pSock pIo)) {context : SocketContext}
    (hcontext : s.context pSock = some context) :
    let t := { s with
      handles := Function.update s.handles context.sock none
      m_mpClientSocket := Function.update s.m_mpClientSocket dwConnID none
      closings := s.closings ++ [⟨cause, s.handles context.sock,
        (s.m_mpClientSocket dwConnID).map Client.conn⟩]
      workers := s.workers.set i (.pool cause pSock pIo) }
    Inv t ∧ Isolated t := by
  intro t
  have hk : Kept s t := { kept_refl s with
    handles := fun _ _ => of_update_none
    clients := fun _ _ => of_update_none }
  refine ⟨h.goto hw hk rfl rfl (List.append_nil _).symm (by simp) (fun _ => id) nofun trivial,
    fun x hx c hc => ?_, hi.deliveries, hi.crashed⟩
  rcases List.mem_append.mp hx with hx | hx
  · exact hi.closings x hx c hc
  · rw [List.mem_singleton.mp hx] at hc ⊢
    -- the section is passed for an operation of `c`
    obtain rfl : cause = some c := hc
    have hlisted : s.stage c = .listed dwConnID pSock := h.workers _ (List.mem_of_getElem? hw)
    have hsound := (sound_worker h hw rfl).2
    have hown := Option.some.inj (hcontext.symm.trans (context_listed h hw rfl hlisted))
    refine ⟨fun d hd => ?_, fun d hd => ?_⟩
    · rw [hown] at hd
      exact hsound.handle d hd
    · obtain ⟨client, hclient, rfl⟩ := Option.map_eq_some_iff.mp hd
      rw [hsound.listed dwConnID pSock hlisted client hclient]

theorem pool_good {s : Server} (h : Inv s) (hi : Isolated s) {i : Nat} {cause : Option Conn}
    {pSock : Addr} {pIo : Option IoContext}
    (hw : s.workers[i]? = some (.pool cause pSock pIo)) (free : List Addr) {gone : List Addr}
    (hspare : ∀ p ∈ gone, ∀ c, InUse s c → (s.stage c).pSock? ≠ some p) :
    let t := { s with
      context := fun p => if p ∈ gone then none else s.context p
      m_lsFreeSocketContext := free
      workers := s.workers.set i (.resume pIo) }
    Inv t ∧ Isolated t := by
  intro t
  have hk : Kept s t := { kept_refl s with
    context := fun c hc p hp => if_neg fun hgone => hspare p hgone c hc hp }
  obtain ⟨hfits, hconn, hchain⟩ := resume_fits s.stage s.sockOf pIo
  exact ⟨h.goto hw hk rfl rfl (List.append_nil _).symm (by simp) (by rw [hconn]; exact nofun)
    (by rw [hchain]; exact nofun) hfits, hi.quiet ⟨rfl, rfl, rfl, fun _ _ _ => id⟩⟩

/-! ## 6. Senders and the system -/

/-- A send is posted on a socket that is open, so its connection is in use already. -/
theorem postSend_good {s : Server} (h : Inv s) (hi : Isolated s) {pIo : IoContext} {conn : Conn}
    (hopen : s.handles pIo.sockAccept = some conn) (senders : List Sender) :
    let t := { s with
      posted := s.posted ++ [⟨{ pIo with so := .write }, conn⟩], senders := senders }
    Inv t ∧ Isolated t := by
  intro t
  have huse : InUse s conn := .inl ((h.handles _ _ hopen).symm ▸ hopen)
  have hk : Kept s t := { kept_refl s with }
  refine ⟨h.of_kept hk (fun c => hk.inUse ?_ ?_ ?_) (fun c => ?_) ?_ h.queue h.workers,
    hi.quiet ⟨rfl, rfl, rfl, fun _ _ _ => id⟩⟩
  · intro op hop
    rcases List.mem_append.mp hop with hop | hop
    · exact .inr (.inl ⟨op, hop, rfl⟩)
    · rw [List.mem_singleton.mp hop]
      exact huse
  · exact fun e he c hc => .inr (.inr (.inl ⟨e, he, hc⟩))
  · exact fun w hw c hc => .inr (.inr (.inr ⟨w, hw, hc⟩))
  · simp [t, chainCount, Operation.chain?]
  · intro op hop
    rcases List.mem_append.mp hop with hop | hop
    · exact h.posted op hop
    · rw [List.mem_singleton.mp hop]
      exact ⟨fun hso => absurd rfl hso, fun haccept => by cases haccept⟩

theorem SenderStep.good {s t : Server} {a : Answer} {w w' : Sender} (hstep : SenderStep s a w t w')
    (h : Inv s) (hi : Isolated s) (senders : List Sender) :
    Inv { t with senders := senders } ∧ Isolated { t with senders := senders } := by
  -- but for a send nothing changes except the pool, and what a call may have crashed on
  have hsame (free : List IoContext) (crashed : Option Crash)
      (hcrashed : ∀ c, crashed ≠ some (.deleted (some c))) :
      Inv { s with m_lsFreeIOContext := free, crashed := crashed, senders := senders } ∧
        Isolated { s with m_lsFreeIOContext := free, crashed := crashed, senders := senders } :=
    ⟨h.of_kept { kept_refl s with } (fun _ => id) (fun _ => le_refl _) h.posted h.queue h.workers,
      hi.closings, hi.deliveries, hcrashed⟩
  cases hstep with
  | overrun => exact hsame _ _ nofun
  | readDeleted => exact hsame _ _ nofun
  | postSend hok hopen => exact postSend_good h hi hopen senders
  | _ => exact hsame _ s.crashed hi.crashed

/-- An operation that completes leaves an entry of its connection, with the key of its socket. -/
theorem completed_fits {s : Server} (h : Inv s) {op : Operation} (hop : op ∈ s.posted)
    {result : Bool} {bytes : List UInt8} {e : Entry} (he : completed? s op result bytes = some e) :
    e.Fits s.stage s.sockOf ∧ e.conn? = some op.conn ∧ e.chain? = op.chain? := by
  have hfits := h.posted op hop
  rw [completed?] at he
  split at he
  · next haccept =>
    obtain rfl := Option.some.inj he
    exact ⟨⟨hfits, fun hso => absurd haccept hso⟩, rfl, rfl⟩
  · next haccept =>
    obtain ⟨pSock, hkey, rfl⟩ := Option.map_eq_some_iff.mp he
    have hlisted := (h.sound op.conn (.inr (.inl ⟨op, hop, rfl⟩))).key pSock hkey
    split
    · exact ⟨⟨hfits, fun _ => hlisted⟩, rfl, rfl⟩
    · exact ⟨⟨hfits, fun _ => hlisted⟩, rfl, rfl⟩

theorem complete_good {s : Server} (h : Inv s) (hi : Isolated s) {i : Nat} {op : Operation}
    (hop : s.posted[i]? = some op) (result : Bool) (bytes : List UInt8) :
    let t := { s with
      posted := s.posted.eraseIdx i
      queue := s.queue ++ (completed? s op result bytes).toList }
    Inv t ∧ Isolated t := by
  intro t
  have hmem := List.mem_of_getElem? hop
  have hentry {e : Entry} (he : e ∈ (completed? s op result bytes).toList) :=
    completed_fits h hmem (Option.mem_toList.mp he)
  have hk : Kept s t := { kept_refl s with }
  refine ⟨h.of_kept hk (fun c => hk.inUse ?_ ?_ ?_) (fun c => ?_) ?_ ?_ h.workers,
    hi.quiet ⟨rfl, rfl, rfl, fun _ _ _ => id⟩⟩
  · exact fun op' hop' => .inr (.inl ⟨op', List.mem_of_mem_eraseIdx hop', rfl⟩)
  · intro e he c hc
    rcases List.mem_append.mp he with he | he
    · exact .inr (.inr (.inl ⟨e, he, hc⟩))
    · exact .inr (.inl ⟨op, hmem, Option.some.inj ((hentry he).2.1.symm.trans hc)⟩)
  · exact fun w hw c hc => .inr (.inr (.inr ⟨w, hw, hc⟩))
  · have herase := countP_eraseIdx hop (fun op => op.chain? = some c)
    have hadded : (completed? s op result bytes).toList.countP (fun e => e.chain? = some c) ≤
        if op.chain? = some c then 1 else 0 := by
      cases hcompleted : completed? s op result bytes with
      | none => exact Nat.zero_le _
      | some e =>
        rw [Option.toList_some, List.countP_singleton, (completed_fits h hmem hcompleted).2.2]
        simp only [decide_eq_true_eq, le_refl]
    rw [chainCount, chainCount]
    simp only [t, List.countP_append, decide_eq_true_eq] at herase ⊢
    omega
  · exact fun op' hop' => h.posted op' (List.mem_of_mem_eraseIdx hop')
  · intro e he
    rcases List.mem_append.mp he with he | he
    · exact h.queue e he
    · exact (hentry he).1

/-! ## 7. One step -/

/-- A completion that is no accept is read under the key of a connection that is listed. -/
theorem readId_good {s : Server} (h : Inv s) (hi : Isolated s) {i : Nat} {pSock : Addr}
    {op : Operation} {result : Bool} {dwBytes : Nat}
    (hw : s.workers[i]? = some (.readId pSock op result dwBytes)) (hso : op.pIo.so ≠ .accept)
    {context : SocketContext} (hcontext : s.context pSock = some context) :
    let t := { s with workers := s.workers.set i (.examine pSock context.connID op result dwBytes) }
    Inv t ∧ Isolated t := by
  have hfits := h.workers _ (List.mem_of_getElem? hw)
  obtain ⟨connID, hlisted⟩ := hfits.2 hso
  obtain rfl := Option.some.inj (hcontext.symm.trans (context_listed h hw rfl hlisted))
  exact goto_good h hi hw s.m_lsFreeIOContext (fun _ => id) (fun _ => id)
    ⟨hfits.1, fun _ => hlisted⟩

/-- No operation of a connection in use finds its context deleted. -/
theorem deleted_absurd {s : Server} (h : Inv s) {i : Nat} {w : Worker}
    (hw : s.workers[i]? = some w) {c : Conn} (hc : w.conn? = some c) {connID : UInt32}
    {pSock : Addr} (hl : s.stage c = .listed connID pSock) : s.context pSock ≠ none := by
  rw [context_listed h hw hc hl]
  exact nofun

theorem closeDeleted_good {s : Server} (h : Inv s) (hi : Isolated s) {i : Nat}
    {cause : Option Conn} {dwConnID : UInt32} {pSock : Addr} {pIo : Option IoContext}
    (hw : s.workers[i]? = some (.close cause dwConnID pSock pIo))
    (hcontext : s.context pSock = none) :
    let t := { s with
      crashed := some (.deleted cause)
      workers := s.workers.set i (.close cause dwConnID pSock pIo) }
    Inv t ∧ Isolated t := by
  refine crash_good h hi hw fun c heq => ?_
  obtain rfl := Crash.deleted.inj heq
  exact deleted_absurd h hw rfl (h.workers _ (List.mem_of_getElem? hw)) hcontext

/-- One step of a worker that hands out nothing of a connection in use. -/
theorem WorkerStep.good {env : SaveEnv} {s t : Server} {i : Nat} {a : Answer} {w w' : Worker}
    (hstep : WorkerStep (Socket.saveData env) s a w t w') (h : Inv s) (hi : Isolated s)
    (hw : s.workers[i]? = some w) (hspare : sparesInUse s (.worker i a) = true) :
    Inv { t with workers := s.workers.set i w' } ∧
      Isolated { t with workers := s.workers.set i w' } := by
  have hfits := h.workers w (List.mem_of_getElem? hw)
  simp only [sparesInUse, hw] at hspare
  cases hstep with
  | dequeue hqueue => exact dequeue_good h hi hw hqueue
  | openSocket hok hvalid hfree =>
    -- the condition: no connection in use has the handle that `WSASocket` gives
    rw [hok, Bool.not_true, Bool.false_or] at hspare
    exact openSocket_good h hi hw hfree fun c hc => of_decide_eq_true (all_inUse h hspare hc)
  | getIo => exact goto_good h hi hw _ (fun _ => id) (fun _ => id) ⟨rfl, hfits.1.symm, hfits.2⟩
  | postAccept hok =>
    exact ⟨h.post hw { kept_refl s with } rfl rfl rfl rfl rfl rfl rfl
      ⟨fun _ => hfits.2.1, fun _ => hfits.2.2⟩ trivial, hi.quiet ⟨rfl, rfl, rfl, fun _ _ _ => id⟩⟩
  | acceptFails hfail => exact goto_good h hi hw _ (fun _ => id) of_none trivial
  | closeClient => exact closeHandle_good h hi hw _ of_none of_none trivial
  | readAccept hso =>
    exact goto_good h hi hw _ (fun _ => id) (fun _ => id) ⟨hfits.1, fun hread => absurd hso hread⟩
  | readId hso hcontext => exact readId_good h hi hw hso hcontext
  | readDeleted hso hcontext =>
    obtain ⟨connID, hlisted⟩ := hfits.2 hso
    exact absurd hcontext (deleted_absurd h hw rfl hlisted)
  | examine => exact examine_good h hi hw _ _
  | closeAccept => exact closeHandle_good h hi hw _ of_none of_none trivial
  | postAgain => exact request_good h hi hw of_none of_none trivial
  | postNext => exact request_good h hi hw (fun _ => id) (fun _ => id) hfits
  | incrementAgain hzero =>
    exact ⟨h.goto hw { kept_refl s with } rfl rfl (List.append_nil _).symm (by simp)
      (fun _ => id) (fun _ => id) hfits, hi.quiet ⟨rfl, rfl, rfl, fun _ _ _ => id⟩⟩
  | increment hid =>
    simp only [Bool.or_eq_true, Bool.and_eq_true, decide_eq_true_eq, Bool.not_eq_true'] at hspare
    -- nor the next id
    have hall := hspare.resolve_left hid
    exact increment_good h hi hw fun c hc => of_decide_eq_true (all_inUse h hall hc)
  | getSocket hfree =>
    -- nor the context handed out, from the free list or new
    rw [socketHandedOut, hfree, List.headD_cons] at hspare
    exact getSocket_good h hi hw (fun c hc => of_decide_eq_true (all_inUse h hspare hc))
      fun _ _ => rfl
  | newSocket hempty hnew =>
    rw [socketHandedOut, hempty, List.headD_nil] at hspare
    exact getSocket_good h hi hw (fun c hc => of_decide_eq_true (all_inUse h hspare hc))
      fun p hp => Function.update_of_ne hp _ _
  | fillDeleted hcontext => exact crash_good h hi hw fun _ heq => by cases heq
  | fillSocket hcontext => exact fillSocket_good h hi hw
  | addClient => exact addClient_good h hi hw
  | associate hok hopen hkey => exact associate_good h hi hw hopen
  | @associateFails op connID pSock hfail =>
    exact goto_good h hi hw _ (fun _ => id) of_none ⟨pSock, hfits.2⟩
  | firstReceive hok hopen =>
    obtain ⟨connID, pSock, hat⟩ := hfits
    exact postReceive_good h hi hw rfl rfl hat hopen
  | saveDeleted hcontext => exact absurd hcontext (deleted_absurd h hw rfl hfits.2)
  | saveData hcontext =>
    -- the context is the one under which the connection is listed
    obtain rfl := Option.some.inj (hcontext.symm.trans (context_listed h hw rfl hfits.2))
    exact receive_good h hi hw rfl
  | nextReceive hok hopen =>
    obtain ⟨pSock, hat⟩ := hfits
    exact postReceive_good h hi hw rfl rfl hat hopen
  | nextFails hfail =>
    obtain ⟨pSock, hat⟩ := hfits
    exact goto_good h hi hw _ (fun _ => id) of_none ⟨pSock, hat.2⟩
  | @findNone cause dwConnID pIo hnone =>
    -- `_Disconnect` finds nothing, and its caller goes on
    obtain ⟨hresume, hconn, hchain⟩ := resume_fits s.stage s.sockOf pIo
    exact goto_good h hi hw _ (by rw [hconn]; exact of_none) (by rw [hchain]; exact of_none) hresume
  | find hclient => exact find_good h hi hw hclient
  | closeDeleted hcontext => exact closeDeleted_good h hi hw hcontext
  | close hcontext => exact close_good h hi hw hcontext
  | pool hnodup hlive =>
    exact pool_good h hi hw _ fun p hp c hc =>
      of_decide_eq_true (all_inUse h (List.all_eq_true.mp hspare p hp) hc)
  | poolDeleted hdeleted => exact crash_good h hi hw fun _ heq => by cases heq
  | _ => exact goto_good h hi hw _ of_none of_none trivial

/-- A step outside the workers that adds no more than a request to disconnect. -/
theorem outside_good {s t : Server} (h : Inv s) (hi : Isolated s) (hk : Kept s t) (hq : Quiet s t)
    (hposted : t.posted = s.posted) (hworkers : t.workers = s.workers)
    (hqueue : t.queue = s.queue ∨ ∃ nID, t.queue = s.queue ++ [.disconnect nID]) :
    Inv t ∧ Isolated t := by
  have hentry : ∀ e ∈ t.queue, e ∈ s.queue ∨ ∃ nID, e = .disconnect nID := by
    intro e he
    rcases hqueue with hqueue | ⟨nID, hqueue⟩
    · exact .inl (hqueue ▸ he)
    · rw [hqueue, List.mem_append, List.mem_singleton] at he
      exact he.imp id fun he => ⟨nID, he⟩
  refine ⟨h.of_kept hk (fun c => hk.inUse ?_ ?_ ?_) (fun c => ?_) (hposted ▸ h.posted) ?_
    (hworkers ▸ h.workers), hi.quiet hq⟩
  · exact fun op hop => .inr (.inl ⟨op, hposted ▸ hop, rfl⟩)
  · intro e he c hc
    rcases hentry e he with he | ⟨nID, rfl⟩
    · exact .inr (.inr (.inl ⟨e, he, hc⟩))
    · cases hc
  · exact fun w hw c hc => .inr (.inr (.inr ⟨w, hworkers ▸ hw, hc⟩))
  · rw [chainCount, chainCount, hposted, hworkers]
    rcases hqueue with hqueue | ⟨nID, hqueue⟩
    · rw [hqueue]
    · rw [hqueue, List.countP_append, List.countP_singleton]
      exact le_refl _
  · intro e he
    rcases hentry e he with he | ⟨nID, rfl⟩
    · exact h.queue e he
    · trivial

theorem step_good {env : SaveEnv} {s t : Server} {l : Label} (h : Inv s ∧ Isolated s)
    (hspare : sparesInUse s l = true) (ht : step (saveData env) s l = some t) :
    Inv t ∧ Isolated t := by
  obtain ⟨h, hi⟩ := h
  have hquiet {u : Server} (hu : u.closings = s.closings ∧ u.deliveries = s.deliveries ∧
      u.crashed = s.crashed ∧ u.stage = s.stage) : Quiet s u :=
    ⟨hu.1, hu.2.1, hu.2.2.1, fun _ _ _ hl => hu.2.2.2 ▸ hl⟩
  cases step_cases ht with
  | worker hw hstep => exact hstep.good h hi hw hspare
  | send =>
    exact outside_good h hi { kept_refl s with } (hquiet ⟨rfl, rfl, rfl, rfl⟩) rfl rfl (.inl rfl)
  | sender hw hstep => exact hstep.good h hi _
  | disconnect hclient =>
    exact outside_good h hi { kept_refl s with } (hquiet ⟨rfl, rfl, rfl, rfl⟩) rfl rfl (.inl rfl)
  | @postDisconnect i nID hcaller =>
    exact outside_good h hi { kept_refl s with } (hquiet ⟨rfl, rfl, rfl, rfl⟩) rfl rfl
      (.inr ⟨nID, rfl⟩)
  | complete hop => exact complete_good h hi hop _ _

/-! ## 8. Runs -/

theorem started_good (n m : Nat) : Inv (started n m) ∧ Isolated (started n m) := by
  have hnone : ∀ c, ¬InUse (started n m) c := by
    rintro c (hopen | ⟨op, hop, -⟩ | ⟨e, he, hc⟩ | ⟨w, hw, hc⟩)
    · cases hopen
    · cases hop
    · rw [List.eq_of_mem_replicate he] at hc
      cases hc
    · rw [List.eq_of_mem_replicate hw] at hc
      cases hc
  refine ⟨⟨fun c hc => absurd hc (hnone c), fun c _ hc => absurd hc (hnone c), nofun,
    fun c hc => absurd hc (hnone c), fun _ _ => ⟨rfl, rfl⟩, fun c => ?_, nofun, fun e he => ?_,
    fun w hw => ?_⟩, nofun, nofun, nofun⟩
  · simp [chainCount, started, List.countP_replicate, Entry.chain?, Worker.chain?]
  · rw [List.eq_of_mem_replicate he]
    trivial
  · rw [List.eq_of_mem_replicate hw]
    trivial

theorem run_good {env : SaveEnv} {n m : Nat} {labels : List Label} {t : Server}
    (hspare : RunMeets (step (saveData env)) (fun s l => sparesInUse s l = true) (started n m) labels)
    (ht : run (step (saveData env)) (started n m) labels = some t) : Inv t ∧ Isolated t :=
  run_invariant (I := fun s => Inv s ∧ Isolated s) (fun _ _ _ h hspare hst => step_good h hspare hst)
    (started_good n m) hspare ht

/-- In every interleaving whose steps hand out nothing of a connection in use, completions close,
remove and deliver under no connection but their own. -/
theorem run_isolated {env : SaveEnv} {n m : Nat} {labels : List Label} {t : Server}
    (hspare : RunMeets (step (saveData env)) (fun s l => sparesInUse s l = true) (started n m) labels)
    (ht : run (step (saveData env)) (started n m) labels = some t) : Isolated t :=
  (run_good hspare ht).2

-- worker `i` posts an accept; a completion of an accept is taken through `ProcessAccept`
def acceptOn (i : Nat) (handle : Sock) : List Label :=
  [.worker i {}, .worker i { handle := handle }, .worker i {}, .worker i {}]

def takeAccept (i : Nat) (addr : Addr) : List Label :=
  List.replicate 5 (.worker i {}) ++ [.worker i { addr := addr }] ++ List.replicate 4 (.worker i {})

/-- The peer of the first connection closes it, and the second gets its context. -/
theorem run_isolated_close :
    ∃ t, run (step (saveData ⟨true, fun _ => 0⟩)) (started 1 1)
      (acceptOn 0 7 ++ [.complete 0 true []] ++ takeAccept 0 3 ++ [.complete 0 true []] ++
        acceptOn 0 8 ++ List.replicate 7 (.worker 0 {}) ++ [.complete 0 true []] ++
        takeAccept 0 4) = some t ∧
      t.closings = [⟨some 0, some 0, some 0⟩] ∧ t.context 3 = some ⟨2, 8⟩ ∧ Isolated t := by
  have hrun : (run (step (saveData ⟨true, fun _ => 0⟩)) (started 1 1)
      (acceptOn 0 7 ++ [.complete 0 true []] ++ takeAccept 0 3 ++ [.complete 0 true []] ++
        acceptOn 0 8 ++ List.replicate 7 (.worker 0 {}) ++ [.complete 0 true []] ++
        takeAccept 0 4)).map (fun t => (t.closings, t.context 3)) =
      some ([⟨some 0, some 0, some 0⟩], some ⟨2, 8⟩) := by decide
  obtain ⟨t, ht, heq⟩ := Option.map_eq_some_iff.mp hrun
  obtain ⟨hclosings, hcontext⟩ := Prod.mk.inj heq
  exact ⟨t, ht, hclosings, hcontext, run_isolated (by decide) ht⟩

/-- The first connection is disconnected while its receive is in the hands of the second worker, and
the second connection gets its context. -/
theorem completion_closes_other : ¬∀ (env : SaveEnv) (n m : Nat) (labels : List Label) (t : Server),
    run (step (saveData env)) (started n m) labels = some t → Isolated t := by
  intro h
  let labels := acceptOn 0 7 ++ [.complete 0 true []] ++ takeAccept 0 3 ++ acceptOn 0 8 ++
    [.disconnect 1, .complete 0 true [], .postDisconnect 0, .complete 0 true [], .worker 1 {}] ++
    List.replicate 5 (.worker 0 {}) ++ takeAccept 0 4 ++ List.replicate 4 (.worker 1 {})
  have hrun : (run (step (saveData ⟨true, fun _ => 0⟩)) (started 2 1) labels).map Server.closings =
      some [⟨none, some 0, some 0⟩, ⟨some 0, some 1, some 1⟩] := by decide
  obtain ⟨t, ht, hclosings⟩ := Option.map_eq_some_iff.mp hrun
  have hisolated := (h _ _ _ _ t ht).closings ⟨some 0, some 1, some 1⟩ (by simp [hclosings]) 0 rfl
  exact absurd (hisolated.1 1 rfl) (by decide)

end VerifyServer.Socket
