import VerifyServer.Reasoning.Places
import VerifyServer.Socket.Reuse
import VerifyServer.Socket.Steps

/-!
# SocketPool — who has a `SOCKET_CONTEXT`

A context is in the free list, in the map, or in the hands of the worker that took it from one and
is to put it into the other.  `AddFreeSocketContext` looks the context up in one critical section
and closes and erases in the next; between the two another worker may have done the same.
-/

open VerifyServer.Reasoning

namespace VerifyServer.Socket

/-! ## 1. The places of a context -/

inductive Place where
  | free (k : Nat)
  | hand (i : Nat)
  | entry (connID : UInt32)

/-- The context a worker sets up for a new connection, or is to put into the free list. -/
def Worker.holds : Worker → Option Addr
  | .fillSocket _ _ pSock | .addClient _ _ pSock | .pool _ pSock _ => some pSock
  | _ => none

def place (s : Server) : Place → Option Addr
  | .free k => s.m_lsFreeSocketContext[k]?
  | .hand i => (s.workers[i]?).bind Worker.holds
  | .entry connID => (s.m_mpClientSocket connID).map Client.pSock

/-- Nobody else has closed the connection since its context was looked up. -/
def closesFound (s : Server) : Label → Bool
  | .worker i _ =>
    match s.workers[i]? with
    | some (.close _ dwConnID pSock _) =>
      (s.m_mpClientSocket dwConnID).map Client.pSock = some pSock
    | _ => true
  | _ => true

structure Owned (s : Server) : Prop where
  unshared : Unshared (place s)
  live : ∀ x p, place s x = some p → s.context p ≠ none

/-! ## 2. Moves -/

theorem dispatch_holds (e : Entry) : e.dispatch.holds = none := by
  cases e with
  | accept => rfl
  | disconnect dwConnID => rfl
  | completion pSock op result dwBytes => rfl

theorem resume_holds (pIo : Option IoContext) : (Worker.resume pIo).holds = none := by
  cases pIo <;> rfl

theorem examine_holds (pSock : Addr) (connID : UInt32) (op : Operation) (dwErrorCode : UInt32)
    (dwBytes : Nat) : (examine pSock connID op dwErrorCode dwBytes).holds = none := by
  unfold examine
  repeat' split
  all_goals rfl

section Moves

variable {s t : Server} {i : Nat} {w w' : Worker}

theorem place_entry {connID : UInt32} {client : Client}
    (hclient : s.m_mpClientSocket connID = some client) :
    place s (.entry connID) = some client.pSock := by
  rw [place, hclient, Option.map_some]

theorem place_hand (hw : s.workers[i]? = some w) : place s (.hand i) = w.holds := by
  rw [place, hw, Option.bind_some]

theorem place_hand_set (hw : s.workers[i]? = some w) :
    place { t with workers := s.workers.set i w' } (.hand i) = w'.holds := by
  show ((s.workers.set i w')[i]?).bind Worker.holds = w'.holds
  rw [List.getElem?_set_self (List.getElem?_eq_some_iff.mp hw).1]
  rfl

/-- The hands of the other workers stay as they are. -/
theorem place_set {x : Place} {p : Addr}
    (hfree : ∀ k, x = .free k → t.m_lsFreeSocketContext[k]? = some p →
      s.m_lsFreeSocketContext[k]? = some p)
    (hhand : x = .hand i → w'.holds = some p → place s (.hand i) = some p)
    (hentry : ∀ connID, x = .entry connID → place t (.entry connID) = some p →
      place s (.entry connID) = some p)
    (h : place { t with workers := s.workers.set i w' } x = some p) : place s x = some p := by
  cases x with
  | free k => exact hfree k rfl h
  | entry connID => exact hentry connID rfl h
  | hand j =>
    have ⟨x, hx, hp⟩ := Option.bind_eq_some_iff.mp h
    rcases getElem?_set_cases hx with ⟨rfl, rfl⟩ | ⟨-, hx⟩
    · exact hhand rfl hp
    · rw [place, hx, Option.bind_some]
      exact hp

/-- A worker goes on and neither takes nor leaves a context. -/
theorem Owned.goto (h : Owned s) (hw : s.workers[i]? = some w)
    (hholds : ∀ p, w'.holds = some p → w.holds = some p)
    (hfree : t.m_lsFreeSocketContext = s.m_lsFreeSocketContext)
    (hmap : t.m_mpClientSocket = s.m_mpClientSocket)
    (hlive : ∀ p, s.context p ≠ none → t.context p ≠ none) :
    Owned { t with workers := s.workers.set i w' } := by
  have hsub : ∀ x p, place { t with workers := s.workers.set i w' } x = some p →
      place s x = some p := by
    intro x p
    apply place_set
    · intro k _ hk
      exact hfree ▸ hk
    · intro _ hp
      rw [place_hand hw]
      exact hholds p hp
    · intro connID _ hc
      rw [place, hmap] at hc
      exact hc
  exact ⟨h.unshared.drop hsub, fun x p hx => hlive p (h.live x p (hsub x p hx))⟩

/-- Where a context was before `GetFreeSocketContext` gave worker `i` the first free one. -/
def beforeTake (i : Nat) : Place → Place
  | .free k => .free (k + 1)
  | .hand j => if j = i then .free 0 else .hand j
  | .entry connID => .entry connID

theorem beforeTake_injective (i : Nat) : Function.Injective (beforeTake i) := by
  intro x y hxy
  cases x <;> cases y <;> grind [beforeTake]

/-- `GetFreeSocketContext` with a free context. -/
theorem Owned.take (h : Owned s) {pSock : Addr}
    (hfree : s.m_lsFreeSocketContext = pSock :: t.m_lsFreeSocketContext)
    (hholds : w'.holds = some pSock) (hmap : t.m_mpClientSocket = s.m_mpClientSocket)
    (hcontext : t.context = s.context) : Owned { t with workers := s.workers.set i w' } := by
  have hsub : ∀ x p, place { t with workers := s.workers.set i w' } x = some p →
      place s (beforeTake i x) = some p := by
    intro x p hx
    cases x with
    | free k =>
      show s.m_lsFreeSocketContext[k + 1]? = some p
      rw [hfree]
      exact hx
    | entry connID =>
      rw [place, hmap] at hx
      exact hx
    | hand j =>
      have ⟨x, hx, hp⟩ := Option.bind_eq_some_iff.mp hx
      rcases getElem?_set_cases hx with ⟨rfl, rfl⟩ | ⟨hne, hx⟩
      · rw [beforeTake, if_pos rfl, place, hfree, ← hp, hholds]
        rfl
      · rw [beforeTake, if_neg hne, place, hx]
        exact hp
  refine ⟨h.unshared.renumber (beforeTake_injective i) hsub, fun x p hx => ?_⟩
  show t.context p ≠ none
  rw [hcontext]
  exact h.live _ p (hsub x p hx)

/-- `GetFreeSocketContext` when it calls `new`. -/
theorem Owned.create (h : Owned s) {pSock : Addr} {context : SocketContext}
    (hw : s.workers[i]? = some w) (hnew : s.context pSock = none)
    (hholds : w'.holds = some pSock)
    (hfree : t.m_lsFreeSocketContext = s.m_lsFreeSocketContext)
    (hmap : t.m_mpClientSocket = s.m_mpClientSocket)
    (hcontext : t.context = Function.update s.context pSock (some context)) :
    Owned { t with workers := s.workers.set i w' } := by
  have hi : place { t with workers := s.workers.set i w' } (.hand i) = some pSock :=
    (place_hand_set hw).trans hholds
  have hsub : ∀ x p, x ≠ .hand i → place { t with workers := s.workers.set i w' } x = some p →
      place s x = some p := by
    intro x p hne
    apply place_set
    · intro k _ hk
      exact hfree ▸ hk
    · intro hx
      exact absurd hx hne
    · intro connID _ hc
      rw [place, hmap] at hc
      exact hc
  refine ⟨h.unshared.add hi (fun y hy => h.live y pSock hy hnew) hsub, fun x p hx => ?_⟩
  show t.context p ≠ none
  rw [hcontext]
  by_cases hp : p = pSock
  · rw [hp, Function.update_self]
    exact nofun
  · rw [Function.update_of_ne hp]
    apply h.live x p (hsub x p _ hx)
    rintro rfl
    exact hp (Option.some.inj (hx.symm.trans hi))

/-- `AddClientSocket`. -/
theorem Owned.list (h : Owned s) {pSock : Addr} {connID : UInt32} {client : Client}
    (hw : s.workers[i]? = some w) (hholds : w.holds = some pSock) (hclient : client.pSock = pSock)
    (hholds' : w'.holds = none) (hfree : t.m_lsFreeSocketContext = s.m_lsFreeSocketContext)
    (hmap : t.m_mpClientSocket = Function.update s.m_mpClientSocket connID (some client))
    (hcontext : t.context = s.context) : Owned { t with workers := s.workers.set i w' } := by
  have hhand : place { t with workers := s.workers.set i w' } (.hand i) = none :=
    (place_hand_set hw).trans hholds'
  have hfound : ∀ p, place { t with workers := s.workers.set i w' } (.entry connID) = some p →
      place s (.hand i) = some p := by
    intro p hp
    rw [place, hmap, Function.update_self] at hp
    rw [place_hand hw, hholds, ← hclient]
    exact hp
  have hsub : ∀ x p, x ≠ .entry connID → x ≠ .hand i →
      place { t with workers := s.workers.set i w' } x = some p → place s x = some p := by
    intro x p hx hi
    apply place_set
    · intro k _ hk
      exact hfree ▸ hk
    · intro heq
      exact absurd heq hi
    · rintro id rfl hc
      rw [place, hmap, Function.update_of_ne fun heq => hx (congrArg Place.entry heq)] at hc
      exact hc
  refine ⟨h.unshared.move hfound hhand hsub, fun x p hx => ?_⟩
  show t.context p ≠ none
  rw [hcontext]
  by_cases hentry : x = .entry connID
  · exact h.live _ p (hfound p (hentry ▸ hx))
  · apply h.live x p (hsub x p hentry _ hx)
    rintro rfl
    cases hhand.symm.trans hx

/-- The section of `AddFreeSocketContext` on the map, when the context found is still there. -/
theorem Owned.erase (h : Owned s) {pSock : Addr} {connID : UInt32}
    (hw : s.workers[i]? = some w) (hholds : w'.holds = some pSock)
    (hentry : place s (.entry connID) = some pSock)
    (hfree : t.m_lsFreeSocketContext = s.m_lsFreeSocketContext)
    (hmap : t.m_mpClientSocket = Function.update s.m_mpClientSocket connID none)
    (hcontext : t.context = s.context) : Owned { t with workers := s.workers.set i w' } := by
  have hgone : place { t with workers := s.workers.set i w' } (.entry connID) = none := by
    rw [place, hmap, Function.update_self]
    rfl
  have hhand : ∀ p, place { t with workers := s.workers.set i w' } (.hand i) = some p →
      place s (.entry connID) = some p := by
    intro p hp
    rw [place_hand_set hw, hholds] at hp
    exact hentry.trans hp
  have hsub : ∀ x p, x ≠ .hand i → x ≠ .entry connID →
      place { t with workers := s.workers.set i w' } x = some p → place s x = some p := by
    intro x p hi hx
    apply place_set
    · intro k _ hk
      exact hfree ▸ hk
    · intro heq
      exact absurd heq hi
    · rintro id rfl hc
      rw [place, hmap, Function.update_of_ne fun heq => hx (congrArg Place.entry heq)] at hc
      exact hc
  refine ⟨h.unshared.move hhand hgone hsub, fun x p hx => ?_⟩
  show t.context p ≠ none
  rw [hcontext]
  by_cases hi : x = .hand i
  · exact h.live _ p (hhand p (hi ▸ hx))
  · apply h.live x p (hsub x p hi _ hx)
    rintro rfl
    cases hgone.symm.trans hx

/-- The worker puts its context at the end of the free list. -/
theorem Owned.push (h : Owned s) {pSock : Addr} (hw : s.workers[i]? = some w)
    (hholds : w.holds = some pSock) (hholds' : w'.holds = none)
    (hfree : t.m_lsFreeSocketContext = s.m_lsFreeSocketContext ++ [pSock])
    (hmap : t.m_mpClientSocket = s.m_mpClientSocket) (hcontext : t.context = s.context) :
    Owned { t with workers := s.workers.set i w' } := by
  have hhand : place { t with workers := s.workers.set i w' } (.hand i) = none :=
    (place_hand_set hw).trans hholds'
  have hlast : ∀ p, place { t with workers := s.workers.set i w' }
      (.free s.m_lsFreeSocketContext.length) = some p → place s (.hand i) = some p := by
    intro p hp
    rw [place, hfree, List.getElem?_concat_length] at hp
    rw [place_hand hw, hholds, hp]
  have hsub : ∀ x p, x ≠ .free s.m_lsFreeSocketContext.length → x ≠ .hand i →
      place { t with workers := s.workers.set i w' } x = some p → place s x = some p := by
    intro x p hx hi
    apply place_set
    · rintro k rfl hk
      have hne : k ≠ s.m_lsFreeSocketContext.length := fun heq => hx (congrArg Place.free heq)
      rw [hfree, List.getElem?_append] at hk
      split at hk
      · exact hk
      · next hlt =>
        rw [List.getElem?_eq_none (by simp; omega)] at hk
        cases hk
    · intro heq
      exact absurd heq hi
    · intro connID _ hc
      rw [place, hmap] at hc
      exact hc
  refine ⟨h.unshared.move hlast hhand hsub, fun x p hx => ?_⟩
  show t.context p ≠ none
  rw [hcontext]
  by_cases hend : x = .free s.m_lsFreeSocketContext.length
  · exact h.live _ p (hlast p (hend ▸ hx))
  · apply h.live x p (hsub x p hend _ hx)
    rintro rfl
    cases hhand.symm.trans hx

/-- The first `n` free contexts are deleted. -/
theorem Owned.purge (h : Owned s) (n : Nat)
    (hfree : t.m_lsFreeSocketContext = s.m_lsFreeSocketContext.drop n)
    (hmap : t.m_mpClientSocket = s.m_mpClientSocket) (hworkers : t.workers = s.workers)
    (hcontext : ∀ p, p ∉ s.m_lsFreeSocketContext.take n → t.context p = s.context p) :
    Owned t := by
  let before : Place → Place
    | .free k => .free (k + n)
    | x => x
  have hinj : Function.Injective before := by
    intro x y hxy
    cases x <;> cases y <;> grind
  have hsub : ∀ x p, place t x = some p → place s (before x) = some p := by
    intro x p hx
    cases x with
    | free k =>
      rw [place, hfree, List.getElem?_drop] at hx
      rw [show before (.free k) = .free (n + k) from congrArg Place.free (Nat.add_comm k n)]
      exact hx
    | hand j =>
      rw [place, hworkers] at hx
      exact hx
    | entry connID =>
      rw [place, hmap] at hx
      exact hx
  refine ⟨h.unshared.renumber hinj hsub, fun x p hx => ?_⟩
  have hplace := hsub x p hx
  -- a deleted context was at one of the first `n` places, and this one is not there
  have hkept : p ∉ s.m_lsFreeSocketContext.take n := by
    intro hp
    have ⟨k, hk⟩ := List.mem_iff_getElem?.mp hp
    rw [List.getElem?_take] at hk
    split at hk
    · next hlt =>
      have hsame := h.unshared (before x) (.free k) p hplace hk
      cases x with
      | free j =>
        have hj : j + n = k := Place.free.inj hsame
        omega
      | hand j => cases hsame
      | entry connID => cases hsame
    · cases hk
  rw [hcontext p hkept]
  exact h.live _ p hplace

end Moves

/-! ## 3. Steps -/

variable {save : IoContext → List UInt8 → Saved} {s t : Server} {i : Nat} {a : Answer}

theorem purged_eq_take (free : List Addr) : free.take (purged free).length = purged free := by
  rw [purged]
  split
  · rw [List.length_take, Nat.min_eq_left (Nat.sub_le ..)]
  · rfl

variable (save) in
theorem receive_pool (connID : UInt32) (op : Operation) (dwBytes : Nat) {w : Worker}
    (hw : w.holds = none) :
    (receive save s connID op dwBytes w).2.holds = none ∧
      (receive save s connID op dwBytes w).1.m_lsFreeSocketContext = s.m_lsFreeSocketContext ∧
        (receive save s connID op dwBytes w).1.m_mpClientSocket = s.m_mpClientSocket ∧
          (receive save s connID op dwBytes w).1.context = s.context := by
  unfold receive
  simp only
  split
  · exact ⟨rfl, rfl, rfl, rfl⟩
  · exact ⟨hw, rfl, rfl, rfl⟩

theorem WorkerStep.owned {w w' : Worker} (h : Owned s) (hw : s.workers[i]? = some w)
    (hstep : WorkerStep save s a w t w') (hcloses : closesFound s (.worker i a) = true) :
    Owned { t with workers := s.workers.set i w' } := by
  cases hstep with
  | @dequeue e queue hqueue =>
    refine h.goto hw (fun p hp => ?_) rfl rfl fun _ => id
    cases (dispatch_holds e).symm.trans hp
  | examine =>
    refine h.goto hw (fun p hp => ?_) rfl rfl fun _ => id
    cases (examine_holds ..).symm.trans hp
  | getSocket hfree =>
    exact h.take (t := { s with m_lsFreeSocketContext := _, stage := _ }) hfree rfl rfl rfl
  | newSocket hempty hnew =>
    exact h.create (t := { s with context := _, stage := _ }) hw hnew rfl rfl rfl rfl
  | @fillSocket op connID pSock context hcontext =>
    refine h.goto hw (fun _ => id) rfl rfl fun p hp => ?_
    show Function.update s.context pSock _ p ≠ none
    by_cases hsame : p = pSock
    · rw [hsame, Function.update_self]
      exact nofun
    · rw [Function.update_of_ne hsame]
      exact hp
  | fillDeleted hcontext => exact h.goto hw (fun _ => id) rfl rfl fun _ => id
  | @addClient op connID pSock => exact h.list hw rfl rfl rfl rfl rfl rfl
  | @saveData pSock connID op dwBytes context hcontext =>
    have ⟨hholds, hfree, hmap, hctx⟩ := receive_pool save (s := s) connID
      { op with pIo.connID := context.connID } dwBytes
      (w := .saveData pSock connID op dwBytes) rfl
    exact h.goto hw (fun _ hp => nomatch hholds.symm.trans hp) hfree hmap fun _ => hctx ▸ id
  | findNone hnone =>
    refine h.goto hw (fun p hp => ?_) rfl rfl fun _ => id
    cases (resume_holds _).symm.trans hp
  | @close cause dwConnID pSock pIo context hcontext =>
    rw [closesFound, hw] at hcloses
    exact h.erase hw rfl (of_decide_eq_true hcloses) rfl rfl rfl
  | @pool cause pSock pIo hnodup hlive =>
    let free := s.m_lsFreeSocketContext ++ [pSock]
    have hpush : Owned { s with
        m_lsFreeSocketContext := free, workers := s.workers.set i (.resume pIo) } :=
      h.push (t := { s with m_lsFreeSocketContext := free }) hw rfl (resume_holds pIo) rfl rfl rfl
    refine hpush.purge (purged free).length rfl rfl rfl fun p hp => if_neg ?_
    have hp : p ∉ free.take (purged free).length := hp
    rwa [purged_eq_take] at hp
  | poolDeleted hdeleted => exact h.goto hw (fun _ => id) rfl rfl fun _ => id
  | _ => exact h.goto hw nofun rfl rfl fun _ => id

theorem Owned.outside (h : Owned s) (hfree : t.m_lsFreeSocketContext = s.m_lsFreeSocketContext)
    (hmap : t.m_mpClientSocket = s.m_mpClientSocket) (hworkers : t.workers = s.workers)
    (hcontext : t.context = s.context) : Owned t := by
  have hplace : place t = place s := by
    funext x
    cases x with
    | free k => rw [place, place, hfree]
    | hand j => rw [place, place, hworkers]
    | entry connID => rw [place, place, hmap]
  exact ⟨hplace ▸ h.unshared, hplace ▸ hcontext ▸ h.live⟩

theorem step_owned {l : Label} (h : Owned s) (hcloses : closesFound s l = true)
    (ht : step save s l = some t) : Owned t := by
  cases step_cases ht with
  | worker hw hstep => exact hstep.owned h hw hcloses
  | @sender i a w w' t hw hstep =>
    cases hstep <;> exact h.outside rfl rfl rfl rfl
  | _ => exact h.outside rfl rfl rfl rfl

/-! ## 4. Runs -/

/-- The context a worker has from `GetFreeSocketContext` for a connection that is not in the map
yet. -/
def Worker.setsUp : Worker → Option Addr
  | .fillSocket _ _ pSock | .addClient _ _ pSock => some pSock
  | _ => none

/-- No context is twice in the free list, or there and in the map, and what `GetFreeSocketContext`
handed out no other connection has. -/
structure Exclusive (s : Server) : Prop where
  free : s.m_lsFreeSocketContext.Nodup
  listed : ∀ connID client, s.m_mpClientSocket connID = some client →
    client.pSock ∉ s.m_lsFreeSocketContext
  handed : ∀ (i : Nat) (w : Worker) pSock, s.workers[i]? = some w → w.setsUp = some pSock →
    pSock ∉ s.m_lsFreeSocketContext ∧
      (∀ connID client, s.m_mpClientSocket connID = some client → client.pSock ≠ pSock) ∧
      ∀ (j : Nat) (w' : Worker), s.workers[j]? = some w' → w'.setsUp = some pSock → j = i

theorem holds_of_setsUp {w : Worker} {pSock : Addr} (h : w.setsUp = some pSock) :
    w.holds = some pSock := by
  cases w with
  | fillSocket op connID p => exact h
  | addClient op connID p => exact h
  | _ => cases h

theorem Owned.exclusive (h : Owned s) : Exclusive s where
  free := h.unshared.nodup (fun _ _ => Place.free.inj) fun _ => rfl
  listed connID client hclient :=
    h.unshared.notMem (f := .free) (x := .entry connID) (fun _ => rfl)
      (place_entry hclient) nofun
  handed i w pSock hw hup := by
    have hi : place s (.hand i) = some pSock := (place_hand hw).trans (holds_of_setsUp hup)
    refine ⟨h.unshared.notMem (f := .free) (fun _ => rfl) hi nofun,
      fun connID client hclient hsame => ?_, fun j w' hw' hup' => ?_⟩
    · cases h.unshared (.entry connID) (.hand i) pSock (hsame ▸ place_entry hclient) hi
    · have hj : place s (.hand j) = some pSock := (place_hand hw').trans (holds_of_setsUp hup')
      exact Place.hand.inj (h.unshared _ _ _ hj hi)

theorem started_owned (n m : Nat) : Owned (started n m) := by
  have hnone : ∀ x, place (started n m) x = none := by
    intro x
    cases x with
    | free k => rfl
    | entry connID => rfl
    | hand i =>
      show ((List.replicate n Worker.dequeue)[i]?).bind _ = none
      rw [List.getElem?_replicate]
      split <;> rfl
  exact ⟨fun x y p hx => (nomatch (hnone x).symm.trans hx),
    fun x p hx => (nomatch (hnone x).symm.trans hx)⟩

/-- While nobody closes a connection that another has closed since it was looked up, no context is
in two places. -/
theorem run_exclusive {env : SaveEnv} {n m : Nat} {labels : List Label} {t : Server}
    (hcloses : RunMeets (step (saveData env)) (fun s l => closesFound s l = true) (started n m)
      labels)
    (ht : run (step (saveData env)) (started n m) labels = some t) : Exclusive t :=
  (run_invariant (I := Owned) (fun _ _ _ h hc hst => step_owned h hc hst) (started_owned n m)
    hcloses ht).exclusive

/-- Two clients, of which the first is disconnected and its context given to the second. -/
theorem run_exclusive_two :
    ∃ t, run (step (saveData ⟨true, fun _ => 0⟩)) (started 1 1)
      (acceptOn 0 7 ++ [.complete 0 true []] ++ takeAccept 0 3 ++ acceptOn 0 8 ++
        [.disconnect 1, .postDisconnect 0] ++ List.replicate 5 (.worker 0 {}) ++
        [.complete 1 true []] ++ takeAccept 0 4) = some t ∧ Exclusive t := by
  have hrun : (run (step (saveData ⟨true, fun _ => 0⟩)) (started 1 1)
      (acceptOn 0 7 ++ [.complete 0 true []] ++ takeAccept 0 3 ++ acceptOn 0 8 ++
        [.disconnect 1, .postDisconnect 0] ++ List.replicate 5 (.worker 0 {}) ++
        [.complete 1 true []] ++ takeAccept 0 4)).map (fun t => t.context 3) = some (some ⟨2, 8⟩) :=
    by decide
  have ⟨t, ht, _⟩ := Option.map_eq_some_iff.mp hrun
  exact ⟨t, ht, run_exclusive (by decide) ht⟩

/-- Two workers handle two requests to disconnect one connection, and both find it. -/
theorem context_free_twice : ¬∀ (env : SaveEnv) (n m : Nat) (labels : List Label) (t : Server),
    run (step (saveData env)) (started n m) labels = some t → Exclusive t := by
  intro h
  let labels := acceptOn 0 7 ++ [.complete 0 true []] ++ takeAccept 0 3 ++ acceptOn 0 8 ++
    [.disconnect 1, .disconnect 1, .postDisconnect 0, .postDisconnect 0] ++
    List.replicate 3 (.worker 0 {}) ++ List.replicate 3 (.worker 1 {}) ++
    List.replicate 2 (.worker 0 {}) ++ List.replicate 2 (.worker 1 {})
  have hrun : (run (step (saveData ⟨true, fun _ => 0⟩)) (started 2 1) labels).map
      Server.m_lsFreeSocketContext = some [3, 3] := by decide
  have ⟨t, ht, hfree⟩ := Option.map_eq_some_iff.mp hrun
  have hnodup := (h _ _ _ _ t ht).free
  rw [hfree] at hnodup
  exact absurd hnodup (by decide)

end VerifyServer.Socket
