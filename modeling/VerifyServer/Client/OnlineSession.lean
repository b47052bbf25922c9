import VerifyServer.Client.Unframed
import VerifyServer.Reasoning.Run

/-!
# OnlineSession — logging in and out of a server

`loginIn` makes the client socket the first time it is called, initialises and connects it, and
greets the server if `connect_socket` says that it is connected.  Card messages and the greeting go
through `send_thread` where there is one; the farewell of `loginOut` is written at once.

A label is one call, or one operator that `send_thread` runs.  What the `how_` methods of the socket
return is chosen with it.
-/

open VerifyServer.Reasoning

namespace VerifyServer.Client.Online

/-! ## 1. State -/

/-- A message of the user's session. -/
inductive SessionMessage where
  | checkinLoginIn
  | card (info : CardInfo)
  | checkinLoginOut

/-- `MyClientSocket`: what `how_connect_socket` has returned, whether the socket was initialised and
is not used since, whether `out` is set, and the messages it has written.  `attempts` has an item for
each call of `how_connect_socket`: whether the socket was freshly initialised. -/
structure ClientSocket where
  connected : Bool := false
  fresh : Bool := false
  out : Bool := false
  written : List SessionMessage := []
  attempts : List Bool := []

/-- Which of `loginIn` and `loginOut` came last; no code keeps it. -/
inductive Phase where
  -- no `loginIn` yet
  | built
  | loggedIn
  | loggedOut
  deriving DecidableEq

structure OnlineClientUser where
  net_kind : Int
  client_socket : Option ClientSocket := none
  -- the operators `send_thread` is yet to run, `none` without a thread
  send_thread : Option (List SessionMessage)
  -- an exception has ended the thread
  ended : Bool := false
  phase : Phase := .built

/-- Whether `how_init_socket`, `how_connect_socket`, the write of `how_send_data` and
`how_close_socket` succeed. -/
structure Outcome where
  opens : Bool := true
  connects : Bool := true
  writes : Bool := true
  closes : Bool := true

inductive Call where
  | loginIn (o : Outcome)
  | loginOut (o : Outcome)
  -- `commit_regist` or `commit_verify`
  | commit (info : CardInfo) (o : Outcome)
  -- `send_thread` runs its first operator
  | send (o : Outcome)

/-! ## 2. The socket -/

-- without success `how_init_socket` leaves a closed socket and no streams
def ClientSocket.initSocket (s : ClientSocket) (o : Outcome) : ClientSocket :=
  { s with fresh := o.opens, out := o.opens }

/-- `connect_socket`: `ret` is `false` from its declaration to its return. -/
def ClientSocket.connectSocket (s : ClientSocket) (o : Outcome) : ClientSocket × Bool :=
  let ret := false
  let s := { s with attempts := s.attempts ++ [s.fresh], fresh := false }
  if o.connects then ({ s with connected := true }, ret) else (s, ret)

def ClientSocket.sendData (s : ClientSocket) (m : SessionMessage) (o : Outcome) : ClientSocket :=
  if s.out && o.writes then { s with written := s.written ++ [m] } else s

-- `disconnect_socket` leaves `out` alone
def ClientSocket.closeSocket (s : ClientSocket) (o : Outcome) : ClientSocket :=
  if o.closes then { s with out := false } else s

/-! ## 3. The calls -/

variable (user : OnlineClientUser)

/-- `ToDoOperate` of a `SocketSendDoOperator`; without a socket it throws and nothing changes. -/
def OnlineClientUser.toDoOperate (m : SessionMessage) (o : Outcome) : OnlineClientUser :=
  { user with client_socket := user.client_socket.map fun s => s.sendData m o }

/-- The operator is posted, or run at once. -/
def OnlineClientUser.operate (m : SessionMessage) (o : Outcome) : OnlineClientUser :=
  match user.send_thread with
  | some ops => { user with send_thread := some (ops ++ [m]) }
  | none => user.toDoOperate m o

def defaultNetClientCode : Int := -1
def netClientCode : Int := 0

/-- `loginIn` makes a socket, initialises and connects it.  Of another kind there is no socket, and
`init_socket` throws. -/
def OnlineClientUser.makesSocket : Bool :=
  user.client_socket.isNone &&
    (user.net_kind = defaultNetClientCode || user.net_kind = netClientCode)

def OnlineClientUser.loginIn (o : Outcome) : OnlineClientUser :=
  let user := { user with phase := .loggedIn }
  if user.makesSocket then
    let (socket, connected) := (({} : ClientSocket).initSocket o).connectSocket o
    let user := { user with client_socket := some socket }
    if connected then user.operate .checkinLoginIn o else user
  else user

def Phase.leave : Phase → Phase
  | .built => .built
  | _ => .loggedOut

def OnlineClientUser.loginOut (o : Outcome) : OnlineClientUser :=
  let user := user.toDoOperate .checkinLoginOut o
  { user with
    phase := user.phase.leave
    client_socket := user.client_socket.map fun s => s.closeSocket o }

def step (user : OnlineClientUser) : Call → Option OnlineClientUser
  | .loginIn o => some (user.loginIn o)
  | .loginOut o => some (user.loginOut o)
  | .commit info o => some (user.operate (.card info) o)
  | .send o =>
    if user.ended then none
    else
      match user.send_thread with
      | some (m :: ops) =>
        some { user.toDoOperate m o with
          send_thread := some ops, ended := user.client_socket.isNone }
      | _ => none

/-- A user that no call was made for yet. -/
def built (net_kind : Int) (thread : Bool) : OnlineClientUser where
  net_kind := net_kind
  send_thread := if thread then some [] else none

/-! ## 4. The order of the session -/

def SessionMessage.isCard : SessionMessage → Bool
  | .card _ => true
  | _ => false

/-- The greeting, card messages, and at most one farewell. -/
def Ordered (ms : List SessionMessage) : Prop :=
  ∃ cards farewell, ms = .checkinLoginIn :: (cards ++ farewell) ∧ cards.all SessionMessage.isCard ∧
    (farewell = [] ∨ farewell = [.checkinLoginOut])

/-- What was written on the socket if it is connected, and what waits to be, is in order. -/
def OnlineClientUser.InOrder : Prop :=
  ∀ s, user.client_socket = some s → s.connected = true →
    Ordered (s.written ++ user.send_thread.getD [])

/-- The calls of `how_connect_socket` so far, with whether the socket was freshly initialised. -/
def OnlineClientUser.attempts : List Bool :=
  (user.client_socket.map (·.attempts)).getD []

/-- A `loginIn` that is the first, or the first after a `loginOut`, attempts a connection on a freshly
initialised socket, and after every call the session is in order. -/
def keepsProtocol (user : OnlineClientUser) (c : Call) : Prop :=
  (∀ o, c = .loginIn o → user.phase ≠ .loggedIn →
    (user.loginIn o).attempts = user.attempts ++ [true]) ∧
      ∀ t, step user c = some t → t.InOrder

/-- The first `loginIn` is for a kind of socket there is, initialises it and finds no server, and
after a `loginOut` there is none. -/
def neverConnects (user : OnlineClientUser) : Call → Prop
  | .loginIn o =>
    match user.phase with
    | .built =>
      (user.net_kind = defaultNetClientCode ∨ user.net_kind = netClientCode) ∧
        o.opens = true ∧ o.connects = false
    | .loggedIn => True
    | .loggedOut => False
  | _ => True

/-! ## 5. A user that never connects -/

structure OnlineClientUser.Unconnected : Prop where
  socket : ∀ s, user.client_socket = some s → s.connected = false
  queue : ∀ m ∈ user.send_thread.getD [], m.isCard = true
  phase : user.phase = .built ↔ user.client_socket = none

variable {user} {t : OnlineClientUser}

theorem sendData_connected (s : ClientSocket) (m : SessionMessage) (o : Outcome) :
    (s.sendData m o).connected = s.connected := by
  unfold ClientSocket.sendData
  split <;> rfl

theorem closeSocket_connected (s : ClientSocket) (o : Outcome) :
    (s.closeSocket o).connected = s.connected := by
  unfold ClientSocket.closeSocket
  split <;> rfl

/-- Nothing that is written to the socket or done to its stream connects it. -/
theorem OnlineClientUser.Unconnected.touch (h : user.Unconnected) {f : ClientSocket → ClientSocket}
    (hf : ∀ s, (f s).connected = s.connected) (hsocket : t.client_socket = user.client_socket.map f)
    (hqueue : ∀ m ∈ t.send_thread.getD [], m.isCard = true)
    (hphase : t.phase = .built ↔ user.phase = .built) : t.Unconnected where
  socket s hs := by
    have ⟨r, hr, heq⟩ := Option.map_eq_some_iff.mp (hsocket ▸ hs)
    rw [← heq, hf]
    exact h.socket r hr
  queue := hqueue
  phase := by rw [hphase, h.phase, hsocket, Option.map_eq_none_iff]

theorem OnlineClientUser.Unconnected.inOrder (h : user.Unconnected) : user.InOrder :=
  fun s hs hc => absurd hc (by rw [h.socket s hs]; decide)

theorem OnlineClientUser.Unconnected.not_makesSocket (h : user.Unconnected)
    (hphase : user.phase ≠ .built) : user.makesSocket = false := by
  have hsome : user.client_socket.isNone = false := by
    rw [Option.isNone_eq_false_iff, ← Option.ne_none_iff_isSome]
    exact fun hnone => hphase (h.phase.mpr hnone)
  rw [OnlineClientUser.makesSocket, hsome, Bool.false_and]

theorem OnlineClientUser.Unconnected.makesSocket_iff (h : user.Unconnected)
    (hphase : user.phase = .built) : user.makesSocket = true ↔
      user.net_kind = defaultNetClientCode ∨ user.net_kind = netClientCode := by
  rw [OnlineClientUser.makesSocket, h.phase.mp hphase, Option.isNone_none, Bool.true_and,
    Bool.or_eq_true, decide_eq_true_iff, decide_eq_true_iff]

theorem loginIn_of_makesSocket (ha : user.makesSocket = true) (o : Outcome) :
    user.loginIn o = { user with
      phase := .loggedIn
      client_socket := some ⟨o.connects, false, o.opens, [], [o.opens]⟩ } := by
  have ha : OnlineClientUser.makesSocket { user with phase := .loggedIn } = true := ha
  unfold OnlineClientUser.loginIn ClientSocket.connectSocket
  simp only [ha, if_true]
  cases o.connects <;> rfl

theorem loginIn_of_not_makesSocket (ha : user.makesSocket = false) (o : Outcome) :
    user.loginIn o = { user with phase := .loggedIn } := by
  have ha : OnlineClientUser.makesSocket { user with phase := .loggedIn } = false := ha
  unfold OnlineClientUser.loginIn
  simp only [ha, Bool.false_eq_true, if_false]

/-- A connection is attempted on a freshly initialised socket when `loginIn` makes one and
`how_init_socket` succeeds. -/
theorem loginIn_attempts_iff (o : Outcome) :
    (user.loginIn o).attempts = user.attempts ++ [true] ↔
      user.makesSocket = true ∧ o.opens = true := by
  by_cases hmakes : user.makesSocket = true
  · have hsocket : user.client_socket = none := by
      rw [← Option.isNone_iff_eq_none]
      exact (Bool.and_eq_true_iff.mp hmakes).1
    have hbefore : user.attempts = [] := by rw [OnlineClientUser.attempts, hsocket]; rfl
    rw [loginIn_of_makesSocket hmakes o, hbefore, and_iff_right hmakes]
    show [o.opens] = [true] ↔ _
    rw [List.singleton_inj]
  · rw [loginIn_of_not_makesSocket (Bool.eq_false_of_not_eq_true hmakes) o]
    refine iff_of_false (fun hsame => ?_) fun h => hmakes h.1
    have hlength := congrArg List.length (show user.attempts = user.attempts ++ [true] from hsame)
    rw [List.length_append] at hlength
    exact absurd hlength (Nat.ne_of_lt (Nat.lt_succ_self _))

theorem OnlineClientUser.Unconnected.operate (h : user.Unconnected) {m : SessionMessage}
    (hm : m.isCard = true) (o : Outcome) : (user.operate m o).Unconnected := by
  unfold OnlineClientUser.operate
  cases hthread : user.send_thread with
  | none =>
    exact h.touch (t := user.toDoOperate m o) (fun s => sendData_connected s m o) rfl h.queue
      Iff.rfl
  | some ops =>
    have hqueue := h.queue
    rw [hthread] at hqueue
    refine ⟨h.socket, fun m' hm' => ?_, h.phase⟩
    rcases List.mem_append.mp hm' with hm' | hm'
    · exact hqueue m' hm'
    · rw [List.mem_singleton.mp hm']
      exact hm

/-- A call that connects nothing leaves the user unconnected. -/
theorem OnlineClientUser.Unconnected.step (h : user.Unconnected) {c : Call}
    (hc : neverConnects user c) (ht : step user c = some t) : t.Unconnected := by
  cases c with
  | loginIn o =>
    obtain rfl := Option.some.inj ht
    cases hphase : user.phase with
    | built =>
      rw [neverConnects, hphase] at hc
      rw [loginIn_of_makesSocket ((h.makesSocket_iff hphase).mpr hc.1) o]
      exact ⟨fun s hs => Option.some.inj hs ▸ hc.2.2, h.queue, iff_of_false nofun nofun⟩
    | loggedIn =>
      have hne : user.phase ≠ .built := by rw [hphase]; decide
      rw [loginIn_of_not_makesSocket (h.not_makesSocket hne) o]
      exact ⟨h.socket, h.queue, iff_of_false nofun fun hnone => hne (h.phase.mpr hnone)⟩
    | loggedOut =>
      rw [neverConnects, hphase] at hc
      exact hc.elim
  | loginOut o =>
    obtain rfl := Option.some.inj ht
    have hsend : (user.toDoOperate .checkinLoginOut o).Unconnected :=
      h.touch (fun s => sendData_connected s _ o) rfl h.queue Iff.rfl
    apply hsend.touch (t := user.loginOut o) (fun s => closeSocket_connected s o) rfl hsend.queue
    show user.phase.leave = .built ↔ user.phase = .built
    cases user.phase <;> decide
  | commit info o =>
    obtain rfl := Option.some.inj ht
    exact h.operate rfl o
  | send o =>
    rw [Online.step] at ht
    split at ht
    · cases ht
    · split at ht
      · next m ops hthread =>
        obtain rfl := Option.some.inj ht
        have hqueue := h.queue
        rw [hthread] at hqueue
        exact h.touch (fun s => sendData_connected s m o) rfl
          (fun m' hm' => hqueue m' (List.mem_cons_of_mem _ hm')) Iff.rfl
      · cases ht

/-- Card messages alone are no session. -/
theorem not_ordered_of_cards {ms : List SessionMessage} (h : ∀ m ∈ ms, m.isCard = true) :
    ¬Ordered ms := by
  rintro ⟨cards, farewell, rfl, -⟩
  exact absurd (h _ (List.mem_cons_self ..)) (by decide)

theorem keepsProtocol_iff (h : user.Unconnected) (c : Call) :
    keepsProtocol user c ↔ neverConnects user c := by
  constructor
  · intro hkeeps
    cases c with
    | loginIn o =>
      have hattempts : user.phase ≠ .loggedIn → user.makesSocket = true ∧ o.opens = true :=
        fun hphase => (loginIn_attempts_iff o).mp (hkeeps.1 o rfl hphase)
      cases hphase : user.phase with
      | built =>
        have ⟨hmakes, hopens⟩ := hattempts (by rw [hphase]; decide)
        rw [neverConnects, hphase]
        refine ⟨(h.makesSocket_iff hphase).mp hmakes, hopens,
          Bool.eq_false_of_not_eq_true fun hc => ?_⟩
        have horder := hkeeps.2 _ rfl
        rw [loginIn_of_makesSocket hmakes o] at horder
        exact not_ordered_of_cards h.queue (horder _ rfl hc)
      | loggedIn =>
        rw [neverConnects, hphase]
        trivial
      | loggedOut =>
        have hne : user.phase ≠ .built := by rw [hphase]; decide
        have hmakes := (hattempts (by rw [hphase]; decide)).1
        cases (h.not_makesSocket hne).symm.trans hmakes
    | loginOut o => trivial
    | commit info o => trivial
    | send o => trivial
  · intro hc
    refine ⟨fun o heq hphase => ?_, fun t ht => (h.step hc ht).inOrder⟩
    subst heq
    rw [neverConnects] at hc
    cases hp : user.phase with
    | built =>
      rw [hp] at hc
      exact (loginIn_attempts_iff o).mpr ⟨(h.makesSocket_iff hp).mpr hc.1, hc.2.1⟩
    | loggedIn => exact absurd hp hphase
    | loggedOut =>
      rw [hp] at hc
      exact hc.elim

/-! ## 6. Runs -/

theorem built_unconnected (net_kind : Int) (thread : Bool) :
    (built net_kind thread).Unconnected := by
  refine ⟨nofun, ?_, iff_of_true rfl rfl⟩
  cases thread <;> exact nofun

/-- The calls that keep to the protocol are those among which the socket can be initialised, no
connection succeeds and no `loginIn` follows a `loginOut` of a session. -/
theorem run_protocol_iff (net_kind : Int) (thread : Bool) (calls : List Call) :
    RunMeets step keepsProtocol (built net_kind thread) calls ↔
      RunMeets step neverConnects (built net_kind thread) calls :=
  (runMeets_congr_of_invariant (I := OnlineClientUser.Unconnected)
    (fun _ _ _ h hc hst => h.step hc hst) (fun _ c h => (keepsProtocol_iff h c).symm)
    (built_unconnected net_kind thread) calls).symm

/-- The connection succeeds; a card message and a farewell are all that is written on it. -/
theorem no_greeting : ¬∀ (net_kind : Int) (thread : Bool) (calls : List Call),
    RunMeets step keepsProtocol (built net_kind thread) calls := by
  intro h
  have hrun := h 0 false [.loginIn {}, .commit cardOne {}, .loginOut {}]
  have hcommit := (hrun.2 _ rfl).2 _ rfl
  have hlast : (((built 0 false).loginIn {}).operate (.card cardOne) {}).loginOut {} =
      { (built 0 false) with
        phase := .loggedOut
        client_socket := some ⟨true, false, false, [.card cardOne, .checkinLoginOut], [true]⟩ } :=
    rfl
  have horder := hcommit.1.2 _ rfl
  rw [hlast] at horder
  have ⟨cards, farewell, heq, _⟩ := horder _ rfl rfl
  cases heq

/-! ## 7. `how_init_socket` of `MyTcpClientSocket` -/

/-- `java.net.Socket`. -/
structure JavaSocket where
  isConnected : Bool := false
  isClosed : Bool := false

/-- `getOutputStream` and `getInputStream` throw unless the socket is connected and open. -/
def JavaSocket.hasStreams (s : JavaSocket) : Bool := s.isConnected && !s.isClosed

def JavaSocket.close (s : JavaSocket) : JavaSocket := { s with isClosed := true }

structure MyTcpClientSocket where
  socketClient : Option JavaSocket := none
  out : Bool := false
  inStream : Bool := false

def MyTcpClientSocket.howCloseSocket (s : MyTcpClientSocket) : MyTcpClientSocket where
  socketClient := s.socketClient.map JavaSocket.close

/-- `how_init_socket`: the streams are asked for before anything is connected. -/
def MyTcpClientSocket.howInitSocket (s : MyTcpClientSocket) : MyTcpClientSocket × Bool :=
  let socketClient : JavaSocket := {}
  if socketClient.hasStreams then (⟨some socketClient, true, true⟩, true)
  else ({ s with socketClient := some socketClient }.howCloseSocket, false)

/-- It fails on every socket, and leaves a closed one without streams. -/
theorem howInitSocket_fails (s : MyTcpClientSocket) :
    s.howInitSocket = (⟨some ⟨false, true⟩, false, false⟩, false) := rfl

/-- With the outcome of its `how_init_socket` no `loginIn` keeps to the protocol, but for one that
follows another. -/
theorem loginIn_tcp {user : OnlineClientUser} {o : Outcome}
    (ho : o.opens = (MyTcpClientSocket.howInitSocket {}).2) (hphase : user.phase ≠ .loggedIn) :
    ¬keepsProtocol user (.loginIn o) := by
  intro hkeeps
  have hattempts := (loginIn_attempts_iff o).mp (hkeeps.1 o rfl hphase)
  rw [hattempts.2, howInitSocket_fails] at ho
  cases ho

end VerifyServer.Client.Online
