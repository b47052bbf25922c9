import VerifyServer.Reasoning.JavaString
import VerifyServer.Reasoning.Run

/-!
# UdpClient — where a datagram goes

`SendDataInQueue` queues a `UdpSendDoOperator` with the client's socket and port; the send thread
runs the operators in order.  An operator either connects the socket first and sends a packet with
no address, or disconnects it and sends an addressed one; what the socket is connected to stays from
one operator to the next.
-/

open VerifyServer.Reasoning

namespace VerifyServer.Client.Udp

variable {Addr : Type} (getByName : Option JavaString → Option Addr)

/-! ## 1. State -/

/-- The arguments of `SendDataInQueue`. -/
structure SendCall where
  strIp : Option JavaString
  port : Int
  bDataPack : List UInt8
  nSize : Int
  deriving DecidableEq, Repr

structure UdpSendDoOperator where
  -- false for `null`
  udpsocket : Bool
  strIp : Option JavaString
  socket_port : Int
  send_data_pack : List UInt8
  nlen : Int
  bneed_connect : Bool
  deriving DecidableEq, Repr

structure Datagram (Addr : Type) where
  address : Addr
  port : Int
  data : List UInt8
  deriving DecidableEq, Repr

structure UdpClient (Addr : Type) where
  m_nport : Int
  -- false for `null`
  m_client : Bool
  -- what the socket is connected to
  connected : Option (Addr × Int) := none
  listOperate : List UdpSendDoOperator := []
  -- every call, and for every operator run what it put on the network
  calls : List SendCall := []
  sent : List (Option (Datagram Addr)) := []
  deriving DecidableEq, Repr

/-! ## 2. Steps -/

/-- The operator of a call. -/
def UdpClient.operator (s : UdpClient Addr) (call : SendCall) : UdpSendDoOperator where
  udpsocket := s.m_client
  strIp := call.strIp
  socket_port := s.m_nport
  send_data_pack := call.bDataPack
  nlen := call.nSize
  -- `tmp_ip` keeps the empty string it starts with
  bneed_connect := decide (call.strIp ≠ some [])

def sendDataInQueue (s : UdpClient Addr) (call : SendCall) : UdpClient Addr :=
  { s with listOperate := s.listOperate ++ [s.operator call], calls := s.calls ++ [call] }

/-- The ports that `connect` and `DatagramPacket` take. -/
def validPort (port : Int) : Prop := 0 ≤ port ∧ port ≤ 0xFFFF

instance (port : Int) : Decidable (validPort port) := inferInstanceAs (Decidable (_ ∧ _))

/-- `ToDoOperate` on a socket: what that is connected to afterwards, and the datagram if `send` does
not throw.  No result when a port is refused. -/
def toDoOperate (op : UdpSendDoOperator) (connected : Option (Addr × Int)) (sends : Bool) :
    Option (Option (Addr × Int) × Option (Datagram Addr)) :=
  let send (address : Addr) (port : Int) : Option (Datagram Addr) :=
    if sends then some ⟨address, port, op.send_data_pack⟩ else none
  if op.udpsocket = false then some (connected, none)
  else
    match getByName op.strIp with
    | none => some (connected, none)
    | some send_addr =>
      if op.bneed_connect = false then
        if validPort op.socket_port then some (none, send send_addr op.socket_port) else none
      else
        match connected with
        | some peer => some (some peer, send peer.1 peer.2)
        | none =>
          if validPort op.socket_port then
            some (some (send_addr, op.socket_port), send send_addr op.socket_port)
          else
            none

inductive UdpEvent where
  | sendDataInQueue (call : SendCall)
  -- the send thread runs an operator; whether `send` succeeds
  | operate (sends : Bool)
  deriving DecidableEq, Repr

def stepUdp (s : UdpClient Addr) : UdpEvent → Option (UdpClient Addr)
  | .sendDataInQueue call => some (sendDataInQueue s call)
  | .operate sends =>
    match s.listOperate with
    | [] => none
    | op :: rest =>
      (toDoOperate getByName op s.connected sends).map fun (connected, datagram) =>
        { s with
          connected := connected
          listOperate := rest
          sent := s.sent ++ [datagram] }

/-! ## 3. The datagram of a call -/

/-- The datagram goes where the call says and holds what the call gives. -/
def Datagram.IsOf (d : Datagram Addr) (call : SendCall) : Prop :=
  getByName call.strIp = some d.address ∧ d.port = call.port ∧ d.data = call.bDataPack

/-- The operator that is run next is that of the first call not yet served; a datagram it puts on
the network is of that call. -/
def SentAsCalled (s : UdpClient Addr) (a : UdpEvent) : Prop :=
  ∀ t, stepUdp getByName s a = some t →
    match a with
    | .sendDataInQueue _ => t.sent = s.sent
    | .operate _ =>
      ∃ call datagram, s.calls[s.sent.length]? = some call ∧ t.sent = s.sent ++ [datagram] ∧
        ∀ d, datagram = some d → d.IsOf getByName call

/-- A call that is sent has the client's own port, and the socket is connected to no other address,
unless the address is the empty string. -/
def DestinationFits (s : UdpClient Addr) : UdpEvent → Prop
  | .sendDataInQueue _ => True
  | .operate sends =>
    sends = true → s.m_client = true → validPort s.m_nport →
      ∀ call address, s.calls[s.sent.length]? = some call →
        getByName call.strIp = some address →
        call.port = s.m_nport ∧
          (call.strIp = some [] ∨ ∀ peer, s.connected = some peer → peer.1 = address)

structure UdpInv (s : UdpClient Addr) : Prop where
  served : s.sent.length ≤ s.calls.length
  queued : s.listOperate = (s.calls.drop s.sent.length).map s.operator
  peer : ∀ peer, s.connected = some peer → peer.2 = s.m_nport ∧ validPort s.m_nport

/-- A client with its socket, before any call. -/
def UdpClient.start (m_nport : Int) (m_client : Bool) : UdpClient Addr := { m_nport, m_client }

theorem udpInv_start (m_nport : Int) (m_client : Bool) :
    UdpInv (.start m_nport m_client : UdpClient Addr) :=
  ⟨Nat.le_refl 0, rfl, fun peer h => by cases h⟩

theorem UdpInv.next {s : UdpClient Addr} (hs : UdpInv s) {op : UdpSendDoOperator}
    {rest : List UdpSendDoOperator} (hop : s.listOperate = op :: rest) :
    ∃ call, s.calls[s.sent.length]? = some call ∧ op = s.operator call ∧
      rest = (s.calls.drop (s.sent.length + 1)).map s.operator := by
  have hqueue := hs.queued
  rw [hop] at hqueue
  have hlt : s.sent.length < s.calls.length := by
    by_contra hge
    rw [List.drop_eq_nil_of_le (by omega)] at hqueue
    cases hqueue
  rw [List.drop_eq_getElem_cons hlt, List.map_cons, List.cons.injEq] at hqueue
  exact ⟨_, List.getElem?_eq_getElem hlt, hqueue.1, hqueue.2⟩

/-- An operator leaves the socket connected to the client's port or not at all. -/
theorem toDoOperate_peer {op : UdpSendDoOperator} {connected connected' : Option (Addr × Int)}
    {sends : Bool} {datagram : Option (Datagram Addr)}
    (h : toDoOperate getByName op connected sends = some (connected', datagram)) :
    connected' = connected ∨ connected' = none ∨
      validPort op.socket_port ∧ ∃ a, connected' = some (a, op.socket_port) := by
  unfold toDoOperate at h
  simp only at h
  split at h
  · cases h; exact .inl rfl
  · split at h
    · cases h; exact .inl rfl
    · next a ha =>
      split at h
      · split at h
        · cases h; exact .inr (.inl rfl)
        · cases h
      · split at h
        · cases h; exact .inl rfl
        · split at h
          · next hport => cases h; exact .inr (.inr ⟨hport, a, rfl⟩)
          · cases h

theorem stepUdp_inv (s : UdpClient Addr) (a : UdpEvent) (t : UdpClient Addr) (hs : UdpInv s)
    (h : stepUdp getByName s a = some t) : UdpInv t := by
  cases a with
  | sendDataInQueue call =>
    cases h
    refine ⟨?_, ?_, hs.peer⟩
    · show s.sent.length ≤ (s.calls ++ [call]).length
      rw [List.length_append]
      exact Nat.le_add_right_of_le hs.served
    · show s.listOperate ++ [s.operator call] =
        ((s.calls ++ [call]).drop s.sent.length).map s.operator
      rw [List.drop_append_of_le_length hs.served, List.map_append, ← hs.queued]
      rfl
  | operate sends =>
    rw [stepUdp] at h
    split at h
    · cases h
    · next op rest hop =>
      obtain ⟨⟨connected, datagram⟩, hdo, rfl⟩ := Option.map_eq_some_iff.mp h
      obtain ⟨call, hcall, rfl, hrest⟩ := hs.next hop
      have hlt : s.sent.length < s.calls.length := (List.getElem?_eq_some_iff.mp hcall).1
      refine ⟨?_, ?_, fun peer hpeer => ?_⟩
      · show (s.sent ++ [datagram]).length ≤ s.calls.length
        rw [List.length_append]
        exact hlt
      · show rest = (s.calls.drop (s.sent ++ [datagram]).length).map s.operator
        rw [hrest, List.length_append]
        rfl
      · rcases toDoOperate_peer getByName hdo with heq | hnone | ⟨hport, a, hsome⟩
        · exact hs.peer peer (heq ▸ hpeer)
        · cases hnone.symm.trans hpeer
        · cases hsome.symm.trans hpeer
          exact ⟨rfl, hport⟩

/-! ## 4. When every datagram is right -/

/-- Where the socket sends the packet of a call whose address is `address`. -/
def UdpClient.destination (s : UdpClient Addr) (call : SendCall) (address : Addr) : Addr :=
  if call.strIp = some [] then address else (s.connected.map (·.1)).getD address

theorem destination_eq_iff {s : UdpClient Addr} {call : SendCall} {address : Addr} :
    s.destination call address = address ↔
      call.strIp = some [] ∨ ∀ peer, s.connected = some peer → peer.1 = address := by
  unfold UdpClient.destination
  by_cases hip : call.strIp = some []
  · rw [if_pos hip]
    exact ⟨fun _ => .inl hip, fun _ => rfl⟩
  · rw [if_neg hip]
    cases s.connected with
    | none => exact ⟨fun _ => .inr fun peer h => (by cases h), fun _ => rfl⟩
    | some peer =>
      constructor
      · intro h
        exact .inr fun q hq => by cases hq; exact h
      · intro h
        exact (h.resolve_left hip) peer rfl

/-- What goes out for a call: its bytes, with the client's port, to where the socket sends it. -/
theorem toDoOperate_operator {s : UdpClient Addr} (hs : UdpInv s) {call : SendCall} {address : Addr}
    (hclient : s.m_client = true) (haddr : getByName call.strIp = some address) (sends : Bool) :
    ∃ connected, toDoOperate getByName (s.operator call) s.connected sends =
      if validPort s.m_nport then
        some (connected,
          if sends then some ⟨s.destination call address, s.m_nport, call.bDataPack⟩ else none)
      else
        none := by
  have hresolve : getByName (s.operator call).strIp = some address := haddr
  have hopen : ¬ (s.operator call).udpsocket = false := by
    show ¬ s.m_client = false
    rw [hclient]
    decide
  unfold toDoOperate UdpClient.destination
  rw [if_neg hopen, hresolve]
  by_cases hip : call.strIp = some []
  · have hconnect : (s.operator call).bneed_connect = false := by simp [UdpClient.operator, hip]
    rw [if_pos hip]
    simp only [hconnect, if_true]
    exact ⟨none, rfl⟩
  · have hconnect : ¬ (s.operator call).bneed_connect = false := by simp [UdpClient.operator, hip]
    rw [if_neg hip]
    simp only [if_neg hconnect]
    cases hpeer : s.connected with
    | none => exact ⟨some (address, s.m_nport), rfl⟩
    | some peer =>
      obtain ⟨hport, hvalid⟩ := hs.peer peer hpeer
      refine ⟨some peer, ?_⟩
      rw [if_pos hvalid, ← hport]
      rfl

/-- Without a socket or an address nothing goes out. -/
theorem toDoOperate_silent {s : UdpClient Addr} {call : SendCall} (sends : Bool)
    (h : s.m_client = false ∨ getByName call.strIp = none) :
    toDoOperate getByName (s.operator call) s.connected sends = some (s.connected, none) := by
  unfold toDoOperate
  by_cases hclient : (s.operator call).udpsocket = false
  · rw [if_pos hclient]
  · have hnone : getByName (s.operator call).strIp = none := h.resolve_left hclient
    rw [if_neg hclient, hnone]

theorem operate_sent_iff {s : UdpClient Addr} (hs : UdpInv s) (sends : Bool)
    (hne : s.listOperate ≠ []) :
    SentAsCalled getByName s (.operate sends) ↔ DestinationFits getByName s (.operate sends) := by
  obtain ⟨op, rest, hop⟩ := List.exists_cons_of_ne_nil hne
  obtain ⟨call, hcall, rfl, -⟩ := hs.next hop
  constructor
  · intro h hsends hclient hport call' address hcall' haddr
    cases hcall.symm.trans hcall'
    obtain ⟨connected, hdo⟩ := toDoOperate_operator getByName hs hclient haddr sends
    rw [if_pos hport, if_pos hsends] at hdo
    obtain ⟨call', datagram, hcall', hsent, hof⟩ := h _ (by rw [stepUdp, hop]; simp only [hdo]; rfl)
    cases hcall.symm.trans hcall'
    obtain ⟨rfl⟩ := List.append_cancel_left hsent
    obtain ⟨hdest, hp, -⟩ := hof _ rfl
    refine ⟨hp.symm, destination_eq_iff.mp ?_⟩
    exact (Option.some.inj (haddr.symm.trans hdest)).symm
  · intro h t ht
    rw [stepUdp, hop] at ht
    obtain ⟨⟨connected, datagram⟩, hdo, rfl⟩ := Option.map_eq_some_iff.mp ht
    refine ⟨call, datagram, hcall, rfl, fun d hd => ?_⟩
    subst hd
    by_cases hsilent : s.m_client = false ∨ getByName call.strIp = none
    · rw [toDoOperate_silent getByName sends hsilent] at hdo
      cases hdo
    · obtain ⟨hclient, haddr⟩ := not_or.mp hsilent
      have hclient : s.m_client = true := Bool.of_not_eq_false hclient
      obtain ⟨address, haddr⟩ := Option.ne_none_iff_exists'.mp haddr
      obtain ⟨connected', hdo'⟩ := toDoOperate_operator getByName hs hclient haddr sends
      rw [hdo'] at hdo
      by_cases hport : validPort s.m_nport
      · rw [if_pos hport] at hdo
        by_cases hsends : sends = true
        · rw [if_pos hsends] at hdo
          cases hdo
          obtain ⟨hp, hdest⟩ := h hsends hclient hport call address hcall haddr
          exact ⟨haddr.trans (congrArg some (destination_eq_iff.mpr hdest).symm), hp.symm, rfl⟩
        · rw [if_neg hsends] at hdo
          cases hdo
      · rw [if_neg hport] at hdo
        cases hdo

theorem sent_as_called_iff (s : UdpClient Addr) (a : UdpEvent) (hs : UdpInv s) :
    SentAsCalled getByName s a ↔ DestinationFits getByName s a := by
  cases a with
  | sendDataInQueue call => exact ⟨fun _ => trivial, fun _ t ht => by cases ht; rfl⟩
  | operate sends =>
    by_cases hne : s.listOperate = []
    · -- every call is served, and there is nothing to run
      constructor
      · intro _ _ _ _ call address hcall _
        have hlen := congrArg List.length hs.queued
        have hlt := (List.getElem?_eq_some_iff.mp hcall).1
        rw [hne, List.length_map, List.length_drop, List.length_nil] at hlen
        omega
      · intro _ t ht
        rw [stepUdp, hne] at ht
        cases ht
    · exact operate_sent_iff getByName hs sends hne

/-- In every run, every datagram is that of its call exactly when each call that is sent has the
client's port and finds the socket connected to no other address. -/
theorem run_datagrams_iff {m_nport : Int} {m_client : Bool} {as : List UdpEvent} :
    RunMeets (stepUdp getByName) (SentAsCalled getByName) (.start m_nport m_client) as ↔
      RunMeets (stepUdp getByName) (DestinationFits getByName) (.start m_nport m_client) as :=
  runMeets_congr_of_invariant (fun s a t hs _ h => stepUdp_inv getByName s a t hs h)
    (sent_as_called_iff getByName) (udpInv_start m_nport m_client) as

/-- Addresses that stand for themselves; no name and the empty one are the loopback. -/
def literalAddress : Option JavaString → Option JavaString
  | none | some [] => some (lit "127.0.0.1")
  | some ip => some ip

/-- The first datagram goes to the client's own port; the second goes where the first went. -/
theorem run_datagrams_wrong :
    ¬ RunMeets (stepUdp literalAddress) (SentAsCalled literalAddress) (.start 3601 true)
        [.sendDataInQueue ⟨some (lit "10.0.0.1"), 4000, [1], 1⟩, .operate true] ∧
      ¬ RunMeets (stepUdp literalAddress) (SentAsCalled literalAddress) (.start 3601 true)
        [.sendDataInQueue ⟨some (lit "10.0.0.1"), 3601, [1], 1⟩, .operate true,
          .sendDataInQueue ⟨some (lit "10.0.0.2"), 3601, [2], 1⟩, .operate true] := by
  constructor
  · rintro ⟨-, h⟩
    obtain ⟨h, -⟩ := h _ rfl
    obtain ⟨call, datagram, hcall, hsent, hof⟩ := h _ rfl
    cases hcall
    obtain ⟨rfl⟩ := List.append_cancel_left hsent
    exact absurd (hof _ rfl).2.1 (by decide)
  · rintro ⟨-, h⟩
    obtain ⟨-, h⟩ := h _ rfl
    obtain ⟨-, h⟩ := h _ rfl
    obtain ⟨h, -⟩ := h _ rfl
    obtain ⟨call, datagram, hcall, hsent, hof⟩ := h _ rfl
    cases hcall
    obtain ⟨rfl⟩ := List.append_cancel_left hsent
    exact absurd (hof _ rfl).1 (by decide)

end VerifyServer.Client.Udp
