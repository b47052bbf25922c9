import VerifyServer.Reasoning.Run

/-!
# UdpSocket — the receive thread of `CUDPSocket`

`Start` asks a receive thread left from before to stop, waits for it and begins a new one; `Stop`
asks, waits and closes the socket.  Both ask by setting `m_bStopUDPRevThread`, which the thread
tests at the end of each turn of its loop.

A label is one step of the caller of `Start` and `Stop` or of the receive thread.  The thread's stack
is taken to hold the megabyte of its `buffer`: how much is reserved for it is set when the program is
linked.
-/

open VerifyServer.Reasoning

namespace VerifyServer.Socket.Udp

/-! ## 1. State -/

/-- `m_sockServer`: still 0, a socket, or the number of none that works. -/
inductive SockServer where
  | unset
  | ready
  | unusable
  deriving DecidableEq, Repr

/-- The program points of `_RevThread`: `recvfrom`, the branch on its result, the test of the flag.
`early` says that the datagram came before the thread was asked to stop. -/
inductive RevThread where
  | recvfrom
  | deliver (buffer : List UInt8) (early : Bool)
  | test
  | finished
  deriving DecidableEq, Repr

/-- Where the caller of `Start` and `Stop` is: in neither, waiting for the thread in one of them, or
about to begin a new one. -/
inductive Caller where
  | outside
  | startWaits
  | startBegins
  | stopWaits
  deriving DecidableEq, Repr

structure UDPSocket where
  m_bStopUDPRevThread : Bool := false
  -- the thread of a handle that is neither `NULL` nor `INVALID_HANDLE_VALUE`
  m_hRevThread : Option RevThread := none
  m_sockServer : SockServer := .unset
  -- false for `NULL`
  m_pRevInterface : Bool := true
  caller : Caller := .outside
  -- whether a `Stop`, or a further `Start`, was called since the thread began
  asked : Bool := false
  -- the datagrams `recvfrom` returned before that, and those of them handed to the interface
  received : List (List UInt8) := []
  handed : List (List UInt8) := []
  deriving DecidableEq, Repr

/-! ## 2. Steps -/

inductive UdpLabel where
  -- `Start` is called; `init` says whether the calls that set up a new socket succeed
  | start (init : Bool)
  -- the thread `Start` waits for has finished
  | startJoined
  -- `_beginthreadex` succeeds or fails
  | begin (success : Bool)
  | stop
  | stopJoined
  -- `recvfrom` returns with a datagram that has come, or else times out or fails
  | recvfrom (datagram : Option (List UInt8))
  | deliver
  | test
  deriving DecidableEq, Repr

def UDPSocket.isWaitable (s : UDPSocket) : Bool :=
  s.m_hRevThread = none || s.m_hRevThread = some .finished

/-- `_InitBroadcastSocket`: the socket and the result. -/
def initBroadcastSocket (m_sockServer : SockServer) (init : Bool) : SockServer × Bool :=
  match m_sockServer with
  | .unset => if init then (.ready, true) else (.unusable, false)
  | m_sockServer => (m_sockServer, true)

/-- What `closesocket` leaves of the number: the 0 of none stays, and `Start` makes a new socket. -/
def SockServer.closed : SockServer → SockServer
  | .unset => .unset
  | .ready => .unusable
  | .unusable => .unusable

/-- `_WantStopThread`. -/
def UDPSocket.wantStopThread (s : UDPSocket) : UDPSocket :=
  { s with m_bStopUDPRevThread := true, asked := true }

/-- What the loop does with the bytes `recvfrom` returned. -/
def UDPSocket.deliver (s : UDPSocket) (buffer : List UInt8) (early : Bool) : UDPSocket :=
  let s := { s with m_hRevThread := some .test }
  if 0 < buffer.length then
    if s.m_pRevInterface then
      if early then { s with handed := s.handed ++ [buffer] } else s
    else s
  else s

def stepUdp (s : UDPSocket) : UdpLabel → Option UDPSocket
  | .start init =>
    if s.caller = .outside then
      let (m_sockServer, success) := initBroadcastSocket s.m_sockServer init
      let s := { s with m_sockServer := m_sockServer }
      -- an unsigned `m_sockServer` is never negative
      if success then some { s.wantStopThread with caller := .startWaits } else some s
    else none
  | .startJoined =>
    if s.caller = .startWaits ∧ s.isWaitable then
      some { s with caller := .startBegins, m_hRevThread := none }
    else none
  | .begin success =>
    if s.caller = .startBegins then
      if success then
        some { s with caller := .outside, m_hRevThread := some .recvfrom, asked := false }
      else
        some { s with caller := .outside }
    else none
  | .stop =>
    if s.caller = .outside then some { s.wantStopThread with caller := .stopWaits } else none
  | .stopJoined =>
    if s.caller = .stopWaits ∧ s.isWaitable then
      some { s with caller := .outside, m_sockServer := s.m_sockServer.closed }
    else none
  | .recvfrom datagram =>
    if s.m_hRevThread = some .recvfrom then
      match datagram with
      | none => some { s with m_hRevThread := some .test }
      | some buffer =>
        if s.m_sockServer = .ready then
          -- more than 256 bytes do not fit, and `recvfrom` fails
          if buffer.length ≤ 256 then
            some { s with
              m_hRevThread := some (.deliver buffer (!s.asked))
              received := if s.asked then s.received else s.received ++ [buffer] }
          else some { s with m_hRevThread := some .test }
        else none
    else none
  | .deliver =>
    match s.m_hRevThread with
    | some (.deliver buffer early) => some (s.deliver buffer early)
    | _ => none
  | .test =>
    if s.m_hRevThread = some .test then
      -- `_IsWantStopThread`
      if s.m_bStopUDPRevThread then some { s with m_hRevThread := some .finished }
      else some { s with m_hRevThread := some .recvfrom }
    else none

/-! ## 3. What the thread must do -/

/-- The datagram the thread is about to hand on. -/
def UDPSocket.pending (s : UDPSocket) : List (List UInt8) :=
  match s.m_hRevThread with
  | some (.deliver buffer true) => [buffer]
  | _ => []

/-- Every datagram that came before the thread was asked to stop is handed on once and in order, and
the thread goes on until then. -/
structure Receives (s : UDPSocket) : Prop where
  handed : s.handed ++ s.pending = s.received
  goesOn : s.m_hRevThread = some .finished → s.asked = true

def KeepsReceiving (s : UDPSocket) (a : UdpLabel) : Prop := ∀ t, stepUdp s a = some t → Receives t

/-- A datagram that counts is not empty, there is an interface for it, and the flag is not tested
before the thread was asked to stop. -/
def StopsInTime (s : UDPSocket) : UdpLabel → Prop
  | .deliver => ∀ buffer, s.m_hRevThread = some (.deliver buffer true) →
      buffer ≠ [] ∧ s.m_pRevInterface = true
  | .test => s.m_hRevThread = some .test → s.asked = true
  | _ => True

/-- Whenever there is a thread, the flag is set: `Start` sets it, and nothing clears it. -/
structure UdpInv (s : UDPSocket) : Prop where
  flag : s.caller ≠ .outside ∨ s.m_hRevThread ≠ none → s.m_bStopUDPRevThread = true
  begins : s.caller = .startBegins → s.m_hRevThread = none

theorem udpInv_constructed (m_pRevInterface : Bool) : UdpInv { m_pRevInterface } :=
  ⟨fun h => absurd h (by simp), fun h => by cases h⟩

/-- The branch on the bytes leaves the thread before the test, and touches nothing else but the
list of what was handed on. -/
theorem deliver_eq (s : UDPSocket) (buffer : List UInt8) (early : Bool) :
    s.deliver buffer early = { s with
      m_hRevThread := some .test
      handed := s.handed ++
        if buffer ≠ [] ∧ s.m_pRevInterface = true ∧ early = true then [buffer] else [] } := by
  obtain ⟨_, _, _, interface, _, _, _, _⟩ := s
  cases buffer <;> cases interface <;> cases early <;> simp [UDPSocket.deliver]

/-- What each step does, and when it can be taken. -/
theorem stepUdp_cases {s t : UDPSocket} {a : UdpLabel} (h : stepUdp s a = some t) :
    match a with
    | .start _ => s.caller = .outside ∧ ∃ m_sockServer,
        t = { s with m_sockServer := m_sockServer } ∨
          t = { s.wantStopThread with m_sockServer := m_sockServer, caller := .startWaits }
    | .startJoined => s.caller = .startWaits ∧ s.isWaitable ∧
        t = { s with caller := .startBegins, m_hRevThread := none }
    | .begin _ => s.caller = .startBegins ∧
        (t = { s with caller := .outside, m_hRevThread := some .recvfrom, asked := false } ∨
          t = { s with caller := .outside })
    | .stop => s.caller = .outside ∧ t = { s.wantStopThread with caller := .stopWaits }
    | .stopJoined => s.caller = .stopWaits ∧ s.isWaitable ∧
        t = { s with caller := .outside, m_sockServer := s.m_sockServer.closed }
    | .recvfrom _ => s.m_hRevThread = some .recvfrom ∧
        (t = { s with m_hRevThread := some .test } ∨
          ∃ buffer, t = { s with
            m_hRevThread := some (.deliver buffer (!s.asked))
            received := if s.asked then s.received else s.received ++ [buffer] })
    | .deliver => ∃ buffer early, s.m_hRevThread = some (.deliver buffer early) ∧
        t = s.deliver buffer early
    | .test => s.m_hRevThread = some .test ∧
        t = { s with
          m_hRevThread := some (if s.m_bStopUDPRevThread then .finished else .recvfrom) } := by
  cases a with
  | start init =>
    rw [stepUdp] at h
    split at h
    · next hout =>
      refine ⟨hout, (initBroadcastSocket s.m_sockServer init).1, ?_⟩
      simp only at h
      split at h <;> cases h
      · exact .inr rfl
      · exact .inl rfl
    · cases h
  | startJoined =>
    rw [stepUdp] at h
    split at h
    · next hw => cases h; exact ⟨hw.1, hw.2, rfl⟩
    · cases h
  | begin success =>
    rw [stepUdp] at h
    split at h
    · next hb =>
      split at h <;> cases h
      · exact ⟨hb, .inl rfl⟩
      · exact ⟨hb, .inr rfl⟩
    · cases h
  | stop =>
    rw [stepUdp] at h
    split at h
    · next hout => cases h; exact ⟨hout, rfl⟩
    · cases h
  | stopJoined =>
    rw [stepUdp] at h
    split at h
    · next hw => cases h; exact ⟨hw.1, hw.2, rfl⟩
    · cases h
  | recvfrom datagram =>
    unfold stepUdp at h
    simp only at h
    split at h
    · next hp =>
      refine ⟨hp, ?_⟩
      split at h
      · cases h; exact .inl rfl
      · split at h
        · split at h <;> cases h
          · exact .inr ⟨_, rfl⟩
          · exact .inl rfl
        · cases h
    · cases h
  | deliver =>
    simp only [stepUdp] at h
    split at h
    · next buffer early hp => cases h; exact ⟨buffer, early, hp, rfl⟩
    · cases h
  | test =>
    rw [stepUdp] at h
    split at h
    · next hp =>
      refine ⟨hp, ?_⟩
      split at h
      · next hflag => cases h; rw [if_pos hflag]
      · next hflag => cases h; rw [if_neg hflag]
    · cases h

/-- A step of the thread keeps the invariant if it leaves the flag and the caller alone. -/
theorem UdpInv.of_thread {s t : UDPSocket} {p : RevThread} (hs : UdpInv s)
    (hp : s.m_hRevThread = some p) (hflag : t.m_bStopUDPRevThread = s.m_bStopUDPRevThread)
    (hcaller : t.caller = s.caller) : UdpInv t := by
  have hsome : s.m_hRevThread ≠ none := by rw [hp]; exact Option.some_ne_none p
  constructor
  · intro _
    rw [hflag]
    exact hs.flag (.inr hsome)
  · intro hb
    exact absurd (hs.begins (hcaller ▸ hb)) hsome

theorem stepUdp_inv (s : UDPSocket) (a : UdpLabel) (t : UDPSocket) (hs : UdpInv s)
    (h : stepUdp s a = some t) : UdpInv t := by
  have hcases := stepUdp_cases h
  cases a with
  | start init =>
    obtain ⟨-, m_sockServer, rfl | rfl⟩ := hcases
    · exact ⟨hs.flag, hs.begins⟩
    · exact ⟨fun _ => rfl, fun hb => by cases hb⟩
  | startJoined =>
    obtain ⟨hw, -, rfl⟩ := hcases
    exact ⟨fun _ => hs.flag (.inl (by rw [hw]; decide)), fun _ => rfl⟩
  | begin success =>
    obtain ⟨hb, hcases⟩ := hcases
    have hflag : s.m_bStopUDPRevThread = true := hs.flag (.inl (by rw [hb]; decide))
    rcases hcases with rfl | rfl <;> exact ⟨fun _ => hflag, fun hb => by cases hb⟩
  | stop =>
    obtain ⟨-, rfl⟩ := hcases
    exact ⟨fun _ => rfl, fun hb => by cases hb⟩
  | stopJoined =>
    obtain ⟨hw, -, rfl⟩ := hcases
    exact ⟨fun _ => hs.flag (.inl (by rw [hw]; decide)), fun hb => by cases hb⟩
  | recvfrom datagram =>
    obtain ⟨hp, rfl | ⟨buffer, rfl⟩⟩ := hcases <;> exact hs.of_thread hp rfl rfl
  | deliver =>
    obtain ⟨buffer, early, hp, rfl⟩ := hcases
    rw [deliver_eq]
    exact hs.of_thread hp rfl rfl
  | test =>
    obtain ⟨hp, rfl⟩ := hcases
    exact hs.of_thread hp rfl rfl

/-! ## 4. When the thread does so -/

theorem pending_of_waitable {s : UDPSocket} (h : s.isWaitable = true) : s.pending = [] := by
  unfold UDPSocket.isWaitable at h
  unfold UDPSocket.pending
  split
  · next buffer hp => rw [hp] at h; cases h
  · rfl

/-- Handing on a datagram that counts. -/
theorem deliver_receives {s : UDPSocket} (hr : Receives s) {buffer : List UInt8} {early : Bool}
    (hp : s.m_hRevThread = some (.deliver buffer early)) :
    Receives (s.deliver buffer early) ↔
      (early = true → buffer ≠ [] ∧ s.m_pRevInterface = true) := by
  have hlog := hr.handed
  rw [UDPSocket.pending, hp] at hlog
  rw [deliver_eq]
  cases early with
  | false =>
    constructor
    · intro _ h
      cases h
    · intro _
      refine ⟨?_, fun h => by cases h⟩
      rw [← hlog]
      simp [UDPSocket.pending]
  | true =>
    constructor
    · intro h _
      by_contra hno
      have hlog' := h.handed
      rw [← hlog, if_neg (fun hyes => hno ⟨hyes.1, hyes.2.1⟩)] at hlog'
      simp [UDPSocket.pending] at hlog'
    · intro h
      refine ⟨?_, fun h => by cases h⟩
      rw [← hlog, if_pos ⟨(h rfl).1, (h rfl).2, rfl⟩]
      simp [UDPSocket.pending]

theorem stops_of_receives {s : UDPSocket} {a : UdpLabel} (hs : UdpInv s) (hr : Receives s)
    (h : KeepsReceiving s a) : StopsInTime s a := by
  match a with
  | .deliver =>
    intro buffer hp
    have hstep : stepUdp s .deliver = some (s.deliver buffer true) := by simp only [stepUdp, hp]
    exact (deliver_receives hr hp).mp (h _ hstep) rfl
  | .test =>
    intro hp
    have hflag : s.m_bStopUDPRevThread = true := hs.flag (.inr (by rw [hp]; decide))
    have hstep : stepUdp s .test = some { s with m_hRevThread := some .finished } := by
      rw [stepUdp, if_pos hp, if_pos hflag]
    exact (h _ hstep).goesOn rfl
  | .start _ | .startJoined | .begin _ | .stop | .stopJoined | .recvfrom _ => trivial

theorem receives_of_stops {s : UDPSocket} {a : UdpLabel} (hs : UdpInv s) (hr : Receives s)
    (h : StopsInTime s a) : KeepsReceiving s a := by
  intro t ht
  have hcases := stepUdp_cases ht
  cases a with
  | start init =>
    obtain ⟨-, m_sockServer, rfl | rfl⟩ := hcases
    · exact ⟨hr.handed, hr.goesOn⟩
    · exact ⟨hr.handed, fun _ => rfl⟩
  | startJoined =>
    obtain ⟨-, hw, rfl⟩ := hcases
    have hlog := hr.handed
    rw [pending_of_waitable hw] at hlog
    exact ⟨hlog, fun hf => by cases hf⟩
  | begin success =>
    obtain ⟨hb, rfl | rfl⟩ := hcases
    · have hlog := hr.handed
      rw [UDPSocket.pending, hs.begins hb] at hlog
      exact ⟨hlog, fun hf => by cases hf⟩
    · exact ⟨hr.handed, hr.goesOn⟩
  | stop =>
    obtain ⟨-, rfl⟩ := hcases
    exact ⟨hr.handed, fun _ => rfl⟩
  | stopJoined =>
    obtain ⟨-, -, rfl⟩ := hcases
    exact ⟨hr.handed, hr.goesOn⟩
  | recvfrom datagram =>
    obtain ⟨hp, hcases⟩ := hcases
    have hlog := hr.handed
    rw [UDPSocket.pending, hp] at hlog
    rcases hcases with rfl | ⟨buffer, rfl⟩
    · exact ⟨hlog, fun hf => by cases hf⟩
    · refine ⟨?_, fun hf => by cases hf⟩
      rw [← hlog]
      cases hasked : s.asked <;> simp [UDPSocket.pending]
  | deliver =>
    obtain ⟨buffer, early, hp, rfl⟩ := hcases
    apply (deliver_receives hr hp).mpr
    rintro rfl
    exact h buffer hp
  | test =>
    obtain ⟨hp, rfl⟩ := hcases
    have hlog := hr.handed
    rw [UDPSocket.pending, hp] at hlog
    rw [hs.flag (.inr (by rw [hp]; decide))]
    exact ⟨hlog, fun _ => h hp⟩

theorem receives_constructed (m_pRevInterface : Bool) : Receives { m_pRevInterface } :=
  ⟨rfl, fun h => by cases h⟩

/-- In every run, whatever the order of calls, datagrams and time-outs: the thread hands on what
came and goes on until it is asked to stop, exactly when it gets to no test of the flag before
that, and to no empty datagram. -/
theorem run_receives_iff {m_pRevInterface : Bool} {as : List UdpLabel} :
    RunMeets stepUdp KeepsReceiving { m_pRevInterface } as ↔
      RunMeets stepUdp StopsInTime { m_pRevInterface } as :=
  runMeets_congr_of_invariant (I := fun s => UdpInv s ∧ Receives s)
    (fun s a t hs hkeeps h => ⟨stepUdp_inv s a t hs.1 h, hkeeps t h⟩)
    (fun _ _ hs => ⟨stops_of_receives hs.1 hs.2, receives_of_stops hs.1 hs.2⟩)
    ⟨udpInv_constructed m_pRevInterface, receives_constructed m_pRevInterface⟩ as

/-- One datagram, and the thread has finished. -/
theorem run_receives_one :
    ¬ RunMeets stepUdp KeepsReceiving {}
      [.start true, .startJoined, .begin true, .recvfrom (some [0x41]), .deliver, .test] := by
  intro h
  obtain ⟨-, h⟩ := h
  obtain ⟨-, h⟩ := h _ rfl
  obtain ⟨-, h⟩ := h _ rfl
  obtain ⟨-, h⟩ := h _ rfl
  obtain ⟨-, h⟩ := h _ rfl
  obtain ⟨h, -⟩ := h _ rfl
  exact absurd ((h _ rfl).goesOn rfl) (by decide)

end VerifyServer.Socket.Udp
