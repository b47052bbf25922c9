import VerifyServer.Reasoning.Chain
import VerifyServer.Reasoning.Run

/-!
# ListenerChain — who gets a message that came in

`SocketReceiveListeningChannelList` objects are linked through `next_listener`; `RevData` hands a
message along the links.  `UDPClient` and `OnlineClientUser` hold the first of them, and call its
`receive_data`.

A label is one registration, or one message with the answers of the `receive_data` methods to it.
-/

open VerifyServer.Reasoning

namespace VerifyServer.Client

/-! ## 1. `SocketReceiveListeningChannelList` -/

/-- A reference to a listener. -/
abbrev Listener := Nat

/-- The field `next_listener` of every listener. -/
abbrev Links := Listener → Option Listener

/-- `this.SetOnSocketReceiveListening(listener)` with room for `depth` calls on the stack; no result
when it throws. -/
def setOnSocketReceiveListening (next : Links) : Nat → Listener → Option Listener → Option Links
  -- `StackOverflowError`
  | 0, _, _ => none
  | depth + 1, this, listener =>
    match next this, listener with
    | none, listener => some (Function.update next this listener)
    -- `NullPointerException`
    | some _, none => none
    | some n, some l =>
      (setOnSocketReceiveListening next depth l (next n)).map fun next' =>
        Function.update next' this (some l)

/-- `this.InsertOnSocketReceiveListening(listener)`. -/
def insertOnSocketReceiveListening (next : Links) (depth : Nat) (this : Listener) :
    Option Listener → Option Links
  | none => some (Function.update next this none)
  | some l =>
    (setOnSocketReceiveListening next depth l (next this)).map fun next' =>
      Function.update next' this (some l)

/-- `l.RevData(data, len)`: the listeners whose `receive_data` is called. -/
def revData (next : Links) (receive_data : Listener → Bool) :
    Nat → Listener → Option (List Listener)
  | 0, _ => none
  | depth + 1, l =>
    if receive_data l = true then
      match next l with
      | some n => (revData next receive_data depth n).map (l :: ·)
      | none => some [l]
    else
      some [l]

/-- `RevData` hands the message along the chain, if the stack is deep enough for it. -/
theorem revData_iff {next : Links} {receive_data : Listener → Bool} {depth : Nat} {l : Listener}
    {calls : List Listener} :
    revData next receive_data depth l = some calls ↔
      Propagates next receive_data (some l) calls ∧ calls.length ≤ depth := by
  constructor
  · intro h
    induction depth generalizing l calls with
    | zero => cases h
    | succ depth ih =>
      rw [revData] at h
      by_cases hyes : receive_data l = true
      · rw [if_pos hyes] at h
        cases hnext : next l with
        | none =>
          rw [hnext] at h
          cases h
          exact ⟨propagates_single.mpr (.inl hnext), Nat.le_add_left ..⟩
        | some n =>
          rw [hnext] at h
          obtain ⟨rest, hrest, rfl⟩ := Option.map_eq_some_iff.mp h
          obtain ⟨hprop, hlen⟩ := ih hrest
          exact ⟨.pass hyes (hnext ▸ hprop), Nat.succ_le_succ hlen⟩
      · rw [if_neg hyes] at h
        cases h
        exact ⟨.stop (Bool.of_not_eq_true hyes), Nat.le_add_left ..⟩
  · rintro ⟨hprop, hlen⟩
    induction calls generalizing depth l with
    | nil => cases hprop
    | cons c calls ih =>
      obtain ⟨depth, rfl⟩ := Nat.exists_eq_succ_of_ne_zero (by
        rw [List.length_cons] at hlen; omega : depth ≠ 0)
      rw [revData]
      cases hprop with
      | stop hno => rw [if_neg (by rw [hno]; decide)]
      | pass hyes hrest =>
        rw [if_pos hyes]
        cases hnext : next c with
        | none => rw [hnext] at hrest; cases hrest; rfl
        | some n =>
          rw [hnext] at hrest
          show (revData next receive_data depth n).map (c :: ·) = some (c :: calls)
          rw [ih hrest (Nat.le_of_succ_le_succ hlen)]
          rfl

/-! ## 2. The clients -/

/-- The arguments of `receive_data`. -/
structure Message where
  data : List UInt8
  len : Nat
  deriving DecidableEq, Repr

structure Clients where
  next_listener : Links
  -- `UDPClient.listener`, `OnlineClientUser.socket_receive_list`
  listener : Option Listener
  socket_receive_list : Option Listener
  -- every call of a `receive_data`, in order
  calls : List (Listener × Message) := []

inductive ChainEvent where
  | setOn (depth : Nat) (this : Listener) (listener : Option Listener)
  | insertOn (depth : Nat) (this : Listener) (listener : Option Listener)
  -- `m_client.receive` returns a datagram
  | datagram (packet : List UInt8) (receive_data : Listener → Bool)
  -- the analyser calls `rev_data`
  | rev_data (buf_data : List UInt8) (receive_data : Listener → Bool)

/-- What `rev_pack` holds when `receive` returns. -/
def revPack (packet : List UInt8) : Message where
  data := packet.take 1024 ++ List.replicate (1024 - packet.length) 0
  len := min packet.length 1024

/-- `if (listener != null) listener.receive_data(m)`. -/
def Clients.receiveData (s : Clients) (m : Message) : Option Listener → Clients
  | none => s
  | some l => { s with calls := s.calls ++ [(l, m)] }

/-- The body of the loop of `UDPClient.run`. -/
def udpReceived (s : Clients) (packet : List UInt8) : Clients :=
  s.receiveData (revPack packet) s.listener

/-- `DataRevRunningListener.rev_data`. -/
def revDataRunning (s : Clients) (buf_data : List UInt8) : Clients :=
  s.receiveData ⟨buf_data, buf_data.length⟩ s.socket_receive_list

def stepClients (s : Clients) : ChainEvent → Option Clients
  -- a registration that throws has written nothing
  | .setOn depth this l => some { s with
      next_listener :=
        (setOnSocketReceiveListening s.next_listener depth this l).getD s.next_listener }
  | .insertOn depth this l => some { s with
      next_listener :=
        (insertOnSocketReceiveListening s.next_listener depth this l).getD s.next_listener }
  | .datagram packet _ => some (udpReceived s packet)
  | .rev_data buf_data _ => some (revDataRunning s buf_data)

/-! ## 3. Which messages reach the chain -/

/-- Over a step that took `s` to `t`, the message given to `first` reached the chain behind it. -/
def Reaches (s t : Clients) (m : Message) (receive_data : Listener → Bool)
    (first : Option Listener) : Prop :=
  ∃ ls, t.calls = s.calls ++ ls.map (·, m) ∧ ls.Nodup ∧
    Propagates s.next_listener receive_data first ls

/-- The message of a step reached the chain behind the listener its client was given. -/
def Delivered (s : Clients) (a : ChainEvent) : Prop :=
  ∀ t, stepClients s a = some t →
    match a with
    | .setOn .. | .insertOn .. => t.calls = s.calls
    | .datagram packet receive_data => Reaches s t (revPack packet) receive_data s.listener
    | .rev_data buf_data receive_data =>
      Reaches s t ⟨buf_data, buf_data.length⟩ receive_data s.socket_receive_list

/-- Nobody is registered behind the first listener, or that one answers no. -/
def EndsAtFirst (s : Clients) (receive_data : Listener → Bool) (first : Option Listener) : Prop :=
  ∀ l, first = some l → s.next_listener l = none ∨ receive_data l = false

def MessageEndsAtFirst (s : Clients) : ChainEvent → Prop
  | .setOn .. | .insertOn .. => True
  | .datagram _ receive_data => EndsAtFirst s receive_data s.listener
  | .rev_data _ receive_data => EndsAtFirst s receive_data s.socket_receive_list

theorem receiveData_reaches {s : Clients} {m : Message} {receive_data : Listener → Bool}
    {first : Option Listener} :
    Reaches s (s.receiveData m first) m receive_data first ↔ EndsAtFirst s receive_data first := by
  cases first with
  | none =>
    refine ⟨fun _ l h => ?_, fun _ => ⟨[], ?_, List.nodup_nil, .nobody⟩⟩
    · cases h
    · exact (List.append_nil _).symm
  | some l =>
    constructor
    · rintro ⟨ls, hcalls, -, hprop⟩ l' hl'
      cases hl'
      -- one call was made, so the chain has one listener
      have hmap : [(l, m)] = ls.map (·, m) := List.append_cancel_left hcalls
      match ls, hmap with
      | [k], hmap =>
        cases hmap
        exact propagates_single.mp hprop
    · intro hends
      exact ⟨[l], rfl, List.nodup_singleton _, propagates_single.mpr (hends l rfl)⟩

theorem delivered_iff (s : Clients) (a : ChainEvent) : Delivered s a ↔ MessageEndsAtFirst s a := by
  cases a with
  | setOn depth this l => exact ⟨fun _ => trivial, fun _ t ht => by cases ht; rfl⟩
  | insertOn depth this l => exact ⟨fun _ => trivial, fun _ t ht => by cases ht; rfl⟩
  | datagram packet receive_data =>
    exact ⟨fun h => receiveData_reaches.mp (h _ rfl),
      fun h t ht => by cases ht; exact receiveData_reaches.mpr h⟩
  | rev_data buf_data receive_data =>
    exact ⟨fun h => receiveData_reaches.mp (h _ rfl),
      fun h t ht => by cases ht; exact receiveData_reaches.mpr h⟩

/-- In every run, every message reaches the chain exactly when each stays with the first listener
of it. -/
theorem run_delivered_iff {s : Clients} {as : List ChainEvent} :
    RunMeets stepClients Delivered s as ↔ RunMeets stepClients MessageEndsAtFirst s as :=
  runMeets_congr delivered_iff s as

/-- A client of each kind with the listener 0. -/
def freshClients : Clients := ⟨fun _ => none, some 0, some 0, []⟩

/-- The listener 1 is inserted behind 0, and both answer yes: it gets no message. -/
theorem run_delivered_two :
    ¬ RunMeets stepClients Delivered freshClients
        [.insertOn 1 0 (some 1), .datagram [0x7B] fun _ => true] ∧
      ¬ RunMeets stepClients Delivered freshClients
        [.insertOn 1 0 (some 1), .rev_data [0x7B] fun _ => true] := by
  constructor
  · rintro ⟨-, h⟩
    have hends := receiveData_reaches.mp ((h _ rfl).1 _ rfl) 0 rfl
    revert hends
    decide
  · rintro ⟨-, h⟩
    have hends := receiveData_reaches.mp ((h _ rfl).1 _ rfl) 0 rfl
    revert hends
    decide

end VerifyServer.Client
