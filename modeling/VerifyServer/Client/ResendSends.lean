import VerifyServer.Client.ResendDoOperator

/-!
# ResendSends — how often a `ResendDoOperator` sends its request

`ToDoOperate` hands the request to the proxy, and the timer's task is there to call it again.  The
task is followed with the operator it was made for.
-/

open VerifyServer.Reasoning

namespace VerifyServer.Client

/-! ## 1. The operator with what it sends -/

structure SendingOperator where
  operator : ResendDoOperator
  -- `none` for `null`
  netsocketdata : Option NetSocketData
  -- `socketproxy != null`
  socketproxy : Bool
  -- `operator != null` in the timer's task; it would be this operator
  task_operator : Bool := false
  -- what was handed to the proxy
  sent : List (List UInt8) := []

inductive SendingEvent where
  | toDoOperate
  | tick
  | receiveData (data : List UInt8)

/-- `new ResendDoOperator(netsocketdata, socketproxy, type, listener)`. -/
def newSendingOperator (netsocketdata : Option NetSocketData) (socketproxy : Bool)
    (type : JavaString) (listener : Listener) : SendingOperator where
  operator := { type := type, listener := listener }
  netsocketdata := netsocketdata
  socketproxy := socketproxy

/-- `netsocketdata.be_send(socketproxy)`, where neither is `null`. -/
def SendingOperator.beSend (s : SendingOperator) : SendingOperator :=
  match s.netsocketdata with
  | some data => if s.socketproxy then { s with sent := s.sent ++ [data.prepareData] } else s
  | none => s

/-- `ToDoOperate()`: a new timer gets `new ReverifyLoginTimertask(null)`. -/
def SendingOperator.toDoOperate (s : SendingOperator) : SendingOperator :=
  SendingOperator.beSend { s with
    operator := s.operator.activate
    task_operator := if s.operator.reverify_timer then s.task_operator else false }

/-- `ReverifyLoginTimertask.run()`; a timer that does not run has no tick. -/
def SendingOperator.tick (lib : OrgJson) (text : Json → List UInt8) (s : SendingOperator) :
    Option SendingOperator :=
  if s.operator.reverify_timer then
    let t := { s with operator := s.operator.run }
    if s.operator.reverify_times ≤ 4 then some (if t.task_operator then t.toDoOperate else t)
    else
      let report := text (.object (timeoutMessage s.operator.type))
      some { t with operator := t.operator.receiveData lib report }
  else none

def stepSending (lib : OrgJson) (text : Json → List UInt8) (s : SendingOperator) :
    SendingEvent → Option SendingOperator
  | .toDoOperate => some s.toDoOperate
  | .tick => s.tick lib text
  | .receiveData data => some { s with operator := s.operator.receiveData lib data }

/-! ## 2. Steps -/

/-- What the constructor was given, and that no task has an operator. -/
structure SendingOperator.Given (s : SendingOperator) (netsocketdata : Option NetSocketData)
    (socketproxy : Bool) : Prop where
  data : s.netsocketdata = netsocketdata
  proxy : s.socketproxy = socketproxy
  task : s.task_operator = false

section Steps

variable {lib : OrgJson} {text : Json → List UInt8} {netsocketdata : Option NetSocketData}
  {socketproxy : Bool} {s t : SendingOperator}

theorem beSend_given (h : s.Given netsocketdata socketproxy) :
    s.beSend.Given netsocketdata socketproxy := by
  unfold SendingOperator.beSend
  split
  · split
    · exact ⟨h.data, h.proxy, h.task⟩
    · exact h
  · exact h

theorem beSend_sent (h : s.Given netsocketdata socketproxy) :
    s.beSend.sent.length =
      s.sent.length + if netsocketdata.isSome ∧ socketproxy = true then 1 else 0 := by
  unfold SendingOperator.beSend
  rw [h.data, h.proxy]
  cases netsocketdata with
  | none => rfl
  | some data =>
    cases socketproxy with
    | false => rfl
    | true =>
      show (s.sent ++ [data.prepareData]).length = s.sent.length + 1
      rw [List.length_append, List.length_singleton]

theorem newTask_given (h : s.Given netsocketdata socketproxy) (operator : ResendDoOperator)
    (running : Bool) : SendingOperator.Given
      { s with operator := operator, task_operator := if running then s.task_operator else false }
      netsocketdata socketproxy := by
  refine ⟨h.data, h.proxy, ?_⟩
  show (if running then s.task_operator else false) = false
  rw [h.task, ite_self]

theorem toDoOperate_given (h : s.Given netsocketdata socketproxy) :
    s.toDoOperate.Given netsocketdata socketproxy :=
  beSend_given (newTask_given h _ _)

theorem toDoOperate_sent (h : s.Given netsocketdata socketproxy) :
    s.toDoOperate.sent.length =
      s.sent.length + if netsocketdata.isSome ∧ socketproxy = true then 1 else 0 :=
  beSend_sent (newTask_given h _ _)

/-- A tick sends nothing. -/
theorem tick_given (h : s.Given netsocketdata socketproxy) (ht : s.tick lib text = some t) :
    t.Given netsocketdata socketproxy ∧ t.sent = s.sent := by
  unfold SendingOperator.tick at ht
  split at ht
  · dsimp only at ht
    rw [h.task] at ht
    split at ht <;> rw [← Option.some.inj ht]
    · exact ⟨⟨h.data, h.proxy, rfl⟩, rfl⟩
    · exact ⟨⟨h.data, h.proxy, rfl⟩, rfl⟩
  · cases ht

theorem stepSending_given {a : SendingEvent} (h : s.Given netsocketdata socketproxy)
    (ht : stepSending lib text s a = some t) : t.Given netsocketdata socketproxy := by
  cases a with
  | toDoOperate =>
    rw [← Option.some.inj ht]
    exact toDoOperate_given h
  | tick => exact (tick_given h ht).1
  | receiveData data =>
    rw [← Option.some.inj ht]
    exact ⟨h.data, h.proxy, h.task⟩

theorem ticks_sent {k : Nat} (h : s.Given netsocketdata socketproxy)
    (ht : run (stepSending lib text) s (List.replicate k .tick) = some t) : t.sent = s.sent := by
  have hinv : t.Given netsocketdata socketproxy ∧ t.sent = s.sent := by
    induction k generalizing s with
    | zero =>
      rw [← Option.some.inj ht]
      exact ⟨h, rfl⟩
    | succ k ih =>
      have ⟨u, hu, hrun⟩ := run_cons_eq_some.mp ht
      have ⟨hgiven, hsent⟩ := tick_given h hu
      have ⟨hgiven', hsent'⟩ := ih hgiven hrun
      exact ⟨hgiven', hsent'.trans hsent⟩
  exact hinv.2

end Steps

/-! ## 3. Runs -/

/-- After a `ToDoOperate` and `k` ticks the request has been sent once for each of the first five
ticks, and once more, just when there was no tick and there is a request and a proxy. -/
theorem sends_iff {lib : OrgJson} {text : Json → List UInt8}
    (netsocketdata : Option NetSocketData) (socketproxy : Bool) (type : JavaString)
    (listener : Listener) {before : List SendingEvent} {k : Nat} {s t : SendingOperator}
    (hs : run (stepSending lib text) (newSendingOperator netsocketdata socketproxy type listener)
      before = some s)
    (ht : run (stepSending lib text) s (.toDoOperate :: List.replicate k .tick) = some t) :
    t.sent.length = s.sent.length + (min k 5 + 1) ↔
      k = 0 ∧ netsocketdata.isSome = true ∧ socketproxy = true := by
  have hgiven : s.Given netsocketdata socketproxy :=
    run_preserves (fun _ _ _ h hst => stepSending_given h hst) ⟨rfl, rfl, rfl⟩ hs
  have ⟨u, hu, hrun⟩ := run_cons_eq_some.mp ht
  have hoperate : u = s.toDoOperate := (Option.some.inj hu).symm
  rw [hoperate] at hrun
  rw [ticks_sent (toDoOperate_given hgiven) hrun, toDoOperate_sent hgiven]
  by_cases hready : netsocketdata.isSome = true ∧ socketproxy = true
  · rw [if_pos hready]
    constructor
    · intro h
      exact ⟨by omega, hready⟩
    · intro ⟨hk, _⟩
      omega
  · rw [if_neg hready]
    constructor
    · intro h
      omega
    · exact fun h => absurd h.2 hready

theorem sends_iff_login : ∃ t, run (stepSending (asciiOrgJson registered.message) jsonText)
    (newSendingOperator (some ⟨ascii "login"⟩) true (lit "verify_login_reponse") 2)
    [.toDoOperate] = some t ∧ t.sent.length = 1 :=
  ⟨_, rfl, (@sends_iff (asciiOrgJson registered.message) jsonText (some ⟨ascii "login"⟩) true
    (lit "verify_login_reponse") 2 [] 0 _ _ rfl rfl).mpr ⟨rfl, rfl, rfl⟩⟩

/-- The first tick sends nothing. -/
theorem sends_once : ¬∀ (lib : OrgJson) (text : Json → List UInt8) (data : NetSocketData)
    (type : JavaString) (listener : Listener) (k : Nat) (t : SendingOperator),
      run (stepSending lib text) (newSendingOperator (some data) true type listener)
        (.toDoOperate :: List.replicate k .tick) = some t → t.sent.length = min k 5 + 1 := by
  intro h
  have hone := h (asciiOrgJson registered.message) jsonText ⟨ascii "login"⟩ [] 2 1 _ rfl
  exact absurd hone (by decide)

end VerifyServer.Client
