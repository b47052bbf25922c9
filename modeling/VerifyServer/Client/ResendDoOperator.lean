import VerifyServer.Client.ListenerChain
import VerifyServer.Client.Responses
import VerifyServer.Reasoning.Run

/-!
# ResendDoOperator — requests that wait for a response

`signin_user` and `verify_login` make a `ResendDoOperator` for each request.  Its constructor puts a
listener into the channel behind `client_listener`; `ToDoOperate` starts a timer, whose sixth tick
reports a failure to the channel unless a message has stopped it.

A label is one call, one tick of one timer or one message, with the answers of the listeners that
are not the operators' own.
-/

open VerifyServer.Reasoning

namespace VerifyServer.Client

/-! ## 1. State -/

structure ResendDoOperator where
  type : JavaString
  listener : Listener
  -- `reverify_timer != null`
  reverify_timer : Bool := false
  reverify_times : Nat := 0
  parsers : NetDataParsesCollection := {}
  -- the ticks since it was activated, as long as no message of its type came; no code keeps it
  awaited : Option Nat := none
  deriving DecidableEq

structure ResendChannel where
  next_listener : Links
  -- the listeners made so far are those below
  listeners : Nat
  client_listener : Listener
  operators : List ResendDoOperator := []
  -- the listeners of the operators that reported a failure, in order
  reports : List Listener := []

inductive ResendEvent where
  | create (type : JavaString) (depth : Nat)
  | toDoOperate (l : Listener)
  | tick (l : Listener) (depth : Nat) (answers : Listener → Bool)
  -- `client_listener.RevData(data, len)`
  | message (data : List UInt8) (depth : Nat) (answers : Listener → Bool)

/-! ## 2. Steps -/

/-- What a tick leaves of the wait: the sixth one ends it. -/
def laterTick : Option Nat → Option Nat
  | some k => if k = 5 then none else some (k + 1)
  | none => none

/-- `ToDoOperate()`; what it sends makes no difference here. -/
def ResendDoOperator.activate (op : ResendDoOperator) : ResendDoOperator :=
  { op with reverify_timer := true, awaited := some (op.awaited.getD 0) }

/-- The tick makes `run` report. -/
def ResendDoOperator.fails (op : ResendDoOperator) : Bool :=
  op.reverify_timer && !decide (op.reverify_times ≤ 4)

/-- `ReverifyLoginTimertask.run()` up to its report.  The task has no operator to call. -/
def ResendDoOperator.run (op : ResendDoOperator) : ResendDoOperator :=
  let op := { op with awaited := laterTick op.awaited }
  if op.reverify_timer then
    if op.reverify_times ≤ 4 then { op with reverify_times := op.reverify_times + 1 }
    else { op with reverify_timer := false, reverify_times := 0 }
  else op

/-- `OperatorSocketRecevieListening.receive_data`, which answers yes. -/
def ResendDoOperator.receiveData (lib : OrgJson) (data : List UInt8) (op : ResendDoOperator) :
    ResendDoOperator :=
  let r := op.parsers.parse lib data
  if r.2.isSome then { op with parsers := r.1, reverify_timer := false, reverify_times := 0 }
  else { op with parsers := r.1 }

/-- The message ends the wait of an operator whose type it has. -/
def ResendDoOperator.awaits (lib : OrgJson) (data : List UInt8) (op : ResendDoOperator) :
    ResendDoOperator :=
  if isType op.type lib data then { op with awaited := none } else op

/-- The operator with the listener `l`, changed by `f`. -/
def ResendChannel.on (s : ResendChannel) (l : Listener)
    (f : ResendDoOperator → ResendDoOperator) : ResendChannel :=
  { s with operators := s.operators.map fun op => if op.listener = l then f op else op }

/-- `client_listener` and the operators' listeners answer yes. -/
def ResendChannel.answer (s : ResendChannel) (answers : Listener → Bool) (l : Listener) : Bool :=
  l = s.client_listener || s.operators.any (fun op => op.listener = l) || answers l

/-- `first.RevData(data, len)`; no result when the stack is not deep enough for the chain. -/
def ResendChannel.revData (lib : OrgJson) (s : ResendChannel) (data : List UInt8) (depth : Nat)
    (answers : Listener → Bool) (first : Listener) : Option ResendChannel :=
  (Client.revData s.next_listener (s.answer answers) depth first).map fun calls =>
    { s with operators := s.operators.map fun op =>
        if op.listener ∈ calls then op.receiveData lib data else op }

/-- The `json_object` of a report. -/
def timeoutMessage (type : JavaString) : JsonObject :=
  message type (JsonObject.put (JsonObject.put [] (lit "result") (some (.int (-1))))
    (lit "result_info") (some (.string (lit "0x0001"))))

-- `text` is `toString().getBytes()` of a fastjson object
def stepResend (lib : OrgJson) (text : Json → List UInt8) (s : ResendChannel) :
    ResendEvent → Option ResendChannel
  | .create type depth =>
    (setOnSocketReceiveListening s.next_listener depth s.client_listener (some s.listeners)).map
      fun next_listener => { s with
        next_listener := next_listener
        listeners := s.listeners + 1
        operators := s.operators ++ [{ type := type, listener := s.listeners }] }
  | .toDoOperate l => some (s.on l ResendDoOperator.activate)
  | .tick l depth answers =>
    match s.operators.find? fun op => op.listener = l with
    | none => none
    | some op =>
      let t := s.on l ResendDoOperator.run
      if op.fails then
        { t with reports := s.reports ++ [l] }.revData lib (text (.object (timeoutMessage op.type)))
          depth answers l
      else some t
  | .message data depth answers =>
    { s with operators := s.operators.map (ResendDoOperator.awaits lib data) }.revData lib data depth
      answers s.client_listener

/-! ## 3. What a run must do -/

/-- The reports due in a step: the tick is the sixth of a wait. -/
def dueReports (s : ResendChannel) : ResendEvent → List Listener
  | .tick l _ _ => if ∃ op ∈ s.operators, op.listener = l ∧ op.awaited = some 5 then [l] else []
  | _ => []

/-- The step makes the reports that are due, and after it the timers that run are those of the
operators that wait. -/
def ResendRight (lib : OrgJson) (text : Json → List UInt8) (s : ResendChannel) (a : ResendEvent) :
    Prop :=
  ∀ t, stepResend lib text s a = some t →
    t.reports = s.reports ++ dueReports s a ∧
      ∀ op ∈ t.operators, op.reverify_timer = op.awaited.isSome

/-- A message that gets through has the type of a waiting operator exactly when that operator is
the one made last and its parsers recognise the message. -/
def ResendFits (lib : OrgJson) (s : ResendChannel) : ResendEvent → Prop
  | .message data depth answers =>
    (s.revData lib data depth answers s.client_listener).isSome = true →
      ∀ op ∈ s.operators, op.awaited ≠ none →
        (isType op.type lib data = true ↔
          s.operators.getLast? = some op ∧ (op.parsers.parse lib data).2.isSome = true)
  | _ => True

instance (lib : OrgJson) (s : ResendChannel) : ∀ a, Decidable (ResendFits lib s a)
  | .message .. => inferInstanceAs (Decidable (_ → ∀ op ∈ s.operators, _ → (_ ↔ _ ∧ _)))
  | .create .. => inferInstanceAs (Decidable True)
  | .toDoOperate _ => inferInstanceAs (Decidable True)
  | .tick .. => inferInstanceAs (Decidable True)

/-! ## 4. The channel -/

/-- A listener that is neither `client_listener` nor an operator's. -/
structure ResendChannel.Outside (s : ResendChannel) (l : Listener) : Prop where
  made : l < s.listeners
  not_client : l ≠ s.client_listener
  not_operator : ∀ op ∈ s.operators, op.listener ≠ l

/-- The listener behind `client_listener` is that of the operator made last; every other link leads
outside. -/
structure ResendChannel.Linked (s : ResendChannel) : Prop where
  client_made : s.client_listener < s.listeners
  made : ∀ op ∈ s.operators, op.listener < s.listeners
  not_client : ∀ op ∈ s.operators, op.listener ≠ s.client_listener
  nodup : (s.operators.map (·.listener)).Nodup
  unmade : ∀ l, s.listeners ≤ l → s.next_listener l = none
  first : ∀ op, s.operators.getLast? = some op →
    s.next_listener s.client_listener = some op.listener
  others : ∀ l l', s.next_listener l = some l' →
    l = s.client_listener ∧ s.operators ≠ [] ∨ s.Outside l'

theorem ResendChannel.Linked.next_outside {s : ResendChannel} (hs : s.Linked) {l l' : Listener}
    (hl : l ≠ s.client_listener) (h : s.next_listener l = some l') : s.Outside l' :=
  (hs.others l l' h).resolve_left fun hclient => hl hclient.1

/-- Behind a listener outside a message stays outside. -/
theorem ResendChannel.Linked.calls_outside {s : ResendChannel} (hs : s.Linked)
    {answer : Listener → Bool} {depth : Nat} {l : Listener} {calls : List Listener}
    (hl : s.Outside l) (h : Client.revData s.next_listener answer depth l = some calls) :
    ∀ c ∈ calls, s.Outside c := by
  induction depth generalizing l calls with
  | zero => cases h
  | succ depth ih =>
    rw [Client.revData] at h
    by_cases hyes : answer l = true
    · rw [if_pos hyes] at h
      cases hnext : s.next_listener l with
      | none =>
        rw [hnext] at h
        cases h
        intro c hc
        rwa [List.mem_singleton.mp hc]
      | some n =>
        rw [hnext] at h
        obtain ⟨rest, hrest, heq⟩ := Option.map_eq_some_iff.mp h
        intro c hc
        rw [← heq] at hc
        rcases List.mem_cons.mp hc with hc | hc
        · rwa [hc]
        · exact ih (hs.next_outside hl.not_client hnext) hrest c hc
    · rw [if_neg hyes] at h
      cases h
      intro c hc
      rwa [List.mem_singleton.mp hc]

/-- The first listener of a call, and what it hands the message on to. -/
theorem revData_cons {next : Links} {answer : Listener → Bool} {depth : Nat} {l : Listener}
    {calls : List Listener} (hyes : answer l = true)
    (h : Client.revData next answer depth l = some calls) :
    ∃ rest, calls = l :: rest ∧
      (next l = none ∧ rest = [] ∨
        ∃ n depth', next l = some n ∧ Client.revData next answer depth' n = some rest) := by
  cases depth with
  | zero => cases h
  | succ depth =>
    rw [Client.revData, if_pos hyes] at h
    cases hnext : next l with
    | none =>
      rw [hnext] at h
      exact ⟨[], (Option.some.inj h).symm, .inl ⟨rfl, rfl⟩⟩
    | some n =>
      rw [hnext] at h
      obtain ⟨rest, hrest, heq⟩ := Option.map_eq_some_iff.mp h
      exact ⟨rest, heq.symm, .inr ⟨n, depth, rfl, hrest⟩⟩

/-- What an operator's own listener is given, no other operator gets. -/
theorem ResendChannel.Linked.calls_own {s : ResendChannel} (hs : s.Linked)
    {answers : Listener → Bool} {depth : Nat} {calls : List Listener} {op : ResendDoOperator}
    (hop : op ∈ s.operators)
    (h : Client.revData s.next_listener (s.answer answers) depth op.listener = some calls) :
    ∀ o ∈ s.operators, o.listener ∈ calls ↔ o.listener = op.listener := by
  have hyes : s.answer answers op.listener = true := by
    have hany : s.operators.any (fun o => o.listener = op.listener) = true :=
      List.any_eq_true.mpr ⟨op, hop, decide_eq_true rfl⟩
    rw [ResendChannel.answer, hany, Bool.or_true, Bool.true_or]
  have ⟨rest, hcalls, hrest⟩ := revData_cons hyes h
  intro o ho
  rw [hcalls, List.mem_cons]
  refine ⟨fun hor => hor.resolve_right fun hmem => ?_, .inl⟩
  rcases hrest with ⟨_, hnil⟩ | ⟨n, depth', hnext, hn⟩
  · rw [hnil] at hmem
    cases hmem
  · have hout := hs.next_outside (hs.not_client op hop) hnext
    exact (hs.calls_outside hout hn _ hmem).not_operator o ho rfl

/-- A message for `client_listener` reaches the operator made last and no other. -/
theorem ResendChannel.Linked.calls_client {s : ResendChannel} (hs : s.Linked)
    {answers : Listener → Bool} {depth : Nat} {calls : List Listener}
    (h : Client.revData s.next_listener (s.answer answers) depth s.client_listener = some calls) :
    ∀ o ∈ s.operators, o.listener ∈ calls ↔ s.operators.getLast? = some o := by
  have hyes : s.answer answers s.client_listener = true := by
    rw [ResendChannel.answer, decide_eq_true rfl, Bool.true_or, Bool.true_or]
  have ⟨rest, hcalls, hrest⟩ := revData_cons hyes h
  intro o ho
  have ⟨last, hlast⟩ : ∃ last, s.operators.getLast? = some last :=
    ⟨_, List.getLast?_eq_some_getLast (List.ne_nil_of_mem ho)⟩
  have hmem : last ∈ s.operators := List.mem_of_getLast? hlast
  have hsame : o.listener = last.listener ↔ s.operators.getLast? = some o := by
    rw [hlast, Option.some.injEq]
    exact ⟨fun heq => (List.inj_on_of_nodup_map hs.nodup ho hmem heq).symm, fun heq => by rw [heq]⟩
  have hclient : o.listener ≠ s.client_listener := hs.not_client o ho
  rw [hcalls, List.mem_cons, ← hsame, or_iff_right hclient]
  rcases hrest with ⟨hnone, _⟩ | ⟨n, depth', hnext, hn⟩
  · rw [hs.first last hlast] at hnone
    cases hnone
  · rw [hs.first last hlast] at hnext
    obtain rfl := Option.some.inj hnext
    exact hs.calls_own hmem hn o ho

/-- Changes of the operators that keep their listeners leave the channel as it is. -/
theorem ResendChannel.Linked.map {s : ResendChannel} (hs : s.Linked)
    {f : ResendDoOperator → ResendDoOperator} (hf : ∀ op, (f op).listener = op.listener)
    (reports : List Listener) :
    { s with operators := s.operators.map f, reports := reports }.Linked where
  client_made := hs.client_made
  made := List.forall_mem_map.mpr fun op hop => hf op ▸ hs.made op hop
  not_client := List.forall_mem_map.mpr fun op hop => hf op ▸ hs.not_client op hop
  nodup := by
    have hsame : (s.operators.map f).map (·.listener) = s.operators.map (·.listener) := by
      rw [List.map_map]
      exact List.map_congr_left fun op _ => hf op
    rw [hsame]
    exact hs.nodup
  unmade := hs.unmade
  first op hop := by
    rw [List.getLast?_map, Option.map_eq_some_iff] at hop
    have ⟨o, ho, heq⟩ := hop
    rw [← heq, hf]
    exact hs.first o ho
  others l l' h := by
    rcases hs.others l l' h with ⟨hl, hne⟩ | hout
    · exact .inl ⟨hl, fun hnil => hne (List.map_eq_nil_iff.mp hnil)⟩
    · exact .inr ⟨hout.made, hout.not_client,
        List.forall_mem_map.mpr fun op hop => hf op ▸ hout.not_operator op hop⟩

/-- A new listener set on the channel takes the place of the first one behind `this`. -/
theorem setOnSocketReceiveListening_new {next next' : Links} {depth : Nat} {this l : Listener}
    (hnew : next l = none)
    (h : setOnSocketReceiveListening next depth this (some l) = some next') :
    next' = Function.update (Function.update next l ((next this).bind next)) this (some l) := by
  cases depth with
  | zero => cases h
  | succ depth =>
    cases hnext : next this with
    | none =>
      simp only [setOnSocketReceiveListening, hnext, Option.some.injEq] at h
      have hsame : Function.update next l none = next := by rw [← hnew, Function.update_eq_self]
      rw [Option.bind_none, hsame, h]
    | some n =>
      simp only [setOnSocketReceiveListening, hnext, Option.map_eq_some_iff] at h
      obtain ⟨next'', hinner, heq⟩ := h
      cases depth with
      | zero => cases hinner
      | succ depth =>
        simp only [setOnSocketReceiveListening, hnew, Option.some.injEq] at hinner
        rw [← heq, ← hinner, Option.bind_some]

/-- What is behind `client_listener` is another listener. -/
theorem ResendChannel.Linked.first_ne {s : ResendChannel} (hs : s.Linked) {l : Listener}
    (h : s.next_listener s.client_listener = some l) : l ≠ s.client_listener := by
  rcases hs.others _ l h with ⟨_, hne⟩ | hout
  · have hlast := List.getLast?_eq_some_getLast hne
    have hl := hs.first _ hlast
    rw [h, Option.some.injEq] at hl
    rw [hl]
    exact hs.not_client _ (List.mem_of_getLast? hlast)
  · exact hout.not_client

/-- A new operator comes right behind `client_listener`, with what was behind the one before it. -/
theorem ResendChannel.Linked.create {s : ResendChannel} (hs : s.Linked) {depth : Nat} {next : Links}
    (type : JavaString)
    (h : setOnSocketReceiveListening s.next_listener depth s.client_listener (some s.listeners) =
      some next) :
    ({ s with
      next_listener := next
      listeners := s.listeners + 1
      operators := s.operators ++ [{ type := type, listener := s.listeners }] } :
        ResendChannel).Linked := by
  have hclient := hs.client_made
  have hnew : s.next_listener s.listeners = none := hs.unmade _ (Nat.le_refl _)
  have hne : s.client_listener ≠ s.listeners := Nat.ne_of_lt hclient
  have hlinks := setOnSocketReceiveListening_new hnew h
  -- the links of the other listeners are as before
  have hother (l : Listener) (hl : l ≠ s.client_listener) (hl' : l ≠ s.listeners) :
      next l = s.next_listener l := by
    rw [hlinks, Function.update_of_ne hl, Function.update_of_ne hl']
  have hfirst : next s.client_listener = some s.listeners := by rw [hlinks, Function.update_self]
  have hbehind : next s.listeners = (s.next_listener s.client_listener).bind s.next_listener := by
    rw [hlinks, Function.update_of_ne hne.symm, Function.update_self]
  have hoperators {P : ResendDoOperator → Prop} (hold : ∀ op ∈ s.operators, P op)
      (hlast : P { type := type, listener := s.listeners }) :
      ∀ op ∈ s.operators ++ [{ type := type, listener := s.listeners }], P op := by
    intro op hop
    rcases List.mem_append.mp hop with hop | hop
    · exact hold op hop
    · rwa [List.mem_singleton.mp hop]
  have houtside {l : Listener} (hl : s.Outside l) : ResendChannel.Outside
      { s with
        next_listener := next
        listeners := s.listeners + 1
        operators := s.operators ++ [{ type := type, listener := s.listeners }] } l :=
    ⟨Nat.lt_succ_of_lt hl.made, hl.not_client,
      hoperators hl.not_operator (Nat.ne_of_gt hl.made)⟩
  constructor
  case client_made => exact Nat.lt_succ_of_lt hclient
  case made =>
    exact hoperators (fun op hop => Nat.lt_succ_of_lt (hs.made op hop)) (Nat.lt_succ_self _)
  case not_client => exact hoperators hs.not_client hne.symm
  case nodup =>
    rw [List.map_append]
    apply List.Nodup.append hs.nodup (List.nodup_singleton _)
    intro l hl hl'
    have ⟨op, hop, heq⟩ := List.mem_map.mp hl
    have hlt := hs.made op hop
    rw [heq, List.mem_singleton.mp hl'] at hlt
    exact Nat.lt_irrefl _ hlt
  case unmade =>
    intro l hl
    show next l = none
    have hlt : s.listeners < l := hl
    rw [hother l (Nat.ne_of_gt (Nat.lt_trans hclient hlt)) (Nat.ne_of_gt hlt)]
    exact hs.unmade l (Nat.le_of_lt hlt)
  case first =>
    intro op hop
    rw [List.getLast?_concat, Option.some.injEq] at hop
    rw [← hop]
    exact hfirst
  case others =>
    intro l l' hl
    by_cases hlc : l = s.client_listener
    · exact .inl ⟨hlc, List.append_ne_nil_of_right_ne_nil _ (List.cons_ne_nil _ _)⟩
    · right
      change next l = some l' at hl
      apply houtside
      by_cases hln : l = s.listeners
      · rw [hln, hbehind, Option.bind_eq_some_iff] at hl
        have ⟨x, hx, hxl⟩ := hl
        exact hs.next_outside (hs.first_ne hx) hxl
      · rw [hother l hlc hln] at hl
        exact hs.next_outside hlc hl

/-! ## 5. The operators -/

/-- The timer runs while the operator waits, and `reverify_times` counts the ticks. -/
structure ResendDoOperator.InStep (op : ResendDoOperator) : Prop where
  timer : op.reverify_timer = op.awaited.isSome
  times : op.reverify_times = op.awaited.getD 0
  ticks : op.reverify_times ≤ 5

theorem activate_inStep {op : ResendDoOperator} (h : op.InStep) : op.activate.InStep :=
  ⟨rfl, h.times, h.ticks⟩

theorem fails_iff {op : ResendDoOperator} (h : op.InStep) :
    op.fails = true ↔ op.awaited = some 5 := by
  have htimer := h.timer
  have htimes := h.times
  have hticks := h.ticks
  rw [ResendDoOperator.fails, Bool.and_eq_true, Bool.not_eq_true', decide_eq_false_iff_not]
  cases hw : op.awaited with
  | none =>
    rw [hw] at htimer
    rw [htimer]
    exact ⟨fun h => (nomatch h.1), fun h => nomatch h⟩
  | some k =>
    rw [hw] at htimer htimes
    rw [htimer, htimes, Option.some.injEq]
    simp only [Option.getD_some] at htimes ⊢
    constructor
    · intro ⟨_, hk⟩
      omega
    · intro hk
      exact ⟨rfl, by omega⟩

theorem run_inStep {op : ResendDoOperator} (h : op.InStep) : op.run.InStep := by
  obtain ⟨type, l, timer, times, parsers, awaited⟩ := op
  obtain ⟨htimer, htimes, hticks⟩ := h
  simp only at htimer htimes hticks
  subst htimer htimes
  cases awaited with
  | none => exact ⟨rfl, rfl, Nat.zero_le _⟩
  | some k =>
    change k ≤ 5 at hticks
    by_cases hk : k = 5
    · rw [hk]
      exact ⟨rfl, rfl, Nat.zero_le _⟩
    · have hle : k ≤ 4 := by omega
      simp only [ResendDoOperator.run, laterTick, Option.isSome_some, Option.getD_some, if_true,
        if_pos hle, if_neg hk]
      exact ⟨rfl, rfl, Nat.succ_le_succ hle⟩

@[simp] theorem run_listener (op : ResendDoOperator) : op.run.listener = op.listener := by
  unfold ResendDoOperator.run
  simp only
  split
  · split <;> rfl
  · rfl

theorem run_awaited (op : ResendDoOperator) : op.run.awaited = laterTick op.awaited := by
  unfold ResendDoOperator.run
  simp only
  split
  · split <;> rfl
  · rfl

@[simp] theorem awaits_listener (lib : OrgJson) (data : List UInt8) (op : ResendDoOperator) :
    (op.awaits lib data).listener = op.listener := by
  unfold ResendDoOperator.awaits
  split <;> rfl

@[simp] theorem receiveData_listener (lib : OrgJson) (data : List UInt8) (op : ResendDoOperator) :
    (op.receiveData lib data).listener = op.listener := by
  unfold ResendDoOperator.receiveData
  simp only
  split <;> rfl

/-- A message makes no difference to an operator that does not wait. -/
theorem receiveData_inStep {lib : OrgJson} {data : List UInt8} {op : ResendDoOperator}
    (h : op.InStep) (hidle : op.awaited = none) : (op.receiveData lib data).InStep := by
  have htimer := h.timer
  have htimes := h.times
  unfold ResendDoOperator.receiveData
  simp only
  by_cases hrec : (op.parsers.parse lib data).2.isSome = true
  · rw [if_pos hrec]
    exact ⟨by rw [hidle]; rfl, by rw [hidle]; rfl, Nat.zero_le _⟩
  · rw [if_neg hrec]
    exact ⟨htimer, htimes, h.ticks⟩

/-- What a message makes of an operator: `heard` when it reaches its listener. -/
def ResendDoOperator.hears (lib : OrgJson) (data : List UInt8) (heard : Prop) [Decidable heard]
    (op : ResendDoOperator) : ResendDoOperator :=
  if heard then (op.awaits lib data).receiveData lib data else op.awaits lib data

theorem hears_timer {lib : OrgJson} {data : List UInt8} {heard : Prop} [Decidable heard]
    (op : ResendDoOperator) :
    (op.hears lib data heard).reverify_timer =
      (op.reverify_timer && !decide (heard ∧ (op.parsers.parse lib data).2.isSome = true)) := by
  have hparsers : (op.awaits lib data).parsers = op.parsers := by
    unfold ResendDoOperator.awaits
    split <;> rfl
  have htimer : (op.awaits lib data).reverify_timer = op.reverify_timer := by
    unfold ResendDoOperator.awaits
    split <;> rfl
  unfold ResendDoOperator.hears ResendDoOperator.receiveData
  simp only [hparsers]
  by_cases hheard : heard <;> by_cases hrec : (op.parsers.parse lib data).2.isSome = true
  · simp [hheard, hrec]
  · simp [hheard, hrec, htimer]
  · simp [hheard, htimer]
  · simp [hheard, htimer]

theorem hears_awaited {lib : OrgJson} {data : List UInt8} {heard : Prop} [Decidable heard]
    (op : ResendDoOperator) :
    (op.hears lib data heard).awaited = if isType op.type lib data then none else op.awaited := by
  have hawaits : (op.awaits lib data).awaited =
      if isType op.type lib data then none else op.awaited := by
    unfold ResendDoOperator.awaits
    split <;> rfl
  rw [← hawaits]
  unfold ResendDoOperator.hears ResendDoOperator.receiveData
  split
  · simp only
    split <;> rfl
  · rfl

theorem hears_times {lib : OrgJson} {data : List UInt8} {heard : Prop} [Decidable heard]
    (op : ResendDoOperator) :
    (op.hears lib data heard).reverify_times =
      if heard ∧ (op.parsers.parse lib data).2.isSome = true then 0 else op.reverify_times := by
  have hparsers : (op.awaits lib data).parsers = op.parsers := by
    unfold ResendDoOperator.awaits
    split <;> rfl
  have htimes : (op.awaits lib data).reverify_times = op.reverify_times := by
    unfold ResendDoOperator.awaits
    split <;> rfl
  unfold ResendDoOperator.hears ResendDoOperator.receiveData
  simp only [hparsers]
  by_cases hheard : heard <;> by_cases hrec : (op.parsers.parse lib data).2.isSome = true
  · simp [hheard, hrec]
  · simp [hheard, hrec, htimes]
  · simp [hheard, htimes]
  · simp [hheard, htimes]

/-- A message leaves an operator in step exactly when it has the type of one that waits just when it
stops the timer. -/
theorem hears_timer_iff {lib : OrgJson} {data : List UInt8} {heard : Prop} [Decidable heard]
    {op : ResendDoOperator} (h : op.InStep) :
    (op.hears lib data heard).reverify_timer = (op.hears lib data heard).awaited.isSome ↔
      (op.awaited ≠ none →
        (isType op.type lib data = true ↔
          heard ∧ (op.parsers.parse lib data).2.isSome = true)) := by
  rw [hears_timer, hears_awaited, h.timer]
  cases op.awaited with
  | none =>
    rw [ite_self]
    exact ⟨fun _ hne => absurd rfl hne, fun _ => rfl⟩
  | some k =>
    by_cases htype : isType op.type lib data = true
    · simp [htype]
    · simp [htype, imp_iff_not_or]

theorem hears_inStep {lib : OrgJson} {data : List UInt8} {heard : Prop} [Decidable heard]
    {op : ResendDoOperator} (h : op.InStep)
    (hfits : op.awaited ≠ none → (isType op.type lib data = true ↔
      heard ∧ (op.parsers.parse lib data).2.isSome = true)) : (op.hears lib data heard).InStep := by
  have htimes := h.times
  refine ⟨(hears_timer_iff h).mpr hfits, ?_, ?_⟩
  · rw [hears_times, hears_awaited]
    by_cases hw : op.awaited = none
    · rw [hw] at htimes ⊢
      rw [ite_self, htimes]
      exact ite_self _
    · by_cases htype : isType op.type lib data = true
      · rw [if_pos htype, if_pos ((hfits hw).mp htype)]
        rfl
      · rw [if_neg htype, if_neg fun hand => htype ((hfits hw).mpr hand)]
        exact htimes
  · rw [hears_times]
    split
    · exact Nat.zero_le _
    · exact h.ticks

/-! ## 6. Steps and runs -/

variable {lib : OrgJson} {text : Json → List UInt8} {s : ResendChannel}

theorem answer_map {f : ResendDoOperator → ResendDoOperator}
    (hf : ∀ op, (f op).listener = op.listener) (reports : List Listener) :
    ({ s with operators := s.operators.map f, reports := reports } : ResendChannel).answer =
      s.answer := by
  funext answers l
  have hany : (s.operators.map f).any (fun op => op.listener = l) =
      s.operators.any fun op => op.listener = l := by
    rw [List.any_map]
    congr 1
    funext op
    exact congrArg (fun x => decide (x = l)) (hf op)
  simp only [ResendChannel.answer, hany]

theorem stepResend_message (data : List UInt8) (depth : Nat) (answers : Listener → Bool) :
    stepResend lib text s (.message data depth answers) =
      (Client.revData s.next_listener (s.answer answers) depth s.client_listener).map fun calls =>
        { s with operators := s.operators.map fun op =>
            op.hears lib data (op.listener ∈ calls) } := by
  have hanswer := answer_map (s := s) (awaits_listener lib data) s.reports
  simp only [stepResend, ResendChannel.revData, hanswer, List.map_map]
  congr 1
  funext calls
  congr 1
  apply List.map_congr_left
  intro op _
  simp only [Function.comp_apply, awaits_listener, ResendDoOperator.hears]

/-- The operator with the listener `l` after a tick. -/
def ResendDoOperator.ticked (l : Listener) (op : ResendDoOperator) : ResendDoOperator :=
  if op.listener = l then op.run else op

theorem ticked_listener (l : Listener) (op : ResendDoOperator) :
    (op.ticked l).listener = op.listener := by
  unfold ResendDoOperator.ticked
  split
  · exact run_listener op
  · rfl

theorem ticked_inStep {l : Listener} {op : ResendDoOperator} (h : op.InStep) :
    (op.ticked l).InStep := by
  unfold ResendDoOperator.ticked
  split
  · exact run_inStep h
  · exact h

structure ResendInv (s : ResendChannel) : Prop where
  linked : s.Linked
  inStep : ∀ op ∈ s.operators, op.InStep

theorem create_step {t : ResendChannel} (hs : ResendInv s) {type : JavaString} {depth : Nat}
    (h : stepResend lib text s (.create type depth) = some t) :
    ResendInv t ∧ t.reports = s.reports := by
  have ⟨next, hnext, heq⟩ := Option.map_eq_some_iff.mp h
  subst heq
  refine ⟨⟨hs.linked.create type hnext, fun op hop => ?_⟩, rfl⟩
  rcases List.mem_append.mp hop with hop | hop
  · exact hs.inStep op hop
  · rw [List.mem_singleton.mp hop]
    exact ⟨rfl, rfl, Nat.zero_le _⟩

theorem toDoOperate_step {t : ResendChannel} (hs : ResendInv s) {l : Listener}
    (h : stepResend lib text s (.toDoOperate l) = some t) :
    ResendInv t ∧ t.reports = s.reports := by
  cases h
  refine ⟨⟨hs.linked.map (fun op => ?_) s.reports, List.forall_mem_map.mpr fun op hop => ?_⟩, rfl⟩
  · split <;> rfl
  · split
    · exact activate_inStep (hs.inStep op hop)
    · exact hs.inStep op hop

/-- A tick makes its operator report when the report is due; the report comes back to that operator,
whose timer has stopped, and to no other. -/
theorem tick_step {t : ResendChannel} (hs : ResendInv s) {l : Listener} {depth : Nat}
    {answers : Listener → Bool} (h : stepResend lib text s (.tick l depth answers) = some t) :
    ResendInv t ∧ t.reports = s.reports ++ dueReports s (.tick l depth answers) := by
  rw [stepResend] at h
  cases hfind : s.operators.find? fun op => op.listener = l with
  | none =>
    rw [hfind] at h
    cases h
  | some op =>
    rw [hfind] at h
    have hop := List.mem_of_find?_eq_some hfind
    have hl : op.listener = l := by
      have hsome := List.find?_some hfind
      exact of_decide_eq_true hsome
    have hfails := fails_iff (hs.inStep op hop)
    have hlinked := hs.linked.map (ticked_listener l)
    -- the operator found is the one the due report is about
    have hdue : (∃ o ∈ s.operators, o.listener = l ∧ o.awaited = some 5) ↔ op.awaited = some 5 := by
      constructor
      · intro ⟨o, ho, hol, hw⟩
        rwa [← List.inj_on_of_nodup_map hs.linked.nodup ho hop (hol.trans hl.symm)]
      · exact fun hw => ⟨op, hop, hl, hw⟩
    by_cases hf : op.fails = true
    · simp only [if_pos hf] at h
      rw [dueReports, if_pos (hdue.mpr (hfails.mp hf))]
      have ⟨calls, hcalls, heq⟩ := Option.map_eq_some_iff.mp h
      subst heq
      have hanswer := answer_map (s := s) (ticked_listener l) (s.reports ++ [l])
      have hown := hs.linked.calls_own hop (by rw [hl, ← hanswer]; exact hcalls)
      refine ⟨⟨(hlinked (s.reports ++ [l])).map (fun o => ?_) (s.reports ++ [l]), ?_⟩, rfl⟩
      · split
        · exact receiveData_listener ..
        · rfl
      · refine List.forall_mem_map.mpr (List.forall_mem_map.mpr fun o ho => ?_)
        have hticked := ticked_inStep (l := l) (hs.inStep o ho)
        show (if (o.ticked l).listener ∈ calls then _ else o.ticked l).InStep
        rw [ticked_listener]
        by_cases hmem : o.listener ∈ calls
        · have hol : o.listener = l := ((hown o ho).mp hmem).trans hl
          have hw : o.awaited = some 5 := by
            rw [List.inj_on_of_nodup_map hs.linked.nodup ho hop (hol.trans hl.symm)]
            exact hfails.mp hf
          have hidle : (o.ticked l).awaited = none := by
            rw [ResendDoOperator.ticked, if_pos hol, run_awaited, hw]
            rfl
          rw [if_pos hmem]
          exact receiveData_inStep hticked hidle
        · rw [if_neg hmem]
          exact hticked
    · simp only [if_neg hf] at h
      cases h
      rw [dueReports, if_neg fun hd => hf (hfails.mpr (hdue.mp hd)), List.append_nil]
      exact ⟨⟨hlinked s.reports, List.forall_mem_map.mpr fun o ho => ticked_inStep (hs.inStep o ho)⟩,
        rfl⟩

theorem message_right_iff (hs : ResendInv s) (data : List UInt8) (depth : Nat)
    (answers : Listener → Bool) :
    ResendFits lib s (.message data depth answers) ↔
      ResendRight lib text s (.message data depth answers) := by
  rw [ResendFits, ResendRight, stepResend_message, ResendChannel.revData, Option.isSome_map]
  cases hcalls : Client.revData s.next_listener (s.answer answers) depth s.client_listener with
  | none => exact ⟨fun _ t ht => (nomatch ht), fun _ h => (nomatch h)⟩
  | some calls =>
    have hheard := hs.linked.calls_client hcalls
    have htimers : (∀ op ∈ s.operators, op.awaited ≠ none → (isType op.type lib data = true ↔
        s.operators.getLast? = some op ∧ (op.parsers.parse lib data).2.isSome = true)) ↔
        ∀ op ∈ s.operators, (op.hears lib data (op.listener ∈ calls)).reverify_timer =
          (op.hears lib data (op.listener ∈ calls)).awaited.isSome := by
      apply forall₂_congr
      intro op hop
      rw [hears_timer_iff (hs.inStep op hop), hheard op hop]
    constructor
    · intro h t ht
      cases ht
      exact ⟨(List.append_nil _).symm, List.forall_mem_map.mpr (htimers.mp (h rfl))⟩
    · intro h _
      exact htimers.mpr (List.forall_mem_map.mp (h _ rfl).2)

theorem resend_right_iff (s : ResendChannel) (a : ResendEvent) (hs : ResendInv s) :
    ResendFits lib s a ↔ ResendRight lib text s a := by
  have hright {t : ResendChannel} (ht : ResendInv t) :
      ∀ op ∈ t.operators, op.reverify_timer = op.awaited.isSome := fun op hop =>
    (ht.inStep op hop).timer
  cases a with
  | create type depth =>
    refine ⟨fun _ t ht => ?_, fun _ => trivial⟩
    have ⟨hinv, hreports⟩ := create_step hs ht
    exact ⟨hreports.trans (List.append_nil _).symm, hright hinv⟩
  | toDoOperate l =>
    refine ⟨fun _ t ht => ?_, fun _ => trivial⟩
    have ⟨hinv, hreports⟩ := toDoOperate_step hs ht
    exact ⟨hreports.trans (List.append_nil _).symm, hright hinv⟩
  | tick l depth answers =>
    refine ⟨fun _ t ht => ?_, fun _ => trivial⟩
    have ⟨hinv, hreports⟩ := tick_step hs ht
    exact ⟨hreports, hright hinv⟩
  | message data depth answers => exact message_right_iff hs data depth answers

theorem stepResend_inv (s : ResendChannel) (a : ResendEvent) (t : ResendChannel)
    (hs : ResendInv s) (hfits : ResendFits lib s a) (h : stepResend lib text s a = some t) :
    ResendInv t := by
  cases a with
  | create type depth => exact (create_step hs h).1
  | toDoOperate l => exact (toDoOperate_step hs h).1
  | tick l depth answers => exact (tick_step hs h).1
  | message data depth answers =>
    rw [stepResend_message] at h
    have ⟨calls, hcalls, heq⟩ := Option.map_eq_some_iff.mp h
    subst heq
    have hheard := hs.linked.calls_client hcalls
    have hthrough : (s.revData lib data depth answers s.client_listener).isSome = true := by
      rw [ResendChannel.revData, hcalls]
      rfl
    refine ⟨hs.linked.map (fun op => ?_) s.reports, List.forall_mem_map.mpr fun op hop => ?_⟩
    · unfold ResendDoOperator.hears
      split
      · rw [receiveData_listener, awaits_listener]
      · exact awaits_listener ..
    · apply hears_inStep (hs.inStep op hop)
      rw [hheard op hop]
      exact hfits hthrough op hop

/-- The listeners of a client before its first operator: none of them has `client_listener` behind
it. -/
structure FirstListeners where
  next_listener : Links
  listeners : Nat
  client_listener : Listener
  made : client_listener < listeners
  unmade : ∀ l, listeners ≤ l → next_listener l = none
  links : ∀ l l', next_listener l = some l' → l' < listeners ∧ l' ≠ client_listener

def FirstListeners.channel (c : FirstListeners) : ResendChannel :=
  { next_listener := c.next_listener, listeners := c.listeners, client_listener := c.client_listener }

theorem FirstListeners.inv (c : FirstListeners) : ResendInv c.channel := by
  refine ⟨⟨c.made, ?_, ?_, List.nodup_nil, c.unmade, ?_, fun l l' h => .inr ⟨?_, ?_, ?_⟩⟩, ?_⟩
  · exact fun op hop => absurd hop List.not_mem_nil
  · exact fun op hop => absurd hop List.not_mem_nil
  · exact fun op hop => nomatch hop
  · exact (c.links l l' h).1
  · exact (c.links l l' h).2
  · exact fun op hop => absurd hop List.not_mem_nil
  · exact fun op hop => absurd hop List.not_mem_nil

/-- In every run, every operator reports and stops its timer as it should exactly when every message
fits. -/
theorem run_resend_right_iff (lib : OrgJson) (text : Json → List UInt8) (c : FirstListeners)
    (as : List ResendEvent) :
    RunMeets (stepResend lib text) (ResendRight lib text) c.channel as ↔
      RunMeets (stepResend lib text) (ResendFits lib) c.channel as :=
  (runMeets_congr_of_invariant stepResend_inv resend_right_iff c.inv as).symm

/-- `client_listener` with an `EmptySocketReceiveListening` behind it. -/
def freshListeners : FirstListeners where
  next_listener l := if l = 0 then some 1 else none
  listeners := 2
  client_listener := 0
  made := by decide
  unmade l hl := if_neg (Nat.ne_of_gt (Nat.lt_of_lt_of_le Nat.two_pos hl))
  links l l' h := by
    split at h
    · cases h
      decide
    · cases h

/-- The response to a registration. -/
def registered : Response := .userRegist ⟨0, .result_info, lit "ok"⟩

/-- A login waits and the response to a registration arrives; then a registration and a login wait and
the response to the registration arrives. -/
theorem run_resend_wrong :
    ¬ RunMeets (stepResend (asciiOrgJson registered.message) jsonText)
        (ResendRight (asciiOrgJson registered.message) jsonText) freshListeners.channel
        [.create (lit "verify_login_reponse") 8, .toDoOperate 2,
          .message (jsonText (.object registered.message)) 8 fun _ => true] ∧
      ¬ RunMeets (stepResend (asciiOrgJson registered.message) jsonText)
        (ResendRight (asciiOrgJson registered.message) jsonText) freshListeners.channel
        [.create (lit "user_regist_reponse") 8, .toDoOperate 2,
          .create (lit "verify_login_reponse") 8, .toDoOperate 3,
          .message (jsonText (.object registered.message)) 8 fun _ => true] := by
  rw [← runMeets_congr_of_invariant stepResend_inv resend_right_iff freshListeners.inv,
    ← runMeets_congr_of_invariant stepResend_inv resend_right_iff freshListeners.inv]
  decide +kernel

end VerifyServer.Client
