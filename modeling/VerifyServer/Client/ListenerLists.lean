import VerifyServer.Client.ListenerChain

/-!
# ListenerLists — the list that registrations make

`SetOnSocketReceiveListening` and `InsertOnSocketReceiveListening` relink the listeners behind the
one they are called on.  A listener that has been replaced keeps its link into the list.
-/

open VerifyServer.Reasoning

namespace VerifyServer.Client

/-! ## 1. Registrations -/

inductive Registration where
  | setOn (this listener : Listener)
  | insertOn (this listener : Listener)
  deriving DecidableEq, Repr

def Registration.this : Registration → Listener
  | .setOn this _ | .insertOn this _ => this

def Registration.listener : Registration → Listener
  | .setOn _ listener | .insertOn _ listener => listener

/-- What it does to the list. -/
def Registration.apply (r : Registration) (hs : List Listener) : List Listener :=
  match r with
  | .setOn this listener => replaceBehind this listener hs
  | .insertOn this listener => insertBehind this listener hs

structure Listeners where
  next_listener : Links
  -- the listeners that have been in a list
  linked : Listener → Bool

/-- The first of a list, without a successor; others may be in lists of their own. -/
def listenersFrom (next_listener : Links) (root : Listener) : Listeners where
  next_listener := next_listener
  linked := fun l => l = root || (next_listener l).isSome

/-- One registration, with room for `depth` calls on the stack. -/
def stepListeners (depth : Nat) (s : Listeners) (r : Registration) : Option Listeners :=
  let next? := match r with
    | .setOn this listener => setOnSocketReceiveListening s.next_listener depth this (some listener)
    | .insertOn this listener =>
      insertOnSocketReceiveListening s.next_listener depth this (some listener)
  next?.map fun next => ⟨next, Function.update s.linked r.listener true⟩

/-- A listener of the list from `root` on registers one that has never been in a list. -/
def Registers (root : Listener) (s : Listeners) (r : Registration) : Prop :=
  (∃ hs, Linked s.next_listener (some root) hs ∧ r.this ∈ hs) ∧ s.linked r.listener = false

/-! ## 2. One registration -/

/-- `hs` is the list, and a listener that has never been in one has no link. -/
structure Holds (root : Listener) (s : Listeners) (hs : List Listener) : Prop where
  linked : Linked s.next_listener (some root) hs
  known : ∀ l ∈ hs, s.linked l = true
  unlinked : ∀ l, s.linked l = false → s.next_listener l = none

section Registering

variable {next : Links} {this l : Listener}

/-- `Set` takes the listener behind `this` out of the list. -/
theorem setOn_new (depth : Nat) (hnew : next l = none) (hne : l ≠ this) :
    ∃ next', setOnSocketReceiveListening next (depth + 2) this (some l) = some next' ∧
      next' this = some l ∧ next' l = (next this).bind next ∧
        ∀ k, k ≠ this → k ≠ l → next' k = next k := by
  cases hthis : next this with
  | none =>
    refine ⟨Function.update next this (some l), ?_, Function.update_self .., ?_, ?_⟩
    · rw [setOnSocketReceiveListening]
      exact hthis
    · rw [Function.update_of_ne hne, hnew]
      rfl
    · intro k hk _
      exact Function.update_of_ne hk ..
  | some n =>
    refine ⟨Function.update (Function.update next l (next n)) this (some l), ?_,
      Function.update_self .., ?_, ?_⟩
    · simp only [setOnSocketReceiveListening, hthis, hnew, Option.map_some]
    · rw [Function.update_of_ne hne, Function.update_self]
      rfl
    · intro k hk hkl
      rw [Function.update_of_ne hk, Function.update_of_ne hkl]

/-- `Insert` keeps it. -/
theorem insertOn_new (depth : Nat) (hnew : next l = none) (hne : l ≠ this) :
    ∃ next', insertOnSocketReceiveListening next (depth + 2) this (some l) = some next' ∧
      next' this = some l ∧ next' l = next this ∧
        ∀ k, k ≠ this → k ≠ l → next' k = next k := by
  refine ⟨Function.update (Function.update next l (next this)) this (some l), ?_,
    Function.update_self .., ?_, ?_⟩
  · simp only [insertOnSocketReceiveListening, setOnSocketReceiveListening, hnew, Option.map_some]
  · rw [Function.update_of_ne hne, Function.update_self]
  · intro k hk hkl
    rw [Function.update_of_ne hk, Function.update_of_ne hkl]

end Registering

theorem mem_insertBehind {v x k : Listener} {hs : List Listener} (h : k ∈ insertBehind v x hs) :
    k = x ∨ k ∈ hs := by
  induction hs with
  | nil => cases h
  | cons a hs ih =>
    rw [insertBehind] at h
    split at h
    · rcases List.mem_cons.mp h with rfl | h
      · exact .inr List.mem_cons_self
      · exact (List.mem_cons.mp h).imp_right (List.mem_cons_of_mem _)
    · rcases List.mem_cons.mp h with rfl | h
      · exact .inr List.mem_cons_self
      · exact (ih h).imp_right (List.mem_cons_of_mem _)

theorem mem_replaceBehind {v x k : Listener} {hs : List Listener}
    (h : k ∈ replaceBehind v x hs) : k = x ∨ k ∈ hs := by
  induction hs with
  | nil => cases h
  | cons a hs ih =>
    rw [replaceBehind] at h
    split at h
    · rcases List.mem_cons.mp h with rfl | h
      · exact .inr List.mem_cons_self
      · exact (List.mem_cons.mp h).imp_right fun h => List.mem_cons_of_mem _ (List.mem_of_mem_tail h)
    · rcases List.mem_cons.mp h with rfl | h
      · exact .inr List.mem_cons_self
      · exact (ih h).imp_right (List.mem_cons_of_mem _)

theorem mem_apply {r : Registration} {k : Listener} {hs : List Listener} (h : k ∈ r.apply hs) :
    k = r.listener ∨ k ∈ hs := by
  cases r with
  | setOn this listener => exact mem_replaceBehind h
  | insertOn this listener => exact mem_insertBehind h

/-- A registration does not throw, and makes of the list what it should. -/
theorem step_holds {root : Listener} {s : Listeners} {hs : List Listener} {r : Registration}
    (depth : Nat) (h : Holds root s hs) (hr : Registers root s r) :
    ∃ t, stepListeners (depth + 2) s r = some t ∧ Holds root t (r.apply hs) := by
  have ⟨⟨hs', hlinked', hthis⟩, hnew⟩ := hr
  rw [hlinked'.unique h.linked] at hthis
  have hx : r.listener ∉ hs := fun hmem => by
    have hold := h.known _ hmem
    rw [hnew] at hold
    cases hold
  have hne : r.listener ≠ r.this := fun heq => hx (heq ▸ hthis)
  have hsome : ∃ next', stepListeners (depth + 2) s r =
        some ⟨next', Function.update s.linked r.listener true⟩ ∧
      Linked next' (some root) (r.apply hs) ∧
        ∀ k, k ≠ r.this → k ≠ r.listener → next' k = s.next_listener k := by
    cases r with
    | setOn this l =>
      have ⟨next', heq, hv, hl, hsame⟩ := setOn_new depth (h.unlinked l hnew) hne
      exact ⟨next', congrArg (Option.map _) heq, h.linked.replace hx hv hl hsame, hsame⟩
    | insertOn this l =>
      have ⟨next', heq, hv, hl, hsame⟩ := insertOn_new depth (h.unlinked l hnew) hne
      exact ⟨next', congrArg (Option.map _) heq, h.linked.insert hx hv hl hsame, hsame⟩
  have ⟨next', hstep, hlinked, hsame⟩ := hsome
  refine ⟨_, hstep, hlinked, fun k hk => ?_, fun k hk => ?_⟩
  · show Function.update s.linked r.listener true k = true
    by_cases hkl : k = r.listener
    · rw [hkl, Function.update_self]
    · rw [Function.update_of_ne hkl]
      exact h.known k ((mem_apply hk).resolve_left hkl)
  · replace hk : Function.update s.linked r.listener true k = false := hk
    have hkl : k ≠ r.listener := by
      rintro rfl
      rw [Function.update_self] at hk
      cases hk
    rw [Function.update_of_ne hkl] at hk
    have hkt : k ≠ r.this := by
      rintro rfl
      rw [h.known _ hthis] at hk
      cases hk
    show next' k = none
    rw [hsame k hkt hkl]
    exact h.unlinked k hk

/-! ## 3. Registrations one after the other -/

theorem run_holds (depth : Nat) {root : Listener} {s : Listeners} {hs : List Listener}
    {calls : List Registration} (h : Holds root s hs)
    (hcalls : RunMeets (stepListeners (depth + 2)) (Registers root) s calls) :
    ∃ t, run (stepListeners (depth + 2)) s calls = some t ∧
      Holds root t (calls.foldl (fun hs r => r.apply hs) hs) := by
  induction calls generalizing s hs with
  | nil => exact ⟨s, rfl, h⟩
  | cons r calls ih =>
    have ⟨u, hu, hholds⟩ := step_holds depth h hcalls.1
    have ⟨t, ht, hend⟩ := ih hholds (hcalls.2 u hu)
    exact ⟨t, run_cons_eq_some.mpr ⟨u, hu, ht⟩, hend⟩

/-- After any registrations the listeners from `root` on are those of the list, once each, and a
message goes through it up to the first that answers no. -/
theorem run_linked (depth : Nat) {root : Listener} {next_listener : Links}
    {calls : List Registration} (hroot : next_listener root = none)
    (hcalls : RunMeets (stepListeners (depth + 2)) (Registers root)
      (listenersFrom next_listener root) calls) :
    ∃ t hs, run (stepListeners (depth + 2)) (listenersFrom next_listener root) calls = some t ∧
      hs = calls.foldl (fun hs r => r.apply hs) [root] ∧
      Linked t.next_listener (some root) hs ∧ hs.Nodup ∧
      ∀ (receive_data : Listener → Bool) (room : Nat),
        revData t.next_listener receive_data (hs.length + room) root =
          some (heard receive_data hs) := by
  have hfirst : Holds root (listenersFrom next_listener root) [root] := by
    refine ⟨propagates_single.mpr (.inl hroot), fun l hl => ?_, fun l hl => ?_⟩
    · rw [List.mem_singleton.mp hl]
      simp [listenersFrom]
    · show next_listener l = none
      simpa [listenersFrom] using (Bool.or_eq_false_iff.mp hl).2
  have ⟨t, ht, hholds⟩ := run_holds depth hfirst hcalls
  refine ⟨t, _, ht, rfl, hholds.linked, hholds.linked.nodup, fun receive_data room => ?_⟩
  have hlen := (prefix_of_heard receive_data
    (calls.foldl (fun hs r => r.apply hs) [root])).length_le
  exact revData_iff.mpr ⟨hholds.linked.propagates, by omega⟩

/-- 2 is inserted before 1, and replaced by 3. -/
theorem run_linked_three :
    ∃ t, run (stepListeners 2) (listenersFrom (fun _ => none) 0)
        [.insertOn 0 1, .insertOn 0 2, .setOn 0 3] = some t ∧
      Linked t.next_listener (some 0) [0, 3, 1] ∧
        revData t.next_listener (· ≠ 3) 3 0 = some [0, 3] := by
  have hcalls : RunMeets (stepListeners 2) (Registers 0) (listenersFrom (fun _ => none) 0)
      [.insertOn 0 1, .insertOn 0 2, .setOn 0 3] := by
    refine ⟨⟨⟨[0], .pass rfl .nobody, by decide⟩, rfl⟩, fun t ht => ?_⟩
    cases ht
    refine ⟨⟨⟨[0, 1], .pass rfl (.pass rfl .nobody), by decide⟩, rfl⟩, fun t ht => ?_⟩
    cases ht
    refine ⟨⟨⟨[0, 2, 1], .pass rfl (.pass rfl (.pass rfl .nobody)), by decide⟩, rfl⟩, ?_⟩
    exact fun _ _ => trivial
  have ⟨t, hs, ht, heq, hlinked, _, hrev⟩ := run_linked 0 rfl hcalls
  rw [show hs = [0, 3, 1] from heq] at hlinked hrev
  exact ⟨t, ht, hlinked, hrev (· ≠ 3) 0⟩

end VerifyServer.Client
