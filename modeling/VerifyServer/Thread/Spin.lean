import VerifyServer.Thread.WakeThread

/-!
# Spin — how often `wake()` returns

`wake()` clears the flag only after a wait.  Found set on entry, it stays set for ever, and from then
on the thread never waits again.
-/

open VerifyServer.Reasoning

namespace VerifyServer.Thread

variable {Op : Type}

/-! ## 1. One wake-up for each return -/

/-- Between any two returns of `wake()` with `true` there is a call of `wakeUp()`. -/
def Separated (events : List Event) : Prop :=
  ∀ l₁ l₂ l₃, events = l₁ ++ .wakeTrue :: (l₂ ++ .wakeTrue :: l₃) → .wakeUp ∈ l₂

/-- Since the last return of `wake()` with `true` there is a call of `wakeUp()`. -/
def Requested (events : List Event) : Prop :=
  ∀ l₁ l₂, events = l₁ ++ .wakeTrue :: l₂ → .wakeUp ∈ l₂

theorem requested_append_wakeUp (events : List Event) : Requested (events ++ [.wakeUp]) := by
  intro l₁ l₂ h
  rcases List.eq_nil_or_concat l₂ with rfl | ⟨l, e, rfl⟩
  · cases List.append_inj_right' h rfl
  · have h : events ++ [.wakeUp] = (l₁ ++ .wakeTrue :: l) ++ [e] := by simpa using h
    obtain rfl := List.singleton_inj.mp (List.append_inj_right' h rfl)
    simp

theorem separated_append {events : List Event} {e : Event} (h : Separated events)
    (hreq : e = .wakeTrue → Requested events) : Separated (events ++ [e]) := by
  intro l₁ l₂ l₃ he
  rcases List.eq_nil_or_concat l₃ with rfl | ⟨l, e', rfl⟩
  · have he : events ++ [e] = (l₁ ++ .wakeTrue :: l₂) ++ [.wakeTrue] := by simpa using he
    exact hreq (List.singleton_inj.mp (List.append_inj_right' he rfl)) l₁ l₂
      (List.append_inj_left' he rfl)
  · have he : events ++ [e] = (l₁ ++ .wakeTrue :: (l₂ ++ .wakeTrue :: l)) ++ [e'] := by
      simpa using he
    exact h l₁ l₂ l (List.append_inj_left' he rfl)

/-- `wake()` does not find the flag set when it is entered. -/
def EntersClear (s : WakeThread Op) : Label Op → Prop
  | .worker _ => s.worker = .wake → s.bwakeup = false
  | _ => True

/-- The returns are separated, and a notified thread has a call to answer. -/
structure Answering (s : WakeThread Op) : Prop where
  separated : Separated s.events
  requested : s.worker = .notified → Requested s.events

theorem wakeUp_answering {s : WakeThread Op} (hs : Answering s) (n : Nat) :
    Answering { s.wakeUp with posters := n } :=
  ⟨separated_append hs.separated (by simp), fun _ => requested_append_wakeUp _⟩

theorem answering_new : Answering (operateWakeThread : WakeThread Op) :=
  ⟨fun _ _ _ h => by simp [operateWakeThread] at h, by simp [operateWakeThread]⟩

theorem stepWorker_answering {s t : WakeThread Op} {post : Option Op} (hs : Answering s)
    (hP : s.worker = .wake → s.bwakeup = false) (h : stepWorker s post = some t) :
    Answering t := by
  unfold stepWorker at h
  split at h
  case h_1 | h_4 => cases h
  case h_2 => cases h; exact ⟨hs.separated, by simp⟩
  case h_3 hw =>
    rw [if_neg (by simp [hP hw])] at h
    cases h
    exact ⟨hs.separated, by simp⟩
  case h_5 hw =>
    cases h
    exact ⟨separated_append hs.separated fun _ => hs.requested hw, by simp [WakeThread.wakeTrue]⟩
  case h_6 => split at h <;> cases h <;> exact ⟨hs.separated, by simp⟩
  case h_7 => split at h <;> cases h <;> exact ⟨hs.separated, by simp⟩
  case h_8 => cases h; exact ⟨separated_append hs.separated (by simp), by simp⟩

theorem step_answering (s : WakeThread Op) (a : Label Op) (t : WakeThread Op) (hs : Answering s)
    (hP : a ≠ .spurious ∧ EntersClear s a) (h : step s a = some t) : Answering t := by
  cases a with
  | start =>
    rw [step] at h
    split at h <;> cases h
    exact ⟨hs.separated, by simp⟩
  | postOperate operate => cases h; exact ⟨hs.separated, hs.requested⟩
  | postWakeUp =>
    rw [step] at h
    split at h <;> cases h
    exact wakeUp_answering hs _
  | wakeUp => cases h; exact wakeUp_answering hs s.posters
  | spurious => exact absurd rfl hP.1
  | worker post => exact stepWorker_answering hs hP.2 h

/-- In a run in which `wait()` returns only when notified and `wake()` never finds the flag set on
entry, a call of `wakeUp()` lies between any two returns of `wake()` with `true`. -/
theorem run_wakes_separated {as : List (Label Op)} {s : WakeThread Op} (hwait : .spurious ∉ as)
    (hP : RunMeets step EntersClear operateWakeThread as)
    (hrun : run step operateWakeThread as = some s) : Separated s.events := by
  have hne : RunMeets step (fun _ a => a ≠ .spurious) (operateWakeThread : WakeThread Op) as :=
    runMeets_of_forall (fun _ _ ha => ne_of_mem_of_not_mem ha hwait) _
  exact (run_invariant step_answering answering_new (hne.and hP) hrun).separated

instance (s : WakeThread Op) (a : Label Op) [DecidableEq Op] : Decidable (EntersClear s a) :=
  match a with
  | .start | .postOperate _ | .postWakeUp | .wakeUp | .spurious => isTrue trivial
  | .worker _ => inferInstanceAs (Decidable (_ → _))

theorem run_wakes_separated_posted :
    ∃ s, run step operateWakeThread postedRun = some s ∧ s.events = [.wakeUp, .wakeTrue] ∧
      Separated s.events :=
  ⟨_, rfl, rfl, run_wakes_separated (by decide)
    (by decide : RunMeets step EntersClear operateWakeThread postedRun) rfl⟩

/-- `wakeUp` is called once, before the thread is started. -/
def earlyRun : List (Label String) :=
  [.wakeUp, .start, .worker none, .worker none, .worker none, .worker none, .worker none]

theorem wakes_not_separated :
    ¬ ∀ (as : List (Label String)) (s : WakeThread String), .spurious ∉ as →
      run step operateWakeThread as = some s → Separated s.events :=
  fun h => absurd (h earlyRun _ (by decide) rfl [.wakeUp] [] [] rfl) List.not_mem_nil

/-! ## 2. Found set, the flag stays set -/

/-- After `wake()` has found the flag set, the thread by itself returns from it again and again: a
second return with no call of `wakeUp()` in between is always ahead. -/
theorem flag_set_spins {s : WakeThread Op} (hw : s.worker = .wake) (hflag : s.bwakeup = true) :
    ∃ n t, run step s (alone n) = some t ∧ ¬ Separated t.events := by
  have hfirst : run step s (alone 1) = some s.wakeTrue := by
    simp [alone, run, step, stepWorker, hw, hflag]
  have hdrain := myRun_drains (s := s.wakeTrue) rfl
  let u : WakeThread Op := { s.wakeTrue with
    worker := .run, listOperate := [], executed := s.executed ++ s.listOperate }
  have hlast : run step u (alone 2) = some u.wakeTrue := by
    simp [alone, run, step, stepWorker, u, hflag, WakeThread.wakeTrue]
  refine ⟨1 + (2 * s.listOperate.length + 1 + 2), u.wakeTrue, ?_, ?_⟩
  · rw [alone, List.replicate_add, List.replicate_add]
    exact (run_append hfirst).trans ((run_append hdrain).trans hlast)
  · intro hsep
    have hlist : u.wakeTrue.events = s.events ++ .wakeTrue :: ([] ++ .wakeTrue :: []) := by
      simp [u, WakeThread.wakeTrue]
    exact List.not_mem_nil (hsep _ _ _ hlist)

end VerifyServer.Thread
