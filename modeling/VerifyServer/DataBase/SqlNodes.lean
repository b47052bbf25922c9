import VerifyServer.DataBase.SqlManager

/-!
# SqlNodes — the life of a `CSqlExecNode`

`ExecSqlInStack` allocates a node for a statement.  `CloseStack` deletes the node it reads at the
back of the queue and removes the one at the front; the worker deletes none.
-/

open VerifyServer.Reasoning

namespace VerifyServer.DataBase

variable {Sql : Type}

/-! ## 1. Deletions and uses -/

/-- `delete p` in the loop of `CloseStack`. -/
def deletes (s : SqlManager Sql) : Label Sql → List (SqlExecNode Sql)
  | .closer i _ =>
    if s.closers[i]? = some .pop then s.m_sql_exec_queue.getLast?.toList else []
  | _ => []

/-- `p->m_sql`, `p->callback` and `p->m_data` for `ExecSql`. -/
def uses (s : SqlManager Sql) : Label Sql → List (SqlExecNode Sql)
  | .worker i =>
    match s.workers[i]? with
    | some (.execSql p) => [p]
    | _ => []
  | _ => []

/-- The worker takes nothing from the queue, and `CloseStack` finds one node there at a time. -/
def LeavesToClose (s : SqlManager Sql) : Label Sql → Prop
  | .worker i => s.workers[i]? ≠ some .take
  | .closer i _ => s.closers[i]? = some .pop → s.m_sql_exec_queue.length ≤ 1
  | _ => True

/-! ## 2. What a step does to the queue -/

/-- Nothing; a new node at the end; or the node in front removed, by a worker or by `CloseStack`. -/
inductive QueueStep (s t : SqlManager Sql) (a : Label Sql) : Prop where
  | kept (hqueue : t.m_sql_exec_queue = s.m_sql_exec_queue) (hposted : t.posted = s.posted)
    (hdeletes : deletes s a = []) (hleaves : LeavesToClose s a ∨ t.crashed ≠ none)
  | pushed (pnode : SqlExecNode Sql) (hserial : pnode.serial = s.posted.length)
    (hqueue : t.m_sql_exec_queue = s.m_sql_exec_queue ++ [pnode])
    (hposted : t.posted = s.posted ++ [pnode]) (hdeletes : deletes s a = [])
    (hleaves : LeavesToClose s a)
  | taken (p : SqlExecNode Sql) (q : List (SqlExecNode Sql)) (i : Nat) (hlabel : a = .worker i)
    (hworker : s.workers[i]? = some .take) (hqueue : s.m_sql_exec_queue = p :: q)
    (hrest : t.m_sql_exec_queue = q) (hposted : t.posted = s.posted) (hdeletes : deletes s a = [])
  | popped (p : SqlExecNode Sql) (q : List (SqlExecNode Sql)) (i : Nat) (timeout : Bool)
    (hlabel : a = .closer i timeout) (hcloser : s.closers[i]? = some .pop)
    (hqueue : s.m_sql_exec_queue = p :: q) (hrest : t.m_sql_exec_queue = q)
    (hposted : t.posted = s.posted) (hdeletes : deletes s a = (p :: q).getLast?.toList)

section Leaves

variable {s t : SqlManager Sql} {i : Nat} {timeout : Bool}

theorem leaves_of_ne_pop {c : Closer} (timeout : Bool) (hi : s.closers[i]? = some c) (hc : c ≠ .pop) :
    deletes s (.closer i timeout) = [] ∧ LeavesToClose s (.closer i timeout) := by
  have hpop : s.closers[i]? ≠ some .pop := fun hpop => hc (Option.some.inj (hi.symm.trans hpop))
  exact ⟨if_neg hpop, fun h => absurd h hpop⟩

theorem leaves_of_ne_take {w : Worker Sql} (hi : s.workers[i]? = some w) (hw : w ≠ .take) :
    LeavesToClose s (.worker i) := fun htake => hw (Option.some.inj (hi.symm.trans htake))

theorem stepCloser_queue {c : Closer} (hi : s.closers[i]? = some c)
    (h : stepCloser s i timeout c = some t) : QueueStep s t (.closer i timeout) := by
  cases c with
  | pop =>
    have hdeletes : deletes s (.closer i timeout) = s.m_sql_exec_queue.getLast?.toList := if_pos hi
    rw [stepCloser] at h
    split at h
    · next hback =>
      have hempty := backPop_eq_none.mp hback
      cases h
      refine .kept rfl rfl (by rw [hdeletes, hempty]; rfl) (.inl fun _ => ?_)
      rw [hempty]
      exact Nat.zero_le _
    · next p q hback =>
      have ⟨hlast, hq⟩ := backPop_eq_some hback
      cases h
      cases hqueue : s.m_sql_exec_queue with
      | nil =>
        rw [hqueue] at hlast
        cases hlast
      | cons a rest =>
        rw [hqueue] at hq hdeletes
        exact .popped a rest i timeout rfl hi hqueue hq rfl hdeletes
  | waitThread =>
    have ⟨hdeletes, hleaves⟩ := leaves_of_ne_pop timeout hi nofun
    rw [stepCloser] at h
    split at h
    · cases h
      exact .kept rfl rfl hdeletes (.inl hleaves)
    · cases h
  | done => cases h
  | setEvent | clearRunning | closeHandle | testEmpty =>
    have ⟨hdeletes, hleaves⟩ := leaves_of_ne_pop timeout hi nofun
    cases h
    exact .kept rfl rfl hdeletes (.inl hleaves)

theorem stepWorker_queue {w : Worker Sql} (hi : s.workers[i]? = some w)
    (h : stepWorker s i w = some t) : QueueStep s t (.worker i) := by
  cases w with
  | take =>
    rw [stepWorker] at h
    split at h
    · cases h
      exact .kept rfl rfl rfl (.inr nofun)
    · next p q hback =>
      have ⟨hlast, hq⟩ := backPop_eq_some hback
      cases h
      cases hqueue : s.m_sql_exec_queue with
      | nil =>
        rw [hqueue] at hlast
        cases hlast
      | cons a rest =>
        rw [hqueue] at hq
        exact .taken a rest i rfl hi hqueue hq rfl rfl
  | wait =>
    rw [stepWorker] at h
    split at h
    · cases h
      exact .kept rfl rfl rfl (.inl (leaves_of_ne_take hi nofun))
    · cases h
  | done => cases h
  | loop | testEmpty | execSql p | sleep =>
    cases h
    exact .kept rfl rfl rfl (.inl (leaves_of_ne_take hi nofun))

theorem step_queue {a : Label Sql} (h : step s a = some t) : QueueStep s t a := by
  unfold step at h
  split at h
  · cases h
  cases a with
  | execSqlInStack sql | openStack | closeStack =>
    simp only at h
    split at h <;> cases h <;> exact .kept rfl rfl rfl (.inl trivial)
  | poster i =>
    have ⟨p, _, h⟩ := Option.bind_eq_some_iff.mp h
    cases p with
    | push sql =>
      cases h
      exact .pushed ⟨s.posted.length, sql⟩ rfl rfl rfl rfl trivial
    | setEvent =>
      cases h
      exact .kept rfl rfl rfl (.inl trivial)
    | done => cases h
  | opener i started =>
    have ⟨p, _, h⟩ := Option.bind_eq_some_iff.mp h
    cases p with
    | beginThread =>
      rw [stepOpener] at h
      split at h <;> cases h <;> exact .kept rfl rfl rfl (.inl trivial)
    | done => cases h
    | setRunning | storeThread thread | storeRunning =>
      cases h
      exact .kept rfl rfl rfl (.inl trivial)
  | closer i timeout =>
    have ⟨c, hi, h⟩ := Option.bind_eq_some_iff.mp h
    exact stepCloser_queue hi h
  | worker i =>
    have ⟨w, hi, h⟩ := Option.bind_eq_some_iff.mp h
    exact stepWorker_queue hi h

/-- A worker comes to `ExecSql` from the queue only. -/
theorem step_execSql {a : Label Sql} {p : SqlExecNode Sql} (h : step s a = some t)
    (hleaves : LeavesToClose s a) (hp : .execSql p ∈ t.workers) : .execSql p ∈ s.workers := by
  unfold step at h
  split at h
  · cases h
  cases a with
  | execSqlInStack sql | openStack | closeStack =>
    simp only at h
    split at h <;> cases h <;> exact hp
  | poster i =>
    have ⟨poster, _, h⟩ := Option.bind_eq_some_iff.mp h
    cases poster <;> cases h <;> exact hp
  | opener i started =>
    have ⟨opener, _, h⟩ := Option.bind_eq_some_iff.mp h
    cases opener with
    | beginThread =>
      rw [stepOpener] at h
      split at h <;> cases h
      · exact (List.mem_append.mp hp).resolve_right fun hnew => by cases List.mem_singleton.mp hnew
      · exact hp
    | done => cases h
    | setRunning | storeThread thread | storeRunning =>
      cases h
      exact hp
  | closer i timeout =>
    have ⟨c, _, h⟩ := Option.bind_eq_some_iff.mp h
    cases c with
    | waitThread | pop =>
      rw [stepCloser] at h
      split at h <;> cases h <;> exact hp
    | done => cases h
    | setEvent | clearRunning | closeHandle | testEmpty =>
      cases h
      exact hp
  | worker i =>
    have ⟨w, hi, h⟩ := Option.bind_eq_some_iff.mp h
    cases w with
    -- the only step that leads there, which the condition excludes
    | take => exact absurd hi hleaves
    | wait =>
      rw [stepWorker] at h
      split at h <;> cases h
      exact (List.mem_or_eq_of_mem_set hp).resolve_right nofun
    | done => cases h
    | loop | testEmpty =>
      cases h
      exact (List.mem_or_eq_of_mem_set hp).resolve_right fun heq => by split at heq <;> cases heq
    | execSql p | sleep =>
      cases h
      exact (List.mem_or_eq_of_mem_set hp).resolve_right nofun

end Leaves

/-! ## 3. The nodes -/

/-- The manager, the nodes deleted so far, and those that were used after that. -/
structure SqlNodes (Sql : Type) where
  manager : SqlManager Sql := {}
  deleted : List (SqlExecNode Sql) := []
  usedDeleted : List (SqlExecNode Sql) := []
  deriving DecidableEq, Repr

/-- The nodes allocated are those deleted and those in the queue, and no worker has one. -/
structure Tidy (s : SqlNodes Sql) : Prop where
  order : s.deleted ++ s.manager.m_sql_exec_queue = s.manager.posted
  serials : s.manager.posted.map (·.serial) = List.range s.manager.posted.length
  idle : ∀ p, .execSql p ∉ s.manager.workers
  used : s.usedDeleted = []

/-- A node that is in the queue no more and was not deleted there. -/
structure Lost (s : SqlNodes Sql) (p : SqlExecNode Sql) : Prop where
  posted : p ∈ s.manager.posted
  serial : p.serial < s.manager.posted.length
  queue : p ∉ s.manager.m_sql_exec_queue
  deleted : p ∉ s.deleted

/-- The manager has crashed or lost a node. -/
def Spoilt (s : SqlNodes Sql) : Prop := s.manager.crashed ≠ none ∨ ∃ p, Lost s p

theorem Tidy.nodup {s : SqlNodes Sql} (h : Tidy s) : s.manager.posted.Nodup :=
  List.Nodup.of_map (·.serial) (h.serials ▸ List.nodup_range)

theorem Tidy.serial_lt {s : SqlNodes Sql} (h : Tidy s) {p : SqlExecNode Sql}
    (hp : p ∈ s.manager.posted) : p.serial < s.manager.posted.length := by
  have hmem := List.mem_map_of_mem (f := (·.serial)) hp
  rw [h.serials] at hmem
  exact List.mem_range.mp hmem

theorem Tidy.uses_eq {s : SqlNodes Sql} (h : Tidy s) (a : Label Sql) : uses s.manager a = [] := by
  unfold uses
  split
  · split
    · next p hi => exact absurd (List.mem_of_getElem? hi) (h.idle p)
    · rfl
  · rfl

theorem tidy_fresh : Tidy ({} : SqlNodes Sql) := ⟨rfl, rfl, fun _ => List.not_mem_nil, rfl⟩

/-- The node in front goes out of the queue undeleted. -/
theorem Tidy.lost {s t : SqlNodes Sql} (h : Tidy s) {p : SqlExecNode Sql}
    {q deleted : List (SqlExecNode Sql)} (hqueue : s.manager.m_sql_exec_queue = p :: q)
    (hrest : t.manager.m_sql_exec_queue = q) (hposted : t.manager.posted = s.manager.posted)
    (hdeleted : t.deleted = s.deleted ++ deleted) (hp : p ∉ deleted) : Lost t p := by
  have hmem : p ∈ s.manager.posted := by
    rw [← h.order, hqueue]
    exact List.mem_append_right _ List.mem_cons_self
  have hnodup := h.order ▸ h.nodup
  rw [hqueue] at hnodup
  have ⟨_, hback, hapart⟩ := List.nodup_append.mp hnodup
  constructor
  case posted => rwa [hposted]
  case serial =>
    rw [hposted]
    exact h.serial_lt hmem
  case queue =>
    rw [hrest]
    exact (List.nodup_cons.mp hback).1
  case deleted =>
    rw [hdeleted, List.mem_append]
    rintro (hold | hnew)
    · exact hapart p hold p List.mem_cons_self rfl
    · exact hp hnew

/-! ## 4. Steps and runs -/

variable [DecidableEq Sql]

instance (s : SqlManager Sql) (a : Label Sql) : Decidable (LeavesToClose s a) :=
  match a with
  | .execSqlInStack _ | .openStack | .closeStack | .poster _ | .opener _ _ => isTrue trivial
  | .closer _ _ => inferInstanceAs (Decidable (_ → _))
  | .worker _ => inferInstanceAs (Decidable (_ ≠ _))

def stepNodes (s : SqlNodes Sql) (a : Label Sql) : Option (SqlNodes Sql) :=
  (step s.manager a).map fun manager =>
    { manager := manager
      deleted := s.deleted ++ deletes s.manager a
      usedDeleted := s.usedDeleted ++ (uses s.manager a).filter (· ∈ s.deleted) }

/-- The runs are those of the manager. -/
theorem run_manager (s : SqlNodes Sql) (as : List (Label Sql)) :
    (run stepNodes s as).map (·.manager) = run step s.manager as :=
  run_map (fun s a => by
    rw [stepNodes, Option.map_map]
    exact Option.map_id') s as

/-- Every node allocated was deleted exactly once, and none was used after that. -/
structure DeletedOnce (s : SqlNodes Sql) : Prop where
  deleted : ∀ p ∈ s.manager.posted, s.deleted.count p = 1
  used : s.usedDeleted = []

/-- A call of `CloseStack` that is about to return: the queue is empty at its test. -/
structure Returning (s : SqlManager Sql) (i : Nat) : Prop where
  running : s.crashed = none
  closer : s.closers[i]? = some .testEmpty
  empty : s.m_sql_exec_queue = []

/-- A step of the manager, with the nodes. -/
theorem stepNodes_eq_some {s t : SqlNodes Sql} {a : Label Sql} :
    stepNodes s a = some t ↔ ∃ manager, step s.manager a = some manager ∧
      t = ⟨manager, s.deleted ++ deletes s.manager a,
        s.usedDeleted ++ (uses s.manager a).filter (· ∈ s.deleted)⟩ := by
  rw [stepNodes, Option.map_eq_some_iff]
  exact exists_congr fun manager => and_congr_right fun _ => eq_comm

theorem stepNodes_tidy {s t : SqlNodes Sql} {a : Label Sql} (h : Tidy s)
    (hleaves : LeavesToClose s.manager a) (ht : stepNodes s a = some t) : Tidy t := by
  have ⟨manager, hstep, heq⟩ := stepNodes_eq_some.mp ht
  subst heq
  have hidle : ∀ p, .execSql p ∉ manager.workers := fun p hp =>
    h.idle p (step_execSql hstep hleaves hp)
  have hused : s.usedDeleted ++ (uses s.manager a).filter (· ∈ s.deleted) = [] := by
    rw [h.uses_eq a, h.used]
    rfl
  cases step_queue hstep with
  | kept hqueue hposted hdeletes _ =>
    refine ⟨?_, ?_, hidle, hused⟩
    · rw [hqueue, hposted, hdeletes, List.append_nil]
      exact h.order
    · rw [hposted]
      exact h.serials
  | pushed pnode hserial hqueue hposted hdeletes _ =>
    refine ⟨?_, ?_, hidle, hused⟩
    · rw [hqueue, hposted, hdeletes, List.append_nil, ← List.append_assoc, h.order]
    · rw [hposted, List.map_append, h.serials, List.length_append, List.length_singleton,
        List.range_succ, ← hserial]
      rfl
  | taken p q i hlabel hworker hqueue hrest hposted hdeletes =>
    subst hlabel
    exact absurd hworker hleaves
  | popped p q i timeout hlabel hcloser hqueue hrest hposted hdeletes =>
    subst hlabel
    have hlen := hleaves hcloser
    rw [hqueue] at hlen
    obtain rfl : q = [] := List.length_eq_zero_iff.mp (Nat.le_zero.mp (Nat.le_of_succ_le_succ hlen))
    refine ⟨?_, ?_, hidle, hused⟩
    · rw [hrest, hposted, hdeletes, List.append_nil, ← h.order, hqueue]
      rfl
    · rw [hposted]
      exact h.serials

/-- Any other step loses the node in front, or crashes. -/
theorem stepNodes_spoils {s t : SqlNodes Sql} {a : Label Sql} (h : Tidy s)
    (hleaves : ¬LeavesToClose s.manager a) (ht : stepNodes s a = some t) : Spoilt t := by
  have ⟨manager, hstep, heq⟩ := stepNodes_eq_some.mp ht
  subst heq
  cases step_queue hstep with
  | kept _ _ _ hkept => exact .inl (hkept.resolve_left hleaves)
  | pushed _ _ _ _ _ hpushed => exact absurd hpushed hleaves
  | taken p q i hlabel hworker hqueue hrest hposted hdeletes =>
    refine .inr ⟨p, h.lost hqueue hrest hposted rfl ?_⟩
    rw [hdeletes]
    exact List.not_mem_nil
  | popped p q i timeout hlabel hcloser hqueue hrest hposted hdeletes =>
    refine .inr ⟨p, h.lost hqueue hrest hposted rfl ?_⟩
    have hq : q ≠ [] := by
      rintro rfl
      subst hlabel
      refine hleaves fun _ => ?_
      rw [hqueue]
      exact Nat.le_refl 1
    have hnodup := h.order ▸ h.nodup
    rw [hqueue] at hnodup
    -- the node deleted is another one
    rw [hdeletes, List.getLast?_eq_some_getLast (List.cons_ne_nil p q), Option.toList_some,
      List.mem_singleton, List.getLast_cons hq]
    intro heq
    refine (List.nodup_cons.mp (List.nodup_append.mp hnodup).2.1).1 ?_
    rw [heq]
    exact List.getLast_mem hq

/-- What is lost stays so. -/
theorem stepNodes_spoilt {s t : SqlNodes Sql} {a : Label Sql} (h : Spoilt s)
    (ht : stepNodes s a = some t) : Spoilt t := by
  have ⟨manager, hstep, heq⟩ := stepNodes_eq_some.mp ht
  subst heq
  rcases h with hcrashed | ⟨x, hx⟩
  · have hnone : step s.manager a = none := if_pos (Option.isSome_iff_ne_none.mpr hcrashed)
    cases hnone.symm.trans hstep
  refine .inr ⟨x, ?_⟩
  cases step_queue hstep with
  | kept hqueue hposted hdeletes _ =>
    refine ⟨hposted ▸ hx.posted, hposted ▸ hx.serial, hqueue ▸ hx.queue, ?_⟩
    rw [hdeletes, List.append_nil]
    exact hx.deleted
  -- a node posted now is another one, by its serial
  | pushed pnode hserial hqueue hposted hdeletes _ =>
    have hne : x ≠ pnode := by
      rintro rfl
      exact absurd hx.serial (by omega)
    constructor
    case posted =>
      show x ∈ manager.posted
      rw [hposted]
      exact List.mem_append_left _ hx.posted
    case serial =>
      show x.serial < manager.posted.length
      rw [hposted, List.length_append]
      exact Nat.lt_add_right _ hx.serial
    case queue =>
      show x ∉ manager.m_sql_exec_queue
      rw [hqueue, List.mem_append, List.mem_singleton]
      exact not_or.mpr ⟨hx.queue, hne⟩
    case deleted =>
      show x ∉ s.deleted ++ deletes s.manager a
      rw [hdeletes, List.append_nil]
      exact hx.deleted
  -- what is taken or popped comes from the queue, where the node is not
  | taken p q i hlabel hworker hqueue hrest hposted hdeletes =>
    have hout : x ∉ p :: q := hqueue ▸ hx.queue
    refine ⟨hposted ▸ hx.posted, hposted ▸ hx.serial, ?_, ?_⟩
    · show x ∉ manager.m_sql_exec_queue
      rw [hrest]
      exact fun hmem => hout (List.mem_cons_of_mem _ hmem)
    · rw [hdeletes, List.append_nil]
      exact hx.deleted
  | popped p q i timeout hlabel hcloser hqueue hrest hposted hdeletes =>
    have hout : x ∉ p :: q := hqueue ▸ hx.queue
    refine ⟨hposted ▸ hx.posted, hposted ▸ hx.serial, ?_, ?_⟩
    · show x ∉ manager.m_sql_exec_queue
      rw [hrest]
      exact fun hmem => hout (List.mem_cons_of_mem _ hmem)
    · rw [hdeletes, List.mem_append, Option.mem_toList]
      rintro (hold | hnew)
      · exact hx.deleted hold
      · exact hout (List.mem_of_getLast? hnew)

/-- When `CloseStack` returns, every node allocated was deleted once and none used after that just
when nothing was taken by the worker and `CloseStack` never found two nodes. -/
theorem run_deleted_once_iff {as : List (Label Sql)} {s : SqlNodes Sql}
    (hrun : run stepNodes {} as = some s) {i : Nat} (hreturn : Returning s.manager i) :
    DeletedOnce s ↔ RunMeets stepNodes (fun s a => LeavesToClose s.manager a) {} as := by
  constructor
  · intro hdeleted
    have htrapped := run_meets_or_trapped (T := Spoilt) (fun _ _ _ => stepNodes_tidy)
      (fun _ _ _ => stepNodes_spoils) (fun _ _ _ => stepNodes_spoilt) tidy_fresh hrun
    rcases htrapped with ⟨hmeets, _⟩ | hcrashed | ⟨p, hp⟩
    · exact hmeets
    · exact absurd hreturn.running hcrashed
    · have hone := hdeleted.deleted p hp.posted
      rw [List.count_eq_zero_of_not_mem hp.deleted] at hone
      cases hone
  · intro hmeets
    have htidy : Tidy s := run_invariant (fun _ _ _ => stepNodes_tidy) tidy_fresh hmeets hrun
    have horder := htidy.order
    rw [hreturn.empty, List.append_nil] at horder
    refine ⟨fun p hp => ?_, htidy.used⟩
    rw [horder]
    exact List.count_eq_one_of_mem htidy.nodup hp

/-- `OpenStack` and a statement posted before the worker begins. -/
def openedRun : List (Label String) :=
  [.openStack, .opener 0 true, .opener 0 true, .opener 0 true, .opener 0 true,
    .execSqlInStack "DELETE", .poster 0, .poster 0]

/-- `CloseStack` comes before the worker's first test of the flag. -/
def closedRun : List (Label String) :=
  openedRun ++ [.closeStack, .closer 0 false, .closer 0 false, .worker 0, .closer 0 false,
    .closer 0 false, .closer 0 false, .closer 0 false]

theorem run_deleted_once_iff_closed :
    ∃ s, run stepNodes {} closedRun = some s ∧ s.deleted = [⟨0, "DELETE"⟩] ∧ DeletedOnce s :=
  have hrun : run stepNodes {} closedRun = some _ := rfl
  ⟨_, rfl, rfl, (run_deleted_once_iff hrun (i := 0) ⟨rfl, rfl, rfl⟩).mpr (by decide)⟩

/-- The worker executes the statement before `CloseStack`. -/
def executedRun : List (Label String) :=
  openedRun ++ [.worker 0, .worker 0, .worker 0, .worker 0, .closeStack, .closer 0 false,
    .closer 0 false, .worker 0, .worker 0, .closer 0 false, .closer 0 false]

/-- A second statement is posted before `CloseStack`. -/
def twiceRun : List (Label String) :=
  openedRun ++ [.execSqlInStack "INSERT", .poster 1, .poster 1, .closeStack, .closer 0 false,
    .closer 0 false, .worker 0, .closer 0 false, .closer 0 false, .closer 0 false, .closer 0 false,
    .closer 0 false, .closer 0 false]

/-- A node that was executed is not deleted; of two that are left, one is deleted twice. -/
theorem nodes_not_deleted_once :
    (∃ s, run stepNodes {} executedRun = some s ∧ Returning s.manager 0 ∧
      s.manager.workers = [.done] ∧ ¬DeletedOnce s) ∧
    (∃ s, run stepNodes {} twiceRun = some s ∧ Returning s.manager 0 ∧
      s.manager.workers = [.done] ∧ s.deleted.count ⟨1, "INSERT"⟩ = 2) := by
  refine ⟨⟨_, rfl, ⟨rfl, rfl, rfl⟩, rfl, fun h => ?_⟩, ⟨_, rfl, ⟨rfl, rfl, rfl⟩, rfl, rfl⟩⟩
  exact absurd (h.deleted ⟨0, "DELETE"⟩ List.mem_cons_self) (by decide)

end VerifyServer.DataBase
