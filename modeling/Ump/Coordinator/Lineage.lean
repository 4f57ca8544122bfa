import Ump.Coordinator.Replanning

/-!
# The lineage of plans

## Chains of revisions

`replan` checks that a proposal is the next revision of the plan that it replaces.
`submit` and `submit_many` take any revision that the planner proposes. The stored plans
form chains where the planner proposes initial plans to those two, and where no run
becomes active again while a thread is about to replace it.
-/

namespace Ump.Coordinator

open Foundation CoordinatorStore

/-- The plan is the next revision of an earlier plan for the same goal. -/
structure Follows (plan previous : Plan) : Prop extends Supersedes plan previous where
  goalId : plan.goalId = previous.goalId

structure InitialPlan (plan : Plan) : Prop where
  revision : plan.revision = 1
  supersedesPlanId : plan.supersedesPlanId = none

/-- The plan starts a chain, or a stored run has its predecessor. -/
def Chained (s : CoordinatorStore) (plan : Plan) : Prop :=
  InitialPlan plan ∨ exists run, run ∈ s.runs.rows ∧ Follows plan run.plan

/-- As `Chained`, and the predecessor is no longer active. -/
def Succession (s : CoordinatorStore) (plan : Plan) : Prop :=
  InitialPlan plan ∨
    exists run, run ∈ s.runs.rows ∧ Follows plan run.plan ∧ run.status ≠ .active

def Task.replaces? : Task -> Option String
  | .replanFrom previous _ _ => some previous.planId
  | .createRun _ plan _ _ => plan.supersedesPlanId
  | _ => none

def Task.submits : Task -> Bool
  | .submit _ _ => true
  | .prepareMany _ _ _ => true
  | _ => false

/-- The planner proposes initial plans to `submit` and `submit_many`, and no operation
makes a run active that a thread is about to replace. -/
def KeepsLineage : Condition Memory Task Reading Entry
  | m, ts, .exec t r =>
      (t.submits = true -> forall plan, r.proposal = some plan -> plan.revision = 1) ∧
      forall operation, t.operation? = some operation -> forall t' planId, t' ∈ ts ->
        t'.replaces? = some planId -> RunActive (m.store.apply operation) planId ->
          RunActive m.store planId
  | _, _, .spawn _ => True

/-- What the columns of a stored run repeat, and where its plan comes from. -/
structure Linked (s : CoordinatorStore) (run : RunRow) : Prop where
  planId : run.planId = run.plan.planId
  goalId : run.plan.goalId = run.goal.goalId
  positive : 1 ≤ run.plan.revision
  chained : Chained s run.plan

/-- What a thread knows of the runs that it is about to create. -/
def Task.Lineal (s : CoordinatorStore) : Task -> Prop
  | .replanFrom previous goal _ => exists run, run ∈ s.runs.rows ∧ run.plan = previous ∧
      run.goal = goal ∧ run.status ≠ .active
  | .createRun goal plan _ _ => plan.goalId = goal.goalId ∧ 1 ≤ plan.revision ∧ Succession s plan
  | .prepareMany _ prepared _ => forall run, run ∈ prepared ->
      run.2.1.goalId = run.1.goalId ∧ InitialPlan run.2.1
  | _ => True

structure Lineal (m : Memory) (ts : Multiset Task) : Prop where
  linked : forall run, run ∈ m.store.runs.rows -> Linked m.store run
  tasks : forall t, t ∈ ts -> t.Lineal m.store

/-!
## What `_prepare` checks
-/

theorem checkLineage_eq_ok {plan : Plan} (h : plan.checkLineage = .ok ()) :
    1 ≤ plan.revision ∧ (plan.revision = 1 -> plan.supersedesPlanId = none) := by
  rcases bind_eq_ok.mp h with ⟨_, hpositive, h⟩
  rcases bind_eq_ok.mp h with ⟨_, hinitial, _⟩
  constructor
  · have hnot := refuseWhen_eq_ok hpositive
    simp only [decide_eq_false_iff_not] at hnot
    omega
  · intro hone
    simpa [hone] using refuseWhen_eq_ok hinitial

theorem prepare_lineage {config : Config} {goal : SharedGoal} {nowMs : Int} {r : Reading}
    {plan : Plan} {assignments : List Assignment}
    (h : prepare config goal nowMs r = .ok (plan, assignments)) :
    r.proposal = some plan ∧ plan.goalId = goal.goalId ∧ 1 ≤ plan.revision ∧
      (plan.revision = 1 -> plan.supersedesPlanId = none) := by
  rcases prepare_eq_ok h with ⟨_, hproposal, hcheck, hvalid, _⟩
  refine ⟨hproposal, ?_, ?_⟩
  · unfold validatePlan at hvalid
    rcases bind_eq_ok.mp hvalid with ⟨_, _, hvalid⟩
    rcases bind_eq_ok.mp hvalid with ⟨_, hgoal, _⟩
    have hnot := refuseWhen_eq_ok hgoal
    simp only [Bool.or_eq_false_iff, decide_eq_false_iff_not, not_not] at hnot
    exact hnot.1.1
  · unfold Plan.check at hcheck
    rcases bind_eq_ok.mp hcheck with ⟨_, _, hcheck⟩
    rcases bind_eq_ok.mp hcheck with ⟨_, _, hcheck⟩
    rcases bind_eq_ok.mp hcheck with ⟨_, _, hcheck⟩
    rcases bind_eq_ok.mp hcheck with ⟨_, _, hcheck⟩
    rcases bind_eq_ok.mp hcheck with ⟨_, _, hcheck⟩
    rcases bind_eq_ok.mp hcheck with ⟨_, hlineage, _⟩
    exact checkLineage_eq_ok hlineage

theorem prepare_initial {config : Config} {goal : SharedGoal} {nowMs : Int} {r : Reading}
    {plan : Plan} {assignments : List Assignment}
    (h : prepare config goal nowMs r = .ok (plan, assignments))
    (hproposes : forall plan, r.proposal = some plan -> plan.revision = 1) :
    plan.goalId = goal.goalId ∧ InitialPlan plan := by
  rcases prepare_lineage h with ⟨hproposal, hgoal, _, hinitial⟩
  have hone := hproposes plan hproposal
  exact ⟨hgoal, hone, hinitial hone⟩

theorem Follows.later {plan previous : Plan} (h : Follows plan previous)
    (hpositive : 1 ≤ previous.revision) : 1 < plan.revision := by
  rw [h.revision]
  omega

/-!
## Lineage under each change
-/

theorem Chained.evolves {s s' : CoordinatorStore} {plan : Plan} (h : Chained s plan)
    (hevolves : Evolves s s') : Chained s' plan := by
  rcases h with hinitial | ⟨run, hrun, hfollows⟩
  · exact Or.inl hinitial
  · rcases hevolves.runs run hrun with ⟨status, hkept⟩
    exact Or.inr ⟨_, hkept, hfollows⟩

theorem inactive_evolves {s s' : CoordinatorStore} {run : RunRow} (hrun : run ∈ s.runs.rows)
    (hinactive : run.status ≠ .active) (hevolves : Evolves s s')
    (hrevived : RunActive s' run.planId -> RunActive s run.planId) :
    exists status, { run with status := status } ∈ s'.runs.rows ∧ status ≠ .active := by
  rcases hevolves.runs run hrun with ⟨status, hkept⟩
  refine ⟨status, hkept, ?_⟩
  intro hactive
  rcases hrevived ⟨_, hkept, rfl, hactive⟩ with ⟨other, hother, hplan, hstatus⟩
  rw [eq_of_planId hother hrun hplan] at hstatus
  exact hinactive hstatus

theorem Task.Lineal.evolves {s s' : CoordinatorStore} {t : Task} (h : t.Lineal s)
    (hlinked : forall run, run ∈ s.runs.rows -> Linked s run) (hevolves : Evolves s s')
    (hrevived : forall planId, t.replaces? = some planId -> RunActive s' planId ->
      RunActive s planId) : t.Lineal s' := by
  cases t with
  | replanFrom previous goal nowMs =>
      rcases h with ⟨run, hrun, rfl, rfl, hinactive⟩
      have hplanId := (hlinked run hrun).planId
      rcases inactive_evolves hrun hinactive hevolves
        (fun h => hrevived run.planId (congrArg some hplanId.symm) h) with ⟨status, hkept, hstatus⟩
      exact ⟨_, hkept, rfl, rfl, hstatus⟩
  | createRun goal plan assignments nowMs =>
      rcases h with ⟨hgoal, hpositive, hinitial | ⟨run, hrun, hfollows, hinactive⟩⟩
      · exact ⟨hgoal, hpositive, Or.inl hinitial⟩
      · have hplanId := (hlinked run hrun).planId
        have hreplaces : plan.supersedesPlanId = some run.planId := by
          rw [hplanId]
          exact hfollows.supersedesPlanId
        rcases inactive_evolves hrun hinactive hevolves
          (hrevived run.planId hreplaces) with ⟨status, hkept, hstatus⟩
        exact ⟨hgoal, hpositive, Or.inr ⟨_, hkept, hfollows, hstatus⟩⟩
  | prepareMany goals prepared nowMs => exact h
  | _ => trivial

theorem Linked.evolves {s s' : CoordinatorStore} {run : RunRow} (h : Linked s run)
    (hevolves : Evolves s s') (status : RunStatus) :
    Linked s' { run with status := status } where
  planId := h.planId
  goalId := h.goalId
  positive := h.positive
  chained := h.chained.evolves hevolves

theorem linked_committed {s s' : CoordinatorStore} {operation : Operation} {t : Task}
    (hlinked : forall run, run ∈ s.runs.rows -> Linked s run)
    (hoperation : t.operation? = some operation) (ht : t.Lineal s)
    (hcommitted : Committed s operation s') (run' : RunRow) (hrun' : run' ∈ s'.runs.rows) :
    Linked s' run' := by
  have hevolves := hcommitted.evolves
  rcases hcommitted.restated_or_extended with ⟨_, g, _, hruns, _⟩ |
    ⟨goal, plan, assignments, nowMs, rfl, _, hruns, _⟩
  · rw [hruns] at hrun'
    rcases List.mem_map.mp hrun' with ⟨run, hrun, rfl⟩
    exact (hlinked run hrun).evolves hevolves _
  · rw [hruns] at hrun'
    rcases List.mem_append.mp hrun' with hold | hnew
    · exact (hlinked run' hold).evolves hevolves run'.status
    · rw [List.mem_singleton.mp hnew]
      have htask : t = .createRun goal plan assignments nowMs := by
        cases t <;> cases hoperation
        rfl
      subst htask
      rcases ht with ⟨hgoal, hpositive, hsuccession⟩
      refine ⟨rfl, hgoal, hpositive, Chained.evolves ?_ hevolves⟩
      exact hsuccession.imp_right (fun ⟨run, hrun, hfollows, _⟩ => ⟨run, hrun, hfollows⟩)

theorem start_lineal (entry : Entry) (t : Task) (ht : t ∈ start entry) (s : CoordinatorStore) :
    t.Lineal s := by
  cases start_cases ht <;> trivial

theorem exec_same {config : Config} {m : Memory} {t : Task} {r : Reading}
    (h : t.operation? = none) : (exec config m t r).1.store = m.store := by
  rcases exec_stored config m t r with hsame | ⟨operation, hoperation, _⟩
  · exact hsame
  · rw [h] at hoperation
    cases hoperation

theorem lineal_left {config : Config} {m : Memory} {t t' : Task} {r : Reading}
    (hlinked : forall run, run ∈ m.store.runs.rows -> Linked m.store run)
    (ht : t.Lineal m.store)
    (hproposes : t.submits = true -> forall plan, r.proposal = some plan -> plan.revision = 1)
    (hleft : t' ∈ (exec config m t r).2.tasks) : t'.Lineal (exec config m t r).1.store := by
  cases exec_succeeds config m r hleft with
  | submitted hprepare hcreated =>
      rcases prepare_initial hprepare (hproposes rfl) with ⟨hgoal, hinitial⟩
      simp only [created, announce, List.mem_cons, List.not_mem_nil, or_false] at hcreated
      rcases hcreated with rfl | rfl | rfl | rfl
      · exact ⟨hgoal, by rw [hinitial.revision], Or.inl hinitial⟩
      all_goals trivial
  | batched goals nowMs =>
      intro run hrun
      cases hrun
  | preparedOne hprepare =>
      intro run hrun
      rcases List.mem_append.mp hrun with hold | hnew
      · exact ht run hold
      · rw [List.mem_singleton.mp hnew]
        exact prepare_initial hprepare (hproposes rfl)
  | createsPrepared hrun =>
      rcases ht _ hrun with ⟨hgoal, hinitial⟩
      exact ⟨hgoal, by rw [hinitial.revision], Or.inl hinitial⟩
  | announcesPrepared hrun hannounced =>
      simp only [announce, List.mem_cons, List.not_mem_nil, or_false] at hannounced
      rcases hannounced with rfl | rfl | rfl
      all_goals trivial
  | @guarded _ run _ hrun hstatus =>
      rw [exec_same rfl]
      exact ⟨run, (run?_eq_some hrun).1, rfl, rfl, hstatus⟩
  | replanned hprepare hsupersedes hcreated =>
      rw [exec_same rfl]
      simp only [created, announce, List.mem_cons, List.not_mem_nil, or_false] at hcreated
      rcases hcreated with rfl | rfl | rfl | rfl
      · rcases ht with ⟨run, hrun, rfl, rfl, hinactive⟩
        rcases prepare_lineage hprepare with ⟨_, hgoal, hpositive, _⟩
        have hsame := (hlinked run hrun).goalId
        exact ⟨hgoal, hpositive, Or.inr ⟨run, hrun, ⟨hsupersedes, hgoal.trans hsame.symm⟩,
          hinactive⟩⟩
      all_goals trivial
  | _ => trivial

theorem lineal_keeps (config : Config) :
    (machine config).Keeps KeepsLineage (fun _ _ => True) Lineal where
  drop h hle := ⟨h.linked, fun t ht => h.tasks t (Multiset.mem_of_le hle ht)⟩
  spawn {m ts entry} _ h _ := by
    refine ⟨h.linked, ?_⟩
    intro t ht
    rcases Multiset.mem_add.mp ht with hold | hnew
    · exact h.tasks t hold
    · exact start_lineal entry t (Multiset.mem_coe.mp hnew) m.store
  crash {m ts} _ h := by
    constructor
    · intro run' hrun'
      have hrestated : ((machine config).restart m).store.runs.rows = _ := rows_setRuns _ _ _
      rw [hrestated] at hrun'
      rcases List.mem_map.mp hrun' with ⟨run, hrun, rfl⟩
      exact (h.linked run hrun).evolves Committed.recovered.evolves _
    · intro t ht
      cases Multiset.notMem_zero t ht
  exec {m t ts r} _ h hcondition := by
    have ht : t.Lineal m.store := h.tasks t (Multiset.mem_cons_self t ts)
    constructor
    · show forall run, run ∈ (exec config m t r).1.store.runs.rows ->
        Linked (exec config m t r).1.store run
      rcases exec_committed config m t r with hsame | ⟨operation, hoperation, hcommitted⟩
      · rw [hsame]
        exact h.linked
      · exact linked_committed h.linked hoperation ht hcommitted
    · intro t' ht'
      rcases Multiset.mem_add.mp ht' with hnew | hold
      · exact lineal_left h.linked ht hcondition.1 (Multiset.mem_coe.mp hnew)
      · apply (h.tasks t' (Multiset.mem_cons_of_mem hold)).evolves h.linked
          (exec_evolves config m t r)
        intro planId hreplaces hactive
        rcases exec_stored config m t r with hsame | ⟨operation, hoperation, hstore⟩
        · rw [hsame] at hactive
          exact hactive
        · rw [hstore] at hactive
          exact hcondition.2 operation hoperation t' planId hold hreplaces hactive

theorem initial_lineal : Lineal Memory.initial 0 where
  linked run hrun := by cases hrun
  tasks t ht := by cases Multiset.notMem_zero t ht

/-- In a run that keeps the lineage, every stored plan of a later revision has its stored
predecessor, every stored initial plan supersedes nothing, and a thread that is about to
create the run of a later revision finds the predecessor's run not active. -/
theorem plan_lineage (config : Config) (p : Pool Memory Task)
    (hp : (machine config).Reaches KeepsLineage initial p) :
    (forall run, run ∈ p.shared.store.runs.rows ->
      (1 < run.plan.revision -> exists previous, previous ∈ p.shared.store.runs.rows ∧
        Follows run.plan previous.plan) ∧
      (run.plan.revision = 1 -> run.plan.supersedesPlanId = none)) ∧
    forall i goal plan assignments nowMs,
      p.nextTask i = some (.createRun goal plan assignments nowMs) -> 1 < plan.revision ->
        exists previous, previous ∈ p.shared.store.runs.rows ∧ Follows plan previous.plan ∧
          previous.status ≠ .active := by
  have h := (lineal_keeps config).reaches hp (fun _ _ => trivial) initial_lineal
  constructor
  · intro run hrun
    have hlinked := h.linked run hrun
    rcases hlinked.chained with hinitial | ⟨previous, hprevious, hfollows⟩
    · constructor
      · intro hlater
        have hone := hinitial.revision
        omega
      · exact fun _ => hinitial.supersedesPlanId
    · constructor
      · exact fun _ => ⟨previous, hprevious, hfollows⟩
      · intro hone
        have hlater := hfollows.later (h.linked previous hprevious).positive
        omega
  · intro i goal plan assignments nowMs hnext hlater
    rcases (h.tasks _ (Machine.nextTask_mem hnext)).2.2 with hinitial | hfound
    · have hone := hinitial.revision
      omega
    · exact hfound

/-!
## A successor and a plan without a predecessor
-/

/-- A test for the condition: initial plans only, and no operation beside a thread that is
about to replace a run. -/
def keepsLineage (p : Pool Memory Task) : Action Reading Entry -> Bool
  | .run i r =>
      match p.nextTask i with
      | some t =>
          (!t.submits || r.proposal.all (fun plan => plan.revision == 1)) &&
            p.threads.flatten.all (fun t' => t'.replaces?.isNone)
      | none => true
  | _ => true

theorem keepsLineage_of_unreplaced {m : Memory} {ts : Multiset Task} {t : Task} {r : Reading}
    (hproposes : t.submits = true -> forall plan, r.proposal = some plan -> plan.revision = 1)
    (hothers : forall t', t' ∈ ts -> t'.replaces? = none) : KeepsLineage m ts (.exec t r) := by
  refine ⟨hproposes, ?_⟩
  intro operation _ t' planId ht' hreplaces
  rw [hothers t' ht'] at hreplaces
  cases hreplaces

theorem meets_of_keepsLineage (p : Pool Memory Task) (a : Action Reading Entry)
    (h : keepsLineage p a = true) : Machine.Meets KeepsLineage p a := by
  cases a with
  | run i r =>
      intro t others hnext htasks
      simp only [keepsLineage, hnext, Bool.and_eq_true, Bool.or_eq_true, Bool.not_eq_true',
        List.all_eq_true, Option.isNone_iff_eq_none] at h
      apply keepsLineage_of_unreplaced
      · intro hsubmits plan hproposal
        have hrevision := h.1.resolve_left (by simp [hsubmits])
        simpa [hproposal] using hrevision
      · intro t' ht'
        apply h.2
        have hmem : t' ∈ p.tasks := by
          rw [htasks]
          exact Multiset.mem_cons_of_mem ht'
        exact Multiset.mem_coe.mp hmem
  | _ => trivial

theorem step_lineage {config : Config} {p : Pool Memory Task} {t : Task} {rest : List Task}
    {r : Reading} {m : Memory} {flow : Flow Task} (hidle : p.threads.flatten = [])
    (hsubmits : t.submits = false) (hrest : forall t', t' ∈ rest -> t'.replaces? = none)
    (h : exec config p.shared t r = (m, flow)) :
    (machine config).Step KeepsLineage (withThread p (t :: rest))
      (withThread { p with shared := m } (flow.resume rest)) := by
  refine ⟨_, ?_, step_withThread h⟩
  intro t' others hnext htasks
  rw [nextTask_withThread] at hnext
  cases hnext
  have hothers : others = (rest : Multiset Task) := by
    have hbag : (withThread p (t :: rest)).tasks = t ::ₘ (rest : Multiset Task) := by
      simp [withThread, Pool.tasks, hidle]
    exact (Multiset.cons_inj_right t).mp (htasks.symm.trans hbag)
  rw [hothers]
  apply keepsLineage_of_unreplaced
  · intro hsubmit
    rw [hsubmits] at hsubmit
    cases hsubmit
  · exact fun t' ht' => hrest t' (Multiset.mem_coe.mp ht')

set_option maxRecDepth 8000 in
theorem patrolFailed_lineage :
    (machine patrolConfig).Reaches KeepsLineage initial patrolFailed := by
  have hsubmitted : (machine patrolConfig).Reaches KeepsLineage initial
      (patrolSubmitted ["s1"]) := by
    apply patrolSubmitted_reached (Or.inr rfl) trivial
    apply keepsLineage_of_unreplaced
    · intro _ plan hproposal
      cases hproposal
      rfl
    · intro t' ht'
      cases Multiset.notMem_zero t' ht'
  have hrun : (machine patrolConfig).runWhere keepsLineage (patrolSubmitted ["s1"])
      (patrolMoves 0 9 ++ .spawn (.receive (patrolOutcome "a" "r1" .failed)) ::
        patrolMoves 1 4) = some patrolFailed := rfl
  exact hsubmitted.trans (Machine.runWhere_reaches meets_of_keepsLineage hrun)

def patrolLineage (p : Pool Memory Task) : List (String × Int × Option String) :=
  p.shared.store.runs.rows.map
    (fun run => (run.planId, run.plan.revision, run.plan.supersedesPlanId))

set_option maxRecDepth 8000 in
theorem patrol_lineage :
    exists p, patrolLineage p = [("p", 1, none), ("q", 2, some "p")] ∧
      forall run, run ∈ p.shared.store.runs.rows ->
        (1 < run.plan.revision -> exists previous, previous ∈ p.shared.store.runs.rows ∧
          Follows run.plan previous.plan) ∧
        (run.plan.revision = 1 -> run.plan.supersedesPlanId = none) := by
  have hrun : patrolFailed.shared.store.run? "p" = some
      { newRun patrolGoal (patrolPlan "p" (patrolSteps ["s1"])) 0 with status := .failed } := rfl
  have hnone : forall t', t' ∈ ([] : List Task) -> t'.replaces? = none := fun t' ht' => by
    cases ht'
  have hannounced : forall t', t' ∈ announce patrolGoal patrolSuccessor 0 ->
      t'.replaces? = none := by
    intro t' ht'
    simp only [announce, List.mem_cons, List.not_mem_nil, or_false] at ht'
    rcases ht' with rfl | rfl | rfl <;> rfl
  have hcalled : (machine patrolConfig).Reaches KeepsLineage initial
      (withThread patrolFailed [.replan "p" 0]) :=
    .tail patrolFailed_lineage ⟨.spawn (.replan "p" 0), trivial, rfl⟩
  have hguarded := hcalled.tail (step_lineage rfl rfl hnone
    (exec_replan patrolReplanning hrun (by decide)))
  have hplanned := hguarded.tail (step_lineage rfl rfl hnone
    (exec_replanFrom prepare_patrolSuccessor (patrolSuccessor_supersedes ["s1"])))
  have hcreated := hplanned.tail (step_lineage rfl rfl hannounced
    (exec_createRun patrolReplanning rfl))
  exact ⟨_, rfl, (plan_lineage patrolConfig _ hcreated).1⟩

set_option maxRecDepth 8000 in
/-- `submit` stores a second revision whose predecessor does not exist. -/
theorem patrol_submits_orphan :
    exists p, (machine patrolConfig).Reaches .always initial p ∧
      patrolLineage p = [("q", 2, some "p")] ∧
      ¬ forall run, run ∈ p.shared.store.runs.rows -> 1 < run.plan.revision ->
        exists previous, previous ∈ p.shared.store.runs.rows ∧
          Follows run.plan previous.plan := by
  have hsubmit : exec patrolConfig initial.shared (.submit patrolGoal 0) patrolReplanning =
      (initial.shared, .next (created patrolGoal patrolSuccessor
        patrolSuccessorAssignments 0)) := by
    rw [exec, prepare_patrolSuccessor]
    rfl
  have hcalled : (machine patrolConfig).Reaches .always initial
      (withThread initial [.submit patrolGoal 0]) :=
    .single ⟨.spawn (.submit patrolGoal 0), trivial, rfl⟩
  have hprepared := hcalled.tail ⟨_, Machine.meets_always _ _, step_withThread hsubmit⟩
  have hcreated := hprepared.tail ⟨_, Machine.meets_always _ _,
    step_withThread (exec_createRun patrolReplanning rfl)⟩
  refine ⟨_, hcreated, rfl, ?_⟩
  intro hchained
  rcases hchained _ List.mem_cons_self (by decide) with ⟨previous, hprevious, hfollows⟩
  rw [List.mem_singleton.mp hprevious] at hfollows
  exact hfollows.planId rfl

end Ump.Coordinator
