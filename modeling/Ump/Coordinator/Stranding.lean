import Ump.Coordinator.Effects

/-!
# Active runs can go on

## Stranded runs

A pending step waits for all its dependencies to succeed. Since a validated plan
has no cycle, an active run in which nothing is under way has a pending step that
waits for no pending one, and only a cancelled dependency could still block it.
-/

namespace Ump.Coordinator

open Foundation CoordinatorStore

def StepStatus.underway : StepStatus -> Bool
  | .dispatched | .accepted | .cancellationRequested => true
  | _ => false

/-- Every active run has a step under way, or a pending step that is ready. -/
def Progressing (s : CoordinatorStore) : Prop :=
  forall run, run ∈ s.runs.rows -> run.status = .active ->
    exists row, row ∈ s.runSteps.rows ∧ row.planId = run.planId ∧
      (row.status.underway = true ∨
        row.status = .pending ∧ s.dependenciesSucceeded row = true)

/-- The stored runs have validated plans, and the steps of a run are its plan's. -/
structure Planned (s : CoordinatorStore) : Prop where
  consistent : s.Consistent
  validated : forall run, run ∈ s.runs.rows -> Validated run.plan
  stored : forall run step, run ∈ s.runs.rows -> step ∈ run.plan.steps ->
    exists row, row ∈ s.runSteps.rows ∧ row.planId = run.planId ∧
      row.stepId = step.stepId
  planned : forall run row, run ∈ s.runs.rows -> row ∈ s.runSteps.rows ->
    row.planId = run.planId -> exists step, step ∈ run.plan.steps ∧
      step.stepId = row.stepId ∧ step.dependsOn = row.dependencies

def Unblocked (s : CoordinatorStore) : Prop :=
  forall row other, row ∈ s.runSteps.rows -> other ∈ s.runSteps.rows ->
    other.status = .pending -> other.planId = row.planId ->
    row.stepId ∈ other.dependencies -> row.status ≠ .cancelled

/-- No operation turns a step cancelled and leaves a step that depends on it pending. -/
def BlocksNoStep : Condition Memory Task Reading Entry
  | m, _, .exec t _ =>
      forall operation, t.operation? = some operation -> forall row other,
        row ∈ m.store.runSteps.rows -> row.status ≠ .cancelled ->
        { row with status := .cancelled } ∈ (m.store.apply operation).runSteps.rows ->
        other ∈ (m.store.apply operation).runSteps.rows -> other.status = .pending ->
        other.planId = row.planId -> row.stepId ∉ other.dependencies
  | _, _, .spawn _ => True

/-!
## Acyclic plans make progress
-/

theorem Planned.progressing {s : CoordinatorStore} (h : Planned s) (hfree : Unblocked s) :
    Progressing s := by
  intro run hrun hactive
  by_cases hunderway : exists row, row ∈ s.runSteps.rows ∧ row.planId = run.planId ∧
      row.status.underway = true
  · rcases hunderway with ⟨row, hrow, hplan, hstatus⟩
    exact ⟨row, hrow, hplan, Or.inl hstatus⟩
  · rw [h.consistent.refreshed run hrun, refreshStatus_eq_active] at hactive
    rcases hactive with ⟨hunknown, hfailed, hrejected, x, hx, hsucceeded, hcancelled⟩
    have hstatus : forall row, row ∈ s.runSteps.rows -> row.planId = run.planId ->
        row.status = .pending ∨ row.status = .succeeded ∨ row.status = .cancelled := by
      intro row hrow hplan
      have hmem : row.status ∈ s.stepStatuses run.planId :=
        mem_stepStatuses.mpr ⟨row, hrow, hplan, rfl⟩
      have hidle : row.status.underway = false := by
        by_contra hne
        exact hunderway ⟨row, hrow, hplan, by simpa using hne⟩
      cases hrowStatus : row.status with
      | pending | succeeded | cancelled => simp
      | unknown => exact absurd (hrowStatus ▸ hmem) hunknown
      | failed => exact absurd (hrowStatus ▸ hmem) hfailed
      | rejected => exact absurd (hrowStatus ▸ hmem) hrejected
      | _ =>
          rw [hrowStatus] at hidle
          cases hidle
    let waiting := fun stepId => exists row, row ∈ s.runSteps.rows ∧
      row.planId = run.planId ∧ row.stepId = stepId ∧ row.status = .pending
    have hsome : exists step, step ∈ run.plan.steps ∧ waiting step.stepId := by
      rcases mem_stepStatuses.mp hx with ⟨row, hrow, hplan, rfl⟩
      rcases h.planned run row hrun hrow hplan with ⟨step, hstep, hid, _⟩
      refine ⟨step, hstep, row, hrow, hplan, hid.symm, ?_⟩
      rcases hstatus row hrow hplan with hpending | hdone | hdone
      · exact hpending
      · exact absurd hdone hsucceeded
      · exact absurd hdone hcancelled
    have hwaiting : forall stepId, waiting stepId ->
        exists step, step ∈ run.plan.steps ∧ step.stepId = stepId := by
      rintro stepId ⟨row, hrow, hplan, rfl, _⟩
      rcases h.planned run row hrun hrow hplan with ⟨step, hstep, hid, _⟩
      exact ⟨step, hstep, hid⟩
    -- a minimal waiting step depends on no waiting one, and on no cancelled one
    rcases (h.validated run hrun).exists_minimal hsome hwaiting with
      ⟨step, hstep, ⟨row, hrow, hplan, hid, hpending⟩, hminimal⟩
    refine ⟨row, hrow, hplan, Or.inr ⟨hpending, ?_⟩⟩
    rcases h.planned run row hrun hrow hplan with ⟨step', hstep', hid', hdependencies⟩
    have hsame : step' = step :=
      List.inj_on_of_nodup_map (h.validated run hrun).stepIds hstep' hstep
        (hid'.trans hid)
    subst hsame
    unfold dependenciesSucceeded
    rw [List.all_eq_true]
    intro d hd
    rw [← hdependencies] at hd
    rcases List.mem_map.mp ((h.validated run hrun).known step' hstep d hd) with
      ⟨needed, hneeded, rfl⟩
    rcases h.stored run needed hrun hneeded with ⟨other, hother, hotherPlan, hotherId⟩
    refine List.any_eq_true.mpr ⟨other, hother, ?_⟩
    have hdone : other.status = .succeeded := by
      rcases hstatus other hother hotherPlan with hwait | hdone | hblocked
      · exact absurd ⟨other, hother, hotherPlan, hotherId, hwait⟩
          (hminimal needed.stepId hd)
      · exact hdone
      · refine absurd hblocked (hfree other row hother hrow hpending
          (hplan.trans hotherPlan.symm) ?_)
        rw [hotherId, ← hdependencies]
        exact hd
    simp [hotherPlan, hplan, hotherId, hdone]

/-!
## What each operation keeps
-/

theorem Planned.restated {s s' : CoordinatorStore} (h : Planned s)
    (hrestated : Restated s s') (hconsistent : s'.Consistent) : Planned s' := by
  rcases hrestated with ⟨f, g, hsteps, hruns, _⟩
  constructor
  · exact hconsistent
  · intro run' hrun'
    rw [hruns] at hrun'
    rcases List.mem_map.mp hrun' with ⟨run, hrun, rfl⟩
    exact h.validated run hrun
  · intro run' step hrun' hstep
    rw [hruns] at hrun'
    rcases List.mem_map.mp hrun' with ⟨run, hrun, rfl⟩
    rcases h.stored run step hrun hstep with ⟨row, hrow, hplan, hid⟩
    refine ⟨{ row with status := f row }, ?_, hplan, hid⟩
    rw [hsteps]
    exact List.mem_map.mpr ⟨row, hrow, rfl⟩
  · intro run' row' hrun' hrow' hplan
    rw [hruns] at hrun'
    rw [hsteps] at hrow'
    rcases List.mem_map.mp hrun' with ⟨run, hrun, rfl⟩
    rcases List.mem_map.mp hrow' with ⟨row, hrow, rfl⟩
    exact h.planned run row hrun hrow hplan

theorem Planned.extended {s s' : CoordinatorStore} {operation : Operation}
    (h : Planned s) (hextended : Extended s s' operation)
    (hprepared : forall goal plan assignments nowMs,
      operation = .createRun goal plan assignments nowMs -> Prepares plan assignments)
    (hconsistent : s'.Consistent) : Planned s' := by
  rcases hextended with ⟨goal, plan, assignments, nowMs, rfl, hnew, hruns, hsteps⟩
  have hprepares := hprepared goal plan assignments nowMs rfl
  have hfresh := run?_eq_none.mp hnew
  constructor
  · exact hconsistent
  · intro run hrun
    rw [hruns] at hrun
    rcases List.mem_append.mp hrun with hold | hadded
    · exact h.validated run hold
    · rw [List.mem_singleton.mp hadded]
      exact hprepares.validated
  · intro run step hrun hstep
    rw [hruns] at hrun
    rw [hsteps]
    rcases List.mem_append.mp hrun with hold | hadded
    · rcases h.stored run step hold hstep with ⟨row, hrow, hplan, hid⟩
      exact ⟨row, List.mem_append_left _ hrow, hplan, hid⟩
    · rw [List.mem_singleton.mp hadded] at hstep ⊢
      have hmem : step ∈ assignments.map (fun assignment => assignment.step) := by
        rw [hprepares.steps]
        exact hstep
      rcases List.mem_map.mp hmem with ⟨assignment, hassignment, rfl⟩
      exact ⟨newStep plan.planId assignment, List.mem_append_right _
        (List.mem_map.mpr ⟨assignment, hassignment, rfl⟩), rfl, rfl⟩
  · intro run row hrun hrow hplan
    rw [hruns] at hrun
    rw [hsteps] at hrow
    rcases List.mem_append.mp hrun with hold | hadded
    · rcases List.mem_append.mp hrow with hrow | hrow
      · exact h.planned run row hold hrow hplan
      · rcases List.mem_map.mp hrow with ⟨assignment, _, rfl⟩
        exact absurd hplan.symm (hfresh run hold)
    · rw [List.mem_singleton.mp hadded] at hplan ⊢
      rcases List.mem_append.mp hrow with hrow | hrow
      · rcases h.consistent.anchored row hrow with ⟨anchor, hanchor, hanchorPlan⟩
        exact absurd (hanchorPlan.trans hplan) (hfresh anchor hanchor)
      · rcases List.mem_map.mp hrow with ⟨assignment, hassignment, rfl⟩
        refine ⟨assignment.step, ?_, rfl, rfl⟩
        show assignment.step ∈ plan.steps
        rw [← hprepares.steps]
        exact List.mem_map.mpr ⟨assignment, hassignment, rfl⟩

theorem Planned.committed {s s' : CoordinatorStore} {operation : Operation}
    (h : Planned s) (hcommitted : Committed s operation s')
    (hprepared : forall goal plan assignments nowMs,
      operation = .createRun goal plan assignments nowMs -> Prepares plan assignments) :
    Planned s' := by
  have hoperation : operation.HasSteps := by
    cases operation with
    | createRun goal plan assignments nowMs =>
        have hprepares := hprepared goal plan assignments nowMs rfl
        intro hnil
        apply hprepares.validated.nonempty
        rw [← hprepares.steps, hnil]
        rfl
    | _ => trivial
  have hconsistent := hcommitted.consistent hoperation h.consistent
  rcases hcommitted.restated_or_extended with hrestated | hextended
  · exact h.restated hrestated hconsistent
  · exact h.extended hextended hprepared hconsistent

theorem Unblocked.committed {s s' : CoordinatorStore} {operation : Operation}
    (h : Unblocked s) (hconsistent : s.Consistent)
    (hcommitted : Committed s operation s')
    (hcondition : forall row other, row ∈ s.runSteps.rows -> row.status ≠ .cancelled ->
      { row with status := .cancelled } ∈ s'.runSteps.rows ->
      other ∈ s'.runSteps.rows -> other.status = .pending ->
      other.planId = row.planId -> row.stepId ∉ other.dependencies) : Unblocked s' := by
  intro row' other' hrow' hother' hpending hplan hdependency hcancelled
  rcases hcommitted.restated_or_extended with hrestated | hextended
  · rcases hrestated with ⟨f, g, hsteps, _, hmoves⟩
    have hmemRow := hrow'
    have hmemOther := hother'
    rw [hsteps] at hmemRow hmemOther
    rcases List.mem_map.mp hmemRow with ⟨row, hrow, rfl⟩
    rcases List.mem_map.mp hmemOther with ⟨other, hother, rfl⟩
    by_cases hbefore : row.status = .cancelled
    · have hotherPending : other.status = .pending := by
        by_contra hne
        exact StepStatus.ne_pending_of_moves hne (hmoves other hother) hpending
      exact h row other hrow hother hotherPending hplan hdependency hbefore
    · have hturned : { row with status := .cancelled } ∈ s'.runSteps.rows := by
        have hstatus : f row = .cancelled := hcancelled
        rw [← hstatus]
        exact hrow'
      exact hcondition row _ hrow hbefore hturned hother' hpending hplan hdependency
  · rcases hextended with ⟨goal, plan, assignments, nowMs, _, hnew, _, hsteps⟩
    rw [hsteps] at hrow' hother'
    rcases List.mem_append.mp hrow' with hrow | hrow
    · rcases List.mem_append.mp hother' with hother | hother
      · exact h row' other' hrow hother hpending hplan hdependency hcancelled
      · rcases List.mem_map.mp hother with ⟨assignment, _, rfl⟩
        rcases hconsistent.anchored row' hrow with ⟨run, hrun, hrunPlan⟩
        exact run?_eq_none.mp hnew run hrun (hrunPlan.trans hplan.symm)
    · rcases List.mem_map.mp hrow with ⟨assignment, _, rfl⟩
      cases hcancelled

/-!
## The invariant over runs
-/

structure Unstranded (m : Memory) (ts : Multiset Task) : Prop where
  planned : Planned m.store
  unblocked : Unblocked m.store
  prepared : forall t, t ∈ ts -> t.Prepared

/-- Runs of validated plans are stored, and tasks create only such runs. -/
structure Recorded (m : Memory) (ts : Multiset Task) : Prop where
  planned : Planned m.store
  prepared : forall t, t ∈ ts -> t.Prepared

theorem prepares_of_operation {t : Task} (ht : t.Prepared) {operation : Operation}
    (hoperation : t.operation? = some operation) (goal : SharedGoal) (plan : Plan)
    (assignments : List Assignment) (nowMs : Int)
    (hcreate : operation = .createRun goal plan assignments nowMs) :
    Prepares plan assignments := by
  subst hcreate
  cases t with
  | createRun goal plan assignments nowMs =>
      cases hoperation
      exact ht
  | _ => cases hoperation

theorem recorded_keeps (config : Config) :
    (machine config).Keeps .always (fun _ _ => True) Recorded where
  drop h hle := ⟨h.planned, fun t ht => h.prepared t (Multiset.mem_of_le hle ht)⟩
  spawn {m ts entry} _ h _ := by
    refine ⟨h.planned, ?_⟩
    intro t ht
    rcases Multiset.mem_add.mp ht with hold | hnew
    · exact h.prepared t hold
    · exact (start_quiet_prepared entry t (Multiset.mem_coe.mp hnew)).2
  crash {m ts} _ h := by
    constructor
    · exact h.planned.committed Committed.recovered (fun _ _ _ _ hcreate => by cases hcreate)
    · intro t ht
      cases Multiset.notMem_zero t ht
  exec {m t ts r} _ h _ := by
    have ht : t.Prepared := h.prepared t (Multiset.mem_cons_self t ts)
    have heffect := exec_effect config m t r
    constructor
    · rcases exec_committed config m t r with hsame | ⟨operation, hoperation, hcommitted⟩
      · show Planned (exec config m t r).1.store
        rw [hsame]
        exact h.planned
      · exact h.planned.committed hcommitted (prepares_of_operation ht hoperation)
    · intro t' ht'
      rcases Multiset.mem_add.mp ht' with hnew | hold
      · exact heffect.prepared ht t' (Multiset.mem_coe.mp hnew)
      · exact h.prepared t' (Multiset.mem_cons_of_mem hold)

theorem initial_recorded : Recorded Memory.initial 0 where
  planned :=
    { consistent := empty_consistent
      validated := fun run hrun => by cases hrun
      stored := fun run step hrun => by cases hrun
      planned := fun run row hrun => by cases hrun }
  prepared t ht := by cases Multiset.notMem_zero t ht

theorem reaches_recorded {config : Config} {p : Pool Memory Task}
    (h : (machine config).Reaches .always initial p) : Recorded p.shared p.tasks :=
  (recorded_keeps config).reaches h (fun _ _ => trivial) initial_recorded

theorem not_turned_cancelled {s : CoordinatorStore} {p : StepRow -> Bool}
    {status : StepStatus} (hstatus : status ≠ .cancelled) {row : StepRow}
    (hrow : row ∈ s.runSteps.rows) (hne : row.status ≠ .cancelled) :
    { row with status := .cancelled } ∉ (s.setSteps p status).runSteps.rows := by
  intro hturned
  rw [rows_setSteps] at hturned
  rcases List.mem_map.mp hturned with ⟨old, hold, hsame⟩
  have hid : old.assignmentId = row.assignmentId := (StepRow.mk.inj hsame).1
  rw [eq_of_assignmentId hold hrow hid] at hsame
  have hcancelled := (StepRow.mk.inj hsame).2.2.2.2.2
  by_cases hp : p row = true
  · exact hstatus (by simpa [hp] using hcancelled)
  · exact hne (by simpa [hp] using hcancelled)

theorem unstranded_keeps (config : Config) :
    (machine config).Keeps BlocksNoStep (fun _ _ => True) Unstranded where
  drop h hle := ⟨h.planned, h.unblocked, fun t ht => h.prepared t (Multiset.mem_of_le hle ht)⟩
  spawn {m ts entry} _ h _ := by
    have hrecorded := (recorded_keeps config).spawn (e := entry) trivial
      ⟨h.planned, h.prepared⟩ trivial
    exact ⟨h.planned, h.unblocked, hrecorded.prepared⟩
  crash {m ts} _ h := by
    have hrecorded := (recorded_keeps config).crash trivial ⟨h.planned, h.prepared⟩
    refine ⟨hrecorded.planned, ?_, hrecorded.prepared⟩
    apply h.unblocked.committed h.planned.consistent Committed.recovered
    intro row other hrow hne hturned
    exact absurd hturned (not_turned_cancelled (by decide) hrow hne)
  exec {m t ts r} _ h hcondition := by
    have hrecorded := (recorded_keeps config).exec (r := r) trivial
      ⟨h.planned, h.prepared⟩ trivial
    refine ⟨hrecorded.planned, ?_, hrecorded.prepared⟩
    show Unblocked (exec config m t r).1.store
    generalize hresult : exec config m t r = result
    have heffect : Effect m t result := hresult ▸ exec_effect config m t r
    cases heffect with
    | quiet hstore _ _ =>
        rw [hstore]
        exact h.unblocked
    | @committed _ _ operation hoperation hstore _ _ =>
        have hcommitted : Committed m.store operation result.1.store := by
          rw [hstore]
          exact apply_committed m.store operation
        apply h.unblocked.committed h.planned.consistent hcommitted
        rw [hstore]
        exact hcondition operation hoperation
    | @marked a nowMs row _ _ _ =>
        apply h.unblocked.committed h.planned.consistent (Committed.marked a.assignmentId nowMs)
        intro row other hrow hne hturned
        exact absurd hturned (not_turned_cancelled (by decide) hrow hne)
    | _ => exact h.unblocked

theorem initial_unstranded : Unstranded Memory.initial 0 where
  planned := initial_recorded.planned
  unblocked row other hrow := by cases hrow
  prepared := initial_recorded.prepared

/-- In a run in which no operation blocks a pending step, every active run of every
reachable state has a step under way or a step that is ready. -/
theorem active_runs_progress (config : Config) (p : Pool Memory Task)
    (hp : (machine config).Reaches BlocksNoStep initial p) : Progressing p.shared.store := by
  have h := (unstranded_keeps config).reaches hp (fun _ _ => trivial) initial_unstranded
  exact h.planned.progressing h.unblocked

/-!
## Two runs of the small mission

The second step depends on the first. A success of the first one makes it ready;
a cancelled outcome of the first one, which nobody requested, strands the run.
-/

/-- A test for the condition: a recorded status is not `CANCELLED`. -/
def recordsNoCancelled (p : Pool Memory Task) : Action Reading Entry -> Bool
  | .run i _ =>
      match (p.nextTask i).bind Task.operation? with
      | some operation =>
          (p.shared.store.apply operation).runSteps.rows.all
            (fun row => row.status != .cancelled)
      | none => true
  | _ => true

theorem meets_of_recordsNoCancelled (p : Pool Memory Task) (a : Action Reading Entry)
    (h : recordsNoCancelled p a = true) : Machine.Meets BlocksNoStep p a := by
  cases a with
  | run i r =>
      intro t others hnext _ operation hoperation row other _ _ hturned
      have hall : forall row, row ∈ (p.shared.store.apply operation).runSteps.rows ->
          row.status ≠ .cancelled := by
        simpa [recordsNoCancelled, hnext, hoperation] using h
      exact absurd rfl (hall _ hturned)
  | _ => trivial

theorem patrol_progresses :
    exists p, (machine patrolConfig).runWhere recordsNoCancelled (patrolSubmitted ["s1"])
        (patrolMoves 0 9 ++ .spawn (.receive (patrolOutcome "a" "r1" .succeeded)) ::
          patrolMoves 1 3) = some p ∧
      p.shared.store.runSteps.rows.map (fun row => row.status) = [.succeeded, .pending] ∧
      Progressing p.shared.store := by
  have hstatuses : ((machine patrolConfig).runWhere recordsNoCancelled
      (patrolSubmitted ["s1"])
      (patrolMoves 0 9 ++ .spawn (.receive (patrolOutcome "a" "r1" .succeeded)) ::
        patrolMoves 1 3)).map
        (fun p => p.shared.store.runSteps.rows.map (fun row => row.status)) =
      some [.succeeded, .pending] := by
    decide
  rcases Option.map_eq_some_iff.mp hstatuses with ⟨p, hrun, hstatuses⟩
  have hsubmitted : (machine patrolConfig).Reaches BlocksNoStep initial
      (patrolSubmitted ["s1"]) := by
    refine patrolSubmitted_reached (Or.inr rfl) trivial ?_
    intro operation hoperation
    cases hoperation
  exact ⟨p, hrun, hstatuses, active_runs_progress patrolConfig p
    (hsubmitted.trans (Machine.runWhere_reaches meets_of_recordsNoCancelled hrun))⟩

/-- The run is active, its second step waits for a cancelled one, and no thread has
anything left to do. -/
theorem patrol_stranded :
    exists p, (machine patrolConfig).run (patrolSubmitted ["s1"])
        (patrolMoves 0 9 ++ .spawn (.receive (patrolOutcome "a" "r1" .cancelled)) ::
          patrolMoves 1 4) = some p ∧
      (machine patrolConfig).Reaches .always initial p ∧ p.tasks = 0 ∧
      ¬ Progressing p.shared.store := by
  have hview : ((machine patrolConfig).run (patrolSubmitted ["s1"])
      (patrolMoves 0 9 ++ .spawn (.receive (patrolOutcome "a" "r1" .cancelled)) ::
        patrolMoves 1 4)).map
        (fun p => (p.threads.map List.length,
          p.shared.store.runs.rows.map (fun run => run.status),
          p.shared.store.runSteps.rows.map
            (fun row => (row.status, p.shared.store.dependenciesSucceeded row)))) =
      some ([0, 0], [.active], [(.cancelled, true), (.pending, false)]) := by
    decide
  rcases Option.map_eq_some_iff.mp hview with ⟨p, hrun, hview⟩
  simp only [Prod.mk.injEq] at hview
  rcases hview with ⟨hthreads, hruns, hsteps⟩
  have hreached := (patrolSubmitted_reached (Or.inr rfl) trivial trivial).trans
    (Machine.run_reaches hrun)
  refine ⟨p, hrun, hreached, ?_, ?_⟩
  · have hlength : p.threads.flatten.length = 0 := by
      rw [List.length_flatten, hthreads]
      rfl
    exact congrArg Multiset.ofList (List.length_eq_zero_iff.mp hlength)
  · intro hprogressing
    have hactive : RunStatus.active ∈ p.shared.store.runs.rows.map (fun run => run.status) := by
      rw [hruns]
      exact List.mem_singleton.mpr rfl
    rcases List.mem_map.mp hactive with ⟨run, hmem, hstatus⟩
    rcases hprogressing run hmem hstatus with ⟨row, hrow, _, hready⟩
    have hrowView : (row.status, p.shared.store.dependenciesSucceeded row) ∈
        [(StepStatus.cancelled, true), (StepStatus.pending, false)] := by
      rw [← hsteps]
      exact List.mem_map.mpr ⟨row, hrow, rfl⟩
    simp only [List.mem_cons, Prod.mk.injEq, List.not_mem_nil, or_false] at hrowView
    rcases hrowView with ⟨hrowStatus, _⟩ | ⟨hrowStatus, hblocked⟩
    · rw [hrowStatus] at hready
      simp [StepStatus.underway] at hready
    · rw [hrowStatus, hblocked] at hready
      simp [StepStatus.underway] at hready

end Ump.Coordinator
