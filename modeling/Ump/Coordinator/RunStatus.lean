import Ump.Coordinator.Transitions

/-!
# The status of a run

## Recomputing a status

The run status is stored beside the step statuses, and some operations write
steps without calling `_refresh_run_locked`. The stored value is the recomputed
one after each of them all the same.
-/

namespace Ump.Coordinator

open Foundation

namespace CoordinatorStore

theorem mem_stepStatuses {s : CoordinatorStore} {planId : String} {status : StepStatus} :
    status ∈ s.stepStatuses planId <->
      exists row, row ∈ s.runSteps.rows ∧ row.planId = planId ∧ row.status = status := by
  unfold stepStatuses
  simp [and_assoc]

def unmarked : StepStatus -> StepStatus
  | .dispatched => .pending
  | status => status

theorem contains_map_unmarked {x : StepStatus} (hpending : x ≠ .pending)
    (hdispatched : x ≠ .dispatched) (statuses : List StepStatus) :
    (statuses.map unmarked).contains x = statuses.contains x := by
  induction statuses with
  | nil => rfl
  | cons head rest ih =>
      have hhead : (x == unmarked head) = (x == head) := by
        cases head with
        | dispatched => simp [unmarked, hpending, hdispatched]
        | _ => rfl
      rw [List.map_cons, List.contains_cons, List.contains_cons, ih, hhead]

theorem all_map_unmarked {p : StepStatus -> Bool} (hp : p .pending = p .dispatched)
    (statuses : List StepStatus) : (statuses.map unmarked).all p = statuses.all p := by
  induction statuses with
  | nil => rfl
  | cons head rest ih =>
      rw [List.map_cons, List.all_cons, List.all_cons, ih]
      cases head with
      | dispatched =>
          rw [← hp]
          rfl
      | _ => rfl

theorem refreshStatus_map_unmarked (statuses : List StepStatus) :
    refreshStatus (statuses.map unmarked) = refreshStatus statuses := by
  unfold refreshStatus
  rw [contains_map_unmarked (by decide) (by decide),
    contains_map_unmarked (by decide) (by decide),
    contains_map_unmarked (by decide) (by decide), all_map_unmarked rfl,
    all_map_unmarked rfl, List.isEmpty_map]

theorem refreshStatus_of_unknown {statuses : List StepStatus}
    (h : StepStatus.unknown ∈ statuses) : refreshStatus statuses = .unknown := by
  unfold refreshStatus
  rw [if_pos (by simpa using h)]

theorem contains_eq_false {statuses : List StepStatus} {p : StepStatus -> Prop}
    (hall : forall x, x ∈ statuses -> p x) {x : StepStatus} (hx : ¬ p x) :
    statuses.contains x = false := by
  simpa using fun hmem => hx (hall x hmem)

theorem refreshStatus_eq_succeeded {statuses : List StepStatus} :
    refreshStatus statuses = .succeeded <->
      statuses ≠ [] ∧ forall x, x ∈ statuses -> x = .succeeded := by
  unfold refreshStatus
  constructor
  · intro h
    split_ifs at h with _ _ hall
    simpa using hall
  · rintro ⟨hne, hall⟩
    rw [contains_eq_false hall (by decide), contains_eq_false hall (by decide),
      contains_eq_false hall (by decide), if_neg (by simp), if_neg (by simp)]
    exact if_pos (by simpa [hne] using hall)

theorem refreshStatus_eq_cancelled {statuses : List StepStatus} :
    refreshStatus statuses = .cancelled <->
      (statuses = [] ∨ StepStatus.cancelled ∈ statuses) ∧
        forall x, x ∈ statuses -> x = .succeeded ∨ x = .cancelled := by
  unfold refreshStatus
  constructor
  · intro h
    split_ifs at h with _ _ hsucceeded hall
    have hmembers : forall x, x ∈ statuses -> x = .succeeded ∨ x = .cancelled := by
      simpa using hall
    refine ⟨?_, hmembers⟩
    by_contra hnone
    rcases not_or.mp hnone with ⟨hne, hcancelled⟩
    refine hsucceeded ?_
    have honly : forall x, x ∈ statuses -> x = StepStatus.succeeded := by
      intro x hx
      rcases hmembers x hx with rfl | rfl
      · rfl
      · exact absurd hx hcancelled
    simpa [hne] using honly
  · rintro ⟨hsome, hall⟩
    rw [contains_eq_false hall (by decide), contains_eq_false hall (by decide),
      contains_eq_false hall (by decide), if_neg (by simp), if_neg (by simp), if_neg]
    · exact if_pos (by simpa using hall)
    · intro honly
      have honly' : statuses ≠ [] ∧ forall x, x ∈ statuses -> x = .succeeded := by
        simpa using honly
      rcases hsome with hnil | hmem
      · exact honly'.1 hnil
      · cases honly'.2 _ hmem

theorem refreshStatus_eq_active {statuses : List StepStatus} :
    refreshStatus statuses = .active <->
      StepStatus.unknown ∉ statuses ∧ StepStatus.failed ∉ statuses ∧
        StepStatus.rejected ∉ statuses ∧
        exists x, x ∈ statuses ∧ x ≠ .succeeded ∧ x ≠ .cancelled := by
  unfold refreshStatus
  constructor
  · intro h
    split_ifs at h with hunknown hfailed _ hall
    simp only [List.contains_eq_mem, Bool.or_eq_true, decide_eq_true_eq, not_or,
      List.all_eq_true, beq_iff_eq, not_forall] at hunknown hfailed hall
    rcases hall with ⟨x, hx, hne⟩
    exact ⟨hunknown, hfailed.1, hfailed.2, x, hx, hne⟩
  · rintro ⟨hunknown, hfailed, hrejected, x, hx, hsucceeded, hcancelled⟩
    rw [if_neg (by simpa using hunknown), if_neg (by simp [hfailed, hrejected]), if_neg,
      if_neg]
    · intro hall
      have hor := List.all_eq_true.mp hall x hx
      simp [hsucceeded, hcancelled] at hor
    · intro hall
      have hor := List.all_eq_true.mp (Bool.and_eq_true_iff.mp hall).2 x hx
      simp [hsucceeded] at hor

theorem refreshStatus_of_ended {statuses statuses' : List StepStatus}
    (hsame : forall x, x ∈ statuses' <-> x ∈ statuses)
    (hended : refreshStatus statuses = .succeeded ∨ refreshStatus statuses = .cancelled) :
    refreshStatus statuses' = refreshStatus statuses := by
  have hnil : statuses' = [] <-> statuses = [] := by
    rw [List.eq_nil_iff_forall_not_mem, List.eq_nil_iff_forall_not_mem]
    exact forall_congr' (fun x => not_congr (hsame x))
  rcases hended with hended | hended
  · rw [hended]
    rcases refreshStatus_eq_succeeded.mp hended with ⟨hne, hall⟩
    exact refreshStatus_eq_succeeded.mpr
      ⟨fun h => hne (hnil.mp h), fun x hx => hall x ((hsame x).mp hx)⟩
  · rw [hended]
    rcases refreshStatus_eq_cancelled.mp hended with ⟨hsome, hall⟩
    exact refreshStatus_eq_cancelled.mpr
      ⟨hsome.imp hnil.mpr (hsame _).mpr, fun x hx => hall x ((hsame x).mp hx)⟩

theorem settled_of_ended {statuses : List StepStatus}
    (hended : refreshStatus statuses = .succeeded ∨ refreshStatus statuses = .cancelled)
    (x : StepStatus) (hx : x ∈ statuses) : x.settled = true := by
  rcases hended with hended | hended
  · rw [(refreshStatus_eq_succeeded.mp hended).2 x hx]
    rfl
  · rcases (refreshStatus_eq_cancelled.mp hended).2 x hx with rfl | rfl <;> rfl

/-!
## The stored status is the recomputed one
-/

/-- Every stored run status is the recomputed one, and every step has its run. -/
structure Consistent (s : CoordinatorStore) : Prop where
  refreshed : forall run, run ∈ s.runs.rows ->
    run.status = refreshStatus (s.stepStatuses run.planId)
  anchored : forall row, row ∈ s.runSteps.rows ->
    exists run, run ∈ s.runs.rows ∧ run.planId = row.planId

/-- `create_run` is called with at least one assignment. -/
def Operation.HasSteps : Operation -> Prop
  | .createRun _ _ assignments _ => assignments ≠ []
  | _ => True

theorem empty_consistent : (empty : CoordinatorStore).Consistent where
  refreshed run hrun := by cases hrun
  anchored row hrow := by cases hrow

theorem anchored_of_evolves {s s' : CoordinatorStore}
    (hanchored : forall row, row ∈ s.runSteps.rows ->
      exists run, run ∈ s.runs.rows ∧ run.planId = row.planId)
    (h : Evolves s s') (row' : StepRow) (hrow' : row' ∈ s'.runSteps.rows) :
    exists run, run ∈ s'.runs.rows ∧ run.planId = row'.planId := by
  rcases h.origin row' hrow' with ⟨row, hrow, hsame, _⟩ |
    ⟨planId, assignment, rfl, _, run, hrun, hplan⟩
  · rcases hanchored row hrow with ⟨run, hrun, hplan⟩
    rcases h.runs run hrun with ⟨status, hkept⟩
    exact ⟨_, hkept, by rw [hsame]; exact hplan⟩
  · exact ⟨run, hrun, hplan⟩

theorem stepStatuses_of_map {s s' : CoordinatorStore} {f : StepRow -> StepStatus}
    (hsteps : s'.runSteps.rows =
      s.runSteps.rows.map (fun row => { row with status := f row }))
    (planId : String) :
    s'.stepStatuses planId =
      (s.runSteps.rows.filter (fun row => row.planId == planId)).map f := by
  unfold stepStatuses
  rw [hsteps, List.filter_map, List.map_map]
  rfl

theorem stepStatuses_of_map_ne {s s' : CoordinatorStore} {f : StepRow -> StepStatus}
    (hsteps : s'.runSteps.rows =
      s.runSteps.rows.map (fun row => { row with status := f row }))
    {planId : String}
    (hother : forall row, row ∈ s.runSteps.rows -> row.planId = planId ->
      f row = row.status) :
    s'.stepStatuses planId = s.stepStatuses planId := by
  rw [stepStatuses_of_map hsteps]
  refine List.map_congr_left ?_
  intro row hrow
  rcases List.mem_filter.mp hrow with ⟨hmem, hplan⟩
  exact hother row hmem (by simpa using hplan)

theorem refreshed_of_map {s t : CoordinatorStore} (hs : s.Consistent)
    {f : StepRow -> StepStatus} {planId : String} (hruns : t.runs = s.runs)
    (hsteps : t.runSteps.rows =
      s.runSteps.rows.map (fun row => { row with status := f row }))
    (hother : forall row, row ∈ s.runSteps.rows -> row.planId ≠ planId ->
      f row = row.status) (run : RunRow) (hrun : run ∈ (t.refreshed planId).runs.rows) :
    run.status = refreshStatus ((t.refreshed planId).stepStatuses run.planId) := by
  unfold CoordinatorStore.refreshed at hrun
  rw [rows_setRuns, hruns] at hrun
  rcases List.mem_map.mp hrun with ⟨old, hold, rfl⟩
  show _ = refreshStatus (t.stepStatuses old.planId)
  by_cases hplan : old.planId = planId
  · simp [hplan]
  · rw [stepStatuses_of_map_ne hsteps
      (fun row hrow heq => hother row hrow (fun h => hplan (heq.symm.trans h)))]
    simpa [hplan] using hs.refreshed old hold

theorem Committed.consistent {s s' : CoordinatorStore} {operation : Operation}
    (h : Committed s operation s') (hoperation : operation.HasSteps)
    (hs : s.Consistent) : s'.Consistent := by
  refine ⟨?_, anchored_of_evolves hs.anchored h.evolves⟩
  cases h with
  | unchanged => exact hs.refreshed
  | @created goal plan assignments nowMs s' hnew hruns hsteps =>
      intro run hrun
      rw [hruns] at hrun
      unfold stepStatuses
      rw [hsteps, List.filter_append, List.map_append]
      rcases List.mem_append.mp hrun with hold | hfresh
      · have hne : run.planId ≠ plan.planId := run?_eq_none.mp hnew run hold
        have hnone : (assignments.map (newStep plan.planId)).filter
            (fun row => row.planId == run.planId) = [] := by
          simp [newStep, Ne.symm hne]
        rw [hnone, List.map_nil, List.append_nil]
        exact hs.refreshed run hold
      · -- the new run: no older step has its plan, and every new step is pending
        rw [List.mem_singleton.mp hfresh]
        have hnone : s.runSteps.rows.filter (fun row => row.planId == plan.planId) = [] := by
          rw [List.filter_eq_nil_iff]
          intro row hrow hplan
          rcases hs.anchored row hrow with ⟨old, hold, hsame⟩
          exact run?_eq_none.mp hnew old hold (hsame.trans (by simpa using hplan))
        have hpending : (assignments.map (newStep plan.planId)).filter
            (fun row => row.planId == plan.planId) =
              assignments.map (newStep plan.planId) := by
          simp [newStep]
        have hmem : StepStatus.pending ∈
            (assignments.map (newStep plan.planId)).map (fun row => row.status) := by
          rcases List.exists_mem_of_ne_nil _ hoperation with ⟨assignment, hassignment⟩
          exact List.mem_map.mpr
            ⟨_, List.mem_map.mpr ⟨assignment, hassignment, rfl⟩, rfl⟩
        show RunStatus.active = refreshStatus (List.map _ (s.runSteps.rows.filter
          (fun row => row.planId == plan.planId)) ++ List.map _
            ((assignments.map (newStep plan.planId)).filter
              (fun row => row.planId == plan.planId)))
        rw [hnone, hpending, List.map_nil, List.nil_append]
        refine (refreshStatus_eq_active.mpr ⟨?_, ?_, ?_, .pending, hmem, ?_, ?_⟩).symm <;>
          simp [newStep]
  | marked assignmentId nowMs =>
      intro run hrun
      have hsteps := rows_setSteps s
        (fun row => row.assignmentId == assignmentId && row.status == .pending) .dispatched
      rw [show (s.marked assignmentId).stepStatuses run.planId = _ from
          stepStatuses_of_map hsteps run.planId, ← refreshStatus_map_unmarked,
        List.map_map, hs.refreshed run hrun, ← refreshStatus_map_unmarked]
      unfold stepStatuses
      rw [List.map_map]
      congr 1
      refine List.map_congr_left ?_
      intro row _
      by_cases hselected : row.assignmentId = assignmentId ∧ row.status = .pending
      · simp [hselected, unmarked]
      · simp [hselected]
  | @written _ row target hrow htarget hmoves =>
      refine refreshed_of_map hs rfl (rows_setSteps _ _ _) ?_
      intro other hother hplan
      have hid : other.assignmentId ≠ row.assignmentId := by
        intro hid
        exact hplan (by rw [eq_of_assignmentId hother hrow hid])
      simp [hid]
  | refreshed operation planId =>
      exact refreshed_of_map (f := fun row => row.status) hs rfl (by simp)
        (fun _ _ _ => rfl)
  | cancelled planId nowMs =>
      refine refreshed_of_map hs rfl (rows_cancelled s planId) ?_
      intro row _ hplan
      simp [cancelledStatus, hplan]
  | recovered =>
      intro run hrun
      have hsteps := rows_setSteps s (fun row => row.status.interrupted) .unknown
      unfold recoverInterruptedRuns at hrun
      rw [rows_setRuns, runs_setSteps] at hrun
      rcases List.mem_map.mp hrun with ⟨old, hold, rfl⟩
      show _ = refreshStatus
        ((s.setSteps (fun row => row.status.interrupted) .unknown).stepStatuses old.planId)
      by_cases haffected : exists row, row ∈ s.runSteps.rows ∧
          row.status.interrupted = true ∧ row.planId = old.planId
      · rcases haffected with ⟨row, hrow, hinterrupted, hplan⟩
        have hunknown : StepStatus.unknown ∈ (s.setSteps
            (fun row => row.status.interrupted) .unknown).stepStatuses old.planId := by
          rw [stepStatuses_of_map hsteps]
          refine List.mem_map.mpr ⟨row, List.mem_filter.mpr ⟨hrow, by simpa using hplan⟩, ?_⟩
          simp [hinterrupted]
        rw [refreshStatus_of_unknown hunknown]
        have hcontains : (List.map (fun row : StepRow => row.planId)
            (s.runSteps.rows.filter (fun row => row.status.interrupted))).contains
              old.planId = true := by
          simpa using ⟨row, ⟨hrow, hinterrupted⟩, hplan⟩
        simp only [hcontains, if_true]
      · have hnone : (List.map (fun row : StepRow => row.planId)
            (s.runSteps.rows.filter (fun row => row.status.interrupted))).contains
              old.planId = false := by
          rw [Bool.eq_false_iff]
          intro hcontains
          refine haffected ?_
          simpa [and_assoc] using hcontains
        rw [stepStatuses_of_map_ne hsteps]
        · simpa only [hnone, Bool.false_eq_true, if_false] using hs.refreshed old hold
        · intro row hrow hplan
          rw [if_neg]
          exact fun hinterrupted => haffected ⟨row, hrow, hinterrupted, hplan⟩

theorem applyAll_consistent {s : CoordinatorStore} {operations : List Operation}
    (hoperations : forall operation, operation ∈ operations -> operation.HasSteps)
    (hs : s.Consistent) : (s.applyAll operations).Consistent := by
  induction operations generalizing s with
  | nil => exact hs
  | cons operation rest ih =>
      exact ih (fun other hother => hoperations other (List.mem_cons_of_mem _ hother))
        ((apply_committed s operation).consistent
          (hoperations operation List.mem_cons_self) hs)

/-!
## What never changes again
-/

theorem applyAll_settled {s : CoordinatorStore} {row : StepRow}
    (hrow : row ∈ s.runSteps.rows) (hsettled : row.status.settled = true)
    (operations : List Operation) : row ∈ (s.applyAll operations).runSteps.rows := by
  induction operations generalizing s with
  | nil => exact hrow
  | cons operation rest ih => exact ih ((apply_evolves s operation).settled hrow hsettled)

theorem applyAll_onlySettled {s : CoordinatorStore} {planId : String}
    (hrun : exists run, run ∈ s.runs.rows ∧ run.planId = planId)
    (hsettled : forall row, row ∈ s.runSteps.rows -> row.planId = planId ->
      row.status.settled = true) (operations : List Operation) (row : StepRow)
    (hrow : row ∈ (s.applyAll operations).runSteps.rows) (hplan : row.planId = planId) :
    row ∈ s.runSteps.rows := by
  induction operations generalizing s with
  | nil => exact hrow
  | cons operation rest ih =>
      have hstep := apply_evolves s operation
      rcases hrun with ⟨run, hrun, hrunPlan⟩
      -- a row of the plan after the operation is a settled row from before it
      have hback : forall other, other ∈ (s.apply operation).runSteps.rows ->
          other.planId = planId -> other ∈ s.runSteps.rows := by
        intro other hother hotherPlan
        rcases hstep.origin other hother with ⟨old, hold, hsame, hmoves⟩ |
          ⟨newPlan, assignment, rfl, hnew, _⟩
        · have holdPlan : old.planId = planId := by
            rw [hsame] at hotherPlan
            exact hotherPlan
          rw [StepStatus.moves_of_settled (hsettled old hold holdPlan) hmoves] at hsame
          rw [hsame]
          exact hold
        · exact absurd (hrunPlan.trans hotherPlan.symm) (run?_eq_none.mp hnew run hrun)
      rcases hstep.runs run hrun with ⟨status, hkept⟩
      have hmid := ih ⟨_, hkept, hrunPlan⟩
        (fun other hother hotherPlan =>
          hsettled other (hback other hother hotherPlan) hotherPlan) hrow
      exact hback row hmid hplan

theorem applyAll_run {s : CoordinatorStore} {run : RunRow} (hrun : run ∈ s.runs.rows)
    (operations : List Operation) : exists status,
      { run with status := status } ∈ (s.applyAll operations).runs.rows := by
  induction operations generalizing s run with
  | nil => exact ⟨run.status, hrun⟩
  | cons operation rest ih =>
      rcases (apply_evolves s operation).runs run hrun with ⟨status, hkept⟩
      have hlater := ih hkept
      exact hlater

theorem stepStatuses_applyAll {s : CoordinatorStore} {run : RunRow}
    (hrun : run ∈ s.runs.rows)
    (hsettled : forall x, x ∈ s.stepStatuses run.planId -> x.settled = true)
    (operations : List Operation) (x : StepStatus) :
    x ∈ (s.applyAll operations).stepStatuses run.planId <->
      x ∈ s.stepStatuses run.planId := by
  rw [mem_stepStatuses, mem_stepStatuses]
  have hrows : forall row, row ∈ s.runSteps.rows -> row.planId = run.planId ->
      row.status.settled = true :=
    fun row hrow hplan => hsettled _ (mem_stepStatuses.mpr ⟨row, hrow, hplan, rfl⟩)
  constructor
  · rintro ⟨row, hrow, hplan, rfl⟩
    exact ⟨row, applyAll_onlySettled ⟨run, hrun, rfl⟩ hrows operations row hrow hplan,
      hplan, rfl⟩
  · rintro ⟨row, hrow, hplan, rfl⟩
    exact ⟨row, applyAll_settled hrow (hrows row hrow hplan) operations, hplan, rfl⟩

/-- In every reachable store the status of each run is the recomputed one, and in
every later store a succeeded or cancelled run is what it was and a run with a
failed or rejected step is not active. -/
theorem run_status_function_of_steps (operations later : List Operation)
    (hoperations : forall operation, operation ∈ operations ++ later -> operation.HasSteps)
    (run : RunRow) (hrun : run ∈ (empty.applyAll operations).runs.rows) :
    run.status = refreshStatus ((empty.applyAll operations).stepStatuses run.planId) ∧
    (run.status = .succeeded ∨ run.status = .cancelled ->
      run ∈ (empty.applyAll (operations ++ later)).runs.rows) ∧
    (forall status, status = .failed ∨ status = .rejected ->
      status ∈ (empty.applyAll operations).stepStatuses run.planId ->
      forall run', run' ∈ (empty.applyAll (operations ++ later)).runs.rows ->
        run'.planId = run.planId -> run'.status ≠ .active) := by
  have happend : empty.applyAll (operations ++ later) =
      (empty.applyAll operations).applyAll later := List.foldl_append
  have hs : (empty.applyAll operations).Consistent :=
    applyAll_consistent (fun operation h => hoperations operation (List.mem_append_left _ h))
      empty_consistent
  have hs' : ((empty.applyAll operations).applyAll later).Consistent :=
    applyAll_consistent (fun operation h => hoperations operation (List.mem_append_right _ h)) hs
  rw [happend]
  refine ⟨hs.refreshed run hrun, ?_, ?_⟩
  · intro hended
    rw [hs.refreshed run hrun] at hended
    have hsame := stepStatuses_applyAll hrun (settled_of_ended hended) later
    rcases applyAll_run hrun later with ⟨status, hkept⟩
    have hstatus : status = run.status := by
      rw [hs.refreshed run hrun, ← refreshStatus_of_ended hsame hended]
      exact hs'.refreshed _ hkept
    rw [hstatus] at hkept
    exact hkept
  · intro status hstatus hmem run' hrun' hplan hactive
    rcases mem_stepStatuses.mp hmem with ⟨row, hrow, hrowPlan, hrowStatus⟩
    have hsettled : row.status.settled = true := by
      rcases hstatus with rfl | rfl <;> rw [hrowStatus] <;> rfl
    have hkept : status ∈ ((empty.applyAll operations).applyAll later).stepStatuses
        run'.planId :=
      mem_stepStatuses.mpr ⟨row, applyAll_settled hrow hsettled later,
        hrowPlan.trans hplan.symm, hrowStatus⟩
    rw [hs'.refreshed run' hrun', refreshStatus_eq_active] at hactive
    rcases hstatus with rfl | rfl
    · exact hactive.2.1 hkept
    · exact hactive.2.2.1 hkept

def patrolOperations : List Operation :=
  [.createRun patrolGoal (patrolPlan "p" [patrolStep "s" "r1" []])
      [patrolAssignment "a" "p" (patrolStep "s" "r1" [])] 0,
    .markDispatched "a" 1, .recordOutcome "a" .succeeded 2]

def patrolRun : RunRow :=
  { newRun patrolGoal (patrolPlan "p" [patrolStep "s" "r1" []]) 0 with
    status := .succeeded }

theorem patrol_run_status :
    patrolRun.status =
      refreshStatus ((empty.applyAll patrolOperations).stepStatuses patrolRun.planId) ∧
    patrolRun ∈
      (empty.applyAll (patrolOperations ++ [.recordOutcome "a" .failed 3])).runs.rows := by
  have hrun : patrolRun ∈ (empty.applyAll patrolOperations).runs.rows :=
    List.mem_singleton.mpr rfl
  have hstatus := run_status_function_of_steps patrolOperations
    [.recordOutcome "a" .failed 3]
    (by simp [patrolOperations, Operation.HasSteps]) patrolRun hrun
  exact ⟨hstatus.1, hstatus.2.1 (Or.inl rfl)⟩

end CoordinatorStore

end Ump.Coordinator
