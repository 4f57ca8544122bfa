import Ump.Coordinator.Store

/-!
# What a store operation can do

## The moves of a step

Every later invariant of the coordinator is derived from two facts proved here:
the inversion of a committed operation, and the way in which step rows evolve.
-/

namespace Ump.Coordinator

open Foundation

def StepStatus.moves (a b : StepStatus) : Bool :=
  a == b ||
    match a with
    | .pending => b == .dispatched || b == .cancelled
    | .dispatched | .accepted => b == .accepted || b == .cancellationRequested || b.terminal
    | .cancellationRequested => b.terminal
    | .unknown => b == .cancellationRequested || b.terminal
    | _ => false

def StepStatus.settled : StepStatus -> Bool
  | .succeeded | .failed | .rejected | .cancelled => true
  | _ => false

namespace StepStatus

@[simp] theorem moves_self (a : StepStatus) : a.moves a = true := by
  cases a <;> rfl

theorem moves_of_settled {a b : StepStatus} (ha : a.settled = true)
    (h : a.moves b = true) : b = a := by
  cases a with
  | succeeded | failed | rejected | cancelled => cases b <;> first | rfl | cases h
  | _ => cases ha

theorem ne_pending_of_moves {a b : StepStatus} (ha : a ≠ .pending)
    (h : a.moves b = true) : b ≠ .pending := by
  rintro rfl
  cases a with
  | pending => exact ha rfl
  | _ => cases h

theorem moves_of_completable {a b : StepStatus} (ha : a.completable = true)
    (hb : b.terminal = true) : a.moves b = true := by
  cases a with
  | dispatched | accepted | cancellationRequested => simp [moves, hb]
  | _ => cases ha

theorem moves_of_acknowledgeable {a b : StepStatus} (ha : a.acknowledgeable = true)
    (hb : b = .accepted ∨ b.terminal = true) : a.moves b = true := by
  cases a with
  | dispatched | accepted => rcases hb with rfl | hb <;> simp [moves, *]
  | _ => cases ha

theorem terminal_of_settled {a : StepStatus} (h : a.settled = true) :
    a.terminal = true := by
  cases a <;> first | rfl | cases h

end StepStatus

namespace CoordinatorStore

def Operation.target? : Operation -> Option (String × StepStatus)
  | .recordCancellationAcknowledgement assignmentId false _ => some (assignmentId, .unknown)
  | .recordAcknowledgement assignmentId status _ =>
      (acknowledgedStep? status).map (fun target => (assignmentId, target))
  | .recordOutcome assignmentId status _ =>
      (outcomeStep? status).map (fun target => (assignmentId, target))
  | .reconcileOutcome assignmentId status _ =>
      (reconciledStep? status).map (fun target => (assignmentId, target))
  | _ => none

def marked (s : CoordinatorStore) (assignmentId : String) : CoordinatorStore :=
  s.setSteps (fun row => row.assignmentId == assignmentId && row.status == .pending)
    .dispatched

def written (s : CoordinatorStore) (row : StepRow) (target : StepStatus) :
    CoordinatorStore :=
  (s.setSteps (fun other => other.assignmentId == row.assignmentId) target).refreshed
    row.planId

def cancelled (s : CoordinatorStore) (planId : String) : CoordinatorStore :=
  ((s.setSteps (fun row => row.planId == planId && row.status == .pending)
      .cancelled).setSteps
    (fun row => row.planId == planId && row.status.cancellable)
    .cancellationRequested).refreshed planId

/-!
## The inversion of a committed operation
-/

inductive Committed (s : CoordinatorStore) : Operation -> CoordinatorStore -> Prop where
  | unchanged (operation : Operation) : Committed s operation s
  | created {goal : SharedGoal} {plan : Plan} {assignments : List Assignment}
      {nowMs : Int} {s' : CoordinatorStore}
      (hnew : s.run? plan.planId = none)
      (hruns : s'.runs.rows = s.runs.rows ++ [newRun goal plan nowMs])
      (hsteps : s'.runSteps.rows =
        s.runSteps.rows ++ assignments.map (newStep plan.planId)) :
      Committed s (.createRun goal plan assignments nowMs) s'
  | marked (assignmentId : String) (nowMs : Int) :
      Committed s (.markDispatched assignmentId nowMs) (s.marked assignmentId)
  | written {operation : Operation} {row : StepRow} {target : StepStatus}
      (hrow : row ∈ s.runSteps.rows)
      (htarget : operation.target? = some (row.assignmentId, target))
      (hmoves : row.status.moves target = true) :
      Committed s operation (s.written row target)
  | refreshed (operation : Operation) (planId : String) :
      Committed s operation (s.refreshed planId)
  | cancelled (planId : String) (nowMs : Int) :
      Committed s (.requestCancellation planId nowMs) (s.cancelled planId)
  | recovered : Committed s (.reopen true) s.recoverInterruptedRuns

theorem refreshRun_eq_ok {s s' : CoordinatorStore} {planId : String} {nowMs : Int}
    (h : s.refreshRun planId nowMs = .ok s') : s' = s.refreshed planId := by
  rcases bind_eq_ok.mp h with ⟨_, _, hs⟩
  cases hs
  rfl

theorem writeStep_eq_ok {s : CoordinatorStore} {row : StepRow} {target : StepStatus}
    {nowMs : Int} {r : Option String × CoordinatorStore}
    (h : s.writeStep row target nowMs = .ok r) :
    r = (some row.planId, s.written row target) := by
  rcases bind_eq_ok.mp h with ⟨s', hrefresh, hr⟩
  cases hr
  rw [refreshRun_eq_ok hrefresh]
  rfl

theorem step?_eq_some {s : CoordinatorStore} {assignmentId : String} {row : StepRow}
    (h : s.step? assignmentId = some row) :
    row ∈ s.runSteps.rows ∧ row.assignmentId = assignmentId := by
  rcases Table.fetch_eq_some h with ⟨hrow, hid⟩
  exact ⟨hrow, by simpa using hid⟩

theorem step?_of_mem {s : CoordinatorStore} {row : StepRow} (hrow : row ∈ s.runSteps.rows) :
    s.step? row.assignmentId = some row := by
  apply Table.fetch_of_mem hrow
  · simp
  · intro other _ hsame
    have hid : other.assignmentId = row.assignmentId := by simpa using hsame
    simp [Keyed.clash, hid]

theorem run?_eq_some {s : CoordinatorStore} {planId : String} {run : RunRow}
    (h : s.run? planId = some run) : run ∈ s.runs.rows ∧ run.planId = planId := by
  rcases Table.fetch_eq_some h with ⟨hrun, hid⟩
  exact ⟨hrun, by simpa using hid⟩

theorem run?_of_mem {s : CoordinatorStore} {run : RunRow} (hrun : run ∈ s.runs.rows) :
    s.run? run.planId = some run := by
  apply Table.fetch_of_mem hrun
  · simp
  · intro other _ hsame
    have hid : other.planId = run.planId := by simpa using hsame
    simp [Keyed.clash, hid]

theorem run?_eq_none {s : CoordinatorStore} {planId : String} :
    s.run? planId = none <-> forall run, run ∈ s.runs.rows -> run.planId ≠ planId := by
  unfold run?
  rw [Table.fetch_eq_none]
  simp

theorem insertSteps_rows {planId : String} {assignments : List Assignment}
    {t t' : Table StepRow} (h : insertSteps planId assignments t = some t') :
    t'.rows = t.rows ++ assignments.map (newStep planId) := by
  induction assignments generalizing t with
  | nil =>
      cases h
      simp
  | cons assignment rest ih =>
      unfold insertSteps at h
      cases hinsert : t.insert? (newStep planId assignment) with
      | none =>
          rw [hinsert] at h
          cases h
      | some mid =>
          rw [hinsert] at h
          rw [ih h, (Table.insert?_eq_some hinsert).1]
          simp

theorem createRun_committed {s s' : CoordinatorStore} {goal : SharedGoal} {plan : Plan}
    {assignments : List Assignment} {nowMs : Int}
    (h : s.createRun goal plan assignments nowMs = .ok s') :
    Committed s (.createRun goal plan assignments nowMs) s' := by
  unfold createRun at h
  cases hrun : s.run? plan.planId with
  | some run =>
      rw [hrun] at h
      by_cases hsame : run.goal.canonical = goal.canonical ∧
          run.plan.canonical = plan.canonical
      · simp only [if_pos hsame] at h
        cases h
        exact .unchanged _
      · simp only [if_neg hsame] at h
        cases h
  | none =>
      rw [hrun] at h
      rcases bind_eq_ok.mp h with ⟨_, _, hinserted⟩
      cases hruns : s.runs.insert? (newRun goal plan nowMs) with
      | none =>
          rw [hruns] at hinserted
          cases hinserted
      | some runs =>
          cases hsteps : insertSteps plan.planId assignments s.runSteps with
          | none =>
              rw [hruns, hsteps] at hinserted
              cases hinserted
          | some runSteps =>
              rw [hruns, hsteps] at hinserted
              cases hinserted
              exact .created hrun (Table.insert?_eq_some hruns).1 (insertSteps_rows hsteps)

theorem transition_committed {s : CoordinatorStore} {operation : Operation}
    {assignmentId : String} {target : StepStatus} {nowMs : Int} {fromAck : Bool}
    {r : Option String × CoordinatorStore}
    (htarget : operation.target? = some (assignmentId, target))
    (hack : fromAck = true -> target = .accepted ∨ target.terminal = true)
    (hout : fromAck = false -> target.terminal = true)
    (h : s.transition assignmentId target nowMs fromAck = .ok r) :
    Committed s operation r.2 := by
  unfold transition at h
  cases hstep : s.step? assignmentId with
  | none =>
      rw [hstep] at h
      cases h
      exact .unchanged _
  | some row =>
      rcases step?_eq_some hstep with ⟨hrow, rfl⟩
      rw [hstep] at h
      by_cases hterminal : row.status.terminal = true
      · simp only [if_pos hterminal] at h
        cases fromAck with
        | true =>
            cases h
            exact .unchanged _
        | false =>
            by_cases hne : row.status ≠ target
            · simp [hne] at h
            · simp only [Bool.false_eq_true, if_false, if_neg hne] at h
              rcases bind_eq_ok.mp h with ⟨s', hrefresh, hr⟩
              cases hr
              rw [refreshRun_eq_ok hrefresh]
              exact .refreshed _ _
      · simp only [if_neg hterminal] at h
        by_cases hallowed : (if fromAck = true then row.status.acknowledgeable
            else row.status.completable) = true
        · simp only [if_pos hallowed] at h
          rw [writeStep_eq_ok h]
          refine .written hrow htarget ?_
          cases fromAck with
          | true => exact StepStatus.moves_of_acknowledgeable hallowed (hack rfl)
          | false => exact StepStatus.moves_of_completable hallowed (hout rfl)
        · simp only [if_neg hallowed] at h
          cases h

theorem acknowledgedStep?_terminal {status : AssignmentStatus} {target : StepStatus}
    (h : acknowledgedStep? status = some target) :
    target = .accepted ∨ target.terminal = true := by
  cases status <;> cases h <;> simp [StepStatus.terminal]

theorem outcomeStep?_terminal {status : AssignmentStatus} {target : StepStatus}
    (h : outcomeStep? status = some target) : target.terminal = true := by
  cases status <;> cases h <;> rfl

theorem reconciledStep?_settled {status : AssignmentStatus} {target : StepStatus}
    (h : reconciledStep? status = some target) : target.settled = true := by
  cases status <;> cases h <;> rfl

theorem requestCancellation_eq_ok {s : CoordinatorStore} {planId : String} {nowMs : Int}
    {r : List Assignment × CoordinatorStore}
    (h : s.requestCancellation planId nowMs = .ok r) : r.2 = s.cancelled planId := by
  unfold requestCancellation at h
  cases hrun : s.run? planId with
  | none =>
      rw [hrun] at h
      cases h
  | some run =>
      rw [hrun] at h
      rcases bind_eq_ok.mp h with ⟨s', hrefresh, hr⟩
      cases hr
      exact refreshRun_eq_ok hrefresh

theorem recordCancellationAcknowledgement_committed {s : CoordinatorStore}
    {assignmentId : String} {accepted : Bool} {nowMs : Int}
    {r : Option String × CoordinatorStore}
    (h : s.recordCancellationAcknowledgement assignmentId accepted nowMs = .ok r) :
    Committed s (.recordCancellationAcknowledgement assignmentId accepted nowMs) r.2 := by
  unfold recordCancellationAcknowledgement at h
  cases hstep : s.step? assignmentId with
  | none =>
      rw [hstep] at h
      cases h
      exact .unchanged _
  | some row =>
      rcases step?_eq_some hstep with ⟨hrow, rfl⟩
      rw [hstep] at h
      by_cases hrefused : row.status = .cancellationRequested ∧ accepted = false
      · simp only [if_pos hrefused] at h
        rcases hrefused with ⟨hstatus, rfl⟩
        rw [writeStep_eq_ok h]
        exact .written hrow rfl (by rw [hstatus]; rfl)
      · simp only [if_neg hrefused] at h
        rcases bind_eq_ok.mp h with ⟨s', hrefresh, hr⟩
        cases hr
        rw [refreshRun_eq_ok hrefresh]
        exact .refreshed _ _

theorem reconcileOutcome_committed {s : CoordinatorStore} {assignmentId : String}
    {status : AssignmentStatus} {nowMs : Int} {r : Option String × CoordinatorStore}
    (h : s.reconcileOutcome assignmentId status nowMs = .ok r) :
    Committed s (.reconcileOutcome assignmentId status nowMs) r.2 := by
  unfold reconcileOutcome at h
  cases htarget : reconciledStep? status with
  | none =>
      rw [htarget] at h
      cases h
  | some target =>
      rw [htarget] at h
      cases hstep : s.step? assignmentId with
      | none =>
          rw [hstep] at h
          cases h
          exact .unchanged _
      | some row =>
          rcases step?_eq_some hstep with ⟨hrow, rfl⟩
          rw [hstep] at h
          by_cases hne : row.status ≠ .unknown
          · simp [hne] at h
          · simp only [if_neg hne] at h
            rw [writeStep_eq_ok h]
            have hend := StepStatus.terminal_of_settled (reconciledStep?_settled htarget)
            refine .written hrow (by simp [Operation.target?, htarget]) ?_
            rw [not_not.mp hne]
            simp [StepStatus.moves, hend]

theorem map_eq_ok {x : Except Exn value} {f : value -> result} {r : result}
    (h : x.map f = .ok r) : exists v, x = .ok v ∧ f v = r := by
  cases x with
  | error e => cases h
  | ok v => exact ⟨v, rfl, by cases h; rfl⟩

theorem commit_committed {s s' : CoordinatorStore} {operation : Operation}
    (h : s.commit operation = .ok s') : Committed s operation s' := by
  cases operation with
  | createRun goal plan assignments nowMs => exact createRun_committed h
  | markDispatched assignmentId nowMs =>
      rcases map_eq_ok h with ⟨r, hr, rfl⟩
      rcases bind_eq_ok.mp hr with ⟨_, _, hok⟩
      cases hok
      exact .marked assignmentId nowMs
  | requestCancellation planId nowMs =>
      rcases map_eq_ok h with ⟨r, hr, rfl⟩
      rw [requestCancellation_eq_ok hr]
      exact .cancelled planId nowMs
  | recordCancellationAcknowledgement assignmentId accepted nowMs =>
      rcases map_eq_ok h with ⟨r, hr, rfl⟩
      exact recordCancellationAcknowledgement_committed hr
  | recordAcknowledgement assignmentId status nowMs =>
      rcases map_eq_ok h with ⟨r, hr, rfl⟩
      unfold recordAcknowledgement at hr
      cases htarget : acknowledgedStep? status with
      | none =>
          rw [htarget] at hr
          cases hr
          exact .unchanged _
      | some target =>
          rw [htarget] at hr
          exact transition_committed (by simp [Operation.target?, htarget])
            (fun _ => acknowledgedStep?_terminal htarget) (fun hack => by cases hack) hr
  | recordOutcome assignmentId status nowMs =>
      rcases map_eq_ok h with ⟨r, hr, rfl⟩
      unfold recordOutcome at hr
      cases htarget : outcomeStep? status with
      | none =>
          rw [htarget] at hr
          cases hr
      | some target =>
          rw [htarget] at hr
          exact transition_committed (by simp [Operation.target?, htarget])
            (fun hack => by cases hack) (fun _ => outcomeStep?_terminal htarget) hr
  | reconcileOutcome assignmentId status nowMs =>
      rcases map_eq_ok h with ⟨r, hr, rfl⟩
      exact reconcileOutcome_committed hr
  | reopen recoverInterrupted =>
      cases h
      cases recoverInterrupted with
      | true => exact .recovered
      | false => exact .unchanged _

theorem apply_committed (s : CoordinatorStore) (operation : Operation) :
    Committed s operation (s.apply operation) := by
  unfold apply
  cases h : s.commit operation with
  | ok s' => exact commit_committed h
  | error e => exact .unchanged _

/-!
## How rows evolve

Rows are never removed and keep everything but their status. A new row is
pending and belongs to a run that did not exist before.
-/

structure Evolves (s s' : CoordinatorStore) : Prop where
  kept : forall row, row ∈ s.runSteps.rows -> exists status,
    { row with status := status } ∈ s'.runSteps.rows ∧ row.status.moves status = true
  origin : forall row', row' ∈ s'.runSteps.rows ->
    (exists row, row ∈ s.runSteps.rows ∧ row' = { row with status := row'.status } ∧
      row.status.moves row'.status = true) ∨
    (exists planId assignment, row' = newStep planId assignment ∧
      s.run? planId = none ∧ exists run, run ∈ s'.runs.rows ∧ run.planId = planId)
  runs : forall run, run ∈ s.runs.rows -> exists status,
    { run with status := status } ∈ s'.runs.rows

/-- The rows stay where they are and at most their statuses change. -/
def Restated (s s' : CoordinatorStore) : Prop :=
  exists (f : StepRow -> StepStatus) (g : RunRow -> RunStatus),
    s'.runSteps.rows = s.runSteps.rows.map (fun row => { row with status := f row }) ∧
    s'.runs.rows = s.runs.rows.map (fun run => { run with status := g run }) ∧
    forall row, row ∈ s.runSteps.rows -> row.status.moves (f row) = true

def Extended (s s' : CoordinatorStore) (operation : Operation) : Prop :=
  exists goal plan assignments nowMs,
    operation = .createRun goal plan assignments nowMs ∧
    s.run? plan.planId = none ∧
    s'.runs.rows = s.runs.rows ++ [newRun goal plan nowMs] ∧
    s'.runSteps.rows = s.runSteps.rows ++ assignments.map (newStep plan.planId)

@[simp] theorem rows_setSteps (s : CoordinatorStore) (p : StepRow -> Bool)
    (status : StepStatus) :
    (s.setSteps p status).runSteps.rows = s.runSteps.rows.map
      (fun row => { row with status := if p row then status else row.status }) := by
  refine List.map_congr_left ?_
  intro row _
  cases p row <;> rfl

@[simp] theorem rows_setRuns (s : CoordinatorStore) (p : RunRow -> Bool)
    (status : RunStatus) :
    (s.setRuns p status).runs.rows = s.runs.rows.map
      (fun run => { run with status := if p run then status else run.status }) := by
  refine List.map_congr_left ?_
  intro run _
  cases p run <;> rfl

@[simp] theorem runs_setSteps (s : CoordinatorStore) (p : StepRow -> Bool)
    (status : StepStatus) : (s.setSteps p status).runs = s.runs := rfl

@[simp] theorem runSteps_refreshed (s : CoordinatorStore) (planId : String) :
    (s.refreshed planId).runSteps = s.runSteps := rfl

/-- The status of a row after a cancellation request for its plan. -/
def cancelledStatus (planId : String) (row : StepRow) : StepStatus :=
  if row.planId == planId && row.status == .pending then .cancelled
  else if row.planId == planId && row.status.cancellable then .cancellationRequested
  else row.status

theorem rows_cancelled (s : CoordinatorStore) (planId : String) :
    (s.cancelled planId).runSteps.rows = s.runSteps.rows.map
      (fun row => { row with status := cancelledStatus planId row }) := by
  unfold cancelled
  simp only [runSteps_refreshed, rows_setSteps, List.map_map]
  refine List.map_congr_left ?_
  intro row _
  unfold cancelledStatus
  by_cases hplan : row.planId = planId
  · cases hs : row.status <;> simp [hplan, hs, StepStatus.cancellable]
  · simp [hplan]

theorem moves_cancelledStatus (planId : String) (row : StepRow) :
    row.status.moves (cancelledStatus planId row) = true := by
  unfold cancelledStatus
  by_cases hplan : row.planId = planId
  · cases hs : row.status <;> simp [hplan, StepStatus.cancellable, StepStatus.moves]
  · simp [hplan]

theorem eq_of_assignmentId {s : CoordinatorStore} {a b : StepRow}
    (ha : a ∈ s.runSteps.rows) (hb : b ∈ s.runSteps.rows)
    (h : a.assignmentId = b.assignmentId) : a = b :=
  Table.eq_of_clash ha hb (by simp [Keyed.clash, h])

theorem eq_of_planId {s : CoordinatorStore} {a b : RunRow} (ha : a ∈ s.runs.rows)
    (hb : b ∈ s.runs.rows) (h : a.planId = b.planId) : a = b :=
  Table.eq_of_clash ha hb (by simp [Keyed.clash, h])

theorem Committed.restated_or_extended {s s' : CoordinatorStore} {operation : Operation}
    (h : Committed s operation s') : Restated s s' ∨ Extended s s' operation := by
  cases h with
  | unchanged =>
      left
      exact ⟨fun row => row.status, fun run => run.status, by simp, by simp,
        fun _ _ => StepStatus.moves_self _⟩
  | created hnew hruns hsteps =>
      right
      exact ⟨_, _, _, _, rfl, hnew, hruns, hsteps⟩
  | marked assignmentId nowMs =>
      left
      refine ⟨_, fun run => run.status, rows_setSteps _ _ _,
        by simp only [List.map_id']; rfl, ?_⟩
      intro row _
      by_cases hselected : row.assignmentId = assignmentId ∧ row.status = .pending
      · simp [hselected, StepStatus.moves]
      · simp [hselected]
  | @written _ row target hrow htarget hmoves =>
      left
      refine ⟨_, _, rows_setSteps _ _ _, rows_setRuns _ _ _, ?_⟩
      intro other hother
      by_cases hid : other.assignmentId = row.assignmentId
      · rw [eq_of_assignmentId hother hrow hid]
        simpa using hmoves
      · simp [hid]
  | refreshed operation planId =>
      left
      exact ⟨fun row => row.status, _, by simp, rows_setRuns _ _ _,
        fun _ _ => StepStatus.moves_self _⟩
  | cancelled planId nowMs =>
      left
      exact ⟨_, _, rows_cancelled s planId, rows_setRuns _ _ _,
        fun row _ => moves_cancelledStatus planId row⟩
  | recovered =>
      left
      refine ⟨_, _, rows_setSteps _ _ _, rows_setRuns _ _ _, ?_⟩
      intro row _
      cases hs : row.status <;>
        simp [StepStatus.interrupted, StepStatus.moves, StepStatus.terminal]

theorem Restated.evolves {s s' : CoordinatorStore} (h : Restated s s') : Evolves s s' := by
  rcases h with ⟨f, g, hsteps, hruns, hmoves⟩
  constructor
  · intro row hrow
    refine ⟨f row, ?_, hmoves row hrow⟩
    rw [hsteps]
    exact List.mem_map.mpr ⟨row, hrow, rfl⟩
  · intro row' hrow'
    rw [hsteps] at hrow'
    rcases List.mem_map.mp hrow' with ⟨row, hrow, rfl⟩
    exact Or.inl ⟨row, hrow, rfl, hmoves row hrow⟩
  · intro run hrun
    refine ⟨g run, ?_⟩
    rw [hruns]
    exact List.mem_map.mpr ⟨run, hrun, rfl⟩

theorem Extended.evolves {s s' : CoordinatorStore} {operation : Operation}
    (h : Extended s s' operation) : Evolves s s' := by
  rcases h with ⟨goal, plan, assignments, nowMs, _, hnew, hruns, hsteps⟩
  constructor
  · intro row hrow
    refine ⟨row.status, ?_, StepStatus.moves_self _⟩
    rw [hsteps]
    exact List.mem_append_left _ hrow
  · intro row' hrow'
    rw [hsteps] at hrow'
    rcases List.mem_append.mp hrow' with hold | hfresh
    · exact Or.inl ⟨row', hold, rfl, StepStatus.moves_self _⟩
    · rcases List.mem_map.mp hfresh with ⟨assignment, _, rfl⟩
      exact Or.inr ⟨plan.planId, assignment, rfl, hnew, newRun goal plan nowMs,
        by simp [hruns], rfl⟩
  · intro run hrun
    refine ⟨run.status, ?_⟩
    rw [hruns]
    exact List.mem_append_left _ hrun

theorem Committed.evolves {s s' : CoordinatorStore} {operation : Operation}
    (h : Committed s operation s') : Evolves s s' := by
  rcases h.restated_or_extended with hrestated | hextended
  · exact hrestated.evolves
  · exact hextended.evolves

theorem apply_evolves (s : CoordinatorStore) (operation : Operation) :
    Evolves s (s.apply operation) :=
  (apply_committed s operation).evolves

theorem Evolves.settled {s s' : CoordinatorStore} (h : Evolves s s') {row : StepRow}
    (hrow : row ∈ s.runSteps.rows) (hsettled : row.status.settled = true) :
    row ∈ s'.runSteps.rows := by
  rcases h.kept row hrow with ⟨status, hkept, hmoves⟩
  rw [StepStatus.moves_of_settled hsettled hmoves] at hkept
  exact hkept

end CoordinatorStore

end Ump.Coordinator
