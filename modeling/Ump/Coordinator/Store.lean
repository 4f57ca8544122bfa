import Ump.Foundation.Table
import Ump.Protocol.Models

/-!
# The coordinator store

## Rows

The journal of plans and of the coordinator's side of the assignment lifecycle.
A row holds the decoded goal, plan or assignment whose JSON text the database
column stores. Each operation below is one transaction, so an exception leaves
the store as it was. The columns `updated_at_ms` are written and never read;
what remains of them is the integer that has to be bound.
-/

namespace Ump.Coordinator

open Foundation

inductive RunStatus where
  | active
  | succeeded
  | failed
  | cancelled
  | unknown
deriving DecidableEq, Repr

inductive StepStatus where
  | pending
  | dispatched
  | accepted
  | cancellationRequested
  | succeeded
  | failed
  | rejected
  | cancelled
  | unknown
deriving DecidableEq, Repr

namespace StepStatus

/-- `TERMINAL_STEP_STATUSES`. -/
def terminal : StepStatus -> Bool
  | succeeded | failed | rejected | cancelled | unknown => true
  | _ => false

/-- The statuses that a restart turns into `unknown`. -/
def interrupted : StepStatus -> Bool
  | dispatched | accepted | cancellationRequested => true
  | _ => false

/-- The statuses for which a cancellation is sent to the robot. -/
def cancellable : StepStatus -> Bool
  | dispatched | accepted | unknown => true
  | _ => false

def acknowledgeable : StepStatus -> Bool
  | dispatched | accepted => true
  | _ => false

def completable : StepStatus -> Bool
  | dispatched | accepted | cancellationRequested => true
  | _ => false

end StepStatus

structure RunRow where
  planId : String
  goal : SharedGoal
  plan : Plan
  status : RunStatus
  createdAtMs : Int

structure StepRow where
  assignmentId : String
  planId : String
  stepId : String
  assignment : Assignment
  dependencies : List String
  status : StepStatus

instance : Keyed RunRow where
  clash a b := a.planId == b.planId
  clash_symm _ _ := BEq.comm

instance : Keyed StepRow where
  clash a b :=
    a.assignmentId == b.assignmentId || (a.planId == b.planId && a.stepId == b.stepId)
  clash_symm a b := by
    rw [BEq.comm (a := a.assignmentId), BEq.comm (a := a.planId), BEq.comm (a := a.stepId)]

structure CoordinatorStore where
  runs : Table RunRow
  runSteps : Table StepRow

namespace CoordinatorStore

def empty : CoordinatorStore where
  runs := Table.empty
  runSteps := Table.empty

/-!
## Statements
-/

def run? (s : CoordinatorStore) (planId : String) : Option RunRow :=
  s.runs.fetch (fun run => run.planId == planId)

def step? (s : CoordinatorStore) (assignmentId : String) : Option StepRow :=
  s.runSteps.fetch (fun row => row.assignmentId == assignmentId)

/-- `SELECT status FROM run_steps WHERE plan_id = ?`. -/
def stepStatuses (s : CoordinatorStore) (planId : String) : List StepStatus :=
  (s.runSteps.rows.filter (fun row => row.planId == planId)).map (fun row => row.status)

/-- `UPDATE run_steps SET status = ? WHERE ...`. -/
def setSteps (s : CoordinatorStore) (p : StepRow -> Bool) (status : StepStatus) :
    CoordinatorStore :=
  { s with
    runSteps := s.runSteps.update p (fun row => { row with status := status })
      (fun _ _ => rfl) }

/-- `UPDATE runs SET status = ? WHERE ...`. -/
def setRuns (s : CoordinatorStore) (p : RunRow -> Bool) (status : RunStatus) :
    CoordinatorStore :=
  { s with
    runs := s.runs.update p (fun run => { run with status := status })
      (fun _ _ => rfl) }

/-- The run status that `_refresh_run_locked` computes. -/
def refreshStatus (statuses : List StepStatus) : RunStatus :=
  if statuses.contains .unknown then .unknown
  else if statuses.contains .failed || statuses.contains .rejected then .failed
  else if !statuses.isEmpty && statuses.all (fun status => status == .succeeded) then
    .succeeded
  else if statuses.all (fun status => status == .succeeded || status == .cancelled) then
    .cancelled
  else .active

def refreshed (s : CoordinatorStore) (planId : String) : CoordinatorStore :=
  s.setRuns (fun run => run.planId == planId) (refreshStatus (s.stepStatuses planId))

/-- `_refresh_run_locked`. -/
def refreshRun (s : CoordinatorStore) (planId : String) (nowMs : Int) :
    Except Exn CoordinatorStore := do
  bindInteger nowMs
  .ok (s.refreshed planId)

/-!
## Opening and creating
-/

def recoverInterruptedRuns (s : CoordinatorStore) : CoordinatorStore :=
  let affected := (s.runSteps.rows.filter (fun row => row.status.interrupted)).map
    (fun row => row.planId)
  (s.setSteps (fun row => row.status.interrupted) .unknown).setRuns
    (fun run => affected.contains run.planId) .unknown

def newRun (goal : SharedGoal) (plan : Plan) (nowMs : Int) : RunRow where
  planId := plan.planId
  goal := goal
  plan := plan
  status := .active
  createdAtMs := nowMs

def newStep (planId : String) (assignment : Assignment) : StepRow where
  assignmentId := assignment.assignmentId
  planId := planId
  stepId := assignment.step.stepId
  assignment := assignment
  dependencies := assignment.step.dependsOn
  status := .pending

def insertSteps (planId : String) :
    List Assignment -> Table StepRow -> Option (Table StepRow)
  | [], runSteps => some runSteps
  | assignment :: rest, runSteps =>
      match runSteps.insert? (newStep planId assignment) with
      | some runSteps => insertSteps planId rest runSteps
      | none => none

def createRun (s : CoordinatorStore) (goal : SharedGoal) (plan : Plan)
    (assignments : List Assignment) (nowMs : Int) : Except Exn CoordinatorStore :=
  match s.run? plan.planId with
  | some run =>
      if run.goal.canonical = goal.canonical ∧ run.plan.canonical = plan.canonical then
        .ok s
      else
        .error (.value "plan_id is already bound to different content")
  | none => do
      bindInteger nowMs
      match s.runs.insert? (newRun goal plan nowMs),
        insertSteps plan.planId assignments s.runSteps with
      | some runs, some runSteps => .ok { runs := runs, runSteps := runSteps }
      | _, _ => .error .integrity

/-!
## Reading
-/

def dependenciesSucceeded (s : CoordinatorStore) (row : StepRow) : Bool :=
  row.dependencies.all (fun dependency =>
    s.runSteps.rows.any (fun other => other.planId == row.planId &&
      other.stepId == dependency && other.status == .succeeded))

def readyAssignments (s : CoordinatorStore) (planId : String) :
    Except Exn (List Assignment) :=
  match s.run? planId with
  | none => .error (.key planId)
  | some run =>
      if run.status = .active then
        .ok ((s.runSteps.rows.filter (fun row => row.planId == planId &&
          row.status == .pending && s.dependenciesSucceeded row)).map
          (fun row => row.assignment))
      else
        .ok []

/-- `ORDER BY created_at_ms`. -/
def activePlanIds (s : CoordinatorStore) : List String :=
  ((s.runs.rows.filter (fun run => run.status == .active)).insertionSort
    (fun a b => a.createdAtMs ≤ b.createdAtMs)).map (fun run => run.planId)

def unknownAssignments (s : CoordinatorStore) (planId : String) : List Assignment :=
  (s.runSteps.rows.filter (fun row => row.planId == planId && row.status == .unknown)).map
    (fun row => row.assignment)

def statusForAssignment (s : CoordinatorStore) (assignmentId : String) :
    Option StepStatus :=
  (s.step? assignmentId).map (fun row => row.status)

def assignment (s : CoordinatorStore) (assignmentId : String) : Option Assignment :=
  (s.step? assignmentId).map (fun row => row.assignment)

def robotForAssignment (s : CoordinatorStore) (assignmentId : String) : Option String :=
  (s.assignment assignmentId).map (fun assignment => assignment.step.assignedRobotId)

def planForAssignment (s : CoordinatorStore) (assignmentId : String) : Option String :=
  (s.step? assignmentId).map (fun row => row.planId)

/-!
## Transitions
-/

def markDispatched (s : CoordinatorStore) (assignmentId : String) (nowMs : Int) :
    Except Exn (Bool × CoordinatorStore) := do
  bindInteger nowMs
  let selected := fun (row : StepRow) =>
    row.assignmentId == assignmentId && row.status == .pending
  .ok (s.runSteps.rows.any selected, s.setSteps selected .dispatched)

def requestCancellation (s : CoordinatorStore) (planId : String) (nowMs : Int) :
    Except Exn (List Assignment × CoordinatorStore) :=
  match s.run? planId with
  | none => .error (.key planId)
  | some _ => do
      let rows := s.runSteps.rows.filter
        (fun row => row.planId == planId && row.status.cancellable)
      let cancelled := s.setSteps
        (fun row => row.planId == planId && row.status == .pending) .cancelled
      let requested := cancelled.setSteps
        (fun row => row.planId == planId && row.status.cancellable)
        .cancellationRequested
      let refreshed <- requested.refreshRun planId nowMs
      .ok (rows.map (fun row => row.assignment), refreshed)

/-- The row of one assignment takes a status and its run is refreshed. -/
def writeStep (s : CoordinatorStore) (row : StepRow) (status : StepStatus)
    (nowMs : Int) : Except Exn (Option String × CoordinatorStore) := do
  let written := s.setSteps (fun other => other.assignmentId == row.assignmentId) status
  let refreshed <- written.refreshRun row.planId nowMs
  .ok (some row.planId, refreshed)

def recordCancellationAcknowledgement (s : CoordinatorStore) (assignmentId : String)
    (accepted : Bool) (nowMs : Int) : Except Exn (Option String × CoordinatorStore) :=
  match s.step? assignmentId with
  | none => .ok (none, s)
  | some row =>
      if row.status = .cancellationRequested ∧ accepted = false then
        s.writeStep row .unknown nowMs
      else do
        let refreshed <- s.refreshRun row.planId nowMs
        .ok (some row.planId, refreshed)

def transition (s : CoordinatorStore) (assignmentId : String) (target : StepStatus)
    (nowMs : Int) (fromAck : Bool) : Except Exn (Option String × CoordinatorStore) :=
  match s.step? assignmentId with
  | none => .ok (none, s)
  | some row =>
      if row.status.terminal then
        if fromAck then
          .ok (some row.planId, s)
        else if row.status ≠ target then
          .error (.value "terminal coordinator step status is immutable")
        else do
          let refreshed <- s.refreshRun row.planId nowMs
          .ok (some row.planId, refreshed)
      else if (if fromAck then row.status.acknowledgeable else row.status.completable) then
        s.writeStep row target nowMs
      else
        .error (.value "invalid step transition")

def acknowledgedStep? : AssignmentStatus -> Option StepStatus
  | .accepted => some .accepted
  | .rejected => some .rejected
  | .unknown => some .unknown
  | _ => none

def reconciledStep? : AssignmentStatus -> Option StepStatus
  | .succeeded => some .succeeded
  | .failed => some .failed
  | .rejected => some .rejected
  | .cancelled => some .cancelled
  | _ => none

def outcomeStep? : AssignmentStatus -> Option StepStatus
  | .unknown => some .unknown
  | status => reconciledStep? status

def recordAcknowledgement (s : CoordinatorStore) (assignmentId : String)
    (status : AssignmentStatus) (nowMs : Int) :
    Except Exn (Option String × CoordinatorStore) :=
  match acknowledgedStep? status with
  | none => .ok (s.planForAssignment assignmentId, s)
  | some target => s.transition assignmentId target nowMs true

def recordOutcome (s : CoordinatorStore) (assignmentId : String)
    (status : AssignmentStatus) (nowMs : Int) :
    Except Exn (Option String × CoordinatorStore) :=
  match outcomeStep? status with
  | none => .error (.value "outcome status is not terminal")
  | some target => s.transition assignmentId target nowMs false

def reconcileOutcome (s : CoordinatorStore) (assignmentId : String)
    (status : AssignmentStatus) (nowMs : Int) :
    Except Exn (Option String × CoordinatorStore) :=
  match reconciledStep? status with
  | none => .error (.value "reconciliation requires a known terminal outcome")
  | some target =>
      match s.step? assignmentId with
      | none => .ok (none, s)
      | some row =>
          if row.status ≠ .unknown then
            .error (.value "only unknown assignments can be reconciled")
          else
            s.writeStep row target nowMs

/-!
## One operation

The operations that write, as one type. An operation that raises has been rolled
back.
-/

inductive Operation where
  | createRun (goal : SharedGoal) (plan : Plan) (assignments : List Assignment)
      (nowMs : Int)
  | markDispatched (assignmentId : String) (nowMs : Int)
  | requestCancellation (planId : String) (nowMs : Int)
  | recordCancellationAcknowledgement (assignmentId : String) (accepted : Bool)
      (nowMs : Int)
  | recordAcknowledgement (assignmentId : String) (status : AssignmentStatus) (nowMs : Int)
  | recordOutcome (assignmentId : String) (status : AssignmentStatus) (nowMs : Int)
  | reconcileOutcome (assignmentId : String) (status : AssignmentStatus) (nowMs : Int)
  | reopen (recoverInterrupted : Bool)

/-- The committed store of an operation, or its exception. -/
def commit (s : CoordinatorStore) : Operation -> Except Exn CoordinatorStore
  | .createRun goal plan assignments nowMs => s.createRun goal plan assignments nowMs
  | .markDispatched assignmentId nowMs =>
      (s.markDispatched assignmentId nowMs).map Prod.snd
  | .requestCancellation planId nowMs => (s.requestCancellation planId nowMs).map Prod.snd
  | .recordCancellationAcknowledgement assignmentId accepted nowMs =>
      (s.recordCancellationAcknowledgement assignmentId accepted nowMs).map Prod.snd
  | .recordAcknowledgement assignmentId status nowMs =>
      (s.recordAcknowledgement assignmentId status nowMs).map Prod.snd
  | .recordOutcome assignmentId status nowMs =>
      (s.recordOutcome assignmentId status nowMs).map Prod.snd
  | .reconcileOutcome assignmentId status nowMs =>
      (s.reconcileOutcome assignmentId status nowMs).map Prod.snd
  | .reopen recoverInterrupted =>
      .ok (if recoverInterrupted then s.recoverInterruptedRuns else s)

def apply (s : CoordinatorStore) (operation : Operation) : CoordinatorStore :=
  match s.commit operation with
  | .ok committed => committed
  | .error _ => s

def applyAll (s : CoordinatorStore) (operations : List Operation) : CoordinatorStore :=
  operations.foldl apply s

end CoordinatorStore

end Ump.Coordinator
