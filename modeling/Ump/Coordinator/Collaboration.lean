import Ump.Foundation.Interleaving
import Ump.Coordinator.RunStatus
import Ump.Coordinator.Planning

/-!
# The coordinator

## Messages and memory

The coordinator's methods run on any number of threads: callers submit, cancel
and reconcile, and the bus calls the message handlers. A task below is what one
thread does between two points where another thread can come in: one store
operation, one step of the publication, or the local work between them. A
handler that the bus calls from inside a publication is a thread of its own that
runs at that point, and a bus that refuses an envelope ends the thread that
publishes it.
-/

namespace Ump.Coordinator

open Foundation

structure Config where
  coordinatorId : String
  authorityLeaseIds : List (String × String)
  requireAuthority : Bool
  /-- The session id, a `uuid4`, of each process on the journal. -/
  sessionId : Nat -> String
  sha256 : Text -> String

inductive Message where
  | goal (goal : SharedGoal)
  | plan (plan : Plan)
  | assignment (assignment : Assignment)
  | assignmentQuery (assignmentId robotId : String)
  | cancellationRequest (assignmentId robotId reason : String)

namespace Message

def messageType : Message -> MessageType
  | goal _ => .goal
  | plan _ => .plan
  | assignment _ => .assignment
  | assignmentQuery _ _ => .assignmentQuery
  | cancellationRequest _ _ _ => .cancellationRequest

def payload : Message -> Json
  | goal g => g.payload
  | plan p => p.payload
  | assignment a => a.payload
  | assignmentQuery assignmentId robotId =>
      .obj [("assignment_id", .str assignmentId), ("robot_id", .str robotId)]
  | cancellationRequest assignmentId robotId reason =>
      .obj [("assignment_id", .str assignmentId), ("robot_id", .str robotId),
        ("reason", .str reason)]

end Message

/-- The journal survives a crash, the rest is the memory of one process. The
published envelopes are a record of the past that the code does not keep. -/
structure Memory where
  store : CoordinatorStore
  sequence : Nat
  outcomes : List (String × Json)
  acknowledgements : List (String × String)
  process : Nat
  published : List (Message × Envelope)

def Memory.initial : Memory where
  store := .empty
  sequence := 0
  outcomes := []
  acknowledgements := []
  process := 0
  published := []

def Memory.restart (m : Memory) : Memory where
  store := m.store.recoverInterruptedRuns
  sequence := 0
  outcomes := []
  acknowledgements := []
  process := m.process + 1
  published := m.published

def setKey (entries : List (String × value)) (key : String) (v : value) :
    List (String × value) :=
  (key, v) :: entries.filter (fun entry => entry.1 != key)

inductive Task where
  | submit (goal : SharedGoal) (nowMs : Int)
  | submitMany (goals : List SharedGoal) (nowMs : Int)
  | prepareMany (goals : List SharedGoal)
      (prepared : List (SharedGoal × Plan × List Assignment)) (nowMs : Int)
  | replan (previousPlanId : String) (nowMs : Int)
  | replanFrom (previous : Plan) (goal : SharedGoal) (nowMs : Int)
  | createRun (goal : SharedGoal) (plan : Plan) (assignments : List Assignment)
      (nowMs : Int)
  | publish (message : Message) (nowMs : Int) (correlationId : String)
  | handOver (message : Message) (nowMs : Int) (correlationId : String) (sequence : Nat)
  | dispatchReady (planId : String) (nowMs : Int)
  | dispatch (assignment : Assignment) (nowMs : Int)
  | outcome (envelope : Envelope)
  | outcomeStatus (assignmentId : String) (status : AssignmentStatus) (nowMs : Int)
  | recordOutcome (assignmentId : String) (status : AssignmentStatus) (nowMs : Int)
  | reconcileOutcome (assignmentId : String) (status : AssignmentStatus) (nowMs : Int)
  | acknowledgement (envelope : Envelope)
  | recordAcknowledgement (assignmentId : String) (status : AssignmentStatus) (nowMs : Int)
  | cancellationAcknowledgement (envelope : Envelope)
  | recordCancellationAcknowledgement (assignmentId : String) (accepted : Bool)
      (nowMs : Int)
  | assignmentSnapshot (envelope : Envelope)
  | reconcileSnapshot (assignmentId : String) (status : AssignmentStatus)
      (succeeded : Json) (nowMs : Int)
  | cancel (planId reason : String) (nowMs : Int)
  | reconcile (planId : String) (nowMs : Int)
  | resumeActive (nowMs : Int)

/-- What a task reads besides the store: fresh `uuid4` texts, the registry, and
the plan that the planner proposes (`none` when it raises). -/
structure Reading where
  uuid4 : Nat -> String
  registry : Registry
  proposal : Option Plan

inductive Entry where
  | submit (goal : SharedGoal) (nowMs : Int)
  | submitMany (goals : List SharedGoal) (nowMs : Int)
  | replan (previousPlanId : String) (nowMs : Int)
  | receive (envelope : Envelope)
  | cancel (planId reason : String) (nowMs : Int)
  | reconcile (planId : String) (nowMs : Int)
  | resumeActive (nowMs : Int)

def start : Entry -> List Task
  | .submit goal nowMs => [.submit goal nowMs]
  | .submitMany goals nowMs => [.submitMany goals nowMs]
  | .replan previousPlanId nowMs => [.replan previousPlanId nowMs]
  | .receive envelope =>
      match envelope.messageType with
      | .assignmentAck => [.acknowledgement envelope]
      | .outcome => [.outcome envelope]
      | .assignmentSnapshot => [.assignmentSnapshot envelope]
      | .cancellationAck => [.cancellationAcknowledgement envelope]
      | _ => []
  | .cancel planId reason nowMs => [.cancel planId reason nowMs]
  | .reconcile planId nowMs => [.reconcile planId nowMs]
  | .resumeActive nowMs => [.resumeActive nowMs]

/-!
## Preparing a run
-/

def newAssignment (config : Config) (goal : SharedGoal) (plan : Plan) (uuid4 : String)
    (step : PlanStep) : Assignment where
  assignmentId := uuid4
  goalId := goal.goalId
  planId := plan.planId
  step := step
  authorityLeaseId := config.authorityLeaseIds.lookup step.assignedRobotId

/-- `_prepare`. The planner builds its plan, so the plan passes its own checks. -/
def prepare (config : Config) (goal : SharedGoal) (nowMs : Int) (reading : Reading) :
    Except Exn (Plan × List Assignment) := do
  validateCoreMessageSize .goal goal.payload
  match reading.proposal with
  | none => .error (.runtime "planner failed")
  | some plan => do
      plan.check
      validatePlan goal plan reading.registry nowMs
      refuseWhen (config.requireAuthority && plan.steps.any (fun step =>
        (config.authorityLeaseIds.lookup step.assignedRobotId).isNone))
        "missing authority leases for assigned robots"
      let assignments := plan.steps.mapIdx
        (fun i step => newAssignment config goal plan (reading.uuid4 i) step)
      checkAll Assignment.check assignments
      .ok (plan, assignments)

def announce (goal : SharedGoal) (plan : Plan) (nowMs : Int) : List Task :=
  [.publish (.goal goal) nowMs goal.goalId, .publish (.plan plan) nowMs goal.goalId,
    .dispatchReady plan.planId nowMs]

/-!
## Inbound messages
-/

/-- The assignment that a robot's message is about, once the message is known to
come from the assigned robot; `none` when the store does not know it. -/
def addressed (s : CoordinatorStore) (envelope : Envelope) (kind : String) :
    Except Exn (Option String) := do
  let value <- envelope.payload.item "assignment_id"
  let assignmentId <- value.text
  match s.robotForAssignment assignmentId with
  | none => .ok none
  | some robotId => do
      let named <- envelope.payload.get "robot_id" .null
      refuseWhen (!named.isText envelope.sourceId)
        (kind ++ " robot_id does not match message source")
      refuseWhen (decide (envelope.sourceId ≠ robotId))
        (kind ++ " source is not the assigned robot")
      .ok (some assignmentId)

def assignmentStatus (value : Json) : Except Exn AssignmentStatus :=
  match value with
  | .str text =>
      match AssignmentStatus.ofValue? text with
      | some status => .ok status
      | none => .error (.value (text ++ " is not a valid AssignmentStatus"))
  | _ => .error (.value "value is not a valid AssignmentStatus")

def cancellationStatus (value : Json) : Except Exn CancellationStatus :=
  match value with
  | .str text =>
      match CancellationStatus.ofValue? text with
      | some status => .ok status
      | none => .error (.value (text ++ " is not a valid CancellationStatus"))
  | _ => .error (.value "value is not a valid CancellationStatus")

/-- A `succeeded` member compared with a boolean; Python counts 0 and 1. -/
def flag (value : Json) : Except Exn Bool :=
  match value with
  | .bool b => .ok b
  | .int 1 => .ok true
  | .int 0 => .ok false
  | .float n _ =>
      if n = 1 then .ok true
      else if n = 0 then .ok false
      else .error (.value "outcome succeeded flag and terminal status disagree")
  | _ => .error (.value "outcome succeeded flag and terminal status disagree")

/-- The `Outcome` that `_assignment_snapshot` builds. -/
def snapshotOutcome (data : Json) : Except Exn Outcome := do
  let assignmentId <- data.item "assignment_id" >>= Json.text
  let robotId <- data.item "robot_id" >>= Json.text
  let succeeded <- data.item "succeeded" >>= flag
  let description <- data.item "description" >>= Json.text
  let status <- data.item "status" >>= assignmentStatus
  let outputs <- data.get "outputs" (.obj [])
  Outcome.make assignmentId robotId succeeded description (some status) outputs

/-- The checks of `AssignmentSnapshot` and of the fingerprint; the result is the
status to reconcile. -/
def snapshotStatus (config : Config) (s : CoordinatorStore) (assignmentId : String)
    (data : Json) (outcome : Outcome) : Except Exn AssignmentStatus := do
  let robotId <- data.item "robot_id" >>= Json.text
  let status <- data.item "status" >>= assignmentStatus
  let description <- data.item "description" >>= Json.text
  let fingerprint <- data.item "fingerprint" >>= Json.text
  identifier assignmentId "assignment_id"
  identifier robotId "robot_id"
  requiredText description "snapshot description" maxLongTextBytes
  requiredText fingerprint "fingerprint" 128
  refuseWhen (decide (outcome.assignmentId ≠ assignmentId))
    "snapshot outcome assignment_id does not match"
  refuseWhen (decide (outcome.robotId ≠ robotId)) "snapshot outcome robot_id does not match"
  refuseWhen (decide (outcome.status ≠ status)) "snapshot outcome status does not match"
  match s.assignment assignmentId with
  | none => .error (.value "snapshot fingerprint does not match stored assignment")
  | some assignment => do
      refuseWhen (decide (fingerprint ≠ config.sha256 assignment.canonical))
        "snapshot fingerprint does not match stored assignment"
      .ok status

/-!
## The tasks
-/

def recorded (m : Memory) (x : Except Exn (Option String × CoordinatorStore))
    (next : Memory -> Option String -> Memory × Flow Task) : Memory × Flow Task :=
  attempt m x (fun r => next { m with store := r.2 } r.1)

/-- `if plan_id is not None: self._dispatch_ready(plan_id, ...)`. -/
def dispatchPlan (nowMs : Int) : Option String -> List Task
  | none => []
  | some planId => [.dispatchReady planId nowMs]

/-- `make_envelope` as `_publish` calls it. -/
def sealMessage (config : Config) (m : Memory) (message : Message) (nowMs : Int)
    (correlationId : String) (sequence : Nat) (messageId : String) : Envelope where
  messageId := messageId
  messageType := message.messageType
  sourceId := config.coordinatorId
  sessionId := config.sessionId m.process
  sequence := sequence
  timestampMs := nowMs
  payload := message.payload
  correlationId := some correlationId
  stream := .operational

def exec (config : Config) (m : Memory) (t : Task) (r : Reading) : Memory × Flow Task :=
  match t with
  | .submit goal nowMs =>
      attempt m (prepare config goal nowMs r) (fun (plan, assignments) =>
        (m, .next (.createRun goal plan assignments nowMs :: announce goal plan nowMs)))
  | .submitMany goals nowMs =>
      attempt m (refuseWhen (!(decide (1 ≤ goals.length ∧ goals.length ≤ 256)))
          "goal batch requires 1 to 256 goals") (fun _ =>
        attempt m (refuseWhen (hasRepeats (goals.map (fun goal => goal.goalId)))
            "goal batch identifiers must be unique") (fun _ =>
          (m, .next [.prepareMany goals [] nowMs])))
  | .prepareMany (goal :: goals) prepared nowMs =>
      attempt m (prepare config goal nowMs r) (fun run =>
        (m, .next [.prepareMany goals (prepared ++ [(goal, run)]) nowMs]))
  | .prepareMany [] prepared nowMs =>
      attempt m (refuseWhen (hasRepeats (prepared.map (fun run => run.2.1.planId)))
          "planner returned duplicate plan identifiers") (fun _ =>
        (m, .next (prepared.map (fun run => .createRun run.1 run.2.1 run.2.2 nowMs) ++
          prepared.flatMap (fun run => announce run.1 run.2.1 nowMs))))
  | .replan previousPlanId nowMs =>
      match m.store.run? previousPlanId with
      | none => (m, .raised)
      | some run =>
          attempt m (refuseWhen (decide (run.status = .active))
              "an active plan must be cancelled before replanning") (fun _ =>
            (m, .next [.replanFrom run.plan run.goal nowMs]))
  | .replanFrom previous goal nowMs =>
      attempt m (prepare config goal nowMs r) (fun (plan, assignments) =>
        attempt m (refuseWhen (decide (plan.planId = previous.planId))
            "replanning requires a new plan identifier") (fun _ =>
          attempt m (refuseWhen (decide (plan.revision ≠ previous.revision + 1))
              "replanning must increment the plan revision by one") (fun _ =>
            attempt m (refuseWhen (decide (plan.supersedesPlanId ≠ some previous.planId))
                "replanning must identify the exact predecessor plan") (fun _ =>
              (m, .next (.createRun goal plan assignments nowMs ::
                announce goal plan nowMs))))))
  | .createRun goal plan assignments nowMs =>
      attempt m (m.store.createRun goal plan assignments nowMs) (fun store =>
        ({ m with store := store }, .next []))
  | .publish message nowMs correlationId =>
      ({ m with sequence := m.sequence + 1 },
        .next [.handOver message nowMs correlationId (m.sequence + 1)])
  | .handOver message nowMs correlationId sequence =>
      let envelope := sealMessage config m message nowMs correlationId sequence (r.uuid4 0)
      ({ m with published := m.published ++ [(message, envelope)] }, .next [])
  | .dispatchReady planId nowMs =>
      attempt m (m.store.readyAssignments planId) (fun ready =>
        (m, .next (ready.map (fun assignment => .dispatch assignment nowMs))))
  | .dispatch assignment nowMs =>
      attempt m (m.store.markDispatched assignment.assignmentId nowMs)
        (fun (changed, store) =>
          ({ m with store := store },
            .next (if changed then
              [.publish (.assignment assignment) nowMs assignment.goalId] else [])))
  | .outcome envelope =>
      attempt m (addressed m.store envelope "outcome") (fun
        | none => (m, .next [])
        | some assignmentId =>
            attempt m (envelope.payload.item "succeeded") (fun succeeded =>
              let m' := { m with outcomes := setKey m.outcomes assignmentId succeeded }
              attempt m' (envelope.payload.item "status" >>= assignmentStatus)
                (fun status =>
                  (m', .next [.outcomeStatus assignmentId status envelope.timestampMs]))))
  | .outcomeStatus assignmentId status nowMs =>
      if m.store.statusForAssignment assignmentId = some .unknown then
        (m, .next [.reconcileOutcome assignmentId status nowMs])
      else
        (m, .next [.recordOutcome assignmentId status nowMs])
  | .recordOutcome assignmentId status nowMs =>
      recorded m (m.store.recordOutcome assignmentId status nowMs) (fun m' planId =>
        (m', .next (dispatchPlan nowMs planId)))
  | .reconcileOutcome assignmentId status nowMs =>
      recorded m (m.store.reconcileOutcome assignmentId status nowMs) (fun m' planId =>
        (m', .next (dispatchPlan nowMs planId)))
  | .acknowledgement envelope =>
      attempt m (addressed m.store envelope "acknowledgement") (fun
        | none => (m, .next [])
        | some assignmentId =>
            attempt m (envelope.payload.item "status" >>= assignmentStatus) (fun status =>
              ({ m with
                acknowledgements := setKey m.acknowledgements assignmentId status.value },
                .next [.recordAcknowledgement assignmentId status envelope.timestampMs])))
  | .recordAcknowledgement assignmentId status nowMs =>
      recorded m (m.store.recordAcknowledgement assignmentId status nowMs) (fun m' _ =>
        (m', .next []))
  | .cancellationAcknowledgement envelope =>
      attempt m (addressed m.store envelope "cancellation") (fun
        | none => (m, .next [])
        | some assignmentId =>
            attempt m (envelope.payload.item "status" >>= cancellationStatus) (fun status =>
              (m, .next [.recordCancellationAcknowledgement assignmentId
                (decide (status = .accepted ∨ status = .alreadyTerminal))
                envelope.timestampMs])))
  | .recordCancellationAcknowledgement assignmentId accepted nowMs =>
      recorded m (m.store.recordCancellationAcknowledgement assignmentId accepted nowMs)
        (fun m' _ => (m', .next []))
  | .assignmentSnapshot envelope =>
      attempt m (addressed m.store envelope "snapshot") (fun
        | none => (m, .next [])
        | some assignmentId =>
            attempt m (envelope.payload.get "outcome" .null) (fun outcomeData =>
              if outcomeData.isNull then
                (m, .next [])
              else
                attempt m (snapshotOutcome outcomeData) (fun outcome =>
                  attempt m (snapshotStatus config m.store assignmentId envelope.payload
                      outcome) (fun status =>
                    attempt m (outcomeData.item "succeeded") (fun succeeded =>
                      (m, .next [.reconcileSnapshot assignmentId status succeeded
                        envelope.timestampMs]))))))
  | .reconcileSnapshot assignmentId status succeeded nowMs =>
      recorded m (m.store.reconcileOutcome assignmentId status nowMs) (fun m' planId =>
        ({ m' with outcomes := setKey m'.outcomes assignmentId succeeded },
          .next (dispatchPlan nowMs planId)))
  | .cancel planId reason nowMs =>
      attempt m (requiredText reason "cancellation reason" maxLongTextBytes) (fun _ =>
        attempt m (m.store.requestCancellation planId nowMs) (fun (assignments, store) =>
          ({ m with store := store },
            .next (assignments.map (fun assignment =>
              .publish (.cancellationRequest assignment.assignmentId
                assignment.step.assignedRobotId reason) nowMs assignment.goalId)))))
  | .reconcile planId nowMs =>
      (m, .next ((m.store.unknownAssignments planId).map (fun assignment =>
        .publish (.assignmentQuery assignment.assignmentId
          assignment.step.assignedRobotId) nowMs assignment.goalId)))
  | .resumeActive nowMs =>
      (m, .next (m.store.activePlanIds.map (fun planId => .dispatchReady planId nowMs)))

def machine (config : Config) : Machine Memory Task Reading Entry where
  exec := exec config
  start := start
  restart := Memory.restart

/-- No thread is running yet. -/
def initial : Pool Memory Task where
  shared := .initial
  threads := []

/-!
## The small mission

A submission whose second step may depend on the first. The sizes of its plan
and goal are evaluated apart from the other checks of `_prepare`.
-/

def patrolConfig : Config where
  coordinatorId := "c"
  authorityLeaseIds := []
  requireAuthority := false
  sessionId _ := "session"
  sha256 text := String.ofList text

def patrolPeer (robotId : String) : String × PeerView :=
  (robotId,
    { manifest := some
        { robotId := robotId
          capabilities :=
            [{ name := "walk/v1", description := "Walk", inputSchema := .obj [],
               outputSchema := .obj [], availability := .available }] }
      state := some { freshForMs := 2000 }
      stateTimestampMs := 0 })

def patrolSteps (dependsOn : List String) : List PlanStep :=
  [patrolStep "s1" "r1" [], patrolStep "s2" "r2" dependsOn]

def patrolAssignments (dependsOn : List String) : List Assignment :=
  [patrolAssignment "a" "p" (patrolStep "s1" "r1" []),
    patrolAssignment "b" "p" (patrolStep "s2" "r2" dependsOn)]

def patrolReading (dependsOn : List String) : Reading where
  uuid4 i := if i = 0 then "a" else "b"
  registry := [patrolPeer "r1", patrolPeer "r2"]
  proposal := some (patrolPlan "p" (patrolSteps dependsOn))

def patrolOutcome (assignmentId robotId : String) (status : AssignmentStatus) :
    Envelope where
  messageId := "m"
  messageType := .outcome
  sourceId := robotId
  sessionId := "session"
  sequence := 1
  timestampMs := 0
  payload := .obj [("assignment_id", .str assignmentId), ("robot_id", .str robotId),
    ("succeeded", .bool (decide (status = .succeeded))), ("status", .str status.value)]
  correlationId := none
  stream := .operational

def patrolSubmitted (dependsOn : List String) : Pool Memory Task where
  shared := .initial
  threads :=
    [.createRun patrolGoal (patrolPlan "p" (patrolSteps dependsOn))
        (patrolAssignments dependsOn) 0 ::
      announce patrolGoal (patrolPlan "p" (patrolSteps dependsOn)) 0]

def patrolMoves (thread count : Nat) : List (Action Reading Entry) :=
  List.replicate count (.run thread (patrolReading []))

set_option maxRecDepth 8000 in
theorem byteSize_patrolGoal : Text.byteSize patrolGoal.payload.dumps ≤ 60000 := by
  decide

set_option maxRecDepth 8000 in
theorem byteSize_patrolPlan {dependsOn : List String}
    (h : dependsOn = [] ∨ dependsOn = ["s1"]) :
    Text.byteSize (patrolPlan "p" (patrolSteps dependsOn)).payload.dumps ≤ 60000 := by
  rcases h with rfl | rfl
  · decide
  · decide

set_option maxRecDepth 8000 in
theorem prepare_patrol {dependsOn : List String}
    (h : dependsOn = [] ∨ dependsOn = ["s1"]) :
    prepare patrolConfig patrolGoal 0 (patrolReading dependsOn) =
      .ok (patrolPlan "p" (patrolSteps dependsOn), patrolAssignments dependsOn) := by
  unfold prepare validatePlan
  rw [validateCoreMessageSize_ok byteSize_patrolGoal]
  simp only [patrolReading]
  rw [validateCoreMessageSize_ok (byteSize_patrolPlan h)]
  rcases h with rfl | rfl
  · rfl
  · rfl

set_option maxRecDepth 8000 in
theorem patrolSubmitted_reached {sessionId : Nat -> String} {sha256 : Text -> String}
    {C : Condition Memory Task Reading Entry} {dependsOn : List String}
    (h : dependsOn = [] ∨ dependsOn = ["s1"])
    (hsubmit : C .initial 0 (.spawn (.submit patrolGoal 0)))
    (hprepare : C .initial 0 (.exec (.submit patrolGoal 0) (patrolReading dependsOn))) :
    (machine { patrolConfig with sessionId := sessionId, sha256 := sha256 }).Reaches C initial
      (patrolSubmitted dependsOn) := by
  have hexec : exec { patrolConfig with sessionId := sessionId, sha256 := sha256 } .initial
      (.submit patrolGoal 0) (patrolReading dependsOn) =
      (.initial, .next (.createRun patrolGoal (patrolPlan "p" (patrolSteps dependsOn))
        (patrolAssignments dependsOn) 0 ::
        announce patrolGoal (patrolPlan "p" (patrolSteps dependsOn)) 0)) := by
    have hprepared : prepare { patrolConfig with sessionId := sessionId, sha256 := sha256 }
        patrolGoal 0 (patrolReading dependsOn) = _ := prepare_patrol h
    rw [exec, hprepared]
    rfl
  have hspawn : (machine { patrolConfig with
      sessionId := sessionId, sha256 := sha256 }).step initial (.spawn (.submit patrolGoal 0)) =
      some { shared := .initial, threads := [[.submit patrolGoal 0]] } := rfl
  have hmeets : Machine.Meets C { shared := .initial, threads := [[.submit patrolGoal 0]] }
      (.run 0 (patrolReading dependsOn)) := by
    intro t others hnext htasks
    cases hnext
    have hothers : others = 0 := by
      simpa [Pool.tasks, ← Multiset.cons_coe] using htasks
    rw [hothers]
    exact hprepare
  refine .head ⟨.spawn (.submit patrolGoal 0), hsubmit, hspawn⟩ (.single ⟨_, hmeets, ?_⟩)
  rw [Machine.step_run rfl hexec]
  rfl

end Ump.Coordinator
