import Ump.Foundation.Interleaving
import Ump.Participant.Journal
import Ump.Protocol.Envelope

/-!
# The participant

## What the participant reads

The bus calls a handler for each inbound message, executor threads take queued jobs,
and an operator may resolve unknown work. A task below is what one thread does between
two points where another thread can come in: one journal operation, one call of the
adapter, or one message sent. The clock, the authorizer and the adapter answer anew each
time that they are asked. A bus that refuses an envelope ends the thread that sends it.
-/

namespace Ump.Participant

open Foundation

/-- What `check_schema` and `validate` do for a schema and an instance. -/
inductive Validation where
  | valid
  | schemaError
  | validationError
  | raised (typeName : String)
deriving DecidableEq, Repr

structure Config where
  robotId : String
  /-- The session id, a `uuid4`, of each process on the journal. -/
  sessionId : Nat -> String
  executionWorkers : Nat
  sha256 : Text -> String
  validate : Json -> Json -> Validation

inductive Safety where
  | normal
  | protectiveStop
  | emergencyStop
  | recoveryRequired
  | unknown
deriving DecidableEq, Repr

/-- The snapshot of the adapter's state that a state message carries. -/
structure StateSnapshot where
  safety : Safety
  payload : Json

inductive Authority where
  | granted
  | denied (error : String)
  | raised
deriving DecidableEq, Repr

/-- What comes back from `adapter.accept`. -/
inductive NativeResult where
  | returned (outcome : Outcome)
  | other
  | raised (typeName : String)

/-- What one task is told by the clock, the authorizer and the adapter. A manifest that
cannot be read comes with the type of the exception. -/
structure Reading where
  nowMs : Int
  authority : Authority
  manifest : Except String RobotManifest
  native : NativeResult
  cancelled : Option (Bool × String)
  state : Option StateSnapshot
  uuid4 : String

/-!
## Decoding an assignment
-/

/-- The assignment of a payload, or `none` when another robot is assigned. -/
def assignmentOf (robotId : String) (data : Json) : Except Exn (Option Assignment) := do
  let step <- data.item "step"
  let assigned <- step.item "assigned_robot_id"
  if assigned.isText robotId then do
    let assignment <- decodeAssignment data
    .ok (some assignment)
  else
    .ok none

/-!
## The checks before a claim
-/

inductive Refusal where
  | rejected (description : String)
  | raised
deriving DecidableEq, Repr

/-- A bound of the execution window, which is a number once the step is checked. -/
def bound (ms : Json) : Option Rat :=
  match ms.number? with
  | .ok value => value
  | .error _ => none

/-- The checks of `_assignment`, in the order in which the source makes them. -/
def checkDelivery (config : Config) (assignment : Assignment) (r : Reading) : Except Refusal Unit :=
  if PlanStep.given (bound assignment.step.notBeforeMs)
      (fun ms => decide ((r.nowMs : Rat) < ms)) then
    .error (.rejected "Assignment execution window has not opened")
  else if PlanStep.given (bound assignment.step.deadlineMs)
      (fun ms => decide (ms < (r.nowMs : Rat))) then
    .error (.rejected "Assignment deadline has passed")
  else
    match r.authority with
    | .denied error => .error (.rejected ("Assignment authority rejected: " ++ error))
    | .raised => .error .raised
    | .granted =>
        match r.manifest with
        | .error _ => .error .raised
        | .ok manifest =>
            match manifest.capability assignment.step.capability with
            | none => .error (.rejected "Assignment requests an unadvertised capability")
            | some capability =>
                match config.validate capability.inputSchema assignment.step.inputs with
                | .valid => .ok ()
                | .raised _ => .error .raised
                | _ =>
                    .error (.rejected
                      "Assignment input does not conform to the advertised schema")

/-- A delivery that has passed the checks, with what they read. -/
structure Delivery where
  envelope : Envelope
  assignment : Assignment
  reading : Reading

/-- The checks that `_execute_assignment` makes on the native result; an exception is
known by the name of its type. -/
def nativeOutcome (config : Config) (assignment : Assignment) (r : Reading) :
    Except String Outcome :=
  match r.native with
  | .raised typeName => .error typeName
  | .other => .error "TypeError"
  | .returned outcome =>
      if outcome.assignmentId ≠ assignment.assignmentId then .error "ValueError"
      else if outcome.robotId ≠ config.robotId then .error "ValueError"
      else
        match r.manifest with
        | .error typeName => .error typeName
        | .ok manifest =>
            match manifest.capability assignment.step.capability with
            | none => .error "ValueError"
            | some capability =>
                if outcome.status = .succeeded then
                  match config.validate capability.outputSchema outcome.outputs with
                  | .valid => .ok outcome
                  | .schemaError => .error "SchemaError"
                  | .validationError => .error "ValidationError"
                  | .raised typeName => .error typeName
                else
                  .ok outcome

def ownOutcome (config : Config) (assignmentId : String) (status : AssignmentStatus)
    (description : String) : Except Exn Outcome :=
  Outcome.make assignmentId config.robotId false description (some status) (.obj [])

def executedOutcome (config : Config) (assignment : Assignment) (r : Reading) :
    Except Exn Outcome :=
  match nativeOutcome config assignment r with
  | .ok outcome => .ok outcome
  | .error typeName =>
      ownOutcome config assignment.assignmentId .unknown
        ("Native adapter outcome is unknown after " ++ typeName)

/-!
## Messages
-/

inductive Message where
  | acknowledgement (assignmentId : String) (status : AssignmentStatus)
      (description : String)
  | outcome (outcome : Outcome)
  | assignmentSnapshot (assignmentId : String) (status : AssignmentStatus)
      (description fingerprint : String) (outcome : Option Outcome)
  | cancellationAcknowledgement (assignmentId : String) (status : CancellationStatus)
      (description : String)
  | state (snapshot : StateSnapshot)

namespace Message

def messageType : Message -> MessageType
  | acknowledgement _ _ _ => .assignmentAck
  | outcome _ => .outcome
  | assignmentSnapshot _ _ _ _ _ => .assignmentSnapshot
  | cancellationAcknowledgement _ _ _ => .cancellationAck
  | state _ => .state

def payload (robotId : String) : Message -> Json
  | acknowledgement assignmentId status description =>
      .obj [("assignment_id", .str assignmentId), ("robot_id", .str robotId),
        ("status", .str status.value), ("description", .str description)]
  | outcome o => o.payload
  | assignmentSnapshot assignmentId status description fingerprint stored =>
      .obj [("assignment_id", .str assignmentId), ("robot_id", .str robotId),
        ("status", .str status.value), ("description", .str description),
        ("fingerprint", .str fingerprint), ("outcome", .optional Outcome.payload stored)]
  | cancellationAcknowledgement assignmentId status description =>
      .obj [("assignment_id", .str assignmentId), ("robot_id", .str robotId),
        ("status", .str status.value), ("description", .str description)]
  | state snapshot => snapshot.payload

def checkText (assignmentId robotId description fieldName : String) : Except Exn Unit := do
  identifier assignmentId "assignment_id"
  identifier robotId "robot_id"
  requiredText description fieldName maxLongTextBytes

/-- The `__post_init__` of the message's dataclass; an outcome and a state have passed
theirs before. -/
def check (robotId : String) : Message -> Except Exn Unit
  | acknowledgement assignmentId _ description =>
      checkText assignmentId robotId description "acknowledgement description"
  | cancellationAcknowledgement assignmentId _ description =>
      checkText assignmentId robotId description "cancellation description"
  | assignmentSnapshot assignmentId status description fingerprint stored => do
      checkText assignmentId robotId description "snapshot description"
      requiredText fingerprint "fingerprint" 128
      refuseWhen (stored.any (fun o => decide (o.assignmentId ≠ assignmentId)))
        "snapshot outcome assignment_id does not match"
      refuseWhen (stored.any (fun o => decide (o.robotId ≠ robotId)))
        "snapshot outcome robot_id does not match"
      refuseWhen (stored.any (fun o => decide (o.status ≠ status)))
        "snapshot outcome status does not match"
  | _ => .ok ()

end Message

/-- A sent envelope with its message and the inbound envelope that it answers. -/
structure Publication where
  message : Message
  envelope : Envelope
  cause : Envelope

/-!
## Memory and tasks
-/

/-- What happens to a delivery on its way to the adapter. -/
inductive Event where
  | admitted (delivery : Delivery)
  | claimed (delivery : Delivery)
  | accepted (delivery : Delivery)

/-- The journal survives a crash, the rest is the memory of one process. The history and
the publications are a record of the past that the code does not keep. -/
structure Memory where
  journal : Journal
  queue : List Delivery
  sequences : Stream -> Nat
  lastPublishedSafety : Option Safety
  process : Nat
  history : List Event
  sent : List Publication

def Memory.initial : Memory where
  journal := .empty
  queue := []
  sequences _ := 0
  lastPublishedSafety := none
  process := 0
  history := []
  sent := []

/-- A new process on the same journal; queued jobs are lost. -/
def Memory.restart (m : Memory) : Memory where
  journal := m.journal.reopen
  queue := []
  sequences _ := 0
  lastPublishedSafety := none
  process := m.process + 1
  history := m.history
  sent := m.sent

inductive Task where
  | assignment (envelope : Envelope)
  | claim (delivery : Delivery)
  | submit (delivery : Delivery)
  | work
  | execute (delivery : Delivery)
  | settle (delivery : Delivery)
  | lookupLatest (delivery : Delivery) (outcome : Outcome)
  | complete (delivery : Delivery) (outcome : Outcome) (nowMs : Int)
  | publishState (nowMs : Int) (cause : Envelope)
  | sendState (snapshot : StateSnapshot) (nowMs : Int) (cause : Envelope) (stream : Stream)
  | assignmentQuery (envelope : Envelope)
  | cancellationRequest (envelope : Envelope)
  | cancelNative (assignment : Assignment) (envelope : Envelope)
  | recordCancellation (assignment : Assignment) (description : String)
      (envelope : Envelope)
  | send (message : Message) (stamp : Option Int) (cause : Envelope)
  | resolveUnknown (assignmentId : String) (status : AssignmentStatus)
      (description resolverId evidence : String) (nowMs : Int)

inductive Entry where
  | receive (envelope : Envelope)
  | work
  | resolveUnknown (assignmentId : String) (status : AssignmentStatus)
      (description resolverId evidence : String) (nowMs : Int)

def start : Entry -> List Task
  | .receive envelope =>
      match envelope.messageType with
      | .assignment => [.assignment envelope]
      | .assignmentQuery => [.assignmentQuery envelope]
      | .cancellationRequest => [.cancellationRequest envelope]
      | _ => []
  | .work => [.work]
  | .resolveUnknown assignmentId status description resolverId evidence nowMs =>
      [.resolveUnknown assignmentId status description resolverId evidence nowMs]

/-- `_send`, which holds the publication lock. -/
def publish (config : Config) (m : Memory) (message : Message) (nowMs : Int)
    (cause : Envelope) (stream : Stream) (uuid4 : String) : Memory :=
  let sequence := m.sequences stream + 1
  let envelope : Envelope :=
    { messageId := uuid4
      messageType := message.messageType
      sourceId := config.robotId
      sessionId := config.sessionId m.process
      sequence := sequence
      timestampMs := nowMs
      payload := message.payload config.robotId
      correlationId := cause.correlationId
      stream := stream }
  { m with
    sequences := fun other => if other = stream then sequence else m.sequences other
    sent := m.sent ++ [{ message := message, envelope := envelope, cause := cause }] }

/-- The acknowledgement and the outcome of a delivery that starts no work. Where the
participant words the outcome, both make the same checks of its identifiers and text. -/
def answer (m : Memory) (delivery : Delivery) (description : String)
    (outcome : Except Exn Outcome) : Memory × Flow Task :=
  attempt m outcome (fun outcome =>
    (m, .next
      [.send (.acknowledgement delivery.assignment.assignmentId outcome.status description)
          (some delivery.reading.nowMs) delivery.envelope,
        .send (.outcome outcome) (some delivery.reading.nowMs) delivery.envelope]))

/-- The end of `_execute_assignment`. -/
def report (outcome : Outcome) (nowMs : Int) (cause : Envelope) : List Task :=
  [.send (.outcome outcome) (some nowMs) cause, .publishState nowMs cause]

def snapshotOf (record : JournalRecord) : Message :=
  .assignmentSnapshot record.assignmentId record.status
    (match record.outcome with
      | some outcome => outcome.description
      | none => "Participant journal has no terminal outcome")
    record.fingerprint record.outcome

/-- The record that a query or a request of its issuer for this robot is about. -/
def requested (config : Config) (m : Memory) (envelope : Envelope) :
    Except Exn (Option JournalRecord) := do
  let assignmentId <- envelope.payload.item "assignment_id" >>= Json.text
  let robotId <- envelope.payload.item "robot_id" >>= Json.text
  identifier assignmentId "assignment_id"
  identifier robotId "robot_id"
  if robotId ≠ config.robotId then
    .ok none
  else
    .ok ((m.journal.lookup assignmentId).filter
      (fun record => decide (record.issuerId = envelope.sourceId)))

/-- `reason` of a `CancellationRequest`. -/
def checkReason (envelope : Envelope) : Except Exn Unit := do
  let reason <- envelope.payload.item "reason" >>= Json.text
  requiredText reason "cancellation reason" maxLongTextBytes

def exec (config : Config) (m : Memory) (t : Task) (r : Reading) : Memory × Flow Task :=
  match t with
  | .assignment envelope =>
      attempt m (assignmentOf config.robotId envelope.payload) (fun
        | none => (m, .next [])
        | some assignment =>
            let delivery : Delivery :=
              { envelope := envelope, assignment := assignment, reading := r }
            match checkDelivery config assignment r with
            | .ok () =>
                ({ m with history := m.history ++ [.admitted delivery] },
                  .next [.claim delivery])
            | .error (.rejected description) =>
                answer m delivery description
                  (ownOutcome config assignment.assignmentId .rejected description)
            | .error .raised => (m, .raised))
  | .claim delivery =>
      attempt m (m.journal.claim config.sha256 delivery.assignment
          delivery.envelope.sourceId delivery.reading.nowMs) (fun (result, journal) =>
        let m' := { m with journal := journal }
        match result with
        | .replay outcome =>
            answer m' delivery "Stored terminal outcome replayed without native execution"
              (.ok outcome)
        | .conflict =>
            answer m' delivery "Assignment ID was previously bound to a different payload"
              (ownOutcome config delivery.assignment.assignmentId .rejected
                "Idempotency conflict: assignment ID reused with different content")
        | .resourceConflict =>
            answer m' delivery
              "One or more robot-local resources are reserved by active work"
              (ownOutcome config delivery.assignment.assignmentId .rejected
                "Robot-local resource reservation conflict")
        | .uncertain =>
            answer m' delivery
              "Previous execution may have occurred; operator reconciliation is required"
              (ownOutcome config delivery.assignment.assignmentId .unknown
                "Execution outcome is unknown after interruption; not retried")
        | .new =>
            ({ m' with history := m'.history ++ [.claimed delivery] },
              .next [.send (.acknowledgement delivery.assignment.assignmentId .accepted
                  "Assignment durably accepted for native adapter execution")
                  (some delivery.reading.nowMs) delivery.envelope,
                if config.executionWorkers = 0 then .execute delivery
                else .submit delivery]))
  | .submit delivery => ({ m with queue := m.queue ++ [delivery] }, .next [])
  | .work =>
      match m.queue with
      | [] => (m, .next [])
      | delivery :: rest => ({ m with queue := rest }, .next [.execute delivery])
  | .execute delivery =>
      -- `adapter.accept` is called here and returns in the next task
      ({ m with history := m.history ++ [.accepted delivery] }, .next [.settle delivery])
  | .settle delivery =>
      attempt m (executedOutcome config delivery.assignment r) (fun outcome =>
        (m, .next [.lookupLatest delivery outcome]))
  | .lookupLatest delivery outcome =>
      match (m.journal.lookup delivery.assignment.assignmentId).bind
          (fun latest => latest.outcome) with
      | some stored => (m, .next (report stored r.nowMs delivery.envelope))
      | none => (m, .next [.complete delivery outcome r.nowMs])
  | .complete delivery outcome nowMs =>
      attempt m (m.journal.complete config.sha256 delivery.assignment outcome nowMs)
        (fun journal =>
          ({ m with journal := journal }, .next (report outcome nowMs delivery.envelope)))
  | .publishState nowMs cause =>
      match r.state with
      | none => (m, .raised)
      | some snapshot =>
          (m, .next ((if m.lastPublishedSafety.any
              (fun safety => decide (snapshot.safety ≠ safety)) then
            [.sendState snapshot nowMs cause .safety] else []) ++
              [.sendState snapshot nowMs cause .operational]))
  | .sendState snapshot nowMs cause stream =>
      let m' := publish config m (.state snapshot) nowMs cause stream r.uuid4
      ({ m' with lastPublishedSafety := some snapshot.safety }, .next [])
  | .assignmentQuery envelope =>
      attempt m (requested config m envelope) (fun
        | none => (m, .next [])
        | some record => (m, .next [.send (snapshotOf record) none envelope]))
  | .cancellationRequest envelope =>
      attempt m (checkReason envelope) (fun _ =>
        attempt m (requested config m envelope) (fun
          | none => (m, .next [])
          | some record =>
              match record.outcome with
              | some outcome =>
                  (m, .next
                    [.send (.cancellationAcknowledgement record.assignmentId .alreadyTerminal
                        "Assignment already has a terminal outcome") none envelope,
                      .send (.outcome outcome) none envelope])
              | none =>
                  if record.status = .unknown then
                    (m, .next
                      [.send (.cancellationAcknowledgement record.assignmentId .unknown
                        ("Assignment execution state is unknown; " ++
                          "cancellation cannot be confirmed")) none envelope])
                  else
                    (m, .next [.cancelNative record.assignment envelope])))
  | .cancelNative assignment envelope =>
      match r.cancelled with
      | none => (m, .raised)
      | some (true, description) =>
          (m, .next [.recordCancellation assignment description envelope])
      | some (false, description) =>
          (m, .next [.send (.cancellationAcknowledgement assignment.assignmentId .rejected
            description) none envelope])
  | .recordCancellation assignment description envelope =>
      attempt m (ownOutcome config assignment.assignmentId .cancelled description)
        (fun outcome =>
          attempt m (m.journal.complete config.sha256 assignment outcome r.nowMs)
            (fun journal =>
              ({ m with journal := journal }, .next
                [.send (.cancellationAcknowledgement assignment.assignmentId .accepted
                    description) none envelope,
                  .send (.outcome outcome) (some r.nowMs) envelope])))
  | .send message stamp cause =>
      attempt m (message.check config.robotId) (fun _ =>
        (publish config m message (stamp.getD r.nowMs) cause .operational r.uuid4, .next []))
  | .resolveUnknown assignmentId status description resolverId evidence nowMs =>
      attempt m (m.journal.resolveUnknown assignmentId status description resolverId
          evidence nowMs) (fun (_, journal) =>
        ({ m with journal := journal }, .next []))

def machine (config : Config) : Machine Memory Task Reading Entry where
  exec := exec config
  start := start
  restart := Memory.restart

/-- No message and no executor thread yet. -/
def initial : Pool Memory Task where
  shared := .initial
  threads := []

/-!
## The small mission

One robot of the mission, the delivery of its assignment, and the request to cancel it.
-/

def patrolOrder : Assignment :=
  patrolAssignment "a" "p" (patrolStep "s1" "r1" [])

def patrolSha256 (text : Text) : String :=
  if text = patrolOrder.canonical then
    "925b9f77b78a89af0ac69b428a04b6c312f85f5058a244e88ed8c2c0c68f1059"
  else
    String.ofList text

def patrolConfig (executionWorkers : Nat) : Config where
  robotId := "r1"
  sessionId _ := "session"
  executionWorkers := executionWorkers
  sha256 := patrolSha256
  validate _ _ := .valid

def patrolMessage (messageType : MessageType) (sourceId : String) (payload : Json) :
    Envelope where
  messageId := "m"
  messageType := messageType
  sourceId := sourceId
  sessionId := "session"
  sequence := 1
  timestampMs := 0
  payload := payload
  correlationId := none
  stream := .operational

def patrolAssigned (sourceId : String) : Envelope :=
  patrolMessage .assignment sourceId patrolOrder.payload

def patrolStopped (sourceId : String) : Envelope :=
  patrolMessage .cancellationRequest sourceId
    (.obj [("assignment_id", .str "a"), ("robot_id", .str "r1"), ("reason", .str "Stop")])

def patrolManifest : RobotManifest where
  robotId := "r1"
  capabilities :=
    [{ name := "walk/v1", description := "Walk", inputSchema := .obj [],
       outputSchema := .obj [], availability := .available }]

def patrolArrived : Outcome where
  assignmentId := "a"
  robotId := "r1"
  succeeded := true
  description := "Arrived"
  status := .succeeded
  outputs := .obj []
  flagAgrees := rfl
  notAccepted := by decide

def patrolReading (nowMs : Int) : Reading where
  nowMs := nowMs
  authority := .granted
  manifest := .ok patrolManifest
  native := .returned patrolArrived
  cancelled := some (true, "Stopped")
  state := none
  uuid4 := "m"

def patrolTasks (thread count : Nat) (nowMs : Int) : List (Action Reading Entry) :=
  List.replicate count (.run thread (patrolReading nowMs))

end Ump.Participant
