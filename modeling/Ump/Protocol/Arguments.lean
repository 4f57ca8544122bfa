import Ump.Integrations.Mapping
import Ump.Protocol.RoundTrip

/-!
# Arguments of the constructors

## Parts and iterables

A dataclass looks at the fields that its `__post_init__` checks and keeps the others as they
are. The models of this module have every argument that the constructors accept, out of JSON
values, members of the enumerations and instances of the models. A field that no check looks
at is the value that JSON makes of it, which for a member of an enumeration is its text. A
field that may hold an instance of a model holds one or any other value. What a constructor
iterates over need be no tuple.
-/

namespace Ump.Given

open Integrations (truthy)
open Registry (Library PoseReference SensorReference BatteryStatus finite isVersioned
  validateCapabilityUnits)

inductive Part (model : Type) where
  | built (value : model)
  | other (value : Json)

namespace Part

variable {model : Type}

def check (checkModel : model -> Except Exn Unit) : Part model -> Except Exn Unit
  | built value => checkModel value
  | other _ => .ok ()

def payload (encode : model -> Json) : Part model -> Json
  | built value => encode value
  | other value => value

/-- `part is member`: the text of a member is not the member. -/
def isMember [DecidableEq model] (member : model) : Part model -> Bool
  | built value => decide (value = member)
  | other _ => false

end Part

/-- A list or a tuple, or another iterable with what it yields and the value that JSON makes
of it: of a text its characters, of an object the names of its members. -/
inductive Iterable (element : Type) where
  | items (elements : List element)
  | other (elements : List element) (value : Json) (notArray : forall items, value ≠ .arr items)

namespace Iterable

variable {element : Type}

def elements : Iterable element -> List element
  | items yielded => yielded
  | other yielded _ _ => yielded

def payload (encode : element -> Json) : Iterable element -> Json
  | items yielded => .arr (yielded.map encode)
  | other _ value _ => value

end Iterable

/-!
## Manifests
-/

structure Capability where
  name : String
  description : String
  inputSchema : Json
  outputSchema : Json
  availability : Json

namespace Capability

def check (library : Library) (capability : Capability) : Except Exn Unit := do
  identifier capability.name "capability name"
  requiredText capability.description "capability description" maxTextBytes
  refuseWhen (!isVersioned library capability.name)
    "capability requires a versioned name and description"
  validateCapabilityUnits capability.inputSchema "capability input schema"
  validateCapabilityUnits capability.outputSchema "capability output schema"

def payload (capability : Capability) : Json :=
  .obj [("name", .str capability.name),
    ("description", .str capability.description),
    ("input_schema", capability.inputSchema),
    ("output_schema", capability.outputSchema),
    ("availability", capability.availability)]

end Capability

structure RobotManifest where
  robotId : String
  manufacturer : String
  model : String
  robotClass : String
  capabilities : Iterable Capability
  adapterVersion : String

namespace RobotManifest

/-- The checks of the capabilities and then of the manifest. The manifest reads the name of
each of its capabilities, and the participant their schemas before it publishes, so they
are instances. -/
def check (library : Library) (manifest : RobotManifest) : Except Exn Unit := do
  checkAll (Capability.check library) manifest.capabilities.elements
  identifier manifest.robotId "robot_id"
  requiredText manifest.manufacturer "manufacturer" maxTextBytes
  requiredText manifest.model "model" maxTextBytes
  identifier manifest.robotClass "robot_class"
  requiredText manifest.adapterVersion "adapter_version" 64
  refuseWhen (hasRepeats (manifest.capabilities.elements.map (fun item => item.name)))
    "capability names must be unique"

def payload (manifest : RobotManifest) : Json :=
  .obj [("robot_id", .str manifest.robotId),
    ("manufacturer", .str manifest.manufacturer),
    ("model", .str manifest.model),
    ("robot_class", .str manifest.robotClass),
    ("capabilities", manifest.capabilities.payload Capability.payload),
    ("adapter_version", .str manifest.adapterVersion)]

end RobotManifest

/-!
## States
-/

structure BatteryState where
  level : Json
  status : Part BatteryStatus
  observedAtMs : Int
  estimatedRuntimeS : Option Int

namespace BatteryState

def check (battery : BatteryState) : Except Exn Unit := do
  Registry.BatteryState.checkLevel battery.level
  refuseWhen (decide (battery.observedAtMs < 0))
    "battery observed_at_ms must be a non-negative integer"
  refuseWhen (battery.estimatedRuntimeS.any (fun s => decide (s < 0)))
    "battery estimated_runtime_s must be non-negative"
  refuseWhen (battery.status.isMember .notPresent &&
    (!battery.level.isNull || battery.estimatedRuntimeS.isSome))
    "battery telemetry must be null when no battery is present"

def payload (battery : BatteryState) : Json :=
  .obj [("level", battery.level),
    ("status", battery.status.payload (fun status => .str status.value)),
    ("observed_at_ms", .int battery.observedAtMs),
    ("estimated_runtime_s", .optional .int battery.estimatedRuntimeS)]

end BatteryState

structure RobotState where
  robotId : String
  mode : Json
  safety : Json
  activity : String
  intent : String
  progress : Json
  summary : String
  health : Json
  battery : Part BatteryState
  freshForMs : Json
  blockers : Json
  resources : Iterable String
  assignmentId : Json
  pose : Part PoseReference
  sensorReferences : Iterable SensorReference

namespace RobotState

/-- The checks of the parts and then of the state, which reads the URI and the digest of each
reference. -/
def check (library : Library) (state : RobotState) : Except Exn Unit := do
  state.pose.check (fun pose => pose.check library)
  checkAll (fun reference => reference.check library) state.sensorReferences.elements
  state.battery.check BatteryState.check
  identifier state.robotId "robot_id"
  requiredText state.activity "activity" maxTextBytes
  requiredText state.intent "intent" maxTextBytes
  let progress <- state.progress.number
  refuseWhen (!decide (0 ≤ progress ∧ progress ≤ 1)) "progress must be between 0 and 1"
  requiredText state.summary "summary" maxTextBytes
  let freshForMs <- state.freshForMs.number
  refuseWhen (!decide (1 ≤ freshForMs ∧ freshForMs ≤ 60000))
    "fresh_for_ms is outside the core profile"
  refuseWhen (hasRepeats state.resources.elements) "state resources must be unique"
  checkAll (fun resource => identifier resource "state resource") state.resources.elements
  refuseWhen (decide (32 < state.sensorReferences.elements.length))
    "state exceeds 32 sensor references"
  refuseWhen (hasRepeats (state.sensorReferences.elements.map (fun reference =>
    (reference.uri, reference.sha256)))) "state sensor references must be unique"

def payload (state : RobotState) : Json :=
  .obj [("robot_id", .str state.robotId),
    ("mode", state.mode),
    ("safety", state.safety),
    ("activity", .str state.activity),
    ("intent", .str state.intent),
    ("progress", state.progress),
    ("summary", .str state.summary),
    ("health", state.health),
    ("battery", state.battery.payload BatteryState.payload),
    ("fresh_for_ms", state.freshForMs),
    ("blockers", state.blockers),
    ("resources", state.resources.payload .str),
    ("assignment_id", state.assignmentId),
    ("pose", state.pose.payload PoseReference.payload),
    ("sensor_references", state.sensorReferences.payload SensorReference.payload)]

end RobotState

/-!
## Plans and assignments
-/

structure PlanStep where
  stepId : String
  description : String
  assignedRobotId : String
  capability : String
  inputs : Json
  completionCriteria : String
  dependsOn : Iterable String
  resources : Iterable String
  notBeforeMs : Json
  deadlineMs : Json

namespace PlanStep

def check (step : PlanStep) : Except Exn Unit := do
  identifier step.stepId "step_id"
  requiredText step.description "step description" maxLongTextBytes
  identifier step.assignedRobotId "assigned_robot_id"
  identifier step.capability "capability"
  requiredText step.completionCriteria "completion criteria" maxLongTextBytes
  checkAll (fun dependency => identifier dependency "dependency") step.dependsOn.elements
  refuseWhen (hasRepeats step.resources.elements) "step resources must be unique"
  checkAll (fun resource => identifier resource "step resource") step.resources.elements
  let notBefore <- step.notBeforeMs.number?
  refuseWhen (Ump.PlanStep.given notBefore (fun ms => decide (ms < 0)))
    "not_before_ms cannot be negative"
  let deadline <- step.deadlineMs.number?
  refuseWhen (Ump.PlanStep.given deadline (fun ms => decide (ms < 0)))
    "step deadline cannot be negative"
  refuseWhen (Ump.PlanStep.given notBefore (fun first =>
    Ump.PlanStep.given deadline (fun last => decide (last < first))))
    "step execution window is invalid"

def payload (step : PlanStep) : Json :=
  .obj [("step_id", .str step.stepId),
    ("description", .str step.description),
    ("assigned_robot_id", .str step.assignedRobotId),
    ("capability", .str step.capability),
    ("inputs", step.inputs),
    ("completion_criteria", .str step.completionCriteria),
    ("depends_on", step.dependsOn.payload .str),
    ("resources", step.resources.payload .str),
    ("not_before_ms", step.notBeforeMs),
    ("deadline_ms", step.deadlineMs)]

end PlanStep

/-- Of the steps the constructor only takes the length; a revision is any number. -/
structure Plan where
  planId : String
  goalId : String
  plannerId : String
  summary : String
  steps : Iterable (Part PlanStep)
  revision : Json
  supersedesPlanId : Option String

namespace Plan

def checkLineage (plan : Plan) : Except Exn Unit := do
  let revision <- plan.revision.number
  refuseWhen (decide (revision < 1)) "plan revision must be positive"
  refuseWhen (decide (revision = 1) && plan.supersedesPlanId.isSome)
    "initial plan revision cannot supersede another plan"
  if 1 < revision then
    match plan.supersedesPlanId with
    | none => .error (.value "later plan revision must identify its predecessor")
    | some previous => do
        identifier previous "supersedes_plan_id"
        refuseWhen (previous == plan.planId) "plan revision cannot supersede itself"

def check (plan : Plan) : Except Exn Unit := do
  checkAll (Part.check PlanStep.check) plan.steps.elements
  identifier plan.planId "plan_id"
  identifier plan.goalId "goal_id"
  identifier plan.plannerId "planner_id"
  requiredText plan.summary "plan summary" maxLongTextBytes
  plan.checkLineage
  refuseWhen (!(decide (1 ≤ plan.steps.elements.length ∧ plan.steps.elements.length ≤ 256)))
    "plan requires 1 to 256 steps"

def payload (plan : Plan) : Json :=
  .obj [("plan_id", .str plan.planId),
    ("goal_id", .str plan.goalId),
    ("planner_id", .str plan.plannerId),
    ("summary", .str plan.summary),
    ("steps", plan.steps.payload (Part.payload PlanStep.payload)),
    ("revision", plan.revision),
    ("supersedes_plan_id", .optional .str plan.supersedesPlanId)]

end Plan

structure Assignment where
  assignmentId : String
  goalId : String
  planId : String
  step : Part PlanStep
  authorityLeaseId : Option String

namespace Assignment

def check (assignment : Assignment) : Except Exn Unit := do
  assignment.step.check PlanStep.check
  identifier assignment.assignmentId "assignment_id"
  identifier assignment.goalId "goal_id"
  identifier assignment.planId "plan_id"
  match assignment.authorityLeaseId with
  | none => .ok ()
  | some lease => identifier lease "authority_lease_id"

def payload (assignment : Assignment) : Json :=
  .obj [("assignment_id", .str assignment.assignmentId),
    ("goal_id", .str assignment.goalId),
    ("plan_id", .str assignment.planId),
    ("step", assignment.step.payload PlanStep.payload),
    ("authority_lease_id", .optional .str assignment.authorityLeaseId)]

end Assignment

/-!
## Outcomes and answers
-/

/-- `status` is the argument, not the status that the constructor resolves it to. -/
structure Outcome where
  assignmentId : String
  robotId : String
  succeeded : Json
  description : String
  status : Part AssignmentStatus
  outputs : Json

namespace Outcome

/-- `status or (SUCCEEDED if succeeded else FAILED)`; a member counts as true. -/
def resolved (outcome : Outcome) : Part AssignmentStatus :=
  match outcome.status with
  | .built status => .built status
  | .other value =>
      if truthy value then .other value
      else if truthy outcome.succeeded then .built .succeeded else .built .failed

/-- The flag is compared with a boolean, so that 1 and 1.0 count as true. -/
def check (outcome : Outcome) : Except Exn Unit := do
  identifier outcome.assignmentId "assignment_id"
  identifier outcome.robotId "robot_id"
  requiredText outcome.description "outcome description" maxLongTextBytes
  refuseWhen (outcome.resolved.isMember .accepted) "accepted is not a terminal outcome status"
  refuseWhen (!outcome.succeeded.equal (.bool (outcome.resolved.isMember .succeeded)))
    "outcome succeeded flag and terminal status disagree"
  refuseWhen (!outcome.outputs.isObject) "outcome outputs must be an object"
  refuseWhen (decide (maxStructuredOutputBytes < Text.byteSize outcome.outputs.dumps))
    ("outcome outputs exceed " ++ toString maxStructuredOutputBytes ++ " UTF-8 bytes")

def payload (outcome : Outcome) : Json :=
  .obj [("assignment_id", .str outcome.assignmentId),
    ("robot_id", .str outcome.robotId),
    ("succeeded", outcome.succeeded),
    ("description", .str outcome.description),
    ("status", outcome.resolved.payload (fun status => .str status.value)),
    ("outputs", outcome.outputs)]

end Outcome

structure AssignmentAcknowledgement where
  assignmentId : String
  robotId : String
  status : Json
  description : String

namespace AssignmentAcknowledgement

def check (acknowledgement : AssignmentAcknowledgement) : Except Exn Unit := do
  identifier acknowledgement.assignmentId "assignment_id"
  identifier acknowledgement.robotId "robot_id"
  requiredText acknowledgement.description "acknowledgement description" maxLongTextBytes

def payload (acknowledgement : AssignmentAcknowledgement) : Json :=
  .obj [("assignment_id", .str acknowledgement.assignmentId),
    ("robot_id", .str acknowledgement.robotId),
    ("status", acknowledgement.status),
    ("description", .str acknowledgement.description)]

end AssignmentAcknowledgement

structure CancellationAcknowledgement where
  assignmentId : String
  robotId : String
  status : Json
  description : String

namespace CancellationAcknowledgement

def check (acknowledgement : CancellationAcknowledgement) : Except Exn Unit := do
  identifier acknowledgement.assignmentId "assignment_id"
  identifier acknowledgement.robotId "robot_id"
  requiredText acknowledgement.description "cancellation description" maxLongTextBytes

def payload (acknowledgement : CancellationAcknowledgement) : Json :=
  .obj [("assignment_id", .str acknowledgement.assignmentId),
    ("robot_id", .str acknowledgement.robotId),
    ("status", acknowledgement.status),
    ("description", .str acknowledgement.description)]

end CancellationAcknowledgement

/-- The answer to a query; the stored outcome is one that a journal holds. -/
structure AssignmentSnapshot where
  assignmentId : String
  robotId : String
  status : Part AssignmentStatus
  description : String
  fingerprint : String
  outcome : Option Outcome

namespace AssignmentSnapshot

def check (snapshot : AssignmentSnapshot) : Except Exn Unit := do
  identifier snapshot.assignmentId "assignment_id"
  identifier snapshot.robotId "robot_id"
  requiredText snapshot.description "snapshot description" maxLongTextBytes
  requiredText snapshot.fingerprint "fingerprint" 128
  refuseWhen (snapshot.outcome.any (fun o => decide (o.assignmentId ≠ snapshot.assignmentId)))
    "snapshot outcome assignment_id does not match"
  refuseWhen (snapshot.outcome.any (fun o => decide (o.robotId ≠ snapshot.robotId)))
    "snapshot outcome robot_id does not match"

/-- The stored outcome has been built, and its status is the one of the snapshot. -/
structure Built (snapshot : AssignmentSnapshot) : Prop where
  checked : snapshot.check = .ok ()
  outcome : forall outcome, snapshot.outcome = some outcome ->
    outcome.check = .ok () ∧ outcome.resolved = snapshot.status

def payload (snapshot : AssignmentSnapshot) : Json :=
  .obj [("assignment_id", .str snapshot.assignmentId),
    ("robot_id", .str snapshot.robotId),
    ("status", snapshot.status.payload (fun status => .str status.value)),
    ("description", .str snapshot.description),
    ("fingerprint", .str snapshot.fingerprint),
    ("outcome", .optional Outcome.payload snapshot.outcome)]

end AssignmentSnapshot

/-!
## The models as arguments

A built model of the other modules is one of these arguments, with the same payload.
-/

namespace Capability

def ofModel (capability : Ump.Capability) : Capability where
  name := capability.name
  description := capability.description
  inputSchema := capability.inputSchema
  outputSchema := capability.outputSchema
  availability := .str capability.availability.value

end Capability

namespace RobotManifest

def ofModel (manifest : Registry.Manifest) : RobotManifest where
  robotId := manifest.robotId
  manufacturer := manifest.manufacturer
  model := manifest.model
  robotClass := manifest.robotClass
  capabilities := .items (manifest.capabilities.map Capability.ofModel)
  adapterVersion := manifest.adapterVersion

theorem check_ofModel (library : Library) (manifest : Registry.Manifest) :
    (ofModel manifest).check library = manifest.checkBuilt library := by
  unfold check ofModel Iterable.elements Registry.Manifest.checkBuilt
  rw [checkAll_map, List.map_map]
  rfl

theorem payload_ofModel (manifest : Registry.Manifest) :
    (ofModel manifest).payload = manifest.payload := by
  have hcapabilities : (manifest.capabilities.map Capability.ofModel).map Capability.payload =
      manifest.capabilities.map Registry.capabilityPayload := by
    rw [List.map_map]
    rfl
  unfold payload ofModel Iterable.payload Registry.Manifest.payload
  dsimp only
  rw [hcapabilities]

end RobotManifest

namespace BatteryState

def ofModel (battery : Registry.BatteryState) : BatteryState where
  level := battery.level
  status := .built battery.status
  observedAtMs := battery.observedAtMs
  estimatedRuntimeS := battery.estimatedRuntimeS

end BatteryState

namespace RobotState

def ofModel (state : Registry.RobotState) : RobotState where
  robotId := state.robotId
  mode := .str state.mode.value
  safety := .str state.safety.value
  activity := state.activity
  intent := state.intent
  progress := state.progress
  summary := state.summary
  health := .str state.health.value
  battery := state.battery.elim (.other .null) (fun battery => .built (.ofModel battery))
  freshForMs := state.freshForMs
  blockers := .arr state.blockers
  resources := .items state.resources
  assignmentId := state.assignmentId
  pose := state.pose.elim (.other .null) .built
  sensorReferences := .items state.sensorReferences

theorem check_ofModel (library : Library) (state : Registry.RobotState) :
    (ofModel state).check library = state.checkBuilt library := by
  rw [Registry.RobotState.checkBuilt_eq]
  unfold check ofModel
  cases state.pose with
  | none => cases state.battery <;> rfl
  | some pose => cases state.battery <;> rfl

theorem payload_ofModel (state : Registry.RobotState) :
    (ofModel state).payload = state.payload := by
  unfold payload ofModel Registry.RobotState.payload
  cases state.pose with
  | none => cases state.battery <;> rfl
  | some pose => cases state.battery <;> rfl

end RobotState

namespace PlanStep

def ofModel (step : Ump.PlanStep) : PlanStep where
  stepId := step.stepId
  description := step.description
  assignedRobotId := step.assignedRobotId
  capability := step.capability
  inputs := step.inputs
  completionCriteria := step.completionCriteria
  dependsOn := .items step.dependsOn
  resources := .items step.resources
  notBeforeMs := step.notBeforeMs
  deadlineMs := step.deadlineMs

end PlanStep

namespace Plan

def ofModel (plan : Ump.Plan) : Plan where
  planId := plan.planId
  goalId := plan.goalId
  plannerId := plan.plannerId
  summary := plan.summary
  steps := .items (plan.steps.map (fun step => .built (.ofModel step)))
  revision := .int plan.revision
  supersedesPlanId := plan.supersedesPlanId

theorem checkLineage_ofModel (plan : Ump.Plan) :
    (ofModel plan).checkLineage = plan.checkLineage := by
  have hpositive : decide ((plan.revision : Rat) < 1) = decide (plan.revision < 1) :=
    decide_eq_decide.mpr (by exact_mod_cast Iff.rfl)
  have hinitial : decide ((plan.revision : Rat) = 1) = decide (plan.revision = 1) :=
    decide_eq_decide.mpr (by exact_mod_cast Iff.rfl)
  have hlater : (1 : Rat) < plan.revision <-> 1 < plan.revision := by
    exact_mod_cast Iff.rfl
  unfold checkLineage ofModel Ump.Plan.checkLineage
  simp only [Json.number, bind, Except.bind]
  rw [hpositive, hinitial]
  by_cases hlate : 1 < plan.revision
  · rewrite [if_pos hlate, if_pos (hlater.mpr hlate)]
    rfl
  · rewrite [if_neg hlate, if_neg (fun h => hlate (hlater.mp h))]
    rfl

theorem check_ofModel (plan : Ump.Plan) : (ofModel plan).check = plan.check := by
  unfold check
  rw [checkLineage_ofModel]
  unfold ofModel Iterable.elements Ump.Plan.check
  rw [checkAll_map, List.length_map]
  rfl

theorem payload_ofModel (plan : Ump.Plan) : (ofModel plan).payload = plan.payload := by
  have hsteps : (plan.steps.map (fun step => Part.built (PlanStep.ofModel step))).map
      (Part.payload PlanStep.payload) = plan.steps.map Ump.PlanStep.payload := by
    rw [List.map_map]
    rfl
  unfold payload ofModel Iterable.payload Ump.Plan.payload
  dsimp only
  rw [hsteps]

end Plan

namespace Assignment

def ofModel (assignment : Ump.Assignment) : Assignment where
  assignmentId := assignment.assignmentId
  goalId := assignment.goalId
  planId := assignment.planId
  step := .built (.ofModel assignment.step)
  authorityLeaseId := assignment.authorityLeaseId

theorem check_ofModel (assignment : Ump.Assignment) :
    (ofModel assignment).check = assignment.check := rfl

theorem payload_ofModel (assignment : Ump.Assignment) :
    (ofModel assignment).payload = assignment.payload := rfl

end Assignment

namespace Outcome

def ofModel (outcome : Ump.Outcome) : Outcome where
  assignmentId := outcome.assignmentId
  robotId := outcome.robotId
  succeeded := .bool outcome.succeeded
  description := outcome.description
  status := .built outcome.status
  outputs := outcome.outputs

theorem payload_ofModel (outcome : Ump.Outcome) :
    (ofModel outcome).payload = outcome.payload := rfl

theorem check_ofModel {outcome : Ump.Outcome} (h : outcome.Built) :
    (ofModel outcome).check = .ok () := by
  rcases Ump.Outcome.make_eq_ok h with ⟨hassignmentId, hrobotId, hdescription, _⟩
  rcases Ump.Outcome.outputs_checked h with ⟨hobject, hbytes⟩
  have hstatus : decide (outcome.status = .accepted) = false := decide_eq_false outcome.notAccepted
  have hflag : (Json.bool outcome.succeeded).equal
      (.bool (decide (outcome.status = .succeeded))) = true := by
    rw [← outcome.flagAgrees]
    cases outcome.succeeded <;> rfl
  unfold check ofModel resolved Part.isMember
  simp [bind, Except.bind, hassignmentId, hrobotId, hdescription, hstatus, hflag, hobject,
    refuseWhen, Nat.not_lt.mpr hbytes]

end Outcome

end Ump.Given
