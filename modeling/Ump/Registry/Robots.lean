import Ump.Participant.Runtime
import Ump.Registry.CapabilityUnits

/-!
# Manifests and robot states

## Enumerations

The values of each enumeration as the dataclasses write and read them.
-/

namespace Ump

/-- The member of an enumeration that has a text as its value. -/
def memberOf (members : List value) (valueOf : value -> String) (text : String) :
    Option value :=
  members.find? (fun member => valueOf member == text)

def Availability.value : Availability -> String
  | .available => "available"
  | .busy => "busy"
  | .degraded => "degraded"
  | .unavailable => "unavailable"

def Availability.members : List Availability :=
  [.available, .busy, .degraded, .unavailable]

namespace Participant

def Safety.value : Safety -> String
  | .normal => "normal"
  | .protectiveStop => "protective_stop"
  | .emergencyStop => "emergency_stop"
  | .recoveryRequired => "recovery_required"
  | .unknown => "unknown"

def Safety.members : List Safety :=
  [.normal, .protectiveStop, .emergencyStop, .recoveryRequired, .unknown]

end Participant

namespace Registry

open Participant (Safety)

inductive Mode where
  | starting
  | idle
  | working
  | waiting
  | paused
  | faulted
  | offline
deriving DecidableEq, Repr

def Mode.value : Mode -> String
  | .starting => "starting"
  | .idle => "idle"
  | .working => "working"
  | .waiting => "waiting"
  | .paused => "paused"
  | .faulted => "faulted"
  | .offline => "offline"

def Mode.members : List Mode :=
  [.starting, .idle, .working, .waiting, .paused, .faulted, .offline]

inductive Health where
  | healthy
  | degraded
  | faulted
  | unknown
deriving DecidableEq, Repr

def Health.value : Health -> String
  | .healthy => "healthy"
  | .degraded => "degraded"
  | .faulted => "faulted"
  | .unknown => "unknown"

def Health.members : List Health :=
  [.healthy, .degraded, .faulted, .unknown]

inductive BatteryStatus where
  | charging
  | discharging
  | full
  | notPresent
  | unknown
deriving DecidableEq, Repr

def BatteryStatus.value : BatteryStatus -> String
  | .charging => "charging"
  | .discharging => "discharging"
  | .full => "full"
  | .notPresent => "not_present"
  | .unknown => "unknown"

def BatteryStatus.members : List BatteryStatus :=
  [.charging, .discharging, .full, .notPresent, .unknown]

/-!
## Checks on numbers and texts
-/

/-- What the checks take from the standard library: the scheme that `urlsplit` finds, which
may raise, the floating-point test that a quaternion is normalized, and the digits of every
script that `str.isdigit` knows. -/
structure Library where
  urlScheme : String -> Except Exn String
  normalized : List Rat -> Bool
  isDigit : Char -> Bool

def doubleBound : Rat := 2 ^ 1024 - 2 ^ 970

/-- `math.isfinite(value)`, which is true of every number that it can convert. -/
def finite (value : Json) : Except Exn Rat := do
  let n <- value.number
  if doubleBound ≤ n ∨ n ≤ -doubleBound then .error .overflow else .ok n

def finiteAll : List Json -> Except Exn (List Rat)
  | [] => .ok []
  | value :: rest => do
      let n <- finite value
      let ns <- finiteAll rest
      .ok (n :: ns)

def isAsciiLetter (c : Char) : Bool :=
  ('a' ≤ c && c ≤ 'z') || ('A' ≤ c && c ≤ 'Z')

def isAsciiDigit (c : Char) : Bool :=
  '0' ≤ c && c ≤ '9'

def isFrameCharacter (c : Char) : Bool :=
  isAsciiLetter c || isAsciiDigit c || ['_', '.', '-', '/'].contains c

/-- `FRAME_ID_PATTERN.fullmatch`. -/
def matchesFrameId (text : String) : Bool :=
  match text.toList with
  | [] => false
  | first :: rest => isAsciiLetter first && rest.all isFrameCharacter && rest.length ≤ 127

def isMediaCharacter (c : Char) : Bool :=
  isAsciiLetter c || isAsciiDigit c ||
    ['!', '#', '$', '&', '^', '_', '.', '+', '-'].contains c

/-- `MEDIA_TYPE_PATTERN.fullmatch`; the class of its characters has no slash. -/
def matchesMediaType (text : String) : Bool :=
  let before := text.toList.takeWhile isMediaCharacter
  match text.toList.dropWhile isMediaCharacter with
  | '/' :: after => !before.isEmpty && !after.isEmpty && after.all isMediaCharacter
  | _ => false

def isHexDigit (c : Char) : Bool :=
  isAsciiDigit c || ('a' ≤ c && c ≤ 'f')

def maxReferenceUriBytes : Nat := 2048

/-!
## Poses, references and batteries

A field whose type no check looks at is kept as the value that the message carries.
-/

structure PoseReference where
  frameId : String
  positionM : List Json
  orientationXyzw : List Json
  observedAtMs : Json

namespace PoseReference

def check (library : Library) (pose : PoseReference) : Except Exn Unit := do
  refuseWhen (!matchesFrameId pose.frameId) "pose frame_id is outside the core profile"
  let _ <-
    if pose.positionM.length = 3 then finiteAll pose.positionM
    else .error (.value "pose position_m requires three finite SI meter values")
  let values <-
    if pose.orientationXyzw.length = 4 then finiteAll pose.orientationXyzw
    else .error (.value "pose orientation_xyzw requires four finite values")
  refuseWhen (!library.normalized values)
    "pose orientation_xyzw must be a normalized quaternion"
  let observed <- pose.observedAtMs.number
  refuseWhen (decide (observed < 0)) "pose observed_at_ms cannot be negative"

def payload (pose : PoseReference) : Json :=
  .obj [("frame_id", .str pose.frameId),
    ("position_m", .arr pose.positionM),
    ("orientation_xyzw", .arr pose.orientationXyzw),
    ("observed_at_ms", pose.observedAtMs)]

end PoseReference

structure SensorReference where
  uri : String
  mediaType : String
  byteLength : Int
  sha256 : String
  observedAtMs : Json
  expiresAtMs : Json
  frameId : Option String

namespace SensorReference

/-- The digest rule: 64 hexadecimal characters, in lower case. -/
def checkDigest (sha256 : String) : Except Exn Unit := do
  let digest := sha256.toList.map Char.toLower
  refuseWhen (!decide (digest.length = 64) || !digest.all isHexDigit)
    "sensor sha256 must be 64 hexadecimal characters"
  refuseWhen (decide (sha256.toList ≠ digest)) "sensor sha256 must use lowercase hexadecimal"

def check (library : Library) (reference : SensorReference) : Except Exn Unit := do
  refuseWhen (reference.uri.isEmpty ||
    decide (maxReferenceUriBytes < Text.byteSize reference.uri.toList))
    "sensor URI is outside the core profile"
  let scheme <- library.urlScheme reference.uri
  refuseWhen (scheme.isEmpty || scheme.toList.map Char.toLower == "data".toList)
    "sensor URI must be absolute and cannot embed data"
  refuseWhen (!matchesMediaType reference.mediaType) "sensor media_type is invalid"
  refuseWhen (!decide (0 ≤ reference.byteLength ∧ reference.byteLength < 2 ^ 63))
    "sensor byte_length is outside the core profile"
  checkDigest reference.sha256
  let observed <- reference.observedAtMs.number
  refuseWhen (decide (observed < 0)) "sensor observed_at_ms cannot be negative"
  let expires <- reference.expiresAtMs.number?
  refuseWhen (PlanStep.given expires (fun ms => decide (ms < observed)))
    "sensor reference cannot expire before observation"
  refuseWhen (reference.frameId.any (fun frameId => !matchesFrameId frameId))
    "sensor frame_id is outside the core profile"

def payload (reference : SensorReference) : Json :=
  .obj [("uri", .str reference.uri),
    ("media_type", .str reference.mediaType),
    ("byte_length", .int reference.byteLength),
    ("sha256", .str reference.sha256),
    ("observed_at_ms", reference.observedAtMs),
    ("expires_at_ms", reference.expiresAtMs),
    ("frame_id", .optional .str reference.frameId)]

end SensorReference

structure BatteryState where
  level : Json
  status : BatteryStatus
  observedAtMs : Int
  estimatedRuntimeS : Option Int

namespace BatteryState

def checkLevel : Json -> Except Exn Unit
  | .null => .ok ()
  | level => do
      let n <- finite level
      refuseWhen (!decide (0 ≤ n ∧ n ≤ 1)) "battery level must be null or between 0 and 1"

def check (battery : BatteryState) : Except Exn Unit := do
  checkLevel battery.level
  refuseWhen (decide (battery.observedAtMs < 0))
    "battery observed_at_ms must be a non-negative integer"
  refuseWhen (battery.estimatedRuntimeS.any (fun s => decide (s < 0)))
    "battery estimated_runtime_s must be non-negative"
  refuseWhen (decide (battery.status = .notPresent) &&
    (!battery.level.isNull || battery.estimatedRuntimeS.isSome))
    "battery telemetry must be null when no battery is present"

def payload (battery : BatteryState) : Json :=
  .obj [("level", battery.level),
    ("status", .str battery.status.value),
    ("observed_at_ms", .int battery.observedAtMs),
    ("estimated_runtime_s", .optional .int battery.estimatedRuntimeS)]

end BatteryState

/-!
## Manifests
-/

/-- `text.rpartition("/v")`: what stands before and after the last separator. -/
def versionSplit : Text -> Option (Text × Text)
  | [] => none
  | c :: rest =>
      match versionSplit rest with
      | some (before, version) => some (c :: before, version)
      | none =>
          match c, rest with
          | '/', 'v' :: version => some ([], version)
          | _, _ => none

def isVersioned (library : Library) (name : String) : Bool :=
  match versionSplit name.toList with
  | some (before, version) =>
      !before.isEmpty && !version.isEmpty && version.all library.isDigit
  | none => false

def checkCapability (library : Library) (capability : Capability) : Except Exn Unit := do
  identifier capability.name "capability name"
  requiredText capability.description "capability description" maxTextBytes
  refuseWhen (!isVersioned library capability.name)
    "capability requires a versioned name and description"
  validateCapabilityUnits capability.inputSchema "capability input schema"
  validateCapabilityUnits capability.outputSchema "capability output schema"

def capabilityPayload (capability : Capability) : Json :=
  .obj [("name", .str capability.name),
    ("description", .str capability.description),
    ("input_schema", capability.inputSchema),
    ("output_schema", capability.outputSchema),
    ("availability", .str capability.availability.value)]

/-- A manifest with the fields that only its readers at other robots see. -/
structure Manifest extends RobotManifest where
  manufacturer : String
  model : String
  robotClass : String
  adapterVersion : String

namespace Manifest

def check (manifest : Manifest) : Except Exn Unit := do
  identifier manifest.robotId "robot_id"
  requiredText manifest.manufacturer "manufacturer" maxTextBytes
  requiredText manifest.model "model" maxTextBytes
  identifier manifest.robotClass "robot_class"
  requiredText manifest.adapterVersion "adapter_version" 64
  refuseWhen (hasRepeats (manifest.capabilities.map (fun item => item.name)))
    "capability names must be unique"

/-- The checks of the capabilities and then of the manifest, in the order in which the
objects are built. -/
def checkBuilt (library : Library) (manifest : Manifest) : Except Exn Unit := do
  checkAll (checkCapability library) manifest.capabilities
  manifest.check

def payload (manifest : Manifest) : Json :=
  .obj [("robot_id", .str manifest.robotId),
    ("manufacturer", .str manifest.manufacturer),
    ("model", .str manifest.model),
    ("robot_class", .str manifest.robotClass),
    ("capabilities", .arr (manifest.capabilities.map capabilityPayload)),
    ("adapter_version", .str manifest.adapterVersion)]

end Manifest

/-!
## States
-/

structure RobotState where
  robotId : String
  mode : Mode
  safety : Safety
  activity : String
  intent : String
  progress : Json
  summary : String
  health : Health
  battery : Option BatteryState
  freshForMs : Json
  blockers : List Json
  resources : List String
  assignmentId : Json
  pose : Option PoseReference
  sensorReferences : List SensorReference

namespace RobotState

def check (state : RobotState) : Except Exn Unit := do
  identifier state.robotId "robot_id"
  requiredText state.activity "activity" maxTextBytes
  requiredText state.intent "intent" maxTextBytes
  let progress <- state.progress.number
  refuseWhen (!decide (0 ≤ progress ∧ progress ≤ 1)) "progress must be between 0 and 1"
  requiredText state.summary "summary" maxTextBytes
  let freshForMs <- state.freshForMs.number
  refuseWhen (!decide (1 ≤ freshForMs ∧ freshForMs ≤ 60000))
    "fresh_for_ms is outside the core profile"
  refuseWhen (hasRepeats state.resources) "state resources must be unique"
  checkAll (fun resource => identifier resource "state resource") state.resources
  refuseWhen (decide (32 < state.sensorReferences.length)) "state exceeds 32 sensor references"
  refuseWhen (hasRepeats (state.sensorReferences.map (fun reference =>
    (reference.uri, reference.sha256)))) "state sensor references must be unique"

/-- The checks of the parts and then of the state, in the order in which the registry builds
them. -/
def checkBuilt (library : Library) (state : RobotState) : Except Exn Unit := do
  match state.pose with
  | none => .ok ()
  | some pose => pose.check library
  checkAll (fun reference => reference.check library) state.sensorReferences
  match state.battery with
  | none => .ok ()
  | some battery => battery.check
  state.check

def payload (state : RobotState) : Json :=
  .obj [("robot_id", .str state.robotId),
    ("mode", .str state.mode.value),
    ("safety", .str state.safety.value),
    ("activity", .str state.activity),
    ("intent", .str state.intent),
    ("progress", state.progress),
    ("summary", .str state.summary),
    ("health", .str state.health.value),
    ("battery", .optional BatteryState.payload state.battery),
    ("fresh_for_ms", state.freshForMs),
    ("blockers", .arr state.blockers),
    ("resources", .strings state.resources),
    ("assignment_id", state.assignmentId),
    ("pose", .optional PoseReference.payload state.pose),
    ("sensor_references", .arr (state.sensorReferences.map SensorReference.payload))]

end RobotState

end Registry

end Ump
