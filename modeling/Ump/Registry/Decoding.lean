import Ump.Registry.Robots

/-!
# Reading manifests and states

## Parts

The registry builds the objects again from the members of a payload. Every check of a
dataclass is made when its object is built.
-/

namespace Ump.Registry

open Participant (Safety)

/-- The member of an enumeration with this value; every other value is refused. -/
def readMember (members : List value) (valueOf : value -> String) (typeName : String)
    (data : Json) : Except Exn value :=
  match data with
  | .str text =>
      match memberOf members valueOf text with
      | some member => .ok member
      | none => .error (.value (text ++ " is not a valid " ++ typeName))
  | _ => .error (.value ("not a valid " ++ typeName))

def readMode : Json -> Except Exn Mode := readMember Mode.members Mode.value "Mode"

def readSafety : Json -> Except Exn Safety := readMember Safety.members Safety.value "Safety"

def readHealth : Json -> Except Exn Health := readMember Health.members Health.value "Health"

def readBatteryStatus : Json -> Except Exn BatteryStatus :=
  readMember BatteryStatus.members BatteryStatus.value "BatteryStatus"

def readAvailability : Json -> Except Exn Availability :=
  readMember Availability.members Availability.value "Availability"

def exactInt (text : String) : Json -> Except Exn Int
  | .int n => .ok n
  | _ => .error (.value text)

def exactInt? (text : String) : Json -> Except Exn (Option Int)
  | .null => .ok none
  | data => do
      let n <- exactInt text data
      .ok (some n)

def readAll (read : Json -> Except Exn value) : List Json -> Except Exn (List value)
  | [] => .ok []
  | item :: rest => do
      let first <- read item
      let others <- readAll read rest
      .ok (first :: others)

def readOptional (read : Json -> Except Exn value) : Json -> Except Exn (Option value)
  | .null => .ok none
  | data => do
      let v <- read data
      .ok (some v)

def readPose (library : Library) (data : Json) : Except Exn PoseReference := do
  let frameId <- data.item "frame_id" >>= Json.text
  let positionM <- data.item "position_m" >>= Json.tuple
  let orientationXyzw <- data.item "orientation_xyzw" >>= Json.tuple
  let observedAtMs <- data.item "observed_at_ms"
  let pose : PoseReference :=
    { frameId := frameId
      positionM := positionM
      orientationXyzw := orientationXyzw
      observedAtMs := observedAtMs }
  pose.check library
  .ok pose

def readSensorReference (library : Library) (data : Json) : Except Exn SensorReference := do
  let uri <- data.item "uri" >>= Json.text
  let mediaType <- data.item "media_type" >>= Json.text
  let byteLength <- data.item "byte_length" >>=
    exactInt "sensor byte_length is outside the core profile"
  let sha256 <- data.item "sha256" >>= Json.text
  let observedAtMs <- data.item "observed_at_ms"
  let expiresAtMs <- data.get "expires_at_ms" .null
  let frameId <- data.get "frame_id" .null >>= Json.text?
  let reference : SensorReference :=
    { uri := uri
      mediaType := mediaType
      byteLength := byteLength
      sha256 := sha256
      observedAtMs := observedAtMs
      expiresAtMs := expiresAtMs
      frameId := frameId }
  reference.check library
  .ok reference

def readBattery (data : Json) : Except Exn BatteryState := do
  let level <- data.get "level" .null
  let status <- data.item "status" >>= readBatteryStatus
  let observedAtMs <- data.item "observed_at_ms" >>=
    exactInt "battery observed_at_ms must be a non-negative integer"
  let estimatedRuntimeS <- data.get "estimated_runtime_s" .null >>=
    exactInt? "battery estimated_runtime_s must be non-negative"
  let battery : BatteryState :=
    { level := level
      status := status
      observedAtMs := observedAtMs
      estimatedRuntimeS := estimatedRuntimeS }
  battery.check
  .ok battery

def readCapability (library : Library) (data : Json) : Except Exn Capability := do
  let name <- data.item "name" >>= Json.text
  let description <- data.item "description" >>= Json.text
  let inputSchema <- data.get "input_schema" (.obj [])
  let outputSchema <- data.get "output_schema" (.obj [])
  let availability <- data.get "availability" (.str "available") >>= readAvailability
  let capability : Capability :=
    { name := name
      description := description
      inputSchema := inputSchema
      outputSchema := outputSchema
      availability := availability }
  checkCapability library capability
  .ok capability

/-!
## Manifests and states
-/

/-- The manifest that `_manifest` builds from a payload. -/
def readManifest (library : Library) (data : Json) : Except Exn Manifest := do
  let capabilities <- data.item "capabilities" >>= Json.tuple >>=
    readAll (readCapability library)
  let robotId <- data.item "robot_id" >>= Json.text
  let manufacturer <- data.item "manufacturer" >>= Json.text
  let model <- data.item "model" >>= Json.text
  let robotClass <- data.item "robot_class" >>= Json.text
  let adapterVersion <- data.get "adapter_version" (.str "0.1.0") >>= Json.text
  let manifest : Manifest :=
    { robotId := robotId
      capabilities := capabilities
      manufacturer := manufacturer
      model := model
      robotClass := robotClass
      adapterVersion := adapterVersion }
  manifest.check
  .ok manifest

/-- The state that `_state` builds from a payload. -/
def readState (library : Library) (data : Json) : Except Exn RobotState := do
  let pose <- data.get "pose" .null >>= readOptional (readPose library)
  let sensorReferences <- data.get "sensor_references" (.arr []) >>= Json.tuple >>=
    readAll (readSensorReference library)
  let battery <- data.get "battery" .null >>= readOptional readBattery
  let robotId <- data.item "robot_id" >>= Json.text
  let mode <- data.item "mode" >>= readMode
  let safety <- data.item "safety" >>= readSafety
  let activity <- data.item "activity" >>= Json.text
  let intent <- data.item "intent" >>= Json.text
  let progress <- data.item "progress"
  let summary <- data.item "summary" >>= Json.text
  let health <- data.get "health" (.str "unknown") >>= readHealth
  let freshForMs <- data.get "fresh_for_ms" (.int 2000)
  let blockers <- data.get "blockers" (.arr []) >>= Json.tuple
  let resources <- data.get "resources" (.arr []) >>= Json.tuple >>= textItems
  let assignmentId <- data.get "assignment_id" .null
  let state : RobotState :=
    { robotId := robotId
      mode := mode
      safety := safety
      activity := activity
      intent := intent
      progress := progress
      summary := summary
      health := health
      battery := battery
      freshForMs := freshForMs
      blockers := blockers
      resources := resources
      assignmentId := assignmentId
      pose := pose
      sensorReferences := sensorReferences }
  state.check
  .ok state

end Ump.Registry
