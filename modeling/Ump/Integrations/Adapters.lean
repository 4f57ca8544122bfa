import Ump.Integrations.Mapping

/-!
# State documents of the standards

## VDA 5050

The states that the adapters build name no blockers, resources or sensor references. A position
counts when the robot vouches for it, and the reach is a number of minutes.
-/

namespace Ump.Integrations

open Registry (Fields member attributeGet hashable holds RobotState BatteryState PoseReference
  Mode Health BatteryStatus)
open Participant (Safety)

def plainState (robotId : String) (mode : Mode) (safety : Safety) (activity intent : String)
    (progress : Json) (summary : String) (health : Health) (battery : Option BatteryState)
    (assignmentId : Option String) (pose : Option PoseReference) : RobotState where
  robotId := robotId
  mode := mode
  safety := safety
  activity := activity
  intent := intent
  progress := progress
  summary := summary
  health := health
  battery := battery
  freshForMs := .int 2000
  blockers := []
  resources := []
  assignmentId := .optional .str assignmentId
  pose := pose
  sensorReferences := []

def batteryState (library : Library) (charge charging : Json) (runtime : Except Exn (Option Int))
    (observedAtMs : Int) : Except Exn BatteryState := do
  let percent <- float library charge
  let level <- library.rounded (percent / 100)
  let runtimeS <- runtime
  let battery : BatteryState :=
    { level := doubleValue library level
      status := if truthy charging then .charging else .discharging
      observedAtMs := observedAtMs
      estimatedRuntimeS := runtimeS }
  battery.check
  .ok battery

namespace Vda5050

/-- `VDA_STATE_TO_MODE`. -/
def stateToMode : List (String × Mode) :=
  [("AUTOMATIC", .working), ("SEMIAUTOMATIC", .waiting), ("SERVICE", .paused),
    ("TEACHIN", .paused)]

def safety (document : Fields) : Except Exn Safety := do
  let safetyDocument := valueOr (member document "safetyState" .null) (.obj [])
  let eStop <- attributeGet safetyDocument "eStop" .null
  hashable eStop
  if eStop.isNull || eStop.isText "NONE" then do
    let fieldViolation <- attributeGet safetyDocument "fieldViolation" .null
    .ok (if truthy fieldViolation then .protectiveStop else .normal)
  else .ok .emergencyStop

def runtime (library : Library) (reach : Json) : Except Exn (Option Int) :=
  match reach with
  | .null => .ok none
  | reach => do
      let minutes <- float library reach
      let seconds <- library.rounded (minutes * 60)
      .ok (some (truncated seconds))

def battery (library : Library) (document : Fields) (observedAtMs : Int) :
    Except Exn (Option BatteryState × FieldMapping) := do
  let batteryDocument := valueOr (member document "batteryState" .null) (.obj [])
  let reported <- holds "batteryCharge" batteryDocument
  if reported then do
    let charge <- batteryDocument.item "batteryCharge"
    let charging <- attributeGet batteryDocument "charging" .null
    let reach <- attributeGet batteryDocument "reach" .null
    let battery <- batteryState library charge charging (runtime library reach) observedAtMs
    .ok (some battery, { field := "batteryState", status := .mapped })
  else
    .ok (none,
      { field := "batteryState", status := .unsupported, detail := "batteryCharge absent" })

def position (document : Fields) : Option Fields :=
  match member document "agvPosition" .null with
  | .obj position =>
      if isFalse (member position "positionInitialized" .null) then none else some position
  | _ => none

def pose (library : Library) (document : Fields) (observedAtMs : Int) :
    Except Exn (Option PoseReference × List FieldMapping) :=
  match position document with
  | none => .ok (none, [])
  | some position => do
      let yaw <- float library (member position "theta" (.float 0 "0.0"))
      let x <- float library (member position "x" (.int 0))
      let y <- float library (member position "y" (.int 0))
      let pose <- planarPose library
        (str library (valueOr (member position "mapId" .null) (.str "vda-map"))) x y 0 yaw
        observedAtMs
      .ok (some pose, [{ field := "agvPosition", status := .mapped }])

def read (library : Library) (robotId : String) (document : Fields) (observedAtMs : Int) :
    Except Exn Reading := do
  let faulted := truthy (member document "errors" .null)
  let safety <- safety document
  let mode := (stateToMode.lookup (str library (member document "operatingMode" (.str "")))).getD
    .waiting
  let (battery, batteryField) <- battery library document observedAtMs
  let (pose, poseFields) <- pose library document observedAtMs
  let orderId := textOrNone library (member document "orderId" .null)
  let lastNode := str library (valueOr (member document "lastNodeId" .null) (.str ""))
  .ok
    { state := plainState robotId (if faulted then .faulted else mode) safety
        (match orderId with
          | some order => "VDA order " ++ order
          | none => "No VDA order reported")
        (if lastNode.isEmpty then "Unknown: no VDA route context"
          else "Proceed from " ++ lastNode)
        (.float 0 "0.0") ("VDA 5050 mobile robot is " ++ mode.value)
        (if faulted then .faulted else .healthy) battery orderId pose
      fields := [{ field := "operatingMode", status := .mapped },
        { field := "safetyState", status := .mapped },
        { field := "errors", status := .mapped }, batteryField] ++ poseFields
      correlationId := orderId }

end Vda5050

def vda5050 : Standard where
  standard := "vda5050"
  standardVersion := "3.0.0"
  identityField := "serialNumber"
  identityMismatch := "VDA 5050 state identity does not match configured identity"
  read := Vda5050.read

/-!
## MassRobotics

The run time that is left is a number of seconds. The standard has no field for safety.
-/

namespace MassRobotics

def status (library : Library) (value : Json) : Mode × Availability :=
  let normalized := library.lower (str library (valueOr value (.str "")))
  if ["working", "active", "moving"].contains normalized then (.working, .busy)
  else if ["idle", "available"].contains normalized then (.idle, .available)
  else if ["offline", "unavailable"].contains normalized then (.offline, .unavailable)
  else if ["faulted", "error"].contains normalized then (.faulted, .degraded)
  else (.waiting, .degraded)

def runtime (library : Library) (remaining : Json) : Except Exn (Option Int) :=
  match remaining with
  | .null => .ok none
  | remaining => do
      let seconds <- int library remaining
      .ok (some seconds)

def battery (library : Library) (document : Fields) (observedAtMs : Int) :
    Except Exn (Option BatteryState × FieldMapping) :=
  match document.lookup "batteryPercentage" with
  | some percentage => do
      let battery <- batteryState library percentage (member document "batteryCharging" .null)
        (runtime library (member document "remainingRunTime" .null)) observedAtMs
      .ok (some battery, { field := "batteryPercentage", status := .mapped })
  | none =>
      .ok (none,
        { field := "batteryPercentage", status := .unsupported, detail := "not reported" })

def location (document : Fields) : Option (Fields × Json × Json) :=
  match member document "location" .null with
  | .obj location =>
      match location.lookup "x", location.lookup "y" with
      | some x, some y => some (location, x, y)
      | _, _ => none
  | _ => none

def pose (library : Library) (document : Fields) (observedAtMs : Int) :
    Except Exn (Option PoseReference × FieldMapping) :=
  match location document with
  | none =>
      .ok (none, { field := "location", status := .unsupported, detail := "not reported" })
  | some (location, x, y) => do
      let yaw <- float library (member location "angle" (.float 0 "0.0"))
      let x <- float library x
      let y <- float library y
      let z <- float library (member location "z" (.float 0 "0.0"))
      let pose <- planarPose library
        (str library (valueOr (member location "planarDatum" .null) (.str "massrobotics-map")))
        x y z yaw observedAtMs
      .ok (some pose, { field := "location", status := .mapped })

def read (library : Library) (robotId : String) (document : Fields) (observedAtMs : Int) :
    Except Exn Reading := do
  let (mode, _) := status library (member document "operationalState" .null)
  let taskId := member document "taskId" .null
  let (battery, batteryField) <- battery library document observedAtMs
  let (pose, poseField) <- pose library document observedAtMs
  let assignmentId := if truthy taskId then some (str library taskId) else none
  .ok
    { state := plainState robotId mode .unknown
        (str library (valueOr taskId (.str "No external task reported")))
        "Unknown: MassRobotics status does not provide semantic intent" (.float 0 "0.0")
        ("MassRobotics AMR is " ++ mode.value)
        (if truthy (member document "errors" .null) then .faulted else .healthy) battery
        assignmentId pose
      fields := [{ field := "operationalState", status := .mapped },
        { field := "activity"
          status := if truthy taskId then .mapped else .defaulted
          detail := "idle semantic used when taskId is absent" },
        { field := "intent", status := .unsupported
          detail := "standard does not provide semantic intent" },
        { field := "progress", status := .unsupported
          detail := "standard does not provide normalized progress" },
        batteryField, poseField]
      correlationId := assignmentId }

end MassRobotics

def massrobotics : Standard where
  standard := "massrobotics"
  standardVersion := "1.0"
  identityField := "uuid"
  identityMismatch := "MassRobotics uuid does not match configured external identity"
  read := MassRobotics.read

/-!
## Open-RMF

The standard has no field for safety or for a battery.
-/

namespace OpenRmf

/-- The location when it is complete: `x`, `y`, `yaw` and `level_name`. -/
def location (document : Fields) : Option (Json × Json × Json × Json) :=
  match valueOr (member document "location" .null) (.obj []) with
  | .obj location =>
      match location.lookup "x", location.lookup "y", location.lookup "yaw",
          location.lookup "level_name" with
      | some x, some y, some yaw, some levelName => some (x, y, yaw, levelName)
      | _, _, _, _ => none
  | _ => none

def pose (library : Library) (document : Fields) (observedAtMs : Int) :
    Except Exn (Option PoseReference × FieldMapping) :=
  match location document with
  | none =>
      .ok (none,
        { field := "location", status := .unsupported, detail := "RMF location incomplete" })
  | some (x, y, yaw, levelName) => do
      let yaw <- float library yaw
      let x <- float library x
      let y <- float library y
      let pose <- planarPose library (str library levelName) x y 0 yaw observedAtMs
      .ok (some pose, { field := "location", status := .mapped })

def read (library : Library) (robotId : String) (document : Fields) (observedAtMs : Int) :
    Except Exn Reading := do
  let (pose, poseField) <- pose library document observedAtMs
  let modeValue := library.lower (str library (member document "mode" (.str "idle")))
  let mode : Mode :=
    if ["moving", "working", "charging"].contains modeValue then .working else .idle
  let taskId := textOrNone library (member document "task_id" .null)
  let progress <- float library (member document "progress" (.float 0 "0.0"))
  .ok
    { state := plainState robotId mode .unknown
        (match taskId with
          | some task => "RMF task " ++ task
          | none => "No RMF task reported")
        (str library (valueOr (member document "destination" .null)
          (.str "Unknown: RMF destination not disclosed")))
        (doubleValue library progress) ("Open-RMF participant is " ++ mode.value)
        (if truthy (member document "issues" .null) then .degraded else .healthy) none taskId pose
      fields := [{ field := "mode", status := .mapped }, poseField]
      correlationId := taskId }

end OpenRmf

def openRmf : Standard where
  standard := "open_rmf"
  standardVersion := "2"
  identityField := "name"
  identityMismatch := "Open-RMF robot state identity does not match configured identity"
  read := OpenRmf.read

end Ump.Integrations
