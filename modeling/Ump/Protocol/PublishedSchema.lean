import Ump.Protocol.JsonSchema
import Ump.Registry.Robots

/-!
# The published schema

## Patterns

`schemas/ump-v0.schema.json`, definition by definition. The frame and media type patterns
are those of the dataclasses.
-/

namespace Ump

namespace Schema

open Registry (isAsciiLetter isAsciiDigit isHexDigit matchesFrameId matchesMediaType)

def isLowerAlphanumeric (c : Char) : Bool :=
  ('a' ≤ c && c ≤ 'z') || isAsciiDigit c

def isCapabilityCharacter (c : Char) : Bool :=
  isLowerAlphanumeric c || ['.', '_', '-'].contains c

/-- `^[a-z0-9][a-z0-9._-]+/v[0-9]+$`; the class of the name's characters has no slash. -/
def matchesCapability (text : String) : Bool :=
  match text.toList with
  | first :: second =>
      isLowerAlphanumeric first && !(second.takeWhile isCapabilityCharacter).isEmpty &&
        match second.dropWhile isCapabilityCharacter with
        | '/' :: 'v' :: version => !version.isEmpty && version.all isAsciiDigit
        | _ => false
  | [] => false

def isSchemeCharacter (c : Char) : Bool :=
  isAsciiLetter c || isAsciiDigit c || ['+', '.', '-'].contains c

/-- `^(?![dD][aA][tT][aA]:)[A-Za-z][A-Za-z0-9+.-]*:`. -/
def matchesUri (text : String) : Bool :=
  match text.toList with
  | first :: rest =>
      isAsciiLetter first && (rest.dropWhile isSchemeCharacter).head? == some ':' &&
        (first :: rest.takeWhile isSchemeCharacter).map Char.toLower != "data".toList
  | [] => false

/-- `^[0-9a-f]{64}$`. -/
def matchesDigest (text : String) : Bool :=
  decide (text.length = 64) && text.toList.all isHexDigit

/-!
## Recurring schemas
-/

def typed (names : List TypeName) : Schema := .keyword (.type names)

def enum (texts : List String) : Schema := .keyword (.enum texts)

def textSchema (maximum : Nat) : Schema :=
  .allOf [typed [.string], .keyword (.minLength 1), .keyword (.maxLength maximum)]

def timeSchema : Schema :=
  .allOf [typed [.integer], .keyword (.minimum 0)]

def nullableTimeSchema : Schema :=
  .allOf [typed [.integer, .null], .keyword (.minimum 0)]

/-- At most 256 different identifiers. -/
def identifiersSchema : Schema :=
  .allOf [typed [.array], .keyword (.maxItems 256), .keyword .uniqueItems,
    .items (textSchema 128)]

def objectSchema (required : List String) (properties : List (String × Schema)) : Schema :=
  .allOf [typed [.object], .keyword (.required required), .properties properties]

/-- The same with `"additionalProperties": false`. -/
def closedSchema (required : List String) (properties : List (String × Schema)) : Schema :=
  .allOf [typed [.object], .keyword (.required required), .properties properties,
    .keyword (.closed (properties.map Prod.fst))]

/-!
## Definitions
-/

def capability : Schema :=
  objectSchema ["name", "description", "input_schema", "output_schema", "availability"]
    [("name", .allOf [typed [.string], .keyword (.pattern matchesCapability)]),
      ("description", textSchema 1024),
      ("input_schema", typed [.object]),
      ("output_schema", typed [.object]),
      ("availability", enum ["available", "busy", "degraded", "unavailable"])]

def robotClasses : List String :=
  ["humanoid", "quadruped", "mobile_arm", "arm", "mobile_base", "drone", "sensor", "other"]

def robotManifest : Schema :=
  objectSchema ["robot_id", "manufacturer", "model", "robot_class", "capabilities"]
    [("robot_id", textSchema 128),
      ("manufacturer", textSchema 128),
      ("model", textSchema 128),
      ("robot_class", enum robotClasses),
      ("capabilities", .allOf [typed [.array], .keyword (.maxItems 256), .items capability])]

def batteryState : Schema :=
  closedSchema ["level", "status", "observed_at_ms", "estimated_runtime_s"]
    [("level", .allOf [typed [.number, .null], .keyword (.minimum 0), .keyword (.maximum 1)]),
      ("status", enum ["charging", "discharging", "full", "not_present", "unknown"]),
      ("observed_at_ms", timeSchema),
      ("estimated_runtime_s", nullableTimeSchema)]

def poseReference : Schema :=
  objectSchema ["frame_id", "position_m", "orientation_xyzw", "observed_at_ms"]
    [("frame_id", .allOf [typed [.string], .keyword (.pattern matchesFrameId)]),
      ("position_m", .allOf [typed [.array], .keyword (.minItems 3), .keyword (.maxItems 3),
        .items (typed [.number])]),
      ("orientation_xyzw", .allOf [typed [.array], .keyword (.minItems 4),
        .keyword (.maxItems 4), .items (.allOf [typed [.number], .keyword (.minimum (-1)),
          .keyword (.maximum 1)])]),
      ("observed_at_ms", timeSchema)]

def sensorReference : Schema :=
  objectSchema ["uri", "media_type", "byte_length", "sha256", "observed_at_ms",
      "expires_at_ms", "frame_id"]
    [("uri", .allOf [typed [.string], .keyword (.minLength 1), .keyword (.maxLength 2048),
        .keyword (.pattern matchesUri)]),
      ("media_type", .allOf [typed [.string], .keyword (.pattern matchesMediaType)]),
      ("byte_length", .allOf [typed [.integer], .keyword (.minimum 0),
        .keyword (.maximum 9223372036854775807)]),
      ("sha256", .allOf [typed [.string], .keyword (.pattern matchesDigest)]),
      ("observed_at_ms", timeSchema),
      ("expires_at_ms", nullableTimeSchema),
      ("frame_id", .allOf [typed [.string, .null], .keyword (.pattern matchesFrameId)])]

def robotState : Schema :=
  objectSchema ["robot_id", "mode", "safety", "activity", "intent", "progress", "summary",
      "fresh_for_ms", "resources"]
    [("robot_id", textSchema 128),
      ("mode", enum ["starting", "idle", "working", "waiting", "paused", "faulted", "offline"]),
      ("safety", enum ["normal", "protective_stop", "emergency_stop", "recovery_required",
        "unknown"]),
      ("health", enum ["healthy", "degraded", "faulted", "unknown"]),
      ("battery", .oneOf [typed [.null], batteryState]),
      ("activity", .allOf [typed [.string], .keyword (.maxLength 1024)]),
      ("intent", .allOf [typed [.string], .keyword (.maxLength 1024)]),
      ("progress", .allOf [typed [.number], .keyword (.minimum 0), .keyword (.maximum 1)]),
      ("blockers", .allOf [typed [.array], .keyword (.maxItems 32),
        .items (.allOf [typed [.string], .keyword (.maxLength 256)])]),
      ("resources", identifiersSchema),
      ("assignment_id", .allOf [typed [.string, .null], .keyword (.maxLength 128)]),
      ("pose", .oneOf [typed [.null], poseReference]),
      ("sensor_references", .allOf [typed [.array], .keyword (.maxItems 32),
        .items sensorReference]),
      ("summary", textSchema 1024),
      ("fresh_for_ms", .allOf [typed [.integer], .keyword (.minimum 1),
        .keyword (.maximum 60000)])]

def sharedGoal : Schema :=
  objectSchema ["goal_id", "description", "participant_ids", "constraints", "deadline_ms"]
    [("goal_id", textSchema 128),
      ("description", textSchema 4096),
      ("participant_ids", .allOf [typed [.array], .keyword (.minItems 1),
        .keyword (.maxItems 256), .keyword .uniqueItems, .items (textSchema 128)]),
      ("constraints", typed [.object]),
      ("deadline_ms", nullableTimeSchema)]

def planStep : Schema :=
  objectSchema ["step_id", "description", "assigned_robot_id", "capability", "inputs",
      "completion_criteria", "depends_on", "resources", "not_before_ms", "deadline_ms"]
    [("step_id", textSchema 128),
      ("description", textSchema 4096),
      ("assigned_robot_id", textSchema 128),
      ("capability", .allOf [typed [.string], .keyword (.pattern matchesCapability)]),
      ("inputs", .allOf []),
      ("completion_criteria", textSchema 4096),
      ("depends_on", identifiersSchema),
      ("resources", identifiersSchema),
      ("not_before_ms", nullableTimeSchema),
      ("deadline_ms", nullableTimeSchema)]

def plan : Schema :=
  .allOf
    [objectSchema ["plan_id", "goal_id", "planner_id", "summary", "steps", "revision"]
      [("plan_id", textSchema 128),
        ("goal_id", textSchema 128),
        ("planner_id", textSchema 128),
        ("summary", textSchema 4096),
        ("steps", .allOf [typed [.array], .keyword (.minItems 1), .keyword (.maxItems 256),
          .items planStep]),
        ("revision", .allOf [typed [.integer], .keyword (.minimum 1)]),
        ("supersedes_plan_id", .allOf [typed [.string, .null], .keyword (.minLength 1),
          .keyword (.maxLength 128)])],
      .ifThen
        (.allOf [.properties [("revision", .keyword (.minimum 2))],
          .keyword (.required ["revision"])])
        (.allOf [.keyword (.required ["supersedes_plan_id"]),
          .properties [("supersedes_plan_id", typed [.string])]])]

def assignment : Schema :=
  objectSchema ["assignment_id", "goal_id", "plan_id", "step", "authority_lease_id"]
    [("assignment_id", textSchema 128),
      ("goal_id", textSchema 128),
      ("plan_id", textSchema 128),
      ("authority_lease_id", .allOf [typed [.string, .null], .keyword (.minLength 1),
        .keyword (.maxLength 128)]),
      ("step", planStep)]

def assignmentAcknowledgement : Schema :=
  objectSchema ["assignment_id", "robot_id", "status", "description"]
    [("assignment_id", textSchema 128),
      ("robot_id", textSchema 128),
      ("status", enum ["accepted", "succeeded", "failed", "rejected", "cancelled", "unknown"]),
      ("description", textSchema 4096)]

def assignmentQuery : Schema :=
  closedSchema ["assignment_id", "robot_id"]
    [("assignment_id", textSchema 128),
      ("robot_id", textSchema 128)]

def outcome : Schema :=
  objectSchema ["assignment_id", "robot_id", "succeeded", "description", "status"]
    [("assignment_id", textSchema 128),
      ("robot_id", textSchema 128),
      ("succeeded", typed [.boolean]),
      ("description", textSchema 4096),
      ("status", enum ["succeeded", "failed", "rejected", "cancelled", "unknown"]),
      ("outputs", typed [.object])]

def assignmentSnapshot : Schema :=
  closedSchema ["assignment_id", "robot_id", "status", "description", "fingerprint", "outcome"]
    [("assignment_id", textSchema 128),
      ("robot_id", textSchema 128),
      ("status", enum ["accepted", "succeeded", "failed", "rejected", "cancelled", "unknown"]),
      ("description", textSchema 4096),
      ("fingerprint", .allOf [typed [.string], .keyword (.pattern matchesDigest)]),
      ("outcome", .anyOf [outcome, typed [.null]])]

def cancellationRequest : Schema :=
  closedSchema ["assignment_id", "robot_id", "reason"]
    [("assignment_id", textSchema 128),
      ("robot_id", textSchema 128),
      ("reason", textSchema 4096)]

def cancellationAcknowledgement : Schema :=
  closedSchema ["assignment_id", "robot_id", "status", "description"]
    [("assignment_id", textSchema 128),
      ("robot_id", textSchema 128),
      ("status", enum ["accepted", "rejected", "already_terminal", "unknown"]),
      ("description", textSchema 4096)]

/-!
## The envelope
-/

def payloadOf (messageType : String) (schema : Schema) : Schema :=
  .ifThen (.properties [("message_type", .keyword (.const messageType))])
    (.properties [("payload", schema)])

def envelope : Schema :=
  .allOf
    [objectSchema ["protocol", "message_id", "message_type", "source_id", "session_id",
        "sequence", "timestamp_ms", "payload"]
      [("protocol", .keyword (.const "ump/0.1")),
        ("message_id", textSchema 128),
        ("message_type", enum ["manifest", "state", "goal", "plan", "assignment",
          "assignment_ack", "assignment_query", "assignment_snapshot", "cancellation_request",
          "cancellation_ack", "outcome"]),
        ("source_id", textSchema 128),
        ("session_id", textSchema 128),
        ("stream", enum ["operational", "safety"]),
        ("sequence", .allOf [typed [.integer], .keyword (.minimum 1)]),
        ("timestamp_ms", timeSchema),
        ("correlation_id", .allOf [typed [.string, .null], .keyword (.maxLength 128)]),
        ("payload", typed [.object])],
      .ifThen
        (.allOf [.properties [("stream", .keyword (.const "safety"))],
          .keyword (.required ["stream"])])
        (.properties [("message_type", .keyword (.const "state"))]),
      payloadOf "state" robotState,
      payloadOf "manifest" robotManifest,
      payloadOf "goal" sharedGoal,
      payloadOf "plan" plan,
      payloadOf "assignment" assignment,
      payloadOf "assignment_ack" assignmentAcknowledgement,
      payloadOf "assignment_query" assignmentQuery,
      payloadOf "assignment_snapshot" assignmentSnapshot,
      payloadOf "cancellation_request" cancellationRequest,
      payloadOf "cancellation_ack" cancellationAcknowledgement,
      payloadOf "outcome" outcome]

end Schema

end Ump
