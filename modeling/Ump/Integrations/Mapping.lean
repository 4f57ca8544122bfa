import Ump.Registry.Robots

/-!
# Standards mappings

## Conversions

What the adapters do to the values of a native document before a model sees them: `bool`,
`str`, `float` and `int` of a value, `value or fallback`, and `value is False`. The library is
what they take from the language: rounding to a double, which overflows, the numbers that texts
stand for, the digits of a double, sine and cosine, the text of a list or an object, and lower
case. A text of no finite number is refused with the others, since no check of a model lets the
number pass.
-/

namespace Ump.Integrations

open Registry (Fields member attributeGet hashable holds Manifest RobotState BatteryState
  PoseReference Mode Health BatteryStatus)
open Participant (Safety)

structure Library extends Registry.Library where
  rounded : Rat -> Except Exn Rat
  floatOfText : String -> Except Exn Rat
  intOfText : String -> Except Exn Int
  digits : Rat -> String
  sin : Rat -> Rat
  cos : Rat -> Rat
  repr : Json -> String
  lower : String -> String

def truthy : Json -> Bool
  | .null => false
  | .bool b => b
  | .int n => n != 0
  | .float value _ => value != 0
  | .str s => !s.isEmpty
  | .arr items => !items.isEmpty
  | .obj fields => !fields.isEmpty

def valueOr (value fallback : Json) : Json :=
  if truthy value then value else fallback

def isFalse : Json -> Bool
  | .bool b => !b
  | _ => false

def str (library : Library) : Json -> String
  | .null => "None"
  | .bool b => if b then "True" else "False"
  | .int n => toString n
  | .float _ digits => digits
  | .str s => s
  | value => library.repr value

def float (library : Library) : Json -> Except Exn Rat
  | .bool b => .ok (if b then 1 else 0)
  | .int n => library.rounded n
  | .float value _ => .ok value
  | .str s => library.floatOfText s
  | _ => .error (.type "float() argument must be a string or a real number")

def truncated (value : Rat) : Int :=
  value.num.tdiv value.den

def int (library : Library) : Json -> Except Exn Int
  | .bool b => .ok (if b then 1 else 0)
  | .int n => .ok n
  | .float value _ => .ok (truncated value)
  | .str s => library.intOfText s
  | _ => .error (.type "int() argument must be a string or a real number")

def doubleValue (library : Library) (value : Rat) : Json :=
  .float value (library.digits value)

/-- `str(value or "") or None`. -/
def textOrNone (library : Library) (value : Json) : Option String :=
  let text := str library (valueOr value (.str ""))
  if text.isEmpty then none else some text

/-!
## Evidence

A report says of each native field what became of it. The path of the field and the remark
are bounded, as the constructor of a field mapping demands.
-/

inductive FieldMappingStatus where
  | mapped
  | defaulted
  | unsupported
  | rejected
deriving DecidableEq, Repr

structure FieldMapping where
  field : String
  status : FieldMappingStatus
  detail : String := ""
  field_bounded : field ≠ "" ∧ field.length ≤ 256 := by decide
  detail_bounded : detail.length ≤ 1024 := by decide

structure MappingReport where
  standard : String
  standardVersion : String
  direction : String
  sourceId : String
  observedAtMs : Int
  fields : List FieldMapping
  correlationId : Option String
  warnings : List String

namespace MappingReport

def check (report : MappingReport) : Except Exn Unit := do
  refuseWhen (!(["external_to_ump", "ump_to_external"].contains report.direction))
    "mapping direction is invalid"
  refuseWhen (report.standard.isEmpty || report.standardVersion.isEmpty ||
    report.sourceId.isEmpty) "mapping provenance is incomplete"
  refuseWhen (decide (report.observedAtMs < 0)) "mapping observation time cannot be negative"
  refuseWhen (decide (256 < report.fields.length ∨ 64 < report.warnings.length))
    "mapping report exceeds bounded profile"

def lists (report : MappingReport) (field : String) (status : FieldMappingStatus) : Bool :=
  report.fields.any (fun item => item.field == field && item.status == status)

theorem lists_eq_false {report : MappingReport} {field : String} {status : FieldMappingStatus} :
    report.lists field status = false <->
      forall item, item ∈ report.fields -> item.field = field -> item.status ≠ status := by
  simp [lists]

end MappingReport

/-!
## Adapters

An adapter is configured for one robot, which no document can replace. Each standard has its
own reader of a document; the identity is checked before it, and the report and the state are
stored together behind it.
-/

structure MappedStandardsAdapter where
  manifest : Manifest
  state : RobotState
  externalId : String
  lastReport : Option MappingReport
  same_robot : state.robotId = manifest.robotId

namespace MappedStandardsAdapter

def storeState (adapter : MappedStandardsAdapter) (value : RobotState) (report : MappingReport) :
    Except Exn MappedStandardsAdapter :=
  if hsame : value.robotId = adapter.manifest.robotId then
    .ok { adapter with state := value, lastReport := some report, same_robot := hsame }
  else .error (.value "external state identity does not match configured robot")

end MappedStandardsAdapter

structure Reading where
  state : RobotState
  fields : List FieldMapping
  correlationId : Option String

structure Standard where
  standard : String
  standardVersion : String
  identityField : String
  identityMismatch : String
  read : Library -> String -> Fields -> Int -> Except Exn Reading

namespace Standard

def ingestState (standard : Standard) (library : Library) (adapter : MappedStandardsAdapter)
    (document : Fields) (observedAtMs : Int) :
    Except Exn ((RobotState × MappingReport) × MappedStandardsAdapter) := do
  refuseWhen (decide (str library (member document standard.identityField (.str "")) ≠
    adapter.externalId)) standard.identityMismatch
  let reading <- standard.read library adapter.manifest.robotId document observedAtMs
  reading.state.check
  let report : MappingReport :=
    { standard := standard.standard
      standardVersion := standard.standardVersion
      direction := "external_to_ump"
      sourceId := adapter.externalId
      observedAtMs := observedAtMs
      fields := reading.fields
      correlationId := reading.correlationId
      warnings := [] }
  report.check
  let stored <- adapter.storeState reading.state report
  .ok ((reading.state, report), stored)

theorem ingestState_eq_ok {standard : Standard} {library : Library}
    {adapter stored : MappedStandardsAdapter} {document : Fields} {observedAtMs : Int}
    {state : RobotState} {report : MappingReport}
    (h : standard.ingestState library adapter document observedAtMs =
      .ok ((state, report), stored)) :
    exists reading, standard.read library adapter.manifest.robotId document observedAtMs =
        .ok reading ∧
      state = reading.state ∧ report.fields = reading.fields ∧
      stored.state = state ∧ stored.lastReport = some report := by
  unfold ingestState at h
  simp only [bind_eq_ok] at h
  obtain ⟨_, _, reading, hread, _, _, _, _, after, hafter, hresult⟩ := h
  cases hresult
  unfold MappedStandardsAdapter.storeState at hafter
  split at hafter
  · cases hafter
    exact ⟨reading, hread, rfl, rfl, rfl, rfl⟩
  · cases hafter

end Standard

def planarPose (library : Library) (frameId : String) (x y z yaw : Rat) (observedAtMs : Int) :
    Except Exn PoseReference := do
  let half <- library.rounded (yaw / 2)
  let pose : PoseReference :=
    { frameId := frameId
      positionM := [doubleValue library x, doubleValue library y, doubleValue library z]
      orientationXyzw := [doubleValue library 0, doubleValue library 0,
        doubleValue library (library.sin half), doubleValue library (library.cos half)]
      observedAtMs := .int observedAtMs }
  pose.check library.toLibrary
  .ok pose

end Ump.Integrations
