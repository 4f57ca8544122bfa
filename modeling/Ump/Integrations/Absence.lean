import Ump.Integrations.Adapters

/-!
# Values without a source

## Sources

Which native fields a document must have for a value of the state to stand for something that
the robot reported.
-/

namespace Ump.Integrations

open Registry (Fields member attributeGet hashable holds RobotState BatteryState PoseReference)
open Participant (Safety)

def reports : Json -> List String -> Bool
  | _, [] => true
  | .obj fields, name :: rest =>
      match fields.lookup name with
      | some value => reports value rest
      | none => false
  | _, _ :: _ => false

/-- The field under which the report lists a value, and the paths from which the value is
read: one path of every group has to be there. -/
structure NativeSource where
  field : String
  groups : List (List (List String))

namespace NativeSource

def reported (source : NativeSource) (document : Fields) : Bool :=
  source.groups.all (fun group => group.any (reports (.obj document)))

def ofField (name : String) : NativeSource :=
  ⟨name, [[[name]]]⟩

def ofMembers (name : String) (members : List String) : NativeSource :=
  ⟨name, members.map (fun part => [[name, part]])⟩

theorem reported_ofField (name : String) (document : Fields) :
    (ofField name).reported document = reports (.obj document) [name] := by
  simp [reported, ofField]

theorem reported_ofMembers (name : String) (members : List String) (document : Fields) :
    (ofMembers name members).reported document = true <->
      forall part, part ∈ members -> reports (.obj document) [name, part] = true := by
  simp [reported, ofMembers]

end NativeSource

/-- The sources that a standard has for the values of a state. -/
structure Sources where
  safety : Option NativeSource
  health : Option NativeSource
  pose : Option NativeSource
  battery : Option NativeSource

/-- Without its source the value is unknown and the report does not list the field as mapped;
what the standard has no field for is always unknown. -/
def LeftUnknown (source : Option NativeSource) (document : Fields) (report : MappingReport)
    (unknown : Prop) : Prop :=
  match source with
  | none => unknown
  | some source =>
      source.reported document = false -> unknown ∧ report.lists source.field .mapped = false

structure NeverFabricates (sources : Sources) (document : Fields) (state : RobotState)
    (report : MappingReport) : Prop where
  safety : LeftUnknown sources.safety document report (state.safety = .unknown)
  health : LeftUnknown sources.health document report (state.health = .unknown)
  pose : LeftUnknown sources.pose document report (state.pose = none)
  battery : LeftUnknown sources.battery document report (state.battery = none)

theorem leftUnknown_iff_of_known {source : NativeSource} {document : Fields}
    {report : MappingReport} {unknown : Prop} (hknown : ¬ unknown) :
    LeftUnknown (some source) document report unknown <->
      source.reported document = true := by
  constructor
  · intro hleft
    by_contra hmissing
    exact hknown (hleft (by simpa using hmissing)).1
  · intro hreported hmissing
    simp [hreported] at hmissing

theorem leftUnknown_of_unlisted {source : NativeSource} {document : Fields}
    {report : MappingReport} {unknown : Prop} (hunknown : unknown)
    (hlists : report.lists source.field .mapped = false) :
    LeftUnknown (some source) document report unknown :=
  fun _ => ⟨hunknown, hlists⟩

/-!
## What a document reports

A path of several names leads through objects. To a reader an empty object says as much as
none.
-/

theorem reports_one (document : Fields) (name : String) :
    reports (.obj document) [name] = (document.lookup name).isSome := by
  unfold reports
  cases document.lookup name <;> rfl

theorem reports_two (document : Fields) (name inner : String) :
    reports (.obj document) [name, inner] =
      match member document name .null with
      | .obj fields => (fields.lookup inner).isSome
      | _ => false := by
  unfold reports member
  cases document.lookup name with
  | none => rfl
  | some value =>
      cases value with
      | obj fields =>
          simp only [Option.getD_some]
          exact reports_one fields inner
      | _ => rfl

theorem lookup_of_valueOr {value : Json} {fields : Fields} {name : String} {found : Json}
    (hvalue : valueOr value (.obj []) = .obj fields) (hlookup : fields.lookup name = some found) :
    value = .obj fields := by
  unfold valueOr at hvalue
  split at hvalue
  · exact hvalue
  · cases hvalue
    cases hlookup

/-!
## VDA 5050
-/

namespace Vda5050

def sources : Sources where
  safety := some ⟨"safetyState", [[["safetyState", "eStop"], ["safetyState", "fieldViolation"]]]⟩
  health := some (.ofField "errors")
  pose := some (.ofMembers "agvPosition" ["x", "y", "theta"])
  battery := some (.ofMembers "batteryState" ["batteryCharge"])

theorem safety_known {document : Fields} {value : Safety} (h : safety document = .ok value) :
    value ≠ .unknown := by
  unfold safety at h
  simp only [bind_eq_ok] at h
  obtain ⟨eStop, _, _, _, h⟩ := h
  split at h
  · obtain ⟨fieldViolation, _, h⟩ := bind_eq_ok.mp h
    cases h
    split <;> simp
  · cases h
    simp

theorem battery_eq_ok {library : Library} {document : Fields} {observedAtMs : Int}
    {value : Option BatteryState} {field : FieldMapping}
    (h : battery library document observedAtMs = .ok (value, field)) :
    field.field = "batteryState" ∧
      (reports (.obj document) ["batteryState", "batteryCharge"] = false ->
        value = none ∧ field.status = .unsupported) := by
  unfold battery at h
  simp only [bind_eq_ok] at h
  obtain ⟨reported, hholds, h⟩ := h
  cases reported with
  | false =>
      cases h
      exact ⟨rfl, fun _ => ⟨rfl, rfl⟩⟩
  | true =>
      simp only [if_true, bind_eq_ok] at h
      obtain ⟨charge, hcharge, _, _, _, _, _, _, h⟩ := h
      cases h
      refine ⟨rfl, fun hmissing => ?_⟩
      -- a charge that was read stands under the two names of its path
      exfalso
      cases hvalue : valueOr (member document "batteryState" .null) (.obj []) with
      | obj fields =>
          rw [hvalue] at hcharge
          cases hlookup : fields.lookup "batteryCharge" with
          | none => simp [Json.item, hlookup] at hcharge
          | some found =>
              rw [reports_two, lookup_of_valueOr hvalue hlookup] at hmissing
              simp [hlookup] at hmissing
      | _ => rw [hvalue] at hcharge; simp [Json.item] at hcharge

theorem pose_eq_ok {library : Library} {document : Fields} {observedAtMs : Int}
    {value : Option PoseReference} {fields : List FieldMapping}
    (h : pose library document observedAtMs = .ok (value, fields)) :
    (forall item, item ∈ fields -> item.field = "agvPosition") ∧
      ((position document = none ∧ value = none ∧ fields = []) ∨
        ((position document).isSome = true ∧ value ≠ none)) := by
  unfold pose at h
  split at h
  case h_1 hnone =>
      cases h
      exact ⟨by simp, .inl ⟨hnone, rfl, rfl⟩⟩
  case h_2 position hsome =>
      simp only [bind_eq_ok] at h
      obtain ⟨_, _, _, _, _, _, built, _, h⟩ := h
      cases h
      exact ⟨by simp, .inr ⟨by simp [hsome], by simp⟩⟩

theorem read_eq_ok {library : Library} {robotId : String} {document : Fields}
    {observedAtMs : Int} {reading : Reading}
    (h : read library robotId document observedAtMs = .ok reading) :
    exists batteryField poseFields,
      safety document = .ok reading.state.safety ∧ reading.state.health ≠ .unknown ∧
      battery library document observedAtMs = .ok (reading.state.battery, batteryField) ∧
      pose library document observedAtMs = .ok (reading.state.pose, poseFields) ∧
      reading.fields = [{ field := "operatingMode", status := .mapped },
        { field := "safetyState", status := .mapped },
        { field := "errors", status := .mapped }, batteryField] ++ poseFields := by
  unfold read at h
  simp only [bind_eq_ok] at h
  obtain ⟨value, hsafety, ⟨charge, batteryField⟩, hbattery, ⟨place, poseFields⟩, hpose, h⟩ := h
  cases h
  refine ⟨batteryField, poseFields, hsafety, ?_, hbattery, hpose, rfl⟩
  dsimp only [plainState]
  split <;> simp

/-- The document has what the state is read from: an emergency stop or a field violation, the
errors, and every coordinate of a position that the robot vouches for. -/
def Complete (document : Fields) : Prop :=
  (reports (.obj document) ["safetyState", "eStop"] = true ∨
    reports (.obj document) ["safetyState", "fieldViolation"] = true) ∧
  reports (.obj document) ["errors"] = true ∧
  ((position document).isSome = true ->
    forall coordinate, coordinate ∈ ["x", "y", "theta"] ->
      reports (.obj document) ["agvPosition", coordinate] = true)

theorem leftUnknown_pose_iff {library : Library} {document : Fields} {observedAtMs : Int}
    {value : Option PoseReference} {fields : List FieldMapping} (report : MappingReport)
    (h : pose library document observedAtMs = .ok (value, fields))
    (hlists : fields = [] -> report.lists "agvPosition" .mapped = false) :
    LeftUnknown sources.pose document report (value = none) <->
      ((position document).isSome = true ->
        forall coordinate, coordinate ∈ ["x", "y", "theta"] ->
          reports (.obj document) ["agvPosition", coordinate] = true) := by
  rcases (pose_eq_ok h).2 with ⟨hnone, hvalue, hfields⟩ | ⟨hsome, hvalue⟩
  · constructor
    · intro _ hplaced
      simp [hnone] at hplaced
    · intro _
      exact leftUnknown_of_unlisted hvalue (hlists hfields)
  · unfold sources
    rw [leftUnknown_iff_of_known hvalue, NativeSource.reported_ofMembers]
    exact ⟨fun hall _ => hall, fun hall => hall hsome⟩

theorem neverFabricates_iff_of_read {library : Library} {robotId : String} {document : Fields}
    {observedAtMs : Int} {reading : Reading} {report : MappingReport}
    (h : read library robotId document observedAtMs = .ok reading)
    (hfields : report.fields = reading.fields) :
    NeverFabricates sources document reading.state report <-> Complete document := by
  obtain ⟨batteryField, poseFields, hsafety, hhealth, hbattery, hpose, hall⟩ := read_eq_ok h
  rw [hall] at hfields
  obtain ⟨hname, habsent⟩ := battery_eq_ok hbattery
  have hsafetyIff : LeftUnknown sources.safety document report
      (reading.state.safety = .unknown) <->
      reports (.obj document) ["safetyState", "eStop"] = true ∨
        reports (.obj document) ["safetyState", "fieldViolation"] = true := by
    unfold sources
    rw [leftUnknown_iff_of_known (safety_known hsafety)]
    simp [NativeSource.reported]
  have hhealthIff : LeftUnknown sources.health document report
      (reading.state.health = .unknown) <-> reports (.obj document) ["errors"] = true := by
    unfold sources
    rw [leftUnknown_iff_of_known hhealth, NativeSource.reported_ofField]
  have hposeIff := leftUnknown_pose_iff report hpose (by
    intro hempty
    simp [MappingReport.lists, hfields, hempty, hname])
  have hbatteryLeft : LeftUnknown sources.battery document report
      (reading.state.battery = none) := by
    intro hmissing
    have hcharge : reports (.obj document) ["batteryState", "batteryCharge"] = false := by
      simpa [NativeSource.reported, NativeSource.ofMembers] using hmissing
    obtain ⟨hnone, hunsupported⟩ := habsent hcharge
    refine ⟨hnone, MappingReport.lists_eq_false.mpr ?_⟩
    intro item hitem hfield
    have hsource : item.field = "batteryState" := hfield
    rw [hfields] at hitem
    rcases List.mem_append.mp hitem with hfixed | hposition
    · simp only [List.mem_cons, List.not_mem_nil, or_false] at hfixed
      rcases hfixed with rfl | rfl | rfl | rfl
      · simp at hsource
      · simp at hsource
      · simp at hsource
      · simp [hunsupported]
    · simp [(pose_eq_ok hpose).1 item hposition] at hsource
  constructor
  · intro hnever
    exact ⟨hsafetyIff.mp hnever.safety, hhealthIff.mp hnever.health, hposeIff.mp hnever.pose⟩
  · rintro ⟨hstop, herrors, hplace⟩
    exact ⟨hsafetyIff.mpr hstop, hhealthIff.mpr herrors, hposeIff.mpr hplace, hbatteryLeft⟩

end Vda5050

/-!
## MassRobotics
-/

namespace MassRobotics

def sources : Sources where
  safety := none
  health := some (.ofField "errors")
  pose := some (.ofMembers "location" ["x", "y", "z", "angle"])
  battery := some (.ofField "batteryPercentage")

theorem battery_eq_ok {library : Library} {document : Fields} {observedAtMs : Int}
    {value : Option BatteryState} {field : FieldMapping}
    (h : battery library document observedAtMs = .ok (value, field)) :
    field.field = "batteryPercentage" ∧
      (reports (.obj document) ["batteryPercentage"] = false ->
        value = none ∧ field.status = .unsupported) := by
  rw [reports_one]
  unfold battery at h
  split at h
  case h_1 percentage hlookup =>
      simp only [bind_eq_ok] at h
      obtain ⟨_, _, h⟩ := h
      cases h
      exact ⟨rfl, fun hmissing => by simp [hlookup] at hmissing⟩
  case h_2 =>
      cases h
      exact ⟨rfl, fun _ => ⟨rfl, rfl⟩⟩

theorem pose_eq_ok {library : Library} {document : Fields} {observedAtMs : Int}
    {value : Option PoseReference} {field : FieldMapping}
    (h : pose library document observedAtMs = .ok (value, field)) :
    field.field = "location" ∧
      ((location document = none ∧ value = none ∧ field.status = .unsupported) ∨
        ((location document).isSome = true ∧ value ≠ none)) := by
  unfold pose at h
  split at h
  case h_1 hnone =>
      cases h
      exact ⟨rfl, .inl ⟨hnone, rfl, rfl⟩⟩
  case h_2 place x y hsome =>
      simp only [bind_eq_ok] at h
      obtain ⟨_, _, _, _, _, _, _, _, built, _, h⟩ := h
      cases h
      exact ⟨rfl, .inr ⟨by simp [hsome], by simp⟩⟩

theorem read_eq_ok {library : Library} {robotId : String} {document : Fields}
    {observedAtMs : Int} {reading : Reading}
    (h : read library robotId document observedAtMs = .ok reading) :
    exists activity batteryField poseField,
      reading.state.safety = .unknown ∧ reading.state.health ≠ .unknown ∧
      battery library document observedAtMs = .ok (reading.state.battery, batteryField) ∧
      pose library document observedAtMs = .ok (reading.state.pose, poseField) ∧
      activity.field = "activity" ∧
      reading.fields = [{ field := "operationalState", status := .mapped }, activity,
        { field := "intent", status := .unsupported
          detail := "standard does not provide semantic intent" },
        { field := "progress", status := .unsupported
          detail := "standard does not provide normalized progress" },
        batteryField, poseField] := by
  unfold read at h
  simp only [bind_eq_ok] at h
  obtain ⟨⟨charge, batteryField⟩, hbattery, ⟨place, poseField⟩, hpose, h⟩ := h
  cases h
  refine ⟨_, batteryField, poseField, rfl, ?_, hbattery, hpose, rfl, rfl⟩
  dsimp only [plainState]
  split <;> simp

/-- The document has the errors, and every coordinate of a location with `x` and `y`. -/
def Complete (document : Fields) : Prop :=
  reports (.obj document) ["errors"] = true ∧
  ((location document).isSome = true ->
    forall coordinate, coordinate ∈ ["x", "y", "z", "angle"] ->
      reports (.obj document) ["location", coordinate] = true)

theorem neverFabricates_iff_of_read {library : Library} {robotId : String} {document : Fields}
    {observedAtMs : Int} {reading : Reading} {report : MappingReport}
    (h : read library robotId document observedAtMs = .ok reading)
    (hfields : report.fields = reading.fields) :
    NeverFabricates sources document reading.state report <-> Complete document := by
  obtain ⟨activity, batteryField, poseField, hsafety, hhealth, hbattery, hpose, hactivity,
    hall⟩ := read_eq_ok h
  rw [hall] at hfields
  obtain ⟨hbatteryName, habsent⟩ := battery_eq_ok hbattery
  obtain ⟨hposeName, hcases⟩ := pose_eq_ok hpose
  have hhealthIff : LeftUnknown sources.health document report
      (reading.state.health = .unknown) <-> reports (.obj document) ["errors"] = true := by
    unfold sources
    rw [leftUnknown_iff_of_known hhealth, NativeSource.reported_ofField]
  have hbatteryLeft : LeftUnknown sources.battery document report
      (reading.state.battery = none) := by
    intro hmissing
    rw [NativeSource.reported_ofField] at hmissing
    obtain ⟨hnone, hunsupported⟩ := habsent hmissing
    refine ⟨hnone, ?_⟩
    simp [MappingReport.lists, hfields, hactivity, hposeName, hunsupported,
      NativeSource.ofField]
  have hposeIff : LeftUnknown sources.pose document report (reading.state.pose = none) <->
      ((location document).isSome = true ->
        forall coordinate, coordinate ∈ ["x", "y", "z", "angle"] ->
          reports (.obj document) ["location", coordinate] = true) := by
    rcases hcases with ⟨hnone, hvalue, hunsupported⟩ | ⟨hsome, hvalue⟩
    · constructor
      · intro _ hplaced
        simp [hnone] at hplaced
      · intro _
        refine leftUnknown_of_unlisted hvalue ?_
        simp [MappingReport.lists, hfields, hactivity, hbatteryName, hunsupported,
          NativeSource.ofMembers]
    · unfold sources
      rw [leftUnknown_iff_of_known hvalue, NativeSource.reported_ofMembers]
      exact ⟨fun hall _ => hall, fun hall => hall hsome⟩
  constructor
  · intro hnever
    exact ⟨hhealthIff.mp hnever.health, hposeIff.mp hnever.pose⟩
  · rintro ⟨herrors, hplace⟩
    exact ⟨hsafety, hhealthIff.mpr herrors, hposeIff.mpr hplace, hbatteryLeft⟩

end MassRobotics

/-!
## Open-RMF
-/

namespace OpenRmf

def sources : Sources where
  safety := none
  health := some (.ofField "issues")
  pose := some (.ofMembers "location" ["x", "y", "yaw"])
  battery := none

theorem location_reported {document : Fields} {place : Json × Json × Json × Json}
    (h : location document = some place) :
    forall coordinate, coordinate ∈ ["x", "y", "yaw"] ->
      reports (.obj document) ["location", coordinate] = true := by
  unfold location at h
  split at h
  case h_1 fields hvalue =>
      split at h
      case h_1 x y yaw levelName hx hy hyaw hlevel =>
          intro coordinate hcoordinate
          rw [reports_two, lookup_of_valueOr hvalue hx]
          simp only [List.mem_cons, List.not_mem_nil, or_false] at hcoordinate
          rcases hcoordinate with rfl | rfl | rfl
          · simp [hx]
          · simp [hy]
          · simp [hyaw]
      case h_2 => cases h
  case h_2 => cases h

theorem pose_eq_ok {library : Library} {document : Fields} {observedAtMs : Int}
    {value : Option PoseReference} {field : FieldMapping}
    (h : pose library document observedAtMs = .ok (value, field)) :
    field.field = "location" ∧
      ((value = none ∧ field.status = .unsupported) ∨
        exists place, location document = some place) := by
  unfold pose at h
  split at h
  case h_1 =>
      cases h
      exact ⟨rfl, .inl ⟨rfl, rfl⟩⟩
  case h_2 x y yaw levelName hsome =>
      simp only [bind_eq_ok] at h
      obtain ⟨_, _, _, _, _, _, built, _, h⟩ := h
      cases h
      exact ⟨rfl, .inr ⟨_, hsome⟩⟩

theorem read_eq_ok {library : Library} {robotId : String} {document : Fields}
    {observedAtMs : Int} {reading : Reading}
    (h : read library robotId document observedAtMs = .ok reading) :
    exists poseField,
      reading.state.safety = .unknown ∧ reading.state.health ≠ .unknown ∧
      reading.state.battery = none ∧
      pose library document observedAtMs = .ok (reading.state.pose, poseField) ∧
      reading.fields = [{ field := "mode", status := .mapped }, poseField] := by
  unfold read at h
  simp only [bind_eq_ok] at h
  obtain ⟨⟨place, poseField⟩, hpose, _, _, h⟩ := h
  cases h
  refine ⟨poseField, rfl, ?_, rfl, hpose, rfl⟩
  dsimp only [plainState]
  split <;> simp

/-- The document has the issues; a location is complete or no location. -/
def Complete (document : Fields) : Prop :=
  reports (.obj document) ["issues"] = true

theorem neverFabricates_iff_of_read {library : Library} {robotId : String} {document : Fields}
    {observedAtMs : Int} {reading : Reading} {report : MappingReport}
    (h : read library robotId document observedAtMs = .ok reading)
    (hfields : report.fields = reading.fields) :
    NeverFabricates sources document reading.state report <-> Complete document := by
  obtain ⟨poseField, hsafety, hhealth, hbattery, hpose, hall⟩ := read_eq_ok h
  rw [hall] at hfields
  obtain ⟨hposeName, hcases⟩ := pose_eq_ok hpose
  have hhealthIff : LeftUnknown sources.health document report
      (reading.state.health = .unknown) <-> reports (.obj document) ["issues"] = true := by
    unfold sources
    rw [leftUnknown_iff_of_known hhealth, NativeSource.reported_ofField]
  have hposeLeft : LeftUnknown sources.pose document report (reading.state.pose = none) := by
    rcases hcases with ⟨hvalue, hunsupported⟩ | ⟨place, hplace⟩
    · refine leftUnknown_of_unlisted hvalue ?_
      simp [MappingReport.lists, hfields, hunsupported, NativeSource.ofMembers]
    · intro hmissing
      have hreported := (NativeSource.reported_ofMembers "location" ["x", "y", "yaw"] document).mpr
        (location_reported hplace)
      simp [hreported] at hmissing
  constructor
  · intro hnever
    exact hhealthIff.mp hnever.health
  · intro hissues
    exact ⟨hsafety, hhealthIff.mpr hissues, hposeLeft, hbattery⟩

end OpenRmf

/-!
## The three adapters
-/

inductive AdapterKind where
  | vda5050
  | massrobotics
  | openRmf

namespace AdapterKind

def standard : AdapterKind -> Standard
  | .vda5050 => Integrations.vda5050
  | .massrobotics => Integrations.massrobotics
  | .openRmf => Integrations.openRmf

def sources : AdapterKind -> Sources
  | .vda5050 => Vda5050.sources
  | .massrobotics => MassRobotics.sources
  | .openRmf => OpenRmf.sources

def Complete : AdapterKind -> Fields -> Prop
  | .vda5050 => Vda5050.Complete
  | .massrobotics => MassRobotics.Complete
  | .openRmf => OpenRmf.Complete

end AdapterKind

/-- An adapter makes up no value exactly when the document has what its values are read from. -/
theorem neverFabricates_iff (kind : AdapterKind) {library : Library}
    {adapter stored : MappedStandardsAdapter} {document : Fields} {observedAtMs : Int}
    {state : RobotState} {report : MappingReport}
    (h : kind.standard.ingestState library adapter document observedAtMs =
      .ok ((state, report), stored)) :
    NeverFabricates kind.sources document state report <-> kind.Complete document := by
  obtain ⟨reading, hread, hstate, hfields, _, _⟩ := Standard.ingestState_eq_ok h
  subst hstate
  cases kind with
  | vda5050 => exact Vda5050.neverFabricates_iff_of_read hread hfields
  | massrobotics => exact MassRobotics.neverFabricates_iff_of_read hread hfields
  | openRmf => exact OpenRmf.neverFabricates_iff_of_read hread hfields

def plainLibrary : Library where
  urlScheme := fun _ => .ok ""
  normalized := fun values => decide ((values.map (fun value => value * value)).sum = 1)
  isDigit := Registry.isAsciiDigit
  rounded := .ok
  floatOfText := fun _ => .error (.value "could not convert string to float")
  intOfText := fun _ => .error (.value "invalid literal for int()")
  digits := fun value => toString value.num ++ ".0"
  sin := fun value => value
  cos := fun value => 1 - value * value / 2
  repr := fun _ => ""
  lower := fun text => String.ofList (text.toList.map Char.toLower)

def vehicle : MappedStandardsAdapter where
  manifest :=
    { robotId := "agv-1", capabilities := [], manufacturer := "Maker", model := "Model"
      robotClass := "mobile_robot", adapterVersion := "1" }
  state := plainState "agv-1" .starting .unknown "Starting" "Report" (.float 0 "0.0") "Starting"
    .unknown none none none
  externalId := "agv-1"
  lastReport := none
  same_robot := rfl

def attendedDocument : Fields :=
  [("serialNumber", .str "agv-1"), ("safetyState", .obj [("eStop", .str "NONE")]),
    ("errors", .arr [])]

def silentDocument : Fields :=
  [("serialNumber", .str "agv-1")]

theorem attended_vehicle_not_fabricated :
    exists state report stored,
      AdapterKind.vda5050.standard.ingestState plainLibrary vehicle attendedDocument 1000 =
        .ok ((state, report), stored) ∧
      NeverFabricates AdapterKind.vda5050.sources attendedDocument state report := by
  have hcomplete : AdapterKind.vda5050.Complete attendedDocument := by
    refine ⟨.inl rfl, rfl, ?_⟩
    intro hplaced
    cases hplaced
  obtain ⟨⟨⟨state, report⟩, stored⟩, hcall⟩ : exists result,
      AdapterKind.vda5050.standard.ingestState plainLibrary vehicle attendedDocument 1000 =
        .ok result := ⟨_, rfl⟩
  exact ⟨state, report, stored, hcall, (neverFabricates_iff .vda5050 hcall).mpr hcomplete⟩

/-- A vehicle that says nothing of itself is read as normal and healthy. -/
theorem silent_vehicle_fabricated :
    exists state report stored,
      AdapterKind.vda5050.standard.ingestState plainLibrary vehicle silentDocument 1000 =
        .ok ((state, report), stored) ∧
      state.safety = .normal ∧ state.health = .healthy ∧
      report.lists "safetyState" .mapped = true ∧
      ¬ NeverFabricates AdapterKind.vda5050.sources silentDocument state report := by
  refine ⟨_, _, _, rfl, ?_, ?_, ?_, ?_⟩
  · rfl
  · rfl
  · rfl
  · intro hnever
    have hunknown := (hnever.safety rfl).1
    cases hunknown

end Ump.Integrations
