import Mathlib.Tactic.Common
import Ump.Protocol.Canonical
import Ump.Registry.Decoding

/-!
# Manifests and states that come back

## Schemas with sorted members

The walk over a schema reads its keywords by name, so a schema that passes still passes
after its members have been sorted. Only the order of the visits changes.
-/

namespace Ump.Registry

theorem isText_sorted (value : Json) (text : String) :
    value.sorted.isText text = value.isText text := by
  cases value <;> rfl

theorem holds_sorted (text : String) (value : Json) :
    holds text value.sorted = holds text value := by
  cases value with
  | arr items =>
      rw [Json.sorted, Json.sortedItems_eq_map]
      unfold holds
      dsimp only
      rw [List.any_map]
      exact congrArg Except.ok (congrArg items.any (funext (fun item => isText_sorted item text)))
  | obj members =>
      rw [Json.sorted]
      unfold holds
      dsimp only
      rw [(Json.sortMembers_perm _).any_eq, Json.sortedFields_eq_map, List.any_map]
      rfl
  | _ => rfl

section Keyword

variable {schemaName : String} {fields : Fields} {current : Option Fields}

end Keyword

def normalCapability (capability : Capability) : Capability :=
  { capability with
    inputSchema := capability.inputSchema.sorted
    outputSchema := capability.outputSchema.sorted }

def freeFormCapability (capability : Capability) : Bool :=
  capability.inputSchema.distinctNames && capability.outputSchema.distinctNames

theorem distinctNames_capabilityPayload {capability : Capability}
    (hfree : freeFormCapability capability = true) :
    (capabilityPayload capability).distinctNames = true := by
  unfold freeFormCapability at hfree
  rw [Bool.and_eq_true] at hfree
  unfold capabilityPayload
  simp [Json.distinctNames, Json.distinctNamesFields, hfree.1, hfree.2]

/-- The members of the payload are distinct and the schemas are JSON values. -/
def Manifest.freeForm (manifest : Manifest) : Bool :=
  manifest.capabilities.all freeFormCapability

def Manifest.normal (manifest : Manifest) : Manifest :=
  { manifest with capabilities := manifest.capabilities.map normalCapability }

theorem Manifest.distinctNames_payload {manifest : Manifest}
    (hfree : manifest.freeForm = true) : manifest.payload.distinctNames = true := by
  have hcapabilities : Json.distinctNames (.arr (manifest.capabilities.map
      capabilityPayload)) = true := by
    apply Json.distinctNames_arr.mpr
    intro item hitem
    rcases List.mem_map.mp hitem with ⟨capability, hmem, rfl⟩
    exact distinctNames_capabilityPayload (List.all_eq_true.mp hfree capability hmem)
  rw [Json.distinctNames] at hcapabilities
  unfold Manifest.payload
  simp [Json.distinctNames, Json.distinctNamesFields, hcapabilities]

def RobotState.typed (state : RobotState) : Bool :=
  state.blockers.all (fun blocker => match blocker with
    | .str _ => true
    | _ => false) &&
  match state.assignmentId with
  | .null => true
  | .str _ => true
  | _ => false

theorem isAtom_of_finite {value : Json} {n : Rat} (h : finite value = .ok n) :
    value.isAtom = true := by
  rcases bind_eq_ok.mp h with ⟨_, hnumber, _⟩
  exact Json.isAtom_of_number hnumber

theorem isAtom_of_finiteAll {items : List Json} {values : List Rat}
    (h : finiteAll items = .ok values) {item : Json} (hitem : item ∈ items) :
    item.isAtom = true := by
  induction items generalizing values with
  | nil => cases hitem
  | cons head rest ih =>
      rcases bind_eq_ok.mp h with ⟨n, hhead, h⟩
      rcases bind_eq_ok.mp h with ⟨ns, hrest, _⟩
      rcases List.mem_cons.mp hitem with rfl | hmem
      · exact isAtom_of_finite hhead
      · exact ih hrest hmem

theorem PoseReference.isAtom_of_check {library : Library} {pose : PoseReference}
    (h : pose.check library = .ok ()) :
    (forall item, item ∈ pose.positionM -> item.isAtom = true) ∧
      (forall item, item ∈ pose.orientationXyzw -> item.isAtom = true) ∧
      pose.observedAtMs.isAtom = true := by
  unfold PoseReference.check at h
  rcases bind_eq_ok.mp h with ⟨_, _, h⟩
  dsimp only at h
  by_cases hthree : pose.positionM.length = 3
  · rw [if_pos hthree] at h
    rcases bind_eq_ok.mp h with ⟨_, hposition, h⟩
    by_cases hfour : pose.orientationXyzw.length = 4
    · rw [if_pos hfour] at h
      rcases bind_eq_ok.mp h with ⟨_, horientation, h⟩
      rcases bind_eq_ok.mp h with ⟨_, _, h⟩
      rcases bind_eq_ok.mp h with ⟨_, hobserved, _⟩
      exact ⟨fun _ => isAtom_of_finiteAll hposition, fun _ => isAtom_of_finiteAll horientation,
        Json.isAtom_of_number hobserved⟩
    · rw [if_neg hfour] at h
      cases h
  · rw [if_neg hthree] at h
    cases h

theorem PoseReference.distinctNames_payload {library : Library} {pose : PoseReference}
    (h : pose.check library = .ok ()) : pose.payload.distinctNames = true := by
  rcases PoseReference.isAtom_of_check h with ⟨hposition, horientation, hobserved⟩
  unfold PoseReference.payload
  simp [Json.distinctNames, Json.distinctNamesFields,
    Json.distinctNamesItems_of_isAtom hposition, Json.distinctNamesItems_of_isAtom horientation,
    Json.distinctNames_of_isAtom hobserved]

theorem SensorReference.isAtom_of_check {library : Library} {reference : SensorReference}
    (h : reference.check library = .ok ()) :
    reference.observedAtMs.isAtom = true ∧ reference.expiresAtMs.isAtom = true := by
  unfold SensorReference.check at h
  rcases bind_eq_ok.mp h with ⟨_, _, h⟩
  rcases bind_eq_ok.mp h with ⟨_, _, h⟩
  rcases bind_eq_ok.mp h with ⟨_, _, h⟩
  rcases bind_eq_ok.mp h with ⟨_, _, h⟩
  rcases bind_eq_ok.mp h with ⟨_, _, h⟩
  rcases bind_eq_ok.mp h with ⟨_, _, h⟩
  rcases bind_eq_ok.mp h with ⟨_, hobserved, h⟩
  rcases bind_eq_ok.mp h with ⟨_, _, h⟩
  rcases bind_eq_ok.mp h with ⟨_, hexpires, _⟩
  exact ⟨Json.isAtom_of_number hobserved, Json.isAtom_of_number? hexpires⟩

theorem SensorReference.distinctNames_payload {library : Library}
    {reference : SensorReference} (h : reference.check library = .ok ()) :
    reference.payload.distinctNames = true := by
  rcases SensorReference.isAtom_of_check h with ⟨hobserved, hexpires⟩
  unfold SensorReference.payload
  simp [Json.distinctNames, Json.distinctNamesFields, Json.distinctNames_of_isAtom hobserved,
    Json.distinctNames_of_isAtom hexpires]

theorem BatteryState.isAtom_of_check {battery : BatteryState} (h : battery.check = .ok ()) :
    battery.level.isAtom = true := by
  rcases bind_eq_ok.mp h with ⟨_, hlevel, _⟩
  cases hvalue : battery.level with
  | arr =>
      rw [hvalue] at hlevel
      cases hlevel
  | obj =>
      rw [hvalue] at hlevel
      cases hlevel
  | _ => rfl

theorem BatteryState.distinctNames_payload {battery : BatteryState}
    (h : battery.check = .ok ()) : battery.payload.distinctNames = true := by
  unfold BatteryState.payload
  simp [Json.distinctNames, Json.distinctNamesFields,
    Json.distinctNames_of_isAtom (BatteryState.isAtom_of_check h)]

theorem RobotState.isAtom_of_typed {state : RobotState} (h : state.typed = true) :
    (forall blocker, blocker ∈ state.blockers -> blocker.isAtom = true) ∧
      state.assignmentId.isAtom = true := by
  unfold RobotState.typed at h
  rw [Bool.and_eq_true] at h
  constructor
  · intro blocker hblocker
    have hstr := List.all_eq_true.mp h.1 blocker hblocker
    cases blocker with
    | str => rfl
    | _ => cases hstr
  · cases hid : state.assignmentId with
    | arr =>
        rw [hid] at h
        cases h.2
    | obj =>
        rw [hid] at h
        cases h.2
    | _ => rfl

theorem RobotState.isAtom_of_check {state : RobotState} (h : state.check = .ok ()) :
    state.progress.isAtom = true ∧ state.freshForMs.isAtom = true := by
  rcases bind_eq_ok.mp h with ⟨_, _, h⟩
  rcases bind_eq_ok.mp h with ⟨_, _, h⟩
  rcases bind_eq_ok.mp h with ⟨_, _, h⟩
  rcases bind_eq_ok.mp h with ⟨_, hprogress, h⟩
  rcases bind_eq_ok.mp h with ⟨_, _, h⟩
  rcases bind_eq_ok.mp h with ⟨_, _, h⟩
  rcases bind_eq_ok.mp h with ⟨_, hfresh, _⟩
  exact ⟨Json.isAtom_of_number hprogress, Json.isAtom_of_number hfresh⟩

theorem RobotState.checkBuilt_eq (library : Library) (state : RobotState) :
    state.checkBuilt library =
      ((state.pose.elim (.ok ()) (fun pose => pose.check library)) >>= fun _ =>
        checkAll (fun reference => reference.check library) state.sensorReferences >>= fun _ =>
        (state.battery.elim (.ok ()) (fun battery => battery.check)) >>= fun _ =>
        state.check) := by
  unfold RobotState.checkBuilt
  cases state.pose <;> cases state.battery <;> rfl

theorem RobotState.checked_of_checkBuilt {library : Library} {state : RobotState}
    (h : state.checkBuilt library = .ok ()) :
    (forall pose, state.pose = some pose -> pose.check library = .ok ()) ∧
      (forall reference, reference ∈ state.sensorReferences ->
        reference.check library = .ok ()) ∧
      (forall battery, state.battery = some battery -> battery.check = .ok ()) ∧
      state.check = .ok () := by
  rw [RobotState.checkBuilt_eq] at h
  rcases bind_eq_ok.mp h with ⟨_, hpose, h⟩
  rcases bind_eq_ok.mp h with ⟨_, hreferences, h⟩
  rcases bind_eq_ok.mp h with ⟨_, hbattery, hcheck⟩
  refine ⟨?_, fun _ hmem => checkAll_eq_ok hreferences _ hmem, ?_, hcheck⟩
  · intro pose hsome
    rw [hsome] at hpose
    exact hpose
  · intro battery hsome
    rw [hsome] at hbattery
    exact hbattery

theorem RobotState.distinctNames_payload {library : Library} {state : RobotState}
    (hbuilt : state.checkBuilt library = .ok ()) (htyped : state.typed = true) :
    state.payload.distinctNames = true := by
  rcases RobotState.checked_of_checkBuilt hbuilt with ⟨hpose, hreferences, hbattery, hcheck⟩
  rcases RobotState.isAtom_of_typed htyped with ⟨hblockers, hassignment⟩
  rcases RobotState.isAtom_of_check hcheck with ⟨hprogress, hfresh⟩
  have hposes : (Json.optional PoseReference.payload state.pose).distinctNames = true := by
    cases hsome : state.pose with
    | none => rfl
    | some pose => exact PoseReference.distinctNames_payload (hpose pose hsome)
  have hbatteries : (Json.optional BatteryState.payload state.battery).distinctNames = true := by
    cases hsome : state.battery with
    | none => rfl
    | some battery => exact BatteryState.distinctNames_payload (hbattery battery hsome)
  have hall : Json.distinctNamesItems (state.sensorReferences.map SensorReference.payload) =
      true := by
    apply Json.distinctNames_arr.mpr
    intro item hitem
    rcases List.mem_map.mp hitem with ⟨reference, hmem, rfl⟩
    exact SensorReference.distinctNames_payload (hreferences reference hmem)
  unfold RobotState.payload
  rw [Json.distinctNames]
  simp only [Json.distinctNamesFields, hposes, hbatteries, Json.distinctNames_strings,
    Json.distinctNames_of_isAtom hprogress, Json.distinctNames_of_isAtom hfresh,
    Json.distinctNames_of_isAtom hassignment]
  rw [Json.distinctNames, Json.distinctNames, hall, Json.distinctNamesItems_of_isAtom hblockers]
  simp [Json.distinctNames]

end Ump.Registry
