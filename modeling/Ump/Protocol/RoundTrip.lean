import Ump.Coordinator.Collaboration
import Ump.Registry.Reencoding

/-!
# Round trips of the models

## Copies and their equality

`==` of two dataclasses compares their fields as tuples. The free-form fields are compared
as decoded values, where the order of an object's members does not count.
-/

namespace Ump

def equalTuple (equal : value -> value -> Bool) : List value -> List value -> Bool
  | [], [] => true
  | a :: as, b :: bs => equal a b && equalTuple equal as bs
  | _, _ => false

theorem equalTuple_map {equal : value -> value -> Bool} {copy : value -> value}
    {items : List value} (h : forall item, item ∈ items -> equal (copy item) item = true) :
    equalTuple equal (items.map copy) items = true := by
  induction items with
  | nil => rfl
  | cons head rest ih =>
      rw [List.forall_mem_cons] at h
      rw [List.map_cons, equalTuple, h.1, ih h.2]
      rfl

namespace PlanStep

def equal (a b : PlanStep) : Bool :=
  a.stepId == b.stepId && a.description == b.description &&
    a.assignedRobotId == b.assignedRobotId && a.capability == b.capability &&
    a.inputs.equal b.inputs && a.completionCriteria == b.completionCriteria &&
    a.dependsOn == b.dependsOn && a.resources == b.resources &&
    a.notBeforeMs.equal b.notBeforeMs && a.deadlineMs.equal b.deadlineMs

def normal (step : PlanStep) : PlanStep :=
  { step with inputs := step.inputs.sorted }

theorem isAtom_of_check {step : PlanStep} (h : step.check = .ok ()) :
    step.notBeforeMs.isAtom = true ∧ step.deadlineMs.isAtom = true := by
  unfold check at h
  rcases bind_eq_ok.mp h with ⟨_, _, h⟩
  rcases bind_eq_ok.mp h with ⟨_, _, h⟩
  rcases bind_eq_ok.mp h with ⟨_, _, h⟩
  rcases bind_eq_ok.mp h with ⟨_, _, h⟩
  rcases bind_eq_ok.mp h with ⟨_, _, h⟩
  rcases bind_eq_ok.mp h with ⟨_, _, h⟩
  rcases bind_eq_ok.mp h with ⟨_, _, h⟩
  rcases bind_eq_ok.mp h with ⟨_, _, h⟩
  rcases bind_eq_ok.mp h with ⟨_, hnotBefore, h⟩
  rcases bind_eq_ok.mp h with ⟨_, _, h⟩
  rcases bind_eq_ok.mp h with ⟨_, hdeadline, _⟩
  exact ⟨Json.isAtom_of_number? hnotBefore, Json.isAtom_of_number? hdeadline⟩

theorem equal_self_of_isAtom {value : Json} (h : value.isAtom = true) :
    value.equal value = true := by
  have hequal := Json.equal_sorted value (Json.distinctNames_of_isAtom h)
  rwa [Json.sorted_of_isAtom h] at hequal

theorem normal_equal {step : PlanStep} (hcheck : step.check = .ok ())
    (hinputs : step.inputs.distinctNames = true) : step.normal.equal step = true := by
  rcases isAtom_of_check hcheck with ⟨hnotBefore, hdeadline⟩
  unfold equal normal
  simp [Json.equal_sorted _ hinputs, equal_self_of_isAtom hnotBefore,
    equal_self_of_isAtom hdeadline]

theorem distinctNames_payload {step : PlanStep} (hcheck : step.check = .ok ())
    (hinputs : step.inputs.distinctNames = true) : step.payload.distinctNames = true := by
  rcases isAtom_of_check hcheck with ⟨hnotBefore, hdeadline⟩
  unfold payload
  simp [Json.distinctNames, Json.distinctNamesFields, hinputs,
    Json.distinctNames_of_isAtom hnotBefore, Json.distinctNames_of_isAtom hdeadline]

end PlanStep

/-!
## Decoders

Three modules build a `PlanStep` from the members of a decoded object, each in words of its
own: the participant, the journal and the coordinator store.
-/

/-- `PlanStep(step_id=data["step_id"], ...)`, which checks the step. -/
def buildStep (data : Json) : Except Exn PlanStep := do
  let step <- decodeStep data
  step.check
  .ok step

theorem decodeStep_sorted {step : PlanStep} (hcheck : step.check = .ok ())
    (hinputs : step.inputs.distinctNames = true) :
    decodeStep step.payload.sorted = .ok step.normal := by
  have hdistinct := PlanStep.distinctNames_payload hcheck hinputs
  rcases PlanStep.isAtom_of_check hcheck with ⟨hnotBefore, hdeadline⟩
  have hdependsOn := textItems_map_str step.dependsOn
  have hresources := textItems_map_str step.resources
  unfold decodeStep
  rw [Json.item_sorted hdistinct, Json.item_sorted hdistinct, Json.item_sorted hdistinct,
    Json.item_sorted hdistinct, Json.item_sorted hdistinct, Json.item_sorted hdistinct,
    Json.get_sorted hdistinct "depends_on" rfl, Json.get_sorted hdistinct "resources" rfl,
    Json.get_sorted hdistinct "not_before_ms" rfl, Json.get_sorted hdistinct "deadline_ms" rfl]
  simp [PlanStep.payload, PlanStep.normal, Json.item, Json.get, Json.text, Json.strings, Json.tuple,
    List.lookup_cons, Except.map, bind, Except.bind, Json.sorted, Json.sortedItems_eq_map,
    Function.comp_def, hdependsOn, hresources, Json.sorted_of_isAtom hnotBefore,
    Json.sorted_of_isAtom hdeadline]

namespace Assignment

def equal (a b : Assignment) : Bool :=
  a.assignmentId == b.assignmentId && a.goalId == b.goalId && a.planId == b.planId &&
    a.step.equal b.step && a.authorityLeaseId == b.authorityLeaseId

def normal (assignment : Assignment) : Assignment :=
  { assignment with step := assignment.step.normal }

theorem step_checked {assignment : Assignment} (h : assignment.check = .ok ()) :
    assignment.step.check = .ok () := by
  rcases bind_eq_ok.mp h with ⟨_, hstep, _⟩
  exact hstep

theorem normal_equal {assignment : Assignment} (hcheck : assignment.check = .ok ())
    (hinputs : assignment.step.inputs.distinctNames = true) :
    assignment.normal.equal assignment = true := by
  unfold equal normal
  simp [PlanStep.normal_equal (step_checked hcheck) hinputs]

theorem distinctNames_payload {assignment : Assignment} (hcheck : assignment.check = .ok ())
    (hinputs : assignment.step.inputs.distinctNames = true) :
    assignment.payload.distinctNames = true := by
  unfold payload
  simp [Json.distinctNames, Json.distinctNamesFields,
    PlanStep.distinctNames_payload (step_checked hcheck) hinputs]

theorem canonical_normal (assignment : Assignment) :
    assignment.normal.canonical = assignment.canonical := by
  have hstep : assignment.step.normal.payload.dumps = assignment.step.payload.dumps := by
    unfold PlanStep.payload PlanStep.normal
    rw [Json.dumps, Json.dumps]
    simp only [Json.dumpsFields, Json.dumps_sorted]
  unfold canonical payload normal
  rw [Json.dumps, Json.dumps]
  simp only [Json.dumpsFields, hstep]

end Assignment

theorem decodeAssignment_sorted {assignment : Assignment} (hcheck : assignment.check = .ok ())
    (hinputs : assignment.step.inputs.distinctNames = true) :
    decodeAssignment assignment.payload.sorted = .ok assignment.normal := by
  have hdistinct := Assignment.distinctNames_payload hcheck hinputs
  have hstep := decodeStep_sorted (Assignment.step_checked hcheck) hinputs
  have hlease := text?_optional assignment.authorityLeaseId
  have hnormal : assignment.normal.check = .ok () := hcheck
  unfold decodeAssignment
  rw [Json.item_sorted hdistinct, Json.item_sorted hdistinct, Json.item_sorted hdistinct,
    Json.item_sorted hdistinct, Json.get_sorted hdistinct "authority_lease_id" rfl]
  unfold Assignment.normal at hnormal ⊢
  simp [Assignment.payload, Json.item, Json.get, Json.text, List.lookup_cons, Except.map, bind,
    Except.bind, Json.sorted, hstep, hlease, hnormal]

namespace SharedGoal

def equal (a b : SharedGoal) : Bool :=
  a.goalId == b.goalId && a.description == b.description &&
    a.participantIds == b.participantIds && a.constraints.equal b.constraints &&
    a.deadlineMs == b.deadlineMs

def normal (goal : SharedGoal) : SharedGoal :=
  { goal with constraints := goal.constraints.sorted }

theorem normal_equal {goal : SharedGoal} (h : goal.constraints.distinctNames = true) :
    goal.normal.equal goal = true := by
  unfold equal normal
  simp [Json.equal_sorted _ h]

theorem distinctNames_payload {goal : SharedGoal} (h : goal.constraints.distinctNames = true) :
    goal.payload.distinctNames = true := by
  unfold payload
  simp [Json.distinctNames, Json.distinctNamesFields, h]

end SharedGoal

namespace Plan

def equal (a b : Plan) : Bool :=
  a.planId == b.planId && a.goalId == b.goalId && a.plannerId == b.plannerId &&
    a.summary == b.summary && equalTuple PlanStep.equal a.steps b.steps &&
    a.revision == b.revision && a.supersedesPlanId == b.supersedesPlanId

def normal (plan : Plan) : Plan :=
  { plan with steps := plan.steps.map PlanStep.normal }

def freeForm (plan : Plan) : Bool :=
  plan.steps.all (fun step => step.inputs.distinctNames)

theorem steps_checked {plan : Plan} (h : plan.check = .ok ()) {step : PlanStep}
    (hstep : step ∈ plan.steps) : step.check = .ok () := by
  rcases bind_eq_ok.mp h with ⟨_, hsteps, _⟩
  exact checkAll_eq_ok hsteps _ hstep

theorem normal_equal {plan : Plan} (hcheck : plan.check = .ok ())
    (hfree : plan.freeForm = true) : plan.normal.equal plan = true := by
  have hsteps : equalTuple PlanStep.equal (plan.steps.map PlanStep.normal) plan.steps = true :=
    equalTuple_map (fun step hmem =>
      PlanStep.normal_equal (steps_checked hcheck hmem) (List.all_eq_true.mp hfree step hmem))
  unfold equal normal
  simp [hsteps]

theorem distinctNames_payload {plan : Plan} (hcheck : plan.check = .ok ())
    (hfree : plan.freeForm = true) : plan.payload.distinctNames = true := by
  have hsteps : Json.distinctNamesItems (plan.steps.map PlanStep.payload) = true := by
    apply Json.distinctNames_arr.mpr
    intro item hitem
    rcases List.mem_map.mp hitem with ⟨step, hmem, rfl⟩
    exact PlanStep.distinctNames_payload (steps_checked hcheck hmem)
      (List.all_eq_true.mp hfree step hmem)
  unfold payload
  simp [Json.distinctNames, Json.distinctNamesFields, hsteps]

end Plan

/-!
### Messages to the participant
-/

namespace MessageCodec

def decodeStep : Json -> Except Exn PlanStep := buildStep

end MessageCodec

/-!
### Rows of the journal
-/

namespace JournalCodec

def decodeStep : Json -> Except Exn PlanStep := buildStep

def decodeAssignment (loads : Text -> Except Exn Json) (encoded : Text) :
    Except Exn Assignment := do
  let value <- loads encoded
  Ump.decodeAssignment value

def decodeOutcome (loads : Text -> Except Exn Json) (encoded : Text) :
    Except Exn Outcome := do
  let value <- loads encoded
  Coordinator.snapshotOutcome value

end JournalCodec

/-!
### Rows of the coordinator store
-/

namespace StoreCodec

def decodeStep : Json -> Except Exn PlanStep := buildStep

def decodeAssignment (loads : Text -> Except Exn Json) (encoded : Text) :
    Except Exn Assignment := do
  let value <- loads encoded
  Ump.decodeAssignment value

end StoreCodec

/-!
### Outcomes
-/

theorem Coordinator.assignmentStatus_value (status : AssignmentStatus) :
    Coordinator.assignmentStatus (.str status.value) = .ok status := by
  unfold Coordinator.assignmentStatus
  dsimp only
  rw [AssignmentStatus.ofValue?_value]

namespace Outcome

def Built (outcome : Outcome) : Prop :=
  make outcome.assignmentId outcome.robotId outcome.succeeded outcome.description
    (some outcome.status) outcome.outputs = .ok outcome

def normal (outcome : Outcome) : Outcome :=
  { outcome with outputs := outcome.outputs.sorted }

theorem normal_equal {outcome : Outcome} (h : outcome.outputs.distinctNames = true) :
    outcome.normal.equal outcome = true := by
  unfold equal normal
  simp [Json.equal_sorted _ h]

theorem outputs_checked {outcome : Outcome} (h : outcome.Built) :
    outcome.outputs.isObject = true ∧
      Text.byteSize outcome.outputs.dumps ≤ maxStructuredOutputBytes := by
  have haccepted : resolve outcome.succeeded (some outcome.status) ≠ .accepted :=
    outcome.notAccepted
  have hflag : outcome.succeeded =
      decide (resolve outcome.succeeded (some outcome.status) = .succeeded) :=
    outcome.flagAgrees
  unfold Built make at h
  rcases bind_eq_ok.mp h with ⟨_, _, h⟩
  rcases bind_eq_ok.mp h with ⟨_, _, h⟩
  rcases bind_eq_ok.mp h with ⟨_, _, h⟩
  rw [dif_neg haccepted, dif_pos hflag] at h
  rcases bind_eq_ok.mp h with ⟨_, hobject, h⟩
  rcases bind_eq_ok.mp h with ⟨_, hsize, _⟩
  have hisObject := refuseWhen_eq_ok hobject
  have hfits := decide_eq_false_iff_not.mp (refuseWhen_eq_ok hsize)
  rw [Bool.not_eq_false'] at hisObject
  exact ⟨hisObject, Nat.not_lt.mp hfits⟩

theorem make_normal {outcome : Outcome} (h : outcome.Built) :
    make outcome.assignmentId outcome.robotId outcome.succeeded outcome.description
      (some outcome.status) outcome.outputs.sorted = .ok outcome.normal := by
  have haccepted : resolve outcome.succeeded (some outcome.status) ≠ .accepted :=
    outcome.notAccepted
  have hflag : outcome.succeeded =
      decide (resolve outcome.succeeded (some outcome.status) = .succeeded) :=
    outcome.flagAgrees
  rcases outputs_checked h with ⟨hobject, hsize⟩
  rcases make_eq_ok h with ⟨hid, hrobot, htext, _⟩
  unfold make
  rw [hid, hrobot, htext, Json.isObject_sorted, Json.dumps_sorted, hobject,
    decide_eq_false (Nat.not_lt.mpr hsize)]
  simp only [bind, Except.bind]
  rw [dif_neg haccepted, dif_pos hflag]
  rfl

theorem distinctNames_payload {outcome : Outcome}
    (h : outcome.outputs.distinctNames = true) : outcome.payload.distinctNames = true := by
  unfold payload
  simp [Json.distinctNames, Json.distinctNamesFields, h]

theorem snapshotOutcome_sorted {outcome : Outcome} (hbuilt : outcome.Built)
    (hfree : outcome.outputs.distinctNames = true) :
    Coordinator.snapshotOutcome outcome.payload.sorted = .ok outcome.normal := by
  have hdistinct := distinctNames_payload hfree
  have hmake := make_normal hbuilt
  unfold Coordinator.snapshotOutcome
  rw [Json.item_sorted hdistinct, Json.item_sorted hdistinct, Json.item_sorted hdistinct,
    Json.item_sorted hdistinct, Json.item_sorted hdistinct,
    Json.get_sorted hdistinct "outputs" rfl]
  simp [payload, Json.item, Json.get, Json.text, List.lookup_cons, Except.map, bind, Except.bind,
    Json.sorted, Coordinator.flag, Coordinator.assignmentStatus_value, hmake]

end Outcome

/-!
## Equality of the registry's copies
-/

namespace Registry

def equalCapability (a b : Capability) : Bool :=
  a.name == b.name && a.description == b.description && a.inputSchema.equal b.inputSchema &&
    a.outputSchema.equal b.outputSchema && a.availability == b.availability

def Manifest.equal (a b : Manifest) : Bool :=
  a.robotId == b.robotId && a.manufacturer == b.manufacturer && a.model == b.model &&
    a.robotClass == b.robotClass && equalTuple equalCapability a.capabilities b.capabilities &&
    a.adapterVersion == b.adapterVersion

theorem normalCapability_equal {capability : Capability}
    (h : freeFormCapability capability = true) :
    equalCapability (normalCapability capability) capability = true := by
  unfold freeFormCapability at h
  rw [Bool.and_eq_true] at h
  unfold equalCapability normalCapability
  simp [Json.equal_sorted _ h.1, Json.equal_sorted _ h.2]

theorem Manifest.normal_equal {manifest : Manifest} (h : manifest.freeForm = true) :
    manifest.normal.equal manifest = true := by
  have hcapabilities : equalTuple equalCapability
      (manifest.capabilities.map normalCapability) manifest.capabilities = true :=
    equalTuple_map (fun capability hmem =>
      normalCapability_equal (List.all_eq_true.mp h capability hmem))
  unfold Manifest.equal Manifest.normal
  simp [hcapabilities]

end Registry

/-!
## Messages

A payload travels as a member of the envelope's document.
-/

/-- What the standard library's codec does with a value: the canonical text is read back
with the members of every object in the order of the text. -/
def GivesBack (loads : Text -> Except Exn Json) (value : Json) : Prop :=
  loads value.dumps = .ok value.sorted

/-- The payload of the message, on the other side of the wire. -/
def received (loads : Text -> Except Exn Json) (envelope : Envelope) : Except Exn Json := do
  let document <- loads envelope.document.dumps
  document.item "payload"

theorem received_eq {loads : Text -> Except Exn Json} {envelope : Envelope}
    (hloads : GivesBack loads envelope.document)
    (hpayload : envelope.payload.distinctNames = true) :
    received loads envelope = .ok envelope.payload.sorted := by
  have hdistinct : envelope.document.distinctNames = true := by
    unfold Envelope.document
    cases envelope.stream <;>
      simp [Json.distinctNames, Json.distinctNamesFields, hpayload]
  unfold received
  rw [hloads]
  simp only [bind, Except.bind]
  rw [Json.item_sorted hdistinct]
  unfold Envelope.document
  cases envelope.stream <;> simp [Json.item, List.lookup_cons, Except.map]

theorem assignment_row_comes_back {loads : Text -> Except Exn Json} {assignment : Assignment}
    (hcheck : assignment.check = .ok ())
    (hfree : assignment.step.inputs.distinctNames = true)
    (hloads : GivesBack loads assignment.payload) :
    (loads assignment.canonical >>= Ump.decodeAssignment) = .ok assignment.normal := by
  unfold Assignment.canonical
  rw [hloads]
  exact decodeAssignment_sorted hcheck hfree

end Ump
