import Ump.Protocol.Quoting

/-!
# Protocol models

## Text bounds

The dataclasses of the protocol check their fields when they are built. Each
model below keeps the fields that the coordinator and the participant read, and
`check` is its `__post_init__`.
-/

namespace Ump

def maxIdBytes : Nat := 128
def maxTextBytes : Nat := 1024
def maxLongTextBytes : Nat := 4096
def maxStructuredOutputBytes : Nat := 16384

/-- The characters that `str.strip` removes. -/
def isSpace (c : Char) : Bool :=
  let n := c.toNat
  (9 ≤ n && n ≤ 13) || (28 ≤ n && n ≤ 32) || n == 133 || n == 160 || n == 5760 ||
    (8192 ≤ n && n ≤ 8202) || n == 8232 || n == 8233 || n == 8239 || n == 8287 ||
    n == 12288

def requiredText (value fieldName : String) (maximum : Nat) : Except Exn Unit :=
  if value.toList.all isSpace || maximum < Text.byteSize value.toList then
    .error (.value (fieldName ++ " must contain 1 to " ++ toString maximum ++
      " UTF-8 bytes"))
  else
    .ok ()

theorem requiredText_rename {value fieldName otherName : String} {maximum : Nat}
    (h : requiredText value fieldName maximum = .ok ()) :
    requiredText value otherName maximum = .ok () := by
  unfold requiredText at h ⊢
  split_ifs at h with hbad
  rw [if_neg hbad]

def identifier (value fieldName : String) : Except Exn Unit :=
  requiredText value fieldName maxIdBytes

def checkAll (check : value -> Except Exn Unit) : List value -> Except Exn Unit
  | [] => .ok ()
  | x :: rest => do
      check x
      checkAll check rest

def refuseWhen (condition : Bool) (text : String) : Except Exn Unit :=
  if condition then .error (.value text) else .ok ()

theorem refuseWhen_eq_ok {condition : Bool} {text : String}
    (h : refuseWhen condition text = .ok ()) : condition = false := by
  cases condition with
  | true => cases h
  | false => rfl

theorem refuseWhen_iff {condition : Bool} {text : String} :
    refuseWhen condition text = .ok () <-> condition = false := by
  cases condition <;> simp [refuseWhen]

theorem refuse_bind_iff {condition : Bool} {text : String} {next : Unit -> Except Exn value}
    {v : value} :
    (refuseWhen condition text >>= next) = .ok v <-> condition = false ∧ next () = .ok v := by
  cases condition with
  | true => exact ⟨fun h => (by cases h), fun h => (by cases h.1)⟩
  | false => exact ⟨fun h => ⟨rfl, h⟩, fun h => h.2⟩

theorem checkAll_eq_ok {check : value -> Except Exn Unit} {items : List value}
    (h : checkAll check items = .ok ()) (x : value) (hx : x ∈ items) : check x = .ok () := by
  induction items with
  | nil => cases hx
  | cons head rest ih =>
      rcases bind_eq_ok.mp h with ⟨_, hhead, hrest⟩
      rcases List.mem_cons.mp hx with rfl | hx
      · exact hhead
      · exact ih hrest hx

theorem checkAll_iff {check : value -> Except Exn Unit} {items : List value} :
    checkAll check items = .ok () <-> forall x, x ∈ items -> check x = .ok () := by
  constructor
  · exact checkAll_eq_ok
  · intro h
    induction items with
    | nil => rfl
    | cons head rest ih =>
        rw [checkAll, h head List.mem_cons_self]
        exact ih (fun x hx => h x (List.mem_cons_of_mem _ hx))

theorem checkAll_map (check : model -> Except Exn Unit) (encode : value -> model)
    (values : List value) :
    checkAll check (values.map encode) = checkAll (fun value => check (encode value)) values := by
  induction values with
  | nil => rfl
  | cons head rest ih =>
      rw [List.map_cons, checkAll, checkAll, ih]

def hasRepeats [DecidableEq value] (items : List value) : Bool :=
  !decide items.Nodup

/-!
## Statuses
-/

inductive AssignmentStatus where
  | accepted
  | succeeded
  | failed
  | rejected
  | cancelled
  | unknown
deriving DecidableEq, Repr

namespace AssignmentStatus

def value : AssignmentStatus -> String
  | accepted => "accepted"
  | succeeded => "succeeded"
  | failed => "failed"
  | rejected => "rejected"
  | cancelled => "cancelled"
  | unknown => "unknown"

/-- `AssignmentStatus(text)`. -/
def ofValue? (text : String) : Option AssignmentStatus :=
  [accepted, succeeded, failed, rejected, cancelled, unknown].find?
    (fun status => status.value == text)

@[simp] theorem ofValue?_value (status : AssignmentStatus) :
    ofValue? status.value = some status := by
  cases status <;> rfl

end AssignmentStatus

inductive CancellationStatus where
  | accepted
  | rejected
  | alreadyTerminal
  | unknown
deriving DecidableEq, Repr

namespace CancellationStatus

def value : CancellationStatus -> String
  | accepted => "accepted"
  | rejected => "rejected"
  | alreadyTerminal => "already_terminal"
  | unknown => "unknown"

def ofValue? (text : String) : Option CancellationStatus :=
  [accepted, rejected, alreadyTerminal, unknown].find?
    (fun status => status.value == text)

@[simp] theorem ofValue?_value (status : CancellationStatus) :
    ofValue? status.value = some status := by
  cases status <;> rfl

end CancellationStatus

inductive Availability where
  | available
  | busy
  | degraded
  | unavailable
deriving DecidableEq, Repr

/-!
## Manifests and goals
-/

structure Capability where
  name : String
  description : String
  inputSchema : Json
  outputSchema : Json
  availability : Availability

structure RobotManifest where
  robotId : String
  capabilities : List Capability

/-- `RobotManifest.capability`: the first capability of that name. -/
def RobotManifest.capability (manifest : RobotManifest) (name : String) :
    Option Capability :=
  manifest.capabilities.find? (fun item => item.name == name)

structure SharedGoal where
  goalId : String
  description : String
  participantIds : List String
  constraints : Json
  deadlineMs : Option Int

def SharedGoal.check (goal : SharedGoal) : Except Exn Unit := do
  identifier goal.goalId "goal_id"
  requiredText goal.description "goal description" maxLongTextBytes
  refuseWhen (!(decide (1 ≤ goal.participantIds.length ∧ goal.participantIds.length ≤ 256)))
    "goal requires 1 to 256 participants"
  refuseWhen (hasRepeats goal.participantIds) "goal participants must be unique"
  checkAll (fun participantId => identifier participantId "participant_id")
    goal.participantIds
  if goal.constraints.isObject then
    match goal.deadlineMs with
    | none => .ok ()
    | some deadlineMs =>
        refuseWhen (decide (deadlineMs < 0)) "goal deadline must be a non-negative integer"
  else
    .error (.type "goal constraints must be a JSON object")

def SharedGoal.payload (goal : SharedGoal) : Json :=
  .obj [("goal_id", .str goal.goalId),
    ("description", .str goal.description),
    ("participant_ids", .strings goal.participantIds),
    ("constraints", goal.constraints),
    ("deadline_ms", .optional .int goal.deadlineMs)]

def SharedGoal.canonical (goal : SharedGoal) : Text :=
  goal.payload.dumps

/-!
## Plans and assignments
-/

structure PlanStep where
  stepId : String
  description : String
  assignedRobotId : String
  capability : String
  inputs : Json
  completionCriteria : String
  dependsOn : List String
  resources : List String
  notBeforeMs : Json
  deadlineMs : Json

namespace PlanStep

def payload (step : PlanStep) : Json :=
  .obj [("step_id", .str step.stepId),
    ("description", .str step.description),
    ("assigned_robot_id", .str step.assignedRobotId),
    ("capability", .str step.capability),
    ("inputs", step.inputs),
    ("completion_criteria", .str step.completionCriteria),
    ("depends_on", .strings step.dependsOn),
    ("resources", .strings step.resources),
    ("not_before_ms", step.notBeforeMs),
    ("deadline_ms", step.deadlineMs)]

def given (bound : Option Rat) (compare : Rat -> Bool) : Bool :=
  match bound with
  | none => false
  | some ms => compare ms

def check (step : PlanStep) : Except Exn Unit := do
  identifier step.stepId "step_id"
  requiredText step.description "step description" maxLongTextBytes
  identifier step.assignedRobotId "assigned_robot_id"
  identifier step.capability "capability"
  requiredText step.completionCriteria "completion criteria" maxLongTextBytes
  checkAll (fun dependency => identifier dependency "dependency") step.dependsOn
  refuseWhen (hasRepeats step.resources) "step resources must be unique"
  checkAll (fun resource => identifier resource "step resource") step.resources
  let notBefore <- step.notBeforeMs.number?
  refuseWhen (given notBefore (fun ms => decide (ms < 0)))
    "not_before_ms cannot be negative"
  let deadline <- step.deadlineMs.number?
  refuseWhen (given deadline (fun ms => decide (ms < 0)))
    "step deadline cannot be negative"
  refuseWhen (given notBefore (fun first =>
    given deadline (fun last => decide (last < first))))
    "step execution window is invalid"

end PlanStep

structure Plan where
  planId : String
  goalId : String
  plannerId : String
  summary : String
  steps : List PlanStep
  revision : Int
  supersedesPlanId : Option String

namespace Plan

def payload (plan : Plan) : Json :=
  .obj [("plan_id", .str plan.planId),
    ("goal_id", .str plan.goalId),
    ("planner_id", .str plan.plannerId),
    ("summary", .str plan.summary),
    ("steps", .arr (plan.steps.map PlanStep.payload)),
    ("revision", .int plan.revision),
    ("supersedes_plan_id", .optional .str plan.supersedesPlanId)]

def canonical (plan : Plan) : Text :=
  plan.payload.dumps

/-- The predecessor rule of `Plan.__post_init__`. -/
def checkLineage (plan : Plan) : Except Exn Unit := do
  refuseWhen (decide (plan.revision < 1)) "plan revision must be positive"
  refuseWhen (decide (plan.revision = 1) && plan.supersedesPlanId.isSome)
    "initial plan revision cannot supersede another plan"
  if 1 < plan.revision then
    match plan.supersedesPlanId with
    | none => .error (.value "later plan revision must identify its predecessor")
    | some previous => do
        identifier previous "supersedes_plan_id"
        refuseWhen (previous == plan.planId) "plan revision cannot supersede itself"

def check (plan : Plan) : Except Exn Unit := do
  checkAll PlanStep.check plan.steps
  identifier plan.planId "plan_id"
  identifier plan.goalId "goal_id"
  identifier plan.plannerId "planner_id"
  requiredText plan.summary "plan summary" maxLongTextBytes
  plan.checkLineage
  refuseWhen (!(decide (1 ≤ plan.steps.length ∧ plan.steps.length ≤ 256)))
    "plan requires 1 to 256 steps"

end Plan

structure Assignment where
  assignmentId : String
  goalId : String
  planId : String
  step : PlanStep
  authorityLeaseId : Option String

namespace Assignment

def payload (assignment : Assignment) : Json :=
  .obj [("assignment_id", .str assignment.assignmentId),
    ("goal_id", .str assignment.goalId),
    ("plan_id", .str assignment.planId),
    ("step", assignment.step.payload),
    ("authority_lease_id", .optional .str assignment.authorityLeaseId)]

/-- The checks of `PlanStep` and then of `Assignment`, in the order in which the
two objects are built. -/
def check (assignment : Assignment) : Except Exn Unit := do
  assignment.step.check
  identifier assignment.assignmentId "assignment_id"
  identifier assignment.goalId "goal_id"
  identifier assignment.planId "plan_id"
  match assignment.authorityLeaseId with
  | none => .ok ()
  | some lease => identifier lease "authority_lease_id"

def canonical (assignment : Assignment) : Text :=
  assignment.payload.dumps

end Assignment

/-!
### The resources in the canonical text
-/

theorem PlanStep.resources_suffix (step : PlanStep) :
    exists before, step.payload.dumps = before ++ ':' :: ((Json.strings step.resources).dumps ++
      ',' :: (Json.quote "step_id" ++ ':' :: Json.quote step.stepId)) ++ ['\x7d'] := by
  have hsorted : forall a b c d e f g h i j : Text,
      Json.sortKeys [("step_id", a), ("description", b), ("assigned_robot_id", c),
        ("capability", d), ("inputs", e), ("completion_criteria", f), ("depends_on", g),
        ("resources", h), ("not_before_ms", i), ("deadline_ms", j)] =
      [("assigned_robot_id", c), ("capability", d), ("completion_criteria", f),
        ("deadline_ms", j), ("depends_on", g), ("description", b), ("inputs", e),
        ("not_before_ms", i)] ++ [("resources", h)] ++ [("step_id", a)] := by
    intro a b c d e f g h i j
    simp [Json.sortKeys, List.insertionSort, List.orderedInsert]
  unfold PlanStep.payload
  rw [Json.dumps]
  simp only [Json.dumpsFields, hsorted]
  rw [List.map_append, List.map_append, List.map_singleton, List.map_singleton,
    Json.commaSeparated_concat (by simp)]
  rcases Json.commaSeparated_suffix (List.cons_ne_nil _ _) (Json.quote "resources")
    (Json.strings step.resources).dumps with ⟨before, hbefore⟩
  rw [List.map_cons, hbefore]
  exact ⟨'\x7b' :: before, by simp [Json.dumps]⟩

theorem Assignment.step_suffix (assignment : Assignment) :
    exists before, assignment.canonical =
      before ++ ':' :: assignment.step.payload.dumps ++ ['\x7d'] := by
  have hsorted : forall a b c d e : Text,
      Json.sortKeys [("assignment_id", a), ("goal_id", b), ("plan_id", c), ("step", d),
        ("authority_lease_id", e)] =
      [("assignment_id", a), ("authority_lease_id", e), ("goal_id", b), ("plan_id", c)] ++
        [("step", d)] := by
    intro a b c d e
    simp [Json.sortKeys, List.insertionSort, List.orderedInsert]
  unfold Assignment.canonical Assignment.payload
  rw [Json.dumps]
  simp only [Json.dumpsFields, hsorted]
  rw [List.map_append, List.map_singleton]
  rcases Json.commaSeparated_suffix (List.cons_ne_nil _ _) (Json.quote "step")
    assignment.step.payload.dumps with ⟨before, hbefore⟩
  rw [List.map_cons, hbefore]
  exact ⟨'\x7b' :: before, by simp⟩

theorem Assignment.resources_of_canonical {a b : Assignment} (h : a.canonical = b.canonical) :
    a.step.resources = b.step.resources := by
  rcases a.step_suffix with ⟨ca, ha⟩
  rcases b.step_suffix with ⟨cb, hb⟩
  rcases a.step.resources_suffix with ⟨sa, hsa⟩
  rcases b.step.resources_suffix with ⟨sb, hsb⟩
  rw [ha, hb, hsa, hsb] at h
  have hids : (ca ++ ':' :: (sa ++ ':' :: (Json.strings a.step.resources).dumps ++
        ',' :: Json.quote "step_id")) ++ ':' :: Json.quote a.step.stepId =
      (cb ++ ':' :: (sb ++ ':' :: (Json.strings b.step.resources).dumps ++
        ',' :: Json.quote "step_id")) ++ ':' :: Json.quote b.step.stepId := by
    apply (List.append_left_inj ['\x7d', '\x7d']).mp
    simpa using h
  have hbefore := (Json.quote_end (by decide) (by decide) hids).1
  apply @Json.strings_end (ca ++ ':' :: sa ++ [':']) (cb ++ ':' :: sb ++ [':'])
  apply (List.append_left_inj (',' :: Json.quote "step_id")).mp
  simpa using hbefore
/-!
## Decoding an assignment

The journals and the participant read an assignment back member by member and build
the dataclasses again.
-/

/-- `tuple(value)` of identifiers; the dataclass checks raise on other members. -/
def textItems : List Json -> Except Exn (List String)
  | [] => .ok []
  | item :: rest => do
      let head <- item.text
      let tail <- textItems rest
      .ok (head :: tail)

def decodeStep (data : Json) : Except Exn PlanStep := do
  let stepId <- data.item "step_id" >>= Json.text
  let description <- data.item "description" >>= Json.text
  let assignedRobotId <- data.item "assigned_robot_id" >>= Json.text
  let capability <- data.item "capability" >>= Json.text
  let inputs <- data.item "inputs"
  let completionCriteria <- data.item "completion_criteria" >>= Json.text
  let dependsOn <- data.get "depends_on" (.arr []) >>= Json.tuple >>= textItems
  let resources <- data.get "resources" (.arr []) >>= Json.tuple >>= textItems
  let notBeforeMs <- data.get "not_before_ms" .null
  let deadlineMs <- data.get "deadline_ms" .null
  .ok
    { stepId := stepId
      description := description
      assignedRobotId := assignedRobotId
      capability := capability
      inputs := inputs
      completionCriteria := completionCriteria
      dependsOn := dependsOn
      resources := resources
      notBeforeMs := notBeforeMs
      deadlineMs := deadlineMs }

def decodeAssignment (data : Json) : Except Exn Assignment := do
  let assignmentId <- data.item "assignment_id" >>= Json.text
  let goalId <- data.item "goal_id" >>= Json.text
  let planId <- data.item "plan_id" >>= Json.text
  let step <- data.item "step" >>= decodeStep
  let authorityLeaseId <- data.get "authority_lease_id" .null >>= Json.text?
  let assignment : Assignment :=
    { assignmentId := assignmentId
      goalId := goalId
      planId := planId
      step := step
      authorityLeaseId := authorityLeaseId }
  assignment.check
  .ok assignment

theorem textItems_map_str (items : List String) :
    textItems (items.map Json.str) = .ok items := by
  induction items with
  | nil => rfl
  | cons head rest ih => simp [textItems, Json.text, ih, bind, Except.bind]

theorem decodeStep_payload (step : PlanStep) : decodeStep step.payload = .ok step := by
  have hdependsOn := textItems_map_str step.dependsOn
  have hresources := textItems_map_str step.resources
  simp [decodeStep, PlanStep.payload, Json.item, Json.get, Json.text, Json.strings,
    Json.tuple, List.lookup_cons, bind, Except.bind, hdependsOn, hresources]

theorem text?_optional (value : Option String) :
    (Json.optional Json.str value).text? = .ok value := by
  cases value with
  | none => rfl
  | some text => rfl

theorem decodeAssignment_payload {assignment : Assignment}
    (h : assignment.check = .ok ()) :
    decodeAssignment assignment.payload = .ok assignment := by
  have hstep := decodeStep_payload assignment.step
  have hlease := text?_optional assignment.authorityLeaseId
  simp [decodeAssignment, Assignment.payload, Json.item, Json.get, Json.text, List.lookup_cons,
    bind, Except.bind, hstep, hlease, h]

/-!
## Outcomes

An outcome resolves a missing status from its `succeeded` flag, and no outcome
with a disagreeing flag or with status `accepted` can be built.
-/

structure Outcome where
  assignmentId : String
  robotId : String
  succeeded : Bool
  description : String
  status : AssignmentStatus
  outputs : Json
  flagAgrees : succeeded = decide (status = .succeeded)
  notAccepted : status ≠ .accepted

namespace Outcome

def payload (outcome : Outcome) : Json :=
  .obj [("assignment_id", .str outcome.assignmentId),
    ("robot_id", .str outcome.robotId),
    ("succeeded", .bool outcome.succeeded),
    ("description", .str outcome.description),
    ("status", .str outcome.status.value),
    ("outputs", outcome.outputs)]

/-- `_outcome_json`. -/
def canonical (outcome : Outcome) : Text :=
  outcome.payload.dumps

/-- `==` of two outcomes, field by field. -/
def equal (a b : Outcome) : Bool :=
  a.assignmentId == b.assignmentId && a.robotId == b.robotId && a.succeeded == b.succeeded &&
    a.description == b.description && a.status == b.status && a.outputs.equal b.outputs

theorem status_of_equal {a b : Outcome} (h : a.equal b = true) : a.status = b.status := by
  unfold equal at h
  simp only [Bool.and_eq_true, beq_iff_eq] at h
  exact h.1.2

def resolve (succeeded : Bool) : Option AssignmentStatus -> AssignmentStatus
  | some status => status
  | none => if succeeded then .succeeded else .failed

/-- `Outcome(...)` with the checks of its `__post_init__`. -/
def make (assignmentId robotId : String) (succeeded : Bool) (description : String)
    (status : Option AssignmentStatus) (outputs : Json) : Except Exn Outcome := do
  identifier assignmentId "assignment_id"
  identifier robotId "robot_id"
  requiredText description "outcome description" maxLongTextBytes
  if haccepted : resolve succeeded status = .accepted then
    .error (.value "accepted is not a terminal outcome status")
  else if hflag : succeeded = decide (resolve succeeded status = .succeeded) then
    refuseWhen (!outputs.isObject) "outcome outputs must be an object"
    refuseWhen (decide (maxStructuredOutputBytes < Text.byteSize outputs.dumps))
      ("outcome outputs exceed " ++ toString maxStructuredOutputBytes ++
        " UTF-8 bytes")
    .ok
      { assignmentId := assignmentId
        robotId := robotId
        succeeded := succeeded
        description := description
        status := resolve succeeded status
        outputs := outputs
        flagAgrees := hflag
        notAccepted := haccepted }
  else
    .error (.value "outcome succeeded flag and terminal status disagree")

theorem make_eq_ok {assignmentId robotId : String} {succeeded : Bool} {description : String}
    {status : Option AssignmentStatus} {outputs : Json} {outcome : Outcome}
    (h : make assignmentId robotId succeeded description status outputs = .ok outcome) :
    identifier assignmentId "assignment_id" = .ok () ∧
      identifier robotId "robot_id" = .ok () ∧
      requiredText description "outcome description" maxLongTextBytes = .ok () ∧
      outcome.assignmentId = assignmentId ∧ outcome.robotId = robotId ∧
      outcome.status = resolve succeeded status := by
  rcases bind_eq_ok.mp h with ⟨_, hid, h⟩
  rcases bind_eq_ok.mp h with ⟨_, hrobot, h⟩
  rcases bind_eq_ok.mp h with ⟨_, htext, h⟩
  split_ifs at h with haccepted hflag
  rcases bind_eq_ok.mp h with ⟨_, _, h⟩
  rcases bind_eq_ok.mp h with ⟨_, _, h⟩
  cases h
  exact ⟨hid, hrobot, htext, rfl, rfl, rfl⟩

theorem make_of_agreeing {assignmentId robotId description : String}
    {status : AssignmentStatus} (hid : identifier assignmentId "assignment_id" = .ok ())
    (hrobot : identifier robotId "robot_id" = .ok ())
    (htext : requiredText description "outcome description" maxLongTextBytes = .ok ())
    (haccepted : status ≠ .accepted) :
    exists outcome, make assignmentId robotId (decide (status = .succeeded)) description
      (some status) (.obj []) = .ok outcome := by
  have hsize : decide (maxStructuredOutputBytes < Text.byteSize (Json.obj []).dumps) = false := by
    decide
  unfold make
  rw [hid, hrobot, htext]
  simp only [bind, Except.bind, resolve, haccepted, dite_false, Json.isObject, refuseWhen, hsize]
  exact ⟨_, dif_pos rfl⟩

theorem make_of_checked {assignmentId robotId description : String}
    {status : AssignmentStatus} (hid : identifier assignmentId "assignment_id" = .ok ())
    (hrobot : identifier robotId "robot_id" = .ok ())
    (htext : requiredText description "outcome description" maxLongTextBytes = .ok ())
    (haccepted : status ≠ .accepted) (hsucceeded : status ≠ .succeeded) :
    exists outcome, make assignmentId robotId false description (some status) (.obj []) =
      .ok outcome := by
  have h := make_of_agreeing hid hrobot htext haccepted
  rwa [decide_eq_false hsucceeded] at h

/-- The end of an outcome's canonical text, from the key of the status on. -/
def ending (status : AssignmentStatus) : Text :=
  Json.quote "status" ++ ':' :: ((Json.str status.value).dumps ++ ',' ::
    (Json.quote "succeeded" ++ ':' :: ((Json.bool (decide (status = .succeeded))).dumps ++
      ['\x7d'])))

theorem sortKeys_outcome (assignmentId robotId succeeded description status outputs : Text) :
    Json.sortKeys [("assignment_id", assignmentId), ("robot_id", robotId),
      ("succeeded", succeeded), ("description", description), ("status", status),
      ("outputs", outputs)] =
    [("assignment_id", assignmentId), ("description", description), ("outputs", outputs),
      ("robot_id", robotId), ("status", status), ("succeeded", succeeded)] := by
  simp [Json.sortKeys, List.insertionSort, List.orderedInsert]

theorem ending_suffix (outcome : Outcome) : ending outcome.status <:+ outcome.canonical := by
  have htexts : forall assignmentId description outputs robotId status succeeded : Text,
      Json.quote "status" ++ ':' :: (status ++ ',' :: (Json.quote "succeeded" ++ ':' ::
        (succeeded ++ ['\x7d']))) <:+
      '\x7b' :: Json.commaSeparated [Json.quote "assignment_id" ++ ':' :: assignmentId,
        Json.quote "description" ++ ':' :: description, Json.quote "outputs" ++ ':' :: outputs,
        Json.quote "robot_id" ++ ':' :: robotId, Json.quote "status" ++ ':' :: status,
        Json.quote "succeeded" ++ ':' :: succeeded] ++ ['\x7d'] := by
    intro assignmentId description outputs robotId status succeeded
    refine ⟨'\x7b' :: (Json.quote "assignment_id" ++ ':' :: (assignmentId ++ ',' ::
      (Json.quote "description" ++ ':' :: (description ++ ',' ::
      (Json.quote "outputs" ++ ':' :: (outputs ++ ',' ::
      (Json.quote "robot_id" ++ ':' :: (robotId ++ [','])))))))), ?_⟩
    simp only [Json.commaSeparated, List.append_assoc, List.cons_append, List.nil_append]
  unfold canonical payload
  rw [Json.dumps]
  simp only [Json.dumpsFields, sortKeys_outcome, outcome.flagAgrees, List.map_cons, List.map_nil]
  unfold ending
  exact htexts _ _ _ _ _ _

theorem ending_eq {a b : AssignmentStatus} (h : ending a <:+ ending b) : a = b := by
  cases a <;> cases b <;> first | rfl | (revert h; decide)

theorem status_of_canonical {a b : Outcome} (h : a.canonical = b.canonical) :
    a.status = b.status := by
  have ha := ending_suffix a
  rw [h] at ha
  rcases List.suffix_or_suffix_of_suffix ha (ending_suffix b) with hends | hends
  · exact ending_eq hends
  · exact (ending_eq hends).symm

end Outcome

/-!
## A small mission

The goal, steps and assignments of the concrete runs in later modules.
-/

def patrolGoal : SharedGoal where
  goalId := "patrol"
  description := "Patrol the hall"
  participantIds := ["r1", "r2"]
  constraints := .obj []
  deadlineMs := none

def patrolStep (stepId robotId : String) (dependsOn : List String) : PlanStep where
  stepId := stepId
  description := "Walk"
  assignedRobotId := robotId
  capability := "walk/v1"
  inputs := .obj []
  completionCriteria := "Arrived"
  dependsOn := dependsOn
  resources := []
  notBeforeMs := .null
  deadlineMs := .null

def patrolPlan (planId : String) (steps : List PlanStep) : Plan where
  planId := planId
  goalId := "patrol"
  plannerId := "planner"
  summary := "Walk in turn"
  steps := steps
  revision := 1
  supersedesPlanId := none

def patrolAssignment (assignmentId planId : String) (step : PlanStep) : Assignment where
  assignmentId := assignmentId
  goalId := "patrol"
  planId := planId
  step := step
  authorityLeaseId := none

end Ump
