import Ump.Foundation.Dependency
import Ump.Protocol.Envelope

/-!
# Plan validation

## The registry

The coordinator looks up the manifest and the freshness of each peer. A robot
state is kept as far as freshness reads it.
-/

namespace Ump.Coordinator

open Foundation

structure RobotState where
  freshForMs : Int

structure PeerView where
  manifest : Option RobotManifest
  state : Option RobotState
  stateTimestampMs : Int

abbrev Registry := List (String × PeerView)

def Registry.isFresh (registry : Registry) (robotId : String) (nowMs : Int) : Bool :=
  match registry.lookup robotId with
  | some { state := some state, stateTimestampMs := timestampMs, .. } =>
      decide (nowMs - timestampMs ≤ state.freshForMs)
  | _ => false

/-!
## The checks of a plan
-/

def repeated (text : String) (count : Nat) : String :=
  String.ofList (List.replicate count text.toList).flatten

/-- The envelope that `_validate_core_message_size` encodes. The message id is a
`uuid4`, of 36 characters. -/
def coreEnvelope (messageType : MessageType) (body : Json) : Envelope where
  messageId := repeated "u" 36
  messageType := messageType
  sourceId := repeated "s" 128
  sessionId := repeated "s" 128
  sequence := 1
  timestampMs := 0
  payload := body
  correlationId := some (repeated "c" 128)
  stream := .operational

def validateCoreMessageSize (messageType : MessageType) (body : Json) : Except Exn Unit :=
  match (coreEnvelope messageType body).encode with
  | .ok _ => .ok ()
  | .error _ =>
      .error (.value (messageType.value ++ " does not fit the 64 KiB core profile"))

theorem byteSize_quote_repeated :
    Text.byteSize (Json.quote (repeated "s" 128)) = 130 ∧
    Text.byteSize (Json.quote (repeated "u" 36)) = 38 ∧
    Text.byteSize (Json.quote (repeated "c" 128)) = 130 := by
  unfold repeated Json.quote
  rw [String.toList_ofList, String.toList_ofList, String.toList_ofList]
  decide +kernel

theorem headerSize_coreEnvelope (messageType : MessageType) (body : Json) :
    (coreEnvelope messageType body).headerSize = 430 := by
  rcases byteSize_quote_repeated with ⟨hsource, hmessage, hcorrelation⟩
  have hone : Text.byteSize (Json.int 1).dumps = 1 := by decide
  have hzero : Text.byteSize (Json.int 0).dumps = 1 := by decide
  unfold Envelope.headerSize
  simp only [coreEnvelope, Json.optional, hone, hzero]
  simp only [Json.dumps, hsource, hmessage, hcorrelation]

theorem validateCoreMessageSize_eq_ok {messageType : MessageType} {body : Json} :
    validateCoreMessageSize messageType body = .ok () <->
      566 + Text.byteSize (Json.quote messageType.value) + Text.byteSize body.dumps ≤
        maxMessageBytes := by
  have hsize := @Envelope.byteSize_document (coreEnvelope messageType body) rfl
  rw [headerSize_coreEnvelope] at hsize
  simp only [coreEnvelope] at hsize
  have hstream : (coreEnvelope messageType body).checkStream = .ok () := rfl
  unfold validateCoreMessageSize
  constructor
  · intro h
    by_contra hbig
    have hlarge : decide (maxMessageBytes <
        Text.byteSize (coreEnvelope messageType body).document.dumps) = true := by
      apply decide_eq_true
      show maxMessageBytes < Text.byteSize (coreEnvelope messageType body).document.dumps
      simp only [coreEnvelope]
      omega
    unfold Envelope.encode at h
    rw [hstream] at h
    simp only [bind, Except.bind, hlarge, refuseWhen] at h
    cases h
  · intro h
    rw [Envelope.encode_eq_ok hstream (by simp only [coreEnvelope]; omega)]

theorem validateCoreMessageSize_ok {messageType : MessageType} {body : Json}
    (h : Text.byteSize body.dumps ≤ 60000) :
    validateCoreMessageSize messageType body = .ok () := by
  have hkind := Envelope.byteSize_quote_messageType messageType
  apply validateCoreMessageSize_eq_ok.mpr
  unfold maxMessageBytes
  omega

/-- The capability that a step needs, as the assigned robot offers it. -/
def availableCapability (registry : Registry) (step : PlanStep) : Bool :=
  match registry.lookup step.assignedRobotId with
  | some { manifest := some manifest, .. } =>
      match manifest.capability step.capability with
      | some capability => decide (capability.availability = .available)
      | none => false
  | _ => false

def present (registry : Registry) (robotId : String) (nowMs : Int) : Bool :=
  match registry.lookup robotId with
  | some { manifest := some _, .. } => registry.isFresh robotId nowMs
  | _ => false

def validateStep (goal : SharedGoal) (known : List String) (registry : Registry)
    (nowMs : Int) (step : PlanStep) : Except Exn Unit := do
  refuseWhen (!goal.participantIds.contains step.assignedRobotId)
    ("unknown participant: " ++ step.assignedRobotId)
  refuseWhen (!present registry step.assignedRobotId nowMs)
    ("participant is absent or stale: " ++ step.assignedRobotId)
  refuseWhen (!availableCapability registry step)
    (step.assignedRobotId ++ " does not have available capability " ++ step.capability)
  let deadline <- step.deadlineMs.number?
  refuseWhen (PlanStep.given deadline (fun last =>
    PlanStep.given (goal.deadlineMs.map (fun ms => (ms : Rat)))
      (fun goalLast => decide (goalLast < last))))
    ("step exceeds goal deadline: " ++ step.stepId)
  refuseWhen (PlanStep.given deadline (fun last => decide (last < nowMs)))
    ("step deadline has passed: " ++ step.stepId)
  refuseWhen (step.dependsOn.any (fun dependency => !known.contains dependency))
    ("unknown dependencies: " ++ String.intercalate ", "
      (step.dependsOn.filter (fun dependency => !known.contains dependency)))

/-!
## The search for cycles
-/

structure Marks where
  visiting : List String
  visited : List String

abbrev Graph := List (String × List String)

/-- The two sets of the search. The fuel bounds the depth of the recursion: a
path without a repetition is no longer than the plan. -/
def visit (graph : Graph) : Nat -> Marks -> String -> Except Exn Marks
  | 0, _, _ => .error (.runtime "maximum recursion depth exceeded")
  | fuel + 1, marks, stepId =>
      if marks.visiting.contains stepId then
        .error (.value "plan contains a dependency cycle")
      else if marks.visited.contains stepId then
        .ok marks
      else
        match graph.lookup stepId with
        | none => .error (.key stepId)
        | some dependencies => do
            let entered : Marks := { marks with visiting := stepId :: marks.visiting }
            let left <- dependencies.foldlM (visit graph fuel) entered
            .ok
              { visiting := left.visiting.erase stepId
                visited := stepId :: left.visited }

def graphOf (steps : List PlanStep) : Graph :=
  steps.map (fun step => (step.stepId, step.dependsOn))

def validatePlan (goal : SharedGoal) (plan : Plan) (registry : Registry) (nowMs : Int) :
    Except Exn Unit := do
  validateCoreMessageSize .plan plan.payload
  refuseWhen (decide (plan.goalId ≠ goal.goalId) || decide (plan.revision < 1) ||
    plan.steps.isEmpty) "plan does not identify a valid goal and revision"
  refuseWhen (decide (256 < plan.steps.length)) "plan exceeds 256 steps"
  let stepIds := plan.steps.map (fun step => step.stepId)
  refuseWhen (stepIds.any (fun stepId => stepId.isEmpty) || hasRepeats stepIds)
    "step identifiers must be non-empty and unique"
  checkAll (validateStep goal stepIds registry nowMs) plan.steps
  let _ <- stepIds.foldlM (visit (graphOf plan.steps) (plan.steps.length + 1))
    { visiting := [], visited := [] }
  .ok ()

/-!
## What a validated plan has
-/

def dependenciesOf (graph : Graph) (stepId : String) : List String :=
  (graph.lookup stepId).getD []

structure Searched (graph : Graph) (marks marks' : Marks) : Prop where
  topological : Topological (dependenciesOf graph) marks.visited ->
    Topological (dependenciesOf graph) marks'.visited
  grows : forall x, x ∈ marks.visited -> x ∈ marks'.visited

theorem Searched.refl (graph : Graph) (marks : Marks) : Searched graph marks marks :=
  ⟨fun h => h, fun _ h => h⟩

theorem Searched.trans {graph : Graph} {a b c : Marks} (hab : Searched graph a b)
    (hbc : Searched graph b c) : Searched graph a c :=
  ⟨fun h => hbc.topological (hab.topological h), fun x h => hbc.grows x (hab.grows x h)⟩

theorem foldlM_searched {graph : Graph}
    {search : Marks -> String -> Except Exn Marks}
    (hsearch : forall marks x marks', search marks x = .ok marks' ->
      Searched graph marks marks' ∧ x ∈ marks'.visited)
    {stepIds : List String} {marks marks' : Marks}
    (h : stepIds.foldlM search marks = .ok marks') :
    Searched graph marks marks' ∧ forall x, x ∈ stepIds -> x ∈ marks'.visited := by
  induction stepIds generalizing marks with
  | nil =>
      cases h
      exact ⟨.refl graph _, fun x hx => by cases hx⟩
  | cons head rest ih =>
      rw [List.foldlM_cons] at h
      rcases bind_eq_ok.mp h with ⟨mid, hhead, hrest⟩
      rcases hsearch marks head mid hhead with ⟨hmid, hvisited⟩
      rcases ih hrest with ⟨hlast, hall⟩
      refine ⟨hmid.trans hlast, ?_⟩
      intro x hx
      rcases List.mem_cons.mp hx with rfl | hx
      · exact hlast.grows _ hvisited
      · exact hall x hx

theorem visit_searched {graph : Graph} {fuel : Nat} {marks marks' : Marks}
    {stepId : String} (h : visit graph fuel marks stepId = .ok marks') :
    Searched graph marks marks' ∧ stepId ∈ marks'.visited := by
  induction fuel generalizing marks marks' stepId with
  | zero =>
      cases h
  | succ fuel ih =>
      unfold visit at h
      split_ifs at h with hvisiting hvisited
      · cases h
        exact ⟨.refl graph marks, by simpa using hvisited⟩
      · cases hlookup : graph.lookup stepId with
        | none =>
            rw [hlookup] at h
            cases h
        | some dependencies =>
            rw [hlookup] at h
            rcases bind_eq_ok.mp h with ⟨left, hfold, hok⟩
            cases hok
            rcases foldlM_searched (fun _ _ _ => ih) hfold with ⟨hleft, hall⟩
            refine ⟨⟨?_, ?_⟩, List.mem_cons_self⟩
            · intro htop
              refine ⟨?_, hleft.topological htop⟩
              intro d hd
              refine hall d ?_
              simpa [dependenciesOf, hlookup] using hd
            · intro x hx
              exact List.mem_cons_of_mem _ (hleft.grows x hx)

/-- What the later modules use of a plan that `validate_plan` accepts. -/
structure Validated (plan : Plan) : Prop where
  nonempty : plan.steps ≠ []
  stepIds : (plan.steps.map (fun step => step.stepId)).Nodup
  known : forall step, step ∈ plan.steps -> forall d, d ∈ step.dependsOn ->
    d ∈ plan.steps.map (fun step => step.stepId)
  order : exists order, Topological (dependenciesOf (graphOf plan.steps)) order ∧
    forall step, step ∈ plan.steps -> step.stepId ∈ order

theorem validatePlan_validated {goal : SharedGoal} {plan : Plan} {registry : Registry}
    {nowMs : Int} (h : validatePlan goal plan registry nowMs = .ok ()) :
    Validated plan := by
  unfold validatePlan at h
  rcases bind_eq_ok.mp h with ⟨_, _, h⟩
  rcases bind_eq_ok.mp h with ⟨_, hgoal, h⟩
  rcases bind_eq_ok.mp h with ⟨_, _, h⟩
  rcases bind_eq_ok.mp h with ⟨_, hids, h⟩
  rcases bind_eq_ok.mp h with ⟨_, hsteps, h⟩
  rcases bind_eq_ok.mp h with ⟨marks, hsearch, _⟩
  constructor
  · intro hnil
    have hnone := refuseWhen_eq_ok hgoal
    simp [hnil] at hnone
  · have hunique := (Bool.or_eq_false_iff.mp (refuseWhen_eq_ok hids)).2
    simpa [hasRepeats] using hunique
  · intro step hstep d hd
    have hcheck := checkAll_eq_ok hsteps step hstep
    unfold validateStep at hcheck
    rcases bind_eq_ok.mp hcheck with ⟨_, _, hcheck⟩
    rcases bind_eq_ok.mp hcheck with ⟨_, _, hcheck⟩
    rcases bind_eq_ok.mp hcheck with ⟨_, _, hcheck⟩
    rcases bind_eq_ok.mp hcheck with ⟨_, _, hcheck⟩
    rcases bind_eq_ok.mp hcheck with ⟨_, _, hcheck⟩
    rcases bind_eq_ok.mp hcheck with ⟨_, _, hcheck⟩
    have hmissing := List.any_eq_false.mp (refuseWhen_eq_ok hcheck) d hd
    simpa using hmissing
  · rcases foldlM_searched (fun _ _ _ => visit_searched) hsearch with ⟨hsearched, hall⟩
    refine ⟨marks.visited, hsearched.topological trivial, ?_⟩
    intro step hstep
    exact hall _ (List.mem_map.mpr ⟨step, hstep, rfl⟩)

theorem lookup_graphOf {steps : List PlanStep}
    (hunique : (steps.map (fun step => step.stepId)).Nodup) {step : PlanStep}
    (hstep : step ∈ steps) : (graphOf steps).lookup step.stepId = some step.dependsOn := by
  induction steps with
  | nil => cases hstep
  | cons head rest ih =>
      rw [List.map_cons, List.nodup_cons] at hunique
      unfold graphOf
      rw [List.map_cons, List.lookup_cons]
      rcases List.mem_cons.mp hstep with rfl | hrest
      · rw [beq_self_eq_true]
      · have hne : (step.stepId == head.stepId) = false := by
          rw [beq_eq_false_iff_ne]
          intro heq
          rw [← heq] at hunique
          exact hunique.1 (List.mem_map.mpr ⟨step, hrest, rfl⟩)
        rw [hne]
        exact ih hunique.2 hrest

theorem Validated.dependenciesOf_step {plan : Plan} (h : Validated plan)
    {step : PlanStep} (hstep : step ∈ plan.steps) :
    dependenciesOf (graphOf plan.steps) step.stepId = step.dependsOn := by
  unfold dependenciesOf
  rw [lookup_graphOf h.stepIds hstep]
  rfl

theorem Validated.exists_minimal {plan : Plan} (h : Validated plan)
    {p : String -> Prop} (hp : exists step, step ∈ plan.steps ∧ p step.stepId)
    (hplan : forall stepId, p stepId -> exists step, step ∈ plan.steps ∧ step.stepId = stepId) :
    exists step, step ∈ plan.steps ∧ p step.stepId ∧
      forall d, d ∈ step.dependsOn -> ¬ p d := by
  rcases h.order with ⟨order, htop, hall⟩
  rcases hp with ⟨start, hstart, hpstart⟩
  rcases htop.exists_minimal ⟨start.stepId, hall start hstart, hpstart⟩ with
    ⟨x, _, hpx, hfree⟩
  rcases hplan x hpx with ⟨step, hstep, rfl⟩
  refine ⟨step, hstep, hpx, ?_⟩
  intro d hd
  rw [h.dependenciesOf_step hstep] at hfree
  exact (hfree d hd).2

end Ump.Coordinator
