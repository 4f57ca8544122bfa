import Ump.Coordinator.Collaboration

/-!
# Which plans are accepted

## Valid plans

What `validate_plan` is for, without its order of checks and its search: each step can be
done by the robot that it names, and the steps can be put in an order in which each comes
after those that it depends on.
-/

namespace Ump.Coordinator

open Foundation

/-- The envelope of the plan with the longest header values has at most 64 KiB. -/
def FitsCoreProfile (plan : Plan) : Prop :=
  Text.byteSize (coreEnvelope .plan plan.payload).document.dumps ≤ maxMessageBytes

/-- The robot is known, its state is fresh and it offers the capability at present. -/
def Offers (registry : Registry) (nowMs : Int) (robotId capability : String) : Prop :=
  exists peer manifest state offered,
    registry.lookup robotId = some peer ∧
    peer.manifest = some manifest ∧
    peer.state = some state ∧ nowMs - peer.stateTimestampMs ≤ state.freshForMs ∧
    manifest.capability capability = some offered ∧ offered.availability = .available

structure ValidStep (goal : SharedGoal) (plan : Plan) (registry : Registry) (nowMs : Int)
    (step : PlanStep) : Prop where
  participant : step.assignedRobotId ∈ goal.participantIds
  offers : Offers registry nowMs step.assignedRobotId step.capability
  deadline : forall ms, step.deadlineMs.number? = .ok (some ms) -> (nowMs : Rat) ≤ ms
  goalDeadline : forall ms last, step.deadlineMs.number? = .ok (some ms) ->
    goal.deadlineMs = some last -> ms ≤ (last : Rat)
  dependencies : forall d, d ∈ step.dependsOn -> exists other, other ∈ plan.steps ∧
    other.stepId = d

def DependsOn (steps : List PlanStep) (stepId dependency : String) : Prop :=
  exists step, step ∈ steps ∧ step.stepId = stepId ∧ dependency ∈ step.dependsOn

structure ValidPlan (goal : SharedGoal) (plan : Plan) (registry : Registry) (nowMs : Int) :
    Prop where
  fits : FitsCoreProfile plan
  goalId : plan.goalId = goal.goalId
  count : 1 ≤ plan.steps.length ∧ plan.steps.length ≤ 256
  stepIds : (plan.steps.map (fun step => step.stepId)).Nodup
  steps : forall step, step ∈ plan.steps -> ValidStep goal plan registry nowMs step
  acyclic : Acyclic (DependsOn plan.steps)

/-- The steps of the plan, newest first, each after all that it depends on. -/
def OrderedSteps (plan : Plan) (order : List String) : Prop :=
  order.Perm (plan.steps.map (fun step => step.stepId)) ∧
    Topological (dependenciesOf (graphOf plan.steps)) order

/-!
## How checks end
-/

/-- The check passes, or it raises the error of a plan that is not valid. -/
def Decides (x : Except Exn value) : Prop :=
  (exists v, x = .ok v) ∨ exists message, x = .error (.value message)

theorem decides_ok (v : value) : Decides (.ok v : Except Exn value) :=
  Or.inl ⟨v, rfl⟩

theorem Decides.bind {x : Except Exn value} {next : value -> Except Exn result}
    (hx : Decides x) (hnext : forall v, x = .ok v -> Decides (next v)) : Decides (x >>= next) := by
  rcases hx with ⟨v, rfl⟩ | ⟨message, rfl⟩
  · exact hnext v rfl
  · exact Or.inr ⟨message, rfl⟩

theorem decides_refuseWhen (condition : Bool) (text : String) :
    Decides (refuseWhen condition text) := by
  cases condition with
  | true => exact Or.inr ⟨text, rfl⟩
  | false => exact Or.inl ⟨(), rfl⟩

theorem ok_bind (v : value) (next : value -> Except Exn result) :
    ((.ok v : Except Exn value) >>= next) = next v :=
  rfl

theorem decides_checkAll {check : value -> Except Exn Unit} {items : List value}
    (h : forall x, x ∈ items -> Decides (check x)) : Decides (checkAll check items) := by
  induction items with
  | nil => exact decides_ok ()
  | cons head rest ih =>
      refine (h head List.mem_cons_self).bind (fun _ _ => ?_)
      exact ih (fun x hx => h x (List.mem_cons_of_mem _ hx))

/-!
## One step
-/

theorem deadline_of_check {step : PlanStep} (h : step.check = .ok ()) :
    exists deadline, step.deadlineMs.number? = .ok deadline := by
  rcases bind_eq_ok.mp h with ⟨_, _, h⟩
  rcases bind_eq_ok.mp h with ⟨_, _, h⟩
  rcases bind_eq_ok.mp h with ⟨_, _, h⟩
  rcases bind_eq_ok.mp h with ⟨_, _, h⟩
  rcases bind_eq_ok.mp h with ⟨_, _, h⟩
  rcases bind_eq_ok.mp h with ⟨_, _, h⟩
  rcases bind_eq_ok.mp h with ⟨_, _, h⟩
  rcases bind_eq_ok.mp h with ⟨_, _, h⟩
  rcases bind_eq_ok.mp h with ⟨_, _, h⟩
  rcases bind_eq_ok.mp h with ⟨_, _, h⟩
  rcases bind_eq_ok.mp h with ⟨deadline, hdeadline, _⟩
  exact ⟨deadline, hdeadline⟩

theorem given_eq_false {bound : Option Rat} {compare : Rat -> Bool} :
    PlanStep.given bound compare = false <-> forall ms, bound = some ms -> compare ms = false := by
  cases bound with
  | none => simp [PlanStep.given]
  | some ms => simp [PlanStep.given]

theorem offers_iff {registry : Registry} {nowMs : Int} {step : PlanStep} :
    Offers registry nowMs step.assignedRobotId step.capability <->
      present registry step.assignedRobotId nowMs = true ∧
        availableCapability registry step = true := by
  unfold Offers present availableCapability Registry.isFresh
  cases hlookup : registry.lookup step.assignedRobotId with
  | none => simp
  | some peer =>
      rcases peer with ⟨manifest, state, timestampMs⟩
      cases manifest with
      | none => simp
      | some manifest =>
          cases state with
          | none => simp
          | some state =>
              cases hcapability : manifest.capability step.capability with
              | none => simp [hcapability]
              | some offered => simp [hcapability]

theorem dependsOn_known {steps : List PlanStep} {dependencies : List String} :
    dependencies.any (fun dependency =>
      !(steps.map (fun step => step.stepId)).contains dependency) = false <->
      forall d, d ∈ dependencies -> exists other, other ∈ steps ∧ other.stepId = d := by
  simp [List.any_eq_false]

theorem validateStep_iff {goal : SharedGoal} {plan : Plan} {registry : Registry} {nowMs : Int}
    {step : PlanStep} (hstep : step.check = .ok ()) :
    validateStep goal (plan.steps.map (fun step => step.stepId)) registry nowMs step = .ok () <->
      ValidStep goal plan registry nowMs step := by
  rcases deadline_of_check hstep with ⟨deadline, hdeadline⟩
  unfold validateStep
  rw [hdeadline]
  simp only [refuse_bind_iff, ok_bind, refuseWhen_iff, given_eq_false, dependsOn_known]
  constructor
  · rintro ⟨hparticipant, hpresent, havailable, hgoal, hnow, hknown⟩
    constructor
    · simpa using hparticipant
    · exact offers_iff.mpr ⟨by simpa using hpresent, by simpa using havailable⟩
    · intro ms hms
      rw [hdeadline] at hms
      simpa [Rat.not_lt] using hnow ms (Except.ok.inj hms)
    · intro ms last hms hlast
      rw [hdeadline] at hms
      have hbefore := hgoal ms (Except.ok.inj hms) last (by rw [hlast]; rfl)
      simpa [Rat.not_lt] using hbefore
    · exact hknown
  · intro h
    have hoffers := offers_iff.mp h.offers
    refine ⟨by simpa using h.participant, by simpa using hoffers.1, by simpa using hoffers.2,
      ?_, ?_, h.dependencies⟩
    · intro ms hms bound hbound
      rw [hms] at hdeadline
      cases hlast : goal.deadlineMs with
      | none =>
          rw [hlast] at hbound
          cases hbound
      | some last =>
          rw [hlast] at hbound
          cases hbound
          simpa [Rat.not_lt] using h.goalDeadline ms last hdeadline hlast
    · intro ms hms
      rw [hms] at hdeadline
      simpa [Rat.not_lt] using h.deadline ms hdeadline

/-!
## The search for cycles

A search leaves the steps on the current path as it found them and visits only steps that are
not on it. The steps on the path all need the step that is searched, so a step met again on
the path is on a cycle; and a path without repetition is no longer than the plan, so that the
recursion ends.
-/

def Needs (graph : Graph) (stepId dependency : String) : Prop :=
  dependency ∈ dependenciesOf graph stepId

def stepIdsOf (graph : Graph) : List String :=
  graph.map Prod.fst

/-- What a search keeps of the marks, and what it adds to them. -/
structure KeepsPath (graph : Graph) (marks marks' : Marks) : Prop where
  visiting : marks'.visiting = marks.visiting
  visited : forall x, x ∈ marks'.visited ->
    x ∈ marks.visited ∨ x ∉ marks.visiting ∧ x ∈ stepIdsOf graph
  nodup : marks.visited.Nodup -> marks'.visited.Nodup

theorem KeepsPath.refl (graph : Graph) (marks : Marks) : KeepsPath graph marks marks :=
  ⟨rfl, fun _ h => Or.inl h, fun h => h⟩

theorem KeepsPath.trans {graph : Graph} {a b c : Marks} (hab : KeepsPath graph a b)
    (hbc : KeepsPath graph b c) : KeepsPath graph a c := by
  refine ⟨hbc.visiting.trans hab.visiting, ?_, fun h => hbc.nodup (hab.nodup h)⟩
  intro x hx
  rcases hbc.visited x hx with hx | ⟨hfree, hknown⟩
  · exact hab.visited x hx
  · rw [hab.visiting] at hfree
    exact Or.inr ⟨hfree, hknown⟩

theorem foldlM_keepsPath {graph : Graph} {search : Marks -> String -> Except Exn Marks}
    (hsearch : forall marks x marks', search marks x = .ok marks' -> KeepsPath graph marks marks')
    {stepIds : List String} {marks marks' : Marks}
    (h : stepIds.foldlM search marks = .ok marks') : KeepsPath graph marks marks' := by
  induction stepIds generalizing marks with
  | nil =>
      cases h
      exact .refl graph _
  | cons head rest ih =>
      rw [List.foldlM_cons] at h
      rcases bind_eq_ok.mp h with ⟨mid, hhead, hrest⟩
      exact (hsearch marks head mid hhead).trans (ih hrest)

theorem mem_stepIdsOf_of_lookup {graph : Graph} {stepId : String} {dependencies : List String}
    (h : graph.lookup stepId = some dependencies) : stepId ∈ stepIdsOf graph := by
  rcases List.lookup_eq_some_iff.mp h with ⟨before, after, hgraph, _⟩
  rw [hgraph]
  simp [stepIdsOf]

theorem visit_keepsPath {graph : Graph} {fuel : Nat} {marks marks' : Marks} {stepId : String}
    (h : visit graph fuel marks stepId = .ok marks') : KeepsPath graph marks marks' := by
  induction fuel generalizing marks marks' stepId with
  | zero => cases h
  | succ fuel ih =>
      unfold visit at h
      split_ifs at h with hvisiting hvisited
      · cases h
        exact .refl graph _
      · cases hlookup : graph.lookup stepId with
        | none =>
            rw [hlookup] at h
            cases h
        | some dependencies =>
            rw [hlookup] at h
            rcases bind_eq_ok.mp h with ⟨left, hfold, hok⟩
            cases hok
            have hleft := foldlM_keepsPath (fun _ _ _ => ih) hfold
            have hfree : stepId ∉ marks.visiting := by simpa using hvisiting
            have hnew : stepId ∉ left.visited := by
              intro hmem
              rcases hleft.visited stepId hmem with hmem | ⟨hnot, _⟩
              · exact hvisited (by simpa using hmem)
              · exact hnot List.mem_cons_self
            constructor
            · show left.visiting.erase stepId = marks.visiting
              rw [hleft.visiting]
              exact List.erase_cons_head stepId marks.visiting
            · intro x hx
              rcases List.mem_cons.mp hx with rfl | hx
              · exact Or.inr ⟨hfree, mem_stepIdsOf_of_lookup hlookup⟩
              · rcases hleft.visited x hx with hx | ⟨hnot, hknown⟩
                · exact Or.inl hx
                · exact Or.inr ⟨fun hmem => hnot (List.mem_cons_of_mem _ hmem), hknown⟩
            · intro hnodup
              exact List.nodup_cons.mpr ⟨hnew, hleft.nodup hnodup⟩

/-- The search succeeds, or it has found a cycle. -/
def Ends (graph : Graph) (x : Except Exn Marks) : Prop :=
  (exists marks, x = .ok marks) ∨
    x = .error (.value "plan contains a dependency cycle") ∧
      exists stepId, Relation.TransGen (Needs graph) stepId stepId

theorem Ends.bind {graph : Graph} {x : Except Exn Marks} {next : Marks -> Except Exn Marks}
    (hx : Ends graph x) (hnext : forall marks, x = .ok marks -> Ends graph (next marks)) :
    Ends graph (x >>= next) := by
  rcases hx with ⟨marks, rfl⟩ | ⟨rfl, hcycle⟩
  · exact hnext marks rfl
  · exact Or.inr ⟨rfl, hcycle⟩

theorem foldlM_ends {graph : Graph} {search : Marks -> String -> Except Exn Marks}
    {visiting : List String}
    (hkept : forall marks x marks', search marks x = .ok marks' -> KeepsPath graph marks marks')
    {stepIds : List String}
    (hends : forall marks x, marks.visiting = visiting -> x ∈ stepIds ->
      Ends graph (search marks x))
    {marks : Marks} (hmarks : marks.visiting = visiting) :
    Ends graph (stepIds.foldlM search marks) := by
  induction stepIds generalizing marks with
  | nil => exact Or.inl ⟨marks, rfl⟩
  | cons head rest ih =>
      rw [List.foldlM_cons]
      refine (hends marks head hmarks List.mem_cons_self).bind (fun mid hmid => ?_)
      refine ih (fun marks x hvisiting hx => hends marks x hvisiting
        (List.mem_cons_of_mem _ hx)) ?_
      rw [(hkept marks head mid hmid).visiting, hmarks]

/-- The steps on the path to the step that is searched. -/
structure OnPath (graph : Graph) (visiting : List String) (stepId : String) : Prop where
  nodup : visiting.Nodup
  known : forall x, x ∈ visiting -> x ∈ stepIdsOf graph
  needs : forall x, x ∈ visiting -> Relation.TransGen (Needs graph) x stepId

theorem OnPath.length_le {graph : Graph} {visiting : List String} {stepId : String}
    (h : OnPath graph visiting stepId) : visiting.length ≤ graph.length := by
  have hle := (List.subperm_of_subset h.nodup h.known).length_le
  rwa [stepIdsOf, List.length_map] at hle

theorem OnPath.enter {graph : Graph} {visiting : List String} {stepId d : String}
    (h : OnPath graph visiting stepId) (hknown : stepId ∈ stepIdsOf graph)
    (hfree : stepId ∉ visiting) (hd : Needs graph stepId d) :
    OnPath graph (stepId :: visiting) d := by
  constructor
  · exact List.nodup_cons.mpr ⟨hfree, h.nodup⟩
  · intro x hx
    rcases List.mem_cons.mp hx with rfl | hx
    · exact hknown
    · exact h.known x hx
  · intro x hx
    rcases List.mem_cons.mp hx with rfl | hx
    · exact Relation.TransGen.single hd
    · exact (h.needs x hx).tail hd

theorem visit_ends {graph : Graph}
    (hclosed : forall x d, Needs graph x d -> d ∈ stepIdsOf graph)
    {fuel : Nat} {marks : Marks} {stepId : String} (hpath : OnPath graph marks.visiting stepId)
    (hknown : stepId ∈ stepIdsOf graph) (hfuel : graph.length < fuel + marks.visiting.length) :
    Ends graph (visit graph fuel marks stepId) := by
  induction fuel generalizing marks stepId with
  | zero =>
      have hle := hpath.length_le
      omega
  | succ fuel ih =>
      unfold visit
      split_ifs with hvisiting hvisited
      · exact Or.inr ⟨rfl, stepId, hpath.needs stepId (by simpa using hvisiting)⟩
      · exact Or.inl ⟨marks, rfl⟩
      · cases hlookup : graph.lookup stepId with
        | none =>
            rcases List.mem_map.mp hknown with ⟨entry, hentry, rfl⟩
            have hne := List.lookup_eq_none_iff.mp hlookup entry hentry
            simp at hne
        | some dependencies =>
            have hfree : stepId ∉ marks.visiting := by simpa using hvisiting
            refine Ends.bind ?_ (fun left _ => Or.inl ⟨_, rfl⟩)
            refine foldlM_ends (fun _ _ _ => visit_keepsPath) ?_ rfl
            intro inner d hinner hd
            have hneeds : Needs graph stepId d := by
              unfold Needs dependenciesOf
              rw [hlookup]
              exact hd
            apply ih
            · rw [hinner]
              exact hpath.enter hknown hfree hneeds
            · exact hclosed stepId d hneeds
            · rw [hinner, List.length_cons]
              omega

/-!
## The steps of a plan
-/

theorem stepIdsOf_graphOf (steps : List PlanStep) :
    stepIdsOf (graphOf steps) = steps.map (fun step => step.stepId) := by
  simp [stepIdsOf, graphOf]

theorem needs_iff {steps : List PlanStep}
    (hunique : (steps.map (fun step => step.stepId)).Nodup) {stepId dependency : String} :
    Needs (graphOf steps) stepId dependency <-> DependsOn steps stepId dependency := by
  unfold Needs dependenciesOf
  constructor
  · intro h
    cases hlookup : (graphOf steps).lookup stepId with
    | none =>
        rw [hlookup] at h
        cases h
    | some dependencies =>
        rw [hlookup] at h
        have hknown := mem_stepIdsOf_of_lookup hlookup
        rw [stepIdsOf_graphOf] at hknown
        rcases List.mem_map.mp hknown with ⟨step, hstep, rfl⟩
        rw [lookup_graphOf hunique hstep] at hlookup
        cases hlookup
        exact ⟨step, hstep, rfl, h⟩
  · rintro ⟨step, hstep, rfl, hd⟩
    rw [lookup_graphOf hunique hstep]
    exact hd

/-- The search of `validate_plan`, with any fuel. -/
def searchSteps (steps : List PlanStep) (fuel : Nat) : Except Exn Marks :=
  (steps.map (fun step => step.stepId)).foldlM (visit (graphOf steps) fuel)
    { visiting := [], visited := [] }

structure WellFormedSteps (steps : List PlanStep) : Prop where
  unique : (steps.map (fun step => step.stepId)).Nodup
  closed : forall step, step ∈ steps -> forall d, d ∈ step.dependsOn ->
    exists other, other ∈ steps ∧ other.stepId = d

/-- Whatever the steps depend on, the recursion is never deeper than the plan is long. -/
theorem searchSteps_ends {steps : List PlanStep} (h : WellFormedSteps steps) {fuel : Nat}
    (hfuel : steps.length < fuel) : Ends (graphOf steps) (searchSteps steps fuel) := by
  have hclosed : forall x d, Needs (graphOf steps) x d -> d ∈ stepIdsOf (graphOf steps) := by
    intro x d hneeds
    rcases (needs_iff h.unique).mp hneeds with ⟨step, hstep, _, hd⟩
    rcases h.closed step hstep d hd with ⟨other, hother, rfl⟩
    rw [stepIdsOf_graphOf]
    exact List.mem_map.mpr ⟨other, hother, rfl⟩
  refine foldlM_ends (fun _ _ _ => visit_keepsPath) ?_ rfl
  intro marks stepId hvisiting hmem
  apply visit_ends hclosed
  · rw [hvisiting]
    exact ⟨List.nodup_nil, fun _ hx => (by cases hx), fun _ hx => (by cases hx)⟩
  · rw [stepIdsOf_graphOf]
    exact hmem
  · rw [hvisiting]
    simpa [graphOf] using hfuel

theorem ordered_of_searchSteps {plan : Plan} (h : WellFormedSteps plan.steps) {fuel : Nat}
    {marks : Marks} (hsearch : searchSteps plan.steps fuel = .ok marks) :
    OrderedSteps plan marks.visited := by
  rcases foldlM_searched (fun _ _ _ => visit_searched) hsearch with ⟨hsearched, hall⟩
  have hkept := foldlM_keepsPath (fun _ _ _ => visit_keepsPath) hsearch
  refine ⟨?_, hsearched.topological trivial⟩
  refine (List.perm_ext_iff_of_nodup (hkept.nodup List.nodup_nil) h.unique).mpr (fun x => ?_)
  constructor
  · intro hx
    rcases hkept.visited x hx with hx | ⟨_, hknown⟩
    · cases hx
    · rwa [stepIdsOf_graphOf] at hknown
  · exact hall x

theorem OrderedSteps.acyclic {plan : Plan} {order : List String} (h : OrderedSteps plan order)
    (hunique : (plan.steps.map (fun step => step.stepId)).Nodup) :
    Acyclic (DependsOn plan.steps) := by
  intro stepId hcycle
  have hneeds : Relation.TransGen (fun a d => d ∈ dependenciesOf (graphOf plan.steps) a)
      stepId stepId :=
    Relation.TransGen.mono (fun _ _ hd => (needs_iff hunique).mpr hd) _ _ hcycle
  rcases Relation.TransGen.head'_iff.mp hcycle with ⟨_, ⟨step, hstep, rfl, _⟩, _⟩
  exact h.2.not_cyclic (h.1.mem_iff.mpr (List.mem_map.mpr ⟨step, hstep, rfl⟩)) hneeds

theorem searchSteps_iff {plan : Plan} (h : WellFormedSteps plan.steps) {fuel : Nat}
    (hfuel : plan.steps.length < fuel) :
    (exists marks, searchSteps plan.steps fuel = .ok marks) <->
      Acyclic (DependsOn plan.steps) := by
  constructor
  · rintro ⟨marks, hsearch⟩
    exact (ordered_of_searchSteps h hsearch).acyclic h.unique
  · intro hacyclic
    rcases searchSteps_ends h hfuel with hfound | ⟨_, stepId, hcycle⟩
    · exact hfound
    · have hdepends := Relation.TransGen.mono (fun _ _ hd => (needs_iff h.unique).mp hd) _ _ hcycle
      exact absurd hdepends (hacyclic stepId)

/-!
## The whole plan
-/

theorem fitsCoreProfile_iff {plan : Plan} :
    validateCoreMessageSize .plan plan.payload = .ok () <-> FitsCoreProfile plan := by
  have hsize := @Envelope.byteSize_document (coreEnvelope .plan plan.payload) rfl
  rw [headerSize_coreEnvelope] at hsize
  rw [validateCoreMessageSize_eq_ok, FitsCoreProfile, hsize]
  show _ <-> 136 + 430 + Text.byteSize (Json.quote MessageType.plan.value) +
    Text.byteSize plan.payload.dumps ≤ maxMessageBytes
  omega

theorem decides_coreMessageSize (messageType : MessageType) (body : Json) :
    Decides (validateCoreMessageSize messageType body) := by
  unfold validateCoreMessageSize
  cases (coreEnvelope messageType body).encode with
  | ok _ => exact decides_ok ()
  | error _ => exact Or.inr ⟨_, rfl⟩

theorem decides_validateStep {goal : SharedGoal} {known : List String} {registry : Registry}
    {nowMs : Int} {step : PlanStep} (hstep : step.check = .ok ()) :
    Decides (validateStep goal known registry nowMs step) := by
  rcases deadline_of_check hstep with ⟨deadline, hdeadline⟩
  unfold validateStep
  rw [hdeadline]
  refine (decides_refuseWhen _ _).bind (fun _ _ => ?_)
  refine (decides_refuseWhen _ _).bind (fun _ _ => ?_)
  refine (decides_refuseWhen _ _).bind (fun _ _ => ?_)
  refine (decides_ok deadline).bind (fun _ _ => ?_)
  refine (decides_refuseWhen _ _).bind (fun _ _ => ?_)
  refine (decides_refuseWhen _ _).bind (fun _ _ => ?_)
  exact decides_refuseWhen _ _

/-- What the constructor of a plan has checked, as far as `validate_plan` checks it again. -/
structure Constructed (plan : Plan) : Prop where
  steps : forall step, step ∈ plan.steps -> step.check = .ok ()
  revision : 1 ≤ plan.revision
  stepIds : forall step, step ∈ plan.steps -> step.stepId.isEmpty = false

theorem nonempty_of_identifier {text fieldName : String}
    (h : identifier text fieldName = .ok ()) : text.isEmpty = false := by
  unfold identifier requiredText at h
  split_ifs at h with hbad
  by_contra hempty
  rw [Bool.not_eq_false, String.isEmpty_iff] at hempty
  apply hbad
  rw [hempty]
  rfl

theorem constructed_of_check {plan : Plan} (h : plan.check = .ok ()) : Constructed plan := by
  rcases bind_eq_ok.mp h with ⟨_, hsteps, h⟩
  rcases bind_eq_ok.mp h with ⟨_, _, h⟩
  rcases bind_eq_ok.mp h with ⟨_, _, h⟩
  rcases bind_eq_ok.mp h with ⟨_, _, h⟩
  rcases bind_eq_ok.mp h with ⟨_, _, h⟩
  rcases bind_eq_ok.mp h with ⟨_, hlineage, h⟩
  rcases bind_eq_ok.mp hlineage with ⟨_, hrevision, _⟩
  constructor
  · exact checkAll_iff.mp hsteps
  · simpa using refuseWhen_iff.mp hrevision
  · intro step hstep
    rcases bind_eq_ok.mp (checkAll_iff.mp hsteps step hstep) with ⟨_, hid, _⟩
    exact nonempty_of_identifier hid

theorem wellFormedSteps_of_valid {goal : SharedGoal} {plan : Plan} {registry : Registry}
    {nowMs : Int} (hunique : (plan.steps.map (fun step => step.stepId)).Nodup)
    (hsteps : forall step, step ∈ plan.steps -> ValidStep goal plan registry nowMs step) :
    WellFormedSteps plan.steps :=
  ⟨hunique, fun step hstep d hd => (hsteps step hstep).dependencies d hd⟩

theorem validatePlan_iff {goal : SharedGoal} {plan : Plan} {registry : Registry} {nowMs : Int}
    (hplan : Constructed plan) :
    validatePlan goal plan registry nowMs = .ok () <->
      FitsCoreProfile plan ∧ plan.goalId = goal.goalId ∧
        (1 ≤ plan.steps.length ∧ plan.steps.length ≤ 256) ∧
        (plan.steps.map (fun step => step.stepId)).Nodup ∧
        (forall step, step ∈ plan.steps -> ValidStep goal plan registry nowMs step) ∧
        exists marks, searchSteps plan.steps (plan.steps.length + 1) = .ok marks := by
  constructor
  · intro h
    unfold validatePlan at h
    rcases bind_eq_ok.mp h with ⟨_, hfits, h⟩
    rcases refuse_bind_iff.mp h with ⟨hgoal, h⟩
    rcases refuse_bind_iff.mp h with ⟨hcount, h⟩
    rcases refuse_bind_iff.mp h with ⟨hids, h⟩
    rcases bind_eq_ok.mp h with ⟨_, hsteps, h⟩
    rcases bind_eq_ok.mp h with ⟨marks, hsearch, _⟩
    have hunique := (Bool.or_eq_false_iff.mp hids).2
    have hnonempty : plan.steps ≠ [] := by
      intro hnil
      simp [hnil] at hgoal
    refine ⟨fitsCoreProfile_iff.mp hfits, ?_, ⟨?_, by simpa using hcount⟩, ?_, ?_, marks, hsearch⟩
    · have hboth := (Bool.or_eq_false_iff.mp hgoal).1
      simpa using (Bool.or_eq_false_iff.mp hboth).1
    · exact List.length_pos_iff.mpr hnonempty
    · simpa [hasRepeats] using hunique
    · intro step hstep
      exact (validateStep_iff (hplan.steps step hstep)).mp (checkAll_iff.mp hsteps step hstep)
  · rintro ⟨hfits, hgoal, hcount, hunique, hsteps, marks, hsearch⟩
    have hnonempty : plan.steps.isEmpty = false := by
      rw [List.isEmpty_eq_false_iff]
      exact List.length_pos_iff.mp hcount.1
    have hrevision := hplan.revision
    refine bind_eq_ok.mpr ⟨(), fitsCoreProfile_iff.mpr hfits, ?_⟩
    refine refuse_bind_iff.mpr ⟨?_, ?_⟩
    · simp only [hgoal, hnonempty, ne_eq, not_true_eq_false, decide_false, Bool.false_or,
        Bool.or_false, decide_eq_false_iff_not]
      omega
    · refine refuse_bind_iff.mpr ⟨by simpa using hcount.2, ?_⟩
      refine refuse_bind_iff.mpr ⟨?_, ?_⟩
      · rw [Bool.or_eq_false_iff]
        constructor
        · rw [List.any_eq_false]
          intro stepId hmem
          rcases List.mem_map.mp hmem with ⟨step, hstep, rfl⟩
          simp [hplan.stepIds step hstep]
        · simpa [hasRepeats] using hunique
      · refine bind_eq_ok.mpr ⟨(), checkAll_iff.mpr (fun step hstep => ?_), ?_⟩
        · exact (validateStep_iff (hplan.steps step hstep)).mpr (hsteps step hstep)
        · exact bind_eq_ok.mpr ⟨marks, hsearch, rfl⟩

theorem decides_validatePlan {goal : SharedGoal} {plan : Plan} {registry : Registry}
    {nowMs : Int} (hplan : Constructed plan) :
    Decides (validatePlan goal plan registry nowMs) := by
  unfold validatePlan
  refine (decides_coreMessageSize _ _).bind (fun _ _ => ?_)
  refine (decides_refuseWhen _ _).bind (fun _ _ => ?_)
  refine (decides_refuseWhen _ _).bind (fun _ _ => ?_)
  refine (decides_refuseWhen _ _).bind (fun _ hids => ?_)
  have hunique := (Bool.or_eq_false_iff.mp (refuseWhen_iff.mp hids)).2
  refine (decides_checkAll (fun step hstep =>
    decides_validateStep (hplan.steps step hstep))).bind (fun _ hsteps => ?_)
  have hformed := wellFormedSteps_of_valid (by simpa [hasRepeats] using hunique)
    (fun step hstep => (validateStep_iff (hplan.steps step hstep)).mp
      (checkAll_iff.mp hsteps step hstep))
  have hsearch : Decides (searchSteps plan.steps (plan.steps.length + 1)) := by
    rcases searchSteps_ends hformed (Nat.lt_succ_self _) with hfound | ⟨hcycle, _⟩
    · exact Or.inl hfound
    · exact Or.inr ⟨_, hcycle⟩
  exact hsearch.bind (fun _ _ => decides_ok ())

/-- `validate_plan` accepts a plan or refuses it, it accepts just the valid ones, and the
steps of those can be put in order. -/
theorem accepts_exactly_valid_plans (goal : SharedGoal) (plan : Plan) (registry : Registry)
    (nowMs : Int) (hplan : plan.check = .ok ()) :
    Decides (validatePlan goal plan registry nowMs) ∧
      (validatePlan goal plan registry nowMs = .ok () <->
        ValidPlan goal plan registry nowMs) ∧
      (validatePlan goal plan registry nowMs = .ok () ->
        exists order, OrderedSteps plan order) := by
  have hbuilt := constructed_of_check hplan
  refine ⟨decides_validatePlan hbuilt, ?_, ?_⟩
  · rw [validatePlan_iff hbuilt]
    constructor
    · rintro ⟨hfits, hgoal, hcount, hunique, hsteps, hsearch⟩
      have hformed := wellFormedSteps_of_valid hunique hsteps
      exact ⟨hfits, hgoal, hcount, hunique, hsteps,
        (searchSteps_iff hformed (Nat.lt_succ_self _)).mp hsearch⟩
    · intro h
      have hformed := wellFormedSteps_of_valid h.stepIds h.steps
      exact ⟨h.fits, h.goalId, h.count, h.stepIds, h.steps,
        (searchSteps_iff hformed (Nat.lt_succ_self _)).mpr h.acyclic⟩
  · intro h
    rcases (validatePlan_iff hbuilt).mp h with ⟨_, _, _, hunique, hsteps, marks, hsearch⟩
    exact ⟨marks.visited, ordered_of_searchSteps (wellFormedSteps_of_valid hunique hsteps) hsearch⟩

set_option maxRecDepth 8000 in
theorem patrol_plan_valid :
    ValidPlan patrolGoal (patrolPlan "p" (patrolSteps ["s1"])) (patrolReading ["s1"]).registry 0 ∧
      exists order, OrderedSteps (patrolPlan "p" (patrolSteps ["s1"])) order := by
  have haccepted : validatePlan patrolGoal (patrolPlan "p" (patrolSteps ["s1"]))
      (patrolReading ["s1"]).registry 0 = .ok () := by
    unfold validatePlan
    rw [validateCoreMessageSize_ok (byteSize_patrolPlan (Or.inr rfl))]
    rfl
  have hexact := accepts_exactly_valid_plans patrolGoal (patrolPlan "p" (patrolSteps ["s1"]))
    (patrolReading ["s1"]).registry 0 rfl
  exact ⟨hexact.2.1.mp haccepted, hexact.2.2 haccepted⟩

end Ump.Coordinator
