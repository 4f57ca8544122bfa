import Mathlib.Algebra.Order.BigOperators.Group.List
import Mathlib.Algebra.Order.Group.Nat
import Ump.Coordinator.Lineage

/-!
# The size of what is published

## Headers and payloads

`_prepare` measures the goal and the plan in an envelope of its own: 430 bytes of header
values, with plain letters for the identifiers. What is published later has another header,
and an assignment has members that its plan has not.
-/

namespace Ump.Coordinator

open Foundation CoordinatorStore

def Message.core : Message -> Bool
  | .goal _ => true
  | .plan _ => true
  | .assignment _ => true
  | _ => false

/-- The values of the header, and in an assignment its two further identifiers, need no more
bytes than the measured envelope leaves them. -/
def Message.HeaderFits (envelope : Envelope) : Message -> Prop
  | .goal _ => envelope.headerSize ≤ 430
  | .plan _ => envelope.headerSize ≤ 430
  | .assignment a =>
      envelope.headerSize + Text.byteSize (Json.quote a.assignmentId) +
        Text.byteSize (Json.optional Json.str a.authorityLeaseId).dumps ≤ 457
  | _ => True

/-- Every envelope that is handed over has a header that fits. -/
def KeepsHeaders (config : Config) : Condition Memory Task Reading Entry
  | m, _, .exec (.handOver message nowMs correlationId sequence) r =>
      message.HeaderFits
        (sealMessage config m message nowMs correlationId sequence (r.uuid4 0))
  | _, _, _ => True

/-- The assignment of a step of a checked plan that has passed the size check. -/
structure Measures (plan : Plan) (assignment : Assignment) : Prop where
  checked : plan.check = .ok ()
  measured : validateCoreMessageSize .plan plan.payload = .ok ()
  step : assignment.step ∈ plan.steps
  goalId : assignment.goalId = plan.goalId
  planId : assignment.planId = plan.planId

/-!
## The bytes of a payload
-/

theorem one_le_byteSize {text : Text} (h : text ≠ []) : 1 ≤ Text.byteSize text := by
  cases text with
  | nil => exact absurd rfl h
  | cons c rest =>
      have hpos := c.utf8Size_pos
      rw [Text.byteSize_cons]
      omega

theorem three_le_byteSize_quote {value fieldName : String} {maximum : Nat}
    (h : requiredText value fieldName maximum = .ok ()) :
    3 ≤ Text.byteSize (Json.quote value) := by
  unfold requiredText at h
  split_ifs at h with hbad
  have hquote : Char.utf8Size '"' = 1 := by decide
  unfold Json.quote
  cases hchars : value.toList with
  | nil =>
      rw [hchars] at hbad
      simp at hbad
  | cons c rest =>
      have hone := one_le_byteSize (Json.escape_ne_nil c)
      simp only [List.flatMap_cons, Text.byteSize_cons, Text.byteSize_append, Text.byteSize_nil,
        hquote]
      omega

theorem one_le_byteSize_int (n : Int) : 1 ≤ Text.byteSize (Json.int n).dumps := by
  unfold Json.dumps
  apply one_le_byteSize
  intro hnil
  have hempty := String.toList_eq_nil_iff.mp hnil
  cases n with
  | ofNat m => exact Nat.repr_ne_empty hempty
  | negSucc m => simp [toString, Int.repr] at hempty

theorem byteSize_payload_keys : Text.byteSize (Json.quote "goal_id") = 9 ∧
    Text.byteSize (Json.quote "plan_id") = 9 ∧
    Text.byteSize (Json.quote "planner_id") = 12 ∧
    Text.byteSize (Json.quote "summary") = 9 ∧
    Text.byteSize (Json.quote "steps") = 7 ∧
    Text.byteSize (Json.quote "revision") = 10 ∧
    Text.byteSize (Json.quote "supersedes_plan_id") = 20 ∧
    Text.byteSize (Json.quote "assignment_id") = 15 ∧
    Text.byteSize (Json.quote "step") = 6 ∧
    Text.byteSize (Json.quote "authority_lease_id") = 20 := by
  decide

theorem byteSize_planPayload (plan : Plan) :
    Text.byteSize plan.payload.dumps = 91 + Text.byteSize (Json.quote plan.planId) +
      Text.byteSize (Json.quote plan.goalId) + Text.byteSize (Json.quote plan.plannerId) +
      Text.byteSize (Json.quote plan.summary) +
      Text.byteSize (Json.arr (plan.steps.map PlanStep.payload)).dumps +
      Text.byteSize (Json.int plan.revision).dumps +
      Text.byteSize (Json.optional Json.str plan.supersedesPlanId).dumps := by
  rcases byteSize_payload_keys with ⟨h1, h2, h3, h4, h5, h6, h7, _, _, _⟩
  unfold Plan.payload
  rw [Json.byteSize_dumps_obj (by simp)]
  simp only [Json.dumpsFields, List.map_cons, List.map_nil, List.sum_cons, List.sum_nil,
    Json.dumps, h1, h2, h3, h4, h5, h6, h7]
  omega

theorem byteSize_assignmentPayload (assignment : Assignment) :
    Text.byteSize assignment.payload.dumps = 70 +
      Text.byteSize (Json.quote assignment.assignmentId) +
      Text.byteSize (Json.quote assignment.goalId) +
      Text.byteSize (Json.quote assignment.planId) +
      Text.byteSize assignment.step.payload.dumps +
      Text.byteSize (Json.optional Json.str assignment.authorityLeaseId).dumps := by
  rcases byteSize_payload_keys with ⟨h1, h2, _, _, _, _, _, h8, h9, h10⟩
  unfold Assignment.payload
  rw [Json.byteSize_dumps_obj (by simp)]
  simp only [Json.dumpsFields, List.map_cons, List.map_nil, List.sum_cons, List.sum_nil,
    Json.dumps, h1, h2, h8, h9, h10]
  omega

theorem dumpsItems_eq_map (items : List Json) : Json.dumpsItems items = items.map Json.dumps := by
  induction items with
  | nil => rfl
  | cons head rest ih => rw [Json.dumpsItems, ih, List.map_cons]

theorem byteSize_step_le {plan : Plan} {step : PlanStep} (h : step ∈ plan.steps) :
    2 + Text.byteSize step.payload.dumps ≤
      Text.byteSize (Json.arr (plan.steps.map PlanStep.payload)).dumps := by
  have hne : plan.steps.map PlanStep.payload ≠ [] := by
    intro hnil
    rw [List.map_eq_nil_iff.mp hnil] at h
    cases h
  rw [Json.byteSize_dumps_arr hne, dumpsItems_eq_map, List.map_map, List.map_map]
  have hmem := List.le_sum_of_mem (List.mem_map_of_mem
    (f := (fun item => Text.byteSize item + 1) ∘ Json.dumps ∘ PlanStep.payload) h)
  simp only [Function.comp_apply] at hmem
  simp only [Function.comp_assoc]
  omega

theorem encode_of_size {envelope : Envelope} (hstream : envelope.stream = .operational)
    (h : 136 + envelope.headerSize + Text.byteSize (Json.quote envelope.messageType.value) +
      Text.byteSize envelope.payload.dumps ≤ maxMessageBytes) :
    exists text, envelope.encode = .ok text := by
  have hcheck : envelope.checkStream = .ok () := by
    unfold Envelope.checkStream
    rw [hstream]
    rfl
  have hsize := Envelope.byteSize_document hstream
  exact ⟨_, Envelope.encode_eq_ok hcheck (by omega)⟩

theorem byteSize_quote_kind : Text.byteSize (Json.quote MessageType.goal.value) = 6 ∧
    Text.byteSize (Json.quote MessageType.plan.value) = 6 ∧
    Text.byteSize (Json.quote MessageType.assignment.value) = 12 := by
  decide

theorem byteSize_plan_rest {plan : Plan} (h : plan.check = .ok ()) :
    10 ≤ Text.byteSize (Json.quote plan.plannerId) + Text.byteSize (Json.quote plan.summary) +
      Text.byteSize (Json.int plan.revision).dumps +
      Text.byteSize (Json.optional Json.str plan.supersedesPlanId).dumps := by
  unfold Plan.check at h
  rcases bind_eq_ok.mp h with ⟨_, _, h⟩
  rcases bind_eq_ok.mp h with ⟨_, _, h⟩
  rcases bind_eq_ok.mp h with ⟨_, _, h⟩
  rcases bind_eq_ok.mp h with ⟨_, hplanner, h⟩
  rcases bind_eq_ok.mp h with ⟨_, hsummary, h⟩
  rcases bind_eq_ok.mp h with ⟨_, hlineage, _⟩
  have hplannerSize := three_le_byteSize_quote hplanner
  have hsummarySize := three_le_byteSize_quote hsummary
  have hrevision := one_le_byteSize_int plan.revision
  have hsupersedes :
      3 ≤ Text.byteSize (Json.optional Json.str plan.supersedesPlanId).dumps := by
    cases hprevious : plan.supersedesPlanId with
    | none => decide
    | some previous =>
        unfold Plan.checkLineage at hlineage
        rcases bind_eq_ok.mp hlineage with ⟨_, hpositive, hlineage⟩
        rcases bind_eq_ok.mp hlineage with ⟨_, hinitial, hlineage⟩
        have hone := refuseWhen_eq_ok hpositive
        have hlater := refuseWhen_eq_ok hinitial
        simp only [hprevious, decide_eq_false_iff_not, Option.isSome_some, Bool.and_true]
          at hone hlater
        rw [if_pos (by omega), hprevious] at hlineage
        rcases bind_eq_ok.mp hlineage with ⟨_, hid, _⟩
        exact three_le_byteSize_quote hid
  omega

/-!
## What has been measured
-/

/-- The size check has accepted the goal, the plan, or the plan of the assignment. -/
def Message.Measured : Message -> Prop
  | .goal g => validateCoreMessageSize .goal g.payload = .ok ()
  | .plan p => validateCoreMessageSize .plan p.payload = .ok ()
  | .assignment a => exists plan, Measures plan a
  | _ => True

theorem Message.Measured.encode {message : Message} (h : message.Measured)
    (hcore : message.core = true) {envelope : Envelope}
    (hstream : envelope.stream = .operational)
    (htype : envelope.messageType = message.messageType)
    (hpayload : envelope.payload = message.payload)
    (hheader : message.HeaderFits envelope) : exists text, envelope.encode = .ok text := by
  apply encode_of_size hstream
  rw [htype, hpayload]
  cases message with
  | goal goal =>
      have hsize := validateCoreMessageSize_eq_ok.mp h
      unfold Message.HeaderFits at hheader
      simp only [Message.messageType, Message.payload]
      omega
  | plan plan =>
      have hsize := validateCoreMessageSize_eq_ok.mp h
      unfold Message.HeaderFits at hheader
      simp only [Message.messageType, Message.payload]
      omega
  | assignment a =>
      rcases h with ⟨plan, hmeasures⟩
      have hsize := validateCoreMessageSize_eq_ok.mp hmeasures.measured
      have hplan := byteSize_planPayload plan
      have hrest := byteSize_plan_rest hmeasures.checked
      have hstep := byteSize_step_le hmeasures.step
      have hown := byteSize_assignmentPayload a
      rcases byteSize_quote_kind with ⟨_, hplanKind, hkind⟩
      rw [hmeasures.goalId, hmeasures.planId] at hown
      unfold Message.HeaderFits at hheader
      simp only [Message.messageType, Message.payload]
      omega
  | _ => cases hcore

structure MeasuredRun (goal : SharedGoal) (plan : Plan) (assignments : List Assignment) :
    Prop where
  ofGoal : (Message.goal goal).Measured
  ofPlan : (Message.plan plan).Measured
  ofAssignments : forall a, a ∈ assignments -> Measures plan a

def Task.Measured : Task -> Prop
  | .createRun goal plan assignments _ => MeasuredRun goal plan assignments
  | .prepareMany _ prepared _ => forall run, run ∈ prepared ->
      MeasuredRun run.1 run.2.1 run.2.2
  | .publish message _ _ => message.Measured
  | .handOver message _ _ _ => message.Measured
  | .dispatch a _ => exists plan, Measures plan a
  | _ => True

/-- Stored steps and tasks have been measured, and what has been handed over is encoded. -/
structure Publishable (m : Memory) (ts : Multiset Task) : Prop where
  steps : forall row, row ∈ m.store.runSteps.rows -> exists plan, Measures plan row.assignment
  tasks : forall t, t ∈ ts -> t.Measured
  published : forall message envelope, (message, envelope) ∈ m.published ->
    message.core = true -> exists text, envelope.encode = .ok text

theorem prepare_measured {config : Config} {goal : SharedGoal} {nowMs : Int} {r : Reading}
    {plan : Plan} {assignments : List Assignment}
    (h : prepare config goal nowMs r = .ok (plan, assignments)) :
    MeasuredRun goal plan assignments := by
  have hgoalId := (prepare_lineage h).2.1
  rcases prepare_eq_ok h with ⟨hgoal, _, hcheck, hvalid, rfl⟩
  unfold validatePlan at hvalid
  rcases bind_eq_ok.mp hvalid with ⟨_, hplan, _⟩
  refine ⟨hgoal, hplan, ?_⟩
  intro a ha
  rcases List.mem_mapIdx.mp ha with ⟨i, hi, rfl⟩
  exact ⟨hcheck, hplan, List.getElem_mem hi, hgoalId.symm, rfl⟩

theorem MeasuredRun.created {goal : SharedGoal} {plan : Plan} {assignments : List Assignment}
    {nowMs : Int} (h : MeasuredRun goal plan assignments) {t : Task}
    (ht : t ∈ created goal plan assignments nowMs) : t.Measured := by
  simp only [Ump.Coordinator.created, announce, List.mem_cons, List.not_mem_nil, or_false] at ht
  rcases ht with rfl | rfl | rfl | rfl
  · exact h
  · exact h.ofGoal
  · exact h.ofPlan
  · trivial

theorem start_measured (entry : Entry) (t : Task) (ht : t ∈ start entry) : t.Measured := by
  cases start_cases ht <;> trivial

theorem measured_left {config : Config} {m : Memory} {t t' : Task} {r : Reading}
    (hsteps : forall row, row ∈ m.store.runSteps.rows ->
      exists plan, Measures plan row.assignment)
    (ht : t.Measured) (hleft : t' ∈ (exec config m t r).2.tasks) : t'.Measured := by
  cases exec_succeeds config m r hleft with
  | submitted hprepare hcreated => exact (prepare_measured hprepare).created hcreated
  | batched goals nowMs =>
      intro run hrun
      cases hrun
  | preparedOne hprepare =>
      intro run hrun
      rcases List.mem_append.mp hrun with hold | hnew
      · exact ht run hold
      · rw [List.mem_singleton.mp hnew]
        exact prepare_measured hprepare
  | createsPrepared hrun => exact ht _ hrun
  | announcesPrepared hrun hannounced =>
      exact (ht _ hrun).created (List.mem_cons_of_mem _ hannounced)
  | replanned hprepare hsupersedes hcreated => exact (prepare_measured hprepare).created hcreated
  | sequenced message nowMs correlationId => exact ht
  | listed hready hassignment =>
      rcases (readyAssignments_active hready hassignment).2 with ⟨row, hrow, rfl, _⟩
      exact hsteps row hrow
  | marked a nowMs => exact ht
  | _ => trivial

theorem measured_committed {s s' : CoordinatorStore} {operation : Operation}
    (hsteps : forall row, row ∈ s.runSteps.rows -> exists plan, Measures plan row.assignment)
    (hcommitted : Committed s operation s')
    (hcreated : forall goal plan assignments nowMs,
      operation = .createRun goal plan assignments nowMs -> MeasuredRun goal plan assignments)
    (row' : StepRow) (hrow' : row' ∈ s'.runSteps.rows) :
    exists plan, Measures plan row'.assignment := by
  rcases hcommitted.restated_or_extended with ⟨f, _, hrows, _⟩ |
    ⟨goal, plan, assignments, nowMs, hoperation, _, _, hrows⟩
  · rw [hrows] at hrow'
    rcases List.mem_map.mp hrow' with ⟨row, hrow, rfl⟩
    exact hsteps row hrow
  · rw [hrows] at hrow'
    rcases List.mem_append.mp hrow' with hold | hnew
    · exact hsteps row' hold
    · rcases List.mem_map.mp hnew with ⟨a, ha, rfl⟩
      exact ⟨plan, (hcreated _ _ _ _ hoperation).ofAssignments a ha⟩

theorem publishable_keeps (config : Config) :
    (machine config).Keeps (KeepsHeaders config) (fun _ _ => True) Publishable where
  drop h hle := ⟨h.steps, fun t ht => h.tasks t (Multiset.mem_of_le hle ht), h.published⟩
  spawn {m ts entry} _ h _ := by
    refine ⟨h.steps, ?_, h.published⟩
    intro t ht
    rcases Multiset.mem_add.mp ht with hold | hnew
    · exact h.tasks t hold
    · exact start_measured entry t (Multiset.mem_coe.mp hnew)
  crash {m ts} _ h := by
    refine ⟨?_, ?_, h.published⟩
    · exact measured_committed h.steps Committed.recovered (fun _ _ _ _ hno => by cases hno)
    · intro t ht
      cases Multiset.notMem_zero t ht
  exec {m t ts r} _ h hcondition := by
    have ht : t.Measured := h.tasks t (Multiset.mem_cons_self t ts)
    constructor
    · show forall row, row ∈ (exec config m t r).1.store.runSteps.rows ->
        exists plan, Measures plan row.assignment
      rcases exec_committed config m t r with hsame | ⟨operation, hoperation, hcommitted⟩
      · rw [hsame]
        exact h.steps
      · apply measured_committed h.steps hcommitted
        rintro goal plan assignments nowMs rfl
        cases t <;> cases hoperation
        exact ht
    · intro t' ht'
      rcases Multiset.mem_add.mp ht' with hnew | hold
      · exact measured_left h.steps ht (Multiset.mem_coe.mp hnew)
      · exact h.tasks t' (Multiset.mem_cons_of_mem hold)
    · show forall message envelope, (message, envelope) ∈ (exec config m t r).1.published ->
        message.core = true -> exists text, envelope.encode = .ok text
      rcases exec_published config m t r with hsame |
        ⟨message, nowMs, correlationId, sequence, rfl, hexec⟩
      · rw [hsame]
        exact h.published
      · rw [hexec]
        intro other envelope hmem hcore
        rcases List.mem_append.mp hmem with hold | hnew
        · exact h.published other envelope hold hcore
        · cases List.mem_singleton.mp hnew
          exact ht.encode hcore rfl rfl rfl hcondition

theorem initial_publishable : Publishable Memory.initial 0 where
  steps row hrow := by cases hrow
  tasks t ht := by cases Multiset.notMem_zero t ht
  published message envelope h := by cases h

theorem publishable_reached {config : Config} {p : Pool Memory Task}
    (hp : (machine config).Reaches (KeepsHeaders config) initial p) :
    Publishable p.shared p.tasks :=
  (publishable_keeps config).reaches hp (fun _ _ => trivial) initial_publishable

/-!
## Beyond the limits

The limits are exact: under every longer header the envelope of some goal or assignment
that has passed the size check is too large.
-/

def filler (n : Nat) : Json :=
  .obj [("pad", .str (String.ofList (List.replicate n 'x')))]

theorem byteSize_quote_replicate {c : Char} (hescape : Json.escape c = [c])
    (hsize : c.utf8Size = 1) (n : Nat) :
    Text.byteSize (Json.quote (String.ofList (List.replicate n c))) = n + 2 := by
  have hquote : Char.utf8Size '"' = 1 := by decide
  unfold Json.quote
  rw [String.toList_ofList]
  simp only [Text.byteSize_cons, Text.byteSize_append, Text.byteSize_nil, hquote]
  induction n with
  | zero => rfl
  | succ n ih =>
      rw [List.replicate_succ, List.flatMap_cons, hescape]
      simp only [List.singleton_append, Text.byteSize_cons, hsize]
      omega

theorem byteSize_filler (n : Nat) : Text.byteSize (filler n).dumps = n + 10 := by
  have hkey : Text.byteSize (Json.quote "pad") = 5 := by decide
  have hbody : Text.byteSize (Json.quote (String.ofList (List.replicate n 'x'))) = n + 2 :=
    byteSize_quote_replicate (by decide) (by decide) n
  unfold filler
  rw [Json.byteSize_dumps_obj (by simp)]
  simp only [Json.dumpsFields, List.map_cons, List.map_nil, List.sum_cons, List.sum_nil,
    Json.dumps, hkey, hbody]
  omega

theorem byteSize_escape_le (c : Char) : Text.byteSize (Json.escape c) ≤ 6 * c.utf8Size := by
  have hpos := c.utf8Size_pos
  have hbackslash : Char.utf8Size '\\' = 1 := by decide
  have hescaped := Json.escape_escaped c
  generalize Json.escape c = text at hescaped ⊢
  cases hescaped with
  | plain _ _ =>
      rw [Text.byteSize_cons, Text.byteSize_nil]
      omega
  | @short letter h =>
      have hletters : forall entry, entry ∈ Json.shortEscapes -> entry.2.utf8Size = 1 := by decide
      have hletter : letter.utf8Size = 1 := hletters (c, letter) h
      simp only [Text.byteSize_cons, Text.byteSize_nil, hbackslash, hletter]
      omega
  | control h =>
      have hhex : forall n : Fin 16, (Json.hexDigit n.val).utf8Size = 1 := by decide
      have hhigh : (Json.hexDigit (c.toNat / 16)).utf8Size = 1 := hhex ⟨c.toNat / 16, by omega⟩
      have hlow := hhex ⟨c.toNat % 16, Nat.mod_lt _ (by omega)⟩
      have hu : Char.utf8Size 'u' = 1 := by decide
      have hzero : Char.utf8Size '0' = 1 := by decide
      simp only [Text.byteSize_cons, Text.byteSize_nil, hbackslash, hu, hzero, hhigh, hlow]
      omega

theorem byteSize_quote_le {value fieldName : String}
    (h : identifier value fieldName = .ok ()) : Text.byteSize (Json.quote value) ≤ 770 := by
  have hquote : Char.utf8Size '"' = 1 := by decide
  have hescaped : forall text : Text,
      Text.byteSize (text.flatMap Json.escape) ≤ 6 * Text.byteSize text := by
    intro text
    induction text with
    | nil => exact Nat.le_refl _
    | cons c rest ih =>
        have hone := byteSize_escape_le c
        simp only [List.flatMap_cons, Text.byteSize_append, Text.byteSize_cons]
        omega
  unfold identifier requiredText at h
  split_ifs at h with hbad
  have hvalue := hescaped value.toList
  simp only [Bool.or_eq_true, decide_eq_true_eq, not_or, Nat.not_lt] at hbad
  unfold maxIdBytes at hbad
  unfold Json.quote
  simp only [Text.byteSize_cons, Text.byteSize_append, Text.byteSize_nil, hquote]
  omega

theorem not_encoded_of_size {envelope : Envelope} (hstream : envelope.stream = .operational)
    (h : maxMessageBytes < 136 + envelope.headerSize +
      Text.byteSize (Json.quote envelope.messageType.value) +
      Text.byteSize envelope.payload.dumps) :
    forall text, envelope.encode ≠ .ok text := by
  intro text hencoded
  have hsize := Envelope.byteSize_document hstream
  rcases bind_eq_ok.mp hencoded with ⟨_, _, hencoded⟩
  rcases bind_eq_ok.mp hencoded with ⟨_, hfits, _⟩
  have hlarge := refuseWhen_eq_ok hfits
  simp only [decide_eq_false_iff_not] at hlarge
  omega

def fullGoal (goalId : String) (n : Nat) : SharedGoal where
  goalId := goalId
  description := "d"
  participantIds := ["r1"]
  constraints := filler n
  deadlineMs := none

theorem byteSize_goalPayload (goal : SharedGoal) :
    Text.byteSize goal.payload.dumps = 76 + Text.byteSize (Json.quote goal.goalId) +
      Text.byteSize (Json.quote goal.description) +
      Text.byteSize (Json.strings goal.participantIds).dumps +
      Text.byteSize goal.constraints.dumps +
      Text.byteSize (Json.optional Json.int goal.deadlineMs).dumps := by
  have hkeys : Text.byteSize (Json.quote "goal_id") = 9 ∧
      Text.byteSize (Json.quote "description") = 13 ∧
      Text.byteSize (Json.quote "participant_ids") = 17 ∧
      Text.byteSize (Json.quote "constraints") = 13 ∧
      Text.byteSize (Json.quote "deadline_ms") = 13 := by
    decide
  rcases hkeys with ⟨h1, h2, h3, h4, h5⟩
  unfold SharedGoal.payload
  rw [Json.byteSize_dumps_obj (by simp)]
  simp only [Json.dumpsFields, List.map_cons, List.map_nil, List.sum_cons, List.sum_nil,
    Json.dumps, h1, h2, h3, h4, h5]
  omega

theorem byteSize_fullGoal (goalId : String) (n : Nat) :
    Text.byteSize (fullGoal goalId n).payload.dumps =
      99 + Text.byteSize (Json.quote goalId) + n := by
  have hvalues : Text.byteSize (Json.quote "d") = 3 ∧
      Text.byteSize (Json.strings ["r1"]).dumps = 6 ∧
      Text.byteSize (Json.optional Json.int none).dumps = 4 := by
    decide
  rcases hvalues with ⟨h1, h2, h3⟩
  rw [byteSize_goalPayload]
  simp only [fullGoal, h1, h2, h3, byteSize_filler]
  omega

theorem fullGoal_check {goalId : String} (h : identifier goalId "goal_id" = .ok ()) (n : Nat) :
    (fullGoal goalId n).check = .ok () := by
  unfold SharedGoal.check
  simp only [fullGoal, h]
  rfl

theorem goal_beyond {goalId : String} (hid : identifier goalId "goal_id" = .ok ())
    {header : Envelope} (hstream : header.stream = .operational)
    (hbeyond : 430 < header.headerSize) :
    exists goal : SharedGoal, goal.check = .ok () ∧ goal.goalId = goalId ∧
      (Message.goal goal).Measured ∧
      forall text, { header with messageType := .goal, payload := goal.payload }.encode ≠
        .ok text := by
  have hquote := byteSize_quote_le hid
  have hkind := byteSize_quote_kind.1
  have hsize := byteSize_fullGoal goalId (64865 - Text.byteSize (Json.quote goalId))
  refine ⟨fullGoal goalId (64865 - Text.byteSize (Json.quote goalId)), fullGoal_check hid _, rfl,
    ?_, ?_⟩
  · apply validateCoreMessageSize_eq_ok.mpr
    unfold maxMessageBytes
    omega
  · refine not_encoded_of_size (by exact hstream) ?_
    show maxMessageBytes < 136 + header.headerSize +
      Text.byteSize (Json.quote MessageType.goal.value) +
      Text.byteSize (fullGoal goalId _).payload.dumps
    unfold maxMessageBytes
    omega

def fullStep (n : Nat) : PlanStep :=
  { patrolStep "s1" "r1" [] with inputs := filler n }

def fullPlan (goalId : String) (n : Nat) : Plan where
  planId := "p"
  goalId := goalId
  plannerId := "x"
  summary := "x"
  steps := [fullStep n]
  revision := 2
  supersedesPlanId := some "q"

def fullAssignment (assignmentId goalId : String) (lease : Option String) (n : Nat) :
    Assignment where
  assignmentId := assignmentId
  goalId := goalId
  planId := "p"
  step := fullStep n
  authorityLeaseId := lease

theorem byteSize_fullStep (n : Nat) :
    Text.byteSize (fullStep n).payload.dumps = 208 + n := by
  have hkeys : Text.byteSize (Json.quote "step_id") = 9 ∧
      Text.byteSize (Json.quote "description") = 13 ∧
      Text.byteSize (Json.quote "assigned_robot_id") = 19 ∧
      Text.byteSize (Json.quote "capability") = 12 ∧
      Text.byteSize (Json.quote "inputs") = 8 ∧
      Text.byteSize (Json.quote "completion_criteria") = 21 ∧
      Text.byteSize (Json.quote "depends_on") = 12 ∧
      Text.byteSize (Json.quote "resources") = 11 ∧
      Text.byteSize (Json.quote "not_before_ms") = 15 ∧
      Text.byteSize (Json.quote "deadline_ms") = 13 := by
    decide
  have hvalues : Text.byteSize (Json.str "s1").dumps = 4 ∧
      Text.byteSize (Json.str "Walk").dumps = 6 ∧
      Text.byteSize (Json.str "r1").dumps = 4 ∧
      Text.byteSize (Json.str "walk/v1").dumps = 9 ∧
      Text.byteSize (Json.str "Arrived").dumps = 9 ∧
      Text.byteSize (Json.strings []).dumps = 2 ∧
      Text.byteSize Json.null.dumps = 4 := by
    decide
  rcases hkeys with ⟨h1, h2, h3, h4, h5, h6, h7, h8, h9, h10⟩
  rcases hvalues with ⟨v1, v2, v3, v4, v5, v6, v7⟩
  unfold PlanStep.payload fullStep patrolStep
  rw [Json.byteSize_dumps_obj (by simp)]
  simp only [Json.dumpsFields, List.map_cons, List.map_nil, List.sum_cons, List.sum_nil,
    h1, h2, h3, h4, h5, h6, h7, h8, h9, h10, v1, v2, v3, v4, v5, v6, v7, byteSize_filler]
  omega

theorem byteSize_fullPlan (goalId : String) (n : Nat) :
    Text.byteSize (fullPlan goalId n).payload.dumps =
      314 + Text.byteSize (Json.quote goalId) + n := by
  have hvalues : Text.byteSize (Json.quote "p") = 3 ∧ Text.byteSize (Json.quote "x") = 3 ∧
      Text.byteSize (Json.int 2).dumps = 1 ∧
      Text.byteSize (Json.optional Json.str (some "q")).dumps = 3 := by
    decide
  rcases hvalues with ⟨h1, h2, h3, h4⟩
  have hstep := byteSize_fullStep n
  rw [byteSize_planPayload]
  simp only [fullPlan, List.map_cons, List.map_nil, h1, h2, h3, h4]
  rw [Json.byteSize_dumps_arr (by simp)]
  simp only [Json.dumpsItems, List.map_cons, List.map_nil, List.sum_cons, List.sum_nil, hstep]
  omega

theorem byteSize_fullAssignment (assignmentId goalId : String) (lease : Option String) (n : Nat) :
    Text.byteSize (fullAssignment assignmentId goalId lease n).payload.dumps =
      281 + Text.byteSize (Json.quote assignmentId) + Text.byteSize (Json.quote goalId) +
        Text.byteSize (Json.optional Json.str lease).dumps + n := by
  have hplanId : Text.byteSize (Json.quote "p") = 3 := by decide
  have hstep := byteSize_fullStep n
  rw [byteSize_assignmentPayload]
  simp only [fullAssignment, hplanId, hstep]
  omega

theorem patrolStep_check : (patrolStep "s1" "r1" []).check = .ok () := by
  rfl

theorem fullPlan_check {goalId : String} (h : identifier goalId "goal_id" = .ok ()) (n : Nat) :
    (fullPlan goalId n).check = .ok () := by
  have hstep : checkAll PlanStep.check [fullStep n] = .ok () := by
    have hone : (fullStep n).check = .ok () := patrolStep_check
    unfold checkAll
    rw [hone]
    rfl
  unfold Plan.check
  simp only [fullPlan, h, hstep]
  rfl

theorem assignment_beyond {goalId assignmentId : String} {lease : Option String}
    (hid : identifier goalId "goal_id" = .ok ())
    {header : Envelope} (hstream : header.stream = .operational)
    (hbeyond : 457 < header.headerSize + Text.byteSize (Json.quote assignmentId) +
      Text.byteSize (Json.optional Json.str lease).dumps) :
    exists plan a, Measures plan a ∧ a.goalId = goalId ∧ a.assignmentId = assignmentId ∧
      a.authorityLeaseId = lease ∧
      forall text, { header with messageType := .assignment, payload := a.payload }.encode ≠
        .ok text := by
  have hquote := byteSize_quote_le hid
  rcases byteSize_quote_kind with ⟨_, hplanKind, hkind⟩
  generalize hn : 64650 - Text.byteSize (Json.quote goalId) = n
  have hplan := byteSize_fullPlan goalId n
  have hsize := byteSize_fullAssignment assignmentId goalId lease n
  refine ⟨fullPlan goalId n, fullAssignment assignmentId goalId lease n, ?_, rfl, rfl, rfl, ?_⟩
  · refine ⟨fullPlan_check hid n, ?_, List.mem_singleton_self _, rfl, rfl⟩
    apply validateCoreMessageSize_eq_ok.mpr
    unfold maxMessageBytes
    omega
  · refine not_encoded_of_size (by exact hstream) ?_
    show maxMessageBytes < 136 + header.headerSize +
      Text.byteSize (Json.quote MessageType.assignment.value) +
      Text.byteSize (fullAssignment assignmentId goalId lease n).payload.dumps
    unfold maxMessageBytes
    omega

/-- In a run whose headers fit, every goal, plan and assignment that is published is encoded
within 64 KiB. Under any other header some goal, or some assignment, that has passed the size
check is not. -/
theorem core_messages_fit (config : Config) :
    (forall p, (machine config).Reaches (KeepsHeaders config) initial p ->
      forall (message : Message) (envelope : Envelope),
        (message, envelope) ∈ p.shared.published -> message.core = true ->
          exists text, envelope.encode = .ok text) ∧
    forall (goalId : String) (header : Envelope), identifier goalId "goal_id" = .ok () ->
      header.stream = .operational ->
      (430 < header.headerSize ->
        exists goal : SharedGoal, goal.check = .ok () ∧ goal.goalId = goalId ∧
          (Message.goal goal).Measured ∧
          forall text, { header with messageType := .goal, payload := goal.payload }.encode ≠
            .ok text) ∧
      forall (assignmentId : String) (lease : Option String), 457 < header.headerSize +
          Text.byteSize (Json.quote assignmentId) +
          Text.byteSize (Json.optional Json.str lease).dumps ->
        exists plan a, Measures plan a ∧ a.goalId = goalId ∧ a.assignmentId = assignmentId ∧
          a.authorityLeaseId = lease ∧
          forall text, { header with messageType := .assignment, payload := a.payload }.encode ≠
            .ok text := by
  constructor
  · intro p hp
    exact (publishable_reached hp).published
  · intro goalId header hid hstream
    exact ⟨goal_beyond hid hstream, fun _ _ => assignment_beyond hid hstream⟩

/-!
## A small mission and a full one

In the full mission the coordinator, the goal and the lease have names of 128 letters, and
the plan is as large as the size check allows.
-/

instance (envelope : Envelope) (message : Message) : Decidable (message.HeaderFits envelope) :=
  match message with
  | .goal _ => inferInstanceAs (Decidable (_ ≤ 430))
  | .plan _ => inferInstanceAs (Decidable (_ ≤ 430))
  | .assignment _ => inferInstanceAs (Decidable (_ ≤ 457))
  | .assignmentQuery _ _ => isTrue trivial
  | .cancellationRequest _ _ _ => isTrue trivial

def keepsHeaders (config : Config) (p : Pool Memory Task) : Action Reading Entry -> Bool
  | .run i r =>
      match p.nextTask i with
      | some (.handOver message nowMs correlationId sequence) =>
          decide (message.HeaderFits
            (sealMessage config p.shared message nowMs correlationId sequence (r.uuid4 0)))
      | _ => true
  | _ => true

theorem meets_of_keepsHeaders (config : Config) (p : Pool Memory Task)
    (a : Action Reading Entry) (h : keepsHeaders config p a = true) :
    Machine.Meets (KeepsHeaders config) p a := by
  cases a with
  | run i r =>
      intro t others hnext _
      cases t with
      | handOver message nowMs correlationId sequence =>
          simp only [keepsHeaders, hnext, decide_eq_true_eq] at h
          exact h
      | _ => trivial
  | _ => trivial

theorem patrol_messages_fit :
    exists p : Pool Memory Task,
      p.shared.published.map (fun sent => sent.1.core) = [true, true, true, true] ∧
      forall (message : Message) (envelope : Envelope),
        (message, envelope) ∈ p.shared.published -> message.core = true ->
          exists text, envelope.encode = .ok text := by
  have hcount : ((machine patrolConfig).runWhere (keepsHeaders patrolConfig)
      (patrolSubmitted []) (patrolMoves 0 12)).map
        (fun p => p.shared.published.map (fun sent => sent.1.core)) =
      some [true, true, true, true] := by
    decide +kernel
  rcases Option.map_eq_some_iff.mp hcount with ⟨p, hrun, hpublished⟩
  have hsubmitted : (machine patrolConfig).Reaches (KeepsHeaders patrolConfig) initial
      (patrolSubmitted []) := patrolSubmitted_reached (Or.inl rfl) trivial trivial
  exact ⟨p, hpublished, (core_messages_fit patrolConfig).1 p
    (hsubmitted.trans (Machine.runWhere_reaches (meets_of_keepsHeaders patrolConfig) hrun))⟩

def longName : String :=
  "nnnnnnnnnnnnnnnnnnnnnnnnnnnnnnnnnnnnnnnnnnnnnnnnnnnnnnnnnnnnnnnn" ++
    "nnnnnnnnnnnnnnnnnnnnnnnnnnnnnnnnnnnnnnnnnnnnnnnnnnnnnnnnnnnnnnnn"

def sampleUuid : String := "00000000-0000-4000-8000-000000000000"

def fullConfig : Config :=
  { patrolConfig with
    coordinatorId := longName
    authorityLeaseIds := [("r1", longName)]
    requireAuthority := true
    sessionId := fun _ => sampleUuid }

def longGoal : SharedGoal :=
  { patrolGoal with goalId := longName }

def fullReading : Reading where
  uuid4 _ := sampleUuid
  registry := [patrolPeer "r1"]
  proposal := some (fullPlan longName 64520)

theorem longName_eq : longName = String.ofList (List.replicate 128 'n') := by
  decide +kernel

theorem byteSize_longName : Text.byteSize (Json.quote longName) = 130 := by
  rw [longName_eq]
  exact byteSize_quote_replicate (by decide) (by decide) 128

theorem byteSize_longGoal : Text.byteSize longGoal.payload.dumps ≤ 60000 := by
  have hvalues : Text.byteSize (Json.quote patrolGoal.description) = 17 ∧
      Text.byteSize (Json.strings patrolGoal.participantIds).dumps = 11 ∧
      Text.byteSize patrolGoal.constraints.dumps = 2 ∧
      Text.byteSize (Json.optional Json.int patrolGoal.deadlineMs).dumps = 4 := by
    decide
  rcases hvalues with ⟨h1, h2, h3, h4⟩
  rw [byteSize_goalPayload]
  simp only [longGoal, byteSize_longName, h1, h2, h3, h4]
  decide

theorem fullPlan_measured :
    validateCoreMessageSize .plan (fullPlan longName 64520).payload = .ok () := by
  have hkind := byteSize_quote_kind.2.1
  have hsize := byteSize_fullPlan longName 64520
  rw [byteSize_longName] at hsize
  apply validateCoreMessageSize_eq_ok.mpr
  unfold maxMessageBytes
  omega

theorem identifier_longName (fieldName : String) : identifier longName fieldName = .ok () := by
  have hbad : ¬ (longName.toList.all isSpace || maxIdBytes < Text.byteSize longName.toList) := by
    rw [longName_eq, String.toList_ofList]
    decide +kernel
  unfold identifier requiredText
  rw [if_neg hbad]

theorem fullAssignment_check :
    (fullAssignment sampleUuid longName (some longName) 64520).check = .ok () := by
  have hstep : (fullStep 64520).check = .ok () := patrolStep_check
  have huuid : identifier sampleUuid "assignment_id" = .ok () := by
    rfl
  unfold Assignment.check
  simp only [fullAssignment, hstep, huuid, identifier_longName]
  rfl

set_option maxRecDepth 8000 in
theorem prepare_full : prepare fullConfig longGoal 0 fullReading =
    .ok (fullPlan longName 64520,
      [fullAssignment sampleUuid longName (some longName) 64520]) := by
  have hassignments : (fullPlan longName 64520).steps.mapIdx (fun i step =>
      newAssignment fullConfig longGoal (fullPlan longName 64520) (fullReading.uuid4 i) step) =
        [fullAssignment sampleUuid longName (some longName) 64520] := rfl
  have hchecked : checkAll Assignment.check
      [fullAssignment sampleUuid longName (some longName) 64520] = .ok () := by
    unfold checkAll
    rw [fullAssignment_check]
    rfl
  unfold prepare validatePlan
  rw [validateCoreMessageSize_ok byteSize_longGoal]
  simp only [fullReading] at hassignments ⊢
  rw [fullPlan_measured, fullPlan_check (identifier_longName _), hassignments, hchecked]
  rfl

def fullSubmitted : Pool Memory Task :=
  withThread initial (created longGoal (fullPlan longName 64520)
    [fullAssignment sampleUuid longName (some longName) 64520] 0)

theorem submit_reached {config : Config} {goal : SharedGoal} {nowMs : Int} {r : Reading}
    {plan : Plan} {assignments : List Assignment}
    (hprepare : prepare config goal nowMs r = .ok (plan, assignments)) :
    (machine config).Reaches .always initial
      (withThread initial (created goal plan assignments nowMs)) := by
  have hexec : exec config initial.shared (.submit goal nowMs) r =
      (initial.shared, .next (created goal plan assignments nowMs)) := by
    rw [exec, hprepare]
    rfl
  have hstep : (machine config).step (withThread initial [.submit goal nowMs]) (.run 0 r) =
      some (withThread initial (created goal plan assignments nowMs)) :=
    step_withThread hexec
  exact .head ⟨.spawn (.submit goal nowMs), trivial, rfl⟩
    (.single ⟨_, Machine.meets_always _ _, hstep⟩)

theorem fullSubmitted_reached : (machine fullConfig).Reaches .always initial fullSubmitted :=
  submit_reached prepare_full

def fullPublished : Pool Memory Task :=
  ((machine fullConfig).run fullSubmitted (List.replicate 9 (.run 0 fullReading))).getD initial

theorem fullPublished_reached : (machine fullConfig).Reaches .always initial fullPublished := by
  unfold fullPublished
  cases hrun : (machine fullConfig).run fullSubmitted
      (List.replicate 9 (.run 0 fullReading)) with
  | none => exact .refl
  | some p => exact fullSubmitted_reached.trans (Machine.run_reaches hrun)

def fullEnvelope : Envelope :=
  sealMessage fullConfig .initial
    (.assignment (fullAssignment sampleUuid longName (some longName) 64520)) 0 longName 3 sampleUuid

set_option maxRecDepth 8000 in
/-- The step is marked as dispatched, and its assignment cannot be encoded. -/
theorem full_assignment_not_encoded :
    exists p a envelope, (machine fullConfig).Reaches .always initial p ∧
      (.assignment a, envelope) ∈ p.shared.published ∧
      p.shared.store.statusForAssignment a.assignmentId = some .dispatched ∧
      forall text, envelope.encode ≠ .ok text := by
  have hpublished : fullPublished.shared.published.getLast? =
      some (.assignment (fullAssignment sampleUuid longName (some longName) 64520),
        fullEnvelope) := rfl
  refine ⟨fullPublished, _, fullEnvelope, fullPublished_reached,
    List.mem_of_getLast? hpublished, rfl, ?_⟩
  have hnumbers : Text.byteSize (Json.int 3).dumps = 1 ∧ Text.byteSize (Json.int 0).dumps = 1 := by
    decide
  have huuid : Text.byteSize (Json.quote sampleUuid) = 38 := by decide
  have hlease : Text.byteSize (Json.optional Json.str (some longName)).dumps = 130 :=
    byteSize_longName
  have hkind : Text.byteSize (Json.quote fullEnvelope.messageType.value) = 12 :=
    byteSize_quote_kind.2.2
  have hheader : fullEnvelope.headerSize = 338 := by
    show Text.byteSize (Json.quote sampleUuid) + Text.byteSize (Json.quote longName) +
      Text.byteSize (Json.quote sampleUuid) + Text.byteSize (Json.int 3).dumps +
      Text.byteSize (Json.int 0).dumps + Text.byteSize (Json.quote longName) = 338
    rw [huuid, byteSize_longName, hnumbers.1, hnumbers.2]
  have hpayload : fullEnvelope.payload =
      (fullAssignment sampleUuid longName (some longName) 64520).payload := rfl
  apply not_encoded_of_size rfl
  rw [hheader, hkind, hpayload, byteSize_fullAssignment, huuid, byteSize_longName, hlease]
  decide

end Ump.Coordinator
