import Ump.Foundation.Thread
import Ump.Coordinator.Successors

/-!
# What resolves an unknown step

## Evidence

A restart or a refused cancellation leaves a step unknown. The evidence that settles it
is a journal snapshot from the assigned robot with the fingerprint of the stored
assignment. The handler of outcomes reconciles an unknown step too, without any
fingerprint, so the rule holds in the runs in which no bare outcome gets that far.
-/

namespace Ump.Coordinator

open Foundation CoordinatorStore

/-- A snapshot from the assigned robot, with the fingerprint of the stored assignment and
a status that agrees with its outcome. -/
structure Evidence (config : Config) (row : StepRow) (envelope : Envelope)
    (status : AssignmentStatus) : Prop where
  messageType : envelope.messageType = .assignmentSnapshot
  sourceId : envelope.sourceId = row.assignment.step.assignedRobotId
  assignmentId : envelope.payload.item "assignment_id" = .ok (.str row.assignmentId)
  fingerprint : envelope.payload.item "fingerprint" =
    .ok (.str (config.sha256 row.assignment.canonical))
  reported : envelope.payload.item "status" = .ok (.str status.value)
  outcome : exists data, envelope.payload.get "outcome" .null = .ok data ∧
    data.item "status" = .ok (.str status.value)

/-- Every unknown row that the move settles is settled by a thread that handles evidence
which the coordinator has received. -/
def ResolvedByEvidence (config : Config) (p : Pool Memory Task)
    (a : Action Reading Entry) (q : Pool Memory Task) : Prop :=
  forall row row', row ∈ p.shared.store.runSteps.rows -> row.status = .unknown ->
    row' ∈ q.shared.store.runSteps.rows -> row'.assignmentId = row.assignmentId ->
    row'.status.settled = true ->
    exists i r status succeeded nowMs envelope, a = .run i r ∧
      p.nextTask i = some (.reconcileSnapshot row.assignmentId status succeeded nowMs) ∧
      reconciledStep? status = some row'.status ∧
      (machine config).Entered .always initial (.receive envelope) p ∧
      Evidence config row envelope status

/-- No bare outcome with a known status reaches an unknown step. -/
def NoBareOutcome : Condition Memory Task Reading Entry
  | m, _, .exec (.reconcileOutcome assignmentId status nowMs) _ =>
      m.store.statusForAssignment assignmentId = some .unknown ->
        reconciledStep? status ≠ none -> bindInteger nowMs ≠ .ok ()
  | _, _, _ => True

/-!
## What a snapshot has shown
-/

theorem text_eq_ok {value : Json} {s : String} (h : value.text = .ok s) : value = .str s := by
  cases value with
  | str text =>
      cases h
      rfl
  | _ => cases h

theorem item_text_eq_ok {data : Json} {name s : String}
    (h : (data.item name >>= Json.text) = .ok s) : data.item name = .ok (.str s) := by
  rcases bind_eq_ok.mp h with ⟨value, hitem, htext⟩
  rw [hitem, text_eq_ok htext]

theorem assignmentStatus_eq_ok {value : Json} {status : AssignmentStatus}
    (h : assignmentStatus value = .ok status) : value = .str status.value := by
  cases value with
  | str text =>
      unfold assignmentStatus at h
      cases hstatus : AssignmentStatus.ofValue? text with
      | none => simp [hstatus] at h
      | some found =>
          simp only [hstatus, Except.ok.injEq] at h
          subst h
          have hvalue := List.find?_some hstatus
          rw [beq_iff_eq.mp hvalue]
  | _ => cases h

theorem item_status_eq_ok {data : Json} {name : String} {status : AssignmentStatus}
    (h : (data.item name >>= assignmentStatus) = .ok status) :
    data.item name = .ok (.str status.value) := by
  rcases bind_eq_ok.mp h with ⟨value, hitem, hstatus⟩
  rw [hitem, assignmentStatus_eq_ok hstatus]

theorem snapshotOutcome_eq_ok {data : Json} {outcome : Outcome}
    (h : snapshotOutcome data = .ok outcome) :
    data.item "status" = .ok (.str outcome.status.value) := by
  unfold snapshotOutcome at h
  rcases bind_eq_ok.mp h with ⟨_, _, h⟩
  rcases bind_eq_ok.mp h with ⟨_, _, h⟩
  rcases bind_eq_ok.mp h with ⟨_, _, h⟩
  rcases bind_eq_ok.mp h with ⟨_, _, h⟩
  rcases bind_eq_ok.mp h with ⟨status, hstatus, h⟩
  rcases bind_eq_ok.mp h with ⟨_, _, h⟩
  have hresolved : outcome.status = status := (Outcome.make_eq_ok h).2.2.2.2.2
  rw [hresolved]
  exact item_status_eq_ok hstatus

theorem snapshotStatus_eq_ok {config : Config} {s : CoordinatorStore} {assignmentId : String}
    {data : Json} {outcome : Outcome} {status : AssignmentStatus}
    (h : snapshotStatus config s assignmentId data outcome = .ok status) :
    outcome.status = status ∧ data.item "status" = .ok (.str status.value) ∧
      exists assignment, s.assignment assignmentId = some assignment ∧
        data.item "fingerprint" = .ok (.str (config.sha256 assignment.canonical)) := by
  unfold snapshotStatus at h
  rcases bind_eq_ok.mp h with ⟨_, _, h⟩
  rcases bind_eq_ok.mp h with ⟨found, hfound, h⟩
  rcases bind_eq_ok.mp h with ⟨_, _, h⟩
  rcases bind_eq_ok.mp h with ⟨fingerprint, hfingerprint, h⟩
  rcases bind_eq_ok.mp h with ⟨_, _, h⟩
  rcases bind_eq_ok.mp h with ⟨_, _, h⟩
  rcases bind_eq_ok.mp h with ⟨_, _, h⟩
  rcases bind_eq_ok.mp h with ⟨_, _, h⟩
  rcases bind_eq_ok.mp h with ⟨_, _, h⟩
  rcases bind_eq_ok.mp h with ⟨_, _, h⟩
  rcases bind_eq_ok.mp h with ⟨_, hagrees, h⟩
  cases hassignment : s.assignment assignmentId with
  | none =>
      rw [hassignment] at h
      cases h
  | some assignment =>
      rw [hassignment] at h
      rcases bind_eq_ok.mp h with ⟨_, hsame, h⟩
      cases h
      have hstatus : outcome.status = status := by simpa using refuseWhen_eq_ok hagrees
      have hdigest : fingerprint = config.sha256 assignment.canonical := by
        simpa using refuseWhen_eq_ok hsame
      rw [hdigest] at hfingerprint
      exact ⟨hstatus, item_status_eq_ok hfound, assignment, rfl, item_text_eq_ok hfingerprint⟩

theorem assignment_eq_some {s : CoordinatorStore} {assignmentId : String}
    {assignment : Assignment} (h : s.assignment assignmentId = some assignment) :
    exists row, row ∈ s.runSteps.rows ∧ row.assignmentId = assignmentId ∧
      row.assignment = assignment := by
  rcases Option.map_eq_some_iff.mp h with ⟨row, hstep, rfl⟩
  rcases step?_eq_some hstep with ⟨hrow, hid⟩
  exact ⟨row, hrow, hid, rfl⟩

theorem addressed_eq_ok {s : CoordinatorStore} {envelope : Envelope} {kind assignmentId : String}
    (h : addressed s envelope kind = .ok (some assignmentId)) :
    envelope.payload.item "assignment_id" = .ok (.str assignmentId) ∧
      exists row, row ∈ s.runSteps.rows ∧ row.assignmentId = assignmentId ∧
        envelope.sourceId = row.assignment.step.assignedRobotId := by
  unfold addressed at h
  rcases bind_eq_ok.mp h with ⟨value, hitem, h⟩
  rcases bind_eq_ok.mp h with ⟨text, htext, h⟩
  cases hrobot : s.robotForAssignment text with
  | none =>
      simp only [hrobot] at h
      cases h
  | some robotId =>
      simp only [hrobot] at h
      rcases bind_eq_ok.mp h with ⟨_, _, h⟩
      rcases bind_eq_ok.mp h with ⟨_, _, h⟩
      rcases bind_eq_ok.mp h with ⟨_, hsource, h⟩
      cases h
      rcases Option.map_eq_some_iff.mp hrobot with ⟨assignment, hassignment, hassigned⟩
      rcases assignment_eq_some hassignment with ⟨row, hrow, hid, rfl⟩
      have hsame : envelope.sourceId = robotId := by simpa using refuseWhen_eq_ok hsource
      exact ⟨by rw [hitem, text_eq_ok htext], row, hrow, hid, hsame.trans hassigned.symm⟩

theorem SnapshotChecked.evidence {config : Config} {s : CoordinatorStore} {envelope : Envelope}
    {assignmentId : String} {status : AssignmentStatus} {outcomeData : Json} {outcome : Outcome}
    (h : SnapshotChecked config s envelope assignmentId status outcomeData outcome)
    (hkind : envelope.messageType = .assignmentSnapshot) {row : StepRow}
    (hid : row.assignmentId = assignmentId)
    (hrow : forall old, old ∈ s.runSteps.rows -> old.assignmentId = assignmentId ->
      row.assignment = old.assignment) : Evidence config row envelope status := by
  rcases addressed_eq_ok h.addressed with ⟨hitem, old, hold, holdId, hsource⟩
  rcases snapshotStatus_eq_ok h.agreed with ⟨hagrees, hstatus, assignment, hassignment, hdigest⟩
  rcases assignment_eq_some hassignment with ⟨other, hother, hotherId, rfl⟩
  refine ⟨hkind, ?_, ?_, ?_, hstatus, outcomeData, h.member, ?_⟩
  · rw [hrow old hold holdId, hsource]
  · rw [hid, hitem]
  · rw [hrow other hother hotherId, hdigest]
  · rw [← hagrees]
    exact snapshotOutcome_eq_ok h.built

/-!
## Where a reconciliation comes from
-/

theorem assignmentSnapshot_received {config : Config} {p : Pool Memory Task}
    {envelope : Envelope} (hp : (machine config).Reaches .always initial p)
    (h : .assignmentSnapshot envelope ∈ p.tasks) :
    envelope.messageType = .assignmentSnapshot ∧
      (machine config).Entered .always initial (.receive envelope) p := by
  rcases hp.origin h with hnone | ⟨e, hstart, hentered⟩ |
    ⟨q, q', i, r, t, _, _, _, hleft, _⟩
  · cases Multiset.notMem_zero _ hnone
  · cases start_cases hstart with
    | assignmentSnapshot hkind => exact ⟨hkind, hentered⟩
  · cases exec_succeeds config q.shared r hleft <;>
      rename_i ht <;> simp [created, announce] at ht

theorem Entered.extend {config : Config} {C : Condition Memory Task Reading Entry}
    {p q q' : Pool Memory Task} {e : Entry} (h : (machine config).Entered C p e q)
    (hq : (machine config).Reaches C q q') : (machine config).Entered C p e q' := by
  rcases h with ⟨a, b, hab, hspawn, hrest⟩
  exact ⟨a, b, hab, hspawn, hrest.trans hq⟩

theorem reconcileSnapshot_evidence {config : Config} {p : Pool Memory Task}
    (hp : (machine config).Reaches .always initial p) {assignmentId : String}
    {status : AssignmentStatus} {succeeded : Json} {nowMs : Int}
    (h : .reconcileSnapshot assignmentId status succeeded nowMs ∈ p.tasks) {row : StepRow}
    (hrow : row ∈ p.shared.store.runSteps.rows) (hid : row.assignmentId = assignmentId) :
    exists envelope, (machine config).Entered .always initial (.receive envelope) p ∧
      Evidence config row envelope status := by
  rcases hp.origin h with hnone | ⟨e, hstart, _⟩ |
    ⟨q, q', i, r, t, hq, hnext, hrun, hleft, hrest⟩
  · cases Multiset.notMem_zero _ hnone
  · cases start_cases hstart
  · have hsucceeds := exec_succeeds config q.shared r hleft
    cases hsucceeds with
    | submitted hprepare ht => simp [created, announce] at ht
    | announcesPrepared hrun ht => simp [announce] at ht
    | replanned hprepare hsupersedes ht => simp [created, announce] at ht
    | @evidenced envelope _ _ outcomeData _ outcome hchecked =>
        have hstep : (machine config).Reaches .always q p :=
          .head ⟨.run i r, Machine.meets_always q _, hrun⟩ hrest
        rcases assignmentSnapshot_received hq (Machine.nextTask_mem hnext) with
          ⟨hkind, hentered⟩
        refine ⟨envelope, Entered.extend hentered hstep, hchecked.evidence hkind hid ?_⟩
        intro old hold holdId
        rcases reaches_row hstep old hold with ⟨kept, hkept, _⟩
        rw [eq_of_assignmentId hrow hkept (hid.trans holdId.symm)]

/-!
## What can settle an unknown row
-/

theorem CoordinatorStore.Committed.settled_by {s s' : CoordinatorStore} {operation : Operation}
    (h : Committed s operation s') {row row' : StepRow} (hrow : row ∈ s.runSteps.rows)
    (hopen : row.status.settled = false) (hrow' : row' ∈ s'.runSteps.rows)
    (hid : row'.assignmentId = row.assignmentId) (hsettled : row'.status.settled = true) :
    operation.target? = some (row.assignmentId, row'.status) ∨
      exists planId nowMs, operation = .requestCancellation planId nowMs ∧
        row.status = .pending ∧ row'.status = .cancelled := by
  have hsame : row ∈ s'.runSteps.rows -> False := by
    intro hmem
    rw [eq_of_assignmentId hrow' hmem hid, hopen] at hsettled
    cases hsettled
  -- the row after the operation has the status that the operation gives the old one
  have hstatus : forall {f : StepRow -> StepStatus}, s'.runSteps.rows =
      s.runSteps.rows.map (fun row => { row with status := f row }) -> row'.status = f row := by
    intro f hsteps
    have hmem : { row with status := f row } ∈ s'.runSteps.rows := by
      rw [hsteps]
      exact List.mem_map.mpr ⟨row, hrow, rfl⟩
    rw [eq_of_assignmentId hrow' hmem hid]
  cases h with
  | unchanged => exact (hsame hrow).elim
  | created hnew hruns hsteps =>
      refine (hsame ?_).elim
      rw [hsteps]
      exact List.mem_append_left _ hrow
  | marked assignmentId nowMs =>
      rw [hstatus (rows_setSteps _ _ _)] at hsettled
      split_ifs at hsettled
      · cases hsettled
      · rw [hopen] at hsettled
        cases hsettled
  | @written _ other target hother htarget hmoves =>
      have hwritten := hstatus (rows_setSteps _ _ _)
      by_cases hone : row.assignmentId = other.assignmentId
      · left
        rw [htarget, hone]
        simp [hwritten, hone]
      · rw [hwritten] at hsettled
        simp [hone, hopen] at hsettled
  | refreshed operation planId => exact (hsame hrow).elim
  | cancelled planId nowMs =>
      have hcancelled := hstatus (rows_cancelled s planId)
      rw [hcancelled] at hsettled
      unfold cancelledStatus at hcancelled hsettled
      split_ifs at hcancelled hsettled with hpending
      · simp only [Bool.and_eq_true, beq_iff_eq] at hpending
        exact Or.inr ⟨planId, nowMs, rfl, hpending.2, hcancelled⟩
      · cases hsettled
      · rw [hopen] at hsettled
        cases hsettled
  | recovered =>
      rw [hstatus (rows_setSteps _ _ _)] at hsettled
      split_ifs at hsettled
      · cases hsettled
      · rw [hopen] at hsettled
        cases hsettled

theorem CoordinatorStore.Committed.settles {s s' : CoordinatorStore} {operation : Operation}
    (h : Committed s operation s') {row row' : StepRow} (hrow : row ∈ s.runSteps.rows)
    (hunknown : row.status = .unknown) (hrow' : row' ∈ s'.runSteps.rows)
    (hid : row'.assignmentId = row.assignmentId) (hsettled : row'.status.settled = true) :
    operation.target? = some (row.assignmentId, row'.status) := by
  rcases h.settled_by hrow (by rw [hunknown]; rfl) hrow' hid hsettled with
    htarget | ⟨planId, nowMs, _, hpending, _⟩
  · exact htarget
  · rw [hunknown] at hpending
    cases hpending

theorem transition_terminal {s : CoordinatorStore} {row : StepRow} {target : StepStatus}
    {nowMs : Int} {fromAck : Bool} {r : Option String × CoordinatorStore}
    (hrow : row ∈ s.runSteps.rows) (hterminal : row.status.terminal = true)
    (h : s.transition row.assignmentId target nowMs fromAck = .ok r) :
    r.2.runSteps = s.runSteps := by
  unfold transition at h
  rw [step?_of_mem hrow] at h
  simp only [if_pos hterminal] at h
  split_ifs at h
  · cases h
    rfl
  · rcases bind_eq_ok.mp h with ⟨s', hrefresh, hr⟩
    cases hr
    rw [refreshRun_eq_ok hrefresh]
    rfl

theorem reconciled_of_settled {s s' : CoordinatorStore} {operation : Operation}
    (h : s.commit operation = .ok s') {row row' : StepRow} (hrow : row ∈ s.runSteps.rows)
    (hunknown : row.status = .unknown) (hrow' : row' ∈ s'.runSteps.rows)
    (hid : row'.assignmentId = row.assignmentId) (hsettled : row'.status.settled = true) :
    exists status nowMs, operation = .reconcileOutcome row.assignmentId status nowMs ∧
      reconciledStep? status = some row'.status ∧ bindInteger nowMs = .ok () := by
  have htarget := (commit_committed h).settles hrow hunknown hrow' hid hsettled
  have hterminal : row.status.terminal = true := by
    rw [hunknown]
    rfl
  have hsame : s'.runSteps = s.runSteps -> False := by
    intro hsteps
    rw [hsteps] at hrow'
    rw [eq_of_assignmentId hrow' hrow hid, hunknown] at hsettled
    cases hsettled
  cases operation with
  | recordCancellationAcknowledgement assignmentId accepted nowMs =>
      cases accepted with
      | true => cases htarget
      | false =>
          simp only [Operation.target?, Option.some.injEq, Prod.mk.injEq] at htarget
          rw [← htarget.2] at hsettled
          cases hsettled
  | recordAcknowledgement assignmentId status nowMs =>
      rcases Option.map_eq_some_iff.mp htarget with ⟨target, hstatus, hpair⟩
      simp only [Prod.mk.injEq] at hpair
      rcases map_eq_ok h with ⟨r, hr, rfl⟩
      unfold recordAcknowledgement at hr
      rw [hstatus, hpair.1] at hr
      exact (hsame (transition_terminal hrow hterminal hr)).elim
  | recordOutcome assignmentId status nowMs =>
      rcases Option.map_eq_some_iff.mp htarget with ⟨target, hstatus, hpair⟩
      simp only [Prod.mk.injEq] at hpair
      rcases map_eq_ok h with ⟨r, hr, rfl⟩
      unfold recordOutcome at hr
      rw [hstatus, hpair.1] at hr
      exact (hsame (transition_terminal hrow hterminal hr)).elim
  | reconcileOutcome assignmentId status nowMs =>
      rcases Option.map_eq_some_iff.mp htarget with ⟨target, hstatus, hpair⟩
      simp only [Prod.mk.injEq] at hpair
      rcases hpair with ⟨rfl, rfl⟩
      refine ⟨status, nowMs, rfl, hstatus, ?_⟩
      rcases map_eq_ok h with ⟨r, hr, rfl⟩
      unfold reconcileOutcome at hr
      rw [hstatus, step?_of_mem hrow] at hr
      simp only [hunknown, ne_eq, not_true_eq_false, if_false] at hr
      rcases bind_eq_ok.mp hr with ⟨_, hrefresh, _⟩
      rcases bind_eq_ok.mp hrefresh with ⟨_, hbind, _⟩
      exact hbind
  | _ => cases htarget

theorem reconciling_task {t : Task} {assignmentId : String} {status : AssignmentStatus}
    {nowMs : Int}
    (h : t.operation? = some (.reconcileOutcome assignmentId status nowMs)) :
    t = .reconcileOutcome assignmentId status nowMs ∨
      exists succeeded, t = .reconcileSnapshot assignmentId status succeeded nowMs := by
  cases t with
  | reconcileOutcome _ _ _ =>
      cases h
      exact Or.inl rfl
  | reconcileSnapshot _ _ succeeded _ =>
      cases h
      exact Or.inr ⟨succeeded, rfl⟩
  | _ => cases h

theorem settling_task {m : Memory} {t : Task} {result : Memory × Flow Task}
    (h : Effect m t result) {row row' : StepRow} (hrow : row ∈ m.store.runSteps.rows)
    (hunknown : row.status = .unknown) (hrow' : row' ∈ result.1.store.runSteps.rows)
    (hid : row'.assignmentId = row.assignmentId) (hsettled : row'.status.settled = true) :
    exists status nowMs, t.operation? = some (.reconcileOutcome row.assignmentId status nowMs) ∧
      reconciledStep? status = some row'.status ∧ bindInteger nowMs = .ok () := by
  have hsame : result.1.store = m.store -> False := by
    intro hstore
    rw [hstore] at hrow'
    rw [eq_of_assignmentId hrow' hrow hid, hunknown] at hsettled
    cases hsettled
  cases h with
  | quiet hstore _ _ => exact (hsame hstore).elim
  | @committed _ _ operation hoperation hstore _ _ =>
      unfold CoordinatorStore.apply at hstore
      cases hcommit : m.store.commit operation with
      | error e =>
          rw [hcommit] at hstore
          exact (hsame hstore).elim
      | ok s' =>
          rw [hcommit] at hstore
          rw [hstore] at hrow'
          rcases reconciled_of_settled hcommit hrow hunknown hrow' hid hsettled with
            ⟨status, nowMs, rfl, htarget, hbind⟩
          exact ⟨status, nowMs, hoperation, htarget, hbind⟩
  | listed _ => exact (hsame rfl).elim
  | @marked assignment nowMs _ _ _ _ =>
      have hmarked : Committed m.store (.markDispatched assignment.assignmentId nowMs) _ :=
        .marked assignment.assignmentId nowMs
      have hnone := hmarked.settles hrow hunknown hrow' hid hsettled
      cases hnone
  | advanced _ _ _ => exact (hsame rfl).elim
  | published _ _ _ _ _ _ => exact (hsame rfl).elim

/-- In every run in which no bare outcome with a known status reaches an unknown step,
each step that goes from unknown to a settled status does so on evidence. -/
theorem unknown_resolved_by_evidence (config : Config) (p q : Pool Memory Task)
    (a : Action Reading Entry) (hp : (machine config).Reaches NoBareOutcome initial p)
    (hmeets : Machine.Meets NoBareOutcome p a) (hstep : (machine config).step p a = some q) :
    ResolvedByEvidence config p a q := by
  have hreached : (machine config).Reaches .always initial p :=
    hp.weaken (fun _ _ _ _ => trivial)
  intro row row' hrow hunknown hrow' hid hsettled
  have hchanged : q.shared.store.runSteps = p.shared.store.runSteps -> False := by
    intro hsame
    rw [hsame] at hrow'
    rw [eq_of_assignmentId hrow' hrow hid, hunknown] at hsettled
    cases hsettled
  cases Machine.stepped_of_step hstep with
  | spawned e => exact (hchanged rfl).elim
  | stopped i => exact (hchanged rfl).elim
  | crashed =>
      have hrecovered : Committed p.shared.store (.reopen true) _ := .recovered
      have hnone := hrecovered.settles hrow hunknown hrow' hid hsettled
      cases hnone
  | @ran i t rest r hthread =>
      rcases hmeets.exec hthread with ⟨others, htasks, hcondition⟩
      have hmem : t ∈ p.tasks := by
        rw [htasks]
        exact Multiset.mem_cons_self t others
      rcases settling_task (exec_effect config p.shared t r) hrow hunknown hrow' hid hsettled with
        ⟨status, nowMs, hoperation, htarget, hbind⟩
      rcases reconciling_task hoperation with rfl | ⟨succeeded, rfl⟩
      · have hstatus : p.shared.store.statusForAssignment row.assignmentId = some .unknown := by
          unfold statusForAssignment
          rw [step?_of_mem hrow, ← hunknown]
          rfl
        exact (hcondition hstatus (by simp [htarget]) hbind).elim
      · rcases reconcileSnapshot_evidence hreached hmem hrow rfl with
          ⟨envelope, hentered, hevidence⟩
        exact ⟨i, r, status, succeeded, nowMs, envelope, rfl, Machine.nextTask_of_thread hthread,
          htarget, hentered, hevidence⟩

/-!
## The small mission after a restart

The first run settles the dispatched step on a snapshot, the second one on a bare outcome
of the same robot.
-/

def patrolDigest (text : Text) : String :=
  if text = (patrolAssignment "a" "p" (patrolStep "s1" "r1" [])).canonical then
    "925b9f77b78a89af0ac69b428a04b6c312f85f5058a244e88ed8c2c0c68f1059"
  else
    String.ofList text

def patrolSnapshot : Envelope where
  messageId := "m"
  messageType := .assignmentSnapshot
  sourceId := "r1"
  sessionId := "session"
  sequence := 1
  timestampMs := 0
  payload := .obj [("assignment_id", .str "a"), ("robot_id", .str "r1"),
    ("status", .str "succeeded"), ("description", .str "Recorded"),
    ("fingerprint", .str "925b9f77b78a89af0ac69b428a04b6c312f85f5058a244e88ed8c2c0c68f1059"),
    ("outcome", .obj [("assignment_id", .str "a"), ("robot_id", .str "r1"),
      ("succeeded", .bool true), ("description", .str "Arrived"),
      ("status", .str "succeeded"), ("outputs", .obj [])])]
  correlationId := none
  stream := .operational

def patrolRestarted (envelope : Envelope) (count : Nat) : List (Action Reading Entry) :=
  patrolMoves 0 12 ++ .crash :: .spawn (.receive envelope) :: patrolMoves 0 count

def Task.reconcilesOutcome : Task -> Bool
  | .reconcileOutcome _ _ _ => true
  | _ => false

def noReconcileOutcome (p : Pool Memory Task) : Action Reading Entry -> Bool
  | .run i _ =>
      match p.nextTask i with
      | some t => !t.reconcilesOutcome
      | none => true
  | _ => true

theorem meets_of_noReconcileOutcome (p : Pool Memory Task) (a : Action Reading Entry)
    (h : noReconcileOutcome p a = true) : Machine.Meets NoBareOutcome p a := by
  cases a with
  | run i r =>
      intro t others hnext _
      simp only [noReconcileOutcome, hnext] at h
      cases t with
      | reconcileOutcome _ _ _ => cases h
      | _ => trivial
  | _ => trivial

def patrolStatuses (p : Pool Memory Task) : List (String × StepStatus) :=
  p.shared.store.runSteps.rows.map (fun row => (row.assignmentId, row.status))

theorem mem_patrolStatuses {p : Pool Memory Task} {assignmentId : String} {status : StepStatus}
    (h : (assignmentId, status) ∈ patrolStatuses p) :
    exists row, row ∈ p.shared.store.runSteps.rows ∧ row.assignmentId = assignmentId ∧
      row.status = status := by
  rcases List.mem_map.mp h with ⟨row, hrow, hpair⟩
  rcases Prod.mk.inj hpair with ⟨hid, hstatus⟩
  exact ⟨row, hrow, hid, hstatus⟩

def patrolLastMove (config : Config) (p : Pool Memory Task) :
    Bool × List (String × StepStatus) × Option (List (String × StepStatus)) :=
  (noReconcileOutcome p (.run 0 (patrolReading [])), patrolStatuses p,
    ((machine config).step p (.run 0 (patrolReading []))).map patrolStatuses)

set_option maxRecDepth 8000 in
theorem patrol_resolved_by_evidence :
    exists p q, (machine { patrolConfig with sha256 := patrolDigest }).runWhere
        noReconcileOutcome (patrolSubmitted []) (patrolRestarted patrolSnapshot 1) = some p ∧
      (machine { patrolConfig with sha256 := patrolDigest }).step p (.run 0 (patrolReading [])) =
        some q ∧
      patrolStatuses p = [("a", .unknown), ("b", .unknown)] ∧
      patrolStatuses q = [("a", .succeeded), ("b", .unknown)] ∧
      ResolvedByEvidence { patrolConfig with sha256 := patrolDigest } p
        (.run 0 (patrolReading [])) q := by
  have hviews : ((machine { patrolConfig with sha256 := patrolDigest }).runWhere
      noReconcileOutcome (patrolSubmitted []) (patrolRestarted patrolSnapshot 1)).map
        (patrolLastMove { patrolConfig with sha256 := patrolDigest }) =
      some (true, [("a", .unknown), ("b", .unknown)],
        some [("a", .succeeded), ("b", .unknown)]) := by
    decide +kernel
  rcases Option.map_eq_some_iff.mp hviews with ⟨p, hrun, hviews⟩
  rcases Prod.mk.inj hviews with ⟨htest, hviews⟩
  rcases Prod.mk.inj hviews with ⟨hbefore, hafter⟩
  rcases Option.map_eq_some_iff.mp hafter with ⟨q, hstep, hafter⟩
  have hreached := (patrolSubmitted_reached (Or.inl rfl) trivial trivial).trans
    (Machine.runWhere_reaches meets_of_noReconcileOutcome hrun)
  exact ⟨p, q, hrun, hstep, hbefore, hafter, unknown_resolved_by_evidence _ p q _ hreached
    (meets_of_noReconcileOutcome p _ htest) hstep⟩

/-- A bare outcome settles an unknown step. -/
theorem patrol_resolved_by_bare_outcome :
    exists p q, (machine patrolConfig).Reaches .always initial p ∧
      (machine patrolConfig).step p (.run 0 (patrolReading [])) = some q ∧
      ¬ ResolvedByEvidence patrolConfig p (.run 0 (patrolReading [])) q := by
  have hviews : ((machine patrolConfig).run (patrolSubmitted [])
      (patrolRestarted (patrolOutcome "a" "r1" .succeeded) 2)).map
        (patrolLastMove patrolConfig) =
      some (false, [("a", .unknown), ("b", .unknown)],
        some [("a", .succeeded), ("b", .unknown)]) := by
    decide +kernel
  rcases Option.map_eq_some_iff.mp hviews with ⟨p, hrun, hviews⟩
  rcases Prod.mk.inj hviews with ⟨htest, hviews⟩
  rcases Prod.mk.inj hviews with ⟨hbefore, hafter⟩
  rcases Option.map_eq_some_iff.mp hafter with ⟨q, hstep, hafter⟩
  refine ⟨p, q, (patrolSubmitted_reached (Or.inl rfl) trivial trivial).trans
    (Machine.run_reaches hrun), hstep, ?_⟩
  intro hresolved
  have hold : ("a", StepStatus.unknown) ∈ patrolStatuses p := by
    rw [hbefore]
    simp
  have hnew : ("a", StepStatus.succeeded) ∈ patrolStatuses q := by
    rw [hafter]
    simp
  rcases mem_patrolStatuses hold with ⟨row, hrow, hid, hstatus⟩
  rcases mem_patrolStatuses hnew with ⟨row', hrow', hid', hstatus'⟩
  rcases hresolved row row' hrow hstatus hrow' (hid'.trans hid.symm) (by rw [hstatus']; rfl) with
    ⟨i, r, status, succeeded, nowMs, envelope, haction, hnext, _⟩
  -- the thread that moves reconciles from an outcome
  cases haction
  simp [noReconcileOutcome, hnext, Task.reconcilesOutcome] at htest

end Ump.Coordinator
