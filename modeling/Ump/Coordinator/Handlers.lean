import Ump.Coordinator.Evidence
import Ump.Coordinator.Stranding

/-!
# Handlers that meet their step

## Where a handler raises

A handler reads its message, and later commits to the step what the message says. In
between, and since the robot has sent the message, the step may have gone on: it was
cancelled here, a restart has made it unknown, or another message was first. For a message
of the assigned robot that its handler can read, the commit raises for the pairs of a
message and a step below and for a time that no column holds, and nothing else of the
handler raises.
-/

namespace Ump.Coordinator

open Foundation CoordinatorStore

def Unbound (nowMs : Int) : Prop :=
  bindInteger nowMs ≠ .ok ()

/-- What a reconciliation does not take: an outcome that says `unknown`, or a step that is
not unknown. -/
def Unreconciled (s : CoordinatorStore) (assignmentId : String) (status : AssignmentStatus)
    (nowMs : Int) : Prop :=
  exists row, s.step? assignmentId = some row ∧
    (status = .unknown ∨ row.status ≠ .unknown ∨ Unbound nowMs)

/-- The commit of a message meets a step that it does not fit. -/
def Crosses (s : CoordinatorStore) : Task -> Prop
  | .recordAcknowledgement assignmentId status nowMs =>
      acknowledgedStep? status ≠ none ∧ exists row, s.step? assignmentId = some row ∧
        row.status.terminal = false ∧
        (row.status = .cancellationRequested ∨ Unbound nowMs)
  | .recordOutcome assignmentId status nowMs =>
      exists row, s.step? assignmentId = some row ∧
        ((row.status.terminal = true ∧ outcomeStep? status ≠ some row.status) ∨ Unbound nowMs)
  | .reconcileOutcome assignmentId status nowMs => Unreconciled s assignmentId status nowMs
  | .reconcileSnapshot assignmentId status _ nowMs => Unreconciled s assignmentId status nowMs
  | .recordCancellationAcknowledgement assignmentId _ nowMs =>
      s.step? assignmentId ≠ none ∧ Unbound nowMs
  | _ => False

structure Registered (s : CoordinatorStore) (row : StepRow) : Prop where
  started : exists status, { row with status := status } ∈ s.runSteps.rows ∧ status ≠ .pending
  anchored : exists run, run ∈ s.runs.rows ∧ run.planId = row.planId

structure Names (row : StepRow) (envelope : Envelope) : Prop where
  assignmentId : envelope.payload.item "assignment_id" = .ok (.str row.assignmentId)
  robotId : envelope.payload.get "robot_id" .null = .ok (.str envelope.sourceId)
  sourceId : envelope.sourceId = row.assignment.step.assignedRobotId

/-- The handler of the message reads what it needs, wherever the row is stored. -/
inductive Readable (config : Config) (row : StepRow) (envelope : Envelope) : Prop where
  | acknowledgement {status : AssignmentStatus} (hkind : envelope.messageType = .assignmentAck)
      (hstatus : (envelope.payload.item "status" >>= assignmentStatus) = .ok status)
  | outcome {succeeded : Json} {status : AssignmentStatus}
      (hkind : envelope.messageType = .outcome)
      (hsucceeded : envelope.payload.item "succeeded" = .ok succeeded)
      (hstatus : (envelope.payload.item "status" >>= assignmentStatus) = .ok status)
      (haccepted : status ≠ .accepted)
  | cancellationAcknowledgement {status : CancellationStatus}
      (hkind : envelope.messageType = .cancellationAck)
      (hstatus : (envelope.payload.item "status" >>= cancellationStatus) = .ok status)
  | emptySnapshot (hkind : envelope.messageType = .assignmentSnapshot)
      (hmember : envelope.payload.get "outcome" .null = .ok .null)
  | snapshot {data succeeded : Json} {outcome : Outcome}
      (hkind : envelope.messageType = .assignmentSnapshot)
      (hmember : envelope.payload.get "outcome" .null = .ok data) (hdata : data.isNull = false)
      (hbuilt : snapshotOutcome data = .ok outcome)
      (hagreed : forall s : CoordinatorStore,
        s.assignment row.assignmentId = some row.assignment ->
          snapshotStatus config s row.assignmentId envelope.payload outcome = .ok outcome.status)
      (hsucceeded : data.item "succeeded" = .ok succeeded)

def Passes (s : CoordinatorStore) : Task -> Prop
  | .dispatchReady planId nowMs =>
      (exists run, run ∈ s.runs.rows ∧ run.planId = planId) ∧ bindInteger nowMs = .ok ()
  | .dispatch _ nowMs => bindInteger nowMs = .ok ()
  | .publish _ _ _ => True
  | .handOver _ _ _ _ => True
  | _ => False

/-- The tasks of a thread that handles a message about the row. -/
inductive Handles (row : StepRow) (envelope : Envelope) (s : CoordinatorStore) : Task -> Prop where
  | read {t : Task} (ht : t ∈ start (.receive envelope)) : Handles row envelope s t
  | outcomeStatus {status : AssignmentStatus} (nowMs : Int) (haccepted : status ≠ .accepted) :
      Handles row envelope s (.outcomeStatus row.assignmentId status nowMs)
  | recordOutcome {status : AssignmentStatus} (nowMs : Int) (haccepted : status ≠ .accepted) :
      Handles row envelope s (.recordOutcome row.assignmentId status nowMs)
  | reconcileOutcome {status : AssignmentStatus} (nowMs : Int) (haccepted : status ≠ .accepted) :
      Handles row envelope s (.reconcileOutcome row.assignmentId status nowMs)
  | reconcileSnapshot {status : AssignmentStatus} (succeeded : Json) (nowMs : Int)
      (haccepted : status ≠ .accepted) :
      Handles row envelope s (.reconcileSnapshot row.assignmentId status succeeded nowMs)
  | recordAcknowledgement (status : AssignmentStatus) (nowMs : Int) :
      Handles row envelope s (.recordAcknowledgement row.assignmentId status nowMs)
  | recordCancellationAcknowledgement (accepted : Bool) (nowMs : Int) :
      Handles row envelope s
        (.recordCancellationAcknowledgement row.assignmentId accepted nowMs)
  | pass {t : Task} (ht : Passes s t) : Handles row envelope s t

/-!
## The commits
-/

section

variable {s s' : CoordinatorStore} {row : StepRow} {assignmentId planId : String} {nowMs : Int}

theorem exists_found {P : StepRow -> Prop} (hrow : s.step? assignmentId = some row) :
    (exists other, s.step? assignmentId = some other ∧ P other) <-> P row := by
  constructor
  · rintro ⟨other, hother, h⟩
    cases hrow.symm.trans hother
    exact h
  · exact fun h => ⟨row, hrow, h⟩

theorem bind_raises {x : Except Exn value} {f : value -> Except Exn result}
    (hf : forall v, exists r, f v = .ok r) :
    (exists e, (x >>= f) = .error e) <-> exists e, x = .error e := by
  cases x with
  | error e => exact Iff.intro (fun _ => ⟨e, rfl⟩) (fun _ => ⟨e, rfl⟩)
  | ok v =>
      rcases hf v with ⟨r, hr⟩
      constructor
      · rintro ⟨e, h⟩
        cases hr.symm.trans h
      · rintro ⟨e, h⟩
        cases h

theorem bindInteger_raises : (exists e, bindInteger nowMs = .error e) <-> Unbound nowMs := by
  unfold Unbound
  cases bindInteger nowMs with
  | error e => exact Iff.intro (fun _ h => by cases h) (fun _ => ⟨e, rfl⟩)
  | ok _ =>
      constructor
      · rintro ⟨e, h⟩
        cases h
      · exact fun h => absurd rfl h

theorem refreshRun_raises :
    (exists e, s.refreshRun planId nowMs = .error e) <-> Unbound nowMs :=
  (bind_raises (fun _ => ⟨_, rfl⟩)).trans bindInteger_raises

theorem writeStep_raises (target : StepStatus) :
    (exists e, s.writeStep row target nowMs = .error e) <-> Unbound nowMs :=
  (bind_raises (fun _ => ⟨_, rfl⟩)).trans refreshRun_raises

theorem raises_of_error {x : Except Exn value} {e : Exn} (h : x = .error e) :
    exists e, x = .error e :=
  ⟨e, h⟩

theorem not_raises_of_ok {x : Except Exn value} {v : value} (h : x = .ok v) :
    ¬ exists e, x = .error e := by
  rintro ⟨e, he⟩
  cases h.symm.trans he

theorem StepStatus.completable_of_open {a : StepStatus} (hopen : a.terminal = false)
    (hpending : a ≠ .pending) : a.completable = true := by
  cases a <;> first | rfl | exact absurd rfl hpending | cases hopen

theorem StepStatus.acknowledgeable_of_open {a : StepStatus} (hopen : a.terminal = false)
    (hpending : a ≠ .pending) (hrequested : a ≠ .cancellationRequested) :
    a.acknowledgeable = true := by
  cases a <;> first | rfl | exact absurd rfl hpending | exact absurd rfl hrequested | cases hopen

theorem acknowledgement_raises (hrow : s.step? assignmentId = some row)
    (hpending : row.status ≠ .pending) (target : StepStatus) :
    (exists e, s.transition assignmentId target nowMs true = .error e) <->
      row.status.terminal = false ∧ (row.status = .cancellationRequested ∨ Unbound nowMs) := by
  unfold transition
  rw [hrow]
  dsimp only
  cases hterminal : row.status.terminal with
  | true =>
      rw [if_pos rfl, if_pos rfl]
      exact iff_of_false (not_raises_of_ok rfl) (fun h => by cases h.1)
  | false =>
      rw [if_neg Bool.false_ne_true, if_pos rfl]
      by_cases hrequested : row.status = .cancellationRequested
      · rw [hrequested, if_neg (by decide)]
        exact iff_of_true (raises_of_error rfl) ⟨rfl, Or.inl rfl⟩
      · rw [if_pos (StepStatus.acknowledgeable_of_open hterminal hpending hrequested),
          writeStep_raises]
        simp [hrequested]

theorem completion_raises (hrow : s.step? assignmentId = some row)
    (hpending : row.status ≠ .pending) (target : StepStatus) :
    (exists e, s.transition assignmentId target nowMs false = .error e) <->
      (row.status.terminal = true ∧ row.status ≠ target) ∨ Unbound nowMs := by
  unfold transition
  rw [hrow]
  dsimp only
  cases hterminal : row.status.terminal with
  | true =>
      rw [if_pos rfl, if_neg Bool.false_ne_true]
      by_cases hsame : row.status = target
      · rw [if_neg (not_not_intro hsame)]
        refine (bind_raises (fun _ => ⟨_, rfl⟩)).trans (refreshRun_raises.trans ?_)
        simp [hsame]
      · rw [if_pos hsame]
        exact iff_of_true (raises_of_error rfl) (Or.inl ⟨rfl, hsame⟩)
  | false =>
      rw [if_neg Bool.false_ne_true, if_neg Bool.false_ne_true,
        if_pos (StepStatus.completable_of_open hterminal hpending), writeStep_raises]
      simp

theorem reconcileOutcome_raises (hrow : s.step? assignmentId = some row)
    {status : AssignmentStatus} (haccepted : status ≠ .accepted) :
    (exists e, s.reconcileOutcome assignmentId status nowMs = .error e) <->
      Unreconciled s assignmentId status nowMs := by
  unfold Unreconciled reconcileOutcome
  rw [exists_found hrow]
  cases htarget : reconciledStep? status with
  | none =>
      refine iff_of_true (raises_of_error rfl) (Or.inl ?_)
      cases status <;> first | rfl | exact absurd rfl haccepted | cases htarget
  | some target =>
      have hknown : status ≠ .unknown := by
        rintro rfl
        cases htarget
      rw [hrow]
      dsimp only
      by_cases hunknown : row.status = .unknown
      · rw [if_neg (not_not_intro hunknown), writeStep_raises]
        simp [hknown, hunknown]
      · rw [if_pos hunknown]
        exact iff_of_true (raises_of_error rfl) (Or.inr (Or.inl hunknown))

theorem recordCancellationAcknowledgement_raises (hrow : s.step? assignmentId = some row)
    (accepted : Bool) :
    (exists e, s.recordCancellationAcknowledgement assignmentId accepted nowMs = .error e) <->
      Unbound nowMs := by
  unfold recordCancellationAcknowledgement
  rw [hrow]
  dsimp only
  split_ifs
  · exact writeStep_raises _
  · exact (bind_raises (fun _ => ⟨_, rfl⟩)).trans refreshRun_raises

theorem writeStep_planId {target : StepStatus} {r : Option String × CoordinatorStore}
    (h : s.writeStep row target nowMs = .ok r) : r.1 = some row.planId := by
  rw [writeStep_eq_ok h]

theorem transition_planId {target : StepStatus} {fromAck : Bool}
    {r : Option String × CoordinatorStore} (hrow : s.step? assignmentId = some row)
    (h : s.transition assignmentId target nowMs fromAck = .ok r) : r.1 = some row.planId := by
  unfold transition at h
  rw [hrow] at h
  dsimp only at h
  split_ifs at h
  · cases h
    rfl
  · rcases bind_eq_ok.mp h with ⟨_, _, h⟩
    cases h
    rfl
  · exact writeStep_planId h
  · exact writeStep_planId h

theorem reconcileOutcome_planId {status : AssignmentStatus}
    {r : Option String × CoordinatorStore} (hrow : s.step? assignmentId = some row)
    (h : s.reconcileOutcome assignmentId status nowMs = .ok r) : r.1 = some row.planId := by
  unfold reconcileOutcome at h
  cases htarget : reconciledStep? status with
  | none =>
      rw [htarget] at h
      cases h
  | some target =>
      rw [htarget, hrow] at h
      dsimp only at h
      split_ifs at h
      exact writeStep_planId h

theorem recordOutcome_eq (s : CoordinatorStore) (assignmentId : String) (nowMs : Int)
    {status : AssignmentStatus} (haccepted : status ≠ .accepted) :
    exists target, outcomeStep? status = some target ∧
      s.recordOutcome assignmentId status nowMs =
        s.transition assignmentId target nowMs false := by
  cases status <;> first | exact absurd rfl haccepted | exact ⟨_, rfl, rfl⟩

end

/-!
## The handler's own turns
-/

theorem Registered.evolves {s s' : CoordinatorStore} {row : StepRow} (h : Registered s row)
    (hevolves : Evolves s s') : Registered s' row := by
  rcases h with ⟨⟨status, hrow, hpending⟩, run, hrun, hplan⟩
  rcases hevolves.kept _ hrow with ⟨later, hlater, hmoves⟩
  rcases hevolves.runs run hrun with ⟨_, hkept⟩
  exact ⟨⟨later, hlater, StepStatus.ne_pending_of_moves hpending hmoves⟩, _, hkept, hplan⟩

theorem Registered.found {s : CoordinatorStore} {row : StepRow} (h : Registered s row) :
    exists status, s.step? row.assignmentId = some { row with status := status } ∧
      status ≠ .pending := by
  rcases h.started with ⟨status, hrow, hpending⟩
  exact ⟨status, step?_of_mem hrow, hpending⟩

theorem Passes.evolves {s s' : CoordinatorStore} {t : Task} (h : Passes s t)
    (hevolves : Evolves s s') : Passes s' t := by
  cases t with
  | dispatchReady planId nowMs =>
      rcases h with ⟨⟨run, hrun, hplan⟩, hbound⟩
      rcases hevolves.runs run hrun with ⟨_, hkept⟩
      exact ⟨⟨_, hkept, hplan⟩, hbound⟩
  | _ => exact h

theorem Handles.evolves {row : StepRow} {envelope : Envelope} {s s' : CoordinatorStore}
    {t : Task} (h : Handles row envelope s t) (hevolves : Evolves s s') :
    Handles row envelope s' t := by
  cases h with
  | read ht => exact .read ht
  | outcomeStatus nowMs haccepted => exact .outcomeStatus nowMs haccepted
  | recordOutcome nowMs haccepted => exact .recordOutcome nowMs haccepted
  | reconcileOutcome nowMs haccepted => exact .reconcileOutcome nowMs haccepted
  | reconcileSnapshot succeeded nowMs haccepted =>
      exact .reconcileSnapshot succeeded nowMs haccepted
  | recordAcknowledgement status nowMs => exact .recordAcknowledgement status nowMs
  | recordCancellationAcknowledgement accepted nowMs =>
      exact .recordCancellationAcknowledgement accepted nowMs
  | pass ht => exact .pass (ht.evolves hevolves)

theorem addressed_of_names {s : CoordinatorStore} {row : StepRow} {envelope : Envelope}
    (h : Names row envelope) (hregistered : Registered s row) (kind : String) :
    addressed s envelope kind = .ok (some row.assignmentId) := by
  rcases hregistered.found with ⟨status, hrow, _⟩
  have hrobot : s.robotForAssignment row.assignmentId =
      some row.assignment.step.assignedRobotId := by
    unfold robotForAssignment assignment
    rw [hrow]
    rfl
  unfold addressed
  rw [h.assignmentId]
  simp only [bind, Except.bind, Json.text, hrobot, h.robotId]
  simp [Json.isText, h.sourceId, refuseWhen]

inductive Proceeds (row : StepRow) (envelope : Envelope) (crosses : Prop) :
    Memory × Flow Task -> Prop where
  | raised {m : Memory} (h : crosses) : Proceeds row envelope crosses (m, .raised)
  | next {m : Memory} {tasks : List Task} (h : ¬ crosses)
      (htasks : forall t, t ∈ tasks -> Handles row envelope m.store t) :
      Proceeds row envelope crosses (m, .next tasks)

section

variable {config : Config} {m : Memory} {t : Task} {r : Reading} {row : StepRow}
variable {envelope : Envelope}

theorem Proceeds.one {crosses : Prop} (h : ¬ crosses)
    (ht : Handles row envelope m.store t) :
    Proceeds row envelope crosses (m, .next [t]) := by
  refine .next h ?_
  intro t' ht'
  rw [List.mem_singleton.mp ht']
  exact ht

theorem Proceeds.nothing {crosses : Prop} (h : ¬ crosses) :
    Proceeds row envelope crosses (m, .next []) :=
  .next h (fun _ ht => by cases ht)

theorem Proceeds.recorded {crosses : Prop} {x : Except Exn (Option String × CoordinatorStore)}
    {next : Memory -> Option String -> Memory × Flow Task}
    (hraises : (exists e, x = .error e) <-> crosses)
    (hnext : forall v, x = .ok v -> ¬ crosses ->
      Proceeds row envelope crosses (next { m with store := v.2 } v.1)) :
    Proceeds row envelope crosses (Ump.Coordinator.recorded m x next) := by
  cases x with
  | error e => exact .raised (hraises.mp ⟨e, rfl⟩)
  | ok v =>
      exact hnext v rfl (fun hcrosses => not_raises_of_ok rfl (hraises.mpr hcrosses))

theorem proceeds_of_read (hnames : Names row envelope) (hreadable : Readable config row envelope)
    (hregistered : Registered m.store row) (ht : t ∈ start (.receive envelope)) :
    Proceeds row envelope (Crosses m.store t) (exec config m t r) := by
  cases hreadable with
  | @acknowledgement status hkind hstatus =>
      rw [start, hkind] at ht
      cases List.mem_singleton.mp ht
      rw [exec, addressed_of_names hnames hregistered, attempt]
      dsimp only
      rw [hstatus, attempt]
      exact .one id (.recordAcknowledgement status envelope.timestampMs)
  | outcome hkind hsucceeded hstatus haccepted =>
      rw [start, hkind] at ht
      cases List.mem_singleton.mp ht
      rw [exec, addressed_of_names hnames hregistered, attempt]
      dsimp only
      rw [hsucceeded, attempt, hstatus, attempt]
      exact .one id (.outcomeStatus envelope.timestampMs haccepted)
  | cancellationAcknowledgement hkind hstatus =>
      rw [start, hkind] at ht
      cases List.mem_singleton.mp ht
      rw [exec, addressed_of_names hnames hregistered, attempt]
      dsimp only
      rw [hstatus, attempt]
      exact .one id (.recordCancellationAcknowledgement _ envelope.timestampMs)
  | emptySnapshot hkind hmember =>
      rw [start, hkind] at ht
      cases List.mem_singleton.mp ht
      rw [exec, addressed_of_names hnames hregistered, attempt]
      dsimp only
      rw [hmember, attempt]
      exact .nothing id
  | @snapshot data succeeded outcome hkind hmember hdata hbuilt hagreed hsucceeded =>
      rw [start, hkind] at ht
      cases List.mem_singleton.mp ht
      rcases hregistered.found with ⟨status, hrow, _⟩
      have hassignment : m.store.assignment row.assignmentId = some row.assignment := by
        unfold CoordinatorStore.assignment
        rw [hrow]
        rfl
      rw [exec, addressed_of_names hnames hregistered, attempt]
      dsimp only
      rw [hmember, attempt, hdata, if_neg Bool.false_ne_true, hbuilt, attempt,
        hagreed m.store hassignment, attempt, hsucceeded, attempt]
      exact .one id (.reconcileSnapshot succeeded envelope.timestampMs outcome.notAccepted)

theorem Proceeds.committed {crosses : Prop} {nowMs : Int}
    {x : Except Exn (Option String × CoordinatorStore)}
    {next : Memory -> Option String -> Memory × Flow Task}
    (operation : Operation) (hregistered : Registered m.store row)
    (hcommit : m.store.commit operation = x.map Prod.snd)
    (hraises : (exists e, x = .error e) <-> crosses) (hunbound : Unbound nowMs -> crosses)
    (hplan : forall v, x = .ok v -> v.1 = some row.planId)
    (hnext : forall m' planId, (next m' planId).1.store = m'.store ∧
      (next m' planId).2 = .next (dispatchPlan nowMs planId)) :
    Proceeds row envelope crosses (Ump.Coordinator.recorded m x next) := by
  refine .recorded hraises ?_
  rintro ⟨planId, store⟩ hv hcrossed
  have hbound : bindInteger nowMs = .ok () :=
    not_ne_iff.mp (fun h => hcrossed (hunbound h))
  have hstored : Registered store row := by
    rw [hv] at hcommit
    exact hregistered.evolves (commit_committed hcommit).evolves
  have hsame : planId = some row.planId := hplan _ hv
  rcases hnext { m with store := store } planId with ⟨hkept, hflow⟩
  generalize next { m with store := store } planId = result at hkept hflow ⊢
  rcases result with ⟨after, flow⟩
  cases hflow
  rw [hsame]
  refine .one hcrossed (.pass ⟨?_, hbound⟩)
  show exists run, run ∈ after.store.runs.rows ∧ run.planId = row.planId
  rw [hkept]
  exact hstored.anchored

theorem proceeds_of_recordOutcome {status : AssignmentStatus} {nowMs : Int}
    (hregistered : Registered m.store row) (haccepted : status ≠ .accepted) :
    Proceeds row envelope (Crosses m.store (.recordOutcome row.assignmentId status nowMs))
      (exec config m (.recordOutcome row.assignmentId status nowMs) r) := by
  rcases hregistered.found with ⟨current, hrow, hpending⟩
  rcases recordOutcome_eq m.store row.assignmentId nowMs haccepted with
    ⟨target, htarget, hrecord⟩
  have hcrosses : Crosses m.store (.recordOutcome row.assignmentId status nowMs) <->
      (current.terminal = true ∧ current ≠ target) ∨ Unbound nowMs := by
    have hsame : some target ≠ some current <-> current ≠ target := by
      rw [Ne, Option.some.injEq, eq_comm]
    rw [Crosses, exists_found hrow, htarget, hsame]
  rw [exec]
  refine .committed (.recordOutcome row.assignmentId status nowMs) hregistered rfl
    ?_ (fun h => hcrosses.mpr (Or.inr h)) ?_ (fun _ _ => ⟨rfl, rfl⟩)
  · rw [hrecord, hcrosses]
    exact completion_raises hrow hpending target
  · intro v hv
    have hplan := transition_planId hrow (hrecord ▸ hv)
    exact hplan

theorem proceeds_of_reconcile {status : AssignmentStatus} {nowMs : Int}
    {next : Memory -> Option String -> Memory × Flow Task}
    (hregistered : Registered m.store row) (haccepted : status ≠ .accepted)
    (hnext : forall m' planId, (next m' planId).1.store = m'.store ∧
      (next m' planId).2 = .next (dispatchPlan nowMs planId)) :
    Proceeds row envelope (Unreconciled m.store row.assignmentId status nowMs)
      (Ump.Coordinator.recorded m
        (m.store.reconcileOutcome row.assignmentId status nowMs) next) := by
  rcases hregistered.found with ⟨current, hrow, _⟩
  refine .committed (.reconcileOutcome row.assignmentId status nowMs) hregistered rfl
    (reconcileOutcome_raises hrow haccepted) (fun h => ⟨_, hrow, Or.inr (Or.inr h)⟩) ?_ hnext
  intro v hv
  have hplan := reconcileOutcome_planId hrow hv
  exact hplan

theorem proceeds_of_acknowledgement (hregistered : Registered m.store row)
    (status : AssignmentStatus) (nowMs : Int) :
    Proceeds row envelope (Crosses m.store (.recordAcknowledgement row.assignmentId status nowMs))
      (exec config m (.recordAcknowledgement row.assignmentId status nowMs) r) := by
  rcases hregistered.found with ⟨current, hrow, hpending⟩
  rw [exec]
  refine .recorded ?_ (fun _ _ hcrossed => .nothing hcrossed)
  rw [Crosses, exists_found hrow]
  unfold recordAcknowledgement
  cases htarget : acknowledgedStep? status with
  | none => exact iff_of_false (not_raises_of_ok rfl) (fun h => h.1 rfl)
  | some target =>
      rw [acknowledgement_raises hrow hpending target]
      simp

theorem proceeds_of_cancellationAcknowledgement (hregistered : Registered m.store row)
    (accepted : Bool) (nowMs : Int) :
    Proceeds row envelope
      (Crosses m.store (.recordCancellationAcknowledgement row.assignmentId accepted nowMs))
      (exec config m (.recordCancellationAcknowledgement row.assignmentId accepted nowMs) r) := by
  rcases hregistered.found with ⟨current, hrow, _⟩
  rw [exec]
  refine .recorded ?_ (fun _ _ hcrossed => .nothing hcrossed)
  rw [recordCancellationAcknowledgement_raises hrow, Crosses, hrow]
  simp

theorem proceeds_of_pass (ht : Passes m.store t) :
    Proceeds row envelope (Crosses m.store t) (exec config m t r) := by
  cases t with
  | dispatchReady planId nowMs =>
      rcases ht with ⟨⟨run, hrun, rfl⟩, hbound⟩
      rw [exec]
      unfold readyAssignments
      rw [run?_of_mem hrun]
      dsimp only
      split_ifs
      · refine .next id ?_
        intro t' ht'
        rcases List.mem_map.mp ht' with ⟨assignment, _, rfl⟩
        exact .pass hbound
      · exact .nothing id
  | dispatch assignment nowMs =>
      have hbound : bindInteger nowMs = .ok () := ht
      rw [exec]
      unfold markDispatched
      rw [hbound]
      refine .next id ?_
      intro t' ht'
      split_ifs at ht'
      · rw [List.mem_singleton.mp ht']
        exact .pass trivial
      · cases ht'
  | publish message nowMs correlationId => exact .one id (.pass trivial)
  | handOver message nowMs correlationId sequence => exact .nothing id
  | _ => cases ht

theorem Handles.proceeds (hnames : Names row envelope) (hreadable : Readable config row envelope)
    (hregistered : Registered m.store row) (h : Handles row envelope m.store t) :
    Proceeds row envelope (Crosses m.store t) (exec config m t r) := by
  cases h with
  | read ht => exact proceeds_of_read hnames hreadable hregistered ht
  | @outcomeStatus status nowMs haccepted =>
      rw [exec]
      split_ifs
      · exact .one id (.reconcileOutcome nowMs haccepted)
      · exact .one id (.recordOutcome nowMs haccepted)
  | recordOutcome nowMs haccepted => exact proceeds_of_recordOutcome hregistered haccepted
  | reconcileOutcome nowMs haccepted =>
      rw [exec]
      exact proceeds_of_reconcile hregistered haccepted (fun _ _ => ⟨rfl, rfl⟩)
  | reconcileSnapshot succeeded nowMs haccepted =>
      rw [exec]
      exact proceeds_of_reconcile hregistered haccepted (fun _ _ => ⟨rfl, rfl⟩)
  | recordAcknowledgement status nowMs => exact proceeds_of_acknowledgement hregistered status nowMs
  | recordCancellationAcknowledgement accepted nowMs =>
      exact proceeds_of_cancellationAcknowledgement hregistered accepted nowMs
  | pass ht => exact proceeds_of_pass ht

end

def Handling (row : StepRow) (envelope : Envelope) (m : Memory) (tasks : List Task) : Prop :=
  Registered m.store row ∧ forall t, t ∈ tasks -> Handles row envelope m.store t

theorem Handling.exec {row : StepRow} {envelope : Envelope} {m : Memory} {tasks : List Task}
    (h : Handling row envelope m tasks) (config : Config) (t : Task) (r : Reading) :
    Handling row envelope (exec config m t r).1 tasks :=
  have hevolves := exec_evolves config m t r
  ⟨h.1.evolves hevolves, fun t' ht' => (h.2 t' ht').evolves hevolves⟩

theorem Handling.turn {config : Config} {row : StepRow} {envelope : Envelope} {m : Memory}
    {t : Task} {rest : List Task} (hnames : Names row envelope)
    (hreadable : Readable config row envelope) (h : Handling row envelope m (t :: rest))
    (r : Reading) :
    Handling row envelope (Ump.Coordinator.exec config m t r).1
      ((Ump.Coordinator.exec config m t r).2.resume rest) := by
  have hproceeds := (h.2 t List.mem_cons_self).proceeds (r := r) hnames hreadable h.1
  rcases h.exec config t r with ⟨hstored, htasks⟩
  refine ⟨hstored, ?_⟩
  generalize Ump.Coordinator.exec config m t r = result at hproceeds htasks ⊢
  intro t' ht'
  cases hproceeds with
  | raised _ => cases ht'
  | next _ hleft =>
      rcases List.mem_append.mp ht' with hnew | hold
      · exact hleft t' hnew
      · exact htasks t' (List.mem_cons_of_mem t hold)

end Ump.Coordinator
