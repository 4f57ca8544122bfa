import Ump.Coordinator.Effects

/-!
# What a coordinator task leaves

## The next tasks of a thread

Effects says what a task does to the memory. This module says which tasks it leaves to
its thread and what it has checked before, one constructor for each way to go on.
-/

namespace Ump.Coordinator

open Foundation CoordinatorStore

def created (goal : SharedGoal) (plan : Plan) (assignments : List Assignment) (nowMs : Int) :
    List Task :=
  .createRun goal plan assignments nowMs :: announce goal plan nowMs

/-- The checks that `replan` makes on the plan that the planner proposes. -/
structure Supersedes (plan previous : Plan) : Prop where
  planId : plan.planId ≠ previous.planId
  revision : plan.revision = previous.revision + 1
  supersedesPlanId : plan.supersedesPlanId = some previous.planId

/-- What `_assignment_snapshot` has checked when it reconciles. -/
structure SnapshotChecked (config : Config) (s : CoordinatorStore) (envelope : Envelope)
    (assignmentId : String) (status : AssignmentStatus) (outcomeData : Json)
    (outcome : Outcome) : Prop where
  addressed : addressed s envelope "snapshot" = .ok (some assignmentId)
  member : envelope.payload.get "outcome" .null = .ok outcomeData
  built : snapshotOutcome outcomeData = .ok outcome
  agreed : snapshotStatus config s assignmentId envelope.payload outcome = .ok status

inductive Succeeds (config : Config) (m : Memory) (r : Reading) : Task -> Task -> Prop where
  | submitted {goal : SharedGoal} {plan : Plan} {assignments : List Assignment} {nowMs : Int}
      {t : Task} (hprepare : prepare config goal nowMs r = .ok (plan, assignments))
      (ht : t ∈ created goal plan assignments nowMs) :
      Succeeds config m r (.submit goal nowMs) t
  | batched (goals : List SharedGoal) (nowMs : Int) :
      Succeeds config m r (.submitMany goals nowMs) (.prepareMany goals [] nowMs)
  | preparedOne {goal : SharedGoal} {goals : List SharedGoal}
      {prepared : List (SharedGoal × Plan × List Assignment)} {run : Plan × List Assignment}
      {nowMs : Int} (hprepare : prepare config goal nowMs r = .ok run) :
      Succeeds config m r (.prepareMany (goal :: goals) prepared nowMs)
        (.prepareMany goals (prepared ++ [(goal, run)]) nowMs)
  | createsPrepared {prepared : List (SharedGoal × Plan × List Assignment)}
      {run : SharedGoal × Plan × List Assignment} {nowMs : Int} (hrun : run ∈ prepared) :
      Succeeds config m r (.prepareMany [] prepared nowMs)
        (.createRun run.1 run.2.1 run.2.2 nowMs)
  | announcesPrepared {prepared : List (SharedGoal × Plan × List Assignment)}
      {run : SharedGoal × Plan × List Assignment} {nowMs : Int} {t : Task}
      (hrun : run ∈ prepared) (ht : t ∈ announce run.1 run.2.1 nowMs) :
      Succeeds config m r (.prepareMany [] prepared nowMs) t
  | guarded {previousPlanId : String} {run : RunRow} {nowMs : Int}
      (hrun : m.store.run? previousPlanId = some run) (hstatus : run.status ≠ .active) :
      Succeeds config m r (.replan previousPlanId nowMs) (.replanFrom run.plan run.goal nowMs)
  | replanned {previous : Plan} {goal : SharedGoal} {plan : Plan}
      {assignments : List Assignment} {nowMs : Int} {t : Task}
      (hprepare : prepare config goal nowMs r = .ok (plan, assignments))
      (hsupersedes : Supersedes plan previous)
      (ht : t ∈ created goal plan assignments nowMs) :
      Succeeds config m r (.replanFrom previous goal nowMs) t
  | sequenced (message : Message) (nowMs : Int) (correlationId : String) :
      Succeeds config m r (.publish message nowMs correlationId)
        (.handOver message nowMs correlationId (m.sequence + 1))
  | listed {planId : String} {nowMs : Int} {ready : List Assignment} {assignment : Assignment}
      (hready : m.store.readyAssignments planId = .ok ready) (hassignment : assignment ∈ ready) :
      Succeeds config m r (.dispatchReady planId nowMs) (.dispatch assignment nowMs)
  | marked (assignment : Assignment) (nowMs : Int) :
      Succeeds config m r (.dispatch assignment nowMs)
        (.publish (.assignment assignment) nowMs assignment.goalId)
  | completed {envelope : Envelope} {assignmentId : String} {status : AssignmentStatus}
      (haddressed : addressed m.store envelope "outcome" = .ok (some assignmentId))
      (hstatus : (envelope.payload.item "status" >>= assignmentStatus) = .ok status) :
      Succeeds config m r (.outcome envelope)
        (.outcomeStatus assignmentId status envelope.timestampMs)
  | reconciles {assignmentId : String} {status : AssignmentStatus} {nowMs : Int}
      (hunknown : m.store.statusForAssignment assignmentId = some .unknown) :
      Succeeds config m r (.outcomeStatus assignmentId status nowMs)
        (.reconcileOutcome assignmentId status nowMs)
  | records {assignmentId : String} {status : AssignmentStatus} {nowMs : Int}
      (hunknown : m.store.statusForAssignment assignmentId ≠ some .unknown) :
      Succeeds config m r (.outcomeStatus assignmentId status nowMs)
        (.recordOutcome assignmentId status nowMs)
  | resumed {t : Task} {operation : Operation} {planId : String} {nowMs : Int}
      (hoperation : t.operation? = some operation) :
      Succeeds config m r t (.dispatchReady planId nowMs)
  | acknowledged {envelope : Envelope} {assignmentId : String} {status : AssignmentStatus}
      (haddressed : addressed m.store envelope "acknowledgement" = .ok (some assignmentId))
      (hstatus : (envelope.payload.item "status" >>= assignmentStatus) = .ok status) :
      Succeeds config m r (.acknowledgement envelope)
        (.recordAcknowledgement assignmentId status envelope.timestampMs)
  | cancelled {envelope : Envelope} {assignmentId : String} {status : CancellationStatus}
      (haddressed : addressed m.store envelope "cancellation" = .ok (some assignmentId))
      (hstatus : (envelope.payload.item "status" >>= cancellationStatus) = .ok status) :
      Succeeds config m r (.cancellationAcknowledgement envelope)
        (.recordCancellationAcknowledgement assignmentId
          (decide (status = .accepted ∨ status = .alreadyTerminal)) envelope.timestampMs)
  | evidenced {envelope : Envelope} {assignmentId : String} {status : AssignmentStatus}
      {outcomeData succeeded : Json} {outcome : Outcome}
      (hchecked : SnapshotChecked config m.store envelope assignmentId status outcomeData
        outcome) :
      Succeeds config m r (.assignmentSnapshot envelope)
        (.reconcileSnapshot assignmentId status succeeded envelope.timestampMs)
  | requested {planId reason : String} {nowMs : Int} {assignments : List Assignment}
      {store : CoordinatorStore} {assignment : Assignment}
      (hcancel : m.store.requestCancellation planId nowMs = .ok (assignments, store))
      (hassignment : assignment ∈ assignments) :
      Succeeds config m r (.cancel planId reason nowMs)
        (.publish (.cancellationRequest assignment.assignmentId
          assignment.step.assignedRobotId reason) nowMs assignment.goalId)
  | queried {planId : String} {nowMs : Int} {assignment : Assignment}
      (hassignment : assignment ∈ m.store.unknownAssignments planId) :
      Succeeds config m r (.reconcile planId nowMs)
        (.publish (.assignmentQuery assignment.assignmentId
          assignment.step.assignedRobotId) nowMs assignment.goalId)
  | resumesActive {planId : String} {nowMs : Int} (hplan : planId ∈ m.store.activePlanIds) :
      Succeeds config m r (.resumeActive nowMs) (.dispatchReady planId nowMs)

theorem mem_tasks_attempt {m : Memory} {x : Except Exn value}
    {next : value -> Memory × Flow Task} {t : Task}
    (h : t ∈ (attempt m x next).2.tasks) : exists v, x = .ok v ∧ t ∈ (next v).2.tasks := by
  cases x with
  | ok v => exact ⟨v, rfl, h⟩
  | error e => cases h

theorem mem_tasks_recorded {m : Memory} {x : Except Exn (Option String × CoordinatorStore)}
    {next : Memory -> Option String -> Memory × Flow Task} {t : Task}
    (h : t ∈ (recorded m x next).2.tasks) :
    exists planId store, t ∈ (next { m with store := store } planId).2.tasks := by
  rcases mem_tasks_attempt h with ⟨v, _, ht⟩
  exact ⟨v.1, v.2, ht⟩

theorem mem_dispatchPlan {nowMs : Int} {planId : Option String} {t : Task}
    (h : t ∈ dispatchPlan nowMs planId) : exists plan, t = .dispatchReady plan nowMs := by
  cases planId with
  | none => cases h
  | some plan => exact ⟨plan, List.mem_singleton.mp h⟩

theorem exec_succeeds (config : Config) (m : Memory) (r : Reading) {t t' : Task}
    (h : t' ∈ (exec config m t r).2.tasks) : Succeeds config m r t t' := by
  cases t with
  | submit goal nowMs =>
      rw [exec] at h
      rcases mem_tasks_attempt h with ⟨⟨plan, assignments⟩, hprepare, ht⟩
      exact .submitted hprepare ht
  | submitMany goals nowMs =>
      rw [exec] at h
      rcases mem_tasks_attempt h with ⟨_, _, h⟩
      rcases mem_tasks_attempt h with ⟨_, _, h⟩
      rw [List.mem_singleton.mp h]
      exact .batched goals nowMs
  | prepareMany goals prepared nowMs =>
      cases goals with
      | cons goal goals =>
          rw [exec] at h
          rcases mem_tasks_attempt h with ⟨run, hprepare, h⟩
          rw [List.mem_singleton.mp h]
          exact .preparedOne hprepare
      | nil =>
          rw [exec] at h
          rcases mem_tasks_attempt h with ⟨_, _, h⟩
          rcases List.mem_append.mp h with h | h
          · rcases List.mem_map.mp h with ⟨run, hrun, rfl⟩
            exact .createsPrepared hrun
          · rcases List.mem_flatMap.mp h with ⟨run, hrun, ht⟩
            exact .announcesPrepared hrun ht
  | replan previousPlanId nowMs =>
      rw [exec] at h
      cases hrun : m.store.run? previousPlanId with
      | none =>
          rw [hrun] at h
          cases h
      | some run =>
          rw [hrun] at h
          rcases mem_tasks_attempt h with ⟨_, hstatus, h⟩
          rw [List.mem_singleton.mp h]
          exact .guarded hrun (by simpa using refuseWhen_eq_ok hstatus)
  | replanFrom previous goal nowMs =>
      rw [exec] at h
      rcases mem_tasks_attempt h with ⟨⟨plan, assignments⟩, hprepare, h⟩
      rcases mem_tasks_attempt h with ⟨_, hplanId, h⟩
      rcases mem_tasks_attempt h with ⟨_, hrevision, h⟩
      rcases mem_tasks_attempt h with ⟨_, hsupersedes, ht⟩
      refine .replanned hprepare ⟨?_, ?_, ?_⟩ ht
      · simpa using refuseWhen_eq_ok hplanId
      · simpa using refuseWhen_eq_ok hrevision
      · simpa using refuseWhen_eq_ok hsupersedes
  | createRun goal plan assignments nowMs =>
      rw [exec] at h
      rcases mem_tasks_attempt h with ⟨_, _, h⟩
      cases h
  | publish message nowMs correlationId =>
      rw [exec] at h
      rw [List.mem_singleton.mp h]
      exact .sequenced message nowMs correlationId
  | handOver message nowMs correlationId sequence =>
      rw [exec] at h
      cases h
  | dispatchReady planId nowMs =>
      rw [exec] at h
      rcases mem_tasks_attempt h with ⟨ready, hready, h⟩
      rcases List.mem_map.mp h with ⟨assignment, hassignment, rfl⟩
      exact .listed hready hassignment
  | dispatch assignment nowMs =>
      rw [exec] at h
      rcases mem_tasks_attempt h with ⟨⟨changed, store⟩, _, h⟩
      cases changed with
      | true =>
          rw [List.mem_singleton.mp h]
          exact .marked assignment nowMs
      | false => cases h
  | outcome envelope =>
      rw [exec] at h
      rcases mem_tasks_attempt h with ⟨_ | assignmentId, haddressed, h⟩
      · cases h
      · rcases mem_tasks_attempt h with ⟨_, _, h⟩
        rcases mem_tasks_attempt h with ⟨status, hstatus, h⟩
        rw [List.mem_singleton.mp h]
        exact .completed haddressed hstatus
  | outcomeStatus assignmentId status nowMs =>
      rw [exec] at h
      split_ifs at h with hunknown
      · rw [List.mem_singleton.mp h]
        exact .reconciles hunknown
      · rw [List.mem_singleton.mp h]
        exact .records hunknown
  | recordOutcome assignmentId status nowMs =>
      rw [exec] at h
      rcases mem_tasks_recorded h with ⟨_, _, h⟩
      rcases mem_dispatchPlan h with ⟨plan, rfl⟩
      exact .resumed rfl
  | reconcileOutcome assignmentId status nowMs =>
      rw [exec] at h
      rcases mem_tasks_recorded h with ⟨_, _, h⟩
      rcases mem_dispatchPlan h with ⟨plan, rfl⟩
      exact .resumed rfl
  | acknowledgement envelope =>
      rw [exec] at h
      rcases mem_tasks_attempt h with ⟨_ | assignmentId, haddressed, h⟩
      · cases h
      · rcases mem_tasks_attempt h with ⟨status, hstatus, h⟩
        rw [List.mem_singleton.mp h]
        exact .acknowledged haddressed hstatus
  | recordAcknowledgement assignmentId status nowMs =>
      rw [exec] at h
      rcases mem_tasks_recorded h with ⟨_, _, h⟩
      cases h
  | cancellationAcknowledgement envelope =>
      rw [exec] at h
      rcases mem_tasks_attempt h with ⟨_ | assignmentId, haddressed, h⟩
      · cases h
      · rcases mem_tasks_attempt h with ⟨status, hstatus, h⟩
        rw [List.mem_singleton.mp h]
        exact .cancelled haddressed hstatus
  | recordCancellationAcknowledgement assignmentId accepted nowMs =>
      rw [exec] at h
      rcases mem_tasks_recorded h with ⟨_, _, h⟩
      cases h
  | assignmentSnapshot envelope =>
      rw [exec] at h
      rcases mem_tasks_attempt h with ⟨_ | assignmentId, haddressed, h⟩
      · cases h
      · rcases mem_tasks_attempt h with ⟨outcomeData, hdata, h⟩
        cases hnull : outcomeData.isNull with
        | true =>
            simp only [hnull, if_true] at h
            cases h
        | false =>
            simp only [hnull, Bool.false_eq_true, if_false] at h
            rcases mem_tasks_attempt h with ⟨outcome, houtcome, h⟩
            rcases mem_tasks_attempt h with ⟨status, hstatus, h⟩
            rcases mem_tasks_attempt h with ⟨succeeded, _, h⟩
            rw [List.mem_singleton.mp h]
            exact .evidenced ⟨haddressed, hdata, houtcome, hstatus⟩
  | reconcileSnapshot assignmentId status succeeded nowMs =>
      rw [exec] at h
      rcases mem_tasks_recorded h with ⟨_, _, h⟩
      rcases mem_dispatchPlan h with ⟨plan, rfl⟩
      exact .resumed rfl
  | cancel planId reason nowMs =>
      rw [exec] at h
      rcases mem_tasks_attempt h with ⟨_, _, h⟩
      rcases mem_tasks_attempt h with ⟨⟨assignments, store⟩, hcancel, h⟩
      rcases List.mem_map.mp h with ⟨assignment, hassignment, rfl⟩
      exact .requested hcancel hassignment
  | reconcile planId nowMs =>
      rw [exec] at h
      rcases List.mem_map.mp h with ⟨assignment, hassignment, rfl⟩
      exact .queried hassignment
  | resumeActive nowMs =>
      rw [exec] at h
      rcases List.mem_map.mp h with ⟨planId, hplan, rfl⟩
      exact .resumesActive hplan

end Ump.Coordinator
