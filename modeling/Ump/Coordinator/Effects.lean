import Ump.Coordinator.Collaboration

/-!
# What a coordinator task does

## Inversion of a task

Most tasks read, check and pass on work, or make one store operation. Only the
dispatch pass lists ready assignments, marks one, and takes it through the two
steps of its publication.
-/

namespace Ump.Coordinator

open Foundation CoordinatorStore

def Task.operation? : Task -> Option Operation
  | .createRun goal plan assignments nowMs => some (.createRun goal plan assignments nowMs)
  | .dispatch assignment nowMs => some (.markDispatched assignment.assignmentId nowMs)
  | .recordOutcome assignmentId status nowMs => some (.recordOutcome assignmentId status nowMs)
  | .reconcileOutcome assignmentId status nowMs =>
      some (.reconcileOutcome assignmentId status nowMs)
  | .reconcileSnapshot assignmentId status _ nowMs =>
      some (.reconcileOutcome assignmentId status nowMs)
  | .recordAcknowledgement assignmentId status nowMs =>
      some (.recordAcknowledgement assignmentId status nowMs)
  | .recordCancellationAcknowledgement assignmentId accepted nowMs =>
      some (.recordCancellationAcknowledgement assignmentId accepted nowMs)
  | .cancel planId _ nowMs => some (.requestCancellation planId nowMs)
  | _ => none

def Task.listed? : Task -> Option Assignment
  | .dispatch assignment _ => some assignment
  | _ => none

def Task.carried? : Task -> Option Assignment
  | .publish (.assignment assignment) _ _ => some assignment
  | .handOver (.assignment assignment) _ _ _ => some assignment
  | _ => none

def Task.Quiet (t : Task) : Prop :=
  t.listed? = none ∧ t.carried? = none

/-- A validated plan with one assignment for each of its steps. -/
structure Prepares (plan : Plan) (assignments : List Assignment) : Prop where
  validated : Validated plan
  steps : assignments.map (fun assignment => assignment.step) = plan.steps

def Task.Prepared : Task -> Prop
  | .createRun _ plan assignments _ => Prepares plan assignments
  | .prepareMany _ prepared _ => forall run, run ∈ prepared -> Prepares run.2.1 run.2.2
  | _ => True

/-- What a task outside the dispatch passes leaves to its thread. -/
structure Task.Leaves (t t' : Task) : Prop where
  quiet : t'.Quiet
  prepared : t.Prepared -> t'.Prepared

inductive Effect (m : Memory) : Task -> Memory × Flow Task -> Prop where
  | quiet {t : Task} {result : Memory × Flow Task} (hstore : result.1.store = m.store)
      (hpublished : result.1.published = m.published)
      (hleaves : forall t', t' ∈ result.2.tasks -> t.Leaves t') : Effect m t result
  | committed {t : Task} {result : Memory × Flow Task} {operation : Operation}
      (hoperation : t.operation? = some operation)
      (hstore : result.1.store = m.store.apply operation)
      (hpublished : result.1.published = m.published)
      (hleaves : forall t', t' ∈ result.2.tasks -> t.Leaves t') : Effect m t result
  | listed {planId : String} {nowMs : Int} {ready : List Assignment}
      (hready : m.store.readyAssignments planId = .ok ready) :
      Effect m (.dispatchReady planId nowMs)
        (m, .next (ready.map (fun assignment => .dispatch assignment nowMs)))
  | marked {assignment : Assignment} {nowMs : Int} {row : StepRow}
      (hrow : row ∈ m.store.runSteps.rows)
      (hid : row.assignmentId = assignment.assignmentId)
      (hpending : row.status = .pending) :
      Effect m (.dispatch assignment nowMs)
        ({ m with store := m.store.marked assignment.assignmentId },
          .next [.publish (.assignment assignment) nowMs assignment.goalId])
  | advanced (message : Message) (nowMs : Int) (correlationId : String) :
      Effect m (.publish message nowMs correlationId)
        ({ m with sequence := m.sequence + 1 },
          .next [.handOver message nowMs correlationId (m.sequence + 1)])
  | published (message : Message) (nowMs : Int) (correlationId : String)
      (sequence : Nat) (envelope : Envelope) (hpayload : envelope.payload = message.payload) :
      Effect m (.handOver message nowMs correlationId sequence)
        ({ m with published := m.published ++ [(message, envelope)] }, .next [])

theorem Effect.attempt {m m' : Memory} {t : Task} {x : Except Exn value}
    {next : value -> Memory × Flow Task} (hstore : m'.store = m.store)
    (hpublished : m'.published = m.published)
    (h : forall v, x = .ok v -> Effect m t (next v)) :
    Effect m t (Foundation.attempt m' x next) := by
  cases x with
  | ok v => exact h v rfl
  | error e => exact .quiet hstore hpublished (fun t' ht' => by cases ht')

theorem leaves_nil {t : Task} (t' : Task) (ht : t' ∈ ([] : List Task)) : t.Leaves t' := by
  cases ht

theorem leaves_one {t next : Task} (h : t.Leaves next) (t' : Task) (ht : t' ∈ [next]) :
    t.Leaves t' := by
  rw [List.mem_singleton.mp ht]
  exact h

theorem leaves_dispatchPlan {t : Task} {nowMs : Int} {planId : Option String} (t' : Task)
    (ht : t' ∈ dispatchPlan nowMs planId) : t.Leaves t' := by
  cases planId with
  | none => cases ht
  | some planId =>
      rw [List.mem_singleton.mp ht]
      exact ⟨⟨rfl, rfl⟩, fun _ => trivial⟩

theorem leaves_announce {t : Task} {goal : SharedGoal} {plan : Plan} {nowMs : Int}
    (t' : Task) (ht : t' ∈ announce goal plan nowMs) : t.Leaves t' := by
  unfold announce at ht
  simp only [List.mem_cons, List.not_mem_nil, or_false] at ht
  rcases ht with rfl | rfl | rfl <;> exact ⟨⟨rfl, rfl⟩, fun _ => trivial⟩

theorem leaves_created {t : Task} {goal : SharedGoal} {plan : Plan}
    {assignments : List Assignment} {nowMs : Int} (h : Prepares plan assignments)
    (t' : Task)
    (ht : t' ∈ Task.createRun goal plan assignments nowMs :: announce goal plan nowMs) :
    t.Leaves t' := by
  rcases List.mem_cons.mp ht with rfl | ht
  · exact ⟨⟨rfl, rfl⟩, fun _ => h⟩
  · exact leaves_announce t' ht

theorem prepare_eq_ok {config : Config} {goal : SharedGoal} {nowMs : Int} {reading : Reading}
    {plan : Plan} {assignments : List Assignment}
    (h : prepare config goal nowMs reading = .ok (plan, assignments)) :
    validateCoreMessageSize .goal goal.payload = .ok () ∧ reading.proposal = some plan ∧
      plan.check = .ok () ∧ validatePlan goal plan reading.registry nowMs = .ok () ∧
      assignments = plan.steps.mapIdx
        (fun i step => newAssignment config goal plan (reading.uuid4 i) step) := by
  unfold prepare at h
  rcases bind_eq_ok.mp h with ⟨_, hgoal, h⟩
  cases hproposal : reading.proposal with
  | none =>
      rw [hproposal] at h
      cases h
  | some proposed =>
      rw [hproposal] at h
      rcases bind_eq_ok.mp h with ⟨_, hcheck, h⟩
      rcases bind_eq_ok.mp h with ⟨_, hvalid, h⟩
      rcases bind_eq_ok.mp h with ⟨_, _, h⟩
      rcases bind_eq_ok.mp h with ⟨_, _, h⟩
      cases h
      exact ⟨hgoal, rfl, hcheck, hvalid, rfl⟩

theorem prepare_prepares {config : Config} {goal : SharedGoal} {nowMs : Int}
    {reading : Reading} {plan : Plan} {assignments : List Assignment}
    (h : prepare config goal nowMs reading = .ok (plan, assignments)) :
    Prepares plan assignments := by
  rcases prepare_eq_ok h with ⟨_, _, _, hvalid, rfl⟩
  constructor
  · exact validatePlan_validated hvalid
  · refine List.ext_getElem (by simp) ?_
    intro i _ _
    simp [newAssignment]

theorem Effect.recorded {m : Memory} {t : Task} {operation : Operation}
    {x : Except Exn (Option String × CoordinatorStore)}
    {next : Memory -> Option String -> Memory × Flow Task}
    (hoperation : t.operation? = some operation)
    (hcommit : m.store.commit operation = x.map Prod.snd)
    (hnext : forall store planId, (next { m with store := store } planId).1.store = store ∧
      (next { m with store := store } planId).1.published = m.published ∧
      forall t', t' ∈ (next { m with store := store } planId).2.tasks -> t.Leaves t') :
    Effect m t (Ump.Coordinator.recorded m x next) := by
  cases x with
  | error e => exact .quiet rfl rfl (fun t' ht' => by cases ht')
  | ok r =>
      have hstore : m.store.apply operation = r.2 := by
        unfold CoordinatorStore.apply
        rw [hcommit]
        rfl
      rcases hnext r.2 r.1 with ⟨hnextStore, hpublished, hleaves⟩
      exact .committed hoperation (hnextStore.trans hstore.symm) hpublished hleaves

theorem markDispatched_eq_ok {s store : CoordinatorStore} {assignmentId : String}
    {nowMs : Int} {changed : Bool}
    (h : s.markDispatched assignmentId nowMs = .ok (changed, store)) :
    store = s.marked assignmentId ∧
      (changed = true -> exists row, row ∈ s.runSteps.rows ∧
        row.assignmentId = assignmentId ∧ row.status = .pending) := by
  rcases bind_eq_ok.mp h with ⟨_, _, hok⟩
  cases hok
  refine ⟨rfl, ?_⟩
  intro hany
  rcases List.any_eq_true.mp hany with ⟨row, hrow, hselected⟩
  exact ⟨row, hrow, by simpa using hselected⟩

theorem exec_effect (config : Config) (m : Memory) (t : Task) (r : Reading) :
    Effect m t (exec config m t r) := by
  cases t with
  | submit goal nowMs =>
      rw [exec]
      refine Effect.attempt rfl rfl ?_
      rintro ⟨plan, assignments⟩ hprepare
      exact .quiet rfl rfl (leaves_created (prepare_prepares hprepare))
  | submitMany goals nowMs =>
      rw [exec]
      refine Effect.attempt rfl rfl ?_
      intro _ _
      refine Effect.attempt rfl rfl ?_
      intro _ _
      refine .quiet rfl rfl (leaves_one ⟨⟨rfl, rfl⟩, ?_⟩)
      intro _ run hrun
      cases hrun
  | prepareMany goals prepared nowMs =>
      cases goals with
      | cons goal goals =>
          rw [exec]
          refine Effect.attempt rfl rfl ?_
          rintro ⟨plan, assignments⟩ hprepare
          refine .quiet rfl rfl (leaves_one ⟨⟨rfl, rfl⟩, ?_⟩)
          intro hprepared run hrun
          rcases List.mem_append.mp hrun with hold | hnew
          · exact hprepared run hold
          · rw [List.mem_singleton.mp hnew]
            exact prepare_prepares hprepare
      | nil =>
          rw [exec]
          refine Effect.attempt rfl rfl ?_
          intro _ _
          refine .quiet rfl rfl ?_
          intro t' ht'
          rcases List.mem_append.mp ht' with ht' | ht'
          · rcases List.mem_map.mp ht' with ⟨run, hrun, rfl⟩
            exact ⟨⟨rfl, rfl⟩, fun hprepared => hprepared run hrun⟩
          · rcases List.mem_flatMap.mp ht' with ⟨run, _, ht'⟩
            exact leaves_announce t' ht'
  | replan previousPlanId nowMs =>
      rw [exec]
      cases m.store.run? previousPlanId with
      | none => exact .quiet rfl rfl leaves_nil
      | some run =>
          refine Effect.attempt rfl rfl ?_
          intro _ _
          exact .quiet rfl rfl (leaves_one ⟨⟨rfl, rfl⟩, fun _ => trivial⟩)
  | replanFrom previous goal nowMs =>
      rw [exec]
      refine Effect.attempt rfl rfl ?_
      rintro ⟨plan, assignments⟩ hprepare
      refine Effect.attempt rfl rfl ?_
      intro _ _
      refine Effect.attempt rfl rfl ?_
      intro _ _
      refine Effect.attempt rfl rfl ?_
      intro _ _
      exact .quiet rfl rfl (leaves_created (prepare_prepares hprepare))
  | createRun goal plan assignments nowMs =>
      rw [exec]
      refine Effect.attempt rfl rfl ?_
      intro store hstore
      refine .committed rfl ?_ rfl leaves_nil
      unfold CoordinatorStore.apply CoordinatorStore.commit
      simp only [hstore]
  | publish message nowMs correlationId =>
      rw [exec]
      exact .advanced message nowMs correlationId
  | handOver message nowMs correlationId sequence =>
      rw [exec]
      exact .published message nowMs correlationId sequence _ rfl
  | dispatchReady planId nowMs =>
      rw [exec]
      refine Effect.attempt rfl rfl ?_
      intro ready hready
      exact .listed hready
  | dispatch assignment nowMs =>
      rw [exec]
      refine Effect.attempt rfl rfl ?_
      rintro ⟨changed, store⟩ hmark
      rcases markDispatched_eq_ok hmark with ⟨rfl, hrow⟩
      cases changed with
      | true =>
          rcases hrow rfl with ⟨row, hrow, hid, hpending⟩
          exact .marked hrow hid hpending
      | false =>
          refine .committed rfl ?_ rfl leaves_nil
          unfold CoordinatorStore.apply CoordinatorStore.commit
          simp only [hmark, Except.map]
  | outcome envelope =>
      rw [exec]
      refine Effect.attempt rfl rfl ?_
      rintro (_ | assignmentId) _
      · exact .quiet rfl rfl leaves_nil
      · refine Effect.attempt rfl rfl ?_
        intro succeeded _
        refine Effect.attempt rfl rfl ?_
        intro status _
        exact .quiet rfl rfl (leaves_one ⟨⟨rfl, rfl⟩, fun _ => trivial⟩)
  | outcomeStatus assignmentId status nowMs =>
      rw [exec]
      refine .quiet (by split_ifs <;> rfl) (by split_ifs <;> rfl) ?_
      intro t' ht'
      split_ifs at ht' <;> rw [List.mem_singleton.mp ht'] <;> exact ⟨⟨rfl, rfl⟩, fun _ => trivial⟩
  | recordOutcome assignmentId status nowMs =>
      rw [exec]
      exact Effect.recorded rfl rfl (fun _ _ => ⟨rfl, rfl, leaves_dispatchPlan⟩)
  | reconcileOutcome assignmentId status nowMs =>
      rw [exec]
      exact Effect.recorded rfl rfl (fun _ _ => ⟨rfl, rfl, leaves_dispatchPlan⟩)
  | acknowledgement envelope =>
      rw [exec]
      refine Effect.attempt rfl rfl ?_
      rintro (_ | assignmentId) _
      · exact .quiet rfl rfl leaves_nil
      · refine Effect.attempt rfl rfl ?_
        intro status _
        exact .quiet rfl rfl (leaves_one ⟨⟨rfl, rfl⟩, fun _ => trivial⟩)
  | recordAcknowledgement assignmentId status nowMs =>
      rw [exec]
      exact Effect.recorded rfl rfl (fun _ _ => ⟨rfl, rfl, leaves_nil⟩)
  | cancellationAcknowledgement envelope =>
      rw [exec]
      refine Effect.attempt rfl rfl ?_
      rintro (_ | assignmentId) _
      · exact .quiet rfl rfl leaves_nil
      · refine Effect.attempt rfl rfl ?_
        intro status _
        exact .quiet rfl rfl (leaves_one ⟨⟨rfl, rfl⟩, fun _ => trivial⟩)
  | recordCancellationAcknowledgement assignmentId accepted nowMs =>
      rw [exec]
      exact Effect.recorded rfl rfl (fun _ _ => ⟨rfl, rfl, leaves_nil⟩)
  | assignmentSnapshot envelope =>
      rw [exec]
      refine Effect.attempt rfl rfl ?_
      rintro (_ | assignmentId) _
      · exact .quiet rfl rfl leaves_nil
      · refine Effect.attempt rfl rfl ?_
        intro outcomeData _
        cases hnull : outcomeData.isNull with
        | true =>
            simp only [if_true]
            exact .quiet rfl rfl leaves_nil
        | false =>
            simp only [Bool.false_eq_true, if_false]
            refine Effect.attempt rfl rfl ?_
            intro outcome _
            refine Effect.attempt rfl rfl ?_
            intro status _
            refine Effect.attempt rfl rfl ?_
            intro succeeded _
            exact .quiet rfl rfl (leaves_one ⟨⟨rfl, rfl⟩, fun _ => trivial⟩)
  | reconcileSnapshot assignmentId status succeeded nowMs =>
      rw [exec]
      exact Effect.recorded rfl rfl (fun _ _ => ⟨rfl, rfl, leaves_dispatchPlan⟩)
  | cancel planId reason nowMs =>
      rw [exec]
      refine Effect.attempt rfl rfl ?_
      intro _ _
      refine Effect.attempt rfl rfl ?_
      rintro ⟨assignments, store⟩ hcancel
      refine .committed rfl ?_ rfl ?_
      · unfold CoordinatorStore.apply CoordinatorStore.commit
        simp only [hcancel, Except.map]
      · intro t' ht'
        rcases List.mem_map.mp ht' with ⟨assignment, _, rfl⟩
        exact ⟨⟨rfl, rfl⟩, fun _ => trivial⟩
  | reconcile planId nowMs =>
      rw [exec]
      refine .quiet rfl rfl ?_
      intro t' ht'
      rcases List.mem_map.mp ht' with ⟨assignment, _, rfl⟩
      exact ⟨⟨rfl, rfl⟩, fun _ => trivial⟩
  | resumeActive nowMs =>
      rw [exec]
      refine .quiet rfl rfl ?_
      intro t' ht'
      rcases List.mem_map.mp ht' with ⟨planId, _, rfl⟩
      exact ⟨⟨rfl, rfl⟩, fun _ => trivial⟩

theorem Effect.prepared {m : Memory} {t : Task} {result : Memory × Flow Task}
    (h : Effect m t result) (ht : t.Prepared) (t' : Task) (ht' : t' ∈ result.2.tasks) :
    t'.Prepared := by
  cases h with
  | quiet _ _ hleaves => exact (hleaves t' ht').prepared ht
  | committed _ _ _ hleaves => exact (hleaves t' ht').prepared ht
  | listed _ =>
      rcases List.mem_map.mp ht' with ⟨a, _, rfl⟩
      trivial
  | marked _ _ _ =>
      rw [List.mem_singleton.mp ht']
      trivial
  | advanced _ _ _ =>
      rw [List.mem_singleton.mp ht']
      trivial
  | published _ _ _ _ _ _ => cases ht'

theorem exec_stored (config : Config) (m : Memory) (t : Task) (r : Reading) :
    (exec config m t r).1.store = m.store ∨ exists operation,
      t.operation? = some operation ∧
        (exec config m t r).1.store = m.store.apply operation := by
  cases t with
  | dispatch assignment nowMs =>
      rw [exec]
      cases hmark : m.store.markDispatched assignment.assignmentId nowMs with
      | error e => exact Or.inl rfl
      | ok marked =>
          refine Or.inr ⟨_, rfl, ?_⟩
          unfold CoordinatorStore.apply CoordinatorStore.commit
          simp only [hmark, Except.map]
          rfl
  | _ =>
      generalize hresult : exec config m _ r = result
      have heffect := hresult ▸ exec_effect config m _ r
      cases heffect with
      | quiet hstore _ _ => exact Or.inl hstore
      | @committed _ _ operation hoperation hstore _ _ =>
          exact Or.inr ⟨operation, hoperation, hstore⟩
      | _ => exact Or.inl rfl

theorem exec_committed (config : Config) (m : Memory) (t : Task) (r : Reading) :
    (exec config m t r).1.store = m.store ∨ exists operation,
      t.operation? = some operation ∧
        Committed m.store operation (exec config m t r).1.store := by
  rcases exec_stored config m t r with hsame | ⟨operation, hoperation, hstore⟩
  · exact Or.inl hsame
  · refine Or.inr ⟨operation, hoperation, ?_⟩
    rw [hstore]
    exact apply_committed m.store operation

theorem exec_evolves (config : Config) (m : Memory) (t : Task) (r : Reading) :
    Evolves m.store (exec config m t r).1.store := by
  rcases exec_committed config m t r with hsame | ⟨operation, _, hcommitted⟩
  · rw [hsame]
    exact (Committed.unchanged (.reopen false)).evolves
  · exact hcommitted.evolves

theorem exec_published (config : Config) (m : Memory) (t : Task) (r : Reading) :
    (exec config m t r).1.published = m.published ∨
      exists message nowMs correlationId sequence,
        t = .handOver message nowMs correlationId sequence ∧
        exec config m t r = ({ m with published := m.published ++ [(message,
          sealMessage config m message nowMs correlationId sequence (r.uuid4 0))] },
          .next []) := by
  cases t with
  | handOver message nowMs correlationId sequence =>
      exact Or.inr ⟨message, nowMs, correlationId, sequence, rfl, rfl⟩
  | _ =>
      left
      generalize hresult : exec config m _ r = result
      have heffect := hresult ▸ exec_effect config m _ r
      cases heffect with
      | quiet _ hpublished _ => exact hpublished
      | committed _ _ hpublished _ => exact hpublished
      | _ => rfl

structure Unnumbered (m : Memory) (result : Memory × Flow Task) : Prop where
  sequence : result.1.sequence = m.sequence
  process : result.1.process = m.process

theorem Unnumbered.attempt {m m' : Memory} {x : Except Exn value}
    {next : value -> Memory × Flow Task} (hsequence : m'.sequence = m.sequence)
    (hprocess : m'.process = m.process) (h : forall v, Unnumbered m (next v)) :
    Unnumbered m (Foundation.attempt m' x next) := by
  cases x with
  | ok v => exact h v
  | error e => exact ⟨hsequence, hprocess⟩

theorem Unnumbered.recorded {m : Memory} {x : Except Exn (Option String × CoordinatorStore)}
    {next : Memory -> Option String -> Memory × Flow Task}
    (h : forall store planId, Unnumbered m (next { m with store := store } planId)) :
    Unnumbered m (Ump.Coordinator.recorded m x next) :=
  .attempt rfl rfl (fun r => h r.2 r.1)

theorem exec_unnumbered (config : Config) (m : Memory) (t : Task) (r : Reading)
    (ht : forall message nowMs correlationId, t ≠ .publish message nowMs correlationId) :
    Unnumbered m (exec config m t r) := by
  cases t with
  | submit goal nowMs =>
      rw [exec]
      exact .attempt rfl rfl (fun _ => ⟨rfl, rfl⟩)
  | submitMany goals nowMs =>
      rw [exec]
      exact .attempt rfl rfl (fun _ => .attempt rfl rfl (fun _ => ⟨rfl, rfl⟩))
  | prepareMany goals prepared nowMs =>
      cases goals <;> rw [exec] <;> exact .attempt rfl rfl (fun _ => ⟨rfl, rfl⟩)
  | replan previousPlanId nowMs =>
      rw [exec]
      cases m.store.run? previousPlanId with
      | none => exact ⟨rfl, rfl⟩
      | some run => exact .attempt rfl rfl (fun _ => ⟨rfl, rfl⟩)
  | replanFrom previous goal nowMs =>
      rw [exec]
      exact .attempt rfl rfl (fun _ => .attempt rfl rfl (fun _ => .attempt rfl rfl
        (fun _ => .attempt rfl rfl (fun _ => ⟨rfl, rfl⟩))))
  | createRun goal plan assignments nowMs =>
      rw [exec]
      exact .attempt rfl rfl (fun _ => ⟨rfl, rfl⟩)
  | publish message nowMs correlationId => exact absurd rfl (ht message nowMs correlationId)
  | dispatchReady planId nowMs =>
      rw [exec]
      exact .attempt rfl rfl (fun _ => ⟨rfl, rfl⟩)
  | dispatch assignment nowMs =>
      rw [exec]
      exact .attempt rfl rfl (fun _ => ⟨rfl, rfl⟩)
  | outcome envelope =>
      rw [exec]
      apply Unnumbered.attempt rfl rfl
      rintro (_ | assignmentId)
      · exact ⟨rfl, rfl⟩
      · exact .attempt rfl rfl (fun _ => .attempt rfl rfl (fun _ => ⟨rfl, rfl⟩))
  | outcomeStatus assignmentId status nowMs =>
      rw [exec]
      split_ifs <;> exact ⟨rfl, rfl⟩
  | recordOutcome assignmentId status nowMs =>
      rw [exec]
      exact .recorded (fun _ _ => ⟨rfl, rfl⟩)
  | reconcileOutcome assignmentId status nowMs =>
      rw [exec]
      exact .recorded (fun _ _ => ⟨rfl, rfl⟩)
  | acknowledgement envelope =>
      rw [exec]
      apply Unnumbered.attempt rfl rfl
      rintro (_ | assignmentId)
      · exact ⟨rfl, rfl⟩
      · exact .attempt rfl rfl (fun _ => ⟨rfl, rfl⟩)
  | recordAcknowledgement assignmentId status nowMs =>
      rw [exec]
      exact .recorded (fun _ _ => ⟨rfl, rfl⟩)
  | cancellationAcknowledgement envelope =>
      rw [exec]
      apply Unnumbered.attempt rfl rfl
      rintro (_ | assignmentId)
      · exact ⟨rfl, rfl⟩
      · exact .attempt rfl rfl (fun _ => ⟨rfl, rfl⟩)
  | recordCancellationAcknowledgement assignmentId accepted nowMs =>
      rw [exec]
      exact .recorded (fun _ _ => ⟨rfl, rfl⟩)
  | assignmentSnapshot envelope =>
      rw [exec]
      apply Unnumbered.attempt rfl rfl
      rintro (_ | assignmentId)
      · exact ⟨rfl, rfl⟩
      · apply Unnumbered.attempt rfl rfl
        intro outcomeData
        split_ifs
        · exact ⟨rfl, rfl⟩
        · exact .attempt rfl rfl (fun _ => .attempt rfl rfl
            (fun _ => .attempt rfl rfl (fun _ => ⟨rfl, rfl⟩)))
  | reconcileSnapshot assignmentId status succeeded nowMs =>
      rw [exec]
      exact .recorded (fun _ _ => ⟨rfl, rfl⟩)
  | cancel planId reason nowMs =>
      rw [exec]
      exact .attempt rfl rfl (fun _ => .attempt rfl rfl (fun _ => ⟨rfl, rfl⟩))
  | _ => exact ⟨rfl, rfl⟩

theorem reaches_row {config : Config} {C : Condition Memory Task Reading Entry}
    {p q : Pool Memory Task} (h : (machine config).Reaches C p q) (row : StepRow)
    (hrow : row ∈ p.shared.store.runSteps.rows) :
    exists status, { row with status := status } ∈ q.shared.store.runSteps.rows ∧
      (row.status.settled = true -> status = row.status) := by
  have hevolves : forall {s s' : CoordinatorStore}, Evolves s s' ->
      forall row, row ∈ s.runSteps.rows -> exists status,
        { row with status := status } ∈ s'.runSteps.rows ∧
          (row.status.settled = true -> status = row.status) := by
    intro s s' hstep row hrow
    rcases hstep.kept row hrow with ⟨status, hkept, hmoves⟩
    exact ⟨status, hkept, fun hsettled => StepStatus.moves_of_settled hsettled hmoves⟩
  refine Machine.Reaches.relates (fun a b : Memory =>
    forall row, row ∈ a.store.runSteps.rows -> exists status,
      { row with status := status } ∈ b.store.runSteps.rows ∧
        (row.status.settled = true -> status = row.status)) ?_ ?_ ?_ ?_ h row hrow
  · exact fun _ row hrow => ⟨row.status, hrow, fun _ => rfl⟩
  · intro a b c hab hbc row hrow
    rcases hab row hrow with ⟨status, hkept, hsame⟩
    rcases hbc _ hkept with ⟨later, hlater, hlaterSame⟩
    refine ⟨later, hlater, ?_⟩
    intro hsettled
    have hstatus := hsame hsettled
    rw [← hstatus]
    exact hlaterSame (by rw [hstatus]; exact hsettled)
  · exact fun m t r => hevolves (exec_evolves config m t r)
  · exact fun m => hevolves Committed.recovered.evolves

theorem reaches_run {config : Config} {C : Condition Memory Task Reading Entry}
    {p q : Pool Memory Task} (h : (machine config).Reaches C p q) (run : RunRow)
    (hrun : run ∈ p.shared.store.runs.rows) :
    exists status, { run with status := status } ∈ q.shared.store.runs.rows := by
  refine Machine.Reaches.relates (fun a b : Memory =>
    forall run, run ∈ a.store.runs.rows -> exists status,
      { run with status := status } ∈ b.store.runs.rows) ?_ ?_ ?_ ?_ h run hrun
  · exact fun _ run hrun => ⟨run.status, hrun⟩
  · intro a b c hab hbc run hrun
    rcases hab run hrun with ⟨status, hkept⟩
    have hlater := hbc _ hkept
    exact hlater
  · exact fun m t r => (exec_evolves config m t r).runs
  · exact fun m => Committed.recovered.evolves.runs

inductive Starts : Entry -> Task -> Prop where
  | submit (goal : SharedGoal) (nowMs : Int) : Starts (.submit goal nowMs) (.submit goal nowMs)
  | submitMany (goals : List SharedGoal) (nowMs : Int) :
      Starts (.submitMany goals nowMs) (.submitMany goals nowMs)
  | replan (previousPlanId : String) (nowMs : Int) :
      Starts (.replan previousPlanId nowMs) (.replan previousPlanId nowMs)
  | acknowledgement {envelope : Envelope} (hkind : envelope.messageType = .assignmentAck) :
      Starts (.receive envelope) (.acknowledgement envelope)
  | outcome {envelope : Envelope} (hkind : envelope.messageType = .outcome) :
      Starts (.receive envelope) (.outcome envelope)
  | assignmentSnapshot {envelope : Envelope}
      (hkind : envelope.messageType = .assignmentSnapshot) :
      Starts (.receive envelope) (.assignmentSnapshot envelope)
  | cancellationAcknowledgement {envelope : Envelope}
      (hkind : envelope.messageType = .cancellationAck) :
      Starts (.receive envelope) (.cancellationAcknowledgement envelope)
  | cancel (planId reason : String) (nowMs : Int) :
      Starts (.cancel planId reason nowMs) (.cancel planId reason nowMs)
  | reconcile (planId : String) (nowMs : Int) :
      Starts (.reconcile planId nowMs) (.reconcile planId nowMs)
  | resumeActive (nowMs : Int) : Starts (.resumeActive nowMs) (.resumeActive nowMs)

theorem start_cases {entry : Entry} {t : Task} (ht : t ∈ start entry) : Starts entry t := by
  cases entry with
  | receive envelope =>
      unfold start at ht
      cases hkind : envelope.messageType <;> simp only [hkind] at ht <;>
        first
        | (rw [List.mem_singleton.mp ht]; constructor; exact hkind)
        | cases ht
  | _ =>
      rw [List.mem_singleton.mp ht]
      constructor

theorem start_quiet_prepared (entry : Entry) (t : Task) (ht : t ∈ start entry) :
    t.Quiet ∧ t.Prepared := by
  cases start_cases ht <;> exact ⟨⟨rfl, rfl⟩, trivial⟩

end Ump.Coordinator
