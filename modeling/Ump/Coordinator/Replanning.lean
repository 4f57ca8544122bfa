import Ump.Foundation.Thread
import Ump.Coordinator.ActiveDispatch
import Ump.Coordinator.Stranding
import Ump.Coordinator.Successors

/-!
# Replanning

## What a successor finds

`replan` looks at the status of the run that it replaces and at nothing else. A failed
run may have steps with a robot, and an unknown one may become active again. A run with
a failed or rejected step never does, nor does one whose steps have all succeeded or
been cancelled.
-/

namespace Ump.Coordinator

open Foundation CoordinatorStore

/-- A thread calls `replan` in `p`, and in `c` it creates the run of the successor. -/
inductive Replans (config : Config) (previousPlanId : String) (p c q : Pool Memory Task) :
    Prop where
  | creates {i : Nat} {nowMs : Int} {p' : Pool Memory Task} {m : Memory} {r r' r'' : Reading}
      {previous plan : Plan} {goal : SharedGoal} {assignments : List Assignment}
      (hcalled : p.nextTask i = some (.replan previousPlanId nowMs))
      (hguard : (machine config).step p (.run i r) = some p')
      (hplans : (machine config).Turns i p'
        [{ found := m, task := .replanFrom previous goal nowMs, reading := r' }] c)
      (hnext : c.nextTask i = some (.createRun goal plan assignments nowMs))
      (hnew : c.shared.store.run? plan.planId = none)
      (hcreates : (machine config).step c (.run i r'') = some q)
      (hstored : q.shared.store.run? plan.planId ≠ none)

/-- Every step of the plan is pending or has a known terminal status. -/
def SettledWork (s : CoordinatorStore) (planId : String) : Prop :=
  forall row, row ∈ s.runSteps.rows -> row.planId = planId ->
    row.status = .pending ∨ row.status.settled = true

/-- The run has a failed or rejected step, or only succeeded and cancelled ones. -/
structure Closed (s : CoordinatorStore) (planId : String) : Prop where
  stored : exists run, run ∈ s.runs.rows ∧ run.planId = planId
  steps : (exists row, row ∈ s.runSteps.rows ∧ row.planId = planId ∧
      (row.status = .failed ∨ row.status = .rejected)) ∨
    forall row, row ∈ s.runSteps.rows -> row.planId = planId ->
      row.status = .succeeded ∨ row.status = .cancelled

def Memory.publishedFor (m : Memory) (planId : String) : List Assignment :=
  m.publishedAssignments.filter
    (fun a => m.store.planForAssignment a.assignmentId == some planId)

/-!
## Closed runs
-/

theorem Closed.evolves {s s' : CoordinatorStore} {planId : String} (h : Closed s planId)
    (hevolves : Evolves s s') : Closed s' planId := by
  rcases h.stored with ⟨run, hrun, hplan⟩
  constructor
  · rcases hevolves.runs run hrun with ⟨status, hkept⟩
    exact ⟨_, hkept, hplan⟩
  · rcases h.steps with ⟨row, hrow, hrowPlan, hstatus⟩ | hended
    · left
      have hsettled : row.status.settled = true := by
        rcases hstatus with hstatus | hstatus <;> rw [hstatus] <;> rfl
      exact ⟨row, hevolves.settled hrow hsettled, hrowPlan, hstatus⟩
    · right
      intro row' hrow' hrowPlan
      rcases hevolves.origin row' hrow' with ⟨row, hrow, hsame, hmoves⟩ |
        ⟨otherPlan, a, rfl, hnone, _⟩
      · have hbefore := hended row hrow ((congrArg StepRow.planId hsame).symm.trans hrowPlan)
        have hsettled : row.status.settled = true := by
          rcases hbefore with hstatus | hstatus <;> rw [hstatus] <;> rfl
        rw [StepStatus.moves_of_settled hsettled hmoves]
        exact hbefore
      · exact absurd (hplan.trans hrowPlan.symm) (run?_eq_none.mp hnone run hrun)

theorem Closed.not_active {s : CoordinatorStore} {planId : String} (h : Closed s planId)
    (hconsistent : s.Consistent) : ¬ RunActive s planId := by
  rintro ⟨run, hrun, rfl, hactive⟩
  rw [hconsistent.refreshed run hrun] at hactive
  rcases refreshStatus_eq_active.mp hactive with ⟨_, hfailed, hrejected, x, hx, hne⟩
  rcases h.steps with ⟨row, hrow, hplan, hstatus⟩ | hended
  · rcases hstatus with hstatus | hstatus
    · exact hfailed (mem_stepStatuses.mpr ⟨row, hrow, hplan, hstatus⟩)
    · exact hrejected (mem_stepStatuses.mpr ⟨row, hrow, hplan, hstatus⟩)
  · rcases mem_stepStatuses.mp hx with ⟨row, hrow, hplan, rfl⟩
    rcases hended row hrow hplan with hstatus | hstatus
    · exact hne.1 hstatus
    · exact hne.2 hstatus

theorem closed_or_unknown {s : CoordinatorStore} (hconsistent : s.Consistent) {run : RunRow}
    (hrun : run ∈ s.runs.rows) (hinactive : run.status ≠ .active) :
    Closed s run.planId ∨ StepStatus.unknown ∈ s.stepStatuses run.planId := by
  by_cases hunknown : StepStatus.unknown ∈ s.stepStatuses run.planId
  · exact Or.inr hunknown
  · left
    refine ⟨⟨run, hrun, rfl⟩, ?_⟩
    by_contra hopen
    rcases not_or.mp hopen with ⟨hnone, hnotEnded⟩
    simp only [not_forall] at hnotEnded
    rcases hnotEnded with ⟨row, hrow, hplan, hne⟩
    apply hinactive
    rw [hconsistent.refreshed run hrun]
    refine refreshStatus_eq_active.mpr ⟨hunknown, ?_, ?_, row.status,
      mem_stepStatuses.mpr ⟨row, hrow, hplan, rfl⟩, not_or.mp hne⟩
    · intro hfailed
      rcases mem_stepStatuses.mp hfailed with ⟨other, hother, hotherPlan, hstatus⟩
      exact hnone ⟨other, hother, hotherPlan, Or.inl hstatus⟩
    · intro hrejected
      rcases mem_stepStatuses.mp hrejected with ⟨other, hother, hotherPlan, hstatus⟩
      exact hnone ⟨other, hother, hotherPlan, Or.inr hstatus⟩

theorem SettledWork.closed {s : CoordinatorStore} {planId : String}
    (h : SettledWork s planId) (hconsistent : s.Consistent) {run : RunRow}
    (hrun : run ∈ s.runs.rows) (hplan : run.planId = planId)
    (hinactive : run.status ≠ .active) : Closed s planId := by
  subst hplan
  rcases closed_or_unknown hconsistent hrun hinactive with hclosed | hunknown
  · exact hclosed
  · rcases mem_stepStatuses.mp hunknown with ⟨row, hrow, hplan, hstatus⟩
    rcases h row hrow hplan with hpending | hsettled
    · rw [hpending] at hstatus
      cases hstatus
    · rw [hstatus] at hsettled
      cases hsettled

theorem CoordinatorStore.Operation.target?_ne_dispatched (operation : Operation)
    {assignmentId : String} {target : StepStatus}
    (h : operation.target? = some (assignmentId, target)) : target ≠ .dispatched := by
  rintro rfl
  cases operation with
  | recordCancellationAcknowledgement id accepted nowMs => cases accepted <;> cases h
  | recordAcknowledgement id status nowMs => cases status <;> cases h
  | recordOutcome id status nowMs => cases status <;> cases h
  | reconcileOutcome id status nowMs => cases status <;> cases h
  | _ => cases h

/-!
## Retired plans

A closed run whose assignments no thread holds stays so, and publishes nothing more.
-/

structure Retired (planId : String) (m : Memory) (ts : Multiset Task) : Prop where
  closed : Closed m.store planId
  unheld : ¬ Held m.store ts planId

def Steady (m : Memory) (ts : Multiset Task) : Prop :=
  Ordered m ts ∧ Recorded m ts

theorem reaches_steady {config : Config} {p q : Pool Memory Task}
    (hp : (machine config).Reaches .always initial p)
    (hq : (machine config).Reaches .always p q) : Steady q.shared q.tasks :=
  ⟨reaches_ordered (hp.trans hq), reaches_recorded (hp.trans hq)⟩

theorem retired_keeps (config : Config) (planId : String) :
    (machine config).Keeps .always Steady (Retired planId) where
  drop h hle := ⟨h.closed, fun hheld =>
    h.unheld (hheld.mono (fun t ht => Multiset.mem_of_le hle ht))⟩
  spawn {m ts entry} _ h _ := by
    refine ⟨h.closed, ?_⟩
    intro hheld
    rw [add_comm] at hheld
    exact h.unheld (hheld.of_quiet (fun t ht => (start_quiet_prepared entry t ht).1))
  crash {m ts} _ h := by
    refine ⟨h.closed.evolves Committed.recovered.evolves, ?_⟩
    rintro ⟨t, _, _, ht, _⟩
    cases Multiset.notMem_zero t ht
  exec {m t ts r} hsteady h _ := by
    refine ⟨h.closed.evolves (exec_evolves config m t r), ?_⟩
    intro hheld
    rcases Held.before hsteady.1 hheld with hbefore | hactive
    · exact h.unheld hbefore
    · exact h.closed.not_active hsteady.2.planned.consistent hactive

theorem CoordinatorStore.Committed.dispatched {s s' : CoordinatorStore} {operation : Operation}
    (h : Committed s operation s') {row : StepRow} (hrow : row ∈ s.runSteps.rows)
    (hpending : row.status = .pending)
    (hdispatched : { row with status := .dispatched } ∈ s'.runSteps.rows) :
    exists nowMs, operation = .markDispatched row.assignmentId nowMs := by
  have hrestated : forall f : StepRow -> StepStatus,
      { row with status := .dispatched } ∈
        s.runSteps.rows.map (fun other => { other with status := f other }) ->
      f row = .dispatched := by
    intro f hmem
    rcases List.mem_map.mp hmem with ⟨other, hother, hsame⟩
    have hid : other.assignmentId = row.assignmentId := (StepRow.mk.inj hsame).1
    rw [eq_of_assignmentId hother hrow hid] at hsame
    exact (StepRow.mk.inj hsame).2.2.2.2.2
  have hunchanged : { row with status := .dispatched } ∉ s.runSteps.rows := by
    intro hmem
    have hsame := hrestated (fun other => other.status) (by simpa using hmem)
    rw [hpending] at hsame
    cases hsame
  cases h with
  | unchanged => exact (hunchanged hdispatched).elim
  | created hnew hruns hsteps =>
      rw [hsteps] at hdispatched
      rcases List.mem_append.mp hdispatched with hold | hfresh
      · exact (hunchanged hold).elim
      · rcases List.mem_map.mp hfresh with ⟨a, _, hsame⟩
        cases (StepRow.mk.inj hsame).2.2.2.2.2
  | marked assignmentId nowMs =>
      have hrows : (s.marked assignmentId).runSteps.rows = _ := rows_setSteps _ _ _
      rw [hrows] at hdispatched
      have hstatus := hrestated _ hdispatched
      by_cases hid : row.assignmentId = assignmentId
      · exact ⟨nowMs, by rw [hid]⟩
      · simp [hid, hpending] at hstatus
  | @written _ other target hother htarget hmoves =>
      have hrows : (s.written other target).runSteps.rows = _ := rows_setSteps _ _ _
      rw [hrows] at hdispatched
      have hstatus := hrestated _ hdispatched
      have hne : target ≠ .dispatched := operation.target?_ne_dispatched htarget
      by_cases hid : row.assignmentId = other.assignmentId
      · exact absurd (by simpa [hid] using hstatus) hne
      · simp [hid, hpending] at hstatus
  | refreshed _ planId => exact (hunchanged hdispatched).elim
  | cancelled planId nowMs =>
      rw [rows_cancelled] at hdispatched
      have hstatus := hrestated _ hdispatched
      unfold cancelledStatus at hstatus
      by_cases hplan : row.planId = planId <;> simp [hplan, hpending] at hstatus
  | recovered =>
      have hrows : s.recoverInterruptedRuns.runSteps.rows = _ := rows_setSteps _ _ _
      rw [hrows] at hdispatched
      have hstatus := hrestated _ hdispatched
      simp [hpending, StepStatus.interrupted] at hstatus

theorem SettledWork.committed {s s' : CoordinatorStore} {planId : String}
    {operation : Operation} (h : SettledWork s planId) (hcommitted : Committed s operation s')
    (hunmarked : forall row nowMs, row ∈ s.runSteps.rows -> row.planId = planId ->
      row.status = .pending -> operation ≠ .markDispatched row.assignmentId nowMs) :
    SettledWork s' planId := by
  intro row' hrow' hplan
  rcases hcommitted.evolves.origin row' hrow' with ⟨row, hrow, hsame, hmoves⟩ |
    ⟨otherPlan, a, rfl, hnone, _⟩
  · have hrowPlan : row.planId = planId := (congrArg StepRow.planId hsame).symm.trans hplan
    rcases h row hrow hrowPlan with hpending | hsettled
    · rw [hpending] at hmoves
      cases hstatus : row'.status with
      | pending => exact Or.inl rfl
      | cancelled => exact Or.inr rfl
      | dispatched =>
          rw [hsame, hstatus] at hrow'
          rcases hcommitted.dispatched hrow hpending hrow' with ⟨nowMs, hmark⟩
          exact absurd hmark (hunmarked row nowMs hrow hrowPlan hpending)
      | _ =>
          rw [hstatus] at hmoves
          cases hmoves
    · rw [StepStatus.moves_of_settled hsettled hmoves]
      exact Or.inr hsettled
  · exact Or.inl rfl

theorem listed_of_marks {t : Task} {assignmentId : String} {nowMs : Int}
    (h : t.operation? = some (.markDispatched assignmentId nowMs)) :
    exists a, t.listed? = some a ∧ a.assignmentId = assignmentId := by
  cases t with
  | dispatch a nowMs =>
      cases h
      exact ⟨a, rfl, rfl⟩
  | _ => cases h

theorem settledWork_keeps (config : Config) (planId : String) :
    (machine config).Keeps .always (Retired planId)
      (fun m _ => SettledWork m.store planId) where
  drop h _ := h
  spawn _ h _ := h
  crash {m ts} hretired h := by
    apply h.committed Committed.recovered
    intro row nowMs _ _ _ hmark
    cases hmark
  exec {m t ts r} hretired h _ := by
    show SettledWork (exec config m t r).1.store planId
    rcases exec_committed config m t r with hsame | ⟨operation, hoperation, hcommitted⟩
    · rw [hsame]
      exact h
    · apply h.committed hcommitted
      rintro row nowMs hrow hplan hpending rfl
      rcases listed_of_marks hoperation with ⟨a, hlisted, hid⟩
      exact hretired.unheld ⟨t, a, row, Multiset.mem_cons_self t ts, hrow, hid.symm, hplan,
        Or.inl ⟨hlisted, hpending⟩⟩

/-!
## From the guard to the creation
-/

theorem Replans.inversion {config : Config} {planId : String} {p c q : Pool Memory Task}
    (h : Replans config planId p c q) :
    (exists run, run ∈ p.shared.store.runs.rows ∧ run.planId = planId ∧
      run.status ≠ .active) ∧
    (machine config).Reaches .always p c ∧ (machine config).Reaches .always c q := by
  cases h with
  | @creates i nowMs p' m r _ _ _ _ _ _ hcalled hguard hplans _ _ hcreates _ =>
      refine ⟨?_, .head ⟨_, Machine.meets_always p _, hguard⟩ hplans.reaches,
        .single ⟨_, Machine.meets_always c _, hcreates⟩⟩
      cases Machine.stepped_of_step hguard with
      | @ran _ t rest _ hthread =>
          have htask : t = .replan planId nowMs := by
            simpa [Pool.nextTask, hthread] using hcalled
          subst htask
          have hi := (List.getElem?_eq_some_iff.mp hthread).1
          have hgoes : (exec config p.shared (.replan planId nowMs) r).2 ≠ .raised := by
            intro hraised
            have hempty : (p.threads.set i
                (((machine config).exec p.shared (.replan planId nowMs) r).2.resume rest))[i]? =
                  some [] := by
              rw [show (machine config).exec p.shared (.replan planId nowMs) r =
                exec config p.shared (.replan planId nowMs) r from rfl, hraised]
              simp [Flow.resume, hi]
            cases hplans.nil hempty
          rw [exec] at hgoes
          cases hrun : p.shared.store.run? planId with
          | none =>
              rw [hrun] at hgoes
              exact (hgoes rfl).elim
          | some run =>
              rcases run?_eq_some hrun with ⟨hmem, hplan⟩
              refine ⟨run, hmem, hplan, ?_⟩
              intro hactive
              simp only [hrun, hactive] at hgoes
              exact hgoes rfl

/-- Where no step is with a robot or unknown and no thread holds an assignment of the
plan when `replan` reads its run, the successor is created over settled work, which
stays settled. -/
theorem replans_settled_work (config : Config) (previousPlanId : String)
    (p c q later : Pool Memory Task) (hp : (machine config).Reaches .always initial p)
    (hreplans : Replans config previousPlanId p c q)
    (hsettled : SettledWork p.shared.store previousPlanId)
    (hunheld : ¬ Held p.shared.store p.tasks previousPlanId)
    (hlater : (machine config).Reaches .always c later) :
    SettledWork later.shared.store previousPlanId := by
  rcases hreplans.inversion with ⟨⟨run, hrun, hplan, hinactive⟩, hc, _⟩
  have hsteady : forall x, (machine config).Reaches .always p x -> Steady x.shared x.tasks :=
    fun x hx => reaches_steady hp hx
  have hclosed : Closed p.shared.store previousPlanId :=
    hsettled.closed (hsteady p .refl).2.planned.consistent hrun hplan hinactive
  have hretired : forall x, (machine config).Reaches .always p x ->
      Retired previousPlanId x.shared x.tasks :=
    fun x hx => (retired_keeps config previousPlanId).reaches hx hsteady ⟨hclosed, hunheld⟩
  exact (settledWork_keeps config previousPlanId).reaches (hc.trans hlater) hretired hsettled

/-!
## After the creation
-/

theorem planForAssignment_of_mem {s : CoordinatorStore} {row : StepRow}
    (hrow : row ∈ s.runSteps.rows) : s.planForAssignment row.assignmentId = some row.planId := by
  unfold planForAssignment
  rw [step?_of_mem hrow]
  rfl

theorem planForAssignment_evolves {s s' : CoordinatorStore} (h : Evolves s s') {a : Assignment}
    (hdue : Due s a) :
    s'.planForAssignment a.assignmentId = s.planForAssignment a.assignmentId := by
  rcases hdue with ⟨row, hrow, _, hid, _⟩
  rcases h.kept row hrow with ⟨status, hkept, _⟩
  have hlater := planForAssignment_of_mem hkept
  rw [← hid, planForAssignment_of_mem hrow]
  exact hlater

theorem publishedFor_evolves {m m' : Memory} {ts : Multiset Task} (h : Ordered m ts)
    (hevolves : Evolves m.store m'.store) (hpublished : m'.published = m.published)
    (planId : String) : m'.publishedFor planId = m.publishedFor planId := by
  unfold Memory.publishedFor Memory.publishedAssignments
  rw [hpublished]
  apply List.filter_congr
  intro a ha
  rw [planForAssignment_evolves hevolves (h.published a ha).1]

theorem publishedFor_keeps (config : Config) (planId : String) (published : List Assignment) :
    (machine config).Keeps .always (fun m ts => Steady m ts ∧ Retired planId m ts)
      (fun m _ => m.publishedFor planId = published) where
  drop h _ := h
  spawn _ h _ := h
  crash {m ts} hJ h := by
    have hevolves : Evolves m.store m.restart.store := Committed.recovered.evolves
    exact (publishedFor_evolves hJ.1.1 hevolves rfl planId).trans h
  exec {m t ts r} hJ h _ := by
    show (exec config m t r).1.publishedFor planId = published
    rcases exec_published config m t r with hsame |
      ⟨message, nowMs, correlationId, sequence, rfl, hexec⟩
    · rw [← h]
      exact publishedFor_evolves hJ.1.1 (exec_evolves config m t r) hsame planId
    · rw [hexec, ← h]
      unfold Memory.publishedFor Memory.publishedAssignments
      rw [List.filterMap_append, List.filter_append]
      cases hmessage : message.assignment? with
      | none => simp [hmessage]
      | some a =>
          have hcarried : (Task.handOver message nowMs correlationId sequence).carried? =
              some a := by
            cases message <;> exact hmessage
          rcases (hJ.1.1.carried _ a (Multiset.mem_cons_self _ ts) hcarried).1 with
            ⟨row, hrow, _, hid, _⟩
          have hother : row.planId ≠ planId := by
            intro hplan
            exact hJ.2.unheld ⟨_, a, row, Multiset.mem_cons_self _ ts, hrow, hid, hplan,
              Or.inr hcarried⟩
          have hplanFor : m.store.planForAssignment a.assignmentId = some row.planId := by
            rw [← hid]
            exact planForAssignment_of_mem hrow
          simp [hmessage, hplanFor, hother]

theorem cancelled_active {s : CoordinatorStore} {planId : String}
    (hconsistent : (s.cancelled planId).Consistent) {run : RunRow} (hrun : run ∈ s.runs.rows)
    (hplan : run.planId = planId) (hopen : ¬ Closed s planId)
    (hunknown : StepStatus.unknown ∈ s.stepStatuses planId) :
    RunActive (s.cancelled planId) planId := by
  have hcommitted : Committed s (.requestCancellation planId 0) (s.cancelled planId) :=
    .cancelled planId 0
  rcases hcommitted.evolves.runs run hrun with ⟨status, hkept⟩
  refine ⟨_, hkept, hplan, ?_⟩
  have hstatuses : (s.cancelled planId).stepStatuses planId = _ :=
    stepStatuses_of_map (rows_cancelled s planId) planId
  have hnotFailed : forall x, x = StepStatus.unknown ∨ x = .failed ∨ x = .rejected ->
      x ∉ (s.cancelled planId).stepStatuses planId := by
    intro x hx hmem
    rw [hstatuses] at hmem
    rcases List.mem_map.mp hmem with ⟨row, hrow, rfl⟩
    rcases List.mem_filter.mp hrow with ⟨hrow, hrowPlan⟩
    have hrowPlan : row.planId = planId := by simpa using hrowPlan
    have hnone : row.status ≠ .failed ∧ row.status ≠ .rejected := by
      constructor <;> intro hstatus <;> apply hopen <;>
        exact ⟨⟨run, hrun, hplan⟩, Or.inl ⟨row, hrow, hrowPlan, by simp [hstatus]⟩⟩
    unfold cancelledStatus at hx
    cases hstatus : row.status <;>
      simp [hrowPlan, hstatus, StepStatus.cancellable] at hx hnone
  have hrefreshed := hconsistent.refreshed _ hkept
  have hplanStatuses : refreshStatus ((s.cancelled planId).stepStatuses planId) = .active := by
    apply refreshStatus_eq_active.mpr
    refine ⟨hnotFailed _ (Or.inl rfl), hnotFailed _ (Or.inr (Or.inl rfl)),
      hnotFailed _ (Or.inr (Or.inr rfl)), .cancellationRequested, ?_, by decide, by decide⟩
    rcases mem_stepStatuses.mp hunknown with ⟨row, hrow, hrowPlan, hstatus⟩
    rw [hstatuses]
    refine List.mem_map.mpr ⟨row, List.mem_filter.mpr ⟨hrow, by simpa using hrowPlan⟩, ?_⟩
    simp [cancelledStatus, hrowPlan, hstatus, StepStatus.cancellable]
  rw [show status = refreshStatus _ from hrefreshed]
  simp only [hplan]
  exact hplanStatuses

theorem Closed.of_extended {s s' : CoordinatorStore} {planId : String} {operation : Operation}
    (h : Closed s' planId) (hextended : Extended s s' operation)
    (hstored : exists run, run ∈ s.runs.rows ∧ run.planId = planId) : Closed s planId := by
  rcases hextended with ⟨goal, plan, assignments, nowMs, _, _, _, hsteps⟩
  refine ⟨hstored, ?_⟩
  rcases h.steps with ⟨row, hrow, hplan, hstatus⟩ | hended
  · left
    rw [hsteps] at hrow
    rcases List.mem_append.mp hrow with hold | hnew
    · exact ⟨row, hold, hplan, hstatus⟩
    · rcases List.mem_map.mp hnew with ⟨a, _, rfl⟩
      rcases hstatus with hstatus | hstatus <;> cases hstatus
  · right
    intro row hrow hplan
    apply hended row _ hplan
    rw [hsteps]
    exact List.mem_append_left _ hrow

theorem Replans.extended {config : Config} {planId : String} {p c q : Pool Memory Task}
    (h : Replans config planId p c q) :
    exists operation, Extended c.shared.store q.shared.store operation := by
  cases h with
  | @creates _ nowMs _ _ _ _ r _ plan goal assignments _ _ _ hnext hnew hcreates hstored =>
      have hshared :
          q.shared = (exec config c.shared (.createRun goal plan assignments nowMs) r).1 :=
        Machine.shared_of_run hnext hcreates
      have heffect := exec_committed config c.shared (.createRun goal plan assignments nowMs) r
      rw [← hshared] at heffect
      rcases heffect with hsame | ⟨operation, _, hcommitted⟩
      · rw [hsame] at hstored
        exact (hstored hnew).elim
      · rcases hcommitted.restated_or_extended with ⟨_, g, _, hruns, _⟩ | hextended
        · refine (hstored (run?_eq_none.mpr ?_)).elim
          intro run' hrun'
          rw [hruns] at hrun'
          rcases List.mem_map.mp hrun' with ⟨run, hrun, rfl⟩
          exact run?_eq_none.mp hnew run hrun
        · exact ⟨operation, hextended⟩

theorem exec_cancel (config : Config) {m : Memory} {planId : String} {run : RunRow}
    (hrun : run ∈ m.store.runs.rows) (hplan : run.planId = planId) :
    exists flow, exec config m (.cancel planId "stop" 0) (patrolReading []) =
      ({ m with store := m.store.cancelled planId }, flow) := by
  have hreason : requiredText "stop" "cancellation reason" maxLongTextBytes = .ok () := rfl
  have hrequest : m.store.requestCancellation planId 0 = .ok
      ((m.store.runSteps.rows.filter (fun row => row.planId == planId &&
        row.status.cancellable)).map (fun row => row.assignment), m.store.cancelled planId) := by
    unfold requestCancellation
    rw [← hplan, run?_of_mem hrun]
    rfl
  rw [exec, hreason, hrequest]
  exact ⟨_, rfl⟩

theorem exists_active {config : Config} {q : Pool Memory Task} {planId : String} {run : RunRow}
    (hq : (machine config).Reaches .always initial q) (hrun : run ∈ q.shared.store.runs.rows)
    (hplan : run.planId = planId) (hopen : ¬ Closed q.shared.store planId) :
    exists later, (machine config).Reaches .always q later ∧
      RunActive later.shared.store planId := by
  by_cases hactive : RunActive q.shared.store planId
  · exact ⟨q, .refl, hactive⟩
  · have hinactive : run.status ≠ .active := fun h => hactive ⟨run, hrun, hplan, h⟩
    have hconsistent := (reaches_recorded hq).planned.consistent
    have hunknown : StepStatus.unknown ∈ q.shared.store.stepStatuses planId := by
      rw [← hplan]
      rcases closed_or_unknown hconsistent hrun hinactive with hclosed | hunknown
      · exact (hopen (hplan ▸ hclosed)).elim
      · exact hunknown
    rcases exec_cancel config hrun hplan with ⟨flow, hexec⟩
    have hthread : (q.threads ++ [[Task.cancel planId "stop" 0]])[q.threads.length]? =
        some [.cancel planId "stop" 0] := by
      simp
    have hcalled : (machine config).step q (.spawn (.cancel planId "stop" 0)) =
        some { q with threads := q.threads ++ [[.cancel planId "stop" 0]] } := rfl
    have hturn : (machine config).step
        { q with threads := q.threads ++ [[.cancel planId "stop" 0]] }
        (.run q.threads.length (patrolReading [])) = some _ := Machine.step_run hthread hexec
    have hlater : (machine config).Reaches .always q _ :=
      .head ⟨_, Machine.meets_always q _, hcalled⟩ (.single ⟨_, Machine.meets_always _ _, hturn⟩)
    have hlaterConsistent := (reaches_recorded (hq.trans hlater)).planned.consistent
    exact ⟨_, hlater, cancelled_active hlaterConsistent hrun hplan hopen hunknown⟩

/-- If the replaced run is closed and no thread holds an assignment of it when its
successor is created, it is never active again and publishes nothing more. If it is not
closed, some later state has it active again. -/
theorem replanned_run_stays_dead (config : Config) (previousPlanId : String)
    (p c q : Pool Memory Task) (hp : (machine config).Reaches .always initial p)
    (hreplans : Replans config previousPlanId p c q) :
    (Closed c.shared.store previousPlanId ∧ ¬ Held c.shared.store c.tasks previousPlanId ->
      forall later, (machine config).Reaches .always q later ->
        ¬ RunActive later.shared.store previousPlanId ∧
          later.shared.publishedFor previousPlanId = q.shared.publishedFor previousPlanId) ∧
    (¬ Closed c.shared.store previousPlanId ->
      exists later, (machine config).Reaches .always q later ∧
        RunActive later.shared.store previousPlanId) := by
  rcases hreplans.inversion with ⟨⟨run, hrun, hplan, _⟩, hc, hq⟩
  constructor
  · rintro ⟨hclosed, hunheld⟩ later hlater
    have hsteady : forall x, (machine config).Reaches .always c x -> Steady x.shared x.tasks :=
      fun x hx => reaches_steady (hp.trans hc) hx
    have hretired : forall x, (machine config).Reaches .always c x ->
        Retired previousPlanId x.shared x.tasks :=
      fun x hx => (retired_keeps config previousPlanId).reaches hx hsteady ⟨hclosed, hunheld⟩
    constructor
    · exact (hretired later (hq.trans hlater)).closed.not_active
        (hsteady later (hq.trans hlater)).2.planned.consistent
    · exact (publishedFor_keeps config previousPlanId _).reaches hlater
        (fun x hx => ⟨hsteady x (hq.trans hx), hretired x (hq.trans hx)⟩) rfl
  · intro hopen
    rcases hreplans.extended with ⟨operation, hextended⟩
    rcases reaches_run hc run hrun with ⟨status, hcrun⟩
    rcases reaches_run hq _ hcrun with ⟨last, hqrun⟩
    apply exists_active (hp.trans (hc.trans hq)) hqrun hplan
    exact fun hclosed => hopen (hclosed.of_extended hextended ⟨_, hcrun, hplan⟩)

/-!
## Three successors of the small mission

A thread that calls `replan` and is not interrupted creates the successor. The first run
has failed and its second step was never sent. In the second one the other step is still
with its robot. The third one is unknown after a restart and goes on later.
-/

def withThread (p : Pool Memory Task) (thread : List Task) : Pool Memory Task :=
  { p with threads := p.threads ++ [thread] }

theorem step_withThread {config : Config} {p : Pool Memory Task} {t : Task} {rest : List Task}
    {r : Reading} {m : Memory} {flow : Flow Task} (h : exec config p.shared t r = (m, flow)) :
    (machine config).step (withThread p (t :: rest)) (.run p.threads.length r) =
      some (withThread { p with shared := m } (flow.resume rest)) := by
  have hthread : (withThread p (t :: rest)).threads[p.threads.length]? = some (t :: rest) := by
    simp [withThread]
  have hexec : (machine config).exec (withThread p (t :: rest)).shared t r = (m, flow) := h
  rw [Machine.step_run hthread hexec]
  simp [withThread]

theorem nextTask_withThread (p : Pool Memory Task) (t : Task) (rest : List Task) :
    (withThread p (t :: rest)).nextTask p.threads.length = some t := by
  simp [withThread, Pool.nextTask]

theorem exec_replan {config : Config} {m : Memory} {planId : String} {run : RunRow} {nowMs : Int}
    (r : Reading) (hrun : m.store.run? planId = some run) (hinactive : run.status ≠ .active) :
    exec config m (.replan planId nowMs) r =
      (m, .next [.replanFrom run.plan run.goal nowMs]) := by
  rw [exec, hrun]
  simp [refuseWhen, hinactive, attempt]

theorem exec_replanFrom {config : Config} {m : Memory} {previous plan : Plan} {goal : SharedGoal}
    {assignments : List Assignment} {nowMs : Int} {r : Reading}
    (hprepare : prepare config goal nowMs r = .ok (plan, assignments))
    (hsupersedes : Supersedes plan previous) :
    exec config m (.replanFrom previous goal nowMs) r =
      (m, .next (created goal plan assignments nowMs)) := by
  rw [exec, hprepare]
  simp [refuseWhen, hsupersedes.planId, hsupersedes.revision, hsupersedes.supersedesPlanId,
    attempt, created]

theorem exec_createRun {config : Config} {m : Memory} {goal : SharedGoal} {plan : Plan}
    {assignments : List Assignment} {nowMs : Int} {store : CoordinatorStore} (r : Reading)
    (hcreate : m.store.createRun goal plan assignments nowMs = .ok store) :
    exec config m (.createRun goal plan assignments nowMs) r =
      ({ m with store := store }, .next []) := by
  rw [exec, hcreate]
  rfl

theorem replans_alone {config : Config} {p : Pool Memory Task} {planId : String} {run : RunRow}
    {nowMs : Int} {r : Reading} {plan : Plan} {assignments : List Assignment}
    {store : CoordinatorStore} (hrun : p.shared.store.run? planId = some run)
    (hinactive : run.status ≠ .active)
    (hprepare : prepare config run.goal nowMs r = .ok (plan, assignments))
    (hsupersedes : Supersedes plan run.plan) (hnew : p.shared.store.run? plan.planId = none)
    (hcreate : p.shared.store.createRun run.goal plan assignments nowMs = .ok store)
    (hstored : store.run? plan.planId ≠ none) :
    Replans config planId (withThread p [.replan planId nowMs])
      (withThread p (created run.goal plan assignments nowMs))
      (withThread { p with shared := { p.shared with store := store } }
        (announce run.goal plan nowMs)) := by
  exact .creates (nextTask_withThread p _ _) (step_withThread (exec_replan r hrun hinactive))
    (.own (nextTask_withThread p _ _) (step_withThread (exec_replanFrom hprepare hsupersedes))
      (.here _))
    (nextTask_withThread p _ _) hnew (step_withThread (exec_createRun r hcreate)) hstored

def patrolSuccessor : Plan :=
  { patrolPlan "q" (patrolSteps []) with revision := 2, supersedesPlanId := some "p" }

def patrolSuccessorAssignments : List Assignment :=
  [patrolAssignment "d" "q" (patrolStep "s1" "r1" []),
    patrolAssignment "e" "q" (patrolStep "s2" "r2" [])]

def patrolReplanning : Reading :=
  { patrolReading [] with
    uuid4 := fun i => if i = 0 then "d" else "e"
    proposal := some patrolSuccessor }

set_option maxRecDepth 8000 in
theorem byteSize_patrolSuccessor : Text.byteSize patrolSuccessor.payload.dumps ≤ 60000 := by
  decide +kernel

set_option maxRecDepth 8000 in
theorem prepare_patrolSuccessor : prepare patrolConfig patrolGoal 0 patrolReplanning =
    .ok (patrolSuccessor, patrolSuccessorAssignments) := by
  unfold prepare validatePlan
  rw [validateCoreMessageSize_ok byteSize_patrolGoal]
  simp only [patrolReplanning]
  rw [validateCoreMessageSize_ok byteSize_patrolSuccessor]
  rfl

def patrolAfter (dependsOn : List String) (moves : List (Action Reading Entry)) :
    Pool Memory Task :=
  ((machine patrolConfig).run (patrolSubmitted dependsOn) moves).getD initial

theorem patrolAfter_reached {dependsOn : List String} {moves : List (Action Reading Entry)}
    (h : dependsOn = [] ∨ dependsOn = ["s1"]) :
    (machine patrolConfig).Reaches .always initial (patrolAfter dependsOn moves) := by
  unfold patrolAfter
  cases hrun : (machine patrolConfig).run (patrolSubmitted dependsOn) moves with
  | none => exact .refl
  | some p => exact (patrolSubmitted_reached h trivial trivial).trans (Machine.run_reaches hrun)

theorem withThread_reached {p : Pool Memory Task}
    (h : (machine patrolConfig).Reaches .always initial p) (planId : String) :
    (machine patrolConfig).Reaches .always initial (withThread p [.replan planId 0]) :=
  .tail h ⟨.spawn (.replan planId 0), trivial, rfl⟩

theorem patrolSuccessor_supersedes (dependsOn : List String) :
    Supersedes patrolSuccessor (patrolPlan "p" (patrolSteps dependsOn)) where
  planId := by
    show ("q" : String) ≠ "p"
    decide
  revision := rfl
  supersedesPlanId := rfl

theorem patrol_replans (dependsOn : List String) (status : RunStatus) {p : Pool Memory Task}
    {store : CoordinatorStore} (hrun : p.shared.store.run? "p" = some
      { newRun patrolGoal (patrolPlan "p" (patrolSteps dependsOn)) 0 with status := status })
    (hinactive : status ≠ .active) (hnew : p.shared.store.run? "q" = none)
    (hcreate : p.shared.store.createRun patrolGoal patrolSuccessor
      patrolSuccessorAssignments 0 = .ok store) (hstored : store.run? "q" ≠ none) :
    Replans patrolConfig "p" (withThread p [.replan "p" 0])
      (withThread p (created patrolGoal patrolSuccessor patrolSuccessorAssignments 0))
      (withThread { p with shared := { p.shared with store := store } }
        (announce patrolGoal patrolSuccessor 0)) :=
  replans_alone hrun hinactive prepare_patrolSuccessor (patrolSuccessor_supersedes dependsOn)
    hnew hcreate hstored

theorem not_held_of_idle {p : Pool Memory Task} {thread : List Task} {planId : String}
    (hthreads : p.threads.flatten = []) (hidle : thread.all (fun t => !t.working) = true) :
    ¬ Held p.shared.store (withThread p thread).tasks planId := by
  rintro ⟨t, a, row, ht, _, _, _, hholds⟩
  have hmem : t ∈ thread := by simpa [withThread, Pool.tasks, hthreads] using ht
  have hworking := List.all_eq_true.mp hidle t hmem
  rcases hholds with ⟨hlisted, _⟩ | hcarried
  · simp [Task.working, hlisted] at hworking
  · simp [Task.working, hcarried] at hworking

instance (s : CoordinatorStore) (planId : String) : Decidable (SettledWork s planId) :=
  inferInstanceAs (Decidable (forall row, row ∈ s.runSteps.rows -> row.planId = planId ->
    row.status = .pending ∨ row.status.settled = true))

def patrolFailed : Pool Memory Task :=
  patrolAfter ["s1"] (patrolMoves 0 9 ++
    .spawn (.receive (patrolOutcome "a" "r1" .failed)) :: patrolMoves 1 4)

def patrolFailedBeside : Pool Memory Task :=
  patrolAfter [] (patrolMoves 0 12 ++
    .spawn (.receive (patrolOutcome "a" "r1" .failed)) :: patrolMoves 1 4)

def patrolInterrupted : Pool Memory Task :=
  patrolAfter ["s1"] (patrolMoves 0 9 ++ [.crash])

def patrolCreating (p : Pool Memory Task) : Pool Memory Task :=
  withThread p (created patrolGoal patrolSuccessor patrolSuccessorAssignments 0)

set_option maxRecDepth 8000 in
theorem patrolFailed_replans : exists q, Replans patrolConfig "p"
    (withThread patrolFailed [.replan "p" 0]) (patrolCreating patrolFailed) q := by
  refine ⟨_, patrol_replans ["s1"] .failed rfl (by decide) rfl rfl ?_⟩
  intro hnone
  cases hnone

set_option maxRecDepth 8000 in
theorem patrolFailedBeside_replans : exists q, Replans patrolConfig "p"
    (withThread patrolFailedBeside [.replan "p" 0]) (patrolCreating patrolFailedBeside) q := by
  refine ⟨_, patrol_replans [] .failed rfl (by decide) rfl rfl ?_⟩
  intro hnone
  cases hnone

theorem patrolFailed_settled : SettledWork patrolFailed.shared.store "p" := by
  decide +kernel

theorem patrolFailed_unheld (thread : List Task)
    (hidle : thread.all (fun t => !t.working) = true) :
    ¬ Held patrolFailed.shared.store (withThread patrolFailed thread).tasks "p" :=
  not_held_of_idle rfl hidle

theorem patrol_replans_settled_work :
    exists q, Replans patrolConfig "p" (withThread patrolFailed [.replan "p" 0])
      (patrolCreating patrolFailed) q ∧
      SettledWork (patrolCreating patrolFailed).shared.store "p" := by
  rcases patrolFailed_replans with ⟨q, hreplans⟩
  exact ⟨q, hreplans, replans_settled_work patrolConfig "p" _ _ q _
    (withThread_reached (patrolAfter_reached (Or.inr rfl)) "p") hreplans patrolFailed_settled
    (patrolFailed_unheld _ rfl) .refl⟩

/-- The successor is created while the second robot still works on the failed run. -/
theorem patrol_replans_beside :
    exists p c q, (machine patrolConfig).Reaches .always initial p ∧
      Replans patrolConfig "p" p c q ∧
      (exists row, row ∈ c.shared.store.runSteps.rows ∧ row.planId = "p" ∧
        row.status = .dispatched) ∧
      ¬ SettledWork c.shared.store "p" := by
  rcases patrolFailedBeside_replans with ⟨q, hreplans⟩
  refine ⟨_, _, q, withThread_reached (patrolAfter_reached (Or.inl rfl)) "p", hreplans, ?_, ?_⟩
  · decide +kernel
  · decide +kernel

theorem patrolFailed_closed : Closed patrolFailed.shared.store "p" := by
  have hreached : (machine patrolConfig).Reaches .always initial patrolFailed :=
    patrolAfter_reached (Or.inr rfl)
  have hview : patrolFailed.shared.store.runs.rows.map (fun run => (run.planId, run.status)) =
      [("p", .failed)] := by
    decide +kernel
  rcases List.map_eq_cons_iff.mp hview with ⟨run, rest, hruns, hrun, _⟩
  have hmem : run ∈ patrolFailed.shared.store.runs.rows := by
    rw [hruns]
    exact List.mem_cons_self
  apply patrolFailed_settled.closed (reaches_recorded hreached).planned.consistent hmem
    (congrArg Prod.fst hrun)
  rw [show run.status = .failed from congrArg Prod.snd hrun]
  decide

theorem patrol_replaced_for_good :
    exists q, Replans patrolConfig "p" (withThread patrolFailed [.replan "p" 0])
      (patrolCreating patrolFailed) q ∧
      forall later, (machine patrolConfig).Reaches .always q later ->
        ¬ RunActive later.shared.store "p" ∧
          later.shared.publishedFor "p" = q.shared.publishedFor "p" := by
  rcases patrolFailed_replans with ⟨q, hreplans⟩
  exact ⟨q, hreplans, (replanned_run_stays_dead patrolConfig "p" _ _ q
    (withThread_reached (patrolAfter_reached (Or.inr rfl)) "p") hreplans).1
      ⟨patrolFailed_closed, patrolFailed_unheld _ rfl⟩⟩

def patrolReplaced : Pool Memory Task :=
  ((machine patrolConfig).step (patrolCreating patrolInterrupted)
    (.run 0 patrolReplanning)).getD initial

set_option maxRecDepth 8000 in
theorem patrolInterrupted_replans : Replans patrolConfig "p"
    (withThread patrolInterrupted [.replan "p" 0]) (patrolCreating patrolInterrupted)
    patrolReplaced := by
  apply patrol_replans ["s1"] .unknown rfl (by decide) rfl rfl
  intro hnone
  cases hnone

/-- After a restart the unknown run is replaced; then the first robot's success makes it
active again, and it sends its second assignment beside the successor. -/
theorem patrol_replaced_run_goes_on :
    exists p c q later, (machine patrolConfig).Reaches .always initial p ∧
      Replans patrolConfig "p" p c q ∧ (machine patrolConfig).Reaches .always q later ∧
      RunActive later.shared.store "p" ∧
      (q.shared.publishedFor "p").length = 1 ∧ (later.shared.publishedFor "p").length = 2 := by
  have hview : ((machine patrolConfig).run patrolReplaced
      (.spawn (.receive (patrolOutcome "a" "r1" .succeeded)) :: patrolMoves 1 7)).map
        (fun later => (later.shared.store.runs.rows.map (fun run => (run.planId, run.status)),
          (later.shared.publishedFor "p").length)) = some ([("p", .active), ("q", .active)], 2) := by
    decide +kernel
  rcases Option.map_eq_some_iff.mp hview with ⟨later, hrun, hview⟩
  have hruns := congrArg Prod.fst hview
  rcases List.map_eq_cons_iff.mp hruns with ⟨run, rest, hrows, hstatus, _⟩
  refine ⟨_, _, _, later, withThread_reached (patrolAfter_reached (Or.inr rfl)) "p",
    patrolInterrupted_replans, Machine.run_reaches hrun, ⟨run, ?_, congrArg Prod.fst hstatus,
      congrArg Prod.snd hstatus⟩, ?_, congrArg Prod.snd hview⟩
  · rw [hrows]
    exact List.mem_cons_self
  · decide +kernel

end Ump.Coordinator
