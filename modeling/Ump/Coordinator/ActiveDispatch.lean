import Ump.Coordinator.Dispatch

/-!
# Dispatch and the status of the run

## What a dispatch pass still holds

The pass works through a list of ready assignments that it read before its loop.
Another thread may end the run meanwhile, and the loop does not look again. A run
stays active while its assignments are dispatched exactly when no thread ends it
under a pass that still holds work of it.
-/

namespace Ump.Coordinator

open Foundation CoordinatorStore

def RunActive (s : CoordinatorStore) (planId : String) : Prop :=
  exists run, run ∈ s.runs.rows ∧ run.planId = planId ∧ run.status = .active

/-- The task marks the pending step of the assignment, or hands its envelope to the bus. -/
def Task.Dispatches (s : CoordinatorStore) (t : Task) (a : Assignment) : Prop :=
  (t.listed? = some a ∧ exists row, row ∈ s.runSteps.rows ∧
    row.assignmentId = a.assignmentId ∧ row.status = .pending) ∨
  exists nowMs correlationId sequence,
    t = .handOver (.assignment a) nowMs correlationId sequence

/-- Every dispatch that some thread makes next is for a stored step of an active run. -/
def DispatchesActive (p : Pool Memory Task) : Prop :=
  forall i t a, p.nextTask i = some t -> t.Dispatches p.shared.store a ->
    exists row, row ∈ p.shared.store.runSteps.rows ∧ row.assignment = a ∧
      RunActive p.shared.store row.planId

/-- A thread has listed a pending step of the run, or carries a marked one. -/
def Held (s : CoordinatorStore) (ts : Multiset Task) (planId : String) : Prop :=
  exists t a row, t ∈ ts ∧ row ∈ s.runSteps.rows ∧ row.assignmentId = a.assignmentId ∧
    row.planId = planId ∧
    (t.listed? = some a ∧ row.status = .pending ∨ t.carried? = some a)

/-- No operation ends an active run under a pass that still holds work of it. -/
def EndsNoHeldRun : Condition Memory Task Reading Entry
  | m, ts, .exec t _ =>
      forall operation, t.operation? = some operation -> forall planId,
        RunActive m.store planId -> Held (m.store.apply operation) ts planId ->
          RunActive (m.store.apply operation) planId
  | _, _, .spawn _ => True

def HeldActive (m : Memory) (ts : Multiset Task) : Prop :=
  forall planId, Held m.store ts planId -> RunActive m.store planId

/-!
## Held work under each change
-/

theorem Held.mono {s : CoordinatorStore} {ts ts' : Multiset Task} {planId : String}
    (h : Held s ts planId) (hsub : forall t, t ∈ ts -> t ∈ ts') : Held s ts' planId := by
  rcases h with ⟨t, a, row, ht, hrow⟩
  exact ⟨t, a, row, hsub t ht, hrow⟩

theorem Held.of_quiet {s : CoordinatorStore} {ts : Multiset Task} {tasks : List Task}
    {planId : String} (hquiet : forall t, t ∈ tasks -> t.Quiet)
    (h : Held s ((tasks : Multiset Task) + ts) planId) : Held s ts planId := by
  rcases h with ⟨t, a, row, ht, hrow, hid, hplan, hholds⟩
  rcases Multiset.mem_add.mp ht with hnew | hold
  · rcases hquiet t (Multiset.mem_coe.mp hnew) with ⟨hlisted, hcarried⟩
    rw [hlisted, hcarried] at hholds
    simp at hholds
  · exact ⟨t, a, row, hold, hrow, hid, hplan, hholds⟩

theorem Held.of_evolves {m : Memory} {s' : CoordinatorStore} {ts : Multiset Task}
    {planId : String} (hordered : Ordered m ts) (hevolves : Evolves m.store s')
    (h : Held s' ts planId) : Held m.store ts planId := by
  rcases h with ⟨t, a, row', ht, hrow', hid', hplan, hholds⟩
  have hdue : Due m.store a := by
    rcases hholds with ⟨hlisted, _⟩ | hcarried
    · exact hordered.listed t a ht hlisted
    · exact (hordered.carried t a ht hcarried).1
  rcases hdue with ⟨row, hrow, _, hid, _⟩
  rcases hevolves.kept row hrow with ⟨status, hkept, hmoves⟩
  have hsame : row' = { row with status := status } :=
    eq_of_assignmentId hrow' hkept (hid'.trans hid.symm)
  subst hsame
  refine ⟨t, a, row, ht, hrow, hid, hplan, hholds.imp_left ?_⟩
  intro hlisted
  constructor
  · exact hlisted.1
  · by_contra hne
    exact StepStatus.ne_pending_of_moves hne hmoves hlisted.2

theorem readyAssignments_active {s : CoordinatorStore} {planId : String}
    {ready : List Assignment} (h : s.readyAssignments planId = .ok ready)
    {a : Assignment} (ha : a ∈ ready) :
    RunActive s planId ∧ exists row, row ∈ s.runSteps.rows ∧ row.assignment = a ∧
      row.planId = planId := by
  rcases readyAssignments_eq_ok h ha with ⟨run, row, hrun, hactive, hmem, hsame, hplan, _⟩
  rcases run?_eq_some hrun with ⟨hmemRun, hplanId⟩
  exact ⟨⟨run, hmemRun, hplanId, hactive⟩, row, hmem, hsame, hplan⟩

theorem Held.before {config : Config} {m : Memory} {t : Task} {ts : Multiset Task}
    {r : Reading} {planId : String} (hordered : Ordered m (t ::ₘ ts))
    (h : Held (exec config m t r).1.store
      (((exec config m t r).2.tasks : Multiset Task) + ts) planId) :
    Held m.store (t ::ₘ ts) planId ∨ RunActive m.store planId := by
  have hrest : Ordered m ts := hordered.drop (Multiset.le_cons_self ts t)
  have hmore : Held m.store ts planId -> Held m.store (t ::ₘ ts) planId ∨
      RunActive m.store planId :=
    fun hheld => Or.inl (hheld.mono (fun _ ht => Multiset.mem_cons_of_mem ht))
  generalize hresult : exec config m t r = result at h
  have heffect : Effect m t result := hresult ▸ exec_effect config m t r
  cases heffect with
  | quiet hstore _ hleaves =>
      rw [hstore] at h
      exact hmore (h.of_quiet (fun t' ht' => (hleaves t' ht').quiet))
  | @committed _ _ operation _ hstore _ hleaves =>
      rw [hstore] at h
      exact hmore ((h.of_quiet (fun t' ht' => (hleaves t' ht').quiet)).of_evolves hrest
        (apply_evolves m.store operation))
  | @listed listedPlan nowMs ready hready =>
      rcases h with ⟨t', a, row, ht', hrow, hid, hplan, hholds⟩
      rcases Multiset.mem_add.mp ht' with hnew | hold
      · rcases List.mem_map.mp (Multiset.mem_coe.mp hnew) with ⟨b, hb, rfl⟩
        rcases hholds with ⟨hlisted, _⟩ | hcarried
        · cases hlisted
          rcases readyAssignments_active hready hb with
            ⟨hactive, other, hother, hassignment, hotherPlan⟩
          have hotherId := (hordered.rows other hother).assignmentId
          rw [hassignment] at hotherId
          have hsame := eq_of_assignmentId hrow hother (hid.trans hotherId.symm)
          right
          rw [← hplan, hsame, hotherPlan]
          exact hactive
        · cases hcarried
      · exact hmore ⟨t', a, row, hold, hrow, hid, hplan, hholds⟩
  | @marked a nowMs row hrow hid hpending =>
      have hevolves : Evolves m.store (m.store.marked a.assignmentId) :=
        (Committed.marked a.assignmentId nowMs).evolves
      rcases h with ⟨t', b, row', ht', hrow', hid', hplan, hholds⟩
      rcases Multiset.mem_add.mp ht' with hnew | hold
      · rw [List.mem_singleton.mp (Multiset.mem_coe.mp hnew)] at hholds
        rcases hholds with ⟨hlisted, _⟩ | hcarried
        · cases hlisted
        · cases hcarried
          rcases hevolves.kept row hrow with ⟨status, hkept, _⟩
          have hsame := eq_of_assignmentId hrow' hkept (hid'.trans hid.symm)
          left
          refine ⟨_, a, row, Multiset.mem_cons_self _ _, hrow, hid, ?_, Or.inl ⟨rfl, hpending⟩⟩
          rw [← hplan, hsame]
      · have hheld : Held (m.store.marked a.assignmentId) ts planId :=
          ⟨t', b, row', hold, hrow', hid', hplan, hholds⟩
        exact hmore (hheld.of_evolves hrest hevolves)
  | advanced message nowMs correlationId =>
      rcases h with ⟨t', a, row, ht', hrow, hid, hplan, hholds⟩
      rcases Multiset.mem_add.mp ht' with hnew | hold
      · rw [List.mem_singleton.mp (Multiset.mem_coe.mp hnew)] at hholds
        refine Or.inl ⟨_, a, row, Multiset.mem_cons_self _ _, hrow, hid, hplan, ?_⟩
        cases message with
        | assignment b => exact hholds.imp_left (fun hlisted => by cases hlisted.1)
        | _ =>
            rcases hholds with ⟨hlisted, _⟩ | hcarried
            · cases hlisted
            · cases hcarried
      · exact hmore ⟨t', a, row, hold, hrow, hid, hplan, hholds⟩
  | published message nowMs correlationId sequence envelope _ =>
      rw [Flow.tasks_next, Multiset.coe_nil, zero_add] at h
      exact hmore h

/-!
## The invariant over runs
-/

theorem heldActive_keeps (config : Config) :
    (machine config).Keeps EndsNoHeldRun Ordered HeldActive where
  drop {m ts ts'} h hle := by
    intro planId hheld
    exact h planId (hheld.mono (fun t ht => Multiset.mem_of_le hle ht))
  spawn {m ts entry} _ h _ := by
    intro planId hheld
    rw [add_comm] at hheld
    exact h planId (hheld.of_quiet (fun t ht => (start_quiet_prepared entry t ht).1))
  crash {m ts} _ _ := by
    rintro planId ⟨t, _, _, ht, _⟩
    cases Multiset.notMem_zero t ht
  exec {m t ts r} hordered h hcondition := by
    show HeldActive (exec config m t r).1
      (((exec config m t r).2.tasks : Multiset Task) + ts)
    intro planId hheld
    have hactive : RunActive m.store planId := (hheld.before hordered).elim (h planId) id
    generalize hresult : exec config m t r = result at hheld ⊢
    have heffect : Effect m t result := hresult ▸ exec_effect config m t r
    cases heffect with
    | quiet hstore _ _ =>
        rw [hstore]
        exact hactive
    | @committed _ _ operation hoperation hstore _ hleaves =>
        rw [hstore] at hheld ⊢
        exact hcondition operation hoperation planId hactive
          (hheld.of_quiet (fun t' ht' => (hleaves t' ht').quiet))
    | _ => exact hactive

theorem initial_heldActive : HeldActive Memory.initial 0 := by
  rintro planId ⟨t, _, _, ht, _⟩
  cases Multiset.notMem_zero t ht

/-- In a run in which no thread ends an active run under a pass that still holds
work of it, every dispatch is for a step of an active run. -/
theorem only_active_runs_dispatch (config : Config) (p : Pool Memory Task)
    (hp : (machine config).Reaches EndsNoHeldRun initial p) : DispatchesActive p := by
  have hordered : forall q, (machine config).Reaches EndsNoHeldRun initial q ->
      Ordered q.shared q.tasks := by
    intro q hq
    exact reaches_ordered (hq.weaken (fun _ _ _ _ => trivial))
  have hheld := (heldActive_keeps config).reaches hp hordered initial_heldActive
  intro i t a hnext hdispatches
  have hmem := Machine.nextTask_mem hnext
  have hwork : t.carried? = some a ∨ (t.listed? = some a ∧ exists row,
      row ∈ p.shared.store.runSteps.rows ∧ row.assignmentId = a.assignmentId ∧
      row.status = .pending) := by
    rcases hdispatches with hlisted | ⟨nowMs, correlationId, sequence, rfl⟩
    · exact Or.inr hlisted
    · exact Or.inl rfl
  have hdue : Due p.shared.store a := by
    rcases hwork with hcarried | ⟨hlisted, _⟩
    · exact ((hordered p hp).carried t a hmem hcarried).1
    · exact (hordered p hp).listed t a hmem hlisted
  rcases hdue with ⟨row, hrow, hassignment, hid, _⟩
  refine ⟨row, hrow, hassignment, hheld row.planId ⟨t, a, row, hmem, hrow, hid, rfl, ?_⟩⟩
  rcases hwork with hcarried | ⟨hlisted, other, hother, hotherId, hpending⟩
  · exact Or.inr hcarried
  · rw [eq_of_assignmentId hother hrow (hotherId.trans hid.symm)] at hpending
    exact Or.inl ⟨hlisted, hpending⟩

/-!
## Two runs of the small mission

The first run keeps the condition. In the second one the failure of the first step
comes while the pass still holds the second one.
-/

def Task.working (t : Task) : Bool :=
  t.listed?.isSome || t.carried?.isSome

/-- A test for the condition: a task with a store operation runs only when no other
task belongs to a dispatch pass. -/
def noOtherPass (p : Pool Memory Task) : Action Reading Entry -> Bool
  | .run i _ =>
      match p.nextTask i with
      | some t => t.operation?.isNone ||
          decide (p.threads.flatten.countP Task.working ≤ if t.working then 1 else 0)
      | none => true
  | _ => true

theorem meets_of_noOtherPass (p : Pool Memory Task) (a : Action Reading Entry)
    (h : noOtherPass p a = true) : Machine.Meets EndsNoHeldRun p a := by
  cases a with
  | run i r =>
      intro t others hnext htasks operation hoperation planId _ hheld
      exfalso
      rcases hheld with ⟨t', a, row, ht', _, _, _, hholds⟩
      have hworking : t'.working = true := by
        rcases hholds with ⟨hlisted, _⟩ | hcarried
        · simp [Task.working, hlisted]
        · simp [Task.working, hcarried]
      have hcount : 0 < others.countP (fun x => x.working = true) :=
        Multiset.countP_pos.mpr ⟨t', ht', hworking⟩
      have htotal : p.threads.flatten.countP Task.working =
          (t ::ₘ others).countP (fun x => x.working = true) := by
        rw [← htasks]
        simp [Pool.tasks]
      have hbound : p.threads.flatten.countP Task.working ≤
          if t.working then 1 else 0 := by
        simpa only [noOtherPass, hnext, hoperation, Option.isNone_some, Bool.false_or,
          decide_eq_true_eq] using h
      rw [htotal, Multiset.countP_cons] at hbound
      omega
  | _ => trivial

theorem patrol_dispatches_active_run :
    exists p, (machine patrolConfig).runWhere noOtherPass (patrolSubmitted ["s1"])
        (patrolMoves 0 9 ++ .spawn (.receive (patrolOutcome "a" "r1" .succeeded)) ::
          patrolMoves 1 6) = some p ∧
      ((p.nextTask 1).bind Task.carriedId?) = some "b" ∧ DispatchesActive p := by
  have hcarried : ((machine patrolConfig).runWhere noOtherPass (patrolSubmitted ["s1"])
      (patrolMoves 0 9 ++ .spawn (.receive (patrolOutcome "a" "r1" .succeeded)) ::
        patrolMoves 1 6)).map (fun p => (p.nextTask 1).bind Task.carriedId?) =
        some (some "b") := by
    decide
  rcases Option.map_eq_some_iff.mp hcarried with ⟨p, hrun, hcarried⟩
  have hsubmitted : (machine patrolConfig).Reaches EndsNoHeldRun initial
      (patrolSubmitted ["s1"]) := by
    refine patrolSubmitted_reached (Or.inr rfl) trivial ?_
    intro operation hoperation
    cases hoperation
  exact ⟨p, hrun, hcarried, only_active_runs_dispatch patrolConfig p
    (hsubmitted.trans (Machine.runWhere_reaches meets_of_noOtherPass hrun))⟩

def patrolFailure : List (Action Reading Entry) :=
  patrolMoves 0 9 ++ .spawn (.receive (patrolOutcome "a" "r1" .failed)) :: patrolMoves 1 3

def patrolView (p : Pool Memory Task) :
    Option String × List RunStatus × List (String × StepStatus) :=
  (((p.nextTask 0).bind Task.listed?).map (fun a => a.assignmentId),
    p.shared.store.runs.rows.map (fun run => run.status),
    p.shared.store.runSteps.rows.map (fun row => (row.assignmentId, row.status)))

/-- The failed run dispatches its second step all the same. -/
theorem patrol_dispatches_failed_run :
    exists p q, (machine patrolConfig).run (patrolSubmitted []) patrolFailure = some p ∧
      (machine patrolConfig).Reaches .always initial p ∧ ¬ DispatchesActive p ∧
      (machine patrolConfig).run p (patrolMoves 0 3) = some q ∧
      q.shared.publishedAssignments.length = 2 ∧
      patrolView q = (none, [.failed], [("a", .failed), ("b", .dispatched)]) := by
  have hview : ((machine patrolConfig).run (patrolSubmitted []) patrolFailure).map
      patrolView = some (some "b", [.failed], [("a", .failed), ("b", .pending)]) := by
    decide
  have hlast : (((machine patrolConfig).run (patrolSubmitted []) patrolFailure).bind
      (fun p => (machine patrolConfig).run p (patrolMoves 0 3))).map
        (fun q => (q.shared.publishedAssignments.length, patrolView q)) =
      some (2, none, [.failed], [("a", .failed), ("b", .dispatched)]) := by
    decide
  rcases Option.map_eq_some_iff.mp hview with ⟨p, hrun, hview⟩
  rcases Option.map_eq_some_iff.mp hlast with ⟨q, hlast, hviewLast⟩
  rw [hrun, Option.bind_some] at hlast
  simp only [Prod.mk.injEq] at hviewLast
  have hreached := (patrolSubmitted_reached (Or.inl rfl) trivial trivial).trans
    (Machine.run_reaches hrun)
  refine ⟨p, q, hrun, hreached, ?_, hlast, hviewLast.1, hviewLast.2⟩
  intro hactive
  unfold patrolView at hview
  simp only [Prod.mk.injEq] at hview
  rcases hview with ⟨hnext, hruns, hsteps⟩
  rcases Option.map_eq_some_iff.mp hnext with ⟨a, hlisted, hid⟩
  rcases Option.bind_eq_some_iff.mp hlisted with ⟨t, ht, hlisted⟩
  have hpending : ("b", StepStatus.pending) ∈
      p.shared.store.runSteps.rows.map (fun row => (row.assignmentId, row.status)) := by
    rw [hsteps]
    simp
  rcases List.mem_map.mp hpending with ⟨row, hrow, hrowFacts⟩
  simp only [Prod.mk.injEq] at hrowFacts
  have hdispatches : t.Dispatches p.shared.store a :=
    Or.inl ⟨hlisted, row, hrow, hrowFacts.1.trans hid.symm, hrowFacts.2⟩
  rcases hactive 0 t a ht hdispatches with ⟨_, _, _, run, hmem, _, hstatus⟩
  have hfailed : run.status ∈ p.shared.store.runs.rows.map (fun run => run.status) :=
    List.mem_map.mpr ⟨run, hmem, rfl⟩
  rw [hruns, hstatus] at hfailed
  cases List.mem_singleton.mp hfailed

end Ump.Coordinator
