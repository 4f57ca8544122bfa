import Ump.Coordinator.Replanning

/-!
# Goal batches

## What a failed batch leaves

`submit_many` prepares every goal before it creates the first run, and creates every run
before it publishes the first envelope. Each run is created in a transaction of its own,
though, so a run that the store refuses leaves the runs before it.
-/

namespace Ump.Coordinator

open Foundation CoordinatorStore

/-- The ids of new assignments: distinct, and not yet stored. -/
structure Fresh (s : CoordinatorStore) (assignments : List Assignment) : Prop where
  distinct : (assignments.map (fun a => a.assignmentId)).Nodup
  unstored : forall a, a ∈ assignments -> s.step? a.assignmentId = none

/-- What `create_run` needs: the same content under a stored id, or a time that can be
stored and fresh assignments under a new one. -/
structure Accepts (s : CoordinatorStore) (goal : SharedGoal) (plan : Plan)
    (assignments : List Assignment) (nowMs : Int) : Prop where
  same : forall run, s.run? plan.planId = some run ->
    run.goal.canonical = goal.canonical ∧ run.plan.canonical = plan.canonical
  fits : s.run? plan.planId = none -> bindInteger nowMs = .ok ()
  fresh : s.run? plan.planId = none -> Fresh s assignments

abbrev BatchTurn := Turn Memory Task Reading

def Unchanged (config : Config) (turn : BatchTurn) : Prop :=
  (exec config turn.found turn.task turn.reading).1 = turn.found

/-- The turn creates the run of a plan whose id is not stored yet. -/
def NewRun (turn : BatchTurn) : Prop :=
  exists goal plan assignments nowMs, turn.task = .createRun goal plan assignments nowMs ∧
    turn.found.store.run? plan.planId = none

def Refused (turn : BatchTurn) : Prop :=
  exists goal plan assignments nowMs, turn.task = .createRun goal plan assignments nowMs ∧
    ¬ Accepts turn.found.store goal plan assignments nowMs

def Task.publishes : Task -> Bool
  | .publish _ _ _ => true
  | _ => false

/-- A thread of `p` calls `submit_many`, publishes nothing, and raises in its last turn. -/
structure BatchRaises (config : Config) (p : Pool Memory Task) (log : List BatchTurn)
    (q : Pool Memory Task) : Prop where
  called : exists i goals nowMs, p.threads[i]? = some [.submitMany goals nowMs] ∧
    (machine config).Turns i p log q
  silent : forall turn, turn ∈ log -> turn.task.publishes = false
  raised : exists before last, log = before ++ [last] ∧
    (exec config last.found last.task last.reading).2 = .raised

/-!
## When a run is created
-/

theorem insertSteps_eq_some {planId : String} {assignments : List Assignment}
    {t : Table StepRow} :
    (exists t', insertSteps planId assignments t = some t') <->
      (forall a row, a ∈ assignments -> row ∈ t.rows ->
        Keyed.clash row (newStep planId a) = false) ∧
      assignments.Pairwise
        (fun a b => Keyed.clash (newStep planId a) (newStep planId b) = false) := by
  induction assignments generalizing t with
  | nil => simp [insertSteps]
  | cons a rest ih =>
      unfold insertSteps
      cases hinsert : t.insert? (newStep planId a) with
      | none =>
          constructor
          · rintro ⟨t', h⟩
            cases h
          · rintro ⟨hfree, _⟩
            rcases Table.insert?_of_no_clash (hfree a · List.mem_cons_self) with ⟨t', ht'⟩
            rw [hinsert] at ht'
            cases ht'
      | some mid =>
          rcases Table.insert?_eq_some hinsert with ⟨hrows, hfree⟩
          rw [ih, hrows, List.pairwise_cons]
          constructor
          · rintro ⟨hrest, hpairwise⟩
            refine ⟨?_, ?_, hpairwise⟩
            · intro b row hb hrow
              rcases List.mem_cons.mp hb with rfl | hb
              · exact hfree row hrow
              · exact hrest b row hb (List.mem_append_left _ hrow)
            · exact fun b hb => hrest b _ hb (by simp)
          · rintro ⟨hall, hhead, hpairwise⟩
            refine ⟨?_, hpairwise⟩
            intro b row hb hrow
            rcases List.mem_append.mp hrow with hold | hnew
            · exact hall b row (List.mem_cons_of_mem _ hb) hold
            · rw [List.mem_singleton.mp hnew]
              exact hhead b hb

theorem fresh_of_inserted {s : CoordinatorStore} {planId : String}
    {assignments : List Assignment}
    (hfree : forall a row, a ∈ assignments -> row ∈ s.runSteps.rows ->
      Keyed.clash row (newStep planId a) = false)
    (hpairwise : assignments.Pairwise
      (fun a b => Keyed.clash (newStep planId a) (newStep planId b) = false)) :
    Fresh s assignments where
  distinct := by
    rw [List.nodup_iff_pairwise_ne, List.pairwise_map]
    apply hpairwise.imp
    intro a b hclash hid
    simp [Keyed.clash, newStep, hid] at hclash
  unstored a ha := by
    unfold step?
    rw [Table.fetch_eq_none]
    intro row hrow
    have hclash := hfree a row ha hrow
    simp only [Keyed.clash, newStep, Bool.or_eq_false_iff] at hclash
    exact hclash.1

theorem inserted_of_fresh {s : CoordinatorStore} (hconsistent : s.Consistent) {plan : Plan}
    {assignments : List Assignment} (hprepares : Prepares plan assignments)
    (hnew : s.run? plan.planId = none) (hfresh : Fresh s assignments) :
    exists t, insertSteps plan.planId assignments s.runSteps = some t := by
  apply insertSteps_eq_some.mpr
  constructor
  · intro a row ha hrow
    have hid : (row.assignmentId == a.assignmentId) = false :=
      Table.fetch_eq_none.mp (hfresh.unstored a ha) row hrow
    have hplan : row.planId ≠ plan.planId := by
      rcases hconsistent.anchored row hrow with ⟨run, hrun, hsame⟩
      rw [← hsame]
      exact run?_eq_none.mp hnew run hrun
    simp [Keyed.clash, newStep, hid, hplan]
  · have hids : assignments.Pairwise (fun a b => a.assignmentId ≠ b.assignmentId) :=
      List.pairwise_map.mp (List.nodup_iff_pairwise_ne.mp hfresh.distinct)
    have hsteps : assignments.Pairwise (fun a b => a.step.stepId ≠ b.step.stepId) := by
      have hunique := hprepares.validated.stepIds
      rw [← hprepares.steps, List.map_map] at hunique
      exact List.pairwise_map.mp (List.nodup_iff_pairwise_ne.mp hunique)
    apply (hids.and hsteps).imp
    rintro a b ⟨hid, hstep⟩
    simp [Keyed.clash, newStep, hid, hstep]

theorem createRun_stored {s store : CoordinatorStore} {goal : SharedGoal} {plan : Plan}
    {assignments : List Assignment} {nowMs : Int} (hstored : s.run? plan.planId ≠ none)
    (h : s.createRun goal plan assignments nowMs = .ok store) : store = s := by
  unfold createRun at h
  cases hrun : s.run? plan.planId with
  | none => exact (hstored hrun).elim
  | some run =>
      simp only [hrun] at h
      split_ifs at h with hsame
      cases h
      rfl

theorem createRun_new {s store : CoordinatorStore} {goal : SharedGoal} {plan : Plan}
    {assignments : List Assignment} {nowMs : Int} (hnew : s.run? plan.planId = none)
    (h : s.createRun goal plan assignments nowMs = .ok store) :
    bindInteger nowMs = .ok () ∧ store ≠ s ∧
      exists t, insertSteps plan.planId assignments s.runSteps = some t := by
  unfold createRun at h
  rw [hnew] at h
  rcases bind_eq_ok.mp h with ⟨_, hfits, h⟩
  cases hruns : s.runs.insert? (newRun goal plan nowMs) with
  | none =>
      rw [hruns] at h
      cases h
  | some runs =>
      cases hsteps : insertSteps plan.planId assignments s.runSteps with
      | none =>
          rw [hruns, hsteps] at h
          cases h
      | some runSteps =>
          rw [hruns, hsteps] at h
          cases h
          refine ⟨hfits, ?_, runSteps, rfl⟩
          intro hsame
          have hrows : runs.rows = s.runs.rows := congrArg (fun s => s.runs.rows) hsame
          rw [(Table.insert?_eq_some hruns).1] at hrows
          simp at hrows

theorem createRun_accepts {s : CoordinatorStore} (hconsistent : s.Consistent)
    {goal : SharedGoal} {plan : Plan} {assignments : List Assignment} {nowMs : Int}
    (hprepares : Prepares plan assignments) :
    (exists store, s.createRun goal plan assignments nowMs = .ok store) <->
      Accepts s goal plan assignments nowMs := by
  constructor
  · rintro ⟨store, hstore⟩
    constructor
    · intro run hrun
      unfold createRun at hstore
      simp only [hrun] at hstore
      split_ifs at hstore with hsame
      exact hsame
    · exact fun hnew => (createRun_new hnew hstore).1
    · intro hnew
      rcases insertSteps_eq_some.mp (createRun_new hnew hstore).2.2 with ⟨hfree, hpairwise⟩
      exact fresh_of_inserted hfree hpairwise
  · intro haccepts
    unfold createRun
    cases hrun : s.run? plan.planId with
    | some run =>
        simp only [if_pos (haccepts.same run hrun)]
        exact ⟨s, rfl⟩
    | none =>
        have hfree : forall row, row ∈ s.runs.rows ->
            Keyed.clash row (newRun goal plan nowMs) = false := by
          intro row hrow
          simpa [Keyed.clash, newRun] using run?_eq_none.mp hrun row hrow
        rcases Table.insert?_of_no_clash hfree with ⟨runs, hruns⟩
        rcases inserted_of_fresh hconsistent hprepares hrun (haccepts.fresh hrun) with
          ⟨runSteps, hsteps⟩
        simp only [haccepts.fits hrun, hruns, hsteps]
        exact ⟨_, rfl⟩

/-!
## The thread of a batch
-/

def Task.creates : Task -> Bool
  | .createRun _ _ _ _ => true
  | _ => false

def Task.prepares : Task -> Bool
  | .submitMany _ _ => true
  | .prepareMany _ _ _ => true
  | _ => false

def Creating (thread : List Task) : Prop :=
  exists (runs : List (SharedGoal × Plan × List Assignment)) (nowMs : Int) (rest : List Task),
    thread = runs.map (fun run => .createRun run.1 run.2.1 run.2.2 nowMs) ++ rest ∧
      forall t, t ∈ rest.head? -> t.publishes = true

theorem creating_nil : Creating [] :=
  ⟨[], 0, [], rfl, fun t ht => by cases ht⟩

theorem Creating.next {t : Task} {rest : List Task} (h : Creating (t :: rest))
    (config : Config) (m : Memory) (r : Reading) (hsilent : t.publishes = false) :
    t.creates = true ∧ Creating ((exec config m t r).2.resume rest) := by
  rcases h with ⟨runs, nowMs, last, hthread, hlast⟩
  cases runs with
  | nil =>
      cases last with
      | nil => cases hthread
      | cons head last =>
          cases hthread
          rw [hlast t rfl] at hsilent
          cases hsilent
  | cons run runs =>
      cases hthread
      refine ⟨rfl, ?_⟩
      rw [exec]
      cases m.store.createRun run.1 run.2.1 run.2.2 nowMs with
      | error e => exact creating_nil
      | ok store => exact ⟨runs, nowMs, last, rfl, hlast⟩

/-- A thread of a batch that has not begun to create runs. -/
def Preparing (thread : List Task) : Prop :=
  exists t, thread = [t] ∧ t.prepares = true

theorem creating_prepared (prepared : List (SharedGoal × Plan × List Assignment)) (nowMs : Int) :
    Creating (prepared.map (fun run => .createRun run.1 run.2.1 run.2.2 nowMs) ++
      prepared.flatMap (fun run => announce run.1 run.2.1 nowMs)) := by
  refine ⟨prepared, nowMs, _, rfl, ?_⟩
  intro t ht
  cases prepared with
  | nil => cases ht
  | cons run rest =>
      cases ht
      rfl

theorem prepares_next (config : Config) (m : Memory) {t : Task} (r : Reading)
    (h : t.prepares = true) : (exec config m t r).1 = m ∧
      (Preparing ((exec config m t r).2.resume []) ∨
        Creating ((exec config m t r).2.resume [])) := by
  have hattempt : forall {value : Type} (x : Except Exn value)
      (next : value -> Memory × Flow Task),
      (forall v, (next v).1 = m ∧ (Preparing ((next v).2.resume []) ∨
        Creating ((next v).2.resume []))) ->
      (attempt m x next).1 = m ∧ (Preparing ((attempt m x next).2.resume []) ∨
        Creating ((attempt m x next).2.resume [])) := by
    intro value x next hnext
    cases x with
    | ok v => exact hnext v
    | error e => exact ⟨rfl, Or.inr creating_nil⟩
  cases t with
  | submitMany goals nowMs =>
      rw [exec]
      apply hattempt
      intro _
      apply hattempt
      exact fun _ => ⟨rfl, Or.inl ⟨_, rfl, rfl⟩⟩
  | prepareMany goals prepared nowMs =>
      cases goals with
      | cons goal goals =>
          rw [exec]
          apply hattempt
          exact fun _ => ⟨rfl, Or.inl ⟨_, rfl, rfl⟩⟩
      | nil =>
          rw [exec]
          apply hattempt
          intro _
          refine ⟨rfl, Or.inr ?_⟩
          simp only [Flow.resume, List.append_nil]
          exact creating_prepared prepared nowMs
  | _ => cases h

theorem creating_log {config : Config} {i : Nat} {p q : Pool Memory Task} {log : List BatchTurn}
    {thread : List Task} (h : (machine config).Turns i p log q)
    (hthread : p.threads[i]? = some thread) (hcreating : Creating thread)
    (hsilent : forall turn, turn ∈ log -> turn.task.publishes = false) :
    forall turn, turn ∈ log -> turn.task.creates = true := by
  induction h generalizing thread with
  | here p =>
      intro turn hturn
      cases hturn
  | other hspares hstep hrest ih =>
      exact ih (Machine.thread_of_spares hspares hstep hthread) hcreating hsilent
  | @own p _ _ _ t r hnext hstep hrest ih =>
      rcases Machine.nextTask_eq_some hnext with ⟨rest, hown⟩
      cases hthread.symm.trans hown
      rcases hcreating.next config p.shared r (hsilent _ List.mem_cons_self) with
        ⟨hcreates, hgoes⟩
      intro turn hturn
      rcases List.mem_cons.mp hturn with rfl | hturn
      · exact hcreates
      · exact ih (Machine.thread_of_run hown hstep) hgoes
          (fun turn hturn => hsilent turn (List.mem_cons_of_mem _ hturn)) turn hturn

theorem batch_log {config : Config} {i : Nat} {p q : Pool Memory Task} {log : List BatchTurn}
    {thread : List Task} (h : (machine config).Turns i p log q)
    (hthread : p.threads[i]? = some thread) (hpreparing : Preparing thread)
    (hsilent : forall turn, turn ∈ log -> turn.task.publishes = false) :
    exists preparing creating, log = preparing ++ creating ∧
      (forall turn, turn ∈ preparing -> turn.task.prepares = true) ∧
      forall turn, turn ∈ creating -> turn.task.creates = true := by
  induction h generalizing thread with
  | here p => exact ⟨[], [], rfl, (fun _ h => by cases h), (fun _ h => by cases h)⟩
  | other hspares hstep hrest ih =>
      exact ih (Machine.thread_of_spares hspares hstep hthread) hpreparing hsilent
  | @own p _ _ log t r hnext hstep hrest ih =>
      rcases Machine.nextTask_eq_some hnext with ⟨rest, hown⟩
      rcases hpreparing with ⟨head, rfl, hprepares⟩
      cases hthread.symm.trans hown
      have hrestSilent : forall turn, turn ∈ log -> turn.task.publishes = false :=
        fun turn hturn => hsilent turn (List.mem_cons_of_mem _ hturn)
      rcases (prepares_next config p.shared r hprepares).2 with hagain | hcreating
      · rcases ih (Machine.thread_of_run hown hstep) hagain hrestSilent with
          ⟨preparing, creating, rfl, hfirst, hlast⟩
        refine ⟨_ :: preparing, creating, rfl, ?_, hlast⟩
        intro turn hturn
        rcases List.mem_cons.mp hturn with rfl | hturn
        · exact hprepares
        · exact hfirst turn hturn
      · refine ⟨[_], log, rfl, ?_, ?_⟩
        · intro turn hturn
          rw [List.mem_singleton.mp hturn]
          exact hprepares
        · exact creating_log hrest (Machine.thread_of_run hown hstep) hcreating hrestSilent

/-!
## All or nothing
-/

/-- No run under a new id comes before one that the store does not accept. -/
def RefusedFirst (log : List BatchTurn) : Prop :=
  forall before turn after, log = before ++ turn :: after -> Refused turn ->
    forall earlier, earlier ∈ before -> ¬ NewRun earlier

theorem Task.creates_eq {t : Task} (h : t.creates = true) :
    exists goal plan assignments nowMs, t = .createRun goal plan assignments nowMs := by
  cases t with
  | createRun goal plan assignments nowMs => exact ⟨goal, plan, assignments, nowMs, rfl⟩
  | _ => cases h

theorem unchanged_of_creates {config : Config} {turn : BatchTurn}
    (hcreates : turn.task.creates = true) (hnew : ¬ NewRun turn) : Unchanged config turn := by
  rcases Task.creates_eq hcreates with ⟨goal, plan, assignments, nowMs, htask⟩
  unfold Unchanged
  rw [htask, exec]
  cases hcreate : turn.found.store.createRun goal plan assignments nowMs with
  | error e => rfl
  | ok store =>
      have hstored : turn.found.store.run? plan.planId ≠ none :=
        fun hnone => hnew ⟨goal, plan, assignments, nowMs, htask, hnone⟩
      rw [createRun_stored hstored hcreate]
      rfl

theorem unchanged_of_raised {config : Config} {turn : BatchTurn}
    (hcreates : turn.task.creates = true)
    (hraised : (exec config turn.found turn.task turn.reading).2 = .raised) :
    Unchanged config turn := by
  rcases Task.creates_eq hcreates with ⟨goal, plan, assignments, nowMs, htask⟩
  unfold Unchanged
  rw [htask, exec] at hraised ⊢
  cases hcreate : turn.found.store.createRun goal plan assignments nowMs with
  | error e => rfl
  | ok store =>
      rw [hcreate] at hraised
      cases hraised

theorem changed_of_new {config : Config} {turn : BatchTurn} (hnew : NewRun turn)
    (hgoes : (exec config turn.found turn.task turn.reading).2 ≠ .raised) :
    ¬ Unchanged config turn := by
  rcases hnew with ⟨goal, plan, assignments, nowMs, htask, hnone⟩
  unfold Unchanged
  rw [htask, exec] at hgoes ⊢
  cases hcreate : turn.found.store.createRun goal plan assignments nowMs with
  | error e =>
      rw [hcreate] at hgoes
      exact (hgoes rfl).elim
  | ok store =>
      intro hsame
      exact (createRun_new hnone hcreate).2.1 (congrArg Memory.store hsame)

theorem refused_of_raised {config : Config} {p q : Pool Memory Task} {i : Nat}
    {log : List BatchTurn} (hp : (machine config).Reaches .always initial p)
    (hturns : (machine config).Turns i p log q) {turn : BatchTurn} (hturn : turn ∈ log)
    (hcreates : turn.task.creates = true)
    (hraised : (exec config turn.found turn.task turn.reading).2 = .raised) : Refused turn := by
  rcases Task.creates_eq hcreates with ⟨goal, plan, assignments, nowMs, htask⟩
  refine ⟨goal, plan, assignments, nowMs, htask, ?_⟩
  intro haccepts
  rcases hturns.found turn hturn with ⟨x, hx, hfound, hnext⟩
  have hrecorded := reaches_recorded (hp.trans hx)
  have hprepared := hrecorded.prepared _ (Machine.nextTask_mem hnext)
  rw [hfound] at hrecorded
  rw [htask] at hprepared
  rcases (createRun_accepts hrecorded.planned.consistent hprepared).mpr haccepts with
    ⟨store, hstore⟩
  rw [htask, exec, hstore] at hraised
  cases hraised

/-- A batch that raises before it publishes has left everything unchanged if and only if
no run under a new id came before one that the store did not accept. -/
theorem batch_all_or_nothing (config : Config) (p q : Pool Memory Task) (log : List BatchTurn)
    (hp : (machine config).Reaches .always initial p) (hraises : BatchRaises config p log q) :
    (forall turn, turn ∈ log -> Unchanged config turn) <-> RefusedFirst log := by
  rcases hraises.called with ⟨i, goals, nowMs, hthread, hturns⟩
  rcases hraises.raised with ⟨before, last, hlog, hraised⟩
  rcases batch_log hturns hthread ⟨_, rfl, rfl⟩ hraises.silent with
    ⟨preparing, creating, hsplit, hprepares, hcreates⟩
  constructor
  · rintro hunchanged before turn after rfl hrefused earlier hearlier hnew
    rcases List.append_of_mem hearlier with ⟨first, rest, rfl⟩
    apply changed_of_new hnew _ (hunchanged earlier (by simp))
    intro hstops
    have hmore : (first ++ earlier :: rest) ++ turn :: after =
        first ++ earlier :: (rest ++ turn :: after) := by
      simp
    rw [hmore] at hturns
    have hnil := hturns.last_of_raised hstops
    simp at hnil
  · intro hfirst turn hturn
    rw [hsplit] at hturn
    rcases List.mem_append.mp hturn with hturn | hturn
    · exact (prepares_next config turn.found turn.reading (hprepares turn hturn)).1
    · have hmem : turn ∈ before ++ [last] := by
        rw [← hlog, hsplit]
        exact List.mem_append_right _ hturn
      rcases List.mem_append.mp hmem with hearlier | hself
      · -- the last turn of the log is a creation too, and the store refuses it
        have hlast : last ∈ creating := by
          have hne : creating ≠ [] := List.ne_nil_of_mem hturn
          have hends := congrArg List.getLast? (hlog.symm.trans hsplit)
          rw [List.getLast?_concat, List.getLast?_append_of_ne_nil _ hne] at hends
          exact List.mem_of_getLast? hends.symm
        have hrefused : Refused last := by
          apply refused_of_raised hp hturns _ (hcreates last hlast) hraised
          rw [hlog]
          simp
        exact unchanged_of_creates (hcreates turn hturn)
          (hfirst before last [] hlog hrefused turn hearlier)
      · rw [List.mem_singleton.mp hself] at hturn ⊢
        exact unchanged_of_raised (hcreates last hturn) hraised

/-!
## Two batches after the failed mission

The plan that the planner proposes for the patrol has the id of the failed plan and other
steps. The second batch has a goal with a new plan before it.
-/

def watchGoal : SharedGoal :=
  { patrolGoal with goalId := "watch" }

def watchPlan : Plan :=
  { patrolPlan "q" (patrolSteps []) with goalId := "watch" }

def watchAssignments : List Assignment :=
  patrolSuccessorAssignments.map (fun a => { a with goalId := "watch" })

def watchReading : Reading :=
  { patrolReplanning with proposal := some watchPlan }

set_option maxRecDepth 8000 in
theorem byteSize_watch : Text.byteSize watchGoal.payload.dumps ≤ 60000 ∧
    Text.byteSize watchPlan.payload.dumps ≤ 60000 := by
  decide

set_option maxRecDepth 8000 in
theorem prepare_watch : prepare patrolConfig watchGoal 0 watchReading =
    .ok (watchPlan, watchAssignments) := by
  unfold prepare validatePlan
  rw [validateCoreMessageSize_ok byteSize_watch.1]
  simp only [watchReading]
  rw [validateCoreMessageSize_ok byteSize_watch.2]
  rfl

theorem exec_prepareMany {config : Config} {goal : SharedGoal} {nowMs : Int} {r : Reading}
    {run : Plan × List Assignment} (hprepare : prepare config goal nowMs r = .ok run)
    (m : Memory) (goals : List SharedGoal)
    (prepared : List (SharedGoal × Plan × List Assignment)) :
    exec config m (.prepareMany (goal :: goals) prepared nowMs) r =
      (m, .next [.prepareMany goals (prepared ++ [(goal, run)]) nowMs]) := by
  rw [exec, hprepare]
  rfl

theorem exec_createRun_refused {config : Config} {m : Memory} {goal : SharedGoal} {plan : Plan}
    {assignments : List Assignment} {nowMs : Int} {run : RunRow} (r : Reading)
    (hrun : m.store.run? plan.planId = some run) (hother : run.plan.canonical ≠ plan.canonical) :
    exec config m (.createRun goal plan assignments nowMs) r = (m, .raised) := by
  have hdifferent : ¬ (run.goal.canonical = goal.canonical ∧
      run.plan.canonical = plan.canonical) := fun hsame => hother hsame.2
  rw [exec]
  unfold createRun
  simp only [hrun, if_neg hdifferent]
  rfl

set_option maxRecDepth 8000 in
theorem patrol_plans_differ : (patrolPlan "p" (patrolSteps ["s1"])).canonical ≠
    (patrolPlan "p" (patrolSteps [])).canonical := by
  decide

def patrolAgain : SharedGoal × Plan × List Assignment :=
  (patrolGoal, patrolPlan "p" (patrolSteps []), patrolAssignments [])

theorem mem_dropLast_of_before {items before after : List item} {x y : item}
    (h : items = before ++ y :: after) (hx : x ∈ before) : x ∈ items.dropLast := by
  rw [h, List.dropLast_append_of_ne_nil (by simp)]
  exact List.mem_append_left _ hx

set_option maxRecDepth 8000 in
theorem patrol_batch_unchanged :
    exists log q, BatchRaises patrolConfig
      (withThread patrolFailed [.submitMany [patrolGoal] 0]) log q ∧ log.length = 4 ∧
      forall turn, turn ∈ log -> Unchanged patrolConfig turn := by
  have hreached : (machine patrolConfig).Reaches .always initial
      (withThread patrolFailed [.submitMany [patrolGoal] 0]) :=
    .tail (patrolAfter_reached (Or.inr rfl)) ⟨.spawn (.submitMany [patrolGoal] 0), trivial, rfl⟩
  have hsubmit : exec patrolConfig patrolFailed.shared (.submitMany [patrolGoal] 0)
      (patrolReading []) = (patrolFailed.shared, .next [.prepareMany [patrolGoal] [] 0]) := rfl
  have hprepare := exec_prepareMany (prepare_patrol (Or.inl rfl)) patrolFailed.shared [] []
  have hchecked : exec patrolConfig patrolFailed.shared (.prepareMany [] [patrolAgain] 0)
      (patrolReading []) = (patrolFailed.shared, .next (created patrolGoal
        (patrolPlan "p" (patrolSteps [])) (patrolAssignments []) 0)) := rfl
  have hrefused : exec patrolConfig patrolFailed.shared (.createRun patrolGoal
      (patrolPlan "p" (patrolSteps [])) (patrolAssignments []) 0) (patrolReading []) =
        (patrolFailed.shared, .raised) := exec_createRun_refused _ rfl patrol_plans_differ
  have hturns := Machine.Turns.own (nextTask_withThread patrolFailed _ []) (step_withThread hsubmit)
    (.own (nextTask_withThread patrolFailed _ []) (step_withThread hprepare)
      (.own (nextTask_withThread patrolFailed _ []) (step_withThread hchecked)
        (.own (nextTask_withThread patrolFailed _ _) (step_withThread hrefused) (.here _))))
  have hraises : BatchRaises patrolConfig (withThread patrolFailed [.submitMany [patrolGoal] 0])
      _ _ :=
    { called := ⟨_, [patrolGoal], 0, by simp [withThread], hturns⟩
      silent := by
        intro turn hturn
        simp only [List.mem_cons, List.not_mem_nil, or_false] at hturn
        rcases hturn with rfl | rfl | rfl | rfl <;> rfl
      raised := ⟨[_, _, _], _, rfl, congrArg Prod.snd hrefused⟩ }
  refine ⟨_, _, hraises, rfl, (batch_all_or_nothing patrolConfig _ _ _ hreached hraises).mpr ?_⟩
  rintro before turn after hlog _ earlier hearlier ⟨goal, plan, assignments, nowMs, htask, _⟩
  have hmem := mem_dropLast_of_before hlog hearlier
  simp only [List.dropLast, List.mem_cons, List.not_mem_nil, or_false] at hmem
  rcases hmem with rfl | rfl | rfl <;> cases htask

def watched : Memory :=
  (exec patrolConfig patrolFailed.shared (.createRun watchGoal watchPlan watchAssignments 0)
    (patrolReading [])).1

set_option maxRecDepth 8000 in
/-- The first goal's run stays although the batch has failed. -/
theorem patrol_batch_partly_created :
    exists p log q, (machine patrolConfig).Reaches .always initial p ∧
      BatchRaises patrolConfig p log q ∧
      p.shared.store.runs.rows.map (fun run => run.planId) = ["p"] ∧
      q.shared.store.runs.rows.map (fun run => run.planId) = ["p", "q"] ∧
      ¬ forall turn, turn ∈ log -> Unchanged patrolConfig turn := by
  let watch : SharedGoal × Plan × List Assignment := (watchGoal, watchPlan, watchAssignments)
  have hreached : (machine patrolConfig).Reaches .always initial
      (withThread patrolFailed [.submitMany [watchGoal, patrolGoal] 0]) :=
    .tail (patrolAfter_reached (Or.inr rfl))
      ⟨.spawn (.submitMany [watchGoal, patrolGoal] 0), trivial, rfl⟩
  have hsubmit : exec patrolConfig patrolFailed.shared (.submitMany [watchGoal, patrolGoal] 0)
      (patrolReading []) =
        (patrolFailed.shared, .next [.prepareMany [watchGoal, patrolGoal] [] 0]) := rfl
  have hfirst := exec_prepareMany prepare_watch patrolFailed.shared [patrolGoal] []
  have hsecond := exec_prepareMany (prepare_patrol (Or.inl rfl)) patrolFailed.shared [] [watch]
  have hchecked : exec patrolConfig patrolFailed.shared (.prepareMany [] [watch, patrolAgain] 0)
      (patrolReading []) = (patrolFailed.shared, .next
        (.createRun watchGoal watchPlan watchAssignments 0 ::
          .createRun patrolGoal (patrolPlan "p" (patrolSteps [])) (patrolAssignments []) 0 ::
            (announce watchGoal watchPlan 0 ++
              announce patrolGoal (patrolPlan "p" (patrolSteps [])) 0))) := rfl
  have hcreated : exec patrolConfig patrolFailed.shared
      (.createRun watchGoal watchPlan watchAssignments 0) (patrolReading []) =
        (watched, .next []) := rfl
  have hrefused : exec patrolConfig watched (.createRun patrolGoal
      (patrolPlan "p" (patrolSteps [])) (patrolAssignments []) 0) (patrolReading []) =
        (watched, .raised) := exec_createRun_refused _ rfl patrol_plans_differ
  have hturns := Machine.Turns.own (nextTask_withThread patrolFailed _ []) (step_withThread hsubmit)
    (.own (nextTask_withThread patrolFailed _ []) (step_withThread hfirst)
      (.own (nextTask_withThread patrolFailed _ []) (step_withThread hsecond)
        (.own (nextTask_withThread patrolFailed _ []) (step_withThread hchecked)
          (.own (nextTask_withThread patrolFailed _ _) (step_withThread hcreated)
            (.own (nextTask_withThread _ _ _) (step_withThread hrefused) (.here _))))))
  have hraises : BatchRaises patrolConfig
      (withThread patrolFailed [.submitMany [watchGoal, patrolGoal] 0]) _ _ :=
    { called := ⟨_, [watchGoal, patrolGoal], 0, by simp [withThread], hturns⟩
      silent := by
        intro turn hturn
        simp only [List.mem_cons, List.not_mem_nil, or_false] at hturn
        rcases hturn with rfl | rfl | rfl | rfl | rfl | rfl <;> rfl
      raised := ⟨[_, _, _, _, _], _, rfl, congrArg Prod.snd hrefused⟩ }
  refine ⟨_, _, _, hreached, hraises, rfl, rfl, ?_⟩
  intro hunchanged
  have hsame : watched = patrolFailed.shared :=
    hunchanged ⟨patrolFailed.shared, .createRun watchGoal watchPlan watchAssignments 0,
      patrolReading []⟩ (.tail _ (.tail _ (.tail _ (.tail _ (.head _)))))
  have hruns := congrArg (fun m => m.store.runs.rows.length) hsame
  have hmore : watched.store.runs.rows.length = 2 := rfl
  have hone : patrolFailed.shared.store.runs.rows.length = 1 := rfl
  rw [hmore, hone] at hruns
  cases hruns

end Ump.Coordinator
