import Ump.Coordinator.Effects

/-!
# The dispatch pass

## One dispatch, in dependency order

An assignment is listed, marked, taken through the two steps of its publication,
and published. The bag of carried and published assignment ids never holds an id
twice, because only a pending row is marked and no row becomes pending again.
-/

namespace Ump.Coordinator

open Foundation CoordinatorStore

def Message.assignment? : Message -> Option Assignment
  | .assignment a => some a
  | _ => none

/-- The assignments whose envelopes have been published, oldest first. -/
def Memory.publishedAssignments (m : Memory) : List Assignment :=
  m.published.filterMap (fun publication => publication.1.assignment?)

def Memory.publishedIds (m : Memory) : Multiset String :=
  (m.publishedAssignments.map (fun a => a.assignmentId) : Multiset String)

def Task.carriedId? (t : Task) : Option String :=
  t.carried?.map (fun a => a.assignmentId)

/-- The ids of the marked assignments that threads still carry to the bus. -/
def carriedIds (ts : Multiset Task) : Multiset String :=
  ts.filterMap Task.carriedId?

/-- The assignment is stored, and each step of its run that it depends on has
succeeded. -/
def Due (s : CoordinatorStore) (a : Assignment) : Prop :=
  exists row, row ∈ s.runSteps.rows ∧ row.assignment = a ∧
    row.assignmentId = a.assignmentId ∧
    forall d, d ∈ a.step.dependsOn -> exists other, other ∈ s.runSteps.rows ∧
      other.planId = row.planId ∧ other.stepId = d ∧ other.status = .succeeded

def Started (s : CoordinatorStore) (assignmentId : String) : Prop :=
  exists row, row ∈ s.runSteps.rows ∧ row.assignmentId = assignmentId ∧
    row.status ≠ .pending

/-- The columns of a row that repeat its assignment. -/
structure StepRow.WellFormed (row : StepRow) : Prop where
  assignmentId : row.assignmentId = row.assignment.assignmentId
  stepId : row.stepId = row.assignment.step.stepId
  dependencies : row.dependencies = row.assignment.step.dependsOn

structure Ordered (m : Memory) (ts : Multiset Task) : Prop where
  rows : forall row, row ∈ m.store.runSteps.rows -> row.WellFormed
  once : (m.publishedIds + carriedIds ts).Nodup
  listed : forall t a, t ∈ ts -> t.listed? = some a -> Due m.store a
  carried : forall t a, t ∈ ts -> t.carried? = some a ->
    Due m.store a ∧ Started m.store a.assignmentId
  published : forall a, a ∈ m.publishedAssignments ->
    Due m.store a ∧ Started m.store a.assignmentId

/-!
### What every store operation keeps
-/

theorem Due.evolves {s s' : CoordinatorStore} (h : Evolves s s') {a : Assignment}
    (hdue : Due s a) : Due s' a := by
  rcases hdue with ⟨row, hrow, hassignment, hid, hdependencies⟩
  rcases h.kept row hrow with ⟨status, hkept, _⟩
  refine ⟨_, hkept, hassignment, hid, ?_⟩
  intro d hd
  rcases hdependencies d hd with ⟨other, hother, hplan, hstep, hsucceeded⟩
  exact ⟨other, h.settled hother (by rw [hsucceeded]; rfl), hplan, hstep, hsucceeded⟩

theorem Started.evolves {s s' : CoordinatorStore} (h : Evolves s s') {id : String}
    (hstarted : Started s id) : Started s' id := by
  rcases hstarted with ⟨row, hrow, hid, hne⟩
  rcases h.kept row hrow with ⟨status, hkept, hmoves⟩
  exact ⟨_, hkept, hid, StepStatus.ne_pending_of_moves hne hmoves⟩

theorem wellFormed_evolves {s s' : CoordinatorStore} (h : Evolves s s')
    (hrows : forall row, row ∈ s.runSteps.rows -> row.WellFormed) (row' : StepRow)
    (hrow' : row' ∈ s'.runSteps.rows) : row'.WellFormed := by
  rcases h.origin row' hrow' with ⟨row, hrow, hsame, _⟩ | ⟨planId, a, rfl, _⟩
  · rcases hrows row hrow with ⟨hid, hstep, hdependencies⟩
    rw [hsame]
    exact ⟨hid, hstep, hdependencies⟩
  · exact ⟨rfl, rfl, rfl⟩

theorem carriedIds_cons (t : Task) (ts : Multiset Task) :
    carriedIds (t ::ₘ ts) = (t.carriedId?.toList : Multiset String) + carriedIds ts := by
  unfold carriedIds
  cases h : t.carriedId? with
  | none => simp [Multiset.filterMap_cons_none _ _ h]
  | some id => simp [Multiset.filterMap_cons_some _ _ _ h]

theorem carriedIds_uncarried {tasks : List Task}
    (h : forall t, t ∈ tasks -> t.carried? = none) (ts : Multiset Task) :
    carriedIds ((tasks : Multiset Task) + ts) = carriedIds ts := by
  apply filterMap_idle
  intro t ht
  unfold Task.carriedId?
  rw [h t ht]
  rfl

theorem carriedIds_le {ts ts' : Multiset Task} (h : ts' ≤ ts) :
    carriedIds ts' ≤ carriedIds ts :=
  Multiset.filterMap_le_filterMap _ h

theorem Ordered.drop {m : Memory} {ts ts' : Multiset Task} (h : Ordered m ts)
    (hle : ts' ≤ ts) : Ordered m ts' where
  rows := h.rows
  once := Multiset.nodup_of_le (add_le_add_right (carriedIds_le hle) _) h.once
  listed t a ht := h.listed t a (Multiset.mem_of_le hle ht)
  carried t a ht := h.carried t a (Multiset.mem_of_le hle ht)
  published := h.published

theorem Ordered.add {m : Memory} {ts : Multiset Task} (h : Ordered m ts)
    {tasks : List Task} (huncarried : forall t, t ∈ tasks -> t.carried? = none)
    (hlisted : forall t a, t ∈ tasks -> t.listed? = some a -> Due m.store a) :
    Ordered m ((tasks : Multiset Task) + ts) where
  rows := h.rows
  once := by
    rw [carriedIds_uncarried huncarried]
    exact h.once
  listed t a ht hlist := by
    rcases Multiset.mem_add.mp ht with hnew | hold
    · exact hlisted t a (by simpa using hnew) hlist
    · exact h.listed t a hold hlist
  carried t a ht hcarried := by
    rcases Multiset.mem_add.mp ht with hnew | hold
    · rw [huncarried t (by simpa using hnew)] at hcarried
      cases hcarried
    · exact h.carried t a hold hcarried
  published := h.published

theorem Ordered.quiet {m : Memory} {ts : Multiset Task} (h : Ordered m ts)
    {tasks : List Task} (hquiet : forall t, t ∈ tasks -> t.Quiet) :
    Ordered m ((tasks : Multiset Task) + ts) := by
  refine h.add (fun t ht => (hquiet t ht).2) ?_
  intro t a ht hlisted
  rw [(hquiet t ht).1] at hlisted
  cases hlisted

theorem Ordered.evolves {m m' : Memory} {ts : Multiset Task} (h : Ordered m ts)
    (hstore : Evolves m.store m'.store) (hpublished : m'.published = m.published) :
    Ordered m' ts := by
  have hassignments : m'.publishedAssignments = m.publishedAssignments := by
    unfold Memory.publishedAssignments
    rw [hpublished]
  refine ⟨wellFormed_evolves hstore h.rows, ?_, ?_, ?_, ?_⟩
  · unfold Memory.publishedIds
    rw [hassignments]
    exact h.once
  · exact fun t a ht hlisted => (h.listed t a ht hlisted).evolves hstore
  · intro t a ht hcarried
    rcases h.carried t a ht hcarried with ⟨hdue, hstarted⟩
    exact ⟨hdue.evolves hstore, hstarted.evolves hstore⟩
  · intro a ha
    rw [hassignments] at ha
    rcases h.published a ha with ⟨hdue, hstarted⟩
    exact ⟨hdue.evolves hstore, hstarted.evolves hstore⟩

theorem Ordered.started {m : Memory} {ts : Multiset Task} (h : Ordered m ts)
    {id : String} (hid : id ∈ m.publishedIds + carriedIds ts) : Started m.store id := by
  rcases Multiset.mem_add.mp hid with hpublished | hcarried
  · rcases List.mem_map.mp (Multiset.mem_coe.mp hpublished) with ⟨a, ha, rfl⟩
    exact (h.published a ha).2
  · rcases (Multiset.mem_filterMap _ _).mp hcarried with ⟨t, ht, hsome⟩
    unfold Task.carriedId? at hsome
    rcases Option.map_eq_some_iff.mp hsome with ⟨a, ha, rfl⟩
    exact (h.carried t a ht ha).2

theorem readyAssignments_eq_ok {s : CoordinatorStore} {planId : String}
    {ready : List Assignment} (h : s.readyAssignments planId = .ok ready)
    {a : Assignment} (ha : a ∈ ready) : exists run row, s.run? planId = some run ∧
      run.status = .active ∧ row ∈ s.runSteps.rows ∧ row.assignment = a ∧
      row.planId = planId ∧ row.status = .pending ∧ s.dependenciesSucceeded row = true := by
  unfold readyAssignments at h
  cases hrun : s.run? planId with
  | none =>
      rw [hrun] at h
      cases h
  | some run =>
      rw [hrun] at h
      by_cases hactive : run.status = .active
      · simp only [if_pos hactive] at h
        cases h
        rcases List.mem_map.mp ha with ⟨row, hrow, rfl⟩
        rcases List.mem_filter.mp hrow with ⟨hmem, hselected⟩
        simp only [Bool.and_eq_true, beq_iff_eq] at hselected
        exact ⟨run, row, rfl, hactive, hmem, rfl, hselected.1.1, hselected.1.2, hselected.2⟩
      · simp only [if_neg hactive] at h
        cases h
        cases ha

theorem due_of_ready {s : CoordinatorStore} {planId : String} {ready : List Assignment}
    (hrows : forall row, row ∈ s.runSteps.rows -> row.WellFormed)
    (h : s.readyAssignments planId = .ok ready) {a : Assignment} (ha : a ∈ ready) :
    Due s a := by
  rcases readyAssignments_eq_ok h ha with
    ⟨_, row, _, _, hmem, rfl, _, _, hdependencies⟩
  refine ⟨row, hmem, rfl, (hrows row hmem).assignmentId, ?_⟩
  intro d hd
  unfold dependenciesSucceeded at hdependencies
  rw [(hrows row hmem).dependencies] at hdependencies
  rcases List.any_eq_true.mp (List.all_eq_true.mp hdependencies d hd) with
    ⟨other, hother, hsame⟩
  exact ⟨other, hother, by simpa [and_assoc] using hsame⟩

theorem Ordered.mark {m : Memory} {ts : Multiset Task} (h : Ordered m ts)
    {a : Assignment} {nowMs : Int} (hdue : Due m.store a) {row : StepRow}
    (hrow : row ∈ m.store.runSteps.rows) (hid : row.assignmentId = a.assignmentId)
    (hpending : row.status = .pending) :
    Ordered { m with store := m.store.marked a.assignmentId }
      (.publish (.assignment a) nowMs a.goalId ::ₘ ts) := by
  have hevolves : Evolves m.store (m.store.marked a.assignmentId) :=
    (Committed.marked a.assignmentId nowMs).evolves
  have hmoved : Ordered { m with store := m.store.marked a.assignmentId } ts :=
    h.evolves hevolves rfl
  have hfresh : a.assignmentId ∉ m.publishedIds + carriedIds ts := by
    intro hmem
    rcases h.started hmem with ⟨other, hother, hotherId, hne⟩
    rw [eq_of_assignmentId hother hrow (hotherId.trans hid.symm)] at hne
    exact hne hpending
  have hstarted : Started (m.store.marked a.assignmentId) a.assignmentId := by
    refine ⟨{ row with status := .dispatched }, ?_, hid, by simp⟩
    unfold CoordinatorStore.marked
    rw [rows_setSteps]
    exact List.mem_map.mpr ⟨row, hrow, by simp [hid, hpending]⟩
  refine ⟨hmoved.rows, ?_, ?_, ?_, hmoved.published⟩
  · rw [carriedIds_cons]
    show (m.publishedIds + ({a.assignmentId} + carriedIds ts)).Nodup
    rw [add_left_comm, Multiset.singleton_add, Multiset.nodup_cons]
    exact ⟨hfresh, h.once⟩
  · intro t b ht hlisted
    rcases Multiset.mem_cons.mp ht with rfl | ht
    · cases hlisted
    · exact hmoved.listed t b ht hlisted
  · intro t b ht hcarried
    rcases Multiset.mem_cons.mp ht with rfl | ht
    · cases hcarried
      exact ⟨hdue.evolves hevolves, hstarted⟩
    · exact hmoved.carried t b ht hcarried

theorem Ordered.replace {m m' : Memory} {t t' : Task} {ts : Multiset Task}
    (h : Ordered m (t ::ₘ ts)) (hstore : m'.store = m.store)
    (hpublished : m'.published = m.published) (hcarried : t'.carried? = t.carried?)
    (hlisted : t'.listed? = none) : Ordered m' (t' ::ₘ ts) := by
  have hids : carriedIds (t' ::ₘ ts) = carriedIds (t ::ₘ ts) := by
    rw [carriedIds_cons, carriedIds_cons]
    unfold Task.carriedId?
    rw [hcarried]
  have hassignments : m'.publishedAssignments = m.publishedAssignments := by
    unfold Memory.publishedAssignments
    rw [hpublished]
  refine ⟨by rw [hstore]; exact h.rows, ?_, ?_, ?_, ?_⟩
  · rw [hids]
    unfold Memory.publishedIds
    rw [hassignments]
    exact h.once
  · intro x a hx hlist
    rw [hstore]
    rcases Multiset.mem_cons.mp hx with rfl | hx
    · rw [hlisted] at hlist
      cases hlist
    · exact h.listed x a (Multiset.mem_cons_of_mem hx) hlist
  · intro x a hx hcarry
    rw [hstore]
    rcases Multiset.mem_cons.mp hx with rfl | hx
    · exact h.carried t a (Multiset.mem_cons_self t ts) (hcarried ▸ hcarry)
    · exact h.carried x a (Multiset.mem_cons_of_mem hx) hcarry
  · rw [hstore, hassignments]
    exact h.published

theorem Ordered.handOver {m : Memory} {ts : Multiset Task} {message : Message}
    {nowMs : Int} {correlationId : String} {sequence : Nat} {envelope : Envelope}
    (h : Ordered m (.handOver message nowMs correlationId sequence ::ₘ ts)) :
    Ordered { m with published := m.published ++ [(message, envelope)] } ts := by
  have hassignments : Memory.publishedAssignments
      { m with published := m.published ++ [(message, envelope)] } =
        m.publishedAssignments ++ message.assignment?.toList := by
    unfold Memory.publishedAssignments
    rw [List.filterMap_append]
    cases message <;> rfl
  have hcarries : (Task.handOver message nowMs correlationId sequence).carried? =
      message.assignment? := by
    cases message <;> rfl
  refine ⟨h.rows, ?_, ?_, ?_, ?_⟩
  · have honce := h.once
    rw [carriedIds_cons] at honce
    unfold Task.carriedId? at honce
    rw [hcarries, ← add_assoc] at honce
    unfold Memory.publishedIds
    rw [hassignments, List.map_append, ← Multiset.coe_add]
    cases hmessage : message.assignment? with
    | none => simpa [hmessage, Memory.publishedIds] using honce
    | some a => simpa [hmessage, Memory.publishedIds] using honce
  · exact fun t a ht => h.listed t a (Multiset.mem_cons_of_mem ht)
  · exact fun t a ht => h.carried t a (Multiset.mem_cons_of_mem ht)
  · intro a ha
    rw [hassignments] at ha
    rcases List.mem_append.mp ha with hold | hnew
    · exact h.published a hold
    · exact h.carried _ a (Multiset.mem_cons_self _ _)
        (hcarries.trans (Option.mem_toList.mp hnew))

theorem ordered_keeps (config : Config) :
    (machine config).Keeps .always (fun _ _ => True) Ordered where
  drop := Ordered.drop
  spawn {m ts entry} _ h _ := by
    rw [add_comm]
    exact h.quiet (fun t ht => (start_quiet_prepared entry t ht).1)
  crash {m ts} _ h := by
    have hdropped := h.drop (Multiset.zero_le ts)
    exact hdropped.evolves Committed.recovered.evolves rfl
  exec {m t ts r} _ h _ := by
    have hrest : Ordered m ts := h.drop (Multiset.le_cons_self ts t)
    show Ordered (exec config m t r).1 (((exec config m t r).2.tasks : Multiset Task) + ts)
    generalize hresult : exec config m t r = result
    have heffect : Effect m t result := hresult ▸ exec_effect config m t r
    cases heffect with
    | quiet hstore hpublished hleaves =>
        refine (hrest.evolves ?_ hpublished).quiet (fun t' ht' => (hleaves t' ht').quiet)
        rw [hstore]
        exact (Committed.unchanged (.reopen false)).evolves
    | @committed _ _ operation _ hstore hpublished hleaves =>
        refine (hrest.evolves ?_ hpublished).quiet (fun t' ht' => (hleaves t' ht').quiet)
        rw [hstore]
        exact apply_evolves m.store operation
    | @listed planId nowMs ready hready =>
        refine hrest.add ?_ ?_
        · intro t ht
          rcases List.mem_map.mp ht with ⟨a, _, rfl⟩
          rfl
        · intro t a ht hlisted
          rcases List.mem_map.mp ht with ⟨b, hb, rfl⟩
          cases hlisted
          exact due_of_ready h.rows hready hb
    | @marked a nowMs row hrow hid hpending =>
        exact hrest.mark (h.listed _ a (Multiset.mem_cons_self _ _) rfl) hrow hid hpending
    | advanced message nowMs correlationId =>
        refine h.replace rfl rfl ?_ rfl
        cases message <;> rfl
    | published message nowMs correlationId sequence envelope _ =>
        rw [Flow.tasks_next, Multiset.coe_nil, zero_add]
        exact h.handOver

theorem initial_ordered : Ordered Memory.initial 0 where
  rows row hrow := by cases hrow
  once := Multiset.nodup_zero
  listed t a ht := by cases Multiset.notMem_zero t ht
  carried t a ht := by cases Multiset.notMem_zero t ht
  published a ha := by cases ha

theorem reaches_ordered {config : Config} {p : Pool Memory Task}
    (h : (machine config).Reaches .always initial p) : Ordered p.shared p.tasks :=
  (ordered_keeps config).reaches h (fun _ _ => trivial) initial_ordered

theorem published_grows {config : Config} {p q : Pool Memory Task}
    (h : (machine config).Reaches .always p q) :
    p.shared.published <+: q.shared.published := by
  have hexec : forall m t r, m.published <+: ((machine config).exec m t r).1.published := by
    intro m t r
    show m.published <+: (exec config m t r).1.published
    generalize hresult : exec config m t r = result
    have heffect : Effect m t result := hresult ▸ exec_effect config m t r
    cases heffect with
    | quiet _ hpublished _ =>
        exact hpublished.symm ▸ List.prefix_rfl
    | committed _ _ hpublished _ =>
        exact hpublished.symm ▸ List.prefix_rfl
    | published message nowMs correlationId sequence envelope _ =>
        exact List.prefix_append _ _
    | _ => exact List.prefix_rfl
  exact Machine.Reaches.relates (fun a b => a.published <+: b.published)
    (fun _ => List.prefix_rfl) List.IsPrefix.trans hexec (fun _ => List.prefix_rfl) h

/-- Each assignment is published at most once. From its publication on, in every
later state, every step of its run that it depends on is recorded as succeeded. -/
theorem published_once_after_dependencies (config : Config) (p q : Pool Memory Task)
    (hp : (machine config).Reaches .always initial p)
    (hq : (machine config).Reaches .always p q) :
    p.shared.publishedIds.Nodup ∧
    forall a, a ∈ p.shared.publishedAssignments ->
      Due p.shared.store a ∧ Due q.shared.store a := by
  have hpOrdered := reaches_ordered hp
  have hqOrdered := reaches_ordered (hp.trans hq)
  refine ⟨Multiset.nodup_of_le (Multiset.le_add_right _ _) hpOrdered.once, ?_⟩
  intro a ha
  refine ⟨(hpOrdered.published a ha).1, (hqOrdered.published a ?_).1⟩
  exact ((published_grows hq).filterMap _).subset ha

theorem patrol_published_once_after_dependencies :
    exists p, (machine patrolConfig).run (patrolSubmitted ["s1"])
        (patrolMoves 0 9 ++ .spawn (.receive (patrolOutcome "a" "r1" .succeeded)) ::
          patrolMoves 1 7) = some p ∧
      p.shared.publishedAssignments.length = 2 ∧ p.shared.publishedIds.Nodup ∧
      forall a, a ∈ p.shared.publishedAssignments ->
        Due p.shared.store a ∧ Due p.shared.store.recoverInterruptedRuns a := by
  have hlength : ((machine patrolConfig).run (patrolSubmitted ["s1"])
      (patrolMoves 0 9 ++ .spawn (.receive (patrolOutcome "a" "r1" .succeeded)) ::
        patrolMoves 1 7)).map (fun p => p.shared.publishedAssignments.length) = some 2 := by
    decide
  rcases Option.map_eq_some_iff.mp hlength with ⟨p, hrun, hlength⟩
  have hp := (patrolSubmitted_reached (Or.inr rfl) trivial trivial).trans (Machine.run_reaches hrun)
  have hcrash : (machine patrolConfig).Step .always p
      { shared := p.shared.restart, threads := [] } := ⟨.crash, trivial, rfl⟩
  exact ⟨p, hrun, hlength,
    published_once_after_dependencies patrolConfig p _ hp (.single hcrash)⟩

end Ump.Coordinator
