import Ump.Coordinator.Evidence

/-!
# The outcomes in memory and in the store

## One call at a time

A call runs its tasks to the end or up to an exception. While it hands a message over, the
bus may call handlers of the same coordinator, and the exception of such a handler, or one of
the bus itself, ends the call.
-/

namespace Ump.Coordinator

open Foundation CoordinatorStore

/-- Which messages arrive in which memory, and whether the bus may raise. -/
structure Surroundings where
  arrives : Memory -> Envelope -> Prop
  busRaises : Prop

inductive CallRuns (config : Config) (E : Surroundings) :
    Memory -> List Task -> Memory -> Bool -> Prop where
  | done (m : Memory) : CallRuns config E m [] m false
  | goes {m mid m' : Memory} {t : Task} {rest left : List Task} {raised : Bool} (r : Reading)
      (hexec : exec config m t r = (mid, .next left))
      (hrest : CallRuns config E mid (left ++ rest) m' raised) :
      CallRuns config E m (t :: rest) m' raised
  | raises {m m' : Memory} {t : Task} (rest : List Task) (r : Reading)
      (hexec : exec config m t r = (m', .raised)) : CallRuns config E m (t :: rest) m' true
  | delivers {m mid m' : Memory} {message : Message} {nowMs : Int} {correlationId : String}
      {sequence : Nat} {rest : List Task} {raised : Bool} {envelope : Envelope}
      (harrives : E.arrives m envelope)
      (hcall : CallRuns config E m (start (.receive envelope)) mid false)
      (hrest : CallRuns config E mid (.handOver message nowMs correlationId sequence :: rest)
        m' raised) :
      CallRuns config E m (.handOver message nowMs correlationId sequence :: rest) m' raised
  | handlerRaises {m m' : Memory} (message : Message) (nowMs : Int) (correlationId : String)
      (sequence : Nat) (rest : List Task) {envelope : Envelope} (hbus : E.busRaises)
      (harrives : E.arrives m envelope)
      (hcall : CallRuns config E m (start (.receive envelope)) m' true) :
      CallRuns config E m (.handOver message nowMs correlationId sequence :: rest) m' true
  | refuses (m : Memory) (message : Message) (nowMs : Int) (correlationId : String)
      (sequence : Nat) (rest : List Task) (hbus : E.busRaises) :
      CallRuns config E m (.handOver message nowMs correlationId sequence :: rest) m true

/-- The memories between the calls of a coordinator, over any calls in any order. -/
inductive Between (config : Config) (E : Surroundings) : Memory -> Prop where
  | initial : Between config E .initial
  | called {m m' : Memory} {entry : Entry} {raised : Bool} (h : Between config E m)
      (harrives : forall envelope, entry = .receive envelope -> E.arrives m envelope)
      (hcall : CallRuns config E m (start entry) m' raised) : Between config E m'
  | restarted {m : Memory} (h : Between config E m) : Between config E m.restart

/-!
## The map and the store
-/

/-- What the map says of an assignment is so in the store. -/
def ViewAgrees (m : Memory) : Prop :=
  forall assignmentId succeeded status, m.outcomes.lookup assignmentId = some succeeded ->
    m.store.statusForAssignment assignmentId = some status ->
    (flag succeeded = .ok true -> status = .succeeded) ∧
      (flag succeeded = .ok false -> status ≠ .succeeded)

structure ViewIsStore (config : Config) (E : Surroundings) : Prop where
  agrees : forall m, Between config E m -> ViewAgrees m
  unchanged : forall m envelope m', Between config E m -> E.arrives m envelope ->
    CallRuns config E m (start (.receive envelope)) m' true ->
    m'.outcomes = m.outcomes ∧ m'.store = m.store

/-- A step with this status takes an outcome with the other one. -/
def StepStatus.takes (current target : StepStatus) : Bool :=
  if current = .unknown then target != .unknown
  else current.completable || current == target

/-- An outcome whose flag does not contradict its status, and which the store takes. -/
structure Welcome (s : CoordinatorStore) (envelope : Envelope) (assignmentId : String)
    (succeeded : Json) (status : AssignmentStatus) (target : StepStatus) (row : StepRow) :
    Prop where
  member : (envelope.payload.item "status" >>= assignmentStatus) = .ok status
  agrees : forall b, flag succeeded = .ok b -> b = decide (status = .succeeded)
  mapped : outcomeStep? status = some target
  stored : row ∈ s.runSteps.rows
  own : row.assignmentId = assignmentId
  takes : row.status.takes target = true
  fits : bindInteger envelope.timestampMs = .ok ()

/-- Every outcome message that the handler enters in the map is welcome. -/
def ArrivesWelcome (m : Memory) (envelope : Envelope) : Prop :=
  envelope.messageType = .outcome -> forall assignmentId succeeded,
    addressed m.store envelope "outcome" = .ok (some assignmentId) ->
    envelope.payload.item "succeeded" = .ok succeeded ->
    exists status target row, Welcome m.store envelope assignmentId succeeded status target row

def welcoming : Surroundings where
  arrives := ArrivesWelcome
  busRaises := False

/-!
## The store under an outcome
-/

theorem succeeded_iff {s s' : CoordinatorStore} {operation : Operation}
    (h : Committed s operation s') {row row' : StepRow} (hrow : row ∈ s.runSteps.rows)
    (hrow' : row' ∈ s'.runSteps.rows) (hid : row'.assignmentId = row.assignmentId)
    (htarget : operation.target? ≠ some (row.assignmentId, .succeeded)) :
    row'.status = .succeeded <-> row.status = .succeeded := by
  have hsettled : row.status.settled = true -> row' = row := fun hsettled =>
    eq_of_assignmentId hrow' (h.evolves.settled hrow hsettled) hid
  constructor
  · intro hsucceeded
    cases hopen : row.status.settled with
    | true => rwa [← hsettled hopen]
    | false =>
        rcases h.settled_by hrow hopen hrow' hid (by rw [hsucceeded]; rfl) with
          hwritten | ⟨_, _, _, _, hcancelled⟩
        · rw [hsucceeded] at hwritten
          exact absurd hwritten htarget
        · rw [hsucceeded] at hcancelled
          cases hcancelled
  · intro hsucceeded
    rw [hsettled (by rw [hsucceeded]; rfl)]
    exact hsucceeded

theorem mem_written {s : CoordinatorStore} {row : StepRow} (hrow : row ∈ s.runSteps.rows)
    (target : StepStatus) :
    { row with status := target } ∈ (s.written row target).runSteps.rows := by
  unfold written
  rw [runSteps_refreshed, rows_setSteps]
  exact List.mem_map.mpr ⟨row, hrow, by simp⟩

theorem writeStep_ok (s : CoordinatorStore) (row : StepRow) (target : StepStatus) {nowMs : Int}
    (hfits : bindInteger nowMs = .ok ()) :
    s.writeStep row target nowMs = .ok (some row.planId, s.written row target) := by
  unfold writeStep refreshRun
  rw [hfits]
  rfl

theorem completable_of_takes {current target : StepStatus}
    (htakes : current.takes target = true) (hknown : current ≠ .unknown)
    (hterminal : current.terminal = true) : current = target := by
  unfold StepStatus.takes at htakes
  rw [if_neg hknown, Bool.or_eq_true] at htakes
  rcases htakes with hcompletable | hsame
  · cases current <;> simp [StepStatus.completable, StepStatus.terminal] at hcompletable hterminal
  · exact eq_of_beq hsame

theorem recordOutcome_ok {s : CoordinatorStore} {row : StepRow} {status : AssignmentStatus}
    {target : StepStatus} {nowMs : Int} (hrow : row ∈ s.runSteps.rows)
    (hknown : row.status ≠ .unknown) (htarget : outcomeStep? status = some target)
    (htakes : row.status.takes target = true) (hfits : bindInteger nowMs = .ok ()) :
    exists s', s.recordOutcome row.assignmentId status nowMs = .ok (some row.planId, s') ∧
      { row with status := target } ∈ s'.runSteps.rows := by
  unfold recordOutcome transition
  rw [htarget, step?_of_mem hrow]
  dsimp only
  by_cases hterminal : row.status.terminal = true
  · have hsame := completable_of_takes htakes hknown hterminal
    refine ⟨s.refreshed row.planId, ?_, ?_⟩
    · rw [if_pos hterminal, if_neg Bool.false_ne_true, if_neg (not_not.mpr hsame)]
      unfold refreshRun
      rw [hfits]
      rfl
    · rw [← hsame]
      exact hrow
  · have hcompletable : row.status.completable = true := by
      unfold StepStatus.takes at htakes
      rw [if_neg hknown, Bool.or_eq_true] at htakes
      rcases htakes with hcompletable | hsame
      · exact hcompletable
      · rw [eq_of_beq hsame] at hterminal
        exact absurd (outcomeStep?_terminal htarget) hterminal
    refine ⟨s.written row target, ?_, mem_written hrow target⟩
    rw [if_neg hterminal, if_neg Bool.false_ne_true, if_pos hcompletable]
    exact writeStep_ok s row target hfits

theorem reconcileOutcome_ok {s : CoordinatorStore} {row : StepRow} {status : AssignmentStatus}
    {target : StepStatus} {nowMs : Int} (hrow : row ∈ s.runSteps.rows)
    (hunknown : row.status = .unknown) (htarget : outcomeStep? status = some target)
    (htakes : row.status.takes target = true) (hfits : bindInteger nowMs = .ok ()) :
    exists s', s.reconcileOutcome row.assignmentId status nowMs = .ok (some row.planId, s') ∧
      { row with status := target } ∈ s'.runSteps.rows := by
  have hreconciled : reconciledStep? status = some target := by
    cases status with
    | unknown =>
        cases htarget
        rw [hunknown] at htakes
        cases htakes
    | _ => exact htarget
  refine ⟨s.written row target, ?_, mem_written hrow target⟩
  unfold reconcileOutcome
  rw [hreconciled, step?_of_mem hrow]
  dsimp only
  rw [if_neg (not_not.mpr hunknown)]
  exact writeStep_ok s row target hfits

/-!
## The tasks of one call

Between the task that enters an outcome in the map and the one that records it the map is
ahead of the store. Nothing is published in between, so no other handler sees this.
-/

structure Faithful (m : Memory) : Prop where
  view : forall assignmentId succeeded, m.outcomes.lookup assignmentId = some succeeded ->
    exists row, row ∈ m.store.runSteps.rows ∧ row.assignmentId = assignmentId ∧
      forall b, flag succeeded = .ok b -> b = decide (row.status = .succeeded)
  anchored : forall row, row ∈ m.store.runSteps.rows ->
    exists run, run ∈ m.store.runs.rows ∧ run.planId = row.planId

theorem Faithful.agrees {m : Memory} (h : Faithful m) : ViewAgrees m := by
  intro assignmentId succeeded status hlookup hstatus
  rcases h.view assignmentId succeeded hlookup with ⟨row, hrow, rfl, hflag⟩
  unfold statusForAssignment at hstatus
  rw [step?_of_mem hrow] at hstatus
  cases hstatus
  exact ⟨fun htrue => of_decide_eq_true (hflag true htrue).symm,
    fun hfalse => of_decide_eq_false (hflag false hfalse).symm⟩

theorem lookup_setKey (entries : List (String × value)) (key other : String) (v : value) :
    (setKey entries key v).lookup other =
      if other = key then some v else entries.lookup other := by
  unfold setKey
  rw [List.lookup_cons]
  by_cases hother : other = key
  · simp [hother]
  · rw [beq_eq_false_iff_ne.mpr hother, if_neg hother]
    dsimp only
    induction entries with
    | nil => rfl
    | cons head rest ih =>
        rcases head with ⟨name, entry⟩
        by_cases hname : name = key
        · rw [List.filter_cons_of_neg (by simp [hname]), ih, List.lookup_cons, hname,
            beq_eq_false_iff_ne.mpr hother]
        · rw [List.filter_cons_of_pos (by simpa using hname), List.lookup_cons, List.lookup_cons,
            ih]

theorem Faithful.entered {m m' : Memory} {operation : Operation} {assignmentId : String}
    {row : StepRow} {succeeded : Json} (h : Faithful m)
    (houtcomes : m'.outcomes = setKey m.outcomes assignmentId succeeded)
    (hstore : Committed m.store operation m'.store)
    (htarget : forall other status, operation.target? = some (other, status) ->
      other = assignmentId)
    (hrow : row ∈ m'.store.runSteps.rows) (hid : row.assignmentId = assignmentId)
    (hflag : forall b, flag succeeded = .ok b -> b = decide (row.status = .succeeded)) :
    Faithful m' := by
  refine ⟨?_, anchored_of_evolves h.anchored hstore.evolves⟩
  intro otherId found hlookup
  rw [houtcomes, lookup_setKey] at hlookup
  by_cases hown : otherId = assignmentId
  · rw [if_pos hown] at hlookup
    cases hlookup
    exact ⟨row, hrow, hid.trans hown.symm, hflag⟩
  · rw [if_neg hown] at hlookup
    rcases h.view otherId found hlookup with ⟨old, hold, rfl, holdFlag⟩
    rcases hstore.evolves.kept old hold with ⟨status, hkept, _⟩
    refine ⟨{ old with status := status }, hkept, rfl, ?_⟩
    intro b hb
    rw [holdFlag b hb, decide_eq_decide]
    exact (succeeded_iff hstore hold hkept rfl
      (fun hsame => hown (htarget _ _ hsame))).symm

def Task.informs : Task -> Bool
  | .outcome _ => true
  | .outcomeStatus _ _ _ => true
  | .recordOutcome _ _ _ => true
  | .reconcileOutcome _ _ _ => true
  | .assignmentSnapshot _ => true
  | .reconcileSnapshot _ _ _ _ => true
  | _ => false

theorem target?_of_plain {t : Task} (ht : t.informs = false) {operation : Operation}
    (hoperation : t.operation? = some operation) (assignmentId : String) :
    operation.target? ≠ some (assignmentId, .succeeded) := by
  cases t with
  | recordAcknowledgement _ status _ =>
      cases hoperation
      cases status <;> simp [Operation.target?, acknowledgedStep?]
  | recordCancellationAcknowledgement _ accepted _ =>
      cases hoperation
      cases accepted <;> simp [Operation.target?]
  | createRun _ _ _ _ =>
      cases hoperation
      simp [Operation.target?]
  | dispatch _ _ =>
      cases hoperation
      simp [Operation.target?]
  | cancel _ _ _ =>
      cases hoperation
      simp [Operation.target?]
  | recordOutcome _ _ _ => cases ht
  | reconcileOutcome _ _ _ => cases ht
  | reconcileSnapshot _ _ _ _ => cases ht
  | _ => cases hoperation

theorem Faithful.committed {m m' : Memory} {operation : Operation} (h : Faithful m)
    (houtcomes : m'.outcomes = m.outcomes) (hstore : Committed m.store operation m'.store)
    (htarget : forall assignmentId, operation.target? ≠ some (assignmentId, .succeeded)) :
    Faithful m' := by
  refine ⟨?_, anchored_of_evolves h.anchored hstore.evolves⟩
  intro assignmentId succeeded hlookup
  rw [houtcomes] at hlookup
  rcases h.view assignmentId succeeded hlookup with ⟨row, hrow, rfl, hflag⟩
  rcases hstore.evolves.kept row hrow with ⟨status, hkept, _⟩
  refine ⟨{ row with status := status }, hkept, rfl, ?_⟩
  intro b hb
  rw [hflag b hb, decide_eq_decide]
  exact (succeeded_iff hstore hrow hkept rfl (htarget row.assignmentId)).symm

theorem exec_outcomes_of_attempt {m : Memory} {outcomes : List (String × Json)}
    {x : Except Exn value} {next : value -> Memory × Flow Task} (hm : m.outcomes = outcomes)
    (h : forall v, (next v).1.outcomes = outcomes) : (attempt m x next).1.outcomes = outcomes := by
  cases x with
  | ok v => exact h v
  | error e => exact hm

theorem exec_outcomes (config : Config) (m : Memory) {t : Task} (r : Reading)
    (ht : t.informs = false) : (exec config m t r).1.outcomes = m.outcomes := by
  cases t with
  | submit goal nowMs =>
      rw [exec]
      exact exec_outcomes_of_attempt rfl (fun _ => rfl)
  | submitMany goals nowMs =>
      rw [exec]
      exact exec_outcomes_of_attempt rfl (fun _ => exec_outcomes_of_attempt rfl (fun _ => rfl))
  | prepareMany goals prepared nowMs =>
      cases goals <;> rw [exec] <;> exact exec_outcomes_of_attempt rfl (fun _ => rfl)
  | replan previousPlanId nowMs =>
      rw [exec]
      cases m.store.run? previousPlanId with
      | none => rfl
      | some run => exact exec_outcomes_of_attempt rfl (fun _ => rfl)
  | replanFrom previous goal nowMs =>
      rw [exec]
      exact exec_outcomes_of_attempt rfl (fun _ => exec_outcomes_of_attempt rfl (fun _ =>
        exec_outcomes_of_attempt rfl (fun _ => exec_outcomes_of_attempt rfl (fun _ => rfl))))
  | createRun goal plan assignments nowMs =>
      rw [exec]
      exact exec_outcomes_of_attempt rfl (fun _ => rfl)
  | publish message nowMs correlationId => rfl
  | handOver message nowMs correlationId sequence => rfl
  | dispatchReady planId nowMs =>
      rw [exec]
      exact exec_outcomes_of_attempt rfl (fun _ => rfl)
  | dispatch assignment nowMs =>
      rw [exec]
      exact exec_outcomes_of_attempt rfl (fun _ => rfl)
  | acknowledgement envelope =>
      rw [exec]
      apply exec_outcomes_of_attempt rfl
      rintro (_ | assignmentId)
      · rfl
      · exact exec_outcomes_of_attempt rfl (fun _ => rfl)
  | recordAcknowledgement assignmentId status nowMs =>
      rw [exec]
      exact exec_outcomes_of_attempt rfl (fun _ => rfl)
  | cancellationAcknowledgement envelope =>
      rw [exec]
      apply exec_outcomes_of_attempt rfl
      rintro (_ | assignmentId)
      · rfl
      · exact exec_outcomes_of_attempt rfl (fun _ => rfl)
  | recordCancellationAcknowledgement assignmentId accepted nowMs =>
      rw [exec]
      exact exec_outcomes_of_attempt rfl (fun _ => rfl)
  | cancel planId reason nowMs =>
      rw [exec]
      exact exec_outcomes_of_attempt rfl (fun _ => exec_outcomes_of_attempt rfl (fun _ => rfl))
  | reconcile planId nowMs => rfl
  | resumeActive nowMs => rfl
  | _ => cases ht

theorem Faithful.plain {config : Config} {m : Memory} {t : Task} (h : Faithful m)
    (ht : t.informs = false) (r : Reading) : Faithful (exec config m t r).1 := by
  have houtcomes := exec_outcomes config m r ht
  rcases exec_committed config m t r with hsame | ⟨operation, hoperation, hcommitted⟩
  · have hunchanged : Committed m.store (.reopen false) (exec config m t r).1.store := by
      rw [hsame]
      exact .unchanged _
    exact h.committed houtcomes hunchanged (fun _ => by simp [Operation.target?])
  · exact h.committed houtcomes hcommitted (target?_of_plain ht hoperation)

theorem plain_left {config : Config} {m : Memory} {t t' : Task} {r : Reading}
    (ht : t.informs = false) (h : t' ∈ (exec config m t r).2.tasks) : t'.informs = false := by
  have hannounced : forall {goal : SharedGoal} {plan : Plan} {nowMs : Int},
      t' ∈ announce goal plan nowMs -> t'.informs = false := by
    intro goal plan nowMs hmem
    simp only [announce, List.mem_cons, List.not_mem_nil, or_false] at hmem
    rcases hmem with rfl | rfl | rfl <;> rfl
  have hcreated : forall {goal : SharedGoal} {plan : Plan} {assignments : List Assignment}
      {nowMs : Int}, t' ∈ created goal plan assignments nowMs -> t'.informs = false := by
    intro goal plan assignments nowMs hmem
    rcases List.mem_cons.mp hmem with rfl | hmem
    · rfl
    · exact hannounced hmem
  cases exec_succeeds config m r h with
  | submitted _ hmem => exact hcreated hmem
  | announcesPrepared _ hmem => exact hannounced hmem
  | replanned _ _ hmem => exact hcreated hmem
  | _ => first | rfl | cases ht

/-!
## The handler of a snapshot
-/

theorem reconcileOutcome_eq_ok {s s' : CoordinatorStore} {row : StepRow}
    {status : AssignmentStatus} {nowMs : Int} {planId : Option String}
    (hrow : row ∈ s.runSteps.rows)
    (h : s.reconcileOutcome row.assignmentId status nowMs = .ok (planId, s')) :
    exists target, outcomeStep? status = some target ∧ planId = some row.planId ∧
      { row with status := target } ∈ s'.runSteps.rows ∧ bindInteger nowMs = .ok () := by
  unfold reconcileOutcome at h
  cases htarget : reconciledStep? status with
  | none =>
      rw [htarget] at h
      cases h
  | some target =>
      rw [htarget, step?_of_mem hrow] at h
      dsimp only at h
      split_ifs at h with hunknown
      have hwritten := writeStep_eq_ok h
      cases hwritten
      rcases bind_eq_ok.mp h with ⟨_, hrefresh, _⟩
      rcases bind_eq_ok.mp hrefresh with ⟨_, hfits, _⟩
      refine ⟨target, ?_, rfl, mem_written hrow target, hfits⟩
      cases status with
      | unknown => cases htarget
      | _ => exact htarget

theorem flag_of_snapshotOutcome {data succeeded : Json} {outcome : Outcome} {b : Bool}
    (h : snapshotOutcome data = .ok outcome) (hmember : data.item "succeeded" = .ok succeeded)
    (hflag : flag succeeded = .ok b) : b = decide (outcome.status = .succeeded) := by
  unfold snapshotOutcome at h
  rcases bind_eq_ok.mp h with ⟨_, _, h⟩
  rcases bind_eq_ok.mp h with ⟨_, _, h⟩
  rcases bind_eq_ok.mp h with ⟨value, hvalue, h⟩
  rcases bind_eq_ok.mp h with ⟨_, _, h⟩
  rcases bind_eq_ok.mp h with ⟨_, _, h⟩
  rcases bind_eq_ok.mp h with ⟨_, _, h⟩
  rw [hmember] at hvalue
  have hsame : b = value := Except.ok.inj (hflag.symm.trans hvalue)
  unfold Outcome.make at h
  rcases bind_eq_ok.mp h with ⟨_, _, h⟩
  rcases bind_eq_ok.mp h with ⟨_, _, h⟩
  rcases bind_eq_ok.mp h with ⟨_, _, h⟩
  split_ifs at h with _ hagrees
  rcases bind_eq_ok.mp h with ⟨_, _, h⟩
  rcases bind_eq_ok.mp h with ⟨_, _, h⟩
  cases h
  exact hsame.trans hagrees

theorem exec_assignmentSnapshot (config : Config) (m : Memory) (envelope : Envelope)
    (r : Reading) :
    exec config m (.assignmentSnapshot envelope) r = (m, .raised) ∨
      exec config m (.assignmentSnapshot envelope) r = (m, .next []) ∨
      exists row status succeeded, row ∈ m.store.runSteps.rows ∧
        (forall b, flag succeeded = .ok b -> b = decide (status = .succeeded)) ∧
        exec config m (.assignmentSnapshot envelope) r =
          (m, .next [.reconcileSnapshot row.assignmentId status succeeded
            envelope.timestampMs]) := by
  rw [exec]
  cases haddressed : addressed m.store envelope "snapshot" with
  | error e => exact Or.inl rfl
  | ok found =>
      cases found with
      | none => exact Or.inr (Or.inl rfl)
      | some assignmentId =>
          rcases (addressed_eq_ok haddressed).2 with ⟨row, hrow, rfl, _⟩
          simp only [attempt]
          cases hmember : envelope.payload.get "outcome" .null with
          | error e => exact Or.inl rfl
          | ok outcomeData =>
              dsimp only
              by_cases hnull : outcomeData.isNull = true
              · rw [if_pos hnull]
                exact Or.inr (Or.inl rfl)
              · rw [if_neg hnull]
                cases hbuilt : snapshotOutcome outcomeData with
                | error e => exact Or.inl rfl
                | ok outcome =>
                    dsimp only
                    cases hagreed : snapshotStatus config m.store row.assignmentId
                        envelope.payload outcome with
                    | error e => exact Or.inl rfl
                    | ok status =>
                        dsimp only
                        cases hsucceeded : outcomeData.item "succeeded" with
                        | error e => exact Or.inl rfl
                        | ok succeeded =>
                            refine Or.inr (Or.inr ⟨row, status, succeeded, hrow, ?_, rfl⟩)
                            intro b hb
                            rw [flag_of_snapshotOutcome hbuilt hsucceeded hb,
                              (snapshotStatus_eq_ok hagreed).1]

theorem exec_reconcileSnapshot (config : Config) {m : Memory} {row : StepRow}
    (hrow : row ∈ m.store.runSteps.rows) (status : AssignmentStatus) (succeeded : Json)
    (nowMs : Int) (r : Reading) :
    exec config m (.reconcileSnapshot row.assignmentId status succeeded nowMs) r =
        (m, .raised) ∨
      exists store target, outcomeStep? status = some target ∧
        { row with status := target } ∈ store.runSteps.rows ∧ bindInteger nowMs = .ok () ∧
        Committed m.store (.reconcileOutcome row.assignmentId status nowMs) store ∧
        exec config m (.reconcileSnapshot row.assignmentId status succeeded nowMs) r =
          ({ m with
            store := store
            outcomes := setKey m.outcomes row.assignmentId succeeded },
            .next [.dispatchReady row.planId nowMs]) := by
  rw [exec]
  cases hreconciled : m.store.reconcileOutcome row.assignmentId status nowMs with
  | error e => exact Or.inl rfl
  | ok result =>
      rcases result with ⟨planId, store⟩
      rcases reconcileOutcome_eq_ok hrow hreconciled with ⟨target, htarget, rfl, hmem, hfits⟩
      exact Or.inr ⟨store, target, htarget, hmem, hfits,
        reconcileOutcome_committed hreconciled, rfl⟩

/-!
## The handler of an outcome
-/

theorem exec_outcome (config : Config) {m : Memory} {envelope : Envelope} (r : Reading)
    (htype : envelope.messageType = .outcome) (hwelcome : ArrivesWelcome m envelope) :
    exec config m (.outcome envelope) r = (m, .raised) ∨
      exec config m (.outcome envelope) r = (m, .next []) ∨
      exists assignmentId succeeded status target row,
        Welcome m.store envelope assignmentId succeeded status target row ∧
        exec config m (.outcome envelope) r =
          ({ m with outcomes := setKey m.outcomes assignmentId succeeded },
            .next [.outcomeStatus assignmentId status envelope.timestampMs]) := by
  rw [exec]
  cases haddressed : addressed m.store envelope "outcome" with
  | error e => exact Or.inl rfl
  | ok found =>
      cases found with
      | none => exact Or.inr (Or.inl rfl)
      | some assignmentId =>
          simp only [attempt]
          cases hmember : envelope.payload.item "succeeded" with
          | error e => exact Or.inl rfl
          | ok succeeded =>
              rcases hwelcome htype assignmentId succeeded haddressed hmember with
                ⟨status, target, row, h⟩
              refine Or.inr (Or.inr ⟨assignmentId, succeeded, status, target, row, h, ?_⟩)
              dsimp only
              rw [h.member]

theorem outcomeStep?_succeeded {status : AssignmentStatus} {target : StepStatus}
    (h : outcomeStep? status = some target) : target = .succeeded <-> status = .succeeded := by
  cases status <;> cases h <;> simp

theorem statusForAssignment_of_mem {s : CoordinatorStore} {row : StepRow}
    (hrow : row ∈ s.runSteps.rows) :
    s.statusForAssignment row.assignmentId = some row.status := by
  unfold statusForAssignment
  rw [step?_of_mem hrow]
  rfl

/-- The task stores the outcome of a step and leaves the dispatch of its run. -/
structure Records (config : Config) (m : Memory) (row : StepRow) (target : StepStatus)
    (nowMs : Int) (t : Task) : Prop where
  handsOverNothing : forall message ms correlationId sequence,
    t ≠ .handOver message ms correlationId sequence
  stores : forall r, exists store operation, Committed m.store operation store ∧
    (forall other status, operation.target? = some (other, status) ->
      other = row.assignmentId) ∧
    { row with status := target } ∈ store.runSteps.rows ∧
    exec config m t r = ({ m with store := store }, .next [.dispatchReady row.planId nowMs])

theorem exec_outcomeStatus (config : Config) {m : Memory} {row : StepRow}
    {status : AssignmentStatus} {target : StepStatus} {nowMs : Int} (r : Reading)
    (hrow : row ∈ m.store.runSteps.rows) (htarget : outcomeStep? status = some target)
    (htakes : row.status.takes target = true) (hfits : bindInteger nowMs = .ok ()) :
    exists t, exec config m (.outcomeStatus row.assignmentId status nowMs) r = (m, .next [t]) ∧
      Records config m row target nowMs t := by
  rw [exec, statusForAssignment_of_mem hrow]
  by_cases hunknown : row.status = .unknown
  · rcases reconcileOutcome_ok hrow hunknown htarget htakes hfits with ⟨store, hok, hmem⟩
    refine ⟨.reconcileOutcome row.assignmentId status nowMs, by rw [hunknown, if_pos rfl], ?_, ?_⟩
    · intro _ _ _ _ hsame
      cases hsame
    · intro r'
      refine ⟨store, _, reconcileOutcome_committed hok, ?_, hmem, by rw [exec, hok]; rfl⟩
      intro other status' hsame
      rcases Option.map_eq_some_iff.mp hsame with ⟨_, _, hpair⟩
      exact (Prod.mk.inj hpair).1.symm
  · rcases recordOutcome_ok hrow hunknown htarget htakes hfits with ⟨store, hok, hmem⟩
    refine ⟨.recordOutcome row.assignmentId status nowMs, ?_, ?_, ?_⟩
    · rw [if_neg (fun hsome => hunknown (Option.some.inj hsome))]
    · intro _ _ _ _ hsame
      cases hsame
    · intro r'
      have hcommitted : m.store.commit (.recordOutcome row.assignmentId status nowMs) =
          .ok store := by
        show (m.store.recordOutcome row.assignmentId status nowMs).map Prod.snd = .ok store
        rw [hok]
        rfl
      refine ⟨store, _, commit_committed hcommitted, ?_, hmem, by rw [exec, hok]; rfl⟩
      intro other status' hsame
      rcases Option.map_eq_some_iff.mp hsame with ⟨_, _, hpair⟩
      exact (Prod.mk.inj hpair).1.symm

/-!
## Every call keeps the map faithful
-/

/-- The map has the outcome that the store is about to take. -/
structure Ahead (m : Memory) (row : StepRow) (status : AssignmentStatus) (target : StepStatus)
    (nowMs : Int) : Prop where
  entered : exists outcomes succeeded, m.outcomes = setKey outcomes row.assignmentId succeeded ∧
    Faithful { m with outcomes := outcomes } ∧
    forall b, flag succeeded = .ok b -> b = decide (status = .succeeded)
  mapped : outcomeStep? status = some target
  stored : row ∈ m.store.runSteps.rows
  takes : row.status.takes target = true
  fits : bindInteger nowMs = .ok ()

/-- How a memory stands to the tasks that are left of a call. -/
inductive Stage (config : Config) (m : Memory) : List Task -> Prop where
  | plain {ts : List Task} (h : Faithful m) (hts : forall t, t ∈ ts -> t.informs = false) :
      Stage config m ts
  | received {envelope : Envelope} (h : Faithful m) (htype : envelope.messageType = .outcome)
      (hwelcome : ArrivesWelcome m envelope) : Stage config m [.outcome envelope]
  | entered {row : StepRow} {status : AssignmentStatus} {target : StepStatus} {nowMs : Int}
      (h : Ahead m row status target nowMs) :
      Stage config m [.outcomeStatus row.assignmentId status nowMs]
  | recording {row : StepRow} {status : AssignmentStatus} {target : StepStatus} {nowMs : Int}
      {t : Task} (h : Ahead m row status target nowMs)
      (hrecords : Records config m row target nowMs t) : Stage config m [t]
  | reported {envelope : Envelope} (h : Faithful m) :
      Stage config m [.assignmentSnapshot envelope]
  | evidenced {row : StepRow} {status : AssignmentStatus} {succeeded : Json} {nowMs : Int}
      (h : Faithful m) (hrow : row ∈ m.store.runSteps.rows)
      (hflag : forall b, flag succeeded = .ok b -> b = decide (status = .succeeded)) :
      Stage config m [.reconcileSnapshot row.assignmentId status succeeded nowMs]

/-- A task leaves its call at a stage, or raises with a faithful map. -/
structure StageAfter (config : Config) (rest : List Task) (result : Memory × Flow Task) :
    Prop where
  next : forall left, result.2 = .next left -> Stage config result.1 (left ++ rest)
  raised : result.2 = .raised -> Faithful result.1

theorem StageAfter.of_raised {config : Config} {m : Memory} (h : Faithful m) (rest : List Task) :
    StageAfter config rest (m, .raised) :=
  ⟨fun _ hnext => (by cases hnext), fun _ => h⟩

theorem StageAfter.of_next {config : Config} {m : Memory} {left rest : List Task}
    (h : Stage config m (left ++ rest)) : StageAfter config rest (m, .next left) :=
  ⟨fun _ hnext => (by cases hnext; exact h), fun hraised => (by cases hraised)⟩

theorem stage_dispatch {config : Config} {m : Memory} (h : Faithful m) (planId : String)
    (nowMs : Int) : Stage config m ([.dispatchReady planId nowMs] ++ []) := by
  refine .plain h ?_
  intro t ht
  rw [List.mem_singleton.mp ht]
  rfl

theorem Stage.step {config : Config} {m : Memory} {t : Task} {rest : List Task} (r : Reading)
    (h : Stage config m (t :: rest)) : StageAfter config rest (exec config m t r) := by
  cases h with
  | plain h hts =>
      have ht := hts t List.mem_cons_self
      have hafter : Faithful (exec config m t r).1 := h.plain ht r
      refine ⟨?_, fun _ => hafter⟩
      intro left hleft
      refine .plain hafter ?_
      intro t' ht'
      rcases List.mem_append.mp ht' with hnew | hold
      · exact plain_left ht (r := r) (by rw [hleft]; exact hnew)
      · exact hts t' (List.mem_cons_of_mem _ hold)
  | received h htype hwelcome =>
      rcases exec_outcome config r htype hwelcome with hexec | hexec |
        ⟨assignmentId, succeeded, status, target, row, hone, hexec⟩
      · rw [hexec]
        exact .of_raised h []
      · rw [hexec]
        exact .of_next (.plain h (fun _ ht => by cases ht))
      · rw [hexec]
        rw [← hone.own]
        exact .of_next (.entered
          { entered := ⟨m.outcomes, succeeded, rfl, h, hone.agrees⟩
            mapped := hone.mapped
            stored := hone.stored
            takes := hone.takes
            fits := hone.fits })
  | entered h =>
      rcases exec_outcomeStatus config r h.stored h.mapped h.takes h.fits with
        ⟨t, hexec, hrecords⟩
      rw [hexec]
      exact .of_next (.recording h hrecords)
  | @recording row status target nowMs _ h hrecords =>
      rcases hrecords.stores r with ⟨store, operation, hcommitted, htarget, hmem, hexec⟩
      rcases h.entered with ⟨outcomes, succeeded, houtcomes, hfaithful, hflag⟩
      rw [hexec]
      apply StageAfter.of_next
      apply stage_dispatch
      refine hfaithful.entered houtcomes hcommitted htarget hmem rfl ?_
      intro b hb
      rw [hflag b hb, decide_eq_decide]
      exact (outcomeStep?_succeeded h.mapped).symm
  | reported h =>
      rcases exec_assignmentSnapshot config m _ r with hexec | hexec |
        ⟨row, status, succeeded, hrow, hflag, hexec⟩
      · rw [hexec]
        exact .of_raised h []
      · rw [hexec]
        exact .of_next (.plain h (fun _ ht => by cases ht))
      · rw [hexec]
        exact .of_next (.evidenced h hrow hflag)
  | @evidenced row status succeeded nowMs h hrow hflag =>
      rcases exec_reconcileSnapshot config hrow status succeeded nowMs r with hexec |
        ⟨store, target, htarget, hmem, _, hcommitted, hexec⟩
      · rw [hexec]
        exact .of_raised h []
      · rw [hexec]
        apply StageAfter.of_next
        apply stage_dispatch
        refine h.entered rfl hcommitted ?_ hmem rfl ?_
        · intro other status' hsame
          rcases Option.map_eq_some_iff.mp hsame with ⟨_, _, hpair⟩
          exact (Prod.mk.inj hpair).1.symm
        · intro b hb
          rw [hflag b hb, decide_eq_decide]
          exact (outcomeStep?_succeeded htarget).symm

theorem stage_receive (config : Config) {m : Memory} {envelope : Envelope} (h : Faithful m)
    (harrives : ArrivesWelcome m envelope) : Stage config m (start (.receive envelope)) := by
  unfold start
  dsimp only
  cases htype : envelope.messageType with
  | outcome => exact .received h htype harrives
  | assignmentSnapshot => exact .reported h
  | assignmentAck =>
      refine .plain h (fun t ht => ?_)
      rw [List.mem_singleton.mp ht]
      rfl
  | cancellationAck =>
      refine .plain h (fun t ht => ?_)
      rw [List.mem_singleton.mp ht]
      rfl
  | _ => exact .plain h (fun _ ht => by cases ht)

theorem stage_start (config : Config) {m : Memory} {entry : Entry} (h : Faithful m)
    (harrives : forall envelope, entry = .receive envelope -> ArrivesWelcome m envelope) :
    Stage config m (start entry) := by
  cases entry with
  | receive envelope => exact stage_receive config h (harrives envelope rfl)
  | _ =>
      refine .plain h (fun t ht => ?_)
      rw [List.mem_singleton.mp ht]
      rfl

theorem Stage.handingOver {config : Config} {m : Memory} {message : Message} {nowMs : Int}
    {correlationId : String} {sequence : Nat} {rest : List Task}
    (h : Stage config m (.handOver message nowMs correlationId sequence :: rest)) :
    Faithful m ∧ forall t, t ∈ Task.handOver message nowMs correlationId sequence :: rest ->
      t.informs = false := by
  cases h with
  | plain h hts => exact ⟨h, hts⟩
  | recording h hrecords => exact absurd rfl (hrecords.handsOverNothing _ _ _ _)

theorem faithful_of_callRuns {config : Config} {m m' : Memory} {ts : List Task} {raised : Bool}
    (h : CallRuns config welcoming m ts m' raised) (hstage : Stage config m ts) :
    Faithful m' := by
  induction h with
  | done m =>
      cases hstage with
      | plain h _ => exact h
  | goes r hexec hrest ih =>
      have hafter := hstage.step r
      rw [hexec] at hafter
      exact ih (hafter.next _ rfl)
  | raises rest r hexec =>
      have hafter := hstage.step r
      rw [hexec] at hafter
      exact hafter.raised rfl
  | delivers harrives hcall hrest ihCall ihRest =>
      rcases hstage.handingOver with ⟨hfaithful, hplain⟩
      exact ihRest (.plain (ihCall (stage_receive config hfaithful harrives)) hplain)
  | handlerRaises _ _ _ _ _ hbus _ _ _ => exact hbus.elim
  | refuses _ _ _ _ _ _ hbus => exact hbus.elim

theorem Faithful.restart {m : Memory} (h : Faithful m) : Faithful m.restart := by
  have hrecovered : Committed m.store (.reopen true) m.restart.store := .recovered
  refine ⟨?_, anchored_of_evolves h.anchored hrecovered.evolves⟩
  intro assignmentId succeeded hlookup
  cases hlookup

theorem faithful_between {config : Config} {m : Memory} (h : Between config welcoming m) :
    Faithful m := by
  induction h with
  | initial =>
      constructor
      · intro assignmentId succeeded hlookup
        cases hlookup
      · intro row hrow
        cases hrow
  | called _ harrives hcall ih =>
      exact faithful_of_callRuns hcall (stage_start config ih harrives)
  | restarted _ ih => exact ih.restart

/-!
## A handler that raises has changed nothing

Once the store has taken an outcome, what is left of the call dispatches a run that exists,
at a time that has just been stored; only the bus could raise there.
-/

def Task.ServesDispatch (s : CoordinatorStore) (nowMs : Int) : Task -> Prop
  | .dispatchReady planId ms => ms = nowMs ∧ exists run, run ∈ s.runs.rows ∧ run.planId = planId
  | .dispatch _ ms => ms = nowMs
  | .publish _ _ _ => True
  | .handOver _ _ _ _ => True
  | _ => False

def KeepsRuns (s s' : CoordinatorStore) : Prop :=
  forall run, run ∈ s.runs.rows -> exists run', run' ∈ s'.runs.rows ∧ run'.planId = run.planId

theorem exec_keepsRuns (config : Config) (m : Memory) (t : Task) (r : Reading) :
    KeepsRuns m.store (exec config m t r).1.store := by
  intro run hrun
  rcases (exec_evolves config m t r).runs run hrun with ⟨status, hkept⟩
  exact ⟨_, hkept, rfl⟩

theorem KeepsRuns.trans {a b c : CoordinatorStore} (hab : KeepsRuns a b) (hbc : KeepsRuns b c) :
    KeepsRuns a c := by
  intro run hrun
  rcases hab run hrun with ⟨mid, hmid, hplan⟩
  rcases hbc mid hmid with ⟨last, hlast, hsame⟩
  exact ⟨last, hlast, hsame.trans hplan⟩

theorem callRuns_keepsRuns {config : Config} {E : Surroundings} {m m' : Memory} {ts : List Task}
    {raised : Bool} (h : CallRuns config E m ts m' raised) : KeepsRuns m.store m'.store := by
  induction h with
  | done m => exact fun run hrun => ⟨run, hrun, rfl⟩
  | @goes m mid _ t _ _ _ r hexec _ ih =>
      have hstep := exec_keepsRuns config m t r
      rw [hexec] at hstep
      exact hstep.trans ih
  | @raises m _ t rest r hexec =>
      have hstep := exec_keepsRuns config m t r
      rw [hexec] at hstep
      exact hstep
  | delivers _ _ _ ihCall ihRest => exact ihCall.trans ihRest
  | handlerRaises _ _ _ _ _ _ _ _ ih => exact ih
  | refuses m _ _ _ _ _ _ => exact fun run hrun => ⟨run, hrun, rfl⟩

theorem Task.ServesDispatch.later {s s' : CoordinatorStore} {nowMs : Int} {t : Task}
    (h : t.ServesDispatch s nowMs) (hruns : KeepsRuns s s') : t.ServesDispatch s' nowMs := by
  cases t with
  | dispatchReady planId ms =>
      rcases h with ⟨hms, run, hrun, hplan⟩
      rcases hruns run hrun with ⟨run', hrun', hsame⟩
      exact ⟨hms, run', hrun', hsame.trans hplan⟩
  | _ => exact h

theorem exec_dispatches (config : Config) {m : Memory} {nowMs : Int} {t : Task} (r : Reading)
    (hfits : bindInteger nowMs = .ok ()) (h : t.ServesDispatch m.store nowMs) :
    exists mid left, exec config m t r = (mid, .next left) ∧
      forall t', t' ∈ left -> t'.ServesDispatch mid.store nowMs := by
  cases t with
  | dispatchReady planId ms =>
      rcases h with ⟨rfl, run, hrun, rfl⟩
      have hready : exists ready, m.store.readyAssignments run.planId = .ok ready := by
        unfold readyAssignments
        rw [run?_of_mem hrun]
        dsimp only
        by_cases hactive : run.status = .active
        · rw [if_pos hactive]
          exact ⟨_, rfl⟩
        · rw [if_neg hactive]
          exact ⟨_, rfl⟩
      rcases hready with ⟨ready, hready⟩
      refine ⟨m, ready.map (fun assignment => .dispatch assignment ms), ?_, ?_⟩
      · rw [exec, hready]
        rfl
      · intro t' ht'
        rcases List.mem_map.mp ht' with ⟨assignment, _, rfl⟩
        rfl
  | dispatch assignment ms =>
      cases h
      rw [exec]
      unfold markDispatched
      rw [hfits]
      refine ⟨_, _, rfl, ?_⟩
      intro t' ht'
      split_ifs at ht'
      · rw [List.mem_singleton.mp ht']
        trivial
      · cases ht'
  | publish message ms correlationId =>
      refine ⟨_, _, rfl, ?_⟩
      intro t' ht'
      rw [List.mem_singleton.mp ht']
      trivial
  | handOver message ms correlationId sequence =>
      exact ⟨_, _, rfl, fun t' ht' => (by cases ht')⟩
  | _ => exact h.elim

theorem dispatch_raises_nothing {config : Config} {m m' : Memory} {ts : List Task}
    {raised : Bool} {nowMs : Int} (h : CallRuns config welcoming m ts m' raised)
    (hfits : bindInteger nowMs = .ok ())
    (hts : forall t, t ∈ ts -> t.ServesDispatch m.store nowMs) : raised = false := by
  induction h with
  | done m => rfl
  | @goes m mid _ t rest left _ r hexec _ ih =>
      rcases exec_dispatches config r hfits (hts t List.mem_cons_self) with
        ⟨mid', left', hexec', hleft⟩
      have hruns := exec_keepsRuns config m t r
      rw [hexec] at hexec' hruns
      cases hexec'
      apply ih
      intro t' ht'
      rcases List.mem_append.mp ht' with hnew | hold
      · exact hleft t' hnew
      · exact (hts t' (List.mem_cons_of_mem _ hold)).later hruns
  | @raises m _ t rest r hexec =>
      rcases exec_dispatches config r hfits (hts t List.mem_cons_self) with
        ⟨_, _, hexec', _⟩
      rw [hexec] at hexec'
      cases hexec'
  | delivers _ hcall _ _ ihRest =>
      exact ihRest (fun t ht => (hts t ht).later (callRuns_keepsRuns hcall))
  | handlerRaises _ _ _ _ _ hbus _ _ _ => exact hbus.elim
  | refuses _ _ _ _ _ _ hbus => exact hbus.elim

theorem CallRuns.first {config : Config} {E : Surroundings} {m m' : Memory} {t : Task}
    {rest : List Task} {raised : Bool} (h : CallRuns config E m (t :: rest) m' raised)
    (ht : forall message ms correlationId sequence,
      t ≠ .handOver message ms correlationId sequence) :
    exists r, (exists mid left, exec config m t r = (mid, .next left) ∧
        CallRuns config E mid (left ++ rest) m' raised) ∨
      exec config m t r = (m', .raised) := by
  cases h with
  | goes r hexec hrest => exact ⟨r, Or.inl ⟨_, _, hexec, hrest⟩⟩
  | raises _ r hexec => exact ⟨r, Or.inr hexec⟩
  | delivers _ _ _ => exact absurd rfl (ht _ _ _ _)
  | handlerRaises _ _ _ _ _ _ _ _ => exact absurd rfl (ht _ _ _ _)
  | refuses _ _ _ _ _ _ _ => exact absurd rfl (ht _ _ _ _)

theorem stored_raises_nothing {config : Config} {m m' : Memory} {row : StepRow} {nowMs : Int}
    (hanchored : forall row, row ∈ m.store.runSteps.rows ->
      exists run, run ∈ m.store.runs.rows ∧ run.planId = row.planId)
    {store : CoordinatorStore} {operation : Operation} (hrow : row ∈ m.store.runSteps.rows)
    (hcommitted : Committed m.store operation store) {mid : Memory} (hmid : mid.store = store)
    (hfits : bindInteger nowMs = .ok ())
    (h : CallRuns config welcoming mid [.dispatchReady row.planId nowMs] m' true) : False := by
  have hraised := dispatch_raises_nothing h hfits (fun t ht => by
    rw [List.mem_singleton.mp ht]
    rcases hanchored row hrow with ⟨run, hrun, hplan⟩
    rcases hcommitted.evolves.runs run hrun with ⟨status, hkept⟩
    exact ⟨rfl, { run with status := status }, by rw [hmid]; exact hkept, hplan⟩)
  cases hraised

theorem recording_raises_nothing {config : Config} {m m' : Memory} {row : StepRow}
    {target : StepStatus} {nowMs : Int} {t : Task}
    (hanchored : forall row, row ∈ m.store.runSteps.rows ->
      exists run, run ∈ m.store.runs.rows ∧ run.planId = row.planId)
    (hrow : row ∈ m.store.runSteps.rows) (hfits : bindInteger nowMs = .ok ())
    (hrecords : Records config m row target nowMs t)
    (h : CallRuns config welcoming m [t] m' true) : False := by
  rcases h.first hrecords.handsOverNothing with ⟨r, hfirst⟩
  rcases hrecords.stores r with ⟨store, operation, hcommitted, _, _, hexec⟩
  rw [hexec] at hfirst
  rcases hfirst with ⟨mid, left, hsame, hrest⟩ | hsame
  · cases hsame
    exact stored_raises_nothing hanchored hrow hcommitted rfl hfits hrest
  · cases hsame

theorem outcome_unchanged {config : Config} {m m' : Memory} {envelope : Envelope}
    (hfaithful : Faithful m) (htype : envelope.messageType = .outcome)
    (hwelcome : ArrivesWelcome m envelope)
    (h : CallRuns config welcoming m [.outcome envelope] m' true) : m' = m := by
  rcases h.first (fun _ _ _ _ hsame => by cases hsame) with ⟨r, hfirst⟩
  rcases exec_outcome config r htype hwelcome with hexec | hexec |
    ⟨assignmentId, succeeded, status, target, row, hone, hexec⟩
  · rw [hexec] at hfirst
    rcases hfirst with ⟨mid, left, hsame, _⟩ | hsame
    · cases hsame
    · cases hsame
      rfl
  · rw [hexec] at hfirst
    rcases hfirst with ⟨mid, left, hsame, hrest⟩ | hsame
    · cases hsame
      cases hrest
    · cases hsame
  · rw [hexec] at hfirst
    rcases hfirst with ⟨mid, left, hsame, hrest⟩ | hsame
    · cases hsame
      rw [List.append_nil, ← hone.own] at hrest
      rcases hrest.first (fun _ _ _ _ hsame => by cases hsame) with ⟨r', hsecond⟩
      have hstored : row ∈ ({ m with
            outcomes := setKey m.outcomes row.assignmentId succeeded } :
          Memory).store.runSteps.rows :=
        hone.stored
      rcases exec_outcomeStatus config r' hstored hone.mapped hone.takes hone.fits with
        ⟨t, hexec', hrecords⟩
      rw [hexec'] at hsecond
      rcases hsecond with ⟨mid, left, hsame, hrest⟩ | hsame
      · cases hsame
        refine (recording_raises_nothing ?_ hstored hone.fits hrecords hrest).elim
        exact hfaithful.anchored
      · cases hsame
    · cases hsame

theorem snapshot_unchanged {config : Config} {m m' : Memory} {envelope : Envelope}
    (hfaithful : Faithful m)
    (h : CallRuns config welcoming m [.assignmentSnapshot envelope] m' true) : m' = m := by
  rcases h.first (fun _ _ _ _ hsame => by cases hsame) with ⟨r, hfirst⟩
  rcases exec_assignmentSnapshot config m envelope r with hexec | hexec |
    ⟨row, status, succeeded, hrow, _, hexec⟩
  · rw [hexec] at hfirst
    rcases hfirst with ⟨mid, left, hsame, _⟩ | hsame
    · cases hsame
    · cases hsame
      rfl
  · rw [hexec] at hfirst
    rcases hfirst with ⟨mid, left, hsame, hrest⟩ | hsame
    · cases hsame
      cases hrest
    · cases hsame
  · rw [hexec] at hfirst
    rcases hfirst with ⟨mid, left, hsame, hrest⟩ | hsame
    · cases hsame
      rcases hrest.first (fun _ _ _ _ hsame => by cases hsame) with ⟨r', hsecond⟩
      rcases exec_reconcileSnapshot config hrow status succeeded envelope.timestampMs r' with
        hexec' | ⟨store, target, _, _, hfits, hcommitted, hexec'⟩
      · rw [hexec'] at hsecond
        rcases hsecond with ⟨mid, left, hsame, _⟩ | hsame
        · cases hsame
        · cases hsame
          rfl
      · rw [hexec'] at hsecond
        rcases hsecond with ⟨mid, left, hsame, hrest⟩ | hsame
        · cases hsame
          exact (stored_raises_nothing hfaithful.anchored hrow hcommitted rfl hfits hrest).elim
        · cases hsame
    · cases hsame

/-- A handler of two tasks, the second of which stores something, if it raises not. -/
structure ShortHandler (config : Config) (m : Memory) (t : Task) : Prop where
  handsOverNothing : forall message ms correlationId sequence,
    t ≠ .handOver message ms correlationId sequence
  first : forall r, exec config m t r = (m, .raised) ∨ exec config m t r = (m, .next []) ∨
    exists mid t', exec config m t r = (mid, .next [t']) ∧
      mid.outcomes = m.outcomes ∧ mid.store = m.store ∧
      (forall message ms correlationId sequence,
        t' ≠ .handOver message ms correlationId sequence) ∧
      forall r', exec config mid t' r' = (mid, .raised) ∨
        exists last, exec config mid t' r' = (last, .next [])

theorem ShortHandler.unchanged {config : Config} {E : Surroundings} {m m' : Memory} {t : Task}
    (ht : ShortHandler config m t) (h : CallRuns config E m [t] m' true) :
    m'.outcomes = m.outcomes ∧ m'.store = m.store := by
  rcases h.first ht.handsOverNothing with ⟨r, hcall⟩
  rcases ht.first r with hexec | hexec | ⟨mid, t', hexec, houtcomes, hstore, hhands, hsecond⟩
  · rw [hexec] at hcall
    rcases hcall with ⟨_, _, hsame, _⟩ | hsame
    · cases hsame
    · cases hsame
      exact ⟨rfl, rfl⟩
  · rw [hexec] at hcall
    rcases hcall with ⟨_, _, hsame, hrest⟩ | hsame
    · cases hsame
      cases hrest
    · cases hsame
  · rw [hexec] at hcall
    rcases hcall with ⟨_, _, hsame, hrest⟩ | hsame
    · cases hsame
      rcases hrest.first hhands with ⟨r', hlast⟩
      rcases hsecond r' with hexec' | ⟨last, hexec'⟩
      · rw [hexec'] at hlast
        rcases hlast with ⟨_, _, hsame, _⟩ | hsame
        · cases hsame
        · cases hsame
          exact ⟨houtcomes, hstore⟩
      · rw [hexec'] at hlast
        rcases hlast with ⟨_, _, hsame, hrest⟩ | hsame
        · cases hsame
          cases hrest
        · cases hsame
    · cases hsame

theorem recorded_once (m : Memory) (x : Except Exn (Option String × CoordinatorStore)) :
    recorded m x (fun m' _ => (m', .next [])) = (m, .raised) ∨
      exists last, recorded m x (fun m' _ => (m', .next [])) = (last, .next []) := by
  cases x with
  | error e => exact Or.inl rfl
  | ok result => exact Or.inr ⟨_, rfl⟩

theorem acknowledgement_short (config : Config) (m : Memory) (envelope : Envelope) :
    ShortHandler config m (.acknowledgement envelope) := by
  refine ⟨fun _ _ _ _ hsame => (by cases hsame), ?_⟩
  intro r
  rw [exec]
  cases addressed m.store envelope "acknowledgement" with
  | error e => exact Or.inl rfl
  | ok found =>
      cases found with
      | none => exact Or.inr (Or.inl rfl)
      | some assignmentId =>
          simp only [attempt]
          cases envelope.payload.item "status" >>= assignmentStatus with
          | error e => exact Or.inl rfl
          | ok status =>
              refine Or.inr (Or.inr ⟨_, _, rfl, rfl, rfl, ?_, ?_⟩)
              · exact fun _ _ _ _ hsame => (by cases hsame)
              · exact fun _ => recorded_once _ _

theorem cancellationAcknowledgement_short (config : Config) (m : Memory) (envelope : Envelope) :
    ShortHandler config m (.cancellationAcknowledgement envelope) := by
  refine ⟨fun _ _ _ _ hsame => (by cases hsame), ?_⟩
  intro r
  rw [exec]
  cases addressed m.store envelope "cancellation" with
  | error e => exact Or.inl rfl
  | ok found =>
      cases found with
      | none => exact Or.inr (Or.inl rfl)
      | some assignmentId =>
          simp only [attempt]
          cases envelope.payload.item "status" >>= cancellationStatus with
          | error e => exact Or.inl rfl
          | ok status =>
              refine Or.inr (Or.inr ⟨_, _, rfl, rfl, rfl, ?_, ?_⟩)
              · exact fun _ _ _ _ hsame => (by cases hsame)
              · exact fun _ => recorded_once _ _

theorem handler_unchanged {config : Config} {m m' : Memory} {envelope : Envelope}
    (hfaithful : Faithful m) (harrives : ArrivesWelcome m envelope)
    (h : CallRuns config welcoming m (start (.receive envelope)) m' true) :
    m'.outcomes = m.outcomes ∧ m'.store = m.store := by
  unfold start at h
  dsimp only at h
  cases htype : envelope.messageType with
  | outcome =>
      rw [htype] at h
      rw [outcome_unchanged hfaithful htype harrives h]
      exact ⟨rfl, rfl⟩
  | assignmentSnapshot =>
      rw [htype] at h
      rw [snapshot_unchanged hfaithful h]
      exact ⟨rfl, rfl⟩
  | assignmentAck =>
      rw [htype] at h
      exact (acknowledgement_short config m envelope).unchanged h
  | cancellationAck =>
      rw [htype] at h
      exact (cancellationAcknowledgement_short config m envelope).unchanged h
  | _ =>
      rw [htype] at h
      cases h

/-- While outcomes are welcome when they arrive and the bus takes what is published, the map
agrees with the store after every call, and a handler that raises has changed neither. -/
theorem outcome_view_is_store (config : Config) : ViewIsStore config welcoming where
  agrees _ h := (faithful_between h).agrees
  unchanged _ _ _ h harrives hcall := handler_unchanged (faithful_between h) harrives hcall

/-!
## The small mission

The first step succeeds, and a later outcome says that it has failed.
-/

/-- A call whose tasks all read the same, with no handler in between. -/
def finishCall (config : Config) (r : Reading) : Nat -> Memory -> List Task ->
    Option (Memory × Bool)
  | _, m, [] => some (m, false)
  | 0, _, _ :: _ => none
  | fuel + 1, m, t :: rest =>
      match exec config m t r with
      | (mid, .next left) => finishCall config r fuel mid (left ++ rest)
      | (m', .raised) => some (m', true)

theorem callRuns_of_finishCall {config : Config} {E : Surroundings} {r : Reading} {fuel : Nat}
    {m m' : Memory} {ts : List Task} {raised : Bool}
    (h : finishCall config r fuel m ts = some (m', raised)) :
    CallRuns config E m ts m' raised := by
  induction fuel generalizing m ts with
  | zero =>
      cases ts with
      | nil =>
          cases h
          exact .done _
      | cons t rest => cases h
  | succ fuel ih =>
      cases ts with
      | nil =>
          cases h
          exact .done _
      | cons t rest =>
          unfold finishCall at h
          cases hexec : exec config m t r with
          | mk mid flow =>
              rw [hexec] at h
              cases flow with
              | next left => exact .goes r hexec (ih h)
              | raised =>
                  cases h
                  exact .raises rest r hexec

def patrolBegun : Option (Memory × Bool) :=
  finishCall patrolConfig (patrolReading []) 20 .initial
    (created patrolGoal (patrolPlan "p" (patrolSteps [])) (patrolAssignments []) 0)

def patrolTold (status : AssignmentStatus) (earlier : Option (Memory × Bool)) :
    Option (Memory × Bool) :=
  earlier.bind (fun last => finishCall patrolConfig (patrolReading []) 20 last.1
    [.outcome (patrolOutcome "a" "r1" status)])

def patrolOpinion (last : Memory × Bool) : Option Bool × Option StepStatus × Bool :=
  ((last.1.outcomes.lookup "a").bind (fun v => (flag v).toOption),
    last.1.store.statusForAssignment "a", last.2)

set_option maxRecDepth 8000 in
theorem patrolBegun_between {E : Surroundings} {last : Memory × Bool}
    (h : patrolBegun = some last) : Between patrolConfig E last.1 := by
  have hexec : exec patrolConfig .initial (.submit patrolGoal 0) (patrolReading []) =
      (.initial, .next (created patrolGoal (patrolPlan "p" (patrolSteps []))
        (patrolAssignments []) 0)) := by
    rw [exec, prepare_patrol (Or.inl rfl)]
    rfl
  have hcall : CallRuns patrolConfig E .initial (start (.submit patrolGoal 0)) last.1 last.2 := by
    refine .goes (patrolReading []) hexec ?_
    rw [List.append_nil]
    exact callRuns_of_finishCall h
  exact .called .initial (fun _ hsame => by cases hsame) hcall

def anyMessage : Surroundings where
  arrives _ _ := True
  busRaises := False

theorem patrolTold_between {E : Surroundings} {earlier : Option (Memory × Bool)}
    {last : Memory × Bool} {status : AssignmentStatus}
    (hearlier : forall before, earlier = some before ->
      Between patrolConfig E before.1 ∧ E.arrives before.1 (patrolOutcome "a" "r1" status))
    (h : patrolTold status earlier = some last) : Between patrolConfig E last.1 := by
  rcases Option.bind_eq_some_iff.mp h with ⟨before, hbefore, hfinish⟩
  rcases hearlier before hbefore with ⟨hbetween, harrives⟩
  have hcall : CallRuns patrolConfig E before.1
      (start (.receive (patrolOutcome "a" "r1" status))) last.1 last.2 :=
    callRuns_of_finishCall hfinish
  refine .called hbetween ?_ hcall
  intro envelope hsame
  cases hsame
  exact harrives

theorem patrol_arrivesWelcome {m : Memory}
    (hstatus : m.store.statusForAssignment "a" = some .dispatched) :
    ArrivesWelcome m (patrolOutcome "a" "r1" .succeeded) := by
  intro _ assignmentId succeeded haddressed hmember
  have hid : assignmentId = "a" := by
    have hitem := (addressed_eq_ok haddressed).1
    cases hitem
    rfl
  rcases Option.map_eq_some_iff.mp hstatus with ⟨row, hrow, hdispatched⟩
  rcases step?_eq_some hrow with ⟨hstored, hown⟩
  refine ⟨.succeeded, .succeeded, row, rfl, ?_, rfl, hstored, hown.trans hid.symm, ?_, rfl⟩
  · intro b hb
    cases hmember
    cases hb
    rfl
  · rw [hdispatched]
    rfl

set_option maxRecDepth 8000 in
theorem patrol_outcome_agrees :
    exists last, patrolTold .succeeded patrolBegun = some last ∧
      patrolOpinion last = (some true, some .succeeded, false) ∧ ViewAgrees last.1 := by
  have hbegun : patrolBegun.map patrolOpinion = some (none, some .dispatched, false) := by
    decide
  have hview : (patrolTold .succeeded patrolBegun).map patrolOpinion =
      some (some true, some .succeeded, false) := by
    decide
  rcases Option.map_eq_some_iff.mp hview with ⟨last, hlast, hopinion⟩
  refine ⟨last, hlast, hopinion, ?_⟩
  have hbetween : Between patrolConfig welcoming last.1 := by
    refine patrolTold_between (fun before hbefore => ?_) hlast
    rw [hbefore] at hbegun
    have hstatus := congrArg (fun opinion => opinion.2.1) (Option.some.inj hbegun)
    exact ⟨patrolBegun_between hbefore, patrol_arrivesWelcome hstatus⟩
  exact (outcome_view_is_store patrolConfig).agrees last.1 hbetween

set_option maxRecDepth 8000 in
/-- The first step has succeeded, and the map says that it has not. -/
theorem patrol_outcome_contradicted :
    ¬ forall config, ViewIsStore config anyMessage := by
  intro hall
  have hview : (patrolTold .failed (patrolTold .succeeded patrolBegun)).map patrolOpinion =
      some (some false, some .succeeded, true) := by
    decide
  rcases Option.map_eq_some_iff.mp hview with ⟨last, hlast, hopinion⟩
  have hbetween : Between patrolConfig anyMessage last.1 := by
    refine patrolTold_between (fun before hbefore => ⟨?_, trivial⟩) hlast
    exact patrolTold_between (fun first hfirst => ⟨patrolBegun_between hfirst, trivial⟩) hbefore
  rcases Prod.mk.inj hopinion with ⟨hflag, hrest⟩
  rcases Option.bind_eq_some_iff.mp hflag with ⟨succeeded, hlookup, hfalse⟩
  have hstatus : last.1.store.statusForAssignment "a" = some .succeeded := (Prod.mk.inj hrest).1
  have hagrees := (hall patrolConfig).agrees last.1 hbetween "a" succeeded .succeeded hlookup
    hstatus
  have hsaid : flag succeeded = .ok false := by
    cases hvalue : flag succeeded with
    | error e =>
        rw [hvalue] at hfalse
        cases hfalse
    | ok b =>
        rw [hvalue] at hfalse
        rw [Option.some.inj hfalse]
  exact hagrees.2 hsaid rfl

end Ump.Coordinator
