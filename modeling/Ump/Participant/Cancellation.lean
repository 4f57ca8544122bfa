import Ump.Participant.Execution

/-!
# Cancellation of work that has not started

## Terminated work

An adapter may accept the cancellation of work that its participant has claimed but not
yet handed to it. The outcome is then stored while the job still waits, and the job does
not look at the journal again before it calls the adapter.
-/

namespace Ump.Participant

open Foundation Journal

def CancelsStarted : Condition Memory Task Reading Entry :=
  fun m others move =>
    match move with
    | .exec (.recordCancellation assignment _ _) _ =>
        forall d, d ∈ awaiting m others -> d.assignmentId ≠ assignment.assignmentId
    | _ => True

/-- The record of a waiting delivery is accepted and has no outcome. -/
def WaitsOpen (m : Memory) (ts : Multiset Task) : Prop :=
  forall d, d ∈ awaiting m ts -> exists record,
    m.journal.lookup d.assignmentId = some record ∧ record.status = .accepted ∧
      record.outcome = none

/-- No call after `p` is for an assignment whose outcome the journal held in `p`. -/
def TerminatedStaysIdle (p q : Pool Memory Task) : Prop :=
  forall assignmentId record, p.shared.journal.lookup assignmentId = some record ->
    record.outcome ≠ none -> exists later, q.shared.calls = p.shared.calls ++ later ∧
      forall d, d ∈ later -> d.assignmentId ≠ assignmentId

theorem WaitsOpen.transfer {m m' : Memory} {ts ts' : Multiset Task} (h : WaitsOpen m ts)
    (hsame : forall d, d ∈ awaiting m' ts' -> d ∈ awaiting m ts ∧
      m'.journal.lookup d.assignmentId = m.journal.lookup d.assignmentId) :
    WaitsOpen m' ts' := by
  intro d hd
  rcases hsame d hd with ⟨hwaiting, hlookup⟩
  rw [hlookup]
  exact h d hwaiting

theorem awaiting_leave {m m' : Memory} {t : Task} {ts : Multiset Task} {tasks : List Task}
    (hqueue : m'.queue = m.queue) (hleaves : forall t', t' ∈ tasks -> t.Leaves t')
    (d : Delivery) (hd : d ∈ awaiting m' ((tasks : Multiset Task) + ts)) :
    d ∈ awaiting m ts := by
  rw [awaiting_idle (fun t' ht' => (hleaves t' ht').pending)] at hd
  unfold awaiting at hd ⊢
  rwa [hqueue] at hd

theorem not_waiting_of_recording {config : Config} {m : Memory} {t : Task}
    {ts : Multiset Task} {r : Reading} {assignmentId : String}
    (hclaims : Claims config m (t ::ₘ ts)) (hcondition : CancelsStarted m ts (.exec t r))
    (hrecording : t.recording? = some assignmentId) {d : Delivery}
    (hd : d ∈ awaiting m ts) : d.assignmentId ≠ assignmentId := by
  cases t with
  | complete delivery outcome nowMs =>
      cases hrecording
      intro hid
      have hcalled := hclaims.running _ delivery (Multiset.mem_cons_self _ _) rfl
      have honce := hclaims.once
      rw [awaiting_cons_none rfl, Multiset.map_add, Multiset.nodup_add] at honce
      have hdisjoint := Multiset.disjoint_left.mp honce.2.2 (Multiset.mem_coe.mpr hcalled)
      exact hdisjoint (Multiset.mem_map.mpr ⟨d, hd, hid⟩)
  | recordCancellation assignment description envelope =>
      cases hrecording
      exact hcondition d hd
  | _ => cases hrecording

theorem waitsOpen_keeps (config : Config) :
    (machine config).Keeps CancelsStarted (Claims config) WaitsOpen where
  drop {m ts ts'} h hle := h.transfer (fun d hd => ⟨Multiset.mem_of_le (awaiting_le hle) hd, rfl⟩)
  spawn {m ts entry} _ h _ := by
    apply h.transfer
    intro d hd
    rw [add_comm] at hd
    exact ⟨(awaiting_idle (fun t ht => (start_leaves entry t ht).1) ts) ▸ hd, rfl⟩
  crash {m ts} _ _ := by
    intro d hd
    cases Multiset.notMem_zero d hd
  exec {m t ts r} hclaims h hcondition := by
    have hrest : WaitsOpen m ts := by
      apply h.transfer
      intro d hd
      exact ⟨Multiset.mem_of_le (awaiting_le (Multiset.le_cons_self ts t)) hd, rfl⟩
    show WaitsOpen (exec config m t r).1
      (((exec config m t r).2.tasks : Multiset Task) + ts)
    generalize hresult : exec config m t r = result
    have heffect : Effect config m t result := hresult ▸ exec_effect config m t r
    cases heffect with
    | quiet hjournal hqueue hhistory hleaves =>
        apply hrest.transfer
        intro d hd
        exact ⟨awaiting_leave hqueue hleaves d hd, by rw [hjournal]⟩
    | @admitted delivery hdecoded hchecked =>
        apply hrest.transfer
        intro d hd
        rw [Flow.tasks_next, Multiset.coe_singleton, Multiset.singleton_add,
          awaiting_cons_none rfl] at hd
        exact ⟨hd, rfl⟩
    | @claimed delivery journal message stamp cause next hclaimed hnext =>
        cases hclaimed with
        | new hfree hlookup =>
            intro d hd
            show exists record, journal.lookup d.assignmentId = some record ∧ _
            by_cases hid : d.assignmentId = delivery.assignment.assignmentId
            · exact ⟨_, by rw [hlookup, if_pos hid], rfl, rfl⟩
            · rw [hlookup, if_neg hid]
              apply hrest d
              rw [Flow.tasks_next, ← Multiset.cons_coe, ← Multiset.cons_coe,
                Multiset.cons_add, Multiset.cons_add, awaiting_cons_none rfl,
                awaiting_cons_some hnext, Multiset.coe_nil, zero_add] at hd
              rcases Multiset.mem_cons.mp hd with rfl | hd
              · exact absurd rfl hid
              · exact hd
    | submitted delivery =>
        apply h.transfer
        intro d hd
        refine ⟨?_, rfl⟩
        rw [awaiting_cons_some rfl]
        simpa [awaiting, or_assoc, or_comm, or_left_comm] using hd
    | @taken delivery rest hqueue =>
        apply hrest.transfer
        intro d hd
        refine ⟨?_, rfl⟩
        rw [Flow.tasks_next, Multiset.coe_singleton, Multiset.singleton_add,
          awaiting_cons_some rfl] at hd
        simpa [awaiting, hqueue, or_assoc] using hd
    | executed delivery =>
        apply hrest.transfer
        intro d hd
        rw [Flow.tasks_next, Multiset.coe_singleton, Multiset.singleton_add,
          awaiting_cons_none rfl] at hd
        exact ⟨hd, rfl⟩
    | @recorded _ _ assignmentId outcome _ hrecording _ hjournal hqueue _ hleaves =>
        apply hrest.transfer
        intro d hd
        have hwaiting := awaiting_leave hqueue hleaves d hd
        have hne := not_waiting_of_recording hclaims hcondition hrecording hwaiting
        refine ⟨hwaiting, ?_⟩
        rw [hjournal, lookup_record]
        simp [hne]
    | @resolved _ journal assignmentId outcome stored hstored hunknown _ hlookup =>
        apply hrest.transfer
        intro d hd
        rw [Flow.tasks_next, Multiset.coe_nil, zero_add] at hd
        refine ⟨hd, ?_⟩
        show journal.lookup d.assignmentId = m.journal.lookup d.assignmentId
        rw [hlookup, lookup_record]
        have hne : d.assignmentId ≠ assignmentId := by
          rintro rfl
          rcases hrest d hd with ⟨record, hrecord, haccepted, _⟩
          rw [hrecord] at hstored
          cases hstored
          rw [haccepted] at hunknown
          cases hunknown
        simp [hne]

theorem reaches_waitsOpen {config : Config} {p : Pool Memory Task}
    (h : (machine config).Reaches CancelsStarted initial p) :
    WaitsOpen p.shared p.tasks := by
  apply (waitsOpen_keeps config).reaches h (fun q hq => reaches_claims hq)
  intro d hd
  cases Multiset.notMem_zero d hd

/-- The outcome is stored, and the calls since then are for other assignments. -/
def IdleSince (calls : List Delivery) (assignmentId : String) (m : Memory)
    (_ : Multiset Task) : Prop :=
  (exists record, m.journal.lookup assignmentId = some record ∧ record.outcome ≠ none) ∧
  exists later, m.calls = calls ++ later ∧ forall d, d ∈ later -> d.assignmentId ≠ assignmentId

theorem IdleSince.grows {calls : List Delivery} {assignmentId : String} {m m' : Memory}
    {ts ts' : Multiset Task} (h : IdleSince calls assignmentId m ts)
    (hjournal : Grows m.journal m'.journal) (hcalls : m'.calls = m.calls) :
    IdleSince calls assignmentId m' ts' := by
  rcases h with ⟨⟨record, hrecord, hterminated⟩, hlater⟩
  rcases hjournal assignmentId record hrecord with ⟨record', hrecord', hcontinues⟩
  constructor
  · exact ⟨record', hrecord', by rw [hcontinues.settled hterminated]; exact hterminated⟩
  · rw [hcalls]
    exact hlater

theorem idleSince_keeps (config : Config) (calls : List Delivery) (assignmentId : String) :
    (machine config).Keeps CancelsStarted WaitsOpen (IdleSince calls assignmentId) where
  drop h _ := h
  spawn _ h _ := h
  crash {m ts} _ h := h.grows (grows_reopen m.journal) rfl
  exec {m t ts r} hwaits h _ := by
    have hgrows := exec_grows config m t r
    show IdleSince calls assignmentId (exec config m t r).1
      (((exec config m t r).2.tasks : Multiset Task) + ts)
    generalize hresult : exec config m t r = result at hgrows
    have heffect : Effect config m t result := hresult ▸ exec_effect config m t r
    cases heffect with
    | quiet _ _ hhistory _ => exact h.grows hgrows (calls_of_history hhistory)
    | admitted _ _ =>
        apply h.grows hgrows
        rw [calls_concat]
        exact List.append_nil _
    | @claimed delivery journal _ _ _ _ _ _ =>
        apply h.grows hgrows
        show Memory.calls { m with history := m.history ++ [.claimed delivery] } = m.calls
        rw [calls_concat]
        exact List.append_nil _
    | submitted delivery => exact h.grows hgrows rfl
    | taken hqueue => exact h.grows hgrows rfl
    | executed delivery =>
        rcases h with ⟨⟨record, hrecord, hterminated⟩, later, hcalls, hlater⟩
        refine ⟨⟨record, hrecord, hterminated⟩, later ++ [delivery], ?_, ?_⟩
        · show Memory.calls { m with history := m.history ++ [.accepted delivery] } = _
          rw [calls_concat, hcalls]
          exact List.append_assoc _ _ _
        · intro d hd
          rcases List.mem_append.mp hd with hold | hnew
          · exact hlater d hold
          · cases List.mem_singleton.mp hnew
            rintro rfl
            have hd : delivery ∈ awaiting m (.execute delivery ::ₘ ts) := by
              rw [awaiting_cons_some rfl]
              exact Multiset.mem_cons_self _ _
            rcases hwaits delivery hd with ⟨waiting, hwaiting, _, hnone⟩
            rw [hrecord] at hwaiting
            cases hwaiting
            exact hterminated hnone
    | recorded _ _ _ _ hhistory _ => exact h.grows hgrows (calls_of_history hhistory)
    | resolved => exact h.grows hgrows rfl

/-- When accepted cancellations are stored only for work that the adapter was called for,
work whose outcome is stored is never started afterwards. -/
theorem terminated_work_never_starts (config : Config) (p q : Pool Memory Task)
    (hp : (machine config).Reaches CancelsStarted initial p)
    (hq : (machine config).Reaches CancelsStarted p q) : TerminatedStaysIdle p q := by
  intro assignmentId record hrecord hterminated
  have hidle : IdleSince p.shared.calls assignmentId p.shared p.tasks := by
    refine ⟨⟨record, hrecord, hterminated⟩, [], ?_, ?_⟩
    · exact (List.append_nil _).symm
    · intro d hd
      cases hd
  exact ((idleSince_keeps config p.shared.calls assignmentId).reaches hq
    (fun _ hmid => reaches_waitsOpen (hp.trans hmid)) hidle).2

/-!
## Two runs of the small mission

In the first run the walk has started when its cancellation comes. In the second one the
walk is still queued, and the executor starts it after the cancellation was published.
-/

def cancelsStarted (p : Pool Memory Task) : Action Reading Entry -> Bool
  | .run i _ =>
      match p.nextTask i with
      | some (.recordCancellation assignment _ _) =>
          (p.shared.queue ++ p.threads.flatten.filterMap Task.pending?).all
            (fun d => d.assignmentId != assignment.assignmentId)
      | _ => true
  | _ => true

theorem meets_of_cancelsStarted (p : Pool Memory Task) (a : Action Reading Entry)
    (h : cancelsStarted p a = true) : Machine.Meets CancelsStarted p a := by
  cases a with
  | run i r =>
      intro t others hnext htasks
      cases t with
      | recordCancellation assignment description envelope =>
          intro d hd
          have hall : forall d, d ∈ awaiting p.shared p.tasks ->
              d.assignmentId ≠ assignment.assignmentId := by
            intro d hd
            simp only [cancelsStarted, hnext, List.all_eq_true] at h
            have hne := h d (by simpa [awaiting, Pool.tasks] using hd)
            simpa using hne
          apply hall d
          rw [htasks]
          exact Multiset.mem_of_le (awaiting_le (Multiset.le_cons_self others _)) hd
      | _ => trivial
  | spawn e => trivial
  | stop i => trivial
  | crash => trivial

def patrolCancelled (started : Bool) : List (Action Reading Entry) :=
  .spawn (.receive (patrolAssigned "c")) :: patrolTasks 0 4 0 ++ .spawn .work ::
    (if started then patrolTasks 1 2 0 else []) ++
    .spawn (.receive (patrolStopped "c")) :: patrolTasks 2 5 0

def patrolView (p : Pool Memory Task) :
    Option AssignmentStatus × List MessageType × List String :=
  ((p.shared.journal.lookup "a").map (fun record => record.status),
    p.shared.sent.map (fun publication => publication.envelope.messageType),
    p.shared.calls.map Delivery.assignmentId)

set_option maxRecDepth 8000 in
theorem patrol_cancelled_while_running :
    exists p q, (machine (patrolConfig 1)).runWhere cancelsStarted initial
        (patrolCancelled true) = some p ∧
      (machine (patrolConfig 1)).runWhere cancelsStarted p (patrolTasks 1 4 0) = some q ∧
      patrolView p = (some .cancelled, [.assignmentAck, .cancellationAck, .outcome], ["a"]) ∧
      TerminatedStaysIdle p q := by
  have hview : ((machine (patrolConfig 1)).runWhere cancelsStarted initial
      (patrolCancelled true)).map patrolView =
        some (some .cancelled, [.assignmentAck, .cancellationAck, .outcome], ["a"]) := by
    decide
  have hlast : (((machine (patrolConfig 1)).runWhere cancelsStarted initial
      (patrolCancelled true)).bind (fun p => (machine (patrolConfig 1)).runWhere
        cancelsStarted p (patrolTasks 1 4 0))).isSome = true := by
    decide
  rcases Option.map_eq_some_iff.mp hview with ⟨p, hp, hview⟩
  rcases Option.isSome_iff_exists.mp hlast with ⟨q, hq⟩
  rw [hp, Option.bind_some] at hq
  refine ⟨p, q, hp, hq, hview, ?_⟩
  exact terminated_work_never_starts (patrolConfig 1) p q
    (Machine.runWhere_reaches meets_of_cancelsStarted hp)
    (Machine.runWhere_reaches meets_of_cancelsStarted hq)

set_option maxRecDepth 8000 in
/-- The cancelled walk is started all the same. -/
theorem patrol_started_after_cancellation :
    exists p q, (machine (patrolConfig 1)).run initial (patrolCancelled false) = some p ∧
      (machine (patrolConfig 1)).run p (patrolTasks 1 2 0) = some q ∧
      patrolView p = (some .cancelled, [.assignmentAck, .cancellationAck, .outcome], []) ∧
      q.shared.calls.map Delivery.assignmentId = ["a"] ∧ ¬ TerminatedStaysIdle p q := by
  have hview : ((machine (patrolConfig 1)).run initial (patrolCancelled false)).map
      (fun p => (patrolView p, (p.shared.journal.lookup "a").any
        (fun record => record.outcome.isSome))) =
        some ((some .cancelled, [.assignmentAck, .cancellationAck, .outcome], []), true) := by
    decide
  have hlast : (((machine (patrolConfig 1)).run initial (patrolCancelled false)).bind
      (fun p => (machine (patrolConfig 1)).run p (patrolTasks 1 2 0))).map
        (fun q => q.shared.calls.map Delivery.assignmentId) = some ["a"] := by
    decide
  rcases Option.map_eq_some_iff.mp hview with ⟨p, hp, hview⟩
  rcases Option.map_eq_some_iff.mp hlast with ⟨q, hq, hcalls⟩
  rw [hp, Option.bind_some] at hq
  rcases Prod.mk.inj hview with ⟨hview, hterminated⟩
  refine ⟨p, q, hp, hq, hview, hcalls, ?_⟩
  intro hidle
  rcases (Option.any_eq_true _ _).mp hterminated with ⟨record, hrecord, houtcome⟩
  rcases hidle "a" record hrecord (Option.isSome_iff_ne_none.mp houtcome) with
    ⟨later, hlater, hothers⟩
  have hempty : p.shared.calls.map Delivery.assignmentId = [] :=
    congrArg (fun view => view.2.2) hview
  rw [hlater, List.map_append, hempty, List.nil_append] at hcalls
  rcases List.map_eq_singleton_iff.mp hcalls with ⟨d, rfl, hid⟩
  exact hothers d List.mem_cons_self hid

end Ump.Participant
