import Ump.Foundation.Log
import Ump.Coordinator.Dispatch
import Ump.Coordinator.Successors

/-!
# The order of cancellations

## Marked and published

A cancellation selects its steps by their stored status, and a step is marked before its
envelope is published. Where every selected step has been published, the request comes
after the assignment on the way to the robot.
-/

namespace Ump.Coordinator

open Foundation CoordinatorStore

def cancelledId? (publication : Message × Envelope) : Option String :=
  match publication.1 with
  | .cancellationRequest assignmentId _ _ => some assignmentId
  | _ => none

def assignedId? (publication : Message × Envelope) : Option String :=
  publication.1.assignment?.map (fun a => a.assignmentId)

def Task.cancelling? : Task -> Option String
  | .publish (.cancellationRequest assignmentId _ _) _ _ => some assignmentId
  | .handOver (.cancellationRequest assignmentId _ _) _ _ _ => some assignmentId
  | _ => none

def FollowsAssignments (m : Memory) : Prop :=
  Preceded cancelledId? assignedId? m.published

/-- A cancellation finds the assignment of each step that it selects already published. -/
def CancelsPublished : Condition Memory Task Reading Entry
  | m, _, .exec (.cancel planId _ _) _ =>
      forall row, row ∈ m.store.runSteps.rows -> row.planId = planId ->
        row.status.cancellable = true -> Given assignedId? m.published row.assignmentId
  | _, _, _ => True

structure CancelsAfter (m : Memory) (ts : Multiset Task) : Prop where
  follows : FollowsAssignments m
  published : forall t assignmentId, t ∈ ts -> t.cancelling? = some assignmentId ->
    Given assignedId? m.published assignmentId

theorem mem_requested {s store : CoordinatorStore} {planId : String} {nowMs : Int}
    {assignments : List Assignment} {assignment : Assignment}
    (h : s.requestCancellation planId nowMs = .ok (assignments, store))
    (hassignment : assignment ∈ assignments) :
    exists row, row ∈ s.runSteps.rows ∧ row.planId = planId ∧
      row.status.cancellable = true ∧ row.assignment = assignment := by
  unfold requestCancellation at h
  cases hrun : s.run? planId with
  | none =>
      rw [hrun] at h
      cases h
  | some run =>
      rw [hrun] at h
      rcases bind_eq_ok.mp h with ⟨refreshed, _, hok⟩
      cases hok
      rcases List.mem_map.mp hassignment with ⟨row, hrow, hsame⟩
      rcases List.mem_filter.mp hrow with ⟨hmem, hselected⟩
      simp only [Bool.and_eq_true, beq_iff_eq] at hselected
      exact ⟨row, hmem, hselected.1, hselected.2, hsame⟩

theorem cancelling?_created {goal : SharedGoal} {plan : Plan} {assignments : List Assignment}
    {nowMs : Int} {t : Task} (ht : t ∈ created goal plan assignments nowMs) :
    t.cancelling? = none := by
  unfold created announce at ht
  simp only [List.mem_cons, List.not_mem_nil, or_false] at ht
  rcases ht with rfl | rfl | rfl | rfl <;> rfl

theorem start_cancels_nothing (entry : Entry) (t : Task) (ht : t ∈ start entry) :
    t.cancelling? = none := by
  cases start_cases ht <;> rfl

theorem cancelling_left {config : Config} {m : Memory} {ts : Multiset Task} {r : Reading}
    {t t' : Task} {assignmentId : String} (hordered : Ordered m (t ::ₘ ts))
    (hleft : t' ∈ (exec config m t r).2.tasks) (hcancels : t'.cancelling? = some assignmentId) :
    t.cancelling? = some assignmentId ∨
      exists planId reason nowMs row, t = .cancel planId reason nowMs ∧
        row ∈ m.store.runSteps.rows ∧ row.planId = planId ∧ row.status.cancellable = true ∧
        row.assignmentId = assignmentId := by
  cases exec_succeeds config m r hleft with
  | submitted _ ht =>
      rw [cancelling?_created ht] at hcancels
      cases hcancels
  | replanned _ _ ht =>
      rw [cancelling?_created ht] at hcancels
      cases hcancels
  | @announcesPrepared _ run nowMs _ hrun ht =>
      have hmem : t' ∈ created run.1 run.2.1 run.2.2 nowMs := List.mem_cons_of_mem _ ht
      rw [cancelling?_created hmem] at hcancels
      cases hcancels
  | sequenced message _ _ =>
      cases message with
      | cancellationRequest _ _ _ => exact Or.inl hcancels
      | _ => cases hcancels
  | @requested planId reason nowMs _ _ assignment hcancel hassignment =>
      rcases mem_requested hcancel hassignment with ⟨row, hrow, hplan, hstatus, hsame⟩
      have hid := (hordered.rows row hrow).assignmentId
      rw [hsame] at hid
      cases hcancels
      exact Or.inr ⟨planId, reason, nowMs, row, rfl, hrow, hplan, hstatus, hid⟩
  | _ => cases hcancels

theorem cancelsAfter_keeps (config : Config) :
    (machine config).Keeps CancelsPublished Ordered CancelsAfter where
  drop h hle := ⟨h.follows, fun t id ht => h.published t id (Multiset.mem_of_le hle ht)⟩
  spawn {m ts entry} _ h _ := by
    refine ⟨h.follows, ?_⟩
    intro t id ht hcancels
    rcases Multiset.mem_add.mp ht with hold | hnew
    · exact h.published t id hold hcancels
    · rw [start_cancels_nothing entry t (Multiset.mem_coe.mp hnew)] at hcancels
      cases hcancels
  crash {m ts} _ h := ⟨h.follows, fun t _ ht => by cases Multiset.notMem_zero t ht⟩
  exec {m t ts r} hordered h hcondition := by
    have hbefore : forall t' id, t' ∈ ((exec config m t r).2.tasks : Multiset Task) + ts ->
        t'.cancelling? = some id -> Given assignedId? m.published id := by
      intro t' id ht' hcancels
      rcases Multiset.mem_add.mp ht' with hnew | hold
      · rcases cancelling_left hordered (Multiset.mem_coe.mp hnew) hcancels with hsame |
          ⟨planId, reason, nowMs, row, rfl, hrow, hplan, hstatus, rfl⟩
        · exact h.published t id (Multiset.mem_cons_self t ts) hsame
        · exact hcondition row hrow hplan hstatus
      · exact h.published t' id (Multiset.mem_cons_of_mem hold) hcancels
    rcases exec_published config m t r with hsame |
      ⟨message, nowMs, correlationId, sequence, rfl, hexec⟩
    · refine ⟨?_, ?_⟩
      · show Preceded _ _ (exec config m t r).1.published
        rw [hsame]
        exact h.follows
      · show forall t' id, _ -> _ -> Given _ (exec config m t r).1.published id
        rw [hsame]
        exact hbefore
    · have hfollows : FollowsAssignments (exec config m (.handOver message nowMs
          correlationId sequence) r).1 := by
        rw [hexec]
        apply preceded_concat h.follows
        intro id hid
        apply h.published _ id (Multiset.mem_cons_self _ ts)
        cases message with
        | cancellationRequest _ _ _ => exact hid
        | _ => cases hid
      refine ⟨hfollows, ?_⟩
      intro t' id ht' hcancels
      have hgiven := hbefore t' id ht' hcancels
      show Given _ (exec config m (.handOver message nowMs correlationId sequence) r).1.published id
      rw [hexec]
      exact hgiven.concat _

theorem initial_cancelsAfter : CancelsAfter Memory.initial 0 where
  follows := preceded_nil _ _
  published t _ ht := by cases Multiset.notMem_zero t ht

/-- In every run in which each cancellation finds the assignments of the steps that it
selects already published, each cancellation request follows its assignment. -/
theorem cancellation_follows_assignment (config : Config) (p : Pool Memory Task)
    (hp : (machine config).Reaches CancelsPublished initial p) : FollowsAssignments p.shared := by
  have hordered : forall q, (machine config).Reaches CancelsPublished initial q ->
      Ordered q.shared q.tasks := by
    intro q hq
    exact reaches_ordered (hq.weaken (fun _ _ _ _ => trivial))
  exact ((cancelsAfter_keeps config).reaches hp hordered initial_cancelsAfter).follows

/-!
## A cancellation beside a dispatch

In the first run the assignment has been published when the cancellation selects its step.
In the second one the step is only marked.
-/

/-- A test for the condition: at a cancellation every selected step has been published. -/
def cancelsPublished (p : Pool Memory Task) : Action Reading Entry -> Bool
  | .run i _ =>
      match p.nextTask i with
      | some (.cancel planId _ _) =>
          p.shared.store.runSteps.rows.all (fun row =>
            !(row.planId == planId && row.status.cancellable) ||
              p.shared.published.any (fun publication =>
                assignedId? publication == some row.assignmentId))
      | _ => true
  | _ => true

theorem meets_of_cancelsPublished (p : Pool Memory Task) (a : Action Reading Entry)
    (h : cancelsPublished p a = true) : Machine.Meets CancelsPublished p a := by
  cases a with
  | run i r =>
      intro t others hnext _
      simp only [cancelsPublished, hnext] at h
      cases t with
      | cancel planId reason nowMs =>
          intro row hrow hplan hstatus
          have hrowTest := List.all_eq_true.mp h row hrow
          simp only [hplan, hstatus, beq_self_eq_true, Bool.and_self, Bool.not_true,
            Bool.false_or, List.any_eq_true, beq_iff_eq] at hrowTest
          exact hrowTest
      | _ => trivial
  | _ => trivial

def patrolCancelled (count rest : Nat) : List (Action Reading Entry) :=
  patrolMoves 0 count ++ .spawn (.cancel "p" "stop" 0) :: patrolMoves 1 3 ++ patrolMoves 0 rest

def patrolSent (p : Pool Memory Task) : List (Option String × Option String) :=
  p.shared.published.map (fun publication => (assignedId? publication, cancelledId? publication))

theorem patrol_cancellation_follows :
    exists p, (machine patrolConfig).runWhere cancelsPublished (patrolSubmitted ["s1"])
        (patrolCancelled 9 0) = some p ∧
      patrolSent p = [(none, none), (none, none), (some "a", none), (none, some "a")] ∧
      FollowsAssignments p.shared := by
  have hsent : ((machine patrolConfig).runWhere cancelsPublished (patrolSubmitted ["s1"])
      (patrolCancelled 9 0)).map patrolSent =
        some [(none, none), (none, none), (some "a", none), (none, some "a")] := by
    decide
  rcases Option.map_eq_some_iff.mp hsent with ⟨p, hrun, hsent⟩
  exact ⟨p, hrun, hsent, cancellation_follows_assignment patrolConfig p
    ((patrolSubmitted_reached (Or.inr rfl) trivial trivial).trans
      (Machine.runWhere_reaches meets_of_cancelsPublished hrun))⟩

/-- The request for a marked step is published before its assignment. -/
theorem patrol_cancellation_overtakes :
    exists p, (machine patrolConfig).Reaches .always initial p ∧
      patrolSent p = [(none, none), (none, none), (none, some "a"), (some "a", none)] ∧
      ¬ FollowsAssignments p.shared := by
  have hsent : ((machine patrolConfig).run (patrolSubmitted ["s1"])
      (patrolCancelled 7 2)).map patrolSent =
        some [(none, none), (none, none), (none, some "a"), (some "a", none)] := by
    decide
  rcases Option.map_eq_some_iff.mp hsent with ⟨p, hrun, hsent⟩
  refine ⟨p, (patrolSubmitted_reached (Or.inr rfl) trivial trivial).trans
    (Machine.run_reaches hrun), hsent, ?_⟩
  intro hfollows
  have hmapped := hsent
  unfold patrolSent at hmapped
  rcases List.map_eq_cons_iff.mp hmapped with ⟨first, rest, hpublished, hfirst, hmapped⟩
  rcases List.map_eq_cons_iff.mp hmapped with ⟨second, rest, rfl, hsecond, hmapped⟩
  rcases List.map_eq_cons_iff.mp hmapped with ⟨third, rest, rfl, hthird, hmapped⟩
  rcases hfollows [first, second] third rest "a" hpublished (congrArg Prod.snd hthird) with
    ⟨y, hy, hgives⟩
  simp only [List.mem_cons, List.not_mem_nil, or_false] at hy
  rcases hy with rfl | rfl
  · rw [show assignedId? y = none from congrArg Prod.fst hfirst] at hgives
    cases hgives
  · rw [show assignedId? y = none from congrArg Prod.fst hsecond] at hgives
    cases hgives

end Ump.Coordinator
