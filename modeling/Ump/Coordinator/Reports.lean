import Ump.Coordinator.Dispatch
import Ump.Coordinator.Evidence

/-!
# What robots report

## Reports

A step that is dispatched gets a known terminal status only from a message of its robot.
The invariant below takes the messages of one robot that may come in as given, and
follows what they say through the handlers to the rows.
-/

namespace Ump.Coordinator

open Foundation CoordinatorStore

/-- The message says the status of the assignment, where its handler reads it. -/
inductive Reports (envelope : Envelope) (assignmentId : String) (status : AssignmentStatus) :
    Prop where
  | outcome (hkind : envelope.messageType = .outcome)
      (hid : envelope.payload.item "assignment_id" = .ok (.str assignmentId))
      (hstatus : envelope.payload.item "status" = .ok (.str status.value))
  | acknowledgement (hkind : envelope.messageType = .assignmentAck)
      (hid : envelope.payload.item "assignment_id" = .ok (.str assignmentId))
      (hstatus : envelope.payload.item "status" = .ok (.str status.value))
  | snapshot {data : Json} (hkind : envelope.messageType = .assignmentSnapshot)
      (hid : envelope.payload.item "assignment_id" = .ok (.str assignmentId))
      (hdata : envelope.payload.get "outcome" .null = .ok data)
      (hstatus : data.item "status" = .ok (.str status.value))

/-- The message that a handler starts with, and the type for which the bus calls it. -/
def Task.handled? : Task -> Option (MessageType × Envelope)
  | .outcome envelope => some (.outcome, envelope)
  | .acknowledgement envelope => some (.assignmentAck, envelope)
  | .assignmentSnapshot envelope => some (.assignmentSnapshot, envelope)
  | .cancellationAcknowledgement envelope => some (.cancellationAck, envelope)
  | _ => none

/-- The assignment and the status that a handler has read from its message. -/
def Task.informed? : Task -> Option (String × AssignmentStatus)
  | .outcomeStatus assignmentId status _ => some (assignmentId, status)
  | .recordOutcome assignmentId status _ => some (assignmentId, status)
  | .reconcileOutcome assignmentId status _ => some (assignmentId, status)
  | .reconcileSnapshot assignmentId status _ _ => some (assignmentId, status)
  | .recordAcknowledgement assignmentId status _ => some (assignmentId, status)
  | _ => none

def ReceivesFrom (robotId : String) (sent : List Envelope) :
    Condition Memory Task Reading Entry
  | _, _, .spawn (.receive envelope) => envelope.sourceId = robotId -> envelope ∈ sent
  | _, _, _ => True

/-- The step was cancelled before it was dispatched, and it never will be. -/
def Withheld (m : Memory) (ts : Multiset Task) (row : StepRow) : Prop :=
  row.status = .cancelled ∧ row.assignmentId ∉ m.publishedIds + carriedIds ts

/-- Some message of the list says the known terminal status of the row. -/
def Reported (sent : List Envelope) (row : StepRow) : Prop :=
  exists envelope status, envelope ∈ sent ∧ Reports envelope row.assignmentId status ∧
    reconciledStep? status = some row.status

structure Informed (robotId : String) (sent : List Envelope) (m : Memory)
    (ts : Multiset Task) : Prop where
  rows : forall row, row ∈ m.store.runSteps.rows ->
    row.assignment.step.assignedRobotId = robotId -> row.status.settled = true ->
      Withheld m ts row ∨ Reported sent row
  handled : forall t kind envelope, t ∈ ts -> t.handled? = some (kind, envelope) ->
    envelope.messageType = kind ∧ (envelope.sourceId = robotId -> envelope ∈ sent)
  informed : forall t assignmentId status, t ∈ ts ->
    t.informed? = some (assignmentId, status) ->
      exists row, row ∈ m.store.runSteps.rows ∧ row.assignmentId = assignmentId ∧
        (row.assignment.step.assignedRobotId = robotId ->
          exists envelope, envelope ∈ sent ∧ Reports envelope assignmentId status)

/-!
## What a task adds
-/

theorem dispatched_of_carried {config : Config} {m : Memory} {t : Task} {ts : Multiset Task}
    {r : Reading} {id : String}
    (hid : id ∈ (exec config m t r).1.publishedIds +
      carriedIds (((exec config m t r).2.tasks : Multiset Task) + ts)) :
    id ∈ m.publishedIds + carriedIds (t ::ₘ ts) ∨
      exists row, row ∈ (exec config m t r).1.store.runSteps.rows ∧ row.assignmentId = id ∧
        row.status = .dispatched := by
  have hrest : carriedIds ts ≤ carriedIds (t ::ₘ ts) := carriedIds_le (Multiset.le_cons_self ts t)
  generalize hresult : exec config m t r = result at hid ⊢
  have heffect : Effect m t result := hresult ▸ exec_effect config m t r
  have hquiet : result.1.published = m.published ->
      (forall t', t' ∈ result.2.tasks -> t'.carried? = none) ->
        id ∈ m.publishedIds + carriedIds (t ::ₘ ts) := by
    intro hpublished huncarried
    rw [carriedIds_uncarried huncarried] at hid
    unfold Memory.publishedIds Memory.publishedAssignments at hid
    rw [hpublished] at hid
    exact Multiset.mem_of_le (add_le_add_right hrest _) hid
  cases heffect with
  | quiet _ hpublished hleaves =>
      exact Or.inl (hquiet hpublished (fun t' ht' => (hleaves t' ht').quiet.2))
  | committed _ _ hpublished hleaves =>
      exact Or.inl (hquiet hpublished (fun t' ht' => (hleaves t' ht').quiet.2))
  | listed _ =>
      left
      apply hquiet rfl
      intro t' ht'
      rcases List.mem_map.mp ht' with ⟨a, _, rfl⟩
      rfl
  | @marked assignment nowMs row hrow hrowId hpending =>
      rw [Flow.tasks_next, Multiset.coe_singleton, Multiset.singleton_add, carriedIds_cons] at hid
      rcases Multiset.mem_add.mp hid with hpublished | hcarried
      · exact Or.inl (Multiset.mem_add.mpr (Or.inl hpublished))
      · rcases Multiset.mem_add.mp hcarried with hnew | hold
        · right
          have hsame : id = assignment.assignmentId := List.mem_singleton.mp hnew
          refine ⟨{ row with status := .dispatched }, ?_, hrowId.trans hsame.symm, rfl⟩
          show _ ∈ (m.store.marked assignment.assignmentId).runSteps.rows
          unfold CoordinatorStore.marked
          rw [rows_setSteps]
          exact List.mem_map.mpr ⟨row, hrow, by simp [hrowId, hpending]⟩
        · exact Or.inl (Multiset.mem_add.mpr (Or.inr (Multiset.mem_of_le hrest hold)))
  | advanced message nowMs correlationId =>
      left
      rw [Flow.tasks_next, Multiset.coe_singleton, Multiset.singleton_add, carriedIds_cons] at hid
      rw [carriedIds_cons]
      cases message <;> exact hid
  | published message nowMs correlationId sequence envelope _ =>
      left
      rw [Flow.tasks_next, Multiset.coe_nil, zero_add] at hid
      rw [carriedIds_cons]
      cases message with
      | assignment assignment =>
          have hassigned : Memory.publishedAssignments
              { m with published := m.published ++ [(.assignment assignment, envelope)] } =
                m.publishedAssignments ++ [assignment] := by
            unfold Memory.publishedAssignments
            rw [List.filterMap_append]
            rfl
          unfold Memory.publishedIds at hid
          rw [hassigned, List.map_append, ← Multiset.coe_add, add_assoc] at hid
          exact hid
      | _ =>
          rcases Multiset.mem_add.mp hid with hpublished | hcarried
          · refine Multiset.mem_add.mpr (Or.inl ?_)
            unfold Memory.publishedIds Memory.publishedAssignments at hpublished ⊢
            rw [List.filterMap_append, List.map_append] at hpublished
            rcases List.mem_append.mp (Multiset.mem_coe.mp hpublished) with hold | hnone
            · exact Multiset.mem_coe.mpr hold
            · cases hnone
          · exact Multiset.mem_add.mpr (Or.inr (Multiset.mem_add.mpr (Or.inr hcarried)))

theorem informed_of_target {t : Task} {operation : Operation} {assignmentId : String}
    {target : StepStatus} (hoperation : t.operation? = some operation)
    (htarget : operation.target? = some (assignmentId, target))
    (hsettled : target.settled = true) :
    exists status, t.informed? = some (assignmentId, status) ∧
      reconciledStep? status = some target := by
  have hmapped : forall {step? : AssignmentStatus -> Option StepStatus} {id status},
      (step? status).map (fun target => (id, target)) = some (assignmentId, target) ->
        id = assignmentId ∧ step? status = some target := by
    intro step? id status h
    rcases Option.map_eq_some_iff.mp h with ⟨found, hfound, hpair⟩
    simp only [Prod.mk.injEq] at hpair
    rw [← hpair.2]
    exact ⟨hpair.1, hfound⟩
  cases t with
  | recordOutcome id status nowMs =>
      cases hoperation
      rcases hmapped htarget with ⟨rfl, hstatus⟩
      refine ⟨status, rfl, ?_⟩
      cases status <;> cases hstatus <;> first | rfl | cases hsettled
  | reconcileOutcome id status nowMs =>
      cases hoperation
      rcases hmapped htarget with ⟨rfl, hstatus⟩
      exact ⟨status, rfl, hstatus⟩
  | reconcileSnapshot id status succeeded nowMs =>
      cases hoperation
      rcases hmapped htarget with ⟨rfl, hstatus⟩
      exact ⟨status, rfl, hstatus⟩
  | recordAcknowledgement id status nowMs =>
      cases hoperation
      rcases hmapped htarget with ⟨rfl, hstatus⟩
      refine ⟨status, rfl, ?_⟩
      cases status <;> cases hstatus <;> first | rfl | cases hsettled
  | recordCancellationAcknowledgement id accepted nowMs =>
      cases hoperation
      cases accepted with
      | true => cases htarget
      | false =>
          cases htarget
          cases hsettled
  | dispatch assignment nowMs =>
      cases hoperation
      cases htarget
  | createRun goal plan assignments nowMs =>
      cases hoperation
      cases htarget
  | cancel planId reason nowMs =>
      cases hoperation
      cases htarget
  | _ => cases hoperation

theorem settled_of_exec {config : Config} {m : Memory} {t : Task} {r : Reading} {row' : StepRow}
    (hrow' : row' ∈ (exec config m t r).1.store.runSteps.rows)
    (hsettled : row'.status.settled = true) :
    exists row, row ∈ m.store.runSteps.rows ∧ row'.assignmentId = row.assignmentId ∧
      row'.assignment = row.assignment ∧
      (row' = row ∨ (row.status = .pending ∧ row'.status = .cancelled) ∨
        exists status, t.informed? = some (row'.assignmentId, status) ∧
          reconciledStep? status = some row'.status) := by
  rcases (exec_evolves config m t r).origin row' hrow' with
    ⟨row, hrow, hsame, hmoves⟩ | ⟨planId, assignment, hnew, _⟩
  · have hid : row'.assignmentId = row.assignmentId := by rw [hsame]
    refine ⟨row, hrow, hid, by rw [hsame], ?_⟩
    cases hopen : row.status.settled with
    | true =>
        left
        rw [hsame, StepStatus.moves_of_settled hopen hmoves]
    | false =>
        right
        rcases exec_committed config m t r with hstore | ⟨operation, hoperation, hcommitted⟩
        · rw [hstore] at hrow'
          rw [eq_of_assignmentId hrow' hrow hid, hopen] at hsettled
          cases hsettled
        · rcases hcommitted.settled_by hrow hopen hrow' hid hsettled with
            htarget | ⟨_, _, _, hpending, hcancelled⟩
          · right
            rw [hid]
            exact informed_of_target hoperation htarget hsettled
          · exact Or.inl ⟨hpending, hcancelled⟩
  · rw [hnew] at hsettled
    cases hsettled

theorem informed_grows {robotId : String} {sent : List Envelope} {s s' : CoordinatorStore}
    {assignmentId : String} {status : AssignmentStatus} (hstore : Evolves s s')
    (h : exists row, row ∈ s.runSteps.rows ∧ row.assignmentId = assignmentId ∧
      (row.assignment.step.assignedRobotId = robotId ->
        exists envelope, envelope ∈ sent ∧ Reports envelope assignmentId status)) :
    exists row, row ∈ s'.runSteps.rows ∧ row.assignmentId = assignmentId ∧
      (row.assignment.step.assignedRobotId = robotId ->
        exists envelope, envelope ∈ sent ∧ Reports envelope assignmentId status) := by
  rcases h with ⟨row, hrow, hid, hreports⟩
  rcases hstore.kept row hrow with ⟨_, hkept, _⟩
  exact ⟨_, hkept, hid, hreports⟩

theorem Informed.left {config : Config} {robotId : String} {sent : List Envelope} {m : Memory}
    {t t' : Task} {ts : Multiset Task} {r : Reading} (h : Informed robotId sent m (t ::ₘ ts))
    (ht' : t' ∈ (exec config m t r).2.tasks) {assignmentId : String} {status : AssignmentStatus}
    (hinformed : t'.informed? = some (assignmentId, status)) :
    exists row, row ∈ m.store.runSteps.rows ∧ row.assignmentId = assignmentId ∧
      (row.assignment.step.assignedRobotId = robotId ->
        exists envelope, envelope ∈ sent ∧ Reports envelope assignmentId status) := by
  have hmem : t ∈ t ::ₘ ts := Multiset.mem_cons_self t ts
  cases exec_succeeds config m r ht' with
  | @completed envelope id read haddressed hstatus =>
      cases hinformed
      rcases addressed_eq_ok haddressed with ⟨hitem, row, hrow, hid, hsource⟩
      rcases h.handled _ _ _ hmem rfl with ⟨hkind, hsent⟩
      refine ⟨row, hrow, hid, ?_⟩
      intro hrobot
      exact ⟨envelope, hsent (hsource.trans hrobot),
        .outcome hkind hitem (item_status_eq_ok hstatus)⟩
  | reconciles hunknown =>
      cases hinformed
      exact h.informed _ _ _ hmem rfl
  | records hunknown =>
      cases hinformed
      exact h.informed _ _ _ hmem rfl
  | @acknowledged envelope id read haddressed hstatus =>
      cases hinformed
      rcases addressed_eq_ok haddressed with ⟨hitem, row, hrow, hid, hsource⟩
      rcases h.handled _ _ _ hmem rfl with ⟨hkind, hsent⟩
      refine ⟨row, hrow, hid, ?_⟩
      intro hrobot
      exact ⟨envelope, hsent (hsource.trans hrobot),
        .acknowledgement hkind hitem (item_status_eq_ok hstatus)⟩
  | @evidenced envelope id read outcomeData succeeded outcome hchecked =>
      cases hinformed
      rcases addressed_eq_ok hchecked.addressed with ⟨hitem, row, hrow, hid, hsource⟩
      rcases h.handled _ _ _ hmem rfl with ⟨hkind, hsent⟩
      refine ⟨row, hrow, hid, ?_⟩
      intro hrobot
      have hdata := snapshotOutcome_eq_ok hchecked.built
      rw [(snapshotStatus_eq_ok hchecked.agreed).1] at hdata
      exact ⟨envelope, hsent (hsource.trans hrobot), .snapshot hkind hitem hchecked.member hdata⟩
  | submitted hprepare ht =>
      simp only [created, announce, List.mem_cons, List.not_mem_nil, or_false] at ht
      rcases ht with rfl | rfl | rfl | rfl <;> cases hinformed
  | announcesPrepared hrun ht =>
      simp only [announce, List.mem_cons, List.not_mem_nil, or_false] at ht
      rcases ht with rfl | rfl | rfl <;> cases hinformed
  | replanned hprepare hsupersedes ht =>
      simp only [created, announce, List.mem_cons, List.not_mem_nil, or_false] at ht
      rcases ht with rfl | rfl | rfl | rfl <;> cases hinformed
  | _ => cases hinformed

theorem handled?_left {config : Config} {m : Memory} {t t' : Task} {r : Reading}
    (ht' : t' ∈ (exec config m t r).2.tasks) : t'.handled? = none := by
  cases exec_succeeds config m r ht' with
  | submitted hprepare ht =>
      simp only [created, announce, List.mem_cons, List.not_mem_nil, or_false] at ht
      rcases ht with rfl | rfl | rfl | rfl <;> rfl
  | announcesPrepared hrun ht =>
      simp only [announce, List.mem_cons, List.not_mem_nil, or_false] at ht
      rcases ht with rfl | rfl | rfl <;> rfl
  | replanned hprepare hsupersedes ht =>
      simp only [created, announce, List.mem_cons, List.not_mem_nil, or_false] at ht
      rcases ht with rfl | rfl | rfl | rfl <;> rfl
  | _ => rfl

theorem start_handles (entry : Entry) (t : Task) (ht : t ∈ start entry) :
    t.informed? = none ∧ forall kind envelope, t.handled? = some (kind, envelope) ->
      entry = .receive envelope ∧ envelope.messageType = kind := by
  cases start_cases ht <;>
    refine ⟨rfl, ?_⟩ <;>
    intro kind other hother <;>
    cases hother <;>
    exact ⟨rfl, by assumption⟩

/-!
## The invariant
-/

theorem Informed.drop {robotId : String} {sent : List Envelope} {m : Memory}
    {ts ts' : Multiset Task} (h : Informed robotId sent m ts) (hle : ts' ≤ ts) :
    Informed robotId sent m ts' where
  rows row hrow hrobot hsettled := by
    rcases h.rows row hrow hrobot hsettled with ⟨hcancelled, hfree⟩ | hreported
    · left
      refine ⟨hcancelled, ?_⟩
      intro hid
      exact hfree (Multiset.mem_of_le (add_le_add_right (carriedIds_le hle) _) hid)
    · exact Or.inr hreported
  handled t kind envelope ht := h.handled t kind envelope (Multiset.mem_of_le hle ht)
  informed t assignmentId status ht := h.informed t assignmentId status (Multiset.mem_of_le hle ht)

theorem informed_keeps (config : Config) (robotId : String) (sent : List Envelope) :
    (machine config).Keeps (ReceivesFrom robotId sent) Ordered (Informed robotId sent) where
  drop := Informed.drop
  spawn {m ts entry} _ h hC := by
    have huncarried : carriedIds (ts + (start entry : Multiset Task)) = carriedIds ts := by
      rw [add_comm]
      exact carriedIds_uncarried (fun t ht => (start_quiet_prepared entry t ht).1.2) ts
    constructor
    · intro row hrow hrobot hsettled
      unfold Withheld
      show (row.status = .cancelled ∧ row.assignmentId ∉ m.publishedIds +
        carriedIds (ts + (start entry : Multiset Task))) ∨ _
      rw [huncarried]
      exact h.rows row hrow hrobot hsettled
    · intro t kind envelope ht hhandled
      rcases Multiset.mem_add.mp ht with hold | hnew
      · exact h.handled t kind envelope hold hhandled
      · rcases (start_handles entry t (Multiset.mem_coe.mp hnew)).2 kind envelope hhandled with
          ⟨rfl, hkind⟩
        exact ⟨hkind, hC⟩
    · intro t assignmentId status ht hinformed
      rcases Multiset.mem_add.mp ht with hold | hnew
      · exact h.informed t assignmentId status hold hinformed
      · rw [(start_handles entry t (Multiset.mem_coe.mp hnew)).1] at hinformed
        cases hinformed
  crash {m ts} _ h := by
    constructor
    · intro row' hrow' hrobot hsettled
      have hrecovered : Committed m.store (.reopen true) m.store.recoverInterruptedRuns :=
        .recovered
      rcases hrecovered.evolves.origin row' hrow' with
        ⟨row, hrow, hsame, hmoves⟩ | ⟨planId, assignment, hnew, _⟩
      · have hid : row'.assignmentId = row.assignmentId := by rw [hsame]
        cases hopen : row.status.settled with
        | true =>
            have hkept : row' = row := by
              rw [hsame, StepStatus.moves_of_settled hopen hmoves]
            subst hkept
            have hall := h.drop (Multiset.zero_le ts)
            exact hall.rows row' hrow hrobot hsettled
        | false =>
            rcases hrecovered.settled_by hrow hopen hrow' hid hsettled with
              htarget | ⟨_, _, hother, _⟩
            · cases htarget
            · cases hother
      · rw [hnew] at hsettled
        cases hsettled
    · intro t _ _ ht
      cases Multiset.notMem_zero t ht
    · intro t _ _ ht
      cases Multiset.notMem_zero t ht
  exec {m t ts r} hordered h hC := by
    show Informed robotId sent (exec config m t r).1
      (((exec config m t r).2.tasks : Multiset Task) + ts)
    have hevolves := exec_evolves config m t r
    -- a settled row is not the one that has just been dispatched
    have hfree : forall row', row' ∈ (exec config m t r).1.store.runSteps.rows ->
        row'.status.settled = true ->
          row'.assignmentId ∉ m.publishedIds + carriedIds (t ::ₘ ts) ->
            row'.assignmentId ∉ (exec config m t r).1.publishedIds +
              carriedIds (((exec config m t r).2.tasks : Multiset Task) + ts) := by
      intro row' hrow' hsettled hbefore hafter
      rcases dispatched_of_carried hafter with hold | ⟨row, hrow, hid, hdispatched⟩
      · exact hbefore hold
      · rw [eq_of_assignmentId hrow' hrow hid.symm, hdispatched] at hsettled
        cases hsettled
    constructor
    · intro row' hrow' hrobot hsettled
      rcases settled_of_exec hrow' hsettled with
        ⟨row, hrow, hid, hassignment, rfl | ⟨hpending, hcancelled⟩ | ⟨status, hinformed, hstatus⟩⟩
      · rcases h.rows row' hrow hrobot hsettled with ⟨hcancelled, hbefore⟩ | hreported
        · exact Or.inl ⟨hcancelled, hfree row' hrow' hsettled hbefore⟩
        · exact Or.inr hreported
      · left
        refine ⟨hcancelled, hfree row' hrow' hsettled ?_⟩
        rw [hid]
        intro hstarted
        rcases hordered.started hstarted with ⟨other, hother, hotherId, hne⟩
        rw [eq_of_assignmentId hother hrow hotherId] at hne
        exact hne hpending
      · right
        rcases h.informed t _ status (Multiset.mem_cons_self t ts) hinformed with
          ⟨other, hother, hotherId, hreports⟩
        have hsame : other = row := eq_of_assignmentId hother hrow (hotherId.trans hid)
        rw [hsame, ← hassignment] at hreports
        rcases hreports hrobot with ⟨envelope, hsent, hreports⟩
        exact ⟨envelope, status, hsent, hreports, hstatus⟩
    · intro t' kind envelope ht' hhandled
      rcases Multiset.mem_add.mp ht' with hnew | hold
      · rw [handled?_left (Multiset.mem_coe.mp hnew)] at hhandled
        cases hhandled
      · exact h.handled t' kind envelope (Multiset.mem_cons_of_mem hold) hhandled
    · intro t' assignmentId status ht' hinformed
      rcases Multiset.mem_add.mp ht' with hnew | hold
      · exact informed_grows hevolves (h.left (Multiset.mem_coe.mp hnew) hinformed)
      · exact informed_grows hevolves
          (h.informed t' assignmentId status (Multiset.mem_cons_of_mem hold) hinformed)

theorem initial_informed (robotId : String) (sent : List Envelope) :
    Informed robotId sent Memory.initial 0 where
  rows row hrow := by cases hrow
  handled t _ _ ht := by cases Multiset.notMem_zero t ht
  informed t _ _ ht := by cases Multiset.notMem_zero t ht

theorem reaches_informed {config : Config} {robotId : String} {sent : List Envelope}
    {p : Pool Memory Task} (h : (machine config).Reaches (ReceivesFrom robotId sent) initial p) :
    Informed robotId sent p.shared p.tasks := by
  refine (informed_keeps config robotId sent).reaches h ?_ (initial_informed robotId sent)
  intro q hq
  exact reaches_ordered (hq.weaken (fun _ _ _ _ => trivial))

end Ump.Coordinator
