import Ump.Foundation.Transaction
import Ump.Coordinator.RunStatus

/-!
# The store, statement by statement

## The methods of the connection

Each method is written here as its statements on one SQLite connection, any of which
may raise after earlier ones have changed rows. The operations of the store are what
is left of them.
-/

namespace Ump.Coordinator

open Foundation CoordinatorStore

abbrev Method := Sql Exn CoordinatorStore

namespace Connection

/-- `UPDATE run_steps SET status = ?, updated_at_ms = ? WHERE ...`, with its row count. -/
def updateSteps (p : StepRow -> Bool) (status : StepStatus) (nowMs : Int) : Method Nat :=
  Sql.execute (fun s => do
    bindInteger nowMs
    .ok ((s.runSteps.rows.filter p).length, s.setSteps p status))

def refreshRunLocked (planId : String) (nowMs : Int) : Method Unit := do
  let statuses <- Sql.select (fun s => s.stepStatuses planId)
  Sql.execute (fun s => do
    bindInteger nowMs
    .ok ((), s.setRuns (fun run => run.planId == planId) (refreshStatus statuses)))

def markRunsUnknown : List String -> Method Unit
  | [] => pure ()
  | planId :: rest => do
      Sql.execute (fun s => .ok ((), s.setRuns (fun run => run.planId == planId) .unknown))
      markRunsUnknown rest

def recoverInterruptedRuns : Method Unit :=
  Sql.transaction (do
    let affected <- Sql.select (fun s =>
      (s.runSteps.rows.filter (fun row => row.status.interrupted)).map
        (fun row => row.planId))
    Sql.execute (fun s => .ok ((), s.setSteps (fun row => row.status.interrupted) .unknown))
    markRunsUnknown affected
    Sql.commit
    pure ())

def insertRun (goal : SharedGoal) (plan : Plan) (nowMs : Int) : Method Unit :=
  Sql.execute (fun s => do
    bindInteger nowMs
    match s.runs.insert? (newRun goal plan nowMs) with
    | some runs => .ok ((), { s with runs := runs })
    | none => .error .integrity)

def insertStepRows (planId : String) : List Assignment -> Method Unit
  | [] => pure ()
  | assignment :: rest => do
      Sql.execute (fun s =>
        match s.runSteps.insert? (newStep planId assignment) with
        | some runSteps => .ok ((), { s with runSteps := runSteps })
        | none => .error .integrity)
      insertStepRows planId rest

def createRun (goal : SharedGoal) (plan : Plan) (assignments : List Assignment)
    (nowMs : Int) : Method Unit :=
  Sql.transaction (do
    let existing <- Sql.select (fun s => s.run? plan.planId)
    match existing with
    | some run =>
        if run.goal.canonical = goal.canonical ∧ run.plan.canonical = plan.canonical then do
          Sql.commit
          pure ()
        else
          throw (.value "plan_id is already bound to different content")
    | none => do
        insertRun goal plan nowMs
        insertStepRows plan.planId assignments
        Sql.commit
        pure ())

/-- The one method without a transaction of its own. -/
def markDispatched (assignmentId : String) (nowMs : Int) : Method Bool := do
  let count <- updateSteps
    (fun row => row.assignmentId == assignmentId && row.status == .pending) .dispatched nowMs
  pure (count == 1)

/-- The rows are decoded after `COMMIT`, inside the same `try`. -/
def requestCancellation (planId : String) (nowMs : Int) : Method (List Assignment) :=
  Sql.transaction (do
    let run <- Sql.select (fun s => s.run? planId)
    match run with
    | none => throw (.key planId)
    | some _ => do
        let rows <- Sql.select (fun s => (s.runSteps.rows.filter
          (fun row => row.planId == planId && row.status.cancellable)).map
            (fun row => row.assignment.payload))
        let _ <- updateSteps (fun row => row.planId == planId && row.status == .pending)
          .cancelled nowMs
        let _ <- updateSteps (fun row => row.planId == planId && row.status.cancellable)
          .cancellationRequested nowMs
        refreshRunLocked planId nowMs
        Sql.commit
        Sql.compute (rows.mapM decodeAssignment))

/-- `UPDATE run_steps ... WHERE assignment_id = ?` and the end of the transaction. -/
def writeStep (row : StepRow) (status : StepStatus) (nowMs : Int) :
    Method (Option String) := do
  let _ <- updateSteps (fun other => other.assignmentId == row.assignmentId) status nowMs
  refreshRunLocked row.planId nowMs
  Sql.commit
  pure (some row.planId)

def refreshOnly (row : StepRow) (nowMs : Int) : Method (Option String) := do
  refreshRunLocked row.planId nowMs
  Sql.commit
  pure (some row.planId)

def recordCancellationAcknowledgement (assignmentId : String) (accepted : Bool)
    (nowMs : Int) : Method (Option String) :=
  Sql.transaction (do
    let found <- Sql.select (fun s => s.step? assignmentId)
    match found with
    | none => do
        Sql.commit
        pure none
    | some row =>
        if row.status = .cancellationRequested ∧ accepted = false then
          writeStep row .unknown nowMs
        else
          refreshOnly row nowMs)

def transition (assignmentId : String) (target : StepStatus) (nowMs : Int)
    (fromAck : Bool) : Method (Option String) :=
  Sql.transaction (do
    let found <- Sql.select (fun s => s.step? assignmentId)
    match found with
    | none => do
        Sql.commit
        pure none
    | some row =>
        if row.status.terminal then
          if fromAck then do
            Sql.commit
            pure (some row.planId)
          else if row.status ≠ target then
            throw (.value "terminal coordinator step status is immutable")
          else
            refreshOnly row nowMs
        else if (if fromAck then row.status.acknowledgeable else row.status.completable) then
          writeStep row target nowMs
        else
          throw (.value "invalid step transition"))

def recordAcknowledgement (assignmentId : String) (status : AssignmentStatus)
    (nowMs : Int) : Method (Option String) :=
  match acknowledgedStep? status with
  | none => Sql.select (fun s => s.planForAssignment assignmentId)
  | some target => transition assignmentId target nowMs true

def recordOutcome (assignmentId : String) (status : AssignmentStatus) (nowMs : Int) :
    Method (Option String) :=
  match outcomeStep? status with
  | none => throw (.value "outcome status is not terminal")
  | some target => transition assignmentId target nowMs false

def reconcileOutcome (assignmentId : String) (status : AssignmentStatus) (nowMs : Int) :
    Method (Option String) :=
  match reconciledStep? status with
  | none => throw (.value "reconciliation requires a known terminal outcome")
  | some target =>
      Sql.transaction (do
        let found <- Sql.select (fun s => s.step? assignmentId)
        match found with
        | none => do
            Sql.commit
            pure none
        | some row =>
            if row.status ≠ .unknown then
              throw (.value "only unknown assignments can be reconciled")
            else
              writeStep row target nowMs)

end Connection

/-- The method behind an operation; its result is dropped. -/
def method : Operation -> Method Unit
  | .createRun goal plan assignments nowMs =>
      Connection.createRun goal plan assignments nowMs
  | .markDispatched assignmentId nowMs => do
      let _ <- Connection.markDispatched assignmentId nowMs
      pure ()
  | .requestCancellation planId nowMs => do
      let _ <- Connection.requestCancellation planId nowMs
      pure ()
  | .recordCancellationAcknowledgement assignmentId accepted nowMs => do
      let _ <- Connection.recordCancellationAcknowledgement assignmentId accepted nowMs
      pure ()
  | .recordAcknowledgement assignmentId status nowMs => do
      let _ <- Connection.recordAcknowledgement assignmentId status nowMs
      pure ()
  | .recordOutcome assignmentId status nowMs => do
      let _ <- Connection.recordOutcome assignmentId status nowMs
      pure ()
  | .reconcileOutcome assignmentId status nowMs => do
      let _ <- Connection.reconcileOutcome assignmentId status nowMs
      pure ()
  | .reopen recoverInterrupted =>
      if recoverInterrupted then Connection.recoverInterruptedRuns else pure ()

/-- The session after a method, whether it returns or raises. A restart opens a new
connection, so an open transaction is lost. -/
def perform (s : Session CoordinatorStore) (operation : Operation) :
    Session CoordinatorStore :=
  match operation with
  | .reopen _ => sessionAfter (method operation (.idle s.committed))
  | _ => sessionAfter (method operation s)

def replay (operations : List Operation) : Session CoordinatorStore :=
  operations.foldl perform (.idle .empty)

/-!
## The statements inside a transaction
-/

theorem eq_of_tables {s s' : CoordinatorStore} (hruns : s.runs.rows = s'.runs.rows)
    (hsteps : s.runSteps.rows = s'.runSteps.rows) : s = s' := by
  cases s
  cases s'
  rw [CoordinatorStore.mk.injEq]
  exact ⟨Table.eq_of_rows hruns, Table.eq_of_rows hsteps⟩

theorem setRuns_setRuns (s : CoordinatorStore) (p q : String -> Bool) (status : RunStatus) :
    (s.setRuns (fun run => p run.planId) status).setRuns (fun run => q run.planId) status =
      s.setRuns (fun run => p run.planId || q run.planId) status := by
  apply eq_of_tables
  · simp only [rows_setRuns, List.map_map]
    refine List.map_congr_left ?_
    intro run _
    cases hp : p run.planId <;> cases hq : q run.planId <;> simp [hp, hq]
  · rfl

theorem yields_updateSteps (p : StepRow -> Bool) (status : StepStatus) (nowMs : Int)
    (w : CoordinatorStore) :
    Yields (Connection.updateSteps p status nowMs) w
      ((bindInteger nowMs).map (fun _ =>
        ((w.runSteps.rows.filter p).length, w.setSteps p status))) := by
  apply Yields.execute
  cases bindInteger nowMs <;> rfl

theorem yields_refreshRunLocked (planId : String) (nowMs : Int) (w : CoordinatorStore) :
    Yields (Connection.refreshRunLocked planId nowMs) w
      ((bindInteger nowMs).map (fun _ => ((), w.refreshed planId))) := by
  apply (Yields.select _ w).bind
  apply Yields.execute
  cases bindInteger nowMs <;> rfl

theorem yields_insertRun (goal : SharedGoal) (plan : Plan) (nowMs : Int)
    (w : CoordinatorStore) :
    Yields (Connection.insertRun goal plan nowMs) w (do
      bindInteger nowMs
      match w.runs.insert? (newRun goal plan nowMs) with
      | some runs => .ok ((), { w with runs := runs })
      | none => .error .integrity) :=
  Yields.execute rfl

theorem yields_insertStepRows (planId : String) (assignments : List Assignment)
    (w : CoordinatorStore) :
    Yields (Connection.insertStepRows planId assignments) w
      (match insertSteps planId assignments w.runSteps with
      | some runSteps => .ok ((), { w with runSteps := runSteps })
      | none => .error .integrity) := by
  induction assignments generalizing w with
  | nil => exact Yields.pure () w
  | cons assignment rest ih =>
      unfold Connection.insertStepRows insertSteps
      cases hinsert : w.runSteps.insert? (newStep planId assignment) with
      | none =>
          apply Yields.bind_error
          apply Yields.execute
          simp only [hinsert]
      | some runSteps =>
          refine Yields.bind (v := ()) ?_ (ih { w with runSteps := runSteps })
          apply Yields.execute
          simp only [hinsert]

theorem yields_markRunsUnknown (planIds : List String) (w : CoordinatorStore) :
    Yields (Connection.markRunsUnknown planIds) w
      (.ok ((), w.setRuns (fun run => planIds.contains run.planId) .unknown)) := by
  induction planIds generalizing w with
  | nil =>
      have hnone : w.setRuns (fun run => ([] : List String).contains run.planId) .unknown =
          w := by
        apply eq_of_tables
        · rw [rows_setRuns]
          simp
        · rfl
      rw [hnone]
      exact Yields.pure () w
  | cons planId rest ih =>
      have hrest := ih (w.setRuns (fun run => run.planId == planId) .unknown)
      rw [setRuns_setRuns w (fun other => other == planId) (fun other => rest.contains other)]
        at hrest
      refine Yields.bind (Yields.execute rfl) ?_
      simpa only [List.contains_cons] using hrest

theorem commits_writeStep (row : StepRow) (status : StepStatus) (nowMs : Int)
    (w : CoordinatorStore) :
    Commits (Connection.writeStep row status nowMs) w (w.writeStep row status nowMs) := by
  have hwrite := yields_updateSteps (fun other => other.assignmentId == row.assignmentId)
    status nowMs w
  have hrefresh := yields_refreshRunLocked row.planId nowMs
    (w.setSteps (fun other => other.assignmentId == row.assignmentId) status)
  unfold CoordinatorStore.writeStep refreshRun
  cases hbind : bindInteger nowMs with
  | ok v =>
      rw [hbind] at hwrite hrefresh
      exact Commits.bind hwrite (Commits.bind hrefresh (Commits.commit _ _))
  | error e =>
      rw [hbind] at hwrite
      exact Commits.bind_error hwrite

theorem commits_refreshOnly (row : StepRow) (nowMs : Int) (w : CoordinatorStore) :
    Commits (Connection.refreshOnly row nowMs) w (do
      let refreshed <- w.refreshRun row.planId nowMs
      .ok (some row.planId, refreshed)) := by
  have hrefresh := yields_refreshRunLocked row.planId nowMs w
  unfold refreshRun
  cases hbind : bindInteger nowMs with
  | ok v =>
      rw [hbind] at hrefresh
      exact Commits.bind hrefresh (Commits.commit _ _)
  | error e =>
      rw [hbind] at hrefresh
      exact Commits.bind_error hrefresh

/-!
## The methods and the operations
-/

theorem createRun_refines (goal : SharedGoal) (plan : Plan) (assignments : List Assignment)
    (nowMs : Int) (d : CoordinatorStore) :
    Refines (Connection.createRun goal plan assignments nowMs) d
      ((d.createRun goal plan assignments nowMs).map (fun s => ((), s))) := by
  apply Commits.transaction
  apply Commits.bind (Yields.select _ d)
  unfold CoordinatorStore.createRun
  cases d.run? plan.planId with
  | some run =>
      dsimp only
      split_ifs with hsame
      · exact Commits.commit () d
      · exact Commits.throw _ d
  | none =>
      dsimp only
      have hrun := yields_insertRun goal plan nowMs d
      cases hbind : bindInteger nowMs with
      | error e =>
          rw [hbind] at hrun
          exact Commits.bind_error hrun
      | ok v =>
          rw [hbind] at hrun
          cases hruns : d.runs.insert? (newRun goal plan nowMs) with
          | none =>
              rw [hruns] at hrun
              exact Commits.bind_error hrun
          | some runs =>
              rw [hruns] at hrun
              apply Commits.bind hrun
              have hrows := yields_insertStepRows plan.planId assignments
                { d with runs := runs }
              cases hsteps : insertSteps plan.planId assignments d.runSteps with
              | none =>
                  simp only [hsteps] at hrows
                  exact Commits.bind_error hrows
              | some runSteps =>
                  simp only [hsteps] at hrows
                  exact Commits.bind hrows (Commits.commit () _)

theorem transition_refines (assignmentId : String) (target : StepStatus) (nowMs : Int)
    (fromAck : Bool) (d : CoordinatorStore) :
    Refines (Connection.transition assignmentId target nowMs fromAck) d
      (d.transition assignmentId target nowMs fromAck) := by
  apply Commits.transaction
  apply Commits.bind (Yields.select _ d)
  unfold CoordinatorStore.transition
  cases d.step? assignmentId with
  | none => exact Commits.commit none d
  | some row =>
      dsimp only
      split_ifs
      · exact Commits.commit (some row.planId) d
      · exact Commits.throw _ d
      · exact commits_refreshOnly row nowMs d
      · exact commits_writeStep row target nowMs d
      · exact Commits.throw _ d
      · exact commits_writeStep row target nowMs d
      · exact Commits.throw _ d

theorem recordCancellationAcknowledgement_refines (assignmentId : String) (accepted : Bool)
    (nowMs : Int) (d : CoordinatorStore) :
    Refines (Connection.recordCancellationAcknowledgement assignmentId accepted nowMs) d
      (d.recordCancellationAcknowledgement assignmentId accepted nowMs) := by
  apply Commits.transaction
  apply Commits.bind (Yields.select _ d)
  unfold CoordinatorStore.recordCancellationAcknowledgement
  cases d.step? assignmentId with
  | none => exact Commits.commit none d
  | some row =>
      dsimp only
      split_ifs
      · exact commits_writeStep row .unknown nowMs d
      · exact commits_refreshOnly row nowMs d

theorem reconcileOutcome_refines (assignmentId : String) (status : AssignmentStatus)
    (nowMs : Int) (d : CoordinatorStore) :
    Refines (Connection.reconcileOutcome assignmentId status nowMs) d
      (d.reconcileOutcome assignmentId status nowMs) := by
  unfold Connection.reconcileOutcome CoordinatorStore.reconcileOutcome
  cases reconciledStep? status with
  | none => rfl
  | some target =>
      apply Commits.transaction
      apply Commits.bind (Yields.select _ d)
      cases d.step? assignmentId with
      | none => exact Commits.commit none d
      | some row =>
          dsimp only
          split_ifs
          · exact Commits.throw _ d
          · exact commits_writeStep row target nowMs d

theorem recoverInterruptedRuns_refines (d : CoordinatorStore) :
    Refines Connection.recoverInterruptedRuns d (.ok ((), d.recoverInterruptedRuns)) := by
  apply Commits.transaction
  apply Commits.bind (Yields.select _ d)
  apply Commits.bind (Yields.execute rfl)
  exact Commits.bind (yields_markRunsUnknown _ _) (Commits.commit () _)

/-- The assignments of the rows have been built, so each can be decoded again. -/
def Decodable (s : CoordinatorStore) : Prop :=
  forall row, row ∈ s.runSteps.rows -> row.assignment.check = .ok ()

theorem decode_rows {rows : List StepRow}
    (h : forall row, row ∈ rows -> row.assignment.check = .ok ()) :
    (rows.map (fun row => row.assignment.payload)).mapM decodeAssignment =
      .ok (rows.map (fun row => row.assignment)) := by
  induction rows with
  | nil => rfl
  | cons row rest ih =>
      rw [List.map_cons, List.mapM_cons, decodeAssignment_payload (h row List.mem_cons_self),
        ih (fun other hother => h other (List.mem_cons_of_mem _ hother))]
      rfl

/-- Decoding comes after the commit, but it decodes what has been built. -/
theorem requestCancellation_refines (planId : String) (nowMs : Int) {d : CoordinatorStore}
    (hdecodable : Decodable d) :
    Refines (Connection.requestCancellation planId nowMs) d
      (d.requestCancellation planId nowMs) := by
  apply Commits.transaction
  apply Commits.bind (Yields.select _ d)
  unfold CoordinatorStore.requestCancellation
  cases d.run? planId with
  | none => exact Commits.throw _ d
  | some run =>
      apply Commits.bind (Yields.select _ d)
      have hpending := yields_updateSteps
        (fun row => row.planId == planId && row.status == .pending) .cancelled nowMs d
      unfold refreshRun
      cases hbind : bindInteger nowMs with
      | error e =>
          rw [hbind] at hpending
          exact Commits.bind_error hpending
      | ok v =>
          have hrequested := yields_updateSteps
            (fun row => row.planId == planId && row.status.cancellable)
            .cancellationRequested nowMs (d.setSteps
              (fun row => row.planId == planId && row.status == .pending) .cancelled)
          have hrefresh := yields_refreshRunLocked planId nowMs ((d.setSteps
            (fun row => row.planId == planId && row.status == .pending) .cancelled).setSteps
              (fun row => row.planId == planId && row.status.cancellable)
              .cancellationRequested)
          rw [hbind] at hpending hrequested hrefresh
          refine Commits.bind hpending (Commits.bind hrequested (Commits.bind hrefresh ?_))
          have hdecoded := decode_rows (fun row hrow =>
            hdecodable row (List.mem_of_mem_filter
              (p := fun row => row.planId == planId && row.status.cancellable) hrow))
          rw [hdecoded]
          exact fun _ => rfl

theorem length_filter_assignmentId {d : CoordinatorStore} (assignmentId : String)
    (p : StepRow -> Bool) :
    ((d.runSteps.rows.filter (fun row => row.assignmentId == assignmentId && p row)).length == 1)
      = d.runSteps.rows.any (fun row => row.assignmentId == assignmentId && p row) := by
  have hdistinct := d.runSteps.distinct
  generalize d.runSteps.rows = rows at hdistinct ⊢
  induction rows with
  | nil => rfl
  | cons row rest ih =>
      rcases List.pairwise_cons.mp hdistinct with ⟨hrow, hrest⟩
      cases hselected : (row.assignmentId == assignmentId && p row) with
      | false => simpa [List.filter_cons, hselected] using ih hrest
      | true =>
          have hnone : rest.filter (fun other => other.assignmentId == assignmentId && p other) =
              [] := by
            rw [List.filter_eq_nil_iff]
            intro other hother hsame
            have hclash := hrow other hother
            simp only [Bool.and_eq_true, beq_iff_eq] at hselected hsame
            simp [Keyed.clash, hselected.1, hsame.1] at hclash
          rw [List.filter_cons, if_pos hselected, hnone, List.any_cons, hselected]
          rfl

theorem markDispatched_refines (assignmentId : String) (nowMs : Int) (d : CoordinatorStore) :
    Refines (Connection.markDispatched assignmentId nowMs) d
      (d.markDispatched assignmentId nowMs) := by
  have hcount := length_filter_assignmentId (d := d) assignmentId
    (fun row => row.status == .pending)
  unfold CoordinatorStore.markDispatched
  cases hbind : bindInteger nowMs with
  | error e =>
      show Connection.markDispatched assignmentId nowMs (Session.idle d) = .error e (.idle d)
      unfold Connection.markDispatched
      apply bind_of_error
      unfold Connection.updateSteps Sql.execute
      simp [hbind, bind, Except.bind]
  | ok v =>
      have hupdate : Connection.updateSteps
          (fun row => row.assignmentId == assignmentId && row.status == .pending) .dispatched
            nowMs (Session.idle d) =
          .ok (d.runSteps.rows.filter
              (fun row => row.assignmentId == assignmentId && row.status == .pending)).length
            (.idle (d.setSteps (fun row => row.assignmentId == assignmentId &&
              row.status == .pending) .dispatched)) := by
        unfold Connection.updateSteps Sql.execute
        simp [hbind, bind, Except.bind, Session.idle, Session.current, Session.write]
      show Connection.markDispatched assignmentId nowMs (Session.idle d) = .ok _ (.idle _)
      unfold Connection.markDispatched
      rw [bind_of_ok hupdate, ← hcount]
      rfl

theorem refines_dropped {x : Method value} {d : CoordinatorStore}
    {r : Except Exn (value × CoordinatorStore)} (h : Refines x d r) :
    Refines (do let _ <- x; pure ()) d
      ((r.map Prod.snd).map (fun s => ((), s))) := by
  cases r with
  | ok r => exact bind_of_ok h
  | error e => exact bind_of_error h

theorem method_refines (operation : Operation) {d : CoordinatorStore}
    (hdecodable : Decodable d) :
    Refines (method operation) d ((d.commit operation).map (fun s => ((), s))) := by
  cases operation with
  | createRun goal plan assignments nowMs => exact createRun_refines goal plan assignments nowMs d
  | markDispatched assignmentId nowMs =>
      exact refines_dropped (markDispatched_refines assignmentId nowMs d)
  | requestCancellation planId nowMs =>
      exact refines_dropped (requestCancellation_refines planId nowMs hdecodable)
  | recordCancellationAcknowledgement assignmentId accepted nowMs =>
      exact refines_dropped
        (recordCancellationAcknowledgement_refines assignmentId accepted nowMs d)
  | recordAcknowledgement assignmentId status nowMs =>
      apply refines_dropped
      unfold Connection.recordAcknowledgement CoordinatorStore.recordAcknowledgement
      cases acknowledgedStep? status with
      | none => rfl
      | some target => exact transition_refines assignmentId target nowMs true d
  | recordOutcome assignmentId status nowMs =>
      apply refines_dropped
      unfold Connection.recordOutcome CoordinatorStore.recordOutcome
      cases outcomeStep? status with
      | none => rfl
      | some target => exact transition_refines assignmentId target nowMs false d
  | reconcileOutcome assignmentId status nowMs =>
      exact refines_dropped (reconcileOutcome_refines assignmentId status nowMs d)
  | reopen recoverInterrupted =>
      cases recoverInterrupted with
      | true => exact recoverInterruptedRuns_refines d
      | false => rfl

/-!
## Histories

A history leaves no transaction open, and what it has committed is the store of the
operations.
-/

def CoordinatorStore.Operation.Built : Operation -> Prop
  | .createRun _ _ assignments _ =>
      forall assignment, assignment ∈ assignments -> assignment.check = .ok ()
  | _ => True

theorem decodable_committed {s s' : CoordinatorStore} {operation : Operation}
    (h : Committed s operation s') (hbuilt : Operation.Built operation)
    (hs : Decodable s) : Decodable s' := by
  intro row' hrow'
  rcases h.restated_or_extended with ⟨f, _, hsteps, _⟩ |
    ⟨goal, plan, assignments, nowMs, rfl, _, _, hsteps⟩
  · rw [hsteps] at hrow'
    rcases List.mem_map.mp hrow' with ⟨row, hrow, rfl⟩
    exact hs row hrow
  · rw [hsteps] at hrow'
    rcases List.mem_append.mp hrow' with hold | hnew
    · exact hs row' hold
    · rcases List.mem_map.mp hnew with ⟨assignment, hassignment, rfl⟩
      exact hbuilt assignment hassignment

theorem perform_idle {d : CoordinatorStore} (hdecodable : Decodable d)
    (operation : Operation) : perform (.idle d) operation = .idle (d.apply operation) := by
  have hmethod : sessionAfter (method operation (.idle d)) = .idle (d.apply operation) := by
    have hrefines := method_refines operation hdecodable
    unfold CoordinatorStore.apply
    cases hcommit : d.commit operation with
    | ok s =>
        rw [hcommit] at hrefines
        rw [show method operation (.idle d) = _ from hrefines]
        rfl
    | error e =>
        rw [hcommit] at hrefines
        rw [show method operation (.idle d) = _ from hrefines]
        rfl
  cases operation with
  | reopen recoverInterrupted => exact hmethod
  | _ => exact hmethod

theorem foldl_perform_idle {operations : List Operation} {d : CoordinatorStore}
    (hbuilt : forall operation, operation ∈ operations -> operation.Built)
    (hdecodable : Decodable d) :
    operations.foldl perform (.idle d) = .idle (d.applyAll operations) ∧
      Decodable (d.applyAll operations) := by
  induction operations generalizing d with
  | nil => exact ⟨rfl, hdecodable⟩
  | cons operation rest ih =>
      rw [List.foldl_cons, perform_idle hdecodable]
      exact ih (fun other hother => hbuilt other (List.mem_cons_of_mem _ hother))
        (decodable_committed (apply_committed d operation)
          (hbuilt operation List.mem_cons_self) hdecodable)

theorem replay_eq {operations : List Operation}
    (hbuilt : forall operation, operation ∈ operations -> operation.Built) :
    replay operations = .idle (empty.applyAll operations) ∧
      Decodable (empty.applyAll operations) :=
  foldl_perform_idle hbuilt (fun row hrow => by cases hrow)

/-!
## The transition relation
-/

def StepStatus.Becomes (a b : StepStatus) : Prop :=
  match a with
  | .pending => b = .dispatched ∨ b = .cancelled
  | .dispatched | .accepted =>
      b = .accepted ∨ b = .cancellationRequested ∨ b = .unknown ∨ b.settled = true
  | .cancellationRequested => b = .unknown ∨ b.settled = true
  | .unknown => b = .cancellationRequested ∨ b.settled = true
  | .succeeded | .failed | .rejected | .cancelled => False

theorem StepStatus.becomes_of_moves {a b : StepStatus} (h : a.moves b = true) :
    b = a ∨ a.Becomes b := by
  revert h
  cases a <;> cases b <;>
    simp [StepStatus.moves, StepStatus.Becomes, StepStatus.settled, StepStatus.terminal]

/-- After every history of methods, restarts among them: a method that raises leaves
the journal as it was, every change of a step status is one of `StepStatus.Becomes`,
and a settled step is the same in every later state. -/
theorem step_changes_and_atomicity (operations later : List Operation)
    (operation : Operation)
    (hbuilt : forall other, other ∈ operations ++ operation :: later -> other.Built) :
    (forall e s, method operation (replay operations) = .error e s ->
      s = replay operations) ∧
    (forall row, row ∈ (replay operations).committed.runSteps.rows ->
      exists row', row' ∈ (perform (replay operations) operation).committed.runSteps.rows ∧
        row' = { row with status := row'.status } ∧
        (row'.status = row.status ∨ row.status.Becomes row'.status)) ∧
    (forall row, row ∈ (replay operations).committed.runSteps.rows ->
      row.status.settled = true ->
      row ∈ (replay (operations ++ operation :: later)).committed.runSteps.rows) := by
  rcases replay_eq (fun other hother => hbuilt other (List.mem_append_left _ hother)) with
    ⟨hreplay, hdecodable⟩
  rw [hreplay, (replay_eq hbuilt).1]
  refine ⟨?_, ?_, ?_⟩
  · intro e s hraised
    have hrefines := method_refines operation hdecodable
    cases hcommit : (empty.applyAll operations).commit operation with
    | ok d =>
        rw [hcommit] at hrefines
        rw [show method operation (.idle (empty.applyAll operations)) = _ from hrefines] at hraised
        cases hraised
    | error e =>
        rw [hcommit] at hrefines
        rw [show method operation (.idle (empty.applyAll operations)) = _ from hrefines] at hraised
        cases hraised
        rfl
  · intro row hrow
    rw [perform_idle hdecodable]
    rcases (apply_evolves _ operation).kept row hrow with ⟨status, hkept, hmoves⟩
    exact ⟨_, hkept, rfl, StepStatus.becomes_of_moves hmoves⟩
  · intro row hrow hsettled
    have happend : empty.applyAll (operations ++ operation :: later) =
        (empty.applyAll operations).applyAll (operation :: later) := List.foldl_append
    rw [happend]
    exact applyAll_settled hrow hsettled (operation :: later)

theorem patrol_cancellation_raises :
    (exists s, method (.requestCancellation "p" (2 ^ 63))
      (replay (patrolOperations.take 2)) = .error .overflow s) ∧
    (forall e s, method (.requestCancellation "p" (2 ^ 63))
        (replay (patrolOperations.take 2)) = .error e s ->
      s = replay (patrolOperations.take 2)) ∧
    (forall row, row ∈ (replay (patrolOperations.take 2)).committed.runSteps.rows ->
      row.status.settled = true -> row ∈ (replay (patrolOperations.take 2 ++
        .requestCancellation "p" (2 ^ 63) :: patrolOperations.drop 2)).committed.runSteps.rows) := by
  have hbuilt : forall other, other ∈ patrolOperations.take 2 ++
      .requestCancellation "p" (2 ^ 63) :: patrolOperations.drop 2 -> other.Built := by
    intro other hother
    simp only [patrolOperations, List.take_succ_cons, List.take_zero, List.drop_succ_cons,
      List.drop_zero, List.cons_append, List.nil_append, List.mem_cons, List.not_mem_nil,
      or_false] at hother
    rcases hother with rfl | rfl | rfl | rfl
    · intro assignment hassignment
      rw [List.mem_singleton.mp hassignment]
      rfl
    · trivial
    · trivial
    · trivial
  have h := step_changes_and_atomicity (patrolOperations.take 2) (patrolOperations.drop 2)
    (.requestCancellation "p" (2 ^ 63)) hbuilt
  exact ⟨⟨_, rfl⟩, h.1, h.2.2⟩

end Ump.Coordinator
