import Ump.Foundation.Transaction
import Ump.Participant.Journal

/-!
# The journal, statement by statement

## The methods of the connection

Each method of the journal as its statements on one SQLite connection. Any statement
may raise after earlier ones have changed rows, and the operations of the journal are
what is left of them.
-/

namespace Ump.Participant

open Foundation Journal

abbrev Method := Sql Exn Journal

namespace Connection

def init : Method Unit :=
  Sql.execute (fun j => .ok ((), j.reopen))

def insertAssignment (sha256 : Text -> String) (assignment : Assignment) (issuerId : String)
    (nowMs : Int) : Method Unit :=
  Sql.execute (fun j => do
    bindInteger nowMs
    match j.assignments.insert? (newRecord sha256 assignment issuerId) with
    | some assignments => .ok ((), { j with assignments := assignments })
    | none => .error .integrity)

/-- `executemany` of the reservations. -/
def insertReservations (assignmentId : String) : List String -> Method Unit
  | [] => pure ()
  | resource :: rest => do
      Sql.execute (fun j =>
        match j.reservations.insert?
          { resourceId := resource, assignmentId := assignmentId } with
        | some reservations => .ok ((), { j with reservations := reservations })
        | none => .error .integrity)
      insertReservations assignmentId rest

def claim (sha256 : Text -> String) (assignment : Assignment) (issuerId : String)
    (nowMs : Int) : Method ClaimResult :=
  Sql.transaction (do
    let row <- Sql.select (fun j => j.lookup assignment.assignmentId)
    match row with
    | none => do
        let conflicting <- Sql.select (fun j => j.resourceConflict assignment)
        if conflicting then do
          Sql.commit
          pure .resourceConflict
        else do
          insertAssignment sha256 assignment issuerId nowMs
          insertReservations assignment.assignmentId assignment.step.resources
          Sql.commit
          pure .new
    | some record =>
        if record.fingerprint ≠ assignmentFingerprint sha256 assignment ∨
            record.issuerId ≠ issuerId then do
          Sql.commit
          pure .conflict
        else
          match record.outcome with
          | some outcome => do
              Sql.commit
              pure (.replay outcome)
          | none => do
              Sql.commit
              pure .uncertain)

/-- `UPDATE assignments SET status = ?, outcome_json = ?, updated_at_ms = ?`. -/
def updateOutcome (assignmentId : String) (outcome : Outcome) (nowMs : Int) : Method Unit :=
  Sql.execute (fun j => do
    bindInteger nowMs
    .ok ((), { j with
      assignments := j.assignments.update (fun record => record.assignmentId == assignmentId)
        (recorded outcome) (keepsKeys_recorded outcome) }))

def deleteReservations (assignmentId : String) : Method Unit :=
  Sql.execute (fun j =>
    .ok ((), { j with reservations := release assignmentId j.reservations }))

def complete (sha256 : Text -> String) (assignment : Assignment) (outcome : Outcome)
    (nowMs : Int) : Method Unit :=
  Sql.transaction (do
    let row <- Sql.select (fun j => j.lookup assignment.assignmentId)
    match row with
    | none => throw (.value "cannot complete an unclaimed or conflicting assignment")
    | some stored => do
        Sql.compute (refuseWhen
          (decide (stored.fingerprint ≠ assignmentFingerprint sha256 assignment))
          "cannot complete an unclaimed or conflicting assignment")
        Sql.compute (refuseWhen
          (stored.outcome.any (fun other => decide (other.canonical ≠ outcome.canonical)))
          "terminal assignment outcome is immutable")
        updateOutcome assignment.assignmentId outcome nowMs
        if outcome.status = .unknown then do
          Sql.commit
          pure ()
        else do
          deleteReservations assignment.assignmentId
          Sql.commit
          pure ())

def insertResolution (resolution : Resolution) : Method Unit :=
  Sql.execute (fun j => do
    bindInteger resolution.occurredAtMs
    match j.resolutions.insert? resolution with
    | some resolutions => .ok ((), { j with resolutions := resolutions })
    | none => .error .integrity)

def resolveUnknown (assignmentId : String) (status : AssignmentStatus)
    (description resolverId evidence : String) (nowMs : Int) : Method Outcome := do
  Sql.compute (validateResolution status resolverId evidence)
  Sql.transaction (do
    let row <- Sql.select (fun j => j.lookup assignmentId)
    match row with
    | none => throw (.value "assignment does not exist")
    | some stored => do
        Sql.compute (refuseWhen
          (decide (stored.status ≠ .unknown) || stored.outcome.isSome)
          "only an unknown assignment can be resolved")
        let outcome <- Sql.compute (Outcome.make assignmentId
          stored.assignment.step.assignedRobotId (decide (status = .succeeded)) description
          (some status) (.obj []))
        insertResolution
          { assignmentId := assignmentId
            status := status
            resolverId := resolverId
            evidence := evidence
            occurredAtMs := nowMs }
        updateOutcome assignmentId outcome nowMs
        deleteReservations assignmentId
        Sql.commit
        pure outcome)

end Connection

/-!
## Histories

A history is any sequence of method calls and restarts, and a call that raises is part
of it.
-/

inductive Journal.Operation where
  | claim (assignment : Assignment) (issuerId : String) (nowMs : Int)
  | complete (assignment : Assignment) (outcome : Outcome) (nowMs : Int)
  | resolveUnknown (assignmentId : String) (status : AssignmentStatus)
      (description resolverId evidence : String) (nowMs : Int)
  | reopen

/-- The method behind an operation, with the answer to a claim. -/
def method (sha256 : Text -> String) : Operation -> Method (Option ClaimResult)
  | .claim assignment issuerId nowMs => do
      let result <- Connection.claim sha256 assignment issuerId nowMs
      pure (some result)
  | .complete assignment outcome nowMs => do
      Connection.complete sha256 assignment outcome nowMs
      pure none
  | .resolveUnknown assignmentId status description resolverId evidence nowMs => do
      let _ <- Connection.resolveUnknown assignmentId status description resolverId evidence
        nowMs
      pure none
  | .reopen => do
      Connection.init
      pure none

/-- The session after a method. A restart opens a new connection. -/
def perform (sha256 : Text -> String) (s : Session Journal) (operation : Operation) :
    Session Journal :=
  match operation with
  | .reopen => sessionAfter (method sha256 .reopen (.idle s.committed))
  | _ => sessionAfter (method sha256 operation s)

def replay (sha256 : Text -> String) (operations : List Operation) : Session Journal :=
  operations.foldl (perform sha256) (.idle .empty)

namespace Journal

def commit (sha256 : Text -> String) (journal : Journal) :
    Operation -> Except Exn (Option ClaimResult × Journal)
  | .claim assignment issuerId nowMs => do
      let (result, journal') <- journal.claim sha256 assignment issuerId nowMs
      .ok (some result, journal')
  | .complete assignment outcome nowMs => do
      let journal' <- journal.complete sha256 assignment outcome nowMs
      .ok (none, journal')
  | .resolveUnknown assignmentId status description resolverId evidence nowMs => do
      let (_, journal') <- journal.resolveUnknown assignmentId status description resolverId
        evidence nowMs
      .ok (none, journal')
  | .reopen => .ok (none, journal.reopen)

/-- The journal after an operation; one that raises leaves it alone. -/
def apply (sha256 : Text -> String) (journal : Journal) (operation : Operation) : Journal :=
  match journal.commit sha256 operation with
  | .ok (_, journal') => journal'
  | .error _ => journal

/-- What is left of a result in place of the journal before it. -/
def kept (journal : Journal) : Except Exn Journal -> Journal
  | .ok journal' => journal'
  | .error _ => journal

theorem apply_claim (sha256 : Text -> String) (journal : Journal) (assignment : Assignment)
    (issuerId : String) (nowMs : Int) :
    journal.apply sha256 (.claim assignment issuerId nowMs) =
      journal.kept ((journal.claim sha256 assignment issuerId nowMs).map Prod.snd) := by
  unfold apply
  rw [commit]
  cases journal.claim sha256 assignment issuerId nowMs <;> rfl

theorem apply_complete (sha256 : Text -> String) (journal : Journal) (assignment : Assignment)
    (outcome : Outcome) (nowMs : Int) :
    journal.apply sha256 (.complete assignment outcome nowMs) =
      journal.kept (journal.complete sha256 assignment outcome nowMs) := by
  unfold apply
  rw [commit]
  cases journal.complete sha256 assignment outcome nowMs <;> rfl

theorem apply_resolveUnknown (sha256 : Text -> String) (journal : Journal)
    (assignmentId : String) (status : AssignmentStatus)
    (description resolverId evidence : String) (nowMs : Int) :
    journal.apply sha256
        (.resolveUnknown assignmentId status description resolverId evidence nowMs) =
      journal.kept ((journal.resolveUnknown assignmentId status description resolverId evidence
        nowMs).map Prod.snd) := by
  unfold apply
  rw [commit]
  cases journal.resolveUnknown assignmentId status description resolverId evidence nowMs <;> rfl

def applyAll (sha256 : Text -> String) (journal : Journal) (operations : List Operation) :
    Journal :=
  operations.foldl (apply sha256) journal

end Journal

/-!
## The methods and the operations
-/

theorem yields_insertReservations (assignmentId : String) (resources : List String)
    (w : Journal) :
    Yields (Connection.insertReservations assignmentId resources) w
      (match reserve assignmentId resources w.reservations with
      | some reservations => .ok ((), { w with reservations := reservations })
      | none => .error .integrity) := by
  induction resources generalizing w with
  | nil => exact Yields.pure () w
  | cons resource rest ih =>
      unfold Connection.insertReservations reserve
      cases hinsert : w.reservations.insert?
          { resourceId := resource, assignmentId := assignmentId } with
      | none =>
          apply Yields.bind_error
          apply Yields.execute
          simp only [hinsert]
      | some reservations =>
          refine Yields.bind (v := ()) ?_ (ih { w with reservations := reservations })
          apply Yields.execute
          simp only [hinsert]

theorem claim_refines (sha256 : Text -> String) (assignment : Assignment) (issuerId : String)
    (nowMs : Int) (d : Journal) :
    Refines (Connection.claim sha256 assignment issuerId nowMs) d
      (d.claim sha256 assignment issuerId nowMs) := by
  apply Commits.transaction
  apply Commits.bind (Yields.select _ d)
  unfold Journal.claim
  cases d.lookup assignment.assignmentId with
  | some record =>
      dsimp only
      split_ifs
      · exact Commits.commit ClaimResult.conflict d
      · cases record.outcome with
        | some outcome => exact Commits.commit (ClaimResult.replay outcome) d
        | none => exact Commits.commit ClaimResult.uncertain d
  | none =>
      apply Commits.bind (Yields.select _ d)
      split_ifs
      · exact Commits.commit ClaimResult.resourceConflict d
      · have hinsertion : Yields (Connection.insertAssignment sha256 assignment issuerId nowMs) d
            (do
              bindInteger nowMs
              match d.assignments.insert? (newRecord sha256 assignment issuerId) with
              | some assignments => .ok ((), { d with assignments := assignments })
              | none => .error .integrity) := Yields.execute rfl
        cases hbind : bindInteger nowMs with
        | error e =>
            rw [hbind] at hinsertion
            exact Commits.bind_error hinsertion
        | ok v =>
            rw [hbind] at hinsertion
            cases hinsert : d.assignments.insert? (newRecord sha256 assignment issuerId) with
            | none =>
                rw [hinsert] at hinsertion
                exact Commits.bind_error hinsertion
            | some assignments =>
                rw [hinsert] at hinsertion
                apply Commits.bind hinsertion
                have hrows := yields_insertReservations assignment.assignmentId
                  assignment.step.resources { d with assignments := assignments }
                cases hreserve : reserve assignment.assignmentId assignment.step.resources
                    d.reservations with
                | none =>
                    simp only [hreserve] at hrows
                    exact Commits.bind_error hrows
                | some reservations =>
                    simp only [hreserve] at hrows
                    exact Commits.bind hrows (Commits.commit ClaimResult.new _)

theorem yields_updateOutcome (assignmentId : String) (outcome : Outcome) (nowMs : Int)
    (w : Journal) :
    Yields (Connection.updateOutcome assignmentId outcome nowMs) w (do
      bindInteger nowMs
      .ok ((), { w with
        assignments := w.assignments.update
          (fun record => record.assignmentId == assignmentId) (recorded outcome)
          (keepsKeys_recorded outcome) })) :=
  Yields.execute rfl

theorem complete_refines (sha256 : Text -> String) (assignment : Assignment)
    (outcome : Outcome) (nowMs : Int) (d : Journal) :
    Refines (Connection.complete sha256 assignment outcome nowMs) d
      ((d.complete sha256 assignment outcome nowMs).map (fun j => ((), j))) := by
  apply Commits.transaction
  apply Commits.bind (Yields.select _ d)
  unfold Journal.complete
  cases d.lookup assignment.assignmentId with
  | none => exact Commits.throw _ d
  | some stored =>
      dsimp only
      rw [map_bind]
      apply Commits.compute
      intro _
      rw [map_bind]
      apply Commits.compute
      intro _
      have hupdate := yields_updateOutcome assignment.assignmentId outcome nowMs d
      cases hbind : bindInteger nowMs with
      | error e =>
          rw [hbind] at hupdate
          exact Commits.bind_error hupdate
      | ok v =>
          rw [hbind] at hupdate
          apply Commits.bind hupdate
          show Commits _ _ (.ok ((), d.record assignment.assignmentId outcome))
          unfold record
          split_ifs
          · exact Commits.commit () _
          · exact Commits.bind (Yields.execute rfl) (Commits.commit () _)

theorem resolveUnknown_refines (assignmentId : String) (status : AssignmentStatus)
    (description resolverId evidence : String) (nowMs : Int) (d : Journal) :
    Refines (Connection.resolveUnknown assignmentId status description resolverId evidence nowMs)
      d (d.resolveUnknown assignmentId status description resolverId evidence nowMs) := by
  unfold Connection.resolveUnknown Journal.resolveUnknown
  cases hvalid : validateResolution status resolverId evidence with
  | error e => rfl
  | ok v =>
      apply Commits.transaction
      apply Commits.bind (Yields.select _ d)
      cases d.lookup assignmentId with
      | none => exact Commits.throw _ d
      | some stored =>
          apply Commits.compute
          intro _
          cases hmade : Outcome.make assignmentId stored.assignment.step.assignedRobotId
              (decide (status = .succeeded)) description (some status) (.obj []) with
          | error e => exact Commits.bind_error (Yields.compute _ d)
          | ok outcome =>
              apply Commits.bind (Yields.compute _ d)
              let resolution : Resolution :=
                { assignmentId := assignmentId
                  status := status
                  resolverId := resolverId
                  evidence := evidence
                  occurredAtMs := nowMs }
              have hresolution : Yields (Connection.insertResolution resolution) d (do
                  bindInteger nowMs
                  match d.resolutions.insert? resolution with
                  | some resolutions => .ok ((), { d with resolutions := resolutions })
                  | none => .error .integrity) := Yields.execute rfl
              show Commits _ d (do
                bindInteger nowMs
                match d.resolutions.insert? resolution with
                | some resolutions =>
                    .ok (outcome, { d.record assignmentId outcome with resolutions := resolutions })
                | none => .error .integrity)
              cases hbind : bindInteger nowMs with
              | error e =>
                  rw [hbind] at hresolution
                  exact Commits.bind_error hresolution
              | ok v =>
                  rw [hbind] at hresolution
                  cases hinsert : d.resolutions.insert? resolution with
                  | none =>
                      rw [hinsert] at hresolution
                      exact Commits.bind_error hresolution
                  | some resolutions =>
                      rw [hinsert] at hresolution
                      apply Commits.bind hresolution
                      have hupdate := yields_updateOutcome assignmentId outcome nowMs
                        { d with resolutions := resolutions }
                      rw [hbind] at hupdate
                      apply Commits.bind hupdate
                      have hknown : outcome.status ≠ .unknown := by
                        rw [(Outcome.make_eq_ok hmade).2.2.2.2.2]
                        exact (known_of_validateResolution hvalid).2
                      show Commits _ _ (.ok (outcome, { d.record assignmentId outcome with
                        resolutions := resolutions }))
                      unfold record
                      rw [if_neg hknown]
                      exact Commits.bind (Yields.execute rfl) (Commits.commit outcome _)

theorem method_refines (sha256 : Text -> String) (operation : Operation) (d : Journal) :
    Refines (method sha256 operation) d (d.commit sha256 operation) := by
  cases operation with
  | claim assignment issuerId nowMs =>
      exact (claim_refines sha256 assignment issuerId nowMs d).bind_pure some
  | complete assignment outcome nowMs =>
      have hcommit : d.commit sha256 (.complete assignment outcome nowMs) =
          ((d.complete sha256 assignment outcome nowMs).map (fun j => ((), j)) >>=
            (fun v => .ok (none, v.2))) := by
        show (d.complete sha256 assignment outcome nowMs >>= fun j => .ok (none, j)) = _
        cases d.complete sha256 assignment outcome nowMs <;> rfl
      rw [hcommit]
      exact (complete_refines sha256 assignment outcome nowMs d).bind_pure (fun _ => none)
  | resolveUnknown assignmentId status description resolverId evidence nowMs =>
      exact (resolveUnknown_refines assignmentId status description resolverId evidence nowMs
        d).bind_pure (fun _ => none)
  | reopen => rfl

theorem perform_idle (sha256 : Text -> String) (d : Journal) (operation : Operation) :
    perform sha256 (.idle d) operation = .idle (d.apply sha256 operation) := by
  have hmethod : sessionAfter (method sha256 operation (.idle d)) =
      .idle (d.apply sha256 operation) := by
    have hrefines := method_refines sha256 operation d
    unfold Journal.apply
    cases hcommit : d.commit sha256 operation with
    | ok result =>
        rw [hcommit] at hrefines
        rw [show method sha256 operation (.idle d) = _ from hrefines]
        rfl
    | error e =>
        rw [hcommit] at hrefines
        rw [show method sha256 operation (.idle d) = _ from hrefines]
        rfl
  cases operation with
  | reopen => exact hmethod
  | _ => exact hmethod

theorem replay_eq (sha256 : Text -> String) (operations : List Operation) :
    replay sha256 operations = .idle (empty.applyAll sha256 operations) := by
  unfold replay applyAll
  generalize empty = d
  induction operations generalizing d with
  | nil => rfl
  | cons operation rest ih =>
      rw [List.foldl_cons, perform_idle, ih]
      rfl

theorem method_raised {sha256 : Text -> String} {operations : List Operation}
    {operation : Operation} {e : Exn} {s : Session Journal}
    (h : method sha256 operation (replay sha256 operations) = .error e s) :
    s = replay sha256 operations := by
  rw [replay_eq] at h ⊢
  have hrefines := method_refines sha256 operation (empty.applyAll sha256 operations)
  cases hcommit : (empty.applyAll sha256 operations).commit sha256 operation with
  | ok result =>
      rw [hcommit] at hrefines
      rw [show method sha256 operation (.idle (empty.applyAll sha256 operations)) = _
        from hrefines] at h
      cases h
  | error other =>
      rw [hcommit] at hrefines
      rw [show method sha256 operation (.idle (empty.applyAll sha256 operations)) = _
        from hrefines] at h
      cases h
      rfl

theorem method_returned {sha256 : Text -> String} {operations : List Operation}
    {operation : Operation} {answer : Option ClaimResult} {s : Session Journal}
    (h : method sha256 operation (replay sha256 operations) = .ok answer s) :
    exists journal, (empty.applyAll sha256 operations).commit sha256 operation =
      .ok (answer, journal) ∧ s = .idle journal := by
  rw [replay_eq] at h
  have hrefines := method_refines sha256 operation (empty.applyAll sha256 operations)
  cases hcommit : (empty.applyAll sha256 operations).commit sha256 operation with
  | ok result =>
      rw [hcommit] at hrefines
      rw [show method sha256 operation (.idle (empty.applyAll sha256 operations)) = _
        from hrefines] at h
      cases h
      exact ⟨result.2, rfl, rfl⟩
  | error other =>
      rw [hcommit] at hrefines
      rw [show method sha256 operation (.idle (empty.applyAll sha256 operations)) = _
        from hrefines] at h
      cases h

end Ump.Participant
