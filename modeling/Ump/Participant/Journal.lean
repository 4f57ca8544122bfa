import Ump.Foundation.Table
import Ump.Protocol.Models

/-!
# The assignment journal

## Rows

The participant's durable record of the assignments that it has accepted. A row
keeps the assignment and the outcome whose JSON texts the database columns store,
and each operation is one transaction. The columns `accepted_at_ms` and
`updated_at_ms` are written and never read; what remains of them is the integer
that has to be bound.
-/

namespace Ump.Participant

open Foundation

def assignmentFingerprint (sha256 : Text -> String) (assignment : Assignment) : String :=
  sha256 assignment.canonical

/-- A row of `assignments`, which is also the `JournalRecord` that `lookup` returns.
Its status is that of the stored outcome, if there is one. -/
structure JournalRecord where
  assignmentId : String
  fingerprint : String
  assignment : Assignment
  issuerId : String
  status : AssignmentStatus
  outcome : Option Outcome
  bound : assignment.assignmentId = assignmentId
  agrees : forall stored, outcome = some stored -> stored.status = status

structure Reservation where
  resourceId : String
  assignmentId : String
deriving DecidableEq, Repr

/-- A row of `assignment_resolutions`. -/
structure Resolution where
  assignmentId : String
  status : AssignmentStatus
  resolverId : String
  evidence : String
  occurredAtMs : Int
deriving DecidableEq, Repr

instance : Keyed JournalRecord where
  clash a b := a.assignmentId == b.assignmentId
  clash_symm _ _ := BEq.comm

instance : Keyed Reservation where
  clash a b := a.resourceId == b.resourceId
  clash_symm _ _ := BEq.comm

instance : Keyed Resolution where
  clash a b := a.assignmentId == b.assignmentId
  clash_symm _ _ := BEq.comm

/-- `SqliteAssignmentJournal`. -/
structure Journal where
  assignments : Table JournalRecord
  reservations : Table Reservation
  resolutions : Table Resolution

/-- `ClaimKind`, with the outcome that a replay returns. -/
inductive ClaimResult where
  | new
  | replay (outcome : Outcome)
  | conflict
  | resourceConflict
  | uncertain

namespace Journal

def empty : Journal where
  assignments := Table.empty
  reservations := Table.empty
  resolutions := Table.empty

/-!
## Opening and claiming
-/

/-- An accepted record whose outcome nobody has stored becomes unknown. -/
def interrupted (record : JournalRecord) : JournalRecord :=
  if h : record.status = .accepted ∧ record.outcome = none then
    { record with
      status := .unknown
      agrees := by
        intro stored hstored
        rw [h.2] at hstored
        cases hstored }
  else
    record

@[simp] theorem assignmentId_interrupted (record : JournalRecord) :
    (interrupted record).assignmentId = record.assignmentId := by
  unfold interrupted
  split_ifs <;> rfl

theorem keepsKeys_interrupted : Table.KeepsKeys interrupted := by
  intro a b
  simp [Keyed.clash]

/-- `SqliteAssignmentJournal.__init__` on an existing file. -/
def reopen (journal : Journal) : Journal :=
  { journal with
    assignments := journal.assignments.update (fun _ => true) interrupted
      keepsKeys_interrupted }

def lookup (journal : Journal) (assignmentId : String) : Option JournalRecord :=
  journal.assignments.fetch (fun record => record.assignmentId == assignmentId)

def newRecord (sha256 : Text -> String) (assignment : Assignment) (issuerId : String) :
    JournalRecord where
  assignmentId := assignment.assignmentId
  fingerprint := assignmentFingerprint sha256 assignment
  assignment := assignment
  issuerId := issuerId
  status := .accepted
  outcome := none
  bound := rfl
  agrees _ hstored := by cases hstored

def resourceConflict (journal : Journal) (assignment : Assignment) : Bool :=
  journal.reservations.rows.any (fun reservation =>
    assignment.step.resources.contains reservation.resourceId &&
      reservation.assignmentId != assignment.assignmentId)

def reserve (assignmentId : String) :
    List String -> Table Reservation -> Option (Table Reservation)
  | [], reservations => some reservations
  | resource :: rest, reservations =>
      match reservations.insert? { resourceId := resource, assignmentId := assignmentId } with
      | some reservations => reserve assignmentId rest reservations
      | none => none

def claim (sha256 : Text -> String) (journal : Journal) (assignment : Assignment)
    (issuerId : String) (nowMs : Int) : Except Exn (ClaimResult × Journal) :=
  match journal.lookup assignment.assignmentId with
  | none =>
      if journal.resourceConflict assignment then
        .ok (.resourceConflict, journal)
      else do
        bindInteger nowMs
        match journal.assignments.insert? (newRecord sha256 assignment issuerId),
          reserve assignment.assignmentId assignment.step.resources journal.reservations with
        | some assignments, some reservations =>
            .ok (.new,
              { journal with assignments := assignments, reservations := reservations })
        | _, _ => .error .integrity
  | some record =>
      if record.fingerprint ≠ assignmentFingerprint sha256 assignment ∨
          record.issuerId ≠ issuerId then
        .ok (.conflict, journal)
      else
        match record.outcome with
        | some outcome => .ok (.replay outcome, journal)
        | none => .ok (.uncertain, journal)

/-!
## Completing and resolving
-/

/-- A record takes its outcome; one that has an outcome has this very one. -/
def recorded (outcome : Outcome) (record : JournalRecord) : JournalRecord :=
  match record.outcome with
  | some _ => record
  | none =>
      { record with
        status := outcome.status
        outcome := some outcome
        agrees := by
          intro stored hstored
          cases hstored
          rfl }

@[simp] theorem assignmentId_recorded (outcome : Outcome) (record : JournalRecord) :
    (recorded outcome record).assignmentId = record.assignmentId := by
  unfold recorded
  split <;> rfl

theorem keepsKeys_recorded (outcome : Outcome) : Table.KeepsKeys (recorded outcome) := by
  intro a b
  simp [Keyed.clash]

def release (assignmentId : String) (reservations : Table Reservation) : Table Reservation :=
  reservations.delete (fun reservation => reservation.assignmentId == assignmentId)

def record (journal : Journal) (assignmentId : String) (outcome : Outcome) : Journal :=
  { journal with
    assignments := journal.assignments.update
      (fun record => record.assignmentId == assignmentId) (recorded outcome)
      (keepsKeys_recorded outcome)
    reservations :=
      if outcome.status = .unknown then journal.reservations
      else release assignmentId journal.reservations }

def complete (sha256 : Text -> String) (journal : Journal) (assignment : Assignment)
    (outcome : Outcome) (nowMs : Int) : Except Exn Journal :=
  match journal.lookup assignment.assignmentId with
  | none => .error (.value "cannot complete an unclaimed or conflicting assignment")
  | some stored => do
      refuseWhen (decide (stored.fingerprint ≠ assignmentFingerprint sha256 assignment))
        "cannot complete an unclaimed or conflicting assignment"
      refuseWhen (stored.outcome.any (fun other =>
        decide (other.canonical ≠ outcome.canonical)))
        "terminal assignment outcome is immutable"
      bindInteger nowMs
      .ok (journal.record assignment.assignmentId outcome)

def validateResolution (status : AssignmentStatus) (resolverId evidence : String) :
    Except Exn Unit := do
  refuseWhen (decide (status = .accepted ∨ status = .unknown))
    "resolution requires a known terminal status"
  requiredText resolverId "resolver_id" maxIdBytes
  requiredText evidence "resolution evidence" maxLongTextBytes

def resolveUnknown (journal : Journal) (assignmentId : String) (status : AssignmentStatus)
    (description resolverId evidence : String) (nowMs : Int) :
    Except Exn (Outcome × Journal) := do
  validateResolution status resolverId evidence
  match journal.lookup assignmentId with
  | none => .error (.value "assignment does not exist")
  | some stored => do
      refuseWhen (decide (stored.status ≠ .unknown) || stored.outcome.isSome)
        "only an unknown assignment can be resolved"
      let outcome <- Outcome.make assignmentId stored.assignment.step.assignedRobotId
        (decide (status = .succeeded)) description (some status) (.obj [])
      bindInteger nowMs
      match journal.resolutions.insert?
        { assignmentId := assignmentId
          status := status
          resolverId := resolverId
          evidence := evidence
          occurredAtMs := nowMs } with
      | some resolutions =>
          .ok (outcome, { journal.record assignmentId outcome with resolutions := resolutions })
      | none => .error .integrity

/-!
## What the operations do to the records
-/

@[simp] theorem lookup_empty (assignmentId : String) : empty.lookup assignmentId = none := rfl

theorem lookup_eq_some {journal : Journal} {assignmentId : String} {record : JournalRecord}
    (h : journal.lookup assignmentId = some record) :
    record ∈ journal.assignments.rows ∧ record.assignmentId = assignmentId := by
  rcases Table.fetch_eq_some h with ⟨hrecord, hid⟩
  constructor
  · exact hrecord
  · simpa using hid

theorem lookup_eq_none {journal : Journal} {assignmentId : String} :
    journal.lookup assignmentId = none <->
      forall record, record ∈ journal.assignments.rows ->
        record.assignmentId ≠ assignmentId := by
  unfold lookup
  rw [Table.fetch_eq_none]
  simp

theorem lookup_reopen (journal : Journal) (assignmentId : String) :
    journal.reopen.lookup assignmentId = (journal.lookup assignmentId).map interrupted := by
  unfold lookup reopen
  rw [Table.fetch_update (by simp)]
  rfl

theorem lookup_record (journal : Journal) (recordedId assignmentId : String)
    (outcome : Outcome) :
    (journal.record recordedId outcome).lookup assignmentId =
      (journal.lookup assignmentId).map (fun found =>
        if assignmentId = recordedId then recorded outcome found else found) := by
  unfold record
  show Table.fetch _ _ = _
  rw [Table.fetch_update (by simp)]
  apply Option.map_congr
  intro found hfound
  rw [(lookup_eq_some hfound).2]
  simp

/-- Everything that an answered claim has found and left. -/
inductive ClaimCase (sha256 : Text -> String) (journal : Journal) (assignment : Assignment)
    (issuerId : String) (nowMs : Int) : ClaimResult -> Journal -> Prop where
  | new {assignments : Table JournalRecord} {reservations : Table Reservation}
      (hfree : journal.lookup assignment.assignmentId = none)
      (hconflict : journal.resourceConflict assignment = false)
      (hnow : bindInteger nowMs = .ok ())
      (hinsert : journal.assignments.insert? (newRecord sha256 assignment issuerId) =
        some assignments)
      (hreserve : reserve assignment.assignmentId assignment.step.resources
        journal.reservations = some reservations) :
      ClaimCase sha256 journal assignment issuerId nowMs .new
        { journal with assignments := assignments, reservations := reservations }
  | resourceConflict (hfree : journal.lookup assignment.assignmentId = none)
      (hconflict : journal.resourceConflict assignment = true) :
      ClaimCase sha256 journal assignment issuerId nowMs .resourceConflict journal
  | conflict {stored : JournalRecord}
      (hstored : journal.lookup assignment.assignmentId = some stored)
      (hdiffers : stored.fingerprint ≠ assignmentFingerprint sha256 assignment ∨
        stored.issuerId ≠ issuerId) :
      ClaimCase sha256 journal assignment issuerId nowMs .conflict journal
  | replay {stored : JournalRecord} {outcome : Outcome}
      (hstored : journal.lookup assignment.assignmentId = some stored)
      (hfingerprint : stored.fingerprint = assignmentFingerprint sha256 assignment)
      (hissuer : stored.issuerId = issuerId) (houtcome : stored.outcome = some outcome) :
      ClaimCase sha256 journal assignment issuerId nowMs (.replay outcome) journal
  | uncertain {stored : JournalRecord}
      (hstored : journal.lookup assignment.assignmentId = some stored)
      (hfingerprint : stored.fingerprint = assignmentFingerprint sha256 assignment)
      (hissuer : stored.issuerId = issuerId) (houtcome : stored.outcome = none) :
      ClaimCase sha256 journal assignment issuerId nowMs .uncertain journal

theorem claim_cases {sha256 : Text -> String} {journal journal' : Journal}
    {assignment : Assignment} {issuerId : String} {nowMs : Int} {result : ClaimResult}
    (h : journal.claim sha256 assignment issuerId nowMs = .ok (result, journal')) :
    ClaimCase sha256 journal assignment issuerId nowMs result journal' := by
  unfold claim at h
  cases hstored : journal.lookup assignment.assignmentId with
  | none =>
      rw [hstored] at h
      by_cases hconflict : journal.resourceConflict assignment = true
      · simp only [if_pos hconflict] at h
        cases h
        exact .resourceConflict hstored hconflict
      · simp only [if_neg hconflict] at h
        rcases bind_eq_ok.mp h with ⟨_, hnow, h⟩
        cases hinsert : journal.assignments.insert?
            (newRecord sha256 assignment issuerId) with
        | none =>
            rw [hinsert] at h
            cases h
        | some assignments =>
            cases hreserve : reserve assignment.assignmentId assignment.step.resources
                journal.reservations with
            | none =>
                rw [hinsert, hreserve] at h
                cases h
            | some reservations =>
                rw [hinsert, hreserve] at h
                cases h
                exact .new hstored (by simpa using hconflict) hnow hinsert hreserve
  | some stored =>
      rw [hstored] at h
      by_cases hdiffers : stored.fingerprint ≠ assignmentFingerprint sha256 assignment ∨
          stored.issuerId ≠ issuerId
      · simp only [if_pos hdiffers] at h
        cases h
        exact .conflict hstored hdiffers
      · simp only [if_neg hdiffers] at h
        have hsame : stored.fingerprint = assignmentFingerprint sha256 assignment ∧
            stored.issuerId = issuerId := by
          simpa using hdiffers
        cases houtcome : stored.outcome with
        | none =>
            rw [houtcome] at h
            cases h
            exact .uncertain hstored hsame.1 hsame.2 houtcome
        | some outcome =>
            rw [houtcome] at h
            cases h
            exact .replay hstored hsame.1 hsame.2 houtcome

/-- The five answers to a claim; only a new one changes the journal. -/
inductive Claimed (sha256 : Text -> String) (journal : Journal) (assignment : Assignment)
    (issuerId : String) : ClaimResult -> Journal -> Prop where
  | new {journal' : Journal} (hfree : journal.lookup assignment.assignmentId = none)
      (hlookup : forall assignmentId, journal'.lookup assignmentId =
        if assignmentId = assignment.assignmentId then
          some (newRecord sha256 assignment issuerId)
        else journal.lookup assignmentId) :
      Claimed sha256 journal assignment issuerId .new journal'
  | resourceConflict (hfree : journal.lookup assignment.assignmentId = none) :
      Claimed sha256 journal assignment issuerId .resourceConflict journal
  | conflict {stored : JournalRecord}
      (hstored : journal.lookup assignment.assignmentId = some stored)
      (hdiffers : stored.fingerprint ≠ assignmentFingerprint sha256 assignment ∨
        stored.issuerId ≠ issuerId) :
      Claimed sha256 journal assignment issuerId .conflict journal
  | replay {stored : JournalRecord} {outcome : Outcome}
      (hstored : journal.lookup assignment.assignmentId = some stored)
      (hissuer : stored.issuerId = issuerId) (houtcome : stored.outcome = some outcome) :
      Claimed sha256 journal assignment issuerId (.replay outcome) journal
  | uncertain {stored : JournalRecord}
      (hstored : journal.lookup assignment.assignmentId = some stored)
      (houtcome : stored.outcome = none) :
      Claimed sha256 journal assignment issuerId .uncertain journal

theorem lookup_insert {journal : Journal} {added : JournalRecord}
    {assignments : Table JournalRecord}
    (hinsert : journal.assignments.insert? added = some assignments)
    (reservations : Table Reservation) (assignmentId : String) :
    Journal.lookup
        { journal with assignments := assignments, reservations := reservations }
        assignmentId =
      if assignmentId = added.assignmentId then some added
      else journal.lookup assignmentId := by
  rcases Table.insert?_eq_some hinsert with ⟨hrows, hfresh⟩
  unfold lookup Table.fetch
  rw [hrows, List.find?_append]
  by_cases hid : assignmentId = added.assignmentId
  · have hnone : journal.assignments.rows.find?
        (fun record => record.assignmentId == assignmentId) = none := by
      rw [List.find?_eq_none]
      intro other hother
      rw [hid]
      simpa [Keyed.clash] using hfresh other hother
    rw [if_pos hid, hnone]
    simp [hid]
  · have hother : (added.assignmentId == assignmentId) = false := by
      simpa using fun heq => hid heq.symm
    simp [hid, hother]

theorem claim_eq_ok {sha256 : Text -> String} {journal journal' : Journal}
    {assignment : Assignment} {issuerId : String} {nowMs : Int} {result : ClaimResult}
    (h : journal.claim sha256 assignment issuerId nowMs = .ok (result, journal')) :
    Claimed sha256 journal assignment issuerId result journal' := by
  cases claim_cases h with
  | new hfree _ _ hinsert _ => exact .new hfree (lookup_insert hinsert _)
  | resourceConflict hfree _ => exact .resourceConflict hfree
  | conflict hstored hdiffers => exact .conflict hstored hdiffers
  | replay hstored _ hissuer houtcome => exact .replay hstored hissuer houtcome
  | uncertain hstored _ _ houtcome => exact .uncertain hstored houtcome

theorem claim_of_stored {sha256 : Text -> String} {journal : Journal}
    {assignment : Assignment} {stored : JournalRecord} (nowMs : Int)
    (hstored : journal.lookup assignment.assignmentId = some stored)
    (hfingerprint : stored.fingerprint = assignmentFingerprint sha256 assignment) :
    journal.claim sha256 assignment stored.issuerId nowMs =
      .ok (match stored.outcome with
        | some outcome => .replay outcome
        | none => .uncertain, journal) := by
  unfold claim
  rw [hstored]
  simp only [hfingerprint, ne_eq, not_true_eq_false, or_self, if_false]
  cases stored.outcome with
  | none => rfl
  | some outcome => rfl

theorem complete_eq_ok {sha256 : Text -> String} {journal journal' : Journal}
    {assignment : Assignment} {outcome : Outcome} {nowMs : Int}
    (h : journal.complete sha256 assignment outcome nowMs = .ok journal') :
    journal' = journal.record assignment.assignmentId outcome ∧
      exists stored, journal.lookup assignment.assignmentId = some stored ∧
        forall other, stored.outcome = some other -> other.canonical = outcome.canonical := by
  unfold complete at h
  cases hstored : journal.lookup assignment.assignmentId with
  | none =>
      rw [hstored] at h
      cases h
  | some stored =>
      rw [hstored] at h
      rcases bind_eq_ok.mp h with ⟨_, _, h⟩
      rcases bind_eq_ok.mp h with ⟨_, himmutable, h⟩
      rcases bind_eq_ok.mp h with ⟨_, _, h⟩
      cases h
      refine ⟨rfl, stored, rfl, ?_⟩
      intro other hother
      have hsame := refuseWhen_eq_ok himmutable
      rw [hother] at hsame
      simpa using hsame

/-- Everything that a successful resolution has found and left. -/
structure Resolved (journal : Journal) (assignmentId : String) (status : AssignmentStatus)
    (outcome : Outcome) (journal' : Journal) : Prop where
  unknown : exists stored, journal.lookup assignmentId = some stored ∧
    stored.status = .unknown ∧ stored.outcome = none
  known : status ≠ .accepted ∧ status ≠ .unknown
  outcomeStatus : outcome.status = status
  outcomeId : outcome.assignmentId = assignmentId
  left : exists resolutions resolution, journal.resolutions.insert? resolution = some resolutions ∧
    resolution.assignmentId = assignmentId ∧
    journal' = { journal.record assignmentId outcome with resolutions := resolutions }

theorem known_of_validateResolution {status : AssignmentStatus} {resolverId evidence : String}
    (h : validateResolution status resolverId evidence = .ok ()) :
    status ≠ .accepted ∧ status ≠ .unknown := by
  rcases bind_eq_ok.mp h with ⟨_, hknown, _⟩
  simpa using refuseWhen_eq_ok hknown

theorem resolved_of_resolveUnknown {journal journal' : Journal} {assignmentId : String}
    {status : AssignmentStatus} {description resolverId evidence : String} {nowMs : Int}
    {outcome : Outcome}
    (h : journal.resolveUnknown assignmentId status description resolverId evidence nowMs =
      .ok (outcome, journal')) : Resolved journal assignmentId status outcome journal' := by
  rcases bind_eq_ok.mp h with ⟨_, hvalid, h⟩
  cases hstored : journal.lookup assignmentId with
  | none =>
      rw [hstored] at h
      cases h
  | some stored =>
      rw [hstored] at h
      rcases bind_eq_ok.mp h with ⟨_, hunknown, h⟩
      rcases bind_eq_ok.mp h with ⟨made, hmade, h⟩
      rcases bind_eq_ok.mp h with ⟨_, _, h⟩
      have hchecked := Outcome.make_eq_ok hmade
      cases hinsert : journal.resolutions.insert?
        { assignmentId := assignmentId
          status := status
          resolverId := resolverId
          evidence := evidence
          occurredAtMs := nowMs } with
      | none =>
          rw [hinsert] at h
          cases h
      | some resolutions =>
          rw [hinsert] at h
          cases h
          constructor
          · refine ⟨stored, hstored, ?_⟩
            simpa using refuseWhen_eq_ok hunknown
          · exact known_of_validateResolution hvalid
          · exact hchecked.2.2.2.2.2
          · exact hchecked.2.2.2.1
          · exact ⟨resolutions, _, hinsert, rfl, rfl⟩

theorem resolveUnknown_eq_ok {journal journal' : Journal} {assignmentId : String}
    {status : AssignmentStatus} {description resolverId evidence : String} {nowMs : Int}
    {outcome : Outcome}
    (h : journal.resolveUnknown assignmentId status description resolverId evidence nowMs =
      .ok (outcome, journal')) :
    (exists stored, journal.lookup assignmentId = some stored ∧
      stored.status = .unknown ∧ stored.outcome = none) ∧
    forall otherId, journal'.lookup otherId = (journal.record assignmentId outcome).lookup
      otherId := by
  have hresolved := resolved_of_resolveUnknown h
  rcases hresolved.left with ⟨_, _, _, _, rfl⟩
  exact ⟨hresolved.unknown, fun _ => rfl⟩

/-!
## How records evolve

A record keeps its assignment, fingerprint and issuer for ever, and it stays as it is
once it has an outcome.
-/

structure Continues (before after : JournalRecord) : Prop where
  fingerprint : after.fingerprint = before.fingerprint
  assignment : after.assignment = before.assignment
  issuerId : after.issuerId = before.issuerId
  settled : before.outcome ≠ none -> after = before

theorem Continues.rfl (record : JournalRecord) : Continues record record :=
  ⟨by rfl, by rfl, by rfl, fun _ => by rfl⟩

theorem Continues.trans {a b c : JournalRecord} (hab : Continues a b)
    (hbc : Continues b c) : Continues a c where
  fingerprint := hbc.fingerprint.trans hab.fingerprint
  assignment := hbc.assignment.trans hab.assignment
  issuerId := hbc.issuerId.trans hab.issuerId
  settled hsettled := by
    have hb := hab.settled hsettled
    rw [hbc.settled (by rw [hb]; exact hsettled), hb]

theorem continues_interrupted (record : JournalRecord) :
    Continues record (interrupted record) := by
  unfold interrupted
  split_ifs with hopen
  · exact ⟨rfl, rfl, rfl, fun hsettled => absurd hopen.2 hsettled⟩
  · exact .rfl record

theorem continues_recorded (outcome : Outcome) (record : JournalRecord) :
    Continues record (recorded outcome record) := by
  unfold recorded
  split
  next => exact .rfl record
  next hopen => exact ⟨rfl, rfl, rfl, fun hsettled => absurd hopen hsettled⟩

def Grows (journal journal' : Journal) : Prop :=
  forall assignmentId record, journal.lookup assignmentId = some record ->
    exists record', journal'.lookup assignmentId = some record' ∧ Continues record record'

theorem Grows.rfl (journal : Journal) : Grows journal journal :=
  fun _ record hrecord => ⟨record, hrecord, .rfl record⟩

theorem Grows.trans {a b c : Journal} (hab : Grows a b) (hbc : Grows b c) : Grows a c := by
  intro assignmentId record hrecord
  rcases hab assignmentId record hrecord with ⟨mid, hmid, hfirst⟩
  rcases hbc assignmentId mid hmid with ⟨last, hlast, hsecond⟩
  exact ⟨last, hlast, hfirst.trans hsecond⟩

theorem grows_of_lookup_map {journal journal' : Journal}
    {f : String -> JournalRecord -> JournalRecord}
    (hf : forall assignmentId record, Continues record (f assignmentId record))
    (h : forall assignmentId,
      journal'.lookup assignmentId = (journal.lookup assignmentId).map (f assignmentId)) :
    Grows journal journal' := by
  intro assignmentId record hrecord
  refine ⟨f assignmentId record, ?_, hf assignmentId record⟩
  rw [h, hrecord]
  rfl

theorem grows_reopen (journal : Journal) : Grows journal journal.reopen :=
  grows_of_lookup_map (fun _ => continues_interrupted) (lookup_reopen journal)

theorem grows_record (journal : Journal) (assignmentId : String) (outcome : Outcome) :
    Grows journal (journal.record assignmentId outcome) := by
  refine grows_of_lookup_map ?_ (fun otherId => lookup_record journal assignmentId otherId outcome)
  intro otherId record
  split_ifs
  · exact continues_recorded outcome record
  · exact .rfl record

theorem Claimed.grows {sha256 : Text -> String} {journal journal' : Journal}
    {assignment : Assignment} {issuerId : String} {result : ClaimResult}
    (h : Claimed sha256 journal assignment issuerId result journal') :
    Grows journal journal' := by
  cases h with
  | new hfree hlookup =>
      intro assignmentId record hrecord
      refine ⟨record, ?_, .rfl record⟩
      rw [hlookup, if_neg]
      · exact hrecord
      · intro hid
        rw [hid, hfree] at hrecord
        cases hrecord
  | resourceConflict => exact .rfl journal
  | conflict => exact .rfl journal
  | replay => exact .rfl journal
  | uncertain => exact .rfl journal

end Journal

end Ump.Participant
