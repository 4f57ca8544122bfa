import Ump.Participant.Identity
import Ump.Participant.MemoryJournal
import Ump.Protocol.RoundTrip

/-!
# Rows and the records in memory

## Answers

The methods of the `AssignmentJournal` protocol and what they give to their caller. The
journal on a database builds what it returns from the texts of a row; the one in memory
returns what it holds. Results are compared as Python compares them.
-/

namespace Ump

namespace Participant

open Foundation Journal

/-- `JournalRecord`, as `lookup` returns it. -/
structure RecordView where
  assignment : Assignment
  issuerId : String
  status : AssignmentStatus
  outcome : Option Outcome
  fingerprint : String

def JournalRecord.view (record : JournalRecord) : RecordView where
  assignment := record.assignment
  issuerId := record.issuerId
  status := record.status
  outcome := record.outcome
  fingerprint := record.fingerprint

def equalOption (equal : value -> value -> Bool) : Option value -> Option value -> Bool
  | none, none => true
  | some a, some b => equal a b
  | _, _ => false

/-- `==` of two records, field by field. -/
def RecordView.equal (a b : RecordView) : Bool :=
  a.assignment.equal b.assignment && a.issuerId == b.issuerId && a.status == b.status &&
    equalOption Outcome.equal a.outcome b.outcome && a.fingerprint == b.fingerprint

def ClaimResult.equal : ClaimResult -> ClaimResult -> Bool
  | .new, .new => true
  | .replay a, .replay b => a.equal b
  | .conflict, .conflict => true
  | .resourceConflict, .resourceConflict => true
  | .uncertain, .uncertain => true
  | _, _ => false

inductive Call where
  | claim (assignment : Assignment) (issuerId : String) (nowMs : Int)
  | complete (assignment : Assignment) (outcome : Outcome) (nowMs : Int)
  | lookup (assignmentId : String)
  | resolveUnknown (assignmentId : String) (status : AssignmentStatus)
      (description resolverId evidence : String) (nowMs : Int)

inductive Answer where
  | claimed (result : ClaimResult)
  | completed
  | found (record : Option RecordView)
  | resolved (outcome : Outcome)

def Answer.equal : Answer -> Answer -> Bool
  | .claimed a, .claimed b => a.equal b
  | .completed, .completed => true
  | .found a, .found b => equalOption RecordView.equal a b
  | .resolved a, .resolved b => a.equal b
  | _, _ => false

/-- Both calls return equal results, or both raise the same exception. -/
def Alike : Except Exn Answer -> Except Exn Answer -> Prop
  | .ok a, .ok b => a.equal b = true
  | .error e, .error e' => e = e'
  | _, _ => False

namespace Connection

/-- `ClaimResult(ClaimKind.REPLAY, _decode_outcome(row[3]))`. No statement has written
anything by then. -/
def decodedClaim (loads : Text -> Except Exn Json) : ClaimResult -> Except Exn ClaimResult
  | .replay outcome => do
      let copy <- JournalCodec.decodeOutcome loads outcome.canonical
      .ok (.replay copy)
  | result => .ok result

/-- The `JournalRecord` of a row. -/
def decodedRecord (loads : Text -> Except Exn Json) (row : JournalRecord) :
    Except Exn RecordView := do
  let assignment <- JournalCodec.decodeAssignment loads row.assignment.canonical
  match row.outcome with
  | none => .ok { row.view with assignment := assignment }
  | some outcome => do
      let copy <- JournalCodec.decodeOutcome loads outcome.canonical
      .ok { row.view with assignment := assignment, outcome := some copy }

def lookup (loads : Text -> Except Exn Json) (assignmentId : String) :
    Method (Option RecordView) := do
  let row <- Sql.select (fun j => j.lookup assignmentId)
  match row with
  | none => pure none
  | some row => do
      let record <- Sql.compute (decodedRecord loads row)
      pure (some record)

/-- The call on `SqliteAssignmentJournal`. -/
def call (sha256 : Text -> String) (loads : Text -> Except Exn Json) : Call -> Method Answer
  | .claim assignment issuerId nowMs => do
      let result <- claim sha256 assignment issuerId nowMs
      let decoded <- Sql.compute (decodedClaim loads result)
      pure (.claimed decoded)
  | .complete assignment outcome nowMs => do
      complete sha256 assignment outcome nowMs
      pure .completed
  | .lookup assignmentId => do
      let record <- lookup loads assignmentId
      pure (.found record)
  | .resolveUnknown assignmentId status description resolverId evidence nowMs => do
      let outcome <- resolveUnknown assignmentId status description resolverId evidence nowMs
      pure (.resolved outcome)

end Connection

namespace MemoryJournal

def lookup (assignmentId : String) : MemoryMethod (Option RecordView) := do
  let journal <- get
  pure ((journal.records assignmentId).map JournalRecord.view)

/-- The call on `MemoryAssignmentJournal`. -/
def call (sha256 : Text -> String) : Call -> MemoryMethod Answer
  | .claim assignment issuerId _ => do
      let result <- claim sha256 assignment issuerId
      pure (.claimed result)
  | .complete assignment outcome _ => do
      complete sha256 assignment outcome
      pure .completed
  | .lookup assignmentId => do
      let record <- lookup assignmentId
      pure (.found record)
  | .resolveUnknown assignmentId status description resolverId evidence _ => do
      let outcome <- resolveUnknown sha256 assignmentId status description resolverId evidence
      pure (.resolved outcome)

end MemoryJournal

/-!
## Values that the calls are given
-/

end Participant

/-- A built assignment whose inputs are a JSON value, which the codec gives back. -/
structure Assignment.Storable (loads : Text -> Except Exn Json) (assignment : Assignment) :
    Prop where
  checked : assignment.check = .ok ()
  distinct : assignment.step.inputs.distinctNames = true
  back : GivesBack loads assignment.payload

/-- A built outcome whose outputs are a JSON value, which the codec gives back. -/
structure Outcome.Storable (loads : Text -> Except Exn Json) (outcome : Outcome) : Prop where
  built : outcome.Built
  distinct : outcome.outputs.distinctNames = true
  back : GivesBack loads outcome.payload

section

variable {loads : Text -> Except Exn Json}

theorem Assignment.Storable.decoded {assignment : Assignment}
    (h : assignment.Storable loads) :
    JournalCodec.decodeAssignment loads assignment.canonical = .ok assignment.normal :=
  assignment_row_comes_back h.checked h.distinct h.back

theorem Assignment.Storable.canonical_eq_iff {a b : Assignment} (ha : a.Storable loads)
    (hb : b.Storable loads) : a.canonical = b.canonical <-> a.normal = b.normal := by
  constructor
  · intro h
    have hdecoded := ha.decoded
    rw [h, hb.decoded] at hdecoded
    exact (Except.ok.inj hdecoded).symm
  · intro h
    rw [← a.canonical_normal, h, b.canonical_normal]

theorem Outcome.canonical_normal (outcome : Outcome) :
    outcome.normal.canonical = outcome.canonical := by
  unfold canonical payload normal
  rw [Json.dumps, Json.dumps]
  simp only [Json.dumpsFields, Json.dumps_sorted]

theorem Outcome.Storable.decoded {outcome : Outcome} (h : outcome.Storable loads) :
    JournalCodec.decodeOutcome loads outcome.canonical = .ok outcome.normal := by
  unfold JournalCodec.decodeOutcome Outcome.canonical
  rw [h.back]
  exact Outcome.snapshotOutcome_sorted h.built h.distinct

theorem Outcome.Storable.canonical_eq_iff {a b : Outcome} (ha : a.Storable loads)
    (hb : b.Storable loads) : a.canonical = b.canonical <-> a.normal = b.normal := by
  constructor
  · intro h
    have hdecoded := ha.decoded
    rw [h, hb.decoded] at hdecoded
    exact (Except.ok.inj hdecoded).symm
  · intro h
    rw [← a.canonical_normal, h, b.canonical_normal]

theorem Outcome.equal_of_normal_eq {a b : Outcome} (h : a.normal = b.normal)
    (houtputs : a.outputs.equal b.outputs = true) : a.equal b = true := by
  rcases a with ⟨assignmentId, robotId, succeeded, description, status, outputs, _, _⟩
  rcases b with ⟨_, _, _, _, _, others, _, _⟩
  simp only [normal, Outcome.mk.injEq] at h
  rcases h with ⟨rfl, rfl, rfl, rfl, rfl, _⟩
  have hequal : outputs.equal others = true := houtputs
  simp [equal, hequal]

theorem Outcome.Storable.equal {a b : Outcome} (ha : a.Storable loads) (hb : b.Storable loads)
    (h : a.canonical = b.canonical) : a.equal b = true := by
  have hnormal := (ha.canonical_eq_iff hb).mp h
  have houtputs : a.normal.outputs = b.normal.outputs := congrArg Outcome.outputs hnormal
  exact Outcome.equal_of_normal_eq hnormal
    (Json.equal_of_sorted_eq a.outputs b.outputs ha.distinct hb.distinct houtputs)

end

namespace Participant

open Foundation Journal

def Call.Storable (loads : Text -> Except Exn Json) : Call -> Prop
  | .claim assignment _ _ => assignment.Storable loads
  | .complete assignment outcome _ => assignment.Storable loads ∧ outcome.Storable loads
  | _ => True

def Call.assignments : Call -> List Assignment
  | .claim assignment _ _ => [assignment]
  | .complete assignment _ _ => [assignment]
  | _ => []

/-!
## A row and the record in memory
-/

section

variable {sha256 : Text -> String} {loads : Text -> Except Exn Json}
variable {known : Assignment -> Prop}

/-- What a record of either journal is made of. Without a restart nothing but an outcome
ends the status `accepted`. -/
structure Kept (sha256 : Text -> String) (loads : Text -> Except Exn Json)
    (known : Assignment -> Prop) (record : JournalRecord) : Prop where
  fingerprint : record.fingerprint = assignmentFingerprint sha256 record.assignment
  known : known record.assignment
  assignment : record.assignment.Storable loads
  outcome : forall outcome, record.outcome = some outcome -> outcome.Storable loads
  accepted : record.outcome = none -> record.status = .accepted

/-- The row and the record were made of the same texts. -/
structure Twins (sha256 : Text -> String) (loads : Text -> Except Exn Json)
    (known : Assignment -> Prop) (row held : JournalRecord) : Prop where
  rowKept : Kept sha256 loads known row
  heldKept : Kept sha256 loads known held
  assignment : row.assignment.normal = held.assignment.normal
  issuerId : row.issuerId = held.issuerId
  outcome : row.outcome.map Outcome.normal = held.outcome.map Outcome.normal

namespace Twins

variable {row held : JournalRecord}

theorem fingerprint_eq (h : Twins sha256 loads known row held) :
    row.fingerprint = held.fingerprint := by
  have hcanonical := (h.rowKept.assignment.canonical_eq_iff h.heldKept.assignment).mpr h.assignment
  rw [h.rowKept.fingerprint, h.heldKept.fingerprint]
  exact congrArg sha256 hcanonical

theorem outcomes (h : Twins sha256 loads known row held) :
    (row.outcome = none ∧ held.outcome = none) ∨
      exists a b, row.outcome = some a ∧ held.outcome = some b ∧ a.normal = b.normal := by
  have houtcome := h.outcome
  cases hrow : row.outcome with
  | none =>
      rw [hrow] at houtcome
      exact Or.inl ⟨rfl, Option.map_eq_none_iff.mp houtcome.symm⟩
  | some a =>
      rw [hrow] at houtcome
      rcases Option.map_eq_some_iff.mp houtcome.symm with ⟨b, hheld, hnormal⟩
      exact Or.inr ⟨a, b, rfl, hheld, hnormal.symm⟩

theorem status_eq (h : Twins sha256 loads known row held) : row.status = held.status := by
  rcases h.outcomes with ⟨hrow, hheld⟩ | ⟨a, b, hrow, hheld, hnormal⟩
  · rw [h.rowKept.accepted hrow, h.heldKept.accepted hheld]
  · rw [← row.agrees a hrow, ← held.agrees b hheld]
    have hstatus : a.normal.status = b.normal.status := congrArg Outcome.status hnormal
    exact hstatus

theorem decoded (h : Twins sha256 loads known row held) :
    exists record, Connection.decodedRecord loads row = .ok record ∧
      record.equal held.view = true := by
  have hassignment : row.assignment.normal.equal held.assignment = true := by
    rw [h.assignment]
    exact Assignment.normal_equal h.heldKept.assignment.checked h.heldKept.assignment.distinct
  unfold Connection.decodedRecord
  rw [h.rowKept.assignment.decoded]
  rcases h.outcomes with ⟨hrow, hheld⟩ | ⟨a, b, hrow, hheld, hnormal⟩
  · rw [hrow]
    refine ⟨_, rfl, ?_⟩
    simp [RecordView.equal, JournalRecord.view, hassignment, h.issuerId, h.status_eq, hrow, hheld,
      equalOption, h.fingerprint_eq]
  · have houtcome : a.normal.equal b = true := by
      rw [hnormal]
      exact Outcome.normal_equal (h.heldKept.outcome b hheld).distinct
    have hdecoded := (h.rowKept.outcome a hrow).decoded
    rw [hrow]
    simp only [bind, Except.bind]
    rw [hdecoded]
    refine ⟨_, rfl, ?_⟩
    simp [RecordView.equal, JournalRecord.view, hassignment, h.issuerId, h.status_eq, hheld,
      equalOption, houtcome, h.fingerprint_eq]

theorem text_eq (h : Twins sha256 loads known row held)
    (hdistinguishes : MemoryJournal.Distinguishes sha256 known) {assignment : Assignment}
    (hknown : known assignment)
    (hfingerprint : row.fingerprint = assignmentFingerprint sha256 assignment) :
    row.assignment.canonical = assignment.canonical := by
  apply hdistinguishes _ _ h.rowKept.known hknown
  rw [h.rowKept.fingerprint] at hfingerprint
  exact hfingerprint

theorem complete (h : Twins sha256 loads known row held) {assignment : Assignment}
    {outcome : Outcome} (hassignment : assignment.Storable loads) (hknown : known assignment)
    (houtcome : outcome.Storable loads)
    (htext : row.assignment.canonical = assignment.canonical)
    (hsame : forall other, row.outcome = some other -> other.canonical = outcome.canonical) :
    Twins sha256 loads known (recorded outcome row)
      (MemoryJournal.completedRecord sha256 assignment outcome held.issuerId) := by
  have hheld : Kept sha256 loads known
      (MemoryJournal.completedRecord sha256 assignment outcome held.issuerId) :=
    { fingerprint := rfl
      known := hknown
      assignment := hassignment
      outcome := by
        intro other hother
        cases hother
        exact houtcome
      accepted := fun hopen => by cases hopen }
  have hnormal := (h.rowKept.assignment.canonical_eq_iff hassignment).mp htext
  cases hrow : row.outcome with
  | none =>
      have hrecorded : recorded outcome row =
          { row with
            status := outcome.status
            outcome := some outcome
            agrees := fun stored hstored => by rw [Option.some.inj hstored] } := by
        unfold recorded
        split
        next other hother =>
          rw [hrow] at hother
          cases hother
        next => rfl
      rw [hrecorded]
      refine ⟨⟨h.rowKept.fingerprint, h.rowKept.known, h.rowKept.assignment, ?_, ?_⟩, hheld,
        hnormal, h.issuerId, rfl⟩
      · intro other hother
        cases hother
        exact houtcome
      · intro hopen
        cases hopen
  | some stored =>
      rw [recorded_of_settled hrow]
      refine ⟨h.rowKept, hheld, hnormal, h.issuerId, ?_⟩
      have hstored := (h.rowKept.outcome stored hrow).canonical_eq_iff houtcome
      rw [hrow]
      exact congrArg some (hstored.mp (hsame stored hrow))

end Twins

/-!
## Corresponding journals
-/

/-- Row by row and resource by resource the journals hold the same. -/
structure Paired (sha256 : Text -> String) (loads : Text -> Except Exn Json)
    (known : Assignment -> Prop) (journal : Journal) (memory : MemoryJournal) : Prop where
  reserved : Reserved journal
  owners : forall resource, journal.owner? resource = memory.resources resource
  records : forall assignmentId, Option.Rel (Twins sha256 loads known)
    (journal.lookup assignmentId) (memory.records assignmentId)

theorem paired_empty : Paired sha256 loads known Journal.empty MemoryJournal.empty where
  reserved := reserved_empty
  owners _ := rfl
  records _ := .none

namespace Paired

variable {journal : Journal} {memory : MemoryJournal}

theorem lookup_cases (h : Paired sha256 loads known journal memory) (assignmentId : String) :
    (journal.lookup assignmentId = none ∧ memory.records assignmentId = none) ∨
      exists row held, journal.lookup assignmentId = some row ∧
        memory.records assignmentId = some held ∧ Twins sha256 loads known row held := by
  have hrel := h.records assignmentId
  cases hrow : journal.lookup assignmentId with
  | none =>
      rw [hrow] at hrel
      cases hheld : memory.records assignmentId with
      | none => exact Or.inl ⟨rfl, rfl⟩
      | some held =>
          rw [hheld] at hrel
          cases hrel
  | some row =>
      rw [hrow] at hrel
      cases hheld : memory.records assignmentId with
      | none =>
          rw [hheld] at hrel
          cases hrel
      | some held =>
          rw [hheld] at hrel
          cases hrel with
          | some htwins => exact Or.inr ⟨row, held, rfl, rfl, htwins⟩

theorem taken_eq (h : Paired sha256 loads known journal memory) (assignment : Assignment) :
    memory.taken assignment = journal.resourceConflict assignment := by
  unfold MemoryJournal.taken
  rw [Bool.eq_iff_iff, resourceConflict_eq_true, List.any_eq_true]
  apply exists_congr
  intro resource
  apply and_congr_right
  intro _
  rw [h.owners, Option.any_eq_true]
  apply exists_congr
  intro owner
  simp [and_comm]

theorem admitted (h : Paired sha256 loads known journal memory) {assignment : Assignment}
    (hstorable : assignment.Storable loads) (hknown : known assignment)
    (hnone : journal.lookup assignment.assignmentId = none)
    (hfree : journal.resourceConflict assignment = false) {nowMs : Int}
    (hnow : bindInteger nowMs = .ok ()) (issuerId : String) :
    exists journal', journal.claim sha256 assignment issuerId nowMs = .ok (.new, journal') ∧
      Paired sha256 loads known journal' (memory.admitted sha256 assignment issuerId) := by
  rcases claim_returns h.reserved hstorable.checked hnow issuerId with
    ⟨result, journal', hclaim⟩
  cases claim_cases hclaim with
  | @new assignments reservations _ _ _ hinsert hreserve =>
      refine ⟨_, hclaim, h.reserved.claim hclaim, ?_, ?_⟩
      · intro resource
        have howner := ownerIn_reserve hreserve resource
        have hbefore := h.owners resource
        unfold Journal.owner? at hbefore ⊢
        rw [howner, hbefore]
        rfl
      · intro assignmentId
        have hlookup := lookup_insert hinsert reservations assignmentId
        unfold MemoryJournal.admitted
        dsimp only
        by_cases hid : assignmentId = assignment.assignmentId
        · rw [hlookup.trans (if_pos hid), hid, Function.update_self]
          have hkept : Kept sha256 loads known (newRecord sha256 assignment issuerId) :=
            { fingerprint := rfl
              known := hknown
              assignment := hstorable
              outcome := by
                intro outcome houtcome
                cases houtcome
              accepted := fun _ => rfl }
          exact .some ⟨hkept, hkept, rfl, rfl, rfl⟩
        · rw [hlookup.trans (if_neg hid), Function.update_of_ne hid]
          exact h.records assignmentId
  | resourceConflict _ hconflict =>
      rw [hfree] at hconflict
      cases hconflict
  | conflict hstored =>
      rw [hnone] at hstored
      cases hstored
  | replay hstored =>
      rw [hnone] at hstored
      cases hstored
  | uncertain hstored =>
      rw [hnone] at hstored
      cases hstored

theorem completed (h : Paired sha256 loads known journal memory)
    {assignment : Assignment} {outcome : Outcome} {row held : JournalRecord}
    (hassignment : assignment.Storable loads) (hknown : known assignment)
    (houtcome : outcome.Storable loads)
    (hrow : journal.lookup assignment.assignmentId = some row)
    (htwins : Twins sha256 loads known row held)
    (htext : row.assignment.canonical = assignment.canonical)
    (hsame : forall other, row.outcome = some other -> other.canonical = outcome.canonical) :
    Paired sha256 loads known (journal.record assignment.assignmentId outcome)
      (memory.completed sha256 assignment outcome held.issuerId) := by
  have hstatus : forall other, row.outcome = some other -> other.status = outcome.status :=
    fun other hother => Outcome.status_of_canonical (hsame other hother)
  refine ⟨h.reserved.record hrow hstatus, ?_, ?_⟩
  · intro resource
    have hbefore := h.owners resource
    have hrelease := ownerIn_release assignment.assignmentId journal.reservations resource
    unfold Journal.owner? at hbefore ⊢
    unfold Journal.record MemoryJournal.completed
    dsimp only
    by_cases hunknown : outcome.status = .unknown
    · rw [if_pos hunknown, if_neg (fun hfreed => hfreed.1 hunknown)]
      exact hbefore
    · rw [if_neg hunknown, hrelease, hbefore]
      by_cases howner : memory.resources resource = some assignment.assignmentId
      · have hdemand := (h.reserved.matched resource assignment.assignmentId).mp
          (hbefore.trans howner)
        rcases hdemand with ⟨stored, hstored, _, hlisted⟩
        rw [hrow] at hstored
        cases hstored
        rw [Assignment.resources_of_canonical htext] at hlisted
        rw [if_pos howner, if_pos ⟨hunknown, hlisted, howner⟩]
      · rw [if_neg howner, if_neg (fun hfreed => howner hfreed.2.2)]
  · intro assignmentId
    rw [lookup_record]
    unfold MemoryJournal.completed
    dsimp only
    by_cases hid : assignmentId = assignment.assignmentId
    · rw [hid, hrow, Function.update_self, Option.map_some, if_pos rfl]
      exact .some (htwins.complete hassignment hknown houtcome htext hsame)
    · rw [Function.update_of_ne hid]
      simp only [if_neg hid, Option.map_id']
      exact h.records assignmentId

end Paired

end

end Participant

end Ump
