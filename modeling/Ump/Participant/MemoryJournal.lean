import Mathlib.Logic.Function.Basic
import Ump.Participant.Reservations

/-!
# The journal in memory

## Two dictionaries

`MemoryAssignmentJournal` has the same methods on two dictionaries and nothing that
survives its process. A method keeps what it has written before it raises.
-/

namespace Ump.Participant

open Foundation Journal

structure MemoryJournal where
  records : String -> Option JournalRecord
  resources : String -> Option String

abbrev MemoryMethod := EStateM Exn MemoryJournal

namespace MemoryJournal

def empty : MemoryJournal where
  records _ := none
  resources _ := none

def setRecord (record : JournalRecord) : MemoryMethod Unit :=
  modify (fun journal => { journal with
    records := Function.update journal.records record.assignmentId (some record) })

/-- `for resource in ...: self._resources[resource] = ...`. -/
def reserveAll (assignmentId : String) (resources : List String) : MemoryMethod Unit :=
  modify (fun journal => { journal with
    resources := resources.foldl
      (fun owners resource => Function.update owners resource (some assignmentId))
      journal.resources })

/-- `del self._resources[resource]` of each that the assignment owns. -/
def releaseAll (assignmentId : String) (resources : List String) : MemoryMethod Unit :=
  modify (fun journal => { journal with
    resources := resources.foldl
      (fun owners resource =>
        if owners resource = some assignmentId then Function.update owners resource none
        else owners)
      journal.resources })

def check (x : Except Exn value) : MemoryMethod value :=
  match x with
  | .ok v => pure v
  | .error e => throw e

def claim (sha256 : Text -> String) (assignment : Assignment) (issuerId : String) :
    MemoryMethod ClaimResult := do
  let journal <- get
  match journal.records assignment.assignmentId with
  | none =>
      if assignment.step.resources.any (fun resource =>
          (journal.resources resource).any (fun owner => owner != assignment.assignmentId)) then
        pure .resourceConflict
      else do
        setRecord (newRecord sha256 assignment issuerId)
        reserveAll assignment.assignmentId assignment.step.resources
        pure .new
  | some record =>
      if record.fingerprint ≠ assignmentFingerprint sha256 assignment ∨
          record.issuerId ≠ issuerId then
        pure .conflict
      else
        match record.outcome with
        | some outcome => pure (.replay outcome)
        | none => pure .uncertain

theorem status_of_eq_some (outcome : Outcome) :
    forall stored, some outcome = some stored -> stored.status = outcome.status := by
  intro stored hstored
  rw [Option.some.inj hstored]

/-- The record of a completed assignment, with the assignment of this call. -/
def completedRecord (sha256 : Text -> String) (assignment : Assignment) (outcome : Outcome)
    (issuerId : String) : JournalRecord where
  assignmentId := assignment.assignmentId
  fingerprint := assignmentFingerprint sha256 assignment
  assignment := assignment
  issuerId := issuerId
  status := outcome.status
  outcome := some outcome
  bound := (newRecord sha256 assignment issuerId).bound
  agrees := status_of_eq_some outcome

def complete (sha256 : Text -> String) (assignment : Assignment) (outcome : Outcome) :
    MemoryMethod Unit := do
  let journal <- get
  match journal.records assignment.assignmentId with
  | none => throw (.value "cannot complete an unclaimed or conflicting assignment")
  | some record => do
      check (refuseWhen (decide (record.fingerprint ≠ assignmentFingerprint sha256 assignment))
        "cannot complete an unclaimed or conflicting assignment")
      check (refuseWhen (record.outcome.any (fun other => !other.equal outcome))
        "terminal assignment outcome is immutable")
      setRecord (completedRecord sha256 assignment outcome record.issuerId)
      if outcome.status ≠ .unknown then
        releaseAll assignment.assignmentId assignment.step.resources
      else
        pure ()

def resolveUnknown (sha256 : Text -> String) (assignmentId : String)
    (status : AssignmentStatus) (description resolverId evidence : String) :
    MemoryMethod Outcome := do
  check (validateResolution status resolverId evidence)
  let journal <- get
  match journal.records assignmentId with
  | none => throw (.value "assignment does not exist")
  | some record => do
      check (refuseWhen (decide (record.status ≠ .unknown) || record.outcome.isSome)
        "only an unknown assignment can be resolved")
      let outcome <- check (Outcome.make assignmentId record.assignment.step.assignedRobotId
        (decide (status = .succeeded)) description (some status) (.obj []))
      complete sha256 record.assignment outcome
      pure outcome

/-- The method behind an operation, with the answer to a claim. A new process begins with
a new journal. -/
def method (sha256 : Text -> String) : Operation -> MemoryMethod (Option ClaimResult)
  | .claim assignment issuerId _ => do
      let result <- claim sha256 assignment issuerId
      pure (some result)
  | .complete assignment outcome _ => do
      complete sha256 assignment outcome
      pure none
  | .resolveUnknown assignmentId status description resolverId evidence _ => do
      let _ <- resolveUnknown sha256 assignmentId status description resolverId evidence
      pure none
  | .reopen => do
      set empty
      pure none

def after : EStateM.Result Exn MemoryJournal value -> MemoryJournal
  | .ok _ journal => journal
  | .error _ journal => journal

def replay (sha256 : Text -> String) (operations : List Operation) : MemoryJournal :=
  operations.foldl (fun journal operation => after (method sha256 operation journal)) empty

/-!
## What the methods do

A method that raises or reports a conflict has written nothing.
-/

theorem reserved_foldl (assignmentId : String) (resources : List String)
    (owners : String -> Option String) (resource : String) :
    resources.foldl
        (fun owners resource => Function.update owners resource (some assignmentId))
        owners resource =
      if resource ∈ resources then some assignmentId else owners resource := by
  induction resources generalizing owners with
  | nil => simp
  | cons head rest ih =>
      rw [List.foldl_cons, ih]
      by_cases hrest : resource ∈ rest
      · simp [hrest]
      · by_cases hhead : resource = head
        · simp [hhead]
        · simp [hrest, hhead]

theorem released_foldl (assignmentId : String) (resources : List String)
    (owners : String -> Option String) (resource : String) :
    resources.foldl
        (fun owners resource =>
          if owners resource = some assignmentId then Function.update owners resource none
          else owners)
        owners resource =
      if resource ∈ resources ∧ owners resource = some assignmentId then none
      else owners resource := by
  induction resources generalizing owners with
  | nil => simp
  | cons head rest ih =>
      rw [List.foldl_cons, ih]
      by_cases hhead : resource = head
      · subst hhead
        by_cases howner : owners resource = some assignmentId
        · simp [howner]
        · simp [howner]
      · have hsame : (if owners head = some assignmentId then Function.update owners head none
            else owners) resource = owners resource := by
          split_ifs <;> simp [hhead]
        rw [hsame]
        simp [hhead]

def admitted (sha256 : Text -> String) (journal : MemoryJournal) (assignment : Assignment)
    (issuerId : String) : MemoryJournal where
  records := Function.update journal.records assignment.assignmentId
    (some (newRecord sha256 assignment issuerId))
  resources resource :=
    if resource ∈ assignment.step.resources then some assignment.assignmentId
    else journal.resources resource

def completed (sha256 : Text -> String) (journal : MemoryJournal) (assignment : Assignment)
    (outcome : Outcome) (issuerId : String) : MemoryJournal where
  records := Function.update journal.records assignment.assignmentId
    (some (completedRecord sha256 assignment outcome issuerId))
  resources resource :=
    if outcome.status ≠ .unknown ∧ resource ∈ assignment.step.resources ∧
        journal.resources resource = some assignment.assignmentId then none
    else journal.resources resource

theorem get_bind (f : MemoryJournal -> MemoryMethod value) (journal : MemoryJournal) :
    (get >>= f) journal = f journal journal := rfl

theorem check_bind (v : value) (f : value -> MemoryMethod result) (journal : MemoryJournal) :
    (check (.ok v) >>= f) journal = f v journal := rfl

def taken (journal : MemoryJournal) (assignment : Assignment) : Bool :=
  assignment.step.resources.any (fun resource =>
    (journal.resources resource).any (fun owner => owner != assignment.assignmentId))

theorem claim_of_taken {sha256 : Text -> String} {journal : MemoryJournal}
    {assignment : Assignment} (hrecord : journal.records assignment.assignmentId = none)
    (htaken : journal.taken assignment = true) (issuerId : String) :
    claim sha256 assignment issuerId journal = .ok .resourceConflict journal := by
  unfold claim
  rw [get_bind, hrecord]
  unfold taken at htaken
  dsimp only
  rw [if_pos htaken]
  rfl

theorem claim_of_free {sha256 : Text -> String} {journal : MemoryJournal}
    {assignment : Assignment} (hrecord : journal.records assignment.assignmentId = none)
    (hfree : journal.taken assignment = false) (issuerId : String) :
    claim sha256 assignment issuerId journal =
      .ok .new (journal.admitted sha256 assignment issuerId) := by
  have hreserved := funext
    (reserved_foldl assignment.assignmentId assignment.step.resources journal.resources)
  unfold claim
  rw [get_bind, hrecord]
  unfold taken at hfree
  dsimp only
  rw [hfree]
  unfold admitted
  rw [← hreserved]
  rfl

/-- The answer to a claim of an assignment that has a record. -/
def answerFor (sha256 : Text -> String) (record : JournalRecord) (assignment : Assignment)
    (issuerId : String) : ClaimResult :=
  if record.fingerprint ≠ assignmentFingerprint sha256 assignment ∨
      record.issuerId ≠ issuerId then
    .conflict
  else
    match record.outcome with
    | some outcome => .replay outcome
    | none => .uncertain

theorem claim_of_record {sha256 : Text -> String} {journal : MemoryJournal}
    {assignment : Assignment} {record : JournalRecord}
    (hrecord : journal.records assignment.assignmentId = some record) (issuerId : String) :
    claim sha256 assignment issuerId journal =
      .ok (answerFor sha256 record assignment issuerId) journal := by
  unfold claim answerFor
  rw [get_bind, hrecord]
  dsimp only
  split_ifs
  · rfl
  · cases record.outcome <;> rfl

theorem claim_cases (sha256 : Text -> String) (assignment : Assignment) (issuerId : String)
    (journal : MemoryJournal) :
    (exists result, result ≠ .new ∧
      claim sha256 assignment issuerId journal = .ok result journal) ∨
    (journal.records assignment.assignmentId = none ∧
      (forall resource, resource ∈ assignment.step.resources -> forall owner,
        journal.resources resource = some owner -> owner = assignment.assignmentId) ∧
      claim sha256 assignment issuerId journal =
        .ok .new (journal.admitted sha256 assignment issuerId)) := by
  cases hrecord : journal.records assignment.assignmentId with
  | none =>
      cases htaken : journal.taken assignment with
      | true => exact Or.inl ⟨_, by simp, claim_of_taken hrecord htaken issuerId⟩
      | false =>
          refine Or.inr ⟨rfl, ?_, claim_of_free hrecord htaken issuerId⟩
          intro resource hresource owner howner
          unfold taken at htaken
          have hnone := List.any_eq_false.mp htaken resource hresource
          simpa [howner] using hnone
  | some record =>
      refine Or.inl ⟨_, ?_, claim_of_record hrecord issuerId⟩
      unfold answerFor
      split_ifs
      · simp
      · cases record.outcome <;> simp

theorem complete_of_record {sha256 : Text -> String} {journal : MemoryJournal}
    {assignment : Assignment} {record : JournalRecord}
    (hrecord : journal.records assignment.assignmentId = some record) (outcome : Outcome) :
    complete sha256 assignment outcome journal =
      if record.fingerprint ≠ assignmentFingerprint sha256 assignment then
        .error (.value "cannot complete an unclaimed or conflicting assignment") journal
      else if record.outcome.any (fun other => !other.equal outcome) then
        .error (.value "terminal assignment outcome is immutable") journal
      else .ok () (journal.completed sha256 assignment outcome record.issuerId) := by
  have hreleased := funext (released_foldl assignment.assignmentId
    assignment.step.resources journal.resources)
  unfold complete
  rw [get_bind, hrecord]
  dsimp only
  by_cases hfingerprint : record.fingerprint ≠ assignmentFingerprint sha256 assignment
  · rw [if_pos hfingerprint, decide_eq_true hfingerprint]
    rfl
  · rw [if_neg hfingerprint, decide_eq_false hfingerprint]
    cases houtcome : record.outcome.any (fun other => !other.equal outcome) with
    | true => rfl
    | false =>
        unfold completed
        by_cases hunknown : outcome.status = .unknown
        · simp only [hunknown, ne_eq, not_true_eq_false, false_and, if_false]
          rfl
        · simp only [hunknown, ne_eq, not_false_eq_true, true_and, if_true]
          rw [← hreleased]
          rfl

theorem complete_cases (sha256 : Text -> String) (assignment : Assignment) (outcome : Outcome)
    (journal : MemoryJournal) :
    (exists e, complete sha256 assignment outcome journal = .error e journal) ∨
    (exists record, journal.records assignment.assignmentId = some record ∧
      record.fingerprint = assignmentFingerprint sha256 assignment ∧
      (forall other, record.outcome = some other -> other.status = outcome.status) ∧
      complete sha256 assignment outcome journal =
        .ok () (journal.completed sha256 assignment outcome record.issuerId)) := by
  cases hrecord : journal.records assignment.assignmentId with
  | none =>
      refine Or.inl ⟨.value "cannot complete an unclaimed or conflicting assignment", ?_⟩
      unfold complete
      rw [get_bind, hrecord]
      rfl
  | some record =>
      rw [complete_of_record hrecord]
      split_ifs with hfingerprint houtcome
      · exact Or.inl ⟨_, rfl⟩
      · exact Or.inl ⟨_, rfl⟩
      · refine Or.inr ⟨record, rfl, not_not.mp hfingerprint, ?_, rfl⟩
        intro other hother
        rw [hother] at houtcome
        exact Outcome.status_of_equal (by simpa using houtcome)

theorem resolveUnknown_cases (sha256 : Text -> String) (assignmentId : String)
    (status : AssignmentStatus) (description resolverId evidence : String)
    (journal : MemoryJournal) :
    (exists e, resolveUnknown sha256 assignmentId status description resolverId evidence journal =
      .error e journal) ∨
    (exists record outcome journal', journal.records assignmentId = some record ∧
      complete sha256 record.assignment outcome journal = .ok () journal' ∧
      resolveUnknown sha256 assignmentId status description resolverId evidence journal =
        .ok outcome journal') := by
  unfold resolveUnknown
  cases hvalid : validateResolution status resolverId evidence with
  | error e => exact Or.inl ⟨e, rfl⟩
  | ok v =>
      rw [check_bind, get_bind]
      cases hrecord : journal.records assignmentId with
      | none => exact Or.inl ⟨_, rfl⟩
      | some record =>
          dsimp only
          cases hunknown : refuseWhen (decide (record.status ≠ .unknown) || record.outcome.isSome)
              "only an unknown assignment can be resolved" with
          | error e => exact Or.inl ⟨e, rfl⟩
          | ok v =>
              rw [check_bind]
              cases hmade : Outcome.make assignmentId record.assignment.step.assignedRobotId
                  (decide (status = .succeeded)) description (some status) (.obj []) with
              | error e => exact Or.inl ⟨e, rfl⟩
              | ok outcome =>
                  rw [check_bind]
                  rcases complete_cases sha256 record.assignment outcome journal with
                    ⟨e, hraised⟩ | ⟨stored, _, _, _, hcompleted⟩
                  · exact Or.inl ⟨e, bind_of_error hraised⟩
                  · exact Or.inr ⟨record, outcome, _, rfl, hcompleted,
                      bind_of_ok hcompleted⟩

/-!
## Every method keeps owners and demands matched
-/

end MemoryJournal

def Journal.Operation.assignments : Operation -> List Assignment
  | .claim assignment _ _ => [assignment]
  | .complete assignment _ _ => [assignment]
  | _ => []

namespace MemoryJournal

/-- No two of the assignments have the same digest unless their texts are the same. -/
def Distinguishes (sha256 : Text -> String) (known : Assignment -> Prop) : Prop :=
  forall a b, known a -> known b -> sha256 a.canonical = sha256 b.canonical ->
    a.canonical = b.canonical

/-- A record without an outcome is live, and its fingerprint is that of its assignment. -/
structure Sound (sha256 : Text -> String) (known : Assignment -> Prop)
    (record : JournalRecord) : Prop where
  openLive : record.outcome = none -> record.live = true
  fingerprint : record.fingerprint = assignmentFingerprint sha256 record.assignment
  known : known record.assignment

structure Reserved (sha256 : Text -> String) (known : Assignment -> Prop)
    (journal : MemoryJournal) : Prop where
  matched : Matched journal.resources (demand journal.records)
  sound : forall assignmentId record, journal.records assignmentId = some record ->
    Sound sha256 known record

variable {sha256 : Text -> String} {known : Assignment -> Prop} {journal : MemoryJournal}

theorem reserved_empty : Reserved sha256 known empty where
  matched resource assignmentId := by
    rw [demand_of_none rfl]
    constructor <;> (intro h; cases h)
  sound _ _ h := by cases h

theorem sound_update {records : String -> Option JournalRecord} {added : JournalRecord}
    {addedId : String} (hadded : Sound sha256 known added)
    (hothers : forall assignmentId record, records assignmentId = some record ->
      Sound sha256 known record) (assignmentId : String) (record : JournalRecord)
    (h : Function.update records addedId (some added) assignmentId = some record) :
    Sound sha256 known record := by
  by_cases hid : assignmentId = addedId
  · rw [hid, Function.update_self] at h
    cases h
    exact hadded
  · rw [Function.update_of_ne hid] at h
    exact hothers assignmentId record h

theorem Reserved.admitted (h : Reserved sha256 known journal) {assignment : Assignment}
    (issuerId : String) (hknown : known assignment)
    (hnone : journal.records assignment.assignmentId = none)
    (hfree : forall resource, resource ∈ assignment.step.resources -> forall owner,
      journal.resources resource = some owner -> owner = assignment.assignmentId) :
    Reserved sha256 known (journal.admitted sha256 assignment issuerId) := by
  have hself : (journal.admitted sha256 assignment issuerId).records assignment.assignmentId =
      some (newRecord sha256 assignment issuerId) := Function.update_self _ _ _
  constructor
  · apply h.matched.grant (demand_of_none hnone)
    · intro resource hresource
      cases howner : journal.resources resource with
      | none => rfl
      | some owner =>
          have hdemand := (h.matched resource owner).mp howner
          rw [hfree resource hresource owner howner, demand_of_none hnone] at hdemand
          cases hdemand
    · intro resource hresource
      exact if_pos hresource
    · intro resource hresource
      exact if_neg hresource
    · exact demand_of_some hself rfl
    · intro other hother
      exact demand_congr (Function.update_of_ne hother _ _)
  · exact sound_update ⟨fun _ => rfl, rfl, hknown⟩ h.sound

theorem Reserved.completed (h : Reserved sha256 known journal)
    (hdistinguishes : Distinguishes sha256 known) {assignment : Assignment}
    {record : JournalRecord} {outcome : Outcome} (hknown : known assignment)
    (hrecord : journal.records assignment.assignmentId = some record)
    (hfingerprint : record.fingerprint = assignmentFingerprint sha256 assignment)
    (hsame : forall other, record.outcome = some other -> other.status = outcome.status) :
    Reserved sha256 known (journal.completed sha256 assignment outcome record.issuerId) := by
  have hresources : record.assignment.step.resources = assignment.step.resources := by
    apply Assignment.resources_of_canonical
    apply hdistinguishes _ _ (h.sound _ record hrecord).known hknown
    rw [(h.sound _ record hrecord).fingerprint] at hfingerprint
    exact hfingerprint
  have hself : (journal.completed sha256 assignment outcome record.issuerId).records
      assignment.assignmentId =
        some (completedRecord sha256 assignment outcome record.issuerId) :=
    Function.update_self _ _ _
  constructor
  · by_cases hunknown : outcome.status = .unknown
    · apply h.matched.keep
      · intro resource
        exact if_neg (fun hfreed => hfreed.1 hunknown)
      · intro otherId
        by_cases hother : otherId = assignment.assignmentId
        · have hlive : record.live = true := by
            cases houtcome : record.outcome with
            | none => exact (h.sound _ record hrecord).openLive houtcome
            | some other =>
                simp [JournalRecord.live, ← record.agrees other houtcome,
                  hsame other houtcome, hunknown]
          have hcompleted : (completedRecord sha256 assignment outcome record.issuerId).live =
              true := by
            simp [JournalRecord.live, completedRecord, hunknown]
          rw [hother, demand_of_some hself hcompleted, demand_of_some hrecord hlive, hresources]
          rfl
        · exact demand_congr (Function.update_of_ne hother _ _)
    · apply h.matched.release
      · intro resource howner
        have hdemand := (h.matched resource _).mp howner
        rcases hdemand with ⟨stored, hstored, _, hlisted⟩
        rw [hrecord] at hstored
        cases hstored
        rw [hresources] at hlisted
        exact if_pos ⟨hunknown, hlisted, howner⟩
      · intro resource howner
        exact if_neg (fun hfreed => howner hfreed.2.2)
      · apply demand_of_settled hself
        rw [live_eq_false]
        exact ⟨outcome.notAccepted, hunknown⟩
      · intro other hother
        exact demand_congr (Function.update_of_ne hother _ _)
  · refine sound_update ⟨?_, rfl, hknown⟩ h.sound
    intro hopen
    cases hopen

theorem Reserved.method (h : Reserved sha256 known journal)
    (hdistinguishes : Distinguishes sha256 known) {operation : Operation}
    (hknown : forall assignment, assignment ∈ operation.assignments -> known assignment) :
    Reserved sha256 known (after (MemoryJournal.method sha256 operation journal)) := by
  cases operation with
  | claim assignment issuerId nowMs =>
      rw [MemoryJournal.method]
      rcases claim_cases sha256 assignment issuerId journal with
        ⟨result, _, hclaim⟩ | ⟨hnone, hfree, hclaim⟩
      · rw [bind_of_ok hclaim]
        exact h
      · rw [bind_of_ok hclaim]
        exact h.admitted issuerId (hknown assignment (List.mem_singleton_self _)) hnone hfree
  | complete assignment outcome nowMs =>
      rw [MemoryJournal.method]
      rcases complete_cases sha256 assignment outcome journal with
        ⟨e, hraised⟩ | ⟨record, hrecord, hfingerprint, hsame, hcompleted⟩
      · rw [bind_of_error hraised]
        exact h
      · rw [bind_of_ok hcompleted]
        exact h.completed hdistinguishes (hknown assignment (List.mem_singleton_self _)) hrecord
          hfingerprint hsame
  | resolveUnknown assignmentId status description resolverId evidence nowMs =>
      rw [MemoryJournal.method]
      rcases resolveUnknown_cases sha256 assignmentId status description resolverId evidence
        journal with ⟨e, hraised⟩ | ⟨record, outcome, journal', hrecord, hcomplete, hresolved⟩
      · rw [bind_of_error hraised]
        exact h
      · rw [bind_of_ok hresolved]
        have hassignment := (h.sound assignmentId record hrecord).known
        rcases complete_cases sha256 record.assignment outcome journal with
          ⟨e, hraised⟩ | ⟨stored, hstored, hfingerprint, hsame, hcompleted⟩
        · rw [hraised] at hcomplete
          cases hcomplete
        · rw [hcompleted] at hcomplete
          cases hcomplete
          exact h.completed hdistinguishes hassignment hstored hfingerprint hsame
  | reopen => exact reserved_empty

theorem reserved_replay {operations : List Operation} (hdistinguishes : Distinguishes sha256 known)
    (hknown : forall operation, operation ∈ operations -> forall assignment,
      assignment ∈ operation.assignments -> known assignment) :
    Reserved sha256 known (replay sha256 operations) := by
  unfold replay
  generalize hstart : empty = journal
  have hreserved : Reserved sha256 known journal := hstart ▸ reserved_empty
  clear hstart
  induction operations generalizing journal with
  | nil => exact hreserved
  | cons operation rest ih =>
      apply ih (fun other hother => hknown other (List.mem_cons_of_mem _ hother))
      exact hreserved.method hdistinguishes (hknown operation List.mem_cons_self)

theorem method_refused (operation : Operation) :
    (forall e journal', MemoryJournal.method sha256 operation journal = .error e journal' ->
      journal' = journal) ∧
    (forall result journal', MemoryJournal.method sha256 operation journal =
        .ok (some result) journal' -> result ≠ .new -> journal' = journal) := by
  cases operation with
  | claim assignment issuerId nowMs =>
      rw [MemoryJournal.method]
      rcases claim_cases sha256 assignment issuerId journal with
        ⟨result, hold, hclaim⟩ | ⟨hnone, hfree, hclaim⟩
      · rw [bind_of_ok hclaim]
        constructor
        · intro e journal' h
          cases h
        · intro other journal' h _
          cases h
          rfl
      · rw [bind_of_ok hclaim]
        constructor
        · intro e journal' h
          cases h
        · intro other journal' h hother
          cases h
          exact absurd rfl hother
  | complete assignment outcome nowMs =>
      rw [MemoryJournal.method]
      rcases complete_cases sha256 assignment outcome journal with
        ⟨e, hraised⟩ | ⟨record, _, _, _, hcompleted⟩
      · rw [bind_of_error hraised]
        constructor
        · intro e journal' h
          cases h
          rfl
        · intro other journal' h _
          cases h
      · rw [bind_of_ok hcompleted]
        constructor <;> (intro _ _ h; cases h)
  | resolveUnknown assignmentId status description resolverId evidence nowMs =>
      rw [MemoryJournal.method]
      rcases resolveUnknown_cases sha256 assignmentId status description resolverId evidence
        journal with ⟨e, hraised⟩ | ⟨record, outcome, mid, _, _, hresolved⟩
      · rw [bind_of_error hraised]
        constructor
        · intro e journal' h
          cases h
          rfl
        · intro other journal' h _
          cases h
      · rw [bind_of_ok hresolved]
        constructor <;> (intro _ _ h; cases h)
  | reopen => constructor <;> (intro _ _ h; cases h)

end MemoryJournal

/-!
## The reservations of both journals

A resource is reserved for the live assignment whose step lists it, after any operations of
either journal.
-/

/-- A resource is reserved for the one live assignment whose step lists it. -/
structure Exclusive (owner : String -> Option String)
    (lookup : String -> Option JournalRecord) : Prop where
  reserved : forall resource, (owner resource).isSome = true <->
    ∃! assignmentId, resource ∈ demand lookup assignmentId
  owned : forall resource assignmentId, owner resource = some assignmentId <->
    resource ∈ demand lookup assignmentId

theorem exclusive_of_matched {owner : String -> Option String}
    {lookup : String -> Option JournalRecord} (h : Matched owner (demand lookup)) :
    Exclusive owner lookup :=
  ⟨h.owned_iff, h⟩

def Named (operations : List Operation) (assignment : Assignment) : Prop :=
  exists operation, operation ∈ operations ∧ assignment ∈ operation.assignments

/-- After every history the reservations are those of the live assignments, and a method
that raises or answers a claim with a conflict changes nothing. In memory a completion
releases what the assignment of its own call lists, so there the digests must tell the
assignments of the history apart. -/
theorem reservations_match_live_assignments (sha256 : Text -> String)
    (operations : List Operation) (operation : Operation) :
    Exclusive (replay sha256 operations).committed.owner?
      (replay sha256 operations).committed.lookup ∧
    (forall e s, method sha256 operation (replay sha256 operations) = .error e s ->
      s = replay sha256 operations) ∧
    (forall result s,
      method sha256 operation (replay sha256 operations) = .ok (some result) s ->
      result ≠ .new -> s = replay sha256 operations) ∧
    (MemoryJournal.Distinguishes sha256 (Named operations) ->
      Exclusive (MemoryJournal.replay sha256 operations).resources
        (MemoryJournal.replay sha256 operations).records) ∧
    (forall e m, MemoryJournal.method sha256 operation (MemoryJournal.replay sha256 operations) =
      .error e m -> m = MemoryJournal.replay sha256 operations) ∧
    (forall result m,
      MemoryJournal.method sha256 operation (MemoryJournal.replay sha256 operations) =
        .ok (some result) m ->
      result ≠ .new -> m = MemoryJournal.replay sha256 operations) := by
  refine ⟨?_, fun e s => method_raised, fun result s => method_answered, ?_,
    (MemoryJournal.method_refused operation).1, (MemoryJournal.method_refused operation).2⟩
  · rw [replay_eq]
    exact exclusive_of_matched (reserved_applyAll sha256 operations).matched
  · intro hdistinguishes
    apply exclusive_of_matched
    apply (MemoryJournal.reserved_replay hdistinguishes _).matched
    exact fun operation hoperation assignment hassignment => ⟨operation, hoperation, hassignment⟩

def dockOrder (assignmentId : String) : Assignment :=
  patrolAssignment assignmentId "p" { patrolStep "s1" "r1" [] with resources := ["dock"] }

theorem dock_reserved_once :
    (exists s, method String.ofList (.claim (dockOrder "b") "c" 0)
        (replay String.ofList [.claim (dockOrder "a") "c" 0]) = .ok (some .resourceConflict) s ∧
      s = replay String.ofList [.claim (dockOrder "a") "c" 0]) ∧
    Exclusive (MemoryJournal.replay String.ofList [.claim (dockOrder "a") "c" 0]).resources
      (MemoryJournal.replay String.ofList [.claim (dockOrder "a") "c" 0]).records ∧
    (exists m, MemoryJournal.method String.ofList (.claim (dockOrder "b") "c" 0)
        (MemoryJournal.replay String.ofList [.claim (dockOrder "a") "c" 0]) =
          .ok (some .resourceConflict) m ∧
      m = MemoryJournal.replay String.ofList [.claim (dockOrder "a") "c" 0]) := by
  have h := reservations_match_live_assignments String.ofList [.claim (dockOrder "a") "c" 0]
    (.claim (dockOrder "b") "c" 0)
  have hdistinguishes : MemoryJournal.Distinguishes String.ofList
      (Named [.claim (dockOrder "a") "c" 0]) :=
    fun a b _ _ hsame => String.ofList_injective hsame
  constructor
  · exact ⟨_, rfl, h.2.2.1 _ _ rfl (by simp)⟩
  · constructor
    · exact h.2.2.2.1 hdistinguishes
    · exact ⟨_, rfl, h.2.2.2.2.2 _ _ rfl (by simp)⟩

end Ump.Participant
