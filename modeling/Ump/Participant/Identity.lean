import Ump.Participant.Reservations
import Ump.Participant.Runtime

/-!
# Identity of assignments

## The answer to a claim

Which of the five answers a claim gets is decided by the record of its assignment id,
and by the reservations when there is none.
-/

namespace Ump.Participant

open Foundation Journal

structure Answered (sha256 : Text -> String) (journal : Journal) (assignment : Assignment)
    (issuerId : String) (result : ClaimResult) : Prop where
  unclaimed : (result = .new ∨ result = .resourceConflict) <->
    journal.lookup assignment.assignmentId = none
  resourceConflict : result = .resourceConflict <->
    journal.lookup assignment.assignmentId = none ∧
      exists resource, resource ∈ assignment.step.resources ∧
        exists other, other ≠ assignment.assignmentId ∧ journal.owner? resource = some other
  conflict : result = .conflict <->
    exists stored, journal.lookup assignment.assignmentId = some stored ∧
      (stored.fingerprint ≠ assignmentFingerprint sha256 assignment ∨
        stored.issuerId ≠ issuerId)
  replay : forall outcome, result = .replay outcome <->
    exists stored, journal.lookup assignment.assignmentId = some stored ∧
      stored.fingerprint = assignmentFingerprint sha256 assignment ∧
      stored.issuerId = issuerId ∧ stored.outcome = some outcome
  uncertain : result = .uncertain <->
    exists stored, journal.lookup assignment.assignmentId = some stored ∧
      stored.fingerprint = assignmentFingerprint sha256 assignment ∧
      stored.issuerId = issuerId ∧ stored.outcome = none

theorem claim_answer {sha256 : Text -> String} {journal journal' : Journal}
    {assignment : Assignment} {issuerId : String} {nowMs : Int} {result : ClaimResult}
    (h : journal.claim sha256 assignment issuerId nowMs = .ok (result, journal')) :
    Answered sha256 journal assignment issuerId result := by
  cases claim_cases h with
  | new hfree hconflict =>
      constructor <;> simp [hfree, hconflict, ← resourceConflict_eq_true]
  | resourceConflict hfree hconflict =>
      constructor <;> simp [hfree, hconflict, ← resourceConflict_eq_true]
  | @conflict stored hstored hdiffers =>
      have hsame : stored.fingerprint = assignmentFingerprint sha256 assignment ->
          stored.issuerId ≠ issuerId := by
        rcases hdiffers with hfingerprint | hissuer
        · exact fun heq => absurd heq hfingerprint
        · exact fun _ => hissuer
      constructor <;> simp +contextual [hstored, hdiffers, hsame]
  | replay hstored hfingerprint hissuer houtcome =>
      constructor <;> simp [hstored, hfingerprint, hissuer, houtcome]
  | uncertain hstored hfingerprint hissuer houtcome =>
      constructor <;> simp [hstored, hfingerprint, hissuer, houtcome]

theorem nodup_resources {assignment : Assignment} (h : assignment.check = .ok ()) :
    assignment.step.resources.Nodup := by
  rcases bind_eq_ok.mp h with ⟨_, hstep, _⟩
  rcases bind_eq_ok.mp hstep with ⟨_, _, hstep⟩
  rcases bind_eq_ok.mp hstep with ⟨_, _, hstep⟩
  rcases bind_eq_ok.mp hstep with ⟨_, _, hstep⟩
  rcases bind_eq_ok.mp hstep with ⟨_, _, hstep⟩
  rcases bind_eq_ok.mp hstep with ⟨_, _, hstep⟩
  rcases bind_eq_ok.mp hstep with ⟨_, _, hstep⟩
  rcases bind_eq_ok.mp hstep with ⟨_, hunique, _⟩
  simpa [hasRepeats] using refuseWhen_eq_ok hunique

theorem claim_returns {sha256 : Text -> String} {journal : Journal} {assignment : Assignment}
    {nowMs : Int} (hreserved : Reserved journal) (hbuilt : assignment.check = .ok ())
    (hnow : bindInteger nowMs = .ok ()) (issuerId : String) :
    exists result journal', journal.claim sha256 assignment issuerId nowMs =
      .ok (result, journal') := by
  unfold claim
  cases hstored : journal.lookup assignment.assignmentId with
  | some stored =>
      dsimp only
      split_ifs
      · exact ⟨_, _, rfl⟩
      · cases stored.outcome with
        | some outcome => exact ⟨_, _, rfl⟩
        | none => exact ⟨_, _, rfl⟩
  | none =>
      dsimp only
      split_ifs with hconflict
      · exact ⟨_, _, rfl⟩
      · have hfresh : forall other, other ∈ journal.assignments.rows ->
            Keyed.clash other (newRecord sha256 assignment issuerId) = false := by
          intro other hother
          simpa [Keyed.clash, newRecord] using lookup_eq_none.mp hstored other hother
        rcases Table.insert?_of_no_clash hfresh with ⟨assignments, hinsert⟩
        rcases reserve_of_free (nodup_resources hbuilt)
          (hreserved.free hstored (by simpa using hconflict)) with ⟨reservations, hreserve⟩
        rw [hnow, hinsert, hreserve]
        exact ⟨_, _, rfl⟩

/-!
## Where records come from

A record is that of the claim that was answered with `new`, and it goes on from there.
-/

/-- A record of the journal after an operation goes on from one before it, or is new. -/
inductive Comes (sha256 : Text -> String) (journal : Journal) (operation : Operation)
    (answer : Option ClaimResult) (assignmentId : String) (record' : JournalRecord) : Prop where
  | kept {record : JournalRecord} (hrecord : journal.lookup assignmentId = some record)
      (hcontinues : Continues record record') :
      Comes sha256 journal operation answer assignmentId record'
  | claimed {assignment : Assignment} {issuerId : String} {nowMs : Int}
      (hoperation : operation = .claim assignment issuerId nowMs)
      (hanswer : answer = some .new) (hid : assignment.assignmentId = assignmentId)
      (hrecord : record' = newRecord sha256 assignment issuerId) :
      Comes sha256 journal operation answer assignmentId record'

theorem comes_of_lookup_map {sha256 : Text -> String} {journal journal' : Journal}
    {operation : Operation} {answer : Option ClaimResult} {assignmentId : String}
    {record' : JournalRecord} {f : JournalRecord -> JournalRecord}
    (hf : forall record, Continues record (f record))
    (hlookup : journal'.lookup assignmentId = (journal.lookup assignmentId).map f)
    (hrecord' : journal'.lookup assignmentId = some record') :
    Comes sha256 journal operation answer assignmentId record' := by
  rw [hlookup] at hrecord'
  rcases Option.map_eq_some_iff.mp hrecord' with ⟨record, hrecord, rfl⟩
  exact .kept hrecord (hf record)

theorem comes_of_record {sha256 : Text -> String} {journal : Journal} {operation : Operation}
    {answer : Option ClaimResult} {recordedId assignmentId : String} {outcome : Outcome}
    {record' : JournalRecord}
    (hrecord' : (journal.record recordedId outcome).lookup assignmentId = some record') :
    Comes sha256 journal operation answer assignmentId record' := by
  apply comes_of_lookup_map _ (lookup_record journal recordedId assignmentId outcome) hrecord'
  intro record
  split_ifs
  · exact continues_recorded outcome record
  · exact .rfl record

theorem commit_comes {sha256 : Text -> String} {journal journal' : Journal}
    {operation : Operation} {answer : Option ClaimResult}
    (h : journal.commit sha256 operation = .ok (answer, journal')) {assignmentId : String}
    {record' : JournalRecord} (hrecord' : journal'.lookup assignmentId = some record') :
    Comes sha256 journal operation answer assignmentId record' := by
  cases operation with
  | claim assignment issuerId nowMs =>
      rcases bind_eq_ok.mp h with ⟨⟨result, claimed⟩, hclaim, hresult⟩
      cases hresult
      cases claim_eq_ok hclaim with
      | new hfree hlookup =>
          rw [hlookup] at hrecord'
          split_ifs at hrecord' with hid
          · cases hrecord'
            exact .claimed rfl rfl hid.symm rfl
          · exact .kept hrecord' (.rfl record')
      | _ => exact .kept hrecord' (.rfl record')
  | complete assignment outcome nowMs =>
      rcases bind_eq_ok.mp h with ⟨completed, hcomplete, hresult⟩
      cases hresult
      rcases complete_eq_ok hcomplete with ⟨rfl, _⟩
      exact comes_of_record hrecord'
  | resolveUnknown resolvedId status description resolverId evidence nowMs =>
      rcases bind_eq_ok.mp h with ⟨⟨outcome, resolved⟩, hresolve, hresult⟩
      cases hresult
      rw [(resolveUnknown_eq_ok hresolve).2] at hrecord'
      exact comes_of_record hrecord'
  | reopen =>
      cases h
      exact comes_of_lookup_map continues_interrupted (lookup_reopen journal assignmentId)
        hrecord'

theorem grows_apply (sha256 : Text -> String) (journal : Journal) (operation : Operation) :
    Grows journal (journal.apply sha256 operation) := by
  unfold Journal.apply
  cases hcommit : journal.commit sha256 operation with
  | error e => exact .rfl journal
  | ok result =>
      cases operation with
      | claim assignment issuerId nowMs =>
          rcases bind_eq_ok.mp hcommit with ⟨⟨answer, claimed⟩, hclaim, hresult⟩
          cases hresult
          exact (claim_eq_ok hclaim).grows
      | complete assignment outcome nowMs =>
          rcases bind_eq_ok.mp hcommit with ⟨completed, hcomplete, hresult⟩
          cases hresult
          rw [(complete_eq_ok hcomplete).1]
          exact grows_record journal assignment.assignmentId outcome
      | resolveUnknown assignmentId status description resolverId evidence nowMs =>
          rcases bind_eq_ok.mp hcommit with ⟨⟨outcome, resolved⟩, hresolve, hresult⟩
          cases hresult
          intro otherId record hrecord
          rw [(resolveUnknown_eq_ok hresolve).2]
          exact grows_record journal assignmentId outcome otherId record hrecord
      | reopen =>
          cases hcommit
          exact grows_reopen journal

theorem grows_applyAll (sha256 : Text -> String) (journal : Journal)
    (operations : List Operation) : Grows journal (journal.applyAll sha256 operations) := by
  unfold applyAll
  induction operations generalizing journal with
  | nil => exact .rfl journal
  | cons operation rest ih => exact (grows_apply sha256 journal operation).trans (ih _)

theorem applyAll_append (sha256 : Text -> String) (journal : Journal)
    (operations later : List Operation) :
    journal.applyAll sha256 (operations ++ later) =
      (journal.applyAll sha256 operations).applyAll sha256 later :=
  List.foldl_append

/-- Some claim of the history was answered with `new`, and the record has its fingerprint,
issuer and assignment. -/
def Originates (sha256 : Text -> String) (operations : List Operation)
    (record : JournalRecord) : Prop :=
  exists earlier nowMs later, operations =
      earlier ++ .claim record.assignment record.issuerId nowMs :: later ∧
    (exists s, method sha256 (.claim record.assignment record.issuerId nowMs)
      (replay sha256 earlier) = .ok (some .new) s) ∧
    record.fingerprint = assignmentFingerprint sha256 record.assignment

theorem Originates.later {sha256 : Text -> String} {operations : List Operation}
    {record record' : JournalRecord} (h : Originates sha256 operations record)
    (hcontinues : Continues record record') (operation : Operation) :
    Originates sha256 (operations ++ [operation]) record' := by
  rcases h with ⟨earlier, nowMs, later, rfl, hnew, hfingerprint⟩
  refine ⟨earlier, nowMs, later ++ [operation], ?_, ?_, ?_⟩
  · simp [hcontinues.assignment, hcontinues.issuerId]
  · rw [hcontinues.assignment, hcontinues.issuerId]
    exact hnew
  · rw [hcontinues.fingerprint, hcontinues.assignment]
    exact hfingerprint

theorem originates_of_lookup {sha256 : Text -> String} {operations : List Operation}
    {assignmentId : String} {record : JournalRecord}
    (h : (empty.applyAll sha256 operations).lookup assignmentId = some record) :
    Originates sha256 operations record := by
  induction operations using List.reverseRecOn generalizing record with
  | nil => cases h
  | append_singleton operations operation ih =>
      rw [applyAll_append] at h
      have hlookup : ((empty.applyAll sha256 operations).apply sha256 operation).lookup
          assignmentId = some record := h
      unfold Journal.apply at hlookup
      cases hcommit : (empty.applyAll sha256 operations).commit sha256 operation with
      | error e =>
          rw [hcommit] at hlookup
          exact (ih hlookup).later (.rfl record) operation
      | ok result =>
          rcases result with ⟨answer, journal⟩
          rw [hcommit] at hlookup
          have hrefines := method_refines sha256 operation (empty.applyAll sha256 operations)
          rw [hcommit] at hrefines
          cases commit_comes hcommit hlookup with
          | kept hrecord hcontinues => exact (ih hrecord).later hcontinues operation
          | @claimed assignment issuerId nowMs hoperation hanswer hid hrecord =>
              subst hoperation hrecord hanswer
              refine ⟨operations, nowMs, [], rfl, ⟨.idle journal, ?_⟩, rfl⟩
              rw [replay_eq]
              exact hrefines

/-!
## Histories of claims
-/

/-- After every history each claim is answered from the record and the reservations, and
a claim of a built assignment at a storable time is answered. An id keeps the fingerprint
and the issuer of the claim that was answered with `new`, every record comes from such a
claim, and a record that has an outcome never changes again. -/
theorem journal_identity_and_immutability (sha256 : Text -> String)
    (operations later : List Operation) :
    (forall assignment issuerId nowMs result s,
      method sha256 (.claim assignment issuerId nowMs) (replay sha256 operations) =
        .ok (some result) s ->
      Answered sha256 (replay sha256 operations).committed assignment issuerId result ∧
      (result = .new -> exists record,
        (replay sha256 (operations ++ .claim assignment issuerId nowMs :: later)).committed.lookup
          assignment.assignmentId = some record ∧
        record.fingerprint = assignmentFingerprint sha256 assignment ∧
        record.issuerId = issuerId)) ∧
    (forall assignment issuerId nowMs, assignment.check = .ok () -> bindInteger nowMs = .ok () ->
      exists result s, method sha256 (.claim assignment issuerId nowMs)
        (replay sha256 operations) = .ok (some result) s) ∧
    (forall assignmentId record,
      (replay sha256 operations).committed.lookup assignmentId = some record ->
      Originates sha256 operations record) ∧
    (forall assignmentId record,
      (replay sha256 operations).committed.lookup assignmentId = some record ->
      record.outcome ≠ none ->
      (replay sha256 (operations ++ later)).committed.lookup assignmentId = some record) := by
  refine ⟨?_, ?_, ?_, ?_⟩
  · intro assignment issuerId nowMs result s h
    rcases method_returned h with ⟨journal, hcommit, rfl⟩
    rcases bind_eq_ok.mp hcommit with ⟨⟨answer, claimed⟩, hclaim, hresult⟩
    cases hresult
    rw [replay_eq, replay_eq, applyAll_append]
    refine ⟨claim_answer hclaim, ?_⟩
    rintro rfl
    have hfirst : (empty.applyAll sha256 operations).apply sha256
        (.claim assignment issuerId nowMs) = journal := by
      unfold Journal.apply
      rw [hcommit]
    cases claim_eq_ok hclaim with
    | new hfree hlookup =>
        have hnew : journal.lookup assignment.assignmentId =
            some (newRecord sha256 assignment issuerId) := by
          rw [hlookup, if_pos rfl]
        rcases grows_applyAll sha256 journal later _ _ hnew with ⟨record, hrecord, hcontinues⟩
        refine ⟨record, ?_, hcontinues.fingerprint, hcontinues.issuerId⟩
        rw [← hfirst] at hrecord
        exact hrecord
  · intro assignment issuerId nowMs hbuilt hnow
    rcases claim_returns (reserved_applyAll sha256 operations) hbuilt hnow issuerId with
      ⟨result, journal', hclaim⟩
    have hrefines := method_refines sha256 (.claim assignment issuerId nowMs)
      (empty.applyAll sha256 operations)
    have hcommit : (empty.applyAll sha256 operations).commit sha256
        (.claim assignment issuerId nowMs) = .ok (some result, journal') := by
      show (Journal.claim sha256 _ assignment issuerId nowMs >>= _) = _
      rw [hclaim]
      rfl
    rw [hcommit] at hrefines
    rw [replay_eq]
    exact ⟨_, _, hrefines⟩
  · intro assignmentId record h
    rw [replay_eq] at h
    exact originates_of_lookup h
  · intro assignmentId record h hsettled
    rw [replay_eq] at h ⊢
    rw [applyAll_append]
    rcases grows_applyAll sha256 _ later assignmentId record h with ⟨record', hrecord', hcontinues⟩
    rw [← hcontinues.settled hsettled]
    exact hrecord'

theorem patrol_identity :
    (exists record, (replay (fun _ => "d")
        ([] ++ .claim patrolOrder "c" 0 :: [.reopen])).committed.lookup "a" = some record ∧
      record.fingerprint = "d" ∧ record.issuerId = "c") ∧
    (exists result s, method (fun _ => "d") (.claim patrolOrder "c" 2) (replay (fun _ => "d")
        [.claim patrolOrder "c" 0, .complete patrolOrder patrolArrived 1]) =
      .ok (some result) s) ∧
    (exists record, record.outcome = some patrolArrived ∧ (replay (fun _ => "d")
        ([.claim patrolOrder "c" 0, .complete patrolOrder patrolArrived 1] ++
          [.reopen])).committed.lookup "a" = some record) := by
  have hfirst := journal_identity_and_immutability (fun _ => "d") [] [.reopen]
  have hsecond := journal_identity_and_immutability (fun _ => "d")
    [.claim patrolOrder "c" 0, .complete patrolOrder patrolArrived 1] [.reopen]
  refine ⟨(hfirst.1 patrolOrder "c" 0 .new _ rfl).2 rfl, hsecond.2.1 patrolOrder "c" 2 rfl rfl,
    _, rfl, hsecond.2.2.2 "a" _ rfl ?_⟩
  intro hnone
  cases hnone

end Ump.Participant
