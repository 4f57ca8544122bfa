import Ump.Foundation.Lockstep
import Ump.Participant.Runtime
import Ump.Participant.Twins

/-!
# The agreement of the two journals

## One call

The journals are given the same calls. A call that writes is answered alike if its time fits
into 64 bits and its outcome, when it equals the recorded one, has the text of it.
-/

namespace Ump.Participant

open Foundation Journal

section

variable {sha256 : Text -> String} {loads : Text -> Except Exn Json}
variable {known : Assignment -> Prop}

/-- The condition on a call and on the journal in memory: the time of a call that writes fits
into 64 bits, and an outcome that equals the recorded one has the text of it. -/
def Firm (sha256 : Text -> String) (memory : MemoryJournal) : Call -> Prop
  | .claim assignment _ nowMs =>
      memory.records assignment.assignmentId = none -> memory.taken assignment = false ->
        bindInteger nowMs = .ok ()
  | .complete assignment outcome nowMs =>
      forall held, memory.records assignment.assignmentId = some held ->
        held.fingerprint = assignmentFingerprint sha256 assignment ->
        (forall other, held.outcome = some other -> other.equal outcome = true) ->
        (forall other, held.outcome = some other -> other.canonical = outcome.canonical) ∧
          bindInteger nowMs = .ok ()
  | _ => True

def onDatabase (sha256 : Text -> String) (loads : Text -> Except Exn Json) :
    Responder (Session Journal) Call (Except Exn Answer) :=
  respond (Connection.call sha256 loads)

def inMemory (sha256 : Text -> String) : Responder MemoryJournal Call (Except Exn Answer) :=
  respond (MemoryJournal.call sha256)

/-- No transaction is open, and what is committed corresponds to the journal in memory. -/
def Corresponds (sha256 : Text -> String) (loads : Text -> Except Exn Json)
    (known : Assignment -> Prop) (s : Session Journal) (memory : MemoryJournal) : Prop :=
  exists journal, s = .idle journal ∧ Paired sha256 loads known journal memory

/-- A firm call is answered alike, and any other is not. -/
def Judged (sha256 : Text -> String) (loads : Text -> Except Exn Json)
    (known : Assignment -> Prop) (s : Session Journal) (memory : MemoryJournal) (call : Call) :
    Prop :=
  (Firm sha256 memory call ∧
      Alike (onDatabase sha256 loads s call).1 (inMemory sha256 memory call).1 ∧
      Corresponds sha256 loads known (onDatabase sha256 loads s call).2
        (inMemory sha256 memory call).2) ∨
    (¬ Firm sha256 memory call ∧
      ¬ Alike (onDatabase sha256 loads s call).1 (inMemory sha256 memory call).1)

section

variable {journal journal' : Journal} {memory memory' : MemoryJournal} {call : Call}
variable {x y : Except Exn Answer}

theorem judged_of_alike (hfirm : Firm sha256 memory call)
    (hx : onDatabase sha256 loads (.idle journal) call = (x, .idle journal'))
    (hy : inMemory sha256 memory call = (y, memory')) (halike : Alike x y)
    (hpaired : Paired sha256 loads known journal' memory') :
    Judged sha256 loads known (.idle journal) memory call := by
  unfold Judged
  rw [hx, hy]
  exact Or.inl ⟨hfirm, halike, journal', rfl, hpaired⟩

theorem judged_of_differing (hfirm : ¬ Firm sha256 memory call)
    (hx : onDatabase sha256 loads (.idle journal) call = (x, .idle journal'))
    (hy : inMemory sha256 memory call = (y, memory')) (halike : ¬ Alike x y) :
    Judged sha256 loads known (.idle journal) memory call := by
  unfold Judged
  rw [hx, hy]
  exact Or.inr ⟨hfirm, halike⟩

end

/-!
### Claims
-/

theorem onDatabase_claim {journal journal' : Journal} {assignment : Assignment}
    {issuerId : String} {nowMs : Int} {result shown : ClaimResult}
    (h : journal.claim sha256 assignment issuerId nowMs = .ok (result, journal'))
    (hshown : Connection.decodedClaim loads result = .ok shown) :
    onDatabase sha256 loads (.idle journal) (.claim assignment issuerId nowMs) =
      (.ok (.claimed shown), .idle journal') := by
  have hrefines := claim_refines sha256 assignment issuerId nowMs journal
  rw [h] at hrefines
  apply respond_of_ok
  rw [Connection.call, bind_of_ok hrefines]
  apply bind_of_ok
  unfold Sql.compute
  rw [hshown]

theorem onDatabase_claim_raised {journal : Journal} {assignment : Assignment}
    {issuerId : String} {nowMs : Int} {e : Exn}
    (h : journal.claim sha256 assignment issuerId nowMs = .error e) :
    onDatabase sha256 loads (.idle journal) (.claim assignment issuerId nowMs) =
      (.error e, .idle journal) := by
  have hrefines := claim_refines sha256 assignment issuerId nowMs journal
  rw [h] at hrefines
  exact respond_of_error (bind_of_error hrefines)

theorem inMemory_claim {memory memory' : MemoryJournal} {assignment : Assignment}
    {issuerId : String} {nowMs : Int} {result : ClaimResult}
    (h : MemoryJournal.claim sha256 assignment issuerId memory = .ok result memory') :
    inMemory sha256 memory (.claim assignment issuerId nowMs) =
      (.ok (.claimed result), memory') :=
  respond_of_ok (bind_of_ok h)

theorem claim_of_row {journal : Journal} {assignment : Assignment} {row : JournalRecord}
    (hrow : journal.lookup assignment.assignmentId = some row) (issuerId : String)
    (nowMs : Int) :
    journal.claim sha256 assignment issuerId nowMs =
      .ok (MemoryJournal.answerFor sha256 row assignment issuerId, journal) := by
  unfold Journal.claim MemoryJournal.answerFor
  rw [hrow]
  dsimp only
  split_ifs
  · rfl
  · cases row.outcome <;> rfl

theorem Twins.answerFor {row held : JournalRecord} (h : Twins sha256 loads known row held)
    (assignment : Assignment) (issuerId : String) :
    exists shown, Connection.decodedClaim loads
        (MemoryJournal.answerFor sha256 row assignment issuerId) = .ok shown ∧
      shown.equal (MemoryJournal.answerFor sha256 held assignment issuerId) = true := by
  unfold MemoryJournal.answerFor
  rw [h.fingerprint_eq, h.issuerId]
  split_ifs
  · exact ⟨.conflict, rfl, rfl⟩
  · rcases h.outcomes with ⟨hrow, hheld⟩ | ⟨a, b, hrow, hheld, hnormal⟩
    · rw [hrow, hheld]
      exact ⟨.uncertain, rfl, rfl⟩
    · rw [hrow, hheld]
      refine ⟨.replay a.normal, ?_, ?_⟩
      · unfold Connection.decodedClaim
        dsimp only
        rw [(h.rowKept.outcome a hrow).decoded]
        rfl
      · show a.normal.equal b = true
        rw [hnormal]
        exact Outcome.normal_equal (h.heldKept.outcome b hheld).distinct

theorem judged_claim {journal : Journal} {memory : MemoryJournal}
    (h : Paired sha256 loads known journal memory) {assignment : Assignment}
    (hstorable : assignment.Storable loads) (hknown : known assignment) (issuerId : String)
    (nowMs : Int) :
    Judged sha256 loads known (.idle journal) memory (.claim assignment issuerId nowMs) := by
  rcases h.lookup_cases assignment.assignmentId with
    ⟨hrow, hheld⟩ | ⟨row, held, hrow, hheld, htwins⟩
  · cases htaken : memory.taken assignment with
    | true =>
        have hconflict := h.taken_eq assignment
        rw [htaken] at hconflict
        have hclaim : journal.claim sha256 assignment issuerId nowMs =
            .ok (.resourceConflict, journal) := by
          unfold Journal.claim
          rw [hrow]
          exact if_pos hconflict.symm
        apply judged_of_alike _ (onDatabase_claim hclaim rfl)
          (inMemory_claim (MemoryJournal.claim_of_taken hheld htaken issuerId)) rfl h
        intro _ hfree
        rw [htaken] at hfree
        cases hfree
    | false =>
        have hconflict := h.taken_eq assignment
        rw [htaken] at hconflict
        have hmemory := @inMemory_claim sha256 _ _ assignment issuerId nowMs _
          (MemoryJournal.claim_of_free hheld htaken issuerId)
        cases hnow : bindInteger nowMs with
        | ok v =>
            rcases h.admitted hstorable hknown hrow hconflict.symm hnow issuerId with
              ⟨journal', hclaim, hpaired⟩
            exact judged_of_alike (fun _ _ => hnow) (onDatabase_claim hclaim rfl) hmemory rfl
              hpaired
        | error e =>
            have hclaim : journal.claim sha256 assignment issuerId nowMs = .error e := by
              unfold Journal.claim
              rw [hrow]
              dsimp only
              rw [← hconflict, hnow]
              rfl
            apply judged_of_differing _ (onDatabase_claim_raised hclaim) hmemory id
            intro hfirm
            have hfits := hfirm hheld htaken
            rw [hnow] at hfits
            cases hfits
  · rcases htwins.answerFor assignment issuerId with ⟨shown, hshown, hequal⟩
    apply judged_of_alike _ (onDatabase_claim (claim_of_row hrow issuerId nowMs) hshown)
      (inMemory_claim (MemoryJournal.claim_of_record hheld issuerId)) hequal h
    intro hnone
    rw [hheld] at hnone
    cases hnone

/-!
### Completions
-/

theorem onDatabase_complete {journal journal' : Journal} {assignment : Assignment}
    {outcome : Outcome} {nowMs : Int}
    (h : journal.complete sha256 assignment outcome nowMs = .ok journal') :
    onDatabase sha256 loads (.idle journal) (.complete assignment outcome nowMs) =
      (.ok .completed, .idle journal') := by
  have hrefines := complete_refines sha256 assignment outcome nowMs journal
  rw [h] at hrefines
  exact respond_of_ok (bind_of_ok hrefines)

theorem onDatabase_complete_raised {journal : Journal} {assignment : Assignment}
    {outcome : Outcome} {nowMs : Int} {e : Exn}
    (h : journal.complete sha256 assignment outcome nowMs = .error e) :
    onDatabase sha256 loads (.idle journal) (.complete assignment outcome nowMs) =
      (.error e, .idle journal) := by
  have hrefines := complete_refines sha256 assignment outcome nowMs journal
  rw [h] at hrefines
  exact respond_of_error (bind_of_error hrefines)

theorem inMemory_complete {memory memory' : MemoryJournal} {assignment : Assignment}
    {outcome : Outcome} {nowMs : Int}
    (h : MemoryJournal.complete sha256 assignment outcome memory = .ok () memory') :
    inMemory sha256 memory (.complete assignment outcome nowMs) = (.ok .completed, memory') :=
  respond_of_ok (bind_of_ok h)

theorem inMemory_complete_raised {memory : MemoryJournal} {assignment : Assignment}
    {outcome : Outcome} {nowMs : Int} {e : Exn}
    (h : MemoryJournal.complete sha256 assignment outcome memory = .error e memory) :
    inMemory sha256 memory (.complete assignment outcome nowMs) = (.error e, memory) :=
  respond_of_error (bind_of_error h)

theorem complete_of_row {journal : Journal} {assignment : Assignment} {row : JournalRecord}
    (hrow : journal.lookup assignment.assignmentId = some row) (outcome : Outcome)
    (nowMs : Int) :
    journal.complete sha256 assignment outcome nowMs =
      if row.fingerprint ≠ assignmentFingerprint sha256 assignment then
        .error (.value "cannot complete an unclaimed or conflicting assignment")
      else if row.outcome.any (fun other => decide (other.canonical ≠ outcome.canonical)) then
        .error (.value "terminal assignment outcome is immutable")
      else
        bindInteger nowMs >>= fun _ =>
          .ok (journal.record assignment.assignmentId outcome) := by
  unfold Journal.complete
  rw [hrow]
  dsimp only
  by_cases hfingerprint : row.fingerprint ≠ assignmentFingerprint sha256 assignment
  · rw [if_pos hfingerprint, decide_eq_true hfingerprint]
    rfl
  · rw [if_neg hfingerprint, decide_eq_false hfingerprint]
    cases row.outcome.any (fun other => decide (other.canonical ≠ outcome.canonical)) <;> rfl

theorem Twins.same_text {row held : JournalRecord} (h : Twins sha256 loads known row held)
    (outcome : Outcome) :
    (forall other, row.outcome = some other -> other.canonical = outcome.canonical) <->
      forall other, held.outcome = some other -> other.canonical = outcome.canonical := by
  rcases h.outcomes with ⟨hrow, hheld⟩ | ⟨a, b, hrow, hheld, hnormal⟩
  · simp [hrow, hheld]
  · have hcanonical := ((h.rowKept.outcome a hrow).canonical_eq_iff
      (h.heldKept.outcome b hheld)).mpr hnormal
    simp [hrow, hheld, hcanonical]

theorem any_of_other_text {found : Option Outcome} {outcome : Outcome} :
    found.any (fun other => decide (other.canonical ≠ outcome.canonical)) = false <->
      forall other, found = some other -> other.canonical = outcome.canonical := by
  cases found <;> simp

theorem any_unequal {found : Option Outcome} {outcome : Outcome} :
    found.any (fun other => !other.equal outcome) = false <->
      forall other, found = some other -> other.equal outcome = true := by
  cases found <;> simp

theorem judged_outcome {journal : Journal} {memory : MemoryJournal}
    (h : Paired sha256 loads known journal memory) {assignment : Assignment}
    {outcome : Outcome} {row held : JournalRecord} (hassignment : assignment.Storable loads)
    (hknown : known assignment) (houtcome : outcome.Storable loads)
    (hrow : journal.lookup assignment.assignmentId = some row)
    (hheld : memory.records assignment.assignmentId = some held)
    (htwins : Twins sha256 loads known row held)
    (hfingerprint : row.fingerprint = assignmentFingerprint sha256 assignment)
    (htext : row.assignment.canonical = assignment.canonical) (nowMs : Int) :
    Judged sha256 loads known (.idle journal) memory (.complete assignment outcome nowMs) := by
  have hdatabase := @complete_of_row sha256 _ _ _ hrow outcome nowMs
  have hmemory := @MemoryJournal.complete_of_record sha256 _ _ _ hheld outcome
  have hother := hfingerprint
  rw [htwins.fingerprint_eq] at hother
  rw [if_neg (not_not.mpr hfingerprint)] at hdatabase
  rw [if_neg (not_not.mpr hother)] at hmemory
  cases hunequal : held.outcome.any (fun other => !other.equal outcome) with
  | true =>
      -- an outcome of the same text would be equal
      have hdiffers : row.outcome.any
          (fun other => decide (other.canonical ≠ outcome.canonical)) = true := by
        by_contra hnone
        have hsame := (htwins.same_text outcome).mp
          (any_of_other_text.mp (Bool.eq_false_iff.mpr hnone))
        have hequal := any_unequal.mpr (fun stored hstored =>
          (htwins.heldKept.outcome stored hstored).equal houtcome (hsame stored hstored))
        rw [hunequal] at hequal
        cases hequal
      rw [hdiffers] at hdatabase
      rw [hunequal] at hmemory
      apply judged_of_alike _ (onDatabase_complete_raised hdatabase)
        (inMemory_complete_raised hmemory) rfl h
      intro record hrecord _ hequal
      rw [hheld] at hrecord
      cases hrecord
      rw [any_unequal.mpr hequal] at hunequal
      cases hunequal
  | false =>
      rw [hunequal] at hmemory
      have hreturned := @inMemory_complete sha256 _ _ _ _ nowMs hmemory
      have hfirm : Firm sha256 memory (.complete assignment outcome nowMs) ->
          (forall other, held.outcome = some other -> other.canonical = outcome.canonical) ∧
            bindInteger nowMs = .ok () :=
        fun hall => hall held hheld hother (any_unequal.mp hunequal)
      cases hdiffers : row.outcome.any
          (fun other => decide (other.canonical ≠ outcome.canonical)) with
      | true =>
          rw [hdiffers] at hdatabase
          apply judged_of_differing _ (onDatabase_complete_raised hdatabase) hreturned id
          intro hall
          have hsame := any_of_other_text.mpr ((htwins.same_text outcome).mpr (hfirm hall).1)
          rw [hdiffers] at hsame
          cases hsame
      | false =>
          have hsame := any_of_other_text.mp hdiffers
          rw [hdiffers] at hdatabase
          cases hnow : bindInteger nowMs with
          | error e =>
              rw [hnow] at hdatabase
              apply judged_of_differing _ (onDatabase_complete_raised hdatabase) hreturned id
              intro hall
              have hfits := (hfirm hall).2
              rw [hnow] at hfits
              cases hfits
          | ok v =>
              rw [hnow] at hdatabase
              apply judged_of_alike _ (onDatabase_complete hdatabase) hreturned rfl
              · exact h.completed hassignment hknown houtcome hrow htwins htext hsame
              · intro record hrecord _ _
                rw [hheld] at hrecord
                cases hrecord
                exact ⟨(htwins.same_text outcome).mp hsame, hnow⟩

theorem judged_complete {journal : Journal} {memory : MemoryJournal}
    (h : Paired sha256 loads known journal memory)
    (hdistinguishes : MemoryJournal.Distinguishes sha256 known) {assignment : Assignment}
    {outcome : Outcome} (hassignment : assignment.Storable loads) (hknown : known assignment)
    (houtcome : outcome.Storable loads) (nowMs : Int) :
    Judged sha256 loads known (.idle journal) memory (.complete assignment outcome nowMs) := by
  rcases h.lookup_cases assignment.assignmentId with
    ⟨hrow, hheld⟩ | ⟨row, held, hrow, hheld, htwins⟩
  · have hdatabase : journal.complete sha256 assignment outcome nowMs =
        .error (.value "cannot complete an unclaimed or conflicting assignment") := by
      unfold Journal.complete
      rw [hrow]
    have hmemory : MemoryJournal.complete sha256 assignment outcome memory =
        .error (.value "cannot complete an unclaimed or conflicting assignment") memory := by
      unfold MemoryJournal.complete
      rw [MemoryJournal.get_bind, hheld]
      rfl
    apply judged_of_alike _ (onDatabase_complete_raised hdatabase)
      (inMemory_complete_raised hmemory) rfl h
    intro other hother
    rw [hheld] at hother
    cases hother
  · by_cases hfingerprint : row.fingerprint = assignmentFingerprint sha256 assignment
    · exact judged_outcome h hassignment hknown houtcome hrow hheld htwins hfingerprint
        (htwins.text_eq hdistinguishes hknown hfingerprint) nowMs
    · have hdatabase := @complete_of_row sha256 _ _ _ hrow outcome nowMs
      have hmemory := @MemoryJournal.complete_of_record sha256 _ _ _ hheld outcome
      have hother := hfingerprint
      rw [htwins.fingerprint_eq] at hother
      rw [if_pos hfingerprint] at hdatabase
      rw [if_pos hother] at hmemory
      apply judged_of_alike _ (onDatabase_complete_raised hdatabase)
        (inMemory_complete_raised hmemory) rfl h
      intro record hrecord hsame
      rw [hheld] at hrecord
      cases hrecord
      exact absurd hsame hother

/-!
### Lookups and resolutions
-/

theorem select_lookup {journal : Journal} {assignmentId : String} {row? : Option JournalRecord}
    (h : journal.lookup assignmentId = row?) :
    (Sql.select (fun j => j.lookup assignmentId) : Method (Option JournalRecord))
      (.idle journal) = .ok row? (.idle journal) := by
  rw [<- h]
  rfl

theorem onDatabase_lookup_none {journal : Journal} {assignmentId : String}
    (h : journal.lookup assignmentId = none) :
    onDatabase sha256 loads (.idle journal) (.lookup assignmentId) =
      (.ok (.found none), .idle journal) := by
  have hlookup : Connection.lookup loads assignmentId (.idle journal) =
      .ok none (.idle journal) := by
    unfold Connection.lookup
    rw [bind_of_ok (select_lookup h)]
    rfl
  exact respond_of_ok (bind_of_ok hlookup)

theorem onDatabase_lookup_some {journal : Journal} {assignmentId : String}
    {row : JournalRecord} {record : RecordView} (h : journal.lookup assignmentId = some row)
    (hdecoded : Connection.decodedRecord loads row = .ok record) :
    onDatabase sha256 loads (.idle journal) (.lookup assignmentId) =
      (.ok (.found (some record)), .idle journal) := by
  have hlookup : Connection.lookup loads assignmentId (.idle journal) =
      .ok (some record) (.idle journal) := by
    unfold Connection.lookup
    rw [bind_of_ok (select_lookup h)]
    apply bind_of_ok
    unfold Sql.compute
    rw [hdecoded]
  exact respond_of_ok (bind_of_ok hlookup)

theorem inMemory_lookup (memory : MemoryJournal) (assignmentId : String) :
    inMemory sha256 memory (.lookup assignmentId) =
      (.ok (.found ((memory.records assignmentId).map JournalRecord.view)), memory) := rfl

theorem judged_lookup {journal : Journal} {memory : MemoryJournal}
    (h : Paired sha256 loads known journal memory) (assignmentId : String) :
    Judged sha256 loads known (.idle journal) memory (.lookup assignmentId) := by
  have hmemory := @inMemory_lookup sha256 memory assignmentId
  rcases h.lookup_cases assignmentId with ⟨hrow, hheld⟩ | ⟨row, held, hrow, hheld, htwins⟩
  · rw [hheld] at hmemory
    exact judged_of_alike trivial (onDatabase_lookup_none hrow) hmemory rfl h
  · rcases htwins.decoded with ⟨record, hdecoded, hequal⟩
    rw [hheld] at hmemory
    exact judged_of_alike trivial (onDatabase_lookup_some hrow hdecoded) hmemory hequal h

theorem judged_resolveUnknown {journal : Journal} {memory : MemoryJournal}
    (h : Paired sha256 loads known journal memory) (assignmentId : String)
    (status : AssignmentStatus) (description resolverId evidence : String) (nowMs : Int) :
    Judged sha256 loads known (.idle journal) memory
      (.resolveUnknown assignmentId status description resolverId evidence nowMs) := by
  have hraised : exists e,
      journal.resolveUnknown assignmentId status description resolverId evidence nowMs =
        .error e ∧
      MemoryJournal.resolveUnknown sha256 assignmentId status description resolverId evidence
        memory = .error e memory := by
    unfold Journal.resolveUnknown MemoryJournal.resolveUnknown
    cases hvalid : validateResolution status resolverId evidence with
    | error e => exact ⟨e, rfl, rfl⟩
    | ok v =>
        rw [MemoryJournal.check_bind, MemoryJournal.get_bind]
        rcases h.lookup_cases assignmentId with
          ⟨hrow, hheld⟩ | ⟨row, held, hrow, hheld, htwins⟩
        · rw [hheld]
          simp only [bind, Except.bind]
          rw [hrow]
          exact ⟨_, rfl, rfl⟩
        · have hrefused : forall record : JournalRecord, Kept sha256 loads known record ->
              (decide (record.status ≠ .unknown) || record.outcome.isSome) = true := by
            intro record hkept
            cases houtcome : record.outcome with
            | some outcome => simp
            | none => simp [hkept.accepted houtcome]
          rw [hheld]
          simp only [bind, Except.bind]
          rw [hrow]
          dsimp only
          rw [hrefused row htwins.rowKept, hrefused held htwins.heldKept]
          exact ⟨_, rfl, rfl⟩
  rcases hraised with ⟨e, hdatabase, hmemory⟩
  have hrefines := resolveUnknown_refines assignmentId status description resolverId evidence
    nowMs journal
  rw [hdatabase] at hrefines
  exact judged_of_alike trivial (respond_of_error (bind_of_error hrefines))
    (respond_of_error (bind_of_error hmemory)) rfl h

/-!
## Every sequence of calls
-/

def Presented (calls : List Call) (assignment : Assignment) : Prop :=
  exists call, call ∈ calls ∧ assignment ∈ call.assignments

theorem judged {calls : List Call}
    (hstorable : forall call, call ∈ calls -> call.Storable loads)
    (hdistinguishes : MemoryJournal.Distinguishes sha256 (Presented calls)) :
    Lockstep (onDatabase sha256 loads) (inMemory sha256) Alike
      (Corresponds sha256 loads (Presented calls)) (Firm sha256) calls := by
  rintro s memory call ⟨journal, rfl, hpaired⟩ hcall
  have hgiven := hstorable call hcall
  have hknown : forall assignment, assignment ∈ call.assignments -> Presented calls assignment :=
    fun assignment hassignment => ⟨call, hcall, hassignment⟩
  cases call with
  | claim assignment issuerId nowMs =>
      exact judged_claim hpaired hgiven (hknown assignment (List.mem_singleton_self _)) issuerId
        nowMs
  | complete assignment outcome nowMs =>
      exact judged_complete hpaired hdistinguishes hgiven.1
        (hknown assignment (List.mem_singleton_self _)) hgiven.2 nowMs
  | lookup assignmentId => exact judged_lookup hpaired assignmentId
  | resolveUnknown assignmentId status description resolverId evidence nowMs =>
      exact judged_resolveUnknown hpaired assignmentId status description resolverId evidence nowMs

/-- Every row comes back as a record that equals the one in memory, and every resource is
reserved for the same assignment. -/
def HoldSame (sha256 : Text -> String) (loads : Text -> Except Exn Json) (s : Session Journal)
    (memory : MemoryJournal) : Prop :=
  (forall assignmentId, Alike (onDatabase sha256 loads s (.lookup assignmentId)).1
    (inMemory sha256 memory (.lookup assignmentId)).1) ∧
  forall resource, s.committed.owner? resource = memory.resources resource

theorem Corresponds.holdSame {s : Session Journal} {memory : MemoryJournal}
    (h : Corresponds sha256 loads known s memory) : HoldSame sha256 loads s memory := by
  rcases h with ⟨journal, rfl, hpaired⟩
  refine ⟨?_, hpaired.owners⟩
  intro assignmentId
  rcases judged_lookup hpaired assignmentId with ⟨_, halike, _⟩ | ⟨hfirm, _⟩
  · exact halike
  · exact absurd trivial hfirm

end

/-- Two new journals give the same answers to a sequence of calls, and hold the same after it,
exactly when every call of the sequence is firm. -/
theorem journals_agree (sha256 : Text -> String) (loads : Text -> Except Exn Json)
    (calls : List Call) (hstorable : forall call, call ∈ calls -> call.Storable loads)
    (hdistinguishes : MemoryJournal.Distinguishes sha256 (Presented calls)) :
    (List.Forall₂ Alike ((onDatabase sha256 loads).answers (.idle .empty) calls)
        ((inMemory sha256).answers .empty calls) ∧
      HoldSame sha256 loads ((onDatabase sha256 loads).final (.idle .empty) calls)
        ((inMemory sha256).final .empty calls)) <->
      (inMemory sha256).Meets (Firm sha256) .empty calls := by
  have hlockstep := judged hstorable hdistinguishes
  have hempty : Corresponds sha256 loads (Presented calls) (.idle .empty) .empty :=
    ⟨_, rfl, paired_empty⟩
  rw [hlockstep.answers_iff hempty, and_iff_left_iff_imp]
  intro hmeets
  exact (hlockstep.final_related hempty hmeets).holdSame

def dockOutcome (x : Json) : Outcome where
  assignmentId := "a"
  robotId := "r1"
  succeeded := true
  description := "Docked"
  status := .succeeded
  outputs := .obj [("x", x)]
  flagAgrees := rfl
  notAccepted := patrolArrived.notAccepted

def dockLoads (text : Text) : Except Exn Json :=
  if text = (dockOrder "a").canonical then .ok (dockOrder "a").payload.sorted
  else if text = (dockOutcome (.int 1)).canonical then .ok (dockOutcome (.int 1)).payload.sorted
  else .ok (dockOutcome (.float 1 "1.0")).payload.sorted

/-- The dock is claimed and the outcome recorded twice, the second time with the given
number. -/
def dockCalls (x : Json) : List Call :=
  [.claim (dockOrder "a") "c" 0, .complete (dockOrder "a") (dockOutcome (.int 1)) 1,
    .complete (dockOrder "a") (dockOutcome x) 2, .lookup "a"]

theorem storable_dockCalls {x : Json} (h : x = .int 1 ∨ x = .float 1 "1.0") :
    forall call, call ∈ dockCalls x -> call.Storable dockLoads := by
  have hassignment : (dockOrder "a").Storable dockLoads :=
    ⟨by decide, by decide, if_pos rfl⟩
  have hint : (dockOutcome (.int 1)).Storable dockLoads := by
    refine ⟨by rfl, by decide, ?_⟩
    show dockLoads (dockOutcome (.int 1)).canonical = _
    unfold dockLoads
    rw [if_neg (by decide), if_pos rfl]
  have hfloat : (dockOutcome (.float 1 "1.0")).Storable dockLoads := by
    refine ⟨by rfl, by decide, ?_⟩
    show dockLoads (dockOutcome (.float 1 "1.0")).canonical = _
    unfold dockLoads
    rw [if_neg (by decide), if_neg (by decide)]
  have hlast : (dockOutcome x).Storable dockLoads := by
    rcases h with rfl | rfl
    · exact hint
    · exact hfloat
  intro call hcall
  simp only [dockCalls, List.mem_cons, List.not_mem_nil, or_false] at hcall
  rcases hcall with rfl | rfl | rfl | rfl
  · exact hassignment
  · exact ⟨hassignment, hint⟩
  · exact ⟨hassignment, hlast⟩
  · exact trivial

theorem distinguishes_ofList (known : Assignment -> Prop) :
    MemoryJournal.Distinguishes String.ofList known :=
  fun _ _ _ _ hsame => String.ofList_injective hsame

theorem firm_of_text {memory : MemoryJournal} {assignment : Assignment} {outcome : Outcome}
    {nowMs : Int} {text : Option Text}
    (h : (memory.records assignment.assignmentId).map
      (fun held => held.outcome.map Outcome.canonical) = some text)
    (htext : text = none ∨ text = some outcome.canonical) (hnow : bindInteger nowMs = .ok ()) :
    Firm String.ofList memory (.complete assignment outcome nowMs) := by
  intro held hheld _ _
  refine ⟨?_, hnow⟩
  intro other hother
  rw [hheld, Option.map_some, hother, Option.map_some] at h
  rcases htext with rfl | rfl
  · cases h
  · exact Option.some.inj (Option.some.inj h)

theorem dock_outcome_repeated :
    (inMemory String.ofList).Meets (Firm String.ofList) .empty (dockCalls (.int 1)) ∧
      (List.Forall₂ Alike
        ((onDatabase String.ofList dockLoads).answers (.idle .empty) (dockCalls (.int 1)))
        ((inMemory String.ofList).answers .empty (dockCalls (.int 1))) ∧
      HoldSame String.ofList dockLoads
        ((onDatabase String.ofList dockLoads).final (.idle .empty) (dockCalls (.int 1)))
        ((inMemory String.ofList).final .empty (dockCalls (.int 1)))) := by
  have hagree := journals_agree String.ofList dockLoads (dockCalls (.int 1))
    (storable_dockCalls (Or.inl rfl)) (distinguishes_ofList _)
  have hmeets : (inMemory String.ofList).Meets (Firm String.ofList) .empty
      (dockCalls (.int 1)) := by
    refine ⟨fun _ _ => rfl, ?_, ?_, trivial, trivial⟩
    · exact firm_of_text (by rfl) (Or.inl rfl) rfl
    · exact firm_of_text (by decide +kernel) (Or.inr rfl) rfl
  exact ⟨hmeets, hagree.mpr hmeets⟩

def returned : Except Exn Answer -> Bool
  | .ok _ => true
  | .error _ => false

theorem returned_eq {xs ys : List (Except Exn Answer)} (h : List.Forall₂ Alike xs ys) :
    xs.map returned = ys.map returned := by
  induction h with
  | nil => rfl
  | @cons x y _ _ halike _ ih =>
      rw [List.map_cons, List.map_cons, ih]
      cases x with
      | ok a =>
          cases y with
          | ok b => rfl
          | error e => cases halike
      | error e =>
          cases y with
          | ok b => cases halike
          | error e' => rfl

/-- The outcome is recorded again with the number as a float. It equals the recorded one, but
has another text. -/
theorem dock_outcome_respelled :
    (forall call, call ∈ dockCalls (.float 1 "1.0") -> call.Storable dockLoads) ∧
      MemoryJournal.Distinguishes String.ofList (Presented (dockCalls (.float 1 "1.0"))) ∧
      ¬ (List.Forall₂ Alike
          ((onDatabase String.ofList dockLoads).answers (.idle .empty)
            (dockCalls (.float 1 "1.0")))
          ((inMemory String.ofList).answers .empty (dockCalls (.float 1 "1.0"))) ∧
        HoldSame String.ofList dockLoads
          ((onDatabase String.ofList dockLoads).final (.idle .empty)
            (dockCalls (.float 1 "1.0")))
          ((inMemory String.ofList).final .empty (dockCalls (.float 1 "1.0")))) := by
  refine ⟨storable_dockCalls (Or.inr rfl), distinguishes_ofList _, ?_⟩
  rintro ⟨hanswers, _⟩
  have hreturned := returned_eq hanswers
  revert hreturned
  decide +kernel

end Ump.Participant
