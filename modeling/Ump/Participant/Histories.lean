import Ump.Participant.Execution
import Ump.Participant.Identity

/-!
# The participant's journal as a history

## The operation of a task

A task makes at most one journal operation. The journal of a participant is therefore
that of a history of operations, and what holds after every history holds of it.
-/

namespace Ump.Participant

open Foundation Journal

def Task.operation? (config : Config) (r : Reading) : Task -> Option Operation
  | .claim delivery =>
      some (.claim delivery.assignment delivery.envelope.sourceId delivery.reading.nowMs)
  | .complete delivery outcome nowMs => some (.complete delivery.assignment outcome nowMs)
  | .recordCancellation cancelled description _ =>
      match ownOutcome config cancelled.assignmentId .cancelled description with
      | .ok outcome => some (.complete cancelled outcome r.nowMs)
      | .error _ => none
  | .resolveUnknown assignmentId status description resolverId evidence nowMs =>
      some (.resolveUnknown assignmentId status description resolverId evidence nowMs)
  | _ => none

/-- The journal after the operation of a task, if it makes one. -/
def Journal.after (sha256 : Text -> String) (journal : Journal) (operation : Option Operation) :
    Journal :=
  operation.elim journal (journal.apply sha256)

theorem journal_answer (m : Memory) (delivery : Delivery) (description : String)
    (outcome : Except Exn Outcome) :
    (answer m delivery description outcome).1.journal = m.journal := by
  unfold answer
  cases outcome <;> rfl

theorem journal_attempt {m : Memory} {x : Except Exn value} {next : value -> Memory × Flow Task}
    (h : forall v, x = .ok v -> (next v).1.journal = m.journal) :
    (attempt m x next).1.journal = m.journal := by
  cases x with
  | ok v => exact h v rfl
  | error e => rfl

theorem exec_journal (config : Config) (m : Memory) (t : Task) (r : Reading) :
    (exec config m t r).1.journal = m.journal.after config.sha256 (t.operation? config r) := by
  cases t with
  | assignment envelope =>
      rw [exec]
      apply journal_attempt
      rintro (_ | assignment) _
      · rfl
      · dsimp only
        cases checkDelivery config assignment r with
        | ok _ => rfl
        | error refusal =>
            cases refusal with
            | rejected description => exact journal_answer _ _ _ _
            | raised => rfl
  | claim delivery =>
      show _ = m.journal.apply config.sha256 _
      rw [exec, apply_claim]
      cases hclaim : m.journal.claim config.sha256 delivery.assignment
          delivery.envelope.sourceId delivery.reading.nowMs with
      | error e => rfl
      | ok claimed =>
          rcases claimed with ⟨result, journal⟩
          cases result with
          | new => rfl
          | _ =>
              dsimp only [attempt]
              exact journal_answer _ _ _ _
  | complete delivery outcome nowMs =>
      show _ = m.journal.apply config.sha256 _
      rw [exec, apply_complete]
      cases m.journal.complete config.sha256 delivery.assignment outcome nowMs <;> rfl
  | recordCancellation assignment description envelope =>
      rw [exec, Task.operation?]
      cases ownOutcome config assignment.assignmentId .cancelled description with
      | error e => rfl
      | ok outcome =>
          show _ = m.journal.apply config.sha256 _
          rw [apply_complete]
          show (attempt m (m.journal.complete config.sha256 assignment outcome r.nowMs)
            _).1.journal = _
          cases m.journal.complete config.sha256 assignment outcome r.nowMs <;> rfl
  | resolveUnknown assignmentId status description resolverId evidence nowMs =>
      show _ = m.journal.apply config.sha256 _
      rw [exec, apply_resolveUnknown]
      cases m.journal.resolveUnknown assignmentId status description resolverId evidence
        nowMs <;> rfl
  | work =>
      rw [exec]
      cases m.queue <;> rfl
  | settle delivery =>
      rw [exec]
      exact journal_attempt (fun _ _ => rfl)
  | lookupLatest delivery outcome =>
      rw [exec]
      cases (m.journal.lookup delivery.assignment.assignmentId).bind
        (fun latest => latest.outcome) <;> rfl
  | publishState nowMs cause =>
      rw [exec]
      cases r.state <;> rfl
  | assignmentQuery envelope =>
      rw [exec]
      apply journal_attempt
      rintro (_ | record) _ <;> rfl
  | cancellationRequest envelope =>
      rw [exec]
      apply journal_attempt
      intro _ _
      apply journal_attempt
      rintro (_ | record) _
      · rfl
      · dsimp only
        cases record.outcome with
        | some outcome => rfl
        | none =>
            dsimp only
            split_ifs <;> rfl
  | cancelNative assignment envelope =>
      rw [exec]
      rcases r.cancelled with _ | ⟨_ | _, description⟩ <;> rfl
  | send message stamp cause =>
      rw [exec]
      exact journal_attempt (fun _ _ => rfl)
  | _ => rfl

/-!
## What a history leaves

Assignments in the journal have been built, and only a record with an outcome has been
resolved.
-/

def Journal.Operation.Built : Operation -> Prop
  | .claim assignment _ _ => assignment.check = .ok ()
  | _ => True

structure Orderly (journal : Journal) : Prop where
  reserved : Reserved journal
  built : forall assignmentId record, journal.lookup assignmentId = some record ->
    record.assignment.check = .ok ()
  resolved : forall resolution, resolution ∈ journal.resolutions.rows -> exists record,
    journal.lookup resolution.assignmentId = some record ∧ record.outcome ≠ none

theorem orderly_empty : Orderly Journal.empty where
  reserved := reserved_empty
  built assignmentId record h := by cases h
  resolved resolution h := by cases h

theorem commit_resolutions {sha256 : Text -> String} {journal journal' : Journal}
    {operation : Operation} {answer : Option ClaimResult}
    (h : journal.commit sha256 operation = .ok (answer, journal')) {resolution : Resolution}
    (hresolution : resolution ∈ journal'.resolutions.rows) :
    resolution ∈ journal.resolutions.rows ∨
      exists record, journal'.lookup resolution.assignmentId = some record ∧
        record.outcome ≠ none := by
  cases operation with
  | claim assignment issuerId nowMs =>
      rcases bind_eq_ok.mp h with ⟨⟨result, claimed⟩, hclaim, hresult⟩
      cases hresult
      cases claim_cases hclaim <;> exact Or.inl hresolution
  | complete assignment outcome nowMs =>
      rcases bind_eq_ok.mp h with ⟨completed, hcomplete, hresult⟩
      cases hresult
      rw [(complete_eq_ok hcomplete).1] at hresolution
      exact Or.inl hresolution
  | resolveUnknown assignmentId status description resolverId evidence nowMs =>
      rcases bind_eq_ok.mp h with ⟨⟨outcome, resolved⟩, hresolve, hresult⟩
      cases hresult
      have hresolved := resolved_of_resolveUnknown hresolve
      rcases hresolved.unknown with ⟨stored, hstored, _, hopen⟩
      rcases hresolved.left with ⟨resolutions, added, hinsert, hid, rfl⟩
      have hrows : resolution ∈ resolutions.rows := hresolution
      rw [(Table.insert?_eq_some hinsert).1] at hrows
      rcases List.mem_append.mp hrows with hold | hnew
      · exact Or.inl hold
      · right
        rw [List.mem_singleton.mp hnew, hid]
        refine ⟨_, lookup_record_self hstored outcome, ?_⟩
        rw [(recorded_of_open hopen outcome).2.1]
        exact Option.some_ne_none outcome
  | reopen =>
      cases h
      exact Or.inl hresolution

theorem apply_of_ok {sha256 : Text -> String} {journal journal' : Journal}
    {operation : Operation} {answer : Option ClaimResult}
    (h : journal.commit sha256 operation = .ok (answer, journal')) :
    journal.apply sha256 operation = journal' := by
  unfold Journal.apply
  rw [h]

theorem apply_of_error {sha256 : Text -> String} {journal : Journal} {operation : Operation}
    {e : Exn} (h : journal.commit sha256 operation = .error e) :
    journal.apply sha256 operation = journal := by
  unfold Journal.apply
  rw [h]

theorem Orderly.apply {sha256 : Text -> String} {journal : Journal} (h : Orderly journal)
    {operation : Operation} (hbuilt : operation.Built) :
    Orderly (journal.apply sha256 operation) := by
  have hgrows := grows_apply sha256 journal operation
  have hreserved := @Reserved.apply sha256 journal h.reserved operation
  cases hcommit : journal.commit sha256 operation with
  | error e =>
      rw [apply_of_error hcommit]
      exact h
  | ok result =>
      rcases result with ⟨answer, journal'⟩
      rw [apply_of_ok hcommit] at hgrows hreserved ⊢
      refine ⟨hreserved, ?_, ?_⟩
      · intro assignmentId record hrecord
        cases commit_comes hcommit hrecord with
        | kept hbefore hcontinues =>
            rw [hcontinues.assignment]
            exact h.built assignmentId _ hbefore
        | claimed hoperation _ _ hnew =>
            subst hoperation hnew
            exact hbuilt
      · intro resolution hresolution
        rcases commit_resolutions hcommit hresolution with hold | hnew
        · rcases h.resolved resolution hold with ⟨record, hrecord, hsettled⟩
          rcases hgrows _ record hrecord with ⟨record', hrecord', hcontinues⟩
          refine ⟨record', hrecord', ?_⟩
          rw [hcontinues.settled hsettled]
          exact hsettled
        · exact hnew

theorem assignmentOf_built {robotId : String} {data : Json} {assignment : Assignment}
    (h : assignmentOf robotId data = .ok (some assignment)) : assignment.check = .ok () := by
  rcases bind_eq_ok.mp h with ⟨step, _, h⟩
  rcases bind_eq_ok.mp h with ⟨assigned, _, h⟩
  split_ifs at h
  · rcases bind_eq_ok.mp h with ⟨decoded, hdecoded, h⟩
    cases h
    unfold decodeAssignment at hdecoded
    rcases bind_eq_ok.mp hdecoded with ⟨_, _, hdecoded⟩
    rcases bind_eq_ok.mp hdecoded with ⟨_, _, hdecoded⟩
    rcases bind_eq_ok.mp hdecoded with ⟨_, _, hdecoded⟩
    rcases bind_eq_ok.mp hdecoded with ⟨_, _, hdecoded⟩
    rcases bind_eq_ok.mp hdecoded with ⟨_, _, hdecoded⟩
    rcases bind_eq_ok.mp hdecoded with ⟨_, hchecked, hdecoded⟩
    cases hdecoded
    exact hchecked
  · cases h

theorem built_operation {config : Config} {m : Memory} {t : Task} {ts : Multiset Task}
    (hclaims : Claims config m ts) (ht : t ∈ ts) {r : Reading} {operation : Operation}
    (hoperation : t.operation? config r = some operation) : operation.Built := by
  cases t with
  | claim delivery =>
      cases hoperation
      have hadmitted := hclaims.claiming _ delivery ht rfl
      exact assignmentOf_built (hclaims.admitted delivery hadmitted).decoded
  | complete delivery outcome nowMs =>
      cases hoperation
      trivial
  | recordCancellation assignment description envelope =>
      rw [Task.operation?] at hoperation
      cases hown : ownOutcome config assignment.assignmentId .cancelled description with
      | error e =>
          rw [hown] at hoperation
          cases hoperation
      | ok outcome =>
          rw [hown] at hoperation
          cases hoperation
          trivial
  | resolveUnknown assignmentId status description resolverId evidence nowMs =>
      cases hoperation
      trivial
  | _ => cases hoperation

def Historic (config : Config) (journal : Journal) : Prop :=
  exists operations : List Operation, (forall operation, operation ∈ operations ->
    operation.Built) ∧ journal = Journal.empty.applyAll config.sha256 operations

theorem Historic.apply {config : Config} {journal : Journal} (h : Historic config journal)
    {operation : Operation} (hbuilt : operation.Built) :
    Historic config (journal.apply config.sha256 operation) := by
  rcases h with ⟨operations, hoperations, rfl⟩
  refine ⟨operations ++ [operation], ?_, ?_⟩
  · intro other hother
    rcases List.mem_append.mp hother with hold | hnew
    · exact hoperations other hold
    · rw [List.mem_singleton.mp hnew]
      exact hbuilt
  · rw [applyAll_append]
    rfl

theorem historic_keeps (config : Config) :
    (machine config).Keeps .always (Claims config) (fun m _ => Historic config m.journal) where
  drop h _ := h
  spawn _ h _ := h
  crash {m ts} _ h := @Historic.apply config m.journal h .reopen trivial
  exec {m t ts r} hclaims h _ := by
    show Historic config (exec config m t r).1.journal
    rw [exec_journal]
    cases hoperation : t.operation? config r with
    | none => exact h
    | some operation =>
        exact h.apply (built_operation hclaims (Multiset.mem_cons_self t ts) hoperation)

theorem reaches_historic {config : Config} {C : Condition Memory Task Reading Entry}
    {p : Pool Memory Task} (h : (machine config).Reaches C initial p) :
    Historic config p.shared.journal :=
  (historic_keeps config).reaches (h.weaken (fun _ _ _ _ => trivial))
    (fun _ hq => reaches_claims hq) ⟨[], by simp, rfl⟩

theorem Historic.orderly {config : Config} {journal : Journal} (h : Historic config journal) :
    Orderly journal := by
  rcases h with ⟨operations, hbuilt, rfl⟩
  induction operations using List.reverseRecOn with
  | nil => exact orderly_empty
  | append_singleton operations operation ih =>
      rw [applyAll_append]
      have hbefore := ih (fun other hother => hbuilt other (List.mem_append_left _ hother))
      exact hbefore.apply (hbuilt operation (List.mem_append_right _ (List.mem_singleton_self _)))

end Ump.Participant
