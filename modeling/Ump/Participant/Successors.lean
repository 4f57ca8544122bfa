import Ump.Participant.Effects

/-!
# What a participant task leaves

## The next tasks of a thread

Effects says what a task does to the journal. This module says which tasks it leaves to
its thread and what it has found before, one constructor for each way to go on.
-/

namespace Ump.Participant

open Foundation Journal

/-- The two messages that answer a delivery with an outcome. -/
inductive Answers (assignmentId : String) (outcome : Outcome) : Message -> Prop where
  | acknowledgement (description : String) :
      Answers assignmentId outcome (.acknowledgement assignmentId outcome.status description)
  | outcome : Answers assignmentId outcome (.outcome outcome)

/-- The outcome with which a claim is answered that starts no work. -/
inductive ClaimAnswer (config : Config) (journal : Journal) (delivery : Delivery) :
    Outcome -> Prop where
  | replay {stored : JournalRecord} {outcome : Outcome}
      (hstored : journal.lookup delivery.assignment.assignmentId = some stored)
      (houtcome : stored.outcome = some outcome) : ClaimAnswer config journal delivery outcome
  | conflict {stored : JournalRecord} {outcome : Outcome} {description : String}
      (hstored : journal.lookup delivery.assignment.assignmentId = some stored)
      (hdiffers : stored.fingerprint ≠ assignmentFingerprint config.sha256 delivery.assignment ∨
        stored.issuerId ≠ delivery.envelope.sourceId)
      (hown : ownOutcome config delivery.assignment.assignmentId .rejected description =
        .ok outcome) : ClaimAnswer config journal delivery outcome
  | resourceConflict {outcome : Outcome} {description : String}
      (hfree : journal.lookup delivery.assignment.assignmentId = none)
      (hown : ownOutcome config delivery.assignment.assignmentId .rejected description =
        .ok outcome) : ClaimAnswer config journal delivery outcome
  | uncertain {stored : JournalRecord} {outcome : Outcome} {description : String}
      (hstored : journal.lookup delivery.assignment.assignmentId = some stored)
      (hopen : stored.outcome = none)
      (hown : ownOutcome config delivery.assignment.assignmentId .unknown description =
        .ok outcome) : ClaimAnswer config journal delivery outcome

inductive Succeeds (config : Config) (m : Memory) (r : Reading) : Task -> Task -> Prop where
  | admitted {envelope : Envelope} {assignment : Assignment}
      (hdecoded : assignmentOf config.robotId envelope.payload = .ok (some assignment))
      (hchecked : checkDelivery config assignment r = .ok ()) :
      Succeeds config m r (.assignment envelope)
        (.claim { envelope := envelope, assignment := assignment, reading := r })
  | refused {envelope : Envelope} {assignment : Assignment} {description : String}
      {outcome : Outcome} {message : Message}
      (hdecoded : assignmentOf config.robotId envelope.payload = .ok (some assignment))
      (hrefused : checkDelivery config assignment r = .error (.rejected description))
      (hown : ownOutcome config assignment.assignmentId .rejected description = .ok outcome)
      (hmessage : Answers assignment.assignmentId outcome message) :
      Succeeds config m r (.assignment envelope) (.send message (some r.nowMs) envelope)
  | answered {delivery : Delivery} {outcome : Outcome} {message : Message}
      (hanswer : ClaimAnswer config m.journal delivery outcome)
      (hmessage : Answers delivery.assignment.assignmentId outcome message) :
      Succeeds config m r (.claim delivery)
        (.send message (some delivery.reading.nowMs) delivery.envelope)
  | acknowledged {delivery : Delivery} {description : String}
      (hfree : m.journal.lookup delivery.assignment.assignmentId = none) :
      Succeeds config m r (.claim delivery)
        (.send (.acknowledgement delivery.assignment.assignmentId .accepted description)
          (some delivery.reading.nowMs) delivery.envelope)
  | claimed {delivery : Delivery} {t : Task} (hpending : t.pending? = some delivery)
      (hfree : m.journal.lookup delivery.assignment.assignmentId = none) :
      Succeeds config m r (.claim delivery) t
  | taken {delivery : Delivery} {rest : List Delivery} (hqueue : m.queue = delivery :: rest) :
      Succeeds config m r .work (.execute delivery)
  | executed (delivery : Delivery) :
      Succeeds config m r (.execute delivery) (.settle delivery)
  | returned {delivery : Delivery} {outcome : Outcome}
      (houtcome : executedOutcome config delivery.assignment r = .ok outcome) :
      Succeeds config m r (.settle delivery) (.lookupLatest delivery outcome)
  | superseded {delivery : Delivery} {outcome stored : Outcome} {record : JournalRecord}
      {t : Task} (hrecord : m.journal.lookup delivery.assignment.assignmentId = some record)
      (hstored : record.outcome = some stored)
      (ht : t ∈ report stored r.nowMs delivery.envelope) :
      Succeeds config m r (.lookupLatest delivery outcome) t
  | completes (delivery : Delivery) (outcome : Outcome) :
      Succeeds config m r (.lookupLatest delivery outcome) (.complete delivery outcome r.nowMs)
  | completed {delivery : Delivery} {outcome : Outcome} {nowMs : Int} {journal : Journal}
      {t : Task} (hcomplete : m.journal.complete config.sha256 delivery.assignment outcome nowMs =
        .ok journal)
      (ht : t ∈ report outcome nowMs delivery.envelope) :
      Succeeds config m r (.complete delivery outcome nowMs) t
  | stated {snapshot : StateSnapshot} {nowMs : Int} {cause : Envelope} {stream : Stream} :
      Succeeds config m r (.publishState nowMs cause) (.sendState snapshot nowMs cause stream)
  | queried {envelope : Envelope} {record : JournalRecord}
      (hrequested : requested config m envelope = .ok (some record)) :
      Succeeds config m r (.assignmentQuery envelope) (.send (snapshotOf record) none envelope)
  | requestAnswered {envelope : Envelope} {record : JournalRecord} {status : CancellationStatus}
      {description : String} (hrequested : requested config m envelope = .ok (some record)) :
      Succeeds config m r (.cancellationRequest envelope)
        (.send (.cancellationAcknowledgement record.assignmentId status description) none
          envelope)
  | alreadyTerminal {envelope : Envelope} {record : JournalRecord} {outcome : Outcome}
      (hrequested : requested config m envelope = .ok (some record))
      (houtcome : record.outcome = some outcome) :
      Succeeds config m r (.cancellationRequest envelope) (.send (.outcome outcome) none envelope)
  | cancels {envelope : Envelope} {record : JournalRecord}
      (hrequested : requested config m envelope = .ok (some record)) :
      Succeeds config m r (.cancellationRequest envelope)
        (.cancelNative record.assignment envelope)
  | cancelled {assignment : Assignment} {description : String} {envelope : Envelope}
      (hcancelled : r.cancelled = some (true, description)) :
      Succeeds config m r (.cancelNative assignment envelope)
        (.recordCancellation assignment description envelope)
  | cancelRefused (assignment : Assignment) (description : String) (envelope : Envelope) :
      Succeeds config m r (.cancelNative assignment envelope)
        (.send (.cancellationAcknowledgement assignment.assignmentId .rejected description) none
          envelope)
  | cancelAcknowledged {assignment : Assignment} {description text : String}
      {envelope : Envelope} :
      Succeeds config m r (.recordCancellation assignment description envelope)
        (.send (.cancellationAcknowledgement assignment.assignmentId .accepted text) none
          envelope)
  | cancellationRecorded {assignment : Assignment} {description : String} {envelope : Envelope}
      {outcome : Outcome} {journal : Journal}
      (hown : ownOutcome config assignment.assignmentId .cancelled description = .ok outcome)
      (hcomplete : m.journal.complete config.sha256 assignment outcome r.nowMs = .ok journal) :
      Succeeds config m r (.recordCancellation assignment description envelope)
        (.send (.outcome outcome) (some r.nowMs) envelope)

theorem mem_tasks_attempt {m : Memory} {x : Except Exn value}
    {next : value -> Memory × Flow Task} {t : Task}
    (h : t ∈ (attempt m x next).2.tasks) : exists v, x = .ok v ∧ t ∈ (next v).2.tasks := by
  cases x with
  | ok v => exact ⟨v, rfl, h⟩
  | error e => cases h

theorem mem_tasks_answer {m : Memory} {delivery : Delivery} {description : String}
    {made : Except Exn Outcome} {t : Task} (h : t ∈ (answer m delivery description made).2.tasks) :
    exists outcome message, made = .ok outcome ∧
      Answers delivery.assignment.assignmentId outcome message ∧
      t = .send message (some delivery.reading.nowMs) delivery.envelope := by
  rcases mem_tasks_attempt h with ⟨outcome, hmade, ht⟩
  simp only [Flow.tasks_next, List.mem_cons, List.not_mem_nil, or_false] at ht
  rcases ht with rfl | rfl
  · exact ⟨outcome, _, hmade, .acknowledgement description, rfl⟩
  · exact ⟨outcome, _, hmade, .outcome, rfl⟩

theorem exec_succeeds (config : Config) (m : Memory) (r : Reading) {t t' : Task}
    (h : t' ∈ (exec config m t r).2.tasks) : Succeeds config m r t t' := by
  cases t with
  | assignment envelope =>
      rw [exec] at h
      rcases mem_tasks_attempt h with ⟨_ | assignment, hdecoded, h⟩
      · cases h
      · dsimp only at h
        cases hchecked : checkDelivery config assignment r with
        | ok _ =>
            rw [hchecked] at h
            rw [List.mem_singleton.mp h]
            exact .admitted hdecoded hchecked
        | error refusal =>
            rw [hchecked] at h
            cases refusal with
            | rejected description =>
                rcases mem_tasks_answer h with ⟨outcome, message, hown, hmessage, rfl⟩
                exact .refused hdecoded hchecked hown hmessage
            | raised => cases h
  | claim delivery =>
      rw [exec] at h
      rcases mem_tasks_attempt h with ⟨⟨result, journal⟩, hclaim, h⟩
      cases claim_eq_ok hclaim with
      | new hfree _ =>
          simp only [Flow.tasks_next, List.mem_cons, List.not_mem_nil, or_false] at h
          rcases h with rfl | rfl
          · exact .acknowledged hfree
          · refine .claimed ?_ hfree
            split_ifs <;> rfl
      | resourceConflict hfree =>
          rcases mem_tasks_answer h with ⟨outcome, message, hown, hmessage, rfl⟩
          exact .answered (.resourceConflict hfree hown) hmessage
      | conflict hstored hdiffers =>
          rcases mem_tasks_answer h with ⟨outcome, message, hown, hmessage, rfl⟩
          exact .answered (.conflict hstored hdiffers hown) hmessage
      | replay hstored _ houtcome =>
          rcases mem_tasks_answer h with ⟨outcome, message, hmade, hmessage, rfl⟩
          cases hmade
          exact .answered (.replay hstored houtcome) hmessage
      | uncertain hstored hopen =>
          rcases mem_tasks_answer h with ⟨outcome, message, hown, hmessage, rfl⟩
          exact .answered (.uncertain hstored hopen hown) hmessage
  | submit delivery => cases h
  | work =>
      rw [exec] at h
      cases hqueue : m.queue with
      | nil =>
          rw [hqueue] at h
          cases h
      | cons delivery rest =>
          rw [hqueue] at h
          rw [List.mem_singleton.mp h]
          exact .taken hqueue
  | execute delivery =>
      rw [List.mem_singleton.mp h]
      exact .executed delivery
  | settle delivery =>
      rw [exec] at h
      rcases mem_tasks_attempt h with ⟨outcome, houtcome, h⟩
      rw [List.mem_singleton.mp h]
      exact .returned houtcome
  | lookupLatest delivery outcome =>
      rw [exec] at h
      cases hlatest : (m.journal.lookup delivery.assignment.assignmentId).bind
          (fun latest => latest.outcome) with
      | some stored =>
          rw [hlatest] at h
          rcases Option.bind_eq_some_iff.mp hlatest with ⟨record, hrecord, hstored⟩
          exact .superseded hrecord hstored h
      | none =>
          rw [hlatest] at h
          rw [List.mem_singleton.mp h]
          exact .completes delivery outcome
  | complete delivery outcome nowMs =>
      rw [exec] at h
      rcases mem_tasks_attempt h with ⟨journal, hcomplete, h⟩
      exact .completed hcomplete h
  | publishState nowMs cause =>
      rw [exec] at h
      cases hstate : r.state with
      | none =>
          rw [hstate] at h
          cases h
      | some snapshot =>
          rw [hstate] at h
          rcases List.mem_append.mp h with h | h
          · split_ifs at h
            · rw [List.mem_singleton.mp h]
              exact .stated
            · cases h
          · rw [List.mem_singleton.mp h]
            exact .stated
  | sendState snapshot nowMs cause stream => cases h
  | assignmentQuery envelope =>
      rw [exec] at h
      rcases mem_tasks_attempt h with ⟨_ | record, hrequested, h⟩
      · cases h
      · rw [List.mem_singleton.mp h]
        exact .queried hrequested
  | cancellationRequest envelope =>
      rw [exec] at h
      rcases mem_tasks_attempt h with ⟨_, _, h⟩
      rcases mem_tasks_attempt h with ⟨_ | record, hrequested, h⟩
      · cases h
      · dsimp only at h
        cases houtcome : record.outcome with
        | some outcome =>
            rw [houtcome] at h
            simp only [Flow.tasks_next, List.mem_cons, List.not_mem_nil, or_false] at h
            rcases h with rfl | rfl
            · exact .requestAnswered hrequested
            · exact .alreadyTerminal hrequested houtcome
        | none =>
            rw [houtcome] at h
            dsimp only at h
            split_ifs at h
            · rw [List.mem_singleton.mp h]
              exact .requestAnswered hrequested
            · rw [List.mem_singleton.mp h]
              exact .cancels hrequested
  | cancelNative assignment envelope =>
      rw [exec] at h
      cases hcancelled : r.cancelled with
      | none =>
          rw [hcancelled] at h
          cases h
      | some answered =>
          rw [hcancelled] at h
          rcases answered with ⟨_ | _, description⟩
          · rw [List.mem_singleton.mp h]
            exact .cancelRefused assignment description envelope
          · rw [List.mem_singleton.mp h]
            exact .cancelled hcancelled
  | recordCancellation assignment description envelope =>
      rw [exec] at h
      rcases mem_tasks_attempt h with ⟨outcome, hown, h⟩
      rcases mem_tasks_attempt h with ⟨journal, hcomplete, h⟩
      simp only [Flow.tasks_next, List.mem_cons, List.not_mem_nil, or_false] at h
      rcases h with rfl | rfl
      · exact .cancelAcknowledged
      · exact .cancellationRecorded hown hcomplete
  | send message stamp cause =>
      rw [exec] at h
      rcases mem_tasks_attempt h with ⟨_, _, h⟩
      cases h
  | resolveUnknown assignmentId status description resolverId evidence nowMs =>
      rw [exec] at h
      rcases mem_tasks_attempt h with ⟨_, _, h⟩
      cases h

end Ump.Participant
