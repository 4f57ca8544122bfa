import Ump.Foundation.Thread
import Ump.Participant.Cancellation
import Ump.Participant.Resolution

/-!
# Messages and the journal

## What a message says

Execution and cancellation race to store the outcome of one assignment, and each then
publishes. The first one that stores wins, and the other one raises or publishes what is
stored. So a message that says how work has ended says what the journal holds.
-/

namespace Ump.Participant

open Foundation Journal

def Ended (status : AssignmentStatus) : Prop :=
  status = .succeeded ∨ status = .failed ∨ status = .cancelled

/-- The journal holds an outcome of the assignment, one with the property. -/
def Holds (journal : Journal) (assignmentId : String) (property : Outcome -> Prop) : Prop :=
  exists record stored, journal.lookup assignmentId = some record ∧
    record.outcome = some stored ∧ property stored

/-- What the message says of the end of work is what the journal holds. -/
def Backed (journal : Journal) : Message -> Prop
  | .acknowledgement assignmentId status _ =>
      Ended status -> Holds journal assignmentId (fun stored => stored.status = status)
  | .outcome outcome =>
      Ended outcome.status -> Holds journal outcome.assignmentId
        (fun stored => stored.canonical = outcome.canonical)
  | .assignmentSnapshot assignmentId status _ _ carried =>
      Ended status -> Holds journal assignmentId
        (fun stored => carried = some stored ∧ stored.status = status)
  | _ => True

theorem Holds.grows {journal journal' : Journal} {assignmentId : String}
    {property : Outcome -> Prop} (h : Holds journal assignmentId property)
    (hgrows : Grows journal journal') : Holds journal' assignmentId property := by
  rcases h with ⟨record, stored, hrecord, hstored, hproperty⟩
  rcases hgrows _ record hrecord with ⟨record', hrecord', hcontinues⟩
  refine ⟨record', stored, hrecord', ?_, hproperty⟩
  rw [hcontinues.settled (by rw [hstored]; exact Option.some_ne_none stored)]
  exact hstored

theorem Backed.grows {journal journal' : Journal} {message : Message}
    (h : Backed journal message) (hgrows : Grows journal journal') :
    Backed journal' message := by
  cases message with
  | acknowledgement assignmentId status description => exact fun hended => (h hended).grows hgrows
  | outcome outcome => exact fun hended => (h hended).grows hgrows
  | assignmentSnapshot assignmentId status description fingerprint carried =>
      exact fun hended => (h hended).grows hgrows
  | _ => trivial

theorem backed_of_idle {journal : Journal} {assignmentId : String} {outcome : Outcome}
    {message : Message} (hstatus : ¬ Ended outcome.status)
    (hmessage : Answers assignmentId outcome message) : Backed journal message := by
  cases hmessage with
  | acknowledgement description => exact fun hended => absurd hended hstatus
  | outcome => exact fun hended => absurd hended hstatus

theorem backed_of_stored {journal : Journal} {assignmentId : String} {record : JournalRecord}
    {outcome : Outcome} {message : Message}
    (hrecord : journal.lookup assignmentId = some record)
    (hstored : record.outcome = some outcome) (hid : outcome.assignmentId = assignmentId)
    (hmessage : Answers assignmentId outcome message) : Backed journal message := by
  cases hmessage with
  | acknowledgement description => exact fun _ => ⟨record, outcome, hrecord, hstored, rfl⟩
  | outcome =>
      intro _
      refine ⟨record, outcome, ?_, hstored, rfl⟩
      rw [hid]
      exact hrecord

theorem own_status {config : Config} {assignmentId description : String}
    {status : AssignmentStatus} {outcome : Outcome}
    (h : ownOutcome config assignmentId status description = .ok outcome) :
    outcome.status = status :=
  (Outcome.make_eq_ok h).2.2.2.2.2

theorem own_assignmentId {config : Config} {assignmentId description : String}
    {status : AssignmentStatus} {outcome : Outcome}
    (h : ownOutcome config assignmentId status description = .ok outcome) :
    outcome.assignmentId = assignmentId :=
  (Outcome.make_eq_ok h).2.2.2.1

/-!
## Outcomes keep the id of their assignment
-/

theorem nativeOutcome_eq_ok {config : Config} {assignment : Assignment} {r : Reading}
    {outcome : Outcome} (h : nativeOutcome config assignment r = .ok outcome) :
    r.native = .returned outcome ∧ outcome.assignmentId = assignment.assignmentId ∧
      outcome.robotId = config.robotId := by
  unfold nativeOutcome at h
  cases hnative : r.native with
  | raised typeName =>
      rw [hnative] at h
      cases h
  | other =>
      rw [hnative] at h
      cases h
  | returned native =>
      rw [hnative] at h
      dsimp only at h
      by_cases hid : native.assignmentId ≠ assignment.assignmentId
      · rw [if_pos hid] at h
        cases h
      · rw [if_neg hid] at h
        by_cases hrobot : native.robotId ≠ config.robotId
        · rw [if_pos hrobot] at h
          cases h
        · rw [if_neg hrobot] at h
          have hsame : outcome = native := by
            cases hmanifest : r.manifest with
            | error typeName =>
                rw [hmanifest] at h
                cases h
            | ok manifest =>
                rw [hmanifest] at h
                dsimp only at h
                cases hcapability : manifest.capability assignment.step.capability with
                | none =>
                    rw [hcapability] at h
                    cases h
                | some capability =>
                    rw [hcapability] at h
                    dsimp only at h
                    split_ifs at h
                    · cases hvalid : config.validate capability.outputSchema native.outputs <;>
                        rw [hvalid] at h <;> cases h
                      rfl
                    · cases h
                      rfl
          rw [hsame]
          exact ⟨rfl, not_ne_iff.mp hid, not_ne_iff.mp hrobot⟩

theorem identified_settles (config : Config) :
    SettlesFrom config .always
      (fun assignmentId outcome => outcome.assignmentId = assignmentId) where
  returned _ _ r delivery outcome _ hexecuted := by
    unfold executedOutcome at hexecuted
    cases hnative : nativeOutcome config delivery.assignment r with
    | ok native =>
        rw [hnative] at hexecuted
        cases hexecuted
        exact (nativeOutcome_eq_ok hnative).2.1
    | error typeName =>
        rw [hnative] at hexecuted
        exact own_assignmentId hexecuted
  cancelled _ _ _ hown := own_assignmentId hown
  determined _ _ := rfl

abbrev Identified : Memory -> Multiset Task -> Prop :=
  Settles (fun assignmentId outcome => outcome.assignmentId = assignmentId)

/-!
## Every message is backed
-/

/-- What the participant has said, and what it is about to say. -/
structure Told (m : Memory) (ts : Multiset Task) : Prop where
  sending : forall t message, t ∈ ts -> t.message? = some message -> Backed m.journal message
  sent : forall publication, publication ∈ m.sent -> Backed m.journal publication.message

theorem not_ended_rejected : ¬ Ended .rejected := by
  simp [Ended]

theorem not_ended_unknown : ¬ Ended .unknown := by
  simp [Ended]

theorem not_ended_accepted : ¬ Ended .accepted := by
  simp [Ended]

theorem backed_claimAnswer {config : Config} {journal : Journal} {delivery : Delivery}
    {outcome : Outcome} {message : Message} (h : ClaimAnswer config journal delivery outcome)
    (hids : forall assignmentId record outcome, journal.lookup assignmentId = some record ->
      record.outcome = some outcome -> outcome.assignmentId = assignmentId)
    (hmessage : Answers delivery.assignment.assignmentId outcome message) :
    Backed journal message := by
  cases h with
  | replay hstored houtcome =>
      exact backed_of_stored hstored houtcome (hids _ _ _ hstored houtcome) hmessage
  | conflict _ _ hown =>
      apply backed_of_idle _ hmessage
      rw [own_status hown]
      exact not_ended_rejected
  | resourceConflict _ hown =>
      apply backed_of_idle _ hmessage
      rw [own_status hown]
      exact not_ended_rejected
  | uncertain _ _ hown =>
      apply backed_of_idle _ hmessage
      rw [own_status hown]
      exact not_ended_unknown

theorem outcome_of_ended {journal : Journal} (h : Orderly journal) {assignmentId : String}
    {record : JournalRecord} (hrecord : journal.lookup assignmentId = some record)
    (hended : Ended record.status) : exists stored, record.outcome = some stored := by
  cases houtcome : record.outcome with
  | some stored => exact ⟨stored, rfl⟩
  | none =>
      have hlive := h.reserved.openLive assignmentId record hrecord houtcome
      rcases hended with hstatus | hstatus | hstatus <;>
        simp [JournalRecord.live, hstatus] at hlive

theorem backed_snapshot {journal : Journal} (h : Orderly journal) {assignmentId : String}
    {record : JournalRecord} (hrecord : journal.lookup assignmentId = some record) :
    Backed journal (snapshotOf record) := by
  intro hended
  rcases outcome_of_ended h hrecord hended with ⟨stored, hstored⟩
  refine ⟨record, stored, ?_, hstored, hstored, record.agrees stored hstored⟩
  rw [(lookup_eq_some hrecord).2]
  exact hrecord

theorem requested_eq_some {config : Config} {m : Memory} {envelope : Envelope}
    {record : JournalRecord} (h : requested config m envelope = .ok (some record)) :
    exists assignmentId, (envelope.payload.item "assignment_id" >>= Json.text) = .ok assignmentId ∧
      m.journal.lookup assignmentId = some record ∧ record.issuerId = envelope.sourceId := by
  rcases bind_eq_ok.mp h with ⟨assignmentId, hid, h⟩
  rcases bind_eq_ok.mp h with ⟨robotId, _, h⟩
  rcases bind_eq_ok.mp h with ⟨_, _, h⟩
  rcases bind_eq_ok.mp h with ⟨_, _, h⟩
  split_ifs at h with hrobot
  · cases h
  · have hfound := Option.filter_eq_some_iff.mp (Except.ok.inj h)
    exact ⟨assignmentId, hid, hfound.1, by simpa using hfound.2⟩

theorem holds_of_complete {sha256 : Text -> String} {journal journal' : Journal}
    {assignment : Assignment} {outcome : Outcome} {nowMs : Int}
    (h : journal.complete sha256 assignment outcome nowMs = .ok journal') :
    Holds journal' assignment.assignmentId
      (fun stored => stored.canonical = outcome.canonical) := by
  rcases complete_eq_ok h with ⟨rfl, record, hrecord, himmutable⟩
  have hself := lookup_record_self hrecord outcome
  cases houtcome : record.outcome with
  | none => exact ⟨_, outcome, hself, (recorded_of_open houtcome outcome).2.1, rfl⟩
  | some other =>
      rw [recorded_of_settled houtcome] at hself
      exact ⟨record, other, hself, houtcome, himmutable other houtcome⟩

theorem backed_report {journal : Journal} {outcome : Outcome} {nowMs : Int} {cause : Envelope}
    {t : Task} {message : Message}
    (h : Holds journal outcome.assignmentId (fun stored => stored.canonical = outcome.canonical))
    (ht : t ∈ report outcome nowMs cause) (hmessage : t.message? = some message) :
    Backed journal message := by
  unfold report at ht
  simp only [List.mem_cons, List.not_mem_nil, or_false] at ht
  rcases ht with rfl | rfl
  · cases hmessage
    exact fun _ => h
  · cases hmessage

theorem told_successor {config : Config} {m : Memory} {ts : Multiset Task} {t t' : Task}
    {r : Reading} (hids : Identified m (t ::ₘ ts)) (horderly : Orderly m.journal)
    (hgrows : Grows m.journal (exec config m t r).1.journal)
    (hsucceeds : Succeeds config m r t t') {message : Message}
    (hmessage : t'.message? = some message) :
    Backed (exec config m t r).1.journal message := by
  cases hsucceeds with
  | refused _ _ hown hanswers =>
      cases hmessage
      apply backed_of_idle _ hanswers
      rw [own_status hown]
      exact not_ended_rejected
  | answered hanswer hanswers =>
      cases hmessage
      exact (backed_claimAnswer hanswer hids.stored hanswers).grows hgrows
  | acknowledged hfree =>
      cases hmessage
      exact fun hended => absurd hended not_ended_accepted
  | queried hrequested =>
      cases hmessage
      rcases requested_eq_some hrequested with ⟨assignmentId, _, hrecord, _⟩
      exact (backed_snapshot horderly hrecord).grows hgrows
  | alreadyTerminal hrequested houtcome =>
      cases hmessage
      rcases requested_eq_some hrequested with ⟨assignmentId, _, hrecord, _⟩
      have hid := hids.stored assignmentId _ _ hrecord houtcome
      exact (backed_of_stored hrecord houtcome hid .outcome).grows hgrows
  | superseded hrecord hstored ht =>
      apply backed_report _ ht hmessage
      rw [hids.stored _ _ _ hrecord hstored]
      exact Holds.grows ⟨_, _, hrecord, hstored, rfl⟩ hgrows
  | @completed delivery outcome nowMs journal _ hcomplete ht =>
      apply backed_report _ ht hmessage
      have hid := hids.pending (.complete delivery outcome nowMs) delivery outcome
        (Multiset.mem_cons_self _ _) rfl
      rw [hid, exec_journal]
      show Holds (m.journal.apply config.sha256 _) _ _
      rw [apply_complete, hcomplete]
      exact holds_of_complete hcomplete
  | @cancellationRecorded assignment description envelope outcome journal hown hcomplete =>
      cases hmessage
      intro _
      rw [own_assignmentId hown, exec_journal, Task.operation?, hown]
      show Holds (m.journal.apply config.sha256 _) _ _
      rw [apply_complete, hcomplete]
      exact holds_of_complete hcomplete
  | claimed hpending _ =>
      cases t' <;> first | (cases hpending; done) | cases hmessage
  | stated =>
      cases hmessage
      trivial
  | _ => first | (cases hmessage; done) | (cases hmessage; trivial)

theorem start_says_nothing (entry : Entry) (t : Task) (ht : t ∈ start entry) :
    t.message? = none := by
  cases start_cases ht <;> rfl

theorem exec_says (config : Config) (m : Memory) (t : Task) (r : Reading) :
    (exec config m t r).1.sent = m.sent ∨
      exists publication, (exec config m t r).1.sent = m.sent ++ [publication] ∧
        t.message? = some publication.message ∧
        publication.envelope.messageType = publication.message.messageType ∧
        publication.envelope.payload = publication.message.payload config.robotId := by
  rcases exec_publishes config m t r with hsilent |
    ⟨message, nowMs, cause, stream, safety, hmessage, hpublishes⟩
  · exact Or.inl hsilent.sent
  · rw [hpublishes]
    exact Or.inr ⟨_, rfl, hmessage, rfl, rfl⟩

theorem told_keeps (config : Config) :
    (machine config).Keeps .always
      (fun m ts => Identified m ts ∧ Orderly m.journal) Told where
  drop h hle :=
    ⟨fun t message ht => h.sending t message (Multiset.mem_of_le hle ht), h.sent⟩
  spawn {m ts entry} _ h _ := by
    refine ⟨?_, h.sent⟩
    intro t message ht hmessage
    rcases Multiset.mem_add.mp ht with hold | hnew
    · exact h.sending t message hold hmessage
    · rw [start_says_nothing entry t (Multiset.mem_coe.mp hnew)] at hmessage
      cases hmessage
  crash {m ts} _ h := by
    constructor
    · intro t message ht
      cases Multiset.notMem_zero t ht
    · exact fun publication hsent => (h.sent publication hsent).grows (grows_reopen m.journal)
  exec {m t ts r} hJ h _ := by
    have hgrows := exec_grows config m t r
    constructor
    · intro t' message ht' hmessage
      rcases Multiset.mem_add.mp ht' with hnew | hold
      · have hsucceeds := exec_succeeds config m r (Multiset.mem_coe.mp hnew)
        exact told_successor hJ.1 hJ.2 hgrows hsucceeds hmessage
      · exact (h.sending t' message (Multiset.mem_cons_of_mem hold) hmessage).grows hgrows
    · intro publication hsent
      rcases exec_says config m t r with hsame | ⟨added, hadded, hmessage, _⟩
      · have hbefore : publication ∈ m.sent := hsame ▸ hsent
        exact (h.sent publication hbefore).grows hgrows
      · have hmem : publication ∈ m.sent ++ [added] := hadded ▸ hsent
        rcases List.mem_append.mp hmem with hold | hnew
        · exact (h.sent publication hold).grows hgrows
        · rw [List.mem_singleton.mp hnew]
          exact (h.sending t _ (Multiset.mem_cons_self t ts) hmessage).grows hgrows

theorem reaches_told {config : Config} {p : Pool Memory Task}
    (h : (machine config).Reaches .always initial p) :
    Identified p.shared p.tasks ∧ Orderly p.shared.journal ∧ Told p.shared p.tasks := by
  refine ⟨reaches_settles (identified_settles config) h, (reaches_historic h).orderly, ?_⟩
  apply (told_keeps config).reaches h
  · intro q hq
    exact ⟨reaches_settles (identified_settles config) hq, (reaches_historic hq).orderly⟩
  · constructor
    · intro t message ht
      cases Multiset.notMem_zero t ht
    · intro publication hsent
      cases hsent

/-!
## Where a recorded cancellation comes from
-/

/-- A request to cancel the assignment came in, the journal had the record of the
assignment under the request's id, and the issuer of that record sent the request. -/
def Asked (config : Config) (p : Pool Memory Task) (assignment : Assignment)
    (envelope : Envelope) : Prop :=
  (machine config).Entered .always initial (.receive envelope) p ∧
  envelope.messageType = .cancellationRequest ∧
  exists q r q' i record, (machine config).Reaches .always initial q ∧
    q.nextTask i = some (.cancellationRequest envelope) ∧
    (machine config).step q (.run i r) = some q' ∧ (machine config).Reaches .always q' p ∧
    (envelope.payload.item "assignment_id" >>= Json.text) = .ok assignment.assignmentId ∧
    q.shared.journal.lookup assignment.assignmentId = some record ∧
    record.assignment = assignment ∧ record.issuerId = envelope.sourceId

/-- The adapter was asked to cancel, and it answered that it has. -/
def Granted (config : Config) (p : Pool Memory Task) (assignment : Assignment)
    (description : String) (envelope : Envelope) : Prop :=
  exists q r q' i, (machine config).Reaches .always initial q ∧
    q.nextTask i = some (.cancelNative assignment envelope) ∧
    r.cancelled = some (true, description) ∧
    (machine config).step q (.run i r) = some q' ∧ (machine config).Reaches .always q' p ∧
    Asked config q assignment envelope

theorem entered_of_request {config : Config} {p : Pool Memory Task} {envelope : Envelope}
    (hp : (machine config).Reaches .always initial p)
    (h : .cancellationRequest envelope ∈ p.tasks) :
    (machine config).Entered .always initial (.receive envelope) p ∧
      envelope.messageType = .cancellationRequest := by
  rcases hp.origin h with hnone | ⟨entry, hstart, hentered⟩ | ⟨q, q', i, r, t, _, _, _, hleft, _⟩
  · cases Multiset.notMem_zero _ hnone
  · cases start_cases hstart with
    | cancellationRequest hkind => exact ⟨hentered, hkind⟩
  · cases exec_succeeds config q.shared r hleft with
    | claimed hpending _ => cases hpending
    | superseded _ _ ht => simp [report] at ht
    | completed _ ht => simp [report] at ht

theorem asked_of_native {config : Config} {p : Pool Memory Task} {assignment : Assignment}
    {envelope : Envelope} (hp : (machine config).Reaches .always initial p)
    (h : .cancelNative assignment envelope ∈ p.tasks) : Asked config p assignment envelope := by
  rcases hp.origin h with hnone | ⟨entry, hstart, _⟩ |
    ⟨q, q', i, r, t, hq, hnext, hrun, hleft, hrest⟩
  · cases Multiset.notMem_zero _ hnone
  · cases start_cases hstart
  · cases exec_succeeds config q.shared r hleft with
    | claimed hpending _ => cases hpending
    | superseded _ _ ht => simp [report] at ht
    | completed _ ht => simp [report] at ht
    | @cancels _ record hrequested =>
        rcases entered_of_request hq (Machine.nextTask_mem hnext) with
          ⟨⟨a, b, ha, hspawn, hb⟩, hkind⟩
        rcases requested_eq_some hrequested with ⟨assignmentId, hid, hrecord, hissuer⟩
        have hbound : record.assignment.assignmentId = assignmentId := by
          rw [record.bound, (lookup_eq_some hrecord).2]
        subst hbound
        have hstep : (machine config).Reaches .always q p :=
          .head ⟨.run i r, Machine.meets_always q _, hrun⟩ hrest
        refine ⟨⟨a, b, ha, hspawn, hb.trans hstep⟩, hkind, ?_⟩
        exact ⟨q, r, q', i, record, hq, hnext, hrun, hrest, hid, hrecord, rfl, hissuer⟩

theorem granted_of_recording {config : Config} {p : Pool Memory Task} {assignment : Assignment}
    {description : String} {envelope : Envelope}
    (hp : (machine config).Reaches .always initial p)
    (h : .recordCancellation assignment description envelope ∈ p.tasks) :
    Granted config p assignment description envelope := by
  rcases hp.origin h with hnone | ⟨entry, hstart, _⟩ |
    ⟨q, q', i, r, t, hq, hnext, hrun, hleft, hrest⟩
  · cases Multiset.notMem_zero _ hnone
  · cases start_cases hstart
  · cases exec_succeeds config q.shared r hleft with
    | claimed hpending _ => cases hpending
    | superseded _ _ ht => simp [report] at ht
    | completed _ ht => simp [report] at ht
    | cancelled hcancelled =>
        exact ⟨q, r, q', i, hq, hnext, hcancelled, hrun, hrest,
          asked_of_native hq (Machine.nextTask_mem hnext)⟩

/-- Of each assignment one outcome is stored and never changed. What a step publishes of
the end of work, the journal holds before the step, and what has been published it holds
still. The handler of a cancellation comes to store that work is cancelled only after the
adapter has granted a request of the issuer. -/
theorem outcome_agreement (config : Config) (p : Pool Memory Task)
    (h : (machine config).Reaches .always initial p) :
    (forall q, (machine config).Reaches .always p q ->
      forall assignmentId record, p.shared.journal.lookup assignmentId = some record ->
        record.outcome ≠ none -> q.shared.journal.lookup assignmentId = some record) ∧
    (forall q a, (machine config).step p a = some q ->
      exists published, q.shared.sent = p.shared.sent ++ published ∧
        forall publication, publication ∈ published ->
          publication.envelope.messageType = publication.message.messageType ∧
          publication.envelope.payload = publication.message.payload config.robotId ∧
          Backed p.shared.journal publication.message) ∧
    (forall publication, publication ∈ p.shared.sent ->
      Backed p.shared.journal publication.message) ∧
    (forall assignment description envelope,
      .recordCancellation assignment description envelope ∈ p.tasks ->
        Granted config p assignment description envelope) := by
  have htold := (reaches_told h).2.2
  refine ⟨?_, ?_, htold.sent, fun _ _ _ => granted_of_recording h⟩
  · intro q hq assignmentId record hrecord hstored
    rcases reaches_grows hq assignmentId record hrecord with ⟨record', hrecord', hcontinues⟩
    rw [← hcontinues.settled hstored]
    exact hrecord'
  · intro q a hstep
    cases Machine.stepped_of_step hstep with
    | @ran i t rest r hthread =>
        have ht := Machine.nextTask_mem (Machine.nextTask_of_thread hthread)
        rcases exec_says config p.shared t r with hsame | ⟨added, hadded, hmessage, hfields⟩
        · refine ⟨[], ?_, ?_⟩
          · rw [List.append_nil]
            exact hsame
          · intro publication hnone
            cases hnone
        · refine ⟨[added], hadded, ?_⟩
          intro publication hnew
          rw [List.mem_singleton.mp hnew]
          exact ⟨hfields.1, hfields.2, htold.sending t _ ht hmessage⟩
    | _ =>
        refine ⟨[], (List.append_nil _).symm, ?_⟩
        intro publication hnone
        cases hnone

set_option maxRecDepth 8000 in
theorem patrol_agreement :
    exists p, (machine (patrolConfig 1)).run initial
        (patrolCancelled true ++ patrolTasks 1 3 0) = some p ∧
      patrolView p = (some .cancelled, [.assignmentAck, .cancellationAck, .outcome, .outcome],
        ["a"]) ∧
      forall publication, publication ∈ p.shared.sent ->
        Backed p.shared.journal publication.message := by
  have hview : ((machine (patrolConfig 1)).run initial
      (patrolCancelled true ++ patrolTasks 1 3 0)).map patrolView =
        some (some .cancelled, [.assignmentAck, .cancellationAck, .outcome, .outcome], ["a"]) := by
    decide +kernel
  rcases Option.map_eq_some_iff.mp hview with ⟨p, hrun, hview⟩
  exact ⟨p, hrun, hview,
    (outcome_agreement (patrolConfig 1) p (Machine.run_reaches hrun)).2.2.1⟩

end Ump.Participant
