import Ump.Participant.Agreement

/-!
# Assigned work

## Whose question a message answers

The participant sends its answers to all peers. What it says of an assignment that one
coordinator alone delivers, under one id and with one content, it says of that content and
to that coordinator, whatever else it is asked.
-/

namespace Ump.Participant

open Foundation Journal

def Message.says? : Message -> Option (String × AssignmentStatus)
  | .acknowledgement assignmentId status _ => some (assignmentId, status)
  | .outcome o => some (o.assignmentId, o.status)
  | .assignmentSnapshot assignmentId _ _ _ (some stored) => some (assignmentId, stored.status)
  | _ => none

/-- The assignment that a message is about. -/
def Message.concerns? : Message -> Option String
  | .acknowledgement assignmentId _ _ => some assignmentId
  | .outcome o => some o.assignmentId
  | .assignmentSnapshot assignmentId _ _ _ _ => some assignmentId
  | .cancellationAcknowledgement assignmentId _ _ => some assignmentId
  | .state _ => none

/-- The assignment that an answer to a query or to a request is about. -/
def Message.requested? : Message -> Option String
  | .assignmentSnapshot assignmentId _ _ _ _ => some assignmentId
  | .cancellationAcknowledgement assignmentId _ _ => some assignmentId
  | _ => none

/-- The assignment that a task is about, and the envelope that has led to the task. -/
def Task.cause? : Task -> Option (String × Envelope)
  | .claim delivery => some (delivery.assignment.assignmentId, delivery.envelope)
  | .submit delivery => some (delivery.assignment.assignmentId, delivery.envelope)
  | .execute delivery => some (delivery.assignment.assignmentId, delivery.envelope)
  | .settle delivery => some (delivery.assignment.assignmentId, delivery.envelope)
  | .lookupLatest delivery _ => some (delivery.assignment.assignmentId, delivery.envelope)
  | .complete delivery _ _ => some (delivery.assignment.assignmentId, delivery.envelope)
  | .cancelNative cancelled envelope => some (cancelled.assignmentId, envelope)
  | .recordCancellation cancelled _ envelope => some (cancelled.assignmentId, envelope)
  | .send message _ cause => message.says?.map (fun said => (said.1, cause))
  | _ => none

def Task.requested? : Task -> Option (String × Envelope)
  | .cancelNative cancelled envelope => some (cancelled.assignmentId, envelope)
  | .recordCancellation cancelled _ envelope => some (cancelled.assignmentId, envelope)
  | .send message _ cause => message.requested?.map (fun assignmentId => (assignmentId, cause))
  | _ => none

def ReceivesFrom (issuerId : String) (issued : List Envelope) :
    Condition Memory Task Reading Entry
  | _, _, .spawn (.receive envelope) => envelope.sourceId = issuerId -> envelope ∈ issued
  | _, _, _ => True

/-- Deliveries of the assignment come from the issuer. -/
def SentBy (config : Config) (issuerId assignmentId : String) :
    Condition Memory Task Reading Entry
  | _, _, .exec (.assignment envelope) _ =>
      forall assignment, assignmentOf config.robotId envelope.payload = .ok (some assignment) ->
        assignment.assignmentId = assignmentId -> envelope.sourceId = issuerId
  | _, _, _ => True

/-- One of the issuer's envelopes assigns the id to this robot. -/
def Issued (config : Config) (issued : List Envelope) (assignmentId : String) : Prop :=
  exists envelope assignment, envelope ∈ issued ∧ envelope.messageType = .assignment ∧
    assignmentOf config.robotId envelope.payload = .ok (some assignment) ∧
    assignment.assignmentId = assignmentId

/-- All of the issuer's envelopes with the id of the order carry the order. -/
def Carries (config : Config) (issued : List Envelope) (order : Assignment) : Prop :=
  forall envelope assignment, envelope ∈ issued -> envelope.messageType = .assignment ->
    assignmentOf config.robotId envelope.payload = .ok (some assignment) ->
      assignment.assignmentId = order.assignmentId -> assignment = order

structure Assigned (config : Config) (issuerId : String) (issued : List Envelope)
    (order : Assignment) (m : Memory) (ts : Multiset Task) : Prop where
  received : forall envelope, .assignment envelope ∈ ts ->
    envelope.messageType = .assignment ∧ (envelope.sourceId = issuerId -> envelope ∈ issued)
  caused : forall t envelope, t ∈ ts -> t.cause? = some (order.assignmentId, envelope) ->
    envelope.sourceId = issuerId ∧ Issued config issued order.assignmentId
  queued : forall delivery, delivery ∈ m.queue ->
    delivery.assignment.assignmentId = order.assignmentId ->
      delivery.envelope.sourceId = issuerId ∧ Issued config issued order.assignmentId
  claiming : forall delivery, .claim delivery ∈ ts ->
    delivery.assignment.assignmentId = order.assignmentId -> delivery.assignment = order
  record : forall record, m.journal.lookup order.assignmentId = some record ->
    record.issuerId = issuerId ∧
      record.fingerprint = assignmentFingerprint config.sha256 order ∧
      Issued config issued order.assignmentId
  sent : forall publication, publication ∈ m.sent ->
    publication.message.concerns? = some order.assignmentId ->
      publication.cause.sourceId = issuerId ∧ Issued config issued order.assignmentId

/-!
## Steps
-/

theorem lookup_of_exec {config : Config} {m : Memory} {t : Task} {r : Reading}
    {assignmentId : String} {record : JournalRecord}
    (hfree : m.journal.lookup assignmentId = none)
    (hrecord : (exec config m t r).1.journal.lookup assignmentId = some record) :
    exists delivery, t = .claim delivery ∧ delivery.assignment.assignmentId = assignmentId ∧
      record = newRecord config.sha256 delivery.assignment delivery.envelope.sourceId := by
  generalize hresult : exec config m t r = result at hrecord
  have heffect : Effect config m t result := hresult ▸ exec_effect config m t r
  cases heffect with
  | quiet hjournal =>
      rw [hjournal, hfree] at hrecord
      cases hrecord
  | @claimed delivery journal _ _ _ _ hclaimed hnext =>
      cases hclaimed with
      | new _ hlookup =>
          dsimp only at hrecord
          rw [hlookup] at hrecord
          split_ifs at hrecord with hid
          · cases hrecord
            exact ⟨delivery, rfl, hid.symm, rfl⟩
          · rw [hfree] at hrecord
            cases hrecord
  | recorded _ _ hjournal =>
      rw [hjournal, lookup_record, hfree] at hrecord
      cases hrecord
  | resolved _ _ _ hlookup =>
      dsimp only at hrecord
      rw [hlookup, lookup_record, hfree] at hrecord
      cases hrecord
  | _ =>
      dsimp only at hrecord
      rw [hfree] at hrecord
      cases hrecord

theorem queue_of_exec {config : Config} {m : Memory} {t : Task} {r : Reading}
    {delivery : Delivery} (h : delivery ∈ (exec config m t r).1.queue) :
    delivery ∈ m.queue ∨ t = .submit delivery := by
  generalize hresult : exec config m t r = result at h
  have heffect : Effect config m t result := hresult ▸ exec_effect config m t r
  cases heffect with
  | quiet _ hqueue =>
      rw [hqueue] at h
      exact Or.inl h
  | submitted submitted =>
      rcases List.mem_append.mp h with hold | hnew
      · exact Or.inl hold
      · rw [List.mem_singleton.mp hnew]
        exact Or.inr rfl
  | taken hqueue =>
      rw [hqueue]
      exact Or.inl (List.mem_cons_of_mem _ h)
  | recorded _ _ _ hqueue =>
      rw [hqueue] at h
      exact Or.inl h
  | _ => exact Or.inl h

theorem concerns_of_reported {message : Message} {said : String × AssignmentStatus}
    (h : message.says? = some said) : message.concerns? = some said.1 := by
  cases message with
  | assignmentSnapshot assignmentId _ _ _ stored =>
      cases stored with
      | none => cases h
      | some _ =>
          cases h
          rfl
  | acknowledgement _ _ _ =>
      cases h
      rfl
  | outcome _ =>
      cases h
      rfl
  | _ => cases h

theorem concerns_of_requested {message : Message} {assignmentId : String}
    (h : message.requested? = some assignmentId) : message.concerns? = some assignmentId := by
  cases message with
  | assignmentSnapshot _ _ _ _ _ => exact h
  | cancellationAcknowledgement _ _ _ => exact h
  | _ => cases h

theorem reported_or_requested {message : Message} {assignmentId : String}
    (h : message.concerns? = some assignmentId) :
    (exists status, message.says? = some (assignmentId, status)) ∨
      message.requested? = some assignmentId := by
  cases message with
  | acknowledgement _ status _ =>
      cases h
      exact Or.inl ⟨status, rfl⟩
  | outcome o =>
      cases h
      exact Or.inl ⟨o.status, rfl⟩
  | assignmentSnapshot _ _ _ _ _ => exact Or.inr h
  | cancellationAcknowledgement _ _ _ => exact Or.inr h
  | state _ => cases h

theorem sent_of_exec {config : Config} {m : Memory} {t : Task} {r : Reading}
    {publication : Publication} {assignmentId : String}
    (h : publication ∈ (exec config m t r).1.sent)
    (hconcerns : publication.message.concerns? = some assignmentId) :
    publication ∈ m.sent ∨ exists stamp, t = .send publication.message stamp publication.cause := by
  rcases exec_publishes config m t r with hsilent | ⟨message, _, _, _, _, hmessage, _⟩
  · rw [hsilent.sent] at h
    exact Or.inl h
  · cases t with
    | send carried stamp cause =>
        rw [exec] at h
        cases hcheck : carried.check config.robotId with
        | error e =>
            rw [hcheck] at h
            exact Or.inl h
        | ok _ =>
            rw [hcheck] at h
            rcases List.mem_append.mp h with hold | hnew
            · exact Or.inl hold
            · rw [List.mem_singleton.mp hnew]
              exact Or.inr ⟨stamp, rfl⟩
    | sendState snapshot nowMs cause stream =>
        rw [exec] at h
        rcases List.mem_append.mp h with hold | hnew
        · exact Or.inl hold
        · rw [List.mem_singleton.mp hnew] at hconcerns
          cases hconcerns
    | _ => cases hmessage

theorem says_of_answers {assignmentId : String} {outcome : Outcome} {message : Message}
    (h : Answers assignmentId outcome message) (hid : outcome.assignmentId = assignmentId) :
    message.says? = some (assignmentId, outcome.status) := by
  cases h with
  | acknowledgement description => rfl
  | outcome =>
      rw [<- hid]
      rfl

theorem says_snapshotOf {record : JournalRecord} {said : String × AssignmentStatus}
    (h : (snapshotOf record).says? = some said) :
    exists stored, record.outcome = some stored ∧ said = (record.assignmentId, stored.status) := by
  unfold snapshotOf Message.says? at h
  cases houtcome : record.outcome with
  | none =>
      rw [houtcome] at h
      cases h
  | some stored =>
      rw [houtcome] at h
      cases h
      exact ⟨stored, rfl, rfl⟩

theorem id_of_claimAnswer {config : Config} {m : Memory} {ts : Multiset Task}
    (hids : Identified m ts) {delivery : Delivery} {outcome : Outcome}
    (h : ClaimAnswer config m.journal delivery outcome) :
    outcome.assignmentId = delivery.assignment.assignmentId := by
  cases h with
  | replay hstored houtcome => exact hids.stored _ _ _ hstored houtcome
  | conflict _ _ hown => exact own_assignmentId hown
  | resourceConflict _ hown => exact own_assignmentId hown
  | uncertain _ _ hown => exact own_assignmentId hown

theorem cause_of_report {outcome : Outcome} {nowMs : Int} {cause : Envelope} {t : Task}
    {caused : String × Envelope} (ht : t ∈ report outcome nowMs cause)
    (h : t.cause? = some caused) : caused = (outcome.assignmentId, cause) := by
  unfold report at ht
  simp only [List.mem_cons, List.not_mem_nil, or_false] at ht
  rcases ht with rfl | rfl
  · cases h
    rfl
  · cases h

theorem cause_successor {config : Config} {m : Memory} {t t' : Task} {ts : Multiset Task}
    {r : Reading} (hids : Identified m (t ::ₘ ts)) (ht' : t' ∈ (exec config m t r).2.tasks)
    {assignmentId : String} {envelope : Envelope}
    (hcause : t'.cause? = some (assignmentId, envelope)) :
    t.cause? = some (assignmentId, envelope) ∨
      (exists assignment, t = .assignment envelope ∧
        assignmentOf config.robotId envelope.payload = .ok (some assignment) ∧
        assignment.assignmentId = assignmentId) ∨
      (exists delivery, delivery ∈ m.queue ∧
        delivery.assignment.assignmentId = assignmentId ∧ delivery.envelope = envelope) ∨
      exists record, m.journal.lookup assignmentId = some record ∧
        record.issuerId = envelope.sourceId := by
  have hmem : t ∈ t ::ₘ ts := Multiset.mem_cons_self t ts
  cases exec_succeeds config m r ht' with
  | @admitted delivered assignment hdecoded hchecked =>
      cases hcause
      exact Or.inr (Or.inl ⟨assignment, rfl, hdecoded, rfl⟩)
  | @refused delivered assignment _ outcome message hdecoded _ hown hmessage =>
      rw [Task.cause?, says_of_answers hmessage (own_assignmentId hown)] at hcause
      cases hcause
      exact Or.inr (Or.inl ⟨assignment, rfl, hdecoded, rfl⟩)
  | answered hanswer hmessage =>
      rw [Task.cause?, says_of_answers hmessage (id_of_claimAnswer hids hanswer)] at hcause
      exact Or.inl hcause
  | acknowledged _ => exact Or.inl hcause
  | @claimed delivery _ hpending _ =>
      left
      cases t' with
      | submit pending =>
          cases hpending
          exact hcause
      | execute pending =>
          cases hpending
          exact hcause
      | _ => cases hpending
  | @taken delivery rest hqueue =>
      cases hcause
      refine Or.inr (Or.inr (Or.inl ⟨delivery, ?_, rfl, rfl⟩))
      rw [hqueue]
      exact List.mem_cons_self
  | executed => exact Or.inl hcause
  | returned _ => exact Or.inl hcause
  | superseded hrecord hstored ht =>
      have hsame := cause_of_report ht hcause
      rw [hids.stored _ _ _ hrecord hstored] at hsame
      exact Or.inl (congrArg some hsame.symm)
  | completes => exact Or.inl hcause
  | @completed delivery outcome nowMs _ _ _ ht =>
      have hsame := cause_of_report ht hcause
      have hid := hids.pending (.complete delivery outcome nowMs) delivery outcome hmem rfl
      rw [hid] at hsame
      exact Or.inl (congrArg some hsame.symm)
  | stated => cases hcause
  | @queried _ record hrequested =>
      rcases requested_eq_some hrequested with ⟨id, _, hrecord, hissuer⟩
      rcases Option.map_eq_some_iff.mp hcause with ⟨said, hsaid, heq⟩
      rcases says_snapshotOf hsaid with ⟨stored, _, rfl⟩
      cases heq
      refine Or.inr (Or.inr (Or.inr ⟨record, ?_, hissuer⟩))
      rw [(lookup_eq_some hrecord).2]
      exact hrecord
  | requestAnswered _ => cases hcause
  | @alreadyTerminal _ record outcome hrequested houtcome =>
      rcases requested_eq_some hrequested with ⟨id, _, hrecord, hissuer⟩
      cases hcause
      refine Or.inr (Or.inr (Or.inr ⟨record, ?_, hissuer⟩))
      rw [hids.stored _ _ _ hrecord houtcome]
      exact hrecord
  | @cancels _ record hrequested =>
      rcases requested_eq_some hrequested with ⟨id, _, hrecord, hissuer⟩
      cases hcause
      refine Or.inr (Or.inr (Or.inr ⟨record, ?_, hissuer⟩))
      rw [record.bound, (lookup_eq_some hrecord).2]
      exact hrecord
  | cancelled _ => exact Or.inl hcause
  | cancelRefused => cases hcause
  | cancelAcknowledged => cases hcause
  | cancellationRecorded hown _ =>
      rw [Task.cause?, Message.says?, own_assignmentId hown] at hcause
      exact Or.inl hcause

theorem checked_of_exec {config : Config} {m : Memory} {t : Task} {r : Reading}
    {delivery : Delivery} (h : .claim delivery ∈ (exec config m t r).2.tasks) :
    checkDelivery config delivery.assignment r = .ok () := by
  cases exec_succeeds config m r h with
  | admitted _ hchecked => exact hchecked
  | claimed hpending _ => cases hpending
  | superseded _ _ ht => simp [report] at ht
  | completed _ ht => simp [report] at ht

theorem claim_of_exec {config : Config} {m : Memory} {t : Task} {r : Reading}
    {delivery : Delivery} (h : .claim delivery ∈ (exec config m t r).2.tasks) :
    t = .assignment delivery.envelope ∧
      assignmentOf config.robotId delivery.envelope.payload = .ok (some delivery.assignment) ∧
      (exec config m t r).2.tasks = [.claim delivery] ∧
      (exec config m t r).1.sent = m.sent := by
  generalize hresult : exec config m t r = result at h
  have heffect : Effect config m t result := hresult ▸ exec_effect config m t r
  cases heffect with
  | quiet _ _ _ hleaves => cases (hleaves _ h).claiming
  | admitted hdecoded _ =>
      cases List.mem_singleton.mp h
      exact ⟨rfl, hdecoded, rfl, rfl⟩
  | claimed _ hnext =>
      simp only [Flow.tasks_next, List.mem_cons, List.not_mem_nil, or_false] at h
      rcases h with h | rfl
      · cases h
      · cases hnext
  | submitted => cases h
  | taken => cases List.mem_singleton.mp h
  | executed => cases List.mem_singleton.mp h
  | recorded _ _ _ _ _ hleaves => cases (hleaves _ h).claiming
  | resolved => cases h

/-!
## Answers to requests
-/

/-- The journal has a record of the assignment, and the record is of the issuer. -/
def Owned (journal : Journal) (assignmentId issuerId : String) : Prop :=
  exists record, journal.lookup assignmentId = some record ∧ record.issuerId = issuerId

theorem Owned.grows {journal journal' : Journal} {assignmentId issuerId : String}
    (h : Owned journal assignmentId issuerId) (hgrows : Grows journal journal') :
    Owned journal' assignmentId issuerId := by
  rcases h with ⟨record, hrecord, hissuer⟩
  rcases hgrows assignmentId record hrecord with ⟨after, hafter, hcontinues⟩
  exact ⟨after, hafter, hcontinues.issuerId.trans hissuer⟩

/-- What tasks carry and messages have said has a property of the journal. -/
structure Tracks (property : Journal -> value -> Prop) (carried? : Task -> Option value)
    (said? : Publication -> Option value) (m : Memory) (ts : Multiset Task) : Prop where
  tasks : forall t v, t ∈ ts -> carried? t = some v -> property m.journal v
  sent : forall publication v, publication ∈ m.sent -> said? publication = some v ->
    property m.journal v

theorem tracks_keeps (config : Config) {property : Journal -> value -> Prop}
    {carried? : Task -> Option value} {said? : Publication -> Option value}
    (hgrows : forall {journal journal' : Journal} {v : value}, property journal v ->
      Grows journal journal' -> property journal' v)
    (hstart : forall entry t, Starts entry t -> carried? t = none)
    (hleft : forall m t t' r v, t' ∈ (exec config m t r).2.tasks -> carried? t' = some v ->
      carried? t = some v ∨ property m.journal v)
    (hsent : forall m t r publication v, publication ∈ (exec config m t r).1.sent ->
      said? publication = some v -> publication ∈ m.sent ∨ carried? t = some v) :
    (machine config).Keeps .always (fun _ _ => True) (Tracks property carried? said?) where
  drop h hle := ⟨fun t v ht => h.tasks t v (Multiset.mem_of_le hle ht), h.sent⟩
  spawn {m ts entry} _ h _ := by
    refine ⟨?_, h.sent⟩
    intro t v ht hcarried
    rcases Multiset.mem_add.mp ht with hold | hnew
    · exact h.tasks t v hold hcarried
    · rw [hstart entry t (start_cases (Multiset.mem_coe.mp hnew))] at hcarried
      cases hcarried
  crash {m ts} _ h := by
    constructor
    · intro t _ ht
      cases Multiset.notMem_zero t ht
    · intro publication v hpublication hsaid
      exact hgrows (h.sent publication v hpublication hsaid) (grows_reopen m.journal)
  exec {m t ts r} _ h _ := by
    have hafter := exec_grows config m t r
    have hmem : t ∈ t ::ₘ ts := Multiset.mem_cons_self t ts
    constructor
    · intro t' v ht' hcarried
      rcases Multiset.mem_add.mp ht' with hnew | hold
      · rcases hleft m t t' r v (Multiset.mem_coe.mp hnew) hcarried with hbefore | hproperty
        · exact hgrows (h.tasks t v hmem hbefore) hafter
        · exact hgrows hproperty hafter
      · exact hgrows (h.tasks t' v (Multiset.mem_cons_of_mem hold) hcarried) hafter
    · intro publication v hpublication hsaid
      rcases hsent m t r publication v hpublication hsaid with hold | hcarried
      · exact hgrows (h.sent publication v hold hsaid) hafter
      · exact hgrows (h.tasks t v hmem hcarried) hafter

theorem reaches_tracks {config : Config} {property : Journal -> value -> Prop}
    {carried? : Task -> Option value} {said? : Publication -> Option value}
    (hkeeps : (machine config).Keeps .always (fun _ _ => True) (Tracks property carried? said?))
    {p : Pool Memory Task} (h : (machine config).Reaches .always initial p) :
    Tracks property carried? said? p.shared p.tasks := by
  refine hkeeps.reaches h (fun _ _ => trivial) ?_
  constructor
  · intro t _ ht
    cases Multiset.notMem_zero t ht
  · intro publication _ hpublication
    cases hpublication

def Publication.requested? (publication : Publication) : Option (String × Envelope) :=
  publication.message.requested?.map (fun assignmentId => (assignmentId, publication.cause))

/-- Queries and requests are answered to the issuer of the record only. -/
def Requested : Memory -> Multiset Task -> Prop :=
  Tracks (fun journal asked => Owned journal asked.1 asked.2.sourceId) Task.requested?
    Publication.requested?

theorem owned_of_requested {config : Config} {m : Memory} {envelope : Envelope}
    {record : JournalRecord} (h : requested config m envelope = .ok (some record)) :
    Owned m.journal record.assignmentId envelope.sourceId := by
  rcases requested_eq_some h with ⟨id, _, hrecord, hissuer⟩
  rw [<- (lookup_eq_some hrecord).2] at hrecord
  exact ⟨record, hrecord, hissuer⟩

theorem requested_successor {config : Config} {m : Memory} {t t' : Task} {r : Reading}
    (ht' : t' ∈ (exec config m t r).2.tasks) {assignmentId : String} {envelope : Envelope}
    (h : t'.requested? = some (assignmentId, envelope)) :
    t.requested? = some (assignmentId, envelope) ∨
      Owned m.journal assignmentId envelope.sourceId := by
  cases exec_succeeds config m r ht' with
  | refused _ _ _ hmessage => cases hmessage <;> cases h
  | answered _ hmessage => cases hmessage <;> cases h
  | claimed hpending _ => cases t' <;> first | (cases hpending; done) | cases h
  | superseded _ _ ht =>
      simp only [report, List.mem_cons, List.not_mem_nil, or_false] at ht
      rcases ht with rfl | rfl <;> cases h
  | completed _ ht =>
      simp only [report, List.mem_cons, List.not_mem_nil, or_false] at ht
      rcases ht with rfl | rfl <;> cases h
  | queried hrequested =>
      cases h
      exact Or.inr (owned_of_requested hrequested)
  | requestAnswered hrequested =>
      cases h
      exact Or.inr (owned_of_requested hrequested)
  | @cancels _ record hrequested =>
      cases h
      rw [record.bound]
      exact Or.inr (owned_of_requested hrequested)
  | cancelled _ => exact Or.inl h
  | cancelRefused => exact Or.inl h
  | cancelAcknowledged => exact Or.inl h
  | _ => cases h

theorem requested_of_sent {config : Config} {m : Memory} {t : Task} {r : Reading}
    {publication : Publication} {asked : String × Envelope}
    (hsent : publication ∈ (exec config m t r).1.sent)
    (h : publication.requested? = some asked) :
    publication ∈ m.sent ∨ t.requested? = some asked := by
  rcases Option.map_eq_some_iff.mp h with ⟨assignmentId, hrequested, rfl⟩
  rcases sent_of_exec hsent (concerns_of_requested hrequested) with hold | ⟨stamp, rfl⟩
  · exact Or.inl hold
  · exact Or.inr h

theorem requested_keeps (config : Config) :
    (machine config).Keeps .always (fun _ _ => True) Requested := by
  refine tracks_keeps config ?_ ?_ ?_ ?_
  · exact fun howned hgrows => howned.grows hgrows
  · intro entry t hstart
    cases hstart <;> rfl
  · exact fun m t t' r _ ht' => requested_successor ht'
  · exact fun m t r publication _ => requested_of_sent

theorem reaches_requested {config : Config} {p : Pool Memory Task}
    (h : (machine config).Reaches .always initial p) : Requested p.shared p.tasks :=
  reaches_tracks (requested_keeps config) h

/-!
## The invariant
-/

section

variable {config : Config} {issuerId : String} {issued : List Envelope} {order : Assignment}
variable {m : Memory} {t : Task} {ts ts' : Multiset Task} {r : Reading}

theorem Assigned.drop (h : Assigned config issuerId issued order m ts) (hle : ts' ≤ ts) :
    Assigned config issuerId issued order m ts' where
  received envelope ht := h.received envelope (Multiset.mem_of_le hle ht)
  caused t envelope ht := h.caused t envelope (Multiset.mem_of_le hle ht)
  queued := h.queued
  claiming delivery ht := h.claiming delivery (Multiset.mem_of_le hle ht)
  record := h.record
  sent := h.sent

theorem Assigned.caused_successor (h : Assigned config issuerId issued order m (t ::ₘ ts))
    (hids : Identified m (t ::ₘ ts)) (hC : SentBy config issuerId order.assignmentId m ts
      (.exec t r)) {t' : Task} (ht' : t' ∈ (exec config m t r).2.tasks) {envelope : Envelope}
    (hcause : t'.cause? = some (order.assignmentId, envelope)) :
    envelope.sourceId = issuerId ∧ Issued config issued order.assignmentId := by
  rcases cause_successor hids ht' hcause with hsame | ⟨assignment, rfl, hdecoded, hid⟩ |
    ⟨delivery, hqueue, hid, rfl⟩ | ⟨record, hrecord, hissuer⟩
  · exact h.caused t envelope (Multiset.mem_cons_self t ts) hsame
  · have hsource := hC assignment hdecoded hid
    rcases h.received envelope (Multiset.mem_cons_self _ ts) with ⟨hkind, hissued⟩
    exact ⟨hsource, envelope, assignment, hissued hsource, hkind, hdecoded, hid⟩
  · exact h.queued delivery hqueue hid
  · rcases h.record record hrecord with ⟨hsame, _, hissued⟩
    exact ⟨hissuer.symm.trans hsame, hissued⟩

theorem Assigned.record_exec (h : Assigned config issuerId issued order m (t ::ₘ ts))
    {record : JournalRecord}
    (hrecord : (exec config m t r).1.journal.lookup order.assignmentId = some record) :
    record.issuerId = issuerId ∧
      record.fingerprint = assignmentFingerprint config.sha256 order ∧
      Issued config issued order.assignmentId := by
  cases hbefore : m.journal.lookup order.assignmentId with
  | none =>
      rcases lookup_of_exec hbefore hrecord with ⟨delivery, rfl, hid, rfl⟩
      have hmem : .claim delivery ∈ Task.claim delivery ::ₘ ts := Multiset.mem_cons_self _ ts
      rcases h.caused _ delivery.envelope hmem (by rw [<- hid]; rfl) with ⟨hsource, hissued⟩
      refine ⟨hsource, ?_, hissued⟩
      rw [<- h.claiming delivery hmem hid]
      rfl
  | some before =>
      rcases exec_grows config m t r _ before hbefore with ⟨after, hafter, hcontinues⟩
      rw [hrecord] at hafter
      cases hafter
      rw [hcontinues.issuerId, hcontinues.fingerprint]
      exact h.record before hbefore

theorem Assigned.exec (h : Assigned config issuerId issued order m (t ::ₘ ts))
    (hids : Identified m (t ::ₘ ts)) (hrequested : Requested m (t ::ₘ ts))
    (hcarries : Carries config issued order)
    (hC : SentBy config issuerId order.assignmentId m ts (.exec t r)) :
    Assigned config issuerId issued order (exec config m t r).1
      (((exec config m t r).2.tasks : Multiset Task) + ts) := by
  have hmem : t ∈ t ::ₘ ts := Multiset.mem_cons_self t ts
  constructor
  · intro envelope ht'
    rcases Multiset.mem_add.mp ht' with hnew | hold
    · cases exec_succeeds config m r (Multiset.mem_coe.mp hnew) with
      | claimed hpending _ => cases hpending
      | superseded _ _ ht => simp [report] at ht
      | completed _ ht => simp [report] at ht
    · exact h.received envelope (Multiset.mem_cons_of_mem hold)
  · intro t' envelope ht' hcause
    rcases Multiset.mem_add.mp ht' with hnew | hold
    · exact h.caused_successor hids hC (Multiset.mem_coe.mp hnew) hcause
    · exact h.caused t' envelope (Multiset.mem_cons_of_mem hold) hcause
  · intro delivery hqueue hid
    rcases queue_of_exec hqueue with hold | rfl
    · exact h.queued delivery hold hid
    · exact h.caused _ delivery.envelope hmem (by rw [<- hid]; rfl)
  · intro delivery ht' hid
    rcases Multiset.mem_add.mp ht' with hnew | hold
    · rcases claim_of_exec (Multiset.mem_coe.mp hnew) with ⟨rfl, hdecoded, _⟩
      rcases h.received delivery.envelope hmem with ⟨hkind, hissued⟩
      exact hcarries _ _ (hissued (hC delivery.assignment hdecoded hid)) hkind hdecoded hid
    · exact h.claiming delivery (Multiset.mem_cons_of_mem hold) hid
  · intro record hrecord
    exact h.record_exec hrecord
  · intro publication hpublication hconcerns
    rcases sent_of_exec hpublication hconcerns with hold | ⟨stamp, rfl⟩
    · exact h.sent publication hold hconcerns
    · rcases reported_or_requested hconcerns with ⟨status, hreported⟩ | hanswer
      · refine h.caused _ publication.cause hmem ?_
        rw [Task.cause?, hreported]
        rfl
      · have howned : Owned m.journal order.assignmentId publication.cause.sourceId := by
          refine hrequested.tasks _ (_, publication.cause) hmem ?_
          rw [Task.requested?, hanswer]
          rfl
        rcases howned with ⟨record, hrecord, hissuer⟩
        rcases h.record record hrecord with ⟨hsame, _, hissued⟩
        exact ⟨hissuer.symm.trans hsame, hissued⟩

end

theorem assigned_keeps (config : Config) (issuerId : String) (issued : List Envelope)
    (order : Assignment) (hcarries : Carries config issued order) :
    (machine config).Keeps
      ((ReceivesFrom issuerId issued).both (SentBy config issuerId order.assignmentId))
      (fun m ts => Identified m ts ∧ Requested m ts) (Assigned config issuerId issued order) where
  drop := Assigned.drop
  spawn {m ts entry} _ h hC := by
    have hstart : forall t, t ∈ (start entry : Multiset Task) -> Starts entry t :=
      fun t ht => start_cases (Multiset.mem_coe.mp ht)
    constructor
    · intro envelope ht
      rcases Multiset.mem_add.mp ht with hold | hnew
      · exact h.received envelope hold
      · cases hstart _ hnew with
        | assignment hkind => exact ⟨hkind, hC.1⟩
    · intro t envelope ht hcause
      rcases Multiset.mem_add.mp ht with hold | hnew
      · exact h.caused t envelope hold hcause
      · cases hstart _ hnew <;> cases hcause
    · exact h.queued
    · intro delivery ht hid
      rcases Multiset.mem_add.mp ht with hold | hnew
      · exact h.claiming delivery hold hid
      · cases hstart _ hnew
    · exact h.record
    · exact h.sent
  crash {m ts} _ h := by
    constructor
    · intro envelope ht
      cases Multiset.notMem_zero _ ht
    · intro t envelope ht
      cases Multiset.notMem_zero _ ht
    · intro delivery hqueue
      cases hqueue
    · intro delivery ht
      cases Multiset.notMem_zero _ ht
    · intro record hrecord
      have hfound : m.journal.reopen.lookup order.assignmentId = some record := hrecord
      rw [lookup_reopen] at hfound
      rcases Option.map_eq_some_iff.mp hfound with ⟨before, hbefore, rfl⟩
      have hcontinues := continues_interrupted before
      rw [hcontinues.issuerId, hcontinues.fingerprint]
      exact h.record before hbefore
    · exact h.sent
  exec hJ h hC := h.exec hJ.1 hJ.2 hcarries hC.2

/-- In every run in which the issuer alone delivers the order, all that the participant has
to do with it and has said of it goes back to the issuer. -/
theorem reaches_assigned {config : Config} {issuerId : String} {issued : List Envelope}
    {order : Assignment} (hcarries : Carries config issued order) {p : Pool Memory Task}
    (h : (machine config).Reaches
      ((ReceivesFrom issuerId issued).both (SentBy config issuerId order.assignmentId))
      initial p) : Assigned config issuerId issued order p.shared p.tasks := by
  refine (assigned_keeps config issuerId issued order hcarries).reaches h ?_ ?_
  · intro q hq
    have halways := hq.weaken (fun _ _ _ _ => trivial)
    exact ⟨reaches_settles (identified_settles config) halways, reaches_requested halways⟩
  · constructor
    · intro envelope ht
      cases Multiset.notMem_zero _ ht
    · intro t envelope ht
      cases Multiset.notMem_zero _ ht
    · intro delivery hqueue
      cases hqueue
    · intro delivery ht
      cases Multiset.notMem_zero _ ht
    · intro record hrecord
      cases hrecord
    · intro publication hsent
      cases hsent

end Ump.Participant
