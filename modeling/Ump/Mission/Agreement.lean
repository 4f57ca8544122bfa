import Ump.Coordinator.Reports
import Ump.Foundation.Joint
import Ump.Participant.SoleIssuer

/-!
# A coordinator and a robot

## Joint runs

The coordinator and the participant of one robot run side by side. What each hears from
the other has been sent before, but it may be lost, repeated or overtaken, and each may
crash at any time. The coordinator's other robots and the participant's other peers say
what they like, but no one else assigns the work that is looked at. Of its deliveries the
first comes before anything has been said of the work. A later one is refused like the first,
or it finds the record of the work and passes the checks that come before the journal: an
early delivery that is refused, and then repeated inside its window, is executed although the
coordinator has settled it.
-/

namespace Ump.Mission

open Foundation

abbrev Parties :=
  Joint Coordinator.Memory Coordinator.Task Participant.Memory Participant.Task

/-- What the coordinator hears from the robot, the participant has sent. -/
def hears (robotId : String) : Joint.Guard Participant.Memory Coordinator.Memory
    Coordinator.Task Coordinator.Reading Coordinator.Entry :=
  fun m => Coordinator.ReceivesFrom robotId (m.sent.map Participant.Publication.envelope)

/-- What the participant hears from the coordinator, the coordinator has published. Only
the coordinator sends the assignment, and a repeated delivery is refused or accepted as the
first one was. -/
def obeys (config : Participant.Config) (coordinatorId assignmentId : String) :
    Joint.Guard Coordinator.Memory Participant.Memory Participant.Task Participant.Reading
      Participant.Entry :=
  fun m => (Participant.ReceivesFrom coordinatorId (m.published.map Prod.snd)).both
    (Participant.OneIssuer config coordinatorId assignmentId)

def initial : Parties where
  left := Coordinator.initial
  right := Participant.initial

def Reaches (coordinator : Coordinator.Config) (participant : Participant.Config)
    (assignmentId : String) : Parties -> Parties -> Prop :=
  Joint.Reaches (Coordinator.machine coordinator) (Participant.machine participant)
    (hears participant.robotId) (obeys participant coordinator.coordinatorId assignmentId)

/-- The participant has told the coordinator how the work of the row has ended, and its
journal says the same. -/
def Agreed (coordinatorId : String) (m : Participant.Memory) (row : Coordinator.StepRow) :
    Prop :=
  exists publication status, publication ∈ m.sent ∧
    publication.message.says? = some (row.assignmentId, status) ∧
    publication.cause.sourceId = coordinatorId ∧
    Coordinator.CoordinatorStore.reconciledStep? status = some row.status ∧
    ((exists record stored, m.journal.lookup row.assignmentId = some record ∧
        record.issuerId = coordinatorId ∧ record.outcome = some stored ∧
        stored.status = status) ∨
      (status = .rejected ∧ m.journal.lookup row.assignmentId = none))

/-!
## What has been sent stays sent
-/

theorem coordinator_advances (config : Coordinator.Config) :
    (Coordinator.machine config).Advances (fun a b => a.published <+: b.published) where
  refl _ := List.prefix_rfl
  trans := List.IsPrefix.trans
  exec m t r := by
    show m.published <+: (Coordinator.exec config m t r).1.published
    rcases Coordinator.exec_published config m t r with hsame | ⟨_, _, _, _, _, hresult⟩
    · exact hsame ▸ List.prefix_rfl
    · rw [hresult]
      exact List.prefix_append _ _
  restart _ := List.prefix_rfl

theorem participant_advances (config : Participant.Config) :
    (Participant.machine config).Advances (fun a b => a.sent <+: b.sent) where
  refl _ := List.prefix_rfl
  trans := List.IsPrefix.trans
  exec m t r := by
    show m.sent <+: (Participant.exec config m t r).1.sent
    rcases Participant.exec_says config m t r with hsame | ⟨_, hadded, _⟩
    · exact hsame ▸ List.prefix_rfl
    · rw [hadded]
      exact List.prefix_append _ _
  restart _ := List.prefix_rfl

theorem hears_lasts (robotId : String) :
    (hears robotId).Lasts (fun a b => a.sent <+: b.sent) := by
  intro a b hgrows m ts move hmove
  cases move with
  | spawn entry =>
      cases entry with
      | receive envelope => exact fun hsource => (hgrows.map _).subset (hmove hsource)
      | _ => trivial
  | exec t r => trivial

theorem receivesFrom_lasts {coordinatorId : String} {a b : Coordinator.Memory}
    (hgrows : a.published <+: b.published) (m : Participant.Memory)
    (ts : Multiset Participant.Task)
    (move : Move Participant.Task Participant.Reading Participant.Entry)
    (h : Participant.ReceivesFrom coordinatorId (a.published.map Prod.snd) m ts move) :
    Participant.ReceivesFrom coordinatorId (b.published.map Prod.snd) m ts move := by
  cases move with
  | spawn entry =>
      cases entry with
      | receive envelope => exact fun hsource => (hgrows.map _).subset (h hsource)
      | _ => trivial
  | exec t r => trivial

theorem obeys_lasts (config : Participant.Config) (coordinatorId assignmentId : String) :
    (obeys config coordinatorId assignmentId).Lasts
      (fun a b => a.published <+: b.published) :=
  fun hgrows m ts move hmove => ⟨receivesFrom_lasts hgrows m ts move hmove.1, hmove.2⟩

/-!
## Envelopes carry their messages
-/

/-- The type and the payload of each published envelope are those of its message. -/
def Issues (m : Coordinator.Memory) : Prop :=
  forall publication, publication ∈ m.published ->
    publication.2.messageType = publication.1.messageType ∧
      publication.2.payload = publication.1.payload

theorem issues_keeps (config : Coordinator.Config) :
    (Coordinator.machine config).Keeps .always (fun _ _ => True) (fun m _ => Issues m) where
  drop h _ := h
  spawn _ h _ := h
  crash _ h := h
  exec {m t ts r} _ h _ := by
    show Issues (Coordinator.exec config m t r).1
    rcases Coordinator.exec_published config m t r with
      hsame | ⟨message, nowMs, correlationId, sequence, _, hresult⟩
    · unfold Issues
      rw [hsame]
      exact h
    · rw [hresult]
      intro publication hpublication
      rcases List.mem_append.mp hpublication with hold | hnew
      · exact h publication hold
      · rw [List.mem_singleton.mp hnew]
        exact ⟨rfl, rfl⟩

/-- The type and the payload of each sent envelope are those of its message. -/
def Speaks (robotId : String) (m : Participant.Memory) : Prop :=
  forall publication, publication ∈ m.sent ->
    publication.envelope.messageType = publication.message.messageType ∧
      publication.envelope.payload = publication.message.payload robotId

theorem speaks_keeps (config : Participant.Config) :
    (Participant.machine config).Keeps .always (fun _ _ => True)
      (fun m _ => Speaks config.robotId m) where
  drop h _ := h
  spawn _ h _ := h
  crash _ h := h
  exec {m t ts r} _ h _ := by
    show Speaks config.robotId (Participant.exec config m t r).1
    rcases Participant.exec_says config m t r with hsame | ⟨added, hadded, _, htype, hpayload⟩
    · unfold Speaks
      rw [hsame]
      exact h
    · unfold Speaks
      rw [hadded]
      intro publication hpublication
      rcases List.mem_append.mp hpublication with hold | hnew
      · exact h publication hold
      · rw [List.mem_singleton.mp hnew]
        exact ⟨htype, hpayload⟩

theorem eq_of_decodeAssignment {a b : Assignment} (h : decodeAssignment a.payload = .ok b) :
    b = a := by
  have hread : decodeAssignment a.payload = (a.check >>= fun _ => .ok a) := by
    have hstep := decodeStep_payload a.step
    have hlease := text?_optional a.authorityLeaseId
    simp [decodeAssignment, Assignment.payload, Json.item, Json.get, Json.text,
      List.lookup_cons, bind, Except.bind, hstep, hlease]
  rw [hread] at h
  rcases bind_eq_ok.mp h with ⟨_, _, hsame⟩
  exact (Except.ok.inj hsame).symm

theorem assignmentOf_payload_eq_ok {robotId : String} {a b : Assignment}
    (h : Participant.assignmentOf robotId a.payload = .ok (some b)) :
    b = a ∧ a.step.assignedRobotId = robotId := by
  rcases bind_eq_ok.mp h with ⟨step, hstep, h⟩
  rcases bind_eq_ok.mp h with ⟨assigned, hassigned, h⟩
  have hsame : a.step.payload = step := Except.ok.inj hstep
  rw [← hsame] at hassigned
  have htext : Json.str a.step.assignedRobotId = assigned := Except.ok.inj hassigned
  split_ifs at h with hrobot
  · rcases bind_eq_ok.mp h with ⟨decoded, hdecoded, h⟩
    cases h
    rw [← htext] at hrobot
    exact ⟨eq_of_decodeAssignment hdecoded, beq_iff_eq.mp hrobot⟩
  · cases h

theorem message_of_type {message : Coordinator.Message}
    (h : message.messageType = .assignment) : exists a, message = .assignment a := by
  cases message with
  | assignment a => exact ⟨a, rfl⟩
  | _ => cases h

theorem published_of_issued {robotId : String} {m : Coordinator.Memory} (hissues : Issues m)
    {envelope : Envelope} (henvelope : envelope ∈ m.published.map Prod.snd)
    (hkind : envelope.messageType = .assignment) {assignment : Assignment}
    (hdecoded : Participant.assignmentOf robotId envelope.payload = .ok (some assignment)) :
    assignment ∈ m.publishedAssignments ∧ assignment.step.assignedRobotId = robotId := by
  rcases List.mem_map.mp henvelope with ⟨publication, hpublication, rfl⟩
  rcases hissues publication hpublication with ⟨htype, hpayload⟩
  rcases message_of_type (htype.symm.trans hkind) with ⟨a, ha⟩
  rw [hpayload, ha] at hdecoded
  rcases assignmentOf_payload_eq_ok hdecoded with ⟨rfl, hrobot⟩
  refine ⟨List.mem_filterMap.mpr ⟨publication, hpublication, ?_⟩, hrobot⟩
  rw [ha]
  rfl

theorem carries_row {config : Participant.Config} {m : Coordinator.Memory}
    {ts : Multiset Coordinator.Task} (hordered : Coordinator.Ordered m ts) (hissues : Issues m)
    {row : Coordinator.StepRow} (hrow : row ∈ m.store.runSteps.rows) :
    Participant.Carries config (m.published.map Prod.snd) row.assignment := by
  intro envelope assignment henvelope hkind hdecoded hid
  have hpublished := (published_of_issued hissues henvelope hkind hdecoded).1
  rcases (hordered.published assignment hpublished).1 with ⟨other, hother, hsame, hotherId, _⟩
  have hids : other.assignmentId = row.assignmentId := by
    rw [hotherId, hid, (hordered.rows row hrow).assignmentId]
  rw [← hsame, Coordinator.CoordinatorStore.eq_of_assignmentId hother hrow hids]

theorem value_injective {a b : AssignmentStatus} (h : a.value = b.value) : a = b := by
  have hread := congrArg AssignmentStatus.ofValue? h
  simpa using hread

/-- What the coordinator reads from a message of the participant is what the message says. -/
theorem says_of_reports {robotId : String} {publication : Participant.Publication}
    (htype : publication.envelope.messageType = publication.message.messageType)
    (hpayload : publication.envelope.payload = publication.message.payload robotId)
    {assignmentId : String} {status : AssignmentStatus}
    (h : Coordinator.Reports publication.envelope assignmentId status) :
    publication.message.says? = some (assignmentId, status) := by
  cases hmessage : publication.message with
  | acknowledgement id said description =>
      rw [hmessage] at htype hpayload
      cases h with
      | acknowledgement hkind hid hstatus =>
          rw [hpayload] at hid hstatus
          have hids : id = assignmentId := Json.str.inj (Except.ok.inj hid)
          have hvalues : said.value = status.value := Json.str.inj (Except.ok.inj hstatus)
          rw [hids, value_injective hvalues]
          rfl
      | outcome hkind => rw [htype] at hkind; cases hkind
      | snapshot hkind => rw [htype] at hkind; cases hkind
  | outcome o =>
      rw [hmessage] at htype hpayload
      cases h with
      | outcome hkind hid hstatus =>
          rw [hpayload] at hid hstatus
          have hids : o.assignmentId = assignmentId := Json.str.inj (Except.ok.inj hid)
          have hvalues : o.status.value = status.value := Json.str.inj (Except.ok.inj hstatus)
          rw [← hids, ← value_injective hvalues]
          rfl
      | acknowledgement hkind => rw [htype] at hkind; cases hkind
      | snapshot hkind => rw [htype] at hkind; cases hkind
  | assignmentSnapshot id said description fingerprint stored =>
      rw [hmessage] at htype hpayload
      cases h with
      | @snapshot data hkind hid hdata hstatus =>
          rw [hpayload] at hid hdata
          have hids : id = assignmentId := Json.str.inj (Except.ok.inj hid)
          have hstored : Json.optional Outcome.payload stored = data := Except.ok.inj hdata
          rw [← hstored] at hstatus
          cases stored with
          | none => cases hstatus
          | some o =>
              have hvalues : o.status.value = status.value :=
                Json.str.inj (Except.ok.inj hstatus)
              rw [hids, ← value_injective hvalues]
              rfl
      | acknowledgement hkind => rw [htype] at hkind; cases hkind
      | outcome hkind => rw [htype] at hkind; cases hkind
  | _ =>
      rw [hmessage] at htype
      cases h with
      | _ hkind => rw [htype] at hkind; cases hkind

theorem known_of_reconciled {status : AssignmentStatus} {step : Coordinator.StepStatus}
    (h : Coordinator.CoordinatorStore.reconciledStep? status = some step) :
    Participant.Known status := by
  cases status <;> first | (cases h; done) | exact ⟨by decide, by decide⟩

/-!
## A settled row

Each side of a joint run is a run of its own machine, under what the last memory of the other
side allows.
-/

section

variable {coordinator : Coordinator.Config} {participant : Participant.Config}
variable {assignmentId : String} {p : Pool Coordinator.Memory Coordinator.Task}
variable {q : Pool Participant.Memory Participant.Task} {row : Coordinator.StepRow}

theorem heard_of_settled
    (hleft : (Coordinator.machine coordinator).Reaches (hears participant.robotId q.shared)
      Coordinator.initial p)
    (hspeaks : Speaks participant.robotId q.shared)
    (hrow : row ∈ p.shared.store.runSteps.rows)
    (hrobot : row.assignment.step.assignedRobotId = participant.robotId)
    (hsettled : row.status.settled = true) :
    Coordinator.Withheld p.shared p.tasks row ∨
      exists publication status, publication ∈ q.shared.sent ∧
        publication.message.says? = some (row.assignmentId, status) ∧
        Coordinator.CoordinatorStore.reconciledStep? status = some row.status := by
  rcases (Coordinator.reaches_informed hleft).rows row hrow hrobot hsettled with hwithheld |
    ⟨envelope, status, henvelope, hreports, hstatus⟩
  · exact Or.inl hwithheld
  · rcases List.mem_map.mp henvelope with ⟨publication, hpublication, rfl⟩
    exact Or.inr ⟨publication, status, hpublication, says_of_reports
      (hspeaks publication hpublication).1 (hspeaks publication hpublication).2 hreports, hstatus⟩

theorem carries_of_row
    (hleft : (Coordinator.machine coordinator).Reaches .always Coordinator.initial p)
    (hrow : row ∈ p.shared.store.runSteps.rows) :
    row.assignment.assignmentId = row.assignmentId ∧
      Participant.Carries participant (p.shared.published.map Prod.snd) row.assignment := by
  have hordered := Coordinator.reaches_ordered hleft
  have hissues : Issues p.shared :=
    (issues_keeps coordinator).reaches hleft (fun _ _ => trivial)
      (fun _ hnone => by cases hnone)
  exact ⟨(hordered.rows row hrow).assignmentId.symm, carries_row hordered hissues hrow⟩

theorem sole_of_row
    (hleft : (Coordinator.machine coordinator).Reaches .always Coordinator.initial p)
    (hright : (Participant.machine participant).Reaches
      (obeys participant coordinator.coordinatorId assignmentId p.shared)
      Participant.initial q)
    (hrow : row ∈ p.shared.store.runSteps.rows) (hid : row.assignmentId = assignmentId) :
    row.assignment.assignmentId = assignmentId ∧
      Participant.Assigned participant coordinator.coordinatorId
        (p.shared.published.map Prod.snd) row.assignment q.shared q.tasks ∧
      Participant.Sole row.assignment q.shared q.tasks := by
  rcases carries_of_row hleft hrow with ⟨hsame, hcarries⟩
  have horder := hsame.trans hid
  refine ⟨horder, Participant.reaches_sole hcarries ?_⟩
  rw [horder]
  exact hright

theorem settled_agreed
    (hleft : (Coordinator.machine coordinator).Reaches (hears participant.robotId q.shared)
      Coordinator.initial p)
    (hright : (Participant.machine participant).Reaches
      (obeys participant coordinator.coordinatorId assignmentId p.shared)
      Participant.initial q)
    (hrow : row ∈ p.shared.store.runSteps.rows) (hid : row.assignmentId = assignmentId)
    (hrobot : row.assignment.step.assignedRobotId = participant.robotId)
    (hsettled : row.status.settled = true) :
    Coordinator.Withheld p.shared p.tasks row ∨
      Agreed coordinator.coordinatorId q.shared row := by
  have hspeaks : Speaks participant.robotId q.shared :=
    (speaks_keeps participant).reaches (hright.weaken (fun _ _ _ _ => trivial))
      (fun _ _ => trivial) (fun _ hnone => by cases hnone)
  rcases heard_of_settled hleft hspeaks hrow hrobot hsettled with hwithheld |
    ⟨publication, status, hpublication, hreported, hstatus⟩
  · exact Or.inl hwithheld
  · right
    rcases sole_of_row (hleft.weaken (fun _ _ _ _ => trivial)) hright hrow hid with
      ⟨horder, hassigned, hsole⟩
    have hids : row.assignment.assignmentId = row.assignmentId := horder.trans hid.symm
    have hsays := hids ▸ hreported
    have hsource := (hassigned.sent publication hpublication
      (Participant.concerns_of_reported hsays)).1
    refine ⟨publication, status, hpublication, hreported, hsource, hstatus, ?_⟩
    rw [← hids]
    rcases hsole.sent publication status hpublication hsays (known_of_reconciled hstatus) with
      ⟨record, stored, hrecord, hstored, hsame⟩ | hrejected
    · exact Or.inl ⟨record, stored, hrecord, (hassigned.record record hrecord).1, hstored, hsame⟩
    · exact Or.inr hrejected

end

/-- In every joint run under the two guards, a row of the assignment that has settled was
withheld before its dispatch, or the participant has said how the work has ended and its
journal says the same. -/
theorem mission_agreement (coordinator : Coordinator.Config)
    (participant : Participant.Config) (assignmentId : String) (s : Parties)
    (h : Reaches coordinator participant assignmentId initial s) (row : Coordinator.StepRow)
    (hrow : row ∈ s.left.shared.store.runSteps.rows) (hid : row.assignmentId = assignmentId)
    (hrobot : row.assignment.step.assignedRobotId = participant.robotId)
    (hsettled : row.status.settled = true) :
    Coordinator.Withheld s.left.shared s.left.tasks row ∨
      Agreed coordinator.coordinatorId s.right.shared row :=
  settled_agreed
    (h.left (participant_advances participant) (hears_lasts participant.robotId))
    (h.right (coordinator_advances coordinator)
      (obeys_lasts participant coordinator.coordinatorId assignmentId))
    hrow hid hrobot hsettled

/-!
## The walk, from its dispatch to its outcome
-/

def patrolIssued : Envelope :=
  Coordinator.sealMessage Coordinator.patrolConfig .initial (.assignment Participant.patrolOrder)
    0 "patrol" 3 "a"

def patrolAnswer : Envelope where
  messageId := "m"
  messageType := .outcome
  sourceId := "r1"
  sessionId := "session"
  sequence := 2
  timestampMs := 0
  payload := Participant.patrolArrived.payload
  correlationId := some "patrol"
  stream := .operational

def spawnsNothing {memory task reading entry : Type} (_ : Pool memory task) :
    Action reading entry -> Bool
  | .spawn _ => false
  | _ => true

theorem meets_of_spawnsNothing (m : Participant.Memory)
    (p : Pool Coordinator.Memory Coordinator.Task)
    (a : Action Coordinator.Reading Coordinator.Entry) (h : spawnsNothing p a = true) :
    Machine.Meets (hears "r1" m) p a := by
  cases a with
  | spawn entry => cases h
  | run i r => exact fun _ _ _ _ => trivial
  | _ => trivial

/-- No message comes in, or the only one is about to be checked. -/
def firstDelivery (p : Pool Participant.Memory Participant.Task) :
    Action Participant.Reading Participant.Entry -> Bool
  | .spawn _ => false
  | .run i _ =>
      match p.nextTask i with
      | some (.assignment envelope) =>
          decide (envelope.sourceId = "c") && p.shared.journal.assignments.rows.isEmpty &&
            p.shared.sent.isEmpty && decide (p.threads.flatten.length = 1)
      | _ => true
  | _ => true

theorem oneIssuer_of_firstDelivery {config : Participant.Config}
    {p : Pool Participant.Memory Participant.Task} {i : Nat} {r : Participant.Reading}
    (h : firstDelivery p (.run i r) = true) {t : Participant.Task}
    {others : Multiset Participant.Task} (hnext : p.nextTask i = some t)
    (htasks : p.tasks = t ::ₘ others) (assignmentId : String) :
    Participant.OneIssuer config "c" assignmentId p.shared others (.exec t r) := by
  simp only [firstDelivery, hnext] at h
  cases t with
  | assignment envelope =>
      intro assignment _ _
      simp only [Bool.and_eq_true, decide_eq_true_eq, List.isEmpty_iff] at h
      rcases h with ⟨⟨⟨hsource, hempty⟩, hsilent⟩, hone⟩
      refine ⟨hsource, Or.inl ⟨?_, ?_, ?_⟩⟩
      · apply Table.fetch_eq_none.mpr
        rw [hempty]
        intro record hrecord
        cases hrecord
      · have hcard : p.tasks.card = 1 := hone
        rw [htasks, Multiset.card_cons] at hcard
        rw [Multiset.card_eq_zero.mp (Nat.succ.inj hcard)]
        intro t ht
        cases Multiset.notMem_zero t ht
      · rw [hsilent]
        intro publication hnone
        cases hnone
  | _ => trivial

theorem meets_of_firstDelivery (config : Participant.Config) (assignmentId : String)
    (m : Coordinator.Memory) (p : Pool Participant.Memory Participant.Task)
    (a : Action Participant.Reading Participant.Entry) (h : firstDelivery p a = true) :
    Machine.Meets (obeys config "c" assignmentId m) p a := by
  cases a with
  | spawn entry => cases h
  | run i r =>
      intro t others hnext htasks
      exact ⟨trivial, oneIssuer_of_firstDelivery h hnext htasks assignmentId⟩
  | _ => trivial

theorem patrol_dispatched :
    exists p, (Coordinator.machine Coordinator.patrolConfig).runWhere spawnsNothing
        (Coordinator.patrolSubmitted ["s1"]) (Coordinator.patrolMoves 0 9) = some p ∧
      patrolIssued ∈ p.shared.published.map Prod.snd := by
  have hdispatched : ((Coordinator.machine Coordinator.patrolConfig).runWhere spawnsNothing
      (Coordinator.patrolSubmitted ["s1"]) (Coordinator.patrolMoves 0 9)).bind
        (fun p => p.shared.published[2]?.map Prod.snd) = some patrolIssued := by
    rfl
  rcases Option.bind_eq_some_iff.mp hdispatched with ⟨p, hp, hissued⟩
  rcases Option.map_eq_some_iff.mp hissued with ⟨issued, hissued, hsealed⟩
  exact ⟨p, hp, List.mem_map.mpr ⟨issued, List.mem_of_getElem? hissued, hsealed⟩⟩

set_option maxRecDepth 8000 in
theorem patrol_walks :
    exists s row, Reaches Coordinator.patrolConfig (Participant.patrolConfig 0) "a" initial s ∧
      row ∈ s.left.shared.store.runSteps.rows ∧ row.assignmentId = "a" ∧
      row.assignment = Participant.patrolOrder ∧ row.status = .succeeded := by
  have hanswered : ((Participant.machine (Participant.patrolConfig 0)).runWhere firstDelivery
      { shared := .initial, threads := [[.assignment patrolIssued]] }
      (Participant.patrolTasks 0 8 0)).bind
        (fun p => p.shared.sent[1]?.map Participant.Publication.envelope) =
          some patrolAnswer := by
    rfl
  rcases patrol_dispatched with ⟨p, hp, hissued⟩
  rcases Option.bind_eq_some_iff.mp hanswered with ⟨q, hq, hanswer⟩
  rcases Option.map_eq_some_iff.mp hanswer with ⟨answer, hanswer, henvelope⟩
  have hrecorded : (((Coordinator.machine Coordinator.patrolConfig).runWhere spawnsNothing
      (Coordinator.patrolSubmitted ["s1"]) (Coordinator.patrolMoves 0 9)).bind (fun p =>
        (Coordinator.machine Coordinator.patrolConfig).runWhere spawnsNothing
          { p with threads := p.threads ++ [[.outcome patrolAnswer]] }
          (Coordinator.patrolMoves 1 3))).bind (fun p =>
            p.shared.store.runSteps.rows[0]?.map (fun row =>
              (row.assignmentId, row.assignment, row.status))) =
        some ("a", Participant.patrolOrder, .succeeded) := by
    rfl
  rw [hp, Option.bind_some] at hrecorded
  rcases Option.bind_eq_some_iff.mp hrecorded with ⟨last, hlast, hrow⟩
  rcases Option.map_eq_some_iff.mp hrow with ⟨row, hrow, hfields⟩
  rcases Prod.mk.inj hfields with ⟨hid, hfields⟩
  rcases Prod.mk.inj hfields with ⟨horder, hstatus⟩
  refine ⟨{ left := last, right := q }, row, ?_, List.mem_of_getElem? hrow, hid, horder, hstatus⟩
  have hsubmitted : Joint.Reaches (Coordinator.machine Coordinator.patrolConfig)
      (Participant.machine (Participant.patrolConfig 0)) (hears "r1")
      (obeys (Participant.patrolConfig 0) "c" "a") initial { initial with left := p } := by
    apply Joint.Reaches.of_left
    exact (Coordinator.patrolSubmitted_reached (Or.inr rfl) trivial trivial).trans
      (Machine.runWhere_reaches (meets_of_spawnsNothing _) hp)
  have hwalked : Joint.Reaches (Coordinator.machine Coordinator.patrolConfig)
      (Participant.machine (Participant.patrolConfig 0)) (hears "r1")
      (obeys (Participant.patrolConfig 0) "c" "a") { initial with left := p }
      { left := p, right := q } := by
    apply Joint.Reaches.of_right
    exact .head ⟨.spawn (.receive patrolIssued), ⟨fun _ => hissued, trivial⟩, rfl⟩
      (Machine.runWhere_reaches (meets_of_firstDelivery _ _ _) hq)
  refine hsubmitted.trans (hwalked.trans ?_)
  apply Joint.Reaches.of_left
  refine .head ⟨.spawn (.receive patrolAnswer), fun _ => ?_, rfl⟩
    (Machine.runWhere_reaches (meets_of_spawnsNothing _) hlast)
  exact List.mem_map.mpr ⟨answer, List.mem_of_getElem? hanswer, henvelope⟩

theorem patrol_mission_agreement :
    exists s row, Reaches Coordinator.patrolConfig (Participant.patrolConfig 0) "a" initial s ∧
      row ∈ s.left.shared.store.runSteps.rows ∧ row.status = .succeeded ∧
      Agreed "c" s.right.shared row := by
  rcases patrol_walks with ⟨s, row, hreaches, hrow, hid, horder, hstatus⟩
  refine ⟨s, row, hreaches, hrow, hstatus, ?_⟩
  rcases mission_agreement Coordinator.patrolConfig (Participant.patrolConfig 0) "a" s hreaches
      row hrow hid (by rw [horder]; rfl) (by rw [hstatus]; rfl) with hwithheld | hagreed
  · have hcancelled := hwithheld.1
    rw [hstatus] at hcancelled
    cases hcancelled
  · exact hagreed

end Ump.Mission
