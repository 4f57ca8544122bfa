import Ump.Foundation.Thread
import Ump.Participant.Effects

/-!
# Redelivered assignments

## What answers a delivery

A delivery whose assignment has a record is answered from the record once it has reached
the journal. The clock, the authority, the manifest and the schema are checked before, so
a delivery that was good when the record was made may be refused when it comes again.
-/

namespace Ump.Participant

open Foundation Journal

abbrev DeliveryTurn := Turn Memory Task Reading

def published (config : Config) (turn : DeliveryTurn) : List Message :=
  ((exec config turn.found turn.task turn.reading).1.sent.drop turn.found.sent.length).map
    (fun publication => publication.message)

def answers (config : Config) (log : List DeliveryTurn) : List Message :=
  log.flatMap (published config)

/-- Thread `i` handles an assignment to its end. The journal has its record, with the same
fingerprint and the same issuer, when the envelope comes in. -/
structure Redelivery (config : Config) (i : Nat) (envelope : Envelope) (assignment : Assignment)
    (p : Pool Memory Task) (log : List DeliveryTurn) (q : Pool Memory Task) : Prop where
  thread : p.threads[i]? = some [.assignment envelope]
  decoded : assignmentOf config.robotId envelope.payload = .ok (some assignment)
  recorded : exists record, p.shared.journal.lookup assignment.assignmentId = some record ∧
    record.fingerprint = assignmentFingerprint config.sha256 assignment ∧
    record.issuerId = envelope.sourceId
  served : (machine config).Serves i p log q

/-- The stored outcome, or that the outcome is unknown. -/
def Tells (record : JournalRecord) (outcome : Outcome) : Prop :=
  match record.outcome with
  | some stored => outcome = stored
  | none => outcome.assignmentId = record.assignmentId ∧ outcome.status = .unknown

/-- An acknowledgement and an outcome are published, as the record tells that the journal
holds at one of the turns, and nothing else. -/
def Replayed (config : Config) (assignmentId : String) (log : List DeliveryTurn) : Prop :=
  exists turn record outcome description, turn ∈ log ∧
    turn.found.journal.lookup assignmentId = some record ∧ Tells record outcome ∧
    answers config log =
      [.acknowledgement assignmentId outcome.status description, .outcome outcome]

/-- The checks of the first turn let the delivery pass, or they refuse it with the very
outcome that the journal stores at one of the turns. -/
def PassesAgain (config : Config) (assignment : Assignment) (log : List DeliveryTurn) : Prop :=
  exists first rest, log = first :: rest ∧
    (checkDelivery config assignment first.reading = .ok () ∨
      exists description outcome,
        checkDelivery config assignment first.reading = .error (.rejected description) ∧
        ownOutcome config assignment.assignmentId .rejected description = .ok outcome ∧
        exists turn record, turn ∈ log ∧
          turn.found.journal.lookup assignment.assignmentId = some record ∧
          record.outcome = some outcome)

/-!
## What is published
-/

theorem published_nothing {config : Config} {turn : DeliveryTurn}
    (h : (exec config turn.found turn.task turn.reading).1.sent = turn.found.sent) :
    published config turn = [] := by
  unfold published
  rw [h, List.drop_length, List.map_nil]

theorem answers_cons_nothing {config : Config} {turn : DeliveryTurn} {log : List DeliveryTurn}
    (h : (exec config turn.found turn.task turn.reading).1.sent = turn.found.sent) :
    answers config (turn :: log) = answers config log := by
  unfold answers
  rw [List.flatMap_cons, published_nothing h, List.nil_append]

theorem published_send {config : Config} {m : Memory} {message : Message} {stamp : Option Int}
    {cause : Envelope} {r : Reading} (hcheck : message.check config.robotId = .ok ()) :
    published config { found := m, task := .send message stamp cause, reading := r } =
      [message] := by
  unfold published
  simp only [exec, hcheck]
  simp [attempt, publish]

theorem answers_sends {config : Config} {i : Nat}
    {sends : List (Message × Option Int × Envelope)} {p q : Pool Memory Task}
    {log : List DeliveryTurn} (h : (machine config).Serves i p log q)
    (hthread : p.threads[i]? =
      some (sends.map (fun sent => .send sent.1 sent.2.1 sent.2.2)))
    (hchecks : forall sent, sent ∈ sends -> sent.1.check config.robotId = .ok ()) :
    answers config log = sends.map (fun sent => sent.1) := by
  induction sends generalizing p log with
  | nil =>
      rw [h.nil hthread]
      rfl
  | cons sent rest ih =>
      rcases h.cons hthread with ⟨mid, r, log', _, rfl, next, _, hnext, hserves⟩
      have hcheck := hchecks sent List.mem_cons_self
      have hresume : ((machine config).exec mid.shared (.send sent.1 sent.2.1 sent.2.2) r).2 =
          .next [] := by
        show (exec config mid.shared (.send sent.1 sent.2.1 sent.2.2) r).2 = .next []
        simp only [exec, hcheck]
        rfl
      rw [hresume] at hnext
      have hrest := ih hserves hnext
        (fun other hother => hchecks other (List.mem_cons_of_mem _ hother))
      unfold answers at hrest ⊢
      rw [List.flatMap_cons, published_send hcheck, hrest]
      rfl

theorem isText_eq_true {value : Json} {text : String} (h : value.isText text = true) :
    value = .str text := by
  cases value with
  | str s =>
      have hsame : s = text := by simpa [Json.isText] using h
      rw [hsame]
  | _ => cases h

theorem decodeStep_robot {data : Json} {step : PlanStep} (h : decodeStep data = .ok step) :
    (data.item "assigned_robot_id" >>= Json.text) = .ok step.assignedRobotId := by
  rcases bind_eq_ok.mp h with ⟨_, _, h⟩
  rcases bind_eq_ok.mp h with ⟨_, _, h⟩
  rcases bind_eq_ok.mp h with ⟨robotId, hrobot, h⟩
  rcases bind_eq_ok.mp h with ⟨_, _, h⟩
  rcases bind_eq_ok.mp h with ⟨_, _, h⟩
  rcases bind_eq_ok.mp h with ⟨_, _, h⟩
  rcases bind_eq_ok.mp h with ⟨_, _, h⟩
  rcases bind_eq_ok.mp h with ⟨_, _, h⟩
  rcases bind_eq_ok.mp h with ⟨_, _, h⟩
  rcases bind_eq_ok.mp h with ⟨_, _, h⟩
  cases h
  exact hrobot

theorem assignmentOf_eq_ok {robotId : String} {data : Json} {assignment : Assignment}
    (h : assignmentOf robotId data = .ok (some assignment)) :
    assignment.check = .ok () ∧ assignment.step.assignedRobotId = robotId := by
  rcases bind_eq_ok.mp h with ⟨stepData, hstepData, h⟩
  rcases bind_eq_ok.mp h with ⟨assigned, hassigned, h⟩
  split_ifs at h with hown
  · rcases bind_eq_ok.mp h with ⟨decoded, hdecoded, h⟩
    cases h
    rw [isText_eq_true hown] at hassigned
    rcases bind_eq_ok.mp hdecoded with ⟨_, _, hdecoded⟩
    rcases bind_eq_ok.mp hdecoded with ⟨_, _, hdecoded⟩
    rcases bind_eq_ok.mp hdecoded with ⟨_, _, hdecoded⟩
    rcases bind_eq_ok.mp hdecoded with ⟨step, hstep, hdecoded⟩
    rcases bind_eq_ok.mp hdecoded with ⟨_, _, hdecoded⟩
    rcases bind_eq_ok.mp hdecoded with ⟨_, hcheck, hdecoded⟩
    cases hdecoded
    rw [hstepData] at hstep
    have hrobot := decodeStep_robot hstep
    rw [hassigned] at hrobot
    exact ⟨hcheck, (Except.ok.inj hrobot).symm⟩
  · cases h

/-- The identifiers of a decoded assignment for this robot have been checked. -/
theorem assignmentOf_checked {robotId : String} {data : Json} {assignment : Assignment}
    (h : assignmentOf robotId data = .ok (some assignment)) :
    identifier assignment.assignmentId "assignment_id" = .ok () ∧
      identifier robotId "robot_id" = .ok () := by
  rcases assignmentOf_eq_ok h with ⟨hcheck, hrobot⟩
  rcases bind_eq_ok.mp hcheck with ⟨_, hstepCheck, hcheck⟩
  rcases bind_eq_ok.mp hcheck with ⟨_, hid, _⟩
  rcases bind_eq_ok.mp hstepCheck with ⟨_, _, hstepCheck⟩
  rcases bind_eq_ok.mp hstepCheck with ⟨_, _, hstepCheck⟩
  rcases bind_eq_ok.mp hstepCheck with ⟨_, hrobotId, _⟩
  rw [hrobot] at hrobotId
  exact ⟨hid, requiredText_rename hrobotId⟩

theorem answers_answer {config : Config} {i : Nat} {p q : Pool Memory Task}
    {log : List DeliveryTurn} {m : Memory} {delivery : Delivery} {description : String}
    {outcome : Outcome} (h : (machine config).Serves i p log q)
    (hthread : p.threads[i]? =
      some ((answer m delivery description (.ok outcome)).2.resume []))
    (hid : identifier delivery.assignment.assignmentId "assignment_id" = .ok ())
    (hrobot : identifier config.robotId "robot_id" = .ok ())
    (htext : requiredText description "acknowledgement description" maxLongTextBytes = .ok ()) :
    answers config log =
      [.acknowledgement delivery.assignment.assignmentId outcome.status description,
        .outcome outcome] := by
  have hack : (Message.acknowledgement delivery.assignment.assignmentId outcome.status
      description).check config.robotId = .ok () := by
    show Message.checkText _ _ _ _ = .ok ()
    unfold Message.checkText
    rw [hid, hrobot, htext]
    rfl
  refine @answers_sends config i
    [(.acknowledgement delivery.assignment.assignmentId outcome.status description,
        some delivery.reading.nowMs, delivery.envelope),
      (.outcome outcome, some delivery.reading.nowMs, delivery.envelope)] p q log h hthread ?_
  intro sent hsent
  simp only [List.mem_cons, List.not_mem_nil, or_false] at hsent
  rcases hsent with rfl | rfl
  · exact hack
  · rfl

/-!
## Replays
-/

theorem claim_tells {config : Config} {m : Memory} {delivery : Delivery}
    {record : JournalRecord} (r : Reading)
    (hrecord : m.journal.lookup delivery.assignment.assignmentId = some record)
    (hfingerprint : record.fingerprint =
      assignmentFingerprint config.sha256 delivery.assignment)
    (hissuer : record.issuerId = delivery.envelope.sourceId)
    (hid : identifier delivery.assignment.assignmentId "assignment_id" = .ok ())
    (hrobot : identifier config.robotId "robot_id" = .ok ()) :
    exists outcome description, Tells record outcome ∧
      requiredText description "acknowledgement description" maxLongTextBytes = .ok () ∧
      exec config m (.claim delivery) r = answer m delivery description (.ok outcome) := by
  have hclaim := claim_of_stored delivery.reading.nowMs hrecord hfingerprint
  rw [hissuer] at hclaim
  cases houtcome : record.outcome with
  | some outcome =>
      rw [houtcome] at hclaim
      refine ⟨outcome, "Stored terminal outcome replayed without native execution", ?_, ?_, ?_⟩
      · unfold Tells
        rw [houtcome]
      · rfl
      · rw [exec, hclaim]
        rfl
  | none =>
      rw [houtcome] at hclaim
      rcases @Outcome.make_of_checked delivery.assignment.assignmentId config.robotId
        "Execution outcome is unknown after interruption; not retried" .unknown hid hrobot
        (by rfl) (by decide) (by decide) with ⟨outcome, hmake⟩
      rcases Outcome.make_eq_ok hmake with ⟨_, _, _, hassignmentId, _, hstatus⟩
      refine ⟨outcome,
        "Previous execution may have occurred; operator reconciliation is required",
        ?_, ?_, ?_⟩
      · unfold Tells
        rw [houtcome, (lookup_eq_some hrecord).2]
        exact ⟨hassignmentId, hstatus⟩
      · rfl
      · rw [exec, hclaim]
        show answer m delivery _ (ownOutcome config delivery.assignment.assignmentId .unknown
          "Execution outcome is unknown after interruption; not retried") = _
        unfold ownOutcome
        rw [hmake]

theorem replayed_of_passes {config : Config} {i : Nat} {envelope : Envelope}
    {assignment : Assignment} {p q : Pool Memory Task} {first : DeliveryTurn}
    {rest : List DeliveryTurn}
    (h : Redelivery config i envelope assignment p (first :: rest) q)
    (hpasses : checkDelivery config assignment first.reading = .ok ()) :
    Replayed config assignment.assignmentId (first :: rest) := by
  rcases assignmentOf_checked h.decoded with ⟨hid, hrobot⟩
  rcases h.recorded with ⟨record, hrecord, hfingerprint, hissuer⟩
  rcases h.served.cons h.thread with ⟨found, r, log, hreach, hlog, next, hstep, hnext, hserves⟩
  cases hlog
  let delivery : Delivery := { envelope := envelope, assignment := assignment, reading := r }
  have hadmitted : exec config found.shared (.assignment envelope) r =
      ({ found.shared with history := found.shared.history ++ [.admitted delivery] },
        .next [.claim delivery]) := by
    rw [exec, h.decoded]
    simp only [attempt, hpasses, delivery]
  have hclaims : next.threads[i]? = some [.claim delivery] := by
    rw [hnext]
    show some ((exec config found.shared (.assignment envelope) r).2.resume []) = _
    rw [hadmitted]
    rfl
  rcases hserves.cons hclaims with
    ⟨claiming, r', log', hlater, rfl, last, _, hlast, hanswers⟩
  have hgrows := reaches_grows ((hreach.trans (.single hstep)).trans hlater)
  rcases hgrows _ record hrecord with ⟨stored, hstored, hcontinues⟩
  rcases @claim_tells config claiming.shared delivery stored r' hstored
    (hcontinues.fingerprint.trans hfingerprint) (hcontinues.issuerId.trans hissuer) hid hrobot with
    ⟨outcome, description, htells, htext, hexec⟩
  refine ⟨_, stored, outcome, description, List.mem_cons_of_mem _ List.mem_cons_self, hstored,
    htells, ?_⟩
  have hlast' : last.threads[i]? = some ((answer claiming.shared delivery description
      (.ok outcome)).2.resume []) := by
    rw [hlast, ← hexec]
    rfl
  rw [answers_cons_nothing, answers_cons_nothing]
  · exact answers_answer hanswers hlast' hid hrobot htext
  · show (exec config claiming.shared (.claim delivery) r').1.sent = claiming.shared.sent
    rw [hexec]
    rfl
  · show (exec config found.shared (.assignment envelope) r).1.sent = found.shared.sent
    rw [hadmitted]

theorem answers_of_refused {config : Config} {i : Nat} {envelope : Envelope}
    {assignment : Assignment} {p q : Pool Memory Task} {first : DeliveryTurn}
    {rest : List DeliveryTurn} {refusal : Refusal}
    (h : Redelivery config i envelope assignment p (first :: rest) q)
    (hrefused : checkDelivery config assignment first.reading = .error refusal) :
    (answers config (first :: rest) = [] ∧ forall description outcome,
      refusal = .rejected description ->
        ownOutcome config assignment.assignmentId .rejected description ≠ .ok outcome) ∨
    exists description outcome, refusal = .rejected description ∧
      ownOutcome config assignment.assignmentId .rejected description = .ok outcome ∧
      answers config (first :: rest) =
        [.acknowledgement assignment.assignmentId outcome.status description,
          .outcome outcome] := by
  rcases assignmentOf_checked h.decoded with ⟨hid, hrobot⟩
  rcases h.served.cons h.thread with ⟨found, r, log, _, hlog, next, _, hnext, hserves⟩
  cases hlog
  have hraised : exec config found.shared (.assignment envelope) r = (found.shared, .raised) ->
      answers config ({ found := found.shared, task := .assignment envelope, reading := r } ::
        rest) = [] := by
    intro hexec
    have hover : next.threads[i]? = some [] := by
      rw [hnext]
      show some ((exec config found.shared (.assignment envelope) r).2.resume []) = _
      rw [hexec]
      rfl
    rw [answers_cons_nothing, hserves.nil hover]
    · rfl
    · show (exec config found.shared (.assignment envelope) r).1.sent = found.shared.sent
      rw [hexec]
  cases refusal with
  | raised =>
      left
      refine ⟨hraised ?_, fun _ _ hno => by cases hno⟩
      rw [exec, h.decoded]
      simp only [attempt, hrefused]
  | rejected description =>
      let delivery : Delivery := { envelope := envelope, assignment := assignment, reading := r }
      have hanswer : exec config found.shared (.assignment envelope) r =
          answer found.shared delivery description
            (ownOutcome config assignment.assignmentId .rejected description) := by
        rw [exec, h.decoded]
        simp only [attempt, hrefused, delivery]
      cases hmake : ownOutcome config assignment.assignmentId .rejected description with
      | error e =>
          left
          constructor
          · apply hraised
            rw [hanswer, hmake]
            rfl
          · rintro _ outcome hsame hown
            cases hsame
            rw [hmake] at hown
            cases hown
      | ok outcome =>
          right
          refine ⟨description, outcome, rfl, hmake, ?_⟩
          rw [hmake] at hanswer
          rcases Outcome.make_eq_ok hmake with ⟨_, _, htext, _⟩
          have hthread : next.threads[i]? = some ((answer found.shared delivery description
              (.ok outcome)).2.resume []) := by
            rw [hnext, ← hanswer]
            rfl
          rw [answers_cons_nothing]
          · exact answers_answer hserves hthread hid hrobot (requiredText_rename htext)
          · show (exec config found.shared (.assignment envelope) r).1.sent = found.shared.sent
            rw [hanswer]
            rfl

/-- A redelivered assignment is answered from its record if and only if the checks before
the claim let it pass again, or refuse it with what the journal stores anyway. -/
theorem redelivery_replays (config : Config) (i : Nat) (envelope : Envelope)
    (assignment : Assignment) (p q : Pool Memory Task) (log : List DeliveryTurn)
    (h : Redelivery config i envelope assignment p log q) :
    Replayed config assignment.assignmentId log <-> PassesAgain config assignment log := by
  rcases h.served.cons h.thread with ⟨found, r, rest, _, rfl, _⟩
  constructor
  · rintro ⟨turn, record, outcome, description, hturn, hrecord, htells, hanswers⟩
    refine ⟨_, rest, rfl, ?_⟩
    cases hchecked : checkDelivery config assignment r with
    | ok _ => exact Or.inl rfl
    | error refusal =>
        right
        rcases answers_of_refused h hchecked with
          ⟨hnone, _⟩ | ⟨refused, own, rfl, hown, hrefusal⟩
        · rw [hnone] at hanswers
          cases hanswers
        · rw [hrefusal] at hanswers
          have hsame : own = outcome := by
            simp only [List.cons.injEq, Message.outcome.injEq] at hanswers
            exact hanswers.2.1
          subst hsame
          refine ⟨refused, own, rfl, hown, turn, record, hturn, hrecord, ?_⟩
          unfold Tells at htells
          cases hstored : record.outcome with
          | some stored =>
              rw [hstored] at htells
              rw [htells]
          | none =>
              rw [hstored] at htells
              have hstatus := (Outcome.make_eq_ok hown).2.2.2.2.2
              rw [htells.2] at hstatus
              cases hstatus
  · rintro ⟨first, rest', hlog, hpasses | ⟨description, outcome, hrefused, hown, turn, record,
      hturn, hrecord, hstored⟩⟩
    · cases hlog
      exact replayed_of_passes h hpasses
    · cases hlog
      rcases answers_of_refused h hrefused with
        ⟨_, hnever⟩ | ⟨refused, own, hsame, hown', hanswers⟩
      · exact absurd hown (hnever description outcome rfl)
      · cases hsame
        rw [hown] at hown'
        cases hown'
        refine ⟨turn, record, outcome, description, hturn, hrecord, ?_, hanswers⟩
        unfold Tells
        rw [hstored]

/-!
## The walk delivered again

The walk has succeeded. Its assignment comes again while the lease is good, and after the
lease has expired.
-/

def patrolAgain : List (Action Reading Entry) :=
  .spawn (.receive (patrolAssigned "c")) :: patrolTasks 0 8 0

def patrolExpired : Reading :=
  { patrolReading 5 with authority := .denied "lease has expired" }

theorem patrol_decoded : assignmentOf "r1" patrolOrder.payload = .ok (some patrolOrder) := by
  rfl

def patrolStored (p : Pool Memory Task) : Nat × Bool :=
  (p.threads.length, (p.shared.journal.lookup "a").any (fun record =>
    record.fingerprint == assignmentFingerprint patrolSha256 patrolOrder &&
      record.issuerId == "c" && record.outcome.any (fun o => o.status == .succeeded)))

def arriving (p : Pool Memory Task) : Pool Memory Task :=
  { p with threads := p.threads ++ [[.assignment (patrolAssigned "c")]] }

theorem patrol_redelivered {r : Reading} {count : Nat}
    (hserved : (((machine (patrolConfig 0)).run initial patrolAgain).bind (fun p =>
      (machine (patrolConfig 0)).run (arriving p) (List.replicate count (.run 1 r)))).any
        (fun q => (q.threads[1]?).any List.isEmpty) = true) :
    exists p q log record stored, (machine (patrolConfig 0)).Reaches .always initial p ∧
      p.shared.journal.lookup "a" = some record ∧ record.outcome = some stored ∧
      stored.status = .succeeded ∧
      Redelivery (patrolConfig 0) 1 (patrolAssigned "c") patrolOrder p log q ∧
      log.map (fun turn => turn.reading) = List.replicate count r := by
  have hview : ((machine (patrolConfig 0)).run initial patrolAgain).map patrolStored =
      some (1, true) := by
    decide +kernel
  rcases Option.map_eq_some_iff.mp hview with ⟨p, hp, hstored⟩
  rw [hp, Option.bind_some] at hserved
  rcases (Option.any_eq_true _ _).mp hserved with ⟨q, hq, hdone⟩
  rcases (Option.any_eq_true _ _).mp hdone with ⟨thread, hthread, hempty⟩
  rcases Prod.mk.inj hstored with ⟨hlength, hjournal⟩
  rcases (Option.any_eq_true _ _).mp hjournal with ⟨record, hrecord, hfacts⟩
  simp only [Bool.and_eq_true, beq_iff_eq] at hfacts
  rcases (Option.any_eq_true _ _).mp hfacts.2 with ⟨stored, houtcome, hsucceeded⟩
  rw [List.isEmpty_iff.mp hempty] at hthread
  rw [← List.map_replicate] at hq
  rcases Machine.serves_of_run hq hthread with ⟨log, hserves, hreadings⟩
  have harrives : (machine (patrolConfig 0)).step p (.spawn (.receive (patrolAssigned "c"))) =
      some (arriving p) := rfl
  refine ⟨arriving p, q, log, record, stored, ?_, hrecord, houtcome, by simpa using hsucceeded,
    ?_, hreadings⟩
  · exact (Machine.run_reaches hp).tail ⟨_, Machine.meets_always _ _, harrives⟩
  · constructor
    · unfold arriving
      rw [← hlength]
      simp
    · exact patrol_decoded
    · exact ⟨record, hrecord, hfacts.1.1, hfacts.1.2⟩
    · exact hserves

set_option maxRecDepth 8000 in
theorem patrol_replayed :
    exists p q log, (machine (patrolConfig 0)).Reaches .always initial p ∧
      Redelivery (patrolConfig 0) 1 (patrolAssigned "c") patrolOrder p log q ∧
      Replayed (patrolConfig 0) "a" log := by
  have hserved : (((machine (patrolConfig 0)).run initial patrolAgain).bind (fun p =>
      (machine (patrolConfig 0)).run (arriving p)
        (List.replicate 4 (.run 1 (patrolReading 5))))).any
          (fun q => (q.threads[1]?).any List.isEmpty) = true := by
    decide +kernel
  rcases patrol_redelivered hserved with
    ⟨p, q, log, record, stored, hp, _, _, _, hredelivery, hreadings⟩
  refine ⟨p, q, log, hp, hredelivery, ?_⟩
  apply (redelivery_replays _ _ _ _ _ _ _ hredelivery).mpr
  rcases hredelivery.served.cons hredelivery.thread with ⟨found, r, rest, _, rfl, _⟩
  rw [List.map_cons, List.replicate_succ] at hreadings
  have hfirst : r = patrolReading 5 := (List.cons.inj hreadings).1
  subst hfirst
  exact ⟨_, rest, rfl, Or.inl rfl⟩

set_option maxRecDepth 8000 in
/-- Although the journal stores that the walk has succeeded, it is reported as rejected. -/
theorem patrol_redelivery_rejected :
    exists p q log record stored, (machine (patrolConfig 0)).Reaches .always initial p ∧
      p.shared.journal.lookup "a" = some record ∧ record.outcome = some stored ∧
      stored.status = .succeeded ∧
      Redelivery (patrolConfig 0) 1 (patrolAssigned "c") patrolOrder p log q ∧
      ¬ Replayed (patrolConfig 0) "a" log := by
  have hserved : (((machine (patrolConfig 0)).run initial patrolAgain).bind (fun p =>
      (machine (patrolConfig 0)).run (arriving p)
        (List.replicate 3 (.run 1 patrolExpired)))).any
          (fun q => (q.threads[1]?).any List.isEmpty) = true := by
    decide +kernel
  rcases patrol_redelivered hserved with
    ⟨p, q, log, record, stored, hp, hrecord, houtcome, hstatus, hredelivery, hreadings⟩
  refine ⟨p, q, log, record, stored, hp, hrecord, houtcome, hstatus, hredelivery, ?_⟩
  rintro ⟨turn, record', outcome, description, hturn, hrecord', htells, hanswers⟩
  -- the outcome has been stored for ever
  rcases hredelivery.served.turns.found turn hturn with ⟨mid, hmid, hfound, _⟩
  rcases reaches_grows hmid "a" record hrecord with ⟨later, hlater, hcontinues⟩
  rw [hfound, hrecord'] at hlater
  cases hlater
  rw [hcontinues.settled (by rw [houtcome]; simp)] at htells
  unfold Tells at htells
  rw [houtcome] at htells
  -- and the checks have refused the delivery
  rcases hredelivery.served.cons hredelivery.thread with ⟨found, r, rest, _, rfl, _⟩
  rw [List.map_cons, List.replicate_succ] at hreadings
  have hfirst : r = patrolExpired := (List.cons.inj hreadings).1
  subst hfirst
  have hrefused : checkDelivery (patrolConfig 0) patrolOrder patrolExpired =
      .error (.rejected "Assignment authority rejected: lease has expired") := rfl
  rcases answers_of_refused hredelivery hrefused with
    ⟨hnone, _⟩ | ⟨refused, own, _, hown, hrefusal⟩
  · rw [hnone] at hanswers
    cases hanswers
  · rw [hrefusal] at hanswers
    have hsame : own = outcome := by
      simp only [List.cons.injEq, Message.outcome.injEq] at hanswers
      exact hanswers.2.1
    have hrejected := (Outcome.make_eq_ok hown).2.2.2.2.2
    rw [hsame, htells, hstatus] at hrejected
    cases hrejected

end Ump.Participant
