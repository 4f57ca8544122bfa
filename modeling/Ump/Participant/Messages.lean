import Ump.Participant.Assigned
import Ump.Participant.Redelivery
import Ump.Protocol.RoundTrip

/-!
# Messages that the participant sends

## Outcomes of this robot

A message goes out only after the checks of its class, and an outcome in it or in the
journal is one that its constructor has built for this robot, if the adapter returns such
outcomes. A snapshot carries the fingerprint of its record.
-/

namespace Ump.Participant

open Foundation Journal

/-- An outcome that has passed its constructor and names the robot. -/
structure Proper (robotId : String) (outcome : Outcome) : Prop where
  robotId : outcome.robotId = robotId
  built : outcome.Built

/-- The adapter returns outcomes that their constructor has built. -/
def ReturnsBuilt : Condition Memory Task Reading Entry
  | _, _, .exec (.settle _) r => forall outcome, r.native = .returned outcome -> outcome.Built
  | _, _, _ => True

def Message.outcome? : Message -> Option Outcome
  | .outcome o => some o
  | .assignmentSnapshot _ _ _ _ stored => stored
  | _ => none

def Task.outcome? : Task -> Option Outcome
  | .lookupLatest _ outcome => some outcome
  | .complete _ outcome _ => some outcome
  | .send message _ _ => message.outcome?
  | _ => none

structure Stated (robotId : String) (publication : Publication) : Prop where
  sourceId : publication.envelope.sourceId = robotId
  checked : publication.message.check robotId = .ok ()
  outcome : forall outcome, publication.message.outcome? = some outcome -> Proper robotId outcome

structure Sound (robotId : String) (m : Memory) (ts : Multiset Task) : Prop where
  claiming : forall delivery, .claim delivery ∈ ts ->
    delivery.assignment.step.assignedRobotId = robotId
  records : forall assignmentId record, m.journal.lookup assignmentId = some record ->
    record.assignment.step.assignedRobotId = robotId
  stored : forall assignmentId record outcome, m.journal.lookup assignmentId = some record ->
    record.outcome = some outcome -> Proper robotId outcome
  tasks : forall t outcome, t ∈ ts -> t.outcome? = some outcome -> Proper robotId outcome
  sent : forall publication, publication ∈ m.sent -> Stated robotId publication

theorem built_of_make {assignmentId robotId : String} {succeeded : Bool} {description : String}
    {status : AssignmentStatus} {outputs : Json} {outcome : Outcome}
    (h : Outcome.make assignmentId robotId succeeded description (some status) outputs =
      .ok outcome) : Proper robotId outcome := by
  have hmade := h
  rcases bind_eq_ok.mp h with ⟨_, _, h⟩
  rcases bind_eq_ok.mp h with ⟨_, _, h⟩
  rcases bind_eq_ok.mp h with ⟨_, _, h⟩
  split_ifs at h with haccepted hflag
  rcases bind_eq_ok.mp h with ⟨_, _, h⟩
  rcases bind_eq_ok.mp h with ⟨_, _, h⟩
  cases h
  exact ⟨rfl, hmade⟩

theorem proper_of_own {config : Config} {assignmentId description : String}
    {status : AssignmentStatus} {outcome : Outcome}
    (h : ownOutcome config assignmentId status description = .ok outcome) :
    Proper config.robotId outcome :=
  built_of_make h

theorem proper_of_executed {config : Config} {assignment : Assignment} {r : Reading}
    {outcome : Outcome}
    (hbuilt : forall outcome, r.native = .returned outcome -> outcome.Built)
    (h : executedOutcome config assignment r = .ok outcome) : Proper config.robotId outcome := by
  unfold executedOutcome at h
  cases hnative : nativeOutcome config assignment r with
  | ok native =>
      rw [hnative] at h
      cases h
      rcases nativeOutcome_eq_ok hnative with ⟨hreturned, _, hrobot⟩
      exact ⟨hrobot, hbuilt outcome hreturned⟩
  | error typeName =>
      rw [hnative] at h
      exact proper_of_own h

/-!
## Steps
-/

theorem checked_of_sent {config : Config} {m : Memory} {t : Task} {r : Reading}
    {publication : Publication} (h : publication ∈ (exec config m t r).1.sent) :
    publication ∈ m.sent ∨ (t.message? = some publication.message ∧
      publication.envelope.sourceId = config.robotId ∧
      publication.message.check config.robotId = .ok ()) := by
  rcases exec_publishes config m t r with hsilent | ⟨message, _, _, _, _, hmessage, _⟩
  · rw [hsilent.sent] at h
    exact Or.inl h
  · cases t with
    | send carried stamp cause =>
        rw [exec] at h
        cases hcheck : carried.check config.robotId with
        | error e =>
            rw [hcheck] at h
            exact Or.inl h
        | ok _ =>
            rw [hcheck] at h
            rcases List.mem_append.mp h with hold | hnew
            · exact Or.inl hold
            · rw [List.mem_singleton.mp hnew]
              exact Or.inr ⟨rfl, rfl, hcheck⟩
    | sendState snapshot nowMs cause stream =>
        rw [exec] at h
        rcases List.mem_append.mp h with hold | hnew
        · exact Or.inl hold
        · rw [List.mem_singleton.mp hnew]
          exact Or.inr ⟨rfl, rfl, rfl⟩
    | _ => cases hmessage

theorem outcome_of_determination {sha256 : Text -> String} {journal : Journal}
    {resolvedId : String} {status : AssignmentStatus} {description resolverId evidence : String}
    {nowMs : Int} {assignmentId : String} {record' : JournalRecord} {outcome : Outcome}
    (hrecord' : (journal.apply sha256 (.resolveUnknown resolvedId status description resolverId
      evidence nowMs)).lookup assignmentId = some record')
    (hstored : record'.outcome = some outcome) :
    (exists record, journal.lookup assignmentId = some record ∧ record.outcome = some outcome) ∨
      exists stored, journal.lookup resolvedId = some stored ∧
        Proper stored.assignment.step.assignedRobotId outcome := by
  cases hcommit : journal.commit sha256
      (.resolveUnknown resolvedId status description resolverId evidence nowMs) with
  | error e =>
      rw [apply_of_error hcommit] at hrecord'
      exact Or.inl ⟨record', hrecord', hstored⟩
  | ok result =>
      rw [apply_of_ok hcommit] at hrecord'
      rcases bind_eq_ok.mp hcommit with ⟨⟨made, after⟩, hresolve, hresult⟩
      cases hresult
      rw [(resolveUnknown_eq_ok hresolve).2] at hrecord'
      rcases outcome_of_record hrecord' hstored with hold | ⟨_, rfl⟩
      · exact Or.inl hold
      · right
        rcases bind_eq_ok.mp hresolve with ⟨_, _, hresolve⟩
        cases hfound : journal.lookup resolvedId with
        | none =>
            rw [hfound] at hresolve
            cases hresolve
        | some stored =>
            rw [hfound] at hresolve
            rcases bind_eq_ok.mp hresolve with ⟨_, _, hresolve⟩
            rcases bind_eq_ok.mp hresolve with ⟨built, hbuilt, hresolve⟩
            rcases bind_eq_ok.mp hresolve with ⟨_, _, hresolve⟩
            split at hresolve
            · cases hresolve
              exact ⟨stored, rfl, built_of_make hbuilt⟩
            · cases hresolve

section

variable {config : Config} {m : Memory} {t : Task} {ts : Multiset Task} {r : Reading}

theorem Sound.record_exec (h : Sound config.robotId m (t ::ₘ ts)) {assignmentId : String}
    {record : JournalRecord}
    (hrecord : (exec config m t r).1.journal.lookup assignmentId = some record) :
    record.assignment.step.assignedRobotId = config.robotId := by
  cases hbefore : m.journal.lookup assignmentId with
  | none =>
      rcases lookup_of_exec hbefore hrecord with ⟨delivery, rfl, _, rfl⟩
      exact h.claiming delivery (Multiset.mem_cons_self _ ts)
  | some before =>
      rcases exec_grows config m t r _ before hbefore with ⟨after, hafter, hcontinues⟩
      rw [hrecord] at hafter
      cases hafter
      rw [hcontinues.assignment]
      exact h.records assignmentId before hbefore

theorem Sound.stored_exec (h : Sound config.robotId m (t ::ₘ ts)) {assignmentId : String}
    {record : JournalRecord} {outcome : Outcome}
    (hrecord : (exec config m t r).1.journal.lookup assignmentId = some record)
    (houtcome : record.outcome = some outcome) : Proper config.robotId outcome := by
  rw [exec_journal] at hrecord
  cases hoperation : t.operation? config r with
  | none =>
      rw [hoperation] at hrecord
      exact h.stored assignmentId record outcome hrecord houtcome
  | some operation =>
      rw [hoperation] at hrecord
      rcases outcome_of_apply hrecord houtcome with ⟨before, hbefore, hold⟩ | hstores
      · exact h.stored assignmentId before outcome hbefore hold
      · cases hstores with
        | determined hresolve _ _ =>
            subst hresolve
            rcases outcome_of_determination hrecord houtcome with
              ⟨before, hbefore, hold⟩ | ⟨stored, hstored, hproper⟩
            · exact h.stored assignmentId before outcome hbefore hold
            · rw [h.records _ stored hstored] at hproper
              exact hproper
        | completed hcomplete _ =>
            subst hcomplete
            cases t with
            | complete delivery completed nowMs =>
                cases hoperation
                exact h.tasks _ outcome (Multiset.mem_cons_self _ _) rfl
            | recordCancellation assignment description envelope =>
                rw [Task.operation?] at hoperation
                cases hown : ownOutcome config assignment.assignmentId .cancelled
                    description with
                | error e =>
                    rw [hown] at hoperation
                    cases hoperation
                | ok made =>
                    rw [hown] at hoperation
                    cases hoperation
                    exact proper_of_own hown
            | _ => cases hoperation

theorem proper_of_report {outcome other : Outcome} {nowMs : Int} {cause : Envelope} {t : Task}
    (hproper : Proper config.robotId outcome) (ht : t ∈ report outcome nowMs cause)
    (h : t.outcome? = some other) : Proper config.robotId other := by
  simp only [report, List.mem_cons, List.not_mem_nil, or_false] at ht
  rcases ht with rfl | rfl
  · cases h
    exact hproper
  · cases h

theorem proper_of_answers {assignmentId : String} {outcome other : Outcome} {message : Message}
    (hproper : Proper config.robotId outcome) (hmessage : Answers assignmentId outcome message)
    (h : message.outcome? = some other) : Proper config.robotId other := by
  cases hmessage with
  | acknowledgement description => cases h
  | outcome =>
      cases h
      exact hproper

theorem Sound.task_exec (h : Sound config.robotId m (t ::ₘ ts))
    (hC : ReturnsBuilt m ts (.exec t r)) {t' : Task} (ht' : t' ∈ (exec config m t r).2.tasks)
    {outcome : Outcome} (houtcome : t'.outcome? = some outcome) :
    Proper config.robotId outcome := by
  have hmem : t ∈ t ::ₘ ts := Multiset.mem_cons_self t ts
  cases exec_succeeds config m r ht' with
  | refused _ _ hown hmessage => exact proper_of_answers (proper_of_own hown) hmessage houtcome
  | answered hanswer hmessage =>
      refine proper_of_answers ?_ hmessage houtcome
      cases hanswer with
      | replay hstored houtcome => exact h.stored _ _ _ hstored houtcome
      | conflict _ _ hown => exact proper_of_own hown
      | resourceConflict _ hown => exact proper_of_own hown
      | uncertain _ _ hown => exact proper_of_own hown
  | claimed hpending _ => cases t' <;> first | (cases hpending; done) | cases houtcome
  | returned hexecuted =>
      cases houtcome
      exact proper_of_executed hC hexecuted
  | superseded hrecord hstored ht =>
      exact proper_of_report (h.stored _ _ _ hrecord hstored) ht houtcome
  | completes delivery completed =>
      cases houtcome
      exact h.tasks _ outcome hmem rfl
  | completed _ ht => exact proper_of_report (h.tasks _ _ hmem rfl) ht houtcome
  | queried hrequested =>
      rcases requested_eq_some hrequested with ⟨id, _, hrecord, _⟩
      exact h.stored id _ outcome hrecord houtcome
  | alreadyTerminal hrequested hstored =>
      cases houtcome
      rcases requested_eq_some hrequested with ⟨id, _, hrecord, _⟩
      exact h.stored id _ outcome hrecord hstored
  | cancellationRecorded hown _ =>
      cases houtcome
      exact proper_of_own hown
  | _ => cases houtcome

end

theorem sound_keeps (config : Config) :
    (machine config).Keeps ReturnsBuilt (fun _ _ => True) (Sound config.robotId) where
  drop h hle :=
    ⟨fun delivery ht => h.claiming delivery (Multiset.mem_of_le hle ht), h.records, h.stored,
      fun t outcome ht => h.tasks t outcome (Multiset.mem_of_le hle ht), h.sent⟩
  spawn {m ts entry} _ h _ := by
    have hstart : forall t, t ∈ (start entry : Multiset Task) -> Starts entry t :=
      fun t ht => start_cases (Multiset.mem_coe.mp ht)
    refine ⟨?_, h.records, h.stored, ?_, h.sent⟩
    · intro delivery ht
      rcases Multiset.mem_add.mp ht with hold | hnew
      · exact h.claiming delivery hold
      · cases hstart _ hnew
    · intro t outcome ht houtcome
      rcases Multiset.mem_add.mp ht with hold | hnew
      · exact h.tasks t outcome hold houtcome
      · cases hstart _ hnew <;> cases houtcome
  crash {m ts} _ h := by
    have hreopened : forall {assignmentId record},
        m.journal.reopen.lookup assignmentId = some record ->
          exists before, m.journal.lookup assignmentId = some before ∧
            record = interrupted before := by
      intro assignmentId record hrecord
      rw [lookup_reopen] at hrecord
      rcases Option.map_eq_some_iff.mp hrecord with ⟨before, hbefore, rfl⟩
      exact ⟨before, hbefore, rfl⟩
    constructor
    · intro delivery ht
      cases Multiset.notMem_zero _ ht
    · intro assignmentId record hrecord
      rcases hreopened hrecord with ⟨before, hbefore, rfl⟩
      rw [(continues_interrupted before).assignment]
      exact h.records assignmentId before hbefore
    · intro assignmentId record outcome hrecord houtcome
      rcases hreopened hrecord with ⟨before, hbefore, rfl⟩
      rw [outcome_interrupted] at houtcome
      exact h.stored assignmentId before outcome hbefore houtcome
    · intro t outcome ht
      cases Multiset.notMem_zero _ ht
    · exact h.sent
  exec {m t ts r} _ h hC := by
    constructor
    · intro delivery ht'
      rcases Multiset.mem_add.mp ht' with hnew | hold
      · exact (assignmentOf_eq_ok (claim_of_exec (Multiset.mem_coe.mp hnew)).2.1).2
      · exact h.claiming delivery (Multiset.mem_cons_of_mem hold)
    · exact fun _ _ hrecord => h.record_exec hrecord
    · exact fun _ _ _ hrecord houtcome => h.stored_exec hrecord houtcome
    · intro t' outcome ht' houtcome
      rcases Multiset.mem_add.mp ht' with hnew | hold
      · exact h.task_exec hC (Multiset.mem_coe.mp hnew) houtcome
      · exact h.tasks t' outcome (Multiset.mem_cons_of_mem hold) houtcome
    · intro publication hsent
      rcases checked_of_sent hsent with hold | ⟨hmessage, hsource, hchecked⟩
      · exact h.sent publication hold
      · refine ⟨hsource, hchecked, ?_⟩
        intro outcome houtcome
        apply h.tasks t outcome (Multiset.mem_cons_self t ts)
        cases t with
        | send carried stamp cause =>
            cases hmessage
            exact houtcome
        | sendState snapshot nowMs cause stream =>
            rw [← Option.some.inj hmessage] at houtcome
            cases houtcome
        | _ => cases hmessage

def Filed (journal : Journal) (filed : String × String) : Prop :=
  exists record, journal.lookup filed.1 = some record ∧ record.fingerprint = filed.2

theorem Filed.grows {journal journal' : Journal} {filed : String × String}
    (h : Filed journal filed) (hgrows : Grows journal journal') : Filed journal' filed := by
  rcases h with ⟨record, hrecord, hfingerprint⟩
  rcases hgrows filed.1 record hrecord with ⟨after, hafter, hcontinues⟩
  exact ⟨after, hafter, hcontinues.fingerprint.trans hfingerprint⟩

end Ump.Participant
