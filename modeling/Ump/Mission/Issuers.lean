import Ump.Foundation.Star
import Ump.Mission.Agreement

/-!
# A robot and its coordinators

## Answers that everyone hears

Any number of coordinators run with the participant of one robot, and its other peers say
what they like. What the participant answers to one of them all of them hear, and the
coordinator of the work looks at the robot that has answered and not at the question. Where
the deliveries of a work come from its coordinator only, and are refused or accepted once
for all, the rows and the journal agree about it; a delivery of another issuer is enough to
set them apart.
-/

namespace Ump.Mission

open Foundation

/-- The configurations of the participant of a robot and of the coordinators around it. -/
structure Site (index : Type) where
  participant : Participant.Config
  coordinators : index -> Coordinator.Config

abbrev SiteState (index : Type) :=
  Star index Participant.Memory Participant.Task Coordinator.Memory Coordinator.Task

/-- What the participant hears from the coordinator, the coordinator has published. -/
def heeds (coordinatorId : String)
    (C : Condition Participant.Memory Participant.Task Participant.Reading Participant.Entry) :
    Joint.Guard Coordinator.Memory Participant.Memory Participant.Task Participant.Reading
      Participant.Entry :=
  fun m => (Participant.ReceivesFrom coordinatorId (m.published.map Prod.snd)).both C

namespace Site

def initial {index : Type} : SiteState index where
  center := Participant.initial
  around _ := Coordinator.initial

/-- The runs in which the participant's moves meet the condition. -/
def Reaches {index : Type} [DecidableEq index] (site : Site index)
    (C : Condition Participant.Memory Participant.Task Participant.Reading Participant.Entry) :
    SiteState index -> SiteState index -> Prop :=
  Star.Reaches (Participant.machine site.participant)
    (fun i => Coordinator.machine (site.coordinators i))
    (fun i => heeds (site.coordinators i).coordinatorId C)
    (fun _ => hears site.participant.robotId)

end Site

/-- The journal has the status of the row for the coordinator's own work, or the work was
rejected and the coordinator has no record there. -/
def Journaled (participant : Participant.Config) (coordinatorId : String)
    (m : Participant.Memory) (row : Coordinator.StepRow) : Prop :=
  (exists record stored, m.journal.lookup row.assignmentId = some record ∧
    record.issuerId = coordinatorId ∧
    record.fingerprint = Participant.assignmentFingerprint participant.sha256 row.assignment ∧
    record.outcome = some stored ∧
    Coordinator.CoordinatorStore.reconciledStep? stored.status = some row.status) ∨
  (row.status = .rejected ∧ forall record,
    m.journal.lookup row.assignmentId = some record -> record.issuerId ≠ coordinatorId)

theorem journaled_of_agreed {participant : Participant.Config} {coordinatorId : String}
    {issued : List Envelope} {m : Participant.Memory} {ts : Multiset Participant.Task}
    {row : Coordinator.StepRow} (hid : row.assignment.assignmentId = row.assignmentId)
    (hassigned : Participant.Assigned participant coordinatorId issued row.assignment m ts)
    (h : Agreed coordinatorId m row) : Journaled participant coordinatorId m row := by
  rcases h with ⟨publication, status, _, _, _, hreconciled,
    ⟨record, stored, hrecord, hissuer, hstored, hsame⟩ | ⟨hrejected, hfree⟩⟩
  · left
    have hfingerprint := (hassigned.record record (hid ▸ hrecord)).2.1
    exact ⟨record, stored, hrecord, hissuer, hfingerprint, hstored, hsame ▸ hreconciled⟩
  · right
    rw [hrejected] at hreconciled
    refine ⟨(Option.some.inj hreconciled).symm, ?_⟩
    intro record hrecord
    rw [hfree] at hrecord
    cases hrecord

/-- In every run in which the deliveries of an assignment come from its coordinator, and each
is the first one, or is refused while the journal has no record, or meets the record and
passes the checks, a settled row of the assignment was withheld or the journal says the same;
and whatever the participant says about the assignment answers the coordinator. -/
theorem own_work_agreed {index : Type} [DecidableEq index] (site : Site index) (i : index)
    (assignmentId : String) (s : SiteState index)
    (h : site.Reaches (Participant.OneIssuer site.participant
      (site.coordinators i).coordinatorId assignmentId) Site.initial s)
    (row : Coordinator.StepRow) (hrow : row ∈ (s.around i).shared.store.runSteps.rows)
    (hid : row.assignmentId = assignmentId)
    (hrobot : row.assignment.step.assignedRobotId = site.participant.robotId) :
    (row.status.settled = true ->
      Coordinator.Withheld (s.around i).shared (s.around i).tasks row ∨
        Journaled site.participant (site.coordinators i).coordinatorId s.center.shared row) ∧
    forall publication, publication ∈ s.center.shared.sent ->
      publication.message.concerns? = some assignmentId ->
        publication.cause.sourceId = (site.coordinators i).coordinatorId := by
  have hpair := Star.Reaches.pair h i
  have hright := hpair.left (coordinator_advances _) (obeys_lasts _ _ _)
  have hleft := hpair.right (participant_advances _) (hears_lasts _)
  rcases sole_of_row (hleft.weaken (fun _ _ _ _ => trivial)) hright hrow hid with
    ⟨horder, hassigned, _⟩
  constructor
  · intro hsettled
    rcases settled_agreed hleft hright hrow hid hrobot hsettled with hwithheld | hagreed
    · exact Or.inl hwithheld
    · exact Or.inr (journaled_of_agreed (horder.trans hid.symm) hassigned hagreed)
  · intro publication hsent hconcerns
    exact (hassigned.sent publication hsent (horder.symm ▸ hconcerns)).1

/-!
## The walk, refused to another issuer
-/

/-- The reading of a participant whose authorizer refuses. -/
def patrolDenied : Participant.Reading :=
  { Participant.patrolReading 0 with authority := .denied "no lease" }

def patrolRefusal : Envelope where
  messageId := "m"
  messageType := .assignmentAck
  sourceId := "r1"
  sessionId := "session"
  sequence := 1
  timestampMs := 0
  payload := (Participant.Message.acknowledgement "a" .rejected
    "Assignment authority rejected: no lease").payload "r1"
  correlationId := none
  stream := .operational

def patrolSite : Site Unit where
  participant := Participant.patrolConfig 0
  coordinators _ := Coordinator.patrolConfig

theorem patrol_own_work_agreed :
    exists (s : SiteState Unit) (row : Coordinator.StepRow),
      row ∈ (s.around ()).shared.store.runSteps.rows ∧ row.status = .succeeded ∧
      Journaled patrolSite.participant "c" s.center.shared row := by
  rcases patrol_walks with ⟨s, row, hreaches, hrow, hid, horder, hstatus⟩
  refine ⟨{ center := s.right, around := fun _ => s.left }, row, hrow, hstatus, ?_⟩
  have hagreed := own_work_agreed patrolSite () "a" _ (Star.Reaches.of_joint hreaches) row hrow hid
    (by rw [horder]; rfl)
  rcases hagreed.1 (by rw [hstatus]; rfl) with hwithheld | hjournaled
  · have hcancelled := hwithheld.1
    rw [hstatus] at hcancelled
    cases hcancelled
  · exact hjournaled

theorem meets_heeds_of_spawnsNothing (m : Coordinator.Memory)
    (p : Pool Participant.Memory Participant.Task)
    (a : Action Participant.Reading Participant.Entry) (h : spawnsNothing p a = true) :
    Machine.Meets (fun m' ts move => forall _ : Unit, heeds "c" .always m m' ts move) p a := by
  cases a with
  | spawn entry => cases h
  | run i r => exact fun _ _ _ _ _ => ⟨trivial, trivial⟩
  | _ => trivial

theorem reaches_of_only {site : Site Unit} {s : SiteState Unit}
    {C : Condition Participant.Memory Participant.Task Participant.Reading Participant.Entry}
    {p : Pool Coordinator.Memory Coordinator.Task}
    (h : (Coordinator.machine (site.coordinators ())).Reaches
      (hears site.participant.robotId s.center.shared) (s.around ()) p) :
    site.Reaches C s { s with around := fun _ => p } := by
  have hreaches : site.Reaches C s { s with around := Function.update s.around () p } :=
    Star.Reaches.of_around h
  have hsame : Function.update s.around () p = fun _ => p :=
    funext (fun i => Function.update_self i p s.around)
  exact hsame ▸ hreaches

set_option maxRecDepth 8000 in
/-- Another issuer is refused the work under the id of the coordinator's, which the robot
then does for the coordinator. -/
theorem patrol_refused_to_other :
    exists (s : SiteState Unit) (row : Coordinator.StepRow),
      patrolSite.Reaches .always Site.initial s ∧
      row ∈ (s.around ()).shared.store.runSteps.rows ∧
      row.assignment.step.assignedRobotId = patrolSite.participant.robotId ∧
      row.status = .rejected ∧
      ¬ Coordinator.Withheld (s.around ()).shared (s.around ()).tasks row ∧
      ¬ Journaled patrolSite.participant "c" s.center.shared row ∧
      exists publication, publication ∈ s.center.shared.sent ∧
        publication.message.concerns? = some row.assignmentId ∧
        publication.cause.sourceId = "x" := by
  have hrefused : ((Participant.machine (Participant.patrolConfig 0)).runWhere spawnsNothing
      { shared := .initial, threads := [[.assignment (Participant.patrolAssigned "x")]] }
      (.run 0 patrolDenied :: Participant.patrolTasks 0 2 0)).bind (fun q =>
        ((Participant.machine (Participant.patrolConfig 0)).runWhere spawnsNothing
          { q with threads := q.threads ++ [[.assignment patrolIssued]] }
          (Participant.patrolTasks 1 8 0)).bind (fun q =>
            q.shared.sent[0]?.bind (fun refusal =>
              (q.shared.journal.lookup "a").bind (fun record =>
                record.outcome.map (fun stored =>
                  (refusal.envelope, refusal.message.concerns?, refusal.cause.sourceId,
                    record.issuerId, stored.status)))))) =
        some (patrolRefusal, some "a", "x", "c", .succeeded) := by
    rfl
  have hrejected : ((Coordinator.machine Coordinator.patrolConfig).runWhere spawnsNothing
      (Coordinator.patrolSubmitted ["s1"]) (Coordinator.patrolMoves 0 9)).bind (fun p =>
        ((Coordinator.machine Coordinator.patrolConfig).runWhere spawnsNothing
          { p with threads := p.threads ++ [[.acknowledgement patrolRefusal]] }
          (Coordinator.patrolMoves 1 2)).bind (fun p =>
            p.shared.store.runSteps.rows[0]?.map (fun row =>
              (row.assignmentId, row.assignment.step.assignedRobotId, row.status)))) =
        some ("a", "r1", .rejected) := by
    rfl
  have hother : (Participant.patrolAssigned "x").sourceId ≠ "c" := by decide
  rcases patrol_dispatched with ⟨p, hp, hissued⟩
  rcases Option.bind_eq_some_iff.mp hrefused with ⟨q, hq, hworked⟩
  rcases Option.bind_eq_some_iff.mp hworked with ⟨q', hq', hfound⟩
  rcases Option.bind_eq_some_iff.mp hfound with ⟨refusal, hrefusal, hfound⟩
  rcases Option.bind_eq_some_iff.mp hfound with ⟨record, hrecord, hfound⟩
  rcases Option.map_eq_some_iff.mp hfound with ⟨stored, hstored, hfields⟩
  simp only [Prod.mk.injEq] at hfields
  rcases hfields with ⟨henvelope, hconcerns, hcause, hissuer, hsucceeded⟩
  rw [hp, Option.bind_some] at hrejected
  rcases Option.bind_eq_some_iff.mp hrejected with ⟨last, hlast, hrow⟩
  rcases Option.map_eq_some_iff.mp hrow with ⟨row, hrow, hfields⟩
  simp only [Prod.mk.injEq] at hfields
  rcases hfields with ⟨hid, hrobot, hstatus⟩
  have hdispatched : patrolSite.Reaches .always Site.initial
      { center := Participant.initial, around := fun _ => p } := by
    apply reaches_of_only
    exact (Coordinator.patrolSubmitted_reached (Or.inr rfl) trivial trivial).trans
      (Machine.runWhere_reaches (meets_of_spawnsNothing _) hp)
  have hworks : patrolSite.Reaches .always
      { center := Participant.initial, around := fun _ => p }
      { center := q', around := fun _ => p } := by
    apply Star.Reaches.of_center
    refine .trans (.head ⟨.spawn (.receive (Participant.patrolAssigned "x")), ?_, rfl⟩
      (Machine.runWhere_reaches (meets_heeds_of_spawnsNothing p.shared) hq))
      (.head ⟨.spawn (.receive patrolIssued), ?_, rfl⟩
        (Machine.runWhere_reaches (meets_heeds_of_spawnsNothing p.shared) hq'))
    · exact fun _ => ⟨fun hsource => absurd hsource hother, trivial⟩
    · exact fun _ => ⟨fun _ => hissued, trivial⟩
  have hhears : patrolSite.Reaches .always { center := q', around := fun _ => p }
      { center := q', around := fun _ => last } := by
    apply reaches_of_only
    refine .head ⟨.spawn (.receive patrolRefusal), fun _ => ?_, rfl⟩
      (Machine.runWhere_reaches (meets_of_spawnsNothing _) hlast)
    exact List.mem_map.mpr ⟨refusal, List.mem_of_getElem? hrefusal, henvelope⟩
  refine ⟨_, row, (hdispatched.trans hworks).trans hhears, List.mem_of_getElem? hrow, hrobot,
    hstatus, ?_, ?_, refusal, List.mem_of_getElem? hrefusal, hid ▸ hconcerns, hcause⟩
  · intro hwithheld
    have hcancelled := hwithheld.1
    rw [hstatus] at hcancelled
    cases hcancelled
  · rintro (⟨other, said, hfound, _, _, hsaid, hsame⟩ | ⟨_, hnone⟩)
    · rw [hid, hrecord] at hfound
      cases hfound
      rw [hstored] at hsaid
      cases hsaid
      rw [hsucceeded, hstatus] at hsame
      cases hsame
    · exact hnone record (hid ▸ hrecord) hissuer

end Ump.Mission
