import Ump.Foundation.Star
import Ump.Mission.Agreement
import Ump.Participant.Execution

/-!
# A coordinator and its robots

## Work in the order of the plan

The coordinator runs with any number of robots. A robot starts a step only after the robots
that the step depends on have recorded their success, although no robot hears of another
one's journal: the coordinator's rows stand between them. As in a joint run with one robot,
all assignments come from the coordinator, and a repeated one is refused while its journal has
no record, or meets the record and passes the checks before it.
-/

namespace Ump.Mission

open Foundation

/-- The configurations of a coordinator and of the participant of each robot. -/
structure Fleet where
  coordinator : Coordinator.Config
  robots : String -> Participant.Config
  named : forall robotId, (robots robotId).robotId = robotId

abbrev FleetState :=
  Star String Coordinator.Memory Coordinator.Task Participant.Memory Participant.Task

/-- `obeys` for every assignment. -/
def follows (config : Participant.Config) (coordinatorId : String) :
    Joint.Guard Coordinator.Memory Participant.Memory Participant.Task Participant.Reading
      Participant.Entry :=
  fun m m' ts move =>
    Participant.ReceivesFrom coordinatorId (m.published.map Prod.snd) m' ts move ∧
      forall assignmentId, Participant.OneIssuer config coordinatorId assignmentId m' ts move

namespace Fleet

def initial : FleetState where
  center := Coordinator.initial
  around _ := Participant.initial

def Reaches (fleet : Fleet) : FleetState -> FleetState -> Prop :=
  Star.Reaches (Coordinator.machine fleet.coordinator)
    (fun robotId => Participant.machine (fleet.robots robotId)) hears
    (fun robotId => follows (fleet.robots robotId) fleet.coordinator.coordinatorId)

/-- The robot of the row has recorded for the coordinator that it has done the work. -/
def Done (fleet : Fleet) (s : FleetState) (row : Coordinator.StepRow) : Prop :=
  exists record stored,
    (s.around row.assignment.step.assignedRobotId).shared.journal.lookup row.assignmentId =
      some record ∧
    record.issuerId = fleet.coordinator.coordinatorId ∧ record.outcome = some stored ∧
    stored.status = .succeeded

end Fleet

/-!
## What a robot executes
-/

/-- What is delivered, and what has been admitted, is an assignment, and the issuer has
issued it if it comes from the issuer. -/
structure Commissioned (issuerId : String) (issued : List Envelope) (m : Participant.Memory)
    (ts : Multiset Participant.Task) : Prop where
  received : forall envelope, .assignment envelope ∈ ts -> envelope.messageType = .assignment ∧
    (envelope.sourceId = issuerId -> envelope ∈ issued)
  admitted : forall d, .admitted d ∈ m.history -> d.envelope.messageType = .assignment ∧
    (d.envelope.sourceId = issuerId -> d.envelope ∈ issued)

theorem admitted_of_exec {config : Participant.Config} {m : Participant.Memory}
    {t : Participant.Task} {r : Participant.Reading} {d : Participant.Delivery}
    (h : .admitted d ∈ (Participant.exec config m t r).1.history) :
    .admitted d ∈ m.history ∨ t = .assignment d.envelope := by
  generalize hresult : Participant.exec config m t r = result at h
  have heffect : Participant.Effect config m t result :=
    hresult ▸ Participant.exec_effect config m t r
  cases heffect with
  | quiet _ _ hhistory =>
      rw [hhistory] at h
      exact Or.inl h
  | admitted =>
      rcases List.mem_append.mp h with hold | hnew
      · exact Or.inl hold
      · cases List.mem_singleton.mp hnew
        exact Or.inr rfl
  | claimed =>
      rcases List.mem_append.mp h with hold | hnew
      · exact Or.inl hold
      · cases List.mem_singleton.mp hnew
  | executed =>
      rcases List.mem_append.mp h with hold | hnew
      · exact Or.inl hold
      · cases List.mem_singleton.mp hnew
  | recorded _ _ _ _ hhistory =>
      rw [hhistory] at h
      exact Or.inl h
  | _ => exact Or.inl h

theorem commissioned_keeps (config : Participant.Config) (issuerId : String)
    (issued : List Envelope) :
    (Participant.machine config).Keeps (Participant.ReceivesFrom issuerId issued)
      (fun _ _ => True) (Commissioned issuerId issued) where
  drop h hle := ⟨fun envelope ht => h.received envelope (Multiset.mem_of_le hle ht), h.admitted⟩
  spawn {m ts entry} _ h hC := by
    refine ⟨?_, h.admitted⟩
    intro envelope ht
    rcases Multiset.mem_add.mp ht with hold | hnew
    · exact h.received envelope hold
    · cases Participant.start_cases (Multiset.mem_coe.mp hnew) with
      | assignment hkind => exact ⟨hkind, hC⟩
  crash _ h := by
    refine ⟨?_, h.admitted⟩
    intro envelope ht
    cases Multiset.notMem_zero _ ht
  exec {m t ts r} _ h _ := by
    constructor
    · intro envelope ht'
      rcases Multiset.mem_add.mp ht' with hnew | hold
      · cases Participant.exec_succeeds config m r (Multiset.mem_coe.mp hnew) with
        | claimed hpending _ => cases hpending
        | superseded _ _ ht => simp [Participant.report] at ht
        | completed _ ht => simp [Participant.report] at ht
      · exact h.received envelope (Multiset.mem_cons_of_mem hold)
    · intro d hd
      rcases admitted_of_exec hd with hold | rfl
      · exact h.admitted d hold
      · exact h.received d.envelope (Multiset.mem_cons_self _ _)

theorem issued_of_call {config : Participant.Config} {coordinatorId : String}
    {issued : List Envelope} {p : Pool Participant.Memory Participant.Task}
    (h : (Participant.machine config).Reaches (Participant.ReceivesFrom coordinatorId issued)
      Participant.initial p) {d : Participant.Delivery} (hcall : d ∈ p.shared.calls)
    (hissuer : d.envelope.sourceId = coordinatorId) :
    d.envelope ∈ issued ∧ d.envelope.messageType = .assignment ∧
      Participant.assignmentOf config.robotId d.envelope.payload = .ok (some d.assignment) := by
  have hcommissioned : Commissioned coordinatorId issued p.shared p.tasks := by
    refine (commissioned_keeps config coordinatorId issued).reaches h (fun _ _ => trivial) ?_
    constructor
    · intro envelope ht
      cases Multiset.notMem_zero _ ht
    · intro d hd
      cases hd
  have hclaims := Participant.reaches_claims h
  rcases List.mem_filterMap.mp hcall with ⟨event, hevent, haccepted⟩
  cases event with
  | accepted other =>
      cases haccepted
      rcases List.append_of_mem hevent with ⟨before, after, hsplit⟩
      have hadmitted : Participant.Event.admitted d ∈ p.shared.history := by
        rw [hsplit]
        refine List.mem_append_left _ ((hclaims.caused d before after hsplit).subset ?_)
        exact List.mem_cons_self
      rcases hcommissioned.admitted d hadmitted with ⟨hkind, hissued⟩
      exact ⟨hissued hissuer, hkind, (hclaims.admitted d hadmitted).decoded⟩
  | _ => cases haccepted

/-!
## The fleet
-/

variable {fleet : Fleet} {s : FleetState}

theorem Fleet.Reaches.pair (h : fleet.Reaches Fleet.initial s) (robotId assignmentId : String) :
    Mission.Reaches fleet.coordinator (fleet.robots robotId) assignmentId Mission.initial
      (s.pair robotId) := by
  have hpair := Star.Reaches.pair h robotId
  unfold Mission.Reaches
  rw [fleet.named]
  exact hpair.weaken (fun _ _ _ _ hC => hC) (fun _ _ _ _ hD => ⟨hD.1, hD.2 assignmentId⟩)

theorem Fleet.Reaches.done (h : fleet.Reaches Fleet.initial s) {row : Coordinator.StepRow}
    (hrow : row ∈ s.center.shared.store.runSteps.rows) (hstatus : row.status = .succeeded) :
    fleet.Done s row := by
  have hpair := h.pair row.assignment.step.assignedRobotId row.assignmentId
  have hagreement := settled_agreed (hpair.left (participant_advances _) (hears_lasts _))
    (hpair.right (coordinator_advances _) (obeys_lasts _ _ _)) hrow rfl (fleet.named _).symm
    (by rw [hstatus]; rfl)
  rcases hagreement with hwithheld | ⟨publication, status, _, _, _, hreconciled, hjournal⟩
  · have hcancelled := hwithheld.1
    rw [hstatus] at hcancelled
    cases hcancelled
  · rw [hstatus] at hreconciled
    rcases hjournal with ⟨record, stored, hrecord, hissuer, hstored, hsame⟩ | ⟨hrejected, _⟩
    · refine ⟨record, stored, hrecord, hissuer, hstored, hsame.trans ?_⟩
      cases status <;> cases hreconciled
      rfl
    · rw [hrejected] at hreconciled
      cases hreconciled

theorem follows_lasts (config : Participant.Config) (coordinatorId : String) :
    (follows config coordinatorId).Lasts (fun a b => a.published <+: b.published) :=
  fun hgrows m ts move hmove => ⟨receivesFrom_lasts hgrows m ts move hmove.1, hmove.2⟩

/-- In every run of a fleet under the guards, whenever a robot's adapter has been called with
an assignment of the coordinator, it is the assignment of a row that has been dispatched to
this robot, and for each step that it depends on the assigned robot's journal holds a
success. -/
theorem work_follows_dependencies (fleet : Fleet) (s : FleetState)
    (h : fleet.Reaches Fleet.initial s) (robotId : String) (d : Participant.Delivery)
    (hcall : d ∈ (s.around robotId).shared.calls)
    (hissuer : d.envelope.sourceId = fleet.coordinator.coordinatorId) :
    exists row, row ∈ s.center.shared.store.runSteps.rows ∧ row.assignment = d.assignment ∧
      row.status ≠ .pending ∧ row.assignment.step.assignedRobotId = robotId ∧
      forall stepId, stepId ∈ d.assignment.step.dependsOn ->
        exists other, other ∈ s.center.shared.store.runSteps.rows ∧
          other.planId = row.planId ∧ other.stepId = stepId ∧ other.status = .succeeded ∧
          fleet.Done s other := by
  have hpair := Star.Reaches.pair h robotId
  have hleft := hpair.left (participant_advances _) (hears_lasts robotId)
  have hright := hpair.right (coordinator_advances _) (follows_lasts _ _)
  have hordered := Coordinator.reaches_ordered (hleft.weaken (fun _ _ _ _ => trivial))
  have hissues : Issues s.center.shared :=
    (issues_keeps fleet.coordinator).reaches (hleft.weaken (fun _ _ _ _ => trivial))
      (fun _ _ => trivial) (fun _ hnone => by cases hnone)
  rcases issued_of_call (hright.weaken (fun _ _ _ hD => hD.1)) hcall hissuer with
    ⟨hissued, hkind, hdecoded⟩
  rcases published_of_issued hissues hissued hkind hdecoded with ⟨hpublished, hrobot⟩
  rcases hordered.published d.assignment hpublished with
    ⟨⟨row, hrow, hassignment, hrowId, hdependencies⟩, started, hstarted, hstartedId, hstatus⟩
  have hsame := Coordinator.CoordinatorStore.eq_of_assignmentId hstarted hrow
    (hstartedId.trans hrowId.symm)
  refine ⟨row, hrow, hassignment, hsame ▸ hstatus, ?_, ?_⟩
  · rw [hassignment, hrobot, fleet.named]
  · intro stepId hstep
    rcases hdependencies stepId hstep with ⟨other, hother, hplan, hotherStep, hsucceeded⟩
    exact ⟨other, hother, hplan, hotherStep, hsucceeded, h.done hother hsucceeded⟩

/-!
## Two robots, one after the other
-/

def patrolFleet : Fleet where
  coordinator := Coordinator.patrolConfig
  robots robotId := { Participant.patrolConfig 0 with robotId := robotId }
  named _ := rfl

def patrolNext : Envelope :=
  Coordinator.sealMessage Coordinator.patrolConfig .initial
    (.assignment (patrolAssignment "b" "p" (patrolStep "s2" "r2" ["s1"]))) 0 "patrol" 4 "a"

theorem meets_of_quiet_fleet (around : String -> Pool Participant.Memory Participant.Task)
    (p : Pool Coordinator.Memory Coordinator.Task)
    (a : Action Coordinator.Reading Coordinator.Entry) (h : spawnsNothing p a = true) :
    Machine.Meets (fun m ts move => forall robotId, hears robotId (around robotId).shared m ts
      move) p a := by
  cases a with
  | spawn entry => cases h
  | run i r => exact fun _ _ _ _ _ => trivial
  | _ => trivial

theorem meets_follows_of_firstDelivery (config : Participant.Config) (m : Coordinator.Memory)
    (p : Pool Participant.Memory Participant.Task)
    (a : Action Participant.Reading Participant.Entry) (h : firstDelivery p a = true) :
    Machine.Meets (follows config "c" m) p a := by
  cases a with
  | spawn entry => cases h
  | run i r =>
      intro t others hnext htasks
      exact ⟨trivial, oneIssuer_of_firstDelivery h hnext htasks⟩
  | _ => trivial

theorem patrol_reaches_work {s : FleetState} {robotId : String} {issued : Envelope}
    (hissued : issued ∈ s.center.shared.published.map Prod.snd)
    (hfresh : s.around robotId = Participant.initial) (hkind : issued.messageType = .assignment)
    {count : Nat} {q : Pool Participant.Memory Participant.Task}
    (hq : (Participant.machine (patrolFleet.robots robotId)).runWhere firstDelivery
      { shared := .initial, threads := [[.assignment issued]] }
      (Participant.patrolTasks 0 count 0) = some q) :
    patrolFleet.Reaches s { s with around := Function.update s.around robotId q } := by
  apply Star.Reaches.of_around
  rw [hfresh]
  refine .head ⟨.spawn (.receive issued), ⟨fun _ => hissued, fun _ => trivial⟩, ?_⟩
    (Machine.runWhere_reaches (meets_follows_of_firstDelivery _ _) hq)
  show some _ = some _
  simp only [Participant.machine, Participant.start, hkind]
  rfl

set_option maxRecDepth 8000 in
theorem patrol_works_in_order :
    exists s d, patrolFleet.Reaches Fleet.initial s ∧ d ∈ (s.around "r2").shared.calls ∧
      d.envelope.sourceId = "c" ∧ d.assignment.step.dependsOn = ["s1"] := by
  have hanswered : ((Participant.machine (patrolFleet.robots "r1")).runWhere firstDelivery
      { shared := .initial, threads := [[.assignment patrolIssued]] }
      (Participant.patrolTasks 0 8 0)).bind
        (fun p => p.shared.sent[1]?.map Participant.Publication.envelope) =
          some patrolAnswer := by
    rfl
  have hrecorded : ((Coordinator.machine Coordinator.patrolConfig).runWhere spawnsNothing
      (Coordinator.patrolSubmitted ["s1"]) (Coordinator.patrolMoves 0 9)).bind (fun p =>
        ((Coordinator.machine Coordinator.patrolConfig).runWhere spawnsNothing
          { p with threads := p.threads ++ [[.outcome patrolAnswer]] }
          (Coordinator.patrolMoves 1 7)).bind
            (fun p => p.shared.published[3]?.map Prod.snd)) = some patrolNext := by
    rfl
  have hcalled : ((Participant.machine (patrolFleet.robots "r2")).runWhere firstDelivery
      { shared := .initial, threads := [[.assignment patrolNext]] }
      (Participant.patrolTasks 0 4 0)).bind (fun p => p.shared.calls[0]?.map (fun d =>
        (d.envelope.sourceId, d.assignment.step.dependsOn))) = some ("c", ["s1"]) := by
    rfl
  rcases patrol_dispatched with ⟨p, hp, hissued⟩
  rcases Option.bind_eq_some_iff.mp hanswered with ⟨first, hfirst, hanswer⟩
  rw [hp, Option.bind_some] at hrecorded
  rcases Option.bind_eq_some_iff.mp hrecorded with ⟨p', hp', hnext⟩
  rcases Option.bind_eq_some_iff.mp hcalled with ⟨second, hsecond, hcall⟩
  rcases Option.map_eq_some_iff.mp hanswer with ⟨answer, hanswer, henvelope⟩
  rcases Option.map_eq_some_iff.mp hnext with ⟨next, hnext, hnextSealed⟩
  rcases Option.map_eq_some_iff.mp hcall with ⟨d, hcall, hfields⟩
  rcases Prod.mk.inj hfields with ⟨hsource, hdependsOn⟩
  have hsubmitted : patrolFleet.Reaches Fleet.initial { Fleet.initial with center := p } := by
    apply Star.Reaches.of_center
    exact (Coordinator.patrolSubmitted_reached (Or.inr rfl) (fun _ => trivial)
      (fun _ => trivial)).trans (Machine.runWhere_reaches (meets_of_quiet_fleet _) hp)
  have hwalked : patrolFleet.Reaches { Fleet.initial with center := p }
      { center := p, around := Function.update (fun _ => Participant.initial) "r1" first } :=
    patrol_reaches_work hissued rfl rfl hfirst
  have hgone : patrolFleet.Reaches
      { center := p, around := Function.update (fun _ => Participant.initial) "r1" first }
      { center := p', around := Function.update (fun _ => Participant.initial) "r1" first } := by
    apply Star.Reaches.of_center
    refine .head ⟨.spawn (.receive patrolAnswer), ?_, rfl⟩
      (Machine.runWhere_reaches (meets_of_quiet_fleet _) hp')
    intro robotId hsender
    have hsame : robotId = "r1" := hsender.symm
    rw [hsame]
    simp only [Function.update_self]
    exact List.mem_map.mpr ⟨answer, List.mem_of_getElem? hanswer, henvelope⟩
  have hfresh : Function.update (fun _ => Participant.initial) "r1" first "r2" =
      Participant.initial := Function.update_of_ne (by decide) _ _
  have hworks := patrol_reaches_work
    (s := { center := p',
            around := Function.update (fun _ => Participant.initial) "r1" first })
    (List.mem_map.mpr ⟨next, List.mem_of_getElem? hnext, hnextSealed⟩) hfresh rfl hsecond
  refine ⟨_, d, ((hsubmitted.trans hwalked).trans hgone).trans hworks, ?_, hsource, hdependsOn⟩
  simp only [Function.update_self]
  exact List.mem_of_getElem? hcall

theorem patrol_work_follows :
    exists (s : FleetState) (d : Participant.Delivery) (row : Coordinator.StepRow),
      patrolFleet.Reaches Fleet.initial s ∧ d ∈ (s.around "r2").shared.calls ∧
      row.assignment = d.assignment ∧
      exists other, other ∈ s.center.shared.store.runSteps.rows ∧ other.stepId = "s1" ∧
        patrolFleet.Done s other := by
  rcases patrol_works_in_order with ⟨s, d, hreaches, hcall, hsource, hdependsOn⟩
  rcases work_follows_dependencies patrolFleet s hreaches "r2" d hcall hsource with
    ⟨row, _, hassignment, _, _, hdone⟩
  rcases hdone "s1" (by rw [hdependsOn]; exact List.mem_cons_self) with
    ⟨other, hother, _, hstep, _, hdone⟩
  exact ⟨s, d, row, hreaches, hcall, hassignment, other, hother, hstep, hdone⟩

end Ump.Mission
