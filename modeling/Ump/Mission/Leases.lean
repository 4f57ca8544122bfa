import Ump.Authority.Grantors
import Ump.Foundation.Joint
import Ump.Participant.Execution

/-!
# Work under leases

## The owner and the participant

The owner of a robot grants and revokes leases in the store of the robot, in calls of its
own, while the participant receives, queues and executes assignments. The authorizer of the
participant answers each time from what the store holds at that moment.
-/

namespace Ump.Mission

open Foundation

abbrev LeaseCalls := List Authority.Operation

def ownerMachine : Machine LeaseCalls Authority.Operation Unit Authority.Operation where
  exec calls call _ := (calls ++ [call], .next [])
  start call := [call]
  restart calls := calls

abbrev Owned := Joint Participant.Memory Participant.Task LeaseCalls Authority.Operation

/-- After these calls the store lets the assignment of the envelope pass. -/
def Passes (robotId : String) (calls : LeaseCalls) (envelope : Envelope)
    (assignment : Assignment) (nowMs : Int) : Prop :=
  exists lease session, Authority.Connection.authorize robotId envelope.sourceId robotId
    assignment nowMs (Authority.History.replay robotId calls).session = .ok lease session

def authorizes (robotId : String) : Joint.Guard LeaseCalls Participant.Memory Participant.Task
    Participant.Reading Participant.Entry
  | calls, _, _, .exec (.assignment envelope) r => r.authority = .granted ->
      forall assignment, Participant.assignmentOf robotId envelope.payload =
        .ok (some assignment) -> Passes robotId calls envelope assignment r.nowMs
  | _, _, _, _ => True

def OwnedReaches (config : Participant.Config) : Owned -> Owned -> Prop :=
  Joint.Reaches (Participant.machine config) ownerMachine (authorizes config.robotId)
    (fun _ => Condition.always)

def ownedInitial : Owned where
  left := Participant.initial
  right := { shared := [], threads := [] }

/-- The lease that a delivery presents is in force after the calls: it is the last revision
that they have stored, it is the robot's own and allows the delivery, and none of the calls
has revoked it. -/
structure InForce (robotId : String) (calls : LeaseCalls) (d : Participant.Delivery)
    (lease : Authority.AuthorityLease) : Prop where
  presented : d.assignment.authorityLeaseId = some lease.leaseId
  last : Authority.latest (Authority.History.replay robotId calls).revisions lease.leaseId =
    some lease
  own : lease.grantorRobotId = robotId
  allows : Authority.Allows lease d.envelope.sourceId d.assignment.step.capability
    d.reading.nowMs
  unrevoked : forall before expectedRevision revokedAtMs reason after,
    calls = before ++ .revoke lease.leaseId expectedRevision revokedAtMs reason :: after ->
    Authority.returns (Authority.Connection.revoke lease.leaseId expectedRevision revokedAtMs
      reason (Authority.History.replay robotId before).session) = false

/-!
## The leases of a store
-/

def OwnRevisions (robotId : String) (history : Authority.History) : Prop :=
  forall lease, lease ∈ history.revisions -> lease.grantorRobotId = robotId

theorem ownRevisions_stored {robotId : String} {history : Authority.History}
    (h : OwnRevisions robotId history) {operation : Authority.Operation}
    (hgrant : forall lease nowMs, operation = .grant lease nowMs ->
      lease.grantorRobotId = robotId) (lease : Authority.AuthorityLease)
    (hlease : lease ∈ Authority.stored history.revisions operation) :
    lease.grantorRobotId = robotId := by
  cases operation with
  | grant granted nowMs =>
      rw [List.mem_singleton.mp hlease]
      exact hgrant granted nowMs rfl
  | revoke leaseId expectedRevision nowMs reason =>
      rcases List.mem_map.mp hlease with ⟨old, hold, rfl⟩
      exact h old (List.mem_reverse.mp (List.mem_of_find?_eq_some (Option.mem_toList.mp hold)))
  | authorize issuerId target assignment nowMs => cases hlease
  | reopen => cases hlease

theorem ownRevisions_perform {robotId : String} {history : Authority.History}
    (hkept : Authority.Kept history) (h : OwnRevisions robotId history)
    (operation : Authority.Operation) :
    OwnRevisions robotId (Authority.History.perform robotId history operation) := by
  rcases hkept with ⟨store, hidle, _⟩
  have hgrant : forall lease nowMs, operation = .grant lease nowMs ->
      Authority.returns (Authority.method robotId operation history.session) = true ->
      lease.grantorRobotId = robotId := by
    rintro lease nowMs rfl hreturns
    rw [hidle] at hreturns
    rcases Authority.returns_of_refines (Authority.grant_refines robotId lease nowMs store)
      hreturns with ⟨_, hresult⟩
    cases hgranted : store.grant robotId lease nowMs with
    | error e =>
        rw [hgranted] at hresult
        cases hresult
    | ok store' =>
        rcases Authority.ok_of_bind hgranted with ⟨_, hchecked, _⟩
        exact Authority.checkGrant_eq_ok hchecked
  intro lease hlease
  cases operation with
  | reopen => exact h lease hlease
  | _ =>
      rcases List.mem_append.mp hlease with hold | hnew
      · exact h lease hold
      · split_ifs at hnew with hreturns
        · exact ownRevisions_stored h (fun granted nowMs hsame =>
            hgrant granted nowMs hsame hreturns) lease hnew
        · cases hnew

theorem ownRevisions_replay (robotId : String) (calls : LeaseCalls) :
    OwnRevisions robotId (Authority.History.replay robotId calls) := by
  induction calls using List.reverseRecOn with
  | nil =>
      intro lease hlease
      cases hlease
  | append_singleton before call ih =>
      rw [Authority.replay_append]
      exact ownRevisions_perform (Authority.kept_replay robotId before) ih call

theorem unrevoked_of_active {robotId : String} {calls : LeaseCalls}
    {lease : Authority.AuthorityLease}
    (hlast : Authority.latest (Authority.History.replay robotId calls).revisions lease.leaseId =
      some lease) (hactive : lease.status = .active) (before : LeaseCalls)
    (expectedRevision revokedAtMs : Int) (reason : String) (after : LeaseCalls)
    (hsplit : calls =
      before ++ .revoke lease.leaseId expectedRevision revokedAtMs reason :: after) :
    Authority.returns (Authority.Connection.revoke lease.leaseId expectedRevision revokedAtMs
      reason (Authority.History.replay robotId before).session) = false := by
  by_contra hreturns
  have hkept := Authority.kept_replay robotId before
  rcases Authority.revoked_of_returns robotId hkept (Bool.eq_true_of_not_eq_false hreturns) with
    ⟨old, hrevoked, hlatest⟩
  have hlater := Authority.performed_foldl robotId after
    (Authority.perform_performed robotId hkept (.revoke lease.leaseId expectedRevision
      revokedAtMs reason)).kept
  have hstays := hlater.revoked lease.leaseId old hlatest hrevoked
  rw [hsplit, Authority.replay_append, List.foldl_cons, hstays] at hlast
  cases hlast
  rw [hrevoked] at hactive
  cases hactive

theorem inForce_of_passes {robotId : String} {calls : LeaseCalls} {d : Participant.Delivery}
    (h : Passes robotId calls d.envelope d.assignment d.reading.nowMs) :
    exists lease, InForce robotId calls d lease := by
  rcases h with ⟨lease, session, hauthorized⟩
  rcases Authority.authorize_of_kept (Authority.kept_replay robotId calls) hauthorized with
    ⟨leaseId, hpresented, hlast, hallows⟩
  have hid := Authority.leaseId_of_latest hlast
  subst hid
  have hmem := List.mem_reverse.mp (List.mem_of_find?_eq_some hlast)
  exact ⟨lease,
    { presented := hpresented
      last := hlast
      own := ownRevisions_replay robotId calls lease hmem
      allows := hallows
      unrevoked := unrevoked_of_active hlast hallows.active }⟩

/-!
## Admitted deliveries
-/

theorem admitted_of_other {config : Participant.Config} {m : Participant.Memory}
    {t : Participant.Task} {r : Participant.Reading} {d : Participant.Delivery}
    (hother : forall envelope, t ≠ .assignment envelope)
    (h : .admitted d ∈ (Participant.exec config m t r).1.history) : .admitted d ∈ m.history := by
  have heffect := Participant.exec_effect config m t r
  generalize Participant.exec config m t r = result at heffect h
  cases heffect with
  | quiet _ _ hhistory _ => rwa [hhistory] at h
  | admitted _ _ => exact absurd rfl (hother _)
  | claimed _ _ => exact Participant.mem_of_mem_concat h (by simp)
  | submitted _ => exact h
  | taken _ => exact h
  | executed _ => exact Participant.mem_of_mem_concat h (by simp)
  | recorded _ _ _ _ hhistory _ => rwa [hhistory] at h
  | resolved _ _ _ _ => exact h

theorem admissible_of_admitted {config : Participant.Config} {m : Participant.Memory}
    {t : Participant.Task} {r : Participant.Reading} {d : Participant.Delivery}
    (hnew : .admitted d ∉ m.history)
    (h : .admitted d ∈ (Participant.exec config m t r).1.history) :
    t = .assignment d.envelope ∧ d.reading = r ∧ Participant.Admissible config d ∧
      (Participant.exec config m t r).1.history = m.history ++ [.admitted d] := by
  by_cases hassignment : exists envelope, t = .assignment envelope
  · rcases hassignment with ⟨envelope, rfl⟩
    rw [Participant.exec] at h ⊢
    cases hdecoded : Participant.assignmentOf config.robotId envelope.payload with
    | error e =>
        rw [hdecoded] at h
        exact absurd h hnew
    | ok decoded =>
        rw [hdecoded] at h
        cases decoded with
        | none => exact absurd h hnew
        | some assignment =>
            dsimp only [attempt] at h ⊢
            cases hchecked : Participant.checkDelivery config assignment r with
            | ok _ =>
                rw [hchecked] at h
                rcases List.mem_append.mp h with hold | hlast
                · exact absurd hold hnew
                · cases List.mem_singleton.mp hlast
                  exact ⟨rfl, rfl, Participant.checkDelivery_eq_ok hdecoded hchecked, rfl⟩
            | error refusal =>
                rw [hchecked] at h
                cases refusal with
                | raised => exact absurd h hnew
                | rejected description =>
                    dsimp only [Participant.answer] at h
                    cases hown : Participant.ownOutcome config assignment.assignmentId
                        .rejected description with
                    | error e =>
                        rw [hown] at h
                        exact absurd h hnew
                    | ok outcome =>
                        rw [hown] at h
                        exact absurd h hnew
  · exact absurd (admitted_of_other (fun envelope hsame => hassignment ⟨envelope, hsame⟩) h) hnew

/-- In this state the participant takes a step that admits the delivery, whose execution it
has not begun. -/
structure Admits (config : Participant.Config) (d : Participant.Delivery) (s : Owned)
    (p : Pool Participant.Memory Participant.Task) : Prop where
  step : (Participant.machine config).Step (authorizes config.robotId s.right.shared) s.left p
  history : p.shared.history = s.left.shared.history ++ [.admitted d]
  uncalled : d ∉ s.left.shared.calls

theorem passes_of_step {config : Participant.Config} {s : Owned}
    {p : Pool Participant.Memory Participant.Task} {d : Participant.Delivery}
    (h : (Participant.machine config).Step (authorizes config.robotId s.right.shared) s.left p)
    (hnew : .admitted d ∉ s.left.shared.history) (hadmitted : .admitted d ∈ p.shared.history) :
    p.shared.history = s.left.shared.history ++ [.admitted d] ∧
      Passes config.robotId s.right.shared d.envelope d.assignment d.reading.nowMs := by
  rcases h with ⟨action, hmeets, hstep⟩
  cases Machine.stepped_of_step hstep with
  | spawned entry => exact absurd hadmitted hnew
  | ran r hthread =>
      rcases hmeets.exec hthread with ⟨others, _, hauthorizes⟩
      rcases admissible_of_admitted hnew hadmitted with ⟨rfl, hreading, hadmissible, hhistory⟩
      refine ⟨hhistory, ?_⟩
      rw [hreading]
      exact hauthorizes (hreading ▸ hadmissible.authorized) d.assignment hadmissible.decoded
  | stopped i => exact absurd hadmitted hnew
  | crashed => exact absurd hadmitted hnew

theorem owner_advances : ownerMachine.Advances (fun _ _ => True) where
  refl _ := trivial
  trans _ _ := trivial
  exec _ _ _ := trivial
  restart _ := trivial

theorem admitted_of_called {config : Participant.Config} {s : Owned}
    (h : OwnedReaches config ownedInitial s) {d : Participant.Delivery}
    (hd : d ∈ s.left.shared.calls) : .admitted d ∈ s.left.shared.history := by
  have hfree : Joint.Reaches (Participant.machine config) ownerMachine
      (fun _ => Condition.always) (fun _ => Condition.always) ownedInitial s :=
    Joint.Reaches.weaken (fun _ _ _ _ _ => trivial) (fun _ _ _ _ hD => hD) h
  have hclaims := Participant.reaches_claims
    (hfree.left owner_advances (fun _ _ _ _ _ => trivial))
  rcases List.mem_filterMap.mp hd with ⟨event, hevent, haccepted⟩
  cases event with
  | accepted accepted =>
      cases haccepted
      rcases List.append_of_mem hevent with ⟨before, after, hsplit⟩
      have hcaused := (hclaims.caused d before after hsplit).subset List.mem_cons_self
      rw [hsplit]
      exact List.mem_append_left _ hcaused
  | admitted _ => cases haccepted
  | claimed _ => cases haccepted

/-- However the calls of the owner and the steps of the participant interleave, and whatever
restarts: whenever the adapter has been called with an assignment, an earlier step of the run
has admitted it, and at that step the robot's own lease that it presents was in force for its
issuer, its capability and the time of the step, and had not been revoked. -/
theorem work_under_lease (config : Participant.Config) (s : Owned)
    (h : OwnedReaches config ownedInitial s) (d : Participant.Delivery)
    (hd : d ∈ s.left.shared.calls) :
    exists s' p lease, OwnedReaches config ownedInitial s' ∧ Admits config d s' p ∧
      OwnedReaches config { s' with left := p } s ∧
      InForce config.robotId s'.right.shared d lease := by
  have harises := Joint.Reaches.arises (P := fun p => .admitted d ∈ p.shared.history) h
    (fun hnone => by cases hnone) (admitted_of_called h hd)
  rcases harises with ⟨s', p, hbefore, hstep, hnew, hadmitted, hafter⟩
  rcases passes_of_step hstep hnew hadmitted with ⟨hhistory, hpasses⟩
  rcases inForce_of_passes hpasses with ⟨lease, hinForce⟩
  exact ⟨s', p, lease, hbefore,
    { step := hstep
      history := hhistory
      uncalled := fun hcalled => hnew (admitted_of_called hbefore hcalled) }, hafter, hinForce⟩

/-!
## A leased walk

The owner grants the lease of the walk, and the participant walks under it.
-/

def patrolLeasedMessage : Envelope :=
  Participant.patrolMessage .assignment "c" Authority.patrolLeased.payload

def patrolCalls : LeaseCalls := [.grant Authority.patrolLease 0]

/-- A test for the participant: no message comes in, and none is about to be checked. -/
def checksNothing (p : Pool Participant.Memory Participant.Task) :
    Action Participant.Reading Participant.Entry -> Bool
  | .spawn _ => false
  | .run i _ =>
      match p.nextTask i with
      | some (.assignment _) => false
      | _ => true
  | _ => true

theorem meets_of_checksNothing (robotId : String) (calls : LeaseCalls)
    (p : Pool Participant.Memory Participant.Task)
    (a : Action Participant.Reading Participant.Entry) (h : checksNothing p a = true) :
    Machine.Meets (authorizes robotId calls) p a := by
  cases a with
  | spawn entry => cases h
  | run i r =>
      intro t others hnext _
      simp only [checksNothing, hnext] at h
      cases t with
      | assignment envelope => cases h
      | _ => trivial
  | _ => trivial

def patrolGranted : Pool LeaseCalls Authority.Operation :=
  { shared := patrolCalls, threads := [[]] }

def patrolReceived : Pool Participant.Memory Participant.Task :=
  { shared := .initial, threads := [[.assignment patrolLeasedMessage]] }

theorem patrolCalls_pass {assignment : Assignment} (hdecoded : Participant.assignmentOf "r1"
    patrolLeasedMessage.payload = .ok (some assignment)) :
    Passes "r1" patrolCalls patrolLeasedMessage assignment 15 := by
  have hpayload : Participant.assignmentOf "r1" patrolLeasedMessage.payload =
      .ok (some Authority.patrolLeased) := by
    rfl
  rw [hpayload] at hdecoded
  cases hdecoded
  have hpasses : Authority.patrolPasses patrolCalls 15 = true := by decide
  unfold Authority.patrolPasses at hpasses
  cases hauthorized : Authority.Connection.authorize "r1" "c" "r1" Authority.patrolLeased 15
      (Authority.History.replay "r1" patrolCalls).session with
  | ok lease session => exact ⟨lease, session, hauthorized⟩
  | error e session =>
      rw [hauthorized] at hpasses
      cases hpasses

set_option maxRecDepth 8000 in
theorem patrol_walks_leased :
    exists s d, OwnedReaches (Participant.patrolConfig 0) ownedInitial s ∧
      d ∈ s.left.shared.calls ∧ d.assignment.assignmentId = "a1" := by
  have hcalled : (((Participant.machine (Participant.patrolConfig 0)).step patrolReceived
      (.run 0 (Participant.patrolReading 15))).bind (fun p =>
        (Participant.machine (Participant.patrolConfig 0)).runWhere checksNothing p
          (Participant.patrolTasks 0 3 15))).map (fun p =>
            p.shared.calls.map (fun d => d.assignment.assignmentId)) = some ["a1"] := by
    rfl
  rcases Option.map_eq_some_iff.mp hcalled with ⟨last, hlast, hids⟩
  rcases Option.bind_eq_some_iff.mp hlast with ⟨p, hp, hlast⟩
  rcases List.map_eq_singleton_iff.mp hids with ⟨d, hcalls, hid⟩
  refine ⟨{ left := last, right := patrolGranted }, d, ?_, ?_, hid⟩
  · have hgranted : OwnedReaches (Participant.patrolConfig 0) ownedInitial
        { left := Participant.initial, right := patrolGranted } := by
      apply Joint.Reaches.of_right
      refine .head ⟨.spawn (.grant Authority.patrolLease 0), trivial, rfl⟩ (.single ?_)
      exact ⟨.run 0 (), fun _ _ _ _ => trivial, rfl⟩
    have hwalked : OwnedReaches (Participant.patrolConfig 0)
        { left := Participant.initial, right := patrolGranted }
        { left := last, right := patrolGranted } := by
      apply Joint.Reaches.of_left
      refine .head ⟨.spawn (.receive patrolLeasedMessage), trivial, rfl⟩ ?_
      refine .head ⟨.run 0 (Participant.patrolReading 15), ?_, hp⟩
        (Machine.runWhere_reaches (meets_of_checksNothing "r1" patrolCalls) hlast)
      intro t others hnext _
      cases Option.some.inj (show some (Participant.Task.assignment patrolLeasedMessage) =
        some t from hnext)
      exact fun _ assignment hdecoded => patrolCalls_pass hdecoded
    exact hgranted.trans hwalked
  · rw [hcalls]
    exact List.mem_cons_self

theorem patrol_work_under_lease :
    exists (s s' : Owned) (d : Participant.Delivery) (p : Pool Participant.Memory Participant.Task)
        (lease : Authority.AuthorityLease),
      d ∈ s.left.shared.calls ∧ d.assignment.assignmentId = "a1" ∧
      Admits (Participant.patrolConfig 0) d s' p ∧
      OwnedReaches (Participant.patrolConfig 0) { s' with left := p } s ∧
      InForce "r1" s'.right.shared d lease := by
  rcases patrol_walks_leased with ⟨s, d, hreaches, hcalled, hid⟩
  rcases work_under_lease (Participant.patrolConfig 0) s hreaches d hcalled with
    ⟨s', p, lease, _, hadmits, hlater, hinForce⟩
  exact ⟨s, s', d, p, lease, hcalled, hid, hadmits, hlater, hinForce⟩

end Ump.Mission
