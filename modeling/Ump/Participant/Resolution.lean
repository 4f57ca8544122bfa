import Ump.Participant.Histories
import Ump.Participant.Successors

/-!
# Resolution of unknown work

## What a resolution needs

An operator may settle work whose outcome the participant does not know. The journal
lets a record be resolved while its status is unknown and nothing is stored as its
outcome, and a participant also stores outcomes that say `unknown`.
-/

namespace Ump.Participant

open Foundation Journal

/-- The record holds the determination, and the resources of the assignment are free. -/
structure Determined (journal : Journal) (assignmentId : String) (status : AssignmentStatus)
    (outcome : Outcome) (journal' : Journal) : Prop where
  determined : outcome.status = status
  stored : exists record, journal'.lookup assignmentId = some record ∧
    record.status = status ∧ record.outcome = some outcome
  freed : forall resource, journal.owner? resource = some assignmentId ->
    journal'.owner? resource = none

/-- `resolve_unknown` carries out every known determination with valid texts. -/
def Resolvable (journal : Journal) (assignmentId : String) : Prop :=
  forall status description resolverId evidence nowMs,
    status = .succeeded ∨ status = .failed ∨ status = .rejected ∨ status = .cancelled ->
    requiredText description "outcome description" maxLongTextBytes = .ok () ->
    requiredText resolverId "resolver_id" maxIdBytes = .ok () ->
    requiredText evidence "resolution evidence" maxLongTextBytes = .ok () ->
    bindInteger nowMs = .ok () ->
    exists outcome journal',
      Connection.resolveUnknown assignmentId status description resolverId evidence nowMs
        (.idle journal) = .ok outcome (.idle journal') ∧
      Determined journal assignmentId status outcome journal'

theorem checked_ids {assignment : Assignment} (h : assignment.check = .ok ()) :
    identifier assignment.assignmentId "assignment_id" = .ok () ∧
      identifier assignment.step.assignedRobotId "robot_id" = .ok () := by
  rcases bind_eq_ok.mp h with ⟨_, hstep, h⟩
  rcases bind_eq_ok.mp h with ⟨_, hid, _⟩
  rcases bind_eq_ok.mp hstep with ⟨_, _, hstep⟩
  rcases bind_eq_ok.mp hstep with ⟨_, _, hstep⟩
  rcases bind_eq_ok.mp hstep with ⟨_, hrobot, _⟩
  exact ⟨hid, requiredText_rename hrobot⟩

theorem owner?_record {journal : Journal} {assignmentId : String} {outcome : Outcome}
    (hknown : outcome.status ≠ .unknown) (resource : String) :
    (journal.record assignmentId outcome).owner? resource =
      if journal.owner? resource = some assignmentId then none else journal.owner? resource := by
  unfold Journal.owner? Journal.record
  rw [if_neg hknown]
  exact ownerIn_release assignmentId journal.reservations resource

theorem resolvable_of_open {journal : Journal} (h : Orderly journal) {assignmentId : String}
    {stored : JournalRecord} (hstored : journal.lookup assignmentId = some stored)
    (hunknown : stored.status = .unknown) (hopen : stored.outcome = none) :
    Resolvable journal assignmentId := by
  intro status description resolverId evidence nowMs hstatus hdescription hresolver hevidence
    hnow
  have hids := checked_ids (h.built assignmentId stored hstored)
  rw [stored.bound, (lookup_eq_some hstored).2] at hids
  have haccepted : status ≠ .accepted := by
    rintro rfl
    simp at hstatus
  have hknown : status ≠ .unknown := by
    rintro rfl
    simp at hstatus
  rcases Outcome.make_of_agreeing hids.1 hids.2 hdescription haccepted with ⟨outcome, hmake⟩
  have hfresh : forall other, other ∈ journal.resolutions.rows -> Keyed.clash other
      ({ assignmentId := assignmentId, status := status, resolverId := resolverId,
         evidence := evidence, occurredAtMs := nowMs } : Resolution) = false := by
    intro other hother
    by_contra hclash
    have hid : other.assignmentId = assignmentId := by
      simpa [Keyed.clash] using hclash
    rcases h.resolved other hother with ⟨record, hrecord, hsettled⟩
    rw [hid, hstored] at hrecord
    cases hrecord
    exact hsettled hopen
  rcases Table.insert?_of_no_clash hfresh with ⟨resolutions, hinsert⟩
  have hresolve : journal.resolveUnknown assignmentId status description resolverId evidence
      nowMs = .ok (outcome, { journal.record assignmentId outcome with
        resolutions := resolutions }) := by
    unfold Journal.resolveUnknown validateResolution
    rw [hresolver, hevidence, hstored]
    simp [refuseWhen, bind, Except.bind, haccepted, hknown, hunknown, hopen, hmake, hnow, hinsert]
  have hrefines := resolveUnknown_refines assignmentId status description resolverId evidence
    nowMs journal
  rw [hresolve] at hrefines
  have houtcome : outcome.status = status := (Outcome.make_eq_ok hmake).2.2.2.2.2
  refine ⟨outcome, _, hrefines, houtcome, ?_, ?_⟩
  · refine ⟨_, lookup_record_self hstored outcome, ?_, (recorded_of_open hopen outcome).2.1⟩
    rw [(recorded_of_open hopen outcome).1, houtcome]
  · intro resource howner
    have hfreed := @owner?_record journal assignmentId outcome (by rw [houtcome]; exact hknown)
      resource
    rw [if_pos howner] at hfreed
    exact hfreed

theorem open_of_resolvable {journal : Journal} {assignmentId : String} {stored : JournalRecord}
    (hstored : journal.lookup assignmentId = some stored)
    (h : Resolvable journal assignmentId) : stored.outcome = none := by
  rcases h .succeeded "Done" "operator" "log" 0 (Or.inl rfl) rfl rfl rfl rfl with
    ⟨outcome, journal', hresolve, _⟩
  have hrefines := resolveUnknown_refines assignmentId .succeeded "Done" "operator" "log" 0
    journal
  cases hresult : journal.resolveUnknown assignmentId .succeeded "Done" "operator" "log" 0 with
  | error e =>
      rw [hresult] at hrefines
      cases hresolve.symm.trans hrefines
  | ok result =>
      rcases (resolved_of_resolveUnknown hresult).unknown with ⟨found, hfound, _, hopen⟩
      rw [hstored] at hfound
      cases hfound
      exact hopen

theorem resolvable_iff {journal : Journal} (h : Orderly journal) {assignmentId : String}
    {stored : JournalRecord} (hstored : journal.lookup assignmentId = some stored)
    (hunknown : stored.status = .unknown) :
    Resolvable journal assignmentId <-> stored.outcome = none :=
  ⟨open_of_resolvable hstored, resolvable_of_open h hstored hunknown⟩

/-!
## Where unknown outcomes come from

The only outcome that a participant stores with the status `unknown` is that of an
adapter that gave none.
-/

/-- An outcome that an operation can store for an assignment. -/
inductive Stores (operation : Operation) (assignmentId : String) (outcome : Outcome) : Prop where
  | completed {assignment : Assignment} {nowMs : Int}
      (hoperation : operation = .complete assignment outcome nowMs)
      (hid : assignment.assignmentId = assignmentId) : Stores operation assignmentId outcome
  | determined {status : AssignmentStatus} {description resolverId evidence : String}
      {nowMs : Int} (hoperation : operation =
        .resolveUnknown assignmentId status description resolverId evidence nowMs)
      (hid : outcome.assignmentId = assignmentId) (hknown : outcome.status ≠ .unknown) :
      Stores operation assignmentId outcome

theorem outcome_of_record {journal : Journal} {recordedId assignmentId : String}
    {outcome stored : Outcome} {record' : JournalRecord}
    (hrecord' : (journal.record recordedId outcome).lookup assignmentId = some record')
    (hstored : record'.outcome = some stored) :
    (exists record, journal.lookup assignmentId = some record ∧ record.outcome = some stored) ∨
      (assignmentId = recordedId ∧ stored = outcome) := by
  by_cases hid : assignmentId = recordedId
  · subst hid
    cases hrecord : journal.lookup assignmentId with
    | none =>
        rw [lookup_record, hrecord] at hrecord'
        cases hrecord'
    | some record =>
        rw [lookup_record_self hrecord] at hrecord'
        cases hrecord'
        cases houtcome : record.outcome with
        | none =>
            rw [(recorded_of_open houtcome outcome).2.1] at hstored
            cases hstored
            exact Or.inr ⟨rfl, rfl⟩
        | some other =>
            rw [recorded_of_settled houtcome] at hstored
            exact Or.inl ⟨record, rfl, hstored⟩
  · rw [lookup_record_other hid] at hrecord'
    exact Or.inl ⟨record', hrecord', hstored⟩

theorem outcome_of_apply {sha256 : Text -> String} {journal : Journal} {operation : Operation}
    {assignmentId : String} {outcome : Outcome} {record' : JournalRecord}
    (hrecord' : (journal.apply sha256 operation).lookup assignmentId = some record')
    (hstored : record'.outcome = some outcome) :
    (exists record, journal.lookup assignmentId = some record ∧ record.outcome = some outcome) ∨
      Stores operation assignmentId outcome := by
  cases hcommit : journal.commit sha256 operation with
  | error e =>
      rw [apply_of_error hcommit] at hrecord'
      exact Or.inl ⟨record', hrecord', hstored⟩
  | ok result =>
      rcases result with ⟨answer, journal'⟩
      rw [apply_of_ok hcommit] at hrecord'
      cases operation with
      | claim assignment issuerId nowMs =>
          rcases bind_eq_ok.mp hcommit with ⟨⟨result, claimed⟩, hclaim, hresult⟩
          cases hresult
          cases claim_eq_ok hclaim with
          | new hfree hlookup =>
              rw [hlookup] at hrecord'
              split_ifs at hrecord'
              · cases hrecord'
                cases hstored
              · exact Or.inl ⟨record', hrecord', hstored⟩
          | _ => exact Or.inl ⟨record', hrecord', hstored⟩
      | complete assignment completed nowMs =>
          rcases bind_eq_ok.mp hcommit with ⟨after, hcomplete, hresult⟩
          cases hresult
          rw [(complete_eq_ok hcomplete).1] at hrecord'
          rcases outcome_of_record hrecord' hstored with hold | ⟨rfl, rfl⟩
          · exact Or.inl hold
          · exact Or.inr (.completed rfl rfl)
      | resolveUnknown resolvedId status description resolverId evidence nowMs =>
          rcases bind_eq_ok.mp hcommit with ⟨⟨made, after⟩, hresolve, hresult⟩
          cases hresult
          have hresolved := resolved_of_resolveUnknown hresolve
          rw [(resolveUnknown_eq_ok hresolve).2] at hrecord'
          rcases outcome_of_record hrecord' hstored with hold | ⟨rfl, rfl⟩
          · exact Or.inl hold
          · refine Or.inr (.determined rfl hresolved.outcomeId ?_)
            rw [hresolved.outcomeStatus]
            exact hresolved.known.2
      | reopen =>
          cases hcommit
          rw [lookup_reopen] at hrecord'
          rcases Option.map_eq_some_iff.mp hrecord' with ⟨record, hrecord, rfl⟩
          rw [outcome_interrupted] at hstored
          exact Or.inl ⟨record, hrecord, hstored⟩

def Task.settling? : Task -> Option (Delivery × Outcome)
  | .lookupLatest delivery outcome => some (delivery, outcome)
  | .complete delivery outcome _ => some (delivery, outcome)
  | _ => none

/-- Outcomes in the journal, and on their way to it, are as the predicate says. -/
structure Settles (P : String -> Outcome -> Prop) (m : Memory) (ts : Multiset Task) : Prop where
  stored : forall assignmentId record outcome,
    m.journal.lookup assignmentId = some record -> record.outcome = some outcome ->
      P assignmentId outcome
  pending : forall t delivery outcome, t ∈ ts -> t.settling? = some (delivery, outcome) ->
    P delivery.assignmentId outcome

/-- What the predicate has to hold of: outcomes of executions, cancellations and
determinations. -/
structure SettlesFrom (config : Config) (C : Condition Memory Task Reading Entry)
    (P : String -> Outcome -> Prop) : Prop where
  returned : forall m ts r delivery outcome, C m ts (.exec (.settle delivery) r) ->
    executedOutcome config delivery.assignment r = .ok outcome ->
      P delivery.assignmentId outcome
  cancelled : forall assignmentId description outcome,
    ownOutcome config assignmentId .cancelled description = .ok outcome -> P assignmentId outcome
  determined : forall outcome : Outcome, outcome.status ≠ .unknown ->
    P outcome.assignmentId outcome

theorem settling_report {delivery : Delivery} {outcome stored : Outcome} {nowMs : Int}
    {cause : Envelope} {t : Task} (ht : t ∈ report stored nowMs cause) :
    t.settling? ≠ some (delivery, outcome) := by
  unfold report at ht
  simp only [List.mem_cons, List.not_mem_nil, or_false] at ht
  rcases ht with rfl | rfl <;> exact fun h => by cases h

theorem settling_of_pending {t : Task} {delivery : Delivery} (h : t.pending? = some delivery) :
    t.settling? = none := by
  cases t <;> first | rfl | cases h

theorem start_settles_nothing (entry : Entry) (t : Task) (ht : t ∈ start entry) :
    t.settling? = none := by
  cases start_cases ht <;> rfl

section

variable {config : Config} {C : Condition Memory Task Reading Entry}
variable {P : String -> Outcome -> Prop} {m : Memory} {ts : Multiset Task} {t t' : Task}
variable {r : Reading}

theorem settles_successor (hfrom : SettlesFrom config C P) (h : Settles P m (t ::ₘ ts))
    (hcondition : C m ts (.exec t r)) (hsucceeds : Succeeds config m r t t')
    {delivery : Delivery} {outcome : Outcome}
    (hsettling : t'.settling? = some (delivery, outcome)) : P delivery.assignmentId outcome := by
  cases hsucceeds with
  | returned hexecuted =>
      cases hsettling
      exact hfrom.returned m ts r _ _ hcondition hexecuted
  | completes delivery completed =>
      cases hsettling
      exact h.pending (.lookupLatest delivery outcome) delivery outcome
        (Multiset.mem_cons_self _ _) rfl
  | claimed hpending _ =>
      rw [settling_of_pending hpending] at hsettling
      cases hsettling
  | superseded _ _ ht => exact absurd hsettling (settling_report ht)
  | completed _ ht => exact absurd hsettling (settling_report ht)
  | _ => cases hsettling

theorem settles_stores (hfrom : SettlesFrom config C P) (h : Settles P m (t ::ₘ ts))
    {operation : Operation} {assignmentId : String} {outcome : Outcome}
    (hoperation : t.operation? config r = some operation)
    (hstores : Stores operation assignmentId outcome) : P assignmentId outcome := by
  cases hstores with
  | determined _ hid hknown =>
      rw [← hid]
      exact hfrom.determined outcome hknown
  | completed hcomplete hid =>
      subst hcomplete
      cases t with
      | complete delivery completed nowMs =>
          cases hoperation
          rw [← hid]
          exact h.pending _ delivery outcome (Multiset.mem_cons_self _ _) rfl
      | recordCancellation assignment description envelope =>
          rw [Task.operation?] at hoperation
          cases hown : ownOutcome config assignment.assignmentId .cancelled description with
          | error e =>
              rw [hown] at hoperation
              cases hoperation
          | ok made =>
              rw [hown] at hoperation
              cases hoperation
              rw [← hid]
              exact hfrom.cancelled _ _ _ hown
      | _ => cases hoperation

theorem settles_keeps (hfrom : SettlesFrom config C P) :
    (machine config).Keeps C (fun _ _ => True) (Settles P) where
  drop h hle :=
    ⟨h.stored, fun t delivery outcome ht =>
      h.pending t delivery outcome (Multiset.mem_of_le hle ht)⟩
  spawn {m ts entry} _ h _ := by
    refine ⟨h.stored, ?_⟩
    intro t delivery outcome ht hsettling
    rcases Multiset.mem_add.mp ht with hold | hnew
    · exact h.pending t delivery outcome hold hsettling
    · rw [start_settles_nothing entry t (Multiset.mem_coe.mp hnew)] at hsettling
      cases hsettling
  crash {m ts} _ h := by
    constructor
    · intro assignmentId record outcome hrecord houtcome
      have hreopened : m.journal.reopen.lookup assignmentId = some record := hrecord
      rw [lookup_reopen] at hreopened
      rcases Option.map_eq_some_iff.mp hreopened with ⟨before, hbefore, rfl⟩
      rw [outcome_interrupted] at houtcome
      exact h.stored assignmentId before outcome hbefore houtcome
    · intro t delivery outcome ht
      cases Multiset.notMem_zero t ht
  exec {m t ts r} _ h hcondition := by
    constructor
    · intro assignmentId record outcome hrecord houtcome
      have hjournal : (exec config m t r).1.journal.lookup assignmentId = some record := hrecord
      rw [exec_journal] at hjournal
      cases hoperation : t.operation? config r with
      | none =>
          rw [hoperation] at hjournal
          exact h.stored assignmentId record outcome hjournal houtcome
      | some operation =>
          rw [hoperation] at hjournal
          rcases outcome_of_apply hjournal houtcome with ⟨before, hbefore, hold⟩ | hstores
          · exact h.stored assignmentId before outcome hbefore hold
          · exact settles_stores hfrom h hoperation hstores
    · intro t' delivery outcome ht' hsettling
      rcases Multiset.mem_add.mp ht' with hnew | hold
      · have hsucceeds := exec_succeeds config m r (Multiset.mem_coe.mp hnew)
        exact settles_successor hfrom h hcondition hsucceeds hsettling
      · exact h.pending t' delivery outcome (Multiset.mem_cons_of_mem hold) hsettling

theorem reaches_settles (hfrom : SettlesFrom config C P) {p : Pool Memory Task}
    (h : (machine config).Reaches C initial p) : Settles P p.shared p.tasks := by
  apply (settles_keeps hfrom).reaches h (fun _ _ => trivial)
  constructor
  · intro assignmentId record outcome hrecord
    cases hrecord
  · intro t delivery outcome ht
    cases Multiset.notMem_zero t ht

end

/-- The adapter returns a valid outcome, and not one that says `unknown`. -/
def Conclusive (config : Config) : Condition Memory Task Reading Entry :=
  fun _ _ move =>
    match move with
    | .exec (.settle delivery) r =>
        exists outcome, nativeOutcome config delivery.assignment r = .ok outcome ∧
          outcome.status ≠ .unknown
    | _ => True

theorem conclusive_settles (config : Config) :
    SettlesFrom config (Conclusive config) (fun _ outcome => outcome.status ≠ .unknown) where
  returned _ _ r delivery outcome hcondition hexecuted := by
    rcases hcondition with ⟨native, hnative, hknown⟩
    unfold executedOutcome at hexecuted
    rw [hnative] at hexecuted
    cases hexecuted
    exact hknown
  cancelled assignmentId description outcome hown := by
    rw [(Outcome.make_eq_ok hown).2.2.2.2.2]
    decide
  determined outcome hknown := hknown

/-- When the adapter always gives a valid known outcome, all work whose status is unknown
can be resolved; whatever it gives, exactly the unknown work without a stored outcome can
be. -/
theorem unknown_work_resolvable (config : Config) (p : Pool Memory Task) :
    ((machine config).Reaches (Conclusive config) initial p ->
      forall assignmentId record, p.shared.journal.lookup assignmentId = some record ->
        record.status = .unknown -> Resolvable p.shared.journal assignmentId) ∧
    ((machine config).Reaches .always initial p ->
      forall assignmentId record, p.shared.journal.lookup assignmentId = some record ->
        record.status = .unknown ->
        (Resolvable p.shared.journal assignmentId <-> record.outcome = none)) := by
  constructor
  · intro h assignmentId record hrecord hunknown
    have hsettles := reaches_settles (conclusive_settles config) h
    apply resolvable_of_open (reaches_historic h).orderly hrecord hunknown
    cases houtcome : record.outcome with
    | none => rfl
    | some outcome =>
        have hknown := hsettles.stored assignmentId record outcome hrecord houtcome
        rw [record.agrees outcome houtcome] at hknown
        exact absurd hunknown hknown
  · intro h assignmentId record hrecord hunknown
    exact resolvable_iff (reaches_historic h).orderly hrecord hunknown

/-!
## Two interrupted patrols

In the first run the process stops after the walk, before its outcome is stored. In the
second one the adapter times out, and the outcome that says `unknown` is stored.
-/

def conclusive (config : Config) (p : Pool Memory Task) : Action Reading Entry -> Bool
  | .run i r =>
      match p.nextTask i with
      | some (.settle delivery) =>
          match nativeOutcome config delivery.assignment r with
          | .ok outcome => outcome.status != .unknown
          | .error _ => false
      | _ => true
  | _ => true

theorem meets_of_conclusive (config : Config) (p : Pool Memory Task) (a : Action Reading Entry)
    (h : conclusive config p a = true) : Machine.Meets (Conclusive config) p a := by
  cases a with
  | run i r =>
      intro t others hnext _
      cases t with
      | settle delivery =>
          simp only [conclusive, hnext] at h
          cases hnative : nativeOutcome config delivery.assignment r with
          | error typeName =>
              rw [hnative] at h
              cases h
          | ok outcome =>
              rw [hnative] at h
              exact ⟨outcome, hnative, by simpa using h⟩
      | _ => trivial
  | spawn e => trivial
  | stop i => trivial
  | crash => trivial

def walkView (p : Pool Memory Task) : Option (AssignmentStatus × Bool) :=
  (p.shared.journal.lookup "a").map (fun record => (record.status, record.outcome.isSome))

def patrolInterrupted : List (Action Reading Entry) :=
  .spawn (.receive (patrolAssigned "c")) :: patrolTasks 0 6 0 ++ [.crash]

def patrolTimedOut : List (Action Reading Entry) :=
  .spawn (.receive (patrolAssigned "c")) :: List.replicate 7
    (.run 0 { patrolReading 0 with native := .raised "TimeoutError" })

set_option maxRecDepth 8000 in
theorem patrol_resolvable :
    exists p, (machine (patrolConfig 0)).runWhere (conclusive (patrolConfig 0)) initial
        patrolInterrupted = some p ∧
      walkView p = some (.unknown, false) ∧ Resolvable p.shared.journal "a" := by
  have hview : ((machine (patrolConfig 0)).runWhere (conclusive (patrolConfig 0)) initial
      patrolInterrupted).map walkView = some (some (.unknown, false)) := by
    decide +kernel
  rcases Option.map_eq_some_iff.mp hview with ⟨p, hrun, hview⟩
  refine ⟨p, hrun, hview, ?_⟩
  rcases Option.map_eq_some_iff.mp hview with ⟨record, hrecord, hfields⟩
  exact (unknown_work_resolvable (patrolConfig 0) p).1
    (Machine.runWhere_reaches (meets_of_conclusive (patrolConfig 0)) hrun) "a" record hrecord
    (Prod.mk.inj hfields).1

set_option maxRecDepth 8000 in
/-- The timed out walk has the status `unknown`, and no determination of it is accepted. -/
theorem patrol_not_resolvable :
    ¬ forall p, (machine (patrolConfig 0)).Reaches .always initial p ->
      forall assignmentId record, p.shared.journal.lookup assignmentId = some record ->
        record.status = .unknown -> Resolvable p.shared.journal assignmentId := by
  intro hall
  have hview : ((machine (patrolConfig 0)).run initial patrolTimedOut).map walkView =
      some (some (.unknown, true)) := by
    decide +kernel
  rcases Option.map_eq_some_iff.mp hview with ⟨p, hrun, hview⟩
  rcases Option.map_eq_some_iff.mp hview with ⟨record, hrecord, hfields⟩
  rcases Prod.mk.inj hfields with ⟨hunknown, hsettled⟩
  have hopen := open_of_resolvable hrecord
    (hall p (Machine.run_reaches hrun) "a" record hrecord hunknown)
  rw [hopen] at hsettled
  cases hsettled

end Ump.Participant
