import Ump.Foundation.Ownership
import Ump.Participant.Statements

/-!
# Resource reservations

## Owners and live assignments

A journal reserves the resources of an assignment while its outcome is not known. The
owner of a resource is read off the reservations and the demand of an assignment off its
record, and every operation keeps the two matched.
-/

namespace Ump.Participant

open Foundation Journal

def JournalRecord.live (record : JournalRecord) : Bool :=
  record.status = .accepted || record.status = .unknown

def demand (lookup : String -> Option JournalRecord) (assignmentId : String) : Set String :=
  {resource | exists record, lookup assignmentId = some record ∧ record.live = true ∧
    resource ∈ record.assignment.step.resources}

def ownerIn (reservations : Table Reservation) (resource : String) : Option String :=
  (reservations.fetch (fun reservation => reservation.resourceId == resource)).map
    (fun reservation => reservation.assignmentId)

def Journal.owner? (journal : Journal) (resource : String) : Option String :=
  ownerIn journal.reservations resource

theorem demand_of_none {lookup : String -> Option JournalRecord} {assignmentId : String}
    (h : lookup assignmentId = none) : demand lookup assignmentId = ∅ := by
  ext resource
  simp [demand, h]

theorem demand_of_some {lookup : String -> Option JournalRecord} {assignmentId : String}
    {record : JournalRecord} (h : lookup assignmentId = some record)
    (hlive : record.live = true) :
    demand lookup assignmentId = {resource | resource ∈ record.assignment.step.resources} := by
  ext resource
  simp [demand, h, hlive]

theorem demand_of_settled {lookup : String -> Option JournalRecord} {assignmentId : String}
    {record : JournalRecord} (h : lookup assignmentId = some record)
    (hlive : record.live = false) : demand lookup assignmentId = ∅ := by
  ext resource
  simp [demand, h, hlive]

theorem demand_congr {before after : String -> Option JournalRecord} {assignmentId : String}
    (h : after assignmentId = before assignmentId) :
    demand after assignmentId = demand before assignmentId := by
  unfold demand
  rw [h]

/-!
## The table of reservations
-/

theorem ownerIn_insert {t t' : Table Reservation} {added : Reservation}
    (h : t.insert? added = some t') (resource : String) :
    ownerIn t' resource =
      if resource = added.resourceId then some added.assignmentId else ownerIn t resource := by
  unfold ownerIn
  rw [Table.fetch_insert h]
  by_cases hresource : resource = added.resourceId
  · have hnone : t.fetch (fun reservation => reservation.resourceId == resource) = none := by
      rw [Table.fetch_eq_none]
      intro other hother
      rw [hresource]
      exact (Table.insert?_eq_some h).2 other hother
    rw [hnone, hresource]
    simp
  · have hother : (added.resourceId == resource) = false := by
      simpa using fun heq => hresource heq.symm
    simp [hresource, hother]

theorem ownerIn_reserve {assignmentId : String} {resources : List String}
    {t t' : Table Reservation} (h : reserve assignmentId resources t = some t')
    (resource : String) :
    ownerIn t' resource =
      if resource ∈ resources then some assignmentId else ownerIn t resource := by
  induction resources generalizing t with
  | nil =>
      cases h
      simp
  | cons head rest ih =>
      unfold reserve at h
      cases hinsert : t.insert? { resourceId := head, assignmentId := assignmentId } with
      | none =>
          rw [hinsert] at h
          cases h
      | some mid =>
          rw [hinsert] at h
          rw [ih h, ownerIn_insert hinsert]
          by_cases hrest : resource ∈ rest
          · simp [hrest]
          · by_cases hhead : resource = head
            · simp [hhead]
            · simp [hrest, hhead]

theorem ownerIn_eq_none {t : Table Reservation} {resource : String} :
    ownerIn t resource = none <->
      forall reservation, reservation ∈ t.rows -> reservation.resourceId ≠ resource := by
  unfold ownerIn
  rw [Option.map_eq_none_iff, Table.fetch_eq_none]
  simp

theorem reserve_of_free {assignmentId : String} {resources : List String}
    {t : Table Reservation} (hdistinct : resources.Nodup)
    (hfree : forall resource, resource ∈ resources -> ownerIn t resource = none) :
    exists t', reserve assignmentId resources t = some t' := by
  induction resources generalizing t with
  | nil => exact ⟨t, rfl⟩
  | cons head rest ih =>
      have hhead := ownerIn_eq_none.mp (hfree head List.mem_cons_self)
      have hclash : forall other, other ∈ t.rows -> Keyed.clash other
          ({ resourceId := head, assignmentId := assignmentId } : Reservation) = false := by
        intro other hother
        simpa [Keyed.clash] using hhead other hother
      rcases Table.insert?_of_no_clash hclash with ⟨mid, hinsert⟩
      have hrest : forall resource, resource ∈ rest -> ownerIn mid resource = none := by
        intro resource hresource
        rw [ownerIn_insert hinsert, if_neg]
        · exact hfree resource (List.mem_cons_of_mem _ hresource)
        · rintro rfl
          exact (List.nodup_cons.mp hdistinct).1 hresource
      rcases ih (List.nodup_cons.mp hdistinct).2 hrest with ⟨t', hreserve⟩
      refine ⟨t', ?_⟩
      unfold reserve
      rw [hinsert]
      exact hreserve

theorem ownerIn_eq_some {t : Table Reservation} {resource assignmentId : String} :
    ownerIn t resource = some assignmentId <->
      { resourceId := resource, assignmentId := assignmentId } ∈ t.rows := by
  unfold ownerIn
  rw [Option.map_eq_some_iff]
  constructor
  · rintro ⟨reservation, hfetch, rfl⟩
    rcases Table.fetch_eq_some hfetch with ⟨hmem, hresource⟩
    rw [← beq_iff_eq.mp hresource]
    exact hmem
  · intro hmem
    refine ⟨_, Table.fetch_of_mem hmem (by simp) ?_, rfl⟩
    intro other _ hother
    show (resource == other.resourceId) = true
    rw [BEq.comm]
    exact hother

theorem ownerIn_release (assignmentId : String) (t : Table Reservation) (resource : String) :
    ownerIn (release assignmentId t) resource =
      if ownerIn t resource = some assignmentId then none else ownerIn t resource := by
  unfold release
  by_cases howner : ownerIn t resource = some assignmentId
  · rw [if_pos howner, ownerIn_eq_none]
    intro other hother hresource
    rcases Table.mem_delete_iff.mp hother with ⟨hmem, hkept⟩
    have hsame : ownerIn t resource = some other.assignmentId := by
      rw [ownerIn_eq_some, ← hresource]
      exact hmem
    rw [howner] at hsame
    simp [Option.some.inj hsame] at hkept
  · rw [if_neg howner]
    cases hfound : ownerIn t resource with
    | none =>
        rw [ownerIn_eq_none] at hfound ⊢
        intro other hother
        exact hfound other (Table.mem_delete_iff.mp hother).1
    | some holder =>
        have hother : holder ≠ assignmentId := by
          rintro rfl
          exact howner hfound
        rw [ownerIn_eq_some] at hfound ⊢
        exact Table.mem_delete_iff.mpr ⟨hfound, by simpa using hother⟩

/-!
## Every operation keeps them matched
-/

/-- The reservations are those of the live assignments, and a record without an outcome
is live. -/
structure Reserved (journal : Journal) : Prop where
  matched : Matched journal.owner? (demand journal.lookup)
  openLive : forall assignmentId record, journal.lookup assignmentId = some record ->
    record.outcome = none -> record.live = true

theorem reserved_empty : Reserved Journal.empty where
  matched resource assignmentId := by
    rw [demand_of_none (lookup_empty assignmentId)]
    constructor
    · intro h
      cases h
    · intro h
      cases h
  openLive assignmentId record h := by cases h

@[simp] theorem live_interrupted (record : JournalRecord) :
    (interrupted record).live = record.live := by
  unfold interrupted
  split_ifs with hopen
  · simp [JournalRecord.live, hopen.1]
  · rfl

@[simp] theorem assignment_interrupted (record : JournalRecord) :
    (interrupted record).assignment = record.assignment := by
  unfold interrupted
  split_ifs <;> rfl

@[simp] theorem outcome_interrupted (record : JournalRecord) :
    (interrupted record).outcome = record.outcome := by
  unfold interrupted
  split_ifs <;> rfl

theorem Reserved.reopen {journal : Journal} (h : Reserved journal) :
    Reserved journal.reopen where
  matched := by
    apply h.matched.keep
    · intro resource
      rfl
    · intro assignmentId
      ext resource
      simp [demand, lookup_reopen]
  openLive assignmentId record hrecord hopen := by
    rw [lookup_reopen] at hrecord
    rcases Option.map_eq_some_iff.mp hrecord with ⟨before, hbefore, rfl⟩
    rw [outcome_interrupted] at hopen
    rw [live_interrupted]
    exact h.openLive assignmentId before hbefore hopen

theorem resourceConflict_eq_true {journal : Journal} {assignment : Assignment} :
    journal.resourceConflict assignment = true <->
      exists resource, resource ∈ assignment.step.resources ∧ exists other,
        other ≠ assignment.assignmentId ∧ journal.owner? resource = some other := by
  unfold resourceConflict Journal.owner?
  rw [List.any_eq_true]
  constructor
  · rintro ⟨reservation, hmem, htest⟩
    simp only [Bool.and_eq_true, List.contains_iff_mem, bne_iff_ne, ne_eq] at htest
    exact ⟨reservation.resourceId, htest.1, reservation.assignmentId, htest.2,
      ownerIn_eq_some.mpr hmem⟩
  · rintro ⟨resource, hresource, other, hother, howner⟩
    refine ⟨_, ownerIn_eq_some.mp howner, ?_⟩
    simp [hresource, hother]

theorem Reserved.free {journal : Journal} (h : Reserved journal) {assignment : Assignment}
    (hnone : journal.lookup assignment.assignmentId = none)
    (hconflict : journal.resourceConflict assignment = false) (resource : String)
    (hresource : resource ∈ assignment.step.resources) : journal.owner? resource = none := by
  cases howner : journal.owner? resource with
  | none => rfl
  | some other =>
      by_cases hother : other = assignment.assignmentId
      · have hdemand := (h.matched resource other).mp howner
        rw [hother, demand_of_none hnone] at hdemand
        cases hdemand
      · have htrue := resourceConflict_eq_true.mpr
          ⟨resource, hresource, other, hother, howner⟩
        rw [hconflict] at htrue
        cases htrue

theorem Reserved.claim {sha256 : Text -> String} {journal journal' : Journal}
    {assignment : Assignment} {issuerId : String} {nowMs : Int} {result : ClaimResult}
    (h : Reserved journal)
    (hclaim : journal.claim sha256 assignment issuerId nowMs = .ok (result, journal')) :
    Reserved journal' := by
  cases claim_cases hclaim with
  | @new assignments reservations hfree hconflict _ hinsert hreserve =>
      have hlookup := lookup_insert hinsert reservations
      have howner := ownerIn_reserve hreserve
      constructor
      · apply h.matched.grant (demand_of_none hfree) (h.free hfree hconflict)
        · intro resource hresource
          exact (howner resource).trans (if_pos hresource)
        · intro resource hresource
          exact (howner resource).trans (if_neg hresource)
        · have hnew := hlookup assignment.assignmentId
          exact demand_of_some (hnew.trans (if_pos rfl)) rfl
        · intro other hother
          exact demand_congr ((hlookup other).trans (if_neg hother))
      · intro assignmentId record hrecord hopen
        rw [hlookup] at hrecord
        split_ifs at hrecord with hid
        · cases hrecord
          rfl
        · exact h.openLive assignmentId record hrecord hopen
  | resourceConflict => exact h
  | conflict => exact h
  | replay => exact h
  | uncertain => exact h

theorem live_eq_false {record : JournalRecord} :
    record.live = false <-> record.status ≠ .accepted ∧ record.status ≠ .unknown := by
  simp [JournalRecord.live]

theorem lookup_record_self {journal : Journal} {assignmentId : String} {stored : JournalRecord}
    (hstored : journal.lookup assignmentId = some stored) (outcome : Outcome) :
    (journal.record assignmentId outcome).lookup assignmentId =
      some (recorded outcome stored) := by
  rw [lookup_record, hstored]
  simp

theorem lookup_record_other {journal : Journal} {assignmentId otherId : String}
    (hother : otherId ≠ assignmentId) (outcome : Outcome) :
    (journal.record assignmentId outcome).lookup otherId = journal.lookup otherId := by
  rw [lookup_record]
  simp [hother]

theorem recorded_of_open {record : JournalRecord} (h : record.outcome = none)
    (outcome : Outcome) :
    (recorded outcome record).status = outcome.status ∧
      (recorded outcome record).outcome = some outcome ∧
      (recorded outcome record).assignment = record.assignment := by
  unfold recorded
  split
  next other hother =>
    rw [h] at hother
    cases hother
  next => exact ⟨rfl, rfl, rfl⟩

theorem recorded_of_settled {record : JournalRecord} {stored : Outcome}
    (h : record.outcome = some stored) (outcome : Outcome) :
    recorded outcome record = record := by
  unfold recorded
  split
  next => rfl
  next hopen =>
    rw [h] at hopen
    cases hopen

theorem status_recorded {record : JournalRecord} {outcome : Outcome}
    (h : forall stored, record.outcome = some stored -> stored.status = outcome.status) :
    (recorded outcome record).status = outcome.status := by
  cases houtcome : record.outcome with
  | none => exact (recorded_of_open houtcome outcome).1
  | some stored =>
      rw [recorded_of_settled houtcome, ← record.agrees stored houtcome, h stored houtcome]

theorem Reserved.record {journal : Journal} (h : Reserved journal) {assignmentId : String}
    {stored : JournalRecord} {outcome : Outcome}
    (hstored : journal.lookup assignmentId = some stored)
    (hsame : forall other, stored.outcome = some other -> other.status = outcome.status) :
    Reserved (journal.record assignmentId outcome) := by
  have hself := lookup_record_self hstored outcome
  have hstatus := status_recorded hsame
  constructor
  · by_cases hunknown : outcome.status = .unknown
    · apply h.matched.keep
      · intro resource
        show ownerIn (Journal.record journal assignmentId outcome).reservations resource = _
        unfold Journal.record
        rw [if_pos hunknown]
        rfl
      · intro otherId
        by_cases hother : otherId = assignmentId
        · subst hother
          cases houtcome : stored.outcome with
          | none =>
              have hlive : (recorded outcome stored).live = true := by
                simp [JournalRecord.live, hstatus, hunknown]
              rw [demand_of_some hself hlive,
                demand_of_some hstored (h.openLive otherId stored hstored houtcome),
                (recorded_of_open houtcome outcome).2.2]
          | some other =>
              rw [recorded_of_settled houtcome, ← hstored] at hself
              exact demand_congr hself
        · exact demand_congr (lookup_record_other hother outcome)
    · have howner : forall resource,
          (Journal.record journal assignmentId outcome).owner? resource =
            if journal.owner? resource = some assignmentId then none
            else journal.owner? resource := by
        intro resource
        unfold Journal.owner? Journal.record
        rw [if_neg hunknown]
        exact ownerIn_release assignmentId journal.reservations resource
      apply h.matched.release
      · intro resource hresource
        exact (howner resource).trans (if_pos hresource)
      · intro resource hresource
        exact (howner resource).trans (if_neg hresource)
      · apply demand_of_settled hself
        rw [live_eq_false, hstatus]
        exact ⟨outcome.notAccepted, hunknown⟩
      · intro otherId hother
        exact demand_congr (lookup_record_other hother outcome)
  · intro otherId record hrecord hopen
    by_cases hother : otherId = assignmentId
    · subst hother
      rw [hself] at hrecord
      cases hrecord
      cases houtcome : stored.outcome with
      | none =>
          rw [(recorded_of_open houtcome outcome).2.1] at hopen
          cases hopen
      | some other =>
          rw [recorded_of_settled houtcome, houtcome] at hopen
          cases hopen
    · rw [lookup_record_other hother] at hrecord
      exact h.openLive otherId record hrecord hopen

theorem Reserved.apply {sha256 : Text -> String} {journal : Journal} (h : Reserved journal)
    (operation : Operation) : Reserved (journal.apply sha256 operation) := by
  unfold Journal.apply
  cases hcommit : journal.commit sha256 operation with
  | error e => exact h
  | ok result =>
      cases operation with
      | claim assignment issuerId nowMs =>
          rcases bind_eq_ok.mp hcommit with ⟨⟨answer, journal'⟩, hclaim, hresult⟩
          cases hresult
          exact h.claim hclaim
      | complete assignment outcome nowMs =>
          rcases bind_eq_ok.mp hcommit with ⟨journal', hcomplete, hresult⟩
          cases hresult
          rcases complete_eq_ok hcomplete with ⟨rfl, stored, hstored, hsame⟩
          exact h.record hstored
            (fun other hother => Outcome.status_of_canonical (hsame other hother))
      | resolveUnknown assignmentId status description resolverId evidence nowMs =>
          rcases bind_eq_ok.mp hcommit with ⟨⟨outcome, journal'⟩, hresolve, hresult⟩
          cases hresult
          have hresolved := resolved_of_resolveUnknown hresolve
          rcases hresolved.unknown with ⟨stored, hstored, _, hopen⟩
          rcases hresolved.left with ⟨_, _, _, _, rfl⟩
          have hnone : forall other, stored.outcome = some other ->
              other.status = outcome.status := by
            rw [hopen]
            intro other hother
            cases hother
          have hrecord := h.record hstored hnone
          exact ⟨hrecord.matched, hrecord.openLive⟩
      | reopen =>
          cases hcommit
          exact h.reopen

theorem claim_answered {sha256 : Text -> String} {journal journal' : Journal}
    {assignment : Assignment} {issuerId : String} {nowMs : Int} {result : ClaimResult}
    (h : journal.claim sha256 assignment issuerId nowMs = .ok (result, journal'))
    (hold : result ≠ .new) : journal' = journal := by
  cases claim_eq_ok h with
  | new => exact absurd rfl hold
  | _ => rfl

theorem method_answered {sha256 : Text -> String} {operations : List Operation}
    {operation : Operation} {result : ClaimResult} {s : Session Journal}
    (h : method sha256 operation (replay sha256 operations) = .ok (some result) s)
    (hold : result ≠ .new) : s = replay sha256 operations := by
  rcases method_returned h with ⟨journal, hcommit, rfl⟩
  rw [replay_eq]
  cases operation with
  | claim assignment issuerId nowMs =>
      rcases bind_eq_ok.mp hcommit with ⟨⟨answer, journal'⟩, hclaim, hresult⟩
      cases hresult
      rw [claim_answered hclaim hold]
  | complete assignment outcome nowMs =>
      rcases bind_eq_ok.mp hcommit with ⟨journal', _, hresult⟩
      cases hresult
  | resolveUnknown assignmentId status description resolverId evidence nowMs =>
      rcases bind_eq_ok.mp hcommit with ⟨⟨outcome, journal'⟩, _, hresult⟩
      cases hresult
  | reopen => cases hcommit

theorem reserved_applyAll (sha256 : Text -> String) (operations : List Operation) :
    Reserved (Journal.empty.applyAll sha256 operations) := by
  unfold applyAll
  generalize hstart : Journal.empty = journal
  have hreserved : Reserved journal := hstart ▸ reserved_empty
  clear hstart
  induction operations generalizing journal with
  | nil => exact hreserved
  | cons operation rest ih => exact ih _ (hreserved.apply operation)

end Ump.Participant
