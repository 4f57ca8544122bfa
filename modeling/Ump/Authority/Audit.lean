import Mathlib.Data.List.Chain
import Ump.Authority.Grantors

/-!
# The audit trail of a lease

## Entries and rows

Each grant and each revocation writes the row of its lease and one audit entry. The entries
of a lease tell its revisions from the first grant to the row that is stored.
-/

namespace Ump.Authority

open Foundation

/-- `events`. -/
def Store.eventsOf (file : Store) (leaseId : String) : List EventRow :=
  file.events.filter (fun event => event.leaseId == leaseId)

def IsRevocation (event : EventRow) : Prop :=
  event.eventType = "revoke"

/-- The entries begin with the first grant, number the revisions one by one up to the one of
the row, and end where there is a revocation. -/
structure Trail (calls : List Call) (leaseId : String) (row : LeaseRow)
    (events : List EventRow) : Prop where
  first : exists robotId lease nowMs rest, ⟨robotId, .grant lease nowMs⟩ ∈ calls ∧
    lease.leaseId = leaseId ∧ events = Store.grantEvent lease nowMs :: rest ∧
    row.grantorRobotId = lease.grantorRobotId ∧ row.issuerId = lease.issuerId
  consecutive : events.IsChain (fun a b => b.revision = a.revision + 1)
  last : exists event, events.getLast? = some event ∧ event.revision = row.revision
  revoked : forall before event after, events = before ++ event :: after ->
    IsRevocation event -> after = []

/-- The row of a lease and its entries, neither or both. -/
inductive Recorded (calls : List Call) (leaseId : String) :
    Option LeaseRow -> List EventRow -> Prop where
  | absent : Recorded calls leaseId none []
  | present {row : LeaseRow} {events : List EventRow} (trail : Trail calls leaseId row events)
      (unrevoked : row.status ≠ .revoked -> forall event, event ∈ events ->
        ¬ IsRevocation event) : Recorded calls leaseId (some row) events

def Audited (calls : List Call) (file : Store) : Prop :=
  forall leaseId, Recorded calls leaseId (file.lease? leaseId) (file.eventsOf leaseId)

theorem Trail.mono {calls calls' : List Call} {leaseId : String} {row : LeaseRow}
    {events : List EventRow} (h : Trail calls leaseId row events) (hsub : calls ⊆ calls') :
    Trail calls' leaseId row events := by
  rcases h.first with ⟨robotId, lease, nowMs, rest, hcall, hrest⟩
  exact ⟨⟨robotId, lease, nowMs, rest, hsub hcall, hrest⟩, h.consecutive, h.last, h.revoked⟩

theorem Recorded.mono {calls calls' : List Call} {leaseId : String} {row? : Option LeaseRow}
    {events : List EventRow} (h : Recorded calls leaseId row? events) (hsub : calls ⊆ calls') :
    Recorded calls' leaseId row? events := by
  cases h with
  | absent => exact .absent
  | present trail unrevoked => exact .present (trail.mono hsub) unrevoked

theorem Trail.extend {calls : List Call} {leaseId : String} {row row' : LeaseRow}
    {events : List EventRow} {event : EventRow} (h : Trail calls leaseId row events)
    (hunrevoked : forall event, event ∈ events -> ¬ IsRevocation event)
    (hgrantor : row'.grantorRobotId = row.grantorRobotId)
    (hissuer : row'.issuerId = row.issuerId) (hnext : event.revision = row.revision + 1)
    (hrow : event.revision = row'.revision) :
    Trail calls leaseId row' (events ++ [event]) where
  first := by
    rcases h.first with ⟨robotId, lease, nowMs, rest, hcall, hid, hevents, hown, hheld⟩
    refine ⟨robotId, lease, nowMs, rest ++ [event], hcall, hid, ?_, hgrantor.trans hown,
      hissuer.trans hheld⟩
    rw [hevents, List.cons_append]
  consecutive := by
    rw [List.isChain_append]
    refine ⟨h.consecutive, List.isChain_singleton event, ?_⟩
    intro a ha b hb
    rcases h.last with ⟨last, hlast, hrevision⟩
    rw [hlast] at ha
    cases ha
    cases hb
    rw [hrevision, hnext]
  last := ⟨event, List.getLast?_concat, hrow⟩
  revoked := by
    intro before other after hsplit hrevocation
    rcases List.eq_nil_or_concat' after with hnil | ⟨front, final, hafter⟩
    · exact hnil
    · exfalso
      rw [hafter, ← List.cons_append, ← List.append_assoc] at hsplit
      have hevents := List.append_inj_left' hsplit rfl
      apply hunrevoked other _ hrevocation
      rw [hevents]
      exact List.mem_append_right before List.mem_cons_self

/-!
## What a call writes
-/

theorem eventsOf_append {file file' : Store} {event : EventRow}
    (h : file'.events = file.events ++ [event]) (leaseId : String) :
    file'.eventsOf leaseId =
      if event.leaseId = leaseId then file.eventsOf leaseId ++ [event]
      else file.eventsOf leaseId := by
  unfold Store.eventsOf
  rw [h, List.filter_append, List.filter_singleton]
  by_cases hid : event.leaseId = leaseId
  · rw [if_pos hid, beq_iff_eq.mpr hid]
    rfl
  · rw [if_neg hid, beq_eq_false_iff_ne.mpr hid]
    exact List.append_nil _

theorem appendEvent_events {store store' : Store} {event : EventRow}
    (h : store.appendEvent event = .ok store') : store'.events = store.events ++ [event] := by
  rcases ok_of_bind h with ⟨_, _, h⟩
  rcases ok_of_bind h with ⟨_, _, h⟩
  cases h
  rfl

theorem upsert_events (store : Store) (row : LeaseRow) :
    (store.upsert row).events = store.events := by
  unfold Store.upsert
  cases store.leases.insert? row <;> rfl

/-- A grant that returns is the first one, or renews a row that is not revoked. -/
structure Granted (file file' : Store) (lease : AuthorityLease) (nowMs : Int) : Prop where
  events : file'.events = file.events ++ [Store.grantEvent lease nowMs]
  renews : forall row, file.lease? lease.leaseId = some row ->
    row.grantorRobotId = lease.grantorRobotId ∧ row.issuerId = lease.issuerId ∧
      row.status ≠ .revoked ∧ lease.revision = row.revision + 1
  row : file'.lease? lease.leaseId = some (Store.newRow lease nowMs)

theorem granted {robotId : String} {file file' : Store} {lease : AuthorityLease} {nowMs : Int}
    (h : file.grant robotId lease nowMs = .ok file') : Granted file file' lease nowMs := by
  have hrow := lease?_grant h lease.leaseId
  rcases ok_of_bind h with ⟨_, _, h⟩
  rcases ok_of_bind h with ⟨_, hrenewal, h⟩
  rcases ok_of_bind h with ⟨put, hput, hevent⟩
  rw [if_pos rfl] at hrow
  constructor
  · rw [appendEvent_events hevent, putLease_eq_ok hput, upsert_events]
  · intro row hfound
    rw [hfound] at hrenewal
    have hunrevoked := not_revoked_of_checkRenewal hrenewal
    rcases ok_of_bind hrenewal with ⟨_, hidentity, hrenewal⟩
    rcases ok_of_bind hrenewal with ⟨_, _, hrevision⟩
    have hsame : row.grantorRobotId = lease.grantorRobotId ∧ row.issuerId = lease.issuerId := by
      simpa using forbidWhen_eq_ok hidentity
    have hnext : lease.revision = row.revision + 1 := by
      simpa using forbidWhen_eq_ok hrevision
    exact ⟨hsame.1, hsame.2, hunrevoked, hnext⟩
  · rw [hrow]
    cases hfound : file.lease? lease.leaseId with
    | none => rfl
    | some row =>
        rw [hfound] at hrenewal
        rw [Option.map_some, Option.getD_some, renewed_eq hrenewal (lease?_eq_some hfound).2]

structure Revoked (file file' : Store) (leaseId : String) (nowMs : Int) (reason : String)
    (row : LeaseRow) : Prop where
  found : file.lease? leaseId = some row
  active : row.status = .active
  events : file'.events =
    file.events ++ [Store.revokeEvent leaseId (row.revision + 1) nowMs reason]
  row : file'.lease? leaseId = some (Store.ended (row.revision + 1) nowMs row)

theorem revoked {file file' : Store} {leaseId reason : String} {expectedRevision nowMs : Int}
    (h : file.revoke leaseId expectedRevision nowMs reason = .ok file') :
    exists row, Revoked file file' leaseId nowMs reason row := by
  rcases named_of_revoke h with ⟨row, hfound⟩
  have hrow := lease?_revoke h leaseId
  rw [if_pos rfl, hfound, Option.map_some] at hrow
  rcases ok_of_bind h with ⟨_, _, h⟩
  rcases ok_of_bind h with ⟨_, hchecked, h⟩
  rcases ok_of_bind h with ⟨put, hput, hevent⟩
  rw [hfound] at hchecked
  have hactive := active_of_checkRevocation hchecked
  rcases ok_of_bind hchecked with ⟨_, hrevision, _⟩
  have hexpected : row.revision = expectedRevision := by
    simpa using forbidWhen_eq_ok hrevision
  rw [← hexpected] at hrow hevent
  have hput : put.events = file.events := by
    rcases ok_of_bind hput with ⟨_, _, hput⟩
    rcases ok_of_bind hput with ⟨_, _, hput⟩
    cases hput
    rfl
  refine ⟨row, hfound, hactive, ?_, hrow⟩
  rw [appendEvent_events hevent, hput]

/-!
## Calls keep the trails
-/

theorem Audited.grant {calls : List Call} {robotId : String} {file file' : Store}
    {lease : AuthorityLease} {nowMs : Int} (h : Audited calls file)
    (hcall : ⟨robotId, .grant lease nowMs⟩ ∈ calls)
    (hgrant : file.grant robotId lease nowMs = .ok file') : Audited calls file' := by
  have hgranted := granted hgrant
  intro leaseId
  rw [eventsOf_append hgranted.events]
  by_cases hid : lease.leaseId = leaseId
  · subst hid
    have hold := h lease.leaseId
    have hrenews := hgranted.renews
    rw [if_pos (show (Store.grantEvent lease nowMs).leaseId = lease.leaseId from rfl),
      hgranted.row]
    generalize file.lease? lease.leaseId = row? at hold hrenews
    generalize file.eventsOf lease.leaseId = events at hold
    cases hold with
    | absent =>
        apply Recorded.present
        · refine ⟨⟨robotId, lease, nowMs, [], hcall, rfl, rfl, rfl, rfl⟩,
            List.isChain_singleton _, ⟨_, rfl, rfl⟩, ?_⟩
          intro before event after hsplit _
          cases before with
          | nil => exact (List.cons.inj hsplit).2.symm
          | cons head before =>
              have hnil := (List.cons.inj hsplit).2
              rw [List.nil_append] at hsplit
              cases before <;> cases hnil
        · intro _ event hevent
          rw [List.mem_singleton.mp hevent]
          exact (by decide : ("grant" : String) ≠ "revoke")
    | @present row events trail unrevoked =>
        rcases hrenews row rfl with ⟨hgrantor, hissuer, hactive, hnext⟩
        apply Recorded.present
        · exact trail.extend (unrevoked hactive) hgrantor.symm hissuer.symm hnext rfl
        · intro _ event hevent
          rcases List.mem_append.mp hevent with hevent | hevent
          · exact unrevoked hactive event hevent
          · rw [List.mem_singleton.mp hevent]
            exact (by decide : ("grant" : String) ≠ "revoke")
  · rw [lease?_grant hgrant, if_neg (Ne.symm hid)]
    rw [if_neg (show ¬ (Store.grantEvent lease nowMs).leaseId = leaseId from hid)]
    exact h leaseId

theorem Audited.revoke {calls : List Call} {file file' : Store} {leaseId reason : String}
    {expectedRevision nowMs : Int} (h : Audited calls file)
    (hrevoke : file.revoke leaseId expectedRevision nowMs reason = .ok file') :
    Audited calls file' := by
  rcases revoked hrevoke with ⟨row, hrevoked⟩
  intro other
  rw [eventsOf_append hrevoked.events]
  by_cases hid : leaseId = other
  · subst hid
    have hold := h leaseId
    rw [hrevoked.found] at hold
    rw [show (Store.revokeEvent leaseId (row.revision + 1) nowMs reason).leaseId = leaseId from rfl,
      if_pos rfl, hrevoked.row]
    generalize file.eventsOf leaseId = events at hold
    cases hold with
    | present trail unrevoked =>
        have hunrevoked := unrevoked (by rw [hrevoked.active]; decide)
        apply Recorded.present
        · exact trail.extend hunrevoked rfl rfl rfl rfl
        · exact fun hnot => absurd rfl hnot
  · rw [lease?_revoke hrevoke, if_neg (Ne.symm hid)]
    rw [if_neg (show ¬ (Store.revokeEvent leaseId (row.revision + 1) nowMs reason).leaseId =
      other from hid)]
    exact h other

theorem perform_of_not_returns {file : Store} {call : Call}
    (h : returns (method call.robotId call.operation (.idle file)) = false) :
    file.perform call = file := by
  rcases call with ⟨robotId, operation⟩
  cases operation with
  | grant lease nowMs =>
      have hrefines := grant_refines robotId lease nowMs file
      rw [perform_grant]
      cases hgrant : file.grant robotId lease nowMs with
      | error e => rfl
      | ok file' =>
          rw [hgrant] at hrefines
          rw [show method robotId (.grant lease nowMs) (.idle file) = .ok () (.idle file')
            from hrefines] at h
          cases h
  | revoke leaseId expectedRevision nowMs reason =>
      have hrefines := revoke_refines leaseId expectedRevision nowMs reason file
      rw [perform_revoke]
      cases hrevoke : file.revoke leaseId expectedRevision nowMs reason with
      | error e => rfl
      | ok file' =>
          rw [hrevoke] at hrefines
          rw [show method robotId (.revoke leaseId expectedRevision nowMs reason) (.idle file) =
            .ok () (.idle file') from hrefines] at h
          cases h
  | authorize issuerId target assignment nowMs => exact perform_authorize ..
  | reopen => rfl

theorem Audited.perform {calls : List Call} {file : Store} {call : Call}
    (h : Audited calls file) (hcall : call ∈ calls) : Audited calls (file.perform call) := by
  rcases call with ⟨robotId, operation⟩
  cases operation with
  | grant lease nowMs =>
      rw [perform_grant]
      cases hgrant : file.grant robotId lease nowMs with
      | error e => exact h
      | ok file' => exact h.grant hcall hgrant
  | revoke leaseId expectedRevision nowMs reason =>
      rw [perform_revoke]
      cases hrevoke : file.revoke leaseId expectedRevision nowMs reason with
      | error e => exact h
      | ok file' => exact h.revoke hrevoke
  | authorize issuerId target assignment nowMs =>
      rw [perform_authorize]
      exact h
  | reopen => exact h

theorem audited_foldl {calls : List Call} (rest : List Call) {file : Store}
    (h : Audited calls file) (hrest : rest ⊆ calls) :
    Audited calls (rest.foldl Store.perform file) := by
  induction rest generalizing file with
  | nil => exact h
  | cons call rest ih =>
      rcases List.cons_subset.mp hrest with ⟨hcall, hlater⟩
      exact ih (h.perform hcall) hlater

theorem audited_replay (calls : List Call) : Audited calls (Store.replay calls) :=
  audited_foldl calls (fun _ => Recorded.absent) (List.Subset.refl calls)

/-!
## Who granted a lease, and to whom
-/

/-- The lease has the same grantor and the same issuer in both rows. -/
def SameParties (row row' : LeaseRow) : Prop :=
  row'.grantorRobotId = row.grantorRobotId ∧ row'.issuerId = row.issuerId

theorem perform_sameParties {file : Store} (call : Call) {leaseId : String} {row : LeaseRow}
    (hrow : file.lease? leaseId = some row) :
    exists row', (file.perform call).lease? leaseId = some row' ∧ SameParties row row' := by
  rcases call with ⟨robotId, operation⟩
  cases operation with
  | grant lease nowMs =>
      rw [perform_grant]
      cases hgrant : file.grant robotId lease nowMs with
      | error e => exact ⟨row, hrow, rfl, rfl⟩
      | ok file' =>
          have hgranted := granted hgrant
          by_cases hid : leaseId = lease.leaseId
          · subst hid
            rcases hgranted.renews row hrow with ⟨hgrantor, hissuer, _⟩
            exact ⟨_, hgranted.row, hgrantor.symm, hissuer.symm⟩
          · refine ⟨row, ?_, rfl, rfl⟩
            show file'.lease? leaseId = some row
            rw [lease?_grant hgrant, if_neg hid, hrow]
  | revoke other expectedRevision nowMs reason =>
      rw [perform_revoke]
      cases hrevoke : file.revoke other expectedRevision nowMs reason with
      | error e => exact ⟨row, hrow, rfl, rfl⟩
      | ok file' =>
          by_cases hid : leaseId = other
          · subst hid
            rcases revoked hrevoke with ⟨found, hrevoked⟩
            cases hrow.symm.trans hrevoked.found
            exact ⟨_, hrevoked.row, rfl, rfl⟩
          · refine ⟨row, ?_, rfl, rfl⟩
            show file'.lease? leaseId = some row
            rw [lease?_revoke hrevoke, if_neg hid, hrow]
  | authorize issuerId target assignment nowMs =>
      rw [perform_authorize]
      exact ⟨row, hrow, rfl, rfl⟩
  | reopen => exact ⟨row, hrow, rfl, rfl⟩

theorem foldl_sameParties (calls : List Call) {file : Store} {leaseId : String}
    {row : LeaseRow} (hrow : file.lease? leaseId = some row) :
    exists row', (calls.foldl Store.perform file).lease? leaseId = some row' ∧
      SameParties row row' := by
  induction calls generalizing file row with
  | nil => exact ⟨row, hrow, rfl, rfl⟩
  | cons call rest ih =>
      rcases perform_sameParties call hrow with ⟨next, hnext, hgrantor, hissuer⟩
      rcases ih hnext with ⟨last, hlast, hgrantor', hissuer'⟩
      exact ⟨last, hlast, hgrantor'.trans hgrantor, hissuer'.trans hissuer⟩

/-- After any calls of any robots on one file, the entries of each stored lease are its
trail, a lease that is not stored has none, the parties of a lease never change, and a call
that raises has changed nothing. -/
theorem lease_audit_trail (calls : List Call) :
    (forall leaseId row, (Store.replay calls).lease? leaseId = some row ->
      Trail calls leaseId row ((Store.replay calls).eventsOf leaseId)) ∧
    (forall leaseId, (Store.replay calls).lease? leaseId = none ->
      (Store.replay calls).eventsOf leaseId = []) ∧
    (forall before after leaseId row, calls = before ++ after ->
      (Store.replay before).lease? leaseId = some row ->
      exists row', (Store.replay calls).lease? leaseId = some row' ∧ SameParties row row') ∧
    forall before call after, calls = before ++ call :: after ->
      returns (method call.robotId call.operation (.idle (Store.replay before))) = false ->
      Store.replay (before ++ [call]) = Store.replay before := by
  have haudited := audited_replay calls
  refine ⟨?_, ?_, ?_, ?_⟩
  · intro leaseId row hrow
    have hrecorded := haudited leaseId
    rw [hrow] at hrecorded
    cases hrecorded with
    | present trail _ => exact trail
  · intro leaseId hnone
    have hrecorded := haudited leaseId
    rw [hnone] at hrecorded
    generalize (Store.replay calls).eventsOf leaseId = events at hrecorded ⊢
    cases hrecorded
    rfl
  · intro before after leaseId row hsplit hrow
    rw [hsplit]
    unfold Store.replay
    rw [List.foldl_append]
    exact foldl_sameParties after hrow
  · intro before call _ _ hraises
    have hsame := perform_of_not_returns hraises
    show (before ++ [call]).foldl Store.perform Store.empty = _
    rw [List.foldl_append]
    exact hsame

def patrolAuditCalls : List Call :=
  [⟨"r1", .grant patrolLease 0⟩, ⟨"r1", .grant { patrolLease with revision := 3 } 5⟩,
    ⟨"r1", .grant { patrolLease with revision := 2 } 6⟩, ⟨"r1", .revoke "l1" 2 20 "done"⟩]

theorem patrol_trail :
    ((Store.replay patrolAuditCalls).eventsOf "l1").map EventRow.revision = [1, 2, 3] ∧
      exists row, (Store.replay patrolAuditCalls).lease? "l1" = some row ∧
        Trail patrolAuditCalls "l1" row ((Store.replay patrolAuditCalls).eventsOf "l1") := by
  refine ⟨rfl, Store.ended 3 20 (Store.newRow { patrolLease with revision := 2 } 6), rfl, ?_⟩
  exact (lease_audit_trail patrolAuditCalls).1 "l1" _ rfl

end Ump.Authority
