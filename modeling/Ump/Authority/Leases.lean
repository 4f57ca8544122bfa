import Mathlib.Data.Rat.Defs
import Ump.Foundation.Table
import Ump.Foundation.Transaction
import Ump.Protocol.Models

/-!
# Authority leases

## Leases

A robot keeps the leases that it has granted and decides by them whether an authenticated
issuer may have a step executed. A lease carries one revision number for each change.
-/

namespace Ump.Authority

open Foundation

inductive LeaseStatus where
  | active
  | revoked
  | expired
deriving DecidableEq, Repr

def LeaseStatus.value : LeaseStatus -> String
  | .active => "active"
  | .revoked => "revoked"
  | .expired => "expired"

structure AuthorityLease where
  leaseId : String
  grantorRobotId : String
  issuerId : String
  capabilities : List String
  issuedAtMs : Int
  expiresAtMs : Int
  maximumClockUncertaintyMs : Int
  revision : Int
  status : LeaseStatus
deriving DecidableEq, Repr

def AuthorityLease.check (lease : AuthorityLease) : Except Exn Unit := do
  identifier lease.leaseId "lease_id"
  identifier lease.grantorRobotId "grantor_robot_id"
  identifier lease.issuerId "issuer_id"
  refuseWhen (lease.capabilities.isEmpty || decide (256 < lease.capabilities.length))
    "lease requires 1 to 256 capabilities"
  refuseWhen (hasRepeats lease.capabilities) "lease capabilities must be unique"
  checkAll (fun capability => identifier capability "lease capability") lease.capabilities
  refuseWhen (decide (lease.issuedAtMs < 0) || decide (lease.expiresAtMs ≤ lease.issuedAtMs))
    "lease time window is invalid"
  refuseWhen (!decide (0 ≤ lease.maximumClockUncertaintyMs ∧
    lease.maximumClockUncertaintyMs ≤ 60000))
    "lease clock uncertainty is outside the core profile"
  refuseWhen (decide (lease.revision < 1)) "lease revision must be positive"

/-- `AuthorizationError`, and the exceptions of the modules below. -/
inductive AuthorityExn where
  | authorization (text : String)
  | raised (e : Exn)
deriving DecidableEq, Repr

instance : Driver AuthorityExn where
  operational text := .raised (.runtime text)

def passOn : Except Exn value -> Except AuthorityExn value
  | .ok v => .ok v
  | .error e => .error (.raised e)

def forbidWhen (condition : Bool) (text : String) : Except AuthorityExn Unit :=
  if condition then .error (.authorization text) else .ok ()

theorem passOn_eq_ok {x : Except Exn value} {v : value} (h : passOn x = .ok v) :
    x = .ok v := by
  cases x with
  | error e => cases h
  | ok w =>
      cases h
      rfl

theorem forbidWhen_eq_ok {condition : Bool} {text : String}
    (h : forbidWhen condition text = .ok ()) : condition = false := by
  cases condition with
  | true => cases h
  | false => rfl

theorem ok_of_bind {x : Except AuthorityExn value} {f : value -> Except AuthorityExn result}
    {r : result} (h : (x >>= f) = .ok r) : exists v, x = .ok v ∧ f v = .ok r := by
  cases x with
  | error e => cases h
  | ok v => exact ⟨v, rfl, h⟩

/-!
## The store

The column of the capabilities holds the value that its JSON text encodes.
-/

structure LeaseRow where
  leaseId : String
  grantorRobotId : String
  issuerId : String
  capabilitiesJson : Json
  issuedAtMs : Int
  expiresAtMs : Int
  maximumClockUncertaintyMs : Int
  revision : Int
  status : LeaseStatus
  updatedAtMs : Int

instance : Keyed LeaseRow where
  clash a b := a.leaseId == b.leaseId
  clash_symm _ _ := BEq.comm

/-- One entry of the audit table, in the order of its `sequence`. -/
structure EventRow where
  leaseId : String
  eventType : String
  revision : Int
  occurredAtMs : Int
  detail : String

structure Store where
  leases : Table LeaseRow
  events : List EventRow

namespace Store

def empty : Store where
  leases := Table.empty
  events := []

def lease? (store : Store) (leaseId : String) : Option LeaseRow :=
  store.leases.fetch (fun row => row.leaseId == leaseId)

/-- `_append_event_locked`. -/
def appendEvent (store : Store) (event : EventRow) : Except AuthorityExn Store := do
  passOn (bindInteger event.revision)
  passOn (bindInteger event.occurredAtMs)
  .ok { store with events := store.events ++ [event] }

/-!
### Granting
-/

def newRow (lease : AuthorityLease) (nowMs : Int) : LeaseRow where
  leaseId := lease.leaseId
  grantorRobotId := lease.grantorRobotId
  issuerId := lease.issuerId
  capabilitiesJson := .strings lease.capabilities
  issuedAtMs := lease.issuedAtMs
  expiresAtMs := lease.expiresAtMs
  maximumClockUncertaintyMs := lease.maximumClockUncertaintyMs
  revision := lease.revision
  status := lease.status
  updatedAtMs := nowMs

/-- The columns that `ON CONFLICT(lease_id) DO UPDATE SET` takes from the new row. -/
def renewed (excluded row : LeaseRow) : LeaseRow :=
  { row with
    capabilitiesJson := excluded.capabilitiesJson
    issuedAtMs := excluded.issuedAtMs
    expiresAtMs := excluded.expiresAtMs
    maximumClockUncertaintyMs := excluded.maximumClockUncertaintyMs
    revision := excluded.revision
    status := excluded.status
    updatedAtMs := excluded.updatedAtMs }

theorem keepsKeys_renewed (excluded : LeaseRow) : Table.KeepsKeys (renewed excluded) :=
  fun _ _ => rfl

def upsert (store : Store) (row : LeaseRow) : Store :=
  match store.leases.insert? row with
  | some leases => { store with leases := leases }
  | none =>
      { store with
        leases := store.leases.update (fun old => old.leaseId == row.leaseId) (renewed row)
          (keepsKeys_renewed row) }

/-- The `INSERT` of `grant` with its bound integers. -/
def putLease (store : Store) (lease : AuthorityLease) (nowMs : Int) :
    Except AuthorityExn Store := do
  passOn (bindInteger lease.issuedAtMs)
  passOn (bindInteger lease.expiresAtMs)
  passOn (bindInteger lease.maximumClockUncertaintyMs)
  passOn (bindInteger lease.revision)
  passOn (bindInteger nowMs)
  .ok (store.upsert (newRow lease nowMs))

def checkRenewal (existing : Option LeaseRow) (lease : AuthorityLease) :
    Except AuthorityExn Unit :=
  match existing with
  | none => .ok ()
  | some row => do
      forbidWhen (row.grantorRobotId != lease.grantorRobotId || row.issuerId != lease.issuerId)
        "lease identity fields are immutable"
      forbidWhen (decide (row.status = .revoked))
        "revoked lease cannot be renewed; use a new lease ID"
      forbidWhen (decide (lease.revision ≠ row.revision + 1))
        "lease renewal revision must increase by one"

/-- The checks of `grant` before the transaction. -/
def checkGrant (robotId : String) (lease : AuthorityLease) : Except AuthorityExn Unit := do
  forbidWhen (lease.grantorRobotId != robotId) "lease grantor does not match local robot"
  passOn (refuseWhen (decide (lease.status ≠ .active)) "new or renewed lease must be active")

def grantEvent (lease : AuthorityLease) (nowMs : Int) : EventRow where
  leaseId := lease.leaseId
  eventType := "grant"
  revision := lease.revision
  occurredAtMs := nowMs
  detail := "lease active"

def grant (robotId : String) (store : Store) (lease : AuthorityLease) (nowMs : Int) :
    Except AuthorityExn Store := do
  checkGrant robotId lease
  checkRenewal (store.lease? lease.leaseId) lease
  let store <- store.putLease lease nowMs
  store.appendEvent (grantEvent lease nowMs)

/-!
### Revoking
-/

def checkReason (reason : String) : Except AuthorityExn Unit :=
  passOn (refuseWhen (reason.toList.all isSpace || decide (1024 < Text.byteSize reason.toList))
    "revocation reason is required and bounded")

def checkRevocation (row : Option LeaseRow) (leaseId : String) (expectedRevision : Int) :
    Except AuthorityExn Unit :=
  match row with
  | none => .error (.raised (.key leaseId))
  | some row => do
      forbidWhen (decide (row.revision ≠ expectedRevision))
        "lease revision changed before revocation"
      forbidWhen (decide (row.status ≠ .active)) "only an active lease can be revoked"

def ended (revision nowMs : Int) (row : LeaseRow) : LeaseRow :=
  { row with status := .revoked, revision := revision, updatedAtMs := nowMs }

theorem keepsKeys_ended (revision nowMs : Int) : Table.KeepsKeys (ended revision nowMs) :=
  fun _ _ => rfl

/-- The `UPDATE` of `revoke`. -/
def endLease (store : Store) (leaseId : String) (revision nowMs : Int) :
    Except AuthorityExn Store := do
  passOn (bindInteger revision)
  passOn (bindInteger nowMs)
  .ok
    { store with
      leases := store.leases.update (fun row => row.leaseId == leaseId) (ended revision nowMs)
        (keepsKeys_ended revision nowMs) }

def revokeEvent (leaseId : String) (revision nowMs : Int) (reason : String) : EventRow where
  leaseId := leaseId
  eventType := "revoke"
  revision := revision
  occurredAtMs := nowMs
  detail := reason

def revoke (store : Store) (leaseId : String) (expectedRevision nowMs : Int) (reason : String) :
    Except AuthorityExn Store := do
  checkReason reason
  checkRevocation (store.lease? leaseId) leaseId expectedRevision
  let store <- store.endLease leaseId (expectedRevision + 1) nowMs
  store.appendEvent (revokeEvent leaseId (expectedRevision + 1) nowMs reason)

/-!
### Authorizing
-/

def presented (ownRobotId robotId : String) (assignment : Assignment) :
    Except AuthorityExn String := do
  forbidWhen (robotId != ownRobotId) "authority store does not belong to target robot"
  match assignment.authorityLeaseId with
  | some leaseId => .ok leaseId
  | none => .error (.authorization "assignment does not present an authority lease")

/-- The lease that `authorize` builds from the columns. -/
def readLease (leaseId : String) (row : LeaseRow) : Except Exn AuthorityLease := do
  let capabilities <- row.capabilitiesJson.tuple >>= textItems
  let lease : AuthorityLease :=
    { leaseId := leaseId
      grantorRobotId := row.grantorRobotId
      issuerId := row.issuerId
      capabilities := capabilities
      issuedAtMs := row.issuedAtMs
      expiresAtMs := row.expiresAtMs
      maximumClockUncertaintyMs := row.maximumClockUncertaintyMs
      revision := row.revision
      status := row.status }
  lease.check
  .ok lease

/-- The checks of `authorize` on the lease. -/
def checkLease (lease : AuthorityLease) (issuerId capability : String) (nowMs : Int) :
    Except AuthorityExn Unit := do
  forbidWhen (decide (lease.status ≠ .active)) ("authority lease is " ++ lease.status.value)
  forbidWhen (lease.issuerId != issuerId) "authenticated issuer does not hold the lease"
  forbidWhen (!lease.capabilities.contains capability)
    "capability is outside the authority lease scope"
  forbidWhen (decide (nowMs - lease.maximumClockUncertaintyMs < lease.issuedAtMs))
    "authority lease is not yet valid"
  forbidWhen (decide (lease.expiresAtMs ≤ nowMs + lease.maximumClockUncertaintyMs))
    "authority lease is expired or inside uncertainty bound"

/-- What `authorize` does with the row that it has read. -/
def decideLease (row : Option LeaseRow) (leaseId issuerId capability : String) (nowMs : Int) :
    Except AuthorityExn AuthorityLease :=
  match row with
  | none => .error (.authorization "authority lease is unknown")
  | some row => do
      let lease <- passOn (readLease leaseId row)
      checkLease lease issuerId capability nowMs
      .ok lease

def authorize (ownRobotId : String) (store : Store) (issuerId robotId : String)
    (assignment : Assignment) (nowMs : Int) : Except AuthorityExn AuthorityLease := do
  let leaseId <- presented ownRobotId robotId assignment
  decideLease (store.lease? leaseId) leaseId issuerId assignment.step.capability nowMs

end Store

/-!
## The methods of the connection

Each method as its statements on one SQLite connection. A statement of a transaction may
raise, and the transaction is rolled back.
-/

abbrev Method := Sql AuthorityExn Store

namespace Connection

def grant (robotId : String) (lease : AuthorityLease) (nowMs : Int) : Method Unit := do
  Sql.compute (Store.checkGrant robotId lease)
  Sql.transaction (do
    let existing <- Sql.select (fun store => store.lease? lease.leaseId)
    Sql.compute (Store.checkRenewal existing lease)
    Sql.execute (fun store => (store.putLease lease nowMs).map (fun store => ((), store)))
    Sql.execute (fun store =>
      (store.appendEvent (Store.grantEvent lease nowMs)).map (fun store => ((), store)))
    Sql.commit
    pure ())

def revoke (leaseId : String) (expectedRevision nowMs : Int) (reason : String) :
    Method Unit := do
  Sql.compute (Store.checkReason reason)
  Sql.transaction (do
    let row <- Sql.select (fun store => store.lease? leaseId)
    Sql.compute (Store.checkRevocation row leaseId expectedRevision)
    Sql.execute (fun store =>
      (store.endLease leaseId (expectedRevision + 1) nowMs).map (fun store => ((), store)))
    Sql.execute (fun store => (store.appendEvent
      (Store.revokeEvent leaseId (expectedRevision + 1) nowMs reason)).map
        (fun store => ((), store)))
    Sql.commit
    pure ())

def authorize (ownRobotId issuerId robotId : String) (assignment : Assignment) (nowMs : Int) :
    Method AuthorityLease := do
  let leaseId <- Sql.compute (Store.presented ownRobotId robotId assignment)
  let row <- Sql.select (fun store => store.lease? leaseId)
  Sql.compute (Store.decideLease row leaseId issuerId assignment.step.capability nowMs)

end Connection

/-!
## The methods and the store
-/

def silent (result : Except AuthorityExn Store) : Except AuthorityExn (Unit × Store) :=
  result.map (fun store => ((), store))

theorem commits_both {first second : Store -> Except AuthorityExn Store} (w : Store) :
    Commits (do
      Sql.execute (fun store => (first store).map (fun store => ((), store)))
      Sql.execute (fun store => (second store).map (fun store => ((), store)))
      Sql.commit
      pure () : Method Unit) w (silent (first w >>= second)) := by
  have hfirst : Yields (Sql.execute (fun store : Store =>
      (first store).map (fun store => ((), store)))) w
        ((first w).map (fun store => ((), store))) := Yields.execute rfl
  cases hstore : first w with
  | error e =>
      rw [hstore] at hfirst
      exact Commits.bind_error hfirst
  | ok store =>
      rw [hstore] at hfirst
      apply Commits.bind hfirst
      have hsecond : Yields (Sql.execute (fun store : Store =>
          (second store).map (fun store => ((), store)))) store
            ((second store).map (fun store => ((), store))) := Yields.execute rfl
      show Commits _ store (silent (second store))
      unfold silent
      cases hlast : second store with
      | error e =>
          rw [hlast] at hsecond
          exact Commits.bind_error hsecond
      | ok last =>
          rw [hlast] at hsecond
          exact Commits.bind hsecond (Commits.commit () last)

theorem grant_refines (robotId : String) (lease : AuthorityLease) (nowMs : Int) (d : Store) :
    Refines (Connection.grant robotId lease nowMs) d (silent (d.grant robotId lease nowMs)) := by
  unfold Connection.grant Store.grant silent
  rw [map_bind]
  apply Refines.compute_bind
  intro _
  apply Commits.transaction
  apply Commits.bind (Yields.select _ d)
  rw [map_bind]
  apply Commits.compute
  intro _
  exact commits_both d

theorem revoke_refines (leaseId : String) (expectedRevision nowMs : Int) (reason : String)
    (d : Store) : Refines (Connection.revoke leaseId expectedRevision nowMs reason) d
      (silent (d.revoke leaseId expectedRevision nowMs reason)) := by
  unfold Connection.revoke Store.revoke silent
  rw [map_bind]
  apply Refines.compute_bind
  intro _
  apply Commits.transaction
  apply Commits.bind (Yields.select _ d)
  rw [map_bind]
  apply Commits.compute
  intro _
  exact commits_both d

theorem authorize_refines (ownRobotId issuerId robotId : String) (assignment : Assignment)
    (nowMs : Int) (d : Store) :
    Refines (Connection.authorize ownRobotId issuerId robotId assignment nowMs) d
      ((d.authorize ownRobotId issuerId robotId assignment nowMs).map
        (fun lease => (lease, d))) := by
  unfold Connection.authorize Store.authorize
  rw [map_bind]
  apply Refines.compute_bind
  intro leaseId
  apply Refines.select_bind
  exact Refines.compute _ d

end Ump.Authority
