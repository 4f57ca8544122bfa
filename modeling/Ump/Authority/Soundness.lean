import Mathlib.Algebra.Order.Ring.Rat
import Mathlib.Tactic.Linarith
import Ump.Authority.Leases

/-!
# Soundness of leases over a history

## Histories

A history is the session of a store together with the lease revisions that its calls have
stored: a grant that returns stores the lease, a revocation that returns stores the last
revision of its lease once more, as revoked.
-/

namespace Ump.Authority

open Foundation

inductive Operation where
  | grant (lease : AuthorityLease) (nowMs : Int)
  | revoke (leaseId : String) (expectedRevision nowMs : Int) (reason : String)
  | authorize (issuerId robotId : String) (assignment : Assignment) (nowMs : Int)
  | reopen

def method (robotId : String) : Operation -> Method Unit
  | .grant lease nowMs => Connection.grant robotId lease nowMs
  | .revoke leaseId expectedRevision nowMs reason =>
      Connection.revoke leaseId expectedRevision nowMs reason
  | .authorize issuerId target assignment nowMs => do
      let _ <- Connection.authorize robotId issuerId target assignment nowMs
      pure ()
  | .reopen => pure ()

def returns : EStateM.Result error state value -> Bool
  | .ok _ _ => true
  | .error _ _ => false

structure History where
  session : Session Store
  revisions : List AuthorityLease

def latest (revisions : List AuthorityLease) (leaseId : String) : Option AuthorityLease :=
  revisions.reverse.find? (fun lease => lease.leaseId == leaseId)

def stored (revisions : List AuthorityLease) : Operation -> List AuthorityLease
  | .grant lease _ => [lease]
  | .revoke leaseId expectedRevision _ _ =>
      (latest revisions leaseId).toList.map (fun lease =>
        { lease with status := .revoked, revision := expectedRevision + 1 })
  | _ => []

namespace History

def initial : History where
  session := .idle Store.empty
  revisions := []

/-- One call, whether it returns or raises. A restart opens a new connection. -/
def perform (robotId : String) (history : History) (operation : Operation) : History :=
  match operation with
  | .reopen => { history with session := .idle history.session.committed }
  | _ =>
      let result := method robotId operation history.session
      { session := sessionAfter result
        revisions := history.revisions ++
          if returns result then stored history.revisions operation else [] }

def replay (robotId : String) (operations : List Operation) : History :=
  operations.foldl (perform robotId) initial

end History

theorem replay_append (robotId : String) (before after : List Operation) :
    History.replay robotId (before ++ after) =
      after.foldl (History.perform robotId) (History.replay robotId before) :=
  List.foldl_append

theorem latest_concat (revisions : List AuthorityLease) (lease : AuthorityLease)
    (leaseId : String) : latest (revisions ++ [lease]) leaseId =
      if lease.leaseId = leaseId then some lease else latest revisions leaseId := by
  unfold latest
  rw [List.reverse_append, List.reverse_singleton, List.singleton_append, List.find?_cons]
  by_cases hid : lease.leaseId = leaseId
  · simp [hid]
  · have hne : (lease.leaseId == leaseId) = false := beq_eq_false_iff_ne.mpr hid
    simp [hne, hid]

theorem leaseId_of_latest {revisions : List AuthorityLease} {leaseId : String}
    {lease : AuthorityLease} (h : latest revisions leaseId = some lease) :
    lease.leaseId = leaseId := by
  have hid := List.find?_some h
  simpa using hid

/-!
## The rows and the revisions

The row of a lease holds the last revision that was stored.
-/

/-- The row of a lease holds its last stored revision. -/
inductive Holds : Option LeaseRow -> Option AuthorityLease -> Prop where
  | absent : Holds none none
  | present (lease : AuthorityLease) (updatedAtMs : Int) :
      Holds (some (Store.newRow lease updatedAtMs)) (some lease)

def Matches (store : Store) (revisions : List AuthorityLease) : Prop :=
  forall leaseId, Holds (store.lease? leaseId) (latest revisions leaseId)

theorem lease?_eq_some {store : Store} {leaseId : String} {row : LeaseRow}
    (h : store.lease? leaseId = some row) : row ∈ store.leases.rows ∧ row.leaseId = leaseId := by
  rcases Table.fetch_eq_some h with ⟨hrow, hid⟩
  exact ⟨hrow, by simpa using hid⟩

theorem lease?_eq_none {store : Store} {leaseId : String} :
    store.lease? leaseId = none <->
      forall row, row ∈ store.leases.rows -> row.leaseId ≠ leaseId := by
  unfold Store.lease?
  rw [Table.fetch_eq_none]
  simp

theorem lease?_update {store : Store} {leases : Table LeaseRow} {leaseId : String}
    {f : LeaseRow -> LeaseRow} {hf : Table.KeepsKeys f}
    (hleases : leases = store.leases.update (fun row => row.leaseId == leaseId) f hf)
    (hid : forall row, (f row).leaseId = row.leaseId) (events : List EventRow)
    (other : String) :
    Store.lease? { leases := leases, events := events } other =
      if other = leaseId then (store.lease? leaseId).map f else store.lease? other := by
  subst hleases
  unfold Store.lease?
  dsimp only
  rw [Table.fetch_update (fun row => by rw [hid])]
  split_ifs with hother
  · rw [hother]
    cases hrow : store.leases.fetch (fun row => row.leaseId == leaseId) with
    | none => rfl
    | some row =>
        rw [Option.map_some, Option.map_some, if_pos (Table.fetch_eq_some hrow).2]
  · cases hrow : store.leases.fetch (fun row => row.leaseId == other) with
    | none => rfl
    | some row =>
        have hrowId : row.leaseId = other := by simpa using (Table.fetch_eq_some hrow).2
        have hne : ¬ (row.leaseId == leaseId) = true := by
          rw [hrowId]
          simpa using hother
        rw [Option.map_some, if_neg hne]

theorem lease?_upsert (store : Store) (row : LeaseRow) (events : List EventRow)
    (other : String) :
    Store.lease? { leases := (store.upsert row).leases, events := events } other =
      if other = row.leaseId then
        some (((store.lease? row.leaseId).map (Store.renewed row)).getD row)
      else
        store.lease? other := by
  unfold Store.upsert
  cases hinsert : store.leases.insert? row with
  | some leases =>
      rcases Table.insert?_eq_some hinsert with ⟨_, hclash⟩
      have hnone : store.lease? row.leaseId = none := by
        rw [lease?_eq_none]
        intro old hold
        simpa [Keyed.clash] using hclash old hold
      rw [hnone]
      unfold Store.lease? at hnone ⊢
      dsimp only
      rw [Table.fetch_insert hinsert]
      by_cases hother : other = row.leaseId
      · rw [hother, hnone]
        simp
      · have hne : (row.leaseId == other) = false :=
          beq_eq_false_iff_ne.mpr (Ne.symm hother)
        simp [hne, hother]
  | none =>
      dsimp only
      rw [@lease?_update store _ row.leaseId (Store.renewed row) _ rfl (fun _ => rfl)]
      split_ifs with hother
      · cases hrow : store.lease? row.leaseId with
        | some old => rfl
        | none =>
            exfalso
            rw [lease?_eq_none] at hrow
            rcases Table.insert?_of_no_clash (t := store.leases) (r := row) (by
              intro old hold
              simpa [Keyed.clash] using hrow old hold) with ⟨leases, hsome⟩
            rw [hinsert] at hsome
            cases hsome
      · rfl

/-!
## What the calls do to the rows
-/

theorem appendEvent_eq_ok {store store' : Store} {event : EventRow}
    (h : store.appendEvent event = .ok store') : store'.leases = store.leases := by
  rcases ok_of_bind h with ⟨_, _, h⟩
  rcases ok_of_bind h with ⟨_, _, h⟩
  cases h
  rfl

theorem putLease_eq_ok {store store' : Store} {lease : AuthorityLease} {nowMs : Int}
    (h : store.putLease lease nowMs = .ok store') :
    store' = store.upsert (Store.newRow lease nowMs) := by
  rcases ok_of_bind h with ⟨_, _, h⟩
  rcases ok_of_bind h with ⟨_, _, h⟩
  rcases ok_of_bind h with ⟨_, _, h⟩
  rcases ok_of_bind h with ⟨_, _, h⟩
  rcases ok_of_bind h with ⟨_, _, h⟩
  exact (Except.ok.inj h).symm

theorem endLease_eq_ok {store store' : Store} {leaseId : String} {revision nowMs : Int}
    (h : store.endLease leaseId revision nowMs = .ok store') :
    store'.leases = store.leases.update (fun row => row.leaseId == leaseId)
      (Store.ended revision nowMs) (Store.keepsKeys_ended revision nowMs) := by
  rcases ok_of_bind h with ⟨_, _, h⟩
  rcases ok_of_bind h with ⟨_, _, h⟩
  cases h
  rfl

theorem renewed_eq {row : LeaseRow} {lease : AuthorityLease} {nowMs : Int}
    (h : Store.checkRenewal (some row) lease = .ok ()) (hid : row.leaseId = lease.leaseId) :
    Store.renewed (Store.newRow lease nowMs) row = Store.newRow lease nowMs := by
  rcases ok_of_bind h with ⟨_, hidentity, _⟩
  have hsame : row.grantorRobotId = lease.grantorRobotId ∧ row.issuerId = lease.issuerId := by
    simpa using forbidWhen_eq_ok hidentity
  unfold Store.renewed Store.newRow
  rw [hsame.1, hsame.2, hid]

theorem not_revoked_of_checkRenewal {row : LeaseRow} {lease : AuthorityLease}
    (h : Store.checkRenewal (some row) lease = .ok ()) : row.status ≠ .revoked := by
  rcases ok_of_bind h with ⟨_, _, h⟩
  rcases ok_of_bind h with ⟨_, hstatus, _⟩
  exact of_decide_eq_false (forbidWhen_eq_ok hstatus)

theorem active_of_checkRevocation {row : LeaseRow} {leaseId : String} {expectedRevision : Int}
    (h : Store.checkRevocation (some row) leaseId expectedRevision = .ok ()) :
    row.status = .active := by
  rcases ok_of_bind h with ⟨_, _, hstatus⟩
  simpa using forbidWhen_eq_ok hstatus

theorem grant_eq_ok {robotId : String} {store store' : Store} {lease : AuthorityLease}
    {nowMs : Int} {revisions : List AuthorityLease} (hmatches : Matches store revisions)
    (h : store.grant robotId lease nowMs = .ok store') :
    Matches store' (revisions ++ [lease]) ∧
      forall old, latest revisions lease.leaseId = some old -> old.status ≠ .revoked := by
  rcases ok_of_bind h with ⟨_, _, h⟩
  rcases ok_of_bind h with ⟨_, hrenewal, h⟩
  rcases ok_of_bind h with ⟨put, hput, hevent⟩
  have hleases := appendEvent_eq_ok hevent
  rw [putLease_eq_ok hput] at hleases
  have hown := hmatches lease.leaseId
  have hrow : forall other, store'.lease? other = if other = lease.leaseId then
      some (((store.lease? lease.leaseId).map
        (Store.renewed (Store.newRow lease nowMs))).getD (Store.newRow lease nowMs))
      else store.lease? other := by
    intro other
    have hupsert := lease?_upsert store (Store.newRow lease nowMs) store'.events other
    unfold Store.lease? at hupsert ⊢
    rw [hleases]
    exact hupsert
  generalize hexisting : store.lease? lease.leaseId = existing at hrenewal hown hrow
  generalize hlatest : latest revisions lease.leaseId = last at hown
  cases hown with
  | absent =>
      refine ⟨?_, fun old hold => by cases hold⟩
      intro other
      rw [hrow, latest_concat]
      by_cases hother : other = lease.leaseId
      · rw [if_pos hother, if_pos hother.symm]
        exact Holds.present lease nowMs
      · rw [if_neg hother, if_neg (Ne.symm hother)]
        exact hmatches other
  | present old updatedAtMs =>
      constructor
      · intro other
        rw [hrow, latest_concat]
        by_cases hother : other = lease.leaseId
        · rw [if_pos hother, if_pos hother.symm, Option.map_some, Option.getD_some,
            renewed_eq hrenewal (leaseId_of_latest hlatest)]
          exact Holds.present lease nowMs
        · rw [if_neg hother, if_neg (Ne.symm hother)]
          exact hmatches other
      · intro other hother
        cases hother
        exact not_revoked_of_checkRenewal hrenewal

theorem revoke_eq_ok {store store' : Store} {leaseId : String} {expectedRevision nowMs : Int}
    {reason : String} {revisions : List AuthorityLease} (hmatches : Matches store revisions)
    (h : store.revoke leaseId expectedRevision nowMs reason = .ok store') :
    exists old, latest revisions leaseId = some old ∧ old.status = .active ∧
      Matches store' (revisions ++
        [{ old with status := .revoked, revision := expectedRevision + 1 }]) := by
  rcases ok_of_bind h with ⟨_, _, h⟩
  rcases ok_of_bind h with ⟨_, hchecked, h⟩
  rcases ok_of_bind h with ⟨put, hput, hevent⟩
  have hleases := (appendEvent_eq_ok hevent).trans (endLease_eq_ok hput)
  have hown := hmatches leaseId
  have hrow : forall other, store'.lease? other = if other = leaseId then
      (store.lease? leaseId).map (Store.ended (expectedRevision + 1) nowMs)
      else store.lease? other :=
    fun other => lease?_update hleases (fun _ => rfl) store'.events other
  generalize hexisting : store.lease? leaseId = existing at hchecked hown hrow
  generalize hlatest : latest revisions leaseId = last at hown
  cases hown with
  | absent => cases hchecked
  | present old updatedAtMs =>
      refine ⟨old, rfl, active_of_checkRevocation hchecked, ?_⟩
      intro other
      rw [hrow, latest_concat]
      have hid := leaseId_of_latest hlatest
      by_cases hother : other = leaseId
      · rw [if_pos hother, if_pos (hid.trans hother.symm)]
        exact Holds.present
          { old with status := .revoked, revision := expectedRevision + 1 } nowMs
      · rw [if_neg hother, if_neg (fun h => hother (h.symm.trans hid))]
        exact hmatches other

/-- What a lease allows: it is active, the issuer holds it, the capability is in its scope,
and every time that the clock may stand for is inside its window. -/
structure Allows (lease : AuthorityLease) (issuerId capability : String) (nowMs : Int) :
    Prop where
  active : lease.status = .active
  issuer : lease.issuerId = issuerId
  scope : capability ∈ lease.capabilities
  window : forall t : Rat, (nowMs - lease.maximumClockUncertaintyMs : Int) ≤ t ->
    t ≤ (nowMs + lease.maximumClockUncertaintyMs : Int) ->
    (lease.issuedAtMs : Rat) ≤ t ∧ t < (lease.expiresAtMs : Rat)

theorem allows_of_checkLease {lease : AuthorityLease} {issuerId capability : String}
    {nowMs : Int} (h : Store.checkLease lease issuerId capability nowMs = .ok ()) :
    Allows lease issuerId capability nowMs := by
  rcases ok_of_bind h with ⟨_, hstatus, h⟩
  rcases ok_of_bind h with ⟨_, hissuer, h⟩
  rcases ok_of_bind h with ⟨_, hscope, h⟩
  rcases ok_of_bind h with ⟨_, hissued, hexpires⟩
  constructor
  · simpa using forbidWhen_eq_ok hstatus
  · simpa using forbidWhen_eq_ok hissuer
  · simpa using forbidWhen_eq_ok hscope
  · intro t hfirst hlast
    have hissued := not_lt.mp (of_decide_eq_false (forbidWhen_eq_ok hissued))
    have hexpires := not_le.mp (of_decide_eq_false (forbidWhen_eq_ok hexpires))
    constructor
    · exact le_trans (by exact_mod_cast hissued) hfirst
    · exact lt_of_le_of_lt hlast (by exact_mod_cast hexpires)

theorem authorize_eq_ok {ownRobotId issuerId robotId : String} {store : Store}
    {assignment : Assignment} {nowMs : Int} {lease : AuthorityLease}
    {revisions : List AuthorityLease} (hmatches : Matches store revisions)
    (h : store.authorize ownRobotId issuerId robotId assignment nowMs = .ok lease) :
    exists leaseId, assignment.authorityLeaseId = some leaseId ∧
      latest revisions leaseId = some lease ∧
      Allows lease issuerId assignment.step.capability nowMs := by
  rcases ok_of_bind h with ⟨leaseId, hpresented, h⟩
  rcases ok_of_bind hpresented with ⟨_, _, hpresented⟩
  have hown := hmatches leaseId
  generalize store.lease? leaseId = existing at h hown
  generalize hlatest : latest revisions leaseId = last at hown
  refine ⟨leaseId, ?_, ?_⟩
  · cases hid : assignment.authorityLeaseId with
    | none =>
        rw [hid] at hpresented
        cases hpresented
    | some presented =>
        rw [hid] at hpresented
        rw [Except.ok.inj hpresented]
  · cases hown with
    | absent => cases h
    | present old updatedAtMs =>
        rcases ok_of_bind h with ⟨read, hread, h⟩
        rcases ok_of_bind h with ⟨_, hchecked, h⟩
        cases h
        rcases bind_eq_ok.mp (passOn_eq_ok hread) with ⟨capabilities, hcapabilities, hread⟩
        rcases bind_eq_ok.mp hread with ⟨_, _, hread⟩
        have hsame : capabilities = old.capabilities :=
          (Except.ok.inj ((textItems_map_str old.capabilities).symm.trans hcapabilities)).symm
        have hlease : lease = old := by
          rw [← Except.ok.inj hread, hsame, ← leaseId_of_latest hlatest]
          rfl
        rw [hlease] at hchecked ⊢
        exact ⟨hlatest, allows_of_checkLease hchecked⟩

/-!
## Whole histories
-/

def Kept (history : History) : Prop :=
  exists store, history.session = .idle store ∧ Matches store history.revisions

/-- The history after a call on the rows of `store` that has the result `r`. -/
def followed (history : History) (operation : Operation) (store : Store) :
    Except AuthorityExn (Unit × Store) -> History
  | .ok r =>
      { session := .idle r.2
        revisions := history.revisions ++ stored history.revisions operation }
  | .error _ => { session := .idle store, revisions := history.revisions }

theorem stored_revoke {revisions : List AuthorityLease} {leaseId : String}
    {lease : AuthorityLease} (h : latest revisions leaseId = some lease)
    (expectedRevision nowMs : Int) (reason : String) :
    stored revisions (.revoke leaseId expectedRevision nowMs reason) =
      [{ lease with status := .revoked, revision := expectedRevision + 1 }] := by
  show (latest revisions leaseId).toList.map _ = _
  rw [h]
  rfl

theorem perform_of_refines {robotId : String} {history : History} {operation : Operation}
    {store : Store} {r : Except AuthorityExn (Unit × Store)}
    (hidle : history.session = .idle store) (h : Refines (method robotId operation) store r) :
    History.perform robotId history operation = followed history operation store r := by
  cases r with
  | ok r =>
      have hresult : method robotId operation (.idle store) = .ok r.1 (.idle r.2) := h
      cases operation with
      | reopen =>
          have hsame : store = r.2 := by
            have hpure : (EStateM.Result.ok () (Session.idle store) :
                EStateM.Result AuthorityExn (Session Store) Unit) =
                .ok r.1 (Session.idle r.2) := hresult
            injection hpure with _ hsession
            injection hsession
          unfold History.perform
          dsimp only
          rw [hidle]
          show History.mk (.idle store) history.revisions =
            History.mk (.idle r.2) (history.revisions ++ [])
          rw [List.append_nil, hsame]
      | _ =>
          unfold History.perform
          dsimp only
          rw [hidle, hresult]
          rfl
  | error e =>
      have hresult : method robotId operation (.idle store) = .error e (.idle store) := h
      cases operation with
      | reopen => cases hresult
      | _ =>
          unfold History.perform
          dsimp only
          rw [hidle, hresult]
          show History.mk (.idle store) (history.revisions ++ []) =
            History.mk (.idle store) history.revisions
          rw [List.append_nil]

/-- What one call does to the stored revisions: the rows hold them again, and a revoked
lease has no later revision. -/
structure Performed (before after : History) : Prop where
  kept : Kept after
  revoked : forall leaseId old, latest before.revisions leaseId = some old ->
    old.status = .revoked -> latest after.revisions leaseId = some old

theorem performed_same {history : History} {store : Store}
    (hmatches : Matches store history.revisions) {after : History}
    (hafter : after = { session := .idle store, revisions := history.revisions }) :
    Performed history after := by
  subst hafter
  exact ⟨⟨store, rfl, hmatches⟩, fun _ _ hold _ => hold⟩

theorem performed_new {history : History} {store : Store} {lease : AuthorityLease}
    (hmatches : Matches store (history.revisions ++ [lease]))
    (hnot : forall old, latest history.revisions lease.leaseId = some old ->
      old.status ≠ .revoked) {after : History}
    (hafter : after =
      { session := .idle store, revisions := history.revisions ++ [lease] }) :
    Performed history after := by
  subst hafter
  refine ⟨⟨store, rfl, hmatches⟩, ?_⟩
  intro leaseId old hold hrevoked
  dsimp only
  rw [latest_concat]
  by_cases hid : lease.leaseId = leaseId
  · exact absurd hrevoked (hnot old (hid ▸ hold))
  · rw [if_neg hid]
    exact hold

theorem perform_performed (robotId : String) {history : History} (h : Kept history)
    (operation : Operation) :
    Performed history (History.perform robotId history operation) := by
  rcases h with ⟨store, hidle, hmatches⟩
  cases operation with
  | grant lease nowMs =>
      have hperform : History.perform robotId history (.grant lease nowMs) = _ :=
        perform_of_refines hidle (grant_refines robotId lease nowMs store)
      cases hgrant : store.grant robotId lease nowMs with
      | error e =>
          rw [hgrant] at hperform
          exact performed_same hmatches hperform
      | ok store' =>
          rw [hgrant] at hperform
          rcases grant_eq_ok hmatches hgrant with ⟨hmatches', hnot⟩
          exact performed_new hmatches' hnot hperform
  | revoke leaseId expectedRevision nowMs reason =>
      have hperform : History.perform robotId history
          (.revoke leaseId expectedRevision nowMs reason) = _ :=
        perform_of_refines hidle (revoke_refines leaseId expectedRevision nowMs reason store)
      cases hrevoke : store.revoke leaseId expectedRevision nowMs reason with
      | error e =>
          rw [hrevoke] at hperform
          exact performed_same hmatches hperform
      | ok store' =>
          rcases revoke_eq_ok hmatches hrevoke with ⟨old, hold, hactive, hmatches'⟩
          rw [hrevoke, silent, Except.map, followed, stored_revoke hold] at hperform
          refine performed_new hmatches' ?_ hperform
          intro other hother hrevoked
          have hid : old.leaseId = leaseId := leaseId_of_latest hold
          rw [show latest history.revisions old.leaseId = some old by rw [hid, hold]] at hother
          cases hother
          rw [hactive] at hrevoked
          cases hrevoked
  | authorize issuerId target assignment nowMs =>
      have hperform : History.perform robotId history
          (.authorize issuerId target assignment nowMs) = _ :=
        perform_of_refines hidle ((authorize_refines robotId issuerId target assignment nowMs
          store).bind_pure (fun _ => ()))
      cases hauthorize : store.authorize robotId issuerId target assignment nowMs with
      | error e =>
          rw [hauthorize] at hperform
          exact performed_same hmatches hperform
      | ok lease =>
          rw [hauthorize] at hperform
          refine performed_same hmatches (hperform.trans ?_)
          show History.mk _ (history.revisions ++ []) = _
          rw [List.append_nil]
  | reopen =>
      have hsame : Refines (method robotId .reopen) store (.ok ((), store)) := rfl
      have hperform : History.perform robotId history .reopen = _ :=
        perform_of_refines hidle hsame
      refine performed_same hmatches (hperform.trans ?_)
      show History.mk _ (history.revisions ++ []) = _
      rw [List.append_nil]

theorem performed_foldl (robotId : String) (operations : List Operation) {history : History}
    (h : Kept history) :
    Performed history (operations.foldl (History.perform robotId) history) := by
  induction operations generalizing history with
  | nil => exact ⟨h, fun _ _ hold _ => hold⟩
  | cons operation rest ih =>
      have hfirst := perform_performed robotId h operation
      have hrest := ih hfirst.kept
      refine ⟨hrest.kept, ?_⟩
      intro leaseId old hold hrevoked
      exact hrest.revoked leaseId old (hfirst.revoked leaseId old hold hrevoked) hrevoked

theorem kept_initial : Kept .initial :=
  ⟨Store.empty, rfl, fun _ => Holds.absent⟩

theorem kept_replay (robotId : String) (operations : List Operation) :
    Kept (History.replay robotId operations) :=
  (performed_foldl robotId operations kept_initial).kept

theorem authorize_of_kept {history : History} (h : Kept history)
    {ownRobotId issuerId robotId : String} {assignment : Assignment} {nowMs : Int}
    {lease : AuthorityLease} {s : Session Store}
    (hauthorize : Connection.authorize ownRobotId issuerId robotId assignment nowMs
      history.session = .ok lease s) :
    exists leaseId, assignment.authorityLeaseId = some leaseId ∧
      latest history.revisions leaseId = some lease ∧
      Allows lease issuerId assignment.step.capability nowMs := by
  rcases h with ⟨store, hidle, hmatches⟩
  rw [hidle] at hauthorize
  have hrefines := authorize_refines ownRobotId issuerId robotId assignment nowMs store
  cases hpure : store.authorize ownRobotId issuerId robotId assignment nowMs with
  | error e =>
      rw [hpure] at hrefines
      rw [show Connection.authorize ownRobotId issuerId robotId assignment nowMs (.idle store) =
        .error e (.idle store) from hrefines] at hauthorize
      cases hauthorize
  | ok found =>
      rw [hpure] at hrefines
      rw [show Connection.authorize ownRobotId issuerId robotId assignment nowMs (.idle store) =
        .ok found (.idle store) from hrefines] at hauthorize
      cases hauthorize
      exact authorize_eq_ok hmatches hpure

theorem revoked_of_returns (robotId : String) {history : History} (h : Kept history)
    {leaseId : String} {expectedRevision nowMs : Int} {reason : String}
    (hreturns : returns (Connection.revoke leaseId expectedRevision nowMs reason
      history.session) = true) :
    exists old, old.status = .revoked ∧
      latest (History.perform robotId history
        (.revoke leaseId expectedRevision nowMs reason)).revisions leaseId = some old := by
  rcases h with ⟨store, hidle, hmatches⟩
  have hrefines := revoke_refines leaseId expectedRevision nowMs reason store
  have hperform : History.perform robotId history
      (.revoke leaseId expectedRevision nowMs reason) = _ := perform_of_refines hidle hrefines
  rw [hidle] at hreturns
  cases hrevoke : store.revoke leaseId expectedRevision nowMs reason with
  | error e =>
      rw [hrevoke] at hrefines
      rw [show Connection.revoke leaseId expectedRevision nowMs reason (.idle store) =
        .error e (.idle store) from hrefines] at hreturns
      cases hreturns
  | ok store' =>
      rcases revoke_eq_ok hmatches hrevoke with ⟨old, hold, _, _⟩
      rw [hrevoke, silent, Except.map, followed, stored_revoke hold] at hperform
      refine ⟨{ old with status := .revoked, revision := expectedRevision + 1 }, rfl, ?_⟩
      rw [hperform, latest_concat, if_pos (leaseId_of_latest hold)]

/-- In every history of calls, an assignment is authorized only by the last stored revision
of its lease, which allows it; and once a lease has been revoked, no later calls make an
assignment under it pass again. -/
theorem lease_sound (robotId : String) (operations : List Operation) :
    (forall issuerId target assignment nowMs lease s,
      Connection.authorize robotId issuerId target assignment nowMs
        (History.replay robotId operations).session = .ok lease s ->
      exists leaseId, assignment.authorityLeaseId = some leaseId ∧
        latest (History.replay robotId operations).revisions leaseId = some lease ∧
        Allows lease issuerId assignment.step.capability nowMs) ∧
    forall leaseId expectedRevision revokedAtMs reason later,
      returns (Connection.revoke leaseId expectedRevision revokedAtMs reason
        (History.replay robotId operations).session) = true ->
      forall issuerId target assignment nowMs, assignment.authorityLeaseId = some leaseId ->
        returns (Connection.authorize robotId issuerId target assignment nowMs
          (History.replay robotId (operations ++
            .revoke leaseId expectedRevision revokedAtMs reason :: later)).session) = false := by
  have hkept := kept_replay robotId operations
  constructor
  · intro issuerId target assignment nowMs lease s hauthorize
    exact authorize_of_kept hkept hauthorize
  · intro leaseId expectedRevision revokedAtMs reason later hreturns issuerId target
      assignment nowMs hlease
    rcases revoked_of_returns robotId hkept hreturns with ⟨old, hrevoked, hlatest⟩
    have hperformed := perform_performed robotId hkept
      (.revoke leaseId expectedRevision revokedAtMs reason)
    have hlater := performed_foldl robotId later hperformed.kept
    have hstays := hlater.revoked leaseId old hlatest hrevoked
    rw [replay_append, List.foldl_cons]
    cases hauthorize : Connection.authorize robotId issuerId target assignment nowMs
        (later.foldl (History.perform robotId) (History.perform robotId
          (History.replay robotId operations)
          (.revoke leaseId expectedRevision revokedAtMs reason))).session with
    | error e s => rfl
    | ok lease s =>
        exfalso
        rcases authorize_of_kept hlater.kept hauthorize with ⟨found, hfound, hlast, hallows⟩
        rw [hlease] at hfound
        cases hfound
        rw [hstays] at hlast
        cases hlast
        have hactive := hallows.active
        rw [hrevoked] at hactive
        cases hactive

/-!
## A small history
-/

def patrolLease : AuthorityLease where
  leaseId := "l1"
  grantorRobotId := "r1"
  issuerId := "c"
  capabilities := ["walk/v1"]
  issuedAtMs := 10
  expiresAtMs := 100
  maximumClockUncertaintyMs := 5
  revision := 1
  status := .active

def patrolLeased : Assignment :=
  { patrolAssignment "a1" "p1" (patrolStep "s1" "r1" []) with authorityLeaseId := some "l1" }

def patrolPasses (operations : List Operation) (nowMs : Int) : Bool :=
  returns (Connection.authorize "r1" "c" "r1" patrolLeased nowMs
    (History.replay "r1" operations).session)

example : patrolPasses [.grant patrolLease 0] 15 = true ∧
    patrolPasses [.grant patrolLease 0] 14 = false ∧
    patrolPasses [.grant patrolLease 0, .revoke "l1" 1 20 "done",
      .grant { patrolLease with revision := 3 } 21] 22 = false := by
  decide

end Ump.Authority
