import Ump.Authority.Soundness

/-!
# One file for several robots

## The shared file

The stores of several robots may be opened on one database file. Each call runs on its own
connection, and the file is what the calls have committed.
-/

namespace Ump.Authority

open Foundation

structure Call where
  robotId : String
  operation : Operation

namespace Store

def grantedBy (file : Store) (robotId : String) : Store :=
  { file with leases := file.leases.delete (fun row => row.grantorRobotId != robotId) }

/-- The file after a call, whether it returns or raises. -/
def perform (file : Store) (call : Call) : Store :=
  (sessionAfter (method call.robotId call.operation (.idle file))).committed

def replay (calls : List Call) : Store :=
  calls.foldl perform empty

end Store

/-- A call that returns works with leases of its own robot only, the leases of the others
stay as they are, and what it authorizes it authorizes without them as well. -/
structure PerRobot (file : Store) (call : Call) : Prop where
  grants : forall lease nowMs, call.operation = .grant lease nowMs ->
    returns (method call.robotId call.operation (.idle file)) = true ->
    lease.grantorRobotId = call.robotId ∧
      forall row, file.lease? lease.leaseId = some row -> row.grantorRobotId = call.robotId
  revokes : forall leaseId expectedRevision nowMs reason row,
    call.operation = .revoke leaseId expectedRevision nowMs reason ->
    returns (method call.robotId call.operation (.idle file)) = true ->
    file.lease? leaseId = some row -> row.grantorRobotId = call.robotId
  authorizes : forall issuerId target assignment nowMs lease s,
    call.operation = .authorize issuerId target assignment nowMs ->
    Connection.authorize call.robotId issuerId target assignment nowMs (.idle file) =
      .ok lease s ->
    lease.grantorRobotId = call.robotId ∧
      Connection.authorize call.robotId issuerId target assignment nowMs
        (.idle (file.grantedBy call.robotId)) = .ok lease (.idle (file.grantedBy call.robotId))
  leavesOthers : forall other, other ≠ call.robotId ->
    ((file.perform call).grantedBy other).leases = (file.grantedBy other).leases

/-- A lease that a revocation or an authorization names, if it is stored, was granted by the
robot whose store is called. -/
def NamesOwn (file : Store) (call : Call) : Prop :=
  match call.operation with
  | .revoke leaseId _ _ _ =>
      forall row, file.lease? leaseId = some row -> row.grantorRobotId = call.robotId
  | .authorize _ _ assignment _ =>
      forall leaseId row, assignment.authorityLeaseId = some leaseId ->
        file.lease? leaseId = some row -> row.grantorRobotId = call.robotId
  | _ => True

/-!
## The leases of one grantor
-/

theorem mem_grantedBy {file : Store} {robotId : String} {row : LeaseRow} :
    row ∈ (file.grantedBy robotId).leases.rows <->
      row ∈ file.leases.rows ∧ row.grantorRobotId = robotId := by
  unfold Store.grantedBy
  dsimp only
  rw [Table.mem_delete_iff, bne_eq_false_iff_eq]

theorem lease?_of_mem {file : Store} {row : LeaseRow} {leaseId : String}
    (hrow : row ∈ file.leases.rows) (hid : row.leaseId = leaseId) :
    file.lease? leaseId = some row := by
  apply Table.fetch_of_mem hrow
  · exact beq_iff_eq.mpr hid
  · intro other _ hother
    show (row.leaseId == other.leaseId) = true
    rw [hid, beq_iff_eq.mp hother, beq_self_eq_true]

theorem lease?_grantedBy {file : Store} {robotId leaseId : String} {row : LeaseRow}
    (h : file.lease? leaseId = some row) (hown : row.grantorRobotId = robotId) :
    (file.grantedBy robotId).lease? leaseId = some row := by
  rcases lease?_eq_some h with ⟨hrow, hid⟩
  exact lease?_of_mem (mem_grantedBy.mpr ⟨hrow, hown⟩) hid

theorem grantedBy_leases_congr {file file' : Store} {robotId : String}
    (h : file'.leases.rows.filter (fun row => !(row.grantorRobotId != robotId)) =
      file.leases.rows.filter (fun row => !(row.grantorRobotId != robotId))) :
    (file'.grantedBy robotId).leases = (file.grantedBy robotId).leases :=
  Table.eq_of_rows h

theorem filter_map_other {rows : List LeaseRow} {change : LeaseRow -> LeaseRow}
    {robotId other : String} (hother : other ≠ robotId)
    (h : forall row, row ∈ rows -> change row = row ∨
      row.grantorRobotId = robotId ∧ (change row).grantorRobotId = robotId) :
    (rows.map change).filter (fun row => !(row.grantorRobotId != other)) =
      rows.filter (fun row => !(row.grantorRobotId != other)) := by
  induction rows with
  | nil => rfl
  | cons row rest ih =>
      have hrest := ih (fun old hold => h old (List.mem_cons_of_mem row hold))
      rw [List.map_cons, List.filter_cons, List.filter_cons, hrest]
      rcases h row List.mem_cons_self with hsame | ⟨hbefore, hafter⟩
      · rw [hsame]
      · have hne : (robotId != other) = true := bne_iff_ne.mpr (Ne.symm hother)
        rw [hbefore, hafter, hne]
        rfl

/-!
## What one call does
-/

theorem returns_of_refines {method : Method value} {file : Store}
    {r : Except AuthorityExn (value × Store)} (h : Refines method file r)
    (hreturns : returns (method (.idle file)) = true) : exists v, r = .ok v := by
  cases r with
  | ok v => exact ⟨v, rfl⟩
  | error e =>
      rw [show method (.idle file) = .error e (.idle file) from h] at hreturns
      cases hreturns

theorem perform_of_result {file : Store} {call : Call} {r : Except AuthorityExn (Unit × Store)}
    (h : Refines (method call.robotId call.operation) file r) :
    file.perform call = (r.map Prod.snd).toOption.getD file := by
  unfold Store.perform
  cases r with
  | ok v =>
      rw [show method call.robotId call.operation (.idle file) = .ok v.1 (.idle v.2) from h]
      rfl
  | error e =>
      rw [show method call.robotId call.operation (.idle file) = .error e (.idle file) from h]
      rfl

theorem checkGrant_eq_ok {robotId : String} {lease : AuthorityLease}
    (h : Store.checkGrant robotId lease = .ok ()) : lease.grantorRobotId = robotId := by
  rcases ok_of_bind h with ⟨_, hgrantor, _⟩
  simpa using forbidWhen_eq_ok hgrantor

theorem grantor_of_checkRenewal {row : LeaseRow} {lease : AuthorityLease}
    (h : Store.checkRenewal (some row) lease = .ok ()) :
    row.grantorRobotId = lease.grantorRobotId := by
  rcases ok_of_bind h with ⟨_, hidentity, _⟩
  have hsame : row.grantorRobotId = lease.grantorRobotId ∧ row.issuerId = lease.issuerId := by
    simpa using forbidWhen_eq_ok hidentity
  exact hsame.1

theorem grant_own {robotId : String} {file file' : Store} {lease : AuthorityLease}
    {nowMs : Int} (h : file.grant robotId lease nowMs = .ok file') :
    lease.grantorRobotId = robotId ∧
      (forall row, file.lease? lease.leaseId = some row -> row.grantorRobotId = robotId) ∧
      forall other, other ≠ robotId ->
        (file'.grantedBy other).leases = (file.grantedBy other).leases := by
  rcases ok_of_bind h with ⟨_, hgrant, h⟩
  rcases ok_of_bind h with ⟨_, hrenewal, h⟩
  rcases ok_of_bind h with ⟨put, hput, hevent⟩
  have hgrantor := checkGrant_eq_ok hgrant
  have hexisting : forall row, file.lease? lease.leaseId = some row ->
      row.grantorRobotId = robotId := by
    intro row hrow
    rw [hrow] at hrenewal
    rw [grantor_of_checkRenewal hrenewal, hgrantor]
  refine ⟨hgrantor, hexisting, ?_⟩
  intro other hother
  apply grantedBy_leases_congr
  rw [appendEvent_eq_ok hevent, putLease_eq_ok hput]
  unfold Store.upsert
  cases hinsert : file.leases.insert? (Store.newRow lease nowMs) with
  | some leases =>
      have hne : (robotId != other) = true := bne_iff_ne.mpr (Ne.symm hother)
      have hnew : (Store.newRow lease nowMs).grantorRobotId = robotId := hgrantor
      dsimp only
      rw [(Table.insert?_eq_some hinsert).1, List.filter_append, List.filter_singleton, hnew,
        hne]
      simp
  | none =>
      apply filter_map_other hother
      intro row hrow
      by_cases hid : row.leaseId = lease.leaseId
      · have hrowOwn := hexisting row (lease?_of_mem hrow hid)
        refine Or.inr ⟨hrowOwn, ?_⟩
        rw [apply_ite LeaseRow.grantorRobotId]
        exact (ite_self row.grantorRobotId).trans hrowOwn
      · exact Or.inl (if_neg (fun h => hid (beq_iff_eq.mp h)))

theorem revoke_own {robotId leaseId reason : String} {file file' : Store}
    {expectedRevision nowMs : Int}
    (h : file.revoke leaseId expectedRevision nowMs reason = .ok file')
    (hown : forall row, file.lease? leaseId = some row -> row.grantorRobotId = robotId)
    (other : String) (hother : other ≠ robotId) :
    (file'.grantedBy other).leases = (file.grantedBy other).leases := by
  rcases ok_of_bind h with ⟨_, _, h⟩
  rcases ok_of_bind h with ⟨_, _, h⟩
  rcases ok_of_bind h with ⟨put, hput, hevent⟩
  apply grantedBy_leases_congr
  rw [appendEvent_eq_ok hevent, endLease_eq_ok hput]
  apply filter_map_other hother
  intro row hrow
  by_cases hid : row.leaseId = leaseId
  · have hrowOwn := hown row (lease?_of_mem hrow hid)
    refine Or.inr ⟨hrowOwn, ?_⟩
    rw [apply_ite LeaseRow.grantorRobotId]
    exact (ite_self row.grantorRobotId).trans hrowOwn
  · exact Or.inl (if_neg (fun h => hid (beq_iff_eq.mp h)))

theorem presented_eq_ok {ownRobotId robotId leaseId : String} {assignment : Assignment}
    (h : Store.presented ownRobotId robotId assignment = .ok leaseId) :
    assignment.authorityLeaseId = some leaseId := by
  rcases ok_of_bind h with ⟨_, _, h⟩
  cases hid : assignment.authorityLeaseId with
  | none =>
      rw [hid] at h
      cases h
  | some presented =>
      rw [hid] at h
      rw [Except.ok.inj h]

theorem grantor_of_readLease {leaseId : String} {row : LeaseRow} {lease : AuthorityLease}
    (h : Store.readLease leaseId row = .ok lease) :
    lease.grantorRobotId = row.grantorRobotId := by
  rcases bind_eq_ok.mp h with ⟨_, _, h⟩
  rcases bind_eq_ok.mp h with ⟨_, _, h⟩
  rw [← Except.ok.inj h]

theorem authorize_own {robotId issuerId target : String} {file : Store}
    {assignment : Assignment} {nowMs : Int} {lease : AuthorityLease}
    (h : file.authorize robotId issuerId target assignment nowMs = .ok lease)
    (hown : forall leaseId row, assignment.authorityLeaseId = some leaseId ->
      file.lease? leaseId = some row -> row.grantorRobotId = robotId) :
    lease.grantorRobotId = robotId ∧
      (file.grantedBy robotId).authorize robotId issuerId target assignment nowMs =
        .ok lease := by
  rcases ok_of_bind h with ⟨leaseId, hpresented, hdecided⟩
  cases hrow : file.lease? leaseId with
  | none =>
      rw [hrow] at hdecided
      cases hdecided
  | some row =>
      have hgrantor := hown leaseId row (presented_eq_ok hpresented) hrow
      rw [hrow] at hdecided
      rcases ok_of_bind hdecided with ⟨read, hread, hchecked⟩
      rcases ok_of_bind hchecked with ⟨_, _, hlease⟩
      constructor
      · rw [← Except.ok.inj hlease, grantor_of_readLease (passOn_eq_ok hread), hgrantor]
      · unfold Store.authorize
        rw [hpresented]
        show Store.decideLease _ _ _ _ _ = _
        rw [lease?_grantedBy hrow hgrantor]
        exact hdecided

theorem authorize_returns {robotId issuerId target : String} {file : Store}
    {assignment : Assignment} {nowMs : Int} {lease : AuthorityLease} {s : Session Store}
    (h : Connection.authorize robotId issuerId target assignment nowMs (.idle file) =
      .ok lease s) : file.authorize robotId issuerId target assignment nowMs = .ok lease := by
  have hrefines := authorize_refines robotId issuerId target assignment nowMs file
  cases hpure : file.authorize robotId issuerId target assignment nowMs with
  | error e =>
      rw [hpure] at hrefines
      rw [show Connection.authorize robotId issuerId target assignment nowMs (.idle file) =
        .error e (.idle file) from hrefines] at h
      cases h
  | ok found =>
      rw [hpure] at hrefines
      rw [show Connection.authorize robotId issuerId target assignment nowMs (.idle file) =
        .ok found (.idle file) from hrefines] at h
      cases h
      rfl

theorem returns_authorize {robotId issuerId target : String} {file : Store}
    {assignment : Assignment} {nowMs : Int} {lease : AuthorityLease}
    (h : file.authorize robotId issuerId target assignment nowMs = .ok lease) :
    Connection.authorize robotId issuerId target assignment nowMs (.idle file) =
      .ok lease (.idle file) := by
  have hrefines := authorize_refines robotId issuerId target assignment nowMs file
  rw [h] at hrefines
  exact hrefines

/-!
## Authority per robot
-/

theorem perRobot_grant {file : Store} {robotId : String} (lease : AuthorityLease)
    (nowMs : Int) : PerRobot file ⟨robotId, .grant lease nowMs⟩ := by
  have hrefines := grant_refines robotId lease nowMs file
  have hperform := @perform_of_result file ⟨robotId, .grant lease nowMs⟩ _ hrefines
  have hown : forall file', file.grant robotId lease nowMs = .ok file' -> _ :=
    fun file' h => grant_own h
  constructor
  · intro other at' hop hreturns
    cases hop
    rcases returns_of_refines hrefines hreturns with ⟨v, hv⟩
    cases hgrant : file.grant robotId lease nowMs with
    | error e =>
        rw [hgrant] at hv
        cases hv
    | ok file' => exact ⟨(hown file' hgrant).1, (hown file' hgrant).2.1⟩
  · intro leaseId expectedRevision nowMs reason row hop
    cases hop
  · intro issuerId target assignment nowMs lease s hop
    cases hop
  · intro other hother
    rw [hperform]
    cases hgrant : file.grant robotId lease nowMs with
    | error e => rfl
    | ok file' => exact (hown file' hgrant).2.2 other hother

theorem perRobot_revoke {file : Store} {robotId leaseId reason : String}
    {expectedRevision nowMs : Int}
    (hown : forall row, file.lease? leaseId = some row -> row.grantorRobotId = robotId) :
    PerRobot file ⟨robotId, .revoke leaseId expectedRevision nowMs reason⟩ := by
  have hrefines := revoke_refines leaseId expectedRevision nowMs reason file
  have hperform := @perform_of_result file
    ⟨robotId, .revoke leaseId expectedRevision nowMs reason⟩ _ hrefines
  constructor
  · intro lease nowMs hop
    cases hop
  · intro other revision at' text row hop _ hrow
    cases hop
    exact hown row hrow
  · intro issuerId target assignment nowMs lease s hop
    cases hop
  · intro other hother
    rw [hperform]
    cases hrevoke : file.revoke leaseId expectedRevision nowMs reason with
    | error e => rfl
    | ok file' => exact revoke_own hrevoke hown other hother

theorem perRobot_authorize {file : Store} {robotId issuerId target : String}
    {assignment : Assignment} {nowMs : Int}
    (hown : forall leaseId row, assignment.authorityLeaseId = some leaseId ->
      file.lease? leaseId = some row -> row.grantorRobotId = robotId) :
    PerRobot file ⟨robotId, .authorize issuerId target assignment nowMs⟩ := by
  have hrefines := (authorize_refines robotId issuerId target assignment nowMs file).bind_pure
    (fun _ => ())
  have hperform := @perform_of_result file
    ⟨robotId, .authorize issuerId target assignment nowMs⟩ _ hrefines
  constructor
  · intro lease nowMs hop
    cases hop
  · intro leaseId expectedRevision nowMs reason row hop
    cases hop
  · intro issuer aim step at' lease s hop hreturns
    cases hop
    rcases authorize_own (authorize_returns hreturns) hown with ⟨hgrantor, halone⟩
    exact ⟨hgrantor, returns_authorize halone⟩
  · intro other hother
    rw [hperform]
    cases file.authorize robotId issuerId target assignment nowMs with
    | error e => rfl
    | ok lease => rfl

theorem perRobot_of_namesOwn {file : Store} {call : Call} (h : NamesOwn file call) :
    PerRobot file call := by
  rcases call with ⟨robotId, operation⟩
  cases operation with
  | grant lease nowMs => exact perRobot_grant lease nowMs
  | revoke leaseId expectedRevision nowMs reason => exact perRobot_revoke h
  | authorize issuerId target assignment nowMs => exact perRobot_authorize h
  | reopen =>
      constructor
      · intro lease nowMs hop
        cases hop
      · intro leaseId expectedRevision nowMs reason row hop
        cases hop
      · intro issuerId target assignment nowMs lease s hop
        cases hop
      · intro other _
        rfl

/-!
## The calls of one robot alone

A run of the shared file is compared with the run of one robot's calls on a file of its own:
a lease is stored in both alike, or another robot holds its id in the shared file.
-/

def ownCalls (robotId : String) (calls : List Call) : List Call :=
  calls.filter (fun call => call.robotId == robotId)

def Foreign (file : Store) (robotId leaseId : String) : Prop :=
  exists row, file.lease? leaseId = some row ∧ row.grantorRobotId ≠ robotId

def Shadows (robotId : String) (file alone : Store) : Prop :=
  forall leaseId, file.lease? leaseId = alone.lease? leaseId ∨ Foreign file robotId leaseId

theorem lease?_grant {robotId : String} {file file' : Store} {lease : AuthorityLease}
    {nowMs : Int} (h : file.grant robotId lease nowMs = .ok file') (leaseId : String) :
    file'.lease? leaseId = if leaseId = lease.leaseId then
      some (((file.lease? lease.leaseId).map
        (Store.renewed (Store.newRow lease nowMs))).getD (Store.newRow lease nowMs))
      else file.lease? leaseId := by
  rcases ok_of_bind h with ⟨_, _, h⟩
  rcases ok_of_bind h with ⟨_, _, h⟩
  rcases ok_of_bind h with ⟨put, hput, hevent⟩
  have hleases := appendEvent_eq_ok hevent
  rw [putLease_eq_ok hput] at hleases
  have hupsert := lease?_upsert file (Store.newRow lease nowMs) file'.events leaseId
  unfold Store.lease? at hupsert ⊢
  rw [hleases]
  exact hupsert

theorem named_of_revoke {file file' : Store} {leaseId reason : String}
    {expectedRevision nowMs : Int}
    (h : file.revoke leaseId expectedRevision nowMs reason = .ok file') :
    exists row, file.lease? leaseId = some row := by
  rcases ok_of_bind h with ⟨_, _, h⟩
  rcases ok_of_bind h with ⟨_, hchecked, _⟩
  cases hrow : file.lease? leaseId with
  | none =>
      rw [hrow] at hchecked
      cases hchecked
  | some row => exact ⟨row, rfl⟩

theorem lease?_revoke {file file' : Store} {leaseId reason : String}
    {expectedRevision nowMs : Int}
    (h : file.revoke leaseId expectedRevision nowMs reason = .ok file') (other : String) :
    file'.lease? other = if other = leaseId then
      (file.lease? leaseId).map (Store.ended (expectedRevision + 1) nowMs)
      else file.lease? other := by
  rcases ok_of_bind h with ⟨_, _, h⟩
  rcases ok_of_bind h with ⟨_, _, h⟩
  rcases ok_of_bind h with ⟨put, hput, hevent⟩
  exact lease?_update ((appendEvent_eq_ok hevent).trans (endLease_eq_ok hput))
    (fun _ => rfl) file'.events other

theorem isOk_bind {x y : Except AuthorityExn value} {f g : value -> Except AuthorityExn result}
    (hxy : x.isOk = y.isOk) (hfg : forall v w, (f v).isOk = (g w).isOk) :
    (x >>= f).isOk = (y >>= g).isOk := by
  cases x with
  | error e =>
      cases y with
      | error _ => rfl
      | ok w => cases hxy
  | ok v =>
      cases y with
      | error _ => cases hxy
      | ok w => exact hfg v w

theorem isOk_appendEvent (file alone : Store) (event : EventRow) :
    (file.appendEvent event).isOk = (alone.appendEvent event).isOk := by
  apply isOk_bind rfl
  intro _ _
  exact isOk_bind rfl (fun _ _ => rfl)

theorem isOk_putLease (file alone : Store) (lease : AuthorityLease) (nowMs : Int) :
    (file.putLease lease nowMs).isOk = (alone.putLease lease nowMs).isOk := by
  apply isOk_bind rfl
  intro _ _
  apply isOk_bind rfl
  intro _ _
  apply isOk_bind rfl
  intro _ _
  apply isOk_bind rfl
  intro _ _
  exact isOk_bind rfl (fun _ _ => rfl)

theorem isOk_grant {robotId : String} {file alone : Store} {lease : AuthorityLease}
    (nowMs : Int) (h : file.lease? lease.leaseId = alone.lease? lease.leaseId) :
    (file.grant robotId lease nowMs).isOk = (alone.grant robotId lease nowMs).isOk := by
  unfold Store.grant
  rw [h]
  apply isOk_bind rfl
  intro _ _
  apply isOk_bind rfl
  intro _ _
  exact isOk_bind (isOk_putLease file alone lease nowMs)
    (fun put put' => isOk_appendEvent put put' _)

theorem isOk_revoke {file alone : Store} {leaseId : String} (expectedRevision nowMs : Int)
    (reason : String) (h : file.lease? leaseId = alone.lease? leaseId) :
    (file.revoke leaseId expectedRevision nowMs reason).isOk =
      (alone.revoke leaseId expectedRevision nowMs reason).isOk := by
  unfold Store.revoke
  rw [h]
  apply isOk_bind rfl
  intro _ _
  apply isOk_bind rfl
  intro _ _
  apply isOk_bind
  · apply isOk_bind rfl
    intro _ _
    exact isOk_bind rfl (fun _ _ => rfl)
  · intro put put'
    exact isOk_appendEvent put put' _

theorem Shadows.step {robotId leaseId : String} {file file' alone alone' : Store}
    (h : Shadows robotId file alone)
    (hfile : forall other, other ≠ leaseId -> file'.lease? other = file.lease? other)
    (halone : forall other, other ≠ leaseId -> alone'.lease? other = alone.lease? other)
    (hown : file'.lease? leaseId = alone'.lease? leaseId ∨ Foreign file' robotId leaseId) :
    Shadows robotId file' alone' := by
  intro other
  by_cases hid : other = leaseId
  · rw [hid]
    exact hown
  · unfold Foreign
    rw [hfile other hid, halone other hid]
    exact h other

/-- What a call leaves of the rows when its result is `r`. -/
def after (file : Store) (r : Except AuthorityExn Store) : Store :=
  r.toOption.getD file

theorem perform_grant (file : Store) (robotId : String) (lease : AuthorityLease)
    (nowMs : Int) : file.perform ⟨robotId, .grant lease nowMs⟩ =
      after file (file.grant robotId lease nowMs) := by
  rw [@perform_of_result file ⟨robotId, .grant lease nowMs⟩ _
    (grant_refines robotId lease nowMs file)]
  cases file.grant robotId lease nowMs <;> rfl

theorem perform_revoke (file : Store) (robotId leaseId reason : String)
    (expectedRevision nowMs : Int) :
    file.perform ⟨robotId, .revoke leaseId expectedRevision nowMs reason⟩ =
      after file (file.revoke leaseId expectedRevision nowMs reason) := by
  rw [@perform_of_result file ⟨robotId, .revoke leaseId expectedRevision nowMs reason⟩ _
    (revoke_refines leaseId expectedRevision nowMs reason file)]
  cases file.revoke leaseId expectedRevision nowMs reason <;> rfl

theorem perform_authorize (file : Store) (robotId issuerId target : String)
    (assignment : Assignment) (nowMs : Int) :
    file.perform ⟨robotId, .authorize issuerId target assignment nowMs⟩ = file := by
  rw [@perform_of_result file ⟨robotId, .authorize issuerId target assignment nowMs⟩ _
    ((authorize_refines robotId issuerId target assignment nowMs file).bind_pure
      (fun _ => ()))]
  cases file.authorize robotId issuerId target assignment nowMs <;> rfl

theorem lease?_after_grant (file : Store) (robotId : String) (lease : AuthorityLease)
    (nowMs : Int) (other : String) (hother : other ≠ lease.leaseId) :
    (after file (file.grant robotId lease nowMs)).lease? other = file.lease? other := by
  cases hgrant : file.grant robotId lease nowMs with
  | error e => rfl
  | ok file' =>
      show file'.lease? other = _
      rw [lease?_grant hgrant, if_neg hother]

theorem lease?_after_revoke (file : Store) (leaseId reason : String)
    (expectedRevision nowMs : Int) (other : String) (hother : other ≠ leaseId) :
    (after file (file.revoke leaseId expectedRevision nowMs reason)).lease? other =
      file.lease? other := by
  cases hrevoke : file.revoke leaseId expectedRevision nowMs reason with
  | error e => rfl
  | ok file' =>
      show file'.lease? other = _
      rw [lease?_revoke hrevoke, if_neg hother]

theorem Shadows.ownGrant {robotId : String} {file alone : Store}
    (h : Shadows robotId file alone) (lease : AuthorityLease) (nowMs : Int) :
    Shadows robotId (after file (file.grant robotId lease nowMs))
      (after alone (alone.grant robotId lease nowMs)) := by
  apply h.step (lease?_after_grant file robotId lease nowMs)
    (lease?_after_grant alone robotId lease nowMs)
  rcases h lease.leaseId with hsame | hforeign
  · left
    have hok := @isOk_grant robotId file alone lease nowMs hsame
    cases hgrant : file.grant robotId lease nowMs with
    | error e =>
        cases halone : alone.grant robotId lease nowMs with
        | error _ => exact hsame
        | ok alone' =>
            rw [hgrant, halone] at hok
            cases hok
    | ok file' =>
        cases halone : alone.grant robotId lease nowMs with
        | error _ =>
            rw [hgrant, halone] at hok
            cases hok
        | ok alone' =>
            show file'.lease? lease.leaseId = alone'.lease? lease.leaseId
            rw [lease?_grant hgrant, lease?_grant halone, hsame]
  · right
    cases hgrant : file.grant robotId lease nowMs with
    | error e => exact hforeign
    | ok file' =>
        rcases hforeign with ⟨row, hrow, hgrantor⟩
        exact absurd ((grant_own hgrant).2.1 row hrow) hgrantor

theorem Shadows.ownRevoke {robotId leaseId : String} {file alone : Store}
    (h : Shadows robotId file alone)
    (hown : forall row, file.lease? leaseId = some row -> row.grantorRobotId = robotId)
    (expectedRevision nowMs : Int) (reason : String) :
    Shadows robotId (after file (file.revoke leaseId expectedRevision nowMs reason))
      (after alone (alone.revoke leaseId expectedRevision nowMs reason)) := by
  apply h.step (lease?_after_revoke file leaseId reason expectedRevision nowMs)
    (lease?_after_revoke alone leaseId reason expectedRevision nowMs)
  rcases h leaseId with hsame | ⟨row, hrow, hgrantor⟩
  · left
    have hok := isOk_revoke expectedRevision nowMs reason hsame
    cases hrevoke : file.revoke leaseId expectedRevision nowMs reason with
    | error e =>
        cases halone : alone.revoke leaseId expectedRevision nowMs reason with
        | error _ => exact hsame
        | ok alone' =>
            rw [hrevoke, halone] at hok
            cases hok
    | ok file' =>
        cases halone : alone.revoke leaseId expectedRevision nowMs reason with
        | error _ =>
            rw [hrevoke, halone] at hok
            cases hok
        | ok alone' =>
            show file'.lease? leaseId = alone'.lease? leaseId
            rw [lease?_revoke hrevoke, lease?_revoke halone, hsame]
  · exact absurd (hown row hrow) hgrantor

theorem Shadows.otherGrant {robotId other : String} {file alone : Store}
    (h : Shadows robotId file alone) (hother : other ≠ robotId) (lease : AuthorityLease)
    (nowMs : Int) : Shadows robotId (after file (file.grant other lease nowMs)) alone := by
  cases hgrant : file.grant other lease nowMs with
  | error e => exact h
  | ok file' =>
      rcases grant_own hgrant with ⟨hgrantor, hexisting, _⟩
      have hfound := lease?_grant hgrant lease.leaseId
      rw [if_pos rfl] at hfound
      refine @Shadows.step robotId lease.leaseId file file' alone alone h ?_ (fun _ _ => rfl) ?_
      · intro id hid
        rw [lease?_grant hgrant, if_neg hid]
      · right
        refine ⟨_, hfound, ?_⟩
        cases hrow : file.lease? lease.leaseId with
        | none =>
            show lease.grantorRobotId ≠ robotId
            rw [hgrantor]
            exact hother
        | some row =>
            show row.grantorRobotId ≠ robotId
            rw [hexisting row hrow]
            exact hother

theorem Shadows.otherRevoke {robotId other leaseId : String} {file alone : Store}
    (h : Shadows robotId file alone) (hother : other ≠ robotId)
    (hown : forall row, file.lease? leaseId = some row -> row.grantorRobotId = other)
    (expectedRevision nowMs : Int) (reason : String) :
    Shadows robotId (after file (file.revoke leaseId expectedRevision nowMs reason)) alone := by
  cases hrevoke : file.revoke leaseId expectedRevision nowMs reason with
  | error e => exact h
  | ok file' =>
      have hfound := lease?_revoke hrevoke leaseId
      rw [if_pos rfl] at hfound
      refine @Shadows.step robotId leaseId file file' alone alone h ?_ (fun _ _ => rfl) ?_
      · intro id hid
        rw [lease?_revoke hrevoke, if_neg hid]
      · cases hrow : file.lease? leaseId with
        | none =>
            rcases named_of_revoke hrevoke with ⟨row, hsome⟩
            rw [hrow] at hsome
            cases hsome
        | some row =>
            right
            rw [hrow, Option.map_some] at hfound
            refine ⟨_, hfound, ?_⟩
            show row.grantorRobotId ≠ robotId
            rw [hown row hrow]
            exact hother

theorem Shadows.perform {robotId : String} {file alone : Store}
    (h : Shadows robotId file alone) {call : Call} (hown : NamesOwn file call) :
    Shadows robotId (file.perform call)
      (if call.robotId == robotId then alone.perform call else alone) := by
  rcases call with ⟨caller, operation⟩
  by_cases hcaller : caller = robotId
  · subst hcaller
    rw [if_pos (beq_self_eq_true caller)]
    cases operation with
    | grant lease nowMs =>
        rw [perform_grant, perform_grant]
        exact h.ownGrant lease nowMs
    | revoke leaseId expectedRevision nowMs reason =>
        rw [perform_revoke, perform_revoke]
        exact h.ownRevoke hown expectedRevision nowMs reason
    | authorize issuerId target assignment nowMs =>
        rw [perform_authorize, perform_authorize]
        exact h
    | reopen => exact h
  · rw [if_neg (fun hsame => hcaller (beq_iff_eq.mp hsame))]
    cases operation with
    | grant lease nowMs =>
        rw [perform_grant]
        exact h.otherGrant hcaller lease nowMs
    | revoke leaseId expectedRevision nowMs reason =>
        rw [perform_revoke]
        exact h.otherRevoke hcaller hown expectedRevision nowMs reason
    | authorize issuerId target assignment nowMs =>
        rw [perform_authorize]
        exact h
    | reopen => exact h

theorem Shadows.foldl {robotId : String} {calls : List Call} {file alone : Store}
    (h : Shadows robotId file alone)
    (hown : forall before call later, calls = before ++ call :: later ->
      NamesOwn (before.foldl Store.perform file) call) :
    Shadows robotId (calls.foldl Store.perform file)
      ((ownCalls robotId calls).foldl Store.perform alone) := by
  induction calls generalizing file alone with
  | nil => exact h
  | cons call rest ih =>
      have hfirst := h.perform (hown [] call rest rfl)
      have hrest : forall before next later, rest = before ++ next :: later ->
          NamesOwn (before.foldl Store.perform (file.perform call)) next := by
        intro before next later hsplit
        exact hown (call :: before) next later (by rw [hsplit, List.cons_append])
      unfold ownCalls
      rw [List.filter_cons]
      by_cases hcaller : (call.robotId == robotId) = true
      · rw [if_pos hcaller] at hfirst ⊢
        exact ih hfirst hrest
      · rw [if_neg hcaller] at hfirst ⊢
        exact ih hfirst hrest

theorem shadows_replay {calls : List Call}
    (hown : forall before call later, calls = before ++ call :: later ->
      NamesOwn (Store.replay before) call) (robotId : String) :
    Shadows robotId (Store.replay calls) (Store.replay (ownCalls robotId calls)) :=
  Shadows.foldl (fun _ => Or.inl rfl) hown

theorem authorize_alone {robotId issuerId target : String} {file alone : Store}
    (h : Shadows robotId file alone) {assignment : Assignment} {nowMs : Int}
    {lease : AuthorityLease}
    (hown : forall leaseId row, assignment.authorityLeaseId = some leaseId ->
      file.lease? leaseId = some row -> row.grantorRobotId = robotId)
    (hok : file.authorize robotId issuerId target assignment nowMs = .ok lease) :
    alone.authorize robotId issuerId target assignment nowMs = .ok lease := by
  rcases ok_of_bind hok with ⟨leaseId, hpresented, hdecided⟩
  unfold Store.authorize
  rw [hpresented]
  show Store.decideLease (alone.lease? leaseId) _ _ _ _ = _
  rcases h leaseId with hsame | ⟨row, hrow, hgrantor⟩
  · rw [← hsame]
    exact hdecided
  · exact absurd (hown leaseId row (presented_eq_ok hpresented) hrow) hgrantor

/-- When every revocation and every authorization of a run names a lease that the called
store's robot granted, no call works with or changes a lease of another robot, and a robot
authorizes nothing that it would not authorize had only its own calls been made. -/
theorem leases_per_robot (calls : List Call)
    (hown : forall before call later, calls = before ++ call :: later ->
      NamesOwn (Store.replay before) call)
    (before : List Call) (call : Call) (later : List Call)
    (hsplit : calls = before ++ call :: later) :
    PerRobot (Store.replay before) call ∧
      forall issuerId target assignment nowMs lease s,
        call.operation = .authorize issuerId target assignment nowMs ->
        Connection.authorize call.robotId issuerId target assignment nowMs
          (.idle (Store.replay before)) = .ok lease s ->
        Connection.authorize call.robotId issuerId target assignment nowMs
          (.idle (Store.replay (ownCalls call.robotId before))) =
            .ok lease (.idle (Store.replay (ownCalls call.robotId before))) := by
  have hcall := hown before call later hsplit
  refine ⟨perRobot_of_namesOwn hcall, ?_⟩
  intro issuerId target assignment nowMs lease s hop hreturns
  have hshadows : Shadows call.robotId (Store.replay before)
      (Store.replay (ownCalls call.robotId before)) := by
    apply shadows_replay
    intro first next rest hbefore
    apply hown first next (rest ++ call :: later)
    rw [hsplit, hbefore, List.append_assoc, List.cons_append]
  rw [NamesOwn, hop] at hcall
  exact returns_authorize (authorize_alone hshadows hcall (authorize_returns hreturns))

def patrolGrants : List Call :=
  [⟨"r2", .grant { patrolLease with leaseId := "l2", grantorRobotId := "r2" } 0⟩,
    ⟨"r1", .grant patrolLease 0⟩]

def patrolAuthorization : Call := ⟨"r1", .authorize "c" "r1" patrolLeased 15⟩

theorem patrol_authorized_by_own :
    PerRobot (Store.replay patrolGrants) patrolAuthorization ∧
      (((Store.replay patrolGrants).authorize "r1" "c" "r1" patrolLeased 15).toOption.map
        AuthorityLease.grantorRobotId) = some "r1" := by
  refine ⟨?_, by decide⟩
  have hgrantor : ((Store.replay patrolGrants).lease? "l1").map LeaseRow.grantorRobotId =
      some "r1" := by decide
  refine (leases_per_robot (patrolGrants ++ [patrolAuthorization]) ?_ patrolGrants
    patrolAuthorization [] rfl).1
  intro before call later hsplit
  match before with
  | [] =>
      cases hsplit
      trivial
  | [_] =>
      cases hsplit
      trivial
  | [_, _] =>
      cases hsplit
      intro leaseId row hid hrow
      cases hid
      have hstored : (Store.replay patrolGrants).lease? "l1" = some row := hrow
      rw [hstored, Option.map_some] at hgrantor
      exact Option.some.inj hgrantor
  | [_, _, _] => cases hsplit
  | _ :: _ :: _ :: _ :: _ => cases hsplit

/-- The store of one robot authorizes and revokes with a lease that another robot granted. -/
theorem foreign_lease_used :
    let file := Store.replay [⟨"r2", .grant { patrolLease with grantorRobotId := "r2" } 0⟩]
    ¬ PerRobot file patrolAuthorization ∧
      ¬ PerRobot file ⟨"r1", .revoke "l1" 1 20 "done"⟩ := by
  have hlease : ((Store.replay [⟨"r2", .grant { patrolLease with grantorRobotId := "r2" }
      0⟩]).lease? "l1").map LeaseRow.grantorRobotId = some "r2" := by decide
  constructor
  · intro h
    have hauthorized : ((Store.replay [⟨"r2", .grant { patrolLease with
        grantorRobotId := "r2" } 0⟩]).authorize "r1" "c" "r1" patrolLeased 15).toOption.map
          AuthorityLease.grantorRobotId = some "r2" := by decide
    rcases Option.map_eq_some_iff.mp hauthorized with ⟨lease, hlease, hgrantor⟩
    have hok : (Store.replay [⟨"r2", .grant { patrolLease with
        grantorRobotId := "r2" } 0⟩]).authorize "r1" "c" "r1" patrolLeased 15 = .ok lease := by
      generalize Store.authorize _ _ _ _ _ _ = result at hlease
      cases result with
      | error e => cases hlease
      | ok found => rw [Option.some.inj hlease]
    have hown := (h.authorizes "c" "r1" patrolLeased 15 lease _ rfl
      (returns_authorize hok)).1
    rw [hgrantor] at hown
    revert hown
    decide
  · intro h
    rcases Option.map_eq_some_iff.mp hlease with ⟨row, hrow, hgrantor⟩
    have hown := h.revokes "l1" 1 20 "done" row rfl (by decide) hrow
    rw [hgrantor] at hown
    revert hown
    decide

end Ump.Authority
