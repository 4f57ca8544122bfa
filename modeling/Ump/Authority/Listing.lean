import Mathlib.Data.String.Basic
import Ump.Authority.Grantors
import Ump.Foundation.Selection

/-!
# Listing the leases

## Effective status

The read-only inventory reports each lease with its status at the reading time. A filter on
this status is a condition of the query, and the status that is reported is computed from
the row afterwards.
-/

namespace Ump.Authority

open Foundation

inductive EffectiveStatus where
  | active
  | notYetValid
  | expired
  | revoked
deriving DecidableEq, Repr

def EffectiveStatus.ofValue? : String -> Option EffectiveStatus
  | "active" => some .active
  | "not_yet_valid" => some .notYetValid
  | "expired" => some .expired
  | "revoked" => some .revoked
  | _ => none

def effectiveStatus (lease : AuthorityLease) (nowMs : Int) : EffectiveStatus :=
  if lease.status = .revoked then
    .revoked
  else if lease.status = .expired then
    .expired
  else if nowMs - lease.maximumClockUncertaintyMs < lease.issuedAtMs then
    .notYetValid
  else if lease.expiresAtMs ≤ nowMs + lease.maximumClockUncertaintyMs then
    .expired
  else
    .active

structure LeaseSummary where
  lease : AuthorityLease
  effectiveStatus : EffectiveStatus
  updatedAtMs : Int
deriving DecidableEq, Repr

/-- `AuthorityReadError`, also around the error of a row, and the `OverflowError` of a
parameter. -/
inductive ReadExn where
  | read (text : String)
  | row (error : Exn)
  | overflow
deriving DecidableEq, Repr

def readWhen (condition : Bool) (text : String) : Except ReadExn Unit :=
  if condition then .error (.read text) else .ok ()

def checkArray : Json -> Except Exn Unit
  | .arr _ => .ok ()
  | _ => .error (.value "capabilities are not an array")

/-- The lease that `_summary` builds from the columns. -/
def summaryLease (row : LeaseRow) : Except Exn AuthorityLease := do
  checkArray row.capabilitiesJson
  Store.readLease row.leaseId row

def summary (nowMs : Int) (row : LeaseRow) : Except ReadExn LeaseSummary :=
  match summaryLease row with
  | .ok lease =>
      .ok
        { lease := lease
          effectiveStatus := effectiveStatus lease nowMs
          updatedAtMs := row.updatedAtMs }
  | .error error => .error (.row error)

def summaries (nowMs : Int) : List LeaseRow -> Except ReadExn (List LeaseSummary)
  | [] => .ok []
  | row :: rest => do
      let head <- summary nowMs row
      let tail <- summaries nowMs rest
      .ok (head :: tail)

/-!
## The query
-/

structure LeaseQuery where
  robotId : String
  nowMs : Int
  effectiveStatus : Option String
  issuerId : Option String
  limit : Int
deriving Repr

namespace LeaseQuery

def status? (query : LeaseQuery) : Option EffectiveStatus :=
  query.effectiveStatus.bind EffectiveStatus.ofValue?

def check (query : LeaseQuery) : Except ReadExn Unit := do
  readWhen (query.robotId.toList.all isSpace) "robot_id is required"
  readWhen (decide (query.nowMs < 0)) "now_ms must be a non-negative integer"
  readWhen (query.effectiveStatus.any (fun text => (EffectiveStatus.ofValue? text).isNone))
    "effective lease status is invalid"
  readWhen (query.issuerId.any (fun issuerId => issuerId.toList.all isSpace))
    "issuer_id filter is invalid"
  readWhen (!decide (1 ≤ query.limit ∧ query.limit ≤ 1000))
    "lease limit must be between 1 and 1000"

/-- The reading time is a parameter of three of the conditions. -/
def bindsTime (query : LeaseQuery) : Bool :=
  match query.status? with
  | none => false
  | some .revoked => false
  | some _ => true

def bindTime (query : LeaseQuery) : Except ReadExn Unit :=
  if query.bindsTime then
    (bindInteger query.nowMs).mapError (fun _ => .overflow)
  else
    .ok ()

end LeaseQuery

/-- The condition that the query adds for a status. The sums stay exact on the rows of leases,
whose uncertainty is bounded: one beyond 64 bits is above every column. -/
def statusClause (nowMs : Int) (row : LeaseRow) : EffectiveStatus -> Bool
  | .active =>
      row.status == .active &&
        decide (row.issuedAtMs ≤ nowMs - row.maximumClockUncertaintyMs) &&
        decide (nowMs + row.maximumClockUncertaintyMs < row.expiresAtMs)
  | .notYetValid =>
      row.status == .active && decide (nowMs - row.maximumClockUncertaintyMs < row.issuedAtMs)
  | .expired =>
      row.status == .expired || row.status == .active &&
        decide (row.expiresAtMs ≤ nowMs + row.maximumClockUncertaintyMs)
  | .revoked => row.status == .revoked

/-- `grantor_robot_id = ?` and `issuer_id = ?`. -/
def LeaseQuery.concerns (query : LeaseQuery) (row : LeaseRow) : Bool :=
  row.grantorRobotId == query.robotId &&
    query.issuerId.all (fun issuerId => row.issuerId == issuerId)

def LeaseQuery.clause (query : LeaseQuery) (row : LeaseRow) : Bool :=
  query.status?.all (statusClause query.nowMs row)

/-- `ORDER BY updated_at_ms DESC, lease_id`. -/
def listedBefore (a b : LeaseRow) : Prop :=
  b.updatedAtMs < a.updatedAtMs ∨ b.updatedAtMs = a.updatedAtMs ∧ a.leaseId ≤ b.leaseId

instance : DecidableRel listedBefore := fun a b => by
  unfold listedBefore
  infer_instance

namespace Store

def selectLeases (store : Store) (query : LeaseQuery) : List LeaseRow :=
  ((store.leases.rows.filter (fun row => query.concerns row && query.clause row)).insertionSort
    listedBefore).take query.limit.toNat

def readAuthorityLeases (store : Store) (query : LeaseQuery) :
    Except ReadExn (List LeaseSummary) := do
  query.check
  query.bindTime
  summaries query.nowMs (store.selectLeases query)

/-!
## What the listing is for
-/

/-- The rows of the robot, and of the issuer, in the order of the listing. -/
def ordered (store : Store) (query : LeaseQuery) : List LeaseRow :=
  (store.leases.rows.filter query.concerns).insertionSort listedBefore

def listing (store : Store) (query : LeaseQuery) : Except ReadExn (List LeaseSummary) := do
  query.check
  let all <- summaries query.nowMs (store.ordered query)
  .ok ((all.filter (fun summary => query.status?.all (fun status =>
    summary.effectiveStatus == status))).take query.limit.toNat)

def Readable (store : Store) : Prop :=
  forall row, row ∈ store.leases.rows -> exists lease, summaryLease row = .ok lease

end Store

/-!
## Rows and their summaries
-/

def capabilitiesOf (row : LeaseRow) : List String :=
  ((row.capabilitiesJson.tuple >>= textItems).toOption).getD []

def leaseOf (row : LeaseRow) : AuthorityLease where
  leaseId := row.leaseId
  grantorRobotId := row.grantorRobotId
  issuerId := row.issuerId
  capabilities := capabilitiesOf row
  issuedAtMs := row.issuedAtMs
  expiresAtMs := row.expiresAtMs
  maximumClockUncertaintyMs := row.maximumClockUncertaintyMs
  revision := row.revision
  status := row.status

def summaryOf (nowMs : Int) (row : LeaseRow) : LeaseSummary where
  lease := leaseOf row
  effectiveStatus := effectiveStatus (leaseOf row) nowMs
  updatedAtMs := row.updatedAtMs

theorem summaryLease_eq_ok {row : LeaseRow} {lease : AuthorityLease}
    (h : summaryLease row = .ok lease) : lease = leaseOf row ∧ lease.check = .ok () := by
  rcases bind_eq_ok.mp h with ⟨_, _, h⟩
  rcases bind_eq_ok.mp h with ⟨capabilities, hcapabilities, h⟩
  rcases bind_eq_ok.mp h with ⟨_, hcheck, h⟩
  have hlease := Except.ok.inj h
  have hdecoded : capabilitiesOf row = capabilities := by
    unfold capabilitiesOf
    rw [hcapabilities]
    rfl
  constructor
  · rw [← hlease, leaseOf, hdecoded]
  · rw [← hlease]
    exact hcheck

theorem summary_of_readable {row : LeaseRow} (h : exists lease, summaryLease row = .ok lease)
    (nowMs : Int) : summary nowMs row = .ok (summaryOf nowMs row) := by
  rcases h with ⟨lease, hlease⟩
  unfold summary
  rw [hlease, (summaryLease_eq_ok hlease).1]
  rfl

theorem summaries_of_readable (rows : List LeaseRow)
    (h : forall row, row ∈ rows -> exists lease, summaryLease row = .ok lease) (nowMs : Int) :
    summaries nowMs rows = .ok (rows.map (summaryOf nowMs)) := by
  induction rows with
  | nil => rfl
  | cons row rest ih =>
      rw [summaries, summary_of_readable (h row List.mem_cons_self) nowMs,
        ih (fun other hother => h other (List.mem_cons_of_mem row hother))]
      rfl

theorem summaryOf_inj {store : Store} {a b : LeaseRow} {nowMs : Int}
    (ha : a ∈ store.leases.rows) (hb : b ∈ store.leases.rows)
    (h : summaryOf nowMs a = summaryOf nowMs b) : a = b := by
  apply Table.eq_of_clash ha hb
  have hid : a.leaseId = b.leaseId :=
    congrArg (fun summary : LeaseSummary => summary.lease.leaseId) h
  show (a.leaseId == b.leaseId) = true
  rw [hid, beq_self_eq_true]

theorem map_summaryOf_inj {store : Store} {nowMs : Int} {rows rows' : List LeaseRow}
    (hrows : forall row, row ∈ rows -> row ∈ store.leases.rows)
    (hrows' : forall row, row ∈ rows' -> row ∈ store.leases.rows) :
    rows.map (summaryOf nowMs) = rows'.map (summaryOf nowMs) <-> rows = rows' := by
  constructor
  · induction rows generalizing rows' with
    | nil =>
        intro h
        exact (List.map_eq_nil_iff.mp h.symm).symm
    | cons row rest ih =>
        intro h
        cases rows' with
        | nil => cases h
        | cons row' rest' =>
            rw [List.map_cons, List.map_cons] at h
            have hhead := summaryOf_inj (hrows row List.mem_cons_self)
              (hrows' row' List.mem_cons_self) (List.cons.inj h).1
            have htail := ih (fun other hother => hrows other (List.mem_cons_of_mem row hother))
              (fun other hother => hrows' other (List.mem_cons_of_mem row' hother))
              (List.cons.inj h).2
            rw [hhead, htail]
  · intro h
    rw [h]

/-!
## The two statuses

They agree on every row but those whose window is so narrow that the clock may stand before
it and behind it at once.
-/

/-- The reading time is too early for the lease and too late for it. -/
def Straddles (nowMs : Int) (row : LeaseRow) : Prop :=
  row.status = .active ∧ nowMs - row.maximumClockUncertaintyMs < row.issuedAtMs ∧
    row.expiresAtMs ≤ nowMs + row.maximumClockUncertaintyMs

instance (nowMs : Int) (row : LeaseRow) : Decidable (Straddles nowMs row) := by
  unfold Straddles
  infer_instance

theorem statusClause_iff (nowMs : Int) (row : LeaseRow) (status : EffectiveStatus) :
    statusClause nowMs row status = true <->
      effectiveStatus (leaseOf row) nowMs = status ∨ status = .expired ∧ Straddles nowMs row := by
  have hcolumns : effectiveStatus (leaseOf row) nowMs =
      if row.status = .revoked then .revoked
      else if row.status = .expired then .expired
      else if nowMs - row.maximumClockUncertaintyMs < row.issuedAtMs then .notYetValid
      else if row.expiresAtMs ≤ nowMs + row.maximumClockUncertaintyMs then .expired
      else .active := rfl
  rw [hcolumns]
  unfold Straddles
  cases hstatus : row.status with
  | revoked => cases status <;> simp [statusClause, hstatus]
  | expired => cases status <;> simp [statusClause, hstatus]
  | active =>
      rw [if_neg (by decide), if_neg (by decide)]
      by_cases hearly : nowMs - row.maximumClockUncertaintyMs < row.issuedAtMs
      · rw [if_pos hearly]
        cases status <;> simp [statusClause, hstatus, hearly]
      · rw [if_neg hearly]
        have hstarted : row.issuedAtMs ≤ nowMs - row.maximumClockUncertaintyMs := not_lt.mp hearly
        by_cases hlate : row.expiresAtMs ≤ nowMs + row.maximumClockUncertaintyMs
        · rw [if_pos hlate]
          cases status <;> simp [statusClause, hstatus, hearly, hstarted, hlate]
        · rw [if_neg hlate]
          have hopen := not_le.mp hlate
          cases status <;> simp [statusClause, hstatus, hearly, hstarted, hlate, hopen]

theorem effectiveStatus_of_straddles {nowMs : Int} {row : LeaseRow}
    (h : Straddles nowMs row) : effectiveStatus (leaseOf row) nowMs = .notYetValid := by
  have hactive : (leaseOf row).status = .active := h.1
  unfold effectiveStatus
  rw [hactive, if_neg (by decide), if_neg (by decide)]
  exact if_pos h.2.1

theorem listed_once_iff (nowMs : Int) (row : LeaseRow) :
    (exists status, statusClause nowMs row status = true ∧
      forall other, statusClause nowMs row other = true -> other = status) <->
      ¬ Straddles nowMs row := by
  constructor
  · rintro ⟨status, _, honly⟩ hstraddles
    have hearly := honly .notYetValid
      ((statusClause_iff nowMs row _).mpr (.inl (effectiveStatus_of_straddles hstraddles)))
    have hlate := honly .expired ((statusClause_iff nowMs row _).mpr (.inr ⟨rfl, hstraddles⟩))
    cases hearly.trans hlate.symm
  · intro hstraddles
    refine ⟨effectiveStatus (leaseOf row) nowMs, (statusClause_iff nowMs row _).mpr (.inl rfl), ?_⟩
    intro other hother
    rcases (statusClause_iff nowMs row other).mp hother with hcomputed | ⟨_, hfalse⟩
    · exact hcomputed.symm
    · exact absurd hfalse hstraddles

/-!
## The listing and its query
-/

theorem listedBefore_total : Std.Total listedBefore where
  total a b := by
    unfold listedBefore
    rcases lt_trichotomy a.updatedAtMs b.updatedAtMs with hlt | heq | hgt
    · exact .inr (.inl hlt)
    · rcases le_total a.leaseId b.leaseId with hle | hle
      · exact .inl (.inr ⟨heq.symm, hle⟩)
      · exact .inr (.inr ⟨heq, hle⟩)
    · exact .inl (.inl hgt)

theorem listedBefore_trans : IsTrans LeaseRow listedBefore where
  trans a b c := by
    unfold listedBefore
    rintro (hab | ⟨hab, habId⟩) (hbc | ⟨hbc, hbcId⟩)
    · exact .inl (hbc.trans hab)
    · exact .inl (hbc ▸ hab)
    · exact .inl (hab ▸ hbc)
    · exact .inr ⟨hbc.trans hab, habId.trans hbcId⟩

theorem listedBefore_antisymm {store : Store} {a b : LeaseRow} (ha : a ∈ store.leases.rows)
    (hb : b ∈ store.leases.rows) (hab : listedBefore a b) (hba : listedBefore b a) : a = b := by
  apply Table.eq_of_clash ha hb
  show (a.leaseId == b.leaseId) = true
  rw [beq_iff_eq]
  unfold listedBefore at hab hba
  rcases hab with hab | ⟨_, habId⟩
  · rcases hba with hba | ⟨hba, _⟩
    · exact absurd (hab.trans hba) (lt_irrefl _)
    · rw [hba] at hab
      exact absurd hab (lt_irrefl _)
  · rcases hba with hba | ⟨_, hbaId⟩
    · omega
    · exact le_antisymm habId hbaId

namespace Store

theorem mem_ordered {store : Store} {query : LeaseQuery} {row : LeaseRow}
    (h : row ∈ store.ordered query) : row ∈ store.leases.rows :=
  List.mem_of_mem_filter ((List.mem_insertionSort listedBefore).mp h)

theorem selectLeases_eq (store : Store) (query : LeaseQuery) :
    store.selectLeases query =
      ((store.ordered query).filter query.clause).take query.limit.toNat := by
  have := listedBefore_total
  have := listedBefore_trans
  unfold selectLeases ordered
  rw [← filter_insertionSort, List.filter_filter]
  · congr 3
    funext row
    exact Bool.and_comm _ _
  · intro a b ha hb
    exact listedBefore_antisymm (List.mem_of_mem_filter ha) (List.mem_of_mem_filter hb)

def computed (store : Store) (query : LeaseQuery) : List LeaseRow :=
  ((store.ordered query).filter (fun row => query.status?.all (fun status =>
    effectiveStatus (leaseOf row) query.nowMs == status))).take query.limit.toNat

theorem listing_eq {store : Store} (hreadable : store.Readable) {query : LeaseQuery}
    (hcheck : query.check = .ok ()) :
    store.listing query = .ok ((store.computed query).map (summaryOf query.nowMs)) := by
  have hall := summaries_of_readable (store.ordered query)
    (fun row hrow => hreadable row (mem_ordered hrow)) query.nowMs
  unfold listing computed
  rw [hcheck, hall]
  show Except.ok _ = Except.ok _
  rw [List.filter_map, List.map_take]
  rfl

theorem readAuthorityLeases_eq {store : Store} (hreadable : store.Readable)
    {query : LeaseQuery} (hcheck : query.check = .ok ()) (htime : query.bindTime = .ok ()) :
    store.readAuthorityLeases query =
      .ok ((store.selectLeases query).map (summaryOf query.nowMs)) := by
  have hselected := summaries_of_readable (store.selectLeases query) (by
    intro row hrow
    rw [selectLeases_eq] at hrow
    exact hreadable row (mem_ordered (List.mem_of_mem_filter (List.mem_of_mem_take hrow))))
    query.nowMs
  unfold readAuthorityLeases
  rw [hcheck, htime]
  exact hselected

def isExpired (nowMs : Int) (row : LeaseRow) : Bool :=
  effectiveStatus (leaseOf row) nowMs == .expired

/-- Before each row that straddles the reading time stand as many expired ones as are to be
listed. -/
def Screened (store : Store) (query : LeaseQuery) : Prop :=
  forall before row after, store.ordered query = before ++ row :: after ->
    Straddles query.nowMs row -> query.limit ≤ (before.filter (isExpired query.nowMs)).length

theorem clause_of_expired {query : LeaseQuery} (h : query.status? = some .expired) :
    query.clause = fun row => isExpired query.nowMs row || decide (Straddles query.nowMs row) := by
  funext row
  unfold LeaseQuery.clause isExpired
  rw [h, Bool.eq_iff_iff, Option.all_some, statusClause_iff]
  simp

theorem clause_of_ne_expired {query : LeaseQuery} (h : query.status? ≠ some .expired) :
    query.clause = fun row => query.status?.all (fun status =>
      effectiveStatus (leaseOf row) query.nowMs == status) := by
  funext row
  unfold LeaseQuery.clause
  cases hstatus : query.status? with
  | none => rfl
  | some status =>
      have hother : status ≠ .expired := fun hexpired => h (by rw [hstatus, hexpired])
      rw [Option.all_some, Option.all_some, Bool.eq_iff_iff, statusClause_iff, beq_iff_eq]
      simp [hother]

/-- The query selects the rows of the computed status just if those that straddle the reading
time are crowded out. -/
theorem selectLeases_eq_computed_iff (store : Store) (query : LeaseQuery) :
    store.selectLeases query = store.computed query <->
      (query.status? = some .expired -> store.Screened query) := by
  rw [selectLeases_eq]
  unfold computed
  by_cases hexpired : query.status? = some .expired
  · have hcomputed : (fun row => query.status?.all (fun status =>
        effectiveStatus (leaseOf row) query.nowMs == status)) = isExpired query.nowMs := by
      rw [hexpired]
      rfl
    rw [clause_of_expired hexpired, hcomputed, take_filter_wider_iff]
    constructor
    · intro h _ before row after hsplit hstraddles
      have hlater : isExpired query.nowMs row = false := by
        unfold isExpired
        rw [effectiveStatus_of_straddles hstraddles]
        rfl
      exact Int.toNat_le.mp (h before row after hsplit (decide_eq_true hstraddles) hlater)
    · intro h before row after hsplit hstraddles _
      exact Int.toNat_le.mpr (h hexpired before row after hsplit (of_decide_eq_true hstraddles))
  · rw [clause_of_ne_expired hexpired]
    exact ⟨fun _ h => absurd h hexpired, fun _ => rfl⟩

end Store

/-- A reading time that is a parameter fits, and rows that straddle it are crowded out of a
listing of the expired ones. -/
structure ListsByStatus (store : Store) (query : LeaseQuery) : Prop where
  time : query.bindsTime = true -> query.nowMs < 2 ^ 63
  expired : query.status? = some .expired -> store.Screened query

theorem nonnegative_of_check {query : LeaseQuery} (h : query.check = .ok ()) :
    0 ≤ query.nowMs := by
  by_contra hnegative
  have htime : decide (query.nowMs < 0) = true := decide_eq_true (not_le.mp hnegative)
  unfold LeaseQuery.check readWhen at h
  rw [htime] at h
  cases hrobot : query.robotId.toList.all isSpace <;> rw [hrobot] at h <;> cases h

theorem bindTime_eq {query : LeaseQuery} (h : 0 ≤ query.nowMs) :
    query.bindTime =
      if query.bindsTime = true -> query.nowMs < 2 ^ 63 then .ok () else .error .overflow := by
  have hlow : -(2 ^ 63) ≤ query.nowMs := by omega
  unfold LeaseQuery.bindTime bindInteger
  cases query.bindsTime with
  | false => simp
  | true =>
      by_cases hfits : query.nowMs < 2 ^ 63
      · rw [if_pos rfl, if_pos ⟨hlow, hfits⟩, if_pos (fun _ => hfits)]
        rfl
      · rw [if_pos rfl, if_neg (fun hboth => hfits hboth.2), if_neg (fun himp => hfits (himp rfl))]
        rfl

/-- A listing is the one by computed status under these conditions exactly, and a row is
listed under exactly one status just if its window does not straddle the reading time. -/
theorem lease_listing_iff (store : Store) (query : LeaseQuery) (hreadable : store.Readable) :
    (store.readAuthorityLeases query = store.listing query <->
      (query.check = .ok () -> ListsByStatus store query)) ∧
    forall row, row ∈ store.leases.rows ->
      ((exists status, statusClause query.nowMs row status = true ∧
        forall other, statusClause query.nowMs row other = true -> other = status) <->
        ¬ Straddles query.nowMs row) := by
  refine ⟨?_, fun row _ => listed_once_iff query.nowMs row⟩
  cases hcheck : query.check with
  | error e =>
      have hread : store.readAuthorityLeases query = .error e := by
        unfold Store.readAuthorityLeases
        rw [hcheck]
        rfl
      have hlisting : store.listing query = .error e := by
        unfold Store.listing
        rw [hcheck]
        rfl
      rw [hread, hlisting]
      exact ⟨fun _ hfalse => (by cases hfalse), fun _ => rfl⟩
  | ok checked =>
      have htime := bindTime_eq (nonnegative_of_check hcheck)
      rw [Store.listing_eq hreadable hcheck]
      by_cases hfits : query.bindsTime = true -> query.nowMs < 2 ^ 63
      · rw [if_pos hfits] at htime
        rw [Store.readAuthorityLeases_eq hreadable hcheck htime, Except.ok.injEq,
          map_summaryOf_inj, Store.selectLeases_eq_computed_iff]
        · exact ⟨fun h _ => ⟨hfits, h⟩, fun h => (h rfl).expired⟩
        · intro row hrow
          rw [Store.selectLeases_eq] at hrow
          exact Store.mem_ordered (List.mem_of_mem_filter (List.mem_of_mem_take hrow))
        · intro row hrow
          exact Store.mem_ordered (List.mem_of_mem_filter (List.mem_of_mem_take hrow))
      · rw [if_neg hfits] at htime
        have hread : store.readAuthorityLeases query = .error .overflow := by
          unfold Store.readAuthorityLeases
          rw [hcheck, htime]
          rfl
        rw [hread]
        exact ⟨fun hfalse => (by cases hfalse), fun h => absurd (h rfl).time hfits⟩

/-!
## The rows that the calls store
-/

theorem readable_iff {store : Store} :
    store.Readable <-> forall leaseId row, store.lease? leaseId = some row ->
      exists lease, summaryLease row = .ok lease :=
  ⟨fun h _ row hrow => h row (lease?_eq_some hrow).1,
    fun h row hrow => h row.leaseId row (lease?_of_mem hrow rfl)⟩

theorem summaryLease_newRow {lease : AuthorityLease} (h : lease.check = .ok ()) (nowMs : Int) :
    summaryLease (Store.newRow lease nowMs) = .ok lease := by
  have hcapabilities : (Json.strings lease.capabilities).tuple >>= textItems =
      .ok lease.capabilities := textItems_map_str lease.capabilities
  show (do
    let capabilities <- (Json.strings lease.capabilities).tuple >>= textItems
    ({ lease with capabilities := capabilities } : AuthorityLease).check
    Except.ok { lease with capabilities := capabilities }) = _
  rw [hcapabilities]
  show (do
    lease.check
    Except.ok lease) = _
  rw [h]
  rfl

theorem check_ended {lease : AuthorityLease} (h : lease.check = .ok ()) (status : LeaseStatus) :
    ({ lease with status := status, revision := lease.revision + 1 } : AuthorityLease).check =
      .ok () := by
  rcases bind_eq_ok.mp h with ⟨_, hleaseId, h⟩
  rcases bind_eq_ok.mp h with ⟨_, hgrantor, h⟩
  rcases bind_eq_ok.mp h with ⟨_, hissuer, h⟩
  rcases bind_eq_ok.mp h with ⟨_, hcount, h⟩
  rcases bind_eq_ok.mp h with ⟨_, hunique, h⟩
  rcases bind_eq_ok.mp h with ⟨_, hcapabilities, h⟩
  rcases bind_eq_ok.mp h with ⟨_, hwindow, h⟩
  rcases bind_eq_ok.mp h with ⟨_, huncertainty, hrevision⟩
  have hpositive : ¬ lease.revision < 1 := of_decide_eq_false (refuseWhen_eq_ok hrevision)
  have hnext : refuseWhen (decide (lease.revision + 1 < 1)) "lease revision must be positive" =
      .ok () := by
    rw [decide_eq_false (by omega)]
    rfl
  exact bind_eq_ok.mpr ⟨_, hleaseId, bind_eq_ok.mpr ⟨_, hgrantor, bind_eq_ok.mpr ⟨_, hissuer,
    bind_eq_ok.mpr ⟨_, hcount, bind_eq_ok.mpr ⟨_, hunique, bind_eq_ok.mpr ⟨_, hcapabilities,
      bind_eq_ok.mpr ⟨_, hwindow, bind_eq_ok.mpr ⟨_, huncertainty, hnext⟩⟩⟩⟩⟩⟩⟩⟩

theorem summaryLease_ended {row : LeaseRow} {lease : AuthorityLease}
    (h : summaryLease row = .ok lease) (nowMs : Int) :
    summaryLease (Store.ended (row.revision + 1) nowMs row) =
      .ok { lease with status := .revoked, revision := row.revision + 1 } := by
  rcases bind_eq_ok.mp h with ⟨_, harray, h⟩
  rcases bind_eq_ok.mp h with ⟨capabilities, hcapabilities, h⟩
  rcases bind_eq_ok.mp h with ⟨_, hcheck, h⟩
  cases Except.ok.inj h
  exact bind_eq_ok.mpr ⟨_, harray, bind_eq_ok.mpr ⟨capabilities, hcapabilities,
    bind_eq_ok.mpr ⟨_, check_ended hcheck .revoked, rfl⟩⟩⟩

/-- The lease of a grant has been built, so it has passed its checks. -/
def Call.Built (call : Call) : Prop :=
  forall lease nowMs, call.operation = .grant lease nowMs -> lease.check = .ok ()

theorem readable_grant {robotId : String} {file file' : Store} {lease : AuthorityLease}
    {nowMs : Int} (hfile : file.Readable) (hlease : lease.check = .ok ())
    (h : file.grant robotId lease nowMs = .ok file') : file'.Readable := by
  rw [readable_iff] at hfile ⊢
  intro leaseId row hrow
  rw [lease?_grant h] at hrow
  by_cases hid : leaseId = lease.leaseId
  · rw [if_pos hid] at hrow
    rcases ok_of_bind h with ⟨_, _, h⟩
    rcases ok_of_bind h with ⟨_, hrenewal, _⟩
    have hnew : row = Store.newRow lease nowMs := by
      cases hold : file.lease? lease.leaseId with
      | none =>
          rw [hold] at hrow
          exact (Option.some.inj hrow).symm
      | some old =>
          rw [hold] at hrow hrenewal
          rw [← renewed_eq hrenewal (lease?_eq_some hold).2]
          exact (Option.some.inj hrow).symm
    rw [hnew]
    exact ⟨lease, summaryLease_newRow hlease nowMs⟩
  · rw [if_neg hid] at hrow
    exact hfile leaseId row hrow

theorem readable_revoke {leaseId reason : String} {file file' : Store}
    {expectedRevision nowMs : Int} (hfile : file.Readable)
    (h : file.revoke leaseId expectedRevision nowMs reason = .ok file') : file'.Readable := by
  rw [readable_iff] at hfile ⊢
  intro other row hrow
  rw [lease?_revoke h] at hrow
  by_cases hid : other = leaseId
  · rw [if_pos hid] at hrow
    rcases Option.map_eq_some_iff.mp hrow with ⟨old, hold, rfl⟩
    rcases ok_of_bind h with ⟨_, _, h⟩
    rcases ok_of_bind h with ⟨_, hchecked, _⟩
    rw [hold] at hchecked
    rcases ok_of_bind hchecked with ⟨_, hrevision, _⟩
    have hexpected : old.revision = expectedRevision := by
      simpa using forbidWhen_eq_ok hrevision
    rcases hfile leaseId old hold with ⟨lease, hlease⟩
    rw [← hexpected]
    exact ⟨_, summaryLease_ended hlease nowMs⟩
  · rw [if_neg hid] at hrow
    exact hfile other row hrow

theorem readable_perform {file : Store} {call : Call} (hfile : file.Readable)
    (hbuilt : call.Built) : (file.perform call).Readable := by
  rcases call with ⟨robotId, operation⟩
  cases operation with
  | grant lease nowMs =>
      rw [perform_grant]
      cases hgrant : file.grant robotId lease nowMs with
      | error e => exact hfile
      | ok file' => exact readable_grant hfile (hbuilt lease nowMs rfl) hgrant
  | revoke leaseId expectedRevision nowMs reason =>
      rw [perform_revoke]
      cases hrevoke : file.revoke leaseId expectedRevision nowMs reason with
      | error e => exact hfile
      | ok file' => exact readable_revoke hfile hrevoke
  | authorize issuerId target assignment nowMs =>
      rw [perform_authorize]
      exact hfile
  | reopen => exact hfile

theorem readable_replay {calls : List Call} (h : forall call, call ∈ calls -> call.Built) :
    (Store.replay calls).Readable := by
  have hempty : Store.empty.Readable := fun row hrow => by cases hrow
  unfold Store.replay
  generalize Store.empty = file at hempty ⊢
  induction calls generalizing file with
  | nil => exact hempty
  | cons call rest ih =>
      exact ih (fun other hother => h other (List.mem_cons_of_mem call hother)) _
        (readable_perform hempty (h call List.mem_cons_self))

/-!
## A narrow window
-/

def listQuery (effectiveStatus : String) (nowMs : Int) : LeaseQuery where
  robotId := "r1"
  nowMs := nowMs
  effectiveStatus := some effectiveStatus
  issuerId := none
  limit := 100

def patrolFile : Store :=
  Store.replay [⟨"r1", .grant patrolLease 0⟩]

theorem patrolFile_readable : patrolFile.Readable := by
  apply readable_replay
  intro call hcall lease nowMs hgrant
  rw [List.mem_singleton.mp hcall] at hgrant
  cases hgrant
  rfl

theorem patrol_listed_by_status :
    patrolFile.readAuthorityLeases (listQuery "active" 50) =
      patrolFile.listing (listQuery "active" 50) :=
  (lease_listing_iff patrolFile (listQuery "active" 50) patrolFile_readable).1.mpr
    (fun _ => ⟨fun _ => by decide, fun hexpired => by cases hexpired⟩)

def narrowLease : AuthorityLease :=
  { patrolLease with maximumClockUncertaintyMs := 50 }

def narrowFile : Store :=
  Store.replay [⟨"r1", .grant narrowLease 0⟩]

def statusesListed (effectiveStatus : String) : Except ReadExn (List EffectiveStatus) :=
  (narrowFile.readAuthorityLeases (listQuery effectiveStatus 55)).map
    (fun summaries => summaries.map LeaseSummary.effectiveStatus)

/-- The lease is not yet valid at the reading time, and it is listed as expired too. -/
theorem narrow_lease_listed_twice :
    narrowFile.readAuthorityLeases (listQuery "expired" 55) ≠
        narrowFile.listing (listQuery "expired" 55) ∧
      statusesListed "not_yet_valid" = .ok [.notYetValid] ∧
      statusesListed "expired" = .ok [.notYetValid] := by
  have hlisted : statusesListed "expired" = .ok [.notYetValid] := rfl
  have hnone : narrowFile.listing (listQuery "expired" 55) = .ok [] := rfl
  refine ⟨?_, rfl, hlisted⟩
  intro hsame
  unfold statusesListed at hlisted
  rw [hsame, hnone] at hlisted
  cases hlisted

end Ump.Authority
