import Mathlib.Algebra.BigOperators.Group.List.Lemmas
import Mathlib.Data.List.Sort
import Ump.Delivery.Capacity
import Ump.Delivery.Handoff

/-!
# Diagnostics

## Grouped rows

`ump-ops` reads the two stores without changing them and reports what it has counted.
-/

namespace Ump.Delivery

open Foundation

/-- `SELECT key, COUNT(*) ... GROUP BY key`, with the keys in the order of their texts. -/
def groupCounts [DecidableEq key] (text : key -> String) (keys : List key) : List (key × Nat) :=
  (keys.dedup.insertionSort (fun a b => text a ≤ text b)).map (fun key => (key, keys.count key))

/-- `counts.get(key, 0)`. -/
def countOf [DecidableEq key] (counts : List (key × Nat)) (key : key) : Nat :=
  (counts.lookup key).getD 0

section

variable [DecidableEq key] (text : key -> String) (keys : List key)

theorem lookup_map_pair {f : key -> value} {items : List key} {name : key} :
    (items.map (fun item => (item, f item))).lookup name =
      if name ∈ items then some (f name) else none := by
  induction items with
  | nil => rfl
  | cons head rest ih =>
      rw [List.map_cons, List.lookup_cons, ih]
      by_cases hname : name = head
      · subst hname
        rw [if_pos List.mem_cons_self, beq_self_eq_true]
      · rw [beq_false_of_ne hname]
        simp only [List.mem_cons, hname, false_or]

theorem countOf_groupCounts (name : key) :
    countOf (groupCounts text keys) name = keys.count name := by
  unfold countOf groupCounts
  rw [lookup_map_pair]
  by_cases hname : name ∈ keys
  · rw [if_pos (by simpa using hname), Option.getD_some]
  · rw [if_neg (by simpa using hname), Option.getD_none]
    exact (List.count_eq_zero.mpr hname).symm

theorem sum_groupCounts : ((groupCounts text keys).map Prod.snd).sum = keys.length := by
  unfold groupCounts
  rw [List.map_map]
  have hperm := (List.perm_insertionSort (fun a b => text a ≤ text b) keys.dedup).map
    (fun key => keys.count key)
  exact hperm.sum_eq.trans (List.sum_map_count_dedup_eq_length keys)

end

/-!
## The report
-/

def DeliveryStatus.value : DeliveryStatus -> String
  | .pending => "pending"
  | .delivered => "delivered"

def InboxStatus.value : InboxStatus -> String
  | .staged => "staged"
  | .received => "received"
  | .processing => "processing"
  | .processed => "processed"
  | .failed => "failed"

namespace Diagnostics

structure Checks where
  outboxHasCapacity : Bool
  operationalReservePreserved : Bool
  pendingAgeWithinLimit : Bool
  inboxHasNoDeadLetters : Bool

def Checks.all (checks : Checks) : Bool :=
  checks.outboxHasCapacity && checks.operationalReservePreserved &&
    checks.pendingAgeWithinLimit && checks.inboxHasNoDeadLetters

structure Report where
  observedAtMs : Int
  healthy : Bool
  checks : Checks
  outboxCounts : List (DeliveryStatus × Nat)
  pendingByPeer : List (String × Nat)
  pendingByStream : List (Stream × Nat)
  pendingAttempts : Nat
  oldestPendingAgeMs : Option Int
  nextRetryAtMs : Option Int
  inboxCounts : List (InboxStatus × Nat)

structure Query where
  maximumPending : Int
  reservedSafety : Int
  observedAtMs : Int
  maximumPendingAgeMs : Int
  detailLimit : Int

def pendingRows (outbox : Outbox) : List OutboxRow :=
  outbox.rows.filter (fun row => row.status == .pending)

def check (query : Query) (outboxCounts : List (DeliveryStatus × Nat))
    (pendingByStream : List (Stream × Nat)) (oldestAge : Option Int)
    (inboxCounts : List (InboxStatus × Nat)) : Checks where
  outboxHasCapacity := decide ((countOf outboxCounts .pending : Int) < query.maximumPending)
  operationalReservePreserved := decide
    ((countOf pendingByStream .operational : Int) < query.maximumPending - query.reservedSafety)
  pendingAgeWithinLimit :=
    oldestAge.all (fun age => decide (0 ≤ age ∧ age ≤ query.maximumPendingAgeMs))
  inboxHasNoDeadLetters := decide (countOf inboxCounts .failed = 0)

def report (query : Query) (inbox : Inbox) (outbox : Outbox) : Report :=
  let rows := pendingRows outbox
  let outboxCounts := groupCounts DeliveryStatus.value (outbox.rows.map OutboxRow.status)
  let pendingByStream := groupCounts Stream.value (rows.map OutboxRow.stream)
  let oldestAge := (rows.map OutboxRow.createdAtMs).min?.map (fun ms => query.observedAtMs - ms)
  let inboxCounts := groupCounts InboxStatus.value (inbox.rows.map InboxRow.status)
  let checks := check query outboxCounts pendingByStream oldestAge inboxCounts
  { observedAtMs := query.observedAtMs
    healthy := checks.all
    checks := checks
    outboxCounts := outboxCounts
    pendingByPeer := groupCounts id (rows.map OutboxRow.peerId)
    pendingByStream := pendingByStream
    pendingAttempts := (rows.map OutboxRow.attempts).sum
    oldestPendingAgeMs := oldestAge
    nextRetryAtMs := (rows.map OutboxRow.nextAttemptMs).min?
    inboxCounts := inboxCounts }

def inspectNetworkDatabases (query : Query) (inbox : Inbox) (outbox : Outbox) :
    Except Exn Report := do
  refuseWhen (decide (query.maximumPending < 1)) "maximum_pending must be a positive integer"
  refuseWhen (decide (query.reservedSafety < 0 ∨ query.maximumPending ≤ query.reservedSafety))
    "reserved_safety must fit inside maximum_pending"
  refuseWhen (decide (query.observedAtMs < 0)) "observed_at_ms must be a non-negative integer"
  refuseWhen (decide (query.maximumPendingAgeMs < 0))
    "maximum_pending_age_ms must be a non-negative integer"
  refuseWhen (decide (¬ (1 ≤ query.detailLimit ∧ query.detailLimit ≤ 1000)))
    "detail_limit must be between 1 and 1000"
  .ok (report query inbox outbox)

/-!
## Admission

Whether the outbox would take one more delivery, read from the counts: a safety delivery needs a
place, and an operational one needs a place that is not reserved.
-/

open Outbox

variable {limits : Limits} {outbox : Outbox} {peerId : String} {envelope : Envelope} {nowMs : Int}

/-- A delivery that is not stored yet, of numbers that the columns hold. -/
structure Fresh (outbox : Outbox) (peerId : String) (envelope : Envelope) (nowMs : Int) :
    Prop where
  encodes : exists body, envelope.encode = .ok body
  sequence : bindInteger envelope.sequence = .ok ()
  time : bindInteger nowMs = .ok ()
  id : forall row, row ∈ outbox.rows -> row.peerId = peerId ->
    row.messageId ≠ envelope.messageId
  number : forall row, row ∈ outbox.rows -> row.peerId = peerId ->
    row.sessionId = envelope.sessionId -> row.stream = envelope.stream ->
      row.sequence ≠ envelope.sequence

theorem enqueue_fresh (h : Fresh outbox peerId envelope nowMs) : exists body,
    enqueueMany limits outbox [(peerId, envelope)] nowMs =
      (do
        checkPending limits outbox.pending
          [{ peerId := peerId, envelope := envelope, body := body }]
        checkOperational limits outbox.operationalPending
          [{ peerId := peerId, envelope := envelope, body := body }]
        insertAll nowMs [{ peerId := peerId, envelope := envelope, body := body }] outbox) := by
  rcases h.encodes with ⟨body, hbody⟩
  refine ⟨body, ?_⟩
  have hencoded : encodeAll [(peerId, envelope)] =
      .ok [{ peerId := peerId, envelope := envelope, body := body }] := by
    unfold encodeAll
    rw [hbody]
    rfl
  have hrow : outbox.row? (peerId, envelope.messageId) = none := by
    apply row?_eq_none.mpr
    intro row hrow hkey
    exact h.id row hrow (congrArg Prod.fst hkey) (congrArg Prod.snd hkey)
  have hcollect : outbox.collect [] []
      [{ peerId := peerId, envelope := envelope, body := body }] =
        .ok [{ peerId := peerId, envelope := envelope, body := body }] := by
    have hkey : outbox.row? (Item.key { peerId := peerId, envelope := envelope, body := body }) =
        none := hrow
    unfold collect
    rw [hkey]
    rfl
  show (encodeAll [(peerId, envelope)] >>= _) = _
  rw [hencoded]
  show (outbox.collect [] [] _ >>= _) = _
  rw [hcollect]
  rfl

structure Admission (limits : Limits) (outbox : Outbox) (peerId : String) (envelope : Envelope)
    (nowMs : Int) (hasCapacity reservePreserved : Bool) : Prop where
  full : hasCapacity = false ->
    enqueueMany limits outbox [(peerId, envelope)] nowMs =
      .error (.runtime "durable outbound queue is full")
  reserved : hasCapacity = true -> reservePreserved = false -> envelope.stream = .operational ->
    enqueueMany limits outbox [(peerId, envelope)] nowMs =
      .error (.runtime "durable outbound queue is preserving safety capacity")
  stored : hasCapacity = true -> (envelope.stream = .operational -> reservePreserved = true) ->
    exists outbox', enqueueMany limits outbox [(peerId, envelope)] nowMs = .ok outbox'

theorem insertAll_fresh (h : Fresh outbox peerId envelope nowMs) (body : Text) :
    exists outbox',
      insertAll nowMs [{ peerId := peerId, envelope := envelope, body := body }] outbox =
        .ok outbox' := by
  have hclash : forall row, row ∈ outbox.rows -> Keyed.clash row
      (newRow nowMs { peerId := peerId, envelope := envelope, body := body }) = false := by
    intro row hrow
    show (row.peerId == peerId && (row.messageId == envelope.messageId ||
      (row.sessionId == envelope.sessionId && row.stream == envelope.stream &&
        row.sequence == envelope.sequence))) = false
    by_cases hpeer : row.peerId = peerId
    · have hid := h.id row hrow hpeer
      have hnumber := h.number row hrow hpeer
      by_cases hsession : row.sessionId = envelope.sessionId
      · by_cases hstream : row.stream = envelope.stream
        · simp [hid, hnumber hsession hstream]
        · simp [hid, hstream]
      · simp [hid, hsession]
    · simp [hpeer]
  rcases Table.insert?_of_no_clash hclash with ⟨outbox', hinsert⟩
  refine ⟨outbox', ?_⟩
  unfold insertAll insertOne
  rw [h.sequence, h.time, hinsert]
  rfl

theorem admission (hwithin : Within limits outbox) (h : Fresh outbox peerId envelope nowMs) :
    Admission limits outbox peerId envelope nowMs
      (decide (outbox.pending < limits.maximumPending))
      (decide (outbox.operationalPending < limits.maximumPending - limits.safetyReserve)) := by
  rcases @enqueue_fresh limits outbox peerId envelope nowMs h with ⟨body, henqueue⟩
  rcases insertAll_fresh h body with ⟨outbox', hinsert⟩
  have hoperational := hwithin.operational
  have hcount : newOperational [{ peerId := peerId, envelope := envelope, body := body }] =
      if envelope.stream = .operational then 1 else 0 := by
    unfold newOperational
    rw [List.countP_singleton]
    cases envelope.stream <;> rfl
  have hpasses : outbox.pending < limits.maximumPending -> checkPending limits outbox.pending
      [{ peerId := peerId, envelope := envelope, body := body }] = .ok () :=
    fun hspace => if_neg (Nat.not_lt.mpr hspace)
  constructor
  case full =>
      intro hfull
      have hpending := Nat.not_lt.mp (of_decide_eq_false hfull)
      have hrefused : checkPending limits outbox.pending
          [{ peerId := peerId, envelope := envelope, body := body }] =
            .error (.runtime "durable outbound queue is full") :=
        if_pos (Nat.lt_succ_of_le hpending)
      rw [henqueue, hrefused]
      rfl
  case reserved =>
      intro hspace hreserved hstream
      have hreserve := Nat.not_lt.mp (of_decide_eq_false hreserved)
      have hrefused : checkOperational limits outbox.operationalPending
          [{ peerId := peerId, envelope := envelope, body := body }] =
            .error (.runtime "durable outbound queue is preserving safety capacity") := by
        unfold checkOperational
        rw [hcount, if_pos hstream, if_pos (Nat.lt_succ_of_le hreserve)]
      rw [henqueue, hpasses (of_decide_eq_true hspace), hrefused]
      rfl
  case stored =>
      intro hspace hreserved
      have hadmitted : checkOperational limits outbox.operationalPending
          [{ peerId := peerId, envelope := envelope, body := body }] = .ok () := by
        unfold checkOperational
        rw [hcount]
        apply if_neg
        split
        · next hstream => exact Nat.not_lt.mpr (of_decide_eq_true (hreserved hstream))
        · exact Nat.not_lt.mpr hoperational
      rw [henqueue, hpasses (of_decide_eq_true hspace), hadmitted]
      exact ⟨outbox', hinsert⟩

/-!
## What the report says
-/

theorem pending_eq_count (outbox : Outbox) :
    countOf (groupCounts DeliveryStatus.value (outbox.rows.map OutboxRow.status)) .pending =
      outbox.pending := by
  rw [countOf_groupCounts]
  exact List.countP_map

theorem operational_eq_count (outbox : Outbox) :
    countOf (groupCounts Stream.value ((pendingRows outbox).map OutboxRow.stream)) .operational =
      outbox.operationalPending := by
  rw [countOf_groupCounts]
  unfold pendingRows operationalPending
  refine List.countP_map.trans (List.countP_filter.trans ?_)
  apply List.countP_congr
  intro row _
  rw [Bool.and_comm]
  rfl

theorem mem_pendingRows {outbox : Outbox} {row : OutboxRow} :
    row ∈ pendingRows outbox <-> row ∈ outbox.rows ∧ row.status = .pending := by
  unfold pendingRows
  rw [List.mem_filter, beq_iff_eq]

theorem readyRows_of_lt {nowMs limit : Int} {stream? : Option Stream}
    (h : forall ms, ((pendingRows outbox).map OutboxRow.nextAttemptMs).min? = some ms ->
      nowMs < ms) : outbox.readyRows nowMs limit stream? = [] := by
  have hdue : outbox.due nowMs stream? = [] := by
    unfold due
    apply List.filter_eq_nil_iff.mpr
    intro row hrow hready
    simp only [Bool.and_eq_true, beq_iff_eq, decide_eq_true_eq] at hready
    have hmem : row.nextAttemptMs ∈ (pendingRows outbox).map OutboxRow.nextAttemptMs :=
      List.mem_map_of_mem (mem_pendingRows.mpr ⟨hrow, hready.1.1.1⟩)
    cases hmin : ((pendingRows outbox).map OutboxRow.nextAttemptMs).min? with
    | none =>
        rw [List.min?_eq_none_iff.mp hmin] at hmem
        cases hmem
    | some ms =>
        have hle := (List.min?_eq_some_iff.mp hmin).2 _ hmem
        have hlt := h ms hmin
        omega
  unfold readyRows
  rw [hdue]
  exact List.take_nil

/-- The age of the oldest pending row is within the limit exactly when no pending row is older,
and one of them, if there is any, is not of a later time. -/
theorem age_iff {observedAtMs maximumMs : Int} :
    (((pendingRows outbox).map OutboxRow.createdAtMs).min?.map (fun ms => observedAtMs - ms)).all
        (fun age => decide (0 ≤ age ∧ age ≤ maximumMs)) = true <->
      (forall row, row ∈ pendingRows outbox -> observedAtMs - row.createdAtMs ≤ maximumMs) ∧
        (pendingRows outbox ≠ [] -> exists row, row ∈ pendingRows outbox ∧
          row.createdAtMs ≤ observedAtMs) := by
  cases hmin : ((pendingRows outbox).map OutboxRow.createdAtMs).min? with
  | none =>
      have hnil := List.map_eq_nil_iff.mp (List.min?_eq_none_iff.mp hmin)
      rw [hnil]
      simp
  | some ms =>
      rcases List.min?_eq_some_iff.mp hmin with ⟨hmem, hleast⟩
      rcases List.mem_map.mp hmem with ⟨oldest, holdest, rfl⟩
      rw [Option.map_some, Option.all_some, decide_eq_true_eq]
      constructor
      · intro hage
        refine ⟨?_, fun _ => ⟨oldest, holdest, by omega⟩⟩
        intro row hrow
        have hle := hleast _ (List.mem_map_of_mem hrow)
        omega
      · rintro ⟨hall, hsome⟩
        rcases hsome (List.ne_nil_of_mem holdest) with ⟨row, hrow, hpast⟩
        have hle := hleast _ (List.mem_map_of_mem hrow)
        have hold := hall oldest holdest
        omega

/-- The report is about the stores as the service sees them. -/
structure Describes (limits : Limits) (query : Query) (inbox : Inbox) (outbox : Outbox)
    (report : Report) : Prop where
  admission : forall peerId envelope nowMs, Fresh outbox peerId envelope nowMs ->
    Admission limits outbox peerId envelope nowMs report.checks.outboxHasCapacity
      report.checks.operationalReservePreserved
  retry : forall nowMs limit stream?,
    (forall ms, report.nextRetryAtMs = some ms -> nowMs < ms) ->
      outbox.readyRows nowMs limit stream? = []
  age : report.checks.pendingAgeWithinLimit = true <->
    (forall row, row ∈ pendingRows outbox ->
        query.observedAtMs - row.createdAtMs ≤ query.maximumPendingAgeMs) ∧
      (pendingRows outbox ≠ [] -> exists row, row ∈ pendingRows outbox ∧
        row.createdAtMs ≤ query.observedAtMs)
  deadLetters : report.checks.inboxHasNoDeadLetters = true <->
    forall row, row ∈ inbox.rows -> row.status ≠ .failed
  rows : (report.outboxCounts.map Prod.snd).sum = outbox.rows.length
  peers : (report.pendingByPeer.map Prod.snd).sum = countOf report.outboxCounts .pending
  streams : (report.pendingByStream.map Prod.snd).sum = countOf report.outboxCounts .pending

theorem length_pendingRows (outbox : Outbox) : (pendingRows outbox).length = outbox.pending :=
  List.countP_eq_length_filter.symm

/-- In every outbox that operations with these limits have filled, the report tells which
deliveries will be stored, that nothing is retried before the time it names, how old the pending
rows are, and in which groups they are. -/
theorem report_describes (limits : Limits) (operations : List Operation) (inbox : Inbox)
    (outbox : Outbox) (query : Query) (report : Report)
    (hreplay : replay limits operations = .idle outbox)
    (hmaximum : query.maximumPending = limits.maximumPending)
    (hreserve : query.reservedSafety = limits.safetyReserve)
    (h : inspectNetworkDatabases query inbox outbox = .ok report) :
    Describes limits query inbox outbox report := by
  have hwithin : Within limits outbox := by
    rcases replay_within limits operations with ⟨other, hother, hwithin⟩
    rw [hreplay] at hother
    cases hother
    exact hwithin
  have hreport : report = Diagnostics.report query inbox outbox := by
    unfold inspectNetworkDatabases at h
    simp only [bind_eq_ok] at h
    rcases h with ⟨_, _, _, _, _, _, _, _, _, _, h⟩
    exact (Except.ok.inj h).symm
  subst hreport
  have hpending := (length_pendingRows outbox).trans (pending_eq_count outbox).symm
  have hreserved := limits.reserved
  have hcapacity : (Diagnostics.report query inbox outbox).checks.outboxHasCapacity =
      decide (outbox.pending < limits.maximumPending) := by
    show decide (((countOf _ DeliveryStatus.pending : Nat) : Int) < _) = _
    rw [pending_eq_count, hmaximum]
    exact decide_eq_decide.mpr Int.ofNat_lt
  have hpreserved : (Diagnostics.report query inbox outbox).checks.operationalReservePreserved =
      decide (outbox.operationalPending < limits.maximumPending - limits.safetyReserve) := by
    show decide (((countOf _ Stream.operational : Nat) : Int) < _) = _
    rw [operational_eq_count, hmaximum, hreserve]
    apply decide_eq_decide.mpr
    omega
  constructor
  case admission =>
      intro peerId envelope nowMs hfresh
      rw [hcapacity, hpreserved]
      exact Diagnostics.admission hwithin hfresh
  case retry => exact fun nowMs limit stream? hbefore => readyRows_of_lt hbefore
  case age => exact age_iff
  case deadLetters =>
      show decide (countOf _ InboxStatus.failed = 0) = true <-> _
      rw [decide_eq_true_eq, countOf_groupCounts, List.count_eq_zero]
      exact ⟨fun hnone row hrow hfailed => hnone (hfailed ▸ List.mem_map_of_mem hrow),
        fun hall hmem => by
          rcases List.mem_map.mp hmem with ⟨row, hrow, hfailed⟩
          exact hall row hrow hfailed⟩
  case rows => exact (sum_groupCounts _ _).trans (List.length_map _)
  case peers => exact (sum_groupCounts _ _).trans ((List.length_map _).trans hpending)
  case streams => exact (sum_groupCounts _ _).trans ((List.length_map _).trans hpending)

theorem replay_singleton (limits : Limits) (operation : Operation) :
    replay limits [operation] = .idle (Outbox.apply limits Table.empty operation) :=
  perform_idle limits Table.empty operation

def smallLimits : Limits where
  maximumPending := 2
  safetyReserve := 1
  reserved := by decide

def smallQuery : Query where
  maximumPending := 2
  reservedSafety := 1
  observedAtMs := 500
  maximumPendingAgeMs := 60000
  detailLimit := 20

def oneHeartbeat : Operation :=
  .enqueueMany [("hub", heartbeat 1)] 100

theorem heartbeat_report : exists report,
    inspectNetworkDatabases smallQuery Table.empty
        (Outbox.apply smallLimits Table.empty oneHeartbeat) = .ok report ∧
      report.checks.outboxHasCapacity = true ∧
        report.checks.operationalReservePreserved = false ∧
          Describes smallLimits smallQuery Table.empty
            (Outbox.apply smallLimits Table.empty oneHeartbeat) report := by
  have hreplay := replay_singleton smallLimits oneHeartbeat
  refine ⟨_, rfl, by decide +kernel, by decide +kernel, ?_⟩
  exact report_describes smallLimits _ Table.empty _ smallQuery _ hreplay rfl rfl rfl

end Diagnostics

end Ump.Delivery
