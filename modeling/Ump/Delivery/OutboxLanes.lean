import Mathlib.Data.List.Sort
import Ump.Delivery.Outbox

/-!
# Lanes of the outbox

## First rows

The rows for one peer and stream are one lane, whatever their sessions. A delivery takes the
first pending row of a lane, so that what has been delivered is always the beginning of it.
-/

namespace Ump.Delivery.Outbox

open Foundation

structure OutLane where
  peerId : String
  stream : Stream
deriving DecidableEq

def laneOfRow (row : OutboxRow) : OutLane where
  peerId := row.peerId
  stream := row.stream

def rowsOf (outbox : Outbox) (lane : OutLane) : List OutboxRow :=
  outbox.rows.filter (fun row => laneOfRow row == lane)

/-- The first row of its lane that has not been delivered. -/
structure First (outbox : Outbox) (row : OutboxRow) : Prop where
  mem : row ∈ outbox.rows
  pending : row.status = .pending
  first : forall other, outbox.Before other row -> laneOfRow other = laneOfRow row ->
    other.status = .delivered

/-- In each lane, whatever stands before a delivered row has been delivered. -/
def Fifo (outbox : Outbox) : Prop :=
  forall a b, outbox.Before a b -> laneOfRow a = laneOfRow b -> b.status = .delivered ->
    a.status = .delivered

structure Formed (row : OutboxRow) : Prop where
  messageId : row.messageId = row.envelope.messageId
  stream : row.stream = row.envelope.stream

theorem not_pending {status : DeliveryStatus} (h : status ≠ .pending) : status = .delivered := by
  cases status with
  | pending => exact absurd rfl h
  | delivered => rfl

theorem clash_self (row : OutboxRow) : Keyed.clash row row = true := by
  simp [Keyed.clash]

theorem first_unique {outbox : Outbox} {a b : OutboxRow} (ha : First outbox a)
    (hb : First outbox b) (hlane : laneOfRow a = laneOfRow b) : a = b := by
  by_contra hne
  rcases Table.before_total ha.mem hb.mem hne with hbefore | hbefore
  · have hdelivered := hb.first a hbefore hlane
    rw [ha.pending] at hdelivered
    cases hdelivered
  · have hdelivered := ha.first b hbefore hlane.symm
    rw [hb.pending] at hdelivered
    cases hdelivered

/-!
## What is ready
-/

theorem firstPending_eq_some {outbox : Outbox} {peerId : String} {stream : Stream}
    {row : OutboxRow} (h : outbox.firstPending peerId stream = some row) :
    First outbox row ∧ row.peerId = peerId ∧ row.stream = stream := by
  rcases List.find?_eq_some_iff_append.mp h with ⟨htest, before, after, hsplit, hearlier⟩
  simp only [Bool.and_eq_true, beq_iff_eq] at htest
  rcases htest with ⟨⟨hpeer, hstream⟩, hpending⟩
  refine ⟨⟨?_, hpending, ?_⟩, hpeer, hstream⟩
  · rw [hsplit]
    exact List.mem_append_right _ List.mem_cons_self
  · intro other hbefore hlane
    have hother : other ∈ before := by
      have hnodup := outbox.nodup clash_self
      unfold Table.Before at hbefore
      rw [hsplit] at hnodup hbefore
      have hfresh := (List.nodup_cons.mp (List.nodup_middle.mp hnodup)).1
      rcases sublist_pair_append.mp hbefore with hpair | ⟨hmem, _⟩ | hpair
      · exact hpair.subset List.mem_cons_self
      · exact hmem
      · cases hpair with
        | cons _ hpair =>
            exact absurd (List.mem_append_right _ (hpair.subset (by simp))) hfresh
        | cons_cons _ hpair =>
            exact absurd (List.mem_append_right _ (hpair.subset (by simp))) hfresh
    apply not_pending
    intro hotherPending
    have hnot := hearlier other hother
    have hsame : other.peerId = row.peerId ∧ other.stream = row.stream := by
      rw [laneOfRow, laneOfRow] at hlane
      exact ⟨congrArg OutLane.peerId hlane, congrArg OutLane.stream hlane⟩
    simp [hsame.1, hsame.2, hpeer, hstream, hotherPending] at hnot

theorem firstPending_of_first {outbox : Outbox} {row : OutboxRow} (h : First outbox row) :
    outbox.firstPending row.peerId row.stream = some row := by
  cases hfound : outbox.firstPending row.peerId row.stream with
  | none =>
      have hnone := Table.fetch_eq_none.mp hfound row h.mem
      simp [h.pending] at hnone
  | some found =>
      rcases firstPending_eq_some hfound with ⟨hfirst, hpeer, hstream⟩
      rw [first_unique hfirst h (by rw [laneOfRow, laneOfRow, hpeer, hstream])]

theorem isFirst_iff {outbox : Outbox} {row : OutboxRow} (hrow : row ∈ outbox.rows) :
    outbox.isFirst row = true <-> First outbox row := by
  unfold isFirst
  rw [Option.any_eq_true]
  constructor
  · rintro ⟨found, hfound, hid⟩
    rcases firstPending_eq_some hfound with ⟨hfirst, hpeer, _⟩
    have hkey : keyOf found = keyOf row := by
      rw [keyOf, keyOf, hpeer, beq_iff_eq.mp hid]
    rw [← eq_of_key hfirst.mem hrow hkey]
    exact hfirst
  · intro h
    exact ⟨row, firstPending_of_first h, by simp⟩

theorem mem_due_iff {outbox : Outbox} {nowMs : Int} {stream? : Option Stream}
    {row : OutboxRow} : row ∈ outbox.due nowMs stream? <->
      First outbox row ∧ (forall stream, stream? = some stream -> row.stream = stream) ∧
        row.nextAttemptMs ≤ nowMs := by
  unfold due
  rw [List.mem_filter]
  simp only [Bool.and_eq_true, beq_iff_eq, decide_eq_true_eq, Option.all_eq_true]
  constructor
  · rintro ⟨hrow, ⟨⟨_, hfirst⟩, hstream⟩, hdue⟩
    exact ⟨(isFirst_iff hrow).mp hfirst, hstream, hdue⟩
  · rintro ⟨hfirst, hstream, hdue⟩
    exact ⟨hfirst.mem, ⟨⟨hfirst.pending, (isFirst_iff hfirst.mem).mpr hfirst⟩, hstream⟩, hdue⟩

theorem mem_readyRows {outbox : Outbox} {nowMs limit : Int} {stream? : Option Stream}
    {row : OutboxRow} (h : row ∈ outbox.readyRows nowMs limit stream?) :
    row ∈ outbox.due nowMs stream? :=
  (List.mem_insertionSort _).mp (List.mem_of_mem_take h)

theorem nodup_readyRows (outbox : Outbox) (nowMs limit : Int) (stream? : Option Stream) :
    (outbox.readyRows nowMs limit stream?).Nodup := by
  have hdue : (outbox.due nowMs stream?).Nodup := (outbox.nodup clash_self).filter _
  have hsorted := (List.perm_insertionSort sorts (outbox.due nowMs stream?)).nodup_iff.mpr hdue
  exact hsorted.sublist (List.take_sublist _ _)

def Waits (outbox : Outbox) (lane : OutLane) (nowMs : Int) : Prop :=
  forall row, First outbox row -> laneOfRow row = lane -> nowMs < row.nextAttemptMs

def withoutLane (outbox : Outbox) (lane : OutLane) : Outbox :=
  outbox.delete (fun row => laneOfRow row == lane)

theorem firstPending_withoutLane {outbox : Outbox} {lane : OutLane} {row : OutboxRow}
    (h : laneOfRow row ≠ lane) : (outbox.withoutLane lane).firstPending row.peerId row.stream =
      outbox.firstPending row.peerId row.stream := by
  unfold firstPending Table.fetch withoutLane
  rw [Table.rows_delete, List.find?_filter]
  congr 1
  funext other
  cases htest : (other.peerId == row.peerId && other.stream == row.stream &&
      other.status == .pending) with
  | false => simp
  | true =>
      simp only [Bool.and_eq_true, beq_iff_eq] at htest
      have hother : laneOfRow other = laneOfRow row := by
        rw [laneOfRow, laneOfRow, htest.1.1, htest.1.2]
      have hne : (laneOfRow other == lane) = false := by
        rw [hother]
        exact beq_eq_false_iff_ne.mpr h
      simp [hne]

theorem due_withoutLane {outbox : Outbox} {lane : OutLane} {nowMs : Int}
    (h : Waits outbox lane nowMs) (stream? : Option Stream) :
    (outbox.withoutLane lane).due nowMs stream? = outbox.due nowMs stream? := by
  show ((outbox.rows.filter _).filter _) = outbox.rows.filter _
  rw [List.filter_filter]
  apply List.filter_congr
  intro row hrow
  by_cases hlane : laneOfRow row = lane
  · have hout : (!(laneOfRow row == lane)) = false := by simp [hlane]
    rw [hout, Bool.and_false]
    symm
    rw [Bool.eq_false_iff]
    intro hdue
    have hmem : row ∈ outbox.due nowMs stream? := List.mem_filter.mpr ⟨hrow, hdue⟩
    rcases mem_due_iff.mp hmem with ⟨hfirst, _, hready⟩
    exact absurd hready (not_le.mpr (h row hfirst hlane))
  · have hin : (!(laneOfRow row == lane)) = true := by simp [hlane]
    have hfirst : (outbox.withoutLane lane).isFirst row = outbox.isFirst row := by
      unfold isFirst
      rw [firstPending_withoutLane hlane]
    rw [hin, Bool.and_true, hfirst]

theorem ready_withoutLane {outbox : Outbox} {lane : OutLane} {nowMs : Int}
    (h : Waits outbox lane nowMs) (limit : Int) (stream? : Option Stream) :
    (outbox.withoutLane lane).ready nowMs limit stream? = outbox.ready nowMs limit stream? := by
  unfold ready readyRows
  rw [due_withoutLane h]

theorem due_ready {outbox : Outbox} {nowMs limit : Int} {stream? : Option Stream}
    {row : OutboxRow} (h : row ∈ outbox.due nowMs stream?) :
    row ∈ outbox.readyRows nowMs limit stream? ∨
      (outbox.readyRows nowMs limit stream?).length = limit.toNat := by
  by_cases hfull : limit.toNat ≤ ((outbox.due nowMs stream?).insertionSort sorts).length
  · right
    exact List.length_take_of_le hfull
  · left
    unfold readyRows
    rw [List.take_of_length_le (Nat.le_of_lt (Nat.lt_of_not_le hfull))]
    exact (List.mem_insertionSort _).mpr h

theorem decodeAll_eq_ok {rows : List OutboxRow} {items : List PendingDelivery}
    (h : decodeAll rows = .ok items) :
    items.map (fun item => (item.peerId, item.envelope)) =
      rows.map (fun row => (row.peerId, row.envelope)) := by
  induction rows generalizing items with
  | nil =>
      cases h
      rfl
  | cons row rest ih =>
      rcases bind_eq_ok.mp h with ⟨_, _, h⟩
      rcases bind_eq_ok.mp h with ⟨others, hothers, h⟩
      cases h
      rw [List.map_cons, List.map_cons, ih hothers]

/-- The deliveries that a flush has still to try: first rows of one stream, each for
another peer. -/
structure Heads (outbox : Outbox) (stream : Stream) (items : List PendingDelivery) : Prop where
  peers : items.Pairwise (fun a b => a.peerId ≠ b.peerId)
  firsts : forall item, item ∈ items -> exists row, First outbox row ∧
    row.peerId = item.peerId ∧ row.envelope = item.envelope ∧ row.stream = stream

theorem rows_of_ready {outbox : Outbox} {nowMs limit : Int} {stream? : Option Stream}
    {items : List PendingDelivery} (h : outbox.ready nowMs limit stream? = .ok items) :
    items.map (fun item => (item.peerId, item.envelope)) =
      (outbox.readyRows nowMs limit stream?).map (fun row => (row.peerId, row.envelope)) := by
  rcases bind_eq_ok.mp h with ⟨_, _, h⟩
  rcases bind_eq_ok.mp h with ⟨_, _, h⟩
  rcases bind_eq_ok.mp h with ⟨_, _, h⟩
  exact decodeAll_eq_ok h

theorem row_of_ready {outbox : Outbox} {nowMs limit : Int} {stream : Stream}
    {items : List PendingDelivery} (h : outbox.ready nowMs limit (some stream) = .ok items)
    {item : PendingDelivery} (hitem : item ∈ items) :
    exists row, First outbox row ∧ row.peerId = item.peerId ∧ row.envelope = item.envelope ∧
      row.stream = stream ∧ row.nextAttemptMs ≤ nowMs := by
  have hmem : (item.peerId, item.envelope) ∈
      (outbox.readyRows nowMs limit (some stream)).map
        (fun row => (row.peerId, row.envelope)) := by
    rw [← rows_of_ready h]
    exact List.mem_map.mpr ⟨item, hitem, rfl⟩
  rcases List.mem_map.mp hmem with ⟨row, hready, hsame⟩
  rcases Prod.mk.inj hsame with ⟨hpeer, henvelope⟩
  rcases mem_due_iff.mp (mem_readyRows hready) with ⟨hfirst, hstream, hdue⟩
  exact ⟨row, hfirst, hpeer, henvelope, hstream stream rfl, hdue⟩

theorem heads_of_ready {outbox : Outbox} {nowMs limit : Int} {stream : Stream}
    {items : List PendingDelivery}
    (h : outbox.ready nowMs limit (some stream) = .ok items) : Heads outbox stream items := by
  constructor
  · have hpeers : (outbox.readyRows nowMs limit (some stream)).Pairwise
        (fun a b => a.peerId ≠ b.peerId) := by
      apply List.Pairwise.imp_of_mem _ (nodup_readyRows outbox nowMs limit (some stream))
      intro a b ha hb hne hpeer
      rcases mem_due_iff.mp (mem_readyRows ha) with ⟨hfirstA, hstreamA, _⟩
      rcases mem_due_iff.mp (mem_readyRows hb) with ⟨hfirstB, hstreamB, _⟩
      exact hne (first_unique hfirstA hfirstB
        (by rw [laneOfRow, laneOfRow, hpeer, hstreamA stream rfl, hstreamB stream rfl]))
    have hnames : items.map (fun item => item.peerId) =
        (outbox.readyRows nowMs limit (some stream)).map (fun row => row.peerId) := by
      have hfirst := congrArg (List.map Prod.fst) (rows_of_ready h)
      rwa [List.map_map, List.map_map] at hfirst
    have hmapped : (items.map (fun item => item.peerId)).Pairwise (fun a b => a ≠ b) := by
      rw [hnames]
      exact List.pairwise_map.mpr hpeers
    exact List.pairwise_map.mp hmapped
  · intro item hitem
    rcases row_of_ready h hitem with ⟨row, hfirst, hpeer, henvelope, hstream, _⟩
    exact ⟨row, hfirst, hpeer, henvelope, hstream⟩

theorem length_ready {outbox : Outbox} {nowMs limit : Int} {stream? : Option Stream}
    {items : List PendingDelivery} (h : outbox.ready nowMs limit stream? = .ok items) :
    items.length ≤ limit.toNat := by
  have hlength := congrArg List.length (rows_of_ready h)
  rw [List.length_map, List.length_map] at hlength
  rw [hlength]
  exact List.length_take_le limit.toNat _

/-!
## What changes the rows
-/

section

variable {outbox outbox' : Outbox} {p : OutboxRow -> Bool} {f : OutboxRow -> OutboxRow}

def updated (p : OutboxRow -> Bool) (f : OutboxRow -> OutboxRow) (row : OutboxRow) :
    OutboxRow :=
  if p row then f row else row

theorem laneOfRow_updated (hlane : forall row, laneOfRow (f row) = laneOfRow row)
    (row : OutboxRow) : laneOfRow (updated p f row) = laneOfRow row := by
  unfold updated
  split_ifs
  · exact hlane row
  · rfl

theorem mem_updated {hf : Table.KeepsKeys f} {row : OutboxRow} (h : row ∈ outbox.rows) :
    updated p f row ∈ (outbox.update p f hf).rows :=
  List.mem_map_of_mem h

theorem first_update {hf : Table.KeepsKeys f} {row : OutboxRow} (h : First outbox row)
    (hlane : forall row, laneOfRow (f row) = laneOfRow row)
    (hpending : (updated p f row).status = .pending)
    (hdelivered : forall other, other.status = .delivered ->
      (updated p f other).status = .delivered) :
    First (outbox.update p f hf) (updated p f row) := by
  refine ⟨mem_updated h.mem, hpending, ?_⟩
  intro other' hbefore' hlane'
  rcases Table.before_update.mp hbefore' with ⟨other, same, hbefore, rfl, hsame⟩
  have hrow : row = same := Table.update_inj clash_self hf h.mem hbefore.right hsame
  subst hrow
  apply hdelivered
  apply h.first other hbefore
  have hother := laneOfRow_updated (p := p) hlane other
  rw [laneOfRow_updated hlane row] at hlane'
  rw [← hother]
  exact hlane'

theorem fifo_update {hf : Table.KeepsKeys f} (h : Fifo outbox)
    (hlane : forall row, laneOfRow (f row) = laneOfRow row)
    (hmarked : forall row, row ∈ outbox.rows -> (updated p f row).status = .delivered ->
      row.status = .delivered ∨ First outbox row)
    (hdelivered : forall other, other.status = .delivered ->
      (updated p f other).status = .delivered) : Fifo (outbox.update p f hf) := by
  intro a' b' hbefore' hlane' hb'
  rcases Table.before_update.mp hbefore' with ⟨a, b, hbefore, rfl, rfl⟩
  have hsame : laneOfRow a = laneOfRow b := by
    rw [← laneOfRow_updated (p := p) hlane a, ← laneOfRow_updated (p := p) hlane b]
    exact hlane'
  apply hdelivered
  rcases hmarked b hbefore.right hb' with hb | hfirst
  · exact h a b hbefore hsame hb
  · exact hfirst.first a hbefore hsame

theorem first_append {added : List OutboxRow} {row : OutboxRow} (h : First outbox row)
    (hrows : outbox'.rows = outbox.rows ++ added) : First outbox' row := by
  refine ⟨?_, h.pending, ?_⟩
  · rw [hrows]
    exact List.mem_append_left _ h.mem
  · intro other hbefore hlane
    exact h.first other (Table.before_of_append clash_self hrows h.mem hbefore) hlane

theorem fifo_append {added : List OutboxRow} (h : Fifo outbox)
    (hrows : outbox'.rows = outbox.rows ++ added)
    (hpending : forall row, row ∈ added -> row.status = .pending) : Fifo outbox' := by
  intro a b hbefore hlane hb
  have hold : b ∈ outbox.rows := by
    have hmem := hbefore.right
    rw [hrows] at hmem
    rcases List.mem_append.mp hmem with hold | hnew
    · exact hold
    · rw [hpending b hnew] at hb
      cases hb
  exact h a b (Table.before_of_append clash_self hrows hold hbefore) hlane hb

end

theorem Fifo.delivered_first {outbox : Outbox} (h : Fifo outbox) (lane : OutLane) :
    (outbox.rowsOf lane).filter (fun row => row.status == .delivered) <+:
      outbox.rowsOf lane := by
  have hpairs : forall rows : List OutboxRow,
      rows.Pairwise (fun a b => b.status = .delivered -> a.status = .delivered) ->
      rows.filter (fun row => row.status == .delivered) <+: rows := by
    intro rows hrows
    induction hrows with
    | nil => exact List.prefix_refl []
    | @cons row rest hrow _ ih =>
        by_cases hdelivered : row.status = .delivered
        · rw [List.filter_cons_of_pos (by simp [hdelivered])]
          exact (List.prefix_cons_inj row).mpr ih
        · have hnone : rest.filter (fun row => row.status == .delivered) = [] := by
            apply List.filter_eq_nil_iff.mpr
            intro other hother hstatus
            exact hdelivered (hrow other hother (by simpa using hstatus))
          rw [List.filter_cons_of_neg (by simp [hdelivered]), hnone]
          exact List.nil_prefix
  apply hpairs
  apply List.pairwise_iff_forall_sublist.mpr
  intro a b hpair
  have ha := (List.mem_filter.mp (hpair.subset (List.mem_cons_self))).2
  have hb := (List.mem_filter.mp
    (hpair.subset (List.mem_cons_of_mem _ (List.mem_singleton_self b)))).2
  have hbefore : outbox.Before a b := hpair.trans List.filter_sublist
  exact h a b hbefore ((beq_iff_eq.mp ha).trans (beq_iff_eq.mp hb).symm)

/-!
## What has been enqueued
-/

/-- A delivery for a peer and message id that has been enqueued before is not a new one. -/
def record (enqueued : List (String × Envelope)) (delivery : String × Envelope) :
    List (String × Envelope) :=
  if enqueued.any (fun other => other.1 == delivery.1 &&
      other.2.messageId == delivery.2.messageId) then enqueued
  else enqueued ++ [delivery]

def deliveryOf (row : OutboxRow) : String × Envelope :=
  (row.peerId, row.envelope)

def deliveryOfItem (item : Item) : String × Envelope :=
  (item.peerId, item.envelope)

theorem row?_eq_none_iff_any {outbox : Outbox} (hformed : forall row, row ∈ outbox.rows ->
    Formed row) (item : Item) : outbox.row? item.key = none <->
      (outbox.rows.map deliveryOf).any (fun other => other.1 == item.peerId &&
        other.2.messageId == item.envelope.messageId) = false := by
  rw [row?_eq_none, List.any_eq_false]
  constructor
  · intro h delivery hdelivery htest
    rcases List.mem_map.mp hdelivery with ⟨row, hrow, rfl⟩
    simp only [deliveryOf, Bool.and_eq_true, beq_iff_eq] at htest
    apply h row hrow
    rw [keyOf, Item.key, (hformed row hrow).messageId, htest.1, htest.2]
  · intro h row hrow hkey
    apply h (deliveryOf row) (List.mem_map_of_mem hrow)
    rcases Prod.mk.inj hkey with ⟨hpeer, hid⟩
    rw [(hformed row hrow).messageId] at hid
    simp [deliveryOf, hpeer, hid]

theorem collect_records {outbox : Outbox} (hformed : forall row, row ∈ outbox.rows ->
    Formed row) {seen : List ((String × String) × Text)} {newItems items result : List Item}
    (h : outbox.collect seen newItems items = .ok result) :
    (items.map deliveryOfItem).foldl record
        (outbox.rows.map deliveryOf ++ newItems.map deliveryOfItem) =
      outbox.rows.map deliveryOf ++ result.map deliveryOfItem := by
  induction items generalizing seen newItems with
  | nil =>
      cases h
      rfl
  | cons item rest ih =>
      unfold collect at h
      rcases bind_eq_ok.mp h with ⟨_, _, h⟩
      rw [List.map_cons, List.foldl_cons]
      cases hrow : outbox.row? item.key with
      | some row =>
          rw [hrow] at h
          rcases bind_eq_ok.mp h with ⟨_, _, h⟩
          rw [← ih h]
          congr 1
          unfold record
          rw [if_pos]
          rw [List.any_append, Bool.or_eq_true]
          left
          rw [← Bool.not_eq_false]
          intro hnone
          rw [(row?_eq_none_iff_any hformed item).mpr hnone] at hrow
          cases hrow
      | none =>
          rw [hrow] at h
          rw [← ih h]
          congr 1
          have hstored := (row?_eq_none_iff_any hformed item).mp hrow
          have hany : (outbox.rows.map deliveryOf ++ newItems.map deliveryOfItem).any
              (fun other => other.1 == item.peerId &&
                other.2.messageId == item.envelope.messageId) =
              newItems.any (fun other => other.key == item.key) := by
            rw [List.any_append, hstored, Bool.false_or, List.any_map]
            congr 1
          unfold record addNew
          have hcondition : (outbox.rows.map deliveryOf ++ newItems.map deliveryOfItem).any
              (fun other => other.1 == (deliveryOfItem item).1 &&
                other.2.messageId == (deliveryOfItem item).2.messageId) =
              newItems.any (fun other => other.key == item.key) := hany
          rw [hcondition]
          split_ifs
          · rfl
          · rw [List.map_append, List.map_singleton, List.append_assoc]

end Ump.Delivery.Outbox
