import Ump.Bus.Flush

/-!
# Lanes that stay in order

## What a flush knows

Between two queries a flush is the only one to settle rows of its stream, so the rows it has
been given are still the first ones of their lanes when it sends them.
-/

namespace Ump.Bus

open Foundation Delivery Outbox

/-- What has been enqueued for a peer and stream, in its order. -/
def enqueuedIn (m : Memory) (lane : OutLane) : List (String × Envelope) :=
  m.enqueued.filter (fun delivery => delivery.1 == lane.peerId &&
    delivery.2.stream == lane.stream)

/-- The deliveries of the rows of a lane that are marked as delivered. -/
def deliveredIn (outbox : Outbox) (lane : OutLane) : List (String × Envelope) :=
  ((outbox.rowsOf lane).filter (fun row => row.status == .delivered)).map deliveryOf

structure LanesFifo (p : Pool Memory Task) : Prop where
  delivered : forall lane, deliveredIn p.shared.outbox lane <+: enqueuedIn p.shared lane
  sends : forall thread progress item rest, p.nextTask thread = some (.send progress item rest) ->
    exists row, First p.shared.outbox row ∧ row.peerId = item.peerId ∧
      row.envelope = item.envelope
  kept : p.shared.outbox.rows.map deliveryOf = p.shared.enqueued
  once : (p.shared.enqueued.map
    (fun delivery => (delivery.1, delivery.2.messageId))).Nodup
  free : forall lane nowMs limit stream?, Waits p.shared.outbox lane nowMs ->
    p.shared.outbox.ready nowMs limit stream? =
      (p.shared.outbox.withoutLane lane).ready nowMs limit stream?
  due : forall row nowMs limit stream?, First p.shared.outbox row ->
    (forall stream, stream? = some stream -> row.stream = stream) ->
    row.nextAttemptMs ≤ nowMs ->
    row ∈ p.shared.outbox.readyRows nowMs limit stream? ∨
      (p.shared.outbox.readyRows nowMs limit stream?).length = limit.toNat

/-!
## Rows
-/

structure Stored (m : Memory) : Prop where
  formed : forall row, row ∈ m.outbox.rows -> Formed row
  kept : m.outbox.rows.map deliveryOf = m.enqueued
  fifo : Fifo m.outbox

theorem formed_newRow (nowMs : Int) (item : Item) : Formed (newRow nowMs item) :=
  ⟨rfl, rfl⟩

theorem Stored.same {m m' : Memory} (h : Stored m) (houtbox : m'.outbox = m.outbox)
    (henqueued : m'.enqueued = m.enqueued) : Stored m' := by
  constructor
  · rw [houtbox]
    exact h.formed
  · rw [houtbox, henqueued]
    exact h.kept
  · rw [houtbox]
    exact h.fifo

theorem Stored.enqueue {config : Config} {m : Memory} {deliveries : List (String × Envelope)}
    {nowMs : Int} {outbox : Outbox} (h : Stored m)
    (henqueue : enqueueMany config.limits m.outbox deliveries nowMs = .ok outbox) :
    Stored { m with outbox := outbox, enqueued := deliveries.foldl record m.enqueued } := by
  rcases enqueueMany_eq_ok henqueue with ⟨newItems, hadded⟩
  rcases hadded.items with ⟨items, hitems, hcollect⟩
  constructor
  · intro row hrow
    have hmem : row ∈ outbox.rows := hrow
    rw [hadded.rows] at hmem
    rcases List.mem_append.mp hmem with hold | hnew
    · exact h.formed row hold
    · rcases List.mem_map.mp hnew with ⟨item, _, rfl⟩
      exact formed_newRow nowMs item
  · have hrecords := collect_records h.formed hcollect
    have hmap : items.map deliveryOfItem = deliveries := (encodeAll_eq_ok hitems).1
    rw [hmap, List.map_nil, List.append_nil, h.kept] at hrecords
    show outbox.rows.map deliveryOf = deliveries.foldl record m.enqueued
    rw [hrecords, hadded.rows, List.map_append, h.kept, List.map_map]
    rfl
  · apply fifo_append h.fifo hadded.rows
    intro row hrow
    rcases List.mem_map.mp hrow with ⟨item, _, rfl⟩
    rfl

theorem Stored.update {m : Memory} {p : OutboxRow -> Bool} {f : OutboxRow -> OutboxRow}
    {hf : Table.KeepsKeys f} (h : Stored m) (hformed : forall row, Formed row -> Formed (f row))
    (hdelivery : forall row, deliveryOf (f row) = deliveryOf row)
    (hfifo : Fifo (m.outbox.update p f hf)) : Stored (m.withOutbox (m.outbox.update p f hf)) where
  formed row hrow := by
    have hmem : row ∈ (m.outbox.update p f hf).rows := hrow
    rcases Table.mem_update_iff.mp hmem with ⟨old, hold, rfl⟩
    split_ifs
    · exact hformed old (h.formed old hold)
    · exact h.formed old hold
  kept := by
    show (m.outbox.update p f hf).rows.map deliveryOf = m.enqueued
    rw [← h.kept, Table.rows_update, List.map_map]
    apply List.map_congr_left
    intro row _
    dsimp only [Function.comp]
    split_ifs
    · exact hdelivery row
    · rfl
  fifo := hfifo

theorem Stored.lane {m : Memory} (h : Stored m) (lane : OutLane) :
    (m.outbox.rowsOf lane).map deliveryOf = enqueuedIn m lane := by
  unfold rowsOf enqueuedIn
  rw [← h.kept, List.filter_map]
  congr 1
  apply List.filter_congr
  intro row hrow
  rw [Function.comp, deliveryOf, (h.formed row hrow).stream.symm]
  rw [Bool.eq_iff_iff, beq_iff_eq, Bool.and_eq_true, beq_iff_eq, beq_iff_eq]
  constructor
  · rintro rfl
    exact ⟨rfl, rfl⟩
  · rintro ⟨hpeer, hstream⟩
    have hlane : row.peerId = lane.peerId := hpeer
    rw [laneOfRow, hlane, hstream]

theorem Stored.once {m : Memory} (h : Stored m) :
    (m.enqueued.map (fun delivery => (delivery.1, delivery.2.messageId))).Nodup := by
  rw [← h.kept, List.map_map]
  apply List.pairwise_map.mpr
  apply m.outbox.distinct.imp_of_mem
  intro a b ha hb hclash hsame
  rcases Prod.mk.inj hsame with ⟨hpeer, hid⟩
  have hmessages : a.messageId = b.messageId := by
    rw [(h.formed a ha).messageId, (h.formed b hb).messageId]
    exact hid
  have hpeers : a.peerId = b.peerId := hpeer
  simp [Keyed.clash, hpeers, hmessages] at hclash

/-!
## Flushes
-/

def lockedStreams (ts : Multiset Task) : Multiset Stream :=
  ts.filterMap Task.locked?

/-- Each send lock has one holder, whose items are heads of its stream. -/
structure Flushing (m : Memory) (ts : Multiset Task) : Prop where
  stored : Stored m
  exclusive : (lockedStreams ts).Nodup
  heads : forall t stream, t ∈ ts -> t.locked? = some stream -> Heads m.outbox stream t.items

/-- Rows that stay first in their lanes, in a step that leaves a stream alone. -/
def Spares (m m' : Memory) (stream : Stream) : Prop :=
  forall row, First m.outbox row -> row.stream = stream -> exists row',
    First m'.outbox row' ∧ row'.peerId = row.peerId ∧ row'.envelope = row.envelope ∧
      row'.stream = row.stream

section

variable {m m' : Memory} {t : Task} {ts : Multiset Task}

theorem Spares.heads {stream : Stream} {items : List PendingDelivery}
    (h : Spares m m' stream) (hheads : Heads m.outbox stream items) :
    Heads m'.outbox stream items where
  peers := hheads.peers
  firsts item hitem := by
    rcases hheads.firsts item hitem with ⟨row, hfirst, hpeer, henvelope, hstream⟩
    rcases h row hfirst hstream with ⟨row', hfirst', hpeer', henvelope', hstream'⟩
    exact ⟨row', hfirst', hpeer'.trans hpeer, henvelope'.trans henvelope,
      hstream'.trans hstream⟩

theorem spares_same (houtbox : m'.outbox = m.outbox) (stream : Stream) : Spares m m' stream := by
  intro row hfirst _
  refine ⟨row, ?_, rfl, rfl, rfl⟩
  rw [houtbox]
  exact hfirst

theorem heads_tail {outbox : Outbox} {stream : Stream} {item : PendingDelivery}
    {rest : List PendingDelivery} (h : Heads outbox stream (item :: rest)) :
    Heads outbox stream rest where
  peers := (List.pairwise_cons.mp h.peers).2
  firsts other hother := h.firsts other (List.mem_cons_of_mem _ hother)

theorem heads_nil (outbox : Outbox) (stream : Stream) : Heads outbox stream [] where
  peers := List.Pairwise.nil
  firsts item hitem := by cases hitem

theorem lockedStreams_cons {stream : Stream} (h : t.locked? = some stream)
    (ts : Multiset Task) : lockedStreams (t ::ₘ ts) = stream ::ₘ lockedStreams ts :=
  Multiset.filterMap_cons_some _ _ _ h

theorem lockedStreams_free {tasks : List Task}
    (h : forall t', t' ∈ tasks -> t'.locked? = none) (ts : Multiset Task) :
    lockedStreams ((tasks : Multiset Task) + ts) = lockedStreams ts :=
  filterMap_idle h ts

theorem Flushing.drop {ts' : Multiset Task} (h : Flushing m ts) (hle : ts' ≤ ts) :
    Flushing m ts' where
  stored := h.stored
  exclusive := Multiset.nodup_of_le (Multiset.filterMap_le_filterMap _ hle) h.exclusive
  heads t' stream ht' := h.heads t' stream (Multiset.mem_of_le hle ht')

theorem Flushing.other {stream other : Stream} {t' : Task} (h : Flushing m (t ::ₘ ts))
    (ht : t.locked? = some stream) (ht' : t' ∈ ts) (hlocked : t'.locked? = some other) :
    other ≠ stream := by
  have hexclusive := h.exclusive
  rw [lockedStreams_cons ht, Multiset.nodup_cons] at hexclusive
  intro hsame
  apply hexclusive.1
  rw [lockedStreams, Multiset.mem_filterMap]
  exact ⟨t', ht', hsame ▸ hlocked⟩

theorem Flushing.free {tasks : List Task} (h : Flushing m ts) (hstored : Stored m')
    (hspares : forall stream, Spares m m' stream)
    (hfree : forall t', t' ∈ tasks -> t'.locked? = none) :
    Flushing m' ((tasks : Multiset Task) + ts) where
  stored := hstored
  exclusive := by
    rw [lockedStreams_free hfree]
    exact h.exclusive
  heads t' stream ht' hlocked := by
    rcases Multiset.mem_add.mp ht' with hnew | hold
    · rw [hfree t' (Multiset.mem_coe.mp hnew)] at hlocked
      cases hlocked
    · exact (hspares stream).heads (h.heads t' stream hold hlocked)

theorem Flushing.goOn {stream : Stream} {t' : Task} (h : Flushing m (t ::ₘ ts))
    (hstored : Stored m') (ht : t.locked? = some stream) (ht' : t'.locked? = some stream)
    (hheads : Heads m'.outbox stream t'.items)
    (hspares : forall other, other ≠ stream -> Spares m m' other) : Flushing m' (t' ::ₘ ts) where
  stored := hstored
  exclusive := by
    have hexclusive := h.exclusive
    rw [lockedStreams_cons ht] at hexclusive
    rw [lockedStreams_cons ht']
    exact hexclusive
  heads next other hnext hlocked := by
    rcases Multiset.mem_cons.mp hnext with rfl | hold
    · rw [ht'] at hlocked
      cases hlocked
      exact hheads
    · exact (hspares other (h.other ht hold hlocked)).heads
        (h.heads next other (Multiset.mem_cons_of_mem hold) hlocked)

/-!
## Settling one item
-/

/-- What `failed` writes into a row. -/
def postponed (attempts : Nat) (nextAttemptMs : Int) (row : OutboxRow) : OutboxRow :=
  { row with attempts := attempts, nextAttemptMs := nextAttemptMs }

/-- What `delivered` writes into a row. -/
def settled (row : OutboxRow) : OutboxRow :=
  { row with status := .delivered }

theorem failed_eq_ok {outbox outbox' : Outbox} {key : String × String}
    {nowMs base maximum : Int} (h : outbox.failed key nowMs base maximum = .ok outbox') :
    outbox' = outbox ∨ exists attempts nextAttemptMs,
      outbox' = outbox.update (fun row => keyOf row == key)
        (postponed attempts nextAttemptMs) (keepsKeys_attempt attempts nextAttemptMs) := by
  unfold Outbox.failed at h
  cases hrow : outbox.attempted key with
  | none =>
      rw [hrow] at h
      cases h
      exact Or.inl rfl
  | some row =>
      rw [hrow] at h
      rcases bind_eq_ok.mp h with ⟨_, _, h⟩
      rcases bind_eq_ok.mp h with ⟨_, _, h⟩
      cases h
      exact Or.inr ⟨_, _, rfl⟩

theorem delivered_eq_ok {outbox outbox' : Outbox} {key : String × String} {nowMs : Int}
    (h : outbox.delivered key nowMs = .ok outbox') :
    outbox' = outbox.update (fun row => keyOf row == key && row.status == .pending) settled
      (keepsKeys_status .delivered) := by
  rcases bind_eq_ok.mp h with ⟨_, _, h⟩
  cases h
  rfl

theorem failed_spares {outbox : Outbox} {key : String × String} {nowMs base maximum : Int}
    (hstored : Stored m) (h : m.outbox.failed key nowMs base maximum = .ok outbox) :
    Stored (m.withOutbox outbox) ∧ forall stream, Spares m (m.withOutbox outbox) stream := by
  rcases failed_eq_ok h with rfl | ⟨attempts, nextAttemptMs, rfl⟩
  · exact ⟨hstored.same rfl rfl, spares_same rfl⟩
  · have hstatus : forall row, (updated (fun row => keyOf row == key)
        (postponed attempts nextAttemptMs) row).status = row.status := by
      intro row
      unfold updated
      split_ifs <;> rfl
    constructor
    · refine hstored.update (fun _ hformed => ⟨hformed.messageId, hformed.stream⟩)
        (fun _ => rfl) ?_
      refine fifo_update hstored.fifo (fun _ => rfl) ?_ ?_
      · intro row _ hdelivered
        rw [hstatus] at hdelivered
        exact Or.inl hdelivered
      · intro row hdelivered
        rw [hstatus]
        exact hdelivered
    · intro stream row hfirst _
      refine ⟨updated (fun row => keyOf row == key) (postponed attempts nextAttemptMs) row,
        ?_, ?_, ?_, ?_⟩
      · refine @first_update m.outbox _ (postponed attempts nextAttemptMs)
          (keepsKeys_attempt attempts nextAttemptMs) row hfirst (fun _ => rfl) ?_ ?_
        · rw [hstatus]
          exact hfirst.pending
        · intro other hdelivered
          rw [hstatus]
          exact hdelivered
      · unfold updated
        split_ifs <;> rfl
      · unfold updated
        split_ifs <;> rfl
      · unfold updated
        split_ifs <;> rfl

theorem delivered_spares {outbox : Outbox} {first : OutboxRow} {nowMs : Int}
    (hstored : Stored m) (hfirst : First m.outbox first)
    (h : m.outbox.delivered (keyOf first) nowMs = .ok outbox) :
    Stored (m.withOutbox outbox) ∧ forall row, First m.outbox row -> row ≠ first ->
      First outbox row := by
  rw [delivered_eq_ok h]
  have hselected : forall {row : OutboxRow}, row ∈ m.outbox.rows ->
      (keyOf row == keyOf first && row.status == .pending) = true -> row = first := by
    intro row hrow htest
    rcases Bool.and_eq_true_iff.mp htest with ⟨hkey, _⟩
    exact eq_of_key hrow hfirst.mem (by simpa using hkey)
  have hdelivered : forall row : OutboxRow, row.status = .delivered ->
      (updated (fun row => keyOf row == keyOf first && row.status == .pending) settled
        row).status = .delivered := by
    intro row hrow
    unfold updated
    split_ifs
    · rfl
    · exact hrow
  constructor
  · refine hstored.update (fun _ hformed => ⟨hformed.messageId, hformed.stream⟩)
      (fun _ => rfl) ?_
    refine fifo_update hstored.fifo (fun _ => rfl) ?_ ?_
    · intro row hrow hmarked
      unfold updated at hmarked
      split_ifs at hmarked with htest
      · right
        rw [hselected hrow htest]
        exact hfirst
      · exact Or.inl hmarked
    · exact hdelivered
  · intro row hrow hne
    have hsame : updated (fun row => keyOf row == keyOf first && row.status == .pending) settled
        row = row := by
      unfold updated
      rw [if_neg]
      intro htest
      exact hne (hselected hrow.mem htest)
    have hpending : (updated (fun row => keyOf row == keyOf first && row.status == .pending)
        settled row).status = .pending := by
      rw [hsame]
      exact hrow.pending
    have hkept := @first_update m.outbox _ settled (keepsKeys_status .delivered) row hrow
      (fun _ => rfl) hpending hdelivered
    rw [hsame] at hkept
    exact hkept

theorem Flushing.settleDelivered {p p' : Progress} {item : PendingDelivery}
    {rest : List PendingDelivery} {outbox : Outbox}
    (h : Flushing m (.delivered p item rest ::ₘ ts)) (hcall : p'.call = p.call)
    (hdelivered : m.outbox.delivered (itemKey item) p.call.timestampMs = .ok outbox) :
    Flushing (m.withOutbox outbox) (.item p' rest ::ₘ ts) := by
  have hheads := h.heads _ p.call.stream (Multiset.mem_cons_self _ _) rfl
  rcases hheads.firsts item List.mem_cons_self with ⟨first, hfirst, hpeer, henvelope, hstream⟩
  have hkey : itemKey item = keyOf first := by
    rw [itemKey, keyOf, (h.stored.formed first hfirst.mem).messageId, hpeer, henvelope]
  rw [hkey] at hdelivered
  rcases delivered_spares h.stored hfirst hdelivered with ⟨hstored, hspares⟩
  have hlocked : (Task.item p' rest).locked? = some p.call.stream := by
    rw [Task.locked?, hcall]
  refine h.goOn hstored rfl hlocked ?_ ?_
  · constructor
    · exact (heads_tail hheads).peers
    · intro other hother
      rcases hheads.firsts other (List.mem_cons_of_mem _ hother) with
        ⟨row, hrow, hrowPeer, hrowEnvelope, hrowStream⟩
      refine ⟨row, hspares row hrow ?_, hrowPeer, hrowEnvelope, hrowStream⟩
      intro hsame
      apply (List.pairwise_cons.mp hheads.peers).1 other hother
      rw [← hpeer, ← hrowPeer, hsame]
  · intro other hother row hrow hrowStream
    refine ⟨row, hspares row hrow ?_, rfl, rfl, rfl⟩
    intro hsame
    apply hother
    rw [← hrowStream, ← hstream, hsame]

end

theorem flushing_keeps (config : Config) :
    (machine config).Keeps Locking (fun _ _ => True) Flushing where
  drop h hle := h.drop hle
  spawn {m ts entry} _ h _ := by
    rw [add_comm]
    exact h.free h.stored (fun _ => spares_same rfl _) (start_free entry)
  crash {m ts} _ h := by
    constructor
    · exact h.stored.same rfl rfl
    · exact Multiset.nodup_zero
    · intro t stream ht
      cases Multiset.notMem_zero _ ht
  exec {m t ts r} _ h hlocking := by
    have hrest := h.drop (Multiset.le_cons_self ts t)
    have heffect := exec_effect config m t r
    have hone : forall next : Task, ((([next] : List Task) : Multiset Task) + ts) =
        next ::ₘ ts := by
      intro next
      rw [Multiset.coe_singleton, Multiset.singleton_add]
    show Flushing (exec config m t r).1 (((exec config m t r).2.tasks : Multiset Task) + ts)
    generalize exec config m t r = result at heffect
    cases heffect with
    | released houtbox henqueued hfree =>
        exact hrest.free (h.stored.same houtbox henqueued) (spares_same houtbox) hfree
    | enqueued henqueue =>
        refine hrest.free (h.stored.enqueue henqueue) ?_ (fun t' ht' => by cases ht')
        intro stream row hfirst _
        rcases enqueueMany_eq_ok henqueue with ⟨newItems, hadded⟩
        exact ⟨row, first_append hfirst hadded.rows, rfl, rfl, rfl⟩
    | locked call =>
        rw [Flow.tasks_next, hone]
        constructor
        · exact h.stored
        · rw [@lockedStreams_cons (.round _) call.stream rfl, Multiset.nodup_cons]
          refine ⟨?_, hrest.exclusive⟩
          intro hheld
          rw [lockedStreams, Multiset.mem_filterMap] at hheld
          rcases hheld with ⟨t', ht', hlocked⟩
          exact hlocking t' ht' hlocked
        · intro t' stream ht' hlocked
          rcases Multiset.mem_cons.mp ht' with rfl | hold
          · exact heads_nil m.outbox stream
          · exact hrest.heads t' stream hold hlocked
    | listed hready =>
        rw [Flow.tasks_next, hone]
        exact h.goOn h.stored rfl rfl (heads_of_ready hready) (fun _ _ => spares_same rfl _)
    | @passed _ t' stream hlocked hlocked' hitems =>
        rw [Flow.tasks_next, hone]
        refine h.goOn h.stored hlocked hlocked' ?_ (fun _ _ => spares_same rfl _)
        rw [hitems]
        exact h.heads _ stream (Multiset.mem_cons_self _ _) hlocked
    | @failed p item rest outbox hfailed =>
        rw [Flow.tasks_next, hone]
        rcases failed_spares h.stored hfailed with ⟨hstored, hspares⟩
        have hheads := h.heads _ p.call.stream (Multiset.mem_cons_self _ _) rfl
        refine h.goOn hstored rfl rfl ?_ (fun other _ => hspares other)
        exact (hspares p.call.stream).heads (heads_tail hheads)
    | delivered hdelivered =>
        rw [Flow.tasks_next, hone]
        exact h.settleDelivered rfl hdelivered

theorem reaches_flushing {config : Config} {p : Pool Memory Task}
    (h : (machine config).Reaches Locking (initial config) p) : Flushing p.shared p.tasks := by
  apply (flushing_keeps config).reaches h (fun _ _ => trivial)
  constructor
  · constructor
    · intro row hrow
      cases hrow
    · rfl
    · intro a b hbefore
      cases hbefore.left
  · exact Multiset.nodup_zero
  · intro t stream ht
    cases Multiset.notMem_zero _ ht

/-- Whatever the publishers, flushes, sends and restarts do, what has been delivered to a
peer on a stream is the beginning of what has been enqueued for it, nothing is lost or
repeated, and no lane waits for another one. -/
theorem lanes_fifo (config : Config) (p : Pool Memory Task)
    (h : (machine config).Reaches Locking (initial config) p) : LanesFifo p := by
  have hflushing := reaches_flushing h
  have hstored := hflushing.stored
  constructor
  · intro lane
    rw [← hstored.lane lane]
    exact (hstored.fifo.delivered_first lane).map deliveryOf
  · intro thread progress item rest hnext
    have hheads := hflushing.heads _ progress.call.stream (Machine.nextTask_mem hnext) rfl
    rcases hheads.firsts item List.mem_cons_self with ⟨row, hfirst, hpeer, henvelope, _⟩
    exact ⟨row, hfirst, hpeer, henvelope⟩
  · exact hstored.kept
  · exact hstored.once
  · intro lane nowMs limit stream? hwaits
    exact (ready_withoutLane hwaits limit stream?).symm
  · intro row nowMs limit stream? hfirst hstream hdue
    exact due_ready (mem_due_iff.mpr ⟨hfirst, hstream, hdue⟩)

/-!
## A failed send and a restart

Two peers have messages waiting. The first send to one of them fails, the process ends, and
the next one delivers.
-/

def twoPeers : Config where
  limits := { maximumPending := 8, safetyReserve := 1, reserved := by decide }
  peers := ["p1", "p2"]

def message (messageId : String) (sequence : Int) : Envelope where
  messageId := messageId
  messageType := .state
  sourceId := "r1"
  sessionId := "s"
  sequence := sequence
  timestampMs := 0
  payload := .obj []
  correlationId := none
  stream := .operational

def batch : List (String × Envelope) :=
  [("p1", message "a" 1), ("p2", message "a" 1), ("p1", message "b" 2)]

def answered (thread : Nat) (sendings : List Sending) : List (Action Reading Entry) :=
  sendings.map (fun sending => .run thread { nowMs := 0, sending := sending })

def retried : List (Action Reading Entry) :=
  [.spawn (.enqueueMany batch 1000), .run 0 { nowMs := 0, sending := .acknowledged },
    .spawn (.flush (some 1000) 256 (some .operational))] ++
    answered 1 (List.replicate 5 .acknowledged ++ .refused :: List.replicate 7 .acknowledged) ++
    [.crash, .spawn (.flush (some 2000) 256 none)] ++ answered 0 (List.replicate 16 .acknowledged)

def deliveryView (p : Pool Memory Task) : List (String × DeliveryStatus × Nat) :=
  p.shared.outbox.rows.map (fun row => (row.messageId, row.status, row.attempts))

def unlocked (p : Pool Memory Task) : Action Reading Entry -> Bool
  | .run i _ =>
      match p.nextTask i with
      | some (.lock call) =>
          p.threads.flatten.all (fun t => decide (t.locked? ≠ some call.stream))
      | _ => true
  | _ => true

theorem meets_of_unlocked (p : Pool Memory Task) (a : Action Reading Entry)
    (h : unlocked p a = true) : Machine.Meets Locking p a := by
  cases a with
  | run i r =>
      intro t others hnext htasks
      cases t with
      | lock call =>
          intro t' ht'
          simp only [unlocked, hnext] at h
          have hmem : t' ∈ p.tasks := by
            rw [htasks]
            exact Multiset.mem_cons_of_mem ht'
          simpa using List.all_eq_true.mp h t' (Multiset.mem_coe.mp hmem)
      | _ => trivial
  | spawn e => trivial
  | stop i => trivial
  | crash => trivial

set_option maxRecDepth 8000 in
theorem retried_fifo :
    exists p, (machine twoPeers).runWhere unlocked (initial twoPeers) retried = some p ∧
      deliveryView p = [("a", .delivered, 1), ("a", .delivered, 0), ("b", .delivered, 0)] ∧
      LanesFifo p := by
  have hview : ((machine twoPeers).runWhere unlocked (initial twoPeers) retried).map
      deliveryView = some [("a", .delivered, 1), ("a", .delivered, 0), ("b", .delivered, 0)] := by
    decide +kernel
  rcases Option.map_eq_some_iff.mp hview with ⟨p, hrun, hview⟩
  exact ⟨p, hrun, hview, lanes_fifo twoPeers p
    (Machine.runWhere_reaches meets_of_unlocked hrun)⟩

end Ump.Bus
