import Ump.Foundation.Joint
import Ump.Bus.Fifo
import Ump.Delivery.Arrivals

/-!
# From an outbox to an inbox

## The two ends

A node sends the rows of its outbox, and the handlers of one of its peers take what arrives.
The two nodes share the frames only: a handler starts with an envelope that the sender may
have sent, and a send is acknowledged when a handler has acknowledged its envelope. Either
node may end at any time and start again, and both have other peers.
-/

namespace Ump.Bus

open Foundation Delivery Outbox

abbrev Ends := Joint Memory Task Delivery.Memory Delivery.Task

/-- A row that may have been sent: all rows before it in its lane have been delivered. -/
structure MayBeSent (outbox : Outbox) (row : OutboxRow) : Prop where
  mem : row ∈ outbox.rows
  earlier : forall other, outbox.Before other row -> laneOfRow other = laneOfRow row ->
    other.status = .delivered

def Acknowledged (receiver : Delivery.Memory) (envelope : Envelope) : Prop :=
  exists status, (envelope, status) ∈ receiver.acknowledged

/-- The sender has one flush for each stream, publishes its own envelopes and believes the
acknowledgements of the receiver only. -/
def sends (sender : Sender) (receiverId : String) :
    Joint.Guard Delivery.Memory Memory Task Reading Entry :=
  fun receiver m ts move => Locking m ts move ∧
    match move with
    | .exec (.enqueueMany deliveries _) _ => forall delivery, delivery ∈ deliveries ->
        delivery.2.sourceId = sender.nodeId ∧ sender.drawnBy delivery.2.messageId = sender.nodeId
    | .exec (.send _ item _) r => item.peerId = receiverId -> r.sending = .acknowledged ->
        Acknowledged receiver item.envelope
    | _ => True

/-- A connection of the sender brings a row that may have been sent, while no handler works
for its stream; another node uses no message id of the sender. -/
def arrives (sender : Sender) (receiverId : String) :
    Joint.Guard Memory Delivery.Memory Delivery.Task Delivery.Reading Delivery.Entry
  | m, _, ts, .spawn (.connect peerId envelope) =>
      peerId = envelope.sourceId ->
        (envelope.sourceId = sender.nodeId ->
          (exists row, MayBeSent m.outbox row ∧ row.peerId = receiverId ∧
            row.envelope = envelope) ∧
          forall t, t ∈ ts -> t.streamFrom? sender ≠ some envelope.stream) ∧
        (envelope.sourceId ≠ sender.nodeId -> sender.drawnBy envelope.messageId ≠ sender.nodeId)
  | _, _, _, _ => True

def Reaches (config : Config) (receiver : Delivery.Config) (sender : Sender)
    (receiverId : String) : Ends -> Ends -> Prop :=
  Joint.Reaches (machine config) (Delivery.machine receiver) (sends sender receiverId)
    (arrives sender receiverId)

def initialEnds (config : Config) : Ends where
  left := initial config
  right := Delivery.initial

def outgoing (receiverId : String) (m : Memory) (stream : Stream) : List Envelope :=
  (enqueuedIn m { peerId := receiverId, stream := stream }).map Prod.snd

def confirmed (receiverId : String) (m : Memory) (stream : Stream) : List Envelope :=
  (deliveredIn m.outbox { peerId := receiverId, stream := stream }).map Prod.snd

/-- On each stream the receiver has taken a beginning of what the sender has enqueued for it,
each envelope once and in its order, and at least what the sender knows to be delivered. -/
structure InOrder (sender : Sender) (receiverId : String) (s : Ends) : Prop where
  taken : forall stream, confirmed receiverId s.left.shared stream <+:
    arrived sender s.right.shared.inbox stream
  ordered : forall stream, arrived sender s.right.shared.inbox stream <+:
    outgoing receiverId s.left.shared stream
  once : forall stream, ((arrived sender s.right.shared.inbox stream).map
    (fun envelope => envelope.messageId)).Nodup

/-!
## The sender
-/

theorem isPrefix_foldl_record (deliveries enqueued : List (String × Envelope)) :
    enqueued <+: deliveries.foldl record enqueued := by
  induction deliveries generalizing enqueued with
  | nil => exact List.prefix_rfl
  | cons delivery rest ih =>
      refine List.IsPrefix.trans ?_ (ih (record enqueued delivery))
      unfold record
      split_ifs
      · exact List.prefix_rfl
      · exact List.prefix_append _ _

theorem mem_foldl_record {deliveries enqueued : List (String × Envelope)}
    {delivery : String × Envelope} (h : delivery ∈ deliveries.foldl record enqueued) :
    delivery ∈ enqueued ∨ delivery ∈ deliveries := by
  induction deliveries generalizing enqueued with
  | nil => exact Or.inl h
  | cons first rest ih =>
      rcases ih h with hrecorded | hrest
      · unfold record at hrecorded
        split_ifs at hrecorded
        · exact Or.inl hrecorded
        · rcases List.mem_append.mp hrecorded with hold | hnew
          · exact Or.inl hold
          · exact Or.inr (List.mem_singleton.mp hnew ▸ List.mem_cons_self)
      · exact Or.inr (List.mem_cons_of_mem _ hrest)

theorem enqueued_advances (config : Config) :
    (machine config).Advances (fun a b => a.enqueued <+: b.enqueued) where
  refl _ := List.prefix_rfl
  trans := List.IsPrefix.trans
  exec m t r := by
    show m.enqueued <+: (exec config m t r).1.enqueued
    have heffect := exec_effect config m t r
    generalize exec config m t r = result at heffect
    cases heffect with
    | released houtbox henqueued hfree => exact henqueued ▸ List.prefix_rfl
    | enqueued henqueue => exact isPrefix_foldl_record _ _
    | _ => exact List.prefix_rfl
  restart _ := List.prefix_rfl

theorem acknowledged_of_delivered {config : Config} {m : Memory} {t : Task} {r : Reading}
    {p : Progress} {item : PendingDelivery} {rest : List PendingDelivery}
    (h : .delivered p item rest ∈ (exec config m t r).2.tasks) :
    t = .send p item rest ∧ r.sending = .acknowledged := by
  cases t with
  | send p' item' rest' =>
      rw [exec] at h
      cases hsending : r.sending with
      | acknowledged =>
          rw [hsending] at h
          cases List.mem_singleton.mp h
          exact ⟨rfl, rfl⟩
      | refused =>
          rw [hsending] at h
          cases List.mem_singleton.mp h
      | raised =>
          rw [hsending] at h
          cases h
  | enqueueMany deliveries nowMs =>
      rw [exec] at h
      cases henqueue : enqueueMany config.limits m.outbox deliveries nowMs with
      | error e => rw [henqueue] at h; cases h
      | ok outbox => rw [henqueue] at h; cases h
  | addPeer peerId => cases h
  | removePeer peerId => cases h
  | flush nowMs? limit stream? =>
      cases stream? with
      | none => cases List.mem_singleton.mp h
      | some stream => cases List.mem_singleton.mp h
  | enter stream nowMs? limit both => cases List.mem_singleton.mp h
  | lock call => cases List.mem_singleton.mp h
  | round p' =>
      rw [exec] at h
      split_ifs at h
      · cases hready : m.outbox.ready p'.call.timestampMs (p'.call.limit - p'.delivered)
          (some p'.call.stream) with
        | error e => rw [hready] at h; cases h
        | ok items =>
            rw [hready] at h
            dsimp only [attempt] at h
            split_ifs at h
            · cases List.mem_singleton.mp h
            · cases List.mem_singleton.mp h
      · cases List.mem_singleton.mp h
  | item p' items =>
      cases items with
      | nil =>
          rw [exec] at h
          split_ifs at h
          · cases List.mem_singleton.mp h
          · cases List.mem_singleton.mp h
      | cons first others =>
          rw [exec] at h
          split_ifs at h
          · cases List.mem_singleton.mp h
          · cases List.mem_singleton.mp h
  | failed p' item' rest' =>
      rw [exec] at h
      cases hfailed : m.outbox.failed (itemKey item') p'.call.timestampMs baseDelayMs
          maximumDelayMs with
      | error e => rw [hfailed] at h; cases h
      | ok outbox => rw [hfailed] at h; cases List.mem_singleton.mp h
  | delivered p' item' rest' =>
      rw [exec] at h
      cases hdelivered : m.outbox.delivered (itemKey item') p'.call.timestampMs with
      | error e => rw [hdelivered] at h; cases h
      | ok outbox => rw [hdelivered] at h; cases List.mem_singleton.mp h
  | leave p' =>
      rw [exec] at h
      split_ifs at h
      · cases List.mem_singleton.mp h
      · cases h

/-- What is marked as delivered to the receiver, or is about to be, has been acknowledged. -/
structure Confirmed (sender : Sender) (receiverId : String) (acknowledged : Envelope -> Prop)
    (m : Memory) (ts : Multiset Task) : Prop where
  own : forall delivery, delivery ∈ m.enqueued -> delivery.2.sourceId = sender.nodeId ∧
    sender.drawnBy delivery.2.messageId = sender.nodeId
  rows : forall row, row ∈ m.outbox.rows -> row.peerId = receiverId ->
    row.status = .delivered -> acknowledged row.envelope
  tasks : forall p item rest, .delivered p item rest ∈ ts -> item.peerId = receiverId ->
    acknowledged item.envelope

section

variable {sender : Sender} {receiverId : String} {acknowledged acknowledged' : Envelope -> Prop}
variable {m m' : Memory} {ts ts' : Multiset Task}

theorem Confirmed.drop (h : Confirmed sender receiverId acknowledged m ts) (hle : ts' ≤ ts) :
    Confirmed sender receiverId acknowledged m ts' where
  own := h.own
  rows := h.rows
  tasks p item rest ht := h.tasks p item rest (Multiset.mem_of_le hle ht)

theorem Confirmed.weaken (h : Confirmed sender receiverId acknowledged m ts)
    (hmore : forall envelope, acknowledged envelope -> acknowledged' envelope) :
    Confirmed sender receiverId acknowledged' m ts where
  own := h.own
  rows row hrow hpeer hstatus := hmore _ (h.rows row hrow hpeer hstatus)
  tasks p item rest ht hpeer := hmore _ (h.tasks p item rest ht hpeer)

theorem envelope_of_marked {t : Task} {p : Progress} {item : PendingDelivery}
    {rest : List PendingDelivery} (h : Flushing m (t ::ₘ ts)) (ht : t = .delivered p item rest)
    {row : OutboxRow} (hrow : row ∈ m.outbox.rows) (hkey : keyOf row = itemKey item) :
    row.envelope = item.envelope := by
  subst ht
  have hheads := h.heads _ p.call.stream (Multiset.mem_cons_self _ _) rfl
  rcases hheads.firsts item List.mem_cons_self with ⟨first, hfirst, hpeer, henvelope, _⟩
  have hfirstKey : keyOf first = itemKey item := by
    rw [itemKey, keyOf, (h.stored.formed first hfirst.mem).messageId, hpeer, henvelope]
  rw [eq_of_key hrow hfirst.mem (hkey.trans hfirstKey.symm), henvelope]

end

theorem confirmed_keeps (config : Config) (sender : Sender) (receiverId : String)
    (receiver : Delivery.Memory) :
    (machine config).Keeps (sends sender receiverId receiver) Flushing
      (Confirmed sender receiverId (Acknowledged receiver)) where
  drop := Confirmed.drop
  spawn {m ts entry} _ h _ := by
    refine ⟨h.own, h.rows, ?_⟩
    intro p item rest ht hpeer
    rcases Multiset.mem_add.mp ht with hold | hnew
    · exact h.tasks p item rest hold hpeer
    · have hfree := start_free entry _ (Multiset.mem_coe.mp hnew)
      cases hfree
  crash {m ts} _ h := by
    refine ⟨h.own, h.rows, ?_⟩
    intro p item rest ht
    cases Multiset.notMem_zero _ ht
  exec {m t ts r} hflushing h hsends := by
    have hrest := h.drop (Multiset.le_cons_self ts t)
    have htasks : forall p item rest,
        .delivered p item rest ∈ (((exec config m t r).2.tasks : Multiset Task) + ts) ->
        item.peerId = receiverId -> Acknowledged receiver item.envelope := by
      intro p item rest ht hpeer
      rcases Multiset.mem_add.mp ht with hnew | hold
      · rcases acknowledged_of_delivered (Multiset.mem_coe.mp hnew) with ⟨rfl, hsending⟩
        exact hsends.2 hpeer hsending
      · exact hrest.tasks p item rest hold hpeer
    refine ⟨?_, ?_, htasks⟩
    · show forall delivery, delivery ∈ (exec config m t r).1.enqueued -> _
      have heffect := exec_effect config m t r
      generalize exec config m t r = result at heffect
      cases heffect with
      | released houtbox henqueued hfree =>
          rw [henqueued]
          exact h.own
      | enqueued henqueue =>
          intro delivery hdelivery
          rcases mem_foldl_record hdelivery with hold | hnew
          · exact h.own delivery hold
          · exact hsends.2 delivery hnew
      | _ => exact h.own
    · show forall row, row ∈ (exec config m t r).1.outbox.rows -> _
      have heffect := exec_effect config m t r
      generalize exec config m t r = result at heffect
      cases heffect with
      | released houtbox henqueued hfree =>
          rw [houtbox]
          exact h.rows
      | enqueued henqueue =>
          rcases enqueueMany_eq_ok henqueue with ⟨newItems, hadded⟩
          intro row hrow hpeer hstatus
          rw [hadded.rows] at hrow
          rcases List.mem_append.mp hrow with hold | hnew
          · exact h.rows row hold hpeer hstatus
          · rcases List.mem_map.mp hnew with ⟨item, _, rfl⟩
            cases hstatus
      | locked call => exact h.rows
      | listed hready => exact h.rows
      | passed hlocked hlocked' hitems => exact h.rows
      | @failed p item rest outbox hfailed =>
          rcases failed_eq_ok hfailed with rfl | ⟨attempts, nextAttemptMs, rfl⟩
          · exact h.rows
          · intro row hrow hpeer hstatus
            have hmem : row ∈ (m.outbox.update (fun row => keyOf row == itemKey item)
              (postponed attempts nextAttemptMs) (keepsKeys_attempt attempts nextAttemptMs)).rows :=
                hrow
            rcases Table.mem_update_iff.mp hmem with ⟨old, hold, rfl⟩
            split_ifs at hpeer hstatus ⊢
            · exact h.rows old hold hpeer hstatus
            · exact h.rows old hold hpeer hstatus
      | @delivered p item rest outbox hdelivered =>
          rw [delivered_eq_ok hdelivered]
          intro row hrow hpeer hstatus
          have hmem : row ∈ (m.outbox.update (fun row => keyOf row == itemKey item &&
            row.status == .pending) settled (keepsKeys_status .delivered)).rows := hrow
          rcases Table.mem_update_iff.mp hmem with ⟨old, hold, rfl⟩
          split_ifs at hpeer hstatus ⊢ with hmarked
          · have hkey : keyOf old = itemKey item :=
              beq_iff_eq.mp (Bool.and_eq_true_iff.mp hmarked).1
            have hitem : item.peerId = receiverId := by
              rw [← hpeer]
              exact (congrArg Prod.fst hkey).symm
            show Acknowledged receiver old.envelope
            rw [envelope_of_marked hflushing rfl hold hkey]
            exact h.tasks p item rest (Multiset.mem_cons_self _ _) hitem
          · exact h.rows old hold hpeer hstatus

/-!
## Joint runs
-/

section

variable {sender : Sender} {receiverId : String} {m : Memory}

theorem mem_outgoing {stream : Stream} {envelope : Envelope} :
    envelope ∈ outgoing receiverId m stream <->
      (receiverId, envelope) ∈ m.enqueued ∧ envelope.stream = stream := by
  unfold outgoing enqueuedIn
  simp only [List.mem_map, List.mem_filter, Bool.and_eq_true, beq_iff_eq, Prod.exists,
    exists_eq_right]
  constructor
  · rintro ⟨peerId, henqueued, rfl, hstream⟩
    exact ⟨henqueued, hstream⟩
  · rintro ⟨henqueued, hstream⟩
    exact ⟨receiverId, henqueued, rfl, hstream⟩

theorem Stored.outgoing (h : Stored m)
    (hown : forall delivery, delivery ∈ m.enqueued -> delivery.2.sourceId = sender.nodeId ∧
      sender.drawnBy delivery.2.messageId = sender.nodeId) :
    Outgoing sender (outgoing receiverId m) where
  own stream envelope henvelope := by
    rcases mem_outgoing.mp henvelope with ⟨henqueued, hstream⟩
    rcases hown _ henqueued with ⟨hsource, hdrawn⟩
    exact ⟨hstream, hsource, iff_of_true hdrawn hsource⟩
  once stream := by
    have hnodup : m.enqueued.Nodup := List.Nodup.of_map _ h.once
    unfold Bus.outgoing enqueuedIn
    refine List.Nodup.map_on ?_ (hnodup.filter _)
    intro a ha b hb hsame
    have hpeer : forall delivery, delivery ∈ m.enqueued.filter (fun delivery =>
        delivery.1 == receiverId && delivery.2.stream == stream) ->
        delivery.1 = receiverId := by
      intro delivery hdelivery
      exact beq_iff_eq.mp (Bool.and_eq_true_iff.mp (List.mem_filter.mp hdelivery).2).1
    exact Prod.ext ((hpeer a ha).trans (hpeer b hb).symm) hsame
  ids stream stream' a b ha hb hid := by
    have hsame := List.inj_on_of_nodup_map h.once (mem_outgoing.mp ha).1 (mem_outgoing.mp hb).1
      (congrArg (Prod.mk receiverId) hid)
    exact congrArg Prod.snd hsame

theorem outgoing_isPrefix {m' : Memory} (h : m.enqueued <+: m'.enqueued) (stream : Stream) :
    outgoing receiverId m stream <+: outgoing receiverId m' stream :=
  (h.filter _).map _

/-- What may have been sent is due at the receiver, since what is marked as delivered has
been acknowledged. -/
theorem due_of_mayBeSent {inbox : Inbox} {row : OutboxRow} (hstored : Stored m)
    (hrow : MayBeSent m.outbox row) (hpeer : row.peerId = receiverId)
    (hdelivered : forall other, other ∈ m.outbox.rows -> other.peerId = receiverId ->
      other.status = .delivered -> SettledRow inbox other.envelope) :
    Due (outgoing receiverId m) inbox row.envelope := by
  have hlane := hstored.lane (laneOfRow row)
  have hmem : row ∈ m.outbox.rowsOf (laneOfRow row) :=
    List.mem_filter.mpr ⟨hrow.mem, beq_iff_eq.mpr rfl⟩
  rcases List.append_of_mem hmem with ⟨before, after, hsplit⟩
  refine ⟨before.map (fun other => other.envelope), after.map (fun other => other.envelope),
    ?_, ?_⟩
  · have hstream := (hstored.formed row hrow.mem).stream
    rw [hsplit] at hlane
    unfold outgoing
    rw [← hpeer, ← hstream]
    show (enqueuedIn m (laneOfRow row)).map Prod.snd = _
    rw [← hlane, List.map_map, List.map_append, List.map_cons]
    rfl
  · intro envelope henvelope
    rcases List.mem_map.mp henvelope with ⟨other, hother, rfl⟩
    have hpair : List.Sublist [other, row] (m.outbox.rowsOf (laneOfRow row)) := by
      rw [hsplit]
      exact List.Sublist.append (List.singleton_sublist.mpr hother)
        (List.singleton_sublist.mpr List.mem_cons_self)
    have hotherMem : other ∈ m.outbox.rowsOf (laneOfRow row) :=
      hpair.subset List.mem_cons_self
    rcases List.mem_filter.mp hotherMem with ⟨hotherRow, hotherLane⟩
    have hsame : laneOfRow other = laneOfRow row := beq_iff_eq.mp hotherLane
    apply hdelivered other hotherRow
    · exact (congrArg OutLane.peerId hsame).trans hpeer
    · exact hrow.earlier other (hpair.trans List.filter_sublist) hsame

end

structure InTouch (sender : Sender) (receiverId : String) (s : Ends) : Prop where
  flushing : Flushing s.left.shared s.left.tasks
  confirmed : Confirmed sender receiverId (Acknowledged s.right.shared) s.left.shared
    s.left.tasks
  arrives : Arrives sender (outgoing receiverId s.left.shared) s.right.shared s.right.tasks

theorem InTouch.settled {sender : Sender} {receiverId : String} {s : Ends}
    (h : InTouch sender receiverId s) (row : OutboxRow) (hrow : row ∈ s.left.shared.outbox.rows)
    (hpeer : row.peerId = receiverId) (hstatus : row.status = .delivered) :
    SettledRow s.right.shared.inbox row.envelope := by
  rcases h.confirmed.rows row hrow hpeer hstatus with ⟨status, hacknowledged⟩
  apply h.arrives.acknowledged _ hacknowledged
  have henqueued : deliveryOf row ∈ s.left.shared.enqueued := by
    rw [← h.flushing.stored.kept]
    exact List.mem_map_of_mem hrow
  exact (h.confirmed.own _ henqueued).1

theorem reaches_inTouch {config : Config} {receiver : Delivery.Config} {sender : Sender}
    {receiverId : String} {s : Ends}
    (h : Reaches config receiver sender receiverId (initialEnds config) s) :
    InTouch sender receiverId s := by
  refine Joint.Reaches.invariant ?_ ?_ h ?_
  · intro s p hs hstep
    have hprefix := (enqueued_advances config).reaches (.single hstep)
    constructor
    · exact (flushing_keeps config).step (hstep.weaken (fun _ _ _ hsends => hsends.1)) trivial
        hs.flushing
    · exact (confirmed_keeps config sender receiverId _).step hstep hs.flushing hs.confirmed
    · exact hs.arrives.grow (outgoing_isPrefix hprefix)
  · intro s q hs hstep
    have hprefix := (acknowledged_advances receiver).reaches (.single hstep)
    have hout : Outgoing sender (outgoing receiverId s.left.shared) :=
      hs.flushing.stored.outgoing hs.confirmed.own
    have hturns : (Delivery.machine receiver).Step
        (KeepsTurns sender (outgoing receiverId s.left.shared)) s.right q := by
      refine hstep.imp ?_
      intro ts move harrives
      cases move with
      | exec t r => trivial
      | spawn entry =>
          cases entry with
          | work => trivial
          | connect peerId envelope =>
              intro hpeer
              rcases harrives hpeer with ⟨hown, hother⟩
              constructor
              · by_cases hsource : envelope.sourceId = sender.nodeId
                · rcases hown hsource with ⟨⟨row, hrow, _, rfl⟩, _⟩
                  have henqueued : deliveryOf row ∈ s.left.shared.enqueued := by
                    rw [← hs.flushing.stored.kept]
                    exact List.mem_map_of_mem hrow.mem
                  exact iff_of_true (hs.confirmed.own _ henqueued).2 hsource
                · exact iff_of_false (hother hsource) hsource
              · intro hsource
                rcases hown hsource with ⟨⟨row, hrow, hreceiver, rfl⟩, halone⟩
                exact ⟨due_of_mayBeSent hs.flushing.stored hrow hreceiver hs.settled, halone⟩
    constructor
    · exact hs.flushing
    · apply hs.confirmed.weaken
      rintro envelope ⟨status, hacknowledged⟩
      exact ⟨status, hprefix.subset hacknowledged⟩
    · exact (arrives_keeps receiver hout).step hturns trivial hs.arrives
  · constructor
    · exact reaches_flushing .refl
    · constructor
      · intro delivery hdelivery
        cases hdelivery
      · intro row hrow
        cases hrow
      · intro p item rest ht
        cases Multiset.notMem_zero _ ht
    · exact initial_arrives sender _

/-- Whatever the flushes, handlers, workers, failures and restarts of the two nodes do, and
whatever their other peers send: on each stream the receiver has taken exactly a beginning of
what the sender has enqueued for it, at least up to where the sender knows it. -/
theorem end_to_end (config : Config) (receiver : Delivery.Config) (sender : Sender)
    (receiverId : String) (s : Ends)
    (h : Reaches config receiver sender receiverId (initialEnds config) s) :
    InOrder sender receiverId s := by
  have hs := reaches_inTouch h
  have hout : Outgoing sender (outgoing receiverId s.left.shared) :=
    hs.flushing.stored.outgoing hs.confirmed.own
  have hordered := hs.arrives.inbox.arrived_isPrefix
  constructor
  · intro stream
    have hknown : confirmed receiverId s.left.shared stream <+:
        outgoing receiverId s.left.shared stream := by
      unfold confirmed outgoing
      rw [← hs.flushing.stored.lane]
      exact ((hs.flushing.stored.fifo.delivered_first _).map deliveryOf).map Prod.snd
    apply isPrefix_of_subset (hout.once stream) hknown (hordered stream)
    intro envelope henvelope
    rcases hout.own stream envelope (hknown.subset henvelope) with ⟨rfl, hsource, _⟩
    rcases List.mem_map.mp henvelope with ⟨delivery, hdelivery, rfl⟩
    rcases List.mem_map.mp hdelivery with ⟨row, hrow, rfl⟩
    rcases List.mem_filter.mp hrow with ⟨hlane, hstatus⟩
    rcases List.mem_filter.mp hlane with ⟨hrow, hlane⟩
    refine hs.arrives.inbox.mem_arrived ?_ hsource
    exact hs.settled row hrow (congrArg OutLane.peerId (beq_iff_eq.mp hlane))
      (beq_iff_eq.mp hstatus)
  · exact hordered
  · intro stream
    have hmem := (hordered stream).subset
    refine List.Nodup.map_on ?_ ((hout.once stream).sublist (hordered stream).sublist)
    intro a ha b hb hid
    exact hout.ids _ _ a b (hmem ha) (hmem hb) hid

/-!
## One message, two attempts

The receiver ends when it has staged the message, and the send fails. The next send finds a
new process with the staged row, and is acknowledged.
-/

def roverSender : Sender where
  nodeId := "r1"
  drawnBy _ := "r1"

def roverFlush (nowMs : Int) : Action Reading Entry :=
  .spawn (.flush (some nowMs) 256 (some .operational))

def roverSends : List (Action Reading Entry) :=
  .spawn (.enqueueMany [("p1", message "a" 1)] 1000) :: answered 0 [.refused] ++
    roverFlush 1000 :: answered 1 (List.replicate 5 .refused)

def roverSendsAgain : List (Action Reading Entry) :=
  answered 1 (List.replicate 4 .refused) ++
    roverFlush 2000 :: answered 2 (List.replicate 5 .refused)

/-- A test for the sender: it enqueues envelopes of its own, and no send is acknowledged. -/
def unanswered (sender : Sender) (p : Pool Memory Task) (a : Action Reading Entry) : Bool :=
  unlocked p a &&
    match a with
    | .run i r =>
        match p.nextTask i with
        | some (.enqueueMany deliveries _) =>
            deliveries.all (fun delivery => decide (delivery.2.sourceId = sender.nodeId ∧
              sender.drawnBy delivery.2.messageId = sender.nodeId))
        | _ => decide (r.sending ≠ .acknowledged)
    | _ => true

theorem meets_of_unanswered {sender : Sender} (receiverId : String)
    (receiver : Delivery.Memory) (p : Pool Memory Task) (a : Action Reading Entry)
    (h : unanswered sender p a = true) : Machine.Meets (sends sender receiverId receiver) p a := by
  rcases Bool.and_eq_true_iff.mp h with ⟨hunlocked, hquiet⟩
  have hlocking := meets_of_unlocked p a hunlocked
  cases a with
  | run i r =>
      intro t others hnext htasks
      refine ⟨hlocking t others hnext htasks, ?_⟩
      simp only [hnext] at hquiet
      cases t with
      | enqueueMany deliveries nowMs =>
          intro delivery hdelivery
          exact of_decide_eq_true (List.all_eq_true.mp hquiet delivery hdelivery)
      | send progress item rest =>
          intro _ hacknowledged
          rw [hacknowledged] at hquiet
          cases hquiet
      | _ => trivial
  | spawn entry => exact ⟨trivial, trivial⟩
  | stop i => trivial
  | crash => trivial

theorem meets_of_opensNothing (sender : Sender) (receiverId : String) (m : Memory)
    (p : Pool Delivery.Memory Delivery.Task) (a : Action Delivery.Reading Delivery.Entry)
    (h : Delivery.opensNothing p a = true) : Machine.Meets (arrives sender receiverId m) p a := by
  cases a with
  | spawn entry =>
      cases entry with
      | connect peerId envelope => cases h
      | work => trivial
  | run i r => exact fun _ _ _ _ => trivial
  | _ => trivial

def Task.sends? : Task -> Option Envelope
  | .send _ sent _ => some sent.envelope
  | _ => none

def handled (thread count : Nat) : List (Action Delivery.Reading Delivery.Entry) :=
  List.replicate count (.run thread { raised := false })

theorem mayBeSent_of_single {outbox : Outbox} {envelope : Envelope}
    (h : outbox.rows.map deliveryOf = [("p1", envelope)]) :
    exists row, MayBeSent outbox row ∧ row.peerId = "p1" ∧ row.envelope = envelope := by
  rcases List.map_eq_singleton_iff.mp h with ⟨row, hrows, hdelivery⟩
  rcases Prod.mk.inj hdelivery with ⟨hpeer, henvelope⟩
  refine ⟨row, ⟨?_, ?_⟩, hpeer, henvelope⟩
  · rw [hrows]
    exact List.mem_cons_self
  · intro other hbefore
    have hlength := hbefore.length_le
    rw [hrows] at hlength
    simp at hlength

set_option maxRecDepth 8000 in
theorem rover_delivers :
    exists s, Reaches twoPeers (sqliteConfig String.ofList) roverSender "p1"
        (initialEnds twoPeers) s ∧
      confirmed "p1" s.left.shared .operational = [message "a" 1] := by
  have hfirst : ((machine twoPeers).runWhere (unanswered roverSender) (initial twoPeers)
      roverSends).map (fun p => p.shared.outbox.rows.map deliveryOf) =
        some [("p1", message "a" 1)] := by
    rfl
  have hsecond : (((machine twoPeers).runWhere (unanswered roverSender) (initial twoPeers)
      roverSends).bind (fun p => (machine twoPeers).runWhere (unanswered roverSender) p
        roverSendsAgain)).map (fun p =>
          ((p.nextTask 2).bind Task.sends?, p.shared.outbox.rows.map deliveryOf)) =
      some (some (message "a" 1), [("p1", message "a" 1)]) := by
    rfl
  have hthird : ((((machine twoPeers).runWhere (unanswered roverSender) (initial twoPeers)
      roverSends).bind (fun p => (machine twoPeers).runWhere (unanswered roverSender) p
        roverSendsAgain)).bind (fun p => ((machine twoPeers).step p
          (.run 2 { nowMs := 0, sending := .acknowledged })).bind (fun p =>
            (machine twoPeers).runWhere (unanswered roverSender) p (answered 2 [.refused])))).map
              (fun p => confirmed "p1" p.shared .operational) = some [message "a" 1] := by
    rfl
  have hcut : (retryMachine.runWhere opensNothing (connected Delivery.initial (message "a" 1))
      (handled 0 2 ++ [.crash])).map (fun q => q.threads) = some [] := by
    rfl
  have htaken : ((retryMachine.runWhere opensNothing (connected Delivery.initial (message "a" 1))
      (handled 0 2 ++ [.crash])).bind (fun q => retryMachine.runWhere opensNothing
        (connected q (message "a" 1)) (handled 0 5))).map (fun q => q.shared.acknowledged) =
      some [(message "a" 1, .duplicate)] := by
    rfl
  rcases Option.map_eq_some_iff.mp hfirst with ⟨p, hp, hrows⟩
  rw [hp, Option.bind_some] at hsecond hthird
  rcases Option.map_eq_some_iff.mp hsecond with ⟨p', hp', hview⟩
  rw [hp', Option.bind_some] at hthird
  rcases Option.map_eq_some_iff.mp hthird with ⟨last, hlast, hconfirmed⟩
  rcases Option.bind_eq_some_iff.mp hlast with ⟨marked, hmarked, hlast⟩
  rcases Option.map_eq_some_iff.mp hcut with ⟨q, hq, hthreads⟩
  rw [hq, Option.bind_some] at htaken
  rcases Option.map_eq_some_iff.mp htaken with ⟨q', hq', hacknowledged⟩
  rcases Prod.mk.inj hview with ⟨hsends, hrows'⟩
  have hmoves : forall {m : Delivery.Memory} {p p' : Pool Memory Task}
      {actions : List (Action Reading Entry)},
      (machine twoPeers).runWhere (unanswered roverSender) p actions = some p' ->
      (machine twoPeers).Reaches (sends roverSender "p1" m) p p' :=
    fun hrun => Machine.runWhere_reaches (meets_of_unanswered "p1" _) hrun
  have hopens : forall {m : Memory} {q q' : Pool Delivery.Memory Delivery.Task}
      {actions : List (Action Delivery.Reading Delivery.Entry)},
      m.outbox.rows.map deliveryOf = [("p1", message "a" 1)] -> q.threads.flatten = [] ->
      retryMachine.runWhere opensNothing (connected q (message "a" 1)) actions = some q' ->
      retryMachine.Reaches (arrives roverSender "p1" m) q q' := by
    intro m q q' actions hrows hempty hrun
    refine .head ⟨.spawn (.connect "r1" (message "a" 1)), ?_, rfl⟩
      (Machine.runWhere_reaches (meets_of_opensNothing _ _ _) hrun)
    intro _
    refine ⟨fun _ => ⟨mayBeSent_of_single hrows, ?_⟩, fun hother => absurd rfl hother⟩
    intro t ht
    have hnone : t ∈ (q.threads.flatten : Multiset Delivery.Task) := ht
    rw [hempty] at hnone
    cases Multiset.notMem_zero t hnone
  have hsent : (machine twoPeers).Reaches (sends roverSender "p1" q'.shared) p' last := by
    refine .head ⟨.run 2 { nowMs := 0, sending := .acknowledged }, ?_, hmarked⟩ (hmoves hlast)
    intro t others hnext htasks
    rw [hnext, Option.bind_some] at hsends
    cases t with
    | send progress item rest =>
        refine ⟨trivial, fun _ _ => ⟨.duplicate, ?_⟩⟩
        rw [hacknowledged, Option.some.inj hsends]
        exact List.mem_cons_self
    | _ => cases hsends
  refine ⟨{ left := last, right := q' }, ?_, hconfirmed⟩
  have hstart : Reaches twoPeers (sqliteConfig String.ofList) roverSender "p1"
      (initialEnds twoPeers) { left := p, right := Delivery.initial } :=
    Joint.Reaches.of_left (hmoves hp)
  have hcutOff : Reaches twoPeers (sqliteConfig String.ofList) roverSender "p1"
      { left := p, right := Delivery.initial } { left := p, right := q } :=
    Joint.Reaches.of_right (hopens hrows rfl hq)
  have hagain : Reaches twoPeers (sqliteConfig String.ofList) roverSender "p1"
      { left := p, right := q } { left := p', right := q } :=
    Joint.Reaches.of_left (hmoves hp')
  have hanswered : Reaches twoPeers (sqliteConfig String.ofList) roverSender "p1"
      { left := p', right := q } { left := p', right := q' } :=
    Joint.Reaches.of_right (hopens hrows' (by rw [hthreads]; rfl) hq')
  have hknown : Reaches twoPeers (sqliteConfig String.ofList) roverSender "p1"
      { left := p', right := q' } { left := last, right := q' } :=
    Joint.Reaches.of_left hsent
  exact hstart.trans (hcutOff.trans (hagain.trans (hanswered.trans hknown)))

theorem rover_end_to_end :
    exists s, confirmed "p1" s.left.shared .operational = [message "a" 1] ∧
      InOrder roverSender "p1" s := by
  rcases rover_delivers with ⟨s, hreaches, hconfirmed⟩
  exact ⟨s, hconfirmed, end_to_end twoPeers (sqliteConfig String.ofList) roverSender "p1" s
    hreaches⟩

end Ump.Bus
