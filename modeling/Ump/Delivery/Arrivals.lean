import Mathlib.Data.List.Nodup
import Ump.Foundation.Beginnings
import Ump.Foundation.Joint
import Ump.Delivery.Retry

/-!
# What arrives from one node

## The rows of a sender

A node sends its envelopes to this one stream by stream, and goes on in a stream when it
knows that the envelopes before have been taken. Other nodes send as they like. The rows of
the sender in the inbox are then a beginning of what it sends, and only the last of them may
still be staged.
-/

namespace Ump.Delivery

open Foundation

/-- The node whose messages are followed. A message id belongs to the node that drew it. -/
structure Sender where
  nodeId : String
  drawnBy : String -> String

def rowsFrom (sender : Sender) (inbox : Inbox) (stream : Stream) : List InboxRow :=
  inbox.rows.filter (fun row => row.lane.sourceId == sender.nodeId && row.lane.stream == stream)

/-- The envelopes of the sender that have been handed over, in the order of their rows. -/
def arrived (sender : Sender) (inbox : Inbox) (stream : Stream) : List Envelope :=
  ((rowsFrom sender inbox stream).filter (fun row => row.status != .staged)).map
    (fun row => row.envelope)

/-- The sender has drawn the ids of its own envelopes, and of no others. -/
def Drawn (sender : Sender) (envelope : Envelope) : Prop :=
  sender.drawnBy envelope.messageId = sender.nodeId <-> envelope.sourceId = sender.nodeId

structure Outgoing (sender : Sender) (sent : Stream -> List Envelope) : Prop where
  own : forall stream envelope, envelope ∈ sent stream ->
    envelope.stream = stream ∧ envelope.sourceId = sender.nodeId ∧ Drawn sender envelope
  once : forall stream, (sent stream).Nodup
  ids : forall stream stream' a b, a ∈ sent stream -> b ∈ sent stream' ->
    a.messageId = b.messageId -> a = b

/-- It is the turn of the envelope: those before it in its stream have been handed over. -/
def Due (sent : Stream -> List Envelope) (inbox : Inbox) (envelope : Envelope) : Prop :=
  exists front rest, sent envelope.stream = front ++ envelope :: rest ∧
    forall other, other ∈ front -> SettledRow inbox other

/-- The stream in which a handler works for the sender. A connection of another node that
names the sender as the source is refused. -/
def Task.streamFrom? (sender : Sender) : Task -> Option Stream
  | .receive peerId envelope =>
      if peerId = envelope.sourceId ∧ envelope.sourceId = sender.nodeId then
        some envelope.stream
      else
        none
  | .enqueue envelope | .accept envelope _ | .containsExact envelope | .discardStaged envelope
  | .activate envelope _ | .acknowledge envelope _ =>
      if envelope.sourceId = sender.nodeId then some envelope.stream else none
  | _ => none

/-- The sender keeps to the turns, and has one handler for each stream at a time; another
node uses no message id of the sender. -/
def KeepsTurns (sender : Sender) (sent : Stream -> List Envelope) :
    Condition Memory Task Reading Entry
  | m, ts, .spawn (.connect peerId envelope) =>
      peerId = envelope.sourceId -> Drawn sender envelope ∧
        (envelope.sourceId = sender.nodeId -> Due sent m.inbox envelope ∧
          forall t, t ∈ ts -> t.streamFrom? sender ≠ some envelope.stream)
  | _, _, _ => True

/-!
## The invariant
-/

structure FollowsSender (sender : Sender) (sent : Stream -> List Envelope) (inbox : Inbox) :
    Prop where
  rows : forall row, row ∈ inbox.rows -> row.messageId = row.envelope.messageId ∧
    row.lane = laneOf row.envelope ∧ Drawn sender row.envelope
  beginning : forall stream,
    (rowsFrom sender inbox stream).map (fun row => row.envelope) <+: sent stream
  staged : forall stream row, row ∈ (rowsFrom sender inbox stream).dropLast ->
    row.status ≠ .staged

def Counts (sender : Sender) (sent : Stream -> List Envelope) (inbox : Inbox) : Task -> Prop
  | .receive peerId envelope => peerId = envelope.sourceId -> Drawn sender envelope ∧
      (envelope.sourceId = sender.nodeId -> Due sent inbox envelope)
  | .enqueue envelope => Drawn sender envelope ∧
      (envelope.sourceId = sender.nodeId -> Due sent inbox envelope)
  | .accept envelope _ | .containsExact envelope | .discardStaged envelope
  | .activate envelope _ => Drawn sender envelope ∧
      (envelope.sourceId = sender.nodeId -> Stored inbox envelope)
  | .acknowledge envelope _ => envelope.sourceId = sender.nodeId -> SettledRow inbox envelope
  | _ => True

structure Arrives (sender : Sender) (sent : Stream -> List Envelope) (m : Memory)
    (ts : Multiset Task) : Prop where
  inbox : FollowsSender sender sent m.inbox
  acknowledged : forall entry, entry ∈ m.acknowledged -> entry.1.sourceId = sender.nodeId ->
    SettledRow m.inbox entry.1
  single : (ts.filterMap (Task.streamFrom? sender)).Nodup
  counts : forall t, t ∈ ts -> Counts sender sent m.inbox t

/-!
## Rows of the sender
-/

section

variable {sender : Sender} {sent sent' : Stream -> List Envelope} {inbox inbox' : Inbox}

theorem mem_rowsFrom {stream : Stream} {row : InboxRow} :
    row ∈ rowsFrom sender inbox stream <->
      row ∈ inbox.rows ∧ row.lane.sourceId = sender.nodeId ∧ row.lane.stream = stream := by
  simp [rowsFrom]

theorem FollowsSender.mem_of_stored (h : FollowsSender sender sent inbox) {row : InboxRow}
    (hrow : row ∈ inbox.rows) (hsource : row.envelope.sourceId = sender.nodeId) :
    row ∈ rowsFrom sender inbox row.envelope.stream := by
  rw [mem_rowsFrom, (h.rows row hrow).2.1]
  exact ⟨hrow, hsource, rfl⟩

theorem FollowsSender.sent_of_stored (h : FollowsSender sender sent inbox) {row : InboxRow}
    (hrow : row ∈ inbox.rows) (hsource : row.envelope.sourceId = sender.nodeId) :
    row.envelope ∈ sent row.envelope.stream :=
  (h.beginning row.envelope.stream).subset (List.mem_map_of_mem (h.mem_of_stored hrow hsource))

theorem FollowsSender.envelope_eq (h : FollowsSender sender sent inbox)
    (hout : Outgoing sender sent) {row : InboxRow} (hrow : row ∈ inbox.rows)
    {envelope : Envelope} (hsent : envelope ∈ sent envelope.stream)
    (hid : row.messageId = envelope.messageId) : row.envelope = envelope := by
  rcases h.rows row hrow with ⟨hrowId, _, hdrawn⟩
  have hsame : row.envelope.messageId = envelope.messageId := hrowId.symm.trans hid
  rcases hout.own _ envelope hsent with ⟨_, hown, hdrawnOwn⟩
  have hsource : row.envelope.sourceId = sender.nodeId :=
    hdrawn.mp (hsame ▸ hdrawnOwn.mpr hown)
  exact hout.ids _ _ _ _ (h.sent_of_stored hrow hsource) hsent hsame

theorem settled_row {envelope : Envelope} {row : InboxRow} (h : SettledRow inbox envelope)
    (hfollows : FollowsSender sender sent inbox) (hrow : row ∈ inbox.rows)
    (hsame : row.envelope = envelope) : row.status ≠ .staged := by
  rcases h with ⟨other, hother, hotherSame, hstatus⟩
  have hid : other.messageId = row.messageId := by
    rw [(hfollows.rows other hother).1, (hfollows.rows row hrow).1, hotherSame, hsame]
  rw [← Inbox.eq_of_messageId hother hrow hid]
  exact hstatus

theorem FollowsSender.setStatus (h : FollowsSender sender sent inbox) (p : InboxRow -> Bool)
    {status : InboxStatus} (hstatus : status ≠ .staged) :
    FollowsSender sender sent (inbox.setStatus p status) := by
  have hrowsFrom : forall stream, rowsFrom sender (inbox.setStatus p status) stream =
      (rowsFrom sender inbox stream).map
        (fun row => { row with status := if p row then status else row.status }) := by
    intro stream
    unfold rowsFrom
    rw [Inbox.rows_setStatus, List.filter_map]
    rfl
  constructor
  · intro row' hrow'
    rw [Inbox.rows_setStatus] at hrow'
    rcases List.mem_map.mp hrow' with ⟨row, hrow, rfl⟩
    exact h.rows row hrow
  · intro stream
    rw [hrowsFrom, List.map_map]
    exact h.beginning stream
  · intro stream row' hrow'
    rw [hrowsFrom, ← List.map_dropLast] at hrow'
    rcases List.mem_map.mp hrow' with ⟨row, hrow, rfl⟩
    by_cases hselected : p row = true
    · simpa [hselected] using hstatus
    · simpa [hselected] using h.staged stream row hrow

theorem FollowsSender.discard (h : FollowsSender sender sent inbox) (messageId : String) :
    FollowsSender sender sent (inbox.discardStaged messageId) := by
  have hrowsFrom : forall stream, rowsFrom sender (inbox.discardStaged messageId) stream =
      (rowsFrom sender inbox stream).filter
        (fun row => !(row.messageId == messageId && row.status == .staged)) := by
    intro stream
    unfold rowsFrom Inbox.discardStaged
    rw [Table.rows_delete, List.filter_filter, List.filter_filter]
    apply List.filter_congr
    intro row _
    exact Bool.and_comm _ _
  have hbeginning : forall stream, rowsFrom sender (inbox.discardStaged messageId) stream <+:
      rowsFrom sender inbox stream := by
    intro stream
    rw [hrowsFrom]
    apply filter_isPrefix
    intro row hrow
    simp [h.staged stream row hrow]
  constructor
  · intro row hrow
    exact h.rows row (Table.mem_delete_iff.mp hrow).1
  · intro stream
    exact ((hbeginning stream).map _).trans (h.beginning stream)
  · intro stream row hrow
    exact h.staged stream row ((dropLast_isPrefix (hbeginning stream)).subset hrow)

theorem FollowsSender.stageOther (h : FollowsSender sender sent inbox) {envelope : Envelope}
    {digest : String} (hsource : envelope.sourceId ≠ sender.nodeId)
    (hdrawn : Drawn sender envelope)
    (hrows : inbox'.rows = inbox.rows ++ [Inbox.newRow envelope digest .staged]) :
    FollowsSender sender sent inbox' := by
  have hrowsFrom : forall stream, rowsFrom sender inbox' stream =
      rowsFrom sender inbox stream := by
    intro stream
    simp [rowsFrom, hrows, List.filter_append, Inbox.newRow, laneOf, hsource]
  constructor
  · intro row hrow
    rw [hrows] at hrow
    rcases List.mem_append.mp hrow with hold | hnew
    · exact h.rows row hold
    · rw [List.mem_singleton.mp hnew]
      exact ⟨rfl, rfl, hdrawn⟩
  · intro stream
    rw [hrowsFrom]
    exact h.beginning stream
  · intro stream row hrow
    rw [hrowsFrom] at hrow
    exact h.staged stream row hrow

theorem FollowsSender.stage (h : FollowsSender sender sent inbox) (hout : Outgoing sender sent)
    {envelope : Envelope} {digest : String} (hdue : Due sent inbox envelope)
    (hnew : forall row, row ∈ inbox.rows -> row.messageId ≠ envelope.messageId)
    (hrows : inbox'.rows = inbox.rows ++ [Inbox.newRow envelope digest .staged]) :
    FollowsSender sender sent inbox' := by
  rcases hdue with ⟨front, rest, hsplit, hfront⟩
  have hmem : forall other, other ∈ front ++ envelope :: rest ->
      other.stream = envelope.stream ∧ other.sourceId = sender.nodeId ∧ Drawn sender other := by
    intro other hother
    rw [← hsplit] at hother
    exact hout.own _ other hother
  rcases hmem envelope (List.mem_append_right _ List.mem_cons_self) with ⟨_, hsource, hdrawn⟩
  have hread : (rowsFrom sender inbox envelope.stream).map (fun row => row.envelope) = front := by
    have hbeginning := h.beginning envelope.stream
    have hnodup := hout.once envelope.stream
    rw [hsplit] at hbeginning hnodup
    apply eq_of_read hnodup hbeginning
    · intro other hother
      rcases hfront other hother with ⟨row, hrow, rfl, _⟩
      rcases hmem row.envelope (List.mem_append_left _ hother) with ⟨hstream, hother, _⟩
      rw [← hstream]
      exact List.mem_map_of_mem (h.mem_of_stored hrow hother)
    · intro hstored
      rcases List.mem_map.mp hstored with ⟨row, hrow, hsame⟩
      have hrow := (mem_rowsFrom.mp hrow).1
      exact hnew row hrow (by rw [(h.rows row hrow).1, hsame])
  have hrowsFrom : rowsFrom sender inbox' envelope.stream =
      rowsFrom sender inbox envelope.stream ++ [Inbox.newRow envelope digest .staged] := by
    simp [rowsFrom, hrows, List.filter_append, Inbox.newRow, laneOf, hsource]
  have hother : forall stream, stream ≠ envelope.stream ->
      rowsFrom sender inbox' stream = rowsFrom sender inbox stream := by
    intro stream hne
    simp [rowsFrom, hrows, List.filter_append, Inbox.newRow, laneOf, hne.symm]
  constructor
  · intro row hrow
    rw [hrows] at hrow
    rcases List.mem_append.mp hrow with hold | hadded
    · exact h.rows row hold
    · rw [List.mem_singleton.mp hadded]
      exact ⟨rfl, rfl, hdrawn⟩
  · intro stream
    by_cases hstream : stream = envelope.stream
    · rw [hstream, hrowsFrom, List.map_append, hread, hsplit]
      exact ⟨rest, by simp [Inbox.newRow]⟩
    · rw [hother stream hstream]
      exact h.beginning stream
  · intro stream row hrow
    by_cases hstream : stream = envelope.stream
    · rw [hstream, hrowsFrom, List.dropLast_concat] at hrow
      have henvelope : row.envelope ∈ front := by
        rw [← hread]
        exact List.mem_map_of_mem hrow
      exact settled_row (hfront row.envelope henvelope) h (mem_rowsFrom.mp hrow).1 rfl
    · rw [hother stream hstream] at hrow
      exact h.staged stream row hrow

theorem FollowsSender.grow (h : FollowsSender sender sent inbox)
    (hgrow : forall stream, sent stream <+: sent' stream) : FollowsSender sender sent' inbox where
  rows := h.rows
  beginning stream := (h.beginning stream).trans (hgrow stream)
  staged := h.staged

theorem FollowsSender.arrived_isPrefix (h : FollowsSender sender sent inbox) (stream : Stream) :
    arrived sender inbox stream <+: sent stream := by
  refine List.IsPrefix.trans (List.IsPrefix.map _ ?_) (h.beginning stream)
  apply filter_isPrefix
  intro row hrow
  simpa using h.staged stream row hrow

theorem FollowsSender.mem_arrived (h : FollowsSender sender sent inbox) {envelope : Envelope}
    (hsettled : SettledRow inbox envelope) (hsource : envelope.sourceId = sender.nodeId) :
    envelope ∈ arrived sender inbox envelope.stream := by
  rcases hsettled with ⟨row, hrow, rfl, hstatus⟩
  refine List.mem_map_of_mem (List.mem_filter.mpr ⟨h.mem_of_stored hrow hsource, ?_⟩)
  simpa using hstatus

end

/-!
## Tasks that rely on a row
-/

def Task.needs? : Task -> Option Envelope
  | .accept envelope _ | .containsExact envelope | .discardStaged envelope
  | .activate envelope _ => some envelope
  | _ => none

theorem streamFrom_of_needs {sender : Sender} {t : Task} {envelope : Envelope}
    (h : t.needs? = some envelope) (hsource : envelope.sourceId = sender.nodeId) :
    t.streamFrom? sender = some envelope.stream := by
  cases t with
  | accept other isNew =>
      cases h
      exact if_pos hsource
  | containsExact other =>
      cases h
      exact if_pos hsource
  | discardStaged other =>
      cases h
      exact if_pos hsource
  | activate other status =>
      cases h
      exact if_pos hsource
  | _ => cases h

section

variable {sender : Sender} {sent sent' : Stream -> List Envelope} {m m' : Memory} {t : Task}
variable {ts ts' : Multiset Task}

theorem Due.kept {inbox inbox' : Inbox} {envelope : Envelope} (h : Due sent inbox envelope)
    (hsettled : forall other, SettledRow inbox other -> SettledRow inbox' other) :
    Due sent inbox' envelope := by
  rcases h with ⟨front, rest, hsplit, hfront⟩
  exact ⟨front, rest, hsplit, fun other hother => hsettled other (hfront other hother)⟩

theorem Due.grow {inbox : Inbox} {envelope : Envelope} (h : Due sent inbox envelope)
    (hgrow : forall stream, sent stream <+: sent' stream) : Due sent' inbox envelope := by
  rcases h with ⟨front, rest, hsplit, hfront⟩
  rcases hgrow envelope.stream with ⟨more, hmore⟩
  refine ⟨front, rest ++ more, ?_, hfront⟩
  rw [← hmore, hsplit, List.append_assoc, List.cons_append]

theorem Counts.kept {inbox inbox' : Inbox} (h : Counts sender sent inbox t)
    (hsettled : forall other, SettledRow inbox other -> SettledRow inbox' other)
    (hstored : forall other, t.needs? = some other -> other.sourceId = sender.nodeId ->
      Stored inbox other -> Stored inbox' other) : Counts sender sent inbox' t := by
  cases t with
  | receive peerId envelope =>
      intro hpeer
      exact ⟨(h hpeer).1, fun hsource => ((h hpeer).2 hsource).kept hsettled⟩
  | enqueue envelope => exact ⟨h.1, fun hsource => (h.2 hsource).kept hsettled⟩
  | accept envelope isNew => exact ⟨h.1, fun hsource => hstored _ rfl hsource (h.2 hsource)⟩
  | containsExact envelope => exact ⟨h.1, fun hsource => hstored _ rfl hsource (h.2 hsource)⟩
  | discardStaged envelope => exact ⟨h.1, fun hsource => hstored _ rfl hsource (h.2 hsource)⟩
  | activate envelope status => exact ⟨h.1, fun hsource => hstored _ rfl hsource (h.2 hsource)⟩
  | acknowledge envelope status => exact fun hsource => hsettled _ (h hsource)
  | claim => trivial
  | finish messageId => trivial

theorem Counts.grow {inbox : Inbox} (h : Counts sender sent inbox t)
    (hgrow : forall stream, sent stream <+: sent' stream) : Counts sender sent' inbox t := by
  cases t with
  | receive peerId envelope =>
      intro hpeer
      exact ⟨(h hpeer).1, fun hsource => ((h hpeer).2 hsource).grow hgrow⟩
  | enqueue envelope => exact ⟨h.1, fun hsource => (h.2 hsource).grow hgrow⟩
  | _ => exact h

/-!
## Steps
-/

theorem Arrives.drop (h : Arrives sender sent m ts) (hle : ts' ≤ ts) :
    Arrives sender sent m ts' where
  inbox := h.inbox
  acknowledged := h.acknowledged
  single := Multiset.nodup_of_le (Multiset.filterMap_le_filterMap _ hle) h.single
  counts t ht := h.counts t (Multiset.mem_of_le hle ht)

theorem Arrives.grow (h : Arrives sender sent m ts)
    (hgrow : forall stream, sent stream <+: sent' stream) : Arrives sender sent' m ts where
  inbox := h.inbox.grow hgrow
  acknowledged := h.acknowledged
  single := h.single
  counts t ht := (h.counts t ht).grow hgrow

theorem Arrives.kept (h : Arrives sender sent m ts) (hinbox : FollowsSender sender sent m'.inbox)
    (hsettled : forall other, SettledRow m.inbox other -> SettledRow m'.inbox other)
    (hstored : forall t other, t ∈ ts -> t.needs? = some other ->
      other.sourceId = sender.nodeId -> Stored m.inbox other -> Stored m'.inbox other)
    (hacknowledged : m'.acknowledged = m.acknowledged) : Arrives sender sent m' ts where
  inbox := hinbox
  acknowledged entry hentry hsource := by
    rw [hacknowledged] at hentry
    exact hsettled _ (h.acknowledged entry hentry hsource)
  single := h.single
  counts t ht := (h.counts t ht).kept hsettled (fun other => hstored t other ht)

theorem Arrives.setStatus (h : Arrives sender sent m ts) (p : InboxRow -> Bool)
    {status : InboxStatus} (hstatus : status ≠ .staged) :
    Arrives sender sent { m with inbox := m.inbox.setStatus p status } ts :=
  h.kept (h.inbox.setStatus p hstatus) (fun _ hother => hother.setStatus p hstatus)
    (fun _ _ _ _ _ hother => hother.setStatus p status) rfl

theorem Arrives.add (h : Arrives sender sent m ts) (hcounts : Counts sender sent m.inbox t)
    (halone : forall stream, t.streamFrom? sender = some stream ->
      forall other, other ∈ ts -> other.streamFrom? sender ≠ some stream) :
    Arrives sender sent m (t ::ₘ ts) where
  inbox := h.inbox
  acknowledged := h.acknowledged
  single := by
    cases hstream : t.streamFrom? sender with
    | none =>
        rw [Multiset.filterMap_cons_none _ _ hstream]
        exact h.single
    | some stream =>
        rw [Multiset.filterMap_cons_some _ _ _ hstream, Multiset.nodup_cons]
        refine ⟨?_, h.single⟩
        intro hmem
        rcases (Multiset.mem_filterMap _ _).mp hmem with ⟨other, hother, hsame⟩
        exact halone stream hstream other hother hsame
  counts other hother := by
    rcases Multiset.mem_cons.mp hother with rfl | hother
    · exact hcounts
    · exact h.counts other hother

theorem Arrives.alone (h : Arrives sender sent m (t ::ₘ ts)) {stream : Stream}
    (ht : t.streamFrom? sender = some stream) (other : Task) (hother : other ∈ ts) :
    other.streamFrom? sender ≠ some stream := by
  have hsingle := h.single
  rw [Multiset.filterMap_cons_some _ _ _ ht, Multiset.nodup_cons] at hsingle
  intro hsame
  exact hsingle.1 ((Multiset.mem_filterMap _ _).mpr ⟨other, hother, hsame⟩)

theorem Arrives.next {next : Task} (h : Arrives sender sent m (t ::ₘ ts))
    (hrest : Arrives sender sent m' ts)
    (hsame : next.streamFrom? sender = t.streamFrom? sender)
    (hcounts : Counts sender sent m'.inbox next) : Arrives sender sent m' (next ::ₘ ts) := by
  apply hrest.add hcounts
  intro stream hstream
  exact h.alone (hsame.symm.trans hstream)

theorem source_of_checkReceived {peerId : String} {envelope : Envelope}
    (h : checkReceived peerId envelope = .ok ()) : peerId = envelope.sourceId := by
  rcases bind_eq_ok.mp h with ⟨_, _, hrefused⟩
  by_contra hne
  rw [refuseWhen, decide_eq_true (Ne.symm hne)] at hrefused
  cases hrefused

theorem stored_append {inbox inbox' : Inbox} {added : List InboxRow} {envelope : Envelope}
    (hrows : inbox'.rows = inbox.rows ++ added) (h : Stored inbox envelope) :
    Stored inbox' envelope := by
  rcases h with ⟨row, hrow, hsame⟩
  refine ⟨row, ?_, hsame⟩
  rw [hrows]
  exact List.mem_append_left _ hrow

theorem settledRow_append {inbox inbox' : Inbox} {added : List InboxRow} {envelope : Envelope}
    (hrows : inbox'.rows = inbox.rows ++ added) (h : SettledRow inbox envelope) :
    SettledRow inbox' envelope := by
  rcases h with ⟨row, hrow, hsame, hstatus⟩
  refine ⟨row, ?_, hsame, hstatus⟩
  rw [hrows]
  exact List.mem_append_left _ hrow

theorem Arrives.stage {envelope : Envelope} {inbox : Inbox} {digest : String}
    (hout : Outgoing sender sent) (h : Arrives sender sent m (.enqueue envelope ::ₘ ts))
    (hnew : forall row, row ∈ m.inbox.rows -> row.messageId ≠ envelope.messageId)
    (hrows : inbox.rows = m.inbox.rows ++ [Inbox.newRow envelope digest .staged]) :
    Arrives sender sent { m with inbox := inbox } (.accept envelope true ::ₘ ts) := by
  rcases h.counts _ (Multiset.mem_cons_self _ _) with ⟨hdrawn, hdue⟩
  have hinbox : FollowsSender sender sent inbox := by
    by_cases hsource : envelope.sourceId = sender.nodeId
    · exact h.inbox.stage hout (hdue hsource) hnew hrows
    · exact h.inbox.stageOther hsource hdrawn hrows
  refine h.next ((h.drop (Multiset.le_cons_self ts _)).kept hinbox
    (fun _ => settledRow_append hrows) (fun _ _ _ _ _ => stored_append hrows) rfl) rfl ?_
  refine ⟨hdrawn, fun _ => ⟨Inbox.newRow envelope digest .staged, ?_, rfl⟩⟩
  show _ ∈ inbox.rows
  rw [hrows]
  exact List.mem_append_right _ (List.mem_singleton.mpr rfl)

theorem Arrives.discard {envelope : Envelope}
    (h : Arrives sender sent m (.discardStaged envelope ::ₘ ts)) :
    Arrives sender sent { m with inbox := m.inbox.discardStaged envelope.messageId } ts := by
  rcases h.counts _ (Multiset.mem_cons_self _ _) with ⟨hdrawn, hown⟩
  refine (h.drop (Multiset.le_cons_self ts _)).kept (h.inbox.discard _) ?_ ?_ rfl
  · intro other hother
    rcases hother with ⟨row, hrow, hsame, hstatus⟩
    refine ⟨row, Table.mem_delete_iff.mpr ⟨hrow, ?_⟩, hsame, hstatus⟩
    simp [hstatus]
  · intro t other ht hneeds hsource hstored
    rcases hstored with ⟨row, hrow, rfl⟩
    refine ⟨row, Table.mem_delete_iff.mpr ⟨hrow, ?_⟩, rfl⟩
    have hid : row.messageId ≠ envelope.messageId := by
      intro hid
      rcases h.inbox.rows row hrow with ⟨hrowId, _, hrowDrawn⟩
      have hdrawnBy := hrowDrawn.mpr hsource
      rw [← hrowId, hid] at hdrawnBy
      have henvelope := hdrawn.mp hdrawnBy
      rcases hown henvelope with ⟨own, hownRow, rfl⟩
      have hsame : row = own :=
        Inbox.eq_of_messageId hrow hownRow (hid.trans (h.inbox.rows own hownRow).1.symm)
      have hstream : Task.streamFrom? sender (.discardStaged own.envelope) =
          some own.envelope.stream := if_pos henvelope
      apply h.alone hstream t ht
      rw [streamFrom_of_needs hneeds hsource, hsame]
    simp [hid]

theorem Arrives.activate {envelope : Envelope} {status : Acknowledgement}
    (h : Arrives sender sent m (.activate envelope status ::ₘ ts)) :
    Arrives sender sent { m with inbox := m.inbox.activate envelope.messageId }
      (.acknowledge envelope status ::ₘ ts) := by
  rcases h.counts _ (Multiset.mem_cons_self _ _) with ⟨_, hown⟩
  refine h.next ((h.drop (Multiset.le_cons_self ts _)).setStatus _ (by decide)) rfl ?_
  intro hsource
  rcases hown hsource with ⟨row, hrow, rfl⟩
  refine ⟨{ row with status := if row.messageId == row.envelope.messageId &&
    row.status == .staged then .received else row.status }, ?_, rfl, ?_⟩
  · show _ ∈ (m.inbox.activate row.envelope.messageId).rows
    unfold Inbox.activate
    rw [Inbox.rows_setStatus]
    exact List.mem_map.mpr ⟨row, hrow, rfl⟩
  · by_cases hstaged : row.status = .staged
    · simp [hstaged, (h.inbox.rows row hrow).1]
    · simp [hstaged]

end

theorem arrives_keeps {sender : Sender} {sent : Stream -> List Envelope} (config : Config)
    (hout : Outgoing sender sent) :
    (machine config).Keeps (KeepsTurns sender sent) (fun _ _ => True)
      (Arrives sender sent) where
  drop := Arrives.drop
  spawn {m ts entry} _ h hturns := by
    cases entry with
    | work =>
        rw [add_comm]
        exact h.add trivial (fun stream hstream => by cases hstream)
    | connect peerId envelope =>
        rw [add_comm]
        apply h.add
        · intro hpeer
          exact ⟨(hturns hpeer).1, fun hsource => ((hturns hpeer).2 hsource).1⟩
        · intro stream hstream
          simp only [Task.streamFrom?] at hstream
          split_ifs at hstream with hown
          cases hstream
          exact ((hturns hown.1).2 hown.2).2
  crash {m ts} _ h := by
    have hreopened := (h.drop (Multiset.zero_le ts)).setStatus
      (fun row => row.status == .processing) (show InboxStatus.received ≠ .staged by decide)
    exact ⟨hreopened.inbox, hreopened.acknowledged, hreopened.single, hreopened.counts⟩
  exec {m t ts r} _ h _ := by
    have hrest : Arrives sender sent m ts := h.drop (Multiset.le_cons_self ts t)
    have hcounts : Counts sender sent m.inbox t := h.counts t (Multiset.mem_cons_self t ts)
    show Arrives sender sent (exec config m t r).1
      (((exec config m t r).2.tasks : Multiset Task) + ts)
    generalize hresult : exec config m t r = result
    have heffect : Effect config m t result := hresult ▸ exec_effect config m t r
    cases heffect with
    | raised t => exact (zero_add ts).symm ▸ hrest
    | @received peerId envelope hchecked =>
        have hpeer := source_of_checkReceived hchecked
        have hmoved : Arrives sender sent
            { m with offered := recordOffer m.offered envelope } ts :=
          ⟨hrest.inbox, hrest.acknowledged, hrest.single, hrest.counts⟩
        refine h.next hmoved ?_ (hcounts hpeer)
        simp only [Task.streamFrom?, hpeer, true_and]
    | @found envelope row hbound =>
        refine h.next hrest rfl ⟨hcounts.1, fun hsource => ?_⟩
        rcases hcounts.2 hsource with ⟨front, rest, hsplit, _⟩
        have hsent : envelope ∈ sent envelope.stream := by
          rw [hsplit]
          exact List.mem_append_right _ List.mem_cons_self
        exact ⟨row, hbound.1, h.inbox.envelope_eq hout hbound.1 hsent hbound.2.1⟩
    | @staged envelope inbox body hbody hnew hrows => exact h.stage hout hnew hrows
    | replayed envelope isNew hfloor =>
        cases isNew with
        | true => exact h.next hrest rfl hcounts
        | false => exact h.next hrest rfl hcounts
    | @accepted envelope isNew floors hfloor hcommit =>
        have hmoved : Arrives sender sent { m with floors := floors } ts :=
          ⟨hrest.inbox, hrest.acknowledged, hrest.single, hrest.counts⟩
        exact h.next hmoved rfl hcounts
    | contained hbound => exact h.next hrest rfl hcounts
    | discarded envelope => exact (zero_add ts).symm ▸ h.discard
    | activated envelope status => exact h.activate
    | acknowledged envelope status =>
        rw [Flow.tasks_next, Multiset.coe_nil, zero_add]
        refine ⟨hrest.inbox, ?_, hrest.single, hrest.counts⟩
        intro entry hentry hsource
        rcases List.mem_append.mp hentry with hold | hnew
        · exact hrest.acknowledged entry hold hsource
        · cases List.mem_singleton.mp hnew
          exact hcounts hsource
    | idle => exact (zero_add ts).symm ▸ hrest
    | @claimed row inbox hclaim =>
        rcases Inbox.claim_eq_some hclaim with ⟨_, _, rfl⟩
        exact (hrest.setStatus _ (by decide)).add trivial (fun stream hstream => by cases hstream)
    | finished messageId raised =>
        rw [Flow.tasks_next, Multiset.coe_nil, zero_add]
        exact hrest.setStatus _ (by cases raised <;> decide)

theorem initial_arrives (sender : Sender) (sent : Stream -> List Envelope) :
    Arrives sender sent Memory.initial 0 where
  inbox :=
    { rows := fun row hrow => by cases hrow
      beginning := fun _ => List.nil_prefix
      staged := fun _ row hrow => by cases hrow }
  acknowledged entry hentry := by cases hentry
  single := Multiset.nodup_zero
  counts t ht := by cases Multiset.notMem_zero t ht

theorem acknowledged_advances (config : Config) :
    (machine config).Advances (fun a b => a.acknowledged <+: b.acknowledged) where
  refl _ := List.prefix_rfl
  trans := List.IsPrefix.trans
  exec m t r := by
    show m.acknowledged <+: (Delivery.exec config m t r).1.acknowledged
    have heffect := exec_effect config m t r
    generalize Delivery.exec config m t r = result at heffect
    cases heffect with
    | acknowledged envelope status => exact List.prefix_append _ _
    | _ => exact List.prefix_rfl
  restart _ := List.prefix_rfl

end Ump.Delivery
