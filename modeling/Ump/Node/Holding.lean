import Ump.Node.Workers

/-!
# Rows that workers hold

## One row for each worker

A worker between its claim and its finish holds the row of its envelope, which nobody
else changes meanwhile: connections touch staged rows only, and a claim takes a row that
has been received.
-/

namespace Ump.Node

open Foundation Delivery

structure Formed (row : InboxRow) : Prop where
  messageId : row.messageId = row.envelope.messageId
  lane : row.lane = laneOf row.envelope
  sequence : row.sequence = row.envelope.sequence
  priority : row.priority = if row.envelope.stream = .safety then 1 else 0

def heldIds (ts : Multiset Task) : Multiset String :=
  ts.filterMap (fun t => t.working?.map (fun envelope => envelope.messageId))

structure Holding (m : Memory) (ts : Multiset Task) : Prop where
  formed : forall row, row ∈ m.inbox.rows -> Formed row
  connections : forall inner, .connection inner ∈ ts ->
    exists envelope, inner.attempt? = some envelope
  held : forall t envelope, t ∈ ts -> t.working? = some envelope ->
    exists row, row ∈ m.inbox.rows ∧ row.envelope = envelope ∧ row.status = .processing
  once : (heldIds ts).Nodup

/-!
## Rows that an operation leaves alone
-/

theorem mem_setStatus_of_not {inbox : Inbox} {p : InboxRow -> Bool} {status : InboxStatus}
    {row : InboxRow} (hrow : row ∈ inbox.rows) (hp : p row = false) :
    row ∈ (inbox.setStatus p status).rows := by
  rw [Inbox.rows_setStatus]
  refine List.mem_map.mpr ⟨row, hrow, ?_⟩
  rw [hp]
  rfl

theorem mem_setStatus {inbox : Inbox} {p : InboxRow -> Bool} {status : InboxStatus}
    {row' : InboxRow} (h : row' ∈ (inbox.setStatus p status).rows) :
    exists row, row ∈ inbox.rows ∧
      row' = { row with status := if p row then status else row.status } := by
  rw [Inbox.rows_setStatus] at h
  rcases List.mem_map.mp h with ⟨row, hrow, rfl⟩
  exact ⟨row, hrow, rfl⟩

theorem formed_setStatus {inbox : Inbox} {p : InboxRow -> Bool} {status : InboxStatus}
    (h : forall row, row ∈ inbox.rows -> Formed row) (row' : InboxRow)
    (hrow' : row' ∈ (inbox.setStatus p status).rows) : Formed row' := by
  rcases mem_setStatus hrow' with ⟨row, hrow, rfl⟩
  exact ⟨(h row hrow).messageId, (h row hrow).lane, (h row hrow).sequence,
    (h row hrow).priority⟩

theorem formed_newRow (envelope : Envelope) (digest : String) (status : InboxStatus) :
    Formed (Inbox.newRow envelope digest status) :=
  ⟨rfl, rfl, rfl, rfl⟩

theorem heldIds_cons_some {t : Task} {envelope : Envelope} (h : t.working? = some envelope)
    (ts : Multiset Task) : heldIds (t ::ₘ ts) = envelope.messageId ::ₘ heldIds ts := by
  unfold heldIds
  apply Multiset.filterMap_cons_some
  rw [h]
  rfl

theorem heldIds_idle {tasks : List Task} (h : forall t, t ∈ tasks -> t.Idle)
    (ts : Multiset Task) : heldIds ((tasks : Multiset Task) + ts) = heldIds ts := by
  unfold heldIds
  apply filterMap_idle
  intro t ht
  rw [(h t ht).working]
  rfl

theorem mem_heldIds {ts : Multiset Task} {messageId : String} :
    messageId ∈ heldIds ts <-> exists t envelope, t ∈ ts ∧ t.working? = some envelope ∧
      envelope.messageId = messageId := by
  unfold heldIds
  rw [Multiset.mem_filterMap]
  constructor
  · rintro ⟨t, ht, hfound⟩
    rcases Option.map_eq_some_iff.mp hfound with ⟨envelope, hworking, hid⟩
    exact ⟨t, envelope, ht, hworking, hid⟩
  · rintro ⟨t, envelope, ht, hworking, hid⟩
    exact ⟨t, ht, by rw [hworking, Option.map_some, hid]⟩

namespace Holding

variable {m m' : Memory} {t : Task} {ts : Multiset Task}

theorem drop {ts' : Multiset Task} (h : Holding m ts) (hle : ts' ≤ ts) : Holding m ts' where
  formed := h.formed
  connections inner ht := h.connections inner (Multiset.mem_of_le hle ht)
  held t envelope ht := h.held t envelope (Multiset.mem_of_le hle ht)
  once := Multiset.nodup_of_le (Multiset.filterMap_le_filterMap _ hle) h.once

theorem idle {tasks : List Task} (h : Holding m ts)
    (hformed : forall row, row ∈ m'.inbox.rows -> Formed row)
    (hkept : forall row, row ∈ m.inbox.rows -> row.status = .processing ->
      row ∈ m'.inbox.rows)
    (hidle : forall t', t' ∈ tasks -> t'.Idle) :
    Holding m' ((tasks : Multiset Task) + ts) where
  formed := hformed
  connections inner ht := by
    rcases Multiset.mem_add.mp ht with hnew | hold
    · cases hidle _ (Multiset.mem_coe.mp hnew) with
      | connection hattempt => exact ⟨_, hattempt⟩
    · exact h.connections inner hold
  held t envelope ht hworking := by
    rcases Multiset.mem_add.mp ht with hnew | hold
    · rw [(hidle t (Multiset.mem_coe.mp hnew)).working] at hworking
      cases hworking
    · rcases h.held t envelope hold hworking with ⟨row, hrow, henvelope, hprocessing⟩
      exact ⟨row, hkept row hrow hprocessing, henvelope, hprocessing⟩
  once := by
    rw [heldIds_idle hidle]
    exact h.once

theorem pass {next : Task} {envelope : Envelope} (h : Holding m (t ::ₘ ts))
    (hinbox : m'.inbox = m.inbox) (ht : t.working? = some envelope)
    (hnext : next.working? = some envelope) : Holding m' (next ::ₘ ts) where
  formed := by
    rw [hinbox]
    exact h.formed
  connections inner hinner := by
    rcases Multiset.mem_cons.mp hinner with rfl | hold
    · cases hnext
    · exact h.connections inner (Multiset.mem_cons_of_mem hold)
  held t' other ht' hworking := by
    rw [hinbox]
    rcases Multiset.mem_cons.mp ht' with rfl | hold
    · rw [hnext] at hworking
      cases hworking
      exact h.held t envelope (Multiset.mem_cons_self t ts) ht
    · exact h.held t' other (Multiset.mem_cons_of_mem hold) hworking
  once := by
    have honce := h.once
    rw [heldIds_cons_some ht] at honce
    rw [heldIds_cons_some hnext]
    exact honce

theorem other_id {envelope : Envelope} (h : Holding m (t ::ₘ ts))
    (ht : t.working? = some envelope) {t' : Task} {other : Envelope} (ht' : t' ∈ ts)
    (hworking : t'.working? = some other) : other.messageId ≠ envelope.messageId := by
  have honce := h.once
  rw [heldIds_cons_some ht, Multiset.nodup_cons] at honce
  intro hid
  exact honce.1 (mem_heldIds.mpr ⟨t', other, ht', hworking, hid⟩)

theorem processing {envelope : Envelope} (h : Holding m ts) (ht : t ∈ ts)
    (hworking : t.working? = some envelope) {row : InboxRow} (hrow : row ∈ m.inbox.rows)
    (hid : row.messageId = envelope.messageId) : row.status = .processing := by
  rcases h.held t envelope ht hworking with ⟨held, hheld, henvelope, hstatus⟩
  have hsameId : row.messageId = held.messageId := by
    rw [hid, (h.formed held hheld).messageId, henvelope]
  rw [Inbox.eq_of_messageId hrow hheld hsameId]
  exact hstatus

theorem finish {envelope : Envelope} (raised : Bool)
    (h : Holding m (.finish envelope raised ::ₘ ts)) :
    Holding (m.withInbox (m.inbox.finish envelope.messageId raised)) ts where
  formed := formed_setStatus h.formed
  connections inner ht := h.connections inner (Multiset.mem_cons_of_mem ht)
  held t other ht hworking := by
    rcases h.held t other (Multiset.mem_cons_of_mem ht) hworking with
      ⟨row, hrow, henvelope, hprocessing⟩
    refine ⟨row, mem_setStatus_of_not hrow ?_, henvelope, hprocessing⟩
    have hother := h.other_id rfl ht hworking
    rw [(h.formed row hrow).messageId, henvelope]
    simpa using hother
  once := (h.drop (Multiset.le_cons_self ts _)).once

theorem claim {row : InboxRow} {inbox : Inbox} (h : Holding m ts)
    (hclaim : m.inbox.claim = (some row, inbox)) :
    Holding { m.withInbox inbox with claims := m.claims ++ [(m.process, row)] }
      (.publish row.envelope ::ₘ ts) := by
  rcases Inbox.claim_eq_some hclaim with ⟨hrow, hreceived, rfl⟩
  have hformed := h.formed row hrow
  have hothers : forall other, other ∈ m.inbox.rows -> other.status = .processing ->
      other.messageId ≠ row.messageId := by
    intro other hother hprocessing hid
    rw [Inbox.eq_of_messageId hother hrow hid, hreceived] at hprocessing
    cases hprocessing
  constructor
  · exact formed_setStatus h.formed
  · intro inner hinner
    rcases Multiset.mem_cons.mp hinner with hnew | hold
    · cases hnew
    · exact h.connections inner hold
  · intro t envelope ht hworking
    rcases Multiset.mem_cons.mp ht with rfl | hold
    · cases hworking
      refine ⟨{ row with status := .processing }, ?_, rfl, rfl⟩
      show _ ∈ (m.inbox.setStatus (fun other => other.messageId == row.messageId)
        .processing).rows
      rw [Inbox.rows_setStatus]
      exact List.mem_map.mpr ⟨row, hrow, by simp⟩
    · rcases h.held t envelope hold hworking with ⟨other, hother, henvelope, hprocessing⟩
      refine ⟨other, mem_setStatus_of_not hother ?_, henvelope, hprocessing⟩
      simpa using hothers other hother hprocessing
  · rw [@heldIds_cons_some (.publish row.envelope) row.envelope rfl, Multiset.nodup_cons]
    refine ⟨?_, h.once⟩
    intro hheld
    rcases mem_heldIds.mp hheld with ⟨t, envelope, ht, hworking, hid⟩
    rcases h.held t envelope ht hworking with ⟨other, hother, henvelope, hprocessing⟩
    apply hothers other hother hprocessing
    rw [(h.formed other hother).messageId, henvelope, hid, ← hformed.messageId]

end Holding

theorem activate_keeps_processing {inbox : Inbox} {messageId : String} {row : InboxRow}
    (hrow : row ∈ inbox.rows) (hstatus : row.status = .processing) :
    row ∈ (inbox.activate messageId).rows := by
  apply mem_setStatus_of_not hrow
  simp [hstatus]

theorem holding_keeps (config : Config) :
    (machine config).Keeps .always (fun _ _ => True) Holding where
  drop h hle := h.drop hle
  spawn {m ts entry} _ h _ := by
    rw [add_comm]
    exact h.idle h.formed (fun _ hrow _ => hrow) (start_idle entry)
  crash {m ts} _ h := by
    constructor
    · exact formed_setStatus h.formed
    · intro inner ht
      cases Multiset.notMem_zero _ ht
    · intro t envelope ht
      cases Multiset.notMem_zero _ ht
    · exact Multiset.nodup_zero
  exec {m t ts r} _ h _ := by
    have hrest := h.drop (Multiset.le_cons_self ts t)
    have heffect := exec_effect config m t r
      (fun inner ht => h.connections inner (ht ▸ Multiset.mem_cons_self t ts))
    show Holding (exec config m t r).1 (((exec config m t r).2.tasks : Multiset Task) + ts)
    generalize exec config m t r = result at heffect
    have hone : forall next : Task, ((([next] : List Task) : Multiset Task) + ts) =
        next ::ₘ ts := by
      intro next
      rw [Multiset.coe_singleton, Multiset.singleton_add]
    have hnone : ((([] : List Task) : Multiset Task) + ts) = ts := by
      rw [Multiset.coe_nil, zero_add]
    have hadded : forall {inbox : Inbox} {row : InboxRow}, Formed row ->
        inbox.rows = m.inbox.rows ++ [row] -> (forall row, row ∈ inbox.rows -> Formed row) ∧
          forall row, row ∈ m.inbox.rows -> row.status = .processing -> row ∈ inbox.rows := by
      intro inbox added hformed hrows
      rw [hrows]
      constructor
      · intro row hrow
        rcases List.mem_append.mp hrow with hold | hnew
        · exact h.formed row hold
        · rw [List.mem_singleton.mp hnew]
          exact hformed
      · exact fun row hrow _ => List.mem_append_left _ hrow
    cases heffect with
    | quiet _ hinbox _ _ _ _ hleaves =>
        refine hrest.idle ?_ ?_ hleaves
        · rw [hinbox]
          exact h.formed
        · intro row hrow _
          rw [hinbox]
          exact hrow
    | staged _ hrows =>
        have hrowsFormed := hadded (formed_newRow _ _ _) hrows
        refine hrest.idle hrowsFormed.1 hrowsFormed.2 ?_
        intro t' ht'
        rw [List.mem_singleton.mp ht']
        exact @Task.Idle.connection _ _ rfl
    | activated envelope status =>
        refine hrest.idle (formed_setStatus h.formed) ?_ ?_
        · intro row hrow hprocessing
          exact activate_keeps_processing hrow hprocessing
        · intro t' ht'
          rw [List.mem_singleton.mp ht']
          exact @Task.Idle.connection _ _ rfl
    | discarded envelope =>
        refine hrest.idle ?_ ?_ (fun t' ht' => by cases ht')
        · intro row hrow
          exact h.formed row (Table.mem_delete_iff.mp hrow).1
        · intro row hrow hprocessing
          exact Table.mem_delete_iff.mpr ⟨hrow, by simp [hprocessing]⟩
    | enqueued _ hrows =>
        have hrowsFormed := hadded (formed_newRow _ _ _) hrows
        exact hrest.idle hrowsFormed.1 hrowsFormed.2 (fun t' ht' => by cases ht')
    | claimed hclaim hflow =>
        have hclaimed := hrest.claim hclaim
        rcases hflow with rfl | ⟨rfl, _⟩
        · rw [Flow.tasks_next, hone]
          exact hclaimed
        · rw [Flow.tasks_raised, hnone]
          exact hclaimed.drop (Multiset.le_cons_self ts _)
    | refused envelope =>
        rw [Flow.tasks_next, hone]
        exact h.pass rfl rfl rfl
    | published envelope =>
        rw [Flow.tasks_next, hone]
        exact h.pass rfl rfl rfl
    | returned envelope =>
        rw [Flow.tasks_next, hone]
        exact h.pass rfl rfl rfl
    | @called envelope handler rest next hnext =>
        rw [Flow.tasks_next, hone]
        refine h.pass rfl rfl ?_
        rcases hnext with rfl | rfl <;> rfl
    | finished envelope raised =>
        rw [Flow.tasks_next, hnone]
        exact h.finish raised

theorem initial_holding : Holding Memory.initial 0 where
  formed row hrow := by cases hrow
  connections inner ht := by cases Multiset.notMem_zero _ ht
  held t envelope ht := by cases Multiset.notMem_zero _ ht
  once := Multiset.nodup_zero

theorem reaches_holding {config : Config} {C : Condition Memory Task Reading Entry}
    {p : Pool Memory Task} (h : (machine config).Reaches C initial p) :
    Holding p.shared p.tasks :=
  (holding_keeps config).reaches (h.weaken (fun _ _ _ _ => trivial)) (fun _ _ => trivial)
    initial_holding

theorem Holding.effect {m : Memory} {t : Task} {ts : Multiset Task}
    (h : Holding m (t ::ₘ ts)) (config : Config) (r : Reading) :
    Effect config m t (exec config m t r) :=
  exec_effect config m t r (fun inner ht => h.connections inner (ht ▸ Multiset.mem_cons_self t ts))

end Ump.Node
