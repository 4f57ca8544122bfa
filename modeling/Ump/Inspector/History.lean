import Ump.Foundation.Table
import Ump.Protocol.Envelope

/-!
# The recorded history

## The store

The inspector subscribes to every message of the bus and keeps what it observes in one table.
An observation that cannot be recorded latches an error, after which nothing is recorded.
-/

namespace Ump.Inspector

open Foundation

/-- A row of `protocol_events`, in the order of `event_order`. -/
structure EventRow where
  messageId : String
  messageType : MessageType
  sourceId : String
  sessionId : String
  sequence : Int
  timestampMs : Int
  correlationId : Option String
  envelope : Text
deriving DecidableEq

instance : Keyed EventRow where
  clash a b := a.messageId == b.messageId ||
    (a.sourceId == b.sourceId && a.sessionId == b.sessionId && a.sequence == b.sequence)
  clash_symm a b := by
    rw [BEq.comm (a := a.messageId), BEq.comm (a := a.sourceId), BEq.comm (a := a.sessionId),
      BEq.comm (a := a.sequence)]

/-- The values that `record` binds. -/
def newRow (envelope : Envelope) : Except Exn EventRow := do
  let encoded <- envelope.encode
  bindInteger envelope.sequence
  bindInteger envelope.timestampMs
  .ok
    { messageId := envelope.messageId
      messageType := envelope.messageType
      sourceId := envelope.sourceId
      sessionId := envelope.sessionId
      sequence := envelope.sequence
      timestampMs := envelope.timestampMs
      correlationId := envelope.correlationId
      envelope := encoded }

/-- `InspectorStore.record`: `INSERT OR IGNORE`, and whether a row was added. -/
def record (events : Table EventRow) (envelope : Envelope) :
    Except Exn (Bool × Table EventRow) := do
  let row <- newRow envelope
  match events.insert? row with
  | some events => .ok (true, events)
  | none => .ok (false, events)

/-- `InspectorRecorder`. -/
structure Recorder where
  events : Table EventRow
  error : Option Exn

namespace Recorder

def initial : Recorder where
  events := Table.empty
  error := none

/-- `_record`. -/
def observe (recorder : Recorder) (envelope : Envelope) : Recorder :=
  match recorder.error with
  | some _ => recorder
  | none =>
      match record recorder.events envelope with
      | .ok (_, events) => { recorder with events := events }
      | .error e => { recorder with error := some e }

def observeAll (envelopes : List Envelope) : Recorder :=
  envelopes.foldl observe initial

end Recorder

/-!
## What is recorded
-/

/-- Each distinct envelope once, in the order of first observation. Envelopes are told apart
by their columns and their bytes; one without bytes is in no history. -/
def RecordsOnce (envelopes : List Envelope) : Prop :=
  (Recorder.observeAll envelopes).events.rows.map some =
    (envelopes.map (fun envelope => (newRow envelope).toOption)).eraseDups

def SharesKey (a b : Envelope) : Prop :=
  a.messageId = b.messageId ∨
    (a.sourceId = b.sourceId ∧ a.sessionId = b.sessionId ∧ a.sequence = b.sequence)

/-- Every envelope has bytes and numbers that fit their columns, and envelopes that share a
key of the table are the same. -/
structure Recordable (envelopes : List Envelope) : Prop where
  encodes : forall envelope, envelope ∈ envelopes -> exists encoded,
    envelope.encode = .ok encoded
  fits : forall envelope, envelope ∈ envelopes ->
    bindInteger envelope.sequence = .ok () ∧ bindInteger envelope.timestampMs = .ok ()
  apart : forall a b, a ∈ envelopes -> b ∈ envelopes -> SharesKey a b ->
    newRow a = newRow b

theorem newRow_eq_ok {envelope : Envelope} {row : EventRow} (h : newRow envelope = .ok row) :
    (exists encoded, envelope.encode = .ok encoded) ∧
      bindInteger envelope.sequence = .ok () ∧ bindInteger envelope.timestampMs = .ok () ∧
      row.messageId = envelope.messageId ∧ row.sourceId = envelope.sourceId ∧
      row.sessionId = envelope.sessionId ∧ row.sequence = envelope.sequence := by
  rcases bind_eq_ok.mp h with ⟨encoded, hencoded, h⟩
  rcases bind_eq_ok.mp h with ⟨_, hsequence, h⟩
  rcases bind_eq_ok.mp h with ⟨_, htimestamp, h⟩
  cases h
  exact ⟨⟨encoded, hencoded⟩, hsequence, htimestamp, rfl, rfl, rfl, rfl⟩

theorem newRow_of_fits {envelope : Envelope} {encoded : Text}
    (hencoded : envelope.encode = .ok encoded)
    (hfits : bindInteger envelope.sequence = .ok () ∧
      bindInteger envelope.timestampMs = .ok ()) : exists row, newRow envelope = .ok row := by
  unfold newRow
  rw [hencoded, hfits.1, hfits.2]
  exact ⟨_, rfl⟩

theorem clash_iff {a b : Envelope} {rowA rowB : EventRow} (ha : newRow a = .ok rowA)
    (hb : newRow b = .ok rowB) : Keyed.clash rowA rowB = true <-> SharesKey a b := by
  rcases newRow_eq_ok ha with ⟨_, _, _, haId, haSource, haSession, haSequence⟩
  rcases newRow_eq_ok hb with ⟨_, _, _, hbId, hbSource, hbSession, hbSequence⟩
  show (rowA.messageId == rowB.messageId || (rowA.sourceId == rowB.sourceId &&
    rowA.sessionId == rowB.sessionId && rowA.sequence == rowB.sequence)) = true <-> _
  rw [haId, haSource, haSession, haSequence, hbId, hbSource, hbSession, hbSequence,
    Bool.or_eq_true, Bool.and_eq_true, Bool.and_eq_true, beq_iff_eq, beq_iff_eq, beq_iff_eq,
    beq_iff_eq, and_assoc]
  rfl

theorem ok_of_toOption {x : Except Exn α} {v : α} (h : x.toOption = some v) : x = .ok v := by
  cases x with
  | error e => cases h
  | ok w => rw [Option.some.inj h]

theorem eraseDups_concat_of_mem [BEq α] [LawfulBEq α] {items : List α} {item : α}
    (h : item ∈ items) : (items ++ [item]).eraseDups = items.eraseDups := by
  rw [List.eraseDups_append]
  simp [List.removeAll, h]

theorem eraseDups_concat_of_not_mem [BEq α] [LawfulBEq α] {items : List α} {item : α}
    (h : item ∉ items) : (items ++ [item]).eraseDups = items.eraseDups ++ [item] := by
  rw [List.eraseDups_append]
  simp [List.removeAll, h, List.eraseDups_cons]

/-!
### One observation
-/

theorem observe_seen {recorder : Recorder} (herror : recorder.error = none)
    {envelope : Envelope} {row : EventRow} (hrow : newRow envelope = .ok row)
    (hmem : row ∈ recorder.events.rows) : recorder.observe envelope = recorder := by
  have hnone : recorder.events.insert? row = none := by
    cases hinsert : recorder.events.insert? row with
    | none => rfl
    | some events =>
        have hclash := (Table.insert?_eq_some hinsert).2 row hmem
        rw [(clash_iff hrow hrow).mpr (Or.inl rfl)] at hclash
        cases hclash
  have hrecord : record recorder.events envelope = .ok (false, recorder.events) := by
    unfold record
    rw [hrow]
    show (match recorder.events.insert? row with
      | some events => Except.ok (true, events)
      | none => .ok (false, recorder.events)) = _
    rw [hnone]
  rcases recorder with ⟨events, error⟩
  cases herror
  unfold Recorder.observe
  dsimp only at hrecord ⊢
  rw [hrecord]

theorem observe_new {recorder : Recorder} (herror : recorder.error = none)
    {envelope : Envelope} {row : EventRow} (hrow : newRow envelope = .ok row)
    (hfree : forall old, old ∈ recorder.events.rows -> Keyed.clash old row = false) :
    (recorder.observe envelope).error = none ∧
      (recorder.observe envelope).events.rows = recorder.events.rows ++ [row] := by
  rcases Table.insert?_of_no_clash hfree with ⟨events, hinsert⟩
  have hrecord : record recorder.events envelope = .ok (true, events) := by
    unfold record
    rw [hrow]
    show (match recorder.events.insert? row with
      | some events => Except.ok (true, events)
      | none => .ok (false, recorder.events)) = _
    rw [hinsert]
  rcases recorder with ⟨before, error⟩
  cases herror
  unfold Recorder.observe
  dsimp only at hrecord ⊢
  rw [hrecord]
  exact ⟨rfl, (Table.insert?_eq_some hinsert).1⟩

/-!
### Every sequence of observations
-/

theorem rows_of_recordable {envelopes : List Envelope} (h : Recordable envelopes) :
    (Recorder.observeAll envelopes).error = none ∧ RecordsOnce envelopes := by
  unfold RecordsOnce
  induction envelopes using List.reverseRecOn with
  | nil => exact ⟨rfl, rfl⟩
  | append_singleton before envelope ih =>
      have hbefore : Recordable before := by
        constructor
        · exact fun other hother => h.encodes other (List.mem_append_left _ hother)
        · exact fun other hother => h.fits other (List.mem_append_left _ hother)
        · exact fun a b ha hb =>
            h.apart a b (List.mem_append_left _ ha) (List.mem_append_left _ hb)
      rcases ih hbefore with ⟨herror, hrows⟩
      have hlast : envelope ∈ before ++ [envelope] :=
        List.mem_append_right _ List.mem_cons_self
      rcases h.encodes envelope hlast with ⟨encoded, hencoded⟩
      rcases newRow_of_fits hencoded (h.fits envelope hlast) with ⟨row, hrow⟩
      have hobserve : Recorder.observeAll (before ++ [envelope]) =
          (Recorder.observeAll before).observe envelope := List.foldl_concat ..
      have hmem : some row ∈ before.map (fun envelope => (newRow envelope).toOption) <->
          row ∈ (Recorder.observeAll before).events.rows := by
        rw [← List.mem_eraseDups, ← hrows, List.mem_map]
        simp
      rw [hobserve, List.map_append, List.map_singleton, hrow,
        show (Except.ok row : Except Exn EventRow).toOption = some row from rfl]
      by_cases hseen : row ∈ (Recorder.observeAll before).events.rows
      · rw [observe_seen herror hrow hseen, eraseDups_concat_of_mem (hmem.mpr hseen)]
        exact ⟨herror, hrows⟩
      · have hfree : forall old, old ∈ (Recorder.observeAll before).events.rows ->
            Keyed.clash old row = false := by
          intro old hold
          have holdMem : some old ∈
              before.map (fun envelope => (newRow envelope).toOption) := by
            rw [← List.mem_eraseDups, ← hrows]
            exact List.mem_map_of_mem hold
          rcases List.mem_map.mp holdMem with ⟨other, hother, holdRow⟩
          have hotherRow := ok_of_toOption holdRow
          rw [Bool.eq_false_iff]
          intro hclash
          have hsame := h.apart other envelope (List.mem_append_left _ hother) hlast
            ((clash_iff hotherRow hrow).mp hclash)
          rw [hotherRow, hrow] at hsame
          rw [Except.ok.inj hsame] at hold
          exact hseen hold
        rcases observe_new herror hrow hfree with ⟨herror', hrows'⟩
        rw [eraseDups_concat_of_not_mem (fun hold => hseen (hmem.mp hold)), hrows',
          List.map_append, hrows]
        exact ⟨herror', rfl⟩

theorem recordable_of_recordsOnce {envelopes : List Envelope} (h : RecordsOnce envelopes) :
    Recordable envelopes := by
  have hstored : forall envelope, envelope ∈ envelopes -> exists row,
      newRow envelope = .ok row ∧ row ∈ (Recorder.observeAll envelopes).events.rows := by
    intro envelope henvelope
    have hmem : (newRow envelope).toOption ∈
        (Recorder.observeAll envelopes).events.rows.map some := by
      rw [show List.map some _ = _ from h, List.mem_eraseDups]
      exact List.mem_map_of_mem henvelope
    rcases List.mem_map.mp hmem with ⟨row, hrow, hsome⟩
    exact ⟨row, ok_of_toOption hsome.symm, hrow⟩
  constructor
  · intro envelope henvelope
    rcases hstored envelope henvelope with ⟨row, hrow, _⟩
    exact (newRow_eq_ok hrow).1
  · intro envelope henvelope
    rcases hstored envelope henvelope with ⟨row, hrow, _⟩
    exact ⟨(newRow_eq_ok hrow).2.1, (newRow_eq_ok hrow).2.2.1⟩
  · intro a b ha hb hshares
    rcases hstored a ha with ⟨rowA, hrowA, hmemA⟩
    rcases hstored b hb with ⟨rowB, hrowB, hmemB⟩
    rw [hrowA, hrowB, Table.eq_of_clash hmemA hmemB ((clash_iff hrowA hrowB).mpr hshares)]

/-- The history holds each distinct envelope once, in the order of first observation, exactly
when the observed envelopes can be stored and those that share a key are the same. -/
theorem history_records_once_iff (envelopes : List Envelope) :
    RecordsOnce envelopes <-> Recordable envelopes :=
  ⟨recordable_of_recordsOnce, fun h => (rows_of_recordable h).2⟩

def patrolState (stream : Stream) : Envelope where
  messageId := stream.value
  messageType := .state
  sourceId := "r1"
  sessionId := "boot"
  sequence := 1
  timestampMs := 5
  payload := .obj []
  correlationId := none
  stream := stream

/-- The safety state is dropped: it has the number of the operational state. -/
theorem safety_state_dropped :
    ¬ RecordsOnce [patrolState .operational, patrolState .safety] := by
  unfold RecordsOnce
  decide +kernel

end Ump.Inspector
