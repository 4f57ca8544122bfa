import Ump.Foundation.Table
import Ump.Protocol.Envelope

/-!
# The durable inbox and the replay floors

## Rows

The receiver keeps two stores with no common transaction. The inbox holds the
envelopes handed over, in the order of their rows, each with the digest of its
bytes. The replay protector holds the last sequence of each lane.
-/

namespace Ump.Delivery

open Foundation

inductive InboxStatus where
  | staged
  | received
  | processing
  | processed
  | failed
deriving DecidableEq, Repr

/-- The sequence numbers of one source, session and stream. -/
structure Lane where
  sourceId : String
  sessionId : String
  stream : Stream
deriving DecidableEq, Repr

def laneOf (envelope : Envelope) : Lane where
  sourceId := envelope.sourceId
  sessionId := envelope.sessionId
  stream := envelope.stream

/-- A row keeps the envelope that the bytes of its `envelope` column decode to. -/
structure InboxRow where
  messageId : String
  lane : Lane
  sequence : Int
  priority : Nat
  envelope : Envelope
  digest : String
  status : InboxStatus

instance : Keyed InboxRow where
  clash a b := a.messageId == b.messageId || (a.lane == b.lane && a.sequence == b.sequence)
  clash_symm a b := by
    rw [BEq.comm (a := a.messageId), BEq.comm (a := a.lane), BEq.comm (a := a.sequence)]

abbrev Inbox := Table InboxRow

namespace Inbox

/-!
## Handing over
-/

def newRow (envelope : Envelope) (digest : String) (status : InboxStatus) : InboxRow where
  messageId := envelope.messageId
  lane := laneOf envelope
  sequence := envelope.sequence
  priority := if envelope.stream = .safety then 1 else 0
  envelope := envelope
  digest := digest
  status := status

def row? (inbox : Inbox) (messageId : String) : Option InboxRow :=
  inbox.fetch (fun row => row.messageId == messageId)

def enqueue (sha256 : Text -> String) (inbox : Inbox) (envelope : Envelope) (ready : Bool) :
    Except Exn (Bool × Inbox) := do
  let body <- envelope.encode
  match inbox.row? envelope.messageId with
  | some row =>
      if row.digest ≠ sha256 body then
        .error (.runtime "inbox message ID is bound to different content")
      else
        .ok (false, inbox)
  | none => do
      bindInteger envelope.sequence
      match inbox.insert? (newRow envelope (sha256 body)
        (if ready then .received else .staged)) with
      | some inbox => .ok (true, inbox)
      | none => .error .integrity

def setStatus (inbox : Inbox) (p : InboxRow -> Bool) (status : InboxStatus) : Inbox :=
  inbox.update p (fun row => { row with status := status }) (fun _ _ => rfl)

def activate (inbox : Inbox) (messageId : String) : Inbox :=
  inbox.setStatus (fun row => row.messageId == messageId && row.status == .staged) .received

def discardStaged (inbox : Inbox) (messageId : String) : Inbox :=
  inbox.delete (fun row => row.messageId == messageId && row.status == .staged)

def containsExact (sha256 : Text -> String) (inbox : Inbox) (envelope : Envelope) :
    Except Exn Bool := do
  let body <- envelope.encode
  match inbox.row? envelope.messageId with
  | some row => .ok (row.digest == sha256 body)
  | none => .ok false

/-!
## Workers
-/

/-- The received rows with no received or processing row of their lane before them;
the first argument holds the rows before. -/
def candidates : List InboxRow -> List InboxRow -> List InboxRow
  | _, [] => []
  | earlier, row :: rest =>
      if row.status == .received && !earlier.any (fun other => other.lane == row.lane &&
          (other.status == .received || other.status == .processing)) then
        row :: candidates (earlier ++ [row]) rest
      else
        candidates (earlier ++ [row]) rest

/-- `ORDER BY priority DESC, inbox_order LIMIT 1`. -/
def claimable (inbox : Inbox) : Option InboxRow :=
  ((candidates [] inbox.rows).insertionSort (fun a b => b.priority ≤ a.priority)).head?

def claim (inbox : Inbox) : Option InboxRow × Inbox :=
  match inbox.claimable with
  | none => (none, inbox)
  | some row =>
      (some row, inbox.setStatus (fun other => other.messageId == row.messageId) .processing)

/-- The status that a worker writes when the handler has returned or raised. -/
def finish (inbox : Inbox) (messageId : String) (raised : Bool) : Inbox :=
  inbox.setStatus (fun row => row.messageId == messageId)
    (if raised then .failed else .processed)

/-- What opening the inbox does to interrupted work. -/
def reopen (inbox : Inbox) : Inbox :=
  inbox.setStatus (fun row => row.status == .processing) .received

/-!
## What the operations do to the rows
-/

theorem row?_eq_some {inbox : Inbox} {messageId : String} {row : InboxRow}
    (h : inbox.row? messageId = some row) :
    row ∈ inbox.rows ∧ row.messageId = messageId := by
  rcases Table.fetch_eq_some h with ⟨hrow, hid⟩
  exact ⟨hrow, by simpa using hid⟩

theorem row?_eq_none {inbox : Inbox} {messageId : String} :
    inbox.row? messageId = none <->
      forall row, row ∈ inbox.rows -> row.messageId ≠ messageId := by
  unfold row?
  rw [Table.fetch_eq_none]
  simp

theorem eq_of_messageId {inbox : Inbox} {a b : InboxRow} (ha : a ∈ inbox.rows)
    (hb : b ∈ inbox.rows) (h : a.messageId = b.messageId) : a = b :=
  Table.eq_of_clash ha hb (by simp [Keyed.clash, h])

theorem row?_of_mem {inbox : Inbox} {row : InboxRow} (hrow : row ∈ inbox.rows) :
    inbox.row? row.messageId = some row := by
  refine Table.fetch_of_mem hrow (by simp) ?_
  intro other _ hid
  simp only [beq_iff_eq] at hid
  simp [Keyed.clash, hid]

@[simp] theorem rows_setStatus (inbox : Inbox) (p : InboxRow -> Bool)
    (status : InboxStatus) :
    (inbox.setStatus p status).rows = inbox.rows.map
      (fun row => { row with status := if p row then status else row.status }) := by
  refine List.map_congr_left ?_
  intro row _
  cases p row <;> rfl

theorem enqueue_eq_ok {sha256 : Text -> String} {inbox inbox' : Inbox}
    {envelope : Envelope} {ready isNew : Bool}
    (h : inbox.enqueue sha256 envelope ready = .ok (isNew, inbox')) :
    exists body, envelope.encode = .ok body ∧
      ((isNew = false ∧ inbox' = inbox ∧ exists row, row ∈ inbox.rows ∧
          row.messageId = envelope.messageId ∧ row.digest = sha256 body) ∨
        (isNew = true ∧
          (forall row, row ∈ inbox.rows -> row.messageId ≠ envelope.messageId) ∧
          inbox'.rows = inbox.rows ++ [newRow envelope (sha256 body)
            (if ready then .received else .staged)])) := by
  rcases bind_eq_ok.mp h with ⟨body, hbody, h⟩
  refine ⟨body, hbody, ?_⟩
  cases hrow : inbox.row? envelope.messageId with
  | some row =>
      rw [hrow] at h
      by_cases hdigest : row.digest ≠ sha256 body
      · simp [hdigest] at h
      · simp only [if_neg hdigest] at h
        cases h
        rcases row?_eq_some hrow with ⟨hmem, hid⟩
        exact Or.inl ⟨rfl, rfl, row, hmem, hid, not_not.mp hdigest⟩
  | none =>
      rw [hrow] at h
      rcases bind_eq_ok.mp h with ⟨_, _, h⟩
      cases hinsert : inbox.insert? (newRow envelope (sha256 body)
          (if ready then .received else .staged)) with
      | none =>
          rw [hinsert] at h
          cases h
      | some added =>
          rw [hinsert] at h
          cases h
          exact Or.inr ⟨rfl, row?_eq_none.mp hrow, (Table.insert?_eq_some hinsert).1⟩

theorem enqueue_of_mem {sha256 : Text -> String} {inbox : Inbox} {envelope : Envelope}
    {body : Text} (ready : Bool) (hbody : envelope.encode = .ok body) {row : InboxRow}
    (hrow : row ∈ inbox.rows) (hid : row.messageId = envelope.messageId)
    (hdigest : row.digest = sha256 body) :
    inbox.enqueue sha256 envelope ready = .ok (false, inbox) := by
  have hfound : inbox.row? envelope.messageId = some row := hid ▸ row?_of_mem hrow
  unfold enqueue
  rw [hbody]
  simp only [bind, Except.bind, hfound, hdigest, ne_eq, not_true_eq_false, if_false]

theorem clash_newRow {row : InboxRow} {envelope : Envelope} {digest : String}
    {status : InboxStatus} :
    Keyed.clash row (newRow envelope digest status) = false <->
      row.messageId ≠ envelope.messageId ∧
        (row.lane = laneOf envelope -> row.sequence ≠ envelope.sequence) := by
  simp only [Keyed.clash, newRow, Bool.or_eq_false_iff, Bool.and_eq_false_iff,
    beq_eq_false_iff_ne, imp_iff_not_or, ne_eq]

theorem enqueue_of_fresh {sha256 : Text -> String} {inbox : Inbox} {envelope : Envelope}
    {body : Text} (ready : Bool) (hbody : envelope.encode = .ok body)
    (hsequence : bindInteger envelope.sequence = .ok ())
    (hid : forall row, row ∈ inbox.rows -> row.messageId ≠ envelope.messageId)
    (hlane : forall row, row ∈ inbox.rows -> row.lane = laneOf envelope ->
      row.sequence ≠ envelope.sequence) :
    exists inbox', inbox.enqueue sha256 envelope ready = .ok (true, inbox') := by
  have hclash : forall row, row ∈ inbox.rows ->
      Keyed.clash row (newRow envelope (sha256 body)
        (if ready then .received else .staged)) = false :=
    fun row hrow => clash_newRow.mpr ⟨hid row hrow, hlane row hrow⟩
  rcases Table.insert?_of_no_clash hclash with ⟨inbox', hinsert⟩
  refine ⟨inbox', ?_⟩
  unfold enqueue
  rw [hbody]
  simp only [bind, Except.bind, row?_eq_none.mpr hid, hsequence, hinsert]

theorem containsExact_eq_ok {sha256 : Text -> String} {inbox : Inbox}
    {envelope : Envelope} (h : inbox.containsExact sha256 envelope = .ok true) :
    exists body row, envelope.encode = .ok body ∧ row ∈ inbox.rows ∧
      row.messageId = envelope.messageId ∧ row.digest = sha256 body := by
  rcases bind_eq_ok.mp h with ⟨body, hbody, h⟩
  cases hrow : inbox.row? envelope.messageId with
  | none =>
      rw [hrow] at h
      cases h
  | some row =>
      rw [hrow] at h
      rcases row?_eq_some hrow with ⟨hmem, hid⟩
      exact ⟨body, row, hbody, hmem, hid, by simpa using h⟩

theorem containsExact_of_mem {sha256 : Text -> String} {inbox : Inbox}
    {envelope : Envelope} {body : Text} (hbody : envelope.encode = .ok body)
    {row : InboxRow} (hrow : row ∈ inbox.rows) (hid : row.messageId = envelope.messageId)
    (hdigest : row.digest = sha256 body) :
    inbox.containsExact sha256 envelope = .ok true := by
  have hfound : inbox.row? envelope.messageId = some row := hid ▸ row?_of_mem hrow
  unfold containsExact
  rw [hbody]
  simp only [bind, Except.bind, hfound, hdigest, beq_self_eq_true]

theorem mem_candidates {earlier rows : List InboxRow} {row : InboxRow}
    (h : row ∈ candidates earlier rows) : row ∈ rows ∧ row.status = .received := by
  induction rows generalizing earlier with
  | nil => cases h
  | cons head rest ih =>
      unfold candidates at h
      by_cases hselected : (head.status == .received && !earlier.any (fun other =>
          other.lane == head.lane &&
            (other.status == .received || other.status == .processing))) = true
      · rw [if_pos hselected] at h
        rcases List.mem_cons.mp h with rfl | hrest
        · have hstatus := (Bool.and_eq_true_iff.mp hselected).1
          exact ⟨List.mem_cons_self, by simpa using hstatus⟩
        · exact ⟨List.mem_cons_of_mem _ (ih hrest).1, (ih hrest).2⟩
      · rw [if_neg hselected] at h
        exact ⟨List.mem_cons_of_mem _ (ih h).1, (ih h).2⟩

theorem claimable_eq_some {inbox : Inbox} {row : InboxRow}
    (h : inbox.claimable = some row) : row ∈ inbox.rows ∧ row.status = .received := by
  have hmem := List.mem_of_mem_head? (Option.mem_def.mpr h)
  exact mem_candidates ((List.mem_insertionSort _).mp hmem)

theorem claim_eq_some {inbox inbox' : Inbox} {row : InboxRow}
    (h : inbox.claim = (some row, inbox')) :
    row ∈ inbox.rows ∧ row.status = .received ∧
      inbox' = inbox.setStatus (fun other => other.messageId == row.messageId)
        .processing := by
  unfold claim at h
  cases hrow : inbox.claimable with
  | none =>
      rw [hrow] at h
      cases h
  | some first =>
      rw [hrow] at h
      cases h
      rcases claimable_eq_some hrow with ⟨hstored, hstatus⟩
      exact ⟨hstored, hstatus, rfl⟩

end Inbox

/-!
## Replay floors
-/

/-- `SqliteReplayProtector`, or the `ReplayProtector` of one process with its
`maximum_sessions`. -/
inductive ReplayProtector where
  | sqlite
  | memory (maximumSessions : Nat)
deriving DecidableEq, Repr

/-- The last sequence of each lane, the lane used last at the end. -/
abbrev Floors := List (Lane × Int)

namespace Floors

def floor (floors : Floors) (lane : Lane) : Int :=
  (floors.lookup lane).getD 0

def raiseTo (floors : Floors) (lane : Lane) (sequence : Int) : Floors :=
  floors.filter (fun entry => entry.1 != lane) ++ [(lane, sequence)]

/-- The body of `accept` once the sequence is above the floor. -/
def commit (protector : ReplayProtector) (floors : Floors) (lane : Lane) (sequence : Int) :
    Except Exn Floors :=
  match protector with
  | .sqlite => do
      bindInteger sequence
      .ok (floors.raiseTo lane sequence)
  | .memory maximumSessions =>
      let raised := floors.raiseTo lane sequence
      .ok (raised.drop (raised.length - maximumSessions))

/-- What is left of the floors when the process ends. -/
def reopen (protector : ReplayProtector) (floors : Floors) : Floors :=
  match protector with
  | .sqlite => floors
  | .memory _ => []

theorem lookup_filter_ne {floors : Floors} {lane other : Lane} (h : other ≠ lane) :
    (floors.filter (fun entry => entry.1 != lane)).lookup other = floors.lookup other := by
  induction floors with
  | nil => rfl
  | cons head rest ih =>
      rcases head with ⟨headLane, sequence⟩
      by_cases hhead : headLane = lane
      · subst hhead
        have hne : (other == headLane) = false := by simpa using h
        simp [List.lookup_cons, ih, hne]
      · simp [hhead, List.lookup_cons, ih]

theorem lookup_filter_self (floors : Floors) (lane : Lane) :
    (floors.filter (fun entry => entry.1 != lane)).lookup lane = none := by
  rw [List.lookup_eq_none_iff]
  intro entry hentry
  have hne := (List.mem_filter.mp hentry).2
  simpa [bne, BEq.comm] using hne

@[simp] theorem floor_raiseTo_self (floors : Floors) (lane : Lane) (sequence : Int) :
    (floors.raiseTo lane sequence).floor lane = sequence := by
  unfold floor raiseTo
  rw [List.lookup_append, lookup_filter_self]
  simp

theorem floor_raiseTo_ne {floors : Floors} {lane other : Lane} (h : other ≠ lane)
    (sequence : Int) : (floors.raiseTo lane sequence).floor other = floors.floor other := by
  have hne : (other == lane) = false := by simpa using h
  unfold floor raiseTo
  rw [List.lookup_append, lookup_filter_ne h]
  simp [List.lookup_cons, hne]

end Floors

end Ump.Delivery
