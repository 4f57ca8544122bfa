import Ump.Foundation.RowOrder
import Ump.Foundation.Transaction
import Ump.Protocol.Envelope

/-!
# The durable outbox

## Rows

Every envelope that a peer has to get is one row, in the order of the `INSERT`s, with the
bytes that were encoded. A row stays when it has been delivered.
-/

namespace Ump.Delivery

open Foundation

inductive DeliveryStatus where
  | pending
  | delivered
deriving DecidableEq, Repr

structure OutboxRow where
  peerId : String
  messageId : String
  sessionId : String
  stream : Stream
  sequence : Int
  priority : Nat
  envelope : Envelope
  body : Text
  status : DeliveryStatus
  attempts : Nat
  nextAttemptMs : Int
  createdAtMs : Int

instance : Keyed OutboxRow where
  clash a b := a.peerId == b.peerId && (a.messageId == b.messageId ||
    (a.sessionId == b.sessionId && a.stream == b.stream && a.sequence == b.sequence))
  clash_symm a b := by
    rw [BEq.comm (a := a.peerId), BEq.comm (a := a.messageId), BEq.comm (a := a.sessionId),
      BEq.comm (a := a.stream), BEq.comm (a := a.sequence)]

abbrev Outbox := Table OutboxRow

/-- `maximum_pending` and `safety_reserve` as the constructor lets them pass. -/
structure Limits where
  maximumPending : Nat
  safetyReserve : Nat
  reserved : safetyReserve < maximumPending

/-- The checks and the default of `SqliteOutbox.__init__`. -/
def Limits.make (maximumPending : Int) (safetyReserve : Option Int) : Except Exn Limits :=
  if maximumPending < 1 then
    .error (.value "maximum_pending must be positive")
  else
    let reserve := safetyReserve.getD (min 64 (maximumPending / 10))
    if h : 0 ≤ reserve ∧ reserve < maximumPending then
      .ok
        { maximumPending := maximumPending.toNat
          safetyReserve := reserve.toNat
          reserved := by omega }
    else
      .error (.value "safety_reserve must be smaller than maximum_pending")

/-- One delivery of a batch with its encoded bytes. -/
structure Item where
  peerId : String
  envelope : Envelope
  body : Text

def Item.key (item : Item) : String × String :=
  (item.peerId, item.envelope.messageId)

namespace Outbox

/-!
## Enqueueing
-/

def keyOf (row : OutboxRow) : String × String :=
  (row.peerId, row.messageId)

def row? (outbox : Outbox) (key : String × String) : Option OutboxRow :=
  outbox.fetch (fun row => keyOf row == key)

/-- `SELECT COUNT(*) ... WHERE status = 'pending'`. -/
def pending (outbox : Outbox) : Nat :=
  outbox.rows.countP (fun row => row.status == .pending)

def operationalPending (outbox : Outbox) : Nat :=
  outbox.rows.countP (fun row => row.status == .pending && row.stream == .operational)

def encodeAll : List (String × Envelope) -> Except Exn (List Item)
  | [] => .ok []
  | (peerId, envelope) :: rest => do
      let body <- envelope.encode
      let items <- encodeAll rest
      .ok ({ peerId := peerId, envelope := envelope, body := body } :: items)

def boundText : String := "outbox message ID is bound to different content"

def refuseRepeated (seen : List ((String × String) × Text)) (item : Item) :
    Except Exn Unit :=
  refuseWhen ((seen.lookup item.key).any (fun prior => decide (prior ≠ item.body))) boundText

def refuseStored (row : OutboxRow) (item : Item) : Except Exn Unit :=
  refuseWhen (decide (row.body ≠ item.body)) boundText

def addNew (newItems : List Item) (item : Item) : List Item :=
  if newItems.any (fun other => other.key == item.key) then newItems else newItems ++ [item]

/-- The loop of `enqueue_many`: the items that are not stored yet, each once. -/
def collect (outbox : Outbox) :
    List ((String × String) × Text) -> List Item -> List Item -> Except Exn (List Item)
  | _, newItems, [] => .ok newItems
  | seen, newItems, item :: rest => do
      refuseRepeated seen item
      match outbox.row? item.key with
      | some row => do
          refuseStored row item
          outbox.collect ((item.key, item.body) :: seen) newItems rest
      | none => outbox.collect ((item.key, item.body) :: seen) (addNew newItems item) rest

/-- The first `OutboxFullError`. -/
def checkPending (limits : Limits) (pending : Nat) (newItems : List Item) : Except Exn Unit :=
  if limits.maximumPending < pending + newItems.length then
    .error (.runtime "durable outbound queue is full")
  else
    .ok ()

def newOperational (newItems : List Item) : Nat :=
  newItems.countP (fun item => item.envelope.stream == .operational)

/-- The second `OutboxFullError`. -/
def checkOperational (limits : Limits) (operationalPending : Nat) (newItems : List Item) :
    Except Exn Unit :=
  if limits.maximumPending - limits.safetyReserve <
      operationalPending + newOperational newItems then
    .error (.runtime "durable outbound queue is preserving safety capacity")
  else
    .ok ()

def newRow (nowMs : Int) (item : Item) : OutboxRow where
  peerId := item.peerId
  messageId := item.envelope.messageId
  sessionId := item.envelope.sessionId
  stream := item.envelope.stream
  sequence := item.envelope.sequence
  priority := if item.envelope.stream = .safety then 1 else 0
  envelope := item.envelope
  body := item.body
  status := .pending
  attempts := 0
  nextAttemptMs := nowMs
  createdAtMs := nowMs

def insertOne (outbox : Outbox) (nowMs : Int) (item : Item) : Except Exn Outbox := do
  bindInteger item.envelope.sequence
  bindInteger nowMs
  match outbox.insert? (newRow nowMs item) with
  | some outbox => .ok outbox
  | none => .error .integrity

def insertAll (nowMs : Int) : List Item -> Outbox -> Except Exn Outbox
  | [], outbox => .ok outbox
  | item :: rest, outbox => do
      let outbox <- outbox.insertOne nowMs item
      insertAll nowMs rest outbox

def enqueueMany (limits : Limits) (outbox : Outbox) (deliveries : List (String × Envelope))
    (nowMs : Int) : Except Exn Outbox :=
  match deliveries with
  | [] => .ok outbox
  | _ => do
      let items <- encodeAll deliveries
      let newItems <- outbox.collect [] [] items
      checkPending limits outbox.pending newItems
      checkOperational limits outbox.operationalPending newItems
      insertAll nowMs newItems outbox

/-!
## Delivering
-/

structure PendingDelivery where
  peerId : String
  envelope : Envelope
  attempts : Nat
  nextAttemptMs : Int

/-- The row with the least `queue_order` among the pending rows of a peer and stream. -/
def firstPending (outbox : Outbox) (peerId : String) (stream : Stream) : Option OutboxRow :=
  outbox.fetch (fun row => row.peerId == peerId && row.stream == stream &&
    row.status == .pending)

def isFirst (outbox : Outbox) (row : OutboxRow) : Bool :=
  (outbox.firstPending row.peerId row.stream).any (fun first =>
    first.messageId == row.messageId)

/-- `ORDER BY priority DESC, created_at_ms, peer_id`. -/
def sorts (a b : OutboxRow) : Prop :=
  b.priority < a.priority ∨ b.priority = a.priority ∧
    (a.createdAtMs < b.createdAtMs ∨ a.createdAtMs = b.createdAtMs ∧ a.peerId ≤ b.peerId)

instance : DecidableRel sorts := fun a b => by
  unfold sorts
  infer_instance

/-- The rows of the `WHERE` clause. -/
def due (outbox : Outbox) (nowMs : Int) (stream? : Option Stream) : List OutboxRow :=
  outbox.rows.filter (fun row => row.status == .pending && outbox.isFirst row &&
    stream?.all (fun stream => row.stream == stream) && decide (row.nextAttemptMs ≤ nowMs))

def readyRows (outbox : Outbox) (nowMs limit : Int) (stream? : Option Stream) :
    List OutboxRow :=
  ((outbox.due nowMs stream?).insertionSort sorts).take limit.toNat

def decodeAll : List OutboxRow -> Except Exn (List PendingDelivery)
  | [] => .ok []
  | row :: rest => do
      row.envelope.checkDecoded
      let items <- decodeAll rest
      .ok
        ({ peerId := row.peerId
           envelope := row.envelope
           attempts := row.attempts
           nextAttemptMs := row.nextAttemptMs } :: items)

def ready (outbox : Outbox) (nowMs limit : Int) (stream? : Option Stream) :
    Except Exn (List PendingDelivery) := do
  refuseWhen (decide (limit < 1)) "delivery limit must be positive"
  bindInteger nowMs
  bindInteger limit
  decodeAll (outbox.readyRows nowMs limit stream?)

theorem keepsKeys_status (status : DeliveryStatus) :
    Table.KeepsKeys (fun row : OutboxRow => { row with status := status }) :=
  fun _ _ => rfl

theorem keepsKeys_attempt (attempts : Nat) (nextAttemptMs : Int) :
    Table.KeepsKeys (fun row : OutboxRow =>
      { row with attempts := attempts, nextAttemptMs := nextAttemptMs }) :=
  fun _ _ => rfl

def delivered (outbox : Outbox) (key : String × String) (nowMs : Int) :
    Except Exn Outbox := do
  bindInteger nowMs
  .ok (outbox.update (fun row => keyOf row == key && row.status == .pending)
    (fun row => { row with status := .delivered }) (keepsKeys_status .delivered))

/-- The row that `failed` reads. -/
def attempted (outbox : Outbox) (key : String × String) : Option OutboxRow :=
  outbox.fetch (fun row => keyOf row == key && row.status == .pending)

/-- Exponential backoff with a cap, from the number of attempts so far. -/
def delay (attempts : Nat) (baseDelayMs maximumDelayMs : Int) : Int :=
  min (baseDelayMs * 2 ^ min (attempts - 1) 16) maximumDelayMs

/-- The `UPDATE` of `failed`. -/
def postpone (outbox : Outbox) (key : String × String) (attempts : Nat)
    (nowMs nextAttemptMs : Int) : Except Exn Outbox := do
  bindInteger nextAttemptMs
  bindInteger nowMs
  .ok (outbox.update (fun row => keyOf row == key)
    (fun row => { row with attempts := attempts, nextAttemptMs := nextAttemptMs })
    (keepsKeys_attempt attempts nextAttemptMs))

def failed (outbox : Outbox) (key : String × String) (nowMs baseDelayMs maximumDelayMs : Int) :
    Except Exn Outbox :=
  match outbox.attempted key with
  | none => .ok outbox
  | some row => outbox.postpone key (row.attempts + 1) nowMs
      (nowMs + delay (row.attempts + 1) baseDelayMs maximumDelayMs)

def baseDelayMs : Int := 250
def maximumDelayMs : Int := 30000

/-!
## What the statements read
-/

theorem eq_of_key {outbox : Outbox} {a b : OutboxRow} (ha : a ∈ outbox.rows)
    (hb : b ∈ outbox.rows) (h : keyOf a = keyOf b) : a = b := by
  rcases Prod.mk.inj h with ⟨hpeer, hmessage⟩
  exact Table.eq_of_clash ha hb (by simp [Keyed.clash, hpeer, hmessage])

theorem row?_eq_some {outbox : Outbox} {key : String × String} {row : OutboxRow}
    (h : outbox.row? key = some row) : row ∈ outbox.rows ∧ keyOf row = key := by
  rcases Table.fetch_eq_some h with ⟨hrow, hkey⟩
  exact ⟨hrow, by simpa using hkey⟩

theorem row?_eq_none {outbox : Outbox} {key : String × String} :
    outbox.row? key = none <-> forall row, row ∈ outbox.rows -> keyOf row ≠ key := by
  unfold row?
  rw [Table.fetch_eq_none]
  simp

theorem row?_of_mem {outbox : Outbox} {row : OutboxRow} (h : row ∈ outbox.rows) :
    outbox.row? (keyOf row) = some row := by
  refine Table.fetch_of_mem h (by simp) ?_
  intro other _ hkey
  rcases Prod.mk.inj (beq_iff_eq.mp hkey) with ⟨hpeer, hmessage⟩
  simp [Keyed.clash, hpeer, hmessage]

/-!
## What a batch adds
-/

theorem encodeAll_eq_ok {deliveries : List (String × Envelope)} {items : List Item}
    (h : encodeAll deliveries = .ok items) :
    items.map (fun item => (item.peerId, item.envelope)) = deliveries ∧
      forall item, item ∈ items -> item.envelope.encode = .ok item.body := by
  induction deliveries generalizing items with
  | nil =>
      cases h
      exact ⟨rfl, fun item hitem => by cases hitem⟩
  | cons first rest ih =>
      rcases first with ⟨peerId, envelope⟩
      rcases bind_eq_ok.mp h with ⟨body, hbody, h⟩
      rcases bind_eq_ok.mp h with ⟨others, hothers, h⟩
      cases h
      rcases ih hothers with ⟨hmap, hencoded⟩
      constructor
      · rw [List.map_cons, hmap]
      · intro item hitem
        rcases List.mem_cons.mp hitem with rfl | hitem
        · exact hbody
        · exact hencoded item hitem

/-- What the loop has noted: each new item is there once, with the bytes seen for it. -/
structure Noted (seen : List ((String × String) × Text)) (newItems : List Item) : Prop where
  once : (newItems.map Item.key).Nodup
  bodies : forall item, item ∈ newItems -> seen.lookup item.key = some item.body

theorem refuseRepeated_eq_ok {seen : List ((String × String) × Text)} {item : Item}
    (h : refuseRepeated seen item = .ok ()) {body : Text}
    (hseen : seen.lookup item.key = some body) : body = item.body := by
  have hnot := refuseWhen_eq_ok h
  simpa [hseen] using hnot

theorem lookup_seen (seen : List ((String × String) × Text)) (item : Item)
    (key : String × String) : ((item.key, item.body) :: seen).lookup key =
      if key = item.key then some item.body else seen.lookup key := by
  rw [List.lookup_cons]
  by_cases hkey : key = item.key
  · simp [hkey]
  · have hne : (key == item.key) = false := beq_eq_false_iff_ne.mpr hkey
    simp [hne, hkey]

theorem Noted.see {seen : List ((String × String) × Text)} {newItems : List Item} {item : Item}
    (h : Noted seen newItems) (hchecked : refuseRepeated seen item = .ok ()) :
    Noted ((item.key, item.body) :: seen) newItems where
  once := h.once
  bodies other hother := by
    rw [lookup_seen]
    split_ifs with hkey
    · have hbody := h.bodies other hother
      rw [hkey] at hbody
      rw [refuseRepeated_eq_ok hchecked hbody]
    · exact h.bodies other hother

theorem mem_addNew {newItems : List Item} {item other : Item} (h : other ∈ newItems) :
    other ∈ addNew newItems item := by
  unfold addNew
  split_ifs
  · exact h
  · exact List.mem_append_left _ h

theorem Noted.add {seen : List ((String × String) × Text)} {newItems : List Item} {item : Item}
    (h : Noted ((item.key, item.body) :: seen) newItems) :
    Noted ((item.key, item.body) :: seen) (addNew newItems item) ∧
      exists other, other ∈ addNew newItems item ∧ other.key = item.key ∧
        other.body = item.body := by
  unfold addNew
  by_cases hany : newItems.any (fun other => other.key == item.key) = true
  · rw [if_pos hany]
    rcases List.any_eq_true.mp hany with ⟨other, hother, hkey⟩
    have hkey : other.key = item.key := by simpa using hkey
    have hbody := h.bodies other hother
    rw [lookup_seen, if_pos hkey] at hbody
    exact ⟨h, other, hother, hkey, (Option.some.inj hbody).symm⟩
  · rw [if_neg hany]
    have hfresh : item.key ∉ newItems.map Item.key := by
      intro hmem
      rcases List.mem_map.mp hmem with ⟨other, hother, hkey⟩
      exact hany (List.any_eq_true.mpr ⟨other, hother, by simpa using hkey⟩)
    constructor
    · constructor
      · rw [List.map_append, List.map_singleton, ← List.concat_eq_append]
        exact List.Nodup.concat hfresh h.once
      · intro other hother
        rcases List.mem_append.mp hother with hold | hnew
        · exact h.bodies other hold
        · rw [List.mem_singleton.mp hnew, lookup_seen, if_pos rfl]
    · exact ⟨item, List.mem_append_right _ (List.mem_singleton_self _), rfl, rfl⟩

/-- The item is stored, or it is among the new ones, with the same bytes. -/
def Covered (outbox : Outbox) (newItems : List Item) (item : Item) : Prop :=
  (exists row, row ∈ outbox.rows ∧ keyOf row = item.key ∧ row.body = item.body) ∨
    exists other, other ∈ newItems ∧ other.key = item.key ∧ other.body = item.body

structure Collected (outbox : Outbox) (newItems items result : List Item) : Prop where
  grows : newItems <+: result
  fresh : forall item, item ∈ result -> item ∈ newItems ∨
    item ∈ items ∧ outbox.row? item.key = none
  once : (result.map Item.key).Nodup
  covered : forall item, item ∈ items -> Covered outbox result item

theorem addNew_grows (newItems : List Item) (item : Item) :
    newItems <+: addNew newItems item := by
  unfold addNew
  split_ifs
  · exact List.prefix_refl _
  · exact List.prefix_append _ _

theorem of_mem_addNew {newItems : List Item} {item other : Item}
    (h : other ∈ addNew newItems item) : other ∈ newItems ∨ other = item := by
  unfold addNew at h
  split_ifs at h
  · exact Or.inl h
  · rcases List.mem_append.mp h with hold | hnew
    · exact Or.inl hold
    · exact Or.inr (List.mem_singleton.mp hnew)

theorem collect_eq_ok {outbox : Outbox} {seen : List ((String × String) × Text)}
    {newItems items result : List Item} (h : outbox.collect seen newItems items = .ok result)
    (hnoted : Noted seen newItems) : Collected outbox newItems items result := by
  induction items generalizing seen newItems with
  | nil =>
      cases h
      exact ⟨List.prefix_refl _, fun _ hitem => Or.inl hitem, hnoted.once,
        fun item hitem => by cases hitem⟩
  | cons item rest ih =>
      unfold collect at h
      rcases bind_eq_ok.mp h with ⟨_, hchecked, h⟩
      have hsee := hnoted.see hchecked
      cases hrow : outbox.row? item.key with
      | some row =>
          rw [hrow] at h
          rcases bind_eq_ok.mp h with ⟨_, hstored, h⟩
          have hcollected := ih h hsee
          constructor
          · exact hcollected.grows
          · intro other hother
            rcases hcollected.fresh other hother with hold | ⟨hmem, hnone⟩
            · exact Or.inl hold
            · exact Or.inr ⟨List.mem_cons_of_mem _ hmem, hnone⟩
          · exact hcollected.once
          · intro other hother
            rcases List.mem_cons.mp hother with rfl | hother
            · rcases row?_eq_some hrow with ⟨hmem, hkey⟩
              exact Or.inl ⟨row, hmem, hkey, by simpa using refuseWhen_eq_ok hstored⟩
            · exact hcollected.covered other hother
      | none =>
          rw [hrow] at h
          rcases hsee.add with ⟨hadded, other, hother, hkey, hbody⟩
          have hcollected := ih h hadded
          constructor
          · exact (addNew_grows newItems item).trans hcollected.grows
          · intro result hresult
            rcases hcollected.fresh result hresult with hold | ⟨hmem, hnone⟩
            · rcases of_mem_addNew hold with hold | rfl
              · exact Or.inl hold
              · exact Or.inr ⟨List.mem_cons_self, hrow⟩
            · exact Or.inr ⟨List.mem_cons_of_mem _ hmem, hnone⟩
          · exact hcollected.once
          · intro next hnext
            rcases List.mem_cons.mp hnext with rfl | hnext
            · exact Or.inr ⟨other, hcollected.grows.subset hother, hkey, hbody⟩
            · exact hcollected.covered next hnext

theorem insertAll_eq_ok {nowMs : Int} {items : List Item} {outbox outbox' : Outbox}
    (h : insertAll nowMs items outbox = .ok outbox') :
    outbox'.rows = outbox.rows ++ items.map (newRow nowMs) := by
  induction items generalizing outbox with
  | nil =>
      cases h
      rw [List.map_nil, List.append_nil]
  | cons item rest ih =>
      rcases bind_eq_ok.mp h with ⟨added, hone, h⟩
      rcases bind_eq_ok.mp hone with ⟨_, _, hone⟩
      rcases bind_eq_ok.mp hone with ⟨_, _, hone⟩
      cases hinsert : outbox.insert? (newRow nowMs item) with
      | none =>
          rw [hinsert] at hone
          cases hone
      | some inserted =>
          rw [hinsert] at hone
          cases hone
          rw [ih h, (Table.insert?_eq_some hinsert).1, List.map_cons, List.append_assoc,
            List.singleton_append]

/-- What a batch has added when it is accepted. -/
structure Added (limits : Limits) (outbox : Outbox) (deliveries : List (String × Envelope))
    (nowMs : Int) (newItems : List Item) (outbox' : Outbox) : Prop where
  rows : outbox'.rows = outbox.rows ++ newItems.map (newRow nowMs)
  items : exists items, encodeAll deliveries = .ok items ∧
    outbox.collect [] [] items = .ok newItems
  fits : newItems = [] ∨ outbox.pending + newItems.length ≤ limits.maximumPending ∧
    outbox.operationalPending + newOperational newItems ≤
      limits.maximumPending - limits.safetyReserve

theorem enqueueMany_eq_ok {limits : Limits} {outbox outbox' : Outbox}
    {deliveries : List (String × Envelope)} {nowMs : Int}
    (h : enqueueMany limits outbox deliveries nowMs = .ok outbox') :
    exists newItems, Added limits outbox deliveries nowMs newItems outbox' := by
  cases deliveries with
  | nil =>
      cases h
      refine ⟨[], ?_, ⟨[], rfl, rfl⟩, Or.inl rfl⟩
      rw [List.map_nil, List.append_nil]
  | cons first rest =>
      rcases bind_eq_ok.mp h with ⟨items, hitems, h⟩
      rcases bind_eq_ok.mp h with ⟨newItems, hnew, h⟩
      rcases bind_eq_ok.mp h with ⟨_, hpending, h⟩
      rcases bind_eq_ok.mp h with ⟨_, hoperational, h⟩
      refine ⟨newItems, insertAll_eq_ok h, ⟨items, hitems, hnew⟩, Or.inr ⟨?_, ?_⟩⟩
      · unfold checkPending at hpending
        split_ifs at hpending with hfull
        exact Nat.not_lt.mp hfull
      · unfold checkOperational at hoperational
        split_ifs at hoperational with hfull
        exact Nat.not_lt.mp hfull

end Outbox

end Ump.Delivery
