import Ump.Delivery.Capacity

/-!
# Opening an outbox of the older schema

## The two tables

The older table has no streams. `_migrate_outbox_streams` copies its rows into a new table,
whose message ids are unique by themselves, while a table of `CREATE TABLE IF NOT EXISTS`
has them unique for each peer.
-/

namespace Ump.Delivery

open Foundation

structure LegacyRow where
  peerId : String
  messageId : String
  sessionId : String
  sequence : Int
  envelope : Envelope
  body : Text
  status : DeliveryStatus
  attempts : Nat
  nextAttemptMs : Int
  createdAtMs : Int

instance : Keyed LegacyRow where
  clash a b := a.peerId == b.peerId && (a.messageId == b.messageId ||
    (a.sessionId == b.sessionId && a.sequence == b.sequence))
  clash_symm a b := by
    rw [BEq.comm (a := a.peerId), BEq.comm (a := a.messageId), BEq.comm (a := a.sessionId),
      BEq.comm (a := a.sequence)]

abbrev LegacyOutbox := Table LegacyRow

/-- The `SELECT` of the migration: the operational stream, priority 0. -/
def LegacyRow.migrated (row : LegacyRow) : OutboxRow where
  peerId := row.peerId
  messageId := row.messageId
  sessionId := row.sessionId
  stream := .operational
  sequence := row.sequence
  priority := 0
  envelope := row.envelope
  body := row.body
  status := row.status
  attempts := row.attempts
  nextAttemptMs := row.nextAttemptMs
  createdAtMs := row.createdAtMs

/-- `message_id TEXT NOT NULL UNIQUE`. -/
def UniqueIds (rows : List OutboxRow) : Prop :=
  rows.Pairwise (fun a b => a.messageId ≠ b.messageId)

/-- The new table of a migration: every constraint of an outbox and one more. -/
structure MigratedOutbox where
  outbox : Outbox
  uniqueIds : UniqueIds outbox.rows

/-- A table of the current schema with the rows of an older one. -/
def LegacyOutbox.fresh (legacy : LegacyOutbox) : Outbox where
  rows := legacy.rows.map LegacyRow.migrated
  distinct := by
    rw [List.pairwise_map]
    apply legacy.distinct.imp
    intro a b h
    simpa [Keyed.clash, LegacyRow.migrated] using h

namespace MigratedOutbox

def empty : MigratedOutbox where
  outbox := Table.empty
  uniqueIds := List.Pairwise.nil

def insert? (migrated : MigratedOutbox) (row : OutboxRow) : Option MigratedOutbox :=
  if h : forall other, other ∈ migrated.outbox.rows -> other.messageId ≠ row.messageId then
    match hinsert : migrated.outbox.insert? row with
    | none => none
    | some outbox =>
        some
          { outbox := outbox
            uniqueIds := by
              unfold UniqueIds
              rw [(Table.insert?_eq_some hinsert).1]
              refine List.pairwise_append.mpr
                ⟨migrated.uniqueIds, List.pairwise_singleton _ _, ?_⟩
              intro a ha b hb
              rw [List.mem_singleton.mp hb]
              exact h a ha }
  else
    none

/-- `UPDATE ... WHERE` of columns without constraints. -/
def update (migrated : MigratedOutbox) (p : OutboxRow -> Bool) (f : OutboxRow -> OutboxRow)
    (hf : Table.KeepsKeys f) (hid : forall row, (f row).messageId = row.messageId) :
    MigratedOutbox where
  outbox := migrated.outbox.update p f hf
  uniqueIds := by
    unfold UniqueIds
    rw [Table.rows_update, List.pairwise_map]
    apply migrated.uniqueIds.imp
    intro a b h
    split_ifs
    · rw [hid, hid]
      exact h
    · rw [hid]
      exact h
    · rw [hid]
      exact h
    · exact h

/-- `INSERT INTO outbound_messages ... SELECT ... FROM outbound_messages_legacy`. -/
def copyAll : List LegacyRow -> MigratedOutbox -> Except Exn MigratedOutbox
  | [], migrated => .ok migrated
  | row :: rest, migrated =>
      match migrated.insert? row.migrated with
      | some migrated => copyAll rest migrated
      | none => .error .integrity

/-- What `SqliteOutbox` makes of an older file; an exception leaves the file as it was. -/
def openLegacy (legacy : LegacyOutbox) : Except Exn MigratedOutbox :=
  copyAll legacy.rows .empty

/-!
## The methods on the new table

They are the statements of the outbox; only the `INSERT` meets the further constraint.
-/

def insertOne (migrated : MigratedOutbox) (nowMs : Int) (item : Item) :
    Except Exn MigratedOutbox := do
  bindInteger item.envelope.sequence
  bindInteger nowMs
  match migrated.insert? (Outbox.newRow nowMs item) with
  | some migrated => .ok migrated
  | none => .error .integrity

def insertAll (nowMs : Int) : List Item -> MigratedOutbox -> Except Exn MigratedOutbox
  | [], migrated => .ok migrated
  | item :: rest, migrated => do
      let migrated <- migrated.insertOne nowMs item
      insertAll nowMs rest migrated

def enqueueMany (limits : Limits) (migrated : MigratedOutbox)
    (deliveries : List (String × Envelope)) (nowMs : Int) : Except Exn MigratedOutbox :=
  match deliveries with
  | [] => .ok migrated
  | _ => do
      let items <- Outbox.encodeAll deliveries
      let newItems <- migrated.outbox.collect [] [] items
      Outbox.checkPending limits migrated.outbox.pending newItems
      Outbox.checkOperational limits migrated.outbox.operationalPending newItems
      insertAll nowMs newItems migrated

def delivered (migrated : MigratedOutbox) (key : String × String) (nowMs : Int) :
    Except Exn MigratedOutbox := do
  bindInteger nowMs
  .ok (migrated.update (fun row => Outbox.keyOf row == key && row.status == .pending)
    (fun row => { row with status := .delivered }) (Outbox.keepsKeys_status .delivered)
    (fun _ => rfl))

def postpone (migrated : MigratedOutbox) (key : String × String) (attempts : Nat)
    (nowMs nextAttemptMs : Int) : Except Exn MigratedOutbox := do
  bindInteger nextAttemptMs
  bindInteger nowMs
  .ok (migrated.update (fun row => Outbox.keyOf row == key)
    (fun row => { row with attempts := attempts, nextAttemptMs := nextAttemptMs })
    (Outbox.keepsKeys_attempt attempts nextAttemptMs) (fun _ => rfl))

def failed (migrated : MigratedOutbox) (key : String × String)
    (nowMs baseDelayMs maximumDelayMs : Int) : Except Exn MigratedOutbox :=
  match migrated.outbox.attempted key with
  | none => .ok migrated
  | some row => migrated.postpone key (row.attempts + 1) nowMs
      (nowMs + Outbox.delay (row.attempts + 1) baseDelayMs maximumDelayMs)

end MigratedOutbox

/-!
## Operations and what they answer
-/

inductive Answer where
  | done
  | deliveries (items : List Outbox.PendingDelivery)

/-- The result or the exception of an operation, and the rows after it. A method that raises
rolls its transaction back. -/
structure Response (rows : Type) where
  answer : Except Exn Answer
  after : rows

def wrote (before : rows) (result : Except Exn rows) : Response rows :=
  match result with
  | .ok after => { answer := .ok .done, after := after }
  | .error e => { answer := .error e, after := before }

def Outbox.respond (limits : Limits) (outbox : Outbox) : Outbox.Operation -> Response Outbox
  | .enqueueMany deliveries nowMs =>
      wrote outbox (Outbox.enqueueMany limits outbox deliveries nowMs)
  | .ready nowMs limit stream? =>
      { answer := (outbox.ready nowMs limit stream?).map .deliveries, after := outbox }
  | .delivered peerId messageId nowMs => wrote outbox (outbox.delivered (peerId, messageId) nowMs)
  | .failed peerId messageId nowMs baseDelayMs maximumDelayMs =>
      wrote outbox (outbox.failed (peerId, messageId) nowMs baseDelayMs maximumDelayMs)
  | .reopen => { answer := .ok .done, after := outbox }

/-- The same operations after a migration. A later opening finds the `stream` column. -/
def MigratedOutbox.respond (limits : Limits) (migrated : MigratedOutbox) :
    Outbox.Operation -> Response MigratedOutbox
  | .enqueueMany deliveries nowMs => wrote migrated (migrated.enqueueMany limits deliveries nowMs)
  | .ready nowMs limit stream? =>
      { answer := (migrated.outbox.ready nowMs limit stream?).map .deliveries, after := migrated }
  | .delivered peerId messageId nowMs =>
      wrote migrated (migrated.delivered (peerId, messageId) nowMs)
  | .failed peerId messageId nowMs baseDelayMs maximumDelayMs =>
      wrote migrated (migrated.failed (peerId, messageId) nowMs baseDelayMs maximumDelayMs)
  | .reopen => { answer := .ok .done, after := migrated }

/-!
## The further constraint
-/

namespace MigratedOutbox

def Unused (migrated : MigratedOutbox) (messageId : String) : Prop :=
  forall row, row ∈ migrated.outbox.rows -> row.messageId ≠ messageId

theorem insert?_eq_some {migrated migrated' : MigratedOutbox} {row : OutboxRow}
    (h : migrated.insert? row = some migrated') :
    migrated.Unused row.messageId ∧ migrated.outbox.insert? row = some migrated'.outbox := by
  unfold insert? at h
  split_ifs at h with hunused
  refine ⟨hunused, ?_⟩
  split at h
  · cases h
  · rename_i outbox hinsert
    cases h
    exact hinsert

theorem insert?_of_unused {migrated : MigratedOutbox} {row : OutboxRow}
    (h : migrated.Unused row.messageId) :
    (migrated.insert? row).map MigratedOutbox.outbox = migrated.outbox.insert? row := by
  unfold insert?
  split_ifs with hunused
  · split
    · rename_i hinsert
      exact hinsert.symm
    · rename_i outbox hinsert
      exact hinsert.symm
  · exact absurd h hunused

/-!
### Copying
-/

theorem copyAll_eq_ok {rows : List LegacyRow} {migrated migrated' : MigratedOutbox}
    (h : copyAll rows migrated = .ok migrated') :
    migrated'.outbox.rows = migrated.outbox.rows ++ rows.map LegacyRow.migrated := by
  induction rows generalizing migrated with
  | nil =>
      cases h
      rw [List.map_nil, List.append_nil]
  | cons row rest ih =>
      unfold copyAll at h
      split at h
      · rename_i copied hcopied
        rw [ih h, (Table.insert?_eq_some (insert?_eq_some hcopied).2).1, List.map_cons,
          List.append_assoc, List.singleton_append]
      · cases h

theorem copyAll_ok {rows : List LegacyRow} {migrated : MigratedOutbox} {outbox : Outbox}
    (hrows : outbox.rows = migrated.outbox.rows ++ rows.map LegacyRow.migrated)
    (hunique : UniqueIds outbox.rows) :
    exists migrated', copyAll rows migrated = .ok migrated' := by
  induction rows generalizing migrated with
  | nil => exact ⟨migrated, rfl⟩
  | cons row rest ih =>
      have hdistinct := outbox.distinct
      unfold UniqueIds at hunique
      rw [hrows, List.map_cons] at hdistinct hunique
      have hbefore := (List.pairwise_append.mp hdistinct).2.2
      have hunused : migrated.Unused row.migrated.messageId := fun other hother =>
        (List.pairwise_append.mp hunique).2.2 other hother row.migrated List.mem_cons_self
      rcases Table.insert?_of_no_clash (fun other hother =>
        hbefore other hother row.migrated List.mem_cons_self) with ⟨added, hadded⟩
      have hinsert := insert?_of_unused hunused
      rw [hadded] at hinsert
      rcases Option.map_eq_some_iff.mp hinsert with ⟨copied, hcopied, hsame⟩
      unfold copyAll
      rw [hcopied]
      apply ih
      rw [hsame, (Table.insert?_eq_some hadded).1, hrows, List.map_cons, List.append_assoc,
        List.singleton_append]

end MigratedOutbox

theorem uniqueIds_fresh {legacy : LegacyOutbox} : UniqueIds legacy.fresh.rows <->
    legacy.rows.Pairwise (fun a b => a.messageId ≠ b.messageId) := by
  unfold UniqueIds LegacyOutbox.fresh
  rw [List.pairwise_map]
  exact Iff.rfl

theorem openLegacy_eq_ok (legacy : LegacyOutbox) :
    (legacy.rows.Pairwise (fun a b => a.messageId ≠ b.messageId) ->
      exists migrated, MigratedOutbox.openLegacy legacy = .ok migrated) ∧
    forall migrated, MigratedOutbox.openLegacy legacy = .ok migrated ->
      migrated.outbox = legacy.fresh ∧
        legacy.rows.Pairwise (fun a b => a.messageId ≠ b.messageId) := by
  constructor
  · intro hunique
    exact @MigratedOutbox.copyAll_ok legacy.rows .empty legacy.fresh rfl
      (uniqueIds_fresh.mpr hunique)
  · intro migrated hopen
    have hsame : migrated.outbox = legacy.fresh :=
      Table.eq_of_rows (MigratedOutbox.copyAll_eq_ok hopen)
    refine ⟨hsame, uniqueIds_fresh.mp ?_⟩
    rw [← hsame]
    exact migrated.uniqueIds

/-!
## One operation on both tables
-/

/-- The items that a batch inserts when it has passed its checks. -/
def Outbox.inserted (limits : Limits) (outbox : Outbox) (deliveries : List (String × Envelope)) :
    Except Exn (List Item) := do
  let items <- encodeAll deliveries
  let newItems <- outbox.collect [] [] items
  checkPending limits outbox.pending newItems
  checkOperational limits outbox.operationalPending newItems
  .ok newItems

/-- The message ids of the new items are not stored, and no two of them are the same. -/
structure Unshared (outbox : Outbox) (newItems : List Item) : Prop where
  once : (newItems.map (fun item => item.envelope.messageId)).Nodup
  unused : forall item, item ∈ newItems -> forall row, row ∈ outbox.rows ->
    row.messageId ≠ item.envelope.messageId

/-- A batch that passes its checks brings no message id that is stored for another peer, by
itself or before. -/
def KeepsApart (limits : Limits) (outbox : Outbox) : Outbox.Operation -> Prop
  | .enqueueMany deliveries _ => deliveries ≠ [] -> forall newItems,
      outbox.inserted limits deliveries = .ok newItems -> Unshared outbox newItems
  | _ => True

theorem bind_assoc_ok {x : Except Exn value} {f : value -> Except Exn result}
    {g : result -> Except Exn final} : (x >>= f) >>= g = x >>= (fun v => f v >>= g) := by
  cases x <;> rfl

theorem Outbox.enqueueMany_inserted {limits : Limits} {outbox : Outbox}
    {deliveries : List (String × Envelope)} {nowMs : Int} (h : deliveries ≠ []) :
    enqueueMany limits outbox deliveries nowMs =
      outbox.inserted limits deliveries >>= (fun newItems => insertAll nowMs newItems outbox) := by
  unfold enqueueMany inserted
  cases deliveries with
  | nil => exact absurd rfl h
  | cons first rest =>
      simp only [bind_assoc_ok]
      rfl

namespace MigratedOutbox

theorem enqueueMany_inserted {limits : Limits} {migrated : MigratedOutbox}
    {deliveries : List (String × Envelope)} {nowMs : Int} (h : deliveries ≠ []) :
    migrated.enqueueMany limits deliveries nowMs =
      migrated.outbox.inserted limits deliveries >>=
        (fun newItems => insertAll nowMs newItems migrated) := by
  unfold enqueueMany Outbox.inserted
  cases deliveries with
  | nil => exact absurd rfl h
  | cons first rest =>
      simp only [bind_assoc_ok]
      rfl

theorem insertOne_outbox {migrated : MigratedOutbox} {nowMs : Int} {item : Item}
    (h : migrated.Unused item.envelope.messageId) :
    (migrated.insertOne nowMs item).map MigratedOutbox.outbox =
      migrated.outbox.insertOne nowMs item := by
  have hinsert := @insert?_of_unused migrated (Outbox.newRow nowMs item) h
  unfold insertOne Outbox.insertOne
  rw [← hinsert, map_bind]
  congr 1
  funext _
  rw [map_bind]
  congr 1
  funext _
  cases migrated.insert? (Outbox.newRow nowMs item) <;> rfl

theorem unshared_tail {outbox outbox' : Outbox} {item : Item} {rest : List Item} {nowMs : Int}
    (h : Unshared outbox (item :: rest))
    (hinsert : outbox'.rows = outbox.rows ++ [Outbox.newRow nowMs item]) :
    Unshared outbox' rest := by
  rcases h with ⟨honce, hunused⟩
  rw [List.map_cons, List.nodup_cons] at honce
  refine ⟨honce.2, ?_⟩
  intro other hother row hrow
  rw [hinsert] at hrow
  rcases List.mem_append.mp hrow with hold | hnew
  · exact hunused other (List.mem_cons_of_mem _ hother) row hold
  · rw [List.mem_singleton.mp hnew]
    intro hsame
    exact honce.1 (List.mem_map.mpr ⟨other, hother, hsame.symm⟩)

theorem insertOne_rows {outbox outbox' : Outbox} {nowMs : Int} {item : Item}
    (h : outbox.insertOne nowMs item = .ok outbox') :
    outbox'.rows = outbox.rows ++ [Outbox.newRow nowMs item] := by
  rcases bind_eq_ok.mp h with ⟨_, _, h⟩
  rcases bind_eq_ok.mp h with ⟨_, _, h⟩
  cases hinsert : outbox.insert? (Outbox.newRow nowMs item) with
  | none =>
      rw [hinsert] at h
      cases h
  | some inserted =>
      rw [hinsert] at h
      cases h
      exact (Table.insert?_eq_some hinsert).1

theorem insertAll_outbox {nowMs : Int} {items : List Item} {migrated : MigratedOutbox}
    (h : Unshared migrated.outbox items) :
    (insertAll nowMs items migrated).map MigratedOutbox.outbox =
      Outbox.insertAll nowMs items migrated.outbox := by
  induction items generalizing migrated with
  | nil => rfl
  | cons item rest ih =>
      have hone := @insertOne_outbox migrated nowMs item (fun row hrow =>
        h.unused item List.mem_cons_self row hrow)
      unfold insertAll Outbox.insertAll
      rw [← hone]
      cases hinsert : migrated.insertOne nowMs item with
      | error e => rfl
      | ok added =>
          rw [hinsert] at hone
          exact ih (unshared_tail h (insertOne_rows hone.symm))

theorem enqueueMany_outbox {limits : Limits} {migrated : MigratedOutbox}
    {deliveries : List (String × Envelope)} {nowMs : Int}
    (h : KeepsApart limits migrated.outbox (.enqueueMany deliveries nowMs)) :
    (migrated.enqueueMany limits deliveries nowMs).map MigratedOutbox.outbox =
      Outbox.enqueueMany limits migrated.outbox deliveries nowMs := by
  by_cases hnone : deliveries = []
  · rw [hnone]
    rfl
  · rw [enqueueMany_inserted hnone, Outbox.enqueueMany_inserted hnone]
    cases hinserted : migrated.outbox.inserted limits deliveries with
    | error e => rfl
    | ok newItems => exact insertAll_outbox (h hnone newItems hinserted)

theorem insertAll_rows {nowMs : Int} {items : List Item} {migrated migrated' : MigratedOutbox}
    (h : insertAll nowMs items migrated = .ok migrated') :
    migrated'.outbox.rows = migrated.outbox.rows ++ items.map (Outbox.newRow nowMs) := by
  induction items generalizing migrated with
  | nil =>
      cases h
      rw [List.map_nil, List.append_nil]
  | cons item rest ih =>
      rcases bind_eq_ok.mp h with ⟨added, hone, h⟩
      rcases bind_eq_ok.mp hone with ⟨_, _, hone⟩
      rcases bind_eq_ok.mp hone with ⟨_, _, hone⟩
      cases hinsert : migrated.insert? (Outbox.newRow nowMs item) with
      | none =>
          rw [hinsert] at hone
          cases hone
      | some inserted =>
          rw [hinsert] at hone
          cases hone
          rw [ih h, (Table.insert?_eq_some (insert?_eq_some hinsert).2).1, List.map_cons,
            List.append_assoc, List.singleton_append]

/-- The condition is exact for a batch that the fresh outbox stores: after a migration it is
stored too only if it keeps message ids apart. -/
theorem keepsApart_of_ok {limits : Limits} {migrated migrated' : MigratedOutbox}
    {deliveries : List (String × Envelope)} {nowMs : Int}
    (h : migrated.enqueueMany limits deliveries nowMs = .ok migrated') :
    KeepsApart limits migrated.outbox (.enqueueMany deliveries nowMs) := by
  intro hsome newItems hinserted
  rw [enqueueMany_inserted hsome, hinserted] at h
  have hunique := migrated'.uniqueIds
  unfold UniqueIds at hunique
  rw [insertAll_rows h] at hunique
  rcases List.pairwise_append.mp hunique with ⟨_, hnew, hold⟩
  constructor
  · rw [List.pairwise_map] at hnew
    exact List.pairwise_map.mpr hnew
  · intro item hitem row hrow
    exact hold row hrow _ (List.mem_map.mpr ⟨item, hitem, rfl⟩)

end MigratedOutbox

theorem wrote_same {migrated : MigratedOutbox} {result : Except Exn MigratedOutbox}
    {freshResult : Except Exn Outbox} (h : result.map MigratedOutbox.outbox = freshResult) :
    (wrote migrated result).answer = (wrote migrated.outbox freshResult).answer ∧
      (wrote migrated result).after.outbox = (wrote migrated.outbox freshResult).after := by
  rw [← h]
  cases result <;> exact ⟨rfl, rfl⟩

theorem respond_same {limits : Limits} {migrated : MigratedOutbox}
    {operation : Outbox.Operation} (h : KeepsApart limits migrated.outbox operation) :
    (migrated.respond limits operation).answer =
        (migrated.outbox.respond limits operation).answer ∧
      (migrated.respond limits operation).after.outbox =
        (migrated.outbox.respond limits operation).after := by
  cases operation with
  | enqueueMany deliveries nowMs => exact wrote_same (MigratedOutbox.enqueueMany_outbox h)
  | ready nowMs limit stream? => exact ⟨rfl, rfl⟩
  | delivered peerId messageId nowMs =>
      apply wrote_same
      unfold MigratedOutbox.delivered Outbox.delivered
      rw [map_bind]
      rfl
  | failed peerId messageId nowMs baseDelayMs maximumDelayMs =>
      apply wrote_same
      unfold MigratedOutbox.failed Outbox.failed
      cases migrated.outbox.attempted (peerId, messageId) with
      | none => rfl
      | some row =>
          dsimp only
          unfold MigratedOutbox.postpone Outbox.postpone
          rw [map_bind]
          congr 1
          funext _
          rw [map_bind]
          rfl
  | reopen => exact ⟨rfl, rfl⟩

/-!
## Runs
-/

/-- What each operation of a run answers, with the rows after it. -/
def responses (respond : rows -> Outbox.Operation -> Response rows) :
    rows -> List Outbox.Operation -> List (Response rows)
  | _, [] => []
  | before, operation :: rest =>
      respond before operation :: responses respond (respond before operation).after rest

def Response.map (f : rows -> rows') (response : Response rows) : Response rows' where
  answer := response.answer
  after := f response.after

/-- Every batch of a run on the fresh outbox keeps message ids apart. -/
def AllApart (limits : Limits) : Outbox -> List Outbox.Operation -> Prop
  | _, [] => True
  | outbox, operation :: rest => KeepsApart limits outbox operation ∧
      AllApart limits (outbox.respond limits operation).after rest

theorem responses_same {limits : Limits} {migrated : MigratedOutbox}
    {operations : List Outbox.Operation} (h : AllApart limits migrated.outbox operations) :
    (responses (MigratedOutbox.respond limits) migrated operations).map
        (Response.map MigratedOutbox.outbox) =
      responses (Outbox.respond limits) migrated.outbox operations := by
  induction operations generalizing migrated with
  | nil => rfl
  | cons operation rest ih =>
      rcases respond_same h.1 with ⟨hanswer, hafter⟩
      have hrest := h.2
      rw [← hafter] at hrest
      unfold responses
      rw [List.map_cons, ih hrest, hafter]
      congr 1
      unfold Response.map
      rw [hanswer, hafter]

/-- An older outbox opens exactly when no two of its rows have one message id. It has then
kept every row, and in every run whose batches keep message ids apart each operation has the
result or the exception, and leaves the rows, that it has and leaves on a fresh outbox with
the same rows. -/
theorem migration_preserves (legacy : LegacyOutbox) :
    ((exists migrated, MigratedOutbox.openLegacy legacy = .ok migrated) <->
      legacy.rows.Pairwise (fun a b => a.messageId ≠ b.messageId)) ∧
    forall migrated, MigratedOutbox.openLegacy legacy = .ok migrated ->
      migrated.outbox = legacy.fresh ∧
      forall limits operations, AllApart limits legacy.fresh operations ->
        (responses (MigratedOutbox.respond limits) migrated operations).map
            (Response.map MigratedOutbox.outbox) =
          responses (Outbox.respond limits) legacy.fresh operations := by
  rcases openLegacy_eq_ok legacy with ⟨hopens, hopened⟩
  refine ⟨⟨?_, hopens⟩, ?_⟩
  · rintro ⟨migrated, hopen⟩
    exact (hopened migrated hopen).2
  · intro migrated hopen
    rcases hopened migrated hopen with ⟨hsame, _⟩
    refine ⟨hsame, ?_⟩
    intro limits operations hapart
    rw [← hsame] at hapart ⊢
    exact responses_same hapart

/-!
## One envelope for two peers
-/

def broadcastGoal : Envelope where
  messageId := "m"
  messageType := .goal
  sourceId := "c"
  sessionId := "s"
  sequence := 1
  timestampMs := 0
  payload := .obj []
  correlationId := none
  stream := .operational

def legacyGoal (peerId : String) : LegacyRow where
  peerId := peerId
  messageId := "m"
  sessionId := "s"
  sequence := 1
  envelope := broadcastGoal
  body := broadcastGoal.document.dumps
  status := .pending
  attempts := 0
  nextAttemptMs := 0
  createdAtMs := 0

def oneLegacyGoal : LegacyOutbox where
  rows := [legacyGoal "a"]
  distinct := List.pairwise_singleton _ _

def twoLegacyGoals : LegacyOutbox where
  rows := [legacyGoal "a", legacyGoal "b"]
  distinct := by simp [Keyed.clash, legacyGoal]

def smallLimits : Limits where
  maximumPending := 10
  safetyReserve := 1
  reserved := by decide

set_option maxRecDepth 8000 in
theorem oneLegacyGoal_preserved :
    exists migrated, MigratedOutbox.openLegacy oneLegacyGoal = .ok migrated ∧
      migrated.outbox = oneLegacyGoal.fresh ∧
      (responses (MigratedOutbox.respond smallLimits) migrated
          [.ready 0 256 none, .enqueueMany [("a", broadcastGoal)] 1, .delivered "a" "m" 2]).map
          (Response.map MigratedOutbox.outbox) =
        responses (Outbox.respond smallLimits) oneLegacyGoal.fresh
          [.ready 0 256 none, .enqueueMany [("a", broadcastGoal)] 1, .delivered "a" "m" 2] := by
  rcases migration_preserves oneLegacyGoal with ⟨hopens, hopened⟩
  rcases hopens.mpr (List.pairwise_singleton _ _) with ⟨migrated, hopen⟩
  rcases hopened migrated hopen with ⟨hsame, hrun⟩
  have hinserted : Outbox.inserted smallLimits oneLegacyGoal.fresh [("a", broadcastGoal)] =
      .ok [] := rfl
  refine ⟨migrated, hopen, hsame, hrun smallLimits _ ⟨trivial, ?_, trivial, trivial⟩⟩
  intro _ newItems hnew
  cases hinserted.symm.trans hnew
  exact ⟨List.nodup_nil, fun item hitem => by cases hitem⟩

set_option maxRecDepth 8000 in
/-- Rows of one envelope for two peers keep the older outbox from opening; and an empty one
that opens refuses the batch that a fresh outbox stores. -/
theorem broadcast_refused_after_migration :
    MigratedOutbox.openLegacy twoLegacyGoals = .error .integrity ∧
    MigratedOutbox.openLegacy Table.empty = .ok .empty ∧
    (MigratedOutbox.respond smallLimits .empty
      (.enqueueMany [("a", broadcastGoal), ("b", broadcastGoal)] 0)).answer =
        .error .integrity ∧
    (Outbox.respond smallLimits (LegacyOutbox.fresh Table.empty)
      (.enqueueMany [("a", broadcastGoal), ("b", broadcastGoal)] 0)).answer = .ok .done :=
  ⟨rfl, rfl, rfl, rfl⟩

end Ump.Delivery
