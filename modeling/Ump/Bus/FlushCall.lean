import Ump.Bus.Fifo
import Ump.Delivery.Capacity

/-!
# One call of `flush`

## The call

A call of `flush` at a fixed time, while nothing is enqueued. It keeps asking the outbox for
first rows that are due until a round delivers nothing. The record of what has been tried is
not kept by the code.
-/

namespace Ump.Bus

open Foundation Delivery Outbox

structure Attempt where
  key : String × String
  stream : Stream
  delivered : Bool
deriving DecidableEq, Repr

def Attempt.lane (attempt : Attempt) : OutLane where
  peerId := attempt.key.1
  stream := attempt.stream

/-- Which peers are configured, and whether a send is acknowledged or raises an exception
that `flush` catches. Both may depend on what has been tried before. -/
structure Network where
  configured : List Attempt -> String -> Bool
  acknowledges : List Attempt -> PendingDelivery -> Bool

def Network.delivers (network : Network) (log : List Attempt) (item : PendingDelivery) : Bool :=
  network.configured log item.peerId && network.acknowledges log item

structure CallState where
  outbox : Outbox
  log : List Attempt

/-- `delivered` after a send that is acknowledged, `failed` otherwise. -/
def settle (outbox : Outbox) (item : PendingDelivery) (nowMs : Int) (delivered : Bool) :
    Except Exn Outbox :=
  if delivered then
    outbox.delivered (itemKey item) nowMs
  else
    outbox.failed (itemKey item) nowMs baseDelayMs maximumDelayMs

def tryItem (network : Network) (nowMs : Int) (s : CallState) (item : PendingDelivery) :
    CallState × Except Exn Bool :=
  let delivered := network.delivers s.log item
  let log := s.log ++ [⟨itemKey item, item.envelope.stream, delivered⟩]
  match settle s.outbox item nowMs delivered with
  | .ok outbox => (⟨outbox, log⟩, .ok delivered)
  | .error e => (⟨s.outbox, log⟩, .error e)

def tryAll (network : Network) (nowMs : Int) :
    CallState -> List PendingDelivery -> CallState × Except Exn Int
  | s, [] => (s, .ok 0)
  | s, item :: rest =>
      match tryItem network nowMs s item with
      | (s, .error e) => (s, .error e)
      | (s, .ok delivered) =>
          match tryAll network nowMs s rest with
          | (s, .error e) => (s, .error e)
          | (s, .ok count) => (s, .ok (if delivered then count + 1 else count))

/-- The loop of a call for one stream, which has delivered so many rows. -/
def rounds (network : Network) (nowMs limit : Int) (stream : Stream) :
    Nat -> CallState -> Int -> Option (CallState × Except Exn Int)
  | 0, _, _ => none
  | fuel + 1, s, delivered =>
      if delivered < limit then
        match s.outbox.ready nowMs (limit - delivered) (some stream) with
        | .error e => some (s, .error e)
        | .ok [] => some (s, .ok delivered)
        | .ok items =>
            match tryAll network nowMs s items with
            | (s, .error e) => some (s, .error e)
            | (s, .ok count) =>
                if 0 < count then
                  rounds network nowMs limit stream fuel s (delivered + count)
                else
                  some (s, .ok delivered)
      else
        some (s, .ok delivered)

def flush (network : Network) (nowMs limit : Int) (stream? : Option Stream) (fuel : Nat)
    (s : CallState) : Option (CallState × Except Exn Int) :=
  match stream? with
  | some stream => rounds network nowMs limit stream fuel s 0
  | none =>
      match rounds network nowMs limit .safety fuel s 0 with
      | none => none
      | some (s, .error e) => some (s, .error e)
      | some (s, .ok safety) =>
          if limit ≤ safety then
            some (s, .ok safety)
          else
            match rounds network nowMs (limit - safety) .operational fuel s 0 with
            | none => none
            | some (s, .error e) => some (s, .error e)
            | some (s, .ok operational) => some (s, .ok (safety + operational))

/-!
## What is kept while the call runs
-/

/-- Each pending row is tried once at most, and none of a lane after the lane failed. -/
structure Fair (origin : Outbox) (log : List Attempt) : Prop where
  pending : forall attempt, attempt ∈ log -> exists row, row ∈ origin.rows ∧
    row.status = .pending ∧ keyOf row = attempt.key
  once : (log.map Attempt.key).Nodup
  lanes : log.Pairwise (fun a b => a.delivered = false -> b.lane ≠ a.lane)

/-- What has been tried shows in the rows: a delivered row is no longer pending, and a failed
one is still the first of its lane and is not due. -/
structure Tried (origin : Outbox) (nowMs : Int) (s : CallState) : Prop where
  formed : forall row, row ∈ s.outbox.rows -> Formed row
  pending : forall row, row ∈ s.outbox.rows -> row.status = .pending ->
    exists old, old ∈ origin.rows ∧ old.status = .pending ∧ keyOf old = keyOf row
  delivered : forall attempt, attempt ∈ s.log -> attempt.delivered = true ->
    exists row, row ∈ s.outbox.rows ∧ keyOf row = attempt.key ∧ row.status = .delivered
  failed : forall attempt, attempt ∈ s.log -> attempt.delivered = false ->
    exists row, First s.outbox row ∧ keyOf row = attempt.key ∧ row.stream = attempt.stream ∧
      nowMs < row.nextAttemptMs
  fair : Fair origin s.log

/-- The first row of a lane that the item was read from, and that is due. -/
structure DueRow (outbox : Outbox) (nowMs : Int) (item : PendingDelivery) (row : OutboxRow) :
    Prop where
  first : First outbox row
  peerId : row.peerId = item.peerId
  envelope : row.envelope = item.envelope
  due : row.nextAttemptMs ≤ nowMs

theorem DueRow.key {outbox : Outbox} {nowMs : Int} {item : PendingDelivery} {row : OutboxRow}
    (h : DueRow outbox nowMs item row) (hformed : Formed row) : itemKey item = keyOf row := by
  rw [itemKey, keyOf, h.peerId, hformed.messageId, h.envelope]

theorem DueRow.stream {outbox : Outbox} {nowMs : Int} {item : PendingDelivery} {row : OutboxRow}
    (h : DueRow outbox nowMs item row) (hformed : Formed row) :
    item.envelope.stream = row.stream := by
  rw [hformed.stream, h.envelope]

theorem Tried.fair_concat {origin : Outbox} {nowMs : Int} {s : CallState}
    {item : PendingDelivery} {row : OutboxRow} (h : Tried origin nowMs s)
    (hdue : DueRow s.outbox nowMs item row) (delivered : Bool) :
    Fair origin (s.log ++ [⟨itemKey item, item.envelope.stream, delivered⟩]) := by
  have hformed := h.formed row hdue.first.mem
  have hkey := hdue.key hformed
  have hnotFailed : forall attempt, attempt ∈ s.log -> attempt.delivered = false ->
      forall failed, First s.outbox failed -> nowMs < failed.nextAttemptMs -> failed ≠ row := by
    rintro _ _ _ failed _ hlater rfl
    exact absurd hdue.due (not_le.mpr hlater)
  constructor
  · intro attempt hattempt
    rcases List.mem_append.mp hattempt with hold | hnew
    · exact h.fair.pending attempt hold
    · rw [List.mem_singleton.mp hnew]
      rcases h.pending row hdue.first.mem hdue.first.pending with ⟨old, hmem, hpending, hsame⟩
      exact ⟨old, hmem, hpending, hsame.trans hkey.symm⟩
  · rw [List.map_append, List.map_singleton, ← List.concat_eq_append]
    apply List.Nodup.concat _ h.fair.once
    intro hrepeated
    rcases List.mem_map.mp hrepeated with ⟨attempt, hattempt, hsame⟩
    have hsame : attempt.key = keyOf row := hsame.trans hkey
    cases hdelivered : attempt.delivered with
    | true =>
        rcases h.delivered attempt hattempt hdelivered with ⟨other, hother, hotherKey, hstatus⟩
        rw [eq_of_key hother hdue.first.mem (hotherKey.trans hsame), hdue.first.pending] at hstatus
        cases hstatus
    | false =>
        rcases h.failed attempt hattempt hdelivered with ⟨other, hfirst, hotherKey, _, hlater⟩
        exact hnotFailed attempt hattempt hdelivered other hfirst hlater
          (eq_of_key hfirst.mem hdue.first.mem (hotherKey.trans hsame))
  · rw [List.pairwise_append]
    refine ⟨h.fair.lanes, List.pairwise_singleton _ _, ?_⟩
    intro attempt hattempt last hlast hfailed hlane
    rw [List.mem_singleton.mp hlast] at hlane
    rcases h.failed attempt hattempt hfailed with ⟨other, hfirst, hotherKey, hstream, hlater⟩
    apply hnotFailed attempt hattempt hfailed other hfirst hlater
    apply first_unique hfirst hdue.first
    have hpeer : other.peerId = attempt.key.1 := congrArg Prod.fst hotherKey
    have hlanePeer : item.peerId = attempt.key.1 := congrArg OutLane.peerId hlane
    have hlaneStream : item.envelope.stream = attempt.stream := congrArg OutLane.stream hlane
    rw [laneOfRow, laneOfRow, hpeer, ← hlanePeer, ← hdue.peerId, hstream, ← hlaneStream,
      hdue.stream hformed]

/-!
## Settling a row
-/

/-- The row takes the place of another one with its key; the other rows stay, and so do the
first rows of the other lanes. -/
structure Settles (outbox : Outbox) (row : OutboxRow) (outbox' : Outbox) (row' : OutboxRow) :
    Prop where
  mem : forall other, other ∈ outbox'.rows -> other = row' ∨ other ∈ outbox.rows
  kept : forall other, other ∈ outbox.rows -> other ≠ row -> other ∈ outbox'.rows
  firsts : forall other, First outbox other -> other ≠ row -> First outbox' other
  taken : row' ∈ outbox'.rows
  key : keyOf row' = keyOf row
  formed : Formed row -> Formed row'

theorem settles_update {outbox : Outbox} {row : OutboxRow} {p : OutboxRow -> Bool}
    {f : OutboxRow -> OutboxRow} {hf : Table.KeepsKeys f} (hrow : row ∈ outbox.rows)
    (honly : forall other, other ∈ outbox.rows -> (p other = true <-> other = row))
    (hlane : forall other, laneOfRow (f other) = laneOfRow other)
    (hkey : keyOf (f row) = keyOf row) (hformed : Formed row -> Formed (f row))
    (hdelivered : forall other, other.status = .delivered ->
      (updated p f other).status = .delivered) :
    Settles outbox row (outbox.update p f hf) (f row) := by
  have hself : updated p f row = f row := if_pos ((honly row hrow).mpr rfl)
  have hother : forall other, other ∈ outbox.rows -> other ≠ row -> updated p f other = other :=
    fun other hmem hne => if_neg (fun h => hne ((honly other hmem).mp h))
  constructor
  · intro other hmem
    rcases Table.mem_update_iff.mp hmem with ⟨old, hold, rfl⟩
    by_cases hsame : old = row
    · rw [hsame]
      exact Or.inl hself
    · rw [show (if p old = true then f old else old) = old from hother old hold hsame]
      exact Or.inr hold
  · intro other hmem hne
    rw [← hother other hmem hne]
    exact mem_updated hmem
  · intro other hfirst hne
    have hsame := hother other hfirst.mem hne
    have hpending : (updated p f other).status = .pending := by
      rw [hsame]
      exact hfirst.pending
    have hkept : First (outbox.update p f hf) (updated p f other) :=
      first_update hfirst hlane hpending hdelivered
    rw [hsame] at hkept
    exact hkept
  · rw [← hself]
    exact mem_updated hrow
  · exact hkey
  · exact hformed

theorem settles_delivered {outbox outbox' : Outbox} {row : OutboxRow} {nowMs : Int}
    (hfirst : First outbox row) (h : outbox.delivered (keyOf row) nowMs = .ok outbox') :
    Settles outbox row outbox' (settled row) := by
  rw [delivered_eq_ok h]
  refine settles_update hfirst.mem ?_ (fun _ => rfl) rfl
    (fun hformed => ⟨hformed.messageId, hformed.stream⟩) ?_
  · intro other hother
    rw [Bool.and_eq_true, beq_iff_eq, beq_iff_eq]
    constructor
    · exact fun h => eq_of_key hother hfirst.mem h.1
    · rintro rfl
      exact ⟨rfl, hfirst.pending⟩
  · intro other hdelivered
    unfold updated
    by_cases htest : (keyOf other == keyOf row && other.status == .pending) = true
    · rw [if_pos htest]
      rfl
    · rw [if_neg htest]
      exact hdelivered

theorem attempted_of_first {outbox : Outbox} {row : OutboxRow} (h : First outbox row) :
    outbox.attempted (keyOf row) = some row := by
  apply Table.fetch_of_mem h.mem
  · rw [beq_self_eq_true, h.pending]
    rfl
  · intro other hother htest
    have hkey := beq_iff_eq.mp (Bool.and_eq_true_iff.mp htest).1
    rw [eq_of_key hother h.mem hkey]
    exact clash_self row

theorem delay_pos (attempts : Nat) : 0 < delay attempts baseDelayMs maximumDelayMs := by
  have hpower : (0 : Int) < 2 ^ min (attempts - 1) 16 := Int.pow_pos (by decide)
  unfold delay
  exact lt_min (Int.mul_pos (by decide) hpower) (by decide)

theorem settles_failed {outbox outbox' : Outbox} {row : OutboxRow} {nowMs : Int}
    (hfirst : First outbox row)
    (h : outbox.failed (keyOf row) nowMs baseDelayMs maximumDelayMs = .ok outbox') :
    exists row', Settles outbox row outbox' row' ∧ First outbox' row' ∧
      row'.stream = row.stream ∧ nowMs < row'.nextAttemptMs := by
  unfold Outbox.failed at h
  rw [attempted_of_first hfirst] at h
  rcases bind_eq_ok.mp h with ⟨_, _, h⟩
  rcases bind_eq_ok.mp h with ⟨_, _, h⟩
  have hlater := delay_pos (row.attempts + 1)
  generalize hnext : nowMs + delay (row.attempts + 1) baseDelayMs maximumDelayMs = next at h
  have honly : forall other, other ∈ outbox.rows ->
      ((keyOf other == keyOf row) = true <-> other = row) := by
    intro other hother
    rw [beq_iff_eq]
    constructor
    · exact fun hkey => eq_of_key hother hfirst.mem hkey
    · rintro rfl
      rfl
  have hstatus : forall other : OutboxRow, (updated (fun other => keyOf other == keyOf row)
      (postponed (row.attempts + 1) next) other).status = other.status := by
    intro other
    unfold updated
    by_cases htest : (keyOf other == keyOf row) = true
    · rw [if_pos htest]
      rfl
    · rw [if_neg htest]
  have hself : updated (fun other => keyOf other == keyOf row)
      (postponed (row.attempts + 1) next) row = postponed (row.attempts + 1) next row :=
    if_pos (beq_self_eq_true _)
  cases Except.ok.inj h
  refine ⟨postponed (row.attempts + 1) next row, ?_, ?_, rfl, ?_⟩
  · refine settles_update hfirst.mem honly (fun _ => rfl) rfl
      (fun hformed => ⟨hformed.messageId, hformed.stream⟩) ?_
    intro other hdelivered
    exact (hstatus other).trans hdelivered
  · rw [← hself]
    exact first_update hfirst (fun _ => rfl) ((hstatus row).trans hfirst.pending)
      (fun other hdelivered => (hstatus other).trans hdelivered)
  · show nowMs < next
    omega

/-!
## One attempt
-/

theorem Tried.settled {origin outbox' : Outbox} {nowMs : Int} {s : CallState}
    {item : PendingDelivery} {row row' : OutboxRow} {delivered : Bool}
    (h : Tried origin nowMs s) (hdue : DueRow s.outbox nowMs item row)
    (hsettles : Settles s.outbox row outbox' row')
    (hrow : if delivered then row'.status = .delivered
      else First outbox' row' ∧ row'.stream = row.stream ∧ nowMs < row'.nextAttemptMs) :
    Tried origin nowMs
      ⟨outbox', s.log ++ [⟨itemKey item, item.envelope.stream, delivered⟩]⟩ := by
  have hformed := h.formed row hdue.first.mem
  have hkey := hdue.key hformed
  constructor
  · intro other hother
    rcases hsettles.mem other hother with rfl | hold
    · exact hsettles.formed hformed
    · exact h.formed other hold
  · intro other hother hpending
    rcases hsettles.mem other hother with rfl | hold
    · rw [hsettles.key]
      exact h.pending row hdue.first.mem hdue.first.pending
    · exact h.pending other hold hpending
  · intro attempt hattempt hdelivered
    rcases List.mem_append.mp hattempt with hold | hnew
    · rcases h.delivered attempt hold hdelivered with ⟨other, hother, hotherKey, hstatus⟩
      refine ⟨other, hsettles.kept other hother ?_, hotherKey, hstatus⟩
      rintro rfl
      rw [hdue.first.pending] at hstatus
      cases hstatus
    · have hsame := List.mem_singleton.mp hnew
      rw [hsame] at hdelivered ⊢
      rw [if_pos hdelivered] at hrow
      exact ⟨row', hsettles.taken, hsettles.key.trans hkey.symm, hrow⟩
  · intro attempt hattempt hfailed
    rcases List.mem_append.mp hattempt with hold | hnew
    · rcases h.failed attempt hold hfailed with ⟨other, hfirst, hotherKey, hstream, hlater⟩
      refine ⟨other, hsettles.firsts other hfirst ?_, hotherKey, hstream, hlater⟩
      rintro rfl
      exact absurd hdue.due (not_le.mpr hlater)
    · have hsame := List.mem_singleton.mp hnew
      rw [hsame] at hfailed ⊢
      have hnot : delivered = false := hfailed
      rw [hnot] at hrow
      rcases hrow with ⟨hfirst, hstream, hlater⟩
      exact ⟨row', hfirst, hsettles.key.trans hkey.symm,
        hstream.trans (hdue.stream hformed).symm, hlater⟩
  · exact h.fair_concat hdue delivered

/-- The items of a round are read from due rows of one stream, each for another peer. -/
structure DueItems (outbox : Outbox) (nowMs : Int) (stream : Stream)
    (items : List PendingDelivery) : Prop where
  peers : items.Pairwise (fun a b => a.peerId ≠ b.peerId)
  rows : forall item, item ∈ items -> exists row, DueRow outbox nowMs item row ∧
    row.stream = stream

theorem dueItems_of_ready {outbox : Outbox} {nowMs limit : Int} {stream : Stream}
    {items : List PendingDelivery} (h : outbox.ready nowMs limit (some stream) = .ok items) :
    DueItems outbox nowMs stream items where
  peers := (heads_of_ready h).peers
  rows item hitem := by
    rcases row_of_ready h hitem with ⟨row, hfirst, hpeer, henvelope, hstream, hdue⟩
    exact ⟨row, ⟨hfirst, hpeer, henvelope, hdue⟩, hstream⟩

theorem DueItems.tail {outbox outbox' : Outbox} {nowMs : Int} {stream : Stream}
    {item : PendingDelivery} {rest : List PendingDelivery} {row row' : OutboxRow}
    (h : DueItems outbox nowMs stream (item :: rest)) (hdue : DueRow outbox nowMs item row)
    (hsettles : Settles outbox row outbox' row') : DueItems outbox' nowMs stream rest where
  peers := (List.pairwise_cons.mp h.peers).2
  rows other hother := by
    rcases h.rows other (List.mem_cons_of_mem item hother) with ⟨found, hfound, hstream⟩
    refine ⟨found, ⟨hsettles.firsts found hfound.first ?_, hfound.peerId, hfound.envelope,
      hfound.due⟩, hstream⟩
    rintro rfl
    exact (List.pairwise_cons.mp h.peers).1 other hother (hdue.peerId.symm.trans hfound.peerId)

theorem settles_of_settle {outbox outbox' : Outbox} {nowMs : Int} {item : PendingDelivery}
    {row : OutboxRow} {delivered : Bool} (hdue : DueRow outbox nowMs item row)
    (hformed : Formed row) (h : settle outbox item nowMs delivered = .ok outbox') :
    exists row', Settles outbox row outbox' row' ∧
      (if delivered then row'.status = .delivered
        else First outbox' row' ∧ row'.stream = row.stream ∧ nowMs < row'.nextAttemptMs) := by
  unfold settle at h
  rw [hdue.key hformed] at h
  cases delivered with
  | true => exact ⟨settled row, settles_delivered hdue.first h, rfl⟩
  | false => exact settles_failed hdue.first h

theorem tryItem_tried {origin : Outbox} {nowMs : Int} {stream : Stream} {s s' : CallState}
    {network : Network} {item : PendingDelivery} {rest : List PendingDelivery}
    {result : Except Exn Bool} (h : Tried origin nowMs s)
    (hitems : DueItems s.outbox nowMs stream (item :: rest))
    (htry : tryItem network nowMs s item = (s', result)) :
    exists attempt, s'.log = s.log ++ [attempt] ∧ attempt.stream = stream ∧
      Fair origin s'.log ∧
      forall delivered, result = .ok delivered ->
        attempt.delivered = delivered ∧ Tried origin nowMs s' ∧
          DueItems s'.outbox nowMs stream rest := by
  rcases hitems.rows item List.mem_cons_self with ⟨row, hdue, hstream⟩
  have hformed := h.formed row hdue.first.mem
  unfold tryItem at htry
  generalize network.delivers s.log item = delivered at htry
  have hfair := h.fair_concat hdue delivered
  refine ⟨⟨itemKey item, item.envelope.stream, delivered⟩, ?_⟩
  cases hsettle : settle s.outbox item nowMs delivered with
  | error e =>
      simp only [hsettle] at htry
      cases htry
      exact ⟨rfl, (hdue.stream hformed).trans hstream, hfair,
        fun _ hfalse => (by cases hfalse)⟩
  | ok outbox' =>
      simp only [hsettle] at htry
      cases htry
      refine ⟨rfl, (hdue.stream hformed).trans hstream, hfair, ?_⟩
      rintro _ ⟨⟩
      rcases settles_of_settle hdue hformed hsettle with ⟨row', hsettles, hrow⟩
      exact ⟨rfl, h.settled hdue hsettles hrow, hitems.tail hdue hsettles⟩

/-!
## Rounds
-/

def deliveredOf (log : List Attempt) : Nat :=
  log.countP Attempt.delivered

/-- What a part of the call has tried: attempts of one stream, so many of them delivered, and
when it returns, how many. -/
structure Ran (origin : Outbox) (nowMs : Int) (stream : Stream) (room : Nat) (s : CallState)
    (before : Int) (result : CallState × Except Exn Int) (tried : List Attempt) : Prop where
  log : result.1.log = s.log ++ tried
  fair : Fair origin result.1.log
  stream : forall attempt, attempt ∈ tried -> attempt.stream = stream
  bounded : deliveredOf tried ≤ room
  returned : forall count, result.2 = .ok count ->
    Tried origin nowMs result.1 ∧ count = before + deliveredOf tried

theorem tryAll_ran (network : Network) {origin : Outbox} {nowMs : Int} {stream : Stream}
    {items : List PendingDelivery} {s : CallState} (h : Tried origin nowMs s)
    (hitems : DueItems s.outbox nowMs stream items) :
    exists tried, Ran origin nowMs stream items.length s 0 (tryAll network nowMs s items)
      tried := by
  induction items generalizing s with
  | nil =>
      refine ⟨[], (List.append_nil _).symm, h.fair, fun _ hmem => (by cases hmem),
        Nat.le_refl 0, ?_⟩
      rintro _ ⟨⟩
      exact ⟨h, rfl⟩
  | cons item rest ih =>
      rw [tryAll]
      cases htry : tryItem network nowMs s item with
      | mk s' result =>
          rcases tryItem_tried h hitems htry with ⟨attempt, hlog, hstream, hfair, hsettled⟩
          have hone : deliveredOf [attempt] ≤ 1 := List.countP_le_length
          cases result with
          | error e =>
              refine ⟨[attempt], hlog, hfair, ?_, ?_, fun _ hfalse => (by cases hfalse)⟩
              · intro other hother
                rw [List.mem_singleton.mp hother]
                exact hstream
              · rw [List.length_cons]
                omega
          | ok delivered =>
              rcases hsettled delivered rfl with ⟨hdelivered, hnext, hlater⟩
              rcases ih hnext hlater with ⟨tried, hran⟩
              have hcount : deliveredOf (attempt :: tried) =
                  deliveredOf tried + if delivered then 1 else 0 := by
                unfold deliveredOf
                rw [List.countP_cons, hdelivered]
              have hmerged : forall result : Except Exn Int,
                  (forall count, result = .ok count ->
                    exists few, (tryAll network nowMs s' rest).2 = .ok few ∧
                      count = if delivered then few + 1 else few) ->
                  Ran origin nowMs stream (rest.length + 1) s 0
                    ((tryAll network nowMs s' rest).1, result) (attempt :: tried) := by
                intro result hresult
                constructor
                · show (tryAll network nowMs s' rest).1.log = _
                  rw [hran.log, hlog, List.append_assoc]
                  rfl
                · exact hran.fair
                · intro other hother
                  rcases List.mem_cons.mp hother with rfl | hother
                  · exact hstream
                  · exact hran.stream other hother
                · have hrest := hran.bounded
                  rw [hcount]
                  cases delivered <;> simp <;> omega
                · intro count hok
                  rcases hresult count hok with ⟨few, hfew, hsum⟩
                  rcases hran.returned few hfew with ⟨hkept, hreturned⟩
                  refine ⟨hkept, ?_⟩
                  rw [hsum, hcount, hreturned]
                  cases delivered <;> simp
              refine ⟨attempt :: tried, ?_⟩
              dsimp only
              cases hall : tryAll network nowMs s' rest with
              | mk s'' result =>
                  rw [hall] at hmerged
                  cases result with
                  | error e =>
                      exact hmerged (.error e) (fun _ hfalse => (by cases hfalse))
                  | ok few =>
                      apply hmerged (.ok (if delivered then few + 1 else few))
                      rintro _ ⟨⟩
                      exact ⟨few, rfl, rfl⟩

/-!
## Rounds until one delivers nothing
-/

theorem Fair.length_le {origin : Outbox} {log : List Attempt} (h : Fair origin log) :
    log.length ≤ origin.pending := by
  have hsubset : log.map Attempt.key ⊆
      (origin.rows.filter (fun row => row.status == .pending)).map keyOf := by
    intro key hkey
    rcases List.mem_map.mp hkey with ⟨attempt, hattempt, rfl⟩
    rcases h.pending attempt hattempt with ⟨row, hrow, hpending, hsame⟩
    exact List.mem_map.mpr
      ⟨row, List.mem_filter.mpr ⟨hrow, beq_iff_eq.mpr hpending⟩, hsame⟩
  have hlength := (List.subperm_of_subset h.once hsubset).length_le
  rw [List.length_map, List.length_map] at hlength
  rw [Outbox.pending, List.countP_eq_length_filter]
  exact hlength

theorem deliveredOf_append (a b : List Attempt) :
    deliveredOf (a ++ b) = deliveredOf a + deliveredOf b :=
  List.countP_append

section

variable {origin : Outbox} {nowMs before : Int} {stream : Stream} {s s' : CallState}

theorem Ran.nothing {result : Except Exn Int} (h : Tried origin nowMs s) (room : Nat)
    (hresult : forall count, result = .ok count -> count = before) :
    Ran origin nowMs stream room s before (s, result) [] where
  log := (List.append_nil _).symm
  fair := h.fair
  stream _ hmem := by cases hmem
  bounded := Nat.zero_le _
  returned count hcount := ⟨h, by simp [hresult count hcount, deliveredOf]⟩

theorem Ran.next {limit count : Int} {room : Nat} {tried later : List Attempt}
    {result : CallState × Except Exn Int}
    (h : Ran origin nowMs stream room s 0 (s', .ok count) tried)
    (hroom : room ≤ (limit - before).toNat)
    (hlater : Ran origin nowMs stream (limit - (before + count)).toNat s' (before + count)
      result later) :
    Ran origin nowMs stream (limit - before).toNat s before result (tried ++ later) := by
  rcases h.returned count rfl with ⟨_, hcount⟩
  have hlog : s'.log = s.log ++ tried := h.log
  constructor
  · rw [hlater.log, hlog, List.append_assoc]
  · exact hlater.fair
  · intro attempt hattempt
    rcases List.mem_append.mp hattempt with hattempt | hattempt
    · exact h.stream attempt hattempt
    · exact hlater.stream attempt hattempt
  · have hone := h.bounded
    have hrest := hlater.bounded
    rw [deliveredOf_append]
    omega
  · intro total htotal
    rcases hlater.returned total htotal with ⟨hkept, hsum⟩
    refine ⟨hkept, ?_⟩
    rw [hsum, hcount, deliveredOf_append]
    omega

theorem Ran.last {limit : Int} {room : Nat} {tried : List Attempt} {answer result : Except Exn Int}
    (h : Ran origin nowMs stream room s 0 (s', answer) tried)
    (hroom : room ≤ (limit - before).toNat)
    (hresult : forall total, result = .ok total -> total = before ∧
      exists count, answer = .ok count ∧ count ≤ 0) :
    Ran origin nowMs stream (limit - before).toNat s before (s', result) tried where
  log := h.log
  fair := h.fair
  stream := h.stream
  bounded := Nat.le_trans h.bounded hroom
  returned total htotal := by
    rcases hresult total htotal with ⟨hsame, count, hanswer, hcount⟩
    rcases h.returned count hanswer with ⟨hkept, hsum⟩
    refine ⟨hkept, ?_⟩
    omega

/-- By induction on the fuel. Each round that goes on has tried a row, and there are no more
rows to try than were pending. -/
theorem rounds_ran (network : Network) (limit before : Int) (fuel : Nat)
    (h : Tried origin nowMs s) (hfuel : origin.pending < fuel + s.log.length) :
    exists result tried,
      (forall more, fuel ≤ more ->
        rounds network nowMs limit stream more s before = some result) ∧
      Ran origin nowMs stream (limit - before).toNat s before result tried := by
  induction fuel generalizing s before with
  | zero =>
      have hlength := h.fair.length_le
      omega
  | succ fuel ih =>
      have hmore : forall result : CallState × Except Exn Int,
          (forall more, fuel ≤ more ->
            rounds network nowMs limit stream (more + 1) s before = some result) ->
          forall more, fuel + 1 ≤ more ->
            rounds network nowMs limit stream more s before = some result := by
        intro result hrounds more hle
        cases more with
        | zero => omega
        | succ more => exact hrounds more (by omega)
      by_cases hlimit : before < limit
      · cases hready : s.outbox.ready nowMs (limit - before) (some stream) with
        | error e =>
            refine ⟨(s, .error e), [], hmore _ ?_, Ran.nothing h _ (fun _ hok => by cases hok)⟩
            intro more _
            rw [rounds, if_pos hlimit, hready]
        | ok items =>
            rcases tryAll_ran network h (dueItems_of_ready hready) with ⟨tried, hran⟩
            have hroom := length_ready hready
            cases items with
            | nil =>
                refine ⟨(s, .ok before), [], hmore _ ?_,
                  Ran.nothing h _ (fun _ hok => (Except.ok.inj hok).symm)⟩
                intro more _
                rw [rounds, if_pos hlimit, hready]
            | cons item rest =>
                cases hall : tryAll network nowMs s (item :: rest) with
                | mk s' answer =>
                    rw [hall] at hran
                    cases answer with
                    | error e =>
                        refine ⟨(s', .error e), tried, hmore _ ?_,
                          hran.last hroom (fun _ hok => by cases hok)⟩
                        intro more _
                        rw [rounds, if_pos hlimit, hready]
                        dsimp only
                        rw [hall]
                    | ok count =>
                        by_cases hcount : 0 < count
                        · rcases hran.returned count rfl with ⟨hkept, hsum⟩
                          have hkept : Tried origin nowMs s' := hkept
                          have hlog : s'.log = s.log ++ tried := hran.log
                          have hfew : deliveredOf tried ≤ tried.length := List.countP_le_length
                          have hlength : s'.log.length = s.log.length + tried.length := by
                            rw [hlog, List.length_append]
                          rcases ih (before + count) hkept (by omega) with
                            ⟨result, later, hrounds, hlater⟩
                          refine ⟨result, tried ++ later, hmore _ ?_, hran.next hroom hlater⟩
                          intro more hle
                          rw [rounds, if_pos hlimit, hready]
                          dsimp only
                          rw [hall]
                          dsimp only
                          rw [if_pos hcount]
                          exact hrounds more hle
                        · refine ⟨(s', .ok before), tried, hmore _ ?_, hran.last hroom
                            (fun _ hok => ⟨(Except.ok.inj hok).symm, count, rfl, by omega⟩)⟩
                          intro more _
                          rw [rounds, if_pos hlimit, hready]
                          dsimp only
                          rw [hall]
                          dsimp only
                          rw [if_neg hcount]
      · refine ⟨(s, .ok before), [], hmore _ ?_,
          Ran.nothing h _ (fun _ hok => (Except.ok.inj hok).symm)⟩
        intro more _
        rw [rounds, if_neg hlimit]

end

/-!
## The rows of an outbox
-/

theorem formed_commit {limits : Limits} {outbox outbox' : Outbox} {operation : Operation}
    (h : forall row, row ∈ outbox.rows -> Formed row)
    (hcommit : outbox.commit limits operation = .ok outbox') :
    forall row, row ∈ outbox'.rows -> Formed row := by
  have hupdate : forall {p : OutboxRow -> Bool} {f : OutboxRow -> OutboxRow}
      {hf : Table.KeepsKeys f}, (forall row, Formed row -> Formed (f row)) ->
      forall row, row ∈ (outbox.update p f hf).rows -> Formed row := by
    intro p f hf hformed row hrow
    rcases Table.mem_update_iff.mp hrow with ⟨old, hold, rfl⟩
    split_ifs
    · exact hformed old (h old hold)
    · exact h old hold
  cases operation with
  | enqueueMany deliveries nowMs =>
      rcases enqueueMany_eq_ok hcommit with ⟨newItems, hadded⟩
      intro row hrow
      rw [hadded.rows] at hrow
      rcases List.mem_append.mp hrow with hold | hnew
      · exact h row hold
      · rcases List.mem_map.mp hnew with ⟨item, _, rfl⟩
        exact formed_newRow nowMs item
  | ready nowMs limit stream? =>
      rcases bind_eq_ok.mp hcommit with ⟨_, _, hsame⟩
      cases hsame
      exact h
  | delivered peerId messageId nowMs =>
      rw [delivered_eq_ok hcommit]
      exact hupdate (fun _ hformed => ⟨hformed.messageId, hformed.stream⟩)
  | failed peerId messageId nowMs baseDelayMs maximumDelayMs =>
      rcases failed_eq_ok hcommit with rfl | ⟨_, _, rfl⟩
      · exact h
      · exact hupdate (fun _ hformed => ⟨hformed.messageId, hformed.stream⟩)
  | reopen =>
      cases hcommit
      exact h

theorem formed_replay (limits : Limits) (operations : List Operation) :
    forall row, row ∈ (replay limits operations).committed.rows -> Formed row := by
  have hrun : forall outbox : Outbox, (forall row, row ∈ outbox.rows -> Formed row) ->
      forall row, row ∈ (operations.foldl (perform limits) (.idle outbox)).committed.rows ->
        Formed row := by
    induction operations with
    | nil => exact fun _ h => h
    | cons operation rest ih =>
        intro outbox h
        rw [List.foldl_cons, perform_idle]
        apply ih
        unfold Outbox.apply
        cases hcommit : outbox.commit limits operation with
        | ok outbox' => exact formed_commit h hcommit
        | error e => exact h
  exact hrun Table.empty (fun row hrow => by cases hrow)

/-!
## A whole call
-/

structure Flushed (origin : Outbox) (limit : Int) (s : CallState) (result : Except Exn Int) :
    Prop where
  fair : Fair origin s.log
  bounded : deliveredOf s.log ≤ limit.toNat
  returned : forall count, result = .ok count -> count = deliveredOf s.log
  safetyFirst : s.log.Pairwise (fun a b => b.stream = .safety -> a.stream = .safety)

theorem tried_start {origin : Outbox} (h : forall row, row ∈ origin.rows -> Formed row)
    (nowMs : Int) : Tried origin nowMs ⟨origin, []⟩ where
  formed := h
  pending row hrow hpending := ⟨row, hrow, hpending, rfl⟩
  delivered _ hmem := by cases hmem
  failed _ hmem := by cases hmem
  fair := ⟨fun _ hmem => (by cases hmem), List.nodup_nil, List.Pairwise.nil⟩

theorem pairwise_stream {stream : Stream} {log : List Attempt}
    (h : forall attempt, attempt ∈ log -> attempt.stream = stream) :
    log.Pairwise (fun a b => b.stream = .safety -> a.stream = .safety) := by
  apply List.pairwise_iff_forall_sublist.mpr
  intro a b hpair hsafety
  have ha := h a (hpair.subset (List.mem_cons_self))
  have hb := h b (hpair.subset (List.mem_cons_of_mem a List.mem_cons_self))
  rw [ha, ← hb]
  exact hsafety

theorem Ran.flushed {origin : Outbox} {nowMs limit : Int} {stream : Stream}
    {result : CallState × Except Exn Int} {tried : List Attempt}
    (h : Ran origin nowMs stream (limit - 0).toNat ⟨origin, []⟩ 0 result tried) :
    Flushed origin limit result.1 result.2 := by
  have hlog : result.1.log = tried := h.log
  constructor
  · exact h.fair
  · rw [hlog, ← Int.sub_zero limit]
    exact h.bounded
  · intro count hcount
    rw [(h.returned count hcount).2, hlog]
    omega
  · rw [hlog]
    exact pairwise_stream h.stream

theorem Ran.both {origin : Outbox} {nowMs limit safety : Int} {s s' : CallState}
    {answer result : Except Exn Int} {tried later : List Attempt}
    (h : Ran origin nowMs .safety (limit - 0).toNat ⟨origin, []⟩ 0 (s, .ok safety) tried)
    (hlater : Ran origin nowMs .operational (limit - safety - 0).toNat s 0 (s', answer) later)
    (hlimit : safety < limit)
    (hresult : forall count, result = .ok count -> exists operational,
      answer = .ok operational ∧ count = safety + operational) :
    Flushed origin limit s' result := by
  have hfirst : s.log = tried := h.log
  have hlog : s'.log = tried ++ later := by
    rw [← hfirst]
    exact hlater.log
  have hsafety := (h.returned safety rfl).2
  have hrest := hlater.bounded
  constructor
  · exact hlater.fair
  · rw [hlog, deliveredOf_append]
    omega
  · intro count hcount
    rcases hresult count hcount with ⟨operational, hanswer, rfl⟩
    rw [hsafety, (hlater.returned operational hanswer).2, hlog, deliveredOf_append]
    omega
  · rw [hlog, List.pairwise_append]
    refine ⟨pairwise_stream h.stream, pairwise_stream hlater.stream, ?_⟩
    intro a ha _ _ _
    exact h.stream a ha

/-- A call ends, for every outbox that operations have left and whatever the sends do. Each
pending row is tried once at most, none of a lane after the lane failed, the rows of the
safety stream come first, and no more than `limit` are delivered. -/
theorem flush_tries_once (limits : Limits) (operations : List Operation) (network : Network)
    (nowMs limit : Int) (stream? : Option Stream) :
    exists s result,
      (forall fuel, (replay limits operations).committed.pending < fuel ->
        flush network nowMs limit stream? fuel ⟨(replay limits operations).committed, []⟩ =
          some (s, result)) ∧
      Flushed (replay limits operations).committed limit s result := by
  have hstart := tried_start (formed_replay limits operations) nowMs
  generalize (replay limits operations).committed = origin at hstart
  have hrounds : forall (s : CallState) (limit : Int) (stream : Stream), Tried origin nowMs s ->
      exists result tried,
        (forall fuel, origin.pending < fuel ->
          rounds network nowMs limit stream fuel s 0 = some result) ∧
        Ran origin nowMs stream (limit - 0).toNat s 0 result tried :=
    fun s limit stream htried =>
      rounds_ran network limit 0 (origin.pending + 1) htried (by omega)
  cases stream? with
  | some stream =>
      rcases hrounds _ limit stream hstart with ⟨result, tried, hends, hran⟩
      exact ⟨result.1, result.2, hends, hran.flushed⟩
  | none =>
      rcases hrounds _ limit .safety hstart with ⟨⟨s, answer⟩, tried, hends, hran⟩
      cases answer with
      | error e =>
          refine ⟨s, .error e, ?_, hran.flushed⟩
          intro fuel hfuel
          rw [flush, hends fuel hfuel]
      | ok safety =>
          by_cases hlimit : limit ≤ safety
          · refine ⟨s, .ok safety, ?_, hran.flushed⟩
            intro fuel hfuel
            rw [flush, hends fuel hfuel]
            dsimp only
            rw [if_pos hlimit]
          · have hkept : Tried origin nowMs s := (hran.returned safety rfl).1
            rcases hrounds s (limit - safety) .operational hkept with
              ⟨⟨s', answer⟩, later, hendsLater, hlater⟩
            have hflush : forall fuel, origin.pending < fuel ->
                flush network nowMs limit none fuel ⟨origin, []⟩ =
                  some (s', answer.map (fun operational => safety + operational)) := by
              intro fuel hfuel
              rw [flush, hends fuel hfuel]
              dsimp only
              rw [if_neg hlimit, hendsLater fuel hfuel]
              cases answer <;> rfl
            refine ⟨s', _, hflush, hran.both hlater (not_le.mp hlimit) ?_⟩
            intro count hcount
            cases answer with
            | error e => cases hcount
            | ok operational => exact ⟨operational, rfl, (Except.ok.inj hcount).symm⟩

end Ump.Bus
