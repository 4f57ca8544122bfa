import Ump.Foundation.Interleaving
import Ump.Delivery.OutboxLanes

/-!
# Flushing the outbox

## The send locks

Publishers and the retry thread flush at the same time. A flush of one stream works under the
send lock of that stream: it asks the outbox for first rows, tries them one after the other,
and asks again as long as a round has delivered something. A thread that ends for any reason
lets its lock go.
-/

namespace Ump.Bus

open Foundation Delivery Outbox

structure Config where
  limits : Limits
  /-- The peers that a new process configures. -/
  peers : List String

/-- The record of what has been enqueued is not kept by the code. -/
structure Memory where
  outbox : Outbox
  peers : List String
  enqueued : List (String × Envelope)

def Memory.initial (config : Config) : Memory where
  outbox := Table.empty
  peers := config.peers
  enqueued := []

def Memory.restart (config : Config) (m : Memory) : Memory where
  outbox := m.outbox
  peers := config.peers
  enqueued := m.enqueued

def Memory.withOutbox (m : Memory) (outbox : Outbox) : Memory :=
  { m with outbox := outbox }

/-- A call of `flush` for one stream. -/
structure Call where
  stream : Stream
  nowMs? : Option Int
  limit : Int
  /-- The caller named no stream: what is left of the limit goes to the operational one. -/
  both : Bool
  timestampMs : Int

/-- A call with its local variables `delivered` and `progressed`. -/
structure Progress where
  call : Call
  delivered : Int
  progressed : Bool

inductive Task where
  | enqueueMany (deliveries : List (String × Envelope)) (nowMs : Int)
  | addPeer (peerId : String)
  | removePeer (peerId : String)
  | flush (nowMs? : Option Int) (limit : Int) (stream? : Option Stream)
  | enter (stream : Stream) (nowMs? : Option Int) (limit : Int) (both : Bool)
  | lock (call : Call)
  | round (p : Progress)
  | item (p : Progress) (items : List PendingDelivery)
  | send (p : Progress) (item : PendingDelivery) (rest : List PendingDelivery)
  | failed (p : Progress) (item : PendingDelivery) (rest : List PendingDelivery)
  | delivered (p : Progress) (item : PendingDelivery) (rest : List PendingDelivery)
  | leave (p : Progress)

/-- How `send` ends: with an acknowledgement, with one of the exceptions that `flush`
catches, or with another one. -/
inductive Sending where
  | acknowledged
  | refused
  | raised
deriving DecidableEq, Repr

structure Reading where
  nowMs : Int
  sending : Sending

inductive Entry where
  | enqueueMany (deliveries : List (String × Envelope)) (nowMs : Int)
  | addPeer (peerId : String)
  | removePeer (peerId : String)
  | flush (nowMs? : Option Int) (limit : Int) (stream? : Option Stream)

def start : Entry -> List Task
  | .enqueueMany deliveries nowMs => [.enqueueMany deliveries nowMs]
  | .addPeer peerId => [.addPeer peerId]
  | .removePeer peerId => [.removePeer peerId]
  | .flush nowMs? limit stream? => [.flush nowMs? limit stream?]

def itemKey (item : PendingDelivery) : String × String :=
  (item.peerId, item.envelope.messageId)

def exec (config : Config) (m : Memory) (t : Task) (r : Reading) : Memory × Flow Task :=
  match t with
  | .enqueueMany deliveries nowMs =>
      attempt m (enqueueMany config.limits m.outbox deliveries nowMs) (fun outbox =>
        ({ m with outbox := outbox, enqueued := deliveries.foldl record m.enqueued }, .next []))
  | .addPeer peerId => ({ m with peers := m.peers ++ [peerId] }, .next [])
  | .removePeer peerId => ({ m with peers := m.peers.filter (fun p => p != peerId) }, .next [])
  | .flush nowMs? limit stream? =>
      match stream? with
      | none => (m, .next [.enter .safety nowMs? limit true])
      | some stream => (m, .next [.enter stream nowMs? limit false])
  | .enter stream nowMs? limit both =>
      (m, .next [.lock
        { stream := stream
          nowMs? := nowMs?
          limit := limit
          both := both
          timestampMs := nowMs?.getD r.nowMs }])
  | .lock call => (m, .next [.round { call := call, delivered := 0, progressed := false }])
  | .round p =>
      if p.delivered < p.call.limit then
        attempt m (m.outbox.ready p.call.timestampMs (p.call.limit - p.delivered)
            (some p.call.stream)) (fun items =>
          if items.isEmpty then (m, .next [.leave p])
          else (m, .next [.item { p with progressed := false } items]))
      else
        (m, .next [.leave p])
  | .item p [] => (m, .next [if p.progressed then .round p else .leave p])
  | .item p (item :: rest) =>
      if m.peers.contains item.peerId then (m, .next [.send p item rest])
      else (m, .next [.failed p item rest])
  | .send p item rest =>
      match r.sending with
      | .acknowledged => (m, .next [.delivered p item rest])
      | .refused => (m, .next [.failed p item rest])
      | .raised => (m, .raised)
  | .failed p item rest =>
      attempt m (m.outbox.failed (itemKey item) p.call.timestampMs baseDelayMs maximumDelayMs)
        (fun outbox => (m.withOutbox outbox, .next [.item p rest]))
  | .delivered p item rest =>
      attempt m (m.outbox.delivered (itemKey item) p.call.timestampMs) (fun outbox =>
        (m.withOutbox outbox,
          .next [.item { p with delivered := p.delivered + 1, progressed := true } rest]))
  | .leave p =>
      if p.call.both && decide (p.delivered < p.call.limit) then
        (m, .next [.enter .operational p.call.nowMs? (p.call.limit - p.delivered) false])
      else
        (m, .next [])

def machine (config : Config) : Machine Memory Task Reading Entry where
  exec := exec config
  start := start
  restart := Memory.restart config

def initial (config : Config) : Pool Memory Task where
  shared := .initial config
  threads := []

def Task.locked? : Task -> Option Stream
  | .round p => some p.call.stream
  | .item p _ => some p.call.stream
  | .send p _ _ => some p.call.stream
  | .failed p _ _ => some p.call.stream
  | .delivered p _ _ => some p.call.stream
  | _ => none

/-- The deliveries of the round that are still to be tried or settled. -/
def Task.items : Task -> List PendingDelivery
  | .item _ items => items
  | .send _ first rest => first :: rest
  | .failed _ first rest => first :: rest
  | .delivered _ first rest => first :: rest
  | _ => []

def Locking : Condition Memory Task Reading Entry :=
  fun _ others move =>
    match move with
    | .exec (.lock call) _ => forall t, t ∈ others -> t.locked? ≠ some call.stream
    | _ => True

/-!
## What each task does
-/

inductive Effect (config : Config) (m : Memory) : Task -> Memory × Flow Task -> Prop where
  | released {t : Task} {result : Memory × Flow Task} (houtbox : result.1.outbox = m.outbox)
      (henqueued : result.1.enqueued = m.enqueued)
      (hfree : forall t', t' ∈ result.2.tasks -> t'.locked? = none) : Effect config m t result
  | enqueued {deliveries : List (String × Envelope)} {nowMs : Int} {outbox : Outbox}
      (henqueue : enqueueMany config.limits m.outbox deliveries nowMs = .ok outbox) :
      Effect config m (.enqueueMany deliveries nowMs)
        ({ m with outbox := outbox, enqueued := deliveries.foldl record m.enqueued }, .next [])
  | locked (call : Call) : Effect config m (.lock call)
      (m, .next [.round { call := call, delivered := 0, progressed := false }])
  | listed {p : Progress} {items : List PendingDelivery}
      (hready : m.outbox.ready p.call.timestampMs (p.call.limit - p.delivered)
        (some p.call.stream) = .ok items) :
      Effect config m (.round p) (m, .next [.item { p with progressed := false } items])
  | passed {t t' : Task} {stream : Stream} (hlocked : t.locked? = some stream)
      (hlocked' : t'.locked? = some stream) (hitems : t'.items = t.items) :
      Effect config m t (m, .next [t'])
  | failed {p : Progress} {item : PendingDelivery} {rest : List PendingDelivery}
      {outbox : Outbox} (hfailed : m.outbox.failed (itemKey item) p.call.timestampMs
        baseDelayMs maximumDelayMs = .ok outbox) :
      Effect config m (.failed p item rest) (m.withOutbox outbox, .next [.item p rest])
  | delivered {p : Progress} {item : PendingDelivery} {rest : List PendingDelivery}
      {outbox : Outbox}
      (hdelivered : m.outbox.delivered (itemKey item) p.call.timestampMs = .ok outbox) :
      Effect config m (.delivered p item rest) (m.withOutbox outbox,
        .next [.item { p with delivered := p.delivered + 1, progressed := true } rest])

theorem Effect.raised (config : Config) (m : Memory) (t : Task) :
    Effect config m t (m, .raised) :=
  .released rfl rfl (fun t' ht' => by cases ht')

theorem Effect.leaves (config : Config) (m : Memory) (t : Task) {next : Task}
    (h : next.locked? = none) : Effect config m t (m, .next [next]) := by
  refine .released rfl rfl ?_
  intro t' ht'
  rw [List.mem_singleton.mp ht']
  exact h

theorem exec_effect (config : Config) (m : Memory) (t : Task) (r : Reading) :
    Effect config m t (exec config m t r) := by
  cases t with
  | enqueueMany deliveries nowMs =>
      rw [exec]
      cases henqueue : enqueueMany config.limits m.outbox deliveries nowMs with
      | error e => exact .raised config m _
      | ok outbox => exact .enqueued henqueue
  | addPeer peerId => exact .released rfl rfl (fun t' ht' => by cases ht')
  | removePeer peerId => exact .released rfl rfl (fun t' ht' => by cases ht')
  | flush nowMs? limit stream? =>
      cases stream? with
      | none => exact .leaves config m _ rfl
      | some stream => exact .leaves config m _ rfl
  | enter stream nowMs? limit both => exact .leaves config m _ rfl
  | lock call => exact .locked call
  | round p =>
      rw [exec]
      split_ifs with hmore
      · cases hready : m.outbox.ready p.call.timestampMs (p.call.limit - p.delivered)
          (some p.call.stream) with
        | error e => exact .raised config m _
        | ok items =>
            dsimp only [attempt]
            split_ifs
            · exact .leaves config m _ rfl
            · exact .listed hready
      · exact .leaves config m _ rfl
  | item p items =>
      cases items with
      | nil =>
          rw [exec]
          split_ifs
          · exact .passed rfl rfl rfl
          · exact .leaves config m _ rfl
      | cons item rest =>
          rw [exec]
          split_ifs
          · exact .passed rfl rfl rfl
          · exact .passed rfl rfl rfl
  | send p item rest =>
      rw [exec]
      cases r.sending with
      | acknowledged => exact .passed rfl rfl rfl
      | refused => exact .passed rfl rfl rfl
      | raised => exact .raised config m _
  | failed p item rest =>
      rw [exec]
      cases hfailed : m.outbox.failed (itemKey item) p.call.timestampMs baseDelayMs
          maximumDelayMs with
      | error e => exact .raised config m _
      | ok outbox => exact .failed hfailed
  | delivered p item rest =>
      rw [exec]
      cases hdelivered : m.outbox.delivered (itemKey item) p.call.timestampMs with
      | error e => exact .raised config m _
      | ok outbox => exact .delivered hdelivered
  | leave p =>
      rw [exec]
      split_ifs
      · exact .leaves config m _ rfl
      · exact .released rfl rfl (fun t' ht' => by cases ht')

theorem start_free (entry : Entry) (t : Task) (h : t ∈ start entry) : t.locked? = none := by
  cases entry <;> rw [List.mem_singleton.mp h] <;> rfl

end Ump.Bus
