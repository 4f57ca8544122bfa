import Ump.Foundation.Interleaving
import Ump.Delivery.Inbox

/-!
# The hand-over of one message

## Handlers and workers

A connection handler stages the envelope, commits its replay floor, activates the
row and acknowledges, each in a step of its own. Workers claim received rows
meanwhile. The acknowledgements sent and the envelopes offered are a record of the
past that the code does not keep.
-/

namespace Ump.Delivery

open Foundation

structure Config where
  protector : ReplayProtector
  sha256 : Text -> String

inductive Acknowledgement where
  | received
  | duplicate
deriving DecidableEq, Repr

structure Memory where
  inbox : Inbox
  floors : Floors
  offered : List Envelope
  acknowledged : List (Envelope × Acknowledgement)

def Memory.initial : Memory where
  inbox := Table.empty
  floors := []
  offered := []
  acknowledged := []

def Memory.restart (config : Config) (m : Memory) : Memory where
  inbox := m.inbox.reopen
  floors := m.floors.reopen config.protector
  offered := m.offered
  acknowledged := m.acknowledged

/-- The steps of `_handle_connection`, and of one round of `_worker`. -/
inductive Task where
  | receive (peerId : String) (envelope : Envelope)
  | enqueue (envelope : Envelope)
  | accept (envelope : Envelope) (isNew : Bool)
  | containsExact (envelope : Envelope)
  | discardStaged (envelope : Envelope)
  | activate (envelope : Envelope) (status : Acknowledgement)
  | acknowledge (envelope : Envelope) (status : Acknowledgement)
  | claim
  | finish (messageId : String)

structure Reading where
  raised : Bool

/-- A connection of an authenticated peer, or a worker that looks for work. -/
inductive Entry where
  | connect (peerId : String) (envelope : Envelope)
  | work

def start : Entry -> List Task
  | .connect peerId envelope => [.receive peerId envelope]
  | .work => [.claim]

/-- An envelope that is offered again is not recorded again. -/
def recordOffer (offered : List Envelope) (envelope : Envelope) : List Envelope :=
  if offered.any (fun other => other.messageId == envelope.messageId) then offered
  else offered ++ [envelope]

def checkReceived (peerId : String) (envelope : Envelope) : Except Exn Unit := do
  envelope.checkDecoded
  refuseWhen (decide (envelope.sourceId ≠ peerId))
    "envelope source does not match authenticated certificate identity"

def exec (config : Config) (m : Memory) (t : Task) (r : Reading) : Memory × Flow Task :=
  match t with
  | .receive peerId envelope =>
      attempt m (checkReceived peerId envelope) (fun _ =>
        ({ m with offered := recordOffer m.offered envelope }, .next [.enqueue envelope]))
  | .enqueue envelope =>
      attempt m (m.inbox.enqueue config.sha256 envelope false) (fun (isNew, inbox) =>
        ({ m with inbox := inbox }, .next [.accept envelope isNew]))
  | .accept envelope isNew =>
      if envelope.sequence ≤ m.floors.floor (laneOf envelope) then
        -- `except ReplayError`
        (m, .next [if isNew then .discardStaged envelope else .containsExact envelope])
      else
        attempt m (m.floors.commit config.protector (laneOf envelope) envelope.sequence)
          (fun floors => ({ m with floors := floors },
            .next [.activate envelope (if isNew then .received else .duplicate)]))
  | .containsExact envelope =>
      attempt m (m.inbox.containsExact config.sha256 envelope) (fun found =>
        if found then (m, .next [.activate envelope .duplicate]) else (m, .raised))
  | .discardStaged envelope =>
      ({ m with inbox := m.inbox.discardStaged envelope.messageId }, .raised)
  | .activate envelope status =>
      ({ m with inbox := m.inbox.activate envelope.messageId },
        .next [.acknowledge envelope status])
  | .acknowledge envelope status =>
      ({ m with acknowledged := m.acknowledged ++ [(envelope, status)] }, .next [])
  | .claim =>
      match m.inbox.claim with
      | (none, _) => (m, .next [])
      | (some row, inbox) => ({ m with inbox := inbox }, .next [.finish row.messageId])
  | .finish messageId =>
      ({ m with inbox := m.inbox.finish messageId r.raised }, .next [])

def machine (config : Config) : Machine Memory Task Reading Entry where
  exec := exec config
  start := start
  restart := Memory.restart config

/-- No connection and no worker yet. -/
def initial : Pool Memory Task where
  shared := .initial
  threads := []

/-!
## Inversion of a step
-/

def Task.attempt? : Task -> Option Envelope
  | .receive _ envelope => some envelope
  | .enqueue envelope => some envelope
  | .accept envelope _ => some envelope
  | .containsExact envelope => some envelope
  | .discardStaged envelope => some envelope
  | .activate envelope _ => some envelope
  | .acknowledge envelope _ => some envelope
  | _ => none

/-- The row of the envelope's message id carries the digest of its bytes. -/
def Bound (config : Config) (inbox : Inbox) (envelope : Envelope) (row : InboxRow) : Prop :=
  row ∈ inbox.rows ∧ row.messageId = envelope.messageId ∧
    exists body, envelope.encode = .ok body ∧ row.digest = config.sha256 body

inductive Effect (config : Config) (m : Memory) : Task -> Memory × Flow Task -> Prop where
  | raised (t : Task) : Effect config m t (m, .raised)
  | received {peerId : String} {envelope : Envelope}
      (hchecked : checkReceived peerId envelope = .ok ()) :
      Effect config m (.receive peerId envelope)
        ({ m with offered := recordOffer m.offered envelope }, .next [.enqueue envelope])
  | found {envelope : Envelope} {row : InboxRow}
      (hbound : Bound config m.inbox envelope row) :
      Effect config m (.enqueue envelope) (m, .next [.accept envelope false])
  | staged {envelope : Envelope} {inbox : Inbox} {body : Text}
      (hbody : envelope.encode = .ok body)
      (hnew : forall row, row ∈ m.inbox.rows -> row.messageId ≠ envelope.messageId)
      (hrows : inbox.rows =
        m.inbox.rows ++ [Inbox.newRow envelope (config.sha256 body) .staged]) :
      Effect config m (.enqueue envelope)
        ({ m with inbox := inbox }, .next [.accept envelope true])
  | replayed (envelope : Envelope) (isNew : Bool)
      (hfloor : envelope.sequence ≤ m.floors.floor (laneOf envelope)) :
      Effect config m (.accept envelope isNew)
        (m, .next [if isNew then .discardStaged envelope else .containsExact envelope])
  | accepted {envelope : Envelope} {isNew : Bool} {floors : Floors}
      (hfloor : m.floors.floor (laneOf envelope) < envelope.sequence)
      (hcommit : m.floors.commit config.protector (laneOf envelope) envelope.sequence =
        .ok floors) :
      Effect config m (.accept envelope isNew) ({ m with floors := floors },
        .next [.activate envelope (if isNew then .received else .duplicate)])
  | contained {envelope : Envelope} {row : InboxRow}
      (hbound : Bound config m.inbox envelope row) :
      Effect config m (.containsExact envelope) (m, .next [.activate envelope .duplicate])
  | discarded (envelope : Envelope) :
      Effect config m (.discardStaged envelope)
        ({ m with inbox := m.inbox.discardStaged envelope.messageId }, .raised)
  | activated (envelope : Envelope) (status : Acknowledgement) :
      Effect config m (.activate envelope status)
        ({ m with inbox := m.inbox.activate envelope.messageId },
          .next [.acknowledge envelope status])
  | acknowledged (envelope : Envelope) (status : Acknowledgement) :
      Effect config m (.acknowledge envelope status)
        ({ m with acknowledged := m.acknowledged ++ [(envelope, status)] }, .next [])
  | idle : Effect config m .claim (m, .next [])
  | claimed {row : InboxRow} {inbox : Inbox} (hclaim : m.inbox.claim = (some row, inbox)) :
      Effect config m .claim ({ m with inbox := inbox }, .next [.finish row.messageId])
  | finished (messageId : String) (raised : Bool) :
      Effect config m (.finish messageId)
        ({ m with inbox := m.inbox.finish messageId raised }, .next [])

theorem Effect.attempt {config : Config} {m : Memory} {t : Task} {x : Except Exn value}
    {next : value -> Memory × Flow Task}
    (h : forall v, x = .ok v -> Effect config m t (next v)) :
    Effect config m t (Foundation.attempt m x next) := by
  cases x with
  | ok v => exact h v rfl
  | error e => exact .raised t

theorem exec_effect (config : Config) (m : Memory) (t : Task) (r : Reading) :
    Effect config m t (exec config m t r) := by
  cases t with
  | receive peerId envelope =>
      rw [exec]
      apply Effect.attempt
      intro _ hchecked
      exact .received hchecked
  | enqueue envelope =>
      rw [exec]
      apply Effect.attempt
      intro result henqueue
      rcases result with ⟨isNew, inbox⟩
      rcases Inbox.enqueue_eq_ok henqueue with
        ⟨body, hbody, ⟨rfl, rfl, row, hrow, hid, hdigest⟩ | ⟨rfl, hnew, hrows⟩⟩
      · exact .found ⟨hrow, hid, body, hbody, hdigest⟩
      · exact .staged hbody hnew hrows
  | accept envelope isNew =>
      rw [exec]
      by_cases hfloor : envelope.sequence ≤ m.floors.floor (laneOf envelope)
      · rw [if_pos hfloor]
        exact .replayed envelope isNew hfloor
      · rw [if_neg hfloor]
        apply Effect.attempt
        intro floors hcommit
        exact .accepted (lt_of_not_ge hfloor) hcommit
  | containsExact envelope =>
      rw [exec]
      apply Effect.attempt
      intro found hfound
      cases found with
      | true =>
          rcases Inbox.containsExact_eq_ok hfound with ⟨body, row, hbody, hrow, hid, hdigest⟩
          exact .contained ⟨hrow, hid, body, hbody, hdigest⟩
      | false => exact .raised _
  | discardStaged envelope => exact .discarded envelope
  | activate envelope status => exact .activated envelope status
  | acknowledge envelope status => exact .acknowledged envelope status
  | claim =>
      rw [exec]
      generalize hclaim : m.inbox.claim = result
      rcases result with ⟨_ | row, inbox⟩
      · exact .idle
      · exact .claimed hclaim
  | finish messageId => exact .finished messageId r.raised

def heartbeat (sequence : Int) : Envelope where
  messageId := "m"
  messageType := .state
  sourceId := "r1"
  sessionId := "s"
  sequence := sequence
  timestampMs := 0
  payload := .obj []
  correlationId := none
  stream := .operational

end Ump.Delivery
