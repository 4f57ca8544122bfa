import Ump.Foundation.Intervention
import Ump.Delivery.Handoff

/-!
# A node and its inbox workers

## One process

The inbox starts its workers as soon as it is open, and the components of the node
subscribe their handlers to the local bus later. A worker claims a row, passes its
envelope to the bus, which calls the handlers one after the other, and writes the status.
The claims and the calls are a record of the past that the code does not keep.
-/

namespace Ump.Node

open Foundation Delivery

structure Config where
  robotId : String
  receiver : Delivery.Config
  /-- What the components of the node subscribe to, in their order; `none` is the
  wildcard. -/
  topics : List (Option MessageType)

/-- A handler is known by the position of its subscription. -/
structure Call where
  process : Nat
  handler : Nat
  topic : Option MessageType
  envelope : Envelope

structure Memory where
  delivery : Delivery.Memory
  subscribers : List (Option MessageType)
  started : Bool
  process : Nat
  claims : List (Nat × InboxRow)
  calls : List Call

def Memory.initial : Memory where
  delivery := .initial
  subscribers := []
  started := false
  process := 0
  claims := []
  calls := []

/-- A new process opens the inbox; its bus has no handlers yet. -/
def Memory.restart (config : Config) (m : Memory) : Memory where
  delivery := m.delivery.restart config.receiver
  subscribers := []
  started := false
  process := m.process + 1
  claims := m.claims
  calls := m.calls

def Memory.inbox (m : Memory) : Inbox :=
  m.delivery.inbox

def Memory.withInbox (m : Memory) (inbox : Inbox) : Memory :=
  { m with delivery := { m.delivery with inbox := inbox } }

inductive Task where
  | connection (t : Delivery.Task)
  | enqueue (envelope : Envelope)
  | claim
  | publish (envelope : Envelope)
  | call (envelope : Envelope) (handlers : List Nat)
  | finish (envelope : Envelope) (raised : Bool)
  | startUp
  | subscribe (topic : Option MessageType)

/-- A connection, a direct `enqueue` of a ready message, a round of a worker, or the
construction of the node's components. -/
inductive Entry where
  | connect (peerId : String) (envelope : Envelope)
  | enqueue (envelope : Envelope)
  | work
  | startUp

def start : Entry -> List Task
  | .connect peerId envelope => [.connection (.receive peerId envelope)]
  | .enqueue envelope => [.enqueue envelope]
  | .work => [.claim]
  | .startUp => [.startUp]

/-- The handlers of the type, and then those of the wildcard. -/
def handlersOf (subscribers : List (Option MessageType)) (messageType : MessageType) :
    List Nat :=
  let positions := List.range subscribers.length
  positions.filter (fun i => subscribers[i]? == some (some messageType)) ++
    positions.filter (fun i => subscribers[i]? == some none)

def Memory.callOf (m : Memory) (envelope : Envelope) (handler : Nat) : Call where
  process := m.process
  handler := handler
  topic := (m.subscribers[handler]?).getD none
  envelope := envelope

/-- `decode_envelope(encode_envelope(envelope))` of the local bus. -/
def recode (envelope : Envelope) : Except Exn Unit := do
  let _ <- envelope.encode
  envelope.checkDecoded

def exec (config : Config) (m : Memory) (t : Task) (r : Reading) : Memory × Flow Task :=
  match t with
  | .connection t =>
      ({ m with delivery := (Delivery.exec config.receiver m.delivery t r).1 },
        (Delivery.exec config.receiver m.delivery t r).2.map .connection)
  | .enqueue envelope =>
      attempt m (m.inbox.enqueue config.receiver.sha256 envelope true) (fun (_, inbox) =>
        (m.withInbox inbox, .next []))
  | .claim =>
      match m.inbox.claim with
      | (none, _) => (m, .next [])
      | (some row, inbox) =>
          let m' := { m.withInbox inbox with claims := m.claims ++ [(m.process, row)] }
          -- the row stays `processing` when its bytes cannot be decoded
          attempt m' row.envelope.checkDecoded (fun _ => (m', .next [.publish row.envelope]))
  | .publish envelope =>
      if envelope.sourceId = config.robotId then
        (m, .next [.finish envelope true])
      else
        match recode envelope with
        | .error _ => (m, .next [.finish envelope true])
        | .ok _ => (m, .next [.call envelope (handlersOf m.subscribers envelope.messageType)])
  | .call envelope [] => (m, .next [.finish envelope false])
  | .call envelope (handler :: rest) =>
      ({ m with calls := m.calls ++ [m.callOf envelope handler] },
        .next [if r.raised then .finish envelope true else .call envelope rest])
  | .finish envelope raised =>
      (m.withInbox (m.inbox.finish envelope.messageId raised), .next [])
  | .startUp =>
      if m.started then (m, .raised)
      else ({ m with started := true }, .next (config.topics.map .subscribe))
  | .subscribe topic => ({ m with subscribers := m.subscribers ++ [topic] }, .next [])

def machine (config : Config) : Machine Memory Task Reading Entry where
  exec := exec config
  start := start
  restart := Memory.restart config

def initial : Pool Memory Task where
  shared := .initial
  threads := []

/-!
## What each task does
-/

def Task.working? : Task -> Option Envelope
  | .publish envelope => some envelope
  | .call envelope _ => some envelope
  | .finish envelope _ => some envelope
  | _ => none

/-- A task of a connection, of a start-up or of a worker that looks for work. -/
inductive Task.Idle : Task -> Prop where
  | connection {t : Delivery.Task} {envelope : Envelope} (h : t.attempt? = some envelope) :
      Idle (.connection t)
  | enqueue (envelope : Envelope) : Idle (.enqueue envelope)
  | claim : Idle .claim
  | startUp : Idle .startUp
  | subscribe (topic : Option MessageType) : Idle (.subscribe topic)

theorem Task.Idle.working {t : Task} (h : t.Idle) : t.working? = none := by
  cases h <;> rfl

inductive Effect (config : Config) (m : Memory) : Task -> Memory × Flow Task -> Prop where
  | quiet {t : Task} {result : Memory × Flow Task} (hidle : t.Idle)
      (hinbox : result.1.inbox = m.inbox) (hprocess : result.1.process = m.process)
      (hclaims : result.1.claims = m.claims) (hcalls : result.1.calls = m.calls)
      (hsubscribers : m.subscribers <+: result.1.subscribers)
      (hleaves : forall t', t' ∈ result.2.tasks -> t'.Idle) : Effect config m t result
  | staged {envelope : Envelope} {inbox : Inbox} {body : Text}
      (hnew : forall row, row ∈ m.inbox.rows -> row.messageId ≠ envelope.messageId)
      (hrows : inbox.rows = m.inbox.rows ++
        [Inbox.newRow envelope (config.receiver.sha256 body) .staged]) :
      Effect config m (.connection (.enqueue envelope))
        (m.withInbox inbox, .next [.connection (.accept envelope true)])
  | activated (envelope : Envelope) (status : Acknowledgement) :
      Effect config m (.connection (.activate envelope status))
        (m.withInbox (m.inbox.activate envelope.messageId),
          .next [.connection (.acknowledge envelope status)])
  | discarded (envelope : Envelope) :
      Effect config m (.connection (.discardStaged envelope))
        (m.withInbox (m.inbox.discardStaged envelope.messageId), .raised)
  | enqueued {envelope : Envelope} {inbox : Inbox} {body : Text}
      (hnew : forall row, row ∈ m.inbox.rows -> row.messageId ≠ envelope.messageId)
      (hrows : inbox.rows = m.inbox.rows ++
        [Inbox.newRow envelope (config.receiver.sha256 body) .received]) :
      Effect config m (.enqueue envelope) (m.withInbox inbox, .next [])
  | claimed {row : InboxRow} {inbox : Inbox} {flow : Flow Task}
      (hclaim : m.inbox.claim = (some row, inbox))
      (hflow : flow = .next [.publish row.envelope] ∨
        flow = .raised ∧ row.envelope.checkDecoded ≠ .ok ()) :
      Effect config m .claim
        ({ m.withInbox inbox with claims := m.claims ++ [(m.process, row)] }, flow)
  | refused (envelope : Envelope) :
      Effect config m (.publish envelope) (m, .next [.finish envelope true])
  | published (envelope : Envelope) :
      Effect config m (.publish envelope)
        (m, .next [.call envelope (handlersOf m.subscribers envelope.messageType)])
  | returned (envelope : Envelope) :
      Effect config m (.call envelope []) (m, .next [.finish envelope false])
  | called (envelope : Envelope) (handler : Nat) (rest : List Nat) {next : Task}
      (hnext : next = .finish envelope true ∨ next = .call envelope rest) :
      Effect config m (.call envelope (handler :: rest))
        ({ m with calls := m.calls ++ [m.callOf envelope handler] }, .next [next])
  | finished (envelope : Envelope) (raised : Bool) :
      Effect config m (.finish envelope raised)
        (m.withInbox (m.inbox.finish envelope.messageId raised), .next [])

theorem connection_effect (config : Config) (m : Memory) {t : Delivery.Task}
    {envelope : Envelope} (ht : t.attempt? = some envelope) (r : Reading) :
    Effect config m (.connection t) (exec config m (.connection t) r) := by
  rw [exec]
  generalize hresult : Delivery.exec config.receiver m.delivery t r = result
  have heffect : Delivery.Effect config.receiver m.delivery t result :=
    hresult ▸ Delivery.exec_effect config.receiver m.delivery t r
  have hquiet : forall result : Delivery.Memory × Flow Delivery.Task,
      result.1.inbox = m.delivery.inbox ->
      (forall t', t' ∈ result.2.tasks -> exists envelope, t'.attempt? = some envelope) ->
      Effect config m (.connection t)
        ({ m with delivery := result.1 }, result.2.map .connection) := by
    intro result hinbox hleaves
    refine Effect.quiet (.connection ht) ?_ rfl rfl rfl (List.prefix_refl _) ?_
    · exact hinbox
    · intro t' ht'
      rw [Flow.tasks_map] at ht'
      rcases List.mem_map.mp ht' with ⟨inner, hinner, rfl⟩
      rcases hleaves inner hinner with ⟨other, hother⟩
      exact .connection hother
  cases heffect with
  | staged hbody hnew hrows => exact .staged hnew hrows
  | discarded envelope => exact .discarded envelope
  | activated envelope status => exact .activated envelope status
  | idle => cases ht
  | claimed => cases ht
  | finished => cases ht
  | raised =>
      refine hquiet _ rfl ?_
      intro t' ht'
      cases ht'
  | acknowledged =>
      refine hquiet _ rfl ?_
      intro t' ht'
      cases ht'
  | replayed envelope isNew _ =>
      refine hquiet _ rfl ?_
      intro t' ht'
      rw [List.mem_singleton.mp ht']
      cases isNew <;> exact ⟨envelope, rfl⟩
  | _ =>
      refine hquiet _ rfl ?_
      intro t' ht'
      rw [List.mem_singleton.mp ht']
      exact ⟨_, rfl⟩

theorem exec_effect (config : Config) (m : Memory) (t : Task) (r : Reading)
    (ht : forall inner, t = .connection inner -> exists envelope, inner.attempt? = some envelope) :
    Effect config m t (exec config m t r) := by
  have hstays : forall {t : Task}, t.Idle -> Effect config m t (m, .raised) :=
    fun hidle => .quiet hidle rfl rfl rfl rfl (List.prefix_refl _) (fun t' ht' => by cases ht')
  cases t with
  | connection inner =>
      rcases ht inner rfl with ⟨envelope, hattempt⟩
      exact connection_effect config m hattempt r
  | enqueue envelope =>
      rw [exec]
      cases henqueue : m.inbox.enqueue config.receiver.sha256 envelope true with
      | error e => exact hstays (.enqueue envelope)
      | ok result =>
          rcases result with ⟨isNew, inbox⟩
          rcases Inbox.enqueue_eq_ok henqueue with
            ⟨body, _, ⟨_, rfl, _⟩ | ⟨_, hnew, hrows⟩⟩
          · exact .quiet (.enqueue envelope) rfl rfl rfl rfl (List.prefix_refl _)
              (fun t' ht' => by cases ht')
          · exact .enqueued hnew hrows
  | claim =>
      rw [exec]
      generalize hclaim : m.inbox.claim = result
      rcases result with ⟨_ | row, inbox⟩
      · exact .quiet .claim rfl rfl rfl rfl (List.prefix_refl _) (fun t' ht' => by cases ht')
      · dsimp only
        cases hdecoded : row.envelope.checkDecoded with
        | ok _ => exact .claimed hclaim (Or.inl rfl)
        | error e =>
            refine .claimed hclaim (Or.inr ⟨rfl, ?_⟩)
            rw [hdecoded]
            exact fun h => by cases h
  | publish envelope =>
      rw [exec]
      split_ifs
      · exact .refused envelope
      · cases recode envelope with
        | error e => exact .refused envelope
        | ok _ => exact .published envelope
  | call envelope handlers =>
      cases handlers with
      | nil => exact .returned envelope
      | cons handler rest =>
          rw [exec]
          cases r.raised with
          | true => exact .called envelope handler rest (Or.inl rfl)
          | false => exact .called envelope handler rest (Or.inr rfl)
  | finish envelope raised => exact .finished envelope raised
  | startUp =>
      rw [exec]
      split_ifs
      · exact hstays .startUp
      · refine Effect.quiet .startUp rfl rfl rfl rfl (List.prefix_refl _) ?_
        intro t' ht'
        rcases List.mem_map.mp ht' with ⟨topic, _, rfl⟩
        exact .subscribe topic
  | subscribe topic =>
      exact .quiet (.subscribe topic) rfl rfl rfl rfl (List.prefix_append _ _)
        (fun t' ht' => by cases ht')

theorem start_idle (entry : Entry) (t : Task) (ht : t ∈ start entry) : t.Idle := by
  cases entry with
  | connect peerId envelope =>
      rw [List.mem_singleton.mp ht]
      exact @Task.Idle.connection _ envelope rfl
  | enqueue envelope =>
      rw [List.mem_singleton.mp ht]
      exact .enqueue envelope
  | work =>
      rw [List.mem_singleton.mp ht]
      exact .claim
  | startUp =>
      rw [List.mem_singleton.mp ht]
      exact .startUp

end Ump.Node
