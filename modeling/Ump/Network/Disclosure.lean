import Ump.Bus.Fifo
import Ump.Foundation.Log

/-!
# Disclosure to peers

## Policies

Every configured peer has an allowlist of message types and one of capabilities. A manifest
is disclosed with the allowed capabilities only.
-/

namespace Ump

namespace Json

/-- `fields[name] = value` on the members of a dictionary. -/
def setMember (fields : List (String × Json)) (name : String) (value : Json) :
    List (String × Json) :=
  if fields.any (fun member => member.1 == name) then
    fields.map (fun member => if member.1 = name then (name, value) else member)
  else
    fields ++ [(name, value)]

theorem lookup_setMember (fields : List (String × Json)) (name : String) (value : Json) :
    (setMember fields name value).lookup name = some value := by
  unfold setMember
  split_ifs with hany
  · induction fields with
    | nil => cases hany
    | cons head rest ih =>
        rcases head with ⟨key, old⟩
        rw [List.map_cons]
        by_cases hkey : key = name
        · simp [hkey]
        · have hrest : rest.any (fun member => member.1 == name) = true := by
            simpa [hkey] using hany
          have hne : (name == key) = false := beq_eq_false_iff_ne.mpr (Ne.symm hkey)
          rw [if_neg hkey, List.lookup_cons, hne]
          exact ih hrest
  · have hnone : fields.lookup name = none := by
      rw [List.lookup_eq_none_iff]
      intro member hmember
      have hne : ¬ (member.1 == name) = true := fun hsame =>
        hany (List.any_eq_true.mpr ⟨member, hmember, hsame⟩)
      exact bne_iff_ne.mpr (fun hsame => hne (beq_iff_eq.mpr hsame.symm))
    rw [List.lookup_append, hnone]
    simp

end Json

namespace Network

open Foundation Delivery Outbox
open Bus (Call Progress Sending itemKey)

structure PeerEndpoint where
  robotId : String
  allowedMessageTypes : List MessageType
  allowedCapabilities : List String

namespace PeerEndpoint

/-- `name in allowed`; a list or an object cannot be a member of a set. -/
def allows (endpoint : PeerEndpoint) : Json -> Except Exn Bool
  | .str name => .ok (endpoint.allowedCapabilities.contains name)
  | .arr _ => .error (.type "unhashable type")
  | .obj _ => .error (.type "unhashable type")
  | _ => .ok false

def allowed (endpoint : PeerEndpoint) : List Json -> Except Exn (List Json)
  | [] => .ok []
  | capability :: rest => do
      let name <- capability.get "name" .null
      let kept <- endpoint.allows name
      let others <- endpoint.allowed rest
      .ok (if kept then capability :: others else others)

def filteredPayload (endpoint : PeerEndpoint) : Json -> Except Exn Json
  | .obj fields => do
      let listed <- (Json.obj fields).get "capabilities" (.arr [])
      let capabilities <- listed.tuple
      let kept <- endpoint.allowed capabilities
      .ok (.obj (Json.setMember fields "capabilities" (.arr kept)))
  | _ => .error (.type "payload is not a dictionary")

def disclose (endpoint : PeerEndpoint) (envelope : Envelope) : Except Exn (Option Envelope) :=
  if !endpoint.allowedMessageTypes.contains envelope.messageType then
    .ok none
  else if envelope.messageType ≠ .manifest then
    .ok (some envelope)
  else do
    let payload <- endpoint.filteredPayload envelope.payload
    .ok (some { envelope with payload := payload })

end PeerEndpoint

/-- The dictionary of the configured peers, by robot id. -/
structure Peers where
  endpoints : List PeerEndpoint
  unique : (endpoints.map PeerEndpoint.robotId).Nodup

namespace Peers

def empty : Peers where
  endpoints := []
  unique := List.nodup_nil

def lookup (peers : Peers) (robotId : String) : Option PeerEndpoint :=
  peers.endpoints.find? (fun endpoint => endpoint.robotId == robotId)

/-- `self._peers[endpoint.robot_id] = endpoint`: an entry keeps its place. -/
def put (peers : Peers) (endpoint : PeerEndpoint) : Peers :=
  if h : endpoint.robotId ∈ peers.endpoints.map PeerEndpoint.robotId then
    { endpoints := peers.endpoints.map (fun other =>
        if other.robotId = endpoint.robotId then endpoint else other)
      unique := by
        rw [List.map_map]
        have hsame : PeerEndpoint.robotId ∘ (fun other : PeerEndpoint =>
            if other.robotId = endpoint.robotId then endpoint else other) =
            PeerEndpoint.robotId := by
          funext other
          dsimp only [Function.comp]
          split_ifs with hother
          · exact hother.symm
          · rfl
        rw [hsame]
        exact peers.unique }
  else
    { endpoints := peers.endpoints ++ [endpoint]
      unique := by
        rw [List.map_append, List.map_singleton, ← List.concat_eq_append]
        exact List.Nodup.concat h peers.unique }

/-- `self._peers.pop(robot_id, None)`. -/
def remove (peers : Peers) (robotId : String) : Peers where
  endpoints := peers.endpoints.filter (fun endpoint => endpoint.robotId != robotId)
  unique := peers.unique.sublist (List.Sublist.map _ List.filter_sublist)

theorem lookup_of_mem {peers : Peers} {endpoint : PeerEndpoint} (h : endpoint ∈ peers.endpoints) :
    peers.lookup endpoint.robotId = some endpoint := by
  have hunique := peers.unique
  unfold lookup
  generalize peers.endpoints = endpoints at h hunique ⊢
  induction endpoints with
  | nil => cases h
  | cons head rest ih =>
      rw [List.map_cons, List.nodup_cons] at hunique
      rw [List.find?_cons]
      rcases List.mem_cons.mp h with rfl | hrest
      · simp
      · have hne : (head.robotId == endpoint.robotId) = false := by
          rw [beq_eq_false_iff_ne]
          intro hsame
          exact hunique.1 (hsame ▸ List.mem_map.mpr ⟨endpoint, hrest, rfl⟩)
        rw [hne]
        exact ih hrest hunique.2

theorem robotId_of_lookup {peers : Peers} {robotId : String} {endpoint : PeerEndpoint}
    (h : peers.lookup robotId = some endpoint) : endpoint.robotId = robotId := by
  simpa using List.find?_some h

end Peers

/-- The copies of an envelope for the peers that may see it. -/
def discloseAll (envelope : Envelope) :
    List PeerEndpoint -> Except Exn (List (PeerEndpoint × Envelope))
  | [] => .ok []
  | endpoint :: rest => do
      let disclosed <- endpoint.disclose envelope
      let others <- discloseAll envelope rest
      match disclosed with
      | some copy => .ok ((endpoint, copy) :: others)
      | none => .ok others

/-!
## What a policy permits
-/

def Names (endpoint : PeerEndpoint) (capability : Json) : Prop :=
  exists name, capability.get "name" .null = .ok (.str name) ∧
    name ∈ endpoint.allowedCapabilities

/-- The type of the envelope is allowed, and a manifest lists allowed capabilities only. -/
structure Permits (endpoint : PeerEndpoint) (envelope : Envelope) : Prop where
  messageType : envelope.messageType ∈ endpoint.allowedMessageTypes
  capabilities : envelope.messageType = .manifest -> exists listed,
    envelope.payload.item "capabilities" = .ok (.arr listed) ∧
      forall capability, capability ∈ listed -> Names endpoint capability

/-- A policy that allows all that another one does. -/
structure Broadens (broader endpoint : PeerEndpoint) : Prop where
  messageTypes : endpoint.allowedMessageTypes ⊆ broader.allowedMessageTypes
  capabilities : endpoint.allowedCapabilities ⊆ broader.allowedCapabilities

theorem Permits.broadened {endpoint broader : PeerEndpoint} {envelope : Envelope}
    (h : Permits endpoint envelope) (hbroader : Broadens broader endpoint) :
    Permits broader envelope where
  messageType := hbroader.messageTypes h.messageType
  capabilities hmanifest := by
    rcases h.capabilities hmanifest with ⟨listed, hlisted, hnames⟩
    refine ⟨listed, hlisted, ?_⟩
    intro capability hcapability
    rcases hnames capability hcapability with ⟨name, hname, hallowed⟩
    exact ⟨name, hname, hbroader.capabilities hallowed⟩

theorem names_of_allowed {endpoint : PeerEndpoint} {capabilities kept : List Json}
    (h : endpoint.allowed capabilities = .ok kept) :
    forall capability, capability ∈ kept -> Names endpoint capability := by
  induction capabilities generalizing kept with
  | nil =>
      cases h
      intro capability hcapability
      cases hcapability
  | cons first rest ih =>
      rcases bind_eq_ok.mp h with ⟨name, hname, h⟩
      rcases bind_eq_ok.mp h with ⟨keeps, hkeeps, h⟩
      rcases bind_eq_ok.mp h with ⟨others, hothers, h⟩
      cases h
      intro capability hcapability
      split_ifs at hcapability with hkept
      · rcases List.mem_cons.mp hcapability with rfl | hrest
        · cases name with
          | str text =>
              cases hkeeps
              exact ⟨text, hname, by simpa using hkept⟩
          | arr items => cases hkeeps
          | obj fields => cases hkeeps
          | _ =>
              cases hkeeps
              cases hkept
        · exact ih hothers capability hrest
      · exact ih hothers capability hcapability

theorem permits_of_disclose {endpoint : PeerEndpoint} {envelope copy : Envelope}
    (h : endpoint.disclose envelope = .ok (some copy)) : Permits endpoint copy := by
  unfold PeerEndpoint.disclose at h
  split_ifs at h with htype hmanifest
  · cases h
  · cases h
    refine ⟨by simpa using htype, fun hsame => absurd hsame hmanifest⟩
  · rcases bind_eq_ok.mp h with ⟨payload, hpayload, h⟩
    cases h
    refine ⟨by simpa using htype, ?_⟩
    intro _
    cases hfields : envelope.payload with
    | obj fields =>
        rw [hfields] at hpayload
        rcases bind_eq_ok.mp hpayload with ⟨listed, _, hpayload⟩
        rcases bind_eq_ok.mp hpayload with ⟨capabilities, _, hpayload⟩
        rcases bind_eq_ok.mp hpayload with ⟨kept, hkept, hpayload⟩
        cases hpayload
        refine ⟨kept, ?_, names_of_allowed hkept⟩
        unfold Json.item
        dsimp only
        rw [Json.lookup_setMember]
    | _ =>
        rw [hfields] at hpayload
        cases hpayload

theorem mem_discloseAll {envelope : Envelope} {endpoints : List PeerEndpoint}
    {disclosures : List (PeerEndpoint × Envelope)}
    (h : discloseAll envelope endpoints = .ok disclosures) {endpoint : PeerEndpoint}
    {copy : Envelope} (hmem : (endpoint, copy) ∈ disclosures) :
    endpoint ∈ endpoints ∧ endpoint.disclose envelope = .ok (some copy) := by
  induction endpoints generalizing disclosures with
  | nil =>
      cases h
      cases hmem
  | cons first rest ih =>
      rcases bind_eq_ok.mp h with ⟨disclosed, hdisclosed, h⟩
      rcases bind_eq_ok.mp h with ⟨others, hothers, h⟩
      cases disclosed with
      | none =>
          cases h
          rcases ih hothers hmem with ⟨hin, hsame⟩
          exact ⟨List.mem_cons_of_mem _ hin, hsame⟩
      | some firstCopy =>
          cases h
          rcases List.mem_cons.mp hmem with hfirst | hrest
          · cases hfirst
            exact ⟨List.mem_cons_self, hdisclosed⟩
          · rcases ih hothers hrest with ⟨hin, hsame⟩
            exact ⟨List.mem_cons_of_mem _ hin, hsame⟩

/-!
## The bus

Publishers, the retry thread and changes of the configuration run side by side. The log
keeps what the code does not: which peers were configured when an envelope was published, and
every transmission with the policy that was configured for its peer at that moment. The send
locks are left out, so all interleavings that they prevent are among the runs.
-/

structure Config where
  robotId : String
  limits : Limits

inductive Event where
  | published (peers : Peers) (envelope : Envelope)
  | transmitted (peerId : String) (envelope : Envelope) (configured : Option PeerEndpoint)

structure Memory where
  peers : Peers
  outbox : Option Outbox
  log : List Event

def Memory.initial (durable : Bool) : Memory where
  peers := .empty
  outbox := if durable then some Table.empty else none
  log := []

def Memory.restart (m : Memory) : Memory where
  peers := .empty
  outbox := m.outbox
  log := m.log

inductive Task where
  | addPeer (endpoint : PeerEndpoint)
  | removePeer (robotId : String)
  | publish (envelope : Envelope)
  | enqueue (envelope : Envelope) (disclosures : List (PeerEndpoint × Envelope))
  | publishLocally (envelope : Envelope) (disclosures : List (PeerEndpoint × Envelope))
  | direct (disclosures : List (PeerEndpoint × Envelope))
  | flush (nowMs? : Option Int) (limit : Int) (stream? : Option Stream)
  | enter (stream : Stream) (nowMs? : Option Int) (limit : Int) (both : Bool)
  | round (p : Progress)
  | item (p : Progress) (items : List PendingDelivery)
  | send (p : Progress) (endpoint : PeerEndpoint) (item : PendingDelivery)
      (rest : List PendingDelivery)
  | failed (p : Progress) (item : PendingDelivery) (rest : List PendingDelivery)
  | delivered (p : Progress) (item : PendingDelivery) (rest : List PendingDelivery)
  | leave (p : Progress)

/-- What the environment answers: the time, how a transmission ends, and whether a local
handler raises. -/
structure Reading where
  nowMs : Int
  sending : Sending
  handlerRaises : Bool

inductive Entry where
  | addPeer (endpoint : PeerEndpoint)
  | removePeer (robotId : String)
  | publish (envelope : Envelope)
  | flush (nowMs? : Option Int) (limit : Int) (stream? : Option Stream)

def start : Entry -> List Task
  | .addPeer endpoint => [.addPeer endpoint]
  | .removePeer robotId => [.removePeer robotId]
  | .publish envelope => [.publish envelope]
  | .flush nowMs? limit stream? => [.flush nowMs? limit stream?]

/-- `self._client.send` to a peer, as the log sees it. -/
def Memory.transmit (m : Memory) (peerId : String) (envelope : Envelope) : Memory :=
  { m with log := m.log ++ [.transmitted peerId envelope (m.peers.lookup peerId)] }

def exec (config : Config) (m : Memory) (t : Task) (r : Reading) : Memory × Flow Task :=
  match t with
  | .addPeer endpoint =>
      if endpoint.robotId = config.robotId then (m, .raised)
      else ({ m with peers := m.peers.put endpoint }, .next [])
  | .removePeer robotId => ({ m with peers := m.peers.remove robotId }, .next [])
  | .publish envelope =>
      if envelope.sourceId ≠ config.robotId then
        (m, .raised)
      else
        attempt m (discloseAll envelope m.peers.endpoints) (fun disclosures =>
          ({ m with log := m.log ++ [.published m.peers envelope] },
            .next [.enqueue envelope disclosures]))
  | .enqueue envelope disclosures =>
      match m.outbox with
      | none => (m, .next [.publishLocally envelope disclosures])
      | some outbox =>
          attempt m (enqueueMany config.limits outbox (disclosures.map (fun disclosure =>
              (disclosure.1.robotId, disclosure.2))) r.nowMs) (fun outbox =>
            ({ m with outbox := some outbox }, .next [.publishLocally envelope disclosures]))
  | .publishLocally envelope disclosures =>
      if r.handlerRaises then
        (m, .raised)
      else
        match m.outbox with
        | none => (m, .next [.direct disclosures])
        | some _ => (m, .next [.flush none 256 (some envelope.stream)])
  | .direct [] => (m, .next [])
  | .direct ((endpoint, copy) :: rest) =>
      match r.sending with
      | .raised => (m.transmit endpoint.robotId copy, .raised)
      | _ => (m.transmit endpoint.robotId copy, .next [.direct rest])
  | .flush nowMs? limit stream? =>
      match m.outbox with
      | none => (m, .next [])
      | some _ =>
          match stream? with
          | none => (m, .next [.enter .safety nowMs? limit true])
          | some stream => (m, .next [.enter stream nowMs? limit false])
  | .enter stream nowMs? limit both =>
      (m, .next [.round
        { call :=
            { stream := stream
              nowMs? := nowMs?
              limit := limit
              both := both
              timestampMs := nowMs?.getD r.nowMs }
          delivered := 0
          progressed := false }])
  | .round p =>
      match m.outbox with
      | none => (m, .raised)
      | some outbox =>
          if p.delivered < p.call.limit then
            attempt m (outbox.ready p.call.timestampMs (p.call.limit - p.delivered)
                (some p.call.stream)) (fun items =>
              if items.isEmpty then (m, .next [.leave p])
              else (m, .next [.item { p with progressed := false } items]))
          else
            (m, .next [.leave p])
  | .item p [] => (m, .next [if p.progressed then .round p else .leave p])
  | .item p (item :: rest) =>
      match m.peers.lookup item.peerId with
      | some endpoint => (m, .next [.send p endpoint item rest])
      | none => (m, .next [.failed p item rest])
  | .send p endpoint item rest =>
      match r.sending with
      | .acknowledged => (m.transmit endpoint.robotId item.envelope, .next [.delivered p item rest])
      | .refused => (m.transmit endpoint.robotId item.envelope, .next [.failed p item rest])
      | .raised => (m.transmit endpoint.robotId item.envelope, .raised)
  | .failed p item rest =>
      match m.outbox with
      | none => (m, .raised)
      | some outbox =>
          attempt m (outbox.failed (itemKey item) p.call.timestampMs baseDelayMs maximumDelayMs)
            (fun outbox => ({ m with outbox := some outbox }, .next [.item p rest]))
  | .delivered p item rest =>
      match m.outbox with
      | none => (m, .raised)
      | some outbox =>
          attempt m (outbox.delivered (itemKey item) p.call.timestampMs) (fun outbox =>
            ({ m with outbox := some outbox },
              .next [.item { p with delivered := p.delivered + 1, progressed := true } rest]))
  | .leave p =>
      if p.call.both && decide (p.delivered < p.call.limit) then
        (m, .next [.enter .operational p.call.nowMs? (p.call.limit - p.delivered) false])
      else
        (m, .next [])

def machine (config : Config) : Machine Memory Task Reading Entry where
  exec := exec config
  start := start
  restart := Memory.restart

def initial (durable : Bool) : Pool Memory Task where
  shared := .initial durable
  threads := []

/-!
## What the tasks carry
-/

def copies (disclosures : List (PeerEndpoint × Envelope)) : List (String × Envelope) :=
  disclosures.map (fun disclosure => (disclosure.1.robotId, disclosure.2))

def deliveryOfPending (item : PendingDelivery) : String × Envelope :=
  (item.peerId, item.envelope)

/-- The envelopes that a task may still transmit, with their peers. -/
def Task.carried : Task -> List (String × Envelope)
  | .enqueue _ disclosures => copies disclosures
  | .publishLocally _ disclosures => copies disclosures
  | .direct disclosures => copies disclosures
  | .item _ items => items.map deliveryOfPending
  | .send _ endpoint first rest =>
      (endpoint.robotId, first.envelope) :: rest.map deliveryOfPending
  | .failed _ _ rest => rest.map deliveryOfPending
  | .delivered _ _ rest => rest.map deliveryOfPending
  | _ => []

/-- A delivery that a task carries or the outbox holds. -/
def Known (m : Memory) (t : Task) (delivery : String × Envelope) : Prop :=
  delivery ∈ t.carried ∨
    exists outbox row, m.outbox = some outbox ∧ row ∈ outbox.rows ∧ deliveryOf row = delivery

def KnownRows (m : Memory) (t : Task) (outbox? : Option Outbox) : Prop :=
  forall outbox, outbox? = some outbox -> forall row, row ∈ outbox.rows ->
    Known m t (deliveryOf row)

theorem knownRows_same (m : Memory) (t : Task) : KnownRows m t m.outbox :=
  fun outbox houtbox row hrow => Or.inr ⟨outbox, row, houtbox, hrow, rfl⟩

theorem knownRows_enqueue {limits : Limits} {m : Memory} {t : Task} {outbox outbox' : Outbox}
    {nowMs : Int} (houtbox : m.outbox = some outbox)
    (h : enqueueMany limits outbox t.carried nowMs = .ok outbox') :
    KnownRows m t (some outbox') := by
  intro stored hstored row hrow
  cases hstored
  rcases enqueueMany_eq_ok h with ⟨newItems, hadded⟩
  rcases hadded.items with ⟨items, hitems, hcollect⟩
  rw [hadded.rows] at hrow
  rcases List.mem_append.mp hrow with hold | hnew
  · exact Or.inr ⟨outbox, row, houtbox, hold, rfl⟩
  · rcases List.mem_map.mp hnew with ⟨item, hitem, rfl⟩
    have hcollected := collect_eq_ok hcollect ⟨List.nodup_nil, fun _ h => by cases h⟩
    rcases hcollected.fresh item hitem with hnone | ⟨hmem, _⟩
    · cases hnone
    · left
      rw [← (encodeAll_eq_ok hitems).1]
      exact List.mem_map.mpr ⟨item, hmem, rfl⟩

theorem knownRows_update {m : Memory} {t : Task} {outbox : Outbox} {p : OutboxRow -> Bool}
    {f : OutboxRow -> OutboxRow} {hf : Table.KeepsKeys f} (houtbox : m.outbox = some outbox)
    (hdelivery : forall row, deliveryOf (f row) = deliveryOf row) :
    KnownRows m t (some (outbox.update p f hf)) := by
  intro stored hstored row hrow
  cases hstored
  rcases Table.mem_update_iff.mp hrow with ⟨before, hbefore, rfl⟩
  refine Or.inr ⟨outbox, before, houtbox, hbefore, ?_⟩
  split_ifs
  · exact (hdelivery before).symm
  · rfl

theorem known_ready {m : Memory} {t : Task} {outbox : Outbox} {nowMs limit : Int}
    {stream? : Option Stream} {items : List PendingDelivery} (houtbox : m.outbox = some outbox)
    (h : outbox.ready nowMs limit stream? = .ok items) {delivery : String × Envelope}
    (hmem : delivery ∈ items.map deliveryOfPending) : Known m t delivery := by
  rcases bind_eq_ok.mp h with ⟨_, _, h⟩
  rcases bind_eq_ok.mp h with ⟨_, _, h⟩
  rcases bind_eq_ok.mp h with ⟨_, _, h⟩
  have hmap : items.map deliveryOfPending = _ := decodeAll_eq_ok h
  rw [hmap] at hmem
  rcases List.mem_map.mp hmem with ⟨row, hrow, rfl⟩
  have hstored := mem_readyRows hrow
  unfold due at hstored
  exact Or.inr ⟨outbox, row, houtbox, (List.mem_filter.mp hstored).1, rfl⟩

/-- What a task does to the log, to the outbox and to what is carried. -/
inductive Effect (m : Memory) (t : Task) : Memory × Flow Task -> Prop where
  | kept {m' : Memory} {flow : Flow Task} (hlog : m'.log = m.log)
      (hrows : KnownRows m t m'.outbox)
      (hcarried : forall t', t' ∈ flow.tasks -> forall delivery, delivery ∈ t'.carried ->
        Known m t delivery) : Effect m t (m', flow)
  | published {envelope : Envelope} {disclosures : List (PeerEndpoint × Envelope)}
      (h : discloseAll envelope m.peers.endpoints = .ok disclosures) :
      Effect m t ({ m with log := m.log ++ [.published m.peers envelope] },
        .next [.enqueue envelope disclosures])
  | transmitted {peerId : String} {envelope : Envelope} {flow : Flow Task}
      (hmem : (peerId, envelope) ∈ t.carried)
      (hcarried : forall t', t' ∈ flow.tasks -> forall delivery, delivery ∈ t'.carried ->
        delivery ∈ t.carried) : Effect m t (m.transmit peerId envelope, flow)

theorem Effect.goesOn {m m' : Memory} {t : Task} {flow : Flow Task} (hlog : m'.log = m.log)
    (houtbox : m'.outbox = m.outbox)
    (hcarried : forall t', t' ∈ flow.tasks -> forall delivery, delivery ∈ t'.carried ->
      delivery ∈ t.carried) : Effect m t (m', flow) := by
  apply Effect.kept hlog
  · rw [houtbox]
    exact knownRows_same m t
  · exact fun t' ht' delivery hdelivery => Or.inl (hcarried t' ht' delivery hdelivery)

theorem Effect.ends (m : Memory) (t : Task) : Effect m t (m, .raised) :=
  .goesOn rfl rfl (fun t' ht' => by cases ht')

theorem Effect.leaves {m m' : Memory} {t t' : Task} (hlog : m'.log = m.log)
    (houtbox : m'.outbox = m.outbox) (hcarried : t'.carried ⊆ t.carried) :
    Effect m t (m', .next [t']) := by
  apply Effect.goesOn hlog houtbox
  intro other hother delivery hdelivery
  rw [List.mem_singleton.mp hother] at hdelivery
  exact hcarried hdelivery

theorem Effect.stores {m : Memory} {t : Task} {outbox : Outbox} {flow : Flow Task}
    (hrows : KnownRows m t (some outbox))
    (hcarried : forall t', t' ∈ flow.tasks -> forall delivery, delivery ∈ t'.carried ->
      delivery ∈ t.carried) : Effect m t ({ m with outbox := some outbox }, flow) :=
  @Effect.kept m t { m with outbox := some outbox } flow rfl hrows
    (fun t' ht' delivery hdelivery => Or.inl (hcarried t' ht' delivery hdelivery))

theorem exec_effect (config : Config) (m : Memory) (t : Task) (r : Reading) :
    Effect m t (exec config m t r) := by
  have hends : forall m' : Memory, m'.log = m.log -> m'.outbox = m.outbox ->
      Effect m t (m', .next []) :=
    fun m' hlog houtbox => .goesOn hlog houtbox (fun t' ht' => by cases ht')
  cases t with
  | addPeer endpoint =>
      rw [exec]
      split_ifs
      · exact .ends m _
      · exact hends _ rfl rfl
  | removePeer robotId => exact hends _ rfl rfl
  | publish envelope =>
      rw [exec]
      split_ifs
      · exact .ends m _
      · cases hdisclosures : discloseAll envelope m.peers.endpoints with
        | error e => exact .ends m _
        | ok disclosures => exact .published hdisclosures
  | enqueue envelope disclosures =>
      rw [exec]
      cases houtbox : m.outbox with
      | none => exact .leaves rfl rfl (fun _ h => h)
      | some outbox =>
          dsimp only
          cases henqueue : enqueueMany config.limits outbox (copies disclosures) r.nowMs with
          | error e =>
              unfold copies at henqueue
              rw [henqueue]
              exact .ends m _
          | ok outbox' =>
              have hrows := @knownRows_enqueue config.limits m (.enqueue envelope disclosures)
                outbox outbox' r.nowMs houtbox henqueue
              unfold copies at henqueue
              rw [henqueue]
              dsimp only [attempt]
              apply Effect.stores hrows
              intro t' ht' delivery hdelivery
              rw [List.mem_singleton.mp ht'] at hdelivery
              exact hdelivery
  | publishLocally envelope disclosures =>
      rw [exec]
      split_ifs
      · exact .ends m _
      · cases m.outbox with
        | none => exact .leaves rfl rfl (fun _ h => h)
        | some outbox => exact .leaves rfl rfl (List.nil_subset _)
  | direct disclosures =>
      cases disclosures with
      | nil => exact hends _ rfl rfl
      | cons first rest =>
          rcases first with ⟨endpoint, copy⟩
          rw [exec]
          have hrest : forall t', t' ∈ (Flow.next [Task.direct rest]).tasks ->
              forall delivery, delivery ∈ t'.carried ->
                delivery ∈ (Task.direct ((endpoint, copy) :: rest)).carried := by
            intro t' ht' delivery hdelivery
            rw [List.mem_singleton.mp ht'] at hdelivery
            exact List.mem_cons_of_mem _ hdelivery
          cases r.sending with
          | raised => exact .transmitted List.mem_cons_self (fun t' ht' => by cases ht')
          | acknowledged => exact .transmitted List.mem_cons_self hrest
          | refused => exact .transmitted List.mem_cons_self hrest
  | flush nowMs? limit stream? =>
      unfold exec
      dsimp only
      cases m.outbox with
      | none => exact hends _ rfl rfl
      | some outbox =>
          cases stream? with
          | none => exact .leaves rfl rfl (List.nil_subset _)
          | some stream => exact .leaves rfl rfl (List.nil_subset _)
  | enter stream nowMs? limit both => exact .leaves rfl rfl (List.nil_subset _)
  | round p =>
      rw [exec]
      cases houtbox : m.outbox with
      | none => exact .ends m _
      | some outbox =>
          dsimp only
          split_ifs
          · cases hready : outbox.ready p.call.timestampMs (p.call.limit - p.delivered)
              (some p.call.stream) with
            | error e => exact .ends m _
            | ok items =>
                dsimp only [attempt]
                split_ifs
                · exact .leaves rfl rfl (List.nil_subset _)
                · apply Effect.kept rfl (knownRows_same m _)
                  intro t' ht' delivery hdelivery
                  rw [List.mem_singleton.mp ht'] at hdelivery
                  exact known_ready houtbox hready hdelivery
          · exact .leaves rfl rfl (List.nil_subset _)
  | item p items =>
      cases items with
      | nil =>
          rw [exec]
          split_ifs
          · exact .leaves rfl rfl (List.nil_subset _)
          · exact .leaves rfl rfl (List.nil_subset _)
      | cons item rest =>
          rw [exec]
          cases hpeer : m.peers.lookup item.peerId with
          | none => exact .leaves rfl rfl (List.subset_cons_self _ _)
          | some endpoint =>
              apply Effect.leaves rfl rfl
              show (endpoint.robotId, item.envelope) :: rest.map deliveryOfPending ⊆ _
              rw [Peers.robotId_of_lookup hpeer]
              exact fun _ h => h
  | send p endpoint item rest =>
      rw [exec]
      have hrest : forall t' : Task, t'.carried = rest.map deliveryOfPending ->
          forall other, other ∈ (Flow.next [t']).tasks -> forall delivery,
            delivery ∈ other.carried -> delivery ∈ (Task.send p endpoint item rest).carried := by
        intro t' hsame other hother delivery hdelivery
        rw [List.mem_singleton.mp hother, hsame] at hdelivery
        exact List.mem_cons_of_mem _ hdelivery
      cases r.sending with
      | acknowledged => exact .transmitted List.mem_cons_self (hrest _ rfl)
      | refused => exact .transmitted List.mem_cons_self (hrest _ rfl)
      | raised => exact .transmitted List.mem_cons_self (fun t' ht' => by cases ht')
  | failed p item rest =>
      rw [exec]
      cases houtbox : m.outbox with
      | none => exact .ends m _
      | some outbox =>
          dsimp only
          cases hfailed : outbox.failed (itemKey item) p.call.timestampMs baseDelayMs
              maximumDelayMs with
          | error e => exact .ends m _
          | ok outbox' =>
              dsimp only [attempt]
              apply Effect.stores
              · rcases Bus.failed_eq_ok hfailed with rfl | ⟨attempts, nextAttemptMs, rfl⟩
                · rw [← houtbox]
                  exact knownRows_same m _
                · exact knownRows_update houtbox (fun _ => rfl)
              · intro t' ht' delivery hdelivery
                rw [List.mem_singleton.mp ht'] at hdelivery
                exact hdelivery
  | delivered p item rest =>
      rw [exec]
      cases houtbox : m.outbox with
      | none => exact .ends m _
      | some outbox =>
          dsimp only
          cases hdelivered : outbox.delivered (itemKey item) p.call.timestampMs with
          | error e => exact .ends m _
          | ok outbox' =>
              dsimp only [attempt]
              apply Effect.stores
              · cases Bus.delivered_eq_ok hdelivered
                exact knownRows_update houtbox (fun _ => rfl)
              · intro t' ht' delivery hdelivery
                rw [List.mem_singleton.mp ht'] at hdelivery
                exact hdelivery
  | leave p =>
      rw [exec]
      split_ifs
      · exact .leaves rfl rfl (List.nil_subset _)
      · exact hends _ rfl rfl

/-!
## What has been transmitted
-/

/-- The envelope has been published while a policy was configured for the peer, and is what
this policy discloses of it. -/
def Disclosed (log : List Event) (delivery : String × Envelope) : Prop :=
  exists peers endpoint original, Event.published peers original ∈ log ∧
    peers.lookup delivery.1 = some endpoint ∧
    endpoint.disclose original = .ok (some delivery.2)

theorem Disclosed.grown {log : List Event} {delivery : String × Envelope}
    (h : Disclosed log delivery) (event : Event) : Disclosed (log ++ [event]) delivery := by
  rcases h with ⟨peers, endpoint, original, hpublished, hdisclosed⟩
  exact ⟨peers, endpoint, original, List.mem_append_left _ hpublished, hdisclosed⟩

theorem disclosed_published {log : List Event} {peers : Peers} {envelope : Envelope}
    {disclosures : List (PeerEndpoint × Envelope)}
    (h : discloseAll envelope peers.endpoints = .ok disclosures) {delivery : String × Envelope}
    (hmem : delivery ∈ copies disclosures) :
    Disclosed (log ++ [.published peers envelope]) delivery := by
  rcases List.mem_map.mp hmem with ⟨⟨endpoint, copy⟩, hdisclosure, rfl⟩
  rcases mem_discloseAll h hdisclosure with ⟨hendpoint, hdisclosed⟩
  exact ⟨peers, endpoint, envelope, List.mem_append_right _ List.mem_cons_self,
    Peers.lookup_of_mem hendpoint, hdisclosed⟩

/-- Everything that was transmitted, is stored, or is carried by a task was disclosed. -/
structure Traced (m : Memory) (ts : Multiset Task) : Prop where
  stored : forall outbox, m.outbox = some outbox -> forall row, row ∈ outbox.rows ->
    Disclosed m.log (deliveryOf row)
  carried : forall t, t ∈ ts -> forall delivery, delivery ∈ t.carried -> Disclosed m.log delivery
  sent : forall before peerId envelope configured after,
    m.log = before ++ .transmitted peerId envelope configured :: after ->
    Disclosed before (peerId, envelope)

theorem Traced.known {m : Memory} {t : Task} {ts : Multiset Task} (h : Traced m (t ::ₘ ts))
    {delivery : String × Envelope} (hknown : Known m t delivery) : Disclosed m.log delivery := by
  rcases hknown with hcarried | ⟨outbox, row, houtbox, hrow, rfl⟩
  · exact h.carried t (Multiset.mem_cons_self t ts) delivery hcarried
  · exact h.stored outbox houtbox row hrow

theorem Traced.effect {m : Memory} {t : Task} {ts : Multiset Task} {result : Memory × Flow Task}
    (h : Traced m (t ::ₘ ts)) (heffect : Effect m t result) :
    Traced result.1 ((result.2.tasks : Multiset Task) + ts) := by
  have hothers : forall t', t' ∈ ts -> forall delivery, delivery ∈ t'.carried ->
      Disclosed m.log delivery :=
    fun t' ht' => h.carried t' (Multiset.mem_cons_of_mem ht')
  cases heffect with
  | kept hlog hrows hcarried =>
      constructor
      · intro outbox houtbox row hrow
        rw [hlog]
        exact h.known (hrows outbox houtbox row hrow)
      · intro t' ht' delivery hdelivery
        rw [hlog]
        rcases Multiset.mem_add.mp ht' with hnew | hold
        · exact h.known (hcarried t' (Multiset.mem_coe.mp hnew) delivery hdelivery)
        · exact hothers t' hold delivery hdelivery
      · rw [hlog]
        exact h.sent
  | published hdisclosures =>
      constructor
      · intro outbox houtbox row hrow
        exact (h.stored outbox houtbox row hrow).grown _
      · intro t' ht' delivery hdelivery
        rcases Multiset.mem_add.mp ht' with hnew | hold
        · rw [List.mem_singleton.mp (Multiset.mem_coe.mp hnew)] at hdelivery
          exact disclosed_published hdisclosures hdelivery
        · exact (hothers t' hold delivery hdelivery).grown _
      · intro before peerId envelope configured after hsplit
        rcases split_concat hsplit with ⟨hlast, _⟩ | ⟨after', hold⟩
        · cases hlast
        · exact h.sent before peerId envelope configured after' hold
  | transmitted hmem hcarried =>
      have hown : forall delivery, delivery ∈ t.carried -> Disclosed m.log delivery :=
        h.carried t (Multiset.mem_cons_self t ts)
      constructor
      · intro outbox houtbox row hrow
        exact (h.stored outbox houtbox row hrow).grown _
      · intro t' ht' delivery hdelivery
        rcases Multiset.mem_add.mp ht' with hnew | hold
        · exact (hown delivery
            (hcarried t' (Multiset.mem_coe.mp hnew) delivery hdelivery)).grown _
        · exact (hothers t' hold delivery hdelivery).grown _
      · intro before peerId envelope configured after hsplit
        rcases split_concat hsplit with ⟨hlast, hbefore⟩ | ⟨after', hold⟩
        · cases hlast
          rw [hbefore]
          exact hown _ hmem
        · exact h.sent before peerId envelope configured after' hold

theorem traced_keeps (config : Config) :
    (machine config).Keeps Condition.always (fun _ _ => True) Traced where
  drop h hle :=
    ⟨h.stored, fun t ht => h.carried t (Multiset.mem_of_le hle ht), h.sent⟩
  spawn := by
    intro m ts entry _ h _
    refine ⟨h.stored, ?_, h.sent⟩
    intro t ht delivery hdelivery
    rcases Multiset.mem_add.mp ht with hold | hnew
    · exact h.carried t hold delivery hdelivery
    · have hstart : t ∈ start entry := Multiset.mem_coe.mp hnew
      cases entry <;> rw [List.mem_singleton.mp hstart] at hdelivery <;> cases hdelivery
  exec := by
    intro m t ts r _ h _
    exact h.effect (exec_effect config m t r)
  crash _ h := ⟨h.stored, fun t ht => absurd ht (Multiset.notMem_zero t), h.sent⟩

theorem initial_traced (durable : Bool) :
    Traced (initial durable).shared (initial durable).tasks := by
  refine ⟨?_, fun t ht => absurd ht (Multiset.notMem_zero t), ?_⟩
  · intro outbox houtbox row hrow
    cases durable with
    | false => cases houtbox
    | true =>
        cases houtbox
        cases hrow
  · intro before peerId envelope configured after hsplit
    cases before <;> cases hsplit

/-- In every run, what is transmitted to a peer is permitted by the policy that was configured
for the peer when it was published, and so by every policy that is not narrower, the one
configured at the transmission among them. -/
theorem transmitted_permitted (config : Config) (durable : Bool) (p : Pool Memory Task)
    (h : (machine config).Reaches Condition.always (initial durable) p)
    (before after : List Event) (peerId : String) (envelope : Envelope)
    (configured : Option PeerEndpoint)
    (hlog : p.shared.log = before ++ .transmitted peerId envelope configured :: after) :
    exists peers endpoint original, Event.published peers original ∈ before ∧
      peers.lookup peerId = some endpoint ∧
      endpoint.disclose original = .ok (some envelope) ∧
      Permits endpoint envelope ∧
      forall current, configured = some current -> Broadens current endpoint ->
        Permits current envelope := by
  have htraced := (traced_keeps config).reaches h (fun _ _ => trivial) (initial_traced durable)
  rcases htraced.sent before peerId envelope configured after hlog with
    ⟨peers, endpoint, original, hpublished, hlookup, hdisclosed⟩
  have hpermits := permits_of_disclose hdisclosed
  exact ⟨peers, endpoint, original, hpublished, hlookup, hdisclosed, hpermits,
    fun current _ hbroadens => hpermits.broadened hbroadens⟩

/-!
## A policy that is narrowed while an envelope waits
-/

def sender : Config where
  robotId := "r1"
  limits := { maximumPending := 8, safetyReserve := 1, reserved := Bus.twoPeers.limits.reserved }

def listed (names : List String) : Json :=
  .obj [("capabilities", .arr (names.map (fun name => .obj [("name", .str name)])))]

def offered (names : List String) : Envelope where
  messageId := "m"
  messageType := .manifest
  sourceId := "r1"
  sessionId := "s"
  sequence := 1
  timestampMs := 0
  payload := listed names
  correlationId := none
  stream := .operational

def trusted : PeerEndpoint where
  robotId := "p1"
  allowedMessageTypes := [.manifest]
  allowedCapabilities := ["lift/v1"]

def hinted : PeerEndpoint where
  robotId := "p1"
  allowedMessageTypes := []
  allowedCapabilities := []

def answers (thread : Nat) (sendings : List Sending) : List (Action Reading Entry) :=
  sendings.map (fun sending =>
    .run thread { nowMs := 0, sending := sending, handlerRaises := false })

/-- A manifest with two capabilities is published while the peer does not answer. -/
def outage : List (Action Reading Entry) :=
  .spawn (.addPeer trusted) :: answers 0 [.acknowledged] ++
    .spawn (.publish (offered ["lift/v1", "scan/v1"])) ::
      answers 1 (List.replicate 7 .acknowledged ++ [.refused, .acknowledged, .acknowledged])

/-- The peer is configured again, and a flush reaches it. -/
def recovery (endpoint : PeerEndpoint) : List (Action Reading Entry) :=
  .spawn (.addPeer endpoint) :: answers 2 [.acknowledged] ++
    .spawn (.flush (some 1000) 256 (some .operational)) ::
      answers 3 (List.replicate 5 .acknowledged)

def transmissions (p : Pool Memory Task) : List Event :=
  p.shared.log.drop 1

set_option maxRecDepth 8000 in
theorem trusted_permitted :
    exists p, (machine sender).run (initial true) (outage ++ recovery trusted) = some p ∧
      transmissions p = [.transmitted "p1" (offered ["lift/v1"]) (some trusted),
        .transmitted "p1" (offered ["lift/v1"]) (some trusted)] ∧
      exists peers endpoint original, Event.published peers original ∈ p.shared.log ∧
        peers.lookup "p1" = some endpoint ∧ Permits endpoint (offered ["lift/v1"]) := by
  have hview : ((machine sender).run (initial true) (outage ++ recovery trusted)).map
      transmissions = some [.transmitted "p1" (offered ["lift/v1"]) (some trusted),
        .transmitted "p1" (offered ["lift/v1"]) (some trusted)] := rfl
  rcases Option.map_eq_some_iff.mp hview with ⟨p, hrun, hlog⟩
  have hsplit : p.shared.log = p.shared.log.take 1 ++
      .transmitted "p1" (offered ["lift/v1"]) (some trusted) ::
        [.transmitted "p1" (offered ["lift/v1"]) (some trusted)] := by
    rw [← hlog]
    exact (List.take_append_drop 1 p.shared.log).symm
  rcases transmitted_permitted sender true p (Machine.run_reaches hrun) _ _ _ _ _ hsplit with
    ⟨peers, endpoint, original, hpublished, hlookup, _, hpermits, _⟩
  exact ⟨p, hrun, hlog, peers, endpoint, original, List.mem_of_mem_take hpublished, hlookup,
    hpermits⟩

set_option maxRecDepth 8000 in
/-- The peer's new policy discloses nothing, and the waiting manifest is transmitted. -/
theorem hinted_receives :
    exists p, (machine sender).run (initial true) (outage ++ recovery hinted) = some p ∧
      transmissions p = [.transmitted "p1" (offered ["lift/v1"]) (some trusted),
        .transmitted "p1" (offered ["lift/v1"]) (some hinted)] ∧
      ¬ Permits hinted (offered ["lift/v1"]) := by
  have hview : ((machine sender).run (initial true) (outage ++ recovery hinted)).map
      transmissions = some [.transmitted "p1" (offered ["lift/v1"]) (some trusted),
        .transmitted "p1" (offered ["lift/v1"]) (some hinted)] := rfl
  rcases Option.map_eq_some_iff.mp hview with ⟨p, hrun, hlog⟩
  refine ⟨p, hrun, hlog, ?_⟩
  intro hpermits
  cases hpermits.messageType

end Network

end Ump
