import Ump.Delivery.PeerBatches
import Ump.Network.Disclosure
import Ump.Protocol.Quoting
import Ump.Protocol.WireEnvelope

/-!
# Publishing with an outbox

## Envelopes that nobody has checked

An `Envelope` object is built without checks, so its message type, stream and protocol are
any texts. `publish` stores the disclosed copies as they are encoded, and only then the local
bus decodes the envelope.
-/

namespace Ump

namespace Json

theorem quote_inj {s t : String} (h : quote s = quote t) : s = t := by
  have hbody := List.append_cancel_right (List.cons.inj h).2
  exact String.toList_inj.mp (flatMap_escape_inj hbody)

theorem commaSeparated_around (left right : List Text) : exists before after,
    forall item, commaSeparated (left ++ item :: right) = before ++ item ++ after := by
  induction left with
  | nil =>
      cases right with
      | nil => exact ⟨[], [], fun item => by simp [commaSeparated]⟩
      | cons next right =>
          exact ⟨[], ',' :: commaSeparated (next :: right), fun item => by simp [commaSeparated]⟩
  | cons head left ih =>
      rcases ih with ⟨before, after, haround⟩
      refine ⟨head ++ ',' :: before, after, ?_⟩
      intro item
      have hrest : exists next others, left ++ item :: right = next :: others := by
        cases left with
        | nil => exact ⟨item, right, rfl⟩
        | cons next left => exact ⟨next, left ++ item :: right, rfl⟩
      rcases hrest with ⟨next, others, hrest⟩
      have hcons : commaSeparated (head :: (left ++ item :: right)) =
          head ++ ',' :: commaSeparated (left ++ item :: right) := by
        rw [hrest]
        rfl
      rw [List.cons_append, hcons, haround]
      simp

theorem dumps_member_inj {key : String} {a b : Json} {others : List (String × Json)}
    (h : dumps (.obj ((key, a) :: others)) = dumps (.obj ((key, b) :: others))) :
    dumps a = dumps b := by
  have hsorted : forall value : Text, sortKeys ((key, value) :: dumpsFields others) =
      (sortKeys (dumpsFields others)).takeWhile (fun other => decide ¬ key ≤ other.1) ++
        (key, value) ::
          (sortKeys (dumpsFields others)).dropWhile (fun other => decide ¬ key ≤ other.1) :=
    fun value => List.orderedInsert_eq_take_drop _ _ _
  rw [dumps, dumps, dumpsFields, dumpsFields, hsorted, hsorted, List.map_append,
    List.map_append, List.map_cons, List.map_cons] at h
  rcases commaSeparated_around _ _ with ⟨before, after, haround⟩
  rw [haround, haround] at h
  simpa using h

end Json

namespace Network

open Foundation Delivery Outbox

structure Draft where
  messageId : String
  messageType : String
  sourceId : String
  sessionId : String
  sequence : Int
  timestampMs : Int
  payload : Json
  correlationId : Option String
  protocol : String
  stream : String

def messageTypeOf (text : String) : Option MessageType :=
  Wire.messageTypes.find? (fun messageType => messageType.value == text)

namespace Draft

/-- The members that `encode_envelope` writes. -/
def document (draft : Draft) : Json :=
  .obj ([("protocol", .str draft.protocol),
    ("message_id", .str draft.messageId),
    ("message_type", .str draft.messageType),
    ("source_id", .str draft.sourceId),
    ("session_id", .str draft.sessionId),
    ("sequence", .int draft.sequence),
    ("timestamp_ms", .int draft.timestampMs),
    ("correlation_id", .optional .str draft.correlationId),
    ("payload", draft.payload)] ++
      if draft.stream = Stream.operational.value then []
      else [("stream", .str draft.stream)])

def isKnownStream (draft : Draft) : Bool :=
  decide (draft.stream = Stream.operational.value ∨ draft.stream = Stream.safety.value)

/-- The rules on the stream, which both codecs check. -/
def checkStream (draft : Draft) : Except Exn Unit := do
  refuseWhen (!draft.isKnownStream) "unknown envelope stream"
  refuseWhen (decide (draft.stream = Stream.safety.value) &&
    decide (draft.messageType ≠ MessageType.state.value))
    "safety stream carries state messages only"

/-- `encode_envelope`. -/
def encode (draft : Draft) : Except Exn Text := do
  draft.checkStream
  let encoded := draft.document.dumps
  refuseWhen (decide (maxMessageBytes < Text.byteSize encoded))
    "envelope exceeds the 64 KiB core profile"
  .ok encoded

def knownStream (draft : Draft) : Stream :=
  if draft.stream = Stream.safety.value then .safety else .operational

/-- What `decode_envelope` returns of the bytes when it does. -/
def envelope (draft : Draft) (messageType : MessageType) : Envelope where
  messageId := draft.messageId
  messageType := messageType
  sourceId := draft.sourceId
  sessionId := draft.sessionId
  sequence := draft.sequence
  timestampMs := draft.timestampMs
  payload := draft.payload
  correlationId := draft.correlationId
  stream := draft.knownStream

/-- `decode_envelope` of the bytes that `encode_envelope` has returned. -/
def decode (draft : Draft) : Except Exn Envelope := do
  refuseWhen (decide (draft.protocol ≠ protocolVersion)) "unsupported protocol version"
  match messageTypeOf draft.messageType with
  | none => .error (.value "unknown message type")
  | some messageType => do
      draft.checkStream
      (draft.envelope messageType).checkDecoded
      .ok (draft.envelope messageType)

/-- The checks of both codecs let the envelope pass. -/
structure Valid (draft : Draft) : Prop where
  encodes : exists encoded, draft.encode = .ok encoded
  decodes : exists envelope, draft.decode = .ok envelope

end Draft

/-!
### The call
-/

structure Copy where
  peerId : String
  messageType : MessageType
  draft : Draft

/-- `_disclose`; the message types of a policy are known ones. -/
def PeerEndpoint.copyFor (endpoint : PeerEndpoint) (draft : Draft) : Except Exn (Option Copy) :=
  match endpoint.allowedMessageTypes.find? (fun allowed => allowed.value == draft.messageType)
    with
  | none => .ok none
  | some messageType =>
      if messageType ≠ .manifest then
        .ok (some ⟨endpoint.robotId, messageType, draft⟩)
      else do
        let payload <- endpoint.filteredPayload draft.payload
        .ok (some ⟨endpoint.robotId, messageType, { draft with payload := payload }⟩)

def copiesFor (draft : Draft) : List PeerEndpoint -> Except Exn (List Copy)
  | [] => .ok []
  | endpoint :: rest => do
      let copy? <- endpoint.copyFor draft
      let others <- copiesFor draft rest
      .ok (copy?.toList ++ others)

def Copy.item (copy : Copy) : Item where
  peerId := copy.peerId
  envelope := copy.draft.envelope copy.messageType
  body := copy.draft.document.dumps

def encodeCopies : List Copy -> Except Exn (List Item)
  | [] => .ok []
  | copy :: rest => do
      let body <- copy.draft.encode
      let items <- encodeCopies rest
      .ok ({ copy.item with body := body } :: items)

/-- `enqueue_many` with the disclosed copies. -/
def enqueueCopies (limits : Limits) (outbox : Outbox) (copies : List Copy) (nowMs : Int) :
    Except Exn Outbox :=
  match copies with
  | [] => .ok outbox
  | _ => do
      let items <- encodeCopies copies
      outbox.storeItems limits nowMs items

/-- `InMemoryBus.publish`, where a handler may raise an exception. -/
def publishLocally (draft : Draft) (handler : Except Exn Unit) : Except Exn Unit := do
  let _ <- draft.encode
  let _ <- draft.decode
  handler

/-- `publish` up to its `flush`, which is a call of its own. -/
def publish (config : Config) (peers : Peers) (outbox : Outbox) (nowMs : Int) (draft : Draft)
    (handler : Except Exn Unit) : Outbox × Except Exn Unit :=
  if draft.sourceId ≠ config.robotId then
    (outbox, .error (.value "local bus may publish only the configured robot identity"))
  else
    match copiesFor draft peers.endpoints with
    | .error e => (outbox, .error e)
    | .ok copies =>
        match enqueueCopies config.limits outbox copies nowMs with
        | .error e => (outbox, .error e)
        | .ok stored => (stored, publishLocally draft handler)

/-!
### Reading the rows
-/

/-- `decode_envelope` of the bytes of a row. Bytes that are not those of the row's envelope
under the decoder's protocol have another protocol. -/
def readRow (row : OutboxRow) : Except Exn Envelope := do
  refuseWhen (decide (row.body ≠ row.envelope.document.dumps)) "unsupported protocol version"
  row.envelope.checkDecoded
  .ok row.envelope

def readRows : List OutboxRow -> Except Exn (List PendingDelivery)
  | [] => .ok []
  | row :: rest => do
      let envelope <- readRow row
      let items <- readRows rest
      .ok
        ({ peerId := row.peerId
           envelope := envelope
           attempts := row.attempts
           nextAttemptMs := row.nextAttemptMs } :: items)

/-- `ready`, for rows that drafts have left. -/
def readReady (outbox : Outbox) (nowMs limit : Int) (stream? : Option Stream) :
    Except Exn (List PendingDelivery) := do
  refuseWhen (decide (limit < 1)) "delivery limit must be positive"
  bindInteger nowMs
  bindInteger limit
  readRows (outbox.readyRows nowMs limit stream?)

/-!
## What a row says
-/

namespace Draft

def others (draft : Draft) : List (String × Json) :=
  [("message_id", .str draft.messageId),
    ("message_type", .str draft.messageType),
    ("source_id", .str draft.sourceId),
    ("session_id", .str draft.sessionId),
    ("sequence", .int draft.sequence),
    ("timestamp_ms", .int draft.timestampMs),
    ("correlation_id", .optional .str draft.correlationId),
    ("payload", draft.payload)] ++
      if draft.stream = Stream.operational.value then []
      else [("stream", .str draft.stream)]

theorem document_eq (draft : Draft) :
    draft.document = .obj (("protocol", .str draft.protocol) :: draft.others) := rfl

theorem checkStream_iff {draft : Draft} : draft.checkStream = .ok () <->
    draft.isKnownStream = true ∧
      (draft.stream = Stream.safety.value -> draft.messageType = MessageType.state.value) := by
  unfold checkStream
  cases hknown : draft.isKnownStream with
  | false => exact ⟨fun h => (by cases h), fun h => (by cases h.1)⟩
  | true =>
      show refuseWhen _ _ = .ok () <-> _
      unfold refuseWhen
      split_ifs with hrule
      · rcases Bool.and_eq_true_iff.mp hrule with ⟨hsafety, htype⟩
        exact ⟨fun h => (by cases h), fun h =>
          absurd (h.2 (of_decide_eq_true hsafety)) (of_decide_eq_true htype)⟩
      · refine ⟨fun _ => ⟨rfl, ?_⟩, fun _ => rfl⟩
        intro hsafety
        by_contra htype
        exact hrule (Bool.and_eq_true_iff.mpr ⟨decide_eq_true hsafety, decide_eq_true htype⟩)

theorem encode_eq_ok {draft : Draft} {encoded : Text} (h : draft.encode = .ok encoded) :
    draft.checkStream = .ok () ∧ encoded = draft.document.dumps := by
  rcases bind_eq_ok.mp h with ⟨_, hstream, h⟩
  rcases bind_eq_ok.mp h with ⟨_, _, h⟩
  exact ⟨hstream, (Except.ok.inj h).symm⟩

variable {draft : Draft} {messageType : MessageType}

theorem document_envelope (htype : messageType.value = draft.messageType)
    (hknown : draft.isKnownStream = true) : (draft.envelope messageType).document =
      .obj (("protocol", .str protocolVersion) :: draft.others) := by
  unfold Envelope.document others envelope knownStream
  dsimp only
  rw [htype]
  rcases of_decide_eq_true hknown with hstream | hstream
  · rw [hstream]
    rfl
  · rw [hstream]
    rfl

/-- The bytes of a draft are those of the envelope just if it has the decoder's protocol. -/
theorem dumps_envelope_iff (htype : messageType.value = draft.messageType)
    (hknown : draft.isKnownStream = true) :
    draft.document.dumps = (draft.envelope messageType).document.dumps <->
      draft.protocol = protocolVersion := by
  rw [document_envelope htype hknown, document_eq]
  constructor
  · exact fun h => Json.quote_inj (Json.dumps_member_inj h)
  · intro h
    rw [h]

theorem messageTypeOf_value (messageType : MessageType) :
    messageTypeOf messageType.value = some messageType := by
  cases messageType <;> decide

end Draft

theorem readRow_newRow {copy : Copy} {encoded : Text} (nowMs : Int)
    (htype : copy.messageType.value = copy.draft.messageType)
    (hencode : copy.draft.encode = .ok encoded) :
    readRow (newRow nowMs copy.item) = copy.draft.decode := by
  have hstream := (Draft.encode_eq_ok hencode).1
  have hknown := (Draft.checkStream_iff.mp hstream).1
  have hsame : decide (copy.draft.document.dumps ≠
      (copy.draft.envelope copy.messageType).document.dumps) =
      decide (copy.draft.protocol ≠ protocolVersion) :=
    decide_eq_decide.mpr (not_congr (Draft.dumps_envelope_iff htype hknown))
  have htypeOf : messageTypeOf copy.draft.messageType = some copy.messageType := by
    rw [← htype]
    exact Draft.messageTypeOf_value copy.messageType
  unfold readRow Draft.decode
  rw [htypeOf]
  dsimp only
  rw [hstream]
  show (do
    refuseWhen (decide (copy.draft.document.dumps ≠
      (copy.draft.envelope copy.messageType).document.dumps)) "unsupported protocol version"
    (copy.draft.envelope copy.messageType).checkDecoded
    .ok (copy.draft.envelope copy.messageType)) = _
  rw [hsame]
  rfl

/-!
## What a call stores
-/

/-- A disclosed copy differs from the envelope in its payload at most, which is an object
then. -/
structure CopyOf (draft : Draft) (copy : Copy) : Prop where
  messageType : copy.messageType.value = copy.draft.messageType
  same : exists payload, copy.draft = { draft with payload := payload } ∧
    (draft.payload.isObject = true -> payload.isObject = true)

theorem copyOf_copyFor {endpoint : PeerEndpoint} {draft : Draft} {copy : Copy}
    (h : endpoint.copyFor draft = .ok (some copy)) :
    copy.peerId = endpoint.robotId ∧ CopyOf draft copy := by
  unfold PeerEndpoint.copyFor at h
  cases hfind : endpoint.allowedMessageTypes.find?
      (fun allowed => allowed.value == draft.messageType) with
  | none =>
      rw [hfind] at h
      cases h
  | some messageType =>
      rw [hfind] at h
      have htype : messageType.value = draft.messageType := by
        simpa using List.find?_some hfind
      dsimp only at h
      split_ifs at h with hmanifest
      · cases h
        exact ⟨rfl, htype, draft.payload, rfl, id⟩
      · rcases bind_eq_ok.mp h with ⟨payload, hpayload, h⟩
        cases h
        refine ⟨rfl, htype, payload, rfl, ?_⟩
        intro _
        cases hfields : draft.payload with
        | obj fields =>
            rw [hfields] at hpayload
            rcases bind_eq_ok.mp hpayload with ⟨_, _, hpayload⟩
            rcases bind_eq_ok.mp hpayload with ⟨_, _, hpayload⟩
            rcases bind_eq_ok.mp hpayload with ⟨_, _, hpayload⟩
            cases hpayload
            rfl
        | _ =>
            rw [hfields] at hpayload
            cases hpayload

theorem copiesFor_eq_ok {draft : Draft} {endpoints : List PeerEndpoint} {copies : List Copy}
    (h : copiesFor draft endpoints = .ok copies) :
    (copies.map Copy.peerId).Sublist (endpoints.map PeerEndpoint.robotId) ∧
      forall copy, copy ∈ copies -> CopyOf draft copy := by
  induction endpoints generalizing copies with
  | nil =>
      cases h
      exact ⟨List.Sublist.refl _, fun _ hmem => by cases hmem⟩
  | cons endpoint rest ih =>
      rcases bind_eq_ok.mp h with ⟨copy?, hcopy, h⟩
      rcases bind_eq_ok.mp h with ⟨others, hothers, h⟩
      cases h
      rcases ih hothers with ⟨hsublist, hcopies⟩
      cases copy? with
      | none => exact ⟨hsublist.cons _, hcopies⟩
      | some copy =>
          rcases copyOf_copyFor hcopy with ⟨hpeer, hfirst⟩
          constructor
          · show (copy.peerId :: others.map Copy.peerId).Sublist _
            rw [hpeer]
            exact hsublist.cons_cons _
          · intro other hother
            rcases List.mem_cons.mp hother with rfl | hother
            · exact hfirst
            · exact hcopies other hother

theorem checkDecoded_payload {envelope : Envelope} {payload : Json}
    (h : envelope.checkDecoded = .ok ())
    (hobject : envelope.payload.isObject = true -> payload.isObject = true) :
    ({ envelope with payload := payload } : Envelope).checkDecoded = .ok () := by
  have hchecks := h
  unfold Envelope.checkDecoded at hchecks
  rcases bind_eq_ok.mp hchecks with ⟨_, _, hchecks⟩
  rcases bind_eq_ok.mp hchecks with ⟨_, _, hchecks⟩
  rcases bind_eq_ok.mp hchecks with ⟨_, _, hchecks⟩
  rcases bind_eq_ok.mp hchecks with ⟨_, _, hchecks⟩
  rcases bind_eq_ok.mp hchecks with ⟨_, _, hchecks⟩
  rcases bind_eq_ok.mp hchecks with ⟨_, _, hchecks⟩
  rcases bind_eq_ok.mp hchecks with ⟨_, hpayload, _⟩
  have hold : envelope.payload.isObject = true := by simpa using refuseWhen_eq_ok hpayload
  rw [← h]
  unfold Envelope.checkDecoded
  dsimp only
  rw [hold, hobject hold]
  rfl

theorem decode_copy {draft : Draft} {copy : Copy} {envelope : Envelope} (h : CopyOf draft copy)
    (hdecode : draft.decode = .ok envelope) : exists copied, copy.draft.decode = .ok copied := by
  rcases h.same with ⟨payload, hsame, hobject⟩
  rcases bind_eq_ok.mp hdecode with ⟨_, hprotocol, hdecode⟩
  rw [hsame]
  unfold Draft.decode
  cases htype : messageTypeOf draft.messageType with
  | none =>
      rw [htype] at hdecode
      cases hdecode
  | some messageType =>
      rw [htype] at hdecode
      rcases bind_eq_ok.mp hdecode with ⟨_, hstream, hdecode⟩
      rcases bind_eq_ok.mp hdecode with ⟨_, hchecked, _⟩
      have hcopied := checkDecoded_payload hchecked hobject
      refine ⟨({ draft with payload := payload } : Draft).envelope messageType, ?_⟩
      rw [hprotocol]
      dsimp only
      rw [show ({ draft with payload := payload } : Draft).checkStream = .ok () from hstream,
        show (({ draft with payload := payload } : Draft).envelope messageType).checkDecoded =
          .ok () from hcopied]
      rfl

theorem onePerPeer_copies {draft : Draft} {peers : Peers} {copies : List Copy}
    (h : copiesFor draft peers.endpoints = .ok copies) :
    OnePerPeer (copies.map Copy.item) := by
  have hnodup := peers.unique.sublist (copiesFor_eq_ok h).1
  exact List.pairwise_map.mpr (List.pairwise_map.mp hnodup)

theorem encodeCopies_eq_ok {copies : List Copy} {items : List Item}
    (h : encodeCopies copies = .ok items) :
    items = copies.map Copy.item ∧
      forall copy, copy ∈ copies -> exists encoded, copy.draft.encode = .ok encoded := by
  induction copies generalizing items with
  | nil =>
      cases h
      exact ⟨rfl, fun _ hmem => by cases hmem⟩
  | cons copy rest ih =>
      rcases bind_eq_ok.mp h with ⟨body, hbody, h⟩
      rcases bind_eq_ok.mp h with ⟨others, hothers, h⟩
      cases h
      rcases ih hothers with ⟨hmap, hencodes⟩
      constructor
      · rw [List.map_cons, hmap, (Draft.encode_eq_ok hbody).2]
        rfl
      · intro other hother
        rcases List.mem_cons.mp hother with rfl | hother
        · exact ⟨body, hbody⟩
        · exact hencodes other hother

theorem encodeCopies_of_encodes {copies : List Copy}
    (h : forall copy, copy ∈ copies -> exists encoded, copy.draft.encode = .ok encoded) :
    encodeCopies copies = .ok (copies.map Copy.item) := by
  induction copies with
  | nil => rfl
  | cons copy rest ih =>
      rcases h copy List.mem_cons_self with ⟨encoded, hencode⟩
      rw [encodeCopies, hencode, ih (fun other hother => h other (List.mem_cons_of_mem _ hother)),
        (Draft.encode_eq_ok hencode).2]
      rfl

/-- The call comes to storing copies of the envelope, and at least one is new. -/
structure Stores (config : Config) (peers : Peers) (outbox : Outbox) (nowMs : Int)
    (draft : Draft) : Prop where
  source : draft.sourceId = config.robotId
  copies : exists copies, copiesFor draft peers.endpoints = .ok copies ∧
    (forall copy, copy ∈ copies -> exists encoded, copy.draft.encode = .ok encoded) ∧
    Delivery.Outbox.Fits config.limits outbox nowMs (copies.map Copy.item)

section

variable {config : Config} {peers : Peers} {outbox : Outbox} {nowMs : Int} {draft : Draft}
  {handler : Except Exn Unit}

theorem publish_rows (config : Config) (peers : Peers) (outbox : Outbox) (nowMs : Int)
    (draft : Draft) (handler : Except Exn Unit) :
    (publish config peers outbox nowMs draft handler).1 = outbox ∨
      Stores config peers outbox nowMs draft ∧ exists copies : List Copy,
        (forall copy, copy ∈ copies -> CopyOf draft copy ∧
          exists encoded, copy.draft.encode = .ok encoded) ∧
        (publish config peers outbox nowMs draft handler).1.rows =
          outbox.rows ++ copies.map (fun copy => newRow nowMs copy.item) := by
  unfold publish
  split_ifs with hsource
  · exact Or.inl rfl
  · cases hcopies : copiesFor draft peers.endpoints with
    | error e => exact Or.inl rfl
    | ok copies =>
        dsimp only
        cases hstored : enqueueCopies config.limits outbox copies nowMs with
        | error e => exact Or.inl rfl
        | ok stored =>
            dsimp only
            cases copies with
            | nil => exact Or.inl (Except.ok.inj hstored).symm
            | cons first rest =>
                rcases bind_eq_ok.mp hstored with ⟨items, hitems, hstored⟩
                rcases encodeCopies_eq_ok hitems with ⟨rfl, hencodes⟩
                rcases storeItems_eq_ok (onePerPeer_copies hcopies) hstored with
                  ⟨hrows, hsame | hfits⟩
                · exact Or.inl hsame
                · refine Or.inr ⟨⟨not_not.mp hsource, _, hcopies, hencodes, hfits⟩,
                    (first :: rest).filter (fun copy => outbox.isNew copy.item), ?_, ?_⟩
                  · intro copy hcopy
                    have hmem := List.mem_of_mem_filter hcopy
                    exact ⟨(copiesFor_eq_ok hcopies).2 copy hmem, hencodes copy hmem⟩
                  · rw [hrows, List.filter_map, List.map_map]
                    rfl

theorem publish_stores (h : Stores config peers outbox nowMs draft) :
    (publish config peers outbox nowMs draft handler).1 ≠ outbox := by
  rcases h.copies with ⟨copies, hcopies, hencodes, hfits⟩
  have hstore : exists stored, enqueueCopies config.limits outbox copies nowMs = .ok stored ∧
      stored ≠ outbox := by
    rcases storeItems_of_fits (onePerPeer_copies hcopies) hfits with ⟨stored, hstored, hne⟩
    refine ⟨stored, ?_, hne⟩
    cases copies with
    | nil =>
        rcases hfits.new with ⟨_, hmem, _⟩
        cases hmem
    | cons first rest =>
        unfold enqueueCopies
        dsimp only
        rw [encodeCopies_of_encodes hencodes]
        exact hstored
  rcases hstore with ⟨stored, hstored, hne⟩
  unfold publish
  rw [if_neg (not_not.mpr h.source), hcopies]
  dsimp only
  rw [hstored]
  exact hne

theorem publish_raises (h : ¬ draft.Valid) : exists e,
    (publish config peers outbox nowMs draft handler).2 = .error e := by
  have hlocal : exists e, publishLocally draft handler = .error e := by
    unfold publishLocally
    cases hencode : draft.encode with
    | error e => exact ⟨e, rfl⟩
    | ok encoded =>
        cases hdecode : draft.decode with
        | error e => exact ⟨e, rfl⟩
        | ok envelope => exact absurd ⟨⟨encoded, hencode⟩, envelope, hdecode⟩ h
  unfold publish
  split_ifs
  · exact ⟨_, rfl⟩
  · cases copiesFor draft peers.endpoints with
    | error e => exact ⟨e, rfl⟩
    | ok copies =>
        dsimp only
        cases enqueueCopies config.limits outbox copies nowMs with
        | error e => exact ⟨e, rfl⟩
        | ok stored => exact hlocal

end

/-!
## Runs
-/

/-- The envelope passes the checks, or none of it is going to be stored. -/
def Harmless (config : Config) (peers : Peers) (outbox : Outbox) (nowMs : Int)
    (draft : Draft) : Prop :=
  draft.Valid ∨ ¬ Stores config peers outbox nowMs draft

/-- The outboxes of a run in which every published envelope is harmless. -/
inductive Reached (config : Config) : Outbox -> Prop where
  | empty : Reached config Table.empty
  | publish {outbox : Outbox} (h : Reached config outbox) (peers : Peers) (nowMs : Int)
      (draft : Draft) (handler : Except Exn Unit)
      (hharmless : Harmless config peers outbox nowMs draft) :
      Reached config (publish config peers outbox nowMs draft handler).1
  | delivered {outbox outbox' : Outbox} (h : Reached config outbox) (key : String × String)
      (nowMs : Int) (hdelivered : outbox.delivered key nowMs = .ok outbox') :
      Reached config outbox'
  | failed {outbox outbox' : Outbox} (h : Reached config outbox) (key : String × String)
      (nowMs : Int) (hfailed : outbox.failed key nowMs baseDelayMs maximumDelayMs = .ok outbox') :
      Reached config outbox'

def Decodes (outbox : Outbox) : Prop :=
  forall row, row ∈ outbox.rows -> exists envelope, readRow row = .ok envelope

theorem decodes_publish {config : Config} {peers : Peers} {outbox : Outbox} {nowMs : Int}
    {draft : Draft} (handler : Except Exn Unit) (h : Decodes outbox)
    (hharmless : Harmless config peers outbox nowMs draft) :
    Decodes (publish config peers outbox nowMs draft handler).1 := by
  rcases publish_rows config peers outbox nowMs draft handler with
    hsame | ⟨hstores, copies, hcopies, hrows⟩
  · rw [hsame]
    exact h
  · rcases hharmless with hvalid | hnot
    · rcases hvalid.decodes with ⟨envelope, hdecode⟩
      intro row hrow
      rw [hrows] at hrow
      rcases List.mem_append.mp hrow with hold | hnew
      · exact h row hold
      · rcases List.mem_map.mp hnew with ⟨copy, hcopy, rfl⟩
        rcases hcopies copy hcopy with ⟨hcopyOf, encoded, hencode⟩
        rw [readRow_newRow nowMs hcopyOf.messageType hencode]
        exact decode_copy hcopyOf hdecode
    · exact absurd hstores hnot

theorem decodes_update {outbox : Outbox} {p : OutboxRow -> Bool} {f : OutboxRow -> OutboxRow}
    {hf : Table.KeepsKeys f} (h : Decodes outbox)
    (hread : forall row, readRow (f row) = readRow row) : Decodes (outbox.update p f hf) := by
  intro row hrow
  rcases Table.mem_update_iff.mp hrow with ⟨old, hold, rfl⟩
  split_ifs
  · rw [hread]
    exact h old hold
  · exact h old hold

theorem Reached.decodes {config : Config} {outbox : Outbox} (h : Reached config outbox) :
    Decodes outbox := by
  induction h with
  | empty =>
      intro row hrow
      cases hrow
  | publish _ peers nowMs draft handler hharmless ih => exact decodes_publish handler ih hharmless
  | delivered _ key nowMs hdelivered ih =>
      rcases bind_eq_ok.mp hdelivered with ⟨_, _, hdelivered⟩
      cases Except.ok.inj hdelivered
      exact decodes_update ih (fun _ => rfl)
  | @failed outbox outbox' _ key nowMs hfailed ih =>
      unfold Outbox.failed at hfailed
      cases hrow : outbox.attempted key with
      | none =>
          rw [hrow] at hfailed
          cases hfailed
          exact ih
      | some row =>
          rw [hrow] at hfailed
          rcases bind_eq_ok.mp hfailed with ⟨_, _, hfailed⟩
          rcases bind_eq_ok.mp hfailed with ⟨_, _, hfailed⟩
          cases Except.ok.inj hfailed
          exact decodes_update ih (fun _ => rfl)

theorem readRows_of_decodes {rows : List OutboxRow}
    (h : forall row, row ∈ rows -> exists envelope, readRow row = .ok envelope) :
    exists items, readRows rows = .ok items := by
  induction rows with
  | nil => exact ⟨[], rfl⟩
  | cons row rest ih =>
      rcases h row List.mem_cons_self with ⟨envelope, henvelope⟩
      rcases ih (fun other hother => h other (List.mem_cons_of_mem _ hother)) with ⟨items, hitems⟩
      refine ⟨⟨row.peerId, envelope, row.attempts, row.nextAttemptMs⟩ :: items, ?_⟩
      rw [readRows, henvelope, hitems]
      rfl

theorem readReady_returns {outbox : Outbox} {nowMs limit : Int} {stream? : Option Stream}
    (h : Decodes outbox) (hlimit : 1 ≤ limit) (hnow : bindInteger nowMs = .ok ())
    (hbind : bindInteger limit = .ok ()) :
    exists items, readReady outbox nowMs limit stream? = .ok items := by
  rcases readRows_of_decodes (fun row hrow => h row (List.mem_of_mem_filter
    (mem_readyRows hrow))) with ⟨items, hitems⟩
  refine ⟨items, ?_⟩
  unfold readReady
  rw [decide_eq_false (not_lt.mpr hlimit), hnow, hbind]
  exact hitems

/-- A call with an envelope that fails a check raises and stores nothing just if the envelope
is harmless. In a run of harmless calls every row decodes, and reading never raises. -/
theorem publish_spares_outbox_iff (config : Config) :
    (forall (peers : Peers) (outbox : Outbox) (nowMs : Int) (draft : Draft)
      (handler : Except Exn Unit),
      (¬ draft.Valid ->
        (exists e, (publish config peers outbox nowMs draft handler).2 = .error e) ∧
          (publish config peers outbox nowMs draft handler).1 = outbox) <->
        Harmless config peers outbox nowMs draft) ∧
    forall outbox, Reached config outbox ->
      (forall row, row ∈ outbox.rows -> exists envelope, readRow row = .ok envelope) ∧
      forall nowMs limit stream?, 1 ≤ limit -> bindInteger nowMs = .ok () ->
        bindInteger limit = .ok () ->
        exists items, readReady outbox nowMs limit stream? = .ok items := by
  constructor
  · intro peers outbox nowMs draft handler
    constructor
    · intro h
      by_cases hvalid : draft.Valid
      · exact Or.inl hvalid
      · exact Or.inr (fun hstores => publish_stores hstores (h hvalid).2)
    · rintro hharmless hinvalid
      refine ⟨publish_raises hinvalid, ?_⟩
      rcases publish_rows config peers outbox nowMs draft handler with hsame | ⟨hstores, _⟩
      · exact hsame
      · exact absurd hstores (hharmless.resolve_left hinvalid)
  · intro outbox h
    exact ⟨h.decodes, fun nowMs limit stream? hlimit hnow hbind =>
      readReady_returns h.decodes hlimit hnow hbind⟩

def unnumbered : Draft where
  messageId := "m1"
  messageType := "state"
  sourceId := "rover"
  sessionId := "s1"
  sequence := 0
  timestampMs := 1
  payload := .obj []
  correlationId := none
  protocol := protocolVersion
  stream := "operational"

def roverConfig : Config where
  robotId := "rover"
  limits := ⟨100, 10, by decide⟩

def hubPeers : Peers where
  endpoints := [⟨"hub", [.state], []⟩]
  unique := List.nodup_singleton _

def poisoned : Outbox :=
  (publish roverConfig hubPeers Table.empty 1 unnumbered (.ok ())).1

set_option maxRecDepth 8000 in
/-- The call raises, and the row that it has stored stops every query of the outbox. -/
theorem publish_poisons_outbox :
    (publish roverConfig hubPeers Table.empty 1 unnumbered (.ok ())).2 =
        .error (.value "sequence must be a positive integer") ∧
      poisoned.rows.map (fun row => (row.peerId, row.messageId, row.status)) =
        [("hub", "m1", .pending)] ∧
      readReady poisoned 1 256 (some .operational) =
        .error (.value "sequence must be a positive integer") :=
  ⟨rfl, rfl, rfl⟩

end Network

end Ump
