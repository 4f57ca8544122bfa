import Ump.Protocol.Models

/-!
# Envelopes

## The envelope and its bytes

Every message travels in an envelope. The bytes on the wire are the canonical
JSON text of its document, so a decoded envelope and its bytes determine each
other; the checks that `decode_envelope` makes on a document are kept apart from
the JSON codec itself.
-/

namespace Ump

def protocolVersion : String := "ump/0.1"
def maxMessageBytes : Nat := 65536

inductive Stream where
  | operational
  | safety
deriving DecidableEq, Repr

def Stream.value : Stream -> String
  | .operational => "operational"
  | .safety => "safety"

inductive MessageType where
  | manifest
  | state
  | goal
  | plan
  | assignment
  | assignmentAck
  | assignmentQuery
  | assignmentSnapshot
  | cancellationRequest
  | cancellationAck
  | outcome
deriving DecidableEq, Repr

def MessageType.value : MessageType -> String
  | .manifest => "manifest"
  | .state => "state"
  | .goal => "goal"
  | .plan => "plan"
  | .assignment => "assignment"
  | .assignmentAck => "assignment_ack"
  | .assignmentQuery => "assignment_query"
  | .assignmentSnapshot => "assignment_snapshot"
  | .cancellationRequest => "cancellation_request"
  | .cancellationAck => "cancellation_ack"
  | .outcome => "outcome"

structure Envelope where
  messageId : String
  messageType : MessageType
  sourceId : String
  sessionId : String
  sequence : Int
  timestampMs : Int
  payload : Json
  correlationId : Option String
  stream : Stream

namespace Envelope

/-- The members of the document; the operational stream is left implicit. -/
def document (envelope : Envelope) : Json :=
  .obj ([("protocol", .str protocolVersion),
    ("message_id", .str envelope.messageId),
    ("message_type", .str envelope.messageType.value),
    ("source_id", .str envelope.sourceId),
    ("session_id", .str envelope.sessionId),
    ("sequence", .int envelope.sequence),
    ("timestamp_ms", .int envelope.timestampMs),
    ("correlation_id", .optional .str envelope.correlationId),
    ("payload", envelope.payload)] ++
      match envelope.stream with
      | .operational => []
      | .safety => [("stream", .str envelope.stream.value)])

/-- The rule that both codecs check: the safety stream carries states only. -/
def checkStream (envelope : Envelope) : Except Exn Unit :=
  refuseWhen (decide (envelope.stream = .safety) &&
    decide (envelope.messageType ≠ .state)) "safety stream carries state messages only"

def encode (envelope : Envelope) : Except Exn Text := do
  envelope.checkStream
  let encoded := envelope.document.dumps
  refuseWhen (decide (maxMessageBytes < Text.byteSize encoded))
    "envelope exceeds the 64 KiB core profile"
  .ok encoded

theorem encode_eq_ok {envelope : Envelope} (hstream : envelope.checkStream = .ok ())
    (hsize : Text.byteSize envelope.document.dumps ≤ maxMessageBytes) :
    envelope.encode = .ok envelope.document.dumps := by
  unfold encode
  rw [hstream]
  have hfits : decide (maxMessageBytes < Text.byteSize envelope.document.dumps) = false :=
    decide_eq_false (Nat.not_lt.mpr hsize)
  simp only [bind, Except.bind, hfits]
  rfl

/-!
### The size of a document
-/

theorem byteSize_quote_key : Text.byteSize (Json.quote "protocol") = 10 ∧
    Text.byteSize (Json.quote "message_id") = 12 ∧
    Text.byteSize (Json.quote "message_type") = 14 ∧
    Text.byteSize (Json.quote "source_id") = 11 ∧
    Text.byteSize (Json.quote "session_id") = 12 ∧
    Text.byteSize (Json.quote "sequence") = 10 ∧
    Text.byteSize (Json.quote "timestamp_ms") = 14 ∧
    Text.byteSize (Json.quote "correlation_id") = 16 ∧
    Text.byteSize (Json.quote "payload") = 9 := by
  decide

theorem byteSize_quote_messageType (messageType : MessageType) :
    Text.byteSize (Json.quote messageType.value) ≤ 40 := by
  cases messageType <;> decide

/-- The bytes of the header's values, the message type apart. -/
def headerSize (envelope : Envelope) : Nat :=
  Text.byteSize (Json.quote envelope.messageId) +
    Text.byteSize (Json.quote envelope.sourceId) +
    Text.byteSize (Json.quote envelope.sessionId) +
    Text.byteSize (Json.int envelope.sequence).dumps +
    Text.byteSize (Json.int envelope.timestampMs).dumps +
    Text.byteSize (Json.optional Json.str envelope.correlationId).dumps

theorem byteSize_document {envelope : Envelope} (h : envelope.stream = .operational) :
    Text.byteSize envelope.document.dumps = 136 + envelope.headerSize +
      Text.byteSize (Json.quote envelope.messageType.value) +
      Text.byteSize envelope.payload.dumps := by
  have hversion : Text.byteSize (Json.quote protocolVersion) = 9 := by decide
  rcases byteSize_quote_key with ⟨h1, h2, h3, h4, h5, h6, h7, h8, h9⟩
  unfold document headerSize
  rw [h, Json.byteSize_dumps_obj (by simp)]
  simp only [List.append_nil, Json.dumpsFields, List.map_cons, List.map_nil, List.sum_cons,
    List.sum_nil, Json.dumps, hversion, h1, h2, h3, h4, h5, h6, h7, h8, h9]
  omega

def checkId (value fieldName : String) : Except Exn Unit :=
  refuseWhen (value.isEmpty || decide (128 < Text.byteSize value.toList))
    ("invalid " ++ fieldName)

/-- The checks of `decode_envelope` on the members of a document. -/
def checkDecoded (envelope : Envelope) : Except Exn Unit := do
  envelope.checkStream
  checkId envelope.messageId "message_id"
  checkId envelope.sourceId "source_id"
  checkId envelope.sessionId "session_id"
  refuseWhen (decide (envelope.sequence < 1)) "sequence must be a positive integer"
  refuseWhen (decide (envelope.timestampMs < 0))
    "timestamp_ms must be a non-negative integer"
  refuseWhen (!envelope.payload.isObject) "payload must be an object"
  match envelope.correlationId with
  | none => .ok ()
  | some correlationId =>
      refuseWhen (decide (128 < Text.byteSize correlationId.toList))
        "invalid correlation_id"

end Envelope

end Ump
