import Ump.Codec.Printing
import Ump.Protocol.WireEnvelope

/-!
# Encoding envelopes

## `encode_envelope`

An `Envelope` object is built without checks, so its protocol, message type and stream are any
texts. The payload is a dictionary of decoded values.
-/

namespace Ump.Wire

open Codec

structure Draft where
  messageId : Points
  messageType : Points
  sourceId : Points
  sessionId : Points
  sequence : Int
  timestampMs : Int
  payload : Members
  correlationId : Option Points
  protocol : Points
  stream : Points

/-- The object that `decode_envelope` builds. -/
def WireEnvelope.draft (e : WireEnvelope) : Draft where
  messageId := e.messageId
  messageType := points e.messageType.value
  sourceId := e.sourceId
  sessionId := e.sessionId
  sequence := e.sequence
  timestampMs := e.timestampMs
  payload := e.payload
  correlationId := e.correlationId
  protocol := points protocolVersion
  stream := points e.stream.value

def nullable : Option Points -> Value
  | none => .null
  | some s => .str s

/-- The members of `document`; the operational stream is left implicit. -/
def Draft.fields (d : Draft) : Members :=
  [(points "protocol", .str d.protocol),
    (points "message_id", .str d.messageId),
    (points "message_type", .str d.messageType),
    (points "source_id", .str d.sourceId),
    (points "session_id", .str d.sessionId),
    (points "sequence", .int d.sequence),
    (points "timestamp_ms", .int d.timestampMs),
    (points "correlation_id", nullable d.correlationId),
    (points "payload", .obj d.payload)] ++
      if d.stream = points Stream.operational.value then []
      else [(points "stream", .str d.stream)]

/-- `json.dumps` with the options of the encoder, unless an integer has too many digits. -/
def dumps (value : Value) : Option Points :=
  if everywhere intFits value.tree then some value.tree.print else none

/-- `.encode("utf-8")`, which refuses surrogates. -/
def textBytes (text : Points) : Option (List UInt8) :=
  if text.any isSurrogate then none else some ((encodeUtf8 text).map UInt8.ofNat)

def encodeEnvelope (d : Draft) : Except DecodeError (List UInt8) := do
  refuse (!(streams.any (fun stream => decide (d.stream = points stream.value))))
    "unknown envelope stream"
  refuse (decide (d.stream = points Stream.safety.value) &&
    decide (d.messageType ≠ points MessageType.state.value))
    "safety stream carries state messages only"
  match (dumps (.obj d.fields)).bind textBytes with
  | none => .error (.protocol "envelope is not JSON serializable")
  | some encoded => do
      refuse (decide (maxMessageBytes < encoded.length))
        "envelope exceeds the 64 KiB core profile"
      .ok encoded

/-!
## `json.loads`

Whatever the reader refuses counts as a decoding error here, an integer with too many digits
too.
-/

def loads (library : FloatLibrary) (wide : Encoding -> List Nat -> Option Points)
    (encoded : List UInt8) : Except LoadsError Value :=
  match decodeBytes wide (encoded.map UInt8.toNat) with
  | none => .error .unicodeDecode
  | some text =>
      match valueOf library.read text with
      | none => .error .jsonDecode
      | some value => .ok value

/-!
## What is decoded
-/

def BoundedId (s : Points) : Prop :=
  s ≠ [] ∧ s.any isSurrogate = false ∧ (encodeUtf8 s).length ≤ 128

def BoundedCorrelation (s : Points) : Prop :=
  s.any isSurrogate = false ∧ (encodeUtf8 s).length ≤ 128

/-- The checks that `decode_envelope` makes on the fields of an envelope. -/
structure WireEnvelope.Checked (e : WireEnvelope) : Prop where
  stream : e.stream = .safety -> e.messageType = .state
  messageId : BoundedId e.messageId
  sourceId : BoundedId e.sourceId
  sessionId : BoundedId e.sessionId
  sequence : 1 ≤ e.sequence
  timestampMs : 0 ≤ e.timestampMs
  correlationId : forall s, e.correlationId = some s -> BoundedCorrelation s

/-- The members of a document from which the envelope is built. -/
structure Holds (document : Members) (e : WireEnvelope) : Prop where
  protocol : member? document "protocol" = some (.str (points protocolVersion))
  messageType : member? document "message_type" = some (.str (points e.messageType.value))
  stream : streamMember document = .str (points e.stream.value)
  messageId : member? document "message_id" = some (.str e.messageId)
  sourceId : member? document "source_id" = some (.str e.sourceId)
  sessionId : member? document "session_id" = some (.str e.sessionId)
  sequence : member? document "sequence" = some (.int e.sequence)
  timestampMs : member? document "timestamp_ms" = some (.int e.timestampMs)
  payload : member? document "payload" = some (.obj e.payload)
  correlationId : (member? document "correlation_id").getD .null = nullable e.correlationId

theorem isText_iff {text : String} {value : Value} :
    isText text value = true <-> value = .str (points text) := by
  cases value <;> simp [isText]

theorem missing_isEmpty_iff {document : Members} :
    (missing document).isEmpty = true <->
      forall name, name ∈ required -> (member? document name).isSome = true := by
  unfold missing
  rw [List.isEmpty_iff, List.filter_eq_nil_iff]
  apply forall₂_congr
  intro name _
  cases member? document name <;> simp

theorem identifier_eq_ok {document : Members} {name : String} {s : Points} :
    identifier document name = .ok s <->
      member? document name = some (.str s) ∧ BoundedId s := by
  unfold identifier
  rw [bind_eq_ok]
  simp only [member_eq_ok]
  constructor
  · rintro ⟨value, hvalue, h⟩
    cases value with
    | str t =>
        obtain ⟨_, hempty, h⟩ := bind_eq_ok.mp h
        obtain ⟨length, hlength, h⟩ := bind_eq_ok.mp h
        obtain ⟨_, hbound, h⟩ := bind_eq_ok.mp h
        cases h
        unfold byteLength at hlength
        split_ifs at hlength with hsurrogate
        cases hlength
        refine ⟨hvalue, ?_, Bool.eq_false_iff.mpr hsurrogate, ?_⟩
        · exact List.isEmpty_eq_false_iff.mp (refuse_eq_ok.mp hempty)
        · exact Nat.not_lt.mp (of_decide_eq_false (refuse_eq_ok.mp hbound))
    | _ => cases h
  · rintro ⟨hvalue, hne, hsurrogate, hbound⟩
    refine ⟨.str s, hvalue, ?_⟩
    apply bind_eq_ok.mpr
    refine ⟨(), refuse_eq_ok.mpr (List.isEmpty_eq_false_iff.mpr hne), bind_eq_ok.mpr ?_⟩
    refine ⟨(encodeUtf8 s).length, byteLength_of_plain hsurrogate, bind_eq_ok.mpr ?_⟩
    exact ⟨(), refuse_eq_ok.mpr (decide_eq_false (Nat.not_lt.mpr hbound)), rfl⟩

theorem correlation_eq_ok {document : Members} {correlationId : Option Points} :
    correlation document = .ok correlationId <->
      (member? document "correlation_id").getD .null = nullable correlationId ∧
        forall s, correlationId = some s -> BoundedCorrelation s := by
  unfold correlation
  cases hmember : member? document "correlation_id" with
  | none =>
      cases correlationId <;> simp [nullable]
  | some value =>
      cases value with
      | null => cases correlationId <;> simp [nullable]
      | str t =>
          simp only [bind_eq_ok, refuse_eq_ok, decide_eq_false_iff_not, Nat.not_lt,
            Except.ok.injEq, exists_const, Option.getD_some]
          constructor
          · rintro ⟨length, hlength, hbound, rfl⟩
            unfold byteLength at hlength
            split_ifs at hlength with hsurrogate
            cases hlength
            refine ⟨rfl, ?_⟩
            rintro s ⟨⟩
            exact ⟨Bool.eq_false_iff.mpr hsurrogate, hbound⟩
          · rintro ⟨hsame, hbounded⟩
            cases correlationId with
            | none => cases hsame
            | some s =>
                cases hsame
                obtain ⟨hsurrogate, hbound⟩ := hbounded t rfl
                exact ⟨_, byteLength_of_plain hsurrogate, hbound, rfl⟩
      | _ => cases correlationId <;> simp [nullable]

theorem find_messageType (messageType : MessageType) :
    messageTypes.find? (fun other => isText other.value (.str (points messageType.value))) =
      some messageType := by
  cases messageType <;> decide

theorem find_stream (stream : Stream) :
    streams.find? (fun other => isText other.value (.str (points stream.value))) =
      some stream := by
  cases stream <;> decide

theorem route_eq_ok {document : Members} {messageType : MessageType} {stream : Stream} :
    route document = .ok (messageType, stream) <->
      (missing document).isEmpty = true ∧
        member? document "protocol" = some (.str (points protocolVersion)) ∧
        member? document "message_type" = some (.str (points messageType.value)) ∧
        streamMember document = .str (points stream.value) ∧
        (stream = .safety -> messageType = .state) := by
  unfold route
  constructor
  · intro h
    obtain ⟨_, hmissing, h⟩ := bind_eq_ok.mp h
    obtain ⟨protocol, hprotocol, h⟩ := bind_eq_ok.mp h
    obtain ⟨_, hversion, h⟩ := bind_eq_ok.mp h
    obtain ⟨found, hfound, h⟩ := bind_eq_ok.mp h
    obtain ⟨target, htarget, h⟩ := bind_eq_ok.mp h
    obtain ⟨_, hrule, h⟩ := bind_eq_ok.mp h
    cases h
    obtain ⟨element, helement, hknown⟩ := bind_eq_ok.mp hfound
    obtain ⟨value, hvalue, helement⟩ := bind_eq_ok.mp helement
    have htype := List.find?_some (elementOf_eq_ok.mp (bind_eq_ok.mpr ⟨_, helement, hknown⟩))
    have hstream := List.find?_some (elementOf_eq_ok.mp htarget)
    rw [refuse_eq_ok, Bool.not_eq_false'] at hmissing hversion
    rw [refuse_eq_ok, Bool.and_eq_false_iff, decide_eq_false_iff_not, decide_eq_false_iff_not,
      not_not] at hrule
    refine ⟨hmissing, ?_, ?_, isText_iff.mp hstream, fun hsafety => ?_⟩
    · rw [member_eq_ok.mp hprotocol, isText_iff.mp hversion]
    · rw [member_eq_ok.mp hvalue, isText_iff.mp htype]
    · exact hrule.resolve_left (not_not.mpr hsafety)
  · rintro ⟨hmissing, hprotocol, htype, hstream, hrule⟩
    apply bind_eq_ok.mpr
    refine ⟨(), refuse_eq_ok.mpr (by rw [hmissing]; rfl), bind_eq_ok.mpr ?_⟩
    refine ⟨_, member_eq_ok.mpr hprotocol, bind_eq_ok.mpr ?_⟩
    refine ⟨(), refuse_eq_ok.mpr (by rw [isText_iff.mpr rfl]; rfl), bind_eq_ok.mpr ?_⟩
    have hfound : (member document "message_type" >>=
        elementOf MessageType.value messageTypes >>= known "unknown message type") =
          .ok messageType := by
      rw [member_eq_ok.mpr htype, ok_bind]
      exact elementOf_eq_ok.mpr (find_messageType messageType)
    refine ⟨messageType, hfound, bind_eq_ok.mpr ?_⟩
    refine ⟨stream, ?_, bind_eq_ok.mpr ⟨(), refuse_eq_ok.mpr ?_, rfl⟩⟩
    · rw [hstream]
      exact elementOf_eq_ok.mpr (find_stream stream)
    · rw [Bool.and_eq_false_iff, decide_eq_false_iff_not, decide_eq_false_iff_not, not_not]
      by_cases hsafety : stream = .safety
      · exact Or.inr (hrule hsafety)
      · exact Or.inl hsafety

theorem decodeMembers_eq_ok {document : Members} {e : WireEnvelope} :
    decodeMembers document = .ok e <-> Holds document e ∧ e.Checked := by
  constructor
  · intro h
    obtain ⟨⟨messageType, stream⟩, hroute, h⟩ := bind_eq_ok.mp h
    obtain ⟨messageId, hmessageId, h⟩ := bind_eq_ok.mp h
    obtain ⟨sourceId, hsourceId, h⟩ := bind_eq_ok.mp h
    obtain ⟨sessionId, hsessionId, h⟩ := bind_eq_ok.mp h
    obtain ⟨⟨sequence, timestampMs, payload⟩, hcontent, h⟩ := bind_eq_ok.mp h
    obtain ⟨correlationId, hcorrelation, h⟩ := bind_eq_ok.mp h
    cases h
    obtain ⟨_, hprotocol, htype, hstream, hrule⟩ := route_eq_ok.mp hroute
    obtain ⟨hmessageId, hmessageBound⟩ := identifier_eq_ok.mp hmessageId
    obtain ⟨hsourceId, hsourceBound⟩ := identifier_eq_ok.mp hsourceId
    obtain ⟨hsessionId, hsessionBound⟩ := identifier_eq_ok.mp hsessionId
    obtain ⟨⟨hsequence, hfirst⟩, ⟨htimestamp, hsecond⟩, hpayload⟩ := content_eq_ok.mp hcontent
    obtain ⟨hcorrelation, hbounded⟩ := correlation_eq_ok.mp hcorrelation
    exact ⟨⟨hprotocol, htype, hstream, hmessageId, hsourceId, hsessionId, hsequence, htimestamp,
      hpayload, hcorrelation⟩, ⟨hrule, hmessageBound, hsourceBound, hsessionBound, hfirst, hsecond,
      hbounded⟩⟩
  · rintro ⟨hholds, hchecked⟩
    have hmissing : (missing document).isEmpty = true := by
      rw [missing_isEmpty_iff]
      simp [required, hholds.protocol, hholds.messageType, hholds.messageId, hholds.sourceId,
        hholds.sessionId, hholds.sequence, hholds.timestampMs, hholds.payload]
    apply bind_eq_ok.mpr
    refine ⟨(e.messageType, e.stream), route_eq_ok.mpr
      ⟨hmissing, hholds.protocol, hholds.messageType, hholds.stream, hchecked.stream⟩,
      bind_eq_ok.mpr ?_⟩
    refine ⟨_, identifier_eq_ok.mpr ⟨hholds.messageId, hchecked.messageId⟩, bind_eq_ok.mpr ?_⟩
    refine ⟨_, identifier_eq_ok.mpr ⟨hholds.sourceId, hchecked.sourceId⟩, bind_eq_ok.mpr ?_⟩
    refine ⟨_, identifier_eq_ok.mpr ⟨hholds.sessionId, hchecked.sessionId⟩, bind_eq_ok.mpr ?_⟩
    refine ⟨(e.sequence, e.timestampMs, e.payload), content_eq_ok.mpr
      ⟨⟨hholds.sequence, hchecked.sequence⟩, ⟨hholds.timestampMs, hchecked.timestampMs⟩,
        hholds.payload⟩, bind_eq_ok.mpr ?_⟩
    exact ⟨_, correlation_eq_ok.mpr ⟨hholds.correlationId, hchecked.correlationId⟩, rfl⟩

theorem dictionary_bind_eq_ok {text : String} {value : Value}
    {f : Members -> Except DecodeError result} {r : result} :
    (dictionary text value >>= f) = .ok r <-> exists document, value = .obj document ∧
      f document = .ok r := by
  simp only [bind_eq_ok, dictionary_eq_ok]

theorem decodeEnvelope_eq_ok {loads : List UInt8 -> Except LoadsError Value}
    {encoded : List UInt8} {e : WireEnvelope} :
    decodeEnvelope loads encoded = .ok e <->
      (encoded ≠ [] ∧ encoded.length ≤ maxMessageBytes) ∧ exists document,
        loads encoded = .ok (.obj document) ∧ Holds document e ∧ e.Checked := by
  unfold decodeEnvelope
  rw [bind_eq_ok]
  simp only [refuse_eq_ok, Bool.or_eq_false_iff, decide_eq_false_iff_not, Nat.not_lt,
    List.isEmpty_eq_false_iff, exists_const]
  apply and_congr_right
  intro _
  cases hloads : loads encoded with
  | error error => simp
  | ok value =>
      dsimp only
      rw [dictionary_bind_eq_ok]
      simp only [decodeMembers_eq_ok, Except.ok.injEq]

theorem loads_eq_ok {library : FloatLibrary} {wide : Encoding -> List Nat -> Option Points}
    {encoded : List UInt8} {value : Value} :
    loads library wide encoded = .ok value <-> exists text,
      decodeBytes wide (encoded.map UInt8.toNat) = some text ∧
        valueOf library.read text = some value := by
  unfold loads
  cases decodeBytes wide (encoded.map UInt8.toNat) with
  | none => simp
  | some text =>
      cases hvalue : valueOf library.read text <;> simp [hvalue]

end Ump.Wire
