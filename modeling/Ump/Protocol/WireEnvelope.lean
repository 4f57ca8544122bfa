import Ump.Codec.Trees
import Ump.Protocol.Envelope

/-!
# Decoding the bytes of an envelope

## The decoder

`decode_envelope` takes any bytes that a peer has sent. The value that `json.loads` makes of
them may have a member of any type in any place, and strings with surrogates. The codec is a
parameter here, which raises one of the two exceptions that the decoder expects of it.
-/

namespace Ump.Wire

open Codec

/-- What `json.loads` raises. -/
inductive LoadsError where
  | unicodeDecode
  | jsonDecode
deriving DecidableEq, Repr

/-- What `decode_envelope` raises: `ProtocolDecodeError`, or an exception of an expression
that it evaluates. -/
inductive DecodeError where
  | protocol (text : String)
  | typeError
  | keyError (name : String)
  | unicodeEncode
deriving DecidableEq, Repr

abbrev Members := List (Points × Value)

structure WireEnvelope where
  messageId : Points
  messageType : MessageType
  sourceId : Points
  sessionId : Points
  sequence : Int
  timestampMs : Int
  payload : Members
  correlationId : Option Points
  stream : Stream

def points (text : String) : Points :=
  ofText text.toList

def refuse (condition : Bool) (text : String) : Except DecodeError Unit :=
  if condition then .error (.protocol text) else .ok ()

/-- `document.get(name)`. -/
def member? (document : Members) (name : String) : Option Value :=
  document.lookup (points name)

/-- `document[name]`. -/
def member (document : Members) (name : String) : Except DecodeError Value :=
  match member? document name with
  | some value => .ok value
  | none => .error (.keyError name)

def required : List String :=
  ["message_id", "message_type", "payload", "protocol", "sequence", "session_id", "source_id",
    "timestamp_ms"]

/-- `sorted(required - document.keys())`. -/
def missing (document : Members) : List String :=
  required.filter (fun name => (member? document name).isNone)

/-- `repr` of a list of names. -/
def listRepr (names : List String) : String :=
  "[" ++ ", ".intercalate (names.map (fun name => "'" ++ name ++ "'")) ++ "]"

/-!
### Members of the frozen sets
-/

def isText (text : String) : Value -> Bool
  | .str s => s == points text
  | _ => false

/-- Lists and dictionaries have no hash. -/
def hashable : Value -> Bool
  | .arr _ => false
  | .obj _ => false
  | _ => true

/-- The element of a frozen set of strings that the value equals. -/
def elementOf (valueOf : element -> String) (elements : List element) (value : Value) :
    Except DecodeError (Option element) :=
  if hashable value then
    .ok (elements.find? (fun element => isText (valueOf element) value))
  else
    .error .typeError

def messageTypes : List MessageType :=
  [.manifest, .state, .goal, .plan, .assignment, .assignmentAck, .assignmentQuery,
    .assignmentSnapshot, .cancellationRequest, .cancellationAck, .outcome]

def streams : List Stream :=
  [.operational, .safety]

/-- `if value not in ...: raise ProtocolDecodeError(...)`. -/
def known (text : String) : Option element -> Except DecodeError element
  | some element => .ok element
  | none => .error (.protocol text)

/-- `document.get("stream", OPERATIONAL_STREAM)`. -/
def streamMember (document : Members) : Value :=
  (member? document "stream").getD (.str (points Stream.operational.value))

/-!
### Identifiers and numbers
-/

def isSurrogate : CodePoint -> Bool
  | .surrogate _ => true
  | .char _ => false

/-- `len(value.encode())`. -/
def byteLength (s : Points) : Except DecodeError Nat :=
  if s.any isSurrogate then .error .unicodeEncode else .ok (encodeUtf8 s).length

def identifier (document : Members) (fieldName : String) : Except DecodeError Points := do
  let value <- member document fieldName
  match value with
  | .str s => do
      refuse s.isEmpty ("invalid " ++ fieldName)
      let length <- byteLength s
      refuse (decide (128 < length)) ("invalid " ++ fieldName)
      .ok s
  | _ => .error (.protocol ("invalid " ++ fieldName))

/-- `type(value) is not int or value < minimum`. -/
def integer (minimum : Int) (text : String) : Value -> Except DecodeError Int
  | .int n => do
      refuse (decide (n < minimum)) text
      .ok n
  | _ => .error (.protocol text)

def dictionary (text : String) : Value -> Except DecodeError Members
  | .obj fields => .ok fields
  | _ => .error (.protocol text)

def correlation (document : Members) : Except DecodeError (Option Points) :=
  match member? document "correlation_id" with
  | none => .ok none
  | some .null => .ok none
  | some (.str s) => do
      let length <- byteLength s
      refuse (decide (128 < length)) "invalid correlation_id"
      .ok (some s)
  | some _ => .error (.protocol "invalid correlation_id")

/-!
### `decode_envelope`
-/

def route (document : Members) : Except DecodeError (MessageType × Stream) := do
  refuse (!(missing document).isEmpty)
    ("envelope is missing fields: " ++ listRepr (missing document))
  let protocol <- member document "protocol"
  refuse (!isText protocolVersion protocol) "unsupported protocol version"
  let messageType <- member document "message_type" >>=
    elementOf MessageType.value messageTypes >>= known "unknown message type"
  let stream <- elementOf Stream.value streams (streamMember document) >>=
    known "unknown envelope stream"
  refuse (decide (stream = .safety) && decide (messageType ≠ .state))
    "safety stream carries state messages only"
  .ok (messageType, stream)

def content (document : Members) : Except DecodeError (Int × Int × Members) := do
  let sequenceValue <- member document "sequence"
  let timestampValue <- member document "timestamp_ms"
  let sequence <- integer 1 "sequence must be a positive integer" sequenceValue
  let timestampMs <- integer 0 "timestamp_ms must be a non-negative integer" timestampValue
  let payload <- member document "payload" >>= dictionary "payload must be an object"
  .ok (sequence, timestampMs, payload)

def decodeMembers (document : Members) : Except DecodeError WireEnvelope := do
  let (messageType, stream) <- route document
  let messageId <- identifier document "message_id"
  let sourceId <- identifier document "source_id"
  let sessionId <- identifier document "session_id"
  let (sequence, timestampMs, payload) <- content document
  let correlationId <- correlation document
  .ok
    { messageId := messageId
      messageType := messageType
      sourceId := sourceId
      sessionId := sessionId
      sequence := sequence
      timestampMs := timestampMs
      payload := payload
      correlationId := correlationId
      stream := stream }

def decodeEnvelope (loads : List UInt8 -> Except LoadsError Value) (encoded : List UInt8) :
    Except DecodeError WireEnvelope := do
  refuse (encoded.isEmpty || decide (maxMessageBytes < encoded.length))
    "encoded envelope size is invalid"
  match loads encoded with
  | .error _ => .error (.protocol "encoded envelope is not valid UTF-8 JSON")
  | .ok value => do
      let document <- dictionary "envelope must be a JSON object" value
      decodeMembers document

/-!
## Ordinary results
-/

/-- A result, or `ProtocolDecodeError`. -/
def Ordinary : Except DecodeError value -> Prop
  | .ok _ => True
  | .error (.protocol _) => True
  | .error _ => False

theorem ordinary_bind {x : Except DecodeError value} {f : value -> Except DecodeError result} :
    Ordinary (x >>= f) <-> Ordinary x ∧ forall v, x = .ok v -> Ordinary (f v) := by
  cases x with
  | ok v => simp [bind, Except.bind, Ordinary]
  | error e => cases e <;> simp [bind, Except.bind, Ordinary]

theorem refuse_eq_ok {condition : Bool} {text : String} {v : Unit} :
    refuse condition text = .ok v <-> condition = false := by
  cases condition with
  | true => simp [refuse]
  | false => simp [refuse]

theorem ordinary_refuse_bind {condition : Bool} {text : String}
    {f : Unit -> Except DecodeError result} :
    Ordinary (refuse condition text >>= f) <-> (condition = false -> Ordinary (f ())) := by
  cases condition <;> simp [refuse, bind, Except.bind, Ordinary]

theorem ordinary_bind_of {x : Except DecodeError value} {f : value -> Except DecodeError result}
    {P : Prop} (h : forall v, x = .ok v -> (Ordinary (f v) <-> P)) :
    Ordinary (x >>= f) <-> Ordinary x ∧ (x.isOk = true -> P) := by
  rw [ordinary_bind]
  apply and_congr_right
  intro _
  cases x with
  | ok v => simp [Except.isOk, Except.toBool, h v rfl]
  | error e => simp [Except.isOk, Except.toBool]

/-!
### The conditions on a document
-/

def encodable : Value -> Bool
  | .str s => !s.any isSurrogate
  | _ => true

/-- All required members are there, and the version is supported. -/
def opened (document : Members) : Bool :=
  (missing document).isEmpty && (member? document "protocol").any (isText protocolVersion)

def messageType? (document : Members) : Option MessageType :=
  (member? document "message_type").bind (fun value =>
    messageTypes.find? (fun messageType => isText messageType.value value))

def stream? (document : Members) : Option Stream :=
  streams.find? (fun stream => isText stream.value (streamMember document))

def typed (document : Members) : Bool :=
  opened document && (messageType? document).isSome

/-- The stream is known too, and it carries the message type. -/
def routed (document : Members) : Bool :=
  typed document && (stream? document).isSome &&
    !(decide (stream? document = some .safety) && decide (messageType? document ≠ some .state))

def validId (document : Members) (name : String) : Bool :=
  match member? document name with
  | some (.str s) =>
      !s.isEmpty && !s.any isSurrogate && decide ((encodeUtf8 s).length ≤ 128)
  | _ => false

def atLeast (minimum : Int) (document : Members) (name : String) : Bool :=
  match member? document name with
  | some (.int n) => decide (minimum ≤ n)
  | _ => false

def isDictionary (document : Members) (name : String) : Bool :=
  match member? document name with
  | some (.obj _) => true
  | _ => false

/-- Each value that an expression of the decoder hashes or encodes can be hashed or encoded,
as far as the decoder comes with the document. -/
structure Tame (document : Members) : Prop where
  messageType : opened document = true -> (member? document "message_type").all hashable = true
  stream : typed document = true -> hashable (streamMember document) = true
  messageId : routed document = true -> (member? document "message_id").all encodable = true
  sourceId : routed document = true -> validId document "message_id" = true ->
    (member? document "source_id").all encodable = true
  sessionId : routed document = true -> validId document "message_id" = true ->
    validId document "source_id" = true -> (member? document "session_id").all encodable = true
  correlationId : routed document = true -> validId document "message_id" = true ->
    validId document "source_id" = true -> validId document "session_id" = true ->
    atLeast 1 document "sequence" = true -> atLeast 0 document "timestamp_ms" = true ->
    isDictionary document "payload" = true ->
    (member? document "correlation_id").all encodable = true

/-!
### The steps of the decoder
-/

theorem member_of_required {document : Members} (h : (missing document).isEmpty = true)
    {name : String} (hname : name ∈ required) :
    exists value, member? document name = some value ∧ member document name = .ok value := by
  unfold member
  cases hmember : member? document name with
  | some value => exact ⟨value, rfl, rfl⟩
  | none =>
      have hmissing : name ∈ missing document :=
        List.mem_filter.mpr ⟨hname, by rw [hmember]; rfl⟩
      rw [List.isEmpty_iff.mp h] at hmissing
      cases hmissing

theorem missing_of_routed {document : Members} (h : routed document = true) :
    (missing document).isEmpty = true := by
  simp only [routed, typed, opened, Bool.and_eq_true] at h
  exact h.1.1.1.1

theorem hashable_of_find {valueOf : element -> String} {elements : List element} {value : Value}
    {found : element}
    (h : elements.find? (fun element => isText (valueOf element) value) = some found) :
    hashable value = true := by
  have htext := List.find?_some h
  cases value with
  | str s => rfl
  | _ => cases htext

theorem ordinary_elementOf {valueOf : element -> String} {elements : List element}
    {value : Value} {text : String} :
    Ordinary (elementOf valueOf elements value >>= known text) <-> hashable value = true := by
  unfold elementOf
  cases hashable value with
  | true =>
      cases elements.find? (fun element => isText (valueOf element) value) <;>
        simp [bind, Except.bind, known, Ordinary]
  | false => simp [bind, Except.bind, Ordinary]

theorem elementOf_eq_ok {valueOf : element -> String} {elements : List element} {value : Value}
    {text : String} {found : element} :
    (elementOf valueOf elements value >>= known text) = .ok found <->
      elements.find? (fun element => isText (valueOf element) value) = some found := by
  cases hfound : elements.find? (fun element => isText (valueOf element) value) with
  | some other =>
      unfold elementOf
      rw [hashable_of_find hfound, hfound]
      simp [bind, Except.bind, known]
  | none =>
      unfold elementOf
      cases hashable value <;> simp [bind, Except.bind, known, hfound]

theorem ok_bind (v : value) (f : value -> Except DecodeError result) :
    ((.ok v : Except DecodeError value) >>= f) = f v := rfl

theorem isOk_elementOf {valueOf : element -> String} {elements : List element}
    {value : Value} {text : String} :
    (elementOf valueOf elements value >>= known text).isOk =
      (elements.find? (fun element => isText (valueOf element) value)).isSome := by
  rw [Bool.eq_iff_iff, Option.isSome_iff_exists]
  constructor
  · intro h
    cases hresult : elementOf valueOf elements value >>= known text with
    | ok found => exact ⟨found, elementOf_eq_ok.mp hresult⟩
    | error e =>
        rw [hresult] at h
        cases h
  · rintro ⟨found, hfound⟩
    rw [elementOf_eq_ok.mpr hfound]
    rfl

theorem header_of_required {document : Members} (h : (missing document).isEmpty = true) :
    exists protocol value, member document "protocol" = .ok protocol ∧
      member document "message_type" = .ok value ∧
      member? document "message_type" = some value ∧
      opened document = isText protocolVersion protocol ∧
      messageType? document =
        messageTypes.find? (fun messageType => isText messageType.value value) := by
  rcases member_of_required h (by decide : "protocol" ∈ required) with
    ⟨protocol, hprotocol?, hprotocol⟩
  rcases member_of_required h (by decide : "message_type" ∈ required) with
    ⟨value, hvalue?, hvalue⟩
  refine ⟨protocol, value, hprotocol, hvalue, hvalue?, ?_, ?_⟩
  · simp [opened, h, hprotocol?]
  · simp [messageType?, hvalue?]

theorem ordinary_route (document : Members) :
    Ordinary (route document) <->
      (opened document = true -> (member? document "message_type").all hashable = true) ∧
        (typed document = true -> hashable (streamMember document) = true) := by
  unfold route typed
  rw [ordinary_refuse_bind, Bool.not_eq_false']
  cases hmissing : (missing document).isEmpty with
  | false => simp [opened, hmissing]
  | true =>
      rcases header_of_required hmissing with
        ⟨protocol, value, hprotocol, hvalue, hvalue?, hopened, htype⟩
      have hstream : forall messageType : MessageType,
          Ordinary (elementOf Stream.value streams (streamMember document) >>=
            known "unknown envelope stream" >>= fun stream =>
              refuse (decide (stream = .safety) && decide (messageType ≠ .state))
                "safety stream carries state messages only" >>= fun _ =>
                  .ok (messageType, stream)) <->
            hashable (streamMember document) = true := by
        intro messageType
        rw [ordinary_bind, ordinary_elementOf]
        apply and_iff_left_of_imp
        intro _ stream _
        exact ordinary_refuse_bind.mpr (fun _ => trivial)
      rw [hprotocol, hvalue, ok_bind, ok_bind, ordinary_refuse_bind, Bool.not_eq_false',
        ordinary_bind_of (fun messageType _ => hstream messageType), ordinary_elementOf,
        isOk_elementOf, hvalue?, Option.all_some, hopened, htype]
      simp only [Bool.and_eq_true]
      tauto

theorem isOk_bind {x : Except DecodeError value} {f : value -> Except DecodeError result} :
    (x >>= f).isOk = true <-> exists v, x = .ok v ∧ (f v).isOk = true := by
  cases x with
  | ok v => simp [bind, Except.bind]
  | error e => simp [bind, Except.bind, Except.isOk, Except.toBool]

theorem isOk_route (document : Members) : (route document).isOk = routed document := by
  unfold route
  cases hmissing : (missing document).isEmpty with
  | false =>
      simp only [routed, typed, opened, hmissing, Bool.false_and]
      rfl
  | true =>
      rcases header_of_required hmissing with
        ⟨protocol, value, hprotocol, hvalue, _, hopened, htype⟩
      rw [hprotocol, hvalue, ok_bind, ok_bind, Bool.eq_iff_iff]
      unfold routed typed
      rw [hopened, htype]
      simp only [isOk_bind, refuse_eq_ok, elementOf_eq_ok]
      cases isText protocolVersion protocol with
      | false => simp
      | true =>
          cases messageTypes.find? (fun messageType => isText messageType.value value) with
          | none => simp
          | some messageType =>
              have hstream : stream? document = streams.find?
                (fun stream => isText stream.value (streamMember document)) := rfl
              rw [hstream]
              cases streams.find? (fun stream => isText stream.value (streamMember document)) with
              | none => simp
              | some stream => simp [Except.isOk, Except.toBool, imp_iff_not_or]

theorem byteLength_of_surrogate {s : Points} (h : s.any isSurrogate = true) :
    byteLength s = .error .unicodeEncode :=
  if_pos h

theorem byteLength_of_plain {s : Points} (h : s.any isSurrogate = false) :
    byteLength s = .ok (encodeUtf8 s).length := by
  unfold byteLength
  rw [h]
  rfl

theorem ordinary_bounded {s : Points} {text : String} {v : value} :
    Ordinary (byteLength s >>= fun length =>
      refuse (decide (128 < length)) text >>= fun _ => .ok v) <->
      encodable (.str s) = true := by
  have hencodable : encodable (.str s) = !s.any isSurrogate := rfl
  rw [hencodable]
  cases hsurrogate : s.any isSurrogate with
  | true =>
      rw [byteLength_of_surrogate hsurrogate]
      exact ⟨fun h => h.elim, fun h => by cases h⟩
  | false =>
      rw [byteLength_of_plain hsurrogate]
      simp only [bind, Except.bind]
      by_cases hlong : 128 < (encodeUtf8 s).length <;> simp [refuse, Ordinary, hlong]

theorem ordinary_identifier {document : Members} {name : String} {value : Value}
    (hvalue : member? document name = some value) :
    Ordinary (identifier document name) <->
      (member? document name).all encodable = true := by
  unfold identifier member
  rw [hvalue]
  simp only [bind, Except.bind, Option.all_some]
  cases value with
  | str s =>
      cases s with
      | nil => simp [refuse, Ordinary, encodable]
      | cons first rest =>
          exact ordinary_bounded
  | _ => simp [Ordinary, encodable]

theorem isOk_identifier (document : Members) (name : String) :
    (identifier document name).isOk = validId document name := by
  unfold identifier validId member
  cases member? document name with
  | none => rfl
  | some value =>
      cases value with
      | str s =>
          cases s with
          | nil => rfl
          | cons first rest =>
              simp only [bind, Except.bind]
              cases hsurrogate : (first :: rest).any isSurrogate with
              | true =>
                  rw [byteLength_of_surrogate hsurrogate]
                  rfl
              | false =>
                  rw [byteLength_of_plain hsurrogate]
                  by_cases hlong : 128 < (encodeUtf8 (first :: rest)).length
                  · simp [refuse, Except.isOk, Except.toBool, hlong]
                  · simp [refuse, Except.isOk, Except.toBool, hlong, Nat.not_lt.mp hlong]
      | _ => rfl

theorem bind_eq_ok {x : Except DecodeError value} {f : value -> Except DecodeError result}
    {r : result} : (x >>= f) = .ok r <-> exists v, x = .ok v ∧ f v = .ok r := by
  cases x with
  | ok v => simp [bind, Except.bind]
  | error e => simp [bind, Except.bind]

theorem member_eq_ok {document : Members} {name : String} {value : Value} :
    member document name = .ok value <-> member? document name = some value := by
  unfold member
  cases member? document name <;> simp

theorem integer_eq_ok {minimum n : Int} {text : String} {value : Value} :
    integer minimum text value = .ok n <-> value = .int n ∧ minimum ≤ n := by
  cases value with
  | int m =>
      unfold integer
      rw [bind_eq_ok]
      simp only [refuse_eq_ok, decide_eq_false_iff_not, Int.not_lt, Except.ok.injEq,
        Value.int.injEq, exists_const]
      constructor
      · rintro ⟨hlow, rfl⟩
        exact ⟨rfl, hlow⟩
      · rintro ⟨rfl, hlow⟩
        exact ⟨hlow, rfl⟩
  | _ => simp [integer]

theorem ordinary_integer (minimum : Int) (text : String) (value : Value) :
    Ordinary (integer minimum text value) := by
  cases value with
  | int n => exact ordinary_refuse_bind.mpr (fun _ => trivial)
  | _ => exact trivial

theorem dictionary_eq_ok {text : String} {value : Value} {fields : Members} :
    dictionary text value = .ok fields <-> value = .obj fields := by
  cases value <;> simp [dictionary]

theorem ordinary_dictionary (text : String) (value : Value) :
    Ordinary (dictionary text value) := by
  cases value <;> exact trivial

theorem atLeast_iff {minimum : Int} {document : Members} {name : String} :
    atLeast minimum document name = true <->
      exists n, member? document name = some (.int n) ∧ minimum ≤ n := by
  unfold atLeast
  cases member? document name with
  | none => simp
  | some value => cases value <;> simp

theorem isDictionary_iff {document : Members} {name : String} :
    isDictionary document name = true <->
      exists fields, member? document name = some (.obj fields) := by
  unfold isDictionary
  cases member? document name with
  | none => simp
  | some value => cases value <;> simp

theorem ordinary_correlation (document : Members) :
    Ordinary (correlation document) <->
      (member? document "correlation_id").all encodable = true := by
  unfold correlation
  cases member? document "correlation_id" with
  | none => simp [Ordinary]
  | some value =>
      cases value with
      | str s => exact ordinary_bounded
      | _ => simp [Ordinary, encodable]

theorem ordinary_content {document : Members} (h : (missing document).isEmpty = true) :
    Ordinary (content document) := by
  rcases member_of_required h (by decide : "sequence" ∈ required) with
    ⟨sequenceValue, _, hsequence⟩
  rcases member_of_required h (by decide : "timestamp_ms" ∈ required) with
    ⟨timestampValue, _, htimestamp⟩
  rcases member_of_required h (by decide : "payload" ∈ required) with ⟨payload, _, hpayload⟩
  unfold content
  rw [hsequence, htimestamp, hpayload, ok_bind, ok_bind, ok_bind, ordinary_bind]
  refine ⟨ordinary_integer _ _ _, ?_⟩
  intro sequence _
  rw [ordinary_bind]
  refine ⟨ordinary_integer _ _ _, ?_⟩
  intro timestampMs _
  rw [ordinary_bind]
  exact ⟨ordinary_dictionary _ _, fun _ _ => trivial⟩

theorem content_eq_ok {document payload : Members} {sequence timestampMs : Int} :
    content document = .ok (sequence, timestampMs, payload) <->
      (member? document "sequence" = some (.int sequence) ∧ 1 ≤ sequence) ∧
        (member? document "timestamp_ms" = some (.int timestampMs) ∧ 0 ≤ timestampMs) ∧
        member? document "payload" = some (.obj payload) := by
  unfold content
  simp only [bind_eq_ok, member_eq_ok, integer_eq_ok, dictionary_eq_ok, Except.ok.injEq,
    Prod.mk.injEq]
  constructor
  · rintro ⟨_, hsequence, _, htimestamp, _, ⟨rfl, hfirst⟩, _, ⟨rfl, hsecond⟩, _,
      ⟨_, hpayload, rfl⟩, rfl, rfl, rfl⟩
    exact ⟨⟨hsequence, hfirst⟩, ⟨htimestamp, hsecond⟩, hpayload⟩
  · rintro ⟨⟨hsequence, hfirst⟩, ⟨htimestamp, hsecond⟩, hpayload⟩
    exact ⟨_, hsequence, _, htimestamp, sequence, ⟨rfl, hfirst⟩, timestampMs, ⟨rfl, hsecond⟩,
      payload, ⟨_, hpayload, rfl⟩, rfl, rfl, rfl⟩

theorem isOk_content (document : Members) :
    (content document).isOk = (atLeast 1 document "sequence" &&
      atLeast 0 document "timestamp_ms" && isDictionary document "payload") := by
  rw [Bool.eq_iff_iff, Bool.and_eq_true, Bool.and_eq_true, atLeast_iff, atLeast_iff,
    isDictionary_iff]
  constructor
  · intro h
    cases hcontent : content document with
    | ok result =>
        rcases result with ⟨sequence, timestampMs, payload⟩
        rcases content_eq_ok.mp hcontent with ⟨hsequence, htimestamp, hpayload⟩
        exact ⟨⟨⟨sequence, hsequence⟩, timestampMs, htimestamp⟩, payload, hpayload⟩
    | error e =>
        rw [hcontent] at h
        cases h
  · rintro ⟨⟨⟨sequence, hsequence⟩, timestampMs, htimestamp⟩, payload, hpayload⟩
    rw [content_eq_ok.mpr ⟨hsequence, htimestamp, hpayload⟩]
    rfl

theorem ordinary_steps (document : Members) :
    Ordinary (decodeMembers document) <->
      Ordinary (route document) ∧ (routed document = true ->
      Ordinary (identifier document "message_id") ∧ (validId document "message_id" = true ->
      Ordinary (identifier document "source_id") ∧ (validId document "source_id" = true ->
      Ordinary (identifier document "session_id") ∧ (validId document "session_id" = true ->
      Ordinary (content document) ∧ ((content document).isOk = true ->
      Ordinary (correlation document)))))) := by
  rw [← isOk_route, ← isOk_identifier, ← isOk_identifier, ← isOk_identifier]
  unfold decodeMembers
  apply ordinary_bind_of
  rintro ⟨messageType, stream⟩ _
  apply ordinary_bind_of
  intro messageId _
  apply ordinary_bind_of
  intro sourceId _
  apply ordinary_bind_of
  intro sessionId _
  apply ordinary_bind_of
  rintro ⟨sequence, timestampMs, payload⟩ _
  rw [ordinary_bind]
  exact and_iff_left (fun _ _ => trivial)

theorem ordinary_decodeMembers (document : Members) :
    Ordinary (decodeMembers document) <-> Tame document := by
  have hidentifier : routed document = true -> forall name, name ∈ required ->
      (Ordinary (identifier document name) <->
        (member? document name).all encodable = true) := by
    intro hrouted name hname
    rcases member_of_required (missing_of_routed hrouted) hname with ⟨value, hvalue, _⟩
    exact ordinary_identifier hvalue
  rw [ordinary_steps, ordinary_route, ordinary_correlation, isOk_content]
  constructor
  · rintro ⟨⟨htype, hstream⟩, hrest⟩
    refine ⟨htype, hstream, ?_, ?_, ?_, ?_⟩
    · intro hrouted
      exact (hidentifier hrouted _ (by decide)).mp (hrest hrouted).1
    · intro hrouted hmessage
      exact (hidentifier hrouted _ (by decide)).mp ((hrest hrouted).2 hmessage).1
    · intro hrouted hmessage hsource
      exact (hidentifier hrouted _ (by decide)).mp
        (((hrest hrouted).2 hmessage).2 hsource).1
    · intro hrouted hmessage hsource hsession hsequence htimestamp hpayload
      apply ((((hrest hrouted).2 hmessage).2 hsource).2 hsession).2
      rw [hsequence, htimestamp, hpayload]
      rfl
  · intro h
    refine ⟨⟨h.messageType, h.stream⟩, ?_⟩
    intro hrouted
    refine ⟨(hidentifier hrouted _ (by decide)).mpr (h.messageId hrouted), ?_⟩
    intro hmessage
    refine ⟨(hidentifier hrouted _ (by decide)).mpr (h.sourceId hrouted hmessage), ?_⟩
    intro hsource
    refine ⟨(hidentifier hrouted _ (by decide)).mpr (h.sessionId hrouted hmessage hsource), ?_⟩
    intro hsession
    refine ⟨ordinary_content (missing_of_routed hrouted), ?_⟩
    intro hcontent
    rw [Bool.and_eq_true, Bool.and_eq_true] at hcontent
    exact h.correlationId hrouted hmessage hsource hsession hcontent.1.1 hcontent.1.2 hcontent.2

/-- For all bytes, and whatever the codec makes of them: an envelope or `ProtocolDecodeError`
comes out exactly when a dictionary of admissible size is tame. -/
theorem decoding_is_total (loads : List UInt8 -> Except LoadsError Value)
    (encoded : List UInt8) :
    Ordinary (decodeEnvelope loads encoded) <->
      (encoded ≠ [] -> encoded.length ≤ maxMessageBytes -> forall document,
        loads encoded = .ok (.obj document) -> Tame document) := by
  unfold decodeEnvelope
  rw [ordinary_refuse_bind, Bool.or_eq_false_iff, decide_eq_false_iff_not, Nat.not_lt,
    List.isEmpty_eq_false_iff]
  constructor
  · intro h hnonempty hsize document hloads
    have hmembers := h ⟨hnonempty, hsize⟩
    rw [hloads] at hmembers
    exact (ordinary_decodeMembers document).mp hmembers
  · rintro h ⟨hnonempty, hsize⟩
    cases hloads : loads encoded with
    | error e => exact trivial
    | ok value =>
        cases value with
        | obj document =>
            exact (ordinary_decodeMembers document).mpr (h hnonempty hsize document hloads)
        | _ => exact trivial

/-- A text with the given message type and message id, and the document that it denotes. -/
structure Sample where
  text : String
  document : Members

def sample (typeText idText : String) (messageType messageId : Value) : Sample where
  text := "\x7b\"protocol\":\"ump/0.1\",\"message_id\":" ++ idText ++ ",\"message_type\":" ++
    typeText ++ ",\"source_id\":\"r1\",\"session_id\":\"s\",\"sequence\":1," ++
    "\"timestamp_ms\":0,\"payload\":\x7b\x7d\x7d"
  document := [(points "protocol", .str (points protocolVersion)),
    (points "message_id", messageId), (points "message_type", messageType),
    (points "source_id", .str (points "r1")), (points "session_id", .str (points "s")),
    (points "sequence", .int 1), (points "timestamp_ms", .int 0), (points "payload", .obj [])]

def asciiBytes (text : String) : List UInt8 :=
  text.toList.map (fun c => UInt8.ofNat c.toNat)

def knows (s : Sample) (encoded : List UInt8) : Except LoadsError Value :=
  if encoded = asciiBytes s.text then .ok (.obj s.document) else .error .jsonDecode

def failure? : Except DecodeError value -> Option DecodeError
  | .ok _ => none
  | .error e => some e

def listSample : Sample :=
  sample "[]" "\"m\"" (.arr []) (.str (points "m"))

def surrogateSample : Sample :=
  sample "\"state\"" "\"\\ud800\"" (.str (points "state")) (.str [.surrogate 0])

theorem not_ordinary {x : Except DecodeError value}
    (h : failure? x = some .typeError ∨ failure? x = some .unicodeEncode) : ¬ Ordinary x := by
  intro hordinary
  cases x with
  | ok v => rcases h with h | h <;> cases h
  | error e =>
      rcases h with h | h
      · cases h
        exact hordinary
      · cases h
        exact hordinary

/-- A list has no hash and a surrogate has no bytes, so neither is rejected as the decoder
rejects other values. -/
theorem list_and_surrogate_escape :
    ¬ Ordinary (decodeEnvelope (knows listSample) (asciiBytes listSample.text)) ∧
      ¬ Ordinary (decodeEnvelope (knows surrogateSample) (asciiBytes surrogateSample.text)) :=
  ⟨not_ordinary (Or.inl (by decide +kernel)), not_ordinary (Or.inr (by decide +kernel))⟩

end Ump.Wire
