import Ump.Protocol.WireEncoding

/-!
# The envelope codec

## Bytes

The bytes that the encoder writes are canonical, and no other accepted bytes are written again.
-/

namespace Ump.Wire

open Codec

theorem lt_of_mem_utf8 {n b : Nat} (h : n < 0x110000) (hb : b ∈ utf8 n) : b < 256 := by
  unfold utf8 at hb
  split_ifs at hb
  all_goals
    simp only [List.mem_cons, List.not_mem_nil, or_false] at hb
    omega

theorem toNat_textBytes (text : Points) :
    ((encodeUtf8 text).map UInt8.ofNat).map UInt8.toNat = encodeUtf8 text := by
  rw [List.map_map]
  refine (List.map_congr_left ?_).trans (List.map_id _)
  intro b hb
  obtain ⟨p, _, hmem⟩ := List.mem_flatMap.mp hb
  have hlt := lt_of_mem_utf8 p.code_lt hmem
  exact UInt8.toNat_ofNat_of_lt hlt

theorem ofNat_toNat (encoded : List UInt8) :
    (encoded.map UInt8.toNat).map UInt8.ofNat = encoded := by
  rw [List.map_map]
  exact (List.map_congr_left fun b _ => UInt8.ofNat_toNat).trans (List.map_id _)

theorem textBytes_eq_some {text : Points} {encoded : List UInt8} :
    textBytes text = some encoded <->
      text.any isSurrogate = false ∧ encoded.map UInt8.toNat = encodeUtf8 text := by
  unfold textBytes
  split_ifs with hsurrogate
  · simp [hsurrogate]
  · rw [Option.some.injEq]
    constructor
    · rintro rfl
      exact ⟨Bool.eq_false_iff.mpr hsurrogate, toNat_textBytes text⟩
    · rintro ⟨_, hbytes⟩
      rw [<- hbytes, ofNat_toNat]

theorem print_object_head {members : List Member} (hne : members ≠ [])
    (hblank : forall member, member ∈ members -> member.1 = []) :
    exists rest, (Tree.object [] members).print = .char '\x7b' :: .char '"' :: rest := by
  cases members with
  | nil => exact absurd rfl hne
  | cons member others =>
      rcases member with ⟨before, name, left, right, tree, after⟩
      obtain rfl : before = [] := hblank _ List.mem_cons_self
      rw [Tree.print, printMembers, commaSeparated]
      exact ⟨_, rfl⟩

theorem decodeBytes_object (wide : Encoding -> List Nat -> Option Points) (rest : Points) :
    decodeBytes wide (encodeUtf8 (.char '\x7b' :: .char '"' :: rest)) =
      some (.char '\x7b' :: .char '"' :: rest) := by
  have hhead : encodeUtf8 (.char '\x7b' :: .char '"' :: rest) = 0x7B :: 0x22 :: encodeUtf8 rest :=
    rfl
  unfold decodeBytes
  rw [hhead, detectEncoding_object, <- hhead]
  exact decodeUtf8_encodeUtf8 _

/-!
## Canonical bytes
-/

def knownNames : List String :=
  required ++ ["correlation_id", "stream"]

def isNamed (name : String) (member : Member) : Bool :=
  decide (textOf member.2.1 = points name)

def isOperational : Tree -> Bool
  | .string pieces => decide (textOf pieces = points Stream.operational.value)
  | _ => false

/-- `correlation_id` is there, no member is unknown, and the operational stream is implicit. -/
def membersExplicit (members : List Member) : Bool :=
  members.any (isNamed "correlation_id") &&
    members.all (fun member => knownNames.any (fun name => isNamed name member)) &&
    members.all (fun member => !(isNamed "stream" member && isOperational member.2.2.2.2.1))

/-- UTF-8 without surrogates of one object, each of whose nodes keeps the rule. -/
def canonicalBytes (rule : Tree -> Bool) (encoded : List UInt8) : Bool :=
  match decodeUtf8 (encoded.map UInt8.toNat) with
  | none => false
  | some text =>
      !text.any isSurrogate &&
        match readText text with
        | some ([], .object blank members, []) =>
            everywhere rule (.object blank members) && membersExplicit members
        | _ => false

theorem canonicalBytes_iff {rule : Tree -> Bool} {encoded : List UInt8} :
    canonicalBytes rule encoded = true <-> exists blank members,
      everywhere wellFormedHere (.object blank members) = true ∧
        textBytes (Tree.object blank members).print = some encoded ∧
        everywhere rule (.object blank members) = true ∧ membersExplicit members = true := by
  constructor
  · intro h
    unfold canonicalBytes at h
    split at h
    case h_1 => cases h
    case h_2 text htext =>
        rw [Bool.and_eq_true, Bool.not_eq_true'] at h
        obtain ⟨hsurrogate, h⟩ := h
        split at h
        case h_1 blank members hread =>
            rw [Bool.and_eq_true] at h
            obtain ⟨hprint, hwell⟩ := text_of_readText hread
            have hsame : text = (Tree.object blank members).print := by
              rw [hprint]
              simp [ofText]
            subst hsame
            exact ⟨blank, members, hwell, textBytes_eq_some.mpr
              ⟨hsurrogate, (encodeUtf8_of_decodeUtf8 htext).symm⟩, h⟩
        case h_2 => cases h
  · rintro ⟨blank, members, hwell, hbytes, hrule, hexplicit⟩
    obtain ⟨hsurrogate, hencoded⟩ := textBytes_eq_some.mp hbytes
    unfold canonicalBytes
    rw [hencoded, decodeUtf8_encodeUtf8]
    dsimp only
    rw [hsurrogate, readText_print hwell]
    dsimp only
    rw [hrule, hexplicit]
    rfl

/-!
## Explicit members
-/

/-- What is asked of a document beside the form of its text. -/
structure Explicit (document : Members) : Prop where
  correlation : (member? document "correlation_id").isSome = true
  known : forall field, field ∈ document -> exists name, name ∈ knownNames ∧ field.1 = points name
  stream : forall field, field ∈ document -> field.1 = points "stream" ->
    field.2 ≠ .str (points Stream.operational.value)

theorem isSome_member? {document : Members} {name : String} :
    (member? document name).isSome = true <->
      exists field, field ∈ document ∧ field.1 = points name := by
  unfold member?
  rw [List.lookup_isSome_iff]
  apply exists_congr
  intro field
  rw [beq_iff_eq, eq_comm]

theorem isOperational_iff {floats : Floats} {tree : Tree} {value : Value}
    (h : tree.value floats = some value) :
    isOperational tree = true <-> value = .str (points Stream.operational.value) := by
  cases tree with
  | string pieces =>
      cases h
      simp [isOperational]
  | word w => cases w <;> (cases h; simp [isOperational, Word.value])
  | number literal =>
      have hne : value ≠ .str (points Stream.operational.value) := by
        rintro rfl
        rw [Tree.value, numberValue] at h
        split_ifs at h with hfloat hfits
        · cases hread : floats literal with
          | finite value digits =>
              rw [hread] at h
              cases h
          | infinite negative =>
              rw [hread] at h
              cases h
        · cases h
      simp [isOperational, hne]
  | array blank items =>
      rw [Tree.value] at h
      obtain ⟨values, _, rfl⟩ := Option.map_eq_some_iff.mp h
      simp [isOperational]
  | object blank members =>
      rw [Tree.value] at h
      obtain ⟨pairs, _, rfl⟩ := Option.map_eq_some_iff.mp h
      simp [isOperational]

theorem membersExplicit_iff {floats : Floats} {members : List Member} {document : Members}
    (h : memberValues floats members = some document) :
    membersExplicit members = true <-> Explicit document := by
  have hpairs := memberValues_eq_some.mp h
  unfold membersExplicit isNamed
  simp only [Bool.and_eq_true, List.any_eq_true, List.all_eq_true, decide_eq_true_eq,
    Bool.not_eq_true', Bool.and_eq_false_iff, decide_eq_false_iff_not]
  constructor
  · rintro ⟨⟨⟨member, hmember, hname⟩, hknown⟩, hstream⟩
    refine ⟨isSome_member?.mpr ?_, ?_, ?_⟩
    · obtain ⟨field, hfield, hkey, _⟩ := exists_right_of_mem hpairs hmember
      exact ⟨field, hfield, hkey.trans hname⟩
    · intro field hfield
      obtain ⟨member, hmember, hkey, _⟩ := exists_left_of_mem hpairs hfield
      obtain ⟨name, hname, hsame⟩ := hknown member hmember
      exact ⟨name, hname, hkey.trans hsame⟩
    · intro field hfield hname hvalue
      obtain ⟨member, hmember, hkey, htree⟩ := exists_left_of_mem hpairs hfield
      rcases hstream member hmember with hother | hother
      · exact hother (hkey.symm.trans hname)
      · rw [(isOperational_iff htree).mpr hvalue] at hother
        cases hother
  · intro hexplicit
    refine ⟨⟨?_, ?_⟩, ?_⟩
    · obtain ⟨field, hfield, hname⟩ := isSome_member?.mp hexplicit.correlation
      obtain ⟨member, hmember, hkey, _⟩ := exists_left_of_mem hpairs hfield
      exact ⟨member, hmember, hkey.symm.trans hname⟩
    · intro member hmember
      obtain ⟨field, hfield, hkey, _⟩ := exists_right_of_mem hpairs hmember
      obtain ⟨name, hname, hsame⟩ := hexplicit.known field hfield
      exact ⟨name, hname, hkey.symm.trans hsame⟩
    · intro member hmember
      obtain ⟨field, hfield, hkey, htree⟩ := exists_right_of_mem hpairs hmember
      by_cases hname : textOf member.2.1 = points "stream"
      · refine Or.inr (Bool.eq_false_iff.mpr fun hoperational => ?_)
        exact hexplicit.stream field hfield (hkey.trans hname)
          ((isOperational_iff htree).mp hoperational)
      · exact Or.inl hname

/-!
## The members that are encoded
-/

theorem points_injective {a b : String} (h : points a = points b) : a = b := by
  unfold points ofText at h
  exact String.toList_inj.mp (List.map_injective_iff.mpr (fun _ _ hc => CodePoint.char.inj hc) h)

def writtenNames : List String :=
  ["protocol", "message_id", "message_type", "source_id", "session_id", "sequence",
    "timestamp_ms", "correlation_id", "payload"]

theorem names_fields (d : Draft) :
    d.fields.map Prod.fst = (writtenNames ++
      if d.stream = points Stream.operational.value then [] else ["stream"]).map points := by
  unfold Draft.fields
  split_ifs with hstream
  · rfl
  · rfl

theorem nodup_names (d : Draft) : (d.fields.map Prod.fst).Nodup := by
  rw [names_fields]
  refine List.Nodup.map (fun _ _ => points_injective) ?_
  split_ifs with hstream
  · decide
  · decide

theorem stream?_fields (d : Draft) :
    member? d.fields "stream" =
      if d.stream = points Stream.operational.value then none else some (.str d.stream) := by
  unfold Draft.fields
  split_ifs with hstream
  · rfl
  · rfl

theorem streamMember_fields {d : Draft} :
    streamMember d.fields = .str d.stream := by
  unfold streamMember
  rw [stream?_fields]
  split_ifs with hstream
  · rw [hstream]
    rfl
  · rfl

theorem holds_fields (e : WireEnvelope) : Holds e.draft.fields e where
  protocol := rfl
  messageType := rfl
  stream := streamMember_fields
  messageId := rfl
  sourceId := rfl
  sessionId := rfl
  sequence := rfl
  timestampMs := rfl
  payload := rfl
  correlationId := rfl

theorem explicit_fields (d : Draft) : Explicit d.fields where
  correlation := rfl
  known := by
    intro field hfield
    have hname := List.mem_map_of_mem (f := Prod.fst) hfield
    rw [names_fields] at hname
    obtain ⟨name, hmem, heq⟩ := List.mem_map.mp hname
    refine ⟨name, ?_, heq.symm⟩
    have hall : forall written, written ∈ writtenNames -> written ∈ knownNames := by decide
    rcases List.mem_append.mp hmem with hwritten | hstream
    · exact hall name hwritten
    · split_ifs at hstream
      · cases hstream
      · cases List.mem_singleton.mp hstream
        decide
  stream := by
    rintro ⟨name, value⟩ hfield hname hvalue
    dsimp only at hname hvalue
    subst hname hvalue
    have hstream := stream?_fields d
    rw [member?, (Foundation.lookup_eq_some_iff (nodup_names d)).mpr hfield] at hstream
    split_ifs at hstream with hoperational
    exact hoperational (Value.str.inj (Option.some.inj hstream)).symm

/-!
## Documents of one envelope
-/

theorem stream_of_explicit {document : Members} (h : Explicit document) {value : Value}
    (hvalue : member? document "stream" = some value) :
    value ≠ .str (points Stream.operational.value) :=
  h.stream _ (Foundation.mem_of_lookup hvalue) rfl

theorem stream?_eq_of_explicit {document other : Members} (h : Explicit document)
    (hother : Explicit other) (hsame : streamMember document = streamMember other) :
    member? document "stream" = member? other "stream" := by
  unfold streamMember at hsame
  cases hfirst : member? document "stream" with
  | none =>
      cases hsecond : member? other "stream" with
      | none => rfl
      | some value =>
          rw [hfirst, hsecond] at hsame
          exact absurd hsame.symm (stream_of_explicit hother hsecond)
  | some value =>
      rw [hfirst] at hsame
      cases hsecond : member? other "stream" with
      | none =>
          rw [hsecond] at hsame
          exact absurd hsame (stream_of_explicit h hfirst)
      | some second =>
          rw [hsecond] at hsame
          exact congrArg some hsame

theorem correlation?_eq_of_explicit {document other : Members} (h : Explicit document)
    (hother : Explicit other)
    (hsame : (member? document "correlation_id").getD .null =
      (member? other "correlation_id").getD .null) :
    member? document "correlation_id" = member? other "correlation_id" := by
  obtain ⟨first, hfirst⟩ := Option.isSome_iff_exists.mp h.correlation
  obtain ⟨second, hsecond⟩ := Option.isSome_iff_exists.mp hother.correlation
  rw [hfirst, hsecond] at hsame ⊢
  exact congrArg some hsame

theorem lookup_eq_of_holds {document other : Members} {e : WireEnvelope}
    (h : Holds document e) (hother : Holds other e) (hexplicit : Explicit document)
    (hexplicit' : Explicit other) (name : Points) :
    document.lookup name = other.lookup name := by
  have hnone : forall d : Members, Explicit d -> name ∉ knownNames.map points ->
      d.lookup name = none := by
    intro d hd hunknown
    apply List.lookup_eq_none_iff.mpr
    intro field hfield
    obtain ⟨known, hknown, hsame⟩ := hd.known field hfield
    apply bne_iff_ne.mpr
    rintro rfl
    exact hunknown (List.mem_map.mpr ⟨known, hknown, hsame.symm⟩)
  by_cases hknown : name ∈ knownNames.map points
  · obtain ⟨text, htext, rfl⟩ := List.mem_map.mp hknown
    show member? document text = member? other text
    simp only [knownNames, required, List.cons_append, List.nil_append, List.mem_cons,
      List.not_mem_nil, or_false] at htext
    rcases htext with rfl | rfl | rfl | rfl | rfl | rfl | rfl | rfl | rfl | rfl
    · rw [h.messageId, hother.messageId]
    · rw [h.messageType, hother.messageType]
    · rw [h.payload, hother.payload]
    · rw [h.protocol, hother.protocol]
    · rw [h.sequence, hother.sequence]
    · rw [h.sessionId, hother.sessionId]
    · rw [h.sourceId, hother.sourceId]
    · rw [h.timestampMs, hother.timestampMs]
    · exact correlation?_eq_of_explicit hexplicit hexplicit'
        (h.correlationId.trans hother.correlationId.symm)
    · exact stream?_eq_of_explicit hexplicit hexplicit' (h.stream.trans hother.stream.symm)
  · rw [hnone document hexplicit hknown, hnone other hexplicit' hknown]

/-!
## What is encoded
-/

theorem known_stream (stream : Stream) :
    streams.any (fun other => decide (points stream.value = points other.value)) = true := by
  cases stream <;> decide

theorem bytes_eq_some {value : Value} {encoded : List UInt8} :
    (dumps value).bind textBytes = some encoded <->
      everywhere intFits value.tree = true ∧ textBytes value.tree.print = some encoded := by
  unfold dumps
  split_ifs with hfits
  · rw [Option.bind_some]
    simp [hfits]
  · simp [hfits]

theorem encodeEnvelope_eq_ok {d : Draft} {encoded : List UInt8} :
    encodeEnvelope d = .ok encoded <->
      streams.any (fun stream => decide (d.stream = points stream.value)) = true ∧
        (d.stream = points Stream.safety.value ->
          d.messageType = points MessageType.state.value) ∧
        (dumps (.obj d.fields)).bind textBytes = some encoded ∧
        encoded.length ≤ maxMessageBytes := by
  unfold encodeEnvelope
  simp only [bind_eq_ok, refuse_eq_ok, exists_const, Bool.not_eq_false', Bool.and_eq_false_iff,
    decide_eq_false_iff_not, not_not, <- imp_iff_not_or]
  apply and_congr_right
  intro _
  apply and_congr_right
  intro _
  cases hbytes : (dumps (.obj d.fields)).bind textBytes with
  | none => simp
  | some bytes =>
      simp only [bind_eq_ok, refuse_eq_ok, exists_const, decide_eq_false_iff_not, Nat.not_lt,
        Except.ok.injEq, Option.some.injEq]
      constructor
      · rintro ⟨hsize, rfl⟩
        exact ⟨rfl, hsize⟩
      · rintro ⟨rfl, hsize⟩
        exact ⟨hsize, rfl⟩

theorem encodeEnvelope_draft {e : WireEnvelope} (h : e.Checked) {encoded : List UInt8} :
    encodeEnvelope e.draft = .ok encoded <->
      (dumps (.obj e.draft.fields)).bind textBytes = some encoded ∧
        encoded.length ≤ maxMessageBytes := by
  rw [encodeEnvelope_eq_ok]
  have hstate : e.draft.stream = points Stream.safety.value ->
      e.draft.messageType = points MessageType.state.value := by
    intro hsafety
    have hstream : e.stream = .safety := by
      cases hs : e.stream with
      | safety => rfl
      | operational =>
          have hpoints : points e.stream.value = points Stream.safety.value := hsafety
          rw [hs] at hpoints
          exact absurd (points_injective hpoints) (by decide)
    show points e.messageType.value = points MessageType.state.value
    rw [h.stream hstream]
  have hknown : streams.any (fun stream => decide (e.draft.stream = points stream.value)) = true :=
    known_stream e.stream
  rw [and_iff_right hknown, and_iff_right hstate]

theorem proper_fields {library : FloatLibrary} {d : Draft}
    (h : (Value.obj d.payload).Proper library) : (Value.obj d.fields).Proper library := by
  refine ⟨nodup_names d, properFields_iff.mpr ?_⟩
  have hnull : (nullable d.correlationId).Proper library := by
    cases d.correlationId <;> trivial
  unfold Draft.fields
  simp only [List.cons_append, List.nil_append, List.forall_mem_cons]
  refine ⟨trivial, trivial, trivial, trivial, trivial, trivial, trivial, hnull, h, ?_⟩
  split_ifs
  · simp
  · simp [Value.Proper]

theorem fieldMembers_ne_nil (d : Draft) : fieldMembers d.fields ≠ [] := by
  have hmem : (points "protocol", Value.str d.protocol) ∈ d.fields := List.mem_cons_self
  exact List.ne_nil_of_mem (mem_fieldMembers.mpr ⟨_, hmem, rfl⟩)

theorem tree_fields (d : Draft) :
    (Value.obj d.fields).tree = .object [] (fieldMembers d.fields) :=
  tree_of_fields d.fields

theorem loads_print {library : FloatLibrary} {wide : Encoding -> List Nat -> Option Points}
    {members : List Member} {encoded : List UInt8} {value : Value} (hne : members ≠ [])
    (hblank : forall member, member ∈ members -> member.1 = [])
    (hwell : everywhere wellFormedHere (.object [] members) = true)
    (hbytes : textBytes (Tree.object [] members).print = some encoded) :
    loads library wide encoded = .ok value <->
      (Tree.object [] members).value library.read = some value := by
  obtain ⟨_, hencoded⟩ := textBytes_eq_some.mp hbytes
  obtain ⟨rest, hhead⟩ := print_object_head hne hblank
  have hdecoded : decodeBytes wide (encoded.map UInt8.toNat) =
      some (Tree.object [] members).print := by
    rw [hencoded, hhead]
    exact decodeBytes_object wide rest
  have hvalue : valueOf library.read (Tree.object [] members).print =
      (Tree.object [] members).value library.read := by
    unfold valueOf
    rw [readText_print hwell]
    rfl
  rw [loads_eq_ok, hdecoded, <- hvalue]
  constructor
  · rintro ⟨text, htext, h⟩
    cases htext
    exact h
  · intro h
    exact ⟨_, rfl, h⟩

/-!
## Decoding what is encoded
-/

/-- The envelope that comes back: the members of each dictionary of the payload are sorted. -/
def WireEnvelope.sorted (e : WireEnvelope) : WireEnvelope :=
  { e with payload := sortFields (sortedFields e.payload) }

theorem checked_sorted {e : WireEnvelope} (h : e.Checked) : e.sorted.Checked where
  stream := h.stream
  messageId := h.messageId
  sourceId := h.sourceId
  sessionId := h.sessionId
  sequence := h.sequence
  timestampMs := h.timestampMs
  correlationId := h.correlationId

theorem member?_sorted {document : Members} (h : (document.map Prod.fst).Nodup) (name : String) :
    member? (sortFields (sortedFields document)) name =
      (member? document name).map Value.sorted :=
  lookup_sorted h (points name)

theorem sorted_nullable (correlationId : Option Points) :
    (nullable correlationId).sorted = nullable correlationId := by
  cases correlationId <;> rfl

theorem holds_sorted {document : Members} {e : WireEnvelope}
    (hnames : (document.map Prod.fst).Nodup) (h : Holds document e) :
    Holds (sortFields (sortedFields document)) e.sorted where
  protocol := by rw [member?_sorted hnames, h.protocol]; rfl
  messageType := by rw [member?_sorted hnames, h.messageType]; rfl
  stream := by
    have hstream := h.stream
    unfold streamMember at hstream ⊢
    rw [member?_sorted hnames]
    cases hmember : member? document "stream" with
    | none =>
        rw [hmember] at hstream
        exact hstream
    | some value =>
        rw [hmember] at hstream
        exact congrArg Value.sorted hstream
  messageId := by rw [member?_sorted hnames, h.messageId]; rfl
  sourceId := by rw [member?_sorted hnames, h.sourceId]; rfl
  sessionId := by rw [member?_sorted hnames, h.sessionId]; rfl
  sequence := by rw [member?_sorted hnames, h.sequence]; rfl
  timestampMs := by rw [member?_sorted hnames, h.timestampMs]; rfl
  payload := by rw [member?_sorted hnames, h.payload]; rfl
  correlationId := by
    have hcorrelation := h.correlationId
    rw [member?_sorted hnames]
    cases hmember : member? document "correlation_id" with
    | none =>
        rw [hmember] at hcorrelation
        exact hcorrelation
    | some value =>
        rw [hmember] at hcorrelation
        exact (congrArg Value.sorted hcorrelation).trans (sorted_nullable _)

theorem decode_of_bytes {library : FloatLibrary}
    {wide : Encoding -> List Nat -> Option Points} {e : WireEnvelope} {encoded : List UInt8}
    (hchecked : e.Checked) (hproper : (Value.obj e.payload).Proper library)
    (h : (dumps (.obj e.draft.fields)).bind textBytes = some encoded)
    (hsize : encoded.length ≤ maxMessageBytes) :
    decodeEnvelope (loads library wide) encoded = .ok e.sorted := by
  obtain ⟨hfits, hbytes⟩ := bytes_eq_some.mp h
  have hfields : (Value.obj e.draft.fields).Proper library := proper_fields hproper
  have hvalue := value_tree hfields hfits
  have hwell := wellFormed_tree hfields
  rw [tree_fields] at hbytes hvalue hwell
  have hblank : forall member, member ∈ fieldMembers e.draft.fields -> member.1 = [] := by
    intro member hmember
    obtain ⟨field, _, rfl⟩ := mem_fieldMembers.mp hmember
    rfl
  have hne := fieldMembers_ne_nil e.draft
  apply decodeEnvelope_eq_ok.mpr
  refine ⟨⟨?_, hsize⟩, sortFields (sortedFields e.draft.fields), ?_, ?_, checked_sorted hchecked⟩
  · rintro rfl
    obtain ⟨rest, hhead⟩ := print_object_head hne hblank
    have hnil := (textBytes_eq_some.mp hbytes).2
    rw [hhead] at hnil
    cases hnil
  · exact (loads_print hne hblank hwell hbytes).mpr hvalue
  · exact holds_sorted (nodup_names _) (holds_fields e)

/-! ### `==` of envelopes -/

/-- `==` of envelopes compares their fields. -/
def Draft.equal (d other : Draft) : Bool :=
  decide (d.messageId = other.messageId) && decide (d.messageType = other.messageType) &&
    decide (d.sourceId = other.sourceId) && decide (d.sessionId = other.sessionId) &&
    decide (d.sequence = other.sequence) && decide (d.timestampMs = other.timestampMs) &&
    (Value.obj d.payload).equal (.obj other.payload) &&
    decide (d.correlationId = other.correlationId) && decide (d.protocol = other.protocol) &&
    decide (d.stream = other.stream)

theorem equal_draft_sorted {library : FloatLibrary} {e : WireEnvelope}
    (hproper : (Value.obj e.payload).Proper library)
    (hnumeric : (Value.obj e.payload).isNumeric = true) :
    e.sorted.draft.equal e.draft = true := by
  have hpayload := equal_sorted hproper hnumeric
  unfold Draft.equal WireEnvelope.draft WireEnvelope.sorted
  rw [Value.sorted] at hpayload
  simp [hpayload]

/-!
## Encoding what is decoded
-/

theorem explicit_sorted {document : Members} (h : Explicit document) :
    Explicit (sortFields (sortedFields document)) := by
  have hfield : forall field, field ∈ sortFields (sortedFields document) ->
      exists old, old ∈ document ∧ field = (old.1, old.2.sorted) := by
    intro field hmem
    rw [sortFields_sortedFields] at hmem
    obtain ⟨old, hold, rfl⟩ := List.mem_map.mp hmem
    exact ⟨old, (sortFields_perm document).mem_iff.mp hold, rfl⟩
  refine ⟨?_, ?_, ?_⟩
  · obtain ⟨old, hold, hname⟩ := isSome_member?.mp h.correlation
    refine isSome_member?.mpr ⟨(old.1, old.2.sorted), ?_, hname⟩
    rw [sortFields_sortedFields]
    exact List.mem_map.mpr ⟨old, (sortFields_perm document).mem_iff.mpr hold, rfl⟩
  · intro field hmem
    obtain ⟨old, hold, rfl⟩ := hfield field hmem
    exact h.known old hold
  · intro field hmem hname hvalue
    obtain ⟨old, hold, rfl⟩ := hfield field hmem
    apply h.stream old hold hname
    cases hold2 : old.2 with
    | str s =>
        dsimp only at hvalue
        rw [hold2] at hvalue
        exact hvalue
    | _ =>
        dsimp only at hvalue
        rw [hold2] at hvalue
        cases hvalue

theorem canonicalBytes_of_encode {library : FloatLibrary} {e : WireEnvelope}
    {encoded : List UInt8} (hchecked : e.Checked)
    (hproper : (Value.obj e.payload).Proper library)
    (h : encodeEnvelope e.draft = .ok encoded) :
    canonicalBytes (canonicalHere library.read) encoded = true := by
  obtain ⟨hfits, hbytes⟩ := bytes_eq_some.mp ((encodeEnvelope_draft hchecked).mp h).1
  have hfields : (Value.obj e.draft.fields).Proper library := proper_fields hproper
  have hwell := wellFormed_tree hfields
  have hcanonical := canonical_tree hfields hfits
  have hvalues : memberValues library.read (fieldMembers e.draft.fields) =
      some (sortFields (sortedFields e.draft.fields)) := by
    apply memberValues_fieldMembers
    intro field hfield
    apply value_tree (properFields_iff.mp hfields.2 field hfield)
    rw [tree_fields] at hfits
    exact (everywhere_object.mp hfits).2 _ (mem_fieldMembers.mpr ⟨field, hfield, rfl⟩)
  rw [tree_fields] at hbytes hwell hcanonical
  exact canonicalBytes_iff.mpr ⟨[], _, hwell, hbytes, hcanonical,
    (membersExplicit_iff hvalues).mpr (explicit_sorted (explicit_fields e.draft))⟩

theorem encode_of_canonicalBytes {library : FloatLibrary}
    {wide : Encoding -> List Nat -> Option Points} {e : WireEnvelope} {encoded : List UInt8}
    (h : decodeEnvelope (loads library wide) encoded = .ok e)
    (hcanonical : canonicalBytes (canonicalHere library.read) encoded = true) :
    encodeEnvelope e.draft = .ok encoded := by
  obtain ⟨⟨_, hsize⟩, document, hloads, hholds, hchecked⟩ := decodeEnvelope_eq_ok.mp h
  obtain ⟨blank, members, hwell, hbytes, hrule, hexplicit⟩ := canonicalBytes_iff.mp hcanonical
  obtain ⟨rfl, hnames, hmembers⟩ := canonical_object.mp hrule
  have hne : members ≠ [] := by
    rintro rfl
    cases hexplicit
  have hvalue := (loads_print hne (fun member hmem => (hmembers member hmem).1.1.1) hwell
    hbytes).mp hloads
  have hsame := tree_of_canonical hvalue hrule
  have hfits := intFits_of_value hvalue
  rw [Tree.value] at hvalue
  obtain ⟨pairs, hpairs, hdocument⟩ := Option.map_eq_some_iff.mp hvalue
  have hkeys := map_fst_of_memberValues hpairs
  have hnodup : (pairs.map Prod.fst).Nodup := by
    rw [hkeys]
    exact hnames.imp (fun hlt heq => absurd (heq ▸ hlt) (lt_irrefl _))
  rw [dictOf_of_nodup hnodup] at hdocument
  obtain rfl : pairs = document := Value.obj.inj hdocument
  have hperm : pairs.Perm e.draft.fields :=
    Foundation.perm_of_lookup hnodup (nodup_names _) (lookup_eq_of_holds hholds (holds_fields e)
      ((membersExplicit_iff hpairs).mp hexplicit) (explicit_fields e.draft))
  have htree : (Value.obj e.draft.fields).tree = .object [] members := by
    rw [tree_fields, <- fieldMembers_of_perm hperm hnodup, <- tree_of_fields, hsame]
  refine (encodeEnvelope_draft hchecked).mpr ⟨bytes_eq_some.mpr ?_, hsize⟩
  rw [htree]
  exact ⟨hfits, hbytes⟩

theorem proper_payload {library : FloatLibrary} {wide : Encoding -> List Nat -> Option Points}
    {e : WireEnvelope} {encoded : List UInt8}
    (h : decodeEnvelope (loads library wide) encoded = .ok e) :
    (Value.obj e.payload).Proper library := by
  obtain ⟨_, document, hloads, hholds, _⟩ := decodeEnvelope_eq_ok.mp h
  obtain ⟨text, _, hvalue⟩ := loads_eq_ok.mp hloads
  obtain ⟨⟨before, tree, after⟩, hread, htree⟩ := Option.bind_eq_some_iff.mp hvalue
  have hproper := proper_of_value (text_of_readText hread).2 htree
  exact properFields_iff.mp hproper.2 _ (Foundation.mem_of_lookup hholds.payload)

theorem encode_decode_iff {library : FloatLibrary}
    {wide : Encoding -> List Nat -> Option Points} {e : WireEnvelope} {encoded : List UInt8}
    (h : decodeEnvelope (loads library wide) encoded = .ok e) :
    encodeEnvelope e.draft = .ok encoded <->
      canonicalBytes (canonicalHere library.read) encoded = true := by
  obtain ⟨_, _, _, _, hchecked⟩ := decodeEnvelope_eq_ok.mp h
  exact ⟨canonicalBytes_of_encode hchecked (proper_payload h), encode_of_canonicalBytes h⟩

/-- The codec in both directions. -/
theorem envelope_codec (library : FloatLibrary) (wide : Encoding -> List Nat -> Option Points) :
    (forall (e : WireEnvelope) (encoded : List UInt8), e.Checked ->
        (Value.obj e.payload).Proper library -> (Value.obj e.payload).isNumeric = true ->
        (dumps (.obj e.draft.fields)).bind textBytes = some encoded ->
        encoded.length ≤ maxMessageBytes ->
        encodeEnvelope e.draft = .ok encoded ∧
          exists decoded, decodeEnvelope (loads library wide) encoded = .ok decoded ∧
            decoded.draft.equal e.draft = true) ∧
      (forall encoded e, decodeEnvelope (loads library wide) encoded = .ok e ->
        (encodeEnvelope e.draft = .ok encoded <->
          canonicalBytes (canonicalHere library.read) encoded = true)) ∧
      (forall encoded e, decodeEnvelope (loads library wide) encoded = .ok e ->
        e.stream = .safety -> e.messageType = .state) ∧
      forall d encoded, encodeEnvelope d = .ok encoded ->
        d.stream = points Stream.safety.value ->
          d.messageType = points MessageType.state.value := by
  refine ⟨?_, ?_, ?_, ?_⟩
  · intro e encoded hchecked hproper hnumeric hbytes hsize
    exact ⟨(encodeEnvelope_draft hchecked).mpr ⟨hbytes, hsize⟩, e.sorted,
      decode_of_bytes hchecked hproper hbytes hsize, equal_draft_sorted hproper hnumeric⟩
  · intro encoded e h
    exact encode_decode_iff h
  · intro encoded e h
    obtain ⟨_, _, _, _, hchecked⟩ := decodeEnvelope_eq_ok.mp h
    exact hchecked.stream
  · intro d encoded h
    exact (encodeEnvelope_eq_ok.mp h).2.1

/-! ### A state report -/

def halfLibrary : FloatLibrary where
  read literal := if literal = ['1', '.', '5'] then .finite (3 / 2) "1.5" else .infinite false
  reread := by
    intro literal value digits h
    split_ifs at h with hliteral
    cases h
    exact ⟨by decide, by decide, if_pos (by decide)⟩

def noWide : Encoding -> List Nat -> Option Points := fun _ _ => none

def reportWith (payload : Members) : WireEnvelope where
  messageId := points "m"
  messageType := .state
  sourceId := points "r"
  sessionId := points "s"
  sequence := 1
  timestampMs := 0
  payload := payload
  correlationId := none
  stream := .operational

theorem checked_reportWith (payload : Members) : (reportWith payload).Checked where
  stream := fun h => by cases h
  messageId := (⟨by decide, by decide, by decide⟩ : BoundedId (points "m"))
  sourceId := (⟨by decide, by decide, by decide⟩ : BoundedId (points "r"))
  sessionId := (⟨by decide, by decide, by decide⟩ : BoundedId (points "s"))
  sequence := le_refl (1 : Int)
  timestampMs := le_refl (0 : Int)
  correlationId := fun _ h => by cases h

def bytesOf (text : String) : List UInt8 :=
  (encodeUtf8 (points text)).map UInt8.ofNat

/-- The text of a report, with the text of its payload. -/
def reportText (payload : String) : String :=
  "\x7b\"correlation_id\":null,\"message_id\":\"m\",\"message_type\":\"state\",\"payload\":" ++
    payload ++ ",\"protocol\":\"ump/0.1\",\"sequence\":1,\"session_id\":\"s\"," ++
    "\"source_id\":\"r\",\"timestamp_ms\":0\x7d"

def speedAndFloor : Members :=
  [(points "speed", .float (3 / 2) "1.5"), (points "floor", .int 2)]

theorem bytes_speedAndFloor :
    (dumps (.obj (reportWith speedAndFloor).draft.fields)).bind textBytes =
      some (bytesOf (reportText "\x7b\"floor\":2,\"speed\":1.5\x7d")) :=
  bytes_eq_some.mpr ⟨by decide +kernel, by decide +kernel⟩

theorem proper_speedAndFloor : (Value.obj speedAndFloor).Proper halfLibrary := by
  refine ⟨by decide, ?_⟩
  exact ⟨⟨by decide, by decide, rfl⟩, trivial, trivial⟩

theorem speed_report_returns :
    encodeEnvelope (reportWith speedAndFloor).draft =
        .ok (bytesOf (reportText "\x7b\"floor\":2,\"speed\":1.5\x7d")) ∧
      exists decoded,
        decodeEnvelope (loads halfLibrary noWide)
            (bytesOf (reportText "\x7b\"floor\":2,\"speed\":1.5\x7d")) = .ok decoded ∧
          decoded.draft.equal (reportWith speedAndFloor).draft = true :=
  (envelope_codec halfLibrary noWide).1 _ _ (checked_reportWith speedAndFloor)
    proper_speedAndFloor rfl bytes_speedAndFloor (by decide +kernel)

/-- Only the spelling of a number is not the encoder's. -/
theorem negative_zero_rewritten :
    exists e,
      decodeEnvelope (loads halfLibrary noWide)
          (bytesOf (reportText "\x7b\"x\":-0\x7d")) = .ok e ∧
        canonicalBytes (fun tree => blanksEmpty tree && namesSorted tree && escapesNeeded tree)
          (bytesOf (reportText "\x7b\"x\":-0\x7d")) = true ∧
        encodeEnvelope e.draft ≠ .ok (bytesOf (reportText "\x7b\"x\":-0\x7d")) := by
  have hok : (decodeEnvelope (loads halfLibrary noWide)
      (bytesOf (reportText "\x7b\"x\":-0\x7d"))).isOk = true := by
    decide +kernel
  cases h : decodeEnvelope (loads halfLibrary noWide)
      (bytesOf (reportText "\x7b\"x\":-0\x7d")) with
  | error error =>
      rw [h] at hok
      cases hok
  | ok e =>
      refine ⟨e, rfl, by decide +kernel, fun hencoded => ?_⟩
      have hcanonical := (encode_decode_iff h).mp hencoded
      revert hcanonical
      decide +kernel

end Ump.Wire
