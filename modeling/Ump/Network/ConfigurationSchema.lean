import Mathlib.Data.List.TakeWhile
import Ump.Network.Configuration
import Ump.Protocol.Conformance

/-!
# The published configuration schema

## The schema

`network_config_data/v1/schema.json`, definition by definition.
-/

namespace Ump

namespace Schema

open Registry (isAsciiDigit)

/-- `/v[0-9]+$`; the end of the pattern also stands before a last line end. -/
def endsInVersion (text : String) : Bool :=
  let backwards :=
    match text.toList.reverse with
    | '\n' :: rest => rest
    | characters => characters
  !(backwards.takeWhile isAsciiDigit).isEmpty &&
    match backwards.dropWhile isAsciiDigit with
    | 'v' :: '/' :: _ => true
    | _ => false

def configPath : Schema := textSchema 4096

def configPin : Schema :=
  .allOf [typed [.string], .keyword (.pattern matchesDigest)]

def configMessageTypes : Schema :=
  .allOf [typed [.array], .keyword .uniqueItems,
    .items (enum ["manifest", "state", "goal", "plan", "assignment", "assignment_ack",
      "assignment_query", "assignment_snapshot", "cancellation_request", "cancellation_ack",
      "outcome"])]

def configCapability : Schema :=
  .allOf [typed [.string], .keyword (.minLength 4), .keyword (.maxLength 128),
    .keyword (.pattern endsInVersion)]

def configCapabilities : Schema :=
  .allOf [typed [.array], .keyword (.maxItems 256), .keyword .uniqueItems,
    .items configCapability]

def configPeer : Schema :=
  closedSchema ["robot_id", "host", "port"]
    [("robot_id", textSchema 128),
      ("host", textSchema 255),
      ("port", .allOf [typed [.integer], .keyword (.minimum 1), .keyword (.maximum 65535)]),
      ("certificate_sha256", configPin),
      ("allowed_message_types", configMessageTypes),
      ("allowed_capabilities", configCapabilities)]

def networkConfig : Schema :=
  closedSchema ["robot_id", "bind_host", "bind_port", "certificate_path", "private_key_path",
      "ca_path", "replay_database_path", "inbox_database_path", "outbox_database_path"]
    [("robot_id", textSchema 128),
      ("bind_host", textSchema 255),
      ("bind_port", .allOf [typed [.integer], .keyword (.minimum 0), .keyword (.maximum 65535)]),
      ("certificate_path", configPath),
      ("private_key_path", configPath),
      ("ca_path", configPath),
      ("replay_database_path", configPath),
      ("inbox_database_path", configPath),
      ("outbox_database_path", configPath),
      ("maximum_pending_deliveries", .allOf [typed [.integer], .keyword (.minimum 1),
        .keyword (.maximum 1000000)]),
      ("reserved_safety_deliveries", .allOf [typed [.integer], .keyword (.minimum 0)]),
      ("timeout", .allOf [typed [.number], .keyword (.fractionalMinimum Network.tenth),
        .keyword (.maximum 60)]),
      ("peers", .allOf [typed [.array], .keyword (.maxItems 1024), .items configPeer])]

end Schema

/-!
## Versions

The loader splits a name at its last `@` and asks for digits of any script behind it. The pattern
of the schema asks for ASCII digits at the end of the text. Read backwards, the two agree on a
name just if its version is written in ASCII digits.
-/

namespace Registry

theorem versionSplit_append {text before version : Text}
    (h : versionSplit text = some (before, version)) :
    text = before ++ '/' :: 'v' :: version := by
  induction text generalizing before with
  | nil => cases h
  | cons c rest ih =>
      unfold versionSplit at h
      split at h
      case h_1 inner innerVersion hinner =>
          cases h
          rw [ih hinner]
          rfl
      case h_2 hnone =>
          split at h
          · cases h
            rfl
          · cases h

theorem versionSplit_of_separator (before after : Text) :
    versionSplit (before ++ '/' :: 'v' :: after) ≠ none := by
  induction before with
  | nil =>
      rw [List.nil_append]
      unfold versionSplit
      split
      · simp
      · simp
  | cons c rest ih =>
      rw [List.cons_append]
      unfold versionSplit
      split
      · simp
      · contradiction

theorem versionSplit_last {text before version : Text}
    (h : versionSplit text = some (before, version)) : versionSplit version = none := by
  induction text generalizing before with
  | nil => cases h
  | cons c rest ih =>
      unfold versionSplit at h
      split at h
      case h_1 inner innerVersion hinner =>
          cases h
          exact ih hinner
      case h_2 hnone =>
          split at h
          case h_1 digits =>
              cases h
              unfold versionSplit at hnone
              split at hnone
              · cases hnone
              · assumption
          case h_2 => cases h

end Registry

namespace Network

open Registry (Fields member readAll versionSplit isVersioned isAsciiDigit)

def asciiVersion (name : String) : Bool :=
  match versionSplit name.toList with
  | some (_, version) => version.all isAsciiDigit
  | none => false

theorem isVersioned_eq_true {library : Registry.Library} {name : String}
    (h : isVersioned library name = true) :
    exists before version, versionSplit name.toList = some (before, version) ∧
      before ≠ [] ∧ version ≠ [] ∧ version.all library.isDigit = true := by
  unfold isVersioned at h
  split at h
  case h_1 before version hsplit =>
      simp only [Bool.and_eq_true, Bool.not_eq_true', List.isEmpty_eq_false_iff] at h
      exact ⟨before, version, hsplit, h.1.1, h.1.2, h.2⟩
  case h_2 => cases h

theorem no_separator_in_version {text before version read rest : Text}
    (hsplit : versionSplit text = some (before, version)) (h : version.reverse = read ++ rest)
    (tail : Text) : rest ≠ 'v' :: '/' :: tail := by
  rintro rfl
  have hwhole : version = tail.reverse ++ '/' :: 'v' :: read.reverse := by
    have hbackwards := congrArg List.reverse h
    simpa using hbackwards
  have hnone := Registry.versionSplit_last hsplit
  rw [hwhole] at hnone
  exact Registry.versionSplit_of_separator _ _ hnone

theorem dropWhile_version {version : Text} (h : version.all isAsciiDigit = false) :
    exists c rest, version.reverse.dropWhile isAsciiDigit = c :: rest := by
  apply List.exists_cons_of_ne_nil
  intro hnone
  rw [List.dropWhile_eq_nil_iff] at hnone
  have htrue : version.all isAsciiDigit = true :=
    List.all_eq_true.mpr fun c hc => hnone c (List.mem_reverse.mpr hc)
  rw [h] at htrue
  cases htrue

theorem newline_not_last {surroundings : Surroundings} {version : Text} {last : Char}
    {init : Text} (hdigits : version.all surroundings.isDigit = true)
    (hlast : version.reverse = last :: init) : last ≠ '\n' := by
  rintro rfl
  have hmem : '\n' ∈ version := List.mem_reverse.mp (hlast ▸ List.mem_cons_self)
  have hdigit := List.all_eq_true.mp hdigits _ hmem
  rw [surroundings.newline_no_digit] at hdigit
  cases hdigit

theorem endsInVersion_eq {surroundings : Surroundings} {name : String}
    (h : isVersioned surroundings.toLibrary name = true) :
    Schema.endsInVersion name = asciiVersion name := by
  obtain ⟨before, version, hsplit, _, hversion, hdigits⟩ := isVersioned_eq_true h
  have hreverse : name.toList.reverse = version.reverse ++ 'v' :: '/' :: before.reverse := by
    rw [Registry.versionSplit_append hsplit]
    simp
  obtain ⟨last, init, hlast⟩ : exists last init, version.reverse = last :: init :=
    List.exists_cons_of_ne_nil (by simpa using hversion)
  have hbackwards : (match name.toList.reverse with
      | '\n' :: rest => rest
      | characters => characters) = version.reverse ++ 'v' :: '/' :: before.reverse := by
    rw [hreverse, hlast, List.cons_append]
    split
    case h_1 heq => exact absurd (List.cons.inj heq).1 (newline_not_last hdigits hlast)
    case h_2 => rfl
  unfold Schema.endsInVersion asciiVersion
  rw [hsplit]
  dsimp only
  rw [hbackwards]
  cases hall : version.all isAsciiDigit with
  | true =>
      have hascii : forall c, c ∈ version.reverse -> isAsciiDigit c = true := fun c hc =>
        List.all_eq_true.mp hall c (List.mem_reverse.mp hc)
      rw [List.takeWhile_append_of_pos hascii, List.dropWhile_append_of_pos hascii,
        List.dropWhile_cons_of_neg (by decide), hlast]
      rfl
  | false =>
      -- the first other character, read backwards, begins no separator
      obtain ⟨c, rest, hdrop⟩ := dropWhile_version hall
      have hparts : version.reverse = version.reverse.takeWhile isAsciiDigit ++ c :: rest := by
        rw [<- hdrop, List.takeWhile_append_dropWhile]
      rw [List.dropWhile_append, hdrop, List.isEmpty_cons, if_neg Bool.false_ne_true,
        Bool.and_eq_false_iff]
      refine Or.inr ?_
      split
      case h_1 tail heq =>
          obtain ⟨rfl, hrest⟩ := List.cons.inj heq
          cases rest with
          | nil => cases hrest
          | cons slash others =>
              obtain ⟨rfl, _⟩ := List.cons.inj hrest
              exact absurd rfl (no_separator_in_version hsplit hparts others)
      case h_2 => rfl

/-!
## Checked values

Each check of the loader implies the schema of its field, as far as the two agree.
-/

theorem require_eq_ok {found : Option value} {text : String} {v : value}
    (h : require found text = .ok v) : found = some v := by
  unfold require at h
  cases found with
  | some w =>
      cases h
      rfl
  | none => cases h

theorem boundedText_valid {maximum : Nat} {data : Json} {s : String}
    (h : boundedText maximum data = some s) :
    (Schema.textSchema maximum).valid data = true := by
  unfold boundedText at h
  split at h
  case h_1 text =>
      split_ifs at h with hbad
      have hchecked : requiredText text "text" maximum = .ok () := if_neg hbad
      exact Schema.valid_text hchecked (Nat.le_refl maximum)
  case h_2 => cases h

theorem boundedInt_eq_some {low high n : Int} {data : Json}
    (h : boundedInt low high data = some n) : data = .int n ∧ low ≤ n ∧ n ≤ high := by
  unfold boundedInt at h
  split at h
  case h_1 m =>
      split_ifs at h with hbounds
      cases h
      exact ⟨rfl, hbounds⟩
  case h_2 => cases h

theorem boundedInt_valid {low high n : Int} {data : Json}
    (h : boundedInt low high data = some n) :
    (Schema.allOf [Schema.typed [.integer], .keyword (.minimum low),
      .keyword (.maximum high)]).valid data = true := by
  obtain ⟨rfl, hlow, hhigh⟩ := boundedInt_eq_some h
  have hlowest : (low : Rat) ≤ (n : Rat) := by exact_mod_cast hlow
  have hhighest : (n : Rat) ≤ (high : Rat) := by exact_mod_cast hhigh
  rw [Schema.valid_range rfl hlowest hhighest]
  rfl

theorem boundedTimeout_valid {data : Json} {timeout : Rat}
    (h : boundedTimeout data = some timeout) :
    (Schema.allOf [Schema.typed [.number], .keyword (.fractionalMinimum tenth),
      .keyword (.maximum 60)]).valid data = true := by
  unfold boundedTimeout at h
  split at h
  case h_1 n =>
      split_ifs at h with hbounds
      simp [Schema.typed, Schema.valid, Schema.validAll, Keyword.holds, TypeName.holds,
        Keyword.onNumber, Json.magnitude, hbounds]
  case h_2 value digits =>
      split_ifs at h with hbounds
      simp [Schema.typed, Schema.valid, Schema.validAll, Keyword.holds, TypeName.holds,
        Keyword.onNumber, Json.magnitude, hbounds]
  case h_3 => cases h

theorem strings?_eq_some {items : List Json} {names : List String}
    (h : strings? items = some names) : items = names.map Json.str := by
  induction items generalizing names with
  | nil =>
      cases h
      rfl
  | cons item rest ih =>
      cases item with
      | str s =>
          rw [strings?, Option.map_eq_some_iff] at h
          obtain ⟨others, hothers, rfl⟩ := h
          rw [ih hothers]
          rfl
      | _ => cases h

theorem nodup_of_hasRepeats {names : List String} (h : hasRepeats names = false) :
    names.Nodup := by
  unfold hasRepeats at h
  simpa using h

theorem checkMessageTypes_eq_ok {surroundings : Surroundings} {items : List Json}
    {messageTypes : List MessageType}
    (h : checkMessageTypes surroundings items = .ok messageTypes) :
    exists names : List String, items = names.map Json.str ∧ names.Nodup ∧
      forall name, name ∈ names -> (messageType? name).isSome = true := by
  unfold checkMessageTypes at h
  simp only [bind_eq_ok] at h
  obtain ⟨names, hnames, _, hunique, _, hknown, _⟩ := h
  refine ⟨names, strings?_eq_some (require_eq_ok hnames),
    nodup_of_hasRepeats (refuseWhen_eq_ok hunique), ?_⟩
  intro name hmem
  have hany := refuseWhen_eq_ok hknown
  rw [List.any_eq_false] at hany
  exact Option.isSome_iff_ne_none.mpr (by simpa using hany name hmem)

theorem checkCapabilities_eq_ok {surroundings : Surroundings} {items : List Json}
    {capabilities : List String}
    (h : checkCapabilities surroundings items = .ok capabilities) :
    items.length ≤ 256 ∧ exists names : List String, items = names.map Json.str ∧ names.Nodup ∧
      forall name, name ∈ names -> Text.byteSize name.toList ≤ 128 ∧
        isVersioned surroundings.toLibrary name = true := by
  unfold checkCapabilities at h
  simp only [bind_eq_ok] at h
  obtain ⟨_, hlength, names, hnames, _, hversioned, _, hunique, _⟩ := h
  have hbound := refuseWhen_eq_ok hlength
  rw [decide_eq_false_iff_not, not_lt] at hbound
  refine ⟨hbound, names, strings?_eq_some (require_eq_ok hnames),
    nodup_of_hasRepeats (refuseWhen_eq_ok hunique), ?_⟩
  intro name hmem
  have hany := refuseWhen_eq_ok hversioned
  rw [List.any_eq_false] at hany
  simpa using hany name hmem

/-!
## Policies
-/

theorem valid_messageType {name : String} (h : (messageType? name).isSome = true) :
    (Schema.enum ["manifest", "state", "goal", "plan", "assignment", "assignment_ack",
      "assignment_query", "assignment_snapshot", "cancellation_request", "cancellation_ack",
      "outcome"]).valid (.str name) = true := by
  obtain ⟨messageType, hfound⟩ := Option.isSome_iff_exists.mp h
  have hname := List.find?_some hfound
  rw [← beq_iff_eq.mp hname, Schema.valid_enum]
  cases messageType <;> rfl

theorem uniqueItems_names {names : List String} (h : names.Nodup) :
    Keyword.uniqueItems.holds (.arr (names.map Json.str)) = true := by
  rw [← Json.strings, Schema.uniqueItems_strings]
  exact decide_eq_true h

theorem valid_messageTypes {surroundings : Surroundings} {items : List Json}
    {messageTypes : List MessageType}
    (h : checkMessageTypes surroundings items = .ok messageTypes) :
    Schema.configMessageTypes.valid (.arr items) = true := by
  obtain ⟨names, rfl, hnodup, hknown⟩ := checkMessageTypes_eq_ok h
  have hitems := Schema.all_valid_map (fun name hmem => valid_messageType (hknown name hmem))
  have harray : (Keyword.type [.array]).holds (.arr (names.map Json.str)) = true := rfl
  simp only [Schema.configMessageTypes, Schema.typed, Schema.valid, Schema.validAll, harray,
    uniqueItems_names hnodup, Keyword.onItems, hitems, Bool.and_true]
  exact List.all_eq_true.mpr fun _ _ => rfl

theorem length_of_isVersioned {library : Registry.Library} {name : String}
    (h : isVersioned library name = true) : 4 ≤ name.length := by
  obtain ⟨before, version, hsplit, hbefore, hversion, _⟩ := isVersioned_eq_true h
  have hlength := congrArg List.length (Registry.versionSplit_append hsplit)
  rw [String.length_toList] at hlength
  have hfirst := List.length_pos_of_ne_nil hbefore
  have hlast := List.length_pos_of_ne_nil hversion
  simp only [List.length_append, List.length_cons] at hlength
  omega

theorem valid_capability {surroundings : Surroundings} {name : String}
    (hbytes : Text.byteSize name.toList ≤ 128)
    (h : isVersioned surroundings.toLibrary name = true) :
    Schema.configCapability.valid (.str name) = asciiVersion name := by
  have hlong := length_of_isVersioned h
  have hshort : name.length ≤ 128 := by
    have hcharacters := length_le_byteSize name.toList
    rw [String.length_toList] at hcharacters
    exact hcharacters.trans hbytes
  simp [Schema.configCapability, Schema.typed, Schema.valid, Schema.validAll, Keyword.holds,
    TypeName.holds, Keyword.onText, hlong, hshort, endsInVersion_eq h]

theorem valid_capabilities {surroundings : Surroundings} {items : List Json}
    {capabilities : List String}
    (h : checkCapabilities surroundings items = .ok capabilities) :
    Schema.configCapabilities.valid (.arr items) = true <->
      forall name, .str name ∈ items -> asciiVersion name = true := by
  obtain ⟨hlength, names, rfl, hnodup, hversioned⟩ := checkCapabilities_eq_ok h
  have hitems := Schema.all_valid_map (fun name hmem =>
    valid_capability (hversioned name hmem).1 (hversioned name hmem).2)
  have hmaximum : (Keyword.maxItems 256).holds (.arr (names.map Json.str)) = true :=
    decide_eq_true hlength
  have harray : (Keyword.type [.array]).holds (.arr (names.map Json.str)) = true := rfl
  simp only [Schema.configCapabilities, Schema.typed, Schema.valid, Schema.validAll, harray,
    uniqueItems_names hnodup, hmaximum, Keyword.onItems, hitems, Bool.and_true, Bool.true_and]
  rw [List.all_eq_true]
  simp

/-!
## Agreement

The loader makes a tuple of any iterable and lets a null pin pass, where the schema asks for an
array and a text.
-/

def field? : Json -> String -> Option Json
  | .obj fields, name => fields.lookup name
  | _, _ => none

def isArray : Json -> Bool
  | .arr _ => true
  | _ => false

/-- What the schema asks of a peer beyond the loader: no pin that is null, lists of the policy
that are arrays, and versions in ASCII digits. -/
structure PeerInSchema (peer : Json) : Prop where
  pin : field? peer "certificate_sha256" ≠ some .null
  messageTypes : forall value, field? peer "allowed_message_types" = some value ->
    isArray value = true
  capabilities : forall value, field? peer "allowed_capabilities" = some value ->
    exists items, value = .arr items ∧
      forall name, .str name ∈ items -> asciiVersion name = true

def pathFields : List String :=
  ["certificate_path", "private_key_path", "ca_path", "replay_database_path",
    "inbox_database_path", "outbox_database_path"]

/-- What the schema asks of a document beyond the loader: paths of 1 to 4096 characters, and
peers as above. -/
structure InSchema (document : Json) : Prop where
  paths : forall name path, name ∈ pathFields -> field? document name = some (.str path) ->
    1 ≤ path.length ∧ path.length ≤ 4096
  peers : forall items peer, field? document "peers" = some (.arr items) -> peer ∈ items ->
    PeerInSchema peer

theorem item_eq_ok {fields : Fields} {name : String} {value : Json}
    (h : (Json.obj fields).item name = .ok value) : fields.lookup name = some value := by
  unfold Json.item at h
  dsimp only at h
  split at h
  case h_1 found hlookup =>
      cases h
      exact hlookup
  case h_2 => cases h

theorem member_of_lookup {fields : Fields} {name : String} {value : Json} (fallback : Json)
    (h : fields.lookup name = some value) : member fields name fallback = value := by
  unfold member
  rw [h, Option.getD_some]

structure PeerChecked (surroundings : Surroundings) (fields : Fields) : Prop where
  known : (unknownFields fields peerFields).isEmpty = true
  robotId : exists value text, fields.lookup "robot_id" = some value ∧
    boundedText 128 value = some text
  host : exists value text, fields.lookup "host" = some value ∧
    boundedText 255 value = some text
  port : exists value n, fields.lookup "port" = some value ∧
    boundedInt 1 65535 value = some n
  certificate : exists fingerprint,
    checkFingerprint (member fields "certificate_sha256" .null) = .ok fingerprint
  messageTypes : exists items messageTypes,
    (member fields "allowed_message_types" (.arr [])).tuple = .ok items ∧
    checkMessageTypes surroundings items = .ok messageTypes
  capabilities : exists items capabilities,
    (member fields "allowed_capabilities" (.arr [])).tuple = .ok items ∧
    checkCapabilities surroundings items = .ok capabilities

theorem readPeer_eq_ok {surroundings : Surroundings} {document : Json} {peer : ConfiguredPeer}
    (h : readPeer surroundings document = .ok peer) :
    exists fields, document = .obj fields ∧ PeerChecked surroundings fields := by
  unfold readPeer at h
  split at h
  case h_1 fields =>
      unfold peerEndpoint at h
      simp only [bind_eq_ok] at h
      obtain ⟨_, hknown, robotId, hrobot, host, hhost, port, hport, types, htypes,
        capabilities, hcapabilities, _, hrobotText, _, hhostText, _, hportNumber, _, hpin,
        _, htypesChecked, _, hcapabilitiesChecked, _⟩ := h
      refine ⟨fields, rfl, ?_⟩
      constructor
      case known => simpa using refuseWhen_eq_ok hknown
      case robotId => exact ⟨_, _, item_eq_ok hrobot, require_eq_ok hrobotText⟩
      case host => exact ⟨_, _, item_eq_ok hhost, require_eq_ok hhostText⟩
      case port => exact ⟨_, _, item_eq_ok hport, require_eq_ok hportNumber⟩
      case certificate => exact ⟨_, hpin⟩
      case messageTypes => exact ⟨_, _, htypes, htypesChecked⟩
      case capabilities => exact ⟨_, _, hcapabilities, hcapabilitiesChecked⟩
  case h_2 => cases h

theorem valid_fingerprint {value : Json} {fingerprint : Option String}
    (h : checkFingerprint value = .ok fingerprint) (hnull : value ≠ .null) :
    Schema.configPin.valid value = true := by
  unfold checkFingerprint at h
  split at h
  case h_1 => exact absurd rfl hnull
  case h_2 s =>
      dsimp only at h
      split_ifs at h with hbad
      simp only [not_or, not_not, Bool.not_eq_true, Bool.not_eq_false'] at hbad
      obtain ⟨hlower, hlength, hdigits⟩ := hbad
      rw [← hlower] at hlength hdigits
      rw [String.length_toList] at hlength
      simp [Schema.configPin, Schema.typed, Schema.valid, Schema.validAll, Keyword.holds,
        TypeName.holds, Keyword.onText, Schema.matchesDigest, hlength]
      simpa using hdigits
  case h_3 => cases h

theorem closed_of_known {fields : Fields} {allowed names : List String}
    (h : (unknownFields fields allowed).isEmpty = true)
    (hsubset : forall name, name ∈ allowed -> name ∈ names) :
    fields.all (fun entry => names.contains entry.1) = true := by
  rw [List.all_eq_true]
  intro entry hentry
  rw [List.contains_iff_mem]
  apply hsubset
  by_contra hunknown
  have hmem : entry.1 ∈ unknownFields fields allowed := by
    unfold unknownFields
    rw [List.mem_filter]
    exact ⟨List.mem_map_of_mem hentry, by simpa using hunknown⟩
  rw [List.isEmpty_iff.mp h] at hmem
  cases hmem

theorem isArray_of_valid {schemas : List Schema} {value : Json}
    (h : (Schema.allOf (Schema.typed [.array] :: schemas)).valid value = true) :
    isArray value = true := by
  rw [Schema.valid, Schema.validAll, Bool.and_eq_true] at h
  cases value with
  | arr items => rfl
  | _ => cases h.1

theorem tuple_of_array {value : Json} {items : List Json} (h : isArray value = true)
    (htuple : value.tuple = .ok items) : value = .arr items := by
  cases value with
  | arr others =>
      cases htuple
      rfl
  | _ => cases h

theorem valid_configPeer_iff {surroundings : Surroundings} {fields : Fields}
    (h : PeerChecked surroundings fields) :
    Schema.configPeer.valid (.obj fields) = true <-> PeerInSchema (.obj fields) := by
  obtain ⟨robotId, _, hrobot, hrobotText⟩ := h.robotId
  obtain ⟨host, _, hhost, hhostText⟩ := h.host
  obtain ⟨port, _, hport, hportNumber⟩ := h.port
  obtain ⟨_, hpin⟩ := h.certificate
  obtain ⟨types, _, htypes, htypesChecked⟩ := h.messageTypes
  obtain ⟨capabilities, _, hcapabilities, hcapabilitiesChecked⟩ := h.capabilities
  have hclosed := closed_of_known h.known (fun name hname => hname)
  unfold Schema.configPeer
  rw [Schema.valid_closedSchema, Bool.and_eq_true, Bool.and_eq_true]
  constructor
  · rintro ⟨⟨_, hproperties⟩, _⟩
    have hproperty := Schema.validProperties_iff.mp hproperties
    constructor
    case pin =>
        intro hnull
        have hvalid := hproperty "certificate_sha256" Schema.configPin (by simp) .null hnull
        cases hvalid
    case messageTypes =>
        intro value hvalue
        exact isArray_of_valid (hproperty "allowed_message_types" Schema.configMessageTypes
          (by simp) value hvalue)
    case capabilities =>
        intro value hvalue
        have hvalid := hproperty "allowed_capabilities" Schema.configCapabilities (by simp)
          value hvalue
        rw [member_of_lookup _ hvalue] at hcapabilities
        have hvalueItems := tuple_of_array (isArray_of_valid hvalid) hcapabilities
        rw [hvalueItems] at hvalid
        exact ⟨capabilities, hvalueItems, (valid_capabilities hcapabilitiesChecked).mp hvalid⟩
  · rintro ⟨hnull, harray, hversions⟩
    refine ⟨⟨?_, Schema.validProperties_iff.mpr ?_⟩, hclosed⟩
    · simp [hrobot, hhost, hport]
    · intro name schema hmem value hvalue
      simp only [List.mem_cons, Prod.mk.injEq, List.not_mem_nil, or_false] at hmem
      rcases hmem with ⟨rfl, rfl⟩ | ⟨rfl, rfl⟩ | ⟨rfl, rfl⟩ | ⟨rfl, rfl⟩ | ⟨rfl, rfl⟩ | ⟨rfl, rfl⟩
      · rw [hrobot] at hvalue
        cases hvalue
        exact boundedText_valid hrobotText
      · rw [hhost] at hvalue
        cases hvalue
        exact boundedText_valid hhostText
      · rw [hport] at hvalue
        cases hvalue
        exact boundedInt_valid hportNumber
      · rw [member_of_lookup _ hvalue] at hpin
        exact valid_fingerprint hpin (fun hsame => hnull (hvalue.trans (congrArg some hsame)))
      · rw [member_of_lookup _ hvalue] at htypes
        rw [tuple_of_array (harray value hvalue) htypes]
        exact valid_messageTypes htypesChecked
      · obtain ⟨items, rfl, hascii⟩ := hversions value hvalue
        rw [member_of_lookup _ hvalue] at hcapabilities
        cases hcapabilities
        exact (valid_capabilities hcapabilitiesChecked).mpr hascii

theorem invalidValues_eq_ok {value : Type} {result : Except Exn value} {v : value}
    (h : invalidValues result = .ok v) : result = .ok v := by
  unfold invalidValues at h
  split at h
  · cases h
  · cases h
  · cases h
  · exact h

theorem readAll_eq_ok {value : Type} {read : Json -> Except Exn value} {items : List Json}
    {values : List value} (h : readAll read items = .ok values) :
    values.length = items.length ∧ forall item, item ∈ items -> exists v, read item = .ok v := by
  induction items generalizing values with
  | nil =>
      cases h
      exact ⟨rfl, by simp⟩
  | cons first rest ih =>
      rw [readAll, bind_eq_ok] at h
      obtain ⟨head, hhead, h⟩ := h
      obtain ⟨others, hothers, h⟩ := bind_eq_ok.mp h
      cases h
      obtain ⟨hlength, hrest⟩ := ih hothers
      refine ⟨by rw [List.length_cons, List.length_cons, hlength], ?_⟩
      intro item hitem
      rcases List.mem_cons.mp hitem with rfl | htail
      · exact ⟨head, hhead⟩
      · exact hrest item htail

theorem credentialPath_eq_ok {fields : Fields} {name path : String}
    (h : credentialPath (.obj fields) name = .ok path) :
    fields.lookup name = some (.str path) := by
  unfold credentialPath at h
  obtain ⟨value, hvalue, h⟩ := bind_eq_ok.mp h
  split at h
  case h_1 text =>
      cases h
      exact item_eq_ok hvalue
  case h_2 => cases h

structure DocumentChecked (surroundings : Surroundings) (fields : Fields) : Prop where
  present : forall name, name ∈ requiredFields -> (fields.lookup name).isSome = true
  known : (unknownFields fields allowedFields).isEmpty = true
  paths : forall name, name ∈ pathFields -> exists path, fields.lookup name = some (.str path)
  robotId : exists text, boundedText 128 (member fields "robot_id" .null) = some text
  bindHost : exists text, boundedText 255 (member fields "bind_host" .null) = some text
  bindPort : exists n, boundedInt 0 65535 (member fields "bind_port" .null) = some n
  timeout : exists n, boundedTimeout (member fields "timeout" (.float 2 "2.0")) = some n
  maximum : exists n, boundedInt 1 1000000
    (member fields "maximum_pending_deliveries" (.int 10000)) = some n
  reserved : exists high n, boundedInt 0 high
    (member fields "reserved_safety_deliveries" (.int 64)) = some n
  peers : exists items, fields.lookup "peers" = some (.arr items) ∧ items.length ≤ 1024 ∧
    forall item, item ∈ items -> exists peer, readPeer surroundings item = .ok peer

theorem loadNetworkConfig_eq_ok {surroundings : Surroundings} {document : Json}
    {config : NetworkConfig} (h : loadNetworkConfig surroundings document = .ok config) :
    exists fields, document = .obj fields ∧ DocumentChecked surroundings fields := by
  unfold loadNetworkConfig at h
  split at h
  case h_1 fields =>
      dsimp only at h
      obtain ⟨_, hmissing, h⟩ := bind_eq_ok.mp h
      obtain ⟨_, hknown, h⟩ := bind_eq_ok.mp h
      have hvalues := invalidValues_eq_ok h
      split at hvalues
      case h_1 items hitems =>
          obtain ⟨peers, hpeers, hconfig⟩ := bind_eq_ok.mp hvalues
          unfold networkConfig at hconfig
          simp only [bind_eq_ok] at hconfig
          obtain ⟨_, hcertificate, _, hkey, _, hca, _, hreplay, _, hinbox, _, houtbox, _,
            hrobot, _, hhost, _, hport, _, htimeout, _, hmaximum, _, hreserved, _, hbound,
            _⟩ := hconfig
          refine ⟨fields, rfl, ?_⟩
          constructor
          case present =>
              have hnone : (requiredFields.filter fun name =>
                  (fields.lookup name).isNone).isEmpty = true := by
                simpa using refuseWhen_eq_ok hmissing
              rw [List.isEmpty_iff, List.filter_eq_nil_iff] at hnone
              intro name hname
              exact Option.isSome_iff_ne_none.mpr (by simpa using hnone name hname)
          case known => simpa using refuseWhen_eq_ok hknown
          case paths =>
              intro name hname
              simp only [pathFields, List.mem_cons, List.not_mem_nil, or_false] at hname
              rcases hname with rfl | rfl | rfl | rfl | rfl | rfl
              · exact ⟨_, credentialPath_eq_ok hcertificate⟩
              · exact ⟨_, credentialPath_eq_ok hkey⟩
              · exact ⟨_, credentialPath_eq_ok hca⟩
              · exact ⟨_, credentialPath_eq_ok hreplay⟩
              · exact ⟨_, credentialPath_eq_ok hinbox⟩
              · exact ⟨_, credentialPath_eq_ok houtbox⟩
          case robotId => exact ⟨_, require_eq_ok hrobot⟩
          case bindHost => exact ⟨_, require_eq_ok hhost⟩
          case bindPort => exact ⟨_, require_eq_ok hport⟩
          case timeout => exact ⟨_, require_eq_ok htimeout⟩
          case maximum => exact ⟨_, require_eq_ok hmaximum⟩
          case reserved => exact ⟨_, _, require_eq_ok hreserved⟩
          case peers =>
              obtain ⟨hlength, hall⟩ := readAll_eq_ok hpeers
              have hpeerBound := refuseWhen_eq_ok hbound
              rw [decide_eq_false_iff_not, not_lt, hlength] at hpeerBound
              exact ⟨items, hitems, hpeerBound, hall⟩
      case h_2 => cases hvalues
  case h_2 => cases h

theorem valid_reserved {high n : Int} {data : Json} (h : boundedInt 0 high data = some n) :
    (Schema.allOf [Schema.typed [.integer], .keyword (.minimum 0)]).valid data = true := by
  obtain ⟨rfl, hlow, _⟩ := boundedInt_eq_some h
  have hlowest : (0 : Rat) ≤ (n : Rat) := by exact_mod_cast hlow
  exact (Schema.valid_timeSchema rfl hlowest).trans rfl

theorem valid_configPath (path : String) :
    Schema.configPath.valid (.str path) = true <-> 1 ≤ path.length ∧ path.length ≤ 4096 := by
  unfold Schema.configPath
  rw [Schema.valid_textSchema, Bool.and_eq_true, decide_eq_true_iff, decide_eq_true_iff]

theorem valid_peers {surroundings : Surroundings} {items : List Json}
    (hlength : items.length ≤ 1024)
    (h : forall item, item ∈ items -> exists peer, readPeer surroundings item = .ok peer) :
    (Schema.allOf [Schema.typed [.array], .keyword (.maxItems 1024),
      .items Schema.configPeer]).valid (.arr items) = true <->
      forall peer, peer ∈ items -> PeerInSchema peer := by
  have harray : (Keyword.type [.array]).holds (.arr items) = true := rfl
  have hmaximum : (Keyword.maxItems 1024).holds (.arr items) = true := decide_eq_true hlength
  simp only [Schema.typed, Schema.valid, Schema.validAll, harray, hmaximum, Keyword.onItems,
    Bool.and_true, Bool.true_and]
  rw [List.all_eq_true]
  apply forall₂_congr
  intro item hitem
  obtain ⟨peer, hpeer⟩ := h item hitem
  obtain ⟨fields, rfl, hchecked⟩ := readPeer_eq_ok hpeer
  exact valid_configPeer_iff hchecked

theorem valid_networkConfig_iff {surroundings : Surroundings} {fields : Fields}
    (h : DocumentChecked surroundings fields) :
    Schema.networkConfig.valid (.obj fields) = true <-> InSchema (.obj fields) := by
  obtain ⟨items, hitems, hlength, hread⟩ := h.peers
  have hclosed := closed_of_known h.known (fun name hname => by
    simp only [allowedFields, requiredFields, List.cons_append, List.nil_append, List.mem_cons,
      List.not_mem_nil, or_false] at hname
    show name ∈ ["robot_id", "bind_host", "bind_port", "certificate_path", "private_key_path",
      "ca_path", "replay_database_path", "inbox_database_path", "outbox_database_path",
      "maximum_pending_deliveries", "reserved_safety_deliveries", "timeout", "peers"]
    simp only [List.mem_cons, List.not_mem_nil, or_false]
    tauto)
  unfold Schema.networkConfig
  rw [Schema.valid_closedSchema, Bool.and_eq_true, Bool.and_eq_true]
  constructor
  · rintro ⟨⟨_, hproperties⟩, _⟩
    have hproperty := Schema.validProperties_iff.mp hproperties
    constructor
    case paths =>
        intro name path hname hpath
        apply (valid_configPath path).mp
        refine hproperty name Schema.configPath ?_ (.str path) hpath
        simp only [pathFields, List.mem_cons, List.not_mem_nil, or_false] at hname
        rcases hname with rfl | rfl | rfl | rfl | rfl | rfl <;> simp
    case peers =>
        intro others peer hothers
        have hsame : items = others := by
          have heq := hitems.symm.trans hothers
          cases heq
          rfl
        subst hsame
        have hvalid := hproperty "peers" (.allOf [Schema.typed [.array],
          .keyword (.maxItems 1024), .items Schema.configPeer]) (by simp) _ hitems
        exact (valid_peers hlength hread).mp hvalid peer
  · rintro ⟨hpaths, hpeers⟩
    refine ⟨⟨?_, Schema.validProperties_iff.mpr ?_⟩, hclosed⟩
    · exact List.all_eq_true.mpr fun name hname => h.present name hname
    · intro name schema hmem value hvalue
      have hpath : name ∈ pathFields -> schema = Schema.configPath ->
          schema.valid value = true := by
        rintro hname rfl
        obtain ⟨path, hlookup⟩ := h.paths name hname
        rw [hlookup] at hvalue
        cases hvalue
        exact (valid_configPath path).mpr (hpaths name path hname hlookup)
      simp only [List.mem_cons, Prod.mk.injEq, List.not_mem_nil, or_false] at hmem
      rcases hmem with ⟨rfl, rfl⟩ | ⟨rfl, rfl⟩ | ⟨rfl, rfl⟩ | ⟨rfl, rfl⟩ | ⟨rfl, rfl⟩ |
        ⟨rfl, rfl⟩ | ⟨rfl, rfl⟩ | ⟨rfl, rfl⟩ | ⟨rfl, rfl⟩ | ⟨rfl, rfl⟩ | ⟨rfl, rfl⟩ |
        ⟨rfl, rfl⟩ | ⟨rfl, rfl⟩
      · obtain ⟨_, htext⟩ := h.robotId
        rw [member_of_lookup _ hvalue] at htext
        exact boundedText_valid htext
      · obtain ⟨_, htext⟩ := h.bindHost
        rw [member_of_lookup _ hvalue] at htext
        exact boundedText_valid htext
      · obtain ⟨_, hport⟩ := h.bindPort
        rw [member_of_lookup _ hvalue] at hport
        exact boundedInt_valid hport
      · exact hpath (by simp [pathFields]) rfl
      · exact hpath (by simp [pathFields]) rfl
      · exact hpath (by simp [pathFields]) rfl
      · exact hpath (by simp [pathFields]) rfl
      · exact hpath (by simp [pathFields]) rfl
      · exact hpath (by simp [pathFields]) rfl
      · obtain ⟨_, hmaximum⟩ := h.maximum
        rw [member_of_lookup _ hvalue] at hmaximum
        exact boundedInt_valid hmaximum
      · obtain ⟨_, _, hreserved⟩ := h.reserved
        rw [member_of_lookup _ hvalue] at hreserved
        exact valid_reserved hreserved
      · obtain ⟨_, htimeout⟩ := h.timeout
        rw [member_of_lookup _ hvalue] at htimeout
        exact boundedTimeout_valid htimeout
      · rw [hitems] at hvalue
        cases hvalue
        exact (valid_peers hlength hread).mpr (fun peer hpeer => hpeers items peer hitems hpeer)

/-- A document that the loader accepts is valid exactly when its paths, pins, policy lists and
versions are as the schema has them. -/
theorem loaded_document_valid_iff {surroundings : Surroundings} {document : Json}
    {config : NetworkConfig} (h : loadNetworkConfig surroundings document = .ok config) :
    Schema.networkConfig.valid document = true <-> InSchema document := by
  obtain ⟨fields, rfl, hchecked⟩ := loadNetworkConfig_eq_ok h
  exact valid_networkConfig_iff hchecked

def credentialDirectory : Surroundings where
  urlScheme _ := .ok ""
  normalized _ := true
  isDigit := isAsciiDigit
  isFile path := ["robot.crt", "robot.key", "ca.crt"].contains path
  shown names := String.intercalate ", " names
  newline_no_digit := by decide

def peerDocument (peer : Json) : Json :=
  .obj [("robot_id", .str "rover"), ("bind_host", .str "0.0.0.0"), ("bind_port", .int 7443),
    ("certificate_path", .str "robot.crt"), ("private_key_path", .str "robot.key"),
    ("ca_path", .str "ca.crt"), ("replay_database_path", .str "replay.sqlite3"),
    ("inbox_database_path", .str "inbox.sqlite3"),
    ("outbox_database_path", .str "outbox.sqlite3"), ("peers", .arr [peer])]

def plainPeer : Json :=
  .obj [("robot_id", .str "walker"), ("host", .str "192.0.2.21"), ("port", .int 7443),
    ("allowed_message_types", .arr [.str "state"]),
    ("allowed_capabilities", .arr [.str "walk/v1"])]

def unpinnedPeer : Json :=
  .obj [("robot_id", .str "walker"), ("host", .str "192.0.2.21"), ("port", .int 7443),
    ("certificate_sha256", .null)]

theorem exists_of_isOk {value : Type} {result : Except Exn value} (h : result.isOk = true) :
    exists v, result = .ok v := by
  cases result with
  | ok v => exact ⟨v, rfl⟩
  | error e => cases h

theorem plain_document_valid :
    (loadNetworkConfig credentialDirectory (peerDocument plainPeer)).isOk = true ∧
      Schema.networkConfig.valid (peerDocument plainPeer) = true := by
  have hloads : (loadNetworkConfig credentialDirectory (peerDocument plainPeer)).isOk = true := by
    decide +kernel
  obtain ⟨config, hconfig⟩ := exists_of_isOk hloads
  refine ⟨hloads, (loaded_document_valid_iff hconfig).mpr ?_⟩
  constructor
  case paths =>
      intro name path hname hpath
      simp only [pathFields, List.mem_cons, List.not_mem_nil, or_false] at hname
      rcases hname with rfl | rfl | rfl | rfl | rfl | rfl <;> cases hpath <;> decide
  case peers =>
      intro items peer hitems hpeer
      cases hitems
      cases List.mem_singleton.mp hpeer
      constructor
      case pin =>
          intro hnull
          cases hnull
      case messageTypes =>
          intro value hvalue
          cases hvalue
          rfl
      case capabilities =>
          intro value hvalue
          cases hvalue
          refine ⟨_, rfl, fun name hname => ?_⟩
          cases List.mem_singleton.mp hname
          decide

/-- The loader takes a null pin for none; the schema allows texts only. -/
theorem null_pin_loaded_not_valid :
    (loadNetworkConfig credentialDirectory (peerDocument unpinnedPeer)).isOk = true ∧
      Schema.networkConfig.valid (peerDocument unpinnedPeer) = false := by
  decide +kernel

end Network

end Ump
