import Ump.Network.Disclosure
import Ump.Protocol.PublishedSchema
import Ump.Protocol.WireEnvelope
import Ump.Registry.Decoding

/-!
# Network configuration

## Values

The checks of `PeerEndpoint` and `NetworkConfig` on the values of a decoded document. What the
loader asks of its surroundings is which texts name a file from the directory of the document,
and how a message shows a list of names.
-/

namespace Ump.Network

open Registry (Fields member isVersioned isHexDigit readAll)

structure Surroundings extends Registry.Library where
  isFile : String -> Bool
  shown : List String -> String
  newline_no_digit : isDigit '\n' = false

structure ConfiguredPeer extends PeerEndpoint where
  host : String
  port : Int
  certificateSha256 : Option String

structure NetworkConfig where
  robotId : String
  bindHost : String
  bindPort : Int
  certificatePath : String
  privateKeyPath : String
  caPath : String
  replayDatabasePath : String
  inboxDatabasePath : String
  outboxDatabasePath : String
  peers : List ConfiguredPeer
  timeout : Rat
  maximumPendingDeliveries : Int
  reservedSafetyDeliveries : Int

def require (found : Option value) (text : String) : Except Exn value :=
  match found with
  | some v => .ok v
  | none => .error (.value text)

def boundedText (maximum : Nat) : Json -> Option String
  | .str s =>
      if s.toList.all isSpace || maximum < Text.byteSize s.toList then none else some s
  | _ => none

def boundedInt (low high : Int) : Json -> Option Int
  | .int n => if low ≤ n ∧ n ≤ high then some n else none
  | _ => none

def tenth : Rat := 3602879701896397 / 36028797018963968

def boundedTimeout : Json -> Option Rat
  | .int n => if tenth ≤ n ∧ (n : Rat) ≤ 60 then some n else none
  | .float value _ => if tenth ≤ value ∧ value ≤ 60 then some value else none
  | _ => none

def strings? : List Json -> Option (List String)
  | [] => some []
  | .str s :: rest => (strings? rest).map (s :: ·)
  | _ :: _ => none

def checkFingerprint : Json -> Except Exn (Option String)
  | .null => .ok none
  | .str s =>
      let fingerprint := s.toList.map Char.toLower
      if s.toList ≠ fingerprint ∨ fingerprint.length ≠ 64 ∨ !fingerprint.all isHexDigit then
        .error (.value "peer certificate fingerprint must be lowercase SHA-256")
      else .ok (some s)
  | _ => .error (.value "peer certificate fingerprint must be lowercase SHA-256")

def messageType? (name : String) : Option MessageType :=
  Wire.messageTypes.find? (fun messageType => messageType.value == name)

def checkMessageTypes (surroundings : Surroundings) (items : List Json) :
    Except Exn (List MessageType) := do
  let names <- require (strings? items) "peer allowed message types must be strings"
  refuseWhen (hasRepeats names) "peer allowed message types must be unique"
  refuseWhen (names.any (fun name => (messageType? name).isNone))
    ("peer policy contains unknown message types: " ++
      surroundings.shown (names.filter (fun name => (messageType? name).isNone)))
  .ok (names.filterMap messageType?)

def checkCapabilities (surroundings : Surroundings) (items : List Json) :
    Except Exn (List String) := do
  refuseWhen (decide (256 < items.length)) "peer allowed capabilities must be versioned strings"
  let names <- require (strings? items) "peer allowed capabilities must be versioned strings"
  refuseWhen (names.any (fun name => decide (128 < Text.byteSize name.toList) ||
    !isVersioned surroundings.toLibrary name))
    "peer allowed capabilities must be versioned strings"
  refuseWhen (hasRepeats names) "peer allowed capabilities must be unique"
  .ok names

/-!
## Documents

An object with all required members and no others is read member by member. What a constructor
raises becomes an error of the document, with the text of the loader before it.
-/

def peerFields : List String :=
  ["robot_id", "host", "port", "certificate_sha256", "allowed_message_types",
    "allowed_capabilities"]

def requiredFields : List String :=
  ["robot_id", "bind_host", "bind_port", "certificate_path", "private_key_path", "ca_path",
    "replay_database_path", "inbox_database_path", "outbox_database_path"]

def allowedFields : List String :=
  requiredFields ++
    ["peers", "timeout", "maximum_pending_deliveries", "reserved_safety_deliveries"]

def unknownFields (fields : Fields) (allowed : List String) : List String :=
  (fields.map Prod.fst).filter (fun name => !allowed.contains name)

def peerEndpoint (surroundings : Surroundings) (robotId host port certificate : Json)
    (messageTypes capabilities : List Json) : Except Exn ConfiguredPeer := do
  let robotId <- require (boundedText 128 robotId) "invalid UMP peer endpoint"
  let host <- require (boundedText 255 host) "invalid UMP peer endpoint"
  let port <- require (boundedInt 1 65535 port) "invalid UMP peer endpoint"
  let certificateSha256 <- checkFingerprint certificate
  let allowedMessageTypes <- checkMessageTypes surroundings messageTypes
  let allowedCapabilities <- checkCapabilities surroundings capabilities
  .ok
    { robotId := robotId
      allowedMessageTypes := allowedMessageTypes
      allowedCapabilities := allowedCapabilities
      host := host
      port := port
      certificateSha256 := certificateSha256 }

def readPeer (surroundings : Surroundings) (document : Json) : Except Exn ConfiguredPeer :=
  match document with
  | .obj fields => do
      refuseWhen (!(unknownFields fields peerFields).isEmpty)
        ("network peer has unknown fields: " ++
          surroundings.shown (unknownFields fields peerFields))
      let robotId <- document.item "robot_id"
      let host <- document.item "host"
      let port <- document.item "port"
      let messageTypes <- (member fields "allowed_message_types" (.arr [])).tuple
      let capabilities <- (member fields "allowed_capabilities" (.arr [])).tuple
      peerEndpoint surroundings robotId host port (member fields "certificate_sha256" .null)
        messageTypes capabilities
  | _ => .error (.value "network peer must be an object")

/-- `credential_path`, which makes a path of texts only. -/
def credentialPath (document : Json) (fieldName : String) : Except Exn String := do
  let value <- document.item fieldName
  match value with
  | .str s => .ok s
  | _ => .error (.type "argument should be a str or an os.PathLike object")

def checkFile (surroundings : Surroundings) (path : String) : Except Exn Unit :=
  refuseWhen (!surroundings.isFile path)
    ("network credential file does not exist: " ++ path)

/-- `NetworkConfig(...)`, with the peers that have been read. -/
def networkConfig (surroundings : Surroundings) (fields : Fields)
    (peers : List ConfiguredPeer) : Except Exn NetworkConfig := do
  let certificatePath <- credentialPath (.obj fields) "certificate_path"
  let privateKeyPath <- credentialPath (.obj fields) "private_key_path"
  let caPath <- credentialPath (.obj fields) "ca_path"
  let replayDatabasePath <- credentialPath (.obj fields) "replay_database_path"
  let inboxDatabasePath <- credentialPath (.obj fields) "inbox_database_path"
  let outboxDatabasePath <- credentialPath (.obj fields) "outbox_database_path"
  let robotId <- require (boundedText 128 (member fields "robot_id" .null))
    "network robot_id and bind_host are required"
  let bindHost <- require (boundedText 255 (member fields "bind_host" .null))
    "network robot_id and bind_host are required"
  let bindPort <- require (boundedInt 0 65535 (member fields "bind_port" .null))
    "network bind_port is invalid"
  let timeout <- require (boundedTimeout (member fields "timeout" (.float 2 "2.0")))
    "network timeout must be between 0.1 and 60 seconds"
  let maximumPendingDeliveries <-
    require (boundedInt 1 1000000 (member fields "maximum_pending_deliveries" (.int 10000)))
      "maximum pending deliveries is outside supported bounds"
  let reservedSafetyDeliveries <-
    require (boundedInt 0 (maximumPendingDeliveries - 1)
      (member fields "reserved_safety_deliveries" (.int 64)))
      "reserved safety deliveries must fit inside the outbox"
  refuseWhen (decide (1024 < peers.length)) "network peers must be a bounded tuple"
  checkAll (checkFile surroundings) [certificatePath, privateKeyPath, caPath]
  refuseWhen (hasRepeats (peers.map (fun peer => peer.robotId)))
    "network peer robot IDs must be unique"
  .ok
    { robotId := robotId
      bindHost := bindHost
      bindPort := bindPort
      certificatePath := certificatePath
      privateKeyPath := privateKeyPath
      caPath := caPath
      replayDatabasePath := replayDatabasePath
      inboxDatabasePath := inboxDatabasePath
      outboxDatabasePath := outboxDatabasePath
      peers := peers
      timeout := timeout
      maximumPendingDeliveries := maximumPendingDeliveries
      reservedSafetyDeliveries := reservedSafetyDeliveries }

def invalidValues : Except Exn value -> Except Exn value
  | .error (.key name) => .error (.value ("network configuration is missing field: " ++ name))
  | .error (.type text) =>
      .error (.value ("network configuration contains invalid values: " ++ text))
  | .error (.value text) =>
      .error (.value ("network configuration contains invalid values: " ++ text))
  | result => result

/-- `load_network_config` on the value that the file holds. A document without `peers` is
refused: the default there is no list. -/
def loadNetworkConfig (surroundings : Surroundings) (document : Json) :
    Except Exn NetworkConfig :=
  match document with
  | .obj fields => do
      let missing := requiredFields.filter (fun name => (fields.lookup name).isNone)
      refuseWhen (!missing.isEmpty)
        ("network configuration is missing " ++ surroundings.shown missing)
      refuseWhen (!(unknownFields fields allowedFields).isEmpty)
        ("network configuration has unknown fields: " ++
          surroundings.shown (unknownFields fields allowedFields))
      invalidValues (do
        match fields.lookup "peers" with
        | some (.arr items) => do
            let peers <- readAll (readPeer surroundings) items
            networkConfig surroundings fields peers
        | _ => .error (.value "network peers must be an array"))
  | _ => .error (.value "network configuration must be an object")

end Ump.Network
