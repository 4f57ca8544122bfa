import Ump.Foundation.PartialIndex
import Ump.Foundation.Transaction
import Ump.Protocol.Models

/-!
# Credential generations

## Certificates

The certificates themselves are read by a library. What the store asks of it is a parameter:
how the PEM texts are parsed and what a certificate says of itself.
-/

namespace Ump.Credentials

open Foundation

abbrev Bytes := List UInt8

structure Library (Certificate Key : Type) where
  loadPemCertificate : Bytes -> Option Certificate
  loadPemPrivateKey : Bytes -> Option Key
  /-- The URIs of the subject alternative name, if there is such an extension. -/
  alternativeUris : Certificate -> Option (List String)
  directlyIssuedBy : Certificate -> Certificate -> Bool
  publicBytes : Certificate -> Bytes
  publicBytesOf : Key -> Bytes
  notValidBeforeMs : Certificate -> Int
  notValidAfterMs : Certificate -> Int
  /-- The SHA-256 of the certificate's DER encoding. -/
  fingerprint : Certificate -> String

def identityUriPrefix : String := "urn:ump:robot:"

structure Bundle where
  certificate : Bytes
  privateKey : Bytes
  ca : Bytes

def identities (uris : List String) : List String :=
  (uris.filter (fun uri => identityUriPrefix.toList.isPrefixOf uri.toList)).map
    (fun uri => String.ofList (uri.toList.drop identityUriPrefix.length))

def required (value : Option α) (text : String) : Except Exn α :=
  match value with
  | some v => .ok v
  | none => .error (.value text)

/-- What `_validate_bundle` returns: the fingerprint and the validity window. -/
structure Parsed where
  fingerprint : String
  notBeforeMs : Int
  notAfterMs : Int

section

variable {Certificate Key : Type} (library : Library Certificate Key)

def validateBundle (robotId : String) (bundle : Bundle) (nowMs : Int) : Except Exn Parsed := do
  let certificate <- required (library.loadPemCertificate bundle.certificate)
    "credential bundle contains invalid or encrypted PEM"
  let privateKey <- required (library.loadPemPrivateKey bundle.privateKey)
    "credential bundle contains invalid or encrypted PEM"
  let ca <- required (library.loadPemCertificate bundle.ca)
    "credential bundle contains invalid or encrypted PEM"
  let uris <- required (library.alternativeUris certificate)
    "certificate has no subject alternative name"
  refuseWhen ((identities uris).isEmpty ||
      (identities uris).any (fun identity => identity != robotId))
    "certificate must contain exactly the configured UMP robot identity"
  refuseWhen (!library.directlyIssuedBy certificate ca)
    "certificate was not issued by the supplied CA"
  refuseWhen (library.publicBytes certificate != library.publicBytesOf privateKey)
    "private key does not match certificate"
  refuseWhen (decide (nowMs < library.notValidBeforeMs certificate) ||
      decide (library.notValidAfterMs certificate ≤ nowMs))
    "certificate is not currently valid"
  .ok
    { fingerprint := library.fingerprint certificate
      notBeforeMs := library.notValidBeforeMs certificate
      notAfterMs := library.notValidAfterMs certificate }

end

def hexDigits : List Char := "0123456789abcdef".toList

/-- `_fingerprint`. Of the characters that `lower` changes only ASCII letters become
hexadecimal digits. -/
def normalFingerprint (value : String) : Except Exn String := do
  let lowered := value.toList.map Char.toLower
  refuseWhen (decide (lowered.length ≠ 64) || lowered.any (fun c => !hexDigits.contains c))
    "fingerprint must be 64 hexadecimal characters"
  .ok (String.ofList lowered)

/-!
## The database
-/

inductive GenerationStatus where
  | staged
  | active
  | retired
deriving DecidableEq, Repr

structure GenerationRow where
  generation : Int
  robotId : String
  fingerprintSha256 : String
  certificatePath : String
  privateKeyPath : String
  caPath : String
  notBeforeMs : Int
  notAfterMs : Int
  status : GenerationStatus
  createdAtMs : Int
  activatedAtMs : Option Int
deriving DecidableEq

def GenerationRow.isActive (row : GenerationRow) : Bool :=
  decide (row.status = .active)

structure RevokedRow where
  fingerprintSha256 : String
  reason : String
  revokedAtMs : Int
deriving DecidableEq

/-- A row of `credential_events`, in the order of `sequence`. The column of the detail holds
the value that its JSON text encodes. -/
structure EventRow where
  robotId : String
  eventType : String
  occurredAtMs : Int
  detailJson : Json

instance : Keyed GenerationRow where
  clash a b := a.generation == b.generation || a.fingerprintSha256 == b.fingerprintSha256 ||
    (a.isActive && b.isActive && a.robotId == b.robotId)
  clash_symm a b := by
    rw [BEq.comm (a := a.generation), BEq.comm (a := a.fingerprintSha256),
      BEq.comm (a := a.robotId), Bool.and_comm a.isActive]

instance : Keyed RevokedRow where
  clash a b := a.fingerprintSha256 == b.fingerprintSha256
  clash_symm _ _ := BEq.comm

/-- The three tables, and the counter of `AUTOINCREMENT`. -/
structure Database where
  generations : Table GenerationRow
  lastGeneration : Nat
  revoked : Table RevokedRow
  events : List EventRow

namespace Database

def empty : Database where
  generations := Table.empty
  lastGeneration := 0
  revoked := Table.empty
  events := []

def row (db : Database) (generation : Int) : Except Exn GenerationRow := do
  bindInteger generation
  required (db.generations.fetch (fun row => row.generation == generation))
    "credential generation does not exist"

def isRevoked (db : Database) (fingerprint : String) : Except Exn Bool := do
  let fingerprint <- normalFingerprint fingerprint
  .ok (db.revoked.fetch (fun row => row.fingerprintSha256 == fingerprint)).isSome

def active (db : Database) (robotId : String) : Option GenerationRow :=
  db.generations.fetch (fun row => row.robotId == robotId && row.isActive)

/-- `events`. -/
def eventsOf (db : Database) (robotId : String) : List EventRow :=
  db.events.filter (fun event => event.robotId == robotId)

def event (db : Database) (robotId eventType : String) (occurredAtMs : Int) (detail : Json) :
    Except Exn Database := do
  bindInteger occurredAtMs
  .ok
    { db with
      events := db.events ++
        [{ robotId := robotId, eventType := eventType, occurredAtMs := occurredAtMs,
           detailJson := detail }] }

/-!
### The statements
-/

/-- `AUTOINCREMENT` beyond the largest row id. -/
def refuseFull (db : Database) : Except Exn Unit :=
  if 2 ^ 63 - 1 ≤ db.lastGeneration then .error (.runtime "database or disk is full")
  else .ok ()

/-- The `INSERT` of `enroll`. -/
def stage (db : Database) (robotId : String) (parsed : Parsed) (nowMs : Int) :
    Except Exn (Int × Database) := do
  bindInteger parsed.notBeforeMs
  bindInteger parsed.notAfterMs
  bindInteger nowMs
  db.refuseFull
  let generation : Int := db.lastGeneration + 1
  let row : GenerationRow :=
    { generation := generation
      robotId := robotId
      fingerprintSha256 := parsed.fingerprint
      certificatePath := ""
      privateKeyPath := ""
      caPath := ""
      notBeforeMs := parsed.notBeforeMs
      notAfterMs := parsed.notAfterMs
      status := .staged
      createdAtMs := nowMs
      activatedAtMs := none }
  match db.generations.insert? row with
  | some generations =>
      .ok (generation,
        { db with generations := generations, lastGeneration := db.lastGeneration + 1 })
  | none => .error .integrity

def withPaths (directory : String) (row : GenerationRow) : GenerationRow :=
  { row with
    certificatePath := directory ++ "/certificate.pem"
    privateKeyPath := directory ++ "/private-key.pem"
    caPath := directory ++ "/ca.pem" }

theorem keepsKeys_withPaths (directory : String) : Table.KeepsKeys (withPaths directory) :=
  fun _ _ => rfl

/-- The `UPDATE` of `enroll`. -/
def setPaths (db : Database) (generation : Int) (directory : String) : Database :=
  { db with
    generations := db.generations.update (fun row => row.generation == generation)
      (withPaths directory) (keepsKeys_withPaths directory) }

def change (db : Database) (p : GenerationRow -> Bool) (f : GenerationRow -> GenerationRow) :
    Except Exn Database :=
  match db.generations.change? p f with
  | some generations => .ok { db with generations := generations }
  | none => .error .integrity

def retired (row : GenerationRow) : GenerationRow :=
  { row with status := .retired }

def activated (nowMs : Int) (row : GenerationRow) : GenerationRow :=
  { row with status := .active, activatedAtMs := some nowMs }

/-- `SET status = 'retired'` for the active generation of a robot. -/
def retireActive (db : Database) (robotId : String) : Except Exn Database :=
  db.change (fun row => row.robotId == robotId && row.isActive) retired

/-- `SET status = 'active'`. -/
def setActive (db : Database) (generation nowMs : Int) : Except Exn Database := do
  bindInteger nowMs
  db.change (fun row => row.generation == generation) (activated nowMs)

/-- The `INSERT` of `revoke`. -/
def insertRevoked (db : Database) (fingerprint reason : String) (nowMs : Int) :
    Except Exn Database := do
  bindInteger nowMs
  match db.revoked.insert?
      { fingerprintSha256 := fingerprint, reason := reason, revokedAtMs := nowMs } with
  | some revoked => .ok { db with revoked := revoked }
  | none => .error .integrity

/-- `SET status = 'retired'` for the generation of a fingerprint. -/
def retireFingerprint (db : Database) (fingerprint : String) : Except Exn Database :=
  db.change (fun row => row.fingerprintSha256 == fingerprint) retired

end Database

end Ump.Credentials
