import Ump.Credentials.Generations
import Ump.Foundation.Methods

/-!
# The life of credentials

## The methods of the store

Several stores, each of one robot, may share one database. What the file system does is an
input of a call: the files that `enroll` reads, and whether it can write its copies.
-/

namespace Ump.Credentials

open Foundation

structure CredentialStore where
  robotId : String
  directory : String

def CredentialStore.generationDirectory (store : CredentialStore) (generation : Int) : String :=
  store.directory ++ "/generation-" ++ toString generation

structure CredentialGeneration where
  generation : Int
  robotId : String
  fingerprintSha256 : String
  certificatePath : String
  privateKeyPath : String
  caPath : String
  notBeforeMs : Int
  notAfterMs : Int
  status : GenerationStatus

/-- `_generation`. -/
def generationOf (row : GenerationRow) : CredentialGeneration where
  generation := row.generation
  robotId := row.robotId
  fingerprintSha256 := row.fingerprintSha256
  certificatePath := row.certificatePath
  privateKeyPath := row.privateKeyPath
  caPath := row.caPath
  notBeforeMs := row.notBeforeMs
  notAfterMs := row.notAfterMs
  status := row.status

/-- `except sqlite3.IntegrityError`. -/
def integrityAs (text : String) : Exn -> Exn
  | .integrity => .value text
  | e => e

def enrolledDetail (generation : Int) (fingerprint : String) : Json :=
  .obj [("generation", .int generation), ("fingerprint_sha256", .str fingerprint)]

def activatedDetail (generation : Int) : Json :=
  .obj [("generation", .int generation)]

def revokedDetail (fingerprint reason : String) : Json :=
  .obj [("fingerprint_sha256", .str fingerprint), ("reason", .str reason)]

def checkReason (reason : String) : Except Exn Unit :=
  refuseWhen (reason.toList.all isSpace || decide (512 < Text.byteSize reason.toList))
    "revocation reason is required and bounded"

/-- The checks of `activate` on the row. -/
def checkActivation (db : Database) (robotId : String) (row : GenerationRow) (nowMs : Int) :
    Except Exn Unit := do
  refuseWhen (row.robotId != robotId) "credential belongs to another robot"
  refuseWhen (decide (nowMs < row.notBeforeMs) || decide (row.notAfterMs ≤ nowMs))
    "credential is not currently valid"
  let revoked <- db.isRevoked row.fingerprintSha256
  refuseWhen revoked "revoked credential cannot be activated"

abbrev Method := Sql Exn Database

def update (f : Database -> Except Exn Database) : Method Unit :=
  Sql.execute (fun db => (f db).map (fun db => ((), db)))

namespace Connection

def get (generation : Int) : Method CredentialGeneration := do
  let row <- Sql.select (fun db => db.row generation)
  let row <- Sql.compute row
  pure (generationOf row)

/-- The transaction of `enroll`. -/
def enrollParsed (store : CredentialStore) (parsed : Parsed) (written : Except Exn Unit)
    (nowMs : Int) : Method Int :=
  Sql.renaming (integrityAs "certificate is already enrolled")
    (Sql.transaction (do
      let generation <- Sql.execute (fun db => db.stage store.robotId parsed nowMs)
      Sql.compute written
      update (fun db => .ok (db.setPaths generation (store.generationDirectory generation)))
      update (fun db => db.event store.robotId "enrolled" nowMs
        (enrolledDetail generation parsed.fingerprint))
      Sql.commit
      pure generation))

def enroll {Certificate Key : Type} (library : Library Certificate Key)
    (store : CredentialStore) (files : Except Exn Bundle) (written : Except Exn Unit)
    (nowMs : Int) : Method CredentialGeneration := do
  let bundle <- Sql.compute files
  let parsed <- Sql.compute (validateBundle library store.robotId bundle nowMs)
  let generation <- enrollParsed store parsed written nowMs
  get generation

/-- The transaction of `activate`. -/
def activateRow (store : CredentialStore) (generation nowMs : Int) : Method Unit :=
  Sql.transaction (do
    let row <- Sql.select (fun db => db.row generation)
    let row <- Sql.compute row
    let checked <- Sql.select (fun db => checkActivation db store.robotId row nowMs)
    Sql.compute checked
    update (fun db => db.retireActive store.robotId)
    update (fun db => db.setActive generation nowMs)
    update (fun db => db.event store.robotId "activated" nowMs (activatedDetail generation))
    Sql.commit
    pure ())

def activate (store : CredentialStore) (generation nowMs : Int) :
    Method CredentialGeneration := do
  activateRow store generation nowMs
  get generation

/-- The transaction of `revoke`. -/
def revokeNormal (store : CredentialStore) (fingerprint reason : String) (nowMs : Int) :
    Method Unit :=
  Sql.renaming (integrityAs "certificate is already revoked")
    (Sql.transaction (do
      update (fun db => db.insertRevoked fingerprint reason nowMs)
      update (fun db => db.retireFingerprint fingerprint)
      update (fun db => db.event store.robotId "revoked" nowMs
        (revokedDetail fingerprint reason))
      Sql.commit
      pure ()))

def revoke (store : CredentialStore) (fingerprint reason : String) (nowMs : Int) :
    Method Unit := do
  let fingerprint <- Sql.compute (normalFingerprint fingerprint)
  Sql.compute (checkReason reason)
  revokeNormal store fingerprint reason nowMs

end Connection

/-!
## What is left of the methods
-/

namespace Database

/-- The transaction of `enroll`. -/
def enroll (db : Database) (store : CredentialStore) (parsed : Parsed)
    (written : Except Exn Unit) (nowMs : Int) : Except Exn (Int × Database) := do
  let staged <- db.stage store.robotId parsed nowMs
  written
  let db <- (staged.2.setPaths staged.1 (store.generationDirectory staged.1)).event
    store.robotId "enrolled" nowMs (enrolledDetail staged.1 parsed.fingerprint)
  .ok (staged.1, db)

/-- The transaction of `activate`. -/
def activate (db : Database) (store : CredentialStore) (generation nowMs : Int) :
    Except Exn Database := do
  let row <- db.row generation
  checkActivation db store.robotId row nowMs
  let db <- db.retireActive store.robotId
  let db <- db.setActive generation nowMs
  db.event store.robotId "activated" nowMs (activatedDetail generation)

/-- The transaction of `revoke`, for a normal fingerprint. -/
def revoke (db : Database) (store : CredentialStore) (fingerprint reason : String)
    (nowMs : Int) : Except Exn Database := do
  let db <- db.insertRevoked fingerprint reason nowMs
  let db <- db.retireFingerprint fingerprint
  db.event store.robotId "revoked" nowMs (revokedDetail fingerprint reason)

end Database

def silent (result : Except Exn Database) : Except Exn (Unit × Database) :=
  result.map (fun db => ((), db))

theorem silent_eq_ok {x : Except Exn Database} {p : Unit × Database}
    (h : silent x = .ok p) : x = .ok p.2 := by
  cases x with
  | error e => cases h
  | ok db => rw [← Except.ok.inj h]

theorem commits_update {f : Database -> Except Exn Database} {k : Unit -> Method result}
    {w : Database} {r : Database -> Except Exn (result × Database)}
    (hk : forall w', Commits (k ()) w' (r w')) :
    Commits (update f >>= k) w (f w >>= r) := by
  have hbind : (f w).map (fun db => ((), db)) >>= (fun p : Unit × Database => r p.2) =
      f w >>= r := by
    cases f w <;> rfl
  rw [← hbind]
  exact Commits.execute_bind (fun _ w' => hk w')

theorem commits_last {f : Database -> Except Exn Database} (w : Database) :
    Commits (do
      update f
      Sql.commit
      pure () : Method Unit) w (silent (f w)) := by
  have hbind : f w >>= (fun db => .ok ((), db)) = silent (f w) := by
    cases f w <;> rfl
  rw [← hbind]
  apply commits_update
  intro last
  exact Commits.commit () last

theorem enrollParsed_refines (store : CredentialStore) (parsed : Parsed)
    (written : Except Exn Unit) (nowMs : Int) (db : Database) :
    Refines (Connection.enrollParsed store parsed written nowMs) db
      (renamed (integrityAs "certificate is already enrolled")
        (db.enroll store parsed written nowMs)) := by
  apply Refines.renaming
  apply Commits.transaction
  apply Commits.execute_bind
  intro generation staged
  apply Commits.compute
  intro _
  have hplaced : Yields (update (fun db =>
      .ok (db.setPaths generation (store.generationDirectory generation)))) staged
        (.ok ((), staged.setPaths generation (store.generationDirectory generation))) :=
    Yields.execute rfl
  apply Commits.bind hplaced
  apply commits_update
  intro last
  exact Commits.commit generation last

theorem activateRow_refines (store : CredentialStore) (generation nowMs : Int)
    (db : Database) :
    Refines (Connection.activateRow store generation nowMs) db
      (silent (db.activate store generation nowMs)) := by
  unfold Database.activate silent
  rw [map_bind]
  apply Commits.transaction
  apply Commits.select_bind
  apply Commits.compute
  intro row
  rw [map_bind]
  apply Commits.select_bind
  apply Commits.compute
  intro _
  rw [map_bind]
  apply commits_update
  intro retired
  rw [map_bind]
  apply commits_update
  intro activated
  exact commits_last _

theorem revokeNormal_refines (store : CredentialStore) (fingerprint reason : String)
    (nowMs : Int) (db : Database) :
    Refines (Connection.revokeNormal store fingerprint reason nowMs) db
      (renamed (integrityAs "certificate is already revoked")
        (silent (db.revoke store fingerprint reason nowMs))) := by
  apply Refines.renaming
  unfold Database.revoke silent
  rw [map_bind]
  apply Commits.transaction
  apply commits_update
  intro inserted
  rw [map_bind]
  apply commits_update
  intro retired
  exact commits_last _

/-!
## Histories

A history is the session of the shared database together with what its calls have done, each
call that has returned once.
-/

inductive Operation where
  | enroll (files : Except Exn Bundle) (written : Except Exn Unit) (nowMs : Int)
  | activate (generation nowMs : Int)
  | revoke (fingerprint reason : String) (nowMs : Int)

structure Call where
  store : CredentialStore
  operation : Operation

inductive Done where
  | enrolled (generation : Int) (fingerprint : String) (nowMs : Int)
  | activated (generation nowMs : Int)
  | revoked (fingerprint reason : String) (nowMs : Int)

def Done.event (robotId : String) : Done -> EventRow
  | .enrolled generation fingerprint nowMs =>
      { robotId := robotId, eventType := "enrolled", occurredAtMs := nowMs,
        detailJson := enrolledDetail generation fingerprint }
  | .activated generation nowMs =>
      { robotId := robotId, eventType := "activated", occurredAtMs := nowMs,
        detailJson := activatedDetail generation }
  | .revoked fingerprint reason nowMs =>
      { robotId := robotId, eventType := "revoked", occurredAtMs := nowMs,
        detailJson := revokedDetail fingerprint reason }

structure Entry where
  robotId : String
  done : Done

def Entry.event (entry : Entry) : EventRow :=
  entry.done.event entry.robotId

theorem Entry.event_robotId (entry : Entry) : entry.event.robotId = entry.robotId := by
  rcases entry with ⟨robotId, done⟩
  cases done <;> rfl

section

variable {Certificate Key : Type} (library : Library Certificate Key)

/-- The method of a call, with the generation that it returns. -/
def method (call : Call) : Method (Option CredentialGeneration) :=
  match call.operation with
  | .enroll files written nowMs => do
      let generation <- Connection.enroll library call.store files written nowMs
      pure (some generation)
  | .activate generation nowMs => do
      let generation <- Connection.activate call.store generation nowMs
      pure (some generation)
  | .revoke fingerprint reason nowMs => do
      Connection.revoke call.store fingerprint reason nowMs
      pure none

def doneBy (operation : Operation) (result : Option CredentialGeneration) : List Done :=
  match operation with
  | .enroll _ _ nowMs =>
      result.toList.map (fun generation =>
        .enrolled generation.generation generation.fingerprintSha256 nowMs)
  | .activate generation nowMs => [.activated generation nowMs]
  | .revoke fingerprint reason nowMs =>
      (normalFingerprint fingerprint).toOption.toList.map (fun fingerprint =>
        .revoked fingerprint reason nowMs)

structure History where
  session : Session Database
  log : List Entry

namespace History

def initial : History where
  session := .idle Database.empty
  log := []

def perform (history : History) (call : Call) : History :=
  match method library call history.session with
  | .ok result session =>
      { session := session
        log := history.log ++ (doneBy call.operation result).map (fun done =>
          { robotId := call.store.robotId, done := done }) }
  | .error _ session => { history with session := session }

def replay (calls : List Call) : History :=
  calls.foldl (perform library) initial

end History

end

end Ump.Credentials
