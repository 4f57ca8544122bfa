import Ump.Credentials.Soundness
import Ump.Foundation.FileTree

/-!
# Enrolments and the files

## The call

`enroll` writes its copies of the bundle while its transaction is open. The file system is a
part of the state here. What else it may answer, and what the statements may raise beside
what the database knows, are inputs of the call.
-/

namespace Ump.Credentials

open Foundation

abbrev Files := FileTree String Bytes

structure World where
  files : Files
  db : Database

/-- The failures of one call, in the order of its steps: `BEGIN` and the `INSERT`, the files, the
statements from the `UPDATE` to `COMMIT`, `ROLLBACK`, what `rmtree` cannot remove, and the
reading of the new row after `COMMIT`. A write that fails may leave some of the bytes. -/
structure Faults where
  begins : Except Exn Unit
  inserts : Except Exn Unit
  mkdir : Except Exn Unit
  writeBytes : String -> Except Exn Unit
  leaves : String -> Option Bytes
  chmod : String -> Except Exn Unit
  statements : Except Exn Unit
  rollback : Except Exn Unit
  kept : List (List String)
  readBack : Except Exn Unit

def Bundle.contents (bundle : Bundle) : List (String × Bytes) :=
  [("certificate.pem", bundle.certificate), ("private-key.pem", bundle.privateKey),
    ("ca.pem", bundle.ca)]

/-- `OSError`. -/
def osError (text : String) : Exn := .runtime text

def writeFile (files : Files) (directory : List String) (faults : Faults) (name : String)
    (content : Bytes) : Files × Except Exn Unit :=
  match faults.writeBytes name with
  | .error e =>
      match faults.leaves name with
      | none => (files, .error e)
      | some bytes => ((files.writeBytes? directory name bytes).getD files, .error e)
  | .ok () =>
      match files.writeBytes? directory name content with
      | none => (files, .error (osError "Is a directory"))
      | some written => (written, faults.chmod name)

def writeFiles (directory : List String) (faults : Faults) :
    Files -> List (String × Bytes) -> Files × Except Exn Unit
  | files, [] => (files, .ok ())
  | files, (name, content) :: rest =>
      match writeFile files directory faults name content with
      | (files, .error e) => (files, .error e)
      | (files, .ok ()) => writeFiles directory faults files rest

def writeBundle (files : Files) (root : List String) (name : String) (bundle : Bundle)
    (faults : Faults) : Files × Except Exn Unit :=
  match faults.mkdir with
  | .error e => (files, .error e)
  | .ok () =>
      match files.mkdir? root name with
      | none => (files, .error (osError "File exists"))
      | some made => writeFiles (root ++ [name]) faults made bundle.contents

def generationName (generation : Int) : String :=
  "generation-" ++ toString generation

/-- What the call raises once `ROLLBACK` has been tried. -/
def Faults.raised (faults : Faults) (e : Exn) : Exn :=
  match faults.rollback with
  | .error other => other
  | .ok () => integrityAs "certificate is already enrolled" e

/-- Without `ROLLBACK` the clean-up is not reached. -/
def cleanUp (files : Files) (directory : List String) (faults : Faults) : Files :=
  match faults.rollback with
  | .error _ => files
  | .ok () => files.removeTreeExcept faults.kept directory

/-- The `INSERT`, with the number of the new generation. -/
def insertGeneration (store : CredentialStore) (parsed : Parsed) (faults : Faults) (nowMs : Int)
    (db : Database) : Except Exn Int := do
  let staged <- db.stage store.robotId parsed nowMs
  faults.inserts
  .ok staged.1

/-- The transaction as far as the database goes, from the `INSERT` to `COMMIT`. -/
def commitGeneration (store : CredentialStore) (root : List String) (bundle : Bundle)
    (parsed : Parsed) (faults : Faults) (nowMs : Int) (w : World) (generation : Int) :
    Except Exn (Int × Database) :=
  w.db.enroll store parsed
    ((writeBundle w.files root (generationName generation) bundle faults).2.bind
      (fun _ => faults.statements)) nowMs

/-- The transaction of `enroll`, its clean-up, and the reading of the row. The credential
directory is at `root`. -/
def enrollParsed (store : CredentialStore) (root : List String) (bundle : Bundle)
    (parsed : Parsed) (faults : Faults) (nowMs : Int) (w : World) :
    World × Except Exn CredentialGeneration :=
  match faults.begins with
  | .error e => (w, .error e)
  | .ok () =>
      match insertGeneration store parsed faults nowMs w.db with
      | .error e => (w, .error (faults.raised e))
      | .ok generation =>
          let name := generationName generation
          let files := (writeBundle w.files root name bundle faults).1
          match commitGeneration store root bundle parsed faults nowMs w generation with
          | .error e =>
              ({ w with files := cleanUp files (root ++ [name]) faults },
                .error (faults.raised e))
          | .ok (generation, db) =>
              ({ files := files, db := db },
                faults.readBack.bind (fun _ => (db.row generation).map generationOf))

section

variable {Certificate Key : Type} (library : Library Certificate Key)

/-- `enroll`, where `read` is what reading the three files has given. -/
def enroll (store : CredentialStore) (root : List String) (read : Except Exn Bundle)
    (faults : Faults) (nowMs : Int) (w : World) : World × Except Exn CredentialGeneration :=
  match read with
  | .error e => (w, .error e)
  | .ok bundle =>
      match validateBundle library store.robotId bundle nowMs with
      | .error e => (w, .error e)
      | .ok parsed => enrollParsed store root bundle parsed faults nowMs w

/-- The bundle is valid, and the transaction gets to the files of the generation. -/
structure Reaches (store : CredentialStore) (read : Except Exn Bundle) (faults : Faults)
    (nowMs : Int) (w : World) (bundle : Bundle) (parsed : Parsed) (generation : Int) : Prop where
  read : read = .ok bundle
  valid : validateBundle library store.robotId bundle nowMs = .ok parsed
  begins : faults.begins = .ok ()
  inserted : insertGeneration store parsed faults nowMs w.db = .ok generation

/-- The directory of the generation is there already, and the clean-up removes some of it. -/
def Collides (store : CredentialStore) (root : List String) (read : Except Exn Bundle)
    (faults : Faults) (nowMs : Int) (w : World) : Prop :=
  exists bundle parsed generation,
    Reaches library store read faults nowMs w bundle parsed generation ∧
    w.files.node (root ++ [generationName generation]) = some .directory ∧
    faults.rollback = .ok () ∧
    exists location, root ++ [generationName generation] <+: location ∧
      w.files.node location ≠ none ∧ w.files.holdsAny faults.kept location = false

/-- Every step up to `COMMIT` succeeds, and the new row cannot be read back. -/
def Unread (store : CredentialStore) (root : List String) (read : Except Exn Bundle)
    (faults : Faults) (nowMs : Int) (w : World) : Prop :=
  exists bundle parsed generation,
    Reaches library store read faults nowMs w bundle parsed generation ∧
    (commitGeneration store root bundle parsed faults nowMs w generation).isOk = true ∧
    faults.readBack.isOk = false

end

/-- The database is the same, and so is whatever was in the file system. -/
structure Unchanged (w w' : World) : Prop where
  db : w'.db = w.db
  files : FileTree.Spares w.files w'.files

theorem Unchanged.refl (w : World) : Unchanged w w :=
  ⟨rfl, FileTree.Spares.refl w.files⟩

/-!
## What the files keep
-/

open FileTree

theorem sameOutside_writeFile (files : Files) (directory : List String) (faults : Faults)
    (name : String) (content : Bytes) :
    SameOutside directory files (writeFile files directory faults name content).1 := by
  have hput : forall bytes written, files.writeBytes? directory name bytes = some written ->
      SameOutside directory files written :=
    fun bytes written h => sameOutside_put h (List.prefix_append directory [name])
  unfold writeFile
  split
  · split
    · exact SameOutside.refl directory files
    · next bytes _ =>
        cases hwritten : files.writeBytes? directory name bytes with
        | none => exact SameOutside.refl directory files
        | some written => exact hput bytes written hwritten
  · split
    · exact SameOutside.refl directory files
    · next written hwritten => exact hput content written hwritten

theorem sameOutside_writeFiles (directory : List String) (faults : Faults) (files : Files)
    (contents : List (String × Bytes)) :
    SameOutside directory files (writeFiles directory faults files contents).1 := by
  induction contents generalizing files with
  | nil => exact SameOutside.refl directory files
  | cons first rest ih =>
      rcases first with ⟨name, content⟩
      have hfirst := sameOutside_writeFile files directory faults name content
      unfold writeFiles
      cases hwrite : writeFile files directory faults name content with
      | mk written result =>
          rw [hwrite] at hfirst
          cases result with
          | error e => exact hfirst
          | ok _ => exact hfirst.trans (ih written)

theorem writeBundle_of_node {files : Files} {root : List String} {name : String}
    (h : files.node (root ++ [name]) ≠ none) (bundle : Bundle) (faults : Faults) :
    exists e, writeBundle files root name bundle faults = (files, .error e) := by
  unfold writeBundle
  cases faults.mkdir with
  | error e => exact ⟨e, rfl⟩
  | ok _ =>
      rw [mkdir?_of_node h]
      exact ⟨_, rfl⟩

theorem sameOutside_writeBundle (files : Files) (root : List String) (name : String)
    (bundle : Bundle) (faults : Faults) :
    SameOutside (root ++ [name]) files (writeBundle files root name bundle faults).1 := by
  unfold writeBundle
  cases faults.mkdir with
  | error e => exact SameOutside.refl _ files
  | ok _ =>
      cases hmade : files.mkdir? root name with
      | none => exact SameOutside.refl _ files
      | some made =>
          exact (sameOutside_mkdir hmade).2.trans
            (sameOutside_writeFiles (root ++ [name]) faults made bundle.contents)

theorem sameOutside_cleanUp (files : Files) (directory : List String) (faults : Faults) :
    SameOutside directory files (cleanUp files directory faults) := by
  unfold cleanUp
  cases faults.rollback with
  | error e => exact SameOutside.refl directory files
  | ok _ => exact sameOutside_removeTreeExcept files faults.kept directory

theorem spares_cleanUp {files : Files} {root : List String} {name : String} {faults : Faults}
    (h : files.node (root ++ [name]) = some .directory -> faults.rollback = .ok () ->
      forall location, root ++ [name] <+: location -> files.node location ≠ none ->
        files.holdsAny faults.kept location = true)
    (bundle : Bundle) :
    Spares files (cleanUp (writeBundle files root name bundle faults).1 (root ++ [name])
      faults) := by
  cases hnode : files.node (root ++ [name]) with
  | none =>
      apply spares_of_sameOutside hnode
      exact (sameOutside_writeBundle files root name bundle faults).trans
        (sameOutside_cleanUp _ _ faults)
  | some node =>
      rcases writeBundle_of_node (by rw [hnode]; exact Option.some_ne_none node) bundle faults
        with ⟨e, he⟩
      rw [he]
      unfold cleanUp
      cases hrollback : faults.rollback with
      | error e => exact Spares.refl files
      | ok _ =>
          by_cases hdirectory : files.node (root ++ [name]) = some .directory
          · exact (spares_removeTreeExcept_iff hdirectory).mpr (h hdirectory hrollback)
          · rw [removeTreeExcept_of_node faults.kept hdirectory]
            exact Spares.refl files

/-!
## Enrolments that raise
-/

section

variable {Certificate Key : Type} {library : Library Certificate Key} {store : CredentialStore}
  {root : List String} {read : Except Exn Bundle} {faults : Faults} {nowMs : Int} {w : World}

theorem generation_of_stage {db db' : Database} {robotId : String} {parsed : Parsed}
    {generation : Int} (h : db.stage robotId parsed nowMs = .ok (generation, db')) :
    generation = db.lastGeneration + 1 := by
  rcases bind_eq_ok.mp h with ⟨_, _, h⟩
  rcases bind_eq_ok.mp h with ⟨_, _, h⟩
  rcases bind_eq_ok.mp h with ⟨_, _, h⟩
  rcases bind_eq_ok.mp h with ⟨_, _, h⟩
  dsimp only at h
  split at h
  · cases h
    rfl
  · cases h

/-- What the statements come to when they are run one after the other. -/
def progress (root : List String) (bundle : Bundle) (faults : Faults) (w : World) :
    Except Exn Unit := do
  faults.begins
  faults.inserts
  (writeBundle w.files root (generationName (w.db.lastGeneration + 1)) bundle faults).2
  faults.statements

theorem enroll_of_error (db : Database) (store : CredentialStore) (parsed : Parsed) (e : Exn)
    (nowMs : Int) : exists raised, db.enroll store parsed (.error e) nowMs = .error raised := by
  unfold Database.enroll
  cases db.stage store.robotId parsed nowMs with
  | error other => exact ⟨other, rfl⟩
  | ok staged => exact ⟨e, rfl⟩

theorem db_enrollParsed (bundle : Bundle) (parsed : Parsed) :
    (enrollParsed store root bundle parsed faults nowMs w).1.db =
      match w.db.enroll store parsed (progress root bundle faults w) nowMs with
      | .ok (_, db) => db
      | .error _ => w.db := by
  unfold enrollParsed
  cases hbegins : faults.begins with
  | error e =>
      have hprogress : progress root bundle faults w = .error e := by
        unfold progress
        rw [hbegins]
        rfl
      rcases enroll_of_error w.db store parsed e nowMs with ⟨raised, hraised⟩
      rw [hprogress, hraised]
  | ok _ =>
      unfold insertGeneration
      cases hstage : w.db.stage store.robotId parsed nowMs with
      | error e =>
          have hraises : forall written, w.db.enroll store parsed written nowMs = .error e := by
            intro written
            unfold Database.enroll
            rw [hstage]
            rfl
          rw [hraises]
          rfl
      | ok staged =>
          rcases staged with ⟨generation, staged⟩
          cases hinserts : faults.inserts with
          | error e =>
              have hprogress : progress root bundle faults w = .error e := by
                unfold progress
                rw [hbegins, hinserts]
                rfl
              rcases enroll_of_error w.db store parsed e nowMs with ⟨raised, hraised⟩
              rw [hprogress, hraised]
              rfl
          | ok _ =>
              obtain rfl := generation_of_stage hstage
              have hcommit : commitGeneration store root bundle parsed faults nowMs w
                  (w.db.lastGeneration + 1) =
                  w.db.enroll store parsed (progress root bundle faults w) nowMs := by
                unfold progress
                rw [hbegins, hinserts]
                rfl
              rw [← hcommit]
              dsimp only [bind, Except.bind]
              cases commitGeneration store root bundle parsed faults nowMs w
                (w.db.lastGeneration + 1) with
              | error e => rfl
              | ok result => rfl

/-- The call and the method on the connection do the same to the database. -/
theorem enroll_refines (library : Library Certificate Key) (store : CredentialStore)
    (root : List String) (bundle : Bundle) (faults : Faults) (nowMs : Int) (w : World) :
    sessionAfter (Connection.enroll library store (.ok bundle) (progress root bundle faults w)
      nowMs (.idle w.db)) =
      .idle (enroll library store root (.ok bundle) faults nowMs w).1.db := by
  unfold Connection.enroll enroll
  rw [goesOn_of_compute rfl]
  dsimp only
  cases hparsed : validateBundle library store.robotId bundle nowMs with
  | error e => rfl
  | ok parsed =>
      rw [goesOn_of_compute rfl]
      dsimp only
      rw [db_enrollParsed]
      have hrefines := enrollParsed_refines store parsed (progress root bundle faults w) nowMs w.db
      cases henroll : w.db.enroll store parsed (progress root bundle faults w) nowMs with
      | error e =>
          rw [henroll] at hrefines
          rw [bind_of_error hrefines]
          rfl
      | ok result =>
          rcases enrolled_row henroll with ⟨row, hrow, _⟩
          rw [henroll] at hrefines
          rw [bind_of_ok hrefines, get_eq_ok hrow]
          rfl

theorem changed_of_commit {parsed : Parsed} {written : Except Exn Unit} {generation : Int}
    {db : Database} (h : w.db.enroll store parsed written nowMs = .ok (generation, db)) :
    db ≠ w.db := by
  rcases bind_eq_ok.mp h with ⟨⟨staged, staging⟩, hstage, h⟩
  rcases bind_eq_ok.mp h with ⟨_, _, h⟩
  rcases bind_eq_ok.mp h with ⟨last, hevent, h⟩
  rcases stage_eq_ok hstage with ⟨row, _, _, _, _, _, _, hevents, _⟩
  cases h
  intro hsame
  have hlength := congrArg (fun db : Database => db.events.length) hsame
  rw [event_eq_ok hevent] at hlength
  dsimp only [Database.setPaths] at hlength
  rw [hevents, List.length_append] at hlength
  simp at hlength

theorem unchanged_of_error {bundle : Bundle} {parsed : Parsed} {e : Exn}
    (hvalid : validateBundle library store.robotId bundle nowMs = .ok parsed)
    (hfree : ¬ Collides library store root (.ok bundle) faults nowMs w)
    (hread : ¬ Unread library store root (.ok bundle) faults nowMs w)
    (h : (enrollParsed store root bundle parsed faults nowMs w).2 = .error e) :
    Unchanged w (enrollParsed store root bundle parsed faults nowMs w).1 := by
  unfold enrollParsed at h ⊢
  cases hbegins : faults.begins with
  | error e => exact Unchanged.refl w
  | ok _ =>
      cases hinsert : insertGeneration store parsed faults nowMs w.db with
      | error e => exact Unchanged.refl w
      | ok generation =>
          have hreaches : Reaches library store (.ok bundle) faults nowMs w bundle parsed
              generation := ⟨rfl, hvalid, hbegins, hinsert⟩
          rw [hbegins] at h
          dsimp only at h ⊢
          rw [hinsert] at h
          dsimp only at h ⊢
          cases hcommit : commitGeneration store root bundle parsed faults nowMs w generation with
          | error e =>
              refine ⟨rfl, spares_cleanUp ?_ bundle⟩
              intro hdirectory hrollback location hin hsome
              by_contra hkept
              exact hfree ⟨bundle, parsed, generation, hreaches, hdirectory, hrollback, location,
                hin, hsome, Bool.eq_false_iff.mpr hkept⟩
          | ok result =>
              -- the transaction has been committed, and the row is read back
              rcases result with ⟨enrolled, db⟩
              rw [hcommit] at h
              rcases enrolled_row hcommit with ⟨row, hrow, _⟩
              cases hback : faults.readBack with
              | error e =>
                  exact absurd ⟨bundle, parsed, generation, hreaches, by rw [hcommit]; rfl,
                    by rw [hback]; rfl⟩ hread
              | ok _ =>
                  rw [hback] at h
                  dsimp only [Except.bind] at h
                  rw [hrow] at h
                  cases h

theorem changed_of_collides (h : Collides library store root read faults nowMs w) :
    (exists e, (enroll library store root read faults nowMs w).2 = .error e) ∧
      ¬ Unchanged w (enroll library store root read faults nowMs w).1 := by
  rcases h with ⟨bundle, parsed, generation, hreaches, hdirectory, hrollback, location, hin,
    hsome, hkept⟩
  rcases writeBundle_of_node (by rw [hdirectory]; exact Option.some_ne_none _) bundle faults
    with ⟨e, he⟩
  rcases enroll_of_error w.db store parsed e nowMs with ⟨raised, hraised⟩
  have hcommit : commitGeneration store root bundle parsed faults nowMs w generation =
      .error raised := by
    unfold commitGeneration
    rw [he]
    exact hraised
  unfold enroll
  rw [hreaches.read]
  dsimp only
  rw [hreaches.valid]
  unfold enrollParsed
  dsimp only
  rw [hreaches.begins]
  dsimp only
  rw [hreaches.inserted]
  dsimp only
  rw [hcommit, he]
  refine ⟨⟨_, rfl⟩, ?_⟩
  intro hunchanged
  have hspares := hunchanged.files
  dsimp only at hspares
  unfold cleanUp at hspares
  rw [hrollback] at hspares
  have hstays := (spares_removeTreeExcept_iff hdirectory).mp hspares location hin hsome
  rw [hkept] at hstays
  cases hstays

theorem changed_of_unread (h : Unread library store root read faults nowMs w) :
    (exists e, (enroll library store root read faults nowMs w).2 = .error e) ∧
      ¬ Unchanged w (enroll library store root read faults nowMs w).1 := by
  rcases h with ⟨bundle, parsed, generation, hreaches, hcommit, hback⟩
  unfold enroll
  rw [hreaches.read]
  dsimp only
  rw [hreaches.valid]
  unfold enrollParsed
  dsimp only
  rw [hreaches.begins]
  dsimp only
  rw [hreaches.inserted]
  dsimp only
  cases hresult : commitGeneration store root bundle parsed faults nowMs w generation with
  | error e =>
      rw [hresult] at hcommit
      cases hcommit
  | ok result =>
      rcases result with ⟨enrolled, db⟩
      cases hread : faults.readBack with
      | ok _ =>
          rw [hread] at hback
          cases hback
      | error e =>
          refine ⟨⟨e, rfl⟩, ?_⟩
          intro hunchanged
          exact changed_of_commit hresult hunchanged.db

/-- An enrolment that raises leaves the database and the files as they were, unless the clean-up
removes some of a directory that was there already, or the row that it has committed cannot be
read back. -/
theorem failed_enroll_unchanged_iff (library : Library Certificate Key) (store : CredentialStore)
    (root : List String) (read : Except Exn Bundle) (faults : Faults) (nowMs : Int) (w : World) :
    ((exists e, (enroll library store root read faults nowMs w).2 = .error e) ->
      Unchanged w (enroll library store root read faults nowMs w).1) <->
      ¬ Collides library store root read faults nowMs w ∧
        ¬ Unread library store root read faults nowMs w := by
  constructor
  · intro h
    constructor
    · intro hcollides
      exact (changed_of_collides hcollides).2 (h (changed_of_collides hcollides).1)
    · intro hunread
      exact (changed_of_unread hunread).2 (h (changed_of_unread hunread).1)
  · rintro ⟨hfree, hback⟩ ⟨e, he⟩
    unfold enroll at he ⊢
    cases read with
    | error e => exact Unchanged.refl w
    | ok bundle =>
        dsimp only at he ⊢
        cases hparsed : validateBundle library store.robotId bundle nowMs with
        | error e => exact Unchanged.refl w
        | ok parsed =>
            rw [hparsed] at he
            exact unchanged_of_error hparsed hfree hback he

end

/-!
## A directory that was left behind
-/

def leftBehind : Files :=
  ((((FileTree.root.mkdir? [] "managed").bind
    (fun files => files.mkdir? ["managed"] "generation-1")).bind
    (fun files => files.writeBytes? ["managed", "generation-1"] "private-key.pem" [1]))).getD
    FileTree.root

def noFaults : Faults where
  begins := .ok ()
  inserts := .ok ()
  mkdir := .ok ()
  writeBytes _ := .ok ()
  leaves _ := none
  chmod _ := .ok ()
  statements := .ok ()
  rollback := .ok ()
  kept := []
  readBack := .ok ()

/-- The first enrolment raises, and the key is gone. -/
theorem failed_enroll_removes_key :
    (enroll patrolLibrary patrolStore ["managed"] (.ok ⟨[], [], []⟩) noFaults 20
        ⟨leftBehind, Database.empty⟩).2.toOption.isNone = true ∧
      leftBehind.node ["managed", "generation-1", "private-key.pem"] = some (.file [1]) ∧
      (enroll patrolLibrary patrolStore ["managed"] (.ok ⟨[], [], []⟩) noFaults 20
        ⟨leftBehind, Database.empty⟩).1.files.node
          ["managed", "generation-1", "private-key.pem"] = none :=
  ⟨rfl, rfl, rfl⟩

end Ump.Credentials
