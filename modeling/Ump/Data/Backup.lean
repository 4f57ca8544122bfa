import Ump.Codec.Indented
import Ump.Foundation.Directories
import Ump.Protocol.EnvelopeCodec

/-!
# Backups of the stores

## Paths

The file system is a tree of named nodes. Where a symbolic link leads is a parameter. Paths that
a command is given are resolved already. SQLite may leave a `-wal` and a `-shm` file beside a
database that it has only read.
-/

namespace Ump.Data

open Foundation Codec Wire

abbrev Bytes := List UInt8

abbrev Location := List Points

abbrev Files := FileTree Points Bytes

def up : Points :=
  points ".."

def isPlain : CodePoint -> Bool
  | .char c => decide (c ≠ '/') && decide (c ≠ '\x00')
  | .surrogate _ => false

def encodable (text : Points) : Bool :=
  text.all (fun p => !isSurrogate p && decide (p ≠ .char '\x00'))

/-- The names in a path, without those that `pathlib` drops. -/
def parts (text : Points) : Location :=
  (text.splitOn (.char '/')).filter (fun part => decide (part ≠ []) && decide (part ≠ points "."))

/-- Where a path begins: at the root, or where it is joined to. -/
def start (base : Location) (text : Points) : Location :=
  if text.head? = some (.char '/') then [] else base

/-- `(base / text).resolve()`. -/
def resolved (leadsTo : Location -> Location) (t : Files) (base : Location) (text : Points) :
    Except Exn Location := do
  refuseWhen (!encodable text) "embedded null character in path"
  .ok (t.resolve leadsTo up (start base text) (parts text))

/-- `str(path)`. -/
def pathText (location : Location) : Points :=
  if location = [] then points "/" else location.flatMap (fun name => .char '/' :: name)

/-- The two files that SQLite keeps beside a database. -/
structure Sides where
  wal : Option Bytes
  shm : Option Bytes

/-- Python and SQLite. The last two functions are `hexdigest()` of a file's SHA-256, and the first
row of `PRAGMA integrity_check` on a database, with the files that are beside it afterwards. -/
structure Library where
  floats : FloatLibrary
  shown : Value -> String
  isIdentifier : Points -> Bool
  plain : forall text, isIdentifier text = true -> text.all isPlain = true
  sha256 : Bytes -> String
  look : Location -> Bytes -> Sides -> Except Exn String × Sides

variable (library : Library)

def Library.shownPath (location : Location) : String :=
  library.shown (.str (pathText location))

/-!
## Files beside a database
-/

def walSuffix : Points :=
  points "-wal"

def shmSuffix : Points :=
  points "-shm"

def beside (suffix : Points) (store : Location) : Location :=
  store.dropLast ++ [store.getLast?.getD [] ++ suffix]

def sidesAt (t : Files) (store : Location) : Sides where
  wal := t.bytesAt? (beside walSuffix store)
  shm := t.bytesAt? (beside shmSuffix store)

def leaveSide (t : Files) (location : Location) : Option Bytes -> Files
  | some bytes => t.overwrite location bytes
  | none => t

/-- The tree after SQLite has read a database. -/
def opened (t : Files) (store : Location) (sides : Sides) : Files :=
  leaveSide (leaveSide t (beside walSuffix store) sides.wal) (beside shmSuffix store) sides.shm

def sidesOf (stores : List Location) (other : Location) : Bool :=
  stores.any (fun store =>
    decide (other = beside walSuffix store) || decide (other = beside shmSuffix store))

/-!
## Databases
-/

def isRole (role : Points) : Bool :=
  library.isIdentifier (role.map (fun p => if p = .char '-' then .char '_' else p))

structure Databases where
  entries : List (Points × Location)
  distinct : (entries.map Prod.fst).Nodup
  roles : forall entry, entry ∈ entries -> isRole library entry.1 = true

variable {library}

def Databases.empty : Databases library where
  entries := []
  distinct := List.nodup_nil
  roles _ h := by cases h

def Databases.add (databases : Databases library) (role : Points) (path : Location)
    (h : role ∉ databases.entries.map Prod.fst ∧ isRole library role = true) :
    Databases library where
  entries := databases.entries ++ [(role, path)]
  distinct := by
    rw [List.map_append, List.nodup_append]
    exact ⟨databases.distinct, List.nodup_singleton role, by
      intro a ha b hb hsame
      rw [List.map_singleton, List.mem_singleton] at hb
      rw [hsame, hb] at ha
      exact h.1 ha⟩
  roles entry hentry := by
    rcases List.mem_append.mp hentry with hold | hnew
    · exact databases.roles entry hold
    · rw [List.mem_singleton.mp hnew]
      exact h.2

variable (library)

/-- `partition("=")`, unless there is no separator. -/
def partition? (text : Points) : Option (Points × Points) :=
  match text.span (fun p => decide (p ≠ .char '=')) with
  | (role, _ :: rawPath) => some (role, rawPath)
  | (_, []) => none

def parseDatabase (leadsTo : Location -> Location) (t : Files) (cwd : Location)
    (result : Databases library) (value : Points) : Except Exn (Databases library) :=
  match partition? value with
  | none => .error (.value "database must use role=/path/to/store.sqlite3")
  | some (role, rawPath) =>
      if role = [] ∨ rawPath = [] then
        .error (.value "database must use role=/path/to/store.sqlite3")
      else if h : role ∉ result.entries.map Prod.fst ∧ isRole library role = true then do
        let path ← resolved leadsTo t cwd rawPath
        refuseWhen (t.bytesAt? path).isNone ("database does not exist: " ++ library.shownPath path)
        .ok (result.add role path h)
      else
        .error (.value ("invalid or duplicate database role: " ++ library.shown (.str role)))

def parseDatabases (leadsTo : Location -> Location) (t : Files) (cwd : Location)
    (values : List Points) : Except Exn (Databases library) := do
  let result ← values.foldlM (parseDatabase library leadsTo t cwd) .empty
  refuseWhen result.entries.isEmpty "at least one database is required"
  .ok result

/-!
## The manifest
-/

structure Record where
  role : Points
  file : Points
  sizeBytes : Nat
  sha256 : String
deriving DecidableEq

def Record.fields (record : Record) : Members :=
  [(points "role", .str record.role), (points "file", .str record.file),
    (points "size_bytes", .int record.sizeBytes),
    (points "sha256", .str (points record.sha256))]

structure Manifest where
  createdAtMs : Int
  databases : List Record
deriving DecidableEq

def profile : Points :=
  points "ump-data-backup/v1"

def Manifest.fields (manifest : Manifest) : Members :=
  [(points "profile", .str profile), (points "created_at_ms", .int manifest.createdAtMs),
    (points "databases", .arr (manifest.databases.map (fun record => .obj record.fields)))]

def manifestName : Points :=
  points "manifest.json"

def filename (role : Points) : Points :=
  role ++ points ".sqlite3"

/-!
## Creation

An exception may come with the bytes that it has left in the file that was being written.
-/

abbrev Fault := Exn × Option Bytes

/-- What one call of `create_backup` meets: the clock, what SQLite copies from each store and
leaves beside it, whether the manifest can be written, and what `rmtree` cannot remove. -/
structure Surroundings where
  nowMs : Int
  snapshot : Points × Location -> Except Fault Bytes
  sides : Location -> Sides
  fault : Option Fault
  kept : List Location

def left (t : Files) (location : Location) : Option Bytes -> Files
  | some bytes => (t.writeAt? location bytes).getD t
  | none => t

def sortedEntries (entries : List (Points × Location)) : List (Points × Location) :=
  entries.insertionSort (fun a b => codes a.1 ≤ codes b.1)

def recordOf (role : Points) (bytes : Bytes) : Record where
  role := role
  file := filename role
  sizeBytes := bytes.length
  sha256 := library.sha256 bytes

/-- The copy is closed, so that nothing is beside it. -/
def copyDatabase (around : Surroundings) (destination : Location) (entry : Points × Location)
    (t : Files) : Except Exn Record × Files :=
  match around.snapshot entry with
  | .error (e, bytes) => (.error e, left t (destination ++ [filename entry.1]) bytes)
  | .ok bytes =>
      match t.writeAt? (destination ++ [filename entry.1]) bytes with
      | none => (.error (.runtime "unable to open database file"), t)
      | some written =>
          match (library.look (destination ++ [filename entry.1]) bytes ⟨none, none⟩).1 with
          | .error e => (.error e, written)
          | .ok result =>
              if result = "ok" then (.ok (recordOf library entry.1 bytes), written)
              else
                (.error (.value ("backup integrity failed for " ++
                  library.shown (.str entry.1) ++ ": " ++ result)), written)

def backupDatabase (around : Surroundings) (destination : Location) (entry : Points × Location)
    (t : Files) : Except Exn Record × Files :=
  copyDatabase library around destination entry (opened t entry.2 (around.sides entry.2))

def backupDatabases (around : Surroundings) (destination : Location) :
    List (Points × Location) -> Files -> Except Exn (List Record) × Files
  | [], t => (.ok [], t)
  | entry :: rest, t =>
      match backupDatabase library around destination entry t with
      | (.error e, t') => (.error e, t')
      | (.ok record, t') =>
          match backupDatabases around destination rest t' with
          | (.error e, t'') => (.error e, t'')
          | (.ok records, t'') => (.ok (record :: records), t'')

def writeManifest (fault : Option Fault) (location : Location) (manifest : Manifest) (t : Files) :
    Except Exn Unit × Files :=
  match (indentedText (.obj manifest.fields)).bind textBytes with
  | none => (.error (.value "Exceeds the limit for integer string conversion"), t)
  | some encoded =>
      match fault with
      | some (e, bytes) => (.error e, left t location bytes)
      | none =>
          match t.writeAt? location encoded with
          | none => (.error (.runtime "the manifest cannot be opened"), t)
          | some written => (.ok (), written)

/-- The body of the `try` statement. -/
def fillBackup (around : Surroundings) (databases : Databases library) (destination : Location)
    (t : Files) : Except Exn (Manifest × Location) × Files :=
  match backupDatabases library around destination (sortedEntries databases.entries) t with
  | (.error e, t') => (.error e, t')
  | (.ok records, t') =>
      match writeManifest around.fault (destination ++ [manifestName])
          { createdAtMs := around.nowMs, databases := records } t' with
      | (.error e, t'') => (.error e, t'')
      | (.ok (), t'') =>
          (.ok ({ createdAtMs := around.nowMs, databases := records },
            destination ++ [manifestName]), t'')

def orRemove (kept : List Location) (destination : Location) :
    Except Exn result × Files -> Except Exn result × Files
  | (.error e, t) => (.error e, t.removeTreeExcept kept destination)
  | (.ok r, t) => (.ok r, t)

def createBackup (around : Surroundings) (t : Files) (databases : Databases library)
    (destination : Location) : Except Exn (Manifest × Location) × Files :=
  if (t.node destination).isSome then
    (.error (.value ("backup output already exists: " ++ library.shownPath destination)), t)
  else
    match t.mkdirs? destination with
    | none => (.error (.runtime "the directory cannot be made"), t)
    | some made =>
        orRemove around.kept destination (fillBackup library around databases destination made)

def backupCommand (leadsTo : Location -> Location) (around : Surroundings) (t : Files)
    (cwd : Location) (values : List Points) (destination : Location) :
    Except Exn (Manifest × Location) × Files :=
  match parseDatabases library leadsTo t cwd values with
  | .error e => (.error e, t)
  | .ok databases => createBackup library around t databases destination

/-!
## Names
-/

theorem ofText_of_plain {text : Points} (h : forall p, p ∈ text -> isSurrogate p = false) :
    exists characters, text = ofText characters := by
  induction text with
  | nil => exact ⟨[], rfl⟩
  | cons p rest ih =>
      rcases ih (fun q hq => h q (List.mem_cons_of_mem p hq)) with ⟨characters, rfl⟩
      cases p with
      | char c => exact ⟨c :: characters, rfl⟩
      | surrogate n => cases h _ List.mem_cons_self

theorem isPlain_iff {p : CodePoint} : isPlain p = true <->
    isSurrogate p = false ∧ p ≠ .char '/' ∧ p ≠ .char '\x00' := by
  cases p with
  | char c => simp [isPlain, isSurrogate]
  | surrogate n => simp [isPlain, isSurrogate]

variable {library}

theorem plain_of_isRole {role : Points} (h : isRole library role = true) :
    role.all isPlain = true := by
  have hreplaced := library.plain _ h
  rw [List.all_map] at hreplaced
  apply List.all_eq_true.mpr
  intro p hp
  have hplain := List.all_eq_true.mp hreplaced p hp
  rw [Function.comp_apply] at hplain
  split at hplain
  · next hhyphen =>
      rw [hhyphen]
      decide
  · exact hplain

theorem plain_filename {role : Points} (h : role.all isPlain = true) :
    (filename role).all isPlain = true := by
  unfold filename
  rw [List.all_append, h]
  decide

theorem filename_injective {role other : Points} (h : filename role = filename other) :
    role = other :=
  List.append_cancel_right h

theorem length_filename (role : Points) : 8 ≤ (filename role).length := by
  unfold filename
  rw [List.length_append]
  exact Nat.le_add_left 8 role.length

theorem filename_ne_manifestName (role : Points) : filename role ≠ manifestName := by
  intro h
  have hthree : (points ".sqlite3").getLast? = some (.char '3') := by decide
  have hlast := congrArg List.getLast? h
  unfold filename at hlast
  rw [List.getLast?_append, hthree, Option.some_or] at hlast
  exact absurd hlast (by decide)

/-!
## What is given
-/

section

variable {destination : Location} {t t' : Files} {name : Points} {bytes : Bytes}
  {leadsTo : Location -> Location} {cwd : Location}

def Databases.Exist (databases : Databases library) (t : Files) : Prop :=
  forall entry, entry ∈ databases.entries -> (t.bytesAt? entry.2).isSome = true

theorem parseDatabase_ok {result next : Databases library} {value : Points}
    (h : parseDatabase library leadsTo t cwd result value = .ok next) (hexist : result.Exist t) :
    next.Exist t := by
  unfold parseDatabase at h
  split at h
  · cases h
  · next role rawPath _ =>
      split at h
      · cases h
      · split at h
        · next hrole =>
            rcases bind_eq_ok.mp h with ⟨path, _, h⟩
            rcases refuse_bind_iff.mp h with ⟨hfile, h⟩
            cases h
            intro entry hentry
            rcases List.mem_append.mp hentry with hold | hnew
            · exact hexist entry hold
            · rw [List.mem_singleton.mp hnew]
              simpa using hfile
        · cases h

theorem foldlM_parseDatabase {values : List Points} {result final : Databases library}
    (h : values.foldlM (parseDatabase library leadsTo t cwd) result = .ok final)
    (hexist : result.Exist t) : final.Exist t := by
  induction values generalizing result with
  | nil =>
      cases h
      exact hexist
  | cons value rest ih =>
      rw [List.foldlM_cons] at h
      rcases bind_eq_ok.mp h with ⟨next, hnext, h⟩
      exact ih h (parseDatabase_ok hnext hexist)

theorem parseDatabases_ok {values : List Points} {databases : Databases library}
    (h : parseDatabases library leadsTo t cwd values = .ok databases) :
    databases.entries ≠ [] ∧ databases.Exist t := by
  unfold parseDatabases at h
  rcases bind_eq_ok.mp h with ⟨result, hresult, h⟩
  rcases refuse_bind_iff.mp h with ⟨hsome, h⟩
  cases h
  refine ⟨?_, foldlM_parseDatabase hresult (fun _ hentry => (by cases hentry))⟩
  intro hnil
  rw [hnil] at hsome
  cases hsome

/-!
## What a backup writes
-/

def Covers (p : Location -> Bool) (store : Location) : Prop :=
  p (beside walSuffix store) = true ∧ p (beside shmSuffix store) = true

theorem touches_leaveSide {p : Location -> Bool} {location : Location} (hp : p location = true)
    (side : Option Bytes) : FileTree.Touches p t (leaveSide t location side) := by
  cases side with
  | none => exact FileTree.Touches.refl p t
  | some bytes => exact FileTree.touches_overwrite hp bytes

theorem touches_opened {p : Location -> Bool} {store : Location} (h : Covers p store)
    (sides : Sides) : FileTree.Touches p t (opened t store sides) :=
  (touches_leaveSide h.1 sides.wal).trans (touches_leaveSide h.2 sides.shm)

theorem covers_sidesOf {stores : List Location} {store : Location} (h : store ∈ stores) :
    Covers (sidesOf stores) store := by
  unfold sidesOf
  constructor
  · apply List.any_eq_true.mpr
    exact ⟨store, h, by rw [decide_eq_true rfl, Bool.true_or]⟩
  · apply List.any_eq_true.mpr
    exact ⟨store, h, by rw [decide_eq_true rfl, Bool.or_true]⟩

theorem outside_of_exists {store : Location} (hstore : t.node store ≠ none)
    (hnone : t.node destination = none) (first : Points) (rest : Location) (suffix : Points) :
    destination ++ first :: rest ≠ beside suffix store := by
  intro hsame
  have hparent := congrArg List.dropLast hsame
  unfold beside at hparent
  rw [List.dropLast_concat, List.dropLast_append_of_ne_nil (List.cons_ne_nil first rest)] at hparent
  have hin : destination <+: store.dropLast := ⟨_, hparent⟩
  rcases hin.trans (List.dropLast_prefix store) with ⟨below, rfl⟩
  exact hstore (FileTree.node_inside_of_none hnone below)

theorem sidesOf_outside {stores : List Location}
    (hstores : forall store, store ∈ stores -> t.node store ≠ none)
    (hnone : t.node destination = none) (first : Points) (rest : Location) :
    sidesOf stores (destination ++ first :: rest) = false := by
  unfold sidesOf
  apply List.any_eq_false.mpr
  intro store hstore
  rw [decide_eq_false (outside_of_exists (hstores store hstore) hnone first rest _),
    decide_eq_false (outside_of_exists (hstores store hstore) hnone first rest _)]
  exact Bool.false_ne_true

theorem onlyInside_writeAt (h : t.writeAt? (destination ++ [name]) bytes = some t') :
    t.OnlyInside destination t' := by
  rw [FileTree.writeAt?_append] at h
  exact FileTree.onlyInside_put h

theorem onlyInside_left (t : Files) (destination : Location) (name : Points)
    (bytes : Option Bytes) :
    t.OnlyInside destination (left t (destination ++ [name]) bytes) := by
  cases bytes with
  | none => exact FileTree.OnlyInside.refl destination t
  | some bytes =>
      show t.OnlyInside destination ((t.writeAt? (destination ++ [name]) bytes).getD t)
      cases hwrite : t.writeAt? (destination ++ [name]) bytes with
      | none => exact FileTree.OnlyInside.refl destination t
      | some written => exact onlyInside_writeAt hwrite

variable {around : Surroundings} {entry : Points × Location} {p : Location -> Bool}
  {entries : List (Points × Location)} {contents : Points -> Option Bytes}

/-- One database of a backup that has succeeded, with its bytes. -/
structure Copied (library : Library) (around : Surroundings) (destination : Location)
    (entry : Points × Location) (copy : Points × Bytes) : Prop where
  role : copy.1 = entry.1
  bytes : around.snapshot entry = .ok copy.2
  sound : (library.look (destination ++ [filename copy.1]) copy.2 ⟨none, none⟩).1 = .ok "ok"

theorem copyDatabase_inside {result : Except Exn Record}
    (h : copyDatabase library around destination entry t = (result, t')) :
    t.OnlyInside destination t' := by
  unfold copyDatabase at h
  split at h
  · cases h
    exact onlyInside_left t destination _ _
  · split at h
    · cases h
      exact FileTree.OnlyInside.refl destination t
    · next written hwrite =>
        have hinside := onlyInside_writeAt hwrite
        split at h
        · cases h
          exact hinside
        · split at h
          · cases h
            exact hinside
          · cases h
            exact hinside

theorem copyDatabase_ok {record : Record}
    (h : copyDatabase library around destination entry t = (.ok record, t')) :
    exists bytes, Copied library around destination entry (entry.1, bytes) ∧
      record = recordOf library entry.1 bytes ∧
        t.writeBytes? destination (filename entry.1) bytes = some t' := by
  unfold copyDatabase at h
  split at h
  · cases h
  · next bytes hbytes =>
      split at h
      · cases h
      · next written hwrite =>
          split at h
          · cases h
          · next result hresult =>
              split at h
              · next hsound =>
                  cases h
                  rw [FileTree.writeAt?_append] at hwrite
                  exact ⟨bytes, ⟨rfl, hbytes, hresult.trans (congrArg _ hsound)⟩, rfl, hwrite⟩
              · cases h

theorem backupDatabase_inside {result : Except Exn Record} (hp : Covers p entry.2)
    (h : backupDatabase library around destination entry t = (result, t')) :
    (t.without p).OnlyInside destination (t'.without p) := by
  have hopened : (t.without p).OnlyInside destination
      ((opened t entry.2 (around.sides entry.2)).without p) :=
    fun other _ => (touches_opened hp _).without other
  exact hopened.trans (copyDatabase_inside h).without

theorem backupDatabases_inside {result : Except Exn (List Record)}
    (hp : forall entry, entry ∈ entries -> Covers p entry.2)
    (h : backupDatabases library around destination entries t = (result, t')) :
    (t.without p).OnlyInside destination (t'.without p) := by
  induction entries generalizing t t' result with
  | nil =>
      cases h
      exact FileTree.OnlyInside.refl destination _
  | cons entry rest ih =>
      have hrest := fun other hother => hp other (List.mem_cons_of_mem entry hother)
      unfold backupDatabases at h
      split at h
      · next hstep =>
          cases h
          exact backupDatabase_inside (hp entry List.mem_cons_self) hstep
      · next hstep =>
          have hfirst := backupDatabase_inside (hp entry List.mem_cons_self) hstep
          split at h
          · next hothers =>
              cases h
              exact hfirst.trans (ih hrest hothers)
          · next hothers =>
              cases h
              exact hfirst.trans (ih hrest hothers)

/-- The contents of a directory after the copies have been written to it. -/
def withCopies (contents : Points -> Option Bytes) (copies : List (Points × Bytes)) :
    Points -> Option Bytes :=
  copies.foldl (fun found copy => Function.update found (filename copy.1) (some copy.2)) contents

theorem backupDatabases_ok {records : List Record}
    (hp : forall entry, entry ∈ entries -> Covers p entry.2)
    (hout : forall first rest, p (destination ++ first :: rest) = false)
    (h : backupDatabases library around destination entries t = (.ok records, t'))
    (hholds : t.Holds destination contents) :
    exists copies, List.Forall₂ (Copied library around destination) entries copies ∧
      records = copies.map (fun copy => recordOf library copy.1 copy.2) ∧
        t'.Holds destination (withCopies contents copies) := by
  induction entries generalizing t t' records contents with
  | nil =>
      cases h
      exact ⟨[], .nil, rfl, hholds⟩
  | cons entry rest ih =>
      unfold backupDatabases at h
      split at h
      · cases h
      · next record middle hstep =>
          split at h
          · cases h
          · next others final hrest =>
              cases h
              rcases copyDatabase_ok hstep with ⟨bytes, hcopied, rfl, hwrite⟩
              have hopened := hholds.touched
                (touches_opened (hp entry List.mem_cons_self) (around.sides entry.2)) hout
              rcases ih (fun other hother => hp other (List.mem_cons_of_mem entry hother)) hrest
                (hopened.write hwrite).1 with ⟨copies, hall, rfl, hfilled⟩
              exact ⟨(entry.1, bytes) :: copies, .cons hcopied hall, rfl, hfilled⟩

theorem withCopies_eq {copies : List (Points × Bytes)} (h : (copies.map Prod.fst).Nodup)
    (name : Points) :
    withCopies contents copies name =
      ((copies.find? (fun copy => decide (filename copy.1 = name))).map Prod.snd).or
        (contents name) := by
  induction copies generalizing contents with
  | nil => rfl
  | cons copy rest ih =>
      rw [List.map_cons, List.nodup_cons] at h
      have hrest := @ih (Function.update contents (filename copy.1) (some copy.2)) h.2
      have hstep : withCopies contents (copy :: rest) name =
          withCopies (Function.update contents (filename copy.1) (some copy.2)) rest name := rfl
      rw [hstep, hrest]
      by_cases hname : filename copy.1 = name
      · have hnone : rest.find? (fun other => decide (filename other.1 = name)) = none := by
          apply List.find?_eq_none.mpr
          intro other hother hsame
          have hrole := filename_injective ((of_decide_eq_true hsame).trans hname.symm)
          exact h.1 (hrole ▸ List.mem_map_of_mem hother)
        rw [hnone, List.find?_cons_of_pos (by exact decide_eq_true hname), ← hname,
          Function.update_self]
        rfl
      · rw [List.find?_cons_of_neg (by simpa using hname),
          Function.update_of_ne (fun hsame => hname hsame.symm)]

def backupContents (copies : List (Points × Bytes)) (written : Bytes) (name : Points) :
    Option Bytes :=
  if name = manifestName then some written
  else (copies.find? (fun copy => decide (filename copy.1 = name))).map Prod.snd

theorem update_withCopies {copies : List (Points × Bytes)} (h : (copies.map Prod.fst).Nodup)
    (written : Bytes) :
    Function.update (withCopies (fun _ => none) copies) manifestName (some written) =
      backupContents copies written := by
  funext name
  unfold backupContents
  by_cases hname : name = manifestName
  · rw [if_pos hname, hname, Function.update_self]
  · rw [if_neg hname, Function.update_of_ne hname, withCopies_eq h, Option.or_none]

theorem writeManifest_inside {fault : Option Fault} {manifest : Manifest}
    {result : Except Exn Unit}
    (h : writeManifest fault (destination ++ [name]) manifest t = (result, t')) :
    t.OnlyInside destination t' := by
  unfold writeManifest at h
  split at h
  · cases h
    exact FileTree.OnlyInside.refl destination t
  · split at h
    · cases h
      exact onlyInside_left t destination name _
    · split at h
      · cases h
        exact FileTree.OnlyInside.refl destination t
      · next hwrite =>
          cases h
          exact onlyInside_writeAt hwrite

theorem writeManifest_ok {fault : Option Fault} {manifest : Manifest}
    (h : writeManifest fault (destination ++ [name]) manifest t = (.ok (), t')) :
    exists written, (indentedText (.obj manifest.fields)).bind textBytes = some written ∧
      t.writeBytes? destination name written = some t' := by
  unfold writeManifest at h
  split at h
  · cases h
  · next written hencoded =>
      split at h
      · cases h
      · split at h
        · cases h
        · next hwrite =>
            cases h
            rw [FileTree.writeAt?_append] at hwrite
            exact ⟨written, hencoded, hwrite⟩

variable {databases : Databases library}

def Databases.stores (databases : Databases library) : List Location :=
  databases.entries.map Prod.snd

theorem perm_sortedEntries (entries : List (Points × Location)) :
    (sortedEntries entries).Perm entries :=
  List.perm_insertionSort _ entries

theorem covers_stores {entry : Points × Location}
    (h : entry ∈ sortedEntries databases.entries) : Covers (sidesOf databases.stores) entry.2 :=
  covers_sidesOf (List.mem_map_of_mem ((perm_sortedEntries databases.entries).mem_iff.mp h))

theorem fillBackup_inside {result : Except Exn (Manifest × Location)}
    (h : fillBackup library around databases destination t = (result, t')) :
    (t.without (sidesOf databases.stores)).OnlyInside destination
      (t'.without (sidesOf databases.stores)) := by
  unfold fillBackup at h
  split at h
  · next hcopies =>
      cases h
      exact backupDatabases_inside (fun entry => covers_stores) hcopies
  · next hcopies =>
      have hfirst := backupDatabases_inside (p := sidesOf databases.stores)
        (fun entry => covers_stores) hcopies
      split at h
      · next hmanifest =>
          cases h
          exact hfirst.trans (writeManifest_inside hmanifest).without
      · next hmanifest =>
          cases h
          exact hfirst.trans (writeManifest_inside hmanifest).without

theorem roles_of_copied {copies : List (Points × Bytes)}
    (h : List.Forall₂ (Copied library around destination) entries copies) :
    copies.map Prod.fst = entries.map Prod.fst := by
  induction h with
  | nil => rfl
  | cons hcopied _ ih => rw [List.map_cons, List.map_cons, hcopied.role, ih]

theorem nodup_roles {copies : List (Points × Bytes)}
    (h : List.Forall₂ (Copied library around destination) (sortedEntries databases.entries)
      copies) :
    (copies.map Prod.fst).Nodup := by
  rw [roles_of_copied h]
  exact ((perm_sortedEntries databases.entries).map Prod.fst).nodup_iff.mpr databases.distinct

theorem createBackup_ok {manifest : Manifest} {path : Location} (hexist : databases.Exist t)
    (h : createBackup library around t databases destination = (.ok (manifest, path), t')) :
    exists copies written,
      List.Forall₂ (Copied library around destination) (sortedEntries databases.entries) copies ∧
        manifest =
          { createdAtMs := around.nowMs
            databases := copies.map (fun copy => recordOf library copy.1 copy.2) } ∧
        (indentedText (.obj manifest.fields)).bind textBytes = some written ∧
        path = destination ++ [manifestName] ∧
        FileTree.Stored (sidesOf databases.stores) destination (backupContents copies written)
          t t' := by
  unfold createBackup at h
  split at h
  · cases h
  · split at h
    · cases h
    · next made hmade =>
        have hstores : forall store, store ∈ databases.stores -> t.node store ≠ none := by
          intro store hstore
          rcases List.mem_map.mp hstore with ⟨entry, hentry, rfl⟩
          rcases Option.isSome_iff_exists.mp (hexist entry hentry) with ⟨bytes, hbytes⟩
          rw [FileTree.bytesAt?_eq_some.mp hbytes]
          exact Option.some_ne_none _
        have hout := sidesOf_outside hstores (FileTree.mkdirs?_eq_some hmade).1
        cases hfill : fillBackup library around databases destination made with
        | mk result final =>
            rw [hfill] at h
            cases result with
            | error e => cases h
            | ok created =>
                cases h
                have hinside := fillBackup_inside hfill
                unfold fillBackup at hfill
                split at hfill
                · cases hfill
                · next records middle hcopies =>
                    split at hfill
                    · cases hfill
                    · next last hmanifest =>
                        cases hfill
                        rcases backupDatabases_ok (fun entry => covers_stores) hout hcopies
                          (FileTree.holds_mkdirs hmade) with ⟨copies, hall, rfl, hfilled⟩
                        rcases writeManifest_ok hmanifest with ⟨written, hencoded, hwrite⟩
                        have hholds := (hfilled.write hwrite).1
                        rw [update_withCopies (nodup_roles hall)] at hholds
                        exact ⟨copies, written, hall, rfl, hencoded, rfl,
                          hholds.stored hmade hinside⟩

end

end Ump.Data
