import Ump.Data.Backup

/-!
# Verification and restoration

## Verification

`_verify_backup` reads the manifest and then looks at each copy in turn. SQLite opens the copy
to check it, so the tree is handed on from one record to the next.
-/

namespace Ump.Data

open Foundation Codec Wire

variable (library : Library)

/-- `path.read_text(encoding="utf-8")`. -/
def readUtf8 (t : Files) (path : Location) : Except Exn Points :=
  match t.bytesAt? path with
  | none => .error (.runtime "the file cannot be opened")
  | some bytes =>
      match decodeUtf8 (bytes.map UInt8.toNat) with
      | none => .error (.value "'utf-8' codec can't decode the file")
      | some text =>
          if text.any isSurrogate then .error (.value "'utf-8' codec can't decode the file")
          else .ok text

def loadsText (text : Points) : Except Exn Value :=
  match valueOf library.floats.read text with
  | none => .error (.value "the document is not JSON")
  | some document => .ok document

/-- The exceptions of the file and of the JSON decoder become a `DataOperationError`. -/
def readManifest (t : Files) (path : Location) : Except Exn Value :=
  match readUtf8 t path with
  | .error (.runtime text) => .error (.value ("backup manifest cannot be read: " ++ text))
  | .error e => .error e
  | .ok text =>
      match loadsText library text with
      | .error _ => .error (.value "backup manifest cannot be read: the document is not JSON")
      | .ok document => .ok document

/-- `document.get(name)`. -/
def getMember (document : Value) (name : String) : Except Exn (Option Value) :=
  match document with
  | .obj fields => .ok (member? fields name)
  | _ => .error (.type "object has no attribute 'get'")

def isText (value : Option Value) (text : Points) : Bool :=
  match value with
  | some v => v.isString text
  | none => false

/-- `str(value)`. -/
def Library.textOf : Value -> Points
  | .str text => text
  | other => points (library.shown other)

def shownMember (fields : Members) (name : String) : String :=
  library.shown ((member? fields name).getD .null)

/-- The file of a record, up to its checksum. -/
def checkCopy (leadsTo : Location -> Location) (t : Files) (home : Location) (fields : Members) :
    Except Exn (Location × Bytes) := do
  let candidate ← resolved leadsTo t home
    (library.textOf ((member? fields "file").getD (.str [])))
  match t.bytesAt? candidate with
  | none => .error (.value "backup database path is invalid")
  | some bytes =>
      refuseWhen (decide (candidate.dropLast ≠ home)) "backup database path is invalid"
      refuseWhen (!isText (member? fields "sha256") (points (library.sha256 bytes)))
        ("backup checksum mismatch: " ++ shownMember library fields "role")
      .ok (candidate, bytes)

def acceptRecord (fields : Members) (integrity : Except Exn String) : Except Exn Value := do
  let result ← integrity
  refuseWhen (decide (result ≠ "ok"))
    ("database integrity failed: " ++ shownMember library fields "role")
  match member? fields "role" with
  | some role => .ok role
  | none => .error (.key "role")

def verifyRecord (leadsTo : Location -> Location) (home : Location) (record : Value) (t : Files) :
    Except Exn Value × Files :=
  match record with
  | .obj fields =>
      match checkCopy library leadsTo t home fields with
      | .error e => (.error e, t)
      | .ok (candidate, bytes) =>
          (acceptRecord library fields (library.look candidate bytes (sidesAt t candidate)).1,
            opened t candidate (library.look candidate bytes (sidesAt t candidate)).2)
  | _ => (.error (.value "invalid database record"), t)

def verifyRecords (leadsTo : Location -> Location) (home : Location) :
    List Value -> Files -> Except Exn (List Value) × Files
  | [], t => (.ok [], t)
  | record :: rest, t =>
      match verifyRecord library leadsTo home record t with
      | (.error e, t') => (.error e, t')
      | (.ok role, t') =>
          match verifyRecords leadsTo home rest t' with
          | (.error e, t'') => (.error e, t'')
          | (.ok roles, t'') => (.ok (role :: roles), t'')

def recordsOf (document : Value) : Except Exn (List Value) := do
  let named ← getMember document "profile"
  refuseWhen (!isText named profile) "unsupported backup manifest profile"
  match ← getMember document "databases" with
  | some (.arr (record :: rest)) => .ok (record :: rest)
  | _ => .error (.value "backup manifest has no databases")

def verifyBackup (leadsTo : Location -> Location) (t : Files) (path : Location) :
    Except Exn (List Value) × Files :=
  match (readManifest library t path).bind recordsOf with
  | .error e => (.error e, t)
  | .ok records => verifyRecords library leadsTo path.dropLast records t

/-!
## Restoration

The manifest is read a second time, and its records are copied into a new directory. What fails
there is removed again, as far as it can be removed.
-/

def copyFile (t : Files) (fault : Option Fault) (source target : Option Location) :
    Except Exn Unit × Files :=
  if (source.bind t.node).isSome ∧ source = target then
    (.error (.runtime "source and target are the same file"), t)
  else
    match source.bind t.bytesAt?, target with
    | some bytes, some location =>
        match fault with
        | some (e, written) => (.error e, left t location written)
        | none =>
            match t.writeAt? location bytes with
            | none => (.error (.runtime "the target cannot be opened"), t)
            | some written => (.ok (), written)
    | _, _ => (.error (.runtime "no such file"), t)

def restoreRecord (leadsTo : Location -> Location) (fault : Option Fault)
    (home destination : Location) (record : Value) (t : Files) : Except Exn Unit × Files :=
  match record with
  | .obj fields =>
      match member? fields "file" with
      | some (.str file) =>
          if encodable file then
            copyFile t fault (t.walk? leadsTo up (start home file) (parts file))
              (t.walk? leadsTo up (start destination file) (parts file))
          else (.error (.value "embedded null byte"), t)
      | some _ => (.error (.type "unsupported operand type(s) for /"), t)
      | none => (.error (.key "file"), t)
  | _ => (.error (.type "the record has no members"), t)

/-- The faults are those of the copies in turn. -/
def restoreRecords (leadsTo : Location -> Location) (home destination : Location) :
    (Nat -> Option Fault) -> List Value -> Files -> Except Exn Unit × Files
  | _, [], t => (.ok (), t)
  | faults, record :: rest, t =>
      match restoreRecord leadsTo (faults 0) home destination record t with
      | (.error e, t') => (.error e, t')
      | (.ok (), t') =>
          restoreRecords leadsTo home destination (fun i => faults (i + 1)) rest t'

/-- `document["databases"]`. -/
def databasesOf (document : Value) : Except Exn (List Value) :=
  match document with
  | .obj fields =>
      match member? fields "databases" with
      | some (.arr records) => .ok records
      | some _ => .error (.type "the databases are no list")
      | none => .error (.key "databases")
  | _ => .error (.type "the document has no members")

/-- The body of the `try` statement. -/
def fillTarget (leadsTo : Location -> Location) (faults : Nat -> Option Fault)
    (home destination : Location) (document : Value) (t : Files) : Except Exn Unit × Files :=
  match databasesOf document with
  | .error e => (.error e, t)
  | .ok records => restoreRecords leadsTo home destination faults records t

/-- `kept` is what `rmtree` cannot remove. -/
def restoreBackup (leadsTo : Location -> Location) (faults : Nat -> Option Fault)
    (kept : List Location) (t : Files) (path destination : Location) :
    Except Exn (List Value) × Files :=
  match verifyBackup library leadsTo t path with
  | (.error e, verified) => (.error e, verified)
  | (.ok roles, verified) =>
      if (verified.node destination).isSome then
        (.error (.value ("restore target already exists: " ++ library.shownPath destination)),
          verified)
      else
        match verified.mkdirs? destination with
        | none => (.error (.runtime "the directory cannot be made"), verified)
        | some made =>
            match (readUtf8 made path).bind (loadsText library) with
            | .error e => (.error e, made)
            | .ok document =>
                match orRemove kept destination
                    (fillTarget leadsTo faults path.dropLast destination document made) with
                | (.error e, t') => (.error e, t')
                | (.ok (), t') => (.ok roles, t')

def isSideName (name : Points) : Bool :=
  decide (walSuffix <:+ name) || decide (shmSuffix <:+ name)

/-- The files of a directory that are named like those beside a database. -/
def sidesIn (home other : Location) : Bool :=
  decide (other.dropLast = home) && other.getLast?.any isSideName

/-!
## What verification finds

A record that passes names a stored file. Looking at it leaves files beside it, and everything
else is as it was.
-/

section

variable {library} {leadsTo : Location -> Location} {t t' : Files} {home path : Location}
  {fields : Members} {file : Points}

structure Passes (library : Library) (leadsTo : Location -> Location) (t : Files)
    (home : Location) (fields : Members) (candidate : Location) (bytes : Bytes) : Prop where
  leads : resolved leadsTo t home
    (library.textOf ((member? fields "file").getD (.str []))) = .ok candidate
  found : t.bytesAt? candidate = some bytes
  inside : candidate.dropLast = home
  digest : isText (member? fields "sha256") (points (library.sha256 bytes)) = true

theorem checkCopy_eq_ok {candidate : Location} {bytes : Bytes} :
    checkCopy library leadsTo t home fields = .ok (candidate, bytes) <->
      Passes library leadsTo t home fields candidate bytes := by
  unfold checkCopy
  rw [bind_eq_ok]
  constructor
  · rintro ⟨found, hleads, h⟩
    split at h
    · cases h
    · next other hbytes =>
        rcases refuse_bind_iff.mp h with ⟨hinside, h⟩
        rcases refuse_bind_iff.mp h with ⟨hdigest, h⟩
        cases h
        exact ⟨hleads, hbytes, by simpa using hinside, by simpa using hdigest⟩
  · intro h
    refine ⟨candidate, h.leads, ?_⟩
    rw [h.found]
    exact refuse_bind_iff.mpr ⟨by simpa using h.inside,
      refuse_bind_iff.mpr ⟨by simpa using h.digest, rfl⟩⟩

theorem acceptRecord_eq_ok {integrity : Except Exn String} {role : Value} :
    acceptRecord library fields integrity = .ok role <->
      integrity = .ok "ok" ∧ member? fields "role" = some role := by
  unfold acceptRecord
  rw [bind_eq_ok]
  constructor
  · rintro ⟨result, rfl, h⟩
    rcases refuse_bind_iff.mp h with ⟨hsound, h⟩
    have hok : result = "ok" := by simpa using hsound
    rw [hok]
    split at h
    · next found hfound =>
        cases h
        exact ⟨rfl, hfound⟩
    · cases h
  · rintro ⟨rfl, hrole⟩
    refine ⟨"ok", rfl, refuse_bind_iff.mpr ⟨by simp, ?_⟩⟩
    rw [hrole]

theorem verifyRecord_eq_ok {role : Value} :
    (verifyRecord library leadsTo home (.obj fields) t).1 = .ok role <->
      (exists candidate bytes, Passes library leadsTo t home fields candidate bytes ∧
        (library.look candidate bytes (sidesAt t candidate)).1 = .ok "ok") ∧
          member? fields "role" = some role := by
  unfold verifyRecord
  dsimp only
  cases hcheck : checkCopy library leadsTo t home fields with
  | error e =>
      constructor
      · exact fun h => (by cases h)
      · rintro ⟨⟨candidate, bytes, hpasses, _⟩, _⟩
        rw [checkCopy_eq_ok.mpr hpasses] at hcheck
        cases hcheck
  | ok copy =>
      dsimp only
      rw [acceptRecord_eq_ok]
      apply and_congr_left'
      constructor
      · exact fun h => ⟨copy.1, copy.2, checkCopy_eq_ok.mp hcheck, h⟩
      · rintro ⟨candidate, bytes, hpasses, hsound⟩
        rw [checkCopy_eq_ok.mpr hpasses] at hcheck
        cases hcheck
        exact hsound

theorem verifyRecord_touches {p : Location -> Bool} {result : Except Exn Value} {record : Value}
    (hp : forall fields candidate bytes, record = .obj fields ->
      Passes library leadsTo t home fields candidate bytes -> Covers p candidate)
    (h : verifyRecord library leadsTo home record t = (result, t')) :
    FileTree.Touches p t t' := by
  unfold verifyRecord at h
  split at h
  · split at h
    · cases h
      exact FileTree.Touches.refl p t
    · next candidate bytes hcheck =>
        cases h
        exact touches_opened (hp _ candidate bytes rfl (checkCopy_eq_ok.mp hcheck)) _
  · cases h
    exact FileTree.Touches.refl p t

theorem covers_sidesIn {store : Location} (h : store.dropLast = home) :
    Covers (sidesIn home) store := by
  have hside : forall suffix, isSideName (store.getLast?.getD [] ++ suffix) = true ->
      sidesIn home (beside suffix store) = true := by
    intro suffix hname
    unfold sidesIn beside
    rw [List.dropLast_concat, List.getLast?_concat, decide_eq_true h, Bool.true_and]
    exact hname
  unfold isSideName at hside
  constructor
  · apply hside
    rw [decide_eq_true (List.suffix_append _ walSuffix), Bool.true_or]
  · apply hside
    rw [decide_eq_true (List.suffix_append _ shmSuffix), Bool.or_true]

theorem verifyRecord_touches_home {result : Except Exn Value} {record : Value}
    (h : verifyRecord library leadsTo home record t = (result, t')) :
    FileTree.Touches (sidesIn home) t t' :=
  verifyRecord_touches (fun _ _ _ _ hpasses => covers_sidesIn hpasses.inside) h

theorem verifyRecords_touches {records : List Value} {result : Except Exn (List Value)}
    (h : verifyRecords library leadsTo home records t = (result, t')) :
    FileTree.Touches (sidesIn home) t t' := by
  induction records generalizing t t' result with
  | nil =>
      cases h
      exact FileTree.Touches.refl _ t
  | cons record rest ih =>
      unfold verifyRecords at h
      split at h
      · next hstep =>
          cases h
          exact verifyRecord_touches_home hstep
      · next hstep =>
          have hfirst := verifyRecord_touches_home hstep
          split at h
          · next hrest =>
              cases h
              exact hfirst.trans (ih hrest)
          · next hrest =>
              cases h
              exact hfirst.trans (ih hrest)

theorem resolved_eq_ok {base candidate : Location} {text : Points} :
    resolved leadsTo t base text = .ok candidate <->
      encodable text = true ∧ t.resolve leadsTo up (start base text) (parts text) = candidate := by
  unfold resolved
  rw [refuse_bind_iff, Bool.not_eq_false']
  exact and_congr_right (fun _ => ⟨fun h => Except.ok.inj h, fun h => congrArg _ h⟩)

/-- A name that is one part of a path. -/
structure IsName (file : Points) : Prop where
  parts : parts file = [file]
  relative : forall base, start base file = base
  notUp : file ≠ up

theorem start_plain (h : CodePoint.char '/' ∉ file) (base : Location) : start base file = base := by
  unfold start
  rw [if_neg]
  intro hhead
  cases file with
  | nil => cases hhead
  | cons p rest =>
      cases hhead
      exact h List.mem_cons_self

theorem splitOn_plain (h : CodePoint.char '/' ∉ file) : file.splitOn (.char '/') = [file] := by
  unfold List.splitOn
  apply List.splitOnP_eq_singleton
  intro p hp
  rw [beq_eq_false_iff_ne]
  rintro rfl
  exact h hp

theorem isName_of (hne : file ≠ []) (hdot : file ≠ points ".") (hup : file ≠ up)
    (hplain : CodePoint.char '/' ∉ file) : IsName file where
  parts := by
    unfold parts
    rw [splitOn_plain hplain]
    simp [hne, hdot]
  relative := start_plain hplain
  notUp := hup

theorem isName_filename {role : Points} (h : role.all isPlain = true) :
    IsName (filename role) := by
  have hlength := length_filename role
  apply isName_of
  · intro hnil
    rw [hnil] at hlength
    exact absurd hlength (by decide)
  · intro hdot
    rw [hdot] at hlength
    exact absurd hlength (by decide)
  · intro hup
    rw [hup] at hlength
    exact absurd hlength (by decide)
  · intro hmem
    exact (isPlain_iff.mp (List.all_eq_true.mp (plain_filename h) _ hmem)).2.1 rfl

theorem encodable_of_plain (h : file.all isPlain = true) : encodable file = true := by
  apply List.all_eq_true.mpr
  intro p hp
  have hplain := isPlain_iff.mp (List.all_eq_true.mp h p hp)
  rw [hplain.1, Bool.not_false, Bool.true_and]
  exact decide_eq_true hplain.2.2

theorem resolve_name (h : IsName file) :
    t.resolve leadsTo up (start home file) (parts file) = t.follow leadsTo (home ++ [file]) := by
  rw [h.parts, h.relative]
  unfold FileTree.resolve
  rw [if_neg h.notUp]
  rfl

theorem walk_name (h : IsName file) (hhome : t.isDirectory home = true) :
    t.walk? leadsTo up (start home file) (parts file) =
      some (t.follow leadsTo (home ++ [file])) := by
  rw [h.parts, h.relative]
  unfold FileTree.walk?
  rw [if_pos hhome, if_neg h.notUp]
  rfl

/-!
## What a restoration writes

The new directory holds the copies of the records, and they come from files that are not in it.
The manifest is the same when it is read again, unless it is named like a file beside a
database.
-/

variable {current next made : Files} {destination : Location} {bytes : Bytes}
  {contents : Points -> Option Bytes} {record : Value} {records : List Value}

/-- A stored file, under its name in a directory. -/
structure Source (leadsTo : Location -> Location) (t : Files) (home : Location) (file : Points)
    (bytes : Bytes) : Prop where
  name : IsName file
  encodable : encodable file = true
  inside : t.isDirectory home = true
  found : t.bytesAt? (t.follow leadsTo (home ++ [file])) = some bytes

theorem node_of_bytesAt {location : Location} (h : t.bytesAt? location = some bytes) :
    t.node location ≠ none := by
  rw [FileTree.bytesAt?_eq_some.mp h]
  exact Option.some_ne_none _

theorem Source.spared (h : Source leadsTo t home file bytes) (hspares : t.Spares current) :
    Source leadsTo current home file bytes where
  name := h.name
  encodable := h.encodable
  inside := hspares.isDirectory h.inside
  found := by
    rw [hspares.follow (node_of_bytesAt h.found)]
    exact hspares.bytesAt h.found

theorem Source.touched {p : Location -> Bool} (h : Source leadsTo t home file bytes)
    (htouches : t.Touches p current) : exists bytes', Source leadsTo current home file bytes' := by
  have hsome : t.node (home ++ [file]) ≠ none := by
    intro hnone
    have hself : t.follow leadsTo (home ++ [file]) = home ++ [file] := by
      unfold FileTree.follow
      rw [hnone]
    apply node_of_bytesAt h.found
    rw [hself]
    exact hnone
  have hfollow := htouches.follow leadsTo hsome
  rcases htouches.bytesAt h.found with ⟨bytes', hbytes⟩
  exact ⟨bytes', h.name, h.encodable, htouches.isDirectory h.inside, by rw [hfollow]; exact hbytes⟩

theorem Source.apart (h : Source leadsTo t home file bytes) (hspares : t.Spares current)
    (hnone : t.node destination = none) :
    current.follow leadsTo (home ++ [file]) ≠ destination ++ [file] := by
  rw [hspares.follow (node_of_bytesAt h.found)]
  intro hsame
  apply node_of_bytesAt h.found
  rw [hsame]
  exact FileTree.node_inside_of_none hnone [file]

theorem restoreRecord_source {fault : Option Fault} (h : Source leadsTo t home file bytes)
    (hspares : t.Spares current) (hholds : current.Holds destination contents)
    (hmember : member? fields "file" = some (.str file)) :
    restoreRecord leadsTo fault home destination (.obj fields) current =
      copyFile current fault (some (current.follow leadsTo (home ++ [file])))
        (some (destination ++ [file])) := by
  have hnow := h.spared hspares
  unfold restoreRecord
  dsimp only
  rw [hmember]
  dsimp only
  rw [if_pos hnow.encodable, walk_name hnow.name hnow.inside,
    walk_name hnow.name hholds.isDirectory, hholds.follow]

theorem holds_left (h : current.Holds destination contents) (name : Points)
    (written : Option Bytes) :
    exists contents',
      (left current (destination ++ [name]) written).Holds destination contents' := by
  cases written with
  | none => exact ⟨contents, h⟩
  | some bytes =>
      rcases h.exists_write name bytes with ⟨next, hnext⟩
      have hleft : left current (destination ++ [name]) (some bytes) = next := by
        show (current.writeAt? (destination ++ [name]) bytes).getD current = next
        rw [FileTree.writeAt?_append, hnext]
        rfl
      rw [hleft]
      exact ⟨_, (h.write hnext).1⟩

theorem copyFile_step {fault : Option Fault} {source : Location} {result : Except Exn Unit}
    (hholds : current.Holds destination contents) (hfound : current.bytesAt? source = some bytes)
    (hapart : source ≠ destination ++ [file])
    (h : copyFile current fault (some source) (some (destination ++ [file])) = (result, next)) :
    current.OnlyInside destination next ∧
      (exists contents', next.Holds destination contents') ∧
        (result = .ok () -> next.Holds destination (Function.update contents file (some bytes))) ∧
          (fault = none -> result = .ok ()) := by
  unfold copyFile at h
  rw [if_neg (fun hsame => hapart (Option.some.inj hsame.2)), Option.bind_some, hfound] at h
  dsimp only at h
  cases fault with
  | some fault =>
      rcases fault with ⟨e, written⟩
      cases h
      exact ⟨onlyInside_left current destination file written, holds_left hholds file written,
        fun h => (by cases h), fun h => (by cases h)⟩
  | none =>
      rcases hholds.exists_write file bytes with ⟨final, hfinal⟩
      rw [FileTree.writeAt?_append, hfinal] at h
      cases h
      have hwrite := hholds.write hfinal
      exact ⟨hwrite.2, ⟨_, hwrite.1⟩, fun _ => hwrite.1, fun _ => rfl⟩

/-- `record["file"]`, when it is a text. -/
def fileOf : Value -> Option Points
  | .obj fields =>
      match member? fields "file" with
      | some (.str file) => some file
      | _ => none
  | _ => none

theorem fileOf_eq_some : fileOf record = some file <->
    exists fields, record = .obj fields ∧ member? fields "file" = some (.str file) := by
  constructor
  · intro h
    unfold fileOf at h
    split at h
    · next fields =>
        split at h
        · next found hfound =>
            cases h
            exact ⟨fields, rfl, hfound⟩
        · cases h
    · cases h
  · rintro ⟨fields, rfl, hmember⟩
    unfold fileOf
    dsimp only
    rw [hmember]

theorem restoreRecord_unnamed {fault : Option Fault} (h : fileOf record = none) :
    exists e,
      restoreRecord leadsTo fault home destination record current = (.error e, current) := by
  unfold restoreRecord
  split
  · next fields =>
      split
      · next file hmember =>
          rw [fileOf_eq_some.mpr ⟨fields, rfl, hmember⟩] at h
          cases h
      · exact ⟨_, rfl⟩
      · exact ⟨_, rfl⟩
  · exact ⟨_, rfl⟩

/-- The name in a record that passes is the name of a stored file, when it has no separator. -/
theorem source_of_verified {role : Value}
    (h : (verifyRecord library leadsTo home (.obj fields) t).1 = .ok role)
    (hmember : member? fields "file" = some (.str file)) (hplain : CodePoint.char '/' ∉ file)
    (hhome : t.isDirectory home = true) :
    exists bytes, Source leadsTo t home file bytes := by
  rcases (verifyRecord_eq_ok.mp h).1 with ⟨candidate, bytes, hpasses, _⟩
  have hleads := hpasses.leads
  have htext : library.textOf ((member? fields "file").getD (.str [])) = file := by
    rw [hmember]
    rfl
  rw [htext] at hleads
  rcases resolved_eq_ok.mp hleads with ⟨hencodable, hresolve⟩
  have hstart := start_plain hplain home
  -- the home is no file
  have hnotHome : candidate ≠ home := by
    rintro rfl
    have hfile := FileTree.bytesAt?_eq_some.mp hpasses.found
    rw [FileTree.isDirectory_iff.mp hhome] at hfile
    cases hfile
  have hname : IsName file := by
    apply isName_of _ _ _ hplain
    · rintro rfl
      apply hnotHome
      rw [← hresolve, hstart]
      rfl
    · rintro rfl
      apply hnotHome
      rw [← hresolve, hstart]
      rfl
    · rintro rfl
      have hup : candidate = home.dropLast := by
        rw [← hresolve, hstart]
        rfl
      have hlength := congrArg List.length hpasses.inside
      rw [hup, List.length_dropLast, List.length_dropLast] at hlength
      have hnil : home = [] := List.length_eq_zero_iff.mp (by omega)
      apply hnotHome
      rw [hup, hnil]
      rfl
  rw [resolve_name hname] at hresolve
  exact ⟨bytes, hname, hencodable, hhome, by rw [hresolve]; exact hpasses.found⟩

theorem sources_of_verified {roles : List Value} (hhome : t.isDirectory home = true)
    (h : verifyRecords library leadsTo home records t = (.ok roles, t')) {file : Points}
    (hrecord : record ∈ records) (hfile : fileOf record = some file)
    (hplain : CodePoint.char '/' ∉ file) :
    exists bytes, Source leadsTo t' home file bytes := by
  induction records generalizing t roles with
  | nil => cases hrecord
  | cons first rest ih =>
      unfold verifyRecords at h
      split at h
      · cases h
      · next role middle hstep =>
          split at h
          · cases h
          · next others final hrest =>
              cases h
              rcases List.mem_cons.mp hrecord with rfl | hlater
              · rcases fileOf_eq_some.mp hfile with ⟨fields, rfl, hmember⟩
                have hok := congrArg Prod.fst hstep
                rcases source_of_verified hok hmember hplain hhome with ⟨bytes, hsource⟩
                rcases hsource.touched (verifyRecord_touches_home hstep) with ⟨_, hnext⟩
                exact hnext.touched (verifyRecords_touches hrest)
              · exact ih ((verifyRecord_touches_home hstep).isDirectory hhome) hrest hlater

def fileNames (records : List Value) : List Points :=
  records.filterMap fileOf

def restored (leadsTo : Location -> Location) (t : Files) (home : Location)
    (records : List Value) (contents : Points -> Option Bytes) (name : Points) : Option Bytes :=
  if (fileNames records).contains name then t.bytesAt? (t.follow leadsTo (home ++ [name]))
  else contents name

theorem restored_cons (hfile : fileOf record = some file)
    (hfound : t.bytesAt? (t.follow leadsTo (home ++ [file])) = some bytes) :
    restored leadsTo t home records (Function.update contents file (some bytes)) =
      restored leadsTo t home (record :: records) contents := by
  have hnames : fileNames (record :: records) = file :: fileNames records :=
    List.filterMap_cons_some hfile
  funext name
  unfold restored
  rw [hnames]
  rw [List.contains_cons]
  by_cases hin : (fileNames records).contains name = true
  · rw [if_pos hin, hin, Bool.or_true, if_pos rfl]
  · rw [if_neg hin, Bool.eq_false_iff.mpr hin, Bool.or_false]
    by_cases hname : name = file
    · rw [hname, if_pos (beq_self_eq_true file), Function.update_self, hfound]
    · rw [if_neg (by simpa using hname), Function.update_of_ne hname]

/-- No name of a stored file has a separator. -/
def Plain (records : List Value) : Prop :=
  forall file, file ∈ fileNames records -> CodePoint.char '/' ∉ file

theorem sources_of_plain {roles : List Value} (hhome : t.isDirectory home = true)
    (h : verifyRecords library leadsTo home records t = (.ok roles, t')) (hplain : Plain records)
    (record : Value) (file : Points) (hrecord : record ∈ records)
    (hfile : fileOf record = some file) : exists bytes, Source leadsTo t' home file bytes :=
  sources_of_verified hhome h hrecord hfile
    (hplain file (List.mem_filterMap.mpr ⟨record, hrecord, hfile⟩))

theorem restoreRecords_inside {faults : Nat -> Option Fault} {result : Except Exn Unit}
    (hnone : t.node destination = none)
    (hsources : forall record file, record ∈ records -> fileOf record = some file ->
      exists bytes, Source leadsTo t home file bytes)
    (hspares : t.Spares current)
    (hholds : current.Holds destination contents)
    (h : restoreRecords leadsTo home destination faults records current = (result, next)) :
    current.OnlyInside destination next ∧
      (result = .ok () -> next.Holds destination (restored leadsTo t home records contents)) ∧
        ((forall i, faults i = none) -> (forall record, record ∈ records ->
          fileOf record ≠ none) -> result = .ok ()) := by
  induction records generalizing faults current contents with
  | nil =>
      cases h
      exact ⟨FileTree.OnlyInside.refl destination _, fun _ => hholds, fun _ _ => rfl⟩
  | cons record records ih =>
      unfold restoreRecords at h
      cases hstep : restoreRecord leadsTo (faults 0) home destination record current with
      | mk first middle =>
          rw [hstep] at h
          cases hfile : fileOf record with
          | none =>
              rcases @restoreRecord_unnamed leadsTo home current destination record (faults 0) hfile
                with ⟨e, hunnamed⟩
              rw [hunnamed] at hstep
              cases hstep
              cases h
              exact ⟨FileTree.OnlyInside.refl destination _, fun h => (by cases h),
                fun _ hnamed => absurd hfile (hnamed record List.mem_cons_self)⟩
          | some file =>
              rcases hsources record file List.mem_cons_self hfile with ⟨bytes, hsource⟩
              rcases fileOf_eq_some.mp hfile with ⟨fields, rfl, hmember⟩
              rw [restoreRecord_source hsource hspares hholds hmember] at hstep
              rcases copyFile_step hholds (hsource.spared hspares).found
                (hsource.apart hspares hnone) hstep with ⟨hinside, hsome, hok, hfaultless⟩
              cases first with
              | error e =>
                  cases h
                  exact ⟨hinside, fun h => (by cases h),
                    fun hfaults _ => (by cases hfaultless (hfaults 0))⟩
              | ok value =>
                  rcases ih (fun other name hother =>
                      hsources other name (List.mem_cons_of_mem _ hother))
                    (hspares.inside hnone hinside) (hok rfl) h with ⟨hlater, hlast, hall⟩
                  rw [restored_cons hfile hsource.found] at hlast
                  exact ⟨hinside.trans hlater, hlast, fun hfaults hnamed =>
                    hall (fun i => hfaults (i + 1))
                      (fun other hother => hnamed other (List.mem_cons_of_mem _ hother))⟩

/-!
## Whole restorations

A restoration that succeeds leaves the recorded files; one that fails leaves what could not be
removed, and directories on the way to it.
-/

theorem readManifest_eq_ok {document : Value} :
    readManifest library t path = .ok document <->
      (readUtf8 t path).bind (loadsText library) = .ok document := by
  unfold readManifest
  cases readUtf8 t path with
  | error e => cases e <;> exact ⟨fun h => (by cases h), fun h => (by cases h)⟩
  | ok text =>
      show (match loadsText library text with
        | .error _ => _
        | .ok document => _) = _ <-> loadsText library text = _
      cases loadsText library text with
      | error e => exact ⟨fun h => (by cases h), fun h => (by cases h)⟩
      | ok value => exact Iff.rfl

def Lists (library : Library) (t : Files) (path : Location) (records : List Value) : Prop :=
  exists document, readManifest library t path = .ok document ∧ recordsOf document = .ok records

theorem lists_iff : Lists library t path records <->
    (readManifest library t path).bind recordsOf = .ok records :=
  bind_eq_ok.symm

theorem verifyBackup_of_lists (h : Lists library t path records) :
    verifyBackup library leadsTo t path =
      verifyRecords library leadsTo path.dropLast records t := by
  unfold verifyBackup
  rw [lists_iff.mp h]

theorem verifyBackup_ok {roles : List Value} {verified : Files}
    (h : verifyBackup library leadsTo t path = (.ok roles, verified)) :
    exists records, Lists library t path records ∧
      verifyRecords library leadsTo path.dropLast records t = (.ok roles, verified) := by
  unfold verifyBackup at h
  split at h
  · cases h
  · next records hlists => exact ⟨records, lists_iff.mpr hlists, h⟩

theorem verifyBackup_touches {result : Except Exn (List Value)}
    (h : verifyBackup library leadsTo t path = (result, t')) :
    FileTree.Touches (sidesIn path.dropLast) t t' := by
  unfold verifyBackup at h
  split at h
  · cases h
    exact FileTree.Touches.refl _ t
  · exact verifyRecords_touches h

theorem databasesOf_recordsOf {document : Value} (h : recordsOf document = .ok records) :
    databasesOf document = .ok records := by
  unfold recordsOf at h
  rcases bind_eq_ok.mp h with ⟨named, _, h⟩
  rcases refuse_bind_iff.mp h with ⟨_, h⟩
  rcases bind_eq_ok.mp h with ⟨found, hfound, h⟩
  split at h
  · cases h
    unfold getMember at hfound
    split at hfound
    · unfold databasesOf
      dsimp only
      rw [Except.ok.inj hfound]
    · cases hfound
  · cases h

theorem bytesAt_of_readManifest {document : Value}
    (h : readManifest library t path = .ok document) :
    exists bytes, t.bytesAt? path = some bytes := by
  rw [readManifest_eq_ok] at h
  unfold readUtf8 at h
  cases hbytes : t.bytesAt? path with
  | none =>
      rw [hbytes] at h
      cases h
  | some bytes => exact ⟨bytes, rfl⟩

theorem reread {document : Value} (h : readManifest library t path = .ok document)
    (hspares : t.Spares current) :
    (readUtf8 current path).bind (loadsText library) = .ok document := by
  rcases bytesAt_of_readManifest h with ⟨bytes, hbytes⟩
  rw [readManifest_eq_ok] at h
  unfold readUtf8 at h ⊢
  rw [hbytes] at h
  rw [hspares.bytesAt hbytes]
  exact h

theorem isDirectory_dropLast {location : Location} (hne : location ≠ [])
    (h : t.bytesAt? location = some bytes) : t.isDirectory location.dropLast = true := by
  rw [FileTree.isDirectory_iff]
  apply t.rooted location.dropLast (location.getLast hne)
  rw [List.dropLast_append_getLast hne]
  exact node_of_bytesAt h

theorem isDirectory_home {document : Value} {p : Location -> Bool}
    (h : readManifest library t path = .ok document) (htouches : t.Touches p current)
    (hmade : current.mkdirs? destination = some made) : t.isDirectory path.dropLast = true := by
  rcases bytesAt_of_readManifest h with ⟨bytes, hbytes⟩
  apply isDirectory_dropLast _ hbytes
  rintro rfl
  rcases htouches.bytesAt hbytes with ⟨bytes', hbytes'⟩
  have hfile := (FileTree.mkdirs?_eq_some hmade).2.1.kept _ _ (FileTree.bytesAt?_eq_some.mp hbytes')
  rw [FileTree.isDirectory_iff.mp (FileTree.root_of_mkdirs hmade)] at hfile
  cases hfile

variable {faults : Nat -> Option Fault} {kept : List Location} {verified : Files}

theorem reads_verified {result : Except Exn (List Value)}
    (hpath : sidesIn path.dropLast path = false)
    (h : verifyBackup library leadsTo t path = (result, verified)) :
    verified.bytesAt? path = t.bytesAt? path := by
  unfold FileTree.bytesAt?
  rw [(verifyBackup_touches h).same path hpath]

theorem readManifest_congr (h : current.bytesAt? path = t.bytesAt? path) :
    readManifest library current path = readManifest library t path := by
  unfold readManifest readUtf8
  rw [h]

theorem restoreBackup_cases {result : Except Exn (List Value)}
    (hpath : sidesIn path.dropLast path = false)
    (hplain : forall records, Lists library t path records -> Plain records)
    (h : restoreBackup library leadsTo faults kept t path destination = (result, t')) :
    (exists roles records verified, result = .ok roles ∧ Lists library t path records ∧
        verifyBackup library leadsTo t path = (.ok roles, verified) ∧
          FileTree.Stored (sidesIn path.dropLast) destination
            (restored leadsTo verified path.dropLast records (fun _ => none)) t t') ∨
      exists e, result = .error e ∧
        FileTree.Undone (sidesIn path.dropLast) kept destination t t' := by
  unfold restoreBackup at h
  split at h
  · next hverify =>
      cases h
      exact Or.inr ⟨_, rfl, (verifyBackup_touches hverify).undone⟩
  · next roles verified hverify =>
      have htouches := verifyBackup_touches hverify
      rcases verifyBackup_ok hverify with ⟨records, ⟨document, hread, hrecords⟩, hpassed⟩
      have hreread := (readManifest_congr (reads_verified hpath hverify)).trans hread
      split at h
      · cases h
        exact Or.inr ⟨_, rfl, htouches.undone⟩
      · split at h
        · cases h
          exact Or.inr ⟨_, rfl, htouches.undone⟩
        · next made hmade =>
            rcases FileTree.mkdirs?_eq_some hmade with ⟨hnone, hway, hdirectory⟩
            rw [reread hreread hway.kept] at h
            dsimp only at h
            cases hfill : fillTarget leadsTo faults path.dropLast destination document made with
            | mk filled final =>
                rw [hfill] at h
                unfold fillTarget at hfill
                rw [databasesOf_recordsOf hrecords] at hfill
                have hsources := sources_of_plain (isDirectory_home hread htouches hmade) hpassed
                  (hplain records ⟨document, hread, hrecords⟩)
                rcases restoreRecords_inside hnone hsources hway.kept
                  (FileTree.holds_mkdirs hmade) hfill with ⟨hinside, hholds, _⟩
                cases filled with
                | error e =>
                    cases h
                    exact Or.inr ⟨e, rfl,
                      (hway.undone hnone hdirectory hinside.without).touched htouches⟩
                | ok value =>
                    cases h
                    exact Or.inl ⟨roles, records, verified, rfl, ⟨document, hread, hrecords⟩,
                      hverify, ((hholds rfl).stored hmade hinside.without).touched htouches⟩

theorem restoreBackup_succeeds {roles : List Value}
    (hpath : sidesIn path.dropLast path = false)
    (hplain : forall records, Lists library t path records -> Plain records)
    (hnamed : forall records, Lists library t path records ->
      forall record, record ∈ records -> fileOf record ≠ none)
    (hfaults : forall i, faults i = none)
    (hverify : verifyBackup library leadsTo t path = (.ok roles, verified))
    (hmade : verified.mkdirs? destination = some made) :
    (restoreBackup library leadsTo faults kept t path destination).1 = .ok roles := by
  have htouches := verifyBackup_touches hverify
  rcases verifyBackup_ok hverify with ⟨records, ⟨document, hread, hrecords⟩, hpassed⟩
  have hreread := (readManifest_congr (reads_verified hpath hverify)).trans hread
  rcases FileTree.mkdirs?_eq_some hmade with ⟨hnone, hway, _⟩
  unfold restoreBackup
  rw [hverify]
  dsimp only
  rw [hnone, Option.isSome_none, if_neg Bool.false_ne_true, hmade]
  dsimp only
  rw [reread hreread hway.kept]
  dsimp only
  cases hfill : fillTarget leadsTo faults path.dropLast destination document made with
  | mk filled final =>
      unfold fillTarget at hfill
      rw [databasesOf_recordsOf hrecords] at hfill
      have hlists : Lists library t path records := ⟨document, hread, hrecords⟩
      have hsources := sources_of_plain (isDirectory_home hread htouches hmade) hpassed
        (hplain records hlists)
      have hok := (restoreRecords_inside hnone hsources hway.kept (FileTree.holds_mkdirs hmade)
        hfill).2.2 hfaults (hnamed records hlists)
      rw [hok]
      rfl

end

end Ump.Data
