import Ump.Data.Restoration

/-!
# From a backup to its restoration

## The manifest that a backup writes

What is read from the manifest has the members of every dictionary sorted, and says the same of
each copy. The files beside one copy are neither another copy nor beside it, so the copies can
be looked at one by one.
-/

namespace Ump.Data

open Foundation Codec Wire

section

variable {library : Library} {leadsTo : Location -> Location} {t t' verified : Files}
  {home path destination : Location} {records : List Value} {manifest : Manifest}
  {written : Bytes}

theorem nodup_recordFields (record : Record) : (record.fields.map Prod.fst).Nodup := by
  show [points "role", points "file", points "size_bytes", points "sha256"].Nodup
  decide

theorem nodup_manifestFields (manifest : Manifest) : (manifest.fields.map Prod.fst).Nodup := by
  show [points "profile", points "created_at_ms", points "databases"].Nodup
  decide

theorem proper_manifest (floats : FloatLibrary) (manifest : Manifest) :
    (Value.obj manifest.fields).Proper floats := by
  refine ⟨nodup_manifestFields manifest, trivial, trivial, ?_, trivial⟩
  apply properItems_iff.mpr
  intro item hitem
  rcases List.mem_map.mp hitem with ⟨record, _, rfl⟩
  exact ⟨nodup_recordFields record, trivial, trivial, trivial, trivial, trivial⟩

def IsText (text : Points) : Prop :=
  exists characters, text = ofText characters

theorem textual_manifest
    (h : forall record, record ∈ manifest.databases -> IsText record.role ∧ IsText record.file) :
    (Value.obj manifest.fields).Textual := by
  refine ⟨⟨_, rfl⟩, ⟨_, rfl⟩, ⟨_, rfl⟩, trivial, ⟨_, rfl⟩, ?_, trivial⟩
  apply textualItems_iff.mpr
  intro item hitem
  rcases List.mem_map.mp hitem with ⟨record, hrecord, rfl⟩
  exact ⟨⟨_, rfl⟩, (h record hrecord).1, ⟨_, rfl⟩, (h record hrecord).2, ⟨_, rfl⟩, trivial,
    ⟨_, rfl⟩, ⟨_, rfl⟩, trivial⟩

theorem readManifest_written
    (htext : forall record, record ∈ manifest.databases -> IsText record.role ∧ IsText record.file)
    (hwritten : (indentedText (.obj manifest.fields)).bind textBytes = some written)
    (h : t.bytesAt? path = some written) :
    readManifest library t path = .ok (.obj (sortFields (sortedFields manifest.fields))) := by
  rcases Option.bind_eq_some_iff.mp hwritten with ⟨text, hindented, hbytes⟩
  rcases textBytes_eq_some.mp hbytes with ⟨hsurrogate, hencoded⟩
  have hvalue := valueOf_indentedText (proper_manifest library.floats manifest)
    (textual_manifest htext) hindented
  rw [readManifest_eq_ok]
  unfold readUtf8
  rw [h]
  dsimp only
  rw [hencoded, decodeUtf8_encodeUtf8]
  dsimp only
  rw [hsurrogate, if_neg Bool.false_ne_true]
  show loadsText library text = _
  unfold loadsText
  rw [hvalue]
  rfl

def Record.read (record : Record) : Members :=
  sortFields (sortedFields record.fields)

theorem member?_read (record : Record) :
    member? record.read "role" = some (.str record.role) ∧
      member? record.read "file" = some (.str record.file) ∧
        member? record.read "sha256" = some (.str (points record.sha256)) := by
  have hnames := nodup_recordFields record
  unfold Record.read
  rw [member?_sorted hnames, member?_sorted hnames, member?_sorted hnames]
  exact ⟨rfl, rfl, rfl⟩

theorem recordsOf_read (manifest : Manifest) (hne : manifest.databases ≠ []) :
    recordsOf (.obj (sortFields (sortedFields manifest.fields))) =
      .ok (manifest.databases.map (fun record => .obj record.read)) := by
  have hnames := nodup_manifestFields manifest
  have hprofile : member? (sortFields (sortedFields manifest.fields)) "profile" =
      some (.str profile) := by
    rw [member?_sorted hnames]
    rfl
  have hdatabases : member? (sortFields (sortedFields manifest.fields)) "databases" =
      some (.arr (manifest.databases.map (fun record => .obj record.read))) := by
    rw [member?_sorted hnames]
    show some (Value.arr (sortedItems _)) = _
    rw [sortedItems_eq, List.map_map]
    rfl
  unfold recordsOf
  apply bind_eq_ok.mpr
  refine ⟨some (.str profile), congrArg _ hprofile, refuse_bind_iff.mpr ⟨by decide, ?_⟩⟩
  apply bind_eq_ok.mpr
  refine ⟨_, congrArg Except.ok hdatabases, ?_⟩
  cases hrecords : manifest.databases with
  | nil => exact absurd hrecords hne
  | cons record rest => rfl

theorem recordsOf_empty (manifest : Manifest) (h : manifest.databases = []) (records : List Value) :
    recordsOf (.obj (sortFields (sortedFields manifest.fields))) ≠ .ok records := by
  have hdatabases : member? (sortFields (sortedFields manifest.fields)) "databases" =
      some (.arr []) := by
    rw [member?_sorted (nodup_manifestFields manifest)]
    unfold Manifest.fields
    rw [h]
    rfl
  intro hrecords
  have hfound := databasesOf_recordsOf hrecords
  unfold databasesOf at hfound
  dsimp only at hfound
  rw [hdatabases] at hfound
  cases hfound
  unfold recordsOf at hrecords
  rcases bind_eq_ok.mp hrecords with ⟨named, _, hrecords⟩
  rcases refuse_bind_iff.mp hrecords with ⟨_, hrecords⟩
  rcases bind_eq_ok.mp hrecords with ⟨found, hsome, hrecords⟩
  have hsame : found = some (.arr []) := (Except.ok.inj hsome).symm.trans hdatabases
  rw [hsame] at hrecords
  cases hrecords

theorem isSideName_of_getLast? {name : Points} {c : CodePoint} (h : name.getLast? = some c)
    (hwal : c ≠ .char 'l') (hshm : c ≠ .char 'm') : isSideName name = false := by
  have hnot : forall (suffix : Points) (last : CodePoint), suffix.getLast? = some last ->
      c ≠ last -> ¬ suffix <:+ name := by
    rintro suffix last hlast hne ⟨front, rfl⟩
    rw [List.getLast?_append, hlast, Option.some_or, Option.some.injEq] at h
    exact hne h.symm
  unfold isSideName
  rw [decide_eq_false (hnot walSuffix (.char 'l') (by decide) hwal),
    decide_eq_false (hnot shmSuffix (.char 'm') (by decide) hshm)]
  rfl

theorem isSideName_filename (role : Points) : isSideName (filename role) = false := by
  have hthree : (points ".sqlite3").getLast? = some (.char '3') := by decide
  have hlast : (filename role).getLast? = some (.char '3') := by
    unfold filename
    rw [List.getLast?_append, hthree, Option.some_or]
  exact isSideName_of_getLast? hlast (by decide) (by decide)

theorem isSideName_manifestName : isSideName manifestName = false := by
  have hlast : manifestName.getLast? = some (.char 'n') := by decide
  exact isSideName_of_getLast? hlast (by decide) (by decide)

theorem sidesIn_concat (home : Location) (name : Points) :
    sidesIn home (home ++ [name]) = isSideName name := by
  unfold sidesIn
  rw [List.dropLast_concat, List.getLast?_concat, decide_eq_true rfl]
  rfl

theorem isSideName_suffix (name : Points) :
    isSideName (name ++ walSuffix) = true ∧ isSideName (name ++ shmSuffix) = true := by
  unfold isSideName
  rw [decide_eq_true (List.suffix_append name walSuffix),
    decide_eq_true (List.suffix_append name shmSuffix), Bool.or_true]
  exact ⟨rfl, rfl⟩

theorem beside_concat (suffix : Points) (home : Location) (name : Points) :
    beside suffix (home ++ [name]) = home ++ [name ++ suffix] := by
  unfold beside
  rw [List.dropLast_concat, List.getLast?_concat]
  rfl

theorem sidesOf_apart {role other : Points} (h : role ≠ other) (name : Points)
    (hname : name = filename other ∨ name = filename other ++ walSuffix ∨
      name = filename other ++ shmSuffix) :
    sidesOf [home ++ [filename role]] (home ++ [name]) = false := by
  have hwal : walSuffix.getLast? ≠ shmSuffix.getLast? := by decide
  have hlast : forall suffix suffix' : Points, suffix ≠ [] -> suffix' ≠ [] ->
      filename other ++ suffix = filename role ++ suffix' ->
        suffix.getLast? = suffix'.getLast? := by
    intro suffix suffix' hne hne' hsame
    have hends := congrArg List.getLast? hsame
    rw [List.getLast?_append_of_ne_nil _ hne, List.getLast?_append_of_ne_nil _ hne'] at hends
    exact hends
  have hnot : forall suffix, suffix = walSuffix ∨ suffix = shmSuffix ->
      home ++ [name] ≠ home ++ [filename role ++ suffix] := by
    intro suffix hsuffix hsame
    have hnames : name = filename role ++ suffix :=
      (List.cons.inj (List.append_cancel_left hsame)).1
    rcases hname with rfl | rfl | rfl
    · have hside := isSideName_filename other
      rw [hnames] at hside
      rcases hsuffix with rfl | rfl
      · rw [(isSideName_suffix (filename role)).1] at hside
        cases hside
      · rw [(isSideName_suffix (filename role)).2] at hside
        cases hside
    · rcases hsuffix with rfl | rfl
      · exact h (filename_injective (List.append_cancel_right hnames)).symm
      · exact hwal (hlast walSuffix shmSuffix (by decide) (by decide) hnames)
    · rcases hsuffix with rfl | rfl
      · exact hwal (hlast shmSuffix walSuffix (by decide) (by decide) hnames).symm
      · exact h (filename_injective (List.append_cancel_right hnames)).symm
  unfold sidesOf
  rw [List.any_cons, List.any_nil, Bool.or_false, beside_concat, beside_concat,
    decide_eq_false (hnot walSuffix (Or.inl rfl)), decide_eq_false (hnot shmSuffix (Or.inr rfl))]
  rfl

/-- The copy under a role is there, has the digest that was recorded, and passes the check of
SQLite, which looks at the files beside it too. -/
def Intact (library : Library) (t : Files) (home : Location) (copy : Points × Bytes) : Prop :=
  exists found, t.bytesAt? (home ++ [filename copy.1]) = some found ∧
    library.sha256 found = library.sha256 copy.2 ∧
      (library.look (home ++ [filename copy.1]) found
        (sidesAt t (home ++ [filename copy.1]))).1 = .ok "ok"

/-- No copy has been replaced by a symbolic link. -/
def Unlinked (t : Files) (home : Location) (copies : List (Points × Bytes)) : Prop :=
  forall copy, copy ∈ copies -> t.node (home ++ [filename copy.1]) ≠ some .link

theorem follow_of_unlinked {location : Location} (h : t.node location ≠ some .link) :
    t.follow leadsTo location = location := by
  unfold FileTree.follow
  split
  · next hlink => exact absurd hlink h
  · rfl

theorem passes_read {copy : Points × Bytes} (hplain : copy.1.all isPlain = true)
    (hlink : t.node (home ++ [filename copy.1]) ≠ some .link) {candidate : Location}
    {bytes : Bytes} :
    Passes library leadsTo t home (recordOf library copy.1 copy.2).read candidate bytes <->
      candidate = home ++ [filename copy.1] ∧ t.bytesAt? candidate = some bytes ∧
        library.sha256 bytes = library.sha256 copy.2 := by
  rcases member?_read (recordOf library copy.1 copy.2) with ⟨_, hfile, hdigest⟩
  have hname := isName_filename hplain
  have htext : library.textOf
      ((member? (recordOf library copy.1 copy.2).read "file").getD (.str [])) =
        filename copy.1 := by
    rw [hfile]
    rfl
  have hleads : resolved leadsTo t home (library.textOf
      ((member? (recordOf library copy.1 copy.2).read "file").getD (.str []))) =
        .ok (home ++ [filename copy.1]) := by
    rw [htext]
    apply resolved_eq_ok.mpr
    exact ⟨encodable_of_plain (plain_filename hplain),
      (resolve_name hname).trans (follow_of_unlinked hlink)⟩
  have hsame : isText (member? (recordOf library copy.1 copy.2).read "sha256")
      (points (library.sha256 bytes)) = true <->
        library.sha256 bytes = library.sha256 copy.2 := by
    rw [hdigest]
    show (points (library.sha256 copy.2) == points (library.sha256 bytes)) = true <-> _
    rw [beq_iff_eq]
    exact ⟨fun h => (points_injective h).symm, fun h => congrArg points h.symm⟩
  constructor
  · intro h
    have hcandidate := h.leads
    rw [hleads] at hcandidate
    exact ⟨(Except.ok.inj hcandidate).symm, h.found, hsame.mp h.digest⟩
  · rintro ⟨rfl, hfound, hbytes⟩
    exact ⟨hleads, hfound, List.dropLast_concat, hsame.mpr hbytes⟩

theorem verifyRecord_read {copy : Points × Bytes} (hplain : copy.1.all isPlain = true)
    (hlink : t.node (home ++ [filename copy.1]) ≠ some .link) {role : Value} :
    (verifyRecord library leadsTo home (.obj (recordOf library copy.1 copy.2).read) t).1 =
        .ok role <->
      Intact library t home copy ∧ role = .str copy.1 := by
  rw [verifyRecord_eq_ok, (member?_read (recordOf library copy.1 copy.2)).1]
  constructor
  · rintro ⟨⟨candidate, bytes, hpasses, hsound⟩, hvalue⟩
    rcases (passes_read hplain hlink).mp hpasses with ⟨rfl, hfound, hdigest⟩
    exact ⟨⟨bytes, hfound, hdigest, hsound⟩, (Option.some.inj hvalue).symm⟩
  · rintro ⟨⟨bytes, hfound, hdigest, hsound⟩, rfl⟩
    exact ⟨⟨_, bytes, (passes_read hplain hlink).mpr ⟨rfl, hfound, hdigest⟩, hsound⟩, rfl⟩

theorem verifyRecord_read_touches {copy : Points × Bytes} (hplain : copy.1.all isPlain = true)
    (hlink : t.node (home ++ [filename copy.1]) ≠ some .link) {result : Except Exn Value}
    (h : verifyRecord library leadsTo home (.obj (recordOf library copy.1 copy.2).read) t =
      (result, t')) :
    FileTree.Touches (sidesOf [home ++ [filename copy.1]]) t t' := by
  apply verifyRecord_touches _ h
  intro fields candidate bytes hfields hpasses
  cases hfields
  rw [((passes_read hplain hlink).mp hpasses).1]
  exact covers_sidesOf List.mem_cons_self

theorem looked_apart {role : Points} {copy : Points × Bytes} (hne : role ≠ copy.1)
    (h : FileTree.Touches (sidesOf [home ++ [filename role]]) t t') :
    t'.node (home ++ [filename copy.1]) = t.node (home ++ [filename copy.1]) ∧
      (Intact library t' home copy <-> Intact library t home copy) := by
  have hnode : forall name, name = filename copy.1 ∨ name = filename copy.1 ++ walSuffix ∨
      name = filename copy.1 ++ shmSuffix -> t'.node (home ++ [name]) = t.node (home ++ [name]) :=
    fun name hname => h.same _ (sidesOf_apart hne name hname)
  have hbytes : forall name, name = filename copy.1 ∨ name = filename copy.1 ++ walSuffix ∨
      name = filename copy.1 ++ shmSuffix ->
        t'.bytesAt? (home ++ [name]) = t.bytesAt? (home ++ [name]) := by
    intro name hname
    unfold FileTree.bytesAt?
    rw [hnode name hname]
  refine ⟨hnode _ (Or.inl rfl), ?_⟩
  unfold Intact sidesAt
  rw [beside_concat, beside_concat, hbytes _ (Or.inl rfl), hbytes _ (Or.inr (Or.inl rfl)),
    hbytes _ (Or.inr (Or.inr rfl))]

variable {copies : List (Points × Bytes)}

def manifestOf (library : Library) (nowMs : Int) (copies : List (Points × Bytes)) : Manifest where
  createdAtMs := nowMs
  databases := copies.map (fun copy => recordOf library copy.1 copy.2)

def PlainRoles (copies : List (Points × Bytes)) : Prop :=
  forall copy, copy ∈ copies -> copy.1.all isPlain = true

theorem isText_of_plain {text : Points} (h : text.all isPlain = true) : IsText text :=
  ofText_of_plain (fun p hp => (isPlain_iff.mp (List.all_eq_true.mp h p hp)).1)

theorem read_manifestOf {nowMs : Int} (hroles : PlainRoles copies)
    (hwritten : (indentedText (.obj (manifestOf library nowMs copies).fields)).bind textBytes =
      some written) (h : t.bytesAt? path = some written) :
    readManifest library t path =
      .ok (.obj (sortFields (sortedFields (manifestOf library nowMs copies).fields))) := by
  apply readManifest_written _ hwritten h
  intro record hrecord
  rcases List.mem_map.mp hrecord with ⟨copy, hcopy, rfl⟩
  exact ⟨isText_of_plain (hroles copy hcopy), isText_of_plain (plain_filename (hroles copy hcopy))⟩

def readRecords (library : Library) (copies : List (Points × Bytes)) : List Value :=
  copies.map (fun copy => .obj (recordOf library copy.1 copy.2).read)

theorem lists_manifestOf {nowMs : Int} (hroles : PlainRoles copies)
    (hwritten : (indentedText (.obj (manifestOf library nowMs copies).fields)).bind textBytes =
      some written) (h : t.bytesAt? path = some written) :
    Lists library t path records <-> copies ≠ [] ∧ records = readRecords library copies := by
  have hread := read_manifestOf hroles hwritten h
  have hmap : (manifestOf library nowMs copies).databases.map
      (fun record => Value.obj record.read) = readRecords library copies :=
    List.map_map
  unfold Lists
  constructor
  · rintro ⟨document, hdocument, hrecords⟩
    rw [hread] at hdocument
    cases hdocument
    by_cases hempty : copies = []
    · refine absurd hrecords (recordsOf_empty _ ?_ _)
      rw [hempty]
      rfl
    · rw [recordsOf_read _ (by simpa [manifestOf] using hempty), hmap] at hrecords
      exact ⟨hempty, (Except.ok.inj hrecords).symm⟩
  · rintro ⟨hne, rfl⟩
    refine ⟨_, hread, ?_⟩
    rw [recordsOf_read _ (by simpa [manifestOf] using hne), hmap]

theorem verified_readRecords (hroles : PlainRoles copies) (hnodup : (copies.map Prod.fst).Nodup)
    (hlinks : Unlinked t home copies) {roles : List Value} :
    (verifyRecords library leadsTo home (readRecords library copies) t).1 = .ok roles <->
      (forall copy, copy ∈ copies -> Intact library t home copy) ∧
        roles = copies.map (fun copy => .str copy.1) := by
  induction copies generalizing roles t with
  | nil =>
      exact ⟨fun h => ⟨fun _ hmem => (by cases hmem), (Except.ok.inj h).symm⟩,
        fun h => congrArg _ h.2.symm⟩
  | cons copy rest ih =>
      have hsplit : readRecords library (copy :: rest) =
          .obj (recordOf library copy.1 copy.2).read :: readRecords library rest := rfl
      rw [List.map_cons, List.nodup_cons] at hnodup
      have hplain := hroles copy List.mem_cons_self
      have hlink := hlinks copy List.mem_cons_self
      have hhead := @verifyRecord_read library leadsTo t home copy hplain hlink
      rw [hsplit, List.forall_mem_cons]
      unfold verifyRecords
      cases hstep : verifyRecord library leadsTo home
          (.obj (recordOf library copy.1 copy.2).read) t with
      | mk first middle =>
          have hlooked := verifyRecord_read_touches hplain hlink hstep
          have hne : forall other, other ∈ rest -> copy.1 ≠ other.1 := by
            intro other hother hsame
            apply hnodup.1
            rw [hsame]
            exact List.mem_map_of_mem hother
          have hrest := @ih middle
            (fun other hother => hroles other (List.mem_cons_of_mem _ hother)) hnodup.2 (by
              intro other hother
              rw [(@looked_apart library _ _ home _ other (hne other hother) hlooked).1]
              exact hlinks other (List.mem_cons_of_mem copy hother))
          have hintact : (forall other, other ∈ rest -> Intact library middle home other) <->
              forall other, other ∈ rest -> Intact library t home other :=
            forall₂_congr (fun other hother => (looked_apart (hne other hother) hlooked).2)
          rw [hstep] at hhead
          cases first with
          | error e =>
              constructor
              · exact fun h => (by cases h)
              · rintro ⟨⟨hfirst, _⟩, _⟩
                cases hhead.mpr ⟨hfirst, rfl⟩
          | ok role =>
              rcases hhead.mp rfl with ⟨hfirst, rfl⟩
              dsimp only
              rw [hintact] at hrest
              cases hothers : verifyRecords library leadsTo home (readRecords library rest) middle
                with
              | mk others last =>
                  rw [hothers] at hrest
                  cases others with
                  | error e =>
                      constructor
                      · exact fun h => (by cases h)
                      · rintro ⟨⟨_, hall⟩, _⟩
                        cases hrest.mpr ⟨hall, rfl⟩
                  | ok found =>
                      rcases hrest.mp rfl with ⟨hall, rfl⟩
                      constructor
                      · intro h
                        cases h
                        exact ⟨⟨hfirst, hall⟩, rfl⟩
                      · rintro ⟨_, rfl⟩
                        rfl

theorem verifyBackup_manifestOf {nowMs : Int} (hroles : PlainRoles copies)
    (hnodup : (copies.map Prod.fst).Nodup) (hlinks : Unlinked t path.dropLast copies)
    (hwritten : (indentedText (.obj (manifestOf library nowMs copies).fields)).bind textBytes =
      some written) (h : t.bytesAt? path = some written) {roles : List Value} :
    (verifyBackup library leadsTo t path).1 = .ok roles <->
      (copies ≠ [] ∧ forall copy, copy ∈ copies -> Intact library t path.dropLast copy) ∧
        roles = copies.map (fun copy => .str copy.1) := by
  constructor
  · intro hverify
    rcases verifyBackup_ok (Prod.ext hverify rfl) with ⟨records, hlists, hverified⟩
    rcases (lists_manifestOf hroles hwritten h).mp hlists with ⟨hne, rfl⟩
    rcases (verified_readRecords hroles hnodup hlinks).mp (congrArg Prod.fst hverified) with
      ⟨hall, hsame⟩
    exact ⟨⟨hne, hall⟩, hsame⟩
  · rintro ⟨⟨hne, hall⟩, hsame⟩
    rw [verifyBackup_of_lists ((lists_manifestOf hroles hwritten h).mpr ⟨hne, rfl⟩)]
    exact (verified_readRecords hroles hnodup hlinks).mpr ⟨hall, hsame⟩

theorem fileOf_read (record : Record) : fileOf (.obj record.read) = some record.file :=
  fileOf_eq_some.mpr ⟨record.read, rfl, (member?_read record).2.1⟩

theorem fileNames_readRecords (library : Library) (copies : List (Points × Bytes)) :
    fileNames (readRecords library copies) = copies.map (fun copy => filename copy.1) := by
  unfold fileNames readRecords
  rw [List.filterMap_map]
  apply List.filterMap_eq_map_iff_forall_eq_some.mpr
  intro copy _
  exact fileOf_read (recordOf library copy.1 copy.2)

theorem plain_readRecords (hroles : PlainRoles copies) : Plain (readRecords library copies) := by
  intro file hfile hslash
  rw [fileNames_readRecords] at hfile
  rcases List.mem_map.mp hfile with ⟨copy, hcopy, rfl⟩
  have hplain := List.all_eq_true.mp (plain_filename (hroles copy hcopy)) _ hslash
  exact (isPlain_iff.mp hplain).2.1 rfl

/-!
## Recovery

The copies of a backup are found under their names with nothing beside them. If each of them
passes the check of SQLite, they are accepted and restored, also from a tree that has changed
elsewhere.
-/

def copiesIn (t : Files) (home : Location) (copies : List (Points × Bytes)) (name : Points) :
    Option Bytes :=
  if (copies.map (fun copy => filename copy.1)).contains name then t.bytesAt? (home ++ [name])
  else none

/-- What a tree with the manifest of the copies gives back. -/
structure Recoverable (library : Library) (leadsTo : Location -> Location) (t : Files)
    (home : Location) (copies : List (Points × Bytes)) : Prop where
  accepted : forall roles,
    (verifyBackup library leadsTo t (home ++ [manifestName])).1 = .ok roles <->
      (copies ≠ [] ∧ forall copy, copy ∈ copies -> Intact library t home copy) ∧
        roles = copies.map (fun copy => .str copy.1)
  looked : FileTree.Touches (sidesIn home) t
    (verifyBackup library leadsTo t (home ++ [manifestName])).2
  restored : forall roles target kept,
    (verifyBackup library leadsTo t (home ++ [manifestName])).1 = .ok roles -> t.Free target ->
      (forall before, before <+: target -> sidesIn home before = false) ->
        exists t',
          restoreBackup library leadsTo (fun _ => none) kept t (home ++ [manifestName]) target =
              (.ok roles, t') ∧
            FileTree.Stored (sidesIn home) target (copiesIn t home copies) t t'

theorem restored_read (hlinks : Unlinked t home copies)
    (htouches : FileTree.Touches (sidesIn home) t verified) :
    restored leadsTo verified home (readRecords library copies) (fun _ => none) =
      copiesIn t home copies := by
  funext name
  unfold restored copiesIn
  rw [fileNames_readRecords]
  by_cases hin : (copies.map (fun copy => filename copy.1)).contains name = true
  · rw [if_pos hin, if_pos hin]
    rcases List.mem_map.mp (List.contains_iff_mem.mp hin) with ⟨copy, hcopy, rfl⟩
    have hsame := htouches.same (home ++ [filename copy.1])
      ((sidesIn_concat home _).trans (isSideName_filename copy.1))
    have hlink := hlinks copy hcopy
    rw [← hsame] at hlink
    rw [follow_of_unlinked hlink]
    unfold FileTree.bytesAt?
    rw [hsame]
  · rw [if_neg hin, if_neg hin]

theorem free_touched {p : Location -> Bool} (h : t.Free destination)
    (htouches : FileTree.Touches p t verified)
    (hp : forall before, before <+: destination -> p before = false) :
    verified.Free destination where
  ne_nil := h.ne_nil
  fresh := (htouches.same _ (hp _ (List.prefix_refl destination))).trans h.fresh
  way before hbefore := by
    rw [htouches.same before (hp before hbefore)]
    exact h.way before hbefore

theorem recoverable {nowMs : Int} (hroles : PlainRoles copies)
    (hnodup : (copies.map Prod.fst).Nodup) (hlinks : Unlinked t home copies)
    (hwritten : (indentedText (.obj (manifestOf library nowMs copies).fields)).bind textBytes =
      some written) (h : t.bytesAt? (home ++ [manifestName]) = some written) :
    Recoverable library leadsTo t home copies := by
  have hhome : (home ++ [manifestName]).dropLast = home := List.dropLast_concat
  have hlinks' : Unlinked t (home ++ [manifestName]).dropLast copies := by
    rw [hhome]
    exact hlinks
  have haccepted := fun roles =>
    @verifyBackup_manifestOf library leadsTo t (home ++ [manifestName]) written copies nowMs
      hroles hnodup hlinks' hwritten h roles
  have htouches : FileTree.Touches (sidesIn (home ++ [manifestName]).dropLast) t
      (verifyBackup library leadsTo t (home ++ [manifestName])).2 :=
    verifyBackup_touches (Prod.ext rfl rfl)
  rw [hhome] at haccepted htouches
  have hpath : sidesIn (home ++ [manifestName]).dropLast (home ++ [manifestName]) = false := by
    rw [hhome, sidesIn_concat]
    exact isSideName_manifestName
  constructor
  case accepted => exact haccepted
  case looked => exact htouches
  case restored =>
      intro roles target kept hverify hfree hbefore
      have hlists : forall records, Lists library t (home ++ [manifestName]) records ->
          records = readRecords library copies :=
        fun records hrecords => ((lists_manifestOf hroles hwritten h).mp hrecords).2
      have hplain : forall records, Lists library t (home ++ [manifestName]) records ->
          Plain records := by
        intro records hrecords
        rw [hlists records hrecords]
        exact plain_readRecords hroles
      have hroot : t.isDirectory [] = true := by
        apply FileTree.isDirectory_iff.mpr
        exact FileTree.directory_of_inside (List.concat_ne_nil manifestName home)
          (node_of_bytesAt h)
      rcases FileTree.exists_mkdirs (free_touched hfree htouches hbefore)
        (htouches.isDirectory hroot) with ⟨made, hmade⟩
      have hok := @restoreBackup_succeeds library leadsTo t (home ++ [manifestName]) made target
        (fun _ => none) kept _ roles hpath hplain (by
          intro records hrecords record hrecord
          rw [hlists records hrecords] at hrecord
          rcases List.mem_map.mp hrecord with ⟨copy, _, rfl⟩
          rw [fileOf_read]
          exact Option.some_ne_none _) (fun _ => rfl) (Prod.ext hverify rfl) hmade
      cases hrun : restoreBackup library leadsTo (fun _ => none) kept t (home ++ [manifestName])
          target with
      | mk result t' =>
          rw [hrun] at hok
          cases hok
          rcases restoreBackup_cases hpath hplain hrun with hdone | hfailed
          · rcases hdone with ⟨_, records, verified, hsame, hrecords, hverified, hstored⟩
            cases hsame
            rw [hverified] at htouches
            rw [hlists records hrecords, hhome, restored_read hlinks htouches] at hstored
            exact ⟨t', rfl, hstored⟩
          · rcases hfailed with ⟨e, hsame, _⟩
            cases hsame

variable {around : Surroundings} {cwd : Location} {values : List Points}

theorem copied_of_mem {entries : List (Points × Location)}
    (h : List.Forall₂ (Copied library around destination) entries copies) {copy : Points × Bytes}
    (hcopy : copy ∈ copies) :
    exists entry, entry ∈ entries ∧ Copied library around destination entry copy := by
  induction h with
  | nil => cases hcopy
  | @cons entry first entries rest hcopied _ ih =>
      rcases List.mem_cons.mp hcopy with rfl | hrest
      · exact ⟨entry, List.mem_cons_self, hcopied⟩
      · rcases ih hrest with ⟨other, hother, hfound⟩
        exact ⟨other, List.mem_cons_of_mem entry hother, hfound⟩

theorem plainRoles_of_copied {entries : List (Points × Location)}
    (h : List.Forall₂ (Copied library around destination) entries copies)
    (hroles : forall entry, entry ∈ entries -> isRole library entry.1 = true) :
    PlainRoles copies := by
  intro copy hcopy
  rcases copied_of_mem h hcopy with ⟨entry, hentry, hcopied⟩
  rw [hcopied.role]
  exact plain_of_isRole (hroles entry hentry)

theorem backupContents_of_mem {copies : List (Points × Bytes)} {copy : Points × Bytes}
    (hnodup : (copies.map Prod.fst).Nodup) (hcopy : copy ∈ copies) (written : Bytes) :
    backupContents copies written (filename copy.1) = some copy.2 := by
  unfold backupContents
  rw [if_neg (filename_ne_manifestName copy.1)]
  cases hfind : copies.find? (fun other => decide (filename other.1 = filename copy.1)) with
  | none => exact absurd (decide_eq_true rfl) (List.find?_eq_none.mp hfind copy hcopy)
  | some other =>
      have hfound : decide (filename other.1 = filename copy.1) = true := by
        have hsome := List.find?_some hfind
        exact hsome
      have hname := filename_injective (of_decide_eq_true hfound)
      have hsame := List.inj_on_of_nodup_map hnodup (List.mem_of_find?_eq_some hfind) hcopy hname
      rw [hsame]
      rfl

theorem backupContents_side (copies : List (Points × Bytes)) (written : Bytes) {name : Points}
    (h : isSideName name = true) : backupContents copies written name = none := by
  unfold backupContents
  rw [if_neg]
  · apply Option.map_eq_none_iff.mpr
    apply List.find?_eq_none.mpr
    intro other _ hname
    rw [← of_decide_eq_true hname, isSideName_filename] at h
    cases h
  · rintro rfl
    rw [isSideName_manifestName] at h
    cases h

theorem intact_of_holds (hholds : t.Holds destination (backupContents copies written))
    (hnodup : (copies.map Prod.fst).Nodup) {copy : Points × Bytes} (hcopy : copy ∈ copies)
    (hsound : (library.look (destination ++ [filename copy.1]) copy.2 ⟨none, none⟩).1 = .ok "ok") :
    Intact library t destination copy := by
  refine ⟨copy.2, ?_, rfl, ?_⟩
  · rw [hholds.bytesAt, backupContents_of_mem hnodup hcopy]
  · unfold sidesAt
    rw [beside_concat, beside_concat, hholds.bytesAt, hholds.bytesAt,
      backupContents_side copies written (isSideName_suffix (filename copy.1)).1,
      backupContents_side copies written (isSideName_suffix (filename copy.1)).2]
    exact hsound

theorem unlinked_of_holds {contents : Points -> Option Bytes}
    (h : t.Holds destination contents) : Unlinked t destination copies := by
  intro copy _ hlink
  rw [h.node_single] at hlink
  cases hcontents : contents (filename copy.1) with
  | none =>
      rw [hcontents] at hlink
      cases hlink
  | some bytes =>
      rw [hcontents] at hlink
      cases hlink

/-- From the stores that are backed up to those that are restored. -/
theorem backup_restores
    (h : (backupCommand library leadsTo around t cwd values destination).1 =
      .ok (manifest, path)) :
    exists databases copies written,
      parseDatabases library leadsTo t cwd values = .ok databases ∧ copies ≠ [] ∧
        List.Forall₂ (Copied library around destination) (sortedEntries databases.entries)
          copies ∧
        path = destination ++ [manifestName] ∧
        FileTree.Stored (sidesOf databases.stores) destination (backupContents copies written) t
          (backupCommand library leadsTo around t cwd values destination).2 ∧
        (forall copy, copy ∈ copies -> Intact library
          (backupCommand library leadsTo around t cwd values destination).2 destination copy) ∧
        forall leadsTo later, FileTree.bytesAt? later path = some written ->
          Unlinked later destination copies ->
            Recoverable library leadsTo later destination copies := by
  unfold backupCommand at h ⊢
  cases hparse : parseDatabases library leadsTo t cwd values with
  | error e =>
      rw [hparse] at h
      cases h
  | ok databases =>
      rw [hparse] at h
      dsimp only at h ⊢
      rcases parseDatabases_ok hparse with ⟨hsome, hexist⟩
      cases hrun : createBackup library around t databases destination with
      | mk result t' =>
          rw [hrun] at h
          have hresult : result = .ok (manifest, path) := h
          subst hresult
          rcases createBackup_ok hexist hrun with
            ⟨copies, written, hall, rfl, hwritten, rfl, hstored⟩
          have hroles : PlainRoles copies := by
            apply plainRoles_of_copied hall
            intro entry hentry
            exact databases.roles entry ((perm_sortedEntries databases.entries).mem_iff.mp hentry)
          have hne : copies ≠ [] := by
            rintro rfl
            have hnil := List.forall₂_nil_right_iff.mp hall
            have hperm := perm_sortedEntries databases.entries
            rw [hnil] at hperm
            exact hsome hperm.nil_eq.symm
          refine ⟨databases, copies, written, rfl, hne, hall, rfl, hstored, ?_,
            fun leadsTo later hlater hlinks =>
              recoverable hroles (nodup_roles hall) hlinks hwritten hlater⟩
          intro copy hcopy
          rcases copied_of_mem hall hcopy with ⟨_, _, hcopied⟩
          exact intact_of_holds hstored.holds (nodup_roles hall) hcopy hcopied.sound

end

/-! ### An empty store -/

def emptyLibrary : Library where
  floats := halfLibrary
  shown _ := ""
  isIdentifier text := text.all isPlain
  plain _ h := h
  sha256 bytes :=
    if bytes = [] then "e3b0c44298fc1c149afbf4c8996fb92427ae41e4649b934ca495991b7852b855" else ""
  look _ bytes sides :=
    (if bytes = [] then .ok "ok" else .error (.runtime "file is not a database"), sides)

def storeFiles : Files :=
  ((FileTree.root.mkdir? [] (points "data")).bind
    (fun t => t.writeBytes? [points "data"] (points "c.sqlite3") [])).getD FileTree.root

def quiet : Surroundings where
  nowMs := 1000
  snapshot _ := .ok []
  sides _ := ⟨none, none⟩
  fault := none
  kept := []

def coordinatorBackup : Except Exn (Manifest × Location) × Files :=
  backupCommand emptyLibrary id quiet storeFiles [] [points "coordinator=/data/c.sqlite3"]
    [points "backup"]

theorem coordinator_recoverable :
    exists copies, copies ≠ [] ∧
      (forall copy, copy ∈ copies ->
        Intact emptyLibrary coordinatorBackup.2 [points "backup"] copy) ∧
      Recoverable emptyLibrary id coordinatorBackup.2 [points "backup"] copies := by
  have hcreated : coordinatorBackup.1 =
      .ok (manifestOf emptyLibrary 1000 [(points "coordinator", [])],
        [points "backup", manifestName]) := by
    decide +kernel
  rcases backup_restores hcreated with ⟨_, copies, written, _, hne, _, _, hstored, hintact, hall⟩
  refine ⟨copies, hne, hintact, hall id _ ?_ (unlinked_of_holds hstored.holds)⟩
  exact (hstored.holds.bytesAt manifestName).trans (if_pos rfl)

section

variable {library : Library} {leadsTo : Location -> Location} {t : Files}
  {path cwd destination : Location}

end

def craftedFiles : Files :=
  (do
    let t ← FileTree.root.mkdir? [] (points "b")
    let t ← t.writeBytes? [points "b"] (points "a") []
    let t ← t.writeBytes? [points "b"] manifestName
      (bytesOf ("\x7b\"databases\":[\x7b\"file\":\"../b/a\",\"role\":\"r\",\"sha256\":\"" ++
        emptyLibrary.sha256 [] ++ "\"\x7d],\"profile\":\"ump-data-backup/v1\"\x7d"))
    let t ← t.mkdir? [] (points "x")
    let t ← t.mkdir? [points "x"] (points "b")
    t.writeBytes? [points "x", points "b"] (points "a") [1]).getD FileTree.root

/-- A name with separators passes, and a file beside the target is overwritten. -/
theorem separator_escapes :
    craftedFiles.bytesAt? [points "x", points "b", points "a"] = some [1] ∧
      exists roles t',
        restoreBackup emptyLibrary id (fun _ => none) [] craftedFiles [points "b", manifestName]
            [points "x", points "t"] = (.ok roles, t') ∧
          t'.bytesAt? [points "x", points "b", points "a"] = some [] := by
  refine ⟨by decide +kernel, ?_⟩
  have hok : (restoreBackup emptyLibrary id (fun _ => none) [] craftedFiles
      [points "b", manifestName] [points "x", points "t"]).1.toOption.isSome = true := by
    decide +kernel
  have hbytes : (restoreBackup emptyLibrary id (fun _ => none) [] craftedFiles
      [points "b", manifestName] [points "x", points "t"]).2.bytesAt?
        [points "x", points "b", points "a"] = some [] := by
    decide +kernel
  cases hrun : restoreBackup emptyLibrary id (fun _ => none) [] craftedFiles
      [points "b", manifestName] [points "x", points "t"] with
  | mk result t' =>
      rw [hrun] at hok hbytes
      cases result with
      | error e => cases hok
      | ok roles => exact ⟨roles, t', rfl, hbytes⟩

end Ump.Data
