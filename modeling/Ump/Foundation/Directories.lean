import Ump.Foundation.FileTree

/-!
# Directories on the way

## Parents

`mkdir` with its parents makes the directories on the way to a location that are not there.
-/

namespace Foundation.FileTree

variable {name content : Type} {t t' : FileTree name content} {parent done location : List name}
  {child : name}

/-- Directories have been made on the way to the location, and nothing else has changed. -/
structure WayTo (location : List name) (t t' : FileTree name content) : Prop where
  same : forall other, ¬ other <+: location -> t'.node other = t.node other
  kept : Spares t t'
  made : forall other node, t'.node other = some node ->
    t.node other = some node ∨ node = .directory

structure Holds (directory : List name) (contents : name -> Option content)
    (t : FileTree name content) : Prop where
  isDirectory : t.isDirectory directory = true
  node : forall first rest,
    t.node (directory ++ first :: rest) = if rest = [] then (contents first).map .file else none

def without (t : FileTree name content) (p : List name -> Bool) : FileTree name content where
  node location := if p location && !t.isDirectory location then none else t.node location
  rooted := by
    intro location child hsome
    have hchild : t.node (location ++ [child]) ≠ none := by
      intro hnone
      rw [hnone, ite_self] at hsome
      exact hsome rfl
    have hdirectory := t.rooted location child hchild
    rw [isDirectory_iff.mpr hdirectory, Bool.not_true, Bool.and_false,
      if_neg Bool.false_ne_true]
    exact hdirectory

/-- A directory with these files has been made, and those on the way to it. Nothing else is
different but for files at the locations `p`. -/
structure Stored (p : List name -> Bool) (directory : List name)
    (contents : name -> Option content) (t t' : FileTree name content) : Prop where
  fresh : t.node directory = none
  holds : t'.Holds directory contents
  same : forall other, ¬ other <+: directory -> ¬ directory <+: other ->
    (t'.without p).node other = (t.without p).node other
  kept : Spares (t.without p) (t'.without p)

/-- A new directory has been removed again. What is left of it are the directories on the way
to it and what could not be removed, and files at the locations `p` may be different. -/
def Undone [DecidableEq name] (p : List name -> Bool) (kept : List (List name))
    (directory : List name) (t t' : FileTree name content) : Prop :=
  forall other, (t'.without p).node other = (t.without p).node other ∨
    (other ≠ directory ∧ other <+: directory ∧ t.node other = none ∧
      t'.node other = some .directory) ∨
    (directory <+: other ∧ t.node directory = none ∧ t'.holdsAny kept other = true)

/-- Files have been written at some of the locations, and nothing else has changed. -/
structure Touches (p : List name -> Bool) (t t' : FileTree name content) : Prop where
  same : forall other, p other = false -> t'.node other = t.node other
  file : forall other, t'.node other = t.node other ∨
    (t.node other = none ∨ exists bytes, t.node other = some (.file bytes)) ∧
      exists bytes, t'.node other = some (.file bytes)

theorem WayTo.refl (location : List name) (t : FileTree name content) : WayTo location t t where
  same _ _ := rfl
  kept := Spares.refl t
  made _ _ h := Or.inl h

theorem Spares.trans {t'' : FileTree name content} (h : Spares t t') (h' : Spares t' t'') :
    Spares t t'' :=
  fun other node hnode => h' other node (h other node hnode)

theorem WayTo.trans {t'' : FileTree name content} (h : WayTo location t t')
    (h' : WayTo location t' t'') : WayTo location t t'' where
  same other hother := (h'.same other hother).trans (h.same other hother)
  kept := h.kept.trans h'.kept
  made other node hnode := (h'.made other node hnode).elim (h.made other node) Or.inr

theorem node_inside_of_none (h : t.node location = none) (rest : List name) :
    t.node (location ++ rest) = none := by
  cases rest with
  | nil =>
      rw [List.append_nil]
      exact h
  | cons first others =>
      by_contra hsome
      have hdirectory := directory_of_inside (List.cons_ne_nil first others) hsome
      rw [h] at hdirectory
      cases hdirectory

theorem WayTo.empty (h : WayTo location t t') (hnone : t.node location = none) {rest : List name}
    (hrest : rest ≠ []) : t'.node (location ++ rest) = none := by
  rw [h.same]
  · exact node_inside_of_none hnone rest
  · intro hprefix
    have hlength := hprefix.length_le
    rw [List.length_append] at hlength
    have hpositive := List.length_pos_of_ne_nil hrest
    omega

def OnlyInside (location : List name) (t t' : FileTree name content) : Prop :=
  forall other, (forall first rest, other ≠ location ++ first :: rest) ->
    t'.node other = t.node other

theorem OnlyInside.refl (location : List name) (t : FileTree name content) :
    OnlyInside location t t :=
  fun _ _ => rfl

theorem OnlyInside.trans {t'' : FileTree name content} (h : OnlyInside location t t')
    (h' : OnlyInside location t' t'') : OnlyInside location t t'' :=
  fun other hother => (h' other hother).trans (h other hother)

theorem OnlyInside.node_self (h : OnlyInside location t t') :
    t'.node location = t.node location := by
  apply h
  intro first rest hsame
  have hlength := congrArg List.length hsame
  rw [List.length_append, List.length_cons] at hlength
  omega

theorem OnlyInside.sameOutside (h : OnlyInside location t t') : SameOutside location t t' := by
  intro other hout
  apply h
  rintro first rest rfl
  exact hout (List.prefix_append location _)

theorem Spares.inside {t'' : FileTree name content} (h : Spares t t')
    (hnone : t.node location = none) (hinside : OnlyInside location t' t'') : Spares t t'' := by
  intro other node hnode
  rw [hinside other]
  · exact h other node hnode
  · rintro first rest rfl
    rw [node_inside_of_none hnone (first :: rest)] at hnode
    cases hnode

theorem Spares.isDirectory (h : Spares t t') (hdirectory : t.isDirectory location = true) :
    t'.isDirectory location = true :=
  isDirectory_iff.mpr (h location _ (isDirectory_iff.mp hdirectory))

/-- Nothing is at the location, and whatever is on the way to it is a directory. -/
structure Free (t : FileTree name content) (location : List name) : Prop where
  ne_nil : location ≠ []
  fresh : t.node location = none
  way : forall before, before <+: location ->
    t.node before = none ∨ t.node before = some .directory

/-- Where a link leads, and any other location itself. -/
def follow (leadsTo : List name -> List name) (t : FileTree name content)
    (location : List name) : List name :=
  match t.node location with
  | some .link => leadsTo location
  | _ => location

def bytesAt? (t : FileTree name content) (location : List name) : Option content :=
  match t.node location with
  | some (.file bytes) => some bytes
  | _ => none

theorem bytesAt?_eq_some {bytes : content} :
    t.bytesAt? location = some bytes <-> t.node location = some (.file bytes) := by
  unfold bytesAt?
  split
  · next found hfound =>
      rw [hfound, Option.some.injEq, Option.some.injEq, Node.file.injEq]
  · next hother =>
      exact ⟨fun h => (by cases h), fun h => absurd h (hother bytes)⟩

theorem Spares.bytesAt {bytes : content} (h : Spares t t')
    (hbytes : t.bytesAt? location = some bytes) : t'.bytesAt? location = some bytes :=
  bytesAt?_eq_some.mpr (h location _ (bytesAt?_eq_some.mp hbytes))

theorem Spares.follow {leadsTo : List name -> List name} (h : Spares t t')
    (hsome : t.node (t.follow leadsTo location) ≠ none) :
    t'.follow leadsTo location = t.follow leadsTo location := by
  cases hnode : t.node location with
  | none =>
      have hsame : t.follow leadsTo location = location := by
        unfold FileTree.follow
        rw [hnode]
      rw [hsame] at hsome
      exact absurd hnode hsome
  | some node =>
      unfold FileTree.follow
      rw [hnode, h location node hnode]

theorem Holds.node_single {contents : name -> Option content} (h : t.Holds location contents)
    (child : name) : t.node (location ++ [child]) = (contents child).map .file := by
  rw [h.node child [], if_pos rfl]

theorem Holds.bytesAt {contents : name -> Option content} (h : t.Holds location contents)
    (child : name) : t.bytesAt? (location ++ [child]) = contents child := by
  unfold bytesAt?
  rw [h.node_single]
  cases contents child <;> rfl

theorem Holds.follow {contents : name -> Option content} (h : t.Holds location contents)
    (leadsTo : List name -> List name) (child : name) :
    t.follow leadsTo (location ++ [child]) = location ++ [child] := by
  unfold FileTree.follow
  rw [h.node_single]
  cases contents child <;> rfl

section

variable [DecidableEq name]

def makeDirectories? (t : FileTree name content) (done : List name) :
    List name -> Option (FileTree name content)
  | [] => some t
  | child :: rest =>
      if t.isDirectory (done ++ [child]) then makeDirectories? t (done ++ [child]) rest
      else
        match t.mkdir? done child with
        | some made => makeDirectories? made (done ++ [child]) rest
        | none => none

/-- `mkdir` with its parents. -/
def mkdirs? (t : FileTree name content) (location : List name) : Option (FileTree name content) :=
  if location = [] ∨ (t.node location).isSome then none else t.makeDirectories? [] location

/-- The real path of a path from a location, whether or not there is something. -/
def resolve (leadsTo : List name -> List name) (up : name) (t : FileTree name content)
    (location : List name) : List name -> List name
  | [] => location
  | child :: rest =>
      t.resolve leadsTo up
        (if child = up then location.dropLast else t.follow leadsTo (location ++ [child])) rest

/-- The location that a path leads to, all but the last of its names through directories. -/
def walk? (leadsTo : List name -> List name) (up : name) (t : FileTree name content)
    (location : List name) : List name -> Option (List name)
  | [] => some location
  | child :: rest =>
      if t.isDirectory location then
        t.walk? leadsTo up
          (if child = up then location.dropLast else t.follow leadsTo (location ++ [child])) rest
      else none

def writeAt? (t : FileTree name content) (location : List name) (bytes : content) :
    Option (FileTree name content) :=
  match location.getLast? with
  | some child => t.writeBytes? location.dropLast child bytes
  | none => none

theorem put?_eq_some {node : Node content} (h : t.put? parent child node = some t') :
    t.isDirectory parent = true ∧ t.isDirectory (parent ++ [child]) = false ∧
      forall other,
        t'.node other = if other = parent ++ [child] then some node else t.node other := by
  unfold put? at h
  split at h
  · next hplace =>
      cases h
      exact ⟨hplace.1, hplace.2, fun _ => rfl⟩
  · cases h

theorem put?_of_place {node : Node content} (hparent : t.isDirectory parent = true)
    (hplace : t.isDirectory (parent ++ [child]) = false) :
    exists t', t.put? parent child node = some t' :=
  ⟨_, dif_pos ⟨hparent, hplace⟩⟩

theorem spares_put {node : Node content} (h : t.put? parent child node = some t')
    (hnone : t.node (parent ++ [child]) = none) : Spares t t' := by
  intro other old hold
  rw [(put?_eq_some h).2.2 other, if_neg]
  · exact hold
  · rintro rfl
    rw [hnone] at hold
    cases hold

theorem wayTo_mkdir (h : t.mkdir? parent child = some t') (hway : parent ++ [child] <+: location) :
    WayTo location t t' := by
  unfold mkdir? at h
  split at h
  · cases h
  · next hnone =>
      rw [Bool.not_eq_true, Option.isSome_eq_false_iff, Option.isNone_iff_eq_none] at hnone
      have hput := (put?_eq_some h).2.2
      constructor
      case same =>
          intro other hother
          rw [hput other, if_neg]
          rintro rfl
          exact hother hway
      case kept => exact spares_put h hnone
      case made =>
          intro other node hnode
          rw [hput other] at hnode
          split at hnode
          · cases hnode
            exact Or.inr rfl
          · exact Or.inl hnode

theorem makeDirectories?_eq_some {rest : List name}
    (h : t.makeDirectories? done rest = some t') :
    WayTo (done ++ rest) t t' ∧
      (t.isDirectory done = true ∨ rest ≠ [] -> t'.isDirectory (done ++ rest) = true) := by
  induction rest generalizing t done with
  | nil =>
      cases h
      rw [List.append_nil]
      exact ⟨WayTo.refl done _, fun hdone => hdone.elim id (fun hne => absurd rfl hne)⟩
  | cons child rest ih =>
      have hsplit : done ++ child :: rest = (done ++ [child]) ++ rest := by
        rw [List.append_assoc]
        rfl
      rw [hsplit]
      unfold makeDirectories? at h
      split at h
      · next hdirectory =>
          rcases ih h with ⟨hway, hlast⟩
          exact ⟨hway, fun _ => hlast (Or.inl hdirectory)⟩
      · split at h
        · next made hmade =>
            rcases ih h with ⟨hway, hlast⟩
            refine ⟨(wayTo_mkdir hmade (List.prefix_append _ rest)).trans hway, fun _ => ?_⟩
            apply hlast
            left
            unfold mkdir? at hmade
            split at hmade
            · cases hmade
            · rw [isDirectory_iff, (put?_eq_some hmade).2.2, if_pos rfl]
        · cases h

theorem onlyInside_put {node : Node content} (h : t.put? parent child node = some t') :
    OnlyInside parent t t' := by
  intro other hother
  rw [(put?_eq_some h).2.2 other, if_neg (hother child [])]

/-- Other contents for a file, or a new one, unless something else is in the way. -/
def overwrite (t : FileTree name content) (location : List name) (bytes : content) :
    FileTree name content :=
  match t.node location with
  | some .link => t
  | _ => (t.writeAt? location bytes).getD t

/-!
## New directories

Nothing is inside a location where nothing is, so a directory made there is empty, and to remove
it again leaves no more of it than what cannot be removed.
-/

theorem mkdirs?_eq_some {made : FileTree name content} (h : t.mkdirs? location = some made) :
    t.node location = none ∧ WayTo location t made ∧ made.isDirectory location = true := by
  unfold mkdirs? at h
  split at h
  · cases h
  · next hfree =>
      rw [not_or, Bool.not_eq_true, Option.isSome_eq_false_iff, Option.isNone_iff_eq_none] at hfree
      have hmade := makeDirectories?_eq_some h
      rw [List.nil_append] at hmade
      exact ⟨hfree.2, hmade.1, hmade.2 (Or.inr hfree.1)⟩

theorem root_of_mkdirs {made : FileTree name content} (h : t.mkdirs? location = some made) :
    made.isDirectory [] = true := by
  have hdirectory := isDirectory_iff.mp (mkdirs?_eq_some h).2.2
  unfold mkdirs? at h
  split at h
  · cases h
  · next hfree =>
      apply isDirectory_iff.mpr
      apply directory_of_inside (not_or.mp hfree).1
      rw [List.nil_append, hdirectory]
      exact Option.some_ne_none _

theorem exists_makeDirectories {rest : List name} (hdone : t.isDirectory done = true)
    (hway : forall before, before <+: rest -> before ≠ [] ->
      t.node (done ++ before) = none ∨ t.node (done ++ before) = some .directory) :
    exists made, t.makeDirectories? done rest = some made := by
  induction rest generalizing t done with
  | nil => exact ⟨t, rfl⟩
  | cons child rest ih =>
      have hnext : forall (t' : FileTree name content), (forall before, before <+: rest ->
          before ≠ [] -> t'.node (done ++ child :: before) = t.node (done ++ child :: before)) ->
            forall before, before <+: rest -> before ≠ [] ->
              t'.node ((done ++ [child]) ++ before) = none ∨
                t'.node ((done ++ [child]) ++ before) = some .directory := by
        intro t' hsame before hprefix hne
        rw [List.append_assoc, List.singleton_append, hsame before hprefix hne]
        exact hway (child :: before) (List.prefix_cons_inj child |>.mpr hprefix)
          (List.cons_ne_nil child before)
      unfold makeDirectories?
      split
      · next hdirectory => exact ih hdirectory (hnext t (fun _ _ _ => rfl))
      · next hdirectory =>
          have hnone : t.node (done ++ [child]) = none := by
            have hplace := hway [child] (List.prefix_cons_inj child |>.mpr (List.nil_prefix))
              (List.cons_ne_nil child [])
            rw [← isDirectory_iff] at hplace
            exact hplace.resolve_right hdirectory
          rw [Bool.not_eq_true] at hdirectory
          have hplace : exists made, t.put? done child .directory = some made :=
            put?_of_place hdone hdirectory
          rcases hplace with ⟨made, hput⟩
          have hmade : t.mkdir? done child = some made := by
            unfold mkdir?
            rw [hnone, Option.isSome_none, if_neg Bool.false_ne_true]
            exact hput
          rw [hmade]
          have hnode := (put?_eq_some hput).2.2
          apply ih
          · rw [isDirectory_iff, hnode, if_pos rfl]
          · apply hnext
            intro before _ hne
            rw [hnode, if_neg]
            intro hsame
            have hlength := congrArg List.length hsame
            rw [List.length_append, List.length_append, List.length_cons, List.length_singleton]
              at hlength
            have hpositive := List.length_pos_of_ne_nil hne
            omega

theorem exists_mkdirs (h : t.Free location) (hroot : t.isDirectory [] = true) :
    exists made, t.mkdirs? location = some made := by
  unfold mkdirs?
  rw [h.fresh, Option.isSome_none, if_neg (by simp [h.ne_nil])]
  exact exists_makeDirectories hroot (fun before hprefix _ => h.way before hprefix)

theorem holds_mkdirs {made : FileTree name content} (h : t.mkdirs? location = some made) :
    made.Holds location (fun _ => none) where
  isDirectory := (mkdirs?_eq_some h).2.2
  node first rest := by
    rcases mkdirs?_eq_some h with ⟨hnone, hway, _⟩
    rw [hway.empty hnone (List.cons_ne_nil first rest)]
    exact (ite_self none).symm

theorem Holds.write {contents : name -> Option content} {bytes : content}
    (h : t.Holds location contents) (hwrite : t.writeBytes? location child bytes = some t') :
    t'.Holds location (Function.update contents child (some bytes)) ∧ OnlyInside location t t' := by
  have hnode := (put?_eq_some hwrite).2.2
  refine ⟨?_, onlyInside_put hwrite⟩
  constructor
  case isDirectory =>
      rw [isDirectory_iff, (onlyInside_put hwrite).node_self]
      exact isDirectory_iff.mp h.isDirectory
  case node =>
      intro first rest
      rw [hnode, h.node]
      by_cases hrest : rest = []
      · subst hrest
        rw [if_pos rfl, if_pos rfl]
        by_cases hfirst : first = child
        · subst hfirst
          rw [if_pos rfl, Function.update_self]
          rfl
        · rw [if_neg, Function.update_of_ne hfirst]
          intro hsame
          exact hfirst (List.cons.inj (List.append_cancel_left hsame)).1
      · rw [if_neg hrest, if_neg hrest, if_neg]
        intro hsame
        exact hrest (List.cons.inj (List.append_cancel_left hsame)).2

theorem Holds.exists_write {contents : name -> Option content} (h : t.Holds location contents)
    (child : name) (bytes : content) : exists t', t.writeBytes? location child bytes = some t' := by
  apply put?_of_place h.isDirectory
  rw [Bool.eq_false_iff, ne_eq, isDirectory_iff, h.node child [], if_pos rfl]
  cases contents child with
  | none => exact fun h => by cases h
  | some bytes => exact fun h => by cases h

theorem writeAt?_append (t : FileTree name content) (parent : List name) (child : name)
    (bytes : content) :
    t.writeAt? (parent ++ [child]) bytes = t.writeBytes? parent child bytes := by
  unfold writeAt?
  rw [List.getLast?_concat, List.dropLast_concat]

end

/-!
## Files that do not count

Some locations may be written to at any time. Whatever else is there stays what it is, and what
a name leads to stays where it was.
-/

section

variable {p : List name -> Bool}

theorem node_of_without {node : Node content} (h : (t.without p).node location = some node) :
    t.node location = some node := by
  have hnode : (if p location && !t.isDirectory location then none else t.node location) =
      some node := h
  split at hnode
  · cases hnode
  · exact hnode

theorem directory_without (h : t.node location = some .directory) :
    (t.without p).node location = some .directory := by
  show (if p location && !t.isDirectory location then none else t.node location) = _
  rw [isDirectory_iff.mpr h, Bool.not_true, Bool.and_false, if_neg Bool.false_ne_true]
  exact h

theorem without_congr (h : t'.node location = t.node location) :
    (t'.without p).node location = (t.without p).node location := by
  show (if p location && !t'.isDirectory location then none else t'.node location) =
    if p location && !t.isDirectory location then none else t.node location
  unfold isDirectory
  rw [h]

theorem without_of_none (h : t.node location = none) : (t.without p).node location = none := by
  show (if _ then none else t.node location) = none
  rw [h]
  exact ite_self none

theorem OnlyInside.without (h : OnlyInside location t t') :
    OnlyInside location (t.without p) (t'.without p) :=
  fun other hother => without_congr (h other hother)

theorem OnlyInside.directory (h : OnlyInside location (t.without p) (t'.without p))
    (hdirectory : t.node location = some .directory) : t'.node location = some .directory :=
  node_of_without (h.node_self.trans (directory_without hdirectory))

theorem Touches.refl (p : List name -> Bool) (t : FileTree name content) : Touches p t t where
  same _ _ := rfl
  file _ := Or.inl rfl

theorem Touches.trans {t'' : FileTree name content} (h : Touches p t t')
    (h' : Touches p t' t'') : Touches p t t'' where
  same other hother := (h'.same other hother).trans (h.same other hother)
  file other := by
    rcases h'.file other with hsame | ⟨hold, hnew⟩
    · rw [hsame]
      exact h.file other
    · rcases h.file other with hfirst | ⟨hfirst, _⟩
      · rw [hfirst] at hold
        exact Or.inr ⟨hold, hnew⟩
      · exact Or.inr ⟨hfirst, hnew⟩

theorem Touches.node (h : Touches p t t') {node : Node content}
    (hnode : t.node location = some node) (hfile : forall bytes, node ≠ .file bytes) :
    t'.node location = some node := by
  rcases h.file location with hsame | ⟨hnone | ⟨bytes, hbytes⟩, _⟩
  · exact hsame.trans hnode
  · rw [hnode] at hnone
    cases hnone
  · rw [hnode] at hbytes
    cases hbytes
    exact absurd rfl (hfile bytes)

theorem Touches.bytesAt (h : Touches p t t') {bytes : content}
    (hbytes : t.bytesAt? location = some bytes) :
    exists bytes', t'.bytesAt? location = some bytes' := by
  rcases h.file location with hsame | ⟨_, bytes', hnew⟩
  · exact ⟨bytes, bytesAt?_eq_some.mpr (hsame.trans (bytesAt?_eq_some.mp hbytes))⟩
  · exact ⟨bytes', bytesAt?_eq_some.mpr hnew⟩

theorem Touches.isDirectory (h : Touches p t t') (hdirectory : t.isDirectory location = true) :
    t'.isDirectory location = true :=
  isDirectory_iff.mpr (h.node (isDirectory_iff.mp hdirectory) (fun _ hfile => by cases hfile))

theorem Touches.without (h : Touches p t t') (other : List name) :
    (t'.without p).node other = (t.without p).node other := by
  cases hp : p other with
  | false => exact without_congr (h.same other hp)
  | true =>
      rcases h.file other with hsame | ⟨hold, bytes, hnew⟩
      · exact without_congr hsame
      · show (if p other && !t'.isDirectory other then none else t'.node other) =
          if p other && !t.isDirectory other then none else t.node other
        unfold FileTree.isDirectory
        rw [hp, hnew]
        rcases hold with hnone | ⟨bytes', hbytes⟩
        · rw [hnone]
          rfl
        · rw [hbytes]
          rfl

theorem Touches.fresh (h : Touches p t t') (hnone : t'.node location = none) :
    t.node location = none := by
  rcases h.file location with hsame | ⟨_, bytes, hnew⟩
  · exact hsame.symm.trans hnone
  · rw [hnone] at hnew
    cases hnew

theorem Touches.follow (leadsTo : List name -> List name) (h : Touches p t t')
    (hsome : t.node location ≠ none) : t'.follow leadsTo location = t.follow leadsTo location := by
  unfold FileTree.follow
  rcases h.file location with hsame | ⟨hnone | ⟨bytes, hbytes⟩, bytes', hnew⟩
  · rw [hsame]
  · exact absurd hnone hsome
  · rw [hbytes, hnew]

theorem Holds.touched {contents : name -> Option content} (h : t.Holds location contents)
    (htouches : Touches p t t')
    (hout : forall first rest, p (location ++ first :: rest) = false) :
    t'.Holds location contents where
  isDirectory := htouches.isDirectory h.isDirectory
  node first rest := (htouches.same _ (hout first rest)).trans (h.node first rest)

theorem Stored.touched {contents : name -> Option content} {t'' : FileTree name content}
    (h : Stored p location contents t' t'') (htouches : Touches p t t') :
    Stored p location contents t t'' where
  fresh := htouches.fresh h.fresh
  holds := h.holds
  same other hbefore hafter := (h.same other hbefore hafter).trans (htouches.without other)
  kept other node hnode := h.kept other node ((htouches.without other).trans hnode)

section

variable [DecidableEq name] {kept : List (List name)}

theorem touches_overwrite (hp : p location = true) (bytes : content) :
    Touches p t (t.overwrite location bytes) := by
  have hrefl := Touches.refl p t
  unfold overwrite
  split
  · exact hrefl
  · next hlink =>
      cases hwrite : t.writeAt? location bytes with
      | none => exact hrefl
      | some written =>
          unfold writeAt? at hwrite
          split at hwrite
          · next child hlast =>
              have hlocation : location.dropLast ++ [child] = location :=
                List.dropLast_append_getLast? child hlast
              rcases put?_eq_some hwrite with ⟨_, hplace, hnode⟩
              rw [hlocation] at hplace hnode
              constructor
              case same =>
                  intro other hother
                  refine (hnode other).trans (if_neg ?_)
                  rintro rfl
                  rw [hp] at hother
                  cases hother
              case file =>
                  intro other
                  by_cases hsame : other = location
                  · right
                    subst hsame
                    refine ⟨?_, bytes, (hnode other).trans (if_pos rfl)⟩
                    cases hold : t.node other with
                    | none => exact Or.inl rfl
                    | some node =>
                        right
                        cases node with
                        | directory =>
                            rw [isDirectory_iff.mpr hold] at hplace
                            cases hplace
                        | file old => exact ⟨old, rfl⟩
                        | link => exact absurd hold hlink
                  · exact Or.inl ((hnode other).trans (if_neg hsame))
          · cases hwrite

theorem Touches.undone (h : Touches p t t') : Undone p kept location t t' :=
  fun other => Or.inl (h.without other)

theorem Undone.touched {t'' : FileTree name content} (h : Undone p kept location t' t'')
    (htouches : Touches p t t') : Undone p kept location t t'' := by
  intro other
  rcases h other with hsame | ⟨hne, hway, hnone, hmade⟩ | ⟨hin, hnone, hkept⟩
  · exact Or.inl (hsame.trans (htouches.without other))
  · exact Or.inr (Or.inl ⟨hne, hway, htouches.fresh hnone, hmade⟩)
  · exact Or.inr (Or.inr ⟨hin, htouches.fresh hnone, hkept⟩)

theorem WayTo.undone {made : FileTree name content} (h : WayTo location t made)
    (hnone : t.node location = none) (hdirectory : made.isDirectory location = true)
    (hinside : OnlyInside location (made.without p) (t'.without p)) :
    Undone p kept location t (t'.removeTreeExcept kept location) := by
  have hremoved := hinside.directory (isDirectory_iff.mp hdirectory)
  intro other
  by_cases hin : location <+: other
  · rcases node_removeTreeExcept kept hremoved hin with hgone | ⟨hkept, _⟩
    · left
      rcases hin with ⟨rest, rfl⟩
      rw [without_of_none hgone, without_of_none (node_inside_of_none hnone rest)]
    · exact Or.inr (Or.inr ⟨hin, hnone, hkept⟩)
  · have hsame := sameOutside_removeTreeExcept t' kept location other hin
    have hold : ((t'.removeTreeExcept kept location).without p).node other =
        (made.without p).node other := by
      rw [without_congr hsame]
      apply hinside
      rintro first rest rfl
      exact hin (List.prefix_append location _)
    by_cases hway : other <+: location
    · cases hnode : t.node other with
      | some node =>
          left
          rw [hold]
          exact without_congr ((h.kept other node hnode).trans hnode.symm)
      | none =>
          cases hmade : made.node other with
          | none =>
              left
              rw [hold, without_of_none hmade, without_of_none hnode]
          | some node =>
              rcases h.made other node hmade with hthere | rfl
              · rw [hnode] at hthere
                cases hthere
              · refine Or.inr (Or.inl ⟨?_, hway, rfl, ?_⟩)
                · rintro rfl
                  exact hin (List.prefix_refl other)
                · exact node_of_without (hold.trans (directory_without hmade))
    · left
      rw [hold]
      exact without_congr (h.same other hway)

theorem Holds.stored {contents : name -> Option content} {made : FileTree name content}
    (hmade : t.mkdirs? location = some made)
    (hinside : OnlyInside location (made.without p) (t'.without p))
    (h : t'.Holds location contents) : Stored p location contents t t' := by
  rcases mkdirs?_eq_some hmade with ⟨hnone, hway, _⟩
  have hold : forall other, ¬ location <+: other ->
      (t'.without p).node other = (made.without p).node other :=
    fun other hother => hinside.sameOutside other hother
  constructor
  case fresh => exact hnone
  case holds => exact h
  case same =>
      intro other hbefore hafter
      rw [hold other hafter]
      exact without_congr (hway.same other hbefore)
  case kept =>
      intro other node hnode
      have hthere := node_of_without hnode
      rw [hold other, without_congr ((hway.kept other node hthere).trans hthere.symm)]
      · exact hnode
      · rintro ⟨rest, rfl⟩
        rw [node_inside_of_none hnone rest] at hthere
        cases hthere

end

end

end Foundation.FileTree
