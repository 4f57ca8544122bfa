import Mathlib.Data.List.Infix
import Mathlib.Tactic.SplitIfs

/-!
# File trees

## Nodes by location

A file system as a tree: whatever exists is in a directory. A location is the list of the
names on the way to it.
-/

namespace Foundation

inductive Node (content : Type) where
  | directory
  | file (bytes : content)
  | link

structure FileTree (name content : Type) where
  node : List name -> Option (Node content)
  rooted : forall location child, node (location ++ [child]) ≠ none ->
    node location = some .directory

namespace FileTree

variable {name content : Type}

def isDirectory (t : FileTree name content) (location : List name) : Bool :=
  match t.node location with
  | some .directory => true
  | _ => false

theorem isDirectory_iff {t : FileTree name content} {location : List name} :
    t.isDirectory location = true <-> t.node location = some .directory := by
  unfold isDirectory
  split
  · next h => exact ⟨fun _ => h, fun _ => rfl⟩
  · next h => exact ⟨fun hfalse => (by cases hfalse), fun hsame => absurd hsame h⟩

section

variable [DecidableEq name]

def root : FileTree name content where
  node location := if location = [] then some .directory else none
  rooted location child hsome := by
    rw [if_neg (List.append_ne_nil_of_right_ne_nil location (List.cons_ne_nil child []))] at hsome
    exact absurd rfl hsome

/-- A new node, or another file, in a directory. -/
def put? (t : FileTree name content) (parent : List name) (child : name)
    (node : Node content) : Option (FileTree name content) :=
  if h : t.isDirectory parent = true ∧ t.isDirectory (parent ++ [child]) = false then
    some
      { node := fun location => if location = parent ++ [child] then some node else t.node location
        rooted := by
          intro location other hsome
          have hparent := isDirectory_iff.mp h.1
          by_cases hhere : location ++ [other] = parent ++ [child]
          · rw [(List.append_inj' hhere rfl).1, if_neg (by simp)]
            exact hparent
          · rw [if_neg hhere] at hsome
            have hdirectory := t.rooted location other hsome
            rw [if_neg]
            · exact hdirectory
            · rintro rfl
              rw [isDirectory_iff.mpr hdirectory] at h
              cases h.2 }
  else
    none

/-- `mkdir`, which raises when there is something at the location. -/
def mkdir? (t : FileTree name content) (parent : List name) (child : name) :
    Option (FileTree name content) :=
  if (t.node (parent ++ [child])).isSome then none else t.put? parent child .directory

def writeBytes? (t : FileTree name content) (parent : List name) (child : name)
    (bytes : content) : Option (FileTree name content) :=
  t.put? parent child (.file bytes)

/-- One of the entries exists and is at the location or below it. -/
def holdsAny (t : FileTree name content) (entries : List (List name)) (location : List name) :
    Bool :=
  entries.any (fun entry => decide (location <+: entry) && (t.node entry).isSome)

/-- A directory goes with all that is in it, but for the entries that cannot be removed and the
directories on the way to them. Anything but a directory is left alone. -/
def removeTreeExcept (t : FileTree name content) (kept : List (List name))
    (location : List name) : FileTree name content :=
  if t.isDirectory location then
    { node := fun other =>
        if location <+: other ∧ t.holdsAny kept other = false then none else t.node other
      rooted := by
        intro other child hsome
        by_cases hin : location <+: other ++ [child] ∧ t.holdsAny kept (other ++ [child]) = false
        · rw [if_pos hin] at hsome
          exact absurd rfl hsome
        · rw [if_neg hin] at hsome
          rw [if_neg]
          · exact t.rooted other child hsome
          · rintro ⟨hsub, hnone⟩
            have hway := List.prefix_append other [child]
            refine hin ⟨hsub.trans hway, ?_⟩
            unfold holdsAny at hnone ⊢
            rw [List.any_eq_false] at hnone ⊢
            intro entry hentry hholds
            rw [Bool.and_eq_true, decide_eq_true_eq] at hholds
            refine hnone entry hentry ?_
            rw [Bool.and_eq_true, decide_eq_true_eq]
            exact ⟨hway.trans hholds.1, hholds.2⟩ }
  else
    t

end

/-!
## What stays
-/

theorem directory_of_inside {t : FileTree name content} {location rest : List name}
    (hrest : rest ≠ []) (h : t.node (location ++ rest) ≠ none) :
    t.node location = some .directory := by
  induction rest using List.reverseRecOn with
  | nil => exact absurd rfl hrest
  | append_singleton before child ih =>
      rw [← List.append_assoc] at h
      have hdirectory := t.rooted (location ++ before) child h
      cases before with
      | nil => rwa [List.append_nil] at hdirectory
      | cons first others =>
          apply ih (List.cons_ne_nil first others)
          rw [hdirectory]
          exact Option.some_ne_none _

def SameOutside (location : List name) (t t' : FileTree name content) : Prop :=
  forall other, ¬ location <+: other -> t'.node other = t.node other

theorem SameOutside.refl (location : List name) (t : FileTree name content) :
    SameOutside location t t :=
  fun _ _ => rfl

theorem SameOutside.trans {location : List name} {t t' t'' : FileTree name content}
    (h : SameOutside location t t') (h' : SameOutside location t' t'') :
    SameOutside location t t'' :=
  fun other hout => (h' other hout).trans (h other hout)

/-- Everything that exists in the first tree is in the second one. -/
def Spares (t t' : FileTree name content) : Prop :=
  forall location node, t.node location = some node -> t'.node location = some node

theorem Spares.refl (t : FileTree name content) : Spares t t :=
  fun _ _ h => h

section

variable [DecidableEq name] {t t' : FileTree name content} {parent location : List name}
  {child : name}

theorem sameOutside_put {node : Node content} (h : t.put? parent child node = some t')
    (hin : location <+: parent ++ [child]) : SameOutside location t t' := by
  unfold put? at h
  split_ifs at h
  cases h
  intro other hout
  refine if_neg ?_
  rintro rfl
  exact hout hin

theorem sameOutside_mkdir (h : t.mkdir? parent child = some t') :
    t.node (parent ++ [child]) = none ∧ SameOutside (parent ++ [child]) t t' := by
  unfold mkdir? at h
  split_ifs at h with hexists
  exact ⟨by simpa using hexists, sameOutside_put h (List.prefix_refl _)⟩

theorem mkdir?_of_node (h : t.node (parent ++ [child]) ≠ none) : t.mkdir? parent child = none :=
  if_pos (Option.isSome_iff_ne_none.mpr h)

theorem sameOutside_removeTreeExcept (t : FileTree name content) (kept : List (List name))
    (location : List name) : SameOutside location t (t.removeTreeExcept kept location) := by
  intro other hout
  unfold removeTreeExcept
  split_ifs
  · exact if_neg (fun hin => hout hin.1)
  · rfl

theorem removeTreeExcept_of_node (kept : List (List name))
    (h : t.node location ≠ some .directory) : t.removeTreeExcept kept location = t :=
  if_neg (fun hdirectory => h (isDirectory_iff.mp hdirectory))

theorem node_removeTreeExcept (kept : List (List name)) (h : t.node location = some .directory)
    {other : List name} (hin : location <+: other) :
    (t.removeTreeExcept kept location).node other = none ∨
      (t.removeTreeExcept kept location).holdsAny kept other = true ∧
        (t.removeTreeExcept kept location).node other = t.node other := by
  have hnode : forall entry, (t.removeTreeExcept kept location).node entry =
      if location <+: entry ∧ t.holdsAny kept entry = false then none else t.node entry := by
    intro entry
    unfold removeTreeExcept
    rw [if_pos (isDirectory_iff.mpr h)]
  cases hholds : t.holdsAny kept other with
  | false => exact Or.inl ((hnode other).trans (if_pos ⟨hin, hholds⟩))
  | true =>
      right
      constructor
      · have hany := hholds
        unfold holdsAny at hany ⊢
        rw [List.any_eq_true] at hany ⊢
        rcases hany with ⟨entry, hentry, hsome⟩
        refine ⟨entry, hentry, ?_⟩
        rw [Bool.and_eq_true, decide_eq_true_eq] at hsome ⊢
        refine ⟨hsome.1, ?_⟩
        rw [hnode, if_neg]
        · exact hsome.2
        · rintro ⟨_, hnone⟩
          unfold holdsAny at hnone
          rw [List.any_eq_false] at hnone
          refine hnone entry hentry ?_
          rw [Bool.and_eq_true, decide_eq_true_eq]
          exact ⟨List.prefix_refl entry, hsome.2⟩
      · refine (hnode other).trans (if_neg ?_)
        rintro ⟨_, hnone⟩
        rw [hholds] at hnone
        cases hnone

/-- Whatever is in the directory stays exactly if it is kept or on the way to something kept. -/
theorem spares_removeTreeExcept_iff {kept : List (List name)}
    (h : t.node location = some .directory) :
    Spares t (t.removeTreeExcept kept location) <->
      forall other, location <+: other -> t.node other ≠ none ->
        t.holdsAny kept other = true := by
  unfold removeTreeExcept
  rw [if_pos (isDirectory_iff.mpr h)]
  constructor
  · intro hspares other hin hsome
    rcases Option.ne_none_iff_exists'.mp hsome with ⟨node, hnode⟩
    have hstays := hspares other node hnode
    dsimp only at hstays
    by_contra hholds
    rw [if_pos ⟨hin, Bool.eq_false_iff.mpr hholds⟩] at hstays
    cases hstays
  · intro hkept other node hnode
    dsimp only
    rw [if_neg]
    · exact hnode
    · rintro ⟨hin, hnone⟩
      rw [hkept other hin (by rw [hnode]; exact Option.some_ne_none node)] at hnone
      cases hnone

end

theorem spares_of_sameOutside {t t' : FileTree name content} {location : List name}
    (hnone : t.node location = none) (h : SameOutside location t t') : Spares t t' := by
  intro other node hnode
  rw [h other]
  · exact hnode
  · rintro ⟨rest, rfl⟩
    cases rest with
    | nil =>
        rw [List.append_nil, hnone] at hnode
        cases hnode
    | cons first others =>
        have hdirectory := directory_of_inside (List.cons_ne_nil first others)
          (by rw [hnode]; exact Option.some_ne_none _)
        rw [hnone] at hdirectory
        cases hdirectory

end FileTree

end Foundation
