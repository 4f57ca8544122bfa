import Ump.Codec.Indented
import Ump.Protocol.EnvelopeCodec
import Ump.Protocol.RoundTrip

/-!
# Free-form fields

## Texts with surrogates

A string of Python may hold surrogates, which have no UTF-8 form. The printer leaves them as
they are, so a value has bytes exactly when there is none in its strings and names.
-/

namespace Ump.Wire

open Codec

theorem any_isSurrogate_iff {s : Points} :
    s.any isSurrogate = false <-> exists text, s = ofText text := by
  constructor
  · intro h
    induction s with
    | nil => exact ⟨[], rfl⟩
    | cons p rest ih =>
        rw [List.any_cons, Bool.or_eq_false_iff] at h
        rcases ih h.2 with ⟨text, rfl⟩
        cases p with
        | char c => exact ⟨c :: text, rfl⟩
        | surrogate n => cases h.1
  · rintro ⟨text, rfl⟩
    unfold ofText
    rw [List.any_map, List.any_eq_false]
    exact fun _ _ => Bool.false_ne_true

theorem any_ofText (text : List Char) : (ofText text).any isSurrogate = false :=
  any_isSurrogate_iff.mpr ⟨text, rfl⟩

theorem any_commaSeparated (texts : List Points) :
    (commaSeparated texts).any isSurrogate = texts.any (fun text => text.any isSurrogate) := by
  cases texts with
  | nil => rfl
  | cons first rest =>
      rw [commaSeparated, List.any_append, List.any_flatMap, List.any_cons]
      rfl

theorem any_print_pieceOf (p : CodePoint) : (pieceOf p).print.any isSurrogate = isSurrogate p := by
  cases p with
  | surrogate n => rfl
  | char c =>
      unfold pieceOf
      dsimp only
      split_ifs
      all_goals rfl

theorem any_printQuoted (s : Points) :
    (printQuoted (s.map pieceOf)).any isSurrogate = s.any isSurrogate := by
  have hpieces : (s.map pieceOf).any (fun piece => piece.print.any isSurrogate) =
      s.any isSurrogate := by
    rw [List.any_map]
    congr 1
    funext p
    exact any_print_pieceOf p
  unfold printQuoted
  rw [List.any_append, List.any_cons, List.any_flatMap, hpieces]
  simp [isSurrogate]

theorem any_printItems (trees : List Tree) :
    (printItems (trees.map itemOf)).any (fun text => text.any isSurrogate) =
      trees.any (fun tree => tree.print.any isSurrogate) := by
  induction trees with
  | nil => rfl
  | cons head rest ih =>
      rw [List.map_cons, itemOf, printItems, List.any_cons, List.any_cons, ih, List.any_append,
        List.any_append, any_ofText, Bool.false_or, Bool.or_false]

theorem any_printMembers (members : List (Points × Tree)) :
    (printMembers (members.map Codec.memberOf)).any (fun text => text.any isSurrogate) =
      members.any (fun field => field.1.any isSurrogate || field.2.print.any isSurrogate) := by
  induction members with
  | nil => rfl
  | cons head rest ih =>
      rw [List.map_cons, Codec.memberOf, printMembers, List.any_cons, List.any_cons, ih]
      simp only [List.any_append, List.any_cons, any_ofText, any_printQuoted, Bool.false_or,
        Bool.or_false]
      simp [isSurrogate]

theorem any_print_iff (v : Value) :
    v.tree.print.any isSurrogate = false <-> v.Textual := by
  induction v using Value.rule with
  | null => simp [Value.tree, Tree.print, any_ofText, Value.Textual]
  | bool b => simp [Value.tree, Tree.print, any_ofText, Value.Textual]
  | int n => simp [Value.tree, Tree.print, any_ofText, Value.Textual]
  | float value digits => simp [Value.tree, Tree.print, any_ofText, Value.Textual]
  | constant c => simp [Value.tree, Tree.print, any_ofText, Value.Textual]
  | str s => rw [Value.tree, Tree.print, any_printQuoted, any_isSurrogate_iff, Value.Textual]
  | arr items ih =>
      rw [tree_arr, Tree.print, Value.Textual, textualItems_iff]
      simp only [List.any_cons, List.any_append, any_ofText, any_commaSeparated, any_printItems]
      simp only [List.any_map, List.any_nil, isSurrogate, Bool.false_or, Bool.or_false,
        List.any_eq_false]
      apply forall₂_congr
      intro item hitem
      rw [Function.comp_apply, Bool.not_eq_true, ih item hitem]
  | obj fields ih =>
      rw [tree_obj, Tree.print, Value.Textual, textualFields_iff]
      simp only [List.any_cons, List.any_append, any_ofText, any_commaSeparated, any_printMembers]
      have hperm := List.perm_insertionSort (fun a b : Points × Tree => codes a.1 ≤ codes b.1)
        (fields.map (fun field => (field.1, field.2.tree)))
      unfold sortNames
      rw [hperm.any_eq]
      simp only [List.any_map, List.any_nil, isSurrogate, Bool.false_or, Bool.or_false,
        List.any_eq_false]
      apply forall₂_congr
      intro field hfield
      rw [Function.comp_apply, Bool.not_eq_true, Bool.or_eq_false_iff, any_isSurrogate_iff,
        ih field hfield]

/-- What a row or a digest takes, and a message for its document. -/
def encodedText (v : Value) : Option (List UInt8) :=
  (dumps v).bind textBytes

theorem encodes_iff {v : Value} (hfits : everywhere intFits v.tree = true) :
    (exists encoded, encodedText v = some encoded) <-> v.Textual := by
  unfold encodedText dumps
  rw [if_pos hfits, Option.bind_some, ← any_print_iff]
  unfold textBytes
  constructor
  · rintro ⟨encoded, h⟩
    by_contra hsurrogate
    rw [if_pos (Bool.not_eq_false _ ▸ hsurrogate)] at h
    cases h
  · intro h
    rw [h]
    exact ⟨_, rfl⟩

end Ump.Wire

/-!
## The values of the models

The free-form fields of the models are the values without surrogates and without the constants
that are no JSON.
-/

namespace Ump

open Codec (Value Points)
open Wire (points Members encodedText)

namespace Json

mutual

def value : Json -> Value
  | null => .null
  | bool b => .bool b
  | int n => .int n
  | float value digits => .float value digits
  | str s => .str (points s)
  | arr items => .arr (itemValues items)
  | obj fields => .obj (fieldValues fields)

def itemValues : List Json -> List Value
  | [] => []
  | item :: rest => item.value :: itemValues rest

def fieldValues : List (String × Json) -> List (Points × Value)
  | [] => []
  | (name, item) :: rest => (points name, item.value) :: fieldValues rest

end

mutual

theorem textual_value : forall document : Json, document.value.Textual
  | null => trivial
  | bool _ => trivial
  | int _ => trivial
  | float _ _ => trivial
  | str s => ⟨s.toList, rfl⟩
  | arr items => textual_itemValues items
  | obj fields => textual_fieldValues fields

theorem textual_itemValues : forall items : List Json, Codec.TextualItems (itemValues items)
  | [] => trivial
  | item :: rest => ⟨textual_value item, textual_itemValues rest⟩

theorem textual_fieldValues : forall fields : List (String × Json),
    Codec.TextualFields (fieldValues fields)
  | [] => trivial
  | (name, item) :: rest =>
      ⟨⟨name.toList, rfl⟩, textual_value item, textual_fieldValues rest⟩

end

mutual

/-- No `NaN` and no infinity. -/
def IsJson : Value -> Prop
  | .constant _ => False
  | .arr items => AreJson items
  | .obj fields => FieldsAreJson fields
  | _ => True

def AreJson : List Value -> Prop
  | [] => True
  | item :: rest => IsJson item ∧ AreJson rest

def FieldsAreJson : List (Points × Value) -> Prop
  | [] => True
  | (_, value) :: rest => IsJson value ∧ FieldsAreJson rest

end

theorem points_ofList (text : List Char) : points (String.ofList text) = Codec.ofText text := by
  unfold points
  rw [String.toList_ofList]

mutual

theorem exists_value : forall v : Value, IsJson v -> v.Textual ->
    exists document, value document = v
  | .null, _, _ => ⟨null, rfl⟩
  | .bool b, _, _ => ⟨bool b, rfl⟩
  | .int n, _, _ => ⟨int n, rfl⟩
  | .float n digits, _, _ => ⟨float n digits, rfl⟩
  | .constant _, h, _ => h.elim
  | .str _, _, ⟨text, rfl⟩ => ⟨str (String.ofList text), congrArg Value.str (points_ofList text)⟩
  | .arr items, h, htext => by
      rcases exists_itemValues items h htext with ⟨documents, rfl⟩
      exact ⟨arr documents, rfl⟩
  | .obj fields, h, htext => by
      rcases exists_fieldValues fields h htext with ⟨documents, rfl⟩
      exact ⟨obj documents, rfl⟩

theorem exists_itemValues : forall items : List Value, AreJson items ->
    Codec.TextualItems items -> exists documents, itemValues documents = items
  | [], _, _ => ⟨[], rfl⟩
  | item :: rest, h, htext => by
      rcases exists_value item h.1 htext.1 with ⟨document, rfl⟩
      rcases exists_itemValues rest h.2 htext.2 with ⟨documents, rfl⟩
      exact ⟨document :: documents, rfl⟩

theorem exists_fieldValues : forall fields : List (Points × Value), FieldsAreJson fields ->
    Codec.TextualFields fields -> exists documents, fieldValues documents = fields
  | [], _, _ => ⟨[], rfl⟩
  | (name, field) :: rest, h, htext => by
      rcases htext with ⟨⟨text, rfl⟩, hfield, hrest⟩
      rcases exists_value field h.1 hfield with ⟨document, rfl⟩
      rcases exists_fieldValues rest h.2 hrest with ⟨documents, rfl⟩
      refine ⟨(String.ofList text, document) :: documents, ?_⟩
      rw [fieldValues, points_ofList]

end

end Json

/-!
## Assignments with any inputs
-/

/-- The payload of an assignment, with any value for the inputs, which no check looks at. -/
def Assignment.fieldsWith (assignment : Assignment) (inputs : Value) : Members :=
  [(points "assignment_id", .str (points assignment.assignmentId)),
    (points "goal_id", .str (points assignment.goalId)),
    (points "plan_id", .str (points assignment.planId)),
    (points "step", .obj
      [(points "step_id", .str (points assignment.step.stepId)),
        (points "description", .str (points assignment.step.description)),
        (points "assigned_robot_id", .str (points assignment.step.assignedRobotId)),
        (points "capability", .str (points assignment.step.capability)),
        (points "inputs", inputs),
        (points "completion_criteria", .str (points assignment.step.completionCriteria)),
        (points "depends_on", (Json.strings assignment.step.dependsOn).value),
        (points "resources", (Json.strings assignment.step.resources).value),
        (points "not_before_ms", assignment.step.notBeforeMs.value),
        (points "deadline_ms", assignment.step.deadlineMs.value)]),
    (points "authority_lease_id",
      (Json.optional .str assignment.authorityLeaseId).value)]

example (assignment : Assignment) :
    .obj (assignment.fieldsWith assignment.step.inputs.value) = assignment.payload.value := rfl

theorem Assignment.encodes_iff {assignment : Assignment} {inputs : Value}
    (hfits : Codec.everywhere Codec.intFits (Value.obj (assignment.fieldsWith inputs)).tree =
      true) :
    (exists encoded, encodedText (.obj (assignment.fieldsWith inputs)) = some encoded) <->
      inputs.Textual := by
  have htext : forall document : Json, document.value.Textual := Json.textual_value
  have hname : forall name : String, exists text, points name = Codec.ofText text :=
    fun name => ⟨name.toList, rfl⟩
  rw [Wire.encodes_iff hfits]
  unfold Assignment.fieldsWith
  simp only [Value.Textual, Codec.TextualFields, hname, htext, true_and, and_true]

end Ump
