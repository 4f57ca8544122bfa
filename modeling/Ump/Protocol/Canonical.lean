import Mathlib.Data.String.Basic
import Ump.Foundation.Dictionary
import Ump.Protocol.Envelope

/-!
# Values and their canonical texts

## The value that comes back

`json.loads` builds each object from the members in the order of the text, so a value
that went through its canonical text comes back with the members of every object sorted.
-/

namespace Ump

namespace Json

/-- `sort_keys=True`, for the members themselves. -/
def sortMembers (members : List (String × Json)) : List (String × Json) :=
  members.insertionSort (fun a b => a.1 ≤ b.1)

mutual

def sorted : Json -> Json
  | null => null
  | bool b => bool b
  | int n => int n
  | float value digits => float value digits
  | str s => str s
  | arr items => arr (sortedItems items)
  | obj fields => obj (sortMembers (sortedFields fields))

def sortedItems : List Json -> List Json
  | [] => []
  | item :: rest => sorted item :: sortedItems rest

def sortedFields : List (String × Json) -> List (String × Json)
  | [] => []
  | (key, value) :: rest => (key, sorted value) :: sortedFields rest

end

mutual

/-- No object has two members of one name, as no `dict` has. -/
def distinctNames : Json -> Bool
  | arr items => distinctNamesItems items
  | obj fields => decide (fields.map Prod.fst).Nodup && distinctNamesFields fields
  | _ => true

def distinctNamesItems : List Json -> Bool
  | [] => true
  | item :: rest => distinctNames item && distinctNamesItems rest

def distinctNamesFields : List (String × Json) -> Bool
  | [] => true
  | (_, value) :: rest => distinctNames value && distinctNamesFields rest

end

theorem sortedItems_eq_map (items : List Json) : sortedItems items = items.map sorted := by
  induction items with
  | nil => rfl
  | cons head rest ih => rw [sortedItems, ih, List.map_cons]

theorem sortedFields_eq_map (fields : List (String × Json)) :
    sortedFields fields = fields.map (fun member => (member.1, member.2.sorted)) := by
  induction fields with
  | nil => rfl
  | cons head rest ih => rw [sortedFields, ih, List.map_cons]

theorem distinctNames_obj {fields : List (String × Json)} :
    distinctNames (obj fields) = true <->
      (fields.map Prod.fst).Nodup ∧ forall member, member ∈ fields ->
        member.2.distinctNames = true := by
  have hfields : distinctNamesFields fields = true <-> forall member, member ∈ fields ->
      member.2.distinctNames = true := by
    induction fields with
    | nil => simp [distinctNamesFields]
    | cons head rest ih =>
        rw [distinctNamesFields, Bool.and_eq_true, ih, List.forall_mem_cons]
  rw [distinctNames, Bool.and_eq_true, decide_eq_true_eq, hfields]

theorem distinctNames_arr {items : List Json} :
    distinctNames (arr items) = true <-> forall item, item ∈ items ->
      item.distinctNames = true := by
  rw [distinctNames]
  induction items with
  | nil => simp [distinctNamesItems]
  | cons head rest ih =>
      rw [distinctNamesItems, Bool.and_eq_true, ih, List.forall_mem_cons]

@[simp] theorem sorted_optional_str (text : Option String) :
    sorted (optional str text) = optional str text := by
  cases text <;> rfl

@[simp] theorem sorted_optional_int (n : Option Int) :
    sorted (optional int n) = optional int n := by
  cases n <;> rfl

def isAtom : Json -> Bool
  | arr _ => false
  | obj _ => false
  | _ => true

theorem sorted_of_isAtom {value : Json} (h : value.isAtom = true) : value.sorted = value := by
  cases value with
  | arr => cases h
  | obj => cases h
  | _ => rfl

theorem distinctNames_of_isAtom {value : Json} (h : value.isAtom = true) :
    value.distinctNames = true := by
  cases value with
  | arr => cases h
  | obj => cases h
  | _ => rfl

theorem isAtom_of_number {value : Json} {n : Rat} (h : value.number = .ok n) :
    value.isAtom = true := by
  cases value with
  | arr => cases h
  | obj => cases h
  | _ => rfl

theorem isAtom_of_number? {value : Json} {n : Option Rat} (h : value.number? = .ok n) :
    value.isAtom = true := by
  cases value with
  | arr => cases h
  | obj => cases h
  | _ => rfl

theorem distinctNamesItems_of_isAtom {items : List Json}
    (h : forall item, item ∈ items -> item.isAtom = true) :
    distinctNamesItems items = true :=
  distinctNames_arr.mpr (fun item hitem => distinctNames_of_isAtom (h item hitem))

@[simp] theorem distinctNames_optional_str (text : Option String) :
    distinctNames (optional str text) = true := by
  cases text <;> rfl

@[simp] theorem distinctNames_optional_int (n : Option Int) :
    distinctNames (optional int n) = true := by
  cases n <;> rfl

@[simp] theorem distinctNames_strings (items : List String) :
    distinctNames (strings items) = true := by
  apply distinctNames_arr.mpr
  intro item hitem
  rcases List.mem_map.mp hitem with ⟨text, _, rfl⟩
  rfl

/-!
## Members of a sorted object
-/

theorem lookup_sortedFields (fields : List (String × Json)) (name : String) :
    (sortedFields fields).lookup name = (fields.lookup name).map sorted := by
  induction fields with
  | nil => rfl
  | cons head rest ih =>
      rcases head with ⟨key, value⟩
      rw [sortedFields]
      by_cases hname : (name == key) = true
      · simp [List.lookup_cons, hname]
      · simp [List.lookup_cons, Bool.eq_false_iff.mpr hname, ih]

theorem map_fst_sortedFields (fields : List (String × Json)) :
    (sortedFields fields).map Prod.fst = fields.map Prod.fst := by
  rw [sortedFields_eq_map, List.map_map]
  rfl

theorem sortMembers_perm (members : List (String × Json)) :
    (sortMembers members).Perm members :=
  List.perm_insertionSort _ members

theorem length_sortMembers (fields : List (String × Json)) :
    (sortMembers (sortedFields fields)).length = fields.length := by
  rw [(sortMembers_perm _).length_eq, sortedFields_eq_map, List.length_map]

theorem lookup_sorted {fields : List (String × Json)} (h : (fields.map Prod.fst).Nodup)
    (name : String) :
    (sortMembers (sortedFields fields)).lookup name = (fields.lookup name).map sorted := by
  rw [← lookup_sortedFields]
  apply Eq.symm
  apply Foundation.lookup_of_perm (sortMembers_perm _).symm
  rw [map_fst_sortedFields]
  exact h

theorem item_sorted {value : Json} (h : value.distinctNames = true) (name : String) :
    value.sorted.item name = (value.item name).map sorted := by
  cases value with
  | obj fields =>
      rw [sorted]
      unfold item
      dsimp only
      rw [lookup_sorted (distinctNames_obj.mp h).1]
      cases fields.lookup name <;> rfl
  | _ => rfl

theorem get_sorted {value : Json} (h : value.distinctNames = true) (name : String)
    {fallback : Json} (hfallback : fallback.sorted = fallback) :
    value.sorted.get name fallback = (value.get name fallback).map sorted := by
  cases value with
  | obj fields =>
      rw [sorted]
      unfold get
      dsimp only
      rw [lookup_sorted (distinctNames_obj.mp h).1]
      cases fields.lookup name with
      | none => exact congrArg Except.ok hfallback.symm
      | some found => rfl
  | _ => rfl

/-!
## Texts and equality
-/

theorem dumpsFields_eq_map (fields : List (String × Json)) :
    dumpsFields fields = fields.map (fun member => (member.1, member.2.dumps)) := by
  induction fields with
  | nil => rfl
  | cons head rest ih => rw [dumpsFields, ih, List.map_cons]

theorem sortKeys_sortKeys (members : List (String × Text)) :
    sortKeys (sortKeys members) = sortKeys members := by
  have htotal : Std.Total (fun a b : String × Text => a.1 ≤ b.1) :=
    ⟨fun a b => le_total a.1 b.1⟩
  have htrans : IsTrans (String × Text) (fun a b => a.1 ≤ b.1) :=
    ⟨fun _ _ _ => le_trans⟩
  exact (List.pairwise_insertionSort _ members).insertionSort_eq

theorem dumpsFields_sortMembers (fields : List (String × Json)) :
    dumpsFields (sortMembers fields) = sortKeys (dumpsFields fields) := by
  rw [dumpsFields_eq_map, dumpsFields_eq_map]
  exact List.map_insertionSort _ _ _ _ (fun _ _ _ _ => Iff.rfl)

mutual

theorem dumps_sorted : forall value : Json, dumps (sorted value) = dumps value
  | null => rfl
  | bool _ => rfl
  | int _ => rfl
  | float _ _ => rfl
  | str _ => rfl
  | arr items => by
      rw [sorted, dumps, dumps, dumpsItems_sorted items]
  | obj fields => by
      rw [sorted, dumps, dumps, dumpsFields_sortMembers, sortKeys_sortKeys,
        dumpsFields_sorted fields]

theorem dumpsItems_sorted : forall items : List Json,
    dumpsItems (sortedItems items) = dumpsItems items
  | [] => rfl
  | item :: rest => by
      rw [sortedItems, dumpsItems, dumpsItems, dumps_sorted item, dumpsItems_sorted rest]

theorem dumpsFields_sorted : forall fields : List (String × Json),
    dumpsFields (sortedFields fields) = dumpsFields fields
  | [] => rfl
  | (key, value) :: rest => by
      rw [sortedFields, dumpsFields, dumpsFields, dumps_sorted value, dumpsFields_sorted rest]

end

theorem equalFields_iff {fields others : List (String × Json)} :
    equalFields fields others = true <-> forall member, member ∈ fields ->
      exists other, others.lookup member.1 = some other ∧ equal member.2 other = true := by
  induction fields with
  | nil => simp [equalFields]
  | cons head rest ih =>
      rcases head with ⟨key, value⟩
      rw [List.forall_mem_cons, ← ih, equalFields]
      cases others.lookup key with
      | none => simp
      | some other => simp

mutual

theorem equal_sorted : forall value : Json, value.distinctNames = true ->
    equal value.sorted value = true
  | null, _ => rfl
  | bool b, _ => by simp [sorted, equal, numeric?]
  | int n, _ => by simp [sorted, equal, numeric?]
  | float value _, _ => by simp [sorted, equal, numeric?]
  | str s, _ => by simp [sorted, equal, isText]
  | arr items, h => by
      rw [sorted, equal]
      exact equalItems_sorted items (distinctNames_arr.mp h)
  | obj fields, h => by
      rcases distinctNames_obj.mp h with ⟨hnodup, hmembers⟩
      have hequal := equal_sorted_members fields hmembers
      rw [sorted, equal, Bool.and_eq_true, equalFields_iff]
      refine ⟨beq_iff_eq.mpr (length_sortMembers fields), ?_⟩
      intro member hmember
      rw [(sortMembers_perm _).mem_iff, sortedFields_eq_map] at hmember
      rcases List.mem_map.mp hmember with ⟨⟨key, value⟩, hmem, rfl⟩
      exact ⟨value, (Foundation.lookup_eq_some_iff hnodup).mpr hmem, hequal ⟨key, value⟩ hmem⟩

theorem equalItems_sorted : forall items : List Json,
    (forall item, item ∈ items -> item.distinctNames = true) ->
    equalItems (sortedItems items) items = true
  | [], _ => rfl
  | item :: rest, h => by
      rw [List.forall_mem_cons] at h
      rw [sortedItems, equalItems, equal_sorted item h.1, equalItems_sorted rest h.2]
      rfl

theorem equal_sorted_members : forall fields : List (String × Json),
    (forall member, member ∈ fields -> member.2.distinctNames = true) ->
    forall member, member ∈ fields -> equal member.2.sorted member.2 = true
  | [], _ => fun _ hmember => absurd hmember List.not_mem_nil
  | (_, value) :: rest, h => by
      rw [List.forall_mem_cons] at h ⊢
      exact ⟨equal_sorted value h.1, equal_sorted_members rest h.2⟩

end

theorem eq_of_sorted_eq {a b : Json} (ha : a.isAtom = true) (h : a.sorted = b.sorted) :
    b = a := by
  rw [sorted_of_isAtom ha] at h
  cases b with
  | arr items =>
      rw [h, sorted] at ha
      cases ha
  | obj fields =>
      rw [h, sorted] at ha
      cases ha
  | _ => exact h.symm

theorem equal_of_atoms {a b : Json} (ha : a.isAtom = true) (h : a.sorted = b.sorted) :
    equal a b = true := by
  have hself := equal_sorted a (distinctNames_of_isAtom ha)
  rw [sorted_of_isAtom ha] at hself
  rw [eq_of_sorted_eq ha h]
  exact hself

mutual

theorem equal_of_sorted_eq : forall a b : Json, a.distinctNames = true ->
    b.distinctNames = true -> a.sorted = b.sorted -> equal a b = true
  | .arr items, .arr others, ha, hb, h => by
      rw [sorted, sorted] at h
      rw [equal]
      exact equalItems_of_sorted_eq items others (distinctNames_arr.mp ha)
        (distinctNames_arr.mp hb) (Json.arr.inj h)
  | .obj fields, .obj others, ha, hb, h => by
      rcases distinctNames_obj.mp ha with ⟨hnodup, hmembers⟩
      rcases distinctNames_obj.mp hb with ⟨hothers, hnames⟩
      rw [sorted, sorted] at h
      have hfields := Json.obj.inj h
      have hlength : fields.length = others.length := by
        rw [← length_sortMembers fields, hfields, length_sortMembers]
      rw [equal, Bool.and_eq_true, equalFields_iff]
      refine ⟨beq_iff_eq.mpr hlength, ?_⟩
      apply equalMembers_of_sorted_eq fields others hmembers
      · intro name other hother
        exact hnames (name, other) ((Foundation.lookup_eq_some_iff hothers).mp hother)
      · intro member hmember
        rw [← lookup_sorted hothers, ← hfields, lookup_sorted hnodup,
          (Foundation.lookup_eq_some_iff hnodup).mpr hmember]
        rfl
  | .null, _, _, _, h => equal_of_atoms rfl h
  | .bool _, _, _, _, h => equal_of_atoms rfl h
  | .int _, _, _, _, h => equal_of_atoms rfl h
  | .float _ _, _, _, _, h => equal_of_atoms rfl h
  | .str _, _, _, _, h => equal_of_atoms rfl h

theorem equalItems_of_sorted_eq : forall items others : List Json,
    (forall item, item ∈ items -> item.distinctNames = true) ->
    (forall item, item ∈ others -> item.distinctNames = true) ->
    sortedItems items = sortedItems others -> equalItems items others = true
  | [], [], _, _, _ => rfl
  | item :: rest, other :: others, ha, hb, h => by
      rw [List.forall_mem_cons] at ha hb
      rw [sortedItems, sortedItems] at h
      rcases List.cons.inj h with ⟨hitem, hrest⟩
      rw [equalItems, equal_of_sorted_eq item other ha.1 hb.1 hitem,
        equalItems_of_sorted_eq rest others ha.2 hb.2 hrest]
      rfl

theorem equalMembers_of_sorted_eq : forall fields others : List (String × Json),
    (forall member, member ∈ fields -> member.2.distinctNames = true) ->
    (forall name other, others.lookup name = some other -> other.distinctNames = true) ->
    (forall member, member ∈ fields ->
      (others.lookup member.1).map sorted = some member.2.sorted) ->
    forall member, member ∈ fields ->
      exists other, others.lookup member.1 = some other ∧ equal member.2 other = true
  | [], _, _, _, _ => fun _ hmember => absurd hmember List.not_mem_nil
  | (name, value) :: rest, others, ha, hb, h => by
      rw [List.forall_mem_cons] at ha h ⊢
      constructor
      · rcases Option.map_eq_some_iff.mp h.1 with ⟨other, hother, hsorted⟩
        exact ⟨other, hother,
          equal_of_sorted_eq value other ha.1 (hb name other hother) hsorted.symm⟩
      · exact equalMembers_of_sorted_eq rest others ha.2 hb h.2

end

theorem isObject_sorted (value : Json) : value.sorted.isObject = value.isObject := by
  cases value <;> rfl

end Json

end Ump
