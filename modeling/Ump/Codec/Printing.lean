import Ump.Codec.Values
import Ump.Foundation.Dictionary

/-!
# Printing and reading values

A value that is printed and read comes back with sorted dictionaries, and the value of a tree
prints the tree again exactly when the tree is canonical.
-/

namespace Ump.Codec

/-!
## Printed trees
-/

variable {library : FloatLibrary} {floats : Floats}

theorem lowerHexDigit_isHexDigit {n : Nat} (h : n < 16) : isHexDigit (lowerHexDigit n) = true := by
  unfold isHexDigit
  rw [lowerHexDigit_value h]
  rfl

theorem wellFormed_pieceOf (p : CodePoint) : (pieceOf p).wellFormed = true := by
  cases p with
  | surrogate n => rfl
  | char c =>
      unfold pieceOf
      dsimp only
      split_ifs with hplain hquote hbackslash hn hr ht hf hb hcontrol
      · have hmark : c ≠ '"' := by
          rintro rfl
          exact absurd hplain.1 (by decide)
        have hslash : c ≠ '\\' := by
          rintro rfl
          exact absurd rfl hplain.2
        have hlow : 32 ≤ c.toNat := by omega
        simp [Piece.wellFormed, hmark, hslash, hlow]
      · rfl
      · rfl
      · rfl
      · rfl
      · rfl
      · rfl
      · rfl
      · have hhigh := lowerHexDigit_isHexDigit (show c.toNat / 16 < 16 by omega)
        have hlow := lowerHexDigit_isHexDigit (Nat.mod_lt c.toNat (show 0 < 16 by omega))
        have hzero : isHexDigit '0' = true := by decide
        simp [Piece.wellFormed, hzero, hhigh, hlow]
      · simp [Piece.wellFormed, hquote, hbackslash, Nat.not_lt.mp hcontrol]

theorem all_wellFormed_pieceOf (text : Points) :
    (text.map pieceOf).all Piece.wellFormed = true := by
  rw [List.all_map, List.all_eq_true]
  intro p _
  exact wellFormed_pieceOf p

/-- The members of a printed object, in their order. -/
def fieldMembers (fields : List (Points × Value)) : List Member :=
  (sortNames (fields.map (fun field => (field.1, field.2.tree)))).map memberOf

theorem tree_of_fields (fields : List (Points × Value)) :
    (Value.obj fields).tree = .object [] (fieldMembers fields) :=
  tree_obj fields

theorem mem_fieldMembers {fields : List (Points × Value)} {member : Member} :
    member ∈ fieldMembers fields <->
      exists field, field ∈ fields ∧ member = memberOf (field.1, field.2.tree) := by
  have hperm := List.perm_insertionSort (fun a b : Points × Tree => codes a.1 ≤ codes b.1)
    (fields.map (fun field => (field.1, field.2.tree)))
  unfold fieldMembers sortNames
  rw [(hperm.map memberOf).mem_iff, List.map_map, List.mem_map]
  constructor
  · rintro ⟨field, hfield, rfl⟩
    exact ⟨field, hfield, rfl⟩
  · rintro ⟨field, hfield, rfl⟩
    exact ⟨field, hfield, rfl⟩

theorem mem_itemTrees {items : List Value} {item : Item} :
    item ∈ (items.map Value.tree).map itemOf <->
      exists value, value ∈ items ∧ item = itemOf value.tree := by
  rw [List.map_map, List.mem_map]
  constructor
  · rintro ⟨value, hvalue, rfl⟩
    exact ⟨value, hvalue, rfl⟩
  · rintro ⟨value, hvalue, rfl⟩
    exact ⟨value, hvalue, rfl⟩

theorem wellFormed_tree {v : Value} (h : v.Proper library) :
    everywhere wellFormedHere v.tree = true := by
  induction v using Value.rule with
  | null => rfl
  | bool b => cases b <;> rfl
  | int n => exact isNumberLiteral_int n
  | float value digits => exact h.1
  | constant c => cases c <;> rfl
  | str s => exact all_wellFormed_pieceOf s
  | arr items ih =>
      have hitems := properItems_iff.mp h
      rw [tree_arr]
      refine wellFormed_array.mpr ⟨rfl, Or.inr rfl, List.all_eq_true.mpr fun item hitem => ?_⟩
      obtain ⟨value, hvalue, rfl⟩ := mem_itemTrees.mp hitem
      exact wellFormedItem_iff.mpr ⟨rfl, rfl, ih value hvalue (hitems value hvalue)⟩
  | obj fields ih =>
      have hfields := properFields_iff.mp h.2
      rw [tree_of_fields]
      refine wellFormed_object.mpr
        ⟨rfl, Or.inr rfl, List.all_eq_true.mpr fun member hmember => ?_⟩
      obtain ⟨field, hfield, rfl⟩ := mem_fieldMembers.mp hmember
      exact wellFormedMember_iff.mpr ⟨rfl, all_wellFormed_pieceOf _, rfl, rfl, rfl,
        ih field hfield (hfields field hfield)⟩

/-!
### Canonical nodes
-/

theorem canonical_array {blank : Blank} {items : List Item} :
    everywhere (canonicalHere floats) (.array blank items) = true <->
      blank = [] ∧ forall item, item ∈ items -> (item.1 = [] ∧ item.2.2 = []) ∧
        everywhere (canonicalHere floats) item.2.1 = true := by
  rw [everywhere_array]
  simp only [canonicalHere, blanksEmpty, namesSorted, escapesNeeded, numbersPrinted,
    Bool.and_true, Bool.and_eq_true, List.isEmpty_iff, List.all_eq_true, imp_and, forall_and]
  tauto

/-- A member as the encoder writes it, apart from its value. -/
def MemberPrinted (member : Member) : Prop :=
  (member.1 = [] ∧ member.2.2.1 = [] ∧ member.2.2.2.1 = [] ∧ member.2.2.2.2.2 = []) ∧
    member.2.1.all Piece.isNeeded = true

theorem canonical_object {blank : Blank} {members : List Member} :
    everywhere (canonicalHere floats) (.object blank members) = true <->
      blank = [] ∧ (namesOf members).Pairwise (fun a b => codes a < codes b) ∧
        forall member, member ∈ members -> MemberPrinted member ∧
          everywhere (canonicalHere floats) member.2.2.2.2.1 = true := by
  rw [everywhere_object]
  simp only [canonicalHere, blanksEmpty, namesSorted, escapesNeeded, numbersPrinted,
    MemberPrinted, Bool.and_true, Bool.and_eq_true, List.isEmpty_iff, List.all_eq_true,
    decide_eq_true_eq, imp_and, forall_and]
  tauto

theorem codes_injective {a b : Points} (h : codes a = codes b) : a = b :=
  List.map_injective_iff.mpr (fun _ _ => CodePoint.code_inj) h

theorem namesOf_memberOf (entries : List (Points × Tree)) :
    namesOf (entries.map memberOf) = entries.map Prod.fst := by
  unfold namesOf
  rw [List.map_map]
  apply List.map_congr_left
  intro entry _
  exact textOf_map_pieceOf entry.1

theorem pairwise_sortNames {entries : List (Points × Tree)} (h : (entries.map Prod.fst).Nodup) :
    ((sortNames entries).map Prod.fst).Pairwise (fun a b => codes a < codes b) := by
  have htotal : Std.Total (fun a b : Points × Tree => codes a.1 ≤ codes b.1) :=
    ⟨fun a b => le_total (codes a.1) (codes b.1)⟩
  have htrans : IsTrans (Points × Tree) (fun a b => codes a.1 ≤ codes b.1) :=
    ⟨fun _ _ _ => le_trans⟩
  have hsorted := List.pairwise_insertionSort
    (fun a b : Points × Tree => codes a.1 ≤ codes b.1) entries
  have hperm := (List.perm_insertionSort
    (fun a b : Points × Tree => codes a.1 ≤ codes b.1) entries).map Prod.fst
  have hnodup : ((sortNames entries).map Prod.fst).Nodup := hperm.nodup_iff.mpr h
  have hle : ((sortNames entries).map Prod.fst).Pairwise (fun a b => codes a ≤ codes b) :=
    List.pairwise_map.mpr hsorted
  refine (hle.and hnodup).imp ?_
  rintro a b ⟨hab, hne⟩
  exact lt_of_le_of_ne hab (fun heq => hne (codes_injective heq))

theorem canonical_number {literal : List Char} {v : Value}
    (h : numberValue floats literal = some v) :
    everywhere (canonicalHere floats) (.number literal) = true <->
      v.literal? = some literal := by
  rw [everywhere]
  simp [canonicalHere, blanksEmpty, namesSorted, escapesNeeded, numbersPrinted, h]

theorem numberValue_int {n : Int} (h : everywhere intFits (Value.int n).tree = true) :
    numberValue floats (toString n).toList = some (.int n) := by
  have hfits : (withoutSign (toString n).toList).length ≤ maxIntDigits := by
    rw [Value.tree, everywhere, intFits, isFloatLiteral_int, Bool.false_or] at h
    exact of_decide_eq_true h
  unfold numberValue
  rw [if_neg (by rw [isFloatLiteral_int]; exact Bool.false_ne_true), if_pos hfits, intOf_int]

theorem numberValue_float {value : Rat} {digits : String}
    (h : (Value.float value digits).Proper library) :
    numberValue library.read digits.toList = some (.float value digits) := by
  unfold numberValue
  rw [if_pos h.2.1, h.2.2]
  rfl

theorem canonical_tree {v : Value} (h : v.Proper library)
    (hfits : everywhere intFits v.tree = true) :
    everywhere (canonicalHere library.read) v.tree = true := by
  induction v using Value.rule with
  | null => rfl
  | bool b => cases b <;> rfl
  | int n => exact (canonical_number (numberValue_int hfits)).mpr rfl
  | float value digits => exact (canonical_number (numberValue_float h)).mpr rfl
  | constant c => cases c <;> rfl
  | str s =>
      rw [Value.tree, everywhere]
      simp only [canonicalHere, blanksEmpty, namesSorted, escapesNeeded, numbersPrinted,
        all_isNeeded_pieceOf, Bool.and_self]
  | arr items ih =>
      have hitems := properItems_iff.mp h
      rw [tree_arr] at hfits ⊢
      obtain ⟨_, hfits⟩ := everywhere_array.mp hfits
      refine canonical_array.mpr ⟨rfl, fun item hitem => ?_⟩
      have hfit := hfits item hitem
      obtain ⟨value, hvalue, rfl⟩ := mem_itemTrees.mp hitem
      exact ⟨⟨rfl, rfl⟩, ih value hvalue (hitems value hvalue) hfit⟩
  | obj fields ih =>
      have hfields := properFields_iff.mp h.2
      rw [tree_of_fields] at hfits ⊢
      obtain ⟨_, hfits⟩ := everywhere_object.mp hfits
      have hnames : ((fields.map (fun field => (field.1, field.2.tree))).map Prod.fst).Nodup := by
        rw [List.map_map]
        exact h.1
      refine canonical_object.mpr ⟨rfl, ?_, fun member hmember => ?_⟩
      · unfold fieldMembers
        rw [namesOf_memberOf]
        exact pairwise_sortNames hnames
      · have hfit := hfits member hmember
        obtain ⟨field, hfield, rfl⟩ := mem_fieldMembers.mp hmember
        exact ⟨⟨⟨rfl, rfl, rfl, rfl⟩, all_isNeeded_pieceOf _⟩,
          ih field hfield (hfields field hfield) hfit⟩

/-!
## Trees that are printed again
-/

theorem tree_of_literal {v : Value} {literal : List Char} (h : v.literal? = some literal) :
    v.tree = .number literal := by
  cases v with
  | int n =>
      cases h
      rfl
  | float value digits =>
      cases h
      rfl
  | _ => cases h

theorem map_eq_of_forall₂ {R : a -> b -> Prop} {f : b -> a} {xs : List a} {ys : List b}
    (h : List.Forall₂ R xs ys) (hf : forall x, x ∈ xs -> forall y, R x y -> f y = x) :
    ys.map f = xs := by
  induction h with
  | nil => rfl
  | cons hxy _ ih =>
      rw [List.map_cons, hf _ List.mem_cons_self _ hxy,
        ih (fun x hx => hf x (List.mem_cons_of_mem _ hx))]

theorem sortNames_of_pairwise {entries : List (Points × Tree)}
    (h : (entries.map Prod.fst).Pairwise (fun a b => codes a < codes b)) :
    sortNames entries = entries := by
  have hle : entries.Pairwise (fun a b => codes a.1 ≤ codes b.1) :=
    (List.pairwise_map.mp h).imp le_of_lt
  exact hle.insertionSort_eq

theorem map_fst_of_memberValues {members : List Member} {pairs : List (Points × Value)}
    (h : memberValues floats members = some pairs) : pairs.map Prod.fst = namesOf members := by
  unfold namesOf
  have hpairs := memberValues_eq_some.mp h
  induction hpairs with
  | nil => rfl
  | cons hfirst hrest ih =>
      rw [List.map_cons, List.map_cons, hfirst.1, ih (memberValues_eq_some.mpr hrest)]

theorem memberOf_of_printed {member : Member} {tree : Tree} (h : MemberPrinted member)
    (htree : tree = member.2.2.2.2.1) : memberOf (textOf member.2.1, tree) = member := by
  rcases member with ⟨before, name, left, right, value, after⟩
  obtain ⟨⟨rfl, rfl, rfl, rfl⟩, hname⟩ := h
  subst htree
  unfold memberOf
  rw [(map_pieceOf_textOf_iff name).mpr hname]

theorem tree_of_canonical {tree : Tree} {v : Value} (h : tree.value floats = some v)
    (hcanonical : everywhere (canonicalHere floats) tree = true) : v.tree = tree := by
  induction tree using Tree.rule generalizing v with
  | word w =>
      cases h
      cases w <;> rfl
  | number literal => exact tree_of_literal ((canonical_number h).mp hcanonical)
  | string pieces =>
      cases h
      rw [everywhere] at hcanonical
      simp only [canonicalHere, blanksEmpty, namesSorted, escapesNeeded, numbersPrinted,
        Bool.true_and, Bool.and_true] at hcanonical
      rw [Value.tree, (map_pieceOf_textOf_iff pieces).mpr hcanonical]
  | array blank items ih =>
      obtain ⟨rfl, hitems⟩ := canonical_array.mp hcanonical
      rw [Tree.value] at h
      obtain ⟨values, hvalues, rfl⟩ := Option.map_eq_some_iff.mp h
      have hsame : values.map (fun value => itemOf value.tree) = items := by
        apply map_eq_of_forall₂ (itemValues_eq_some.mp hvalues)
        rintro ⟨before, item, after⟩ hitem value hvalue
        obtain ⟨⟨rfl, rfl⟩, hcanonicalItem⟩ := hitems _ hitem
        unfold itemOf
        rw [ih _ hitem hvalue hcanonicalItem]
      rw [tree_arr, List.map_map]
      exact congrArg _ hsame
  | object blank members ih =>
      obtain ⟨rfl, hnames, hmembers⟩ := canonical_object.mp hcanonical
      rw [Tree.value] at h
      obtain ⟨pairs, hpairs, rfl⟩ := Option.map_eq_some_iff.mp h
      have hkeys := map_fst_of_memberValues hpairs
      have hnodup : (pairs.map Prod.fst).Nodup := by
        rw [hkeys]
        exact hnames.imp (fun hlt heq => absurd (heq ▸ hlt) (lt_irrefl _))
      have hsame : pairs.map (fun pair => memberOf (pair.1, pair.2.tree)) = members := by
        apply map_eq_of_forall₂ (memberValues_eq_some.mp hpairs)
        rintro member hmember ⟨name, value⟩ ⟨hname, hvalue⟩
        obtain ⟨hprinted, hcanonicalValue⟩ := hmembers member hmember
        rw [hname]
        exact memberOf_of_printed hprinted (ih member hmember hvalue hcanonicalValue)
      have hsorted : sortNames (pairs.map (fun pair => (pair.1, pair.2.tree))) =
          pairs.map (fun pair => (pair.1, pair.2.tree)) := by
        apply sortNames_of_pairwise
        rw [List.map_map]
        show (pairs.map Prod.fst).Pairwise _
        rw [hkeys]
        exact hnames
      rw [dictOf_of_nodup hnodup, tree_obj, hsorted, List.map_map]
      exact congrArg _ hsame

/-!
## Values that are read again
-/

def sortFields (fields : List (Points × Value)) : List (Points × Value) :=
  fields.insertionSort (fun a b => codes a.1 ≤ codes b.1)

mutual

/-- The value that comes back: the members of every dictionary sorted. -/
def Value.sorted : Value -> Value
  | .arr items => .arr (sortedItems items)
  | .obj fields => .obj (sortFields (sortedFields fields))
  | other => other

def sortedItems : List Value -> List Value
  | [] => []
  | item :: rest => item.sorted :: sortedItems rest

def sortedFields : List (Points × Value) -> List (Points × Value)
  | [] => []
  | (name, value) :: rest => (name, value.sorted) :: sortedFields rest

end

theorem sortedItems_eq (items : List Value) : sortedItems items = items.map Value.sorted := by
  induction items with
  | nil => rfl
  | cons head rest ih => rw [sortedItems, ih, List.map_cons]

theorem sortedFields_eq (fields : List (Points × Value)) :
    sortedFields fields = fields.map (fun field => (field.1, field.2.sorted)) := by
  induction fields with
  | nil => rfl
  | cons head rest ih =>
      rcases head with ⟨name, value⟩
      rw [sortedFields, ih, List.map_cons]

theorem sortFields_perm (fields : List (Points × Value)) : (sortFields fields).Perm fields :=
  List.perm_insertionSort _ fields

theorem fieldMembers_eq (fields : List (Points × Value)) :
    fieldMembers fields =
      (sortFields fields).map (fun field => memberOf (field.1, field.2.tree)) := by
  have hsort : sortNames (fields.map (fun field => (field.1, field.2.tree))) =
      (sortFields fields).map (fun field => (field.1, field.2.tree)) :=
    (List.map_insertionSort (fun a b : Points × Value => codes a.1 ≤ codes b.1)
      (fun a b : Points × Tree => codes a.1 ≤ codes b.1) (fun field => (field.1, field.2.tree))
      fields (fun _ _ _ _ => Iff.rfl)).symm
  unfold fieldMembers
  rw [hsort, List.map_map]
  rfl

theorem sortFields_sortedFields (fields : List (Points × Value)) :
    sortFields (sortedFields fields) =
      (sortFields fields).map (fun field => (field.1, field.2.sorted)) := by
  rw [sortedFields_eq]
  exact (List.map_insertionSort (fun a b : Points × Value => codes a.1 ≤ codes b.1)
    (fun a b : Points × Value => codes a.1 ≤ codes b.1) (fun field => (field.1, field.2.sorted))
    fields (fun _ _ _ _ => Iff.rfl)).symm

theorem forall₂_map {R : a -> b -> Prop} {f : c -> a} {g : c -> b} {xs : List c}
    (h : forall x, x ∈ xs -> R (f x) (g x)) : List.Forall₂ R (xs.map f) (xs.map g) := by
  induction xs with
  | nil => exact .nil
  | cons x rest ih =>
      exact .cons (h x List.mem_cons_self) (ih (fun y hy => h y (List.mem_cons_of_mem _ hy)))

theorem memberValues_fieldMembers {fields : List (Points × Value)}
    (h : forall field, field ∈ fields -> field.2.tree.value floats = some field.2.sorted) :
    memberValues floats (fieldMembers fields) = some (sortFields (sortedFields fields)) := by
  rw [fieldMembers_eq, sortFields_sortedFields]
  apply memberValues_eq_some.mpr
  apply forall₂_map
  intro field hfield
  exact ⟨(textOf_map_pieceOf field.1).symm, h field ((sortFields_perm fields).mem_iff.mp hfield)⟩

theorem value_tree {v : Value} (h : v.Proper library)
    (hfits : everywhere intFits v.tree = true) : v.tree.value library.read = some v.sorted := by
  induction v using Value.rule with
  | null => rfl
  | bool b => cases b <;> rfl
  | int n => exact numberValue_int hfits
  | float value digits => exact numberValue_float h
  | constant c => cases c <;> rfl
  | str s =>
      rw [Value.tree, Tree.value, textOf_map_pieceOf]
      rfl
  | arr items ih =>
      have hitems := properItems_iff.mp h
      rw [tree_arr] at hfits ⊢
      obtain ⟨_, hfits⟩ := everywhere_array.mp hfits
      rw [Tree.value, List.map_map, Value.sorted, sortedItems_eq]
      have hvalues : itemValues library.read (items.map (itemOf ∘ Value.tree)) =
          some (items.map Value.sorted) := by
        apply itemValues_eq_some.mpr
        apply forall₂_map
        intro value hvalue
        exact ih value hvalue (hitems value hvalue)
          (hfits _ (mem_itemTrees.mpr ⟨value, hvalue, rfl⟩))
      rw [hvalues]
      rfl
  | obj fields ih =>
      have hfields := properFields_iff.mp h.2
      rw [tree_of_fields] at hfits ⊢
      obtain ⟨_, hfits⟩ := everywhere_object.mp hfits
      have hvalues : memberValues library.read (fieldMembers fields) =
          some (sortFields (sortedFields fields)) :=
        memberValues_fieldMembers (fun field hfield => ih field hfield (hfields field hfield)
          (hfits _ (mem_fieldMembers.mpr ⟨field, hfield, rfl⟩)))
      have hnodup : ((sortFields (sortedFields fields)).map Prod.fst).Nodup := by
        rw [sortFields_sortedFields, List.map_map]
        exact ((sortFields_perm fields).map Prod.fst).nodup_iff.mpr h.1
      rw [Tree.value, hvalues, Value.sorted, Option.map_some, dictOf_of_nodup hnodup]

/-!
## Equality
-/

namespace Value

/-- The value of a number; Python compares booleans as numbers. -/
def numeric? : Value -> Option Rat
  | int n => some n
  | float value _ => some value
  | bool b => some (if b then 1 else 0)
  | _ => none

def isNull : Value -> Bool
  | null => true
  | _ => false

def isString (s : Points) : Value -> Bool
  | str t => t == s
  | _ => false

/-- Infinities equal themselves, and what is not a number equals nothing. -/
def isConstant (c : Constant) : Value -> Bool
  | constant d => d == c && c != .nan
  | _ => false

mutual

/-- `==` of decoded values, which does not look at the order of a dictionary's members. -/
def equal : Value -> Value -> Bool
  | null, other => other.isNull
  | bool b, other => other.numeric? == some (if b then 1 else 0)
  | int n, other => other.numeric? == some (n : Rat)
  | float value _, other => other.numeric? == some value
  | constant c, other => other.isConstant c
  | str s, other => other.isString s
  | arr items, arr others => equalItems items others
  | arr _, _ => false
  | obj fields, obj others => fields.length == others.length && equalFields fields others
  | obj _, _ => false

def equalItems : List Value -> List Value -> Bool
  | [], [] => true
  | item :: rest, other :: others => equal item other && equalItems rest others
  | _, _ => false

def equalFields : List (Points × Value) -> List (Points × Value) -> Bool
  | [], _ => true
  | (name, value) :: rest, others =>
      match others.lookup name with
      | some other => equal value other && equalFields rest others
      | none => false

end

mutual

def isNumeric : Value -> Bool
  | constant c => c != .nan
  | arr items => numericItems items
  | obj fields => numericFields fields
  | _ => true

def numericItems : List Value -> Bool
  | [] => true
  | item :: rest => item.isNumeric && numericItems rest

def numericFields : List (Points × Value) -> Bool
  | [] => true
  | (_, value) :: rest => value.isNumeric && numericFields rest

end

theorem numericItems_eq (items : List Value) : numericItems items = items.all isNumeric := by
  induction items with
  | nil => rfl
  | cons head rest ih => rw [numericItems, ih, List.all_cons]

theorem numericFields_eq (fields : List (Points × Value)) :
    numericFields fields = fields.all (fun field => field.2.isNumeric) := by
  induction fields with
  | nil => rfl
  | cons head rest ih =>
      rcases head with ⟨name, value⟩
      rw [numericFields, ih, List.all_cons]

theorem equalFields_iff {fields others : List (Points × Value)} :
    equalFields fields others = true <-> forall field, field ∈ fields ->
      exists other, others.lookup field.1 = some other ∧ field.2.equal other = true := by
  induction fields with
  | nil => simp [equalFields]
  | cons head rest ih =>
      rcases head with ⟨name, value⟩
      rw [List.forall_mem_cons, <- ih, equalFields]
      cases others.lookup name with
      | none => simp
      | some other => simp

theorem equalItems_map {items : List Value}
    (h : forall item, item ∈ items -> item.sorted.equal item = true) :
    equalItems (items.map sorted) items = true := by
  induction items with
  | nil => rfl
  | cons item rest ih =>
      rw [List.forall_mem_cons] at h
      rw [List.map_cons, equalItems, h.1, ih h.2]
      rfl

end Value

theorem length_sortFields (fields : List (Points × Value)) :
    (sortFields (sortedFields fields)).length = fields.length := by
  rw [(sortFields_perm _).length_eq, sortedFields_eq, List.length_map]

theorem equal_sorted {v : Value} (h : v.Proper library)
    (hnumeric : v.isNumeric = true) : v.sorted.equal v = true := by
  induction v using Value.rule with
  | null => rfl
  | bool b => simp [Value.sorted, Value.equal, Value.numeric?]
  | int n => simp [Value.sorted, Value.equal, Value.numeric?]
  | float value digits => simp [Value.sorted, Value.equal, Value.numeric?]
  | constant c =>
      have hc : (c != .nan) = true := hnumeric
      simp [Value.sorted, Value.equal, Value.isConstant, hc]
  | str s => simp [Value.sorted, Value.equal, Value.isString]
  | arr items ih =>
      have hitems := properItems_iff.mp h
      rw [Value.isNumeric, Value.numericItems_eq, List.all_eq_true] at hnumeric
      rw [Value.sorted, Value.equal, sortedItems_eq]
      exact Value.equalItems_map
        (fun item hitem => ih item hitem (hitems item hitem) (hnumeric item hitem))
  | obj fields ih =>
      have hfields := properFields_iff.mp h.2
      rw [Value.isNumeric, Value.numericFields_eq, List.all_eq_true] at hnumeric
      rw [Value.sorted, Value.equal, Bool.and_eq_true, Value.equalFields_iff]
      refine ⟨beq_iff_eq.mpr (length_sortFields fields), ?_⟩
      intro field hfield
      rw [sortFields_sortedFields] at hfield
      obtain ⟨⟨name, value⟩, hmem, rfl⟩ := List.mem_map.mp hfield
      have hold := (sortFields_perm fields).mem_iff.mp hmem
      exact ⟨value, (Foundation.lookup_eq_some_iff h.1).mpr hold,
        ih _ hold (hfields _ hold) (hnumeric _ hold)⟩

theorem lookup_sortedFields (fields : List (Points × Value)) (name : Points) :
    (sortedFields fields).lookup name = (fields.lookup name).map Value.sorted := by
  induction fields with
  | nil => rfl
  | cons head rest ih =>
      rcases head with ⟨key, value⟩
      rw [sortedFields]
      by_cases hname : (name == key) = true
      · simp [List.lookup_cons, hname]
      · simp [List.lookup_cons, Bool.eq_false_iff.mpr hname, ih]

theorem lookup_sorted {fields : List (Points × Value)} (h : (fields.map Prod.fst).Nodup)
    (name : Points) :
    (sortFields (sortedFields fields)).lookup name = (fields.lookup name).map Value.sorted := by
  have hnames : ((sortedFields fields).map Prod.fst).Nodup := by
    rw [sortedFields_eq, List.map_map]
    exact h
  rw [<- lookup_sortedFields]
  exact (Foundation.lookup_of_perm (sortFields_perm _).symm hnames name).symm

theorem fieldMembers_of_perm {fields others : List (Points × Value)} (h : fields.Perm others)
    (hnodup : (fields.map Prod.fst).Nodup) : fieldMembers fields = fieldMembers others := by
  have hpairwise : forall list : List (Points × Value), (list.map Prod.fst).Nodup ->
      (sortNames (list.map (fun field => (field.1, field.2.tree)))).Pairwise
        (fun a b => codes a.1 < codes b.1) := by
    intro list hlist
    have hnames : ((list.map (fun field => (field.1, field.2.tree))).map Prod.fst).Nodup := by
      rw [List.map_map]
      exact hlist
    have hsorted := pairwise_sortNames hnames
    rwa [List.pairwise_map] at hsorted
  have hothers : (others.map Prod.fst).Nodup := (h.map Prod.fst).nodup_iff.mp hnodup
  have hperm : (sortNames (fields.map (fun field => (field.1, field.2.tree)))).Perm
      (sortNames (others.map (fun field => (field.1, field.2.tree)))) :=
    (List.perm_insertionSort _ _).trans ((h.map _).trans (List.perm_insertionSort _ _).symm)
  unfold fieldMembers
  rw [List.Perm.eq_of_pairwise (fun a b _ _ hab hba => absurd (hab.trans hba) (lt_irrefl _))
    (hpairwise fields hnodup) (hpairwise others hothers) hperm]

end Ump.Codec
