import Mathlib.Data.List.Forall2
import Mathlib.Data.List.Induction
import Mathlib.Data.List.TakeWhile
import Ump.Codec.Reading

/-!
# Values and trees

Which values have a text, and which values the trees of texts have.
-/

namespace Ump.Codec

/-!
## The literals of integers
-/

theorem natOf_concat (digits : List Char) (c : Char) :
    natOf (digits ++ [c]) = 10 * natOf digits + digitValue c := by
  unfold natOf
  rw [List.foldl_append]
  rfl

theorem natOf_toDigits (n : Nat) : natOf (Nat.toDigits 10 n) = n := by
  induction n using Nat.strongRecOn with
  | ind n ih =>
      by_cases hsmall : n < 10
      · rw [Nat.toDigits_of_lt_base hsmall]
        show 10 * 0 + digitValue n.digitChar = n
        unfold digitValue
        rw [Nat.toNat_digitChar_sub_48_of_lt_ten hsmall]
        omega
      · have hlast : digitValue (n % 10).digitChar = n % 10 :=
          Nat.toNat_digitChar_sub_48_of_lt_ten (Nat.mod_lt _ (by decide))
        rw [Nat.toDigits_of_base_le (by decide) (Nat.not_lt.mp hsmall), natOf_concat,
          ih (n / 10) (by omega), hlast]
        omega

theorem isDigitChar_of_mem_toDigits {n : Nat} {c : Char} (h : c ∈ Nat.toDigits 10 n) :
    isDigitChar c = true := by
  have hdigit := Nat.isDigit_of_mem_toDigits (by decide) (by decide) h
  simpa [isDigitChar, Char.isDigit, Char.le_def, UInt32.le_iff_toNat_le] using hdigit

theorem isDigits_toDigits (n : Nat) : isDigits (Nat.toDigits 10 n) = true := by
  rw [isDigits, Bool.and_eq_true, Bool.not_eq_true', List.isEmpty_eq_false_iff]
  exact ⟨Nat.toDigits_ne_nil, List.all_eq_true.mpr fun c hc => isDigitChar_of_mem_toDigits hc⟩

theorem eq_zero_of_head_toDigits {n : Nat} (h : (Nat.toDigits 10 n).head? = some '0') :
    n = 0 := by
  induction n using Nat.strongRecOn with
  | ind n ih =>
      by_cases hsmall : n < 10
      · rw [Nat.toDigits_of_lt_base hsmall] at h
        exact Nat.digitChar_eq_zero.mp (Option.some.inj h)
      · rw [Nat.toDigits_of_base_le (by decide) (Nat.not_lt.mp hsmall),
          List.head?_append_of_ne_nil _ Nat.toDigits_ne_nil] at h
        have hzero := ih (n / 10) (by omega) h
        omega

theorem isWhole_toDigits (n : Nat) : isWhole (Nat.toDigits 10 n) = true := by
  rw [isWhole, isDigits_toDigits, Bool.true_and, Bool.or_eq_true, bne_iff_ne, beq_iff_eq]
  by_cases hzero : n = 0
  · subst hzero
    exact Or.inr (Nat.toDigits_zero 10)
  · exact Or.inl (fun hhead => hzero (eq_zero_of_head_toDigits hhead))

theorem literal_of_int (n : Int) :
    exists m : Nat, (n = m ∧ (toString n).toList = Nat.toDigits 10 m) ∨
      (n = -(m : Int) ∧ (toString n).toList = '-' :: Nat.toDigits 10 m) := by
  rw [Int.toString_eq_repr, Int.repr_eq_if]
  split_ifs with hsign
  · refine ⟨n.toNat, Or.inl ⟨by omega, ?_⟩⟩
    rw [Nat.toList_repr]
  · refine ⟨(-n).toNat, Or.inr ⟨by omega, ?_⟩⟩
    rw [String.toList_append, Nat.toList_repr]
    rfl

theorem withoutSign_toDigits (n : Nat) : withoutSign (Nat.toDigits 10 n) = Nat.toDigits 10 n := by
  unfold withoutSign
  split
  case h_1 digits heq =>
      have hdigit := isDigitChar_of_mem_toDigits (heq ▸ List.mem_cons_self : '-' ∈ _)
      cases hdigit
  case h_2 => rfl

theorem withoutSign_int (n : Int) :
    withoutSign (toString n).toList = Nat.toDigits 10 n.natAbs := by
  obtain ⟨m, ⟨rfl, hliteral⟩ | ⟨rfl, hliteral⟩⟩ := literal_of_int n
  · rw [hliteral, withoutSign_toDigits, Int.natAbs_natCast]
  · rw [hliteral, Int.natAbs_neg, Int.natAbs_natCast]
    rfl

theorem isNumberLiteral_int (n : Int) : isNumberLiteral (toString n).toList = true := by
  have hall : forall c, c ∈ Nat.toDigits 10 n.natAbs -> isDigitChar c = true :=
    fun c hc => isDigitChar_of_mem_toDigits hc
  rw [isNumberLiteral, withoutSign_int, List.takeWhile_eq_self_iff.mpr hall,
    List.dropWhile_eq_nil_iff.mpr hall, isWhole_toDigits]
  rfl

theorem isFloatLiteral_toDigits (n : Nat) : isFloatLiteral (Nat.toDigits 10 n) = false := by
  apply List.any_eq_false.mpr
  intro c hc hmark
  have hdigit := isDigitChar_of_mem_toDigits hc
  simp only [Bool.or_eq_true, beq_iff_eq] at hmark
  rcases hmark with (rfl | rfl) | rfl <;> cases hdigit

theorem isFloatLiteral_int (n : Int) : isFloatLiteral (toString n).toList = false := by
  obtain ⟨m, ⟨_, hliteral⟩ | ⟨_, hliteral⟩⟩ := literal_of_int n
  · rw [hliteral, isFloatLiteral_toDigits]
  · rw [hliteral, isFloatLiteral, List.any_cons]
    exact isFloatLiteral_toDigits m

theorem intOf_toDigits (n : Nat) : intOf (Nat.toDigits 10 n) = n := by
  unfold intOf
  split
  case h_1 digits heq =>
      have hdigit := isDigitChar_of_mem_toDigits (heq ▸ List.mem_cons_self : '-' ∈ _)
      cases hdigit
  case h_2 => rw [natOf_toDigits]

theorem intOf_int (n : Int) : intOf (toString n).toList = n := by
  obtain ⟨m, ⟨hn, hliteral⟩ | ⟨hn, hliteral⟩⟩ := literal_of_int n
  · rw [hliteral, intOf_toDigits, hn]
  · rw [hliteral]
    show -(natOf (Nat.toDigits 10 m) : Int) = n
    rw [natOf_toDigits, hn]

/-!
## Values that can be printed and read
-/

/-- `float` of a literal, and `repr`. The text that `repr` gives for a finite number is the
literal of a float, and `float` takes it back to the same number. -/
structure FloatLibrary where
  read : Floats
  reread : forall {literal : List Char} {value : Rat} {digits : String},
    read literal = .finite value digits ->
      isNumberLiteral digits.toList = true ∧ isFloatLiteral digits.toList = true ∧
        read digits.toList = .finite value digits

variable (library : FloatLibrary)

mutual

/-- Each float has the digits of its `repr`, and no dictionary has a name twice. -/
def Value.Proper : Value -> Prop
  | .float value digits =>
      isNumberLiteral digits.toList = true ∧ isFloatLiteral digits.toList = true ∧
        library.read digits.toList = .finite value digits
  | .arr items => ProperItems items
  | .obj fields => (fields.map Prod.fst).Nodup ∧ ProperFields fields
  | _ => True

def ProperItems : List Value -> Prop
  | [] => True
  | item :: rest => item.Proper ∧ ProperItems rest

def ProperFields : List (Points × Value) -> Prop
  | [] => True
  | (_, value) :: rest => value.Proper ∧ ProperFields rest

end

variable {library}

theorem properItems_iff {items : List Value} :
    ProperItems library items <-> forall item, item ∈ items -> item.Proper library := by
  induction items with
  | nil => simp [ProperItems]
  | cons head rest ih => rw [ProperItems, ih, List.forall_mem_cons]

theorem properFields_iff {fields : List (Points × Value)} :
    ProperFields library fields <-> forall field, field ∈ fields -> field.2.Proper library := by
  induction fields with
  | nil => simp [ProperFields]
  | cons head rest ih =>
      rcases head with ⟨name, value⟩
      rw [ProperFields, ih, List.forall_mem_cons]

theorem itemTrees_eq (items : List Value) : itemTrees items = items.map Value.tree := by
  induction items with
  | nil => rfl
  | cons head rest ih => rw [itemTrees, ih, List.map_cons]

theorem fieldTrees_eq (fields : List (Points × Value)) :
    fieldTrees fields = fields.map (fun field => (field.1, field.2.tree)) := by
  induction fields with
  | nil => rfl
  | cons head rest ih =>
      rcases head with ⟨name, value⟩
      rw [fieldTrees, ih, List.map_cons]

def itemOf (tree : Tree) : Item := ([], tree, [])

theorem tree_arr (items : List Value) :
    (Value.arr items).tree = .array [] ((items.map Value.tree).map itemOf) := by
  rw [Value.tree, itemTrees_eq]
  rfl

theorem tree_obj (fields : List (Points × Value)) :
    (Value.obj fields).tree = .object []
      ((sortNames (fields.map (fun field => (field.1, field.2.tree)))).map memberOf) := by
  rw [Value.tree, fieldTrees_eq]

/-! ### The pairs of a dictionary -/

theorem assign_of_not_mem {fields : List (Points × Value)} {name : Points} (value : Value)
    (h : name ∉ fields.map Prod.fst) : assign fields name value = fields ++ [(name, value)] := by
  unfold assign
  rw [if_neg]
  simp only [List.any_eq_true, beq_iff_eq, not_exists, not_and]
  intro field hfield heq
  exact h (List.mem_map.mpr ⟨field, hfield, heq⟩)

theorem map_fst_assign {fields : List (Points × Value)} {name : Points} (value : Value)
    (h : name ∈ fields.map Prod.fst) :
    (assign fields name value).map Prod.fst = fields.map Prod.fst := by
  obtain ⟨field, hfield, hname⟩ := List.mem_map.mp h
  have hany : fields.any (fun field => field.1 == name) = true :=
    List.any_eq_true.mpr ⟨field, hfield, beq_iff_eq.mpr hname⟩
  unfold assign
  rw [if_pos hany, List.map_map]
  apply List.map_congr_left
  intro other _
  show (if other.1 = name then (name, value) else other).1 = other.1
  split_ifs with heq
  · exact heq.symm
  · rfl

theorem mem_assign {fields : List (Points × Value)} {name : Points} {value : Value}
    {field : Points × Value} (h : field ∈ assign fields name value) :
    field ∈ fields ∨ field = (name, value) := by
  unfold assign at h
  split_ifs at h with hany
  · obtain ⟨other, hother, heq⟩ := List.mem_map.mp h
    split_ifs at heq with hname
    · exact Or.inr heq.symm
    · exact Or.inl (heq ▸ hother)
  · rcases List.mem_append.mp h with hold | hnew
    · exact Or.inl hold
    · exact Or.inr (List.mem_singleton.mp hnew)

theorem nodup_assign {fields : List (Points × Value)} (name : Points) (value : Value)
    (h : (fields.map Prod.fst).Nodup) : ((assign fields name value).map Prod.fst).Nodup := by
  by_cases hmem : name ∈ fields.map Prod.fst
  · rw [map_fst_assign value hmem]
    exact h
  · rw [assign_of_not_mem value hmem, List.map_append, List.nodup_append]
    refine ⟨h, List.nodup_singleton _, ?_⟩
    intro a ha b hb
    rw [List.mem_singleton.mp hb]
    rintro rfl
    exact hmem ha

theorem dictOf_concat (pairs : List (Points × Value)) (pair : Points × Value) :
    dictOf (pairs ++ [pair]) = assign (dictOf pairs) pair.1 pair.2 := by
  unfold dictOf
  rw [List.foldl_append]
  rfl

theorem dictOf_spec (pairs : List (Points × Value)) :
    ((dictOf pairs).map Prod.fst).Nodup ∧
      forall field, field ∈ dictOf pairs -> field ∈ pairs := by
  induction pairs using List.reverseRecOn with
  | nil => exact ⟨List.nodup_nil, fun _ h => h⟩
  | append_singleton pairs pair ih =>
      rw [dictOf_concat]
      refine ⟨nodup_assign _ _ ih.1, ?_⟩
      intro field hfield
      rcases mem_assign hfield with hold | rfl
      · exact List.mem_append_left _ (ih.2 field hold)
      · exact List.mem_append_right _ List.mem_cons_self

theorem dictOf_of_nodup {pairs : List (Points × Value)} (h : (pairs.map Prod.fst).Nodup) :
    dictOf pairs = pairs := by
  induction pairs using List.reverseRecOn with
  | nil => rfl
  | append_singleton pairs pair ih =>
      rw [List.map_append, List.map_singleton, List.nodup_append] at h
      have hnew : pair.1 ∉ pairs.map Prod.fst :=
        fun hmem => h.2.2 _ hmem _ (List.mem_singleton_self _) rfl
      rw [dictOf_concat, ih h.1, assign_of_not_mem _ hnew]

/-!
## Induction over values and trees

What holds of a list or a dictionary when it holds of everything in it holds of every value; so
it does of trees.
-/

set_option linter.unusedSectionVars false

section

variable {P : Value -> Prop} (null : P .null) (bool : forall b, P (.bool b))
  (int : forall n, P (.int n)) (float : forall value digits, P (.float value digits))
  (constant : forall c, P (.constant c)) (str : forall s, P (.str s))
  (arr : forall items, (forall item, item ∈ items -> P item) -> P (.arr items))
  (obj : forall fields, (forall field, field ∈ fields -> P field.2) -> P (.obj fields))

include null bool int float constant str arr obj

mutual

@[elab_as_elim]
theorem Value.rule : forall v : Value, P v
  | .null => null
  | .bool b => bool b
  | .int n => int n
  | .float value digits => float value digits
  | .constant c => constant c
  | .str s => str s
  | .arr items => arr items (Value.rule_items items)
  | .obj fields => obj fields (Value.rule_fields fields)

theorem Value.rule_items : forall items : List Value, forall item, item ∈ items -> P item
  | [] => fun _ h => absurd h List.not_mem_nil
  | head :: rest => List.forall_mem_cons.mpr ⟨Value.rule head, Value.rule_items rest⟩

theorem Value.rule_fields : forall fields : List (Points × Value),
    forall field, field ∈ fields -> P field.2
  | [] => fun _ h => absurd h List.not_mem_nil
  | (_, value) :: rest =>
      List.forall_mem_cons.mpr ⟨Value.rule value, Value.rule_fields rest⟩

end

end

section

variable {P : Tree -> Prop} (word : forall w, P (.word w))
  (number : forall literal, P (.number literal)) (string : forall pieces, P (.string pieces))
  (array : forall blank items, (forall item : Item, item ∈ items -> P item.2.1) ->
    P (.array blank items))
  (object : forall blank members,
    (forall member : Member, member ∈ members -> P member.2.2.2.2.1) -> P (.object blank members))

include word number string array object

mutual

@[elab_as_elim]
theorem Tree.rule : forall tree : Tree, P tree
  | .word w => word w
  | .number literal => number literal
  | .string pieces => string pieces
  | .array blank items => array blank items (Tree.rule_items items)
  | .object blank members => object blank members (Tree.rule_members members)

theorem Tree.rule_items : forall items : List Item, forall item, item ∈ items -> P item.2.1
  | [] => fun _ h => absurd h List.not_mem_nil
  | (_, tree, _) :: rest =>
      List.forall_mem_cons.mpr ⟨Tree.rule tree, Tree.rule_items rest⟩

theorem Tree.rule_members : forall members : List Member,
    forall member, member ∈ members -> P member.2.2.2.2.1
  | [] => fun _ h => absurd h List.not_mem_nil
  | (_, _, _, _, tree, _) :: rest =>
      List.forall_mem_cons.mpr ⟨Tree.rule tree, Tree.rule_members rest⟩

end

end

/-!
### The values of a list
-/

theorem itemValues_eq_some {floats : Floats} {items : List Item} {values : List Value} :
    itemValues floats items = some values <->
      List.Forall₂ (fun item value => item.2.1.value floats = some value) items values := by
  induction items generalizing values with
  | nil =>
      rw [itemValues, List.forall₂_nil_left_iff]
      exact ⟨fun h => (Option.some.inj h).symm, fun h => h ▸ rfl⟩
  | cons item rest ih =>
      rcases item with ⟨before, tree, after⟩
      rw [itemValues, List.forall₂_cons_left_iff]
      simp only [Option.bind_eq_bind, Option.bind_eq_some_iff, Option.some.injEq, ih]
      constructor
      · rintro ⟨first, hfirst, others, hothers, rfl⟩
        exact ⟨first, others, hfirst, hothers, rfl⟩
      · rintro ⟨first, others, hfirst, hothers, rfl⟩
        exact ⟨first, hfirst, others, hothers, rfl⟩

theorem memberValues_eq_some {floats : Floats} {members : List Member}
    {pairs : List (Points × Value)} :
    memberValues floats members = some pairs <->
      List.Forall₂ (fun member pair => pair.1 = textOf member.2.1 ∧
        member.2.2.2.2.1.value floats = some pair.2) members pairs := by
  induction members generalizing pairs with
  | nil =>
      rw [memberValues, List.forall₂_nil_left_iff]
      exact ⟨fun h => (Option.some.inj h).symm, fun h => h ▸ rfl⟩
  | cons member rest ih =>
      rcases member with ⟨before, name, left, right, tree, after⟩
      rw [memberValues, List.forall₂_cons_left_iff]
      simp only [Option.bind_eq_bind, Option.bind_eq_some_iff, Option.some.injEq, ih]
      constructor
      · rintro ⟨first, hfirst, others, hothers, rfl⟩
        exact ⟨(textOf name, first), others, ⟨rfl, hfirst⟩, hothers, rfl⟩
      · rintro ⟨⟨key, first⟩, others, ⟨rfl, hfirst⟩, hothers, rfl⟩
        exact ⟨first, hfirst, others, hothers, rfl⟩

theorem exists_right_of_mem {R : a -> b -> Prop} {xs : List a} {ys : List b}
    (h : List.Forall₂ R xs ys) {x : a} (hx : x ∈ xs) : exists y, y ∈ ys ∧ R x y := by
  induction h with
  | nil => cases hx
  | cons hxy _ ih =>
      rcases List.mem_cons.mp hx with rfl | hx
      · exact ⟨_, List.mem_cons_self, hxy⟩
      · obtain ⟨y, hy, hrest⟩ := ih hx
        exact ⟨y, List.mem_cons_of_mem _ hy, hrest⟩

theorem exists_left_of_mem {R : a -> b -> Prop} {xs : List a} {ys : List b}
    (h : List.Forall₂ R xs ys) {y : b} (hy : y ∈ ys) : exists x, x ∈ xs ∧ R x y :=
  exists_right_of_mem h.flip hy

/-- An integer literal that `int` takes. -/
def intFits : Tree -> Bool
  | .number literal =>
      isFloatLiteral literal || decide ((withoutSign literal).length ≤ maxIntDigits)
  | _ => true

theorem everywhere_array {rule : Tree -> Bool} {blank : Blank} {items : List Item} :
    everywhere rule (.array blank items) = true <->
      rule (.array blank items) = true ∧
        forall item, item ∈ items -> everywhere rule item.2.1 = true := by
  rw [everywhere, everywhereItems_eq, Bool.and_eq_true, List.all_eq_true]

theorem everywhere_object {rule : Tree -> Bool} {blank : Blank} {members : List Member} :
    everywhere rule (.object blank members) = true <->
      rule (.object blank members) = true ∧
        forall member, member ∈ members -> everywhere rule member.2.2.2.2.1 = true := by
  rw [everywhere, everywhereMembers_eq, Bool.and_eq_true, List.all_eq_true]

theorem intFits_of_value {floats : Floats} {tree : Tree} {v : Value}
    (h : tree.value floats = some v) : everywhere intFits tree = true := by
  induction tree using Tree.rule generalizing v with
  | word w => rfl
  | number literal =>
      rw [Tree.value, numberValue] at h
      rw [everywhere, intFits, Bool.or_eq_true, decide_eq_true_eq]
      split_ifs at h with hfloat hlength
      · exact Or.inl hfloat
      · exact Or.inr hlength
  | string pieces => rfl
  | array blank items ih =>
      rw [Tree.value] at h
      obtain ⟨values, hvalues, _⟩ := Option.map_eq_some_iff.mp h
      refine everywhere_array.mpr ⟨rfl, fun item hitem => ?_⟩
      obtain ⟨value, _, hvalue⟩ := exists_right_of_mem (itemValues_eq_some.mp hvalues) hitem
      exact ih item hitem hvalue
  | object blank members ih =>
      rw [Tree.value] at h
      obtain ⟨pairs, hpairs, _⟩ := Option.map_eq_some_iff.mp h
      refine everywhere_object.mpr ⟨rfl, fun member hmember => ?_⟩
      obtain ⟨pair, _, _, hvalue⟩ :=
        exists_right_of_mem (memberValues_eq_some.mp hpairs) hmember
      exact ih member hmember hvalue

theorem proper_of_value {tree : Tree} {v : Value}
    (hwell : everywhere wellFormedHere tree = true) (h : tree.value library.read = some v) :
    v.Proper library := by
  induction tree using Tree.rule generalizing v with
  | word w =>
      cases w <;> (cases h; trivial)
  | number literal =>
      rw [Tree.value, numberValue] at h
      split_ifs at h with hfloat hlength
      · cases h
        cases hread : library.read literal with
        | finite value digits => exact library.reread hread
        | infinite negative => exact trivial
      · cases h
        exact trivial
  | string pieces =>
      cases h
      exact trivial
  | array blank items ih =>
      obtain ⟨_, hitems⟩ := everywhere_array.mp hwell
      rw [Tree.value] at h
      obtain ⟨values, hvalues, rfl⟩ := Option.map_eq_some_iff.mp h
      refine properItems_iff.mpr fun value hmem => ?_
      obtain ⟨item, hitem, hvalue⟩ := exists_left_of_mem (itemValues_eq_some.mp hvalues) hmem
      exact ih item hitem (hitems item hitem) hvalue
  | object blank members ih =>
      obtain ⟨_, hmembers⟩ := everywhere_object.mp hwell
      rw [Tree.value] at h
      obtain ⟨pairs, hpairs, rfl⟩ := Option.map_eq_some_iff.mp h
      obtain ⟨hnodup, hpair⟩ := dictOf_spec pairs
      refine ⟨hnodup, properFields_iff.mpr fun field hfield => ?_⟩
      obtain ⟨member, hmember, _, hvalue⟩ :=
        exists_left_of_mem (memberValues_eq_some.mp hpairs) (hpair field hfield)
      exact ih member hmember (hmembers member hmember) hvalue

end Ump.Codec
