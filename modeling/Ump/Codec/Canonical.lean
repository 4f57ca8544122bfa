import Ump.Codec.Trees

/-!
# Canonical trees

## Rules for one node

A rule looks at one node of a tree, and a tree keeps it when every node does.
-/

namespace Ump.Codec

mutual

def everywhere (rule : Tree -> Bool) : Tree -> Bool
  | .word w => rule (.word w)
  | .number literal => rule (.number literal)
  | .string pieces => rule (.string pieces)
  | .array blank items => rule (.array blank items) && everywhereItems rule items
  | .object blank members => rule (.object blank members) && everywhereMembers rule members

def everywhereItems (rule : Tree -> Bool) : List (Blank × Tree × Blank) -> Bool
  | [] => true
  | (_, item, _) :: rest => everywhere rule item && everywhereItems rule rest

def everywhereMembers (rule : Tree -> Bool) :
    List (Blank × List Piece × Blank × Blank × Tree × Blank) -> Bool
  | [] => true
  | (_, _, _, _, value, _) :: rest => everywhere rule value && everywhereMembers rule rest

end

def blanksEmpty : Tree -> Bool
  | .array blank items =>
      blank.isEmpty && items.all (fun item => item.1.isEmpty && item.2.2.isEmpty)
  | .object blank members =>
      blank.isEmpty && members.all (fun member =>
        member.1.isEmpty && member.2.2.1.isEmpty && member.2.2.2.1.isEmpty &&
          member.2.2.2.2.2.isEmpty)
  | _ => true

def namesOf (members : List (Blank × List Piece × Blank × Blank × Tree × Blank)) :
    List Points :=
  members.map (fun member => textOf member.2.1)

def namesSorted : Tree -> Bool
  | .object _ members =>
      decide ((namesOf members).Pairwise (fun a b => codes a < codes b))
  | _ => true

def Piece.value : Piece -> CodePoint
  | .plain p => p
  | .short c => .char ((shortEscape? c).getD c)
  | .unicode a b c d => CodePoint.ofCode (codeUnit a b c d)

def Piece.isNeeded (piece : Piece) : Bool :=
  decide (pieceOf piece.value = piece)

def escapesNeeded : Tree -> Bool
  | .string pieces => pieces.all Piece.isNeeded
  | .object _ members => members.all (fun member => member.2.1.all Piece.isNeeded)
  | _ => true

def Value.literal? : Value -> Option (List Char)
  | .int n => some (toString n).toList
  | .float _ digits => some digits.toList
  | _ => none

def numbersPrinted (floats : Floats) : Tree -> Bool
  | .number literal =>
      decide ((numberValue floats literal).bind Value.literal? = some literal)
  | _ => true

def canonicalHere (floats : Floats) (tree : Tree) : Bool :=
  blanksEmpty tree && namesSorted tree && escapesNeeded tree && numbersPrinted floats tree

/-!
## Escapes
-/

theorem lowerHexDigit_value {n : Nat} (h : n < 16) : hexDigit? (lowerHexDigit n) = some n := by
  have hall : forall m : Fin 16, hexDigit? (lowerHexDigit m.val) = some m.val := by decide
  exact hall ⟨n, h⟩

theorem value_pieceOf (p : CodePoint) : (pieceOf p).value = p := by
  cases p with
  | surrogate n => rfl
  | char c =>
      unfold pieceOf
      dsimp only
      split_ifs with hplain hquote hbackslash hn hr ht hf hb hcontrol
      · rfl
      · rw [hquote]
        rfl
      · rw [hbackslash]
        rfl
      · rw [hn]
        rfl
      · rw [hr]
        rfl
      · rw [ht]
        rfl
      · rw [hf]
        rfl
      · rw [hb]
        rfl
      · have hzero : hexDigit? '0' = some 0 := by decide
        have hhigh := lowerHexDigit_value (show c.toNat / 16 < 16 by omega)
        have hlow := lowerHexDigit_value (Nat.mod_lt c.toNat (show 0 < 16 by omega))
        have hunit : codeUnit '0' '0' (lowerHexDigit (c.toNat / 16))
            (lowerHexDigit (c.toNat % 16)) = (CodePoint.char c).code := by
          unfold codeUnit
          rw [hzero, hhigh, hlow]
          show 4096 * 0 + 256 * 0 + 16 * (c.toNat / 16) + c.toNat % 16 = c.toNat
          omega
        unfold Piece.value
        dsimp only
        rw [hunit, CodePoint.ofCode_code]
      · rfl

theorem isNeeded_pieceOf (p : CodePoint) : (pieceOf p).isNeeded = true := by
  unfold Piece.isNeeded
  rw [value_pieceOf, decide_eq_true rfl]

theorem hexDigit?_lt {c : Char} {n : Nat} (h : hexDigit? c = some n) : n < 16 := by
  unfold hexDigit? at h
  split_ifs at h with hdigit hlower hupper
  · have hle : c.toNat ≤ 57 := hdigit.2
    cases h
    omega
  · have hle : c.toNat ≤ 102 := hlower.2
    cases h
    omega
  · have hle : c.toNat ≤ 70 := hupper.2
    cases h
    omega

theorem hexDigit?_getD_lt (c : Char) : (hexDigit? c).getD 0 < 16 := by
  cases h : hexDigit? c with
  | none => exact Nat.zero_lt_succ _
  | some n => exact hexDigit?_lt h

theorem codeUnit_lt (a b c d : Char) : codeUnit a b c d < 0x10000 := by
  have ha := hexDigit?_getD_lt a
  have hb := hexDigit?_getD_lt b
  have hc := hexDigit?_getD_lt c
  have hd := hexDigit?_getD_lt d
  unfold codeUnit
  omega

theorem code_of_pieceOf {p : CodePoint} {a b c d : Char} (h : pieceOf p = .unicode a b c d) :
    p.code < 32 := by
  cases p with
  | surrogate n => cases h
  | char character =>
      unfold pieceOf at h
      dsimp only at h
      split_ifs at h with hplain hquote hbackslash hn hr ht hf hb hcontrol
      exact hcontrol

theorem codeUnit_of_isNeeded {a b c d : Char} (h : (Piece.unicode a b c d).isNeeded = true) :
    codeUnit a b c d < 32 := by
  have hpiece := code_of_pieceOf (of_decide_eq_true h)
  have hunit := codeUnit_lt a b c d
  unfold Piece.value at hpiece
  rwa [CodePoint.code_ofCode (by omega)] at hpiece

theorem textOf_of_isNeeded {pieces : List Piece} (h : pieces.all Piece.isNeeded = true) :
    textOf pieces = pieces.map Piece.value := by
  fun_induction textOf pieces with
  | case1 => rfl
  | case2 p rest ih =>
      rw [List.all_cons, Bool.and_eq_true] at h
      rw [ih h.2]
      rfl
  | case3 c rest ih =>
      rw [List.all_cons, Bool.and_eq_true] at h
      rw [ih h.2]
      rfl
  | case4 a b c d e f g h' rest hpair ih =>
      rw [List.all_cons, Bool.and_eq_true] at h
      have hcode := codeUnit_of_isNeeded h.1
      rw [isHigh, Bool.and_eq_true, Bool.and_eq_true, decide_eq_true_eq] at hpair
      omega
  | case5 a b c d e f g h' rest hpair ih =>
      rw [List.all_cons, Bool.and_eq_true] at h
      rw [ih h.2]
      rfl
  | case6 a b c d rest hrest ih =>
      rw [List.all_cons, Bool.and_eq_true] at h
      rw [ih h.2]
      rfl

theorem all_isNeeded_pieceOf (text : Points) :
    (text.map pieceOf).all Piece.isNeeded = true := by
  rw [List.all_map, List.all_eq_true]
  intro p hp
  exact isNeeded_pieceOf p

theorem textOf_map_pieceOf (text : Points) : textOf (text.map pieceOf) = text := by
  rw [textOf_of_isNeeded (all_isNeeded_pieceOf text), List.map_map]
  have hsame : Piece.value ∘ pieceOf = id := funext value_pieceOf
  rw [hsame, List.map_id]

theorem map_pieceOf_textOf_iff (pieces : List Piece) :
    (textOf pieces).map pieceOf = pieces <-> pieces.all Piece.isNeeded = true := by
  constructor
  · intro h
    rw [← h]
    exact all_isNeeded_pieceOf _
  · intro h
    rw [textOf_of_isNeeded h, List.map_map, List.map_congr_left, List.map_id]
    intro piece hpiece
    exact of_decide_eq_true (List.all_eq_true.mp h piece hpiece)

end Ump.Codec
