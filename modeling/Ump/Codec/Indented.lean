import Ump.Codec.Printing

/-!
# Indented texts

## Layout

`json.dumps` with an indentation puts each item and each member on a line of its own. With
its other defaults it writes characters beyond ASCII as escapes, a character beyond the basic
plane as two of them.
-/

namespace Ump.Codec

variable {floats : Floats}

def lineAt (depth : Nat) : Blank :=
  '\n' :: List.replicate (2 * depth) ' '

mutual

/-- The layout of `indent=2`, which leaves empty arrays and objects on one line. -/
def Tree.indented (depth : Nat) : Tree -> Tree
  | .word w => .word w
  | .number literal => .number literal
  | .string pieces => .string pieces
  | .array _ items => .array [] (indentedItems depth items)
  | .object _ members => .object [] (indentedMembers depth members)

def indentedItems (depth : Nat) : List (Blank × Tree × Blank) -> List (Blank × Tree × Blank)
  | [] => []
  | (_, item, _) :: rest =>
      (lineAt (depth + 1), item.indented (depth + 1), if rest.isEmpty then lineAt depth else []) ::
        indentedItems depth rest

def indentedMembers (depth : Nat) :
    List (Blank × List Piece × Blank × Blank × Tree × Blank) ->
      List (Blank × List Piece × Blank × Blank × Tree × Blank)
  | [] => []
  | (_, name, _, _, value, _) :: rest =>
      (lineAt (depth + 1), name, [], [' '], value.indented (depth + 1),
        if rest.isEmpty then lineAt depth else []) :: indentedMembers depth rest

end

mutual

theorem value_indented : forall (tree : Tree) (depth : Nat),
    (tree.indented depth).value floats = tree.value floats
  | .word _, _ => rfl
  | .number _, _ => rfl
  | .string _, _ => rfl
  | .array _ items, depth => by
      rw [Tree.indented, Tree.value, Tree.value, itemValues_indented items depth]
  | .object _ members, depth => by
      rw [Tree.indented, Tree.value, Tree.value, memberValues_indented members depth]

theorem itemValues_indented : forall (items : List Item) (depth : Nat),
    itemValues floats (indentedItems depth items) = itemValues floats items
  | [], _ => rfl
  | (_, item, _) :: rest, depth => by
      rw [indentedItems, itemValues, itemValues, value_indented item (depth + 1),
        itemValues_indented rest depth]

theorem memberValues_indented : forall (members : List Member) (depth : Nat),
    memberValues floats (indentedMembers depth members) = memberValues floats members
  | [], _ => rfl
  | (_, _, _, _, value, _) :: rest, depth => by
      rw [indentedMembers, memberValues, memberValues, value_indented value (depth + 1),
        memberValues_indented rest depth]

end

theorem isBlank_lineAt (depth : Nat) : isBlank (lineAt depth) = true := by
  apply List.all_eq_true.mpr
  intro c hc
  rcases List.mem_cons.mp hc with rfl | hspace
  · rfl
  · rw [List.eq_of_mem_replicate hspace]
    rfl

theorem isBlank_lineEnd (depth : Nat) (last : Bool) :
    isBlank (if last then lineAt depth else []) = true := by
  cases last
  · rfl
  · exact isBlank_lineAt depth

mutual

theorem wellFormed_indented : forall (tree : Tree) (depth : Nat),
    everywhere wellFormedHere tree = true ->
      everywhere wellFormedHere (tree.indented depth) = true
  | .word _, _, h => h
  | .number _, _, h => h
  | .string _, _, h => h
  | .array _ items, depth, h =>
      wellFormed_array.mpr
        ⟨rfl, Or.inr rfl, wellFormed_indentedItems items depth (wellFormed_array.mp h).2.2⟩
  | .object _ members, depth, h =>
      wellFormed_object.mpr
        ⟨rfl, Or.inr rfl, wellFormed_indentedMembers members depth (wellFormed_object.mp h).2.2⟩

theorem wellFormed_indentedItems : forall (items : List Item) (depth : Nat),
    items.all wellFormedItem = true -> (indentedItems depth items).all wellFormedItem = true
  | [], _, _ => rfl
  | (_, item, _) :: rest, depth, h => by
      rw [List.all_cons, Bool.and_eq_true] at h
      rw [indentedItems, List.all_cons, Bool.and_eq_true]
      exact ⟨wellFormedItem_iff.mpr ⟨isBlank_lineAt _, isBlank_lineEnd depth rest.isEmpty,
        wellFormed_indented item (depth + 1) (wellFormedItem_iff.mp h.1).2.2⟩,
        wellFormed_indentedItems rest depth h.2⟩

theorem wellFormed_indentedMembers : forall (members : List Member) (depth : Nat),
    members.all wellFormedMember = true ->
      (indentedMembers depth members).all wellFormedMember = true
  | [], _, _ => rfl
  | (_, _, _, _, value, _) :: rest, depth, h => by
      rw [List.all_cons, Bool.and_eq_true] at h
      rw [indentedMembers, List.all_cons, Bool.and_eq_true]
      rcases wellFormedMember_iff.mp h.1 with ⟨_, hname, _, _, _, hvalue⟩
      exact ⟨wellFormedMember_iff.mpr ⟨isBlank_lineAt _, hname, rfl, rfl,
        isBlank_lineEnd depth rest.isEmpty, wellFormed_indented value (depth + 1) hvalue⟩,
        wellFormed_indentedMembers rest depth h.2⟩

end

/-!
## ASCII
-/

/-- `\uXXXX`. -/
def unicodePiece (n : Nat) : Piece :=
  .unicode (lowerHexDigit (n / 4096)) (lowerHexDigit (n / 256 % 16))
    (lowerHexDigit (n / 16 % 16)) (lowerHexDigit (n % 16))

def asciiOf (p : CodePoint) : List Piece :=
  if p.code < 127 then [.plain p]
  else if p.code < 0x10000 then [unicodePiece p.code]
  else
    [unicodePiece (0xD800 + (p.code - 0x10000) / 1024),
      unicodePiece (0xDC00 + (p.code - 0x10000) % 1024)]

/-- `ensure_ascii=True`. -/
def Piece.ascii : Piece -> List Piece
  | .plain p => asciiOf p
  | piece => [piece]

mutual

def Tree.ascii : Tree -> Tree
  | .word w => .word w
  | .number literal => .number literal
  | .string pieces => .string (pieces.flatMap Piece.ascii)
  | .array blank items => .array blank (asciiItems items)
  | .object blank members => .object blank (asciiMembers members)

def asciiItems : List (Blank × Tree × Blank) -> List (Blank × Tree × Blank)
  | [] => []
  | (before, item, after) :: rest => (before, item.ascii, after) :: asciiItems rest

def asciiMembers : List (Blank × List Piece × Blank × Blank × Tree × Blank) ->
    List (Blank × List Piece × Blank × Blank × Tree × Blank)
  | [] => []
  | (before, name, left, right, value, after) :: rest =>
      (before, name.flatMap Piece.ascii, left, right, value.ascii, after) :: asciiMembers rest

end

theorem codeUnit_unicodePiece {n : Nat} (h : n < 0x10000) :
    codeUnit (lowerHexDigit (n / 4096)) (lowerHexDigit (n / 256 % 16))
      (lowerHexDigit (n / 16 % 16)) (lowerHexDigit (n % 16)) = n := by
  unfold codeUnit
  rw [lowerHexDigit_value (by omega), lowerHexDigit_value (by omega),
    lowerHexDigit_value (by omega), lowerHexDigit_value (by omega)]
  show 4096 * (n / 4096) + 256 * (n / 256 % 16) + 16 * (n / 16 % 16) + n % 16 = n
  omega

theorem wellFormed_unicodePiece {n : Nat} (h : n < 0x10000) :
    (unicodePiece n).wellFormed = true := by
  have hhigh := lowerHexDigit_isHexDigit (show n / 4096 < 16 by omega)
  have hsecond := lowerHexDigit_isHexDigit (show n / 256 % 16 < 16 by omega)
  have hthird := lowerHexDigit_isHexDigit (show n / 16 % 16 < 16 by omega)
  have hlow := lowerHexDigit_isHexDigit (show n % 16 < 16 by omega)
  simp [unicodePiece, Piece.wellFormed, hhigh, hsecond, hthird, hlow]

theorem all_wellFormed_ascii {pieces : List Piece} (h : pieces.all Piece.wellFormed = true) :
    (pieces.flatMap Piece.ascii).all Piece.wellFormed = true := by
  rw [List.all_flatMap]
  apply List.all_eq_true.mpr
  intro piece hpiece
  have hwell := List.all_eq_true.mp h piece hpiece
  cases piece with
  | plain p =>
      have hcode := p.code_lt
      show (asciiOf p).all Piece.wellFormed = true
      unfold asciiOf
      split
      · rw [List.all_cons, hwell]
        rfl
      · split
        · rw [List.all_cons, wellFormed_unicodePiece (by assumption)]
          rfl
        · rw [List.all_cons, List.all_cons, wellFormed_unicodePiece (by omega),
            wellFormed_unicodePiece (by omega)]
          rfl
  | short c =>
      show [Piece.short c].all Piece.wellFormed = true
      rw [List.all_cons, hwell]
      rfl
  | unicode a b c d =>
      show [Piece.unicode a b c d].all Piece.wellFormed = true
      rw [List.all_cons, hwell]
      rfl

mutual

theorem wellFormed_ascii : forall tree : Tree,
    everywhere wellFormedHere tree = true -> everywhere wellFormedHere tree.ascii = true
  | .word _, h => h
  | .number _, h => h
  | .string _, h => all_wellFormed_ascii h
  | .array blank items, h => by
      rcases wellFormed_array.mp h with ⟨hblank, hempty, hitems⟩
      refine wellFormed_array.mpr ⟨hblank, ?_, wellFormed_asciiItems items hitems⟩
      exact hempty.imp (fun hnil => by rw [hnil]; rfl) id
  | .object blank members, h => by
      rcases wellFormed_object.mp h with ⟨hblank, hempty, hmembers⟩
      refine wellFormed_object.mpr ⟨hblank, ?_, wellFormed_asciiMembers members hmembers⟩
      exact hempty.imp (fun hnil => by rw [hnil]; rfl) id

theorem wellFormed_asciiItems : forall items : List Item,
    items.all wellFormedItem = true -> (asciiItems items).all wellFormedItem = true
  | [], _ => rfl
  | (_, item, _) :: rest, h => by
      rw [List.all_cons, Bool.and_eq_true] at h
      rw [asciiItems, List.all_cons, Bool.and_eq_true]
      rcases wellFormedItem_iff.mp h.1 with ⟨hbefore, hafter, hitem⟩
      exact ⟨wellFormedItem_iff.mpr ⟨hbefore, hafter, wellFormed_ascii item hitem⟩,
        wellFormed_asciiItems rest h.2⟩

theorem wellFormed_asciiMembers : forall members : List Member,
    members.all wellFormedMember = true -> (asciiMembers members).all wellFormedMember = true
  | [], _ => rfl
  | (_, _, _, _, value, _) :: rest, h => by
      rw [List.all_cons, Bool.and_eq_true] at h
      rw [asciiMembers, List.all_cons, Bool.and_eq_true]
      rcases wellFormedMember_iff.mp h.1 with ⟨hbefore, hname, hleft, hright, hafter, hvalue⟩
      exact ⟨wellFormedMember_iff.mpr ⟨hbefore, all_wellFormed_ascii hname, hleft, hright, hafter,
        wellFormed_ascii value hvalue⟩, wellFormed_asciiMembers rest h.2⟩

end

/-!
### What the escapes stand for

A pair of escapes stands for one character again when the scanner has read it.
-/

theorem textOf_cons {piece : Piece} (rest : List Piece)
    (h : forall a b c d, piece = .unicode a b c d -> isHigh (codeUnit a b c d) = false) :
    textOf (piece :: rest) = piece.value :: textOf rest := by
  cases piece with
  | plain p => rfl
  | short c => rfl
  | unicode a b c d =>
      have hhigh := h a b c d rfl
      cases rest with
      | nil => rfl
      | cons next others =>
          cases next with
          | plain p => rfl
          | short c => rfl
          | unicode e f g k =>
              rw [textOf, hhigh]
              rfl

theorem code_of_char (c : Char) :
    (CodePoint.char c).code < 0xD800 ∨ 0xE000 ≤ (CodePoint.char c).code := by
  have hvalid := c.valid
  simp only [UInt32.isValidChar, Nat.isValidChar] at hvalid
  show c.val.toNat < _ ∨ _ ≤ c.val.toNat
  omega

theorem textOf_unicodePiece {c : Char} (h : (CodePoint.char c).code < 0x10000)
    (rest : List Piece) :
    textOf (unicodePiece (CodePoint.char c).code :: rest) = .char c :: textOf rest := by
  have hunit := codeUnit_unicodePiece h
  have hcode := code_of_char c
  unfold unicodePiece
  rw [textOf_cons]
  · rw [Piece.value, hunit, CodePoint.ofCode_code]
  · intro a b d e hsame
    cases hsame
    rw [hunit, isHigh, Bool.and_eq_false_iff, decide_eq_false_iff_not, decide_eq_false_iff_not]
    omega

theorem textOf_pair {c : Char} (h : 0x10000 ≤ (CodePoint.char c).code) (rest : List Piece) :
    textOf (unicodePiece (0xD800 + ((CodePoint.char c).code - 0x10000) / 1024) ::
      unicodePiece (0xDC00 + ((CodePoint.char c).code - 0x10000) % 1024) :: rest) =
        .char c :: textOf rest := by
  have hcode := (CodePoint.char c).code_lt
  have hhigh := @codeUnit_unicodePiece (0xD800 + ((CodePoint.char c).code - 0x10000) / 1024)
    (by omega)
  have hlow := @codeUnit_unicodePiece (0xDC00 + ((CodePoint.char c).code - 0x10000) % 1024)
    (by omega)
  have hpair : (isHigh (0xD800 + ((CodePoint.char c).code - 0x10000) / 1024) &&
      isLow (0xDC00 + ((CodePoint.char c).code - 0x10000) % 1024)) = true := by
    rw [isHigh, isLow, Bool.and_eq_true, Bool.and_eq_true, Bool.and_eq_true, decide_eq_true_eq,
      decide_eq_true_eq, decide_eq_true_eq, decide_eq_true_eq]
    omega
  have hjoin : joinSurrogates (0xD800 + ((CodePoint.char c).code - 0x10000) / 1024)
      (0xDC00 + ((CodePoint.char c).code - 0x10000) % 1024) = (CodePoint.char c).code := by
    unfold joinSurrogates
    omega
  unfold unicodePiece
  rw [textOf, hhigh, hlow, hpair, hjoin, CodePoint.ofCode_code]
  rfl

theorem textOf_ascii_pieceOf (c : Char) (rest : List Piece) :
    textOf ((pieceOf (.char c)).ascii ++ rest) = .char c :: textOf rest := by
  have hvalue := value_pieceOf (.char c)
  cases hpiece : pieceOf (.char c) with
  | plain p =>
      rw [hpiece] at hvalue
      cases hvalue
      show textOf (asciiOf (.char c) ++ rest) = _
      unfold asciiOf
      split
      · rfl
      · split
        · exact textOf_unicodePiece (by assumption) rest
        · exact textOf_pair (by omega) rest
  | short d =>
      rw [hpiece] at hvalue
      show textOf (.short d :: rest) = _
      rw [textOf_cons rest (fun _ _ _ _ h => by cases h), hvalue]
  | unicode a b d e =>
      rw [hpiece] at hvalue
      have hcode := code_of_pieceOf hpiece
      have hunit := codeUnit_lt a b d e
      show textOf (.unicode a b d e :: rest) = _
      rw [textOf_cons rest, hvalue]
      intro a' b' d' e' hsame
      cases hsame
      rw [← hvalue, Piece.value, CodePoint.code_ofCode (by omega)] at hcode
      rw [isHigh, Bool.and_eq_false_iff, decide_eq_false_iff_not, decide_eq_false_iff_not]
      omega

theorem textOf_ascii (text : List Char) :
    textOf (((ofText text).map pieceOf).flatMap Piece.ascii) = ofText text := by
  induction text with
  | nil => rfl
  | cons c rest ih =>
      have hrest : ((ofText (c :: rest)).map pieceOf).flatMap Piece.ascii =
          (pieceOf (.char c)).ascii ++ ((ofText rest).map pieceOf).flatMap Piece.ascii := rfl
      rw [hrest, textOf_ascii_pieceOf, ih]
      rfl

def asciiHere : Tree -> Bool
  | .string pieces => decide (textOf (pieces.flatMap Piece.ascii) = textOf pieces)
  | .object _ members =>
      members.all (fun member =>
        decide (textOf (member.2.1.flatMap Piece.ascii) = textOf member.2.1))
  | _ => true

mutual

theorem value_ascii : forall tree : Tree, everywhere asciiHere tree = true ->
    tree.ascii.value floats = tree.value floats
  | .word _, _ => rfl
  | .number _, _ => rfl
  | .string pieces, h => by
      rw [Tree.ascii, Tree.value, Tree.value, of_decide_eq_true h]
  | .array blank items, h => by
      rw [everywhere, Bool.and_eq_true] at h
      rw [Tree.ascii, Tree.value, Tree.value, itemValues_ascii items h.2]
  | .object blank members, h => by
      rw [everywhere, Bool.and_eq_true] at h
      rw [Tree.ascii, Tree.value, Tree.value, memberValues_ascii members h.1 h.2]

theorem itemValues_ascii : forall items : List Item, everywhereItems asciiHere items = true ->
    itemValues floats (asciiItems items) = itemValues floats items
  | [], _ => rfl
  | (_, item, _) :: rest, h => by
      rw [everywhereItems, Bool.and_eq_true] at h
      rw [asciiItems, itemValues, itemValues, value_ascii item h.1, itemValues_ascii rest h.2]

theorem memberValues_ascii : forall members : List Member,
    members.all (fun member =>
        decide (textOf (member.2.1.flatMap Piece.ascii) = textOf member.2.1)) = true ->
      everywhereMembers asciiHere members = true ->
        memberValues floats (asciiMembers members) = memberValues floats members
  | [], _, _ => rfl
  | (_, _, _, _, value, _) :: rest, hnames, h => by
      rw [List.all_cons, Bool.and_eq_true] at hnames
      rw [everywhereMembers, Bool.and_eq_true] at h
      rw [asciiMembers, memberValues, memberValues, of_decide_eq_true hnames.1,
        value_ascii value h.1, memberValues_ascii rest hnames.2 h.2]

end

/-!
## Writing and reading
-/

mutual

def Value.Textual : Value -> Prop
  | .str s => exists text, s = ofText text
  | .arr items => TextualItems items
  | .obj fields => TextualFields fields
  | _ => True

def TextualItems : List Value -> Prop
  | [] => True
  | item :: rest => item.Textual ∧ TextualItems rest

def TextualFields : List (Points × Value) -> Prop
  | [] => True
  | (name, value) :: rest => (exists text, name = ofText text) ∧ value.Textual ∧ TextualFields rest

end

theorem textualItems_iff {items : List Value} :
    TextualItems items <-> forall item, item ∈ items -> item.Textual := by
  induction items with
  | nil => simp [TextualItems]
  | cons head rest ih => rw [TextualItems, ih, List.forall_mem_cons]

theorem textualFields_iff {fields : List (Points × Value)} :
    TextualFields fields <-> forall field, field ∈ fields ->
      (exists text, field.1 = ofText text) ∧ field.2.Textual := by
  induction fields with
  | nil => simp [TextualFields]
  | cons head rest ih =>
      rcases head with ⟨name, value⟩
      rw [TextualFields, ih, List.forall_mem_cons, and_assoc]

theorem asciiText {s : Points} (h : exists text, s = ofText text) :
    textOf ((s.map pieceOf).flatMap Piece.ascii) = textOf (s.map pieceOf) := by
  rcases h with ⟨text, rfl⟩
  rw [textOf_ascii, textOf_map_pieceOf]

theorem ascii_tree {v : Value} (h : v.Textual) : everywhere asciiHere v.tree = true := by
  induction v using Value.rule with
  | null => rfl
  | bool b => cases b <;> rfl
  | int n => rfl
  | float value digits => rfl
  | constant c => rfl
  | str s => exact decide_eq_true (asciiText h)
  | arr items ih =>
      have hitems := textualItems_iff.mp h
      rw [tree_arr]
      refine everywhere_array.mpr ⟨rfl, ?_⟩
      intro item hitem
      rcases mem_itemTrees.mp hitem with ⟨value, hvalue, rfl⟩
      exact ih value hvalue (hitems value hvalue)
  | obj fields ih =>
      have hfields := textualFields_iff.mp h
      rw [tree_of_fields]
      refine everywhere_object.mpr ⟨List.all_eq_true.mpr ?_, ?_⟩
      · intro member hmember
        rcases mem_fieldMembers.mp hmember with ⟨field, hfield, rfl⟩
        exact decide_eq_true (asciiText (hfields field hfield).1)
      · intro member hmember
        rcases mem_fieldMembers.mp hmember with ⟨field, hfield, rfl⟩
        exact ih field hfield (hfields field hfield).2

/-- `json.dumps(value, indent=2, sort_keys=True)` and a line end, unless an integer has too many
digits. -/
def indentedText (v : Value) : Option Points :=
  if everywhere intFits v.tree then
    some ((v.tree.ascii.indented 0).print ++ ofText ['\n'])
  else none

theorem readText_print_blank {tree : Tree} {blank : Blank}
    (h : everywhere wellFormedHere tree = true) (hblank : isBlank blank = true) :
    readText (tree.print ++ ofText blank) = some ([], tree, blank) := by
  have hskip : skipBlank (tree.print ++ ofText blank) = ([], tree.print ++ ofText blank) := by
    have hnone := @skipBlank_append [] _ rfl (stops_print h (ofText blank))
    exact hnone
  have hstop : Stops isNumberChar (ofText blank) := by
    intro c rest hc
    cases blank with
    | nil => cases hc
    | cons first others =>
        cases hc
        have hfirst := List.all_eq_true.mp hblank _ List.mem_cons_self
        unfold isBlankChar at hfirst
        simp only [Bool.or_eq_true, beq_iff_eq] at hfirst
        rcases hfirst with ((rfl | rfl) | rfl) | rfl <;> decide
  have hafter : skipBlank (ofText blank) = (blank, []) := by
    have hall := @skipBlank_append blank [] hblank (stops_nil _)
    rwa [List.append_nil] at hall
  have hlength : tree.print.length ≤ (tree.print ++ ofText blank).length := by
    rw [List.length_append]
    exact Nat.le_add_right _ _
  have hread := (finds (tree.print ++ ofText blank).length).tree h hstop hlength
  unfold readText
  dsimp only
  rw [hskip]
  dsimp only
  rw [hread]
  dsimp only [Option.bind_eq_bind, Option.bind_some]
  rw [hafter]
  rfl

theorem valueOf_indentedText {library : FloatLibrary} {v : Value} {text : Points}
    (hproper : v.Proper library) (htextual : v.Textual) (h : indentedText v = some text) :
    valueOf library.read text = some v.sorted := by
  unfold indentedText at h
  split at h
  · next hfits =>
      cases h
      have hwell := wellFormed_indented _ 0 (wellFormed_ascii _ (wellFormed_tree hproper))
      unfold valueOf
      rw [readText_print_blank hwell (by decide), Option.bind_some]
      dsimp only
      rw [value_indented, value_ascii _ (ascii_tree htextual), value_tree hproper hfits]
  · cases h

end Ump.Codec
