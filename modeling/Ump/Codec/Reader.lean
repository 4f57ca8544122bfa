import Ump.Codec.Canonical

/-!
# Reading JSON texts

## Tokens

The scanner of `json.loads`. It takes a number as far as a number goes; here a number ends at
the first character that no number has. Where the two differ, what is left behind the number
is no separator, and the text is refused either way.
-/

namespace Ump.Codec

/-- The characters up to the first one that does not meet the condition, and the rest. -/
def spanChars (condition : Char -> Bool) : Points -> List Char × Points
  | [] => ([], [])
  | .surrogate n :: rest => ([], .surrogate n :: rest)
  | .char c :: rest =>
      if condition c then
        (c :: (spanChars condition rest).1, (spanChars condition rest).2)
      else
        ([], .char c :: rest)

def isBlankChar (c : Char) : Bool :=
  c == ' ' || c == '\t' || c == '\n' || c == '\r'

def isDigitChar (c : Char) : Bool :=
  decide ('0' ≤ c) && decide (c ≤ '9')

def isNumberChar (c : Char) : Bool :=
  isDigitChar c || c == '-' || c == '+' || c == '.' || c == 'e' || c == 'E'

def isDigits (literal : List Char) : Bool :=
  !literal.isEmpty && literal.all isDigitChar

/-- `0|[1-9][0-9]*`. -/
def isWhole (literal : List Char) : Bool :=
  isDigits literal && (literal.head? != some '0' || literal == ['0'])

/-- `([eE][-+]?[0-9]+)?`. -/
def isExponent : List Char -> Bool
  | [] => true
  | e :: '-' :: digits => (e == 'e' || e == 'E') && isDigits digits
  | e :: '+' :: digits => (e == 'e' || e == 'E') && isDigits digits
  | e :: digits => (e == 'e' || e == 'E') && isDigits digits

/-- `(\.[0-9]+)?` and the exponent. -/
def isFraction : List Char -> Bool
  | '.' :: rest =>
      isDigits (rest.takeWhile isDigitChar) && isExponent (rest.dropWhile isDigitChar)
  | rest => isExponent rest

def isNumberLiteral (literal : List Char) : Bool :=
  isWhole ((withoutSign literal).takeWhile isDigitChar) &&
    isFraction ((withoutSign literal).dropWhile isDigitChar)

def after? : Points -> Points -> Option Points
  | [], rest => some rest
  | _ :: _, [] => none
  | p :: text, q :: rest => if p = q then after? text rest else none

def readWord (text : Points) : Option (Word × Points) :=
  Word.all.findSome? (fun word => (after? (ofText word.text) text).map (fun rest => (word, rest)))

def readScalar (text : Points) : Option (Tree × Points) :=
  match readWord text with
  | some (word, rest) => some (.word word, rest)
  | none =>
      let token := spanChars isNumberChar text
      if isNumberLiteral token.1 then some (.number token.1, token.2) else none

def isHexDigit (c : Char) : Bool :=
  (hexDigit? c).isSome

/-- `scanstring`, from behind the opening quotation mark. -/
def readPieces : Points -> Option (List Piece × Points)
  | [] => none
  | .surrogate n :: rest =>
      (readPieces rest).map (fun read => (.plain (.surrogate n) :: read.1, read.2))
  | .char c :: rest =>
      if c = '"' then some ([], rest)
      else if c = '\\' then
        match rest with
        | .char e :: rest =>
            if e = 'u' then
              match rest with
              | .char a :: .char b :: .char c :: .char d :: rest =>
                  if [a, b, c, d].all isHexDigit then
                    (readPieces rest).map (fun read => (.unicode a b c d :: read.1, read.2))
                  else none
              | _ => none
            else if (shortEscape? e).isSome then
              (readPieces rest).map (fun read => (.short e :: read.1, read.2))
            else none
        | _ => none
      else if c.toNat < 32 then none
      else (readPieces rest).map (fun read => (.plain (.char c) :: read.1, read.2))

def expect (c : Char) : Points -> Option Points
  | p :: rest => if p = .char c then some rest else none
  | [] => none

def readString (text : Points) : Option (List Piece × Points) :=
  (expect '"' text).bind readPieces

def skipBlank (text : Points) : Blank × Points :=
  spanChars isBlankChar text

/-!
## Trees

The fuel bounds the number of nested calls. The length of the text is enough.
-/

mutual

def readTree : Nat -> Points -> Option (Tree × Points)
  | 0, _ => none
  | fuel + 1, text =>
      match readString text with
      | some (pieces, rest) => some (.string pieces, rest)
      | none =>
          match expect '[' text with
          | some rest =>
              let gap := skipBlank rest
              match expect ']' gap.2 with
              | some rest => some (.array gap.1 [], rest)
              | none => (readItems fuel gap.1 gap.2).map (fun read => (.array [] read.1, read.2))
          | none =>
              match expect '\x7b' text with
              | some rest =>
                  let gap := skipBlank rest
                  match expect '\x7d' gap.2 with
                  | some rest => some (.object gap.1 [], rest)
                  | none =>
                      (readMembers fuel gap.1 gap.2).map (fun read => (.object [] read.1, read.2))
              | none => readScalar text

/-- The items of an array and its closing bracket, with the blank before the first item. -/
def readItems : Nat -> Blank -> Points -> Option (List (Blank × Tree × Blank) × Points)
  | 0, _, _ => none
  | fuel + 1, before, text => do
      let (tree, rest) <- readTree fuel text
      let gap := skipBlank rest
      match expect ']' gap.2 with
      | some rest => some ([(before, tree, gap.1)], rest)
      | none => do
          let rest <- expect ',' gap.2
          let next := skipBlank rest
          let (items, rest) <- readItems fuel next.1 next.2
          some ((before, tree, gap.1) :: items, rest)

def readMembers : Nat -> Blank -> Points ->
    Option (List (Blank × List Piece × Blank × Blank × Tree × Blank) × Points)
  | 0, _, _ => none
  | fuel + 1, before, text => do
      let (name, rest) <- readString text
      let left := skipBlank rest
      let rest <- expect ':' left.2
      let right := skipBlank rest
      let (tree, rest) <- readTree fuel right.2
      let gap := skipBlank rest
      match expect '\x7d' gap.2 with
      | some rest => some ([(before, name, left.1, right.1, tree, gap.1)], rest)
      | none => do
          let rest <- expect ',' gap.2
          let next := skipBlank rest
          let (members, rest) <- readMembers fuel next.1 next.2
          some ((before, name, left.1, right.1, tree, gap.1) :: members, rest)

end

def readText (text : Points) : Option (Blank × Tree × Blank) := do
  let before := skipBlank text
  let (tree, rest) <- readTree text.length before.2
  let after := skipBlank rest
  if after.2.isEmpty then some (before.1, tree, after.1) else none

def valueOf (floats : Floats) (text : Points) : Option Value :=
  (readText text).bind (fun read => read.2.1.value floats)

/-!
## What the tokens take
-/

/-- The text does not go on with a character that meets the condition. -/
def Stops (condition : Char -> Bool) (text : Points) : Prop :=
  forall c rest, text = .char c :: rest -> condition c = false

theorem stops_nil (condition : Char -> Bool) : Stops condition [] := by
  intro c rest h
  cases h

theorem stops_cons {condition : Char -> Bool} {c : Char} (h : condition c = false)
    (rest : Points) : Stops condition (.char c :: rest) := by
  intro d others heq
  cases heq
  exact h

theorem stops_append {condition : Char -> Bool} {chars : List Char} {rest : Points}
    (hchars : forall c, c ∈ chars -> condition c = false) (hrest : Stops condition rest) :
    Stops condition (ofText chars ++ rest) := by
  cases chars with
  | nil => exact hrest
  | cons c others => exact stops_cons (hchars c List.mem_cons_self) _

theorem spanChars_append {condition : Char -> Bool} {chars : List Char} {rest : Points}
    (h : chars.all condition = true) (hstop : Stops condition rest) :
    spanChars condition (ofText chars ++ rest) = (chars, rest) := by
  induction chars with
  | nil =>
      show spanChars condition rest = _
      cases rest with
      | nil => rfl
      | cons p others =>
          cases p with
          | surrogate n => rfl
          | char c => rw [spanChars, if_neg (by rw [hstop c others rfl]; exact Bool.false_ne_true)]
  | cons c others ih =>
      rw [List.all_cons, Bool.and_eq_true] at h
      show spanChars condition (.char c :: (ofText others ++ rest)) = _
      rw [spanChars, if_pos h.1, ih h.2]

theorem spanChars_spec (condition : Char -> Bool) (text : Points) :
    text = ofText (spanChars condition text).1 ++ (spanChars condition text).2 ∧
      (spanChars condition text).1.all condition = true ∧
      Stops condition (spanChars condition text).2 := by
  induction text with
  | nil => exact ⟨rfl, rfl, stops_nil _⟩
  | cons p rest ih =>
      cases p with
      | surrogate n =>
          refine ⟨rfl, rfl, ?_⟩
          intro c others h
          cases h
      | char c =>
          rw [spanChars]
          split_ifs with hc
          · refine ⟨?_, ?_, ih.2.2⟩
            · show _ = CodePoint.char c :: (ofText _ ++ _)
              rw [<- ih.1]
            · rw [List.all_cons, hc, ih.2.1]
              rfl
          · exact ⟨rfl, rfl, stops_cons (Bool.eq_false_iff.mpr hc) rest⟩

theorem after?_eq_some {text whole rest : Points} :
    after? text whole = some rest <-> whole = text ++ rest := by
  induction text generalizing whole with
  | nil =>
      cases whole <;> simp [after?]
  | cons p text ih =>
      cases whole with
      | nil => simp [after?]
      | cons q whole =>
          rw [after?]
          split_ifs with hpq
          · subst hpq
            rw [ih]
            simp
          · constructor
            · intro h
              cases h
            · intro h
              exact absurd (List.cons.inj h).1.symm hpq

theorem text_of_readWord {text rest : Points} {word : Word}
    (h : readWord text = some (word, rest)) : text = ofText word.text ++ rest := by
  unfold readWord at h
  obtain ⟨found, _, hfound⟩ := List.exists_of_findSome?_eq_some h
  obtain ⟨others, hothers, heq⟩ := Option.map_eq_some_iff.mp hfound
  cases heq
  exact after?_eq_some.mp hothers

theorem readWord_text (word : Word) (rest : Points) :
    readWord (ofText word.text ++ rest) = some (word, rest) := by
  cases word <;> rfl

/-!
### Numbers
-/

theorem isNumberChar_of_isDigitChar {c : Char} (h : isDigitChar c = true) :
    isNumberChar c = true := by
  unfold isNumberChar
  rw [h]
  rfl

theorem all_isNumberChar_of_isDigits {digits : List Char} (h : isDigits digits = true) :
    digits.all isNumberChar = true := by
  rw [isDigits, Bool.and_eq_true] at h
  apply List.all_eq_true.mpr
  intro c hc
  exact isNumberChar_of_isDigitChar (List.all_eq_true.mp h.2 c hc)

theorem all_isNumberChar_of_exponent {literal : List Char} (h : isExponent literal = true) :
    literal.all isNumberChar = true := by
  have hletter : forall {e : Char}, (e == 'e' || e == 'E') = true -> isNumberChar e = true := by
    intro e he
    unfold isNumberChar
    rw [Bool.or_eq_true] at he
    rcases he with he | he
    · rw [he, Bool.or_true, Bool.true_or]
    · rw [he, Bool.or_true]
  unfold isExponent at h
  split at h
  · rfl
  · rw [Bool.and_eq_true] at h
    rw [List.all_cons, List.all_cons, hletter h.1, all_isNumberChar_of_isDigits h.2]
    rfl
  · rw [Bool.and_eq_true] at h
    rw [List.all_cons, List.all_cons, hletter h.1, all_isNumberChar_of_isDigits h.2]
    rfl
  · rw [Bool.and_eq_true] at h
    rw [List.all_cons, hletter h.1, all_isNumberChar_of_isDigits h.2]
    rfl

theorem all_isNumberChar_of_fraction {literal : List Char} (h : isFraction literal = true) :
    literal.all isNumberChar = true := by
  unfold isFraction at h
  split at h
  case h_1 rest =>
      rw [Bool.and_eq_true] at h
      rw [List.all_cons, <- @List.takeWhile_append_dropWhile _ isDigitChar rest, List.all_append,
        all_isNumberChar_of_isDigits h.1, all_isNumberChar_of_exponent h.2]
      rfl
  case h_2 => exact all_isNumberChar_of_exponent h

theorem withoutSign_cases (literal : List Char) :
    literal = withoutSign literal ∨ literal = '-' :: withoutSign literal := by
  unfold withoutSign
  split
  · exact Or.inr rfl
  · exact Or.inl rfl

theorem isDigits_of_isNumberLiteral {literal : List Char} (h : isNumberLiteral literal = true) :
    isDigits ((withoutSign literal).takeWhile isDigitChar) = true := by
  rw [isNumberLiteral, isWhole, Bool.and_eq_true, Bool.and_eq_true] at h
  exact h.1.1

theorem all_isNumberChar {literal : List Char} (h : isNumberLiteral literal = true) :
    literal.all isNumberChar = true := by
  have hdigits := isDigits_of_isNumberLiteral h
  rw [isNumberLiteral, Bool.and_eq_true] at h
  have hall : (withoutSign literal).all isNumberChar = true := by
    rw [<- @List.takeWhile_append_dropWhile _ isDigitChar (withoutSign literal), List.all_append,
      all_isNumberChar_of_isDigits hdigits, all_isNumberChar_of_fraction h.2]
    rfl
  rcases withoutSign_cases literal with hsame | hsigned
  · rw [hsame]
    exact hall
  · rw [hsigned, List.all_cons, hall]
    rfl

theorem head_of_isNumberLiteral {literal : List Char} (h : isNumberLiteral literal = true) :
    exists d rest, isDigitChar d = true ∧ (literal = d :: rest ∨ literal = '-' :: d :: rest) := by
  have hdigits := isDigits_of_isNumberLiteral h
  rw [isDigits, Bool.and_eq_true] at hdigits
  obtain ⟨d, rest, hunsigned, hdigit⟩ : exists d rest, withoutSign literal = d :: rest ∧
      isDigitChar d = true := by
    cases hunsigned : withoutSign literal with
    | nil =>
        rw [hunsigned] at hdigits
        cases hdigits.1
    | cons d rest =>
        refine ⟨d, rest, rfl, ?_⟩
        by_contra hnot
        rw [hunsigned, List.takeWhile_cons_of_neg hnot] at hdigits
        cases hdigits.1
  refine ⟨d, rest, hdigit, ?_⟩
  rcases withoutSign_cases literal with hsame | hsigned
  · exact Or.inl (hsame.trans hunsigned)
  · exact Or.inr (hsigned.trans (congrArg _ hunsigned))

theorem readWord_number {literal : List Char} (h : isNumberLiteral literal = true)
    (rest : Points) : readWord (ofText literal ++ rest) = none := by
  obtain ⟨d, others, hdigit, hliteral⟩ := head_of_isNumberLiteral h
  apply Option.eq_none_iff_forall_ne_some.mpr
  rintro ⟨word, left⟩ hread
  have htext := text_of_readWord hread
  -- no constant starts with a digit, and the signed one goes on with a letter
  rcases hliteral with rfl | rfl
  · cases word <;> (cases (List.cons.inj htext).1; cases hdigit)
  · cases word
    case negativeInfinity =>
        cases (List.cons.inj (List.cons.inj htext).2).1
        cases hdigit
    all_goals exact absurd (List.cons.inj htext).1 (by decide)

theorem readScalar_word (word : Word) (rest : Points) :
    readScalar (ofText word.text ++ rest) = some (.word word, rest) := by
  unfold readScalar
  rw [readWord_text]

theorem readScalar_number {literal : List Char} {rest : Points}
    (h : isNumberLiteral literal = true) (hstop : Stops isNumberChar rest) :
    readScalar (ofText literal ++ rest) = some (.number literal, rest) := by
  unfold readScalar
  rw [readWord_number h, spanChars_append (all_isNumberChar h) hstop]
  dsimp only
  rw [if_pos h]

/-!
### Strings
-/

def Piece.wellFormed : Piece -> Bool
  | .plain (.surrogate _) => true
  | .plain (.char c) => decide (c ≠ '"') && decide (c ≠ '\\') && decide (32 ≤ c.toNat)
  | .short c => (shortEscape? c).isSome
  | .unicode a b c d => [a, b, c, d].all isHexDigit

theorem readPieces_cons {piece : Piece} (h : piece.wellFormed = true) (text : Points) :
    readPieces (piece.print ++ text) =
      (readPieces text).map (fun read => (piece :: read.1, read.2)) := by
  cases piece with
  | plain p =>
      cases p with
      | surrogate n => rfl
      | char c =>
          rw [Piece.wellFormed, Bool.and_eq_true, Bool.and_eq_true, decide_eq_true_eq,
            decide_eq_true_eq, decide_eq_true_eq] at h
          show readPieces (.char c :: text) = _
          rw [readPieces.eq_def]
          dsimp only
          rw [if_neg h.1.1, if_neg h.1.2, if_neg (Nat.not_lt.mpr h.2)]
  | short e =>
      have hu : e ≠ 'u' := by
        rintro rfl
        cases h
      show readPieces (.char '\\' :: .char e :: text) = _
      rw [readPieces.eq_def]
      dsimp only
      rw [if_neg (by decide), if_pos rfl, if_neg hu]
      exact if_pos h
  | unicode a b c d =>
      show readPieces (ofText ['\\', 'u', a, b, c, d] ++ text) = _
      rw [readPieces.eq_def]
      exact if_pos h

theorem readPieces_print {pieces : List Piece} (h : pieces.all Piece.wellFormed = true)
    (rest : Points) :
    readPieces (pieces.flatMap Piece.print ++ .char '"' :: rest) = some (pieces, rest) := by
  induction pieces with
  | nil =>
      show readPieces (.char '"' :: rest) = _
      rw [readPieces.eq_def]
      rfl
  | cons piece others ih =>
      rw [List.all_cons, Bool.and_eq_true] at h
      rw [List.flatMap_cons, List.append_assoc, readPieces_cons h.1, ih h.2]
      rfl

def Closes (text : Points) (pieces : List Piece) (rest : Points) : Prop :=
  text = pieces.flatMap Piece.print ++ .char '"' :: rest ∧ pieces.all Piece.wellFormed = true

theorem Closes.cons {text rest : Points} {pieces : List Piece} {piece : Piece}
    (hpiece : piece.wellFormed = true) (h : Closes text pieces rest) :
    Closes (piece.print ++ text) (piece :: pieces) rest := by
  refine ⟨?_, ?_⟩
  · rw [List.flatMap_cons, List.append_assoc, <- h.1]
  · rw [List.all_cons, hpiece, h.2]
    rfl

theorem closes_of_map {text rest : Points} {pieces : List Piece} {piece : Piece}
    {read? : Option (List Piece × Points)} (hpiece : piece.wellFormed = true)
    (ih : forall {pieces rest}, read? = some (pieces, rest) -> Closes text pieces rest)
    (h : read?.map (fun read => (piece :: read.1, read.2)) = some (pieces, rest)) :
    Closes (piece.print ++ text) pieces rest := by
  obtain ⟨⟨others, left⟩, hothers, heq⟩ := Option.map_eq_some_iff.mp h
  cases heq
  exact (ih hothers).cons hpiece

theorem closes_of_readPieces {text rest : Points} {pieces : List Piece}
    (h : readPieces text = some (pieces, rest)) : Closes text pieces rest := by
  fun_induction readPieces text generalizing pieces rest with
  | case1 => cases h
  | case2 n tail ih => exact closes_of_map rfl ih h
  | case3 tail =>
      cases h
      exact ⟨rfl, rfl⟩
  | case4 a b c d tail hhex hquote ih =>
      have hpiece : (Piece.unicode a b c d).wellFormed = true := hhex
      exact closes_of_map hpiece ih h
  | case7 e tail hu hshort hquote ih =>
      have hpiece : (Piece.short e).wellFormed = true := hshort
      exact closes_of_map hpiece ih h
  | case11 c tail hquote hbackslash hcontrol ih =>
      have hpiece : (Piece.plain (.char c)).wellFormed = true := by
        simp [Piece.wellFormed, hquote, hbackslash, Nat.not_lt.mp hcontrol]
      exact closes_of_map hpiece ih h
  | _ => cases h

theorem expect_eq_some {c : Char} {text rest : Points} :
    expect c text = some rest <-> text = .char c :: rest := by
  cases text with
  | nil => simp [expect]
  | cons p others =>
      rw [expect]
      split_ifs with hp
      · simp [hp]
      · simp [hp]

theorem expect_other {c d : Char} (h : d ≠ c) (rest : Points) :
    expect c (.char d :: rest) = none := by
  rw [expect, if_neg]
  intro heq
  exact h (CodePoint.char.inj heq)

theorem readString_print {pieces : List Piece} (h : pieces.all Piece.wellFormed = true)
    (rest : Points) : readString (printQuoted pieces ++ rest) = some (pieces, rest) := by
  unfold readString printQuoted
  rw [List.cons_append, List.cons_append, List.append_assoc, expect, if_pos rfl]
  exact readPieces_print h rest

theorem text_of_readString {text rest : Points} {pieces : List Piece}
    (h : readString text = some (pieces, rest)) :
    text = printQuoted pieces ++ rest ∧ pieces.all Piece.wellFormed = true := by
  obtain ⟨inside, hquote, hread⟩ := Option.bind_eq_some_iff.mp h
  obtain ⟨htext, hall⟩ := closes_of_readPieces hread
  refine ⟨?_, hall⟩
  rw [expect_eq_some.mp hquote, htext]
  unfold printQuoted
  rw [List.cons_append, List.cons_append, List.append_assoc]
  rfl

theorem readString_other {c : Char} (h : c ≠ '"') (rest : Points) :
    readString (.char c :: rest) = none := by
  unfold readString
  rw [expect_other h]
  rfl

/-!
### Blanks
-/

def isBlank (blank : Blank) : Bool :=
  blank.all isBlankChar

theorem skipBlank_append {blank : Blank} {rest : Points} (h : isBlank blank = true)
    (hstop : Stops isBlankChar rest) : skipBlank (ofText blank ++ rest) = (blank, rest) :=
  spanChars_append h hstop

theorem isNumberChar_of_isBlankChar {c : Char} (h : isBlankChar c = true) :
    isNumberChar c = false := by
  simp only [isBlankChar, Bool.or_eq_true, beq_iff_eq] at h
  rcases h with ((rfl | rfl) | rfl) | rfl <;> decide

theorem stops_blank {blank : Blank} {c : Char} (h : isBlank blank = true)
    (hc : isNumberChar c = false) (rest : Points) :
    Stops isNumberChar (ofText blank ++ .char c :: rest) := by
  apply stops_append _ (stops_cons hc rest)
  intro d hd
  exact isNumberChar_of_isBlankChar (List.all_eq_true.mp h d hd)

end Ump.Codec
