import Mathlib.Data.List.Lex
import Mathlib.Data.List.Sort
import Mathlib.Data.Rat.Defs
import Ump.Codec.CodePoints

/-!
# JSON texts as trees

## Trees

A tree keeps everything that its text shows: the blanks between the tokens, the spelling of
numbers, each escape, and the members of an object in their order.
-/

namespace Ump.Codec

/-- One element of a quoted string, as it is written. -/
inductive Piece where
  | plain (p : CodePoint)
  | short (c : Char)
  | unicode (a b c d : Char)
deriving DecidableEq

inductive Word where
  | null
  | true
  | false
  | nan
  | infinity
  | negativeInfinity
deriving DecidableEq

def Word.text : Word -> List Char
  | .null => "null".toList
  | .true => "true".toList
  | .false => "false".toList
  | .nan => "NaN".toList
  | .infinity => "Infinity".toList
  | .negativeInfinity => "-Infinity".toList

def Word.all : List Word :=
  [.null, .true, .false, .nan, .infinity, .negativeInfinity]

abbrev Blank := List Char

/-- An item stands between two blanks. A member is a blank, the pieces of its name, the
blanks around the colon, its tree and one more blank. -/
inductive Tree where
  | word (w : Word)
  | number (literal : List Char)
  | string (pieces : List Piece)
  | array (blank : Blank) (items : List (Blank × Tree × Blank))
  | object (blank : Blank) (members : List (Blank × List Piece × Blank × Blank × Tree × Blank))

/-!
### Printing
-/

def Piece.print : Piece -> Points
  | .plain p => [p]
  | .short c => ofText ['\\', c]
  | .unicode a b c d => ofText ['\\', 'u', a, b, c, d]

def printQuoted (pieces : List Piece) : Points :=
  .char '"' :: pieces.flatMap Piece.print ++ [.char '"']

def commaSeparated : List Points -> Points
  | [] => []
  | first :: rest => first ++ rest.flatMap (fun text => .char ',' :: text)

mutual

def Tree.print : Tree -> Points
  | .word w => ofText w.text
  | .number literal => ofText literal
  | .string pieces => printQuoted pieces
  | .array blank items =>
      .char '[' :: ofText blank ++ commaSeparated (printItems items) ++ [.char ']']
  | .object blank members =>
      .char '\x7b' :: ofText blank ++ commaSeparated (printMembers members) ++ [.char '\x7d']

def printItems : List (Blank × Tree × Blank) -> List Points
  | [] => []
  | (before, item, after) :: rest =>
      (ofText before ++ item.print ++ ofText after) :: printItems rest

def printMembers : List (Blank × List Piece × Blank × Blank × Tree × Blank) -> List Points
  | [] => []
  | (before, name, left, right, value, after) :: rest =>
      (ofText before ++ printQuoted name ++ ofText left ++ .char ':' :: ofText right ++
        value.print ++ ofText after) :: printMembers rest

end

/-!
## Values

A decoded value. A float is carried as its exact value and the digits of its `repr`; the
three constants are the floats that `repr` does not print as numbers.
-/

inductive Constant where
  | nan
  | infinity
  | negativeInfinity
deriving DecidableEq

inductive Value where
  | null
  | bool (b : Bool)
  | int (n : Int)
  | float (value : Rat) (digits : String)
  | constant (c : Constant)
  | str (s : Points)
  | arr (items : List Value)
  | obj (fields : List (Points × Value))

def hexDigit? (c : Char) : Option Nat :=
  if '0' ≤ c ∧ c ≤ '9' then some (c.toNat - 48)
  else if 'a' ≤ c ∧ c ≤ 'f' then some (c.toNat - 87)
  else if 'A' ≤ c ∧ c ≤ 'F' then some (c.toNat - 55)
  else none

def codeUnit (a b c d : Char) : Nat :=
  4096 * (hexDigit? a).getD 0 + 256 * (hexDigit? b).getD 0 + 16 * (hexDigit? c).getD 0 +
    (hexDigit? d).getD 0

def isHigh (n : Nat) : Bool :=
  decide (0xD800 ≤ n) && decide (n < 0xDC00)

def isLow (n : Nat) : Bool :=
  decide (0xDC00 ≤ n) && decide (n < 0xE000)

def joinSurrogates (high low : Nat) : Nat :=
  0x10000 + 1024 * (high - 0xD800) + (low - 0xDC00)

def shortEscape? (c : Char) : Option Char :=
  [('"', '"'), ('\\', '\\'), ('/', '/'), ('b', Char.ofNat 8), ('f', Char.ofNat 12), ('n', '\n'),
    ('r', '\r'), ('t', '\t')].lookup c

/-- The string of the pieces; an escaped pair of surrogates is one character. -/
def textOf : List Piece -> Points
  | [] => []
  | .plain p :: rest => p :: textOf rest
  | .short c :: rest => .char ((shortEscape? c).getD c) :: textOf rest
  | .unicode a b c d :: .unicode e f g h :: rest =>
      if isHigh (codeUnit a b c d) && isLow (codeUnit e f g h) then
        CodePoint.ofCode (joinSurrogates (codeUnit a b c d) (codeUnit e f g h)) :: textOf rest
      else
        CodePoint.ofCode (codeUnit a b c d) :: textOf (.unicode e f g h :: rest)
  | .unicode a b c d :: rest => CodePoint.ofCode (codeUnit a b c d) :: textOf rest

/-- What `float` makes of a literal: a number with its `repr`, or an infinity. -/
inductive Reading where
  | finite (value : Rat) (digits : String)
  | infinite (negative : Bool)

def Reading.value : Reading -> Value
  | .finite value digits => .float value digits
  | .infinite negative => .constant (if negative then .negativeInfinity else .infinity)

abbrev Floats := List Char -> Reading

def isFloatLiteral (literal : List Char) : Bool :=
  literal.any (fun c => c == '.' || c == 'e' || c == 'E')

def digitValue (c : Char) : Nat := c.toNat - 48

def natOf (digits : List Char) : Nat :=
  digits.foldl (fun n c => 10 * n + digitValue c) 0

def intOf : List Char -> Int
  | '-' :: digits => -(natOf digits : Int)
  | digits => natOf digits

def maxIntDigits : Nat := 4300

def withoutSign : List Char -> List Char
  | '-' :: digits => digits
  | digits => digits

def numberValue (floats : Floats) (literal : List Char) : Option Value :=
  if isFloatLiteral literal then some (floats literal).value
  else if (withoutSign literal).length ≤ maxIntDigits then some (.int (intOf literal))
  else none

def Word.value : Word -> Value
  | .null => .null
  | .true => .bool Bool.true
  | .false => .bool Bool.false
  | .nan => .constant .nan
  | .infinity => .constant .infinity
  | .negativeInfinity => .constant .negativeInfinity

/-- `fields[name] = value`: a name that is there keeps its place. -/
def assign (fields : List (Points × Value)) (name : Points) (value : Value) :
    List (Points × Value) :=
  if fields.any (fun field => field.1 == name) then
    fields.map (fun field => if field.1 = name then (name, value) else field)
  else
    fields ++ [(name, value)]

/-- The dictionary of the pairs, the last value of a name for all. -/
def dictOf (pairs : List (Points × Value)) : List (Points × Value) :=
  pairs.foldl (fun fields pair => assign fields pair.1 pair.2) []

mutual

/-- The value of a tree, unless an integer has too many digits. -/
def Tree.value (floats : Floats) : Tree -> Option Value
  | .word w => some w.value
  | .number literal => numberValue floats literal
  | .string pieces => some (.str (textOf pieces))
  | .array _ items => (itemValues floats items).map .arr
  | .object _ members => (memberValues floats members).map (fun pairs => .obj (dictOf pairs))

def itemValues (floats : Floats) : List (Blank × Tree × Blank) -> Option (List Value)
  | [] => some []
  | (_, item, _) :: rest => do
      let first <- item.value floats
      let others <- itemValues floats rest
      some (first :: others)

def memberValues (floats : Floats) :
    List (Blank × List Piece × Blank × Blank × Tree × Blank) ->
      Option (List (Points × Value))
  | [] => some []
  | (_, name, _, _, tree, _) :: rest => do
      let first <- tree.value floats
      let others <- memberValues floats rest
      some ((textOf name, first) :: others)

end

/-!
## The tree that the encoder prints
-/

def lowerHexDigit (n : Nat) : Char :=
  if n < 10 then Char.ofNat (n + 48) else Char.ofNat (n + 87)

/-- The only escapes with `ensure_ascii=False`: of a quotation mark, a backslash and the
control characters. -/
def pieceOf : CodePoint -> Piece
  | .surrogate n => .plain (.surrogate n)
  | .char c =>
      if 34 < c.toNat ∧ c.toNat ≠ 92 then .plain (.char c)
      else if c = '"' then .short '"'
      else if c = '\\' then .short '\\'
      else if c = '\n' then .short 'n'
      else if c = '\r' then .short 'r'
      else if c = '\t' then .short 't'
      else if c = Char.ofNat 12 then .short 'f'
      else if c = Char.ofNat 8 then .short 'b'
      else if c.toNat < 32 then
        .unicode '0' '0' (lowerHexDigit (c.toNat / 16)) (lowerHexDigit (c.toNat % 16))
      else .plain (.char c)

def Constant.word : Constant -> Word
  | .nan => .nan
  | .infinity => .infinity
  | .negativeInfinity => .negativeInfinity

def codes (text : Points) : List Nat :=
  text.map CodePoint.code

def sortNames (members : List (Points × Tree)) : List (Points × Tree) :=
  members.insertionSort (fun a b => codes a.1 ≤ codes b.1)

def memberOf (member : Points × Tree) : Blank × List Piece × Blank × Blank × Tree × Blank :=
  ([], member.1.map pieceOf, [], [], member.2, [])

mutual

/-- The tree of `json.dumps(value, ensure_ascii=False, separators=(",", ":"),
sort_keys=True)`. -/
def Value.tree : Value -> Tree
  | .null => .word .null
  | .bool b => .word (if b then .true else .false)
  | .int n => .number (toString n).toList
  | .float _ digits => .number digits.toList
  | .constant c => .word c.word
  | .str s => .string (s.map pieceOf)
  | .arr items => .array [] ((itemTrees items).map (fun item => ([], item, [])))
  | .obj fields => .object [] ((sortNames (fieldTrees fields)).map memberOf)

def itemTrees : List Value -> List Tree
  | [] => []
  | item :: rest => item.tree :: itemTrees rest

def fieldTrees : List (Points × Value) -> List (Points × Tree)
  | [] => []
  | (name, value) :: rest => (name, value.tree) :: fieldTrees rest

end

end Ump.Codec
