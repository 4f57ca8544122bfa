import Mathlib.Data.List.Sort
import Mathlib.Data.Rat.Floor
import Ump.Foundation.Transaction

/-!
# JSON values and their canonical text

## Values

Payloads, digests and size limits all go through one call,
`json.dumps(value, ensure_ascii=False, separators=(",", ":"), sort_keys=True)`.
A text is kept as its list of characters; its UTF-8 size is what the protocol
limits bound. A float is carried as its exact value together with the digits
that its `repr` prints.
-/

namespace Ump

/-- The exceptions that leave the modelled code, with the text of the source. -/
inductive Exn where
  | value (text : String)
  | type (text : String)
  | key (name : String)
  | runtime (text : String)
  | integrity
  | overflow
deriving DecidableEq, Repr

instance : Foundation.Driver Exn where
  operational text := .runtime text

theorem bind_eq_ok {x : Except Exn value} {f : value -> Except Exn result}
    {r : result} :
    (x >>= f) = .ok r <-> exists v, x = .ok v ∧ f v = .ok r := by
  cases x with
  | error e => simp [bind, Except.bind]
  | ok v => simp [bind, Except.bind]

/-- SQLite binds signed 64-bit integers; Python raises `OverflowError` on others. -/
def bindInteger (n : Int) : Except Exn Unit :=
  if -(2 ^ 63) ≤ n ∧ n < 2 ^ 63 then .ok () else .error .overflow

inductive Json where
  | null
  | bool (value : Bool)
  | int (value : Int)
  | float (value : Rat) (digits : String)
  | str (value : String)
  | arr (items : List Json)
  | obj (fields : List (String × Json))
deriving Inhabited

abbrev Text := List Char

namespace Text

/-- `len(text.encode("utf-8"))`. -/
def byteSize (text : Text) : Nat :=
  (text.map Char.utf8Size).sum

@[simp] theorem byteSize_nil : byteSize [] = 0 := rfl

@[simp] theorem byteSize_cons (c : Char) (rest : Text) :
    byteSize (c :: rest) = c.utf8Size + byteSize rest := rfl

@[simp] theorem byteSize_append (a b : Text) :
    byteSize (a ++ b) = byteSize a + byteSize b := by
  simp [byteSize]

end Text

namespace Json

/-!
## Canonical text
-/

def hexDigit (n : Nat) : Char :=
  if n < 10 then Char.ofNat (n + 48) else Char.ofNat (n + 87)

/-- The escapes that `json.dumps` keeps with `ensure_ascii=False`. -/
def escape (c : Char) : Text :=
  -- a character above the quotation mark that is no backslash stands for itself
  if 34 < c.toNat ∧ c.toNat ≠ 92 then [c]
  else if c = '"' then ['\\', '"']
  else if c = '\\' then ['\\', '\\']
  else if c = '\n' then ['\\', 'n']
  else if c = '\r' then ['\\', 'r']
  else if c = '\t' then ['\\', 't']
  else if c = Char.ofNat 12 then ['\\', 'f']
  else if c = Char.ofNat 8 then ['\\', 'b']
  else if c.toNat < 32 then
    ['\\', 'u', '0', '0', hexDigit (c.toNat / 16), hexDigit (c.toNat % 16)]
  else [c]

def quote (s : String) : Text :=
  '"' :: (s.toList.flatMap escape ++ ['"'])

def commaSeparated : List Text -> Text
  | [] => []
  | [x] => x
  | x :: y :: rest => x ++ ',' :: commaSeparated (y :: rest)

/-- `sort_keys=True`: members in the code point order of their names. -/
def sortKeys (members : List (String × Text)) : List (String × Text) :=
  members.insertionSort (fun a b => a.1 ≤ b.1)

mutual

def dumps : Json -> Text
  | null => "null".toList
  | bool true => "true".toList
  | bool false => "false".toList
  | int n => (toString n).toList
  | float _ digits => digits.toList
  | str s => quote s
  | arr items => '[' :: commaSeparated (dumpsItems items) ++ [']']
  | obj fields =>
      '\x7b' :: commaSeparated ((sortKeys (dumpsFields fields)).map
        (fun member => quote member.1 ++ ':' :: member.2)) ++ ['\x7d']

def dumpsItems : List Json -> List Text
  | [] => []
  | item :: rest => dumps item :: dumpsItems rest

def dumpsFields : List (String × Json) -> List (String × Text)
  | [] => []
  | (key, value) :: rest => (key, dumps value) :: dumpsFields rest

end

/-!
## Sizes
-/

theorem byteSize_commaSeparated {items : List Text} (h : items ≠ []) :
    Text.byteSize (commaSeparated items) + 1 =
      (items.map (fun item => Text.byteSize item + 1)).sum := by
  induction items with
  | nil => exact absurd rfl h
  | cons head rest ih =>
      cases rest with
      | nil => simp [commaSeparated]
      | cons next rest =>
          have hcomma : Char.utf8Size ',' = 1 := by decide
          have hrest := ih (by simp)
          simp only [commaSeparated, Text.byteSize_append, Text.byteSize_cons, hcomma,
            List.map_cons, List.sum_cons] at hrest ⊢
          omega

theorem byteSize_dumps_arr {items : List Json} (h : items ≠ []) :
    Text.byteSize (dumps (arr items)) =
      1 + ((dumpsItems items).map (fun item => Text.byteSize item + 1)).sum := by
  have hne : dumpsItems items ≠ [] := by
    cases items with
    | nil => exact absurd rfl h
    | cons head rest => simp [dumpsItems]
  have hbody := byteSize_commaSeparated hne
  have hopen : Char.utf8Size '[' = 1 := by decide
  have hclose : Char.utf8Size ']' = 1 := by decide
  simp only [dumps, Text.byteSize_append, Text.byteSize_cons, Text.byteSize_nil, hopen, hclose]
  omega

theorem byteSize_dumps_obj {fields : List (String × Json)} (h : fields ≠ []) :
    Text.byteSize (dumps (obj fields)) = 1 + ((dumpsFields fields).map (fun member =>
      Text.byteSize (quote member.1) + Text.byteSize member.2 + 2)).sum := by
  have hperm := List.perm_insertionSort (fun a b : String × Text => a.1 ≤ b.1)
    (dumpsFields fields)
  have hne : (sortKeys (dumpsFields fields)).map
      (fun member => quote member.1 ++ ':' :: member.2) ≠ [] := by
    cases fields with
    | nil => exact absurd rfl h
    | cons head rest =>
        intro hnil
        have hlength := hperm.length_eq
        unfold sortKeys at hnil
        rw [List.map_eq_nil_iff.mp hnil] at hlength
        simp [dumpsFields] at hlength
  have hbody := byteSize_commaSeparated hne
  have hcolon : Char.utf8Size ':' = 1 := by decide
  have hopen : Char.utf8Size '\x7b' = 1 := by decide
  have hclose : Char.utf8Size '\x7d' = 1 := by decide
  have hsame : forall member : String × Text,
      Text.byteSize (quote member.1) + (1 + Text.byteSize member.2) + 1 =
        Text.byteSize (quote member.1) + Text.byteSize member.2 + 2 := by
    intro member
    omega
  rw [← (hperm.map (fun member =>
    Text.byteSize (quote member.1) + Text.byteSize member.2 + 2)).sum_nat]
  unfold sortKeys at hbody
  simp only [List.map_map, Function.comp_def, Text.byteSize_append, Text.byteSize_cons,
    hcolon, hsame] at hbody
  simp only [dumps, sortKeys, Text.byteSize_append, Text.byteSize_cons, Text.byteSize_nil,
    hopen, hclose]
  omega

/-!
## Reading values

The handlers read decoded JSON objects: `data[name]`, `data.get(name)`, and
whatever the dataclass checks do to a value of another type.
-/

def isObject : Json -> Bool
  | obj _ => true
  | _ => false

def get : Json -> String -> Json -> Except Exn Json
  | obj fields, name, fallback => .ok ((fields.lookup name).getD fallback)
  | _, _, _ => .error (.type "value has no members")

/-- `data[name]`. -/
def item : Json -> String -> Except Exn Json
  | obj fields, name =>
      match fields.lookup name with
      | some value => .ok value
      | none => .error (.key name)
  | _, name => .error (.type ("indices must be integers, not " ++ name))

def isNull : Json -> Bool
  | null => true
  | _ => false

def isText (value : Json) (text : String) : Bool :=
  match value with
  | str s => s == text
  | _ => false

/-- A value that is used as a string; the text checks raise on any other. -/
def text : Json -> Except Exn String
  | str s => .ok s
  | _ => .error (.type "value is not a string")

/-- A value that may be absent and is otherwise used as a string. -/
def text? : Json -> Except Exn (Option String)
  | null => .ok none
  | value => do
      let s <- value.text
      .ok (some s)

/-- `tuple(value)` of a decoded value. -/
def tuple : Json -> Except Exn (List Json)
  | arr items => .ok items
  | str s => .ok (s.toList.map (fun c => str (String.singleton c)))
  | obj fields => .ok (fields.map (fun member => str member.1))
  | _ => .error (.type "value is not iterable")

/-- The value of a number in a comparison; Python counts booleans as numbers. -/
def number : Json -> Except Exn Rat
  | int n => .ok n
  | float value _ => .ok value
  | bool b => .ok (if b then 1 else 0)
  | _ => .error (.type "comparison with a value that is not a number")

def number? : Json -> Except Exn (Option Rat)
  | null => .ok none
  | value => do
      let n <- value.number
      .ok (some n)

/-- The value of a number; Python compares booleans as numbers. -/
def numeric? : Json -> Option Rat
  | int n => some n
  | float value _ => some value
  | bool b => some (if b then 1 else 0)
  | _ => none

/-!
### Equality of values

`==` of decoded values, which does not look at the order of an object's members.
-/

mutual

def equal : Json -> Json -> Bool
  | null, other => other.isNull
  | bool b, other => other.numeric? == some (if b then 1 else 0)
  | int n, other => other.numeric? == some (n : Rat)
  | float value _, other => other.numeric? == some value
  | str s, other => other.isText s
  | arr items, arr others => equalItems items others
  | arr _, _ => false
  | obj fields, obj others => fields.length == others.length && equalFields fields others
  | obj _, _ => false

def equalItems : List Json -> List Json -> Bool
  | [], [] => true
  | item :: rest, other :: others => equal item other && equalItems rest others
  | _, _ => false

def equalFields : List (String × Json) -> List (String × Json) -> Bool
  | [], _ => true
  | (key, value) :: rest, others =>
      match others.lookup key with
      | some other => equal value other && equalFields rest others
      | none => false

end

/-- A JSON array of strings, as `asdict` makes of a tuple of identifiers. -/
def strings (items : List String) : Json :=
  arr (items.map str)

def optional (encode : value -> Json) : Option value -> Json
  | none => null
  | some v => encode v

example :
    dumps (obj [("b", arr [int (-3), str "x\ny"]), ("a", obj [("z", null)])]) =
      "\x7b\"a\":\x7b\"z\":null\x7d,\"b\":[-3,\"x\\ny\"]\x7d".toList := by
  decide

example :
    equal (obj [("a", int 1), ("b", null)]) (obj [("b", null), ("a", bool true)]) = true := by
  decide

end Json

end Ump
