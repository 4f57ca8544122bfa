import Ump.Protocol.Canonical

/-!
# JSON Schema

## Instances

The draft 2020-12 keywords that the published schema uses. A keyword says nothing about
instances of a type that it is not about, and unlike Python it takes a boolean for no
number.
-/

namespace Ump

namespace Json

def isBool : Json -> Bool
  | bool _ => true
  | _ => false

def magnitude : Json -> Option Rat
  | int n => some n
  | float value _ => some value
  | _ => none

def isInteger : Json -> Bool
  | int _ => true
  | float value _ => value.den == 1
  | _ => false

mutual

/-- Equality of instances, by the value of numbers and not by the order of members. -/
def sameInstance : Json -> Json -> Bool
  | null, other => other.isNull
  | bool b, bool c => b == c
  | bool _, _ => false
  | int n, other => other.magnitude == some (n : Rat)
  | float value _, other => other.magnitude == some value
  | str s, other => other.isText s
  | arr items, arr others => sameInstances items others
  | arr _, _ => false
  | obj fields, obj others =>
      fields.length == others.length && sameMembers fields others
  | obj _, _ => false

def sameInstances : List Json -> List Json -> Bool
  | [], [] => true
  | item :: rest, other :: others => sameInstance item other && sameInstances rest others
  | _, _ => false

def sameMembers : List (String × Json) -> List (String × Json) -> Bool
  | [], _ => true
  | (key, value) :: rest, others =>
      match others.lookup key with
      | some other => sameInstance value other && sameMembers rest others
      | none => false

end

end Json

/-!
## Schemas
-/

inductive TypeName where
  | null
  | boolean
  | integer
  | number
  | string
  | array
  | object
deriving DecidableEq, Repr

def TypeName.holds : TypeName -> Json -> Bool
  | .null, value => value.isNull
  | .boolean, value => value.isBool
  | .integer, value => value.isInteger
  | .number, value => value.magnitude.isSome
  | .string, .str _ => true
  | .string, _ => false
  | .array, .arr _ => true
  | .array, _ => false
  | .object, value => value.isObject

/-- The keywords without schemas inside. A pattern is the predicate of the texts in which it
is found; `closed` is `"additionalProperties": false` beside properties of these names, and
`fractionalMinimum` is a `"minimum"` that is no integer. -/
inductive Keyword where
  | type (names : List TypeName)
  | const (text : String)
  | enum (texts : List String)
  | minLength (n : Nat)
  | maxLength (n : Nat)
  | pattern (found : String -> Bool)
  | minimum (bound : Int)
  | fractionalMinimum (bound : Rat)
  | maximum (bound : Int)
  | minItems (n : Nat)
  | maxItems (n : Nat)
  | uniqueItems
  | required (names : List String)
  | closed (names : List String)

namespace Keyword

def onText (holds : String -> Bool) : Json -> Bool
  | .str s => holds s
  | _ => true

def onNumber (holds : Rat -> Bool) (value : Json) : Bool :=
  value.magnitude.all holds

def onItems (holds : List Json -> Bool) : Json -> Bool
  | .arr items => holds items
  | _ => true

def onMembers (holds : List (String × Json) -> Bool) : Json -> Bool
  | .obj fields => holds fields
  | _ => true

def holds : Keyword -> Json -> Bool
  | type names, value => names.any (fun name => name.holds value)
  | const text, value => value.isText text
  | enum texts, value => texts.any (fun text => value.isText text)
  | minLength n, value => onText (fun s => decide (n ≤ s.length)) value
  | maxLength n, value => onText (fun s => decide (s.length ≤ n)) value
  | pattern found, value => onText found value
  | minimum bound, value => onNumber (fun n => decide ((bound : Rat) ≤ n)) value
  | fractionalMinimum bound, value => onNumber (fun n => decide (bound ≤ n)) value
  | maximum bound, value => onNumber (fun n => decide (n ≤ (bound : Rat))) value
  | minItems n, value => onItems (fun items => decide (n ≤ items.length)) value
  | maxItems n, value => onItems (fun items => decide (items.length ≤ n)) value
  | uniqueItems, value => onItems (fun items =>
      decide (items.Pairwise (fun a b => Json.sameInstance a b = false))) value
  | required names, value => onMembers (fun fields =>
      names.all (fun name => (fields.lookup name).isSome)) value
  | closed names, value => onMembers (fun fields =>
      fields.all (fun member => names.contains member.1)) value

end Keyword

/-- A schema object is the conjunction `allOf` of its keywords. -/
inductive Schema where
  | keyword (word : Keyword)
  | items (schema : Schema)
  | properties (members : List (String × Schema))
  | allOf (schemas : List Schema)
  | anyOf (schemas : List Schema)
  | oneOf (schemas : List Schema)
  | ifThen (condition consequence : Schema)

namespace Schema

mutual

def valid : Schema -> Json -> Bool
  | keyword word, value => word.holds value
  | items schema, value => Keyword.onItems (fun items => items.all (valid schema)) value
  | properties members, value => Keyword.onMembers (validProperties members) value
  | allOf schemas, value => validAll schemas value
  | anyOf schemas, value => decide (0 < countValid schemas value)
  | oneOf schemas, value => countValid schemas value == 1
  | ifThen condition consequence, value => !valid condition value || valid consequence value

def validProperties : List (String × Schema) -> List (String × Json) -> Bool
  | [], _ => true
  | (name, schema) :: rest, fields =>
      (match fields.lookup name with
        | some value => valid schema value
        | none => true) && validProperties rest fields

def validAll : List Schema -> Json -> Bool
  | [], _ => true
  | schema :: rest, value => valid schema value && validAll rest value

def countValid : List Schema -> Json -> Nat
  | [], _ => 0
  | schema :: rest, value => (valid schema value).toNat + countValid rest value

end

theorem validProperties_iff {members : List (String × Schema)} {fields : List (String × Json)} :
    validProperties members fields = true <->
      forall name schema, (name, schema) ∈ members ->
        forall value, fields.lookup name = some value -> schema.valid value = true := by
  induction members with
  | nil => simp [validProperties]
  | cons head rest ih =>
      obtain ⟨name, schema⟩ := head
      rw [validProperties, Bool.and_eq_true, ih]
      constructor
      · rintro ⟨hhead, hrest⟩ other otherSchema hmem value hlookup
        rcases List.mem_cons.mp hmem with hsame | htail
        · cases hsame
          rw [hlookup] at hhead
          exact hhead
        · exact hrest other otherSchema htail value hlookup
      · intro hall
        constructor
        · cases hlookup : fields.lookup name with
          | none => rfl
          | some value => exact hall name schema List.mem_cons_self value hlookup
        · intro other otherSchema hmem
          exact hall other otherSchema (List.mem_cons_of_mem _ hmem)

theorem uniqueItems_strings (texts : List String) :
    Keyword.uniqueItems.holds (.strings texts) = decide texts.Nodup := by
  have hsame : forall s t : String,
      Json.sameInstance (.str s) (.str t) = false <-> s ≠ t := by
    intro s t
    rw [Json.sameInstance]
    show (t == s) = false <-> _
    rw [beq_eq_false_iff_ne, ne_comm]
  unfold Keyword.holds Json.strings Keyword.onItems
  apply decide_eq_decide.mpr
  rw [List.pairwise_map]
  simp only [hsame, List.Nodup]

end Schema

end Ump
