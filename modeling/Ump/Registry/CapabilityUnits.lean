import Mathlib.Data.List.Infix
import Ump.Protocol.Models

/-!
# Units of capability schemas

## What the schema keywords hold

`validate_capability_units` reads the members of a JSON Schema as Python reads them: a
keyword of the wrong type raises as soon as it is used.
-/

namespace Ump.Registry

abbrev Fields := List (String × Json)

def roboticsSiUnits : List String :=
  ["1", "m", "m^2", "m^3", "m/s", "m/s^2", "rad", "rad/s", "rad/s^2", "s", "Hz", "kg",
    "kg/m^3", "N", "N*m", "Pa", "K", "A", "V", "W", "J"]

def spatialSiUnits : List String :=
  ["m", "m^2", "m^3", "m/s", "m/s^2", "rad", "rad/s", "rad/s^2"]

/-- Lists and objects cannot be members of a set. -/
def hashable : Json -> Except Exn Unit
  | .arr _ => .error (.type "unhashable type: 'list'")
  | .obj _ => .error (.type "unhashable type: 'dict'")
  | _ => .ok ()

def member (fields : Fields) (name : String) (fallback : Json) : Json :=
  (fields.lookup name).getD fallback

def declaredTypes (fields : Fields) : Except Exn (List Json) :=
  match member fields "type" .null with
  | .arr items => do
      checkAll hashable items
      .ok items
  | declared => do
      hashable declared
      .ok [declared]

def declares (types : List Json) (name : String) : Bool :=
  types.any (fun declared => declared.isText name)

/-- `text in value`. -/
def holds (text : String) : Json -> Except Exn Bool
  | .arr items => .ok (items.any (fun item => item.isText text))
  | .obj members => .ok (members.any (fun entry => entry.1 == text))
  | .str value => .ok (decide (text.toList <:+: value.toList))
  | _ => .error (.type "argument is not iterable")

/-- `value.get(name, default)` of a value that may be no object. -/
def attributeGet (value : Json) (name : String) (fallback : Json) : Except Exn Json :=
  match value with
  | .obj members => .ok (member members name fallback)
  | _ => .error (.type "object has no attribute 'get'")

/-- The frame rule of a spatial field: its enclosing object names a required string
property. -/
def namesFrame (enclosing : Fields) : Except Exn Bool :=
  match member enclosing "x-ump-frame-field" .null with
  | .str frameField => do
      let frameSchema <-
        if frameField.isEmpty then .ok (.obj [])
        else attributeGet (member enclosing "properties" (.obj [])) frameField (.obj [])
      let required <- holds frameField (member enclosing "required" (.arr []))
      if required then do
        let declared <- attributeGet frameSchema "type" .null
        .ok (declared.isText "string")
      else
        .ok false
  | _ => .ok false

def refuseSpatial (schemaName path : String) (enclosing : Option Fields) :
    Except Exn Unit :=
  match enclosing with
  | none =>
      .error (.value (schemaName ++ " spatial field " ++ path ++
        " requires an enclosing frame"))
  | some fields => do
      let named <- namesFrame fields
      refuseWhen (!named)
        (schemaName ++ " spatial field " ++ path ++ " requires a named string frame field")

def checkNumeric (schemaName path : String) (fields : Fields) (enclosing : Option Fields) :
    Except Exn Unit := do
  let unit := member fields "x-ump-unit" .null
  hashable unit
  refuseWhen (!roboticsSiUnits.any (fun name => unit.isText name))
    (schemaName ++ " numeric field " ++ path ++ " requires supported x-ump-unit")
  if spatialSiUnits.any (fun name => unit.isText name) then
    refuseSpatial schemaName path enclosing
  else
    .ok ()

def checkNode (schemaName path : String) (fields : Fields) (types : List Json)
    (enclosing : Option Fields) : Except Exn Unit :=
  if declares types "number" || declares types "integer" then
    checkNumeric schemaName path fields enclosing
  else
    .ok ()

/-!
## The walk over a schema
-/

mutual

/-- `visit`: the node and then the schemas under its keywords. -/
def visitUnits (schemaName : String) : Json -> String -> Option Fields -> Except Exn Unit
  | .obj fields, path, enclosing => do
      let types <- declaredTypes fields
      checkNode schemaName path fields types enclosing
      let current := if declares types "object" then some fields else enclosing
      visitNamed schemaName "properties" fields path current
      visitItems schemaName fields path current
      visitAlternatives schemaName "allOf" fields path current
      visitAlternatives schemaName "anyOf" fields path current
      visitAlternatives schemaName "oneOf" fields path current
      visitNamed schemaName "$defs" fields path none
  | _, _, _ => .ok ()

/-- `node.get(keyword, {}).items()`. -/
def visitNamed (schemaName keyword : String) :
    List (String × Json) -> String -> Option Fields -> Except Exn Unit
  | [], _, _ => .ok ()
  | (name, .obj children) :: rest, path, current =>
      if name = keyword then
        visitChildren schemaName children (path ++ "/" ++ keyword ++ "/") current
      else
        visitNamed schemaName keyword rest path current
  | (name, _) :: rest, path, current =>
      if name = keyword then
        .error (.type "object has no attribute 'items'")
      else
        visitNamed schemaName keyword rest path current

def visitChildren (schemaName : String) :
    List (String × Json) -> String -> Option Fields -> Except Exn Unit
  | [], _, _ => .ok ()
  | (name, child) :: rest, path, current => do
      visitUnits schemaName child (path ++ name) current
      visitChildren schemaName rest path current

def visitItems (schemaName : String) :
    List (String × Json) -> String -> Option Fields -> Except Exn Unit
  | [], _, _ => .ok ()
  | (name, child) :: rest, path, current =>
      if name = "items" then
        visitUnits schemaName child (path ++ "/items") current
      else
        visitItems schemaName rest path current

/-- `enumerate(node.get(keyword, ()))`; the characters of a text and the names of an object
are no schemas. -/
def visitAlternatives (schemaName keyword : String) :
    List (String × Json) -> String -> Option Fields -> Except Exn Unit
  | [], _, _ => .ok ()
  | (name, .arr children) :: rest, path, current =>
      if name = keyword then
        visitIndexed schemaName children (path ++ "/" ++ keyword ++ "/") 0 current
      else
        visitAlternatives schemaName keyword rest path current
  | (name, child) :: rest, path, current =>
      if name = keyword then do
        let _ <- child.tuple
        .ok ()
      else
        visitAlternatives schemaName keyword rest path current

def visitIndexed (schemaName : String) :
    List Json -> String -> Nat -> Option Fields -> Except Exn Unit
  | [], _, _, _ => .ok ()
  | child :: rest, path, index, current => do
      visitUnits schemaName child (path ++ toString index) current
      visitIndexed schemaName rest path (index + 1) current

end

def validateCapabilityUnits (schema : Json) (schemaName : String) : Except Exn Unit :=
  visitUnits schemaName schema "$" none

example : validateCapabilityUnits (.obj [("type", .str "object"),
    ("properties", .obj [("speed", .obj [("type", .str "number"),
      ("x-ump-unit", .str "m/s")])])]) "capability input schema" =
    .error (.value ("capability input schema spatial field $/properties/speed " ++
      "requires a named string frame field")) := by
  decide

/-!
### What the visits of a keyword come to
-/

theorem visitNamed_eq (schemaName keyword : String) (fields : Fields) (path : String)
    (current : Option Fields) :
    visitNamed schemaName keyword fields path current =
      match fields.lookup keyword with
      | none => .ok ()
      | some (.obj children) =>
          visitChildren schemaName children (path ++ "/" ++ keyword ++ "/") current
      | some _ => .error (.type "object has no attribute 'items'") := by
  induction fields with
  | nil => rfl
  | cons head rest ih =>
      rcases head with ⟨name, value⟩
      by_cases hname : name = keyword
      · subst hname
        cases value <;> simp [visitNamed]
      · have hkey : (keyword == name) = false := beq_eq_false_iff_ne.mpr (Ne.symm hname)
        cases value <;> simp [visitNamed, List.lookup_cons, hname, hkey, ih]

theorem visitItems_eq (schemaName : String) (fields : Fields) (path : String)
    (current : Option Fields) :
    visitItems schemaName fields path current =
      match fields.lookup "items" with
      | none => .ok ()
      | some child => visitUnits schemaName child (path ++ "/items") current := by
  induction fields with
  | nil => rfl
  | cons head rest ih =>
      rcases head with ⟨name, value⟩
      by_cases hname : name = "items"
      · subst hname
        simp [visitItems]
      · have hkey : ("items" == name) = false := beq_eq_false_iff_ne.mpr (Ne.symm hname)
        simp [visitItems, List.lookup_cons, hname, hkey, ih]

theorem visitAlternatives_eq (schemaName keyword : String) (fields : Fields) (path : String)
    (current : Option Fields) :
    visitAlternatives schemaName keyword fields path current =
      match fields.lookup keyword with
      | none => .ok ()
      | some (.arr children) =>
          visitIndexed schemaName children (path ++ "/" ++ keyword ++ "/") 0 current
      | some child => child.tuple >>= fun _ => .ok () := by
  induction fields with
  | nil => rfl
  | cons head rest ih =>
      rcases head with ⟨name, value⟩
      by_cases hname : name = keyword
      · subst hname
        cases value <;> simp [visitAlternatives]
      · have hkey : (keyword == name) = false := beq_eq_false_iff_ne.mpr (Ne.symm hname)
        cases value <;> simp [visitAlternatives, List.lookup_cons, hname, hkey, ih]

theorem visitChildren_eq_ok {schemaName : String} {children : Fields} {path : String}
    {current : Option Fields} :
    visitChildren schemaName children path current = .ok () <->
      forall child, child ∈ children ->
        visitUnits schemaName child.2 (path ++ child.1) current = .ok () := by
  induction children with
  | nil => simp [visitChildren]
  | cons head rest ih =>
      rcases head with ⟨name, child⟩
      rw [List.forall_mem_cons, ← ih, visitChildren, bind_eq_ok]
      constructor
      · rintro ⟨_, hchild, hrest⟩
        exact ⟨hchild, hrest⟩
      · rintro ⟨hchild, hrest⟩
        exact ⟨(), hchild, hrest⟩

end Ump.Registry
