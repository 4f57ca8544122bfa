import Ump.Registry.CapabilityUnits

/-!
# Units at every position of a schema

## Positions

The keywords of JSON Schema 2020-12 that hold schemas: one schema, schemas by name, or a list
of schemas. The validator of the units knows some of them.
-/

namespace Ump.Registry

def singleKeywords : List String :=
  ["additionalProperties", "propertyNames", "unevaluatedProperties", "items", "contains",
    "unevaluatedItems", "not", "if", "then", "else", "contentSchema"]

def namedKeywords : List String :=
  ["properties", "patternProperties", "dependentSchemas", "$defs", "definitions"]

def listKeywords : List String :=
  ["prefixItems", "allOf", "anyOf", "oneOf"]

def visitedKeywords : List String :=
  ["properties", "items", "allOf", "anyOf", "oneOf", "$defs"]

/-- An object schema that stands under a keyword of a node. -/
inductive Subschema (fields : Fields) : String -> Fields -> Prop where
  | single {keyword : String} {child : Fields} (hkeyword : keyword ∈ singleKeywords)
      (h : fields.lookup keyword = some (.obj child)) : Subschema fields keyword child
  | named {keyword name : String} {children child : Fields} (hkeyword : keyword ∈ namedKeywords)
      (h : fields.lookup keyword = some (.obj children)) (hmem : (name, .obj child) ∈ children) :
      Subschema fields keyword child
  | listed {keyword : String} {children : List Json} {child : Fields}
      (hkeyword : keyword ∈ listKeywords) (h : fields.lookup keyword = some (.arr children))
      (hmem : .obj child ∈ children) : Subschema fields keyword child

/-- The declared type is the name, or a list with the name in it. -/
def typeIncludes (fields : Fields) (name : String) : Bool :=
  match member fields "type" .null with
  | .arr items => items.any (fun declared => declared.isText name)
  | declared => declared.isText name

def isNumeric (fields : Fields) : Bool :=
  typeIncludes fields "number" || typeIncludes fields "integer"

/-- The nearest object on the way to the children of a node. -/
def nearestObject (fields : Fields) (enclosing : Option Fields) : Option Fields :=
  if typeIncludes fields "object" then some fields else enclosing

/-- A node at a position of the schema, with its nearest enclosing object. The flag tells
whether only visited keywords lead to it. -/
inductive Located (schema : Json) : Bool -> Fields -> Option Fields -> Prop where
  | root {fields : Fields} (h : schema = .obj fields) : Located schema true fields none
  | under {visited : Bool} {fields child : Fields} {enclosing : Option Fields} {keyword : String}
      (h : Located schema visited fields enclosing) (hsub : Subschema fields keyword child) :
      Located schema (visited && visitedKeywords.contains keyword) child
        (nearestObject fields enclosing)

/-!
### The rules
-/

def HasUnit (units : List String) (fields : Fields) : Prop :=
  exists unit, unit ∈ units ∧ member fields "x-ump-unit" .null = .str unit

def isSpatial (fields : Fields) : Prop :=
  HasUnit spatialSiUnits fields

def RequiresListed (enclosing : Option Fields) : Prop :=
  forall object, enclosing = some object ->
    exists names, member object "required" (.arr []) = .arr names

/-- There is an enclosing object, and it names a string property that it requires. -/
def HasFrame (enclosing : Option Fields) : Prop :=
  exists object frameField names properties frameSchema, enclosing = some object ∧
    object.lookup "x-ump-frame-field" = some (.str frameField) ∧
    member object "required" (.arr []) = .arr names ∧ .str frameField ∈ names ∧
    object.lookup "properties" = some (.obj properties) ∧
    properties.lookup frameField = some (.obj frameSchema) ∧
    frameSchema.lookup "type" = some (.str "string")

/-!
## What one visit says
-/

theorem isText_iff {value : Json} {text : String} :
    value.isText text = true <-> value = .str text := by
  cases value <;> simp [Json.isText]

theorem hasUnit_iff {units : List String} {fields : Fields} :
    units.any (fun name => (member fields "x-ump-unit" .null).isText name) = true <->
      HasUnit units fields := by
  simp only [List.any_eq_true, isText_iff, HasUnit]

theorem declares_of_declaredTypes {fields : Fields} {types : List Json}
    (h : declaredTypes fields = .ok types) (name : String) :
    declares types name = typeIncludes fields name := by
  unfold declaredTypes at h
  unfold typeIncludes declares
  cases hmember : member fields "type" .null with
  | arr items =>
      rw [hmember] at h
      rcases bind_eq_ok.mp h with ⟨_, _, h⟩
      rw [← Except.ok.inj h]
  | _ =>
      rw [hmember] at h
      rcases bind_eq_ok.mp h with ⟨_, _, h⟩
      rw [← Except.ok.inj h, List.any_cons, List.any_nil, Bool.or_false]

theorem lookup_of_member {fields : Fields} {name : String} {fallback value : Json}
    (h : member fields name fallback = value) (hne : value ≠ fallback) :
    fields.lookup name = some value := by
  unfold member at h
  cases hlookup : fields.lookup name with
  | none =>
      rw [hlookup] at h
      exact absurd h.symm hne
  | some found =>
      rw [hlookup] at h
      rw [← h]
      rfl

theorem attributeGet_eq_ok {value result : Json} {name : String} {fallback : Json}
    (h : attributeGet value name fallback = .ok result) (hne : result ≠ fallback) :
    exists members, value = .obj members ∧ members.lookup name = some result := by
  cases value with
  | obj members => exact ⟨members, rfl, lookup_of_member (Except.ok.inj h) hne⟩
  | _ => cases h

theorem hasFrame_of_namesFrame {object : Fields} (h : namesFrame object = .ok true)
    (hlisted : RequiresListed (some object)) : HasFrame (some object) := by
  rcases hlisted object rfl with ⟨names, hnames⟩
  unfold namesFrame at h
  cases hfield : member object "x-ump-frame-field" .null with
  | str frameField =>
      rw [hfield] at h
      dsimp only at h
      have hread : exists frameSchema, (frameSchema = Json.obj [] ∨
            attributeGet (member object "properties" (.obj [])) frameField (.obj []) =
              .ok frameSchema) ∧
          (do
            let required <- holds frameField (member object "required" (.arr []))
            if required then do
              let declared <- attributeGet frameSchema "type" .null
              .ok (declared.isText "string")
            else
              .ok false) = Except.ok true := by
        split_ifs at h
        · exact ⟨_, Or.inl rfl, h⟩
        · rcases bind_eq_ok.mp h with ⟨frameSchema, hschema, h⟩
          exact ⟨frameSchema, Or.inr hschema, h⟩
      rcases hread with ⟨frameSchema, hschema, hread⟩
      rcases bind_eq_ok.mp hread with ⟨required, hrequired, hread⟩
      rw [hnames] at hrequired
      cases required with
      | false => cases hread
      | true =>
          rcases bind_eq_ok.mp hread with ⟨declared, hdeclared, hread⟩
          have htype := isText_iff.mp (Except.ok.inj hread)
          rw [htype] at hdeclared
          rcases attributeGet_eq_ok hdeclared (by simp) with ⟨frameFields, rfl, htypeLookup⟩
          have hmem : .str frameField ∈ names := by
            rcases List.any_eq_true.mp (Except.ok.inj hrequired) with ⟨item, hitem, htext⟩
            rw [← isText_iff.mp htext]
            exact hitem
          have hne : Json.obj frameFields ≠ .obj [] := by
            intro hempty
            cases hempty
            cases htypeLookup
          rcases attributeGet_eq_ok (hschema.resolve_left hne) hne with
            ⟨properties, hproperties, hframe⟩
          have hfound : object.lookup "properties" = some (.obj properties) := by
            apply lookup_of_member hproperties
            intro hempty
            cases hempty
            cases hframe
          exact ⟨object, frameField, names, properties, frameFields, rfl,
            lookup_of_member hfield (by simp), hnames, hmem, hfound, hframe, htypeLookup⟩
  | _ =>
      rw [hfield] at h
      cases h

theorem rules_of_checkNode {schemaName path : String} {fields : Fields} {types : List Json}
    {current : Option Fields} (htypes : declaredTypes fields = .ok types)
    (h : checkNode schemaName path fields types current = .ok ())
    (hnumeric : isNumeric fields = true) :
    HasUnit roboticsSiUnits fields ∧ (isSpatial fields -> exists object,
      current = some object ∧ namesFrame object = .ok true) := by
  unfold checkNode at h
  rw [declares_of_declaredTypes htypes, declares_of_declaredTypes htypes,
    show (typeIncludes fields "number" || typeIncludes fields "integer") = true from hnumeric,
    if_pos rfl] at h
  rcases bind_eq_ok.mp h with ⟨_, _, h⟩
  rcases bind_eq_ok.mp h with ⟨_, hunit, h⟩
  have hknown := refuseWhen_eq_ok hunit
  rw [Bool.not_eq_false'] at hknown
  refine ⟨hasUnit_iff.mp hknown, ?_⟩
  intro hspatial
  rw [if_pos (hasUnit_iff.mpr hspatial)] at h
  cases current with
  | none => cases h
  | some object =>
      rcases bind_eq_ok.mp h with ⟨named, hnamed, hrefuse⟩
      have htrue := refuseWhen_eq_ok hrefuse
      rw [Bool.not_eq_false'] at htrue
      rw [htrue] at hnamed
      exact ⟨object, rfl, hnamed⟩

/-!
## What a whole walk says
-/

theorem parts_of_visit {schemaName path : String} {fields : Fields} {current : Option Fields}
    (h : visitUnits schemaName (.obj fields) path current = .ok ()) :
    exists types, declaredTypes fields = .ok types ∧
      checkNode schemaName path fields types current = .ok () ∧
      visitNamed schemaName "properties" fields path (nearestObject fields current) = .ok () ∧
      visitItems schemaName fields path (nearestObject fields current) = .ok () ∧
      visitAlternatives schemaName "allOf" fields path (nearestObject fields current) = .ok () ∧
      visitAlternatives schemaName "anyOf" fields path (nearestObject fields current) = .ok () ∧
      visitAlternatives schemaName "oneOf" fields path (nearestObject fields current) = .ok () ∧
      visitNamed schemaName "$defs" fields path none = .ok () := by
  rw [visitUnits] at h
  rcases bind_eq_ok.mp h with ⟨types, htypes, h⟩
  rcases bind_eq_ok.mp h with ⟨_, hcheck, h⟩
  have hobject := declares_of_declaredTypes htypes "object"
  rw [hobject] at h
  rcases bind_eq_ok.mp h with ⟨_, hproperties, h⟩
  rcases bind_eq_ok.mp h with ⟨_, hitems, h⟩
  rcases bind_eq_ok.mp h with ⟨_, hallOf, h⟩
  rcases bind_eq_ok.mp h with ⟨_, hanyOf, h⟩
  rcases bind_eq_ok.mp h with ⟨_, honeOf, hdefs⟩
  exact ⟨types, htypes, hcheck, hproperties, hitems, hallOf, hanyOf, honeOf, hdefs⟩

section

variable {schemaName path : String} {fields : Fields} {current : Option Fields}

theorem visit_of_named {keyword name : String} {children child : Fields}
    (h : visitNamed schemaName keyword fields path current = .ok ())
    (hlookup : fields.lookup keyword = some (.obj children))
    (hmem : (name, .obj child) ∈ children) :
    exists path', visitUnits schemaName (.obj child) path' current = .ok () := by
  rw [visitNamed_eq, hlookup] at h
  exact ⟨_, visitChildren_eq_ok.mp h _ hmem⟩

theorem visit_of_indexed {children : List Json} {child : Json} {index : Nat}
    (h : visitIndexed schemaName children path index current = .ok ()) (hmem : child ∈ children) :
    exists path', visitUnits schemaName child path' current = .ok () := by
  induction children generalizing index with
  | nil => cases hmem
  | cons first rest ih =>
      rcases bind_eq_ok.mp h with ⟨_, hfirst, hrest⟩
      rcases List.mem_cons.mp hmem with rfl | hmem
      · exact ⟨_, hfirst⟩
      · exact ih hrest hmem

theorem visit_of_listed {keyword : String} {children : List Json} {child : Json}
    (h : visitAlternatives schemaName keyword fields path current = .ok ())
    (hlookup : fields.lookup keyword = some (.arr children)) (hmem : child ∈ children) :
    exists path', visitUnits schemaName child path' current = .ok () := by
  rw [visitAlternatives_eq, hlookup] at h
  exact visit_of_indexed h hmem

theorem single_visited : forall keyword, keyword ∈ singleKeywords ->
    keyword ∈ visitedKeywords -> keyword = "items" := by
  decide

theorem named_visited : forall keyword, keyword ∈ namedKeywords ->
    keyword ∈ visitedKeywords -> keyword = "properties" ∨ keyword = "$defs" := by
  decide

theorem listed_visited : forall keyword, keyword ∈ listKeywords ->
    keyword ∈ visitedKeywords -> keyword = "allOf" ∨ keyword = "anyOf" ∨ keyword = "oneOf" := by
  decide

theorem visit_of_subschema {keyword : String} {child : Fields}
    (h : visitUnits schemaName (.obj fields) path current = .ok ())
    (hsub : Subschema fields keyword child) (hvisited : keyword ∈ visitedKeywords) :
    exists path' current', visitUnits schemaName (.obj child) path' current' = .ok () ∧
      (current' = none ∨ current' = nearestObject fields current) := by
  rcases parts_of_visit h with
    ⟨_, _, _, hproperties, hitems, hallOf, hanyOf, honeOf, hdefs⟩
  cases hsub with
  | single hkeyword hlookup =>
      obtain rfl := single_visited keyword hkeyword hvisited
      rw [visitItems_eq, hlookup] at hitems
      exact ⟨_, _, hitems, Or.inr rfl⟩
  | named hkeyword hlookup hmem =>
      rcases named_visited keyword hkeyword hvisited with rfl | rfl
      · rcases visit_of_named hproperties hlookup hmem with ⟨path', hchild⟩
        exact ⟨path', _, hchild, Or.inr rfl⟩
      · rcases visit_of_named hdefs hlookup hmem with ⟨path', hchild⟩
        exact ⟨path', _, hchild, Or.inl rfl⟩
  | listed hkeyword hlookup hmem =>
      rcases listed_visited keyword hkeyword hvisited with rfl | rfl | rfl
      · rcases visit_of_listed hallOf hlookup hmem with ⟨path', hchild⟩
        exact ⟨path', _, hchild, Or.inr rfl⟩
      · rcases visit_of_listed hanyOf hlookup hmem with ⟨path', hchild⟩
        exact ⟨path', _, hchild, Or.inr rfl⟩
      · rcases visit_of_listed honeOf hlookup hmem with ⟨path', hchild⟩
        exact ⟨path', _, hchild, Or.inr rfl⟩

end

theorem visit_of_located {schema : Json} {schemaName : String} {visited : Bool}
    {fields : Fields} {enclosing : Option Fields}
    (h : validateCapabilityUnits schema schemaName = .ok ())
    (hlocated : Located schema visited fields enclosing) (hvisited : visited = true) :
    exists path current, visitUnits schemaName (.obj fields) path current = .ok () ∧
      (current = none ∨ current = enclosing) := by
  induction hlocated with
  | root hroot =>
      subst hroot
      exact ⟨_, _, h, Or.inl rfl⟩
  | @under visited fields child enclosing keyword _ hsub ih =>
      rw [Bool.and_eq_true] at hvisited
      rcases ih hvisited.1 with ⟨path, current, hvisit, hcurrent⟩
      have hkeyword : keyword ∈ visitedKeywords := by simpa using hvisited.2
      rcases visit_of_subschema hvisit hsub hkeyword with ⟨path', current', hchild, hsame⟩
      refine ⟨path', current', hchild, ?_⟩
      rcases hsame with hnone | rfl
      · exact Or.inl hnone
      · unfold nearestObject
        split_ifs
        · exact Or.inr rfl
        · exact hcurrent

/-- The node declares a unit if it is numeric, and has a frame if its unit is spatial. -/
def Obeys (fields : Fields) (enclosing : Option Fields) : Prop :=
  (isNumeric fields = true -> HasUnit roboticsSiUnits fields) ∧
    (isSpatial fields -> HasFrame enclosing)

/-- What the validator does not see to: nodes that no visited keywords lead to, spatial units
of nodes that are not numeric, and a `required` that is no list. -/
def ObeysUnchecked (visited : Bool) (fields : Fields) (enclosing : Option Fields) : Prop :=
  (visited = false -> isNumeric fields = true -> HasUnit roboticsSiUnits fields) ∧
    (isSpatial fields -> RequiresListed enclosing ∧
      (visited = false ∨ isNumeric fields = false -> HasFrame enclosing))

theorem requiresListed_of_hasFrame {enclosing : Option Fields} (h : HasFrame enclosing) :
    RequiresListed enclosing := by
  rcases h with ⟨object, _, names, _, _, rfl, _, hnames, _⟩
  intro other hother
  cases hother
  exact ⟨names, hnames⟩

/-- In an accepted schema every node obeys the rules just if those do that the validator does
not check. -/
theorem units_everywhere_iff {schema : Json} {schemaName : String}
    (h : validateCapabilityUnits schema schemaName = .ok ()) :
    (forall visited fields enclosing, Located schema visited fields enclosing ->
      Obeys fields enclosing) <->
      forall visited fields enclosing, Located schema visited fields enclosing ->
        ObeysUnchecked visited fields enclosing := by
  constructor
  · intro hall visited fields enclosing hlocated
    rcases hall visited fields enclosing hlocated with ⟨hunit, hframe⟩
    exact ⟨fun _ => hunit, fun hspatial =>
      ⟨requiresListed_of_hasFrame (hframe hspatial), fun _ => hframe hspatial⟩⟩
  · intro hall visited fields enclosing hlocated
    rcases hall visited fields enclosing hlocated with ⟨hunit, hframe⟩
    cases visited with
    | false => exact ⟨hunit rfl, fun hspatial => (hframe hspatial).2 (Or.inl rfl)⟩
    | true =>
        rcases visit_of_located h hlocated rfl with ⟨path, current, hvisit, hcurrent⟩
        rcases parts_of_visit hvisit with ⟨types, htypes, hcheck, _⟩
        have hrules := rules_of_checkNode htypes hcheck
        refine ⟨fun hnumeric => (hrules hnumeric).1, ?_⟩
        intro hspatial
        rcases hframe hspatial with ⟨hlisted, hother⟩
        cases hnumeric : isNumeric fields with
        | false => exact hother (Or.inr hnumeric)
        | true =>
            rcases (hrules hnumeric).2 hspatial with ⟨object, hobject, hnamed⟩
            rcases hcurrent with hnone | hsame
            · rw [hobject] at hnone
              cases hnone
            · rw [← hsame, hobject] at hlisted ⊢
              exact hasFrame_of_namesFrame hnamed hlisted

def framedDistance : Json :=
  .obj [("type", .str "object"),
    ("x-ump-frame-field", .str "frame_id"),
    ("required", .arr [.str "distance", .str "frame_id"]),
    ("properties", .obj
      [("distance", .obj [("type", .str "number"), ("x-ump-unit", .str "m")]),
        ("frame_id", .obj [("type", .str "string")])])]

theorem units_everywhere_in_framedDistance :
    (forall visited fields enclosing, Located framedDistance visited fields enclosing ->
      Obeys fields enclosing) <->
      forall visited fields enclosing, Located framedDistance visited fields enclosing ->
        ObeysUnchecked visited fields enclosing :=
  units_everywhere_iff
    (rfl : validateCapabilityUnits framedDistance "capability input schema" = .ok ())

def patternedNumbers : Json :=
  .obj [("type", .str "object"),
    ("patternProperties", .obj [("^distance", .obj [("type", .str "number")])])]

theorem patterned_numbers_accepted :
    validateCapabilityUnits patternedNumbers "capability input schema" = .ok () ∧
      exists visited fields enclosing, Located patternedNumbers visited fields enclosing ∧
        isNumeric fields = true ∧ ¬ HasUnit roboticsSiUnits fields := by
  refine ⟨rfl, _, [("type", .str "number")], _, .under (.root rfl)
    (.named (by decide : "patternProperties" ∈ namedKeywords) rfl List.mem_cons_self), rfl, ?_⟩
  rintro ⟨unit, _, hunit⟩
  cases hunit

end Ump.Registry
