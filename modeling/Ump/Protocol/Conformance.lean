import Ump.Coordinator.Collaboration
import Ump.Protocol.Arguments
import Ump.Protocol.PublishedSchema

/-!
# Published envelopes and the published schema

## Texts and numbers

The dataclasses bound the UTF-8 bytes of a text and the schema its characters, of which
there are no more. So each bound of the schema that is no smaller than the one of the code
holds of every built value.
-/

namespace Ump

open Schema

theorem length_le_byteSize (text : Text) : text.length ≤ Text.byteSize text := by
  induction text with
  | nil => exact Nat.le_refl 0
  | cons c rest ih =>
      have hpos := Char.utf8Size_pos c
      rw [Text.byteSize_cons, List.length_cons]
      omega

theorem length_of_requiredText {text fieldName : String} {maximum : Nat}
    (h : requiredText text fieldName maximum = .ok ()) :
    1 ≤ text.length ∧ text.length ≤ maximum := by
  have hbytes := length_le_byteSize text.toList
  rw [String.length_toList] at hbytes
  unfold requiredText at h
  split_ifs at h with hbad
  rw [Bool.or_eq_true, not_or, decide_eq_true_eq, not_lt] at hbad
  refine ⟨?_, hbytes.trans hbad.2⟩
  by_contra hempty
  have hzero : text.length = 0 := by omega
  rw [← String.length_toList, List.length_eq_zero_iff] at hzero
  rw [hzero] at hbad
  exact hbad.1 rfl

namespace Schema

theorem valid_textSchema (maximum : Nat) (text : String) :
    (textSchema maximum).valid (.str text) =
      (decide (1 ≤ text.length) && decide (text.length ≤ maximum)) := by
  simp [textSchema, typed, valid, validAll, Keyword.holds, TypeName.holds, Keyword.onText]

theorem valid_text {text fieldName : String} {bound maximum : Nat}
    (h : requiredText text fieldName bound = .ok ()) (hle : bound ≤ maximum) :
    (textSchema maximum).valid (.str text) = true := by
  have hlength := length_of_requiredText h
  rw [valid_textSchema, decide_eq_true hlength.1, decide_eq_true (hlength.2.trans hle)]
  rfl

theorem valid_longText {text fieldName : String} {bound : Nat} (maximum : Nat)
    (h : requiredText text fieldName bound = .ok ()) :
    (textSchema maximum).valid (.str text) = decide (text.length ≤ maximum) := by
  have hlength := length_of_requiredText h
  rw [valid_textSchema, decide_eq_true hlength.1]
  rfl

theorem valid_objectSchema (required : List String) (properties : List (String × Schema))
    (fields : List (String × Json)) :
    (objectSchema required properties).valid (.obj fields) =
      (required.all (fun name => (fields.lookup name).isSome) &&
        validProperties properties fields) := by
  simp [objectSchema, typed, valid, validAll, Keyword.holds, TypeName.holds, Json.isObject,
    Keyword.onMembers]

theorem valid_closedSchema (required : List String) (properties : List (String × Schema))
    (fields : List (String × Json)) :
    (closedSchema required properties).valid (.obj fields) =
      (required.all (fun name => (fields.lookup name).isSome) &&
        validProperties properties fields &&
        fields.all (fun member => (properties.map Prod.fst).contains member.1)) := by
  simp [closedSchema, typed, valid, validAll, Keyword.holds, TypeName.holds, Json.isObject,
    Keyword.onMembers, Bool.and_assoc]

theorem valid_enum (texts : List String) (text : String) :
    (enum texts).valid (.str text) = texts.contains text := by
  unfold enum
  rw [valid]
  show texts.any (fun other => text == other) = _
  induction texts with
  | nil => rfl
  | cons head rest ih =>
      rw [List.any_cons, List.contains_cons, ih]

def isOneOf (texts : List String) : Json -> Bool
  | .str s => texts.contains s
  | _ => false

theorem valid_enum_value (texts : List String) (value : Json) :
    (enum texts).valid value = isOneOf texts value := by
  cases value with
  | str s => exact valid_enum texts s
  | _ => simp [enum, valid, Keyword.holds, Json.isText, isOneOf]

theorem valid_typed_object (value : Json) :
    (typed [.object]).valid value = value.isObject := by
  simp [typed, valid, Keyword.holds, TypeName.holds]

theorem valid_identifiersSchema {texts : List String} {fieldName : String}
    (h : checkAll (fun text => identifier text fieldName) texts = .ok ()) :
    identifiersSchema.valid (.strings texts) =
      (decide (texts.length ≤ 256) && decide texts.Nodup) := by
  have hitems : (texts.map Json.str).all (textSchema 128).valid = true := by
    rw [List.all_map, List.all_eq_true]
    intro text htext
    exact valid_text (checkAll_eq_ok h _ htext) (Nat.le_refl 128)
  have hunique := uniqueItems_strings texts
  unfold identifiersSchema typed
  rw [valid, validAll, validAll, validAll, validAll, validAll, valid, valid, valid, valid,
    hunique]
  unfold Json.strings
  simp [Keyword.holds, TypeName.holds, Keyword.onItems, hitems]

theorem all_valid_map {value : Type} {schema : Schema} {encode : value -> Json}
    {within : value -> Bool} {items : List value}
    (h : forall item, item ∈ items -> schema.valid (encode item) = within item) :
    (items.map encode).all schema.valid = items.all within := by
  rw [List.all_map, Bool.eq_iff_iff, List.all_eq_true, List.all_eq_true]
  apply forall₂_congr
  intro item hitem
  rw [Function.comp_apply, h item hitem]

/-!
### Numbers
-/

theorem magnitude_of_number {value : Json} {n : Rat} (h : value.number = .ok n)
    (hbool : value.isBool = false) : value.magnitude = some n := by
  cases value with
  | int m =>
      cases h
      rfl
  | float m digits =>
      cases h
      rfl
  | bool b => cases hbool
  | null => cases h
  | str s => cases h
  | arr items => cases h
  | obj fields => cases h

theorem magnitude_isSome {value : Json} {n : Rat} (h : value.number = .ok n) :
    value.magnitude.isSome = !value.isBool := by
  cases value with
  | int m => rfl
  | float m digits => rfl
  | bool b => rfl
  | null => cases h
  | str s => cases h
  | arr items => cases h
  | obj fields => cases h

theorem onNumber_of_number {value : Json} {n : Rat} {holds : Rat -> Bool}
    (h : value.number = .ok n) (hholds : holds n = true) :
    Keyword.onNumber holds value = true := by
  unfold Keyword.onNumber
  cases hbool : value.isBool with
  | true =>
      cases value with
      | bool b => rfl
      | _ => cases hbool
  | false => rw [magnitude_of_number h hbool, Option.all_some, hholds]

theorem valid_range {value : Json} {n : Rat} {names : List TypeName} {low high : Int}
    (h : value.number = .ok n) (hlow : (low : Rat) ≤ n) (hhigh : n ≤ (high : Rat)) :
    (Schema.allOf [typed names, .keyword (.minimum low), .keyword (.maximum high)]).valid value =
      names.any (fun name => name.holds value) := by
  have hminimum : Keyword.onNumber (fun n => decide ((low : Rat) ≤ n)) value = true :=
    onNumber_of_number h (decide_eq_true hlow)
  have hmaximum : Keyword.onNumber (fun n => decide (n ≤ (high : Rat))) value = true :=
    onNumber_of_number h (decide_eq_true hhigh)
  unfold typed
  simp only [valid, validAll, Keyword.holds, hminimum, hmaximum, Bool.and_true]

theorem valid_timeSchema {value : Json} {n : Rat} (h : value.number = .ok n) (hle : 0 ≤ n) :
    timeSchema.valid value = value.isInteger := by
  have hminimum : Keyword.onNumber (fun n => decide (((0 : Int) : Rat) ≤ n)) value = true :=
    onNumber_of_number h (decide_eq_true (by simpa using hle))
  unfold timeSchema typed
  rw [valid, validAll, validAll, validAll, valid, valid]
  simp only [Keyword.holds, hminimum]
  simp [TypeName.holds]

theorem valid_nullableTimeSchema {value : Json} {n : Option Rat} (h : value.number? = .ok n)
    (hle : forall bound, n = some bound -> 0 ≤ bound) :
    nullableTimeSchema.valid value = (value.isInteger || value.isNull) := by
  have hminimum : Keyword.onNumber (fun n => decide (((0 : Int) : Rat) ≤ n)) value = true := by
    cases hnull : value.isNull with
    | true =>
        cases value with
        | null => rfl
        | _ => cases hnull
    | false =>
        have hread : exists bound, value.number = .ok bound ∧ n = some bound := by
          cases value with
          | null => cases hnull
          | int m => exact ⟨m, rfl, by cases h; rfl⟩
          | float m digits => exact ⟨m, rfl, by cases h; rfl⟩
          | bool b => exact ⟨_, rfl, by cases h; rfl⟩
          | str s => cases h
          | arr items => cases h
          | obj fields => cases h
        rcases hread with ⟨bound, hnumber, hsome⟩
        exact onNumber_of_number hnumber (decide_eq_true (by simpa using hle bound hsome))
  unfold nullableTimeSchema typed
  rw [valid, validAll, validAll, validAll, valid, valid]
  simp only [Keyword.holds, hminimum]
  simp [TypeName.holds]

theorem valid_nullableTimeSchema_optional {n : Option Int} (h : forall m, n = some m -> 0 ≤ m) :
    nullableTimeSchema.valid (.optional .int n) = true := by
  cases n with
  | none => rfl
  | some m =>
      have hle : (0 : Rat) ≤ m := by exact_mod_cast h m rfl
      simp [nullableTimeSchema, typed, valid, validAll, Keyword.holds, TypeName.holds,
        Json.optional, Json.isInteger, Keyword.onNumber, Json.magnitude, hle]

end Schema

/-!
## What the constructors leave open

For each kind of message, the rules of the schema that no constructor checks.
-/

namespace Registry

theorem number_of_finite {value : Json} {n : Rat} (h : finite value = .ok n) :
    value.number = .ok n := by
  rcases bind_eq_ok.mp h with ⟨m, hnumber, h⟩
  split_ifs at h
  cases h
  exact hnumber

theorem finiteAll_number {items : List Json} {values : List Rat}
    (h : finiteAll items = .ok values) {item : Json} (hitem : item ∈ items) :
    exists n, item.number = .ok n := by
  induction items generalizing values with
  | nil => cases hitem
  | cons head rest ih =>
      rcases bind_eq_ok.mp h with ⟨n, hhead, h⟩
      rcases bind_eq_ok.mp h with ⟨ns, hrest, _⟩
      rcases List.mem_cons.mp hitem with rfl | hmem
      · exact ⟨n, number_of_finite hhead⟩
      · exact ih hrest hmem

theorem BatteryState.level_of_check {level : Json} (h : BatteryState.checkLevel level = .ok ())
    (hnull : level.isNull = false) :
    exists n, level.number = .ok n ∧ 0 ≤ n ∧ n ≤ 1 := by
  unfold BatteryState.checkLevel at h
  split at h
  · cases hnull
  · rcases bind_eq_ok.mp h with ⟨n, hfinite, hrange⟩
    have hbounds := refuseWhen_eq_ok hrange
    rw [Bool.not_eq_false', decide_eq_true_eq] at hbounds
    exact ⟨n, number_of_finite hfinite, hbounds⟩

/-- An entry of a quaternion; the norm alone, with its tolerance, does not bound it. -/
def isUnitNumber (value : Json) : Bool :=
  value.magnitude.any (fun n => decide (-1 ≤ n) && decide (n ≤ 1))

def PoseReference.withinSchema (pose : PoseReference) : Bool :=
  pose.positionM.all (fun value => !value.isBool) && pose.orientationXyzw.all isUnitNumber &&
    pose.observedAtMs.isInteger

theorem PoseReference.numbers_of_check {library : Library} {pose : PoseReference}
    (h : pose.check library = .ok ()) :
    matchesFrameId pose.frameId = true ∧ pose.positionM.length = 3 ∧
      pose.orientationXyzw.length = 4 ∧
      (forall value, value ∈ pose.positionM -> exists n, value.number = .ok n) ∧
      (exists n, pose.observedAtMs.number = .ok n ∧ 0 ≤ n) := by
  unfold PoseReference.check at h
  rcases bind_eq_ok.mp h with ⟨_, hframe, h⟩
  dsimp only at h
  by_cases hthree : pose.positionM.length = 3
  · rw [if_pos hthree] at h
    rcases bind_eq_ok.mp h with ⟨_, hposition, h⟩
    by_cases hfour : pose.orientationXyzw.length = 4
    · rw [if_pos hfour] at h
      rcases bind_eq_ok.mp h with ⟨_, _, h⟩
      rcases bind_eq_ok.mp h with ⟨_, _, h⟩
      rcases bind_eq_ok.mp h with ⟨n, hobserved, hnegative⟩
      have hmatches := refuseWhen_eq_ok hframe
      have hle := decide_eq_false_iff_not.mp (refuseWhen_eq_ok hnegative)
      rw [Bool.not_eq_false'] at hmatches
      exact ⟨hmatches, hthree, hfour, fun value hvalue => finiteAll_number hposition hvalue,
        n, hobserved, Rat.not_lt.mp hle⟩
    · rw [if_neg hfour] at h
      cases h
  · rw [if_neg hthree] at h
    cases h

theorem valid_poseReference {library : Library} {pose : PoseReference}
    (h : pose.check library = .ok ()) :
    Schema.poseReference.valid pose.payload = pose.withinSchema := by
  rcases PoseReference.numbers_of_check h with
    ⟨hframe, hthree, hfour, hposition, n, hobserved, hle⟩
  have hframeId : (Schema.allOf [Schema.typed [.string],
      .keyword (.pattern matchesFrameId)]).valid (.str pose.frameId) = true := by
    simp [Schema.typed, valid, validAll, Keyword.holds, TypeName.holds, Keyword.onText, hframe]
  have hnumbers : pose.positionM.all (Schema.typed [.number]).valid =
      pose.positionM.all (fun value => !value.isBool) := by
    rw [Bool.eq_iff_iff, List.all_eq_true, List.all_eq_true]
    apply forall₂_congr
    intro value hvalue
    rcases hposition value hvalue with ⟨m, hnumber⟩
    simp [Schema.typed, valid, Keyword.holds, TypeName.holds, magnitude_isSome hnumber]
  have hunits : pose.orientationXyzw.all (Schema.allOf [Schema.typed [.number],
      .keyword (.minimum (-1)), .keyword (.maximum 1)]).valid =
      pose.orientationXyzw.all isUnitNumber := by
    congr 1
    funext value
    unfold isUnitNumber Schema.typed
    cases hvalue : value.magnitude with
    | none => simp [valid, validAll, Keyword.holds, TypeName.holds, hvalue]
    | some m =>
        simp [valid, validAll, Keyword.holds, TypeName.holds, Keyword.onNumber, hvalue]
  have hpositionM : (Schema.allOf [Schema.typed [.array], .keyword (.minItems 3),
      .keyword (.maxItems 3), .items (Schema.typed [.number])]).valid (.arr pose.positionM) =
      pose.positionM.all (fun value => !value.isBool) := by
    simp only [valid, validAll, Keyword.onItems, hnumbers]
    simp [Schema.typed, valid, Keyword.holds, TypeName.holds, Keyword.onItems, hthree]
  have horientation : (Schema.allOf [Schema.typed [.array], .keyword (.minItems 4),
      .keyword (.maxItems 4), .items (Schema.allOf [Schema.typed [.number],
        .keyword (.minimum (-1)), .keyword (.maximum 1)])]).valid (.arr pose.orientationXyzw) =
      pose.orientationXyzw.all isUnitNumber := by
    rw [valid, validAll, validAll, validAll, validAll, validAll, valid, valid, valid]
    simp only [Keyword.onItems, hunits]
    simp [Schema.typed, valid, Keyword.holds, TypeName.holds, Keyword.onItems, hfour]
  unfold Schema.poseReference PoseReference.payload PoseReference.withinSchema
  rw [valid_objectSchema]
  simp [validProperties, List.lookup_cons, hframeId, hpositionM, horientation,
    valid_timeSchema hobserved hle, Bool.and_assoc]

/-- The scheme that `urlsplit` finds need not be one of the schema's pattern. -/
def SensorReference.withinSchema (reference : SensorReference) : Bool :=
  matchesUri reference.uri && reference.observedAtMs.isInteger &&
    (reference.expiresAtMs.isInteger || reference.expiresAtMs.isNull)

theorem matchesDigest_of_checkDigest {sha256 : String}
    (h : SensorReference.checkDigest sha256 = .ok ()) : matchesDigest sha256 = true := by
  rcases bind_eq_ok.mp h with ⟨_, hshape, hlower⟩
  have hdigits := refuseWhen_eq_ok hshape
  have hsame := decide_eq_false_iff_not.mp (refuseWhen_eq_ok hlower)
  rw [not_not] at hsame
  rw [← hsame, Bool.or_eq_false_iff, Bool.not_eq_false', Bool.not_eq_false',
    String.length_toList] at hdigits
  unfold matchesDigest
  rw [hdigits.1, hdigits.2]
  rfl

theorem SensorReference.parts_of_check {library : Library} {reference : SensorReference}
    (h : reference.check library = .ok ()) :
    (1 ≤ reference.uri.length ∧ reference.uri.length ≤ 2048) ∧
      matchesMediaType reference.mediaType = true ∧
      (0 ≤ reference.byteLength ∧ reference.byteLength < 2 ^ 63) ∧
      matchesDigest reference.sha256 = true ∧
      (exists n, reference.observedAtMs.number = .ok n ∧ 0 ≤ n ∧
        exists expires, reference.expiresAtMs.number? = .ok expires ∧
          forall bound, expires = some bound -> 0 ≤ bound) ∧
      (forall frameId, reference.frameId = some frameId -> matchesFrameId frameId = true) := by
  unfold SensorReference.check at h
  rcases bind_eq_ok.mp h with ⟨_, huri, h⟩
  rcases bind_eq_ok.mp h with ⟨_, _, h⟩
  rcases bind_eq_ok.mp h with ⟨_, _, h⟩
  rcases bind_eq_ok.mp h with ⟨_, hmedia, h⟩
  rcases bind_eq_ok.mp h with ⟨_, hbytes, h⟩
  rcases bind_eq_ok.mp h with ⟨_, hdigest, h⟩
  rcases bind_eq_ok.mp h with ⟨n, hobserved, h⟩
  rcases bind_eq_ok.mp h with ⟨_, hnegative, h⟩
  rcases bind_eq_ok.mp h with ⟨expires, hexpires, h⟩
  rcases bind_eq_ok.mp h with ⟨_, horder, hframe⟩
  have hsize := refuseWhen_eq_ok huri
  have hlength := length_le_byteSize reference.uri.toList
  have hle : (0 : Rat) ≤ n :=
    Rat.not_lt.mp (decide_eq_false_iff_not.mp (refuseWhen_eq_ok hnegative))
  rw [Bool.or_eq_false_iff, decide_eq_false_iff_not, Nat.not_lt] at hsize
  rw [String.length_toList] at hlength
  refine ⟨⟨?_, hlength.trans hsize.2⟩, ?_, ?_, matchesDigest_of_checkDigest hdigest,
    ⟨n, hobserved, hle, expires, hexpires, ?_⟩, ?_⟩
  · have hne := String.isEmpty_eq_false_iff.mp hsize.1
    exact Nat.pos_of_ne_zero (fun hzero => hne (String.length_eq_zero_iff.mp hzero))
  · have hmatches := refuseWhen_eq_ok hmedia
    rwa [Bool.not_eq_false'] at hmatches
  · have hrange := refuseWhen_eq_ok hbytes
    rwa [Bool.not_eq_false', decide_eq_true_eq] at hrange
  · rintro bound rfl
    have hlate := refuseWhen_eq_ok horder
    unfold PlanStep.given at hlate
    exact Rat.le_trans hle (Rat.not_lt.mp (decide_eq_false_iff_not.mp hlate))
  · intro frameId hsome
    have hmatches := refuseWhen_eq_ok hframe
    rw [hsome, Option.any_some, Bool.not_eq_false'] at hmatches
    exact hmatches

theorem valid_sensorReference {library : Library} {reference : SensorReference}
    (h : reference.check library = .ok ()) :
    Schema.sensorReference.valid reference.payload = reference.withinSchema := by
  rcases SensorReference.parts_of_check h with
    ⟨huri, hmedia, hbytes, hdigest, ⟨n, hobserved, hle, expires, hexpires, hbound⟩, hframe⟩
  have huriSchema : (Schema.allOf [Schema.typed [.string], .keyword (.minLength 1),
      .keyword (.maxLength 2048), .keyword (.pattern matchesUri)]).valid
      (.str reference.uri) = matchesUri reference.uri := by
    simp [Schema.typed, valid, validAll, Keyword.holds, TypeName.holds, Keyword.onText, huri.2]
    exact fun _ => huri.1
  have hpattern : forall (found : String -> Bool) (text : String), found text = true ->
      (Schema.allOf [Schema.typed [.string], .keyword (.pattern found)]).valid (.str text) =
        true := by
    intro found text hfound
    simp [Schema.typed, valid, validAll, Keyword.holds, TypeName.holds, Keyword.onText, hfound]
  have hlength : (Schema.allOf [Schema.typed [.integer], .keyword (.minimum 0),
      .keyword (.maximum 9223372036854775807)]).valid (.int reference.byteLength) = true := by
    have hhigh : reference.byteLength ≤ 9223372036854775807 := by omega
    rw [@valid_range (.int reference.byteLength) reference.byteLength _ _ _ rfl
      (Rat.intCast_le_intCast.mpr hbytes.1) (Rat.intCast_le_intCast.mpr hhigh)]
    rfl
  have hframeSchema : (Schema.allOf [Schema.typed [.string, .null],
      .keyword (.pattern matchesFrameId)]).valid (.optional .str reference.frameId) = true := by
    cases hsome : reference.frameId with
    | none => rfl
    | some frameId =>
        simp [Json.optional, Schema.typed, valid, validAll, Keyword.holds, TypeName.holds,
          Keyword.onText, hframe frameId hsome]
  unfold Schema.sensorReference SensorReference.payload SensorReference.withinSchema
  rw [valid_objectSchema]
  simp [validProperties, List.lookup_cons, huriSchema, hpattern _ _ hmedia, hpattern _ _ hdigest,
    hlength, hframeSchema, valid_timeSchema hobserved hle,
    valid_nullableTimeSchema hexpires hbound, Bool.and_assoc]

def isTextUpTo (maximum : Nat) : Json -> Bool
  | .str s => decide (s.length ≤ maximum)
  | _ => false

theorem valid_assignmentId (value : Json) :
    (Schema.allOf [Schema.typed [.string, .null], .keyword (.maxLength 128)]).valid value =
      (isTextUpTo 128 value || value.isNull) := by
  cases value <;> simp [Schema.typed, valid, validAll, Keyword.holds, TypeName.holds,
    Keyword.onText, isTextUpTo, Json.isNull]

theorem nodup_of_refuseWhen {texts : List String} {text : String}
    (h : refuseWhen (hasRepeats texts) text = .ok ()) : texts.Nodup := by
  have hrepeats := refuseWhen_eq_ok h
  unfold hasRepeats at hrepeats
  rwa [Bool.not_eq_false', decide_eq_true_eq] at hrepeats

end Registry

/-!
### Goals
-/

theorem valid_optionalText {text : Option String} {fieldName : String}
    (h : forall t, text = some t -> identifier t fieldName = .ok ()) :
    (Schema.allOf [typed [.string, .null], .keyword (.minLength 1),
      .keyword (.maxLength 128)]).valid (.optional .str text) = true := by
  cases hsome : text with
  | none => rfl
  | some t =>
      have hlength := length_of_requiredText (h t hsome)
      unfold maxIdBytes at hlength
      simp [Json.optional, typed, valid, validAll, Keyword.holds, TypeName.holds, Keyword.onText,
        hlength.1, hlength.2]

theorem valid_sharedGoal {goal : SharedGoal} (h : goal.check = .ok ()) :
    Schema.sharedGoal.valid goal.payload = true := by
  unfold SharedGoal.check at h
  rcases bind_eq_ok.mp h with ⟨_, hgoalId, h⟩
  rcases bind_eq_ok.mp h with ⟨_, hdescription, h⟩
  rcases bind_eq_ok.mp h with ⟨_, hcount, h⟩
  rcases bind_eq_ok.mp h with ⟨_, hunique, h⟩
  rcases bind_eq_ok.mp h with ⟨_, hids, h⟩
  have hlengths := refuseWhen_eq_ok hcount
  rw [Bool.not_eq_false', decide_eq_true_eq] at hlengths
  split_ifs at h with hobject
  have hdeadline : nullableTimeSchema.valid (.optional .int goal.deadlineMs) = true := by
    apply valid_nullableTimeSchema_optional
    intro m hm
    rw [hm] at h
    exact Int.not_lt.mp (decide_eq_false_iff_not.mp (refuseWhen_eq_ok h))
  have hparticipants : (Schema.allOf [typed [.array], .keyword (.minItems 1),
      .keyword (.maxItems 256), .keyword .uniqueItems, .items (textSchema 128)]).valid
      (.strings goal.participantIds) = true := by
    have hitems : (goal.participantIds.map Json.str).all (textSchema 128).valid = true := by
      rw [List.all_map, List.all_eq_true]
      intro text htext
      exact valid_text (checkAll_eq_ok hids _ htext) (Nat.le_refl 128)
    rw [valid, validAll, validAll, validAll, validAll, validAll, validAll, valid, valid, valid,
      valid, uniqueItems_strings, decide_eq_true (Registry.nodup_of_refuseWhen hunique)]
    unfold Json.strings
    simp [typed, valid, Keyword.holds, TypeName.holds, Keyword.onItems, hitems, hlengths.2]
    exact hlengths.1
  unfold Schema.sharedGoal SharedGoal.payload
  rw [valid_objectSchema]
  simp [validProperties, List.lookup_cons, valid_text hgoalId (Nat.le_refl 128),
    valid_text hdescription (Nat.le_refl 4096), hparticipants, valid_typed_object, hobject,
    hdeadline]

/-!
### Parts and iterables
-/

theorem bound_of_given {bound : Option Rat} {text : String}
    (h : refuseWhen (PlanStep.given bound (fun ms => decide (ms < 0))) text = .ok ()) :
    forall ms, bound = some ms -> 0 ≤ ms := by
  rintro ms rfl
  exact Rat.not_lt.mp (decide_eq_false_iff_not.mp (refuseWhen_eq_ok h))

namespace Given

open Registry (Library PoseReference SensorReference BatteryStatus isTextUpTo)

/-- A list keeps the rule; nothing else is a list of the schema. -/
def Iterable.within {element : Type} (rule : List element -> Bool) : Iterable element -> Bool
  | items elements => rule elements
  | other _ _ _ => false

/-- An instance keeps the rule of its model; any other value has to satisfy the definition of
the schema itself. -/
def Part.within {model : Type} (rule : model -> Bool) (schema : Schema) : Part model -> Bool
  | built value => rule value
  | other value => schema.valid value

theorem Part.valid_payload {schema : Schema} {encode : model -> Json} {rule : model -> Bool}
    {part : Part model}
    (h : forall value, part = .built value -> schema.valid (encode value) = rule value) :
    schema.valid (part.payload encode) = part.within rule schema := by
  cases part with
  | built value => exact h value rfl
  | other value => rfl

theorem Iterable.valid_payload {keywords : List Schema} {encode : element -> Json}
    {rule : List element -> Bool} {iterable : Iterable element}
    (h : (Schema.allOf (typed [.array] :: keywords)).valid
      (.arr (iterable.elements.map encode)) = rule iterable.elements) :
    (Schema.allOf (typed [.array] :: keywords)).valid (iterable.payload encode) =
      iterable.within rule := by
  cases iterable with
  | items elements => exact h
  | other elements value notArray =>
      have hno : (typed [.array]).valid value = false := by
        cases value with
        | arr items => exact absurd rfl (notArray items)
        | _ => rfl
      show (Schema.allOf (typed [.array] :: keywords)).valid value = false
      rw [valid, validAll, hno, Bool.false_and]

theorem Part.check_built {checkModel : model -> Except Exn Unit} {part : Part model}
    (h : part.check checkModel = .ok ()) {value : model} (hbuilt : part = .built value) :
    checkModel value = .ok () := by
  rw [hbuilt] at h
  exact h

def areIdentifiers (texts : List String) : Bool :=
  decide (texts.length ≤ 256) && decide texts.Nodup

theorem valid_identifiers {texts : Iterable String} {fieldName : String}
    (h : checkAll (fun text => identifier text fieldName) texts.elements = .ok ()) :
    identifiersSchema.valid (texts.payload .str) = texts.within areIdentifiers :=
  Iterable.valid_payload (valid_identifiersSchema h)

/-!
### Manifests
-/

/-- The schema wants a name in lower case with ASCII digits, two objects and an availability
of its own. -/
def Capability.withinSchema (capability : Capability) : Bool :=
  matchesCapability capability.name && capability.inputSchema.isObject &&
    capability.outputSchema.isObject &&
    isOneOf ["available", "busy", "degraded", "unavailable"] capability.availability

def RobotManifest.withinSchema (manifest : RobotManifest) : Bool :=
  decide (manifest.manufacturer.length ≤ 128) && decide (manifest.model.length ≤ 128) &&
    robotClasses.contains manifest.robotClass &&
    manifest.capabilities.within (fun capabilities =>
      decide (capabilities.length ≤ 256) && capabilities.all Capability.withinSchema)

theorem valid_capability {library : Library} {item : Capability}
    (h : item.check library = .ok ()) :
    Schema.capability.valid item.payload = item.withinSchema := by
  rcases bind_eq_ok.mp h with ⟨_, _, h⟩
  rcases bind_eq_ok.mp h with ⟨_, hdescription, _⟩
  have htext := valid_text hdescription (Nat.le_refl 1024)
  have hname : (Schema.allOf [typed [.string],
      .keyword (.pattern matchesCapability)]).valid (.str item.name) =
      matchesCapability item.name := by
    simp [typed, valid, validAll, Keyword.holds, TypeName.holds, Keyword.onText]
  unfold Schema.capability Capability.payload Capability.withinSchema
  rw [valid_objectSchema]
  simp only [validProperties, List.lookup_cons, List.lookup_nil, String.reduceBEq, htext, hname,
    valid_enum_value, valid_typed_object, List.all_cons, List.all_nil, Option.isSome_some,
    Bool.and_true, Bool.true_and, Bool.and_assoc]

theorem valid_robotManifest {library : Library} {manifest : RobotManifest}
    (h : manifest.check library = .ok ()) :
    Schema.robotManifest.valid manifest.payload = manifest.withinSchema := by
  rcases bind_eq_ok.mp h with ⟨_, hcapabilities, h⟩
  rcases bind_eq_ok.mp h with ⟨_, hrobotId, h⟩
  rcases bind_eq_ok.mp h with ⟨_, hmanufacturer, h⟩
  rcases bind_eq_ok.mp h with ⟨_, hmodel, _⟩
  have hid := valid_text hrobotId (Nat.le_refl 128)
  have hall : (manifest.capabilities.elements.map Capability.payload).all
      Schema.capability.valid = manifest.capabilities.elements.all Capability.withinSchema :=
    all_valid_map (fun item hitem =>
      valid_capability (checkAll_eq_ok hcapabilities _ hitem))
  have hitems : (Schema.allOf [typed [.array], .keyword (.maxItems 256),
      .items Schema.capability]).valid (manifest.capabilities.payload Capability.payload) =
      manifest.capabilities.within (fun capabilities =>
        decide (capabilities.length ≤ 256) && capabilities.all Capability.withinSchema) := by
    apply Iterable.valid_payload
    simp only [typed, valid, validAll, Keyword.holds, TypeName.holds, Keyword.onItems,
      hall, List.length_map, List.any_cons, List.any_nil, Bool.or_false, Bool.true_and,
      Bool.and_true]
  unfold Schema.robotManifest RobotManifest.payload RobotManifest.withinSchema
  rw [valid_objectSchema]
  simp only [validProperties, List.lookup_cons, List.lookup_nil, String.reduceBEq, hid,
    valid_longText 128 hmanufacturer, valid_longText 128 hmodel, valid_enum, hitems, List.all_cons,
    List.all_nil, Option.isSome_some, Bool.and_true, Bool.true_and, Bool.and_assoc]

/-!
### States
-/

/-- Python takes a boolean for a number, and no constructor looks at the status. -/
def BatteryState.withinSchema (battery : BatteryState) : Bool :=
  !battery.level.isBool &&
    battery.status.within (fun _ => true)
      (.enum ["charging", "discharging", "full", "not_present", "unknown"])

theorem valid_batteryState {battery : BatteryState} (h : battery.check = .ok ()) :
    Schema.batteryState.valid battery.payload = battery.withinSchema := by
  rcases bind_eq_ok.mp h with ⟨_, hlevel, h⟩
  rcases bind_eq_ok.mp h with ⟨_, hobserved, h⟩
  rcases bind_eq_ok.mp h with ⟨_, hruntime, _⟩
  have hstatus : (Schema.enum ["charging", "discharging", "full", "not_present",
      "unknown"]).valid (battery.status.payload (fun status => .str status.value)) =
      battery.status.within (fun _ => true)
        (.enum ["charging", "discharging", "full", "not_present", "unknown"]) := by
    apply Part.valid_payload
    intro status hbuilt
    cases status <;> rfl
  have htime : (0 : Rat) ≤ battery.observedAtMs := by
    have hle := decide_eq_false_iff_not.mp (refuseWhen_eq_ok hobserved)
    exact_mod_cast not_lt.mp hle
  have hobservedAt : timeSchema.valid (.int battery.observedAtMs) = true :=
    valid_timeSchema rfl htime
  have hestimated : nullableTimeSchema.valid (.optional .int battery.estimatedRuntimeS) =
      true := by
    apply valid_nullableTimeSchema_optional
    intro m hm
    have hany := refuseWhen_eq_ok hruntime
    rw [hm, Option.any_some, decide_eq_false_iff_not, not_lt] at hany
    exact hany
  have hlevelSchema : (Schema.allOf [typed [.number, .null], .keyword (.minimum 0),
      .keyword (.maximum 1)]).valid battery.level = !battery.level.isBool := by
    cases hnull : battery.level.isNull with
    | true =>
        cases hvalue : battery.level with
        | null => rfl
        | _ =>
            rw [hvalue] at hnull
            cases hnull
    | false =>
        rcases Registry.BatteryState.level_of_check hlevel hnull with ⟨n, hnumber, hlow, hhigh⟩
        rw [valid_range hnumber (by simpa using hlow) (by simpa using hhigh)]
        simp [TypeName.holds, magnitude_isSome hnumber, hnull]
  unfold Schema.batteryState BatteryState.payload BatteryState.withinSchema
  rw [valid_closedSchema]
  simp [validProperties, List.lookup_cons, hstatus, hobservedAt, hestimated, hlevelSchema]

/-- A list of at most 32 texts of at most 256 characters. -/
def areBlockers : Json -> Bool
  | .arr blockers => decide (blockers.length ≤ 32) && blockers.all (isTextUpTo 256)
  | _ => false

theorem valid_blockers (value : Json) :
    (Schema.allOf [typed [.array], .keyword (.maxItems 32),
      .items (.allOf [typed [.string], .keyword (.maxLength 256)])]).valid value =
      areBlockers value := by
  cases value with
  | arr blockers =>
      have hall : blockers.all (Schema.allOf [typed [.string],
          .keyword (.maxLength 256)]).valid = blockers.all (isTextUpTo 256) := by
        congr 1
        funext item
        cases item <;> simp [typed, valid, validAll, Keyword.holds, TypeName.holds,
          Keyword.onText, isTextUpTo]
      simp only [valid, validAll, Keyword.onItems] at hall ⊢
      rw [hall]
      simp [typed, valid, Keyword.holds, TypeName.holds, Keyword.onItems, areBlockers]
  | _ => rfl

/-- No constructor looks at the enumerations, the blockers or the assignment. -/
def RobotState.withinSchema (state : RobotState) : Bool :=
  isOneOf ["starting", "idle", "working", "waiting", "paused", "faulted", "offline"] state.mode &&
    isOneOf ["normal", "protective_stop", "emergency_stop", "recovery_required", "unknown"]
      state.safety &&
    isOneOf ["healthy", "degraded", "faulted", "unknown"] state.health &&
    !state.progress.isBool && state.freshForMs.isInteger && areBlockers state.blockers &&
    state.resources.within areIdentifiers &&
    (isTextUpTo 128 state.assignmentId || state.assignmentId.isNull) &&
    state.battery.within BatteryState.withinSchema (.oneOf [typed [.null], Schema.batteryState]) &&
    state.pose.within PoseReference.withinSchema (.oneOf [typed [.null], Schema.poseReference]) &&
    state.sensorReferences.within (fun references =>
      references.all SensorReference.withinSchema)

theorem valid_oneOf_null {schema : Schema} {value : Json} (h : schema.valid .null = false) :
    (Schema.oneOf [typed [.null], schema]).valid value = (value.isNull || schema.valid value) := by
  cases value with
  | null => simp [typed, valid, countValid, Keyword.holds, TypeName.holds, Json.isNull, h]
  | _ =>
      simp only [typed, valid, countValid, Keyword.holds, TypeName.holds, Json.isNull]
      cases schema.valid _ <;> rfl

theorem valid_robotState {library : Library} {state : RobotState}
    (h : state.check library = .ok ()) :
    Schema.robotState.valid state.payload = state.withinSchema := by
  rcases bind_eq_ok.mp h with ⟨_, hpose, h⟩
  rcases bind_eq_ok.mp h with ⟨_, hreferences, h⟩
  rcases bind_eq_ok.mp h with ⟨_, hbattery, hcheck⟩
  rcases bind_eq_ok.mp hcheck with ⟨_, hrobotId, hcheck⟩
  rcases bind_eq_ok.mp hcheck with ⟨_, hactivity, hcheck⟩
  rcases bind_eq_ok.mp hcheck with ⟨_, hintent, hcheck⟩
  rcases bind_eq_ok.mp hcheck with ⟨progress, hprogress, hcheck⟩
  rcases bind_eq_ok.mp hcheck with ⟨_, hfraction, hcheck⟩
  rcases bind_eq_ok.mp hcheck with ⟨_, hsummary, hcheck⟩
  rcases bind_eq_ok.mp hcheck with ⟨fresh, hfresh, hcheck⟩
  rcases bind_eq_ok.mp hcheck with ⟨_, hinterval, hcheck⟩
  rcases bind_eq_ok.mp hcheck with ⟨_, hunique, hcheck⟩
  rcases bind_eq_ok.mp hcheck with ⟨_, hresources, hcheck⟩
  rcases bind_eq_ok.mp hcheck with ⟨_, hcount, _⟩
  have hfractionBounds := refuseWhen_eq_ok hfraction
  have hintervalBounds := refuseWhen_eq_ok hinterval
  have hreferenceCount := decide_eq_false_iff_not.mp (refuseWhen_eq_ok hcount)
  rw [Bool.not_eq_false', decide_eq_true_eq] at hfractionBounds hintervalBounds
  have hlong : forall {text fieldName : String},
      requiredText text fieldName maxTextBytes = .ok () ->
      (Schema.allOf [typed [.string], .keyword (.maxLength 1024)]).valid (.str text) =
        true := by
    intro text fieldName htext
    have hlength := (length_of_requiredText htext).2
    unfold maxTextBytes at hlength
    simp [typed, valid, validAll, Keyword.holds, TypeName.holds, Keyword.onText, hlength]
  have hprogressSchema : (Schema.allOf [typed [.number], .keyword (.minimum 0),
      .keyword (.maximum 1)]).valid state.progress = !state.progress.isBool := by
    rw [valid_range hprogress (by simpa using hfractionBounds.1)
      (by simpa using hfractionBounds.2)]
    simp [TypeName.holds, magnitude_isSome hprogress]
  have hfreshSchema : (Schema.allOf [typed [.integer], .keyword (.minimum 1),
      .keyword (.maximum 60000)]).valid state.freshForMs = state.freshForMs.isInteger := by
    rw [valid_range hfresh (by simpa using hintervalBounds.1)
      (by simpa using hintervalBounds.2)]
    simp [TypeName.holds]
  have hbatterySchema : (Schema.oneOf [typed [.null], Schema.batteryState]).valid
      (state.battery.payload BatteryState.payload) =
      state.battery.within BatteryState.withinSchema
        (.oneOf [typed [.null], Schema.batteryState]) := by
    apply Part.valid_payload
    intro battery hbuilt
    rw [valid_oneOf_null rfl, valid_batteryState (Part.check_built hbattery hbuilt)]
    rfl
  have hposeSchema : (Schema.oneOf [typed [.null], Schema.poseReference]).valid
      (state.pose.payload PoseReference.payload) =
      state.pose.within PoseReference.withinSchema
        (.oneOf [typed [.null], Schema.poseReference]) := by
    apply Part.valid_payload
    intro pose hbuilt
    rw [valid_oneOf_null rfl, Registry.valid_poseReference (Part.check_built hpose hbuilt)]
    rfl
  have hreferencesSchema : (Schema.allOf [typed [.array], .keyword (.maxItems 32),
      .items Schema.sensorReference]).valid
      (state.sensorReferences.payload SensorReference.payload) =
      state.sensorReferences.within (fun references =>
        references.all SensorReference.withinSchema) := by
    have hall : (state.sensorReferences.elements.map SensorReference.payload).all
        Schema.sensorReference.valid =
        state.sensorReferences.elements.all SensorReference.withinSchema :=
      all_valid_map (fun reference hmem =>
        Registry.valid_sensorReference (checkAll_eq_ok hreferences _ hmem))
    have hlength : state.sensorReferences.elements.length ≤ 32 := Nat.not_lt.mp hreferenceCount
    apply Iterable.valid_payload
    simp only [typed, valid, validAll, Keyword.holds, TypeName.holds, Keyword.onItems,
      hall, List.length_map, List.any_cons, List.any_nil, Bool.or_false, Bool.true_and,
      Bool.and_true, decide_eq_true hlength]
  unfold Schema.robotState RobotState.payload RobotState.withinSchema
  rw [valid_objectSchema]
  simp only [validProperties, List.lookup_cons, List.lookup_nil, String.reduceBEq,
    valid_text hrobotId (Nat.le_refl 128), valid_enum_value, hlong hactivity, hlong hintent,
    hprogressSchema, hfreshSchema, valid_blockers, valid_identifiers hresources,
    Registry.valid_assignmentId, hbatterySchema, hposeSchema, hreferencesSchema,
    valid_text hsummary (Nat.le_refl 1024), List.all_cons, List.all_nil, Option.isSome_some,
    Bool.and_true, Bool.true_and]
  ac_rfl

/-!
### Plans
-/

/-- The constructor of a step takes any capability, any number of dependencies and resources,
dependencies that repeat, and any number for a time. -/
def PlanStep.withinSchema (step : PlanStep) : Bool :=
  matchesCapability step.capability && step.dependsOn.within areIdentifiers &&
    step.resources.within areIdentifiers &&
    (step.notBeforeMs.isInteger || step.notBeforeMs.isNull) &&
    (step.deadlineMs.isInteger || step.deadlineMs.isNull)

theorem valid_planStep {step : PlanStep} (h : step.check = .ok ()) :
    Schema.planStep.valid step.payload = step.withinSchema := by
  rcases bind_eq_ok.mp h with ⟨_, hstepId, h⟩
  rcases bind_eq_ok.mp h with ⟨_, hdescription, h⟩
  rcases bind_eq_ok.mp h with ⟨_, hrobotId, h⟩
  rcases bind_eq_ok.mp h with ⟨_, _, h⟩
  rcases bind_eq_ok.mp h with ⟨_, hcriteria, h⟩
  rcases bind_eq_ok.mp h with ⟨_, hdependsOn, h⟩
  rcases bind_eq_ok.mp h with ⟨_, hunique, h⟩
  rcases bind_eq_ok.mp h with ⟨_, hresources, h⟩
  rcases bind_eq_ok.mp h with ⟨notBefore, hnotBefore, h⟩
  rcases bind_eq_ok.mp h with ⟨_, hnotBeforeBound, h⟩
  rcases bind_eq_ok.mp h with ⟨deadline, hdeadline, h⟩
  rcases bind_eq_ok.mp h with ⟨_, hdeadlineBound, _⟩
  have hcapability : (Schema.allOf [typed [.string],
      .keyword (.pattern matchesCapability)]).valid (.str step.capability) =
      matchesCapability step.capability := by
    simp [typed, valid, validAll, Keyword.holds, TypeName.holds, Keyword.onText]
  have hinputs : (Schema.allOf []).valid step.inputs = true := by
    rw [valid, validAll]
  unfold Schema.planStep PlanStep.payload PlanStep.withinSchema
  rw [valid_objectSchema]
  simp only [validProperties, List.lookup_cons, List.lookup_nil, String.reduceBEq,
    valid_text hstepId (Nat.le_refl 128), valid_text hdescription (Nat.le_refl 4096),
    valid_text hrobotId (Nat.le_refl 128), valid_text hcriteria (Nat.le_refl 4096), hcapability,
    hinputs, valid_identifiers hdependsOn, valid_identifiers hresources,
    valid_nullableTimeSchema hnotBefore (bound_of_given hnotBeforeBound),
    valid_nullableTimeSchema hdeadline (bound_of_given hdeadlineBound), List.all_cons, List.all_nil,
    Option.isSome_some, Bool.and_true, Bool.true_and]
  ac_rfl

def stepWithinSchema (step : Part PlanStep) : Bool :=
  step.within PlanStep.withinSchema Schema.planStep

theorem valid_stepPart {step : Part PlanStep} (h : step.check PlanStep.check = .ok ()) :
    Schema.planStep.valid (step.payload PlanStep.payload) = stepWithinSchema step :=
  Part.valid_payload (fun _ hbuilt => valid_planStep (Part.check_built h hbuilt))

/-- A revision that is no integer passes the constructor. -/
def Plan.withinSchema (plan : Plan) : Bool :=
  plan.revision.isInteger && plan.steps.within (fun steps => steps.all stepWithinSchema)

theorem Plan.lineage {plan : Plan} (h : plan.checkLineage = .ok ()) :
    exists revision, plan.revision.number = .ok revision ∧ 1 ≤ revision ∧
      (forall previous, plan.supersedesPlanId = some previous ->
        identifier previous "supersedes_plan_id" = .ok ()) ∧
      (1 < revision -> plan.supersedesPlanId.isSome = true) := by
  rcases bind_eq_ok.mp h with ⟨revision, hnumber, h⟩
  rcases bind_eq_ok.mp h with ⟨_, hpositive, h⟩
  rcases bind_eq_ok.mp h with ⟨_, hfirst, h⟩
  have hrevision := not_lt.mp (decide_eq_false_iff_not.mp (refuseWhen_eq_ok hpositive))
  have hinitial := refuseWhen_eq_ok hfirst
  have hpredecessor : forall previous, plan.supersedesPlanId = some previous ->
      1 < revision := by
    intro previous hsome
    rw [hsome, Option.isSome_some, Bool.and_true, decide_eq_false_iff_not] at hinitial
    exact lt_of_le_of_ne hrevision (Ne.symm hinitial)
  refine ⟨revision, hnumber, hrevision, ?_, ?_⟩
  · intro previous hsome
    rw [if_pos (hpredecessor previous hsome), hsome] at h
    rcases bind_eq_ok.mp h with ⟨_, hidentifier, _⟩
    exact hidentifier
  · intro hlater
    rw [if_pos hlater] at h
    cases hsome : plan.supersedesPlanId with
    | none =>
        rw [hsome] at h
        cases h
    | some previous => rfl

theorem valid_revision {value : Json} {n : Rat} (h : value.number = .ok n) (hle : 1 ≤ n) :
    (Schema.allOf [typed [.integer], .keyword (.minimum 1)]).valid value = value.isInteger := by
  have hminimum : Keyword.onNumber (fun n => decide (((1 : Int) : Rat) ≤ n)) value = true :=
    onNumber_of_number h (decide_eq_true (by simpa using hle))
  unfold typed
  rw [valid, validAll, validAll, validAll, valid, valid]
  simp only [Keyword.holds, hminimum]
  simp [TypeName.holds]

theorem Plan.valid_lineageRule {plan : Plan} (h : plan.checkLineage = .ok ())
    (hinteger : plan.revision.isInteger = true) :
    (Schema.ifThen
      (.allOf [.properties [("revision", .keyword (.minimum 2))],
        .keyword (.required ["revision"])])
      (.allOf [.keyword (.required ["supersedes_plan_id"]),
        .properties [("supersedes_plan_id", typed [.string])]])).valid plan.payload = true := by
  rcases Plan.lineage h with ⟨revision, hnumber, hle, hprevious, hlater⟩
  have hbool : plan.revision.isBool = false := by
    cases hvalue : plan.revision with
    | bool b =>
        rw [hvalue] at hinteger
        cases hinteger
    | _ => rfl
  have hmagnitude := magnitude_of_number hnumber hbool
  rw [valid, Bool.or_eq_true]
  by_cases htwo : 2 ≤ revision
  · right
    have hone : (1 : Rat) < revision := lt_of_lt_of_le (by norm_num) htwo
    rcases Option.isSome_iff_exists.mp (hlater hone) with ⟨previous, hsome⟩
    unfold Plan.payload
    rw [hsome]
    rfl
  · left
    unfold Plan.payload
    simp [valid, validAll, validProperties, List.lookup_cons, Keyword.holds, Keyword.onMembers,
      Keyword.onNumber, hmagnitude]
    exact not_le.mp htwo

theorem valid_plan {plan : Plan} (h : plan.check = .ok ()) :
    Schema.plan.valid plan.payload = plan.withinSchema := by
  rcases bind_eq_ok.mp h with ⟨_, hsteps, h⟩
  rcases bind_eq_ok.mp h with ⟨_, hplanId, h⟩
  rcases bind_eq_ok.mp h with ⟨_, hgoalId, h⟩
  rcases bind_eq_ok.mp h with ⟨_, hplannerId, h⟩
  rcases bind_eq_ok.mp h with ⟨_, hsummary, h⟩
  rcases bind_eq_ok.mp h with ⟨_, hlineage, hcount⟩
  rcases Plan.lineage hlineage with ⟨revision, hnumber, hle, hprevious, _⟩
  have hlengths := refuseWhen_eq_ok hcount
  rw [Bool.not_eq_false', decide_eq_true_eq] at hlengths
  have hall : (plan.steps.elements.map (Part.payload PlanStep.payload)).all
      Schema.planStep.valid = plan.steps.elements.all stepWithinSchema :=
    all_valid_map (fun step hmem => valid_stepPart (checkAll_eq_ok hsteps _ hmem))
  have hstepsSchema : (Schema.allOf [typed [.array], .keyword (.minItems 1),
      .keyword (.maxItems 256), .items Schema.planStep]).valid
      (plan.steps.payload (Part.payload PlanStep.payload)) =
      plan.steps.within (fun steps => steps.all stepWithinSchema) := by
    apply Iterable.valid_payload
    simp only [typed, valid, validAll, Keyword.holds, TypeName.holds, Keyword.onItems, hall,
      List.length_map, List.any_cons, List.any_nil, Bool.or_false, Bool.true_and, Bool.and_true,
      decide_eq_true hlengths.1, decide_eq_true hlengths.2]
  have hobject : (objectSchema ["plan_id", "goal_id", "planner_id", "summary", "steps",
      "revision"] [("plan_id", textSchema 128), ("goal_id", textSchema 128),
        ("planner_id", textSchema 128), ("summary", textSchema 4096),
        ("steps", .allOf [typed [.array], .keyword (.minItems 1), .keyword (.maxItems 256),
          .items Schema.planStep]),
        ("revision", .allOf [typed [.integer], .keyword (.minimum 1)]),
        ("supersedes_plan_id", .allOf [typed [.string, .null], .keyword (.minLength 1),
          .keyword (.maxLength 128)])]).valid plan.payload = plan.withinSchema := by
    unfold Plan.payload Plan.withinSchema
    rw [valid_objectSchema]
    simp only [validProperties, List.lookup_cons, List.lookup_nil, String.reduceBEq,
      valid_text hplanId (Nat.le_refl 128), valid_text hgoalId (Nat.le_refl 128),
      valid_text hplannerId (Nat.le_refl 128), valid_text hsummary (Nat.le_refl 4096),
      hstepsSchema, valid_revision hnumber hle, valid_optionalText hprevious, List.all_cons,
      List.all_nil, Option.isSome_some, Bool.and_true, Bool.true_and]
    rw [Bool.and_comm]
  unfold Schema.plan
  rw [valid, validAll, validAll, validAll, hobject, Bool.and_true]
  cases hinteger : plan.revision.isInteger with
  | true => rw [Plan.valid_lineageRule hlineage hinteger, Bool.and_true]
  | false =>
      unfold Plan.withinSchema
      rw [hinteger, Bool.false_and, Bool.false_and]

theorem valid_assignment {assignment : Assignment} (h : assignment.check = .ok ()) :
    Schema.assignment.valid assignment.payload = stepWithinSchema assignment.step := by
  rcases bind_eq_ok.mp h with ⟨_, hstep, h⟩
  rcases bind_eq_ok.mp h with ⟨_, hassignmentId, h⟩
  rcases bind_eq_ok.mp h with ⟨_, hgoalId, h⟩
  rcases bind_eq_ok.mp h with ⟨_, hplanId, hlease⟩
  have hleaseSchema := @valid_optionalText assignment.authorityLeaseId "authority_lease_id" (by
    intro lease hsome
    rw [hsome] at hlease
    exact hlease)
  unfold Schema.assignment Assignment.payload
  rw [valid_objectSchema]
  simp only [validProperties, List.lookup_cons, List.lookup_nil, String.reduceBEq,
    valid_text hassignmentId (Nat.le_refl 128), valid_text hgoalId (Nat.le_refl 128),
    valid_text hplanId (Nat.le_refl 128), valid_stepPart hstep, hleaseSchema, List.all_cons,
    List.all_nil, Option.isSome_some, Bool.and_true, Bool.true_and]

/-!
### Outcomes and answers
-/

/-- A flag that only equals a boolean passes the constructor, and so does a status that is no
member of its enumeration. -/
def Outcome.withinSchema (outcome : Outcome) : Bool :=
  outcome.succeeded.isBool &&
    outcome.resolved.within (fun _ => true)
      (.enum ["succeeded", "failed", "rejected", "cancelled", "unknown"])

theorem valid_outcome {outcome : Outcome} (h : outcome.check = .ok ()) :
    Schema.outcome.valid outcome.payload = outcome.withinSchema := by
  rcases bind_eq_ok.mp h with ⟨_, hassignmentId, h⟩
  rcases bind_eq_ok.mp h with ⟨_, hrobotId, h⟩
  rcases bind_eq_ok.mp h with ⟨_, hdescription, h⟩
  rcases bind_eq_ok.mp h with ⟨_, haccepted, h⟩
  rcases bind_eq_ok.mp h with ⟨_, _, h⟩
  rcases bind_eq_ok.mp h with ⟨_, hobject, _⟩
  have hterminal := refuseWhen_eq_ok haccepted
  have hisObject := refuseWhen_eq_ok hobject
  rw [Bool.not_eq_false'] at hisObject
  have hstatus : (Schema.enum ["succeeded", "failed", "rejected", "cancelled",
      "unknown"]).valid (outcome.resolved.payload (fun status => .str status.value)) =
      outcome.resolved.within (fun _ => true)
        (.enum ["succeeded", "failed", "rejected", "cancelled", "unknown"]) := by
    apply Part.valid_payload
    intro status hbuilt
    rw [hbuilt] at hterminal
    cases status with
    | accepted => cases hterminal
    | _ => rfl
  have hflag : (typed [.boolean]).valid outcome.succeeded = outcome.succeeded.isBool := by
    simp [typed, valid, Keyword.holds, TypeName.holds]
  unfold Schema.outcome Outcome.payload Outcome.withinSchema
  rw [valid_objectSchema]
  simp only [validProperties, List.lookup_cons, List.lookup_nil, String.reduceBEq,
    valid_text hassignmentId (Nat.le_refl 128), valid_text hrobotId (Nat.le_refl 128),
    valid_text hdescription (Nat.le_refl 4096), hstatus, hflag, valid_typed_object, hisObject,
    List.all_cons, List.all_nil, Option.isSome_some, Bool.and_true, Bool.true_and]

def statusTexts : List String :=
  ["accepted", "succeeded", "failed", "rejected", "cancelled", "unknown"]

theorem valid_assignmentAcknowledgement {acknowledgement : AssignmentAcknowledgement}
    (h : acknowledgement.check = .ok ()) :
    Schema.assignmentAcknowledgement.valid acknowledgement.payload =
      isOneOf statusTexts acknowledgement.status := by
  rcases bind_eq_ok.mp h with ⟨_, hassignmentId, h⟩
  rcases bind_eq_ok.mp h with ⟨_, hrobotId, hdescription⟩
  unfold Schema.assignmentAcknowledgement AssignmentAcknowledgement.payload statusTexts
  rw [valid_objectSchema]
  simp only [validProperties, List.lookup_cons, List.lookup_nil, String.reduceBEq,
    valid_text hassignmentId (Nat.le_refl 128), valid_text hrobotId (Nat.le_refl 128),
    valid_text hdescription (Nat.le_refl 4096), valid_enum_value, List.all_cons, List.all_nil,
    Option.isSome_some, Bool.and_true, Bool.true_and]

theorem valid_cancellationAcknowledgement {acknowledgement : CancellationAcknowledgement}
    (h : acknowledgement.check = .ok ()) :
    Schema.cancellationAcknowledgement.valid acknowledgement.payload =
      isOneOf ["accepted", "rejected", "already_terminal", "unknown"] acknowledgement.status := by
  rcases bind_eq_ok.mp h with ⟨_, hassignmentId, h⟩
  rcases bind_eq_ok.mp h with ⟨_, hrobotId, hdescription⟩
  unfold Schema.cancellationAcknowledgement CancellationAcknowledgement.payload
  rw [valid_closedSchema]
  simp only [validProperties, List.lookup_cons, List.lookup_nil, String.reduceBEq,
    valid_text hassignmentId (Nat.le_refl 128), valid_text hrobotId (Nat.le_refl 128),
    valid_text hdescription (Nat.le_refl 4096), valid_enum_value, List.all_cons, List.all_nil,
    Option.isSome_some, Bool.and_true, Bool.true_and]
  simp

/-- The fingerprint is any text of at most 128 bytes. -/
def AssignmentSnapshot.withinSchema (snapshot : AssignmentSnapshot) : Bool :=
  snapshot.status.within (fun _ => true) (.enum statusTexts) &&
    matchesDigest snapshot.fingerprint && snapshot.outcome.all Outcome.withinSchema

theorem valid_assignmentSnapshot {snapshot : AssignmentSnapshot} (h : snapshot.Built) :
    Schema.assignmentSnapshot.valid snapshot.payload = snapshot.withinSchema := by
  rcases bind_eq_ok.mp h.checked with ⟨_, hassignmentId, hcheck⟩
  rcases bind_eq_ok.mp hcheck with ⟨_, hrobotId, hcheck⟩
  rcases bind_eq_ok.mp hcheck with ⟨_, hdescription, _⟩
  have hdigest : (Schema.allOf [typed [.string], .keyword (.pattern matchesDigest)]).valid
      (.str snapshot.fingerprint) = matchesDigest snapshot.fingerprint := by
    simp [typed, valid, validAll, Keyword.holds, TypeName.holds, Keyword.onText]
  have hstatus : (Schema.enum ["accepted", "succeeded", "failed", "rejected", "cancelled",
      "unknown"]).valid (snapshot.status.payload (fun status => .str status.value)) =
      snapshot.status.within (fun _ => true) (.enum statusTexts) := by
    apply Part.valid_payload
    intro status hbuilt
    cases status <;> rfl
  have houtcome : (Schema.anyOf [Schema.outcome, typed [.null]]).valid
      (.optional Outcome.payload snapshot.outcome) =
      snapshot.outcome.all Outcome.withinSchema := by
    cases hsome : snapshot.outcome with
    | none => rfl
    | some outcome =>
        have hnull : (typed [.null]).valid outcome.payload = false := rfl
        have hvalid := valid_outcome (h.outcome outcome hsome).1
        rw [valid, countValid, countValid, countValid]
        unfold Json.optional
        rw [hnull, hvalid, Option.all_some]
        cases outcome.withinSchema <;> rfl
  unfold Schema.assignmentSnapshot AssignmentSnapshot.payload AssignmentSnapshot.withinSchema
  rw [valid_closedSchema]
  simp only [validProperties, List.lookup_cons, List.lookup_nil, String.reduceBEq,
    valid_text hassignmentId (Nat.le_refl 128), valid_text hrobotId (Nat.le_refl 128),
    valid_text hdescription (Nat.le_refl 4096), hstatus, hdigest, houtcome, List.all_cons,
    List.all_nil, Option.isSome_some, Bool.and_true, Bool.true_and]
  simp [Bool.and_assoc]

end Given

/-!
### Queries and requests
-/

theorem valid_assignmentQuery {assignmentId robotId : String}
    (hassignmentId : identifier assignmentId "assignment_id" = .ok ())
    (hrobotId : identifier robotId "robot_id" = .ok ()) :
    Schema.assignmentQuery.valid
      (Coordinator.Message.assignmentQuery assignmentId robotId).payload = true := by
  unfold Schema.assignmentQuery Coordinator.Message.payload
  dsimp only
  rw [valid_closedSchema]
  simp only [validProperties, List.lookup_cons, List.lookup_nil, String.reduceBEq,
    valid_text hassignmentId (Nat.le_refl 128), valid_text hrobotId (Nat.le_refl 128),
    List.all_cons, List.all_nil, Option.isSome_some, Bool.and_true, Bool.true_and]
  rfl

theorem valid_cancellationRequest {assignmentId robotId reason : String}
    (h : Participant.Message.checkText assignmentId robotId reason "cancellation reason" =
      .ok ()) :
    Schema.cancellationRequest.valid
      (Coordinator.Message.cancellationRequest assignmentId robotId reason).payload = true := by
  rcases bind_eq_ok.mp h with ⟨_, hassignmentId, h⟩
  rcases bind_eq_ok.mp h with ⟨_, hrobotId, hreason⟩
  unfold Schema.cancellationRequest Coordinator.Message.payload
  dsimp only
  rw [valid_closedSchema]
  simp only [validProperties, List.lookup_cons, List.lookup_nil, String.reduceBEq,
    valid_text hassignmentId (Nat.le_refl 128), valid_text hrobotId (Nat.le_refl 128),
    valid_text hreason (Nat.le_refl 4096), List.all_cons, List.all_nil, Option.isSome_some,
    Bool.and_true, Bool.true_and]
  rfl

/-!
## Envelopes
-/

def payloadSchema : MessageType -> Schema
  | .manifest => Schema.robotManifest
  | .state => Schema.robotState
  | .goal => Schema.sharedGoal
  | .plan => Schema.plan
  | .assignment => Schema.assignment
  | .assignmentAck => Schema.assignmentAcknowledgement
  | .assignmentQuery => Schema.assignmentQuery
  | .assignmentSnapshot => Schema.assignmentSnapshot
  | .cancellationRequest => Schema.cancellationRequest
  | .cancellationAck => Schema.cancellationAcknowledgement
  | .outcome => Schema.outcome

theorem valid_payloadOf {name messageType : String} {schema : Schema}
    {fields : List (String × Json)} {payload : Json}
    (htype : fields.lookup "message_type" = some (.str messageType))
    (hpayload : fields.lookup "payload" = some payload) :
    (Schema.payloadOf name schema).valid (.obj fields) =
      (!(messageType == name) || schema.valid payload) := by
  simp [Schema.payloadOf, valid, validProperties, Keyword.onMembers, htype, hpayload,
    Keyword.holds, Json.isText]

theorem valid_conditionals {messageType : MessageType} {fields : List (String × Json)}
    {payload : Json} (htype : fields.lookup "message_type" = some (.str messageType.value))
    (hpayload : fields.lookup "payload" = some payload) :
    validAll [payloadOf "state" robotState, payloadOf "manifest" robotManifest,
      payloadOf "goal" sharedGoal, payloadOf "plan" Schema.plan,
      payloadOf "assignment" Schema.assignment,
      payloadOf "assignment_ack" assignmentAcknowledgement,
      payloadOf "assignment_query" assignmentQuery,
      payloadOf "assignment_snapshot" assignmentSnapshot,
      payloadOf "cancellation_request" cancellationRequest,
      payloadOf "cancellation_ack" cancellationAcknowledgement,
      payloadOf "outcome" Schema.outcome] (.obj fields) =
      (payloadSchema messageType).valid payload := by
  simp only [validAll, valid_payloadOf htype hpayload]
  cases messageType <;>
    simp [MessageType.value, payloadSchema]

theorem valid_streamRule {messageType : MessageType} {fields : List (String × Json)}
    (htype : fields.lookup "message_type" = some (.str messageType.value))
    (h : fields.lookup "stream" = none ∨ messageType = .state) :
    (Schema.ifThen
      (.allOf [.properties [("stream", .keyword (.const "safety"))],
        .keyword (.required ["stream"])])
      (.properties [("message_type", .keyword (.const "state"))])).valid (.obj fields) = true := by
  rcases h with hnone | rfl
  · simp [valid, validAll, Keyword.holds, Keyword.onMembers, hnone]
  · simp [valid, validProperties, Keyword.holds, Keyword.onMembers, htype, Json.isText,
      MessageType.value]

namespace Envelope

theorem parts_of_checkDecoded {e : Envelope} (h : e.checkDecoded = .ok ()) :
    (e.stream = .safety -> e.messageType = .state) ∧
      (textSchema 128).valid (.str e.messageId) = true ∧
      (textSchema 128).valid (.str e.sourceId) = true ∧
      (textSchema 128).valid (.str e.sessionId) = true ∧
      1 ≤ e.sequence ∧ 0 ≤ e.timestampMs ∧ e.payload.isObject = true ∧
      forall correlationId, e.correlationId = some correlationId ->
        correlationId.length ≤ 128 := by
  have hid : forall {text fieldName : String}, checkId text fieldName = .ok () ->
      (textSchema 128).valid (.str text) = true := by
    intro text fieldName hcheck
    have hbounds := refuseWhen_eq_ok hcheck
    have hbytes := length_le_byteSize text.toList
    rw [Bool.or_eq_false_iff, decide_eq_false_iff_not, Nat.not_lt] at hbounds
    rw [String.length_toList] at hbytes
    have hne := String.isEmpty_eq_false_iff.mp hbounds.1
    have hpos : 1 ≤ text.length :=
      Nat.pos_of_ne_zero (fun hzero => hne (String.length_eq_zero_iff.mp hzero))
    rw [valid_textSchema, decide_eq_true hpos, decide_eq_true (hbytes.trans hbounds.2)]
    rfl
  unfold checkDecoded at h
  rcases bind_eq_ok.mp h with ⟨_, hstream, h⟩
  rcases bind_eq_ok.mp h with ⟨_, hmessageId, h⟩
  rcases bind_eq_ok.mp h with ⟨_, hsourceId, h⟩
  rcases bind_eq_ok.mp h with ⟨_, hsessionId, h⟩
  rcases bind_eq_ok.mp h with ⟨_, hsequence, h⟩
  rcases bind_eq_ok.mp h with ⟨_, htimestamp, h⟩
  rcases bind_eq_ok.mp h with ⟨_, hpayload, h⟩
  have hsafety := refuseWhen_eq_ok hstream
  have hobject := refuseWhen_eq_ok hpayload
  rw [Bool.not_eq_false'] at hobject
  refine ⟨?_, hid hmessageId, hid hsourceId, hid hsessionId,
    Int.not_lt.mp (decide_eq_false_iff_not.mp (refuseWhen_eq_ok hsequence)),
    Int.not_lt.mp (decide_eq_false_iff_not.mp (refuseWhen_eq_ok htimestamp)), hobject, ?_⟩
  · intro hsafe
    rw [decide_eq_true hsafe, Bool.true_and, decide_eq_false_iff_not, not_not] at hsafety
    exact hsafety
  · intro correlationId hsome
    rw [hsome] at h
    have hbytes := length_le_byteSize correlationId.toList
    have hbound := decide_eq_false_iff_not.mp (refuseWhen_eq_ok h)
    rw [String.length_toList] at hbytes
    exact hbytes.trans (Nat.not_lt.mp hbound)

theorem valid_document {e : Envelope} (h : e.checkDecoded = .ok ()) :
    Schema.envelope.valid e.document = (payloadSchema e.messageType).valid e.payload := by
  rcases parts_of_checkDecoded h with
    ⟨hsafety, hmessageId, hsourceId, hsessionId, hsequence, htimestamp, hobject, hcorrelation⟩
  have htime : timeSchema.valid (.int e.timestampMs) = true :=
    valid_timeSchema rfl (by exact_mod_cast htimestamp)
  have hsequenceSchema : (Schema.allOf [typed [.integer], .keyword (.minimum 1)]).valid
      (.int e.sequence) = true := by
    have hle : ((1 : Int) : Rat) ≤ e.sequence := Rat.intCast_le_intCast.mpr hsequence
    simp only [typed, valid, validAll, Keyword.holds, TypeName.holds, Keyword.onNumber,
      Json.magnitude, Option.all_some, decide_eq_true hle]
    rfl
  have hcorrelationSchema : (Schema.allOf [typed [.string, .null],
      .keyword (.maxLength 128)]).valid (.optional .str e.correlationId) = true := by
    cases hsome : e.correlationId with
    | none => rfl
    | some correlationId =>
        simp [Json.optional, typed, valid, validAll, Keyword.holds, TypeName.holds,
          Keyword.onText, hcorrelation correlationId hsome]
  have htypes : (Schema.enum ["manifest", "state", "goal", "plan", "assignment",
      "assignment_ack", "assignment_query", "assignment_snapshot", "cancellation_request",
      "cancellation_ack", "outcome"]).valid (.str e.messageType.value) = true := by
    cases e.messageType <;> rfl
  have hprotocol : (Schema.keyword (.const "ump/0.1")).valid (.str protocolVersion) = true := rfl
  have hstreams : (Schema.enum ["operational", "safety"]).valid (.str Stream.safety.value) =
      true := rfl
  unfold Schema.envelope document
  cases hstream : e.stream with
  | operational =>
      rw [valid, validAll, validAll, valid_conditionals rfl rfl, valid_objectSchema,
        valid_streamRule rfl (Or.inl rfl)]
      simp only [List.append_nil, validProperties, List.lookup_cons, List.lookup_nil,
        String.reduceBEq, hprotocol, hmessageId, hsourceId, hsessionId, htypes, hsequenceSchema,
        htime, hcorrelationSchema, valid_typed_object, hobject, List.all_cons, List.all_nil,
        Option.isSome_some, Bool.and_true, Bool.true_and]
  | safety =>
      rw [valid, validAll, validAll, valid_conditionals rfl rfl, valid_objectSchema,
        valid_streamRule rfl (Or.inr (hsafety hstream))]
      simp only [List.cons_append, List.nil_append, validProperties, List.lookup_cons,
        String.reduceBEq, hprotocol, hmessageId, hsourceId, hsessionId, htypes, hsequenceSchema,
        htime, hcorrelationSchema, hstreams, valid_typed_object, hobject, List.all_cons,
        List.all_nil, Option.isSome_some, Bool.and_true, Bool.true_and]

end Envelope

/-!
## The bodies of messages
-/

/-- What a participant or a coordinator sends. Goals, queries and cancellation requests are
the typed ones: their constructors leave no other choice. -/
inductive Body where
  | manifest (manifest : Given.RobotManifest)
  | state (state : Given.RobotState)
  | goal (goal : SharedGoal)
  | plan (plan : Given.Plan)
  | assignment (assignment : Given.Assignment)
  | acknowledgement (acknowledgement : Given.AssignmentAcknowledgement)
  | outcome (outcome : Given.Outcome)
  | snapshot (snapshot : Given.AssignmentSnapshot)
  | cancellationAcknowledgement (acknowledgement : Given.CancellationAcknowledgement)
  | query (assignmentId robotId : String)
  | cancellationRequest (assignmentId robotId reason : String)

namespace Body

def messageType : Body -> MessageType
  | manifest _ => .manifest
  | state _ => .state
  | goal _ => .goal
  | plan _ => .plan
  | assignment _ => .assignment
  | acknowledgement _ => .assignmentAck
  | outcome _ => .outcome
  | snapshot _ => .assignmentSnapshot
  | cancellationAcknowledgement _ => .cancellationAck
  | query _ _ => .assignmentQuery
  | cancellationRequest _ _ _ => .cancellationRequest

def payload : Body -> Json
  | manifest m => m.payload
  | state s => s.payload
  | goal g => g.payload
  | plan p => p.payload
  | assignment a => a.payload
  | acknowledgement a => a.payload
  | outcome o => o.payload
  | snapshot s => s.payload
  | cancellationAcknowledgement a => a.payload
  | query assignmentId robotId =>
      (Coordinator.Message.assignmentQuery assignmentId robotId).payload
  | cancellationRequest assignmentId robotId reason =>
      (Coordinator.Message.cancellationRequest assignmentId robotId reason).payload

def Built (library : Registry.Library) : Body -> Prop
  | manifest m => m.check library = .ok ()
  | state s => s.check library = .ok ()
  | goal g => g.check = .ok ()
  | plan p => p.check = .ok ()
  | assignment a => a.check = .ok ()
  | acknowledgement a => a.check = .ok ()
  | outcome o => o.check = .ok ()
  | snapshot s => s.Built
  | cancellationAcknowledgement a => a.check = .ok ()
  | query assignmentId robotId =>
      identifier assignmentId "assignment_id" = .ok () ∧ identifier robotId "robot_id" = .ok ()
  | cancellationRequest assignmentId robotId reason =>
      Participant.Message.checkText assignmentId robotId reason "cancellation reason" = .ok ()

/-- The rules of the schema that no constructor checks, body by body. -/
def withinSchema : Body -> Bool
  | manifest m => m.withinSchema
  | state s => s.withinSchema
  | plan p => p.withinSchema
  | assignment a => Given.stepWithinSchema a.step
  | acknowledgement a => isOneOf Given.statusTexts a.status
  | outcome o => o.withinSchema
  | snapshot s => s.withinSchema
  | cancellationAcknowledgement a =>
      isOneOf ["accepted", "rejected", "already_terminal", "unknown"] a.status
  | goal _ => true
  | query _ _ => true
  | cancellationRequest _ _ _ => true

theorem valid_payload {library : Registry.Library} {body : Body} (h : body.Built library) :
    (payloadSchema body.messageType).valid body.payload = body.withinSchema := by
  cases body with
  | manifest m => exact Given.valid_robotManifest h
  | state s => exact Given.valid_robotState h
  | goal g => exact valid_sharedGoal h
  | plan p => exact Given.valid_plan h
  | assignment a => exact Given.valid_assignment h
  | acknowledgement a => exact Given.valid_assignmentAcknowledgement h
  | outcome o => exact Given.valid_outcome h
  | snapshot s => exact Given.valid_assignmentSnapshot h
  | cancellationAcknowledgement a => exact Given.valid_cancellationAcknowledgement h
  | query assignmentId robotId => exact valid_assignmentQuery h.1 h.2
  | cancellationRequest assignmentId robotId reason => exact valid_cancellationRequest h

end Body

/-- The bus publishes an envelope that its own decoder accepts. -/
structure Publishes (envelope : Envelope) (body : Body) : Prop where
  encoded : exists text, envelope.encode = .ok text
  decodable : envelope.checkDecoded = .ok ()
  messageType : envelope.messageType = body.messageType
  payload : envelope.payload = body.payload

/-- A published envelope conforms to the schema exactly when its body keeps the rules that no
constructor checks. -/
theorem published_conforms_iff {library : Registry.Library} {envelope : Envelope} {body : Body}
    (hbuilt : body.Built library) (hpublished : Publishes envelope body) :
    Schema.envelope.valid envelope.document = true <-> body.withinSchema = true := by
  rw [Envelope.valid_document hpublished.decodable, hpublished.messageType, hpublished.payload,
    Body.valid_payload hbuilt]

def makerManifest (length : Nat) : Given.RobotManifest where
  robotId := "rover"
  capabilities := .items [{
    name := "walk/v1"
    description := "Walk"
    inputSchema := .obj [("type", .str "object")]
    outputSchema := .obj []
    availability := .str "available" }]
  manufacturer := String.ofList (List.replicate length 'm')
  model := "m1"
  robotClass := "mobile_base"
  adapterVersion := "0.1.0"

def makerEnvelope (length : Nat) : Envelope where
  messageId := "m"
  messageType := .manifest
  sourceId := "rover"
  sessionId := "s"
  sequence := 1
  timestampMs := 0
  payload := (makerManifest length).payload
  correlationId := none
  stream := .operational

def decimalLibrary : Registry.Library where
  urlScheme _ := .ok "https"
  normalized _ := true
  isDigit := Registry.isAsciiDigit

theorem makerEnvelope_encodes : forall length, length = 128 ∨ length = 129 ->
    Publishes (makerEnvelope length) (.manifest (makerManifest length)) := by
  rintro length (rfl | rfl)
  · exact ⟨⟨_, Envelope.encode_eq_ok rfl (by decide +kernel)⟩, by decide +kernel, rfl, rfl⟩
  · exact ⟨⟨_, Envelope.encode_eq_ok rfl (by decide +kernel)⟩, by decide +kernel, rfl, rfl⟩

theorem makerManifest_conforms :
    Schema.envelope.valid (makerEnvelope 128).document = true := by
  have hbuilt : (Body.manifest (makerManifest 128)).Built decimalLibrary := by
    show Given.RobotManifest.check _ _ = _
    decide +kernel
  exact (published_conforms_iff hbuilt (makerEnvelope_encodes 128 (Or.inl rfl))).mpr
    (by decide +kernel)

/-- The constructor takes 129 characters and the schema does not. -/
theorem longMaker_refused :
    ¬ forall (library : Registry.Library) (envelope : Envelope) (body : Body),
      body.Built library -> Publishes envelope body ->
      Schema.envelope.valid envelope.document = true := by
  intro hall
  have hbuilt : (Body.manifest (makerManifest 129)).Built decimalLibrary := by
    show Given.RobotManifest.check _ _ = _
    decide +kernel
  have hvalid := hall _ _ _ hbuilt (makerEnvelope_encodes 129 (Or.inr rfl))
  exact absurd hvalid (by decide +kernel)

end Ump
