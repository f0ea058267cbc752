import DreamWeaver.Foundations.JsonSchema

/-! # Response schemas

A response schema is what a model is told about the form of its answer. It is a JSON schema with `type`,
`properties`, `required` and `items`, where `nullable` lets `null` in as well; what it does not name it
leaves open. `ResponseSchema.conforms schema value` says that a value is of the form. -/

namespace DreamWeaver.ResponseSchema

open JsonSchema

/-- `nullable: true` -/
def isNullable (keywords : List (Text × Json)) : Bool :=
  match Json.field? keywords (lit "nullable") with
  | some (.bool b) => b
  | _ => false

/-- The value is `null`. -/
def isNull : Json → Bool
  | .null => true
  | _ => false

mutual

/-- The value satisfies the schema. -/
def conforms : Json → Json → Bool
  | .obj keywords, value => isNullable keywords && isNull value || keywordsHold keywords value
  | _, _ => true
termination_by structural s => s

/-- The value satisfies every keyword of a schema. -/
def keywordsHold : List (Text × Json) → Json → Bool
  | [], _ => true
  | (keyword, argument) :: keywords, value =>
    keywordHolds keyword argument value && keywordsHold keywords value
termination_by structural s => s

/-- The value satisfies a keyword. -/
def keywordHolds (keyword : Text) : Json → Json → Bool
  | .str type, value => keyword ≠ lit "type" || hasType type value
  | .arr names, value => keyword ≠ lit "required" || hasRequired names value
  | .obj argument, value =>
    if keyword = lit "properties" then
      match value with
      | .obj fields => propertiesHold argument fields
      | _ => true
    else if keyword = lit "items" then
      match value with
      | .arr items => items.all fun item =>
        isNullable argument && isNull item || keywordsHold argument item
      | _ => true
    else true
  | _, _ => true
termination_by structural s => s

/-- The entries of an object that a schema names satisfy what it says of them. -/
def propertiesHold : List (Text × Json) → List (Text × Json) → Bool
  | [], _ => true
  | (name, schema) :: properties, fields =>
    (match Json.field? fields name with
      | none => true
      | some value => conforms schema value) && propertiesHold properties fields
termination_by structural s => s

end

/-- A schema that is only a type. -/
def typeSchema (type : String) : Json := .obj [(lit "type", .str (lit type))]

/-- The schema of a value of a type, or `null`. -/
def nullableSchema (type : String) : Json :=
  .obj [(lit "type", .str (lit type)), (lit "nullable", .bool true)]

/-- The schema of a list. -/
def arraySchema (items : List (Text × Json)) : Json :=
  .obj [(lit "type", .str (lit "array")), (lit "items", .obj items)]

attribute [local simp] isNull conforms keywordsHold keywordHolds propertiesHold

variable {properties fields : List (Text × Json)} {required : List Text} {value : Json} {type : String}

/-! ## Types -/

theorem keywordHolds_type : keywordHolds (lit "type") (.str (lit type)) value = hasType (lit type) value := by
  rw [keywordHolds]
  rfl

theorem hasType_number : hasType (lit "number") value = true ↔ ∃ x, value = .num x := by
  cases value with
  | num x => exact iff_of_true (by simp [hasType]) ⟨x, rfl⟩
  | null => exact iff_of_false (by decide) (by rintro ⟨x, ⟨⟩⟩)
  | bool b => exact iff_of_false (by decide +revert) (by rintro ⟨x, ⟨⟩⟩)
  | str s => exact iff_of_false (by simp [hasType]; decide) (by rintro ⟨x, ⟨⟩⟩)
  | arr items => exact iff_of_false (by simp [hasType]; decide) (by rintro ⟨x, ⟨⟩⟩)
  | obj fields => exact iff_of_false (by simp [hasType]; decide) (by rintro ⟨x, ⟨⟩⟩)

theorem hasType_array : hasType (lit "array") value = true ↔ ∃ items, value = .arr items := by
  have hnumber : lit "array" ≠ lit "number" ∧ lit "array" ≠ lit "integer" := by decide
  cases value with
  | arr items => exact iff_of_true (by simp [hasType]) ⟨items, rfl⟩
  | null => exact iff_of_false (by decide) (by rintro ⟨items, ⟨⟩⟩)
  | bool b => exact iff_of_false (by decide +revert) (by rintro ⟨items, ⟨⟩⟩)
  | num x => exact iff_of_false (by simp [hasType, hnumber]) (by rintro ⟨items, ⟨⟩⟩)
  | str s => exact iff_of_false (by simp [hasType]; decide) (by rintro ⟨items, ⟨⟩⟩)
  | obj fields => exact iff_of_false (by simp [hasType]; decide) (by rintro ⟨items, ⟨⟩⟩)

theorem hasType_object : hasType (lit "object") value = true ↔ ∃ fields, value = .obj fields := by
  have hnumber : lit "object" ≠ lit "number" ∧ lit "object" ≠ lit "integer" := by decide
  cases value with
  | obj fields => exact iff_of_true (by simp [hasType]) ⟨fields, rfl⟩
  | null => exact iff_of_false (by decide) (by rintro ⟨fields, ⟨⟩⟩)
  | bool b => exact iff_of_false (by decide +revert) (by rintro ⟨fields, ⟨⟩⟩)
  | num x => exact iff_of_false (by simp [hasType, hnumber]) (by rintro ⟨fields, ⟨⟩⟩)
  | str s => exact iff_of_false (by simp [hasType]; decide) (by rintro ⟨fields, ⟨⟩⟩)
  | arr items => exact iff_of_false (by simp [hasType]; decide) (by rintro ⟨fields, ⟨⟩⟩)

theorem isNull_iff : isNull value = true ↔ value = .null := by
  cases value <;> simp

/-- A value satisfies a type if it is of it. -/
theorem conforms_typeSchema : conforms (typeSchema type) value = hasType (lit type) value := by
  rw [typeSchema, conforms, keywordsHold, keywordsHold, keywordHolds_type, Bool.and_true]
  rfl

/-- A value satisfies a nullable type if it is `null` or of the type. -/
theorem conforms_nullableSchema :
    conforms (nullableSchema type) value = true ↔ value = .null ∨ hasType (lit type) value = true := by
  have hnullable : keywordHolds (lit "nullable") (.bool true) value = true := by simp
  rw [nullableSchema, conforms, keywordsHold, keywordsHold, keywordsHold, keywordHolds_type, hnullable,
    Bool.and_true, Bool.and_true, Bool.or_eq_true, Bool.and_eq_true, isNull_iff]
  exact or_congr_left (and_iff_right (by rfl))

/-! ## Lists and objects -/

/-- A list satisfies the schema of a list if its items satisfy theirs. -/
theorem conforms_arraySchema {items : List (Text × Json)} : conforms (arraySchema items) value = true ↔
    ∃ values, value = .arr values ∧ ∀ item ∈ values, conforms (.obj items) item = true := by
  have hne : lit "items" ≠ lit "properties" := by decide
  rw [arraySchema, conforms, keywordsHold, keywordsHold, keywordsHold, keywordHolds_type, Bool.and_true,
    show isNullable [(lit "type", Json.str (lit "array")), (lit "items", .obj items)] = false from rfl,
    Bool.false_and, Bool.false_or, Bool.and_eq_true, hasType_array]
  constructor
  · rintro ⟨⟨values, rfl⟩, hitems⟩
    rw [keywordHolds, if_neg hne, if_pos rfl, List.all_eq_true] at hitems
    refine ⟨values, rfl, fun item hmem => ?_⟩
    rw [conforms]
    exact hitems item hmem
  · rintro ⟨values, rfl, hitems⟩
    refine ⟨⟨values, rfl⟩, ?_⟩
    rw [keywordHolds, if_neg hne, if_pos rfl, List.all_eq_true]
    intro item hmem
    rw [← conforms]
    exact hitems item hmem

/-- The entries that are there satisfy what is said of them. -/
theorem propertiesHold_iff : propertiesHold properties fields = true ↔
    ∀ p ∈ properties, ∀ v, Json.field? fields p.1 = some v → conforms p.2 v = true := by
  induction properties with
  | nil => simp
  | cons p properties ih =>
    obtain ⟨name, schema⟩ := p
    rw [propertiesHold, Bool.and_eq_true, ih, List.forall_mem_cons]
    refine and_congr_left fun _ => ?_
    cases Json.field? fields name with
    | none => simp
    | some v => simp

/-- The keywords of an object with properties. -/
theorem conforms_properties : conforms (.obj [(lit "type", .str (lit "object")),
      (lit "properties", .obj properties)]) value = true ↔
    ∃ fields, value = .obj fields ∧ propertiesHold properties fields = true := by
  rw [conforms, keywordsHold, keywordsHold, keywordsHold, keywordHolds_type, Bool.and_true,
    show isNullable [(lit "type", Json.str (lit "object")), (lit "properties", .obj properties)] = false
      from rfl, Bool.false_and, Bool.false_or, Bool.and_eq_true, hasType_object]
  constructor
  · rintro ⟨⟨fields, rfl⟩, hproperties⟩
    rw [keywordHolds, if_pos rfl] at hproperties
    exact ⟨fields, rfl, hproperties⟩
  · rintro ⟨fields, rfl, hproperties⟩
    refine ⟨⟨fields, rfl⟩, ?_⟩
    rw [keywordHolds, if_pos rfl]
    exact hproperties

/-- **The schema of an object**: an object satisfies it that has the required entries, and whose entries
satisfy what is said of them. -/
theorem conforms_objectSchema : conforms (objectSchema properties required) value = true ↔
    ∃ fields, value = .obj fields ∧ propertiesHold properties fields = true ∧
      ∀ name ∈ required, (Json.field? fields name).isSome = true := by
  have hrequired (fields : List (Text × Json)) :
      keywordHolds (lit "required") (.arr (required.map .str)) (.obj fields)
        = required.all fun name => (Json.field? fields name).isSome := by
    rw [keywordHolds, hasRequired, List.all_map]
    rfl
  rw [objectSchema, conforms, keywordsHold, keywordsHold, keywordsHold, keywordsHold, keywordHolds_type,
    Bool.and_true, show isNullable [(lit "type", Json.str (lit "object")), (lit "properties", .obj properties),
      (lit "required", .arr (required.map .str))] = false from rfl, Bool.false_and, Bool.false_or,
    Bool.and_eq_true, Bool.and_eq_true, hasType_object]
  constructor
  · rintro ⟨⟨fields, rfl⟩, hproperties, hnames⟩
    rw [keywordHolds, if_pos rfl] at hproperties
    rw [hrequired, List.all_eq_true] at hnames
    exact ⟨fields, rfl, hproperties, hnames⟩
  · rintro ⟨fields, rfl, hproperties, hnames⟩
    refine ⟨⟨fields, rfl⟩, ?_, ?_⟩
    · rw [keywordHolds, if_pos rfl]
      exact hproperties
    · rw [hrequired, List.all_eq_true]
      exact hnames

/-- An entry that is required and said to be a string is one. -/
theorem exists_string {name : Text} (hproperties : propertiesHold properties fields = true)
    (hname : (name, typeSchema "string") ∈ properties) (hsome : (Json.field? fields name).isSome = true) :
    ∃ s, Json.field? fields name = some (.str s) := by
  obtain ⟨v, hv⟩ := Option.isSome_iff_exists.mp hsome
  have htype := propertiesHold_iff.mp hproperties _ hname v hv
  rw [conforms_typeSchema] at htype
  obtain ⟨s, rfl⟩ := hasType_string.mp htype
  exact ⟨s, hv⟩

end DreamWeaver.ResponseSchema
