import DreamWeaver.Foundations.JsValue

/-! # JSON schemas

A JSON schema is a document, and `schema.conforms value` says that a value satisfies it, as far as the
keywords `type`, `enum` over strings, `properties` and `required` go; other keywords are annotations. A
schema says nothing of the entries of an object that it does not name. -/

namespace DreamWeaver.JsonSchema

/-- A value is of a type of a schema. -/
def hasType (type : Text) : Json → Bool
  | .null => type = lit "null"
  | .bool _ => type = lit "boolean"
  | .num x => type = lit "number" || (type = lit "integer" && match x with
    | .finite q => q.isInt
    | _ => false)
  | .str _ => type = lit "string"
  | .arr _ => type = lit "array"
  | .obj _ => type = lit "object"

/-- A string is one of those that a schema lists. -/
def isListed (items : List Json) (value : Json) : Bool :=
  items.any fun item => match item, value with
    | .str s, .str t => s = t
    | _, _ => false

/-- An object has the entries whose names a schema lists. -/
def hasRequired (items : List Json) : Json → Bool
  | .obj fields => items.all fun item => match item with
    | .str name => (Json.field? fields name).isSome
    | _ => true
  | _ => true

mutual

/-- The value satisfies the schema. -/
def conforms : Json → Json → Bool
  | .obj keywords, value => keywordsHold keywords value
  | _, _ => true
termination_by structural s => s

/-- The value satisfies every keyword of a schema. -/
def keywordsHold : List (Text × Json) → Json → Bool
  | [], _ => true
  | (keyword, argument) :: keywords, value =>
    keywordHolds keyword argument value && keywordsHold keywords value
termination_by structural s => s

/-- The value satisfies a keyword. -/
def keywordHolds (keyword : Text) : Json → Json → Bool
  | .str type, value => keyword ≠ lit "type" || hasType type value
  | .arr items, value =>
    if keyword = lit "enum" then isListed items value
    else if keyword = lit "required" then hasRequired items value
    else true
  | .obj properties, value =>
    if keyword = lit "properties" then
      match value with
      | .obj fields => propertiesHold properties fields
      | _ => true
    else true
  | _, _ => true
termination_by structural s => s

/-- The entries of an object that a schema names satisfy what it says of them. -/
def propertiesHold : List (Text × Json) → List (Text × Json) → Bool
  | [], _ => true
  | (name, schema) :: properties, fields =>
    (match Json.field? fields name with
      | none => true
      | some value => conforms schema value) && propertiesHold properties fields
termination_by structural s => s

end

/-- The schema of an object with properties, some of them required. -/
def objectSchema (properties : List (Text × Json)) (required : List Text) : Json :=
  .obj [(lit "type", .str (lit "object")), (lit "properties", .obj properties),
    (lit "required", .arr (required.map .str))]

/-- The schema of a string, with its description. -/
def stringSchema (description : String) : Json :=
  .obj [(lit "type", .str (lit "string")), (lit "description", .str (lit description))]

variable {properties fields : List (Text × Json)} {required : List Text} {value : Json}

/-- **The schema of an object**: an object satisfies it that has the required entries, and whose entries
satisfy what is said of them. -/
theorem conforms_objectSchema : conforms (objectSchema properties required) (.obj fields) = true ↔
    propertiesHold properties fields = true ∧
      ∀ name ∈ required, (Json.field? fields name).isSome = true := by
  have htype : keywordHolds (lit "type") (.str (lit "object")) (.obj fields) = true := by
    simp [keywordHolds, hasType]
  have hproperties : keywordHolds (lit "properties") (.obj properties) (.obj fields)
      = propertiesHold properties fields := by
    rw [keywordHolds, if_pos rfl]
  have hrequired : keywordHolds (lit "required") (.arr (required.map .str)) (.obj fields)
      = required.all fun name => (Json.field? fields name).isSome := by
    rw [keywordHolds, if_neg (by decide), if_pos rfl, hasRequired, List.all_map]
    rfl
  rw [objectSchema, conforms, keywordsHold, keywordsHold, keywordsHold, keywordsHold, htype, hproperties,
    hrequired, Bool.true_and, Bool.and_true, Bool.and_eq_true, List.all_eq_true]

theorem hasType_string : hasType (lit "string") value = true ↔ ∃ s, value = .str s := by
  have hnumber : lit "string" ≠ lit "number" ∧ lit "string" ≠ lit "integer" := by decide
  cases value with
  | str s => exact iff_of_true (by simp [hasType]) ⟨s, rfl⟩
  | null => exact iff_of_false (by decide) (by rintro ⟨s, ⟨⟩⟩)
  | bool b => exact iff_of_false (by decide +revert) (by rintro ⟨s, ⟨⟩⟩)
  | num x => exact iff_of_false (by simp [hasType, hnumber]) (by rintro ⟨s, ⟨⟩⟩)
  | arr items => exact iff_of_false (by simp [hasType]; decide) (by rintro ⟨s, ⟨⟩⟩)
  | obj fields => exact iff_of_false (by simp [hasType]; decide) (by rintro ⟨s, ⟨⟩⟩)

/-- A value that is said to be a string is one. -/
theorem conforms_stringSchema {description : String} :
    conforms (stringSchema description) value = true ↔ ∃ s, value = .str s := by
  have hdescription : keywordHolds (lit "description") (.str (lit description)) value = true := by
    rw [keywordHolds]
    rfl
  have htype : keywordHolds (lit "type") (.str (lit "string")) value = hasType (lit "string") value := by
    rw [keywordHolds]
    rfl
  rw [stringSchema, conforms, keywordsHold, keywordsHold, keywordsHold, hdescription, htype,
    Bool.and_true, Bool.and_true, hasType_string]

end DreamWeaver.JsonSchema
