import DreamWeaver.Foundations.JsData
import DreamWeaver.Foundations.JsonText

/-! # JSON through Lua

A script of the Redis server sees a JSON document as a Lua table: `cjson.decode` reads it and
`cjson.encode` writes it back. A table does not know whether it was an empty array or an empty
object, and is written as `{}`; a number is written with 14 significant digits; a text with half of
a surrogate pair is refused. `recode` is what decoding and encoding make of a document. -/

namespace DreamWeaver

/-! ## Strings -/

/-- Every surrogate of the text is part of a pair. -/
def isWellFormed : Text → Bool
  | [] => true
  | [c] => !isHighSurrogate c && !isLowSurrogate c
  | c :: d :: s =>
    if isHighSurrogate c then isLowSurrogate d && isWellFormed s
    else !isLowSurrogate c && isWellFormed (d :: s)

/-! ## Numbers -/

/-- The number with `k` significant decimal digits next to a number. -/
def significant (k : ℕ) (x : ℚ) : ℚ :=
  let unit : ℚ := 10 ^ (Int.log 10 |x| + 1 - k)
  roundHalfEven (x / unit) * unit

/-- `%.14g`, read back as a double. -/
def fourteenDigits : JsNumber → JsNumber
  | .finite x => .finite (double (significant 14 x))
  | x => x

/-! ## Documents -/

mutual

/-- `cjson.decode` accepts the document. -/
def Json.isReadable : Json → Bool
  | .str text => isWellFormed text
  | .arr items => itemsReadable items
  | .obj fields => fieldsReadable fields
  | _ => true

/-- `cjson.decode` accepts the elements. -/
def itemsReadable : List Json → Bool
  | [] => true
  | j :: js => j.isReadable && itemsReadable js

/-- `cjson.decode` accepts an entry. -/
def entryReadable : Text × Json → Bool
  | (key, j) => isWellFormed key && j.isReadable

/-- `cjson.decode` accepts the entries. -/
def fieldsReadable : List (Text × Json) → Bool
  | [] => true
  | e :: fields => entryReadable e && fieldsReadable fields

end

mutual

/-- `cjson.encode(cjson.decode(document))` -/
def Json.recode : Json → Json
  | .num x => .num (fourteenDigits x)
  | .arr [] => .obj []
  | .arr (j :: js) => .arr (j.recode :: recodeItems js)
  | .obj fields => .obj (recodeFields fields)
  | j => j

/-- The elements of an array. -/
def recodeItems : List Json → List Json
  | [] => []
  | j :: js => j.recode :: recodeItems js

/-- An entry of an object. -/
def recodeEntry : Text × Json → Text × Json
  | (key, j) => (key, j.recode)

/-- The entries of an object. -/
def recodeFields : List (Text × Json) → List (Text × Json)
  | [] => []
  | e :: fields => recodeEntry e :: recodeFields fields

end

@[simp] theorem recodeItems_eq_map (js : List Json) : recodeItems js = js.map Json.recode := by
  induction js with
  | nil => rfl
  | cons j js ih => rw [recodeItems, ih, List.map_cons]

/-- What is under a key is recoded in its place. -/
@[simp] theorem get?_recodeFields (fields : Record Json) (key : Text) :
    Record.get? (recodeFields fields) key = (fields.get? key).map Json.recode := by
  induction fields with
  | nil => rfl
  | cons e fields ih =>
    obtain ⟨k, j⟩ := e
    rw [recodeFields, recodeEntry, Record.get?_cons, Record.get?_cons, ih]
    by_cases h : k = key
    · rw [if_pos h, if_pos h, Option.map_some]
    · rw [if_neg h, if_neg h]

theorem fieldsReadable_iff {fields : Record Json} : fieldsReadable fields = true ↔
    ∀ e ∈ fields, isWellFormed e.1 = true ∧ e.2.isReadable = true := by
  induction fields with
  | nil => simp [fieldsReadable]
  | cons e fields ih =>
    rw [fieldsReadable, Bool.and_eq_true, ih, List.forall_mem_cons]
    exact and_congr_left fun _ => by rw [entryReadable, Bool.and_eq_true]

end DreamWeaver
